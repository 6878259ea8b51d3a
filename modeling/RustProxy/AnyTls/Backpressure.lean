import RustProxy.AnyTls.ClientFin
import RustProxy.AnyTls.Orphans
import RustProxy.Base.Places

/-!
# The channels of a session are bounded

What a session holds in memory for its streams is in channels: one from the
receive loop to each stream and one from all the streams to the outgoing loop.
None ever holds more than its capacity, however fast the client or the
destinations are, because a full channel keeps its senders waiting.

Waiting is fair: while a stream waits for a place in the outgoing channel, every
place is taken or promised to a stream that is still there, and a stream waits
or holds a promise at most once. So no place is lost with a stream that was
dropped, and none stays free while somebody waits for it.
-/

namespace RustProxy.AnyTls

open Session

/-- No channel is beyond its capacity, and the places of the outgoing one are
shared out among the streams that are there. -/
structure Bounded (s : Session) : Prop where
  inbound : ∀ inst ∈ s.instances, inst.inbound.length ≤ STREAM_CHANNEL_BUFFER
  places : Places.Fair OUTGOING_BUFFER s.outgoing.length s.waiting s.granted
  live : ∀ i ∈ s.waiting ++ s.granted, hasStream s i = true

variable {padding : Padding} {s t : Session} {i : Nat} {inst inst' : Instance} {me : AnyTlsStream}

theorem bounded_start : Bounded Session.start where
  inbound := List.forall_mem_nil _
  places := Places.fair_empty
  live := List.forall_mem_nil _

/-- The part of it that the outgoing channel is about. -/
structure FairlyShared (s : Session) : Prop where
  places : Places.Fair OUTGOING_BUFFER s.outgoing.length s.waiting s.granted
  live : ∀ i ∈ s.waiting ++ s.granted, hasStream s i = true

theorem free_iff : 0 < s.available ↔ s.outgoing.length + s.granted.length < OUTGOING_BUFFER := by
  rw [available]
  omega

theorem hasStream_of_found (found : s.instances[i]? = some inst) (stream : inst.stream = some me) :
    hasStream s i = true := by
  simp [hasStream, found, stream]

/-- An instance is replaced by one that has its stream if it had. -/
theorem hasStream_modify {f : Instance → Instance} {j : Nat}
    (same : t.instances = s.instances.modify i f)
    (keeps : ∀ inst, inst.stream.isSome = true → (f inst).stream.isSome = true)
    (live : hasStream s j = true) : hasStream t j = true := by
  unfold hasStream at live ⊢
  rw [same, List.getElem?_modify]
  cases found : s.instances[j]? with
  | none =>
      rw [found] at live
      cases live
  | some inst =>
      rw [found] at live
      simp only [Option.map_eq_map, Option.map_some, Option.any_some] at live ⊢
      split
      · exact keeps inst live
      · exact live

theorem hasStream_modify_ne {f : Instance → Instance} {j : Nat}
    (same : t.instances = s.instances.modify i f) (other : j ≠ i) :
    hasStream t j = hasStream s j := by
  unfold hasStream
  rw [same, List.getElem?_modify]
  simp [Ne.symm other]

theorem FairlyShared.modify {f : Instance → Instance} (h : FairlyShared s)
    (same : t.instances = s.instances.modify i f)
    (keeps : ∀ inst, inst.stream.isSome = true → (f inst).stream.isSome = true)
    (outgoing : t.outgoing = s.outgoing) (waiting : t.waiting = s.waiting)
    (granted : t.granted = s.granted) : FairlyShared t where
  places := by
    rw [outgoing, waiting, granted]
    exact h.places
  live j mem := by
    rw [waiting, granted] at mem
    exact hasStream_modify same keeps (h.live j mem)

/-- What asking for a place can lead to: nothing, a wait, or an item in the channel. -/
inductive Asks (i : Nat) (s : Session) : Session → Prop
  | refused : Asks i s s
  | waits {budget : Bool} {t : Session} (reserve : pollReserve i budget s = (.pending, t)) :
      Asks i s t
  | sends {budget : Bool} {t : Session} {item : UInt32 × Bytes}
      (reserve : pollReserve i budget s = (.ready .granted, t)) : Asks i s (t.sendItem i item)

theorem pollReserve_not_closed {budget : Bool} (reserve : pollReserve i budget s =
    (.ready .channelClosed, t)) : False := by
  rcases pollReserve_cases s i budget with ⟨waiting, other⟩ | ⟨granted, other⟩
  · cases other.symm.trans reserve
  · cases other.symm.trans reserve

theorem pollWrite_asks (buf : Bytes) (budget sessionClosed : Bool) :
    Asks i s (me.pollWrite buf (dataTx i budget) sessionClosed s).2.2 := by
  unfold AnyTlsStream.pollWrite
  split
  · exact .refused
  · split
    · exact .refused
    · split
      · exact .refused
      · cases reserve : (dataTx i budget).pollReserve s with
        | mk answer t =>
            rcases answer with _ | ⟨_ | _⟩
            · exact .waits reserve
            · exact .sends reserve
            · exact (pollReserve_not_closed reserve).elim

theorem pollShutdown_asks (budget sessionClosed : Bool) :
    Asks i s (me.pollShutdown (dataTx i budget) sessionClosed s).2.2 := by
  unfold AnyTlsStream.pollShutdown
  split
  · exact .refused
  · split
    · exact .refused
    · cases reserve : (dataTx i budget).pollReserve s with
      | mk answer t =>
          rcases answer with _ | ⟨_ | _⟩
          · exact .waits reserve
          · exact .sends reserve
          · exact (pollReserve_not_closed reserve).elim

theorem FairlyShared.asks (h : FairlyShared s) (found : s.instances[i]? = some inst)
    (stream : inst.stream = some me) (asks : Asks i s t) : FairlyShared t := by
  have sends (u : Session) (item : UInt32 × Bytes) (instances : u.instances = s.instances)
      (places : Places.Fair OUTGOING_BUFFER (u.outgoing.length + 1) u.waiting u.granted)
      (fewer : ∀ j ∈ u.waiting ++ u.granted, j ∈ s.waiting ++ s.granted) :
      FairlyShared (u.sendItem i item) := by
    refine ⟨?_, ?_⟩
    · rw [sendItem, List.length_append, List.length_singleton]
      exact places
    · intro j mem
      refine hasStream_modify (s := u) rfl (fun _ some_ => some_) ?_
      rw [hasStream, instances]
      exact h.live j (fewer j mem)
  cases asks with
  | refused => exact h
  | @waits budget _ reserve =>
      unfold pollReserve at reserve
      split at reserve
      · obtain rfl := (Prod.mk.inj reserve).2
        exact h
      · split at reserve
        · cases (Prod.mk.inj reserve).1
        · rename_i unpromised
          split at reserve
          · obtain rfl := (Prod.mk.inj reserve).2
            exact h
          · rename_i fresh
            split at reserve
            · cases (Prod.mk.inj reserve).1
            · rename_i full
              obtain rfl := (Prod.mk.inj reserve).2
              refine ⟨h.places.wait (fun free => full (free_iff.mpr free)) fresh unpromised, ?_⟩
              intro j mem
              rw [List.append_assoc, List.mem_append, List.mem_append, List.mem_singleton] at mem
              rcases mem with mem | rfl | mem
              · exact h.live j (List.mem_append_left _ mem)
              · exact hasStream_of_found found stream
              · exact h.live j (List.mem_append_right _ mem)
  | @sends budget _ item reserve =>
      unfold pollReserve at reserve
      split at reserve
      · cases (Prod.mk.inj reserve).1
      · split at reserve
        · rename_i promised
          obtain rfl := (Prod.mk.inj reserve).2
          refine sends _ item rfl (h.places.claim promised) ?_
          intro j mem
          rcases List.mem_append.mp mem with mem | mem
          · exact List.mem_append_left _ mem
          · exact List.mem_append_right _ (List.mem_of_mem_erase mem)
        · split at reserve
          · cases (Prod.mk.inj reserve).1
          · split at reserve
            · rename_i free
              obtain rfl := (Prod.mk.inj reserve).2
              exact sends s item rfl (h.places.take (free_iff.mp free)) fun _ mem => mem
            · cases (Prod.mk.inj reserve).1

/-- An operation of a stream asks for a place at most, and the stream is put back. -/
theorem FairlyShared.withStream {α : Type}
    {op : AnyTlsStream → Session → Poll (IoResult α) × AnyTlsStream × Session}
    (h : FairlyShared s) (found : s.instances[i]? = some inst)
    (asks : ∀ me, Asks i s (op me s).2.2) : FairlyShared (s.withStream i op).2 := by
  cases stream : inst.stream with
  | none =>
      rw [withStream_absent found stream]
      exact h
  | some me =>
      have shared := h.asks found stream (asks me)
      have ran : (s.withStream i op).2 = (op me s).2.2.modifyInstance i fun inst =>
          { inst with stream := some (op me s).2.1 } := by
        simp [Session.withStream, found, stream]
      rw [ran]
      exact shared.modify rfl (fun _ _ => rfl) rfl rfl rfl

theorem FairlyShared.pollRead {room : Nat} {budget : Bool} (h : FairlyShared s)
    (found : s.instances[i]? = some inst) : FairlyShared (s.pollRead i room budget).2 := by
  cases stream : inst.stream with
  | none =>
      have idle : s.pollRead i room budget = (.pending, s) := by
        rw [Session.pollRead, withStream_absent found stream]
      rw [idle]
      exact h
  | some me =>
      obtain ⟨inst', reads, put⟩ := pollRead_reads found stream room budget
      rw [put]
      refine h.modify (i := i) (f := fun _ => inst')
        (modify_eq_set (f := fun _ => inst') found).symm ?_ (List.append_nil _) rfl rfl
      intro _ _
      have kept : inst'.stream.isSome = inst.stream.isSome := by
        generalize (s.pollRead i room budget).1 = answer at reads
        cases reads <;> simp [stream]
      rw [kept, stream]
      rfl

theorem FairlyShared.pollWrite {buf : Bytes} {budget : Bool} (h : FairlyShared s)
    (found : s.instances[i]? = some inst) : FairlyShared (s.pollWrite i buf budget).2 := by
  have shared : FairlyShared
      (s.withStream i fun me => me.pollWrite buf (dataTx i budget) s.isClosed).2 :=
    h.withStream found fun _ => pollWrite_asks buf budget s.isClosed
  unfold Session.pollWrite
  split
  case h_1 n u ran =>
    rw [ran] at shared
    exact shared.modify rfl (fun _ some_ => some_) rfl rfl rfl
  case h_2 => exact shared

theorem FairlyShared.pollShutdown {budget : Bool} (h : FairlyShared s)
    (found : s.instances[i]? = some inst) : FairlyShared (s.pollShutdown i budget).2 :=
  h.withStream found fun _ => pollShutdown_asks budget s.isClosed

/-- Handing a place over concerns those only who have waited. -/
theorem mem_handOver {j : Nat} (mem : j ∈ s.handOver.waiting ++ s.handOver.granted) :
    j ∈ s.waiting ++ s.granted := by
  unfold handOver at mem
  split at mem
  case h_1 => exact mem
  case h_2 first rest waits =>
    split at mem
    case isTrue =>
      rw [waits]
      simp only [List.mem_append, List.mem_cons, List.not_mem_nil, or_false] at mem ⊢
      rcases mem with mem | mem | mem
      · exact .inl (.inr mem)
      · exact .inr mem
      · exact .inl (.inl mem)
    case isFalse => exact mem

/-- A place that has become free is handed over at once. -/
theorem fairlyShared_handOver
    (places : Places.Eased OUTGOING_BUFFER s.outgoing.length s.waiting s.granted)
    (live : ∀ i ∈ s.waiting ++ s.granted, hasStream s i = true) : FairlyShared s.handOver := by
  refine ⟨?_, ?_⟩
  · unfold handOver
    split
    case h_1 none_ => exact places.keep (.inl none_)
    case h_2 first rest waits =>
      rw [waits] at places
      split
      case isTrue free => exact places.hand (free_iff.mp free)
      case isFalse full =>
        rw [waits]
        exact places.keep (.inr fun free => full (free_iff.mpr free))
  · intro j mem
    obtain ⟨waiting, granted, handed⟩ := handOver_eq s
    have still := live j (mem_handOver mem)
    rw [hasStream] at still ⊢
    rw [handed]
    exact still

theorem FairlyShared.trySend {item : UInt32 × Bytes} (h : FairlyShared s) :
    FairlyShared (s.trySend i item) := by
  unfold Session.trySend
  split
  case isTrue free =>
    refine ⟨?_, fun j mem => hasStream_modify rfl (fun _ some_ => some_) (h.live j mem)⟩
    rw [sendItem, List.length_append, List.length_singleton]
    exact h.places.take (free_iff.mp free)
  case isFalse => exact h

/-- A stream that is dropped leaves its place to the next one. -/
theorem FairlyShared.dropStream (h : FairlyShared s) : FairlyShared (s.dropStream i) := by
  unfold Session.dropStream
  split
  case h_1 => exact h
  case h_2 me _ =>
    have dropped : FairlyShared (me.drop (Session.trySend i) s) := by
      unfold AnyTlsStream.drop
      split
      · exact h
      · exact h.trySend
    have left := dropped.places.not_mem_quit i
    generalize me.drop (Session.trySend i) s = u at dropped left
    have quit := dropped.places.quit i
    have live : ∀ j ∈ u.waiting.erase i ++ u.granted.erase i, hasStream u j = true := by
      intro j mem
      refine dropped.live j ?_
      rcases List.mem_append.mp mem with mem | mem
      · exact List.mem_append_left _ (List.mem_of_mem_erase mem)
      · exact List.mem_append_right _ (List.mem_of_mem_erase mem)
    have handed := fairlyShared_handOver
      (s := { u with waiting := u.waiting.erase i, granted := u.granted.erase i }) quit live
    refine ⟨handed.places, fun j mem => ?_⟩
    have other : j ≠ i := by
      rintro rfl
      exact left (mem_handOver (s := { u with
        waiting := u.waiting.erase j, granted := u.granted.erase j }) mem)
    exact (hasStream_modify_ne rfl other).trans (handed.live j mem)

/-! ## The outgoing channel along a run -/

theorem FairlyShared.setTask {task : TaskAt} (h : FairlyShared s) :
    FairlyShared (s.setTask i task) :=
  h.modify rfl (fun _ some_ => some_) rfl rfl rfl

theorem FairlyShared.afterSynack {error : Option Bytes} (h : FairlyShared s) :
    FairlyShared (s.afterSynack i error) := by
  cases error with
  | none => exact h.setTask
  | some => exact h.dropStream.setTask

/-- Fields that have nothing to do with the channel. -/
theorem FairlyShared.aside (h : FairlyShared s) (instances : t.instances = s.instances)
    (outgoing : t.outgoing = s.outgoing) (waiting : t.waiting = s.waiting)
    (granted : t.granted = s.granted) : FairlyShared t where
  places := by
    rw [outgoing, waiting, granted]
    exact h.places
  live j mem := by
    rw [waiting, granted] at mem
    rw [hasStream, instances]
    exact h.live j mem

theorem FairlyShared.finishClose {closer : Closer} (h : FairlyShared s) :
    FairlyShared (s.finishClose closer) := by
  have done : FairlyShared { s with close := .done } := h.aside rfl rfl rfl rfl
  cases closer with
  | run => exact h.aside rfl rfl rfl rfl
  | task i =>
      simp only [Session.finishClose]
      split
      · exact done.afterSynack
      · exact done

theorem FairlyShared.drainTasks (h : FairlyShared s) : FairlyShared s.drainTasks := by
  refine ⟨h.places, fun j mem => ?_⟩
  have live := h.live j mem
  unfold hasStream at live ⊢
  show Option.any _ (abortAll s.streamTasks s.instances)[j]? = true
  rw [abortAll, List.getElem?_mapIdx]
  cases found : s.instances[j]? with
  | none =>
      rw [found] at live
      cases live
  | some inst =>
      rw [found] at live
      simp only [Option.map_some, Option.any_some] at live ⊢
      split
      · exact live
      · exact live

theorem FairlyShared.close {event : CloseEvent} (h : FairlyShared s)
    (taken : s.closeStep event = some t) : FairlyShared t := by
  cases event with
  | tasksDrained =>
      simp only [closeStep] at taken
      split at taken
      case h_1 =>
        obtain rfl := Option.some.inj taken
        exact h.drainTasks.aside rfl rfl rfl rfl
      case h_2 => cases taken
  | streamsCleared writerFree =>
      simp only [closeStep] at taken
      split at taken
      case h_1 =>
        obtain rfl := Option.some.inj taken
        have cleared : FairlyShared { s with streams := ∅ } := h.aside rfl rfl rfl rfl
        split
        · exact h.aside rfl rfl rfl rfl
        · exact cleared.finishClose
      case h_2 => cases taken
  | writerShut =>
      simp only [closeStep] at taken
      split at taken
      case h_1 =>
        obtain rfl := Option.some.inj taken
        exact h.finishClose
      case h_2 => cases taken

theorem FairlyShared.outgoing {event : OutgoingEvent} (h : FairlyShared s)
    (taken : s.outgoingStep event = some t) : FairlyShared t := by
  cases event with
  | taken =>
      simp only [outgoingStep] at taken
      split at taken
      case h_1 item outgoing _ queued =>
        obtain rfl := Option.some.inj taken
        have freed : Places.Eased OUTGOING_BUFFER outgoing.length s.waiting s.granted := by
          have places := h.places
          rw [queued, List.length_cons] at places
          exact places.free
        exact (fairlyShared_handOver (s := { s with outgoing }) freed h.live).aside rfl rfl rfl rfl
      case h_2 => cases taken
  | frameWritten | frameFailed =>
      simp only [outgoingStep] at taken
      split at taken
      case h_1 =>
        obtain rfl := Option.some.inj taken
        exact h.aside rfl rfl rfl rfl
      case h_2 => cases taken
  | entryRemoved =>
      simp only [outgoingStep] at taken
      split at taken
      case h_1 =>
        obtain ⟨-, taken⟩ := Option.ite_none_right_eq_some.mp taken
        obtain rfl := Option.some.inj taken
        exact h.aside rfl rfl rfl rfl
      case h_2 => cases taken
  | dropped =>
      obtain ⟨-, taken⟩ := Option.ite_none_right_eq_some.mp taken
      obtain rfl := Option.some.inj taken
      exact h.aside rfl rfl rfl rfl

theorem FairlyShared.task {event : TaskEvent} (h : FairlyShared s)
    (found : s.instances[i]? = some inst) (taken : s.taskStep i inst event = some t) :
    FairlyShared t := by
  cases event with
  | read room budget =>
      obtain ⟨-, taken⟩ := Option.ite_none_right_eq_some.mp taken
      exact Option.some.inj taken ▸ h.pollRead found
  | write buf budget =>
      obtain ⟨-, taken⟩ := Option.ite_none_right_eq_some.mp taken
      exact Option.some.inj taken ▸ h.pollWrite found
  | shutdown budget =>
      obtain ⟨-, taken⟩ := Option.ite_none_right_eq_some.mp taken
      exact Option.some.inj taken ▸ h.pollShutdown found
  | opened error =>
      obtain ⟨-, taken⟩ := Option.ite_none_right_eq_some.mp taken
      obtain rfl := Option.some.inj taken
      split
      · exact h.afterSynack
      · exact h.setTask
  | synackWritten =>
      simp only [taskStep] at taken
      split at taken
      case h_1 error _ =>
        obtain rfl := Option.some.inj taken
        have written : FairlyShared
            { s with wire := s.wire ++ [(some i, synackFrame inst.id error)] } :=
          h.aside rfl rfl rfl rfl
        exact written.afterSynack
      case h_2 => cases taken
  | synackFailed =>
      simp only [taskStep] at taken
      split at taken
      case h_1 =>
        obtain rfl := Option.some.inj taken
        exact h.afterSynack
      case h_2 => cases taken
  | synackTimedOut =>
      simp only [taskStep] at taken
      split at taken
      case h_1 =>
        obtain rfl := Option.some.inj taken
        have draining : FairlyShared { s with close := .draining (.task i) } :=
          h.aside rfl rfl rfl rfl
        split
        · exact h.afterSynack
        · exact draining.setTask
      case h_2 => cases taken
  | handlerReturned =>
      obtain ⟨-, taken⟩ := Option.ite_none_right_eq_some.mp taken
      exact Option.some.inj taken ▸ h.dropStream.setTask
  | cleanedUp =>
      obtain ⟨-, taken⟩ := Option.ite_none_right_eq_some.mp taken
      obtain rfl := Option.some.inj taken
      have erased : FairlyShared { s with streamTasks := s.streamTasks.erase inst.id } :=
        h.aside rfl rfl rfl rfl
      exact erased.setTask
  | dropped =>
      obtain ⟨-, taken⟩ := Option.ite_none_right_eq_some.mp taken
      obtain rfl := Option.some.inj taken
      have abandoned : FairlyShared { s with close := abandonClose i s.close } :=
        h.aside rfl rfl rfl rfl
      exact abandoned.dropStream.setTask

theorem FairlyShared.recv {event : RecvEvent} (h : FairlyShared s)
    (taken : RecvTaken s event t) : FairlyShared t := by
  cases taken with
  | leave =>
      unfold leaveRecvLoop
      split <;> exact h.aside rfl rfl rfl rfl
  | synAccepted =>
      refine ⟨h.places, fun j mem => ?_⟩
      have live := h.live j mem
      unfold hasStream at live ⊢
      cases found : s.instances[j]? with
      | none =>
          rw [found] at live
          cases live
      | some inst =>
          show Option.any _ (s.instances ++ _)[j]? = true
          rw [List.getElem?_append_left (List.getElem?_eq_some_iff.mp found).1]
          exact live
  | @pushed target data inst _ _ found =>
      have set := modify_eq_set
        (f := fun inst : Instance => { inst with inbound := inst.inbound ++ [data] }) found
      exact h.modify set.symm (fun _ some_ => some_) rfl rfl rfl
  | _ => exact h.aside rfl rfl rfl rfl

theorem FairlyShared.step {event : Event} (h : FairlyShared s)
    (taken : s.step padding event = some t) : FairlyShared t := by
  cases event with
  | recv => exact h.recv (recvTaken_of_step taken)
  | close => exact h.close taken
  | outgoing => exact h.outgoing taken
  | task i event =>
      obtain ⟨inst, found, taken⟩ := Option.bind_eq_some_iff.mp taken
      exact h.task found taken

/-! ## The channels of the streams -/

/-- Every channel to a stream is within its capacity. -/
def Roomy (s : Session) : Prop :=
  ∀ inst ∈ s.instances, inst.inbound.length ≤ STREAM_CHANNEL_BUFFER

/-- A step that takes out of the channels at most. -/
theorem Roomy.consumes (h : Roomy s) (ids : ∀ j, t.idOf j = s.idOf j)
    (consumes : ∀ (j : Nat) (x y : Instance), s.instances[j]? = some x →
      t.instances[j]? = some y → Consumes x y) : Roomy t := by
  intro y mem
  obtain ⟨j, get⟩ := List.getElem?_of_mem mem
  obtain ⟨x, getX, -⟩ := idOf_eq_some.mp ((ids j).symm.trans (idOf_of_getElem? get))
  have most := h x (List.mem_of_getElem? getX)
  exact (consumes j x y getX get).inbound.length_le.trans most

theorem Roomy.recv {event : RecvEvent} (h : Roomy s) (taken : s.recvStep padding event = some t) :
    Roomy t := by
  cases recvTaken_of_step taken with
  | leave =>
      intro inst mem
      rw [leaveRecvLoop_instances] at mem
      exact h inst mem
  | synAccepted =>
      intro inst mem
      rcases List.mem_append.mp mem with mem | mem
      · exact h inst mem
      · obtain rfl := List.mem_singleton.mp mem
        exact Nat.zero_le _
  | @pushed target data inst me at_ found stream =>
      -- the receive loop has waited until there was room
      have room : inst.inbound.length < STREAM_CHANNEL_BUFFER := by
        rcases at_ with at_ | ⟨at_, rfl⟩
        all_goals
          simp only [recvStep, at_, push, found, stream, Option.isNone_some, Bool.false_eq_true,
            if_false] at taken
          exact (Option.ite_none_right_eq_some.mp taken).1
      intro other mem
      rcases List.mem_or_eq_of_mem_set mem with mem | rfl
      · exact h other mem
      · rw [List.length_append, List.length_singleton]
        exact room
  | _ => exact h

theorem Roomy.step {event : Event} (h : Roomy s) (taken : s.step padding event = some t) :
    Roomy t := by
  cases event with
  | recv => exact h.recv taken
  | close =>
      have does := closeTaken_of_step taken
      refine h.consumes does.continues.ids ?_
      cases does with
      | drained =>
          intro j x y getX get
          obtain ⟨x', aborted, getX', rfl, -⟩ := getElem?_abortAll get
          obtain rfl := Option.some.inj (getX.symm.trans getX')
          exact consumes_of_inbound rfl rfl fun me' after => ⟨me', after, id⟩
      | cleared => exact consumes_of_instances rfl
      | clearedLast _ finishes | shut _ finishes => exact finishes.consumes
  | outgoing =>
      have does := outgoingTaken_of_step taken
      refine h.consumes does.continues.ids ?_
      cases does <;> exact consumes_of_instances rfl
  | task i event =>
      obtain ⟨inst, found, taken⟩ := Option.bind_eq_some_iff.mp taken
      have did := (taskTaken_of_step found taken).did
      exact h.consumes (did.continues found).ids (did.consumes found)

theorem Bounded.step {event : Event} (h : Bounded s) (taken : s.step padding event = some t) :
    Bounded t := by
  have shared : FairlyShared t := FairlyShared.step ⟨h.places, h.live⟩ taken
  exact ⟨Roomy.step h.inbound taken, shared.places, shared.live⟩

/-- Whatever the client and the destinations do, the channels stay within their
capacities and nobody waits for a place that is free or lost. -/
theorem channels_bounded (padding : Padding) (events : List Event) :
    Transition.Always (Session.step padding) Bounded Session.start events :=
  Transition.always_of_invariant (fun _ => id) (fun _ _ _ => Bounded.step) bounded_start events

end RustProxy.AnyTls
