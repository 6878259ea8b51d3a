import RustProxy.AnyTls.ClientFin

/-!
# Until the client's FIN

What a reader sees as the end of its stream is the client's FIN, unless
something else came first: the stream was shut down, its entry was removed for a
FIN of its id, or the session was closed. In a run in which none of these comes
first, an end of the stream means that the FIN was read.
-/

namespace RustProxy.AnyTls

open Session

/-- The reader of an instance got the client's FIN. -/
def Session.finRead (s : Session) (i : Nat) : Bool := (s.instances[i]?).any Instance.finRead

/-- The stream of an instance is shut down, and its entry removed for a FIN of
its id, only after the client's FIN was read. A shutdown that waits for room in
the outgoing channel does no harm. -/
def awaitsFin (i : Nat) (s : Session) : Event → Bool
  | .task j (.shutdown budget) =>
      j ≠ i || s.finRead i || (pollReserve i budget s).1 = .pending
  | .outgoing .entryRemoved =>
      match s.outgoingTask with
      | .removing item => s.streams.lookup item.streamId ≠ some i || s.finRead i
      | _ => true
  | _ => true

/-- Until its reader has the client's FIN, the FIN can reach the instance, and
its stream is at no end of its own. -/
structure Held (s : Session) (i : Nat) : Prop where
  routed : ∀ (inst : Instance) (me : AnyTlsStream), s.instances[i]? = some inst →
    inst.stream = some me → s.streams.lookup inst.id = some i ∨ Ending s.recv i inst
  eof : ∀ (inst : Instance) (me : AnyTlsStream), s.instances[i]? = some inst →
    inst.stream = some me → me.eof = true → inst.finRead = true
  closed : ∀ (inst : Instance) (me : AnyTlsStream), s.instances[i]? = some inst →
    inst.stream = some me → me.streamClosed = true → inst.finRead = true

variable {s t : Session} {i : Nat} {inst inst' : Instance} {items : List Item}

theorem held_start : Held Session.start i where
  routed inst me get := by simp [start] at get
  eof inst me get := by simp [start] at get
  closed inst me get := by simp [start] at get

theorem finRead_eq (found : s.instances[i]? = some inst) : s.finRead i = inst.finRead := by
  rw [Session.finRead, found]
  rfl

/-- What a step may do to an instance that is held. -/
structure Holds (s t : Session) (i : Nat) (x y : Instance) (me me' : AnyTlsStream) : Prop where
  id : y.id = x.id
  finRead : x.finRead = true → y.finRead = true
  eof : me'.eof = true → me.eof = true ∨ y.finRead = true
  closed : me'.streamClosed = true → me.streamClosed = true ∨ y.finRead = true
  routed : s.streams.lookup x.id = some i ∨ Ending s.recv i x →
    t.streams.lookup y.id = some i ∨ Ending t.recv i y

theorem Held.keep (h : Held s i)
    (holds : ∀ (y : Instance) (me' : AnyTlsStream), t.instances[i]? = some y → y.stream = some me' →
      ∃ x me, s.instances[i]? = some x ∧ x.stream = some me ∧ Holds s t i x y me me') :
    Held t i where
  routed y me' get stream := by
    obtain ⟨x, me, getX, streamX, holds⟩ := holds y me' get stream
    exact holds.routed (h.routed x me getX streamX)
  eof y me' get stream ended := by
    obtain ⟨x, me, getX, streamX, holds⟩ := holds y me' get stream
    rcases holds.eof ended with before | read
    · exact holds.finRead (h.eof x me getX streamX before)
    · exact read
  closed y me' get stream closed := by
    obtain ⟨x, me, getX, streamX, holds⟩ := holds y me' get stream
    rcases holds.closed closed with before | read
    · exact holds.finRead (h.closed x me getX streamX before)
    · exact read

/-- The instance is left alone, and stays routed. -/
theorem Held.same (h : Held s i) (instances : ∀ y, t.instances[i]? = some y →
      ∃ x, s.instances[i]? = some x ∧ y.id = x.id ∧ y.stream = x.stream ∧ y.finRead = x.finRead ∧
        (x.stream.isSome → s.streams.lookup x.id = some i ∨ Ending s.recv i x →
          t.streams.lookup y.id = some i ∨ Ending t.recv i y)) : Held t i := by
  apply h.keep
  intro y me' get stream
  obtain ⟨x, getX, id, same, read, routed⟩ := instances y get
  rw [same] at stream
  exact ⟨x, me', getX, stream, id, fun readX => read.trans readX, .inl, .inl,
    routed (by rw [stream]; rfl)⟩

/-- Steps away from the receive loop that keep the entry of the instance. -/
theorem Held.stand (h : Held s i) (instances : t.instances = s.instances) (recv : t.recv = s.recv)
    (streams : ∀ streamId, s.streams.lookup streamId = some i →
      t.streams.lookup streamId = some i) :
    Held t i := by
  refine h.same fun y get => ⟨y, instances ▸ get, rfl, rfl, rfl, ?_⟩
  intro _ routed
  rcases routed with stored | ending
  · exact .inl (streams y.id stored)
  · exact .inr (recv ▸ ending)

/-- The receive loop moves on from a point at which it pushes no FIN. -/
theorem Held.move (h : Held s i) (instances : t.instances = s.instances)
    (streams : t.streams = s.streams) (before : ∀ j, s.recv ≠ .finSend j) : Held t i := by
  refine h.same fun y get => ⟨y, instances ▸ get, rfl, rfl, rfl, ?_⟩
  intro _ routed
  rcases routed with stored | sending | marked
  · exact .inl (streams ▸ stored)
  · exact absurd sending (before i)
  · exact .inr (.inr marked)

/-- An accepted SYN leaves the entries of earlier instances, and its own
instance has one. -/
theorem Held.accept {streamId : UInt32} (h : Held s i)
    (absent : s.streams.lookup streamId = none) (at_ : s.recv = .synLookup streamId) :
    Held (s.accept streamId) i where
  routed y me get stream := by
    rcases getElem?_accept_cases get with earlier | ⟨rfl, rfl⟩
    · rcases h.routed y me earlier stream with stored | sending | marked
      · refine .inl (Table.lookup_insert_eq_some.mpr (.inr ⟨?_, stored⟩))
        rintro rfl
        rw [absent] at stored
        cases stored
      · rw [at_] at sending
        cases sending
      · exact .inr (.inr marked)
    · exact .inl (Table.lookup_insert_eq_some.mpr (.inl ⟨rfl, rfl⟩))
  eof y me get stream ended := by
    rcases getElem?_accept_cases get with earlier | ⟨-, rfl⟩
    · exact h.eof y me earlier stream ended
    · obtain rfl := Option.some.inj stream
      cases ended
  closed y me get stream closed := by
    rcases getElem?_accept_cases get with earlier | ⟨-, rfl⟩
    · exact h.closed y me earlier stream closed
    · obtain rfl := Option.some.inj stream
      cases closed

theorem Held.recv {event : RecvEvent} (h : Held s i) (taken : RecvTaken s event t) :
    Held t i := by
  cases taken with
  | calm at_ => exact h.move rfl rfl fun j => calm_ne at_ id
  | leave at_ =>
      unfold leaveRecvLoop
      split <;> exact h.move rfl rfl fun j => calm_ne at_ id
  | arrive at_ | psh at_ | syn at_ | fin at_ | pshMissed at_ | pshFound at_ | synDuplicate at_
  | finMissed at_ | stored at_ => exact h.move rfl rfl (by simp [at_])
  | synAccepted at_ absent => exact h.accept absent at_
  | @finFound streamId target at_ present =>
      refine h.same fun y get => ⟨y, get, rfl, rfl, rfl, ?_⟩
      intro _ routed
      rcases routed with stored | sending | marked
      · by_cases own : y.id = streamId
        · -- the FIN is the instance's own, and is pushed to it
          rw [own, present] at stored
          obtain rfl := Option.some.inj stored
          exact .inr (.inl rfl)
        · exact .inl (Table.lookup_erase_eq_some.mpr ⟨own, stored⟩)
      · rw [at_] at sending
        cases sending
      · exact .inr (.inr marked)
  | @receiverGone target data inst at_ found gone =>
      refine h.same fun y get => ⟨y, get, rfl, rfl, rfl, ?_⟩
      intro there routed
      rcases routed with stored | sending | marked
      · exact .inl stored
      · obtain rfl : target = i := by
          rcases at_ with at_ | ⟨at_, -⟩
          · rw [at_] at sending
            cases sending
          · rw [at_] at sending
            exact RecvAt.finSend.inj sending
        obtain rfl := Option.some.inj (found.symm.trans get)
        rw [gone] at there
        cases there
      · exact .inr (.inr marked)
  | @pushed target data inst me at_ found stream =>
      apply h.same
      intro y get
      rcases getElem?_set_cases get with ⟨rfl, rfl⟩ | ⟨other, get⟩
      · refine ⟨inst, found, rfl, rfl, rfl, ?_⟩
        intro _ routed
        rcases routed with stored | sending | mem | read
        · exact .inl stored
        · have empty : data = [] := by
            rcases at_ with at_ | ⟨-, empty⟩
            · rw [at_] at sending
              cases sending
            · exact empty
          exact .inr (.inr (.inl (by simp [empty])))
        · exact .inr (.inr (.inl (List.mem_append_left _ mem)))
        · exact .inr (.inr (.inr read))
      · refine ⟨y, get, rfl, rfl, rfl, ?_⟩
        intro _ routed
        rcases routed with stored | sending | marked
        · exact .inl stored
        · rcases at_ with at_ | ⟨at_, -⟩
          · rw [at_] at sending
            cases sending
          · rw [at_] at sending
            exact absurd (RecvAt.finSend.inj sending).symm other
        · exact .inr (.inr marked)

/-- A read moves on towards the FIN; the end of the channel is not the end of
the stream unless the FIN was read. -/
theorem Reads.holds {me me' : AnyTlsStream} {room : Nat} {answer : Poll (IoResult Bytes)}
    (h : Held s i) (found : s.instances[i]? = some inst) (stream : inst.stream = some me)
    (reads : Reads s i inst me room answer inst') (after : inst'.stream = some me') :
    Holds s (s.put i inst' [] s.waiting s.granted) i inst inst' me me' := by
  cases reads with
  | refused | atEnd | waits =>
      obtain rfl := Option.some.inj (stream.symm.trans after)
      exact ⟨rfl, id, .inl, .inl, id⟩
  | kept =>
      obtain rfl := Option.some.inj after
      refine ⟨rfl, id, .inl ∘ ?_, .inl ∘ ?_, id⟩
      all_goals
        unfold AnyTlsStream.consume
        split <;> exact id
  | @chunk data inbound n _ _ _ queued some_ =>
      obtain rfl := Option.some.inj after
      refine ⟨rfl, id, .inl ∘ ?_, .inl ∘ ?_, fun routed => ?_⟩
      · unfold AnyTlsStream.keep
        split <;> exact id
      · unfold AnyTlsStream.keep
        split <;> exact id
      · rcases routed with stored | sending | mem | read
        · exact .inl stored
        · exact .inr (.inl sending)
        · rw [queued] at mem
          rcases List.mem_cons.mp mem with empty | mem
          · exact absurd empty.symm some_
          · exact .inr (.inr (.inl mem))
        · exact .inr (.inr (.inr read))
  | fin =>
      exact ⟨rfl, fun _ => rfl, fun _ => .inr rfl, fun _ => .inr rfl,
        fun _ => .inr (.inr (.inr rfl))⟩
  | hungUp _ _ _ empty alone =>
      obtain rfl := Option.some.inj after
      -- nobody can send any more, so the FIN is not under way: it was read
      have read : inst.finRead = true := by
        have none_ : ¬s.hasSender i = true := by simp [alone]
        rw [hasSender_iff, not_or, not_or] at none_
        rcases h.routed inst me found stream with stored | sending | mem | read
        · exact absurd ⟨inst.id, stored⟩ none_.1
        · exact absurd sending none_.2.2
        · rw [empty] at mem
          cases mem
        · exact read
      exact ⟨rfl, id, fun _ => .inr read, .inl, id⟩

/-- The task of the held instance moves on, or another task does. -/
theorem Held.put {j : Nat} {streamTasks : Table UInt32 Nat} {close : CloseAt}
    {wire : List (Option Nat × Frame)} {waiting granted : List Nat} (h : Held s i)
    (found : s.instances[j]? = some inst)
    (holds : j = i → ∀ me', inst'.stream = some me' →
      ∃ me, inst.stream = some me ∧ Holds s s i inst inst' me me') :
    Held ({ s with streamTasks, close, wire }.put j inst' items waiting granted) i := by
  apply h.keep
  intro y me' get stream
  rcases getElem?_put_cases get with ⟨rfl, rfl⟩ | ⟨-, get⟩
  · obtain ⟨me, before, holds⟩ := holds rfl me' stream
    exact ⟨inst, me, found, before, holds.id, holds.finRead, holds.eof, holds.closed, holds.routed⟩
  · exact ⟨y, me', get, stream, rfl, id, .inl, .inl, id⟩

theorem moves_holds {task : TaskAt} {me' : AnyTlsStream} (after : inst.stream = some me') :
    ∃ me, inst.stream = some me ∧ Holds s s i inst { inst with task } me me' :=
  ⟨me', after, rfl, id, .inl, .inl, id⟩

theorem Drops.holds {s' : Session} {j : Nat} {task : TaskAt} {me' : AnyTlsStream}
    (h : Drops s' j inst inst' items) (after : inst'.stream = some me') :
    ∃ me, inst.stream = some me ∧ Holds s s i inst { inst' with task } me me' := by
  cases h with
  | gone none_ =>
      rw [none_] at after
      cases after
  | silent | fin => cases after

theorem Held.answers {j : Nat} {error : Option Bytes} {close : CloseAt}
    {wire : List (Option Nat × Frame)} (h : Held s i) (found : s.instances[j]? = some inst)
    (taken : Answers { s with close, wire } j inst error t) : Held t i := by
  cases taken with
  | relay => exact h.put found fun _ _ after => moves_holds after
  | fail drops => exact h.put found fun _ _ after => drops.holds after

theorem Held.task {j : Nat} {event : TaskEvent} (h : Held s i) (stays : s.isClosed = false)
    (met : awaitsFin i s (.task j event) = true) (found : s.instances[j]? = some inst)
    (taken : TaskTaken s j inst event t) : Held t i := by
  cases taken with
  | absent => exact h
  | @read _ _ me _ _ _ stream reads =>
      apply h.put found
      intro own me' after
      subst own
      have holds := reads.holds h found stream after
      exact ⟨me, stream, holds.id, holds.finRead, holds.eof, holds.closed, holds.routed⟩
  | @write _ _ me _ _ _ _ _ _ stream writes =>
      refine h.put found fun _ me' after => ⟨me, stream, ?_⟩
      cases writes with
      | refused | waits | sent =>
          obtain rfl := Option.some.inj (stream.symm.trans after)
          exact ⟨rfl, id, .inl, .inl, id⟩
  | @shutdown budget me _ _ _ _ _ _ stream shuts =>
      refine h.put found fun own me' after => ⟨me, stream, ?_⟩
      subst own
      cases shuts with
      | already =>
          obtain rfl := Option.some.inj (stream.symm.trans after)
          exact ⟨rfl, id, .inl, .inl, id⟩
      | silent isOver =>
          rw [stays] at isOver
          cases isOver
      | waits =>
          obtain rfl := Option.some.inj after
          exact ⟨rfl, id, .inl, .inl, id⟩
      | sent _ granted =>
          obtain rfl := Option.some.inj after
          have read : inst.finRead = true := by
            simpa [awaitsFin, granted, finRead_eq found] using met
          exact ⟨rfl, id, .inl, fun _ => .inr read, id⟩
  | opened _ answers | synackWritten _ answers | synackFailed _ answers | synackLate _ answers =>
      exact h.answers found answers
  | synack | synackTimedOut | cleanedUp => exact h.put found fun _ _ after => moves_holds after
  | returned _ drops | dropped _ _ drops => exact h.put found fun _ _ after => drops.holds after

theorem Held.outgoing {event : OutgoingEvent} (h : Held s i)
    (met : awaitsFin i s (.outgoing event) = true) (taken : OutgoingTaken s event t) :
    Held t i := by
  cases taken with
  | taken | closed | written | finWritten | failed | finFailed | dropped =>
      exact h.stand rfl rfl fun _ stored => stored
  | @removed item at_ =>
      refine h.same fun y (get : s.instances[i]? = some y) =>
        ⟨y, get, rfl, rfl, rfl, fun _ routed => ?_⟩
      rcases routed with stored | ending
      · by_cases own : y.id = item.streamId
        · have read : s.finRead i = true := by
            have either : s.streams.lookup item.streamId ≠ some i ∨ s.finRead i = true := by
              simpa [awaitsFin, at_] using met
            exact either.resolve_left fun different => different (own ▸ stored)
          rw [finRead_eq get] at read
          exact .inr (.inr (.inr read))
        · exact .inl (Table.lookup_erase_eq_some.mpr ⟨own, stored⟩)
      · exact .inr ending

/-- The steps under which an instance stays held: the session is open, and
what ends the stream comes after the client's FIN. -/
def keepsHeld (i : Nat) (s : Session) (event : Event) : Bool := !s.isClosed && awaitsFin i s event

theorem Held.step {event : Event} (h : Held s i) (met : keepsHeld i s event = true)
    (taken : Taken s event t) : Held t i := by
  simp only [keepsHeld, Bool.and_eq_true, Bool.not_eq_true'] at met
  obtain ⟨stays, met⟩ := met
  cases taken with
  | recv does => exact h.recv does
  | close does =>
      -- an open session is not being closed
      have uncalled := isClosed_eq_false.mp stays
      cases does with
      | drained at_ | cleared at_ | clearedLast at_ | shut at_ =>
          rw [uncalled] at at_
          cases at_
  | outgoing does => exact h.outgoing met does
  | task found does => exact h.task stays met found does

/-- All that is known of a session in which an instance is held. -/
structure Sound (s : Session) (i : Nat) : Prop where
  named : Named s
  demuxed : Demuxed s
  waits : RunWaits s
  marked : Marked s
  held : Held s i

theorem sound_start : Sound Session.start i :=
  ⟨named_start, demuxed_start, nofun, marked_start, held_start⟩

theorem Sound.step {padding : Padding} {event : Event} (h : Sound s i)
    (met : keepsHeld i s event = true) (taken : s.step padding event = some t) : Sound t i := by
  have does := taken_of_step taken
  exact ⟨h.named.step does, h.demuxed.step h.waits does, h.waits.step does,
    h.marked.step h.demuxed h.waits does, h.held.step met does⟩

/-- What only the task of an instance changes. -/
structure SameReader (inst inst' : Instance) : Prop where
  read : inst'.read = inst.read
  finRead : inst'.finRead = inst.finRead
  stream : inst'.stream = inst.stream
  task : inst'.task = inst.task

/-- The other tasks of an open session leave the reader of an instance alone. -/
theorem others_keep {event : Event} (stays : s.isClosed = false)
    (others : ∀ e, event ≠ .task i e) (found : s.instances[i]? = some inst)
    (taken : Taken s event t) : ∃ inst', t.instances[i]? = some inst' ∧ SameReader inst inst' := by
  have same {u : Session} (instances : u.instances = s.instances) :
      ∃ inst', u.instances[i]? = some inst' ∧ SameReader inst inst' :=
    ⟨inst, by rw [instances, found], rfl, rfl, rfl, rfl⟩
  cases taken with
  | recv does =>
      cases does with
      | calm | arrive | psh | syn | fin | pshMissed | pshFound | synDuplicate | finMissed | finFound
      | receiverGone | stored => exact same rfl
      | leave => exact same (leaveRecvLoop_instances _)
      | synAccepted =>
          refine ⟨inst, ?_, rfl, rfl, rfl, rfl⟩
          rw [accept, List.getElem?_append_left (List.getElem?_eq_some_iff.mp found).1, found]
      | @pushed target data at_ _ _ there =>
          by_cases own : target = i
          · subst own
            obtain rfl := Option.some.inj (found.symm.trans there)
            refine ⟨{ inst with inbound := inst.inbound ++ [data] }, ?_, rfl, rfl, rfl, rfl⟩
            simp [(List.getElem?_eq_some_iff.mp found).1]
          · refine ⟨inst, ?_, rfl, rfl, rfl, rfl⟩
            rw [List.getElem?_set_ne own, found]
  | close does =>
      have uncalled := isClosed_eq_false.mp stays
      cases does with
      | drained at_ | cleared at_ | clearedLast at_ | shut at_ =>
          rw [uncalled] at at_
          cases at_
  | outgoing does => cases does <;> exact same rfl
  | @task j _ event _ there does =>
      have other : j ≠ i := by
        rintro rfl
        exact others event rfl
      cases does.did with
      | idle => exact same rfl
      | acted =>
          refine ⟨inst, ?_, rfl, rfl, rfl, rfl⟩
          rw [put, List.getElem?_set_ne other, found]

/-- What a read brings to the reader of a held instance. -/
structure ReadsTo (inst : Instance) (me : AnyTlsStream) (room : Nat)
    (answer : Poll (IoResult Bytes)) (inst' : Instance) : Prop where
  read : inst'.read = inst.read ++ answeredBytes answer
  stays : inst.finRead = true → inst'.finRead = true ∧ answeredBytes answer = []
  finRead : inst'.finRead = true → inst.finRead = true ∨ answer = .ready (.ok [])
  eof : 0 < room → answer = .ready (.ok []) → inst'.finRead = true
  refused : ∀ e, answer = .ready (.error e) → inst.finRead = true
  stream : ∃ me', inst'.stream = some me' ∧ me'.streamClosed = me.streamClosed ∧
    me'.shutdownInProgress = me.shutdownInProgress

theorem Reads.readsTo {me : AnyTlsStream} {room : Nat} {answer : Poll (IoResult Bytes)}
    (sound : Sound s i) (found : s.instances[i]? = some inst) (stream : inst.stream = some me)
    (reads : Reads s i inst me room answer inst') : ReadsTo inst me room answer inst' := by
  have drained := sound.marked.drained i inst me found stream
  have noError {bytes : Bytes} (e : IoError)
      (failed : (.ready (.ok bytes) : Poll (IoResult Bytes)) = .ready (.error e)) :
      inst.finRead = true := by
    cases failed
  cases reads with
  | refused closed =>
      have read := sound.held.closed inst me found stream closed
      refine ⟨(List.append_nil _).symm, fun _ => ⟨read, rfl⟩, .inl, ?_, fun _ _ => read,
        me, stream, rfl, rfl⟩
      intro _ empty
      cases empty
  | atEnd ended =>
      have read := sound.held.eof inst me found stream ended
      exact ⟨(List.append_nil _).symm, fun _ => ⟨read, rfl⟩, .inl, fun _ _ => read, noError,
        me, stream, rfl, rfl⟩
  | waits =>
      refine ⟨(List.append_nil _).symm, fun read => ⟨read, rfl⟩, .inl, ?_, ?_,
        me, stream, rfl, rfl⟩
      · intro _ empty
        cases empty
      · intro e failed
        cases failed
  | @kept n _ left size =>
      refine ⟨rfl, fun read => absurd (drained read).1 left, .inl, fun room empty => ?_, noError,
        _, rfl, ?_⟩
      · have length : (me.rest.take n).length = 0 := by
          rw [Except.ok.inj (Poll.ready.inj empty)]
          rfl
        have some_ := List.length_pos_of_ne_nil left
        rw [List.length_take] at length
        omega
      · unfold AnyTlsStream.consume
        split <;> exact ⟨rfl, rfl⟩
  | @chunk data inbound n _ _ _ queued some_ size =>
      refine ⟨rfl, fun read => ?_, .inl, fun room empty => ?_, noError, _, rfl, ?_⟩
      · have none_ := (drained read).2
        rw [queued] at none_
        cases none_
      · have length : (data.take n).length = 0 := by
          rw [Except.ok.inj (Poll.ready.inj empty)]
          rfl
        have positive := List.length_pos_of_ne_nil some_
        rw [List.length_take] at length
        omega
      · unfold AnyTlsStream.keep
        split <;> exact ⟨rfl, rfl⟩
  | fin =>
      exact ⟨(List.append_nil _).symm, fun _ => ⟨rfl, rfl⟩, fun _ => .inr rfl, fun _ _ => rfl,
        noError, _, rfl, rfl, rfl⟩
  | hungUp opened more used empty alone =>
      have holds := Reads.holds sound.held found stream
        (.hungUp opened more used empty alone : Reads s i inst me room _ _) rfl
      have read : inst.finRead = true := by
        rcases holds.eof rfl with ended | read
        · rw [more] at ended
          cases ended
        · exact read
      exact ⟨(List.append_nil _).symm, fun _ => ⟨read, rfl⟩, .inl, fun _ _ => read, noError,
        _, rfl, rfl, rfl⟩

end RustProxy.AnyTls
