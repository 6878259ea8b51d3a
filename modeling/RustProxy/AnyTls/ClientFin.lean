import RustProxy.AnyTls.Inbound

/-!
# The client's FIN

A FIN that finds the entry of its id takes it out of `streams` and is pushed to
the instance as an empty chunk, the last one that the instance is sent. A reader
that got it has read all that the client pushed before the FIN.
-/

namespace RustProxy.AnyTls

open Session

/-- An empty chunk is the last one. -/
def MarkLast (inbound : List Bytes) : Prop :=
  ∀ before after, inbound = before ++ [] :: after → after = []

/-- The FIN has left `streams`: it is being pushed, is in the channel, or was
read. -/
def Ending (recv : RecvAt) (i : Nat) (inst : Instance) : Prop :=
  recv = .finSend i ∨ [] ∈ inst.inbound ∨ inst.finRead = true

structure Marked (s : Session) : Prop where
  payload : ∀ data, (∃ streamId, s.recv = .pshLookup streamId data) ∨
    (∃ target, s.recv = .pshSend target data) → data ≠ []
  arrived : ∀ streamId, s.recv = .finLookup streamId →
    ∃ data, s.arrived.getLast? = some (.withData .fin streamId data)
  freed : ∀ i, s.recv = .finSend i → ∀ streamId, s.streams.lookup streamId ≠ some i
  unmarked : ∀ (i : Nat) (inst : Instance), s.instances[i]? = some inst → s.hasSender i = true →
    [] ∉ inst.inbound ∧ inst.finRead = false
  last : ∀ (i : Nat) (inst : Instance), s.instances[i]? = some inst → MarkLast inst.inbound
  drained : ∀ (i : Nat) (inst : Instance) (me : AnyTlsStream), s.instances[i]? = some inst →
    inst.stream = some me → inst.finRead = true → me.rest = [] ∧ inst.inbound = []
  ended : ∀ (i : Nat) (inst : Instance), s.instances[i]? = some inst → inst.stream.isSome →
    Ending s.recv i inst → ¬Unfinished inst.id (s.arrived.drop inst.synAt) ∧
      received s.recv i inst = pushed inst.id (s.arrived.drop inst.synAt)

theorem marked_start : Marked Session.start where
  payload data held := by simp [start] at held
  arrived streamId looking := by simp [start] at looking
  freed i sending := by simp [start] at sending
  unmarked i inst get := by simp [start] at get
  last i inst get := by simp [start] at get
  drained i inst me get := by simp [start] at get
  ended i inst get := by simp [start] at get

variable {s t : Session} {i : Nat} {inst inst' : Instance} {items : List Item}

theorem hasSender_iff : s.hasSender i = true ↔ (∃ streamId, s.streams.lookup streamId = some i) ∨
    (∃ data, s.recv = .pshSend i data) ∨ s.recv = .finSend i := by
  have entry : s.streams.entries.any (fun entry => entry.2 = i) = true ↔
      ∃ streamId, s.streams.lookup streamId = some i := by
    rw [List.any_eq_true]
    constructor
    · rintro ⟨entry, mem, own⟩
      obtain rfl : entry.2 = i := by simpa using own
      exact ⟨entry.1, Table.mem_entries_iff.mp mem⟩
    · rintro ⟨streamId, stored⟩
      exact ⟨⟨streamId, i⟩, Table.mem_entries_iff.mpr stored, by simp⟩
  rw [hasSender, Bool.or_eq_true, entry]
  cases s.recv <;> simp [eq_comm]

/-- A reader that got the FIN has read all that was pushed before it. -/
theorem Marked.read_eq_pushed {me : AnyTlsStream} (h : Marked s)
    (get : s.instances[i]? = some inst) (stream : inst.stream = some me)
    (finRead : inst.finRead = true) :
    inst.read = pushed inst.id (s.arrived.drop inst.synAt) := by
  obtain ⟨-, all⟩ := h.ended i inst get (by rw [stream]; rfl) (.inr (.inr finRead))
  obtain ⟨rest, inbound⟩ := h.drained i inst me get stream finRead
  have flight : s.recv.inFlight i = [] := by
    by_contra flying
    have sender : s.hasSender i = true := by
      cases at_ : s.recv with
      | pshSend target data =>
          rw [at_, RecvAt.inFlight] at flying
          split at flying
          case isTrue own => exact hasSender_iff.mpr (.inr (.inl ⟨data, by rw [at_, own]⟩))
          case isFalse => exact absurd rfl flying
      | _ => simp [at_, RecvAt.inFlight] at flying
    rw [(h.unmarked i inst get sender).2] at finRead
    cases finRead
  rw [← all, received_of_stream stream, rest, inbound, flight]
  simp

theorem pushed_of_finished {streamId : UInt32} {xs ys : List Frame}
    (h : ¬Unfinished streamId xs) : pushed streamId (xs ++ ys) = pushed streamId xs := by
  induction xs with
  | nil => exact absurd nofun h
  | cons frame frames ih =>
      simp only [List.cons_append, pushed]
      by_cases fin : frame.streamId = streamId ∧ frame.cmd = .fin
      · simp only [if_pos fin]
      · have rest : ¬Unfinished streamId frames := by
          intro none_
          apply h
          intro f mem
          rcases List.mem_cons.mp mem with rfl | mem
          · exact fin
          · exact none_ f mem
        simp only [if_neg fin, ih rest]

theorem not_unfinished_append {streamId : UInt32} {xs ys : List Frame}
    (h : ¬Unfinished streamId xs) : ¬Unfinished streamId (xs ++ ys) :=
  fun none_ => h fun frame mem => none_ frame (List.mem_append_left _ mem)

theorem MarkLast.suffix {xs ys : List Bytes} (h : MarkLast ys) (le : xs <:+ ys) : MarkLast xs := by
  obtain ⟨dropped, rfl⟩ := le
  intro before after at_
  exact h (dropped ++ before) after (by rw [at_, List.append_assoc])

/-- What a step of its task does to the channel of an instance. -/
structure Consumes (inst inst' : Instance) : Prop where
  inbound : inst'.inbound <:+ inst.inbound
  finRead : inst'.finRead = true → inst.finRead = true ∨ [] ∈ inst.inbound
  drained : MarkLast inst.inbound →
    (∀ me, inst.stream = some me → inst.finRead = true → me.rest = [] ∧ inst.inbound = []) →
    ∀ me, inst'.stream = some me → inst'.finRead = true → me.rest = [] ∧ inst'.inbound = []

theorem consumes_self : Consumes inst inst := ⟨List.suffix_refl _, .inl, fun _ h => h⟩

/-- The channel is left alone, and the kept chunk does not grow. -/
theorem consumes_of_inbound (inbound : inst'.inbound = inst.inbound)
    (finRead : inst'.finRead = inst.finRead)
    (rest : ∀ me', inst'.stream = some me' →
      ∃ me, inst.stream = some me ∧ (me.rest = [] → me'.rest = [])) : Consumes inst inst' := by
  refine ⟨inbound ▸ List.suffix_refl _, fun read => .inl (finRead ▸ read),
    fun _ h me' after read => ?_⟩
  obtain ⟨me, stream, shrinks⟩ := rest me' after
  obtain ⟨used, empty⟩ := h me stream (finRead ▸ read)
  exact ⟨shrinks used, inbound ▸ empty⟩

theorem Reads.consumes {me : AnyTlsStream} {room : Nat} {answer : Poll (IoResult Bytes)}
    (stream : inst.stream = some me) (h : Reads s i inst me room answer inst') :
    Consumes inst inst' := by
  cases h with
  | refused | atEnd | waits => exact consumes_self
  | @kept n =>
      refine consumes_of_inbound rfl rfl fun me' after => ⟨me, stream, ?_⟩
      intro used
      rw [← Option.some.inj after, AnyTlsStream.rest_consume, used, List.drop_nil]
  | @chunk data inbound n _ _ used queued =>
      refine ⟨queued ▸ List.suffix_cons _ _, .inl, ?_⟩
      intro _ drained me' after read
      obtain ⟨-, empty⟩ := drained me stream read
      rw [empty] at queued
      cases queued
  | @fin inbound _ _ used queued =>
      refine ⟨queued ▸ List.suffix_cons _ _, fun _ => .inr (by simp [queued]),
        fun last _ me' after _ => ⟨?_, last [] inbound queued⟩⟩
      rw [← Option.some.inj after]
      exact used
  | hungUp =>
      refine consumes_of_inbound rfl rfl fun me' after => ⟨me, stream, ?_⟩
      intro used
      rw [← Option.some.inj after]
      exact used

theorem Acts.consumes (h : Acts s i inst inst' items) : Consumes inst inst' := by
  cases h with
  | reads stream reads => exact reads.consumes stream
  | writes stream writes =>
      cases writes with
      | refused | waits => exact consumes_self
      | sent => exact consumes_of_inbound rfl rfl fun me' after => ⟨me', after, id⟩
  | shuts stream shuts =>
      cases shuts with
      | already => exact consumes_self
      | silent | waits | sent =>
          refine consumes_of_inbound rfl rfl fun me' after => ⟨_, stream, ?_⟩
          intro used
          rw [← Option.some.inj after]
          exact used
  | moves => exact consumes_of_inbound rfl rfl fun me' after => ⟨me', after, id⟩
  | drops drops =>
      cases drops with
      | gone => exact consumes_of_inbound rfl rfl fun me' after => ⟨me', after, id⟩
      | silent | fin => exact ⟨List.nil_suffix, .inl, fun _ _ => nofun⟩

theorem consumes_of_instances (instances : t.instances = s.instances) (j : Nat) (x y : Instance)
    (getX : s.instances[j]? = some x) (get : t.instances[j]? = some y) : Consumes x y := by
  rw [instances, getX] at get
  obtain rfl := Option.some.inj get
  exact consumes_self

theorem Did.consumes (found : s.instances[i]? = some inst) (h : Did s i inst t) (j : Nat)
    (x y : Instance) (getX : s.instances[j]? = some x) (get : t.instances[j]? = some y) :
    Consumes x y := by
  cases h with
  | idle => exact consumes_of_instances rfl j x y getX get
  | acted _ _ acts =>
      rcases getElem?_put_cases get with ⟨rfl, rfl⟩ | ⟨-, get⟩
      · obtain rfl := Option.some.inj (getX.symm.trans found)
        exact acts.consumes
      · obtain rfl := Option.some.inj (getX.symm.trans get)
        exact consumes_self

/-- A step that pushes nothing and takes no entry out for a FIN. -/
theorem Marked.keep {frames : List Frame} (h : Marked s) (demuxed : Demuxed s)
    (on : Handles s t frames)
    (consumes : ∀ (j : Nat) (x y : Instance), s.instances[j]? = some x →
      t.instances[j]? = some y → Consumes x y)
    (senders : ∀ j, t.hasSender j = true → s.hasSender j = true)
    (sending : ∀ j, t.recv = .finSend j → s.recv = .finSend j)
    (payload : ∀ data, (∃ streamId, t.recv = .pshLookup streamId data) ∨
      (∃ target, t.recv = .pshSend target data) → data ≠ [])
    (arrived : ∀ streamId, t.recv = .finLookup streamId →
      ∃ data, t.arrived.getLast? = some (.withData .fin streamId data)) : Marked t where
  payload := payload
  arrived := arrived
  freed i sent streamId stored :=
    h.freed i (sending i sent) streamId (on.continues.streams streamId i stored)
  unmarked j y get sender := by
    obtain ⟨x, getX, -⟩ := on.instances j y get
    have before := consumes j x y getX get
    obtain ⟨unmarked, unread⟩ := h.unmarked j x getX (senders j sender)
    refine ⟨fun mem => unmarked (before.inbound.subset mem), ?_⟩
    by_contra read
    rcases before.finRead (by simpa using read) with readX | mem
    · rw [unread] at readX
      cases readX
    · exact unmarked mem
  last j y get := by
    obtain ⟨x, getX, -⟩ := on.instances j y get
    exact (h.last j x getX).suffix (consumes j x y getX get).inbound
  drained j y me get stream read := by
    obtain ⟨x, getX, -⟩ := on.instances j y get
    exact (consumes j x y getX get).drained (h.last j x getX) (fun me => h.drained j x me getX) me
      stream read
  ended j y get there ending := by
    obtain ⟨x, getX, delivers⟩ := on.instances j y get
    obtain ⟨thereX, same⟩ := delivers.all there
    have before := consumes j x y getX get
    have endingX : Ending s.recv j x := by
      rcases ending with sent | mem | read
      · exact .inl (sending j sent)
      · exact .inr (.inl (before.inbound.subset mem))
      · exact .inr ((before.finRead read).symm)
    obtain ⟨finished, all⟩ := h.ended j x getX thereX endingX
    have window : t.arrived.drop y.synAt = s.arrived.drop x.synAt ++ frames := by
      rw [on.arrived, delivers.synAt, List.drop_append_of_le_length (demuxed.opened j x getX).1]
    rw [window, delivers.id, same, pushed_of_finished finished]
    exact ⟨not_unfinished_append finished, all⟩

theorem hasSender_of_streams (streams : ∀ streamId j, t.streams.lookup streamId = some j →
    s.streams.lookup streamId = some j) (recv : t.recv = s.recv) (j : Nat)
    (sender : t.hasSender j = true) : s.hasSender j = true := by
  rw [hasSender_iff, recv] at sender
  rw [hasSender_iff]
  rcases sender with ⟨streamId, stored⟩ | sending
  · exact .inl ⟨streamId, streams streamId j stored⟩
  · exact .inr sending

/-- The receive loop stands still. -/
theorem Marked.stand (h : Marked s) (demuxed : Demuxed s) (on : Handles s t [])
    (recv : t.recv = s.recv)
    (consumes : ∀ (j : Nat) (x y : Instance), s.instances[j]? = some x →
      t.instances[j]? = some y → Consumes x y) : Marked t := by
  refine h.keep demuxed on consumes (hasSender_of_streams on.continues.streams recv) ?_ ?_ ?_
  · rw [recv]
    exact fun j sending => sending
  · rw [recv]
    exact h.payload
  · rw [recv, on.arrived, List.append_nil]
    exact h.arrived

/-- The receive loop sends to an instance. -/
def RecvAt.sends : RecvAt → Bool
  | .pshSend .. | .finSend _ => true
  | _ => false

/-- The receive loop moves on to a point at which it sends nothing. -/
theorem Marked.move {frames : List Frame} (h : Marked s) (demuxed : Demuxed s)
    (on : Handles s t frames)
    (consumes : ∀ (j : Nat) (x y : Instance), s.instances[j]? = some x →
      t.instances[j]? = some y → Consumes x y)
    (point : t.recv.sends = false)
    (payload : ∀ streamId data, t.recv = .pshLookup streamId data → data ≠ [])
    (arrived : ∀ streamId, t.recv = .finLookup streamId →
      ∃ data, t.arrived.getLast? = some (.withData .fin streamId data)) : Marked t := by
  have still {recv : RecvAt} (sends : recv.sends = true) : t.recv ≠ recv := by
    rintro rfl
    rw [point] at sends
    cases sends
  refine h.keep demuxed on consumes ?_ (fun j sent => absurd sent (still rfl)) ?_ arrived
  · intro j sender
    rcases hasSender_iff.mp sender with ⟨streamId, stored⟩ | ⟨data, sending⟩ | sending
    · exact hasSender_iff.mpr (.inl ⟨streamId, on.continues.streams streamId j stored⟩)
    · exact absurd sending (still rfl)
    · exact absurd sending (still rfl)
  · rintro data (⟨streamId, held⟩ | ⟨target, held⟩)
    · exact payload streamId data held
    · exact absurd held (still rfl)

/-- The receive loop finds the entry for a payload: no FIN was sent there. -/
theorem Marked.find {streamId : UInt32} {data : Bytes} {target : Nat} (h : Marked s)
    (at_ : s.recv = .pshLookup streamId data)
    (present : s.streams.lookup streamId = some target) :
    Marked { s with recv := .pshSend target data } where
  payload other held := by
    rcases held with ⟨id, held⟩ | ⟨j, held⟩
    · cases held
    · obtain ⟨rfl, rfl⟩ := RecvAt.pshSend.inj held
      exact h.payload data (.inl ⟨streamId, at_⟩)
  arrived := nofun
  freed := nofun
  unmarked j x get sender := by
    refine h.unmarked j x get (hasSender_iff.mpr ?_)
    rcases hasSender_iff.mp sender with ⟨id, stored⟩ | ⟨other, sending⟩ | sending
    · exact .inl ⟨id, stored⟩
    · obtain ⟨rfl, -⟩ := RecvAt.pshSend.inj sending
      exact .inl ⟨streamId, present⟩
    · cases sending
  last := h.last
  drained := h.drained
  ended j x get there ending := by
    have marked : [] ∈ x.inbound ∨ x.finRead = true := by
      rcases ending with sending | marked
      · cases sending
      · exact marked
    have other : j ≠ target := by
      rintro rfl
      obtain ⟨unmarked, unread⟩ := h.unmarked j x get (hasSender_iff.mpr (.inl ⟨streamId, present⟩))
      rcases marked with mem | read
      · exact unmarked mem
      · rw [unread] at read
        cases read
    have same : received (.pshSend target data) j x = received s.recv j x :=
      received_congr (by simp [at_, RecvAt.inFlight, Ne.symm other])
    exact same ▸ h.ended j x get there (.inr marked)

theorem Marked.accept {streamId : UInt32} (h : Marked s) (at_ : s.recv = .synLookup streamId) :
    Marked (s.accept streamId) where
  payload data held := by
    rcases held with ⟨id, held⟩ | ⟨j, held⟩
    · cases held
    · cases held
  arrived := nofun
  freed := nofun
  unmarked j x get sender := by
    rcases getElem?_accept_cases get with earlier | ⟨-, rfl⟩
    · refine h.unmarked j x earlier (hasSender_iff.mpr (.inl ?_))
      rcases hasSender_iff.mp sender with ⟨id, stored⟩ | ⟨data, sending⟩ | sending
      · rcases Table.lookup_insert_eq_some.mp stored with ⟨-, rfl⟩ | ⟨-, stored⟩
        · have inside := (List.getElem?_eq_some_iff.mp earlier).1
          omega
        · exact ⟨id, stored⟩
      · cases sending
      · cases sending
    · exact ⟨by simp [Instance.new], rfl⟩
  last j x get := by
    rcases getElem?_accept_cases get with earlier | ⟨-, rfl⟩
    · exact h.last j x earlier
    · intro before after at_
      simp [Instance.new] at at_
  drained j x me get stream read := by
    rcases getElem?_accept_cases get with earlier | ⟨-, rfl⟩
    · exact h.drained j x me earlier stream read
    · cases read
  ended j x get there ending := by
    rcases getElem?_accept_cases get with earlier | ⟨-, rfl⟩
    · have same : received (.synStore streamId s.instances.length) j x = received s.recv j x :=
        received_congr (by simp [at_, RecvAt.inFlight])
      refine same ▸ h.ended j x earlier there (.inr ?_)
      rcases ending with sending | marked
      · cases sending
      · exact marked
    · simp [Ending, Session.accept, Instance.new] at ending

/-- A FIN that was just received stands after the SYN of every instance. -/
theorem Demuxed.fin_after_syn {data : Bytes} (h : Demuxed s) (get : s.instances[i]? = some inst)
    (fin : s.arrived.getLast? = some (.withData .fin inst.id data)) :
    ¬Unfinished inst.id (s.arrived.drop inst.synAt) := by
  obtain ⟨inside, syn, opened⟩ := h.opened i inst get
  have before : inst.synAt < s.arrived.length := by
    by_contra whole
    rw [List.take_of_length_le (by omega), fin] at opened
    simp [Frame.withData] at opened
  have last : (s.arrived.drop inst.synAt).getLast? = some (.withData .fin inst.id data) := by
    rw [List.getLast?_drop, if_neg (by omega), fin]
  exact fun none_ => none_ _ (List.mem_of_getLast? last) ⟨rfl, rfl⟩

/-- A FIN takes the entry of its id out. -/
theorem Marked.free {streamId : UInt32} {target : Nat} (h : Marked s) (demuxed : Demuxed s)
    (at_ : s.recv = .finLookup streamId) (present : s.streams.lookup streamId = some target) :
    Marked { s with streams := s.streams.erase streamId, recv := .finSend target } where
  payload data held := by
    rcases held with ⟨id, held⟩ | ⟨j, held⟩
    · cases held
    · cases held
  arrived := nofun
  freed i sending id stored := by
    obtain rfl := RecvAt.finSend.inj sending
    obtain ⟨different, stored⟩ := Table.lookup_erase_eq_some.mp stored
    have named := demuxed.named.streams id target stored
    rw [demuxed.named.streams streamId target present] at named
    exact different (Option.some.inj named).symm
  unmarked j x get sender := by
    refine h.unmarked j x get (hasSender_iff.mpr (.inl ?_))
    rcases hasSender_iff.mp sender with ⟨id, stored⟩ | ⟨data, sending⟩ | sending
    · exact ⟨id, (Table.lookup_erase_eq_some.mp stored).2⟩
    · cases sending
    · obtain rfl := RecvAt.finSend.inj sending
      exact ⟨streamId, present⟩
  last := h.last
  drained := h.drained
  ended j x get there ending := by
    have same : received (.finSend target) j x = received s.recv j x :=
      received_congr (by simp [at_, RecvAt.inFlight])
    rcases ending with sending | marked
    · obtain rfl := RecvAt.finSend.inj sending
      obtain ⟨inst, found, id⟩ := idOf_eq_some.mp (demuxed.named.streams streamId target present)
      obtain rfl := Option.some.inj (get.symm.trans found)
      subst id
      obtain ⟨data, fin⟩ := h.arrived x.id at_
      have none_ : s.recv.lookedUp x.id = [] := by rw [at_]; rfl
      have all := demuxed.complete target x get present there
      rw [none_, List.append_nil] at all
      exact ⟨demuxed.fin_after_syn get fin, same.trans all⟩
    · exact same ▸ h.ended j x get there (.inr marked)

theorem markLast_concat {xs : List Bytes} {data : Bytes} (unmarked : [] ∉ xs) :
    MarkLast (xs ++ [data]) := by
  intro before after at_
  rcases List.eq_nil_or_concat after with none_ | ⟨front, last, rfl⟩
  · exact none_
  · rw [List.concat_eq_append, ← List.cons_append, ← List.append_assoc] at at_
    obtain ⟨rfl, -⟩ := List.append_inj' at_ rfl
    exact absurd (by simp) unmarked

/-- A chunk reaches the channel of its instance. -/
theorem Marked.push {frames : List Frame} {target : Nat} {data : Bytes} (h : Marked s)
    (at_ : s.recv = .pshSend target data ∨ s.recv = .finSend target ∧ data = [])
    (found : s.instances[target]? = some inst)
    (on : Handles s { s with
      instances := s.instances.set target { inst with inbound := inst.inbound ++ [data] }
      recv := .decoding } frames) :
    Marked { s with
      instances := s.instances.set target { inst with inbound := inst.inbound ++ [data] }
      recv := .decoding } := by
  have sender : s.hasSender target = true := by
    rcases at_ with at_ | ⟨at_, -⟩
    · exact hasSender_iff.mpr (.inr (.inl ⟨data, at_⟩))
    · exact hasSender_iff.mpr (.inr (.inr at_))
  obtain ⟨unmarked, unread⟩ := h.unmarked target inst found sender
  have mark (empty : data = []) : s.recv = .finSend target := by
    rcases at_ with at_ | ⟨at_, -⟩
    · exact absurd empty (h.payload data (.inr ⟨target, at_⟩))
    · exact at_
  have senders (j : Nat) (sender : ∃ streamId, s.streams.lookup streamId = some j) :
      s.hasSender j = true := hasSender_iff.mpr (.inl sender)
  have entry {u : Session} (recv : u.recv = .decoding) {j : Nat} (sender : u.hasSender j = true) :
      ∃ streamId, u.streams.lookup streamId = some j := by
    rcases hasSender_iff.mp sender with stored | ⟨data, sending⟩ | sending
    · exact stored
    · rw [recv] at sending; cases sending
    · rw [recv] at sending; cases sending
  exact
    { payload := fun data held => by
        rcases held with ⟨id, held⟩ | ⟨j, held⟩
        · cases held
        · cases held
      arrived := nofun
      freed := nofun
      unmarked := fun j y get sender => by
        obtain ⟨streamId, stored⟩ := entry rfl sender
        rcases getElem?_set_cases get with ⟨rfl, rfl⟩ | ⟨-, get⟩
        · refine ⟨?_, unread⟩
          intro mem
          rcases List.mem_append.mp mem with mem | mem
          · exact unmarked mem
          · -- a FIN is pushed only after its entry is gone
            exact h.freed j (mark (List.mem_singleton.mp mem).symm) streamId stored
        · exact h.unmarked j y get (senders j ⟨streamId, stored⟩)
      last := fun j y get => by
        rcases getElem?_set_cases get with ⟨-, rfl⟩ | ⟨-, get⟩
        · exact markLast_concat unmarked
        · exact h.last j y get
      drained := fun j y me get stream read => by
        rcases getElem?_set_cases get with ⟨-, rfl⟩ | ⟨-, get⟩
        · rw [unread] at read
          cases read
        · exact h.drained j y me get stream read
      ended := fun j y get there ending => by
        obtain ⟨x, getX, delivers⟩ := on.instances j y get
        obtain ⟨thereX, same⟩ := delivers.all there
        have endingX : Ending s.recv j x := by
          rcases getElem?_set_cases get with ⟨rfl, rfl⟩ | ⟨-, get⟩
          · rcases ending with sending | mem | read
            · cases sending
            · rcases List.mem_append.mp mem with mem | mem
              · exact absurd mem unmarked
              · exact .inl (mark (List.mem_singleton.mp mem).symm)
            · rw [unread] at read
              cases read
          · obtain rfl := Option.some.inj (getX.symm.trans get)
            rcases ending with sending | marked
            · cases sending
            · exact .inr marked
        rw [same, delivers.id, delivers.synAt]
        exact h.ended j x getX thereX endingX }

theorem Marked.recv {event : RecvEvent} (h : Marked s) (demuxed : Demuxed s)
    (taken : RecvTaken s event t) : Marked t := by
  have routes := taken.routes
  cases routes with
  | finds at_ present => exact h.find at_ present
  | accepts at_ => exact h.accept at_
  | handles on =>
      cases taken with
      | @calm _ recv _ _ _ _ next | @arrive _ recv _ _ _ next =>
          refine h.move demuxed on (consumes_of_instances rfl) ?_ ?_ ?_
          · cases recv <;> first | rfl | exact next.elim
          · exact fun streamId data held => absurd held (calm_ne next id)
          · exact fun streamId looking => absurd looking (calm_ne next id)
      | leave =>
          refine h.move demuxed on (consumes_of_instances (leaveRecvLoop_instances _)) ?_ ?_ ?_
          · rcases leaveRecvLoop_recv _ with recv | recv <;> rw [recv] <;> rfl
          · rcases leaveRecvLoop_recv _ with recv | recv <;> rw [recv] <;> exact nofun
          · rcases leaveRecvLoop_recv _ with recv | recv <;> rw [recv] <;> exact nofun
      | psh at_ some_ =>
          refine h.move demuxed on (consumes_of_instances rfl) rfl ?_ nofun
          intro id data held
          obtain ⟨-, rfl⟩ := RecvAt.pshLookup.inj held
          exact some_
      | fin at_ =>
          refine h.move demuxed on (consumes_of_instances rfl) rfl nofun fun id looking => ?_
          obtain rfl := RecvAt.finLookup.inj looking
          exact ⟨_, List.getLast?_concat⟩
      | syn | pshMissed | synDuplicate | finMissed | receiverGone | stored =>
          exact h.move demuxed on (consumes_of_instances rfl) rfl nofun nofun
      | pshFound at_ present => exact h.find at_ present
      | synAccepted at_ => exact h.accept at_
      | finFound at_ present => exact h.free demuxed at_ present
      | pushed at_ found => exact h.push at_ found on

theorem Finishes.consumes {closer : Closer} (h : Finishes s closer t) (j : Nat) (x y : Instance)
    (getX : s.instances[j]? = some x) (get : t.instances[j]? = some y) : Consumes x y := by
  cases h with
  | run | alone => exact consumes_of_instances rfl j x y getX get
  | task found at_ answers =>
      exact (answers.did (s := s) (by simp [Instance.isOver, at_])).consumes found j x y getX get

theorem Finishes.recv {closer : Closer} (h : Finishes s closer t) :
    t.recv = s.recv ∨ t.recv = .returned := by
  cases h with
  | run => exact .inr rfl
  | task _ _ answers => cases answers <;> exact .inl rfl
  | alone => exact .inl rfl

theorem Marked.close {event : CloseEvent} (h : Marked s) (demuxed : Demuxed s) (waits : RunWaits s)
    (taken : CloseTaken s event t) : Marked t := by
  have on := taken.handles waits
  -- `close` lets the receive loop stand, or ends it
  have done (recv : t.recv = s.recv ∨ t.recv = .returned)
      (consumes : ∀ (j : Nat) (x y : Instance), s.instances[j]? = some x →
        t.instances[j]? = some y → Consumes x y) : Marked t := by
    rcases recv with same | returned
    · exact h.stand demuxed on same consumes
    · exact h.move demuxed on consumes (by rw [returned]; rfl) (by rw [returned]; exact nofun)
        (by rw [returned]; exact nofun)
  cases taken with
  | drained =>
      apply done (.inl rfl)
      intro j x y getX get
      obtain ⟨x', aborted, getX', rfl, -⟩ := getElem?_abortAll get
      obtain rfl := Option.some.inj (getX.symm.trans getX')
      exact consumes_of_inbound rfl rfl fun me' after => ⟨me', after, id⟩
  | cleared => exact done (.inl rfl) (consumes_of_instances rfl)
  | clearedLast _ finishes | shut _ finishes => exact done finishes.recv finishes.consumes

theorem Marked.step {event : Event} (h : Marked s) (demuxed : Demuxed s) (waits : RunWaits s)
    (taken : Taken s event t) : Marked t := by
  cases taken with
  | recv does => exact h.recv demuxed does
  | close does => exact h.close demuxed waits does
  | outgoing does =>
      have on := does.handles
      cases does <;> exact h.stand demuxed on rfl (consumes_of_instances rfl)
  | task found does =>
      have did := does.did
      have on := did.handles found
      refine h.stand demuxed on ?_ (did.consumes found)
      cases did with
      | idle | acted => rfl

end RustProxy.AnyTls
