import RustProxy.Base.Transition
import RustProxy.Hysteria2.Cases

/-!
# Reassembly: the cache invariant and the one panic

`WellFormed` is what holds of a cached packet between datagrams: a slot for
each fragment, a count of the filled ones that is neither zero nor complete,
and the length of what they hold. Under it the additions cannot overflow, the
two `unwrap`s of a completed packet succeed, and the only statement of the
reassembly that can panic is the slot index, since the fragment id is never
compared with the fragment count.

`reassembly_safe_iff` gives the exact condition on a run: no datagram reaches
that index with its id out of range.
-/

namespace RustProxy.Hysteria2

/-- The bytes a slot holds. -/
def slotLength (slot : Option Bytes) : Nat := (slot.map List.length).getD 0

/-- The invariant of a cached packet between datagrams. -/
structure FragmentedPacket.WellFormed (p : FragmentedPacket) : Prop where
  length : p.received.length = p.fragmentCount.toNat
  counted : p.fragmentReceived.toNat = p.received.countP Option.isSome
  positive : 0 < p.fragmentReceived.toNat
  incomplete : p.fragmentReceived.toNat < p.fragmentCount.toNat
  total : p.packetLen = (p.received.map slotLength).sum

/-- The part of the invariant that a packet has also while a datagram is being
filed, with the size of each fragment. -/
structure FragmentedPacket.Slots (p : FragmentedPacket) : Prop where
  length : p.received.length = p.fragmentCount.toNat
  counted : p.fragmentReceived.toNat = p.received.countP Option.isSome
  total : p.packetLen = (p.received.map slotLength).sum
  carried : ∀ slot ∈ p.received, slotLength slot < 2 ^ 16

/-- Every cached packet is well formed, and its fragments came in datagrams. -/
def CacheOk (fragments : FragmentCache) : Prop :=
  ∀ packetId p, fragments.get? packetId = some p → p.WellFormed ∧ p.Slots

theorem cacheOk_empty : CacheOk Lru.empty := by
  intro packetId p found
  simp at found

theorem slots_new (d : Datagram) : (FragmentedPacket.new d).Slots where
  length := by simp [FragmentedPacket.new]
  counted := by simp [FragmentedPacket.new, List.countP_replicate]
  total := by simp [FragmentedPacket.new, slotLength]
  carried := by simp [FragmentedPacket.new, slotLength]

/-- Filling an empty slot adds one to the count and its length to the total. -/
theorem set_slot {slots : List (Option Bytes)} {i : Nat} (payload : Bytes)
    (vacant : slots[i]? = some none) :
    (slots.set i (some payload)).countP Option.isSome = slots.countP Option.isSome + 1 ∧
      ((slots.set i (some payload)).map slotLength).sum =
        (slots.map slotLength).sum + payload.length := by
  induction slots generalizing i with
  | nil => simp at vacant
  | cons slot slots ih =>
      cases i with
      | zero =>
          obtain rfl : slot = none := by simpa using vacant
          simp [slotLength, Nat.add_comm]
      | succ i =>
          obtain ⟨count, sum⟩ := ih (by simpa using vacant)
          simp only [List.set_cons_succ, List.countP_cons, List.map_cons, List.sum_cons, count, sum]
          omega

theorem sum_slotLength_le {slots : List (Option Bytes)}
    (carried : ∀ slot ∈ slots, slotLength slot < 2 ^ 16) :
    (slots.map slotLength).sum ≤ slots.length * 65536 := by
  induction slots with
  | nil => simp
  | cons slot slots ih =>
      have first := carried slot List.mem_cons_self
      have rest := ih fun other member => carried other (List.mem_cons_of_mem _ member)
      simp only [List.map_cons, List.sum_cons, List.length_cons]
      omega

theorem joinSlots_ok {slots : List (Option Bytes)} (all : ∀ slot ∈ slots, slot.isSome) :
    ∃ payload, joinSlots slots = .ok payload := by
  induction slots with
  | nil => exact ⟨[], rfl⟩
  | cons slot slots ih =>
      obtain ⟨rest, joined⟩ := ih fun other member => all other (List.mem_cons_of_mem _ member)
      obtain ⟨fragment, rfl⟩ := Option.isSome_iff_exists.mp (all slot List.mem_cons_self)
      exact ⟨fragment ++ rest, by simp [joinSlots, joined, Except.map]⟩

namespace FragmentedPacket

variable {p filled : FragmentedPacket} {fragmentId : UInt8} {payload : Bytes}

/-- A packet has at most 255 fragments of less than 64 KiB each. -/
theorem Slots.packetLen_lt (h : p.Slots) : p.packetLen < 2 ^ 24 := by
  have bound := sum_slotLength_le h.carried
  have count := p.fragmentCount.toNat_lt
  rw [h.length, ← h.total] at bound
  omega

/-- With an empty slot left, neither addition overflows. -/
theorem Slots.fill_ok (h : p.Slots) (vacant : p.received[fragmentId.toNat]? = some none)
    (carried : payload.length < 2 ^ 16) : ∃ filled, p.fill fragmentId payload = .ok filled := by
  have some_left : p.received.countP Option.isSome < p.received.length := by
    rw [lt_iff_le_and_ne]
    refine ⟨List.countP_le_length, ?_⟩
    intro full
    have := List.countP_eq_length.mp full none (List.mem_of_getElem? vacant)
    simp at this
  have received : p.fragmentReceived ≠ 255 := by
    intro full
    have count := p.fragmentCount.toNat_lt
    have := h.counted
    rw [full] at this
    rw [← this, h.length] at some_left
    have : (255 : UInt8).toNat = 255 := rfl
    omega
  have length := h.packetLen_lt
  refine ⟨_, if_neg ?_⟩
  rw [not_or, not_le]
  refine ⟨received, ?_⟩
  have : usizeBound = 2 ^ 64 := rfl
  omega

theorem Slots.fill (h : p.Slots) (vacant : p.received[fragmentId.toNat]? = some none)
    (carried : payload.length < 2 ^ 16) (filling : p.fill fragmentId payload = .ok filled) :
    filled.Slots ∧ 0 < filled.fragmentReceived.toNat := by
  obtain ⟨room, _, rfl⟩ := fill_eq_ok filling
  obtain ⟨count, sum⟩ := set_slot payload vacant
  have received : (p.fragmentReceived + 1).toNat = p.fragmentReceived.toNat + 1 := by
    have small := p.fragmentReceived.toNat_lt
    have : p.fragmentReceived.toNat ≠ 255 := fun full => room (UInt8.toNat_inj.mp full)
    rw [UInt8.toNat_add, UInt8.toNat_one]
    omega
  refine ⟨⟨?_, ?_, ?_, ?_⟩, ?_⟩
  · simpa using h.length
  · change (p.fragmentReceived + 1).toNat = _
    rw [received, count, h.counted]
  · change p.packetLen + payload.length = _
    rw [sum, h.total]
  · intro slot member
    rcases List.mem_or_eq_of_mem_set member with old | rfl
    · exact h.carried slot old
    · exact carried
  · change 0 < (p.fragmentReceived + 1).toNat
    omega

theorem Slots.fragmentReceived_le (h : p.Slots) :
    p.fragmentReceived.toNat ≤ p.fragmentCount.toNat := by
  rw [h.counted, ← h.length]
  exact List.countP_le_length

/-- A packet with every fragment counted has every slot filled. -/
theorem Slots.joinSlots_ok (h : p.Slots) (all : p.fragmentReceived = p.fragmentCount) :
    ∃ payload, joinSlots p.received = .ok payload := by
  apply Hysteria2.joinSlots_ok
  have full : p.received.countP Option.isSome = p.received.length := by
    rw [← h.counted, h.length, all]
  exact fun slot member => List.countP_eq_length.mp full slot member

/-- A packet that is counted but not complete is fit for the cache. -/
theorem Slots.wellFormed (h : p.Slots) (positive : 0 < p.fragmentReceived.toNat)
    (notAll : p.fragmentReceived ≠ p.fragmentCount) : p.WellFormed where
  length := h.length
  counted := h.counted
  positive := positive
  incomplete := by
    have := h.fragmentReceived_le
    have : p.fragmentReceived.toNat ≠ p.fragmentCount.toNat :=
      fun same => notAll (UInt8.toNat_inj.mp same)
    omega
  total := h.total

end FragmentedPacket

/-! ## One datagram -/

/-- The datagram makes the reassembly index a slot that is not there: its id is
not below its count, and no packet with another count is cached under its
packet id, which would have been dropped first. -/
def OutOfRange (fragments : FragmentCache) (d : Datagram) : Prop :=
  1 < d.fragmentCount.toNat ∧ d.fragmentCount.toNat ≤ d.fragmentId.toNat ∧
    ∀ p, fragments.get? d.packetId = some p → p.fragmentCount = d.fragmentCount

variable {fragments : FragmentCache} {d : Datagram}

theorem entryFor_slots (ok : CacheOk fragments) : (entryFor fragments d).Slots := by
  unfold entryFor
  cases cached : fragments.get? d.packetId with
  | none => exact slots_new d
  | some p => exact (ok _ _ cached).2

theorem entryFor_count_iff :
    (entryFor fragments d).fragmentCount = d.fragmentCount ↔
      ∀ p, fragments.get? d.packetId = some p → p.fragmentCount = d.fragmentCount := by
  unfold entryFor
  cases cached : fragments.get? d.packetId with
  | none => simp [FragmentedPacket.new]
  | some p => simp

/-- A datagram that is filed without a panic leaves the invariant. -/
theorem CacheOk.reassemble (ok : CacheOk fragments) {cache : FragmentCache}
    {complete : Option (Bytes × NetLocation)}
    (filed : reassemble fragments d = .ok (cache, complete)) : CacheOk cache := by
  intro packetId p found
  rcases reassemble_get? filed found with ⟨before, -⟩ | ⟨-, -, -, vacant, filling, notAll⟩
  · exact ok packetId p before
  · obtain ⟨after, positive⟩ := (entryFor_slots ok).fill vacant d.carried filling
    exact ⟨after.wellFormed positive notAll, after⟩

/-- In range, a datagram is filed without a panic and the cache keeps its invariant. -/
theorem reassemble_ok (ok : CacheOk fragments) (inRange : ¬OutOfRange fragments d) :
    ∃ cache complete, reassemble fragments d = .ok (cache, complete) ∧ CacheOk cache := by
  have slots : (entryFor fragments d).Slots := entryFor_slots ok
  have filed : ∃ result, Hysteria2.reassemble fragments d = .ok result := by
    have cases := reassembled fragments d
    generalize Hysteria2.reassemble fragments d = result at cases
    cases cases with
    | empty | whole | mismatched | duplicate | stored | completed => exact ⟨_, rfl⟩
    | outOfRange many count absent =>
        refine absurd ⟨many, ?_, entryFor_count_iff.mp count⟩ inRange
        rw [List.getElem?_eq_none_iff, slots.length, count] at absent
        exact absent
    | overflow _ vacant failed =>
        obtain ⟨filled, filling⟩ := slots.fill_ok vacant d.carried
        rw [filling] at failed
        cases failed
    | missing _ _ vacant filling all failed =>
        obtain ⟨payload, joined⟩ := (slots.fill vacant d.carried filling).1.joinSlots_ok all
        rw [joined] at failed
        cases failed
  obtain ⟨⟨cache, complete⟩, filed⟩ := filed
  exact ⟨cache, complete, filed, ok.reassemble filed⟩

/-- Out of range, the slot index panics. -/
theorem reassemble_index (ok : CacheOk fragments) (outOfRange : OutOfRange fragments d) :
    reassemble fragments d = .error .index := by
  obtain ⟨many, beyond, sameCount⟩ := outOfRange
  have count := entryFor_count_iff.mpr sameCount
  have absent : (entryFor fragments d).received[d.fragmentId.toNat]? = none := by
    rw [List.getElem?_eq_none_iff, (entryFor_slots ok).length, count]
    exact beyond
  have cases := reassembled fragments d
  generalize reassemble fragments d = result at cases
  cases cases with
  | outOfRange => rfl
  | empty zero => simp [zero] at many
  | whole one => simp [one] at many
  | mismatched _ different => exact absurd count different
  | duplicate _ _ slot => simp [absent] at slot
  | overflow _ slot => simp [absent] at slot
  | stored _ _ slot => simp [absent] at slot
  | missing _ _ slot => simp [absent] at slot
  | completed _ _ slot => simp [absent] at slot

/-! ## Whole runs -/

/-- No panic so far, and every cached packet is well formed. -/
def ReassemblySafe (s : UdpLoop) : Prop :=
  (∀ fault, s.status ≠ .panicked fault) ∧
    ∀ sessionId session, s.sessions.lookup sessionId = some session →
      ∀ packetId p, session.fragments.get? packetId = some p → p.WellFormed

/-- The datagram of an iteration, in the session it enters, keeps the slot
index in range. -/
def IndexInRange (s : UdpLoop) : UdpEvent → Prop
  | .iterate resolve it => ∀ d session t, it.read = .headed d →
      Entered resolve (cleanUp s it) it d session t → ¬OutOfRange session.fragments d
  | _ => True

/-- `ReassemblySafe` with the sizes of the fragments, which makes it inductive. -/
def CachesOk (s : UdpLoop) : Prop :=
  (∀ fault, s.status ≠ .panicked fault) ∧
    ∀ sessionId session, s.sessions.lookup sessionId = some session → CacheOk session.fragments

variable {s t : UdpLoop} {resolve : Resolve} {it : Iteration}

theorem CachesOk.cleanUp (ok : CachesOk s) : CachesOk (cleanUp s it) := by
  refine ⟨?_, fun sessionId session found => ok.2 sessionId session (lookup_cleanUp found)⟩
  simpa using ok.1

theorem CachesOk.leave {status : LoopStatus} (fine : ∀ fault, status ≠ .panicked fault) :
    CachesOk (s.leave status) :=
  ⟨fine, fun sessionId session found => by simp [UdpLoop.leave] at found⟩

theorem CachesOk.entered (ok : CachesOk s) {session : UdpSession}
    (entered : Entered resolve s it d session t) : CacheOk session.fragments := by
  cases entered with
  | present found => exact ok.2 _ _ found
  | opened => exact cacheOk_empty

theorem CachesOk.handled (ok : CachesOk s)
    (inRange : ∀ session t, Entered resolve s it d session t → ¬OutOfRange session.fragments d) :
    CachesOk (handleDatagram resolve s it d).1 := by
  have h := Hysteria2.handled resolve s it d
  generalize handleDatagram resolve s it d = result at h
  obtain ⟨after, sent⟩ := result
  dsimp only at h ⊢
  refine ⟨?_, fun sessionId session found => ?_⟩
  · cases h with
    | panicked entered failed =>
        obtain ⟨_, _, filed, _⟩ := reassemble_ok (ok.entered entered) (inRange _ _ entered)
        rw [filed] at failed
        cases failed
    | unresolved => exact ok.1
    | noSocket => simp [UdpLoop.leave]
    | kept entered | undeliverable entered | sent entered | sendFailed entered =>
        intro fault
        simpa [UdpLoop.store, entered.status] using ok.1 fault
  · by_cases other : sessionId = d.sessionId
    · subst other
      obtain ⟨before, _, fragments, complete, entered, filed, origin⟩ := h.lookup_self found
      obtain ⟨cache, _, filed', cacheOk⟩ := reassemble_ok (ok.entered entered) (inRange _ _ entered)
      obtain ⟨rfl, rfl⟩ := Prod.mk.inj (Except.ok.inj (filed.symm.trans filed'))
      rcases origin with rfl | ⟨_, _, chosen⟩
      · exact cacheOk
      · rw [(destination_fragments chosen).1]
        exact cacheOk
    · exact ok.2 sessionId session (h.lookup_ne other found)

theorem CachesOk.step {e : UdpEvent} (ok : CachesOk s) (inRange : IndexInRange s e)
    (taken : step s e = some t) : CachesOk t := by
  cases e with
  | iterate resolve it =>
      simp only [Hysteria2.step, Option.ite_none_right_eq_some, Option.some.injEq] at taken
      obtain ⟨_, rfl⟩ := taken
      unfold Hysteria2.iterate
      cases read : it.read with
      | failed => exact .leave (by simp)
      | ignored => exact ok.cleanUp
      | headed d =>
          exact ok.cleanUp.handled fun session t entered =>
            inRange d session t read entered
  | taskEnds i =>
      obtain rfl := Option.some.inj taken
      exact ok
  | dropped =>
      simp only [Hysteria2.step, Option.ite_none_right_eq_some, Option.some.injEq] at taken
      obtain ⟨_, rfl⟩ := taken
      exact .leave (by simp)
  | cancelParent =>
      simp only [Hysteria2.step, Option.ite_none_right_eq_some, Option.some.injEq] at taken
      obtain ⟨_, rfl⟩ := taken
      exact ok

theorem cachesOk_initial (now : Nat) : CachesOk (UdpLoop.initial now) :=
  ⟨by simp [UdpLoop.initial], fun sessionId session found => by
    simp [UdpLoop.initial] at found⟩

/-- A datagram out of range ends the loop in a panic. -/
theorem panics_of_outOfRange {e : UdpEvent} (ok : CachesOk s) (outOfRange : ¬IndexInRange s e)
    (taken : step s e = some t) : t.status = .panicked .index := by
  cases e with
  | iterate resolve it =>
      simp only [IndexInRange, not_forall, not_not] at outOfRange
      obtain ⟨d, session, t', read, entered, beyond⟩ := outOfRange
      simp only [Hysteria2.step, Option.ite_none_right_eq_some, Option.some.injEq] at taken
      obtain ⟨_, rfl⟩ := taken
      have panics : (Hysteria2.iterate resolve s it).1 = t'.leave (.panicked .index) := by
        have failed := reassemble_index (ok.cleanUp.entered entered) beyond
        simp [Hysteria2.iterate, read, Hysteria2.handleDatagram,
          enterSession_ok_iff.mpr entered, failed]
      rw [panics]
      rfl
  | taskEnds | dropped | cancelParent => exact absurd trivial outOfRange

/-- A loop that has panicked stays so. -/
theorem panicked_step {e : UdpEvent} {fault : Fault} (panicked : s.status = .panicked fault)
    (taken : step s e = some t) : t.status = .panicked fault := by
  cases e with
  | iterate | dropped | cancelParent => simp [Hysteria2.step, panicked] at taken
  | taskEnds =>
      obtain rfl := Option.some.inj taken
      exact panicked

/-- Every state that the loop reaches without a panic has good caches. -/
theorem cachesOk_of_run {now : Nat} {events : List UdpEvent}
    (ran : events.foldlM step (UdpLoop.initial now) = some s)
    (fine : ∀ fault, s.status ≠ .panicked fault) : CachesOk s := by
  have always : Transition.Always step
      (fun s => CachesOk s ∨ ∃ fault, s.status = .panicked fault) (UdpLoop.initial now) events := by
    refine Transition.always_of_invariant (fun _ reached => reached) ?_
      (.inl (cachesOk_initial now)) events
    rintro s e t (ok | ⟨fault, panicked⟩) taken
    · by_cases inRange : IndexInRange s e
      · exact .inl (ok.step inRange taken)
      · exact .inr ⟨.index, panics_of_outOfRange ok inRange taken⟩
    · exact .inr ⟨fault, panicked_step panicked taken⟩
  rcases always.after ran with ok | ⟨fault, panicked⟩
  · exact ok
  · exact absurd panicked (fine fault)

/-- Along a run of the loop no datagram panics and the cache keeps its
invariant exactly when every datagram that enters a session has a fragment id
below its fragment count, or one of the excuses of `OutOfRange`. -/
theorem reassembly_safe_iff (now : Nat) (events : List UdpEvent) :
    Transition.Always step ReassemblySafe (UdpLoop.initial now) events ↔
      Transition.Along step IndexInRange (UdpLoop.initial now) events := by
  apply Transition.always_iff_along (I := CachesOk)
  · intro s ok
    exact ⟨ok.1, fun sessionId session found packetId p cached =>
      (ok.2 sessionId session found packetId p cached).1⟩
  · exact fun s e t ok inRange taken => ok.step inRange taken
  · exact fun s e t ok outOfRange taken safe =>
      safe.1 .index (panics_of_outOfRange ok outOfRange taken)
  · exact cachesOk_initial now

/-- A first datagram that says it is fragment 5 of 2. -/
def strayFragment : Datagram where
  sessionId := 1
  packetId := 0
  fragmentId := 5
  fragmentCount := 2
  remoteLocation := ⟨.ipv4 ⟨1, 2, 3, 4⟩, 53⟩
  payload := [0]
  carried := carried_zero

def strayIteration : Iteration where
  now := 0
  cleanupNow := 0
  read := .headed strayFragment
  newUdpSocket := true
  startedAt := 0
  sendTo := true

/-- One datagram from a client is enough for the panic. -/
theorem stray_fragment_panics :
    ¬Transition.Always step ReassemblySafe (UdpLoop.initial 0)
      [.iterate NetLocation.toSocketAddrNonblocking strayIteration] := by
  intro always
  obtain ⟨fine, _⟩ := always.2 _ rfl
  exact fine .index (by decide)

end RustProxy.Hysteria2
