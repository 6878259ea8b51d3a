import Mathlib.Data.List.Forall2
import RustProxy.Hysteria2.Loss

/-!
# Where the payloads come from

Nothing is asked of the client here: datagrams come with any ids and counts, in
any order, again and again, for any sessions. What the loop sends is still made
up of payloads it has received, all of them of one packet of the session that
the payload is sent for, in the order of their fragment ids, and every datagram
that was received goes into at most one payload.

A slot of a cache entry is a datagram that was received and has not been used.
Filing a datagram adds one slot at most, and a completed packet is taken out of
the cache with all its slots.
-/

namespace RustProxy.Hysteria2

/-- What a datagram contributes to a payload, and to which. -/
structure Fragment where
  sessionId : UInt32
  packetId : UInt16
  fragmentCount : UInt8
  fragmentId : UInt8
  payload : Bytes
  deriving DecidableEq

def Datagram.fragment (d : Datagram) : Fragment where
  sessionId := d.sessionId
  packetId := d.packetId
  fragmentCount := d.fragmentCount
  fragmentId := d.fragmentId
  payload := d.payload

/-- The loop, the datagrams it has received and the calls of `send_to` it has made. -/
structure Flow where
  loop : UdpLoop
  received : List Fragment
  sends : List SendTo

/-- The call of `send_to` that an event makes. -/
def UdpEvent.sends (s : UdpLoop) : UdpEvent → Option SendTo
  | .iterate resolve it => (Hysteria2.iterate resolve s it).2
  | _ => none

namespace Flow

def start (now : Nat) : Flow := ⟨.initial now, [], []⟩

def step (s : Flow) (e : UdpEvent) : Option Flow :=
  (Hysteria2.step s.loop e).map fun loop =>
    ⟨loop, s.received ++ (e.headed.map Datagram.fragment).toList,
      s.sends ++ (e.sends s.loop).toList⟩

end Flow

/-- The fragments are the whole of one packet of the session, in order, and the
payload is theirs. A datagram that counts itself as the only one may have any
fragment id. -/
structure MakesUp (parts : List Fragment) (sessionId : UInt32) (payload : Bytes) : Prop where
  packet : ∃ (packetId : UInt16) (fragmentCount : UInt8), parts.length = fragmentCount.toNat ∧
    0 < parts.length ∧ ∀ part ∈ parts, part.sessionId = sessionId ∧ part.packetId = packetId ∧
      part.fragmentCount = fragmentCount
  order : 1 < parts.length → parts.map (·.fragmentId.toNat) = List.range parts.length
  payload : payload = (parts.map Fragment.payload).flatten

/-- Every payload that was sent is made up of fragments that were received, none
of which was used twice. -/
def Genuine (s : Flow) : Prop :=
  ∃ used : List (List Fragment), used.flatten.Subperm s.received ∧
    List.Forall₂ (fun parts sent => MakesUp parts sent.sessionId sent.payload) used s.sends

/-! ## One cache -/

/-- The fragment is in its slot. -/
def FragmentCache.holds (c : FragmentCache) (x : Fragment) : Bool :=
  (c.get? x.packetId).any fun entry =>
    entry.fragmentCount = x.fragmentCount &&
      entry.received[x.fragmentId.toNat]? = some (some x.payload)

/-- Every entry has a slot for each of its fragments. -/
def Slotted (c : FragmentCache) : Prop :=
  ∀ k entry, c.get? k = some entry → entry.received.length = entry.fragmentCount.toNat

variable {c cache : FragmentCache} {d : Datagram} {x : Fragment} {filled : FragmentedPacket}

theorem holds_iff : c.holds x = true ↔ ∃ entry, c.get? x.packetId = some entry ∧
    entry.fragmentCount = x.fragmentCount ∧
    entry.received[x.fragmentId.toNat]? = some (some x.payload) := by
  unfold FragmentCache.holds
  cases c.get? x.packetId <;> simp

theorem eq_fragment (session : x.sessionId = d.sessionId) (packet : x.packetId = d.packetId)
    (count : x.fragmentCount = d.fragmentCount) (id : x.fragmentId = d.fragmentId)
    (payload : x.payload = d.payload) : x = d.fragment := by
  cases x
  simp only [Datagram.fragment, Fragment.mk.injEq]
  exact ⟨session, packet, count, id, payload⟩

theorem slotted_entryFor (slotted : Slotted c) :
    (entryFor c d).received.length = (entryFor c d).fragmentCount.toNat := by
  unfold entryFor
  cases found : c.get? d.packetId with
  | none => exact List.length_replicate
  | some entry => exact slotted d.packetId entry found

/-- What is in a slot of the entry that a datagram is filed under was there before. -/
theorem holds_of_entryFor (packet : x.packetId = d.packetId)
    (count : (entryFor c d).fragmentCount = x.fragmentCount)
    (slot : (entryFor c d).received[x.fragmentId.toNat]? = some (some x.payload)) :
    c.holds x = true := by
  rw [holds_iff, packet]
  unfold entryFor at count slot
  cases found : c.get? d.packetId with
  | none =>
      rw [found] at slot
      exact absurd slot (received_new_ne d _ _)
  | some entry =>
      rw [found] at count slot
      exact ⟨entry, rfl, count, slot⟩

/-- What a datagram puts into its slot is its own payload. -/
theorem slot_filled (packet : x.packetId = d.packetId) (count : x.fragmentCount = d.fragmentCount)
    (counts : (entryFor c d).fragmentCount = d.fragmentCount)
    (filling : (entryFor c d).fill d.fragmentId d.payload = .ok filled)
    (slot : filled.received[x.fragmentId.toNat]? = some (some x.payload)) :
    c.holds x = true ∨ x.fragmentId = d.fragmentId ∧ x.payload = d.payload := by
  obtain ⟨-, -, rfl⟩ := fill_eq_ok filling
  change ((entryFor c d).received.set d.fragmentId.toNat (some d.payload))[x.fragmentId.toNat]? =
    some (some x.payload) at slot
  by_cases own : d.fragmentId.toNat = x.fragmentId.toNat
  · rw [own, List.getElem?_set_self'] at slot
    obtain ⟨_, -, same⟩ := Option.map_eq_some_iff.mp slot
    exact .inr ⟨UInt8.toNat_inj.mp own.symm, (Option.some.inj same).symm⟩
  · rw [List.getElem?_set_ne own] at slot
    exact .inl (holds_of_entryFor packet (counts.trans count.symm) slot)

theorem not_holds_of_vacant (vacant : (entryFor c d).received[d.fragmentId.toNat]? = some none)
    (packet : x.packetId = d.packetId) (id : x.fragmentId = d.fragmentId) :
    c.holds x = false := by
  by_contra held
  obtain ⟨entry, found, -, slot⟩ := holds_iff.mp (by simpa using held)
  rw [packet] at found
  rw [entryFor, found, Option.getD_some, ← id, slot] at vacant
  cases vacant

/-- What a cache holds after a datagram it held before, or it is the datagram. -/
theorem holds_of_reassemble {complete : Option (Bytes × NetLocation)}
    (filed : reassemble c d = .ok (cache, complete)) (session : x.sessionId = d.sessionId)
    (held : cache.holds x = true) : c.holds x = true ∨ c.holds x = false ∧ x = d.fragment := by
  obtain ⟨entry, found, count, slot⟩ := holds_iff.mp held
  rcases reassemble_get? filed found with ⟨before, -⟩ | ⟨-, packet, counts, vacant, filling, -⟩
  · exact .inl (holds_iff.mpr ⟨entry, before, count, slot⟩)
  · have counted : x.fragmentCount = d.fragmentCount := by
      obtain ⟨-, -, rfl⟩ := fill_eq_ok filling
      exact count.symm.trans counts
    rcases slot_filled packet counted counts filling slot with before | ⟨id, payload⟩
    · exact .inl before
    · refine .inr ⟨not_holds_of_vacant vacant packet id, ?_⟩
      exact eq_fragment session packet counted id payload

theorem Slotted.reassemble (slotted : Slotted c) {complete : Option (Bytes × NetLocation)}
    (filed : reassemble c d = .ok (cache, complete)) : Slotted cache := by
  intro k entry found
  rcases reassemble_get? filed found with ⟨before, -⟩ | ⟨-, -, -, -, filling, -⟩
  · exact slotted k entry before
  · have slots := slotted_entryFor slotted (d := d)
    obtain ⟨-, -, rfl⟩ := fill_eq_ok filling
    exact List.length_set.trans slots

/-! ## The parts of a packet -/

/-- The fragments that filled the slots of a packet. -/
def partsOf (d : Datagram) (contents : List Bytes) : List Fragment :=
  contents.zipIdx.map fun slot =>
    ⟨d.sessionId, d.packetId, d.fragmentCount, UInt8.ofNat slot.2, slot.1⟩

variable {contents : List Bytes}

@[simp] theorem length_partsOf : (partsOf d contents).length = contents.length := by
  rw [partsOf, List.length_map, List.length_zipIdx]

theorem mem_partsOf (few : contents.length ≤ 256) (mem : x ∈ partsOf d contents) :
    x.sessionId = d.sessionId ∧ x.packetId = d.packetId ∧ x.fragmentCount = d.fragmentCount ∧
      contents[x.fragmentId.toNat]? = some x.payload := by
  obtain ⟨⟨content, i⟩, inside, rfl⟩ := List.mem_map.mp mem
  have found : contents[i]? = some content := List.mem_zipIdx_iff_getElem?.mp inside
  have small : i < contents.length := (List.getElem?_eq_some_iff.mp found).1
  have id : (UInt8.ofNat i).toNat = i := by
    rw [UInt8.toNat_ofNat']
    exact Nat.mod_eq_of_lt (by omega)
  refine ⟨rfl, rfl, rfl, ?_⟩
  rw [id]
  exact found

theorem ids_partsOf (few : contents.length ≤ 256) :
    (partsOf d contents).map (·.fragmentId.toNat) = List.range contents.length := by
  rw [partsOf, List.map_map]
  apply List.ext_getElem
  · simp
  · intro i inside _
    have small : i < contents.length := by simpa using inside
    simp only [List.getElem_map, List.getElem_zipIdx, List.getElem_range, Function.comp_apply,
      UInt8.toNat_ofNat', Nat.zero_add]
    exact Nat.mod_eq_of_lt (by omega)

@[simp] theorem payloads_partsOf : (partsOf d contents).map Fragment.payload = contents := by
  rw [partsOf, List.map_map]
  exact List.zipIdx_map_fst 0 contents

/-- Each part of a packet stands in one slot. -/
theorem count_partsOf_le (few : contents.length ≤ 256) (x : Fragment) :
    (partsOf d contents).count x ≤ 1 := by
  have ids : ((partsOf d contents).map (·.fragmentId.toNat)).Nodup := by
    rw [ids_partsOf few]
    exact List.nodup_range
  exact List.nodup_iff_count_le_one.mp (List.Nodup.of_map _ ids) x

theorem makesUp_partsOf (count : contents.length = d.fragmentCount.toNat)
    (some_ : 0 < contents.length) : MakesUp (partsOf d contents) d.sessionId contents.flatten := by
  have few : contents.length ≤ 256 := by
    have := d.fragmentCount.toNat_lt
    omega
  refine ⟨⟨d.packetId, d.fragmentCount, ?_, ?_, ?_⟩, ?_, ?_⟩
  · rw [length_partsOf, count]
  · rw [length_partsOf]
    exact some_
  · intro part mem
    obtain ⟨session, packet, counted, -⟩ := mem_partsOf few mem
    exact ⟨session, packet, counted⟩
  · intro _
    rw [ids_partsOf few, length_partsOf]
  · rw [payloads_partsOf]

/-- What a fragment counts for that a datagram brings. -/
def Datagram.counts (d : Datagram) (x : Fragment) : Nat := if x = d.fragment then 1 else 0

/-- Filing a datagram uses the slots of the packet it completes, and holds on to
nothing that was neither held before nor brought by the datagram. -/
theorem reassemble_accounts (slotted : Slotted c) {complete : Option (Bytes × NetLocation)}
    (filed : reassemble c d = .ok (cache, complete)) :
    ∃ parts : List Fragment,
      (∀ part ∈ parts, part.sessionId = d.sessionId) ∧
      (∀ payload location, complete = some (payload, location) →
        MakesUp parts d.sessionId payload) ∧
      ∀ x : Fragment, x.sessionId = d.sessionId →
        parts.count x + (cache.holds x).toNat ≤ (c.holds x).toNat + d.counts x := by
  -- whatever is not used is accounted for by what was held before
  have unused (x : Fragment) (session : x.sessionId = d.sessionId) :
      (cache.holds x).toNat ≤ (c.holds x).toNat + d.counts x := by
    cases held : cache.holds x with
    | false => exact Nat.zero_le _
    | true =>
        rcases holds_of_reassemble filed session held with before | ⟨-, own⟩
        · rw [before]
          exact Nat.le_add_right _ _
        · rw [Datagram.counts, if_pos own]
          exact Nat.le_add_left _ _
  cases complete with
  | none =>
      refine ⟨[], fun _ mem => absurd mem List.not_mem_nil, fun _ _ none_ => ?_, ?_⟩
      · cases none_
      · intro x session
        rw [List.count_nil, Nat.zero_add]
        exact unused x session
  | some packet =>
      obtain ⟨payload, location⟩ := packet
      have cases_ := reassembled c d
      rw [filed] at cases_
      cases cases_ with
      | whole one =>
          refine ⟨[d.fragment], ?_, ?_, ?_⟩
          · intro part mem
            rw [List.mem_singleton.mp mem]
            rfl
          · intro payload location same
            cases same
            refine ⟨⟨d.packetId, 1, rfl, Nat.one_pos, ?_⟩, ?_, ?_⟩
            · intro part mem
              rw [List.mem_singleton.mp mem]
              exact ⟨rfl, rfl, one⟩
            · exact fun many => absurd many (Nat.lt_irrefl 1)
            · simp [Datagram.fragment]
          · intro x _
            rw [Nat.add_comm, Datagram.counts]
            by_cases own : x = d.fragment
            · rw [if_pos own, own, List.count_singleton_self]
            · rw [if_neg own, List.count_eq_zero_of_not_mem (mt List.mem_singleton.mp own)]
      | @completed filled _ many counts vacant filling all joined =>
          obtain ⟨contents, slots, rfl⟩ := joinSlots_eq_ok joined
          have size : contents.length = d.fragmentCount.toNat := by
            have filledSize : filled.received.length = (entryFor c d).received.length := by
              obtain ⟨-, -, rfl⟩ := fill_eq_ok filling
              exact List.length_set
            rw [slots, List.length_map, slotted_entryFor slotted, counts] at filledSize
            exact filledSize
          have few : contents.length ≤ 256 := by
            have := d.fragmentCount.toNat_lt
            omega
          refine ⟨partsOf d contents, fun part mem => (mem_partsOf few mem).1, ?_, ?_⟩
          · intro payload location same
            cases same
            exact makesUp_partsOf size (by omega)
          · intro x session
            by_cases part : x ∈ partsOf d contents
            · obtain ⟨-, packet, counted, content⟩ := mem_partsOf few part
              have slot : filled.received[x.fragmentId.toNat]? = some (some x.payload) := by
                rw [slots, List.getElem?_map, content, Option.map_some]
              -- the packet is out of the cache, and each of its slots was in use
              have gone : FragmentCache.holds (((touched c d).put d.packetId filled).pop
                  d.packetId) x = false := by
                by_contra held
                obtain ⟨entry, found, -⟩ := holds_iff.mp (by simpa using held)
                exact (Lru.get?_of_get?_pop found).1 packet
              have once := count_partsOf_le few x (d := d)
              rw [gone, Bool.toNat_false, Nat.add_zero]
              refine once.trans ?_
              rcases slot_filled packet counted counts filling slot with held | ⟨id, payload⟩
              · rw [held]
                exact Nat.le_add_right _ _
              · rw [Datagram.counts, if_pos (eq_fragment session packet counted id payload)]
                exact Nat.le_add_left _ _
            · rw [List.count_eq_zero_of_not_mem part, Nat.zero_add]
              exact unused x session

/-! ## Whole runs -/

section Runs

variable {s t : UdpLoop} {resolve : Resolve} {it : Iteration}

/-- A loop whose sessions were all there before holds nothing more. -/
theorem cacheOf_or_empty {sessionId : UInt32}
    (same : ∀ session, t.sessions.lookup sessionId = some session →
      s.sessions.lookup sessionId = some session) :
    t.cacheOf sessionId = s.cacheOf sessionId ∨ t.cacheOf sessionId = Lru.empty := by
  cases found : t.sessions.lookup sessionId with
  | some session => exact .inl (by rw [cacheOf_eq found, cacheOf_eq (same session found)])
  | none => exact .inr (cacheOf_absent (by simp [UdpLoop.has, found]))

@[simp] theorem holds_empty (x : Fragment) : FragmentCache.holds Lru.empty x = false := rfl

theorem slotted_empty : Slotted Lru.empty := by
  intro k entry found
  cases found

/-- The caches of all sessions have their slots. -/
def AllSlotted (s : UdpLoop) : Prop := ∀ sessionId, Slotted (s.cacheOf sessionId)

/-- What the loop holds of a fragment, as a number. -/
def UdpLoop.holds (s : UdpLoop) (x : Fragment) : Nat :=
  ((s.cacheOf x.sessionId).holds x).toNat

/-- A loop that has lost sessions or nothing. -/
def KeptFrom (s t : UdpLoop) : Prop :=
  ∀ sessionId, t.cacheOf sessionId = s.cacheOf sessionId ∨ t.cacheOf sessionId = Lru.empty

theorem KeptFrom.slotted (h : KeptFrom s t) (slotted : AllSlotted s) : AllSlotted t := by
  intro sessionId
  rcases h sessionId with same | none_
  · rw [same]
    exact slotted sessionId
  · rw [none_]
    exact slotted_empty

theorem KeptFrom.holds_le (h : KeptFrom s t) (x : Fragment) : t.holds x ≤ s.holds x := by
  unfold UdpLoop.holds
  rcases h x.sessionId with same | none_
  · rw [same]
  · rw [none_, holds_empty]
    exact Nat.zero_le _

theorem keptFrom_cleanUp : KeptFrom s (cleanUp s it) :=
  fun _ => cacheOf_or_empty fun _ found => lookup_cleanUp found

theorem keptFrom_leave (s t : UdpLoop) (status : LoopStatus) : KeptFrom s (t.leave status) := by
  intro sessionId
  refine cacheOf_or_empty fun session found => ?_
  simp [UdpLoop.leave] at found

/-- The sends of an event are made up of received fragments, each of which is
accounted for. -/
structure Accounts (s t : UdpLoop) (brought : Fragment → Nat) (sent : Option SendTo)
    (parts : List Fragment) : Prop where
  made : ∀ send, sent = some send → MakesUp parts send.sessionId send.payload
  counts : ∀ x : Fragment, parts.count x + t.holds x ≤ s.holds x + brought x

theorem KeptFrom.accounts (h : KeptFrom s t) (brought : Fragment → Nat) :
    Accounts s t brought none [] where
  made _ none_ := absurd none_ (Option.some_ne_none _).symm
  counts x := by
    have kept := h.holds_le x
    rw [List.count_nil]
    omega

/-- The session of a datagram has the cache that `reassemble` left, or is gone,
and the other sessions are as they were. -/
theorem accounts_of_filed {sent : Option SendTo} {complete : Option (Bytes × NetLocation)}
    (slotted : AllSlotted s) (filed : reassemble (s.cacheOf d.sessionId) d = .ok (cache, complete))
    (own : t.cacheOf d.sessionId = cache ∨ t.cacheOf d.sessionId = Lru.empty)
    (others : ∀ sessionId, sessionId ≠ d.sessionId →
      t.cacheOf sessionId = s.cacheOf sessionId ∨ t.cacheOf sessionId = Lru.empty)
    (sends : ∀ send, sent = some send → send.sessionId = d.sessionId ∧
      ∃ location, complete = some (send.payload, location)) :
    AllSlotted t ∧ ∃ parts, Accounts s t d.counts sent parts := by
  obtain ⟨parts, ofSession, made, counts⟩ := reassemble_accounts (slotted d.sessionId) filed
  constructor
  · intro sessionId
    by_cases same : sessionId = d.sessionId
    · subst same
      rcases own with left_ | none_
      · rw [left_]
        exact (slotted d.sessionId).reassemble filed
      · rw [none_]
        exact slotted_empty
    · rcases others sessionId same with kept | none_
      · rw [kept]
        exact slotted sessionId
      · rw [none_]
        exact slotted_empty
  -- what of the fragment is left or used, whatever of the parts is counted
  have bound (x : Fragment) (used : Nat) (few : used ≤ parts.count x) :
      used + t.holds x ≤ s.holds x + d.counts x := by
    unfold UdpLoop.holds
    by_cases same : x.sessionId = d.sessionId
    · have most := counts x same
      have less : ((t.cacheOf x.sessionId).holds x).toNat ≤ (cache.holds x).toNat := by
        rw [same]
        rcases own with left_ | none_
        · rw [left_]
        · rw [none_, holds_empty]
          exact Nat.zero_le _
      rw [same] at less ⊢
      omega
    · have absent : parts.count x = 0 :=
        List.count_eq_zero_of_not_mem fun mem => same (ofSession x mem)
      rcases others x.sessionId same with kept | none_
      · rw [kept]
        omega
      · rw [none_, holds_empty, Bool.toNat_false]
        omega
  cases sent with
  | none =>
      refine ⟨[], fun _ none_ => absurd none_ (Option.some_ne_none _).symm, ?_⟩
      intro x
      rw [List.count_nil]
      exact bound x 0 (Nat.zero_le _)
  | some send =>
      obtain ⟨session, location, completes⟩ := sends send rfl
      refine ⟨parts, ?_, ?_⟩
      · intro other same
        obtain rfl := Option.some.inj same
        rw [session]
        exact made _ location completes
      · exact fun x => bound x _ (Nat.le_refl _)

@[simp] theorem cacheOf_store (s : UdpLoop) (sessionId : UInt32) (session : UdpSession) :
    (s.store sessionId session).cacheOf sessionId = session.fragments :=
  cacheOf_eq (AList.lookup_insert _)

theorem Handled.accounts {sent : Option SendTo} (h : Handled resolve s it d t sent)
    (slotted : AllSlotted s) : AllSlotted t ∧ ∃ parts, Accounts s t d.counts sent parts := by
  have others (sessionId : UInt32) (other : sessionId ≠ d.sessionId) :
      t.cacheOf sessionId = s.cacheOf sessionId ∨ t.cacheOf sessionId = Lru.empty :=
    cacheOf_or_empty fun session found => h.lookup_ne other found
  cases h with
  | unresolved =>
      have same : KeptFrom s s := fun _ => .inl rfl
      exact ⟨slotted, [], same.accounts _⟩
  | noSocket =>
      have gone := keptFrom_leave s s .returned
      exact ⟨gone.slotted slotted, [], gone.accounts _⟩
  | @panicked _ t fault =>
      have gone := keptFrom_leave s t (.panicked fault)
      exact ⟨gone.slotted slotted, [], gone.accounts _⟩
  | kept entered filed | undeliverable entered filed =>
      rw [entered.cacheOf] at filed
      refine accounts_of_filed slotted filed (.inl ?_) others fun send none_ => ?_
      · exact cacheOf_store _ _ _
      · cases none_
  | sent entered filed chosen =>
      rw [entered.cacheOf] at filed
      refine accounts_of_filed slotted filed (.inl ?_) others fun send same => ?_
      · exact (cacheOf_store _ _ _).trans (destination_fragments chosen).1
      · cases same
        exact ⟨rfl, _, rfl⟩
  | sendFailed entered filed chosen =>
      rw [entered.cacheOf] at filed
      refine accounts_of_filed slotted filed (.inr ?_) others fun send same => ?_
      · exact cacheOf_absent (by simp [UdpLoop.has])
      · cases same
        exact ⟨rfl, _, rfl⟩

/-- What an event brings of a fragment. -/
def UdpEvent.brings (e : UdpEvent) (x : Fragment) : Nat :=
  (e.headed.map Datagram.fragment).toList.count x

theorem brings_headed {e : UdpEvent} (headed : e.headed = some d) : e.brings = d.counts := by
  funext x
  rw [UdpEvent.brings, headed, Datagram.counts]
  by_cases own : x = d.fragment
  · simp [own]
  · simp [own, Ne.symm own]

theorem step_accounts {e : UdpEvent} (slotted : AllSlotted s)
    (taken : Hysteria2.step s e = some t) :
    AllSlotted t ∧ ∃ parts, Accounts s t e.brings (e.sends s) parts := by
  have nothing (h : KeptFrom s t) (none_ : e.sends s = none) :
      AllSlotted t ∧ ∃ parts, Accounts s t e.brings (e.sends s) parts := by
    rw [none_]
    exact ⟨h.slotted slotted, [], h.accounts _⟩
  cases e with
  | iterate resolve it =>
      simp only [Hysteria2.step, Option.ite_none_right_eq_some, Option.some.injEq] at taken
      obtain ⟨-, rfl⟩ := taken
      cases read : it.read with
      | failed =>
          apply nothing
          · simp only [Hysteria2.iterate, read]
            exact keptFrom_leave s _ _
          · simp only [UdpEvent.sends, Hysteria2.iterate, read]
      | ignored =>
          apply nothing
          · simp only [Hysteria2.iterate, read]
            exact keptFrom_cleanUp
          · simp only [UdpEvent.sends, Hysteria2.iterate, read]
      | headed d =>
          have brings : UdpEvent.headed (.iterate resolve it) = some d := by
            simp [UdpEvent.headed, read]
          have h := handled resolve (cleanUp s it) it d
          rw [← iterate_headed read] at h
          have cleaned : KeptFrom s (cleanUp s it) := keptFrom_cleanUp
          obtain ⟨slots, parts, made, counts⟩ := h.accounts (cleaned.slotted slotted)
          refine ⟨slots, parts, made, fun x => ?_⟩
          rw [brings_headed brings]
          have more := cleaned.holds_le x
          have most := counts x
          omega
  | taskEnds i =>
      obtain rfl := Option.some.inj taken
      exact nothing (fun _ => .inl rfl) rfl
  | dropped =>
      simp only [Hysteria2.step, Option.ite_none_right_eq_some, Option.some.injEq] at taken
      obtain ⟨-, rfl⟩ := taken
      exact nothing (keptFrom_leave s s _) rfl
  | cancelParent =>
      simp only [Hysteria2.step, Option.ite_none_right_eq_some, Option.some.injEq] at taken
      obtain ⟨-, rfl⟩ := taken
      exact nothing (fun _ => .inl rfl) rfl

/-- Every fragment that was used or is held was received, as often as that. -/
structure Tracked (s : Flow) (used : List (List Fragment)) : Prop where
  slotted : AllSlotted s.loop
  made : List.Forall₂ (fun parts sent => MakesUp parts sent.sessionId sent.payload) used s.sends
  once : ∀ x : Fragment, used.flatten.count x + s.loop.holds x ≤ s.received.count x

theorem Tracked.genuine {s : Flow} {used : List (List Fragment)} (h : Tracked s used) :
    Genuine s := by
  refine ⟨used, List.subperm_ext_iff.mpr fun x _ => ?_, h.made⟩
  exact (Nat.le_add_right _ _).trans (h.once x)

theorem Tracked.step {s t : Flow} {used : List (List Fragment)} {e : UdpEvent} (h : Tracked s used)
    (taken : s.step e = some t) : ∃ used', Tracked t used' := by
  obtain ⟨loop, ran, rfl⟩ := Option.map_eq_some_iff.mp taken
  obtain ⟨slots, parts, made, counts⟩ := step_accounts h.slotted ran
  have received (x : Fragment) :
      (s.received ++ (e.headed.map Datagram.fragment).toList).count x =
        s.received.count x + e.brings x := List.count_append
  cases sent : e.sends s.loop with
  | none =>
      refine ⟨used, slots, ?_, fun x => ?_⟩
      · simpa [sent] using h.made
      · have before := h.once x
        have most := counts x
        rw [received]
        show used.flatten.count x + loop.holds x ≤ _
        omega
  | some send =>
      refine ⟨used ++ [parts], slots, ?_, fun x => ?_⟩
      · exact List.rel_append h.made (.cons (made send sent) .nil)
      · have before := h.once x
        have most := counts x
        rw [received, List.flatten_append, List.count_append, List.flatten_singleton]
        show used.flatten.count x + parts.count x + loop.holds x ≤ _
        omega

/-- In every run of the loop, whatever the client sends: each payload that is
sent is the payloads of all fragments of one packet of its session, in the order
of their ids, and no datagram that was received is used more than once. -/
theorem payloads_genuine (now : Nat) (events : List UdpEvent) :
    Transition.Always Flow.step Genuine (.start now) events := by
  have start : ∃ used, Tracked (.start now) used := by
    refine ⟨[], fun sessionId => slotted_empty, .nil, fun x => ?_⟩
    exact Nat.le_refl 0
  refine Transition.always_of_invariant (I := fun s => ∃ used, Tracked s used) ?_ ?_ start events
  · rintro s ⟨used, h⟩
    exact h.genuine
  · rintro s e t ⟨used, h⟩ taken
    exact h.step taken

end Runs

end RustProxy.Hysteria2
