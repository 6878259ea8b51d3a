import RustProxy.Base.Transition
import RustProxy.Hysteria2.Sender
import RustProxy.Hysteria2.SessionCache

/-!
# Fragments under loss

A sender numbers its packets with sixteen bits and some of its datagrams are
lost. The loop keeps, beside each entry of the session's cache, the number of
the packet that began the entry. As long as no fragment of another packet slips
into an entry, each entry holds pieces of the packet that began it, so what the
reassembly completes is a packet that was sent.

A fragment of another packet goes unnoticed when that packet has come to the
same id, is cut into as many fragments, and has its fragment in a slot that is
still empty. Neither the count nor the duplicate check sees the difference, and
an entry has no age.
-/

namespace RustProxy.Hysteria2

/-- The loop, with the packets that the entries of the session's cache come from:
the number of the packet that began an entry, and that of the packet that
filled each of its slots. -/
structure Traced where
  loop : UdpLoop
  owner : UInt16 → Option Nat
  origin : UInt16 → Nat → Option Nat

/-- An event of the loop, with the number of the packet whose datagram it brings. -/
structure Tagged where
  packet : Nat
  event : UdpEvent

/-- The fragment of the session that an event brings. -/
def Tagged.fragment (sessionId : UInt32) (e : Tagged) : Option Datagram :=
  e.event.headed.filter fun d => d.sessionId = sessionId ∧ 1 < d.fragmentCount.toNat

namespace Traced

def cached (sessionId : UInt32) (s : Traced) (packetId : UInt16) : Option FragmentedPacket :=
  (s.loop.cacheOf sessionId).get? packetId

def owners (sessionId : UInt32) (s : Traced) (e : Tagged) : UInt16 → Option Nat :=
  match e.fragment sessionId with
  | some d =>
      if (s.cached sessionId d.packetId).isSome then s.owner
      else Function.update s.owner d.packetId (some e.packet)
  | none => s.owner

def origins (sessionId : UInt32) (s : Traced) (e : Tagged) : UInt16 → Nat → Option Nat :=
  match e.fragment sessionId with
  | some d =>
      Function.update s.origin d.packetId
        (Function.update (s.origin d.packetId) d.fragmentId.toNat (some e.packet))
  | none => s.origin

/-- A session that is yet to receive its first fragment. -/
def start (loop : UdpLoop) : Traced where
  loop := loop
  owner := fun _ => none
  origin := fun _ _ => none

end Traced

def stepTraced (sessionId : UInt32) (s : Traced) (e : Tagged) : Option Traced :=
  (step s.loop e.event).map fun loop => ⟨loop, s.owners sessionId e, s.origins sessionId e⟩

/-- The datagrams of a session in a run, with the numbers of their packets. -/
def arrivals (sessionId : UInt32) (events : List Tagged) : List (Nat × Datagram) :=
  events.filterMap fun e =>
    (e.event.headed.filter (·.sessionId = sessionId)).map (e.packet, ·)

/-- The session receives what is sent for the packets, in that order and less
what is lost. -/
def ReceivesFrom (maxDatagramSize : Nat) (sessionId : UInt32) (packets : List Packet)
    (events : List Tagged) : Prop :=
  ∃ received : List (Nat × Outgoing), received.Sublist (sentBy maxDatagramSize sessionId packets) ∧
    arrivals sessionId events = received.filterMap fun r => r.2.arrives.map (r.1, ·)

/-- A payload completed for the session is that of the packet whose datagram
completes it, with that packet's location, and the fragments received before
are fragments of the same packet. -/
def CompletesOne (sessionId : UInt32) (packets : List Packet) (s : Traced) (e : Tagged) : Prop :=
  e.event.isFor sessionId = true → ∀ payload location,
    completed s.loop e.event = some (payload, location) →
      (∃ p, packets[e.packet]? = some p ∧ payload = p.payload ∧
        NetLocation.fromStr p.address none = .ok location) ∧
      ∀ d, e.fragment sessionId = some d → ∀ entry, s.cached sessionId d.packetId = some entry →
        ∀ i content, entry.received[i]? = some (some content) →
          s.origin d.packetId i = some e.packet

/-- The number of fragments of the packet has eight bits, and no entry that
another packet began has the count of this fragment and its slot empty. -/
def unmistaken (maxDatagramSize : Nat) (sessionId : UInt32) (packets : List Packet) (s : Traced)
    (e : Tagged) : Bool :=
  !e.event.isFor sessionId ||
    (packets[e.packet]?.all fun p => p.needed (p.available maxDatagramSize) ≤ 255) &&
      (e.fragment sessionId).all fun d =>
        (s.cached sessionId d.packetId).all fun entry =>
          entry.fragmentCount ≠ d.fragmentCount ||
            entry.received[d.fragmentId.toNat]? ≠ some none ||
            s.owner d.packetId = some e.packet

/-! ## Entries -/

/-- The entry holds pieces of the packet, each in its slot. -/
structure PartOf (maxDatagramSize : Nat) (p : Packet) (entry : FragmentedPacket) : Prop where
  room : 0 < p.available maxDatagramSize
  slots : entry.received.length = p.needed (p.available maxDatagramSize)
  pieces : ∀ (i : Nat) (content : Bytes), entry.received[i]? = some (some content) →
    content = p.piece (p.available maxDatagramSize) i
  location : NetLocation.fromStr p.address none = .ok entry.remoteLocation

variable {maxDatagramSize : Nat} {p : Packet} {entry filled : FragmentedPacket} {d : Datagram}
  {c cache : FragmentCache}

theorem joinSlots_eq_ok {slots : List (Option Bytes)} {payload : Bytes}
    (joined : joinSlots slots = .ok payload) :
    ∃ parts : List Bytes, slots = parts.map some ∧ payload = parts.flatten := by
  induction slots generalizing payload with
  | nil => exact ⟨[], rfl, (Except.ok.inj joined).symm⟩
  | cons slot slots ih =>
      cases slot with
      | none => cases joined
      | some part =>
          cases rest : joinSlots slots with
          | error fault => simp [joinSlots, rest, Except.map] at joined
          | ok payload' =>
              obtain ⟨parts, rfl, rfl⟩ := ih rest
              have whole : part ++ parts.flatten = payload := by
                simpa [joinSlots, rest, Except.map] using joined
              exact ⟨part :: parts, rfl, by rw [← whole, List.flatten_cons]⟩

/-- An entry without an empty slot is the packet. -/
theorem PartOf.joined (h : PartOf maxDatagramSize p entry) {payload : Bytes}
    (joined : joinSlots entry.received = .ok payload) : payload = p.payload := by
  obtain ⟨parts, slots, rfl⟩ := joinSlots_eq_ok joined
  have pieces : parts = (List.range (p.needed (p.available maxDatagramSize))).map
      (p.piece (p.available maxDatagramSize)) := by
    have length := h.slots
    rw [slots, List.length_map] at length
    apply List.ext_getElem (by simp [length])
    intro i inside _
    have content := h.pieces i parts[i] (by rw [slots]; simp [inside])
    rw [content]
    simp
  rw [pieces, flatten_pieces p h.room]

theorem received_new_ne (d : Datagram) (i : Nat) (content : Bytes) :
    (FragmentedPacket.new d).received[i]? ≠ some (some content) := by
  intro filled
  cases List.eq_of_mem_replicate (List.mem_of_getElem? filled)

/-- A new entry holds nothing of the packet yet. -/
theorem partOf_new (room : 0 < p.available maxDatagramSize)
    (number : d.fragmentCount.toNat = p.needed (p.available maxDatagramSize))
    (location : NetLocation.fromStr p.address none = .ok d.remoteLocation) :
    PartOf maxDatagramSize p (.new d) where
  room := room
  slots := by
    rw [← number]
    exact List.length_replicate
  pieces i content filled := absurd filled (received_new_ne d i content)
  location := location

/-- Putting the packet's own piece into its slot. -/
theorem PartOf.fill (h : PartOf maxDatagramSize p entry) (piece : d.payload =
      p.piece (p.available maxDatagramSize) d.fragmentId.toNat)
    (filling : entry.fill d.fragmentId d.payload = .ok filled) :
    PartOf maxDatagramSize p filled := by
  obtain ⟨-, -, rfl⟩ := fill_eq_ok filling
  refine ⟨h.room, ?_, ?_, h.location⟩
  · show (entry.received.set d.fragmentId.toNat (some d.payload)).length = _
    rw [List.length_set, h.slots]
  · intro i content found
    change (entry.received.set d.fragmentId.toNat (some d.payload))[i]? =
      some (some content) at found
    by_cases same : d.fragmentId.toNat = i
    · subst same
      rw [List.getElem?_set_self'] at found
      obtain ⟨_, -, same⟩ := Option.map_eq_some_iff.mp found
      rw [← Option.some.inj same, piece]
    · rw [List.getElem?_set_ne same] at found
      exact h.pieces i content found

/-! ## Whole runs -/

/-- The datagram of the session that an event brings was sent for the packet
with the event's number. -/
def BringsSent (maxDatagramSize : Nat) (sessionId : UInt32) (packets : List Packet) (e : Tagged) :
    Prop :=
  ∀ d, e.event.headed = some d → d.sessionId = sessionId →
    ∃ p, packets[e.packet]? = some p ∧ NetLocation.fromStr p.address none = .ok d.remoteLocation ∧
      0 < p.available maxDatagramSize ∧
      (p.needed (p.available maxDatagramSize) ≤ 255 →
        SentFor p (p.available maxDatagramSize) d.fragmentId d.fragmentCount d.payload)

/-- The entry holds pieces of the packet that began it, brought by fragments of
that packet. -/
structure OwnedBy (maxDatagramSize : Nat) (packets : List Packet) (owner : Option Nat)
    (origin : Nat → Option Nat) (entry : FragmentedPacket) (i : Nat) : Prop where
  owner : owner = some i
  part : ∃ p, packets[i]? = some p ∧ PartOf maxDatagramSize p entry
  origin : ∀ (j : Nat) (content : Bytes), entry.received[j]? = some (some content) →
    origin j = some i

/-- So does every entry of the session's cache. -/
def Owned (maxDatagramSize : Nat) (sessionId : UInt32) (packets : List Packet) (s : Traced) :
    Prop :=
  ∀ k entry, s.cached sessionId k = some entry →
    ∃ i, OwnedBy maxDatagramSize packets (s.owner k) (s.origin k) entry i

variable {sessionId : UInt32} {packets : List Packet} {s t : Traced} {e : Tagged}
  {events : List Tagged}

theorem arrives_eq_some {o : Outgoing} (arrives : o.arrives = some d) :
    NetLocation.fromStr o.address none = .ok d.remoteLocation ∧ d.fragmentId = o.fragmentId ∧
      d.fragmentCount = o.fragmentCount ∧ d.payload = o.payload := by
  unfold Outgoing.arrives at arrives
  split at arrives
  · cases arrives
  · split at arrives
    · cases arrives
    · rename_i location parsed
      obtain rfl := Option.some.inj arrives
      exact ⟨parsed, rfl, rfl, rfl⟩

theorem ReceivesFrom.bringsSent (h : ReceivesFrom maxDatagramSize sessionId packets events)
    (mem : e ∈ events) : BringsSent maxDatagramSize sessionId packets e := by
  obtain ⟨received, sublist, same⟩ := h
  intro d brings own
  have arrived : (e.packet, d) ∈ arrivals sessionId events := by
    refine List.mem_filterMap.mpr ⟨e, mem, ?_⟩
    simp [brings, own]
  rw [same] at arrived
  obtain ⟨⟨i, o⟩, sent, arrives⟩ := List.mem_filterMap.mp arrived
  obtain ⟨_, parsed, pair⟩ := Option.map_eq_some_iff.mp arrives
  obtain ⟨rfl, rfl⟩ := Prod.mk.inj pair
  obtain ⟨j, p, number, found, label, room, sentFor⟩ := mem_sentFrom (sublist.subset sent)
  obtain ⟨location, id, count, payload⟩ := arrives_eq_some parsed
  rw [id, count, payload]
  refine ⟨p, ?_, ?_, room, sentFor⟩
  · rw [show e.packet = j by simpa using number, found]
  · rw [← label, location]

theorem fragment_eq_some : e.fragment sessionId = some d ↔
    e.event.headed = some d ∧ d.sessionId = sessionId ∧ 1 < d.fragmentCount.toNat := by
  simp [Tagged.fragment, Option.filter_eq_some_iff]

theorem unmistaken_few (h : unmistaken maxDatagramSize sessionId packets s e = true)
    (brings : e.event.headed = some d) (own : d.sessionId = sessionId)
    (found : packets[e.packet]? = some p) : p.needed (p.available maxDatagramSize) ≤ 255 := by
  simp only [unmistaken, UdpEvent.isFor, brings, own, found, Option.any_some, decide_true,
    Bool.not_true, Bool.false_or, Option.all_some, Bool.and_eq_true, decide_eq_true_eq] at h
  exact h.1

theorem unmistaken_owner (h : unmistaken maxDatagramSize sessionId packets s e = true)
    (fragment : e.fragment sessionId = some d) (found : s.cached sessionId d.packetId = some entry)
    (count : entry.fragmentCount = d.fragmentCount)
    (slot : entry.received[d.fragmentId.toNat]? = some none) :
    s.owner d.packetId = some e.packet := by
  obtain ⟨brings, own, -⟩ := fragment_eq_some.mp fragment
  simp only [unmistaken, UdpEvent.isFor, brings, own, fragment, found, Option.any_some, decide_true,
    Bool.not_true, Bool.false_or, Option.all_some, Bool.and_eq_true] at h
  simpa [count, slot] using h.2

section Fragment

variable (owned : Owned maxDatagramSize sessionId packets s)
  (apart : unmistaken maxDatagramSize sessionId packets s e = true)
  (sent : BringsSent maxDatagramSize sessionId packets e)

include owned apart sent

omit owned in
/-- A fragment is a piece of its packet. -/
theorem sentFor_fragment (fragment : e.fragment sessionId = some d) :
    ∃ p, packets[e.packet]? = some p ∧ NetLocation.fromStr p.address none = .ok d.remoteLocation ∧
      0 < p.available maxDatagramSize ∧
      d.fragmentCount.toNat = p.needed (p.available maxDatagramSize) ∧
      d.payload = p.piece (p.available maxDatagramSize) d.fragmentId.toNat := by
  obtain ⟨brings, own, many⟩ := fragment_eq_some.mp fragment
  obtain ⟨p, found, location, room, sentFor⟩ := sent d brings own
  cases sentFor (unmistaken_few apart brings own found) with
  | whole one =>
      rw [one] at many
      exact absurd many (by decide)
  | fragment _ number inside piece => exact ⟨p, found, location, room, number, piece⟩

/-- The entry that a fragment is filed in belongs to its packet. -/
theorem ownedBy_entryFor (fragment : e.fragment sessionId = some d)
    (count : (entryFor (s.loop.cacheOf sessionId) d).fragmentCount = d.fragmentCount)
    (slot : (entryFor (s.loop.cacheOf sessionId) d).received[d.fragmentId.toNat]? = some none) :
    OwnedBy maxDatagramSize packets (s.owners sessionId e d.packetId) (s.origin d.packetId)
      (entryFor (s.loop.cacheOf sessionId) d) e.packet := by
  cases cached : s.cached sessionId d.packetId with
  | some entry =>
      have same : entryFor (s.loop.cacheOf sessionId) d = entry := by
        rw [entryFor, show (s.loop.cacheOf sessionId).get? d.packetId = some entry from cached,
          Option.getD_some]
      rw [same] at count slot ⊢
      have owner := unmistaken_owner apart fragment cached count slot
      obtain ⟨i, ownedBy⟩ := owned _ entry cached
      obtain rfl := Option.some.inj (owner.symm.trans ownedBy.owner)
      refine ⟨?_, ownedBy.part, ownedBy.origin⟩
      simp only [Traced.owners, fragment, cached, Option.isSome_some, if_true, owner]
  | none =>
      have same : entryFor (s.loop.cacheOf sessionId) d = .new d := by
        rw [entryFor, show (s.loop.cacheOf sessionId).get? d.packetId = none from cached,
          Option.getD_none]
      rw [same]
      obtain ⟨p, found, location, room, number, -⟩ := sentFor_fragment apart sent fragment
      refine ⟨?_, ⟨p, found, partOf_new room number location⟩, ?_⟩
      · simp [Traced.owners, fragment, cached]
      · intro i content filled
        exact absurd filled (received_new_ne d i content)

/-- So does the entry with the fragment in it. -/
theorem ownedBy_filled (fragment : e.fragment sessionId = some d)
    (count : (entryFor (s.loop.cacheOf sessionId) d).fragmentCount = d.fragmentCount)
    (slot : (entryFor (s.loop.cacheOf sessionId) d).received[d.fragmentId.toNat]? = some none)
    (filling : (entryFor (s.loop.cacheOf sessionId) d).fill d.fragmentId d.payload = .ok filled) :
    OwnedBy maxDatagramSize packets (s.owners sessionId e d.packetId)
      (s.origins sessionId e d.packetId) filled e.packet := by
  obtain ⟨owner, ⟨p, found, part⟩, origin⟩ := ownedBy_entryFor owned apart sent fragment count slot
  obtain ⟨q, found', -, -, -, piece⟩ := sentFor_fragment apart sent fragment
  obtain rfl := Option.some.inj (found.symm.trans found')
  refine ⟨owner, ⟨p, found, part.fill piece filling⟩, ?_⟩
  intro i content filled
  obtain ⟨-, -, rfl⟩ := fill_eq_ok filling
  simp only [Traced.origins, fragment, Function.update_self]
  by_cases same : i = d.fragmentId.toNat
  · rw [same, Function.update_self]
  · rw [Function.update_of_ne same]
    refine origin i content ?_
    rwa [List.getElem?_set_ne (Ne.symm same)] at filled

/-- The payload that a datagram completes is that of its packet. -/
theorem completes_one (brings : e.event.headed = some d) (own : d.sessionId = sessionId)
    {payload : Bytes} {location : NetLocation}
    (filed : reassemble (s.loop.cacheOf sessionId) d = .ok (cache, some (payload, location))) :
    (∃ p, packets[e.packet]? = some p ∧ payload = p.payload ∧
      NetLocation.fromStr p.address none = .ok location) ∧
    ∀ d, e.fragment sessionId = some d → ∀ entry, s.cached sessionId d.packetId = some entry →
      ∀ i content, entry.received[i]? = some (some content) →
        s.origin d.packetId i = some e.packet := by
  have cases_ := reassembled (s.loop.cacheOf sessionId) d
  rw [filed] at cases_
  cases cases_ with
  | whole one =>
      constructor
      · obtain ⟨p, found, location, room, sentFor⟩ := sent d brings own
        cases sentFor (unmistaken_few apart brings own found) with
        | whole _ payload => exact ⟨p, found, payload, location⟩
        | fragment many count =>
            rw [← count, one] at many
            exact absurd many (by decide)
      · intro other fragment
        obtain ⟨brings', -, many⟩ := fragment_eq_some.mp fragment
        obtain rfl := Option.some.inj (brings.symm.trans brings')
        rw [one] at many
        exact absurd many (by decide)
  | completed many count slot filling _ joined =>
      have fragment := fragment_eq_some.mpr ⟨brings, own, many⟩
      have before := ownedBy_entryFor owned apart sent fragment count slot
      obtain ⟨-, ⟨p, found, part⟩, -⟩ :=
        ownedBy_filled owned apart sent fragment count slot filling
      refine ⟨⟨p, found, part.joined joined, part.location⟩, ?_⟩
      intro other fragment' entry cached i content filled
      obtain rfl := Option.some.inj (fragment.symm.trans fragment')
      refine before.origin i content ?_
      rw [entryFor, show (s.loop.cacheOf sessionId).get? d.packetId = some entry from cached]
      exact filled

/-- The entries that are there after a datagram of the session was filed. -/
theorem Owned.filed (brings : e.event.headed = some d) (own : d.sessionId = sessionId)
    {complete : Option (Bytes × NetLocation)}
    (filed : reassemble (s.loop.cacheOf sessionId) d = .ok (cache, complete)) {k : UInt16}
    (found : cache.get? k = some entry) :
    ∃ i, OwnedBy maxDatagramSize packets (s.owners sessionId e k) (s.origins sessionId e k)
      entry i := by
  rcases reassemble_get? filed found with
    ⟨before, other⟩ | ⟨many, rfl, count, slot, filling, -⟩
  · obtain ⟨i, ownedBy⟩ := owned k entry before
    refine ⟨i, ?_⟩
    cases fragment : e.fragment sessionId with
    | none =>
        simp only [Traced.owners, Traced.origins, fragment]
        exact ownedBy
    | some d' =>
        obtain ⟨brings', -, many⟩ := fragment_eq_some.mp fragment
        obtain rfl := Option.some.inj (brings.symm.trans brings')
        have different := other many
        have owners : s.owners sessionId e k = s.owner k := by
          simp only [Traced.owners, fragment]
          split
          · rfl
          · rw [Function.update_of_ne different]
        rw [owners, show s.origins sessionId e k = s.origin k by
          simp only [Traced.origins, fragment, Function.update_of_ne different]]
        exact ownedBy
  · have fragment := fragment_eq_some.mpr ⟨brings, own, many⟩
    exact ⟨e.packet, ownedBy_filled owned apart sent fragment count slot filling⟩

end Fragment

/-- One event of a run in which no fragment is mistaken. -/
theorem Owned.step (owned : Owned maxDatagramSize sessionId packets s)
    (stays : staysIn sessionId s.loop e.event = true)
    (apart : unmistaken maxDatagramSize sessionId packets s e = true)
    (sent : BringsSent maxDatagramSize sessionId packets e)
    (taken : stepTraced sessionId s e = some t) :
    Owned maxDatagramSize sessionId packets t ∧ CompletesOne sessionId packets s e := by
  obtain ⟨loop, ran, rfl⟩ := Option.map_eq_some_iff.mp taken
  rcases cacheOf_step stays ran with ⟨d, brings, own, filed⟩ | ⟨foreign, same⟩
  · constructor
    · intro k entry found
      exact owned.filed apart sent brings own filed found
    · intro _ payload location complete
      rw [complete] at filed
      exact completes_one owned apart sent brings own filed
  · have none_ : e.fragment sessionId = none := by
      by_contra some_
      obtain ⟨d, fragment⟩ := Option.ne_none_iff_exists'.mp some_
      obtain ⟨brings, own, -⟩ := fragment_eq_some.mp fragment
      exact foreign d brings own
    constructor
    · intro k entry found
      change (loop.cacheOf sessionId).get? k = some entry at found
      rw [same] at found
      show ∃ i, OwnedBy maxDatagramSize packets (s.owners sessionId e k) (s.origins sessionId e k)
        entry i
      simp only [Traced.owners, Traced.origins, none_]
      exact owned k entry found
    · intro isFor
      obtain ⟨d, brings, own⟩ : ∃ d, e.event.headed = some d ∧ d.sessionId = sessionId := by
        simpa [UdpEvent.isFor, Option.any_eq_true] using isFor
      exact absurd own (foreign d brings)

/-- However many datagrams are lost, what the reassembly completes is the
payload of one packet with its location, as long as every packet is cut into at
most 255 fragments and no fragment meets an entry that another packet began
under its id, with its count and with its slot empty. -/
theorem unmixed_along (maxDatagramSize : Nat) (sessionId : UInt32) (packets : List Packet)
    (loop : UdpLoop) (fresh : loop.cacheOf sessionId = Lru.empty) (events : List Tagged)
    (received : ReceivesFrom maxDatagramSize sessionId packets events)
    (along : Transition.Along (stepTraced sessionId) (fun s e =>
      staysIn sessionId s.loop e.event = true ∧
        unmistaken maxDatagramSize sessionId packets s e = true) (.start loop) events) :
    Transition.Along (stepTraced sessionId) (CompletesOne sessionId packets) (.start loop)
      events := by
  have start : Owned maxDatagramSize sessionId packets (.start loop) := by
    intro k entry found
    change (loop.cacheOf sessionId).get? k = some entry at found
    rw [fresh] at found
    cases found
  exact Transition.along_of_along
    (fun s e t owned met taken => (owned.step met.1.1 met.1.2 met.2 taken).2)
    (fun s e t owned met taken => (owned.step met.1.1 met.1.2 met.2 taken).1) start
    (along.and_forall fun e mem => received.bringsSent mem)

/-- A packet of two bytes from 1.2.3.4:53, of which a datagram of 20 bytes
carries one. -/
def twoBytes (first second : UInt8) : Packet where
  address := ['1', '.', '2', '.', '3', '.', '4', ':', '5', '3']
  payload := [first, second]
  carried := by simp

/-- One of its bytes arrives in session 1, under the id of its packet. -/
def byteArrives (packet : Nat) (fragmentId byte : UInt8) : Tagged where
  packet := packet
  event := .iterate NetLocation.toSocketAddrNonblocking
    { now := 0
      cleanupNow := 0
      read := .headed
        { sessionId := 1
          packetId := UInt16.ofNat packet
          fragmentId := fragmentId
          fragmentCount := 2
          remoteLocation := ⟨.ipv4 ⟨1, 2, 3, 4⟩, 53⟩
          payload := [byte]
          carried := carried_byte byte }
      newUdpSocket := true
      startedAt := 0
      sendTo := true }

/-- The second byte of the first packet is lost, and both of the second one arrive. -/
theorem both_halves_unmixed :
    Transition.Along (stepTraced 1) (CompletesOne 1 [twoBytes 10 20, twoBytes 30 40])
      (.start (UdpLoop.initial 0)) [byteArrives 0 0 10, byteArrives 1 0 30, byteArrives 1 1 40] :=
  unmixed_along 20 1 [twoBytes 10 20, twoBytes 30 40] (UdpLoop.initial 0) rfl _
    ⟨(sentBy 20 1 [twoBytes 10 20, twoBytes 30 40]).eraseIdx 1, List.eraseIdx_sublist _ _, rfl⟩
    (by decide +kernel)

/-- Packets 0 and 65536 have the same id, whatever was sent between them. -/
def wrapping : List Packet :=
  twoBytes 10 20 :: (List.replicate 65535 (twoBytes 0 0) ++ [twoBytes 30 40])

theorem sentFrom_twoBytes (first second : UInt8) (nextPacketId : UInt16) (i : Nat)
    (packets : List Packet) :
    sentFrom 20 1 nextPacketId i (twoBytes first second :: packets) =
      (i, (twoBytes first second).fragment 1 nextPacketId 2 1 0) ::
        (i, (twoBytes first second).fragment 1 nextPacketId 2 1 1) ::
          sentFrom 20 1 (nextPacketId + 1) (i + 1) packets := by
  have sends : sendPacket 20 1 nextPacketId (twoBytes first second) =
      .sends [(twoBytes first second).fragment 1 nextPacketId 2 1 0,
        (twoBytes first second).fragment 1 nextPacketId 2 1 1] := by
    have encoded : encodeVarint (utf8Len (twoBytes first second).address) = .ok [10] := rfl
    have overhead : (twoBytes first second).headerOverhead [10] = 19 := rfl
    have needed : (twoBytes first second).needed 1 = 2 := by simp [Packet.needed, twoBytes]
    rw [sendPacket, encoded]
    dsimp only
    rw [overhead, if_neg (by decide), Packet.datagrams, if_neg (by simp [twoBytes])]
    simp only [Nat.reduceSub, needed]
    rfl
  rw [sentFrom, sends]
  rfl

/-- All that is sent between two packets may be lost. -/
theorem sentFrom_replicate (n : Nat) (nextPacketId : UInt16) (i : Nat) (packets : List Packet) :
    (sentFrom 20 1 (nextPacketId + UInt16.ofNat n) (i + n) packets).Sublist
      (sentFrom 20 1 nextPacketId i (List.replicate n (twoBytes 0 0) ++ packets)) := by
  induction n generalizing nextPacketId i with
  | zero => simp
  | succ n ih =>
      have later := ih (nextPacketId + 1) (i + 1)
      have id : nextPacketId + 1 + UInt16.ofNat n = nextPacketId + UInt16.ofNat (n + 1) := by
        rw [UInt16.add_assoc, UInt16.ofNat_add, UInt16.add_comm 1]
        rfl
      rw [id, show i + 1 + n = i + (n + 1) by omega] at later
      rw [List.replicate_succ, List.cons_append, sentFrom_twoBytes]
      exact .cons _ (.cons _ later)

theorem wrapping_receives :
    ReceivesFrom 20 1 wrapping [byteArrives 0 0 10, byteArrives 65536 1 40] := by
  refine ⟨[(0, (twoBytes 10 20).fragment 1 0 2 1 0), (65536, (twoBytes 30 40).fragment 1 0 2 1 1)],
    ?_, rfl⟩
  have later := sentFrom_replicate 65535 1 1 [twoBytes 30 40]
  rw [show (1 : UInt16) + UInt16.ofNat 65535 = 0 by decide, show 1 + 65535 = 65536 by decide,
    sentFrom_twoBytes] at later
  rw [sentBy, wrapping, sentFrom_twoBytes]
  exact .cons_cons _ (.cons _ (.trans (.cons _ (.cons_cons _ (List.nil_sublist _))) later))

/-- The session after the first byte of packet 0. -/
def firstByte : Option Traced :=
  stepTraced 1 (.start (UdpLoop.initial 0)) (byteArrives 0 0 10)

/-- The first byte of packet 0 and the second one of packet 65536 become a
packet that was never sent. -/
theorem wrapped_id_mixes :
    (UdpLoop.initial 0).cacheOf 1 = Lru.empty ∧
      ReceivesFrom 20 1 wrapping [byteArrives 0 0 10, byteArrives 65536 1 40] ∧
      Transition.Along (stepTraced 1) (fun s e => staysIn 1 s.loop e.event = true)
        (.start (UdpLoop.initial 0)) [byteArrives 0 0 10, byteArrives 65536 1 40] ∧
      ¬Transition.Along (stepTraced 1) (CompletesOne 1 wrapping) (.start (UdpLoop.initial 0))
        [byteArrives 0 0 10, byteArrives 65536 1 40] := by
  refine ⟨rfl, wrapping_receives, by decide +kernel, ?_⟩
  intro all
  have began : stepTraced 1 (.start (UdpLoop.initial 0)) (byteArrives 0 0 10) =
      some (firstByte.get (by decide +kernel)) := (Option.some_get _).symm
  obtain ⟨-, rest⟩ := all _ began
  have goesOn : (stepTraced 1 (firstByte.get (by decide +kernel))
      (byteArrives 65536 1 40)).isSome = true := by
    decide +kernel
  obtain ⟨one, -⟩ := rest _ (Option.some_get goesOn).symm
  obtain ⟨⟨p, found, payload, -⟩, -⟩ :=
    one rfl [10, 40] ⟨.ipv4 ⟨1, 2, 3, 4⟩, 53⟩ (by decide +kernel)
  have last : wrapping[65536]? = some (twoBytes 30 40) := by
    rw [wrapping, List.getElem?_cons_succ,
      List.getElem?_append_right (by rw [List.length_replicate]), List.length_replicate,
      Nat.sub_self, List.getElem?_cons_zero]
  obtain rfl := Option.some.inj (last.symm.trans found)
  exact absurd payload (by decide)

end RustProxy.Hysteria2
