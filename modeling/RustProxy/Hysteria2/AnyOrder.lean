import Mathlib.Data.List.Induction
import RustProxy.Hysteria2.Reassembly
import RustProxy.Hysteria2.SessionCache

/-!
# Fragments in any order

A packet of which some fragments have arrived is `gathered` from them: each
fragment in its slot, their number and their total length. Another fragment
goes into an empty slot, whatever the order; a packet of which all have arrived
has its fragments in the order of their ids.

Between two fragments of a packet the cache handles other packets of the
session. The packet keeps its place as long as fewer than 256 others are
touched, because the cache drops its least recently used entry only.

The session itself is taken out of the table by what comes from outside only: a
clean-up pass, a failed send or the end of the loop. None of the fragments does
it, since a loop with good caches panics at an id out of range and nowhere else.
-/

namespace RustProxy.Hysteria2

/-- A packet of which the fragments in `seen` have arrived, in that order. -/
def gathered (count : UInt8) (location : NetLocation) (seen : List Datagram) :
    FragmentedPacket where
  fragmentCount := count
  fragmentReceived := UInt8.ofNat seen.length
  packetLen := (seen.map (·.payload.length)).sum
  received := seen.foldl (fun slots d => slots.set d.fragmentId.toNat (some d.payload))
    (List.replicate count.toNat none)
  remoteLocation := location

variable {count : UInt8} {location : NetLocation} {seen : List Datagram} {d : Datagram}

theorem new_eq_gathered (count_ : d.fragmentCount = count)
    (location_ : d.remoteLocation = location) :
    FragmentedPacket.new d = gathered count location [] := by
  subst count_ location_
  rfl

theorem received_concat (count : UInt8) (location : NetLocation) (seen : List Datagram)
    (d : Datagram) :
    (gathered count location (seen ++ [d])).received =
      (gathered count location seen).received.set d.fragmentId.toNat (some d.payload) := by
  simp [gathered]

@[simp] theorem length_received (count : UInt8) (location : NetLocation) (seen : List Datagram) :
    (gathered count location seen).received.length = count.toNat := by
  induction seen using List.reverseRecOn with
  | nil => simp [gathered]
  | append_singleton seen d ih => rw [received_concat, List.length_set, ih]

/-- The slot of a fragment that has not arrived is empty. -/
theorem received_vacant (location : NetLocation) {i : Nat} (inside : i < count.toNat)
    (absent : ∀ d ∈ seen, d.fragmentId.toNat ≠ i) :
    (gathered count location seen).received[i]? = some none := by
  induction seen using List.reverseRecOn with
  | nil => simp [gathered, inside]
  | append_singleton seen d ih =>
      rw [received_concat, List.getElem?_set_ne (absent d (by simp))]
      exact ih fun d mem => absent d (List.mem_append_left _ mem)

/-- A fragment that has arrived, once, is in its slot. -/
theorem received_filled (location : NetLocation)
    (once : (seen.map (·.fragmentId.toNat)).Nodup) (mem : d ∈ seen)
    (inside : d.fragmentId.toNat < count.toNat) :
    (gathered count location seen).received[d.fragmentId.toNat]? = some (some d.payload) := by
  induction seen using List.reverseRecOn with
  | nil => cases mem
  | append_singleton seen last ih =>
      rw [List.map_append, List.nodup_append] at once
      rw [received_concat]
      rcases List.mem_append.mp mem with earlier | latest
      · have different : last.fragmentId.toNat ≠ d.fragmentId.toNat := by
          intro same
          exact once.2.2 _ (List.mem_map_of_mem earlier) _ (List.mem_singleton_self _) same.symm
        rw [List.getElem?_set_ne different]
        exact ih once.1 earlier
      · obtain rfl := List.mem_singleton.mp latest
        rw [List.getElem?_set_self (by rw [length_received]; exact inside)]

/-- Filing a fragment in a packet that has room for it. -/
theorem fill_gathered (count : UInt8) (location : NetLocation) (seen : List Datagram)
    (few : seen.length < 255) (d : Datagram) :
    (gathered count location seen).fill d.fragmentId d.payload =
      .ok (gathered count location (seen ++ [d])) := by
  have received : (gathered count location seen).fragmentReceived ≠ 255 := by
    intro full
    have := congrArg UInt8.toNat full
    simp [gathered] at this
    omega
  have length : ∀ ds : List Datagram, (ds.map (·.payload.length)).sum ≤ ds.length * 65536 := by
    intro ds
    induction ds with
    | nil => simp
    | cons d ds ih =>
        have := d.carried
        rw [List.map_cons, List.sum_cons, List.length_cons]
        omega
  have short : ¬usizeBound ≤ (gathered count location seen).packetLen + d.payload.length := by
    have total : (gathered count location seen).packetLen ≤ seen.length * 65536 := length seen
    have := d.carried
    have : usizeBound = 2 ^ 64 := rfl
    omega
  rw [FragmentedPacket.fill, if_neg (not_or.mpr ⟨received, short⟩)]
  have counted : (gathered count location seen).fragmentReceived + 1 =
      UInt8.ofNat (seen ++ [d]).length := by
    simp [gathered]
  have sum : (gathered count location seen).packetLen + d.payload.length =
      ((seen ++ [d]).map (·.payload.length)).sum := by
    simp [gathered]
  rw [counted, sum, ← received_concat]
  rfl

@[simp] theorem joinSlots_map_some (parts : List Bytes) :
    joinSlots (parts.map some) = .ok parts.flatten := by
  induction parts with
  | nil => rfl
  | cons part parts ih => simp [joinSlots, ih, Except.map]

/-! ## One packet in the cache of its session -/

variable {c c' : FragmentCache} {ids : List UInt16} {k : UInt16}

/-- The cache holds what has been seen of the packet, and used only the packets
`ids` since. -/
def Gathering (c : FragmentCache) (ids : List UInt16) (k : UInt16) (count : UInt8)
    (location : NetLocation) (seen : List Datagram) : Prop :=
  seen = [] ∧ c.get? k = none ∨ seen ≠ [] ∧ c.Recent ids k (gathered count location seen)

private theorem cache_slots : 0 < MAX_FRAGMENT_CACHE_SIZE := by decide

/-- A fragment of the packet is filed with what was seen of it. -/
theorem Gathering.entryFor (h : Gathering c ids k count location seen) (packet : d.packetId = k)
    (count_ : d.fragmentCount = count) (location_ : d.remoteLocation = location) :
    entryFor c d = gathered count location seen := by
  unfold Hysteria2.entryFor
  rw [packet]
  rcases h with ⟨rfl, absent⟩ | ⟨-, recent⟩
  · rw [absent, Option.getD_none, new_eq_gathered count_ location_]
  · rw [recent.get?, Option.getD_some]

section Fragment

variable (h : Gathering c ids k count location seen) (packet : d.packetId = k)
  (count_ : d.fragmentCount = count) (location_ : d.remoteLocation = location)
  (many : 1 < count.toNat) (inside : d.fragmentId.toNat < count.toNat)
  (once : ∀ other ∈ seen, other.fragmentId.toNat ≠ d.fragmentId.toNat)
  (few : seen.length < count.toNat)

include h packet count_ location_ many inside once few

/-- The reassembly goes as far as storing the fragment. -/
theorem reassembled_fragment {result : Except Fault (FragmentCache × Option (Bytes × NetLocation))}
    (cases_ : Reassembled c d result) :
    (gathered count location (seen ++ [d])).fragmentReceived ≠ count ∧
        result = .ok ((touched c d).put k (gathered count location (seen ++ [d])), none) ∨
      (gathered count location (seen ++ [d])).fragmentReceived = count ∧
        ((∃ fault, joinSlots (gathered count location (seen ++ [d])).received = .error fault) ∨
          ∃ payload, joinSlots (gathered count location (seen ++ [d])).received = .ok payload ∧
            result = .ok (((touched c d).put k (gathered count location (seen ++ [d]))).pop k,
              some (payload, location))) := by
  have entry := h.entryFor packet count_ location_
  have small := count.toNat_lt
  have filling := fill_gathered count location seen (by omega) d
  have vacant := received_vacant location inside once
  rw [← entry] at filling vacant
  have filled {packet : FragmentedPacket}
      (ok : (Hysteria2.entryFor c d).fill d.fragmentId d.payload = .ok packet) :
      packet = gathered count location (seen ++ [d]) := Except.ok.inj (ok.symm.trans filling)
  cases cases_ with
  | empty none_ | whole none_ =>
      rw [← count_, none_] at many
      exact absurd many (by decide)
  | mismatched _ different =>
      rw [entry] at different
      exact absurd count_.symm different
  | outOfRange _ _ slot | duplicate _ _ slot =>
      rw [vacant] at slot
      cases slot
  | overflow _ _ failed =>
      rw [filling] at failed
      cases failed
  | stored _ _ _ ok notAll =>
      obtain rfl := filled ok
      exact .inl ⟨notAll, by rw [packet]⟩
  | missing _ _ _ ok all failed =>
      obtain rfl := filled ok
      exact .inr ⟨all, .inl ⟨_, failed⟩⟩
  | completed _ _ _ ok all joined =>
      obtain rfl := filled ok
      exact .inr ⟨all, .inr ⟨_, joined, by rw [packet]; rfl⟩⟩

/-- A fragment that is not the last one is stored. -/
theorem reassemble_stores (more : seen.length + 1 ≠ count.toNat) :
    ∃ c', reassemble c d = .ok (c', none) ∧ Gathering c' ids k count location (seen ++ [d]) := by
  have small := count.toNat_lt
  have received : (gathered count location (seen ++ [d])).fragmentReceived ≠ count := by
    intro all
    have := congrArg UInt8.toNat all
    simp [gathered] at this
    omega
  rcases reassembled_fragment h packet count_ location_ many inside once few (reassembled c d)
    with ⟨-, stored⟩ | ⟨all, -⟩
  · exact ⟨_, stored, .inr ⟨by simp, Lru.recent_put_self cache_slots⟩⟩
  · exact absurd all received

/-- The last fragment completes the packet, and its entry is gone. -/
theorem reassemble_completes (last : seen.length + 1 = count.toNat) {payload : Bytes}
    (joined : joinSlots (gathered count location (seen ++ [d])).received = .ok payload) :
    ∃ c', reassemble c d = .ok (c', some (payload, location)) ∧ c'.get? k = none := by
  have received : (gathered count location (seen ++ [d])).fragmentReceived = count := by
    rw [← UInt8.toNat_inj]
    simp [gathered, last]
  rcases reassembled_fragment h packet count_ location_ many inside once few (reassembled c d)
    with ⟨notAll, -⟩ | ⟨-, ⟨fault, failed⟩ | ⟨payload', joined', filed⟩⟩
  · exact absurd received notAll
  · rw [joined] at failed
    cases failed
  · obtain rfl := Except.ok.inj (joined.symm.trans joined')
    refine ⟨_, filed, ?_⟩
    simp [Lru.get?, Lru.pop]

end Fragment

theorem recent_touched {p : FragmentedPacket} (recent : c.Recent ids k p) (other : d.packetId ≠ k)
    (mem : d.packetId ∈ ids) (few : ids.dedup.length < MAX_FRAGMENT_CACHE_SIZE) :
    (touched c d).Recent ids k p := by
  unfold touched
  split
  · exact recent.put_ne other mem few
  · exact (recent.put_ne other mem few).put_ne other mem few

/-- Another datagram of the session leaves the packet where it is. -/
theorem Gathering.other (h : Gathering c ids k count location seen)
    (other : 1 < d.fragmentCount.toNat → d.packetId ≠ k ∧ d.packetId ∈ ids)
    (few : ids.dedup.length < MAX_FRAGMENT_CACHE_SIZE) {complete : Option (Bytes × NetLocation)}
    (filed : reassemble c d = .ok (c', complete)) : Gathering c' ids k count location seen := by
  rcases h with ⟨none_, absent⟩ | ⟨some_, recent⟩
  · refine .inl ⟨none_, ?_⟩
    by_contra present
    obtain ⟨p, found⟩ := Option.ne_none_iff_exists'.mp present
    rcases reassemble_get? filed found with ⟨before, -⟩ | ⟨many, same, -⟩
    · rw [absent] at before
      cases before
    · exact (other many).1 same.symm
  · refine .inr ⟨some_, ?_⟩
    have cases_ := reassembled c d
    rw [filed] at cases_
    cases cases_ with
    | empty | whole => exact recent
    | mismatched many | duplicate many =>
        obtain ⟨different, mem⟩ := other many
        exact (recent_touched recent different mem few).pop_ne different
    | stored many =>
        obtain ⟨different, mem⟩ := other many
        exact (recent_touched recent different mem few).put_ne different mem few
    | completed many =>
        obtain ⟨different, mem⟩ := other many
        exact ((recent_touched recent different mem few).put_ne different mem few).pop_ne different

/-! ## Whole runs -/

/-- A fragment of the packet `k` of a session. -/
def Datagram.isFragmentOf (sessionId : UInt32) (k : UInt16) (d : Datagram) : Bool :=
  d.sessionId = sessionId && d.packetId = k && 1 < d.fragmentCount.toNat

/-- The fragments of a packet that events bring, as they arrive. -/
def fragmentsOf (sessionId : UInt32) (k : UInt16) (events : List UdpEvent) : List Datagram :=
  (events.filterMap UdpEvent.headed).filter (Datagram.isFragmentOf sessionId k)

/-- The other packets of the session of which events bring fragments. -/
def otherPackets (sessionId : UInt32) (k : UInt16) (events : List UdpEvent) : List UInt16 :=
  ((events.filterMap UdpEvent.headed).filter fun d =>
    d.sessionId = sessionId && d.packetId ≠ k && 1 < d.fragmentCount.toNat).map Datagram.packetId

variable {s t u : UdpLoop} {e : UdpEvent} {events : List UdpEvent} {sessionId : UInt32}

theorem isFragmentOf_iff : d.isFragmentOf sessionId k = true ↔
    d.sessionId = sessionId ∧ d.packetId = k ∧ 1 < d.fragmentCount.toNat := by
  simp [Datagram.isFragmentOf, and_assoc]

theorem fragmentsOf_append (events events' : List UdpEvent) :
    fragmentsOf sessionId k (events ++ events') =
      fragmentsOf sessionId k events ++ fragmentsOf sessionId k events' := by
  simp [fragmentsOf, List.filterMap_append]

theorem otherPackets_append (events events' : List UdpEvent) :
    otherPackets sessionId k (events ++ events') =
      otherPackets sessionId k events ++ otherPackets sessionId k events' := by
  simp [otherPackets, List.filterMap_append]

theorem fragmentsOf_singleton (brings : e.headed = some d)
    (own : d.isFragmentOf sessionId k = true) :
    fragmentsOf sessionId k [e] = [d] := by
  simp [fragmentsOf, brings, own]

theorem fragmentsOf_singleton_ne
    (none_ : ∀ d, e.headed = some d → d.isFragmentOf sessionId k = false) :
    fragmentsOf sessionId k [e] = [] := by
  cases brings : e.headed with
  | none => simp [fragmentsOf, brings]
  | some d => simp [fragmentsOf, brings, none_ d brings]

/-- What the event brings has a fragment id below its fragment count. -/
def UdpEvent.inRange (e : UdpEvent) : Bool :=
  e.headed.all fun d => d.fragmentCount.toNat ≤ 1 || d.fragmentId.toNat < d.fragmentCount.toNat

/-- The event of a loop that is neither dropped nor at an end. -/
def UdpEvent.ofLoop : UdpEvent → Bool
  | .iterate _ _ | .taskEnds _ => true
  | .dropped | .cancelParent => false

/-- Nothing fails outside: the datagram is read, a session that opens has its
socket, and the datagrams of this session resolve when they open it and are sent
when they complete a packet. -/
def undisturbed (sessionId : UInt32) (s : UdpLoop) : UdpEvent → Bool
  | .iterate resolve it =>
      match it.read with
      | .failed => false
      | .ignored => true
      | .headed d =>
          ((cleanUp s it).has d.sessionId || it.newUdpSocket) &&
            (d.sessionId ≠ sessionId ||
              ((cleanUp s it).has d.sessionId || (resolve d.remoteLocation).isSome) && it.sendTo)
  | _ => true

section Outside

variable {resolve : Resolve} {it : Iteration}

theorem not_outOfRange (inRange : d.fragmentCount.toNat ≤ 1 ∨
    d.fragmentId.toNat < d.fragmentCount.toNat) : ¬OutOfRange c d := by
  rintro ⟨many, beyond, -⟩
  omega

theorem indexInRange (inRange : e.inRange = true) : IndexInRange s e := by
  cases e with
  | iterate resolve it =>
      intro d session t read _
      refine not_outOfRange ?_
      simpa [UdpEvent.inRange, UdpEvent.headed, read] using inRange
  | taskEnds | dropped | cancelParent => trivial

/-- A datagram whose reassembly does not panic leaves the loop running when the
socket of a new session can be opened, and every session it found in the table
stays there when its own is sent. -/
theorem Handled.goesOn {sent : Option SendTo} (h : Handled resolve s it d t sent)
    (ok : CachesOk s) (inRange : d.fragmentCount.toNat ≤ 1 ∨
      d.fragmentId.toNat < d.fragmentCount.toNat) (running : s.status = .running)
    (socket : s.has d.sessionId = true ∨ it.newUdpSocket = true)
    (own : d.sessionId = sessionId →
      (s.has d.sessionId = true ∨ (resolve d.remoteLocation).isSome = true) ∧ it.sendTo = true) :
    t.status = .running ∧
      (s.has sessionId = true ∨ d.sessionId = sessionId → t.has sessionId = true) := by
  have stored {session : UdpSession} {t : UdpLoop} (entered : Entered resolve s it d session t)
      (updated : UdpSession) : (t.store d.sessionId updated).status = .running ∧
        (s.has sessionId = true ∨ d.sessionId = sessionId →
          (t.store d.sessionId updated).has sessionId = true) := by
    refine ⟨by simpa [UdpLoop.store, entered.status] using running, ?_⟩
    by_cases same : sessionId = d.sessionId
    · subst same
      intro _
      simp [UdpLoop.has, UdpLoop.store]
    · rintro (there | same')
      · simpa [UdpLoop.has, UdpLoop.store, AList.lookup_insert_ne same, entered.lookup_ne same]
          using there
      · exact absurd same'.symm same
  cases h with
  | unresolved absent answer =>
      refine ⟨running, ?_⟩
      rintro (there | same)
      · exact there
      · rcases (own same).1 with there | resolved
        · exact same ▸ there
        · simp [answer] at resolved
  | noSocket absent none_ =>
      rcases socket with there | some_
      · simp [UdpLoop.has, absent] at there
      · simp [none_] at some_
  | panicked entered failed =>
      obtain ⟨_, _, filed, _⟩ := reassemble_ok (ok.entered entered) (not_outOfRange inRange)
      rw [filed] at failed
      cases failed
  | kept entered | undeliverable entered | sent entered => exact stored entered _
  | sendFailed entered _ _ failed =>
      refine ⟨entered.status.trans running, ?_⟩
      by_cases same : sessionId = d.sessionId
      · rw [(own same.symm).2] at failed
        cases failed
      · rintro (there | same')
        · rw [UdpLoop.has, AList.lookup_erase_ne same, entered.lookup_ne same]
          exact there
        · exact absurd same'.symm same

theorem enabled_of_running (running : s.status = .running) (ofLoop : e.ofLoop = true) :
    ∃ t, step s e = some t := by
  cases e with
  | iterate resolve it => exact ⟨_, if_pos running⟩
  | taskEnds i => exact ⟨_, rfl⟩
  | dropped | cancelParent => cases ofLoop

/-- With good caches and ids in range, a session that nothing outside takes out
of the table stays there, and the loop goes on. -/
theorem stays_of_undisturbed (ok : CachesOk s) (running : s.status = .running)
    (ofLoop : e.ofLoop = true) (inRange : e.inRange = true)
    (spared : sparedIn sessionId s e = true) (outside : undisturbed sessionId s e = true)
    (taken : step s e = some t) :
    CachesOk t ∧ t.status = .running ∧ staysIn sessionId s e = true := by
  obtain ⟨running', stays⟩ : t.status = .running ∧
      (s.has sessionId = true ∨ e.isFor sessionId = true → t.has sessionId = true) := by
    cases e with
    | iterate resolve it =>
        have kept (there : s.has sessionId = true) : (cleanUp s it).has sessionId = true := by
          simpa [sparedIn, there] using spared
        have running_ : (cleanUp s it).status = .running := by simpa using running
        obtain rfl := Option.some.inj ((if_pos running).symm.trans taken)
        cases read : it.read with
        | failed => simp [undisturbed, read] at outside
        | ignored =>
            have done : Hysteria2.iterate resolve s it = (cleanUp s it, none) := by
              simp [Hysteria2.iterate, read]
            rw [done]
            refine ⟨running_, ?_⟩
            rintro (there | isFor)
            · exact kept there
            · simp [UdpEvent.isFor, UdpEvent.headed, read] at isFor
        | headed d =>
            simp only [undisturbed, read, Bool.and_eq_true, Bool.or_eq_true,
              decide_eq_true_eq] at outside
            have ids : d.fragmentCount.toNat ≤ 1 ∨ d.fragmentId.toNat < d.fragmentCount.toNat := by
              simpa [UdpEvent.inRange, UdpEvent.headed, read] using inRange
            have own (same : d.sessionId = sessionId) := outside.2.resolve_left (not_not.mpr same)
            rw [iterate_headed read]
            obtain ⟨running', stays⟩ :=
              (handled resolve (cleanUp s it) it d).goesOn ok.cleanUp ids running_ outside.1 own
            refine ⟨running', ?_⟩
            rintro (there | isFor)
            · exact stays (.inl (kept there))
            · refine stays (.inr ?_)
              simpa [UdpEvent.isFor, UdpEvent.headed, read] using isFor
    | taskEnds i =>
        obtain rfl := Option.some.inj taken
        exact ⟨running, by simp [UdpEvent.isFor, UdpEvent.headed, UdpLoop.has]⟩
    | dropped | cancelParent => cases ofLoop
  refine ⟨ok.step (indexInRange inRange) taken, running', ?_⟩
  simp only [staysIn, taken, spared, Option.all_some, Bool.true_and]
  by_cases own : s.has sessionId = true ∨ e.isFor sessionId = true
  · simp [stays own]
  · simp only [not_or, Bool.not_eq_true] at own
    simp [own.1, own.2]

/-- A run of such events comes to its end, and the session is there throughout. -/
theorem stays_along (ok : CachesOk s) (running : s.status = .running)
    (ofLoop : ∀ e ∈ events, e.ofLoop = true) (inRange : ∀ e ∈ events, e.inRange = true)
    (spared : Transition.Along step (sparedIn sessionId · ·) s events)
    (outside : Transition.Along step (undisturbed sessionId · ·) s events) :
    ∃ t, events.foldlM step s = some t ∧ t.status = .running ∧
      Transition.Along step (staysIn sessionId · ·) s events := by
  induction events generalizing s with
  | nil => exact ⟨s, rfl, running, trivial⟩
  | cons e events ih =>
      rw [List.forall_mem_cons] at ofLoop inRange
      obtain ⟨t, taken⟩ := enabled_of_running running ofLoop.1
      obtain ⟨sparedNow, sparedOn⟩ := spared t taken
      obtain ⟨outsideNow, outsideOn⟩ := outside t taken
      obtain ⟨ok', running', stays⟩ := stays_of_undisturbed ok running ofLoop.1 inRange.1
        sparedNow outsideNow taken
      obtain ⟨u, ran, end_, along⟩ := ih ok' running' ofLoop.2 inRange.2 sparedOn outsideOn
      refine ⟨u, Transition.run_cons taken ran, end_, ?_⟩
      intro t' taken'
      obtain rfl := Option.some.inj (taken.symm.trans taken')
      exact ⟨stays, along⟩

end Outside

/-- Fragments that can be added to those seen: of the same packet, each once, and
not all of it. -/
structure Fits (count : UInt8) (location : NetLocation) (seen more : List Datagram) : Prop where
  alike : ∀ d ∈ more, d.fragmentCount = count ∧ d.remoteLocation = location
  inside : ∀ d ∈ more, d.fragmentId.toNat < count.toNat
  once : ((seen ++ more).map (·.fragmentId.toNat)).Nodup

theorem Fits.other {more later : List Datagram} (h : Fits count location seen (more ++ later)) :
    Fits count location seen more ∧ Fits count location (seen ++ more) later := by
  obtain ⟨alike, inside, once⟩ := h
  rw [← List.append_assoc] at once
  refine ⟨⟨?_, ?_, ?_⟩, ⟨?_, ?_, once⟩⟩
  · exact fun d mem => alike d (List.mem_append_left _ mem)
  · exact fun d mem => inside d (List.mem_append_left _ mem)
  · rw [List.map_append] at once
    exact (List.nodup_append.mp once).1
  · exact fun d mem => alike d (List.mem_append_right _ mem)
  · exact fun d mem => inside d (List.mem_append_right _ mem)

theorem Fits.fresh (h : Fits count location seen [d]) :
    ∀ other ∈ seen, other.fragmentId.toNat ≠ d.fragmentId.toNat := by
  intro other mem same
  have once := h.once
  rw [List.map_append, List.nodup_append] at once
  exact once.2.2 _ (List.mem_map_of_mem mem) _ (List.mem_singleton_self _) same

/-- One event of a run in which the packet is not yet complete. -/
theorem Gathering.event (h : Gathering (s.cacheOf sessionId) ids k count location seen)
    (many : 1 < count.toNat) (stays : staysIn sessionId s e = true) (taken : step s e = some t)
    (fits : Fits count location seen (fragmentsOf sessionId k [e]))
    (more : (seen ++ fragmentsOf sessionId k [e]).length < count.toNat)
    (others : ∀ j ∈ otherPackets sessionId k [e], j ∈ ids)
    (few : ids.dedup.length < MAX_FRAGMENT_CACHE_SIZE) :
    Gathering (t.cacheOf sessionId) ids k count location (seen ++ fragmentsOf sessionId k [e]) ∧
      (fragmentsOf sessionId k [e] ≠ [] → completed s e = none) := by
  rcases cacheOf_step stays taken with ⟨d, brings, own, filed⟩ | ⟨foreign, same⟩
  · by_cases fragment : d.isFragmentOf sessionId k = true
    · rw [fragmentsOf_singleton brings fragment] at fits more ⊢
      obtain ⟨-, packet, -⟩ := isFragmentOf_iff.mp fragment
      obtain ⟨count_, location_⟩ := fits.alike d (List.mem_singleton_self d)
      rw [List.length_append, List.length_singleton] at more
      obtain ⟨c', stored, gathering⟩ := reassemble_stores h packet count_ location_ many
        (fits.inside d (List.mem_singleton_self d)) fits.fresh (by omega) (by omega)
      obtain ⟨rfl, none_⟩ := Prod.mk.inj (Except.ok.inj (stored.symm.trans filed))
      exact ⟨gathering, fun _ => none_.symm⟩
    · have none_ : fragmentsOf sessionId k [e] = [] := by
        apply fragmentsOf_singleton_ne
        intro other brings'
        obtain rfl := Option.some.inj (brings.symm.trans brings')
        simpa using fragment
      rw [none_, List.append_nil]
      refine ⟨h.other ?_ few filed, fun some_ => absurd rfl some_⟩
      intro fragmented
      have different : d.packetId ≠ k := fun same =>
        fragment (isFragmentOf_iff.mpr ⟨own, same, fragmented⟩)
      refine ⟨different, others d.packetId ?_⟩
      simp [otherPackets, brings, own, different, fragmented]
  · have none_ : fragmentsOf sessionId k [e] = [] := by
      apply fragmentsOf_singleton_ne
      intro d brings
      simp [Datagram.isFragmentOf, foreign d brings]
    rw [none_, List.append_nil, same]
    exact ⟨h, fun some_ => absurd rfl some_⟩

/-- The run up to the last fragment: the packet is gathered and nothing is
completed for it. -/
theorem Gathering.run (h : Gathering (s.cacheOf sessionId) ids k count location seen)
    (many : 1 < count.toNat) (stays : Transition.Along step (staysIn sessionId · ·) s events)
    (ran : events.foldlM step s = some t)
    (fits : Fits count location seen (fragmentsOf sessionId k events))
    (more : (seen ++ fragmentsOf sessionId k events).length < count.toNat)
    (others : ∀ j ∈ otherPackets sessionId k events, j ∈ ids)
    (few : ids.dedup.length < MAX_FRAGMENT_CACHE_SIZE) :
    Gathering (t.cacheOf sessionId) ids k count location
        (seen ++ fragmentsOf sessionId k events) ∧
      Transition.Along step (fun s e => fragmentsOf sessionId k [e] ≠ [] → completed s e = none) s
        events := by
  induction events generalizing s seen with
  | nil =>
      obtain rfl : s = t := by simpa using ran
      exact ⟨by simpa [fragmentsOf] using h, trivial⟩
  | cons e events ih =>
      rw [List.foldlM_cons] at ran
      obtain ⟨middle, taken, rest⟩ := Option.bind_eq_some_iff.mp ran
      obtain ⟨staysNow, staysOn⟩ := stays middle taken
      have split : fragmentsOf sessionId k (e :: events) =
          fragmentsOf sessionId k [e] ++ fragmentsOf sessionId k events :=
        fragmentsOf_append [e] events
      rw [split] at fits more ⊢
      obtain ⟨fitsNow, fitsOn⟩ := fits.other
      rw [← List.append_assoc, List.length_append] at more
      rw [show otherPackets sessionId k (e :: events) = _ from otherPackets_append [e] events]
        at others
      obtain ⟨gathering, now⟩ := h.event many staysNow taken fitsNow (by omega)
        (fun j mem => others j (List.mem_append_left _ mem)) few
      obtain ⟨gathered, on⟩ := ih gathering staysOn rest fitsOn (by
        rw [List.length_append]
        omega) (fun j mem => others j (List.mem_append_right _ mem))
      rw [← List.append_assoc]
      refine ⟨gathered, ?_⟩
      intro t' taken'
      obtain rfl := Option.some.inj (taken.symm.trans taken')
      exact ⟨now, on⟩

/-- The fragments of a payload with their ids. -/
def numbered (parts : List Bytes) : List (Nat × Bytes) := (List.range parts.length).zip parts

@[simp] theorem map_fst_numbered (parts : List Bytes) :
    (numbered parts).map Prod.fst = List.range parts.length :=
  List.map_fst_zip (by simp)

theorem mem_numbered {parts : List Bytes} {i : Nat} (inside : i < parts.length) :
    (i, parts[i]) ∈ numbered parts := by
  have get : (numbered parts)[i]? = some (i, parts[i]) := by
    simp [numbered, inside]
  exact List.mem_of_getElem? get

/-- Fragments of a payload have different ids below their number. -/
theorem ids_of_arrive {parts : List Bytes}
    (arrive : (seen.map fun d => (d.fragmentId.toNat, d.payload)).Perm (numbered parts)) :
    (seen.map (·.fragmentId.toNat)).Perm (List.range parts.length) := by
  have ids := arrive.map Prod.fst
  rw [List.map_map, map_fst_numbered] at ids
  exact ids

/-- All fragments of a payload, each once, stand in the order of their ids. -/
theorem received_all {parts : List Bytes} (location : NetLocation)
    (size : count.toNat = parts.length)
    (arrive : (seen.map fun d => (d.fragmentId.toNat, d.payload)).Perm (numbered parts)) :
    (gathered count location seen).received = parts.map some := by
  have once : (seen.map (·.fragmentId.toNat)).Nodup :=
    (ids_of_arrive arrive).nodup_iff.mpr List.nodup_range
  apply List.ext_getElem?
  intro i
  by_cases inside : i < parts.length
  · obtain ⟨d, mem, pair⟩ : ∃ d ∈ seen, (d.fragmentId.toNat, d.payload) = (i, parts[i]) :=
      List.mem_map.mp (arrive.mem_iff.mpr (mem_numbered inside))
    obtain ⟨id, payload⟩ := Prod.mk.inj pair
    have filled : (gathered count location seen).received[d.fragmentId.toNat]? =
        some (some d.payload) := received_filled location once mem (by omega)
    rw [id, payload] at filled
    rw [filled, List.getElem?_map, List.getElem?_eq_getElem inside]
    rfl
  · rw [List.getElem?_eq_none (by rw [length_received]; omega),
      List.getElem?_eq_none (by rw [List.length_map]; omega)]

/-- The last fragment of a packet, in a session that has the others. -/
theorem Gathering.last (h : Gathering (s.cacheOf sessionId) ids k count location seen)
    (some_ : seen ≠ []) (many : 1 < count.toNat) (brings : e.headed = some d)
    (fragment : d.isFragmentOf sessionId k = true) (spared : sparedIn sessionId s e = true)
    (fits : Fits count location seen [d]) (all : seen.length + 1 = count.toNat) {payload : Bytes}
    (joined : joinSlots (gathered count location (seen ++ [d])).received = .ok payload)
    (taken : step s e = some t) :
    completed s e = some (payload, location) ∧ (t.cacheOf sessionId).get? k = none := by
  obtain ⟨rfl, packet, -⟩ := isFragmentOf_iff.mp fragment
  obtain ⟨count_, location_⟩ := fits.alike d (List.mem_singleton_self d)
  obtain ⟨c', filed, gone⟩ := reassemble_completes h packet count_ location_ many
    (fits.inside d (List.mem_singleton_self d)) fits.fresh (by omega) all joined
  cases e with
  | taskEnds | dropped | cancelParent => cases brings
  | iterate resolve it =>
      have read : it.read = .headed d := by
        cases read : it.read with
        | failed | ignored => simp [UdpEvent.headed, read] at brings
        | headed other => simpa [UdpEvent.headed, read] using brings
      -- the session is there, with the fragments seen
      have cleaned := cacheOf_cleanUp spared
      have present : (cleanUp s it).has d.sessionId = true := by
        by_contra absent
        have absent : (cleanUp s it).has d.sessionId = false := by simpa using absent
        rcases h with ⟨none_, -⟩ | ⟨-, recent⟩
        · exact some_ none_
        · have found := recent.get?
          rw [← cleaned, cacheOf_absent absent] at found
          cases found
      obtain ⟨session, found⟩ := has_iff.mp present
      have entered : Entered resolve (cleanUp s it) it d session (cleanUp s it) := .present found
      rw [← cleaned, ← entered.cacheOf] at filed
      refine ⟨completed_eq read entered filed, ?_⟩
      simp only [Hysteria2.step, Option.ite_none_right_eq_some, Option.some.injEq] at taken
      obtain ⟨-, rfl⟩ := taken
      have done := handled resolve (cleanUp s it) it d
      rw [← iterate_headed read] at done
      cases stays : (Hysteria2.iterate resolve s it).1.has d.sessionId with
      | false =>
          rw [cacheOf_absent stays]
          rfl
      | true =>
          obtain ⟨complete, filed'⟩ := done.cacheOf_self stays
          rw [← entered.cacheOf, filed] at filed'
          rw [← (Prod.mk.inj (Except.ok.inj filed')).1]
          exact gone

/-- Whatever the order in which the fragments of a payload arrive, and whatever
arrives between them, the packet is completed by the last one and by no other,
with the payload that was cut up and the location of its fragments, and its
entry is gone. The caches are those of any run without a panic
(`cachesOk_of_run`); that the session stays is asked of the clean-up pass and of
what the loop calls, and no datagram in range ends it. -/
theorem reassembles_in_any_order (sessionId : UInt32) (k : UInt16) (location : NetLocation)
    (parts : List Bytes) (two : 2 ≤ parts.length) (most : parts.length ≤ 255)
    (s : UdpLoop) (ok : CachesOk s) (running : s.status = .running)
    (fresh : (s.cacheOf sessionId).get? k = none) (before : List UdpEvent) (last : UdpEvent)
    (arrive : ((fragmentsOf sessionId k (before ++ [last])).map fun d =>
      (d.fragmentId.toNat, d.payload)).Perm (numbered parts))
    (alike : ∀ d ∈ fragmentsOf sessionId k (before ++ [last]),
      d.fragmentCount.toNat = parts.length ∧ d.remoteLocation = location)
    (final : fragmentsOf sessionId k [last] ≠ [])
    (few : (otherPackets sessionId k before).dedup.length < MAX_FRAGMENT_CACHE_SIZE)
    (ofLoop : ∀ e ∈ before, e.ofLoop = true) (inRange : ∀ e ∈ before, e.inRange = true)
    (spared : Transition.Along step (sparedIn sessionId · ·) s (before ++ [last]))
    (outside : Transition.Along step (undisturbed sessionId · ·) s before) :
    ∃ t u, before.foldlM step s = some t ∧ step t last = some u ∧
      Transition.Along step (fun s e => fragmentsOf sessionId k [e] ≠ [] → completed s e = none) s
        before ∧
      completed t last = some (parts.flatten, location) ∧ (u.cacheOf sessionId).get? k = none := by
  obtain ⟨count, size⟩ : ∃ count : UInt8, count.toNat = parts.length :=
    ⟨UInt8.ofNat parts.length, by simp; omega⟩
  obtain ⟨d, brings, fragment⟩ : ∃ d, last.headed = some d ∧ d.isFragmentOf sessionId k = true := by
    by_contra none_
    refine final (fragmentsOf_singleton_ne fun d brings => ?_)
    by_contra fragment
    exact none_ ⟨d, brings, by simpa using fragment⟩
  -- nothing stops the run
  obtain ⟨t, ran, running', stays⟩ :=
    stays_along ok running ofLoop inRange spared.beginning outside
  obtain ⟨u, taken⟩ : ∃ u, step t last = some u := by
    cases last with
    | iterate resolve it => exact ⟨_, if_pos running'⟩
    | taskEnds | dropped | cancelParent => cases brings
  have split : fragmentsOf sessionId k (before ++ [last]) =
      fragmentsOf sessionId k before ++ [d] := by
    rw [fragmentsOf_append, fragmentsOf_singleton brings fragment]
  have ids := ids_of_arrive arrive
  have length : (fragmentsOf sessionId k before).length + 1 = count.toNat := by
    have := ids.length_eq
    rw [split, List.length_map, List.length_append, List.length_range,
      List.length_singleton] at this
    omega
  have fits : Fits count location [] (fragmentsOf sessionId k before ++ [d]) := by
    refine ⟨fun d mem => ?_, fun d mem => ?_, ?_⟩
    · obtain ⟨count_, location_⟩ := alike d (by rw [split]; exact mem)
      exact ⟨UInt8.toNat_inj.mp (count_.trans size.symm), location_⟩
    · rw [← split] at mem
      have := ids.mem_iff.mp (List.mem_map_of_mem mem)
      rw [List.mem_range] at this
      omega
    · rw [List.nil_append, ← split]
      exact ids.nodup_iff.mpr List.nodup_range
  obtain ⟨fitsBefore, fitsLast⟩ := fits.other
  have begun : Gathering (s.cacheOf sessionId) (otherPackets sessionId k before) k count location
      [] :=
    .inl ⟨rfl, fresh⟩
  obtain ⟨gathering, along⟩ := begun.run (by omega) stays ran fitsBefore
    (by rw [List.nil_append]; omega) (fun j mem => mem) few
  rw [List.nil_append] at gathering fitsLast
  have joined :
      joinSlots (gathered count location (fragmentsOf sessionId k before ++ [d])).received =
      .ok parts.flatten := by
    rw [received_all location size (by rw [← split]; exact arrive), joinSlots_map_some]
  have earlier : fragmentsOf sessionId k before ≠ [] := by
    intro none_
    rw [none_, List.length_nil] at length
    omega
  exact ⟨t, u, ran, taken, along, gathering.last earlier (by omega) brings fragment
    (spared.step_after ran taken) fitsLast length joined taken⟩

/-- One of the three fragments of a packet of session 1. -/
def thirdOf (packetId : UInt16) (fragmentId byte : UInt8) : UdpEvent :=
  .iterate NetLocation.toSocketAddrNonblocking
    { now := 0
      cleanupNow := 0
      read := .headed
        { sessionId := 1
          packetId := packetId
          fragmentId := fragmentId
          fragmentCount := 3
          remoteLocation := ⟨.ipv4 ⟨1, 2, 3, 4⟩, 53⟩
          payload := [byte]
          carried := carried_byte byte }
      newUdpSocket := true
      startedAt := 0
      sendTo := true }

/-- The three fragments of packet 7 arrive backwards, with two of packet 8
between them. -/
theorem backwards_reassembles :
    ∃ t, [thirdOf 7 2 30, thirdOf 8 0 40, thirdOf 7 1 20, thirdOf 8 2 60].foldlM step
        (UdpLoop.initial 0) = some t ∧
      completed t (thirdOf 7 0 10) = some ([10, 20, 30], ⟨.ipv4 ⟨1, 2, 3, 4⟩, 53⟩) := by
  obtain ⟨t, -, ran, -, -, complete, -⟩ := reassembles_in_any_order 1 7 ⟨.ipv4 ⟨1, 2, 3, 4⟩, 53⟩
    [[10], [20], [30]] (by decide) (by decide) (UdpLoop.initial 0) (cachesOk_initial 0) rfl
    (by decide) [thirdOf 7 2 30, thirdOf 8 0 40, thirdOf 7 1 20, thirdOf 8 2 60] (thirdOf 7 0 10)
    (by decide) (by decide) (by decide) (by decide) (by decide) (by decide) (by decide +kernel)
    (by decide +kernel)
  exact ⟨t, ran, complete⟩

end RustProxy.Hysteria2
