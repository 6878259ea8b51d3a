import RustProxy.Hysteria2.Udp

/-!
# What an iteration of the UDP loop can do

One inversion for each function of the loop, guards included. Every later
result about the loop goes through these cases and does not unfold the loop.
-/

namespace RustProxy.Hysteria2

/-! ## Reassembly -/

/-- The cache entry a fragment is filed under: the cached one, or a new one. -/
def entryFor (fragments : FragmentCache) (d : Datagram) : FragmentedPacket :=
  (fragments.get? d.packetId).getD (.new d)

/-- The cache when that entry has been looked up for modification. -/
def touched (fragments : FragmentCache) (d : Datagram) : FragmentCache :=
  (if fragments.contains d.packetId then fragments
    else fragments.put d.packetId (.new d)).put d.packetId (entryFor fragments d)

/-- The outcomes of `reassemble`. -/
inductive Reassembled (fragments : FragmentCache) (d : Datagram) :
    Except Fault (FragmentCache × Option (Bytes × NetLocation)) → Prop
  | empty : d.fragmentCount = 0 → Reassembled fragments d (.ok (fragments, none))
  | whole : d.fragmentCount = 1 →
      Reassembled fragments d (.ok (fragments, some (d.payload, d.remoteLocation)))
  | mismatched : 1 < d.fragmentCount.toNat →
      (entryFor fragments d).fragmentCount ≠ d.fragmentCount →
      Reassembled fragments d (.ok ((touched fragments d).pop d.packetId, none))
  | outOfRange : 1 < d.fragmentCount.toNat →
      (entryFor fragments d).fragmentCount = d.fragmentCount →
      (entryFor fragments d).received[d.fragmentId.toNat]? = none →
      Reassembled fragments d (.error .index)
  | duplicate {old : Bytes} : 1 < d.fragmentCount.toNat →
      (entryFor fragments d).fragmentCount = d.fragmentCount →
      (entryFor fragments d).received[d.fragmentId.toNat]? = some (some old) →
      Reassembled fragments d (.ok ((touched fragments d).pop d.packetId, none))
  | overflow {fault : Fault} : 1 < d.fragmentCount.toNat →
      (entryFor fragments d).received[d.fragmentId.toNat]? = some none →
      (entryFor fragments d).fill d.fragmentId d.payload = .error fault →
      Reassembled fragments d (.error fault)
  | stored {filled : FragmentedPacket} : 1 < d.fragmentCount.toNat →
      (entryFor fragments d).fragmentCount = d.fragmentCount →
      (entryFor fragments d).received[d.fragmentId.toNat]? = some none →
      (entryFor fragments d).fill d.fragmentId d.payload = .ok filled →
      filled.fragmentReceived ≠ filled.fragmentCount →
      Reassembled fragments d (.ok ((touched fragments d).put d.packetId filled, none))
  | missing {filled : FragmentedPacket} {fault : Fault} : 1 < d.fragmentCount.toNat →
      (entryFor fragments d).fragmentCount = d.fragmentCount →
      (entryFor fragments d).received[d.fragmentId.toNat]? = some none →
      (entryFor fragments d).fill d.fragmentId d.payload = .ok filled →
      filled.fragmentReceived = filled.fragmentCount →
      joinSlots filled.received = .error fault →
      Reassembled fragments d (.error fault)
  | completed {filled : FragmentedPacket} {payload : Bytes} : 1 < d.fragmentCount.toNat →
      (entryFor fragments d).fragmentCount = d.fragmentCount →
      (entryFor fragments d).received[d.fragmentId.toNat]? = some none →
      (entryFor fragments d).fill d.fragmentId d.payload = .ok filled →
      filled.fragmentReceived = filled.fragmentCount →
      joinSlots filled.received = .ok payload →
      Reassembled fragments d
        (.ok (((touched fragments d).put d.packetId filled).pop d.packetId,
          some (payload, filled.remoteLocation)))

private theorem cache_room : 0 < MAX_FRAGMENT_CACHE_SIZE := by decide

/-- The lookup after the entry was made never fails, so the branch that reports
a cache error is dead. -/
theorem getMut_entry (fragments : FragmentCache) (d : Datagram) :
    (if !fragments.contains d.packetId then fragments.put d.packetId (.new d)
      else fragments).getMut d.packetId =
        some (entryFor fragments d, touched fragments d) := by
  rw [Lru.getMut_eq_some]
  cases cached : fragments.get? d.packetId with
  | none => simp [Lru.contains, cached, entryFor, touched, Lru.get?_put_self _ _ _ cache_room]
  | some p => simp [Lru.contains, cached, entryFor, touched]

theorem reassembled (fragments : FragmentCache) (d : Datagram) :
    Reassembled fragments d (reassemble fragments d) := by
  unfold reassemble
  by_cases zero : d.fragmentCount = 0
  · rw [if_pos zero]
    exact .empty zero
  by_cases one : d.fragmentCount = 1
  · rw [if_neg zero, if_pos one]
    exact .whole one
  have many : 1 < d.fragmentCount.toNat := by
    have notZero : d.fragmentCount.toNat ≠ 0 := fun h => zero (UInt8.toNat_inj.mp h)
    have notOne : d.fragmentCount.toNat ≠ 1 := fun h => one (UInt8.toNat_inj.mp h)
    omega
  rw [if_neg zero, if_neg one]
  simp only [getMut_entry]
  by_cases count : (entryFor fragments d).fragmentCount = d.fragmentCount
  swap
  · rw [if_pos count]
    exact .mismatched many count
  rw [if_neg (not_not.mpr count)]
  cases slot : (entryFor fragments d).received[d.fragmentId.toNat]? with
  | none => exact .outOfRange many count slot
  | some content =>
      cases content with
      | some old => exact .duplicate many count slot
      | none =>
          cases filling : (entryFor fragments d).fill d.fragmentId d.payload with
          | error fault => exact .overflow many slot filling
          | ok filled =>
              simp only [bind, Except.bind]
              by_cases all : filled.fragmentReceived = filled.fragmentCount
              swap
              · rw [if_pos all]
                exact .stored many count slot filling all
              rw [if_neg (not_not.mpr all), Lru.get?_put_self _ _ _ cache_room]
              dsimp only
              cases joined : joinSlots filled.received with
              | error fault => exact .missing many count slot filling all joined
              | ok payload => exact .completed many count slot filling all joined

/-- Looking an entry up for modification changes no other entry's value. -/
theorem get?_touched {fragments : FragmentCache} {d : Datagram} {k : UInt16}
    {p : FragmentedPacket} (found : (touched fragments d).get? k = some p) :
    (k = d.packetId ∧ p = entryFor fragments d) ∨
      (k ≠ d.packetId ∧ fragments.get? k = some p) := by
  unfold touched at found
  rcases Lru.get?_of_get?_put found with same | ⟨other, found⟩
  · exact .inl same
  · refine .inr ⟨other, ?_⟩
    split at found
    · exact found
    · rcases Lru.get?_of_get?_put found with ⟨same, _⟩ | ⟨_, found⟩
      · exact absurd same other
      · exact found

/-- What a successful fill does to each field. -/
theorem fill_eq_ok {p filled : FragmentedPacket} {fragmentId : UInt8} {payload : Bytes}
    (h : p.fill fragmentId payload = .ok filled) :
    p.fragmentReceived ≠ 255 ∧ p.packetLen + payload.length < usizeBound ∧
      filled = { p with
        fragmentReceived := p.fragmentReceived + 1
        packetLen := p.packetLen + payload.length
        received := p.received.set fragmentId.toNat (some payload) } := by
  unfold FragmentedPacket.fill at h
  split at h
  · cases h
  · rename_i fits
    rw [not_or, not_le] at fits
    exact ⟨fits.1, fits.2, (Except.ok.inj h).symm⟩

/-- What an entry of the cache can be after a datagram has been filed. -/
theorem reassemble_get? {c cache : FragmentCache} {d : Datagram}
    {complete : Option (Bytes × NetLocation)} (filed : reassemble c d = .ok (cache, complete))
    {k : UInt16} {entry : FragmentedPacket} (found : cache.get? k = some entry) :
    c.get? k = some entry ∧ (1 < d.fragmentCount.toNat → k ≠ d.packetId) ∨
      1 < d.fragmentCount.toNat ∧ k = d.packetId ∧
        (entryFor c d).fragmentCount = d.fragmentCount ∧
        (entryFor c d).received[d.fragmentId.toNat]? = some none ∧
        (entryFor c d).fill d.fragmentId d.payload = .ok entry ∧
        entry.fragmentReceived ≠ entry.fragmentCount := by
  have elsewhere (other : k ≠ d.packetId) (found : (touched c d).get? k = some entry) :
      c.get? k = some entry ∧ (1 < d.fragmentCount.toNat → k ≠ d.packetId) := by
    rcases get?_touched found with ⟨same, -⟩ | ⟨-, found⟩
    · exact absurd same other
    · exact ⟨found, fun _ => other⟩
  have cases_ := reassembled c d
  rw [filed] at cases_
  cases cases_ with
  | empty few | whole few =>
      refine .inl ⟨found, ?_⟩
      intro many
      rw [few] at many
      exact absurd many (by decide)
  | mismatched | duplicate =>
      obtain ⟨other, found⟩ := Lru.get?_of_get?_pop found
      exact .inl (elsewhere other found)
  | stored many count slot filling notAll =>
      rcases Lru.get?_of_get?_put found with ⟨rfl, rfl⟩ | ⟨other, found⟩
      · exact .inr ⟨many, rfl, count, slot, filling, notAll⟩
      · exact .inl (elsewhere other found)
  | completed =>
      obtain ⟨other, found⟩ := Lru.get?_of_get?_pop found
      rcases Lru.get?_of_get?_put found with ⟨same, -⟩ | ⟨-, found⟩
      · exact absurd same other
      · exact .inl (elsewhere other found)

/-! ## A datagram with a good header -/

/-- The session and receive task that a datagram opens. -/
def opening (s : UdpLoop) (it : Iteration) (d : Datagram) (resolvedAddress : SocketAddr) :
    UdpSession × List RecvTask :=
  let overrides :=
    if resolvedAddress.toText ≠ d.remoteLocation.toText then
      (some resolvedAddress, some d.remoteLocation)
    else (none, none)
  UdpSession.start s d.sessionId d.remoteLocation resolvedAddress overrides.2 overrides.1
    it.startedAt

/-- The session a datagram is handled in, and the loop holding it. -/
inductive Entered (resolve : Resolve) (s : UdpLoop) (it : Iteration) (d : Datagram) :
    UdpSession → UdpLoop → Prop
  | present {session : UdpSession} : s.sessions.lookup d.sessionId = some session →
      Entered resolve s it d session s
  | opened {resolvedAddress : SocketAddr} : s.sessions.lookup d.sessionId = none →
      resolve d.remoteLocation = some resolvedAddress → it.newUdpSocket = true →
      Entered resolve s it d (opening s it d resolvedAddress).1
        { s with
          sessions := s.sessions.insert d.sessionId (opening s it d resolvedAddress).1
          tasks := (opening s it d resolvedAddress).2 }

variable {resolve : Resolve} {s : UdpLoop} {it : Iteration} {d : Datagram}

theorem enterSession_ok_iff {session : UdpSession} {t : UdpLoop} :
    enterSession resolve s it d = .ok (session, t) ↔ Entered resolve s it d session t := by
  constructor
  · intro h
    unfold enterSession at h
    cases found : s.sessions.lookup d.sessionId with
    | some present =>
        simp only [found, Except.ok.injEq, Prod.mk.injEq] at h
        obtain ⟨rfl, rfl⟩ := h
        exact .present found
    | none =>
        cases answer : resolve d.remoteLocation with
        | none => simp [found, answer] at h
        | some resolvedAddress =>
            simp only [found, answer] at h
            split at h
            · rename_i socket
              obtain ⟨rfl, rfl⟩ := Prod.mk.inj (Except.ok.inj h)
              exact .opened found answer socket
            · cases h
  · intro entered
    cases entered with
    | present found => simp [enterSession, found]
    | opened found answer socket => simp [enterSession, found, answer, socket, opening]

/-- A datagram that enters no session found none, and its location does not
resolve or there is no socket for a new one. -/
theorem enterSession_error {refusal : Refusal} (h : enterSession resolve s it d = .error refusal) :
    s.sessions.lookup d.sessionId = none ∧
      match refusal with
      | .unresolved => resolve d.remoteLocation = none
      | .noSocket => it.newUdpSocket = false := by
  unfold enterSession at h
  cases found : s.sessions.lookup d.sessionId with
  | some session => simp [found] at h
  | none =>
      refine ⟨rfl, ?_⟩
      cases answer : resolve d.remoteLocation with
      | none =>
          simp only [found, answer, Except.error.injEq] at h
          subst h
          rfl
      | some resolvedAddress =>
          simp only [found, answer] at h
          split at h
          · cases h
          · rename_i socket
            obtain rfl := Except.error.inj h
            simpa using socket

/-- An entered session stands in the loop's table under the datagram's id. -/
theorem Entered.lookup {session : UdpSession} {t : UdpLoop}
    (entered : Entered resolve s it d session t) :
    t.sessions.lookup d.sessionId = some session := by
  cases entered with
  | present found => exact found
  | opened => exact AList.lookup_insert _

theorem Entered.lookup_ne {session : UdpSession} {t : UdpLoop}
    (entered : Entered resolve s it d session t) {k : UInt32} (other : k ≠ d.sessionId) :
    t.sessions.lookup k = s.sessions.lookup k := by
  cases entered with
  | present => rfl
  | opened => exact AList.lookup_insert_ne other

theorem Entered.status {session : UdpSession} {t : UdpLoop}
    (entered : Entered resolve s it d session t) : t.status = s.status := by
  cases entered <;> rfl

/-- The outcomes of `handleDatagram`: the loop afterwards and the send it made. -/
inductive Handled (resolve : Resolve) (s : UdpLoop) (it : Iteration) (d : Datagram) :
    UdpLoop → Option SendTo → Prop
  | unresolved : s.sessions.lookup d.sessionId = none → resolve d.remoteLocation = none →
      Handled resolve s it d s none
  | noSocket : s.sessions.lookup d.sessionId = none → it.newUdpSocket = false →
      Handled resolve s it d (s.leave .returned) none
  | panicked {session : UdpSession} {t : UdpLoop} {fault : Fault} :
      Entered resolve s it d session t → reassemble session.fragments d = .error fault →
      Handled resolve s it d (t.leave (.panicked fault)) none
  | kept {session : UdpSession} {t : UdpLoop} {fragments : FragmentCache} :
      Entered resolve s it d session t → reassemble session.fragments d = .ok (fragments, none) →
      Handled resolve s it d (t.store d.sessionId { session with fragments }) none
  | undeliverable {session : UdpSession} {t : UdpLoop} {fragments : FragmentCache}
      {payload : Bytes} {location : NetLocation} : Entered resolve s it d session t →
      reassemble session.fragments d = .ok (fragments, some (payload, location)) →
      destination resolve { session with fragments } location = none →
      Handled resolve s it d (t.store d.sessionId { session with fragments }) none
  | sent {session updated : UdpSession} {t : UdpLoop} {fragments : FragmentCache}
      {payload : Bytes} {location : NetLocation} {addr : SocketAddr} :
      Entered resolve s it d session t →
      reassemble session.fragments d = .ok (fragments, some (payload, location)) →
      destination resolve { session with fragments } location = some (addr, updated) →
      it.sendTo = true →
      Handled resolve s it d (t.store d.sessionId updated) (some ⟨d.sessionId, payload, addr⟩)
  | sendFailed {session updated : UdpSession} {t : UdpLoop} {fragments : FragmentCache}
      {payload : Bytes} {location : NetLocation} {addr : SocketAddr} :
      Entered resolve s it d session t →
      reassemble session.fragments d = .ok (fragments, some (payload, location)) →
      destination resolve { session with fragments } location = some (addr, updated) →
      it.sendTo = false →
      Handled resolve s it d { t with sessions := t.sessions.erase d.sessionId }
        (some ⟨d.sessionId, payload, addr⟩)

theorem handled (resolve : Resolve) (s : UdpLoop) (it : Iteration) (d : Datagram) :
    Handled resolve s it d (handleDatagram resolve s it d).1 (handleDatagram resolve s it d).2 := by
  unfold handleDatagram
  cases entry : enterSession resolve s it d with
  | error refusal =>
      obtain ⟨absent, refused⟩ := enterSession_error entry
      cases refusal with
      | unresolved => exact .unresolved absent refused
      | noSocket => exact .noSocket absent refused
  | ok entered =>
      obtain ⟨session, t⟩ := entered
      have entered := enterSession_ok_iff.mp entry
      dsimp only
      cases result : reassemble session.fragments d with
      | error fault => exact .panicked entered result
      | ok outcome =>
          obtain ⟨fragments, complete⟩ := outcome
          cases complete with
          | none => exact .kept entered result
          | some packet =>
              obtain ⟨payload, location⟩ := packet
              dsimp only
              cases chosen : destination resolve { session with fragments } location with
              | none => exact .undeliverable entered result chosen
              | some target =>
                  obtain ⟨addr, updated⟩ := target
                  dsimp only
                  cases ok : it.sendTo with
                  | true => exact .sent entered result chosen ok
                  | false => exact .sendFailed entered result chosen ok

/-- Handling a datagram leaves every other session of the table as it was. -/
theorem Handled.lookup_ne {t : UdpLoop} {sent : Option SendTo} {k : UInt32} {u : UdpSession}
    (h : Handled resolve s it d t sent) (other : k ≠ d.sessionId)
    (found : t.sessions.lookup k = some u) : s.sessions.lookup k = some u := by
  cases h with
  | unresolved => exact found
  | noSocket => simp [UdpLoop.leave] at found
  | panicked => simp [UdpLoop.leave] at found
  | kept entered | undeliverable entered | sent entered =>
      rw [← entered.lookup_ne other]
      simpa [UdpLoop.store, AList.lookup_insert_ne other] using found
  | sendFailed entered =>
      rw [← entered.lookup_ne other]
      exact (Table.lookup_erase_eq_some.mp found).2

/-- The datagram's own session, when it is in the table afterwards, is the
entered one with its fragments filed, and with its location updated when the
payload went to another one. -/
theorem Handled.lookup_self {t : UdpLoop} {sent : Option SendTo} {u : UdpSession}
    (h : Handled resolve s it d t sent) (found : t.sessions.lookup d.sessionId = some u) :
    ∃ session t' fragments complete, Entered resolve s it d session t' ∧
      reassemble session.fragments d = .ok (fragments, complete) ∧
      (u = { session with fragments } ∨ ∃ location addr,
        destination resolve { session with fragments } location = some (addr, u)) := by
  cases h with
  | unresolved absent => simp [absent] at found
  | noSocket => simp [UdpLoop.leave] at found
  | panicked => simp [UdpLoop.leave] at found
  | kept entered result | undeliverable entered result =>
      refine ⟨_, _, _, _, entered, result, .inl ?_⟩
      simpa [UdpLoop.store, eq_comm] using found
  | sent entered result chosen =>
      obtain rfl : _ = u := by simpa [UdpLoop.store] using found
      exact ⟨_, _, _, _, entered, result, .inr ⟨_, _, chosen⟩⟩
  | sendFailed => simp at found

/-- Choosing a destination touches only the remembered location. -/
theorem destination_eq_some {session updated : UdpSession} {location : NetLocation}
    {addr : SocketAddr} (h : destination resolve session location = some (addr, updated)) :
    (session.overrideRemoteWriteAddress = some addr ∧ updated = session) ∨
      (session.overrideRemoteWriteAddress = none ∧ location = session.lastLocation ∧
        addr = session.lastSocketAddr ∧ updated = session) ∨
      (session.overrideRemoteWriteAddress = none ∧ resolve location = some addr ∧
        updated = { session with lastLocation := location, lastSocketAddr := addr }) := by
  unfold destination at h
  cases override : session.overrideRemoteWriteAddress with
  | some fixed =>
      simp only [override, Option.some.injEq, Prod.mk.injEq] at h
      exact .inl ⟨by rw [h.1], h.2.symm⟩
  | none =>
      simp only [override] at h
      split at h
      · rename_i same
        simp only [Option.some.injEq, Prod.mk.injEq] at h
        exact .inr (.inl ⟨rfl, same, h.1.symm, h.2.symm⟩)
      · simp only [Option.map_eq_some_iff, Prod.mk.injEq] at h
        obtain ⟨answer, resolved, rfl, rfl⟩ := h
        exact .inr (.inr ⟨rfl, resolved, rfl⟩)

theorem destination_fragments {session updated : UdpSession} {location : NetLocation}
    {addr : SocketAddr} (h : destination resolve session location = some (addr, updated)) :
    updated.fragments = session.fragments ∧ updated.cancelToken = session.cancelToken := by
  rcases destination_eq_some h with ⟨_, rfl⟩ | ⟨_, _, _, rfl⟩ | ⟨_, _, rfl⟩ <;> exact ⟨rfl, rfl⟩

/-- A session kept by the clean-up pass was there before and is unchanged. -/
theorem lookup_cleanUp {k : UInt32} {session : UdpSession}
    (found : (cleanUp s it).sessions.lookup k = some session) :
    s.sessions.lookup k = some session := by
  unfold cleanUp at found
  split at found
  · exact (Table.lookup_retain_eq_some.mp found).1
  · exact found

@[simp] theorem cleanUp_status : (cleanUp s it).status = s.status := by
  unfold cleanUp
  split <;> rfl

end RustProxy.Hysteria2
