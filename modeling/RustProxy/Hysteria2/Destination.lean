import RustProxy.Hysteria2.Cases

/-!
# Where a payload is sent

A client may name a different location in every datagram of a session. What
each payload's own location is, and which location opened the session it went
through, is read off the history of datagrams (`History`), not off the fields
the loop keeps: a fragmented packet belongs to the location of the datagram
that found no entry for it in the fragment cache.

A session opened by a location that prints differently from the address it
resolves to (every hostname, and every IPv6 literal, since `SocketAddr` writes
brackets and `NetLocation` does not) carries an override, and the override
sends every payload of the session to the address of the location that opened
it. The other branch resolves a changed location again, so without an override
each payload goes where its own location resolves to.
-/

namespace RustProxy.Hysteria2

/-- The location prints as the address it resolves to: the test made when a
session opens, which then installs no override. -/
def PrintsAsAddress (resolve : Resolve) (location : NetLocation) : Prop :=
  ∃ addr, resolve location = some addr ∧ addr.toText = location.toText

/-- For each session id the location that opened its session, and for each
packet the location of its first fragment to arrive. -/
structure History where
  opener : UInt32 → Option NetLocation
  firstArrived : UInt32 → UInt16 → Option NetLocation

namespace History

def empty : History := ⟨fun _ => none, fun _ _ => none⟩

/-- Whether the session of a datagram holds an entry for its packet. -/
def cached (s : UdpLoop) (d : Datagram) : Bool :=
  ((s.sessions.lookup d.sessionId).map fun session =>
    session.fragments.contains d.packetId).getD false

/-- The history after a datagram, given the loop that is about to handle it. -/
def after (h : History) (s : UdpLoop) (d : Datagram) : History where
  opener :=
    if (s.sessions.lookup d.sessionId).isSome then h.opener
    else Function.update h.opener d.sessionId (some d.remoteLocation)
  firstArrived :=
    if cached s d then h.firstArrived
    else Function.update h.firstArrived d.sessionId
      (Function.update (h.firstArrived d.sessionId) d.packetId (some d.remoteLocation))

/-- The history after an iteration, whose clean-up pass comes first. -/
def next (h : History) (s : UdpLoop) (it : Iteration) : History :=
  match it.read with
  | .headed d => h.after (cleanUp s it) d
  | _ => h

/-- The location of the packet that a datagram belongs to. -/
def packetLocation (h : History) (d : Datagram) : NetLocation :=
  if d.fragmentCount = 1 then d.remoteLocation
  else (h.firstArrived d.sessionId d.packetId).getD d.remoteLocation

def sessionOpener (h : History) (d : Datagram) : NetLocation :=
  (h.opener d.sessionId).getD d.remoteLocation

end History

/-- A payload handed to `send_to`: the location of its packet, the location
that opened its session, and the address it was sent to. -/
structure Delivery where
  location : NetLocation
  opener : NetLocation
  payload : Bytes
  addr : SocketAddr

/-- The delivery of one iteration; `h` is the history after its datagram. -/
def delivery (h : History) (it : Iteration) (sent : Option SendTo) : List Delivery :=
  match it.read, sent with
  | .headed d, some sent => [⟨h.packetLocation d, h.sessionOpener d, sent.payload, sent.addr⟩]
  | _, _ => []

/-- The deliveries of a run of the loop under one resolver. -/
def deliveries (resolve : Resolve) (s : UdpLoop) (h : History) : List Iteration → List Delivery
  | [] => []
  | it :: its =>
      if s.status = .running then
        delivery (h.next s it) it (iterate resolve s it).2 ++
          deliveries resolve (iterate resolve s it).1 (h.next s it) its
      else []

/-! ## What a session remembers -/

/-- The fields of a session opened by `opener`, under a resolver that does not
change its answers. -/
structure Remembers (resolve : Resolve) (opener : NetLocation) (session : UdpSession) : Prop where
  last : resolve session.lastLocation = some session.lastSocketAddr
  override : match session.overrideRemoteWriteAddress with
    | some addr => resolve opener = some addr ∧ addr.toText ≠ opener.toText
    | none => PrintsAsAddress resolve opener

/-- Filing a fragment changes nothing that the choice of a destination reads. -/
theorem Remembers.withFragments {resolve : Resolve} {opener : NetLocation} {session : UdpSession}
    (h : Remembers resolve opener session) (fragments : FragmentCache) :
    Remembers resolve opener { session with fragments } :=
  ⟨h.last, h.override⟩

/-- A payload is sent to its own location's address exactly when the session
has no override or the two locations resolve alike. -/
theorem Remembers.destination_iff {resolve : Resolve} {opener location : NetLocation}
    {session updated : UdpSession} {addr : SocketAddr} (h : Remembers resolve opener session)
    (chosen : destination resolve session location = some (addr, updated)) :
    resolve location = some addr ↔
      PrintsAsAddress resolve opener ∨ resolve location = resolve opener := by
  have override := h.override
  rcases destination_eq_some chosen with ⟨installed, _⟩ | ⟨none, rfl, rfl, _⟩ | ⟨none, own, _⟩
  · simp only [installed] at override
    constructor
    · exact fun own => .inr (own.trans override.1.symm)
    · rintro (⟨other, answer, prints⟩ | same)
      · obtain rfl := Option.some.inj (override.1.symm.trans answer)
        exact absurd prints override.2
      · exact same.trans override.1
  · simp only [none] at override
    exact ⟨fun _ => .inl override, fun _ => h.last⟩
  · simp only [none] at override
    exact ⟨fun _ => .inl override, fun _ => own⟩

theorem Remembers.destination {resolve : Resolve} {opener location : NetLocation}
    {session updated : UdpSession} {addr : SocketAddr} (h : Remembers resolve opener session)
    (chosen : destination resolve session location = some (addr, updated)) :
    Remembers resolve opener updated := by
  rcases destination_eq_some chosen with ⟨_, rfl⟩ | ⟨_, _, _, rfl⟩ | ⟨_, own, rfl⟩
  · exact h
  · exact h
  · exact ⟨own, h.override⟩

theorem remembers_opening {resolve : Resolve} {s : UdpLoop} {it : Iteration} {d : Datagram}
    {addr : SocketAddr} (answer : resolve d.remoteLocation = some addr) :
    Remembers resolve d.remoteLocation (opening s it d addr).1 where
  last := answer
  override := by
    by_cases prints : addr.toText = d.remoteLocation.toText
    · simp only [opening, UdpSession.start, prints, ne_eq, not_true_eq_false, if_false]
      exact ⟨addr, answer, prints⟩
    · simp only [opening, UdpSession.start, ne_eq, prints, not_false_eq_true, if_true]
      exact ⟨answer, trivial⟩

/-- Filing a datagram keeps every cached packet's location: the datagram's own
packet keeps the one its entry was made with. -/
theorem reassemble_locations {fragments cache : FragmentCache} {d : Datagram}
    {complete : Option (Bytes × NetLocation)}
    (filed : reassemble fragments d = .ok (cache, complete)) {packetId : UInt16}
    {p : FragmentedPacket} (found : cache.get? packetId = some p) :
    (packetId = d.packetId ∧ p.remoteLocation = (entryFor fragments d).remoteLocation) ∨
      (packetId ≠ d.packetId ∧ fragments.get? packetId = some p) := by
  rcases reassemble_get? filed found with ⟨before, -⟩ | ⟨-, rfl, -, -, filling, -⟩
  · by_cases same : packetId = d.packetId
    · subst same
      exact .inl ⟨rfl, by simp [entryFor, before]⟩
    · exact .inr ⟨same, before⟩
  · obtain ⟨-, -, rfl⟩ := fill_eq_ok filling
    exact .inl ⟨rfl, rfl⟩

/-- The location a complete payload is handed on with. -/
theorem reassemble_location {fragments cache : FragmentCache} {d : Datagram} {payload : Bytes}
    {location : NetLocation}
    (filed : reassemble fragments d = .ok (cache, some (payload, location))) :
    location = if d.fragmentCount = 1 then d.remoteLocation
      else (entryFor fragments d).remoteLocation := by
  have cases := reassembled fragments d
  rw [filed] at cases
  cases cases with
  | whole one => rw [if_pos one]
  | completed many _ _ filling =>
      obtain ⟨_, _, rfl⟩ := fill_eq_ok filling
      have notOne : d.fragmentCount ≠ 1 := by
        intro one
        simp [one] at many
      rw [if_neg notOne]

/-! ## Whole runs -/

/-- The history says of one session what the session's fields say. -/
structure SessionRecorded (resolve : Resolve) (h : History) (k : UInt32) (session : UdpSession) :
    Prop where
  opener : ∃ location, h.opener k = some location ∧ Remembers resolve location session
  fragments : ∀ packetId p, session.fragments.get? packetId = some p →
    h.firstArrived k packetId = some p.remoteLocation

/-- The history says so of every session of the table. -/
def Recorded (resolve : Resolve) (s : UdpLoop) (h : History) : Prop :=
  ∀ k session, s.sessions.lookup k = some session → SessionRecorded resolve h k session

variable {resolve : Resolve} {s t : UdpLoop} {h : History} {it : Iteration} {d : Datagram}

theorem Recorded.cleanUp (recorded : Recorded resolve s h) :
    Recorded resolve (cleanUp s it) h :=
  fun k session found => recorded k session (lookup_cleanUp found)

/-- A datagram changes the history of its own session only. -/
theorem SessionRecorded.after_ne {k : UInt32} {session : UdpSession}
    (recorded : SessionRecorded resolve h k session) (other : k ≠ d.sessionId) :
    SessionRecorded resolve (h.after s d) k session where
  opener := by
    obtain ⟨location, opened, remembers⟩ := recorded.opener
    refine ⟨location, ?_, remembers⟩
    unfold History.after
    dsimp only
    split
    · exact opened
    · rwa [Function.update_of_ne other]
  fragments := by
    intro packetId p found
    unfold History.after
    dsimp only
    split
    · exact recorded.fragments packetId p found
    · rw [Function.update_of_ne other]
      exact recorded.fragments packetId p found

/-- Entering a session, the history after the datagram describes it and knows
the location of the entry the datagram is filed under. -/
theorem Entered.recorded {session : UdpSession} (entered : Entered resolve s it d session t)
    (recorded : Recorded resolve s h) :
    SessionRecorded resolve (h.after s d) d.sessionId session ∧
      (h.after s d).firstArrived d.sessionId d.packetId =
        some (entryFor session.fragments d).remoteLocation := by
  cases entered with
  | present found =>
      obtain ⟨⟨location, opened, remembers⟩, fragments⟩ := recorded _ _ found
      have opener : (h.after s d).opener = h.opener := by simp [History.after, found]
      cases entry : session.fragments.get? d.packetId with
      | some p =>
          have first : (h.after s d).firstArrived = h.firstArrived := by
            simp [History.after, History.cached, found, Lru.contains, entry]
          refine ⟨⟨⟨location, by rw [opener, opened], remembers⟩, ?_⟩, ?_⟩
          · rw [first]
            exact fragments
          · rw [first, fragments _ _ entry]
            simp [entryFor, entry]
      | none =>
          have first : (h.after s d).firstArrived d.sessionId =
              Function.update (h.firstArrived d.sessionId) d.packetId (some d.remoteLocation) := by
            simp [History.after, History.cached, found, Lru.contains, entry]
          refine ⟨⟨⟨location, by rw [opener, opened], remembers⟩, ?_⟩, ?_⟩
          · intro packetId p cached
            have other : packetId ≠ d.packetId := by
              rintro rfl
              rw [entry] at cached
              cases cached
            rw [first, Function.update_of_ne other]
            exact fragments packetId p cached
          · rw [first, Function.update_self]
            simp [entryFor, entry, FragmentedPacket.new]
  | opened absent answer =>
      refine ⟨⟨⟨d.remoteLocation, ?_, remembers_opening answer⟩, ?_⟩, ?_⟩
      · simp [History.after, absent]
      · intro packetId p cached
        cases cached
      · simp [History.after, History.cached, absent, entryFor, opening, UdpSession.start,
          FragmentedPacket.new]

theorem Handled.recorded {sent : Option SendTo} (handled : Handled resolve s it d t sent)
    (recorded : Recorded resolve s h) : Recorded resolve t (h.after s d) := by
  intro k session found
  by_cases other : k = d.sessionId
  swap
  · exact (recorded k session (handled.lookup_ne other found)).after_ne other
  subst other
  obtain ⟨before, _, cache, complete, entered, filed, origin⟩ := handled.lookup_self found
  obtain ⟨⟨⟨location, opened, remembers⟩, fragments⟩, own⟩ := entered.recorded recorded
  have kept :
      SessionRecorded resolve (h.after s d) d.sessionId { before with fragments := cache } := by
    refine ⟨⟨location, opened, remembers.withFragments cache⟩, ?_⟩
    intro packetId p cached
    rcases reassemble_locations filed cached with ⟨rfl, same⟩ | ⟨_, cached⟩
    · rw [own, same]
    · exact fragments packetId p cached
  rcases origin with rfl | ⟨_, _, chosen⟩
  · exact kept
  · obtain ⟨location, opened, remembers⟩ := kept.opener
    refine ⟨⟨location, opened, remembers.destination chosen⟩, ?_⟩
    rw [(destination_fragments chosen).1]
    exact kept.fragments

/-- The condition under which a delivery goes to its own location's address. -/
def Delivery.Consistent (resolve : Resolve) (δ : Delivery) : Prop :=
  PrintsAsAddress resolve δ.opener ∨ resolve δ.location = resolve δ.opener

theorem Handled.delivery_iff {sent : SendTo} (handled : Handled resolve s it d t (some sent))
    (recorded : Recorded resolve s h) :
    resolve ((h.after s d).packetLocation d) = some sent.addr ↔
      PrintsAsAddress resolve ((h.after s d).sessionOpener d) ∨
        resolve ((h.after s d).packetLocation d) = resolve ((h.after s d).sessionOpener d) := by
  cases handled with
  | sent entered filed chosen | sendFailed entered filed chosen =>
      obtain ⟨⟨⟨opener, opened, remembers⟩, _⟩, own⟩ := entered.recorded recorded
      rw [History.packetLocation, own, Option.getD_some, ← reassemble_location filed,
        History.sessionOpener, opened, Option.getD_some]
      exact (remembers.withFragments _).destination_iff chosen

theorem recorded_iterate (recorded : Recorded resolve s h) :
    Recorded resolve (iterate resolve s it).1 (h.next s it) := by
  unfold iterate History.next
  cases read : it.read with
  | failed =>
      intro k session found
      simp [UdpLoop.leave] at found
  | ignored => exact recorded.cleanUp
  | headed d => exact (handled resolve (cleanUp s it) it d).recorded recorded.cleanUp

theorem delivery_iterate_iff (recorded : Recorded resolve s h) {δ : Delivery}
    (made : δ ∈ delivery (h.next s it) it (iterate resolve s it).2) :
    resolve δ.location = some δ.addr ↔ δ.Consistent resolve := by
  unfold iterate History.next delivery at made
  cases read : it.read with
  | failed => simp [read] at made
  | ignored => simp [read] at made
  | headed d =>
      simp only [read] at made
      cases out : (handleDatagram resolve (cleanUp s it) it d).2 with
      | none => simp [out] at made
      | some sent =>
          obtain rfl : δ = _ := by simpa [out] using made
          have cases := handled resolve (cleanUp s it) it d
          rw [out] at cases
          exact cases.delivery_iff recorded.cleanUp

theorem deliveries_iff (recorded : Recorded resolve s h) (its : List Iteration) {δ : Delivery}
    (made : δ ∈ deliveries resolve s h its) :
    resolve δ.location = some δ.addr ↔ δ.Consistent resolve := by
  induction its generalizing s h with
  | nil => simp [deliveries] at made
  | cons it its ih =>
      unfold deliveries at made
      split at made
      · rcases List.mem_append.mp made with now | later
        · exact delivery_iterate_iff recorded now
        · exact ih (recorded_iterate recorded) later
      · simp at made

/-- Along a run every payload goes to the address of its own location exactly
when each session that a payload goes through was opened by a location that
prints as its address, or by one that resolves like the payload's own. -/
theorem destinations_own_iff (resolve : Resolve) (now : Nat) (its : List Iteration) :
    (∀ δ ∈ deliveries resolve (UdpLoop.initial now) History.empty its,
        resolve δ.location = some δ.addr) ↔
      ∀ δ ∈ deliveries resolve (UdpLoop.initial now) History.empty its, δ.Consistent resolve := by
  have recorded : Recorded resolve (UdpLoop.initial now) History.empty := by
    intro k session found
    simp [UdpLoop.initial] at found
  exact forall₂_congr fun δ made => deliveries_iff recorded its made

/-- A resolver that knows one hostname, besides the literals. -/
def oneHost (location : NetLocation) : Option SocketAddr :=
  match location.address with
  | .hostname _ => some (.v4 ⟨1, 2, 3, 4⟩ location.port)
  | _ => location.toSocketAddrNonblocking

/-- An unfragmented datagram of session 1, sent without trouble. -/
def datagramTo (location : NetLocation) : Iteration where
  now := 0
  cleanupNow := 0
  read := .headed ⟨1, 0, 0, 1, location, [0], carried_zero⟩
  newUdpSocket := true
  startedAt := 0
  sendTo := true

/-- After a datagram to a hostname, one to 9.9.9.9 in the same session goes to
the hostname's address. -/
theorem override_misdirects :
    ¬∀ δ ∈ deliveries oneHost (UdpLoop.initial 0) History.empty
      [datagramTo ⟨.hostname ['a'], 53⟩, datagramTo ⟨.ipv4 ⟨9, 9, 9, 9⟩, 53⟩],
      oneHost δ.location = some δ.addr := by
  intro all
  have second := all ⟨⟨.ipv4 ⟨9, 9, 9, 9⟩, 53⟩, ⟨.hostname ['a'], 53⟩, [0],
    .v4 ⟨1, 2, 3, 4⟩ 53⟩ (List.mem_cons_of_mem _ List.mem_cons_self)
  revert second
  decide

end RustProxy.Hysteria2
