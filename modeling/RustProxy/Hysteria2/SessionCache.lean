import RustProxy.Hysteria2.Cases

/-!
# The fragment cache of one session

While a session stays in the table, its cache sees the datagrams of that session
one after the other and nothing else: the clean-up pass, the datagrams of other
sessions, the choice of a destination and the send leave it alone. What a run of
the loop does to the packets of a session is therefore what `reassemble` does
along its datagrams.
-/

namespace RustProxy.Hysteria2

/-- The session is in the table. -/
def UdpLoop.has (s : UdpLoop) (sessionId : UInt32) : Bool := (s.sessions.lookup sessionId).isSome

/-- The cache of a session; a session that is yet to be opened has nothing in it. -/
def UdpLoop.cacheOf (s : UdpLoop) (sessionId : UInt32) : FragmentCache :=
  ((s.sessions.lookup sessionId).map UdpSession.fragments).getD Lru.empty

/-- The datagram that an event brings. -/
def UdpEvent.headed : UdpEvent → Option Datagram
  | .iterate _ it =>
      match it.read with
      | .headed d => some d
      | _ => none
  | _ => none

/-- The session outlives the clean-up pass of this event. -/
def sparedIn (sessionId : UInt32) (s : UdpLoop) : UdpEvent → Bool
  | .iterate _ it => !s.has sessionId || (cleanUp s it).has sessionId
  | _ => true

/-- The event brings a datagram of the session. -/
def UdpEvent.isFor (sessionId : UInt32) (e : UdpEvent) : Bool :=
  e.headed.any (·.sessionId = sessionId)

/-- The session stays in the table: neither the clean-up pass nor a failed send
nor the end of the loop takes it out, and its own datagrams find it or open it. -/
def staysIn (sessionId : UInt32) (s : UdpLoop) (e : UdpEvent) : Bool :=
  sparedIn sessionId s e &&
    (step s e).all fun t => !(s.has sessionId || e.isFor sessionId) || t.has sessionId

/-- The payload that the reassembly completes in this event. -/
def completed (s : UdpLoop) : UdpEvent → Option (Bytes × NetLocation)
  | .iterate resolve it =>
      match it.read with
      | .headed d =>
          match enterSession resolve (cleanUp s it) it d with
          | .error _ => none
          | .ok (session, _) =>
              match reassemble session.fragments d with
              | .error _ => none
              | .ok (_, complete) => complete
      | _ => none
  | _ => none

variable {s t : UdpLoop} {resolve : Resolve} {it : Iteration} {d : Datagram} {sessionId : UInt32}

theorem cacheOf_eq {session : UdpSession} (found : s.sessions.lookup sessionId = some session) :
    s.cacheOf sessionId = session.fragments := by
  simp [UdpLoop.cacheOf, found]

theorem cacheOf_absent (absent : s.has sessionId = false) : s.cacheOf sessionId = Lru.empty := by
  simp only [UdpLoop.has, Option.isSome_eq_false_iff, Option.isNone_iff_eq_none] at absent
  simp [UdpLoop.cacheOf, absent]

theorem has_iff : s.has sessionId = true ↔ ∃ session, s.sessions.lookup sessionId = some session :=
  Option.isSome_iff_exists

/-- A datagram is handled with the cache of its session. -/
theorem Entered.cacheOf {session : UdpSession} (entered : Entered resolve s it d session t) :
    session.fragments = s.cacheOf d.sessionId := by
  cases entered with
  | present found => exact (cacheOf_eq found).symm
  | opened absent => exact (cacheOf_absent (by simp [UdpLoop.has, absent])).symm

/-- A step that invents no session and keeps this one keeps its cache. -/
theorem cacheOf_of_lookup (kept : s.has sessionId = true → t.has sessionId = true)
    (same : ∀ session, t.sessions.lookup sessionId = some session →
      s.sessions.lookup sessionId = some session) : t.cacheOf sessionId = s.cacheOf sessionId := by
  cases present : t.has sessionId with
  | true =>
      obtain ⟨session, found⟩ := has_iff.mp present
      rw [cacheOf_eq found, cacheOf_eq (same session found)]
  | false =>
      have absent : s.has sessionId = false := by
        by_contra there
        rw [kept (by simpa using there)] at present
        cases present
      rw [cacheOf_absent present, cacheOf_absent absent]

theorem cacheOf_cleanUp (spared : sparedIn sessionId s (.iterate resolve it) = true) :
    (cleanUp s it).cacheOf sessionId = s.cacheOf sessionId := by
  refine cacheOf_of_lookup ?_ fun session found => lookup_cleanUp found
  intro there
  simpa [sparedIn, there] using spared

theorem has_of_has_cleanUp (there : (cleanUp s it).has sessionId = true) :
    s.has sessionId = true := by
  obtain ⟨session, found⟩ := has_iff.mp there
  exact has_iff.mpr ⟨session, lookup_cleanUp found⟩

theorem iterate_headed (read : it.read = .headed d) :
    Hysteria2.iterate resolve s it = handleDatagram resolve (cleanUp s it) it d := by
  simp [Hysteria2.iterate, read]

/-- The cache of the datagram's own session is the one that `reassemble` leaves. -/
theorem Handled.cacheOf_self {sent : Option SendTo} (h : Handled resolve s it d t sent)
    (present : t.has d.sessionId = true) :
    ∃ complete, reassemble (s.cacheOf d.sessionId) d = .ok (t.cacheOf d.sessionId, complete) := by
  obtain ⟨session, found⟩ := has_iff.mp present
  obtain ⟨before, _, fragments, complete, entered, filed, origin⟩ := h.lookup_self found
  refine ⟨complete, ?_⟩
  rw [← entered.cacheOf, filed, cacheOf_eq found]
  rcases origin with rfl | ⟨_, _, chosen⟩
  · rfl
  · rw [(destination_fragments chosen).1]

theorem completed_eq (read : it.read = .headed d) {session : UdpSession}
    (entered : Entered resolve (cleanUp s it) it d session t) {cache : FragmentCache}
    {complete : Option (Bytes × NetLocation)}
    (filed : reassemble session.fragments d = .ok (cache, complete)) :
    completed s (.iterate resolve it) = complete := by
  simp only [completed, read, enterSession_ok_iff.mpr entered, filed]

/-- The datagram of another session leaves the cache alone. -/
theorem Handled.cacheOf_ne {sent : Option SendTo} (h : Handled resolve s it d t sent)
    (other : sessionId ≠ d.sessionId) (kept : s.has sessionId = true → t.has sessionId = true) :
    t.cacheOf sessionId = s.cacheOf sessionId :=
  cacheOf_of_lookup kept fun _ found => h.lookup_ne other found

/-- The loop forgets its sessions only when they do not have to stay. -/
theorem cacheOf_leave (kept : s.has sessionId = true → (s.leave status).has sessionId = true) :
    (s.leave status).cacheOf sessionId = s.cacheOf sessionId := by
  apply cacheOf_of_lookup kept
  intro session found
  simp [UdpLoop.leave] at found

/-- An iteration that reads a datagram of the session files it in the session's
cache, and the payload completed there is the one of the event. -/
theorem cacheOf_iterate_self (spared : sparedIn d.sessionId s (.iterate resolve it) = true)
    (read : it.read = .headed d)
    (present : (Hysteria2.iterate resolve s it).1.has d.sessionId = true) :
    reassemble (s.cacheOf d.sessionId) d =
      .ok ((Hysteria2.iterate resolve s it).1.cacheOf d.sessionId,
        completed s (.iterate resolve it)) := by
  have h := handled resolve (cleanUp s it) it d
  rw [← iterate_headed read] at h
  obtain ⟨session, found⟩ := has_iff.mp present
  obtain ⟨before, _, fragments, complete, entered, filed, -⟩ := h.lookup_self found
  obtain ⟨complete', filed'⟩ := h.cacheOf_self present
  rw [completed_eq read entered filed, ← cacheOf_cleanUp spared, filed']
  rw [← entered.cacheOf, filed] at filed'
  rw [(Prod.mk.inj (Except.ok.inj filed')).2]

/-- While a session stays, an event either files one of its datagrams, and the
payload completed there is the one of the event, or leaves its cache alone. -/
theorem cacheOf_step {e : UdpEvent} (stays : staysIn sessionId s e = true)
    (taken : step s e = some t) :
    (∃ d, e.headed = some d ∧ d.sessionId = sessionId ∧
      reassemble (s.cacheOf sessionId) d = .ok (t.cacheOf sessionId, completed s e)) ∨
    (∀ d, e.headed = some d → d.sessionId ≠ sessionId) ∧
      t.cacheOf sessionId = s.cacheOf sessionId := by
  simp only [staysIn, taken, Bool.and_eq_true, Option.all_some] at stays
  obtain ⟨spared, stays⟩ := stays
  have keeps (own : s.has sessionId = true ∨ e.isFor sessionId = true) :
      t.has sessionId = true := by
    rw [(Bool.or_eq_true _ _).mpr own] at stays
    exact stays
  cases e with
  | iterate resolve it =>
      have cleaned := cacheOf_cleanUp spared
      simp only [Hysteria2.step, Option.ite_none_right_eq_some, Option.some.injEq] at taken
      obtain ⟨-, rfl⟩ := taken
      cases read : it.read with
      | failed =>
          have left_ : (Hysteria2.iterate resolve s it).1 = (cleanUp s it).leave .returned := by
            simp [Hysteria2.iterate, read]
          right
          refine ⟨by simp [UdpEvent.headed, read], ?_⟩
          rw [left_] at keeps ⊢
          rw [← cleaned]
          exact cacheOf_leave fun there => keeps (.inl (has_of_has_cleanUp there))
      | ignored =>
          right
          refine ⟨by simp [UdpEvent.headed, read], ?_⟩
          simpa [Hysteria2.iterate, read] using cleaned
      | headed d =>
          have brings : UdpEvent.headed (.iterate resolve it) = some d := by
            simp [UdpEvent.headed, read]
          by_cases own : d.sessionId = sessionId
          · left
            subst own
            have present := keeps (.inr (by simp [UdpEvent.isFor, brings]))
            exact ⟨d, brings, rfl, cacheOf_iterate_self spared read present⟩
          · right
            refine ⟨fun other brings' => ?_, ?_⟩
            · obtain rfl := Option.some.inj (brings.symm.trans brings')
              exact own
            · have h := handled resolve (cleanUp s it) it d
              rw [← iterate_headed read] at h
              rw [← cleaned]
              exact h.cacheOf_ne (Ne.symm own) fun there => keeps (.inl (has_of_has_cleanUp there))
  | taskEnds i =>
      obtain rfl := Option.some.inj taken
      exact .inr ⟨nofun, rfl⟩
  | dropped =>
      simp only [Hysteria2.step, Option.ite_none_right_eq_some, Option.some.injEq] at taken
      obtain ⟨-, rfl⟩ := taken
      exact .inr ⟨nofun, cacheOf_leave fun there => keeps (.inl there)⟩
  | cancelParent =>
      simp only [Hysteria2.step, Option.ite_none_right_eq_some, Option.some.injEq] at taken
      obtain ⟨-, rfl⟩ := taken
      exact .inr ⟨nofun, rfl⟩

end RustProxy.Hysteria2
