import RustProxy.Base.Transition
import RustProxy.Hysteria2.Cases

/-!
# Idle sessions

The clean-up pass of the UDP loop is there for sessions that nobody uses. It
goes by `last_activity`, which a session gets when it starts and which no
datagram renews: the pass removes a session sixty seconds after it was opened,
however recently a datagram was handled in it.

A `Timed` loop has beside its state what the history says of each session id:
when the session was opened and when a datagram for the id was last handled. The
loop itself never looks there.
-/

namespace RustProxy.Hysteria2

open Transition

/-- The history of a session id. -/
structure Handling where
  openedAt : Nat
  handledAt : Nat
  deriving DecidableEq

/-- The loop, the last clock reading, and what happened to each session id. -/
structure Timed where
  loop : UdpLoop
  clock : Nat
  history : UInt32 → Option Handling

def Timed.initial (now : Nat) : Timed := ⟨.initial now, now, fun _ => none⟩

/-- The history of an id after a datagram for it at `now`: its session is the one
in the table, or one that is opened now. -/
def Handling.after (present : Option UdpSession) (earlier : Option Handling) (now : Nat) :
    Handling :=
  match present, earlier with
  | some _, some handling => { handling with handledAt := now }
  | _, _ => ⟨now, now⟩

/-- The history after an iteration. A datagram is handled when `startedAt` is
read. -/
def Timed.recorded (s : Timed) (it : Iteration) : UInt32 → Option Handling :=
  match it.read with
  | .headed d =>
      Function.update s.history d.sessionId
        (some (.after ((cleanUp s.loop it).sessions.lookup d.sessionId) (s.history d.sessionId)
          it.startedAt))
  | _ => s.history

/-- The clock readings of an iteration come one after the other. -/
def ReadInOrder (s : Timed) (it : Iteration) : Prop :=
  s.clock ≤ it.now ∧ it.now ≤ it.cleanupNow ∧ it.cleanupNow ≤ it.startedAt

instance (s : Timed) (it : Iteration) : Decidable (ReadInOrder s it) :=
  inferInstanceAs (Decidable (_ ∧ _ ∧ _))

/-- A step of the loop under a monotone clock. -/
def timedStep (s : Timed) : UdpEvent → Option Timed
  | .iterate resolve it =>
      if ReadInOrder s it then
        (step s.loop (.iterate resolve it)).map fun loop => ⟨loop, it.startedAt, s.recorded it⟩
      else none
  | e => (step s.loop e).map fun loop => { s with loop }

/-! ## The property and its condition -/

/-- The clean-up pass of the iteration runs. -/
def PassRuns (s : UdpLoop) (it : Iteration) : Prop := CLEANUP_INTERVAL < it.now - s.lastCleanup

/-- The pass removes a session only if no datagram for its id was handled during
the `IDLE_TIMEOUT` before. -/
def RemovesOnlyIdle (s : Timed) : UdpEvent → Prop
  | .iterate _ it => ∀ id session, s.loop.sessions.lookup id = some session →
      (cleanUp s.loop it).sessions.lookup id = none →
      ∀ handling, s.history id = some handling →
        IDLE_TIMEOUT < it.cleanupNow - handling.handledAt
  | _ => True

/-- The pass finds no session that was opened more than `IDLE_TIMEOUT` ago and
in which a datagram was handled since then. -/
def NoneInUseOutlived (s : Timed) : UdpEvent → Prop
  | .iterate _ it => PassRuns s.loop it → ∀ id session, s.loop.sessions.lookup id = some session →
      ∀ handling, s.history id = some handling →
        ¬(IDLE_TIMEOUT < it.cleanupNow - handling.openedAt ∧
          it.cleanupNow - handling.handledAt ≤ IDLE_TIMEOUT)
  | _ => True

/-! ## The field against the history -/

variable {resolve : Resolve} {s : UdpLoop} {it : Iteration} {d : Datagram}

/-- The pass removes a session for the age of its `last_activity`. -/
theorem lookup_cleanUp_eq_none_iff {id : UInt32} {session : UdpSession}
    (found : s.sessions.lookup id = some session) :
    (cleanUp s it).sessions.lookup id = none ↔
      PassRuns s it ∧ IDLE_TIMEOUT < it.cleanupNow - session.lastActivity := by
  rw [cleanUp, PassRuns]
  split
  case isTrue runs =>
      constructor
      · intro removed
        refine ⟨runs, ?_⟩
        by_contra recent
        have kept : (s.sessions.retain (isActive it.cleanupNow)).lookup id = some session :=
          Table.lookup_retain_eq_some.mpr ⟨found, by simp [isActive, recent]⟩
        cases removed.symm.trans kept
      · rintro ⟨-, idle⟩
        by_contra present
        obtain ⟨kept, kept_⟩ := Option.ne_none_iff_exists'.mp present
        obtain ⟨same, active⟩ := Table.lookup_retain_eq_some.mp kept_
        obtain rfl := Option.some.inj (found.symm.trans same)
        simp [isActive, idle] at active
  case isFalse rests =>
      constructor
      · intro absent
        cases found.symm.trans absent
      · rintro ⟨runs, -⟩
        exact absurd runs rests

theorem destination_lastActivity {session updated : UdpSession} {location : NetLocation}
    {addr : SocketAddr} (h : destination resolve session location = some (addr, updated)) :
    updated.lastActivity = session.lastActivity := by
  rcases destination_eq_some h with ⟨-, rfl⟩ | ⟨-, -, -, rfl⟩ | ⟨-, -, rfl⟩ <;> rfl

/-- Handling a datagram in a session leaves `last_activity` at the time at which
the session was opened. -/
theorem Handled.lastActivity {t : UdpLoop} {sent : Option SendTo} {u : UdpSession}
    (h : Handled resolve s it d t sent) (found : t.sessions.lookup d.sessionId = some u) :
    (∃ session, s.sessions.lookup d.sessionId = some session ∧
      u.lastActivity = session.lastActivity) ∨
    s.sessions.lookup d.sessionId = none ∧ u.lastActivity = it.startedAt := by
  obtain ⟨session, t', fragments, complete, entered, -, stored⟩ := h.lookup_self found
  have same : u.lastActivity = session.lastActivity := by
    rcases stored with rfl | ⟨location, addr, chosen⟩
    · rfl
    · have kept := destination_lastActivity chosen
      exact kept
  cases entered with
  | present present => exact .inl ⟨session, present, same⟩
  | opened absent => exact .inr ⟨absent, same⟩

/-- Every session of the table has a history, and its `last_activity` is the time
at which it was opened. -/
def OpenedAtActivity (s : Timed) : Prop :=
  ∀ id session, s.loop.sessions.lookup id = some session →
    ∃ handling, s.history id = some handling ∧ handling.openedAt = session.lastActivity

theorem openedAtActivity_iterate {s : Timed} (holds : OpenedAtActivity s) (resolve : Resolve)
    (it : Iteration) :
    OpenedAtActivity ⟨(iterate resolve s.loop it).1, it.startedAt, s.recorded it⟩ := by
  intro id session found
  have kept : (cleanUp s.loop it).sessions.lookup id = some session →
      ∃ handling, s.history id = some handling ∧ handling.openedAt = session.lastActivity :=
    fun found => holds id session (lookup_cleanUp found)
  rw [Timed.recorded]
  dsimp only
  rw [iterate] at found
  cases read : it.read with
  | failed => simp [read, UdpLoop.leave] at found
  | ignored =>
      rw [read] at found
      exact kept found
  | headed d =>
      rw [read] at found
      have handled := handled resolve (cleanUp s.loop it) it d
      dsimp only at found ⊢
      by_cases own : id = d.sessionId
      · subst own
        rw [Function.update_self]
        refine ⟨_, rfl, ?_⟩
        obtain ⟨earlier, present, same⟩ | ⟨absent, now⟩ := handled.lastActivity found
        · obtain ⟨handling, recorded, opened⟩ := holds _ _ (lookup_cleanUp present)
          rw [present, recorded, same]
          exact opened
        · rw [absent, now]
          rfl
      · rw [Function.update_of_ne own]
        exact kept (handled.lookup_ne own found)

theorem openedAtActivity_timedStep {s t : Timed} {e : UdpEvent} (holds : OpenedAtActivity s)
    (taken : timedStep s e = some t) : OpenedAtActivity t := by
  have emptied (status : LoopStatus) : OpenedAtActivity { s with loop := s.loop.leave status } := by
    intro id session found
    simp [UdpLoop.leave] at found
  cases e with
  | iterate resolve it =>
      simp only [timedStep, step] at taken
      split_ifs at taken with monotone running
      · cases taken
        exact openedAtActivity_iterate holds resolve it
      · cases taken
  | taskEnds i =>
      cases taken
      exact holds
  | dropped =>
      simp only [timedStep, step] at taken
      split_ifs at taken
      · cases taken
        exact emptied .returned
      · cases taken
  | cancelParent =>
      simp only [timedStep, step] at taken
      split_ifs at taken
      · cases taken
        exact holds
      · cases taken

/-- On a step the property and the condition are the same. -/
theorem removesOnlyIdle_iff {s : Timed} (holds : OpenedAtActivity s) (e : UdpEvent) :
    RemovesOnlyIdle s e ↔ NoneInUseOutlived s e := by
  cases e with
  | iterate resolve it =>
      constructor
      · rintro onlyIdle runs id session found handling recorded ⟨outlived, inUse⟩
        obtain ⟨_, same, opened⟩ := holds id session found
        obtain rfl := Option.some.inj (recorded.symm.trans same)
        rw [opened] at outlived
        have removed := (lookup_cleanUp_eq_none_iff found).mpr ⟨runs, outlived⟩
        exact absurd (onlyIdle id session found removed handling recorded) (Nat.not_lt.mpr inUse)
      · intro none_ id session found removed handling recorded
        obtain ⟨runs, outlived⟩ := (lookup_cleanUp_eq_none_iff found).mp removed
        obtain ⟨_, same, opened⟩ := holds id session found
        obtain rfl := Option.some.inj (recorded.symm.trans same)
        rw [← opened] at outlived
        by_contra inUse
        exact none_ runs id session found handling recorded ⟨outlived, Nat.not_lt.mp inUse⟩
  | taskEnds | dropped | cancelParent => exact Iff.rfl

/-- Over every timed run of the loop, the clean-up pass removes idle sessions
only, exactly when it never meets a session that has outlived `IDLE_TIMEOUT` and
is in use. -/
theorem clean_up_removes_only_idle_iff (now : Nat) (es : List UdpEvent) :
    Along timedStep RemovesOnlyIdle (.initial now) es ↔
      Along timedStep NoneInUseOutlived (.initial now) es := by
  refine along_congr (I := OpenedAtActivity) ?_ ?_ ?_ es
  · intro s e t holds _
    exact removesOnlyIdle_iff holds e
  · intro s e t holds taken
    exact openedAtActivity_timedStep holds taken
  · intro id session found
    simp [Timed.initial, UdpLoop.initial] at found

/-! ## A session in steady use -/

def steadyDatagram : Datagram where
  sessionId := 1
  packetId := 0
  fragmentId := 0
  fragmentCount := 1
  remoteLocation := ⟨.ipv4 ⟨1, 2, 3, 4⟩, 53⟩
  payload := [0]
  carried := carried_zero

/-- An iteration that begins at one time and handles the datagram at another. -/
def steadyIteration (now startedAt : Nat) : UdpEvent :=
  .iterate (fun _ => some (.v4 ⟨1, 2, 3, 4⟩ 53))
    { now, cleanupNow := now, read := .headed steadyDatagram, newUdpSocket := true, startedAt
      sendTo := true }

/-- Datagrams after 0, 55 and 66 seconds. -/
def steadyRun : List UdpEvent :=
  [steadyIteration 0 0, steadyIteration 0 (seconds 55), steadyIteration (seconds 55) (seconds 66)]

/-- The iteration after the third datagram. -/
def fourthPass : Iteration where
  now := seconds 66
  cleanupNow := seconds 66
  read := .ignored
  newUdpSocket := true
  startedAt := seconds 67
  sendTo := true

/-- The pass right after the third datagram removes the session. -/
theorem session_in_use_removed : ¬ Along timedStep RemovesOnlyIdle (.initial 0)
    (steadyRun ++ [.iterate (fun _ => none) fourthPass]) := by
  intro onlyIdle
  have reached : (steadyRun.foldlM timedStep (.initial 0)).any (fun s =>
      (timedStep s (.iterate (fun _ => none) fourthPass)).isSome &&
        (s.loop.sessions.lookup 1).isSome &&
        ((cleanUp s.loop fourthPass).sessions.lookup 1).isNone &&
        s.history 1 = some ⟨0, seconds 66⟩) := by
    decide +kernel
  obtain ⟨s, ran, facts⟩ := (Option.any_eq_true _ _).mp reached
  simp only [Bool.and_eq_true, decide_eq_true_eq, Option.isNone_iff_eq_none,
    Option.isSome_iff_exists] at facts
  obtain ⟨⟨⟨⟨t, taken⟩, session, present⟩, removed⟩, recorded⟩ := facts
  have idle := onlyIdle.step_after ran taken 1 session present removed _ recorded
  exact absurd idle (by decide)

end RustProxy.Hysteria2
