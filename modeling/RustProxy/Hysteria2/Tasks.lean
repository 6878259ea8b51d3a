import RustProxy.Base.Transition
import RustProxy.Hysteria2.Cases

/-!
# Sessions and their receive tasks

A session is reachable only through the table, and its receive task is told to
stop only through the session's token. A task that runs uncancelled without its
session in the table can no longer be stopped by the loop: it keeps its socket
until the connection ends.

The clean-up pass cancels what it removes. The branch taken when `send_to`
fails removes the session and cancels nothing, so the correspondence of tasks
and sessions is lost there unless the task has already ended by itself;
`tasks_accounted_iff` shows that nothing else can lose it.
-/

namespace RustProxy.Hysteria2

open Spawn (Linked OwnerEnded)

/-- While the loop runs, every receive task that runs uncancelled has its own
session in the table, so there is at most one of them for a session id. -/
def TasksAccounted (s : UdpLoop) : Prop :=
  s.status = .running →
    (∀ i task, s.tasks[i]? = some task → task.Loose →
      ∃ session, s.sessions.lookup task.key = some session ∧ session.cancelToken = i) ∧
    (∀ (i j : Nat) (task other : RecvTask), s.tasks[i]? = some task → s.tasks[j]? = some other →
      task.Loose → other.Loose → task.key = other.key → i = j)

/-- The receive task of the session under an id has ended by itself. -/
def ReceiverEnded (s : UdpLoop) (sessionId : UInt32) : Prop :=
  OwnerEnded UdpSession.cancelToken s.sessions s.tasks sessionId

/-- A send that an iteration makes succeeds, or fails in a session whose
receive task has already ended. -/
def SendFailureHarmless (s : UdpLoop) : UdpEvent → Prop
  | .iterate resolve it => ∀ sent, (iterate resolve s it).2 = some sent →
      it.sendTo = true ∨ ReceiverEnded (cleanUp s it) sent.sessionId
  | _ => True

/-- The links hold while the loop runs. -/
def LoopLinked (s : UdpLoop) : Prop :=
  s.status = .running → Linked UdpSession.cancelToken s.sessions s.tasks

variable {s t : UdpLoop} {resolve : Resolve} {it : Iteration} {d : Datagram}

theorem LoopLinked.accounted (h : LoopLinked s) : TasksAccounted s := by
  intro running
  exact ⟨(h running).accounted, fun i j task other get get' loose loose' same =>
    (h running).loose_unique get get' loose loose' same⟩

theorem linked_cleanUp (h : Linked UdpSession.cancelToken s.sessions s.tasks) (it : Iteration) :
    Linked UdpSession.cancelToken (cleanUp s it).sessions (cleanUp s it).tasks := by
  unfold cleanUp
  split
  · exact h.retain _
  · exact h

theorem Entered.linked {session : UdpSession} (entered : Entered resolve s it d session t)
    (h : Linked UdpSession.cancelToken s.sessions s.tasks) :
    Linked UdpSession.cancelToken t.sessions t.tasks := by
  cases entered with
  | present => exact h
  | opened absent => exact h.opened absent rfl _

/-- A task freshly spawned has not ended, so an entered session with an ended
task was in the table before. -/
theorem Entered.receiverEnded {session : UdpSession} {task : RecvTask}
    (entered : Entered resolve s it d session t) (get : t.tasks[session.cancelToken]? = some task)
    (ended : task.ended = true) : ReceiverEnded s d.sessionId := by
  cases entered with
  | present found => exact ⟨session, task, found, get, ended⟩
  | opened =>
      obtain rfl : _ = task := by simpa [opening, UdpSession.start] using get
      cases ended

theorem Handled.linked {sent : Option SendTo} (handled : Handled resolve s it d t sent)
    (h : Linked UdpSession.cancelToken s.sessions s.tasks)
    (harmless : ∀ m, sent = some m → it.sendTo = true ∨ ReceiverEnded s m.sessionId) :
    LoopLinked t := by
  intro running
  cases handled with
  | unresolved => exact h
  | noSocket => cases running
  | panicked => cases running
  | kept entered | undeliverable entered =>
      exact (entered.linked h).store entered.lookup rfl
  | sent entered _ chosen =>
      exact (entered.linked h).store entered.lookup (destination_fragments chosen).2
  | sendFailed entered _ _ failed =>
      obtain ok | ended := harmless _ rfl
      · rw [failed] at ok
        cases ok
      · cases entered with
        | present => exact h.erase ended
        | opened absent =>
            obtain ⟨session, task, found, _⟩ := ended
            rw [absent] at found
            cases found

/-- A failed send in a session whose task still runs leaves that task with no
session to stop it through. -/
theorem Handled.not_accounted {sent : SendTo} (handled : Handled resolve s it d t (some sent))
    (running : s.status = .running) (h : Linked UdpSession.cancelToken s.sessions s.tasks)
    (failed : it.sendTo = false) (alive : ¬ReceiverEnded s sent.sessionId) :
    ¬TasksAccounted t := by
  cases handled with
  | sent _ _ _ ok =>
      rw [failed] at ok
      cases ok
  | sendFailed entered =>
      obtain ⟨task, get, id, uncancelled⟩ := (entered.linked h).owned _ _ entered.lookup
      have runs : task.ended = false := by
        rw [Bool.eq_false_iff]
        exact fun ended => alive (entered.receiverEnded get ended)
      intro accounted
      obtain ⟨found, present, _⟩ :=
        (accounted (entered.status.trans running)).1 _ task get ⟨runs, uncancelled⟩
      rw [id, AList.lookup_erase] at present
      cases present

theorem LoopLinked.step {e : UdpEvent} (h : LoopLinked s) (harmless : SendFailureHarmless s e)
    (taken : step s e = some t) : LoopLinked t := by
  cases e with
  | iterate resolve it =>
      simp only [Hysteria2.step, Option.ite_none_right_eq_some, Option.some.injEq] at taken
      obtain ⟨running, rfl⟩ := taken
      have clean := linked_cleanUp (h running) it
      unfold SendFailureHarmless at harmless
      unfold Hysteria2.iterate at harmless ⊢
      cases read : it.read with
      | failed => exact fun impossible => by cases impossible
      | ignored => exact fun _ => clean
      | headed d =>
          simp only [read] at harmless
          exact (handled resolve (cleanUp s it) it d).linked clean harmless
  | taskEnds i =>
      obtain rfl := Option.some.inj taken
      exact fun running => (h running).finish i
  | dropped =>
      simp only [Hysteria2.step, Option.ite_none_right_eq_some, Option.some.injEq] at taken
      obtain ⟨_, rfl⟩ := taken
      exact fun impossible => by cases impossible
  | cancelParent =>
      simp only [Hysteria2.step, Option.ite_none_right_eq_some, Option.some.injEq] at taken
      obtain ⟨returned, rfl⟩ := taken
      intro running
      have : s.status = .running := running
      rw [returned] at this
      cases this

theorem not_accounted_of_harmful {e : UdpEvent} (h : LoopLinked s)
    (harmful : ¬SendFailureHarmless s e) (taken : step s e = some t) : ¬TasksAccounted t := by
  cases e with
  | iterate resolve it =>
      simp only [Hysteria2.step, Option.ite_none_right_eq_some, Option.some.injEq] at taken
      obtain ⟨running, rfl⟩ := taken
      simp only [SendFailureHarmless, not_forall, not_or, Bool.not_eq_true] at harmful
      obtain ⟨sent, made, failed, alive⟩ := harmful
      have clean := linked_cleanUp (h running) it
      unfold Hysteria2.iterate at made ⊢
      cases read : it.read with
      | failed => simp [read] at made
      | ignored => simp [read] at made
      | headed d =>
          simp only [read] at made ⊢
          have cases := handled resolve (cleanUp s it) it d
          rw [made] at cases
          exact cases.not_accounted (by simpa using running) clean failed alive
  | taskEnds | dropped | cancelParent => exact absurd trivial harmful

/-- Along a run of the loop every running receive task is cancelled or has its
session in the table exactly when no send fails in a session whose receive
task is still running. -/
theorem tasks_accounted_iff (now : Nat) (events : List UdpEvent) :
    Transition.Always step TasksAccounted (UdpLoop.initial now) events ↔
      Transition.Along step SendFailureHarmless (UdpLoop.initial now) events := by
  apply Transition.always_iff_along (I := LoopLinked)
  · exact fun s h => h.accounted
  · exact fun s e t h harmless taken => h.step harmless taken
  · exact fun s e t h harmful taken => not_accounted_of_harmful h harmful taken
  · exact fun _ => Linked.empty

/-- An unfragmented datagram to an IPv4 literal. -/
def plainDatagram : Datagram where
  sessionId := 1
  packetId := 0
  fragmentId := 0
  fragmentCount := 1
  remoteLocation := ⟨.ipv4 ⟨1, 2, 3, 4⟩, 53⟩
  payload := [0]
  carried := carried_zero

/-- Its session opens, and the operating system refuses to send. -/
def refusedIteration : Iteration where
  now := 0
  cleanupNow := 0
  read := .headed plainDatagram
  newUdpSocket := true
  startedAt := 0
  sendTo := false

/-- A single refused send leaves a receive task without a session. -/
theorem refused_send_leaks_task :
    ¬Transition.Always step TasksAccounted (UdpLoop.initial 0)
      [.iterate NetLocation.toSocketAddrNonblocking refusedIteration] := by
  intro always
  obtain ⟨accounted, _⟩ := always.2 _ rfl (by decide)
  obtain ⟨session, present, _⟩ := accounted 0 ⟨1, none, false, false⟩ (by decide) ⟨rfl, rfl⟩
  have absent : ((iterate NetLocation.toSocketAddrNonblocking (UdpLoop.initial 0)
      refusedIteration).1.sessions.lookup 1).isNone := by decide
  rw [present] at absent
  cases absent

end RustProxy.Hysteria2
