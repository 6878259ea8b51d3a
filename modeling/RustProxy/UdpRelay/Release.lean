import RustProxy.Base.Transition
import RustProxy.UdpRelay.Routing

/-!
# Releasing the receive tasks of a UDP-over-TCP stream

Every `recv_loop` that runs uncancelled has its session in the table while the
future is inside its loop. Leaving the loop drains the table and cancels each
token, after which no task is left to itself. Dropping the future instead
drops the table, and with it the last handle on the tasks still running:
`released_iff` shows that this is the one way a task escapes.
-/

namespace RustProxy.UdpRelay

open Spawn (Linked OwnerEnded)

/-- Once the future has ended, every `recv_loop` it spawned is cancelled or
has returned. -/
def Released (s : Routing) : Prop :=
  s.await = .ended → ∀ (i : Nat) (task : RecvLoop), s.tasks[i]? = some task →
    task.cancelled = true ∨ task.ended = true

/-- The future is not dropped while a session's `recv_loop` is running. -/
def DropHarmless (s : Routing) : Event → Prop
  | .dropped => ∀ destination session, s.sessions.lookup destination = some session →
      OwnerEnded Session.cancel s.sessions s.tasks destination
  | _ => True

/-- A destination whose socket is being made has no session yet. -/
def Await.Free (sessions : Table NetLocation Session) : Await → Prop
  | .creating destination _ _ _ => sessions.lookup destination = none
  | _ => True

/-- Inside its loop the future accounts for every running task through its
table; past the loop the table is empty and no task is left to itself. -/
inductive Accounts (s : Routing) : Prop
  | inside : s.await ≠ .shuttingDown → s.await ≠ .ended →
      Linked Session.cancel s.sessions s.tasks → s.await.Free s.sessions → Accounts s
  | past : s.await = .shuttingDown ∨ s.await = .ended → s.sessions = ∅ →
      (∀ (i : Nat) (task : RecvLoop), s.tasks[i]? = some task → ¬task.Loose) → Accounts s

variable {s t : Routing}

@[simp] theorem not_loose_iff {task : RecvLoop} :
    ¬task.Loose ↔ task.cancelled = true ∨ task.ended = true := by
  rw [Spawn.Task.Loose]
  cases task.cancelled <;> cases task.ended <;> simp

theorem Accounts.released (h : Accounts s) : Released s := by
  intro ended i task get
  cases h with
  | inside _ notEnded => exact absurd ended notEnded
  | past _ _ none => exact not_loose_iff.mp (none i task get)

/-- At an await point inside the loop the table and the tasks are linked. -/
theorem Accounts.linked (h : Accounts s) (inside : s.await ≠ .shuttingDown ∧ s.await ≠ .ended) :
    Linked Session.cancel s.sessions s.tasks := by
  cases h with
  | inside _ _ linked => exact linked
  | past ended =>
      rcases ended with ended | ended
      · exact absurd ended inside.1
      · exact absurd ended inside.2

theorem linked_cleanUp (h : Linked Session.cancel s.sessions s.tasks) (now : Nat) :
    Linked Session.cancel (s.cleanUp now).sessions (s.cleanUp now).tasks := by
  unfold Routing.cleanUp
  split
  · exact h.retain _
  · exact h

theorem accounts_leaveLoop (h : Linked Session.cancel s.sessions s.tasks) :
    Accounts s.leaveLoop :=
  .past (.inl rfl) rfl fun _ _ get => h.not_loose_of_cancel_all get

theorem accounts_forward {destination : NetLocation} {session : Session} {payload : Bytes}
    {addr : SocketAddr} {now : Nat} (h : Linked Session.cancel s.sessions s.tasks)
    (found : s.sessions.lookup destination = some session) :
    Accounts (s.forward destination session payload addr now) :=
  .inside (by simp [Routing.forward]) (by simp [Routing.forward]) (h.store found rfl) trivial

/-- A task that returns by itself only stops running. -/
theorem Accounts.finish (h : Accounts s) (i : Nat) :
    Accounts { s with tasks := Spawn.finish i s.tasks } := by
  cases h with
  | inside notPast notEnded linked free =>
      exact .inside notPast notEnded (linked.finish i) free
  | past ended empty none =>
      refine .past ended empty ?_
      intro j task get
      obtain ⟨before, earlier, rfl⟩ := Spawn.getElem?_finish.mp get
      split
      · simp [Spawn.Task.Loose]
      · exact none j before earlier

/-- Moving to another await point of the loop keeps the account. -/
theorem accounts_await {await : Await} (notPast : await ≠ .shuttingDown) (notEnded : await ≠ .ended)
    (free : await.Free s.sessions) (h : Linked Session.cancel s.sessions s.tasks) :
    Accounts { s with await } :=
  .inside notPast notEnded h free

/-- When no session's task is running, dropping the table drops no task. -/
theorem accounts_dropped (h : Linked Session.cancel s.sessions s.tasks)
    (harmless : DropHarmless s .dropped) : Accounts { s with sessions := ∅, await := .ended } := by
  refine .past (.inr rfl) rfl ?_
  intro i task get loose
  obtain ⟨session, found, own⟩ := h.accounted i task get loose
  obtain ⟨entry, other, present, getOther, ended⟩ := harmless _ _ found
  obtain rfl := Option.some.inj (found.symm.trans present)
  rw [own, get] at getOther
  rw [← Option.some.inj getOther, loose.1] at ended
  cases ended

theorem Accounts.step {e : Event} (h : Accounts s) (harmless : DropHarmless s e)
    (taken : step s e = some t) : Accounts t := by
  cases taken_of_step taken with
  | enter at_ =>
      exact accounts_await (by simp) (by simp) trivial
        (linked_cleanUp (h.linked (by simp [at_])) _)
  | response at_ => exact .inside (by simp) (by simp) (h.linked (by simp [at_])) trivial
  | wrote at_ | read at_ | unresolved at_ | noSocket at_ | sent at_ =>
      exact accounts_await (by simp) (by simp) trivial (h.linked (by simp [at_]))
  | unknown at_ absent =>
      exact accounts_await (by simp) (by simp) absent (h.linked (by simp [at_]))
  | writeFailed at_ | readFailed at_ | closed at_ =>
      exact accounts_leaveLoop (h.linked (by simp [at_]))
  | known at_ found => exact accounts_forward (h.linked (by simp [at_])) found
  | created at_ =>
      cases h with
      | inside _ _ linked free =>
          simp only [at_, Await.Free] at free
          exact accounts_forward (linked.opened free rfl _) (AList.lookup_insert _)
      | past ended => simp [at_] at ended
  | shutDown at_ =>
      cases h with
      | inside notPast => exact absurd at_ notPast
      | past _ empty none => exact .past (.inr rfl) empty none
  | dropped =>
      cases h with
      | inside _ _ linked => exact accounts_dropped linked harmless
      | past _ _ none => exact .past (.inr rfl) rfl none
  | packet =>
      cases h with
      | inside notPast notEnded linked free => exact .inside notPast notEnded linked free
      | past ended empty none => exact .past ended empty none
  | packetLate | receiveFails | seesCancellation => exact h.finish _

/-- A session whose task is running when the future is dropped leaves a task
that is neither cancelled nor finished. -/
theorem not_released_of_harmful {e : Event} (h : Accounts s) (harmful : ¬DropHarmless s e)
    (taken : step s e = some t) : ¬Released t := by
  cases taken_of_step taken with
  | dropped =>
      simp only [DropHarmless, not_forall] at harmful
      obtain ⟨destination, session, found, running⟩ := harmful
      cases h with
      | inside _ _ linked =>
          obtain ⟨task, get, _, uncancelled⟩ := linked.owned _ _ found
          intro released
          rcases released rfl _ task get with cancelled | ended
          · rw [uncancelled] at cancelled
            cases cancelled
          · exact running ⟨session, task, found, get, ended⟩
      | past _ empty => simp [empty] at found
  | _ => exact absurd trivial harmful

/-- Along a run every `recv_loop` is released once the future has ended,
exactly when the future is not dropped while the `recv_loop` of a session in
its table is running. -/
theorem released_iff (now : Nat) (events : List Event) :
    Transition.Always step Released (Routing.initial now) events ↔
      Transition.Along step DropHarmless (Routing.initial now) events := by
  apply Transition.always_iff_along (I := Accounts)
  · exact fun s h => h.released
  · exact fun s e t h harmless taken => h.step harmless taken
  · exact fun s e t h harmful taken => not_released_of_harmful h harmful taken
  · exact .inside (by simp [Routing.initial]) (by simp [Routing.initial]) Linked.empty trivial

/-- One packet to 1.2.3.4:53; then the owning stream task is aborted while the
future waits in its select. -/
def abortedStream : List Event :=
  [.enter 0, .read (some (⟨.ipv4 ⟨1, 2, 3, 4⟩, 53⟩, [0])),
    .resolved (some (.v4 ⟨1, 2, 3, 4⟩ 53)) 0, .created true, .sent, .enter 0, .dropped]

/-- The abort leaves the destination's `recv_loop` running and uncancelled. -/
theorem aborted_stream_leaks_recv_loop :
    ¬Transition.Always step Released (Routing.initial 0) abortedStream := by
  intro always
  have released : Released _ :=
    ((((((always.2 _ rfl).2 _ rfl).2 _ rfl).2 _ rfl).2 _ rfl).2 _ rfl).2 _ rfl
  have := released rfl 0 ⟨⟨.ipv4 ⟨1, 2, 3, 4⟩, 53⟩, false, false, false⟩ rfl
  simp at this

end RustProxy.UdpRelay
