import Mathlib.Algebra.GroupWithZero.Nat
import RustProxy.Base.Exec

/-!
# Computations that poll

A world that logs the polls made in it: for each the operation that was polled,
and its answer with a count of what it moved.

`Logs` is the contract of a computation on an object in such a world. From a
state of the object, and whatever the world, a value that it returns satisfies
`post`, together with the object's new state and the polls that were made on the
way. Nothing is said of a computation that panics or does not return.

`LastPending` is what a wake-up needs: an operation was polled, and its last
answer was `pending`.
-/

variable {κ σ τ ω α β : Type}

/-- The answer, with a count in place of its value. -/
def Poll.count (moved : α → Nat) : Poll α → Poll Nat
  | .pending => .pending
  | .ready value => .ready (moved value)

/-- A world with the polls made in it. -/
structure Logged (κ ω : Type) where
  world : ω
  log : List (κ × Poll Nat)

/-- Poll an operation and log the answer. -/
def Logged.poll (key : κ) (moved : α → Nat) (op : ω → Poll α × ω) (w : Logged κ ω) :
    Poll α × Logged κ ω :=
  ((op w.world).1, ⟨(op w.world).2, w.log ++ [(key, (op w.world).1.count moved)]⟩)

theorem Logged.log_of_poll {key : κ} {moved : α → Nat} {op : ω → Poll α × ω} {w w' : Logged κ ω}
    {answer : Poll α} (polled : Logged.poll key moved op w = (answer, w')) :
    w'.log = w.log ++ [(key, answer.count moved)] := by
  cases polled
  rfl

/-- What an operation moved, over all its polls. -/
def movedBy [DecidableEq κ] (key : κ) (log : List (κ × Poll Nat)) : Nat :=
  (log.map fun entry =>
    match entry with
    | (polled, .ready n) => if polled = key then n else 0
    | (_, .pending) => 0).sum

/-- The last poll of an operation was pending. -/
def LastPending (key : κ) (log : List (κ × Poll Nat)) : Prop :=
  ∃ earlier later, log = earlier ++ (key, .pending) :: later ∧ ∀ entry ∈ later, entry.1 ≠ key

section LastPending

variable {key : κ} {log more : List (κ × Poll Nat)}

theorem lastPending_singleton (key : κ) : LastPending key [(key, .pending)] :=
  ⟨[], [], rfl, nofun⟩

theorem LastPending.after (h : LastPending key log) (earlier : List (κ × Poll Nat)) :
    LastPending key (earlier ++ log) := by
  obtain ⟨before, later, rfl, others⟩ := h
  exact ⟨earlier ++ before, later, by simp, others⟩

theorem LastPending.before (h : LastPending key log) (others : ∀ entry ∈ more, entry.1 ≠ key) :
    LastPending key (log ++ more) := by
  obtain ⟨earlier, later, rfl, quiet⟩ := h
  refine ⟨earlier, later ++ more, by simp, ?_⟩
  intro entry mem
  rcases List.mem_append.mp mem with mem | mem
  · exact quiet entry mem
  · exact others entry mem

@[simp] theorem movedBy_append [DecidableEq κ] (key : κ) (log more : List (κ × Poll Nat)) :
    movedBy key (log ++ more) = movedBy key log + movedBy key more := by
  simp [movedBy]

end LastPending

namespace Exec

/-- What comes with a value that `x` returns from `s`, in any world. -/
def Logs (x : Exec (σ × Logged κ ω) α) (s : σ) (post : α → σ → List (κ × Poll Nat) → Prop) :
    Prop :=
  ∀ w a t w', x (s, w) = (.returned a, t, w') → ∃ new, w'.log = w.log ++ new ∧ post a t new

variable {s : σ} {post post' : α → σ → List (κ × Poll Nat) → Prop}

theorem logs_pure {a : α} (h : post a s []) :
    Logs (Pure.pure a : Exec (σ × Logged κ ω) α) s post := by
  intro w b t w' ran
  cases ran
  exact ⟨[], (List.append_nil _).symm, h⟩

theorem Logs.mono {x : Exec (σ × Logged κ ω) α} (h : x.Logs s post)
    (weaker : ∀ a t new, post a t new → post' a t new) : x.Logs s post' := by
  intro w a t w' ran
  obtain ⟨new, logged, holds⟩ := h w a t w' ran
  exact ⟨new, logged, weaker a t new holds⟩

/-- One computation after the other: the polls of the second follow those of the
first. -/
theorem Logs.bind {x : Exec (σ × Logged κ ω) α} {f : α → Exec (σ × Logged κ ω) β}
    {M : α → σ → List (κ × Poll Nat) → Prop} {post : β → σ → List (κ × Poll Nat) → Prop}
    (first : x.Logs s M)
    (second : ∀ a t new, M a t new → (f a).Logs t fun b u later => post b u (new ++ later)) :
    Logs (x >>= f) s post := by
  intro w b u w'' ran
  change Exec.bind x f (s, w) = _ at ran
  unfold Exec.bind at ran
  split at ran
  case h_1 a middle done =>
    obtain ⟨t, w'⟩ := middle
    obtain ⟨new, logged, holds⟩ := first w a t w' done
    obtain ⟨later, loggedLater, holdsLater⟩ := second a t new holds w' b u w'' ran
    exact ⟨new ++ later, by rw [loggedLater, logged, List.append_assoc], holdsLater⟩
  case h_2 => cases ran
  case h_3 => cases ran

/-- The loop rule: each round keeps `invariant`, of the object and all polls so
far, or ends the loop with what was to be shown. -/
theorem Logs.loop {body : Exec (σ × Logged κ ω) (Option α)}
    (invariant : σ → List (κ × Poll Nat) → Prop)
    (round : ∀ t log, invariant t log → body.Logs t fun ended u new =>
      match ended with
      | some a => post a u (log ++ new)
      | none => invariant u (log ++ new))
    (start : invariant s []) (fuel : Nat) : (Exec.loop body fuel).Logs s post := by
  -- the polls so far are those of the rounds before
  suffices rest : ∀ log t, invariant t log →
      (Exec.loop body fuel).Logs t fun a u new => post a u (log ++ new) from rest [] s start
  induction fuel with
  | zero =>
      intro log t _ w a u w' ran
      cases ran
  | succ fuel ih =>
      intro log t kept
      refine Logs.bind (round t log kept) ?_
      intro ended u new reached
      cases ended with
      | none =>
          refine (ih (log ++ new) u reached).mono ?_
          intro a v later holds
          rwa [List.append_assoc] at holds
      | some a =>
          apply logs_pure
          rwa [List.append_nil]

/-- A round of a loop ends it with `post`, or keeps `invariant`. -/
def Round (invariant : σ → Prop) (post : α → σ → List (κ × Poll Nat) → Prop) :
    Option α → σ → List (κ × Poll Nat) → Prop
  | some a, t, log => post a t log
  | none, t, _ => invariant t

/-- The loop rule where earlier polls do not matter to what is to be shown. -/
theorem Logs.loop_last {body : Exec (σ × Logged κ ω) (Option α)} (invariant : σ → Prop)
    (after : ∀ a t log earlier, post a t log → post a t (earlier ++ log))
    (round : ∀ t, invariant t → body.Logs t (Round invariant post))
    (start : invariant s) (fuel : Nat) : (Exec.loop body fuel).Logs s post := by
  refine Logs.loop (fun t _ => invariant t) ?_ start fuel
  intro t log kept
  refine (round t kept).mono ?_
  intro ended u new reached
  cases ended with
  | none => exact reached
  | some a => exact after a u new log reached

/-- A computation that is no more than a poll. -/
theorem logs_poll (key : κ) (moved : α → Nat) (op : ω → Poll α × ω) :
    Logs (fun (s, w) => let (answer, w) := Logged.poll key moved op w; (.returned answer, s, w)) s
      fun answer t log => s = t ∧ (answer = .pending → LastPending key log) := by
  intro w answer t w' ran
  cases ran
  refine ⟨[(key, (op w.world).1.count moved)], rfl, rfl, fun pending => ?_⟩
  have counted : (op w.world).1.count moved = .pending := congrArg (Poll.count moved) pending
  rw [counted]
  exact lastPending_singleton key

/-- A computation on a part of the object. -/
theorem Logs.zoom (get : σ → τ) (set : τ → σ → σ) {x : Exec (τ × Logged κ ω) α}
    (h : x.Logs (get s) fun a t new => post a (set t s) new) :
    (Exec.zoom (fun s : σ × Logged κ ω => (get s.1, s.2)) (fun t s => (set t.1 s.1, t.2)) x).Logs s
      post := by
  intro w a t w' ran
  rcases done : x (get s, w) with ⟨outcome, u, w''⟩
  simp only [Exec.zoom, done, Prod.mk.injEq] at ran
  obtain ⟨rfl, rfl, rfl⟩ := ran
  exact h w a u w'' done

/-- The states that runs of some computations come to, one after the other, each
in whatever world. -/
inductive Reached {ι : Type} (x : ι → Exec (σ × ω) α) (s : σ) : σ → Prop
  | start : Reached x s s
  | returned {t u : σ} {i : ι} {w w' : ω} {a : α} (before : Reached x s t)
      (ran : x i (t, w) = (.returned a, u, w')) : Reached x s u

/-- What every computation keeps holds of every state that is reached. -/
theorem Reached.invariant {ι : Type} {x : ι → Exec (σ × Logged κ ω) α} {t : σ}
    (h : Reached x s t) (I : σ → Prop) (start : I s)
    (kept : ∀ i t, I t → (x i).Logs t fun _ u _ => I u) : I t := by
  induction h with
  | start => exact start
  | returned before ran ih =>
      obtain ⟨_, _, holds⟩ := kept _ _ ih _ _ _ _ ran
      exact holds

end Exec
