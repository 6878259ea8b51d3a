import RustProxy.Base.Exec

/-!
# Calls on an object

An object of type `σ` in a world `ω` is used by one call after the other. Between
the calls anything may happen in the world, and each call has its own fuel. A run
keeps the answers.

`Meets.calls` is the rule for an invariant of such runs: it may speak about the
object, the world and the answers so far. Of one call made again and again,
`again_always` says what holds after every number of calls, and `again_reaches`
that some number of them is enough.
-/

/-- A call by the user of an object, after whatever happened in the world since
the last one. -/
structure Asked (ω ο : Type*) where
  meanwhile : ω → ω
  fuel : Nat
  op : ο

namespace Exec

variable {σ ω ο α : Type}

/-- A moment of a run: the object, the world and the answers so far. -/
abbrev Answering (σ ω α : Type) := (σ × ω) × List α

/-- Calls one after the other. -/
def calls (call : Nat → ο → Exec (σ × ω) α) : List (Asked ω ο) → Exec (Answering σ ω α) Unit
  | [] => pure ()
  | c :: cs => do
      modify fun s => ((s.1.1, c.meanwhile s.1.2), s.2)
      let answer ← zoom Prod.fst (fun t s => (t, s.2)) (call c.fuel c.op)
      modify fun s => (s.1, s.2 ++ [answer])
      calls call cs

variable {call : Nat → ο → Exec (σ × ω) α} {safe I : Answering σ ω α → Prop}

/-- A call that returns is followed by the others. -/
theorem calls_cons {c : Asked ω ο} {s : σ} {w : ω} {answer : α} {t : σ × ω}
    (ran : call c.fuel c.op (s, c.meanwhile w) = (.returned answer, t)) (cs : List (Asked ω ο))
    (answers : List α) :
    calls call (c :: cs) ((s, w), answers) = calls call cs (t, answers ++ [answer]) := by
  have zoomed : zoom Prod.fst (fun t s => (t, s.2)) (call c.fuel c.op)
      ((s, c.meanwhile w), answers) = (.returned answer, (t, answers)) := by
    rw [zoom, ran]
  exact (modify_bind ..).trans ((bind_of_returned zoomed).trans (modify_bind ..))

/-- The invariant rule for calls: what happens in the world keeps the invariant,
and so does every call with its answer. -/
theorem Meets.calls (cs : List (Asked ω ο))
    (slept : ∀ c ∈ cs, ∀ s w answers, I ((s, w), answers) → I ((s, c.meanwhile w), answers))
    (called : ∀ c ∈ cs, ∀ s answers, I (s, answers) →
      (call c.fuel c.op).Meets s (fun t => safe (t, answers)) fun answer t =>
        I (t, answers ++ [answer]))
    {s : Answering σ ω α} (start : I s) :
    (Exec.calls call cs).Meets s safe fun _ => I := by
  induction cs generalizing s with
  | nil => exact meets_pure start
  | cons c cs ih =>
      obtain ⟨⟨this, w⟩, answers⟩ := s
      have here := List.mem_cons_self (a := c) (l := cs)
      refine Meets.bind (M := fun _ => I) (.of_returned rfl (slept c here _ _ _ start)) ?_
      rintro _ ⟨t, answers⟩ kept
      have answered :
        (Exec.zoom Prod.fst (fun t s => (t, s.2)) (call c.fuel c.op)).Meets (t, answers)
          safe fun answer t => I (t.1, t.2 ++ [answer]) :=
        .zoom (called c here t answers kept)
      refine answered.bind fun answer t reached => ?_
      refine Meets.bind (M := fun _ => I) (.of_returned rfl reached) fun _ u reached => ?_
      exact ih (fun c mem => slept c (List.mem_cons_of_mem _ mem))
        (fun c mem => called c (List.mem_cons_of_mem _ mem)) reached

/-! ### One call again and again -/

section Again

variable {c : Asked ω ο} {s : Answering σ ω α}

/-- `n` times the same call. -/
def again (call : Nat → ο → Exec (σ × ω) α) (c : Asked ω ο) (n : Nat) :
    Exec (Answering σ ω α) Unit :=
  calls call (List.replicate n c)

theorem again_succ {s : σ} {w : ω} {answer : α} {t : σ × ω}
    (ran : call c.fuel c.op (s, c.meanwhile w) = (.returned answer, t)) (n : Nat)
    (answers : List α) :
    again call c (n + 1) ((s, w), answers) = again call c n (t, answers ++ [answer]) :=
  calls_cons ran (List.replicate n c) answers

/-- An invariant that a call keeps holds after every number of them, and they
all return. -/
theorem again_always (I : Answering σ ω α → Prop)
    (step : ∀ s w answers, I ((s, w), answers) → ∃ answer t,
      call c.fuel c.op (s, c.meanwhile w) = (.returned answer, t) ∧ I (t, answers ++ [answer]))
    (start : I s) (n : Nat) :
    (again call c n s).1 = .returned () ∧ I (again call c n s).2 := by
  induction n generalizing s with
  | zero => exact ⟨rfl, start⟩
  | succ n ih =>
      obtain ⟨⟨this, w⟩, answers⟩ := s
      obtain ⟨answer, t, ran, next⟩ := step this w answers start
      rw [again_succ ran]
      exact ih next

/-- Calls each of which reaches the goal or makes the index of the invariant
smaller reach the goal. -/
theorem again_reaches (goal : Answering σ ω α → Prop) (I : Nat → Answering σ ω α → Prop)
    (step : ∀ m s w answers, I m ((s, w), answers) → goal ((s, w), answers) ∨ ∃ answer t,
      call c.fuel c.op (s, c.meanwhile w) = (.returned answer, t) ∧
        ∃ m' < m, I m' (t, answers ++ [answer]))
    {m : Nat} (start : I m s) : ∃ n, goal (again call c n s).2 := by
  induction m using Nat.strongRecOn generalizing s with
  | ind m ih =>
      obtain ⟨⟨this, w⟩, answers⟩ := s
      obtain reached | ⟨answer, t, ran, m', less, next⟩ := step m this w answers start
      · exact ⟨0, reached⟩
      · obtain ⟨n, reached⟩ := ih m' less next
        exact ⟨n + 1, by rwa [again_succ ran]⟩

end Again

end Exec

/-- What the answers say, and what one more says. -/
theorem filterMap_concat {α β : Type*} (f : α → Option β) (answers : List α) (answer : α) :
    (answers ++ [answer]).filterMap f = answers.filterMap f ++ (f answer).toList := by
  rw [List.filterMap_append]
  cases found : f answer <;> simp [found]
