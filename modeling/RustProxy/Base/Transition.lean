import Mathlib.Data.List.Basic

/-!
# Runs of a partial step function

A component is a state type, a type of events and a partial function giving the
state after an event, `none` when the event is not enabled. `Always` and
`Along` speak about a run: a property of every state it reaches, a condition on
every step it takes.

An invariant is proved once for the start and once for a step. When the steps
keep it only under a condition, the property it implies holds along every run
that meets the condition (`always_of_along`), and the condition is exactly what
the property needs when a step that breaks it reaches a state without the
property (`always_iff_along`).
-/

namespace Transition

variable {σ ε : Type*} {step : σ → ε → Option σ}

/-- `Q` holds in every state that the events reach, until one is not enabled. -/
def Always (step : σ → ε → Option σ) (Q : σ → Prop) : σ → List ε → Prop
  | s, [] => Q s
  | s, e :: es => Q s ∧ ∀ t, step s e = some t → Always step Q t es

/-- `P` holds of every step that the events take, until one is not enabled. -/
def Along (step : σ → ε → Option σ) (P : σ → ε → Prop) : σ → List ε → Prop
  | _, [] => True
  | s, e :: es => ∀ t, step s e = some t → P s e ∧ Along step P t es

section Decidable

/-- A property that can be decided in a state can be decided along a run. -/
instance decidableAlways (Q : σ → Prop) [DecidablePred Q] :
    ∀ (s : σ) (es : List ε), Decidable (Always step Q s es)
  | s, [] => inferInstanceAs (Decidable (Q s))
  | s, e :: es =>
      match taken : step s e with
      | none => decidable_of_iff (Q s) (by simp [Always, taken])
      | some t =>
          have := decidableAlways Q t es
          decidable_of_iff (Q s ∧ Always step Q t es) (by simp [Always, taken])

instance decidableAlong (P : σ → ε → Prop) [∀ s e, Decidable (P s e)] :
    ∀ (s : σ) (es : List ε), Decidable (Along step P s es)
  | _, [] => isTrue trivial
  | s, e :: es =>
      match taken : step s e with
      | none => isTrue (by simp [Along, taken])
      | some t =>
          have := decidableAlong P t es
          decidable_of_iff (P s e ∧ Along step P t es) (by simp [Along, taken])

end Decidable

theorem Always.head {Q : σ → Prop} {s : σ} {es : List ε} (h : Always step Q s es) : Q s := by
  cases es with
  | nil => exact h
  | cons => exact h.1

/-- What always holds along a run holds at its end. -/
theorem Always.after {Q : σ → Prop} {s t : σ} {es : List ε} (h : Always step Q s es)
    (ran : es.foldlM step s = some t) : Q t := by
  induction es generalizing s with
  | nil =>
      cases ran
      exact h
  | cons e es ih =>
      obtain ⟨middle, taken, ran⟩ := Option.bind_eq_some_iff.mp ran
      exact ih (h.2 middle taken) ran

/-- The invariant rule: steps that meet the condition keep the invariant, which
implies the property. -/
theorem always_of_along {I Q : σ → Prop} {P : σ → ε → Prop} (safe : ∀ s, I s → Q s)
    (preserved : ∀ s e t, I s → P s e → step s e = some t → I t) {s : σ} (start : I s)
    {es : List ε} (along : Along step P s es) : Always step Q s es := by
  induction es generalizing s with
  | nil => exact safe s start
  | cons e es ih =>
      refine ⟨safe s start, ?_⟩
      intro t taken
      obtain ⟨met, rest⟩ := along t taken
      exact ih (preserved s e t start met taken) rest

theorem run_cons {s t u : σ} {e : ε} {es : List ε} (taken : step s e = some t)
    (ran : es.foldlM step t = some u) : (e :: es).foldlM step s = some u := by
  rw [List.foldlM_cons, taken]
  exact ran

/-- The state in which a run ends satisfies the invariant. -/
theorem invariant_of_run {I : σ → Prop} {P : σ → ε → Prop}
    (preserved : ∀ s e t, I s → P s e → step s e = some t → I t) {s t : σ} (start : I s)
    {es : List ε} (along : Along step P s es) (ran : es.foldlM step s = some t) : I t := by
  induction es generalizing s with
  | nil =>
      obtain rfl : s = t := by simpa using ran
      exact start
  | cons e es ih =>
      rw [List.foldlM_cons] at ran
      obtain ⟨middle, taken, rest⟩ := Option.bind_eq_some_iff.mp ran
      obtain ⟨met, along⟩ := along middle taken
      exact ih (preserved s e middle start met taken) along rest

/-- What holds of every step holds along a run. -/
theorem along_of_forall {P : σ → ε → Prop} (holds : ∀ s e, P s e) (s : σ) (es : List ε) :
    Along step P s es := by
  induction es generalizing s with
  | nil => trivial
  | cons e es ih => exact fun t _ => ⟨holds s e, ih t⟩

/-- A condition on the events alone. -/
theorem along_of_mem {R : ε → Prop} {s : σ} {es : List ε} (all : ∀ e ∈ es, R e) :
    Along step (fun _ e => R e) s es := by
  induction es generalizing s with
  | nil => trivial
  | cons e es ih =>
      intro t _
      exact ⟨all e List.mem_cons_self, ih fun e mem => all e (List.mem_cons_of_mem _ mem)⟩

/-- What holds of every event of a run holds of every step. -/
theorem Along.and_forall {P : σ → ε → Prop} {R : ε → Prop} {s : σ} {es : List ε}
    (along : Along step P s es) (all : ∀ e ∈ es, R e) :
    Along step (fun s e => P s e ∧ R e) s es := by
  induction es generalizing s with
  | nil => trivial
  | cons e es ih =>
      intro t taken
      obtain ⟨met, rest⟩ := along t taken
      exact ⟨⟨met, all e List.mem_cons_self⟩,
        ih rest fun e mem => all e (List.mem_cons_of_mem _ mem)⟩

/-- A condition along a run is met along its beginning. -/
theorem Along.beginning {P : σ → ε → Prop} {s : σ} {es es' : List ε}
    (along : Along step P s (es ++ es')) : Along step P s es := by
  induction es generalizing s with
  | nil => trivial
  | cons e es ih =>
      intro t taken
      obtain ⟨met, rest⟩ := along t taken
      exact ⟨met, ih rest⟩

/-- A condition along a run is met by the step behind a part of it. -/
theorem Along.step_after {P : σ → ε → Prop} {s s' t : σ} {es : List ε} {e : ε}
    (along : Along step P s (es ++ [e])) (ran : es.foldlM step s = some s')
    (taken : step s' e = some t) : P s' e := by
  induction es generalizing s with
  | nil =>
      obtain rfl : s = s' := by simpa using ran
      exact (along t taken).1
  | cons first es ih =>
      rw [List.foldlM_cons] at ran
      obtain ⟨middle, taken_, rest⟩ := Option.bind_eq_some_iff.mp ran
      exact ih (along middle taken_).2 rest

/-- The invariant rule for a property of steps. -/
theorem along_of_along {I : σ → Prop} {P Q : σ → ε → Prop}
    (safe : ∀ s e t, I s → P s e → step s e = some t → Q s e)
    (preserved : ∀ s e t, I s → P s e → step s e = some t → I t) {s : σ} (start : I s)
    {es : List ε} (along : Along step P s es) : Along step Q s es := by
  induction es generalizing s with
  | nil => trivial
  | cons e es ih =>
      intro t taken
      obtain ⟨met, rest⟩ := along t taken
      exact ⟨safe s e t start met taken, ih (preserved s e t start met taken) rest⟩

/-- Two conditions that agree on the steps of every state with the invariant. -/
theorem along_congr {I : σ → Prop} {P Q : σ → ε → Prop}
    (same : ∀ s e t, I s → step s e = some t → (P s e ↔ Q s e))
    (preserved : ∀ s e t, I s → step s e = some t → I t) {s : σ} (start : I s) (es : List ε) :
    Along step P s es ↔ Along step Q s es := by
  constructor
  · exact along_of_along (fun s e t holds met taken => (same s e t holds taken).mp met)
      (fun s e t holds _ taken => preserved s e t holds taken) start
  · exact along_of_along (fun s e t holds met taken => (same s e t holds taken).mpr met)
      (fun s e t holds _ taken => preserved s e t holds taken) start

/-- The invariant rule for steps under no condition. -/
theorem always_of_invariant {I Q : σ → Prop} (safe : ∀ s, I s → Q s)
    (preserved : ∀ s e t, I s → step s e = some t → I t) {s : σ} (start : I s) (es : List ε) :
    Always step Q s es := by
  induction es generalizing s with
  | nil => exact safe s start
  | cons e es ih =>
      exact ⟨safe s start, fun t taken => ih (preserved s e t start taken)⟩

/-- A condition on steps that keeps an invariant and without which a step
leaves `Q` is exactly the condition for `Q` to hold along a run. -/
theorem always_iff_along {I Q : σ → Prop} {P : σ → ε → Prop} (safe : ∀ s, I s → Q s)
    (preserved : ∀ s e t, I s → P s e → step s e = some t → I t)
    (violated : ∀ s e t, I s → ¬P s e → step s e = some t → ¬Q t)
    {s : σ} (start : I s) (es : List ε) : Always step Q s es ↔ Along step P s es := by
  induction es generalizing s with
  | nil => exact ⟨fun _ => trivial, fun _ => safe s start⟩
  | cons e es ih =>
      constructor
      · intro always t taken
        have met : P s e := by
          by_contra broken
          exact violated s e t start broken taken (always.2 t taken).head
        exact ⟨met, (ih (preserved s e t start met taken)).mp (always.2 t taken)⟩
      · exact always_of_along safe preserved start

end Transition
