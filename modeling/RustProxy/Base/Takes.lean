import RustProxy.Base.Exec

/-!
# Parsers that take items off a source

A parser takes items off the front of a list and gives a value or an error, with
what is left; `none` says that the list is too short for either. Two things are
said of a parser. `Extends`: what it gives does not change when more items
follow. `Covers`: the values it gives are those of a grammar, one rule for each
way of putting parsers together.

A computation over a state may read the same items in any other way, as they
come. It `Follows` the parser when it gives what the parser gives on the items
that the state brings; where the parser gives nothing it waits, or fails if
nothing more can come.
-/

/-- A parser of items `β`, with errors `ε`. -/
def Takes (β ε α : Type) : Type := List β → Option (Except ε α × List β)

namespace Takes

variable {β ε α γ : Type}

def ret (a : α) : Takes β ε α := fun items => some (.ok a, items)

def fail (e : ε) : Takes β ε α := fun items => some (.error e, items)

/-- The next `n` items. -/
def exactly (n : Nat) : Takes β ε (List β) := fun items =>
  if n ≤ items.length then some (.ok (items.take n), items.drop n) else none

def bind (p : Takes β ε α) (q : α → Takes β ε γ) : Takes β ε γ := fun items =>
  match p items with
  | some (.ok a, rest) => q a rest
  | some (.error e, rest) => some (.error e, rest)
  | none => none

variable {p : Takes β ε α} {q : α → Takes β ε γ} {items more rest front : List β} {a : α} {e : ε}

theorem bind_of_ok (took : p items = some (.ok a, rest)) : p.bind q items = q a rest := by
  rw [bind, took]

theorem bind_of_error (took : p items = some (.error e, rest)) :
    p.bind q items = some (.error e, rest) := by
  rw [bind, took]

/-- The ways in which a sequence gives something. -/
theorem bind_eq_some {result : Except ε γ} (took : p.bind q items = some (result, rest)) :
    (∃ a middle, p items = some (.ok a, middle) ∧ q a middle = some (result, rest)) ∨
      ∃ e, p items = some (.error e, rest) ∧ result = .error e := by
  rw [bind] at took
  split at took
  case h_1 a middle first => exact .inl ⟨a, middle, first, took⟩
  case h_2 e middle first =>
    cases took
    exact .inr ⟨e, first, rfl⟩
  case h_3 => cases took

theorem bind_eq_ok {c : γ} (took : p.bind q items = some (.ok c, rest)) :
    ∃ a middle, p items = some (.ok a, middle) ∧ q a middle = some (.ok c, rest) := by
  rcases bind_eq_some took with found | ⟨e, -, other⟩
  · exact found
  · cases other

theorem exactly_append {n : Nat} (length : front.length = n) :
    (exactly n : Takes β ε (List β)) (front ++ rest) = some (.ok front, rest) := by
  subst length
  rw [exactly, if_pos (by simp), List.take_left, List.drop_left]

theorem bind_exactly_append {n : Nat} (q : List β → Takes β ε γ) (front rest : List β)
    (length : front.length = n) : (exactly n).bind q (front ++ rest) = q front rest :=
  bind_of_ok (exactly_append length)

/-- Items that come in two parts. -/
theorem exactly_append_of_le {n : Nat} (fits : front.length ≤ n) :
    (exactly n : Takes β ε (List β)) (front ++ rest) =
      (exactly (n - front.length)).bind (fun more => ret (front ++ more)) rest := by
  rw [bind, exactly, exactly]
  by_cases enough : n ≤ (front ++ rest).length
  · have fewer : n - front.length ≤ rest.length := by
      rw [List.length_append] at enough
      omega
    rw [if_pos enough, if_pos fewer, List.take_append, List.drop_append,
      List.take_of_length_le fits, List.drop_of_length_le fits, List.nil_append]
    rfl
  · have fewer : ¬n - front.length ≤ rest.length := by
      rw [List.length_append] at enough
      omega
    rw [if_neg enough, if_neg fewer]

/-- What `exactly` gives is the front of the items. -/
theorem exactly_eq_some {n : Nat} {result : Except ε (List β)}
    (took : exactly n items = some (result, rest)) :
    ∃ front, result = .ok front ∧ front.length = n ∧ items = front ++ rest := by
  rw [exactly] at took
  split at took
  case isTrue enough =>
    cases took
    exact ⟨items.take n, rfl, List.length_take_of_le enough, (List.take_append_drop n items).symm⟩
  case isFalse => cases took

theorem exactly_eq_ok {n : Nat}
    (took : (exactly n : Takes β ε (List β)) items = some (.ok front, rest)) :
    front.length = n ∧ items = front ++ rest := by
  obtain ⟨front, same, length, split⟩ := exactly_eq_some took
  cases same
  exact ⟨length, split⟩

theorem bind_exactly_eq_ok {n : Nat} {q : List β → Takes β ε γ} {c : γ}
    (took : (exactly n).bind q items = some (.ok c, rest)) :
    ∃ front middle, front.length = n ∧ items = front ++ middle ∧
      q front middle = some (.ok c, rest) := by
  obtain ⟨front, middle, first, last⟩ := bind_eq_ok took
  obtain ⟨length, split⟩ := exactly_eq_ok first
  exact ⟨front, middle, length, split, last⟩

/-! ## More items -/

/-- More items change nothing of what the parser gives. -/
def Extends (p : Takes β ε α) : Prop :=
  ∀ items more result rest, p items = some (result, rest) →
    p (items ++ more) = some (result, rest ++ more)

theorem extends_ret (a : α) : Extends (ret a : Takes β ε α) := by
  intro items more result rest took
  cases took
  rfl

theorem extends_fail (e : ε) : Extends (fail e : Takes β ε α) := by
  intro items more result rest took
  cases took
  rfl

theorem extends_exactly (n : Nat) : Extends (exactly n : Takes β ε (List β)) := by
  intro items more result rest took
  obtain ⟨front, rfl, length, rfl⟩ := exactly_eq_some took
  rw [List.append_assoc, exactly_append length]

theorem Extends.bind (first : Extends p) (second : ∀ a, Extends (q a)) : Extends (p.bind q) := by
  intro items more result rest took
  rcases bind_eq_some took with ⟨a, middle, before, behind⟩ | ⟨e, before, rfl⟩
  · rw [bind_of_ok (first _ more _ _ before)]
    exact second a _ _ _ _ behind
  · exact bind_of_error (first _ more _ _ before)

/-- A parser that has used up its items gives nothing on fewer. -/
theorem Extends.none_of_fewer (h : Extends p) {result : Except ε α}
    (took : p (items ++ more) = some (result, [])) (some_ : more ≠ []) : p items = none := by
  rw [Option.eq_none_iff_forall_ne_some]
  rintro ⟨result', rest⟩ early
  rw [h _ more _ _ early] at took
  have used := (Prod.mk.inj (Option.some.inj took)).2
  exact some_ (List.append_eq_nil_iff.mp used).2

/-! ## Grammars -/

/-- The parser gives the values of a grammar, and leaves what follows. -/
def Covers (p : Takes β ε α) (grammar : List β → α → Prop) : Prop :=
  ∀ items a rest, p items = some (.ok a, rest) ↔ ∃ front, grammar front a ∧ items = front ++ rest

theorem covers_ret (a : α) :
    Covers (ret a : Takes β ε α) fun front value => front = [] ∧ value = a := by
  intro items value rest
  constructor
  · intro took
    cases took
    exact ⟨[], ⟨rfl, rfl⟩, rfl⟩
  · rintro ⟨front, ⟨rfl, rfl⟩, rfl⟩
    rfl

theorem covers_exactly (n : Nat) :
    Covers (exactly n : Takes β ε (List β)) fun front value =>
      front = value ∧ value.length = n := by
  intro items value rest
  constructor
  · intro took
    obtain ⟨length, rfl⟩ := exactly_eq_ok took
    exact ⟨value, ⟨rfl, length⟩, rfl⟩
  · rintro ⟨front, ⟨rfl, length⟩, rfl⟩
    exact exactly_append length

theorem Covers.bind {first : List β → α → Prop} {second : α → List β → γ → Prop}
    (h : Covers p first) (h' : ∀ a, Covers (q a) (second a)) :
    Covers (p.bind q) fun front value =>
      ∃ before behind a, front = before ++ behind ∧ first before a ∧ second a behind value := by
  intro items value rest
  constructor
  · intro took
    obtain ⟨a, middle, earlier, later⟩ := bind_eq_ok took
    obtain ⟨before, is, rfl⟩ := (h _ _ _).mp earlier
    obtain ⟨behind, is', rfl⟩ := (h' a _ _ _).mp later
    exact ⟨before ++ behind, ⟨before, behind, a, rfl, is, is'⟩, (List.append_assoc _ _ _).symm⟩
  · rintro ⟨front, ⟨before, behind, a, rfl, is, is'⟩, rfl⟩
    rw [List.append_assoc, bind_of_ok ((h _ _ _).mpr ⟨before, is, rfl⟩)]
    exact (h' a _ _ _).mpr ⟨behind, is', rfl⟩

theorem Covers.congr {grammar grammar' : List β → α → Prop} (h : Covers p grammar)
    (same : ∀ front a, grammar front a ↔ grammar' front a) : Covers p grammar' := by
  intro items a rest
  rw [h items a rest]
  exact exists_congr fun front => and_congr_left fun _ => same front a

/-! ## Computations that follow a parser -/

section Follows

variable {σ : Type}

/-- A sequence in which the first part returns. -/
theorem run_bind_of_ok {x : ExceptT ε (Exec σ) α} {f : α → ExceptT ε (Exec σ) γ} {s t : σ}
    (ran : x s = (.returned (.ok a), t)) : (x >>= f) s = f a t := by
  show Exec.bind x (ExceptT.bindCont f) s = _
  rw [Exec.bind, ran]
  rfl

theorem run_bind_of_error {x : ExceptT ε (Exec σ) α} {f : α → ExceptT ε (Exec σ) γ} {s t : σ}
    (ran : x s = (.returned (.error e), t)) : (x >>= f) s = (.returned (.error e), t) := by
  show Exec.bind x (ExceptT.bindCont f) s = _
  rw [Exec.bind, ran]
  rfl

theorem run_bind_of_running {x : ExceptT ε (Exec σ) α} {f : α → ExceptT ε (Exec σ) γ} {s t : σ}
    (ran : x s = (.running, t)) : (x >>= f) s = (.running, t) := by
  show Exec.bind x (ExceptT.bindCont f) s = _
  rw [Exec.bind, ran]

/-- The computation gives what the parser gives. `brings items ends` says of a
state that the items come, and whether the source ends behind them; `Eof` are
the errors of a source that has ended too early. -/
structure Follows (brings : List β → Bool → σ → Prop) (Eof : ε → Prop)
    (x : ExceptT ε (Exec σ) α) (p : Takes β ε α) : Prop where
  gives : ∀ items ends s result rest, brings items ends s → p items = some (result, rest) →
    ∃ t, x s = (.returned result, t) ∧ brings rest ends t
  waits : ∀ items s, brings items false s → p items = none → ∃ t, x s = (.running, t)
  fails : ∀ items s, brings items true s → p items = none →
    ∃ e t, x s = (.returned (.error e), t) ∧ Eof e

variable {brings : List β → Bool → σ → Prop} {Eof : ε → Prop}

theorem follows_ret (a : α) : Follows brings Eof (pure a) (ret a) where
  gives items ends s result rest before took := by
    cases took
    exact ⟨s, rfl, before⟩
  waits items s _ none_ := by cases none_
  fails items s _ none_ := by cases none_

theorem follows_fail (e : ε) :
    Follows brings Eof (throw e : ExceptT ε (Exec σ) α) (fail e) where
  gives items ends s result rest before took := by
    cases took
    exact ⟨s, rfl, before⟩
  waits items s _ none_ := by cases none_
  fails items s _ none_ := by cases none_

theorem Follows.bind {x : ExceptT ε (Exec σ) α} {f : α → ExceptT ε (Exec σ) γ}
    (first : Follows brings Eof x p) (second : ∀ a, Follows brings Eof (f a) (q a)) :
    Follows brings Eof (x >>= f) (p.bind q) where
  gives items ends s result rest before took := by
    rcases bind_eq_some took with ⟨a, middle, earlier, later⟩ | ⟨e, earlier, rfl⟩
    · obtain ⟨t, ran, between⟩ := first.gives _ _ _ _ _ before earlier
      obtain ⟨u, ran', behind⟩ := (second a).gives _ _ _ _ _ between later
      exact ⟨u, (run_bind_of_ok ran).trans ran', behind⟩
    · obtain ⟨t, ran, behind⟩ := first.gives _ _ _ _ _ before earlier
      exact ⟨t, run_bind_of_error ran, behind⟩
  waits items s before none_ := by
    rw [Takes.bind] at none_
    split at none_
    case h_1 a middle took =>
      obtain ⟨t, ran, between⟩ := first.gives _ _ _ _ _ before took
      obtain ⟨u, ran'⟩ := (second a).waits _ _ between none_
      exact ⟨u, (run_bind_of_ok ran).trans ran'⟩
    case h_2 => cases none_
    case h_3 took =>
      obtain ⟨t, ran⟩ := first.waits _ _ before took
      exact ⟨t, run_bind_of_running ran⟩
  fails items s before none_ := by
    rw [Takes.bind] at none_
    split at none_
    case h_1 a middle took =>
      obtain ⟨t, ran, between⟩ := first.gives _ _ _ _ _ before took
      obtain ⟨e, u, ran', early⟩ := (second a).fails _ _ between none_
      exact ⟨e, u, (run_bind_of_ok ran).trans ran', early⟩
    case h_2 => cases none_
    case h_3 took =>
      obtain ⟨e, t, ran, early⟩ := first.fails _ _ before took
      exact ⟨e, t, run_bind_of_error ran, early⟩

/-- A computation that begins with a read: where there are items, it goes on as a
computation that follows what is left of the parser. -/
theorem follows_of_read {x : ExceptT ε (Exec σ) α} (short : p [] = none)
    (goesOn : ∀ items ends s, brings items ends s → items ≠ [] → ∃ rest t y, ∃ q : Takes β ε α,
      brings rest ends t ∧ x s = y t ∧ p items = q rest ∧ Follows brings Eof y q)
    (waits : ∀ s, brings [] false s → ∃ t, x s = (.running, t))
    (fails : ∀ s, brings [] true s → ∃ e t, x s = (.returned (.error e), t) ∧ Eof e) :
    Follows brings Eof x p where
  gives items ends s result rest before took := by
    have some_ : items ≠ [] := by
      rintro rfl
      rw [short] at took
      cases took
    obtain ⟨rest', t, y, q, behind, ran, same, follows⟩ := goesOn items ends s before some_
    rw [same] at took
    rw [ran]
    exact follows.gives _ _ _ _ _ behind took
  waits items s before none_ := by
    by_cases some_ : items = []
    · subst some_
      exact waits s before
    · obtain ⟨rest', t, y, q, behind, ran, same, follows⟩ := goesOn items false s before some_
      rw [same] at none_
      rw [ran]
      exact follows.waits _ _ behind none_
  fails items s before none_ := by
    by_cases some_ : items = []
    · subst some_
      exact fails s before
    · obtain ⟨rest', t, y, q, behind, ran, same, follows⟩ := goesOn items true s before some_
      rw [same] at none_
      rw [ran]
      exact follows.fails _ _ behind none_

end Follows

end Takes
