import Mathlib.Data.List.Chain

/-!
# Resources on lease

Under every key there may be a lease: a resource and the time at which it was
last used. A use goes to the resource of its key, or to a new one if the key has
no lease; a lease that was not used for longer than the timeout may be ended.

`Leased` is what the leases and the uses so far have to do with each other. Two
uses of one key that follow each other then have the same resource, or more than
the timeout lies between them (`Kept`).
-/

namespace Leases

variable {K R : Type}

structure Use (K R : Type) where
  key : K
  resource : R
  time : Nat
  deriving DecidableEq, Repr

variable {timeout clock : Nat} {lease lease' : K → Option (R × Nat)} {uses : List (Use K R)}
  {k k' : K} {r : R}

/-- No use of the key is younger than the timeout. -/
def Idle (timeout clock : Nat) (uses : List (Use K R)) (k : K) : Prop :=
  ∀ use ∈ uses, use.key = k → timeout < clock - use.time

theorem Idle.mono {clock' : Nat} (h : Idle timeout clock uses k) (later : clock ≤ clock') :
    Idle timeout clock' uses k := by
  intro use mem own
  have := h use mem own
  omega

variable [DecidableEq K]

/-- The uses under a key. -/
def usesOf (k : K) (uses : List (Use K R)) : List (Use K R) := uses.filter (·.key = k)

/-- A later use of a key goes to the resource of the earlier one, or comes after
more than the timeout. -/
def Renews (timeout : Nat) (earlier later : Use K R) : Prop :=
  earlier.time ≤ later.time ∧
    (earlier.resource = later.resource ∨ timeout < later.time - earlier.time)

/-- A key keeps its resource for as long as the timeout does not pass unused. -/
def Kept (timeout : Nat) (uses : List (Use K R)) : Prop :=
  ∀ k, (usesOf k uses).IsChain (Renews timeout)

structure Leased (timeout clock : Nat) (lease : K → Option (R × Nat)) (uses : List (Use K R)) :
    Prop where
  kept : Kept timeout uses
  past : ∀ use ∈ uses, use.time ≤ clock
  latest : ∀ k r time, lease k = some (r, time) →
    (usesOf k uses).getLast? = some ⟨k, r, time⟩ ∧ ∀ use ∈ uses, use.key = k → use.time ≤ time
  gone : ∀ k, lease k = none → Idle timeout clock uses k

@[simp] theorem usesOf_concat_self (uses : List (Use K R)) (r : R) (time : Nat) :
    usesOf k (uses ++ [⟨k, r, time⟩]) = usesOf k uses ++ [⟨k, r, time⟩] := by
  simp [usesOf]

theorem usesOf_concat_ne (other : k' ≠ k) (uses : List (Use K R)) (r : R) (time : Nat) :
    usesOf k' (uses ++ [⟨k, r, time⟩]) = usesOf k' uses := by
  simp [usesOf, other.symm]

theorem mem_of_getLast? {use : Use K R} (last : (usesOf k uses).getLast? = some use) :
    use ∈ uses ∧ use.key = k := by
  have mem := List.mem_of_getLast? last
  simpa [usesOf] using mem

/-- One more use behind those of its key. -/
theorem Kept.use {time : Nat} (h : Kept timeout uses)
    (renews : ∀ earlier, (usesOf k uses).getLast? = some earlier →
      Renews timeout earlier ⟨k, r, time⟩) : Kept timeout (uses ++ [⟨k, r, time⟩]) := by
  intro k'
  by_cases own : k' = k
  · subst own
    rw [usesOf_concat_self]
    refine (h k').append (List.isChain_singleton _) ?_
    intro earlier last later head
    cases head
    exact renews earlier last
  · rw [usesOf_concat_ne own]
    exact h k'

/-- The leases after a use, however its resource was found. -/
theorem Leased.used (h : Leased timeout clock lease uses)
    (renews : ∀ earlier, (usesOf k uses).getLast? = some earlier →
      Renews timeout earlier ⟨k, r, clock⟩)
    (stored : lease' k = some (r, clock)) (others : ∀ k', k' ≠ k → lease' k' = lease k') :
    Leased timeout clock lease' (uses ++ [⟨k, r, clock⟩]) where
  kept := h.kept.use renews
  past use mem := by
    rcases List.mem_append.mp mem with earlier | last
    · exact h.past use earlier
    · rw [List.mem_singleton.mp last]
  latest k' r' time found := by
    by_cases own : k' = k
    · subst own
      obtain ⟨rfl, rfl⟩ := Prod.mk.inj (Option.some.inj (stored.symm.trans found))
      rw [usesOf_concat_self, List.getLast?_concat]
      refine ⟨rfl, ?_⟩
      intro use mem _
      rcases List.mem_append.mp mem with earlier | last
      · exact h.past use earlier
      · rw [List.mem_singleton.mp last]
    · rw [others k' own] at found
      obtain ⟨last, latest⟩ := h.latest k' r' time found
      rw [usesOf_concat_ne own]
      refine ⟨last, ?_⟩
      intro use mem same
      rcases List.mem_append.mp mem with earlier | new
      · exact latest use earlier same
      · rw [List.mem_singleton.mp new] at same
        exact absurd same.symm own
  gone k' absent := by
    have own : k' ≠ k := by
      rintro rfl
      rw [stored] at absent
      cases absent
    rw [others k' own] at absent
    intro use mem same
    rcases List.mem_append.mp mem with earlier | new
    · exact h.gone k' absent use earlier same
    · rw [List.mem_singleton.mp new] at same
      exact absurd same.symm own

/-- A use of a lease renews it. -/
theorem Leased.renew {time : Nat} (h : Leased timeout clock lease uses)
    (found : lease k = some (r, time)) (stored : lease' k = some (r, clock))
    (others : ∀ k', k' ≠ k → lease' k' = lease k') :
    Leased timeout clock lease' (uses ++ [⟨k, r, clock⟩]) := by
  refine h.used ?_ stored others
  intro earlier last
  obtain ⟨last', -⟩ := h.latest k r time found
  obtain rfl := Option.some.inj (last'.symm.trans last)
  exact ⟨h.past _ (mem_of_getLast? last).1, .inl rfl⟩

/-- A key without a lease gets a new one, whatever the resource is. -/
theorem Leased.grant (h : Leased timeout clock lease uses) (absent : lease k = none)
    (stored : lease' k = some (r, clock)) (others : ∀ k', k' ≠ k → lease' k' = lease k') :
    Leased timeout clock lease' (uses ++ [⟨k, r, clock⟩]) := by
  refine h.used ?_ stored others
  intro earlier last
  obtain ⟨mem, own⟩ := mem_of_getLast? last
  exact ⟨h.past _ mem, .inr (h.gone k absent earlier mem own)⟩

/-- As time passes, leases that are past the timeout may end. -/
theorem Leased.expire {now : Nat} (h : Leased timeout clock lease uses) (later : clock ≤ now)
    (ends : ∀ k, lease' k = lease k ∨
      lease' k = none ∧ ∃ r time, lease k = some (r, time) ∧ timeout < now - time) :
    Leased timeout now lease' uses where
  kept := h.kept
  past use mem := (h.past use mem).trans later
  latest k r time found := by
    rcases ends k with same | ⟨ended, -⟩
    · exact h.latest k r time (same.symm.trans found)
    · rw [ended] at found
      cases found
  gone k absent := by
    rcases ends k with same | ⟨-, r, time, found, idle⟩
    · exact (h.gone k (same.symm.trans absent)).mono later
    · intro use mem own
      have := (h.latest k r time found).2 use mem own
      omega

/-- A lease is past the timeout exactly when its key was not used for longer. -/
theorem Leased.idle_iff {now time : Nat} (h : Leased timeout clock lease uses)
    (found : lease k = some (r, time)) : Idle timeout now uses k ↔ timeout < now - time := by
  obtain ⟨last, latest⟩ := h.latest k r time found
  constructor
  · intro idle
    obtain ⟨mem, own⟩ := mem_of_getLast? last
    exact idle _ mem own
  · intro idle use mem own
    have := latest use mem own
    omega

end Leases
