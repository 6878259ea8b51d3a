import Mathlib.Data.List.Nodup

/-!
# A channel with a fixed number of places

Places of a bounded channel are taken by what is in it, or promised to senders
that have waited. A sender that finds no free place waits; a place that becomes
free is promised to the sender that has waited longest. `Fair` says that no more
places are given away than there are and that nobody waits while one is free.
`Eased` is what a single freed place leaves of it, until it is handed over.
-/

namespace Places

variable {ι : Type*}

/-- Of `cap` places, `used` are taken and the senders in `granted` hold a promise. -/
structure Fair (cap used : Nat) (waiting granted : List ι) : Prop where
  bounded : used + granted.length ≤ cap
  busy : waiting ≠ [] → cap ≤ used + granted.length
  once : (waiting ++ granted).Nodup

/-- One place may be free although somebody waits. -/
structure Eased (cap used : Nat) (waiting granted : List ι) : Prop where
  bounded : used + granted.length ≤ cap
  busy : waiting ≠ [] → cap ≤ used + granted.length + 1
  once : (waiting ++ granted).Nodup

variable {cap used : Nat} {waiting granted : List ι} {i : ι}

theorem fair_empty : Fair cap 0 ([] : List ι) [] where
  bounded := Nat.zero_le _
  busy some_ := absurd rfl some_
  once := List.nodup_nil

/-- Nobody waits where a place is free. -/
theorem Fair.nobody_waits (h : Fair cap used waiting granted) (free : used + granted.length < cap) :
    waiting = [] := by
  by_contra some_
  have busy := h.busy some_
  omega

/-- A free place is taken. -/
theorem Fair.take (h : Fair cap used waiting granted) (free : used + granted.length < cap) :
    Fair cap (used + 1) waiting granted where
  bounded := by omega
  busy some_ := absurd (h.nobody_waits free) some_
  once := h.once

/-- A sender that finds no free place waits behind the others. -/
theorem Fair.wait (h : Fair cap used waiting granted) (full : ¬used + granted.length < cap)
    (fresh : i ∉ waiting) (unpromised : i ∉ granted) :
    Fair cap used (waiting ++ [i]) granted where
  bounded := h.bounded
  busy _ := Nat.le_of_not_lt full
  once := by
    rw [List.append_assoc, List.singleton_append, List.nodup_middle, List.nodup_cons,
      List.mem_append, not_or]
    exact ⟨⟨fresh, unpromised⟩, h.once⟩

/-- Something is taken out of the channel. -/
theorem Fair.free (h : Fair cap (used + 1) waiting granted) : Eased cap used waiting granted where
  bounded := by have := h.bounded; omega
  busy some_ := by have := h.busy some_; omega
  once := h.once

/-- A freed place goes to the sender that has waited longest. -/
theorem Eased.hand {rest : List ι} (h : Eased cap used (i :: rest) granted)
    (free : used + granted.length < cap) : Fair cap used rest (granted ++ [i]) where
  bounded := by
    rw [List.length_append, List.length_singleton]
    omega
  busy _ := by
    have busy := h.busy (List.cons_ne_nil _ _)
    rw [List.length_append, List.length_singleton]
    omega
  once := by
    have once := h.once
    rw [List.cons_append, List.nodup_cons] at once
    rw [← List.append_assoc]
    exact once.2.append (List.nodup_singleton i)
      (List.disjoint_singleton.mpr once.1)

/-- A place that nobody waits for stays free, and one that is not free is not
handed over. -/
theorem Eased.keep (h : Eased cap used waiting granted)
    (none_ : waiting = [] ∨ ¬used + granted.length < cap) : Fair cap used waiting granted where
  bounded := h.bounded
  busy some_ := by
    rcases none_ with none_ | full
    · exact absurd none_ some_
    · exact Nat.le_of_not_lt full
  once := h.once

variable [DecidableEq ι]

/-- A promised place is taken. -/
theorem Fair.claim (h : Fair cap used waiting granted) (promised : i ∈ granted) :
    Fair cap (used + 1) waiting (granted.erase i) := by
  have length := List.length_erase_of_mem promised
  have some_ := List.length_pos_of_mem promised
  refine ⟨?_, ?_, ?_⟩
  · have := h.bounded
    omega
  · intro wait
    have := h.busy wait
    omega
  · exact h.once.sublist (List.Sublist.append_left (List.erase_sublist ..) waiting)

/-- A sender that goes away gives up its place, or its claim to one. -/
theorem Fair.quit (h : Fair cap used waiting granted) (i : ι) :
    Eased cap used (waiting.erase i) (granted.erase i) where
  bounded := by
    have := h.bounded
    have := (List.erase_sublist (a := i) (l := granted)).length_le
    omega
  busy some_ := by
    have wait : waiting ≠ [] := by
      rintro rfl
      exact some_ rfl
    have := h.busy wait
    have := List.length_erase (a := i) (l := granted)
    split at this <;> omega
  once := h.once.sublist (List.Sublist.append (List.erase_sublist ..) (List.erase_sublist ..))

/-- It is then nowhere among the senders. -/
theorem Fair.not_mem_quit (h : Fair cap used waiting granted) (i : ι) :
    i ∉ waiting.erase i ++ granted.erase i := by
  have once := List.nodup_append.mp h.once
  rw [List.mem_append, once.1.mem_erase_iff, once.2.1.mem_erase_iff]
  rintro (⟨different, -⟩ | ⟨different, -⟩) <;> exact different rfl

end Places
