import Mathlib.Data.List.Induction

/-!
# Messages of several senders on one channel

A channel has carried pieces, each from one sender. `partOf i` is what sender
`i` has sent so far. The channel is `Unbroken` when a sender gets its turn only
after every earlier sender is through with its message. The channel has then
carried a prefix of whole messages, one after the other
(`Unbroken.isPrefix_messages`): those of its senders in the order in which they
began, the last of them possibly cut (`Unbroken.flatMap_senders`).
-/

namespace Pieces

variable {ι β : Type*} [DecidableEq ι]

/-- What one sender has contributed. -/
def partOf (i : ι) (pieces : List (ι × List β)) : List β :=
  (pieces.filter (·.1 = i)).flatMap (·.2)

/-- A piece of one sender comes only when the other senders before it have sent
their whole message. -/
def Unbroken (message : ι → List β) (pieces : List (ι × List β)) : Prop :=
  ∀ (earlier : List (ι × List β)) (j : ι) (piece : List β) (later : List (ι × List β)),
    pieces = earlier ++ (j, piece) :: later →
    ∀ i ∈ earlier.map Prod.fst, i ≠ j → partOf i earlier = message i

variable {i j : ι} {piece : List β} {pieces : List (ι × List β)} {message : ι → List β}

@[simp] theorem partOf_concat_self :
    partOf i (pieces ++ [(i, piece)]) = partOf i pieces ++ piece := by
  simp [partOf]

theorem partOf_concat_ne (other : i ≠ j) : partOf i (pieces ++ [(j, piece)]) = partOf i pieces := by
  simp [partOf, Ne.symm other]

theorem partOf_eq_nil (absent : i ∉ pieces.map Prod.fst) : partOf i pieces = [] := by
  have none_ : pieces.filter (fun sent => sent.1 = i) = [] := by
    rw [List.filter_eq_nil_iff]
    intro sent mem
    simp only [decide_eq_true_eq]
    rintro rfl
    exact absent (List.mem_map_of_mem mem)
  rw [partOf, none_]
  rfl

theorem partOf_ne_nil (some_ : ∀ sent ∈ pieces, sent.2 ≠ []) (mem : i ∈ pieces.map Prod.fst) :
    partOf i pieces ≠ [] := by
  obtain ⟨sent, inside, rfl⟩ := List.mem_map.mp mem
  intro nothing
  refine some_ sent inside (List.flatMap_eq_nil_iff.mp nothing sent ?_)
  exact List.mem_filter.mpr ⟨inside, by simp⟩

theorem unbroken_nil : Unbroken message [] := by
  intro earlier j piece later split
  simp at split

theorem unbroken_concat : Unbroken message (pieces ++ [(j, piece)]) ↔
    Unbroken message pieces ∧ ∀ i ∈ pieces.map Prod.fst, i ≠ j → partOf i pieces = message i := by
  constructor
  · intro unbroken
    refine ⟨?_, unbroken pieces j piece [] rfl⟩
    intro earlier k other later split
    exact unbroken earlier k other (later ++ [(j, piece)]) (by simp [split])
  · rintro ⟨before, own⟩ earlier k other later split
    rcases List.eq_nil_or_concat later with rfl | ⟨later, last, rfl⟩
    · obtain ⟨rfl, same⟩ := List.append_inj' split rfl
      obtain ⟨rfl, -⟩ := Prod.mk.inj (List.cons.inj same).1
      exact own
    · have split : pieces ++ [(j, piece)] = (earlier ++ (k, other) :: later) ++ [last] := by
        simpa using split
      exact before earlier k other later (List.append_inj' split rfl).1

/-- Only the messages of those who have sent something matter. -/
theorem Unbroken.congr {message' : ι → List β} (unbroken : Unbroken message pieces)
    (same : ∀ i ∈ pieces.map Prod.fst, message' i = message i) : Unbroken message' pieces := by
  intro earlier j piece later split i mem other
  rw [unbroken earlier j piece later split i mem other]
  refine (same i ?_).symm
  rw [split, List.map_append]
  exact List.mem_append_left _ mem

/-- Leaving the last piece out leaves less of each message. -/
theorem isPrefix_partOf_concat (i : ι) : partOf i pieces <+: partOf i (pieces ++ [(j, piece)]) := by
  by_cases own : i = j
  · subst own
    rw [partOf_concat_self]
    exact List.prefix_append _ _
  · have same : partOf i (pieces ++ [(j, piece)]) = partOf i pieces := partOf_concat_ne own
    simp only [same, List.prefix_refl]

/-- Whoever takes over from another sender has not sent anything before: what it
sent would have been its whole message. -/
theorem Unbroken.partOf_eq_nil_of_ne {k : ι} {other : List β} (own : k ≠ j)
    (before : Unbroken message (pieces ++ [(k, other)])) (some_ : piece ≠ [])
    (part : partOf j (pieces ++ [(k, other)] ++ [(j, piece)]) <+: message j) :
    partOf j (pieces ++ [(k, other)]) = [] := by
  by_contra sent
  have inside : j ∈ pieces.map Prod.fst := by
    by_contra absent
    refine sent (partOf_eq_nil ?_)
    rw [List.map_append, List.mem_append]
    rintro (inside | inside)
    · exact absent inside
    · exact own (List.mem_singleton.mp inside).symm
  have done := (unbroken_concat.mp before).2 j inside (Ne.symm own)
  rw [partOf_concat_self, partOf_concat_ne (Ne.symm own), done] at part
  have := part.length_le
  rw [List.length_append] at this
  exact some_ (List.length_eq_zero_iff.mp (by omega))

/-- The last sender is the only one that may be in the middle of its message. -/
theorem Unbroken.exists_messages (unbroken : Unbroken message (pieces ++ [(j, piece)]))
    (some_ : ∀ sent ∈ pieces ++ [(j, piece)], sent.2 ≠ [])
    (parts : ∀ i, partOf i (pieces ++ [(j, piece)]) <+: message i) :
    ∃ order : List ι, (∀ i ∈ order, i ∈ pieces.map Prod.fst) ∧
      (pieces ++ [(j, piece)]).flatMap Prod.snd =
        order.flatMap message ++ partOf j (pieces ++ [(j, piece)]) := by
  induction pieces using List.reverseRecOn generalizing j piece with
  | nil => exact ⟨[], by simp, by simp [partOf]⟩
  | append_singleton pieces last ih =>
      obtain ⟨k, other⟩ := last
      obtain ⟨before, through⟩ := unbroken_concat.mp unbroken
      obtain ⟨order, mem, sent⟩ := ih before
        (fun sent mem => some_ sent (List.mem_append_left _ mem))
        (fun i => (isPrefix_partOf_concat i).trans (parts i))
      by_cases own : k = j
      · -- the sender goes on with its message
        subst own
        refine ⟨order, fun i inside => ?_, ?_⟩
        · rw [List.map_append]
          exact List.mem_append_left _ (mem i inside)
        · have more : partOf k (pieces ++ [(k, other)] ++ [(k, piece)]) =
              partOf k (pieces ++ [(k, other)]) ++ piece := partOf_concat_self
          rw [List.flatMap_append, sent, more, List.append_assoc]
          simp
      · -- the last sender is through, and the new one has sent nothing before
        have whole : partOf k (pieces ++ [(k, other)]) = message k :=
          through k (by simp) own
        have first : partOf j (pieces ++ [(k, other)]) = [] :=
          before.partOf_eq_nil_of_ne own (some_ (j, piece) (by simp)) (parts j)
        refine ⟨order ++ [k], fun i inside => ?_, ?_⟩
        · rw [List.map_append, List.mem_append]
          rcases List.mem_append.mp inside with inside | inside
          · exact .inl (mem i inside)
          · exact .inr inside
        · have more : partOf j (pieces ++ [(k, other)] ++ [(j, piece)]) = piece := by
            rw [partOf_concat_self, first, List.nil_append]
          rw [List.flatMap_append, sent, more, whole, List.flatMap_append]
          simp

/-- An unbroken channel has carried a prefix of whole messages. -/
theorem Unbroken.isPrefix_messages (unbroken : Unbroken message pieces)
    (some_ : ∀ sent ∈ pieces, sent.2 ≠ []) (parts : ∀ i, partOf i pieces <+: message i) :
    ∃ order : List ι, (∀ i ∈ order, i ∈ pieces.map Prod.fst) ∧
      pieces.flatMap Prod.snd <+: order.flatMap message := by
  rcases List.eq_nil_or_concat pieces with rfl | ⟨pieces, ⟨j, piece⟩, rfl⟩
  · exact ⟨[], by simp, List.nil_prefix⟩
  · rw [List.concat_eq_append] at unbroken some_ parts ⊢
    obtain ⟨order, mem, sent⟩ := unbroken.exists_messages some_ parts
    refine ⟨order ++ [j], fun i inside => ?_, ?_⟩
    · rw [List.map_append, List.mem_append]
      rcases List.mem_append.mp inside with inside | inside
      · exact .inl (mem i inside)
      · exact .inr inside
    · rw [sent, List.flatMap_append]
      exact (List.prefix_append_right_inj _).mpr (by simpa using parts j)

/-- Everyone who has sent something, once, in the order of their first pieces. -/
def senders (pieces : List (ι × List β)) : List ι :=
  pieces.foldl (fun order sent => if sent.1 ∈ order then order else order ++ [sent.1]) []

theorem senders_concat : senders (pieces ++ [(j, piece)]) =
    if j ∈ senders pieces then senders pieces else senders pieces ++ [j] := by
  rw [senders, List.foldl_append]
  rfl

theorem mem_senders : i ∈ senders pieces ↔ i ∈ pieces.map Prod.fst := by
  induction pieces using List.reverseRecOn with
  | nil => exact Iff.rfl
  | append_singleton pieces last ih =>
      obtain ⟨j, piece⟩ := last
      rw [senders_concat, List.map_append, List.mem_append, ← ih, List.map_singleton,
        List.mem_singleton]
      split
      case isTrue known =>
        refine ⟨.inl, ?_⟩
        rintro (mem | rfl)
        · exact mem
        · exact known
      case isFalse => rw [List.mem_append, List.mem_singleton]

theorem nodup_senders (pieces : List (ι × List β)) : (senders pieces).Nodup := by
  induction pieces using List.reverseRecOn with
  | nil => exact List.nodup_nil
  | append_singleton pieces last ih =>
      obtain ⟨j, piece⟩ := last
      rw [senders_concat]
      split
      case isTrue => exact ih
      case isFalse new =>
        refine List.nodup_append.mpr ⟨ih, List.nodup_cons.mpr ⟨List.not_mem_nil, .nil⟩, ?_⟩
        intro i mem last inside same
        exact new (List.mem_singleton.mp inside ▸ same ▸ mem)

/-- Whoever is not the last sender is through. -/
theorem Unbroken.whole_of_ne (unbroken : Unbroken message (pieces ++ [(j, piece)]))
    (mem : i ∈ senders (pieces ++ [(j, piece)])) (other : i ≠ j) :
    partOf i (pieces ++ [(j, piece)]) = message i := by
  rw [mem_senders, List.map_append, List.mem_append, List.map_singleton, List.mem_singleton] at mem
  rw [partOf_concat_ne other]
  exact (unbroken_concat.mp unbroken).2 i (mem.resolve_right other) other

/-- An unbroken channel has carried the messages of its senders in the order in
which they began, up to what the last of them has sent so far. -/
theorem Unbroken.flatMap_senders (unbroken : Unbroken message (pieces ++ [(j, piece)]))
    (some_ : ∀ sent ∈ pieces ++ [(j, piece)], sent.2 ≠ [])
    (parts : ∀ i, partOf i (pieces ++ [(j, piece)]) <+: message i) :
    ∃ order : List ι, senders (pieces ++ [(j, piece)]) = order ++ [j] ∧
      (pieces ++ [(j, piece)]).flatMap Prod.snd =
        order.flatMap message ++ partOf j (pieces ++ [(j, piece)]) := by
  induction pieces using List.reverseRecOn generalizing j piece with
  | nil => exact ⟨[], rfl, by simp [partOf]⟩
  | append_singleton pieces last ih =>
      obtain ⟨k, other⟩ := last
      obtain ⟨before, through⟩ := unbroken_concat.mp unbroken
      obtain ⟨order, began, sent⟩ := ih before
        (fun sent mem => some_ sent (List.mem_append_left _ mem))
        (fun i => (isPrefix_partOf_concat i).trans (parts i))
      by_cases own : k = j
      · -- the sender goes on with its message
        subst own
        refine ⟨order, ?_, ?_⟩
        · rw [senders_concat, if_pos (by rw [began]; simp), began]
        · have more : partOf k (pieces ++ [(k, other)] ++ [(k, piece)]) =
              partOf k (pieces ++ [(k, other)]) ++ piece := partOf_concat_self
          rw [List.flatMap_append, sent, more, List.append_assoc]
          simp
      · -- the last sender is through, and the new one has sent nothing before
        have whole : partOf k (pieces ++ [(k, other)]) = message k :=
          through k (by simp) own
        have first : partOf j (pieces ++ [(k, other)]) = [] :=
          before.partOf_eq_nil_of_ne own (some_ (j, piece) (by simp)) (parts j)
        have new : j ∉ senders (pieces ++ [(k, other)]) := by
          intro mem
          exact partOf_ne_nil (fun sent mem => some_ sent (List.mem_append_left _ mem))
            (mem_senders.mp mem) first
        refine ⟨order ++ [k], ?_, ?_⟩
        · rw [senders_concat, if_neg new, began]
        · have more : partOf j (pieces ++ [(k, other)] ++ [(j, piece)]) = piece := by
            rw [partOf_concat_self, first, List.nil_append]
          rw [List.flatMap_append, sent, more, whole, List.flatMap_append]
          simp

/-- All senders of an unbroken channel are through, or all but the last. -/
theorem Unbroken.whole_or_cut (unbroken : Unbroken message pieces)
    (some_ : ∀ sent ∈ pieces, sent.2 ≠ []) (parts : ∀ i, partOf i pieces <+: message i) :
    ((∀ i ∈ senders pieces, partOf i pieces = message i) ∧
      pieces.flatMap Prod.snd = (senders pieces).flatMap message) ∨
    ∃ (order : List ι) (j : ι), senders pieces = order ++ [j] ∧
      (∀ i ∈ order, partOf i pieces = message i) ∧ partOf j pieces ≠ message j ∧
      pieces.flatMap Prod.snd = order.flatMap message ++ partOf j pieces := by
  rcases List.eq_nil_or_concat pieces with rfl | ⟨pieces, ⟨j, piece⟩, rfl⟩
  · exact .inl ⟨fun i mem => absurd mem List.not_mem_nil, rfl⟩
  · rw [List.concat_eq_append] at unbroken some_ parts ⊢
    obtain ⟨order, began, sent⟩ := unbroken.flatMap_senders some_ parts
    have others : ∀ i ∈ order, partOf i (pieces ++ [(j, piece)]) = message i := by
      intro i mem
      have distinct := nodup_senders (pieces ++ [(j, piece)])
      rw [began] at distinct
      refine unbroken.whole_of_ne (began ▸ List.mem_append_left _ mem) ?_
      exact (List.nodup_append.mp distinct).2.2 i mem j List.mem_cons_self
    by_cases whole : partOf j (pieces ++ [(j, piece)]) = message j
    · refine .inl ⟨fun i mem => ?_, ?_⟩
      · rw [began, List.mem_append, List.mem_singleton] at mem
        rcases mem with mem | rfl
        · exact others i mem
        · exact whole
      · rw [sent, whole, began, List.flatMap_append, List.flatMap_singleton]
    · exact .inr ⟨order, j, began, others, whole, sent⟩

end Pieces
