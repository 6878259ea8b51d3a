import Mathlib.Data.List.AList
import Mathlib.Data.List.Dedup

/-!
# Keyed tables and a bounded table in order of recency

`Table` is mathlib's `AList` at a constant value type, with the one operation a
hash map has and `AList` does not: `retain`, which keeps the entries that pass
a test.

`Lru` is a table of bounded size whose entries stand in order of recency, the
most recently used first. Putting a new key into a full table drops the last
entry; putting a present key replaces its value and drops nothing. Reading
through a mutable reference counts as a use.
-/

/-- A finite map with at most one value for a key. -/
abbrev Table (K V : Type*) := AList (fun _ : K => V)

namespace Table

variable {K V : Type*}

/-- Keep the entries that pass the test. -/
def retain (keep : K → V → Bool) (t : Table K V) : Table K V where
  entries := t.entries.filter fun e => keep e.1 e.2
  nodupKeys := t.nodupKeys.sublist List.filter_sublist

/-- The values of the entries that fail the test, as `retain` meets them. -/
def dropped (keep : K → V → Bool) (t : Table K V) : List V :=
  (t.entries.filter fun e => !keep e.1 e.2).map fun e => e.2

@[simp] theorem entries_eq_nil_iff {t : Table K V} : t.entries = [] ↔ t = ∅ := by
  rw [AList.ext_iff, AList.empty_entries]

@[simp] theorem mem_entries_iff [DecidableEq K] {t : Table K V} {k : K} {v : V} :
    (⟨k, v⟩ : (_ : K) × V) ∈ t.entries ↔ t.lookup k = some v :=
  AList.mem_lookup_iff.symm

@[simp, grind =] theorem lookup_retain_eq_some [DecidableEq K] {keep : K → V → Bool} {t : Table K V}
    {k : K} {v : V} :
    (t.retain keep).lookup k = some v ↔ t.lookup k = some v ∧ keep k v = true := by
  rw [← mem_entries_iff, ← mem_entries_iff, retain, List.mem_filter]

@[simp, grind =] theorem mem_dropped_iff [DecidableEq K] {keep : K → V → Bool}
    {t : Table K V} {v : V} :
    v ∈ t.dropped keep ↔ ∃ k, t.lookup k = some v ∧ keep k v = false := by
  simp only [dropped, List.mem_map, List.mem_filter, Bool.not_eq_true']
  constructor
  · rintro ⟨⟨k, w⟩, ⟨member, fails⟩, rfl⟩
    exact ⟨k, mem_entries_iff.mp member, fails⟩
  · rintro ⟨k, found, fails⟩
    exact ⟨⟨k, v⟩, ⟨mem_entries_iff.mpr found, fails⟩, rfl⟩

@[simp, grind =] theorem lookup_insert_eq_some [DecidableEq K] {t : Table K V}
    {k k' : K} {v v' : V} :
    (t.insert k' v').lookup k = some v ↔
      (k = k' ∧ v = v') ∨ (k ≠ k' ∧ t.lookup k = some v) := by
  by_cases same : k = k'
  · subst same
    simp [eq_comm]
  · simp [AList.lookup_insert_ne same, same]

@[simp, grind =] theorem lookup_erase_eq_some [DecidableEq K] {t : Table K V} {k k' : K} {v : V} :
    (t.erase k').lookup k = some v ↔ k ≠ k' ∧ t.lookup k = some v := by
  by_cases same : k = k'
  · subst same
    simp
  · simp [AList.lookup_erase_ne same, same]

end Table

/-- At most `cap` entries, the most recently used first. -/
structure Lru (K V : Type*) (cap : Nat) where
  table : Table K V
  bounded : table.entries.length ≤ cap

namespace Lru

variable {K V : Type*} [DecidableEq K] {cap : Nat}

def empty : Lru K V cap := ⟨∅, Nat.zero_le _⟩

def get? (c : Lru K V cap) (k : K) : Option V := c.table.lookup k

def contains (c : Lru K V cap) (k : K) : Bool := (c.get? k).isSome

/-- The entry moves to the front; the last one falls out when there are too many. -/
def put (c : Lru K V cap) (k : K) (v : V) : Lru K V cap where
  table :=
    ⟨((c.table.insert k v).entries).take cap,
      (c.table.insert k v).nodupKeys.sublist (List.take_sublist _ _)⟩
  bounded := List.length_take_le _ _

/-- Look a key up for modification, which makes its entry the most recent one. -/
def getMut (c : Lru K V cap) (k : K) : Option (V × Lru K V cap) :=
  (c.get? k).map fun v => (v, c.put k v)

def pop (c : Lru K V cap) (k : K) : Lru K V cap where
  table := c.table.erase k
  bounded := Nat.le_trans (List.kerase_sublist k c.table.entries).length_le c.bounded

@[simp, grind =] theorem get?_empty (k : K) : (empty : Lru K V cap).get? k = none := rfl

theorem get?_put_self (c : Lru K V cap) (k : K) (v : V) (room : 0 < cap) :
    (c.put k v).get? k = some v := by
  obtain ⟨n, rfl⟩ : ∃ n, cap = n + 1 := ⟨cap - 1, by omega⟩
  rw [get?, ← Table.mem_entries_iff]
  simp [put, AList.entries_insert]

/-- Putting a value that is there changes the order only. -/
theorem get?_put_present {c : Lru K V cap} {k : K} {v : V} (present : c.get? k = some v) (k' : K) :
    (c.put k v).get? k' = c.get? k' := by
  have member : k ∈ c.table.entries.keys :=
    List.mem_keys_of_mem (Table.mem_entries_iff.mpr present)
  have length : (c.table.insert k v).entries.length = c.table.entries.length := by
    obtain ⟨w, before, behind, -, entries, erased⟩ := List.exists_of_kerase member
    rw [AList.entries_insert, erased, entries]
    simp
    omega
  have table : (c.put k v).table = c.table.insert k v := by
    apply AList.ext
    exact List.take_of_length_le (by rw [length]; exact c.bounded)
  by_cases same : k' = k
  · subst same
    rw [get?, table, AList.lookup_insert, present]
  · rw [get?, table, AList.lookup_insert_ne same, get?]

/-- A put never invents an entry: another key keeps its value or falls out. -/
@[grind →] theorem get?_of_get?_put {c : Lru K V cap} {k k' : K} {v v' : V}
    (found : (c.put k v).get? k' = some v') :
    (k' = k ∧ v' = v) ∨ (k' ≠ k ∧ c.get? k' = some v') := by
  rw [get?, ← Table.mem_entries_iff] at found
  have member : (⟨k', v'⟩ : (_ : K) × V) ∈ (c.table.insert k v).entries :=
    List.mem_of_mem_take found
  exact Table.lookup_insert_eq_some.mp (Table.mem_entries_iff.mp member)

@[grind →] theorem get?_of_get?_pop {c : Lru K V cap} {k k' : K} {v : V}
    (found : (c.pop k).get? k' = some v) : k' ≠ k ∧ c.get? k' = some v :=
  Table.lookup_erase_eq_some.mp found

@[simp, grind =] theorem getMut_eq_some {c d : Lru K V cap} {k : K} {v : V} :
    c.getMut k = some (v, d) ↔ c.get? k = some v ∧ d = c.put k v := by
  simp only [getMut, Option.map_eq_some_iff, Prod.mk.injEq]
  constructor
  · rintro ⟨w, found, rfl, rfl⟩
    exact ⟨found, rfl⟩
  · rintro ⟨found, rfl⟩
    exact ⟨v, found, rfl, rfl⟩

/-- The key has the value, and only keys among `ids` were used after it. -/
def Recent (c : Lru K V cap) (ids : List K) (k : K) (v : V) : Prop :=
  ∃ front back, c.table.entries = front ++ ⟨k, v⟩ :: back ∧ ∀ e ∈ front, e.1 ∈ ids

variable {c : Lru K V cap} {ids : List K} {k k' : K} {v v' : V}

theorem Recent.get? (h : c.Recent ids k v) : c.get? k = some v := by
  obtain ⟨front, back, entries, -⟩ := h
  rw [Lru.get?, ← Table.mem_entries_iff, entries]
  simp

theorem recent_put_self (room : 0 < cap) : (c.put k v).Recent ids k v := by
  obtain ⟨n, rfl⟩ : ∃ n, cap = n + 1 := ⟨cap - 1, by omega⟩
  refine ⟨[], (c.table.entries.kerase k).take n, ?_, by simp⟩
  simp [put, AList.entries_insert]

/-- Erasing another key keeps the entry, with no more in front of it. -/
theorem kerase_split (front back : List ((_ : K) × V)) (other : k' ≠ k) :
    ∃ front' back', (front ++ ⟨k, v⟩ :: back).kerase k' = front' ++ ⟨k, v⟩ :: back' ∧
      front'.Sublist front := by
  by_cases mem : k' ∈ front.keys
  · exact ⟨front.kerase k', back, List.kerase_append_left mem, List.kerase_sublist k' front⟩
  · refine ⟨front, back.kerase k', ?_, List.Sublist.refl front⟩
    rw [List.kerase_append_right mem, List.kerase_cons_ne other]

/-- An entry stays as long as fewer than `cap` other keys are used. -/
theorem Recent.put_ne (h : c.Recent ids k v) (other : k' ≠ k) (mem : k' ∈ ids)
    (few : ids.dedup.length < cap) : (c.put k' v').Recent ids k v := by
  obtain ⟨front, back, entries, ahead⟩ := h
  obtain ⟨front', back', erased, sublist⟩ := kerase_split (v := v) front back other
  have inserted : (c.table.insert k' v').entries = (⟨k', v'⟩ :: front') ++ ⟨k, v⟩ :: back' := by
    rw [AList.entries_insert, entries, erased]
    rfl
  have inside : ∀ e ∈ (⟨k', v'⟩ : (_ : K) × V) :: front', e.1 ∈ ids := by
    intro e member
    rcases List.mem_cons.mp member with rfl | member
    · exact mem
    · exact ahead e (sublist.subset member)
  -- the keys in front are different ones of `ids`
  have short : ((⟨k', v'⟩ : (_ : K) × V) :: front').length < cap := by
    have nodup := (c.table.insert k' v').nodupKeys
    rw [inserted, List.NodupKeys, List.keys, List.map_append] at nodup
    have distinct := (List.nodup_append.mp nodup).1
    have subset : List.map Sigma.fst (⟨k', v'⟩ :: front') ⊆ ids.dedup := by
      intro key member
      obtain ⟨e, found, rfl⟩ := List.mem_map.mp member
      exact List.mem_dedup.mpr (inside e found)
    have bound := (List.subperm_of_subset distinct subset).length_le
    rw [List.length_map] at bound
    omega
  refine ⟨⟨k', v'⟩ :: front', back'.take (cap - (front'.length + 1) - 1), ?_, inside⟩
  show (c.table.insert k' v').entries.take cap = _
  rw [List.length_cons] at short
  rw [inserted, List.take_append, List.take_of_length_le (by rw [List.length_cons]; omega),
    List.length_cons, ← List.take_succ_cons]
  congr 2
  omega

theorem Recent.pop_ne (h : c.Recent ids k v) (other : k' ≠ k) : (c.pop k').Recent ids k v := by
  obtain ⟨front, back, entries, ahead⟩ := h
  obtain ⟨front', back', erased, sublist⟩ := kerase_split (v := v) front back other
  refine ⟨front', back', ?_, fun e member => ahead e (sublist.subset member)⟩
  show c.table.entries.kerase k' = _
  rw [entries, erased]

end Lru
