import RustProxy.Base.Table

/-!
# Background tasks owned by the entries of a table

A component keeps a table and spawns one task for each entry it makes. The
entry holds the task's cancellation token; removing an entry without cancelling
its token leaves a task that nobody can stop. Tasks are listed in the order of
spawning and a token is a position in that list.

`Linked` says that tokens and tasks match: every entry's task is its own and
uncancelled, every running uncancelled task has its entry. It is kept by
opening an entry under a free key, by rewriting an entry in place, by removing
entries whose tokens are cancelled and by removing an entry whose task has
ended, which is everything a component may do without leaking a task.
-/

namespace Spawn

/-- A spawned task: the key it was spawned for, what it was given, whether its
token has been cancelled and whether it has returned. -/
structure Task (K L : Type*) where
  key : K
  label : L
  cancelled : Bool
  ended : Bool
  deriving DecidableEq, Repr

variable {K L V : Type*}

def Task.fresh (key : K) (label : L) : Task K L := ⟨key, label, false, false⟩

/-- A task that runs and has not been told to stop. -/
def Task.Loose (task : Task K L) : Prop := task.ended = false ∧ task.cancelled = false

/-- Cancel the given tokens. -/
def cancel (tokens : List Nat) (tasks : List (Task K L)) : List (Task K L) :=
  tasks.mapIdx fun i task => if i ∈ tokens then { task with cancelled := true } else task

/-- The task at a position returns. -/
def finish (i : Nat) (tasks : List (Task K L)) : List (Task K L) :=
  tasks.modify i fun task => { task with ended := true }

theorem getElem?_cancel {tokens : List Nat} {tasks : List (Task K L)} {i : Nat} {task : Task K L} :
    (cancel tokens tasks)[i]? = some task ↔ ∃ before, tasks[i]? = some before ∧
      task = if i ∈ tokens then { before with cancelled := true } else before := by
  simp only [cancel, List.getElem?_mapIdx, Option.map_eq_some_iff]
  exact exists_congr fun before => and_congr_right fun _ => eq_comm

theorem getElem?_finish {tasks : List (Task K L)} {i j : Nat} {task : Task K L} :
    (finish i tasks)[j]? = some task ↔ ∃ before, tasks[j]? = some before ∧
      task = if i = j then { before with ended := true } else before := by
  simp only [finish, List.getElem?_modify, Option.map_eq_map, Option.map_eq_some_iff]
  exact exists_congr fun before => and_congr_right fun _ => eq_comm

/-- The labels of the tasks, which never change. -/
@[simp, grind =] theorem labels_cancel (tokens : List Nat) (tasks : List (Task K L)) :
    (cancel tokens tasks).map (·.label) = tasks.map (·.label) := by
  apply List.ext_getElem?
  intro i
  rw [List.getElem?_map, List.getElem?_map, cancel, List.getElem?_mapIdx, Option.map_map]
  congr 1
  funext task
  simp only [Function.comp_apply]
  split <;> rfl

@[simp, grind =] theorem labels_finish (i : Nat) (tasks : List (Task K L)) :
    (finish i tasks).map (·.label) = tasks.map (·.label) := by
  apply List.ext_getElem?
  intro j
  rw [List.getElem?_map, List.getElem?_map, finish, List.getElem?_modify, Option.map_eq_map,
    Option.map_map]
  congr 1
  funext task
  simp only [Function.comp_apply]
  split <;> rfl

variable [DecidableEq K] {token : V → Nat} {table : Table K V} {tasks : List (Task K L)}

/-- The table and the tasks point at each other. -/
structure Linked (token : V → Nat) (table : Table K V) (tasks : List (Task K L)) : Prop where
  owned : ∀ k entry, table.lookup k = some entry →
    ∃ task, tasks[token entry]? = some task ∧ task.key = k ∧ task.cancelled = false
  accounted : ∀ i task, tasks[i]? = some task → task.Loose →
    ∃ entry, table.lookup task.key = some entry ∧ token entry = i

/-- The task of the entry under a key has ended by itself. -/
def OwnerEnded (token : V → Nat) (table : Table K V) (tasks : List (Task K L)) (k : K) : Prop :=
  ∃ entry task, table.lookup k = some entry ∧ tasks[token entry]? = some task ∧ task.ended = true

namespace Linked

theorem empty : Linked token (∅ : Table K V) ([] : List (Task K L)) where
  owned := by simp
  accounted := by simp

/-- Two entries never share a token. -/
theorem token_injective (h : Linked token table tasks) {k k' : K} {v v' : V}
    (found : table.lookup k = some v) (found' : table.lookup k' = some v')
    (same : token v = token v') : k = k' := by
  obtain ⟨task, get, rfl, _⟩ := h.owned k v found
  obtain ⟨task', get', rfl, _⟩ := h.owned k' v' found'
  rw [same, get'] at get
  rw [Option.some.inj get]

/-- There is at most one loose task for a key. -/
theorem loose_unique (h : Linked token table tasks) {i j : Nat} {task other : Task K L}
    (get : tasks[i]? = some task) (get' : tasks[j]? = some other) (loose : task.Loose)
    (loose' : other.Loose) (same : task.key = other.key) : i = j := by
  obtain ⟨entry, found, rfl⟩ := h.accounted i task get loose
  obtain ⟨entry', found', rfl⟩ := h.accounted j other get' loose'
  rw [same, found'] at found
  rw [Option.some.inj found]

/-- Removing entries together with their tokens. -/
theorem retain (h : Linked token table tasks) (keep : K → V → Bool) :
    Linked token (table.retain keep) (cancel ((table.dropped keep).map token) tasks) where
  owned := by
    intro k entry found
    obtain ⟨present, kept⟩ := Table.lookup_retain_eq_some.mp found
    obtain ⟨task, get, key, uncancelled⟩ := h.owned k entry present
    have untouched : token entry ∉ (table.dropped keep).map token := by
      intro member
      obtain ⟨other, isDropped, same⟩ := List.mem_map.mp member
      obtain ⟨k', found', fails⟩ := Table.mem_dropped_iff.mp isDropped
      obtain rfl := h.token_injective found' present same
      obtain rfl : entry = other := Option.some.inj (present.symm.trans found')
      rw [kept] at fails
      cases fails
    exact ⟨task, getElem?_cancel.mpr ⟨task, get, by rw [if_neg untouched]⟩, key, uncancelled⟩
  accounted := by
    intro i task get loose
    obtain ⟨before, earlier, rfl⟩ := getElem?_cancel.mp get
    split at loose
    · exact absurd loose.2 (by simp)
    · rename_i untouched
      rw [if_neg untouched]
      obtain ⟨entry, present, own⟩ := h.accounted i before earlier loose
      refine ⟨entry, Table.lookup_retain_eq_some.mpr ⟨present, ?_⟩, own⟩
      by_contra fails
      apply untouched
      rw [← own]
      exact List.mem_map_of_mem
        (Table.mem_dropped_iff.mpr ⟨_, present, Bool.eq_false_iff.mpr fails⟩)

/-- Opening an entry under a free key, with the task spawned for it. -/
theorem opened (h : Linked token table tasks) {k : K} (free : table.lookup k = none) {entry : V}
    (own : token entry = tasks.length) (label : L) :
    Linked token (table.insert k entry) (tasks ++ [Task.fresh k label]) where
  owned := by
    intro k' other found
    rcases Table.lookup_insert_eq_some.mp found with ⟨rfl, rfl⟩ | ⟨_, present⟩
    · exact ⟨Task.fresh k' label, by simp [own], rfl, rfl⟩
    · obtain ⟨task, get, key, uncancelled⟩ := h.owned k' other present
      have inside : token other < tasks.length := (List.getElem?_eq_some_iff.mp get).1
      exact ⟨task, by rw [List.getElem?_append_left inside, get], key, uncancelled⟩
  accounted := by
    intro i task get loose
    by_cases inside : i < tasks.length
    · rw [List.getElem?_append_left inside] at get
      obtain ⟨other, present, mine⟩ := h.accounted i task get loose
      have different : task.key ≠ k := by
        intro same
        rw [same, free] at present
        cases present
      exact ⟨other, by rw [AList.lookup_insert_ne different, present], mine⟩
    · have last : i = tasks.length := by
        have := (List.getElem?_eq_some_iff.mp get).1
        simp only [List.length_append, List.length_singleton] at this
        omega
      subst last
      obtain rfl : _ = task := by simpa using get
      exact ⟨entry, AList.lookup_insert _, own⟩

/-- Rewriting an entry in place, with its token. -/
theorem store (h : Linked token table tasks) {k : K} {entry updated : V}
    (present : table.lookup k = some entry) (same : token updated = token entry) :
    Linked token (table.insert k updated) tasks where
  owned := by
    intro k' other found
    rcases Table.lookup_insert_eq_some.mp found with ⟨rfl, rfl⟩ | ⟨_, found⟩
    · rw [same]
      exact h.owned k' entry present
    · exact h.owned k' other found
  accounted := by
    intro i task get loose
    obtain ⟨other, found, own⟩ := h.accounted i task get loose
    by_cases key : task.key = k
    · subst key
      obtain rfl := Option.some.inj (present.symm.trans found)
      exact ⟨updated, AList.lookup_insert _, same.trans own⟩
    · exact ⟨other, by rw [AList.lookup_insert_ne key, found], own⟩

/-- Removing an entry whose task has ended loses no task. -/
theorem erase (h : Linked token table tasks) {k : K} (ended : OwnerEnded token table tasks k) :
    Linked token (table.erase k) tasks where
  owned := by
    intro k' other found
    exact h.owned k' other (Table.lookup_erase_eq_some.mp found).2
  accounted := by
    intro i other getOther loose
    obtain ⟨entry, task, present, get, returned⟩ := ended
    obtain ⟨found, present', own⟩ := h.accounted i other getOther loose
    refine ⟨found, Table.lookup_erase_eq_some.mpr ⟨?_, present'⟩, own⟩
    intro same
    subst same
    obtain rfl := Option.some.inj (present.symm.trans present')
    rw [own, getOther] at get
    rw [← Option.some.inj get, loose.1] at returned
    cases returned

/-- A task that returns only stops being loose. -/
theorem finish (h : Linked token table tasks) (i : Nat) :
    Linked token table (Spawn.finish i tasks) where
  owned := by
    intro k entry found
    obtain ⟨task, get, key, uncancelled⟩ := h.owned k entry found
    refine ⟨_, getElem?_finish.mpr ⟨task, get, rfl⟩, ?_, ?_⟩
    · split <;> exact key
    · split <;> exact uncancelled
  accounted := by
    intro j task get loose
    obtain ⟨before, earlier, rfl⟩ := getElem?_finish.mp get
    split at loose
    · exact absurd loose.1 (by simp)
    · rename_i different
      rw [if_neg different]
      exact h.accounted j before earlier loose

/-- Cancelling the token of every entry leaves no loose task. -/
theorem not_loose_of_cancel_all (h : Linked token table tasks) {i : Nat} {task : Task K L}
    (get : (cancel (table.entries.map fun e => token e.2) tasks)[i]? = some task) :
    ¬task.Loose := by
  obtain ⟨before, earlier, rfl⟩ := getElem?_cancel.mp get
  intro loose
  split at loose
  · exact absurd loose.2 (by simp)
  · rename_i untouched
    obtain ⟨entry, found, rfl⟩ := h.accounted i before earlier loose
    apply untouched
    exact List.mem_map.mpr ⟨⟨before.key, entry⟩, Table.mem_entries_iff.mpr found, rfl⟩

end Linked

end Spawn
