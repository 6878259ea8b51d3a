import RustProxy.AnyTls.Names
import RustProxy.Base.Transition

/-!
# Closing a session

`stream_tasks` holds the handles of the stream tasks so that `close` can abort
them. Four orders of steps defeat it. A SYN may reuse the id of a stream whose
task is still running, and the older handle is then replaced. A SYN that is
still buffered when another task closes the session opens a stream after the
maps were emptied, or stores its handle after the handles were drained. And
`run` does not wait for a `close` that somebody else has called, which may
still be under way, or may have been cut short when its caller was aborted.

In every run that avoids them, a session that has returned has empty maps, and
each of its tasks has finished or was aborted.
-/

namespace RustProxy.AnyTls

open Session

/-- `close` has aborted the tasks. -/
def CloseAt.drained : CloseAt → Bool
  | .uncalled | .draining _ => false
  | .clearing _ | .shuttingWriter _ | .done | .abandoned _ => true

/-- `close` has emptied `streams` too. -/
def CloseAt.cleared : CloseAt → Bool
  | .shuttingWriter _ | .done => true
  | .abandoned cleared => cleared
  | .uncalled | .draining _ | .clearing _ => false

/-- A session that has returned is empty, and no task of it goes on by itself. -/
def ShutDown (s : Session) : Prop :=
  s.recv = .returned → s.streams = ∅ ∧ s.streamTasks = ∅ ∧
    ∀ inst ∈ s.instances, inst.isOver = true ∨ inst.aborted = true

instance : DecidablePred ShutDown := fun s =>
  decidable_of_iff (s.recv = .returned → s.streams.entries = [] ∧ s.streamTasks.entries = [] ∧
    ∀ inst ∈ s.instances, inst.isOver = true ∨ inst.aborted = true)
    (by simp only [ShutDown, Table.entries_eq_nil_iff])

/-- The steps that keep every task within reach of `close`: a SYN is accepted
before the handles are drained and when no task of its id is left, its handle
is stored before they are drained, and the receive loop does not leave a
session that another task has closed before the maps are empty. -/
def orderly (s : Session) : Event → Bool
  | .recv .streamsLocked =>
      match s.recv with
      | .synLookup streamId => (s.streams.lookup streamId).isSome ||
          !s.close.drained && s.instances.all fun inst => inst.id ≠ streamId || inst.isOver
      | _ => true
  | .recv .handleStored => !s.close.drained
  | .recv event => !leaves s event || !s.isClosed || s.close.cleared
  | _ => true

/-- Every task that goes on by itself is within reach of `close`. -/
structure Accounted (s : Session) : Prop where
  unaborted : s.close.drained = false → ∀ (i : Nat) (inst : Instance),
    s.instances[i]? = some inst → inst.aborted = false
  handled : s.close.drained = false → ∀ (i : Nat) (inst : Instance),
    s.instances[i]? = some inst → inst.isOver = false →
      s.streamTasks.lookup inst.id = some i ∨ s.recv = .synStore inst.id i
  stopped : s.close.drained = true → ∀ (i : Nat) (inst : Instance),
    s.instances[i]? = some inst →
      inst.isOver = true ∨ inst.aborted = true ∨ s.recv = .synStore inst.id i
  drained : s.close.drained = true → s.streamTasks = ∅
  cleared : s.close.cleared = true → s.streams = ∅
  fresh : ∀ streamId i, s.recv = .synStore streamId i → ∀ (j : Nat) (inst : Instance),
    s.instances[j]? = some inst → inst.id = streamId → j ≠ i → inst.isOver = true
  alone : ∀ (i j : Nat) (inst other : Instance), s.instances[i]? = some inst →
    s.instances[j]? = some other → inst.id = other.id → inst.isOver = false → other.isOver = false →
      i = j
  returned : s.recv = .returned → s.close.cleared = true
  waits : s.close.closer = some .run → s.recv = .closing

theorem drained_of_cleared {close : CloseAt} (h : close.cleared = true) :
    close.drained = true := by
  cases close <;> first | rfl | cases h

theorem Accounted.shutDown {s : Session} (h : Accounted s) : ShutDown s := by
  intro returned
  have cleared := h.returned returned
  have drained := drained_of_cleared cleared
  refine ⟨h.cleared cleared, h.drained drained, ?_⟩
  intro inst mem
  obtain ⟨i, get⟩ := List.mem_iff_getElem?.mp mem
  rcases h.stopped drained i inst get with isOver | aborted | storing
  · exact .inl isOver
  · exact .inr aborted
  · rw [returned] at storing
    cases storing

theorem accounted_start : Accounted Session.start where
  unaborted _ i inst get := by simp [start] at get
  handled _ i inst get := by simp [start] at get
  stopped drained := by simp [start, CloseAt.drained] at drained
  drained _ := rfl
  cleared _ := rfl
  fresh streamId i storing := by simp [start] at storing
  alone i j inst other get := by simp [start] at get
  returned returned := by simp [start] at returned
  waits closing := by simp [start, CloseAt.closer] at closing

variable {s t : Session}

/-- The instances of `t` are those of `s`, at most further on. -/
def Follows (s t : Session) : Prop :=
  ∀ (j : Nat) (y : Instance), t.instances[j]? = some y → ∃ x, s.instances[j]? = some x ∧
    y.id = x.id ∧ y.aborted = x.aborted ∧ (x.isOver = true → y.isOver = true)

theorem follows_of_instances (same : t.instances = s.instances) : Follows s t := by
  intro j y get
  exact ⟨y, same ▸ get, rfl, rfl, id⟩

/-- Steps of a stream task leave the account as it is. -/
theorem Accounted.follows (h : Accounted s) (instances : Follows s t)
    (streams : s.streams = ∅ → t.streams = ∅)
    (streamTasks : t.streamTasks = s.streamTasks) (recv : t.recv = s.recv)
    (close : t.close = s.close) : Accounted t where
  unaborted open_ i y get := by
    obtain ⟨x, getX, -, aborted, -⟩ := instances i y get
    rw [aborted]
    exact h.unaborted (close ▸ open_) i x getX
  handled open_ i y get going := by
    obtain ⟨x, getX, same, -, isOver⟩ := instances i y get
    have goingX : x.isOver = false := by
      by_contra overX
      rw [isOver (by simpa using overX)] at going
      cases going
    rw [streamTasks, recv, same]
    exact h.handled (close ▸ open_) i x getX goingX
  stopped drained i y get := by
    obtain ⟨x, getX, same, aborted, isOver⟩ := instances i y get
    rw [recv, same, aborted]
    rcases h.stopped (close ▸ drained) i x getX with overX | abortedX | storing
    · exact .inl (isOver overX)
    · exact .inr (.inl abortedX)
    · exact .inr (.inr storing)
  drained drained := by
    rw [streamTasks]
    exact h.drained (close ▸ drained)
  cleared cleared := streams (h.cleared (close ▸ cleared))
  fresh streamId i storing j y get id other := by
    obtain ⟨x, getX, same, -, isOver⟩ := instances j y get
    exact isOver (h.fresh streamId i (recv ▸ storing) j x getX (same ▸ id) other)
  alone i j y y' get get' same going going' := by
    obtain ⟨x, getX, id, -, isOver⟩ := instances i y get
    obtain ⟨x', getX', id', -, isOver'⟩ := instances j y' get'
    refine h.alone i j x x' getX getX' (by rw [← id, ← id', same]) ?_ ?_
    · by_contra overX
      rw [isOver (by simpa using overX)] at going
      cases going
    · by_contra overX
      rw [isOver' (by simpa using overX)] at going'
      cases going'
  returned returned := by
    rw [close]
    exact h.returned (recv ▸ returned)
  waits closing := by
    rw [recv]
    exact h.waits (close ▸ closing)

theorem follows_put {i : Nat} {inst inst' : Instance} {items : List Item}
    {waiting granted : List Nat} (found : s.instances[i]? = some inst) (id : inst'.id = inst.id)
    (aborted : inst'.aborted = inst.aborted) (isOver : inst.isOver = true → inst'.isOver = true) :
    Follows s (s.put i inst' items waiting granted) := by
  intro j y get
  rcases getElem?_put_cases get with ⟨rfl, rfl⟩ | ⟨-, get⟩
  · exact ⟨inst, found, id, aborted, isOver⟩
  · exact ⟨y, get, rfl, rfl, fun h => h⟩

theorem SameTask.isOver {inst inst' : Instance} (h : SameTask inst inst') :
    inst.isOver = true → inst'.isOver = true := by
  intro isOver
  rw [Instance.isOver, h.task]
  exact isOver

/-- The receive loop moves on between points at which it stores no handle. -/
theorem Accounted.move (h : Accounted s) (instances : Follows s t)
    (streams : s.streams = ∅ → t.streams = ∅) (streamTasks : t.streamTasks = s.streamTasks)
    (close : t.close = s.close) (before : ∀ streamId i, s.recv ≠ .synStore streamId i)
    (after : ∀ streamId i, t.recv ≠ .synStore streamId i)
    (returned : t.recv = .returned → s.close.cleared = true)
    (waits : s.close.closer ≠ some .run) : Accounted t := by
  -- the account does not look at the receive loop, once it stores no handle
  have loop : Accounted { s with recv := t.recv } :=
    { unaborted := h.unaborted
      handled := fun open_ i inst get going => by
        rcases h.handled open_ i inst get going with stored | storing
        · exact .inl stored
        · exact absurd storing (before _ _)
      stopped := fun drained i inst get => by
        rcases h.stopped drained i inst get with isOver | aborted | storing
        · exact .inl isOver
        · exact .inr (.inl aborted)
        · exact absurd storing (before _ _)
      drained := h.drained
      cleared := h.cleared
      fresh := fun streamId i storing => absurd storing (after streamId i)
      alone := h.alone
      returned := returned
      waits := fun closing => absurd closing waits }
  exact loop.follows instances streams streamTasks rfl close

/-- The task of `run` is in the body of `close` only after the receive loop. -/
theorem Accounted.notRun (h : Accounted s) (inside : s.recv ≠ .closing) :
    s.close.closer ≠ some .run := fun closing => inside (h.waits closing)

theorem not_closing_of_calm (calm : s.recv.Calm) : s.recv ≠ .closing := by
  intro closing
  rw [closing] at calm
  exact calm

/-- The receive loop leaves: it calls `close`, or finds it called. -/
theorem Accounted.leave (h : Accounted s) (calm : s.recv.Calm)
    (finished : s.isClosed = true → s.close.cleared = true) : Accounted s.leaveRecvLoop := by
  have before := not_synStore_of_calm calm
  unfold leaveRecvLoop
  split
  case isTrue closed =>
    exact h.move (follows_of_instances rfl) id rfl rfl before (by simp [returnFromRun])
      (fun _ => finished closed) (h.notRun (not_closing_of_calm calm))
  case isFalse closed =>
    have uncalled : s.close = .uncalled := isClosed_eq_false.mp (by simpa using closed)
    have undrained : s.close.drained = false := by rw [uncalled]; rfl
    exact
      { unaborted := fun _ => h.unaborted undrained
        handled := fun _ i inst get going => by
          rcases h.handled undrained i inst get going with stored | storing
          · exact .inl stored
          · exact absurd storing (before _ _)
        stopped := fun drained => by cases drained
        drained := fun drained => by cases drained
        cleared := fun cleared => by cases cleared
        fresh := fun streamId i storing => by cases storing
        alone := h.alone
        returned := fun returned => by cases returned
        waits := fun _ => rfl }

/-- A SYN is accepted, before the handles are drained and when no task of its
id is left. -/
theorem Accounted.accept {streamId : UInt32} (h : Accounted s)
    (at_ : s.recv = .synLookup streamId) (undrained : s.close.drained = false)
    (none_ : ∀ (i : Nat) (inst : Instance), s.instances[i]? = some inst → inst.id = streamId →
      inst.isOver = true) : Accounted (s.accept streamId) := by
  have cleared : s.close.cleared = false := by
    by_contra cleared
    rw [drained_of_cleared (by simpa using cleared)] at undrained
    cases undrained
  exact
    { unaborted := fun _ j y get => by
        rcases getElem?_accept_cases get with earlier | ⟨-, rfl⟩
        · exact h.unaborted undrained j y earlier
        · rfl
      handled := fun _ j y get going => by
        rcases getElem?_accept_cases get with earlier | ⟨rfl, rfl⟩
        · rcases h.handled undrained j y earlier going with stored | storing
          · exact .inl stored
          · rw [at_] at storing
            cases storing
        · exact .inr rfl
      stopped := fun drained => absurd drained (by simpa [Session.accept] using undrained)
      drained := fun drained => absurd drained (by simpa [Session.accept] using undrained)
      cleared := fun cleared' => absurd cleared' (by simpa [Session.accept] using cleared)
      fresh := fun id i storing j y get same other => by
        obtain ⟨rfl, rfl⟩ := RecvAt.synStore.inj storing
        rcases getElem?_accept_cases get with earlier | ⟨rfl, -⟩
        · exact none_ j y earlier same
        · exact absurd rfl other
      alone := fun i j y y' get get' same going going' => by
        rcases getElem?_accept_cases get with earlier | ⟨rfl, rfl⟩
        · rcases getElem?_accept_cases get' with earlier' | ⟨rfl, rfl⟩
          · exact h.alone i j y y' earlier earlier' same going going'
          · rw [none_ i y earlier same] at going
            cases going
        · rcases getElem?_accept_cases get' with earlier' | ⟨rfl, -⟩
          · rw [none_ j y' earlier' same.symm] at going'
            cases going'
          · rfl
      returned := fun returned => by cases returned
      waits := fun closing => absurd closing (h.notRun (by rw [at_]; simp)) }

/-- The handle of a spawned task is stored, before the handles are drained. -/
theorem Accounted.store {streamId : UInt32} {target : Nat} (h : Accounted s)
    (at_ : s.recv = .synStore streamId target) (undrained : s.close.drained = false) :
    Accounted { s with
      streamTasks := s.streamTasks.insert streamId target, recv := .decoding } where
  unaborted := h.unaborted
  handled _ i inst get going := by
    left
    rw [Table.lookup_insert_eq_some]
    by_cases same : inst.id = streamId
    · by_cases own : i = target
      · exact .inl ⟨same, own⟩
      · rw [h.fresh streamId target at_ i inst get same own] at going
        cases going
    · rcases h.handled undrained i inst get going with stored | storing
      · exact .inr ⟨same, stored⟩
      · rw [at_] at storing
        exact absurd (RecvAt.synStore.inj storing).1.symm same
  stopped drained := by simp [undrained] at drained
  drained drained := by simp [undrained] at drained
  cleared := h.cleared
  fresh _ _ storing := by cases storing
  alone := h.alone
  returned returned := by cases returned
  waits closing := absurd closing (h.notRun (by rw [at_]; simp))

/-- A handle is removed when no task of its id is left. -/
theorem Accounted.forget {streamId : UInt32} (h : Accounted s)
    (none_ : ∀ (i : Nat) (inst : Instance), s.instances[i]? = some inst → inst.id = streamId →
      inst.isOver = true) :
    Accounted { s with streamTasks := s.streamTasks.erase streamId } where
  unaborted := h.unaborted
  handled open_ i inst get going := by
    rcases h.handled open_ i inst get going with stored | storing
    · refine .inl (Table.lookup_erase_eq_some.mpr ⟨?_, stored⟩)
      intro same
      rw [none_ i inst get same] at going
      cases going
    · exact .inr storing
  stopped := h.stopped
  drained drained := by
    show s.streamTasks.erase streamId = ∅
    rw [h.drained drained]
    rfl
  cleared := h.cleared
  fresh := h.fresh
  alone := h.alone
  returned := h.returned
  waits := h.waits

/-- A finished task removes its handle. -/
theorem Accounted.cleanUp {i : Nat} {inst : Instance} (h : Accounted s)
    (found : s.instances[i]? = some inst) (at_ : inst.task = .ending) :
    Accounted ({ s with streamTasks := s.streamTasks.erase inst.id }.put i
      { inst with task := .finished } [] s.waiting s.granted) := by
  have going : inst.isOver = false := by simp [Instance.isOver, at_]
  have finished : Accounted (s.put i { inst with task := .finished } [] s.waiting s.granted) :=
    h.follows (follows_put found rfl rfl fun _ => rfl) id rfl rfl rfl
  apply finished.forget
  intro j y get same
  rcases getElem?_put_cases get with ⟨-, rfl⟩ | ⟨other, get⟩
  · rfl
  · by_contra goingY
    exact other (h.alone j i y inst get found same (by simpa using goingY) going)

/-- Draining the handles aborts every task that goes on. -/
theorem Accounted.drain {closer : Closer} (h : Accounted s)
    (at_ : s.close = .draining closer) :
    Accounted { s.drainTasks with close := .clearing closer } := by
  have undrained : s.close.drained = false := by rw [at_]; rfl
  exact
    { unaborted := fun open_ => by cases open_
      handled := fun open_ => by cases open_
      stopped := fun _ i y get => by
        obtain ⟨x, aborted, getX, rfl, reached⟩ := getElem?_abortAll get
        by_cases overX : x.isOver
        · exact .inl overX
        · rcases h.handled undrained i x getX (by simpa using overX) with stored | storing
          · exact .inr (.inl (reached x.id stored))
          · exact .inr (.inr storing)
      drained := fun _ => rfl
      cleared := fun cleared => by cases cleared
      fresh := fun streamId target storing j y get same other => by
        obtain ⟨x, aborted, getX, rfl, -⟩ := getElem?_abortAll get
        exact h.fresh streamId target storing j x getX same other
      alone := fun i j y y' get get' same going going' => by
        obtain ⟨x, aborted, getX, rfl, -⟩ := getElem?_abortAll get
        obtain ⟨x', aborted', getX', rfl, -⟩ := getElem?_abortAll get'
        exact h.alone i j x x' getX getX' same going going'
      returned := fun returned => by
        have cleared := h.returned returned
        rw [at_] at cleared
        cases cleared
      waits := fun closing => h.waits (by rw [at_]; exact closing) }

/-- `close` goes on past the drained handles. -/
theorem Accounted.advance {close : CloseAt} (h : Accounted s) (before : s.close.drained = true)
    (after : close.drained = true) (kept : s.close.cleared = true → close.cleared = true)
    (empty : close.cleared = true → s.streams = ∅)
    (same : close.closer = some .run → s.close.closer = some .run) :
    Accounted { s with close } where
  unaborted open_ := by rw [after] at open_; cases open_
  handled open_ := by rw [after] at open_; cases open_
  stopped _ := h.stopped before
  drained _ := h.drained before
  cleared := empty
  fresh := h.fresh
  alone := h.alone
  returned returned := kept (h.returned returned)
  waits closing := h.waits (same closing)

theorem Accounted.clear (h : Accounted s) : Accounted { s with streams := ∅ } :=
  h.follows (follows_of_instances rfl) (fun _ => rfl) rfl rfl rfl

theorem Accounted.answers {i : Nat} {inst : Instance} {error : Option Bytes} (h : Accounted s)
    (found : s.instances[i]? = some inst) (going : inst.isOver = false)
    (answers : Answers s i inst error t) : Accounted t := by
  have never {inst' : Instance} : inst.isOver = true → inst'.isOver = true := by
    intro isOver
    rw [going] at isOver
    cases isOver
  cases answers with
  | relay => exact h.follows (follows_put found rfl rfl never) id rfl rfl rfl
  | fail drops =>
      exact h.follows (follows_put found drops.sameTask.id drops.sameTask.aborted never) id rfl rfl
        rfl

theorem Accounted.finishes {closer : Closer} (h : Accounted s) (before : s.close.drained = true)
    (closing : s.close.closer = some closer) (empty : s.streams = ∅)
    (finishes : Finishes s closer t) : Accounted t := by
  have done : Accounted { s with close := .done } :=
    h.advance before rfl (fun _ => rfl) (fun _ => empty) nofun
  cases finishes with
  | run =>
      have waits : s.recv = .closing := h.waits closing
      exact done.move (follows_of_instances rfl) id rfl rfl (by simp [waits]) (by simp)
        (fun _ => rfl) nofun
  | task found at_ answers =>
      exact done.answers found (by simp [Instance.isOver, at_]) answers
  | alone => exact done

/-- The receive loop is at a point from which it stores no handle. -/
theorem Accounted.moveFrom {recv : RecvAt} (h : Accounted s) (instances : Follows s t)
    (streams : s.streams = ∅ → t.streams = ∅) (streamTasks : t.streamTasks = s.streamTasks)
    (close : t.close = s.close) (at_ : s.recv = recv)
    (point : ∀ streamId i, recv ≠ .synStore streamId i) (inside : recv ≠ .closing)
    (after : ∀ streamId i, t.recv ≠ .synStore streamId i) (on : t.recv ≠ .returned) :
    Accounted t :=
  h.move instances streams streamTasks close (at_ ▸ point) after
    (fun returned => absurd returned on)
    (h.notRun (at_ ▸ inside))

theorem cleared_of_orderly {event : RecvEvent} (h : orderly s (.recv event) = true)
    (ends : leaves s event = true) (closed : s.isClosed = true) : s.close.cleared = true := by
  cases event with
  | streamsLocked | handleStored => cases ends
  | _ => simpa [orderly, ends, closed] using h

theorem accepts_of_orderly {streamId : UInt32} (h : orderly s (.recv .streamsLocked) = true)
    (at_ : s.recv = .synLookup streamId) (absent : s.streams.lookup streamId = none) :
    s.close.drained = false ∧ ∀ (i : Nat) (inst : Instance), s.instances[i]? = some inst →
      inst.id = streamId → inst.isOver = true := by
  simp only [orderly, at_, absent, Option.isSome_none, Bool.false_or, Bool.and_eq_true,
    Bool.not_eq_true', List.all_eq_true, Bool.or_eq_true, decide_eq_true_eq] at h
  refine ⟨h.1, ?_⟩
  intro i inst get same
  rcases h.2 inst (List.mem_of_getElem? get) with different | isOver
  · exact absurd same different
  · exact isOver

theorem sending_point {target : Nat} {data : Bytes}
    (at_ : s.recv = .pshSend target data ∨ s.recv = .finSend target ∧ data = []) :
    (∀ streamId i, s.recv ≠ .synStore streamId i) ∧ s.recv ≠ .closing := by
  rcases at_ with at_ | ⟨at_, -⟩
  · simp [at_]
  · simp [at_]

theorem Accounted.recv {event : RecvEvent} (h : Accounted s) (met : orderly s (.recv event) = true)
    (taken : RecvTaken s event t) : Accounted t := by
  cases taken with
  | @calm _ recv _ _ _ at_ next =>
      refine h.move (follows_of_instances rfl) id rfl rfl (not_synStore_of_calm at_) ?_ ?_
        (h.notRun (not_closing_of_calm at_))
      · exact not_synStore_of_calm next
      · rintro rfl
        exact next.elim
  | @leave _ arrived written at_ ends =>
      have before : Accounted { s with
          arrived := s.arrived ++ arrived, wire := s.wire ++ written } :=
        h.follows (follows_of_instances rfl) id rfl rfl rfl
      exact before.leave at_ (cleared_of_orderly met ends)
  | @arrive _ recv _ _ at_ next =>
      refine h.moveFrom (follows_of_instances rfl) id rfl rfl at_ (by simp) (by simp) ?_ ?_
      · exact not_synStore_of_calm next
      · rintro rfl
        exact next.elim
  | psh at_ | syn at_ | fin at_ | pshMissed at_ | pshFound at_ | synDuplicate at_ | finMissed at_ =>
      exact h.moveFrom (follows_of_instances rfl) id rfl rfl at_ (by simp) (by simp) (by simp)
        (by simp)
  | synAccepted at_ absent =>
      obtain ⟨undrained, none_⟩ := accepts_of_orderly met at_ absent
      exact h.accept at_ undrained none_
  | @finFound streamId _ at_ =>
      refine h.moveFrom (follows_of_instances rfl) (fun empty => ?_) rfl rfl at_ (by simp) (by simp)
        (by simp) (by simp)
      show s.streams.erase streamId = ∅
      rw [empty]
      rfl
  | receiverGone at_ =>
      obtain ⟨point, inside⟩ := sending_point at_
      exact h.move (follows_of_instances rfl) id rfl rfl point (by simp) nofun (h.notRun inside)
  | @pushed target data inst _ at_ found =>
      obtain ⟨point, inside⟩ := sending_point at_
      have pushes : Follows s { s with
          instances := s.instances.set target { inst with inbound := inst.inbound ++ [data] }
          recv := .decoding } :=
        @follows_put s target inst _ [] [] [] found rfl rfl fun isOver => isOver
      exact h.move pushes id rfl rfl point (by simp) nofun (h.notRun inside)
  | stored at_ => exact h.store at_ (by simpa [orderly] using met)

theorem Accounted.close {event : CloseEvent} (h : Accounted s) (taken : CloseTaken s event t) :
    Accounted t := by
  cases taken with
  | drained at_ => exact h.drain at_
  | cleared at_ =>
      exact h.clear.advance (by rw [at_]; rfl) rfl (fun _ => rfl) (fun _ => rfl)
        fun closing => by rw [at_]; exact closing
  | clearedLast at_ finishes =>
      exact h.clear.finishes (by rw [at_]; rfl) (by rw [at_]; rfl) rfl finishes
  | shut at_ finishes =>
      exact h.finishes (by rw [at_]; rfl) (by rw [at_]; rfl) (h.cleared (by rw [at_]; rfl)) finishes

theorem Accounted.outgoing {event : OutgoingEvent} (h : Accounted s)
    (taken : OutgoingTaken s event t) : Accounted t := by
  cases taken with
  | @removed item =>
      refine h.follows (follows_of_instances rfl) ?_ rfl rfl rfl
      intro empty
      show s.streams.erase item.streamId = ∅
      rw [empty]
      rfl
  | taken | closed | written | finWritten | failed | finFailed | dropped =>
      exact h.follows (follows_of_instances rfl) id rfl rfl rfl

/-- A stream task calls `close`. -/
theorem Accounted.call (h : Accounted s) (uncalled : s.close = .uncalled) (i : Nat) :
    Accounted { s with close := .draining (.task i) } := by
  have undrained : s.close.drained = false := by rw [uncalled]; rfl
  exact
    { unaborted := fun _ => h.unaborted undrained
      handled := fun _ => h.handled undrained
      stopped := nofun
      drained := nofun
      cleared := nofun
      fresh := h.fresh
      alone := h.alone
      returned := fun returned => by
        have cleared := h.returned returned
        rw [uncalled] at cleared
        cases cleared
      waits := nofun }

theorem abandonClose_drained {i : Nat} {close : CloseAt} (h : close.drained = true) :
    (abandonClose i close).drained = true := by
  unfold abandonClose
  split
  · cases h
  · split <;> rfl
  · split <;> rfl
  · exact h

theorem abandonClose_cleared {i : Nat} {close : CloseAt} (h : close.drained = true) :
    (abandonClose i close).cleared = close.cleared := by
  unfold abandonClose
  split
  · cases h
  · split <;> rfl
  · split <;> rfl
  · rfl

/-- Dropping an aborted task, be it in the middle of `close`. -/
theorem Accounted.abandon {i : Nat} {inst : Instance} (h : Accounted s)
    (found : s.instances[i]? = some inst) (aborted : inst.aborted = true) :
    Accounted { s with close := abandonClose i s.close } := by
  have drained : s.close.drained = true := by
    by_contra open_
    rw [h.unaborted (by simpa using open_) i inst found] at aborted
    cases aborted
  refine h.advance drained (abandonClose_drained drained) ?_ ?_ abandonClose_closer
  · rw [abandonClose_cleared drained]
    exact id
  · rw [abandonClose_cleared drained]
    exact h.cleared

theorem Accounted.task {i : Nat} {inst : Instance} {event : TaskEvent} (h : Accounted s)
    (found : s.instances[i]? = some inst) (taken : TaskTaken s i inst event t) : Accounted t := by
  cases taken with
  | absent => exact h
  | read _ _ reads =>
      have same := reads.sameTask
      exact h.follows (follows_put found same.id same.aborted same.isOver) id rfl rfl rfl
  | write _ _ writes =>
      have same := writes.sameTask
      exact h.follows (follows_put found same.id same.aborted same.isOver) id rfl rfl rfl
  | shutdown _ _ shuts =>
      have same := shuts.sameTask
      exact h.follows (follows_put found same.id same.aborted same.isOver) id rfl rfl rfl
  | opened at_ answers => exact h.answers found (by simp [Instance.isOver, at_]) answers
  | synack at_ =>
      refine h.follows (follows_put found rfl rfl fun isOver => ?_) id rfl rfl rfl
      simp [Instance.isOver, at_] at isOver
  | @synackWritten error _ at_ answers =>
      have written : Accounted { s with
          wire := s.wire ++ [(some i, synackFrame inst.id error)] } :=
        h.follows (follows_of_instances rfl) id rfl rfl rfl
      exact written.answers found (by simp [Instance.isOver, at_]) answers
  | synackFailed at_ answers | synackLate at_ answers =>
      exact h.answers found (by simp [Instance.isOver, at_]) answers
  | synackTimedOut at_ uncalled =>
      refine (h.call uncalled i).follows (follows_put found rfl rfl fun isOver => ?_) id rfl rfl rfl
      simp [Instance.isOver, at_] at isOver
  | returned at_ drops =>
      have same := drops.sameTask
      refine h.follows (follows_put found same.id same.aborted fun isOver => ?_) id rfl rfl rfl
      rcases at_ with at_ | at_ <;> simp [Instance.isOver, at_] at isOver
  | cleanedUp at_ => exact h.cleanUp found at_
  | dropped aborted going drops =>
      have same := drops.sameTask
      have left : Accounted { s with close := abandonClose i s.close } := h.abandon found aborted
      exact left.follows (follows_put found same.id same.aborted fun _ => rfl) id rfl rfl rfl

theorem Accounted.step {padding : Padding} {event : Event} (h : Accounted s)
    (met : orderly s event = true) (taken : s.step padding event = some t) : Accounted t := by
  cases taken_of_step taken with
  | recv does => exact h.recv met does
  | close does => exact h.close does
  | outgoing does => exact h.outgoing does
  | task found does => exact h.task found does

/-- Along every run whose steps are orderly, a session that has returned is
empty and each of its tasks has finished or was aborted. -/
theorem shut_down_along (padding : Padding) (events : List Event)
    (met : Transition.Along (step padding) (orderly · ·) Session.start events) :
    Transition.Always (step padding) ShutDown Session.start events :=
  Transition.always_of_along (I := Accounted) (fun _ h => h.shutDown)
    (fun _ _ _ h met taken => h.step met taken) accounted_start met

/-- A stream is opened and the connection ends: its task is aborted. -/
def openedStream : List Event :=
  [.recv .loopTop, .recv (.decoded (.control .settings 0)), .recv (.decoded (.control .syn 1)),
    .recv .streamsLocked, .recv .handleStored, .recv .exhausted, .recv .readEnded,
    .close .tasksDrained, .close (.streamsCleared false)]

theorem opened_stream_shut_down :
    Transition.Along (step ⟨[], []⟩) (orderly · ·) Session.start openedStream ∧
      Transition.Always (step ⟨[], []⟩) ShutDown Session.start openedStream :=
  ⟨by decide +kernel, shut_down_along ⟨[], []⟩ openedStream (by decide +kernel)⟩

/-- A stream is opened, ended by the client's FIN, and opened again under the
same id while its first task is still connecting; then the connection ends. -/
def reopenedStream : List Event :=
  [.recv .loopTop, .recv (.decoded (.control .settings 0)), .recv (.decoded (.control .syn 1)),
    .recv .streamsLocked, .recv .handleStored, .recv (.decoded (.control .fin 1)),
    .recv .streamsLocked, .recv .pushed, .recv (.decoded (.control .syn 1)),
    .recv .streamsLocked, .recv .handleStored, .recv .exhausted, .recv .readEnded,
    .close .tasksDrained, .close (.streamsCleared false)]

/-- The handle of the first task was replaced, and the task goes on. -/
theorem reopened_stream_leaks_task :
    ¬Transition.Always (step ⟨[], []⟩) ShutDown Session.start reopenedStream := by
  decide +kernel

end RustProxy.AnyTls
