import RustProxy.AnyTls.Names
import RustProxy.Base.Transition

/-!
# Instances that share an id

Both maps of a session are keyed by the bare stream id. The receive loop frees
an id as soon as the client's FIN arrives, while the task of the stream goes on,
and the FIN it sends and the clean-up at its end are still to come. A SYN that
reuses the id before then gives its entries to a later instance, and the
earlier one removes them.

When a SYN is accepted only after every earlier instance of its id is over and
no FIN of the id is on its way through the outgoing loop, no instance touches
the entries of a later one.
-/

namespace RustProxy.AnyTls

open Session

/-- The instance that a step is an action of: its task, or its item in the
hands of the outgoing loop. -/
def actor (s : Session) : Event → Option Nat
  | .task i _ => some i
  | .outgoing .taken => s.outgoing.head?.map Item.origin
  | .outgoing .frameWritten | .outgoing .frameFailed | .outgoing .entryRemoved =>
      match s.outgoingTask with
      | .writing item | .removing item => some item.origin
      | .receiving | .stopped => none
  | .outgoing .dropped | .recv _ | .close _ => none

/-- The instance is there and its task is not over. -/
def live (s : Session) (j : Nat) : Bool := (s.instances[j]?).any (!·.isOver)

/-- The entries of live instances later than `i` are still there. -/
def KeepsLater (s : Session) (i : Nat) (before after : Table UInt32 Nat) : Prop :=
  ∀ entry ∈ before.entries, i < entry.2 → live s entry.2 = true →
    after.lookup entry.1 = some entry.2

/-- A step that is an action of an instance keeps the entries of later live
instances. -/
def Isolated (padding : Padding) (s : Session) (event : Event) : Prop :=
  ∀ t ∈ s.step padding event, ∀ i ∈ actor s event,
    KeepsLater s i s.streams t.streams ∧ KeepsLater s i s.streamTasks t.streamTasks

instance (s : Session) (i : Nat) (before after : Table UInt32 Nat) :
    Decidable (KeepsLater s i before after) :=
  inferInstanceAs (Decidable (∀ entry ∈ before.entries, _))

instance (padding : Padding) (s : Session) (event : Event) :
    Decidable (Isolated padding s event) :=
  inferInstanceAs (Decidable (∀ t ∈ s.step padding event, ∀ i ∈ actor s event, _ ∧ _))

/-- The outgoing loop holds the FIN of a stream id. -/
def OutgoingAt.holdsFin (streamId : UInt32) : OutgoingAt → Bool
  | .writing item => item.data.isEmpty && item.streamId = streamId
  | .removing item => item.streamId = streamId
  | .receiving | .stopped => false

/-- A SYN is accepted only for an id whose earlier instances are over and have
no FIN on its way. -/
def reusesFinished (s : Session) : Event → Bool
  | .recv .streamsLocked =>
      match s.recv with
      | .synLookup streamId => (s.streams.lookup streamId).isSome ||
          s.instances.all (fun inst => inst.id ≠ streamId || inst.isOver) &&
            s.outgoing.all (fun item => !item.data.isEmpty || item.streamId ≠ streamId) &&
              !s.outgoingTask.holdsFin streamId
      | _ => true
  | _ => true

/-- The instances of an id come one after the other. -/
structure InTurn (s : Session) : Prop where
  named : Named s
  latest : ∀ (i : Nat) (inst : Instance), s.instances[i]? = some inst → inst.isOver = false →
    ∀ j, s.idOf j = some inst.id → j ≤ i
  fins : ∀ streamId origin, FinOnItsWay s streamId origin →
    ∀ j, s.idOf j = some streamId → j ≤ origin

theorem inTurn_start : InTurn Session.start where
  named := named_start
  latest i inst get := by simp [start] at get
  fins streamId origin fin j named := by simp [start, idOf] at named

variable {s t : Session} {i : Nat}

theorem InTurn.continues (h : InTurn s) (on : Continues s t) : InTurn t where
  named := h.named.continues on
  latest i y get going j named := by
    obtain ⟨x, getX, id, isOver, -⟩ := on.instances i y get
    have goingX : x.isOver = false := by
      by_contra overX
      rw [isOver (by simpa using overX)] at going
      cases going
    rw [on.ids, id] at named
    exact h.latest i x getX goingX j named
  fins streamId origin fin j named := by
    rw [on.ids] at named
    rcases on.fins streamId origin fin with fin | ⟨inst, me, get, going, stream, rfl⟩
    · exact h.fins streamId origin fin j named
    · -- a FIN sent by this step comes from an instance that goes on
      rw [h.named.stream origin inst me get stream] at named
      exact h.latest origin inst get going j named

theorem finished_of_reuses {streamId : UInt32}
    (met : reusesFinished s (.recv .streamsLocked) = true) (at_ : s.recv = .synLookup streamId)
    (absent : s.streams.lookup streamId = none) :
    (∀ (i : Nat) (inst : Instance), s.instances[i]? = some inst → inst.id = streamId →
      inst.isOver = true) ∧ ∀ origin, ¬FinOnItsWay s streamId origin := by
  simp only [reusesFinished, at_, absent, Option.isSome_none, Bool.false_or, Bool.and_eq_true,
    List.all_eq_true, Bool.or_eq_true, decide_eq_true_eq, Bool.not_eq_true',
    List.isEmpty_eq_false_iff]
    at met
  obtain ⟨⟨tasks, queue⟩, loop⟩ := met
  refine ⟨fun i inst get same => ?_, fun origin fin => ?_⟩
  · rcases tasks inst (List.mem_of_getElem? get) with different | isOver
    · exact absurd same different
    · exact isOver
  · cases fin with
    | queued mem fin =>
        rcases queue _ mem with some_ | different
        · exact some_ fin
        · exact different rfl
    | writing holds fin => simp [OutgoingAt.holdsFin, holds, fin] at loop
    | removing holds => simp [OutgoingAt.holdsFin, holds] at loop

theorem InTurn.accept {streamId : UInt32} (h : InTurn s)
    (none_ : ∀ (i : Nat) (inst : Instance), s.instances[i]? = some inst → inst.id = streamId →
      inst.isOver = true) (quiet : ∀ origin, ¬FinOnItsWay s streamId origin) :
    InTurn (s.accept streamId) where
  named := h.named.accept streamId
  latest i inst get going j named := by
    rcases getElem?_accept_cases get with earlier | ⟨rfl, rfl⟩
    · rcases idOf_accept.mp named with named | ⟨-, id⟩
      · exact h.latest i inst earlier going j named
      · rw [none_ i inst earlier id] at going
        cases going
    · rcases idOf_accept.mp named with named | ⟨rfl, -⟩
      · obtain ⟨other, get, -⟩ := idOf_eq_some.mp named
        exact Nat.le_of_lt (List.getElem?_eq_some_iff.mp get).1
      · exact Nat.le_refl _
  fins id origin fin j named := by
    have before : FinOnItsWay s id origin := fin.of_eq rfl rfl
    rcases idOf_accept.mp named with named | ⟨-, rfl⟩
    · exact h.fins id origin before j named
    · exact absurd before (quiet origin)

theorem InTurn.step {padding : Padding} {event : Event} (h : InTurn s)
    (met : reusesFinished s event = true) (taken : s.step padding event = some t) : InTurn t := by
  rcases continues_or_accepts (taken_of_step taken) with on | ⟨streamId, rfl, at_, absent, rfl⟩
  · exact h.continues on
  · obtain ⟨none_, quiet⟩ := finished_of_reuses met at_ absent
    exact h.accept none_ quiet

theorem keepsLater_self (s : Session) (i : Nat) (table : Table UInt32 Nat) :
    KeepsLater s i table table := fun _ mem _ _ => Table.mem_entries_iff.mp mem

/-- Erasing an id whose live instances are no later than `i`. -/
theorem keepsLater_erase {table : Table UInt32 Nat} {streamId : UInt32}
    (named : ∀ id j, table.lookup id = some j → s.idOf j = some id)
    (upTo : ∀ j, s.idOf j = some streamId → j ≤ i) :
    KeepsLater s i table (table.erase streamId) := by
  intro entry mem later _
  have stored := Table.mem_entries_iff.mp mem
  refine Table.lookup_erase_eq_some.mpr ⟨?_, stored⟩
  intro same
  have bound := upTo entry.2 (same ▸ named entry.1 entry.2 stored)
  omega

/-- When the instances of an id come in turn, a step of one of them keeps what
belongs to later ones. -/
theorem InTurn.isolated {padding : Padding} {event : Event} (h : InTurn s) :
    Isolated padding s event := by
  intro t taken i acts
  cases taken_of_step taken with
  | recv | close => cases acts
  | outgoing does =>
      cases does with
      | taken | closed | written | finWritten | failed | finFailed =>
          exact ⟨keepsLater_self s i _, keepsLater_self s i _⟩
      | @removed item at_ =>
          refine ⟨keepsLater_erase h.named.streams ?_, keepsLater_self s i _⟩
          intro j named
          obtain rfl : item.origin = i := by simpa [actor, at_] using acts
          exact h.fins item.streamId item.origin (.removing at_) j named
      | dropped => cases acts
  | task found does =>
      obtain rfl := Option.some.inj acts
      cases does.did with
      | idle => exact ⟨keepsLater_self s _ _, keepsLater_self s _ _⟩
      | acted going handles =>
          refine ⟨keepsLater_self s _ _, ?_⟩
          rcases handles with rfl | rfl
          · exact keepsLater_self s _ _
          · exact keepsLater_erase h.named.streamTasks (h.latest _ _ found going)

/-- Along every run that reuses an id only when its earlier instances are over
and their FINs gone, no instance removes an entry of a later live one. -/
theorem isolated_along (padding : Padding) (events : List Event)
    (met : Transition.Along (step padding) (reusesFinished · ·) Session.start events) :
    Transition.Along (step padding) (Isolated padding) Session.start events :=
  Transition.along_of_along (I := InTurn) (fun _ _ _ h _ _ => h.isolated)
    (fun _ _ _ h met taken => h.step met taken) inTurn_start met

/-- A stream is opened, ended by the client and cleaned up; then its id is
opened again. -/
def reopenedAfterwards : List Event :=
  [.recv .loopTop, .recv (.decoded (.control .settings 0)), .recv (.decoded (.control .syn 1)),
    .recv .streamsLocked, .recv .handleStored, .recv (.decoded (.control .fin 1)),
    .recv .streamsLocked, .recv .pushed, .task 0 .handlerReturned, .task 0 .cleanedUp,
    .outgoing .taken, .outgoing .frameWritten, .outgoing .entryRemoved,
    .recv (.decoded (.control .syn 1)), .recv .streamsLocked, .recv .handleStored]

theorem reopened_afterwards_isolated :
    Transition.Along (step ⟨[], []⟩) (reusesFinished · ·) Session.start reopenedAfterwards ∧
      Transition.Along (step ⟨[], []⟩) (Isolated ⟨[], []⟩) Session.start reopenedAfterwards :=
  ⟨by decide +kernel, isolated_along ⟨[], []⟩ reopenedAfterwards (by decide +kernel)⟩

/-- The id is opened again before its first task has returned. The FIN that this
task sends and its clean-up then remove the entries of the second stream. -/
def reopenedMeanwhile : List Event :=
  [.recv .loopTop, .recv (.decoded (.control .settings 0)), .recv (.decoded (.control .syn 1)),
    .recv .streamsLocked, .recv .handleStored, .recv (.decoded (.control .fin 1)),
    .recv .streamsLocked, .recv .pushed, .recv (.decoded (.control .syn 1)),
    .recv .streamsLocked, .recv .handleStored, .task 0 .handlerReturned, .task 0 .cleanedUp,
    .outgoing .taken, .outgoing .frameWritten, .outgoing .entryRemoved]

theorem reopened_meanwhile_not_isolated :
    ¬Transition.Along (step ⟨[], []⟩) (Isolated ⟨[], []⟩) Session.start reopenedMeanwhile := by
  decide +kernel

end RustProxy.AnyTls
