import RustProxy.UdpRelay.MessageRelay

/-!
# Why a message relay ends

A relay is ready because a direction is through, because a call has failed, or
because no message was read for the time of `ASSOCIATION_TIMEOUT`. The last is
told from `read_count`, which wraps: a poll in which each direction reads a
multiple of `2 ^ 64` bytes looks like one in which nothing was read (`Wraps`).
Without such a poll the time is counted from the end of a poll since which no
message was read, or from the start.
-/

namespace RustProxy.UdpRelay

variable {ω : Type}

section Begins

variable {J K : Traced ω → Prop} {stream : AsyncMessageStream (Traced ω)}

theorem Closed.and (first : Closed J stream) (second : Closed K stream) :
    Closed (fun w => J w ∧ K w) stream where
  read w h := ⟨first.read w h.1, second.read w h.2⟩
  write message w fits h := ⟨first.write message w fits h.1, second.write message w fits h.2⟩
  flush w h := ⟨first.flush w h.1, second.flush w h.2⟩
  shutdown w h := ⟨first.shutdown w h.1, second.shutdown w h.2⟩
  ping supported w h := ⟨first.ping supported w h.1, second.ping supported w h.2⟩

/-- Calls are only ever added. -/
theorem closed_begins (stream : AsyncMessageStream ω) (side : Side)
    (calls : List (Side × MessageEvent)) :
    Closed (fun w => calls <+: w.calls) (recorded stream side) where
  read _ h := h.trans (List.prefix_append _ _)
  write _ _ _ h := h.trans (List.prefix_append _ _)
  flush _ h := h.trans (List.prefix_append _ _)
  shutdown _ h := h.trans (List.prefix_append _ _)
  ping _ _ h := h.trans (List.prefix_append _ _)

end Begins

namespace CopyBidirectional

variable {cx : TimedContext ω} {a b : AsyncMessageStream ω}

/-- The relay, polled any number of times. -/
def run (cx : TimedContext ω) (a b : AsyncMessageStream ω) (start : Relaying (Traced ω))
    (turns : List (Turn ω)) : Outcome (Poll (IoResult Unit)) × Relaying (Traced ω) :=
  pollAll (recordedContext cx) (recorded a .a) (recorded b .b) (turns.map Turn.recorded) start

/-- One poll by the executor. -/
def pollOnce (cx : TimedContext ω) (a b : AsyncMessageStream ω) (turn : Turn ω)
    (s : Relaying (Traced ω)) : Outcome (Poll (IoResult Unit)) × Relaying (Traced ω) :=
  poll turn.fuel (recordedContext cx) (recorded a .a) (recorded b .b)
    (s.1, turn.recorded.meanwhile s.2)

theorem run_cons_pending {start s : Relaying (Traced ω)} {first : Turn ω}
    (pending : pollOnce cx a b first start = (.returned .pending, s)) (turns : List (Turn ω)) :
    run cx a b start (first :: turns) = run cx a b s turns :=
  (Exec.modify_bind _ _ _).trans (Exec.bind_of_returned pending)

theorem run_cons_over {start : Relaying (Traced ω)} {first : Turn ω}
    (ended : (pollOnce cx a b first start).1 ≠ .returned .pending) (turns : List (Turn ω)) :
    run cx a b start (first :: turns) = pollOnce cx a b first start := by
  refine (Exec.modify_bind _ _ _).trans ?_
  show Exec.bind (poll first.fuel (recordedContext cx) (recorded a .a) (recorded b .b)) _
    (start.1, first.recorded.meanwhile start.2) = _
  unfold pollOnce at ended ⊢
  rcases ran : poll first.fuel (recordedContext cx) (recorded a .a) (recorded b .b)
    (start.1, first.recorded.meanwhile start.2) with ⟨(_ | result) | _ | _, t⟩
  · rw [ran] at ended
    exact absurd rfl ended
  · simp only [Exec.bind, ran]
    rfl
  · simp only [Exec.bind, ran]
  · simp only [Exec.bind, ran]

/-- One poll more, if the relay is still pending. -/
theorem run_concat {start s : Relaying (Traced ω)} {turns : List (Turn ω)}
    (pending : run cx a b start turns = (.returned .pending, s)) (turn : Turn ω) :
    run cx a b start (turns ++ [turn]) = pollOnce cx a b turn s := by
  induction turns generalizing start with
  | nil =>
      obtain ⟨-, rfl⟩ := Prod.mk.inj pending
      by_cases pends : (pollOnce cx a b turn start).1 = .returned .pending
      · rw [List.nil_append, run_cons_pending (Prod.ext pends rfl)]
        exact Prod.ext pends.symm rfl
      · exact run_cons_over pends []
  | cons first turns ih =>
      by_cases pends : (pollOnce cx a b first start).1 = .returned .pending
      · rw [run_cons_pending (Prod.ext pends rfl)] at pending
        rw [List.cons_append, run_cons_pending (Prod.ext pends rfl)]
        exact ih pending
      · rw [run_cons_over pends] at pending
        exact absurd (congrArg Prod.fst pending) pends

/-- A relay that is ready, or in the middle of a poll, is not polled again. -/
theorem run_concat_over {start : Relaying (Traced ω)} {turns : List (Turn ω)}
    (ended : (run cx a b start turns).1 ≠ .returned .pending) (turn : Turn ω) :
    run cx a b start (turns ++ [turn]) = run cx a b start turns := by
  induction turns generalizing start with
  | nil => exact absurd rfl ended
  | cons first turns ih =>
      rw [List.cons_append]
      by_cases pending : (pollOnce cx a b first start).1 = .returned .pending
      · rw [run_cons_pending (Prod.ext pending rfl)] at ended ⊢
        rw [run_cons_pending (Prod.ext pending rfl)]
        exact ih ended
      · rw [run_cons_over pending, run_cons_over pending]

/-! ## What was read in a poll -/

/-- The bytes that the direction from a side has read. -/
def bytesRead (side : Side) (calls : List (Side × MessageEvent)) : Nat :=
  (produced (view side calls)).flatten.length

/-- Something was read between two moments, and the counters cannot tell. -/
def Wraps (before after : List (Side × MessageEvent)) : Prop :=
  (∃ side, bytesRead side before ≠ bytesRead side after) ∧
    ∀ side, 2 ^ 64 ∣ bytesRead side after - bytesRead side before

/-- No poll of a run wraps the counters. -/
def NeverWraps (cx : TimedContext ω) (a b : AsyncMessageStream ω) (start : Relaying (Traced ω))
    (turns : List (Turn ω)) : Prop :=
  ∀ earlier turn, earlier ++ [turn] <+: turns →
    ¬Wraps (run cx a b start earlier).2.2.calls (run cx a b start (earlier ++ [turn])).2.2.calls

theorem produced_append (calls more : List MessageEvent) :
    produced (calls ++ more) = produced calls ++ produced more := List.filterMap_append

@[simp] theorem view_append (side : Side) (calls more : List (Side × MessageEvent)) :
    view side (calls ++ more) = view side calls ++ view side more := List.filterMap_append

/-- A message that was produced is not empty. -/
theorem ne_nil_of_mem_produced {calls : List MessageEvent} {message : Bytes}
    (mem : message ∈ produced calls) : message ≠ [] := by
  obtain ⟨event, -, found⟩ := List.mem_filterMap.mp mem
  unfold MessageEvent.read? at found
  split at found
  · split at found
    · cases found
    · cases found
      assumption
  · cases found

/-- Counters that stay, without wrapping, tell that nothing was read. -/
theorem produced_eq_of_counts {J J' : Traced ω → Prop} {s t : Relaying (Traced ω)}
    (before : Accounts J a b s) (after : Accounts J' a b t) (more : s.2.calls <+: t.2.calls)
    (same : ∀ side, t.1.counts side = s.1.counts side) (steady : ¬Wraps s.2.calls t.2.calls)
    (side : Side) : produced (view side t.2.calls) = produced (view side s.2.calls) := by
  obtain ⟨more, whole⟩ := more
  have split (side : Side) : produced (view side t.2.calls) =
      produced (view side s.2.calls) ++ produced (view side more) := by
    rw [← whole, view_append, produced_append]
  have grown (side : Side) : bytesRead side t.2.calls =
      bytesRead side s.2.calls + (produced (view side more)).flatten.length := by
    rw [bytesRead, split, List.flatten_append, List.length_append]
    rfl
  have unchanged : bytesRead side s.2.calls = bytesRead side t.2.calls := by
    by_contra changed
    refine steady ⟨⟨side, changed⟩, fun side => ?_⟩
    have counted := (after.carries side).counted.symm.trans
      ((same side).trans (before.carries side).counted)
    exact Nat.dvd_of_mod_eq_zero (Nat.sub_mod_eq_zero_of_mod_eq counted)
  have empty : (produced (view side more)).flatten.length = 0 := by
    have length := grown side
    omega
  rw [split]
  cases left : produced (view side more) with
  | nil => exact List.append_nil _
  | cons message later =>
      have some_ : message ≠ [] := ne_nil_of_mem_produced (left ▸ List.mem_cons_self)
      rw [left, List.flatten_cons, List.length_append] at empty
      exact absurd (List.length_eq_zero_iff.mp (Nat.eq_zero_of_add_eq_zero_right empty)) some_

/-! ## Runs -/

/-- The relay was active last at the end of some poll, or at the start, and no
message was read since. -/
def ActiveSince (cx : TimedContext ω) (a b : AsyncMessageStream ω) (start : Relaying (Traced ω))
    (turns : List (Turn ω)) (calls : List (Side × MessageEvent)) (active : Nat) : Prop :=
  ∃ earlier s, earlier <+: turns ∧ run cx a b start earlier = (.returned .pending, s) ∧
    active = cx.now s.2.world ∧ ∀ side, produced (view side calls) = produced (view side s.2.calls)

/-- Why a run ends. -/
inductive EndsFor (cx : TimedContext ω) (a b : AsyncMessageStream ω)
    (start : Relaying (Traced ω)) (turns : List (Turn ω)) (after : Traced ω) :
    IoResult Unit → Prop
  | drained (side : Side) (drained : Drained (view side after.calls)) :
      EndsFor cx a b start turns after (.ok ())
  | failed (side : Side) {e : IoError} (fails : Fails (view side after.calls) e) :
      EndsFor cx a b start turns after (.error e)
  | timedOut {active : Nat} (since : ActiveSince cx a b start turns after.calls active)
      (long : ASSOCIATION_TIMEOUT ≤ cx.now after.world - active) :
      EndsFor cx a b start turns after (.ok ())

theorem ActiveSince.mono {start : Relaying (Traced ω)} {turns turns' : List (Turn ω)}
    {calls : List (Side × MessageEvent)} {active : Nat} (more : turns <+: turns')
    (since : ActiveSince cx a b start turns calls active) :
    ActiveSince cx a b start turns' calls active := by
  obtain ⟨earlier, s, begins, rest⟩ := since
  exact ⟨earlier, s, begins.trans more, rest⟩

theorem EndsFor.mono {start : Relaying (Traced ω)} {turns turns' : List (Turn ω)}
    {after : Traced ω} {result : IoResult Unit} (more : turns <+: turns')
    (ends : EndsFor cx a b start turns after result) :
    EndsFor cx a b start turns' after result := by
  cases ends with
  | drained side drained => exact .drained side drained
  | failed side fails => exact .failed side fails
  | timedOut since long => exact .timedOut (since.mono more) long

/-- What holds after the polls of a run: the accounts, when the relay was active
as long as it is pending, and why it has ended. -/
structure Stands (J : Traced ω → Prop) (cx : TimedContext ω) (a b : AsyncMessageStream ω)
    (start : Relaying (Traced ω)) (turns : List (Turn ω))
    (after : Outcome (Poll (IoResult Unit)) × Relaying (Traced ω)) : Prop where
  fine : after.1 ≠ .panicked
  accounts : Accounts J a b after.2
  active : after.1 = .returned .pending →
    ActiveSince cx a b start turns after.2.2.calls after.2.1.lastActive
  ends : ∀ result, after.1 = .returned (.ready result) →
    EndsFor cx a b start turns after.2.2 result

section Runs

variable {J : Traced ω → Prop} {start s : Relaying (Traced ω)} {turns : List (Turn ω)}

/-- One poll of a pending relay. -/
theorem Stands.polled (closedA : Closed J (recorded a .a)) (closedB : Closed J (recorded b .b))
    (closedC : ClosedContext J (recordedContext cx).toContext) (turn : Turn ω)
    (meanwhile : ∀ w, J w → J (turn.recorded.meanwhile w))
    (pending : run cx a b start turns = (.returned .pending, s))
    (stands : Stands J cx a b start turns (.returned .pending, s))
    (steady : ¬Wraps s.2.calls (pollOnce cx a b turn s).2.2.calls) :
    Stands J cx a b start (turns ++ [turn]) (pollOnce cx a b turn s) := by
  have accounts := stands.accounts
  have slept : Accounts (fun w => J w ∧ s.2.calls <+: w.calls) a b
      (s.1, turn.recorded.meanwhile s.2) :=
    ⟨accounts.carries, accounts.asks, meanwhile _ accounts.holds, List.prefix_rfl⟩
  have meets := poll_keeps (closedA.and (closed_begins a .a s.2.calls))
    (closedB.and (closed_begins b .b s.2.calls))
    ⟨fun w h => ⟨closedC.proceed w h.1, h.2⟩, fun w h => ⟨closedC.sleep w h.1, h.2⟩,
      fun w h => ⟨closedC.reset w h.1, h.2⟩⟩ slept turn.fuel
  have more : turns <+: turns ++ [turn] := List.prefix_append _ _
  have since := (stands.active rfl).mono more
  have weaker {t : Relaying (Traced ω)}
      (kept : Accounts (fun w => J w ∧ s.2.calls <+: w.calls) a b t) : Accounts J a b t :=
    ⟨kept.carries, kept.asks, kept.holds.1⟩
  unfold Exec.Meets at meets
  have once : poll turn.fuel (recordedContext cx) (recorded a .a) (recorded b .b)
      (s.1, turn.recorded.meanwhile s.2) = pollOnce cx a b turn s := rfl
  rw [once] at meets
  rcases polled : pollOnce cx a b turn s with ⟨answer | _ | _, t⟩
  · rw [polled] at steady meets
    have after : AfterPoll (fun w => J w ∧ s.2.calls <+: w.calls) a b cx s.1 answer t := meets
    -- when the counters stayed, the relay was active when it was before
    have idle (same : ∀ side, t.1.counts side = s.1.counts side) :
        ActiveSince cx a b start (turns ++ [turn]) t.2.calls s.1.lastActive := by
      obtain ⟨earlier, m, begins, ran, active, unread⟩ := since
      refine ⟨earlier, m, begins, ran, active, fun side => ?_⟩
      rw [produced_eq_of_counts accounts after.accounts after.accounts.holds.2 same steady side]
      exact unread side
    refine ⟨nofun, weaker after.accounts, ?_, ?_⟩
    · intro again
      obtain rfl := Outcome.returned.inj again
      rcases after.active with now | ⟨same, counts⟩
      · exact ⟨_, t, List.prefix_rfl, (run_concat pending turn).trans polled, now, fun _ => rfl⟩
      · dsimp only
        rw [same]
        exact idle counts
    · intro result ready
      cases after.ends result (Outcome.returned.inj ready) with
      | drained side drained => exact .drained side drained
      | failed side fails => exact .failed side fails
      | timedOut same long => exact .timedOut (idle same) long
  · rw [polled] at meets
    exact ⟨nofun, weaker meets, nofun, nofun⟩
  · rw [polled] at meets
    exact meets.elim

/-- Every run stands. -/
theorem run_stands (closedA : Closed J (recorded a .a)) (closedB : Closed J (recorded b .b))
    (closedC : ClosedContext J (recordedContext cx).toContext)
    (meanwhile : ∀ turn ∈ turns, ∀ w, J w → J (turn.recorded.meanwhile w))
    (accounts : Accounts J a b start) (active : start.1.lastActive = cx.now start.2.world)
    (steady : NeverWraps cx a b start turns) :
    Stands J cx a b start turns (run cx a b start turns) := by
  induction turns using List.reverseRecOn with
  | nil =>
      exact ⟨nofun, accounts,
        fun _ => ⟨[], start, List.prefix_rfl, rfl, active, fun _ => rfl⟩, nofun⟩
  | append_singleton turns turn ih =>
      have more : turns <+: turns ++ [turn] := List.prefix_append _ _
      have stands := ih (fun turn mem => meanwhile turn (List.mem_append_left _ mem))
        fun earlier turn begins => steady earlier turn (begins.trans more)
      by_cases pending : (run cx a b start turns).1 = .returned .pending
      · have ran : run cx a b start turns = (.returned .pending, (run cx a b start turns).2) :=
          Prod.ext pending rfl
        have last := steady turns turn List.prefix_rfl
        rw [run_concat ran] at last ⊢
        rw [ran] at stands
        exact stands.polled closedA closedB closedC turn
          (meanwhile turn (List.mem_append_right _ (List.mem_singleton_self _))) ran last
      · rw [run_concat_over pending]
        refine ⟨stands.fine, stands.accounts, fun now => absurd now pending, ?_⟩
        intro result ready
        exact (stands.ends result ready).mono more

end Runs

end CopyBidirectional

end RustProxy.UdpRelay
