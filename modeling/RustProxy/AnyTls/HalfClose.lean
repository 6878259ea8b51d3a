import RustProxy.AnyTls.StreamRelay

/-!
# Half-close

A relay between an AnyTLS stream and a destination shuts the stream down when
the destination has no more to send. `poll_shutdown` marks the stream closed as
a whole, and `poll_read` refuses a closed stream, so the relay then ends with an
error although the client may still be sending.

When every step of the session leaves the stream open until the client's FIN was
read, the relay ends only after that FIN, and everything the client pushed
before it was accepted by the destination.
-/

namespace RustProxy.AnyTls

open Session Relay

variable {δ : Type}

/-- A relay that has ended, with an error or not, has read the client's FIN, and
the destination has accepted all that the client pushed before it and that was
not read before the relay. -/
def HalfCloses (i : Nat) (begun : Instance)
    (after : Outcome (Poll (IoResult Unit)) × CopyBidirectional.Relaying (Recorded (Shared δ))) :
    Prop :=
  ∀ answer, after.1 = .returned (.ready answer) →
    ∃ inst, after.2.2.world.session.instances[i]? = some inst ∧ inst.finRead = true ∧
      begun.read ++ accepted (view .a after.2.2.calls) =
        pushed inst.id (after.2.2.world.session.arrived.drop inst.synAt)

/-- Answers of a stream without an error of its own. -/
def Sane : IoEvent → Bool
  | .read _ (.ready (.error _)) | .write _ (.ready (.error _)) => false
  | .flush (.ready (.error _)) | .shutdown (.ready (.error _)) | .ping (.ready (.error _)) => false
  | .write _ (.ready (.ok n)) => 0 < n
  | _ => true

/-- So far the session kept the instance held, and the destination made no error
of its own. -/
structure Calm (i : Nat) (w : Recorded (Shared δ)) : Prop where
  kept : Kept i w.world
  sane : ∀ call ∈ w.calls, call.1 = .b → Sane call.2 = true

/-- What was kept of the run so far is kept on. -/
def Grows (w w' : Recorded (Shared δ)) : Prop :=
  w.world.history <+: w'.world.history ∧ w.calls <+: w'.calls

variable {i : Nat} {inst begun : Instance} {me : AnyTlsStream} {w w' : Recorded (Shared δ)}

theorem Calm.earlier (h : Calm i w') (grows : Grows w w') : Calm i w where
  kept step mem := h.kept step (grows.1.subset mem)
  sane call mem := h.sane call (grows.2.subset mem)

theorem grows_self (w : Recorded (Shared δ)) : Grows w w :=
  ⟨List.prefix_refl _, List.prefix_refl _⟩

section Steps

variable {around : Surroundings δ} {cx : Context δ} {remote : AsyncStream δ}

theorem respects_destination :
    Respects Grows ((destinationOf remote).recorded .b) where
  read _ _ := ⟨List.prefix_refl _, List.prefix_append _ _⟩
  write _ _ := ⟨List.prefix_refl _, List.prefix_append _ _⟩
  flush _ := ⟨List.prefix_refl _, List.prefix_append _ _⟩
  shutdown _ := ⟨List.prefix_refl _, List.prefix_append _ _⟩
  ping _ := ⟨List.prefix_refl _, List.prefix_append _ _⟩

theorem Shared.history_prefix_operate {α : Type} (event : Bool → TaskEvent)
    (op : Bool → Session → Poll (IoResult α) × Session) (w : Shared δ) :
    w.history <+: (Shared.operate around i event op w).2.history := by
  obtain ⟨events, budget, rest, -, ran⟩ := operate_eq around i event op w
  rw [ran]
  exact (Shared.history_prefix_foldl events { w with rest }).trans (List.prefix_append _ _)

theorem respects_stream : Respects Grows ((streamOf around i).recorded .a) where
  read room w := ⟨Shared.history_prefix_operate (.read room)
    (fun budget s => s.pollRead i room budget) w.world, List.prefix_append _ _⟩
  write offered w := ⟨Shared.history_prefix_operate (.write offered)
    (fun budget s => s.pollWrite i offered budget) w.world, List.prefix_append _ _⟩
  flush _ := ⟨List.prefix_refl _, List.prefix_append _ _⟩
  shutdown w := ⟨Shared.history_prefix_operate .shutdown
    (fun budget s => s.pollShutdown i budget) w.world, List.prefix_append _ _⟩
  ping _ := ⟨List.prefix_refl _, List.prefix_append _ _⟩

/-- A call on the destination leaves the session alone, and none of them is a
read from the stream. -/
theorem Tracked.destination {call : IoEvent} (h : Tracked i begun w inst me)
    (session : w'.world.session = w.world.session) (calls : w'.calls = w.calls ++ [(.b, call)]) :
    Tracked i begun w' inst me := by
  refine h.beside session ?_ ?_
  · rw [calls, view_concat]
    cases call <;> simp [direction, Side.other, bytesRead]
  · rintro ⟨room, mem⟩
    rw [calls, view_concat] at mem
    refine ⟨room, ?_⟩
    cases call <;> simpa [direction, Side.other] using mem

/-- Flushes and pings of the stream do nothing. -/
theorem Tracked.flush {call : IoEvent} (h : Tracked i begun w inst me)
    (session : w'.world.session = w.world.session) (calls : w'.calls = w.calls ++ [(.a, call)])
    (other : direction .a call = .b) : Tracked i begun w' inst me := by
  have same : view .a w'.calls = view .a w.calls := by
    rw [calls, view_concat, if_neg (by simp [other])]
  exact h.beside session (by rw [same]) (by rw [same]; exact id)

theorem session_of_note {α : Type} {event : α → IoEvent} {side : Side} {x : α × Shared δ}
    {answer : α} {calls : List (Side × IoEvent)}
    (noted : Recorded.note side event calls x = (answer, w')) :
    w'.world.session = x.2.session := by
  rw [answer_of_note noted]

/-- A destination that is calm does not fail. -/
theorem Calm.not_failed {α : Type} {event : Poll (IoResult α) → IoEvent}
    {x : Poll (IoResult α) × Shared δ} {answer : Poll (IoResult α)} {e : IoError}
    (h : Calm i w') (noted : Recorded.note .b event w.calls x = (answer, w'))
    (insane : Sane (event (.ready (.error e))) = false) :
    ¬CopyBuffer.Idle answer (.failed e) := by
  rintro ⟨⟩
  have sane := h.sane (.b, event (.ready (.error e))) (by simp [calls_of_note noted]) rfl
  rw [insane] at sane
  cases sane

open CopyBuffer (CopyStep)

variable {buf buf' : CopyBuffer} {effect : Effect}

/-- The direction from the stream to the destination. It fails only when the FIN
was read before the relay began. -/
theorem Tracked.copyFrom (h : Tracked i begun w inst me) (valid : buf.Valid) (calm : Calm i w')
    (late : begun.finRead = false → inst.finRead = true → buf.readDone = true)
    (step : CopyStep ((streamOf around i).recorded .a) ((destinationOf remote).recorded .b)
      effect (buf, w) (buf', w')) :
    ∃ inst' me', Tracked i begun w' inst' me' ∧
      (begun.finRead = false → inst'.finRead = true → buf'.readDone = true) ∧
      me'.streamClosed = me.streamClosed ∧ me'.shutdownInProgress = me.shutdownInProgress ∧
      ∀ e, effect = .failed e → begun.finRead = true := by
  -- Before the reader has reported an end, it has not seen the FIN.
  have unread (more : buf.readDone = false) (early : begun.finRead = false) :
      inst.finRead = false := by
    by_contra read
    have done := late early (by simpa using read)
    rw [more] at done
    cases done
  cases step with
  | read more _ answered some =>
      obtain ⟨inst', me', tracked, finRead, -, flags⟩ :=
        h.pollRead valid.room_pos answered calm.kept
      refine ⟨inst', me', tracked, ?_, flags.1, flags.2, by simp⟩
      intro early read
      rcases finRead read with before | ended
      · rw [unread more early] at before
        cases before
      · exact absurd (by simpa using ended) some
  | eof more _ answered =>
      obtain ⟨inst', me', tracked, -, -, flags⟩ := h.pollRead valid.room_pos answered calm.kept
      exact ⟨inst', me', tracked, fun _ _ => rfl, flags.1, flags.2, by simp⟩
  | readIdle more _ answered idle =>
      obtain ⟨inst', me', tracked, finRead, refused, flags⟩ :=
        h.pollRead valid.room_pos answered calm.kept
      refine ⟨inst', me', tracked, fun early read => ?_, flags.1, flags.2, ?_⟩
      · rcases finRead read with before | rfl
        · rw [unread more early] at before
          cases before
        · cases idle
      · rintro e rfl
        by_contra early
        cases idle
        have read := refused _ rfl
        rw [unread more (by simpa using early)] at read
        cases read
  | pinged _ answered | wrote _ answered | flushed answered =>
      exact ⟨inst, me, h.destination (session_of_note answered) (calls_of_note answered), late, rfl,
        rfl, by simp⟩
  | pingSkipped => exact ⟨inst, me, h, late, rfl, rfl, by simp⟩
  | wroteNothing _ answered =>
      have sane := calm.sane (.b, .write buf.offered (.ready (.ok 0)))
        (by simp [calls_of_note answered]) rfl
      cases sane
  | pingIdle answered idle | writeIdle answered idle | flushIdle answered idle =>
      refine ⟨inst, me, h.destination (session_of_note answered) (calls_of_note answered), late,
        rfl, rfl, ?_⟩
      rintro e rfl
      exact absurd idle (calm.not_failed answered rfl)

/-- The direction from the destination to the stream. It does not fail while the
stream is open for writing. -/
theorem Tracked.copyTo (h : Tracked i begun w inst me) (valid : buf.Valid) (calm : Calm i w')
    (writable : me.streamClosed = false ∧ me.shutdownInProgress = false)
    (step : CopyStep ((destinationOf remote).recorded .b) ((streamOf around i).recorded .a)
      effect (buf, w) (buf', w')) :
    ∃ inst', Tracked i begun w' inst' me ∧ inst'.finRead = inst.finRead ∧
      ∀ e, effect ≠ .failed e := by
  cases step with
  | read _ _ answered | eof _ _ answered =>
      exact ⟨inst, h.destination (session_of_note answered) (calls_of_note answered), rfl, by simp⟩
  | readIdle _ _ answered idle =>
      refine ⟨inst, h.destination (session_of_note answered) (calls_of_note answered), rfl, ?_⟩
      rintro e rfl
      exact calm.not_failed answered rfl idle
  | pinged _ answered | flushed answered =>
      exact ⟨inst, h.flush (session_of_note answered) (calls_of_note answered) rfl, rfl, by simp⟩
  | pingSkipped => exact ⟨inst, h, rfl, by simp⟩
  | pingIdle answered idle | flushIdle answered idle =>
      refine ⟨inst, h.flush (session_of_note answered) (calls_of_note answered) rfl, rfl, ?_⟩
      rintro e rfl
      cases idle
      cases answer_of_note answered
  | wrote _ answered =>
      obtain ⟨inst', tracked, finRead, -⟩ := h.pollWrite answered calm.kept
      exact ⟨inst', tracked, finRead, by simp⟩
  | wroteNothing cached answered =>
      obtain ⟨-, -, -, nothing, -⟩ := h.pollWrite answered calm.kept
      exact absurd (nothing rfl) (valid.offered_ne_nil cached)
  | writeIdle answered idle =>
      obtain ⟨inst', tracked, finRead, -, refused⟩ := h.pollWrite answered calm.kept
      refine ⟨inst', tracked, finRead, ?_⟩
      rintro e rfl
      cases idle
      have closed := refused _ rfl
      rw [writable.1, writable.2] at closed
      simp at closed

end Steps

/-- What is known while the relay goes on. -/
structure Linked (i : Nat) (begun : Instance) (s : CopyBidirectional.Relaying (Recorded (Shared δ)))
    (inst : Instance) (me : AnyTlsStream) : Prop where
  tracked : Tracked i begun s.2 inst me
  late : begun.finRead = false → inst.finRead = true → s.1.aToB.buf.readDone = true
  writable : s.1.bToA.state = .running → me.streamClosed = false ∧ me.shutdownInProgress = false

section Linked

open CopyBidirectional

variable {around : Surroundings δ} {cx : Context δ} {remote : AsyncStream δ} {effect : Effect}
  {s t : Relaying (Recorded (Shared δ))}

theorem Linked.aToB {x : Transfer} (h : Linked i begun s inst me) (valid : s.1.aToB.buf.Valid)
    (calm : Calm i w) (step : TransferStep (contextOf cx).recorded ((streamOf around i).recorded .a)
      ((destinationOf remote).recorded .b) effect (s.1.aToB, s.2) (x, w)) :
    ∃ inst' me', Linked i begun ({ s.1 with aToB := x }, w) inst' me' ∧
      ∀ e, effect = .failed e → begun.finRead = true := by
  obtain ⟨⟨aToB, bToA, pings⟩, w⟩ := s
  have writable := h.writable
  cases step with
  | proceed =>
      exact ⟨inst, me, ⟨h.tracked.beside rfl rfl id, h.late, writable⟩, by simp⟩
  | copy step =>
      obtain ⟨inst', me', tracked, late, closed, closing, fails⟩ :=
        h.tracked.copyFrom valid calm h.late step
      refine ⟨inst', me', ⟨tracked, late, ?_⟩, fails⟩
      intro running
      rw [closed, closing]
      exact writable running
  | finish => exact ⟨inst, me, ⟨h.tracked, h.late, writable⟩, by simp⟩
  | shutDown answered =>
      exact ⟨inst, me, ⟨h.tracked.destination (session_of_note answered) (calls_of_note answered),
        h.late, writable⟩, by simp⟩
  | shutdownIdle answered idle =>
      refine ⟨inst, me, ⟨h.tracked.destination (session_of_note answered) (calls_of_note answered),
        h.late, writable⟩, ?_⟩
      rintro e rfl
      exact absurd idle (calm.not_failed answered rfl)

theorem Linked.bToA {x : Transfer} (h : Linked i begun s inst me) (valid : s.1.bToA.buf.Valid)
    (calm : Calm i w) (step : TransferStep (contextOf cx).recorded
      ((destinationOf remote).recorded .b) ((streamOf around i).recorded .a) effect
      (s.1.bToA, s.2) (x, w)) :
    ∃ inst' me', Linked i begun ({ s.1 with bToA := x }, w) inst' me' ∧
      ∀ e, effect = .failed e → begun.finRead = true := by
  obtain ⟨⟨aToB, bToA, pings⟩, w⟩ := s
  have late := h.late
  cases step with
  | proceed =>
      exact ⟨inst, me, ⟨h.tracked.beside rfl rfl id, late, h.writable⟩, by simp⟩
  | copy step =>
      obtain ⟨inst', tracked, finRead, fine⟩ :=
        h.tracked.copyTo valid calm (h.writable rfl) step
      refine ⟨inst', me, ⟨tracked, ?_, h.writable⟩, fun e failed => absurd failed (fine e)⟩
      rw [finRead]
      exact late
  | finish => exact ⟨inst, me, ⟨h.tracked, late, by simp⟩, by simp⟩
  | shutDown answered =>
      obtain ⟨inst', me', tracked, finRead, -⟩ := h.tracked.pollShutdown answered calm.kept
      refine ⟨inst', me', ⟨tracked, ?_, by simp⟩, by simp⟩
      rw [finRead]
      exact late
  | shutdownIdle answered idle =>
      obtain ⟨inst', me', tracked, finRead, fine⟩ := h.tracked.pollShutdown answered calm.kept
      refine ⟨inst', me', ⟨tracked, ?_, by simp⟩, ?_⟩
      · rw [finRead]
        exact late
      · rintro e rfl
        cases idle
        exact absurd rfl (fine _)

/-- One step of the relay. -/
theorem Linked.step (h : Linked i begun s inst me) (valid : s.1.Valid) (calm : Calm i t.2)
    (step : RelayStep (contextOf cx).recorded ((streamOf around i).recorded .a)
      ((destinationOf remote).recorded .b) effect s t) :
    ∃ inst' me', Linked i begun t inst' me' ∧ ∀ e, effect = .failed e → begun.finRead = true := by
  cases step with
  | sleep => exact ⟨inst, me, ⟨h.tracked.beside rfl rfl id, h.late, h.writable⟩, by simp⟩
  | fire fired =>
      obtain ⟨-, rfl⟩ := Prod.mk.inj fired
      exact ⟨inst, me, ⟨h.tracked.beside rfl rfl id, h.late, h.writable⟩, by simp⟩
  | transfer side step =>
      cases side with
      | a => exact h.aToB (valid .a) calm step
      | b => exact h.bToA (valid .b) calm step

/-- The relay accounts for its bytes and, as long as the run is calm, is linked to
the session. -/
structure Relayed (i : Nat) (begun : Instance) (s : Relaying (Recorded (Shared δ))) : Prop where
  accounts : Accounts s
  linked : Calm i s.2 → ∃ inst me, Linked i begun s inst me

/-- What a run that stayed calm ends with. -/
def Ended (i : Nat) (begun : Instance) (s : Relaying (Recorded (Shared δ))) : Prop :=
  Calm i s.2 → ∃ inst, s.2.world.session.instances[i]? = some inst ∧ inst.finRead = true ∧
    begun.read ++ accepted (view .a s.2.calls) =
      pushed inst.id (s.2.world.session.arrived.drop inst.synAt)

/-- When the FIN was read and what the relay read was accepted, so was all that the
client pushed. -/
theorem Tracked.ended (h : Tracked i begun w inst me) (finRead : inst.finRead = true)
    (complete : accepted (view .a w.calls) = produced (view .a w.calls)) :
    ∃ inst, w.world.session.instances[i]? = some inst ∧ inst.finRead = true ∧
      begun.read ++ accepted (view .a w.calls) =
        pushed inst.id (w.world.session.arrived.drop inst.synAt) := by
  refine ⟨inst, h.found, finRead, ?_⟩
  rw [complete, ← h.read]
  exact h.sound.marked.read_eq_pushed h.found h.stream finRead

theorem Relayed.ended_done (h : Relayed i begun s) (done : s.1.aToB.state = .done) :
    Ended i begun s := by
  intro calm
  obtain ⟨inst, me, linked⟩ := h.linked calm
  have drained : Drained (view .a s.2.calls) := (h.accounts .a).copied (by simp [transfer, done])
  exact linked.tracked.ended (linked.tracked.eof drained.eof) drained.complete

theorem Relayed.ended_early (h : Relayed i begun s) (early : Calm i s.2 → begun.finRead = true) :
    Ended i begun s := by
  intro calm
  obtain ⟨inst, me, linked⟩ := h.linked calm
  obtain ⟨finRead, nothing⟩ := linked.tracked.early (early calm)
  have fifo := (h.accounts .a).fifo
  rw [nothing] at fifo
  refine linked.tracked.ended finRead ?_
  rw [nothing]
  exact (List.append_eq_nil_iff.mp fifo).1

theorem RelayStep.grows (step : RelayStep (contextOf cx).recorded ((streamOf around i).recorded .a)
    ((destinationOf remote).recorded .b) effect s t) : Grows s.2 t.2 :=
  RelayStep.respects grows_self respects_stream respects_destination (fun _ => grows_self _)
    (fun _ => grows_self _) (fun _ => grows_self _) step

theorem Relayed.step (h : Relayed i begun s)
    (step : RelayStep (contextOf cx).recorded ((streamOf around i).recorded .a)
      ((destinationOf remote).recorded .b) effect s t) :
    Relayed i begun t ∧ ∀ e, effect = .failed e → Calm i t.2 → begun.finRead = true := by
  have next (calm : Calm i t.2) : ∃ inst me, Linked i begun t inst me ∧
      ∀ e, effect = .failed e → begun.finRead = true := by
    obtain ⟨inst, me, linked⟩ := h.linked (calm.earlier (RelayStep.grows step))
    exact linked.step h.accounts.valid calm step
  refine ⟨⟨h.accounts.step step, fun calm => ?_⟩, fun e failed calm => ?_⟩
  · obtain ⟨inst, me, linked, -⟩ := next calm
    exact ⟨inst, me, linked⟩
  · obtain ⟨-, -, -, early⟩ := next calm
    exact early e failed

theorem Relayed.relays (h : Relayed i begun s)
    (steps : Relays (contextOf cx).recorded ((streamOf around i).recorded .a)
      ((destinationOf remote).recorded .b) s t) : Relayed i begun t ∧ Grows s.2 t.2 := by
  induction steps with
  | refl => exact ⟨h, grows_self _⟩
  | tail _ last ih =>
      obtain ⟨effect, step⟩ := last
      obtain ⟨before, grows⟩ := ih
      have grown := RelayStep.grows step
      exact ⟨(before.step step).1, grows.1.trans grown.1, grows.2.trans grown.2⟩

/-- What a poll leaves, by its answer. -/
def PollLeaves (i : Nat) (begun : Instance) (answer : Poll (IoResult Unit))
    (s : Relaying (Recorded (Shared δ))) : Prop :=
  Relayed i begun s ∧ ∀ result, answer = .ready result → Ended i begun s

theorem Relayed.poll {answer : Poll (IoResult Unit)} (h : Relayed i begun s)
    (does : PollDoes (contextOf cx).recorded ((streamOf around i).recorded .a)
      ((destinationOf remote).recorded .b) s answer t) : PollLeaves i begun answer t := by
  rcases answer with _ | e | _
  · exact ⟨(h.relays does).1, by simp⟩
  · obtain ⟨m, m', start, last, rest⟩ := does
    obtain ⟨relayed, early⟩ := (h.relays start).1.step last
    obtain ⟨after, grows⟩ := relayed.relays rest
    exact ⟨after, fun _ _ => after.ended_early fun calm => early e rfl (calm.earlier grows)⟩
  · have after := (h.relays does.1).1
    exact ⟨after, fun _ _ => after.ended_done (does.2 .a)⟩

theorem Relayed.pollAll (h : Relayed i begun s) (around : Surroundings δ) (cx : Context δ)
    (remote : AsyncStream δ) (turns : List (Turn δ)) :
    (pollAll (contextOf cx).recorded ((streamOf around i).recorded .a)
      ((destinationOf remote).recorded .b) ((turns.map turnOf).map Turn.recorded)).Meets s
      (fun _ => True) (PollLeaves i begun) := by
  induction turns generalizing s with
  | nil => exact ⟨h, by simp⟩
  | cons turn turns ih =>
      refine Exec.Meets.bind (M := fun _ => Relayed i begun) (.of_returned (a := ⟨⟩) rfl ?_)
        fun _ t before => ?_
      · refine ⟨h.accounts, ?_⟩
        intro calm
        obtain ⟨inst, me, linked⟩ := h.linked ⟨calm.kept, calm.sane⟩
        exact ⟨inst, me, linked.tracked.beside rfl rfl id, linked.late, linked.writable⟩
      · refine Exec.Meets.bind (M := PollLeaves i begun) ?_ fun answer u after => ?_
        · exact (poll_does before.accounts.valid _).mono (fun _ _ => trivial)
            fun answer u does => before.poll does
        · cases answer with
          | pending => exact ih after.1
          | ready => exact after

end Linked

/-- A relay that begins on an open stream, in a session in which the instance was
held so far, honours the client's half of the stream in every run that stays
calm. -/
theorem half_closes_along (setting : Setting δ) (memory : Side → Nat → UInt8)
    {aToBBufSize bToABufSize : Nat} (aToB : 0 < aToBBufSize) (bToA : 0 < bToABufSize)
    (events : List Event) {session : Session}
    (ran : events.foldlM (step setting.around.padding) Session.start = some session)
    (before : Transition.Along (step setting.around.padding) (keepsHeld setting.i · ·) Session.start
      events)
    {begun : Instance} {me : AnyTlsStream} (found : session.instances[setting.i]? = some begun)
    (relaying : begun.task = .relaying) (stream : begun.stream = some me)
    (opened : me.streamClosed = false ∧ me.shutdownInProgress = false)
    (rest : δ) (turns : List (CopyBidirectional.Turn δ))
    (calm : Calm setting.i
      (setting.relay memory aToBBufSize bToABufSize session rest turns).2.2) :
    HalfCloses setting.i begun
      (setting.relay memory aToBBufSize bToABufSize session rest turns) := by
  have sound : Sound session setting.i :=
    Transition.invariant_of_run (I := fun s => Sound s setting.i)
      (fun _ _ _ h met taken => h.step met taken) sound_start before ran
  have start : Relayed setting.i begun (copyBidirectionalWithSizes memory setting.stream
      (destinationOf setting.destination) ⟨session, rest, []⟩ false false aToBBufSize bToABufSize,
      Recorded.start ⟨session, rest, []⟩) := by
    refine ⟨CopyBidirectional.accounts_start aToB bToA,
      fun _ => ⟨begun, me, ?_, ?_, fun _ => opened⟩⟩
    · refine ⟨sound, found, stream, relaying, by simp [Recorded.start, view, produced], ?_, ?_⟩
      · rintro ⟨room, mem⟩
        simp [Recorded.start, view] at mem
      · exact fun early => ⟨early, rfl⟩
    · intro unread read
      rw [unread] at read
      cases read
  have leaves := start.pollAll setting.around setting.context setting.destination turns
  exact fun answer answered => (leaves.returned answered).2 answer rfl calm

/-- A destination that takes everything and has nothing to send. -/
def silent : AsyncStream δ where
  pollRead _ w := (.ready (.ok []), w)
  pollWrite offered w := (.ready (.ok offered.length), w)
  pollFlush w := (.ready (.ok ()), w)
  pollShutdown w := (.ready (.ok ()), w)
  supportsPing _ := false
  pollWritePing w := (.ready (.ok false), w)
  read_fits room w bytes answered := by
    obtain rfl : [] = bytes := by simpa using answered
    exact Nat.zero_le room
  write_fits offered w n answered := by
    obtain rfl : offered.length = n := by simpa using answered
    exact Nat.le_refl _

/-- The first stream of a session and a silent destination, with the steps that the
other tasks take before each operation of the stream. -/
def scripted : Setting (List (List Event)) where
  around := ⟨⟨[], []⟩, fun script => (script.headD [], true, script.tail)⟩
  context := CopyBidirectional.idleContext
  destination := silent
  i := 0

/-- A stream is opened by a SYN and connected. -/
def connected : List Event :=
  [.recv .loopTop, .recv (.decoded (.control .settings 0)), .recv (.decoded (.control .syn 1)),
    .recv .streamsLocked, .recv .handleStored, .task 0 (.opened none)]

/-- The session in which the relay of that stream begins. -/
def relaying : Session :=
  (connected.foldlM (step ⟨[], []⟩) Session.start).get (by decide +kernel)

/-- Its instance. -/
def connectedStream : Instance := { Instance.new 1 2 with task := .relaying }

/-- The client pushes a byte and then its FIN, before the destination is read. -/
def finishedUpload : Outcome (Poll (IoResult Unit)) ×
    CopyBidirectional.Relaying (Recorded (Shared (List (List Event)))) :=
  scripted.relay (fun _ _ => 0) 4 4 relaying
    [[.recv (.decoded (.psh 1 [7])), .recv .streamsLocked, .recv .pushed],
      [.recv (.decoded (.control .fin 1)), .recv .streamsLocked, .recv .pushed]] [⟨id, 5⟩]

/-- A second stream is opened and connected. -/
def connectedTwo : List Event :=
  connected ++ [.recv (.decoded (.control .syn 2)), .recv .streamsLocked, .recv .handleStored,
    .task 1 (.opened none)]

/-- The destination ends first, when the second stream has filled the outgoing
channel. The shutdown waits for a place, and meanwhile the client pushes its byte
and its FIN. -/
def waitingShutdown : Outcome (Poll (IoResult Unit)) ×
    CopyBidirectional.Relaying (Recorded (Shared (List (List Event)))) :=
  scripted.relay (fun _ _ => 0) 4 4
    ((connectedTwo.foldlM (step ⟨[], []⟩) Session.start).get (by decide +kernel))
    [[], List.replicate OUTGOING_BUFFER (.task 1 (.write [7] true)),
      [.recv (.decoded (.psh 1 [7])), .recv .streamsLocked, .recv .pushed],
      [.recv (.decoded (.control .fin 1)), .recv .streamsLocked, .recv .pushed],
      [.outgoing .taken]] [⟨id, 5⟩, ⟨id, 5⟩]

/-- Both relays end well, and honour the client's half of the stream. -/
theorem finished_upload_half_closes :
    (finishedUpload.1 = .returned (.ready (.ok ())) ∧
      HalfCloses 0 connectedStream finishedUpload) ∧
    (.a, .shutdown .pending) ∈ waitingShutdown.2.2.calls ∧
      waitingShutdown.1 = .returned (.ready (.ok ())) ∧
      HalfCloses 0 connectedStream waitingShutdown := by
  refine ⟨⟨by decide +kernel, ?_⟩, by decide +kernel, by decide +kernel, ?_⟩
  · exact half_closes_along scripted (fun _ _ => 0) (by decide) (by decide) connected
      (Option.some_get _).symm (by decide +kernel) (by decide +kernel) rfl rfl ⟨rfl, rfl⟩ _ _
      ⟨by unfold Kept; decide +kernel, by decide +kernel⟩
  · exact half_closes_along scripted (fun _ _ => 0) (by decide) (by decide) connectedTwo
      (Option.some_get _).symm (by decide +kernel) (by decide +kernel) rfl rfl ⟨rfl, rfl⟩ _ _
      ⟨by unfold Kept; decide +kernel, by decide +kernel⟩

/-- The destination ends first, and the client pushes its first byte after the
first poll of the relay. -/
def lateUpload : Outcome (Poll (IoResult Unit)) ×
    CopyBidirectional.Relaying (Recorded (Shared (List (List Event)))) :=
  scripted.relay (fun _ _ => 0) DEFAULT_BUF_SIZE DEFAULT_BUF_SIZE relaying
    [[], [], [.recv (.decoded (.psh 1 [7])), .recv .streamsLocked, .recv .pushed]]
    [⟨id, 5⟩, ⟨id, 5⟩]

/-- The session is open, the destination makes no error, and the second poll ends
the relay with the byte unread. -/
theorem late_upload_cut_off :
    (∀ step ∈ lateUpload.2.2.world.history, step.1.isClosed = false) ∧
      lateUpload.2.2.world.session.isClosed = false ∧
      (∀ call ∈ lateUpload.2.2.calls, call.1 = .b → Sane call.2 = true) ∧
      ¬HalfCloses 0 connectedStream lateUpload := by
  -- One evaluation of the run for all that is read off it.
  obtain ⟨open_, openStill, sane, ended, unread⟩ :
      (∀ step ∈ lateUpload.2.2.world.history, step.1.isClosed = false) ∧
        lateUpload.2.2.world.session.isClosed = false ∧
        (∀ call ∈ lateUpload.2.2.calls, call.1 = .b → Sane call.2 = true) ∧
        lateUpload.1 = .returned (.ready (.error (AnyTlsStream.brokenPipe "stream closed"))) ∧
        lateUpload.2.2.world.session.finRead 0 = false := by
    decide +kernel
  refine ⟨open_, openStill, sane, ?_⟩
  intro honoured
  obtain ⟨inst, found, read, -⟩ := honoured _ ended
  rw [finRead_eq found, read] at unread
  cases unread

end RustProxy.AnyTls
