import RustProxy.AnyTls.HalfClose
import RustProxy.AnyTls.Outbound

/-!
# From end to end

A stream's relay between a session and a destination, with whatever the session
and its other tasks do meanwhile: other streams come and go, the session closes,
the connection fails. What the destination has accepted is a prefix of what the
client pushed for this stream and no other; the payloads on the wire for this
stream are a prefix of what the destination produced; and the client sees a FIN
of the server only behind all of it, when the destination has nothing more to
send.

The upload needs no condition at all. For the download the connection writer may
not fail in the middle of a frame, neither before the relay nor beside it.
-/

namespace RustProxy.AnyTls

open Session Relay

variable {δ : Type} {s t : Session} {i : Nat} {inst inst' begun : Instance} {me : AnyTlsStream}

/-! ## Other tasks -/

/-- What other tasks leave of an instance that is being relayed. -/
structure Undisturbed (inst inst' : Instance) : Prop where
  id : inst'.id = inst.id
  synAt : inst'.synAt = inst.synAt
  read : inst'.read = inst.read
  accepted : inst'.accepted = inst.accepted
  stream : inst'.stream = inst.stream
  task : inst'.task = inst.task

theorem undisturbed_self (inst : Instance) : Undisturbed inst inst := ⟨rfl, rfl, rfl, rfl, rfl, rfl⟩

theorem Undisturbed.trans {inst'' : Instance} (h : Undisturbed inst inst')
    (next : Undisturbed inst' inst'') : Undisturbed inst inst'' where
  id := next.id.trans h.id
  synAt := next.synAt.trans h.synAt
  read := next.read.trans h.read
  accepted := next.accepted.trans h.accepted
  stream := next.stream.trans h.stream
  task := next.task.trans h.task

/-- A close that was left to the task of an instance ends with a step of that
task, which is not being relayed. -/
theorem Finishes.undisturbed {closer : Closer} (h : Finishes s closer t)
    (found : s.instances[i]? = some inst) (relaying : inst.task = .relaying) :
    t.instances[i]? = some inst := by
  cases h with
  | run | alone => exact found
  | @task j _ error _ there at_ answers =>
      have other : j ≠ i := by
        rintro rfl
        obtain rfl := Option.some.inj (found.symm.trans there)
        rw [relaying] at at_
        cases at_
      cases answers with
      | relay | fail => exact (List.getElem?_set_ne other).trans found

theorem others_leave {event : Event} (others : ∀ e, event ≠ .task i e)
    (found : s.instances[i]? = some inst) (relaying : inst.task = .relaying)
    (taken : Taken s event t) :
    ∃ inst', t.instances[i]? = some inst' ∧ Undisturbed inst inst' := by
  have same {u : Session} (instances : u.instances = s.instances) :
      ∃ inst', u.instances[i]? = some inst' ∧ Undisturbed inst inst' :=
    ⟨inst, by rw [instances, found], undisturbed_self inst⟩
  cases taken with
  | recv does =>
      cases does with
      | calm | arrive | psh | syn | fin | pshMissed | pshFound | synDuplicate | finMissed | finFound
      | receiverGone | stored => exact same rfl
      | leave => exact same (leaveRecvLoop_instances _)
      | synAccepted =>
          refine ⟨inst, ?_, undisturbed_self inst⟩
          rw [accept, List.getElem?_append_left (List.getElem?_eq_some_iff.mp found).1, found]
      | @pushed target data at_ _ _ there =>
          by_cases own : target = i
          · subst own
            obtain rfl := Option.some.inj (found.symm.trans there)
            refine ⟨{ inst with inbound := inst.inbound ++ [data] }, ?_, rfl, rfl, rfl,
              rfl, rfl, rfl⟩
            simp [(List.getElem?_eq_some_iff.mp found).1]
          · refine ⟨inst, ?_, undisturbed_self inst⟩
            rw [List.getElem?_set_ne own, found]
  | close does =>
      cases does with
      | drained =>
          obtain ⟨aborted, there⟩ : ∃ aborted, (abortAll s.streamTasks s.instances)[i]? =
              some { inst with aborted } := by
            simp only [abortAll, List.getElem?_mapIdx, found, Option.map_some]
            split
            · exact ⟨true, rfl⟩
            · exact ⟨inst.aborted, rfl⟩
          exact ⟨_, there, rfl, rfl, rfl, rfl, rfl, rfl⟩
      | cleared => exact same rfl
      | clearedLast _ finishes =>
          exact ⟨inst, finishes.undisturbed found relaying, undisturbed_self inst⟩
      | shut _ finishes =>
          exact ⟨inst, finishes.undisturbed found relaying, undisturbed_self inst⟩
  | outgoing does => cases does <;> exact same rfl
  | @task j _ event _ there does =>
      have other : j ≠ i := by
        rintro rfl
        exact others event rfl
      cases does.did with
      | idle => exact same rfl
      | acted =>
          refine ⟨inst, ?_, undisturbed_self inst⟩
          rw [put, List.getElem?_set_ne other, found]

/-! ## The session of a relay -/

/-- The connection writer did not fail, as far as the other tasks met it. -/
def Steadily (i : Nat) (w : Shared δ) : Prop :=
  ∀ step ∈ w.history, step.2.ofTask i = false → steady step.2 = true

/-- What is known of the session around a relay at any time. `before` is that the
session came about under a steady connection writer. -/
structure SessionOk (i : Nat) (before : Prop) (w : Shared δ) (session : Session) : Prop where
  demuxed : Demuxed session
  waits : RunWaits session
  ordered : before → Steadily i w → Ordered session

theorem Steadily.earlier {w w' : Shared δ} (h : Steadily i w') (grows : w.history <+: w'.history) :
    Steadily i w := fun step mem => h step (grows.subset mem)

variable {around : Surroundings δ} {before : Prop}

/-- What other tasks do while the instance is relayed. -/
theorem sessionOk_foldl (padding : Padding) {events : List Event} {w : Shared δ}
    (h : SessionOk i before w w.session)
    (others : ∀ event ∈ events, event.ofTask i = false)
    (found : w.session.instances[i]? = some inst) (relaying : inst.task = .relaying) :
    let after := events.foldl (Shared.step padding) w
    SessionOk i before after after.session ∧
      ∃ inst', after.session.instances[i]? = some inst' ∧ Undisturbed inst inst' := by
  induction events generalizing w inst with
  | nil => exact ⟨h, inst, found, undisturbed_self inst⟩
  | cons event events ih =>
      have rest := fun e mem => others e (List.mem_cons_of_mem _ mem)
      have own := others event List.mem_cons_self
      rw [List.foldl_cons]
      cases taken : w.session.step padding event with
      | none =>
          have stays : w.step padding event = w := by simp [Shared.step, taken]
          rw [stays]
          exact ih h rest found relaying
      | some t =>
          have moves : w.step padding event = ⟨t, w.rest, w.history ++ [(w.session, event)]⟩ := by
            simp [Shared.step, taken]
          have does := taken_of_step taken
          have other : ∀ e, event ≠ .task i e := by
            rintro e rfl
            simp [Event.ofTask] at own
          obtain ⟨middle, foundMiddle, same⟩ := others_leave other found relaying does
          rw [moves]
          have next : SessionOk i before ⟨t, w.rest, w.history ++ [(w.session, event)]⟩ t := by
            refine ⟨h.demuxed.step h.waits does, h.waits.step does, ?_⟩
            intro past steadily
            have met := steadily (w.session, event)
              (List.mem_append_right _ (List.mem_singleton_self _)) own
            exact (h.ordered past (steadily.earlier (List.prefix_append _ _))).step h.demuxed.named
              met does
          obtain ⟨okThen, inst', foundThen, sameThen⟩ :=
            ih next rest foundMiddle (same.task.trans relaying)
          exact ⟨okThen, inst', foundThen, same.trans sameThen⟩

/-! ## Operations of the stream -/

/-- What is known of the instance of a relay, from the session and from the calls
of the relay. -/
structure Passes (i : Nat) (before : Prop) (begun : Instance) (w : Recorded (Shared δ))
    (inst : Instance) (me : AnyTlsStream) : Prop where
  session : SessionOk i before w.world w.world.session
  found : w.world.session.instances[i]? = some inst
  stream : inst.stream = some me
  relaying : inst.task = .relaying
  id : inst.id = begun.id
  synAt : inst.synAt = begun.synAt
  read : inst.read = begun.read ++ produced (view .a w.calls)
  accepted : inst.accepted = begun.accepted ++ accepted (view .b w.calls)

/-- Calls on the destination, the timer and the budget leave the session alone. -/
theorem Passes.beside {w w' : Recorded (Shared δ)} (h : Passes i before begun w inst me)
    (session : w'.world.session = w.world.session) (history : w'.world.history = w.world.history)
    (read : produced (view .a w'.calls) = produced (view .a w.calls))
    (accepted : Relay.accepted (view .b w'.calls) = Relay.accepted (view .b w.calls)) :
    Passes i before begun w' inst me where
  session := by
    rw [session]
    refine ⟨h.session.demuxed, h.session.waits, ?_⟩
    intro past steadily
    refine h.session.ordered past ?_
    rw [Steadily, ← history]
    exact steadily
  found := session ▸ h.found
  stream := h.stream
  relaying := h.relaying
  id := h.id
  synAt := h.synAt
  read := read ▸ h.read
  accepted := accepted ▸ h.accepted

/-- An operation of the stream is a step of the session, after steps of other
tasks that leave the instance undisturbed. -/
theorem Passes.operate {α : Type} {event : Bool → TaskEvent}
    {op : Bool → Session → Poll (IoResult α) × Session} {w : Recorded (Shared δ)}
    {answer : Poll (IoResult α)} {world : Shared δ} (h : Passes i before begun w inst me)
    (ran : Shared.operate around i event op w.world = (answer, world))
    (steps : ∀ budget (s : Session) (x : Instance), s.instances[i]? = some x →
      x.task = .relaying → s.step around.padding (.task i (event budget)) = some (op budget s).2) :
    ∃ s budget x, Undisturbed inst x ∧ s.instances[i]? = some x ∧ Named s ∧
      (before → Steadily i world → Ordered s) ∧ op budget s = (answer, world.session) ∧
      Demuxed world.session ∧ RunWaits world.session := by
  obtain ⟨events, budget, rest, others, done⟩ := operate_eq around i event op w.world
  rw [ran] at done
  obtain ⟨rfl, rfl⟩ := Prod.mk.inj done
  have start : SessionOk i before { w.world with rest } w.world.session :=
    ⟨h.session.demuxed, h.session.waits, h.session.ordered⟩
  obtain ⟨ok, x, found, same⟩ :=
    sessionOk_foldl around.padding start others h.found h.relaying
  have does := taken_of_step (steps budget _ x found (same.task.trans h.relaying))
  refine ⟨_, budget, x, same, found, ok.demuxed.named, ?_, rfl, ?_, ?_⟩
  · intro past steadily
    exact ok.ordered past (steadily.earlier (List.prefix_append _ _))
  · exact ok.demuxed.step ok.waits does
  · exact ok.waits.step does

/-- What an operation did to the instance is what it did to the session. -/
theorem Passes.operated {w w' : Recorded (Shared δ)} {x : Instance} {me' : AnyTlsStream}
    {items : List Item} {waiting granted : List Nat} (h : Passes i before begun w inst me)
    (same : Undisturbed inst x) (found : s.instances[i]? = some x)
    (ordered : before → Steadily i w'.world → Ordered s) (demuxed : Demuxed w'.world.session)
    (waits : RunWaits w'.world.session)
    (put : w'.world.session = s.put i inst' items waiting granted)
    (advances : Advances i x inst' items) (task : SameTask x inst')
    (stream : inst'.stream = some me')
    (read : inst'.read = begun.read ++ produced (view .a w'.calls))
    (accepted : inst'.accepted = begun.accepted ++ Relay.accepted (view .b w'.calls)) :
    Passes i before begun w' inst' me' where
  session := by
    refine ⟨demuxed, waits, ?_⟩
    intro past steadily
    rw [put]
    exact (ordered past steadily).move found advances
  found := by
    rw [put]
    exact getElem?_put found
  stream := stream
  relaying := by rw [task.task, same.task, h.relaying]
  id := by rw [advances.id, same.id, h.id]
  synAt := by rw [task.synAt, same.synAt, h.synAt]
  read := read
  accepted := accepted

theorem Reads.brings {room : Nat} {answer : Poll (IoResult Bytes)}
    (stream : inst.stream = some me) (h : Reads s i inst me room answer inst') :
    inst'.read = inst.read ++ bytesRead (.read room answer) ∧ inst'.accepted = inst.accepted ∧
      ∃ me', inst'.stream = some me' ∧ me'.streamClosed = me.streamClosed := by
  cases h with
  | refused | atEnd | waits => exact ⟨(List.append_nil _).symm, rfl, me, stream, rfl⟩
  | fin | hungUp => exact ⟨(List.append_nil _).symm, rfl, _, rfl, rfl⟩
  | kept =>
      refine ⟨rfl, rfl, _, rfl, ?_⟩
      unfold AnyTlsStream.consume
      split <;> rfl
  | chunk =>
      refine ⟨rfl, rfl, _, rfl, ?_⟩
      unfold AnyTlsStream.keep
      split <;> rfl

theorem Passes.pollRead {w w' : Recorded (Shared δ)} {room : Nat} {answer : Poll (IoResult Bytes)}
    (h : Passes i before begun w inst me)
    (answered : ((streamOf around i).recorded .a).pollRead room w = (answer, w')) :
    ∃ inst' me', Passes i before begun w' inst' me' ∧ me'.streamClosed = me.streamClosed := by
  have steps (budget : Bool) (s : Session) (x : Instance) (found : s.instances[i]? = some x)
      (relaying : x.task = .relaying) : s.step around.padding (.task i (.read room budget)) =
        some (s.pollRead i room budget).2 := by
    simp [Session.step, found, taskStep, relaying]
  obtain ⟨s, budget, x, same, found, -, ordered, op, demuxed, waits⟩ :=
    h.operate (answer_of_note answered) steps
  have stream : x.stream = some me := same.stream.trans h.stream
  obtain ⟨inst', reads, put⟩ := pollRead_reads found stream room budget
  rw [op] at reads put
  obtain ⟨read, accepted, me', streamThen, closed⟩ := reads.brings stream
  refine ⟨inst', me', ?_, closed⟩
  refine h.operated same found ordered demuxed waits put (reads.advances stream) reads.sameTask
    streamThen ?_ ?_
  · rw [view_of_note .a answered rfl, produced_concat, read, same.read, h.read, List.append_assoc]
  · rw [accepted, same.accepted, h.accepted, calls_of_note answered, view_concat]
    rfl

/-- A write of the relay, which offers something when it has been accepted. -/
theorem Passes.pollWrite {w w' : Recorded (Shared δ)} {offered : Bytes}
    {answer : Poll (IoResult Nat)} (h : Passes i before begun w inst me)
    (some_ : ∀ n, answer = .ready (.ok n) → offered ≠ [])
    (answered : ((streamOf around i).recorded .a).pollWrite offered w = (answer, w')) :
    ∃ inst', Passes i before begun w' inst' me := by
  have steps (budget : Bool) (s : Session) (x : Instance) (found : s.instances[i]? = some x)
      (relaying : x.task = .relaying) : s.step around.padding (.task i (.write offered budget)) =
        some (s.pollWrite i offered budget).2 := by
    simp [Session.step, found, taskStep, relaying]
  obtain ⟨s, budget, x, same, found, named, ordered, op, demuxed, waits⟩ :=
    h.operate (answer_of_note answered) steps
  have stream : x.stream = some me := same.stream.trans h.stream
  obtain ⟨inst', items, waiting, granted, writes, put⟩ :=
    pollWrite_writes found stream offered budget
  rw [op] at writes put
  have advances : Advances i x inst' items := by
    cases writes with
    | refused | waits => exact advances_self
    | sent opened running size =>
        have sent : Writes s i x me offered (.ready (.ok _)) _ _ := .sent opened running size
        exact sent.advances stream (named.stream i x me found stream) (some_ _ rfl)
          (same.task.trans h.relaying)
  have brings : inst'.read = x.read ∧ inst'.stream = x.stream ∧
      inst'.accepted = x.accepted ++ bytesWritten (.write offered answer) := by
    cases writes with
    | refused | waits => exact ⟨rfl, rfl, (List.append_nil _).symm⟩
    | sent => exact ⟨rfl, rfl, rfl⟩
  obtain ⟨read, streamThen, accepted⟩ := brings
  refine ⟨inst', h.operated same found ordered demuxed waits put advances writes.sameTask
    (streamThen.trans stream) ?_ ?_⟩
  · rw [read, same.read, h.read, calls_of_note answered, view_concat]
    rfl
  · rw [view_of_note .b answered rfl, accepted_concat, accepted, same.accepted, h.accepted,
      List.append_assoc]

theorem Passes.pollShutdown {w w' : Recorded (Shared δ)} {answer : Poll (IoResult Unit)}
    (h : Passes i before begun w inst me)
    (answered : ((streamOf around i).recorded .a).pollShutdown w = (answer, w')) :
    ∃ inst' me', Passes i before begun w' inst' me' := by
  have steps (budget : Bool) (s : Session) (x : Instance) (found : s.instances[i]? = some x)
      (relaying : x.task = .relaying) : s.step around.padding (.task i (.shutdown budget)) =
        some (s.pollShutdown i budget).2 := by
    simp [Session.step, found, taskStep, relaying]
  obtain ⟨s, budget, x, same, found, named, ordered, op, demuxed, waits⟩ :=
    h.operate (answer_of_note answered) steps
  have stream : x.stream = some me := same.stream.trans h.stream
  obtain ⟨inst', items, waiting, granted, shuts, put⟩ := pollShutdown_shuts found stream budget
  rw [op] at shuts put
  have advances : Advances i x inst' items :=
    shuts.advances stream (named.stream i x me found stream) (same.task.trans h.relaying)
  have brings : inst'.read = x.read ∧ inst'.accepted = x.accepted ∧
      ∃ me', inst'.stream = some me' := by
    cases shuts with
    | already => exact ⟨rfl, rfl, me, stream⟩
    | silent | waits | sent => exact ⟨rfl, rfl, _, rfl⟩
  obtain ⟨read, accepted, me', streamThen⟩ := brings
  refine ⟨inst', me', h.operated same found ordered demuxed waits put advances shuts.sameTask
    streamThen ?_ ?_⟩
  · rw [read, same.read, h.read, calls_of_note answered, view_concat]
    rfl
  · rw [view_of_note .b answered rfl, accepted_concat, accepted, same.accepted, h.accepted]
    simp [bytesWritten]

/-- Calls that do nothing to the session: those on the destination, and flushes
and pings of the stream. -/
theorem Passes.aside {α : Type} {event : α → IoEvent} {x : α × Shared δ} {answer : α}
    {w w' : Recorded (Shared δ)} {side : Side} (h : Passes i before begun w inst me)
    (noted : Recorded.note side event w.calls x = (answer, w'))
    (session : x.2.session = w.world.session) (history : x.2.history = w.world.history)
    (other : side = .b ∨ (bytesRead (event answer) = [] ∧ bytesWritten (event answer) = [])) :
    Passes i before begun w' inst me := by
  have world : w'.world = x.2 := by rw [answer_of_note noted]
  have calls := calls_of_note noted
  generalize event answer = call at other calls
  refine h.beside (by rw [world, session]) (by rw [world, history]) ?_ ?_
  · rw [calls, view_concat]
    rcases other with rfl | ⟨none_, -⟩
    · cases call <;> simp [direction, Side.other, bytesRead]
    · split <;> simp [none_]
  · rw [calls, view_concat]
    rcases other with rfl | ⟨-, none_⟩
    · cases call <;> simp [direction, Side.other, bytesWritten]
    · split <;> simp [none_]

/-! ## Steps of the relay -/

section Steps

open CopyBuffer (CopyStep)

variable {w w' : Recorded (Shared δ)} {buf buf' : CopyBuffer} {effect : Effect}
  {remote : AsyncStream δ} {cx : Context δ}

/-- The direction from the stream to the destination. -/
theorem Passes.copyFrom (h : Passes i before begun w inst me)
    (step : CopyStep ((streamOf around i).recorded .a) ((destinationOf remote).recorded .b)
      effect (buf, w) (buf', w')) :
    ∃ inst' me', Passes i before begun w' inst' me' ∧ me'.streamClosed = me.streamClosed := by
  cases step with
  | read _ _ answered | eof _ _ answered | readIdle _ _ answered => exact h.pollRead answered
  | pinged _ answered | pingIdle answered | wrote _ answered | wroteNothing _ answered
  | writeIdle answered | flushed answered | flushIdle answered =>
      exact ⟨inst, me, h.aside answered rfl rfl (.inl rfl), rfl⟩
  | pingSkipped => exact ⟨inst, me, h, rfl⟩

/-- The direction from the destination to the stream. -/
theorem Passes.copyTo (h : Passes i before begun w inst me) (valid : buf.Valid)
    (step : CopyStep ((destinationOf remote).recorded .b) ((streamOf around i).recorded .a)
      effect (buf, w) (buf', w')) :
    ∃ inst', Passes i before begun w' inst' me := by
  cases step with
  | read _ _ answered | eof _ _ answered | readIdle _ _ answered =>
      exact ⟨inst, h.aside answered rfl rfl (.inl rfl)⟩
  | pinged _ answered | flushed answered | pingIdle answered | flushIdle answered =>
      exact ⟨inst, h.aside answered rfl rfl (.inr ⟨rfl, rfl⟩)⟩
  | pingSkipped => exact ⟨inst, h⟩
  | @wrote _ _ _ n positive answered =>
      refine h.pollWrite ?_ answered
      rintro _ _ none_
      have fits := (streamOf around i).write_fits buf.offered w.world n
        (congrArg Prod.fst (answer_of_note answered))
      rw [none_] at fits
      exact absurd fits (Nat.not_le.mpr positive)
  | wroteNothing cached answered =>
      exact h.pollWrite (fun _ _ => valid.offered_ne_nil cached) answered
  | writeIdle answered idle =>
      refine h.pollWrite ?_ answered
      rintro n rfl
      cases idle

end Steps

section Runs

open CopyBidirectional

variable {remote : AsyncStream δ} {cx : Context δ} {effect : Effect}
  {s t : Relaying (Recorded (Shared δ))}

/-- What is known while the relay goes on. The stream is open for writing until
the direction to it is through. -/
structure EndsMeet (i : Nat) (before : Prop) (begun : Instance)
    (s : Relaying (Recorded (Shared δ))) : Prop where
  accounts : Accounts s
  passes : ∃ inst me, Passes i before begun s.2 inst me ∧
    (s.1.bToA.state = .running → me.streamClosed = false)

theorem EndsMeet.aToB {x : Transfer} {w : Recorded (Shared δ)} (h : EndsMeet i before begun s)
    (step : TransferStep (contextOf cx).recorded ((streamOf around i).recorded .a)
      ((destinationOf remote).recorded .b) effect (s.1.aToB, s.2) (x, w)) :
    ∃ inst me, Passes i before begun w inst me ∧
      (s.1.bToA.state = .running → me.streamClosed = false) := by
  obtain ⟨inst, me, passes, opened⟩ := h.passes
  obtain ⟨⟨aToB, bToA, pings⟩, w⟩ := s
  cases step with
  | proceed => exact ⟨inst, me, passes.beside rfl rfl rfl rfl, opened⟩
  | copy step =>
      obtain ⟨inst', me', passes, closed⟩ := passes.copyFrom step
      refine ⟨inst', me', passes, ?_⟩
      rw [closed]
      exact opened
  | finish => exact ⟨inst, me, passes, opened⟩
  | shutDown answered | shutdownIdle answered =>
      exact ⟨inst, me, passes.aside answered rfl rfl (.inl rfl), opened⟩

theorem EndsMeet.bToA {x : Transfer} {w : Recorded (Shared δ)} (h : EndsMeet i before begun s)
    (step : TransferStep (contextOf cx).recorded ((destinationOf remote).recorded .b)
      ((streamOf around i).recorded .a) effect (s.1.bToA, s.2) (x, w)) :
    ∃ inst me, Passes i before begun w inst me ∧
      (x.state = .running → me.streamClosed = false) := by
  obtain ⟨inst, me, passes, opened⟩ := h.passes
  have valid := h.accounts.valid .b
  obtain ⟨⟨aToB, bToA, pings⟩, w⟩ := s
  cases step with
  | proceed => exact ⟨inst, me, passes.beside rfl rfl rfl rfl, opened⟩
  | copy step =>
      obtain ⟨inst', passes⟩ := passes.copyTo valid step
      exact ⟨inst', me, passes, opened⟩
  | finish =>
      refine ⟨inst, me, passes, ?_⟩
      intro running
      cases running
  | shutDown answered | shutdownIdle answered =>
      obtain ⟨inst', me', passes⟩ := passes.pollShutdown answered
      refine ⟨inst', me', passes, ?_⟩
      intro running
      cases running

theorem EndsMeet.step (h : EndsMeet i before begun s)
    (step : RelayStep (contextOf cx).recorded ((streamOf around i).recorded .a)
      ((destinationOf remote).recorded .b) effect s t) : EndsMeet i before begun t := by
  refine ⟨h.accounts.step step, ?_⟩
  cases step with
  | sleep =>
      obtain ⟨inst, me, passes, opened⟩ := h.passes
      exact ⟨inst, me, passes.beside rfl rfl rfl rfl, opened⟩
  | fire fired =>
      obtain ⟨-, rfl⟩ := Prod.mk.inj fired
      obtain ⟨inst, me, passes, opened⟩ := h.passes
      exact ⟨inst, me, passes.beside rfl rfl rfl rfl, opened⟩
  | transfer side step =>
      cases side with
      | a => exact h.aToB step
      | b => exact h.bToA step

theorem EndsMeet.relays (h : EndsMeet i before begun s)
    (steps : Relays (contextOf cx).recorded ((streamOf around i).recorded .a)
      ((destinationOf remote).recorded .b) s t) : EndsMeet i before begun t := by
  induction steps with
  | refl => exact h
  | tail _ last ih =>
      obtain ⟨effect, step⟩ := last
      exact ih.step step

theorem EndsMeet.poll {answer : Poll (IoResult Unit)} (h : EndsMeet i before begun s)
    (does : PollDoes (contextOf cx).recorded ((streamOf around i).recorded .a)
      ((destinationOf remote).recorded .b) s answer t) : EndsMeet i before begun t := by
  rcases answer with _ | e | _
  · exact h.relays does
  · obtain ⟨m, m', start, last, rest⟩ := does
    exact ((h.relays start).step last).relays rest
  · exact h.relays does.1

theorem EndsMeet.pollAll (h : EndsMeet i before begun s) (around : Surroundings δ) (cx : Context δ)
    (remote : AsyncStream δ) (turns : List (Turn δ)) :
    (pollAll (contextOf cx).recorded ((streamOf around i).recorded .a)
      ((destinationOf remote).recorded .b) ((turns.map turnOf).map Turn.recorded)).Meets s
      (EndsMeet i before begun) (fun _ => EndsMeet i before begun) := by
  induction turns generalizing s with
  | nil => exact h
  | cons turn turns ih =>
      refine Exec.Meets.bind (M := fun _ => EndsMeet i before begun) (.of_returned (a := ⟨⟩) rfl ?_)
        fun _ t turned => ?_
      · obtain ⟨inst, me, passes, opened⟩ := h.passes
        exact ⟨h.accounts, inst, me, passes.beside rfl rfl rfl rfl, opened⟩
      · refine Exec.Meets.bind (M := fun _ => EndsMeet i before begun) ?_ fun answer u after => ?_
        · exact (poll_does turned.accounts.valid _).mono (fun _ steps => turned.relays steps)
            fun answer u does => turned.poll does
        · cases answer with
          | pending => exact ih after
          | ready => exact after

end Runs

/-! ## The two ends -/

/-- A FIN on the wire is that of a stream that was closed. -/
theorem Ordered.closed_of_fin (h : Ordered s) (found : s.instances[i]? = some inst)
    (stream : inst.stream = some me) (fin : .control .fin inst.id ∈ wireOf s i) :
    me.streamClosed = true := by
  obtain ⟨chunks, ended, sends⟩ := h.sends i inst found
  obtain ⟨synack, items, pending, carried⟩ := h.carried i inst found
  rw [carried.wire] at fin
  have sent : [] ∈ items := by
    rcases List.mem_append.mp fin with mem | mem
    · obtain ⟨error, -, same⟩ := List.mem_map.mp mem
      cases error <;> simp [synackFrame, Frame.control, Frame.withData] at same
    · obtain ⟨data, mem, same⟩ := List.mem_map.mp mem
      by_cases none_ : data = []
      · exact none_ ▸ mem
      · rw [frame_of_chunk none_] at same
        simp [Frame.psh, Frame.control, Frame.withData] at same
  have mem := carried.upTo.subset sent
  rw [sends.sent] at mem
  rcases List.mem_append.mp mem with mem | mem
  · exact absurd rfl (sends.sizes [] mem).1
  · refine sends.closed ?_ me stream
    by_contra unsent
    rw [if_neg unsent] at mem
    cases mem

/-- What the two ends of a relayed stream have of each other: the destination of
what the client pushed, and the client of what the destination sent. -/
structure CarriesThrough (i : Nat) (before : Prop) (begun : Instance)
    (w : Recorded (Shared δ)) : Prop where
  upload : begun.read ++ accepted (view .a w.calls) <+:
    pushed begun.id (w.world.session.arrived.drop begun.synAt)
  download : before → Steadily i w.world →
    ∃ (synack : Option (Option Bytes)) (payloads : List Bytes) (fin : Bool),
    wireOf w.world.session i = synack.toList.map (synackFrame begun.id) ++
      payloads.map (.psh begun.id) ++ (if fin then [.control .fin begun.id] else []) ∧
    payloads.flatten <+: begun.accepted ++ produced (view .b w.calls) ∧
    (fin = true → EofSeen (view .b w.calls) ∧
      payloads.flatten = begun.accepted ++ produced (view .b w.calls))

theorem EndsMeet.carriesThrough {s : CopyBidirectional.Relaying (Recorded (Shared δ))}
    (h : EndsMeet i before begun s) : CarriesThrough i before begun s.2 := by
  obtain ⟨inst, me, passes, opened⟩ := h.passes
  have upFifo := (h.accounts .a).fifo
  have downFifo := (h.accounts .b).fifo
  constructor
  · have read : inst.read <+: pushed inst.id (s.2.world.session.arrived.drop inst.synAt) :=
      (List.prefix_append _ _).trans (passes.session.demuxed.owed i inst passes.found)
    rw [passes.id, passes.synAt, passes.read, ← upFifo, ← List.append_assoc] at read
    exact (List.prefix_append _ _).trans read
  · intro past steadily
    have ordered := passes.session.ordered past steadily
    obtain ⟨synack, payloads, fin, wire, -, upTo, all⟩ := ordered.inOrder i inst passes.found
    rw [passes.accepted] at upTo all
    rw [← passes.id]
    refine ⟨synack, payloads, fin, wire, ?_, ?_⟩
    · refine upTo.trans ?_
      rw [← downFifo, ← List.append_assoc]
      exact List.prefix_append _ _
    · intro ended
      have closed : me.streamClosed = true := by
        refine ordered.closed_of_fin passes.found passes.stream ?_
        rw [wire, ended]
        simp
      have past : s.1.bToA.state ≠ .running := by
        intro running
        rw [opened running] at closed
        cases closed
      have drained : Drained (view .b s.2.calls) := (h.accounts .b).copied past
      refine ⟨drained.eof, ?_⟩
      rw [all ended, drained.complete]

/-- Whatever happens around a relay, in the session and at the destination, the
destination gets a prefix of what the client pushed for the stream. Under a steady
connection writer the client gets a prefix of what the destination sent, with the
FIN behind all of it. -/
theorem stream_carried_through (setting : Setting δ) (memory : Side → Nat → UInt8)
    {aToBBufSize bToABufSize : Nat} (aToB : 0 < aToBBufSize) (bToA : 0 < bToABufSize)
    (events : List Event) {session : Session}
    (ran : events.foldlM (step setting.around.padding) Session.start = some session)
    {begun : Instance} {me : AnyTlsStream} (found : session.instances[setting.i]? = some begun)
    (relaying : begun.task = .relaying) (stream : begun.stream = some me)
    (opened : me.streamClosed = false) (rest : δ) (turns : List (CopyBidirectional.Turn δ)) :
    (setting.relay memory aToBBufSize bToABufSize session rest turns).1 ≠ .panicked ∧
    CarriesThrough setting.i
      (Transition.Along (step setting.around.padding) (fun _ event => steady event) Session.start
        events) begun
      (setting.relay memory aToBBufSize bToABufSize session rest turns).2.2 := by
  let before := Transition.Along (step setting.around.padding) (fun _ event => steady event)
    Session.start events
  obtain ⟨demuxed, waits⟩ : Demuxed session ∧ RunWaits session := by
    refine Transition.invariant_of_run (I := fun s => Demuxed s ∧ RunWaits s) ?_
      ⟨demuxed_start, by intro run; cases run⟩ (Transition.along_of_forall (fun _ _ => trivial) _ _)
      ran
    rintro s event t ⟨demuxed, waits⟩ - taken
    have does := taken_of_step taken
    exact ⟨demuxed.step waits does, waits.step does⟩
  have ordered (past : before) : Ordered session := by
    refine (Transition.invariant_of_run (I := fun s => Ordered s ∧ Demuxed s ∧ RunWaits s) ?_
      ⟨ordered_start, demuxed_start, by intro run; cases run⟩ past ran).1
    rintro s event t ⟨ordered, demuxed, waits⟩ met taken
    have does := taken_of_step taken
    exact ⟨ordered.step demuxed.named met does, demuxed.step waits does, waits.step does⟩
  have start : EndsMeet setting.i before begun (copyBidirectionalWithSizes memory setting.stream
      (destinationOf setting.destination) ⟨session, rest, []⟩ false false aToBBufSize bToABufSize,
      Recorded.start ⟨session, rest, []⟩) := by
    refine ⟨CopyBidirectional.accounts_start aToB bToA, begun, me, ?_, fun _ => opened⟩
    exact ⟨⟨demuxed, waits, fun past _ => ordered past⟩, found, stream, relaying, rfl, rfl,
      by simp [Recorded.start, view, produced], by simp [Recorded.start, view, accepted]⟩
  obtain ⟨fine, meets⟩ :=
    (start.pollAll setting.around setting.context setting.destination turns).always
  exact ⟨fine, meets.carriesThrough⟩

/-- The byte that the client pushes before its FIN, and nothing in return; the
connection writer is steady all the time. -/
theorem finished_upload_carried_through :
    accepted (view .a finishedUpload.2.2.calls) = [7] ∧ finishedUpload.1 ≠ .panicked ∧
      ∃ before : Prop, before ∧ CarriesThrough 0 before connectedStream finishedUpload.2.2 := by
  have ran : connected.foldlM (step scripted.around.padding) Session.start = some relaying :=
    (Option.some_get _).symm
  have before : Transition.Along (step scripted.around.padding) (fun _ event => steady event)
      Session.start connected := by decide +kernel
  have found : relaying.instances[scripted.i]? = some connectedStream := by decide +kernel
  have through := stream_carried_through scripted (fun _ _ => 0) (show 0 < 4 by decide)
    (show 0 < 4 by decide) connected ran found rfl rfl rfl
  unfold finishedUpload
  obtain ⟨fine, carries⟩ := through
    [[.recv (.decoded (.psh 1 [7])), .recv .streamsLocked, .recv .pushed],
      [.recv (.decoded (.control .fin 1)), .recv .streamsLocked, .recv .pushed]] [⟨id, 5⟩]
  exact ⟨by decide +kernel, fine, _, before, carries⟩

end RustProxy.AnyTls
