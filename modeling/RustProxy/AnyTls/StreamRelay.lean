import RustProxy.AnyTls.Held
import RustProxy.Relay.Lossless

/-!
# A stream in a relay

The relay of a stream and the session behind it share a world. Before each
operation of the stream, the other tasks of the session take any steps, and
every step that the session takes is kept, with the state it was taken in.

`Tracked` ties the two together: what the relay got from its reads is what the
instance has read, and an end of the input is the client's FIN.
-/

namespace RustProxy.AnyTls

open Session Relay

/-- A session beside the rest of the process, and the steps it has taken. -/
structure Shared (δ : Type) where
  session : Session
  rest : δ
  history : List (Session × Event)

/-- What goes on around the stream of a relay: the steps that other tasks of the
session take before an operation, and whether the task has budget left for it. -/
structure Surroundings (δ : Type) where
  padding : Padding
  meanwhile : δ → List Event × Bool × δ

/-- The event belongs to the task of an instance. -/
def Event.ofTask (i : Nat) : Event → Bool
  | .task j _ => j = i
  | _ => false

variable {δ : Type}

namespace Shared

/-- The session takes a step, if it can. -/
def step (padding : Padding) (w : Shared δ) (event : Event) : Shared δ :=
  match w.session.step padding event with
  | some s => ⟨s, w.rest, w.history ++ [(w.session, event)]⟩
  | none => w

/-- Other tasks than that of instance `i` take steps. -/
def happen (padding : Padding) (i : Nat) (events : List Event) (w : Shared δ) : Shared δ :=
  (events.filter fun event => !event.ofTask i).foldl (step padding) w

/-- An operation of the stream of instance `i`. -/
def operate {α : Type} (around : Surroundings δ) (i : Nat) (event : Bool → TaskEvent)
    (op : Bool → Session → Poll (IoResult α) × Session) : PollOp (Shared δ) α := fun w =>
  let (events, budget, rest) := around.meanwhile w.rest
  let w := happen around.padding i events { w with rest }
  let (answer, session) := op budget w.session
  (answer, ⟨session, w.rest, w.history ++ [(w.session, .task i (event budget))]⟩)

end Shared

variable {s : Session} {i : Nat}

theorem pollRead_fits {room : Nat} {budget : Bool} {bytes : Bytes}
    (answered : (s.pollRead i room budget).1 = .ready (.ok bytes)) : bytes.length ≤ room := by
  cases opens : (s.instances[i]?).bind Instance.stream with
  | none => simp [Session.pollRead, withStream, opens] at answered
  | some me =>
      obtain ⟨inst, found, stream⟩ := Option.bind_eq_some_iff.mp opens
      obtain ⟨inst', reads, -⟩ := pollRead_reads found stream room budget
      rw [answered] at reads
      cases reads with
      | atEnd | fin | hungUp => exact Nat.zero_le room
      | kept _ _ size | chunk _ _ _ _ _ size =>
          rw [List.length_take]
          omega

theorem pollWrite_fits {offered : Bytes} {budget : Bool} {n : Nat}
    (answered : (s.pollWrite i offered budget).1 = .ready (.ok n)) : n ≤ offered.length := by
  cases opens : (s.instances[i]?).bind Instance.stream with
  | none => simp [Session.pollWrite, withStream, opens] at answered
  | some me =>
      obtain ⟨inst, found, stream⟩ := Option.bind_eq_some_iff.mp opens
      obtain ⟨inst', items, waiting, granted, writes, -⟩ :=
        pollWrite_writes found stream offered budget
      rw [answered] at writes
      cases writes with
      | sent _ _ size =>
          rw [size]
          exact Nat.min_le_left _ _

/-- The stream of instance `i`, as a side of a relay. -/
def streamOf (around : Surroundings δ) (i : Nat) : AsyncStream (Shared δ) where
  pollRead room := Shared.operate around i (.read room) fun budget s => s.pollRead i room budget
  pollWrite buf := Shared.operate around i (.write buf) fun budget s => s.pollWrite i buf budget
  pollFlush w := (.ready (.ok ()), w)
  pollShutdown := Shared.operate around i .shutdown fun budget s => s.pollShutdown i budget
  supportsPing _ := false
  pollWritePing w := (.ready (.ok false), w)
  read_fits _ _ _ answered := pollRead_fits answered
  write_fits _ _ _ answered := pollWrite_fits answered

/-- A destination is part of the rest of the process. -/
def destinationOf (b : AsyncStream δ) : AsyncStream (Shared δ) :=
  let beside {α : Type} (op : PollOp δ α) : PollOp (Shared δ) α := fun w =>
    ((op w.rest).1, { w with rest := (op w.rest).2 })
  { pollRead := fun room => beside (b.pollRead room)
    pollWrite := fun offered => beside (b.pollWrite offered)
    pollFlush := beside b.pollFlush
    pollShutdown := beside b.pollShutdown
    supportsPing := fun w => b.supportsPing w.rest
    pollWritePing := beside b.pollWritePing
    read_fits := fun room w => b.read_fits room w.rest
    write_fits := fun offered w => b.write_fits offered w.rest }

/-- So are the budget of the relay and its timer. -/
def contextOf (cx : Context δ) : Context (Shared δ) where
  pollProceed w := ((cx.pollProceed w.rest).1, { w with rest := (cx.pollProceed w.rest).2 })
  pollSleep w := ((cx.pollSleep w.rest).1, { w with rest := (cx.pollSleep w.rest).2 })
  resetSleep w := { w with rest := cx.resetSleep w.rest }

def turnOf (turn : CopyBidirectional.Turn δ) : CopyBidirectional.Turn (Shared δ) where
  meanwhile w := { w with rest := turn.meanwhile w.rest }
  fuel := turn.fuel

/-- Everything around a relay of the stream of instance `i`. -/
structure Setting (δ : Type) where
  around : Surroundings δ
  context : Context δ
  destination : AsyncStream δ
  i : Nat

namespace Setting

def stream (setting : Setting δ) : AsyncStream (Shared δ) := streamOf setting.around setting.i

/-- The polls of `copy_bidirectional_with_sizes` between the stream and the
destination, from a session as it stood when the relay began. -/
def relay (setting : Setting δ) (memory : Side → Nat → UInt8) (aToBBufSize bToABufSize : Nat)
    (session : Session) (rest : δ) (turns : List (CopyBidirectional.Turn δ)) :
    Outcome (Poll (IoResult Unit)) × CopyBidirectional.Relaying (Recorded (Shared δ)) :=
  let b := destinationOf setting.destination
  let world : Shared δ := ⟨session, rest, []⟩
  CopyBidirectional.pollAll (contextOf setting.context).recorded (setting.stream.recorded .a)
    (b.recorded .b) ((turns.map turnOf).map CopyBidirectional.Turn.recorded)
    (copyBidirectionalWithSizes memory setting.stream b world false false aToBBufSize bToABufSize,
      Recorded.start world)

end Setting

/-- Every step of the session was one that keeps the instance held. -/
def Kept (i : Nat) (w : Shared δ) : Prop := ∀ step ∈ w.history, keepsHeld i step.1 step.2 = true

section Tracked

variable {inst inst' begun : Instance} {me : AnyTlsStream} {padding : Padding}
  {around : Surroundings δ}

theorem Shared.history_prefix_foldl (events : List Event) (w : Shared δ) :
    w.history <+: (events.foldl (Shared.step padding) w).history := by
  induction events generalizing w with
  | nil => exact List.prefix_refl _
  | cons event events ih =>
      refine List.IsPrefix.trans ?_ (ih (w.step padding event))
      unfold Shared.step
      split
      · exact List.prefix_append _ _
      · exact List.prefix_refl _

/-- What other tasks do while the instance is held. -/
theorem sound_foldl {events : List Event} {w : Shared δ} (sound : Sound w.session i)
    (others : ∀ event ∈ events, event.ofTask i = false)
    (found : w.session.instances[i]? = some inst)
    (kept : Kept i (events.foldl (Shared.step padding) w)) :
    Sound (events.foldl (Shared.step padding) w).session i ∧
      ∃ inst', (events.foldl (Shared.step padding) w).session.instances[i]? = some inst' ∧
        SameReader inst inst' := by
  induction events generalizing w inst with
  | nil => exact ⟨sound, inst, found, rfl, rfl, rfl, rfl⟩
  | cons event events ih =>
      have rest := fun e mem => others e (List.mem_cons_of_mem _ mem)
      rw [List.foldl_cons] at kept ⊢
      cases taken : w.session.step padding event with
      | none =>
          have stays : w.step padding event = w := by simp [Shared.step, taken]
          rw [stays] at kept ⊢
          exact ih sound rest found kept
      | some t =>
          have moves : w.step padding event = ⟨t, w.rest, w.history ++ [(w.session, event)]⟩ := by
            simp [Shared.step, taken]
          have met : keepsHeld i w.session event = true := by
            refine kept (w.session, event) ((Shared.history_prefix_foldl events _).subset ?_)
            simp [moves]
          have stays : w.session.isClosed = false := by
            simp only [keepsHeld, Bool.and_eq_true, Bool.not_eq_true'] at met
            exact met.1
          have other : ∀ e, event ≠ .task i e := by
            rintro e rfl
            have own := others _ List.mem_cons_self
            simp [Event.ofTask] at own
          obtain ⟨middle, foundMiddle, same⟩ := others_keep stays other found (taken_of_step taken)
          rw [moves] at kept ⊢
          obtain ⟨soundThen, inst', foundThen, sameThen⟩ :=
            ih (sound.step met taken) rest foundMiddle kept
          exact ⟨soundThen, inst', foundThen, sameThen.read.trans same.read,
            sameThen.finRead.trans same.finRead, sameThen.stream.trans same.stream,
            sameThen.task.trans same.task⟩

/-- What is known of the reader of the instance, from the session and from the
calls of the relay. -/
structure Tracked (i : Nat) (begun : Instance) (w : Recorded (Shared δ)) (inst : Instance)
    (me : AnyTlsStream) : Prop where
  sound : Sound w.world.session i
  found : w.world.session.instances[i]? = some inst
  stream : inst.stream = some me
  relaying : inst.task = .relaying
  read : inst.read = begun.read ++ produced (view .a w.calls)
  eof : EofSeen (view .a w.calls) → inst.finRead = true
  early : begun.finRead = true → inst.finRead = true ∧ produced (view .a w.calls) = []

/-- Calls on the destination, the timer and the budget leave the session alone. -/
theorem Tracked.beside {w w' : Recorded (Shared δ)} (h : Tracked i begun w inst me)
    (session : w'.world.session = w.world.session)
    (bytes : produced (view .a w'.calls) = produced (view .a w.calls))
    (eof : EofSeen (view .a w'.calls) → EofSeen (view .a w.calls)) :
    Tracked i begun w' inst me where
  sound := session ▸ h.sound
  found := session ▸ h.found
  stream := h.stream
  relaying := h.relaying
  read := bytes ▸ h.read
  eof seen := h.eof (eof seen)
  early := bytes ▸ h.early

/-- An operation is made in the session that the other tasks have left. -/
theorem operate_eq {α : Type} (around : Surroundings δ) (i : Nat) (event : Bool → TaskEvent)
    (op : Bool → Session → Poll (IoResult α) × Session) (w : Shared δ) :
    ∃ (events : List Event) (budget : Bool) (rest : δ), (∀ e ∈ events, e.ofTask i = false) ∧
      Shared.operate around i event op w =
        let before := events.foldl (Shared.step around.padding) { w with rest }
        ((op budget before.session).1, ⟨(op budget before.session).2, before.rest,
          before.history ++ [(before.session, .task i (event budget))]⟩) := by
  refine ⟨(around.meanwhile w.rest).1.filter fun e => !e.ofTask i, (around.meanwhile w.rest).2.1,
    (around.meanwhile w.rest).2.2, fun e mem => ?_, rfl⟩
  simpa using (List.mem_filter.mp mem).2

/-- An operation of the stream is a step of the session, after steps of other
tasks that the reader does not notice. -/
theorem Tracked.operate {α : Type} {event : Bool → TaskEvent}
    {op : Bool → Session → Poll (IoResult α) × Session} {w : Recorded (Shared δ)}
    {answer : Poll (IoResult α)} {world : Shared δ} (h : Tracked i begun w inst me)
    (ran : Shared.operate around i event op w.world = (answer, world)) (kept : Kept i world)
    (steps : ∀ budget (s : Session) (x : Instance), s.instances[i]? = some x →
      x.task = .relaying → s.step around.padding (.task i (event budget)) = some (op budget s).2) :
    ∃ s budget x, SameReader inst x ∧ s.instances[i]? = some x ∧ Sound s i ∧
      keepsHeld i s (.task i (event budget)) = true ∧ op budget s = (answer, world.session) ∧
      Sound world.session i := by
  obtain ⟨events, budget, rest, others, done⟩ := operate_eq around i event op w.world
  rw [ran] at done
  obtain ⟨rfl, rfl⟩ := Prod.mk.inj done
  have before : Kept i (events.foldl (Shared.step around.padding) { w.world with rest }) :=
    fun step mem => kept step (List.mem_append_left _ mem)
  obtain ⟨sound, x, found, same⟩ := sound_foldl (w := { w.world with rest }) h.sound others h.found
    before
  have met := kept _ (List.mem_append_right _ (List.mem_singleton_self _))
  refine ⟨_, budget, x, same, found, sound, met, rfl, ?_⟩
  exact sound.step met (steps budget _ x found (same.task.trans h.relaying))

@[simp] theorem bytesRead_read (room : Nat) (answer : Poll (IoResult Bytes)) :
    bytesRead (.read room answer) = answeredBytes answer := by
  rcases answer with _ | _ | _ <;> rfl

theorem Tracked.pollRead {w w' : Recorded (Shared δ)} {room : Nat}
    {answer : Poll (IoResult Bytes)} (h : Tracked i begun w inst me) (positive : 0 < room)
    (answered : ((streamOf around i).recorded .a).pollRead room w = (answer, w'))
    (kept : Kept i w'.world) :
    ∃ inst' me', Tracked i begun w' inst' me' ∧
      (inst'.finRead = true → inst.finRead = true ∨ answer = .ready (.ok [])) ∧
      (∀ e, answer = .ready (.error e) → inst.finRead = true) ∧
      me'.streamClosed = me.streamClosed ∧ me'.shutdownInProgress = me.shutdownInProgress := by
  have steps (budget : Bool) (s : Session) (x : Instance) (found : s.instances[i]? = some x)
      (relaying : x.task = .relaying) : s.step around.padding (.task i (.read room budget)) =
        some (s.pollRead i room budget).2 := by
    simp [Session.step, found, taskStep, relaying]
  obtain ⟨s, budget, x, same, found, sound, -, op, soundThen⟩ :=
    h.operate (answer_of_note answered) kept steps
  have stream : x.stream = some me := same.stream.trans h.stream
  obtain ⟨inst', reads, put⟩ := pollRead_reads found stream room budget
  rw [op] at reads put
  have brings := reads.readsTo sound found stream
  obtain ⟨me', streamThen, flags⟩ := brings.stream
  have calls : view .a w'.calls = view .a w.calls ++ [.read room answer] :=
    view_of_note .a answered rfl
  refine ⟨inst', me', ⟨soundThen, ?_, streamThen, ?_, ?_, ?_, ?_⟩, ?_, ?_, flags⟩
  · rw [show w'.world.session = s.put i inst' [] s.waiting s.granted from put]
    exact getElem?_put found
  · rw [reads.sameTask.task, same.task, h.relaying]
  · rw [brings.read, same.read, h.read, calls, produced_concat, bytesRead_read, List.append_assoc]
  · rintro ⟨offered, mem⟩
    rw [calls] at mem
    rcases List.mem_append.mp mem with mem | mem
    · exact (brings.stays (same.finRead.trans (h.eof ⟨offered, mem⟩))).1
    · obtain ⟨rfl, ended⟩ := IoEvent.read.inj (List.mem_singleton.mp mem)
      exact brings.eof positive ended.symm
  · intro early
    obtain ⟨read, none_⟩ := h.early early
    obtain ⟨readThen, nothing⟩ := brings.stays (same.finRead.trans read)
    refine ⟨readThen, ?_⟩
    rw [calls, produced_concat, none_, bytesRead_read, nothing]
    rfl
  · rw [← same.finRead]
    exact brings.finRead
  · rw [← same.finRead]
    exact brings.refused

/-- The reader does not notice what the other direction does to the stream. -/
theorem Tracked.write {w w' : Recorded (Shared δ)} {x inst' : Instance} {me' : AnyTlsStream}
    {call : IoEvent} {items : List Item} {waiting granted : List Nat}
    (h : Tracked i begun w inst me) (same : SameReader inst x)
    (found : s.instances[i]? = some x) (sound : Sound w'.world.session i)
    (put : w'.world.session = s.put i inst' items waiting granted)
    (task : SameTask x inst') (read : inst'.read = x.read) (finRead : inst'.finRead = x.finRead)
    (stream : inst'.stream = some me') (calls : w'.calls = w.calls ++ [(.a, call)])
    (other : direction .a call = .b) : Tracked i begun w' inst' me' := by
  have view_ : view .a w'.calls = view .a w.calls := by
    rw [calls, view_concat, if_neg (by simp [other])]
  refine ⟨sound, by rw [put]; exact getElem?_put found, stream, ?_, ?_, ?_, ?_⟩
  · rw [task.task, same.task, h.relaying]
  · rw [read, same.read, h.read, view_]
  · rw [finRead, same.finRead, view_]
    exact h.eof
  · rw [finRead, same.finRead, view_]
    exact h.early

theorem Tracked.pollWrite {w w' : Recorded (Shared δ)} {offered : Bytes}
    {answer : Poll (IoResult Nat)} (h : Tracked i begun w inst me)
    (answered : ((streamOf around i).recorded .a).pollWrite offered w = (answer, w'))
    (kept : Kept i w'.world) :
    ∃ inst', Tracked i begun w' inst' me ∧ inst'.finRead = inst.finRead ∧
      (answer = .ready (.ok 0) → offered = []) ∧
      ∀ e, answer = .ready (.error e) → me.streamClosed = true ∨ me.shutdownInProgress = true := by
  have steps (budget : Bool) (s : Session) (x : Instance) (found : s.instances[i]? = some x)
      (relaying : x.task = .relaying) : s.step around.padding (.task i (.write offered budget)) =
        some (s.pollWrite i offered budget).2 := by
    simp [Session.step, found, taskStep, relaying]
  obtain ⟨s, budget, x, same, found, -, met, op, soundThen⟩ :=
    h.operate (answer_of_note answered) kept steps
  have stream : x.stream = some me := same.stream.trans h.stream
  obtain ⟨inst', items, waiting, granted, writes, put⟩ :=
    pollWrite_writes found stream offered budget
  rw [op] at writes put
  have kept_ : inst'.read = x.read ∧ inst'.finRead = x.finRead ∧ inst'.stream = x.stream := by
    cases writes <;> exact ⟨rfl, rfl, rfl⟩
  obtain ⟨read, finRead, streamThen⟩ := kept_
  refine ⟨inst', h.write same found soundThen put writes.sameTask read finRead
    (streamThen.trans stream) (calls_of_note answered) rfl, finRead.trans same.finRead, ?_, ?_⟩
  · rintro rfl
    cases writes with
    | sent _ _ size =>
        refine List.eq_nil_of_length_eq_zero ?_
        simp only [MAX_FRAME_DATA_SIZE] at size
        omega
  · rintro e rfl
    cases writes with
    | refused closed =>
        rcases closed with closed | closing | sessionOver
        · exact .inl closed
        · exact .inr closing
        · simp [keepsHeld, sessionOver] at met

theorem Tracked.pollShutdown {w w' : Recorded (Shared δ)} {answer : Poll (IoResult Unit)}
    (h : Tracked i begun w inst me)
    (answered : ((streamOf around i).recorded .a).pollShutdown w = (answer, w'))
    (kept : Kept i w'.world) :
    ∃ inst' me', Tracked i begun w' inst' me' ∧ inst'.finRead = inst.finRead ∧
      ∀ e, answer ≠ .ready (.error e) := by
  have steps (budget : Bool) (s : Session) (x : Instance) (found : s.instances[i]? = some x)
      (relaying : x.task = .relaying) : s.step around.padding (.task i (.shutdown budget)) =
        some (s.pollShutdown i budget).2 := by
    simp [Session.step, found, taskStep, relaying]
  obtain ⟨s, budget, x, same, found, -, -, op, soundThen⟩ :=
    h.operate (answer_of_note answered) kept steps
  have stream : x.stream = some me := same.stream.trans h.stream
  obtain ⟨inst', items, waiting, granted, shuts, put⟩ := pollShutdown_shuts found stream budget
  rw [op] at shuts put
  have kept_ : inst'.read = x.read ∧ inst'.finRead = x.finRead ∧
      ∃ me', inst'.stream = some me' := by
    cases shuts with
    | already => exact ⟨rfl, rfl, me, stream⟩
    | silent | waits | sent => exact ⟨rfl, rfl, _, rfl⟩
  obtain ⟨read, finRead, me', streamThen⟩ := kept_
  refine ⟨inst', me', h.write same found soundThen put shuts.sameTask read finRead streamThen
    (calls_of_note answered) rfl, finRead.trans same.finRead, ?_⟩
  rintro e rfl
  cases shuts

end Tracked

end RustProxy.AnyTls
