import RustProxy.Relay.Steps

/-!
# The relay loses nothing

The calls of a relay belong to its two directions: a read to the one that
reads from the stream, every other call to the one that writes to it. Read off
its calls, a direction is a lossless queue. What its writer accepted, followed
by what its buffer holds, is what its reader produced; the reader is never
offered an empty slice, so an empty read is the end of the input; and the
writer is shut down only when the input has ended and everything read has been
written and flushed.

All this holds at every moment of every poll, for any two streams and whatever
happens in the world between the polls.
-/

namespace RustProxy.Relay

/-- The direction, named by the side it reads from, that makes a call. -/
def direction (side : Side) : IoEvent → Side
  | .read .. => side
  | .write .. | .flush .. | .shutdown .. | .ping .. => side.other

/-- The calls of the direction that reads from a side. -/
def view (side : Side) (calls : List (Side × IoEvent)) : List IoEvent :=
  calls.filterMap fun call => if direction call.1 call.2 = side then some call.2 else none

/-- The bytes a call obtained from the reader. -/
def bytesRead : IoEvent → Bytes
  | .read _ (.ready (.ok bytes)) => bytes
  | _ => []

/-- The bytes a call made the writer accept. -/
def bytesWritten : IoEvent → Bytes
  | .write offered (.ready (.ok n)) => offered.take n
  | _ => []

def produced (calls : List IoEvent) : Bytes := calls.flatMap bytesRead

def accepted (calls : List IoEvent) : Bytes := calls.flatMap bytesWritten

/-- Calls that leave the writer with something to flush. -/
def Writes : IoEvent → Prop
  | .write _ (.ready (.ok n)) => 0 < n
  | .ping (.ready (.ok written)) => written = true
  | _ => False

/-- Every write was followed by a successful flush. -/
def Flushed : List IoEvent → Prop
  | [] => True
  | call :: calls => (Writes call → .flush (.ready (.ok ())) ∈ calls) ∧ Flushed calls

/-- The reader has reported the end of its input. -/
def EofSeen (calls : List IoEvent) : Prop := ∃ room, .read room (.ready (.ok [])) ∈ calls

/-- The input has ended, and all of it was written and flushed. -/
structure Drained (calls : List IoEvent) : Prop where
  eof : EofSeen calls
  complete : accepted calls = produced calls
  flushed : Flushed calls

/-- A direction is a lossless queue from its reader to its writer. -/
structure Lossless (t : Transfer) (calls : List IoEvent) : Prop where
  fifo : accepted calls ++ t.buf.contents = produced calls
  inRange : t.buf.Valid
  room : ∀ room answer, .read room answer ∈ calls → 0 < room
  copied : t.state ≠ .running → Drained calls
  shutdowns : ∀ before answer, before ++ [.shutdown answer] <+: calls → Drained before

/-- The flags of the buffer tell what the calls have shown. -/
structure Carries (t : Transfer) (calls : List IoEvent) : Prop extends Lossless t calls where
  eof : t.buf.readDone = true → EofSeen calls
  flushed : t.buf.needFlush = false → Flushed calls

variable {ω : Type} {calls : List IoEvent} {call : IoEvent} {t : Transfer} {buf : CopyBuffer}

section Calls

@[simp, grind =] theorem produced_concat :
    produced (calls ++ [call]) = produced calls ++ bytesRead call := by
  simp [produced]

@[simp, grind =] theorem accepted_concat :
    accepted (calls ++ [call]) = accepted calls ++ bytesWritten call := by
  simp [accepted]

theorem EofSeen.concat (h : EofSeen calls) : EofSeen (calls ++ [call]) := by
  obtain ⟨room, mem⟩ := h
  exact ⟨room, List.mem_append_left _ mem⟩

theorem Flushed.concat (h : Flushed calls) (quiet : ¬Writes call) : Flushed (calls ++ [call]) := by
  induction calls with
  | nil => exact ⟨fun writes => absurd writes quiet, trivial⟩
  | cons first rest ih =>
      exact ⟨fun writes => List.mem_append_left _ (h.1 writes), ih h.2⟩

theorem flushed_concat_flush : Flushed (calls ++ [.flush (.ready (.ok ()))]) := by
  induction calls with
  | nil => exact ⟨False.elim, trivial⟩
  | cons first rest ih => exact ⟨fun _ => List.mem_append_right _ (List.mem_singleton_self _), ih⟩

/-- A direction that is drained stays drained when its writer is shut down. -/
theorem Drained.shutdown {answer : Poll (IoResult Unit)} (h : Drained calls) :
    Drained (calls ++ [.shutdown answer]) where
  eof := h.eof.concat
  complete := by simpa [bytesRead, bytesWritten] using h.complete
  flushed := h.flushed.concat id

theorem view_concat {side side' : Side} {calls : List (Side × IoEvent)} :
    view side (calls ++ [(side', call)]) =
      if direction side' call = side then view side calls ++ [call] else view side calls := by
  by_cases own : direction side' call = side
  · simp [view, own]
  · simp [view, own]

end Calls

/-- A call of `poll_copy` that leaves the buffer in order. -/
theorem Carries.concat {buf' : CopyBuffer} (h : Carries ⟨.running, buf'⟩ calls)
    (inRange : buf.Valid)
    (fifo : accepted calls ++ bytesWritten call ++ buf.contents = produced calls ++ bytesRead call)
    (room : ∀ room answer, call = .read room answer → 0 < room)
    (notShutdown : ∀ answer, call ≠ .shutdown answer)
    (eof : buf.readDone = true → EofSeen (calls ++ [call]))
    (flushed : buf.needFlush = false → Flushed (calls ++ [call])) :
    Carries ⟨.running, buf⟩ (calls ++ [call]) where
  fifo := by simpa using fifo
  inRange := inRange
  room offered answer mem := by
    rcases List.mem_append.mp mem with earlier | last
    · exact h.room offered answer earlier
    · exact room offered answer (List.mem_singleton.mp last).symm
  copied running := absurd rfl running
  shutdowns before answer pre := by
    rcases List.prefix_concat_iff.mp pre with whole | earlier
    · have last : .shutdown answer = call := by
        simpa using congrArg List.getLast? whole
      exact absurd last.symm (notShutdown answer)
    · exact h.shutdowns before answer earlier
  eof := eof
  flushed := flushed

/-- A call that was answered without effect. -/
theorem Carries.idle (h : Carries ⟨.running, buf⟩ calls) (read : bytesRead call = [])
    (written : bytesWritten call = []) (quiet : ¬Writes call)
    (room : ∀ room answer, call = .read room answer → 0 < room)
    (notShutdown : ∀ answer, call ≠ .shutdown answer) :
    Carries ⟨.running, buf⟩ (calls ++ [call]) :=
  h.concat h.inRange (by simpa [read, written] using h.fifo) room notShutdown
    (fun done => (h.eof done).concat) fun settled => (h.flushed settled).concat quiet

/-- What happens between the polls is not a call of the relay. -/
def CopyBidirectional.Turn.recorded (turn : CopyBidirectional.Turn ω) :
    CopyBidirectional.Turn (Recorded ω) where
  meanwhile w := ⟨turn.meanwhile w.world, w.calls⟩
  fuel := turn.fuel

section Recorded

variable {α : Type} {side : Side} {world world' : Recorded ω}

theorem calls_of_note {event : α → IoEvent} {x : α × ω} {answer : α}
    (noted : Recorded.note side event world.calls x = (answer, world')) :
    world'.calls = world.calls ++ [(side, event answer)] := by
  obtain ⟨rfl, rfl⟩ := Prod.mk.inj noted
  rfl

theorem answer_of_note {event : α → IoEvent} {calls : List (Side × IoEvent)} {x : α × ω}
    {answer : α} (noted : Recorded.note side event calls x = (answer, world')) :
    x = (answer, world'.world) := by
  obtain ⟨rfl, rfl⟩ := Prod.mk.inj noted
  rfl

/-- A call of the direction's own shows in its view. -/
theorem view_of_note {event : α → IoEvent} {x : α × ω} {answer : α} (from_ : Side)
    (noted : Recorded.note side event world.calls x = (answer, world'))
    (own : direction side (event answer) = from_) :
    view from_ world'.calls = view from_ world.calls ++ [event answer] := by
  rw [calls_of_note noted, view_concat, if_pos own]

end Recorded

@[simp, grind =] theorem other_other (side : Side) : side.other.other = side := by
  cases side <;> rfl

open CopyBuffer (CopyStep Idle Copies)

variable {r w : AsyncStream ω} {side : Side} {effect : Effect}

/-- Every call of `poll_copy` keeps the account of its direction. -/
theorem Carries.copyStep {world world' : Recorded ω} {buf' : CopyBuffer}
    (h : Carries ⟨.running, buf⟩ (view side world.calls))
    (step : CopyStep (r.recorded side) (w.recorded side.other) effect (buf, world) (buf', world')) :
    Carries ⟨.running, buf'⟩ (view side world'.calls) := by
  have valid := h.inRange
  have validThen := step.valid valid
  -- what is offered to the reader is the free run of the ring
  have offers {first : Poll (IoResult Bytes)} (room : Nat) (answer : Poll (IoResult Bytes))
      (same : IoEvent.read buf.room first = .read room answer) : 0 < room := by
    obtain ⟨rfl, -⟩ := IoEvent.read.inj same
    exact valid.room_pos
  cases step with
  | @read _ _ _ bytes more space answered some =>
      have fits := (r.recorded side).read_fits _ _ _ (congrArg Prod.fst answered)
      rw [view_of_note side answered rfl]
      refine h.concat validThen ?_ offers (by simp) (fun done => ?_) fun settled => ?_
      · rw [valid.contents_filled space fits, ← h.fifo]
        simp [bytesRead, bytesWritten]
      · exact (h.eof done).concat
      · exact (h.flushed settled).concat id
  | eof more space answered =>
      rw [view_of_note side answered rfl]
      refine h.concat validThen ?_ offers (by simp) (fun _ => ?_) fun settled => ?_
      · simpa [bytesRead, bytesWritten, CopyBuffer.contents] using h.fifo
      · exact ⟨buf.room, by simp⟩
      · exact (h.flushed settled).concat id
  | readIdle more space answered idle =>
      rw [view_of_note side answered rfl]
      exact h.idle (by cases idle <;> rfl) rfl id offers (by simp)
  | @pinged _ _ _ written empty answered =>
      rw [view_of_note side answered (other_other side)]
      refine h.concat validThen
        (by simpa [bytesRead, bytesWritten, CopyBuffer.contents] using h.fifo) (by simp) (by simp)
        (fun done => (h.eof done).concat) fun settled => ?_
      obtain ⟨before, silent⟩ : buf.needFlush = false ∧ written = false := by
        simpa using settled
      exact (h.flushed before).concat (by simp [Writes, silent])
  | pingSkipped => exact ⟨⟨h.fifo, validThen, h.room, h.copied, h.shutdowns⟩, h.eof, h.flushed⟩
  | pingIdle answered idle =>
      rw [view_of_note side answered (other_other side)]
      exact h.idle rfl rfl (by cases idle <;> exact id) (by simp) (by simp)
  | @wrote _ _ _ n positive answered =>
      have fits := (w.recorded side.other).write_fits _ _ _ (congrArg Prod.fst answered)
      rw [view_of_note side answered (other_other side)]
      refine h.concat validThen ?_ (by simp) (by simp) (fun done => (h.eof done).concat)
        fun settled => by cases settled
      rw [valid.contents_emptied (fits.trans valid.offered_length), ← h.fifo]
      simp [bytesRead, bytesWritten, valid.take_offered fits]
  | wroteNothing _ answered =>
      rw [view_of_note side answered (other_other side)]
      exact h.idle rfl (by simp [bytesWritten]) (by simp [Writes]) (by simp) (by simp)
  | writeIdle answered idle =>
      rw [view_of_note side answered (other_other side)]
      exact h.idle rfl (by cases idle <;> rfl) (by cases idle <;> exact id) (by simp) (by simp)
  | flushed answered =>
      rw [view_of_note side answered (other_other side)]
      exact h.concat validThen
        (by simpa [bytesRead, bytesWritten, CopyBuffer.contents] using h.fifo) (by simp) (by simp)
        (fun done => (h.eof done).concat) fun _ => flushed_concat_flush
  | flushIdle answered idle =>
      rw [view_of_note side answered (other_other side)]
      exact h.idle rfl rfl id (by simp) (by simp)

theorem Carries.copies {s t : CopyBuffer.Copying (Recorded ω)}
    (h : Carries ⟨.running, s.1⟩ (view side s.2.calls))
    (steps : Copies (r.recorded side) (w.recorded side.other) s t) :
    Carries ⟨.running, t.1⟩ (view side t.2.calls) := by
  induction steps with
  | refl => exact h
  | tail _ last ih =>
      obtain ⟨effect, step⟩ := last
      exact ih.copyStep step

/-- The other direction does not see the calls of `poll_copy`. -/
theorem view_copyStep {world world' : Recorded ω} {buf' : CopyBuffer}
    (step : CopyStep (r.recorded side) (w.recorded side.other) effect (buf, world) (buf', world')) :
    view side.other world'.calls = view side.other world.calls := by
  have others {α : Type} {on : Side} {event : α → IoEvent} {x : α × ω} {answer : α}
      (noted : Recorded.note on event world.calls x = (answer, world'))
      (own : direction on (event answer) = side) :
      view side.other world'.calls = view side.other world.calls := by
    rw [calls_of_note noted, view_concat, if_neg]
    rw [own]
    cases side <;> simp [Side.other]
  cases step with
  | read _ _ answered | eof _ _ answered | readIdle _ _ answered => exact others answered rfl
  | pingSkipped => rfl
  | pinged _ answered | pingIdle answered | wrote _ answered | wroteNothing _ answered
  | writeIdle answered | flushed answered | flushIdle answered =>
      exact others answered (other_other side)

/-- A buffer that is finished has carried everything. -/
theorem Carries.drained {state : TransferState} (h : Carries ⟨state, buf⟩ calls)
    (finished : buf.Finished) : Drained calls := by
  obtain ⟨done, empty, settled⟩ := finished
  refine ⟨h.eof done, ?_, h.flushed settled⟩
  simpa [CopyBuffer.contents, empty] using h.fifo

theorem Carries.past {state : TransferState} (h : Carries ⟨.running, buf⟩ calls)
    (drained : Drained calls) : Carries ⟨state, buf⟩ calls :=
  ⟨⟨h.fifo, h.inRange, h.room, fun _ => drained, h.shutdowns⟩, h.eof, h.flushed⟩

/-- Shutting the writer down after everything was carried. -/
theorem Carries.shutdown {state : TransferState} {answer : Poll (IoResult Unit)}
    (h : Carries ⟨.shuttingDown, buf⟩ calls) :
    Carries ⟨state, buf⟩ (calls ++ [.shutdown answer]) := by
  have drained : Drained calls := h.copied (by simp)
  refine ⟨⟨?_, h.inRange, ?_, fun _ => drained.shutdown, ?_⟩, fun done => (h.eof done).concat,
    fun settled => (h.flushed settled).concat id⟩
  · simpa [bytesRead, bytesWritten] using h.fifo
  · intro room answer mem
    exact h.room room answer (by simpa using mem)
  · intro before answer pre
    rcases List.prefix_concat_iff.mp pre with whole | earlier
    · obtain rfl : before = calls := by
        simpa using congrArg List.dropLast whole
      exact drained
    · exact h.shutdowns before answer earlier

/-- `poll_copy` is ready only when everything was carried. -/
theorem Carries.pollCopy {cx : Context ω} {world record : Recorded ω} {buf' : CopyBuffer}
    {fuel : Nat} (h : Carries t (view side world.calls))
    (ran : CopyBuffer.pollCopy fuel cx.recorded (r.recorded side) (w.recorded side.other)
      (t.buf, world) = (.returned (.ready (.ok ())), buf', record)) :
    Drained (view side record.calls) := by
  have does := CopyBuffer.pollCopy_does cx.recorded (r.recorded side) (w.recorded side.other) world
    h.inRange fuel
  simp only [Exec.Meets, ran] at does
  have running : Carries ⟨.running, t.buf⟩ (view side world.calls) :=
    ⟨⟨h.fifo, h.inRange, h.room, fun past => absurd rfl past, h.shutdowns⟩, h.eof, h.flushed⟩
  exact (running.copies does.1).drained does.2

theorem Carries.transferStep {cx : Context ω} {world world' : Recorded ω} {t' : Transfer}
    (h : Carries t (view side world.calls))
    (step : TransferStep cx.recorded (r.recorded side) (w.recorded side.other) effect (t, world)
      (t', world')) : Carries t' (view side world'.calls) := by
  cases step with
  | proceed => exact h
  | copy step => exact h.copyStep step
  | finish finished => exact h.past (h.drained finished)
  | shutDown answered | shutdownIdle answered =>
      rw [view_of_note side answered (other_other side)]
      exact h.shutdown

theorem view_transferStep {cx : Context ω} {world world' : Recorded ω} {t' : Transfer}
    (step : TransferStep cx.recorded (r.recorded side) (w.recorded side.other) effect (t, world)
      (t', world')) : view side.other world'.calls = view side.other world.calls := by
  cases step with
  | proceed => rfl
  | copy step => exact view_copyStep step
  | finish => rfl
  | shutDown answered | shutdownIdle answered =>
      rw [calls_of_note answered, view_concat, if_neg]
      cases side <;> simp [direction, Side.other]

namespace CopyBidirectional

variable {cx : Context ω} {a b : AsyncStream ω} {s t : Relaying (Recorded ω)}

/-- Both directions carry what they read. -/
def Accounts (s : Relaying (Recorded ω)) : Prop :=
  ∀ side, Carries (s.1.transfer side) (view side s.2.calls)

theorem Accounts.valid (h : Accounts s) : s.1.Valid := fun side => (h side).inRange

/-- Asking for a ping changes nothing that is accounted for. -/
theorem Carries.askPing {state : TransferState} {asked : Bool} (h : Carries ⟨state, buf⟩ calls) :
    Carries ⟨state, { buf with needWritePing := asked }⟩ calls :=
  ⟨⟨h.fifo, ⟨h.inRange.positive, h.inRange.allocated, h.inRange.start, h.inRange.cached⟩, h.room,
    h.copied, h.shutdowns⟩, h.eof, h.flushed⟩

@[simp] theorem on_recorded (side : Side) :
    AsyncStream.on (a.recorded .a) (b.recorded .b) side =
      (AsyncStream.on a b side).recorded side := by
  cases side <;> rfl

theorem Accounts.step (h : Accounts s)
    (step : RelayStep cx.recorded (a.recorded .a) (b.recorded .b) effect s t) : Accounts t := by
  cases step with
  | sleep => exact h
  | fire fired =>
      obtain ⟨-, rfl⟩ := Prod.mk.inj fired
      intro side
      cases side with
      | a => exact Carries.askPing (h .a)
      | b => exact Carries.askPing (h .b)
  | transfer moved step =>
      rw [on_recorded, on_recorded] at step
      have own := (h moved).transferStep step
      have rest : Carries _ (view moved.other _) := view_transferStep step ▸ h moved.other
      intro side
      cases moved <;> cases side <;> first | exact own | exact rest

theorem Accounts.relays (h : Accounts s)
    (steps : Relays cx.recorded (a.recorded .a) (b.recorded .b) s t) : Accounts t := by
  induction steps with
  | refl => exact h
  | tail _ last ih =>
      obtain ⟨effect, step⟩ := last
      exact ih.step step

theorem accounts_start {memory : Side → Nat → UInt8} {world : ω}
    {aNeedInitialFlush bNeedInitialFlush : Bool} {aToBBufSize bToABufSize : Nat}
    (aToB : 0 < aToBBufSize) (bToA : 0 < bToABufSize) :
    Accounts (copyBidirectionalWithSizes memory a b world aNeedInitialFlush bNeedInitialFlush
      aToBBufSize bToABufSize, Recorded.start world) := by
  have fresh {memory : Nat → UInt8} {size : Nat} {flush : Bool} (positive : 0 < size) :
      Carries ⟨.running, .new memory size flush⟩ [] := by
    refine ⟨⟨?_, CopyBuffer.valid_new positive, by simp, fun past => absurd rfl past, by simp⟩,
      by simp [CopyBuffer.new], fun _ => trivial⟩
    simp [CopyBuffer.contents, CopyBuffer.new, accepted, produced]
  intro side
  cases side with
  | a => exact fresh aToB
  | b => exact fresh bToA

theorem Accounts.pollAll (h : Accounts s) (cx : Context ω) (a b : AsyncStream ω)
    (turns : List (Turn ω)) :
    (pollAll cx.recorded (a.recorded .a) (b.recorded .b) (turns.map Turn.recorded)).Meets s
      Accounts fun _ => Accounts := by
  induction turns generalizing s with
  | nil => exact h
  | cons turn turns ih =>
      refine Exec.Meets.bind (M := fun _ => Accounts)
        (.of_returned (a := ⟨⟩) rfl h) fun _ t before => ?_
      refine Exec.Meets.bind (M := fun _ => Accounts) ?_ fun answer u after => ?_
      · refine (poll_does before.valid _).mono (fun _ steps => before.relays steps) ?_
        intro answer u does
        rcases answer with _ | _ | _
        · exact before.relays does
        · obtain ⟨m, m', start, last, rest⟩ := does
          exact ((before.relays start).step last).relays rest
        · exact before.relays does.1
      · cases answer with
        | pending => exact ih after
        | ready => exact after

/-- A relay polled any number of times has not panicked, and each direction is
a lossless queue whose `poll_copy` is ready only when it is drained. -/
def RelaysLosslessly (cx : Context ω) (a b : AsyncStream ω) (start : CopyBidirectional)
    (world : ω) (turns : List (Turn ω)) : Prop :=
  let after := pollAll cx.recorded (a.recorded .a) (b.recorded .b) (turns.map Turn.recorded)
    (start, Recorded.start world)
  after.1 ≠ .panicked ∧ ∀ side,
    Lossless (after.2.1.transfer side) (view side after.2.2.calls) ∧
    ∀ fuel buf record,
      CopyBuffer.pollCopy fuel cx.recorded ((AsyncStream.on a b side).recorded side)
        ((AsyncStream.on a b side.other).recorded side.other)
        ((after.2.1.transfer side).buf, after.2.2) = (.returned (.ready (.ok ())), buf, record) →
      Drained (view side record.calls)

/-- The byte relay is a lossless queue in each direction, for buffers of any
size from one byte on, any streams and any polls. -/
theorem relays_losslessly (cx : Context ω) (a b : AsyncStream ω) (memory : Side → Nat → UInt8)
    (world : ω) (aNeedInitialFlush bNeedInitialFlush : Bool) {aToBBufSize bToABufSize : Nat}
    (aToB : 0 < aToBBufSize) (bToA : 0 < bToABufSize) (turns : List (Turn ω)) :
    RelaysLosslessly cx a b (copyBidirectionalWithSizes memory a b world aNeedInitialFlush
      bNeedInitialFlush aToBBufSize bToABufSize) world turns := by
  have start : Accounts (copyBidirectionalWithSizes memory a b world aNeedInitialFlush
      bNeedInitialFlush aToBBufSize bToABufSize, Recorded.start world) := accounts_start aToB bToA
  obtain ⟨fine, accounts⟩ := (start.pollAll cx a b turns).always
  exact ⟨fine, fun side => ⟨(accounts side).toLossless,
    fun _ _ _ ran => (accounts side).pollCopy ran⟩⟩

/-- A stream that reads from the first list and writes one byte at a time to
the second. -/
def pipe : AsyncStream (Bytes × Bytes) where
  pollRead room w := (.ready (.ok (w.1.take room)), (w.1.drop room, w.2))
  pollWrite offered w := (.ready (.ok (min 1 offered.length)), (w.1, w.2 ++ offered.take 1))
  pollFlush w := (.ready (.ok ()), w)
  pollShutdown w := (.ready (.ok ()), w)
  supportsPing _ := false
  pollWritePing w := (.ready (.ok false), w)
  read_fits room w bytes answered := by
    obtain rfl : w.1.take room = bytes := by simpa using answered
    exact (List.length_take_le ..)
  write_fits offered w n answered := by
    obtain rfl : min 1 offered.length = n := by simpa using answered
    exact Nat.min_le_right ..

/-- A budget that never runs out and a timer that never fires. -/
def idleContext : Context ω where
  pollProceed w := (.ready (), w)
  pollSleep w := (.pending, w)
  resetSleep w := w

/-- Two bytes of buffer carry three bytes through. -/
example : (pollAll idleContext pipe pipe [⟨id, 9⟩] (copyBidirectionalWithSizes (fun _ _ => 0)
    pipe pipe ([1, 2, 3], []) false false 2 2, ([1, 2, 3], []))).2.2 = ([], [1, 2, 3]) := by
  decide +kernel

theorem relays_losslessly_two_bytes : 0 < 2 ∧ RelaysLosslessly idleContext pipe pipe
    (copyBidirectionalWithSizes (fun _ _ => 0) pipe pipe ([1, 2, 3], []) false false 2 2)
    ([1, 2, 3], []) [⟨id, 9⟩] :=
  ⟨by decide, relays_losslessly idleContext pipe pipe (fun _ _ => 0) ([1, 2, 3], []) false false
    (by decide) (by decide) [⟨id, 9⟩]⟩

end CopyBidirectional

end RustProxy.Relay
