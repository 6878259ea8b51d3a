import Mathlib.Logic.Relation
import RustProxy.Relay.CopyBidirectional

/-!
# What a poll of the relay can do

A poll is a sequence of small steps, each with at most one call on a stream.
`CopyStep` and `RelayStep` list them with the conditions under which the code
takes them, and `poll_steps` shows that a poll of a relay with valid buffers
takes such steps and nothing else, whether it has returned or is still running.
In particular no slice of the buffer is ever out of range. An invariant of the
relay is then a property that every step keeps.
-/

namespace RustProxy.Relay

open Relation (ReflTransGen)

/-- What came of the call of a step. -/
inductive Effect where
  | progress
  | waiting
  | failed (e : IoError)

namespace CopyBuffer

/-- The indices of the ring are in range, and there is room for a byte. -/
structure Valid (me : CopyBuffer) : Prop where
  positive : 0 < me.size
  allocated : me.buf.length = me.size
  start : me.startIndex < me.size
  cached : me.cacheLength ≤ me.size

/-- The bytes read and not yet written. -/
def contents (me : CopyBuffer) : Bytes := Ring.contents me.buf me.startIndex me.cacheLength

def unusedStart (me : CopyBuffer) : Nat := (me.startIndex + me.cacheLength) % me.size

/-- The length of the slice offered to the reader. -/
def room (me : CopyBuffer) : Nat :=
  Ring.freeEnd me.startIndex me.unusedStart me.size - me.unusedStart

/-- The slice offered to the writer. -/
def offered (me : CopyBuffer) : Bytes :=
  (me.buf.drop me.startIndex).take
    (min (me.startIndex + me.cacheLength) me.size - me.startIndex)

/-- The buffer after `bytes` were read into its free run. -/
def filled (me : CopyBuffer) (bytes : Bytes) : CopyBuffer :=
  { me with
    buf := Ring.overwrite me.buf me.unusedStart bytes
    cacheLength := me.cacheLength + bytes.length }

/-- The buffer after its first `written` bytes were written. -/
def emptied (me : CopyBuffer) (written : Nat) : CopyBuffer :=
  { me with
    cacheLength := me.cacheLength - written
    startIndex :=
      if me.cacheLength - written = 0 then 0 else (me.startIndex + written) % me.size
    needFlush := true }

variable {me : CopyBuffer} {bytes : Bytes} {written : Nat}

theorem valid_new {memory : Nat → UInt8} {size : Nat} {needInitialFlush : Bool}
    (positive : 0 < size) : (new memory size needInitialFlush).Valid where
  positive := positive
  allocated := by simp [new, allocateVec]
  start := positive
  cached := Nat.zero_le _

namespace Valid

theorem unusedStart_lt (h : me.Valid) :
    me.unusedStart < Ring.freeEnd me.startIndex me.unusedStart me.size :=
  Ring.lt_freeEnd h.positive

theorem freeEnd_eq (h : me.Valid) :
    Ring.freeEnd me.startIndex me.unusedStart me.size = me.unusedStart + me.room := by
  have inside := h.unusedStart_lt
  rw [room]
  omega

theorem room_pos (h : me.Valid) : 0 < me.room := by
  have inside := h.unusedStart_lt
  rw [room]
  omega

theorem free_le (h : me.Valid) : me.unusedStart + me.room ≤ me.size := by
  rw [← h.freeEnd_eq]
  exact Ring.freeEnd_le h.start.le

theorem cached_room (h : me.Valid) (space : me.cacheLength < me.size) :
    me.cacheLength + me.room ≤ me.size :=
  Ring.add_freeEnd_le h.start space

theorem offered_length (h : me.Valid) : me.offered.length ≤ me.cacheLength := by
  have := h.allocated
  simp only [offered, List.length_take, List.length_drop]
  omega

theorem offered_ne_nil (h : me.Valid) (cached : 0 < me.cacheLength) : me.offered ≠ [] := by
  have start := h.start
  have size := h.allocated
  rw [← List.length_pos_iff_ne_nil, CopyBuffer.offered, List.length_take, List.length_drop]
  omega

theorem filled (h : me.Valid) (space : me.cacheLength < me.size)
    (fits : bytes.length ≤ me.room) : (me.filled bytes).Valid where
  positive := h.positive
  allocated := by
    have inside := h.free_le
    have size := h.allocated
    exact (Ring.length_overwrite (by omega)).trans size
  start := h.start
  cached := by
    have within := h.cached_room space
    simp only [CopyBuffer.filled]
    omega

theorem emptied (h : me.Valid) : (me.emptied written).Valid where
  positive := h.positive
  allocated := h.allocated
  start := by
    simp only [CopyBuffer.emptied]
    split
    · exact h.positive
    · exact Nat.mod_lt _ h.positive
  cached := by
    have within := h.cached
    simp only [CopyBuffer.emptied]
    omega

/-- Reading appends to the contents. -/
theorem contents_filled (h : me.Valid) (space : me.cacheLength < me.size)
    (fits : bytes.length ≤ me.room) : (me.filled bytes).contents = me.contents ++ bytes := by
  have start := h.start
  have run : me.unusedStart + bytes.length ≤
      Ring.freeEnd me.startIndex me.unusedStart me.size := by
    rw [h.freeEnd_eq]
    omega
  rw [contents, contents, CopyBuffer.filled]
  rw [unusedStart, ← h.allocated] at *
  exact Ring.contents_overwrite start space run

/-- The slice offered to the writer holds the first bytes of the contents. -/
theorem take_offered (h : me.Valid) (fits : written ≤ me.offered.length) :
    me.offered.take written = me.contents.take written := by
  have within := h.offered_length
  have start := h.start
  have length : me.offered.length =
      min (me.startIndex + me.cacheLength) me.size - me.startIndex := by
    have := h.allocated
    simp only [offered, List.length_take, List.length_drop]
    omega
  rw [offered, List.take_take, Nat.min_eq_left (by omega), contents]
  rw [← h.allocated] at *
  exact Ring.take_drop_eq_take_contents start (by omega) (by omega)

/-- Writing drops from the front of the contents. -/
theorem contents_emptied (h : me.Valid) (fits : written ≤ me.cacheLength) :
    (me.emptied written).contents = me.contents.drop written := by
  have within := h.cached
  simp only [contents, CopyBuffer.emptied]
  rw [← h.allocated] at *
  rw [← Ring.contents_advance within fits]
  split
  case isTrue empty => rw [empty, Ring.contents_zero, Ring.contents_zero]
  case isFalse => rfl

end Valid

variable {ω : Type} {r w : AsyncStream ω}

/-- Answers that change nothing in the relay. -/
inductive Idle {α : Type} : Poll (IoResult α) → Effect → Prop
  | waiting : Idle .pending .waiting
  | failed {e : IoError} : Idle (.ready (.error e)) (.failed e)

/-- A step of `poll_copy` from `r` to `w`. -/
inductive CopyStep (r w : AsyncStream ω) : Effect → Copying ω → Copying ω → Prop
  | read {me : CopyBuffer} {world world' : ω} {bytes : Bytes} (more : me.readDone = false)
      (space : me.cacheLength < me.size)
      (answered : r.pollRead me.room world = (.ready (.ok bytes), world')) (some : bytes ≠ []) :
      CopyStep r w .progress (me, world) (me.filled bytes, world')
  | eof {me : CopyBuffer} {world world' : ω} (more : me.readDone = false)
      (space : me.cacheLength < me.size)
      (answered : r.pollRead me.room world = (.ready (.ok []), world')) :
      CopyStep r w .progress (me, world) ({ me with readDone := true }, world')
  | readIdle {me : CopyBuffer} {world world' : ω} {answer : Poll (IoResult Bytes)}
      {effect : Effect} (more : me.readDone = false) (space : me.cacheLength < me.size)
      (answered : r.pollRead me.room world = (answer, world')) (idle : Idle answer effect) :
      CopyStep r w effect (me, world) (me, world')
  | pinged {me : CopyBuffer} {world world' : ω} {written : Bool} (empty : me.cacheLength = 0)
      (answered : w.pollWritePing world = (.ready (.ok written), world')) :
      CopyStep r w .progress (me, world)
        ({ me with needWritePing := false, needFlush := me.needFlush || written }, world')
  | pingSkipped {me : CopyBuffer} {world : ω} :
      CopyStep r w .progress (me, world) ({ me with needWritePing := false }, world)
  | pingIdle {me : CopyBuffer} {world world' : ω} {answer : Poll (IoResult Bool)}
      {effect : Effect} (answered : w.pollWritePing world = (answer, world'))
      (idle : Idle answer effect) : CopyStep r w effect (me, world) (me, world')
  | wrote {me : CopyBuffer} {world world' : ω} {n : Nat} (positive : 0 < n)
      (answered : w.pollWrite me.offered world = (.ready (.ok n), world')) :
      CopyStep r w .progress (me, world) (me.emptied n, world')
  | wroteNothing {me : CopyBuffer} {world world' : ω} (cached : 0 < me.cacheLength)
      (answered : w.pollWrite me.offered world = (.ready (.ok 0), world')) :
      CopyStep r w (.failed writeZeroError) (me, world) (me, world')
  | writeIdle {me : CopyBuffer} {world world' : ω} {answer : Poll (IoResult Nat)}
      {effect : Effect} (answered : w.pollWrite me.offered world = (answer, world'))
      (idle : Idle answer effect) : CopyStep r w effect (me, world) (me, world')
  | flushed {me : CopyBuffer} {world world' : ω}
      (answered : w.pollFlush world = (.ready (.ok ()), world')) :
      CopyStep r w .progress (me, world) ({ me with needFlush := false }, world')
  | flushIdle {me : CopyBuffer} {world world' : ω} {answer : Poll (IoResult Unit)}
      {effect : Effect} (answered : w.pollFlush world = (answer, world'))
      (idle : Idle answer effect) : CopyStep r w effect (me, world) (me, world')

/-- Any number of steps. -/
abbrev Copies (r w : AsyncStream ω) : Copying ω → Copying ω → Prop :=
  ReflTransGen fun s t => ∃ effect, CopyStep r w effect s t

/-- Steps of which the last had the effect given. -/
def CopiesTo (r w : AsyncStream ω) (s : Copying ω) (effect : Effect) (t : Copying ω) : Prop :=
  ∃ m, Copies r w s m ∧ CopyStep r w effect m t

theorem CopyStep.valid {s t : Copying ω} {effect : Effect} (h : CopyStep r w effect s t)
    (valid : s.1.Valid) : t.1.Valid := by
  cases h with
  | read _ space answered =>
      exact valid.filled space (r.read_fits _ _ _ (congrArg Prod.fst answered))
  | wrote => exact valid.emptied
  | eof | pinged | pingSkipped | flushed =>
      exact ⟨valid.positive, valid.allocated, valid.start, valid.cached⟩
  | readIdle | pingIdle | wroteNothing | writeIdle | flushIdle => exact valid

theorem Copies.valid {s t : Copying ω} (h : Copies r w s t) (valid : s.1.Valid) : t.1.Valid := by
  induction h with
  | refl => exact valid
  | tail _ last ih =>
      obtain ⟨effect, step⟩ := last
      exact step.valid ih

/-- What a turn of one of the inner loops does. -/
def TurnDoes (r w : AsyncStream ω) (s : Copying ω) :
    Option (IoResult Bool) → Copying ω → Prop
  | none, t => CopyStep r w .progress s t
  | some (.ok pending), t => if pending then CopyStep r w .waiting s t else s = t
  | some (.error e), t => CopyStep r w (.failed e) s t

/-- How a turn of the reading loop ends, by the answer of the reader. -/
def afterRead (me : CopyBuffer) : Poll (IoResult Bytes) × ω →
    Outcome (Option (IoResult Bool)) × Copying ω
  | (.ready (.ok bytes), world) =>
      if bytes.length = 0 then (.returned none, { me with readDone := true }, world)
      else (.returned none, me.filled bytes, world)
  | (.ready (.error e), world) => (.returned (some (.error e)), me, world)
  | (.pending, world) => (.returned (some (.ok true)), me, world)

/-- How a turn of the writing loop ends, by the answer of the writer. -/
def afterWrite (me : CopyBuffer) : Poll (IoResult Nat) × ω →
    Outcome (Option (IoResult Bool)) × Copying ω
  | (.ready (.ok n), world) =>
      if n = 0 then (.returned (some (.error writeZeroError)), me, world)
      else (.returned none, me.emptied n, world)
  | (.ready (.error e), world) => (.returned (some (.error e)), me, world)
  | (.pending, world) => (.returned (some (.ok true)), me, world)

theorem readTurn_does {s : Copying ω} (valid : s.1.Valid) :
    (readTurn r).Meets s (fun _ => False) (TurnDoes r w s) := by
  obtain ⟨me, world⟩ := s
  by_cases turn : me.readDone = false ∧ me.cacheLength < me.size
  · obtain ⟨more, space⟩ := turn
    have inRange : me.unusedStart ≤ Ring.freeEnd me.startIndex me.unusedStart me.size ∧
        Ring.freeEnd me.startIndex me.unusedStart me.size ≤ me.buf.length :=
      ⟨valid.unusedStart_lt.le, (Ring.freeEnd_le valid.start.le).trans valid.allocated.ge⟩
    have unfolded : readTurn r (me, world) = me.afterRead (r.pollRead me.room world) := by
      rw [readTurn, if_pos ⟨by simp [more], space⟩]
      exact if_pos inRange
    unfold Exec.Meets
    rw [unfolded]
    rcases answered : r.pollRead me.room world with ⟨_ | _ | bytes, world'⟩
    · exact .readIdle more space answered .waiting
    · exact .readIdle more space answered .failed
    · cases bytes with
      | nil => exact .eof more space answered
      | cons byte bytes => exact .read more space answered (List.cons_ne_nil _ _)
  · have unfolded : readTurn r (me, world) = (.returned (some (.ok false)), me, world) := by
      rw [readTurn, if_neg (by simpa using turn)]
    simp [Exec.Meets, unfolded, TurnDoes]

theorem writeTurn_does {s : Copying ω} (valid : s.1.Valid) :
    (writeTurn w).Meets s (fun _ => False) (TurnDoes r w s) := by
  obtain ⟨me, world⟩ := s
  by_cases turn : 0 < me.cacheLength
  · have inRange : me.startIndex ≤ min (me.startIndex + me.cacheLength) me.size ∧
        min (me.startIndex + me.cacheLength) me.size ≤ me.buf.length := by
      have start := valid.start
      have size := valid.allocated
      simp only at start size
      omega
    have unfolded : writeTurn w (me, world) = me.afterWrite (w.pollWrite me.offered world) := by
      rw [writeTurn, if_pos turn]
      exact if_pos inRange
    unfold Exec.Meets
    rw [unfolded]
    rcases answered : w.pollWrite me.offered world with ⟨_ | _ | n, world'⟩
    · exact .writeIdle answered .waiting
    · exact .writeIdle answered .failed
    · cases n with
      | zero => exact .wroteNothing turn answered
      | succ n => exact .wrote (Nat.succ_pos n) answered
  · have unfolded : writeTurn w (me, world) = (.returned (some (.ok false)), me, world) := by
      rw [writeTurn, if_neg turn]
    simp [Exec.Meets, unfolded, TurnDoes]

/-- What one of the inner loops, or the ping, does. -/
def StageDoes (r w : AsyncStream ω) (s : Copying ω) : IoResult Bool → Copying ω → Prop
  | .ok _, t => Copies r w s t
  | .error e, t => CopiesTo r w s (.failed e) t

theorem loop_does {body : Exec (Copying ω) (Option (IoResult Bool))} {s : Copying ω}
    (turn : ∀ s : Copying ω, s.1.Valid → body.Meets s (fun _ => False) (TurnDoes r w s))
    (valid : s.1.Valid) (fuel : Nat) :
    (Exec.loop body fuel).Meets s (Copies r w s) (StageDoes r w s) := by
  refine Exec.Meets.loop (Copies r w s) ?_ (fun _ h => h) .refl fuel
  intro t before
  refine (turn t (before.valid valid)).mono (fun _ h => h.elim) ?_
  intro ended after does
  rcases ended with _ | e | pending
  · exact before.tail ⟨_, does⟩
  · exact ⟨t, before, does⟩
  · cases pending with
    | false =>
        obtain rfl : t = after := by simpa [TurnDoes] using does
        exact before
    | true =>
        have waits : CopyStep r w .waiting t after := by simpa [TurnDoes] using does
        exact before.tail ⟨_, waits⟩

theorem ping_does {s : Copying ω} :
    (ping w).Meets s (Copies r w s) (StageDoes r w s) := by
  obtain ⟨me, world⟩ := s
  by_cases asked : me.needWritePing
  · by_cases empty : me.cacheLength = 0
    · rcases answered : w.pollWritePing world with ⟨_ | e | written, world'⟩
      · have ran : ping w (me, world) = (.returned (.ok true), me, world') := by
          simp [ping, asked, empty, answered]
        exact .of_returned ran (.single ⟨_, .pingIdle answered .waiting⟩)
      · have ran : ping w (me, world) = (.returned (.error e), me, world') := by
          simp [ping, asked, empty, answered]
        exact .of_returned ran ⟨_, .refl, .pingIdle answered .failed⟩
      · have ran : ping w (me, world) = (.returned (.ok false), { me with
            needWritePing := false, needFlush := me.needFlush || written }, world') := by
          cases written <;> simp [ping, asked, empty, answered]
        exact .of_returned ran (.single ⟨_, .pinged empty answered⟩)
    · have ran : ping w (me, world) =
          (.returned (.ok false), { me with needWritePing := false }, world) := by
        simp [ping, asked, empty]
      exact .of_returned ran (.single ⟨_, .pingSkipped⟩)
  · have ran : ping w (me, world) = (.returned (.ok false), me, world) := by
      simp [ping, asked]
    exact .of_returned ran .refl

/-- What the flush does: it goes through, or ends the round. -/
def FlushDoes (r w : AsyncStream ω) (s : Copying ω) :
    Option (Poll (IoResult Unit)) → Copying ω → Prop
  | none, t => Copies r w s t ∧ t.1.needFlush = false
  | some .pending, t => Copies r w s t
  | some (.ready (.error e)), t => CopiesTo r w s (.failed e) t
  | some (.ready (.ok ())), _ => False

theorem flush_does {s : Copying ω} : (flush w).Meets s (Copies r w s) (FlushDoes r w s) := by
  obtain ⟨me, world⟩ := s
  by_cases needed : me.needFlush
  · rcases answered : w.pollFlush world with ⟨_ | e | _, world'⟩
    · have ran : flush w (me, world) = (.returned (some .pending), me, world') := by
        simp [flush, needed, answered]
      exact .of_returned ran (.single ⟨_, .flushIdle answered .waiting⟩)
    · have ran : flush w (me, world) = (.returned (some (.ready (.error e))), me, world') := by
        simp [flush, needed, answered]
      exact .of_returned ran ⟨_, .refl, .flushIdle answered .failed⟩
    · have ran : flush w (me, world) =
        (.returned none, { me with needFlush := false }, world') := by
        simp [flush, needed, answered]
      exact .of_returned ran ⟨.single ⟨_, .flushed answered⟩, rfl⟩
  · have ran : flush w (me, world) = (.returned none, me, world) := by
      simp [flush, needed]
    exact .of_returned ran ⟨.refl, by simpa using needed⟩

/-- Everything read has been written and flushed, and nothing is left to read. -/
def Finished (me : CopyBuffer) : Prop :=
  me.readDone = true ∧ me.cacheLength = 0 ∧ me.needFlush = false

/-- What `poll_copy` does when it returns. -/
def AnswerDoes (r w : AsyncStream ω) (s : Copying ω) : Poll (IoResult Unit) → Copying ω → Prop
  | .pending, t => Copies r w s t
  | .ready (.ok ()), t => Copies r w s t ∧ t.1.Finished
  | .ready (.error e), t => CopiesTo r w s (.failed e) t

theorem AnswerDoes.after {s m t : Copying ω} {answer : Poll (IoResult Unit)}
    (before : Copies r w s m) (h : AnswerDoes r w m answer t) : AnswerDoes r w s answer t := by
  rcases answer with _ | _ | _
  · exact before.trans h
  · obtain ⟨last, between, step⟩ := h
    exact ⟨last, before.trans between, step⟩
  · exact ⟨before.trans h.1, h.2⟩

/-- What a round does: it returns from `poll_copy`, or goes on. -/
def RoundDoes (r w : AsyncStream ω) (s : Copying ω) :
    Option (Poll (IoResult Unit)) → Copying ω → Prop
  | some answer, t => AnswerDoes r w s answer t
  | none, t => Copies r w s t

theorem verdict_does {readPending writePending : Bool} {s : Copying ω}
    (flushed : s.1.needFlush = false) :
    (verdict readPending writePending).Meets s (Copies r w s) (RoundDoes r w s) := by
  obtain ⟨me, world⟩ := s
  by_cases ended : me.readDone = true ∧ me.cacheLength = 0
  · exact .of_returned (if_pos ended) ⟨.refl, ended.1, ended.2, flushed⟩
  · by_cases waits : (readPending || writePending) = true
    · exact .of_returned ((if_neg ended).trans (if_pos waits)) .refl
    · exact .of_returned ((if_neg ended).trans (if_neg waits)) .refl

theorem RoundDoes.after {s m t : Copying ω} {ended : Option (Poll (IoResult Unit))}
    (before : Copies r w s m) (h : RoundDoes r w m ended t) : RoundDoes r w s ended t := by
  cases ended with
  | none => exact before.trans h
  | some answer => exact AnswerDoes.after before h

/-- A stage that ends `poll_copy` with an error, or else leads to the next. -/
theorem stage_does {x : Exec (Copying ω) (IoResult Bool)} {s : Copying ω}
    {next : Bool → Exec (Copying ω) (Option (Poll (IoResult Unit)))}
    (stage : x.Meets s (Copies r w s) (StageDoes r w s))
    (rest : ∀ pending t, Copies r w s t →
      (next pending).Meets t (Copies r w t) (RoundDoes r w t)) :
    Exec.Meets (x >>= fun
      | .error e => pure (some (.ready (.error e)))
      | .ok pending => next pending) s (Copies r w s) (RoundDoes r w s) := by
  apply stage.bind
  intro ended t does
  cases ended with
  | error e => exact does
  | ok pending =>
      exact (rest pending t does).mono (fun _ h => does.trans h) fun _ _ h => h.after does

theorem copyRound_does {s : Copying ω} (valid : s.1.Valid) (fuel : Nat) :
    (copyRound fuel r w).Meets s (Copies r w s) (RoundDoes r w s) := by
  apply stage_does (loop_does (fun _ => readTurn_does) valid fuel)
  intro readPending t read
  apply stage_does ping_does
  intro pingPending u pinged
  have validNow : u.1.Valid := Copies.valid (read.trans pinged) valid
  apply stage_does (loop_does (fun _ => writeTurn_does) validNow fuel)
  intro writePending v _
  apply flush_does.bind
  intro ended after does
  rcases ended with _ | _ | _ | _
  · exact (verdict_does does.2).mono (fun _ h => does.1.trans h) fun _ _ h => h.after does.1
  · exact does
  · exact does
  · exact does.elim

theorem pollCopy_does (cx : Context ω) (r w : AsyncStream ω) {me : CopyBuffer} (world : ω)
    (valid : me.Valid) (fuel : Nat) :
    (pollCopy fuel cx r w).Meets (me, world) (Copies r w (me, (cx.pollProceed world).2))
      (AnswerDoes r w (me, (cx.pollProceed world).2)) := by
  rcases proceed : cx.pollProceed world with ⟨_ | _, world'⟩
  · have ran : pollCopy fuel cx r w (me, world) = (.returned .pending, me, world') := by
      simp [pollCopy, proceed]
    exact .of_returned ran .refl
  · have ran : pollCopy fuel cx r w (me, world) =
        Exec.loop (copyRound fuel r w) fuel (me, world') := by
      simp [pollCopy, proceed]
    unfold Exec.Meets
    rw [ran]
    refine Exec.Meets.loop (Copies r w (me, world')) (fun t before => ?_)
      (fun _ h => h) .refl fuel
    refine (copyRound_does (Copies.valid before valid) fuel).mono (fun _ h => before.trans h)
      fun ended _ does => ?_
    cases ended with
    | none => exact before.trans does
    | some answer => exact AnswerDoes.after before does

end CopyBuffer

variable {ω : Type} {cx : Context ω} {a b r w : AsyncStream ω}

/-- A step of one direction. -/
inductive TransferStep (cx : Context ω) (r w : AsyncStream ω) :
    Effect → Transfer × ω → Transfer × ω → Prop
  | proceed {t : Transfer} {world : ω} :
      TransferStep cx r w .progress (t, world) (t, (cx.pollProceed world).2)
  | copy {buf buf' : CopyBuffer} {world world' : ω} {effect : Effect}
      (step : CopyBuffer.CopyStep r w effect (buf, world) (buf', world')) :
      TransferStep cx r w effect (⟨.running, buf⟩, world) (⟨.running, buf'⟩, world')
  | finish {buf : CopyBuffer} {world : ω} (finished : buf.Finished) :
      TransferStep cx r w .progress (⟨.running, buf⟩, world) (⟨.shuttingDown, buf⟩, world)
  | shutDown {buf : CopyBuffer} {world world' : ω}
      (answered : w.pollShutdown world = (.ready (.ok ()), world')) :
      TransferStep cx r w .progress (⟨.shuttingDown, buf⟩, world) (⟨.done, buf⟩, world')
  | shutdownIdle {buf : CopyBuffer} {world world' : ω} {answer : Poll (IoResult Unit)}
      {effect : Effect} (answered : w.pollShutdown world = (answer, world'))
      (idle : CopyBuffer.Idle answer effect) :
      TransferStep cx r w effect (⟨.shuttingDown, buf⟩, world) (⟨.shuttingDown, buf⟩, world')

abbrev Transfers (cx : Context ω) (r w : AsyncStream ω) : Transfer × ω → Transfer × ω → Prop :=
  ReflTransGen fun s t => ∃ effect, TransferStep cx r w effect s t

/-- What one direction does when it returns. -/
def DirectionDoes (cx : Context ω) (r w : AsyncStream ω) (s : Transfer × ω) :
    Poll (IoResult Unit) → Transfer × ω → Prop
  | .pending, t => Transfers cx r w s t
  | .ready (.ok ()), t => Transfers cx r w s t ∧ t.1.state = .done
  | .ready (.error e), t => ∃ m, Transfers cx r w s m ∧ TransferStep cx r w (.failed e) m t

theorem TransferStep.valid {s t : Transfer × ω} {effect : Effect}
    (h : TransferStep cx r w effect s t) (valid : s.1.buf.Valid) : t.1.buf.Valid := by
  cases h with
  | copy step => exact step.valid valid
  | proceed | finish | shutDown | shutdownIdle => exact valid

theorem TransferStep.stays_done {s t : Transfer × ω} {effect : Effect}
    (h : TransferStep cx r w effect s t) (done : s.1.state = .done) : t.1.state = .done := by
  cases h with
  | proceed => exact done
  | copy | finish | shutDown | shutdownIdle => cases done

theorem Transfers.valid {s t : Transfer × ω} (h : Transfers cx r w s t)
    (valid : s.1.buf.Valid) : t.1.buf.Valid := by
  induction h with
  | refl => exact valid
  | tail _ last ih =>
      obtain ⟨effect, step⟩ := last
      exact step.valid ih

theorem transfers_of_copies {s t : CopyBuffer.Copying ω} (h : CopyBuffer.Copies r w s t) :
    Transfers cx r w (⟨.running, s.1⟩, s.2) (⟨.running, t.1⟩, t.2) := by
  induction h with
  | refl => exact .refl
  | tail _ last ih =>
      obtain ⟨effect, step⟩ := last
      exact ih.tail ⟨effect, .copy step⟩

/-- What a turn of `transfer_one_direction` does: it returns, or goes on. -/
def DirectionTurnDoes (cx : Context ω) (r w : AsyncStream ω) (s : Transfer × ω) :
    Option (Poll (IoResult Unit)) → Transfer × ω → Prop
  | some answer, t => DirectionDoes cx r w s answer t
  | none, t => Transfers cx r w s t

theorem transferTurn_running {buf : CopyBuffer} {world : ω} (valid : buf.Valid) (fuel : Nat) :
    (transferTurn fuel cx r w).Meets (⟨.running, buf⟩, world)
      (Transfers cx r w (⟨.running, buf⟩, world))
      (DirectionTurnDoes cx r w (⟨.running, buf⟩, world)) := by
  have does := CopyBuffer.pollCopy_does cx r w world valid fuel
  have proceeded : Transfers cx r w (⟨.running, buf⟩, world)
      (⟨.running, buf⟩, (cx.pollProceed world).2) := .single ⟨_, .proceed⟩
  unfold Exec.Meets at does ⊢
  rcases ran : CopyBuffer.pollCopy fuel cx r w (buf, world) with
    ⟨(_ | e | _) | _ | _, buf', world'⟩ <;> simp only [ran] at does <;>
    simp only [transferTurn, ran]
  · exact proceeded.trans (transfers_of_copies does)
  · obtain ⟨m, before, last⟩ := does
    exact ⟨_, proceeded.trans (transfers_of_copies before), .copy last⟩
  · exact (proceeded.trans (transfers_of_copies does.1)).tail ⟨_, .finish does.2⟩
  · exact proceeded.trans (transfers_of_copies does)

theorem transferTurn_does {s : Transfer × ω} (valid : s.1.buf.Valid) (fuel : Nat) :
    (transferTurn fuel cx r w).Meets s (Transfers cx r w s) (DirectionTurnDoes cx r w s) := by
  obtain ⟨⟨state, buf⟩, world⟩ := s
  cases state with
  | running => exact transferTurn_running valid fuel
  | shuttingDown =>
      rcases answered : w.pollShutdown world with ⟨_ | e | _, world'⟩
      · have ran : transferTurn fuel cx r w (⟨.shuttingDown, buf⟩, world) =
            (.returned (some .pending), ⟨.shuttingDown, buf⟩, world') := by
          simp [transferTurn, answered]
        exact .of_returned ran (.single ⟨_, .shutdownIdle answered .waiting⟩)
      · have ran : transferTurn fuel cx r w (⟨.shuttingDown, buf⟩, world) =
            (.returned (some (.ready (.error e))), ⟨.shuttingDown, buf⟩, world') := by
          simp [transferTurn, answered]
        exact .of_returned ran ⟨_, .refl, .shutdownIdle answered .failed⟩
      · have ran : transferTurn fuel cx r w (⟨.shuttingDown, buf⟩, world) =
            (.returned none, ⟨.done, buf⟩, world') := by
          simp [transferTurn, answered]
        exact .of_returned ran (.single ⟨_, .shutDown answered⟩)
  | done => exact .of_returned (a := some (.ready (.ok ()))) rfl ⟨.refl, rfl⟩

theorem DirectionDoes.after {s m t : Transfer × ω} {answer : Poll (IoResult Unit)}
    (before : Transfers cx r w s m) (h : DirectionDoes cx r w m answer t) :
    DirectionDoes cx r w s answer t := by
  rcases answer with _ | _ | _
  · exact before.trans h
  · obtain ⟨last, between, step⟩ := h
    exact ⟨last, before.trans between, step⟩
  · exact ⟨before.trans h.1, h.2⟩

theorem transferOneDirection_does {s : Transfer × ω} (valid : s.1.buf.Valid) (fuel : Nat) :
    (transferOneDirection fuel cx r w).Meets s (Transfers cx r w s) (DirectionDoes cx r w s) := by
  refine Exec.Meets.loop (Transfers cx r w s) (fun t before => ?_) (fun _ h => h)
    .refl fuel
  refine (transferTurn_does (Transfers.valid before valid) fuel).mono (fun _ h => before.trans h)
    fun ended _ does => ?_
  cases ended with
  | none => exact before.trans does
  | some answer => exact DirectionDoes.after before does

namespace CopyBidirectional

/-- The direction that reads from a side. -/
def transfer (me : CopyBidirectional) : Side → Transfer
  | .a => me.aToB
  | .b => me.bToA

def setTransfer (me : CopyBidirectional) (t : Transfer) : Side → CopyBidirectional
  | .a => { me with aToB := t }
  | .b => { me with bToA := t }

@[simp] theorem transfer_setTransfer (me : CopyBidirectional) (t : Transfer) (side : Side) :
    (me.setTransfer t side).transfer side = t := by
  cases side <;> rfl

/-- The timer asks both directions for a ping, where their writer supports it. -/
def askPing (a b : AsyncStream ω) (world : ω) (me : CopyBidirectional) : CopyBidirectional :=
  { me with
    aToB := { me.aToB with buf := { me.aToB.buf with needWritePing := b.supportsPing world } }
    bToA := { me.bToA with buf := { me.bToA.buf with needWritePing := a.supportsPing world } } }

/-- A step of the relay. -/
inductive RelayStep (cx : Context ω) (a b : AsyncStream ω) :
    Effect → Relaying ω → Relaying ω → Prop
  | sleep {me : CopyBidirectional} {world : ω} :
      RelayStep cx a b .progress (me, world) (me, (cx.pollSleep world).2)
  | fire {me : CopyBidirectional} {world world' : ω}
      (fired : cx.pollSleep world = (.ready (), world')) :
      RelayStep cx a b .progress (me, world) (me.askPing a b world', cx.resetSleep world')
  | transfer {me : CopyBidirectional} {world world' : ω} {effect : Effect} {t : Transfer}
      (side : Side) (step : TransferStep cx (AsyncStream.on a b side)
        (AsyncStream.on a b side.other) effect (me.transfer side, world) (t, world')) :
      RelayStep cx a b effect (me, world) (me.setTransfer t side, world')

abbrev Relays (cx : Context ω) (a b : AsyncStream ω) : Relaying ω → Relaying ω → Prop :=
  ReflTransGen fun s t => ∃ effect, RelayStep cx a b effect s t

/-- Both buffers are in order. -/
def Valid (me : CopyBidirectional) : Prop := ∀ side, (me.transfer side).buf.Valid

variable {s t : Relaying ω}

theorem RelayStep.valid {effect : Effect} (h : RelayStep cx a b effect s t) (valid : s.1.Valid) :
    t.1.Valid := by
  cases h with
  | sleep => exact valid
  | fire =>
      intro side
      cases side with
      | a => exact ⟨(valid .a).positive, (valid .a).allocated, (valid .a).start, (valid .a).cached⟩
      | b => exact ⟨(valid .b).positive, (valid .b).allocated, (valid .b).start, (valid .b).cached⟩
  | transfer side step =>
      have moved := step.valid (valid side)
      intro other
      cases side with
      | a =>
          cases other with
          | a => exact moved
          | b => exact valid .b
      | b =>
          cases other with
          | a => exact valid .a
          | b => exact moved

theorem Relays.valid (h : Relays cx a b s t) (valid : s.1.Valid) : t.1.Valid := by
  induction h with
  | refl => exact valid
  | tail _ last ih =>
      obtain ⟨effect, step⟩ := last
      exact step.valid ih

/-- A direction that is done stays so. -/
theorem RelayStep.stays_done {effect : Effect} {side : Side} (h : RelayStep cx a b effect s t)
    (done : (s.1.transfer side).state = .done) : (t.1.transfer side).state = .done := by
  cases h with
  | sleep => exact done
  | fire => cases side <;> exact done
  | transfer moved step =>
      cases moved with
      | a =>
          cases side with
          | a => exact step.stays_done done
          | b => exact done
      | b =>
          cases side with
          | a => exact done
          | b => exact step.stays_done done

theorem Relays.stays_done {side : Side} (h : Relays cx a b s t)
    (done : (s.1.transfer side).state = .done) : (t.1.transfer side).state = .done := by
  induction h with
  | refl => exact done
  | tail _ last ih =>
      obtain ⟨effect, step⟩ := last
      exact step.stays_done ih

/-- A step of one direction is one of the relay. -/
theorem relayStep_of_transferStep {me : CopyBidirectional} {side : Side} {effect : Effect}
    {m u : Transfer × ω} (step : TransferStep cx (AsyncStream.on a b side)
      (AsyncStream.on a b side.other) effect m u) :
    RelayStep cx a b effect (me.setTransfer m.1 side, m.2) (me.setTransfer u.1 side, u.2) := by
  cases side with
  | a => exact .transfer .a step
  | b => exact .transfer .b step

theorem relays_of_transfers {me : CopyBidirectional} {side : Side} {world : ω}
    {u : Transfer × ω} (h : Transfers cx (AsyncStream.on a b side)
      (AsyncStream.on a b side.other) (me.transfer side, world) u) :
    Relays cx a b (me, world) (me.setTransfer u.1 side, u.2) := by
  induction h with
  | refl => cases side <;> exact .refl
  | tail _ last ih =>
      obtain ⟨effect, step⟩ := last
      exact ih.tail ⟨effect, relayStep_of_transferStep step⟩

/-- What one direction does to the relay when it returns. -/
def SideDoes (cx : Context ω) (a b : AsyncStream ω) (side : Side) (s : Relaying ω) :
    Poll (IoResult Unit) → Relaying ω → Prop
  | .pending, t => Relays cx a b s t
  | .ready (.ok ()), t => Relays cx a b s t ∧ (t.1.transfer side).state = .done
  | .ready (.error e), t => ∃ m, Relays cx a b s m ∧ RelayStep cx a b (.failed e) m t

theorem SideDoes.relays {side : Side} {answer : Poll (IoResult Unit)}
    (h : SideDoes cx a b side s answer t) : Relays cx a b s t := by
  rcases answer with _ | _ | _
  · exact h
  · obtain ⟨m, before, last⟩ := h
    exact before.tail ⟨_, last⟩
  · exact h.1

theorem side_does (side : Side) {me : CopyBidirectional} {world : ω}
    (valid : (me.transfer side).buf.Valid) (fuel : Nat) :
    (Exec.zoom (fun s => (s.1.transfer side, s.2)) (fun t s => (s.1.setTransfer t.1 side, t.2))
      (transferOneDirection fuel cx (AsyncStream.on a b side)
        (AsyncStream.on a b side.other))).Meets (me, world) (Relays cx a b (me, world))
      (SideDoes cx a b side (me, world)) := by
  refine .zoom ?_
  refine (transferOneDirection_does valid fuel).mono (fun _ h => relays_of_transfers h)
    fun answer u does => ?_
  rcases answer with _ | _ | _
  · exact relays_of_transfers does
  · obtain ⟨m, before, last⟩ := does
    exact ⟨_, relays_of_transfers before, relayStep_of_transferStep last⟩
  · exact ⟨relays_of_transfers does.1, by simpa using does.2⟩

/-- What a poll of the relay does when it returns. -/
def PollDoes (cx : Context ω) (a b : AsyncStream ω) (s : Relaying ω) :
    Poll (IoResult Unit) → Relaying ω → Prop
  | .pending, t => Relays cx a b s t
  | .ready (.ok ()), t => Relays cx a b s t ∧ ∀ side, (t.1.transfer side).state = .done
  | .ready (.error e), t => ∃ m m', Relays cx a b s m ∧ RelayStep cx a b (.failed e) m m' ∧
      Relays cx a b m' t

theorem pollSleep_does :
    (pollSleep cx a b).Meets s (Relays cx a b s) fun _ => Relays cx a b s := by
  obtain ⟨me, world⟩ := s
  by_cases pings : me.pings
  · rcases answered : cx.pollSleep world with ⟨_ | _, world'⟩
    · have ran : pollSleep cx a b (me, world) = (.returned (), me, (cx.pollSleep world).2) := by
        simp [pollSleep, pings, answered]
      exact .of_returned ran (.single ⟨_, .sleep⟩)
    · have ran : pollSleep cx a b (me, world) =
          (.returned (), me.askPing a b world', cx.resetSleep world') := by
        simp [pollSleep, pings, answered, askPing]
      exact .of_returned ran (.single ⟨_, .fire answered⟩)
  · have ran : pollSleep cx a b (me, world) = (.returned (), me, world) := by
      simp [pollSleep, pings]
    exact .of_returned ran .refl

/-- The answers of the directions, one after the other, make that of the relay. -/
theorem combine_does {m : Relaying ω} {first second : Poll (IoResult Unit)}
    (h : SideDoes cx a b .a s first m) (h' : SideDoes cx a b .b m second t) :
    PollDoes cx a b s (combine first second) t := by
  have whole : Relays cx a b s t := h.relays.trans h'.relays
  rcases first with _ | e | _
  · rcases second with _ | e | _
    · exact whole
    · obtain ⟨last, before, step⟩ := h'
      exact ⟨last, t, h.trans before, step, .refl⟩
    · exact whole
  · obtain ⟨last, before, step⟩ := h
    exact ⟨last, m, before, step, h'.relays⟩
  · rcases second with _ | e | _
    · exact whole
    · obtain ⟨last, before, step⟩ := h'
      exact ⟨last, t, h.1.trans before, step, .refl⟩
    · refine ⟨whole, ?_⟩
      intro side
      cases side with
      | a => exact Relays.stays_done h'.1 h.2
      | b => exact h'.2

theorem PollDoes.after {m : Relaying ω} {answer : Poll (IoResult Unit)}
    (before : Relays cx a b s m) (h : PollDoes cx a b m answer t) :
    PollDoes cx a b s answer t := by
  rcases answer with _ | _ | _
  · exact before.trans h
  · obtain ⟨last, last', between, step, rest⟩ := h
    exact ⟨last, last', before.trans between, step, rest⟩
  · exact ⟨before.trans h.1, h.2⟩

theorem poll_does (valid : s.1.Valid) (fuel : Nat) :
    (poll fuel cx a b).Meets s (Relays cx a b s) (PollDoes cx a b s) := by
  apply pollSleep_does.bind
  intro _ t slept
  have validThen := Relays.valid slept valid
  refine ((side_does .a (validThen .a) fuel).mono (fun _ h => slept.trans h)
    (fun _ _ h => h)).bind fun first u does => ?_
  have validBetween := Relays.valid does.relays validThen
  refine ((side_does .b (validBetween .b) fuel).mono
    (fun _ h => (slept.trans does.relays).trans h) (fun _ _ h => h)).bind fun second v does' => ?_
  exact Exec.meets_pure ((combine_does does does').after slept)

end CopyBidirectional

/-- Every call on the stream moves the world along `R`. -/
structure Respects (R : ω → ω → Prop) (stream : AsyncStream ω) : Prop where
  read : ∀ room world, R world (stream.pollRead room world).2
  write : ∀ offered world, R world (stream.pollWrite offered world).2
  flush : ∀ world, R world (stream.pollFlush world).2
  shutdown : ∀ world, R world (stream.pollShutdown world).2
  ping : ∀ world, R world (stream.pollWritePing world).2

section Respects

variable {R : ω → ω → Prop} {effect : Effect}

theorem CopyBuffer.CopyStep.respects {s t : CopyBuffer.Copying ω} (refl : ∀ world, R world world)
    (reader : Respects R r) (writer : Respects R w) (h : CopyBuffer.CopyStep r w effect s t) :
    R s.2 t.2 := by
  cases h with
  | read _ _ answered | eof _ _ answered | readIdle _ _ answered =>
      exact (congrArg (R _ ·.2) answered).mp (reader.read _ _)
  | pinged _ answered | pingIdle answered =>
      exact (congrArg (R _ ·.2) answered).mp (writer.ping _)
  | pingSkipped => exact refl _
  | wrote _ answered | wroteNothing _ answered | writeIdle answered =>
      exact (congrArg (R _ ·.2) answered).mp (writer.write _ _)
  | flushed answered | flushIdle answered =>
      exact (congrArg (R _ ·.2) answered).mp (writer.flush _)

theorem TransferStep.respects {s t : Transfer × ω} (refl : ∀ world, R world world)
    (reader : Respects R r) (writer : Respects R w)
    (proceeds : ∀ world, R world (cx.pollProceed world).2) (h : TransferStep cx r w effect s t) :
    R s.2 t.2 := by
  cases h with
  | proceed => exact proceeds _
  | copy step => exact step.respects refl reader writer
  | finish => exact refl _
  | shutDown answered | shutdownIdle answered =>
      exact (congrArg (R _ ·.2) answered).mp (writer.shutdown _)

theorem CopyBidirectional.RelayStep.respects {s t : CopyBidirectional.Relaying ω}
    (refl : ∀ world, R world world) (first : Respects R a) (second : Respects R b)
    (proceeds : ∀ world, R world (cx.pollProceed world).2)
    (sleeps : ∀ world, R world (cx.pollSleep world).2)
    (fires : ∀ world, R world (cx.resetSleep (cx.pollSleep world).2))
    (h : CopyBidirectional.RelayStep cx a b effect s t) : R s.2 t.2 := by
  cases h with
  | sleep => exact sleeps _
  | @fire _ world _ fired =>
      have moved := fires world
      rwa [fired] at moved
  | transfer side step =>
      cases side with
      | a => exact step.respects refl first second proceeds
      | b => exact step.respects refl second first proceeds

end Respects

end RustProxy.Relay
