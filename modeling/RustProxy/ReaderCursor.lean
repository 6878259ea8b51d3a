import RustProxy.Base.Transition
import RustProxy.StreamReader

/-!
# The buffered reader as a cursor

A `StreamReader` on a stream of non-empty pieces, with errors anywhere between
them, is a cursor over the bytes of the stream: a call that succeeds answers
with the bytes at the cursor and moves it over those it consumes, a call that
fails leaves it where it is. What is buffered is what has been received and not
been consumed.

A call fails only when fewer bytes are buffered than it needs, and then with the
next error of the stream, which it takes off it, or because nothing follows. The
turns of the loop that fills the buffer never find it full, so there is always
room in the slice that the stream is read into and a read of zero bytes is the end.
-/

namespace RustProxy.StreamReader

open BigEndian

/-- A call on a reader. -/
inductive Call where
  | readU8
  | readU16Be
  | peekSlice (len : Nat)
  | readSlice (len : Nat)
  | consume (len : Nat)
  deriving DecidableEq, Repr

inductive Answer where
  | u8 (value : UInt8)
  | u16 (value : Nat)
  | slice (bytes : Bytes)
  | unit
  deriving DecidableEq, Repr

namespace Call

def run : Call → Reading Answer
  | readU8 => do pure (.u8 (← StreamReader.readU8))
  | readU16Be => do pure (.u16 (← StreamReader.readU16Be))
  | peekSlice len => do pure (.slice (← StreamReader.peekSlice len))
  | readSlice len => do pure (.slice (← StreamReader.readSlice len))
  | consume len => do
      Fallible.modify fun s => (s.1.consume len, s.2)
      pure .unit

/-- How many bytes a call looks at. -/
def needs : Call → Nat
  | readU8 => 1
  | readU16Be => 2
  | peekSlice len | readSlice len | consume len => len

/-- How many bytes a call consumes. -/
def takes : Call → Nat
  | peekSlice _ => 0
  | call => call.needs

/-- What a call makes of the bytes it looks at. -/
def answer (bytes : Bytes) : Call → Answer
  | readU8 => .u8 (bytes.headD 0)
  | readU16Be => .u16 (ofBe bytes)
  | peekSlice _ | readSlice _ => .slice bytes
  | consume _ => .unit

/-- A slice is no longer than the buffer, and only what is buffered is consumed. -/
def allowed (r : StreamReader) : Call → Bool
  | readU8 | readU16Be => true
  | peekSlice len | readSlice len => len ≤ r.buf.length
  | consume len => len ≤ r.unparsedData.length

end Call

/-- A reader on its stream, with the calls made on it and their answers. -/
structure Session where
  reader : StreamReader
  stream : Incoming
  log : List (Call × IoResult Answer)

namespace Session

def start (memory : Nat → UInt8) (size : Nat) (stream : Incoming) : Session :=
  ⟨newWithBufferSize memory size, stream, []⟩

def step (s : Session) (call : Call) : Option Session :=
  if call.allowed s.reader then
    let (answer, reader, stream) := call.run (s.reader, s.stream)
    some ⟨reader, stream, s.log ++ [(call, answer)]⟩
  else none

end Session

/-- A cursor over the bytes, moved by the calls of a log. -/
inductive Moves (bytes : Bytes) : List (Call × IoResult Answer) → Nat → Prop
  | start : Moves bytes [] 0
  | returned {log : List (Call × IoResult Answer)} {position : Nat} (call : Call) :
      Moves bytes log position → position + call.needs ≤ bytes.length →
      Moves bytes (log ++ [(call, .ok (call.answer ((bytes.drop position).take call.needs)))])
        (position + call.takes)
  | failed {log : List (Call × IoResult Answer)} {position : Nat} (call : Call) (e : IoError) :
      Moves bytes log position → Moves bytes (log ++ [(call, .error e)]) position

/-- The calls have moved a cursor over the bytes of the stream, and the buffer
holds what has been received behind it. -/
def IsCursor (bytes : Bytes) (s : Session) : Prop :=
  ∃ position received, Moves bytes s.log position ∧ received ++ s.stream.bytes = bytes ∧
    position ≤ received.length ∧ s.reader.unparsedData = received.drop position

/-- The readers on which the turns of `fill` call `read`. -/
def reads (len : Nat) : Nat → StreamReader × Incoming → List StreamReader
  | 0, _ => []
  | turns + 1, s =>
      if s.1.endOffset - s.1.startOffset < len then
        s.1 :: match read s with
          | (.ok (), t) => reads len turns t
          | (.error _, _) => []
      else []

/-- There is room in the slice that `read` hands to the stream. -/
def HasRoom (r : StreamReader) : Prop :=
  r.isCacheFull = false ∧ 0 < r.resetBufOffset.buf.length - r.resetBufOffset.endOffset

/-- The errors that a stream has for its reader, in order; a read that is
interrupted is repeated. -/
def Incoming.failures (src : Incoming) : List IoError :=
  src.filterMap fun
    | .ok _ => none
    | .error e => if e.kind = .interrupted then none else some e

/-- Less is buffered than is needed, and the stream has ended without an error or
its next error has been taken off it. -/
def Explains (needs : Nat) (src : Incoming) (e : IoError) (t : StreamReader × Incoming) : Prop :=
  t.1.unparsedData.length < needs ∧
    (e = eofError ∧ t.2 = [] ∧ Incoming.failures src = [] ∨
      Incoming.failures src = e :: Incoming.failures t.2)

/-- Every read has room, an error is the stream's, and without one the stream's
errors are all still to come. -/
structure CallsWell (s : Session) (call : Call) : Prop where
  reads : ∀ r ∈ reads call.needs call.needs (s.reader, s.stream), HasRoom r
  fails : ∀ e t, call.run (s.reader, s.stream) = (.error e, t) →
    Explains call.needs s.stream e t
  returns : ∀ answer t, call.run (s.reader, s.stream) = (.ok answer, t) →
    Incoming.failures t.2 = Incoming.failures s.stream

/-! ## One read -/

/-- Every piece of the stream holds a byte. -/
def NonEmpty (src : Incoming) : Prop := ∀ bytes, .ok bytes ∈ src → bytes ≠ []

/-- What is left of a stream: pieces with a byte each and all its errors. -/
structure Left (src rest : Incoming) : Prop where
  pieces : NonEmpty rest
  failures : Incoming.failures rest = Incoming.failures src

/-- What a read, repeated when it is interrupted, can do. -/
inductive ReadDoes (room : Nat) (src : Incoming) : IoResult (Filled room) × Incoming → Prop
  | ended {filled : Filled room} : src.bytes = [] → Incoming.failures src = [] → filled.1 = [] →
      ReadDoes room src (.ok filled, [])
  | piece {filled : Filled room} {rest : Incoming} : filled.1 ≠ [] →
      filled.1 ++ rest.bytes = src.bytes → Left src rest → ReadDoes room src (.ok filled, rest)
  | failed {e : IoError} {rest : Incoming} :
      Incoming.failures src = e :: Incoming.failures rest → rest.bytes = src.bytes →
      NonEmpty rest → ReadDoes room src (.error e, rest)

theorem failures_interrupted {e : IoError} (kind : e.kind = .interrupted) (src : Incoming) :
    Incoming.failures (.error e :: src) = Incoming.failures src := by
  simp [Incoming.failures, kind]

theorem failures_error {e : IoError} (kind : e.kind ≠ .interrupted) (src : Incoming) :
    Incoming.failures (.error e :: src) = e :: Incoming.failures src := by
  simp [Incoming.failures, kind]

/-- What is taken off a piece leaves the errors behind it. -/
theorem failures_read_piece {room : Nat} {piece : Bytes} {src rest : Incoming}
    {filled : Filled room}
    (got : Incoming.readUninterrupted room (.ok piece :: src) = (.ok filled, rest)) :
    Incoming.failures rest = Incoming.failures src := by
  rw [Incoming.readUninterrupted, Incoming.read] at got
  · split at got
    · cases got
      rfl
    · cases got
      rfl
  · intro e src same
    cases same

theorem readUninterrupted_does {room : Nat} (space : 0 < room) {src : Incoming}
    (pieces : NonEmpty src) : ReadDoes room src (src.readUninterrupted room) := by
  induction src with
  | nil => exact .ended rfl rfl rfl
  | cons first src ih =>
      have later : NonEmpty src := fun bytes mem => pieces bytes (List.mem_cons_of_mem _ mem)
      cases first with
      | ok piece =>
          obtain ⟨filled, rest, got, nonempty, same, others⟩ :=
            read_piece src space (pieces piece List.mem_cons_self)
          have failures := failures_read_piece got
          rw [got]
          refine .piece nonempty same ⟨fun bytes mem => ?_, failures⟩
          rcases others _ mem with before | ⟨other, equal, some_⟩
          · exact later bytes before
          · cases equal
            exact some_
      | error e =>
          rw [Incoming.readUninterrupted]
          split
          case isTrue kind =>
            have does := ih later
            have errors := failures_interrupted kind src
            generalize Incoming.readUninterrupted room src = result at does ⊢
            cases does with
            | ended bytes none_ filled => exact .ended bytes (errors.trans none_) filled
            | piece nonempty same left =>
                exact .piece nonempty same ⟨left.pieces, left.failures.trans errors.symm⟩
            | failed next same pieces => exact .failed (errors.trans next) same pieces
          case isFalse kind => exact .failed (failures_error kind src) rfl later

/-! ## Filling the buffer -/

/-- A reader with a buffer of `size` bytes has `ahead` before it. -/
structure Stands (size : Nat) (ahead : Bytes) (s : StreamReader × Incoming) : Prop where
  size : s.1.buf.length = size
  pieces : NonEmpty s.2
  ahead : s.1.unparsedData ++ s.2.bytes = ahead

variable {size len : Nat} {ahead : Bytes} {s : StreamReader × Incoming}

theorem Stands.hasRoom (h : Stands size ahead s) (space : s.1.unparsedData.length < size) :
    HasRoom s.1 := by
  have length := s.1.resetBufOffset.length_unparsedData
  rw [unparsedData_reset, startOffset_reset] at length
  have size_ := h.size
  refine ⟨not_isCacheFull (by omega), ?_⟩
  rw [length_reset]
  omega

/-- A read for more than is buffered: more is buffered, or there is an error and
the buffer is as it was. -/
theorem read_does (fits : len ≤ size) (h : Stands size ahead s)
    (missing : s.1.unparsedData.length < len) :
    (∃ t, read s = (.ok (), t) ∧ Stands size ahead t ∧ Left s.2 t.2 ∧
      s.1.unparsedData.length < t.1.unparsedData.length) ∨
    ∃ e t, read s = (.error e, t) ∧ Stands size ahead t ∧ Explains len s.2 e t := by
  obtain ⟨notFull, room⟩ := h.hasRoom (by omega)
  obtain ⟨r, src⟩ := s
  have does := readUninterrupted_does room h.pieces
  have size_ : r.resetBufOffset.buf.length = size := by rw [length_reset, h.size]
  have short : r.resetBufOffset.unparsedData.length < len := by
    rw [unparsedData_reset]
    exact missing
  simp only [read, notFull, Bool.false_eq_true, if_false]
  generalize src.readUninterrupted _ = result at does ⊢
  cases does with
  | @ended filled none_ failures nothing =>
      refine .inr ⟨eofError, (r.resetBufOffset, []), ?_, ⟨size_, ?_, ?_⟩,
        short, .inl ⟨rfl, rfl, failures⟩⟩
      · simp [nothing]
      · intro bytes mem
        cases mem
      · rw [unparsedData_reset, ← h.ahead, none_]
        rfl
  | @piece filled rest nonempty same left =>
      have grows : filled.1.length ≠ 0 :=
        fun none_ => nonempty (List.eq_nil_of_length_eq_zero none_)
      refine .inl ⟨(r.resetBufOffset.store filled, rest), ?_, ⟨?_, left.pieces, ?_⟩, left, ?_⟩
      · simp only [if_neg grows]
      · rw [length_store, size_]
      · rw [unparsedData_store, unparsedData_reset, List.append_assoc, same, h.ahead]
      · rw [unparsedData_store, unparsedData_reset, List.length_append]
        omega
  | @failed e rest next same pieces =>
      refine .inr ⟨e, (r.resetBufOffset, rest), rfl, ⟨size_, pieces, ?_⟩, short, .inr next⟩
      rw [unparsedData_reset, same, h.ahead]

theorem fill_does (fits : len ≤ size) (turns : Nat) (h : Stands size ahead s)
    (few : len ≤ s.1.unparsedData.length + turns) :
    (∃ t, fill len turns s = (.ok (), t) ∧ Stands size ahead t ∧ len ≤ t.1.unparsedData.length ∧
      Incoming.failures t.2 = Incoming.failures s.2) ∨
    ∃ e t, fill len turns s = (.error e, t) ∧ Stands size ahead t ∧ Explains len s.2 e t := by
  induction turns generalizing s with
  | zero => exact .inl ⟨s, rfl, h, few, rfl⟩
  | succ turns ih =>
      have length := s.1.length_unparsedData
      by_cases missing : s.1.endOffset - s.1.startOffset < len
      · rw [fill_missing turns missing]
        obtain ⟨m, ran, between, left, grows⟩ | ⟨e, t, ran, reached, why⟩ :=
          read_does fits h (by omega)
        · rw [Fallible.bind_of_ok ran]
          -- the errors that are still to come are those of before the read
          unfold Explains at ih ⊢
          rw [← left.failures]
          exact ih between (by omega)
        · exact .inr ⟨e, t, Fallible.bind_of_error ran, reached, why⟩
      · exact .inl ⟨s, fill_enough turns (by omega), h, by omega, rfl⟩

/-- No turn finds the buffer full. -/
theorem reads_hasRoom (fits : len ≤ size) (turns : Nat) (h : Stands size ahead s) :
    ∀ r ∈ reads len turns s, HasRoom r := by
  induction turns generalizing s with
  | zero => exact fun _ mem => absurd mem List.not_mem_nil
  | succ turns ih =>
      have length := s.1.length_unparsedData
      intro r mem
      rw [reads] at mem
      split at mem
      · rename_i missing
        rcases List.mem_cons.mp mem with rfl | later
        · exact h.hasRoom (by omega)
        · obtain ⟨m, ran, between, -, -⟩ | ⟨e, t, ran, -⟩ := read_does fits h (by omega)
          · rw [ran] at later
            exact ih between r later
          · rw [ran] at later
            exact absurd later List.not_mem_nil
      · exact absurd mem List.not_mem_nil

/-! ## The calls -/

/-- A call's outcome: the bytes ahead of it are looked at and consumed, or they
stay ahead and the stream is the cause. -/
def Outcome (size : Nat) (ahead : Bytes) (call : Call) (src : Incoming) :
    IoResult Answer × StreamReader × Incoming → Prop
  | (.ok answer, t) => call.needs ≤ ahead.length ∧ answer = call.answer (ahead.take call.needs) ∧
      Stands size (ahead.drop call.takes) t ∧ Incoming.failures t.2 = Incoming.failures src
  | (.error e, t) => Stands size ahead t ∧ Explains call.needs src e t

theorem Stands.consume (h : Stands size ahead s) (enough : len ≤ s.1.unparsedData.length) :
    Stands size (ahead.drop len) (s.1.consume len, s.2) := by
  refine ⟨by rw [buf_consume, h.size], h.pieces, ?_⟩
  rw [← h.ahead, List.drop_append_of_le_length enough, unparsedData_consume]

theorem Stands.slice_eq (h : Stands size ahead s) (enough : len ≤ s.1.unparsedData.length) :
    s.1.slice len = ahead.take len := by
  rw [StreamReader.slice_eq enough, ← h.ahead, List.take_append_of_le_length enough]

theorem Stands.length_le (h : Stands size ahead s) (enough : len ≤ s.1.unparsedData.length) :
    len ≤ ahead.length := by
  rw [← h.ahead, List.length_append]
  omega

/-- A call that fills the buffer and then looks at what it needs. -/
theorem outcome_of_ensure {α : Type} {call : Call} {x : Reading α} {rest : Unit → Reading α}
    {f : α → Answer} (h : Stands size ahead s) (fits : call.needs ≤ size)
    (first : x s = (ensure call.needs >>= rest) s)
    (looks : ∀ t, Stands size ahead t → call.needs ≤ t.1.unparsedData.length →
      ∃ a u, rest () t = (.ok a, u) ∧ f a = call.answer (ahead.take call.needs) ∧
        Stands size (ahead.drop call.takes) u ∧ u.2 = t.2) :
    Outcome size ahead call s.2 ((x >>= fun a => pure (f a)) s) := by
  obtain ⟨t, ran, reached, enough, failures⟩ | ⟨e, t, ran, reached, why⟩ :=
    fill_does fits call.needs h (by omega)
  · obtain ⟨a, u, looked, same, after, stream⟩ := looks t reached enough
    have returned : x s = (.ok a, u) := by rw [first, ← looked]; exact Fallible.bind_of_ok ran
    rw [Fallible.bind_of_ok returned]
    exact ⟨reached.length_le enough, same, after, by rw [stream, failures]⟩
  · have raised : x s = (.error e, t) := by rw [first]; exact Fallible.bind_of_error ran
    rw [Fallible.bind_of_error raised]
    exact ⟨reached, why⟩

theorem checked {α : Type} {rest : Unit → Reading α} (fits : len ≤ s.1.buf.length) :
    (checkLength len >>= rest) s = rest () s := by
  apply Fallible.bind_of_ok
  rw [checkLength, if_neg (by omega)]

/-- An allowed call needs no more than the buffer can hold. -/
theorem Stands.needs_le {call : Call} (h : Stands size ahead s) (two : 2 ≤ size)
    (allowed : call.allowed s.1 = true) : call.needs ≤ size := by
  have size_ := h.size
  cases call with
  | readU8 => exact Nat.le_of_succ_le two
  | readU16Be => exact two
  | peekSlice len | readSlice len => exact size_ ▸ of_decide_eq_true allowed
  | consume len =>
      have enough : len ≤ s.1.unparsedData.length := of_decide_eq_true allowed
      have inside := s.1.inside
      rw [length_unparsedData] at enough
      show len ≤ size
      omega

theorem call_does {call : Call} (two : 2 ≤ size) (h : Stands size ahead s)
    (allowed : call.allowed s.1 = true) : Outcome size ahead call s.2 (call.run s) := by
  have fits := h.needs_le two allowed
  cases call with
  | readU8 | readU16Be =>
      apply outcome_of_ensure h fits rfl
      intro t reached enough
      exact ⟨_, _, rfl, by rw [← reached.slice_eq enough]; rfl, reached.consume enough, rfl⟩
  | peekSlice len =>
      apply outcome_of_ensure h fits (checked (of_decide_eq_true allowed))
      intro t reached enough
      exact ⟨_, _, rfl, by rw [← reached.slice_eq enough]; rfl, reached, rfl⟩
  | readSlice len =>
      apply outcome_of_ensure h fits (checked (of_decide_eq_true allowed))
      intro t reached enough
      exact ⟨_, _, rfl, by rw [← reached.slice_eq enough]; rfl, reached.consume enough, rfl⟩
  | consume len =>
      have enough : len ≤ s.1.unparsedData.length := of_decide_eq_true allowed
      exact ⟨h.length_le enough, rfl, h.consume enough, rfl⟩

/-! ## Sequences of calls -/

/-- The cursor that a session's calls have moved, by what is ahead of it. -/
structure Session.At (size : Nat) (bytes : Bytes) (position : Nat) (s : Session) : Prop where
  moves : Moves bytes s.log position
  inside : position ≤ bytes.length
  stands : Stands size (bytes.drop position) (s.reader, s.stream)

namespace Session

variable {bytes : Bytes} {position : Nat} {s t : Session} {call : Call}

theorem At.isCursor (h : s.At size bytes position) : IsCursor bytes s := by
  refine ⟨position, bytes.take position ++ s.reader.unparsedData, h.moves, ?_, ?_, ?_⟩
  · rw [List.append_assoc, h.stands.ahead, List.take_append_drop]
  · have := h.inside
    rw [List.length_append, List.length_take]
    omega
  · have length : (bytes.take position).length = position := List.length_take_of_le h.inside
    rw [List.drop_left' length]

theorem At.step (two : 2 ≤ size) (h : s.At size bytes position) (taken : s.step call = some t) :
    ∃ position, t.At size bytes position := by
  unfold Session.step at taken
  split at taken
  · rename_i allowed
    have outcome := call_does two h.stands allowed
    generalize call.run (s.reader, s.stream) = result at outcome taken
    obtain ⟨answer, reader, stream⟩ := result
    obtain rfl := Option.some.inj taken
    cases answer with
    | ok answer =>
        obtain ⟨enough, rfl, stands, -⟩ := outcome
        have inside := h.inside
        rw [List.length_drop] at enough
        rw [List.drop_drop] at stands
        refine ⟨position + call.takes, h.moves.returned call (by omega), ?_, stands⟩
        have takes : call.takes ≤ call.needs := by cases call <;> simp [Call.takes, Call.needs]
        omega
    | error e => exact ⟨position, h.moves.failed call e, h.inside, outcome.1⟩
  · cases taken

theorem At.callsWell (two : 2 ≤ size) (h : s.At size bytes position)
    (taken : s.step call = some t) : CallsWell s call := by
  unfold Session.step at taken
  split at taken
  · rename_i allowed
    have outcome := call_does two h.stands allowed
    refine ⟨reads_hasRoom (h.stands.needs_le two allowed) _ h.stands, fun e t failed => ?_,
      fun answer t returned => ?_⟩
    · rw [failed] at outcome
      exact outcome.2
    · rw [returned] at outcome
      exact outcome.2.2.2
  · cases taken

end Session

/-- For every size of the buffer, every stream and every sequence of calls, the
reader is a cursor over the bytes of the stream in every state, every read has
room and every error is the stream's. -/
theorem reader_is_cursor (memory : Nat → UInt8) {size : Nat} (two : 2 ≤ size) {stream : Incoming}
    (pieces : ∀ bytes, .ok bytes ∈ stream → bytes ≠ []) (calls : List Call) :
    Transition.Always Session.step (IsCursor stream.bytes) (.start memory size stream) calls ∧
      Transition.Along Session.step CallsWell (.start memory size stream) calls := by
  have start : (Session.start memory size stream).At size stream.bytes 0 :=
    ⟨.start, Nat.zero_le _, by simp [Session.start, newWithBufferSize], pieces, by
      simp [Session.start, newWithBufferSize, unparsedData]⟩
  constructor
  · apply Transition.always_of_invariant (I := fun s => ∃ p, s.At size stream.bytes p)
    · rintro s ⟨p, h⟩
      exact h.isCursor
    · rintro s call t ⟨p, h⟩ taken
      exact h.step two taken
    · exact ⟨0, start⟩
  · apply Transition.along_of_along (I := fun s => ∃ p, s.At size stream.bytes p)
      (P := fun _ _ => True)
    · rintro s call t ⟨p, h⟩ _ taken
      exact h.callsWell two taken
    · rintro s call t ⟨p, h⟩ _ taken
      exact h.step two taken
    · exact ⟨0, start⟩
    · exact Transition.along_of_forall (fun _ _ => trivial) _ _

/-- A buffer of two bytes over a stream in three pieces with an interruption. The
slice of two finds one byte before the end, which the last call still reads. -/
theorem small_buffer_is_cursor :
    let stream : Incoming := [.ok [1], .error ⟨.interrupted, "signal"⟩, .ok [2, 3], .ok [4]]
    let calls : List Call := [.peekSlice 2, .readU8, .readU16Be, .readSlice 2, .readU8]
    (2 ≤ 2 ∧ ∀ bytes, .ok bytes ∈ stream → bytes ≠ []) ∧
      Transition.Always Session.step (IsCursor stream.bytes) (.start (fun _ => 0) 2 stream) calls ∧
      Transition.Along Session.step CallsWell (.start (fun _ => 0) 2 stream) calls := by
  intro stream calls
  have pieces : ∀ bytes, .ok bytes ∈ stream → bytes ≠ [] := by
    intro bytes mem
    simp only [stream, List.mem_cons, Except.ok.injEq, reduceCtorEq, List.not_mem_nil, false_or,
      or_false] at mem
    rcases mem with rfl | rfl | rfl <;> decide
  exact ⟨⟨Nat.le_refl 2, pieces⟩, reader_is_cursor (fun _ => 0) (Nat.le_refl 2) pieces calls⟩

end RustProxy.StreamReader
