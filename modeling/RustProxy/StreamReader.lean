import RustProxy.AsyncStream
import RustProxy.Base.BigEndian
import RustProxy.Base.Fallible
import RustProxy.Base.Ring

/-!
# The buffered reader

`stream_reader.rs`: a buffer of fixed size that slides over a stream. Bytes
between the two offsets have been read and not yet been parsed; a read moves
them to the front and fills in behind them.

What is ahead of a reader is what it has buffered followed by what the stream
still has. `Holds` says so, and every operation is specified by what it takes
off the bytes ahead, so a caller sees neither the offsets nor how the stream was
cut into reads.
-/

namespace RustProxy

open BigEndian

/-! ## Streams as their reads -/

/-- What a stream has for its reader: what arrives in one piece, or an error. The
stream ends at the end of the list. -/
abbrev Incoming := List (IoResult Bytes)

/-- The bytes that fill a slice. -/
abbrev Filled (room : Nat) := { bytes : Bytes // bytes.length ≤ room }

namespace Incoming

/-- The bytes that are still to come. -/
def bytes (src : Incoming) : Bytes :=
  src.flatMap fun
    | .ok piece => piece
    | .error _ => []

/-- `read` into a slice of `room` bytes. -/
def read (room : Nat) : Incoming → IoResult (Filled room) × Incoming
  | [] => (.ok ⟨[], Nat.zero_le room⟩, [])
  | .ok piece :: src =>
      if fits : piece.length ≤ room then (.ok ⟨piece, fits⟩, src)
      else (.ok ⟨piece.take room, List.length_take_le room piece⟩, .ok (piece.drop room) :: src)
  | .error e :: src => (.error e, src)

/-- `read`, repeated when it is interrupted. -/
def readUninterrupted (room : Nat) : Incoming → IoResult (Filled room) × Incoming
  | .error e :: src =>
      if e.kind = .interrupted then readUninterrupted room src else (.error e, src)
  | src => src.read room

end Incoming

/-! ## The reader -/

structure StreamReader where
  buf : Bytes
  startOffset : Nat
  endOffset : Nat
  bounds : startOffset ≤ endOffset ∧ endOffset ≤ buf.length

namespace StreamReader

theorem ordered (r : StreamReader) : r.startOffset ≤ r.endOffset := r.bounds.1

theorem inside (r : StreamReader) : r.endOffset ≤ r.buf.length := r.bounds.2

def DEFAULT_BUFFER_SIZE : Nat := 32768

/-- `allocate_vec` leaves in the buffer whatever the memory has. -/
def newWithBufferSize (memory : Nat → UInt8) (bufferSize : Nat) : StreamReader where
  buf := (List.range bufferSize).map memory
  startOffset := 0
  endOffset := 0
  bounds := ⟨Nat.le_refl 0, Nat.zero_le _⟩

def new (memory : Nat → UInt8) : StreamReader := newWithBufferSize memory DEFAULT_BUFFER_SIZE

def unparsedData (r : StreamReader) : Bytes :=
  (r.buf.drop r.startOffset).take (r.endOffset - r.startOffset)

def unparsedDataOwned (r : StreamReader) : Option Bytes :=
  if r.unparsedData = [] then none else some r.unparsedData

def isCacheFull (r : StreamReader) : Bool := r.startOffset = 0 ∧ r.endOffset = r.buf.length

@[simp, grind =] theorem length_unparsedData (r : StreamReader) :
    r.unparsedData.length = r.endOffset - r.startOffset := by
  have := r.inside
  simp [unparsedData]
  omega

def resetBufOffset (r : StreamReader) : StreamReader :=
  if r.startOffset = 0 then r
  else
    { buf := Ring.overwrite r.buf 0 r.unparsedData
      startOffset := 0
      endOffset := r.endOffset - r.startOffset
      bounds := by
        have := r.inside
        rw [Ring.length_overwrite (by rw [length_unparsedData]; omega)]
        omega }

/-- What a read filled in stands behind what was there. -/
def store (r : StreamReader) (filled : Filled (r.buf.length - r.endOffset)) : StreamReader where
  buf := Ring.overwrite r.buf r.endOffset filled.1
  startOffset := r.startOffset
  endOffset := r.endOffset + filled.1.length
  bounds := by
    have := filled.2
    have := r.bounds
    rw [Ring.length_overwrite (by omega)]
    omega

/-- `consume`, and how the reads move on. It is an assertion of the code that no
more than what is buffered is consumed. -/
def consume (r : StreamReader) (len : Nat) : StreamReader :=
  if more : r.startOffset + len < r.endOffset then
    { r with startOffset := r.startOffset + len, bounds := ⟨Nat.le_of_lt more, r.inside⟩ }
  else
    { r with
      startOffset := 0
      endOffset := 0
      bounds := ⟨Nat.le_refl 0, Nat.zero_le _⟩ }

/-- A computation on a reader and the stream it reads from. -/
abbrev Reading := Fallible (StreamReader × Incoming) IoError

def eofError : IoError := ⟨.connectionAborted, "EOF while reading"⟩

def read : Reading Unit := fun (r, src) =>
  if r.isCacheFull then (.error ⟨.connectionAborted, "cache is full"⟩, r, src)
  else
    let r := r.resetBufOffset
    match src.readUninterrupted (r.buf.length - r.endOffset) with
    | (.ok filled, src) =>
        if filled.1.length = 0 then (.error eofError, r, src) else (.ok (), r.store filled, src)
    | (.error e, src) => (.error e, r, src)

/-- The loop that reads until `len` bytes are buffered, for a number of turns. -/
def fill (len : Nat) : Nat → Reading Unit
  | 0 => pure ()
  | turns + 1 => fun s =>
      if s.1.endOffset - s.1.startOffset < len then (read >>= fun _ => fill len turns) s
      else (.ok (), s)

/-- Every turn reads a byte at least, so `len` turns are as good as no bound. -/
def ensure (len : Nat) : Reading Unit := fill len len

/-- The next `len` bytes of the buffer. -/
def slice (r : StreamReader) (len : Nat) : Bytes := (r.buf.drop r.startOffset).take len

/-- Take the next `len` bytes off the buffer. -/
def takeSlice (len : Nat) : Reading Bytes := do
  let bytes ← Fallible.gets fun s => s.1.slice len
  Fallible.modify fun s => (s.1.consume len, s.2)
  pure bytes

def tooLongError (len size : Nat) : IoError :=
  ⟨.invalidInput, s!"Requested length {len} exceeds buffer size {size}"⟩

/-- A request for more than the buffer can hold is refused. -/
def checkLength (len : Nat) : Reading Unit := fun s =>
  if s.1.buf.length < len then (.error (tooLongError len s.1.buf.length), s) else (.ok (), s)

def readU8 : Reading UInt8 := do
  ensure 1
  let bytes ← takeSlice 1
  pure (bytes.headD 0)

def readU16Be : Reading Nat := do
  ensure 2
  let bytes ← takeSlice 2
  pure (ofBe bytes)

def peekSlice (len : Nat) : Reading Bytes := do
  checkLength len
  ensure len
  Fallible.gets fun s => s.1.slice len

def readSlice (len : Nat) : Reading Bytes := do
  checkLength len
  ensure len
  takeSlice len

/-! ## The bytes ahead -/

/-- A reader with a buffer of `size` bytes, on a stream that is cut into
non-empty reads, has `ahead` before it. -/
structure Holds (size : Nat) (ahead : Bytes) (s : StreamReader × Incoming) : Prop where
  size : s.1.buf.length = size
  pieces : ∀ piece ∈ s.2, ∃ bytes, piece = .ok bytes ∧ bytes ≠ []
  ahead : s.1.unparsedData ++ s.2.bytes = ahead

variable {size len : Nat} {ahead bytes more : Bytes} {r : StreamReader} {src : Incoming}
  {s : StreamReader × Incoming}

@[simp] theorem bytes_map_ok (pieces : List Bytes) :
    Incoming.bytes (pieces.map .ok) = pieces.flatten := by
  induction pieces with
  | nil => rfl
  | cons piece pieces ih =>
      rw [List.map_cons, List.flatten_cons, ← ih]
      rfl

theorem holds_new (memory : Nat → UInt8) (size : Nat) {pieces : List Bytes}
    (some_ : ∀ piece ∈ pieces, piece ≠ []) :
    Holds size pieces.flatten (newWithBufferSize memory size, pieces.map .ok) where
  size := by simp [newWithBufferSize]
  pieces := by
    intro piece mem
    obtain ⟨bytes, own, rfl⟩ := List.mem_map.mp mem
    exact ⟨bytes, rfl, some_ bytes own⟩
  ahead := by
    rw [bytes_map_ok]
    rfl

@[simp, grind =] theorem unparsedData_reset (r : StreamReader) :
    r.resetBufOffset.unparsedData = r.unparsedData := by
  unfold resetBufOffset
  split
  · rfl
  · have length := r.length_unparsedData
    have moved : (Ring.overwrite r.buf 0 r.unparsedData).take (0 + r.unparsedData.length) =
        r.buf.take 0 ++ r.unparsedData := Ring.take_overwrite (Nat.zero_le _)
    rw [length, Nat.zero_add, List.take_zero, List.nil_append] at moved
    exact moved

@[simp, grind =] theorem length_reset (r : StreamReader) :
    r.resetBufOffset.buf.length = r.buf.length := by
  unfold resetBufOffset
  split
  · rfl
  · have := r.inside
    exact Ring.length_overwrite (by rw [length_unparsedData]; omega)

@[simp] theorem startOffset_reset (r : StreamReader) : r.resetBufOffset.startOffset = 0 := by
  unfold resetBufOffset
  split
  · assumption
  · rfl

@[simp, grind =] theorem unparsedData_store (r : StreamReader)
    (filled : Filled (r.buf.length - r.endOffset)) :
    (r.store filled).unparsedData = r.unparsedData ++ filled.1 := by
  have inside := r.inside
  have ordered := r.ordered
  have fits := filled.2
  have written : (Ring.overwrite r.buf r.endOffset filled.1).take (r.endOffset + filled.1.length) =
      r.buf.take r.endOffset ++ filled.1 := Ring.take_overwrite inside
  show ((Ring.overwrite r.buf r.endOffset filled.1).drop r.startOffset).take
    (r.endOffset + filled.1.length - r.startOffset) = _
  rw [← List.drop_take, written, List.drop_append_of_le_length (by simp; omega), unparsedData,
    List.drop_take]

@[simp, grind =] theorem length_store (r : StreamReader)
    (filled : Filled (r.buf.length - r.endOffset)) :
    (r.store filled).buf.length = r.buf.length := by
  have := r.inside
  have := filled.2
  exact Ring.length_overwrite (by omega)

@[simp, grind =] theorem buf_consume (r : StreamReader) (len : Nat) :
    (r.consume len).buf = r.buf := by
  unfold consume
  split <;> rfl

@[simp, grind =] theorem unparsedData_consume (r : StreamReader) (len : Nat) :
    (r.consume len).unparsedData = r.unparsedData.drop len := by
  unfold consume
  split
  · show (r.buf.drop (r.startOffset + len)).take (r.endOffset - (r.startOffset + len)) = _
    rw [unparsedData, List.drop_take, List.drop_drop, Nat.sub_sub]
  · rename_i all
    rw [List.drop_eq_nil_of_le (by rw [length_unparsedData]; omega)]
    simp [unparsedData]

/-- A slice of what is buffered. -/
theorem slice_eq (enough : len ≤ r.unparsedData.length) :
    r.slice len = r.unparsedData.take len := by
  rw [length_unparsedData] at enough
  rw [slice, unparsedData, List.take_take, Nat.min_eq_left enough]

theorem not_isCacheFull (space : r.unparsedData.length < r.buf.length) : r.isCacheFull = false := by
  rw [length_unparsedData] at space
  by_contra full
  simp only [isCacheFull, decide_eq_false_iff_not, not_not] at full
  omega

/-- Reading a non-empty piece into a slice with room takes bytes off it. -/
theorem read_piece (src : Incoming) {room : Nat} {piece : Bytes} (space : 0 < room)
    (some_ : piece ≠ []) :
    ∃ (filled : Filled room) (rest : Incoming),
      Incoming.readUninterrupted room (.ok piece :: src) = (.ok filled, rest) ∧ filled.1 ≠ [] ∧
        filled.1 ++ rest.bytes = piece ++ src.bytes ∧
        ∀ other ∈ rest, other ∈ src ∨ ∃ bytes, other = .ok bytes ∧ bytes ≠ [] := by
  by_cases fits : piece.length ≤ room
  · refine ⟨⟨piece, fits⟩, src, ?_, some_, rfl, fun other mem => .inl mem⟩
    simp [Incoming.readUninterrupted, Incoming.read, fits]
  · refine ⟨⟨piece.take room, List.length_take_le room piece⟩, .ok (piece.drop room) :: src,
      ?_, ?_, ?_, ?_⟩
    · simp [Incoming.readUninterrupted, Incoming.read, fits]
    · show piece.take room ≠ []
      rw [Ne, List.take_eq_nil_iff]
      simp [some_, Nat.ne_of_gt space]
    · show piece.take room ++ (piece.drop room ++ src.bytes) = piece ++ src.bytes
      rw [← List.append_assoc, List.take_append_drop]
    · intro other mem
      rcases List.mem_cons.mp mem with rfl | mem
      · refine .inr ⟨piece.drop room, rfl, ?_⟩
        rw [Ne, List.drop_eq_nil_iff]
        omega
      · exact .inl mem

/-- A reader that can hold more and has more ahead than it holds reads some of it. -/
theorem read_some (h : Holds size ahead s) (space : s.1.unparsedData.length < size)
    (comes : s.1.unparsedData.length < ahead.length) :
    ∃ t, read s = (.ok (), t) ∧ Holds size ahead t ∧
      s.1.unparsedData.length < t.1.unparsedData.length := by
  obtain ⟨r, src⟩ := s
  obtain ⟨size_, pieces, ahead_⟩ := h
  dsimp only at size_ pieces ahead_ space comes ⊢
  have notFull := not_isCacheFull (r := r) (by omega)
  cases src with
  | nil =>
      rw [← ahead_] at comes
      simp [Incoming.bytes] at comes
  | cons first src =>
      obtain ⟨piece, rfl, some_⟩ := pieces first List.mem_cons_self
      have room : 0 < r.resetBufOffset.buf.length - r.resetBufOffset.endOffset := by
        have length := r.resetBufOffset.length_unparsedData
        rw [unparsedData_reset, startOffset_reset] at length
        rw [length_reset]
        omega
      obtain ⟨filled, rest, got, nonempty, same, others⟩ := read_piece src room some_
      have grows : filled.1.length ≠ 0 :=
        fun none_ => nonempty (List.eq_nil_of_length_eq_zero none_)
      refine ⟨(r.resetBufOffset.store filled, rest), ?_, ⟨?_, ?_, ?_⟩, ?_⟩
      · simp only [read, notFull, Bool.false_eq_true, if_false, got, if_neg grows]
      · rw [length_store, length_reset, size_]
      · intro other mem
        rcases others other mem with before | some_
        · exact pieces other (List.mem_cons_of_mem _ before)
        · exact some_
      · rw [unparsedData_store, unparsedData_reset, List.append_assoc, same, ← ahead_]
        rfl
      · rw [unparsedData_store, unparsedData_reset, List.length_append]
        omega

/-- A reader that holds all that is ahead reads the end of the stream. -/
theorem read_eof (h : Holds size ahead s) (space : s.1.unparsedData.length < size)
    (all : s.1.unparsedData.length = ahead.length) :
    ∃ t, read s = (.error eofError, t) ∧ Holds size ahead t := by
  obtain ⟨r, src⟩ := s
  obtain ⟨size_, pieces, ahead_⟩ := h
  dsimp only at size_ pieces ahead_ space all ⊢
  have notFull := not_isCacheFull (r := r) (by omega)
  have none_ : src = [] := by
    cases src with
    | nil => rfl
    | cons first src =>
        obtain ⟨piece, rfl, some_⟩ := pieces first List.mem_cons_self
        have := List.length_pos_of_ne_nil some_
        rw [← ahead_, List.length_append, Incoming.bytes, List.flatMap_cons, List.length_append]
          at all
        dsimp only at all
        omega
  subst none_
  refine ⟨(r.resetBufOffset, []), ?_, ?_, pieces, ?_⟩
  · simp [read, notFull, Incoming.readUninterrupted, Incoming.read]
  · rw [length_reset, size_]
  · rw [unparsedData_reset, ahead_]

theorem fill_missing (turns : Nat) (missing : s.1.endOffset - s.1.startOffset < len) :
    fill len (turns + 1) s = (read >>= fun _ => fill len turns) s := by
  show (if s.1.endOffset - s.1.startOffset < len then _ else _) = _
  rw [if_pos missing]

theorem fill_enough (turns : Nat) (enough : len ≤ s.1.endOffset - s.1.startOffset) :
    fill len (turns + 1) s = (.ok (), s) := by
  show (if s.1.endOffset - s.1.startOffset < len then _ else _) = _
  rw [if_neg (by omega)]

/-- As many turns as bytes are missing are enough. -/
theorem fill_some (fits : len ≤ size) (enough : len ≤ ahead.length) (turns : Nat)
    (h : Holds size ahead s) (few : len ≤ s.1.unparsedData.length + turns) :
    ∃ t, fill len turns s = (.ok (), t) ∧ Holds size ahead t ∧ len ≤ t.1.unparsedData.length := by
  induction turns generalizing s with
  | zero => exact ⟨s, rfl, h, few⟩
  | succ turns ih =>
      have length := s.1.length_unparsedData
      by_cases missing : s.1.endOffset - s.1.startOffset < len
      · obtain ⟨m, ran, between, grows⟩ := read_some h (by omega) (by omega)
        obtain ⟨t, rest, reached, all⟩ := ih between (by omega)
        refine ⟨t, ?_, reached, all⟩
        rw [fill_missing turns missing, Fallible.bind_of_ok ran, rest]
      · exact ⟨s, fill_enough turns (by omega), h, by omega⟩

theorem fill_eof (fits : len ≤ size) (short : ahead.length < len) (turns : Nat)
    (h : Holds size ahead s) (few : len ≤ s.1.unparsedData.length + turns) :
    ∃ t, fill len turns s = (.error eofError, t) ∧ Holds size ahead t := by
  have held : s.1.unparsedData.length ≤ ahead.length := by
    rw [← h.ahead, List.length_append]
    omega
  induction turns generalizing s with
  | zero => omega
  | succ turns ih =>
      have length := s.1.length_unparsedData
      rw [fill_missing turns (by omega)]
      by_cases all : s.1.unparsedData.length = ahead.length
      · obtain ⟨t, ran, reached⟩ := read_eof h (by omega) all
        exact ⟨t, Fallible.bind_of_error ran, reached⟩
      · obtain ⟨m, ran, between, grows⟩ := read_some h (by omega) (by omega)
        rw [Fallible.bind_of_ok ran]
        refine ih between (by omega) ?_
        rw [← between.ahead, List.length_append]
        omega

/-! ## What the operations take -/

/-- A state in which the next `len` bytes are buffered. -/
def Buffered (size : Nat) (ahead : Bytes) (len : Nat) (s : StreamReader × Incoming) : Prop :=
  Holds size ahead s ∧ len ≤ s.1.unparsedData.length

theorem Buffered.slice_eq (h : Buffered size ahead len s) : s.1.slice len = ahead.take len := by
  obtain ⟨holds, enough⟩ := h
  have first := congrArg (List.take len) holds.ahead
  rw [List.take_append_of_le_length enough] at first
  rw [StreamReader.slice_eq enough, first]

theorem Buffered.consume (h : Buffered size ahead len s) :
    Holds size (ahead.drop len) (s.1.consume len, s.2) := by
  obtain ⟨⟨size_, pieces, ahead_⟩, enough⟩ := h
  refine ⟨by rw [buf_consume, size_], pieces, ?_⟩
  have rest := congrArg (List.drop len) ahead_
  rwa [List.drop_append_of_le_length enough, ← unparsedData_consume] at rest

theorem ensure_returns (fits : len ≤ size) (enough : len ≤ ahead.length) :
    (ensure len).Returns (Holds size ahead) () (Buffered size ahead len) := by
  intro s h
  obtain ⟨t, ran, reached, all⟩ := fill_some fits enough len h (by omega)
  exact ⟨t, ran, reached, all⟩

theorem ensure_raises (fits : len ≤ size) (short : ahead.length < len) :
    (ensure len).Raises (Holds size ahead) eofError (Holds size ahead) := by
  intro s h
  exact fill_eof fits short len h (by omega)

theorem checkLength_returns (fits : len ≤ size) :
    (checkLength len).Returns (Holds size ahead) () (Holds size ahead) := by
  intro s h
  refine ⟨s, ?_, h⟩
  rw [checkLength, h.size, if_neg (by omega)]

theorem consume_returns :
    (Fallible.modify fun s => (s.1.consume len, s.2) : Reading Unit).Returns
      (Buffered size ahead len) () (Holds size (ahead.drop len)) :=
  Fallible.returns_modify fun _ h => h.consume

theorem takeSlice_returns (size len : Nat) (ahead : Bytes) :
    (takeSlice len).Returns (Buffered size ahead len) (ahead.take len)
      (Holds size (ahead.drop len)) := by
  intro s h
  refine ⟨(s.1.consume len, s.2), ?_, h.consume⟩
  show (Except.ok (s.1.slice len), _) = _
  rw [h.slice_eq]

theorem readU8_returns {byte : UInt8} (room : 1 ≤ size) :
    readU8.Returns (Holds size (byte :: more)) byte (Holds size more) := by
  refine (ensure_returns room (by simp)).bind ?_
  exact (takeSlice_returns _ _ _).bind (Fallible.returns_pure _ _)

theorem readU16Be_returns (two : bytes.length = 2) (room : 2 ≤ size) :
    readU16Be.Returns (Holds size (bytes ++ more)) (ofBe bytes) (Holds size more) := by
  refine (ensure_returns room (by rw [List.length_append]; omega)).bind ?_
  have taken := takeSlice_returns size 2 (bytes ++ more)
  rw [List.take_left' two, List.drop_left' two] at taken
  exact taken.bind (Fallible.returns_pure _ _)

theorem readSlice_returns (length : bytes.length = len) (fits : len ≤ size) :
    (readSlice len).Returns (Holds size (bytes ++ more)) bytes (Holds size more) := by
  refine (checkLength_returns fits).bind ?_
  refine (ensure_returns fits (by rw [List.length_append]; omega)).bind ?_
  have taken := takeSlice_returns size len (bytes ++ more)
  rw [List.take_left' length, List.drop_left' length] at taken
  exact taken

theorem readU16Be_raises (room : 2 ≤ size) (short : ahead.length < 2) :
    readU16Be.Raises (Holds size ahead) eofError (Holds size ahead) :=
  (ensure_raises room short).bind

theorem readSlice_raises (fits : len ≤ size) (short : ahead.length < len) :
    (readSlice len).Raises (Holds size ahead) eofError (Holds size ahead) := by
  refine (checkLength_returns fits).bind_raises ?_
  exact (ensure_raises fits short).bind

/-- More than the buffer can hold is refused before anything is read. -/
theorem readSlice_refuses (long : size < len) :
    (readSlice len).Raises (Holds size ahead) (tooLongError len size) (Holds size ahead) := by
  have refused : (checkLength len).Raises (Holds size ahead) (tooLongError len size)
      (Holds size ahead) := by
    intro s h
    refine ⟨s, ?_, h⟩
    rw [checkLength, h.size, if_pos long]
  exact refused.bind

/-- Peeking takes nothing. -/
theorem peekSlice_returns (fits : len ≤ size) (enough : len ≤ ahead.length) :
    (peekSlice len).Returns (Holds size ahead) (ahead.take len) (Buffered size ahead len) := by
  refine (checkLength_returns fits).bind ?_
  refine (ensure_returns fits enough).bind ?_
  intro s h
  refine ⟨s, ?_, h⟩
  show (Except.ok (s.1.slice len), s) = _
  rw [h.slice_eq]

theorem peekSlice_raises (fits : len ≤ size) (short : ahead.length < len) :
    (peekSlice len).Raises (Holds size ahead) eofError (Holds size ahead) := by
  refine (checkLength_returns fits).bind_raises ?_
  exact (ensure_raises fits short).bind

end StreamReader

end RustProxy
