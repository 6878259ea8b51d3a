import RustProxy.AnyTls.Codec
import RustProxy.AnyTls.Padding

/-!
# Writing with padding

`write_with_padding` cuts the data into records of given sizes, with no regard
for where a frame ends. Padding is put in only where the data has run out: a
Waste frame fills up the last record, and every later record is a Waste frame of
its own. So what goes out is the data and then whole Waste frames
(`writeEntries_flatten`), and the peer decodes the same frames as without.
-/

namespace RustProxy.AnyTls

open BigEndian

/-- `as usize`, on a machine of 64 bits. -/
def asUsize (n : Int) : Nat := (n % 2 ^ 64).toNat

/-- The length of `ZERO_BUF`. -/
def ZERO_BUF_LEN : Nat := 1024

/-- The writes of the loop that sends zeros. -/
def writeZeros (remaining : Nat) : List Bytes :=
  if remaining = 0 then []
  else
    let chunk := min remaining ZERO_BUF_LEN
    List.replicate chunk 0 :: writeZeros (remaining - chunk)
termination_by remaining
decreasing_by
  have : 0 < ZERO_BUF_LEN := by decide
  omega

/-- The loop's body for a size that is no check mark: what is handed to
`write_all`, and the data that is left. -/
def writeEntry (size : Int) (data : Bytes) : List Bytes × Bytes :=
  let size := asUsize size
  if data.length > size then ([data.take size], data.drop size)
  else if data.length > 0 then
    let paddingLen := size - (data.length + FRAME_HEADER_SIZE)
    if paddingLen > 0 then
      ([data ++ Command.waste.toByte :: toBe 4 0 ++ toBe 2 paddingLen ++
        List.replicate paddingLen 0], [])
    else ([data], [])
  else
    let header :=
      [Command.waste.toByte, 0, 0, 0, 0, UInt8.ofNat (size / 256), UInt8.ofNat size]
    (header :: writeZeros size, [])

/-- The loop over the sizes. -/
def writeEntries : List Int → Bytes → List Bytes × Bytes
  | [], data => ([], data)
  | size :: sizes, data =>
      if size = CHECK_MARK then
        if data.length = 0 then ([], data) else writeEntries sizes data
      else
        let (written, data) := writeEntry size data
        let (more, data) := writeEntries sizes data
        (written ++ more, data)

/-- `write_with_padding`, given `generate_record_payload_sizes`: the buffers that
are handed to `write_all` one by one. -/
def writeWithPadding (recordPayloadSizes : Nat → List Int) (data : Bytes) (pkt : Nat) :
    List Bytes :=
  let pktSizes := recordPayloadSizes pkt
  if pktSizes.isEmpty then [data]
  else
    let (written, data) := writeEntries pktSizes data
    if data.isEmpty then written else written ++ [data]

/-- `FrameCodec::decode` until it has no frame: its last answer, what is left in
the buffer, and the frames. -/
def FrameCodec.decodeAll (buf : Bytes) : IoResult Unit × Bytes × List Frame :=
  let (answer, rest, _, frames) := handleFrames (handing fun _ s => (.ok (), s)) buf ((), [])
  (answer, rest, frames)

/-- The sizes that the length of a Waste frame can say, and check marks. -/
def UsableSize (size : Int) : Prop := size = CHECK_MARK ∨ 1 ≤ size ∧ size ≤ 65535

/-- A scheme whose ranges fit gives usable sizes. -/
theorem PaddingFactory.usableSize {factory : PaddingFactory} {pkt : Nat}
    (fits : RangesFit factory pkt) (draws : Nat → Draw) :
    ∀ size ∈ factory.generateRecordPayloadSizes draws pkt, UsableSize size := by
  intro size mem
  obtain ⟨⟨part, _⟩, inside, rfl⟩ := List.mem_map.mp mem
  obtain ⟨ofLine, i, given⟩ := mem_entriesFor inside
  rcases usable_of_fits given (fits part ofLine) with ⟨-, mark⟩ | ⟨-, -, -, -, positive, small, -⟩
  · exact .inl mark
  · exact .inr ⟨positive, small⟩

/-- A Waste frame of zeros. -/
def Frame.padding (n : Nat) : Frame := .withData .waste 0 (List.replicate n 0)

/-! ## One record -/

variable {size : Int} {data : Bytes}

theorem asUsize_of_pos (positive : 1 ≤ size) (fits : size ≤ 65535) : asUsize size = size.toNat := by
  rw [asUsize, Int.emod_eq_of_lt (by omega) (by omega)]

@[simp] theorem flatten_writeZeros (remaining : Nat) :
    (writeZeros remaining).flatten = List.replicate remaining 0 := by
  induction remaining using Nat.strong_induction_on with
  | _ remaining ih =>
      rw [writeZeros]
      split
      case isTrue none_ => rw [none_, List.flatten_nil, List.replicate_zero]
      case isFalse some_ =>
        have chunk : 0 < ZERO_BUF_LEN := by decide
        dsimp only
        rw [List.flatten_cons, ih _ (by omega), ← List.replicate_add]
        congr 1
        omega

/-- A Waste frame as it is put behind the data. -/
theorem encode_padding (n : Nat) :
    (Frame.padding n).encode =
      Command.waste.toByte :: toBe 4 0 ++ toBe 2 n ++ List.replicate n 0 := by
  rw [Frame.encode, Frame.padding, Frame.withData, List.length_replicate]
  rfl

/-- A Waste frame as it is sent alone. -/
theorem padding_sent (n : Nat) :
    ([Command.waste.toByte, 0, 0, 0, 0, UInt8.ofNat (n / 256), UInt8.ofNat n] ::
      writeZeros n).flatten = (Frame.padding n).encode := by
  rw [List.flatten_cons, flatten_writeZeros, encode_padding]
  simp [toBe]

/-- For each size, the data or its front is written, and whole Waste frames only
where no data is left. -/
theorem writeEntry_flatten (positive : 1 ≤ size) (fits : size ≤ 65535) (data : Bytes) :
    ∃ lengths : List Nat, (∀ n ∈ lengths, n ≤ 65535) ∧
      (writeEntry size data).1.flatten ++ (writeEntry size data).2 =
        data ++ ((lengths.map Frame.padding).map Frame.encode).flatten := by
  have inside := asUsize_of_pos positive fits
  unfold writeEntry
  dsimp only
  split
  case isTrue cut => exact ⟨[], nofun, by simp⟩
  case isFalse all =>
    split
    case isTrue some_ =>
      split
      case isTrue padded =>
        refine ⟨[asUsize size - (data.length + FRAME_HEADER_SIZE)], ?_, ?_⟩
        · intro n mem
          rw [List.mem_singleton.mp mem]
          omega
        · simp [encode_padding]
      case isFalse full => exact ⟨[], nofun, by simp⟩
    case isFalse none_ =>
      have empty : data = [] := List.eq_nil_of_length_eq_zero (by omega)
      refine ⟨[asUsize size], ?_, ?_⟩
      · intro n mem
        rw [List.mem_singleton.mp mem]
        omega
      · rw [padding_sent, empty]
        simp

/-! ## All records -/

/-- What is written and what is left over is the data, and then whole Waste
frames. -/
theorem writeEntries_flatten {sizes : List Int} (usable : ∀ size ∈ sizes, UsableSize size)
    (data : Bytes) :
    ∃ lengths : List Nat, (∀ n ∈ lengths, n ≤ 65535) ∧
      (writeEntries sizes data).1.flatten ++ (writeEntries sizes data).2 =
        data ++ ((lengths.map Frame.padding).map Frame.encode).flatten := by
  induction sizes generalizing data with
  | nil => exact ⟨[], nofun, by simp [writeEntries]⟩
  | cons size sizes ih =>
      have later : ∀ size ∈ sizes, UsableSize size := fun size mem =>
        usable size (List.mem_cons_of_mem _ mem)
      rw [writeEntries]
      rcases usable size List.mem_cons_self with mark | ⟨positive, fits⟩
      · rw [if_pos mark]
        split
        · exact ⟨[], nofun, by simp⟩
        · exact ih later data
      · have noMark : size ≠ CHECK_MARK := by
          rw [CHECK_MARK]
          omega
        obtain ⟨first, small, written⟩ := writeEntry_flatten positive fits data
        obtain ⟨lengths, smaller, more⟩ := ih later (writeEntry size data).2
        rw [if_neg noMark]
        refine ⟨first ++ lengths, ?_, ?_⟩
        · intro n mem
          rcases List.mem_append.mp mem with mem | mem
          · exact small n mem
          · exact smaller n mem
        · dsimp only
          rw [List.flatten_append, List.append_assoc, more, ← List.append_assoc, written,
            List.map_append, List.map_append, List.flatten_append, List.append_assoc]

/-- Everything that is written is the data and whole Waste frames. -/
theorem writeWithPadding_flatten {recordPayloadSizes : Nat → List Int} {pkt : Nat}
    (usable : ∀ size ∈ recordPayloadSizes pkt, UsableSize size) (data : Bytes) :
    ∃ lengths : List Nat, (∀ n ∈ lengths, n ≤ 65535) ∧
      (writeWithPadding recordPayloadSizes data pkt).flatten =
        data ++ ((lengths.map Frame.padding).map Frame.encode).flatten := by
  unfold writeWithPadding
  dsimp only
  split
  · exact ⟨[], nofun, by simp⟩
  · obtain ⟨lengths, small, written⟩ := writeEntries_flatten usable data
    refine ⟨lengths, small, ?_⟩
    rw [← written]
    split
    case isTrue none_ => rw [List.isEmpty_iff.mp none_, List.append_nil]
    case isFalse => rw [List.flatten_append, List.flatten_singleton]

/-- Encodings are decoded as their frames, with nothing left over. -/
theorem FrameCodec.decodeAll_encoded {frames : List Frame}
    (fits : ∀ frame ∈ frames, frame.data.length ≤ 65535) :
    decodeAll (frames.map Frame.encode).flatten = (.ok (), [], frames) := by
  have empty : decode [] = (.ok none, []) := rfl
  have handled := handleFrames_encoded (.of_ok (fun _ (_ : Unit) => rfl) frames ()) fits empty []
  rw [List.append_nil] at handled
  rw [decodeAll, handled]
  rfl

end RustProxy.AnyTls
