import RustProxy.Base.Slice
import RustProxy.Hysteria2.TcpRequest

/-!
# The header of a datagram

How `run_udp_local_to_remote_loop` of `hysteria2.rs` takes a datagram apart. A
header has twelve bytes at least: session, packet, fragment and fragment count,
then the length of an address as a varint, then the address. What is malformed
is ignored, and the loop waits for the next datagram.

The length of the varint is in its first byte, and the bytes that it announces
are sliced without a look at how long the datagram is. A datagram that ends
within its varint is the one malformed datagram that is not ignored.
-/

namespace RustProxy.Hysteria2

open BigEndian

/-- What a header says, and the payload behind it. -/
structure Header where
  sessionId : UInt32
  packetId : UInt16
  fragmentId : UInt8
  fragmentCount : UInt8
  remoteLocation : NetLocation
  payload : Bytes
  deriving DecidableEq

/-- The length of the address and where the address starts; `none` is a slice
out of range. -/
def addressLength (data : Bytes) : Option (Nat × Nat) := do
  let firstByte ← data[8]?
  let value := (firstByte &&& 0b00111111).toNat
  let numBytes := numBytes (firstByte >>> 6)
  if 1 < numBytes then
    let remaining ← data.slice 9 (9 + (numBytes - 1))
    return (remaining.foldl (fun value byte => value <<< 8 ||| byte.toNat) value,
      9 + (numBytes - 1))
  else return (value, 9)

/-- The location that an address names, if it names one. -/
def locationOf (addressBytes : Bytes) : Option NetLocation :=
  match fromUtf8 addressBytes with
  | .error _ => none
  | .ok addrStr =>
      match NetLocation.fromStr addrStr none with
      | .error _ => none
      | .ok remoteLocation => some remoteLocation

/-- The header of a datagram. The outer `none` is a slice out of range, the
inner one a datagram that is ignored. -/
def parseHeader (data : Bytes) : Option (Option Header) :=
  if data.length < 9 then return none
  else do
    let sessionId ← data.slice 0 4
    let packetId ← data.slice 4 6
    let fragmentId ← data[6]?
    let fragmentCount ← data[7]?
    let (addressLen, nextIndex) ← addressLength data
    if addressLen = 0 then return none
    else if 2048 < addressLen then return none
    else if data.length < nextIndex + addressLen then return none
    else do
      let addressBytes ← data.slice nextIndex (nextIndex + addressLen)
      let payloadFragment ← data.slice (nextIndex + addressLen) data.length
      return (locationOf addressBytes).map fun remoteLocation =>
        ⟨UInt32.ofNat (ofBe sessionId), UInt16.ofNat (ofBe packetId), fragmentId, fragmentCount,
          remoteLocation, payloadFragment⟩

/-! ## The grammar -/

/-- The bytes of a header with its payload. The varint has any width that has
room for the length of the address. -/
inductive IsHeader : Bytes → Header → Prop
  | mk {sessionId : UInt32} {packetId : UInt16} {fragmentId fragmentCount : UInt8}
      {address payload : Bytes} {addrStr : Text} {remoteLocation : NetLocation}
      (addressLen : Varint address.length) (some_ : 1 ≤ address.length)
      (most : address.length ≤ 2048) (utf8 : fromUtf8 address = .ok addrStr)
      (parses : NetLocation.fromStr addrStr none = .ok remoteLocation) :
      IsHeader (toBe 4 sessionId.toNat ++ (toBe 2 packetId.toNat ++
          (fragmentId :: fragmentCount :: (addressLen.bytes ++ (address ++ payload)))))
        ⟨sessionId, packetId, fragmentId, fragmentCount, remoteLocation, payload⟩

/-- The number that a first byte and the bytes behind it denote. -/
def varintValue (firstByte : UInt8) (remaining : Bytes) : Nat :=
  remaining.foldl (fun value byte => value <<< 8 ||| byte.toNat)
    (firstByte &&& 0b00111111).toNat

theorem first_byte_eq (firstByte : UInt8) :
    (firstByte >>> 6).toNat < 4 ∧ (firstByte &&& 0b00111111).toNat < 64 ∧
      numBytes (firstByte >>> 6) = 2 ^ (firstByte >>> 6).toNat ∧
      UInt8.ofNat (firstByte &&& 0b00111111).toNat |||
        UInt8.ofNat (64 * (firstByte >>> 6).toNat) = firstByte := by
  have all : ∀ n : Fin 256, let firstByte := UInt8.ofNat n.val
      (firstByte >>> 6).toNat < 4 ∧ (firstByte &&& 0b00111111).toNat < 64 ∧
        numBytes (firstByte >>> 6) = 2 ^ (firstByte >>> 6).toNat ∧
        UInt8.ofNat (firstByte &&& 0b00111111).toNat |||
          UInt8.ofNat (64 * (firstByte >>> 6).toNat) = firstByte := by
    decide +kernel
  have own := all ⟨firstByte.toNat, firstByte.toNat_lt⟩
  rwa [UInt8.ofNat_toNat] at own

/-- Every varint has a first byte that announces the others. -/
theorem Varint.split {value : Nat} (v : Varint value) : ∃ firstByte remaining,
    v.bytes = firstByte :: remaining ∧ remaining.length = numBytes (firstByte >>> 6) - 1 ∧
      varintValue firstByte remaining = value := by
  obtain ⟨high, below, high_, bytes⟩ := v.bytes_eq
  obtain ⟨width, low⟩ := first_byte v.width.val v.width.isLt high below
  refine ⟨_, _, bytes, ?_, ?_⟩
  · rw [length_toBe, width]
  · rw [varintValue, foldl_shift, low, length_toBe, ofBe_toBe, high_, Nat.mul_comm,
      Nat.div_add_mod]

/-- As many bytes as a first byte announces make a varint. -/
theorem exists_varint {firstByte : UInt8} {remaining : Bytes} {n : Nat}
    (announced : remaining.length = numBytes (firstByte >>> 6) - 1)
    (denotes : varintValue firstByte remaining = n) :
    ∃ v : Varint n, v.bytes = firstByte :: remaining := by
  subst denotes
  obtain ⟨small, below, width, first⟩ := first_byte_eq firstByte
  have length : 2 ^ (firstByte >>> 6).toNat - 1 = remaining.length := by rw [announced, width]
  have value : varintValue firstByte remaining =
      (firstByte &&& 0b00111111).toNat * 256 ^ remaining.length + ofBe remaining :=
    foldl_shift remaining _
  have low := ofBe_lt remaining
  let v : Varint (varintValue firstByte remaining) := ⟨⟨(firstByte >>> 6).toNat, small⟩, by
    show _ < 64 * 256 ^ (2 ^ (firstByte >>> 6).toNat - 1)
    rw [length, value]
    have := Nat.mul_le_mul_right (256 ^ remaining.length)
      (show (firstByte &&& 0b00111111).toNat ≤ 63 by omega)
    omega⟩
  refine ⟨v, ?_⟩
  obtain ⟨high, -, high_, bytes⟩ := v.bytes_eq
  have width_ : 2 ^ v.width.val - 1 = remaining.length := length
  rw [width_] at high_ bytes
  have same : high = (firstByte &&& 0b00111111).toNat := by
    rw [high_, value, Nat.add_comm, Nat.add_mul_div_right _ _ (Nat.pow_pos (by decide)),
      Nat.div_eq_of_lt low, Nat.zero_add]
  have tail : toBe remaining.length (varintValue firstByte remaining) = remaining := by
    rw [value, toBe_add_mul, toBe_ofBe]
  rw [bytes, same, tail]
  exact congrArg (· :: remaining) first

/-! ## The parser, field by field -/

/-- The bytes that a header starts with, up to the first byte of the varint. -/
def fixedFields (sessionId : UInt32) (packetId : UInt16)
    (fragmentId fragmentCount firstByte : UInt8) (rest : Bytes) : Bytes :=
  toBe 4 sessionId.toNat ++ (toBe 2 packetId.toNat ++
    (fragmentId :: fragmentCount :: firstByte :: rest))

theorem exists_fixedFields {data : Bytes} (long : 9 ≤ data.length) :
    ∃ sessionId packetId fragmentId fragmentCount firstByte rest,
      data = fixedFields sessionId packetId fragmentId fragmentCount firstByte rest := by
  match data, long with
  | s₀ :: s₁ :: s₂ :: s₃ :: p₀ :: p₁ :: fragmentId :: fragmentCount :: firstByte :: rest, _ =>
      have session : ofBe [s₀, s₁, s₂, s₃] < UInt32.size :=
        (ofBe_lt [s₀, s₁, s₂, s₃]).trans_eq (by simp [UInt32.size])
      have packet : ofBe [p₀, p₁] < UInt16.size :=
        (ofBe_lt [p₀, p₁]).trans_eq (by simp [UInt16.size])
      refine ⟨UInt32.ofNat (ofBe [s₀, s₁, s₂, s₃]), UInt16.ofNat (ofBe [p₀, p₁]), fragmentId,
        fragmentCount, firstByte, rest, ?_⟩
      rw [fixedFields, UInt32.toNat_ofNat_of_lt' session, UInt16.toNat_ofNat_of_lt' packet,
        show toBe 4 (ofBe [s₀, s₁, s₂, s₃]) = _ from toBe_ofBe [s₀, s₁, s₂, s₃],
        show toBe 2 (ofBe [p₀, p₁]) = _ from toBe_ofBe [p₀, p₁]]
      rfl

section Fields

variable {sessionId : UInt32} {packetId : UInt16} {fragmentId fragmentCount firstByte : UInt8}
  {rest : Bytes}

@[simp] theorem length_fixedFields :
    (fixedFields sessionId packetId fragmentId fragmentCount firstByte rest).length =
      9 + rest.length := by
  simp only [fixedFields, List.length_append, length_toBe, List.length_cons]
  omega

@[simp] theorem getElem?_fixedFields (i : Nat) :
    (fixedFields sessionId packetId fragmentId fragmentCount firstByte rest)[6 + i]? =
      (fragmentId :: fragmentCount :: firstByte :: rest)[i]? := by
  rw [fixedFields, ← List.append_assoc, List.getElem?_append_right (by simp [length_toBe])]
  simp [length_toBe]

/-- What comes of the bytes behind the first byte of the varint, when the varint
is there as a whole. -/
def afterFields (sessionId : UInt32) (packetId : UInt16)
    (fragmentId fragmentCount firstByte : UInt8) (rest : Bytes) : Option Header :=
  let remaining := rest.take (numBytes (firstByte >>> 6) - 1)
  let rest := rest.drop (numBytes (firstByte >>> 6) - 1)
  let addressLen := varintValue firstByte remaining
  if addressLen = 0 then none
  else if 2048 < addressLen then none
  else if rest.length < addressLen then none
  else (locationOf (rest.take addressLen)).map fun remoteLocation =>
    ⟨sessionId, packetId, fragmentId, fragmentCount, remoteLocation, rest.drop addressLen⟩

@[simp] theorem drop_fixedFields (k : Nat) :
    (fixedFields sessionId packetId fragmentId fragmentCount firstByte rest).drop (9 + k) =
      rest.drop k := by
  have apart : fixedFields sessionId packetId fragmentId fragmentCount firstByte rest =
      (toBe 4 sessionId.toNat ++
        (toBe 2 packetId.toNat ++ [fragmentId, fragmentCount, firstByte])) ++
        rest := by
    simp [fixedFields]
  rw [apart, ← List.drop_drop, List.drop_left' (by simp [length_toBe])]

theorem addressLength_fixedFields :
    addressLength (fixedFields sessionId packetId fragmentId fragmentCount firstByte rest) =
      if rest.length < numBytes (firstByte >>> 6) - 1 then none
      else some (varintValue firstByte (rest.take (numBytes (firstByte >>> 6) - 1)),
        9 + (numBytes (firstByte >>> 6) - 1)) := by
  have first : (fixedFields sessionId packetId fragmentId fragmentCount firstByte rest)[8]? =
      some firstByte := getElem?_fixedFields 2
  have behind : (fixedFields sessionId packetId fragmentId fragmentCount firstByte rest).drop 9 =
      rest := drop_fixedFields 0
  rw [addressLength, first]
  dsimp only [Option.bind_eq_bind, Option.bind_some]
  split
  case isTrue long =>
      rw [List.slice, behind, length_fixedFields, Nat.add_sub_cancel_left]
      by_cases short : rest.length < numBytes (firstByte >>> 6) - 1
      · rw [if_neg (by omega), if_pos short]
        rfl
      · rw [if_pos (by omega), if_neg short]
        rfl
  case isFalse one =>
      have none_ : numBytes (firstByte >>> 6) - 1 = 0 := by omega
      rw [none_, if_neg (Nat.not_lt_zero _), List.take_zero]
      rfl

/-- The whole parser: it panics where the varint is cut off, and only there. -/
theorem parseHeader_fixedFields :
    parseHeader (fixedFields sessionId packetId fragmentId fragmentCount firstByte rest) =
      if rest.length < numBytes (firstByte >>> 6) - 1 then none
      else some (afterFields sessionId packetId fragmentId fragmentCount firstByte rest) := by
  set data := fixedFields sessionId packetId fragmentId fragmentCount firstByte rest with data_
  have length : data.length = 9 + rest.length := length_fixedFields
  have session : data.slice 0 4 = some (toBe 4 sessionId.toNat) := by
    show ([] ++ (toBe 4 sessionId.toNat ++ _)).slice 0 4 = _
    exact List.slice_append rfl (by rw [length_toBe])
  have packet : data.slice 4 6 = some (toBe 2 packetId.toNat) :=
    List.slice_append (by rw [length_toBe]) (by rw [length_toBe])
  have fragment : data[6]? = some fragmentId := getElem?_fixedFields 0
  have count : data[7]? = some fragmentCount := getElem?_fixedFields 1
  have session_ : UInt32.ofNat (ofBe (toBe 4 sessionId.toNat)) = sessionId := by
    rw [ofBe_toBe_of_lt sessionId.toNat_lt, UInt32.ofNat_toNat]
  have packet_ : UInt16.ofNat (ofBe (toBe 2 packetId.toNat)) = packetId := by
    rw [ofBe_toBe_of_lt packetId.toNat_lt, UInt16.ofNat_toNat]
  rw [parseHeader, if_neg (by omega), session, packet, fragment, count, data_,
    addressLength_fixedFields]
  by_cases short : rest.length < numBytes (firstByte >>> 6) - 1
  · rw [if_pos short, if_pos short]
    rfl
  · rw [if_neg short, if_neg short, ← data_, afterFields]
    dsimp only [Option.bind_eq_bind, Option.bind_some]
    generalize numBytes (firstByte >>> 6) - 1 = k at short ⊢
    generalize varintValue firstByte (rest.take k) = addressLen
    have inside : data.length < 9 + k + addressLen ↔ (rest.drop k).length < addressLen := by
      rw [List.length_drop, length]
      omega
    by_cases truncated : (rest.drop k).length < addressLen
    · simp only [if_pos truncated, if_pos (inside.mpr truncated)]
      split_ifs <;> rfl
    · have fits := mt inside.mp truncated
      have address : data.slice (9 + k) (9 + k + addressLen) =
          some ((rest.drop k).take addressLen) := by
        rw [List.slice_eq (Nat.le_add_right _ _) (Nat.le_of_not_lt fits), data_, drop_fixedFields,
          Nat.add_sub_cancel_left]
      have payload : data.slice (9 + k + addressLen) data.length =
          some ((rest.drop k).drop addressLen) := by
        rw [List.slice_length (Nat.le_of_not_lt fits), data_, Nat.add_assoc, drop_fixedFields,
          List.drop_drop]
      simp only [if_neg truncated, if_neg fits, address, payload, session_, packet_,
        Option.bind_some]
      split_ifs <;> rfl

/-- What the parser makes of the bytes behind the fixed fields is a header. -/
theorem isHeader_of_afterFields {header : Header}
    (complete : numBytes (firstByte >>> 6) - 1 ≤ rest.length)
    (parsed : afterFields sessionId packetId fragmentId fragmentCount firstByte rest =
      some header) :
    IsHeader (fixedFields sessionId packetId fragmentId fragmentCount firstByte rest) header := by
  rw [afterFields] at parsed
  set k := numBytes (firstByte >>> 6) - 1
  set addressLen := varintValue firstByte (rest.take k) with addressLen_
  split_ifs at parsed with empty long truncated
  obtain ⟨remoteLocation, located, rfl⟩ := Option.map_eq_some_iff.mp parsed
  rw [locationOf] at located
  split at located
  case h_1 => cases located
  case h_2 addrStr utf8 =>
      split at located
      case h_1 => cases located
      case h_2 location parses =>
          cases located
          have length : ((rest.drop k).take addressLen).length = addressLen :=
            List.length_take_of_le (Nat.le_of_not_lt truncated)
          obtain ⟨v, bytes⟩ := exists_varint (List.length_take_of_le complete)
            (addressLen_.symm.trans length.symm)
          have whole : firstByte :: rest =
              v.bytes ++ ((rest.drop k).take addressLen ++ (rest.drop k).drop addressLen) := by
            rw [bytes, List.take_append_drop, List.cons_append, List.take_append_drop]
          rw [fixedFields, whole]
          exact .mk v (by omega) (by omega) utf8 parses

/-- A header has its varint as a whole, and the parser finds its parts. -/
theorem afterFields_of_isHeader {data : Bytes} {header : Header} (is : IsHeader data header) :
    ∃ (firstByte : UInt8) (rest : Bytes), numBytes (firstByte >>> 6) - 1 ≤ rest.length ∧
      data = fixedFields header.sessionId header.packetId header.fragmentId header.fragmentCount
        firstByte rest ∧
      afterFields header.sessionId header.packetId header.fragmentId header.fragmentCount firstByte
        rest = some header := by
  cases is with
  | mk addressLen some_ most utf8 parses =>
      rename_i address payload addrStr remoteLocation
      obtain ⟨firstByte, remaining, bytes, announced, value⟩ := addressLen.split
      refine ⟨firstByte, remaining ++ (address ++ payload), ?_, ?_, ?_⟩
      · rw [List.length_append]
        omega
      · rw [bytes, List.cons_append, fixedFields]
      · have located : locationOf address = some remoteLocation := by
          rw [locationOf, utf8]
          dsimp only
          rw [parses]
        rw [afterFields]
        dsimp only
        rw [List.take_left' announced, List.drop_left' announced, value, if_neg (by omega),
          if_neg (by omega), if_neg (by rw [List.length_append]; omega), List.take_left,
          List.drop_left, located]
        rfl

end Fields

/-- The parser yields a header exactly where the grammar has one. -/
theorem parseHeader_iff {data : Bytes} {header : Header} :
    parseHeader data = some (some header) ↔ IsHeader data header := by
  constructor
  · intro parsed
    by_cases long : 9 ≤ data.length
    · obtain ⟨_, _, _, _, _, _, rfl⟩ := exists_fixedFields long
      rw [parseHeader_fixedFields] at parsed
      split_ifs at parsed with short
      exact isHeader_of_afterFields (Nat.le_of_not_lt short) (Option.some.inj parsed)
    · rw [parseHeader, if_pos (Nat.lt_of_not_le long)] at parsed
      cases parsed
  · intro is
    obtain ⟨firstByte, rest, complete, rfl, parsed⟩ := afterFields_of_isHeader is
    rw [parseHeader_fixedFields, if_neg (Nat.not_lt.mpr complete), parsed]

/-- The datagram ends within the varint that it has begun. -/
def EndsWithinVarint (data : Bytes) : Prop :=
  ∃ firstByte : UInt8, data[8]? = some firstByte ∧ data.length < 8 + numBytes (firstByte >>> 6)

theorem numBytes_pos (length : UInt8) : 0 < numBytes length := by
  rw [numBytes]
  split <;> decide

/-- A slice is out of range exactly where the datagram ends within its varint. -/
theorem parseHeader_eq_none_iff {data : Bytes} :
    parseHeader data = none ↔ EndsWithinVarint data := by
  by_cases long : 9 ≤ data.length
  · obtain ⟨_, _, _, _, firstByte, rest, rfl⟩ := exists_fixedFields long
    have positive := numBytes_pos (firstByte >>> 6)
    rw [parseHeader_fixedFields, EndsWithinVarint, getElem?_fixedFields 2, length_fixedFields]
    constructor
    · intro panics
      refine ⟨firstByte, rfl, ?_⟩
      split_ifs at panics with short
      omega
    · rintro ⟨_, eighth, short⟩
      cases eighth
      exact if_pos (by omega)
  · constructor
    · intro panics
      rw [parseHeader, if_pos (Nat.lt_of_not_le long)] at panics
      cases panics
    · rintro ⟨firstByte, eighth, -⟩
      have inside := (List.getElem?_eq_some_iff.mp eighth).1
      omega

/-! ## An iteration on the bytes -/

/-- The bytes of a QUIC datagram, which one UDP datagram carries. -/
abbrev DatagramBytes := { data : Bytes // data.length < 2 ^ 16 }

theorem IsHeader.payload_le {data : Bytes} {header : Header} (is : IsHeader data header) :
    header.payload.length ≤ data.length := by
  cases is
  simp only [List.length_append, List.length_cons]
  omega

/-- The datagram as the rest of an iteration has it. -/
def Header.toDatagram (header : Header) (carried : header.payload.length < 2 ^ 16) : Datagram where
  sessionId := header.sessionId
  packetId := header.packetId
  fragmentId := header.fragmentId
  fragmentCount := header.fragmentCount
  remoteLocation := header.remoteLocation
  payload := header.payload
  carried := carried

/-- One iteration of the loop that reads these bytes. -/
def iterateData (resolve : Resolve) (s : UdpLoop) (it : Iteration) (data : DatagramBytes) :
    UdpLoop × Option SendTo :=
  match parsed : parseHeader data.1 with
  | none => ((cleanUp s it).leave (.panicked .index), none)
  | some none => iterate resolve s { it with read := .ignored }
  | some (some header) =>
      have carried := Nat.lt_of_le_of_lt (parseHeader_iff.mp parsed).payload_le data.2
      iterate resolve s { it with read := .headed (header.toDatagram carried) }

theorem iterateData_panicked {resolve : Resolve} {s : UdpLoop} {it : Iteration}
    {data : DatagramBytes} (panics : parseHeader data.1 = none) :
    iterateData resolve s it data = ((cleanUp s it).leave (.panicked .index), none) := by
  unfold iterateData
  split
  case h_1 => rfl
  case h_2 ignored => cases panics.symm.trans ignored
  case h_3 parsed => cases panics.symm.trans parsed

theorem iterateData_ignored {resolve : Resolve} {s : UdpLoop} {it : Iteration}
    {data : DatagramBytes} (ignored : parseHeader data.1 = some none) :
    iterateData resolve s it data = (cleanUp s it, none) := by
  unfold iterateData
  split
  case h_1 panics => cases panics.symm.trans ignored
  case h_2 => rfl
  case h_3 parsed => cases parsed.symm.trans ignored

/-- A datagram is taken apart by the grammar, or it is ignored. -/
structure TakenOrIgnored (data : DatagramBytes) : Prop where
  total : parseHeader data.1 ≠ none
  accepts : ∀ header, parseHeader data.1 = some (some header) ↔ IsHeader data.1 header
  ignores : (∀ header, ¬ IsHeader data.1 header) →
    ∀ resolve s it, iterateData resolve s it data = (cleanUp s it, none)

/-- The parser is total on its grammar and its complement, but for the datagrams
that end within the varint. -/
theorem taken_or_ignored_iff (data : DatagramBytes) :
    TakenOrIgnored data ↔ ¬ EndsWithinVarint data.1 := by
  rw [← parseHeader_eq_none_iff]
  constructor
  · intro holds
    exact holds.total
  · intro total
    refine ⟨total, fun header => parseHeader_iff, ?_⟩
    intro malformed resolve s it
    obtain ⟨parsed, parsed_⟩ := Option.ne_none_iff_exists'.mp total
    cases parsed with
    | none => exact iterateData_ignored parsed_
    | some header => exact absurd (parseHeader_iff.mp parsed_) (malformed header)

/-- Nine bytes, the last of which announces a varint of two. -/
def cutOff : DatagramBytes := ⟨[0, 0, 0, 1, 0, 1, 0, 1, 0x40], by decide⟩

/-- It is no header, and the loop that reads it ends in a panic. -/
theorem cut_off_varint_panics : ¬ TakenOrIgnored cutOff ∧ (∀ header, ¬ IsHeader cutOff.1 header) ∧
    ∀ resolve it, (iterateData resolve (.initial 0) it cutOff).1.status = .panicked .index := by
  have panics : parseHeader cutOff.1 = none := by decide +kernel
  refine ⟨fun holds => holds.total panics, ?_, ?_⟩
  · intro header is
    cases (parseHeader_iff.mpr is).symm.trans panics
  · intro resolve it
    rw [iterateData_panicked panics]
    rfl

end RustProxy.Hysteria2
