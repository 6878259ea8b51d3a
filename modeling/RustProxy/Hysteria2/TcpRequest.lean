import RustProxy.Hysteria2.Sender
import RustProxy.Relay.Handover
import RustProxy.StreamReader

/-!
# TCP requests

`read_varint`, `handle_tcp_header` and `process_tcp_stream` of `hysteria2.rs`. A
request is a frame type, an address with its length and padding with its length,
and the bytes for the destination follow it without a break. The reader that
takes the request off the stream may have read on by then: those bytes are
written to the destination first, and the relay reads the rest.

The numbers of a request are varints of one, two, four or eight bytes. A
`Varint` is an encoding of its number in any width that has room for it.
-/

namespace RustProxy.Hysteria2

open BigEndian StreamReader
open Fallible (ofExcept)
open Relay (byteSink)

/-! ## Varints -/

/-- The bytes of a varint, by the upper two bits of the first one. The fifth arm
of the code, which panics, is for a value that two bits do not have. -/
def numBytes (length : UInt8) : Nat :=
  match length.toNat with
  | 0 => 1
  | 1 => 2
  | 2 => 4
  | _ => 8

def readVarint : Reading Nat := do
  let firstByte ← readU8
  let value := (firstByte &&& 0b00111111).toNat
  let numBytes := numBytes (firstByte >>> 6)
  if 1 < numBytes then do
    let remainingBytes ← readSlice (numBytes - 1)
    pure (remainingBytes.foldl (fun value byte => value <<< 8 ||| byte.toNat) value)
  else pure value

/-- An encoding of a number: the width has a power of two of bytes, less two bits. -/
structure Varint (value : Nat) where
  width : Fin 4
  fits : value < 64 * 256 ^ (2 ^ width.val - 1)

def Varint.bytes {value : Nat} (v : Varint value) : Bytes :=
  (toBe (2 ^ v.width.val) value).modifyHead (· ||| UInt8.ofNat (64 * v.width.val))

/-! ## The header -/

/-- `FRAME_TYPE_TCP_REQUEST`. -/
def FRAME_TYPE_TCP_REQUEST : Nat := 0x401

def invalidRequestId (tcpRequestId : Nat) : IoError :=
  ⟨.other, "invalid tcp request id: expected 0x" ++
    String.ofList (lowerHex FRAME_TYPE_TCP_REQUEST) ++ ", got 0x" ++
    String.ofList (lowerHex tcpRequestId)⟩

/-- A check that ends the function with an error. -/
def check (ok : Bool) (e : IoError) : Reading Unit := ofExcept (if ok then .ok () else .error e)

/-- The address of a request, from its bytes. -/
def parseAddress (addressBytes : Bytes) : IoResult NetLocation :=
  match fromUtf8 addressBytes with
  | .error e => .error ⟨.other, "invalid address encoding: " ++ e.toText⟩
  | .ok address => NetLocation.fromStr address none

/-- `handle_tcp_header` up to the response. -/
def readTcpRequest : Reading NetLocation := do
  let tcpRequestId ← readVarint
  check (tcpRequestId = FRAME_TYPE_TCP_REQUEST) (invalidRequestId tcpRequestId)
  let addressLen ← readVarint
  check (addressLen ≤ 2048) ⟨.other, "invalid address length"⟩
  let addressBytes ← readSlice addressLen
  let remoteLocation ← ofExcept (parseAddress addressBytes)
  let paddingLen ← readVarint
  check (paddingLen ≤ 4096) ⟨.other, "invalid padding length"⟩
  let _ ← readSlice paddingLen
  pure remoteLocation

/-- The padding of a response, which is random. -/
abbrev ResponsePadding := { padding : Bytes // padding.length ≤ 63 }

/-- Status, message length, padding length, padding. -/
def responseBytes (padding : ResponsePadding) : Bytes :=
  0 :: 0 :: UInt8.ofNat padding.1.length :: padding.1

def h3WriteFailed (e : IoError) : IoError := ⟨.other, "H3 stream write failed: " ++ e.message⟩

variable {ω ω' : Type}

/-- `handle_tcp_header`: the location and the reader with what it has read
beyond the request. The state is what the client's stream still has, and the
world its other direction is written in. -/
def handleTcpHeader (memory : Nat → UInt8) (padding : ResponsePadding) (send : Relay.Sink ω) :
    Fallible (Incoming × ω) IoError (NetLocation × StreamReader) := fun (recv, w) =>
  match readTcpRequest (newWithBufferSize memory 8192, recv) with
  | (.error e, _, recv) => (.error e, recv, w)
  | (.ok remoteLocation, reader, recv) =>
      match Relay.writeAll send h3WriteFailed (responseBytes padding) w with
      | (.error e, w) => (.error e, recv, w)
      | (.ok (), w) => (.ok (remoteLocation, reader), recv, w)

/-! ## The whole stream -/

/-- What comes of connecting to the destination within 60 seconds. -/
inductive Setup where
  | connected
  | failed (e : IoError)
  | elapsed
  deriving DecidableEq

def setupResult (remoteLocation : NetLocation) : Setup → IoResult Unit
  | .connected => .ok ()
  | .failed e => .error ⟨e.kind, "failed to setup client stream to " ++
      String.ofList remoteLocation.toText ++ ": " ++ e.message⟩
  | .elapsed => .error ⟨.timedOut, "client setup to " ++ String.ofList remoteLocation.toText ++
      " timed out: deadline has elapsed"⟩

/-- What `process_tcp_stream` starts the relay with: the location it has
connected to, and whether the destination is to be flushed first. -/
structure TcpRelay where
  remoteLocation : NetLocation
  clientRequiresFlush : Bool
  deriving DecidableEq

/-- `process_tcp_stream` up to the relay. The state is what the client's stream
still has, and the worlds of the client's and the destination's streams. -/
def processTcpStream (memory : Nat → UInt8) (padding : ResponsePadding) (send : Relay.Sink ω)
    (setup : NetLocation → Setup) (clientStream : Relay.Sink ω') :
    Fallible (Incoming × ω × ω') IoError TcpRelay := fun (recv, w, w') =>
  match handleTcpHeader memory padding send (recv, w) with
  | (.error e, recv, w) => (.error e, recv, w, w')
  | (.ok (remoteLocation, reader), recv, w) =>
      match setupResult remoteLocation (setup remoteLocation) with
      | .error e => (.error e, recv, w, w')
      | .ok () =>
          if reader.unparsedData = [] then (.ok ⟨remoteLocation, false⟩, recv, w, w')
          else
            match Relay.writeAll clientStream h3WriteFailed reader.unparsedData w' with
            | (.error e, w') => (.error e, recv, w, w')
            | (.ok (), w') => (.ok ⟨remoteLocation, true⟩, recv, w, w')

/-! ## Reading a request -/

/-- The first byte of a varint has the width above six bits of the number. -/
theorem first_byte (width : Nat) (small : width < 4) (high : Nat) (below : high < 64) :
    numBytes ((UInt8.ofNat high ||| UInt8.ofNat (64 * width)) >>> 6) = 2 ^ width ∧
      ((UInt8.ofNat high ||| UInt8.ofNat (64 * width)) &&& 0b00111111).toNat = high := by
  revert width high
  decide

theorem Varint.bytes_eq {value : Nat} (v : Varint value) : ∃ high, high < 64 ∧
    high = value / 256 ^ (2 ^ v.width.val - 1) ∧
    v.bytes = (UInt8.ofNat high ||| UInt8.ofNat (64 * v.width.val)) ::
      toBe (2 ^ v.width.val - 1) value := by
  have positive : 0 < 2 ^ v.width.val := Nat.two_pow_pos _
  refine ⟨value / 256 ^ (2 ^ v.width.val - 1), ?_, rfl, ?_⟩
  · exact Nat.div_lt_of_lt_mul (by rw [Nat.mul_comm]; exact v.fits)
  · have cons := toBe_succ_cons (2 ^ v.width.val - 1) value
    rw [Nat.sub_add_cancel positive] at cons
    rw [Varint.bytes, cons]
    rfl

/-- The loop over the remaining bytes reads on in base 256. -/
@[simp] theorem foldl_shift (bytes : Bytes) (start : Nat) :
    bytes.foldl (fun value byte => value <<< 8 ||| byte.toNat) start =
      start * 256 ^ bytes.length + ofBe bytes := by
  rw [← foldl_ofBe]
  congr 1
  funext value byte
  rw [← Nat.shiftLeft_add_eq_or_of_lt byte.toNat_lt, Nat.shiftLeft_eq]

variable {size : Nat} {more : Bytes}

theorem readVarint_returns {value : Nat} (v : Varint value) (room : 8 ≤ size) :
    readVarint.Returns (Holds size (v.bytes ++ more)) value (Holds size more) := by
  obtain ⟨high, below, high_, bytes⟩ := v.bytes_eq
  obtain ⟨width, low⟩ := first_byte v.width.val v.width.isLt high below
  rw [bytes, List.cons_append]
  refine (readU8_returns (by omega)).bind ?_
  dsimp only
  rw [width, low]
  have length : (toBe (2 ^ v.width.val - 1) value).length = 2 ^ v.width.val - 1 := length_toBe _ _
  have number : high * 256 ^ (2 ^ v.width.val - 1) +
      ofBe (toBe (2 ^ v.width.val - 1) value) = value := by
    rw [ofBe_toBe, high_, Nat.mul_comm, Nat.div_add_mod]
  have widest : 2 ^ v.width.val ≤ 2 ^ 3 := Nat.pow_le_pow_right (by decide) (by omega)
  split
  · refine (readSlice_returns length (by omega)).bind ?_
    rw [foldl_shift, length, number]
    exact Fallible.returns_pure _ _
  · have one : 2 ^ v.width.val - 1 = 0 := by omega
    rw [one] at number ⊢
    have same : high = value := by simpa [toBe, ofBe] using number
    rw [same]
    exact Fallible.returns_pure _ _

/-- A request that the header accepts, with its numbers in any width. -/
structure TcpRequest where
  requestId : Varint FRAME_TYPE_TCP_REQUEST
  address : Bytes
  addressFits : address.length ≤ 2048
  addressLen : Varint address.length
  remoteLocation : NetLocation
  parses : parseAddress address = .ok remoteLocation
  padding : Bytes
  paddingFits : padding.length ≤ 4096
  paddingLen : Varint padding.length

def TcpRequest.bytes (request : TcpRequest) : Bytes :=
  request.requestId.bytes ++ (request.addressLen.bytes ++ (request.address ++
    (request.paddingLen.bytes ++ request.padding)))

theorem check_returns {ok : Bool} {e : IoError} (P : StreamReader × Incoming → Prop)
    (met : ok = true) : (check ok e).Returns P () P := by
  intro s holds
  refine ⟨s, ?_, holds⟩
  rw [check, if_pos met]
  rfl

/-- A request is taken off the stream, and nothing else. -/
theorem readTcpRequest_returns (request : TcpRequest) :
    readTcpRequest.Returns (Holds 8192 (request.bytes ++ more)) request.remoteLocation
      (Holds 8192 more) := by
  have addressFits := request.addressFits
  have paddingFits := request.paddingFits
  simp only [TcpRequest.bytes, List.append_assoc]
  refine (readVarint_returns request.requestId (by decide)).bind ?_
  refine (check_returns _ (by decide)).bind ?_
  refine (readVarint_returns request.addressLen (by decide)).bind ?_
  refine (check_returns _ (by simpa using addressFits)).bind ?_
  refine (readSlice_returns rfl (by omega)).bind ?_
  have parsed : (ofExcept (parseAddress request.address) : Reading NetLocation).Returns
      (Holds 8192 (request.paddingLen.bytes ++ (request.padding ++ more))) request.remoteLocation
      (Holds 8192 (request.paddingLen.bytes ++ (request.padding ++ more))) := by
    rw [request.parses]
    exact Fallible.returns_pure _ _
  refine parsed.bind ?_
  refine (readVarint_returns request.paddingLen (by decide)).bind ?_
  refine (check_returns _ (by simpa using paddingFits)).bind ?_
  refine (readSlice_returns rfl (by omega)).bind ?_
  exact Fallible.returns_pure _ _

/-! ## The handover -/

/-- How the header of a stream ends on which `stream` follows the request: with
the request's location, unless the response cannot be written, and with
`stream` ahead. -/
inductive HeaderEnds (remoteLocation : NetLocation) (stream : Bytes) (send : Relay.Sink ω) :
    IoResult (NetLocation × StreamReader) × Incoming × ω → Prop
  | answered {reader : StreamReader} {recv : Incoming} {w : ω} :
      reader.unparsedData ++ recv.bytes = stream →
      HeaderEnds remoteLocation stream send (.ok (remoteLocation, reader), recv, w)
  | unanswered {e : IoError} {offered : Bytes} {recv : Incoming} {w₀ w : ω} :
      send.write offered w₀ = (.error e, w) →
      HeaderEnds remoteLocation stream send (.error (h3WriteFailed e), recv, w)

/-- How a stream ends up: in a relay that hands `stream` over to the destination,
unless one of the two streams refuses a write. -/
inductive ProcessEnds (remoteLocation : NetLocation) (stream : Bytes) (send : Relay.Sink ω)
    (clientStream : Relay.Sink ω') (before : Bytes) :
    IoResult TcpRelay × Incoming × ω × ω' → Prop
  | relays {clientRequiresFlush : Bool} {written : Bytes} {recv : Incoming} {w : ω} {w' : ω'} :
      clientStream.accepted w' = before ++ written →
      Relay.CopyBidirectional.HandsOver stream written recv.bytes false clientRequiresFlush
        32768 32768 →
      ProcessEnds remoteLocation stream send clientStream before
        (.ok ⟨remoteLocation, clientRequiresFlush⟩, recv, w, w')
  | unanswered {e : IoError} {offered : Bytes} {recv : Incoming} {w₀ w : ω} {w' : ω'} :
      send.write offered w₀ = (.error e, w) → clientStream.accepted w' = before →
      ProcessEnds remoteLocation stream send clientStream before
        (.error (h3WriteFailed e), recv, w, w')
  | refused {e : IoError} {offered : Bytes} {recv : Incoming} {w : ω} {w₀ w' : ω'} :
      clientStream.write offered w₀ = (.error e, w') →
      clientStream.accepted w' <+: before ++ stream →
      ProcessEnds remoteLocation stream send clientStream before
        (.error (h3WriteFailed e), recv, w, w')

variable {request : TcpRequest} {stream : Bytes} {memory : Nat → UInt8} {padding : ResponsePadding}
  {send : Relay.Sink ω} {clientStream : Relay.Sink ω'} {pieces : List Bytes} {w : ω} {w' : ω'}

theorem headerEnds (some_ : ∀ piece ∈ pieces, piece ≠ [])
    (cut : pieces.flatten = request.bytes ++ stream) :
    HeaderEnds request.remoteLocation stream send
      (handleTcpHeader memory padding send (pieces.map .ok, w)) := by
  have start := holds_new memory 8192 some_
  rw [cut] at start
  obtain ⟨⟨reader, recv⟩, ran, holds⟩ := readTcpRequest_returns request _ start
  unfold handleTcpHeader
  dsimp only
  rw [ran]
  dsimp only
  rcases Relay.writeAll_ends send h3WriteFailed (responseBytes padding) w with
    ⟨w', wrote, -⟩ | ⟨e, offered, w₀, w', answer, failed, -⟩
  · rw [wrote]
    exact .answered holds.ahead
  · rw [failed]
    exact .unanswered answer

theorem HeaderEnds.process {result : IoResult (NetLocation × StreamReader) × Incoming × ω}
    {setup : NetLocation → Setup} {recv : Incoming}
    (h : HeaderEnds request.remoteLocation stream send result)
    (header : handleTcpHeader memory padding send (recv, w) = result)
    (connected : setup request.remoteLocation = .connected) :
    ProcessEnds request.remoteLocation stream send clientStream (clientStream.accepted w')
      (processTcpStream memory padding send setup clientStream (recv, w, w')) := by
  unfold processTcpStream
  dsimp only
  rw [header]
  cases h with
  | unanswered answer => exact .unanswered answer rfl
  | @answered reader rest _ ahead =>
      dsimp only
      rw [connected, setupResult]
      dsimp only
      have relays (flush : Bool) : Relay.CopyBidirectional.HandsOver stream reader.unparsedData
          rest.bytes false flush 32768 32768 :=
        Relay.CopyBidirectional.handsOver ahead false flush (by decide) (by decide)
      by_cases none_ : reader.unparsedData = []
      · rw [if_pos none_]
        exact .relays (by rw [none_, List.append_nil]) (relays false)
      · rw [if_neg none_]
        rcases Relay.writeAll_ends clientStream h3WriteFailed reader.unparsedData w' with
          ⟨_, wrote, accepts⟩ | ⟨e, offered, w₀, _, answer, failed, accepts⟩
        · rw [wrote]
          exact .relays accepts (relays true)
        · rw [failed]
          refine .refused answer (accepts.trans ?_)
          rw [← ahead]
          exact (List.prefix_append_right_inj _).mpr (List.prefix_append _ _)

/-- However a request and the bytes behind it are cut into reads, the header
takes the request and no more, and the destination gets the bytes behind it, the
first of them from the reader and the others from the relay. Nothing else than a
refused write keeps it from that. -/
theorem tcp_request_handed_over (request : TcpRequest) (stream : Bytes) (pieces : List Bytes)
    (some_ : ∀ piece ∈ pieces, piece ≠ []) (cut : pieces.flatten = request.bytes ++ stream)
    (memory : Nat → UInt8) (padding : ResponsePadding) (send : Relay.Sink ω)
    (setup : NetLocation → Setup) (connected : setup request.remoteLocation = .connected)
    (clientStream : Relay.Sink ω') (w : ω) (w' : ω') :
    HeaderEnds request.remoteLocation stream send
        (handleTcpHeader memory padding send (pieces.map .ok, w)) ∧
      ProcessEnds request.remoteLocation stream send clientStream (clientStream.accepted w')
        (processTcpStream memory padding send setup clientStream (pieces.map .ok, w, w')) := by
  have header : HeaderEnds request.remoteLocation stream send
      (handleTcpHeader memory padding send (pieces.map .ok, w)) := headerEnds some_ cut
  exact ⟨header, header.process rfl connected⟩

/-- A request for a:80 with one byte of padding. -/
def smallRequest : TcpRequest where
  requestId := ⟨1, by decide⟩
  address := [0x61, 0x3a, 0x38, 0x30]
  addressFits := by decide
  addressLen := ⟨0, by decide⟩
  remoteLocation := ⟨.hostname ['a'], 80⟩
  parses := by rfl
  padding := [9]
  paddingFits := by decide
  paddingLen := ⟨2, by decide⟩

/-- It comes in three reads, the last of which has a byte for the destination,
and a fourth read is left for the relay. -/
theorem small_request_handed_over :
    HeaderEnds smallRequest.remoteLocation [1, 2, 3] byteSink (handleTcpHeader (fun _ => 0)
        ⟨[], by decide⟩ byteSink
        ([[0x44], [0x01, 4, 0x61, 0x3a], [0x38, 0x30, 0x80, 0, 0, 1, 9, 1], [2, 3]].map .ok, [])) ∧
      ProcessEnds smallRequest.remoteLocation [1, 2, 3] byteSink byteSink [] (processTcpStream
        (fun _ => 0) ⟨[], by decide⟩ byteSink (fun _ => .connected) byteSink
        ([[0x44], [0x01, 4, 0x61, 0x3a], [0x38, 0x30, 0x80, 0, 0, 1, 9, 1], [2, 3]].map .ok,
          [], [])) :=
  tcp_request_handed_over smallRequest [1, 2, 3]
    [[0x44], [0x01, 4, 0x61, 0x3a], [0x38, 0x30, 0x80, 0, 0, 1, 9, 1], [2, 3]] (by decide)
    (by decide) (fun _ => 0) ⟨[], by decide⟩ byteSink (fun _ => .connected) rfl byteSink [] []

end RustProxy.Hysteria2
