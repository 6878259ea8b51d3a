import RustProxy.Base.Calls
import RustProxy.MessageStream.Frame
import RustProxy.MessageStream.SlideBuffer

/-!
# The packet-address stream

`PacketAddrStream` of `message_stream.rs`, with the one codec that the program
uses. A read parses the frame that begins the read buffer, or reads on. A write
puts a frame into the write buffer and leaves it there: it is sent by the next
write, by a flush or by the shutdown, each of which may stop half-way and go on
later.

The stream underneath is any `AsyncStream`. A slice out of range, an assertion
that fails and a `put_slice` without room are panics, and the loops run on fuel.
-/

namespace RustProxy.MessageStream

open BigEndian
open Relay (allocateVec)

/-- `BUFFER_SIZE`. -/
def BUFFER_SIZE : Nat := 65535

structure PacketAddrStream where
  readBuf : SlideBuffer
  writeBuf : Bytes
  writeBufLen : Nat
  writeBufSent : Nat
  isEof : Bool
  deriving DecidableEq

namespace PacketAddrStream

def newUot (readMemory writeMemory : Nat → UInt8) : PacketAddrStream where
  readBuf := .new readMemory BUFFER_SIZE
  writeBuf := allocateVec writeMemory BUFFER_SIZE
  writeBufLen := 0
  writeBufSent := 0
  isEof := false

def tryParsePacket (this : PacketAddrStream) :
    Option (IoResult (Option (NetLocation × Nat × Nat))) := do
  let data ← this.readBuf.asSlice
  parsePacket data

variable {ω : Type}

/-- A moment of a call: the stream, and the world of the stream underneath. -/
abbrev Calling (ω : Type) := PacketAddrStream × ω

/-! ## Reading -/

/-- The answer at the end of the stream, in which nothing is put into the buffer. -/
def endOfStream : Packet := ⟨.UNSPECIFIED, []⟩

def bufferFull : IoError := ⟨.other, "packet-address read buffer full but no complete packet"⟩

/-- Take a parsed packet off the read buffer and put its payload into a buffer
with some room. -/
def takePacket (this : PacketAddrStream) (room payloadStart payloadLen : Nat) :
    Option (Bytes × SlideBuffer) := do
  let data ← this.readBuf.asSlice
  let payload ← data.slice payloadStart (payloadStart + payloadLen)
  if payload.length ≤ room then
    let totalConsumed := payloadStart + payloadLen
    let readBuf ← this.readBuf.consume totalConsumed
    return (payload, readBuf)
  else none

/-- Make room for a read, and tell how much there is. -/
def makeRoom (this : PacketAddrStream) : Option (SlideBuffer × Nat) := do
  let readBuf ← this.readBuf.maybeCompact 4096
  let remainingCapacity ← readBuf.remainingCapacity
  return (readBuf, remainingCapacity)

/-- Read into the free part of the read buffer. -/
def fill (stream : AsyncStream ω) (room : Nat) :
    Exec (Calling ω) (Option (Poll (IoResult Packet))) := fun (this, w) =>
  match stream.pollRead room w with
  | (.ready (.ok bytes), w) =>
      if bytes.length = 0 then
        (.returned (some (.ready (.ok endOfStream))), { this with isEof := true }, w)
      else
        match (this.readBuf.filled bytes).advanceWrite bytes.length with
        | none => (.panicked, this, w)
        | some readBuf => (.returned none, { this with readBuf }, w)
  | (.ready (.error e), w) => (.returned (some (.ready (.error e))), this, w)
  | (.pending, w) => (.returned (some .pending), this, w)

/-- One turn of the loop of `poll_read_targeted_message`, with `room` in the
buffer for the payload. -/
def readTurn (stream : AsyncStream ω) (room : Nat) :
    Exec (Calling ω) (Option (Poll (IoResult Packet))) := fun (this, w) =>
  match this.tryParsePacket with
  | none => (.panicked, this, w)
  | some (.error e) => (.returned (some (.ready (.error e))), this, w)
  | some (.ok (some (location, payloadStart, payloadLen))) =>
      match this.takePacket room payloadStart payloadLen with
      | none => (.panicked, this, w)
      | some (payload, readBuf) =>
          (.returned (some (.ready (.ok ⟨location, payload⟩))), { this with readBuf }, w)
  | some (.ok none) =>
      match this.makeRoom with
      | none => (.panicked, this, w)
      | some (readBuf, remainingCapacity) =>
          if remainingCapacity = 0 then
            (.returned (some (.ready (.error bufferFull))), { this with readBuf }, w)
          else
            match readBuf.writeSlice with
            | none => (.panicked, { this with readBuf }, w)
            | some writeSlice => fill stream writeSlice.length ({ this with readBuf }, w)

def pollReadTargetedMessage (fuel : Nat) (stream : AsyncStream ω) (room : Nat) :
    Exec (Calling ω) (Poll (IoResult Packet)) := fun (this, w) =>
  if this.isEof then (.returned (.ready (.ok endOfStream)), this, w)
  else Exec.loop (readTurn stream room) fuel (this, w)

/-! ## Writing -/

/-- One turn of the loop that sends what is in the write buffer. -/
def sendTurn (stream : AsyncStream ω) : Exec (Calling ω) (Option (Poll (IoResult Unit))) :=
  fun (this, w) =>
    if this.writeBufSent < this.writeBufLen then
      match this.writeBuf.slice this.writeBufSent this.writeBufLen with
      | none => (.panicked, this, w)
      | some remaining =>
          match stream.pollWrite remaining w with
          | (.ready (.ok n), w) =>
              (.returned none, { this with writeBufSent := this.writeBufSent + n }, w)
          | (.ready (.error e), w) => (.returned (some (.ready (.error e))), this, w)
          | (.pending, w) => (.returned (some .pending), this, w)
    else (.returned (some (.ready (.ok ()))), { this with writeBufLen := 0, writeBufSent := 0 }, w)

/-- Send what is in the write buffer; afterwards it is empty. -/
def send (fuel : Nat) (stream : AsyncStream ω) : Exec (Calling ω) (Poll (IoResult Unit)) :=
  Exec.loop (sendTurn stream) fuel

def frameTooLarge (totalLen size : Nat) : IoError :=
  ⟨.other, "packet-address frame too large: " ++ toString totalLen ++ " > " ++ toString size⟩

/-- The frame of a message at the beginning of a buffer, and its length. -/
def writeFrame (writeBuf buf : Bytes) (source : SocketAddr) : Option (Nat × Bytes) := do
  let (offset, writeBuf) ← writeUotAddress writeBuf source
  let lenBytes := toBe 2 buf.length
  let writeBuf ← writeBuf.copyFromSlice offset (offset + 2) lenBytes
  let dataStart := offset + 2
  let writeBuf ← writeBuf.copyFromSlice dataStart (dataStart + buf.length) buf
  return (dataStart + buf.length, writeBuf)

/-- The length of an address, as the writer has it. -/
def addrLen : SocketAddr → Nat
  | .v4 .. => 7
  | .v6 .. => 19

/-- Put a frame into the empty write buffer. -/
def stage (buf : Bytes) (source : SocketAddr) : Exec (Calling ω) (Poll (IoResult Unit)) :=
  fun (this, w) =>
    let totalLen := addrLen source + 2 + buf.length
    if this.writeBuf.length < totalLen then
      (.returned (.ready (.error (frameTooLarge totalLen this.writeBuf.length))), this, w)
    else
      match writeFrame this.writeBuf buf source with
      | none => (.panicked, this, w)
      | some (writeBufLen, writeBuf) =>
          (.returned (.ready (.ok ())), { this with writeBuf, writeBufLen }, w)

def pollWriteSourcedMessage (fuel : Nat) (stream : AsyncStream ω) (buf : Bytes)
    (source : SocketAddr) : Exec (Calling ω) (Poll (IoResult Unit)) := do
  match ← send fuel stream with
  | .ready (.ok ()) => stage buf source
  | answer => pure answer

def pollFlushMessage (fuel : Nat) (stream : AsyncStream ω) :
    Exec (Calling ω) (Poll (IoResult Unit)) := do
  match ← send fuel stream with
  | .ready (.ok ()) => fun (this, w) =>
      let (answer, w) := stream.pollFlush w
      (.returned answer, this, w)
  | answer => pure answer

def pollShutdownMessage (fuel : Nat) (stream : AsyncStream ω) :
    Exec (Calling ω) (Poll (IoResult Unit)) := do
  match ← pollFlushMessage fuel stream with
  | .ready (.ok ()) => fun (this, w) =>
      let (answer, w) := stream.pollShutdown w
      (.returned answer, this, w)
  | answer => pure answer

/-- There are no pings. -/
def pollWritePing : Exec (Calling ω) (Poll (IoResult Bool)) := pure (.ready (.ok false))

/-! ## Calls -/

/-- A call that the user of the stream makes. -/
inductive Op where
  | read
  | write (buf : Bytes) (source : SocketAddr)
  | flush
  | shutdown
  deriving DecidableEq

/-- A call with its answer. A packet is told from the end of the stream. -/
inductive Answer where
  | read (answer : Poll (IoResult Packet)) (isEof : Bool)
  | write (buf : Bytes) (source : SocketAddr) (answer : Poll (IoResult Unit))
  | flush (answer : Poll (IoResult Unit))
  | shutdown (answer : Poll (IoResult Unit))
  deriving DecidableEq

/-- The buffer for a payload is the one of `run_udp_routing`. -/
def call (stream : AsyncStream ω) (fuel : Nat) : Op → Exec (Calling ω) Answer
  | .read => do
      let answer ← pollReadTargetedMessage fuel stream 65535
      fun (this, w) => (.returned (.read answer this.isEof), this, w)
  | .write buf source => do
      let answer ← pollWriteSourcedMessage fuel stream buf source
      pure (.write buf source answer)
  | .flush => do
      let answer ← pollFlushMessage fuel stream
      pure (.flush answer)
  | .shutdown => do
      let answer ← pollShutdownMessage fuel stream
      pure (.shutdown answer)

abbrev Call (ω : Type) := Asked ω Op

/-- A moment of a run, with the answers so far. -/
abbrev Running (ω : Type) := Exec.Answering PacketAddrStream ω Answer

end PacketAddrStream

end RustProxy.MessageStream
