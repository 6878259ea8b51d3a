import RustProxy.Base.BigEndian
import RustProxy.Base.Calls
import RustProxy.Base.Slice
import RustProxy.Relay.CopyBidirectional

/-!
# The length-prefixed stream

`VlessMessageStream` of `message_stream.rs`. A message is sent with its length in
two bytes in front of it. A read takes the message that begins the read buffer
and moves the bytes behind it to the front, or reads on. A write appends a message
to the bytes that are pending, which must be empty for that, and the next write, a
flush or the shutdown sends them. They are given up only when the stream
underneath has been flushed.

A slice out of range and an assertion that fails are panics, and the loops run on
fuel.
-/

namespace RustProxy.MessageStream

open BigEndian
open Relay (allocateVec)

structure VlessMessageStream where
  readBuf : Bytes
  readEndIndex : Nat
  pendingWrite : Bytes
  writeOffset : Nat
  isEof : Bool
  deriving DecidableEq

namespace VlessMessageStream

/-- The size of the read buffer: a length and the longest message. -/
def READ_SIZE : Nat := 65537

def new (memory : Nat → UInt8) : VlessMessageStream where
  readBuf := allocateVec memory READ_SIZE
  readEndIndex := 0
  pendingWrite := []
  writeOffset := 0
  isEof := false

variable {ω : Type}

/-- A moment of a call: the stream, and the world of the stream underneath. -/
abbrev Calling (ω : Type) := VlessMessageStream × ω

/-! ## Reading -/

def outBufTooSmall : IoError := ⟨.other, "out_buf is too small to hold the message"⟩

def eofInMessage : IoError := ⟨.unexpectedEof, "EOF reached in the middle of a message"⟩

/-- `payload_len` of the message that begins the read buffer, if all of it is
there. -/
def payloadLen? (this : VlessMessageStream) : Option (Option Nat) :=
  if 2 ≤ this.readEndIndex then do
    let lengthBytes ← this.readBuf.slice 0 2
    let payloadLen := ofBe lengthBytes
    return if 2 + payloadLen ≤ this.readEndIndex then some payloadLen else none
  else some none

/-- Put the message that begins the read buffer into a buffer with some room, and
move what follows it to the front. -/
def takeMessage (this : VlessMessageStream) (room payloadLen : Nat) :
    Option (IoResult Bytes × VlessMessageStream) :=
  let totalLen := 2 + payloadLen
  if room < payloadLen then some (.error outBufTooSmall, this)
  else do
    let payload ← this.readBuf.slice 2 totalLen
    if totalLen < this.readEndIndex then
      let left ← this.readBuf.slice totalLen this.readEndIndex
      return (.ok payload,
        { this with
          readBuf := Ring.overwrite this.readBuf 0 left
          readEndIndex := this.readEndIndex - totalLen })
    else return (.ok payload, { this with readEndIndex := 0 })

/-- Read into the free part of the read buffer. -/
def fill (stream : AsyncStream ω) (room : Nat) :
    Exec (Calling ω) (Option (Poll (IoResult Bytes))) := fun (this, w) =>
  match stream.pollRead room w with
  | (.ready (.ok bytes), w) =>
      if bytes.length = 0 then
        let answer := if this.readEndIndex = 0 then .ok [] else .error eofInMessage
        (.returned (some (.ready answer)), { this with isEof := true }, w)
      else
        (.returned none,
          { this with
            readBuf := Ring.overwrite this.readBuf this.readEndIndex bytes
            readEndIndex := this.readEndIndex + bytes.length }, w)
  | (.ready (.error e), w) => (.returned (some (.ready (.error e))), this, w)
  | (.pending, w) => (.returned (some .pending), this, w)

/-- One turn of the loop of `poll_read_message`, with `room` in the buffer for the
message. -/
def readTurn (stream : AsyncStream ω) (room : Nat) :
    Exec (Calling ω) (Option (Poll (IoResult Bytes))) := fun (this, w) =>
  match this.payloadLen? with
  | none => (.panicked, this, w)
  | some (some payloadLen) =>
      match this.takeMessage room payloadLen with
      | none => (.panicked, this, w)
      | some (answer, this) => (.returned (some (.ready answer)), this, w)
  | some none =>
      match this.readBuf.slice this.readEndIndex this.readBuf.length with
      | none => (.panicked, this, w)
      | some readBufSlice =>
          if readBufSlice = [] then (.panicked, this, w)
          else fill stream readBufSlice.length (this, w)

/-- The message, or nothing at the end of the stream. -/
def pollReadMessage (fuel : Nat) (stream : AsyncStream ω) (room : Nat) :
    Exec (Calling ω) (Poll (IoResult Bytes)) := fun (this, w) =>
  if this.isEof then (.returned (.ready (.ok [])), this, w)
  else Exec.loop (readTurn stream room) fuel (this, w)

/-! ## Writing -/

def writeZero : IoError := ⟨.writeZero, "failed to write message"⟩

def messageTooLarge : IoError := ⟨.invalidInput, "message size too large"⟩

/-- One turn of the loop that sends the pending bytes. -/
def sendTurn (stream : AsyncStream ω) : Exec (Calling ω) (Option (Poll (IoResult Unit))) :=
  fun (this, w) =>
    if this.writeOffset < this.pendingWrite.length then
      match this.pendingWrite.slice this.writeOffset this.pendingWrite.length with
      | none => (.panicked, this, w)
      | some chunk =>
          match stream.pollWrite chunk w with
          | (.ready (.ok n), w) =>
              if n = 0 then (.returned (some (.ready (.error writeZero))), this, w)
              else (.returned none, { this with writeOffset := this.writeOffset + n }, w)
          | (.ready (.error e), w) => (.returned (some (.ready (.error e))), this, w)
          | (.pending, w) => (.returned (some .pending), this, w)
    else (.returned (some (.ready (.ok ()))), this, w)

/-- Flush the stream underneath, and give the pending bytes up when that is
through. -/
def flushInner (stream : AsyncStream ω) : Exec (Calling ω) (Poll (IoResult Unit)) :=
  fun (this, w) =>
    match stream.pollFlush w with
    | (.ready (.ok ()), w) =>
        (.returned (.ready (.ok ())), { this with pendingWrite := [], writeOffset := 0 }, w)
    | (.ready (.error e), w) => (.returned (.ready (.error e)), this, w)
    | (.pending, w) => (.returned .pending, this, w)

def pollFlushMessage (fuel : Nat) (stream : AsyncStream ω) :
    Exec (Calling ω) (Poll (IoResult Unit)) := do
  match ← Exec.loop (sendTurn stream) fuel with
  | .ready (.ok ()) => flushInner stream
  | answer => pure answer

/-- Append a message to the pending bytes. -/
def stage (buf : Bytes) : Exec (Calling ω) (Poll (IoResult Unit)) := fun (this, w) =>
  if 65535 < buf.length then (.returned (.ready (.error messageTooLarge)), this, w)
  else
    (.returned (.ready (.ok ())),
      { this with
        pendingWrite := this.pendingWrite ++ (toBe 2 buf.length ++ buf)
        writeOffset := 0 }, w)

/-- Whether bytes are still pending after a flush that did not fail. -/
def stageIfSent (buf : Bytes) : Exec (Calling ω) (Poll (IoResult Unit)) := fun (this, w) =>
  if this.pendingWrite ≠ [] then (.returned .pending, this, w) else stage buf (this, w)

def pollWriteMessage (fuel : Nat) (stream : AsyncStream ω) (buf : Bytes) :
    Exec (Calling ω) (Poll (IoResult Unit)) := fun (this, w) =>
  if this.pendingWrite ≠ [] then
    (do
      match ← pollFlushMessage fuel stream with
      | .ready (.error e) => pure (.ready (.error e))
      | _ => stageIfSent buf : Exec (Calling ω) (Poll (IoResult Unit))) (this, w)
  else stage buf (this, w)

def pollShutdownMessage (fuel : Nat) (stream : AsyncStream ω) :
    Exec (Calling ω) (Poll (IoResult Unit)) := do
  match ← pollFlushMessage fuel stream with
  | .ready (.ok ()) => fun (this, w) =>
      let (answer, w) := stream.pollShutdown w
      (.returned answer, this, w)
  | answer => pure answer

def supportsPing (stream : AsyncStream ω) (s : Calling ω) : Bool := stream.supportsPing s.2

def pollWritePing (stream : AsyncStream ω) : Exec (Calling ω) (Poll (IoResult Bool)) :=
  fun (this, w) =>
    let (answer, w) := stream.pollWritePing w
    (.returned answer, this, w)

/-! ## Calls -/

/-- A call that the user of the stream makes. -/
inductive Op where
  | read
  | write (buf : Bytes)
  | flush
  | shutdown
  deriving DecidableEq

/-- A call with its answer. An empty message is told from the end of the stream. -/
inductive Answer where
  | read (answer : Poll (IoResult Bytes)) (isEof : Bool)
  | write (buf : Bytes) (answer : Poll (IoResult Unit))
  | flush (answer : Poll (IoResult Unit))
  | shutdown (answer : Poll (IoResult Unit))
  deriving DecidableEq

/-- The buffer for a message is the one of `copy_bidirectional_message`. -/
def call (stream : AsyncStream ω) (fuel : Nat) : Op → Exec (Calling ω) Answer
  | .read => do
      let answer ← pollReadMessage fuel stream 65535
      fun (this, w) => (.returned (.read answer this.isEof), this, w)
  | .write buf => do
      let answer ← pollWriteMessage fuel stream buf
      pure (.write buf answer)
  | .flush => do
      let answer ← pollFlushMessage fuel stream
      pure (.flush answer)
  | .shutdown => do
      let answer ← pollShutdownMessage fuel stream
      pure (.shutdown answer)

abbrev Call (ω : Type) := Asked ω Op

/-- A moment of a run, with the answers so far. -/
abbrev Running (ω : Type) := Exec.Answering VlessMessageStream ω Answer

end VlessMessageStream

end RustProxy.MessageStream
