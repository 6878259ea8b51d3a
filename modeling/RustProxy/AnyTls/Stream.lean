import RustProxy.AsyncStream

/-!
# A multiplexed stream

`anytls/stream.rs`. An `AnyTlsStream` reads what the receive loop pushed into
its channel and writes into the channel of the outgoing loop. Both channels
live in the session, so the stream's operations take them as operations on a
state `σ` of which the stream itself knows nothing.

A chunk that does not fit the reader's slice is kept with the offset up to
which it was consumed; the structure carries that the offset is inside it.
-/

namespace RustProxy.AnyTls

def STREAM_CHANNEL_BUFFER : Nat := 16

def MAX_FRAME_DATA_SIZE : Nat := 65535

structure AnyTlsStream where
  id : UInt32
  readBuffer : Bytes
  readOffset : Nat
  streamClosed : Bool
  shutdownInProgress : Bool
  eof : Bool
  consumed : readOffset ≤ readBuffer.length
  deriving DecidableEq

/-- The answer of `PollSender::poll_reserve`, once it is there. -/
inductive Reservation where
  | granted
  | channelClosed
  deriving DecidableEq, Repr

/-- `PollSender`: the bounded channel to the outgoing loop. -/
structure PollSender (σ : Type) where
  pollReserve : σ → Poll Reservation × σ
  sendItem : UInt32 × Bytes → σ → Option σ

namespace AnyTlsStream

def new (id : UInt32) : AnyTlsStream := ⟨id, [], 0, false, false, false, Nat.le_refl 0⟩

def brokenPipe (message : String) : IoError := ⟨.brokenPipe, message⟩

/-- What is left of the chunk read last. -/
def rest (me : AnyTlsStream) : Bytes := me.readBuffer.drop me.readOffset

/-- Consume `n` more bytes of the chunk, and drop it when it is used up. -/
def consume (me : AnyTlsStream) (n : Nat) : AnyTlsStream :=
  if used : me.readBuffer.length ≤ me.readOffset + n then
    { me with readBuffer := [], readOffset := 0, consumed := Nat.le_refl 0 }
  else { me with readOffset := me.readOffset + n, consumed := Nat.le_of_not_le used }

/-- Keep a chunk of which `n` bytes were consumed, unless that was all. -/
def keep (me : AnyTlsStream) (data : Bytes) (n : Nat) : AnyTlsStream :=
  if left : n < data.length then
    { me with readBuffer := data, readOffset := n, consumed := Nat.le_of_lt left }
  else me

variable {σ : Type}

def pollRead (me : AnyTlsStream) (room : Nat) (pollRecv : σ → Poll (Option Bytes) × σ) (s : σ) :
    Poll (IoResult Bytes) × AnyTlsStream × σ :=
  if me.streamClosed then (.ready (.error (brokenPipe "stream closed")), me, s)
  else
    let remainingInBuffer := me.readBuffer.length - me.readOffset
    if me.eof ∧ remainingInBuffer = 0 then (.ready (.ok []), me, s)
    else if 0 < remainingInBuffer then
      let n := min remainingInBuffer room
      (.ready (.ok (me.rest.take n)), me.consume n, s)
    else
      match pollRecv s with
      | (.ready (some data), s) =>
          if data.isEmpty then (.ready (.ok []), { me with eof := true }, s)
          else
            let n := min data.length room
            (.ready (.ok (data.take n)), me.keep data n, s)
      | (.ready none, s) => (.ready (.ok []), { me with eof := true }, s)
      | (.pending, s) => (.pending, me, s)

def pollWrite (me : AnyTlsStream) (buf : Bytes) (dataTx : PollSender σ) (sessionClosed : Bool)
    (s : σ) : Poll (IoResult Nat) × AnyTlsStream × σ :=
  if me.streamClosed then (.ready (.error (brokenPipe "stream closed")), me, s)
  else if me.shutdownInProgress then
    (.ready (.error (brokenPipe "stream is shutting down")), me, s)
  else if sessionClosed then (.ready (.error (brokenPipe "session closed")), me, s)
  else
    match dataTx.pollReserve s with
    | (.ready .granted, s) =>
        let writeLen := min buf.length MAX_FRAME_DATA_SIZE
        match dataTx.sendItem (me.id, buf.take writeLen) s with
        | some s => (.ready (.ok writeLen), me, s)
        | none => (.ready (.error (brokenPipe "session channel closed")), me, s)
    | (.ready .channelClosed, s) =>
        (.ready (.error (brokenPipe "session channel closed")), me, s)
    | (.pending, s) => (.pending, me, s)

def pollShutdown (me : AnyTlsStream) (dataTx : PollSender σ) (sessionClosed : Bool) (s : σ) :
    Poll (IoResult Unit) × AnyTlsStream × σ :=
  if me.streamClosed then (.ready (.ok ()), me, s)
  else if sessionClosed then (.ready (.ok ()), { me with streamClosed := true }, s)
  else
    let me := { me with shutdownInProgress := true }
    match dataTx.pollReserve s with
    | (.ready .granted, s) =>
        match dataTx.sendItem (me.id, []) s with
        | some s => (.ready (.ok ()), { me with streamClosed := true }, s)
        | none =>
            (.ready (.error (brokenPipe "session channel closed during shutdown")),
              { me with streamClosed := true }, s)
    | (.ready .channelClosed, s) =>
        (.ready (.error (brokenPipe "session channel closed")),
          { me with streamClosed := true }, s)
    | (.pending, s) => (.pending, me, s)

/-- `Drop`: a stream that is not closed tries to send its FIN. -/
def drop (me : AnyTlsStream) (trySend : UInt32 × Bytes → σ → σ) (s : σ) : σ :=
  if me.streamClosed then s else trySend (me.id, []) s

end AnyTlsStream

end RustProxy.AnyTls
