import RustProxy.Address
import RustProxy.Base.Calls

/-!
# Byte streams

The traits of `async_stream.rs` that the byte relay uses. A stream is a family
of operations on a world `ω`, which holds the state of the stream and whatever
it shares with the rest of the process: two streams of one relay live in one
world. What a stream owes its caller stands beside its operations: a read fills
at most the slice it is given, and a write accepts at most the bytes it is
offered.

`recorded` keeps, beside the world, the calls made on a stream and the answers
they got. It is the observer of a relay: bytes produced and accepted, ends of
input, flushes and shutdowns are read off the record.
-/

namespace RustProxy

/-- The part of `std::io::ErrorKind` that the program constructs. -/
inductive ErrorKind where
  | brokenPipe
  | connectionAborted
  | interrupted
  | invalidData
  | invalidInput
  | other
  | permissionDenied
  | timedOut
  | unexpectedEof
  | unsupported
  | writeZero
  deriving DecidableEq, Repr

structure IoError where
  kind : ErrorKind
  message : String
  deriving DecidableEq, Repr

/-- `std::io::Result`. -/
abbrev IoResult (α : Type) := Except IoError α

/-- `poll_*` of a stream: an answer, and the world after the call. -/
abbrev PollOp (ω α : Type) := ω → Poll (IoResult α) × ω

/-- `AsyncRead + AsyncWrite + AsyncPing`. `pollRead` is given the length of the
slice to fill and answers with the bytes filled in. -/
structure AsyncStream (ω : Type) where
  pollRead : Nat → PollOp ω Bytes
  pollWrite : Bytes → PollOp ω Nat
  pollFlush : PollOp ω Unit
  pollShutdown : PollOp ω Unit
  supportsPing : ω → Bool
  pollWritePing : PollOp ω Bool
  read_fits : ∀ room w bytes, (pollRead room w).1 = .ready (.ok bytes) → bytes.length ≤ room
  write_fits : ∀ offered w n, (pollWrite offered w).1 = .ready (.ok n) → n ≤ offered.length

/-- What the runtime answers a task: its cooperative budget and its timer. -/
structure Context (ω : Type) where
  pollProceed : ω → Poll Unit × ω
  pollSleep : ω → Poll Unit × ω
  resetSleep : ω → ω

/-- One call on a stream, with its answer. -/
inductive IoEvent where
  | read (room : Nat) (answer : Poll (IoResult Bytes))
  | write (offered : Bytes) (answer : Poll (IoResult Nat))
  | flush (answer : Poll (IoResult Unit))
  | shutdown (answer : Poll (IoResult Unit))
  | ping (answer : Poll (IoResult Bool))
  deriving DecidableEq

/-- The two streams of a relay. -/
inductive Side where
  | a
  | b
  deriving DecidableEq, Repr

def Side.other : Side → Side
  | .a => .b
  | .b => .a

/-- A world with the calls made in it so far. -/
structure Recorded (ω : Type) where
  world : ω
  calls : List (Side × IoEvent)

namespace Recorded

variable {ω α : Type}

def start (world : ω) : Recorded ω := ⟨world, []⟩

/-- Note a call and pass its answer on. -/
def note (side : Side) (event : α → IoEvent) (calls : List (Side × IoEvent)) (answer : α × ω) :
    α × Recorded ω :=
  (answer.1, ⟨answer.2, calls ++ [(side, event answer.1)]⟩)

end Recorded

variable {ω : Type}

/-- The stream on a side. -/
def AsyncStream.on (a b : AsyncStream ω) : Side → AsyncStream ω
  | .a => a
  | .b => b

/-- The stream that records the calls made on it. -/
def AsyncStream.recorded (stream : AsyncStream ω) (side : Side) : AsyncStream (Recorded ω) where
  pollRead room w := Recorded.note side (.read room) w.calls (stream.pollRead room w.world)
  pollWrite offered w :=
    Recorded.note side (.write offered) w.calls (stream.pollWrite offered w.world)
  pollFlush w := Recorded.note side .flush w.calls (stream.pollFlush w.world)
  pollShutdown w := Recorded.note side .shutdown w.calls (stream.pollShutdown w.world)
  supportsPing w := stream.supportsPing w.world
  pollWritePing w := Recorded.note side .ping w.calls (stream.pollWritePing w.world)
  read_fits room w bytes answered := stream.read_fits room w.world bytes answered
  write_fits offered w n answered := stream.write_fits offered w.world n answered

section Recording

variable {stream : AsyncStream ω} {side : Side} {w w' : ω} {made : List (Side × IoEvent)}

theorem AsyncStream.recorded_read {room : Nat} {answer : Poll (IoResult Bytes)}
    (answered : stream.pollRead room w = (answer, w')) :
    (stream.recorded side).pollRead room ⟨w, made⟩ =
      (answer, ⟨w', made ++ [(side, .read room answer)]⟩) :=
  congrArg (Recorded.note side (.read room) made) answered

theorem AsyncStream.recorded_write {offered : Bytes} {answer : Poll (IoResult Nat)}
    (answered : stream.pollWrite offered w = (answer, w')) :
    (stream.recorded side).pollWrite offered ⟨w, made⟩ =
      (answer, ⟨w', made ++ [(side, .write offered answer)]⟩) :=
  congrArg (Recorded.note side (.write offered) made) answered

theorem AsyncStream.recorded_flush {answer : Poll (IoResult Unit)}
    (answered : stream.pollFlush w = (answer, w')) :
    (stream.recorded side).pollFlush ⟨w, made⟩ =
      (answer, ⟨w', made ++ [(side, .flush answer)]⟩) :=
  congrArg (Recorded.note side .flush made) answered

end Recording

/-- The runtime's answers are not calls on a stream. -/
def Context.recorded (cx : Context ω) : Context (Recorded ω) where
  pollProceed w := ((cx.pollProceed w.world).1, ⟨(cx.pollProceed w.world).2, w.calls⟩)
  pollSleep w := ((cx.pollSleep w.world).1, ⟨(cx.pollSleep w.world).2, w.calls⟩)
  resetSleep w := ⟨cx.resetSleep w.world, w.calls⟩

/-- What happens between the calls of a user is not a call on a stream. -/
def Asked.recorded {ο : Type} (c : Asked ω ο) : Asked (Recorded ω) ο where
  meanwhile w := ⟨c.meanwhile w.world, w.calls⟩
  fuel := c.fuel
  op := c.op

end RustProxy
