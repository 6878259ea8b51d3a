import RustProxy.AsyncStream
import RustProxy.Base.Slice
import RustProxy.Relay.CopyBidirectional
import RustProxy.UdpRelay.Routing

/-!
# The message relay

`copy_bidirectional_message` of `udp_relay.rs`. A `CopyBuffer` has room for one
message: a turn of `poll_copy` reads one when none is cached, writes the cached
one, and flushes when nothing could be both read and written. A read of nothing
is taken for the end of the input. A direction then shuts its writer down, and
the relay is done when one of the directions is, or when no message was read for
the time of `ASSOCIATION_TIMEOUT`.

The two streams are any message streams over one world. `recorded` keeps the
calls on them with their answers.
-/

namespace RustProxy

/-- `AsyncMessageStream`. `pollReadMessage` is given the length of the buffer and
answers with the message put there. -/
structure AsyncMessageStream (ω : Type) where
  pollReadMessage : Nat → PollOp ω Bytes
  pollWriteMessage : Bytes → PollOp ω Unit
  pollFlushMessage : PollOp ω Unit
  pollShutdownMessage : PollOp ω Unit
  supportsPing : ω → Bool
  pollWritePing : PollOp ω Bool
  read_fits : ∀ room w message, (pollReadMessage room w).1 = .ready (.ok message) →
    message.length ≤ room

/-- The runtime with its clock, `Instant::now()`. -/
structure TimedContext (ω : Type) extends Context ω where
  now : ω → Nat

namespace UdpRelay

open Relay (allocateVec TransferState)

/-- One call on a message stream, with its answer. -/
inductive MessageEvent where
  | read (room : Nat) (answer : Poll (IoResult Bytes))
  | write (message : Bytes) (answer : Poll (IoResult Unit))
  | flush (answer : Poll (IoResult Unit))
  | shutdown (answer : Poll (IoResult Unit))
  | ping (answer : Poll (IoResult Bool))
  deriving DecidableEq

/-- A world with the calls made in it so far. -/
structure Traced (ω : Type) where
  world : ω
  calls : List (Side × MessageEvent)

variable {ω : Type}

/-- Note a call and pass its answer on. -/
def Traced.note {α : Type} (side : Side) (event : α → MessageEvent)
    (calls : List (Side × MessageEvent)) (answer : α × ω) : α × Traced ω :=
  (answer.1, ⟨answer.2, calls ++ [(side, event answer.1)]⟩)

/-- The stream that records the calls made on it. -/
def recorded (stream : AsyncMessageStream ω) (side : Side) : AsyncMessageStream (Traced ω) where
  pollReadMessage room w :=
    Traced.note side (.read room) w.calls (stream.pollReadMessage room w.world)
  pollWriteMessage message w :=
    Traced.note side (.write message) w.calls (stream.pollWriteMessage message w.world)
  pollFlushMessage w := Traced.note side .flush w.calls (stream.pollFlushMessage w.world)
  pollShutdownMessage w := Traced.note side .shutdown w.calls (stream.pollShutdownMessage w.world)
  supportsPing w := stream.supportsPing w.world
  pollWritePing w := Traced.note side .ping w.calls (stream.pollWritePing w.world)
  read_fits room w message answered := stream.read_fits room w.world message answered

section Recording

variable {stream : AsyncMessageStream ω} {side : Side} {w w' : ω}
  {calls : List (Side × MessageEvent)}

theorem recorded_read {room : Nat} {answer : Poll (IoResult Bytes)}
    (answered : stream.pollReadMessage room w = (answer, w')) :
    (recorded stream side).pollReadMessage room ⟨w, calls⟩ =
      (answer, ⟨w', calls ++ [(side, .read room answer)]⟩) :=
  congrArg (Traced.note side (.read room) calls) answered

theorem recorded_write {message : Bytes} {answer : Poll (IoResult Unit)}
    (answered : stream.pollWriteMessage message w = (answer, w')) :
    (recorded stream side).pollWriteMessage message ⟨w, calls⟩ =
      (answer, ⟨w', calls ++ [(side, .write message answer)]⟩) :=
  congrArg (Traced.note side (.write message) calls) answered

theorem recorded_flush {answer : Poll (IoResult Unit)}
    (answered : stream.pollFlushMessage w = (answer, w')) :
    (recorded stream side).pollFlushMessage ⟨w, calls⟩ =
      (answer, ⟨w', calls ++ [(side, .flush answer)]⟩) :=
  congrArg (Traced.note side .flush calls) answered

end Recording

/-- The runtime's answers are not calls on a stream. -/
def recordedContext (cx : TimedContext ω) : TimedContext (Traced ω) where
  pollProceed w := ((cx.pollProceed w.world).1, ⟨(cx.pollProceed w.world).2, w.calls⟩)
  pollSleep w := ((cx.pollSleep w.world).1, ⟨(cx.pollSleep w.world).2, w.calls⟩)
  resetSleep w := ⟨cx.resetSleep w.world, w.calls⟩
  now w := cx.now w.world

structure CopyBuffer where
  readDone : Bool
  needFlush : Bool
  needWritePing : Bool
  cacheLength : Nat
  buf : Bytes
  readCount : Nat
  deriving DecidableEq

namespace CopyBuffer

def new (memory : Nat → UInt8) (needFlush : Bool) : CopyBuffer where
  readDone := false
  needFlush := needFlush
  needWritePing := false
  cacheLength := 0
  buf := allocateVec memory 65535
  readCount := 0

/-- A moment of `poll_copy`: its buffer and the world. -/
abbrev Copying (ω : Type) := CopyBuffer × ω

/-- What one of the two calls of a turn came to: whether it moved a message, and
whether it has to be waited for. -/
structure Moved where
  did : Bool
  pending : Bool
  deriving DecidableEq

/-- Read a message when none is cached. -/
def read (reader : AsyncMessageStream ω) : Exec (Copying ω) (IoResult Moved) := fun (me, w) =>
  if !me.readDone ∧ me.cacheLength = 0 then
    match reader.pollReadMessage me.buf.length w with
    | (.ready (.ok message), w) =>
        let n := message.length
        if n = 0 then (.returned (.ok ⟨false, false⟩), { me with readDone := true }, w)
        else
          (.returned (.ok ⟨true, false⟩),
            { me with
              buf := Ring.overwrite me.buf 0 message
              cacheLength := n
              readCount := (me.readCount + n) % 2 ^ 64 }, w)
    | (.ready (.error e), w) => (.returned (.error e), me, w)
    | (.pending, w) => (.returned (.ok ⟨false, true⟩), me, w)
  else (.returned (.ok ⟨false, false⟩), me, w)

/-- Write the cached message. -/
def write (writer : AsyncMessageStream ω) : Exec (Copying ω) (IoResult Moved) := fun (me, w) =>
  if 0 < me.cacheLength then
    match me.buf.slice 0 me.cacheLength with
    | none => (.panicked, me, w)
    | some message =>
        match writer.pollWriteMessage message w with
        | (.ready (.ok ()), w) =>
            (.returned (.ok ⟨true, false⟩),
              { me with cacheLength := 0, needFlush := true, needWritePing := false }, w)
        | (.ready (.error e), w) => (.returned (.error e), me, w)
        | (.pending, w) => (.returned (.ok ⟨false, true⟩), me, w)
  else (.returned (.ok ⟨false, false⟩), me, w)

/-- Write the ping that the timer asked for, unless the writer is pending already.
Tells whether it is pending now. -/
def ping (writer : AsyncMessageStream ω) (writePending : Bool) :
    Exec (Copying ω) (IoResult Bool) := fun (me, w) =>
  if !writePending ∧ me.needWritePing then
    match writer.pollWritePing w with
    | (.ready (.ok written), w) =>
        let me := { me with needWritePing := false }
        (.returned (.ok writePending), if written then { me with needFlush := true } else me, w)
    | (.ready (.error e), w) => (.returned (.error e), me, w)
    | (.pending, w) => (.returned (.ok true), me, w)
  else (.returned (.ok writePending), me, w)

/-- The end of a turn: flush and go round again, or be finished, or wait. -/
def settle (writer : AsyncMessageStream ω) (readPending writePending : Bool) :
    Exec (Copying ω) (Option (Poll (IoResult Unit))) := fun (me, w) =>
  if me.needFlush then
    match writer.pollFlushMessage w with
    | (.ready (.ok ()), w) => (.returned none, { me with needFlush := false }, w)
    | (.ready (.error e), w) => (.returned (some (.ready (.error e))), me, w)
    | (.pending, w) => (.returned (some .pending), me, w)
  else if me.readDone ∧ me.cacheLength = 0 then (.returned (some (.ready (.ok ()))), me, w)
  else if readPending || writePending then (.returned (some .pending), me, w)
  else (.returned none, me, w)

/-- One turn of the loop of `poll_copy`. -/
def copyTurn (reader writer : AsyncMessageStream ω) :
    Exec (Copying ω) (Option (Poll (IoResult Unit))) := do
  match ← read reader with
  | .error e => pure (some (.ready (.error e)))
  | .ok ⟨didRead, readPending⟩ =>
    match ← write writer with
    | .error e => pure (some (.ready (.error e)))
    | .ok ⟨didWrite, writePending⟩ =>
      match ← ping writer writePending with
      | .error e => pure (some (.ready (.error e)))
      | .ok writePending =>
        if didRead && didWrite && !readPending && !writePending then pure none
        else settle writer readPending writePending

def pollCopy (fuel : Nat) (cx : Context ω) (reader writer : AsyncMessageStream ω) :
    Exec (Copying ω) (Poll (IoResult Unit)) := fun (me, w) =>
  match cx.pollProceed w with
  | (.pending, w) => (.returned .pending, me, w)
  | (.ready (), w) => Exec.loop (copyTurn reader writer) fuel (me, w)

end CopyBuffer

/-- One direction of the relay. -/
structure Transfer where
  state : TransferState
  buf : CopyBuffer
  deriving DecidableEq

/-- One turn of the loop of `transfer_one_direction`. -/
def transferTurn (fuel : Nat) (cx : Context ω) (r w : AsyncMessageStream ω) :
    Exec (Transfer × ω) (Option (Poll (IoResult Unit))) := fun (t, world) =>
  match t.state with
  | .running =>
      match CopyBuffer.pollCopy fuel cx r w (t.buf, world) with
      | (.returned (.ready (.ok ())), buf, world) =>
          (.returned none, { state := .shuttingDown, buf }, world)
      | (.returned (.ready (.error e)), buf, world) =>
          (.returned (some (.ready (.error e))), { t with buf }, world)
      | (.returned .pending, buf, world) => (.returned (some .pending), { t with buf }, world)
      | (.running, buf, world) => (.running, { t with buf }, world)
      | (.panicked, buf, world) => (.panicked, { t with buf }, world)
  | .shuttingDown =>
      match w.pollShutdownMessage world with
      | (.ready (.ok ()), world) => (.returned none, { t with state := .done }, world)
      | (.ready (.error e), world) => (.returned (some (.ready (.error e))), t, world)
      | (.pending, world) => (.returned (some .pending), t, world)
  | .done => (.returned (some (.ready (.ok ()))), t, world)

def transferOneDirection (fuel : Nat) (cx : Context ω) (r w : AsyncMessageStream ω) :
    Exec (Transfer × ω) (Poll (IoResult Unit)) :=
  Exec.loop (transferTurn fuel cx r w) fuel

/-- `CopyBidirectional`, less the two streams it borrows and the sleep future,
which belongs to the runtime. -/
structure CopyBidirectional where
  aToB : Transfer
  bToA : Transfer
  lastActive : Nat
  deriving DecidableEq

namespace CopyBidirectional

/-- A moment of the relay. -/
abbrev Relaying (ω : Type) := CopyBidirectional × ω

/-- Ask for a ping in each direction that supports it when the timer fires. -/
def pollSleep (cx : Context ω) (a b : AsyncMessageStream ω) : Exec (Relaying ω) Unit :=
  fun (me, w) =>
    match cx.pollSleep w with
    | (.ready (), w) =>
        (.returned (),
          { me with
            aToB := { me.aToB with buf := { me.aToB.buf with needWritePing := b.supportsPing w } }
            bToA := { me.bToA with
              buf := { me.bToA.buf with needWritePing := a.supportsPing w } } },
          cx.resetSleep w)
    | (.pending, w) => (.returned (), me, w)

/-- The relay is ready when one of its directions is. -/
def combine : Poll (IoResult Unit) → Poll (IoResult Unit) → Poll (IoResult Unit)
  | .ready result, _ => .ready result
  | .pending, bToA => bToA

/-- The end of a poll: whether something was read, or nothing for too long. -/
def conclude (cx : TimedContext ω) (aCount bCount : Nat) (aToB bToA : Poll (IoResult Unit)) :
    Exec (Relaying ω) (Poll (IoResult Unit)) := fun (me, w) =>
  if me.aToB.buf.readCount ≠ aCount ∨ me.bToA.buf.readCount ≠ bCount then
    (.returned (combine aToB bToA), { me with lastActive := cx.now w }, w)
  else if ASSOCIATION_TIMEOUT ≤ cx.now w - me.lastActive then (.returned (.ready (.ok ())), me, w)
  else (.returned (combine aToB bToA), me, w)

/-- The two directions of a poll, after the counts were looked at. -/
def transferBoth (fuel : Nat) (cx : TimedContext ω) (a b : AsyncMessageStream ω)
    (aCount bCount : Nat) : Exec (Relaying ω) (Poll (IoResult Unit)) := do
  let aToB ← Exec.zoom (fun s => (s.1.aToB, s.2)) (fun t s => ({ s.1 with aToB := t.1 }, t.2))
    (transferOneDirection fuel cx.toContext a b)
  let bToA ← Exec.zoom (fun s => (s.1.bToA, s.2)) (fun t s => ({ s.1 with bToA := t.1 }, t.2))
    (transferOneDirection fuel cx.toContext b a)
  conclude cx aCount bCount aToB bToA

def poll (fuel : Nat) (cx : TimedContext ω) (a b : AsyncMessageStream ω) :
    Exec (Relaying ω) (Poll (IoResult Unit)) := do
  pollSleep cx.toContext a b
  fun s => transferBoth fuel cx a b s.1.aToB.buf.readCount s.1.bToA.buf.readCount s

/-- One poll by the executor, after whatever happened in the world since the
last one. -/
structure Turn (ω : Type) where
  meanwhile : ω → ω
  fuel : Nat

/-- The polls of an awaited relay, up to the one that is ready. -/
def pollAll (cx : TimedContext ω) (a b : AsyncMessageStream ω) :
    List (Turn ω) → Exec (Relaying ω) (Poll (IoResult Unit))
  | [] => pure .pending
  | turn :: turns => do
      Exec.modify fun s => (s.1, turn.meanwhile s.2)
      match ← poll turn.fuel cx a b with
      | .pending => pollAll cx a b turns
      | answer => pure answer

end CopyBidirectional

/-- The future of `copy_bidirectional_message` before its first poll. -/
def copyBidirectionalMessage (memory : Side → Nat → UInt8) (now : Nat)
    (aInitialFlush bInitialFlush : Bool) : CopyBidirectional where
  aToB := ⟨.running, .new (memory .a) bInitialFlush⟩
  bToA := ⟨.running, .new (memory .b) aInitialFlush⟩
  lastActive := now

end UdpRelay

end RustProxy
