import RustProxy.AsyncStream
import RustProxy.Base.Ring

/-!
# The byte relay

`copy_bidirectional.rs`. A `CopyBuffer` is a circular buffer between a reader
and a writer: `poll_copy` fills its free run, writes out its used one, flushes,
and starts over until one side is pending or the input has ended with nothing
left to write. A direction then shuts its writer down, and the relay is done
when both directions are.

Slices of the buffer are checked as the code's are: one out of range is a
panic. The loops of one poll run on fuel.
-/

namespace RustProxy.Relay

def DEFAULT_BUF_SIZE : Nat := 16384

/-- The memory a fresh buffer is made of is whatever was there. -/
def allocateVec (memory : Nat → UInt8) (len : Nat) : Bytes := (List.range len).map memory

structure CopyBuffer where
  readDone : Bool
  needFlush : Bool
  needWritePing : Bool
  startIndex : Nat
  cacheLength : Nat
  size : Nat
  buf : Bytes
  deriving DecidableEq

namespace CopyBuffer

def new (memory : Nat → UInt8) (size : Nat) (needInitialFlush : Bool) : CopyBuffer where
  readDone := false
  needFlush := needInitialFlush
  needWritePing := false
  startIndex := 0
  cacheLength := 0
  size := size
  buf := allocateVec memory size

variable {ω : Type}

/-- A moment of `poll_copy`: its buffer and the world. -/
abbrev Copying (ω : Type) := CopyBuffer × ω

/-- One turn of the loop that fills the free part of the buffer. It ends with
an error, or tells whether the reader is pending. -/
def readTurn (reader : AsyncStream ω) : Exec (Copying ω) (Option (IoResult Bool)) := fun (me, w) =>
  if !me.readDone ∧ me.cacheLength < me.size then
    let unusedStartIndex := (me.startIndex + me.cacheLength) % me.size
    let unusedEndIndexExclusive :=
      if unusedStartIndex < me.startIndex then me.startIndex else me.size
    if unusedStartIndex ≤ unusedEndIndexExclusive ∧ unusedEndIndexExclusive ≤ me.buf.length then
      match reader.pollRead (unusedEndIndexExclusive - unusedStartIndex) w with
      | (.ready (.ok bytes), w) =>
          if bytes.length = 0 then (.returned none, { me with readDone := true }, w)
          else
            (.returned none,
              { me with
                buf := Ring.overwrite me.buf unusedStartIndex bytes
                cacheLength := me.cacheLength + bytes.length }, w)
      | (.ready (.error e), w) => (.returned (some (.error e)), me, w)
      | (.pending, w) => (.returned (some (.ok true)), me, w)
    else (.panicked, me, w)
  else (.returned (some (.ok false)), me, w)

/-- Write the ping that the timer asked for, unless data is about to be
written anyway. Tells whether the writer is pending. -/
def ping (writer : AsyncStream ω) : Exec (Copying ω) (IoResult Bool) := fun (me, w) =>
  if me.needWritePing then
    if me.cacheLength = 0 then
      match writer.pollWritePing w with
      | (.ready (.ok written), w) =>
          let me := { me with needWritePing := false }
          (.returned (.ok false), if written then { me with needFlush := true } else me, w)
      | (.ready (.error e), w) => (.returned (.error e), me, w)
      | (.pending, w) => (.returned (.ok true), me, w)
    else (.returned (.ok false), { me with needWritePing := false }, w)
  else (.returned (.ok false), me, w)

def writeZeroError : IoError := ⟨.writeZero, "write zero byte into writer"⟩

/-- One turn of the loop that writes out the used part of the buffer. It ends
with an error, or tells whether the writer is pending. -/
def writeTurn (writer : AsyncStream ω) : Exec (Copying ω) (Option (IoResult Bool)) := fun (me, w) =>
  if 0 < me.cacheLength then
    let usedStartIndex := me.startIndex
    let usedEndIndexExclusive := min (me.startIndex + me.cacheLength) me.size
    if usedStartIndex ≤ usedEndIndexExclusive ∧ usedEndIndexExclusive ≤ me.buf.length then
      let offered := (me.buf.drop usedStartIndex).take (usedEndIndexExclusive - usedStartIndex)
      match writer.pollWrite offered w with
      | (.ready (.ok written), w) =>
          if written = 0 then (.returned (some (.error writeZeroError)), me, w)
          else
            let cacheLength := me.cacheLength - written
            (.returned none,
              { me with
                cacheLength := cacheLength
                startIndex := if cacheLength = 0 then 0 else (me.startIndex + written) % me.size
                needFlush := true }, w)
      | (.ready (.error e), w) => (.returned (some (.error e)), me, w)
      | (.pending, w) => (.returned (some (.ok true)), me, w)
    else (.panicked, me, w)
  else (.returned (some (.ok false)), me, w)

/-- Flush what was written. `none` when the flush is through. -/
def flush (writer : AsyncStream ω) : Exec (Copying ω) (Option (Poll (IoResult Unit))) :=
  fun (me, w) =>
    if me.needFlush then
      match writer.pollFlush w with
      | (.ready (.ok ()), w) => (.returned none, { me with needFlush := false }, w)
      | (.ready (.error e), w) => (.returned (some (.ready (.error e))), me, w)
      | (.pending, w) => (.returned (some .pending), me, w)
    else (.returned none, me, w)

/-- Whether `poll_copy` is finished, waits, or goes round again. -/
def verdict (readPending writePending : Bool) :
    Exec (Copying ω) (Option (Poll (IoResult Unit))) := fun (me, w) =>
  if me.readDone ∧ me.cacheLength = 0 then (.returned (some (.ready (.ok ()))), me, w)
  else if readPending || writePending then (.returned (some .pending), me, w)
  else (.returned none, me, w)

/-- One round of `poll_copy`'s outer loop. -/
def copyRound (fuel : Nat) (reader writer : AsyncStream ω) :
    Exec (Copying ω) (Option (Poll (IoResult Unit))) := do
  match ← Exec.loop (readTurn reader) fuel with
  | .error e => pure (some (.ready (.error e)))
  | .ok readPending =>
    match ← ping writer with
    | .error e => pure (some (.ready (.error e)))
    | .ok pingPending =>
      match ← Exec.loop (writeTurn writer) fuel with
      | .error e => pure (some (.ready (.error e)))
      | .ok writePending =>
        match ← flush writer with
        | some answer => pure (some answer)
        | none => verdict readPending (pingPending || writePending)

def pollCopy (fuel : Nat) (cx : Context ω) (reader writer : AsyncStream ω) :
    Exec (Copying ω) (Poll (IoResult Unit)) := fun (me, w) =>
  match cx.pollProceed w with
  | (.pending, w) => (.returned .pending, me, w)
  | (.ready (), w) => Exec.loop (copyRound fuel reader writer) fuel (me, w)

end CopyBuffer

inductive TransferState where
  | running
  | shuttingDown
  | done
  deriving DecidableEq, Repr

/-- One direction of the relay. -/
structure Transfer where
  state : TransferState
  buf : CopyBuffer
  deriving DecidableEq

variable {ω : Type}

/-- One turn of the loop of `transfer_one_direction`. -/
def transferTurn (fuel : Nat) (cx : Context ω) (r w : AsyncStream ω) :
    Exec (Transfer × ω) (Option (Poll (IoResult Unit))) := fun (t, world) =>
  match t.state with
  | .running =>
      match CopyBuffer.pollCopy fuel cx r w (t.buf, world) with
      | (.returned (.ready (.ok ())), buf, world) =>
          (.returned none, { state := .shuttingDown, buf }, world)
      | (.returned (.ready (.error e)), buf, world) =>
          (.returned (some (.ready (.error e))), { t with buf }, world)
      | (.returned .pending, buf, world) => (.returned (some .pending), { t with buf }, world)
      | (.running, buf, world) => (.running, { t with buf }, world)
      | (.panicked, buf, world) => (.panicked, { t with buf }, world)
  | .shuttingDown =>
      match w.pollShutdown world with
      | (.ready (.ok ()), world) => (.returned none, { t with state := .done }, world)
      | (.ready (.error e), world) => (.returned (some (.ready (.error e))), t, world)
      | (.pending, world) => (.returned (some .pending), t, world)
  | .done => (.returned (some (.ready (.ok ()))), t, world)

def transferOneDirection (fuel : Nat) (cx : Context ω) (r w : AsyncStream ω) :
    Exec (Transfer × ω) (Poll (IoResult Unit)) :=
  Exec.loop (transferTurn fuel cx r w) fuel

/-- `CopyBidirectional`, less the two streams it borrows. `pings` tells whether
there is a `sleep_future`, which drives the pings. -/
structure CopyBidirectional where
  aToB : Transfer
  bToA : Transfer
  pings : Bool
  deriving DecidableEq

namespace CopyBidirectional

/-- A moment of the relay. -/
abbrev Relaying (ω : Type) := CopyBidirectional × ω

/-- Ask for a ping in each direction that supports it when the timer fires. -/
def pollSleep (cx : Context ω) (a b : AsyncStream ω) : Exec (Relaying ω) Unit := fun (me, w) =>
  if me.pings then
    match cx.pollSleep w with
    | (.ready (), w) =>
        (.returned (),
          { me with
            aToB := { me.aToB with buf := { me.aToB.buf with needWritePing := b.supportsPing w } }
            bToA := { me.bToA with
              buf := { me.bToA.buf with needWritePing := a.supportsPing w } } },
          cx.resetSleep w)
    | (.pending, w) => (.returned (), me, w)
  else (.returned (), me, w)

/-- The answer of the relay, from those of its two directions. -/
def combine : Poll (IoResult Unit) → Poll (IoResult Unit) → Poll (IoResult Unit)
  | .ready (.error e), _ => .ready (.error e)
  | _, .ready (.error e) => .ready (.error e)
  | .ready (.ok ()), .ready (.ok ()) => .ready (.ok ())
  | _, _ => .pending

def poll (fuel : Nat) (cx : Context ω) (a b : AsyncStream ω) :
    Exec (Relaying ω) (Poll (IoResult Unit)) := do
  pollSleep cx a b
  let aToB ← Exec.zoom (fun s => (s.1.aToB, s.2)) (fun t s => ({ s.1 with aToB := t.1 }, t.2))
    (transferOneDirection fuel cx a b)
  let bToA ← Exec.zoom (fun s => (s.1.bToA, s.2)) (fun t s => ({ s.1 with bToA := t.1 }, t.2))
    (transferOneDirection fuel cx b a)
  pure (combine aToB bToA)

/-- One poll by the executor, after whatever happened in the world since the
last one. -/
structure Turn (ω : Type) where
  meanwhile : ω → ω
  fuel : Nat

/-- The polls of an awaited relay, up to the one that is ready. -/
def pollAll (cx : Context ω) (a b : AsyncStream ω) :
    List (Turn ω) → Exec (Relaying ω) (Poll (IoResult Unit))
  | [] => pure .pending
  | turn :: turns => do
      Exec.modify fun s => (s.1, turn.meanwhile s.2)
      match ← poll turn.fuel cx a b with
      | .pending => pollAll cx a b turns
      | answer => pure answer

end CopyBidirectional

/-- The future of `copy_bidirectional_with_sizes` before its first poll. -/
def copyBidirectionalWithSizes (memory : Side → Nat → UInt8) (a b : AsyncStream ω) (w : ω)
    (aNeedInitialFlush bNeedInitialFlush : Bool) (aToBBufSize bToABufSize : Nat) :
    CopyBidirectional where
  aToB := ⟨.running, .new (memory .a) aToBBufSize bNeedInitialFlush⟩
  bToA := ⟨.running, .new (memory .b) bToABufSize aNeedInitialFlush⟩
  pings := a.supportsPing w || b.supportsPing w

def copyBidirectional (memory : Side → Nat → UInt8) (a b : AsyncStream ω) (w : ω)
    (aNeedInitialFlush bNeedInitialFlush : Bool) : CopyBidirectional :=
  copyBidirectionalWithSizes memory a b w aNeedInitialFlush bNeedInitialFlush
    DEFAULT_BUF_SIZE DEFAULT_BUF_SIZE

end RustProxy.Relay
