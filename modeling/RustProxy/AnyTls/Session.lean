import RustProxy.AnyTls.Stream
import RustProxy.AnyTls.Types

/-!
# An AnyTLS session

`anytls/session.rs`, as the tasks of one session: the receive loop inside
`run`, the outgoing loop, and one task for every stream that a SYN opened. A
step is what one task does between two of its await points; the tasks take
their steps in any order. Waiting for a lock, for room in a channel, for the
connection or for a timer is an await point, and the event that ends it says
how it came out.

A SYN that is accepted makes an instance of its stream id, named by its place
in `instances`; ids may be reused, places are not. What an instance read,
wrote and sent is kept beside it, with the frames that arrived and the frames
on the wire, to speak about them later: no step looks at that part.

The session neither pads nor buffers what it writes (`send_padding` and
`buffering` start as false and are never set), and it owns the receiver of the
outgoing channel, so that channel is not closed while a stream is there to
notice. A frame is on the wire when its write is complete.
-/

namespace RustProxy.AnyTls

/-- The capacity of the channel to the outgoing loop. -/
def OUTGOING_BUFFER : Nat := STREAM_CHANNEL_BUFFER * 4

/-- The await points of a stream task. -/
inductive TaskAt where
  /-- reading the destination, or connecting to it -/
  | opening
  /-- writing the SYNACK, with the error it reports -/
  | synack (error : Option Bytes)
  /-- in `close`, after the SYNACK timed out -/
  | closing (error : Option Bytes)
  | relaying
  /-- past the handler, waiting for `stream_tasks` -/
  | ending
  | finished
  /-- aborted and dropped -/
  | dropped
  deriving DecidableEq, Repr

/-- A stream opened by a SYN, with its task. -/
structure Instance where
  id : UInt32
  stream : Option AnyTlsStream
  /-- the channel from the receive loop -/
  inbound : List Bytes
  task : TaskAt
  aborted : Bool
  /-- frames that had arrived when the SYN was accepted -/
  synAt : Nat
  /-- bytes read from the stream -/
  read : Bytes
  /-- the reader got the client's FIN -/
  finRead : Bool
  /-- bytes that `poll_write` reported as accepted -/
  accepted : Bytes
  /-- items sent to the outgoing loop -/
  sent : List Bytes
  deriving DecidableEq

namespace Instance

def new (id : UInt32) (synAt : Nat) : Instance where
  id := id
  stream := some (AnyTlsStream.new id)
  inbound := []
  task := .opening
  aborted := false
  synAt := synAt
  read := []
  finRead := false
  accepted := []
  sent := []

/-- The task will do nothing more. -/
def isOver (inst : Instance) : Bool := inst.task = .finished || inst.task = .dropped

end Instance

/-- An item of the outgoing channel, and the instance that sent it. -/
structure Item where
  origin : Nat
  streamId : UInt32
  data : Bytes
  deriving DecidableEq, Repr

/-- The frame that `process_outgoing` makes of an item. -/
def Item.frame (item : Item) : Frame :=
  if item.data.isEmpty then .control .fin item.streamId else .psh item.streamId item.data

/-- Control frames that `handle_frame` writes. -/
inductive Control where
  | missingSettings
  | updatePaddingScheme (version : Option UInt8)
  | serverSettings
  | heartResponse (streamId : UInt32)
  deriving DecidableEq, Repr

def Control.frame (padding : Padding) : Control → Frame
  | .missingSettings =>
      .withData .alert 0 ("client did not send its settings".toUTF8.toList)
  | .updatePaddingScheme _ => .withData .updatePaddingScheme 0 padding.rawScheme
  | .serverSettings => .withData .serverSettings 0 ("v=2".toUTF8.toList)
  | .heartResponse streamId => .control .heartResponse streamId

/-- The await points of `run` and the receive loop inside it. `top` and
`decoding` are none, but other tasks may run before them. -/
inductive RecvAt where
  | top
  | decoding
  | reading
  | pshLookup (streamId : UInt32) (data : Bytes)
  | pshSend (target : Nat) (data : Bytes)
  | synLookup (streamId : UInt32)
  | synStore (streamId : UInt32) (target : Nat)
  | finLookup (streamId : UInt32)
  | finSend (target : Nat)
  | writing (control : Control)
  | closing
  | returned
  deriving DecidableEq

inductive OutgoingAt where
  | receiving
  | writing (item : Item)
  | removing (item : Item)
  | stopped
  deriving DecidableEq, Repr

/-- Who runs the body of `close`: only the first caller does. -/
inductive Closer where
  | run
  | task (i : Nat)
  deriving DecidableEq, Repr

inductive CloseAt where
  | uncalled
  | draining (by_ : Closer)
  | clearing (by_ : Closer)
  /-- shutting the writer down, with the lock of `streams` held -/
  | shuttingWriter (by_ : Closer)
  | done
  /-- the closer was dropped before or after it cleared `streams` -/
  | abandoned (cleared : Bool)
  deriving DecidableEq, Repr

structure Session where
  streams : Table UInt32 Nat
  streamTasks : Table UInt32 Nat
  instances : List Instance
  outgoing : List Item
  /-- instances waiting for room in `outgoing`, and those handed a place -/
  waiting : List Nat
  granted : List Nat
  receivedClientSettings : Bool
  peerVersion : UInt8
  recv : RecvAt
  outgoingTask : OutgoingAt
  close : CloseAt
  arrived : List Frame
  wire : List (Option Nat × Frame)
  deriving DecidableEq

namespace Session

def start : Session where
  streams := ∅
  streamTasks := ∅
  instances := []
  outgoing := []
  waiting := []
  granted := []
  receivedClientSettings := false
  peerVersion := 0
  recv := .top
  outgoingTask := .receiving
  close := .uncalled
  arrived := []
  wire := []

def isClosed (s : Session) : Bool := s.close ≠ .uncalled

/-- Nobody holds the lock of `streams` across an await point. -/
def streamsFree (s : Session) : Bool :=
  match s.close with
  | .shuttingWriter _ => false
  | _ => true

def modifyInstance (i : Nat) (f : Instance → Instance) (s : Session) : Session :=
  { s with instances := s.instances.modify i f }

def setTask (i : Nat) (task : TaskAt) (s : Session) : Session :=
  s.modifyInstance i fun inst => { inst with task }

section Channels

/-- Places in the outgoing channel that are neither taken nor promised. -/
def available (s : Session) : Nat := OUTGOING_BUFFER - s.outgoing.length - s.granted.length

/-- Hand a free place to whoever has waited longest. -/
def handOver (s : Session) : Session :=
  match s.waiting with
  | [] => s
  | i :: waiting =>
      if 0 < s.available then { s with waiting, granted := s.granted ++ [i] } else s

def pollReserve (i : Nat) (budget : Bool) (s : Session) : Poll Reservation × Session :=
  if !budget then (.pending, s)
  else if i ∈ s.granted then (.ready .granted, { s with granted := s.granted.erase i })
  else if i ∈ s.waiting then (.pending, s)
  else if 0 < s.available then (.ready .granted, s)
  else (.pending, { s with waiting := s.waiting ++ [i] })

def sendItem (i : Nat) (item : UInt32 × Bytes) (s : Session) : Session :=
  { s with
    outgoing := s.outgoing ++ [⟨i, item.1, item.2⟩]
    instances := s.instances.modify i fun inst => { inst with sent := inst.sent ++ [item.2] } }

/-- `try_send`: it fails when the channel is full. -/
def trySend (i : Nat) (item : UInt32 × Bytes) (s : Session) : Session :=
  if 0 < s.available then s.sendItem i item else s

/-- The `PollSender` of an instance. `budget` is what is left of the task's
cooperative budget. -/
def dataTx (i : Nat) (budget : Bool) : PollSender Session where
  pollReserve := pollReserve i budget
  sendItem item s := some (s.sendItem i item)

/-- Someone can still send to the instance: its entry in `streams`, or the
receive loop with a sender it has cloned or removed. -/
def hasSender (s : Session) (i : Nat) : Bool :=
  s.streams.entries.any (fun entry => entry.2 = i) ||
    match s.recv with
    | .pshSend target _ => target = i
    | .finSend target => target = i
    | _ => false

/-- `data_rx.poll_recv`. -/
def pollRecv (i : Nat) (budget : Bool) (s : Session) : Poll (Option Bytes) × Session :=
  match s.instances[i]? with
  | none => (.pending, s)
  | some inst =>
      if !budget then (.pending, s)
      else
        match inst.inbound with
        | data :: inbound =>
            (.ready (some data), s.modifyInstance i fun inst =>
              { inst with inbound, finRead := inst.finRead || data.isEmpty })
        | [] => if s.hasSender i then (.pending, s) else (.ready none, s)

end Channels

section Streams

/-- Run an operation of an instance's stream and put the stream back. -/
def withStream {α : Type} (i : Nat)
    (op : AnyTlsStream → Session → Poll (IoResult α) × AnyTlsStream × Session) (s : Session) :
    Poll (IoResult α) × Session :=
  match s.instances[i]?.bind Instance.stream with
  | none => (.pending, s)
  | some me =>
      let (answer, me, s) := op me s
      (answer, s.modifyInstance i fun inst => { inst with stream := some me })

def pollRead (i room : Nat) (budget : Bool) (s : Session) : Poll (IoResult Bytes) × Session :=
  match s.withStream i fun me => me.pollRead room (pollRecv i budget) with
  | (.ready (.ok bytes), s) =>
      (.ready (.ok bytes), s.modifyInstance i fun inst => { inst with read := inst.read ++ bytes })
  | ended => ended

def pollWrite (i : Nat) (buf : Bytes) (budget : Bool) (s : Session) :
    Poll (IoResult Nat) × Session :=
  match s.withStream i fun me => me.pollWrite buf (dataTx i budget) s.isClosed with
  | (.ready (.ok n), s) =>
      (.ready (.ok n), s.modifyInstance i fun inst =>
        { inst with accepted := inst.accepted ++ buf.take n })
  | ended => ended

def pollShutdown (i : Nat) (budget : Bool) (s : Session) : Poll (IoResult Unit) × Session :=
  s.withStream i fun me => me.pollShutdown (dataTx i budget) s.isClosed

/-- Drop an instance's stream: its FIN, its place in the outgoing channel, and
what the receive loop had pushed for it. -/
def dropStream (i : Nat) (s : Session) : Session :=
  match s.instances[i]?.bind Instance.stream with
  | none => s
  | some me =>
      let s := me.drop (trySend i) s
      let s := handOver { s with waiting := s.waiting.erase i, granted := s.granted.erase i }
      s.modifyInstance i fun inst => { inst with stream := none, inbound := [] }

end Streams

section Close

/-- The rest of `run` after `close`. -/
def returnFromRun (s : Session) : Session := { s with recv := .returned }

/-- Leave the receive loop, by itself or after a control frame timed out: the
caller of `close` is the task of `run` either way, and when somebody else has
called it before there is nothing left to wait for. -/
def leaveRecvLoop (s : Session) : Session :=
  if s.isClosed then s.returnFromRun
  else { s with recv := .closing, close := .draining .run }

/-- Abort the tasks whose handles are in the map. -/
def abortAll (streamTasks : Table UInt32 Nat) (instances : List Instance) : List Instance :=
  instances.mapIdx fun i inst =>
    if streamTasks.entries.any (fun entry => entry.2 = i) then { inst with aborted := true }
    else inst

def drainTasks (s : Session) : Session :=
  { s with
    instances := abortAll s.streamTasks s.instances
    streamTasks := ∅ }

/-- Past the SYNACK: relay, or return the error it reported. -/
def afterSynack (i : Nat) (error : Option Bytes) (s : Session) : Session :=
  match error with
  | none => s.setTask i .relaying
  | some _ => (s.dropStream i).setTask i .ending

/-- The body of `close` is through. -/
def finishClose (s : Session) : Closer → Session
  | .run => returnFromRun { s with close := .done }
  | .task i =>
      match (s.instances[i]?).map Instance.task with
      | some (.closing error) => afterSynack i error { s with close := .done }
      | _ => { s with close := .done }

end Close

section Receive

/-- `settings.get("v")`, when it is a version the server answers. -/
def clientVersion (settings : StringMap) : Option UInt8 :=
  (((settings.get "v").bind (parseUnsigned 255)).map UInt8.ofNat).filter (2 ≤ ·)

/-- Store the client's version and answer it. -/
def answerVersion (version : Option UInt8) (s : Session) : Session :=
  match version with
  | some v => { s with peerVersion := v, recv := .writing .serverSettings }
  | none => { s with recv := .decoding }

/-- `handle_frame`, up to its first await point. -/
def handleFrame (padding : Padding) (frame : Frame) (s : Session) : Session :=
  match frame.cmd with
  | .psh =>
      if frame.data.isEmpty then { s with recv := .decoding }
      else { s with recv := .pshLookup frame.streamId frame.data }
  | .syn =>
      if s.receivedClientSettings then { s with recv := .synLookup frame.streamId }
      else { s with recv := .writing .missingSettings }
  | .fin => { s with recv := .finLookup frame.streamId }
  | .settings =>
      let s := { s with receivedClientSettings := true }
      let settings := StringMap.fromBytes frame.data
      if (settings.get "padding-md5").any (· ≠ padding.md5) then
        { s with recv := .writing (.updatePaddingScheme (clientVersion settings)) }
      else s.answerVersion (clientVersion settings)
  | .heartRequest => { s with recv := .writing (.heartResponse frame.streamId) }
  | .alert => s.leaveRecvLoop
  | .waste | .synAck | .serverSettings | .updatePaddingScheme | .heartResponse =>
      { s with recv := .decoding }

/-- `handle_frame` after a control frame was written. -/
def afterControl (s : Session) : Control → Session
  | .missingSettings => s.leaveRecvLoop
  | .updatePaddingScheme version => s.answerVersion version
  | .serverSettings | .heartResponse _ => { s with recv := .decoding }

/-- A SYN is accepted: the entry is made and the task spawned. -/
def accept (streamId : UInt32) (s : Session) : Session :=
  { s with
    streams := s.streams.insert streamId s.instances.length
    instances := s.instances ++ [Instance.new streamId s.arrived.length]
    recv := .synStore streamId s.instances.length }

/-- The receive loop got the lock of `streams`. -/
def lookUp (s : Session) : Option Session :=
  match s.recv with
  | .pshLookup streamId data =>
      match s.streams.lookup streamId with
      | some target => some { s with recv := .pshSend target data }
      | none => some { s with recv := .decoding }
  | .synLookup streamId =>
      match s.streams.lookup streamId with
      | some _ => some { s with recv := .decoding }
      | none => some (s.accept streamId)
  | .finLookup streamId =>
      match s.streams.lookup streamId with
      | some target =>
          some { s with streams := s.streams.erase streamId, recv := .finSend target }
      | none => some { s with recv := .decoding }
  | _ => none

/-- `tx.send`: it waits for room, and fails when the receiver is gone. -/
def push (target : Nat) (data : Bytes) (s : Session) : Option Session :=
  match s.instances[target]? with
  | none => none
  | some inst =>
      if inst.stream.isNone then some { s with recv := .decoding }
      else if inst.inbound.length < STREAM_CHANNEL_BUFFER then
        some { (s.modifyInstance target fun inst =>
          { inst with inbound := inst.inbound ++ [data] }) with recv := .decoding }
      else none

end Receive

end Session

/-- What ends a wait of the receive loop. -/
inductive RecvEvent where
  /-- the loop looks at `is_closed` -/
  | loopTop
  | decoded (frame : Frame)
  | undecodable
  | exhausted
  | received
  | readEnded
  | streamsLocked
  | pushed
  | handleStored
  | controlWritten
  | controlFailed
  | controlTimedOut
  deriving DecidableEq

/-- What ends a wait of the body of `close`. -/
inductive CloseEvent where
  | tasksDrained
  | streamsCleared (writerFree : Bool)
  | writerShut
  deriving DecidableEq

/-- What ends a wait of the outgoing loop. -/
inductive OutgoingEvent where
  | taken
  | frameWritten
  | frameFailed
  | entryRemoved
  | dropped
  deriving DecidableEq

/-- What ends a wait of a stream task. `budget` is what is left of the task's
cooperative budget. -/
inductive TaskEvent where
  | read (room : Nat) (budget : Bool)
  | write (buf : Bytes) (budget : Bool)
  | shutdown (budget : Bool)
  /-- the destination is connected to, or is not -/
  | opened (error : Option Bytes)
  | synackWritten
  | synackFailed
  | synackTimedOut
  | handlerReturned
  | cleanedUp
  | dropped
  deriving DecidableEq

inductive Event where
  | recv (event : RecvEvent)
  | close (event : CloseEvent)
  | outgoing (event : OutgoingEvent)
  | task (i : Nat) (event : TaskEvent)
  deriving DecidableEq

namespace Session

/-- The SYNACK of a stream. -/
def synackFrame (streamId : UInt32) : Option Bytes → Frame
  | some error => .withData .synAck streamId error
  | none => .control .synAck streamId

/-- Steps of the receive loop. -/
def recvStep (padding : Padding) (s : Session) : RecvEvent → Option Session
  | .loopTop =>
      if s.recv = .top then
        some (if s.isClosed then s.leaveRecvLoop else { s with recv := .decoding })
      else none
  | .decoded frame =>
      if s.recv = .decoding then
        some ({ s with arrived := s.arrived ++ [frame] }.handleFrame padding frame)
      else none
  | .undecodable => if s.recv = .decoding then some s.leaveRecvLoop else none
  | .exhausted => if s.recv = .decoding then some { s with recv := .reading } else none
  | .received => if s.recv = .reading then some { s with recv := .top } else none
  | .readEnded => if s.recv = .reading then some s.leaveRecvLoop else none
  | .streamsLocked => if s.streamsFree then s.lookUp else none
  | .pushed =>
      match s.recv with
      | .pshSend target data => s.push target data
      | .finSend target => s.push target []
      | _ => none
  | .handleStored =>
      match s.recv with
      | .synStore streamId target =>
          some { s with streamTasks := s.streamTasks.insert streamId target, recv := .decoding }
      | _ => none
  | .controlWritten =>
      match s.recv with
      | .writing control =>
          some ({ s with wire := s.wire ++ [(none, control.frame padding)] }.afterControl control)
      | _ => none
  | .controlFailed | .controlTimedOut =>
      match s.recv with
      | .writing _ => some s.leaveRecvLoop
      | _ => none

/-- Steps of the body of `close`. -/
def closeStep (s : Session) : CloseEvent → Option Session
  | .tasksDrained =>
      match s.close with
      | .draining closer => some { s.drainTasks with close := .clearing closer }
      | _ => none
  | .streamsCleared writerFree =>
      match s.close with
      | .clearing closer =>
          let s := { s with streams := ∅ }
          some (if writerFree then { s with close := .shuttingWriter closer }
            else s.finishClose closer)
      | _ => none
  | .writerShut =>
      match s.close with
      | .shuttingWriter closer => some (s.finishClose closer)
      | _ => none

/-- Steps of the outgoing loop, which `run` aborts when it returns. -/
def outgoingStep (s : Session) : OutgoingEvent → Option Session
  | .taken =>
      match s.outgoingTask, s.outgoing with
      | .receiving, item :: outgoing =>
          some { handOver { s with outgoing } with
            outgoingTask := if s.isClosed then .stopped else .writing item }
      | _, _ => none
  | .frameWritten =>
      match s.outgoingTask with
      | .writing item =>
          some { s with
            wire := s.wire ++ [(some item.origin, item.frame)]
            outgoingTask := if item.data.isEmpty then .removing item else .receiving }
      | _ => none
  | .frameFailed =>
      match s.outgoingTask with
      | .writing item =>
          some { s with outgoingTask := if item.data.isEmpty then .removing item else .stopped }
      | _ => none
  | .entryRemoved =>
      match s.outgoingTask with
      | .removing item =>
          if s.streamsFree then
            some { s with streams := s.streams.erase item.streamId, outgoingTask := .receiving }
          else none
      | _ => none
  | .dropped => if s.recv = .returned then some { s with outgoingTask := .stopped } else none

/-- The closer of a session is dropped: `close` stays as far as it got, and the
lock it held is free again. -/
def abandonClose (i : Nat) : CloseAt → CloseAt
  | .draining (.task j) => if j = i then .abandoned false else .draining (.task j)
  | .clearing (.task j) => if j = i then .abandoned false else .clearing (.task j)
  | .shuttingWriter (.task j) => if j = i then .abandoned true else .shuttingWriter (.task j)
  | unaffected => unaffected

/-- Steps of the task of instance `i`, which is `inst`. -/
def taskStep (s : Session) (i : Nat) (inst : Instance) : TaskEvent → Option Session
  | .read room budget =>
      if inst.task = .opening ∨ inst.task = .relaying then some (s.pollRead i room budget).2
      else none
  | .write buf budget =>
      if inst.task = .relaying then some (s.pollWrite i buf budget).2 else none
  | .shutdown budget =>
      if inst.task = .relaying then some (s.pollShutdown i budget).2 else none
  | .opened error =>
      if inst.task = .opening then
        some (if s.peerVersion < 2 then s.afterSynack i error else s.setTask i (.synack error))
      else none
  | .synackWritten =>
      match inst.task with
      | .synack error =>
          some ({ s with
            wire := s.wire ++ [(some i, synackFrame inst.id error)] }.afterSynack i error)
      | _ => none
  | .synackFailed =>
      match inst.task with
      | .synack error => some (s.afterSynack i error)
      | _ => none
  | .synackTimedOut =>
      match inst.task with
      | .synack error =>
          some (if s.isClosed then s.afterSynack i error
            else { s with close := .draining (.task i) }.setTask i (.closing error))
      | _ => none
  | .handlerReturned =>
      if inst.task = .opening ∨ inst.task = .relaying then
        some ((s.dropStream i).setTask i .ending)
      else none
  | .cleanedUp =>
      if inst.task = .ending then
        some ({ s with streamTasks := s.streamTasks.erase inst.id }.setTask i .finished)
      else none
  | .dropped =>
      if inst.aborted && !inst.isOver then
        some (({ s with close := abandonClose i s.close }.dropStream i).setTask i .dropped)
      else none

/-- One step of a session. -/
def step (padding : Padding) (s : Session) : Event → Option Session
  | .recv event => s.recvStep padding event
  | .close event => s.closeStep event
  | .outgoing event => s.outgoingStep event
  | .task i event => (s.instances[i]?).bind fun inst => s.taskStep i inst event

end Session

end RustProxy.AnyTls
