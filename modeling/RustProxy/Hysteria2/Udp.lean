import RustProxy.Address
import RustProxy.Base.Spawn

/-!
# The Hysteria2 UDP loop

`run_udp_local_to_remote_loop` of `hysteria2.rs`, one iteration at a time: the
clean-up pass, the session a datagram enters or opens, the reassembly of
fragments, the choice of a destination and the send. What an iteration takes
from outside (two clock readings, the datagram, the outcome of creating a
socket and of sending, the resolver's answers) is its input.

Each session has a receive task, `run_udp_remote_to_local_loop`, spawned when
the session opens. It shares the session's socket and holds a child of the
connection's cancellation token; both are named by the task's index in the
list of tasks ever spawned. The loop cancels a token, it never joins a task:
a task ends by itself.

Slice indexing, `unwrap` and checked addition are the places where the loop can
panic; each is a `Fault` here and ends the loop.
-/

namespace RustProxy.Hysteria2

/-- A Rust panic, by what caused it. -/
inductive Fault where
  | index
  | unwrap
  | overflow
  deriving DecidableEq, Repr

def MAX_FRAGMENT_CACHE_SIZE : Nat := 256
def CLEANUP_INTERVAL : Nat := seconds 10
def IDLE_TIMEOUT : Nat := seconds 60

/-- The first value a `usize` cannot hold. -/
def usizeBound : Nat := 2 ^ 64

/-! ## Datagrams and reassembly -/

/-- A datagram whose header parsed. QUIC carries it in one UDP datagram, whose
length has sixteen bits. -/
structure Datagram where
  sessionId : UInt32
  packetId : UInt16
  fragmentId : UInt8
  fragmentCount : UInt8
  remoteLocation : NetLocation
  payload : Bytes
  carried : payload.length < 2 ^ 16

theorem carried_byte (byte : UInt8) : ([byte] : Bytes).length < 2 ^ 16 := by simp

theorem carried_zero : ([0] : Bytes).length < 2 ^ 16 := carried_byte 0

structure FragmentedPacket where
  fragmentCount : UInt8
  fragmentReceived : UInt8
  packetLen : Nat
  received : List (Option Bytes)
  remoteLocation : NetLocation
  deriving DecidableEq, Repr

namespace FragmentedPacket

/-- The entry made for the first fragment of a packet to arrive. -/
def new (d : Datagram) : FragmentedPacket where
  fragmentCount := d.fragmentCount
  fragmentReceived := 0
  packetLen := 0
  received := List.replicate d.fragmentCount.toNat none
  remoteLocation := d.remoteLocation

/-- Count a fragment and store it in its slot. -/
def fill (p : FragmentedPacket) (fragmentId : UInt8) (payload : Bytes) :
    Except Fault FragmentedPacket :=
  if p.fragmentReceived = 255 ∨ usizeBound ≤ p.packetLen + payload.length then
    .error .overflow
  else
    .ok { p with
      fragmentReceived := p.fragmentReceived + 1
      packetLen := p.packetLen + payload.length
      received := p.received.set fragmentId.toNat (some payload) }

end FragmentedPacket

/-- Unwrap every slot and concatenate. -/
def joinSlots : List (Option Bytes) → Except Fault Bytes
  | [] => .ok []
  | none :: _ => .error .unwrap
  | some fragment :: rest => (joinSlots rest).map (fragment ++ ·)

abbrev FragmentCache := Lru UInt16 FragmentedPacket MAX_FRAGMENT_CACHE_SIZE

/-- The reassembly branch: the cache afterwards, with a payload and its
location when the datagram completes a packet. -/
def reassemble (fragments : FragmentCache) (d : Datagram) :
    Except Fault (FragmentCache × Option (Bytes × NetLocation)) :=
  if d.fragmentCount = 0 then .ok (fragments, none)
  else if d.fragmentCount = 1 then .ok (fragments, some (d.payload, d.remoteLocation))
  else
    let isNew := !fragments.contains d.packetId
    let fragments := if isNew then fragments.put d.packetId (.new d) else fragments
    match fragments.getMut d.packetId with
    | none => .ok (fragments, none)
    | some (entry, fragments) =>
        if entry.fragmentCount ≠ d.fragmentCount then .ok (fragments.pop d.packetId, none)
        else
          match entry.received[d.fragmentId.toNat]? with
          | none => .error .index
          | some (some _) => .ok (fragments.pop d.packetId, none)
          | some none => do
              let entry ← entry.fill d.fragmentId d.payload
              -- the writes go through the reference `get_mut` returned
              let fragments := fragments.put d.packetId entry
              if entry.fragmentReceived ≠ entry.fragmentCount then .ok (fragments, none)
              else
                match fragments.get? d.packetId with
                | none => .error .unwrap
                | some packet => do
                    let completePayload ← joinSlots packet.received
                    .ok (fragments.pop d.packetId,
                      some (completePayload, packet.remoteLocation))

/-! ## Sessions and the loop -/

/-- A session; `cancelToken` is the index of the task spawned with it, which
shares its token and its socket. -/
structure UdpSession where
  fragments : FragmentCache
  lastLocation : NetLocation
  lastSocketAddr : SocketAddr
  overrideRemoteWriteAddress : Option SocketAddr
  lastActivity : Nat
  cancelToken : Nat

/-- A spawned `run_udp_remote_to_local_loop`: its session id, and the location
that replaces the source address in what it sends to the client. -/
abbrev RecvTask := Spawn.Task UInt32 (Option NetLocation)

inductive LoopStatus where
  | running
  | returned
  | panicked (fault : Fault)
  deriving DecidableEq, Repr

structure UdpLoop where
  sessions : Table UInt32 UdpSession
  lastCleanup : Nat
  tasks : List RecvTask
  status : LoopStatus

/-- What `read_datagram` and the header parse yield. -/
inductive ReadDatagram where
  | failed
  | ignored
  | headed (d : Datagram)

/-- What one iteration takes from outside, the resolver apart. -/
structure Iteration where
  now : Nat
  cleanupNow : Nat
  read : ReadDatagram
  newUdpSocket : Bool
  startedAt : Nat
  sendTo : Bool

/-- A call of `send_to` on a session's socket. -/
structure SendTo where
  sessionId : UInt32
  payload : Bytes
  addr : SocketAddr
  deriving DecidableEq, Repr

abbrev Resolve := NetLocation → Option SocketAddr

namespace UdpLoop

def initial (now : Nat) : UdpLoop where
  sessions := ∅
  lastCleanup := now
  tasks := []
  status := .running

/-- Leaving the loop drops its sessions; dropping a token does not cancel it. -/
def leave (s : UdpLoop) (status : LoopStatus) : UdpLoop :=
  { s with sessions := ∅, status }

end UdpLoop

def isActive (cleanupNow : Nat) (_ : UInt32) (session : UdpSession) : Bool :=
  !decide (IDLE_TIMEOUT < cleanupNow - session.lastActivity)

/-- The clean-up pass at the head of an iteration. -/
def cleanUp (s : UdpLoop) (it : Iteration) : UdpLoop :=
  if CLEANUP_INTERVAL < it.now - s.lastCleanup then
    { s with
      sessions := s.sessions.retain (isActive it.cleanupNow)
      tasks := Spawn.cancel
        ((s.sessions.dropped (isActive it.cleanupNow)).map UdpSession.cancelToken) s.tasks
      lastCleanup := it.now }
  else s

/-- `UdpSession::start`: a session without fragments, and its receive task. -/
def UdpSession.start (s : UdpLoop) (sessionId : UInt32) (initialLocation : NetLocation)
    (initialSocketAddr : SocketAddr) (overrideLocalWriteLocation : Option NetLocation)
    (overrideRemoteWriteAddress : Option SocketAddr) (now : Nat) : UdpSession × List RecvTask :=
  ({ fragments := Lru.empty
     lastLocation := initialLocation
     lastSocketAddr := initialSocketAddr
     overrideRemoteWriteAddress
     lastActivity := now
     cancelToken := s.tasks.length },
   s.tasks ++ [Spawn.Task.fresh sessionId overrideLocalWriteLocation])

/-- Why a datagram enters no session. -/
inductive Refusal where
  | unresolved
  | noSocket
  deriving DecidableEq, Repr

/-- The session of a datagram, opened when the table has none. -/
def enterSession (resolve : Resolve) (s : UdpLoop) (it : Iteration) (d : Datagram) :
    Except Refusal (UdpSession × UdpLoop) :=
  match s.sessions.lookup d.sessionId with
  | some session => .ok (session, s)
  | none =>
      match resolve d.remoteLocation with
      | none => .error .unresolved
      | some resolvedAddress =>
          let overrides :=
            if resolvedAddress.toText ≠ d.remoteLocation.toText then
              (some resolvedAddress, some d.remoteLocation)
            else (none, none)
          if it.newUdpSocket then
            let (session, tasks) := UdpSession.start s d.sessionId d.remoteLocation
              resolvedAddress overrides.2 overrides.1 it.startedAt
            .ok (session, { s with sessions := s.sessions.insert d.sessionId session, tasks })
          else .error .noSocket

/-- The address a complete payload is sent to, with the session as updated. -/
def destination (resolve : Resolve) (session : UdpSession) (remoteLocation : NetLocation) :
    Option (SocketAddr × UdpSession) :=
  match session.overrideRemoteWriteAddress with
  | some addr => some (addr, session)
  | none =>
      if remoteLocation = session.lastLocation then some (session.lastSocketAddr, session)
      else
        (resolve remoteLocation).map fun updated =>
          (updated, { session with lastLocation := remoteLocation, lastSocketAddr := updated })

def UdpLoop.store (s : UdpLoop) (sessionId : UInt32) (session : UdpSession) : UdpLoop :=
  { s with sessions := s.sessions.insert sessionId session }

/-- An iteration's work on a datagram with a good header. -/
def handleDatagram (resolve : Resolve) (s : UdpLoop) (it : Iteration) (d : Datagram) :
    UdpLoop × Option SendTo :=
  match enterSession resolve s it d with
  | .error .unresolved => (s, none)
  | .error .noSocket => (s.leave .returned, none)
  | .ok (session, s) =>
      match reassemble session.fragments d with
      | .error fault => (s.leave (.panicked fault), none)
      | .ok (fragments, none) => (s.store d.sessionId { session with fragments }, none)
      | .ok (fragments, some (completePayload, remoteLocation)) =>
          match destination resolve { session with fragments } remoteLocation with
          | none => (s.store d.sessionId { session with fragments }, none)
          | some (addr, session) =>
              let sent : SendTo := ⟨d.sessionId, completePayload, addr⟩
              if it.sendTo then (s.store d.sessionId session, some sent)
              else ({ s with sessions := s.sessions.erase d.sessionId }, some sent)

/-- One iteration of the loop and the call of `send_to` it makes, if any. -/
def iterate (resolve : Resolve) (s : UdpLoop) (it : Iteration) : UdpLoop × Option SendTo :=
  let s := cleanUp s it
  match it.read with
  | .failed => (s.leave .returned, none)
  | .ignored => (s, none)
  | .headed d => handleDatagram resolve s it d

/-- The loop, its receive tasks and the connection around them. -/
inductive UdpEvent where
  | iterate (resolve : Resolve) (it : Iteration)
  /-- A receive task returns: its token was cancelled, or the socket or the
  connection failed. -/
  | taskEnds (i : Nat)
  /-- `try_join!` drops the loop because another part of the connection failed. -/
  | dropped
  /-- `process_connection` cancels the connection's token, the parent of all others. -/
  | cancelParent

def step (s : UdpLoop) : UdpEvent → Option UdpLoop
  | .iterate resolve it =>
      if s.status = .running then some (iterate resolve s it).1 else none
  | .taskEnds i => some { s with tasks := Spawn.finish i s.tasks }
  | .dropped => if s.status = .running then some (s.leave .returned) else none
  | .cancelParent =>
      if s.status = .returned then
        some { s with tasks := s.tasks.map fun task => { task with cancelled := true } }
      else none

end RustProxy.Hysteria2
