import RustProxy.Address
import RustProxy.Base.Spawn

/-!
# UDP over TCP with a destination in every packet

`run_udp_routing` of `udp_relay.rs`, cut at its await points: the future rests
in one of the places of `Await` and an event takes it to the next. A session is
a socket with a token, and a spawned `recv_loop` that passes what the socket
receives to an unbounded channel; the three are named by the task's position
among the tasks ever spawned, and the task's label is the address family its
socket was made for.

The future may end by leaving its loop, which cancels every session's token,
or by being dropped where it rests: the session closing the client's stream
aborts the task that owns it. Dropping the future drops the table with the
tokens in it, and dropping a token does not cancel it.

The select is biased towards responses. Its read branch can still run while a
response is queued, when the cooperative budget makes the receiver answer
pending, so reading is not tied to an empty channel.
-/

namespace RustProxy.UdpRelay

def ASSOCIATION_TIMEOUT : Nat := seconds 200

/-- A session; `cancel` is the position of its `recv_loop`. -/
structure Session where
  cancel : Nat
  lastActivity : Nat
  deriving DecidableEq, Repr

/-- A spawned `recv_loop`, by the destination it serves and whether its socket
is an IPv6 one. -/
abbrev RecvLoop := Spawn.Task NetLocation Bool

/-- Where the future rests. Only `top` and `ended` are not await points. -/
inductive Await where
  | top
  | select
  | writing (source : SocketAddr) (payload : Bytes)
  | resolving (destination : NetLocation) (payload : Bytes)
  | creating (destination : NetLocation) (payload : Bytes) (addr : SocketAddr) (now : Nat)
  | sending
  | shuttingDown
  | ended
  deriving DecidableEq, Repr

/-- A call of `send_to` on a session's socket. -/
structure SendTo where
  socket : Nat
  payload : Bytes
  addr : SocketAddr
  deriving DecidableEq, Repr

structure Routing where
  sessions : Table NetLocation Session
  tasks : List RecvLoop
  responses : List (SocketAddr × Bytes)
  lastCleanup : Nat
  sends : List SendTo
  await : Await

namespace Routing

def initial (now : Nat) : Routing where
  sessions := ∅
  tasks := []
  responses := []
  lastCleanup := now
  sends := []
  await := .top

def isActive (now : Nat) (_ : NetLocation) (session : Session) : Bool :=
  !decide (ASSOCIATION_TIMEOUT < now - session.lastActivity)

/-- The periodic pass over idle sessions. -/
def cleanUp (s : Routing) (now : Nat) : Routing :=
  if seconds 10 ≤ now - s.lastCleanup then
    { s with
      sessions := s.sessions.retain (isActive now)
      tasks := Spawn.cancel ((s.sessions.dropped (isActive now)).map Session.cancel) s.tasks
      lastCleanup := now }
  else s

/-- Past the loop: drain the sessions, cancelling each, and shut the client's
stream down. -/
def leaveLoop (s : Routing) : Routing :=
  { s with
    sessions := ∅
    tasks := Spawn.cancel (s.sessions.entries.map fun e => e.2.cancel) s.tasks
    await := .shuttingDown }

/-- Mark the session active and call `send_to` on its socket. -/
def forward (s : Routing) (destination : NetLocation) (session : Session) (payload : Bytes)
    (addr : SocketAddr) (now : Nat) : Routing :=
  { s with
    sessions := s.sessions.insert destination { session with lastActivity := now }
    sends := s.sends ++ [⟨session.cancel, payload, addr⟩]
    await := .sending }

/-- A new socket, its `recv_loop` and its session. -/
def createSession (s : Routing) (destination : NetLocation) (addr : SocketAddr) (now : Nat) :
    Session × Routing :=
  (⟨s.tasks.length, now⟩,
   { s with
     sessions := s.sessions.insert destination ⟨s.tasks.length, now⟩
     tasks := s.tasks ++ [Spawn.Task.fresh destination addr.isIpv6] })

end Routing

@[simp] theorem sends_cleanUp (s : Routing) (now : Nat) : (s.cleanUp now).sends = s.sends := by
  rw [Routing.cleanUp]
  split <;> rfl

inductive Event where
  /-- The head of the loop, up to the select. -/
  | enter (now : Nat)
  /-- The select takes a response. -/
  | response
  | wrote (ok : Bool)
  /-- The select takes a packet from the client; `none` is a read error. -/
  | read (packet : Option (NetLocation × Bytes))
  /-- The resolver answers; `now` is the clock reading that follows. -/
  | resolved (addr : Option SocketAddr) (now : Nat)
  | created (ok : Bool)
  /-- `send_to` returns; its result is not looked at. -/
  | sent
  | shutDown
  /-- The future is dropped at an await point. -/
  | dropped
  /-- A socket receives a packet and its `recv_loop` passes it on. -/
  | packet (i : Nat) (source : SocketAddr) (payload : Bytes)
  | receiveFails (i : Nat)
  | seesCancellation (i : Nat)

open Routing

def step (s : Routing) : Event → Option Routing
  | .enter now =>
      match s.await with
      | .top => some { cleanUp s now with await := .select }
      | _ => none
  | .response =>
      match s.await, s.responses with
      | .select, (source, payload) :: responses =>
          -- the branch is disabled while there is no session
          if s.sessions.entries = [] then none
          else some { s with responses, await := .writing source payload }
      | _, _ => none
  | .wrote ok =>
      match s.await with
      | .writing _ _ => some (if ok then { s with await := .top } else leaveLoop s)
      | _ => none
  | .read packet =>
      match s.await, packet with
      | .select, none => some (leaveLoop s)
      | .select, some (destination, payload) =>
          if destination.isUnspecified then some (leaveLoop s)
          else some { s with await := .resolving destination payload }
      | _, _ => none
  | .resolved addr now =>
      match s.await, addr with
      | .resolving _ _, none => some { s with await := .top }
      | .resolving destination payload, some addr =>
          match s.sessions.lookup destination with
          | some session => some (forward s destination session payload addr now)
          | none => some { s with await := .creating destination payload addr now }
      | _, _ => none
  | .created ok =>
      match s.await with
      | .creating destination payload addr now =>
          if ok then
            let (session, s) := createSession s destination addr now
            some (forward s destination session payload addr now)
          else some { s with await := .top }
      | _ => none
  | .sent =>
      match s.await with
      | .sending => some { s with await := .top }
      | _ => none
  | .shutDown =>
      match s.await with
      | .shuttingDown => some { s with await := .ended }
      | _ => none
  | .dropped =>
      match s.await with
      | .top => none
      | .ended => none
      | _ => some { s with sessions := ∅, await := .ended }
  | .packet i source payload =>
      match s.tasks[i]? with
      | some task =>
          if task.ended then none
          -- the channel's receiver is gone once the future has ended
          else if s.await = .ended then some { s with tasks := Spawn.finish i s.tasks }
          else some { s with responses := s.responses ++ [(source, payload)] }
      | none => none
  | .receiveFails i => some { s with tasks := Spawn.finish i s.tasks }
  | .seesCancellation i =>
      match s.tasks[i]? with
      | some task =>
          if task.cancelled then some { s with tasks := Spawn.finish i s.tasks } else none
      | none => none

/-- The steps of the future and of its tasks, one case for each outcome. -/
inductive Taken (s : Routing) : Event → Routing → Prop
  | enter {now : Nat} :
      s.await = .top → Taken s (.enter now) { cleanUp s now with await := .select }
  | response {source : SocketAddr} {payload : Bytes} {responses : List (SocketAddr × Bytes)} :
      s.await = .select → s.responses = (source, payload) :: responses →
      s.sessions.entries ≠ [] →
      Taken s .response { s with responses, await := .writing source payload }
  | wrote {source : SocketAddr} {payload : Bytes} : s.await = .writing source payload →
      Taken s (.wrote true) { s with await := .top }
  | writeFailed {source : SocketAddr} {payload : Bytes} : s.await = .writing source payload →
      Taken s (.wrote false) (leaveLoop s)
  | readFailed : s.await = .select → Taken s (.read none) (leaveLoop s)
  | closed {destination : NetLocation} {payload : Bytes} : s.await = .select →
      destination.isUnspecified = true → Taken s (.read (some (destination, payload))) (leaveLoop s)
  | read {destination : NetLocation} {payload : Bytes} : s.await = .select →
      destination.isUnspecified = false →
      Taken s (.read (some (destination, payload)))
        { s with await := .resolving destination payload }
  | unresolved {destination : NetLocation} {payload : Bytes} {now : Nat} :
      s.await = .resolving destination payload →
      Taken s (.resolved none now) { s with await := .top }
  | known {destination : NetLocation} {payload : Bytes} {addr : SocketAddr} {now : Nat}
      {session : Session} : s.await = .resolving destination payload →
      s.sessions.lookup destination = some session →
      Taken s (.resolved (some addr) now) (forward s destination session payload addr now)
  | unknown {destination : NetLocation} {payload : Bytes} {addr : SocketAddr} {now : Nat} :
      s.await = .resolving destination payload → s.sessions.lookup destination = none →
      Taken s (.resolved (some addr) now)
        { s with await := .creating destination payload addr now }
  | created {destination : NetLocation} {payload : Bytes} {addr : SocketAddr} {now : Nat} :
      s.await = .creating destination payload addr now →
      Taken s (.created true) (forward (createSession s destination addr now).2 destination
        (createSession s destination addr now).1 payload addr now)
  | noSocket {destination : NetLocation} {payload : Bytes} {addr : SocketAddr} {now : Nat} :
      s.await = .creating destination payload addr now →
      Taken s (.created false) { s with await := .top }
  | sent : s.await = .sending → Taken s .sent { s with await := .top }
  | shutDown : s.await = .shuttingDown → Taken s .shutDown { s with await := .ended }
  | dropped : s.await ≠ .top → s.await ≠ .ended →
      Taken s .dropped { s with sessions := ∅, await := .ended }
  | packetLate {i : Nat} {source : SocketAddr} {payload : Bytes} : s.await = .ended →
      Taken s (.packet i source payload) { s with tasks := Spawn.finish i s.tasks }
  | packet {i : Nat} {source : SocketAddr} {payload : Bytes} : s.await ≠ .ended →
      Taken s (.packet i source payload) { s with responses := s.responses ++ [(source, payload)] }
  | receiveFails {i : Nat} : Taken s (.receiveFails i) { s with tasks := Spawn.finish i s.tasks }
  | seesCancellation {i : Nat} :
      Taken s (.seesCancellation i) { s with tasks := Spawn.finish i s.tasks }

theorem taken_of_step {s t : Routing} {e : Event} (h : step s e = some t) : Taken s e t := by
  cases e with
  | enter now =>
      cases at_ : s.await <;> simp only [step, at_, Option.some.injEq, reduceCtorEq] at h
      exact h ▸ .enter at_
  | response =>
      cases at_ : s.await <;> cases queued : s.responses <;>
        simp only [step, at_, queued, reduceCtorEq] at h
      split at h
      · cases h
      · rename_i some_
        exact Option.some.inj h ▸ .response at_ queued some_
  | wrote ok =>
      cases at_ : s.await <;> simp only [step, at_, Option.some.injEq, reduceCtorEq] at h
      cases ok
      · exact h ▸ .writeFailed at_
      · exact h ▸ .wrote at_
  | read packet =>
      cases at_ : s.await <;> cases packet <;>
        simp only [step, at_, Option.some.injEq, reduceCtorEq] at h
      · exact h ▸ .readFailed at_
      · split at h <;> cases h
        · rename_i unspecified
          exact .closed at_ unspecified
        · rename_i specified
          exact .read at_ (Bool.eq_false_iff.mpr specified)
  | resolved addr now =>
      cases at_ : s.await <;> cases addr <;>
        simp only [step, at_, Option.some.injEq, reduceCtorEq] at h
      · exact h ▸ .unresolved at_
      · split at h <;> cases h
        · rename_i found
          exact .known at_ found
        · rename_i absent
          exact .unknown at_ absent
  | created ok =>
      cases at_ : s.await <;> simp only [step, at_, reduceCtorEq] at h
      cases ok
      · exact Option.some.inj h ▸ .noSocket at_
      · exact Option.some.inj h ▸ .created at_
  | sent =>
      cases at_ : s.await <;> simp only [step, at_, Option.some.injEq, reduceCtorEq] at h
      exact h ▸ .sent at_
  | shutDown =>
      cases at_ : s.await <;> simp only [step, at_, Option.some.injEq, reduceCtorEq] at h
      exact h ▸ .shutDown at_
  | dropped =>
      cases at_ : s.await <;> simp only [step, at_, Option.some.injEq, reduceCtorEq] at h
      all_goals exact h ▸ .dropped (by simp [at_]) (by simp [at_])
  | packet i source payload =>
      simp only [step] at h
      split at h <;> try cases h
      split at h <;> try cases h
      split at h <;> cases h
      · rename_i ended
        exact .packetLate ended
      · rename_i alive
        exact .packet alive
  | receiveFails i => exact Option.some.inj h ▸ .receiveFails
  | seesCancellation i =>
      simp only [step] at h
      split at h <;> try cases h
      split at h <;> cases h
      exact .seesCancellation

end RustProxy.UdpRelay
