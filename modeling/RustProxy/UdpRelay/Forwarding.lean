import RustProxy.Base.Transition
import RustProxy.MessageStream.PacketEnds
import RustProxy.UdpRelay.Routing

/-!
# Forwarding the packets of a client

`run_udp_routing` together with the `PacketAddrStream` that it reads and writes,
over any stream underneath. The select polls `read_targeted_message`; a poll that is
pending is dropped when a response is taken, and the next one goes on with what the
read buffer has. `write_sourced_message` is polled until the response was written
and flushed. The payload of a packet stays in one buffer while its location is
resolved.

Every packet that was read gets a verdict: the address to send it to, when its
location was resolved and there is a session for it, or none. What was sent is the
packets with an address, in order. The loop is left when the client's stream has
ended or failed, when a response could not be written, and when a packet is
addressed to 0.0.0.0:0, which is how the end of the stream is told.
-/

namespace RustProxy.UdpRelay

open MessageStream
open MessageStream.PacketAddrStream (Running Answer packets Serves ReadFails Ended)
open Relay (allocateVec produced EofSeen)

variable {ω : Type}

/-- The future with the client's stream and its shared buffer. -/
structure Forwarding (ω : Type) where
  routing : Routing
  server : Running (Recorded ω)
  buf : Bytes
  /-- Whether the response was written and is being flushed. -/
  flushing : Bool
  /-- What became of the packets, in the order they were read. -/
  verdicts : List (Option SocketAddr)

/-- What moves the future on. -/
inductive Move (ω : Type) where
  /-- The select polls `read_targeted_message`. -/
  | read
  /-- `write_sourced_message` is polled. -/
  | write (fuel : Nat)
  /-- Anything else that the future or one of its tasks does. -/
  | event (e : Event)
  /-- Something happens around the stream. -/
  | meanwhile (f : ω → ω)

namespace Forwarding

/-- What a step decides about the packet in hand: the address that it is sent to,
or that it is not sent. -/
def verdict (s : Routing) : Event → Option (Option SocketAddr)
  | .resolved addr _ =>
      match s.await, addr with
      | .resolving _ _, none => some none
      | .resolving destination _, some addr =>
          if (s.sessions.lookup destination).isSome then some (some addr) else none
      | _, _ => none
  | .created ok =>
      match s.await with
      | .creating _ _ addr _ => some (if ok then some addr else none)
      | _ => none
  | _ => none

/-- The routing makes a step. -/
def advance (s : Forwarding ω) (e : Event) : Option (Forwarding ω) := do
  let routing ← step s.routing e
  return { s with routing, verdicts := s.verdicts ++ (verdict s.routing e).toList }

/-- An answer of the client's stream. -/
def answered (s : Forwarding ω) (answer : Answer) (t : PacketAddrStream.Calling (Recorded ω)) :
    Forwarding ω :=
  { s with server := (t, s.server.2 ++ [answer]) }

/-- The select polls `read_targeted_message`. -/
def pollRead (stream : AsyncStream ω) (s : Forwarding ω) : Option (Forwarding ω) :=
  match s.routing.await,
    PacketAddrStream.pollReadTargetedMessage (BUFFER_SIZE + 1) (stream.recorded .a) 65535
      s.server.1 with
  | .select, (.returned .pending, t) => some (s.answered (.read .pending t.1.isEof) t)
  | .select, (.returned (.ready (.error e)), t) =>
      (s.answered (.read (.ready (.error e)) t.1.isEof) t).advance (.read none)
  | .select, (.returned (.ready (.ok p)), t) =>
      { s.answered (.read (.ready (.ok p)) t.1.isEof) t with
        buf := Ring.overwrite s.buf 0 p.payload }.advance (.read (some (p.location, p.payload)))
  | _, _ => none

/-- `write_sourced_message` is polled, up to its flush or in it. A poll that does
not return is no move. -/
def pollWrite (stream : AsyncStream ω) (fuel : Nat) (s : Forwarding ω) : Option (Forwarding ω) :=
  match s.routing.await with
  | .writing source payload =>
      if s.flushing then
        match PacketAddrStream.pollFlushMessage fuel (stream.recorded .a) s.server.1 with
        | (.returned .pending, t) => some (s.answered (.flush .pending) t)
        | (.returned (.ready (.ok ())), t) =>
            { s.answered (.flush (.ready (.ok ()))) t with flushing := false }.advance (.wrote true)
        | (.returned (.ready (.error e)), t) =>
            (s.answered (.flush (.ready (.error e))) t).advance (.wrote false)
        | _ => none
      else
        match PacketAddrStream.pollWriteSourcedMessage fuel (stream.recorded .a) payload source
          s.server.1 with
        | (.returned .pending, t) => some (s.answered (.write payload source .pending) t)
        | (.returned (.ready (.ok ())), t) =>
            some { s.answered (.write payload source (.ready (.ok ()))) t with flushing := true }
        | (.returned (.ready (.error e)), t) =>
            (s.answered (.write payload source (.ready (.error e))) t).advance (.wrote false)
        | _ => none
  | _ => none

/-- One move. Reads and writes are those of the client's stream. -/
def move (stream : AsyncStream ω) (s : Forwarding ω) : Move ω → Option (Forwarding ω)
  | .read => s.pollRead stream
  | .write fuel => s.pollWrite stream fuel
  | .event (.read _) => none
  | .event (.wrote _) => none
  | .event e => s.advance e
  | .meanwhile f =>
      some { s with server := ((s.server.1.1, ⟨f s.server.1.2.world, s.server.1.2.calls⟩),
        s.server.2) }

def start (readMemory writeMemory memory : Nat → UInt8) (now : Nat) (world : ω) : Forwarding ω where
  routing := .initial now
  server := ((.newUot readMemory writeMemory, Recorded.start world), [])
  buf := allocateVec memory 65535
  flushing := false
  verdicts := []

end Forwarding

/-! ## One verdict for each packet -/

/-- The packet that the future has in hand. -/
def Await.inHand : Await → List Packet
  | .resolving destination payload => [⟨destination, payload⟩]
  | .creating destination payload _ _ => [⟨destination, payload⟩]
  | _ => []

/-- The payload of a packet with its address, if there is one. -/
def deliver (p : Packet) (verdict : Option SocketAddr) : Option (Bytes × SocketAddr) :=
  verdict.map (p.payload, ·)

/-- What has to be sent of some packets, by the verdicts. -/
def forwarded (ps : List Packet) (verdicts : List (Option SocketAddr)) :
    List (Bytes × SocketAddr) :=
  (ps.zip verdicts).filterMap fun (p, verdict) => deliver p verdict

/-- The packets that were read, up to the one in hand, have their verdicts, and what
was sent is what they say. -/
structure Decided (ps : List Packet) (verdicts : List (Option SocketAddr))
    (s : Routing) : Prop where
  hand : s.await ≠ .ended → ∃ done, ps = done ++ s.await.inHand ∧ done.length = verdicts.length
  most : verdicts.length ≤ ps.length
  sends : (s.sends.map fun send => (send.payload, send.addr)) = forwarded ps verdicts

section Decided

variable {ps done : List Packet} {p : Packet} {verdicts : List (Option SocketAddr)} {s t : Routing}

/-- A packet without a verdict is not sent. -/
theorem forwarded_append (same : done.length = verdicts.length) (ps : List Packet) :
    forwarded (done ++ ps) verdicts = forwarded done verdicts := by
  have zipped : (done ++ ps).zip (verdicts ++ []) = done.zip verdicts ++ ps.zip [] :=
    List.zip_append same
  rw [List.append_nil, List.zip_nil_right, List.append_nil] at zipped
  rw [forwarded, zipped]
  rfl

theorem forwarded_concat (same : done.length = verdicts.length) (verdict : Option SocketAddr) :
    forwarded (done ++ [p]) (verdicts ++ [verdict]) =
      forwarded done verdicts ++ (deliver p verdict).toList := by
  rw [forwarded, List.zip_append same, List.filterMap_append]
  cases verdict <;> rfl

/-- A step that neither takes a packet in hand nor decides about one. -/
theorem Decided.aside (decided : Decided ps verdicts s) (sends : t.sends = s.sends)
    (hand : t.await ≠ .ended → s.await ≠ .ended ∧ t.await.inHand = s.await.inHand) :
    Decided ps (verdicts ++ []) t where
  hand notEnded := by
    obtain ⟨before, same⟩ := hand notEnded
    rw [same, List.append_nil]
    exact decided.hand before
  most := by
    rw [List.append_nil]
    exact decided.most
  sends := by
    rw [sends, List.append_nil]
    exact decided.sends

/-- A step that decides about the packet in hand. -/
theorem Decided.settled (decided : Decided ps verdicts s) (inHand : s.await.inHand = [p])
    (verdict : Option SocketAddr) (empty : t.await.inHand = [])
    (sends : (t.sends.map fun send => (send.payload, send.addr)) =
      (s.sends.map fun send => (send.payload, send.addr)) ++ (deliver p verdict).toList) :
    Decided ps (verdicts ++ [verdict]) t := by
  have notEnded : s.await ≠ .ended := by
    intro ended
    rw [ended] at inHand
    cases inHand
  obtain ⟨done, rfl, length⟩ := decided.hand notEnded
  have length' : (done ++ s.await.inHand).length = (verdicts ++ [verdict]).length := by
    rw [inHand, List.length_append, List.length_append, length]
    rfl
  refine ⟨fun _ => ⟨_, ?_, length'⟩, Nat.le_of_eq length'.symm, ?_⟩
  · rw [empty, List.append_nil]
  · rw [sends, decided.sends, forwarded_append length, inHand, forwarded_concat length]

/-- Every step but that of a read keeps what was decided. -/
theorem Decided.step {e : Event} (decided : Decided ps verdicts s) (taken : step s e = some t)
    (notRead : ∀ packet, e ≠ .read packet) :
    Decided ps (verdicts ++ (Forwarding.verdict s e).toList) t := by
  cases taken_of_step taken with
  | enter at_ =>
      refine decided.aside (sends_cleanUp s _) fun _ => ?_
      rw [at_]
      exact ⟨nofun, rfl⟩
  | response at_ | wrote at_ | writeFailed at_ | sent at_ =>
      refine decided.aside rfl fun _ => ?_
      rw [at_]
      exact ⟨nofun, rfl⟩
  | readFailed | closed | read => exact absurd rfl (notRead _)
  | @unresolved _ _ now at_ =>
      have dropped : Forwarding.verdict s (.resolved none now) = some none := by
        simp only [Forwarding.verdict, at_]
      rw [dropped]
      exact decided.settled (by rw [at_]; rfl) none rfl (List.append_nil _).symm
  | @known _ _ addr now _ at_ found =>
      have sent : Forwarding.verdict s (.resolved (some addr) now) = some (some addr) := by
        simp only [Forwarding.verdict, at_, found]
        rfl
      rw [sent]
      exact decided.settled (by rw [at_]; rfl) (some addr) rfl (List.map_append ..)
  | @unknown _ _ addr now at_ absent =>
      have open_ : Forwarding.verdict s (.resolved (some addr) now) = none := by
        simp only [Forwarding.verdict, at_, absent]
        rfl
      rw [open_]
      refine decided.aside rfl fun _ => ?_
      rw [at_]
      exact ⟨nofun, rfl⟩
  | created at_ =>
      rw [Forwarding.verdict, at_]
      exact decided.settled (by rw [at_]; rfl) (some _) rfl (List.map_append ..)
  | noSocket at_ =>
      rw [Forwarding.verdict, at_]
      exact decided.settled (by rw [at_]; rfl) none rfl (List.append_nil _).symm
  | shutDown | dropped => exact decided.aside rfl fun notEnded => absurd rfl notEnded
  | packetLate ended => exact decided.aside rfl fun notEnded => absurd ended notEnded
  | packet notEnded => exact decided.aside rfl fun _ => ⟨notEnded, rfl⟩
  | receiveFails | seesCancellation => exact decided.aside rfl fun notEnded => ⟨notEnded, rfl⟩

end Decided

end RustProxy.UdpRelay
