import RustProxy.UdpRelay.Forwarding

/-!
# Every packet of a client is forwarded

In every run in which no packet is addressed to 0.0.0.0:0, what was sent is one
datagram for each packet whose location was resolved and that has a session, in
order, and the loop is left only when the client's stream has ended or failed or
when a response could not be written. One packet to 0.0.0.0:0 ends the loop.
-/

namespace RustProxy.UdpRelay

open MessageStream
open MessageStream.PacketAddrStream (Running Answer Calling packets frames messages Serves AfterCall
  ReadFails Ended)
open Relay (allocateVec produced EofSeen)

variable {ω : Type}

/-- The error with which a response could not be written. -/
def writeError? : Answer → Option IoError
  | .write _ _ (.ready (.error e)) => some e
  | .flush (.ready (.error e)) => some e
  | _ => none

/-- Why the loop was left. -/
inductive Left (server : Running (Recorded ω)) : Prop
  | ended (ended : Ended server.1)
  | readFailed {e : IoError} (fails : ReadFails server.1 e)
  | notWritten {answer : Answer} {e : IoError} (mem : answer ∈ server.2)
      (failed : writeError? answer = some e)

theorem Left.around {this : PacketAddrStream} {w : Recorded ω} {world : ω} {answers : List Answer}
    (left : Left ((this, w), answers)) : Left ((this, ⟨world, w.calls⟩), answers) := by
  cases left with
  | ended ended => exact .ended ⟨ended.eof, ended.rest⟩
  | notWritten mem failed => exact .notWritten mem failed
  | readFailed fails =>
      cases fails with
      | underneath mem => exact .readFailed (.underneath mem)
      | invalid holds stays => exact .readFailed (.invalid holds stays)
      | full holds incomplete front full => exact .readFailed (.full holds incomplete front full)

/-- The future is past its loop. -/
def Await.Past : Await → Prop
  | .shuttingDown | .ended => True
  | _ => False

namespace Forwarding

/-- The accounts of the future and of the client's stream, together. -/
structure Follows (t : Forwarding ω) : Prop where
  serves : Serves t.server
  decided : Decided (packets t.server.2) t.verdicts t.routing
  allocated : t.buf.length = 65535
  shared : ∀ p ∈ t.routing.await.inHand, t.buf.slice 0 p.payload.length = some p.payload
  left : t.routing.await = .shuttingDown → Left t.server
  atEof : t.server.1.1.isEof = true → Ended t.server.1 ∧
    t.verdicts.length = (packets t.server.2).length ∧ t.routing.await.Past

variable {stream : AsyncStream ω} {s t : Forwarding ω} {e : Event}

theorem follows_start (readMemory writeMemory memory : Nat → UInt8) (now : Nat) (world : ω) :
    Follows (start readMemory writeMemory memory now world) where
  serves := PacketAddrStream.serves_start readMemory writeMemory world
  decided := ⟨fun _ => ⟨[], rfl, rfl⟩, Nat.le_refl _, rfl⟩
  allocated := by simp [start, allocateVec]
  shared := nofun
  left := nofun
  atEof := nofun

theorem advance_inv (ran : s.advance e = some t) :
    ∃ routing, step s.routing e = some routing ∧
      t = { s with routing, verdicts := s.verdicts ++ (verdict s.routing e).toList } := by
  obtain ⟨routing, taken, same⟩ := Option.bind_eq_some_iff.mp ran
  exact ⟨routing, taken, (Option.some.inj same).symm⟩

/-- A step that is not a read takes no packet in hand, leaves the loop only when a
response could not be written, and decides nothing when the loop was left. -/
theorem step_aside {r r' : Routing} (taken : step r e = some r')
    (notRead : ∀ packet, e ≠ .read packet) :
    (r'.await.inHand ⊆ r.await.inHand) ∧
      (r'.await = .shuttingDown → r.await = .shuttingDown ∨ e = .wrote false) ∧
      (r.await.Past → r'.await.Past ∧ verdict r e = none) := by
  cases taken_of_step taken with
  | readFailed | closed | read => exact absurd rfl (notRead _)
  | enter at_ | response at_ | wrote at_ | sent at_ =>
      rw [at_]
      exact ⟨List.nil_subset _, nofun, False.elim⟩
  | unresolved at_ | known at_ | created at_ | noSocket at_ =>
      rw [at_]
      exact ⟨List.nil_subset _, nofun, False.elim⟩
  | unknown at_ =>
      rw [at_]
      exact ⟨List.Subset.refl _, nofun, False.elim⟩
  | writeFailed at_ =>
      rw [at_]
      exact ⟨List.nil_subset _, fun _ => .inr rfl, False.elim⟩
  | shutDown | dropped => exact ⟨List.nil_subset _, nofun, fun _ => ⟨trivial, rfl⟩⟩
  | packet | packetLate | receiveFails | seesCancellation =>
      exact ⟨List.Subset.refl _, fun now => .inl now, fun past => ⟨past, rfl⟩⟩

/-- Steps that are not reads. -/
theorem Follows.advance (follows : Follows s) (ran : s.advance e = some t)
    (notRead : ∀ packet, e ≠ .read packet) (left : e = .wrote false → Left s.server) :
    Follows t := by
  obtain ⟨routing, taken, rfl⟩ := advance_inv ran
  obtain ⟨inHand, leaves, past⟩ := step_aside taken notRead
  refine ⟨follows.serves, follows.decided.step taken notRead, follows.allocated, ?_, ?_, ?_⟩
  · exact fun p mem => follows.shared p (inHand mem)
  · intro now
    rcases leaves now with before | failed
    · exact follows.left before
    · exact left failed
  · intro eof
    obtain ⟨ended, same, atEof⟩ := follows.atEof eof
    obtain ⟨atEof', nothing⟩ := past atEof
    refine ⟨ended, ?_, atEof'⟩
    dsimp only
    rw [nothing, Option.toList_none, List.append_nil]
    exact same

/-! ## Calls on the client's stream -/

theorem afterCall {server t : Calling (Recorded ω)} {answers : List Answer} {fuel : Nat}
    {answer : Answer} (serves : Serves (server, answers)) (op : PacketAddrStream.Op)
    (called : PacketAddrStream.call (stream.recorded .a) fuel op server = (.returned answer, t)) :
    AfterCall (events server.2) (packets answers) (frames (messages answers)) answer t := by
  have meets : (PacketAddrStream.call (stream.recorded .a) fuel op).Meets server (fun _ => True)
      (AfterCall (events server.2) (packets answers) (frames (messages answers))) :=
    PacketAddrStream.call_keeps op serves.keeps_now (.inl fun _ _ => trivial)
  have after := meets.returned (congrArg Prod.fst called)
  rwa [called] at after

/-- What a move does to the client's stream: nothing, or a call, or something
happens around it. -/
inductive Served (stream : AsyncStream ω) (s t : Running (Recorded ω)) : Prop
  | same (same : t = s)
  | called {fuel : Nat} {op : PacketAddrStream.Op} {answer : Answer} {server : Calling (Recorded ω)}
      (called : PacketAddrStream.call (stream.recorded .a) fuel op s.1 = (.returned answer, server))
      (same : t = (server, s.2 ++ [answer]))
  | around {world : ω} (same : t = ((s.1.1, ⟨world, s.1.2.calls⟩), s.2))

theorem advance_server (ran : s.advance e = some t) : t.server = s.server := by
  obtain ⟨routing, -, rfl⟩ := advance_inv ran
  rfl

theorem served_of_pollRead (ran : s.pollRead stream = some t) :
    Served stream s.server t.server := by
  have called {answer : Poll (IoResult Packet)} {server : Calling (Recorded ω)}
      (polled : PacketAddrStream.pollReadTargetedMessage (BUFFER_SIZE + 1)
        (stream.recorded .a) 65535 s.server.1 = (.returned answer, server)) :
      PacketAddrStream.call (stream.recorded .a) (BUFFER_SIZE + 1) .read s.server.1 =
        (.returned (.read answer server.1.isEof), server) := Exec.bind_of_returned polled
  unfold Forwarding.pollRead at ran
  split at ran
  case h_1 polled =>
      obtain rfl := Option.some.inj ran
      exact .called (called polled) rfl
  case h_2 polled => exact .called (called polled) (advance_server ran)
  case h_3 polled => exact .called (called polled) (advance_server ran)
  case h_4 => cases ran

theorem served_of_pollWrite {fuel : Nat} (ran : s.pollWrite stream fuel = some t) :
    Served stream s.server t.server := by
  have flushed {answer : Poll (IoResult Unit)} {server : Calling (Recorded ω)}
      (polled : PacketAddrStream.pollFlushMessage fuel (stream.recorded .a) s.server.1 =
        (.returned answer, server)) :
      PacketAddrStream.call (stream.recorded .a) fuel .flush s.server.1 =
        (.returned (.flush answer), server) := Exec.bind_of_returned polled
  have wrote {payload : Bytes} {source : SocketAddr} {answer : Poll (IoResult Unit)}
      {server : Calling (Recorded ω)}
      (polled : PacketAddrStream.pollWriteSourcedMessage fuel (stream.recorded .a) payload source
        s.server.1 = (.returned answer, server)) :
      PacketAddrStream.call (stream.recorded .a) fuel (.write payload source) s.server.1 =
        (.returned (.write payload source answer), server) := Exec.bind_of_returned polled
  unfold Forwarding.pollWrite at ran
  split at ran
  case h_2 => cases ran
  split at ran
  · split at ran
    case h_1 polled =>
        obtain rfl := Option.some.inj ran
        exact .called (flushed polled) rfl
    case h_2 polled => exact .called (flushed polled) (advance_server ran)
    case h_3 polled => exact .called (flushed polled) (advance_server ran)
    case h_4 => cases ran
  · split at ran
    case h_1 polled =>
        obtain rfl := Option.some.inj ran
        exact .called (wrote polled) rfl
    case h_2 polled =>
        obtain rfl := Option.some.inj ran
        exact .called (wrote polled) rfl
    case h_3 polled => exact .called (wrote polled) (advance_server ran)
    case h_4 => cases ran

theorem served_of_move {m : Move ω} (ran : s.move stream m = some t) :
    Served stream s.server t.server := by
  cases m with
  | read => exact served_of_pollRead ran
  | write fuel => exact served_of_pollWrite ran
  | event e =>
      cases e with
      | read | wrote => cases ran
      | enter | response | resolved | created | sent | shutDown | dropped | packet | receiveFails
      | seesCancellation => exact .same (advance_server ran)
  | meanwhile f =>
      obtain rfl := Option.some.inj ran
      exact .around rfl

theorem Served.serves {s t : Running (Recorded ω)} (served : Served stream s t)
    (serves : Serves s) : Serves t := by
  cases served with
  | same same => exact same ▸ serves
  | called called same => exact same ▸ serves.answered (afterCall serves _ called)
  | around same => exact same ▸ serves.around _

/-- Answers are only ever added. -/
theorem Served.grows {s t : Running (Recorded ω)} (served : Served stream s t) : s.2 <+: t.2 := by
  cases served with
  | same same => exact same ▸ List.prefix_rfl
  | called _ same => exact same ▸ List.prefix_append _ _
  | around same => exact same ▸ List.prefix_rfl

/-! ## Writing a response -/

theorem packets_eq_of_none {answers : List Answer} {answer : Answer}
    (none_ : answer.packet? = none) : packets (answers ++ [answer]) = packets answers := by
  rw [PacketAddrStream.packets_concat, none_]
  exact List.append_nil _

/-- A poll of `write_sourced_message` has answered. -/
theorem Follows.wrote {answer : Answer} {server : Calling (Recorded ω)} (follows : Follows s)
    {source : SocketAddr} {payload : Bytes} (at_ : s.routing.await = .writing source payload)
    (after : AfterCall (events s.server.1.2) (packets s.server.2) (frames (messages s.server.2))
      answer server)
    (none_ : answer.packet? = none) (eof : server.1.isEof = s.server.1.1.isEof) (flushing : Bool) :
    Follows { s.answered answer server with flushing } where
  serves := follows.serves.answered after
  decided := by
    show Decided (packets (s.server.2 ++ [answer])) s.verdicts s.routing
    rw [packets_eq_of_none none_]
    exact follows.decided
  allocated := follows.allocated
  shared := follows.shared
  left now := absurd (at_.symm.trans now) nofun
  atEof now := by
    obtain ⟨-, -, past⟩ := follows.atEof (eof.symm.trans now)
    rw [at_] at past
    exact past.elim

theorem left_of_last {server : Calling (Recorded ω)} {answer : Answer} {e : IoError}
    (failed : writeError? answer = some e) : Left (s.answered answer server).server :=
  .notWritten (List.mem_append_right _ (List.mem_singleton_self _)) failed

theorem Follows.pollWrite {fuel : Nat} (follows : Follows s)
    (ran : s.pollWrite stream fuel = some t) : Follows t := by
  unfold Forwarding.pollWrite at ran
  split at ran
  case h_2 => cases ran
  case h_1 source payload at_ =>
      split at ran
      case isTrue =>
          have eof := PacketAddrStream.pollFlush_leaves (stream.recorded .a) fuel s.server.1
          have wrote {answer : Poll (IoResult Unit)} {server : Calling (Recorded ω)}
              (polled : PacketAddrStream.pollFlushMessage fuel (stream.recorded .a) s.server.1 =
                (.returned answer, server)) :=
            follows.wrote at_ (afterCall follows.serves .flush (Exec.bind_of_returned polled)) rfl
              (by rw [polled] at eof; exact eof)
          split at ran
          case h_1 polled =>
              obtain rfl := Option.some.inj ran
              exact wrote polled _
          case h_2 polled => exact (wrote polled false).advance ran nofun nofun
          case h_3 polled => exact (wrote polled _).advance ran nofun fun _ => left_of_last rfl
          case h_4 => cases ran
      case isFalse =>
          have eof := PacketAddrStream.pollWrite_leaves (stream.recorded .a) fuel payload source
            s.server.1
          have wrote {answer : Poll (IoResult Unit)} {server : Calling (Recorded ω)}
              (polled : PacketAddrStream.pollWriteSourcedMessage fuel (stream.recorded .a) payload
                source s.server.1 = (.returned answer, server)) :=
            follows.wrote at_ (afterCall follows.serves (.write payload source)
              (Exec.bind_of_returned polled)) rfl (by rw [polled] at eof; exact eof)
          split at ran
          case h_1 polled =>
              obtain rfl := Option.some.inj ran
              exact wrote polled _
          case h_2 polled =>
              obtain rfl := Option.some.inj ran
              exact wrote polled true
          case h_3 polled => exact (wrote polled _).advance ran nofun fun _ => left_of_last rfl
          case h_4 => cases ran

/-! ## Reading a packet -/

/-- No packet that was read is addressed to 0.0.0.0:0. -/
def Addressed (t : Forwarding ω) : Prop :=
  ∀ p ∈ packets t.server.2, p.location.isUnspecified = false

/-- A poll of the reader that the select has made, with what it tells. -/
theorem Follows.polled {answer : Poll (IoResult Packet)} {server : Calling (Recorded ω)}
    (follows : Follows s) (at_ : s.routing.await = .select)
    (polled : PacketAddrStream.pollReadTargetedMessage (BUFFER_SIZE + 1) (stream.recorded .a) 65535
      s.server.1 = (.returned answer, server)) :
    Serves (s.answered (.read answer server.1.isEof) server).server ∧
      PacketAddrStream.Explained answer server ∧
      (packets s.server.2).length = s.verdicts.length := by
  have open_ : s.server.1.1.isEof = false := by
    rw [Bool.eq_false_iff]
    intro eof
    obtain ⟨-, -, past⟩ := follows.atEof eof
    rw [at_] at past
    exact past
  have after := afterCall follows.serves .read (Exec.bind_of_returned polled)
  refine ⟨follows.serves.answered after, ?_, ?_⟩
  · obtain ⟨start, live, consumed, holds, -, -⟩ := follows.serves.keeps.reads
    have meets : (PacketAddrStream.pollReadTargetedMessage (BUFFER_SIZE + 1) (stream.recorded .a)
        65535).Meets s.server.1 (fun _ => False) PacketAddrStream.Explained :=
      PacketAddrStream.pollRead_explained holds open_ (Nat.lt_succ_self _)
    have told := meets.returned (congrArg Prod.fst polled)
    rwa [polled] at told
  · obtain ⟨done, all, same⟩ := follows.decided.hand (by rw [at_]; exact nofun)
    rw [at_] at all
    rw [all, ← same]
    exact congrArg List.length (List.append_nil done)

/-- The read waits: it may be dropped now, and polled again later. -/
theorem Follows.readPending {server : Calling (Recorded ω)} (follows : Follows s)
    (at_ : s.routing.await = .select)
    (serves : Serves (s.answered (.read .pending server.1.isEof) server).server)
    (open_ : server.1.isEof = false) :
    Follows (s.answered (.read .pending server.1.isEof) server) where
  serves := serves
  decided := by
    show Decided (packets (s.server.2 ++ [_])) s.verdicts s.routing
    rw [packets_eq_of_none rfl]
    exact follows.decided
  allocated := follows.allocated
  shared := follows.shared
  left now := absurd (at_.symm.trans now) nofun
  atEof now := absurd (open_.symm.trans now) Bool.false_ne_true

/-- The loop is left, and no packet was read. -/
theorem Follows.leave {answer : Answer} {server : Calling (Recorded ω)} {buf : Bytes}
    (follows : Follows s) (at_ : s.routing.await = .select)
    (serves : Serves (s.answered answer server).server) (none_ : answer.packet? = none)
    (allocated : buf.length = 65535) (left : Left (s.answered answer server).server)
    (atEof : server.1.isEof = true →
      Ended server ∧ s.verdicts.length = (packets s.server.2).length) :
    Follows { s.answered answer server with
      buf, routing := s.routing.leaveLoop, verdicts := s.verdicts ++ [] } where
  serves := serves
  decided := by
    show Decided (packets (s.server.2 ++ [answer])) (s.verdicts ++ []) s.routing.leaveLoop
    rw [packets_eq_of_none none_]
    refine follows.decided.aside rfl fun _ => ?_
    rw [at_]
    exact ⟨nofun, rfl⟩
  allocated := allocated
  shared := nofun
  left _ := left
  atEof now := by
    obtain ⟨ended, same⟩ := atEof now
    refine ⟨ended, ?_, trivial⟩
    show (s.verdicts ++ []).length = (packets (s.server.2 ++ [answer])).length
    rw [packets_eq_of_none none_, List.append_nil]
    exact same

/-- A packet is read, and its payload is in the shared buffer. -/
theorem Follows.take {p : Packet} {server : Calling (Recorded ω)} (follows : Follows s)
    (serves : Serves (s.answered (.read (.ready (.ok p)) server.1.isEof) server).server)
    (open_ : server.1.isEof = false) (same : (packets s.server.2).length = s.verdicts.length)
    (fits : p.payload.length ≤ 65535) :
    Follows { s.answered (.read (.ready (.ok p)) server.1.isEof) server with
      buf := Ring.overwrite s.buf 0 p.payload
      routing := { s.routing with await := .resolving p.location p.payload }
      verdicts := s.verdicts ++ [] } := by
  have all : packets (s.server.2 ++ [.read (.ready (.ok p)) server.1.isEof]) =
      packets s.server.2 ++ [p] := by
    rw [PacketAddrStream.packets_concat, open_]
    rfl
  have allocated : (Ring.overwrite s.buf 0 p.payload).length = 65535 := by
    rw [Ring.length_overwrite, follows.allocated]
    rw [follows.allocated, Nat.zero_add]
    exact fits
  refine ⟨serves, ?_, allocated, ?_, nofun, fun now => absurd (open_.symm.trans now) nofun⟩
  · show Decided (packets (s.server.2 ++ [_])) (s.verdicts ++ []) _
    rw [all, List.append_nil]
    refine ⟨fun _ => ⟨_, rfl, same⟩, ?_, ?_⟩
    · rw [List.length_append]
      exact Nat.le_trans (Nat.le_of_eq same.symm) (Nat.le_add_right _ _)
    · rw [forwarded_append same]
      exact follows.decided.sends
  · intro q mem
    obtain rfl := List.mem_singleton.mp mem
    have front : (Ring.overwrite s.buf 0 p.payload).take (0 + p.payload.length) = _ :=
      Ring.take_overwrite (Nat.zero_le s.buf.length)
    rw [List.take_zero, List.nil_append, Nat.zero_add] at front
    exact (List.slice_zero (allocated.symm ▸ fits)).trans (congrArg some front)

theorem Follows.pollRead (follows : Follows s) (ran : s.pollRead stream = some t)
    (addressed : Addressed t) : Follows t := by
  unfold Forwarding.pollRead at ran
  split at ran
  case h_1 at_ polled =>
      obtain ⟨serves, open_, -⟩ := follows.polled at_ polled
      obtain rfl := Option.some.inj ran
      exact follows.readPending at_ serves open_
  case h_2 at_ polled =>
      obtain ⟨serves, ⟨open_, fails⟩, -⟩ := follows.polled at_ polled
      obtain ⟨routing, taken, rfl⟩ := advance_inv ran
      cases taken_of_step taken with
      | readFailed =>
          exact follows.leave at_ serves rfl follows.allocated (.readFailed fails)
            fun now => absurd (open_.symm.trans now) nofun
  case h_3 p server at_ polled =>
      obtain ⟨serves, told, same⟩ := follows.polled at_ polled
      obtain ⟨routing, taken, rfl⟩ := advance_inv ran
      rcases told with open_ | ⟨rfl, eof, ended⟩
      · have read : p ∈ packets (s.server.2 ++ [.read (.ready (.ok p)) server.1.isEof]) := by
          rw [PacketAddrStream.packets_concat, open_]
          exact List.mem_append_right _ (List.mem_singleton_self _)
        cases taken_of_step taken with
        | closed _ unspecified => exact absurd (unspecified.symm.trans (addressed p read)) nofun
        | read =>
            obtain ⟨_, _, _, _, is, _⟩ := serves.keeps.reads
            exact follows.take serves open_ same (is.payload_le p read)
      · cases taken_of_step taken with
        | closed =>
            refine follows.leave at_ serves ?_ ?_ (.ended ended) fun _ => ⟨ended, same.symm⟩
            · rw [eof]
              rfl
            · rw [Ring.length_overwrite (Nat.zero_le _)]
              exact follows.allocated
        | read _ specified => cases specified
  case h_4 => cases ran

/-! ## Runs -/

theorem Addressed.of_move {m : Move ω} (addressed : Addressed t) (ran : s.move stream m = some t) :
    Addressed s := by
  intro p mem
  obtain ⟨answer, made, found⟩ := List.mem_filterMap.mp mem
  exact addressed p (List.mem_filterMap.mpr ⟨answer, (served_of_move ran).grows.subset made, found⟩)

/-- Every move of a run keeps the accounts. -/
theorem Follows.move {m : Move ω} (follows : Follows s) (ran : s.move stream m = some t)
    (addressed : Addressed t) : Follows t := by
  cases m with
  | read => exact follows.pollRead ran addressed
  | write fuel => exact follows.pollWrite ran
  | event e =>
      cases e with
      | read | wrote => cases ran
      | enter | response | resolved | created | sent | shutDown | dropped | packet | receiveFails
      | seesCancellation => exact follows.advance ran nofun nofun
  | meanwhile f =>
      obtain rfl := Option.some.inj ran
      refine ⟨follows.serves.around _,
        follows.decided, follows.allocated, follows.shared,
        fun now => (follows.left now).around, ?_⟩
      intro now
      obtain ⟨ended, same, past⟩ := follows.atEof now
      exact ⟨⟨ended.eof, ended.rest⟩, same, past⟩

/-- Why the loop was left, when the client sends frames: its stream has ended, a read
of it has failed, or a response could not be written. A read fails because the
stream underneath does, or because the next frame is stuck in the read buffer. -/
inductive Reason (fs : List Framed) (t : Forwarding ω) : Prop
  | ended (eof : EofSeen (events t.server.1.2))
  | readFailed {room : Nat} {e : IoError}
      (mem : .read room (.ready (.error e)) ∈ events t.server.1.2)
  | readStuck {f : Framed} (next : fs[(packets t.server.2).length]? = some f)
      (stuck : Stuck t.server.1.1.readBuf.start f.frame)
  | notWritten {answer : Answer} {e : IoError} (mem : answer ∈ t.server.2)
      (failed : writeError? answer = some e)

/-- The frames of a client are forwarded: what was sent is the payload of each frame
whose verdict is an address, to that address. The packet in hand is the next one
without a verdict, and its payload is in the shared buffer. When the stream has
ended, every frame has its verdict. The loop is left for a reason. -/
structure Forwards (fs : List Framed) (t : Forwarding ω) : Prop where
  sends : (t.routing.sends.map fun send => (send.payload, send.addr)) =
    forwarded (fs.map Framed.packet) t.verdicts
  fewer : t.verdicts.length ≤ fs.length
  hand : ∀ p ∈ t.routing.await.inHand,
    (fs[t.verdicts.length]?).map Framed.packet = some p ∧
      t.buf.slice 0 p.payload.length = some p.payload
  all : t.server.1.1.isEof = true → produced (events t.server.1.2) = wire fs →
    t.verdicts.length = fs.length
  reason : t.routing.await = .shuttingDown → Reason fs t

theorem inHand_of_mem {await : Await} {p : Packet} (mem : p ∈ await.inHand) :
    await ≠ .ended ∧ await.inHand = [p] := by
  cases await with
  | resolving | creating =>
      obtain rfl := List.mem_singleton.mp mem
      exact ⟨nofun, rfl⟩
  | top | select | writing | sending | shuttingDown | ended => cases mem

theorem forwarded_take {ps more : List Packet} {verdicts : List (Option SocketAddr)}
    (fewer : verdicts.length ≤ ps.length) :
    forwarded (ps ++ more) verdicts = forwarded ps verdicts := by
  have length : (ps.take verdicts.length).length = verdicts.length :=
    List.length_take_of_le fewer
  have cut := List.take_append_drop verdicts.length ps
  rw [← cut, List.append_assoc, forwarded_append length, forwarded_append length]

theorem Follows.forwards {fs : List Framed} (follows : Follows t)
    (received : produced (events t.server.1.2) <+: wire fs) : Forwards fs t := by
  obtain ⟨start, live, consumed, holds, is, account⟩ := follows.serves.keeps.reads
  have reads : PacketAddrStream.Reads (packets t.server.2) t.server.1 :=
    ⟨start, live, consumed, holds, is, account⟩
  obtain ⟨more, whole⟩ := received
  obtain ⟨done, rest, split, returned, -⟩ := reads.split holds whole
  have most := follows.decided.most
  refine ⟨?_, ?_, ?_, ?_, ?_⟩
  · rw [split, List.map_append, ← returned, forwarded_take most]
    exact follows.decided.sends
  · rw [split, List.length_append]
    rw [returned, List.length_map] at most
    exact Nat.le_trans most (Nat.le_add_right _ _)
  · intro p mem
    refine ⟨?_, follows.shared p mem⟩
    obtain ⟨notEnded, alone⟩ := inHand_of_mem mem
    obtain ⟨before, all, length⟩ := follows.decided.hand notEnded
    rw [alone, returned] at all
    rw [← List.getElem?_map, split, List.map_append, all, ← length, List.append_assoc,
      List.getElem?_append_right (Nat.le_refl _), Nat.sub_self]
    rfl
  · intro eof all
    obtain ⟨ended, same, -⟩ := follows.atEof eof
    rw [same, ended.all reads all, List.length_map]
  · intro now
    cases follows.left now with
    | ended ended => exact .ended ended.eof
    | notWritten mem failed => exact .notWritten mem failed
    | readFailed fails =>
        rcases fails.reason reads ⟨more, whole⟩ with ⟨room, mem⟩ | ⟨-, f, next, stuck⟩
        · exact .readFailed mem
        · exact .readStuck next stuck

/-- In every run, as long as the client sends frames and none of them is addressed
to 0.0.0.0:0, its frames are forwarded. -/
theorem packets_forwarded (stream : AsyncStream ω) (readMemory writeMemory memory : Nat → UInt8)
    (now : Nat) (world : ω) (moves : List (Move ω)) (fs : List Framed)
    (addressed : ∀ f ∈ fs, f.packet.location.isUnspecified = false) :
    Transition.Always (Forwarding.move stream)
      (fun t => produced (events t.server.1.2) <+: wire fs → Forwards fs t)
      (start readMemory writeMemory memory now world) moves := by
  refine Transition.always_of_invariant (I := fun t => Serves t.server ∧ (Addressed t → Follows t))
    ?_ ?_ ?_ moves
  · rintro t ⟨serves, follows⟩ received
    refine (follows ?_).forwards received
    -- the packets that were read are those of the first frames
    obtain ⟨more, whole⟩ := received
    obtain ⟨start, live, consumed, holds, is, account⟩ := serves.keeps.reads
    obtain ⟨done, rest, rfl, returned, -⟩ :=
      PacketAddrStream.Reads.split ⟨start, live, consumed, holds, is, account⟩ holds whole
    intro p mem
    rw [returned] at mem
    obtain ⟨f, first, rfl⟩ := List.mem_map.mp mem
    exact addressed f (List.mem_append_left _ first)
  · rintro s m t ⟨serves, follows⟩ ran
    refine ⟨(served_of_move ran).serves serves, fun addressed_ => ?_⟩
    exact (follows (addressed_.of_move ran)).move ran addressed_
  · have follows := follows_start readMemory writeMemory memory now world
    exact ⟨follows.serves, fun _ => follows⟩

/-! ## A packet to nowhere -/

/-- A read of an empty buffer when a frame has come. -/
theorem read_piece {this : PacketAddrStream} (empty : this.readBuf.Holds BUFFER_SIZE 0 [])
    (open_ : this.isEof = false) (f : Framed) (src : Arrivals) (calls : List (Side × IoEvent))
    {fuel : Nat} (enough : 2 ≤ fuel) :
    ∃ readBuf, PacketAddrStream.pollReadTargetedMessage fuel (Arrivals.stream.recorded .a) 65535
        (this, ⟨.piece f.frame :: src, calls⟩) =
        (.returned (.ready (.ok f.packet)), { this with readBuf },
          ⟨src, calls ++ [(.a, .read BUFFER_SIZE (.ready (.ok f.frame)))]⟩) ∧
      readBuf.Holds BUFFER_SIZE 0 [] := by
  have read :
      (Arrivals.stream.recorded .a).pollRead (BUFFER_SIZE - (compacted 0 + ([] : Bytes).length))
        ⟨.piece f.frame :: src, calls⟩ =
      (.ready (.ok f.frame), ⟨src, calls ++ [(.a, .read BUFFER_SIZE (.ready (.ok f.frame)))]⟩) := by
    have whole : Arrivals.stream.pollRead BUFFER_SIZE (.piece f.frame :: src) =
        (.ready (.ok f.frame), src) := if_pos f.fits
    exact congrArg (Recorded.note .a (.read BUFFER_SIZE) calls) whole
  obtain ⟨answer, this', w, filled, does⟩ : ∃ answer this' w, PacketAddrStream.readTurn
      (Arrivals.stream.recorded .a) 65535 (this, ⟨.piece f.frame :: src, calls⟩) =
        (.returned answer, this', w) ∧ PacketAddrStream.TurnDoes _ 0 [] this _ answer this' w :=
    PacketAddrStream.readTurn_does empty
  cases does with
  | packet is begins =>
      have positive := is.length_pos
      rw [(List.append_eq_nil_iff.mp begins.symm).1] at positive
      exact absurd positive (Nat.lt_irrefl 0)
  | invalid stays => cases stays []
  | full _ full => exact absurd full (by decide)
  | eof _ answered =>
      obtain ⟨same, -⟩ := Prod.mk.inj (read.symm.trans answered)
      have positive := f.is.length_pos
      rw [Except.ok.inj (Poll.ready.inj same)] at positive
      exact absurd positive (Nat.lt_irrefl 0)
  | failed _ answered | pending _ answered => cases read.symm.trans answered
  | @received _ readBuf _ _ answered _ _ holds =>
      obtain ⟨same, rfl⟩ := Prod.mk.inj (read.symm.trans answered)
      obtain rfl := Except.ok.inj (Poll.ready.inj same)
      rw [List.nil_append, ← List.append_nil f.frame] at holds
      obtain ⟨readBuf', taken, holds'⟩ : ∃ readBuf', PacketAddrStream.readTurn
          (Arrivals.stream.recorded .a) 65535 ({ this with readBuf }, _) =
            (.returned (some (.ready (.ok f.packet))), { this with readBuf := readBuf' }, _) ∧ _ :=
        PacketAddrStream.readTurn_packet holds f.is
      rw [if_pos rfl] at holds'
      obtain ⟨fuel, rfl⟩ := Nat.exists_eq_add_of_le' enough
      refine ⟨readBuf', (PacketAddrStream.pollRead_eq_loop open_ _).trans ?_, holds'⟩
      exact (Exec.loop_of_none filled (fuel + 1)).trans (Exec.loop_of_some taken fuel)

theorem isFrame_frameTo {payload : Bytes} (addr : SocketAddr) (small : payload.length < 2 ^ 15) :
    IsFrame (frameOf payload addr) ⟨locationOf addr, payload⟩ :=
  isFrame_frameOf (Nat.lt_trans small (by decide))

theorem fits_frameTo {payload : Bytes} (addr : SocketAddr) (small : payload.length < 2 ^ 15) :
    (frameOf payload addr).length ≤ BUFFER_SIZE := by
  have length := length_frameOf payload addr
  rw [← PacketAddrStream.addrLen_eq] at length
  have short : PacketAddrStream.addrLen addr ≤ 19 := by
    cases addr <;> simp [PacketAddrStream.addrLen]
  simp only [BUFFER_SIZE]
  omega

/-- A frame on its way to an address. -/
def frameTo (payload : Bytes) (addr : SocketAddr) (small : payload.length < 2 ^ 15) : Framed where
  frame := frameOf payload addr
  packet := ⟨locationOf addr, payload⟩
  is := isFrame_frameTo addr small
  fits := fits_frameTo addr small

theorem read_of_packet {p : Packet} {server server' : Calling (Recorded ω)}
    (at_ : s.routing.await = .select) (same : s.server.1 = server)
    (polled : PacketAddrStream.pollReadTargetedMessage (BUFFER_SIZE + 1) (stream.recorded .a) 65535
      server = (.returned (.ready (.ok p)), server')) :
    s.move stream .read =
      { s.answered (.read (.ready (.ok p)) server'.1.isEof) server' with
        buf := Ring.overwrite s.buf 0 p.payload }.advance
          (.read (some (p.location, p.payload))) := by
  subst same
  simp only [move, Forwarding.pollRead, at_, polled]

/-- Nothing is buffered of what has come from the client's stream. -/
structure Awaits (src : Arrivals) (got : List IoEvent) (s : Forwarding Arrivals) : Prop where
  empty : s.server.1.1.readBuf.Holds BUFFER_SIZE 0 []
  open_ : s.server.1.1.isEof = false
  world : s.server.1.2.world = src
  events : events s.server.1.2 = got

theorem awaits_start (readMemory writeMemory memory : Nat → UInt8) (src : Arrivals) :
    Awaits src [] (start readMemory writeMemory memory 0 src) :=
  ⟨SlideBuffer.holds_new _ _, rfl, rfl, rfl⟩

section Moving

variable {f : Framed} {src : Arrivals} {got : List IoEvent} {s t : Forwarding Arrivals}
  {routing : Routing}

theorem Awaits.of_server (awaits : Awaits src got s) (same : t.server = s.server) :
    Awaits src got t := by
  obtain ⟨empty, open_, world, events⟩ := awaits
  rw [← same] at empty open_ world events
  exact ⟨empty, open_, world, events⟩

/-- The select reads the next frame. -/
theorem Awaits.read (awaits : Awaits (.piece f.frame :: src) got s)
    (at_ : s.routing.await = .select)
    (taken : step s.routing (.read (some (f.packet.location, f.packet.payload))) = some routing) :
    ∃ t, s.move Arrivals.stream .read = some t ∧ t.routing = routing ∧
      Awaits src (got ++ [.read BUFFER_SIZE (.ready (.ok f.frame))]) t ∧
      t.server.2 = s.server.2 ++ [.read (.ready (.ok f.packet)) false] := by
  obtain ⟨readBuf, polled, holds⟩ := read_piece awaits.empty awaits.open_ f src
    s.server.1.2.calls (show 2 ≤ BUFFER_SIZE + 1 by decide)
  have same : s.server.1 = (s.server.1.1, ⟨.piece f.frame :: src, s.server.1.2.calls⟩) := by
    rw [← awaits.world]
  rw [read_of_packet at_ same polled]
  refine ⟨_, Option.bind_eq_some_iff.mpr ⟨routing, taken, rfl⟩, rfl,
    ⟨holds, awaits.open_, rfl, ?_⟩, ?_⟩
  · rw [← awaits.events]
    exact List.map_append
  · show s.server.2 ++ [_] = _
    rw [awaits.open_]

/-- An event that is not an answer of the client's stream. -/
theorem Awaits.advance {e : Event} (awaits : Awaits src got s)
    (taken : step s.routing e = some routing) :
    ∃ t, s.advance e = some t ∧ t.routing = routing ∧ Awaits src got t :=
  ⟨_, Option.bind_eq_some_iff.mpr ⟨routing, taken, rfl⟩, rfl, awaits.of_server rfl⟩

end Moving

/-- A frame that is addressed to 0.0.0.0:0 ends the loop, whatever follows it. -/
theorem left_at_nowhere {f : Framed} (nowhere : f.packet.location.isUnspecified = true)
    (later : List Framed) (readMemory writeMemory memory : Nat → UInt8) (src : Arrivals) :
    ¬Transition.Always (Forwarding.move Arrivals.stream)
      (fun t => produced (events t.server.1.2) <+: wire (f :: later) → Forwards (f :: later) t)
      (start readMemory writeMemory memory 0 (.piece f.frame :: src))
      [.event (.enter 0), .read] := by
  intro always
  obtain ⟨s, entered, select, awaits⟩ :=
    (awaits_start readMemory writeMemory memory (.piece f.frame :: src)).advance
      (show step (Routing.initial 0) (.enter 0) = some _ by rfl)
  have taken : step s.routing (.read (some (f.packet.location, f.packet.payload))) =
      some s.routing.leaveLoop := by
    rw [select]
    exact if_pos nowhere
  obtain ⟨t, read, routing, read_, answers⟩ := awaits.read (by rw [select]) taken
  have received : produced (events t.server.1.2) <+: wire (f :: later) := by
    rw [read_.events]
    exact ⟨wire later, congrArg (· ++ wire later) (List.append_nil f.frame)⟩
  have forwards : Forwards (f :: later) t := (always.2 _ entered).2 _ read received
  have left : t.routing.await = .shuttingDown := by rw [routing]; rfl
  cases forwards.reason left with
  | ended eof =>
      obtain ⟨room, mem⟩ := eof
      rw [read_.events, List.nil_append, List.mem_singleton] at mem
      have positive := f.is.length_pos
      simp only [IoEvent.read.injEq, Poll.ready.injEq, Except.ok.injEq] at mem
      rw [← mem.2] at positive
      exact absurd positive (Nat.lt_irrefl 0)
  | readFailed mem =>
      rw [read_.events, List.nil_append, List.mem_singleton] at mem
      cases mem
  | readStuck _ stuck =>
      rw [read_.empty.starts] at stuck
      exact absurd stuck.1 (Nat.not_succ_le_zero 0)
  | notWritten mem failed =>
      rw [answers] at mem
      rcases List.mem_append.mp mem with earlier | last
      · rw [advance_server entered] at earlier
        cases earlier
      · rw [List.mem_singleton.mp last] at failed
        cases failed

def toNowhere : Framed := frameTo [7] (.v4 ⟨0, 0, 0, 0⟩ 0) (by decide)

def toServer : Framed := frameTo [8] (.v4 ⟨1, 2, 3, 4⟩ 53) (by decide)

/-- A client sends a datagram to 0.0.0.0:0, and then one to 1.2.3.4:53. -/
theorem packet_to_nowhere_ends_loop :
    ¬Transition.Always (Forwarding.move Arrivals.stream)
      (fun t => produced (events t.server.1.2) <+: wire [toNowhere, toServer] →
        Forwards [toNowhere, toServer] t)
      (start (fun _ => 0) (fun _ => 0) (fun _ => 0) 0
        [.piece toNowhere.frame, .piece toServer.frame])
      [.event (.enter 0), .read] :=
  left_at_nowhere rfl _ _ _ _ _

/-- The clean-up pass is not due. -/
theorem enter_of_recent {r : Routing} {now : Nat} (at_ : r.await = .top)
    (recent : now - r.lastCleanup < seconds 10) :
    step r (.enter now) = some { r with await := .select } := by
  have kept : r.cleanUp now = r := if_neg (Nat.not_le.mpr recent)
  rw [step, at_, kept]

def toServerAgain : Framed := frameTo [9] (.v4 ⟨1, 2, 3, 4⟩ 53) (by decide)

def clientOfTwo : Forwarding Arrivals :=
  start (fun _ => 0) (fun _ => 0) (fun _ => 0) 0
    [.piece toServer.frame, .piece toServerAgain.frame]

/-- A socket is made for the first datagram, and the second leaves from it. -/
def twoToServer : List (Move Arrivals) :=
  [.event (.enter 0), .read, .event (.resolved (some (.v4 ⟨1, 2, 3, 4⟩ 53)) 0),
    .event (.created true), .event .sent, .event (.enter 0), .read,
    .event (.resolved (some (.v4 ⟨1, 2, 3, 4⟩ 53)) 0)]

/-- Two datagrams to 1.2.3.4:53 are both sent there, in order. -/
theorem packets_to_server_forwarded :
    (∀ f ∈ [toServer, toServerAgain], f.packet.location.isUnspecified = false) ∧
    ∃ t, twoToServer.foldlM (Forwarding.move Arrivals.stream) clientOfTwo = some t ∧
      t.routing.sends = [⟨0, [8], .v4 ⟨1, 2, 3, 4⟩ 53⟩, ⟨0, [9], .v4 ⟨1, 2, 3, 4⟩ 53⟩] ∧
      Forwards [toServer, toServerAgain] t := by
  have addressed : ∀ f ∈ [toServer, toServerAgain], f.packet.location.isUnspecified = false := by
    intro f mem
    rcases List.mem_pair.mp mem with rfl | rfl <;> rfl
  have always := packets_forwarded Arrivals.stream (fun _ => 0) (fun _ => 0) (fun _ => 0) 0
    [.piece toServer.frame, .piece toServerAgain.frame] twoToServer [toServer, toServerAgain]
    addressed
  have begins : Awaits [.piece toServer.frame, .piece toServerAgain.frame] [] clientOfTwo :=
    awaits_start _ _ _ _
  obtain ⟨s₁, entered, routing₁, awaits₁⟩ :=
    begins.advance (enter_of_recent rfl (show 0 - (Routing.initial 0).lastCleanup < seconds 10 by
      decide))
  obtain ⟨s₂, read, routing₂, awaits₂, -⟩ := awaits₁.read (by rw [routing₁])
    (by rw [routing₁]; rfl)
  obtain ⟨s₃, resolved, routing₃, awaits₃⟩ := awaits₂.advance
    (show step s₂.routing (.resolved (some (.v4 ⟨1, 2, 3, 4⟩ 53)) 0) = some _ by
      rw [routing₂]; rfl)
  obtain ⟨s₄, created, routing₄, awaits₄⟩ := awaits₃.advance
    (show step s₃.routing (.created true) = some _ by rw [routing₃]; rfl)
  obtain ⟨s₅, sent, routing₅, awaits₅⟩ := awaits₄.advance
    (show step s₄.routing .sent = some _ by rw [routing₄]; rfl)
  obtain ⟨s₆, entered', routing₆, awaits₆⟩ := awaits₅.advance
    (enter_of_recent (by rw [routing₅]) (show 0 - s₅.routing.lastCleanup < seconds 10 by
      rw [routing₅]; decide))
  obtain ⟨s₇, read', routing₇, awaits₇, -⟩ := awaits₆.read (by rw [routing₆])
    (by rw [routing₆]; rfl)
  obtain ⟨t, resolved', routing, awaits⟩ := awaits₇.advance
    (show step s₇.routing (.resolved (some (.v4 ⟨1, 2, 3, 4⟩ 53)) 0) = some _ by
      rw [routing₇, routing₅]; rfl)
  have ran : twoToServer.foldlM (Forwarding.move Arrivals.stream) clientOfTwo = some t := by
    refine Transition.run_cons entered (Transition.run_cons read ?_)
    refine Transition.run_cons resolved (Transition.run_cons created ?_)
    refine Transition.run_cons sent (Transition.run_cons entered' ?_)
    exact Transition.run_cons read' (Transition.run_cons resolved' rfl)
  refine ⟨addressed, t, ran, by rw [routing]; rfl, always.after ran ?_⟩
  rw [awaits.events]
  exact List.prefix_rfl

end Forwarding

end RustProxy.UdpRelay
