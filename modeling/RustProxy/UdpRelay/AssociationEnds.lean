import RustProxy.MessageStream.Arrivals
import RustProxy.UdpRelay.Association

/-!
# Why an association ends

An association is to last until its client is gone, something fails or nothing
happens for too long, and to hand over every message meanwhile (`Kept`). It does so
in every run in which no empty message and no empty datagram is read. One empty
datagram ends it at once.
-/

namespace RustProxy.UdpRelay

open CopyBidirectional (Relaying Turn ActiveSince NeverWraps)
open MessageStream (Arrivals VlessMessageStream events)
open MessageStream.VlessMessageStream (Failed READ_SIZE)
open Prefixed
open Relay (EofSeen)

variable {ω : Type}

section Idle

variable {cx : TimedContext ω} {reader writer a b : AsyncMessageStream ω}

/-- Nothing is to be done in a direction: no message is cached, and no flush and no
ping is due. -/
structure CopyBuffer.Idle (me : CopyBuffer) : Prop where
  reading : me.readDone = false
  empty : me.cacheLength = 0
  flushed : me.needFlush = false
  unasked : me.needWritePing = false
  allocated : me.buf.length = 65535

namespace CopyBuffer

variable {me : CopyBuffer} {w w' w'' : ω}

theorem idle_new (memory : Nat → UInt8) : (new memory false).Idle where
  reading := rfl
  empty := rfl
  flushed := rfl
  unasked := rfl
  allocated := by simp [new, Relay.allocateVec]

theorem ping_unasked (unasked : me.needWritePing = false) :
    ping writer false (me, w) = (.returned (.ok false), me, w) :=
  if_neg (by rw [unasked]; exact fun h => Bool.false_ne_true h.2)

/-- Without a message a turn comes to its end at once. -/
theorem copyTurn_of_read {moved : Moved} {me' : CopyBuffer} (still : moved.did = false)
    (ran : read reader (me, w) = (.returned (.ok moved), me', w'))
    (empty : me'.cacheLength = 0) (unasked : me'.needWritePing = false) :
    copyTurn reader writer (me, w) = settle writer moved.pending false (me', w') := by
  have written : write writer (me', w') = (.returned (.ok ⟨false, false⟩), me', w') :=
    if_neg (by rw [empty]; exact Nat.lt_irrefl 0)
  refine (Exec.bind_of_returned ran).trans ?_
  refine (Exec.bind_of_returned written).trans ?_
  refine (Exec.bind_of_returned (ping_unasked unasked)).trans ?_
  rw [still]
  rfl

theorem Idle.copyTurn_pending (idle : me.Idle)
    (answered : reader.pollReadMessage 65535 w = (.pending, w')) :
    copyTurn reader writer (me, w) = (.returned (some .pending), me, w') := by
  have ran : read reader (me, w) = (.returned (.ok ⟨false, true⟩), me, w') := by
    simp only [read, idle.reading, idle.empty, idle.allocated, answered]
    rfl
  rw [copyTurn_of_read rfl ran idle.empty idle.unasked]
  simp only [settle, idle.flushed, idle.reading]
  rfl

/-- An empty message ends the direction. -/
theorem Idle.copyTurn_empty (idle : me.Idle)
    (answered : reader.pollReadMessage 65535 w = (.ready (.ok []), w')) :
    copyTurn reader writer (me, w) =
      (.returned (some (.ready (.ok ()))), { me with readDone := true }, w') := by
  have ran : read reader (me, w) =
      (.returned (.ok ⟨false, false⟩), { me with readDone := true }, w') := by
    simp only [read, idle.reading, idle.empty, idle.allocated, answered]
    rfl
  rw [copyTurn_of_read rfl ran idle.empty idle.unasked]
  simp only [settle, idle.flushed, idle.empty]
  rfl

/-- A message is read and written. -/
theorem Idle.copyTurn_message (idle : me.Idle) {m : Bytes} (some_ : m ≠ [])
    (answered : reader.pollReadMessage 65535 w = (.ready (.ok m), w'))
    (written : writer.pollWriteMessage m w' = (.ready (.ok ()), w'')) :
    ∃ me' : CopyBuffer, me'.Idle ∧
      copyTurn reader writer (me, w) = (.returned none, { me' with needFlush := true }, w'') := by
  have fits : m.length ≤ 65535 := reader.read_fits _ _ _ (congrArg Prod.fst answered)
  have positive : 0 < m.length := List.length_pos_iff.mpr some_
  have length : (Ring.overwrite me.buf 0 m).length = me.buf.length :=
    Ring.length_overwrite (by rw [idle.allocated]; omega)
  have cached : (Ring.overwrite me.buf 0 m).slice 0 m.length = some m := by
    have front : (Ring.overwrite me.buf 0 m).take (0 + m.length) = [] ++ m :=
      Ring.take_overwrite (Nat.zero_le _)
    rw [List.slice_zero (by rw [length, idle.allocated]; exact fits),
      ← Nat.zero_add m.length, front]
    rfl
  let me₁ : CopyBuffer := { me with
    buf := Ring.overwrite me.buf 0 m
    cacheLength := m.length
    readCount := (me.readCount + m.length) % 2 ^ 64 }
  have read_ : read reader (me, w) = (.returned (.ok ⟨true, false⟩), me₁, w') := by
    rw [read]
    refine (if_pos ⟨by rw [idle.reading]; rfl, idle.empty⟩).trans ?_
    simp only [idle.allocated, answered, if_neg (Nat.pos_iff_ne_zero.mp positive), me₁]
  let me₂ : CopyBuffer := { me₁ with cacheLength := 0, needFlush := true, needWritePing := false }
  have write_ : write writer (me₁, w') = (.returned (.ok ⟨true, false⟩), me₂, w'') := by
    rw [write]
    refine (if_pos positive).trans ?_
    simp only [me₁, me₂, cached, written]
  refine ⟨{ me₂ with needFlush := false },
    ⟨idle.reading, rfl, rfl, rfl, length.trans idle.allocated⟩, ?_⟩
  refine (Exec.bind_of_returned read_).trans ?_
  refine (Exec.bind_of_returned write_).trans ?_
  exact (Exec.bind_of_returned (ping_unasked rfl)).trans rfl

/-- What was written is flushed when there is nothing more to read. -/
theorem Idle.copyTurn_flush (idle : me.Idle)
    (answered : reader.pollReadMessage 65535 w = (.pending, w'))
    (flushed : writer.pollFlushMessage w' = (.ready (.ok ()), w'')) :
    copyTurn reader writer ({ me with needFlush := true }, w) = (.returned none, me, w'') := by
  have ran : read reader ({ me with needFlush := true }, w) =
      (.returned (.ok ⟨false, true⟩), { me with needFlush := true }, w') := by
    simp only [read, idle.reading, idle.empty, idle.allocated, answered]
    rfl
  rw [copyTurn_of_read rfl ran idle.empty idle.unasked]
  simp only [settle, flushed, if_true]
  rw [← idle.flushed]

end CopyBuffer

section Directions

variable {t : CopyBuffer} {w w' w'' w₁ w₂ w₃ w₄ w₅ : ω} {fuel : Nat} {cx : Context ω}

theorem transfer_pending (idle : t.Idle) (proceeds : cx.pollProceed w = (.ready (), w))
    (answered : reader.pollReadMessage 65535 w = (.pending, w')) :
    transferOneDirection (fuel + 1) cx reader writer (⟨.running, t⟩, w) =
      (.returned .pending, ⟨.running, t⟩, w') := by
  refine Exec.loop_of_some ?_ fuel
  have copied : CopyBuffer.pollCopy (fuel + 1) cx reader writer (t, w) =
      (.returned .pending, t, w') := by
    simp only [CopyBuffer.pollCopy, proceeds]
    exact Exec.loop_of_some (idle.copyTurn_pending answered) fuel
  simp only [transferTurn, copied]

/-- A direction hands a message over, and waits for the next one. -/
theorem transfer_message (idle : t.Idle) (proceeds : cx.pollProceed w = (.ready (), w))
    {m : Bytes} (some_ : m ≠ [])
    (answered : reader.pollReadMessage 65535 w = (.ready (.ok m), w₁))
    (written : writer.pollWriteMessage m w₁ = (.ready (.ok ()), w₂))
    (waits : reader.pollReadMessage 65535 w₂ = (.pending, w₃))
    (flushed : writer.pollFlushMessage w₃ = (.ready (.ok ()), w₄))
    (still : reader.pollReadMessage 65535 w₄ = (.pending, w₅)) :
    ∃ t', transferOneDirection (fuel + 3) cx reader writer (⟨.running, t⟩, w) =
      (.returned .pending, ⟨.running, t'⟩, w₅) := by
  obtain ⟨t', idle', turn⟩ := idle.copyTurn_message some_ answered written
  refine ⟨t', Exec.loop_of_some ?_ (fuel + 2)⟩
  have copied : CopyBuffer.pollCopy (fuel + 3) cx reader writer (t, w) =
      (.returned .pending, t', w₅) := by
    simp only [CopyBuffer.pollCopy, proceeds]
    refine (Exec.loop_of_none turn (fuel + 2)).trans ?_
    refine (Exec.loop_of_none (idle'.copyTurn_flush waits flushed) (fuel + 1)).trans ?_
    exact Exec.loop_of_some (idle'.copyTurn_pending still) fuel
  simp only [transferTurn, copied]

/-- A direction that reads an empty message shuts its writer down, and is ready. -/
theorem transfer_empty (idle : t.Idle) (proceeds : cx.pollProceed w = (.ready (), w))
    (answered : reader.pollReadMessage 65535 w = (.ready (.ok []), w'))
    (shutdown : writer.pollShutdownMessage w' = (.ready (.ok ()), w'')) :
    transferOneDirection (fuel + 3) cx reader writer (⟨.running, t⟩, w) =
      (.returned (.ready (.ok ())), ⟨.done, { t with readDone := true }⟩, w'') := by
  have copied : CopyBuffer.pollCopy (fuel + 3) cx reader writer (t, w) =
      (.returned (.ready (.ok ())), { t with readDone := true }, w') := by
    simp only [CopyBuffer.pollCopy, proceeds]
    exact Exec.loop_of_some (idle.copyTurn_empty answered) (fuel + 2)
  have running : transferTurn (fuel + 3) cx reader writer (⟨.running, t⟩, w) =
      (.returned none, ⟨.shuttingDown, { t with readDone := true }⟩, w') := by
    simp only [transferTurn, copied]
  have closing : transferTurn (fuel + 3) cx reader writer
      (⟨.shuttingDown, { t with readDone := true }⟩, w') =
      (.returned none, ⟨.done, { t with readDone := true }⟩, w'') := by
    simp only [transferTurn, shutdown]
  refine (Exec.loop_of_none running _).trans ?_
  exact (Exec.loop_of_none closing _).trans (Exec.loop_of_some rfl fuel)

end Directions

namespace CopyBidirectional

variable {me : CopyBidirectional} {w w₁ w₂ : ω} {fuel : Nat}

/-- A poll in which the timer does not fire. -/
theorem poll_of_transfers {aToB bToA : Poll (IoResult Unit)} {ta tb : Transfer}
    (sleeps : cx.pollSleep w = (.pending, w))
    (first : transferOneDirection fuel cx.toContext a b (me.aToB, w) = (.returned aToB, ta, w₁))
    (second : transferOneDirection fuel cx.toContext b a (me.bToA, w₁) =
      (.returned bToA, tb, w₂)) :
    poll fuel cx a b (me, w) =
      conclude cx me.aToB.buf.readCount me.bToA.buf.readCount aToB bToA
        ({ me with aToB := ta, bToA := tb }, w₂) := by
  have slept : pollSleep cx.toContext a b (me, w) = (.returned (), me, w) := by
    simp only [pollSleep, sleeps]
  refine (Exec.bind_of_returned slept).trans ?_
  refine (Exec.bind_of_returned (a := aToB) (t := ({ me with aToB := ta }, w₁)) ?_).trans ?_
  · simp only [Exec.zoom, first]
  refine Exec.bind_of_returned ?_
  simp only [Exec.zoom, second]

/-- A poll waits when its directions do, unless it has been too long. -/
theorem poll_pending {ta tb ta' tb' : Transfer} {active : Nat}
    (sleeps : cx.pollSleep w = (.pending, w))
    (first : transferOneDirection fuel cx.toContext a b (ta, w) = (.returned .pending, ta', w₁))
    (second : transferOneDirection fuel cx.toContext b a (tb, w₁) = (.returned .pending, tb', w₂))
    (recent : cx.now w₂ - active < ASSOCIATION_TIMEOUT) :
    ∃ me, poll fuel cx a b (⟨ta, tb, active⟩, w) = (.returned .pending, me, w₂) := by
  rw [poll_of_transfers sleeps first second, conclude]
  split
  · exact ⟨_, rfl⟩
  · rw [if_neg (Nat.not_le.mpr recent)]
    exact ⟨_, rfl⟩

end CopyBidirectional

end Idle

namespace Association

/-- The client's stream between two messages: nothing read is left, the bytes
`staged` are still to be sent, and `made` are the calls made underneath. -/
structure Clear (staged : Bytes) (w : ω) (made : List (Side × IoEvent))
    (s : VlessMessageStream.Calling (Recorded ω)) : Prop where
  holds : s.1.Holds []
  isOpen : s.1.isEof = false
  pending : s.1.pendingWrite = staged
  unsent : s.1.writeOffset = 0
  world : s.2 = ⟨w, made⟩

variable (inner : AsyncStream ω) (socket : UdpSocket ω) (room : Nat) {staged m : Bytes}
  {w w' w'' : ω} {made : List (Side × IoEvent)} {s : Association ω}

theorem incomplete_nil : Incomplete 2 [] := .inl (by decide)

theorem Clear.setWorld (clear : Clear staged w made s.1) :
    Clear staged w' made (s.setWorld w').1 :=
  ⟨clear.holds, clear.isOpen, clear.pending, clear.unsent,
    congrArg (Recorded.mk w') (congrArg Recorded.calls clear.world)⟩

/-- A read for which nothing has arrived. -/
theorem Clear.read_pending (clear : Clear staged w made s.1)
    (answered : inner.pollRead READ_SIZE w = (.pending, w')) :
    ∃ t, (client inner).pollReadMessage room s = (.pending, t) ∧
      Clear staged w' (made ++ [(.a, .read READ_SIZE .pending)]) t.1 := by
  obtain ⟨⟨this, _⟩, valid⟩ := s
  obtain ⟨holds, isOpen, pending, unsent, rfl⟩ := clear
  obtain ⟨valid', served⟩ : ∃ valid', readMessage inner room ⟨(this, ⟨w, made⟩), valid⟩ =
      (.pending, ⟨(this, ⟨w', _⟩), valid'⟩) :=
    serve_eq ((VlessMessageStream.pollRead_eq_loop isOpen _).trans (Exec.loop_of_some
      (VlessMessageStream.readTurn_pending holds incomplete_nil
        (AsyncStream.recorded_read answered)) _))
  exact ⟨_, served, holds, isOpen, pending, unsent, rfl⟩

/-- A read for which a whole message has arrived. -/
theorem Clear.read_message (clear : Clear staged w made s.1) (fits : Fits 2 m)
    (space : m.length ≤ room)
    (answered : inner.pollRead READ_SIZE w = (.ready (.ok (encode 2 m)), w')) :
    ∃ t, (client inner).pollReadMessage room s = (.ready (.ok m), t) ∧
      Clear staged w' (made ++ [(.a, .read READ_SIZE (.ready (.ok (encode 2 m))))]) t.1 := by
  obtain ⟨⟨this, _⟩, valid⟩ := s
  obtain ⟨holds, isOpen, pending, unsent, rfl⟩ := clear
  have some_ : encode 2 m ≠ [] := by simp [encode, BigEndian.toBe]
  obtain ⟨_, _, received, holds'⟩ :
      ∃ readBuf readEndIndex, VlessMessageStream.readTurn (inner.recorded .a) room
          (this, ⟨w, made⟩) = (.returned none, { this with readBuf, readEndIndex }, ⟨w', _⟩) ∧
        VlessMessageStream.Holds { this with readBuf, readEndIndex } ([] ++ encode 2 m) :=
    VlessMessageStream.readTurn_received holds incomplete_nil some_
      (AsyncStream.recorded_read answered)
  rw [List.nil_append, ← List.append_nil (encode 2 m)] at holds'
  obtain ⟨_, _, taken, empty⟩ := VlessMessageStream.readTurn_message holds' fits space
  obtain ⟨valid', served⟩ : ∃ valid', readMessage inner room ⟨(this, ⟨w, made⟩), valid⟩ =
      (.ready (.ok m), ⟨_, valid'⟩) :=
    serve_eq ((VlessMessageStream.pollRead_eq_loop isOpen _).trans
      ((Exec.loop_of_none received READ_SIZE).trans (Exec.loop_of_some taken _)))
  exact ⟨_, served, empty, isOpen, pending, unsent, rfl⟩

/-- A message is staged when nothing is. -/
theorem Clear.write (clear : Clear [] w made s.1) (fits : m.length ≤ 65535) :
    ∃ t, (client inner).pollWriteMessage m s = (.ready (.ok ()), t) ∧
      Clear (encode 2 m) w made t.1 := by
  obtain ⟨⟨this, _⟩, valid⟩ := s
  obtain ⟨holds, isOpen, pending, unsent, rfl⟩ := clear
  have staged : VlessMessageStream.pollWriteMessage (READ_SIZE + 1) (inner.recorded .a) m
      (this, ⟨w, made⟩) = (.returned (.ready (.ok ())),
        { this with pendingWrite := encode 2 m, writeOffset := 0 }, ⟨w, made⟩) := by
    rw [VlessMessageStream.pollWriteMessage]
    refine (if_neg (not_not.mpr pending)).trans ?_
    rw [VlessMessageStream.stage]
    refine (if_neg (Nat.not_lt.mpr fits)).trans ?_
    rw [show this.pendingWrite = [] from pending]
    rfl
  obtain ⟨valid', served⟩ : ∃ valid', writeMessage inner m ⟨(this, ⟨w, made⟩), valid⟩ =
      (.ready (.ok ()), ⟨_, valid'⟩) := serve_eq staged
  exact ⟨_, served, ⟨holds.allocated, holds.ends, holds.inside, holds.bytes⟩, isOpen, rfl, rfl, rfl⟩

/-- What is staged is sent in one piece and flushed. -/
theorem Clear.flush (clear : Clear staged w made s.1) (some_ : staged ≠ [])
    (wrote : inner.pollWrite staged w = (.ready (.ok staged.length), w'))
    (flushed : inner.pollFlush w' = (.ready (.ok ()), w'')) :
    ∃ t, (client inner).pollFlushMessage s = (.ready (.ok ()), t) ∧
      Clear [] w'' (made ++ [(.a, .write staged (.ready (.ok staged.length))),
        (.a, .flush (.ready (.ok ())))]) t.1 := by
  obtain ⟨⟨this, _⟩, valid⟩ := s
  obtain ⟨holds, isOpen, pending, unsent, rfl⟩ := clear
  obtain ⟨readBuf, readEndIndex, pendingWrite, writeOffset, isEof⟩ := this
  subst pending unsent
  let made' := made ++ [(.a, .write pendingWrite (.ready (.ok pendingWrite.length)))]
  have sends : VlessMessageStream.sendTurn (inner.recorded .a)
      (⟨readBuf, readEndIndex, pendingWrite, 0, isEof⟩, ⟨w, made⟩) =
        (.returned none,
          ⟨readBuf, readEndIndex, pendingWrite, 0 + pendingWrite.length, isEof⟩, ⟨w', made'⟩) := by
    rw [VlessMessageStream.sendTurn]
    refine (if_pos (List.length_pos_iff.mpr some_)).trans ?_
    simp only [List.slice_length (Nat.zero_le _), List.drop_zero, AsyncStream.recorded_write wrote,
      if_neg (mt List.length_eq_zero_iff.mp some_), made']
  have sent : VlessMessageStream.sendTurn (inner.recorded .a)
      (⟨readBuf, readEndIndex, pendingWrite, 0 + pendingWrite.length, isEof⟩, ⟨w', made'⟩) =
        (.returned (some (.ready (.ok ()))), _, _) := if_neg (by simp)
  have done : VlessMessageStream.pollFlushMessage (READ_SIZE + 1) (inner.recorded .a)
      (⟨readBuf, readEndIndex, pendingWrite, 0, isEof⟩, ⟨w, made⟩) =
        (.returned (.ready (.ok ())), ⟨readBuf, readEndIndex, [], 0, isEof⟩,
          ⟨w'', made' ++ [(.a, .flush (.ready (.ok ())))]⟩) := by
    refine (Exec.bind_of_returned ((Exec.loop_of_none sends _).trans
      (Exec.loop_of_some sent _))).trans ?_
    simp only [VlessMessageStream.flushInner, AsyncStream.recorded_flush flushed]
  obtain ⟨valid', served⟩ : ∃ valid', flushMessage inner
      ⟨(⟨readBuf, readEndIndex, pendingWrite, 0, isEof⟩, ⟨w, made⟩), valid⟩ =
        (.ready (.ok ()), ⟨_, valid'⟩) := serve_eq done
  exact ⟨_, served, ⟨holds.allocated, holds.ends, holds.inside, holds.bytes⟩, isOpen, rfl, rfl,
    congrArg (Recorded.mk w'') (List.append_assoc _ _ _)⟩

/-- A datagram, or none, is received around it. -/
theorem Clear.receive (clear : Clear staged w made s.1) {answer : Poll (IoResult Bytes)}
    (received : socket.pollRecv room w = (answer, w')) :
    ∃ t, (socketStream socket).pollReadMessage room s = (answer, t) ∧
      Clear staged w' made t.1 := by
  have here : socket.pollRecv room s.1.2.world = (answer, w') := by rw [clear.world, received]
  exact ⟨_, by simp only [socketStream, here], clear.setWorld⟩

/-- A message is sent to the destination around it. -/
theorem Clear.send (clear : Clear staged w made s.1) {n : Nat}
    (sent : socket.pollSend m w = (.ready (.ok n), w')) :
    ∃ t, (socketStream socket).pollWriteMessage m s = (.ready (.ok ()), t) ∧
      Clear staged w' made t.1 := by
  have here : socket.pollSend m s.1.2.world = (.ready (.ok n), w') := by rw [clear.world, sent]
  exact ⟨_, by simp only [socketStream, here], clear.setWorld⟩

end Association

/-- What an association is made of: the runtime, the client's stream, the socket,
the memory of the buffers, and whether the streams want a flush at the start. -/
structure Setting (ω : Type) where
  cx : TimedContext ω
  stream : AsyncStream ω
  socket : UdpSocket ω
  memory : Nat → UInt8
  buffers : Side → Nat → UInt8
  serverFlush : Bool
  clientFlush : Bool
  world : ω

theorem keeps_new (memory : Nat → UInt8) (w : ω) :
    VlessMessageStream.Keeps [] none [] False []
      ((VlessMessageStream.new memory, Recorded.start w) :
        VlessMessageStream.Calling (Recorded ω)) where
  reads := ⟨[], VlessMessageStream.holds_new memory, nofun, rfl, rfl, nofun,
    iff_of_false nofun nofun⟩
  writes := ⟨Nat.le_refl _, Nat.zero_le _, rfl, nofun⟩
  seen := List.nil_subset _

/-- A client's stream on which no call was made. -/
def Association.new (memory : Nat → UInt8) (w : ω) : Association ω :=
  ⟨(.new memory, Recorded.start w), [], none, [], keeps_new memory w⟩

namespace Setting

def start (x : Setting ω) : Relaying (Traced (Association ω)) :=
  (copyBidirectionalMessage x.buffers (x.cx.now x.world) x.serverFlush x.clientFlush,
    ⟨.new x.memory x.world, []⟩)

/-- The association, polled any number of times. -/
def after (x : Setting ω) (turns : List (Turn ω)) :
    Outcome (Poll (IoResult Unit)) × Relaying (Traced (Association ω)) :=
  CopyBidirectional.run (Association.context x.cx) (Association.client x.stream)
    (Association.socketStream x.socket) x.start (turns.map Association.turn)

/-- The calls on the two streams so far. -/
def calls (x : Setting ω) (turns : List (Turn ω)) : List (Side × MessageEvent) :=
  (x.after turns).2.2.calls

/-- The client's stream, with the calls underneath it. -/
def client (x : Setting ω) (turns : List (Turn ω)) :
    VlessMessageStream.Calling (Recorded ω) := (x.after turns).2.2.world.1

/-- A reason to end: the client's stream has ended, a call on it or on the socket
has failed, or no message was read for too long. -/
inductive Reason (x : Setting ω) (turns : List (Turn ω)) : Prop
  | clientEnded (eof : EofSeen (events (x.client turns).2))
  | clientFailed {e : IoError} (failed : Failed (events (x.client turns).2) e)
  | socketFailed {e : IoError} {event : MessageEvent} (mem : (.b, event) ∈ x.calls turns)
      (failed : event.failure? = some e)
  | timedOut {active : Nat}
      (since : ActiveSince (Association.context x.cx) (Association.client x.stream)
        (Association.socketStream x.socket) x.start (turns.map Association.turn) (x.calls turns)
        active)
      (long : ASSOCIATION_TIMEOUT ≤ x.cx.now (x.client turns).2.world - active)

/-- The datagrams that were received, empty ones too. -/
def datagrams (calls : List (Side × MessageEvent)) : List Bytes :=
  calls.filterMap fun
    | (.b, .read _ (.ready (.ok datagram))) => some datagram
    | _ => none

/-- The association lasts until there is a reason to end it, and hands over every
message: what the client sent and what is not in the read buffer any more went to
the socket, and what the socket received went to the client, with at most one
message of each direction still cached. -/
structure Kept (x : Setting ω) (turns : List (Turn ω)) : Prop where
  fine : (x.after turns).1 ≠ .panicked
  reason : ∀ result, (x.after turns).1 = .returned (.ready result) → Reason x turns
  toSocket : ∃ ms, (∀ m ∈ ms, Fits 2 m) ∧
    Relay.produced (events (x.client turns).2) = encodeAll 2 ms ++
      (x.client turns).1.readBuf.take (x.client turns).1.readEndIndex ∧
    accepted (view .a (x.calls turns)) ++ (x.after turns).2.1.aToB.buf.cached = ms
  toClient : accepted (view .b (x.calls turns)) ++ (x.after turns).2.1.bToA.buf.cached =
      datagrams (x.calls turns) ∧
    Relay.accepted (events (x.client turns).2) ++
      (x.client turns).1.pendingWrite.drop (x.client turns).1.writeOffset =
      encodeAll 2 (accepted (view .b (x.calls turns)))
  noPing : ∀ answer, (.b, .ping answer) ∉ x.calls turns

/-- No empty datagram was received, and the client has sent no empty message. -/
structure Quiet (x : Setting ω) (turns : List (Turn ω)) : Prop where
  datagrams : [] ∉ datagrams (x.calls turns)
  messages : ∀ ms rest, (∀ m ∈ ms, Fits 2 m) →
    Relay.produced (events (x.client turns).2) = encodeAll 2 ms ++ rest → [] ∉ ms

/-- No poll reads a multiple of `2 ^ 64` bytes in each direction. -/
def Steady (x : Setting ω) (turns : List (Turn ω)) : Prop :=
  NeverWraps (Association.context x.cx) (Association.client x.stream)
    (Association.socketStream x.socket) x.start (turns.map Association.turn)

variable {x : Setting ω} {turns : List (Turn ω)}

/-- Without empty datagrams, what was received is what was produced. -/
theorem datagrams_eq {calls : List (Side × MessageEvent)} (quiet : [] ∉ datagrams calls) :
    datagrams calls = produced (view .b calls) := by
  rw [datagrams, produced, view, List.filterMap_filterMap]
  refine List.filterMap_congr fun call mem => ?_
  rcases call with ⟨_ | _, ⟨room, _ | e | m⟩ | _ | _ | _ | _⟩
  case b.read.ready.ok =>
      have some_ : m ≠ [] := by
        rintro rfl
        exact quiet (List.mem_filterMap.mpr ⟨_, mem, rfl⟩)
      simp [direction, MessageEvent.read?, some_]
  all_goals rfl

open Association (Follows Followed)

theorem followed_start (x : Setting ω) : Followed x.start.2 :=
  ⟨[], none,
    { keeps := keeps_new x.memory x.world
      received := rfl
      ends := nofun
      explained := fun _ _ mem => absurd mem List.not_mem_nil
      noPing := fun _ => List.not_mem_nil }⟩

theorem stands (steady : Steady x turns) :
    CopyBidirectional.Stands Followed (Association.context x.cx) (Association.client x.stream)
      (Association.socketStream x.socket) x.start (turns.map Association.turn) (x.after turns) := by
  refine CopyBidirectional.run_stands (Association.closed_client x.stream)
    (Association.closed_socket x.socket) ⟨?_, ?_, ?_⟩ ?_ ?_ rfl steady
  · rintro w ⟨ms, ended, follows⟩
    exact ⟨ms, ended, follows.around⟩
  · rintro w ⟨ms, ended, follows⟩
    exact ⟨ms, ended, follows.around⟩
  · rintro w ⟨ms, ended, follows⟩
    exact ⟨ms, ended, follows.around⟩
  · intro turn mem w
    obtain ⟨turn, -, rfl⟩ := List.mem_map.mp mem
    rintro ⟨ms, ended, follows⟩
    exact ⟨ms, ended, follows.around⟩
  · exact CopyBidirectional.accounts_start _ _ _ _ _ x.followed_start

/-- A call in the view of a direction was made on one of the streams. -/
theorem mem_of_view {side : Side} {calls : List (Side × MessageEvent)} {event : MessageEvent}
    (mem : event ∈ view side calls) :
    ∃ on, (on, event) ∈ calls ∧ direction on event = side := by
  obtain ⟨⟨on, event'⟩, made, found⟩ := List.mem_filterMap.mp mem
  split at found
  case isTrue own =>
      obtain rfl := Option.some.inj found
      exact ⟨on, made, own⟩
  case isFalse => cases found

/-- An association is kept in every run without empty messages. -/
theorem association_kept (x : Setting ω) (turns : List (Turn ω)) (quiet : Quiet x turns)
    (steady : Steady x turns) : Kept x turns := by
  have stands := stands steady
  obtain ⟨ms, ended, follows⟩ := stands.accounts.holds
  obtain ⟨live, reads⟩ := follows.keeps.reads
  have nonempty : [] ∉ ms := quiet.messages ms live reads.fits reads.account
  have produced_ : produced (view .a (x.calls turns)) = ms := by
    refine follows.received.trans (List.filter_eq_self.mpr fun m mem => ?_)
    simpa using ne_of_mem_of_not_mem mem nonempty
  have eof (ended : (x.client turns).1.isEof = true) : Reason x turns :=
    .clientEnded (reads.eof.mp ended)
  refine ⟨stands.fine, ?_, ⟨ms, reads.fits, ?_, ?_⟩, ⟨?_, follows.keeps.writes.account⟩,
    follows.noPing⟩
  · intro result ready
    cases stands.ends result ready with
    | drained side drained =>
        obtain ⟨room, mem⟩ := drained.ended
        cases side with
        | a => exact eof ((follows.ends drained.ended).resolve_right nonempty)
        | b =>
            obtain ⟨on, made, own⟩ := mem_of_view mem
            obtain rfl : on = .b := own
            have received : [] ∈ datagrams (x.calls turns) :=
              List.mem_filterMap.mpr ⟨_, made, rfl⟩
            exact absurd received quiet.datagrams
    | failed side fails =>
        obtain ⟨event, mem, found⟩ := fails
        obtain ⟨on, made, -⟩ := mem_of_view mem
        cases on with
        | a => exact (follows.explained event _ made found).elim .clientFailed eof
        | b => exact .socketFailed made found
    | timedOut since long => exact .timedOut since long
  · have held : (x.client turns).1.readBuf.take (x.client turns).1.readEndIndex = live := by
      rw [show (x.client turns).1.readEndIndex = _ from reads.holds.ends]
      exact reads.holds.bytes
    rw [held]
    exact reads.account
  · exact (stands.accounts.carries .a).fifo.trans produced_
  · exact (stands.accounts.carries .b).fifo.trans (datagrams_eq quiet.datagrams).symm

/-! ## Empty datagrams -/

/-- A client that sends nothing and takes everything. -/
def silent : AsyncStream Unit where
  pollRead _ w := (.pending, w)
  pollWrite offered w := (.ready (.ok offered.length), w)
  pollFlush w := (.ready (.ok ()), w)
  pollShutdown w := (.ready (.ok ()), w)
  supportsPing _ := false
  pollWritePing w := (.ready (.ok false), w)
  read_fits _ _ _ := nofun
  write_fits offered _ _ answered := by
    cases answered
    exact Nat.le_refl _

/-- A destination with one answer to every `poll_recv`. -/
def destination (answer : Poll (IoResult Bytes))
    (fits : ∀ room datagram, answer = .ready (.ok datagram) → datagram.length ≤ room) :
    UdpSocket Unit where
  pollRecv _ w := (answer, w)
  pollSend offered w := (.ready (.ok offered.length), w)
  recv_fits room _ datagram answered := fits room datagram answered

/-- An association of the two, in which no time passes. -/
def between (socket : UdpSocket Unit) : Setting Unit where
  cx := ⟨⟨fun w => (.ready (), w), fun w => (.pending, w), id⟩, fun _ => 0⟩
  stream := silent
  socket := socket
  memory _ := 0
  buffers _ _ := 0
  serverFlush := false
  clientFlush := false
  world := ()

/-- The client's stream is waited for. -/
theorem readMessage_silent (memory : Nat → UInt8) (room : Nat) :
    ∃ valid, Association.readMessage silent room (.new memory ()) =
      (.pending, ⟨(.new memory, ⟨(), [(.a, .read READ_SIZE .pending)]⟩), valid⟩) := by
  refine Association.serve_eq ((VlessMessageStream.pollRead_eq_loop rfl _).trans ?_)
  exact Exec.loop_of_some (VlessMessageStream.readTurn_pending
    (VlessMessageStream.holds_new memory) Association.incomplete_nil rfl) READ_SIZE

/-- The client's stream is shut down. -/
theorem shutdownMessage_silent (s : Association Unit) (none_ : s.1.1.pendingWrite = []) :
    ∃ t, Association.shutdownMessage silent s = (.ready (.ok ()), t) ∧
      events t.1.2 = events s.1.2 ++ [.flush (.ready (.ok ())), .shutdown (.ready (.ok ()))] := by
  have sent : VlessMessageStream.sendTurn (silent.recorded .a) s.1 =
      (.returned (some (.ready (.ok ()))), s.1) := by
    refine if_neg ?_
    rw [none_]
    exact Nat.not_lt_zero _
  have flushed : VlessMessageStream.pollFlushMessage (READ_SIZE + 1) (silent.recorded .a) s.1 =
      (.returned (.ready (.ok ())), { s.1.1 with pendingWrite := [], writeOffset := 0 },
        ⟨(), s.1.2.calls ++ [(.a, .flush (.ready (.ok ())))]⟩) :=
    Exec.bind_of_returned (Exec.loop_of_some sent READ_SIZE)
  have shut : VlessMessageStream.pollShutdownMessage (READ_SIZE + 1) (silent.recorded .a) s.1 =
      (.returned (.ready (.ok ())), { s.1.1 with pendingWrite := [], writeOffset := 0 },
        ⟨(), s.1.2.calls ++ [(.a, .flush (.ready (.ok ())))] ++
          [(.a, .shutdown (.ready (.ok ())))]⟩) := Exec.bind_of_returned flushed
  obtain ⟨valid, served⟩ := Association.serve_eq shut
  refine ⟨_, served, ?_⟩
  simp [events]

theorem valid_waiting : Valid (ω := Unit)
    (.new fun _ => 0, ⟨(), [(.a, .read READ_SIZE .pending)]⟩) :=
  (readMessage_silent (fun _ => 0) 0).1

/-- The client's first message is being waited for. -/
def waiting : Traced (Association Unit) where
  world := ⟨(.new fun _ => 0, ⟨(), [(.a, .read READ_SIZE .pending)]⟩), valid_waiting⟩
  calls := [(.a, .read 65535 .pending)]

variable {socket : UdpSocket Unit}

/-- The direction from the client waits for its first message. -/
theorem first_waits (fuel : Nat) :
    transferOneDirection (fuel + 1)
      (recordedContext (Association.context (between socket).cx)).toContext
      (recorded (Association.client silent) .a) (recorded (Association.socketStream socket) .b)
      ((between socket).start.1.aToB, (between socket).start.2) =
      (.returned .pending, (between socket).start.1.aToB, waiting) := by
  obtain ⟨_, read⟩ := readMessage_silent (fun _ => 0) 65535
  exact transfer_pending (CopyBuffer.idle_new _) rfl
    (congrArg (Traced.note .a (.read 65535) []) read)

/-- The first poll answers what the other direction does, if no message was read. -/
theorem after_of_second {fuel : Nat} {answer : Poll (IoResult Unit)} {t : Transfer}
    {w : Traced (Association Unit)}
    (second : transferOneDirection (fuel + 1)
      (recordedContext (Association.context (between socket).cx)).toContext
      (recorded (Association.socketStream socket) .b) (recorded (Association.client silent) .a)
      ((between socket).start.1.bToA, waiting) = (.returned answer, t, w))
    (unread : t.buf.readCount = 0) :
    (between socket).after [⟨id, fuel + 1⟩] =
      (.returned answer, { (between socket).start.1 with bToA := t }, w) := by
  have ran : CopyBidirectional.run (Association.context (between socket).cx)
    (Association.client silent) (Association.socketStream socket) (between socket).start [] =
      (.returned .pending, (between socket).start) := rfl
  refine (CopyBidirectional.run_concat ran (Association.turn ⟨id, fuel + 1⟩)).trans ?_
  refine (CopyBidirectional.poll_of_transfers rfl (first_waits fuel) second).trans ?_
  -- no time has passed
  rw [CopyBidirectional.conclude, if_neg, if_neg]
  · rfl
  · exact Nat.not_succ_le_zero _
  · rw [not_or, not_not, not_not]
    exact ⟨rfl, unread⟩

/-- A destination that sends an empty datagram. -/
def emptyDatagram : UdpSocket Unit :=
  destination (.ready (.ok [])) fun room datagram answered => by
    cases answered
    exact Nat.zero_le room

/-- The poll that receives the empty datagram shuts the client's stream down. -/
theorem after_emptyDatagram :
    ∃ s, (between emptyDatagram).after [⟨id, 3⟩] = (.returned (.ready (.ok ())), s) ∧
      s.2.calls = [(.a, .read 65535 .pending), (.b, .read 65535 (.ready (.ok []))),
        (.a, .shutdown (.ready (.ok ())))] ∧
      events s.2.world.1.2 = [.read READ_SIZE .pending, .flush (.ready (.ok ())),
        .shutdown (.ready (.ok ()))] := by
  obtain ⟨t, shut, under⟩ := shutdownMessage_silent waiting.world rfl
  have closed := congrArg (Traced.note .a .shutdown
    [(.a, .read 65535 .pending), (.b, .read 65535 (.ready (.ok [])))]) shut
  exact ⟨_, after_of_second (transfer_empty (CopyBuffer.idle_new _) rfl rfl closed) rfl, rfl, under⟩

/-- One empty datagram ends an association, for no reason. -/
theorem empty_datagram_ends :
    datagrams ((between emptyDatagram).calls [⟨id, 3⟩]) = [[]] ∧
      ((between emptyDatagram).after [⟨id, 3⟩]).1 = .returned (.ready (.ok ())) ∧
      ¬Kept (between emptyDatagram) [⟨id, 3⟩] := by
  obtain ⟨s, ran, calls, under⟩ := after_emptyDatagram
  have calls_ : (between emptyDatagram).calls [⟨id, 3⟩] = s.2.calls := by
    rw [Setting.calls, ran]
  have client_ : (between emptyDatagram).client [⟨id, 3⟩] = s.2.world.1 := by
    rw [Setting.client, ran]
  rw [← calls_] at calls
  rw [← client_] at under
  refine ⟨congrArg datagrams calls, congrArg Prod.fst ran, fun kept => ?_⟩
  cases kept.reason _ (congrArg Prod.fst ran) with
  | clientEnded eof =>
      obtain ⟨room, mem⟩ := eof
      rw [under] at mem
      simp at mem
  | clientFailed failed =>
      obtain ⟨event, mem, failed⟩ := failed
      rw [under] at mem
      simp only [List.mem_cons, List.not_mem_nil, or_false] at mem
      rcases mem with rfl | rfl | rfl <;> cases failed
  | socketFailed mem failed =>
      rw [calls] at mem
      simp only [List.mem_cons, Prod.mk.injEq, List.not_mem_nil, or_false] at mem
      rcases mem with ⟨⟨⟩, -⟩ | ⟨-, rfl⟩ | ⟨⟨⟩, -⟩
      cases failed
  | @timedOut active _ long =>
      have passed : ASSOCIATION_TIMEOUT ≤ 0 - active := long
      rw [Nat.zero_sub] at passed
      cases passed

/-! ## A message each way -/

/-- A destination and a client that are heard in turn: first the client's frame
arrives, then nothing, then a datagram, then nothing. -/
def inTurn : Arrivals :=
  [.piece [0, 1, 7], .pending, .pending, .piece [9], .pending, .pending]

def exchange : Setting Arrivals where
  cx := ⟨⟨fun w => (.ready (), w), fun w => (.pending, w), id⟩, fun _ => 0⟩
  stream := Arrivals.stream
  socket := ⟨Arrivals.pollRead, fun offered src => (.ready (.ok offered.length), src),
    Arrivals.stream.read_fits⟩
  memory _ := 0
  buffers _ _ := 0
  serverFlush := false
  clientFlush := false
  world := inTurn

theorem exchange_proceeds (w : Traced (Association Arrivals)) :
    (recordedContext (Association.context exchange.cx)).toContext.pollProceed w =
      (.ready (), w) := rfl

/-- The calls that hand a message over: nothing follows it, and it is flushed. -/
def handOver (side : Side) (m : Bytes) : List (Side × MessageEvent) :=
  [(side, .read 65535 (.ready (.ok m))), (side.other, .write m (.ready (.ok ()))),
    (side, .read 65535 .pending), (side.other, .flush (.ready (.ok ()))),
    (side, .read 65535 .pending)]

/-- What the client's stream is asked for meanwhile. -/
def underneath : List (Side × IoEvent) :=
  [(.a, .read READ_SIZE (.ready (.ok [0, 1, 7]))), (.a, .read READ_SIZE .pending),
    (.a, .read READ_SIZE .pending), (.a, .write [0, 1, 9] (.ready (.ok 3))),
    (.a, .flush (.ready (.ok ())))]

/-- The poll hands the client's message over. -/
theorem exchange_toSocket {t : CopyBuffer} {s : Association Arrivals} (idle : t.Idle)
    (calls : List (Side × MessageEvent)) (clear : Association.Clear [] inTurn [] s.1) :
    ∃ t' s', transferOneDirection 3
        (recordedContext (Association.context exchange.cx)).toContext
        (recorded (Association.client Arrivals.stream) .a)
        (recorded (Association.socketStream exchange.socket) .b) (⟨.running, t⟩, ⟨s, calls⟩) =
      (.returned .pending, ⟨.running, t'⟩, ⟨s', calls ++ handOver .a [7]⟩) ∧
      Association.Clear [] [.piece [9], .pending, .pending] (underneath.take 3) s'.1 := by
  obtain ⟨s₁, read, clear⟩ := clear.read_message Arrivals.stream 65535 (m := [7])
    (show [7].length < 2 ^ 16 by decide) (by decide) rfl
  obtain ⟨s₂, sent, clear⟩ := clear.send exchange.socket (m := [7]) rfl
  obtain ⟨s₃, waits, clear⟩ := clear.read_pending Arrivals.stream 65535 rfl
  obtain ⟨s₄, still, clear⟩ := clear.read_pending Arrivals.stream 65535 rfl
  have flushed : (Association.socketStream exchange.socket).pollFlushMessage s₃ =
      (.ready (.ok ()), s₃) := rfl
  obtain ⟨t', handed⟩ := transfer_message idle (exchange_proceeds _) (List.cons_ne_nil 7 [])
    (recorded_read read) (recorded_write sent) (recorded_read waits) (recorded_flush flushed)
    (recorded_read still)
  refine ⟨t', s₄, handed.trans ?_, clear⟩
  simp only [handOver, List.append_assoc, List.cons_append, List.nil_append, Side.other]

/-- And then the destination's. -/
theorem exchange_toClient {t : CopyBuffer} {s : Association Arrivals} (idle : t.Idle)
    (calls : List (Side × MessageEvent))
    (clear : Association.Clear [] [.piece [9], .pending, .pending] (underneath.take 3) s.1) :
    ∃ t' s', transferOneDirection 3
        (recordedContext (Association.context exchange.cx)).toContext
        (recorded (Association.socketStream exchange.socket) .b)
        (recorded (Association.client Arrivals.stream) .a) (⟨.running, t⟩, ⟨s, calls⟩) =
      (.returned .pending, ⟨.running, t'⟩, ⟨s', calls ++ handOver .b [9]⟩) ∧
      Association.Clear [] [] underneath s'.1 := by
  obtain ⟨s₁, read, clear⟩ := clear.receive exchange.socket 65535 rfl
  obtain ⟨s₂, sent, clear⟩ := clear.write Arrivals.stream (m := [9]) (by decide)
  obtain ⟨s₃, waits, clear⟩ := clear.receive exchange.socket 65535 rfl
  obtain ⟨s₄, flushed, clear⟩ := clear.flush Arrivals.stream (by decide) rfl rfl
  obtain ⟨s₅, still, clear⟩ := clear.receive exchange.socket 65535 rfl
  obtain ⟨t', handed⟩ := transfer_message idle (exchange_proceeds _) (List.cons_ne_nil 9 [])
    (recorded_read read) (recorded_write sent) (recorded_read waits) (recorded_flush flushed)
    (recorded_read still)
  refine ⟨t', s₅, handed.trans ?_, clear⟩
  simp only [handOver, List.append_assoc, List.cons_append, List.nil_append, Side.other]

/-- One poll hands a message over each way. -/
theorem exchange_polled {t t' : CopyBuffer} {s : Association Arrivals} (idle : t.Idle)
    (idle' : t'.Idle) (clear : Association.Clear [] inTurn [] s.1) :
    ∃ me s', CopyBidirectional.poll 3 (recordedContext (Association.context exchange.cx))
        (recorded (Association.client Arrivals.stream) .a)
        (recorded (Association.socketStream exchange.socket) .b)
        (⟨⟨.running, t⟩, ⟨.running, t'⟩, 0⟩, ⟨s, []⟩) =
      (.returned .pending, me, ⟨s', handOver .a [7] ++ handOver .b [9]⟩) ∧
      events s'.1.2 = underneath.map Prod.snd := by
  obtain ⟨_, s₁, first, clear⟩ := exchange_toSocket idle [] clear
  obtain ⟨_, s₂, second, clear⟩ := exchange_toClient idle' _ clear
  have recent : 0 - 0 < ASSOCIATION_TIMEOUT := by decide
  obtain ⟨me, waits⟩ := CopyBidirectional.poll_pending rfl first second recent
  exact ⟨me, s₂, waits, congrArg events clear.world⟩

theorem after_exchange :
    ∃ s, exchange.after [⟨id, 3⟩] = (.returned .pending, s) ∧
      s.2.calls = handOver .a [7] ++ handOver .b [9] ∧
      events s.2.world.1.2 = underneath.map Prod.snd := by
  have clear : Association.Clear [] inTurn [] (Association.new (fun _ => 0) inTurn).1 :=
    ⟨VlessMessageStream.holds_new _, rfl, rfl, rfl, rfl⟩
  have idle := CopyBuffer.idle_new fun _ => 0
  have ran : CopyBidirectional.run (Association.context exchange.cx)
    (Association.client exchange.stream) (Association.socketStream exchange.socket) exchange.start
      [] = (.returned .pending, exchange.start) := rfl
  obtain ⟨me, s, polled, under⟩ := exchange_polled idle idle clear
  exact ⟨_, (CopyBidirectional.run_concat ran (Association.turn ⟨id, 3⟩)).trans polled, rfl, under⟩

/-- A poll that reads less than `2 ^ 64` bytes does not wrap the counters. -/
theorem steady_once {turn : Turn ω}
    (few : ∀ side, CopyBidirectional.bytesRead side (x.calls [turn]) < 2 ^ 64) :
    Steady x [turn] := by
  rintro earlier turn begins ⟨⟨side, differ⟩, divides⟩
  cases earlier with
  | cons => simp at begins
  | nil =>
      obtain rfl := List.singleton_prefix_cons_iff.mp begins
      have before : CopyBidirectional.bytesRead side [] = 0 := by cases side <;> rfl
      have read : 2 ^ 64 ∣ CopyBidirectional.bytesRead side (x.calls [turn]) - 0 := by
        rw [← before]
        exact divides side
      have none_ := Nat.eq_zero_of_dvd_of_lt read (few side)
      exact differ (before.trans none_.symm)

/-- A message is handed over each way, and the association is kept. -/
theorem silent_association_kept :
    (exchange.after [⟨id, 3⟩]).1 = .returned .pending ∧
      (.b, .write [7] (.ready (.ok ()))) ∈ exchange.calls [⟨id, 3⟩] ∧
      (.a, .write [9] (.ready (.ok ()))) ∈ exchange.calls [⟨id, 3⟩] ∧
      Kept exchange [⟨id, 3⟩] := by
  obtain ⟨s, ran, calls, under⟩ := after_exchange
  have calls_ : exchange.calls [⟨id, 3⟩] = s.2.calls := by
    rw [Setting.calls, ran]
  have client_ : exchange.client [⟨id, 3⟩] = s.2.world.1 := by
    rw [Setting.client, ran]
  rw [← calls_] at calls
  rw [← client_] at under
  refine ⟨congrArg Prod.fst ran, by rw [calls]; decide, by rw [calls]; decide,
    association_kept _ _ ⟨?_, ?_⟩ ?_⟩
  · rw [calls]
    decide
  · intro ms rest _ account mem
    have bytes : Relay.produced (events (exchange.client [⟨id, 3⟩]).2) = [0, 1, 7] := by
      rw [under]
      rfl
    rw [bytes] at account
    obtain ⟨earlier, later, rfl⟩ := List.append_of_mem mem
    -- three bytes are no empty message and no two messages
    cases earlier with
    | nil => simp [encodeAll, encode, BigEndian.toBe] at account
    | cons m earlier =>
        have total := congrArg List.length account
        simp only [encodeAll, List.flatMap_append, List.flatMap_cons, List.length_append,
          List.length_cons, List.length_nil, length_encode] at total
        omega
  · refine steady_once fun side => ?_
    rw [calls]
    cases side <;> decide

end Setting

end RustProxy.UdpRelay
