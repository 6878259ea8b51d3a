import RustProxy.MessageStream.PacketAddr
import RustProxy.MessageStream.Vless
import RustProxy.Relay.Wakeups
import RustProxy.UdpRelay.MessageWakeups

/-!
# What a pending message stream waits for

The message streams have one stream underneath, and no budget. Each of their
polls that is pending has polled what it still has to do with that stream, with
`pending` as the last answer. `Wants` says what that may be, for each of the
polls.

The last theorem puts the relays and these streams together.
-/

namespace RustProxy

variable {ω : Type}

namespace MessageStream

/-- There is one stream underneath. -/
def underneath : PollKind → Side := fun _ => .a

namespace VlessMessageStream

/-- What a poll of the message stream still has to do with the stream underneath:
for each poll, what it may wait for. -/
def Wants (this : VlessMessageStream) : PollKind → PollKind → Prop
  | .read, .read => this.isEof = false ∧ this.payloadLen? = some none
  | .write, .write => this.writeOffset < this.pendingWrite.length
  | .write, .flush => this.pendingWrite ≠ [] ∧ this.pendingWrite.length ≤ this.writeOffset
  | .flush, .write => this.writeOffset < this.pendingWrite.length
  | .flush, .flush => this.pendingWrite.length ≤ this.writeOffset
  | .shutdown, .write => this.writeOffset < this.pendingWrite.length
  | .shutdown, .flush => this.pendingWrite.length ≤ this.writeOffset
  | .shutdown, .shutdown => this.pendingWrite = []
  | .ping, .ping => True
  | _, _ => False

variable {stream : AsyncStream ω}

/-- A poll with the polls it made underneath: if it is pending, one of them is. -/
def Says {α : Type} (poll : PollKind) (answer : Poll α) (this : VlessMessageStream)
    (log : PollLog) : Prop :=
  answer = .pending → Awaits (this.Wants poll) underneath log

theorem Says.after {α : Type} {poll : PollKind} {answer : Poll α} {this : VlessMessageStream}
    {log : PollLog} (h : Says poll answer this log) (earlier : PollLog) :
    Says poll answer this (earlier ++ log) :=
  fun pending => (h pending).after earlier

/-- What a read underneath polls. -/
theorem fill_logs (this : VlessMessageStream) (room : Nat) :
    (fill (stream.logged .a) room).Logs this fun ended this' log =>
      (ended = none → this'.isEof = this.isEof) ∧
        (ended = some .pending → this = this' ∧ LastPending (.on .a .read) log) := by
  intro world ended this' world' ran
  unfold fill at ran
  dsimp only at ran
  split at ran
  case h_1 polled =>
    split at ran
    · cases ran
      exact ⟨_, Logged.log_of_poll polled, nofun, nofun⟩
    · cases ran
      exact ⟨_, Logged.log_of_poll polled, fun _ => rfl, nofun⟩
  case h_2 polled =>
    cases ran
    exact ⟨_, Logged.log_of_poll polled, nofun, nofun⟩
  case h_3 polled =>
    cases ran
    exact ⟨_, Logged.log_of_poll polled, nofun, fun _ => ⟨rfl, lastPending_singleton _⟩⟩

/-- What a turn of the reading loop polls. -/
theorem readTurn_logs (this : VlessMessageStream) (room : Nat) (more : this.isEof = false) :
    (readTurn (stream.logged .a) room).Logs this
      (Exec.Round (fun this => this.isEof = false) (Says .read)) := by
  intro world ended this' world' ran
  unfold readTurn at ran
  dsimp only at ran
  split at ran
  case h_1 => cases ran
  case h_2 =>
    split at ran
    case h_1 => cases ran
    case h_2 =>
      cases ran
      exact ⟨[], (List.append_nil _).symm, nofun⟩
  case h_3 incomplete =>
    split at ran
    case h_1 => cases ran
    case h_2 room _ =>
      split at ran
      case isTrue => cases ran
      case isFalse =>
        obtain ⟨new, logged, goesOn, waits⟩ := fill_logs this room.length world _ _ _ ran
        refine ⟨new, logged, ?_⟩
        cases ended with
        | none => exact (goesOn rfl).trans more
        | some answer =>
            intro pending
            obtain ⟨rfl, last⟩ := waits (congrArg some pending)
            exact ⟨.read, ⟨more, incomplete⟩, last⟩

theorem pollReadMessage_logs (this : VlessMessageStream) (fuel room : Nat) :
    (pollReadMessage fuel (stream.logged .a) room).Logs this (Says .read) := by
  intro world answer this' world' ran
  unfold pollReadMessage at ran
  dsimp only at ran
  split at ran
  case isTrue =>
    cases ran
    exact ⟨[], (List.append_nil _).symm, nofun⟩
  case isFalse more =>
    have turns : (Exec.loop (readTurn (stream.logged .a) room) fuel).Logs this (Says .read) :=
      Exec.Logs.loop_last (fun this => this.isEof = false) (fun _ _ _ _ h => h.after _)
        (fun this more => readTurn_logs this room more) (by simpa using more) fuel
    exact turns world answer this' world' ran

/-- What the sending loop has come to. -/
structure SendSays (answer : Poll (IoResult Unit)) (this : VlessMessageStream) (log : PollLog) :
    Prop where
  waits : answer = .pending →
    this.writeOffset < this.pendingWrite.length ∧ LastPending (.on .a .write) log
  sent : answer = .ready (.ok ()) → this.pendingWrite.length ≤ this.writeOffset

theorem SendSays.after {answer : Poll (IoResult Unit)} {this : VlessMessageStream} {log : PollLog}
    (h : SendSays answer this log) (earlier : PollLog) : SendSays answer this (earlier ++ log) :=
  ⟨fun pending => (h.waits pending).imp_right fun last => last.after earlier, h.sent⟩

/-- What a turn of the sending loop polls. -/
theorem sendTurn_logs (this : VlessMessageStream) :
    (sendTurn (stream.logged .a)).Logs this (Exec.Round (fun _ => True) SendSays) := by
  intro world ended this' world' ran
  unfold sendTurn at ran
  dsimp only at ran
  split at ran
  case isTrue left =>
    split at ran
    case h_1 => cases ran
    case h_2 =>
      split at ran
      case h_1 polled =>
        split at ran
        · cases ran
          exact ⟨_, Logged.log_of_poll polled, nofun, nofun⟩
        · cases ran
          exact ⟨_, Logged.log_of_poll polled, trivial⟩
      case h_2 polled =>
        cases ran
        exact ⟨_, Logged.log_of_poll polled, nofun, nofun⟩
      case h_3 polled =>
        cases ran
        exact ⟨_, Logged.log_of_poll polled, fun _ => ⟨left, lastPending_singleton _⟩, nofun⟩
  case isFalse sent =>
    cases ran
    exact ⟨[], (List.append_nil _).symm, nofun, fun _ => Nat.le_of_not_lt sent⟩

/-- What the sending loop polls. -/
theorem send_logs (this : VlessMessageStream) (fuel : Nat) :
    (Exec.loop (sendTurn (stream.logged .a)) fuel).Logs this SendSays :=
  Exec.Logs.loop_last (fun _ => True) (fun _ _ _ _ h => h.after _)
    (fun this _ => sendTurn_logs this) trivial fuel

/-- What the flush underneath polls. -/
theorem flushInner_logs (this : VlessMessageStream) :
    (flushInner (stream.logged .a)).Logs this fun answer this' log =>
      (answer = .pending → this = this' ∧ LastPending (.on .a .flush) log) ∧
        (answer = .ready (.ok ()) → this'.pendingWrite = []) := by
  intro world answer this' world' ran
  unfold flushInner at ran
  dsimp only at ran
  split at ran
  case h_1 polled =>
    cases ran
    exact ⟨_, Logged.log_of_poll polled, nofun, fun _ => rfl⟩
  case h_2 polled =>
    cases ran
    exact ⟨_, Logged.log_of_poll polled, nofun, nofun⟩
  case h_3 polled =>
    cases ran
    exact ⟨_, Logged.log_of_poll polled, fun _ => ⟨rfl, lastPending_singleton _⟩, nofun⟩

/-- A flush that is through leaves nothing to send. -/
theorem flush_logs (this : VlessMessageStream) (fuel : Nat) :
    (pollFlushMessage fuel (stream.logged .a)).Logs this fun answer this' log =>
      Says .flush answer this' log ∧ (answer = .ready (.ok ()) → this'.pendingWrite = []) := by
  refine Exec.Logs.bind (send_logs this fuel) ?_
  rintro answer this' log ⟨waits, sent⟩
  split
  case h_1 =>
    refine (flushInner_logs this').mono ?_
    rintro answer this'' more ⟨waits, flushed⟩
    refine ⟨fun pending => ?_, flushed⟩
    obtain ⟨rfl, last⟩ := waits pending
    exact ⟨.flush, sent rfl, last.after log⟩
  case h_2 notSent =>
    apply Exec.logs_pure
    rw [List.append_nil]
    refine ⟨fun pending => ?_, fun done => absurd done notSent⟩
    obtain ⟨left, last⟩ := waits pending
    exact ⟨.write, left, last⟩

theorem pollFlushMessage_logs (this : VlessMessageStream) (fuel : Nat) :
    (pollFlushMessage fuel (stream.logged .a)).Logs this (Says .flush) :=
  (flush_logs this fuel).mono fun _ _ _ comes => comes.1

/-- A message is taken at once when nothing is pending. -/
theorem stage_logs (this : VlessMessageStream) (buf : Bytes) :
    (stage (ω := Logged Polled ω) buf).Logs this (Says .write) := by
  intro world answer this' world' ran
  refine ⟨[], ?_⟩
  unfold stage at ran
  dsimp only at ran
  split at ran
  · cases ran
    exact ⟨(List.append_nil _).symm, nofun⟩
  · cases ran
    exact ⟨(List.append_nil _).symm, nofun⟩

/-- A message waits for what a flush waits for. -/
theorem stageIfSent_logs (this : VlessMessageStream) (buf : Bytes) {log : PollLog}
    (waits : this.pendingWrite ≠ [] → Awaits (this.Wants .flush) underneath log) :
    (stageIfSent (ω := Logged Polled ω) buf).Logs this fun answer this' more =>
      Says .write answer this' (log ++ more) := by
  intro world answer this' world' ran
  unfold stageIfSent at ran
  dsimp only at ran
  split at ran
  case isTrue left =>
    cases ran
    refine ⟨[], (List.append_nil _).symm, fun _ => ?_⟩
    rw [List.append_nil]
    obtain ⟨kind, wants, last⟩ := waits left
    cases kind with
    | write => exact ⟨.write, wants, last⟩
    | flush => exact ⟨.flush, ⟨left, wants⟩, last⟩
    | read | shutdown | ping => exact wants.elim
  case isFalse =>
    obtain ⟨new, logged, comes⟩ := stage_logs this buf world _ _ _ ran
    exact ⟨new, logged, fun pending => (comes pending).after log⟩

theorem pollWriteMessage_logs (this : VlessMessageStream) (fuel : Nat) (buf : Bytes) :
    (pollWriteMessage fuel (stream.logged .a) buf).Logs this (Says .write) := by
  intro world answer this' world' ran
  unfold pollWriteMessage at ran
  dsimp only at ran
  split at ran
  case isTrue =>
    refine Exec.Logs.bind (flush_logs this fuel) ?_ world answer this' world' ran
    rintro answer this' log ⟨waits, flushed⟩
    split
    case h_1 =>
      apply Exec.logs_pure
      exact nofun
    case h_2 notFailed =>
      -- the flush is pending, or it is through and has left nothing
      apply stageIfSent_logs
      intro left
      rcases answer with _ | e | ⟨⟩
      · exact waits rfl
      · exact absurd rfl (notFailed e)
      · exact absurd (flushed rfl) left
  case isFalse => exact stage_logs this buf world answer this' world' ran

theorem pollShutdownMessage_logs (this : VlessMessageStream) (fuel : Nat) :
    (pollShutdownMessage fuel (stream.logged .a)).Logs this (Says .shutdown) := by
  refine Exec.Logs.bind (flush_logs this fuel) ?_
  rintro (_ | e | ⟨⟩) this' log ⟨waits, flushed⟩
  · apply Exec.logs_pure
    rw [List.append_nil]
    intro _
    obtain ⟨kind, wants, last⟩ := waits rfl
    cases kind with
    | write => exact ⟨.write, wants, last⟩
    | flush => exact ⟨.flush, wants, last⟩
    | read | shutdown | ping => exact wants.elim
  · apply Exec.logs_pure
    exact nofun
  · refine (Exec.logs_poll _ _ stream.pollShutdown).mono ?_
    rintro answer _ more ⟨rfl, last⟩ pending
    exact ⟨.shutdown, flushed rfl, (last pending).after log⟩

theorem pollWritePing_logs (this : VlessMessageStream) :
    (pollWritePing (stream.logged .a)).Logs this (Says .ping) := by
  refine (Exec.logs_poll _ _ stream.pollWritePing).mono ?_
  rintro answer _ log ⟨rfl, last⟩ pending
  exact ⟨.ping, trivial, last pending⟩

/-- No wake-up is lost in the length-prefixed stream. -/
structure WakesUp (stream : AsyncStream ω) : Prop where
  pollReadMessage : ∀ fuel room this,
    (pollReadMessage fuel (stream.logged .a) room).Logs this (Says .read)
  pollWriteMessage : ∀ fuel buf this,
    (pollWriteMessage fuel (stream.logged .a) buf).Logs this (Says .write)
  pollFlushMessage : ∀ fuel this,
    (pollFlushMessage fuel (stream.logged .a)).Logs this (Says .flush)
  pollShutdownMessage : ∀ fuel this,
    (pollShutdownMessage fuel (stream.logged .a)).Logs this (Says .shutdown)
  pollWritePing : ∀ this, (pollWritePing (stream.logged .a)).Logs this (Says .ping)

theorem wakesUp (stream : AsyncStream ω) : WakesUp stream where
  pollReadMessage fuel room this := pollReadMessage_logs this fuel room
  pollWriteMessage fuel buf this := pollWriteMessage_logs this fuel buf
  pollFlushMessage fuel this := pollFlushMessage_logs this fuel
  pollShutdownMessage fuel this := pollShutdownMessage_logs this fuel
  pollWritePing this := pollWritePing_logs this

end VlessMessageStream

namespace SlideBuffer

theorem holds_of_asSlice {b : SlideBuffer} {live : Bytes} (h : b.asSlice = some live) :
    b.Holds b.data.length b.start live := by
  rw [asSlice, List.slice] at h
  split at h
  case isTrue order =>
    cases h
    have length : ((b.data.drop b.start).take (b.end_ - b.start)).length = b.end_ - b.start := by
      rw [List.length_take, List.length_drop]
      omega
    refine ⟨rfl, rfl, ?_, ?_, ?_⟩
    · rw [length]
      omega
    · rw [length]
      omega
    · rw [length]
  case isFalse => cases h

end SlideBuffer

namespace PacketAddrStream

/-- What a poll of the packet stream still has to do with the stream underneath:
for each poll, what it may wait for. -/
def Wants (this : PacketAddrStream) : PollKind → PollKind → Prop
  | .read, .read => this.isEof = false ∧ this.tryParsePacket = some (.ok none)
  | .write, .write => this.writeBufSent < this.writeBufLen
  | .flush, .write => this.writeBufSent < this.writeBufLen
  | .flush, .flush => this.writeBufLen = 0
  | .shutdown, .write => this.writeBufSent < this.writeBufLen
  | .shutdown, .flush => this.writeBufLen = 0
  | .shutdown, .shutdown => this.writeBufLen = 0
  | _, _ => False

variable {stream : AsyncStream ω}

/-- A poll with the polls it made underneath: if it is pending, one of them is. -/
def Says {α : Type} (poll : PollKind) (answer : Poll α) (this : PacketAddrStream)
    (log : PollLog) : Prop :=
  answer = .pending → Awaits (this.Wants poll) underneath log

theorem Says.after {α : Type} {poll : PollKind} {answer : Poll α} {this : PacketAddrStream}
    {log : PollLog} (h : Says poll answer this log) (earlier : PollLog) :
    Says poll answer this (earlier ++ log) :=
  fun pending => (h pending).after earlier

/-- Making room leaves what there is to parse. -/
theorem tryParsePacket_makeRoom {this : PacketAddrStream} {readBuf : SlideBuffer} {room : Nat}
    {parsed : IoResult (Option (NetLocation × Nat × Nat))}
    (incomplete : this.tryParsePacket = some parsed) (made : this.makeRoom = some (readBuf, room)) :
    { this with readBuf }.tryParsePacket = some parsed := by
  obtain ⟨live, slice, parses⟩ := Option.bind_eq_some_iff.mp incomplete
  obtain ⟨compacted, same, sized⟩ := Option.bind_eq_some_iff.mp made
  obtain ⟨_, _, built⟩ := Option.bind_eq_some_iff.mp sized
  cases built
  obtain ⟨_, compacts, holds⟩ := (SlideBuffer.holds_of_asSlice slice).maybeCompact 4096
  obtain rfl := Option.some.inj (same.symm.trans compacts)
  exact Option.bind_eq_some_iff.mpr ⟨live, holds.asSlice, parses⟩

/-- What a read underneath polls. -/
theorem fill_logs (this : PacketAddrStream) (room : Nat) :
    (fill (stream.logged .a) room).Logs this fun ended this' log =>
      (ended = none → this'.isEof = this.isEof) ∧
        (ended = some .pending → this = this' ∧ LastPending (.on .a .read) log) := by
  intro world ended this' world' ran
  unfold fill at ran
  dsimp only at ran
  split at ran
  case h_1 polled =>
    split at ran
    · cases ran
      exact ⟨_, Logged.log_of_poll polled, nofun, nofun⟩
    · split at ran
      case h_1 => cases ran
      case h_2 =>
        cases ran
        exact ⟨_, Logged.log_of_poll polled, fun _ => rfl, nofun⟩
  case h_2 polled =>
    cases ran
    exact ⟨_, Logged.log_of_poll polled, nofun, nofun⟩
  case h_3 polled =>
    cases ran
    exact ⟨_, Logged.log_of_poll polled, nofun, fun _ => ⟨rfl, lastPending_singleton _⟩⟩

/-- What a turn of the reading loop polls. -/
theorem readTurn_logs (this : PacketAddrStream) (room : Nat) (more : this.isEof = false) :
    (readTurn (stream.logged .a) room).Logs this
      (Exec.Round (fun this => this.isEof = false) (Says .read)) := by
  intro world ended this' world' ran
  unfold readTurn at ran
  dsimp only at ran
  split at ran
  case h_1 => cases ran
  case h_2 =>
    cases ran
    exact ⟨[], (List.append_nil _).symm, nofun⟩
  case h_3 =>
    split at ran
    case h_1 => cases ran
    case h_2 =>
      cases ran
      exact ⟨[], (List.append_nil _).symm, nofun⟩
  case h_4 incomplete =>
    split at ran
    case h_1 => cases ran
    case h_2 readBuf _ made =>
      split at ran
      case isTrue =>
        cases ran
        exact ⟨[], (List.append_nil _).symm, nofun⟩
      case isFalse =>
        split at ran
        case h_1 => cases ran
        case h_2 writeSlice _ =>
          obtain ⟨new, logged, goesOn, waits⟩ :=
            fill_logs { this with readBuf } writeSlice.length world _ _ _ ran
          refine ⟨new, logged, ?_⟩
          cases ended with
          | none => exact (goesOn rfl).trans more
          | some answer =>
              intro pending
              obtain ⟨rfl, last⟩ := waits (congrArg some pending)
              exact ⟨.read, ⟨more, tryParsePacket_makeRoom incomplete made⟩, last⟩

theorem pollReadTargetedMessage_logs (this : PacketAddrStream) (fuel room : Nat) :
    (pollReadTargetedMessage fuel (stream.logged .a) room).Logs this (Says .read) := by
  intro world answer this' world' ran
  unfold pollReadTargetedMessage at ran
  dsimp only at ran
  split at ran
  case isTrue =>
    cases ran
    exact ⟨[], (List.append_nil _).symm, nofun⟩
  case isFalse more =>
    have turns : (Exec.loop (readTurn (stream.logged .a) room) fuel).Logs this (Says .read) :=
      Exec.Logs.loop_last (fun this => this.isEof = false) (fun _ _ _ _ h => h.after _)
        (fun this more => readTurn_logs this room more) (by simpa using more) fuel
    exact turns world answer this' world' ran

/-- What the sending loop has come to. -/
structure SendSays (answer : Poll (IoResult Unit)) (this : PacketAddrStream) (log : PollLog) :
    Prop where
  waits : answer = .pending → this.writeBufSent < this.writeBufLen ∧ LastPending (.on .a .write) log
  sent : answer = .ready (.ok ()) → this.writeBufLen = 0

theorem SendSays.after {answer : Poll (IoResult Unit)} {this : PacketAddrStream} {log : PollLog}
    (h : SendSays answer this log) (earlier : PollLog) : SendSays answer this (earlier ++ log) :=
  ⟨fun pending => (h.waits pending).imp_right fun last => last.after earlier, h.sent⟩

/-- What a turn of the sending loop polls. -/
theorem sendTurn_logs (this : PacketAddrStream) :
    (sendTurn (stream.logged .a)).Logs this (Exec.Round (fun _ => True) SendSays) := by
  intro world ended this' world' ran
  unfold sendTurn at ran
  dsimp only at ran
  split at ran
  case isTrue left =>
    split at ran
    case h_1 => cases ran
    case h_2 =>
      split at ran
      case h_1 polled =>
        cases ran
        exact ⟨_, Logged.log_of_poll polled, trivial⟩
      case h_2 polled =>
        cases ran
        exact ⟨_, Logged.log_of_poll polled, nofun, nofun⟩
      case h_3 polled =>
        cases ran
        exact ⟨_, Logged.log_of_poll polled, fun _ => ⟨left, lastPending_singleton _⟩, nofun⟩
  case isFalse =>
    cases ran
    exact ⟨[], (List.append_nil _).symm, nofun, fun _ => rfl⟩

/-- What the sending loop polls. -/
theorem send_logs (this : PacketAddrStream) (fuel : Nat) :
    (send fuel (stream.logged .a)).Logs this SendSays :=
  Exec.Logs.loop_last (fun _ => True) (fun _ _ _ _ h => h.after _)
    (fun this _ => sendTurn_logs this) trivial fuel

/-- A frame is taken at once. -/
theorem stage_logs (this : PacketAddrStream) (buf : Bytes) (source : SocketAddr) :
    (stage (ω := Logged Polled ω) buf source).Logs this fun answer _ _ => answer ≠ .pending := by
  intro world answer this' world' ran
  refine ⟨[], ?_⟩
  unfold stage at ran
  dsimp only at ran
  split at ran
  · cases ran
    exact ⟨(List.append_nil _).symm, nofun⟩
  · split at ran
    · cases ran
    · cases ran
      exact ⟨(List.append_nil _).symm, nofun⟩

theorem pollWriteSourcedMessage_logs (this : PacketAddrStream) (fuel : Nat) (buf : Bytes)
    (source : SocketAddr) :
    (pollWriteSourcedMessage fuel (stream.logged .a) buf source).Logs this (Says .write) := by
  refine Exec.Logs.bind (send_logs this fuel) ?_
  rintro (_ | e | ⟨⟩) this' log ⟨waits, -⟩
  · apply Exec.logs_pure
    rw [List.append_nil]
    intro _
    obtain ⟨left, last⟩ := waits rfl
    exact ⟨.write, left, last⟩
  · apply Exec.logs_pure
    exact nofun
  · refine (stage_logs this' buf source).mono ?_
    intro answer _ _ taken pending
    exact absurd pending taken

/-- A flush that is through leaves nothing to send. -/
theorem flush_logs (this : PacketAddrStream) (fuel : Nat) :
    (pollFlushMessage fuel (stream.logged .a)).Logs this fun answer this' log =>
      Says .flush answer this' log ∧ (answer = .ready (.ok ()) → this'.writeBufLen = 0) := by
  refine Exec.Logs.bind (send_logs this fuel) ?_
  rintro (_ | e | ⟨⟩) this' log ⟨waits, sent⟩
  · apply Exec.logs_pure
    rw [List.append_nil]
    refine ⟨fun _ => ?_, nofun⟩
    obtain ⟨left, last⟩ := waits rfl
    exact ⟨.write, left, last⟩
  · apply Exec.logs_pure
    exact ⟨nofun, nofun⟩
  · refine (Exec.logs_poll _ _ stream.pollFlush).mono ?_
    rintro answer _ more ⟨rfl, last⟩
    exact ⟨fun pending => ⟨.flush, sent rfl, (last pending).after log⟩, fun _ => sent rfl⟩

theorem pollFlushMessage_logs (this : PacketAddrStream) (fuel : Nat) :
    (pollFlushMessage fuel (stream.logged .a)).Logs this (Says .flush) :=
  (flush_logs this fuel).mono fun _ _ _ comes => comes.1

theorem pollShutdownMessage_logs (this : PacketAddrStream) (fuel : Nat) :
    (pollShutdownMessage fuel (stream.logged .a)).Logs this (Says .shutdown) := by
  refine Exec.Logs.bind (flush_logs this fuel) ?_
  rintro (_ | e | ⟨⟩) this' log ⟨waits, flushed⟩
  · apply Exec.logs_pure
    rw [List.append_nil]
    intro _
    obtain ⟨kind, wants, last⟩ := waits rfl
    cases kind with
    | write => exact ⟨.write, wants, last⟩
    | flush => exact ⟨.flush, wants, last⟩
    | read | shutdown | ping => exact wants.elim
  · apply Exec.logs_pure
    exact nofun
  · refine (Exec.logs_poll _ _ stream.pollShutdown).mono ?_
    rintro answer _ more ⟨rfl, last⟩ pending
    exact ⟨.shutdown, flushed rfl, (last pending).after log⟩

theorem pollWritePing_logs (this : PacketAddrStream) :
    (pollWritePing (ω := Logged Polled ω)).Logs this (Says .ping) := by
  apply Exec.logs_pure
  exact nofun

/-- No wake-up is lost in the packet-address stream. -/
structure WakesUp (stream : AsyncStream ω) : Prop where
  pollReadTargetedMessage : ∀ fuel room this,
    (pollReadTargetedMessage fuel (stream.logged .a) room).Logs this (Says .read)
  pollWriteSourcedMessage : ∀ fuel buf source this,
    (pollWriteSourcedMessage fuel (stream.logged .a) buf source).Logs this (Says .write)
  pollFlushMessage : ∀ fuel this,
    (pollFlushMessage fuel (stream.logged .a)).Logs this (Says .flush)
  pollShutdownMessage : ∀ fuel this,
    (pollShutdownMessage fuel (stream.logged .a)).Logs this (Says .shutdown)
  pollWritePing : ∀ this, (pollWritePing (ω := Logged Polled ω)).Logs this (Says .ping)

theorem wakesUp (stream : AsyncStream ω) : WakesUp stream where
  pollReadTargetedMessage fuel room this := pollReadTargetedMessage_logs this fuel room
  pollWriteSourcedMessage fuel buf source this :=
    pollWriteSourcedMessage_logs this fuel buf source
  pollFlushMessage fuel this := pollFlushMessage_logs this fuel
  pollShutdownMessage fuel this := pollShutdownMessage_logs this fuel
  pollWritePing this := pollWritePing_logs this

end PacketAddrStream

end MessageStream

/-- No wake-up is lost in the relays and in the message streams: a poll that is
pending waits for a poll it made. -/
theorem no_lost_wakeup (cx : TimedContext ω) (a b : AsyncStream ω)
    (left right : AsyncMessageStream ω) :
    Relay.WakesUp cx.toContext a b ∧ UdpRelay.WakesUp cx left right ∧
      MessageStream.VlessMessageStream.WakesUp a ∧ MessageStream.PacketAddrStream.WakesUp a := by
  refine ⟨Relay.wakesUp cx.toContext a b, UdpRelay.wakesUp cx left right, ?_, ?_⟩
  · exact MessageStream.VlessMessageStream.wakesUp a
  · exact MessageStream.PacketAddrStream.wakesUp a

end RustProxy
