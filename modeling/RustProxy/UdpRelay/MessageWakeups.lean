import RustProxy.PollLog
import RustProxy.UdpRelay.MessageRelay

/-!
# What a pending message relay waits for

The message relay under the same question as the byte relay: whenever one of its
polls is pending, something it still has to do was polled, with `pending` as the
last answer, or the cooperative budget was used up.

A turn of `poll_copy` that flushed starts over, so the turn that ends in
`pending` either waits for its flush or has the flags of its own polls.
-/

namespace RustProxy

variable {ω : Type}

/-- The stream with its polls logged. -/
def AsyncMessageStream.logged (stream : AsyncMessageStream ω) (side : Side) :
    AsyncMessageStream (Logged Polled ω) where
  pollReadMessage room :=
    Logged.poll (.on side .read) (countOk List.length) (stream.pollReadMessage room)
  pollWriteMessage message :=
    Logged.poll (.on side .write) (countOk fun _ => message.length)
      (stream.pollWriteMessage message)
  pollFlushMessage := Logged.poll (.on side .flush) (countOk fun _ => 0) stream.pollFlushMessage
  pollShutdownMessage :=
    Logged.poll (.on side .shutdown) (countOk fun _ => 0) stream.pollShutdownMessage
  supportsPing w := stream.supportsPing w.world
  pollWritePing := Logged.poll (.on side .ping) (countOk fun _ => 0) stream.pollWritePing
  read_fits room w message answered := stream.read_fits room w.world message answered

/-- The runtime with its clock. -/
def TimedContext.logged (cx : TimedContext ω) : TimedContext (Logged Polled ω) where
  toContext := cx.toContext.logged
  now w := cx.now w.world

namespace UdpRelay

variable {side : Side} {r w : AsyncMessageStream ω}

namespace CopyBuffer

/-- What the buffer still has to do with its streams. -/
def Wants (me : CopyBuffer) : PollKind → Prop
  | .read => me.readDone = false ∧ me.cacheLength = 0
  | .write => 0 < me.cacheLength
  | .ping => me.needWritePing = true
  | .flush => me.needFlush = true
  | .shutdown => False

/-- What the read of a turn polls. -/
theorem read_logs (me : CopyBuffer) : (read (r.logged side)).Logs me fun answer me' log =>
    Only side .read log ∧ ∀ moved, answer = .ok moved → moved.pending = true →
      me'.Wants .read ∧ LastPending (.on side .read) log := by
  intro world answer me' world' ran
  unfold read at ran
  dsimp only at ran
  split at ran
  case isTrue turn =>
    split at ran
    case h_1 polled =>
      split at ran
      · cases ran
        refine ⟨_, Logged.log_of_poll polled, only_singleton, ?_⟩
        rintro moved ⟨⟩ ⟨⟩
      · cases ran
        refine ⟨_, Logged.log_of_poll polled, only_singleton, ?_⟩
        rintro moved ⟨⟩ ⟨⟩
    case h_2 polled =>
      cases ran
      exact ⟨_, Logged.log_of_poll polled, only_singleton, nofun⟩
    case h_3 polled =>
      cases ran
      refine ⟨_, Logged.log_of_poll polled, only_singleton, fun _ _ _ => ?_⟩
      exact ⟨⟨by simpa using turn.1, turn.2⟩, lastPending_singleton _⟩
  case isFalse =>
    cases ran
    refine ⟨[], (List.append_nil _).symm, only_nil, ?_⟩
    rintro moved ⟨⟩ ⟨⟩

/-- What the write of a turn polls. -/
theorem write_logs (me : CopyBuffer) :
    (write (w.logged side.other)).Logs me fun answer me' log =>
      Only side.other .write log ∧ (me.Wants .read → me'.Wants .read) ∧
        ∀ moved, answer = .ok moved → moved.pending = true →
          me'.Wants .write ∧ LastPending (.on side.other .write) log := by
  intro world answer me' world' ran
  unfold write at ran
  dsimp only at ran
  split at ran
  case isTrue cached =>
    -- with a message cached there is nothing to read
    have full : ¬me.Wants .read := fun wants => Nat.ne_of_gt cached wants.2
    split at ran
    case h_1 => cases ran
    case h_2 =>
      split at ran
      case h_1 polled =>
        cases ran
        refine ⟨_, Logged.log_of_poll polled, only_singleton, fun wants => absurd wants full, ?_⟩
        rintro moved ⟨⟩ ⟨⟩
      case h_2 polled =>
        cases ran
        exact ⟨_, Logged.log_of_poll polled, only_singleton, id, nofun⟩
      case h_3 polled =>
        cases ran
        exact ⟨_, Logged.log_of_poll polled, only_singleton, id,
          fun _ _ _ => ⟨cached, lastPending_singleton _⟩⟩
  case isFalse =>
    cases ran
    refine ⟨[], (List.append_nil _).symm, only_nil, id, ?_⟩
    rintro moved ⟨⟩ ⟨⟩

/-- What the ping of a turn polls. -/
theorem ping_logs (me : CopyBuffer) (writePending : Bool) :
    (ping (w.logged side.other) writePending).Logs me fun answer me' log =>
      Only side.other .ping log ∧ (me.Wants .read → me'.Wants .read) ∧
        (me.Wants .write → me'.Wants .write) ∧
        (answer = .ok true → writePending = true ∨
          me'.Wants .ping ∧ LastPending (.on side.other .ping) log) := by
  intro world answer me' world' ran
  unfold ping at ran
  dsimp only at ran
  split at ran
  case isTrue asked =>
    split at ran
    case h_1 written _ polled =>
      have idle : writePending = false := by simpa using asked.1
      subst idle
      cases written
      · cases ran
        exact ⟨_, Logged.log_of_poll polled, only_singleton, id, id, nofun⟩
      · cases ran
        exact ⟨_, Logged.log_of_poll polled, only_singleton, id, id, nofun⟩
    case h_2 polled =>
      cases ran
      exact ⟨_, Logged.log_of_poll polled, only_singleton, id, id, nofun⟩
    case h_3 polled =>
      cases ran
      exact ⟨_, Logged.log_of_poll polled, only_singleton, id, id,
        fun _ => .inr ⟨asked.2, lastPending_singleton _⟩⟩
  case isFalse =>
    cases ran
    exact ⟨[], (List.append_nil _).symm, only_nil, id, id, fun same => .inl (Except.ok.inj same)⟩

/-- What the end of a turn polls. -/
theorem settle_logs (me : CopyBuffer) (readPending writePending : Bool) :
    (settle (w.logged side.other) readPending writePending).Logs me fun ended me' log =>
      Only side.other .flush log ∧
        (ended = some .pending →
          me'.Wants .flush ∧ LastPending (.on side.other .flush) log ∨
            me = me' ∧ (readPending || writePending) = true) := by
  intro world ended me' world' ran
  unfold settle at ran
  dsimp only at ran
  split at ran
  case isTrue needed =>
    split at ran
    case h_1 polled =>
      cases ran
      exact ⟨_, Logged.log_of_poll polled, only_singleton, nofun⟩
    case h_2 polled =>
      cases ran
      exact ⟨_, Logged.log_of_poll polled, only_singleton, nofun⟩
    case h_3 polled =>
      cases ran
      exact ⟨_, Logged.log_of_poll polled, only_singleton,
        fun _ => .inl ⟨needed, lastPending_singleton _⟩⟩
  case isFalse =>
    split at ran
    case isTrue =>
      cases ran
      exact ⟨[], (List.append_nil _).symm, only_nil, nofun⟩
    case isFalse =>
      split at ran
      case isTrue waits =>
        cases ran
        exact ⟨[], (List.append_nil _).symm, only_nil, fun _ => .inr ⟨rfl, waits⟩⟩
      case isFalse =>
        cases ran
        exact ⟨[], (List.append_nil _).symm, only_nil, nofun⟩

/-- How a turn of `poll_copy` may end. -/
def TurnSays (side : Side) (ended : Option (Poll (IoResult Unit))) (me : CopyBuffer)
    (log : PollLog) : Prop :=
  InDirection side log ∧ (ended = some .pending → Awaits me.Wants side.of log)

/-- One turn of `poll_copy`. -/
theorem copyTurn_logs (me : CopyBuffer) :
    (copyTurn (r.logged side) (w.logged side.other)).Logs me (TurnSays side) := by
  refine Exec.Logs.bind (read_logs me) ?_
  rintro answer m₁ log₁ ⟨only₁, reads⟩
  have polls₁ : InDirection side log₁ := Only.inDirection .read only₁
  rcases answer with e | ⟨didRead, readPending⟩
  · apply Exec.logs_pure
    rw [List.append_nil]
    exact ⟨polls₁, nofun⟩
  refine Exec.Logs.bind (write_logs m₁) ?_
  rintro answer m₂ log₂ ⟨only₂, read₂, writes⟩
  have polls₂ := polls₁.append (Only.inDirection .write only₂)
  rcases answer with e | ⟨didWrite, writePending⟩
  · apply Exec.logs_pure
    rw [List.append_nil]
    exact ⟨polls₂, nofun⟩
  refine Exec.Logs.bind (ping_logs m₂ writePending) ?_
  rintro answer m₃ log₃ ⟨only₃, read₃, write₃, pings⟩
  have polls₃ := polls₂.append (Only.inDirection .ping only₃)
  rw [List.append_assoc] at polls₃
  rcases answer with e | pingPending
  · apply Exec.logs_pure
    rw [List.append_nil]
    exact ⟨polls₃, nofun⟩
  dsimp only
  split
  case isTrue =>
    apply Exec.logs_pure
    rw [List.append_nil]
    exact ⟨polls₃, nofun⟩
  case isFalse =>
    refine (settle_logs m₃ readPending pingPending).mono ?_
    rintro ended m₄ log₄ ⟨only₄, settles⟩
    have polls₄ := polls₃.append (Only.inDirection .flush only₄)
    rw [List.append_assoc, List.append_assoc] at polls₄
    refine ⟨polls₄, fun pending => ?_⟩
    rcases settles pending with ⟨wants, last⟩ | ⟨rfl, flags⟩
    · exact ⟨.flush, wants, ((last.after log₃).after log₂).after log₁⟩
    · -- the flag that is set comes from the read, the write or the ping of this turn
      rcases Bool.or_eq_true_iff.mp flags with rfl | rfl
      · obtain ⟨wants, last⟩ := reads _ rfl rfl
        have later := ((last.before (only₂.ne (by decide))).before
          (only₃.ne (by decide))).before (only₄.ne (by decide))
        rw [List.append_assoc, List.append_assoc] at later
        exact ⟨.read, read₃ (read₂ wants), later⟩
      · rcases pings rfl with rfl | ⟨wants, last⟩
        · obtain ⟨wants, last⟩ := writes _ rfl rfl
          have later := (last.before (only₃.ne (by decide))).before (only₄.ne (by decide))
          rw [List.append_assoc] at later
          exact ⟨.write, write₃ wants, later.after log₁⟩
        · have later := last.before (only₄.ne (by decide))
          exact ⟨.ping, wants, (later.after log₂).after log₁⟩

/-- What `poll_copy` may answer, with the polls it made. -/
def CopySays (side : Side) (answer : Poll (IoResult Unit)) (me : CopyBuffer) (log : PollLog) :
    Prop :=
  InDirection side log ∧ (answer = .pending → OutOfBudget log ∨ Awaits me.Wants side.of log)

theorem pollCopy_logs (me : CopyBuffer) (fuel : Nat) (cx : Context ω) :
    (pollCopy fuel cx.logged (r.logged side) (w.logged side.other)).Logs me (CopySays side) := by
  have turns : (Exec.loop (copyTurn (r.logged side) (w.logged side.other)) fuel).Logs me
      fun answer me' log => InDirection side log ∧
        (answer = .pending → Awaits me'.Wants side.of log) := by
    refine Exec.Logs.loop (fun _ => InDirection side) ?_ nofun fuel
    intro t log polls
    refine (copyTurn_logs t).mono ?_
    rintro ended u new ⟨more, awaits⟩
    cases ended with
    | none => exact polls.append more
    | some answer =>
        refine ⟨polls.append more, fun pending => ?_⟩
        exact (awaits (congrArg some pending)).after log
  intro world answer me' world' ran
  unfold pollCopy at ran
  dsimp only at ran
  split at ran
  case h_1 polled =>
    cases ran
    exact ⟨_, Logged.log_of_poll polled, inDirection_proceed _, fun _ => .inl List.mem_cons_self⟩
  case h_2 middle polled =>
    obtain ⟨new, logged, polls, awaits⟩ := turns middle answer me' world' ran
    refine ⟨[(.proceed, .ready 0)] ++ new, ?_, (inDirection_proceed _).append polls, ?_⟩
    · rw [logged, Logged.log_of_poll polled, List.append_assoc]
      rfl
    · intro pending
      exact .inr ((awaits pending).after _)

end CopyBuffer

/-- What a direction still has to do with its streams. -/
def Transfer.Wants (t : Transfer) (kind : PollKind) : Prop :=
  match t.state with
  | .running => t.buf.Wants kind
  | .shuttingDown => kind = .shutdown
  | .done => False

/-- What `transfer_one_direction` may answer, with the polls it made. -/
def TransferSays (side : Side) (answer : Poll (IoResult Unit)) (t : Transfer) (log : PollLog) :
    Prop :=
  InDirection side log ∧ (answer = .pending → OutOfBudget log ∨ Awaits t.Wants side.of log)

theorem transferTurn_logs (t : Transfer) (fuel : Nat) (cx : Context ω) :
    (transferTurn fuel cx.logged (r.logged side) (w.logged side.other)).Logs t fun ended t' log =>
      InDirection side log ∧
        (ended = some .pending → OutOfBudget log ∨ Awaits t'.Wants side.of log) := by
  intro world ended t' world' ran
  unfold transferTurn at ran
  dsimp only at ran
  split at ran
  case h_1 running =>
    have copied : (CopyBuffer.pollCopy fuel cx.logged (r.logged side) (w.logged side.other)).Logs
        t.buf (CopyBuffer.CopySays side) := CopyBuffer.pollCopy_logs t.buf fuel cx
    split at ran
    case h_1 polled =>
      cases ran
      obtain ⟨new, logged, polls, -⟩ := copied world _ _ _ polled
      exact ⟨new, logged, polls, nofun⟩
    case h_2 polled =>
      cases ran
      obtain ⟨new, logged, polls, -⟩ := copied world _ _ _ polled
      exact ⟨new, logged, polls, nofun⟩
    case h_3 polled =>
      cases ran
      obtain ⟨new, logged, polls, waits⟩ := copied world _ _ _ polled
      refine ⟨new, logged, polls, fun _ => (waits rfl).imp_right ?_⟩
      rintro ⟨kind, wants, last⟩
      refine ⟨kind, ?_, last⟩
      simp only [Transfer.Wants, running]
      exact wants
    case h_4 => cases ran
    case h_5 => cases ran
  case h_2 shuttingDown =>
    have polls (answer : Poll Nat) : InDirection side [(.on side.other .shutdown, answer)] :=
      Only.inDirection .shutdown only_singleton
    split at ran
    case h_1 polled =>
      cases ran
      exact ⟨_, Logged.log_of_poll polled, polls _, nofun⟩
    case h_2 polled =>
      cases ran
      exact ⟨_, Logged.log_of_poll polled, polls _, nofun⟩
    case h_3 polled =>
      cases ran
      refine ⟨_, Logged.log_of_poll polled, polls _, fun _ => .inr ?_⟩
      refine ⟨.shutdown, ?_, lastPending_singleton _⟩
      simp only [Transfer.Wants, shuttingDown]
  case h_3 =>
    cases ran
    exact ⟨[], (List.append_nil _).symm, nofun, nofun⟩

theorem transferOneDirection_logs (t : Transfer) (fuel : Nat) (cx : Context ω) :
    (transferOneDirection fuel cx.logged (r.logged side) (w.logged side.other)).Logs t
      (TransferSays side) := by
  refine Exec.Logs.loop (fun _ => InDirection side) ?_ nofun fuel
  intro t log polls
  refine (transferTurn_logs t fuel cx).mono ?_
  rintro ended u new ⟨more, waits⟩
  cases ended with
  | none => exact polls.append more
  | some answer =>
      refine ⟨polls.append more, fun pending => ?_⟩
      rcases waits (congrArg some pending) with out | awaits
      · exact .inl (out.after log)
      · exact .inr (awaits.after log)

namespace CopyBidirectional

/-- What a poll of the relay may answer, with the polls it made. -/
def RelaySays (answer : Poll (IoResult Unit)) (me : CopyBidirectional) (log : PollLog) : Prop :=
  answer = .pending → OutOfBudget log ∨ ∃ side, Awaits (me.transfer side).Wants side.of log

/-- The timer polls no stream. -/
theorem pollSleep_logs {a b : AsyncMessageStream ω} (me : CopyBidirectional) (cx : Context ω) :
    (pollSleep cx.logged (a.logged .a) (b.logged .b)).Logs me fun _ _ log => log = [] := by
  intro world answer me' world' ran
  refine ⟨[], ?_, rfl⟩
  rw [List.append_nil]
  unfold pollSleep at ran
  dsimp only at ran
  split at ran
  case h_1 polled =>
    have quiet := congrArg (fun answer => answer.2.log) polled
    cases ran
    exact quiet.symm
  case h_2 polled =>
    have quiet := congrArg (fun answer => answer.2.log) polled
    cases ran
    exact quiet.symm

/-- The end of a poll polls nothing, and is pending only if the first direction is. -/
theorem conclude_logs (me : CopyBidirectional) (cx : TimedContext (Logged Polled ω))
    (aCount bCount : Nat) (aToB bToA : Poll (IoResult Unit)) :
    (conclude cx aCount bCount aToB bToA).Logs me fun answer me' log =>
      log = [] ∧ me'.aToB = me.aToB ∧ (answer = .pending → aToB = .pending) := by
  have waits : combine aToB bToA = .pending → aToB = .pending := by
    intro pending
    cases aToB with
    | pending => rfl
    | ready => cases pending
  intro world answer me' world' ran
  refine ⟨[], ?_⟩
  unfold conclude at ran
  dsimp only at ran
  split at ran
  case isTrue =>
    cases ran
    exact ⟨(List.append_nil _).symm, rfl, rfl, waits⟩
  case isFalse =>
    split at ran
    case isTrue =>
      cases ran
      exact ⟨(List.append_nil _).symm, rfl, rfl, nofun⟩
    case isFalse =>
      cases ran
      exact ⟨(List.append_nil _).symm, rfl, rfl, waits⟩

theorem poll_logs {a b : AsyncMessageStream ω} (me : CopyBidirectional) (fuel : Nat)
    (cx : TimedContext ω) :
    (poll fuel cx.logged (a.logged .a) (b.logged .b)).Logs me RelaySays := by
  refine Exec.Logs.bind (pollSleep_logs me cx.toContext) ?_
  rintro _ m₁ _ rfl
  suffices both : (transferBoth fuel cx.logged (a.logged .a) (b.logged .b)
      m₁.aToB.buf.readCount m₁.bToA.buf.readCount).Logs m₁ RelaySays from both
  refine Exec.Logs.bind (M := fun answer m₂ log => TransferSays .a answer m₂.aToB log) ?_ ?_
  · apply Exec.Logs.zoom CopyBidirectional.aToB
      fun t (me : CopyBidirectional) => { me with aToB := t }
    exact transferOneDirection_logs m₁.aToB fuel cx.toContext
  rintro aToB m₂ log₁ ⟨-, waits⟩
  refine Exec.Logs.bind (M := fun answer m₃ log => m₃.aToB = m₂.aToB ∧
    TransferSays .b answer m₃.bToA log) ?_ ?_
  · apply Exec.Logs.zoom CopyBidirectional.bToA
      fun t (me : CopyBidirectional) => { me with bToA := t }
    have ran : (transferOneDirection fuel cx.toContext.logged (b.logged .b) (a.logged .a)).Logs
        m₂.bToA (TransferSays .b) := transferOneDirection_logs m₂.bToA fuel cx.toContext
    exact ran.mono fun answer t log comes => ⟨rfl, comes⟩
  rintro bToA m₃ log₂ ⟨same, polls, -⟩
  refine (conclude_logs m₃ cx.logged _ _ aToB bToA).mono ?_
  rintro answer m₄ log ⟨rfl, kept, pends⟩ pending
  rw [List.append_nil]
  -- both directions are pending then, and the first one is enough
  rcases waits (pends pending) with out | awaits
  · exact .inl (out.before log₂)
  · refine .inr ⟨.a, ?_⟩
    rw [transfer, kept, same]
    exact awaits.before .a polls

end CopyBidirectional

/-- No wake-up is lost in the message relay. -/
structure WakesUp (cx : TimedContext ω) (a b : AsyncMessageStream ω) : Prop where
  pollCopy : ∀ side fuel me,
    (CopyBuffer.pollCopy fuel cx.toContext.logged (a.logged side) (b.logged side.other)).Logs me
      (CopyBuffer.CopySays side)
  transferOneDirection : ∀ side fuel t,
    (UdpRelay.transferOneDirection fuel cx.toContext.logged (a.logged side)
      (b.logged side.other)).Logs t (TransferSays side)
  poll : ∀ fuel me, (CopyBidirectional.poll fuel cx.logged (a.logged .a) (b.logged .b)).Logs me
    CopyBidirectional.RelaySays

theorem wakesUp (cx : TimedContext ω) (a b : AsyncMessageStream ω) : WakesUp cx a b where
  pollCopy _ fuel me := CopyBuffer.pollCopy_logs me fuel cx.toContext
  transferOneDirection _ fuel t := transferOneDirection_logs t fuel cx.toContext
  poll fuel me := CopyBidirectional.poll_logs me fuel cx

end UdpRelay

end RustProxy
