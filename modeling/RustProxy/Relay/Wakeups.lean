import RustProxy.PollLog
import RustProxy.Relay.Steps

/-!
# What a pending relay waits for

A poll that returns `pending` is polled again when something wakes the task, and
only an operation whose last poll was pending does that. So whenever one of the
relay's polls is pending, something that it still has to do must have been
polled, with `pending` as the last answer. The cooperative budget is the
exception: the runtime wakes a task that has used it up.

Only the last round of `poll_copy` matters: what its four stages say about the
buffer still holds when the round is over.
-/

namespace RustProxy

variable {ω : Type}

namespace Relay

namespace CopyBuffer

/-- What the buffer still has to do with its streams. -/
def Wants (me : CopyBuffer) : PollKind → Prop
  | .read => me.readDone = false ∧ me.cacheLength < me.size
  | .write => 0 < me.cacheLength
  | .ping => me.needWritePing = true
  | .flush => me.needFlush = true
  | .shutdown => False

/-- The reader was polled until it was pending, or until the buffer was full: no
read was polled since, and what is cached now and what was written since fill it. -/
def ReadAll (side : Side) (me : CopyBuffer) (log : PollLog) : Prop :=
  LastPending (.on side .read) log ∨ ∃ earlier later, log = earlier ++ later ∧
    (∀ entry ∈ later, entry.1 ≠ .on side .read) ∧
    me.size ≤ me.cacheLength + movedBy (.on side.other .write) later

theorem ReadAll.after {side : Side} {me : CopyBuffer} {log : PollLog} (h : ReadAll side me log)
    (before : PollLog) : ReadAll side me (before ++ log) := by
  rcases h with last | ⟨earlier, later, rfl, quiet, full⟩
  · exact .inl (last.after before)
  · exact .inr ⟨before ++ earlier, later, by rw [List.append_assoc], quiet, full⟩

/-- A poll that had the budget and is pending all the same. -/
structure Stalled (side : Side) (me : CopyBuffer) (log : PollLog) : Prop where
  awaits : Awaits me.Wants side.of log
  readAll : me.readDone = false → ReadAll side me log

variable {side : Side} {r w : AsyncStream ω} {me : CopyBuffer}

/-- What the reading loop has come to. -/
def ReadSays (side : Side) (readPending : Bool) (me : CopyBuffer) (log : PollLog) : Prop :=
  if readPending then me.Wants .read ∧ LastPending (.on side .read) log
  else me.readDone = true ∨ me.size ≤ me.cacheLength

/-- What a turn of the reading loop polls. -/
theorem readTurn_logs (me : CopyBuffer) : (readTurn (r.logged side)).Logs me fun ended me' new =>
    Only side .read new ∧
      ∀ readPending, ended = some (.ok readPending) → ReadSays side readPending me' new := by
  intro world ended me' world' ran
  unfold readTurn at ran
  dsimp only at ran
  split at ran
  case isTrue turn =>
    generalize (if (me.startIndex + me.cacheLength) % me.size < me.startIndex
      then me.startIndex else me.size) = unusedEnd at ran
    split at ran
    case isTrue =>
      split at ran
      case h_1 polled =>
        split at ran
        · cases ran
          exact ⟨_, Logged.log_of_poll polled, only_singleton, nofun⟩
        · cases ran
          exact ⟨_, Logged.log_of_poll polled, only_singleton, nofun⟩
      case h_2 polled =>
        cases ran
        exact ⟨_, Logged.log_of_poll polled, only_singleton, nofun⟩
      case h_3 polled =>
        cases ran
        refine ⟨_, Logged.log_of_poll polled, only_singleton, ?_⟩
        rintro readPending ⟨⟩
        exact ⟨⟨by simpa using turn.1, turn.2⟩, lastPending_singleton _⟩
    case isFalse => cases ran
  case isFalse full =>
    cases ran
    refine ⟨[], (List.append_nil _).symm, only_nil, ?_⟩
    rintro readPending ⟨⟩
    by_cases ended : me.readDone = true
    · exact .inl ended
    · exact .inr (Nat.le_of_not_lt fun space => full ⟨by simpa using ended, space⟩)

theorem ReadSays.after {readPending : Bool} {log : PollLog} (h : ReadSays side readPending me log)
    (earlier : PollLog) : ReadSays side readPending me (earlier ++ log) := by
  cases readPending with
  | true => exact ⟨h.1, h.2.after earlier⟩
  | false => exact h

/-- What the reading loop of a round polls. -/
theorem readLoop_logs (me : CopyBuffer) (fuel : Nat) :
    (Exec.loop (readTurn (r.logged side)) fuel).Logs me fun answer me' new =>
      Only side .read new ∧
        ∀ readPending, answer = .ok readPending → ReadSays side readPending me' new := by
  refine Exec.Logs.loop (fun _ => Only side .read) ?_ only_nil fuel
  intro t log reads
  refine (readTurn_logs t).mono ?_
  rintro ended u new ⟨more, comes⟩
  cases ended with
  | none => exact reads.append more
  | some answer =>
      refine ⟨reads.append more, ?_⟩
      intro readPending answered
      exact (comes readPending (congrArg some answered)).after log

/-- What the ping does to the buffer. -/
structure Pinged (side : Side) (me me' : CopyBuffer) (log : PollLog) : Prop where
  only : Only side.other .ping log
  readDone : me'.readDone = me.readDone
  size : me'.size = me.size
  cached : me'.cacheLength = me.cacheLength

/-- What the ping of a round polls. -/
theorem ping_logs (me : CopyBuffer) :
    (ping (w.logged side.other)).Logs me fun answer me' new => Pinged side me me' new ∧
      (answer = .ok true → me'.Wants .ping ∧ LastPending (.on side.other .ping) new) := by
  intro world answer me' world' ran
  unfold ping at ran
  dsimp only at ran
  split at ran
  case isTrue asked =>
    split at ran
    case isTrue =>
      split at ran
      case h_1 written _ polled =>
        cases written
        · cases ran
          exact ⟨_, Logged.log_of_poll polled, ⟨only_singleton, rfl, rfl, rfl⟩, nofun⟩
        · cases ran
          exact ⟨_, Logged.log_of_poll polled, ⟨only_singleton, rfl, rfl, rfl⟩, nofun⟩
      case h_2 polled =>
        cases ran
        exact ⟨_, Logged.log_of_poll polled, ⟨only_singleton, rfl, rfl, rfl⟩, nofun⟩
      case h_3 polled =>
        cases ran
        exact ⟨_, Logged.log_of_poll polled, ⟨only_singleton, rfl, rfl, rfl⟩,
          fun _ => ⟨asked, lastPending_singleton _⟩⟩
    case isFalse =>
      cases ran
      exact ⟨[], (List.append_nil _).symm, ⟨only_nil, rfl, rfl, rfl⟩, nofun⟩
  case isFalse =>
    cases ran
    exact ⟨[], (List.append_nil _).symm, ⟨only_nil, rfl, rfl, rfl⟩, nofun⟩

/-- The slice that is offered to the writer is cached. -/
theorem length_offered_le (me : CopyBuffer) :
    ((me.buf.drop me.startIndex).take
      (min (me.startIndex + me.cacheLength) me.size - me.startIndex)).length ≤ me.cacheLength := by
  rw [List.length_take]
  omega

/-- What the writing loop does to the buffer. -/
structure Wrote (side : Side) (me me' : CopyBuffer) (log : PollLog) : Prop where
  only : Only side.other .write log
  readDone : me'.readDone = me.readDone
  size : me'.size = me.size
  needWritePing : me'.needWritePing = me.needWritePing
  cached : me'.cacheLength + movedBy (.on side.other .write) log = me.cacheLength

theorem Wrote.refl (side : Side) (me : CopyBuffer) : Wrote side me me [] :=
  ⟨only_nil, rfl, rfl, rfl, rfl⟩

theorem Wrote.trans {me' me'' : CopyBuffer} {log more : PollLog} (h : Wrote side me me' log)
    (h' : Wrote side me' me'' more) : Wrote side me me'' (log ++ more) where
  only := h.only.append h'.only
  readDone := h'.readDone.trans h.readDone
  size := h'.size.trans h.size
  needWritePing := h'.needWritePing.trans h.needWritePing
  cached := by
    have := h.cached
    have := h'.cached
    rw [movedBy_append]
    omega

/-- What a turn of the writing loop polls. -/
theorem writeTurn_logs (me : CopyBuffer) :
    (writeTurn (w.logged side.other)).Logs me fun ended me' new => Wrote side me me' new ∧
      (ended = some (.ok true) → me'.Wants .write ∧ LastPending (.on side.other .write) new) := by
  intro world ended me' world' ran
  unfold writeTurn at ran
  dsimp only at ran
  split at ran
  case isTrue cached =>
    split at ran
    case isTrue =>
      split at ran
      case h_1 written _ polled =>
        have fits := (w.logged side.other).write_fits _ _ _ (congrArg Prod.fst polled)
        have offered := length_offered_le me
        split at ran
        case isTrue none_ =>
          cases ran
          refine ⟨_, Logged.log_of_poll polled, ⟨only_singleton, rfl, rfl, rfl, ?_⟩, ?_⟩
          · simp [movedBy, Poll.count, countOk, none_]
          · intro pending
            cases pending
        case isFalse =>
          cases ran
          refine ⟨_, Logged.log_of_poll polled, ⟨only_singleton, rfl, rfl, rfl, ?_⟩, ?_⟩
          · simp [movedBy, Poll.count, countOk]
            omega
          · intro pending
            cases pending
      case h_2 polled =>
        cases ran
        refine ⟨_, Logged.log_of_poll polled, ⟨only_singleton, rfl, rfl, rfl, ?_⟩, ?_⟩
        · simp [movedBy, Poll.count, countOk]
        · intro pending
          cases pending
      case h_3 polled =>
        cases ran
        exact ⟨_, Logged.log_of_poll polled, ⟨only_singleton, rfl, rfl, rfl, rfl⟩,
          fun _ => ⟨cached, lastPending_singleton _⟩⟩
    case isFalse => cases ran
  case isFalse =>
    cases ran
    refine ⟨[], (List.append_nil _).symm, .refl side me, ?_⟩
    intro pending
    cases pending

/-- What the writing loop of a round polls. -/
theorem writeLoop_logs (me : CopyBuffer) (fuel : Nat) :
    (Exec.loop (writeTurn (w.logged side.other)) fuel).Logs me fun answer me' new =>
      Wrote side me me' new ∧
        (answer = .ok true → me'.Wants .write ∧ LastPending (.on side.other .write) new) := by
  refine Exec.Logs.loop (Wrote side me) ?_ (.refl side me) fuel
  intro t log wrote
  refine (writeTurn_logs t).mono ?_
  rintro ended u new ⟨more, waits⟩
  cases ended with
  | none => exact wrote.trans more
  | some answer =>
      refine ⟨wrote.trans more, ?_⟩
      intro pending
      obtain ⟨wants, last⟩ := waits (congrArg some pending)
      exact ⟨wants, last.after log⟩

/-- What the flush does to the buffer. -/
structure Flushed (side : Side) (me me' : CopyBuffer) (log : PollLog) : Prop where
  only : Only side.other .flush log
  readDone : me'.readDone = me.readDone
  size : me'.size = me.size
  needWritePing : me'.needWritePing = me.needWritePing
  cached : me'.cacheLength = me.cacheLength

/-- What the flush of a round polls. -/
theorem flush_logs (me : CopyBuffer) :
    (flush (w.logged side.other)).Logs me fun answer me' new => Flushed side me me' new ∧
      answer ≠ some (.ready (.ok ())) ∧
      (answer = some .pending → me'.Wants .flush ∧ LastPending (.on side.other .flush) new) := by
  intro world answer me' world' ran
  unfold flush at ran
  dsimp only at ran
  split at ran
  case isTrue needed =>
    split at ran
    case h_1 polled =>
      cases ran
      exact ⟨_, Logged.log_of_poll polled, ⟨only_singleton, rfl, rfl, rfl, rfl⟩, nofun, nofun⟩
    case h_2 polled =>
      cases ran
      exact ⟨_, Logged.log_of_poll polled, ⟨only_singleton, rfl, rfl, rfl, rfl⟩, nofun, nofun⟩
    case h_3 polled =>
      cases ran
      exact ⟨_, Logged.log_of_poll polled, ⟨only_singleton, rfl, rfl, rfl, rfl⟩, nofun,
        fun _ => ⟨needed, lastPending_singleton _⟩⟩
  case isFalse =>
    cases ran
    exact ⟨[], (List.append_nil _).symm, ⟨only_nil, rfl, rfl, rfl, rfl⟩, nofun, nofun⟩

/-- The end of a round polls nothing. -/
theorem verdict_logs (me : CopyBuffer) (readPending writePending : Bool) :
    (verdict (ω := Logged Polled ω) readPending writePending).Logs me fun ended me' new =>
      me = me' ∧ new = [] ∧ (ended = some .pending → (readPending || writePending) = true) ∧
        (ended = some (.ready (.ok ())) → me.readDone = true) := by
  intro world ended me' world' ran
  refine ⟨[], ?_⟩
  unfold verdict at ran
  dsimp only at ran
  split at ran
  case isTrue done =>
    cases ran
    exact ⟨(List.append_nil _).symm, rfl, rfl, nofun, fun _ => done.1⟩
  case isFalse =>
    split at ran
    case isTrue waits =>
      cases ran
      exact ⟨(List.append_nil _).symm, rfl, rfl, fun _ => waits, nofun⟩
    case isFalse =>
      cases ran
      exact ⟨(List.append_nil _).symm, rfl, rfl, nofun, nofun⟩

/-- The stages behind the reading loop take from the buffer what they write. -/
structure Behind (side : Side) (me me' : CopyBuffer) (log : PollLog) : Prop where
  quiet : ∀ entry ∈ log, entry.1 ≠ .on side .read
  readDone : me'.readDone = me.readDone
  size : me'.size = me.size
  less : me'.cacheLength ≤ me.cacheLength
  cached : me.cacheLength ≤ me'.cacheLength + movedBy (.on side.other .write) log

theorem behind_of_stages {m₁ m₂ m₃ m₄ : CopyBuffer} {log₂ log₃ log₄ : PollLog}
    (pinged : Pinged side m₁ m₂ log₂) (wrote : Wrote side m₂ m₃ log₃)
    (flushed : Flushed side m₃ m₄ log₄) : Behind side m₁ m₄ (log₂ ++ (log₃ ++ log₄)) := by
  have cached₂ := pinged.cached
  have cached₃ := wrote.cached
  have cached₄ := flushed.cached
  constructor
  · intro entry mem
    rcases List.mem_append.mp mem with mem | mem
    · exact pinged.only.ne (by decide) entry mem
    · rcases List.mem_append.mp mem with mem | mem
      · exact wrote.only.ne (by decide) entry mem
      · exact flushed.only.ne (by decide) entry mem
  · rw [flushed.readDone, wrote.readDone, pinged.readDone]
  · rw [flushed.size, wrote.size, pinged.size]
  · omega
  · rw [movedBy_append, movedBy_append]
    omega

/-- The reader was polled enough at the end of a round, if it was at the end of
the reading loop. -/
theorem ReadSays.readAll {readPending : Bool} {me' : CopyBuffer} {log rest : PollLog}
    (h : ReadSays side readPending me log) (behind : Behind side me me' rest)
    (more : me'.readDone = false) : ReadAll side me' (log ++ rest) := by
  cases readPending with
  | true => exact .inl (h.2.before behind.quiet)
  | false =>
      refine .inr ⟨log, rest, rfl, behind.quiet, ?_⟩
      have full : me.size ≤ me.cacheLength := by
        refine h.resolve_left ?_
        rw [← behind.readDone, more]
        exact nofun
      have := behind.cached
      rw [behind.size]
      omega

/-- A reader that is pending at the end of the reading loop is what the round
waits for. -/
theorem ReadSays.awaits {me' : CopyBuffer} {log rest : PollLog}
    (h : ReadSays side true me log) (behind : Behind side me me' rest) :
    Awaits me'.Wants side.of (log ++ rest) := by
  obtain ⟨⟨more, space⟩, last⟩ := h
  refine ⟨.read, ⟨behind.readDone.trans more, ?_⟩, last.before behind.quiet⟩
  rw [behind.size]
  exact Nat.lt_of_le_of_lt behind.less space

/-- How a round of `poll_copy` may end. -/
def RoundSays (side : Side) (ended : Option (Poll (IoResult Unit))) (me : CopyBuffer)
    (log : PollLog) : Prop :=
  InDirection side log ∧ (ended = some .pending → Stalled side me log) ∧
    (ended = some (.ready (.ok ())) → me.readDone = true)

theorem roundSays_error {e : IoError} {log : PollLog} (polls : InDirection side log) :
    RoundSays side (some (.ready (.error e))) me log :=
  ⟨polls, nofun, nofun⟩

/-- One round of `poll_copy`. -/
theorem copyRound_logs (me : CopyBuffer) (fuel : Nat) :
    (copyRound fuel (r.logged side) (w.logged side.other)).Logs me (RoundSays side) := by
  refine Exec.Logs.bind (readLoop_logs me fuel) ?_
  rintro answer m₁ log₁ ⟨only₁, reads⟩
  have polls₁ : InDirection side log₁ := Only.inDirection .read only₁
  rcases answer with e | readPending
  · apply Exec.logs_pure
    rw [List.append_nil]
    exact roundSays_error polls₁
  refine Exec.Logs.bind (ping_logs m₁) ?_
  rintro answer m₂ log₂ ⟨pinged, pings⟩
  have polls₂ := polls₁.append (Only.inDirection .ping pinged.only)
  rcases answer with e | pingPending
  · apply Exec.logs_pure
    rw [List.append_nil]
    exact roundSays_error polls₂
  refine Exec.Logs.bind (writeLoop_logs m₂ fuel) ?_
  rintro answer m₃ log₃ ⟨wrote, writes⟩
  have polls₃ := polls₂.append (Only.inDirection .write wrote.only)
  rw [List.append_assoc] at polls₃
  rcases answer with e | writePending
  · apply Exec.logs_pure
    rw [List.append_nil]
    exact roundSays_error polls₃
  refine Exec.Logs.bind (flush_logs m₃) ?_
  rintro answer m₄ log₄ ⟨flushed, notDone, flushes⟩
  have polls₄ := polls₃.append (Only.inDirection .flush flushed.only)
  rw [List.append_assoc, List.append_assoc] at polls₄
  have behind := behind_of_stages pinged wrote flushed
  have read := reads readPending rfl
  have readAll : m₄.readDone = false → ReadAll side m₄ _ := read.readAll behind
  rcases answer with _ | answer
  · refine (verdict_logs m₄ readPending (pingPending || writePending)).mono ?_
    rintro ended m₅ log₅ ⟨rfl, rfl, waits, done⟩
    rw [List.append_nil]
    refine ⟨polls₄, fun pending => ⟨?_, readAll⟩, done⟩
    -- one of the three flags is set, and was set in this round
    have flags := waits pending
    rw [Bool.or_eq_true, Bool.or_eq_true] at flags
    rcases flags with rfl | rfl | rfl
    · exact read.awaits behind
    · obtain ⟨wants, last⟩ := pings rfl
      have still : m₄.Wants .ping := by
        rw [Wants, flushed.needWritePing, wrote.needWritePing]
        exact wants
      have later := (last.before (wrote.only.ne (by decide))).before (flushed.only.ne (by decide))
      rw [List.append_assoc] at later
      exact ⟨.ping, still, later.after log₁⟩
    · obtain ⟨wants, last⟩ := writes rfl
      have still : m₄.Wants .write := by
        rw [Wants, flushed.cached]
        exact wants
      have later := last.before (flushed.only.ne (by decide))
      exact ⟨.write, still, (later.after log₂).after log₁⟩
  · apply Exec.logs_pure
    rw [List.append_nil]
    refine ⟨polls₄, fun pending => ⟨?_, readAll⟩, fun done => absurd done notDone⟩
    obtain ⟨wants, last⟩ := flushes pending
    exact ⟨.flush, wants, ((last.after log₃).after log₂).after log₁⟩

/-- What `poll_copy` may answer, with the polls it made. -/
def CopySays (side : Side) (answer : Poll (IoResult Unit)) (me : CopyBuffer) (log : PollLog) :
    Prop :=
  InDirection side log ∧ (answer = .pending → OutOfBudget log ∨ Stalled side me log) ∧
    (answer = .ready (.ok ()) → me.readDone = true)

theorem pollCopy_logs (me : CopyBuffer) (fuel : Nat) (cx : Context ω) :
    (pollCopy fuel cx.logged (r.logged side) (w.logged side.other)).Logs me (CopySays side) := by
  have rounds : (Exec.loop (copyRound fuel (r.logged side) (w.logged side.other)) fuel).Logs me
      fun answer me' log => InDirection side log ∧ (answer = .pending → Stalled side me' log) ∧
        (answer = .ready (.ok ()) → me'.readDone = true) := by
    refine Exec.Logs.loop (fun _ => InDirection side) ?_ nofun fuel
    intro t log polls
    refine (copyRound_logs t fuel).mono ?_
    rintro ended u new ⟨more, stalls, done⟩
    cases ended with
    | none => exact polls.append more
    | some answer =>
        refine ⟨polls.append more, ?_, fun ok => done (congrArg some ok)⟩
        intro pending
        obtain ⟨awaits, readAll⟩ := stalls (congrArg some pending)
        exact ⟨awaits.after log, fun more => (readAll more).after log⟩
  intro world answer me' world' ran
  unfold pollCopy at ran
  dsimp only at ran
  split at ran
  case h_1 polled =>
    cases ran
    exact ⟨_, Logged.log_of_poll polled, inDirection_proceed _, fun _ => .inl List.mem_cons_self,
      nofun⟩
  case h_2 middle polled =>
    obtain ⟨new, logged, polls, stalls, done⟩ := rounds middle answer me' world' ran
    refine ⟨[(.proceed, .ready 0)] ++ new, ?_, (inDirection_proceed _).append polls, ?_, done⟩
    · rw [logged, Logged.log_of_poll polled, List.append_assoc]
      rfl
    · intro pending
      obtain ⟨awaits, readAll⟩ := stalls pending
      exact .inr ⟨awaits.after _, fun more => (readAll more).after _⟩

end CopyBuffer

variable {side : Side} {r w : AsyncStream ω}

/-- What a direction still has to do with its streams. -/
def Transfer.Wants (t : Transfer) (kind : PollKind) : Prop :=
  match t.state with
  | .running => t.buf.Wants kind
  | .shuttingDown => kind = .shutdown
  | .done => False

/-- A direction leaves `Running` at the end of its input. -/
def Transfer.EofFirst (t : Transfer) : Prop := t.state ≠ .running → t.buf.readDone = true

/-- A direction that had the budget and is pending all the same. -/
structure Transfer.Stalled (side : Side) (t : Transfer) (log : PollLog) : Prop where
  awaits : Awaits t.Wants side.of log
  readAll : t.buf.readDone = false → t.buf.ReadAll side log

theorem Transfer.Stalled.after {t : Transfer} {log : PollLog} (h : t.Stalled side log)
    (earlier : PollLog) : t.Stalled side (earlier ++ log) :=
  ⟨h.awaits.after earlier, fun more => (h.readAll more).after earlier⟩

/-- What `transfer_one_direction` may answer, with the polls it made. -/
def TransferSays (side : Side) (answer : Poll (IoResult Unit)) (t : Transfer) (log : PollLog) :
    Prop :=
  InDirection side log ∧ t.EofFirst ∧ (answer = .pending → OutOfBudget log ∨ t.Stalled side log)

theorem transferTurn_logs (t : Transfer) (eofFirst : t.EofFirst) (fuel : Nat) (cx : Context ω) :
    (transferTurn fuel cx.logged (r.logged side) (w.logged side.other)).Logs t fun ended t' log =>
      InDirection side log ∧ t'.EofFirst ∧
        (ended = some .pending → OutOfBudget log ∨ t'.Stalled side log) := by
  intro world ended t' world' ran
  unfold transferTurn at ran
  dsimp only at ran
  split at ran
  case h_1 running =>
    have copied : (CopyBuffer.pollCopy fuel cx.logged (r.logged side) (w.logged side.other)).Logs
        t.buf (CopyBuffer.CopySays side) := CopyBuffer.pollCopy_logs t.buf fuel cx
    split at ran
    case h_1 buf world'' polled =>
      cases ran
      obtain ⟨new, logged, polls, -, done⟩ := copied world _ _ _ polled
      exact ⟨new, logged, polls, fun _ => done rfl, nofun⟩
    case h_2 polled =>
      cases ran
      obtain ⟨new, logged, polls, -⟩ := copied world _ _ _ polled
      exact ⟨new, logged, polls, fun left => absurd running left, nofun⟩
    case h_3 buf world'' polled =>
      cases ran
      obtain ⟨new, logged, polls, stalls, -⟩ := copied world _ _ _ polled
      refine ⟨new, logged, polls, fun left => absurd running left, fun _ => ?_⟩
      refine (stalls rfl).imp_right fun stalled => ⟨?_, stalled.readAll⟩
      obtain ⟨kind, wants, last⟩ := stalled.awaits
      refine ⟨kind, ?_, last⟩
      simp only [Transfer.Wants, running]
      exact wants
    case h_4 => cases ran
    case h_5 => cases ran
  case h_2 shuttingDown =>
    have seen : t.buf.readDone = true := eofFirst (by simp [shuttingDown])
    have polls (answer : Poll Nat) : InDirection side [(.on side.other .shutdown, answer)] :=
      Only.inDirection .shutdown only_singleton
    split at ran
    case h_1 polled =>
      cases ran
      exact ⟨_, Logged.log_of_poll polled, polls _, fun _ => seen, nofun⟩
    case h_2 polled =>
      cases ran
      exact ⟨_, Logged.log_of_poll polled, polls _, eofFirst, nofun⟩
    case h_3 polled =>
      cases ran
      refine ⟨_, Logged.log_of_poll polled, polls _, eofFirst, fun _ => .inr ⟨?_, ?_⟩⟩
      · refine ⟨.shutdown, ?_, lastPending_singleton _⟩
        simp only [Transfer.Wants, shuttingDown]
      · rw [seen]
        exact nofun
  case h_3 =>
    cases ran
    exact ⟨[], (List.append_nil _).symm, nofun, eofFirst, nofun⟩

theorem transferOneDirection_logs (t : Transfer) (eofFirst : t.EofFirst) (fuel : Nat)
    (cx : Context ω) :
    (transferOneDirection fuel cx.logged (r.logged side) (w.logged side.other)).Logs t
      (TransferSays side) := by
  refine Exec.Logs.loop (fun t log => InDirection side log ∧ t.EofFirst) ?_ ⟨nofun, eofFirst⟩ fuel
  rintro t log ⟨polls, eofFirst⟩
  refine (transferTurn_logs t eofFirst fuel cx).mono ?_
  rintro ended u new ⟨more, eofFirst, stalls⟩
  cases ended with
  | none => exact ⟨polls.append more, eofFirst⟩
  | some answer =>
      refine ⟨polls.append more, eofFirst, fun pending => ?_⟩
      rcases stalls (congrArg some pending) with out | stalled
      · exact .inl (out.after log)
      · exact .inr (stalled.after log)

namespace CopyBidirectional

/-- Both directions leave `Running` at the end of their inputs. -/
def EofFirst (me : CopyBidirectional) : Prop := me.aToB.EofFirst ∧ me.bToA.EofFirst

/-- What a poll of the relay may answer, with the polls it made. -/
def RelaySays (answer : Poll (IoResult Unit)) (me : CopyBidirectional) (log : PollLog) : Prop :=
  me.EofFirst ∧ (answer = .pending → OutOfBudget log ∨
    ∃ side, Awaits (me.transfer side).Wants side.of log)

/-- The timer polls no stream. -/
theorem pollSleep_logs {a b : AsyncStream ω} (me : CopyBidirectional) (eofFirst : me.EofFirst)
    (cx : Context ω) :
    (pollSleep cx.logged (a.logged .a) (b.logged .b)).Logs me fun _ me' log =>
      me'.EofFirst ∧ log = [] := by
  intro world answer me' world' ran
  refine ⟨[], ?_⟩
  unfold pollSleep at ran
  dsimp only at ran
  split at ran
  case isTrue =>
    split at ran
    case h_1 polled =>
      have quiet := congrArg (fun answer => answer.2.log) polled
      cases ran
      exact ⟨by rw [List.append_nil]; exact quiet.symm, ⟨eofFirst.1, eofFirst.2⟩, rfl⟩
    case h_2 polled =>
      have quiet := congrArg (fun answer => answer.2.log) polled
      cases ran
      exact ⟨by rw [List.append_nil]; exact quiet.symm, eofFirst, rfl⟩
  case isFalse =>
    cases ran
    exact ⟨(List.append_nil _).symm, eofFirst, rfl⟩

/-- A relay that is pending has a direction that is. -/
theorem pending_of_combine {aToB bToA : Poll (IoResult Unit)} (h : combine aToB bToA = .pending) :
    aToB = .pending ∨ bToA = .pending := by
  rcases aToB with _ | _ | _
  · exact .inl rfl
  · cases h
  · rcases bToA with _ | _ | _
    · exact .inr rfl
    · cases h
    · cases h

theorem poll_logs {a b : AsyncStream ω} (me : CopyBidirectional) (eofFirst : me.EofFirst)
    (fuel : Nat) (cx : Context ω) :
    (poll fuel cx.logged (a.logged .a) (b.logged .b)).Logs me RelaySays := by
  refine Exec.Logs.bind (pollSleep_logs me eofFirst cx) ?_
  rintro _ m₁ _ ⟨eofFirst, rfl⟩
  refine Exec.Logs.bind (M := fun answer m₂ log => m₂.EofFirst ∧
    TransferSays .a answer m₂.aToB log) ?_ ?_
  · apply Exec.Logs.zoom CopyBidirectional.aToB
      fun t (me : CopyBidirectional) => { me with aToB := t }
    have ran : (transferOneDirection fuel cx.logged (a.logged .a) (b.logged .b)).Logs m₁.aToB
        (TransferSays .a) := transferOneDirection_logs m₁.aToB eofFirst.1 fuel cx
    refine ran.mono ?_
    intro answer t log comes
    exact ⟨⟨comes.2.1, eofFirst.2⟩, comes⟩
  rintro aToB m₂ log₁ ⟨eofFirst, -, -, stallsA⟩
  refine Exec.Logs.bind (M := fun answer m₃ log => m₃.aToB = m₂.aToB ∧ m₃.EofFirst ∧
    TransferSays .b answer m₃.bToA log) ?_ ?_
  · apply Exec.Logs.zoom CopyBidirectional.bToA
      fun t (me : CopyBidirectional) => { me with bToA := t }
    have ran : (transferOneDirection fuel cx.logged (b.logged .b) (a.logged .a)).Logs m₂.bToA
        (TransferSays .b) := transferOneDirection_logs m₂.bToA eofFirst.2 fuel cx
    refine ran.mono ?_
    intro answer t log comes
    exact ⟨rfl, ⟨eofFirst.1, comes.2.1⟩, comes⟩
  rintro bToA m₃ log₂ ⟨same, eofFirst, pollsB, -, stallsB⟩
  apply Exec.logs_pure
  rw [List.append_nil, List.nil_append]
  refine ⟨eofFirst, fun pending => ?_⟩
  rcases pending_of_combine pending with waits | waits
  · rcases stallsA waits with out | stalled
    · exact .inl (out.before log₂)
    · refine .inr ⟨.a, ?_⟩
      rw [transfer, same]
      exact stalled.awaits.before .a pollsB
  · rcases stallsB waits with out | stalled
    · exact .inl (out.after log₁)
    · exact .inr ⟨.b, stalled.awaits.after log₁⟩

/-- A direction that was started and polled has left `Running` only at the end of
its input. -/
theorem eofFirst_of_reached {a b : AsyncStream ω} {memory : Side → Nat → UInt8}
    {world : Logged Polled ω} {aFlush bFlush : Bool} {aToBSize bToASize : Nat} {cx : Context ω}
    {me : CopyBidirectional}
    (reached : Exec.Reached (fun fuel => poll fuel cx.logged (a.logged .a) (b.logged .b))
      (copyBidirectionalWithSizes memory (a.logged .a) (b.logged .b) world aFlush bFlush
        aToBSize bToASize) me) : me.EofFirst := by
  refine reached.invariant EofFirst ⟨nofun, nofun⟩ ?_
  intro fuel t eofFirst
  exact (poll_logs t eofFirst fuel cx).mono fun _ _ _ comes => comes.1

end CopyBidirectional

/-- No wake-up is lost in the byte relay: a poll of a buffer, of a direction or of
the whole relay that is pending waits for something that it has polled. -/
structure WakesUp (cx : Context ω) (a b : AsyncStream ω) : Prop where
  pollCopy : ∀ side fuel me,
    (CopyBuffer.pollCopy fuel cx.logged (a.logged side) (b.logged side.other)).Logs me
      (CopyBuffer.CopySays side)
  transferOneDirection : ∀ side fuel (t : Transfer), t.EofFirst →
    (Relay.transferOneDirection fuel cx.logged (a.logged side) (b.logged side.other)).Logs t
      (TransferSays side)
  poll : ∀ memory world aFlush bFlush aToBSize bToASize fuel me,
    Exec.Reached
      (fun fuel => CopyBidirectional.poll fuel cx.logged (a.logged .a) (b.logged .b))
      (copyBidirectionalWithSizes memory (a.logged .a) (b.logged .b) world aFlush bFlush
        aToBSize bToASize) me →
    me.EofFirst ∧
      (CopyBidirectional.poll fuel cx.logged (a.logged .a) (b.logged .b)).Logs me
        CopyBidirectional.RelaySays

theorem wakesUp (cx : Context ω) (a b : AsyncStream ω) : WakesUp cx a b where
  pollCopy side fuel me := CopyBuffer.pollCopy_logs me fuel cx
  transferOneDirection side fuel t eofFirst := transferOneDirection_logs t eofFirst fuel cx
  poll memory world aFlush bFlush aToBSize bToASize fuel me reached := by
    have eofFirst := CopyBidirectional.eofFirst_of_reached reached
    exact ⟨eofFirst, CopyBidirectional.poll_logs me eofFirst fuel cx⟩

end Relay

end RustProxy
