import RustProxy.AsyncStream
import RustProxy.Base.Logged

/-!
# Logged streams

Streams and the runtime with their polls logged, in one log for a relay's two
streams. An entry says what was polled and how much it moved, or that it was
pending. A direction of a relay reads from one stream and does everything else
with the other, so the polls of two directions never mix.
-/

namespace RustProxy

/-- The operations of a stream. -/
inductive PollKind where
  | read
  | write
  | flush
  | shutdown
  | ping
  deriving DecidableEq, Repr

/-- What can be polled: the budget of the task, and the streams. -/
inductive Polled where
  | proceed
  | on (side : Side) (kind : PollKind)
  deriving DecidableEq, Repr

/-- The polls made, in order. -/
abbrev PollLog := List (Polled × Poll Nat)

/-- A count of what was moved; an error moves nothing. -/
def countOk {α : Type} (moved : α → Nat) : IoResult α → Nat
  | .ok value => moved value
  | .error _ => 0

variable {ω : Type}

/-- The stream with its polls logged, and the bytes that were read and written. -/
def AsyncStream.logged (stream : AsyncStream ω) (side : Side) :
    AsyncStream (Logged Polled ω) where
  pollRead room := Logged.poll (.on side .read) (countOk List.length) (stream.pollRead room)
  pollWrite offered := Logged.poll (.on side .write) (countOk id) (stream.pollWrite offered)
  pollFlush := Logged.poll (.on side .flush) (countOk fun _ => 0) stream.pollFlush
  pollShutdown := Logged.poll (.on side .shutdown) (countOk fun _ => 0) stream.pollShutdown
  supportsPing w := stream.supportsPing w.world
  pollWritePing := Logged.poll (.on side .ping) (countOk fun _ => 0) stream.pollWritePing
  read_fits room w bytes answered := stream.read_fits room w.world bytes answered
  write_fits offered w n answered := stream.write_fits offered w.world n answered

/-- The runtime, with the polls of the budget logged. -/
def Context.logged (cx : Context ω) : Context (Logged Polled ω) where
  pollProceed := Logged.poll .proceed (fun _ => 0) cx.pollProceed
  pollSleep w := ((cx.pollSleep w.world).1, ⟨(cx.pollSleep w.world).2, w.log⟩)
  resetSleep w := ⟨cx.resetSleep w.world, w.log⟩

/-- The stream that is polled by a direction that reads from `side`. -/
def Side.of (side : Side) : PollKind → Side
  | .read => side
  | .write | .flush | .shutdown | .ping => side.other

/-- Something that is wanted was polled, with `pending` as the last answer. -/
def Awaits (wants : PollKind → Prop) (at_ : PollKind → Side) (log : PollLog) : Prop :=
  ∃ kind, wants kind ∧ LastPending (.on (at_ kind) kind) log

theorem Awaits.after {wants : PollKind → Prop} {at_ : PollKind → Side} {log : PollLog}
    (h : Awaits wants at_ log) (earlier : PollLog) : Awaits wants at_ (earlier ++ log) := by
  obtain ⟨kind, wanted, last⟩ := h
  exact ⟨kind, wanted, last.after earlier⟩

/-- The budget was used up. -/
def OutOfBudget (log : PollLog) : Prop := (.proceed, .pending) ∈ log

theorem OutOfBudget.after {log : PollLog} (h : OutOfBudget log) (earlier : PollLog) :
    OutOfBudget (earlier ++ log) := List.mem_append_right earlier h

theorem OutOfBudget.before {log : PollLog} (h : OutOfBudget log) (later : PollLog) :
    OutOfBudget (log ++ later) := List.mem_append_left later h

section Direction

variable {side : Side}

/-- All polls are of one kind. -/
def Only (side : Side) (kind : PollKind) (log : PollLog) : Prop :=
  ∀ entry ∈ log, entry.1 = .on side kind

theorem only_nil {kind : PollKind} : Only side kind [] := nofun

theorem only_singleton {kind : PollKind} {answer : Poll Nat} :
    Only side kind [(.on side kind, answer)] := by
  intro entry mem
  rw [List.mem_singleton.mp mem]

theorem Only.append {kind : PollKind} {log more : PollLog} (h : Only side kind log)
    (h' : Only side kind more) : Only side kind (log ++ more) := by
  intro entry mem
  rcases List.mem_append.mp mem with mem | mem
  · exact h entry mem
  · exact h' entry mem

/-- Every poll is one of the direction that reads from `side`. -/
def InDirection (side : Side) (log : PollLog) : Prop :=
  ∀ entry ∈ log, entry.1 = .proceed ∨ ∃ kind, entry.1 = .on (side.of kind) kind

theorem InDirection.append {log more : PollLog} (h : InDirection side log)
    (h' : InDirection side more) : InDirection side (log ++ more) := by
  intro entry mem
  rcases List.mem_append.mp mem with mem | mem
  · exact h entry mem
  · exact h' entry mem

theorem inDirection_proceed (answer : Poll Nat) : InDirection side [(.proceed, answer)] := by
  intro entry mem
  rw [List.mem_singleton.mp mem]
  exact .inl rfl

theorem Only.inDirection (kind : PollKind) {log : PollLog} (h : Only (side.of kind) kind log) :
    InDirection side log := by
  intro entry mem
  exact .inr ⟨kind, h entry mem⟩

theorem Only.ne {side' : Side} {kind kind' : PollKind} {log : PollLog} (h : Only side' kind log)
    (different : kind ≠ kind') : ∀ entry ∈ log, entry.1 ≠ .on side kind' := by
  intro entry mem same
  rw [h entry mem] at same
  exact different (Polled.on.inj same).2

/-- The two directions poll different operations. -/
theorem of_other_ne (side : Side) (kind : PollKind) : side.other.of kind ≠ side.of kind := by
  cases side <;> cases kind <;> decide

/-- What the other direction does later leaves the last poll of this one. -/
theorem Awaits.before {wants : PollKind → Prop} {log more : PollLog} (side : Side)
    (h : Awaits wants side.of log) (others : InDirection side.other more) :
    Awaits wants side.of (log ++ more) := by
  obtain ⟨kind, wanted, last⟩ := h
  refine ⟨kind, wanted, last.before ?_⟩
  intro entry mem same
  rcases others entry mem with budget | ⟨kind', here⟩
  · rw [budget] at same
    cases same
  · rw [here] at same
    obtain ⟨sides, rfl⟩ := Polled.on.inj same
    exact of_other_ne side kind' sides

end Direction

end RustProxy
