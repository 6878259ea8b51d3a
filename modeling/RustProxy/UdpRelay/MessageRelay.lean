import RustProxy.Relay.Lossless
import RustProxy.UdpRelay.MessageCopy

/-!
# The relay keeps messages whole and in order

The calls of a relay belong to its two directions: a read to the one that reads
from the stream, every other call to the one that writes to it. Read off its
calls, a direction has passed on, one by one and in order, the messages that its
reader produced, with at most the last one still cached. It shuts its writer down
only when nothing is cached and everything was flushed.

The account of a direction holds at every moment of every poll. Beside it the
lemmas carry a property `J` of the world that the calls of a relay preserve
(`Closed`), and they say which call a failure came from.
-/

namespace RustProxy.UdpRelay

open Relay (TransferState allocateVec)

variable {ω : Type}

/-- The direction, named by the side it reads from, that makes a call. -/
def direction (side : Side) : MessageEvent → Side
  | .read .. => side
  | .write .. | .flush .. | .shutdown .. | .ping .. => side.other

/-- The calls of the direction that reads from a side. -/
def view (side : Side) (calls : List (Side × MessageEvent)) : List MessageEvent :=
  calls.filterMap fun call => if direction call.1 call.2 = side then some call.2 else none

/-- The message a call obtained from the reader. A read of nothing is none. -/
def MessageEvent.read? : MessageEvent → Option Bytes
  | .read _ (.ready (.ok message)) => if message = [] then none else some message
  | _ => none

/-- The message a call made the writer accept. -/
def MessageEvent.written? : MessageEvent → Option Bytes
  | .write message (.ready (.ok ())) => some message
  | _ => none

def produced (calls : List MessageEvent) : List Bytes := calls.filterMap MessageEvent.read?

def accepted (calls : List MessageEvent) : List Bytes := calls.filterMap MessageEvent.written?

/-- The one message that the buffer holds. -/
def CopyBuffer.cached (buf : CopyBuffer) : List Bytes :=
  if 0 < buf.cacheLength then [buf.buf.take buf.cacheLength] else []

/-- Calls that leave the writer with something to flush. -/
def Writes : MessageEvent → Prop
  | .write _ (.ready (.ok ())) => True
  | .ping (.ready (.ok written)) => written = true
  | _ => False

/-- Everything that was written was followed by a successful flush. -/
def Flushed : List MessageEvent → Prop
  | [] => True
  | call :: calls => (Writes call → .flush (.ready (.ok ())) ∈ calls) ∧ Flushed calls

/-- The reader has answered with nothing. -/
def EndSeen (calls : List MessageEvent) : Prop := ∃ room, .read room (.ready (.ok [])) ∈ calls

/-- The reader has answered with nothing, and every message before that was
accepted and flushed. -/
structure Drained (calls : List MessageEvent) : Prop where
  ended : EndSeen calls
  complete : accepted calls = produced calls
  flushed : Flushed calls

/-- The error a call was answered with. -/
def MessageEvent.failure? : MessageEvent → Option IoError
  | .read _ (.ready (.error e)) => some e
  | .write _ (.ready (.error e)) => some e
  | .flush (.ready (.error e)) => some e
  | .shutdown (.ready (.error e)) => some e
  | .ping (.ready (.error e)) => some e
  | _ => none

/-- Some call was answered with the error. -/
def Fails (calls : List MessageEvent) (e : IoError) : Prop :=
  ∃ call ∈ calls, call.failure? = some e

/-- A direction has passed its messages on. -/
structure Relayed (t : Transfer) (calls : List MessageEvent) : Prop where
  fifo : accepted calls ++ t.buf.cached = produced calls
  shutdowns : ∀ before answer, before ++ [.shutdown answer] <+: calls → Drained before

/-- The account of a direction, with what the flags of its buffer tell. -/
structure Carries (t : Transfer) (calls : List MessageEvent) : Prop extends Relayed t calls where
  allocated : t.buf.buf.length = 65535
  cached : t.buf.cacheLength ≤ 65535
  ended : t.buf.readDone = true → EndSeen calls
  flushed : t.buf.needFlush = false → Flushed calls
  copied : t.state ≠ .running → Drained calls
  counted : t.buf.readCount = (produced calls).flatten.length % 2 ^ 64

variable {calls : List MessageEvent} {call : MessageEvent} {t : Transfer} {buf : CopyBuffer}

section Calls

@[simp, grind =] theorem produced_concat :
    produced (calls ++ [call]) = produced calls ++ call.read?.toList := by
  rw [produced, List.filterMap_append]
  cases found : call.read? <;> simp [produced, found]

@[simp, grind =] theorem accepted_concat :
    accepted (calls ++ [call]) = accepted calls ++ call.written?.toList := by
  rw [accepted, List.filterMap_append]
  cases found : call.written? <;> simp [accepted, found]

theorem EndSeen.concat (h : EndSeen calls) : EndSeen (calls ++ [call]) := by
  obtain ⟨room, mem⟩ := h
  exact ⟨room, List.mem_append_left _ mem⟩

theorem Flushed.concat (h : Flushed calls) (quiet : ¬Writes call) : Flushed (calls ++ [call]) := by
  induction calls with
  | nil => exact ⟨fun writes => absurd writes quiet, trivial⟩
  | cons first rest ih =>
      exact ⟨fun writes => List.mem_append_left _ (h.1 writes), ih h.2⟩

theorem flushed_concat_flush : Flushed (calls ++ [.flush (.ready (.ok ()))]) := by
  induction calls with
  | nil => exact ⟨False.elim, trivial⟩
  | cons first rest ih => exact ⟨fun _ => List.mem_append_right _ (List.mem_singleton_self _), ih⟩

theorem Fails.of_last {e : IoError} (found : call.failure? = some e) : Fails (calls ++ [call]) e :=
  ⟨call, List.mem_append_right _ (List.mem_singleton_self _), found⟩

theorem view_concat {side side' : Side} {calls : List (Side × MessageEvent)} :
    view side (calls ++ [(side', call)]) =
      if direction side' call = side then view side calls ++ [call] else view side calls := by
  by_cases own : direction side' call = side
  · simp [view, own]
  · simp [view, own]

theorem shutdowns_concat (notShutdown : ∀ answer, call ≠ .shutdown answer)
    (earlier : ∀ before answer, before ++ [.shutdown answer] <+: calls → Drained before) :
    ∀ before answer, before ++ [.shutdown answer] <+: calls ++ [call] → Drained before := by
  intro before answer begins
  rcases List.prefix_concat_iff.mp begins with whole | shorter
  · have last : .shutdown answer = call := by
      simpa using congrArg List.getLast? whole
    exact absurd last.symm (notShutdown answer)
  · exact earlier before answer shorter

end Calls

/-- A call of `poll_copy`, by what it does to the buffer. -/
theorem Carries.concat {buf' : CopyBuffer} (h : Carries ⟨.running, buf⟩ calls)
    (allocated : buf'.buf.length = 65535) (cached : buf'.cacheLength ≤ 65535)
    (fifo : accepted calls ++ call.written?.toList ++ buf'.cached =
      produced calls ++ call.read?.toList)
    (notShutdown : ∀ answer, call ≠ .shutdown answer)
    (ended : buf'.readDone = true → EndSeen (calls ++ [call]))
    (flushed : buf'.needFlush = false → Flushed (calls ++ [call]))
    (counted : buf'.readCount = (buf.readCount + call.read?.toList.flatten.length) % 2 ^ 64) :
    Carries ⟨.running, buf'⟩ (calls ++ [call]) where
  fifo := by
    rw [accepted_concat, produced_concat]
    exact fifo
  shutdowns := shutdowns_concat notShutdown h.shutdowns
  allocated := allocated
  cached := cached
  ended := ended
  flushed := flushed
  copied running := absurd rfl running
  counted := by
    have before : buf.readCount = (produced calls).flatten.length % 2 ^ 64 := h.counted
    dsimp only
    rw [counted, before, produced_concat, List.flatten_append, List.length_append, Nat.mod_add_mod]

theorem Carries.count_lt (h : Carries t calls) : t.buf.readCount < 2 ^ 64 := by
  rw [h.counted]
  exact Nat.mod_lt _ (by decide)

/-- A call that moves no message, by the flags it leaves. -/
theorem Carries.aside {readDone needFlush needWritePing : Bool} (h : Carries ⟨.running, buf⟩ calls)
    (read : call.read? = none) (written : call.written? = none)
    (notShutdown : ∀ answer, call ≠ .shutdown answer)
    (ended : readDone = true → EndSeen (calls ++ [call]))
    (flushed : needFlush = false → Flushed (calls ++ [call])) :
    Carries ⟨.running, { buf with readDone, needFlush, needWritePing }⟩ (calls ++ [call]) := by
  refine h.concat h.allocated h.cached ?_ notShutdown ended flushed ?_
  · rw [read, written, Option.toList_none, List.append_nil, List.append_nil]
    exact h.fifo
  · rw [read]
    exact (Nat.mod_eq_of_lt h.count_lt).symm

/-- A call that was answered without effect. -/
theorem Carries.idle (h : Carries ⟨.running, buf⟩ calls) (read : call.read? = none)
    (written : call.written? = none) (quiet : ¬Writes call)
    (notShutdown : ∀ answer, call ≠ .shutdown answer) :
    Carries ⟨.running, buf⟩ (calls ++ [call]) :=
  h.aside read written notShutdown (fun done => (h.ended done).concat)
    fun settled => (h.flushed settled).concat quiet

/-- A stream that supports pings, at some time at least. -/
def Pings (stream : AsyncMessageStream (Traced ω)) : Prop := ∃ w, stream.supportsPing w = true

/-- The calls that a relay makes on a stream preserve a property of the world. -/
structure Closed (J : Traced ω → Prop) (stream : AsyncMessageStream (Traced ω)) : Prop where
  read : ∀ w, J w → J (stream.pollReadMessage 65535 w).2
  write : ∀ message w, message.length ≤ 65535 → J w → J (stream.pollWriteMessage message w).2
  flush : ∀ w, J w → J (stream.pollFlushMessage w).2
  shutdown : ∀ w, J w → J (stream.pollShutdownMessage w).2
  ping : Pings stream → ∀ w, J w → J (stream.pollWritePing w).2

/-- The account of a direction, the calls of the other one, and what holds of the
world. A ping is asked for only when the writer supports it. -/
structure Keeps (J : Traced ω → Prop) (side : Side) (others : List MessageEvent)
    (writer : AsyncMessageStream ω) (t : Transfer) (w : Traced ω) : Prop where
  carries : Carries t (view side w.calls)
  others : view side.other w.calls = others
  asks : t.buf.needWritePing = true → Pings (recorded writer side.other)
  holds : J w

section Directions

variable {J : Traced ω → Prop} {side : Side} {others : List MessageEvent}
  {safe : CopyBuffer × Traced ω → Prop} {reader writer : AsyncMessageStream ω}
  {w w' : Traced ω}

/-- A call of a direction shows in its view and not in the other one. -/
theorem Keeps.noted {α : Type} {on : Side} {event : α → MessageEvent} {x : α × ω}
    {answer : α} {t t' : Transfer} (keeps : Keeps J side others writer t w)
    (noted : Traced.note on event w.calls x = (answer, w'))
    (own : direction on (event answer) = side)
    (carries : Carries t' (view side w.calls ++ [event answer]))
    (asked : t'.buf.needWritePing = true → t.buf.needWritePing = true) (holds : J w') :
    Keeps J side others writer t' w' ∧
      view side w'.calls = view side w.calls ++ [event answer] := by
  obtain ⟨rfl, rfl⟩ := Prod.mk.inj noted
  have seen : view side (w.calls ++ [(on, event x.1)]) = view side w.calls ++ [event x.1] := by
    rw [view_concat, if_pos own]
  refine ⟨⟨seen ▸ carries, ?_, fun now => keeps.asks (asked now), holds⟩, seen⟩
  rw [view_concat, if_neg, keeps.others]
  rw [own]
  cases side <;> simp [Side.other]

/-- Errors come from calls. -/
def Explained {α : Type} (side : Side) (w : Traced ω) : IoResult α → Prop
  | .error e => Fails (view side w.calls) e
  | .ok _ => True

theorem read_keeps (closed : Closed J (recorded reader side))
    (keeps : Keeps J side others writer ⟨.running, buf⟩ w) :
    (CopyBuffer.read (recorded reader side)).Meets (buf, w) safe fun result s =>
      Keeps J side others writer ⟨.running, s.1⟩ s.2 ∧ Explained side s.2 result := by
  have h := keeps.carries
  by_cases more : !buf.readDone ∧ buf.cacheLength = 0
  · have holds : J ((recorded reader side).pollReadMessage buf.buf.length w).2 := by
      rw [show buf.buf.length = 65535 from h.allocated]
      exact closed.read w keeps.holds
    have empty : buf.cached = [] := if_neg (Nat.not_lt.mpr more.2.le)
    have fifo : accepted (view side w.calls) = produced (view side w.calls) := by
      have fifo := h.fifo
      rwa [empty, List.append_nil] at fifo
    rcases answered : (recorded reader side).pollReadMessage buf.buf.length w
      with ⟨_ | e | message, w'⟩
    · rw [answered] at holds
      refine .of_returned (a := .ok ⟨false, true⟩) (t := (buf, w'))
        (by simp only [CopyBuffer.read, if_pos more, answered]) ⟨?_, trivial⟩
      exact (keeps.noted answered rfl (h.idle rfl rfl id nofun) id holds).1
    · rw [answered] at holds
      obtain ⟨kept, seen⟩ := keeps.noted answered rfl (h.idle rfl rfl id nofun) id holds
      refine .of_returned (a := .error e) (t := (buf, w'))
        (by simp only [CopyBuffer.read, if_pos more, answered]) ⟨kept, ?_⟩
      rw [Explained, seen]
      exact .of_last rfl
    · rw [answered] at holds
      by_cases none_ : message = []
      · subst none_
        have carries : Carries ⟨.running, { buf with readDone := true }⟩
            (view side w.calls ++ [.read buf.buf.length (.ready (.ok []))]) :=
          h.aside rfl rfl nofun (fun _ => ⟨_, List.mem_append_right _ (List.mem_singleton_self _)⟩)
            fun settled => (h.flushed settled).concat id
        refine .of_returned (a := .ok ⟨false, false⟩) (t := ({ buf with readDone := true }, w'))
          (by simp only [CopyBuffer.read, if_pos more, answered, List.length_nil, if_pos])
          ⟨?_, trivial⟩
        exact (keeps.noted answered rfl carries id holds).1
      · have fits : message.length ≤ 65535 := by
          rw [← show buf.buf.length = 65535 from h.allocated]
          exact (recorded reader side).read_fits _ _ _ (congrArg Prod.fst answered)
        have some_ : message.length ≠ 0 := mt List.length_eq_zero_iff.mp none_
        have front : (Ring.overwrite buf.buf 0 message).take message.length = message := by
          have moved : (Ring.overwrite buf.buf 0 message).take (0 + message.length) =
              buf.buf.take 0 ++ message := Ring.take_overwrite (Nat.zero_le _)
          rwa [Nat.zero_add] at moved
        have carries : Carries
            ⟨.running, { buf with
              buf := Ring.overwrite buf.buf 0 message
              cacheLength := message.length
              readCount := (buf.readCount + message.length) % 2 ^ 64 }⟩
            (view side w.calls ++ [.read buf.buf.length (.ready (.ok message))]) := by
          refine h.concat ?_ fits ?_ nofun (fun done => (h.ended done).concat)
            (fun settled => (h.flushed settled).concat id) ?_
          · rw [Ring.length_overwrite (by rw [Nat.zero_add]; exact fits.trans h.allocated.ge)]
            exact h.allocated
          · rw [CopyBuffer.cached, if_pos (Nat.pos_of_ne_zero some_), front, fifo]
            simp [MessageEvent.written?, MessageEvent.read?, none_]
          · simp [MessageEvent.read?, none_]
        refine .of_returned (a := .ok ⟨true, false⟩) (t := (_, w'))
          (by simp only [CopyBuffer.read, if_pos more, answered, if_neg some_]; rfl) ⟨?_, trivial⟩
        exact (keeps.noted answered rfl carries id holds).1
  · exact .of_returned (if_neg more) ⟨keeps, trivial⟩

theorem write_keeps (closed : Closed J (recorded writer side.other))
    (keeps : Keeps J side others writer ⟨.running, buf⟩ w) :
    (CopyBuffer.write (recorded writer side.other)).Meets (buf, w) safe fun result s =>
      Keeps J side others writer ⟨.running, s.1⟩ s.2 ∧ Explained side s.2 result := by
  have h := keeps.carries
  by_cases more : 0 < buf.cacheLength
  · have cached : buf.cacheLength ≤ buf.buf.length := h.cached.trans h.allocated.ge
    have slice : buf.buf.slice 0 buf.cacheLength = some (buf.buf.take buf.cacheLength) :=
      List.slice_zero cached
    have length : (buf.buf.take buf.cacheLength).length ≤ 65535 := by
      rw [List.length_take_of_le cached]
      exact h.cached
    have holds := closed.write _ w length keeps.holds
    rcases answered : (recorded writer side.other).pollWriteMessage
      (buf.buf.take buf.cacheLength) w with ⟨_ | e | _, w'⟩
    · rw [answered] at holds
      refine .of_returned (a := .ok ⟨false, true⟩) (t := (buf, w'))
        (by simp only [CopyBuffer.write, if_pos more, slice, answered]) ⟨?_, trivial⟩
      exact (keeps.noted answered (Relay.other_other side) (h.idle rfl rfl id nofun) id holds).1
    · rw [answered] at holds
      obtain ⟨kept, seen⟩ :=
        keeps.noted answered (Relay.other_other side) (h.idle rfl rfl id nofun) id holds
      refine .of_returned (a := .error e) (t := (buf, w'))
        (by simp only [CopyBuffer.write, if_pos more, slice, answered]) ⟨kept, ?_⟩
      rw [Explained, seen]
      exact .of_last rfl
    · rw [answered] at holds
      have carries : Carries
          ⟨.running, { buf with cacheLength := 0, needFlush := true, needWritePing := false }⟩
          (view side w.calls ++ [.write (buf.buf.take buf.cacheLength) (.ready (.ok ()))]) := by
        refine h.concat h.allocated (Nat.zero_le _) ?_ nofun (fun done => (h.ended done).concat)
          nofun (Nat.mod_eq_of_lt h.count_lt).symm
        have fifo := h.fifo
        dsimp only at fifo
        rw [CopyBuffer.cached, if_pos more] at fifo
        rw [← fifo]
        simp [CopyBuffer.cached, MessageEvent.written?, MessageEvent.read?]
      refine .of_returned (a := .ok ⟨true, false⟩) (t := (_, w'))
        (by simp only [CopyBuffer.write, if_pos more, slice, answered]; rfl) ⟨?_, trivial⟩
      exact (keeps.noted answered (Relay.other_other side) carries nofun holds).1
  · exact .of_returned (if_neg more) ⟨keeps, trivial⟩

theorem ping_keeps (closed : Closed J (recorded writer side.other)) (writePending : Bool)
    (keeps : Keeps J side others writer ⟨.running, buf⟩ w) :
    (CopyBuffer.ping (recorded writer side.other) writePending).Meets (buf, w) safe
      fun result s => Keeps J side others writer ⟨.running, s.1⟩ s.2 ∧
        Explained side s.2 result := by
  have h := keeps.carries
  by_cases asked : !writePending ∧ buf.needWritePing
  · have holds := closed.ping (keeps.asks asked.2) w keeps.holds
    rcases answered : (recorded writer side.other).pollWritePing w with ⟨_ | e | written, w'⟩
    · rw [answered] at holds
      refine .of_returned (a := .ok true) (t := (buf, w'))
        (by simp only [CopyBuffer.ping, if_pos asked, answered]) ⟨?_, trivial⟩
      exact (keeps.noted answered (Relay.other_other side) (h.idle rfl rfl id nofun) id holds).1
    · rw [answered] at holds
      obtain ⟨kept, seen⟩ :=
        keeps.noted answered (Relay.other_other side) (h.idle rfl rfl id nofun) id holds
      refine .of_returned (a := .error e) (t := (buf, w'))
        (by simp only [CopyBuffer.ping, if_pos asked, answered]) ⟨kept, ?_⟩
      rw [Explained, seen]
      exact .of_last rfl
    · rw [answered] at holds
      have carries : Carries
          ⟨.running, { buf with needWritePing := false, needFlush := buf.needFlush || written }⟩
          (view side w.calls ++ [.ping (.ready (.ok written))]) := by
        refine h.aside rfl rfl nofun (fun done => (h.ended done).concat) fun settled => ?_
        obtain ⟨before, silent⟩ : buf.needFlush = false ∧ written = false := by
          simpa using settled
        exact (h.flushed before).concat (by simp [Writes, silent])
      refine .of_returned (a := .ok writePending)
        (t := ({ buf with needWritePing := false, needFlush := buf.needFlush || written }, w'))
        ?_ ⟨?_, trivial⟩
      · simp only [CopyBuffer.ping, if_pos asked, answered]
        cases written <;> simp
      · exact (keeps.noted answered (Relay.other_other side) carries nofun holds).1
  · exact .of_returned (if_neg asked) ⟨keeps, trivial⟩

/-- What `poll_copy` has come to when it answers. -/
def AfterCopy (J : Traced ω → Prop) (side : Side) (others : List MessageEvent)
    (writer : AsyncMessageStream ω) (answer : Poll (IoResult Unit))
    (s : CopyBuffer × Traced ω) : Prop :=
  Keeps J side others writer ⟨.running, s.1⟩ s.2 ∧
    match answer with
    | .pending => True
    | .ready (.ok ()) => Drained (view side s.2.calls)
    | .ready (.error e) => Fails (view side s.2.calls) e

theorem settle_keeps (closed : Closed J (recorded writer side.other))
    (readPending writePending : Bool) (keeps : Keeps J side others writer ⟨.running, buf⟩ w) :
    (CopyBuffer.settle (recorded writer side.other) readPending writePending).Meets (buf, w)
      safe fun
      | some answer => AfterCopy J side others writer answer
      | none => fun s => Keeps J side others writer ⟨.running, s.1⟩ s.2 := by
  have h := keeps.carries
  by_cases unflushed : buf.needFlush
  · have holds := closed.flush w keeps.holds
    rcases answered : (recorded writer side.other).pollFlushMessage w with ⟨_ | e | _, w'⟩
    · rw [answered] at holds
      refine .of_returned (a := some .pending) (t := (buf, w'))
        (by simp only [CopyBuffer.settle, if_pos unflushed, answered]) ⟨?_, trivial⟩
      exact (keeps.noted answered (Relay.other_other side) (h.idle rfl rfl id nofun) id holds).1
    · rw [answered] at holds
      obtain ⟨kept, seen⟩ :=
        keeps.noted answered (Relay.other_other side) (h.idle rfl rfl id nofun) id holds
      refine .of_returned (a := some (.ready (.error e))) (t := (buf, w'))
        (by simp only [CopyBuffer.settle, if_pos unflushed, answered]) ⟨kept, ?_⟩
      dsimp only
      rw [seen]
      exact .of_last rfl
    · rw [answered] at holds
      have carries : Carries ⟨.running, { buf with needFlush := false }⟩
          (view side w.calls ++ [.flush (.ready (.ok ()))]) :=
        h.aside rfl rfl nofun (fun done => (h.ended done).concat) fun _ => flushed_concat_flush
      refine .of_returned (a := none) (t := ({ buf with needFlush := false }, w'))
        (by simp only [CopyBuffer.settle, if_pos unflushed, answered]) ?_
      exact (keeps.noted answered (Relay.other_other side) carries id holds).1
  · have settled : buf.needFlush = false := Bool.eq_false_iff.mpr unflushed
    by_cases finished : buf.readDone ∧ buf.cacheLength = 0
    · refine .of_returned (a := some (.ready (.ok ()))) (t := (buf, w))
        (by simp only [CopyBuffer.settle, if_neg unflushed, if_pos finished]) ⟨keeps, ?_⟩
      refine ⟨h.ended finished.1, ?_, h.flushed settled⟩
      have fifo := h.fifo
      have empty : buf.cached = [] := if_neg (Nat.not_lt.mpr finished.2.le)
      dsimp only at fifo
      rwa [empty, List.append_nil] at fifo
    · by_cases waits : (readPending || writePending) = true
      · exact .of_returned (a := some .pending) (t := (buf, w))
          (by simp only [CopyBuffer.settle, if_neg unflushed, if_neg finished, if_pos waits])
          ⟨keeps, trivial⟩
      · exact .of_returned (a := none) (t := (buf, w))
          (by simp only [CopyBuffer.settle, if_neg unflushed, if_neg finished, if_neg waits]) keeps

theorem copyTurn_keeps (closedR : Closed J (recorded reader side))
    (closedW : Closed J (recorded writer side.other))
    (keeps : Keeps J side others writer ⟨.running, buf⟩ w) :
    (CopyBuffer.copyTurn (recorded reader side) (recorded writer side.other)).Meets
      (buf, w) safe fun
      | some answer => AfterCopy J side others writer answer
      | none => fun s => Keeps J side others writer ⟨.running, s.1⟩ s.2 := by
  refine (read_keeps closedR keeps).bind fun result s read => ?_
  rcases result with e | ⟨didRead, readPending⟩
  · exact Exec.meets_pure read
  refine (write_keeps closedW read.1).bind fun result s written => ?_
  rcases result with e | ⟨didWrite, writePending⟩
  · exact Exec.meets_pure written
  refine (ping_keeps closedW writePending written.1).bind fun result s pinged => ?_
  rcases result with e | writePending
  · exact Exec.meets_pure pinged
  by_cases again : (didRead && didWrite && !readPending && !writePending) = true
  · dsimp only
    rw [if_pos again]
    exact Exec.meets_pure pinged.1
  · dsimp only
    rw [if_neg again]
    exact settle_keeps closedW readPending writePending pinged.1

/-- The context leaves a property of the world as it is. -/
structure ClosedContext (J : Traced ω → Prop) (cx : Context (Traced ω)) : Prop where
  proceed : ∀ w, J w → J (cx.pollProceed w).2
  sleep : ∀ w, J w → J (cx.pollSleep w).2
  reset : ∀ w, J w → J (cx.resetSleep w)

variable {cx : TimedContext ω}

/-- What the runtime does to the world is not a call. -/
theorem Keeps.of_calls {t : Transfer} (keeps : Keeps J side others writer t w)
    (same : w'.calls = w.calls) (holds : J w') : Keeps J side others writer t w' :=
  ⟨same ▸ keeps.carries, same ▸ keeps.others, keeps.asks, holds⟩

theorem pollCopy_keeps (closedR : Closed J (recorded reader side))
    (closedW : Closed J (recorded writer side.other))
    (closedC : ClosedContext J (recordedContext cx).toContext)
    (keeps : Keeps J side others writer ⟨.running, buf⟩ w) (fuel : Nat) :
    (CopyBuffer.pollCopy fuel (recordedContext cx).toContext (recorded reader side)
      (recorded writer side.other)).Meets (buf, w)
      (fun s => Keeps J side others writer ⟨.running, s.1⟩ s.2)
      (AfterCopy J side others writer) := by
  have holds := closedC.proceed w keeps.holds
  rcases answered : (recordedContext cx).pollProceed w with ⟨_ | _, w'⟩
  · rw [answered] at holds
    have same : w'.calls = w.calls := by
      obtain ⟨-, rfl⟩ := Prod.mk.inj answered
      rfl
    exact .of_returned (a := .pending) (t := (buf, w'))
      (by simp only [CopyBuffer.pollCopy, answered]) ⟨keeps.of_calls same holds, trivial⟩
  · rw [answered] at holds
    have same : w'.calls = w.calls := by
      obtain ⟨-, rfl⟩ := Prod.mk.inj answered
      rfl
    have loops : (Exec.loop (CopyBuffer.copyTurn (recorded reader side)
        (recorded writer side.other)) fuel).Meets (buf, w')
        (fun s => Keeps J side others writer ⟨.running, s.1⟩ s.2)
        (AfterCopy J side others writer) := by
      refine Exec.Meets.loop
        (fun s : CopyBuffer × Traced ω => Keeps J side others writer ⟨.running, s.1⟩ s.2) ?_
        (fun _ h => h) (keeps.of_calls same holds) fuel
      intro s kept
      refine (copyTurn_keeps closedR closedW kept).mono (fun _ h => h) fun ended _ does => ?_
      cases ended with
      | none => exact does
      | some answer => exact does
    simpa only [Exec.Meets, CopyBuffer.pollCopy, answered] using loops

/-- What a direction has come to when it answers. -/
def AfterTransfer (J : Traced ω → Prop) (side : Side) (others : List MessageEvent)
    (writer : AsyncMessageStream ω) (answer : Poll (IoResult Unit))
    (s : Transfer × Traced ω) : Prop :=
  Keeps J side others writer s.1 s.2 ∧
    match answer with
    | .pending => True
    | .ready (.ok ()) => Drained (view side s.2.calls)
    | .ready (.error e) => Fails (view side s.2.calls) e

theorem Drained.shutdown {answer : Poll (IoResult Unit)} (h : Drained calls) :
    Drained (calls ++ [.shutdown answer]) where
  ended := h.ended.concat
  complete := by
    rw [accepted_concat, produced_concat]
    simpa [MessageEvent.written?, MessageEvent.read?] using h.complete
  flushed := h.flushed.concat id

/-- A direction that is past copying. -/
theorem Carries.past {state : TransferState} (h : Carries ⟨.running, buf⟩ calls)
    (drained : Drained calls) : Carries ⟨state, buf⟩ calls :=
  ⟨⟨h.fifo, h.shutdowns⟩, h.allocated, h.cached, h.ended, h.flushed, fun _ => drained, h.counted⟩

/-- Shutting the writer down after everything was passed on. -/
theorem Carries.shutdown {state : TransferState} {answer : Poll (IoResult Unit)}
    (h : Carries ⟨.shuttingDown, buf⟩ calls) :
    Carries ⟨state, buf⟩ (calls ++ [.shutdown answer]) := by
  have drained : Drained calls := h.copied nofun
  refine ⟨⟨?_, ?_⟩, h.allocated, h.cached, fun done => (h.ended done).concat,
    fun settled => (h.flushed settled).concat id, fun _ => drained.shutdown, ?_⟩
  · rw [accepted_concat, produced_concat]
    simpa [MessageEvent.written?, MessageEvent.read?] using h.fifo
  · intro before answer begins
    rcases List.prefix_concat_iff.mp begins with whole | earlier
    · obtain rfl : before = calls := by
        simpa using congrArg List.dropLast whole
      exact drained
    · exact h.shutdowns before answer earlier
  · rw [produced_concat]
    simpa [MessageEvent.read?] using h.counted

theorem transferTurn_keeps (closedR : Closed J (recorded reader side))
    (closedW : Closed J (recorded writer side.other))
    (closedC : ClosedContext J (recordedContext cx).toContext)
    (keeps : Keeps J side others writer t w) (fuel : Nat) :
    (transferTurn fuel (recordedContext cx).toContext (recorded reader side)
      (recorded writer side.other)).Meets (t, w) (fun s => Keeps J side others writer s.1 s.2) fun
      | some answer => AfterTransfer J side others writer answer
      | none => fun s => Keeps J side others writer s.1 s.2 := by
  obtain ⟨state, buf⟩ := t
  cases state with
  | running =>
      have copied := pollCopy_keeps closedR closedW closedC keeps fuel
      unfold Exec.Meets at copied ⊢
      rw [transferTurn]
      dsimp only
      rcases ran : CopyBuffer.pollCopy fuel (recordedContext cx).toContext
        (recorded reader side) (recorded writer side.other) (buf, w)
        with ⟨(_ | e | _) | _ | _, buf', w'⟩
      · rw [ran] at copied
        exact copied
      · rw [ran] at copied
        exact copied
      · rw [ran] at copied
        exact ⟨copied.1.carries.past copied.2, copied.1.others, copied.1.asks, copied.1.holds⟩
      · rw [ran] at copied
        exact copied
      · rw [ran] at copied
        exact copied
  | shuttingDown =>
      have h := keeps.carries
      have holds := closedW.shutdown w keeps.holds
      rcases answered : (recorded writer side.other).pollShutdownMessage w with ⟨_ | e | _, w'⟩
      · rw [answered] at holds
        refine .of_returned (a := some .pending) (t := (⟨.shuttingDown, buf⟩, w'))
          (by simp only [transferTurn, answered]) ⟨?_, trivial⟩
        exact (keeps.noted answered (Relay.other_other side) h.shutdown id holds).1
      · rw [answered] at holds
        obtain ⟨kept, seen⟩ := keeps.noted answered (Relay.other_other side) h.shutdown id holds
        refine .of_returned (a := some (.ready (.error e))) (t := (⟨.shuttingDown, buf⟩, w'))
          (by simp only [transferTurn, answered]) ⟨kept, ?_⟩
        dsimp only
        rw [seen]
        exact .of_last rfl
      · rw [answered] at holds
        have carries : Carries ⟨.done, buf⟩ (view side w.calls ++ [.shutdown (.ready (.ok ()))]) :=
          h.shutdown
        refine .of_returned (a := none) (t := (⟨.done, buf⟩, w'))
          (by simp only [transferTurn, answered]) ?_
        exact (keeps.noted answered (Relay.other_other side) carries id holds).1
  | done => exact .of_returned (a := some (.ready (.ok ()))) rfl ⟨keeps, keeps.carries.copied nofun⟩

theorem transferOneDirection_keeps (closedR : Closed J (recorded reader side))
    (closedW : Closed J (recorded writer side.other))
    (closedC : ClosedContext J (recordedContext cx).toContext)
    (keeps : Keeps J side others writer t w) (fuel : Nat) :
    (transferOneDirection fuel (recordedContext cx).toContext (recorded reader side)
      (recorded writer side.other)).Meets (t, w) (fun s => Keeps J side others writer s.1 s.2)
      (AfterTransfer J side others writer) := by
  refine Exec.Meets.loop (fun s : Transfer × Traced ω => Keeps J side others writer s.1 s.2) ?_
    (fun _ h => h) keeps fuel
  intro s kept
  refine (transferTurn_keeps closedR closedW closedC kept fuel).mono (fun _ h => h)
    fun ended _ does => ?_
  cases ended with
  | none => exact does
  | some answer => exact does

end Directions

namespace CopyBidirectional

/-- The direction that reads from a side. -/
def transfer (me : CopyBidirectional) : Side → Transfer
  | .a => me.aToB
  | .b => me.bToA

/-- The stream on a side. -/
def on (a b : AsyncMessageStream ω) : Side → AsyncMessageStream ω
  | .a => a
  | .b => b

/-- Both directions pass on what they read. -/
structure Accounts (J : Traced ω → Prop) (a b : AsyncMessageStream ω) (s : Relaying (Traced ω)) :
    Prop where
  carries : ∀ side, Carries (s.1.transfer side) (view side s.2.calls)
  asks : ∀ side, (s.1.transfer side).buf.needWritePing = true →
    Pings (recorded (on a b side.other) side.other)
  holds : J s.2

/-- The number of bytes that the directions have read, as they count them. -/
def counts (me : CopyBidirectional) (side : Side) : Nat := (me.transfer side).buf.readCount

/-- Why a relay is ready: a direction is through, or a call has failed, or
nothing was read in this poll and for long enough before it. -/
inductive Ends (cx : TimedContext ω) (before : CopyBidirectional) (after : Relaying (Traced ω)) :
    IoResult Unit → Prop
  | drained (side : Side) (drained : Drained (view side after.2.calls)) :
      Ends cx before after (.ok ())
  | failed (side : Side) {e : IoError} (fails : Fails (view side after.2.calls) e) :
      Ends cx before after (.error e)
  | timedOut (same : ∀ side, after.1.counts side = before.counts side)
      (long : ASSOCIATION_TIMEOUT ≤ cx.now after.2.world - before.lastActive) :
      Ends cx before after (.ok ())

/-- What a poll has come to when it answers. The relay was active now if
something was read, and otherwise when it was before. -/
structure AfterPoll (J : Traced ω → Prop) (a b : AsyncMessageStream ω) (cx : TimedContext ω)
    (before : CopyBidirectional) (answer : Poll (IoResult Unit)) (s : Relaying (Traced ω)) :
    Prop where
  accounts : Accounts J a b s
  ends : ∀ result, answer = .ready result → Ends cx before s result
  active : s.1.lastActive = cx.now s.2.world ∨
    s.1.lastActive = before.lastActive ∧ ∀ side, s.1.counts side = before.counts side

section Polls

variable {J : Traced ω → Prop} {cx : TimedContext ω} {a b : AsyncMessageStream ω}
  {me : CopyBidirectional} {w : Traced ω}

/-- Asking for a ping changes nothing that is accounted for. -/
theorem Carries.askPing {t : Transfer} {calls : List MessageEvent} {asked : Bool}
    (h : Carries t calls) :
    Carries { t with buf := { t.buf with needWritePing := asked } } calls :=
  ⟨⟨h.fifo, h.shutdowns⟩, h.allocated, h.cached, h.ended, h.flushed, h.copied, h.counted⟩

theorem pollSleep_keeps {safe : Relaying (Traced ω) → Prop}
    (closedC : ClosedContext J (recordedContext cx).toContext) (accounts : Accounts J a b (me, w)) :
    (pollSleep (recordedContext cx).toContext (recorded a .a) (recorded b .b)).Meets
      (me, w) safe fun _ s => Accounts J a b s ∧ s.1.lastActive = me.lastActive ∧
        ∀ side, s.1.counts side = me.counts side := by
  have holds := closedC.sleep w accounts.holds
  rcases answered : (recordedContext cx).pollSleep w with ⟨_ | _, w'⟩
  · rw [answered] at holds
    have same : w'.calls = w.calls := by
      obtain ⟨-, rfl⟩ := Prod.mk.inj answered
      rfl
    refine .of_returned (a := ()) (t := (me, w')) (by simp only [pollSleep, answered]) ?_
    exact ⟨⟨fun side => same ▸ accounts.carries side, accounts.asks, holds⟩, rfl, fun _ => rfl⟩
  · rw [answered] at holds
    have same : w'.calls = w.calls := by
      obtain ⟨-, rfl⟩ := Prod.mk.inj answered
      rfl
    have reset := closedC.reset w' holds
    have ran : pollSleep (recordedContext cx).toContext (recorded a .a)
        (recorded b .b) (me, w) = (.returned (),
          { me with
            aToB := { me.aToB with buf := { me.aToB.buf with
              needWritePing := (recorded b .b).supportsPing w' } }
            bToA := { me.bToA with buf := { me.bToA.buf with
              needWritePing := (recorded a .a).supportsPing w' } } },
          (recordedContext cx).resetSleep w') := by
      simp only [pollSleep, answered]
    refine .of_returned ran ⟨⟨fun side => ?_, fun side asked => ?_, reset⟩, rfl, fun side => ?_⟩
    · show Carries _ (view side w'.calls)
      rw [same]
      cases side with
      | a => exact Carries.askPing (accounts.carries .a)
      | b => exact Carries.askPing (accounts.carries .b)
    · cases side with
      | a => exact ⟨w', asked⟩
      | b => exact ⟨w', asked⟩
    · cases side with
      | a => rfl
      | b => rfl

/-- What the answer of a direction tells about its calls. -/
def Answers (side : Side) (w : Traced ω) : Poll (IoResult Unit) → Prop
  | .pending => True
  | .ready (.ok ()) => Drained (view side w.calls)
  | .ready (.error e) => Fails (view side w.calls) e

theorem Answers.ends {side : Side} {before : CopyBidirectional} {s : Relaying (Traced ω)}
    {result : IoResult Unit} (answers : Answers side s.2 (.ready result)) :
    Ends cx before s result := by
  rcases result with e | _
  · exact .failed side answers
  · exact .drained side answers

/-- A poll of the direction from `a` to `b`. -/
theorem aToB_keeps (closedA : Closed J (recorded a .a))
    (closedB : Closed J (recorded b .b))
    (closedC : ClosedContext J (recordedContext cx).toContext) (accounts : Accounts J a b (me, w))
    (fuel : Nat) :
    (Exec.zoom (fun s : Relaying (Traced ω) => (s.1.aToB, s.2))
      (fun t s => ({ s.1 with aToB := t.1 }, t.2))
      (transferOneDirection fuel (recordedContext cx).toContext (recorded a .a)
        (recorded b .b))).Meets (me, w) (Accounts J a b) fun answer s =>
      Accounts J a b s ∧ s.1.lastActive = me.lastActive ∧ s.1.counts .b = me.counts .b ∧
        view .b s.2.calls = view .b w.calls ∧ Answers .a s.2 answer := by
  have keeps : Keeps J .a (view .b w.calls) b me.aToB w :=
    ⟨accounts.carries .a, rfl, accounts.asks .a, accounts.holds⟩
  have both {t : Transfer} {w' : Traced ω} (kept : Keeps J .a (view .b w.calls) b t w') :
      Accounts J a b ({ me with aToB := t }, w') := by
    refine ⟨fun side => ?_, fun side => ?_, kept.holds⟩
    · cases side with
      | a => exact kept.carries
      | b =>
          have others : view .b w'.calls = view .b w.calls := kept.others
          show Carries me.bToA (view .b w'.calls)
          rw [others]
          exact accounts.carries .b
    · cases side with
      | a => exact kept.asks
      | b => exact accounts.asks .b
  refine .zoom ((transferOneDirection_keeps closedA closedB closedC keeps fuel).mono
    (fun s kept => both kept) fun answer s after => ?_)
  refine ⟨both after.1, rfl, rfl, after.1.others, ?_⟩
  rcases answer with _ | e | _
  · trivial
  · exact after.2
  · exact after.2

/-- A poll of the direction from `b` to `a`. -/
theorem bToA_keeps (closedA : Closed J (recorded a .a))
    (closedB : Closed J (recorded b .b))
    (closedC : ClosedContext J (recordedContext cx).toContext) (accounts : Accounts J a b (me, w))
    (fuel : Nat) :
    (Exec.zoom (fun s : Relaying (Traced ω) => (s.1.bToA, s.2))
      (fun t s => ({ s.1 with bToA := t.1 }, t.2))
      (transferOneDirection fuel (recordedContext cx).toContext (recorded b .b)
        (recorded a .a))).Meets (me, w) (Accounts J a b) fun answer s =>
      Accounts J a b s ∧ s.1.lastActive = me.lastActive ∧ s.1.counts .a = me.counts .a ∧
        view .a s.2.calls = view .a w.calls ∧ Answers .b s.2 answer := by
  have keeps : Keeps J .b (view .a w.calls) a me.bToA w :=
    ⟨accounts.carries .b, rfl, accounts.asks .b, accounts.holds⟩
  have both {t : Transfer} {w' : Traced ω} (kept : Keeps J .b (view .a w.calls) a t w') :
      Accounts J a b ({ me with bToA := t }, w') := by
    refine ⟨fun side => ?_, fun side => ?_, kept.holds⟩
    · cases side with
      | a =>
          have others : view .a w'.calls = view .a w.calls := kept.others
          show Carries me.aToB (view .a w'.calls)
          rw [others]
          exact accounts.carries .a
      | b => exact kept.carries
    · cases side with
      | a => exact accounts.asks .a
      | b => exact kept.asks
  refine .zoom ((transferOneDirection_keeps closedB closedA closedC keeps fuel).mono
    (fun s kept => both kept) fun answer s after => ?_)
  refine ⟨both after.1, rfl, rfl, after.1.others, ?_⟩
  rcases answer with _ | e | _
  · trivial
  · exact after.2
  · exact after.2

/-- The end of a poll. -/
theorem conclude_keeps {safe : Relaying (Traced ω) → Prop} {before : CopyBidirectional}
    {aToB bToA : Poll (IoResult Unit)} (accounts : Accounts J a b (me, w))
    (active : me.lastActive = before.lastActive) (aAnswers : Answers .a w aToB)
    (bAnswers : Answers .b w bToA) :
    (conclude (recordedContext cx) (before.counts .a) (before.counts .b) aToB bToA).Meets (me, w)
      safe (AfterPoll J a b cx before) := by
  have ends {s : Relaying (Traced ω)} (same : s.2 = w) (result : IoResult Unit)
      (ready : combine aToB bToA = .ready result) : Ends cx before s result := by
    subst same
    cases aToB with
    | pending =>
        obtain rfl : bToA = .ready result := ready
        exact Answers.ends bAnswers
    | ready value =>
        obtain rfl := Poll.ready.inj ready
        exact Answers.ends aAnswers
  by_cases moved : me.aToB.buf.readCount ≠ before.counts .a ∨
      me.bToA.buf.readCount ≠ before.counts .b
  · refine .of_returned (if_pos moved)
      ⟨⟨fun side => ?_, fun side => ?_, accounts.holds⟩, ends rfl, .inl rfl⟩
    · cases side with
      | a => exact accounts.carries .a
      | b => exact accounts.carries .b
    · cases side with
      | a => exact accounts.asks .a
      | b => exact accounts.asks .b
  · have same (side : Side) : me.counts side = before.counts side := by
      rw [not_or, not_not, not_not] at moved
      cases side with
      | a => exact moved.1
      | b => exact moved.2
    by_cases long : ASSOCIATION_TIMEOUT ≤ (recordedContext cx).now w - me.lastActive
    · refine .of_returned ((if_neg moved).trans (if_pos long)) ⟨accounts, ?_, .inr ⟨active, same⟩⟩
      intro result ready
      obtain rfl := Poll.ready.inj ready
      exact .timedOut same (active ▸ long)
    · exact .of_returned ((if_neg moved).trans (if_neg long))
        ⟨accounts, ends rfl, .inr ⟨active, same⟩⟩

theorem poll_keeps (closedA : Closed J (recorded a .a))
    (closedB : Closed J (recorded b .b))
    (closedC : ClosedContext J (recordedContext cx).toContext) (accounts : Accounts J a b (me, w))
    (fuel : Nat) :
    (poll fuel (recordedContext cx) (recorded a .a) (recorded b .b)).Meets (me, w)
      (Accounts J a b) (AfterPoll J a b cx me) := by
  refine (pollSleep_keeps closedC accounts).bind fun _ s slept => ?_
  obtain ⟨kept, active, counts⟩ := slept
  have aCount : s.1.aToB.buf.readCount = me.counts .a := counts .a
  have bCount : s.1.bToA.buf.readCount = me.counts .b := counts .b
  unfold Exec.Meets
  dsimp only
  rw [aCount, bCount]
  refine (aToB_keeps closedA closedB closedC kept fuel).bind fun aToB s first => ?_
  obtain ⟨kept, active', -, -, aAnswers⟩ := first
  refine (bToA_keeps closedA closedB closedC kept fuel).bind fun bToA t second => ?_
  obtain ⟨kept, active'', -, unseen, bAnswers⟩ := second
  refine conclude_keeps kept (active''.trans (active'.trans active)) ?_ bAnswers
  rcases aToB with _ | e | _
  · trivial
  · rw [Answers, unseen]
    exact aAnswers
  · rw [Answers, unseen]
    exact aAnswers

/-- What happens between the polls is not a call of the relay. -/
def Turn.recorded (turn : Turn ω) : Turn (Traced ω) where
  meanwhile w := ⟨turn.meanwhile w.world, w.calls⟩
  fuel := turn.fuel

theorem accounts_start (memory : Side → Nat → UInt8) (world : ω) (now : Nat)
    (aInitialFlush bInitialFlush : Bool) (holds : J ⟨world, []⟩) :
    Accounts J a b
      (copyBidirectionalMessage memory now aInitialFlush bInitialFlush, ⟨world, []⟩) := by
  have fresh {memory : Nat → UInt8} {needFlush : Bool} :
      Carries ⟨.running, .new memory needFlush⟩ [] := by
    refine ⟨⟨rfl, ?_⟩, ?_, Nat.zero_le _, ?_, fun _ => trivial, fun past => absurd rfl past, rfl⟩
    · intro before answer begins
      exact absurd (List.prefix_nil.mp begins) (List.concat_ne_nil _ _)
    · simp [CopyBuffer.new, allocateVec]
    · intro done
      cases done
  refine ⟨fun side => ?_, fun side => ?_, holds⟩
  · cases side with
    | a => exact fresh
    | b => exact fresh
  · cases side with
    | a =>
        intro asked
        cases asked
    | b =>
        intro asked
        cases asked

/-- The account holds at every moment of every run of polls. -/
theorem pollAll_keeps {s : Relaying (Traced ω)} (closedA : Closed J (recorded a .a))
    (closedB : Closed J (recorded b .b))
    (closedC : ClosedContext J (recordedContext cx).toContext) (turns : List (Turn ω))
    (meanwhile : ∀ turn ∈ turns, ∀ w, J w → J (turn.recorded.meanwhile w))
    (accounts : Accounts J a b s) :
    (pollAll (recordedContext cx) (recorded a .a) (recorded b .b)
      (turns.map Turn.recorded)).Meets s (Accounts J a b) fun _ => Accounts J a b := by
  induction turns generalizing s with
  | nil => exact Exec.meets_pure accounts
  | cons turn turns ih =>
      have slept : Accounts J a b (s.1, turn.recorded.meanwhile s.2) :=
        ⟨accounts.carries, accounts.asks, meanwhile turn List.mem_cons_self _ accounts.holds⟩
      refine Exec.Meets.bind (M := fun _ => Accounts J a b) (.of_returned rfl slept)
        fun _ t before => ?_
      obtain ⟨me, w⟩ := t
      refine (poll_keeps closedA closedB closedC before turn.fuel).bind fun answer u after => ?_
      cases answer with
      | pending =>
          exact ih (fun turn mem => meanwhile turn (List.mem_cons_of_mem _ mem)) after.accounts
      | ready => exact Exec.meets_pure after.accounts

/-- The relay passes messages on whole and in order, in each direction and at
every moment of every run, and shuts a writer down only when everything read was
accepted and flushed. -/
theorem messages_relayed (cx : TimedContext ω) (a b : AsyncMessageStream ω)
    (memory : Side → Nat → UInt8) (world : ω) (aInitialFlush bInitialFlush : Bool)
    (turns : List (Turn ω)) :
    let after := pollAll (recordedContext cx) (recorded a .a) (recorded b .b)
      (turns.map Turn.recorded)
      (copyBidirectionalMessage memory (cx.now world) aInitialFlush bInitialFlush, ⟨world, []⟩)
    after.1 ≠ .panicked ∧
      ∀ side, Relayed (after.2.1.transfer side) (view side after.2.2.calls) := by
  have start := accounts_start (J := fun _ => True) (a := a) (b := b) memory world
    (cx.now world) aInitialFlush bInitialFlush trivial
  have closed {stream : AsyncMessageStream (Traced ω)} : Closed (fun _ => True) stream :=
    ⟨fun _ _ => trivial, fun _ _ _ _ => trivial, fun _ _ => trivial, fun _ _ => trivial,
      fun _ _ _ => trivial⟩
  obtain ⟨fine, accounts⟩ := (pollAll_keeps closed closed
    ⟨fun _ _ => trivial, fun _ _ => trivial, fun _ _ => trivial⟩ turns
    (fun _ _ _ _ => trivial) start).always
  exact ⟨fine, fun side => (accounts.carries side).toRelayed⟩

end Polls

end CopyBidirectional

end RustProxy.UdpRelay
