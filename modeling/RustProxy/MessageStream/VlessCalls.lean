import RustProxy.MessageStream.PacketCalls
import RustProxy.MessageStream.VlessReader

/-!
# Calls on a length-prefixed stream

Reads, writes, flushes and shutdowns in any order on one stream, over any stream
underneath. The bytes received are the messages that were returned and what the
read buffer holds; the bytes accepted and those that are pending are the messages
that were taken. When the stream underneath has ended, what the read buffer holds
tells whether it ended inside a message, and the read that found out said so.

The accounts hold at every moment of every call. Every call returns: a turn of a
loop that goes on has received or sent some bytes.
-/

namespace RustProxy.MessageStream.VlessMessageStream

open Prefixed
open Relay (produced accepted bytesRead bytesWritten EofSeen)

variable {ω : Type}

/-- The message that an answer returned. The end of the stream is not one. -/
def Answer.returned? : Answer → Option Bytes
  | .read (.ready (.ok m)) false => some m
  | _ => none

/-- The message that an answer took. -/
def Answer.taken? : Answer → Option Bytes
  | .write buf (.ready (.ok ())) => some buf
  | _ => none

/-- The answer of a read that found the stream at its end. -/
def Answer.end? : Answer → Option (Poll (IoResult Bytes))
  | .read answer true => some answer
  | _ => none

def returned (answers : List Answer) : List Bytes := answers.filterMap Answer.returned?

def taken (answers : List Answer) : List Bytes := answers.filterMap Answer.taken?

/-- The first report of the end of the stream. -/
def ended (answers : List Answer) : Option (Poll (IoResult Bytes)) := answers.findSome? Answer.end?

/-- The error that a call underneath stands for. A write of nothing is one. -/
def failure : IoEvent → Option IoError
  | .read _ (.ready (.error e)) => some e
  | .write _ (.ready (.error e)) => some e
  | .write _ (.ready (.ok 0)) => some writeZero
  | .flush (.ready (.error e)) => some e
  | .shutdown (.ready (.error e)) => some e
  | .ping (.ready (.error e)) => some e
  | _ => none

/-- An error that a call underneath has answered. -/
def Failed (calls : List IoEvent) (e : IoError) : Prop := ∃ event ∈ calls, failure event = some e

/-- The errors of an answer are those of the stream underneath, with two
exceptions: it ended inside a message, or a message was too large. -/
def Answer.Explained (calls : List IoEvent) : Answer → Prop
  | .read (.ready (.error e)) isEof => Failed calls e ∨ e = eofInMessage ∧ isEof = true
  | .write buf (.ready (.error e)) => Failed calls e ∨ e = messageTooLarge ∧ 65535 < buf.length
  | .flush (.ready (.error e)) => Failed calls e
  | .shutdown (.ready (.error e)) => Failed calls e
  | _ => True

/-- What a read says at the end of the stream, by what is left in the buffer. -/
def endAnswer (live : Bytes) : Poll (IoResult Bytes) :=
  .ready (if live = [] then .ok [] else .error eofInMessage)

/-- What was received is what was returned and what the read buffer holds. -/
structure ReadsWith (ms : List Bytes) (ended : Option (Poll (IoResult Bytes))) (live : Bytes)
    (s : Calling (Recorded ω)) : Prop where
  holds : s.1.Holds live
  fits : ∀ m ∈ ms, Fits 2 m
  account : produced (events s.2) = encodeAll 2 ms ++ live
  ended : ended = if s.1.isEof then some (endAnswer live) else none
  cut : s.1.isEof = true → Incomplete 2 live
  eof : s.1.isEof = true ↔ EofSeen (events s.2)

/-- What was accepted and what is pending is what was taken. -/
structure Writes (taken : Bytes) (flushed : Prop) (s : Calling (Recorded ω)) : Prop where
  offset : s.1.writeOffset ≤ s.1.pendingWrite.length
  small : s.1.pendingWrite.length ≤ READ_SIZE
  account : accepted (events s.2) ++ s.1.pendingWrite.drop s.1.writeOffset = taken
  clean : flushed → s.1.pendingWrite = []

/-- Both accounts of a stream, after the calls that were `seen` underneath. -/
structure Keeps (ms : List Bytes) (ended : Option (Poll (IoResult Bytes))) (taken : Bytes)
    (flushed : Prop) (seen : List IoEvent) (s : Calling (Recorded ω)) : Prop where
  reads : ∃ live, ReadsWith ms ended live s
  writes : Writes taken flushed s
  seen : seen ⊆ events s.2

variable {stream : AsyncStream ω} {ms : List Bytes} {ended_ : Option (Poll (IoResult Bytes))}
  {taken_ : Bytes} {flushed : Prop} {seen : List IoEvent} {s : Calling (Recorded ω)}
  {this : VlessMessageStream} {w w' : Recorded ω}

theorem Failed.of_last {e : IoError} {event : IoEvent} {calls : List IoEvent}
    (found : failure event = some e) : Failed (calls ++ [event]) e :=
  ⟨event, List.mem_append_right _ (List.mem_singleton_self _), found⟩

theorem eofSeen_concat_iff {calls : List IoEvent} {event : IoEvent}
    (not_ : ∀ room, event ≠ .read room (.ready (.ok []))) :
    EofSeen (calls ++ [event]) ↔ EofSeen calls := by
  constructor
  · rintro ⟨room, mem⟩
    rcases List.mem_append.mp mem with earlier | last
    · exact ⟨room, earlier⟩
    · exact absurd (List.mem_singleton.mp last).symm (not_ room)
  · exact Relay.EofSeen.concat

/-- A call of the reader leaves the account of the writer as it is. -/
theorem Writes.read (writes : Writes taken_ flushed (this, w)) {readBuf : Bytes}
    {readEndIndex : Nat} {isEof : Bool} (same : accepted (events w') = accepted (events w)) :
    Writes taken_ flushed ({ this with readBuf, readEndIndex, isEof }, w') :=
  ⟨writes.offset, writes.small, by rw [same]; exact writes.account, writes.clean⟩

/-- A call that is not a read leaves the account of the reader as it is. -/
theorem ReadsWith.call {live : Bytes} (reads : ReadsWith ms ended_ live (this, w))
    {pendingWrite : Bytes} {writeOffset : Nat} {event : IoEvent}
    (noted : events w' = events w ++ [event]) (notRead : ∀ room answer, event ≠ .read room answer) :
    ReadsWith ms ended_ live ({ this with pendingWrite, writeOffset }, w') where
  holds := ⟨reads.holds.allocated, reads.holds.ends, reads.holds.inside, reads.holds.bytes⟩
  fits := reads.fits
  account := by
    have nothing : bytesRead event = [] := by
      cases event with
      | read room answer => exact absurd rfl (notRead room answer)
      | write | flush | shutdown | ping => rfl
    rw [noted, Relay.produced_concat, nothing, List.append_nil]
    exact reads.account
  ended := reads.ended
  cut := reads.cut
  eof := by
    rw [noted, eofSeen_concat_iff fun room => notRead room _]
    exact reads.eof

/-- What happens in the world without a call. -/
theorem Keeps.of_events (keeps : Keeps ms ended_ taken_ flushed seen (this, w))
    (same : events w' = events w) : Keeps ms ended_ taken_ flushed seen (this, w') := by
  obtain ⟨live, reads⟩ := keeps.reads
  have writes := keeps.writes
  refine ⟨⟨live, reads.holds, reads.fits, ?_, reads.ended, reads.cut, ?_⟩,
    ⟨writes.offset, writes.small, ?_, writes.clean⟩, ?_⟩
  · rw [same]
    exact reads.account
  · rw [same]
    exact reads.eof
  · rw [same]
    exact writes.account
  · rw [same]
    exact keeps.seen

/-! ## Reading -/

section Reader

variable {live rest m bytes readBuf : Bytes} {readEndIndex room : Nat}
  {result : Poll (IoResult Bytes)}

theorem ReadsWith.message (reads : ReadsWith ms ended_ (encode 2 m ++ rest) (this, w))
    (open_ : this.isEof = false) (fits : Fits 2 m)
    (holds : Holds { this with readBuf, readEndIndex } rest) :
    ReadsWith (ms ++ [m]) ended_ rest ({ this with readBuf, readEndIndex }, w) where
  holds := holds
  fits m' mem := by
    rcases List.mem_append.mp mem with earlier | last
    · exact reads.fits m' earlier
    · obtain rfl := List.mem_singleton.mp last
      exact fits
  account := by
    rw [encodeAll_concat, List.append_assoc]
    exact reads.account
  ended := by
    have ended := reads.ended
    simp only [open_] at ended ⊢
    exact ended
  cut ended := absurd (open_.symm.trans ended) Bool.false_ne_true
  eof := reads.eof

/-- A read that does not end the stream adds its bytes to the live ones. -/
theorem ReadsWith.received (reads : ReadsWith ms ended_ live (this, w)) (open_ : this.isEof = false)
    (noted : events w' = events w ++ [.read room result]) (some_ : result ≠ .ready (.ok []))
    (bytes_ : bytesRead (.read room result) = bytes)
    (holds : Holds { this with readBuf, readEndIndex } (live ++ bytes)) :
    ReadsWith ms ended_ (live ++ bytes) ({ this with readBuf, readEndIndex }, w') where
  holds := holds
  fits := reads.fits
  account := by
    rw [noted, Relay.produced_concat, bytes_, reads.account, List.append_assoc]
  ended := by
    have ended := reads.ended
    simp only [open_] at ended ⊢
    exact ended
  cut ended := absurd (open_.symm.trans ended) Bool.false_ne_true
  eof := by
    have other (room' : Nat) : IoEvent.read room result ≠ .read room' (.ready (.ok [])) :=
      fun same => some_ (IoEvent.read.inj same).2
    rw [noted, eofSeen_concat_iff other]
    exact reads.eof

theorem ReadsWith.reachedEnd (reads : ReadsWith ms ended_ live (this, w))
    (incomplete : Incomplete 2 live)
    (noted : events w' = events w ++ [.read room (.ready (.ok []))]) :
    ReadsWith ms (some (endAnswer live)) live ({ this with isEof := true }, w') where
  holds := ⟨reads.holds.allocated, reads.holds.ends, reads.holds.inside, reads.holds.bytes⟩
  fits := reads.fits
  account := by
    rw [noted, Relay.produced_concat]
    exact (List.append_nil _).trans reads.account
  ended := rfl
  cut _ := incomplete
  eof := by
    refine iff_of_true rfl ⟨room, ?_⟩
    rw [noted]
    exact List.mem_append_right _ (List.mem_singleton_self _)

end Reader

/-- What a read that has returned leaves. A buffer for the longest message is
large enough for every one. -/
structure AfterRead (ms : List Bytes) (ended : Option (Poll (IoResult Bytes))) (taken : Bytes)
    (flushed : Prop) (seen : List IoEvent) (room : Nat) (answer : Poll (IoResult Bytes))
    (s : Calling (Recorded ω)) : Prop where
  keeps : Keeps (ms ++ (Answer.read answer s.1.isEof).returned?.toList)
    (ended.or (Answer.read answer s.1.isEof).end?) taken flushed seen s
  explained : 65535 ≤ room → (Answer.read answer s.1.isEof).Explained (events s.2)
  space : ∀ m, answer = .ready (.ok m) → m.length ≤ room
  nothing : s.1.isEof = true → ∀ m, answer = .ready (.ok m) → m = []

/-- A read that has not come to the end of the stream. -/
theorem afterRead_open {room : Nat} {answer : Poll (IoResult Bytes)} (open_ : s.1.isEof = false)
    (keeps : Keeps (ms ++ (Answer.read answer false).returned?.toList) ended_ taken_ flushed seen s)
    (explained : 65535 ≤ room → (Answer.read answer false).Explained (events s.2))
    (space : ∀ m, answer = .ready (.ok m) → m.length ≤ room) :
    AfterRead ms ended_ taken_ flushed seen room answer s := by
  refine ⟨?_, ?_, space, fun ended => absurd (open_.symm.trans ended) Bool.false_ne_true⟩
  · rw [open_]
    cases ended_ with
    | none => exact keeps
    | some => exact keeps
  · rw [open_]
    exact explained

theorem readTurn_keeps {safe : Calling (Recorded ω) → Prop} {room : Nat}
    (keeps : Keeps ms ended_ taken_ flushed seen s) (open_ : s.1.isEof = false) :
    (readTurn (stream.recorded .a) room).Meets s safe fun
      | some answer => AfterRead ms ended_ taken_ flushed seen room answer
      | none => fun t => (Keeps ms ended_ taken_ flushed seen t ∧ t.1.isEof = false) ∧
          (True → readVariant t < readVariant s) := by
  obtain ⟨this, w⟩ := s
  have open' : this.isEof = false := open_
  obtain ⟨live, reads⟩ := keeps.reads
  obtain ⟨answer, this', w', ran, does⟩ : ∃ answer this' w', readTurn (stream.recorded .a) room
      (this, w) = (.returned answer, this', w') ∧ TurnDoes _ room live this w answer this' w' :=
    readTurn_does reads.holds
  refine .of_returned ran ?_
  have quiet {room : Nat} {result : Poll (IoResult Bytes)}
      (noted : events w' = events w ++ [.read room result]) :
      accepted (events w') = accepted (events w) := by
    rw [noted, Relay.accepted_concat]
    exact List.append_nil _
  have later {event : IoEvent} (noted : events w' = events w ++ [event]) : seen ⊆ events w' := by
    rw [noted]
    exact fun event mem => List.mem_append_left _ (keeps.seen mem)
  -- a read that brought nothing
  have idle {room : Nat} {result : Poll (IoResult Bytes)}
      (noted : events w' = events w ++ [.read room result]) (not_ : result ≠ .ready (.ok []))
      (nothing : bytesRead (.read room result) = []) :
      Keeps (ms ++ []) ended_ taken_ flushed seen (this, w') := by
    have received := reads.received
      open' noted not_ nothing ((List.append_nil live).symm ▸ reads.holds)
    rw [List.append_nil]
    exact ⟨⟨_, received⟩, keeps.writes.read (quiet noted), later noted⟩
  have noMessage {e : IoError} (m : Bytes)
      (found : (.ready (.error e) : Poll (IoResult Bytes)) = .ready (.ok m)) : m.length ≤ room := by
    cases found
  cases does with
  | message fits begins space holds =>
      subst begins
      refine afterRead_open open' ?_ (fun _ => trivial) ?_
      · exact ⟨⟨_, reads.message open' fits holds⟩, keeps.writes.read rfl, keeps.seen⟩
      · rintro _ ⟨⟩
        exact space
  | tooSmall fits begins space =>
      refine afterRead_open open' ((List.append_nil ms).symm ▸ keeps) (fun enough => ?_) noMessage
      rw [Fits] at fits
      omega
  | received _ answered some_ holds =>
      have noted := events_of_note answered
      have received := reads.received open' noted (by simpa using some_) rfl holds
      refine ⟨⟨⟨⟨_, received⟩, keeps.writes.read (quiet noted), later noted⟩, open'⟩, fun _ => ?_⟩
      exact readVariant_lt reads.holds some_ holds
  | eof incomplete answered =>
      have noted := events_of_note answered
      have started : ended_ = none := by
        have ended := reads.ended
        rwa [open_] at ended
      subst started
      have reached := reads.reachedEnd incomplete noted
      refine ⟨⟨⟨live, ?_⟩, keeps.writes.read (quiet noted), later noted⟩,
        fun _ => ?_, ?_, fun _ => ?_⟩
      · by_cases empty : live = []
        · simpa [Answer.returned?, Answer.end?, endAnswer, empty] using reached
        · simpa [Answer.returned?, Answer.end?, endAnswer, empty] using reached
      · by_cases empty : live = []
        · simp [Answer.Explained, empty]
        · simp [Answer.Explained, empty]
      · by_cases empty : live = []
        · simp [empty]
        · simp [empty]
      · by_cases empty : live = []
        · simp [empty]
        · simp [empty]
  | failed _ answered =>
      have noted := events_of_note answered
      refine afterRead_open open' (idle noted ?_ rfl) (fun _ => .inl ?_) noMessage
      · intro ended
        cases ended
      · rw [noted]
        exact .of_last rfl
  | pending _ answered =>
      refine afterRead_open open' (idle (events_of_note answered) ?_ rfl) (fun _ => trivial) ?_
      · intro ended
        cases ended
      · intro m found
        cases found

theorem pollRead_keeps {safe : Calling (Recorded ω) → Prop} {fuel room : Nat}
    (keeps : Keeps ms ended_ taken_ flushed seen s)
    (enough : (∀ t, Keeps ms ended_ taken_ flushed seen t → safe t) ∨ READ_SIZE < fuel) :
    (pollReadMessage fuel (stream.recorded .a) room).Meets s safe
      (AfterRead ms ended_ taken_ flushed seen room) := by
  by_cases eof : s.1.isEof
  · refine .of_returned (if_pos eof) ⟨?_, fun _ => trivial, ?_, fun _ _ same => ?_⟩
    rotate_left
    · rintro _ ⟨⟩
      exact Nat.zero_le _
    · cases same
      rfl
    obtain ⟨live, reads⟩ := keeps.reads
    have ended := reads.ended
    rw [if_pos eof] at ended
    rw [eof, ended]
    refine ⟨⟨live, ?_⟩, keeps.writes, keeps.seen⟩
    rw [ended] at reads
    exact (List.append_nil ms).symm ▸ reads
  · unfold Exec.Meets
    rw [pollRead_eq_loop (Bool.eq_false_iff.mpr eof)]
    refine Exec.Meets.loop_variant
      (fun t => Keeps ms ended_ taken_ flushed seen t ∧ t.1.isEof = false) readVariant True ?_
      ⟨keeps, Bool.eq_false_iff.mpr eof⟩ ?_
    · intro t kept
      refine (readTurn_keeps kept.1 kept.2).mono (fun _ h => h) fun ended _ does => ?_
      cases ended with
      | none => exact does
      | some answer => exact does
    · rcases enough with always | less
      · exact .inl fun t kept => always t kept.1
      · exact .inr ⟨trivial, Nat.lt_of_le_of_lt (Nat.sub_le _ _) less⟩

/-! ## Writing -/

/-- A call underneath that is neither a read nor a write. -/
theorem Keeps.call {event : IoEvent} (keeps : Keeps ms ended_ taken_ flushed seen (this, w))
    (noted : events w' = events w ++ [event]) (notRead : ∀ room answer, event ≠ .read room answer)
    (written : bytesWritten event = []) :
    Keeps ms ended_ taken_ flushed seen (this, w') := by
  obtain ⟨live, reads⟩ := keeps.reads
  have writes := keeps.writes
  refine ⟨⟨live, reads.call noted notRead⟩, ⟨writes.offset, writes.small, ?_, writes.clean⟩, ?_⟩
  · rw [noted, Relay.accepted_concat, written, List.append_nil]
    exact writes.account
  · rw [noted]
    exact fun event mem => List.mem_append_left _ (keeps.seen mem)

/-- An answer to a caller who writes, with the errors explained. -/
def UnitExplained (calls : List IoEvent) : Poll (IoResult Unit) → Prop
  | .ready (.error e) => Failed calls e
  | _ => True

theorem UnitExplained.failed {calls : List IoEvent} {answer : Poll (IoResult Unit)} {e : IoError}
    (explained : UnitExplained calls answer) (failed : answer = .ready (.error e)) :
    Failed calls e := by
  subst failed
  exact explained

/-- What sending leaves: the stream underneath has everything when it is through. -/
structure AfterSend (ms : List Bytes) (ended : Option (Poll (IoResult Bytes))) (taken : Bytes)
    (flushed : Prop) (seen : List IoEvent) (answer : Poll (IoResult Unit))
    (s : Calling (Recorded ω)) : Prop where
  keeps : Keeps ms ended taken flushed seen s
  sent : answer = .ready (.ok ()) → s.1.pendingWrite.length ≤ s.1.writeOffset
  explained : UnitExplained (events s.2) answer

def sendVariant (s : Calling (Recorded ω)) : Nat := s.1.pendingWrite.length - s.1.writeOffset

/-- The outcomes of a turn of the loop that sends. -/
inductive SendDoes (stream : AsyncStream ω) (this : VlessMessageStream) (w : ω) :
    Option (Poll (IoResult Unit)) → VlessMessageStream → ω → Prop
  | done (sent : this.pendingWrite.length ≤ this.writeOffset) :
      SendDoes stream this w (some (.ready (.ok ()))) this w
  | wrote {n : Nat} {w' : ω} (some_ : n ≠ 0)
      (answered : stream.pollWrite (this.pendingWrite.drop this.writeOffset) w =
        (.ready (.ok n), w')) :
      SendDoes stream this w none { this with writeOffset := this.writeOffset + n } w'
  | wroteNothing {w' : ω}
      (answered : stream.pollWrite (this.pendingWrite.drop this.writeOffset) w =
        (.ready (.ok 0), w')) :
      SendDoes stream this w (some (.ready (.error writeZero))) this w'
  | failed {e : IoError} {w' : ω}
      (answered : stream.pollWrite (this.pendingWrite.drop this.writeOffset) w =
        (.ready (.error e), w')) :
      SendDoes stream this w (some (.ready (.error e))) this w'
  | pending {w' : ω}
      (answered : stream.pollWrite (this.pendingWrite.drop this.writeOffset) w = (.pending, w')) :
      SendDoes stream this w (some .pending) this w'

theorem sendTurn_does (stream : AsyncStream ω) (this : VlessMessageStream) (w : ω) :
    ∃ answer this' w', sendTurn stream (this, w) = (.returned answer, this', w') ∧
      SendDoes stream this w answer this' w' := by
  by_cases more : this.writeOffset < this.pendingWrite.length
  · have slice : this.pendingWrite.slice this.writeOffset this.pendingWrite.length =
        some (this.pendingWrite.drop this.writeOffset) := List.slice_length more.le
    rcases answered : stream.pollWrite (this.pendingWrite.drop this.writeOffset) w
      with ⟨_ | e | n, w'⟩
    · refine ⟨_, _, _, ?_, .pending answered⟩
      simp only [sendTurn, if_pos more, slice, answered]
    · refine ⟨_, _, _, ?_, .failed answered⟩
      simp only [sendTurn, if_pos more, slice, answered]
    · by_cases none_ : n = 0
      · subst none_
        refine ⟨_, _, _, ?_, .wroteNothing answered⟩
        simp only [sendTurn, if_pos more, slice, answered, if_pos]
      · refine ⟨_, _, _, ?_, .wrote none_ answered⟩
        simp only [sendTurn, if_pos more, slice, answered, if_neg none_]
  · exact ⟨_, _, _, if_neg more, .done (Nat.le_of_not_lt more)⟩

theorem sendTurn_keeps {safe : Calling (Recorded ω) → Prop}
    (keeps : Keeps ms ended_ taken_ flushed seen s) :
    (sendTurn (stream.recorded .a)).Meets s safe fun
      | some answer => AfterSend ms ended_ taken_ flushed seen answer
      | none => fun t => Keeps ms ended_ taken_ flushed seen t ∧
          (True → sendVariant t < sendVariant s) := by
  obtain ⟨this, w⟩ := s
  have writes := keeps.writes
  obtain ⟨answer, this', w', ran, does⟩ := sendTurn_does (stream.recorded .a) this w
  refine .of_returned ran ?_
  cases does with
  | done sent => exact ⟨keeps, fun _ => sent, trivial⟩
  | @wrote n _ some_ answered =>
      have noted := events_of_note answered
      have fits := (stream.recorded .a).write_fits _ _ _ (congrArg Prod.fst answered)
      rw [List.length_drop] at fits
      obtain ⟨live, reads⟩ := keeps.reads
      refine ⟨⟨⟨live, reads.call noted nofun⟩, ⟨?_, writes.small, ?_, writes.clean⟩, ?_⟩, ?_⟩
      · show this.writeOffset + n ≤ this.pendingWrite.length
        have offset : this.writeOffset ≤ this.pendingWrite.length := writes.offset
        omega
      · rw [noted, Relay.accepted_concat, List.append_assoc]
        show _ ++ ((this.pendingWrite.drop this.writeOffset).take n ++
          this.pendingWrite.drop (this.writeOffset + n)) = _
        rw [← List.drop_drop, List.take_append_drop]
        exact writes.account
      · rw [noted]
        exact fun event mem => List.mem_append_left _ (keeps.seen mem)
      · intro _
        show this.pendingWrite.length - (this.writeOffset + n) <
          this.pendingWrite.length - this.writeOffset
        omega
  | wroteNothing answered | failed answered =>
      have noted := events_of_note answered
      refine ⟨keeps.call noted nofun rfl, nofun, ?_⟩
      rw [noted]
      exact Failed.of_last rfl
  | pending answered => exact ⟨keeps.call (events_of_note answered) nofun rfl, nofun, trivial⟩

/-- What a flush leaves: nothing is pending when it is through. -/
structure AfterFlush (ms : List Bytes) (ended : Option (Poll (IoResult Bytes))) (taken : Bytes)
    (flushed : Prop) (seen : List IoEvent) (answer : Poll (IoResult Unit))
    (s : Calling (Recorded ω)) : Prop where
  keeps : Keeps ms ended taken (flushed ∨ answer = .ready (.ok ())) seen s
  explained : UnitExplained (events s.2) answer

theorem Keeps.mono {flushed' : Prop} (keeps : Keeps ms ended_ taken_ flushed seen s)
    (clean : flushed' → flushed ∨ s.1.pendingWrite = []) :
    Keeps ms ended_ taken_ flushed' seen s := by
  have writes := keeps.writes
  refine ⟨keeps.reads, ⟨writes.offset, writes.small, writes.account, ?_⟩, keeps.seen⟩
  intro now
  rcases clean now with before | nothing
  · exact writes.clean before
  · exact nothing

theorem flushInner_keeps {safe : Calling (Recorded ω) → Prop}
    (keeps : Keeps ms ended_ taken_ flushed seen s)
    (sent : s.1.pendingWrite.length ≤ s.1.writeOffset) :
    (flushInner (stream.recorded .a)).Meets s safe
      (AfterFlush ms ended_ taken_ flushed seen) := by
  obtain ⟨this, w⟩ := s
  have waits {answer : Poll (IoResult Unit)} {w' : Recorded ω}
      (noted : events w' = events w ++ [.flush answer]) (not_ : answer ≠ .ready (.ok ())) :
      Keeps ms ended_ taken_ (flushed ∨ answer = .ready (.ok ())) seen (this, w') :=
    (keeps.call noted nofun rfl).mono fun now => .inl (now.resolve_right not_)
  rcases answered : (stream.recorded .a).pollFlush w with ⟨_ | e | _, w'⟩
  · have ran : flushInner (stream.recorded .a) (this, w) = (.returned .pending, this, w') := by
      simp only [flushInner, answered]
    exact .of_returned ran ⟨waits (events_of_note answered) nofun, trivial⟩
  · have noted := events_of_note answered
    have ran : flushInner (stream.recorded .a) (this, w) =
        (.returned (.ready (.error e)), this, w') := by
      simp only [flushInner, answered]
    exact .of_returned ran ⟨waits noted nofun, noted ▸ Failed.of_last rfl⟩
  · have noted := events_of_note answered
    have ran : flushInner (stream.recorded .a) (this, w) =
        (.returned (.ready (.ok ())), { this with pendingWrite := [], writeOffset := 0 }, w') := by
      simp only [flushInner, answered]
    have kept : Keeps ms ended_ taken_ flushed seen (this, w') := keeps.call noted nofun rfl
    have account := kept.writes.account
    rw [List.drop_eq_nil_of_le sent] at account
    obtain ⟨live, reads⟩ := keeps.reads
    exact .of_returned ran ⟨⟨⟨live, reads.call noted nofun⟩,
      ⟨Nat.le_refl _, Nat.zero_le _, account, fun _ => rfl⟩, kept.seen⟩, trivial⟩

theorem pollFlush_keeps {safe : Calling (Recorded ω) → Prop} {fuel : Nat}
    (keeps : Keeps ms ended_ taken_ flushed seen s)
    (enough : (∀ t, Keeps ms ended_ taken_ flushed seen t → safe t) ∨ READ_SIZE < fuel) :
    (pollFlushMessage fuel (stream.recorded .a)).Meets s safe
      (AfterFlush ms ended_ taken_ flushed seen) := by
  have sends : (Exec.loop (sendTurn (stream.recorded .a)) fuel).Meets s safe
      (AfterSend ms ended_ taken_ flushed seen) := by
    refine Exec.Meets.loop_variant (Keeps ms ended_ taken_ flushed seen) sendVariant
      True ?_ keeps ?_
    · intro t kept
      refine (sendTurn_keeps kept).mono (fun _ h => h) fun ended _ does => ?_
      cases ended with
      | none => exact does
      | some answer => exact does
    · refine enough.imp id fun less => ⟨trivial, ?_⟩
      have small := keeps.writes.small
      rw [sendVariant]
      omega
  refine sends.bind fun answer t after => ?_
  have kept : answer ≠ .ready (.ok ()) → AfterFlush ms ended_ taken_ flushed seen answer t :=
    fun not_ => ⟨after.keeps.mono fun now => .inl (now.resolve_right not_), after.explained⟩
  rcases answer with _ | e | _
  · exact Exec.meets_pure (kept nofun)
  · exact Exec.meets_pure (kept nofun)
  · exact flushInner_keeps after.keeps (after.sent rfl)

/-- What a call that has returned leaves. -/
structure AfterCall (ms : List Bytes) (ended : Option (Poll (IoResult Bytes))) (taken : Bytes)
    (seen : List IoEvent) (answer : Answer) (s : Calling (Recorded ω)) : Prop where
  keeps : Keeps (ms ++ answer.returned?.toList) (ended.or answer.end?)
    (taken ++ encodeAll 2 answer.taken?.toList) (answer = .flush (.ready (.ok ()))) seen s
  explained : answer.Explained (events s.2)
  fits : ∀ m, answer.taken? = some m → m.length ≤ 65535

/-- An answer that returned no message and took none. -/
theorem afterCall_idle {answer : Answer} (keeps : Keeps ms ended_ taken_ flushed seen s)
    (returned : answer.returned? = none) (taken : answer.taken? = none) (end_ : answer.end? = none)
    (explained : answer.Explained (events s.2))
    (clean : answer = .flush (.ready (.ok ())) → flushed) :
    AfterCall ms ended_ taken_ seen answer s := by
  refine ⟨?_, explained, ?_⟩
  · rw [returned, taken, end_, Option.or_none]
    have kept := keeps.mono fun now => .inl (clean now)
    exact (List.append_nil ms).symm ▸ (List.append_nil taken_).symm ▸ kept
  · intro m same
    cases taken.symm.trans same

/-- A message is appended to the pending bytes when there are none. -/
theorem stage_keeps {safe : Calling (Recorded ω) → Prop} (buf : Bytes)
    (keeps : Keeps ms ended_ taken_ flushed seen s) (nothing : s.1.pendingWrite = []) :
    (stage buf).Meets s safe fun answer => AfterCall ms ended_ taken_ seen (.write buf answer) := by
  obtain ⟨this, w⟩ := s
  by_cases large : 65535 < buf.length
  · exact .of_returned (if_pos large)
      (afterCall_idle keeps rfl rfl rfl (.inr ⟨rfl, large⟩) nofun)
  · obtain ⟨live, reads⟩ := keeps.reads
    have account := keeps.writes.account
    dsimp only at nothing account
    rw [nothing, List.drop_nil, List.append_nil] at account
    refine .of_returned (if_neg large) ⟨⟨⟨live, ?_⟩, ?_, keeps.seen⟩, trivial, ?_⟩
    · have same := reads.ended
      rw [show ended_.or (Answer.write buf (.ready (.ok ()))).end? = ended_ from Option.or_none]
      refine ⟨⟨reads.holds.allocated, reads.holds.ends, reads.holds.inside, reads.holds.bytes⟩,
        ?_, ?_, same, reads.cut, reads.eof⟩
      · exact (List.append_nil ms).symm ▸ reads.fits
      · exact (List.append_nil ms).symm ▸ reads.account
    · refine ⟨Nat.zero_le _, ?_, ?_, nofun⟩
      · dsimp only
        rw [nothing, List.nil_append, List.length_append, BigEndian.length_toBe, READ_SIZE]
        omega
      · dsimp only
        rw [nothing, List.nil_append, List.drop_zero, account]
        exact congrArg (taken_ ++ ·) (List.append_nil _).symm
    · rintro m ⟨⟩
      exact Nat.le_of_not_lt large

theorem pollWrite_keeps {safe : Calling (Recorded ω) → Prop} {fuel : Nat} (buf : Bytes)
    (keeps : Keeps ms ended_ taken_ flushed seen s)
    (enough : (∀ t, Keeps ms ended_ taken_ flushed seen t → safe t) ∨ READ_SIZE < fuel) :
    (pollWriteMessage fuel (stream.recorded .a) buf).Meets s safe fun answer =>
      AfterCall ms ended_ taken_ seen (.write buf answer) := by
  by_cases pending : s.1.pendingWrite ≠ []
  · unfold Exec.Meets
    rw [pollWriteMessage]
    dsimp only
    rw [if_pos pending]
    refine (pollFlush_keeps keeps enough).bind fun answer t after => ?_
    have rest : (stageIfSent buf).Meets t safe fun answer =>
        AfterCall ms ended_ taken_ seen (.write buf answer) := by
      by_cases still : t.1.pendingWrite ≠ []
      · exact .of_returned (if_pos still) (afterCall_idle after.keeps rfl rfl rfl trivial nofun)
      · unfold Exec.Meets
        rw [stageIfSent]
        dsimp only
        rw [if_neg still]
        exact stage_keeps buf after.keeps (not_not.mp still)
    rcases answer with _ | e | _
    · exact rest
    · exact Exec.meets_pure
        (afterCall_idle after.keeps rfl rfl rfl (.inl after.explained) nofun)
    · exact rest
  · unfold Exec.Meets
    rw [pollWriteMessage]
    dsimp only
    rw [if_neg pending]
    exact stage_keeps buf keeps (not_not.mp pending)

/-- What a shutdown leaves. -/
structure AfterShutdown (ms : List Bytes) (ended : Option (Poll (IoResult Bytes))) (taken : Bytes)
    (flushed : Prop) (seen : List IoEvent) (answer : Poll (IoResult Unit))
    (s : Calling (Recorded ω)) : Prop where
  keeps : Keeps ms ended taken flushed seen s
  explained : UnitExplained (events s.2) answer

theorem pollShutdown_keeps {safe : Calling (Recorded ω) → Prop} {fuel : Nat}
    (keeps : Keeps ms ended_ taken_ flushed seen s)
    (enough : (∀ t, Keeps ms ended_ taken_ flushed seen t → safe t) ∨ READ_SIZE < fuel) :
    (pollShutdownMessage fuel (stream.recorded .a)).Meets s safe
      (AfterShutdown ms ended_ taken_ flushed seen) := by
  refine (pollFlush_keeps keeps enough).bind fun answer t after => ?_
  have kept : Keeps ms ended_ taken_ flushed seen t := after.keeps.mono fun now => .inl (.inl now)
  rcases answer with _ | e | _
  · exact Exec.meets_pure ⟨kept, after.explained⟩
  · exact Exec.meets_pure ⟨kept, after.explained⟩
  · obtain ⟨this, w⟩ := t
    rcases answered : (stream.recorded .a).pollShutdown w with ⟨answer, w'⟩
    have noted := events_of_note answered
    refine .of_returned (a := answer) (t := (this, w')) (by simp only [answered]) ?_
    refine ⟨kept.call noted nofun rfl, ?_⟩
    rcases answer with _ | e | _
    · trivial
    · rw [noted]
      exact Failed.of_last rfl
    · trivial

/-- What a ping leaves. -/
structure AfterPing (ms : List Bytes) (ended : Option (Poll (IoResult Bytes))) (taken : Bytes)
    (flushed : Prop) (seen : List IoEvent) (answer : Poll (IoResult Bool))
    (s : Calling (Recorded ω)) : Prop where
  keeps : Keeps ms ended taken flushed seen s
  explained : ∀ e, answer = .ready (.error e) → Failed (events s.2) e

theorem pollWritePing_keeps {safe : Calling (Recorded ω) → Prop}
    (keeps : Keeps ms ended_ taken_ flushed seen s) :
    (pollWritePing (stream.recorded .a)).Meets s safe
      (AfterPing ms ended_ taken_ flushed seen) := by
  obtain ⟨this, w⟩ := s
  rcases answered : (stream.recorded .a).pollWritePing w with ⟨answer, w'⟩
  have noted := events_of_note answered
  refine .of_returned (a := answer) (t := (this, w')) (by simp only [pollWritePing, answered]) ?_
  refine ⟨keeps.call noted nofun rfl, ?_⟩
  rintro e rfl
  rw [noted]
  exact .of_last rfl

/-- Every call keeps both accounts. -/
theorem call_keeps {safe : Calling (Recorded ω) → Prop} {fuel : Nat} (op : Op)
    (keeps : Keeps ms ended_ taken_ flushed seen s)
    (enough : (∀ t, Keeps ms ended_ taken_ flushed seen t → safe t) ∨ READ_SIZE < fuel) :
    (call (stream.recorded .a) fuel op).Meets s safe (AfterCall ms ended_ taken_ seen) := by
  cases op with
  | read =>
      refine (pollRead_keeps keeps enough).bind fun answer t after => ?_
      refine .of_returned rfl ⟨?_, after.explained (Nat.le_refl _), nofun⟩
      exact (List.append_nil taken_).symm ▸ after.keeps.mono nofun
  | write buf =>
      exact (pollWrite_keeps buf keeps enough).bind fun answer t after => Exec.meets_pure after
  | flush =>
      refine (pollFlush_keeps keeps enough).bind fun answer t after => Exec.meets_pure ?_
      refine afterCall_idle after.keeps rfl rfl rfl ?_ fun same => .inr (by injection same)
      rcases answer with _ | e | _
      · trivial
      · exact after.explained
      · trivial
  | shutdown =>
      refine (pollShutdown_keeps keeps enough).bind fun answer t after => Exec.meets_pure ?_
      refine afterCall_idle after.keeps rfl rfl rfl ?_ nofun
      rcases answer with _ | e | _
      · trivial
      · exact after.explained
      · trivial

end RustProxy.MessageStream.VlessMessageStream
