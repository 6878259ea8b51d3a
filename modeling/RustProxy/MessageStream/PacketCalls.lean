import RustProxy.MessageStream.Arrivals
import RustProxy.MessageStream.PacketReader
import RustProxy.MessageStream.PacketWriter

/-!
# Calls on a packet-address stream

Reads, writes, flushes and shutdowns in any order on one stream, over any stream
underneath. Read off the calls that were made underneath, the bytes received are
the frames of the packets that were returned, followed by what the read buffer
holds; and the bytes accepted, followed by what the write buffer holds, are the
frames of the messages that were taken.

Both accounts hold at every moment of every call. A call returns when the stream
underneath accepts some of the bytes of every write that it does not put off. A
message is not taken only when its frame is too long, or when the last call that
its write made underneath has failed or was put off (`Answered`).
-/

namespace RustProxy.MessageStream

open Relay (produced accepted bytesRead bytesWritten)

variable {ω : Type}

/-- The calls that were made on the stream underneath. -/
def events (w : Recorded ω) : List IoEvent := w.calls.map Prod.snd

theorem events_of_note {α : Type} {side : Side} {event : α → IoEvent} {x : α × ω} {answer : α}
    {w w' : Recorded ω} (noted : Recorded.note side event w.calls x = (answer, w')) :
    events w' = events w ++ [event answer] := by
  rw [events, Relay.calls_of_note noted, List.map_append]
  rfl

/-- A write that is not put off accepts some of the bytes. -/
def WritesSome (stream : AsyncStream ω) : Prop :=
  ∀ offered w n, offered ≠ [] → (stream.pollWrite offered w).1 = .ready (.ok n) → 0 < n

theorem WritesSome.recorded {stream : AsyncStream ω} (some_ : WritesSome stream) (side : Side) :
    WritesSome (stream.recorded side) :=
  fun offered w n nonempty answered => some_ offered w.world n nonempty answered

namespace PacketAddrStream

/-- The packet that an answer returned. The end of the stream is not one. -/
def Answer.packet? : Answer → Option Packet
  | .read (.ready (.ok p)) false => some p
  | _ => none

/-- The message that an answer took. -/
def Answer.message? : Answer → Option (Bytes × SocketAddr)
  | .write buf source (.ready (.ok ())) => some (buf, source)
  | _ => none

def packets (answers : List Answer) : List Packet := answers.filterMap Answer.packet?

def messages (answers : List Answer) : List (Bytes × SocketAddr) :=
  answers.filterMap Answer.message?

def frames (messages : List (Bytes × SocketAddr)) : Bytes :=
  messages.flatMap fun message => frameOf message.1 message.2

/-- What was received is what was returned and what the read buffer holds. -/
def Reads (ps : List Packet) (s : Calling (Recorded ω)) : Prop :=
  ∃ start live consumed, s.1.readBuf.Holds BUFFER_SIZE start live ∧ IsStream consumed ps ∧
    produced (events s.2) = consumed ++ live

/-- What was accepted and what the write buffer holds is what was taken. -/
def Writes (taken : Bytes) (flushed : Prop) (s : Calling (Recorded ω)) : Prop :=
  ∃ staged, s.1.Stages staged ∧ accepted (events s.2) ++ staged = taken ∧ (flushed → staged = [])

/-- Both accounts of a stream, some time after the earlier calls underneath. -/
structure Keeps (earlier : List IoEvent) (ps : List Packet) (taken : Bytes) (flushed : Prop)
    (s : Calling (Recorded ω)) : Prop where
  reads : Reads ps s
  writes : Writes taken flushed s
  later : earlier <+: events s.2

variable {stream : AsyncStream ω} {earlier : List IoEvent} {ps : List Packet} {taken : Bytes}
  {flushed : Prop} {s : Calling (Recorded ω)} {this : PacketAddrStream} {w w' : Recorded ω}

/-- One more call is later still. -/
theorem later_of_noted {event : IoEvent} (later : earlier <+: events w)
    (noted : events w' = events w ++ [event]) : earlier <+: events w' := by
  rw [noted]
  exact later.trans (List.prefix_append _ _)

/-- A call of the reader leaves the account of the writer as it is. -/
theorem Writes.read (writes : Writes taken flushed (this, w)) {readBuf : SlideBuffer} {isEof : Bool}
    (same : accepted (events w') = accepted (events w)) :
    Writes taken flushed ({ this with readBuf, isEof }, w') := by
  obtain ⟨staged, stages, account, clean⟩ := writes
  refine ⟨staged, ⟨stages.allocated, stages.inside, stages.sent, stages.bytes⟩, ?_, clean⟩
  rw [same]
  exact account

/-- A call of the writer leaves the account of the reader as it is. -/
theorem Reads.write (reads : Reads ps (this, w)) {writeBuf : Bytes} {len sent : Nat}
    (same : produced (events w') = produced (events w)) :
    Reads ps ({ this with writeBuf, writeBufLen := len, writeBufSent := sent }, w') := by
  obtain ⟨start, live, consumed, holds, is, account⟩ := reads
  exact ⟨start, live, consumed, holds, is, by rw [same]; exact account⟩

/-! ## Reading -/

/-- What a read that has returned leaves. -/
def AfterRead (earlier : List IoEvent) (ps : List Packet) (taken : Bytes) (flushed : Prop)
    (answer : Poll (IoResult Packet)) (s : Calling (Recorded ω)) : Prop :=
  Keeps earlier (ps ++ (Answer.read answer s.1.isEof).packet?.toList) taken flushed s

theorem readTurn_keeps {safe : Calling (Recorded ω) → Prop}
    (keeps : Keeps earlier ps taken flushed s) (open_ : s.1.isEof = false) :
    (readTurn (stream.recorded .a) 65535).Meets s safe fun
      | some answer => AfterRead earlier ps taken flushed answer
      | none => fun t => (Keeps earlier ps taken flushed t ∧ t.1.isEof = false) ∧
          (True → readVariant t < readVariant s) := by
  obtain ⟨this, w⟩ := s
  obtain ⟨start, live, consumed, holds, is, account⟩ := keeps.reads
  obtain ⟨answer, this', w', ran, does⟩ : ∃ answer this' w', readTurn (stream.recorded .a) 65535
      (this, w) = (.returned answer, this', w') ∧ TurnDoes _ start live this w answer this' w' :=
    readTurn_does holds
  refine .of_returned ran ?_
  have notAccepted {room : Nat} {result : Poll (IoResult Bytes)}
      (noted : events w' = events w ++ [.read room result]) :
      accepted (events w') = accepted (events w) := by
    rw [noted, Relay.accepted_concat]
    exact List.append_nil _
  have unchanged {t : Calling (Recorded ω)} (reads : Reads ps t) : Reads (ps ++ []) t := by
    rw [List.append_nil]
    exact reads
  cases does with
  | packet is' begins holds' =>
      subst begins
      refine ⟨?_, keeps.writes.read rfl, keeps.later⟩
      rw [open_]
      exact ⟨_, _, _, holds', is.append (isStream_singleton is'),
        by rw [List.append_assoc]; exact account⟩
  | invalid => exact ⟨unchanged keeps.reads, keeps.writes, keeps.later⟩
  | full _ _ holds' =>
      exact ⟨unchanged ⟨_, _, _, holds', is, account⟩, keeps.writes.read rfl, keeps.later⟩
  | received _ answered _ some_ holds' =>
      have noted := events_of_note answered
      refine ⟨⟨⟨?_, keeps.writes.read (notAccepted noted), later_of_noted keeps.later noted⟩,
        open_⟩, fun _ => ?_⟩
      · refine ⟨_, _, _, holds', is, ?_⟩
        rw [noted, Relay.produced_concat, account, List.append_assoc]
        rfl
      · exact readVariant_lt holds some_ holds'
  | eof _ answered _ holds' | failed _ answered _ holds' | pending _ answered _ holds' =>
      have noted := events_of_note answered
      refine ⟨unchanged ⟨_, _, _, holds', is, ?_⟩, keeps.writes.read (notAccepted noted),
        later_of_noted keeps.later noted⟩
      rw [noted, Relay.produced_concat]
      exact (List.append_nil _).trans account

theorem pollRead_keeps {safe : Calling (Recorded ω) → Prop} {fuel : Nat}
    (keeps : Keeps earlier ps taken flushed s)
    (enough : (∀ t, Keeps earlier ps taken flushed t → safe t) ∨ BUFFER_SIZE < fuel) :
    (pollReadTargetedMessage fuel (stream.recorded .a) 65535).Meets s safe
      (AfterRead earlier ps taken flushed) := by
  by_cases eof : s.1.isEof
  · refine .of_returned (if_pos eof) ⟨?_, keeps.writes, keeps.later⟩
    rw [eof]
    exact (List.append_nil ps).symm ▸ keeps.reads
  · unfold Exec.Meets
    rw [pollRead_eq_loop (Bool.eq_false_iff.mpr eof)]
    refine Exec.Meets.loop_variant (fun t => Keeps earlier ps taken flushed t ∧ t.1.isEof = false)
      readVariant True ?_ ⟨keeps, Bool.eq_false_iff.mpr eof⟩ ?_
    · intro t kept
      refine (readTurn_keeps kept.1 kept.2).mono (fun _ h => h) fun ended _ does => ?_
      cases ended with
      | none => exact does
      | some answer => exact does
    · rcases enough with always | less
      · exact .inl fun t kept => always t kept.1
      · refine .inr ⟨trivial, Nat.lt_of_le_of_lt (Nat.sub_le _ _) less⟩

/-! ## Writing -/

/-- A call underneath that is later than the earlier ones and the last one now. -/
def EndsWith (earlier now : List IoEvent) (event : IoEvent) : Prop :=
  ∃ before, earlier <+: before ∧ now = before ++ [event]

/-- What sending leaves: nothing is staged any more when it is through, and
otherwise the last write underneath has failed or was put off. -/
def AfterSend (earlier : List IoEvent) (ps : List Packet) (taken : Bytes) (flushed : Prop) :
    Poll (IoResult Unit) → Calling (Recorded ω) → Prop
  | .ready (.ok ()), s => Keeps earlier ps taken True s ∧ s.1.writeBufSent = 0
  | .ready (.error e), s => Keeps earlier ps taken flushed s ∧
      ∃ offered, EndsWith earlier (events s.2) (.write offered (.ready (.error e)))
  | .pending, s => Keeps earlier ps taken flushed s ∧
      ∃ offered, EndsWith earlier (events s.2) (.write offered .pending)

def sendVariant (s : Calling (Recorded ω)) : Nat := s.1.writeBufLen - s.1.writeBufSent

theorem sendTurn_keeps {safe : Calling (Recorded ω) → Prop}
    (keeps : Keeps earlier ps taken flushed s) :
    (sendTurn (stream.recorded .a)).Meets s safe fun
      | some answer => AfterSend earlier ps taken flushed answer
      | none => fun t => Keeps earlier ps taken flushed t ∧
          (WritesSome stream → sendVariant t < sendVariant s) := by
  obtain ⟨this, w⟩ := s
  obtain ⟨staged, stages, account, clean⟩ := keeps.writes
  obtain ⟨answer, this', w', ran, does⟩ : ∃ answer this' w', sendTurn (stream.recorded .a)
      (this, w) = (.returned answer, this', w') ∧ SendDoes _ staged this w answer this' w' :=
    sendTurn_does stages
  refine .of_returned ran ?_
  have notProduced {offered : Bytes} {result : Poll (IoResult Nat)}
      (noted : events w' = events w ++ [.write offered result]) :
      produced (events w') = produced (events w) := by
    rw [noted, Relay.produced_concat]
    exact List.append_nil _
  cases does with
  | done nothing stages' =>
      subst nothing
      exact ⟨⟨keeps.reads.write rfl, ⟨[], stages', account, fun _ => rfl⟩, keeps.later⟩, rfl⟩
  | @wrote n _ some_ answered stages' =>
      have noted := events_of_note answered
      have fits := (stream.recorded .a).write_fits _ _ _ (congrArg Prod.fst answered)
      have length := stages.length
      refine ⟨⟨keeps.reads.write (notProduced noted), ⟨_, stages', ?_, ?_⟩,
        later_of_noted keeps.later noted⟩, ?_⟩
      · rw [noted, Relay.accepted_concat, List.append_assoc]
        show _ ++ (staged.take n ++ staged.drop n) = _
        rw [List.take_append_drop]
        exact account
      · intro now
        exact absurd (clean now) some_
      · intro progress
        have positive := progress.recorded .a _ _ _ some_ (congrArg Prod.fst answered)
        dsimp only at length
        simp only [sendVariant]
        omega
  | failed answered | pending answered =>
      have noted := events_of_note answered
      refine ⟨⟨keeps.reads.write (notProduced noted), ⟨staged, stages, ?_, clean⟩,
        later_of_noted keeps.later noted⟩, staged, _, keeps.later, noted⟩
      rw [noted, Relay.accepted_concat]
      exact (congrArg (· ++ staged) (List.append_nil _)).trans account

theorem send_keeps {safe : Calling (Recorded ω) → Prop} {fuel : Nat}
    (keeps : Keeps earlier ps taken flushed s)
    (enough : (∀ t, Keeps earlier ps taken flushed t → safe t) ∨ WritesSome stream ∧
      BUFFER_SIZE < fuel) :
    (send fuel (stream.recorded .a)).Meets s safe (AfterSend earlier ps taken flushed) := by
  refine Exec.Meets.loop_variant (Keeps earlier ps taken flushed) sendVariant
    (WritesSome stream) ?_ keeps ?_
  · intro t kept
    refine (sendTurn_keeps kept).mono (fun _ h => h) fun ended _ does => ?_
    cases ended with
    | none => exact does
    | some answer => exact does
  · rcases enough with always | ⟨progress, less⟩
    · exact .inl always
    · obtain ⟨staged, stages, -⟩ := keeps.writes
      have inside := stages.inside
      exact .inr ⟨progress, by rw [sendVariant]; omega⟩

theorem Keeps.mono {flushed' : Prop} (keeps : Keeps earlier ps taken flushed s)
    (h : flushed' → flushed) : Keeps earlier ps taken flushed' s := by
  obtain ⟨reads, ⟨staged, stages, account, clean⟩, later⟩ := keeps
  exact ⟨reads, ⟨staged, stages, account, fun now => clean (h now)⟩, later⟩

/-- The frames that an answer added to those that were taken. -/
def Answer.frame (answer : Answer) : Bytes := frames answer.message?.toList

/-- What an answer has to do with the calls made underneath since the earlier
ones. A message is taken or refused for the length of its frame; else its write
has failed or was put off as the last write underneath was. -/
inductive Answered (earlier now : List IoEvent) : Answer → Prop
  | took {buf : Bytes} {source : SocketAddr} (fits : (frameOf buf source).length ≤ BUFFER_SIZE) :
      Answered earlier now (.write buf source (.ready (.ok ())))
  | refused {buf : Bytes} {source : SocketAddr}
      (large : BUFFER_SIZE < (frameOf buf source).length) :
      Answered earlier now (.write buf source
        (.ready (.error (frameTooLarge (frameOf buf source).length BUFFER_SIZE))))
  | failed {buf offered : Bytes} {source : SocketAddr} {e : IoError}
      (last : EndsWith earlier now (.write offered (.ready (.error e)))) :
      Answered earlier now (.write buf source (.ready (.error e)))
  | putOff {buf offered : Bytes} {source : SocketAddr}
      (last : EndsWith earlier now (.write offered .pending)) :
      Answered earlier now (.write buf source .pending)
  | read (answer : Poll (IoResult Packet)) (isEof : Bool) :
      Answered earlier now (.read answer isEof)
  | flush (answer : Poll (IoResult Unit)) : Answered earlier now (.flush answer)
  | shutdown (answer : Poll (IoResult Unit)) : Answered earlier now (.shutdown answer)

theorem Answered.of_isPrefix {earlier' now : List IoEvent} {answer : Answer}
    (h : Answered earlier now answer) (front : earlier' <+: earlier) :
    Answered earlier' now answer := by
  cases h with
  | took fits => exact .took fits
  | refused large => exact .refused large
  | failed last =>
      obtain ⟨before, later, same⟩ := last
      exact .failed ⟨before, front.trans later, same⟩
  | putOff last =>
      obtain ⟨before, later, same⟩ := last
      exact .putOff ⟨before, front.trans later, same⟩
  | read answer isEof => exact .read answer isEof
  | flush answer => exact .flush answer
  | shutdown answer => exact .shutdown answer

/-- What a call that has returned leaves. -/
structure AfterCall (earlier : List IoEvent) (ps : List Packet) (taken : Bytes) (answer : Answer)
    (s : Calling (Recorded ω)) : Prop where
  keeps : Keeps earlier (ps ++ answer.packet?.toList) (taken ++ answer.frame)
    (answer = .flush (.ready (.ok ()))) s
  answered : Answered earlier (events s.2) answer

/-- An answer that returned no packet and took no message. -/
theorem afterCall_idle {answer : Answer} (keeps : Keeps earlier ps taken flushed s)
    (packet : answer.packet? = none) (message : answer.message? = none)
    (clean : answer = .flush (.ready (.ok ())) → flushed)
    (answered : Answered earlier (events s.2) answer) : AfterCall earlier ps taken answer s := by
  refine ⟨?_, answered⟩
  rw [packet, Answer.frame, message]
  exact (List.append_nil ps).symm ▸ (List.append_nil taken).symm ▸ keeps.mono clean

theorem pollWrite_keeps {safe : Calling (Recorded ω) → Prop} {fuel : Nat} {buf : Bytes}
    {source : SocketAddr} (keeps : Keeps earlier ps taken flushed s)
    (enough : (∀ t, Keeps earlier ps taken flushed t → safe t) ∨ WritesSome stream ∧
      BUFFER_SIZE < fuel) :
    (pollWriteSourcedMessage fuel (stream.recorded .a) buf source).Meets s safe fun answer =>
      AfterCall earlier ps taken (.write buf source answer) := by
  refine (send_keeps keeps enough).bind fun answer t sent => ?_
  rcases answer with _ | e | _
  · obtain ⟨kept, offered, last⟩ := sent
    exact Exec.meets_pure (afterCall_idle kept rfl rfl nofun (.putOff last))
  · obtain ⟨kept, offered, last⟩ := sent
    exact Exec.meets_pure (afterCall_idle kept rfl rfl nofun (.failed last))
  · obtain ⟨this, w⟩ := t
    obtain ⟨kept, rewound⟩ := sent
    obtain ⟨staged, stages, account, clean⟩ := kept.writes
    obtain rfl := clean trivial
    rcases stage_does (w := w) stages rewound buf source with
      ⟨large, ran⟩ | ⟨fits, writeBuf, ran, stages'⟩
    · exact .of_returned ran (afterCall_idle kept rfl rfl nofun (.refused large))
    · refine .of_returned ran ⟨⟨?_, ⟨_, stages', ?_, nofun⟩, kept.later⟩, .took fits⟩
      · exact (List.append_nil ps).symm ▸ kept.reads.write rfl
      · rw [← account, List.append_nil]
        simp [Answer.frame, Answer.message?, frames]

/-- A call underneath that is neither a read nor a write. -/
theorem Keeps.call {event : Poll (IoResult Unit) → IoEvent} {answer : Poll (IoResult Unit)}
    (keeps : Keeps earlier ps taken flushed (this, w))
    (noted : events w' = events w ++ [event answer])
    (read : bytesRead (event answer) = []) (written : bytesWritten (event answer) = []) :
    Keeps earlier ps taken flushed (this, w') := by
  obtain ⟨staged, stages, account, clean⟩ := keeps.writes
  refine ⟨keeps.reads.write ?_, ⟨staged, stages, ?_, clean⟩, later_of_noted keeps.later noted⟩
  · rw [noted, Relay.produced_concat, read, List.append_nil]
  · rw [noted, Relay.accepted_concat, written, List.append_nil]
    exact account

/-- What a flush leaves. -/
def AfterFlush (earlier : List IoEvent) (ps : List Packet) (taken : Bytes) (flushed : Prop) :
    Poll (IoResult Unit) → Calling (Recorded ω) → Prop
  | .ready (.ok ()), s => Keeps earlier ps taken True s
  | _, s => Keeps earlier ps taken flushed s

theorem pollFlush_keeps {safe : Calling (Recorded ω) → Prop} {fuel : Nat}
    (keeps : Keeps earlier ps taken flushed s)
    (enough : (∀ t, Keeps earlier ps taken flushed t → safe t) ∨ WritesSome stream ∧
      BUFFER_SIZE < fuel) :
    (pollFlushMessage fuel (stream.recorded .a)).Meets s safe
      (AfterFlush earlier ps taken flushed) := by
  refine (send_keeps keeps enough).bind fun answer t sent => ?_
  rcases answer with _ | e | _
  · exact Exec.meets_pure (show Keeps earlier ps taken flushed t from sent.1)
  · exact Exec.meets_pure (show Keeps earlier ps taken flushed t from sent.1)
  · obtain ⟨this, w⟩ := t
    rcases answered : (stream.recorded .a).pollFlush w with ⟨answer, w'⟩
    have kept : Keeps earlier ps taken True (this, w') :=
      sent.1.call (events_of_note answered) rfl rfl
    refine .of_returned (a := answer) (t := (this, w')) (by simp only [answered]) ?_
    rcases answer with _ | e | _
    · exact kept.mono fun _ => trivial
    · exact kept.mono fun _ => trivial
    · exact kept

theorem pollShutdown_keeps {safe : Calling (Recorded ω) → Prop} {fuel : Nat}
    (keeps : Keeps earlier ps taken flushed s)
    (enough : (∀ t, Keeps earlier ps taken flushed t → safe t) ∨ WritesSome stream ∧
      BUFFER_SIZE < fuel) :
    (pollShutdownMessage fuel (stream.recorded .a)).Meets s safe fun _ =>
      Keeps earlier ps taken flushed := by
  refine (pollFlush_keeps keeps enough).bind fun answer t flushed_ => ?_
  rcases answer with _ | e | _
  · exact Exec.meets_pure flushed_
  · exact Exec.meets_pure flushed_
  · obtain ⟨this, w⟩ := t
    have kept : Keeps earlier ps taken True (this, w) := flushed_
    have noted : events ((stream.recorded .a).pollShutdown w).2 =
        events w ++ [.shutdown ((stream.recorded .a).pollShutdown w).1] := events_of_note rfl
    exact .of_returned rfl ((kept.call noted rfl rfl).mono fun _ => trivial)

/-- Every call keeps both accounts. -/
theorem call_keeps {safe : Calling (Recorded ω) → Prop} {fuel : Nat} (op : Op)
    (keeps : Keeps earlier ps taken flushed s)
    (enough : (∀ t, Keeps earlier ps taken flushed t → safe t) ∨ WritesSome stream ∧
      BUFFER_SIZE < fuel) :
    (call (stream.recorded .a) fuel op).Meets s safe (AfterCall earlier ps taken) := by
  cases op with
  | read =>
      refine (pollRead_keeps keeps (enough.imp id And.right)).bind fun answer t after => ?_
      refine .of_returned rfl ⟨?_, .read _ _⟩
      rw [Answer.frame]
      exact (List.append_nil taken).symm ▸ Keeps.mono after nofun
  | write buf source =>
      exact (pollWrite_keeps keeps enough).bind fun answer t after => Exec.meets_pure after
  | flush =>
      refine (pollFlush_keeps keeps enough).bind fun answer t after => Exec.meets_pure ?_
      rcases answer with _ | e | _
      · exact afterCall_idle after rfl rfl nofun (.flush _)
      · exact afterCall_idle after rfl rfl nofun (.flush _)
      · exact afterCall_idle after rfl rfl (fun _ => trivial) (.flush _)
  | shutdown =>
      refine (pollShutdown_keeps keeps enough).bind fun answer t after => Exec.meets_pure ?_
      exact afterCall_idle after rfl rfl nofun (.shutdown _)

/-! ## Runs -/

/-- Every answer with the calls that were made underneath for it. -/
inductive AllAnswered : List IoEvent → List Answer → Prop
  | start : AllAnswered [] []
  | answered {earlier now : List IoEvent} {answers : List Answer} {answer : Answer} :
      AllAnswered earlier answers → earlier <+: now → Answered earlier now answer →
      AllAnswered now (answers ++ [answer])

/-- Each answer of a run was given for some of its calls. -/
theorem AllAnswered.of_mem {now : List IoEvent} {answers : List Answer} {answer : Answer}
    (h : AllAnswered now answers) (mem : answer ∈ answers) :
    ∃ earlier then_, then_ <+: now ∧ Answered earlier then_ answer := by
  induction h with
  | start => cases mem
  | @answered earlier now answers last _ later answered ih =>
      rcases List.mem_append.mp mem with before | here
      · obtain ⟨earlier', then_, front, holds⟩ := ih before
        exact ⟨earlier', then_, front.trans later, holds⟩
      · obtain rfl := List.mem_singleton.mp here
        exact ⟨earlier, now, List.prefix_rfl, answered⟩

/-- The answers of a run by the calls underneath that they were given for, of
which a call that has not returned has made more. -/
def Attributed (s : Running (Recorded ω)) : Prop :=
  ∃ earlier, AllAnswered earlier s.2 ∧ earlier <+: events s.1.2

/-- Both accounts, by the answers of the run. -/
structure Serves (s : Running (Recorded ω)) : Prop where
  keeps : Keeps [] (packets s.2) (frames (messages s.2))
    (s.2.getLast? = some (.flush (.ready (.ok ())))) s.1
  attributed : Attributed s

theorem serves_start (readMemory writeMemory : Nat → UInt8) (world : ω) :
    Serves ((newUot readMemory writeMemory, Recorded.start world), []) where
  keeps :=
    { reads := ⟨0, [], [], SlideBuffer.holds_new _ _, .nil, rfl⟩
      writes := ⟨[], stages_newUot _ _, rfl, nofun⟩
      later := List.nil_prefix }
  attributed := ⟨[], .start, List.nil_prefix⟩

@[simp] theorem packets_concat (answers : List Answer) (answer : Answer) :
    packets (answers ++ [answer]) = packets answers ++ answer.packet?.toList :=
  filterMap_concat Answer.packet? answers answer

@[simp] theorem messages_concat (answers : List Answer) (answer : Answer) :
    messages (answers ++ [answer]) = messages answers ++ answer.message?.toList :=
  filterMap_concat Answer.message? answers answer

/-- The account of a run goes on from the calls that its answers were given for. -/
theorem Serves.keeps_now {s : Running (Recorded ω)} (serves : Serves s) :
    Keeps (events s.1.2) (packets s.2) (frames (messages s.2))
      (s.2.getLast? = some (.flush (.ready (.ok ())))) s.1 :=
  ⟨serves.keeps.reads, serves.keeps.writes, List.prefix_rfl⟩

/-- What has been kept since some calls were made, with the answers until then. -/
theorem Keeps.serves {answers : List Answer} (attributed : Attributed (s, answers))
    {t : Calling (Recorded ω)} {flushed : Prop}
    (keeps : Keeps (events s.2) (packets answers) (frames (messages answers)) flushed t)
    (clean : answers.getLast? = some (.flush (.ready (.ok ()))) → flushed) :
    Serves (t, answers) := by
  obtain ⟨earlier, all, before⟩ := attributed
  exact ⟨⟨keeps.reads, (keeps.mono clean).writes, List.nil_prefix⟩,
    earlier, all, before.trans keeps.later⟩

/-- What happens around the stream is not a call. -/
theorem Serves.around {answers : List Answer} {world : ω} {calls : List (Side × IoEvent)}
    (serves : Serves ((this, ⟨world, calls⟩), answers)) (world' : ω) :
    Serves ((this, ⟨world', calls⟩), answers) :=
  ⟨⟨serves.keeps.reads, serves.keeps.writes, List.nil_prefix⟩, serves.attributed⟩

theorem Serves.answered {answers : List Answer} {answer : Answer} (serves : Serves (s, answers))
    {t : Calling (Recorded ω)}
    (after : AfterCall (events s.2) (packets answers) (frames (messages answers)) answer t) :
    Serves (t, answers ++ [answer]) := by
  obtain ⟨earlier, all, before⟩ := serves.attributed
  refine ⟨⟨?_, ?_, List.nil_prefix⟩, events t.2, ?_, List.prefix_rfl⟩
  · rw [packets_concat]
    exact after.keeps.reads
  · rw [messages_concat, frames, List.flatMap_append]
    refine (after.keeps.mono fun last => ?_).writes
    simpa using last
  · exact all.answered (before.trans after.keeps.later) (after.answered.of_isPrefix before)

theorem calls_serve {safe : Running (Recorded ω) → Prop} (calls : List (Call ω))
    {s : Running (Recorded ω)} (serves : Serves s)
    (enough : (∀ t, Serves t → safe t) ∨ WritesSome stream ∧ ∀ c ∈ calls, BUFFER_SIZE < c.fuel) :
    (Exec.calls (call (stream.recorded .a)) (calls.map Asked.recorded)).Meets s safe
      fun _ => Serves := by
  refine Exec.Meets.calls _ ?_ ?_ serves
  · intro c mem this w answers kept
    obtain ⟨c, -, rfl⟩ := List.mem_map.mp mem
    exact kept.around _
  · intro c mem s answers kept
    obtain ⟨c, inCalls, rfl⟩ := List.mem_map.mp mem
    refine (call_keeps c.op kept.keeps_now ?_).mono (fun _ h => h) fun answer t => kept.answered
    refine enough.imp (fun always t kept' => always _ (kept'.serves kept.attributed id)) ?_
    rintro ⟨progress, fuel⟩
    exact ⟨progress, fuel c inCalls⟩

/-- A run of calls on a new stream. -/
def run (stream : AsyncStream ω) (readMemory writeMemory : Nat → UInt8) (world : ω)
    (calls : List (Call ω)) : Outcome Unit × Running (Recorded ω) :=
  Exec.calls (call (stream.recorded .a)) (calls.map Asked.recorded)
    ((newUot readMemory writeMemory, Recorded.start world), [])

theorem run_serves (stream : AsyncStream ω) (readMemory writeMemory : Nat → UInt8) (world : ω)
    (calls : List (Call ω)) : (run stream readMemory writeMemory world calls).1 ≠ .panicked ∧
      Serves (run stream readMemory writeMemory world calls).2 :=
  (calls_serve calls (serves_start readMemory writeMemory world) (.inl fun _ h => h)).always

/-- Every call returns, over a stream whose writes make progress. -/
theorem run_returns (readMemory writeMemory : Nat → UInt8) (world : ω) {calls : List (Call ω)}
    (progress : WritesSome stream) (fuel : ∀ c ∈ calls, BUFFER_SIZE < c.fuel) :
    (run stream readMemory writeMemory world calls).1 = .returned () := by
  have meets : (Exec.calls (call (stream.recorded .a)) (calls.map Asked.recorded)).Meets
      ((newUot readMemory writeMemory, Recorded.start world), []) (fun _ => False)
      fun _ => Serves :=
    calls_serve calls (serves_start readMemory writeMemory world) (.inr ⟨progress, fuel⟩)
  obtain ⟨_, _, ran, -⟩ := meets.total
  rw [run, ran]

/-- The packets that were returned are the first ones of the stream, and the read
buffer has what came after them. -/
structure ReadsSoundly (s : Running (Recorded ω)) : Prop where
  order : s.1.1.readBuf.start ≤ s.1.1.readBuf.end_
  inside : s.1.1.readBuf.end_ ≤ s.1.1.readBuf.data.length
  capacity : s.1.1.readBuf.data.length = BUFFER_SIZE
  parsed : ∃ consumed live, s.1.1.readBuf.asSlice = some live ∧ IsStream consumed (packets s.2) ∧
    produced (events s.1.2) = consumed ++ live
  first : ∀ more bytes ps, IsStream bytes ps → bytes <+: produced (events s.1.2) ++ more →
    (packets s.2).length ≤ ps.length → ps.take (packets s.2).length = packets s.2

/-- The answers of the parser stay when further bytes arrive. -/
structure StaysParsed (data : Bytes) : Prop where
  incomplete : parsePacket data = some (.ok none) → ∀ more frame p, IsFrame frame p →
    frame <+: data ++ more → data.length < frame.length
  complete : ∀ packet, parsePacket data = some (.ok (some packet)) →
    ∀ more, parsePacket (data ++ more) = some (.ok (some packet))
  invalid : ∀ e, parsePacket data = some (.error e) →
    ∀ more, parsePacket (data ++ more) = some (.error e)

theorem Serves.readsSoundly {s : Running (Recorded ω)} (serves : Serves s) : ReadsSoundly s := by
  obtain ⟨start, live, consumed, holds, is, account⟩ := serves.keeps.reads
  have inside := holds.inside
  refine ⟨?_, ?_, holds.allocated, ⟨consumed, live, holds.asSlice, is, account⟩, ?_⟩
  · rw [holds.starts, holds.ends]
    exact Nat.le_add_right _ _
  · rw [holds.ends, holds.allocated]
    exact inside
  · intro more bytes ps is' begins fewer
    refine is.first_packets is' ?_ begins fewer
    rw [account, List.append_assoc]
    exact List.prefix_append _ _

theorem staysParsed (data : Bytes) : StaysParsed data := by
  have parsed := parsedPacket data
  refine ⟨fun incomplete more frame p is begins => ?_, fun packet found more => ?_,
    fun e found => ?_⟩
  · exact length_lt_of_truncated incomplete is begins
  · rw [found] at parsed
    cases parsed with
    | @complete frame rest p payloadStart is begins ends payload =>
        obtain ⟨payloadStart', ends', -, again⟩ := parsePacket_append is (rest ++ more)
        rw [begins, List.append_assoc, again]
        have same : payloadStart' = payloadStart := by omega
        rw [same]
  · rw [found] at parsed
    cases parsed with
    | invalid stays => exact stays

/-- On every byte stream and at every moment of every run, reading neither panics
nor returns anything but the first packets of the stream. -/
theorem packet_reader_sound (stream : AsyncStream ω) (readMemory writeMemory : Nat → UInt8)
    (world : ω) (calls : List (Call ω)) :
    let after := run stream readMemory writeMemory world calls
    after.1 ≠ .panicked ∧ ReadsSoundly after.2 ∧ (∀ data, StaysParsed data) ∧
      (WritesSome stream → (∀ c ∈ calls, BUFFER_SIZE < c.fuel) → after.1 = .returned ()) := by
  obtain ⟨fine, serves⟩ := run_serves stream readMemory writeMemory world calls
  exact ⟨fine, serves.readsSoundly, staysParsed, run_returns readMemory writeMemory world⟩

theorem takesAll_arrivals : TakesAll (Arrivals.stream.recorded .a) where
  writes _ _ := rfl
  flushes _ := rfl

theorem writesSome_arrivals : WritesSome Arrivals.stream := by
  intro offered w n some_ answered
  obtain rfl : offered.length = n := Except.ok.inj (Poll.ready.inj answered)
  exact List.length_pos_iff.mpr some_

/-- Three bytes from 1.2.3.4:53, and the beginning of another frame. -/
def oneAndMore : Arrivals := [.piece [0x00, 1, 2, 3, 4, 0, 53, 0, 3, 7, 8, 9, 0x00, 1]]

def readOnce : List (Call Arrivals) := [⟨id, BUFFER_SIZE + 1, .read⟩]

theorem calls_readOnce (empty : this.readBuf.Holds BUFFER_SIZE 0 []) (open_ : this.isEof = false) :
    ∃ t, Exec.calls (call (Arrivals.stream.recorded .a)) (readOnce.map Asked.recorded)
        ((this, Recorded.start oneAndMore), []) =
      (.returned (), t, [.read (.ready (.ok ⟨locationOf (.v4 ⟨1, 2, 3, 4⟩ 53), [7, 8, 9]⟩))
        this.isEof]) := by
  have is : IsFrame (frameOf [7, 8, 9] (.v4 ⟨1, 2, 3, 4⟩ 53)) _ := isFrame_frameOf (by decide)
  have received : (Arrivals.stream.recorded .a).pollRead BUFFER_SIZE (Recorded.start oneAndMore) =
      (.ready (.ok (frameOf [7, 8, 9] (.v4 ⟨1, 2, 3, 4⟩ 53) ++ [0x00, 1])), _) := rfl
  obtain ⟨readBuf, ran, -⟩ := pollRead_first empty open_ received is
    (show 2 ≤ BUFFER_SIZE + 1 by decide)
  exact ⟨_, Exec.calls_cons (Exec.bind_of_returned ran) [] []⟩

/-- The first packet is returned while the second is still to come. -/
theorem packet_reader_sound_arrivals :
    let after := run Arrivals.stream (fun _ => 0) (fun _ => 0) oneAndMore readOnce
    WritesSome Arrivals.stream ∧ after.1 = .returned () ∧ ReadsSoundly after.2 ∧
      packets after.2.2 = [⟨locationOf (.v4 ⟨1, 2, 3, 4⟩ 53), [7, 8, 9]⟩] := by
  intro after
  obtain ⟨-, sound, -, returns⟩ := packet_reader_sound Arrivals.stream (fun _ => 0) (fun _ => 0)
    oneAndMore readOnce
  obtain ⟨t, ran⟩ := calls_readOnce (newUot_holds (fun _ => 0) fun _ => 0) rfl
  have whole : after = _ := ran
  refine ⟨writesSome_arrivals, returns writesSome_arrivals (by simp [readOnce]), sound, ?_⟩
  rw [whole]
  rfl

/-! ## The writer -/

/-- The bytes accepted are the frames of the messages that were taken, up to a
point, and all of them after a flush. A message with too long a frame is refused,
unless the bytes before it could not be sent yet. -/
structure WritesWhole (s : Running (Recorded ω)) : Prop where
  inOrder : accepted (events s.1.2) <+: frames (messages s.2)
  flushed : s.2.getLast? = some (.flush (.ready (.ok ()))) →
    accepted (events s.1.2) = frames (messages s.2)
  parses : ∀ buf source, (buf, source) ∈ messages s.2 → ∀ more, ∃ payloadStart,
    parsePacket (frameOf buf source ++ more) =
      some (.ok (some (locationOf source, payloadStart, buf.length))) ∧
    payloadStart + buf.length = (frameOf buf source).length ∧
    (frameOf buf source ++ more).slice payloadStart (payloadStart + buf.length) = some buf
  attributed : Attributed s
  tooLarge : ∀ buf source answer, BUFFER_SIZE < (frameOf buf source).length →
    .write buf source answer ∈ s.2 →
      answer = .ready (.error (frameTooLarge (frameOf buf source).length BUFFER_SIZE)) ∨
      (∃ e offered, answer = .ready (.error e) ∧
        .write offered (.ready (.error e)) ∈ events s.1.2) ∨
      answer = .pending ∧ ∃ offered, .write offered .pending ∈ events s.1.2

theorem mem_messages {answers : List Answer} {buf : Bytes} {source : SocketAddr} :
    (buf, source) ∈ messages answers ↔ .write buf source (.ready (.ok ())) ∈ answers := by
  rw [messages, List.mem_filterMap]
  constructor
  · rintro ⟨answer, mem, found⟩
    cases answer with
    | write buf' source' result =>
        rcases result with _ | e | _
        · cases found
        · cases found
        · cases found
          exact mem
    | read | flush | shutdown => cases found
  · intro mem
    exact ⟨_, mem, rfl⟩

theorem EndsWith.mem {now : List IoEvent} {event : IoEvent} (h : EndsWith earlier now event) :
    event ∈ now := by
  obtain ⟨before, -, rfl⟩ := h
  exact List.mem_append_right _ (List.mem_singleton_self event)

/-- The answer to a write, by the calls of the run. -/
theorem Serves.of_write {s : Running (Recorded ω)} (serves : Serves s) {buf : Bytes}
    {source : SocketAddr} {answer : Poll (IoResult Unit)} (mem : .write buf source answer ∈ s.2) :
    ∃ earlier now, now ⊆ events s.1.2 ∧ Answered earlier now (.write buf source answer) := by
  obtain ⟨last, all, before⟩ := serves.attributed
  obtain ⟨earlier, now, front, answered⟩ := all.of_mem mem
  exact ⟨earlier, now, (front.trans before).subset, answered⟩

theorem Serves.fits {s : Running (Recorded ω)} (serves : Serves s) {buf : Bytes}
    {source : SocketAddr} (mem : .write buf source (.ready (.ok ())) ∈ s.2) :
    (frameOf buf source).length ≤ BUFFER_SIZE := by
  obtain ⟨_, _, -, answered⟩ := serves.of_write mem
  cases answered with
  | took fits => exact fits

theorem Serves.writesWhole {s : Running (Recorded ω)} (serves : Serves s) : WritesWhole s := by
  obtain ⟨staged, stages, account, clean⟩ := serves.keeps.writes
  refine ⟨⟨staged, account⟩, ?_, ?_, serves.attributed, ?_⟩
  · intro last
    rw [← account, clean last, List.append_nil]
  · intro buf source mem more
    have fits := serves.fits (mem_messages.mp mem)
    have small : buf.length < 2 ^ 16 := by
      simp only [frameOf, List.length_append, BUFFER_SIZE] at fits
      omega
    obtain ⟨payloadStart, ends, payload, parsed⟩ := parsePacket_append (isFrame_frameOf small) more
    exact ⟨payloadStart, parsed, ends, payload⟩
  · intro buf source answer large mem
    obtain ⟨_, _, made, answered⟩ := serves.of_write mem
    cases answered with
    | took fits => exact absurd fits (Nat.not_le.mpr large)
    | refused => exact .inl rfl
    | failed last => exact .inr (.inl ⟨_, _, rfl, made last.mem⟩)
    | putOff last => exact .inr (.inr ⟨rfl, _, made last.mem⟩)

/-- The writer emits whole frames in order, at every moment of every run. -/
theorem packet_writer_whole (stream : AsyncStream ω) (readMemory writeMemory : Nat → UInt8)
    (world : ω) (calls : List (Call ω)) :
    let after := run stream readMemory writeMemory world calls
    after.1 ≠ .panicked ∧ WritesWhole after.2 ∧
      (WritesSome stream → (∀ c ∈ calls, BUFFER_SIZE < c.fuel) → after.1 = .returned ()) := by
  obtain ⟨fine, serves⟩ := run_serves stream readMemory writeMemory world calls
  exact ⟨fine, serves.writesWhole, run_returns readMemory writeMemory world⟩

/-- Two messages and a flush. -/
def writeTwoAndFlush : List (Call Arrivals) :=
  [⟨id, BUFFER_SIZE + 1, .write [7, 8, 9] (.v4 ⟨1, 2, 3, 4⟩ 53)⟩,
    ⟨id, BUFFER_SIZE + 1, .write [] (.v4 ⟨4, 3, 2, 1⟩ 256)⟩, ⟨id, BUFFER_SIZE + 1, .flush⟩]

theorem calls_writeTwoAndFlush {staged : Bytes} (stages : this.Stages staged) :
    ∃ t, Exec.calls (call (Arrivals.stream.recorded .a)) (writeTwoAndFlush.map Asked.recorded)
        ((this, Recorded.start []), []) =
      (.returned (), t, [.write [7, 8, 9] (.v4 ⟨1, 2, 3, 4⟩ 53) (.ready (.ok ())),
        .write [] (.v4 ⟨4, 3, 2, 1⟩ 256) (.ready (.ok ())), .flush (.ready (.ok ()))]) := by
  have enough : 2 ≤ BUFFER_SIZE + 1 := by decide
  have fits : (frameOf [7, 8, 9] (.v4 ⟨1, 2, 3, 4⟩ 53)).length ≤ BUFFER_SIZE := by decide
  have fits' : (frameOf [] (.v4 ⟨4, 3, 2, 1⟩ 256)).length ≤ BUFFER_SIZE := by decide
  obtain ⟨_, w, ran, stages⟩ := takesAll_arrivals.pollWrite (Recorded.start []) stages fits enough
  obtain ⟨_, w', ran', stages⟩ := takesAll_arrivals.pollWrite w stages fits' enough
  obtain ⟨_, w'', ran'', -⟩ := takesAll_arrivals.pollFlush w' stages enough
  exact ⟨_, (Exec.calls_cons (Exec.bind_of_returned ran) _ []).trans
    ((Exec.calls_cons (Exec.bind_of_returned ran') _ _).trans
      (Exec.calls_cons (Exec.bind_of_returned ran'') [] _))⟩

/-- What the calls answer. -/
def wroteTwo : List Answer :=
  [.write [7, 8, 9] (.v4 ⟨1, 2, 3, 4⟩ 53) (.ready (.ok ())),
    .write [] (.v4 ⟨4, 3, 2, 1⟩ 256) (.ready (.ok ())), .flush (.ready (.ok ()))]

/-- After these answers both frames have been accepted, and the first one is read
back. -/
theorem WritesWhole.readBack {t : Calling (Recorded ω)} (whole : WritesWhole (t, wroteTwo)) :
    accepted (events t.2) =
        [0x00, 1, 2, 3, 4, 0, 53, 0, 3, 7, 8, 9] ++ [0x00, 4, 3, 2, 1, 1, 0, 0, 0] ∧
      ∃ payloadStart, parsePacket (accepted (events t.2)) =
        some (.ok (some (locationOf (.v4 ⟨1, 2, 3, 4⟩ 53), payloadStart, 3))) := by
  have bytes : accepted (events t.2) = frames (messages PacketAddrStream.wroteTwo) :=
    whole.flushed rfl
  obtain ⟨payloadStart, parsed, -⟩ := whole.parses [7, 8, 9] (.v4 ⟨1, 2, 3, 4⟩ 53)
    List.mem_cons_self (frameOf [] (.v4 ⟨4, 3, 2, 1⟩ 256))
  refine ⟨bytes.trans (by decide), payloadStart, ?_⟩
  rw [bytes]
  exact parsed

/-- Both frames are accepted, and the first one is read back. -/
theorem packet_writer_whole_arrivals :
    let after := run Arrivals.stream (fun _ => 0) (fun _ => 0) [] writeTwoAndFlush
    WritesSome Arrivals.stream ∧ after.1 = .returned () ∧ WritesWhole after.2 ∧
      accepted (events after.2.1.2) =
        [0x00, 1, 2, 3, 4, 0, 53, 0, 3, 7, 8, 9] ++ [0x00, 4, 3, 2, 1, 1, 0, 0, 0] ∧
      ∃ payloadStart, parsePacket (accepted (events after.2.1.2)) =
        some (.ok (some (locationOf (.v4 ⟨1, 2, 3, 4⟩ 53), payloadStart, 3))) := by
  intro after
  obtain ⟨-, whole, returns⟩ := packet_writer_whole Arrivals.stream (fun _ => 0) (fun _ => 0) []
    writeTwoAndFlush
  obtain ⟨t, done⟩ : ∃ t, after = (.returned (), t, wroteTwo) :=
    calls_writeTwoAndFlush (stages_newUot (fun _ => 0) fun _ => 0)
  refine ⟨writesSome_arrivals, returns writesSome_arrivals (by simp [writeTwoAndFlush]), whole, ?_⟩
  change WritesWhole after.2 at whole
  rw [done] at whole ⊢
  exact whole.readBack

end PacketAddrStream

end RustProxy.MessageStream
