import RustProxy.MessageStream.Arrivals
import RustProxy.MessageStream.VlessCalls

/-!
# Messages come through a length-prefixed stream

The writing side is any run of calls over any stream underneath; the reading side
is given the bytes that were accepted there, cut into reads in any way. After a
flush the reader returns the messages that were taken, all of them and in order,
and it comes to the end of the stream only behind the last one.
-/

namespace RustProxy.MessageStream.VlessMessageStream

open Prefixed
open Relay (produced accepted EofSeen)

variable {ω : Type}

/-! ## Runs of calls -/

/-- Both accounts, by the answers of the run. -/
structure Serves (s : Running (Recorded ω)) : Prop where
  keeps : Keeps (returned s.2) (ended s.2) (encodeAll 2 (taken s.2))
    (s.2.getLast? = some (.flush (.ready (.ok ())))) [] s.1
  explained : ∀ answer ∈ s.2, answer.Explained (events s.1.2)
  fits : ∀ m ∈ taken s.2, m.length ≤ 65535

theorem serves_start (memory : Nat → UInt8) (world : ω) :
    Serves ((new memory, Recorded.start world), []) where
  keeps :=
    { reads := ⟨[], holds_new memory, nofun, rfl, rfl, nofun, iff_of_false nofun nofun⟩
      writes := ⟨Nat.le_refl _, Nat.zero_le _, rfl, nofun⟩
      seen := List.nil_subset _ }
  explained := nofun
  fits := nofun

theorem Answer.Explained.mono {calls calls' : List IoEvent} {answer : Answer}
    (more : calls ⊆ calls') (explained : answer.Explained calls) : answer.Explained calls' := by
  have failed {e : IoError} : Failed calls e → Failed calls' e
    | ⟨event, mem, found⟩ => ⟨event, more mem, found⟩
  rcases answer with ⟨_ | e | _, isEof⟩ | ⟨buf, _ | e | _⟩ | (_ | e | _) | (_ | e | _)
  case read.ready.error | write.ready.error => exact explained.imp failed id
  case flush.ready.error | shutdown.ready.error => exact failed explained
  all_goals trivial

@[simp] theorem taken_concat (answers : List Answer) (answer : Answer) :
    taken (answers ++ [answer]) = taken answers ++ answer.taken?.toList :=
  filterMap_concat Answer.taken? answers answer

@[simp] theorem returned_concat (answers : List Answer) (answer : Answer) :
    returned (answers ++ [answer]) = returned answers ++ answer.returned?.toList :=
  filterMap_concat Answer.returned? answers answer

@[simp] theorem ended_concat (answers : List Answer) (answer : Answer) :
    ended (answers ++ [answer]) = (ended answers).or answer.end? := by
  rw [ended, List.findSome?_append]
  cases found : answer.end? <;> simp [ended, found]

theorem Serves.answered {s t : Calling (Recorded ω)} {answers : List Answer} {answer : Answer}
    (serves : Serves (s, answers))
    (after : AfterCall (returned answers) (ended answers) (encodeAll 2 (taken answers))
      (events s.2) answer t) : Serves (t, answers ++ [answer]) := by
  have keeps := after.keeps
  refine ⟨⟨?_, ?_, List.nil_subset _⟩, ?_, ?_⟩
  · rw [returned_concat, ended_concat]
    exact keeps.reads
  · rw [taken_concat, encodeAll, List.flatMap_append]
    refine (keeps.mono fun last => .inl ?_).writes
    simpa using last
  · intro answer' mem
    rcases List.mem_append.mp mem with earlier | last
    · exact (serves.explained answer' earlier).mono keeps.seen
    · obtain rfl := List.mem_singleton.mp last
      exact after.explained
  · intro m mem
    rw [taken_concat] at mem
    rcases List.mem_append.mp mem with earlier | last
    · exact serves.fits m earlier
    · exact after.fits m (Option.mem_toList.mp last)

theorem Serves.keeps_seen {s : Running (Recorded ω)} (serves : Serves s) :
    Keeps (returned s.2) (ended s.2) (encodeAll 2 (taken s.2))
      (s.2.getLast? = some (.flush (.ready (.ok ())))) (events s.1.2) s.1 :=
  ⟨serves.keeps.reads, serves.keeps.writes, List.Subset.refl _⟩

variable {stream : AsyncStream ω}

theorem calls_serve {safe : Running (Recorded ω) → Prop} (calls : List (Call ω))
    {s : Running (Recorded ω)} (serves : Serves s)
    (enough : (∀ t, Serves t → safe t) ∨ ∀ c ∈ calls, READ_SIZE < c.fuel) :
    (Exec.calls (call (stream.recorded .a)) (calls.map Asked.recorded)).Meets s safe
      fun _ => Serves := by
  refine Exec.Meets.calls _ ?_ ?_ serves
  · intro c mem this w answers kept
    obtain ⟨c, -, rfl⟩ := List.mem_map.mp mem
    exact ⟨kept.keeps.of_events rfl, kept.explained, kept.fits⟩
  · intro c mem s answers kept
    obtain ⟨c, inCalls, rfl⟩ := List.mem_map.mp mem
    refine (call_keeps c.op kept.keeps_seen ?_).mono (fun _ h => h) fun answer t => kept.answered
    rcases enough with always | fuel
    · refine .inl fun t kept' => always _ ⟨?_, ?_, kept.fits⟩
      · exact ⟨kept'.reads, kept'.writes, List.nil_subset _⟩
      · exact fun answer mem => (kept.explained answer mem).mono kept'.seen
    · exact .inr (fuel c inCalls)

/-- A run of calls on a new stream. -/
def run (stream : AsyncStream ω) (memory : Nat → UInt8) (world : ω) (calls : List (Call ω)) :
    Outcome Unit × Running (Recorded ω) :=
  Exec.calls (call (stream.recorded .a)) (calls.map Asked.recorded)
    ((new memory, Recorded.start world), [])

theorem run_serves (stream : AsyncStream ω) (memory : Nat → UInt8) (world : ω)
    (calls : List (Call ω)) :
    (run stream memory world calls).1 ≠ .panicked ∧ Serves (run stream memory world calls).2 :=
  (calls_serve calls (serves_start memory world) (.inl fun _ h => h)).always

theorem run_returns (memory : Nat → UInt8) (world : ω) {calls : List (Call ω)}
    (fuel : ∀ c ∈ calls, READ_SIZE < c.fuel) :
    (run stream memory world calls).1 = .returned () := by
  have meets : (Exec.calls (call (stream.recorded .a)) (calls.map Asked.recorded)).Meets
      ((new memory, Recorded.start world), []) (fun _ => False) fun _ => Serves :=
    calls_serve calls (serves_start memory world) (.inr fuel)
  obtain ⟨_, _, ran, -⟩ := meets.total
  rw [run, ran]

/-- What reading has come to: the messages returned are those that begin the
bytes received, and the end of the stream was reported as an error exactly when it
fell strictly inside a message. -/
structure ReadsWhole (s : Running (Recorded ω)) : Prop where
  first : ∃ live, produced (events s.1.2) = encodeAll 2 (returned s.2) ++ live
  eof : (ended s.2).isSome ↔ EofSeen (events s.1.2)
  cut : ∀ answer, ended s.2 = some answer →
    (answer = .ready (.error eofInMessage) ↔ CutsMessage 2 (produced (events s.1.2))) ∧
    (answer = .ready (.ok []) ↔ ¬CutsMessage 2 (produced (events s.1.2)))

theorem Serves.readsWhole {s : Running (Recorded ω)} (serves : Serves s) : ReadsWhole s := by
  obtain ⟨live, reads⟩ := serves.keeps.reads
  refine ⟨⟨live, reads.account⟩, ?_, ?_⟩
  · rw [← reads.eof, reads.ended]
    cases s.1.1.isEof with
    | false => exact iff_of_false nofun nofun
    | true => exact iff_of_true rfl rfl
  · intro answer found
    have same := reads.ended
    rw [found] at same
    cases open_ : s.1.1.isEof with
    | false =>
        rw [open_] at same
        cases same
    | true =>
        rw [open_] at same
        obtain rfl := Option.some.inj same
        rw [reads.account, cutsMessage_iff reads.fits (reads.cut open_), endAnswer]
        by_cases empty : live = []
        · simp [empty]
        · simp [empty]

/-! ## Reading what arrives -/

/-- The read buffer and what is still to arrive are the messages that were not
returned yet. -/
structure Feeding (ms : List Bytes) (s : Calling Arrivals) : Prop where
  holds : ∃ live, s.1.Holds live ∧ live ++ s.2.bytes = encodeAll 2 ms
  fits : ∀ m ∈ ms, Fits 2 m
  open_ : s.1.isEof = false
  delivers : s.2.Delivers

/-- What a read can return: the next message, or the end behind the last one. -/
def FeedDoes (ms : List Bytes) (s : Calling Arrivals) :
    Poll (IoResult Bytes) → Calling Arrivals → Prop
  | .pending, t => Feeding ms t ∧ t.2.length < s.2.length
  | .ready (.ok m), t =>
      (∃ later, ms = m :: later ∧ Feeding later t ∧ t.2.length ≤ s.2.length) ∨
        ms = [] ∧ t.1.isEof = true
  | .ready (.error _), _ => False

variable {ms : List Bytes} {s : Calling Arrivals}

theorem readTurn_feeds (feeding : Feeding ms s) :
    (readTurn Arrivals.stream 65535).Meets s (fun _ => False) fun
      | some answer => FeedDoes ms s answer
      | none => fun t => (Feeding ms t ∧ t.2.length ≤ s.2.length) ∧
          (True → readVariant t < readVariant s) := by
  obtain ⟨this, src⟩ := s
  obtain ⟨⟨live, holds, account⟩, fits, open_, delivers⟩ := feeding
  obtain ⟨answer, this', src', ran, does⟩ : ∃ answer this' src', readTurn Arrivals.stream 65535
      (this, src) = (.returned answer, this', src') ∧
      TurnDoes Arrivals.stream 65535 live this src answer this' src' := readTurn_does holds
  refine .of_returned ran ?_
  have reads (incomplete : Incomplete 2 live) :=
    Arrivals.readsOn delivers (Nat.sub_pos_of_lt (length_lt_of_incomplete incomplete))
  cases does with
  | @message m rest _ _ fits' begins _ holds' =>
      subst begins
      rw [List.append_assoc] at account
      cases ms with
      | nil =>
          have short := congrArg List.length account
          rw [List.length_append, length_encode] at short
          exact absurd short (by simp [encodeAll])
      | cons m' later =>
          obtain ⟨rfl, behind⟩ := encode_unique fits' (fits m' List.mem_cons_self) account
          refine .inl ⟨later, rfl, ⟨⟨rest, holds', behind⟩, ?_, open_, delivers⟩, Nat.le_refl _⟩
          exact fun m mem => fits m (List.mem_cons_of_mem _ mem)
  | tooSmall fits' _ space =>
      rw [Fits] at fits'
      omega
  | received incomplete answered some_ holds' =>
      have reads := reads incomplete
      rw [answered] at reads
      cases reads with
      | bytes _ split shorter rest =>
          refine ⟨⟨⟨⟨_, holds', ?_⟩, fits, open_, rest⟩, shorter⟩, fun _ => ?_⟩
          · rw [List.append_assoc, ← split]
            exact account
          · exact readVariant_lt holds some_ holds'
      | end_ => exact absurd rfl some_
  | eof incomplete answered =>
      have reads := reads incomplete
      rw [answered] at reads
      cases reads with
      | bytes some_ => exact absurd rfl some_
      | end_ ended =>
          -- what is left in the buffer is all that is to come
          rw [show src = [] from ended] at account
          have whole : live = encodeAll 2 ms := (List.append_nil live).symm.trans account
          cases ms with
          | nil =>
              rw [if_pos (show live = [] from whole)]
              exact .inr ⟨rfl, rfl⟩
          | cons m later =>
              rw [whole, encodeAll_cons] at incomplete
              exact absurd incomplete (not_incomplete_encode (fits m List.mem_cons_self))
  | failed incomplete answered =>
      have reads := reads incomplete
      rw [answered] at reads
      cases reads
  | pending incomplete answered =>
      have reads := reads incomplete
      rw [answered] at reads
      cases reads with
      | pending same shorter rest =>
          refine ⟨⟨⟨live, holds, ?_⟩, fits, open_, rest⟩, shorter⟩
          rw [← same]
          exact account

theorem FeedDoes.of_later {t u : Calling Arrivals} {answer : Poll (IoResult Bytes)}
    (fewer : t.2.length ≤ s.2.length) (does : FeedDoes ms t answer u) : FeedDoes ms s answer u := by
  rcases answer with _ | e | m
  · exact ⟨does.1, Nat.lt_of_lt_of_le does.2 fewer⟩
  · exact does
  · rcases does with ⟨later, next, feeding, fewer'⟩ | ended
    · exact .inl ⟨later, next, feeding, fewer'.trans fewer⟩
    · exact .inr ended

theorem pollRead_feeds (feeding : Feeding ms s) {fuel : Nat} (enough : READ_SIZE < fuel) :
    (pollReadMessage fuel Arrivals.stream 65535).Meets s (fun _ => False) (FeedDoes ms s) := by
  unfold Exec.Meets
  rw [pollRead_eq_loop feeding.open_]
  refine Exec.Meets.loop_variant (fun t => Feeding ms t ∧ t.2.length ≤ s.2.length) readVariant True
    ?_ ⟨feeding, Nat.le_refl _⟩ (.inr ⟨trivial, Nat.lt_of_le_of_lt (Nat.sub_le _ _) enough⟩)
  rintro t ⟨feeding', fewer⟩
  refine (readTurn_feeds feeding').mono (fun _ h => h) fun ended u does => ?_
  cases ended with
  | some answer => exact does.of_later fewer
  | none => exact ⟨⟨does.1.1, does.1.2.trans fewer⟩, does.2⟩

/-- A read with enough fuel to return. -/
def readCall : Call Arrivals := ⟨id, READ_SIZE + 1, .read⟩

def readsFrom (n : Nat) (s : Running Arrivals) : Outcome Unit × Running Arrivals :=
  Exec.again (call Arrivals.stream) readCall n s

/-- Where a run of reads has come to: some messages were returned, and the others
are to come. -/
structure At (ms : List Bytes) (s : Running Arrivals) (rest : List Bytes) : Prop where
  account : ms = returned s.2 ++ rest
  noError : ∀ e isEof, .read (.ready (.error e)) isEof ∉ s.2
  feeding : Feeding rest s.1 ∨ rest = [] ∧ s.1.1.isEof = true

theorem at_start (memory : Nat → UInt8) {src : Arrivals} (fits : ∀ m ∈ ms, Fits 2 m)
    (delivers : src.Delivers) (split : src.bytes = encodeAll 2 ms) :
    At ms ((new memory, src), []) ms where
  account := rfl
  noError := nofun
  feeding := .inl ⟨⟨[], holds_new memory, split⟩, fits, rfl, delivers⟩

theorem At.concat {rest rest' : List Bytes} {t : Calling Arrivals} {answers : List Answer}
    {answer : Poll (IoResult Bytes)} (at_ : At ms (s, answers) rest)
    (fine : ∀ e, answer ≠ .ready (.error e))
    (next : rest = (Answer.read answer t.1.isEof).returned?.toList ++ rest')
    (feeding : Feeding rest' t ∨ rest' = [] ∧ t.1.isEof = true) :
    At ms (t, answers ++ [.read answer t.1.isEof]) rest' where
  account := by
    rw [returned_concat, List.append_assoc, ← next]
    exact at_.account
  noError e isEof mem := by
    rcases List.mem_append.mp mem with earlier | last
    · exact at_.noError e isEof earlier
    · cases List.mem_singleton.mp last
      exact fine e rfl
  feeding := feeding

/-- One read more returns, and brings the reader nearer to the end. -/
theorem At.read {rest : List Bytes} {answers : List Answer} (at_ : At ms (s, answers) rest) :
    ∃ answer t, call Arrivals.stream readCall.fuel readCall.op (s.1, readCall.meanwhile s.2) =
        (.returned answer, t) ∧
      ∃ rest', At ms (t, answers ++ [answer]) rest' ∧
        (rest ≠ [] → rest'.length + t.2.length < rest.length + s.2.length) := by
  rcases at_.feeding with feeding | ⟨rfl, eof⟩
  · obtain ⟨answer, t, ran, does⟩ := (pollRead_feeds feeding (Nat.lt_succ_self _)).total
    refine ⟨.read answer t.1.isEof, t, Exec.bind_of_returned ran, ?_⟩
    rcases answer with _ | e | m
    · obtain ⟨feeding', shorter⟩ := does
      exact ⟨rest, at_.concat nofun rfl (.inl feeding'), fun _ => Nat.add_lt_add_left shorter _⟩
    · exact does.elim
    · rcases does with ⟨later, rfl, feeding', fewer⟩ | ⟨rfl, eof⟩
      · refine ⟨later, at_.concat nofun ?_ (.inl feeding'), fun _ => ?_⟩
        · rw [feeding'.open_]
          rfl
        · exact Nat.add_lt_add_of_lt_of_le (Nat.lt_succ_self _) fewer
      · refine ⟨[], at_.concat nofun ?_ (.inr ⟨rfl, eof⟩), fun some_ => absurd rfl some_⟩
        rw [eof]
        rfl
  · have told : pollReadMessage (READ_SIZE + 1) Arrivals.stream 65535 s = (.returned _, s) :=
      if_pos eof
    refine ⟨.read _ s.1.isEof, s, Exec.bind_of_returned told, [],
      at_.concat nofun ?_ (.inr ⟨rfl, eof⟩), fun some_ => absurd rfl some_⟩
    rw [eof]
    rfl

theorem At.reads {rest : List Bytes} {r : Running Arrivals} (at_ : At ms r rest) (n : Nat) :
    (readsFrom n r).1 = .returned () ∧ ∃ rest', At ms (readsFrom n r).2 rest' := by
  refine Exec.again_always (fun r => ∃ rest, At ms r rest) ?_ ⟨rest, at_⟩ n
  rintro s w answers ⟨rest, at_⟩
  obtain ⟨answer, t, ran, rest', at', -⟩ := at_.read
  exact ⟨answer, t, ran, rest', at'⟩

/-- Enough reads return all messages. -/
theorem At.reads_all {rest : List Bytes} {r : Running Arrivals} (at_ : At ms r rest) :
    ∃ n, returned (readsFrom n r).2.2 = ms := by
  refine Exec.again_reaches (fun r : Running Arrivals => returned r.2 = ms)
    (fun m r => ∃ rest, At ms r rest ∧ rest.length + r.1.2.length = m) ?_ ⟨rest, at_, rfl⟩
  rintro _ s w answers ⟨rest, at_, rfl⟩
  by_cases none_ : rest = []
  · subst none_
    exact .inl (at_.account.trans (List.append_nil _)).symm
  · obtain ⟨answer, t, ran, rest', at', nearer⟩ := at_.read
    exact .inr ⟨answer, t, ran, _, nearer none_, rest', at', rfl⟩

/-- Successive reads return the messages in order, all of them and without an
error, and the end of the stream only behind them. -/
structure ReturnsAll (ms : List Bytes) (r : Running Arrivals) : Prop where
  inOrder : ∀ n, (readsFrom n r).1 = .returned () ∧ returned (readsFrom n r).2.2 <+: ms
  noError : ∀ n e isEof, .read (.ready (.error e)) isEof ∉ (readsFrom n r).2.2
  all : ∃ n, returned (readsFrom n r).2.2 = ms
  behind : ∀ n, (readsFrom n r).2.1.1.isEof = true → returned (readsFrom n r).2.2 = ms

theorem returnsAll (memory : Nat → UInt8) {src : Arrivals} (fits : ∀ m ∈ ms, Fits 2 m)
    (delivers : src.Delivers) (split : src.bytes = encodeAll 2 ms) :
    ReturnsAll ms ((new memory, src), []) := by
  have start := at_start memory fits delivers split
  refine ⟨fun n => ?_, fun n => ?_, start.reads_all, fun n ended => ?_⟩
  · obtain ⟨ran, rest, at_⟩ := start.reads n
    exact ⟨ran, rest, at_.account.symm⟩
  · obtain ⟨-, rest, at_⟩ := start.reads n
    exact at_.noError
  · obtain ⟨-, rest, at_⟩ := start.reads n
    rcases at_.feeding with feeding | ⟨rfl, -⟩
    · exact absurd (feeding.open_.symm.trans ended) Bool.false_ne_true
    · exact (at_.account.trans (List.append_nil _)).symm

/-- Messages that were taken come through as they are, however the bytes are cut
on the way; on every inbound stream reading neither panics nor fails for a reason
of its own, unless the stream ends strictly inside a message. -/
theorem messages_come_through (stream : AsyncStream ω) (memory : Nat → UInt8) (world : ω)
    (calls : List (Call ω)) :
    let after := run stream memory world calls
    after.1 ≠ .panicked ∧ ((∀ c ∈ calls, READ_SIZE < c.fuel) → after.1 = .returned ()) ∧
      ReadsWhole after.2 ∧ (∀ answer ∈ after.2.2, answer.Explained (events after.2.1.2)) ∧
      (after.2.2.getLast? = some (.flush (.ready (.ok ()))) → ∀ memory' src,
        Arrivals.Delivers src → src.bytes = accepted (events after.2.1.2) →
        ReturnsAll (taken after.2.2) ((new memory', src), [])) := by
  obtain ⟨fine, serves⟩ := run_serves stream memory world calls
  refine ⟨fine, run_returns memory world, serves.readsWhole, serves.explained, ?_⟩
  intro flushed memory' src delivers split
  have account := serves.keeps.writes.account
  rw [serves.keeps.writes.clean flushed, List.drop_nil, List.append_nil] at account
  refine returnsAll memory' (fun m mem => ?_) delivers (split.trans account)
  exact Nat.lt_succ_of_le (serves.fits m mem)

/-- A message, an empty one and a flush. -/
def writeTwo : List (Call (Bytes × Bytes)) :=
  [⟨id, READ_SIZE + 1, .write [7, 8, 9]⟩, ⟨id, READ_SIZE + 1, .write []⟩,
    ⟨id, READ_SIZE + 1, .flush⟩]

/-- They come through in two pieces. -/
theorem two_messages_come_through :
    (run Relay.CopyBidirectional.pipe (fun _ => 0) ([], []) writeTwo).1 = .returned () ∧
    (run Relay.CopyBidirectional.pipe (fun _ => 0) ([], []) writeTwo).2.2.getLast? =
      some (.flush (.ready (.ok ()))) ∧
    ReturnsAll [[7, 8, 9], []] ((new (fun _ => 0),
      [.piece [0, 3, 7], .pending, .piece [8, 9, 0, 0]]), []) := by
  obtain ⟨-, returns, -, -, through⟩ :=
    messages_come_through Relay.CopyBidirectional.pipe (fun _ => 0)
    ([], []) writeTwo
  have flushed : (run Relay.CopyBidirectional.pipe (fun _ => 0) ([], []) writeTwo).2.2.getLast? =
      some (.flush (.ready (.ok ()))) := by decide +kernel
  have messages : taken (run Relay.CopyBidirectional.pipe (fun _ => 0) ([], []) writeTwo).2.2 =
      [[7, 8, 9], []] := by decide +kernel
  rw [messages] at through
  refine ⟨returns (by simp [writeTwo]), flushed, through flushed (fun _ => 0) _ ?_
    (by decide +kernel)⟩
  intro arrival mem
  simp only [List.mem_cons, List.not_mem_nil, or_false] at mem
  rcases mem with rfl | rfl | rfl
  · exact .inr ⟨_, by decide, rfl⟩
  · exact .inl rfl
  · exact .inr ⟨_, by decide, rfl⟩

end RustProxy.MessageStream.VlessMessageStream
