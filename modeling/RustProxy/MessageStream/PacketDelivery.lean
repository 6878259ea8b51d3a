import RustProxy.MessageStream.Arrivals
import RustProxy.MessageStream.PacketCalls

/-!
# Packets that arrive in pieces

A stream that brings the frames of a list of packets, cut into reads in any way.
Whether the reader finds all of them depends on where a frame starts in the read
buffer: the live bytes are moved to the front only when they start behind 4096.
A frame that starts in front of that, but not at the very front, and does not end
within the memory never becomes complete (`Stuck`). Every other frame does.
-/

namespace RustProxy.MessageStream

/-- A frame that starts behind the front of the memory, but not far enough behind
to be moved there, and would end behind the end. -/
def Stuck (start : Nat) (frame : Bytes) : Prop :=
  1 ≤ start ∧ start ≤ 4096 ∧ BUFFER_SIZE < start + frame.length

instance (start : Nat) (frame : Bytes) : Decidable (Stuck start frame) :=
  inferInstanceAs (Decidable (_ ∧ _ ∧ _))

theorem compacted_le (start : Nat) : compacted start ≤ 4096 := by
  rw [compacted]
  split <;> omega

@[simp] theorem stuck_compacted_iff {start : Nat} {frame : Bytes} :
    Stuck (compacted start) frame ↔ Stuck start frame := by
  rw [compacted, Stuck, Stuck]
  split <;> omega

/-- A frame with the packet in it. It fits into the read buffer. -/
structure Framed where
  frame : Bytes
  packet : Packet
  is : IsFrame frame packet
  fits : frame.length ≤ BUFFER_SIZE

def wire (fs : List Framed) : Bytes := fs.flatMap Framed.frame

namespace PacketAddrStream

/-- The live bytes and what is still to arrive are the frames that were not
returned yet. -/
structure Feeding (fs : List Framed) (start : Nat) (s : Calling Arrivals) : Prop where
  holds : ∃ live, s.1.readBuf.Holds BUFFER_SIZE start live ∧ live ++ s.2.bytes = wire fs
  open_ : s.1.isEof = false
  delivers : s.2.Delivers

/-- What a read can return while there are frames to come. -/
def FeedDoes (f : Framed) (fs : List Framed) (start : Nat) (s : Calling Arrivals) :
    Poll (IoResult Packet) → Calling Arrivals → Prop
  | .pending, t => t.2.length < s.2.length ∧
      ∃ start', Feeding (f :: fs) start' t ∧ (Stuck start' f.frame ↔ Stuck start f.frame)
  | .ready (.ok p), t => t.2.length ≤ s.2.length ∧ p = f.packet ∧ ¬ Stuck start f.frame ∧
      ∃ start', Feeding fs start' t
  | .ready (.error _), _ => Stuck start f.frame

variable {f : Framed} {fs : List Framed} {start : Nat} {s : Calling Arrivals}

theorem readTurn_feeds (feeding : Feeding (f :: fs) start s) :
    (readTurn Arrivals.stream 65535).Meets s (fun _ => False) fun
      | some answer => FeedDoes f fs start s answer
      | none => fun t => (t.2.length ≤ s.2.length ∧ ∃ start', Feeding (f :: fs) start' t ∧
          (Stuck start' f.frame ↔ Stuck start f.frame)) ∧
        (True → readVariant t < readVariant s) := by
  obtain ⟨this, src⟩ := s
  obtain ⟨⟨live, holds, account⟩, open_, delivers⟩ := feeding
  obtain ⟨answer, this', src', ran, does⟩ : ∃ answer this' src', readTurn Arrivals.stream 65535
      (this, src) = (.returned answer, this', src') ∧
      TurnDoes Arrivals.stream start live this src answer this' src' := readTurn_does holds
  refine .of_returned ran ?_
  have inside := holds.inside
  have whole : live ++ Arrivals.bytes src = f.frame ++ wire fs := account
  -- bytes in which no frame is complete are fewer than those of the next frame
  have short (incomplete : parsePacket live = some (.ok none)) : live.length < f.frame.length :=
    length_lt_of_truncated incomplete f.is ⟨wire fs, whole.symm⟩
  cases does with
  | packet is begins holds' =>
      subst begins
      rw [List.append_assoc] at whole
      obtain ⟨rfl, rfl, rest⟩ := is.unique f.is whole
      refine ⟨Nat.le_refl _, rfl, ?_, _, ⟨_, holds', rest⟩, open_, delivers⟩
      rw [List.length_append] at inside
      rintro ⟨-, -, beyond⟩
      omega
  | invalid stays =>
      obtain ⟨_, _, _, parsed⟩ := parsePacket_append f.is (wire fs)
      rw [← whole, stays] at parsed
      cases parsed
  | full incomplete full =>
      have fits := f.fits
      have less := short incomplete
      have front := compacted_le start
      exact stuck_compacted_iff.mp ⟨by omega, front, by omega⟩
  | received incomplete answered room some_ holds' =>
      have reads := Arrivals.readsOn delivers (Nat.sub_pos_of_lt room)
      rw [answered] at reads
      cases reads with
      | bytes _ split shorter rest =>
          refine ⟨⟨shorter, _, ⟨⟨_, holds', ?_⟩, open_, rest⟩, stuck_compacted_iff⟩, fun _ => ?_⟩
          · rw [List.append_assoc, ← split]
            exact account
          · exact readVariant_lt holds some_ holds'
      | end_ => exact absurd rfl some_
  | eof incomplete answered room holds' =>
      have reads := Arrivals.readsOn delivers (Nat.sub_pos_of_lt room)
      rw [answered] at reads
      have less := short incomplete
      cases reads with
      | bytes some_ => exact absurd rfl some_
      | end_ ended =>
          -- the stream cannot end within a frame
          have all := congrArg List.length whole
          rw [show src = [] from ended] at all
          simp only [Arrivals.bytes, List.flatMap_nil, List.append_nil, List.length_append] at all
          omega
  | failed incomplete answered room holds' =>
      have reads := Arrivals.readsOn delivers (Nat.sub_pos_of_lt room)
      rw [answered] at reads
      cases reads
  | pending incomplete answered room holds' =>
      have reads := Arrivals.readsOn delivers (Nat.sub_pos_of_lt room)
      rw [answered] at reads
      cases reads with
      | pending same shorter rest =>
          refine ⟨shorter, _, ⟨⟨_, holds', ?_⟩, open_, rest⟩, stuck_compacted_iff⟩
          rw [← same]
          exact account

/-- A read that returned by way of a later moment of the same frame. -/
theorem FeedDoes.of_later {start' : Nat} {t u : Calling Arrivals} {answer : Poll (IoResult Packet)}
    (fewer : t.2.length ≤ s.2.length) (same : Stuck start' f.frame ↔ Stuck start f.frame)
    (does : FeedDoes f fs start' t answer u) : FeedDoes f fs start s answer u := by
  rcases answer with _ | _ | _
  · obtain ⟨shorter, start'', feeding, same'⟩ := does
    exact ⟨Nat.lt_of_lt_of_le shorter fewer, start'', feeding, same'.trans same⟩
  · exact same.mp does
  · obtain ⟨fewer', packet, free, feeding⟩ := does
    exact ⟨fewer'.trans fewer, packet, mt same.mpr free, feeding⟩

/-- A read while there are frames to come: it waits, or returns the next packet,
or fails. It fails when the next frame is stuck, and then only. -/
theorem pollRead_feeds (feeding : Feeding (f :: fs) start s) {fuel : Nat}
    (enough : BUFFER_SIZE < fuel) :
    (pollReadTargetedMessage fuel Arrivals.stream 65535).Meets s (fun _ => False)
      (FeedDoes f fs start s) := by
  unfold Exec.Meets
  rw [pollRead_eq_loop feeding.open_]
  refine Exec.Meets.loop_variant (fun t => t.2.length ≤ s.2.length ∧ ∃ start',
    Feeding (f :: fs) start' t ∧ (Stuck start' f.frame ↔ Stuck start f.frame)) readVariant True ?_
    ⟨Nat.le_refl _, start, feeding, Iff.rfl⟩
    (.inr ⟨trivial, Nat.lt_of_le_of_lt (Nat.sub_le _ _) enough⟩)
  rintro t ⟨fewer, start', feeding', same⟩
  refine (readTurn_feeds feeding').mono (fun _ h => h) fun ended u does => ?_
  cases ended with
  | some answer => exact FeedDoes.of_later fewer same does
  | none =>
      obtain ⟨⟨fewer', start'', feeding'', same'⟩, less⟩ := does
      exact ⟨⟨fewer'.trans fewer, start'', feeding'', same'.trans same⟩, less⟩

/-- What a read can return when all frames were returned. -/
def EndDoes : Poll (IoResult Packet) → Calling Arrivals → Prop
  | .pending, t => ∃ start', Feeding [] start' t
  | .ready (.ok _), t => t.1.isEof = true
  | .ready (.error _), _ => False

theorem readTurn_ends (feeding : Feeding [] start s) :
    (readTurn Arrivals.stream 65535).Meets s (fun _ => False) fun
      | some answer => EndDoes answer
      | none => fun _ => False := by
  obtain ⟨this, src⟩ := s
  obtain ⟨⟨live, holds, account⟩, open_, delivers⟩ := feeding
  obtain ⟨rfl, nothing⟩ := List.append_eq_nil_iff.mp account
  obtain ⟨answer, this', src', ran, does⟩ : ∃ answer this' src', readTurn Arrivals.stream 65535
      (this, src) = (.returned answer, this', src') ∧
      TurnDoes Arrivals.stream start [] this src answer this' src' := readTurn_does holds
  refine .of_returned ran ?_
  cases does with
  | packet is begins =>
      have some_ := is.length_pos
      rw [(List.append_eq_nil_iff.mp begins.symm).1] at some_
      exact absurd some_ (Nat.lt_irrefl 0)
  | invalid stays => cases stays []
  | full _ full =>
      have front := compacted_le start
      simp only [List.length_nil, BUFFER_SIZE] at full
      omega
  | received _ answered room some_ =>
      have reads := Arrivals.readsOn delivers (Nat.sub_pos_of_lt room)
      rw [answered] at reads
      cases reads with
      | bytes _ split =>
          exact absurd (List.append_eq_nil_iff.mp (split.symm.trans nothing)).1 some_
      | end_ => exact absurd rfl some_
  | eof => rfl
  | failed _ answered room =>
      have reads := Arrivals.readsOn delivers (Nat.sub_pos_of_lt room)
      rw [answered] at reads
      cases reads
  | pending _ answered room holds' =>
      have reads := Arrivals.readsOn delivers (Nat.sub_pos_of_lt room)
      rw [answered] at reads
      cases reads with
      | pending same _ rest =>
          exact ⟨_, ⟨[], holds', same.symm.trans nothing⟩, open_, rest⟩

/-- A read when all frames were returned waits, or tells the end of the stream. -/
theorem pollRead_ends (feeding : Feeding [] start s) {fuel : Nat} (enough : BUFFER_SIZE < fuel) :
    (pollReadTargetedMessage fuel Arrivals.stream 65535).Meets s (fun _ => False) EndDoes := by
  unfold Exec.Meets
  rw [pollRead_eq_loop feeding.open_]
  refine Exec.Meets.loop_variant (Feeding [] start) readVariant True ?_ feeding
    (.inr ⟨trivial, Nat.lt_of_le_of_lt (Nat.sub_le _ _) enough⟩)
  intro t feeding'
  refine (readTurn_ends feeding').mono (fun _ h => h) fun ended u does => ?_
  cases ended with
  | some answer => exact does
  | none => exact does.elim

/-! ## One read after the other -/

/-- A read with enough fuel to return. -/
def readCall : Call Arrivals := ⟨id, BUFFER_SIZE + 1, .read⟩

def readsFrom (n : Nat) (s : Running Arrivals) : Outcome Unit × Running Arrivals :=
  Exec.again (call Arrivals.stream) readCall n s

/-- The call that a read is. -/
theorem readCall_returns {answer : Poll (IoResult Packet)} {t : Calling Arrivals}
    (ran : pollReadTargetedMessage (BUFFER_SIZE + 1) Arrivals.stream 65535 s =
      (.returned answer, t)) :
    call Arrivals.stream (BUFFER_SIZE + 1) .read s = (.returned (.read answer t.1.isEof), t) :=
  Exec.bind_of_returned ran

theorem readsFrom_succ {answers : List Answer} {answer : Poll (IoResult Packet)}
    {t : Calling Arrivals} (n : Nat)
    (ran : pollReadTargetedMessage (BUFFER_SIZE + 1) Arrivals.stream 65535 s =
      (.returned answer, t)) :
    readsFrom (n + 1) (s, answers) = readsFrom n (t, answers ++ [.read answer t.1.isEof]) :=
  Exec.again_succ (readCall_returns ran) n answers

def NoError (answers : List Answer) : Prop :=
  ∀ e isEof, .read (.ready (.error e)) isEof ∉ answers

/-- Where a run of reads has come to: the packets of some frames were returned,
and the others are to come. -/
structure At (fs : List Framed) (s : Running Arrivals) (rest : List Framed) : Prop where
  returned : ∃ done, fs = done ++ rest ∧ packets s.2 = done.map Framed.packet
  noError : NoError s.2
  feeding : Feeding rest s.1.1.readBuf.start s.1 ∨ rest = [] ∧ s.1.1.isEof = true

theorem at_start (readMemory writeMemory : Nat → UInt8) {src : Arrivals} (delivers : src.Delivers)
    (split : src.bytes = wire fs) : At fs ((newUot readMemory writeMemory, src), []) fs where
  returned := ⟨[], rfl, rfl⟩
  noError := nofun
  feeding := .inl ⟨⟨[], SlideBuffer.holds_new _ _, split⟩, rfl, delivers⟩

theorem NoError.concat {answers : List Answer} {answer : Poll (IoResult Packet)} {isEof : Bool}
    (noError : NoError answers) (fine : ∀ e, answer ≠ .ready (.error e)) :
    NoError (answers ++ [.read answer isEof]) := by
  intro e isEof mem
  rcases List.mem_append.mp mem with earlier | last
  · exact noError e isEof earlier
  · cases List.mem_singleton.mp last
    exact fine e rfl

theorem Feeding.start_eq {rest : List Framed} (feeding : Feeding rest start s) :
    s.1.readBuf.start = start := by
  obtain ⟨live, holds, -⟩ := feeding.holds
  exact holds.starts

/-- One read more. It fails when the next frame is stuck, and a stuck frame stays
so as long as the read waits. -/
theorem At.read {rest : List Framed} {answers : List Answer} (at_ : At fs (s, answers) rest) :
    ∃ answer t, pollReadTargetedMessage (BUFFER_SIZE + 1) Arrivals.stream 65535 s =
        (.returned answer, t) ∧
      ((∃ e f later, answer = .ready (.error e) ∧ rest = f :: later ∧
          Stuck s.1.readBuf.start f.frame) ∨
        ∃ rest', At fs (t, answers ++ [.read answer t.1.isEof]) rest' ∧
          ∀ f later, rest = f :: later → rest'.length + t.2.length < rest.length + s.2.length ∧
            (Stuck s.1.readBuf.start f.frame →
              rest' = rest ∧ Stuck t.1.readBuf.start f.frame)) := by
  obtain ⟨done, whole, returned⟩ := at_.returned
  have noError := at_.noError
  rcases at_.feeding with feeding | ⟨rfl, eof⟩
  · cases rest with
    | nil =>
        obtain ⟨answer, t, ran, does⟩ := (pollRead_ends feeding (Nat.lt_succ_self _)).total
        refine ⟨answer, t, ran, .inr ⟨[], ?_, nofun⟩⟩
        rcases answer with _ | _ | p
        · obtain ⟨start', feeding'⟩ := does
          refine ⟨⟨done, whole, ?_⟩, noError.concat nofun, .inl (feeding'.start_eq ▸ feeding')⟩
          exact (packets_concat _ _).trans ((List.append_nil _).trans returned)
        · exact does.elim
        · refine ⟨⟨done, whole, ?_⟩, noError.concat nofun, .inr ⟨rfl, does⟩⟩
          rw [packets_concat, show t.1.isEof = true from does]
          exact (List.append_nil _).trans returned
    | cons f later =>
        obtain ⟨answer, t, ran, does⟩ := (pollRead_feeds feeding (Nat.lt_succ_self _)).total
        refine ⟨answer, t, ran, ?_⟩
        rcases answer with _ | e | p
        · obtain ⟨shorter, start', feeding', same⟩ := does
          rw [← feeding'.start_eq] at same feeding'
          refine .inr ⟨f :: later, ⟨⟨done, whole, ?_⟩, noError.concat nofun, .inl feeding'⟩, ?_⟩
          · exact (packets_concat _ _).trans ((List.append_nil _).trans returned)
          · rintro _ _ ⟨rfl, rfl⟩
            exact ⟨Nat.add_lt_add_left shorter _, fun stuck => ⟨rfl, same.mpr stuck⟩⟩
        · exact .inl ⟨e, f, later, rfl, rfl, does⟩
        · obtain ⟨fewer, rfl, free, start', feeding'⟩ := does
          rw [← feeding'.start_eq] at feeding'
          refine .inr ⟨later, ⟨⟨done ++ [f], ?_, ?_⟩, noError.concat nofun, .inl feeding'⟩, ?_⟩
          · rw [whole, List.append_assoc]
            rfl
          · rw [packets_concat, returned, feeding'.open_, List.map_append]
            rfl
          · rintro _ _ ⟨rfl, rfl⟩
            exact ⟨Nat.add_lt_add_of_lt_of_le (Nat.lt_succ_self _) fewer,
              fun stuck => absurd stuck free⟩
  · refine ⟨_, _, if_pos eof, .inr ⟨[], ⟨⟨done, whole, ?_⟩, ?_, .inr ⟨rfl, eof⟩⟩, nofun⟩⟩
    · rw [packets_concat, eof]
      exact (List.append_nil _).trans returned
    · exact noError.concat nofun

/-- The next frame, behind the ones whose packets were returned, is not stuck. -/
def NextFree (fs : List Framed) (s : Running Arrivals) : Prop :=
  ∀ f, fs[(packets s.2).length]? = some f → ¬ Stuck s.1.1.readBuf.start f.frame

theorem At.next {rest : List Framed} {r : Running Arrivals} (at_ : At fs r rest) :
    fs[(packets r.2).length]? = rest.head? := by
  obtain ⟨done, whole, returned⟩ := at_.returned
  rw [whole, returned, List.length_map, List.getElem?_append_right (Nat.le_refl _), Nat.sub_self,
    List.head?_eq_getElem?]

/-- The next frame is not stuck now, nor after any number of reads. -/
def StaysFree (fs : List Framed) (r : Running Arrivals) : Prop :=
  ∀ n, NextFree fs (readsFrom n r).2

/-- A read more where no frame is ever stuck. -/
theorem At.read_free {rest : List Framed} {answers : List Answer} (at_ : At fs (s, answers) rest)
    (free : StaysFree fs (s, answers)) :
    ∃ answer t, call Arrivals.stream readCall.fuel readCall.op (s.1, readCall.meanwhile s.2) =
        (.returned answer, t) ∧ StaysFree fs (t, answers ++ [answer]) ∧
      ∃ rest', At fs (t, answers ++ [answer]) rest' ∧
        (rest ≠ [] → rest'.length + t.2.length < rest.length + s.2.length) := by
  obtain ⟨answer, t, ran, ⟨_, f, later, -, rfl, stuck⟩ | ⟨rest', at', moves⟩⟩ := at_.read
  · exact absurd stuck (free 0 f at_.next)
  · refine ⟨_, t, readCall_returns ran, fun m => ?_, rest', at', fun some_ => ?_⟩
    · rw [← readsFrom_succ m ran]
      exact free (m + 1)
    · obtain ⟨f, later, rfl⟩ := List.exists_cons_of_ne_nil some_
      exact (moves f later rfl).1

/-- Reads that meet no stuck frame return packets in order and no error. -/
theorem At.reads {rest : List Framed} {r : Running Arrivals} (at_ : At fs r rest)
    (free : StaysFree fs r) (n : Nat) :
    (readsFrom n r).1 = .returned () ∧ ∃ rest', At fs (readsFrom n r).2 rest' := by
  have always : (readsFrom n r).1 = .returned () ∧
      StaysFree fs (readsFrom n r).2 ∧ ∃ rest, At fs (readsFrom n r).2 rest := by
    refine Exec.again_always (fun r => StaysFree fs r ∧ ∃ rest, At fs r rest) ?_
      ⟨free, rest, at_⟩ n
    rintro s w answers ⟨free, rest, at_⟩
    obtain ⟨answer, t, ran, free', rest', at', -⟩ := at_.read_free free
    exact ⟨answer, t, ran, free', rest', at'⟩
  exact ⟨always.1, always.2.2⟩

/-- Enough of them return all packets. -/
theorem At.reads_all {rest : List Framed} {r : Running Arrivals} (at_ : At fs r rest)
    (free : StaysFree fs r) : ∃ n, packets (readsFrom n r).2.2 = fs.map Framed.packet := by
  refine Exec.again_reaches (fun r : Running Arrivals => packets r.2 = fs.map Framed.packet)
    (fun m r => StaysFree fs r ∧ ∃ rest, At fs r rest ∧ rest.length + r.1.2.length = m) ?_
    ⟨free, rest, at_, rfl⟩
  rintro _ s w answers ⟨free, rest, at_, rfl⟩
  by_cases none_ : rest = []
  · obtain ⟨done, whole, returned⟩ := at_.returned
    refine .inl ?_
    rw [whole, none_, List.append_nil]
    exact returned
  · obtain ⟨answer, t, ran, free', rest', at', nearer⟩ := at_.read_free free
    exact .inr ⟨answer, t, ran, _, nearer none_, free', rest', at', rfl⟩

/-- A stuck frame makes some read fail. -/
theorem At.stuck_fails {later : List Framed} {r : Running Arrivals} (at_ : At fs r (f :: later))
    (stuck : Stuck r.1.1.readBuf.start f.frame) : ∃ n, ¬ NoError (readsFrom n r).2.2 := by
  refine Exec.again_reaches (fun r : Running Arrivals => ¬ NoError r.2)
    (fun m r => ¬ NoError r.2 ∨ At fs r (f :: later) ∧ Stuck r.1.1.readBuf.start f.frame ∧
      r.1.2.length < m) ?_ (.inr ⟨at_, stuck, Nat.lt_succ_self _⟩)
  rintro m s w answers (failed | ⟨at_, stuck, less⟩)
  · exact .inl failed
  obtain ⟨m, rfl⟩ := Nat.exists_eq_succ_of_ne_zero (Nat.ne_zero_of_lt less)
  obtain ⟨answer, t, ran, next⟩ := at_.read
  refine .inr ⟨_, t, readCall_returns ran, m, Nat.lt_succ_self m, ?_⟩
  obtain ⟨e, -, -, rfl, -⟩ | ⟨rest', at', moves⟩ := next
  · exact .inl fun noError =>
      noError e _ (List.mem_append_right _ (List.mem_singleton_self _))
  · obtain ⟨shorter, stays⟩ := moves f later rfl
    obtain ⟨rfl, stuck'⟩ := stays stuck
    have fewer : t.2.length < w.length := Nat.lt_of_add_lt_add_left shorter
    exact .inr ⟨at', stuck', Nat.lt_of_lt_of_le fewer (Nat.le_of_lt_succ less)⟩

/-- Reads none of which fails meet no stuck frame. -/
theorem At.staysFree {rest : List Framed} {r : Running Arrivals} (at_ : At fs r rest)
    (noError : ∀ n, NoError (readsFrom n r).2.2) : StaysFree fs r := by
  intro n
  induction n generalizing r rest with
  | zero =>
      intro f next stuck
      have head : rest.head? = some f := at_.next.symm.trans next
      obtain ⟨later, rfl⟩ := List.head?_eq_some_iff.mp head
      obtain ⟨n, fails⟩ := at_.stuck_fails stuck
      exact fails (noError n)
  | succ n ih =>
      obtain ⟨s, answers⟩ := r
      obtain ⟨answer, t, ran, ⟨e, -, -, rfl, -⟩ | ⟨rest', at', -⟩⟩ := at_.read
      · have failed := noError 1
        rw [readsFrom_succ 0 ran] at failed
        exact absurd (List.mem_append_right _ (List.mem_singleton_self _)) (failed e _)
      · rw [readsFrom_succ n ran]
        refine ih at' fun m => ?_
        rw [← readsFrom_succ m ran]
        exact noError (m + 1)

/-- Successive reads return the packets of the frames in order, all of them and
without an error. -/
structure ReturnsAll (fs : List Framed) (r : Running Arrivals) : Prop where
  inOrder : ∀ n, (readsFrom n r).1 = .returned () ∧
    packets (readsFrom n r).2.2 <+: fs.map Framed.packet
  noError : ∀ n, NoError (readsFrom n r).2.2
  all : ∃ n, packets (readsFrom n r).2.2 = fs.map Framed.packet

/-- However the frames are cut into reads, the reader returns their packets
exactly when no read begins with a stuck frame. -/
theorem packets_returned_iff (readMemory writeMemory : Nat → UInt8) (fs : List Framed)
    (src : Arrivals) (delivers : src.Delivers) (split : src.bytes = wire fs) :
    ReturnsAll fs ((newUot readMemory writeMemory, src), []) ↔
      ∀ n, NextFree fs (readsFrom n ((newUot readMemory writeMemory, src), [])).2 := by
  have start := at_start readMemory writeMemory delivers split
  constructor
  · intro returns
    exact start.staysFree returns.noError
  · intro free
    refine ⟨fun n => ?_, fun n => ?_, start.reads_all free⟩
    · obtain ⟨ran, rest, at_⟩ := start.reads free n
      obtain ⟨done, whole, returned⟩ := at_.returned
      refine ⟨ran, ?_⟩
      rw [returned, whole, List.map_append]
      exact List.prefix_append _ _
    · obtain ⟨-, rest, at_⟩ := start.reads free n
      exact at_.noError

/-! ## A short frame and a long one -/

def dnsServer : SocketAddr := .v4 ⟨1, 2, 3, 4⟩ 53

theorem length_fromDns (payload : Bytes) :
    (frameOf payload dnsServer).length = 9 + payload.length := by
  rw [length_frameOf, ← addrLen_eq]
  rfl

theorem isFrame_fromDns {payload : Bytes} (fits : 9 + payload.length ≤ BUFFER_SIZE) :
    IsFrame (frameOf payload dnsServer) ⟨locationOf dnsServer, payload⟩ := by
  apply isFrame_frameOf
  simp only [BUFFER_SIZE] at fits
  omega

theorem fits_fromDns {payload : Bytes} (fits : 9 + payload.length ≤ BUFFER_SIZE) :
    (frameOf payload dnsServer).length ≤ BUFFER_SIZE := by
  rw [length_fromDns]
  exact fits

/-- A frame from a DNS server. -/
def fromDns (payload : Bytes) (fits : 9 + payload.length ≤ BUFFER_SIZE) : Framed where
  frame := frameOf payload dnsServer
  packet := ⟨locationOf dnsServer, payload⟩
  is := isFrame_fromDns fits
  fits := fits_fromDns fits

/-- A frame that leaves the space that is never moved is not stuck anywhere. -/
theorem not_stuck_of_short {f : Framed} (short : f.frame.length + 4096 ≤ BUFFER_SIZE) :
    ¬ Stuck start f.frame := by
  rintro ⟨-, front, beyond⟩
  omega

/-- Two packets in two reads, cut in the second frame. -/
theorem packets_in_two_reads_returned :
    let frames := [fromDns [7] (by decide), fromDns [8, 9] (by decide)]
    ReturnsAll frames ((newUot (fun _ => 0) (fun _ => 0),
      [.piece ((wire frames).take 15), .pending, .piece ((wire frames).drop 15)]), []) := by
  intro frames
  refine (packets_returned_iff _ _ _ _ ?_ ?_).mpr ?_
  · intro arrival mem
    simp only [List.mem_cons, List.not_mem_nil, or_false] at mem
    rcases mem with rfl | rfl | rfl
    · exact .inr ⟨_, by decide, rfl⟩
    · exact .inl rfl
    · exact .inr ⟨_, by decide, rfl⟩
  · decide
  · intro n f next
    have mem := List.mem_of_getElem? next
    simp only [frames, List.mem_cons, List.not_mem_nil, or_false] at mem
    rcases mem with rfl | rfl
    · exact not_stuck_of_short (by decide)
    · exact not_stuck_of_short (by decide)

/-- The first read, of more bytes than there is room for, leaves the rest of them
behind the first frame. -/
theorem first_read (this : PacketAddrStream) (empty : this.readBuf.Holds BUFFER_SIZE 0 [])
    (open_ : this.isEof = false) (f : Framed) (tail : Bytes)
    (short : f.frame.length < BUFFER_SIZE) (long : BUFFER_SIZE < (f.frame ++ tail).length)
    {fuel : Nat} (enough : 2 ≤ fuel) :
    ∃ t, pollReadTargetedMessage fuel Arrivals.stream 65535 (this, [.piece (f.frame ++ tail)]) =
        (.returned (.ready (.ok f.packet)), t) ∧
      t.1.readBuf.start = f.frame.length ∧ t.1.isEof = false := by
  have received : Arrivals.stream.pollRead BUFFER_SIZE [.piece (f.frame ++ tail)] =
      (.ready (.ok ((f.frame ++ tail).take BUFFER_SIZE)),
        [.piece ((f.frame ++ tail).drop BUFFER_SIZE)]) := if_neg (Nat.not_le.mpr long)
  rw [List.take_append, List.take_of_length_le (Nat.le_of_lt short)] at received
  have more : tail.take (BUFFER_SIZE - f.frame.length) ≠ [] := by
    rw [List.length_append] at long
    rw [ne_eq, List.take_eq_nil_iff, not_or]
    exact ⟨by omega, List.ne_nil_of_length_pos (by omega)⟩
  obtain ⟨readBuf, ran, holds⟩ := pollRead_first empty open_ received f.is enough
  rw [if_neg more] at holds
  exact ⟨_, ran, holds.starts, open_⟩

def shortFrame : Framed := fromDns [7] (by decide)

/-- A frame as long as the read buffer. -/
def longFrame : Framed :=
  fromDns (List.replicate 65526 0) (by rw [List.length_replicate]; decide)

theorem length_longFrame : longFrame.frame.length = BUFFER_SIZE := by
  rw [longFrame, fromDns, length_fromDns, List.length_replicate]
  rfl

/-- When a frame of ten bytes and one as long as the read buffer arrive in one
piece, the second packet is never returned. -/
theorem long_packet_lost : Arrivals.Delivers [.piece (wire [shortFrame, longFrame])] ∧
    Arrivals.bytes [.piece (wire [shortFrame, longFrame])] = wire [shortFrame, longFrame] ∧
    ¬ ReturnsAll [shortFrame, longFrame] ((newUot (fun _ => 0) (fun _ => 0),
      [.piece (wire [shortFrame, longFrame])]), []) := by
  have short : shortFrame.frame.length = 10 := rfl
  have long := length_longFrame
  have delivers : Arrivals.Delivers [.piece (wire [shortFrame, longFrame])] := by
    intro arrival mem
    obtain rfl := List.mem_singleton.mp mem
    refine .inr ⟨_, ?_, rfl⟩
    exact List.append_ne_nil_of_left_ne_nil (List.ne_nil_of_length_pos (by rw [short]; decide)) _
  have split : Arrivals.bytes [.piece (wire [shortFrame, longFrame])] =
      wire [shortFrame, longFrame] := List.append_nil _
  refine ⟨delivers, split, ?_⟩
  intro returns
  have more : BUFFER_SIZE < (shortFrame.frame ++ wire [longFrame]).length := by
    rw [wire, List.flatMap_singleton, List.length_append, short, long]
    omega
  obtain ⟨t, ran, start, open_⟩ := first_read (newUot (fun _ => 0) (fun _ => 0))
    (SlideBuffer.holds_new _ _) rfl shortFrame (wire [longFrame]) (by rw [short]; decide) more
    (show 2 ≤ BUFFER_SIZE + 1 by decide)
  obtain ⟨answer, t', ran', next⟩ := (at_start (fun _ => 0) (fun _ => 0) delivers split).read
  obtain ⟨same, rfl⟩ := Prod.mk.inj (ran'.symm.trans ran)
  obtain rfl := Outcome.returned.inj same
  rcases next with ⟨e, f, later, failed, -⟩ | ⟨rest, at_, -⟩
  · cases failed
  · obtain ⟨done, whole, returned⟩ := at_.returned
    rw [open_] at returned
    have one : (done.map Framed.packet).length = 1 := by
      rw [← returned]
      rfl
    rw [List.length_map] at one
    have cut : (done ++ rest).drop 1 = rest := List.drop_left' one
    rw [← whole] at cut
    obtain rfl : [longFrame] = rest := cut
    have stuck : Stuck t'.1.readBuf.start longFrame.frame := by
      rw [start, short, Stuck, long]
      decide
    obtain ⟨n, fails⟩ := at_.stuck_fails stuck
    rw [← readsFrom_succ n ran'] at fails
    exact fails (returns.noError (n + 1))

end PacketAddrStream

end RustProxy.MessageStream
