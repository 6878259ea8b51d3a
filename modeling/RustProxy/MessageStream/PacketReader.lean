import RustProxy.MessageStream.PacketAddr
import RustProxy.Relay.Lossless

/-!
# What a read of the packet-address stream can do

`TurnDoes` lists the outcomes of a turn of the read loop, by what the read buffer
holds. There is a frame in front of it, or an error that stays, or nothing
complete; then the live bytes may be moved to the front, and the buffer is full
or a read follows. Every result about reading goes through these cases, and none
of them is a panic.
-/

namespace RustProxy.MessageStream

/-- Where the live bytes start after `maybe_compact`. -/
def compacted (start : Nat) : Nat := if 4096 < start then 0 else start

theorem IsFrame.payload_le {frame : Bytes} {p : Packet} (is : IsFrame frame p) :
    p.payload.length ≤ 65535 := by
  cases is with
  | @mk address payload location payloadLen is announced =>
      have small := payloadLen.toNat_lt
      dsimp only
      omega

namespace PacketAddrStream

variable {ω : Type} {stream : AsyncStream ω} {this : PacketAddrStream} {w : ω} {start : Nat}
  {live frame rest : Bytes} {p : Packet}

/-- A packet that was parsed is taken off the buffer. -/
theorem takePacket_eq (holds : this.readBuf.Holds BUFFER_SIZE start (frame ++ rest))
    (is : IsFrame frame p) {payloadStart : Nat}
    (ends : payloadStart + p.payload.length = frame.length)
    (payload : (frame ++ rest).slice payloadStart (payloadStart + p.payload.length) =
      some p.payload) :
    ∃ readBuf, this.takePacket 65535 payloadStart p.payload.length = some (p.payload, readBuf) ∧
      readBuf.Holds BUFFER_SIZE (if rest = [] then 0 else start + frame.length) rest := by
  obtain ⟨readBuf, consumed, holds'⟩ := holds.consume
  refine ⟨readBuf, ?_, holds'⟩
  rw [takePacket, holds.asSlice]
  dsimp only [Option.bind_eq_bind, Option.bind_some]
  rw [payload]
  dsimp only [Option.bind_some]
  rw [if_pos is.payload_le, ends, consumed]
  rfl

theorem makeRoom_eq (holds : this.readBuf.Holds BUFFER_SIZE start live) :
    ∃ readBuf, this.makeRoom =
        some (readBuf, BUFFER_SIZE - (compacted start + live.length)) ∧
      readBuf.Holds BUFFER_SIZE (compacted start) live := by
  obtain ⟨readBuf, compacted_, holds'⟩ := holds.maybeCompact 4096
  refine ⟨readBuf, ?_, holds'⟩
  rw [makeRoom, compacted_]
  dsimp only [Option.bind_eq_bind, Option.bind_some]
  rw [holds'.remainingCapacity]
  rfl

/-- The outcomes of a turn: its answer, if it ends the loop, and the stream and
the world after it. -/
inductive TurnDoes (stream : AsyncStream ω) (start : Nat) (live : Bytes) (this : PacketAddrStream)
    (w : ω) : Option (Poll (IoResult Packet)) → PacketAddrStream → ω → Prop
  | packet {frame rest : Bytes} {p : Packet} {readBuf : SlideBuffer} (is : IsFrame frame p)
      (begins : live = frame ++ rest)
      (holds : readBuf.Holds BUFFER_SIZE (if rest = [] then 0 else start + frame.length) rest) :
      TurnDoes stream start live this w (some (.ready (.ok p))) { this with readBuf } w
  | invalid {e : IoError} (stays : ∀ more, parsePacket (live ++ more) = some (.error e)) :
      TurnDoes stream start live this w (some (.ready (.error e))) this w
  | full {readBuf : SlideBuffer} (incomplete : parsePacket live = some (.ok none))
      (full : compacted start + live.length = BUFFER_SIZE)
      (holds : readBuf.Holds BUFFER_SIZE (compacted start) live) :
      TurnDoes stream start live this w (some (.ready (.error bufferFull))) { this with readBuf } w
  | received {bytes : Bytes} {readBuf : SlideBuffer} {w' : ω}
      (incomplete : parsePacket live = some (.ok none))
      (answered : stream.pollRead (BUFFER_SIZE - (compacted start + live.length)) w =
        (.ready (.ok bytes), w'))
      (room : compacted start + live.length < BUFFER_SIZE) (some_ : bytes ≠ [])
      (holds : readBuf.Holds BUFFER_SIZE (compacted start) (live ++ bytes)) :
      TurnDoes stream start live this w none { this with readBuf } w'
  | eof {readBuf : SlideBuffer} {w' : ω} (incomplete : parsePacket live = some (.ok none))
      (answered : stream.pollRead (BUFFER_SIZE - (compacted start + live.length)) w =
        (.ready (.ok []), w'))
      (room : compacted start + live.length < BUFFER_SIZE)
      (holds : readBuf.Holds BUFFER_SIZE (compacted start) live) :
      TurnDoes stream start live this w (some (.ready (.ok endOfStream)))
        { this with readBuf, isEof := true } w'
  | failed {e : IoError} {readBuf : SlideBuffer} {w' : ω}
      (incomplete : parsePacket live = some (.ok none))
      (answered : stream.pollRead (BUFFER_SIZE - (compacted start + live.length)) w =
        (.ready (.error e), w'))
      (room : compacted start + live.length < BUFFER_SIZE)
      (holds : readBuf.Holds BUFFER_SIZE (compacted start) live) :
      TurnDoes stream start live this w (some (.ready (.error e))) { this with readBuf } w'
  | pending {readBuf : SlideBuffer} {w' : ω} (incomplete : parsePacket live = some (.ok none))
      (answered : stream.pollRead (BUFFER_SIZE - (compacted start + live.length)) w =
        (.pending, w'))
      (room : compacted start + live.length < BUFFER_SIZE)
      (holds : readBuf.Holds BUFFER_SIZE (compacted start) live) :
      TurnDoes stream start live this w (some .pending) { this with readBuf } w'

/-- How much more the read buffer can take. -/
def readVariant (s : Calling ω) : Nat := BUFFER_SIZE - (s.1.readBuf.end_ - s.1.readBuf.start)

/-- A read of some bytes leaves less room. -/
theorem readVariant_lt {readBuf : SlideBuffer} {bytes : Bytes} {w' : ω}
    (holds : this.readBuf.Holds BUFFER_SIZE start live) (some_ : bytes ≠ [])
    (holds' : readBuf.Holds BUFFER_SIZE (compacted start) (live ++ bytes)) :
    readVariant ({ this with readBuf }, w') < readVariant (this, w) := by
  have more := List.length_pos_iff.mpr some_
  have inside := holds'.inside
  rw [List.length_append] at inside
  simp only [readVariant, holds'.ends, holds'.starts, holds.ends, holds.starts,
    Nat.add_sub_cancel_left, List.length_append]
  omega

/-- A read before the end of the stream is the loop. -/
theorem pollRead_eq_loop {s : Calling ω} (open_ : s.1.isEof = false) (fuel : Nat) :
    pollReadTargetedMessage fuel stream 65535 s = Exec.loop (readTurn stream 65535) fuel s := by
  rw [pollReadTargetedMessage, open_]
  exact if_neg Bool.false_ne_true

theorem tryParsePacket_eq (holds : this.readBuf.Holds BUFFER_SIZE start live) :
    this.tryParsePacket = parsePacket live := by
  rw [tryParsePacket, holds.asSlice]
  rfl

/-- Nothing is complete: the live bytes are moved, and a read follows if there is
room for it. -/
theorem readTurn_incomplete (holds : this.readBuf.Holds BUFFER_SIZE start live)
    (incomplete : parsePacket live = some (.ok none)) :
    ∃ answer this' w', readTurn stream 65535 (this, w) = (.returned answer, this', w') ∧
      TurnDoes stream start live this w answer this' w' := by
  obtain ⟨readBuf, made, holds'⟩ := makeRoom_eq holds
  have turn : readTurn stream 65535 (this, w) =
      if BUFFER_SIZE - (compacted start + live.length) = 0 then
        (.returned (some (.ready (.error bufferFull))), { this with readBuf }, w)
      else fill stream (BUFFER_SIZE - (compacted start + live.length))
        ({ this with readBuf }, w) := by
    obtain ⟨writeSlice, slice, length⟩ := holds'.writeSlice
    simp only [readTurn, tryParsePacket_eq holds, incomplete, made, slice, length]
  have inside := holds'.inside
  rw [turn]
  split
  case isTrue none_ => exact ⟨_, _, _, rfl, .full incomplete (by omega) holds'⟩
  case isFalse some_ =>
      have room : compacted start + live.length < BUFFER_SIZE := by omega
      rw [fill]
      rcases answered : stream.pollRead (BUFFER_SIZE - (compacted start + live.length)) w with
        ⟨_ | e | bytes, w'⟩
      · exact ⟨_, _, _, rfl, .pending incomplete answered room holds'⟩
      · exact ⟨_, _, _, rfl, .failed incomplete answered room holds'⟩
      · dsimp only
        by_cases empty : bytes = []
        · subst empty
          exact ⟨_, _, _, rfl, .eof incomplete answered room holds'⟩
        · have fits := stream.read_fits _ _ _ (congrArg Prod.fst answered)
          obtain ⟨readBuf', advanced, holds''⟩ := holds'.advanceWrite fits
          rw [if_neg (by simpa using empty), advanced]
          exact ⟨_, _, _, rfl, .received incomplete answered room empty holds''⟩

/-- A turn takes the frame that begins the buffer. -/
theorem readTurn_packet (holds : this.readBuf.Holds BUFFER_SIZE start (frame ++ rest))
    (is : IsFrame frame p) :
    ∃ readBuf, readTurn stream 65535 (this, w) =
        (.returned (some (.ready (.ok p))), { this with readBuf }, w) ∧
      readBuf.Holds BUFFER_SIZE (if rest = [] then 0 else start + frame.length) rest := by
  obtain ⟨payloadStart, ends, payload, parsed⟩ := parsePacket_append is rest
  obtain ⟨readBuf, taken, holds'⟩ := takePacket_eq holds is ends payload
  refine ⟨readBuf, ?_, holds'⟩
  simp only [readTurn, tryParsePacket_eq holds, parsed, taken]

/-- A turn of the read loop never panics, and does one of the things above. -/
theorem readTurn_does (holds : this.readBuf.Holds BUFFER_SIZE start live) :
    ∃ answer this' w', readTurn stream 65535 (this, w) = (.returned answer, this', w') ∧
      TurnDoes stream start live this w answer this' w' := by
  have parsed := parsedPacket live
  cases answer : parsePacket live with
  | none =>
      rw [answer] at parsed
      cases parsed
  | some result =>
      rw [answer] at parsed
      cases parsed with
      | truncated => exact readTurn_incomplete holds answer
      | invalid stays =>
          refine ⟨_, _, _, ?_, .invalid stays⟩
          simp only [readTurn, tryParsePacket_eq holds, answer]
      | complete is begins =>
          subst begins
          obtain ⟨readBuf, ran, holds'⟩ := readTurn_packet holds is
          exact ⟨_, _, _, ran, .packet is rfl holds'⟩

/-! ## The first read -/

variable {bytes : Bytes} {w' : ω}

theorem newUot_holds (readMemory writeMemory : Nat → UInt8) :
    (newUot readMemory writeMemory).readBuf.Holds BUFFER_SIZE 0 [] :=
  SlideBuffer.holds_new _ _

/-- A turn with an empty buffer fills it. -/
theorem readTurn_fills (empty : this.readBuf.Holds BUFFER_SIZE 0 [])
    (answered : stream.pollRead BUFFER_SIZE w = (.ready (.ok bytes), w')) (some_ : bytes ≠ []) :
    ∃ readBuf, readTurn stream 65535 (this, w) = (.returned none, { this with readBuf }, w') ∧
      readBuf.Holds BUFFER_SIZE 0 bytes := by
  have room : BUFFER_SIZE - (compacted 0 + ([] : Bytes).length) = BUFFER_SIZE := rfl
  obtain ⟨answer, this', w'', ran, does⟩ : ∃ answer this' w', readTurn stream 65535
      (this, w) = (.returned answer, this', w') ∧ TurnDoes stream 0 [] this w answer this' w' :=
    readTurn_does empty
  cases does with
  | packet is begins =>
      have positive := is.length_pos
      rw [(List.append_eq_nil_iff.mp begins.symm).1] at positive
      exact absurd positive (Nat.lt_irrefl 0)
  | invalid stays => cases stays []
  | full _ full => exact absurd full (by decide)
  | received _ answered' _ _ holds' =>
      rw [room, answered] at answered'
      cases answered'
      exact ⟨_, ran, holds'⟩
  | eof _ answered' =>
      rw [room, answered] at answered'
      cases answered'
      exact absurd rfl some_
  | failed _ answered' | pending _ answered' =>
      rw [room, answered] at answered'
      cases answered'

/-- The first read of a stream that begins with a frame leaves what came with it
behind the frame. -/
theorem pollRead_first (empty : this.readBuf.Holds BUFFER_SIZE 0 []) (open_ : this.isEof = false)
    (answered : stream.pollRead BUFFER_SIZE w = (.ready (.ok (frame ++ rest)), w'))
    (is : IsFrame frame p) {fuel : Nat} (enough : 2 ≤ fuel) :
    ∃ readBuf, pollReadTargetedMessage fuel stream 65535 (this, w) =
        (.returned (.ready (.ok p)), { this with readBuf }, w') ∧
      readBuf.Holds BUFFER_SIZE (if rest = [] then 0 else frame.length) rest := by
  have some_ : frame ++ rest ≠ [] :=
    List.append_ne_nil_of_left_ne_nil (List.ne_nil_of_length_pos is.length_pos) rest
  obtain ⟨readBuf, filled, holds⟩ := readTurn_fills empty answered some_
  obtain ⟨readBuf', taken, holds'⟩ : ∃ readBuf', readTurn stream 65535
      ({ this with readBuf }, w') = (.returned (some (.ready (.ok p))),
        { this with readBuf := readBuf' }, w') ∧ _ := readTurn_packet holds is
  refine ⟨readBuf', ?_, Nat.zero_add frame.length ▸ holds'⟩
  obtain ⟨fuel, rfl⟩ := Nat.exists_eq_add_of_le' enough
  rw [pollRead_eq_loop open_]
  exact (Exec.loop_of_none filled (fuel + 1)).trans (Exec.loop_of_some taken fuel)

end PacketAddrStream

end RustProxy.MessageStream
