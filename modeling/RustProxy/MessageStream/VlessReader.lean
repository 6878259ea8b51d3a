import RustProxy.Base.Prefixed
import RustProxy.MessageStream.Vless

/-!
# What a read of the length-prefixed stream can do

`Holds` says which bytes the read buffer has. Either a whole message begins them,
or there is room for more: the buffer is as long as the longest message with its
length, so bytes without a whole message never fill it. `TurnDoes` lists the
outcomes of a turn of the read loop by these two cases, and none of them is a
panic.
-/

namespace RustProxy.MessageStream.VlessMessageStream

open BigEndian Prefixed

/-- The bytes in the read buffer. -/
structure Holds (this : VlessMessageStream) (live : Bytes) : Prop where
  allocated : this.readBuf.length = READ_SIZE
  ends : this.readEndIndex = live.length
  inside : live.length ≤ READ_SIZE
  bytes : this.readBuf.take live.length = live

variable {ω : Type} {stream : AsyncStream ω} {this : VlessMessageStream} {w w' : ω}
  {live bytes m rest : Bytes} {room : Nat}

theorem holds_new (memory : Nat → UInt8) : (new memory).Holds [] where
  allocated := by simp [new, Relay.allocateVec]
  ends := rfl
  inside := Nat.zero_le _
  bytes := rfl

/-- Bytes without a whole message are fewer than the read buffer has room for. -/
theorem length_lt_of_incomplete (incomplete : Incomplete 2 live) : live.length < READ_SIZE := by
  have small := ofBe_lt (live.take 2)
  have header : 256 ^ (live.take 2).length ≤ 256 ^ 2 :=
    Nat.pow_le_pow_right (by decide) (List.length_take_le _ _)
  rw [Incomplete] at incomplete
  rw [READ_SIZE]
  omega

/-- The slice between two places of the live bytes. -/
theorem Holds.slice (holds : this.Holds live) {start stop : Nat} (order : start ≤ stop)
    (inside : stop ≤ live.length) :
    this.readBuf.slice start stop = some ((live.drop start).take (stop - start)) := by
  have within : stop ≤ this.readBuf.length := by
    rw [holds.allocated]
    exact inside.trans holds.inside
  rw [List.slice_eq order within, ← List.drop_take, ← List.drop_take]
  conv_rhs => rw [← holds.bytes, List.take_take, Nat.min_eq_left inside]

/-- There is no whole message. -/
theorem Holds.payloadLen?_incomplete (holds : this.Holds live) (incomplete : Incomplete 2 live) :
    this.payloadLen? = some none := by
  rw [VlessMessageStream.payloadLen?, holds.ends]
  split
  case isTrue two =>
      have more := incomplete.resolve_left (Nat.not_lt.mpr two)
      rw [holds.slice (Nat.zero_le _) two]
      show some (if 2 + ofBe (live.take 2) ≤ live.length then _ else none) = _
      rw [if_neg (Nat.not_le.mpr more)]
  case isFalse => rfl

/-- A whole message begins the buffer. -/
theorem Holds.payloadLen?_message (holds : this.Holds (encode 2 m ++ rest)) (fits : Fits 2 m) :
    this.payloadLen? = some (some m.length) := by
  have two : 2 ≤ (encode 2 m ++ rest).length := by
    rw [List.length_append, length_encode]
    omega
  rw [VlessMessageStream.payloadLen?, holds.ends, if_pos two, holds.slice (Nat.zero_le _) two]
  show some (if 2 + ofBe ((encode 2 m ++ rest).take 2) ≤ _
    then some (ofBe ((encode 2 m ++ rest).take 2)) else none) = _
  rw [ofBe_take_encode fits, if_pos]
  rw [List.length_append, length_encode]
  exact Nat.le_add_right _ _

/-- The message is taken, and what follows it comes to the front. -/
theorem Holds.takeMessage (holds : this.Holds (encode 2 m ++ rest)) (space : m.length ≤ room) :
    ∃ readBuf readEndIndex,
      this.takeMessage room m.length = some (.ok m, { this with readBuf, readEndIndex }) ∧
      Holds { this with readBuf, readEndIndex } rest := by
  have inside := holds.inside
  have ends := holds.ends
  rw [List.length_append, length_encode] at inside ends
  have payload : this.readBuf.slice 2 (2 + m.length) = some m := by
    rw [holds.slice (Nat.le_add_right _ _) (by rw [List.length_append, length_encode]; omega),
      Nat.add_sub_cancel_left, encode, List.append_assoc, List.drop_left' (length_toBe 2 _),
      List.take_left]
  rw [VlessMessageStream.takeMessage, if_neg (Nat.not_lt.mpr space), payload]
  dsimp only [Option.bind_eq_bind, Option.bind_some]
  by_cases more : rest = []
  · subst more
    rw [if_neg (by rw [ends]; simp)]
    exact ⟨_, _, rfl, holds.allocated, rfl, Nat.zero_le _, rfl⟩
  · have some_ := List.length_pos_iff.mpr more
    have left : this.readBuf.slice (2 + m.length) this.readEndIndex = some rest := by
      rw [holds.ends, holds.slice (by rw [List.length_append, length_encode]; omega)
        (Nat.le_refl _),
        List.length_append, length_encode, Nat.add_sub_cancel_left,
        List.drop_left' length_encode, List.take_length]
    rw [if_pos (by omega), left]
    refine ⟨_, _, rfl, ?_, ?_, by omega, ?_⟩
    · rw [Ring.length_overwrite (by rw [holds.allocated]; omega), holds.allocated]
    · show this.readEndIndex - (2 + m.length) = rest.length
      omega
    · have moved : (Ring.overwrite this.readBuf 0 rest).take (0 + rest.length) =
          this.readBuf.take 0 ++ rest := Ring.take_overwrite (Nat.zero_le _)
      rw [Nat.zero_add] at moved
      exact moved

/-- Reading behind the live bytes appends to them. -/
theorem Holds.filled (holds : this.Holds live) (fits : bytes.length ≤ READ_SIZE - live.length) :
    Holds { this with
      readBuf := Ring.overwrite this.readBuf this.readEndIndex bytes
      readEndIndex := this.readEndIndex + bytes.length } (live ++ bytes) := by
  have inside := holds.inside
  have allocated := holds.allocated
  refine ⟨?_, ?_, ?_, ?_⟩
  · rw [holds.ends, Ring.length_overwrite (by omega), allocated]
  · rw [List.length_append, ← holds.ends]
  · rw [List.length_append]
    omega
  · rw [List.length_append, holds.ends, Ring.take_overwrite (by omega), holds.bytes]

/-- The outcomes of a turn: its answer, if it ends the loop, and the stream and
the world after it. -/
inductive TurnDoes (stream : AsyncStream ω) (room : Nat) (live : Bytes)
    (this : VlessMessageStream) (w : ω) :
    Option (Poll (IoResult Bytes)) → VlessMessageStream → ω → Prop
  | message {m rest readBuf : Bytes} {readEndIndex : Nat} (fits : Fits 2 m)
      (begins : live = encode 2 m ++ rest) (space : m.length ≤ room)
      (holds : Holds { this with readBuf, readEndIndex } rest) :
      TurnDoes stream room live this w (some (.ready (.ok m))) { this with readBuf, readEndIndex } w
  | tooSmall {m rest : Bytes} (fits : Fits 2 m) (begins : live = encode 2 m ++ rest)
      (space : room < m.length) :
      TurnDoes stream room live this w (some (.ready (.error outBufTooSmall))) this w
  | received {bytes readBuf : Bytes} {readEndIndex : Nat} {w' : ω}
      (incomplete : Incomplete 2 live)
      (answered : stream.pollRead (READ_SIZE - live.length) w = (.ready (.ok bytes), w'))
      (some_ : bytes ≠ []) (holds : Holds { this with readBuf, readEndIndex } (live ++ bytes)) :
      TurnDoes stream room live this w none { this with readBuf, readEndIndex } w'
  | eof {w' : ω} (incomplete : Incomplete 2 live)
      (answered : stream.pollRead (READ_SIZE - live.length) w = (.ready (.ok []), w')) :
      TurnDoes stream room live this w
        (some (.ready (if live = [] then .ok [] else .error eofInMessage)))
        { this with isEof := true } w'
  | failed {e : IoError} {w' : ω} (incomplete : Incomplete 2 live)
      (answered : stream.pollRead (READ_SIZE - live.length) w = (.ready (.error e), w')) :
      TurnDoes stream room live this w (some (.ready (.error e))) this w'
  | pending {w' : ω} (incomplete : Incomplete 2 live)
      (answered : stream.pollRead (READ_SIZE - live.length) w = (.pending, w')) :
      TurnDoes stream room live this w (some .pending) this w'

/-- There is no whole message, and a read follows. -/
theorem readTurn_incomplete (holds : this.Holds live) (incomplete : Incomplete 2 live) :
    ∃ answer this' w', readTurn stream room (this, w) = (.returned answer, this', w') ∧
      TurnDoes stream room live this w answer this' w' := by
  have less := length_lt_of_incomplete incomplete
  have turn : readTurn stream room (this, w) = fill stream (READ_SIZE - live.length) (this, w) := by
    have slice : this.readBuf.slice this.readEndIndex this.readBuf.length =
        some (this.readBuf.drop live.length) := by
      rw [holds.ends, List.slice_length (by rw [holds.allocated]; exact holds.inside)]
    have length : (this.readBuf.drop live.length).length = READ_SIZE - live.length := by
      rw [List.length_drop, holds.allocated]
    have some_ : this.readBuf.drop live.length ≠ [] := List.ne_nil_of_length_pos (by omega)
    simp only [readTurn, holds.payloadLen?_incomplete incomplete, slice, if_neg some_, length]
  rw [turn, fill]
  rcases answered : stream.pollRead (READ_SIZE - live.length) w with ⟨_ | e | bytes, w'⟩
  · exact ⟨_, _, _, rfl, .pending incomplete answered⟩
  · exact ⟨_, _, _, rfl, .failed incomplete answered⟩
  · by_cases none_ : bytes = []
    · subst none_
      have empty : (this.readEndIndex = 0) = (live = []) := by
        rw [holds.ends, List.length_eq_zero_iff]
      refine ⟨_, _, _, ?_, .eof incomplete answered⟩
      simp only [List.length_nil, if_pos, empty]
    · refine ⟨_, _, _, ?_, .received incomplete answered none_ (holds.filled ?_)⟩
      · simp only [List.length_eq_zero_iff, if_neg none_]
      · exact stream.read_fits _ _ _ (congrArg Prod.fst answered)

/-- The message that begins the buffer is returned. -/
theorem readTurn_message (holds : this.Holds (encode 2 m ++ rest)) (fits : Fits 2 m)
    (space : m.length ≤ room) :
    ∃ readBuf readEndIndex, readTurn stream room (this, w) =
        (.returned (some (.ready (.ok m))), { this with readBuf, readEndIndex }, w) ∧
      Holds { this with readBuf, readEndIndex } rest := by
  obtain ⟨readBuf, readEndIndex, taken, holds'⟩ := holds.takeMessage space
  refine ⟨readBuf, readEndIndex, ?_, holds'⟩
  simp only [readTurn, holds.payloadLen?_message fits, taken]

theorem readTurn_does (holds : this.Holds live) :
    ∃ answer this' w', readTurn stream room (this, w) = (.returned answer, this', w') ∧
      TurnDoes stream room live this w answer this' w' := by
  by_cases incomplete : Incomplete 2 live
  · exact readTurn_incomplete holds incomplete
  · obtain ⟨m, rest, rfl, -, fits⟩ := exists_encode incomplete
    by_cases space : m.length ≤ room
    · obtain ⟨readBuf, readEndIndex, ran, holds'⟩ := readTurn_message holds fits space
      exact ⟨_, _, _, ran, .message fits rfl space holds'⟩
    · have refused : this.takeMessage room m.length = some (.error outBufTooSmall, this) :=
        if_pos (Nat.lt_of_not_le space)
      refine ⟨_, _, _, ?_, .tooSmall fits rfl (Nat.lt_of_not_le space)⟩
      simp only [readTurn, holds.payloadLen?_message fits, refused]

/-- Bytes that have arrived behind an incomplete message are kept. -/
theorem readTurn_received (holds : this.Holds live) (incomplete : Incomplete 2 live)
    (some_ : bytes ≠ [])
    (answered : stream.pollRead (READ_SIZE - live.length) w = (.ready (.ok bytes), w')) :
    ∃ readBuf readEndIndex, readTurn stream room (this, w) =
        (.returned none, { this with readBuf, readEndIndex }, w') ∧
      Holds { this with readBuf, readEndIndex } (live ++ bytes) := by
  obtain ⟨answer, this', w'', ran, does⟩ := readTurn_incomplete holds incomplete
  rw [ran]
  cases does with
  | message fits begins | tooSmall fits begins =>
      rw [begins] at incomplete
      exact absurd incomplete (not_incomplete_encode fits)
  | eof _ answered' =>
      exact absurd (Except.ok.inj (Poll.ready.inj (Prod.mk.inj (answered.symm.trans answered')).1))
        some_
  | failed _ answered' | pending _ answered' => cases answered.symm.trans answered'
  | received _ answered' _ holds' =>
      cases answered.symm.trans answered'
      exact ⟨_, _, rfl, holds'⟩

/-- Nothing more has arrived. -/
theorem readTurn_pending (holds : this.Holds live) (incomplete : Incomplete 2 live)
    (answered : stream.pollRead (READ_SIZE - live.length) w = (.pending, w')) :
    readTurn stream room (this, w) = (.returned (some .pending), this, w') := by
  obtain ⟨answer, this', w'', ran, does⟩ := readTurn_incomplete holds incomplete
  rw [ran]
  cases does with
  | message fits begins | tooSmall fits begins =>
      rw [begins] at incomplete
      exact absurd incomplete (not_incomplete_encode fits)
  | received _ answered' | eof _ answered' | failed _ answered' =>
      cases answered.symm.trans answered'
  | pending _ answered' =>
      cases answered.symm.trans answered'
      rfl

/-- How much more the read buffer can take. -/
def readVariant (s : Calling ω) : Nat := READ_SIZE - s.1.readEndIndex

/-- A read of some bytes leaves less room. -/
theorem readVariant_lt {readBuf : Bytes} {readEndIndex : Nat} {w' : ω} (holds : this.Holds live)
    (some_ : bytes ≠ []) (holds' : Holds { this with readBuf, readEndIndex } (live ++ bytes)) :
    readVariant ({ this with readBuf, readEndIndex }, w') < readVariant (this, w) := by
  have more := List.length_pos_iff.mpr some_
  have inside := holds'.inside
  have ends := holds'.ends
  rw [List.length_append] at inside ends
  dsimp only at ends
  simp only [readVariant, ends, holds.ends]
  omega

/-- A read before the end of the stream is the loop. -/
theorem pollRead_eq_loop {s : Calling ω} (open_ : s.1.isEof = false) (fuel : Nat) :
    pollReadMessage fuel stream room s = Exec.loop (readTurn stream room) fuel s := by
  rw [pollReadMessage, open_]
  exact if_neg Bool.false_ne_true

end RustProxy.MessageStream.VlessMessageStream
