import RustProxy.MessageStream.PacketAddr

/-!
# What a write of the packet-address stream can do

The write buffer holds the part of one frame that the stream underneath has not
accepted yet. `Stages` says which bytes these are. Sending offers all of them
and drops those that were accepted, and `stage` puts a new frame there when none
are left.
-/

namespace RustProxy.MessageStream

open BigEndian

/-- The frame of a message from a source. -/
def frameOf (buf : Bytes) (source : SocketAddr) : Bytes :=
  uotAddress source ++ (toBe 2 buf.length ++ buf)

@[simp] theorem length_frameOf (buf : Bytes) (source : SocketAddr) :
    (frameOf buf source).length = (uotAddress source).length + 2 + buf.length := by
  simp only [frameOf, List.length_append, length_toBe]
  omega

theorem isFrame_frameOf {buf : Bytes} {source : SocketAddr} (fits : buf.length < 2 ^ 16) :
    IsFrame (frameOf buf source) ⟨locationOf source, buf⟩ := by
  have announced : (UInt16.ofNat buf.length).toNat = buf.length := UInt16.toNat_ofNat_of_lt' fits
  have is := IsFrame.mk (isAddress_uotAddress source) announced
  rwa [announced] at is

namespace PacketAddrStream

/-- The bytes of the write buffer that are still to be sent. -/
structure Stages (this : PacketAddrStream) (staged : Bytes) : Prop where
  allocated : this.writeBuf.length = BUFFER_SIZE
  inside : this.writeBufLen ≤ BUFFER_SIZE
  sent : this.writeBufSent ≤ this.writeBufLen
  bytes : (this.writeBuf.take this.writeBufLen).drop this.writeBufSent = staged

variable {ω : Type} {stream : AsyncStream ω} {this : PacketAddrStream} {w : ω} {staged : Bytes}

theorem stages_newUot (readMemory writeMemory : Nat → UInt8) :
    (newUot readMemory writeMemory).Stages [] where
  allocated := by simp [newUot, Relay.allocateVec]
  inside := Nat.zero_le _
  sent := Nat.le_refl _
  bytes := rfl

theorem Stages.length (stages : this.Stages staged) :
    staged.length = this.writeBufLen - this.writeBufSent := by
  have inside := stages.inside
  have allocated := stages.allocated
  rw [← stages.bytes, List.length_drop, List.length_take]
  omega

theorem Stages.slice (stages : this.Stages staged) :
    this.writeBuf.slice this.writeBufSent this.writeBufLen = some staged := by
  rw [List.slice_eq stages.sent (by rw [stages.allocated]; exact stages.inside), ← List.drop_take,
    stages.bytes]

/-- The outcomes of a turn of the loop that sends. -/
inductive SendDoes (stream : AsyncStream ω) (staged : Bytes) (this : PacketAddrStream) (w : ω) :
    Option (Poll (IoResult Unit)) → PacketAddrStream → ω → Prop
  | done (nothing : staged = [])
      (stages : Stages { this with writeBufLen := 0, writeBufSent := 0 } []) :
      SendDoes stream staged this w (some (.ready (.ok ())))
        { this with writeBufLen := 0, writeBufSent := 0 } w
  | wrote {n : Nat} {w' : ω} (some_ : staged ≠ [])
      (answered : stream.pollWrite staged w = (.ready (.ok n), w'))
      (stages : Stages { this with writeBufSent := this.writeBufSent + n } (staged.drop n)) :
      SendDoes stream staged this w none { this with writeBufSent := this.writeBufSent + n } w'
  | failed {e : IoError} {w' : ω} (answered : stream.pollWrite staged w = (.ready (.error e), w')) :
      SendDoes stream staged this w (some (.ready (.error e))) this w'
  | pending {w' : ω} (answered : stream.pollWrite staged w = (.pending, w')) :
      SendDoes stream staged this w (some .pending) this w'

theorem sendTurn_does (stages : this.Stages staged) :
    ∃ answer this' w', sendTurn stream (this, w) = (.returned answer, this', w') ∧
      SendDoes stream staged this w answer this' w' := by
  have length := stages.length
  by_cases more : this.writeBufSent < this.writeBufLen
  · have some_ : staged ≠ [] := by
      rintro rfl
      rw [List.length_nil] at length
      omega
    rcases answered : stream.pollWrite staged w with ⟨_ | e | n, w'⟩
    · refine ⟨_, _, _, ?_, .pending answered⟩
      simp only [sendTurn, if_pos more, stages.slice, answered]
    · refine ⟨_, _, _, ?_, .failed answered⟩
      simp only [sendTurn, if_pos more, stages.slice, answered]
    · have fits := stream.write_fits _ _ _ (congrArg Prod.fst answered)
      refine ⟨_, _, _, ?_, .wrote some_ answered ?_⟩
      · simp only [sendTurn, if_pos more, stages.slice, answered]
      · refine ⟨stages.allocated, stages.inside, ?_, ?_⟩
        · show this.writeBufSent + n ≤ this.writeBufLen
          omega
        · show (this.writeBuf.take this.writeBufLen).drop (this.writeBufSent + n) = _
          rw [← List.drop_drop, stages.bytes]
  · refine ⟨_, _, _, if_neg more, .done (List.length_eq_zero_iff.mp (by omega)) ?_⟩
    exact ⟨stages.allocated, Nat.zero_le _, Nat.le_refl _, rfl⟩

/-- The frame comes to stand at the beginning of the write buffer. -/
theorem writeFrame_begins {writeBuf buf : Bytes} {source : SocketAddr}
    (allocated : writeBuf.length = BUFFER_SIZE) (fits : (frameOf buf source).length ≤ BUFFER_SIZE) :
    ∃ writeBuf', writeFrame writeBuf buf source = some ((frameOf buf source).length, writeBuf') ∧
      writeBuf'.length = BUFFER_SIZE ∧ frameOf buf source <+: writeBuf' := by
  have total := length_frameOf buf source
  obtain ⟨buf₁, first, length₁, begins₁⟩ :=
    writeUotAddress_begins source (show 19 ≤ writeBuf.length by rw [allocated]; decide)
  obtain ⟨buf₂, second, length₂, begins₂⟩ := List.copyFromSlice_concat begins₁
    (show (uotAddress source).length + 2 = (uotAddress source).length + (toBe 2 buf.length).length
      by rw [length_toBe]) rfl (by omega)
  obtain ⟨buf₃, third, length₃, begins₃⟩ := List.copyFromSlice_concat begins₂
    (show (uotAddress source).length + 2 + buf.length = (uotAddress source).length + 2 + buf.length
      from rfl) (by rw [List.length_append, length_toBe]) (by omega)
  refine ⟨buf₃, ?_, by omega, ?_⟩
  · rw [writeFrame, first, total]
    dsimp only [Option.bind_eq_bind, Option.bind_some]
    rw [second]
    dsimp only [Option.bind_some]
    rw [third]
    rfl
  · rw [List.append_assoc] at begins₃
    exact begins₃

/-- The writer and the codec have the same length for an address. -/
theorem addrLen_eq (source : SocketAddr) : addrLen source = (uotAddress source).length := by
  cases source with
  | v4 ip port => rfl
  | v6 ip port flowinfo scopeId =>
      simp only [addrLen, uotAddress, List.length_append, length_octets, length_toBe,
        List.length_singleton]

/-- A message is staged as a whole, or refused because its frame is too long. -/
theorem stage_does (stages : this.Stages []) (rewound : this.writeBufSent = 0) (buf : Bytes)
    (source : SocketAddr) :
    (BUFFER_SIZE < (frameOf buf source).length ∧ stage buf source (this, w) =
      (.returned (.ready (.error (frameTooLarge (frameOf buf source).length BUFFER_SIZE))),
        this, w)) ∨
    (frameOf buf source).length ≤ BUFFER_SIZE ∧ ∃ writeBuf,
      stage buf source (this, w) = (.returned (.ready (.ok ())),
        { this with writeBuf, writeBufLen := (frameOf buf source).length }, w) ∧
      Stages { this with writeBuf, writeBufLen := (frameOf buf source).length }
        (frameOf buf source) := by
  have total := (length_frameOf buf source).symm
  by_cases fits : (frameOf buf source).length ≤ BUFFER_SIZE
  · obtain ⟨writeBuf, written, allocated, begins⟩ := writeFrame_begins stages.allocated fits
    refine .inr ⟨fits, writeBuf, ?_, allocated, fits, ?_, ?_⟩
    · rw [stage, addrLen_eq, total, stages.allocated, if_neg (Nat.not_lt.mpr fits), written]
    · rw [rewound]
      exact Nat.zero_le _
    · dsimp only
      rw [rewound, List.drop_zero]
      exact (List.prefix_iff_eq_take.mp begins).symm
  · refine .inl ⟨Nat.lt_of_not_le fits, ?_⟩
    rw [stage, addrLen_eq, total, stages.allocated, if_pos (Nat.lt_of_not_le fits)]

/-! ## A stream that takes everything -/

/-- Every write is taken as a whole, and every flush is through at once. -/
structure TakesAll (stream : AsyncStream ω) : Prop where
  writes : ∀ offered w, (stream.pollWrite offered w).1 = .ready (.ok offered.length)
  flushes : ∀ w, (stream.pollFlush w).1 = .ready (.ok ())

variable {fuel : Nat}

theorem TakesAll.send (takes : TakesAll stream) (w : ω) (stages : this.Stages staged)
    (enough : 2 ≤ fuel) :
    ∃ this' w', send fuel stream (this, w) = (.returned (.ready (.ok ())), this', w') ∧
      this'.Stages [] ∧ this'.writeBufSent = 0 := by
  obtain ⟨fuel, rfl⟩ := Nat.exists_eq_add_of_le' enough
  obtain ⟨answer, this', w', ran, does⟩ : ∃ answer this' w', sendTurn stream (this, w) =
      (.returned answer, this', w') ∧ SendDoes stream staged this w answer this' w' :=
    sendTurn_does stages
  cases does with
  | done nothing stages' => exact ⟨_, _, Exec.loop_of_some ran (fuel + 1), stages', rfl⟩
  | @wrote n _ _ answered stages' =>
      have all := takes.writes staged w
      rw [answered] at all
      obtain rfl : n = staged.length := Except.ok.inj (Poll.ready.inj all)
      rw [List.drop_length] at stages'
      obtain ⟨answer, this'', w'', ran', does'⟩ : ∃ answer this'' w'', sendTurn stream
          ({ this with writeBufSent := this.writeBufSent + staged.length }, w') =
          (.returned answer, this'', w'') ∧ SendDoes stream [] _ w' answer this'' w'' :=
        sendTurn_does stages'
      have loops : send (fuel + 2) stream (this, w) = _ := Exec.loop_of_none ran (fuel + 1)
      cases does' with
      | done _ stages'' =>
          exact ⟨_, _, loops.trans (Exec.loop_of_some ran' fuel), stages'', rfl⟩
      | wrote some_ => exact absurd rfl some_
      | failed answered' | pending answered' =>
          have none_ := takes.writes [] w'
          rw [answered'] at none_
          cases none_
  | failed answered | pending answered =>
      have all := takes.writes staged w
      rw [answered] at all
      cases all

/-- Such a stream has every message that fits taken at once. -/
theorem TakesAll.pollWrite (takes : TakesAll stream) (w : ω) (stages : this.Stages staged)
    {buf : Bytes} {source : SocketAddr} (fits : (frameOf buf source).length ≤ BUFFER_SIZE)
    (enough : 2 ≤ fuel) :
    ∃ this' w', pollWriteSourcedMessage fuel stream buf source (this, w) =
        (.returned (.ready (.ok ())), this', w') ∧ this'.Stages (frameOf buf source) := by
  obtain ⟨middle, w', sent, nothing, rewound⟩ := takes.send w stages enough
  obtain ⟨large, -⟩ | ⟨-, writeBuf, ran, stages'⟩ := stage_does (w := w') nothing rewound buf source
  · exact absurd fits (Nat.not_le.mpr large)
  · exact ⟨_, w', (Exec.bind_of_returned sent).trans ran, stages'⟩

theorem TakesAll.pollFlush (takes : TakesAll stream) (w : ω) (stages : this.Stages staged)
    (enough : 2 ≤ fuel) :
    ∃ this' w', pollFlushMessage fuel stream (this, w) =
        (.returned (.ready (.ok ())), this', w') ∧ this'.Stages [] := by
  obtain ⟨middle, w', sent, nothing, -⟩ := takes.send w stages enough
  refine ⟨middle, (stream.pollFlush w').2, (Exec.bind_of_returned sent).trans ?_, nothing⟩
  have through := takes.flushes w'
  dsimp only
  rw [through]

end PacketAddrStream

end RustProxy.MessageStream
