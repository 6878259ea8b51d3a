import RustProxy.MessageStream.PacketDelivery

/-!
# How reading a packet-address stream ends

A read fails because the stream underneath does, because the bytes that follow the
last frame do not begin another one, or because the read buffer is full. It answers
with the end when the stream underneath has ended, and then no whole frame is left
in the read buffer.

When the bytes received are the frames of a list of packets, as far as they go, a
read fails for the first of these reasons or because the next frame is stuck, and
at the end of the stream the packet of every frame has been returned.
-/

namespace RustProxy.MessageStream

open Relay (produced EofSeen)

variable {ω : Type} {fs : List Framed}

/-- The packets that were read off the bytes of some frames are those of the first
of them. -/
theorem IsStream.split {consumed tail : Bytes} {ps : List Packet} (is : IsStream consumed ps)
    (whole : consumed ++ tail = wire fs) :
    ∃ done rest, fs = done ++ rest ∧ ps = done.map Framed.packet ∧ tail = wire rest := by
  induction is generalizing fs with
  | nil => exact ⟨[], fs, rfl, rfl, whole⟩
  | @cons frame bytes p ps is _ ih =>
      rw [List.append_assoc] at whole
      cases fs with
      | nil =>
          have some_ := is.length_pos
          rw [(List.append_eq_nil_iff.mp whole).1] at some_
          exact absurd some_ (Nat.lt_irrefl 0)
      | cons f fs =>
          obtain ⟨-, rfl, rest⟩ := is.unique f.is whole
          obtain ⟨done, left, rfl, rfl, tail_⟩ := ih rest
          exact ⟨f :: done, left, rfl, rfl, tail_⟩

theorem IsStream.payload_le {bytes : Bytes} {ps : List Packet} (is : IsStream bytes ps) :
    ∀ p ∈ ps, p.payload.length ≤ 65535 := by
  induction is with
  | nil => exact nofun
  | cons is _ ih =>
      intro p mem
      rcases List.mem_cons.mp mem with rfl | mem
      · exact is.payload_le
      · exact ih p mem

/-- The bytes of some frames begin with a whole one, or there are none. -/
theorem eq_nil_of_truncated (incomplete : parsePacket (wire fs) = some (.ok none)) : fs = [] := by
  cases fs with
  | nil => rfl
  | cons f fs =>
      obtain ⟨_, _, _, parsed⟩ := parsePacket_append f.is (wire fs)
      cases parsed.symm.trans incomplete

namespace PacketAddrStream

/-- Why a read has failed. -/
inductive ReadFails (s : Calling (Recorded ω)) : IoError → Prop
  | underneath {e : IoError} {room : Nat} (mem : .read room (.ready (.error e)) ∈ events s.2) :
      ReadFails s e
  | invalid {e : IoError} {start : Nat} {live : Bytes}
      (holds : s.1.readBuf.Holds BUFFER_SIZE start live)
      (stays : ∀ more, parsePacket (live ++ more) = some (.error e)) : ReadFails s e
  | full {start : Nat} {live : Bytes} (holds : s.1.readBuf.Holds BUFFER_SIZE start live)
      (incomplete : parsePacket live = some (.ok none)) (front : start ≤ 4096)
      (full : start + live.length = BUFFER_SIZE) : ReadFails s bufferFull

/-- The stream underneath has ended, and no whole frame is left. -/
structure Ended (s : Calling (Recorded ω)) : Prop where
  eof : EofSeen (events s.2)
  rest : ∃ start live, s.1.readBuf.Holds BUFFER_SIZE start live ∧
    parsePacket live = some (.ok none)

/-- What an answer tells of the stream. -/
def Explained : Poll (IoResult Packet) → Calling (Recorded ω) → Prop
  | .pending, s => s.1.isEof = false
  | .ready (.error e), s => s.1.isEof = false ∧ ReadFails s e
  | .ready (.ok p), s => s.1.isEof = false ∨ p = endOfStream ∧ s.1.isEof = true ∧ Ended s

variable {stream : AsyncStream ω} {s : Calling (Recorded ω)} {start : Nat} {live : Bytes}

theorem mem_events_of_note {α : Type} {side : Side} {event : α → IoEvent} {x : α × ω} {answer : α}
    {w w' : Recorded ω} (noted : Recorded.note side event w.calls x = (answer, w')) :
    event answer ∈ events w' := by
  rw [events_of_note noted]
  exact List.mem_append_right _ (List.mem_singleton_self _)

theorem readTurn_explained (holds : s.1.readBuf.Holds BUFFER_SIZE start live)
    (open_ : s.1.isEof = false) :
    (readTurn (stream.recorded .a) 65535).Meets s (fun _ => False) fun
      | some answer => Explained answer
      | none => fun t => ((∃ start' live', t.1.readBuf.Holds BUFFER_SIZE start' live') ∧
          t.1.isEof = false) ∧ (True → readVariant t < readVariant s) := by
  obtain ⟨this, w⟩ := s
  obtain ⟨answer, this', w', ran, does⟩ : ∃ answer this' w', readTurn (stream.recorded .a) 65535
      (this, w) = (.returned answer, this', w') ∧ TurnDoes _ start live this w answer this' w' :=
    readTurn_does holds
  refine .of_returned ran ?_
  cases does with
  | packet => exact .inl open_
  | invalid stays => exact ⟨open_, .invalid holds stays⟩
  | full incomplete full holds' => exact ⟨open_, .full holds' incomplete (compacted_le _) full⟩
  | received _ _ _ some_ holds' =>
      exact ⟨⟨⟨_, _, holds'⟩, open_⟩, fun _ => readVariant_lt holds some_ holds'⟩
  | eof incomplete answered _ holds' =>
      exact .inr ⟨rfl, rfl, ⟨_, mem_events_of_note answered⟩, _, _, holds', incomplete⟩
  | failed _ answered => exact ⟨open_, .underneath (mem_events_of_note answered)⟩
  | pending => exact open_

/-- Every read before the end of the stream is explained. -/
theorem pollRead_explained (holds : s.1.readBuf.Holds BUFFER_SIZE start live)
    (open_ : s.1.isEof = false) {fuel : Nat} (enough : BUFFER_SIZE < fuel) :
    (pollReadTargetedMessage fuel (stream.recorded .a) 65535).Meets s (fun _ => False)
      Explained := by
  unfold Exec.Meets
  rw [pollRead_eq_loop open_]
  refine Exec.Meets.loop_variant
    (fun t => (∃ start live, t.1.readBuf.Holds BUFFER_SIZE start live) ∧
    t.1.isEof = false) readVariant True ?_ ⟨⟨_, _, holds⟩, open_⟩
    (.inr ⟨trivial, Nat.lt_of_le_of_lt (Nat.sub_le _ _) enough⟩)
  rintro t ⟨⟨start', live', holds'⟩, open'⟩
  refine (readTurn_explained holds' open').mono (fun _ h => h) fun ended _ does => ?_
  cases ended with
  | none => exact does
  | some answer => exact does

/-! ## Writing has nothing to do with reading -/

section Writing

variable {ω : Type} (stream : AsyncStream ω)

theorem send_leaves (fuel : Nat) :
    (send fuel stream).Leaves fun s : Calling ω => s.1.isEof := by
  refine Exec.Leaves.loop ?_ fuel
  intro s
  unfold sendTurn
  dsimp only
  split
  · split
    · rfl
    · split <;> rfl
  · rfl

theorem pollWrite_leaves (fuel : Nat) (buf : Bytes) (source : SocketAddr) :
    (pollWriteSourcedMessage fuel stream buf source).Leaves fun s : Calling ω => s.1.isEof := by
  refine (send_leaves stream fuel).bind fun answer => ?_
  rcases answer with _ | _ | _
  · exact Exec.leaves_pure _
  · exact Exec.leaves_pure _
  · intro s
    simp only [stage]
    split
    · rfl
    · split <;> rfl

theorem pollFlush_leaves (fuel : Nat) :
    (pollFlushMessage fuel stream).Leaves fun s : Calling ω => s.1.isEof := by
  refine (send_leaves stream fuel).bind fun answer => ?_
  rcases answer with _ | _ | _
  · exact Exec.leaves_pure _
  · exact Exec.leaves_pure _
  · exact fun s => rfl

end Writing

/-! ## Bytes that are frames -/

/-- The frames that were returned, and those that the read buffer begins with. -/
theorem Reads.split {ps : List Packet} (reads : Reads ps s)
    (holds : s.1.readBuf.Holds BUFFER_SIZE start live) {more : Bytes}
    (whole : produced (events s.2) ++ more = wire fs) :
    ∃ done rest, fs = done ++ rest ∧ ps = done.map Framed.packet ∧ live ++ more = wire rest := by
  obtain ⟨_, live', consumed, holds', is, account⟩ := reads
  obtain rfl := Option.some.inj (holds'.asSlice.symm.trans holds.asSlice)
  rw [account, List.append_assoc] at whole
  exact is.split whole

/-- When frames are received, a read fails because the stream underneath does, or
because the next frame is stuck. -/
theorem ReadFails.reason {ps : List Packet} {e : IoError} (fails : ReadFails s e)
    (reads : Reads ps s) (received : produced (events s.2) <+: wire fs) :
    (∃ room, .read room (.ready (.error e)) ∈ events s.2) ∨
      e = bufferFull ∧ ∃ f, fs[ps.length]? = some f ∧ Stuck s.1.readBuf.start f.frame := by
  obtain ⟨more, whole⟩ := received
  cases fails with
  | underneath mem => exact .inl ⟨_, mem⟩
  | invalid holds stays =>
      obtain ⟨done, rest, rfl, rfl, tail⟩ := reads.split holds whole
      have parsed := stays more
      rw [tail] at parsed
      cases rest with
      | nil => cases parsed
      | cons f rest =>
          obtain ⟨_, _, _, parsed'⟩ := parsePacket_append f.is (wire rest)
          cases parsed'.symm.trans parsed
  | @full start live holds incomplete front full =>
      obtain ⟨done, rest, rfl, rfl, tail⟩ := reads.split holds whole
      cases rest with
      | nil =>
          rw [(List.append_eq_nil_iff.mp tail).1] at full
          simp only [List.length_nil, BUFFER_SIZE] at full
          omega
      | cons f rest =>
          have less : live.length < f.frame.length :=
            length_lt_of_truncated incomplete f.is ⟨wire rest, tail.symm⟩
          have fits := f.fits
          refine .inr ⟨rfl, f, ?_, ?_⟩
          · rw [List.length_map, List.getElem?_append_right (Nat.le_refl _), Nat.sub_self]
            rfl
          · rw [holds.starts]
            exact ⟨by omega, front, by omega⟩

/-- At the end of the stream the packets of all frames were returned. -/
theorem Ended.all {ps : List Packet} (ended : Ended s) (reads : Reads ps s)
    (whole : produced (events s.2) = wire fs) : ps = fs.map Framed.packet := by
  obtain ⟨start, live, holds, incomplete⟩ := ended.rest
  rw [← List.append_nil (produced _)] at whole
  obtain ⟨done, rest, rfl, rfl, tail⟩ := reads.split holds whole
  rw [List.append_nil] at tail
  rw [tail] at incomplete
  rw [eq_nil_of_truncated incomplete, List.append_nil]

end PacketAddrStream

end RustProxy.MessageStream
