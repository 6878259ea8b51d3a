import RustProxy.MessageStream.UotAddress

/-!
# Packet-address frames

A frame is an address, the length of a payload in two bytes, and the payload.
`parsePacket` is `try_parse_packet` on the bytes of the read buffer.

`IsFrame` is the grammar of a frame and `IsStream` that of a stream of them. No
frame begins another one: what the parser takes off a stream is the first frame
of it, and stays so when the stream goes on. An answer that a frame is not
complete is the answer to bytes that no frame fits into.
-/

namespace RustProxy.MessageStream

open BigEndian

structure Packet where
  location : NetLocation
  payload : Bytes
  deriving DecidableEq

/-- The packet that begins the data: its location, where its payload starts and
how long it is. -/
def parsePacket (data : Bytes) : Option (IoResult (Option (NetLocation × Nat × Nat))) := do
  match ← parseUotAddress data with
  | .error e => return .error e
  | .ok none => return .ok none
  | .ok (some (location, addrLen)) =>
      if data.length < addrLen + 2 then return .ok none
      else do
        let payloadLen ← u16At data addrLen
        let payloadLen := payloadLen.toNat
        let payloadStart := addrLen + 2
        let totalLen := payloadStart + payloadLen
        if data.length < totalLen then return .ok none
        else return .ok (some (location, payloadStart, payloadLen))

/-- The bytes of a frame. -/
inductive IsFrame : Bytes → Packet → Prop
  | mk {address payload : Bytes} {location : NetLocation} {payloadLen : UInt16}
      (is : IsAddress address location) (announced : payloadLen.toNat = payload.length) :
      IsFrame (address ++ (toBe 2 payloadLen.toNat ++ payload)) ⟨location, payload⟩

/-- The frames of packets, one after the other. -/
inductive IsStream : Bytes → List Packet → Prop
  | nil : IsStream [] []
  | cons {frame bytes : Bytes} {p : Packet} {ps : List Packet} (is : IsFrame frame p)
      (rest : IsStream bytes ps) : IsStream (frame ++ bytes) (p :: ps)

/-- What the parser can answer: the frame that begins the data, that it is not
all there, or an error that further bytes do not change. -/
inductive ParsedPacket (data : Bytes) :
    Option (IoResult (Option (NetLocation × Nat × Nat))) → Prop
  | truncated : ParsedPacket data (some (.ok none))
  | complete {frame more : Bytes} {p : Packet} {payloadStart : Nat} (is : IsFrame frame p)
      (begins : data = frame ++ more) (ends : payloadStart + p.payload.length = frame.length)
      (payload : data.slice payloadStart (payloadStart + p.payload.length) = some p.payload) :
      ParsedPacket data (some (.ok (some (p.location, payloadStart, p.payload.length))))
  | invalid {e : IoError} (stays : ∀ more, parsePacket (data ++ more) = some (.error e)) :
      ParsedPacket data (some (.error e))

/-- The parser finds the frame that begins the data. -/
theorem parsePacket_append {frame : Bytes} {p : Packet} (is : IsFrame frame p) (more : Bytes) :
    ∃ payloadStart, payloadStart + p.payload.length = frame.length ∧
      (frame ++ more).slice payloadStart (payloadStart + p.payload.length) = some p.payload ∧
      parsePacket (frame ++ more) =
        some (.ok (some (p.location, payloadStart, p.payload.length))) := by
  cases is with
  | @mk address payload location payloadLen is announced =>
      have parsed := parseUotAddress_append is (toBe 2 payloadLen.toNat ++ (payload ++ more))
      have length : u16At (address ++ (toBe 2 payloadLen.toNat ++ (payload ++ more)))
          address.length = some payloadLen := u16At_append payloadLen rfl
      refine ⟨address.length + 2, ?_, ?_, ?_⟩
      · simp only [List.length_append, length_toBe]
        omega
      · have slice : ((address ++ toBe 2 payloadLen.toNat) ++ (payload ++ more)).slice
            (address.length + 2) (address.length + 2 + payload.length) = some payload :=
          List.slice_append (by rw [List.length_append, length_toBe]) rfl
        simpa using slice
      · simp only [List.append_assoc]
        rw [parsePacket, parsed]
        dsimp only [Option.bind_eq_bind, Option.bind_some]
        rw [if_neg (by simp only [List.length_append, length_toBe]; omega), length]
        dsimp only [Option.bind_some]
        rw [if_neg (by simp only [List.length_append, length_toBe, announced]; omega), announced]
        rfl

/-- The answer when the address is there. -/
theorem parsedPacket_address {bytes more : Bytes} {location : NetLocation}
    (is : IsAddress bytes location) :
    ParsedPacket (bytes ++ more) (do
      if (bytes ++ more).length < bytes.length + 2 then return .ok none
      else do
        let payloadLen ← u16At (bytes ++ more) bytes.length
        if (bytes ++ more).length < bytes.length + 2 + payloadLen.toNat then return .ok none
        else return .ok (some (location, bytes.length + 2, payloadLen.toNat))) := by
  by_cases short : (bytes ++ more).length < bytes.length + 2
  · rw [if_pos short]
    exact .truncated
  rw [if_neg short]
  rw [List.length_append] at short
  match more with
  | [] | [_] => simp at short
  | high :: low :: tail =>
      have found : u16At (bytes ++ (toBe 2 (UInt16.ofNat (ofBe [high, low])).toNat ++ tail))
          bytes.length = some (UInt16.ofNat (ofBe [high, low])) := u16At_append _ rfl
      rw [toBe_ofNat_ofBe] at found
      simp only [List.cons_append, List.nil_append] at found
      rw [found]
      dsimp only [Option.bind_eq_bind, Option.bind_some]
      set payloadLen := UInt16.ofNat (ofBe [high, low]) with payloadLen_
      split
      case isTrue => exact .truncated
      case isFalse long =>
          obtain ⟨payload, rest, rfl, length⟩ := exists_append
            (show payloadLen.toNat ≤ tail.length by
              simp only [List.length_append, List.length_cons] at long
              omega)
          have frame :
              IsFrame (bytes ++ (toBe 2 payloadLen.toNat ++ payload)) ⟨location, payload⟩ :=
            .mk is length.symm
          obtain ⟨payloadStart, ends, slice, -⟩ := parsePacket_append frame rest
          obtain rfl : payloadStart = bytes.length + 2 := by
            simp only [List.length_append, length_toBe] at ends
            omega
          have begins : bytes ++ high :: low :: (payload ++ rest) =
              bytes ++ (toBe 2 payloadLen.toNat ++ payload) ++ rest := by
            rw [payloadLen_, toBe_ofNat_ofBe]
            simp
          have complete := ParsedPacket.complete frame rfl ends slice
          rw [length] at complete
          rw [begins]
          exact complete

theorem parsedPacket (data : Bytes) : ParsedPacket data (parsePacket data) := by
  have address := parsedAddress data
  rw [parsePacket]
  cases answer : parseUotAddress data with
  | none =>
      rw [answer] at address
      cases address
  | some result =>
      rw [answer] at address
      cases address with
      | truncated => exact .truncated
      | invalid stays =>
          refine .invalid fun more => ?_
          rw [parsePacket, stays more]
          rfl
      | @complete bytes more location is begins =>
          subst begins
          exact parsedPacket_address is

/-! ## One frame after the other -/

variable {frame frame' bytes bytes' rest rest' whole : Bytes} {p p' : Packet} {ps ps' : List Packet}

/-- No frame begins another one. -/
theorem IsFrame.unique (is : IsFrame frame p) (is' : IsFrame frame' p')
    (same : frame ++ rest = frame' ++ rest') : frame = frame' ∧ p = p' ∧ rest = rest' := by
  obtain ⟨payloadStart, ends, payload, parsed⟩ := parsePacket_append is rest
  obtain ⟨payloadStart', ends', payload', parsed'⟩ := parsePacket_append is' rest'
  rw [same] at parsed payload
  have answers := parsed.symm.trans parsed'
  simp only [Option.some.injEq, Except.ok.injEq, Prod.mk.injEq] at answers
  obtain ⟨location, start, length⟩ := answers
  rw [length, start] at payload ends
  obtain ⟨rfl, rfl⟩ := List.append_inj same (ends.symm.trans ends')
  refine ⟨rfl, ?_, rfl⟩
  cases p
  cases p'
  simp_all

theorem IsFrame.length_pos (is : IsFrame frame p) : 0 < frame.length := by
  cases is
  simp only [List.length_append, length_toBe]
  omega

theorem IsStream.append (first : IsStream bytes ps) (second : IsStream bytes' ps') :
    IsStream (bytes ++ bytes') (ps ++ ps') := by
  induction first with
  | nil => exact second
  | cons is _ ih =>
      rw [List.append_assoc]
      exact .cons is ih

theorem isStream_singleton (is : IsFrame frame p) : IsStream frame [p] := by
  have one := IsStream.cons is .nil
  rwa [List.append_nil] at one

/-- Two ways to take packets off the beginning of a stream agree, as far as the
shorter one goes. -/
theorem IsStream.first_packets (first : IsStream bytes ps) (second : IsStream bytes' ps')
    (begins : bytes <+: whole) (begins' : bytes' <+: whole) (fewer : ps.length ≤ ps'.length) :
    ps'.take ps.length = ps := by
  induction first generalizing bytes' ps' whole with
  | nil => rfl
  | @cons frame bytes p ps is _ ih =>
      cases second with
      | nil => simp at fewer
      | @cons frame' bytes' p' ps' is' rest' =>
          obtain ⟨after, rfl⟩ := begins
          obtain ⟨after', same⟩ := begins'
          rw [List.append_assoc, List.append_assoc] at same
          obtain ⟨rfl, rfl, same⟩ := is.unique is' same.symm
          rw [List.length_cons, List.take_succ_cons,
            ih rest' (List.prefix_append _ _) ⟨after', same.symm⟩ (by simpa using fewer)]

/-- Bytes of a frame that is not complete have no frame in them, however they go
on. -/
theorem length_lt_of_truncated {data more : Bytes} (incomplete : parsePacket data = some (.ok none))
    (is : IsFrame frame p) (begins : frame <+: data ++ more) : data.length < frame.length := by
  by_contra short
  obtain ⟨after, rfl⟩ : frame <+: data :=
    List.prefix_of_prefix_length_le begins (List.prefix_append _ _) (Nat.le_of_not_lt short)
  obtain ⟨payloadStart, -, -, parsed⟩ := parsePacket_append is after
  cases parsed.symm.trans incomplete

end RustProxy.MessageStream
