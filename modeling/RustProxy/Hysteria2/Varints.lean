import RustProxy.Hysteria2.Header

/-!
# One encoder and two decoders of varints

`encode_varint` writes the lengths that the server sends, `read_varint` reads
the numbers of a TCP request off a stream, and the loop over datagrams has a
decoder of its own. All three are about the same encodings: the encoder picks
the shortest one, and the decoders take any.
-/

namespace RustProxy.Hysteria2

open BigEndian StreamReader

/-- The shortest of the four widths that can hold a number. -/
structure IsShortest (value width : Nat) : Prop where
  among : width ∈ [1, 2, 4, 8]
  holds : value < 2 ^ (8 * width - 2)
  shortest : ∀ other ∈ [1, 2, 4, 8], value < 2 ^ (8 * other - 2) → width ≤ other

/-- Both decoders read the number off the front and stop in front of `more`. -/
structure Decodes (bytes : Bytes) (value : Nat) (more : Bytes) : Prop where
  stream : ∀ size, 8 ≤ size →
    readVarint.Returns (Holds size (bytes ++ more)) value (Holds size more)
  datagram : ∀ head : Bytes, head.length = 8 →
    addressLength (head ++ (bytes ++ more)) = some (value, 8 + bytes.length)

/-- The decoder of the datagrams, behind the eight bytes of the other fields. -/
theorem addressLength_append {head remaining : Bytes} {firstByte : UInt8}
    (eight : head.length = 8) (announced : remaining.length = numBytes (firstByte >>> 6) - 1)
    (more : Bytes) :
    addressLength (head ++ firstByte :: (remaining ++ more)) =
      some (varintValue firstByte remaining, 8 + (remaining.length + 1)) := by
  have first : (head ++ firstByte :: (remaining ++ more))[8]? = some firstByte := by
    rw [List.getElem?_append_right (by omega), eight]
    rfl
  rw [addressLength, first]
  dsimp only [Option.bind_eq_bind, Option.bind_some]
  split
  · have slice : (head ++ firstByte :: (remaining ++ more)).slice 9
        (9 + (numBytes (firstByte >>> 6) - 1)) = some remaining := by
      rw [← announced, List.append_cons]
      exact List.slice_append (by simp [eight]) rfl
    rw [slice, ← announced]
    show some (_, 9 + remaining.length) = _
    rw [Nat.add_comm remaining.length, ← Nat.add_assoc]
    rfl
  · have none_ : remaining = [] := List.eq_nil_of_length_eq_zero (by omega)
    subst none_
    rfl

theorem decodes_varint {value : Nat} (v : Varint value) (more : Bytes) :
    Decodes v.bytes value more where
  stream := fun size room => readVarint_returns v room
  datagram := by
    intro head eight
    obtain ⟨firstByte, remaining, bytes, announced, denotes⟩ := v.split
    rw [bytes, List.cons_append, addressLength_append eight announced, denotes, List.length_cons]

@[simp] theorem Varint.length_bytes {value : Nat} (v : Varint value) :
    v.bytes.length = 2 ^ v.width.val := by
  rw [Varint.bytes, List.length_modifyHead, length_toBe]

theorem Varint.lt_of_width {value : Nat} (v : Varint value) : value < 2 ^ 62 := by
  have fits := v.fits
  have widest : 256 ^ (2 ^ v.width.val - 1) ≤ 256 ^ 7 := by
    apply Nat.pow_le_pow_right (by decide)
    have : 2 ^ v.width.val ≤ 2 ^ 3 := Nat.pow_le_pow_right (by decide) (by omega)
    omega
  omega

/-- The encoder writes a varint of the shortest width. -/
theorem encodeVarint_shortest {value : Nat} (small : value < 2 ^ 62) :
    ∃ v : Varint value, encodeVarint value = .ok v.bytes ∧ IsShortest value (2 ^ v.width.val) := by
  rw [encodeVarint]
  split
  · have shortest : IsShortest value 1 := ⟨by decide, by simp; omega, by simp⟩
    have fits : value < 64 * 256 ^ 0 := by omega
    exact ⟨⟨0, fits⟩, by simp [Varint.bytes, toBe], shortest⟩
  · split
    · have shortest : IsShortest value 2 := ⟨by decide, by simp; omega, by simp; omega⟩
      have fits : value < 64 * 256 ^ 1 := by omega
      exact ⟨⟨1, fits⟩, rfl, shortest⟩
    · split
      · have shortest : IsShortest value 4 := ⟨by decide, by simp; omega, by simp; omega⟩
        have fits : value < 64 * 256 ^ 3 := by omega
        exact ⟨⟨2, fits⟩, rfl, shortest⟩
      · have shortest : IsShortest value 8 := ⟨by decide, by simp; omega, by simp; omega⟩
        have fits : value < 64 * 256 ^ 7 := by omega
        exact ⟨⟨3, fits⟩, rfl, shortest⟩

theorem encodeVarint_refuses {value : Nat} (large : 2 ^ 62 ≤ value) :
    encodeVarint value = .error ⟨.other, "value too large to encode as varint"⟩ := by
  rw [encodeVarint, if_neg (by omega), if_neg (by omega), if_neg (by omega), if_neg (by omega)]

/-- Every number below `2 ^ 62` is encoded in the shortest width and read back
by both decoders, no other one is encoded, and on every string that is as long
as its first byte announces the decoders agree on a number below `2 ^ 62`. -/
theorem varints_agree :
    (∀ value < 2 ^ 62, ∃ bytes, encodeVarint value = .ok bytes ∧ IsShortest value bytes.length ∧
      ∀ more, Decodes bytes value more) ∧
    (∀ value, 2 ^ 62 ≤ value → ∃ e, encodeVarint value = .error e) ∧
    ∀ (firstByte : UInt8) (rest : Bytes), numBytes (firstByte >>> 6) - 1 ≤ rest.length →
      ∃ value < 2 ^ 62, Decodes (firstByte :: rest.take (numBytes (firstByte >>> 6) - 1)) value
        (rest.drop (numBytes (firstByte >>> 6) - 1)) := by
  refine ⟨fun value small => ?_, fun value large => ⟨_, encodeVarint_refuses large⟩,
    fun firstByte rest enough => ?_⟩
  · obtain ⟨v, encoded, shortest⟩ := encodeVarint_shortest small
    rw [← v.length_bytes] at shortest
    exact ⟨v.bytes, encoded, shortest, decodes_varint v⟩
  · obtain ⟨v, bytes⟩ := exists_varint (List.length_take_of_le enough) rfl
    rw [← bytes]
    exact ⟨_, v.lt_of_width, decodes_varint v _⟩

end RustProxy.Hysteria2
