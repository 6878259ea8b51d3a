import RustProxy.Text

/-!
# Texts as bytes and back

The decoders of `Text` invert the encoding of a text: the first character of an
encoded text is its first character, whatever follows, so both `from_utf8` and
`from_utf8_lossy` give back what was encoded.
-/

namespace RustProxy

section FirstChar

variable {lead second third fourth : UInt8} {rest : Bytes}

theorem inRange_iff {least most byte : UInt8} : (least ≤ byte && byte ≤ most) = true ↔
    least.toNat ≤ byte.toNat ∧ byte.toNat ≤ most.toNat := by
  simp only [Bool.and_eq_true, decide_eq_true_eq, UInt8.le_iff_toNat_le]

theorem not_lt_ascii (large : 0x80 ≤ lead.toNat) : ¬lead < 0x80 := by
  rw [UInt8.lt_iff_toNat_lt]
  exact Nat.not_lt.mpr large

theorem firstChar_one (small : lead.toNat < 0x80) :
    firstChar (lead :: rest) = (some (codePoint lead.toNat []), 1) := by
  have first : lead < 0x80 := UInt8.lt_iff_toNat_lt.mpr small
  simp only [firstChar, if_pos first]

theorem firstChar_two (least : 0xc2 ≤ lead.toNat) (most : lead.toNat ≤ 0xdf)
    (next : continues second = true) :
    firstChar (lead :: second :: rest) = (some (codePoint (lead.toNat % 32) [second]), 2) := by
  have range : (0xc2 ≤ lead && lead ≤ 0xdf) = true := inRange_iff.mpr ⟨least, most⟩
  simp only [firstChar, List.getD_cons_zero, List.getD_cons_succ]
  rw [if_neg (not_lt_ascii (by omega)), if_pos range, if_pos next]

theorem not_two (more : 0xdf < lead.toNat) : ¬(0xc2 ≤ lead && lead ≤ 0xdf) = true := by
  rw [inRange_iff, not_and, Nat.not_le]
  exact fun _ => more

theorem firstChar_three (least : 0xe0 ≤ lead.toNat) (most : lead.toNat ≤ 0xef)
    (fits : secondFits lead second = true) (next : continues third = true) :
    firstChar (lead :: second :: third :: rest) =
      (some (codePoint (lead.toNat % 16) [second, third]), 3) := by
  have range : (0xe0 ≤ lead && lead ≤ 0xef) = true := inRange_iff.mpr ⟨least, most⟩
  simp only [firstChar, List.getD_cons_zero, List.getD_cons_succ]
  rw [if_neg (not_lt_ascii (by omega)), if_neg (not_two (by omega)), if_pos range,
    if_neg (by simp [fits]), if_pos next]

theorem firstChar_four (least : 0xf0 ≤ lead.toNat) (most : lead.toNat ≤ 0xf4)
    (fits : secondFits lead second = true) (next : continues third = true)
    (last : continues fourth = true) :
    firstChar (lead :: second :: third :: fourth :: rest) =
      (some (codePoint (lead.toNat % 8) [second, third, fourth]), 4) := by
  have range : (0xf0 ≤ lead && lead ≤ 0xf4) = true := inRange_iff.mpr ⟨least, most⟩
  have notThree : ¬(0xe0 ≤ lead && lead ≤ 0xef) = true := by
    rw [inRange_iff, not_and, Nat.not_le]
    exact fun _ => least
  simp only [firstChar, List.getD_cons_zero, List.getD_cons_succ]
  rw [if_neg (not_lt_ascii (by omega)), if_neg (not_two (by omega)), if_neg notThree,
    if_pos range, if_neg (by simp [fits]), if_neg (by simp [next]), if_pos last]

end FirstChar

theorem toNat_ofNat {n : Nat} (small : n < 256) : (UInt8.ofNat n).toNat = n := by
  rw [UInt8.toNat_ofNat', Nat.mod_eq_of_lt small]

theorem continues_ofNat {n : Nat} (small : n < 64) : continues (UInt8.ofNat (n + 0x80)) = true := by
  rw [continues, toNat_ofNat (by omega), decide_eq_true_eq]
  omega

/-- Second bytes that fit, as numbers. -/
theorem secondFits_of {lead second : UInt8} (least : 0x80 ≤ second.toNat)
    (most : second.toNat ≤ 0xbf) (e0 : lead.toNat = 0xe0 → 0xa0 ≤ second.toNat)
    (ed : lead.toNat = 0xed → second.toNat ≤ 0x9f) (f0 : lead.toNat = 0xf0 → 0x90 ≤ second.toNat)
    (f4 : lead.toNat = 0xf4 → second.toNat ≤ 0x8f) : secondFits lead second = true := by
  unfold secondFits
  split_ifs with first first first first <;> try subst first
  · exact inRange_iff.mpr ⟨e0 rfl, most⟩
  · exact inRange_iff.mpr ⟨least, ed rfl⟩
  · exact inRange_iff.mpr ⟨f0 rfl, most⟩
  · exact inRange_iff.mpr ⟨least, f4 rfl⟩
  · exact inRange_iff.mpr ⟨least, most⟩

/-- The numbers of characters. -/
theorem toNat_range (c : Char) : c.toNat < 0xd800 ∨ 0xdfff < c.toNat ∧ c.toNat < 0x110000 := by
  have valid := c.valid
  rcases valid with low | high
  · exact .inl low
  · exact .inr high

theorem codePoint_eq {lead : Nat} {rest : List UInt8} {c : Char}
    (same : rest.foldl (fun code byte => code * 64 + byte.toNat % 64) lead = c.toNat) :
    codePoint lead rest = c := by
  rw [codePoint, same, Char.ofNat_toNat]

/-- The first character of an encoded text. -/
@[simp] theorem firstChar_encode (c : Char) (rest : Bytes) :
    firstChar (String.utf8EncodeChar c ++ rest) =
      (some c, (String.utf8EncodeChar c).length) := by
  have range := toNat_range c
  have same : c.val.toNat = c.toNat := rfl
  simp only [String.utf8EncodeChar, same]
  split
  case isTrue one =>
    have lead : (UInt8.ofNat c.toNat).toNat = c.toNat := toNat_ofNat (by omega)
    have back : codePoint (UInt8.ofNat c.toNat).toNat [] = c := codePoint_eq lead
    refine (firstChar_one (by omega)).trans ?_
    rw [back]
    rfl
  case isFalse notOne =>
    split
    case isTrue two =>
      have lead : (UInt8.ofNat (c.toNat / 64 % 0x20 + 0xc0)).toNat = c.toNat / 64 % 0x20 + 0xc0 :=
        toNat_ofNat (by omega)
      have second : (UInt8.ofNat (c.toNat % 0x40 + 0x80)).toNat = c.toNat % 0x40 + 0x80 :=
        toNat_ofNat (by omega)
      refine (firstChar_two (by omega) (by omega) (continues_ofNat (by omega))).trans ?_
      rw [codePoint_eq (c := c) (by simp only [List.foldl_cons, List.foldl_nil]; omega)]
      rfl
    case isFalse notTwo =>
      split
      case isTrue three =>
        have lead : (UInt8.ofNat (c.toNat / 4096 % 0x10 + 0xe0)).toNat =
            c.toNat / 4096 % 0x10 + 0xe0 := toNat_ofNat (by omega)
        have second : (UInt8.ofNat (c.toNat / 64 % 0x40 + 0x80)).toNat =
            c.toNat / 64 % 0x40 + 0x80 := toNat_ofNat (by omega)
        have third : (UInt8.ofNat (c.toNat % 0x40 + 0x80)).toNat = c.toNat % 0x40 + 0x80 :=
          toNat_ofNat (by omega)
        refine (firstChar_three (by omega) (by omega) (secondFits_of ?_ ?_ ?_ ?_ ?_ ?_)
          (continues_ofNat (by omega))).trans ?_
        any_goals rw [second]
        any_goals rw [lead]
        any_goals omega
        rw [codePoint_eq (c := c) (by simp only [List.foldl_cons, List.foldl_nil]; omega)]
        rfl
      case isFalse notThree =>
        have lead : (UInt8.ofNat (c.toNat / 262144 % 0x08 + 0xf0)).toNat =
            c.toNat / 262144 % 0x08 + 0xf0 := toNat_ofNat (by omega)
        have second : (UInt8.ofNat (c.toNat / 4096 % 0x40 + 0x80)).toNat =
            c.toNat / 4096 % 0x40 + 0x80 := toNat_ofNat (by omega)
        have third : (UInt8.ofNat (c.toNat / 64 % 0x40 + 0x80)).toNat =
            c.toNat / 64 % 0x40 + 0x80 := toNat_ofNat (by omega)
        have fourth : (UInt8.ofNat (c.toNat % 0x40 + 0x80)).toNat = c.toNat % 0x40 + 0x80 :=
          toNat_ofNat (by omega)
        refine (firstChar_four (by omega) (by omega) (secondFits_of ?_ ?_ ?_ ?_ ?_ ?_)
          (continues_ofNat (by omega)) (continues_ofNat (by omega))).trans ?_
        any_goals rw [second]
        any_goals rw [lead]
        any_goals omega
        rw [codePoint_eq (c := c) (by simp only [List.foldl_cons, List.foldl_nil]; omega)]
        rfl

@[simp] theorem utf8Bytes_cons (c : Char) (text : Text) :
    utf8Bytes (c :: text) = String.utf8EncodeChar c ++ utf8Bytes text := rfl

/-- An encoded text as a decoder sees it: its first character, then the rest. -/
theorem utf8Bytes_first (c : Char) (text : Text) :
    ∃ lead more width, utf8Bytes (c :: text) = lead :: more ∧
      firstChar (lead :: more) = (some c, width) ∧ (lead :: more).drop width = utf8Bytes text ∧
      (utf8Bytes text).length < (lead :: more).length := by
  have first := firstChar_encode c (utf8Bytes text)
  have one := c.utf8Size_pos
  rw [← String.length_utf8EncodeChar] at one
  obtain ⟨lead, more, encoded⟩ := List.exists_cons_of_length_pos one
  have whole : lead :: (more ++ utf8Bytes text) = String.utf8EncodeChar c ++ utf8Bytes text := by
    rw [encoded]
    rfl
  refine ⟨lead, more ++ utf8Bytes text, (String.utf8EncodeChar c).length, ?_, ?_, ?_, ?_⟩
  · rw [utf8Bytes_cons, whole]
  · rw [whole, first]
  · rw [whole, List.drop_left]
  · rw [whole, List.length_append]
    omega

theorem strictChars_utf8Bytes (text : Text) (steps index : Nat)
    (enough : (utf8Bytes text).length ≤ steps) :
    strictChars steps index (utf8Bytes text) = .ok text := by
  induction text generalizing steps index with
  | nil => cases steps <;> rfl
  | cons c text ih =>
      obtain ⟨lead, more, width, encoded, first, left, fewer⟩ := utf8Bytes_first c text
      rw [encoded] at enough ⊢
      cases steps with
      | zero => cases enough
      | succ steps =>
          rw [strictChars, first]
          dsimp only
          rw [left, ih steps _ (by omega)]
          rfl

/-- `from_utf8` of an encoded text. -/
@[simp] theorem fromUtf8_utf8Bytes (text : Text) : fromUtf8 (utf8Bytes text) = .ok text :=
  strictChars_utf8Bytes text _ 0 (Nat.le_refl _)

theorem lossyChars_utf8Bytes (text : Text) (steps : Nat)
    (enough : (utf8Bytes text).length ≤ steps) : lossyChars steps (utf8Bytes text) = text := by
  induction text generalizing steps with
  | nil => cases steps <;> rfl
  | cons c text ih =>
      obtain ⟨lead, more, width, encoded, first, left, fewer⟩ := utf8Bytes_first c text
      rw [encoded] at enough ⊢
      cases steps with
      | zero => cases enough
      | succ steps =>
          rw [lossyChars, first]
          dsimp only
          rw [left, ih steps (by omega)]
          rfl

/-- `from_utf8_lossy` of an encoded text. -/
@[simp] theorem fromUtf8Lossy_utf8Bytes (text : Text) : fromUtf8Lossy (utf8Bytes text) = text :=
  lossyChars_utf8Bytes text _ (Nat.le_refl _)

end RustProxy
