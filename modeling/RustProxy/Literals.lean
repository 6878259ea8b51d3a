import Mathlib.Data.List.Infix
import RustProxy.Base.Digits
import RustProxy.Location

/-!
# Address literals read back

The parsers of the standard library read what its `Display` writes: an IPv4 or
IPv6 address that is printed and parsed is the address again. An IPv6 address
is printed in one of three shapes, eight segments, two lists of segments around
the longest run of zeroes, or the last two segments in dotted form.
-/

namespace RustProxy

namespace NetParser

/-! ## Numbers -/

/-- The text goes on with something that is no digit. -/
def Stops (radix : Nat) (text : Text) : Prop :=
  ∀ c, text.head? = some c → toDigit radix c = none

theorem stops_nil (radix : Nat) : Stops radix [] := nofun

theorem stops_colon (radix : Nat) (text : Text) : Stops radix (':' :: text) := by
  intro c head
  obtain rfl := Option.some.inj head
  rfl

theorem stops_dot (radix : Nat) (text : Text) : Stops radix ('.' :: text) := by
  intro c head
  obtain rfl := Option.some.inj head
  rfl

theorem toDigit_digitChar {radix d : Nat} (hex : radix ≤ 16) (small : d < radix) :
    toDigit radix (Nat.digitChar d) = some d := by
  have value : ∀ d < 16, toDigit 16 (Nat.digitChar d) = some d := by decide
  have read := value d (by omega)
  unfold toDigit at read ⊢
  obtain ⟨found, -⟩ := Option.filter_eq_some_iff.mp read
  rw [found]
  simpa using small

theorem readNumber_toDigits {radix maxDigits max n : Nat} {allowZeroPrefix : Bool} {rest : Text}
    (large : 1 < radix) (hex : radix ≤ 16) (stops : Stops radix rest)
    (short : (Nat.toDigits radix n).length ≤ maxDigits) (small : n ≤ max) :
    readNumber radix maxDigits allowZeroPrefix max (Nat.toDigits radix n ++ rest) =
      some (n, rest) := by
  have digits : (Nat.toDigits radix n ++ rest).takeWhile (fun c => (toDigit radix c).isSome) =
      Nat.toDigits radix n := by
    have all : ∀ c ∈ Nat.toDigits radix n, (toDigit radix c).isSome = true := by
      intro c mem
      obtain ⟨d, below, rfl⟩ := Digits.exists_digit large mem
      rw [toDigit_digitChar hex below]
      rfl
    rw [List.takeWhile_append_of_pos all]
    cases rest with
    | nil => simp
    | cons c rest => simp [stops c rfl]
  have value : (Nat.toDigits radix n).foldl
      (fun n c => n * radix + (toDigit radix c).getD 0) 0 = n := by
    apply Digits.foldl_toDigits large
    intro d below
    rw [toDigit_digitChar hex below]
    rfl
  simp only [readNumber, digits, value, List.drop_left]
  rw [if_neg, if_neg, if_neg]
  · omega
  · rintro ⟨-, zero, long⟩
    rw [Digits.eq_zero_of_head large zero, Nat.toDigits_zero] at long
    exact absurd long (by decide)
  · rintro (none | long)
    · exact Nat.toDigits_ne_nil (List.isEmpty_iff.mp none)
    · omega

theorem length_decimal_le (n : UInt8) : (decimal n.toNat).length ≤ 3 := by
  have := n.toNat_lt
  exact (Nat.length_toDigits_le_iff (by decide) (by decide)).mpr (by omega)

theorem length_decimal_port_le (n : UInt16) : (decimal n.toNat).length ≤ 5 := by
  have := n.toNat_lt
  exact (Nat.length_toDigits_le_iff (by decide) (by decide)).mpr (by omega)

theorem length_lowerHex_le (n : UInt16) : (lowerHex n.toNat).length ≤ 4 :=
  (Nat.length_toDigits_le_iff (by decide) (by decide)).mpr n.toNat_lt

/-! ## IPv4 -/

theorem readNumber_octet (n : UInt8) {rest : Text} (stops : Stops 10 rest) :
    readNumber 10 3 false 255 (decimal n.toNat ++ rest) = some (n.toNat, rest) := by
  have := n.toNat_lt
  exact readNumber_toDigits (by decide) (by decide) stops (length_decimal_le n) (by omega)

theorem readOctet_first (n : UInt8) {rest : Text} (stops : Stops 10 rest) :
    readOctet true (decimal n.toNat ++ rest) = some (n, rest) := by
  simp [readOctet, readSeparator, readNumber_octet n stops]

theorem readOctet_next (n : UInt8) {rest : Text} (stops : Stops 10 rest) :
    readOctet false ('.' :: (decimal n.toNat ++ rest)) = some (n, rest) := by
  simp [readOctet, readSeparator, readGivenChar, readNumber_octet n stops]

theorem readIpv4Addr_toText (ip : Ipv4Addr) {rest : Text} (stops : Stops 10 rest) :
    readIpv4Addr (ip.toText ++ rest) = some (ip, rest) := by
  simp only [Ipv4Addr.toText, List.append_assoc, List.cons_append, readIpv4Addr,
    Option.bind_eq_bind]
  rw [readOctet_first _ (stops_dot _ _), Option.bind_some, readOctet_next _ (stops_dot _ _),
    Option.bind_some, readOctet_next _ (stops_dot _ _), Option.bind_some,
    readOctet_next _ stops, Option.bind_some]

/-- A number that was read stands in front, in digits. -/
theorem digits_of_readNumber {radix maxDigits max n : Nat} {allowZeroPrefix : Bool}
    {text rest : Text}
    (read : readNumber radix maxDigits allowZeroPrefix max text = some (n, rest)) :
    ∃ digits, text = digits ++ rest ∧ ∀ c ∈ digits, (toDigit radix c).isSome = true := by
  simp only [readNumber] at read
  split at read
  · cases read
  · split at read
    · cases read
    · split at read
      · cases read
      · obtain ⟨-, rfl⟩ := Prod.mk.inj (Option.some.inj read)
        refine ⟨text.takeWhile fun c => (toDigit radix c).isSome, ?_, ?_⟩
        · exact List.prefix_append_drop (List.takeWhile_prefix _)
        · exact List.all_eq_true.mp List.all_takeWhile

/-- There is no IPv4 address in a text without a dot. -/
theorem readIpv4Addr_noDot {text : Text} (noDot : '.' ∉ text) : readIpv4Addr text = none := by
  simp only [readIpv4Addr, Option.bind_eq_bind]
  rw [readOctet, readSeparator, if_pos rfl]
  cases read : readNumber 10 3 false 255 text with
  | none => rfl
  | some found =>
      have gone : readGivenChar '.' found.2 = none := by
        obtain ⟨digits, rfl, -⟩ := digits_of_readNumber read
        have noDot' : '.' ∉ found.2 := fun mem => noDot (List.mem_append_right digits mem)
        cases rest : found.2 with
        | nil => rfl
        | cons c rest' =>
            rw [rest] at noDot'
            apply if_neg
            rintro rfl
            exact noDot' List.mem_cons_self
      simp [readOctet, readSeparator, gone]

/-! ## IPv6 -/

/-- The segments behind the first one, each behind a colon. -/
def moreText (segments : List UInt16) : Text :=
  segments.flatMap fun segment => ':' :: lowerHex segment.toNat

theorem segmentsText_cons (segment : UInt16) (segments : List UInt16) :
    Ipv6Addr.segmentsText (segment :: segments) =
      lowerHex segment.toNat ++ moreText segments := by
  induction segments generalizing segment with
  | nil => simp [Ipv6Addr.segmentsText, moreText]
  | cons next segments ih =>
      have inner := ih next
      simp only [Ipv6Addr.segmentsText, List.map_cons, moreText, List.flatMap_cons] at inner ⊢
      rw [List.intercalate_cons_cons, inner]
      simp

theorem length_moreText_le (segments : List UInt16) :
    (moreText segments).length ≤ 5 * segments.length := by
  induction segments with
  | nil => rfl
  | cons segment segments ih =>
      have := length_lowerHex_le segment
      rw [moreText] at ih ⊢
      rw [List.flatMap_cons, List.length_append, List.length_cons, List.length_cons]
      omega

theorem length_segmentsText_le (segments : List UInt16) :
    (Ipv6Addr.segmentsText segments).length ≤ 5 * segments.length := by
  cases segments with
  | nil => rfl
  | cons segment segments =>
      have := length_lowerHex_le segment
      have := length_moreText_le segments
      rw [segmentsText_cons, List.length_append, List.length_cons]
      omega

theorem noDot_lowerHex (n : Nat) : '.' ∉ lowerHex n := by
  intro mem
  obtain ⟨d, below, same⟩ := Digits.exists_digit (by decide) mem
  have read := toDigit_digitChar (Nat.le_refl 16) below
  rw [← same] at read
  cases read

theorem noDot_moreText (segments : List UInt16) : '.' ∉ moreText segments := by
  intro mem
  obtain ⟨segment, -, inside⟩ := List.mem_flatMap.mp mem
  rcases List.mem_cons.mp inside with colon | digit
  · cases colon
  · exact noDot_lowerHex _ digit

theorem noDot_segmentsText (segments : List UInt16) : '.' ∉ Ipv6Addr.segmentsText segments := by
  cases segments with
  | nil => exact List.not_mem_nil
  | cons segment segments =>
      rw [segmentsText_cons]
      intro mem
      rcases List.mem_append.mp mem with first | later
      · exact noDot_lowerHex _ first
      · exact noDot_moreText _ later

/-- Behind the groups the text ends or two colons stand. -/
def Ends (text : Text) : Prop := text = [] ∨ ∃ rest, text = ':' :: ':' :: rest

theorem Ends.stops {text : Text} (ends : Ends text) : Stops 16 text := by
  obtain rfl | ⟨rest, rfl⟩ := ends
  · exact stops_nil 16
  · exact stops_colon 16 _

theorem stops_moreText (segments : List UInt16) {rest : Text} (ends : Ends rest) :
    Stops 16 (moreText segments ++ rest) := by
  cases segments with
  | nil => exact ends.stops
  | cons => exact stops_colon 16 _

theorem readNumber_group (segment : UInt16) {rest : Text} (stops : Stops 16 rest) :
    readNumber 16 4 true 65535 (lowerHex segment.toNat ++ rest) = some (segment.toNat, rest) := by
  have := segment.toNat_lt
  exact readNumber_toDigits (by decide) (by decide) stops (length_lowerHex_le segment) (by omega)

section Groups

variable {left : Nat} {first ipv4 : Bool} {text rest : Text} {group : Nat} {groups : List UInt16}

/-- In a text without a dot no group is an IPv4 address. -/
theorem readSeparator_noDot (noDot : '.' ∉ text) :
    (if 0 < left then readSeparator ':' first readIpv4Addr text else none) = none := by
  split
  · cases first with
    | true => exact readIpv4Addr_noDot noDot
    | false =>
        cases text with
        | nil => rfl
        | cons c text =>
            rw [readSeparator, if_neg (by decide), readGivenChar]
            split
            · exact readIpv4Addr_noDot fun mem => noDot (List.mem_cons_of_mem _ mem)
            · rfl
  · rfl

theorem readGroups_stop (noDot : '.' ∉ text)
    (none : readSeparator ':' first (readNumber 16 4 true 65535) text = none) :
    readGroups left first text = ([], false, text) := by
  cases left with
  | zero => rfl
  | succ left => rw [readGroups, readSeparator_noDot noDot, none]

theorem readGroups_go (noDot : '.' ∉ text)
    (some_ : readSeparator ':' first (readNumber 16 4 true 65535) text = some (group, rest)) :
    readGroups (left + 1) first text =
      (UInt16.ofNat group :: (readGroups left false rest).1, (readGroups left false rest).2) := by
  rw [readGroups, readSeparator_noDot noDot, some_]

end Groups

theorem readGroups_moreText (segments : List UInt16) {left : Nat} (room : segments.length ≤ left)
    {rest : Text} (ends : Ends rest) (noDot : '.' ∉ rest) :
    readGroups left false (moreText segments ++ rest) = (segments, false, rest) := by
  induction segments generalizing left with
  | nil =>
      apply readGroups_stop noDot
      obtain rfl | ⟨rest, rfl⟩ := ends <;> rfl
  | cons segment segments ih =>
      obtain ⟨left, rfl⟩ : ∃ before, left = before + 1 := ⟨left - 1, by simp at room; omega⟩
      have next : moreText (segment :: segments) ++ rest =
          ':' :: (lowerHex segment.toNat ++ (moreText segments ++ rest)) := by
        simp [moreText]
      have plain : '.' ∉ moreText (segment :: segments) ++ rest := by
        intro mem
        rcases List.mem_append.mp mem with inside | behind
        · exact noDot_moreText _ inside
        · exact noDot behind
      have read : readSeparator ':' false (readNumber 16 4 true 65535)
          (moreText (segment :: segments) ++ rest) =
            some (segment.toNat, moreText segments ++ rest) := by
        rw [next]
        exact readNumber_group segment (stops_moreText segments ends)
      rw [readGroups_go plain read, ih (by simpa using room), UInt16.ofNat_toNat]

theorem readGroups_segmentsText (segments : List UInt16) {left : Nat}
    (room : segments.length ≤ left) {rest : Text} (ends : Ends rest) (noDot : '.' ∉ rest) :
    readGroups left true (Ipv6Addr.segmentsText segments ++ rest) = (segments, false, rest) := by
  cases segments with
  | nil =>
      apply readGroups_stop noDot
      obtain rfl | ⟨rest, rfl⟩ := ends <;> rfl
  | cons segment segments =>
      obtain ⟨left, rfl⟩ : ∃ before, left = before + 1 := ⟨left - 1, by simp at room; omega⟩
      have plain : '.' ∉ Ipv6Addr.segmentsText (segment :: segments) ++ rest := by
        intro mem
        rcases List.mem_append.mp mem with inside | behind
        · exact noDot_segmentsText _ inside
        · exact noDot behind
      have read : readSeparator ':' true (readNumber 16 4 true 65535)
          (Ipv6Addr.segmentsText (segment :: segments) ++ rest) =
            some (segment.toNat, moreText segments ++ rest) := by
        rw [segmentsText_cons, List.append_assoc]
        exact readNumber_group segment (stops_moreText segments ends)
      rw [readGroups_go plain read, readGroups_moreText segments (by simpa using room) ends noDot,
        UInt16.ofNat_toNat]

end NetParser

open NetParser

theorem Ipv4Addr.length_toText_le (ip : Ipv4Addr) : ip.toText.length ≤ 15 := by
  have := length_decimal_le ip.a
  have := length_decimal_le ip.b
  have := length_decimal_le ip.c
  have := length_decimal_le ip.d
  simp only [toText, List.length_append, List.length_cons]
  omega

theorem Ipv6Addr.length_toText_le (ip : Ipv6Addr) : ip.toText.length ≤ 42 := by
  unfold toText
  split
  case h_1 ipv4 _ =>
    have := ipv4.length_toText_le
    simp only [List.length_append, List.length_cons, List.length_nil]
    omega
  case h_2 =>
    have eight : ip.segments.toList.length = 8 := Vector.length_toList
    dsimp only
    split
    · have front := length_segmentsText_le
        (ip.segments.toList.take (zeroSpan 0 (0, 0) (0, 0) ip.segments.toList).1)
      have back := length_segmentsText_le (ip.segments.toList.drop
        ((zeroSpan 0 (0, 0) (0, 0) ip.segments.toList).1 +
          (zeroSpan 0 (0, 0) (0, 0) ip.segments.toList).2))
      rw [List.length_take] at front
      rw [List.length_drop] at back
      rw [List.length_append, List.length_append]
      simp only [List.length_cons, List.length_nil]
      omega
    · have := length_segmentsText_le ip.segments.toList
      omega

@[simp, grind =] theorem Ipv4Addr.parse_toText (ip : Ipv4Addr) :
    Ipv4Addr.parse ip.toText = some ip := by
  have read := readIpv4Addr_toText ip (stops_nil 10)
  rw [List.append_nil] at read
  rw [parse, if_neg (by have := ip.length_toText_le; omega), parseWith, read]

namespace Ipv6Addr

/-- A run of zeroes among the segments, by its start and its length. -/
def ZeroRun (segments : List UInt16) (span : Nat × Nat) : Prop :=
  ∃ front back, segments = front ++ List.replicate span.2 0 ++ back ∧ front.length = span.1

/-- `zeroSpan` finds a run of zeroes, given that the run up to now and the
longest one are such. -/
theorem zeroRun_zeroSpan {segments front rest : List UInt16} {i : Nat} {current longest : Nat × Nat}
    (split : segments = front ++ rest) (at_ : front.length = i)
    (run : current.2 ≠ 0 →
      ∃ before, front = before ++ List.replicate current.2 0 ∧ before.length = current.1)
    (best : ZeroRun segments longest) : ZeroRun segments (zeroSpan i current longest rest) := by
  induction rest generalizing front i current longest with
  | nil => exact best
  | cons segment rest ih =>
      have split' : segments = (front ++ [segment]) ++ rest := by simp [split]
      have at_' : (front ++ [segment]).length = i + 1 := by simp [at_]
      rw [zeroSpan]
      split
      · rename_i zero
        subst zero
        -- the run goes on, or starts here
        have run' : ∃ before, front ++ [0] = before ++ List.replicate (current.2 + 1) 0 ∧
            before.length = if current.2 = 0 then i else current.1 := by
          by_cases starts : current.2 = 0
          · refine ⟨front, ?_, ?_⟩
            · simp [starts]
            · rw [if_pos starts, at_]
          · obtain ⟨before, rfl, length⟩ := run starts
            refine ⟨before, ?_, ?_⟩
            · rw [List.append_assoc, List.replicate_succ']
            · rw [if_neg starts, length]
        apply ih split' at_' fun _ => run'
        by_cases longer : longest.2 < current.2 + 1
        · rw [if_pos longer]
          obtain ⟨before, same, length⟩ := run'
          exact ⟨before, rest, by rw [split', same], length⟩
        · rw [if_neg longer]
          exact best
      · exact ih split' at_' (fun running => absurd rfl running) best

@[simp] theorem segments_toList (ip : Ipv6Addr) :
    NetParser.segments ip.segments.toList = ip.segments := by
  apply Vector.ext
  intro i inside
  simp [NetParser.segments]

theorem parse_of_read {text : Text} {ip : Ipv6Addr} (read : readIpv6Addr text = some (ip, [])) :
    parse text = some ip := by
  rw [parse, parseWith, read]

/-- Eight segments in full. -/
@[simp] theorem parse_segmentsText (ip : Ipv6Addr) :
    parse (segmentsText ip.segments.toList) = some ip := by
  apply parse_of_read
  have eight : ip.segments.toList.length = 8 := by simp
  have groups := readGroups_segmentsText ip.segments.toList (Nat.le_of_eq eight) (.inl rfl)
    List.not_mem_nil
  rw [List.append_nil] at groups
  simp only [readIpv6Addr, groups]
  rw [if_pos eight, segments_toList]

/-- Two lists of segments around zeroes. -/
theorem parse_compressed (ip : Ipv6Addr) {front back : List UInt16} {zeroes : Nat}
    (split : ip.segments.toList = front ++ List.replicate zeroes 0 ++ back) (some_ : 0 < zeroes) :
    parse (segmentsText front ++ [':', ':'] ++ segmentsText back) = some ip := by
  apply parse_of_read
  have eight : front.length + zeroes + back.length = 8 := by
    have length := congrArg List.length split
    simpa [Nat.add_assoc] using length.symm
  have head : readGroups 8 true (segmentsText front ++ ':' :: ':' :: segmentsText back) =
      (front, false, ':' :: ':' :: segmentsText back) :=
    readGroups_segmentsText front (by omega) (.inr ⟨_, rfl⟩)
      (by simpa using noDot_segmentsText back)
  have tail : readGroups (7 - front.length) true (segmentsText back ++ []) = (back, false, []) :=
    readGroups_segmentsText back (by omega) (.inl rfl) List.not_mem_nil
  rw [List.append_nil] at tail
  have filled : 8 - front.length - back.length = zeroes := by omega
  rw [List.append_assoc, List.cons_append, List.cons_append, List.nil_append]
  simp only [readIpv6Addr, head]
  rw [if_neg (by omega), if_neg (by decide)]
  simp only [readGivenChar, Option.bind_eq_bind, tail, filled, if_true, Option.bind_some]
  rw [← split, segments_toList]

/-- The two bytes of a segment, joined again. -/
theorem join_bytes (segment : UInt16) :
    ((segment >>> 8).toUInt8.toUInt16 <<< 8 ||| segment.toUInt8.toUInt16) = segment := by
  apply UInt16.toNat_inj.mp
  have small := segment.toNat_lt
  simp only [UInt16.toNat_or, UInt16.toNat_shiftLeft, UInt8.toNat_toUInt16, UInt16.toNat_toUInt8,
    UInt16.toNat_shiftRight, UInt16.reduceToNat, Nat.reduceMod, Nat.shiftRight_eq_div_pow]
  have high : segment.toNat / 2 ^ 8 % 2 ^ 8 = segment.toNat / 2 ^ 8 := by omega
  have join := Nat.shiftLeft_add_eq_or_of_lt (Nat.mod_lt segment.toNat (Nat.two_pow_pos 8))
    (segment.toNat / 2 ^ 8)
  rw [Nat.shiftLeft_eq] at join ⊢
  rw [high, Nat.mod_eq_of_lt (by omega), ← join]
  omega

theorem toIpv4Mapped_eq_some {ip : Ipv6Addr} {ipv4 : Ipv4Addr}
    (mapped : ip.toIpv4Mapped = some ipv4) : ∃ ab cd : UInt16,
      ip.segments.toList = [0, 0, 0, 0, 0, 0xffff, ab, cd] ∧
      ipv4 = ⟨(ab >>> 8).toUInt8, ab.toUInt8, (cd >>> 8).toUInt8, cd.toUInt8⟩ := by
  unfold toIpv4Mapped at mapped
  split at mapped
  · rename_i ab cd list
    exact ⟨ab, cd, list, (Option.some.inj mapped).symm⟩
  · cases mapped

/-- The last two segments in dotted form. -/
theorem parse_mapped {ip : Ipv6Addr} {ipv4 : Ipv4Addr} (mapped : ip.toIpv4Mapped = some ipv4) :
    parse ([':', ':', 'f', 'f', 'f', 'f', ':'] ++ ipv4.toText) = some ip := by
  obtain ⟨ab, cd, list, rfl⟩ := toIpv4Mapped_eq_some mapped
  apply parse_of_read
  set ipv4 : Ipv4Addr := ⟨(ab >>> 8).toUInt8, ab.toUInt8, (cd >>> 8).toUInt8, cd.toUInt8⟩
  have read : readIpv4Addr ipv4.toText = some (ipv4, []) := by
    simpa using readIpv4Addr_toText ipv4 (stops_nil 10)
  have head : readGroups 8 true ([':', ':', 'f', 'f', 'f', 'f', ':'] ++ ipv4.toText) =
      ([], false, [':', ':', 'f', 'f', 'f', 'f', ':'] ++ ipv4.toText) := rfl
  have last : readGroups 6 false (':' :: ipv4.toText) = ([ab, cd], true, []) := by
    have dotted : readSeparator ':' false readIpv4Addr (':' :: ipv4.toText) = some (ipv4, []) :=
      read
    rw [readGroups, if_pos (by decide), dotted]
    simp only [ipv4, join_bytes]
  have tail : readGroups 7 true (['f', 'f', 'f', 'f', ':'] ++ ipv4.toText) =
      ([0xffff, ab, cd], true, []) := by
    have noAddr : readSeparator ':' true readIpv4Addr
        (['f', 'f', 'f', 'f', ':'] ++ ipv4.toText) = none := rfl
    have group : readSeparator ':' true (readNumber 16 4 true 65535)
        (['f', 'f', 'f', 'f', ':'] ++ ipv4.toText) = some (0xffff, ':' :: ipv4.toText) := rfl
    rw [readGroups, if_pos (by decide), noAddr, group]
    simp only [last]
    rfl
  simp only [readIpv6Addr, head]
  rw [if_neg (by decide), if_neg (by decide)]
  simp only [List.length_nil, List.cons_append, List.nil_append] at tail ⊢
  simp only [readGivenChar, if_true, Option.bind_eq_bind, Option.bind_some, tail]
  have split : List.replicate 5 0 ++ [0xffff, ab, cd] = ip.segments.toList := list.symm
  rw [List.length_cons, List.length_cons, List.length_singleton, split, segments_toList]

/-- A printed address is read as itself. -/
@[simp, grind =] theorem parse_toText (ip : Ipv6Addr) : parse ip.toText = some ip := by
  rw [toText]
  split
  · rename_i mapped
    exact parse_mapped mapped
  · set span := zeroSpan 0 (0, 0) (0, 0) ip.segments.toList
    have run : ZeroRun ip.segments.toList span :=
      zeroRun_zeroSpan (List.nil_append _).symm rfl (fun running => absurd rfl running)
        ⟨[], ip.segments.toList, rfl, rfl⟩
    simp only
    split
    · rename_i long
      obtain ⟨front, back, split, length⟩ := run
      have head : ip.segments.toList.take span.1 = front := by
        rw [split, List.append_assoc, ← length, List.take_left]
      have tail : ip.segments.toList.drop (span.1 + span.2) = back := by
        rw [split, List.drop_left' (by simp [length])]
      rw [head, tail]
      exact parse_compressed ip split (Nat.lt_of_succ_lt long)
    · exact parse_segmentsText ip

end Ipv6Addr

end RustProxy
