import RustProxy.AnyTls.Types

/-!
# Padding schemes

`anytls/padding.rs`. A scheme is free text, one line for each packet number: the
sizes of the records that the packet is cut into, as ranges to draw from, and
check marks. `PaddingFactory::new` looks at nothing but `stop`.

A range has two 64-bit bounds, in either order. What is drawn from it is cut to
32 bits, where -1 is the check mark, and has to fit the 16-bit length of a Waste
frame later: a size is usable exactly when the larger bound of its range fits
already.
-/

namespace RustProxy.AnyTls

/-- The entry that says: stop if there is no data left. -/
def CHECK_MARK : Int := -1

/-- `as i32`. -/
def asI32 (n : Int) : Int := n.bmod (2 ^ 32)

/-- `random_range(min..=max)`: a number within the range. -/
structure Draw where
  value : Int → Int → Int
  inside : ∀ lo hi, lo ≤ hi → lo ≤ value lo hi ∧ value lo hi ≤ hi

/-- Draws one number, where the range has it, and else the smallest. -/
def Draw.giving (n : Int) : Draw where
  value lo hi := if lo ≤ n ∧ n ≤ hi then n else lo
  inside := by
    intro lo hi order
    split
    · assumption
    · exact ⟨Int.le_refl lo, order⟩

structure PaddingFactory where
  scheme : StringMap
  rawScheme : Bytes
  stop : Nat
  md5 : Text

namespace PaddingFactory

/-- `PaddingFactory::new`; `digest` is the MD5 of the scheme in hexadecimal. -/
def new (digest : Bytes → Text) (rawScheme : Bytes) : Except String PaddingFactory :=
  let scheme := StringMap.fromBytes rawScheme
  match scheme.get "stop" with
  | none => .error "missing 'stop' in padding scheme"
  | some stop =>
      match parseUnsigned (2 ^ 32 - 1) stop with
      | none => .error "invalid 'stop' value in padding scheme"
      | some stop => .ok ⟨scheme, rawScheme, stop, digest rawScheme⟩

theorem rawScheme_new {digest : Bytes → Text} {rawScheme : Bytes} {factory : PaddingFactory}
    (accepted : new digest rawScheme = .ok factory) : factory.rawScheme = rawScheme := by
  unfold new at accepted
  dsimp only at accepted
  split at accepted
  case h_1 => cases accepted
  case h_2 =>
    split at accepted
    case h_1 => cases accepted
    case h_2 =>
      cases accepted
      rfl

/-- The bounds of a range, the smaller one first; `none` is no range, or one
with a bound that is no positive number. -/
def rangeOf (part : Text) : Option (Int × Int) := do
  let (minStr, maxStr) ← splitOnce '-' part
  let minVal ← (parseSigned 64 (trim minStr)).filter (0 < ·)
  let maxVal ← (parseSigned 64 (trim maxStr)).filter (0 < ·)
  return (min minVal maxVal, max minVal maxVal)

/-- The size that a part of a line stands for, if any. -/
def sizeOf (draw : Draw) (part : Text) : Option Int :=
  let part := trim part
  if part = ['c'] then some CHECK_MARK
  else
    (rangeOf part).map fun (minVal, maxVal) =>
      if minVal = maxVal then asI32 minVal else asI32 (draw.value minVal maxVal)

/-- The parts of the line for a packet. -/
def partsFor (factory : PaddingFactory) (pkt : Nat) : List Text :=
  match factory.scheme.lookup (decimal pkt) with
  | some spec => spec.splitOn ','
  | none => []

/-- The parts of the line for a packet that give a size, each with its size. -/
def entriesFor (factory : PaddingFactory) (draws : Nat → Draw) (pkt : Nat) : List (Text × Int) :=
  (factory.partsFor pkt).zipIdx.filterMap fun (part, i) => (sizeOf (draws i) part).map (part, ·)

/-- `generate_record_payload_sizes`, given what is drawn for each part. -/
def generateRecordPayloadSizes (factory : PaddingFactory) (draws : Nat → Draw) (pkt : Nat) :
    List Int :=
  (factory.entriesFor draws pkt).map Prod.snd

/-! ## Usable sizes -/

/-- What the session can do with the size that a part gave: it is the check mark
of a part that is one, or a length for a Waste frame within the part's range. -/
def Usable (part : Text) (size : Int) : Prop :=
  trim part = ['c'] ∧ size = CHECK_MARK ∨
    ∃ lo hi, trim part ≠ ['c'] ∧ rangeOf (trim part) = some (lo, hi) ∧ 1 ≤ size ∧ size ≤ 65535 ∧
      lo ≤ size ∧ size ≤ hi

/-- Whatever is drawn, every size for a packet is usable. -/
def UsableSizes (factory : PaddingFactory) (pkt : Nat) : Prop :=
  ∀ (draws : Nat → Draw), ∀ entry ∈ factory.entriesFor draws pkt, Usable entry.1 entry.2

/-- No range for a packet goes beyond what the length of a frame can say. -/
def RangesFit (factory : PaddingFactory) (pkt : Nat) : Prop :=
  ∀ part ∈ factory.partsFor pkt, trim part ≠ ['c'] → ∀ lo hi,
    rangeOf (trim part) = some (lo, hi) → hi ≤ 65535

variable {part : Text} {lo hi size : Int}

/-- The bounds of a range are positive and in order. -/
theorem rangeOf_bounds (range : rangeOf part = some (lo, hi)) : 1 ≤ lo ∧ lo ≤ hi := by
  simp only [rangeOf, Option.bind_eq_bind, Option.bind_eq_some_iff, Option.filter_eq_some_iff,
    decide_eq_true_eq] at range
  obtain ⟨⟨minStr, maxStr⟩, -, minVal, ⟨-, minPos⟩, maxVal, ⟨-, maxPos⟩, bounds⟩ := range
  cases bounds
  omega

theorem asI32_of_fits (positive : 1 ≤ size) (fits : size ≤ 65535) : asI32 size = size := by
  rw [asI32]
  apply Int.bmod_eq_of_le <;> omega

theorem mem_entriesFor {factory : PaddingFactory} {draws : Nat → Draw} {pkt : Nat}
    {entry : Text × Int} (mem : entry ∈ factory.entriesFor draws pkt) :
    entry.1 ∈ factory.partsFor pkt ∧ ∃ i, sizeOf (draws i) entry.1 = some entry.2 := by
  obtain ⟨⟨part, i⟩, inside, given⟩ := List.mem_filterMap.mp mem
  obtain ⟨size, isSize, rfl⟩ := Option.map_eq_some_iff.mp given
  exact ⟨List.fst_mem_of_mem_zipIdx inside, i, isSize⟩

theorem sizeOf_range (draw : Draw) (noMark : trim part ≠ ['c'])
    (range : rangeOf (trim part) = some (lo, hi)) :
    sizeOf draw part = some (if lo = hi then asI32 lo else asI32 (draw.value lo hi)) := by
  simp only [sizeOf, if_neg noMark, range, Option.map_some]

/-- Within a range that fits, what is drawn is what the session gets. -/
theorem usable_of_fits {draw : Draw} (given : sizeOf draw part = some size)
    (fits : trim part ≠ ['c'] → ∀ lo hi, rangeOf (trim part) = some (lo, hi) → hi ≤ 65535) :
    Usable part size := by
  by_cases mark : trim part = ['c']
  · refine .inl ⟨mark, ?_⟩
    simp only [sizeOf, if_pos mark, Option.some.injEq] at given
    exact given.symm
  · cases range : rangeOf (trim part) with
    | none => simp [sizeOf, mark, range] at given
    | some bounds =>
        obtain ⟨lo, hi⟩ := bounds
        have small := fits mark lo hi range
        obtain ⟨positive, order⟩ := rangeOf_bounds range
        obtain ⟨least, most⟩ := draw.inside lo hi order
        rw [sizeOf_range draw mark range, Option.some.injEq] at given
        -- the number drawn, which the cut to 32 bits leaves alone
        have drawn : lo ≤ size ∧ size ≤ hi := by
          split at given
          · rw [asI32_of_fits positive (by omega)] at given
            omega
          · rw [asI32_of_fits (by omega) (by omega)] at given
            omega
        exact .inr ⟨lo, hi, mark, range, by omega, by omega, drawn.1, drawn.2⟩

/-- From a range that does not fit a number can be drawn that is not usable. -/
theorem not_usable_of_large (noMark : trim part ≠ ['c'])
    (range : rangeOf (trim part) = some (lo, hi)) (large : 65535 < hi) :
    ∃ size, sizeOf (.giving (max lo 65536)) part = some size ∧ ¬Usable part size := by
  obtain ⟨positive, order⟩ := rangeOf_bounds range
  refine ⟨_, sizeOf_range _ noMark range, ?_⟩
  rintro (⟨mark, -⟩ | ⟨lo', hi', -, range', -, small, least, -⟩)
  · exact noMark mark
  · obtain ⟨rfl, rfl⟩ := Prod.mk.inj (Option.some.inj (range.symm.trans range'))
    have drawn : (Draw.giving (max lo 65536)).value lo hi = max lo 65536 :=
      if_pos ⟨Int.le_max_left lo 65536, by omega⟩
    by_cases below : lo ≤ 65535
    · have first : max lo 65536 = 65536 := by omega
      rw [if_neg (by omega), drawn, first] at small
      exact absurd small (by decide)
    · omega

/-- A range that does not fit can be drawn from so that the sizes are not usable. -/
theorem not_usableSizes {factory : PaddingFactory} {pkt : Nat} (mem : part ∈ factory.partsFor pkt)
    (noMark : trim part ≠ ['c']) (range : rangeOf (trim part) = some (lo, hi))
    (large : 65535 < hi) : ¬UsableSizes factory pkt := by
  intro usable
  obtain ⟨size, given, bad⟩ := not_usable_of_large noMark range large
  obtain ⟨i, at_⟩ := List.mem_iff_getElem?.mp mem
  apply bad
  apply usable (fun _ => .giving (max lo 65536)) (part, size)
  apply List.mem_filterMap.mpr
  refine ⟨(part, i), List.mem_zipIdx_iff_getElem?.mpr at_, ?_⟩
  simp only [given, Option.map_some]

/-- Whatever is drawn, the sizes for a packet are usable exactly when no range
of its line goes beyond 65535. -/
theorem sizes_usable_iff (factory : PaddingFactory) (pkt : Nat) :
    UsableSizes factory pkt ↔ RangesFit factory pkt := by
  constructor
  · intro usable part mem noMark lo hi range
    by_contra large
    exact not_usableSizes mem noMark range (by omega) usable
  · intro fits draws entry mem
    obtain ⟨inside, i, given⟩ := mem_entriesFor mem
    exact usable_of_fits given (fits entry.1 inside)

/-- A scheme with a size that the length of a frame cannot say. -/
def largeScheme : Bytes := "stop=1\n0=70000-70000".toList.map fun c => UInt8.ofNat c.toNat

/-- Its MD5. -/
def largeSchemeMd5 : Text := "0f50dc8c819c08f6394fe81127387361".toList

def largeFactory : PaddingFactory :=
  ⟨.fromBytes largeScheme, largeScheme, 1, largeSchemeMd5⟩

/-- The scheme is accepted, and the size for packet 0 is 70000. -/
theorem large_scheme_not_usable :
    new (fun _ => largeSchemeMd5) largeScheme = .ok largeFactory ∧
      ¬UsableSizes largeFactory 0 := by
  refine ⟨rfl, ?_⟩
  have line : "70000-70000".toList ∈ largeFactory.partsFor 0 := by decide
  have range : rangeOf (trim "70000-70000".toList) = some (70000, 70000) := by decide
  exact not_usableSizes line (by decide) range (by decide)

end PaddingFactory

end RustProxy.AnyTls
