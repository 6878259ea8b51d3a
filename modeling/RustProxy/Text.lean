import RustProxy.Address

/-!
# Operations of the standard library on texts

The functions of `str` and `String` that the program calls and Lean has no
counterpart of, as the standard library documents them.
-/

namespace RustProxy

/-- A byte that continues a character. -/
def continues (byte : UInt8) : Bool := byte.toNat / 64 = 2

/-- The code point of a lead byte with the bits it contributes, and the
continuation bytes after it. -/
def codePoint (lead : Nat) (rest : List UInt8) : Char :=
  Char.ofNat (rest.foldl (fun code byte => code * 64 + byte.toNat % 64) lead)

/-- The second bytes that may follow a lead byte of three or four: neither an
overlong form, nor a surrogate, nor a value past the last code point. -/
def secondFits (lead second : UInt8) : Bool :=
  if lead = 0xe0 then 0xa0 ≤ second && second ≤ 0xbf
  else if lead = 0xed then 0x80 ≤ second && second ≤ 0x9f
  else if lead = 0xf0 then 0x90 ≤ second && second ≤ 0xbf
  else if lead = 0xf4 then 0x80 ≤ second && second ≤ 0x8f
  else 0x80 ≤ second && second ≤ 0xbf

/-- The first character of a non-empty byte string with the bytes it takes, or
`none` with the bytes that a decoder skips together. -/
def firstChar (bytes : Bytes) : Option Char × Nat :=
  match bytes with
  | [] => (none, 0)
  | lead :: rest =>
      let second := rest.getD 0 0
      let third := rest.getD 1 0
      let fourth := rest.getD 2 0
      if lead < 0x80 then (some (codePoint lead.toNat []), 1)
      else if 0xc2 ≤ lead && lead ≤ 0xdf then
        if continues second then (some (codePoint (lead.toNat % 32) [second]), 2) else (none, 1)
      else if 0xe0 ≤ lead && lead ≤ 0xef then
        if !secondFits lead second then (none, 1)
        else if continues third then (some (codePoint (lead.toNat % 16) [second, third]), 3)
        else (none, 2)
      else if 0xf0 ≤ lead && lead ≤ 0xf4 then
        if !secondFits lead second then (none, 1)
        else if !continues third then (none, 2)
        else if continues fourth then
          (some (codePoint (lead.toNat % 8) [second, third, fourth]), 4)
        else (none, 3)
      else (none, 1)

/-- The characters of at most the given number of steps of the decoder. -/
def lossyChars : Nat → Bytes → Text
  | 0, _ => []
  | _, [] => []
  | steps + 1, byte :: bytes =>
      (firstChar (byte :: bytes)).1.getD (Char.ofNat 0xfffd) ::
        lossyChars steps ((byte :: bytes).drop (firstChar (byte :: bytes)).2)

/-- `String::from_utf8_lossy`: bytes that are no character become U+FFFD. -/
def fromUtf8Lossy (bytes : Bytes) : Text := lossyChars bytes.length bytes

/-- How many bytes a character takes, by its lead byte. -/
def charWidth (lead : UInt8) : Nat :=
  if 0xc2 ≤ lead && lead ≤ 0xdf then 2
  else if 0xe0 ≤ lead && lead ≤ 0xef then 3
  else if 0xf0 ≤ lead && lead ≤ 0xf4 then 4
  else 1

/-- `Utf8Error`: how far the text was valid, and how many bytes are at fault,
unless the text ends within a character. -/
structure Utf8Error where
  validUpTo : Nat
  errorLen : Option Nat
  deriving DecidableEq, Repr

def Utf8Error.toText (e : Utf8Error) : String :=
  match e.errorLen with
  | some errorLen => "invalid utf-8 sequence of " ++ toString errorLen ++ " bytes from index " ++
      toString e.validUpTo
  | none => "incomplete utf-8 byte sequence from index " ++ toString e.validUpTo

/-- At most the given number of characters of a text that starts at an index. -/
def strictChars : Nat → Nat → Bytes → Except Utf8Error Text
  | 0, _, _ => .ok []
  | _, _, [] => .ok []
  | steps + 1, index, lead :: rest =>
      match firstChar (lead :: rest) with
      | (some char, width) =>
          (strictChars steps (index + width) ((lead :: rest).drop width)).map (char :: ·)
      | (none, skipped) =>
          let cut := skipped = (lead :: rest).length ∧ skipped < charWidth lead
          .error ⟨index, if cut then none else some skipped⟩

/-- `str::from_utf8`. -/
def fromUtf8 (bytes : Bytes) : Except Utf8Error Text := strictChars bytes.length 0 bytes

/-- `String::into_bytes`. -/
def utf8Bytes (text : Text) : Bytes := text.flatMap String.utf8EncodeChar

/-- `str::split_once` at a character. -/
def splitOnce (separator : Char) (text : Text) : Option (Text × Text) :=
  if separator ∈ text then
    some (text.takeWhile (· != separator), (text.dropWhile (· != separator)).tail)
  else none

def stripCarriageReturn (line : Text) : Text :=
  if line.getLast? = some '\r' then line.dropLast else line

/-- `str::lines`: a line ends in `\n` or `\r\n`, the last one need not. -/
def lines (text : Text) : List Text :=
  let pieces := text.splitOn '\n'
  pieces.dropLast.map stripCarriageReturn ++ pieces.getLast?.toList.filter (· ≠ [])

/-- `str::parse` to an unsigned integer up to `max`. -/
def parseUnsigned (max : Nat) (text : Text) : Option Nat :=
  let digits := if text.head? = some '+' then text.tail else text
  if digits ≠ [] ∧ digits.all Char.isDigit then
    let value := digits.foldl (fun n c => n * 10 + (c.toNat - '0'.toNat)) 0
    if value ≤ max then some value else none
  else none

/-- `str::parse` to a signed integer of the given width. -/
def parseSigned (bits : Nat) (text : Text) : Option Int :=
  let signed := text.head? = some '+' ∨ text.head? = some '-'
  let digits := if signed then text.tail else text
  if digits ≠ [] ∧ digits.all Char.isDigit then
    let magnitude := digits.foldl (fun n c => n * 10 + (c.toNat - '0'.toNat)) 0
    let value : Int := if text.head? = some '-' then -magnitude else magnitude
    if -2 ^ (bits - 1) ≤ value ∧ value < 2 ^ (bits - 1) then some value else none
  else none

/-- `char::is_whitespace`: the characters with the property White_Space. -/
def isWhitespace (c : Char) : Bool :=
  (0x9 ≤ c.toNat && c.toNat ≤ 0xd) || c.toNat = 0x20 || c.toNat = 0x85 || c.toNat = 0xa0 ||
    c.toNat = 0x1680 || (0x2000 ≤ c.toNat && c.toNat ≤ 0x200a) || c.toNat = 0x2028 ||
    c.toNat = 0x2029 || c.toNat = 0x202f || c.toNat = 0x205f || c.toNat = 0x3000

/-- `str::trim`. -/
def trim (text : Text) : Text :=
  ((text.dropWhile isWhitespace).reverse.dropWhile isWhitespace).reverse

example : fromUtf8Lossy [0x76, 0xe2, 0x82, 0x41, 0xc3, 0xa9] =
    ['v', Char.ofNat 0xfffd, 'A', Char.ofNat 0xe9] := by decide

example : fromUtf8 [0x61, 0xc3, 0xa9] = .ok ['a', Char.ofNat 0xe9] := by decide

example : fromUtf8 [0x61, 0xe2, 0x82] = .error ⟨1, none⟩ := by decide

end RustProxy
