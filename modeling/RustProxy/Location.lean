import RustProxy.AsyncStream
import RustProxy.Text

/-!
# Parsing addresses and locations

`Address::from` and `NetLocation::from_str` of `address.rs`, over the parsers of
the standard library for IPv4 and IPv6 literals. A parser takes what it reads
off the front of the text; a literal has to use the text up.

`Address::from` looks at the characters first, to tell which of the two literals
are worth trying, and takes anything without a colon that is neither as a
hostname. A location is an address and, after the last colon, a port; when what
follows the last colon is no port, all of the text has to be an IPv6 literal.
-/

namespace RustProxy

/-- `char::to_digit`. -/
def toDigit (radix : Nat) (c : Char) : Option Nat :=
  let value :=
    if c.isDigit then some (c.toNat - '0'.toNat)
    else if 'a' ≤ c ∧ c ≤ 'z' then some (c.toNat - 'a'.toNat + 10)
    else if 'A' ≤ c ∧ c ≤ 'Z' then some (c.toNat - 'A'.toNat + 10)
    else none
  value.filter (· < radix)

namespace NetParser

/-- `read_number`: digits up to a number of them, with a value up to `max`. -/
def readNumber (radix maxDigits : Nat) (allowZeroPrefix : Bool) (max : Nat) (text : Text) :
    Option (Nat × Text) :=
  let digits := text.takeWhile fun c => (toDigit radix c).isSome
  let value := digits.foldl (fun n c => n * radix + (toDigit radix c).getD 0) 0
  if digits.isEmpty ∨ maxDigits < digits.length then none
  else if !allowZeroPrefix ∧ digits.head? = some '0' ∧ 1 < digits.length then none
  else if max < value then none
  else some (value, text.drop digits.length)

def readGivenChar (c : Char) : Text → Option Text
  | [] => none
  | first :: rest => if first = c then some rest else none

/-- `read_separator`: an item after a separator, which the first one goes without. -/
def readSeparator {α : Type} (separator : Char) (first : Bool) (item : Text → Option (α × Text))
    (text : Text) : Option (α × Text) :=
  if first then item text else (readGivenChar separator text).bind item

def readOctet (first : Bool) (text : Text) : Option (UInt8 × Text) :=
  (readSeparator '.' first (readNumber 10 3 false 255) text).map fun read =>
    (UInt8.ofNat read.1, read.2)

def readIpv4Addr (text : Text) : Option (Ipv4Addr × Text) := do
  let (a, text) ← readOctet true text
  let (b, text) ← readOctet false text
  let (c, text) ← readOctet false text
  let (d, text) ← readOctet false text
  some (⟨a, b, c, d⟩, text)

/-- `read_groups`: up to `left` groups, the last two of which may be an IPv4
address. The flag says whether they were. -/
def readGroups : Nat → Bool → Text → List UInt16 × Bool × Text
  | 0, _, text => ([], false, text)
  | left + 1, first, text =>
      match if 0 < left then readSeparator ':' first readIpv4Addr text else none with
      | some (ip, text) =>
          ([ip.a.toUInt16 <<< 8 ||| ip.b.toUInt16, ip.c.toUInt16 <<< 8 ||| ip.d.toUInt16], true,
            text)
      | none =>
          match readSeparator ':' first (readNumber 16 4 true 65535) text with
          | none => ([], false, text)
          | some (group, text) =>
              let (groups, ipv4, text) := readGroups left false text
              (UInt16.ofNat group :: groups, ipv4, text)

/-- Eight segments, missing ones being zero. -/
def segments (groups : List UInt16) : Vector UInt16 8 :=
  Vector.ofFn fun i => groups.getD i 0

def readIpv6Addr (text : Text) : Option (Ipv6Addr × Text) :=
  let (head, ipv4, text) := readGroups 8 true text
  if head.length = 8 then some (⟨segments head⟩, text)
  else if ipv4 then none
  else do
    let text ← readGivenChar ':' text
    let text ← readGivenChar ':' text
    -- the two colons stand for one group at least
    let (tail, _, text) := readGroups (7 - head.length) true text
    some (⟨segments (head ++ List.replicate (8 - head.length - tail.length) 0 ++ tail)⟩, text)

/-- `parse_with`: the literal is all of the text. -/
def parseWith {α : Type} (read : Text → Option (α × Text)) (text : Text) : Option α :=
  match read text with
  | some (value, []) => some value
  | _ => none

end NetParser

def Ipv4Addr.parse (text : Text) : Option Ipv4Addr :=
  if 15 < text.length then none else NetParser.parseWith NetParser.readIpv4Addr text

def Ipv6Addr.parse (text : Text) : Option Ipv6Addr :=
  NetParser.parseWith NetParser.readIpv6Addr text

namespace Address

/-- What the look at the characters leaves possible. -/
structure Possible where
  dots : Nat
  ipv4 : Bool
  ipv6 : Bool
  hostname : Bool
  deriving DecidableEq, Repr

def scan (p : Possible) : Text → Possible
  | [] => p
  | c :: rest =>
      if c = ':' then { p with ipv4 := false, hostname := false }
      else if c = '.' then
        let p := { p with ipv6 := false, dots := p.dots + 1 }
        if 3 < p.dots then p else scan p rest
      else if 'A' ≤ c ∧ c ≤ 'F' ∨ 'a' ≤ c ∧ c ≤ 'f' then scan { p with ipv4 := false } rest
      else if c.isDigit then scan p rest
      else { p with ipv4 := false, ipv6 := false }

def unparsable (text : Text) : IoError :=
  ⟨.invalidData, "Failed to parse address: " ++ String.ofList text⟩

/-- `Address::from`. -/
def ofText (text : Text) : IoResult Address :=
  let possible := scan ⟨0, true, true, true⟩ text
  match if possible.ipv4 ∧ possible.dots = 3 then Ipv4Addr.parse text else none with
  | some addr => .ok (.ipv4 addr)
  | none =>
      match if possible.ipv6 then Ipv6Addr.parse text else none with
      | some addr => .ok (.ipv6 addr)
      | none => if possible.hostname then .ok (.hostname text) else .error (unparsable text)

def isIpv6 : Address → Bool
  | ipv6 _ => true
  | _ => false

end Address

namespace NetLocation

/-- The text before the last colon, and the text after it. -/
def splitLast (text : Text) : Option (Text × Text) :=
  if ':' ∈ text then
    let port := (text.reverse.takeWhile (· ≠ ':')).reverse
    some (text.take (text.length - port.length - 1), port)
  else none

/-- `NetLocation::from_str`. -/
def fromStr (text : Text) (defaultPort : Option UInt16) : IoResult NetLocation :=
  let (addressText, port, expectIpv6) :=
    match splitLast text with
    | some (address, port) =>
        match parseUnsigned 65535 port with
        | some port => (address, some (UInt16.ofNat port), false)
        | none => (text, defaultPort, true)
    | none => (text, defaultPort, false)
  match Address.ofText addressText with
  | .error e => .error e
  | .ok address =>
      if expectIpv6 && !address.isIpv6 then .error ⟨.other, "Invalid location"⟩
      else
        match port with
        | none => .error ⟨.other, "No port"⟩
        | some port => .ok ⟨address, port⟩

end NetLocation

end RustProxy
