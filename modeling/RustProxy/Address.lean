import Mathlib.Data.Nat.Digits.Defs

/-!
# Addresses and locations

The data of `address.rs` and of the standard library's `std::net`, with the
texts they print. A Rust `str` is a list of characters here: every operation of
the program on texts (comparison, concatenation, search for a separator) is the
same on either.

`Display` of an IPv6 address compresses the first longest run of at least two
zero segments and writes an IPv4-mapped address in dotted form. A socket
address wraps it in brackets, while `NetLocation` prints the bare address
before its port: the two notations of one IPv6 destination differ.
-/

namespace RustProxy

/-- A Rust string, as the characters it holds. -/
abbrev Text := List Char

/-- `Bytes`, `Vec<u8>` and `&[u8]`: what is held, not how it is shared. -/
abbrev Bytes := List UInt8

/-- A `Duration`, and an `Instant` since the start, count nanoseconds. -/
def seconds (n : Nat) : Nat := n * 1000000000

def decimal (n : Nat) : Text := Nat.toDigits 10 n

def lowerHex (n : Nat) : Text := Nat.toDigits 16 n

/-- `std::net::Ipv4Addr`. -/
structure Ipv4Addr where
  a : UInt8
  b : UInt8
  c : UInt8
  d : UInt8
  deriving DecidableEq, Repr

/-- `std::net::Ipv6Addr`, by its eight segments. -/
structure Ipv6Addr where
  segments : Vector UInt16 8
  deriving DecidableEq, Repr

namespace Ipv4Addr

def UNSPECIFIED : Ipv4Addr := ⟨0, 0, 0, 0⟩

def toText (ip : Ipv4Addr) : Text :=
  decimal ip.a.toNat ++ '.' :: decimal ip.b.toNat ++ '.' :: decimal ip.c.toNat ++
    '.' :: decimal ip.d.toNat

end Ipv4Addr

namespace Ipv6Addr

/-- `::ffff:a.b.c.d` holds an IPv4 address in its last two segments. -/
def toIpv4Mapped (ip : Ipv6Addr) : Option Ipv4Addr :=
  match ip.segments.toList with
  | [0, 0, 0, 0, 0, 0xffff, ab, cd] =>
      some ⟨(ab >>> 8).toUInt8, ab.toUInt8, (cd >>> 8).toUInt8, cd.toUInt8⟩
  | _ => none

/-- The start and length of the first longest run of zero segments. `current`
is the run that ends at index `i`. -/
def zeroSpan (i : Nat) (current longest : Nat × Nat) : List UInt16 → Nat × Nat
  | [] => longest
  | segment :: rest =>
      if segment = 0 then
        let current := (if current.2 = 0 then i else current.1, current.2 + 1)
        zeroSpan (i + 1) current (if longest.2 < current.2 then current else longest) rest
      else zeroSpan (i + 1) (0, 0) longest rest

/-- Colon-separated hexadecimal segments. -/
def segmentsText (segments : List UInt16) : Text :=
  [':'].intercalate (segments.map fun segment => lowerHex segment.toNat)

def toText (ip : Ipv6Addr) : Text :=
  match ip.toIpv4Mapped with
  | some ipv4 => [':', ':', 'f', 'f', 'f', 'f', ':'] ++ ipv4.toText
  | none =>
      let segments := ip.segments.toList
      let zeroes := zeroSpan 0 (0, 0) (0, 0) segments
      if zeroes.2 > 1 then
        segmentsText (segments.take zeroes.1) ++ [':', ':'] ++
          segmentsText (segments.drop (zeroes.1 + zeroes.2))
      else segmentsText segments

end Ipv6Addr

/-- `std::net::SocketAddr`; an IPv6 one also carries flow information and a scope. -/
inductive SocketAddr where
  | v4 (ip : Ipv4Addr) (port : UInt16)
  | v6 (ip : Ipv6Addr) (port : UInt16) (flowinfo scopeId : UInt32)
  deriving DecidableEq, Repr

namespace SocketAddr

/-- `ip:port` or `[ip]:port`; a nonzero scope is written inside the brackets. -/
def toText : SocketAddr → Text
  | v4 ip port => ip.toText ++ ':' :: decimal port.toNat
  | v6 ip port _ scopeId =>
      '[' :: ip.toText ++ (if scopeId = 0 then [] else '%' :: decimal scopeId.toNat) ++
        ']' :: ':' :: decimal port.toNat

def isIpv6 : SocketAddr → Bool
  | v4 .. => false
  | v6 .. => true

end SocketAddr

inductive Address where
  | ipv4 (ip : Ipv4Addr)
  | ipv6 (ip : Ipv6Addr)
  | hostname (name : Text)
  deriving DecidableEq, Repr

namespace Address

def UNSPECIFIED : Address := ipv4 Ipv4Addr.UNSPECIFIED

def toText : Address → Text
  | ipv4 ip => ip.toText
  | ipv6 ip => ip.toText
  | hostname name => name

end Address

structure NetLocation where
  address : Address
  port : UInt16
  deriving DecidableEq, Repr

namespace NetLocation

def UNSPECIFIED : NetLocation := ⟨Address.UNSPECIFIED, 0⟩

def isUnspecified (location : NetLocation) : Bool := location = UNSPECIFIED

/-- `Display`: the address as it is, with no brackets around IPv6. -/
def toText (location : NetLocation) : Text :=
  location.address.toText ++ ':' :: decimal location.port.toNat

/-- The address of a literal location; a hostname has to be looked up. -/
def toSocketAddrNonblocking (location : NetLocation) : Option SocketAddr :=
  match location.address with
  | .ipv6 ip => some (.v6 ip location.port 0 0)
  | .ipv4 ip => some (.v4 ip location.port)
  | .hostname _ => none

end NetLocation

end RustProxy
