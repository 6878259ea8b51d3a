import RustProxy.Literals

/-!
# Locations and the texts they are read from

`NetLocation::from_str` reads what `Display` of a location it has produced
writes, though no brackets stand around an IPv6 address: the last colon of the
text is the one in front of the port, and the look at the characters stops at
the first colon of the address with only hexadecimal digits behind it. A
hostname is the text it was read from.

Brackets are what it does not read. The first of them makes the text a
hostname, so that the notation of a socket address is understood for IPv4 only,
and the `[ipv6]:port` that the function documents is taken for a name.
-/

namespace RustProxy

theorem colon_notMem_decimal (n : Nat) : ':' ∉ decimal n := by
  intro mem
  have digit := Nat.isDigit_of_mem_toDigits (by decide) (by decide) mem
  exact absurd digit (by decide)

theorem char_le_iff {a b : Char} : a ≤ b ↔ a.toNat ≤ b.toNat := by
  rw [Char.le_def, UInt32.le_iff_toNat_le]
  rfl

theorem parseUnsigned_decimal {max n : Nat} (small : n ≤ max) :
    parseUnsigned max (decimal n) = some n := by
  have digits : ∀ c ∈ decimal n, c.isDigit = true := fun c mem =>
    Nat.isDigit_of_mem_toDigits (by decide) (by decide) mem
  have noSign : (decimal n).head? ≠ some '+' := by
    intro sign
    exact absurd (digits '+' (List.mem_of_head? sign)) (by decide)
  have value : (decimal n).foldl (fun n c => n * 10 + (c.toNat - '0'.toNat)) 0 = n :=
    Digits.foldl_toDigits (by decide) (by decide)
  simp only [parseUnsigned, if_neg noSign, value]
  rw [if_pos ⟨Nat.toDigits_ne_nil, List.all_eq_true.mpr digits⟩, if_pos small]

namespace NetLocation

/-- The last colon is the one in front of the port. -/
theorem splitLast_append (address : Text) {port : Text} (noColon : ':' ∉ port) :
    splitLast (address ++ ':' :: port) = some (address, port) := by
  have last : ((address ++ ':' :: port).reverse.takeWhile (· ≠ ':')).reverse = port := by
    rw [List.reverse_append, List.reverse_cons, List.append_assoc,
      List.takeWhile_append_of_pos (by
        intro c mem
        have inside : c ∈ port := List.mem_reverse.mp mem
        simp only [ne_eq, decide_eq_true_eq]
        rintro rfl
        exact noColon inside)]
    simp
  have before : (address ++ ':' :: port).length - port.length - 1 = address.length := by
    simp only [List.length_append, List.length_cons]
    omega
  simp only [splitLast, last, before, List.take_left]
  rw [if_pos (by simp)]

/-- A text that ends in a port has the address in front of it. -/
theorem fromStr_port (text : Text) (port : UInt16) (defaultPort : Option UInt16) :
    fromStr (text ++ ':' :: decimal port.toNat) defaultPort =
      (Address.ofText text).map fun address => ⟨address, port⟩ := by
  have small : port.toNat ≤ 65535 := Nat.le_of_lt_succ port.toNat_lt
  rw [fromStr, splitLast_append text (colon_notMem_decimal _)]
  simp only [parseUnsigned_decimal small, UInt16.ofNat_toNat, Bool.false_and]
  cases Address.ofText text <;> rfl

end NetLocation

namespace Address

/-! ## The look at the characters -/

/-- A hexadecimal digit, as the scan tells it. -/
theorem isSome_toDigit_hex {c : Char} : (toDigit 16 c).isSome = true ↔
    ('A' ≤ c ∧ c ≤ 'F' ∨ 'a' ≤ c ∧ c ≤ 'f') ∨ c.isDigit = true := by
  simp only [toDigit, Char.isDigit_iff_toNat, char_le_iff, Char.reduceToNat, Option.isSome_filter]
  split
  · simp
    omega
  · split
    · simp
      omega
    · split
      · simp
        omega
      · simp
        omega

theorem ne_dot_of_hex {c : Char} (hex : (toDigit 16 c).isSome = true) : c ≠ '.' := by
  rintro rfl
  cases hex

theorem ne_colon_of_hex {c : Char} (hex : (toDigit 16 c).isSome = true) : c ≠ ':' := by
  rintro rfl
  cases hex

/-- The scan goes on behind a hexadecimal digit. -/
theorem scan_hex (p : Possible) {c : Char} (hex : (toDigit 16 c).isSome = true) (rest : Text) :
    scan p (c :: rest) = scan { p with ipv4 := p.ipv4 && c.isDigit } rest := by
  rw [scan, if_neg (ne_colon_of_hex hex), if_neg (ne_dot_of_hex hex)]
  split
  case isTrue letter =>
    have noDigit : c.isDigit = false := by
      rw [Bool.eq_false_iff, ne_eq, Char.isDigit_iff_toNat]
      simp only [char_le_iff, Char.reduceToNat] at letter ⊢
      omega
    rw [noDigit, Bool.and_false]
  case isFalse noLetter =>
    have digit := (isSome_toDigit_hex.mp hex).resolve_left noLetter
    rw [if_pos digit, digit, Bool.and_true]

theorem scan_hexDigits (p : Possible) {front : Text}
    (hex : ∀ c ∈ front, (toDigit 16 c).isSome = true) (rest : Text) :
    scan p (front ++ rest) = scan { p with ipv4 := p.ipv4 && front.all Char.isDigit } rest := by
  induction front generalizing p with
  | nil => rw [List.nil_append, List.all_nil, Bool.and_true]
  | cons c front ih =>
      rw [List.cons_append, scan_hex p (hex c List.mem_cons_self),
        ih _ fun c mem => hex c (List.mem_cons_of_mem _ mem), List.all_cons, Bool.and_assoc]

theorem scan_digits (p : Possible) {front : Text} (digits : ∀ c ∈ front, c.isDigit = true)
    (rest : Text) : scan p (front ++ rest) = scan p rest := by
  rw [scan_hexDigits p fun c mem => isSome_toDigit_hex.mpr (.inr (digits c mem)),
    List.all_eq_true.mpr digits, Bool.and_true]

@[simp] theorem scan_decimal (p : Possible) (n : Nat) (rest : Text) :
    scan p (decimal n ++ rest) = scan p rest :=
  scan_digits p (fun _ mem => Nat.isDigit_of_mem_toDigits (by decide) (by decide) mem) rest

@[simp] theorem scan_ipv4 (ip : Ipv4Addr) :
    scan ⟨0, true, true, true⟩ ip.toText = ⟨3, true, false, true⟩ := by
  have last := scan_decimal ⟨3, true, false, true⟩ ip.d.toNat []
  rw [List.append_nil] at last
  simp [Ipv4Addr.toText, scan_decimal, scan, last]

/-- A text with a colon, and only hexadecimal digits in front of the first one. -/
def StartsHex (text : Text) : Prop :=
  ∃ front rest, text = front ++ ':' :: rest ∧ ∀ c ∈ front, ∃ d < 16, c = Nat.digitChar d

/-- Such a text may be an IPv6 address, and nothing else. -/
theorem StartsHex.scan {text : Text} (starts : StartsHex text) (p : Possible) :
    scan p text = ⟨p.dots, false, p.ipv6, false⟩ := by
  obtain ⟨front, rest, rfl, hex⟩ := starts
  rw [scan_hexDigits, Address.scan, if_pos rfl]
  intro c mem
  obtain ⟨d, below, rfl⟩ := hex c mem
  rw [NetParser.toDigit_digitChar (Nat.le_refl 16) below]
  rfl

theorem startsHex_lowerHex (n : Nat) (rest : Text) : StartsHex (lowerHex n ++ ':' :: rest) :=
  ⟨lowerHex n, rest, rfl, fun _ mem => Digits.exists_digit (by decide) mem⟩

/-- A colon stands behind the first of several segments, or behind them all. -/
theorem startsHex_segments {segments : List UInt16} {rest : Text}
    (colon : 1 < segments.length ∨ ∃ rest', rest = ':' :: rest') :
    StartsHex (Ipv6Addr.segmentsText segments ++ rest) := by
  match segments with
  | [] =>
      obtain ⟨rest', rfl⟩ : ∃ rest', rest = ':' :: rest' := by simpa using colon
      exact ⟨[], rest', rfl, nofun⟩
  | [segment] =>
      obtain ⟨rest', rfl⟩ : ∃ rest', rest = ':' :: rest' := by simpa using colon
      rw [NetParser.segmentsText_cons, NetParser.moreText, List.flatMap_nil, List.append_nil]
      exact startsHex_lowerHex _ _
  | segment :: next :: segments =>
      rw [NetParser.segmentsText_cons, NetParser.moreText, List.flatMap_cons, List.cons_append,
        List.append_assoc]
      exact startsHex_lowerHex _ _

theorem startsHex_toText (ip : Ipv6Addr) : StartsHex ip.toText := by
  rw [Ipv6Addr.toText]
  split
  · exact ⟨[], _, rfl, List.forall_mem_nil _⟩
  · simp only
    split
    · rw [List.append_assoc]
      exact startsHex_segments (.inr ⟨_, rfl⟩)
    · rw [← List.append_nil (Ipv6Addr.segmentsText _)]
      exact startsHex_segments (.inl (by simp))

/-! ## Addresses -/

@[simp] theorem ofText_ipv4 (ip : Ipv4Addr) : ofText ip.toText = .ok (.ipv4 ip) := by
  simp only [ofText, scan_ipv4, Ipv4Addr.parse_toText, and_self, if_true]

@[simp] theorem ofText_ipv6 (ip : Ipv6Addr) : ofText ip.toText = .ok (.ipv6 ip) := by
  simp [ofText, (startsHex_toText ip).scan, Ipv6Addr.parse_toText]

/-- A hostname is the text it was read from. -/
theorem eq_of_ofText_hostname {text name : Text} (read : ofText text = .ok (.hostname name)) :
    name = text := by
  simp only [ofText] at read
  split at read
  · cases read
  · split at read
    · cases read
    · split at read
      · cases read
        rfl
      · cases read

/-- An address that was read is read again from the text it prints. -/
theorem ofText_toText {text : Text} {address : Address} (read : ofText text = .ok address) :
    ofText address.toText = .ok address := by
  cases address with
  | ipv4 ip => exact ofText_ipv4 ip
  | ipv6 ip => exact ofText_ipv6 ip
  | hostname name =>
      obtain rfl := eq_of_ofText_hostname read
      exact read

/-- A text in brackets is a hostname, whatever is in them. -/
@[simp] theorem ofText_bracket (text : Text) :
    ofText ('[' :: text) = .ok (.hostname ('[' :: text)) := rfl

end Address

namespace NetLocation

/-! ## Locations -/

/-- The address of a location is read from some text. -/
theorem ofText_of_fromStr {text : Text} {defaultPort : Option UInt16} {location : NetLocation}
    (parsed : fromStr text defaultPort = .ok location) :
    ∃ addressText, Address.ofText addressText = .ok location.address := by
  unfold fromStr at parsed
  split at parsed
  split at parsed
  · cases parsed
  · rename_i address read
    split at parsed
    · cases parsed
    · split at parsed
      · cases parsed
      · cases parsed
        exact ⟨_, read⟩

theorem fromStr_toText {text : Text} {defaultPort : Option UInt16} {location : NetLocation}
    (parsed : fromStr text defaultPort = .ok location) (otherPort : Option UInt16) :
    fromStr location.toText otherPort = .ok location := by
  obtain ⟨addressText, read⟩ := ofText_of_fromStr parsed
  rw [toText, fromStr_port, Address.ofText_toText read]
  rfl

/-- A location that was parsed is parsed again from the text it prints, with
whatever default port; and it is the only parsed location with that text. -/
theorem parsed_location_reads_back {text : Text} {defaultPort : Option UInt16}
    {location : NetLocation} (parsed : fromStr text defaultPort = .ok location) :
    (∀ otherPort, fromStr location.toText otherPort = .ok location) ∧
      ∀ (otherText : Text) (otherPort : Option UInt16) (other : NetLocation),
        fromStr otherText otherPort = .ok other → other.toText = location.toText →
        other = location := by
  constructor
  · exact fromStr_toText parsed
  · intro otherText otherPort other parsed' same
    have reads := fromStr_toText parsed none
    have reads' := fromStr_toText parsed' none
    rw [same, reads] at reads'
    exact (Except.ok.inj reads').symm

/-- An IPv6 address and its port, without brackets. -/
theorem loopback_reads_back :
    fromStr "::1:53".toList none = .ok ⟨.ipv6 ⟨#v[0, 0, 0, 0, 0, 0, 0, 1]⟩, 53⟩ ∧
      ∀ otherPort, fromStr (NetLocation.toText ⟨.ipv6 ⟨#v[0, 0, 0, 0, 0, 0, 0, 1]⟩, 53⟩) otherPort =
        .ok ⟨.ipv6 ⟨#v[0, 0, 0, 0, 0, 0, 0, 1]⟩, 53⟩ := by
  have parsed : fromStr "::1:53".toList none =
      .ok ⟨.ipv6 ⟨#v[0, 0, 0, 0, 0, 0, 0, 1]⟩, 53⟩ := by decide
  exact ⟨parsed, (parsed_location_reads_back parsed).1⟩

/-! ## The notation of a socket address -/

/-- The text of a socket address is read as a location of that address. -/
def ReadsNotation (a : SocketAddr) : Prop :=
  ∃ location, fromStr a.toText none = .ok location ∧ location.toSocketAddrNonblocking = some a

/-- The bracket makes a hostname of an IPv6 socket address. -/
theorem fromStr_v6 (ip : Ipv6Addr) (port : UInt16) (flowinfo scopeId : UInt32)
    (defaultPort : Option UInt16) :
    ∃ name, fromStr (SocketAddr.v6 ip port flowinfo scopeId).toText defaultPort =
      .ok ⟨.hostname name, port⟩ := by
  let inside := ip.toText ++ (if scopeId = 0 then [] else '%' :: decimal scopeId.toNat) ++ [']']
  have text : (SocketAddr.v6 ip port flowinfo scopeId).toText =
      '[' :: inside ++ ':' :: decimal port.toNat := by
    simp [SocketAddr.toText, inside]
  refine ⟨'[' :: inside, ?_⟩
  rw [text, fromStr_port, Address.ofText_bracket]
  rfl

theorem not_readsNotation_v6 (ip : Ipv6Addr) (port : UInt16) (flowinfo scopeId : UInt32) :
    ¬ReadsNotation (.v6 ip port flowinfo scopeId) := by
  rintro ⟨location, parsed, resolves⟩
  obtain ⟨name, named⟩ := fromStr_v6 ip port flowinfo scopeId none
  rw [named] at parsed
  cases parsed
  cases resolves

/-- The notation of a socket address is understood exactly for IPv4. -/
theorem socket_notation_read_iff (a : SocketAddr) : ReadsNotation a ↔ a.isIpv6 = false := by
  cases a with
  | v4 ip port =>
      refine ⟨fun _ => rfl, fun _ => ⟨⟨.ipv4 ip, port⟩, ?_, rfl⟩⟩
      rw [SocketAddr.toText, fromStr_port, Address.ofText_ipv4]
      rfl
  | v6 ip port flowinfo scopeId =>
      refine ⟨fun reads => absurd reads (not_readsNotation_v6 _ _ _ _), nofun⟩

/-- `[::1]:53` is taken for a name. -/
theorem bracketed_loopback_not_read : ¬ReadsNotation (.v6 ⟨#v[0, 0, 0, 0, 0, 0, 0, 1]⟩ 53 0 0) :=
  not_readsNotation_v6 _ _ _ _

example : (SocketAddr.v6 ⟨#v[0, 0, 0, 0, 0, 0, 0, 1]⟩ 53 0 0).toText = "[::1]:53".toList := by
  decide

end NetLocation

end RustProxy
