import RustProxy.LocationText

/-!
# What the scan of an address concludes

`Address::from` scans the bytes of the text before it tries the parsers. Plainly
said, it should come to this: a text that is an IPv4 literal is that address,
one that is an IPv6 literal is that address, and of the others those without a
colon are hostnames and those with one are errors.

For literals the scan is right. An IPv4 literal is digits with three dots, an
IPv6 literal has a colon with only hexadecimal digits in front of it, and such
texts are given to the parsers. Of the other texts it takes too many for
hostnames. It rules them out at a colon, but stops at the first character that
is in no literal and at the fourth dot, and a colon behind these is not seen.
-/

namespace RustProxy

namespace Address

/-! ## Bytes and characters -/

/-- The loop over the bytes. -/
def scanBytes (p : Possible) : Bytes → Possible
  | [] => p
  | c :: rest =>
      if c = ':'.toUInt8 then { p with ipv4 := false, hostname := false }
      else if c = '.'.toUInt8 then
        let p := { p with ipv6 := false, dots := p.dots + 1 }
        if 3 < p.dots then p else scanBytes p rest
      else if 'A'.toUInt8 ≤ c ∧ c ≤ 'F'.toUInt8 ∨ 'a'.toUInt8 ≤ c ∧ c ≤ 'f'.toUInt8 then
        scanBytes { p with ipv4 := false } rest
      else if '0'.toUInt8 ≤ c ∧ c ≤ '9'.toUInt8 then scanBytes p rest
      else { p with ipv4 := false, ipv6 := false }

/-- `Address::from` with its loop over the bytes of the text. -/
def from_ (text : Text) : IoResult Address :=
  let possible := scanBytes ⟨0, true, true, true⟩ (utf8Bytes text)
  match if possible.ipv4 ∧ possible.dots = 3 then Ipv4Addr.parse text else none with
  | some addr => .ok (.ipv4 addr)
  | none =>
      match if possible.ipv6 then Ipv6Addr.parse text else none with
      | some addr => .ok (.ipv6 addr)
      | none => if possible.hostname then .ok (.hostname text) else .error (unparsable text)

/-- What a text is, whatever the order of its characters. -/
def classify (text : Text) : IoResult Address :=
  match Ipv4Addr.parse text with
  | some addr => .ok (.ipv4 addr)
  | none =>
      match Ipv6Addr.parse text with
      | some addr => .ok (.ipv6 addr)
      | none => if ':' ∈ text then .error (unparsable text) else .ok (.hostname text)

/-- A byte of ASCII is judged as its character. -/
theorem scanBytes_ascii (p : Possible) {c : Char} (ascii : c.toNat ≤ 127) {rest : Text}
    {bytes : Bytes} (same : ∀ p, scanBytes p bytes = scan p rest) :
    scanBytes p (UInt8.ofNat c.toNat :: bytes) = scan p (c :: rest) := by
  have value : (UInt8.ofNat c.toNat).toNat = c.toNat := by
    rw [UInt8.toNat_ofNat']
    omega
  simp only [scanBytes, scan, same, ← Char.toNat_inj, char_le_iff, Char.isDigit_iff_toNat,
    ← UInt8.toNat_inj, UInt8.le_iff_toNat_le, value, Char.reduceToNat]
  rfl

/-- The first byte of any other character is in no literal. -/
theorem utf8EncodeChar_other {c : Char} (other : 127 < c.toNat) :
    ∃ lead more, String.utf8EncodeChar c = lead :: more ∧ 127 < lead.toNat := by
  have notAscii : ¬c.val.toNat ≤ 127 := Nat.not_le_of_lt other
  unfold String.utf8EncodeChar
  dsimp only
  rw [if_neg notAscii]
  split
  · refine ⟨_, _, rfl, ?_⟩
    rw [UInt8.toNat_ofNat']
    omega
  · split
    · refine ⟨_, _, rfl, ?_⟩
      rw [UInt8.toNat_ofNat']
      omega
    · refine ⟨_, _, rfl, ?_⟩
      rw [UInt8.toNat_ofNat']
      omega

theorem scanBytes_other (p : Possible) {lead : UInt8} (large : 127 < lead.toNat) (bytes : Bytes) :
    scanBytes p (lead :: bytes) = { p with ipv4 := false, ipv6 := false } := by
  simp only [scanBytes, ← UInt8.toNat_inj, UInt8.le_iff_toNat_le]
  rw [if_neg, if_neg, if_neg, if_neg]
  all_goals
    simp [Char.toUInt8]
    omega

/-- The scan ends at a character that is in no literal. -/
theorem scan_other (p : Possible) {c : Char} (colon : c ≠ ':') (dot : c ≠ '.')
    (other : ¬(toDigit 16 c).isSome = true) (rest : Text) :
    scan p (c :: rest) = { p with ipv4 := false, ipv6 := false } := by
  rw [isSome_toDigit_hex, not_or] at other
  rw [scan, if_neg colon, if_neg dot, if_neg other.1, if_neg other.2]

/-- To scan the bytes is to scan the characters. -/
theorem scanBytes_utf8Bytes (p : Possible) (text : Text) :
    scanBytes p (utf8Bytes text) = scan p text := by
  induction text generalizing p with
  | nil => rfl
  | cons c rest ih =>
      rw [utf8Bytes, List.flatMap_cons]
      by_cases ascii : c.toNat ≤ 127
      · have encoded : String.utf8EncodeChar c = [UInt8.ofNat c.toNat] := if_pos ascii
        rw [encoded]
        exact scanBytes_ascii p ascii ih
      · have large : 127 < c.toNat := Nat.lt_of_not_le ascii
        obtain ⟨lead, more, encoded, high⟩ := utf8EncodeChar_other large
        rw [encoded, List.cons_append, scanBytes_other p high, scan_other]
        · rintro rfl
          exact absurd large (by decide)
        · rintro rfl
          exact absurd large (by decide)
        · simp only [isSome_toDigit_hex, Char.isDigit_iff_toNat, char_le_iff, Char.reduceToNat]
          omega

theorem from_eq_ofText (text : Text) : from_ text = ofText text := by
  simp only [from_, scanBytes_utf8Bytes]
  rfl

end Address

/-! ## What the parsers accept -/

namespace NetParser

theorem isDigit_of_toDigit {c : Char} (digit : (toDigit 10 c).isSome = true) :
    c.isDigit = true := by
  simp only [toDigit] at digit
  split at digit
  case isTrue isDigit => exact isDigit
  case isFalse =>
    split at digit
    · simp at digit
    · split at digit
      · simp at digit
      · simp at digit

theorem eq_cons_of_readGivenChar {c : Char} {text rest : Text}
    (read : readGivenChar c text = some rest) : text = c :: rest := by
  cases text with
  | nil => cases read
  | cons first others =>
      rw [readGivenChar] at read
      split at read
      case isTrue same =>
        cases read
        rw [same]
      case isFalse => cases read

/-- The first octet of an address is in front. -/
theorem digits_of_readOctet_first {text rest : Text} {octet : UInt8}
    (read : readOctet true text = some (octet, rest)) :
    ∃ digits, text = digits ++ rest ∧ ∀ c ∈ digits, c.isDigit = true := by
  obtain ⟨⟨n, rest'⟩, number, same⟩ := Option.map_eq_some_iff.mp read
  cases same
  obtain ⟨digits, split, all⟩ := digits_of_readNumber number
  exact ⟨digits, split, fun c mem => isDigit_of_toDigit (all c mem)⟩

/-- The others stand behind a dot. -/
theorem digits_of_readOctet_next {text rest : Text} {octet : UInt8}
    (read : readOctet false text = some (octet, rest)) :
    ∃ digits, text = '.' :: (digits ++ rest) ∧ ∀ c ∈ digits, c.isDigit = true := by
  obtain ⟨⟨n, rest'⟩, separated, same⟩ := Option.map_eq_some_iff.mp read
  cases same
  obtain ⟨behind, dot, number⟩ := Option.bind_eq_some_iff.mp separated
  obtain ⟨digits, split, all⟩ := digits_of_readNumber number
  refine ⟨digits, ?_, fun c mem => isDigit_of_toDigit (all c mem)⟩
  rw [eq_cons_of_readGivenChar dot, split]

/-- An IPv4 address is four numbers with dots between them. -/
theorem octets_of_readIpv4Addr {text rest : Text} {ip : Ipv4Addr}
    (read : readIpv4Addr text = some (ip, rest)) : ∃ a b c d : Text,
      text = a ++ '.' :: (b ++ '.' :: (c ++ '.' :: (d ++ rest))) ∧
        ∀ digits ∈ [a, b, c, d], ∀ char ∈ digits, char.isDigit = true := by
  obtain ⟨⟨_, text₁⟩, first, read⟩ := Option.bind_eq_some_iff.mp read
  obtain ⟨⟨_, text₂⟩, second, read⟩ := Option.bind_eq_some_iff.mp read
  obtain ⟨⟨_, text₃⟩, third, read⟩ := Option.bind_eq_some_iff.mp read
  obtain ⟨⟨_, text₄⟩, fourth, read⟩ := Option.bind_eq_some_iff.mp read
  cases read
  obtain ⟨a, rfl, digitsA⟩ := digits_of_readOctet_first first
  obtain ⟨b, rfl, digitsB⟩ := digits_of_readOctet_next second
  obtain ⟨c, rfl, digitsC⟩ := digits_of_readOctet_next third
  obtain ⟨d, rfl, digitsD⟩ := digits_of_readOctet_next fourth
  refine ⟨a, b, c, d, rfl, ?_⟩
  simpa using ⟨digitsA, digitsB, digitsC, digitsD⟩

/-- Behind a group there are more only behind a colon. -/
theorem readGroups_next (left : Nat) (text : Text) :
    (∃ rest, text = ':' :: rest) ∨ readGroups left false text = ([], false, text) := by
  cases given : readGivenChar ':' text with
  | some rest => exact .inl ⟨rest, eq_cons_of_readGivenChar given⟩
  | none =>
      right
      cases left with
      | zero => rfl
      | succ left => simp [readGroups, readSeparator, given]

/-- The groups in front of an IPv6 address are none, an IPv4 address, or begin
with hexadecimal digits. -/
theorem readGroups_first {left : Nat} {text rest : Text} {groups : List UInt16} {ipv4 : Bool}
    (read : readGroups left true text = (groups, ipv4, rest)) :
    groups = [] ∧ text = rest ∨ groups.length = 2 ∧ ipv4 = true ∨
      ∃ digits more, text = digits ++ more ∧ (∀ c ∈ digits, (toDigit 16 c).isSome = true) ∧
        ((∃ behind, more = ':' :: behind) ∨ groups.length = 1 ∧ more = rest) := by
  cases left with
  | zero =>
      cases read
      exact .inl ⟨rfl, rfl⟩
  | succ left =>
      rw [readGroups] at read
      split at read
      case h_1 =>
        cases read
        exact .inr (.inl ⟨rfl, rfl⟩)
      case h_2 =>
        split at read
        case h_1 =>
          cases read
          exact .inl ⟨rfl, rfl⟩
        case h_2 more number =>
          obtain ⟨digits, split, hex⟩ := digits_of_readNumber number
          refine .inr (.inr ⟨digits, more, split, hex, ?_⟩)
          rcases readGroups_next left more with colon | stop
          · exact .inl colon
          · rw [stop] at read
            cases read
            exact .inr ⟨rfl, rfl⟩

/-- An IPv6 address has a colon, with hexadecimal digits in front of it. -/
theorem colon_of_readIpv6Addr {text rest : Text} {ip : Ipv6Addr}
    (read : readIpv6Addr text = some (ip, rest)) : ∃ digits behind,
      text = digits ++ ':' :: behind ∧ ∀ c ∈ digits, (toDigit 16 c).isSome = true := by
  rw [readIpv6Addr] at read
  rcases front : readGroups 8 true text with ⟨head, ipv4, after⟩
  rw [front] at read
  dsimp only at read
  have first := readGroups_first front
  split at read
  case isTrue eight =>
    rcases first with ⟨rfl, -⟩ | ⟨two, -⟩ | ⟨digits, more, rfl, hex, colon | ⟨one, -⟩⟩
    · cases eight
    · omega
    · obtain ⟨behind, rfl⟩ := colon
      exact ⟨digits, behind, rfl, hex⟩
    · omega
  case isFalse =>
    split at read
    case isTrue => cases read
    case isFalse noIpv4 =>
      obtain ⟨behind, colon, -⟩ := Option.bind_eq_some_iff.mp read
      have after_ := eq_cons_of_readGivenChar colon
      rcases first with ⟨-, rfl⟩ | ⟨-, isIpv4⟩ | ⟨digits, more, rfl, hex, colon | ⟨-, rfl⟩⟩
      · exact ⟨[], behind, after_, List.forall_mem_nil _⟩
      · exact absurd isIpv4 noIpv4
      · obtain ⟨behind, rfl⟩ := colon
        exact ⟨digits, behind, rfl, hex⟩
      · rw [after_]
        exact ⟨digits, behind, rfl, hex⟩

theorem read_of_parseWith {α : Type} {read : Text → Option (α × Text)} {text : Text} {value : α}
    (parsed : parseWith read text = some value) : read text = some (value, []) := by
  unfold parseWith at parsed
  split at parsed
  case h_1 found =>
    cases parsed
    exact found
  case h_2 => cases parsed

end NetParser

namespace Address

open NetParser

/-! ## What the scan leaves possible -/

/-- An IPv4 literal is left to its parser. -/
theorem scan_of_ipv4 {text : Text} {ip : Ipv4Addr} (parsed : Ipv4Addr.parse text = some ip) :
    scan ⟨0, true, true, true⟩ text = ⟨3, true, false, true⟩ := by
  obtain ⟨-, accepted⟩ := Option.ite_none_left_eq_some.mp parsed
  obtain ⟨a, b, c, d, rfl, digits⟩ := octets_of_readIpv4Addr (read_of_parseWith accepted)
  have last := scan_digits ⟨3, true, false, true⟩ (digits d (by simp)) []
  rw [List.append_nil] at last
  simp [scan_digits _ (digits a (by simp)), scan_digits _ (digits b (by simp)),
    scan_digits _ (digits c (by simp)), scan, last]

theorem colon_notMem_of_ipv4 {text : Text} {ip : Ipv4Addr}
    (parsed : Ipv4Addr.parse text = some ip) : ':' ∉ text := by
  obtain ⟨-, accepted⟩ := Option.ite_none_left_eq_some.mp parsed
  obtain ⟨a, b, c, d, rfl, digits⟩ := octets_of_readIpv4Addr (read_of_parseWith accepted)
  have noColon : ∀ octet ∈ [a, b, c, d], ':' ∉ octet := by
    intro octet inside mem
    exact absurd (digits octet inside ':' mem) (by decide)
  simpa using noColon

/-- An IPv6 literal is left to its parser. -/
theorem scan_of_ipv6 {text : Text} {ip : Ipv6Addr} (parsed : Ipv6Addr.parse text = some ip) :
    scan ⟨0, true, true, true⟩ text = ⟨0, false, true, false⟩ := by
  obtain ⟨digits, behind, rfl, hex⟩ := colon_of_readIpv6Addr (read_of_parseWith parsed)
  rw [scan_hexDigits _ hex, scan, if_pos rfl]

/-- A literal is read as what it is. -/
theorem ofText_of_ipv4 {text : Text} {ip : Ipv4Addr} (parsed : Ipv4Addr.parse text = some ip) :
    ofText text = .ok (.ipv4 ip) := by
  simp only [ofText, scan_of_ipv4 parsed, parsed, and_self, if_true]

theorem ofText_of_ipv6 {text : Text} {ip : Ipv6Addr} (parsed : Ipv6Addr.parse text = some ip) :
    ofText text = .ok (.ipv6 ip) := by
  simp [ofText, scan_of_ipv6 parsed, parsed]

/-- The scan comes to a colon, after so many dots: only hexadecimal digits and
dots stand in front of it, with no more than three dots in all. -/
def ColonInReach (dots : Nat) (text : Text) : Prop :=
  ∃ front behind, text = front ++ ':' :: behind ∧
    (∀ c ∈ front, c = '.' ∨ (toDigit 16 c).isSome = true) ∧ dots + front.count '.' ≤ 3

theorem colonInReach_cons {dots : Nat} {c : Char} {rest : Text} :
    ColonInReach dots (c :: rest) ↔ c = ':' ∧ dots ≤ 3 ∨ c = '.' ∧ ColonInReach (dots + 1) rest ∨
      (toDigit 16 c).isSome = true ∧ ColonInReach dots rest := by
  constructor
  · rintro ⟨front, behind, split, allowed, few⟩
    cases front with
    | nil =>
        cases split
        exact .inl ⟨rfl, few⟩
    | cons first front =>
        cases split
        have later : ∀ c ∈ front, c = '.' ∨ (toDigit 16 c).isSome = true :=
          fun c mem => allowed c (List.mem_cons_of_mem _ mem)
        rcases allowed c List.mem_cons_self with rfl | hex
        · rw [List.count_cons_self] at few
          exact .inr (.inl ⟨rfl, front, behind, rfl, later, by omega⟩)
        · rw [List.count_cons_of_ne (ne_dot_of_hex hex)] at few
          exact .inr (.inr ⟨hex, front, behind, rfl, later, few⟩)
  · rintro (⟨rfl, few⟩ | ⟨rfl, front, behind, rfl, allowed, few⟩ |
      ⟨hex, front, behind, rfl, allowed, few⟩)
    · exact ⟨[], rest, rfl, nofun, few⟩
    · refine ⟨'.' :: front, behind, rfl, ?_, ?_⟩
      · exact List.forall_mem_cons.mpr ⟨.inl rfl, allowed⟩
      · rw [List.count_cons_self]
        omega
    · refine ⟨c :: front, behind, rfl, ?_, ?_⟩
      · exact List.forall_mem_cons.mpr ⟨.inr hex, allowed⟩
      · rwa [List.count_cons_of_ne (ne_dot_of_hex hex)]

theorem colonInReach_dot {dots : Nat} {rest : Text} :
    ColonInReach dots ('.' :: rest) ↔ ColonInReach (dots + 1) rest := by
  rw [colonInReach_cons]
  constructor
  · rintro (⟨colon, -⟩ | ⟨-, later⟩ | ⟨hex, -⟩)
    · exact absurd colon (by decide)
    · exact later
    · cases hex
  · exact fun later => .inr (.inl ⟨rfl, later⟩)

theorem ColonInReach.mem {dots : Nat} {text : Text} (h : ColonInReach dots text) : ':' ∈ text := by
  obtain ⟨front, behind, rfl, -, -⟩ := h
  exact List.mem_append_right front List.mem_cons_self

theorem ColonInReach.few {dots : Nat} {text : Text} (h : ColonInReach dots text) : dots ≤ 3 := by
  obtain ⟨_, _, _, _, bound⟩ := h
  exact Nat.le_of_add_right_le bound

/-- A text is ruled out as a hostname exactly when the scan comes to a colon. -/
theorem hostname_scan_iff (text : Text) {p : Possible} (possible : p.hostname = true)
    (few : p.dots ≤ 3) : (scan p text).hostname = false ↔ ColonInReach p.dots text := by
  induction text generalizing p with
  | nil =>
      rw [scan, possible]
      exact ⟨Bool.noConfusion, fun reach => absurd reach.mem List.not_mem_nil⟩
  | cons c rest ih =>
      by_cases colon : c = ':'
      · subst colon
        rw [scan, if_pos rfl, colonInReach_cons]
        exact ⟨fun _ => .inl ⟨rfl, few⟩, fun _ => rfl⟩
      by_cases dot : c = '.'
      · subst dot
        rw [scan, if_neg colon, if_pos rfl, colonInReach_dot]
        dsimp only
        split
        case isTrue many =>
          rw [possible]
          exact ⟨Bool.noConfusion, fun reach => absurd reach.few (Nat.not_le_of_lt many)⟩
        case isFalse more => exact ih possible (Nat.le_of_not_lt more)
      rw [colonInReach_cons]
      by_cases hex : (toDigit 16 c).isSome = true
      · have goesOn : (scan { p with ipv4 := p.ipv4 && c.isDigit } rest).hostname = false ↔
            ColonInReach p.dots rest := ih possible few
        rw [scan_hex p hex, goesOn]
        refine ⟨fun later => .inr (.inr ⟨hex, later⟩), ?_⟩
        rintro (⟨isColon, -⟩ | ⟨isDot, -⟩ | ⟨-, later⟩)
        · exact absurd isColon colon
        · exact absurd isDot dot
        · exact later
      · rw [scan_other p colon dot hex, possible]
        refine ⟨Bool.noConfusion, ?_⟩
        rintro (⟨isColon, -⟩ | ⟨isDot, -⟩ | ⟨isHex, -⟩)
        · exact absurd isColon colon
        · exact absurd isDot dot
        · exact absurd isHex hex

/-! ## The classification -/

/-- A text that is no literal is a hostname, unless the scan comes to a colon. -/
theorem ofText_of_neither {text : Text} (noIpv4 : Ipv4Addr.parse text = none)
    (noIpv6 : Ipv6Addr.parse text = none) :
    ofText text = if (scan ⟨0, true, true, true⟩ text).hostname then .ok (.hostname text)
      else .error (unparsable text) := by
  simp only [ofText, noIpv4, noIpv6, ite_self]

/-- The address that is read is the one that the text plainly is, exactly when
the first colon of the text, if there is one, has only hexadecimal digits and at
most three dots in front of it. -/
theorem from_eq_classify_iff (text : Text) :
    from_ text = classify text ↔ (':' ∈ text → ColonInReach 0 text) := by
  have ruledOut := hostname_scan_iff text (p := ⟨0, true, true, true⟩) rfl (Nat.zero_le 3)
  rw [from_eq_ofText, classify]
  split
  case h_1 ip parsed =>
    rw [ofText_of_ipv4 parsed]
    exact ⟨fun _ colon => absurd colon (colon_notMem_of_ipv4 parsed), fun _ => rfl⟩
  case h_2 noIpv4 =>
    split
    case h_1 ip parsed =>
      rw [ofText_of_ipv6 parsed]
      refine ⟨fun _ _ => ruledOut.mp ?_, fun _ => rfl⟩
      rw [scan_of_ipv6 parsed]
    case h_2 noIpv6 =>
      rw [ofText_of_neither noIpv4 noIpv6]
      by_cases colon : ':' ∈ text
      · rw [if_pos colon]
        split
        case isTrue host =>
          refine ⟨nofun, fun reach => ?_⟩
          rw [ruledOut.mpr (reach colon)] at host
          cases host
        case isFalse seen =>
          exact ⟨fun _ _ => ruledOut.mp (Bool.eq_false_iff.mpr seen), fun _ => rfl⟩
      · rw [if_neg colon, if_pos]
        · exact ⟨fun _ mem => absurd mem colon, fun _ => rfl⟩
        · by_contra seen
          exact colon (ruledOut.mp (Bool.eq_false_iff.mpr seen)).mem

/-- A name with a port is taken for a name: the `x` ends the scan in front of the
colon. -/
theorem named_port_is_hostname :
    from_ "example.com:80".toList = .ok (.hostname "example.com:80".toList) ∧
      classify "example.com:80".toList = .error (unparsable "example.com:80".toList) ∧
      from_ "example.com:80".toList ≠ classify "example.com:80".toList := by
  decide

end Address

end RustProxy
