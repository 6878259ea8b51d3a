import RustProxy.AsyncStream
import RustProxy.Base.BigEndian
import RustProxy.Base.Ring
import RustProxy.Base.Slice
import RustProxy.Text

/-!
# The addresses of UDP over TCP

`parse_uot_address` and `write_uot_address` of `message_stream.rs`. An address
is its type, the address proper and a port; a domain has its length in front.

`IsAddress` is the grammar. The parser finds the address that begins the bytes
(`parseUotAddress_append`), and whatever it answers is about such an address, or
about one that has not arrived yet, or does not change any more when further
bytes arrive (`parsedAddress`).
-/

namespace RustProxy.MessageStream

open BigEndian

/-- `Ipv6Addr::octets`. -/
def octets (ip : Ipv6Addr) : Bytes := ip.segments.toList.flatMap fun segment => toBe 2 segment.toNat

/-- `Ipv6Addr::from`, of sixteen octets. -/
def ofOctets (octets : Bytes) : Ipv6Addr :=
  ⟨Vector.ofFn fun i => UInt16.ofNat (ofBe ((octets.drop (2 * i.val)).take 2))⟩

def UOT_ATYP_IPV4 : UInt8 := 0x00
def UOT_ATYP_IPV6 : UInt8 := 0x01
def UOT_ATYP_DOMAIN : UInt8 := 0x02

/-- `u16::from_be_bytes` of two bytes of a slice. -/
def u16At (data : Bytes) (i : Nat) : Option UInt16 := do
  let high ← data[i]?
  let low ← data[i + 1]?
  return UInt16.ofNat (ofBe [high, low])

/-- The address that begins the data, with its length. `none` is a slice out of
range; an address that is cut off is `.ok none`. -/
def parseUotAddress (data : Bytes) : Option (IoResult (Option (NetLocation × Nat))) :=
  if data = [] then return .ok none
  else do
    let atyp ← data[0]?
    if atyp = UOT_ATYP_IPV4 then
      if data.length < 7 then return .ok none
      else do
        let a ← data[1]?
        let b ← data[2]?
        let c ← data[3]?
        let d ← data[4]?
        let port ← u16At data 5
        return .ok (some (⟨.ipv4 ⟨a, b, c, d⟩, port⟩, 7))
    else if atyp = UOT_ATYP_IPV6 then
      if data.length < 19 then return .ok none
      else do
        let ipBytes ← data.slice 1 17
        let port ← u16At data 17
        return .ok (some (⟨.ipv6 (ofOctets ipBytes), port⟩, 19))
    else if atyp = UOT_ATYP_DOMAIN then
      if data.length < 2 then return .ok none
      else do
        let domainLen ← data[1]?
        let domainLen := domainLen.toNat
        let totalLen := 1 + 1 + domainLen + 2
        if data.length < totalLen then return .ok none
        else do
          let domain ← data.slice 2 (2 + domainLen)
          match fromUtf8 domain with
          | .error e => return .error ⟨.other, "invalid domain: " ++ e.toText⟩
          | .ok domain => do
              let port ← u16At data (2 + domainLen)
              return .ok (some (⟨.hostname domain, port⟩, totalLen))
    else return .error ⟨.other, "unknown UoT ATYP: " ++ toString atyp.toNat⟩

/-- The address at the beginning of a buffer, with its length. -/
def writeUotAddress (buf : Bytes) : SocketAddr → Option (Nat × Bytes)
  | .v4 ip port => do
      let buf ← buf.copyFromSlice 0 1 [UOT_ATYP_IPV4]
      let buf ← buf.copyFromSlice 1 5 [ip.a, ip.b, ip.c, ip.d]
      let buf ← buf.copyFromSlice 5 7 (toBe 2 port.toNat)
      return (7, buf)
  | .v6 ip port _ _ => do
      let buf ← buf.copyFromSlice 0 1 [UOT_ATYP_IPV6]
      let buf ← buf.copyFromSlice 1 17 (octets ip)
      let buf ← buf.copyFromSlice 17 19 (toBe 2 port.toNat)
      return (19, buf)

/-! ## The grammar -/

/-- The bytes of an address. -/
inductive IsAddress : Bytes → NetLocation → Prop
  | ipv4 (ip : Ipv4Addr) (port : UInt16) :
      IsAddress (UOT_ATYP_IPV4 :: ip.a :: ip.b :: ip.c :: ip.d :: toBe 2 port.toNat)
        ⟨.ipv4 ip, port⟩
  | ipv6 {ipBytes : Bytes} (sixteen : ipBytes.length = 16) (port : UInt16) :
      IsAddress (UOT_ATYP_IPV6 :: (ipBytes ++ toBe 2 port.toNat)) ⟨.ipv6 (ofOctets ipBytes), port⟩
  | domain {bytes : Bytes} {domain : Text} {domainLen : UInt8}
      (announced : domainLen.toNat = bytes.length) (utf8 : fromUtf8 bytes = .ok domain)
      (port : UInt16) :
      IsAddress (UOT_ATYP_DOMAIN :: domainLen :: (bytes ++ toBe 2 port.toNat))
        ⟨.hostname domain, port⟩

theorem ofNat_ofBe_toBe (n : UInt16) : UInt16.ofNat (ofBe (toBe 2 n.toNat)) = n := by
  rw [ofBe_toBe_of_lt n.toNat_lt, UInt16.ofNat_toNat]

/-- Two bytes are those of the number they denote. -/
theorem toBe_ofNat_ofBe (high low : UInt8) :
    toBe 2 (UInt16.ofNat (ofBe [high, low])).toNat = [high, low] := by
  have small : ofBe [high, low] < UInt16.size :=
    (ofBe_lt [high, low]).trans_eq (by simp [UInt16.size])
  rw [UInt16.toNat_ofNat_of_lt' small]
  exact toBe_ofBe [high, low]

theorem u16At_append {before after : Bytes} {i : Nat} (n : UInt16) (at_ : i = before.length) :
    u16At (before ++ (toBe 2 n.toNat ++ after)) i = some n := by
  subst at_
  have high : (before ++ (toBe 2 n.toNat ++ after))[before.length]? =
      some (UInt8.ofNat (n.toNat / 256)) := by
    rw [List.getElem?_append_right (Nat.le_refl _), Nat.sub_self]
    rfl
  have low : (before ++ (toBe 2 n.toNat ++ after))[before.length + 1]? =
      some (UInt8.ofNat n.toNat) := by
    rw [List.getElem?_append_right (Nat.le_add_right _ _), Nat.add_sub_cancel_left]
    rfl
  rw [u16At, high, low]
  exact congrArg some (ofNat_ofBe_toBe n)

/-- The parser at a domain that is there as a whole. -/
theorem parseUotAddress_domain {name : Bytes} {domainLen : UInt8}
    (announced : domainLen.toNat = name.length) (port : UInt16) (more : Bytes) :
    parseUotAddress (UOT_ATYP_DOMAIN :: domainLen :: (name ++ (toBe 2 port.toNat ++ more))) =
      match fromUtf8 name with
      | .error e => some (.error ⟨.other, "invalid domain: " ++ e.toText⟩)
      | .ok domain =>
          some (.ok (some (⟨.hostname domain, port⟩, 1 + 1 + domainLen.toNat + 2))) := by
  have name_ : ([UOT_ATYP_DOMAIN, domainLen] ++ (name ++ (toBe 2 port.toNat ++ more))).slice 2
      (2 + domainLen.toNat) = some name := List.slice_append rfl (by rw [announced])
  have port_ : u16At ((UOT_ATYP_DOMAIN :: domainLen :: name) ++ (toBe 2 port.toNat ++ more))
      (2 + domainLen.toNat) = some port :=
    u16At_append port (by simp only [List.length_cons, announced]; omega)
  have long : ¬ (UOT_ATYP_DOMAIN :: domainLen :: (name ++ (toBe 2 port.toNat ++ more))).length <
      1 + 1 + domainLen.toNat + 2 := by
    simp only [List.length_cons, List.length_append, length_toBe]
    omega
  simp only [List.cons_append, List.nil_append] at name_ port_
  rw [parseUotAddress, if_neg (List.cons_ne_nil _ _)]
  dsimp only [List.getElem?_cons_zero, List.getElem?_cons_succ, Option.bind_eq_bind,
    Option.bind_some]
  rw [if_neg (by decide), if_neg (by decide), if_pos rfl, if_neg (by simp), if_neg long, name_,
    port_]
  dsimp only [Option.bind_some]
  split <;> rfl

/-- The parser finds the address that begins the data. -/
theorem parseUotAddress_append {bytes : Bytes} {location : NetLocation}
    (is : IsAddress bytes location) (more : Bytes) :
    parseUotAddress (bytes ++ more) = some (.ok (some (location, bytes.length))) := by
  cases is with
  | ipv4 ip port =>
      have port_ :
          u16At ([UOT_ATYP_IPV4, ip.a, ip.b, ip.c, ip.d] ++ (toBe 2 port.toNat ++ more)) 5 =
          some port := u16At_append port rfl
      simp only [List.cons_append, List.nil_append] at port_ ⊢
      rw [parseUotAddress, if_neg (List.cons_ne_nil _ _)]
      simp [port_, length_toBe]
  | @ipv6 ipBytes sixteen port =>
      have ip : ([UOT_ATYP_IPV6] ++ (ipBytes ++ (toBe 2 port.toNat ++ more))).slice 1 17 =
          some ipBytes := List.slice_append rfl (by rw [sixteen])
      have port_ : u16At ((UOT_ATYP_IPV6 :: ipBytes) ++ (toBe 2 port.toNat ++ more)) 17 =
          some port := u16At_append port (by rw [List.length_cons, sixteen])
      have long : ¬ (UOT_ATYP_IPV6 :: (ipBytes ++ (toBe 2 port.toNat ++ more))).length < 19 := by
        simp only [List.length_cons, List.length_append, length_toBe]
        omega
      simp only [List.cons_append, List.nil_append, List.append_assoc] at ip port_ ⊢
      rw [parseUotAddress, if_neg (List.cons_ne_nil _ _)]
      dsimp only [List.getElem?_cons_zero, Option.bind_eq_bind, Option.bind_some]
      rw [if_neg (by decide), if_pos rfl, if_neg long, ip, port_]
      simp [length_toBe, sixteen]
  | @domain name domain domainLen announced utf8 port =>
      simp only [List.cons_append, List.append_assoc]
      rw [parseUotAddress_domain announced, utf8]
      simp only [List.length_cons, List.length_append, length_toBe, announced]
      rw [show 1 + 1 + name.length + 2 = name.length + 2 + 1 + 1 by omega]

/-- What the parser can answer: the address that begins the data, that it is not
all there, or an error that further bytes do not change. -/
inductive ParsedAddress (data : Bytes) : Option (IoResult (Option (NetLocation × Nat))) → Prop
  | truncated : ParsedAddress data (some (.ok none))
  | complete {bytes more : Bytes} {location : NetLocation} (is : IsAddress bytes location)
      (begins : data = bytes ++ more) :
      ParsedAddress data (some (.ok (some (location, bytes.length))))
  | invalid {e : IoError} (stays : ∀ more, parseUotAddress (data ++ more) = some (.error e)) :
      ParsedAddress data (some (.error e))

theorem ParsedAddress.of_append {bytes : Bytes} {location : NetLocation}
    (is : IsAddress bytes location) (more : Bytes) :
    ParsedAddress (bytes ++ more) (parseUotAddress (bytes ++ more)) := by
  rw [parseUotAddress_append is]
  exact .complete is rfl

/-- A list with that many elements is cut there. -/
theorem exists_append {data : Bytes} {n : Nat} (long : n ≤ data.length) :
    ∃ front rest, data = front ++ rest ∧ front.length = n :=
  ⟨data.take n, data.drop n, (List.take_append_drop n data).symm, List.length_take_of_le long⟩

theorem parsedAddress_ipv4 (rest : Bytes) :
    ParsedAddress (UOT_ATYP_IPV4 :: rest) (parseUotAddress (UOT_ATYP_IPV4 :: rest)) := by
  match rest with
  | a :: b :: c :: d :: high :: low :: more =>
      have complete : ParsedAddress _ (parseUotAddress _) :=
        .of_append (.ipv4 ⟨a, b, c, d⟩ (UInt16.ofNat (ofBe [high, low]))) more
      rwa [toBe_ofNat_ofBe] at complete
  | [] | [_] | [_, _] | [_, _, _] | [_, _, _, _] | [_, _, _, _, _] => exact .truncated

theorem parsedAddress_ipv6 (rest : Bytes) :
    ParsedAddress (UOT_ATYP_IPV6 :: rest) (parseUotAddress (UOT_ATYP_IPV6 :: rest)) := by
  by_cases long : 18 ≤ rest.length
  · obtain ⟨ipBytes, tail, rfl, sixteen⟩ := exists_append (show 16 ≤ rest.length by omega)
    rw [List.length_append] at long
    match tail with
    | high :: low :: more =>
        have complete : ParsedAddress _ (parseUotAddress _) :=
          .of_append (.ipv6 sixteen (UInt16.ofNat (ofBe [high, low]))) more
        rw [toBe_ofNat_ofBe] at complete
        simpa using complete
    | [] | [_] =>
        simp only [List.length_cons, List.length_nil] at long
        omega
  · have short : (UOT_ATYP_IPV6 :: rest).length < 19 := by
      rw [List.length_cons]
      omega
    have truncated : parseUotAddress (UOT_ATYP_IPV6 :: rest) = some (.ok none) := by
      rw [parseUotAddress, if_neg (List.cons_ne_nil _ _)]
      dsimp only [List.getElem?_cons_zero, Option.bind_eq_bind, Option.bind_some]
      rw [if_neg (by decide), if_pos rfl, if_pos short]
      rfl
    rw [truncated]
    exact .truncated

theorem parsedAddress_domain (rest : Bytes) :
    ParsedAddress (UOT_ATYP_DOMAIN :: rest) (parseUotAddress (UOT_ATYP_DOMAIN :: rest)) := by
  match rest with
  | [] => exact .truncated
  | domainLen :: rest =>
      by_cases long : domainLen.toNat + 2 ≤ rest.length
      · obtain ⟨name, tail, rfl, announced⟩ :=
          exists_append (show domainLen.toNat ≤ rest.length by omega)
        rw [List.length_append] at long
        match tail with
        | high :: low :: more =>
            have equation := parseUotAddress_domain announced.symm (UInt16.ofNat (ofBe [high, low]))
            rw [toBe_ofNat_ofBe] at equation
            cases utf8 : fromUtf8 name with
            | error e =>
                rw [utf8] at equation
                have first := equation more
                simp only [List.cons_append, List.nil_append] at first equation
                rw [first]
                refine .invalid fun further => ?_
                have later := equation (more ++ further)
                simpa using later
            | ok domain =>
                have complete : ParsedAddress _ (parseUotAddress _) :=
                  .of_append (.domain announced.symm utf8 (UInt16.ofNat (ofBe [high, low])))
                    more
                rw [toBe_ofNat_ofBe] at complete
                simpa using complete
        | [] | [_] =>
            simp only [List.length_cons, List.length_nil] at long
            omega
      · have short : (UOT_ATYP_DOMAIN :: domainLen :: rest).length <
            1 + 1 + domainLen.toNat + 2 := by
          simp only [List.length_cons]
          omega
        have truncated : parseUotAddress (UOT_ATYP_DOMAIN :: domainLen :: rest) =
            some (.ok none) := by
          rw [parseUotAddress, if_neg (List.cons_ne_nil _ _)]
          dsimp only [List.getElem?_cons_zero, List.getElem?_cons_succ, Option.bind_eq_bind,
            Option.bind_some]
          rw [if_neg (by decide), if_neg (by decide), if_pos rfl, if_neg (by simp), if_pos short]
          rfl
        rw [truncated]
        exact .truncated

theorem parsedAddress (data : Bytes) : ParsedAddress data (parseUotAddress data) := by
  match data with
  | [] => exact .truncated
  | atyp :: rest =>
      by_cases ipv4 : atyp = UOT_ATYP_IPV4
      · subst ipv4
        exact parsedAddress_ipv4 rest
      by_cases ipv6 : atyp = UOT_ATYP_IPV6
      · subst ipv6
        exact parsedAddress_ipv6 rest
      by_cases domain : atyp = UOT_ATYP_DOMAIN
      · subst domain
        exact parsedAddress_domain rest
      have unknown (rest : Bytes) : parseUotAddress (atyp :: rest) =
          some (.error ⟨.other, "unknown UoT ATYP: " ++ toString atyp.toNat⟩) := by
        rw [parseUotAddress, if_neg (List.cons_ne_nil _ _)]
        dsimp only [List.getElem?_cons_zero, Option.bind_eq_bind, Option.bind_some]
        rw [if_neg ipv4, if_neg ipv6, if_neg domain]
        rfl
      rw [unknown]
      exact .invalid fun more => unknown (rest ++ more)

/-! ## Writing an address -/

/-- The location that a socket address names. -/
def locationOf : SocketAddr → NetLocation
  | .v4 ip port => ⟨.ipv4 ip, port⟩
  | .v6 ip port _ _ => ⟨.ipv6 ip, port⟩

/-- The bytes of the address of a socket. -/
def uotAddress : SocketAddr → Bytes
  | .v4 ip port => [UOT_ATYP_IPV4] ++ [ip.a, ip.b, ip.c, ip.d] ++ toBe 2 port.toNat
  | .v6 ip port _ _ => [UOT_ATYP_IPV6] ++ octets ip ++ toBe 2 port.toNat

@[simp, grind =] theorem length_octets (ip : Ipv6Addr) : (octets ip).length = 16 := by
  simp [octets, List.length_flatMap, length_toBe]

theorem take_drop_octets (segments : List UInt16) {i : Nat} (inside : i < segments.length) :
    ((segments.flatMap fun segment => toBe 2 segment.toNat).drop (2 * i)).take 2 =
      toBe 2 segments[i].toNat := by
  induction segments generalizing i with
  | nil => simp at inside
  | cons segment segments ih =>
      cases i with
      | zero =>
          rw [List.flatMap_cons]
          exact List.take_left' (length_toBe 2 _)
      | succ i =>
          have after : 2 * (i + 1) = (toBe 2 segment.toNat).length + 2 * i := by
            rw [length_toBe]
            omega
          rw [List.flatMap_cons, after, ← List.drop_drop, List.drop_left]
          exact ih (Nat.lt_of_succ_lt_succ inside)

@[simp, grind =] theorem ofOctets_octets (ip : Ipv6Addr) : ofOctets (octets ip) = ip := by
  refine congrArg Ipv6Addr.mk (Vector.ext fun i inside => ?_)
  have segment := take_drop_octets ip.segments.toList (i := i) (by simpa using inside)
  rw [Vector.getElem_ofFn, octets, segment, ofNat_ofBe_toBe]
  exact Vector.getElem_toList _

theorem isAddress_uotAddress (addr : SocketAddr) :
    IsAddress (uotAddress addr) (locationOf addr) := by
  cases addr with
  | v4 ip port => exact .ipv4 ip port
  | v6 ip port flowinfo scopeId =>
      have is := IsAddress.ipv6 (length_octets ip) port
      rw [ofOctets_octets] at is
      exact is

/-- The bytes of the address come to stand at the beginning of the buffer. -/
theorem writeUotAddress_begins {buf : Bytes} (addr : SocketAddr) (room : 19 ≤ buf.length) :
    ∃ buf', writeUotAddress buf addr = some ((uotAddress addr).length, buf') ∧
      buf'.length = buf.length ∧ uotAddress addr <+: buf' := by
  have start : ([] : Bytes) <+: buf := List.nil_prefix
  cases addr with
  | v4 ip port =>
      obtain ⟨buf₁, first, length₁, begins₁⟩ := List.copyFromSlice_concat start
        (show 1 = 0 + [UOT_ATYP_IPV4].length from rfl) (by rfl) (by omega)
      obtain ⟨buf₂, second, length₂, begins₂⟩ := List.copyFromSlice_concat begins₁
        (show 5 = 1 + [ip.a, ip.b, ip.c, ip.d].length from rfl) (by rfl) (by omega)
      obtain ⟨buf₃, third, length₃, begins₃⟩ := List.copyFromSlice_concat begins₂
        (show 7 = 5 + (toBe 2 port.toNat).length from rfl) (by rfl) (by omega)
      refine ⟨buf₃, ?_, by omega, begins₃⟩
      rw [writeUotAddress, first]
      dsimp only [Option.bind_eq_bind, Option.bind_some]
      rw [second]
      dsimp only [Option.bind_some]
      rw [third]
      rfl
  | v6 ip port flowinfo scopeId =>
      have sixteen := length_octets ip
      obtain ⟨buf₁, first, length₁, begins₁⟩ := List.copyFromSlice_concat start
        (show 1 = 0 + [UOT_ATYP_IPV6].length from rfl) (by rfl) (by omega)
      obtain ⟨buf₂, second, length₂, begins₂⟩ := List.copyFromSlice_concat begins₁
        (show 17 = 1 + (octets ip).length by rw [sixteen]) (by rfl) (by omega)
      obtain ⟨buf₃, third, length₃, begins₃⟩ := List.copyFromSlice_concat begins₂
        (show 19 = 17 + (toBe 2 port.toNat).length from rfl) (by simp [sixteen]) (by omega)
      refine ⟨buf₃, ?_, by omega, begins₃⟩
      have length : (uotAddress (.v6 ip port flowinfo scopeId)).length = 19 := by
        simp [uotAddress, sixteen, length_toBe]
      rw [writeUotAddress, first, length]
      dsimp only [Option.bind_eq_bind, Option.bind_some]
      rw [second]
      dsimp only [Option.bind_some]
      rw [third]
      rfl

end RustProxy.MessageStream
