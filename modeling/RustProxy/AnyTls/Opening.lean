import RustProxy.LocationText
import RustProxy.MessageStream.UotAddress
import RustProxy.Resolver

/-!
# Opening the destination of a stream

What a stream task does before it relays: `read_location_direct` takes the
destination off the stream, and `handle_tcp_forward` or `handle_uot_v2_connect`
resolve and connect it. An error goes into the SYNACK as a text, with the text
of the system's error inside it or the destination. The one is short and the
other comes from at most 255 bytes, so the whole text is short
(`length_openError_le`).
-/

namespace RustProxy.AnyTls

open BigEndian

def ADDR_TYPE_IPV4 : UInt8 := 0x01
def ADDR_TYPE_IPV6 : UInt8 := 0x04
def ADDR_TYPE_DOMAIN_NAME : UInt8 := 0x03

/-- `read_exact`, on the bytes that a stream brings; `none` when they are too few. -/
def readExact (n : Nat) (bytes : Bytes) : Option (Bytes × Bytes) :=
  if n ≤ bytes.length then some (bytes.take n, bytes.drop n) else none

/-- `u16::from_be_bytes`. -/
def u16FromBe (bytes : Bytes) : UInt16 := UInt16.ofNat (ofBe bytes)

/-- `read_location_direct`, with what it leaves of the stream. -/
def readLocationDirect (stream : Bytes) : Option (IoResult NetLocation × Bytes) := do
  let (addrType, stream) ← readExact 1 stream
  if addrType = [ADDR_TYPE_IPV4] then do
    let (buf, stream) ← readExact 6 stream
    let addr := ⟨buf.getD 0 0, buf.getD 1 0, buf.getD 2 0, buf.getD 3 0⟩
    return (.ok ⟨.ipv4 addr, u16FromBe (buf.drop 4)⟩, stream)
  else if addrType = [ADDR_TYPE_IPV6] then do
    let (buf, stream) ← readExact 18 stream
    return (.ok ⟨.ipv6 (MessageStream.ofOctets (buf.take 16)), u16FromBe (buf.drop 16)⟩, stream)
  else if addrType = [ADDR_TYPE_DOMAIN_NAME] then do
    let (len, stream) ← readExact 1 stream
    let domainLen := (len.getD 0 0).toNat
    let (buf, stream) ← readExact (domainLen + 2) stream
    match fromUtf8 (buf.take domainLen) with
    | .error e => return (.error ⟨.invalidData, "Invalid domain encoding: " ++ e.toText⟩, stream)
    | .ok domain =>
        match Address.ofText domain with
        | .error e => return (.error e, stream)
        | .ok address => return (.ok ⟨address, u16FromBe (buf.drop domainLen)⟩, stream)
  else
    return (.error ⟨.invalidInput, "Unknown address type: " ++ toString (addrType.getD 0 0).toNat⟩,
      stream)

/-- What the system answers when a destination is opened: the lookup of its
hostname, unless it has none or the cache has it, and the connection. -/
structure Dialled where
  lookedUp : Option (IoResult (List SocketAddr))
  connected : IoResult Unit

/-- `connect_tcp` and `connect_udp`. -/
def Dialled.result (dialled : Dialled) (destination : NetLocation) : IoResult Unit :=
  match destination.address.hostname?, dialled.lookedUp with
  | some hostname, some answer =>
      match Resolver.lookupHost hostname destination.port answer with
      | .error e => .error e
      | .ok _ => dialled.connected
  | _, _ => dialled.connected

/-- The ways to a SYNACK. -/
inductive Opening where
  | tcp (dialled : Dialled)
  | tcpTimedOut
  | udp (dialled : Dialled)
  | multiDestination

/-- The error in the SYNACK, if there is one. -/
def Opening.error (destination : NetLocation) : Opening → Option Text
  | .tcp dialled =>
      match dialled.result destination with
      | .ok () => none
      | .error e => some ("connect failed: ".toList ++ e.message.toList)
  | .tcpTimedOut =>
      -- `CONNECT_TIMEOUT` is 30 seconds
      some ("connect to ".toList ++ destination.toText ++ " timed out after 30s".toList)
  | .udp dialled =>
      match dialled.result destination with
      | .ok () => none
      | .error e => some ("UDP connect failed: ".toList ++ e.message.toList)
  | .multiDestination => none

/-- More than the texts of the system's errors have, in characters. -/
def SYSTEM_TEXT_LIMIT : Nat := 4096

/-! ## How long the texts are -/

theorem length_utf8Bytes_le (text : Text) : (utf8Bytes text).length ≤ 4 * text.length := by
  induction text with
  | nil => rfl
  | cons c text ih =>
      have most := c.utf8Size_le_four
      rw [utf8Bytes] at ih ⊢
      rw [List.flatMap_cons, List.length_append, String.length_utf8EncodeChar, List.length_cons]
      omega

theorem length_strictChars_le {steps index : Nat} {bytes : Bytes} {text : Text}
    (read : strictChars steps index bytes = .ok text) : text.length ≤ steps := by
  induction steps generalizing index bytes text with
  | zero =>
      cases read
      exact Nat.le_refl 0
  | succ steps ih =>
      cases bytes with
      | nil =>
          cases read
          exact Nat.zero_le _
      | cons lead rest =>
          rw [strictChars] at read
          split at read
          case h_1 char width first =>
            cases later : strictChars steps (index + width) ((lead :: rest).drop width) with
            | error e =>
                rw [later] at read
                cases read
            | ok chars =>
                rw [later] at read
                cases read
                have := ih later
                rw [List.length_cons]
                omega
          case h_2 => cases read

/-- The text of an address comes from its name, or is a literal. -/
theorem length_toText_of_ofText {text : Text} {address : Address}
    (read : Address.ofText text = .ok address) : address.toText.length ≤ max text.length 42 := by
  cases address with
  | ipv4 ip =>
      have := ip.length_toText_le
      rw [Address.toText]
      omega
  | ipv6 ip =>
      have := ip.length_toText_le
      rw [Address.toText]
      omega
  | hostname name =>
      rw [← Address.eq_of_ofText_hostname read]
      exact Nat.le_max_left _ _

theorem length_toText_le {location : NetLocation} {n : Nat}
    (address : location.address.toText.length ≤ n) : location.toText.length ≤ n + 6 := by
  have := NetParser.length_decimal_port_le location.port
  rw [NetLocation.toText, List.length_append, List.length_cons]
  omega

/-- A destination is read from at most 255 bytes of a name. -/
theorem length_destination_le {stream rest : Bytes} {destination : NetLocation}
    (read : readLocationDirect stream = some (.ok destination, rest)) :
    destination.toText.length ≤ 261 := by
  apply length_toText_le (n := 255)
  simp only [readLocationDirect, Option.bind_eq_bind, Option.bind_eq_some_iff] at read
  obtain ⟨⟨addrType, afterType⟩, -, read⟩ := read
  dsimp only at read
  split at read
  case isTrue =>
    obtain ⟨⟨buf, after⟩, -, read⟩ := Option.bind_eq_some_iff.mp read
    cases read
    exact (Ipv4Addr.length_toText_le _).trans (by decide)
  case isFalse =>
    split at read
    case isTrue =>
      obtain ⟨⟨buf, after⟩, -, read⟩ := Option.bind_eq_some_iff.mp read
      cases read
      exact (Ipv6Addr.length_toText_le _).trans (by decide)
    case isFalse =>
      split at read
      case isTrue =>
        obtain ⟨⟨len, afterLen⟩, -, read⟩ := Option.bind_eq_some_iff.mp read
        obtain ⟨⟨buf, after⟩, taken, read⟩ := Option.bind_eq_some_iff.mp read
        dsimp only at read
        split at read
        case h_1 => cases read
        case h_2 domain utf8 =>
          split at read
          case h_1 => cases read
          case h_2 address parsed =>
            cases read
            have name := length_strictChars_le utf8
            have announced := (len.getD 0 0).toNat_lt
            have most := length_toText_of_ofText parsed
            rw [List.length_take] at name
            show address.toText.length ≤ 255
            omega
      case isFalse => cases read

/-- The system's own texts are short. -/
def Dialled.Short (dialled : Dialled) : Prop :=
  ∀ e, dialled.lookedUp = some (.error e) ∨ dialled.connected = .error e →
    e.message.toList.length ≤ SYSTEM_TEXT_LIMIT

def Opening.Short : Opening → Prop
  | .tcp dialled | .udp dialled => dialled.Short
  | .tcpTimedOut | .multiDestination => True

theorem key_eq_toText {location : NetLocation} {hostname : Text}
    (host : location.address.hostname? = some hostname) :
    Resolver.key hostname location.port = location.toText := by
  obtain ⟨address, port⟩ := location
  cases address with
  | ipv4 | ipv6 => cases host
  | hostname name =>
      cases host
      rfl

/-- An error is the system's, or that a name has no address. -/
theorem Dialled.length_error_le {dialled : Dialled} (short : dialled.Short)
    {destination : NetLocation} (location : destination.toText.length ≤ 261) {e : IoError}
    (failed : dialled.result destination = .error e) :
    e.message.toList.length ≤ SYSTEM_TEXT_LIMIT := by
  unfold result at failed
  split at failed
  case h_1 hostname answer host lookedUp =>
    split at failed
    case h_1 lookup =>
      cases failed
      unfold Resolver.lookupHost at lookup
      split at lookup
      case h_1 =>
        cases lookup
        exact short _ (.inl lookedUp)
      case h_2 =>
        split at lookup
        case h_1 => cases lookup
        case h_2 =>
          cases lookup
          rw [key_eq_toText host, SYSTEM_TEXT_LIMIT]
          simp only [String.toList_append, String.toList_ofList, List.length_append]
          exact (Nat.add_le_add_left location _).trans (by decide)
    case h_2 => exact short e (.inr failed)
  case h_2 => exact short e (.inr failed)

/-- The error in a SYNACK is short. -/
theorem length_openError_le {stream rest : Bytes} {destination : NetLocation}
    (read : readLocationDirect stream = some (.ok destination, rest)) {opening : Opening}
    (short : opening.Short) {error : Text} (failed : opening.error destination = some error) :
    (utf8Bytes error).length ≤ 65535 := by
  have location := length_destination_le read
  suffices most : error.length ≤ SYSTEM_TEXT_LIMIT + 20 by
    have := length_utf8Bytes_le error
    rw [SYSTEM_TEXT_LIMIT] at most
    omega
  -- a text with the system's inside it
  have wraps {front : Text} {dialled : Dialled} (fits : front.length ≤ 20) (short : dialled.Short)
      {e : IoError} (result : dialled.result destination = .error e) :
      (front ++ e.message.toList).length ≤ SYSTEM_TEXT_LIMIT + 20 := by
    have := dialled.length_error_le short location result
    rw [List.length_append]
    omega
  cases opening with
  | tcp dialled =>
      rw [Opening.error] at failed
      split at failed
      case h_1 => cases failed
      case h_2 result =>
        cases failed
        exact wraps (by decide) short result
  | tcpTimedOut =>
      cases failed
      rw [List.length_append, List.length_append, SYSTEM_TEXT_LIMIT]
      have front : "connect to ".toList.length = 11 := rfl
      have back : " timed out after 30s".toList.length = 20 := rfl
      omega
  | udp dialled =>
      rw [Opening.error] at failed
      split at failed
      case h_1 => cases failed
      case h_2 result =>
        cases failed
        exact wraps (by decide) short result
  | multiDestination => cases failed

end RustProxy.AnyTls
