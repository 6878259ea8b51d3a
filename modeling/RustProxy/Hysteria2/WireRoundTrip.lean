import RustProxy.Hysteria2.Fragmentation
import RustProxy.Hysteria2.Header
import RustProxy.Hysteria2.Varints
import RustProxy.LocationText
import RustProxy.Utf8

/-!
# Datagrams on the wire and back

The two UDP loops of `hysteria2.rs` speak one format: what
`run_udp_remote_to_local_loop` puts together, the parser of
`run_udp_local_to_remote_loop` takes apart again. Beside the fixed fields this
rests on three codecs that the loops do not share, the varint of the length, the
encoding of the label and the text of an address.

`Outgoing.arrives` is what becomes of a datagram at a receiver, by its fields. The
round trip shows that the bytes say the same: a label that names a location is
read as that location, and a datagram with any other label is ignored.
-/

namespace RustProxy.Hysteria2

open BigEndian

def Datagram.header (d : Datagram) : Header :=
  ⟨d.sessionId, d.packetId, d.fragmentId, d.fragmentCount, d.remoteLocation, d.payload⟩

/-- The datagram as it is given to `send_datagram`. -/
def Outgoing.wire (o : Outgoing) : IoResult Bytes := (encodeVarint (utf8Len o.address)).map o.bytes

/-- The bytes of a datagram fit the connection, and the parser finds in them what
went in. The label of an IPv4 source is read as that source. -/
structure ReadsBack (maxDatagramSize : Nat) (o : Outgoing) : Prop where
  bytes : ∃ bytes, o.wire = .ok bytes ∧ bytes.length ≤ maxDatagramSize ∧
    parseHeader bytes = some (o.arrives.map Datagram.header)
  source : ∀ (ip : Ipv4Addr) (port : UInt16), o.address = addressLabel none (.v4 ip port) →
    ∃ d, o.arrives = some d ∧ d.remoteLocation = ⟨.ipv4 ip, port⟩

@[simp] theorem locationOf_utf8Bytes (address : Text) :
    locationOf (utf8Bytes address) = (NetLocation.fromStr address none).toOption := by
  rw [locationOf, fromUtf8_utf8Bytes]
  dsimp only
  cases NetLocation.fromStr address none <;> rfl

theorem arrives_header (o : Outgoing) : o.arrives.map Datagram.header =
    if utf8Len o.address = 0 ∨ 2048 < utf8Len o.address then none
    else (NetLocation.fromStr o.address none).toOption.map fun remoteLocation =>
      ⟨o.sessionId, o.packetId, o.fragmentId, o.fragmentCount, remoteLocation, o.payload⟩ := by
  rw [Outgoing.arrives]
  split
  · rfl
  · cases NetLocation.fromStr o.address none <;> rfl

/-- The parser on a datagram whose length is in a varint of any width. -/
theorem parseHeader_bytes (o : Outgoing) (v : Varint (utf8Len o.address)) :
    parseHeader (o.bytes v.bytes) = some (o.arrives.map Datagram.header) := by
  obtain ⟨firstByte, remaining, bytes, announced, value⟩ := v.split
  have fields : o.bytes v.bytes = fixedFields o.sessionId o.packetId o.fragmentId o.fragmentCount
      firstByte (remaining ++ (utf8Bytes o.address ++ o.payload)) := by
    simp [Outgoing.bytes, fixedFields, bytes]
  have complete : ¬(remaining ++ (utf8Bytes o.address ++ o.payload)).length <
      numBytes (firstByte >>> 6) - 1 := by
    rw [List.length_append, announced]
    omega
  have length := length_utf8Bytes o.address
  rw [fields, parseHeader_fixedFields, if_neg complete, afterFields, arrives_header]
  rw [List.take_left' announced, List.drop_left' announced, value, List.take_left' length,
    List.drop_left' length, locationOf_utf8Bytes]
  have inside : ¬(utf8Bytes o.address ++ o.payload).length < utf8Len o.address := by
    rw [List.length_append, length]
    omega
  rw [if_neg inside]
  by_cases empty : utf8Len o.address = 0
  · rw [if_pos empty, if_pos (.inl empty)]
  · by_cases long : 2048 < utf8Len o.address
    · rw [if_neg empty, if_pos long, if_pos (.inr long)]
    · rw [if_neg empty, if_neg long, if_neg (by omega)]

/-- A datagram of a packet has room for its header. -/
theorem length_bytes_le {p : Packet} {maxDatagramSize : Nat} {sessionId : UInt32}
    {packetId : UInt16} {addressLenBytes : Bytes} {o : Outgoing}
    (room : p.headerOverhead addressLenBytes < maxDatagramSize)
    (mem : o ∈ p.datagrams maxDatagramSize (p.headerOverhead addressLenBytes) sessionId packetId) :
    (o.bytes addressLenBytes).length ≤ maxDatagramSize := by
  unfold Packet.datagrams at mem
  split at mem
  case isTrue fits =>
    obtain rfl := List.mem_singleton.mp mem
    rw [length_bytes]
    exact fits
  case isFalse =>
    obtain ⟨i, -, rfl⟩ := List.mem_map.mp mem
    rw [length_bytes]
    show p.headerOverhead addressLenBytes + (p.piece _ i).length ≤ _
    rw [Packet.piece, List.length_take]
    omega

/-- What is sent has a length that was encoded, and fits. -/
theorem wire_of_mem_sentFrom {maxDatagramSize : Nat} {sessionId : UInt32} {nextPacketId : UInt16}
    {n i : Nat} {packets : List Packet} {o : Outgoing}
    (mem : (i, o) ∈ sentFrom maxDatagramSize sessionId nextPacketId n packets) :
    ∃ addressLenBytes, encodeVarint (utf8Len o.address) = .ok addressLenBytes ∧
      (o.bytes addressLenBytes).length ≤ maxDatagramSize := by
  induction packets generalizing nextPacketId n with
  | nil => cases mem
  | cons p packets ih =>
      rw [sentFrom] at mem
      cases encoded : encodeVarint (utf8Len p.address) with
      | error e => simp [sendPacket, encoded] at mem
      | ok addressLenBytes =>
          by_cases small : maxDatagramSize ≤ p.headerOverhead addressLenBytes
          · simp [sendPacket, encoded, small] at mem
          · rw [sendPacket_eq encoded (by omega)] at mem
            rcases List.mem_append.mp mem with now | later
            · obtain ⟨_, own, same⟩ := List.mem_map.mp now
              obtain ⟨rfl, rfl⟩ := Prod.mk.inj same
              refine ⟨addressLenBytes, ?_, length_bytes_le (by omega) own⟩
              rw [address_of_mem_datagrams own, encoded]
            · exact ih later

theorem utf8Len_le (text : Text) : utf8Len text ≤ 4 * text.length := by
  induction text with
  | nil => rfl
  | cons c text ih =>
      have most := c.utf8Size_le_four
      rw [utf8Len] at ih ⊢
      rw [List.map_cons, List.sum_cons, List.length_cons]
      omega

theorem length_le_utf8Len (text : Text) : text.length ≤ utf8Len text := by
  induction text with
  | nil => exact Nat.le_refl 0
  | cons c text ih =>
      have least := c.utf8Size_pos
      rw [utf8Len] at ih ⊢
      rw [List.map_cons, List.sum_cons, List.length_cons]
      omega

/-- A datagram that is labelled with an IPv4 source arrives from that source. -/
theorem arrives_of_v4 {o : Outgoing} {ip : Ipv4Addr} {port : UInt16}
    (label : o.address = addressLabel none (.v4 ip port)) :
    ∃ d, o.arrives = some d ∧ d.remoteLocation = ⟨.ipv4 ip, port⟩ := by
  have text : o.address = ip.toText ++ ':' :: decimal port.toNat := label
  have length : o.address.length = ip.toText.length + ((decimal port.toNat).length + 1) := by
    rw [text, List.length_append, List.length_cons]
  have some_ := length_le_utf8Len o.address
  have most := utf8Len_le o.address
  have host := ip.length_toText_le
  have digits := NetParser.length_decimal_port_le port
  have read : NetLocation.fromStr o.address none = .ok ⟨.ipv4 ip, port⟩ := by
    rw [text, NetLocation.fromStr_port, Address.ofText_ipv4]
    rfl
  rw [Outgoing.arrives, if_neg (by omega), read]
  exact ⟨_, rfl, rfl⟩

/-- Every datagram that a sender gives to the connection, over all its packets, is
taken apart by the parser of the other direction into the fields it was put
together from. -/
theorem sent_datagrams_read_back (maxDatagramSize : Nat) (sessionId : UInt32)
    (packets : List Packet) :
    ∀ entry ∈ sentBy maxDatagramSize sessionId packets, ReadsBack maxDatagramSize entry.2 := by
  rintro ⟨i, o⟩ mem
  obtain ⟨addressLenBytes, encoded, fits⟩ := wire_of_mem_sentFrom mem
  refine ⟨⟨o.bytes addressLenBytes, ?_, fits, ?_⟩, fun ip port => arrives_of_v4⟩
  · rw [Outgoing.wire, encoded]
    rfl
  · have small : utf8Len o.address < 2 ^ 62 := by
      by_contra large
      rw [encodeVarint_refuses (Nat.le_of_not_lt large)] at encoded
      cases encoded
    obtain ⟨v, shortest, -⟩ := encodeVarint_shortest small
    obtain rfl := Except.ok.inj (encoded.symm.trans shortest)
    exact parseHeader_bytes o v

theorem three_bytes_small : ([1, 2, 3] : Bytes).length < 2 ^ 16 := by decide

/-- A packet of three bytes from 1.2.3.4:53, on a connection for small datagrams. -/
theorem two_fragments_read_back :
    (0, (fromDns [1, 2, 3] three_bytes_small).fragment 7 0 2 2 1) ∈
        sentBy 21 7 [fromDns [1, 2, 3] three_bytes_small] ∧
      ReadsBack 21 ((fromDns [1, 2, 3] three_bytes_small).fragment 7 0 2 2 1) := by
  have sent : (0, (fromDns [1, 2, 3] three_bytes_small).fragment 7 0 2 2 1) ∈
      sentBy 21 7 [fromDns [1, 2, 3] three_bytes_small] := by
    have all : sentBy 21 7 [fromDns [1, 2, 3] three_bytes_small] =
        [(0, (fromDns [1, 2, 3] three_bytes_small).fragment 7 0 2 2 0),
          (0, (fromDns [1, 2, 3] three_bytes_small).fragment 7 0 2 2 1)] := rfl
    rw [all]
    exact List.mem_cons_of_mem _ List.mem_cons_self
  exact ⟨sent, sent_datagrams_read_back 21 7 _ _ sent⟩

end RustProxy.Hysteria2
