import Mathlib.Data.List.Basic
import RustProxy.Hysteria2.Sender

/-!
# What a packet is cut into

The datagrams that `run_udp_remote_to_local_loop` gives to `send_datagram` for
one packet, as bytes. Each fits the connection, they are numbered from 0, and
put together they are the packet, as long as their number has eight bits. It is
computed in a `usize` and cut to a `u8`: a payload that needs more fragments
loses its end, and one that needs a multiple of 256 is not sent at all.
-/

namespace RustProxy.Hysteria2

open BigEndian

@[simp] theorem length_utf8Bytes (text : Text) : (utf8Bytes text).length = utf8Len text := by
  induction text with
  | nil => rfl
  | cons c text ih =>
      rw [utf8Bytes, List.flatMap_cons, List.length_append, String.length_utf8EncodeChar]
      show c.utf8Size + (utf8Bytes text).length = _
      rw [ih, utf8Len, utf8Len, List.map_cons, List.sum_cons]

/-- The datagram as it is put together: header, label, payload. -/
def Outgoing.bytes (o : Outgoing) (addressLenBytes : Bytes) : Bytes :=
  toBe 4 o.sessionId.toNat ++ toBe 2 o.packetId.toNat ++ [o.fragmentId, o.fragmentCount] ++
    addressLenBytes ++ utf8Bytes o.address ++ o.payload

/-- The datagrams fit the connection, are numbered from 0 and count themselves,
and have the payload among them. -/
structure Carried (p : Packet) (maxDatagramSize : Nat) (packetId : UInt16)
    (addressLenBytes : Bytes) (sent : List Outgoing) : Prop where
  fit : ∀ o ∈ sent, (o.bytes addressLenBytes).length ≤ maxDatagramSize
  packet : ∀ o ∈ sent, o.packetId = packetId
  count : ∀ o ∈ sent, o.fragmentCount.toNat = sent.length
  ids : sent.map (·.fragmentId.toNat) = List.range sent.length
  some : 1 ≤ sent.length
  payload : (sent.map Outgoing.payload).flatten = p.payload

/-- The round sends datagrams that carry the packet. -/
def CarriesWhole (p : Packet) (maxDatagramSize : Nat) (packetId : UInt16) (addressLenBytes : Bytes)
    (round : Round) : Prop :=
  ∃ sent, round = .sends sent ∧ Carried p maxDatagramSize packetId addressLenBytes sent

variable {p : Packet} {maxDatagramSize availablePayload : Nat} {sessionId : UInt32}
  {packetId : UInt16} {addressLenBytes : Bytes}

@[simp] theorem length_bytes (o : Outgoing) : (o.bytes addressLenBytes).length =
    4 + 2 + 1 + 1 + addressLenBytes.length + utf8Len o.address + o.payload.length := by
  simp only [Outgoing.bytes, List.length_append, length_toBe, length_utf8Bytes, List.length_cons,
    List.length_nil]

/-- Eight bits are enough for the fragments of up to 255 full datagrams. -/
theorem needed_le_iff (room : 0 < availablePayload) :
    p.needed availablePayload ≤ 255 ↔ p.payload.length ≤ 255 * availablePayload := by
  rw [Packet.needed, Nat.div_le_iff_le_mul_add_pred room, Nat.mul_comm availablePayload]
  omega

/-- A packet that goes out in one datagram. -/
theorem carried_whole
    (fits : p.headerOverhead addressLenBytes + p.payload.length ≤ maxDatagramSize) :
    Carried p maxDatagramSize packetId addressLenBytes [p.whole sessionId packetId] where
  fit o mem := by
    obtain rfl := List.mem_singleton.mp mem
    rw [length_bytes]
    exact fits
  packet o mem := by
    obtain rfl := List.mem_singleton.mp mem
    rfl
  count o mem := by
    obtain rfl := List.mem_singleton.mp mem
    rfl
  ids := rfl
  some := Nat.le_refl 1
  payload := List.flatten_singleton

/-- A packet in as many fragments as it needs. -/
theorem carried_fragments (room : p.headerOverhead addressLenBytes < maxDatagramSize)
    (long : maxDatagramSize < p.headerOverhead addressLenBytes + p.payload.length)
    {n : Nat} {fragmentCount : UInt8}
    (all : n = p.needed (maxDatagramSize - p.headerOverhead addressLenBytes))
    (count : fragmentCount.toNat = n) :
    Carried p maxDatagramSize packetId addressLenBytes ((List.range n).map
      (p.fragment sessionId packetId fragmentCount
        (maxDatagramSize - p.headerOverhead addressLenBytes))) where
  fit o mem := by
    obtain ⟨i, -, rfl⟩ := List.mem_map.mp mem
    rw [length_bytes]
    show p.headerOverhead addressLenBytes + (p.piece _ i).length ≤ _
    rw [Packet.piece, List.length_take]
    omega
  packet o mem := by
    obtain ⟨i, -, rfl⟩ := List.mem_map.mp mem
    rfl
  count o mem := by
    obtain ⟨i, -, rfl⟩ := List.mem_map.mp mem
    rw [List.length_map, List.length_range]
    exact count
  ids := by
    rw [List.map_map, List.length_map, List.length_range]
    conv => rhs; rw [← List.map_id (List.range n)]
    apply List.map_congr_left
    intro i mem
    have inside := List.mem_range.mp mem
    have small := fragmentCount.toNat_lt
    show (UInt8.ofNat i).toNat = i
    rw [UInt8.toNat_ofNat', Nat.mod_eq_of_lt (by omega)]
  some := by
    have many := one_lt_needed p
      (show 0 < maxDatagramSize - p.headerOverhead addressLenBytes by omega) (by omega)
    rw [List.length_map, List.length_range]
    omega
  payload := by
    rw [List.map_map, all]
    exact flatten_pieces p (by omega)

theorem sendPacket_eq (encoded : encodeVarint (utf8Len p.address) = .ok addressLenBytes)
    (room : p.headerOverhead addressLenBytes < maxDatagramSize) :
    sendPacket maxDatagramSize sessionId packetId p =
      .sends (p.datagrams maxDatagramSize (p.headerOverhead addressLenBytes) sessionId
        packetId) := by
  rw [sendPacket, encoded]
  show (if _ then _ else _) = _
  rw [if_neg (by omega)]

/-- What at most 255 fragments have among them is no more than they can carry. -/
theorem length_le_of_carried {fragmentCount : UInt8} (carried : Carried p maxDatagramSize packetId
      addressLenBytes ((List.range fragmentCount.toNat).map
        (p.fragment sessionId packetId fragmentCount availablePayload))) :
    p.payload.length ≤ 255 * availablePayload := by
  have whole := carried.payload
  rw [List.map_map] at whole
  have taken := take_flatten_pieces p availablePayload fragmentCount.toNat
  have length := congrArg List.length (taken.symm.trans whole)
  rw [List.length_take] at length
  have count := fragmentCount.toNat_lt
  have most : fragmentCount.toNat * availablePayload ≤ 255 * availablePayload :=
    Nat.mul_le_mul_right _ (by omega)
  omega

/-- A packet is carried whole exactly when it fills at most 255 datagrams. -/
theorem fragmentation_carries_iff (p : Packet) (maxDatagramSize : Nat) (sessionId : UInt32)
    (packetId : UInt16) (addressLenBytes : Bytes)
    (encoded : encodeVarint (utf8Len p.address) = .ok addressLenBytes)
    (room : p.headerOverhead addressLenBytes < maxDatagramSize) :
    CarriesWhole p maxDatagramSize packetId addressLenBytes
        (sendPacket maxDatagramSize sessionId packetId p) ↔
      p.payload.length ≤ 255 * (maxDatagramSize - p.headerOverhead addressLenBytes) := by
  rw [sendPacket_eq encoded room]
  unfold Packet.datagrams
  by_cases fits : p.headerOverhead addressLenBytes + p.payload.length ≤ maxDatagramSize
  · rw [if_pos fits]
    constructor
    · intro _
      omega
    · intro _
      exact ⟨_, rfl, carried_whole fits⟩
  · rw [if_neg fits]
    constructor
    · rintro ⟨sent, same, carried⟩
      obtain rfl := Round.sends.inj same
      exact length_le_of_carried carried
    · intro few
      have few := (needed_le_iff (by omega)).mpr few
      refine ⟨_, rfl, carried_fragments room (by omega) ?_ rfl⟩
      rw [UInt8.toNat_ofNat', Nat.mod_eq_of_lt (by omega)]

/-- A packet from 1.2.3.4:53. -/
def fromDns (payload : Bytes) (carried : payload.length < 2 ^ 16) : Packet where
  address := ['1', '.', '2', '.', '3', '.', '4', ':', '5', '3']
  payload := payload
  carried := carried

/-- Three bytes, under a datagram size that leaves room for two. -/
theorem three_bytes_carried :
    CarriesWhole (fromDns [1, 2, 3] (by decide)) 21 7 [10]
      (sendPacket 21 1 7 (fromDns [1, 2, 3] (by decide))) :=
  (fragmentation_carries_iff (fromDns [1, 2, 3] (by decide)) 21 1 7 [10] (by rfl)
    (by decide)).mpr (by decide)

/-- A payload of 256 bytes. -/
def zeros : Packet :=
  fromDns (List.replicate 256 0) (by rw [List.length_replicate]; decide)

/-- One to a datagram, they are not sent at all: 256 fragments count as none. -/
theorem long_payload_lost : encodeVarint (utf8Len zeros.address) = .ok [10] ∧
    zeros.headerOverhead [10] < 20 ∧
    ¬CarriesWhole zeros 20 7 [10] (sendPacket 20 1 7 zeros) := by
  have length : zeros.payload.length = 256 := List.length_replicate
  have overhead : zeros.headerOverhead [10] = 19 := rfl
  refine ⟨rfl, by decide, ?_⟩
  have none_ : sendPacket 20 1 7 zeros = .sends [] := by
    rw [sendPacket_eq (show encodeVarint (utf8Len zeros.address) = .ok [10] from rfl)
      (by rw [overhead]; decide), overhead]
    simp only [Packet.datagrams, Packet.needed, length]
    rfl
  rintro ⟨sent, same, carried⟩
  rw [none_] at same
  obtain rfl := Round.sends.inj same
  exact absurd carried.some (by decide)

end RustProxy.Hysteria2
