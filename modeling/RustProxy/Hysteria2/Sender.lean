import RustProxy.Base.BigEndian
import RustProxy.Hysteria2.Udp
import RustProxy.Location

/-!
# Datagrams to the other end

`run_udp_remote_to_local_loop` of `hysteria2.rs`: every packet it receives gets
the next 16-bit packet id, which wraps, and an address label, and goes out in
one datagram or in as many fragments as the connection's datagram size makes
necessary. The number of fragments is cut to eight bits.

`Outgoing.arrives` is the same datagram at the receiving end, once its header
has been parsed.
-/

namespace RustProxy.Hysteria2

open BigEndian

/-- `encode_varint`. -/
def encodeVarint (value : Nat) : IoResult Bytes :=
  if value ≤ 63 then .ok [UInt8.ofNat value]
  else if value < 2 ^ 14 then .ok ((toBe 2 value).modifyHead (· ||| 0x40))
  else if value < 2 ^ 30 then .ok ((toBe 4 value).modifyHead (· ||| 0x80))
  else if value < 2 ^ 62 then .ok ((toBe 8 value).modifyHead (· ||| 0xc0))
  else .error ⟨.other, "value too large to encode as varint"⟩

/-- The length of a text in bytes. -/
def utf8Len (text : Text) : Nat := (text.map Char.utf8Size).sum

/-- A datagram as `send_datagram` is given it. -/
structure Outgoing where
  sessionId : UInt32
  packetId : UInt16
  fragmentId : UInt8
  fragmentCount : UInt8
  address : Text
  payload : Bytes
  carried : payload.length < 2 ^ 16

/-- A packet to be sent, with the address it is labelled with. It comes out of a
buffer of 65535 bytes. -/
structure Packet where
  address : Text
  payload : Bytes
  carried : payload.length < 2 ^ 16
  deriving DecidableEq

namespace Packet

/-- What a datagram with this label carries beside its payload. -/
def headerOverhead (p : Packet) (addressLenBytes : Bytes) : Nat :=
  4 + 2 + 1 + 1 + addressLenBytes.length + utf8Len p.address

/-- One of the pieces of `availablePayload` bytes that a payload is cut into. -/
def piece (p : Packet) (availablePayload i : Nat) : Bytes :=
  (p.payload.drop (i * availablePayload)).take availablePayload

theorem piece_carried (p : Packet) (availablePayload i : Nat) :
    (p.piece availablePayload i).length < 2 ^ 16 := by
  refine Nat.lt_of_le_of_lt ?_ p.carried
  rw [piece, List.length_take, List.length_drop]
  omega

/-- The fragments that a payload needs. -/
def needed (p : Packet) (availablePayload : Nat) : Nat :=
  (p.payload.length + availablePayload - 1) / availablePayload

def whole (p : Packet) (sessionId : UInt32) (packetId : UInt16) : Outgoing where
  sessionId := sessionId
  packetId := packetId
  fragmentId := 0
  fragmentCount := 1
  address := p.address
  payload := p.payload
  carried := p.carried

def fragment (p : Packet) (sessionId : UInt32) (packetId : UInt16) (fragmentCount : UInt8)
    (availablePayload i : Nat) : Outgoing where
  sessionId := sessionId
  packetId := packetId
  fragmentId := UInt8.ofNat i
  fragmentCount := fragmentCount
  address := p.address
  payload := p.piece availablePayload i
  carried := p.piece_carried availablePayload i

/-- The datagrams of a packet, under the size that leaves room for the header. -/
def datagrams (p : Packet) (maxDatagramSize headerOverhead : Nat) (sessionId : UInt32)
    (packetId : UInt16) : List Outgoing :=
  if headerOverhead + p.payload.length ≤ maxDatagramSize then [p.whole sessionId packetId]
  else
    let availablePayload := maxDatagramSize - headerOverhead
    let fragmentCount := UInt8.ofNat (p.needed availablePayload)
    (List.range fragmentCount.toNat).map
      (p.fragment sessionId packetId fragmentCount availablePayload)

end Packet

/-- How one round of the loop ends. -/
inductive Round where
  /-- the datagrams of the packet -/
  | sends (datagrams : List Outgoing)
  | failed (e : IoError)
  /-- the assertion on the datagram size -/
  | asserts

/-- One round of the loop from the received packet on. -/
def sendPacket (maxDatagramSize : Nat) (sessionId : UInt32) (packetId : UInt16) (p : Packet) :
    Round :=
  match encodeVarint (utf8Len p.address) with
  | .error e => .failed e
  | .ok addressLenBytes =>
      let headerOverhead := p.headerOverhead addressLenBytes
      if maxDatagramSize ≤ headerOverhead then .asserts
      else .sends (p.datagrams maxDatagramSize headerOverhead sessionId packetId)

/-- The datagrams that a sender gives to `send_datagram`, each with the number
of its packet. The packet id counts the packets and wraps. -/
def sentFrom (maxDatagramSize : Nat) (sessionId : UInt32) :
    UInt16 → Nat → List Packet → List (Nat × Outgoing)
  | _, _, [] => []
  | nextPacketId, i, p :: packets =>
      match sendPacket maxDatagramSize sessionId nextPacketId p with
      | .sends datagrams => datagrams.map (i, ·) ++
          sentFrom maxDatagramSize sessionId (nextPacketId + 1) (i + 1) packets
      | .failed _ | .asserts => []

/-- All that a sender sends for its packets, numbered from 0. -/
def sentBy (maxDatagramSize : Nat) (sessionId : UInt32) (packets : List Packet) :
    List (Nat × Outgoing) :=
  sentFrom maxDatagramSize sessionId 0 0 packets

/-- The label of a packet from the session's socket. -/
def addressLabel (overrideLocalWriteAddress : Option NetLocation) (srcAddr : SocketAddr) : Text :=
  match overrideLocalWriteAddress with
  | some address => address.toText
  | none => srcAddr.toText

/-- The datagram at the other end, when its address is one. -/
def Outgoing.arrives (o : Outgoing) : Option Datagram :=
  if utf8Len o.address = 0 ∨ 2048 < utf8Len o.address then none
  else
    match NetLocation.fromStr o.address none with
    | .error _ => none
    | .ok remoteLocation => some
        { sessionId := o.sessionId
          packetId := o.packetId
          fragmentId := o.fragmentId
          fragmentCount := o.fragmentCount
          remoteLocation := remoteLocation
          payload := o.payload
          carried := o.carried }

/-! ## What is sent for a packet -/

/-- The payload that fits beside the header of this packet's datagrams. -/
def Packet.available (p : Packet) (maxDatagramSize : Nat) : Nat :=
  match encodeVarint (utf8Len p.address) with
  | .ok addressLenBytes => maxDatagramSize - p.headerOverhead addressLenBytes
  | .error _ => 0

theorem take_flatten_pieces (p : Packet) (availablePayload n : Nat) :
    ((List.range n).map (p.piece availablePayload)).flatten =
      p.payload.take (n * availablePayload) := by
  induction n with
  | zero => simp
  | succ n ih =>
      rw [List.range_succ, List.map_append, List.flatten_append, ih, Nat.succ_mul, List.take_add]
      simp [Packet.piece]

/-- As many pieces as the payload needs are the whole of it. -/
theorem flatten_pieces (p : Packet) {availablePayload : Nat} (room : 0 < availablePayload) :
    ((List.range (p.needed availablePayload)).map (p.piece availablePayload)).flatten =
      p.payload := by
  rw [take_flatten_pieces]
  apply List.take_of_length_le
  have enough := Nat.div_add_mod (p.payload.length + availablePayload - 1) availablePayload
  have rest := Nat.mod_lt (p.payload.length + availablePayload - 1) room
  rw [Packet.needed, Nat.mul_comm]
  omega

/-- A payload that does not fit needs two pieces at least. -/
theorem one_lt_needed (p : Packet) {availablePayload : Nat} (room : 0 < availablePayload)
    (long : availablePayload < p.payload.length) : 1 < p.needed availablePayload := by
  have : 2 ≤ p.needed availablePayload := by
    rw [Packet.needed, Nat.le_div_iff_mul_le room]
    omega
  omega

/-- What a datagram carries that is sent for a packet whose number of fragments
has eight bits. -/
inductive SentFor (p : Packet) (availablePayload : Nat) (fragmentId fragmentCount : UInt8)
    (payload : Bytes) : Prop
  | whole : fragmentCount = 1 → payload = p.payload →
      SentFor p availablePayload fragmentId fragmentCount payload
  | fragment : 1 < p.needed availablePayload →
      fragmentCount.toNat = p.needed availablePayload →
      fragmentId.toNat < p.needed availablePayload →
      payload = p.piece availablePayload fragmentId.toNat →
      SentFor p availablePayload fragmentId fragmentCount payload

theorem sentFor_of_mem_datagrams {p : Packet} {maxDatagramSize headerOverhead : Nat}
    {sessionId : UInt32} {packetId : UInt16} {o : Outgoing}
    (room : headerOverhead < maxDatagramSize)
    (few : p.needed (maxDatagramSize - headerOverhead) ≤ 255)
    (mem : o ∈ p.datagrams maxDatagramSize headerOverhead sessionId packetId) :
    SentFor p (maxDatagramSize - headerOverhead) o.fragmentId o.fragmentCount o.payload := by
  unfold Packet.datagrams at mem
  split at mem
  · obtain rfl := List.mem_singleton.mp mem
    exact .whole rfl rfl
  · rename_i long
    obtain ⟨i, inside, rfl⟩ := List.mem_map.mp mem
    have count : (UInt8.ofNat (p.needed (maxDatagramSize - headerOverhead))).toNat =
        p.needed (maxDatagramSize - headerOverhead) := by
      rw [UInt8.toNat_ofNat']
      exact Nat.mod_eq_of_lt (by omega)
    rw [List.mem_range, count] at inside
    have many : 1 < p.needed (maxDatagramSize - headerOverhead) :=
      one_lt_needed p (by omega) (by omega)
    have id : (UInt8.ofNat i).toNat = i := by
      rw [UInt8.toNat_ofNat']
      exact Nat.mod_eq_of_lt (by omega)
    refine .fragment many count ?_ ?_
    · show (UInt8.ofNat i).toNat < _
      rwa [id]
    · show p.piece _ i = p.piece _ (UInt8.ofNat i).toNat
      rw [id]

theorem address_of_mem_datagrams {p : Packet} {maxDatagramSize headerOverhead : Nat}
    {sessionId : UInt32} {packetId : UInt16} {o : Outgoing}
    (mem : o ∈ p.datagrams maxDatagramSize headerOverhead sessionId packetId) :
    o.address = p.address := by
  unfold Packet.datagrams at mem
  split at mem
  · obtain rfl := List.mem_singleton.mp mem
    rfl
  · obtain ⟨i, -, rfl⟩ := List.mem_map.mp mem
    rfl

/-- A datagram with a packet's number carries that packet's label, and its
payload or a piece of it. -/
theorem mem_sentFrom {maxDatagramSize : Nat} {sessionId : UInt32} {nextPacketId : UInt16}
    {n i : Nat} {packets : List Packet} {o : Outgoing}
    (mem : (i, o) ∈ sentFrom maxDatagramSize sessionId nextPacketId n packets) :
    ∃ j p, i = n + j ∧ packets[j]? = some p ∧ o.address = p.address ∧
      0 < p.available maxDatagramSize ∧
      (p.needed (p.available maxDatagramSize) ≤ 255 →
        SentFor p (p.available maxDatagramSize) o.fragmentId o.fragmentCount o.payload) := by
  induction packets generalizing nextPacketId n with
  | nil => cases mem
  | cons p packets ih =>
      unfold sentFrom sendPacket at mem
      cases encoded : encodeVarint (utf8Len p.address) with
      | error e => simp [encoded] at mem
      | ok addressLenBytes =>
          by_cases small : maxDatagramSize ≤ p.headerOverhead addressLenBytes
          · simp [encoded, small] at mem
          simp only [encoded, small, if_false, List.mem_append] at mem
          rcases mem with now | later
          · obtain ⟨_, own, same⟩ := List.mem_map.mp now
            obtain ⟨rfl, rfl⟩ := Prod.mk.inj same
            have room : p.available maxDatagramSize =
                maxDatagramSize - p.headerOverhead addressLenBytes := by
              simp [Packet.available, encoded]
            refine ⟨0, p, rfl, rfl, address_of_mem_datagrams own, ?_⟩
            rw [room]
            exact ⟨by omega, fun few => sentFor_of_mem_datagrams (by omega) few own⟩
          · obtain ⟨j, q, rfl, found, sent⟩ := ih later
            exact ⟨j + 1, q, by omega, found, sent⟩

end RustProxy.Hysteria2
