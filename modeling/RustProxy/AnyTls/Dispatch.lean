import RustProxy.AnyTls.Inbound
import RustProxy.AnyTls.Opening
import RustProxy.Base.Takes

/-!
# Where a new stream goes

`handle_new_stream` takes the destination off a stream that a SYN has opened and
chooses what becomes of it: a TCP connection to the destination, or one of the
two ways of carrying UDP, which clients ask for by two reserved names. It reads
the stream as `poll_read` brings it, chunk by chunk, and whoever it hands the
stream to goes on reading behind the request.

`dispatches` relates this to the bytes of the stream: the stream is handed over
for just the requests of a grammar, however they were cut into frames, with
everything behind the request still ahead. A stream with only a part of a request
keeps its task waiting, and fails if it ends there.
-/

namespace RustProxy.AnyTls

open BigEndian

def UOT_V1_MAGIC_ADDRESS : String := "sp.udp-over-tcp.arpa"
def UOT_V2_MAGIC_ADDRESS : String := "sp.v2.udp-over-tcp.arpa"

/-- The channel from the receive loop: the chunks in it, and whether its sender
is gone. -/
structure Channel where
  chunks : List Bytes
  closed : Bool
  deriving DecidableEq

namespace Channel

/-- `poll_recv`. -/
def recv (channel : Channel) : Poll (Option Bytes) × Channel :=
  match channel.chunks with
  | chunk :: chunks => (.ready (some chunk), { channel with chunks })
  | [] => (if channel.closed then .ready none else .pending, channel)

/-- What the channel has before the stream ends; an empty chunk stands for FIN. -/
def bytes (channel : Channel) : Bytes := (channel.chunks.takeWhile (· ≠ [])).flatten

/-- The stream ends behind these bytes. -/
def ends (channel : Channel) : Bool := channel.closed || channel.chunks.contains []

end Channel

/-- A computation on a stream and its channel. One that is `running` waits for
the channel. -/
abbrev Receiving := ExceptT IoError (Exec (AnyTlsStream × Channel))

namespace Receiving

def earlyEof : IoError := ⟨.unexpectedEof, "early eof"⟩

def unexpectedEnd : IoError := ⟨.unexpectedEof, "unexpected end of file"⟩

def read (room : Nat) : Receiving Bytes := fun (me, channel) =>
  match me.pollRead room Channel.recv channel with
  | (.ready result, me, channel) => (.returned result, me, channel)
  | (.pending, me, channel) => (.running, me, channel)

/-- `read_exact`, for a number of turns. -/
def fill : Nat → Nat → Receiving Bytes
  | 0, _ => pure []
  | turns + 1, room =>
      if room = 0 then pure []
      else do
        let filled ← read room
        if filled = [] then throw earlyEof
        else do
          let more ← fill turns (room - filled.length)
          pure (filled ++ more)

/-- Every turn reads a byte at least, so `n` turns are as good as no bound. -/
def readExact (n : Nat) : Receiving Bytes := fill n n

def readU8 : Receiving UInt8 := do
  match ← read 1 with
  | [] => throw unexpectedEnd
  | byte :: _ => pure byte

/-- `read_location_direct`, as it reads. -/
def readLocation : Receiving NetLocation := do
  let addrType ← readExact 1
  if addrType = [ADDR_TYPE_IPV4] then do
    let buf ← readExact 6
    pure ⟨.ipv4 ⟨buf.getD 0 0, buf.getD 1 0, buf.getD 2 0, buf.getD 3 0⟩, u16FromBe (buf.drop 4)⟩
  else if addrType = [ADDR_TYPE_IPV6] then do
    let buf ← readExact 18
    pure ⟨.ipv6 (MessageStream.ofOctets (buf.take 16)), u16FromBe (buf.drop 16)⟩
  else if addrType = [ADDR_TYPE_DOMAIN_NAME] then do
    let len ← readExact 1
    let domainLen := (len.getD 0 0).toNat
    let buf ← readExact (domainLen + 2)
    match fromUtf8 (buf.take domainLen) with
    | .error e => throw ⟨.invalidData, "Invalid domain encoding: " ++ e.toText⟩
    | .ok domain =>
        match Address.ofText domain with
        | .error e => throw e
        | .ok address => pure ⟨address, u16FromBe (buf.drop domainLen)⟩
  else throw ⟨.invalidInput, "Unknown address type: " ++ toString (addrType.getD 0 0).toNat⟩

end Receiving

/-- Who gets the stream. -/
inductive Handler where
  | tcpForward (destination : NetLocation)
  | uotV2Connect (destination : NetLocation)
  | uotMultiDestination
  deriving DecidableEq

def udpNotEnabled : IoError := ⟨.unsupported, "UDP not enabled for AnyTLS"⟩

open Receiving in
def handleUotV2 (udpEnabled : Bool) : Receiving Handler :=
  if udpEnabled = false then throw udpNotEnabled
  else do
    let isConnect ← readU8
    let destination ← readLocation
    if isConnect = 1 then pure (.uotV2Connect destination) else pure .uotMultiDestination

def handleUotV1 (udpEnabled : Bool) : Receiving Handler :=
  if udpEnabled = false then throw udpNotEnabled
  else pure .uotMultiDestination

open Receiving in
def handleNewStream (udpEnabled : Bool) : Receiving Handler := do
  let destination ← readLocation
  match destination.address with
  | .hostname host =>
      if host = UOT_V2_MAGIC_ADDRESS.toList then handleUotV2 udpEnabled
      else if host = UOT_V1_MAGIC_ADDRESS.toList then handleUotV1 udpEnabled
      else pure (.tcpForward destination)
  | _ => pure (.tcpForward destination)

/-! ## What a stream brings -/

/-- The stream has `bytes` ahead, and `ends` says whether it ends behind them. -/
structure Brings (bytes : Bytes) (ends : Bool) (s : AnyTlsStream × Channel) : Prop where
  opened : s.1.streamClosed = false
  unended : s.1.eof = false
  bytes : s.1.rest ++ s.2.bytes = bytes
  ends : s.2.ends = ends

variable {bytes : Bytes} {ends : Bool} {s : AnyTlsStream × Channel} {room : Nat}

theorem brings_new (id : UInt32) (channel : Channel) :
    Brings channel.bytes channel.ends (AnyTlsStream.new id, channel) where
  opened := rfl
  unended := rfl
  bytes := rfl
  ends := rfl

theorem Channel.bytes_cons {channel : Channel} {chunk : Bytes} {chunks : List Bytes}
    (chunks_ : channel.chunks = chunk :: chunks) (some_ : chunk ≠ []) :
    channel.bytes = chunk ++ { channel with chunks }.bytes := by
  rw [Channel.bytes, chunks_, List.takeWhile_cons_of_pos (by simpa using some_)]
  rfl

theorem Channel.ends_cons {channel : Channel} {chunk : Bytes} {chunks : List Bytes}
    (chunks_ : channel.chunks = chunk :: chunks) (some_ : chunk ≠ []) :
    { channel with chunks }.ends = channel.ends := by
  simp [Channel.ends, chunks_, Ne.symm some_]

section Read

variable {me : AnyTlsStream} {channel : Channel}

/-- A read from the chunk that is kept. -/
theorem read_kept (opened : me.streamClosed = false) (some_ : me.rest ≠ []) :
    Receiving.read room (me, channel) =
      (.returned (.ok (me.rest.take (min me.rest.length room))),
        me.consume (min me.rest.length room), channel) := by
  have length : me.rest.length = me.readBuffer.length - me.readOffset := List.length_drop
  have left : 0 < me.readBuffer.length - me.readOffset := by
    rw [← length]
    exact List.length_pos_iff.mpr some_
  simp only [Receiving.read, AnyTlsStream.pollRead, opened, Bool.false_eq_true, if_false,
    Nat.pos_iff_ne_zero.mp left, and_false, left, if_true, length]

theorem remaining_eq_zero (used : me.rest = []) : me.readBuffer.length - me.readOffset = 0 := by
  rw [← List.length_drop]
  exact List.length_eq_zero_iff.mpr used

/-- A read of the next chunk. -/
theorem read_chunk {chunk : Bytes} {chunks : List Bytes} (opened : me.streamClosed = false)
    (unended : me.eof = false) (used : me.rest = []) (chunks_ : channel.chunks = chunk :: chunks)
    (some_ : chunk ≠ []) :
    Receiving.read room (me, channel) =
      (.returned (.ok (chunk.take (min chunk.length room))), me.keep chunk (min chunk.length room),
        { channel with chunks }) := by
  simp [Receiving.read, AnyTlsStream.pollRead, opened, unended, remaining_eq_zero used,
    Channel.recv, chunks_, some_]

/-- Where the channel has nothing more, a read ends the stream or waits. -/
theorem read_at_end (opened : me.streamClosed = false) (unended : me.eof = false)
    (used : me.rest = []) (nothing : channel.bytes = []) :
    ∃ t, Receiving.read room (me, channel) =
      (if channel.ends then .returned (.ok []) else .running, t) := by
  cases chunks : channel.chunks with
  | nil =>
      cases closed : channel.closed <;>
        simp [Receiving.read, AnyTlsStream.pollRead, opened, unended, remaining_eq_zero used,
          Channel.recv, Channel.ends, chunks, closed]
  | cons chunk more =>
      have fin : chunk = [] := by
        by_contra some_
        rw [Channel.bytes_cons chunks some_] at nothing
        exact some_ (List.append_eq_nil_iff.mp nothing).1
      subst fin
      simp [Receiving.read, AnyTlsStream.pollRead, opened, unended, remaining_eq_zero used,
        Channel.recv, Channel.ends, chunks]

end Read

theorem take_min_ne_nil {data : Bytes} (some_ : data ≠ []) (space : 0 < room) :
    data.take (min data.length room) ≠ [] := by
  have length := List.length_pos_iff.mpr some_
  rw [← List.length_pos_iff, List.length_take]
  omega

theorem length_take_min_le (data : Bytes) : (data.take (min data.length room)).length ≤ room := by
  rw [List.length_take]
  omega

/-- A read takes bytes off the front, if there are any. -/
theorem Brings.read (h : Brings bytes ends s) (space : 0 < room) (some_ : bytes ≠ []) :
    ∃ filled rest t, Receiving.read room s = (.returned (.ok filled), t) ∧ filled ≠ [] ∧
      filled.length ≤ room ∧ bytes = filled ++ rest ∧ Brings rest ends t := by
  obtain ⟨me, channel⟩ := s
  obtain ⟨opened, unended, rfl, rfl⟩ := h
  dsimp only at opened unended some_ ⊢
  by_cases used : me.rest = []
  · rw [used, List.nil_append] at some_ ⊢
    cases chunks : channel.chunks with
    | nil =>
        rw [Channel.bytes, chunks] at some_
        exact absurd rfl some_
    | cons chunk more =>
        have filled : chunk ≠ [] := by
          rintro rfl
          rw [Channel.bytes, chunks] at some_
          exact absurd rfl some_
        refine ⟨_, chunk.drop (min chunk.length room) ++ { channel with chunks := more }.bytes, _,
          read_chunk opened unended used chunks filled, take_min_ne_nil filled space,
          length_take_min_le chunk, ?_, ?_⟩
        · rw [Channel.bytes_cons chunks filled, ← List.append_assoc, List.take_append_drop]
        · exact
            { opened := by simp [AnyTlsStream.keep, apply_dite, opened]
              unended := by simp [AnyTlsStream.keep, apply_dite, unended]
              bytes := by rw [AnyTlsStream.rest_keep used]
              ends := Channel.ends_cons chunks filled }
  · refine ⟨_, me.rest.drop (min me.rest.length room) ++ channel.bytes, _,
      read_kept opened used, take_min_ne_nil used space, length_take_min_le me.rest, ?_, ?_⟩
    · rw [← List.append_assoc, List.take_append_drop]
    · exact
        { opened := by simp [AnyTlsStream.consume, apply_dite, opened]
          unended := by simp [AnyTlsStream.consume, apply_dite, unended]
          bytes := by rw [AnyTlsStream.rest_consume]
          ends := rfl }

theorem Brings.read_nil (h : Brings [] ends s) (room : Nat) :
    ∃ t, Receiving.read room s = (if ends then .returned (.ok []) else .running, t) := by
  obtain ⟨me, channel⟩ := s
  obtain ⟨opened, unended, bytes, rfl⟩ := h
  obtain ⟨used, nothing⟩ := List.append_eq_nil_iff.mp bytes
  exact read_at_end opened unended used nothing

/-! ## Reading against parsing -/

/-- The computation reads off a stream what the parser takes off its bytes. -/
abbrev ReadsAs {α : Type} (x : Receiving α) (p : Takes UInt8 IoError α) : Prop :=
  Takes.Follows Brings (fun e => e.kind = .unexpectedEof) x p

open Takes (exactly ret fail)

theorem readsAs_fill (turns : Nat) :
    ∀ room, room ≤ turns → ReadsAs (Receiving.fill turns room) (exactly room) := by
  -- the turns go down by one, the room by the bytes of a read
  induction turns with
  | zero =>
      intro room none_
      obtain rfl := Nat.le_zero.mp none_
      exact Takes.follows_ret []
  | succ turns ih =>
      intro room enough
      rw [Receiving.fill]
      by_cases full : room = 0
      · rw [if_pos full, full]
        exact Takes.follows_ret []
      · rw [if_neg full]
        have space : 0 < room := Nat.pos_of_ne_zero full
        refine Takes.follows_of_read (if_neg (by simpa)) ?_ ?_ ?_
        · intro items ends s before some_
          obtain ⟨filled, rest, t, ran, got, fits, rfl, behind⟩ := before.read space some_
          have := List.length_pos_iff.mpr got
          refine ⟨rest, t, _, _, behind, ?_, Takes.exactly_append_of_le fits,
            (ih (room - filled.length) (by omega)).bind fun more => Takes.follows_ret _⟩
          rw [Takes.run_bind_of_ok ran, if_neg got]
        · intro s before
          obtain ⟨t, ran⟩ := before.read_nil room
          exact ⟨t, Takes.run_bind_of_running ran⟩
        · intro s before
          obtain ⟨t, ran⟩ := before.read_nil room
          exact ⟨Receiving.earlyEof, t, Takes.run_bind_of_ok ran, rfl⟩

theorem readsAs_readExact (n : Nat) : ReadsAs (Receiving.readExact n) (exactly n) :=
  readsAs_fill n n (Nat.le_refl n)

theorem readsAs_readU8 :
    ReadsAs Receiving.readU8 ((exactly 1).bind fun front => ret (front.headD 0)) := by
  refine Takes.follows_of_read rfl ?_ ?_ ?_
  · intro items ends s before some_
    obtain ⟨filled, rest, t, ran, got, fits, rfl, behind⟩ := before.read Nat.one_pos some_
    have one : filled.length = 1 := by
      have := List.length_pos_iff.mpr got
      omega
    refine ⟨rest, t, pure (filled.headD 0), ret (filled.headD 0), behind, ?_, ?_,
      Takes.follows_ret _⟩
    · obtain ⟨byte, rfl⟩ := List.length_eq_one_iff.mp one
      exact Takes.run_bind_of_ok ran
    · exact Takes.bind_of_ok (Takes.exactly_append one)
  · intro s before
    obtain ⟨t, ran⟩ := before.read_nil 1
    exact ⟨t, Takes.run_bind_of_running ran⟩
  · intro s before
    obtain ⟨t, ran⟩ := before.read_nil 1
    exact ⟨Receiving.unexpectedEnd, t, Takes.run_bind_of_ok ran, rfl⟩

def ipv4Location : Takes UInt8 IoError NetLocation :=
  (exactly 6).bind fun buf =>
    ret ⟨.ipv4 ⟨buf.getD 0 0, buf.getD 1 0, buf.getD 2 0, buf.getD 3 0⟩, u16FromBe (buf.drop 4)⟩

def ipv6Location : Takes UInt8 IoError NetLocation :=
  (exactly 18).bind fun buf =>
    ret ⟨.ipv6 (MessageStream.ofOctets (buf.take 16)), u16FromBe (buf.drop 16)⟩

/-- The name of a host, of which the length was read, and the port. -/
def namedLocation (domainLen : Nat) : Takes UInt8 IoError NetLocation :=
  (exactly (domainLen + 2)).bind fun buf =>
    match fromUtf8 (buf.take domainLen) with
    | .error e => fail ⟨.invalidData, "Invalid domain encoding: " ++ e.toText⟩
    | .ok domain =>
        match Address.ofText domain with
        | .error e => fail e
        | .ok address => ret ⟨address, u16FromBe (buf.drop domainLen)⟩

/-- `read_location_direct` on the bytes of a stream, put together from parsers. -/
def location : Takes UInt8 IoError NetLocation :=
  (exactly 1).bind fun addrType =>
    if addrType = [ADDR_TYPE_IPV4] then ipv4Location
    else if addrType = [ADDR_TYPE_IPV6] then ipv6Location
    else if addrType = [ADDR_TYPE_DOMAIN_NAME] then
      (exactly 1).bind fun len => namedLocation (len.getD 0 0).toNat
    else fail ⟨.invalidInput, "Unknown address type: " ++ toString (addrType.getD 0 0).toNat⟩

@[simp] theorem readExact_bind {α : Type} (n : Nat) (stream : Bytes)
    (f : Bytes → Takes UInt8 IoError α) :
    ((readExact n stream).bind fun taken => f taken.1 taken.2) = (exactly n).bind f stream := by
  rw [readExact, Takes.bind, exactly]
  split <;> rfl

theorem readLocationDirect_eq : readLocationDirect = location := by
  funext stream
  refine Eq.trans ?_ (readExact_bind 1 stream _)
  simp only [readLocationDirect, Option.bind_eq_bind]
  congr 1
  funext taken
  obtain ⟨addrType, stream⟩ := taken
  dsimp only
  split
  · rw [ipv4Location, ← readExact_bind]
    rfl
  · split
    · rw [ipv6Location, ← readExact_bind]
      rfl
    · split
      · refine Eq.trans ?_ (readExact_bind 1 stream _)
        congr 1
        funext taken
        obtain ⟨len, stream⟩ := taken
        refine Eq.trans ?_ (readExact_bind _ stream _)
        congr 1
        funext taken
        obtain ⟨buf, stream⟩ := taken
        dsimp only
        cases fromUtf8 (buf.take (len.getD 0 0).toNat) with
        | error e => rfl
        | ok domain =>
            dsimp only
            cases Address.ofText domain <;> rfl
      · rfl

theorem readsAs_readLocation : ReadsAs Receiving.readLocation location := by
  refine (readsAs_readExact 1).bind fun addrType => ?_
  split
  · exact (readsAs_readExact 6).bind fun buf => Takes.follows_ret _
  · split
    · exact (readsAs_readExact 18).bind fun buf => Takes.follows_ret _
    · split
      · refine (readsAs_readExact 1).bind fun len => ?_
        refine (readsAs_readExact _).bind fun buf => ?_
        cases fromUtf8 (buf.take (len.getD 0 0).toNat) with
        | error e => exact Takes.follows_fail _
        | ok domain =>
            dsimp only
            cases Address.ofText domain with
            | error e => exact Takes.follows_fail _
            | ok address => exact Takes.follows_ret _
      · exact Takes.follows_fail _

/-- The stream is read as its bytes are. -/
theorem readsAs_readLocationDirect : ReadsAs Receiving.readLocation readLocationDirect := by
  rw [readLocationDirect_eq]
  exact readsAs_readLocation

/-! ## The requests -/

/-- The bytes of a destination. -/
inductive IsLocation : Bytes → NetLocation → Prop
  | ipv4 (ip : Ipv4Addr) (port : UInt16) :
      IsLocation (ADDR_TYPE_IPV4 :: ip.a :: ip.b :: ip.c :: ip.d :: toBe 2 port.toNat)
        ⟨.ipv4 ip, port⟩
  | ipv6 {ipBytes : Bytes} (sixteen : ipBytes.length = 16) (port : UInt16) :
      IsLocation (ADDR_TYPE_IPV6 :: (ipBytes ++ toBe 2 port.toNat))
        ⟨.ipv6 (MessageStream.ofOctets ipBytes), port⟩
  | domain {name : Bytes} {len : UInt8} {domain : Text} {address : Address}
      (announced : len.toNat = name.length) (utf8 : fromUtf8 name = .ok domain)
      (parsed : Address.ofText domain = .ok address) (port : UInt16) :
      IsLocation (ADDR_TYPE_DOMAIN_NAME :: len :: (name ++ toBe 2 port.toNat)) ⟨address, port⟩

/-- Two bytes and the port that they are. -/
theorem eq_toBe_u16FromBe {bytes : Bytes} (two : bytes.length = 2) :
    bytes = toBe 2 (u16FromBe bytes).toNat := by
  obtain ⟨high, low, rfl⟩ := List.length_eq_two.mp two
  exact (MessageStream.toBe_ofNat_ofBe high low).symm

@[simp] theorem u16FromBe_toBe (port : UInt16) : u16FromBe (toBe 2 port.toNat) = port :=
  MessageStream.ofNat_ofBe_toBe port

theorem ipv4Location_append (ip : Ipv4Addr) (port : UInt16) (rest : Bytes) :
    ipv4Location (ip.a :: ip.b :: ip.c :: ip.d :: toBe 2 port.toNat ++ rest) =
      some (.ok ⟨.ipv4 ip, port⟩, rest) := by
  have six : (ip.a :: ip.b :: ip.c :: ip.d :: toBe 2 port.toNat).length = 6 := rfl
  rw [ipv4Location, Takes.bind_exactly_append _ _ rest six]
  show some (Except.ok (NetLocation.mk (.ipv4 ip) (u16FromBe (toBe 2 port.toNat))), rest) = _
  rw [u16FromBe_toBe]

theorem ipv6Location_append {ipBytes : Bytes} (sixteen : ipBytes.length = 16) (port : UInt16)
    (rest : Bytes) :
    ipv6Location (ipBytes ++ toBe 2 port.toNat ++ rest) =
      some (.ok ⟨.ipv6 (MessageStream.ofOctets ipBytes), port⟩, rest) := by
  refine (Takes.bind_exactly_append _ _ rest (by simp [sixteen, length_toBe])).trans ?_
  rw [List.take_left' sixteen, List.drop_left' sixteen, u16FromBe_toBe]
  rfl

theorem namedLocation_append {name : Bytes} {domain : Text} {address : Address}
    (utf8 : fromUtf8 name = .ok domain) (parsed : Address.ofText domain = .ok address)
    (port : UInt16) (rest : Bytes) :
    namedLocation name.length (name ++ toBe 2 port.toNat ++ rest) =
      some (.ok ⟨address, port⟩, rest) := by
  refine (Takes.bind_exactly_append _ _ rest (by simp [length_toBe])).trans ?_
  rw [List.take_left, List.drop_left, utf8, u16FromBe_toBe]
  dsimp only
  rw [parsed]
  rfl

/-- A name that asks for UDP. -/
def IsMagic (address : Address) : Prop :=
  address = .hostname UOT_V2_MAGIC_ADDRESS.toList ∨ address = .hostname UOT_V1_MAGIC_ADDRESS.toList

/-- The requests that a stream may begin with, and who gets it then. -/
inductive IsRequest (udpEnabled : Bool) : Bytes → Handler → Prop
  | tcp {front : Bytes} {destination : NetLocation} (is : IsLocation front destination)
      (plain : ¬IsMagic destination.address) : IsRequest udpEnabled front (.tcpForward destination)
  | v2Connect {magic front : Bytes} {port : UInt16} {destination : NetLocation}
      (enabled : udpEnabled = true)
      (asks : IsLocation magic ⟨.hostname UOT_V2_MAGIC_ADDRESS.toList, port⟩)
      (is : IsLocation front destination) :
      IsRequest udpEnabled (magic ++ 1 :: front) (.uotV2Connect destination)
  | v2MultiDestination {magic front : Bytes} {port : UInt16} {isConnect : UInt8}
      {destination : NetLocation} (enabled : udpEnabled = true)
      (asks : IsLocation magic ⟨.hostname UOT_V2_MAGIC_ADDRESS.toList, port⟩)
      (other : isConnect ≠ 1) (is : IsLocation front destination) :
      IsRequest udpEnabled (magic ++ isConnect :: front) .uotMultiDestination
  | v1 {magic : Bytes} {port : UInt16} (enabled : udpEnabled = true)
      (asks : IsLocation magic ⟨.hostname UOT_V1_MAGIC_ADDRESS.toList, port⟩) :
      IsRequest udpEnabled magic .uotMultiDestination

theorem location_append {front : Bytes} {destination : NetLocation}
    (is : IsLocation front destination) (rest : Bytes) :
    location (front ++ rest) = some (.ok destination, rest) := by
  have first (q : Bytes → Takes UInt8 IoError NetLocation) (byte : UInt8) (items : Bytes) :
      (exactly 1).bind q (byte :: items) = q [byte] items :=
    Takes.bind_exactly_append q [byte] items rfl
  cases is with
  | ipv4 ip port => exact (first _ _ _).trans (ipv4Location_append ip port rest)
  | ipv6 sixteen port => exact (first _ _ _).trans (ipv6Location_append sixteen port rest)
  | @domain name len domain address announced utf8 parsed port =>
      have named := namedLocation_append utf8 parsed port rest
      rw [← announced] at named
      refine (first _ _ _).trans (Eq.trans ?_ named)
      exact first (fun len => namedLocation (len.getD 0 0).toNat) len _

theorem isIpv4_of_ipv4Location {items rest : Bytes} {destination : NetLocation}
    (took : ipv4Location items = some (.ok destination, rest)) :
    ∃ (ip : Ipv4Addr) (port : UInt16), destination = ⟨.ipv4 ip, port⟩ ∧
      items = ip.a :: ip.b :: ip.c :: ip.d :: toBe 2 port.toNat ++ rest := by
  obtain ⟨buf, middle, six, rfl, last⟩ := Takes.bind_exactly_eq_ok took
  obtain ⟨a, b, c, d, port, rfl⟩ : ∃ a b c d port, buf = a :: b :: c :: d :: port := by
    rcases buf with _ | ⟨a, _ | ⟨b, _ | ⟨c, _ | ⟨d, port⟩⟩⟩⟩ <;> simp at six
    exact ⟨a, b, c, d, port, rfl⟩
  have two : port.length = 2 := by simpa using six
  cases last
  refine ⟨⟨a, b, c, d⟩, u16FromBe port, rfl, ?_⟩
  rw [← eq_toBe_u16FromBe two]

/-- Bytes of which the last two are a port. -/
theorem eq_append_port {buf : Bytes} {n : Nat} (length : buf.length = n + 2) :
    buf = buf.take n ++ toBe 2 (u16FromBe (buf.drop n)).toNat := by
  have two : (buf.drop n).length = 2 := by
    rw [List.length_drop]
    omega
  rw [← eq_toBe_u16FromBe two, List.take_append_drop]

theorem isNamed_of_namedLocation {domainLen : Nat} {items rest : Bytes} {destination : NetLocation}
    (took : namedLocation domainLen items = some (.ok destination, rest)) :
    ∃ (name : Bytes) (domain : Text) (address : Address) (port : UInt16),
      name.length = domainLen ∧ fromUtf8 name = .ok domain ∧ Address.ofText domain = .ok address ∧
        destination = ⟨address, port⟩ ∧ items = name ++ toBe 2 port.toNat ++ rest := by
  obtain ⟨buf, middle, length, rfl, last⟩ := Takes.bind_exactly_eq_ok took
  have name : (buf.take domainLen).length = domainLen :=
    List.length_take_of_le (length ▸ Nat.le_add_right _ _)
  cases utf8 : fromUtf8 (buf.take domainLen) with
  | error e =>
      rw [utf8] at last
      cases last
  | ok domain =>
      rw [utf8] at last
      dsimp only at last
      cases parsed : Address.ofText domain with
      | error e =>
          rw [parsed] at last
          cases last
      | ok address =>
          rw [parsed] at last
          cases last
          refine ⟨_, domain, address, _, name, utf8, parsed, rfl, ?_⟩
          rw [← eq_append_port length]

theorem isLocation_of_location {items rest : Bytes} {destination : NetLocation}
    (took : location items = some (.ok destination, rest)) :
    ∃ front, IsLocation front destination ∧ items = front ++ rest := by
  obtain ⟨addrType, middle, -, rfl, behind⟩ := Takes.bind_exactly_eq_ok took
  split_ifs at behind with v4 v6 domain
  · obtain ⟨ip, port, rfl, rfl⟩ := isIpv4_of_ipv4Location behind
    exact ⟨_, .ipv4 ip port, by rw [v4]; rfl⟩
  · obtain ⟨buf, middle, length, rfl, last⟩ := Takes.bind_exactly_eq_ok behind
    cases last
    have sixteen : (buf.take 16).length = 16 := List.length_take_of_le (by omega)
    refine ⟨_, .ipv6 sixteen _, ?_⟩
    rw [← eq_append_port length, v6]
    rfl
  · obtain ⟨len, middle, one, rfl, named⟩ := Takes.bind_exactly_eq_ok behind
    obtain ⟨byte, rfl⟩ := List.length_eq_one_iff.mp one
    obtain ⟨name, text, address, port, announced, utf8, parsed, rfl, rfl⟩ :=
      isNamed_of_namedLocation named
    exact ⟨_, .domain announced.symm utf8 parsed port, by rw [domain]; simp⟩
  · cases behind

theorem covers_location : Takes.Covers location IsLocation := by
  intro items destination rest
  constructor
  · exact isLocation_of_location
  · rintro ⟨front, is, rfl⟩
    exact location_append is rest

theorem extends_location : location.Extends := by
  refine (Takes.extends_exactly 1).bind fun addrType => ?_
  split
  · exact (Takes.extends_exactly 6).bind fun buf => Takes.extends_ret _
  · split
    · exact (Takes.extends_exactly 18).bind fun buf => Takes.extends_ret _
    · split
      · refine (Takes.extends_exactly 1).bind fun len => ?_
        refine (Takes.extends_exactly _).bind fun buf => ?_
        split
        · exact Takes.extends_fail _
        · split
          · exact Takes.extends_fail _
          · exact Takes.extends_ret _
      · exact Takes.extends_fail _

theorem covers_readLocationDirect : Takes.Covers readLocationDirect IsLocation := by
  rw [readLocationDirect_eq]
  exact covers_location

theorem extends_readLocationDirect : Takes.Extends readLocationDirect := by
  rw [readLocationDirect_eq]
  exact extends_location

theorem readLocationDirect_append {front : Bytes} {destination : NetLocation}
    (is : IsLocation front destination) (rest : Bytes) :
    readLocationDirect (front ++ rest) = some (.ok destination, rest) :=
  (covers_readLocationDirect _ _ _).mpr ⟨front, is, rfl⟩

/-- `handle_uot_v2` on the bytes behind the name. -/
def uotV2 (udpEnabled : Bool) : Takes UInt8 IoError Handler :=
  if udpEnabled = false then fail udpNotEnabled
  else
    ((exactly 1).bind fun front => ret (front.headD 0)).bind fun isConnect =>
      Takes.bind readLocationDirect fun destination =>
        if isConnect = 1 then ret (.uotV2Connect destination) else ret .uotMultiDestination

def uotV1 (udpEnabled : Bool) : Takes UInt8 IoError Handler :=
  if udpEnabled = false then fail udpNotEnabled
  else ret .uotMultiDestination

/-- `handle_new_stream` on the bytes of a stream. -/
def newStream (udpEnabled : Bool) : Takes UInt8 IoError Handler :=
  Takes.bind readLocationDirect fun destination =>
    match destination.address with
    | .hostname host =>
        if host = UOT_V2_MAGIC_ADDRESS.toList then uotV2 udpEnabled
        else if host = UOT_V1_MAGIC_ADDRESS.toList then uotV1 udpEnabled
        else ret (.tcpForward destination)
    | _ => ret (.tcpForward destination)

theorem readsAs_handleUotV2 (udpEnabled : Bool) :
    ReadsAs (handleUotV2 udpEnabled) (uotV2 udpEnabled) := by
  unfold handleUotV2 uotV2
  split
  · exact Takes.follows_fail _
  · refine readsAs_readU8.bind fun isConnect =>
      readsAs_readLocationDirect.bind fun destination => ?_
    split
    · exact Takes.follows_ret _
    · exact Takes.follows_ret _

theorem readsAs_handleUotV1 (udpEnabled : Bool) :
    ReadsAs (handleUotV1 udpEnabled) (uotV1 udpEnabled) := by
  unfold handleUotV1 uotV1
  split
  · exact Takes.follows_fail _
  · exact Takes.follows_ret _

theorem readsAs_handleNewStream (udpEnabled : Bool) :
    ReadsAs (handleNewStream udpEnabled) (newStream udpEnabled) := by
  refine readsAs_readLocationDirect.bind fun destination => ?_
  obtain ⟨address, port⟩ := destination
  cases address with
  | ipv4 | ipv6 => exact Takes.follows_ret _
  | hostname host =>
      dsimp only
      split
      · exact readsAs_handleUotV2 udpEnabled
      · split
        · exact readsAs_handleUotV1 udpEnabled
        · exact Takes.follows_ret _

theorem extends_newStream (udpEnabled : Bool) : (newStream udpEnabled).Extends := by
  refine extends_readLocationDirect.bind fun destination => ?_
  obtain ⟨address, port⟩ := destination
  cases address with
  | ipv4 | ipv6 => exact Takes.extends_ret _
  | hostname host =>
      dsimp only
      split
      · unfold uotV2
        split
        · exact Takes.extends_fail _
        · refine ((Takes.extends_exactly 1).bind fun _ => Takes.extends_ret _).bind fun _ => ?_
          refine extends_readLocationDirect.bind fun destination => ?_
          split
          · exact Takes.extends_ret _
          · exact Takes.extends_ret _
      · split
        · unfold uotV1
          split
          · exact Takes.extends_fail _
          · exact Takes.extends_ret _
        · exact Takes.extends_ret _

theorem magic_ne : UOT_V1_MAGIC_ADDRESS.toList ≠ UOT_V2_MAGIC_ADDRESS.toList := by
  simp [UOT_V1_MAGIC_ADDRESS, UOT_V2_MAGIC_ADDRESS]

/-- What `handle_uot_v2` takes behind the name. -/
theorem covers_uotV2 (udpEnabled : Bool) : (uotV2 udpEnabled).Covers fun front handler =>
    udpEnabled = true ∧ ∃ isConnect target destination, front = isConnect :: target ∧
      IsLocation target destination ∧
      handler = if isConnect = 1 then .uotV2Connect destination else .uotMultiDestination := by
  cases udpEnabled with
  | false =>
      intro items handler rest
      constructor
      · intro took
        cases took
      · rintro ⟨front, ⟨enabled, -⟩, -⟩
        cases enabled
  | true =>
      have flag := (Takes.covers_exactly (ε := IoError) (β := UInt8) 1).bind fun front =>
        Takes.covers_ret (front.headD 0)
      have target (isConnect : UInt8) := covers_readLocationDirect.bind fun destination =>
        Takes.covers_ret (β := UInt8) (ε := IoError)
          (if isConnect = 1 then Handler.uotV2Connect destination else .uotMultiDestination)
      have same : uotV2 true =
          ((exactly 1).bind fun front => ret (front.headD 0)).bind fun isConnect =>
            Takes.bind readLocationDirect fun destination =>
              ret (if isConnect = 1 then .uotV2Connect destination else .uotMultiDestination) := by
        rw [uotV2, if_neg (by decide)]
        congr 1
        funext isConnect
        congr 1
        funext destination
        split <;> rfl
      rw [same]
      refine (flag.bind target).congr ?_
      intro front handler
      constructor
      · rintro ⟨_, _, isConnect, rfl, ⟨_, _, byte, rfl, ⟨rfl, one⟩, rfl, rfl⟩,
          front, _, destination, rfl, is, rfl, rfl⟩
        obtain ⟨byte, rfl⟩ := List.length_eq_one_iff.mp one
        exact ⟨rfl, byte, front, destination, by simp, is, rfl⟩
      · rintro ⟨-, isConnect, front, destination, rfl, is, rfl⟩
        exact ⟨[isConnect], front, isConnect, rfl,
          ⟨[isConnect], [], [isConnect], rfl, ⟨rfl, rfl⟩, rfl, rfl⟩,
          front, [], destination, (List.append_nil _).symm, is, rfl, rfl⟩

theorem newStream_of_plain {udpEnabled : Bool} {front rest : Bytes} {destination : NetLocation}
    (is : IsLocation front destination) (plain : ¬IsMagic destination.address) :
    newStream udpEnabled (front ++ rest) = some (.ok (.tcpForward destination), rest) := by
  refine (Takes.bind_of_ok (readLocationDirect_append is rest)).trans ?_
  obtain ⟨address, port⟩ := destination
  cases address with
  | ipv4 | ipv6 => rfl
  | hostname host =>
      simp only [IsMagic, Address.hostname.injEq, not_or] at plain
      dsimp only
      rw [if_neg plain.1, if_neg plain.2]
      rfl

theorem newStream_of_v2 {udpEnabled : Bool} {magic rest : Bytes} {port : UInt16}
    (asks : IsLocation magic ⟨.hostname UOT_V2_MAGIC_ADDRESS.toList, port⟩) :
    newStream udpEnabled (magic ++ rest) = uotV2 udpEnabled rest := by
  refine (Takes.bind_of_ok (readLocationDirect_append asks rest)).trans ?_
  dsimp only
  rw [if_pos rfl]

theorem newStream_of_v1 {udpEnabled : Bool} {magic rest : Bytes} {port : UInt16}
    (asks : IsLocation magic ⟨.hostname UOT_V1_MAGIC_ADDRESS.toList, port⟩) :
    newStream udpEnabled (magic ++ rest) = uotV1 udpEnabled rest := by
  refine (Takes.bind_of_ok (readLocationDirect_append asks rest)).trans ?_
  dsimp only
  rw [if_neg magic_ne, if_pos rfl]

theorem newStream_append {udpEnabled : Bool} {request : Bytes} {handler : Handler}
    (is : IsRequest udpEnabled request handler) (rest : Bytes) :
    newStream udpEnabled (request ++ rest) = some (.ok handler, rest) := by
  cases is with
  | tcp is plain => exact newStream_of_plain is plain
  | @v2Connect magic front port destination enabled asks is =>
      rw [List.append_assoc, newStream_of_v2 asks]
      exact (covers_uotV2 udpEnabled _ _ _).mpr
        ⟨1 :: front, ⟨enabled, 1, front, destination, rfl, is, rfl⟩, rfl⟩
  | @v2MultiDestination magic front port isConnect destination enabled asks other is =>
      rw [List.append_assoc, newStream_of_v2 asks]
      exact (covers_uotV2 udpEnabled _ _ _).mpr
        ⟨isConnect :: front, ⟨enabled, isConnect, front, destination, rfl, is, (if_neg other).symm⟩,
          rfl⟩
  | v1 enabled asks =>
      rw [newStream_of_v1 asks, enabled]
      rfl

theorem isRequest_of_newStream {udpEnabled : Bool} {items rest : Bytes} {handler : Handler}
    (took : newStream udpEnabled items = some (.ok handler, rest)) :
    ∃ request, IsRequest udpEnabled request handler ∧ items = request ++ rest := by
  obtain ⟨destination, middle, first, behind⟩ := Takes.bind_eq_ok took
  obtain ⟨front, is, rfl⟩ := (covers_readLocationDirect _ _ _).mp first
  obtain ⟨address, port⟩ := destination
  cases address with
  | ipv4 ip =>
      cases behind
      exact ⟨front, .tcp is (by simp [IsMagic]), rfl⟩
  | ipv6 ip =>
      cases behind
      exact ⟨front, .tcp is (by simp [IsMagic]), rfl⟩
  | hostname host =>
      dsimp only at behind
      split at behind
      case isTrue v2 =>
        subst v2
        obtain ⟨-, ⟨enabled, isConnect, target, destination, rfl, is', rfl⟩, rfl⟩ :=
          (covers_uotV2 udpEnabled _ _ _).mp behind
        refine ⟨front ++ isConnect :: target, ?_, by simp⟩
        split
        case isTrue one =>
          subst one
          exact .v2Connect enabled is is'
        case isFalse other => exact .v2MultiDestination enabled is other is'
      case isFalse notV2 =>
        split at behind
        case isTrue v1 =>
          subst v1
          unfold uotV1 at behind
          split at behind
          · cases behind
          · cases behind
            rename_i enabled
            exact ⟨front, .v1 (eq_true_of_ne_false enabled) is, rfl⟩
        case isFalse notV1 =>
          cases behind
          exact ⟨front, .tcp is (by simp [IsMagic, notV2, notV1]), rfl⟩

theorem covers_newStream (udpEnabled : Bool) :
    (newStream udpEnabled).Covers (IsRequest udpEnabled) := by
  intro items handler rest
  constructor
  · exact isRequest_of_newStream
  · rintro ⟨request, is, rfl⟩
    exact newStream_append is rest

/-! ## The stream and its request -/

/-- What `handle_new_stream` makes of a new stream, by the bytes of its channel. -/
structure Dispatches (udpEnabled : Bool) (channel : Channel)
    (outcome : Outcome (IoResult Handler) × AnyTlsStream × Channel) : Prop where
  handsOver : ∀ handler rest,
    (outcome.1 = .returned (.ok handler) ∧ Brings rest channel.ends outcome.2) ↔
      ∃ request, IsRequest udpEnabled request handler ∧ channel.bytes = request ++ rest
  requested : ∀ handler, outcome.1 = .returned (.ok handler) → ∃ request rest,
    IsRequest udpEnabled request handler ∧ channel.bytes = request ++ rest ∧
      Brings rest channel.ends outcome.2
  waits : channel.ends = false → ∀ request handler, IsRequest udpEnabled request handler →
    channel.bytes <+: request → channel.bytes ≠ request → outcome.1 = .running
  fails : channel.ends = true → ∀ request handler, IsRequest udpEnabled request handler →
    channel.bytes <+: request → channel.bytes ≠ request →
      ∃ e, outcome.1 = .returned (.error e) ∧ e.kind = .unexpectedEof
  refuses : udpEnabled = false → ∀ magic destination rest, IsLocation magic destination →
    IsMagic destination.address → channel.bytes = magic ++ rest →
      outcome.1 = .returned (.error udpNotEnabled) ∧ Brings rest channel.ends outcome.2

/-- Part of a request is too short for the parser. -/
theorem newStream_of_part {udpEnabled : Bool} {items request : Bytes} {handler : Handler}
    (is : IsRequest udpEnabled request handler) (part : items <+: request)
    (proper : items ≠ request) : newStream udpEnabled items = none := by
  obtain ⟨more, rfl⟩ := part
  have whole := newStream_append is []
  rw [List.append_nil] at whole
  refine (extends_newStream udpEnabled).none_of_fewer whole ?_
  rintro rfl
  exact proper (List.append_nil items).symm

/-- Every stream that a SYN opens is handed over for just the requests of the
grammar, whatever frames they were cut into, and with all that follows them still
ahead of it. It waits for the rest of a request, fails if the stream ends in the
middle of one, and with UDP disabled refuses the two names that ask for it. -/
theorem stream_dispatched (udpEnabled : Bool) (id : UInt32) (channel : Channel) :
    Dispatches udpEnabled channel (handleNewStream udpEnabled (AnyTlsStream.new id, channel)) := by
  have reads := readsAs_handleNewStream udpEnabled
  have before := brings_new id channel
  have requested : ∀ handler,
      (handleNewStream udpEnabled (AnyTlsStream.new id, channel)).1 = .returned (.ok handler) →
      ∃ rest, newStream udpEnabled channel.bytes = some (.ok handler, rest) ∧
        Brings rest channel.ends (handleNewStream udpEnabled (AnyTlsStream.new id, channel)).2 := by
    intro handler ran
    cases took : newStream udpEnabled channel.bytes with
    | none =>
        cases ends : channel.ends with
        | false =>
            rw [ends] at before
            obtain ⟨t, waiting⟩ := reads.waits _ _ before took
            rw [waiting] at ran
            cases ran
        | true =>
            rw [ends] at before
            obtain ⟨e, t, failed, -⟩ := reads.fails _ _ before took
            rw [failed] at ran
            cases ran
    | some given =>
        obtain ⟨result, left⟩ := given
        obtain ⟨t, returned, leaves⟩ := reads.gives _ _ _ _ _ before took
        rw [returned] at ran ⊢
        cases ran
        exact ⟨left, rfl, leaves⟩
  constructor
  · intro handler rest
    rw [← covers_newStream udpEnabled channel.bytes handler rest]
    constructor
    · rintro ⟨ran, behind⟩
      obtain ⟨left, took, leaves⟩ := requested handler ran
      rw [took, ← behind.bytes, ← leaves.bytes]
    · intro took
      obtain ⟨t, returned, leaves⟩ := reads.gives _ _ _ _ _ before took
      rw [returned]
      exact ⟨rfl, leaves⟩
  · intro handler ran
    obtain ⟨rest, took, leaves⟩ := requested handler ran
    obtain ⟨request, is, split⟩ := isRequest_of_newStream took
    exact ⟨request, rest, is, split, leaves⟩
  · intro ends request handler is part proper
    rw [ends] at before
    obtain ⟨t, waiting⟩ := reads.waits _ _ before (newStream_of_part is part proper)
    rw [waiting]
  · intro ends request handler is part proper
    rw [ends] at before
    obtain ⟨e, t, failed, early⟩ := reads.fails _ _ before (newStream_of_part is part proper)
    rw [failed]
    exact ⟨e, rfl, early⟩
  · intro disabled magic destination rest asks is split
    have took : newStream udpEnabled channel.bytes = some (.error udpNotEnabled, rest) := by
      obtain ⟨address, port⟩ := destination
      subst disabled
      rw [split]
      rcases is with rfl | rfl
      · exact newStream_of_v2 asks
      · exact newStream_of_v1 asks
    obtain ⟨t, returned, leaves⟩ := reads.gives _ _ _ _ _ before took
    rw [returned]
    exact ⟨rfl, leaves⟩

end RustProxy.AnyTls
