import RustProxy.AnyTls.Server
import RustProxy.Relay.Handover

/-!
# The fallback

A client that fails to authenticate is forwarded to the fallback:
`fallback_to_dest` of `server.rs` connects to it, writes what the reader has
buffered, and relays the rest. The fallback sees the connection from its first
byte on, since looking at bytes does not consume them.

The handler has to look at eight bytes first, and at 32 when the eight begin a
known hash. A stream that ends before that ends the connection with an error and
never reaches the fallback.
-/

namespace RustProxy.AnyTls

open StreamReader AnyTlsServerHandler

variable {ω : Type}

/-- `fallback_to_dest` up to the relay. -/
def fallbackToDest (resolve : NetLocation → IoResult SocketAddr)
    (connect : SocketAddr → IoResult Unit) (destStream : Relay.Sink ω) (fallback : NetLocation)
    (reader : StreamReader) : Fallible ω IoError Unit := do
  let destAddr ← Fallible.ofExcept (resolve fallback)
  Fallible.ofExcept (connect destAddr)
  if reader.unparsedData = [] then pure ()
  else do
    Relay.writeAll destStream id reader.unparsedData
    destStream.flush

/-- The connection goes to the fallback, which gets `stream`: what the reader has
buffered, and what the relay then reads. -/
def FallsBackOn (stream : Bytes) (resolve : NetLocation → IoResult SocketAddr)
    (connect : SocketAddr → IoResult Unit) (destStream : Relay.Sink ω)
    (handler : AnyTlsServerHandler) (s : StreamReader × Incoming) (w : ω) : Prop :=
  ∃ fallback reader recv w' written,
    handler.handleConnection s = (.ok (.fallsBack fallback), reader, recv) ∧
    fallbackToDest resolve connect destStream fallback reader w = (.ok (), w') ∧
    destStream.accepted w' = destStream.accepted w ++ written ∧
    Relay.CopyBidirectional.HandsOver stream written recv.bytes false false
      Relay.DEFAULT_BUF_SIZE Relay.DEFAULT_BUF_SIZE

/-- A destination that takes every write and flush. -/
def Accepts (destStream : Relay.Sink ω) : Prop :=
  (∀ offered w, ∃ n w', destStream.write offered w = (.ok n, w')) ∧
    ∀ w, ∃ w', destStream.flush w = (.ok (), w')

/-- The stream is long enough for the looks that the handler takes at it. -/
def LongEnough (digest : Digest) (users : List User) (stream : Bytes) : Prop :=
  8 ≤ stream.length ∧
    ((∃ user ∈ users, (user.passwordHash digest).take 8 = stream.take 8) → 32 ≤ stream.length)

variable {digest : Digest} {users : List User} {padding : Padding} {udpEnabled : Bool}
  {fallback : NetLocation} {resolve : NetLocation → IoResult SocketAddr}
  {connect : SocketAddr → IoResult Unit} {destStream : Relay.Sink ω} {addr : SocketAddr}
  {reader : StreamReader} {recv : Incoming} {stream : Bytes} {s : StreamReader × Incoming} {w : ω}

/-- A destination that is reached and takes everything gets what was buffered. -/
theorem fallbackToDest_writes (reader : StreamReader) (resolved : resolve fallback = .ok addr)
    (connected : connect addr = .ok ()) (accepts : Accepts destStream) (w : ω) :
    ∃ w', fallbackToDest resolve connect destStream fallback reader w = (.ok (), w') ∧
      destStream.accepted w' = destStream.accepted w ++ reader.unparsedData := by
  have reached : fallbackToDest resolve connect destStream fallback reader w =
      (if reader.unparsedData = [] then pure ()
      else do
        Relay.writeAll destStream id reader.unparsedData
        destStream.flush : Fallible ω IoError Unit) w := by
    rw [fallbackToDest, resolved, Fallible.ofExcept_bind, connected, Fallible.ofExcept_bind]
  rw [reached]
  by_cases none_ : reader.unparsedData = []
  · rw [if_pos none_, none_, List.append_nil]
    exact ⟨w, rfl, rfl⟩
  · rw [if_neg none_]
    rcases Relay.writeAll_ends destStream id reader.unparsedData w with
      ⟨m, wrote, accepted⟩ | ⟨e, offered, w₀, m, failed, -⟩
    · obtain ⟨t, flushed⟩ := accepts.2 m
      refine ⟨t, ?_, ?_⟩
      · exact (Fallible.bind_of_ok wrote).trans flushed
      · have kept := destStream.flush_accepted m
        rw [flushed] at kept
        rw [← accepted]
        exact kept
    · obtain ⟨n, w', taken⟩ := accepts.1 offered w₀
      rw [failed] at taken
      cases taken

/-- A stream that is too short ends with an error. -/
theorem handleConnection_eof (padding : Padding) (udpEnabled : Bool) (fallback : NetLocation)
    (short : ¬LongEnough digest users stream) :
    (new digest users padding udpEnabled (some fallback)).handleConnection.Raises
      (Holds DEFAULT_BUFFER_SIZE stream) eofError (Holds DEFAULT_BUFFER_SIZE stream) := by
  refine (authenticate_eof ?_).bind
  by_cases first : stream.length < 8
  · exact .inl first
  · rw [LongEnough, not_and] at short
    have second := short (by omega)
    rw [Classical.not_imp] at second
    exact .inr ⟨mem_hashPrefixes_iff.mpr second.1, by omega⟩

/-- A stranger with a stream that is long enough is turned away. -/
theorem authenticate_stranger (long : LongEnough digest users stream)
    (stranger : ¬∃ user ∈ users, user.passwordHash digest <+: stream) :
    ∃ rejection, (new digest users padding udpEnabled (some fallback)).authenticate.Returns
      (Holds DEFAULT_BUFFER_SIZE stream) (.error rejection) (Holds DEFAULT_BUFFER_SIZE stream) := by
  refine authenticate_rejects long.1 (fun begins => long.2 (mem_hashPrefixes_iff.mp begins)) ?_
  rw [lookup_users, Option.map_eq_none_iff]
  by_contra found
  rw [← Ne, Option.ne_none_iff_isSome, lastUser_isSome_iff] at found
  obtain ⟨user, mem, own⟩ := found
  exact stranger ⟨user, mem, by rw [own]; exact List.take_prefix 32 stream⟩

theorem fallsBackOn_iff (resolved : resolve fallback = .ok addr) (connected : connect addr = .ok ())
    (accepts : Accepts destStream)
    (stranger : ¬∃ user ∈ users, user.passwordHash digest <+: stream)
    (h : Holds DEFAULT_BUFFER_SIZE stream s) :
    FallsBackOn stream resolve connect destStream
        (new digest users padding udpEnabled (some fallback)) s w ↔
      LongEnough digest users stream := by
  constructor
  · rintro ⟨_, reader, recv, w', written, goes, -⟩
    by_contra short
    obtain ⟨t, failed, -⟩ := handleConnection_eof padding udpEnabled fallback short s h
    rw [failed] at goes
    cases goes
  · intro long
    obtain ⟨rejection, rejected⟩ := authenticate_stranger long stranger
    obtain ⟨⟨reader, recv⟩, goes, holds⟩ := handleConnection_rejects rejected h
    obtain ⟨w', writes, accepted⟩ := fallbackToDest_writes reader resolved connected accepts w
    exact ⟨fallback, reader, recv, w', reader.unparsedData, goes, writes, accepted,
      Relay.CopyBidirectional.handsOver holds.ahead false false (by decide) (by decide)⟩

/-- A stream that does not begin with a registered hash reaches the fallback,
all of it and nothing else, exactly when it has the bytes that the handler looks
at; how it is cut into reads makes no difference. -/
theorem fallback_transparent_iff (digest : Digest) (users : List User) (padding : Padding)
    (udpEnabled : Bool) (fallback : NetLocation) (resolve : NetLocation → IoResult SocketAddr)
    (connect : SocketAddr → IoResult Unit) (addr : SocketAddr)
    (resolved : resolve fallback = .ok addr) (connected : connect addr = .ok ())
    (destStream : Relay.Sink ω) (accepts : Accepts destStream) (memory : Nat → UInt8)
    (pieces : List Bytes) (some_ : ∀ piece ∈ pieces, piece ≠ [])
    (stranger : ¬∃ user ∈ users, user.passwordHash digest <+: pieces.flatten) (w : ω) :
    FallsBackOn pieces.flatten resolve connect destStream
        (new digest users padding udpEnabled (some fallback)) (fresh memory pieces) w ↔
      LongEnough digest users pieces.flatten :=
  fallsBackOn_iff resolved connected accepts stranger (holds_new memory DEFAULT_BUFFER_SIZE some_)

theorem accepts_byteSink : Accepts Relay.byteSink :=
  ⟨fun _ _ => ⟨_, _, rfl⟩, fun _ => ⟨_, rfl⟩⟩

/-- A web server on this host. -/
def webServer : NetLocation := ⟨.ipv4 ⟨127, 0, 0, 1⟩, 80⟩

def resolveLocal (location : NetLocation) : IoResult SocketAddr :=
  .ok (.v4 ⟨127, 0, 0, 1⟩ location.port)

theorem resolveLocal_webServer : resolveLocal webServer = .ok (.v4 ⟨127, 0, 0, 1⟩ 80) := rfl

/-- Ten bytes that begin no hash reach the fallback. -/
theorem ten_bytes_fall_back :
    FallsBackOn [71, 69, 84, 32, 47, 32, 72, 84, 84, 80] resolveLocal (fun _ => .ok ())
      Relay.byteSink (new firstByteDigest [⟨['a'], [1]⟩] ⟨[], []⟩ false (some webServer))
      (fresh (fun _ => 0) [[71, 69, 84], [32, 47, 32, 72, 84, 84, 80]]) [] :=
  (fallback_transparent_iff firstByteDigest [⟨['a'], [1]⟩] ⟨[], []⟩ false webServer resolveLocal
    (fun _ => .ok ()) (.v4 ⟨127, 0, 0, 1⟩ 80) resolveLocal_webServer rfl Relay.byteSink
    accepts_byteSink (fun _ => 0) [[71, 69, 84], [32, 47, 32, 72, 84, 84, 80]] (by decide)
    (by decide) []).mpr ⟨by decide, by decide⟩

/-- A client that sends one byte and closes never reaches the fallback. -/
theorem one_byte_cut_off :
    ¬FallsBackOn [71] resolveLocal (fun _ => .ok ()) Relay.byteSink
      (new firstByteDigest [⟨['a'], [1]⟩] ⟨[], []⟩ false (some webServer))
      (fresh (fun _ => 0) [[71]]) [] := by
  have stranger : ¬∃ user ∈ [(⟨['a'], [1]⟩ : User)],
      user.passwordHash firstByteDigest <+: [71] := by decide
  have some_ : ∀ piece ∈ [([71] : Bytes)], piece ≠ [] := by decide
  have start : Holds DEFAULT_BUFFER_SIZE [71] (fresh (fun _ => 0) [[71]]) :=
    holds_new (fun _ => 0) DEFAULT_BUFFER_SIZE some_
  intro reaches
  have long := (fallsBackOn_iff resolveLocal_webServer rfl accepts_byteSink stranger start).mp
    reaches
  exact absurd long.1 (by decide)

end RustProxy.AnyTls
