import RustProxy.AnyTls.Types
import RustProxy.Base.Table
import RustProxy.StreamReader

/-!
# The AnyTLS handshake

`AnyTlsServerHandler` of `server.rs`. A client sends the SHA-256 hash of its
password, the length of a padding, the padding, and then frames. The handler
looks at eight bytes first: when they begin no user's hash the client is turned
away, and only otherwise at all 32. A client that is turned away goes to the
fallback, if there is one, with everything it has sent.

Two tables are built for this from the users, the hashes with their users' names
and the first eight bytes of every hash. `digest` stands for SHA-256.
-/

namespace RustProxy.AnyTls

open StreamReader

/-- A configured user: the name and the bytes of the password. -/
structure User where
  name : Text
  password : Bytes
  deriving DecidableEq

abbrev Digest := Bytes → Vector UInt8 32

def User.passwordHash (digest : Digest) (user : User) : Bytes := (digest user.password).toList

structure AnyTlsServerHandler where
  users : Table Bytes Text
  hashPrefixes : List Bytes
  padding : Padding
  udpEnabled : Bool
  fallback : Option NetLocation

/-- What a session is started with. -/
structure SessionStart where
  padding : Padding
  udpEnabled : Bool
  userName : Text
  initialData : Option Bytes

/-- What becomes of a connection. -/
inductive Connection where
  | fallsBack (fallback : NetLocation)
  | startsSession (start : SessionStart)

/-- Why a client is turned away. -/
inductive Rejection where
  | prefixMismatch
  | unknownPassword
  deriving DecidableEq

def Rejection.error : Rejection → IoError
  | .prefixMismatch => ⟨.permissionDenied, "authentication failed (prefix mismatch)"⟩
  | .unknownPassword => ⟨.permissionDenied, "authentication failed"⟩

namespace AnyTlsServerHandler

/-- One turn of the loop in `new`. -/
def addUser (digest : Digest) (tables : Table Bytes Text × List Bytes) (user : User) :
    Table Bytes Text × List Bytes :=
  let passwordHash := user.passwordHash digest
  (tables.1.insert passwordHash user.name, tables.2.insert (passwordHash.take 8))

def new (digest : Digest) (users : List User) (padding : Padding) (udpEnabled : Bool)
    (fallback : Option NetLocation) : AnyTlsServerHandler :=
  let tables := users.foldl (addUser digest) (∅, [])
  { users := tables.1
    hashPrefixes := tables.2
    padding
    udpEnabled
    fallback }

/-- `handle_connection` up to the name of the user. -/
def authenticate (handler : AnyTlsServerHandler) : Reading (Except Rejection Text) := do
  let prefixData ← peekSlice 8
  if prefixData ∈ handler.hashPrefixes then do
    let authData ← peekSlice 32
    match handler.users.lookup authData with
    | some name => do
        Fallible.modify fun s => (s.1.consume 32, s.2)
        pure (.ok name)
    | none => pure (.error .unknownPassword)
  else pure (.error .prefixMismatch)

/-- A client that is turned away. -/
def reject (handler : AnyTlsServerHandler) (rejection : Rejection) : IoResult Connection :=
  match handler.fallback with
  | some fallback => .ok (.fallsBack fallback)
  | none => .error rejection.error

/-- The padding is read and dropped. -/
def skipPadding (paddingLen : Nat) : Reading Unit :=
  if 0 < paddingLen then do
    let _ ← readSlice paddingLen
    pure ()
  else pure ()

/-- `handle_connection` from the name of the user on, up to the session. -/
def handshake (handler : AnyTlsServerHandler) (userName : Text) : Reading Connection := do
  let paddingLen ← readU16Be
  skipPadding paddingLen
  let initialData ← Fallible.gets fun s => s.1.unparsedDataOwned
  pure (.startsSession ⟨handler.padding, handler.udpEnabled, userName, initialData⟩)

/-- `handle_connection`, up to the fallback or the session. -/
def handleConnection (handler : AnyTlsServerHandler) : Reading Connection := do
  match ← handler.authenticate with
  | .error rejection => Fallible.ofExcept (handler.reject rejection)
  | .ok userName => handler.handshake userName

end AnyTlsServerHandler

/-! ## The two tables -/

open AnyTlsServerHandler

/-- The user that a hash belongs to: the last one that was configured with it. -/
def lastUser (digest : Digest) (users : List User) (hash : Bytes) : Option User :=
  users.reverse.find? fun user => user.passwordHash digest = hash

variable {digest : Digest} {users : List User} {padding : Padding} {udpEnabled : Bool}
  {fallback : Option NetLocation} {hash bytes : Bytes}

@[simp] theorem length_passwordHash (user : User) : (user.passwordHash digest).length = 32 := by
  simp [User.passwordHash]

@[simp] theorem lastUser_isSome_iff :
    (lastUser digest users hash).isSome ↔ ∃ user ∈ users, user.passwordHash digest = hash := by
  simp [lastUser]

/-- The table of hashes has for each the name of its last user. -/
theorem lookup_users (hash : Bytes) :
    (new digest users padding udpEnabled fallback).users.lookup hash =
      (lastUser digest users hash).map User.name := by
  show (users.foldl (addUser digest) (∅, [])).1.lookup hash = _
  induction users using List.reverseRecOn with
  | nil => rfl
  | append_singleton users user ih =>
      rw [List.foldl_append, lastUser, List.reverse_append]
      show ((users.foldl (addUser digest) (∅, [])).1.insert (user.passwordHash digest)
        user.name).lookup hash = _
      by_cases own : user.passwordHash digest = hash
      · rw [own, AList.lookup_insert]
        simp [own]
      · rw [AList.lookup_insert_ne (Ne.symm own), ih]
        simp [own, lastUser]

/-- The set of prefixes has those of all hashes, and no others. -/
theorem mem_hashPrefixes_iff :
    bytes ∈ (new digest users padding udpEnabled fallback).hashPrefixes ↔
      ∃ user ∈ users, (user.passwordHash digest).take 8 = bytes := by
  show bytes ∈ (users.foldl (addUser digest) (∅, [])).2 ↔ _
  induction users using List.reverseRecOn with
  | nil => simp
  | append_singleton users user ih =>
      rw [List.foldl_append]
      show bytes ∈ (users.foldl (addUser digest) (∅, [])).2.insert
        ((user.passwordHash digest).take 8) ↔ _
      rw [List.mem_insert_iff, ih]
      constructor
      · rintro (rfl | ⟨other, mem, same⟩)
        · exact ⟨user, by simp, rfl⟩
        · exact ⟨other, by simp [mem], same⟩
      · rintro ⟨other, mem, rfl⟩
        rcases List.mem_append.mp mem with before | last
        · exact .inr ⟨other, before, rfl⟩
        · exact .inl (by rw [List.mem_singleton.mp last])

/-! ## Authentication -/

section Authentication

variable {handler : AnyTlsServerHandler} {ahead more : Bytes} {name : Text}

/-- The first look, at eight bytes. -/
theorem peek_eight (enough : 8 ≤ ahead.length) :
    (peekSlice 8).Returns (Holds DEFAULT_BUFFER_SIZE ahead) (ahead.take 8)
      (Holds DEFAULT_BUFFER_SIZE ahead) :=
  (peekSlice_returns (by decide) enough).consequence (fun _ h => h) fun _ h => h.1

theorem authenticate_mismatch (enough : 8 ≤ ahead.length)
    (unknown : ahead.take 8 ∉ handler.hashPrefixes) :
    handler.authenticate.Returns (Holds DEFAULT_BUFFER_SIZE ahead) (.error .prefixMismatch)
      (Holds DEFAULT_BUFFER_SIZE ahead) := by
  refine (peek_eight enough).bind ?_
  rw [if_neg unknown]
  exact Fallible.returns_pure _ _

theorem authenticate_unknown (enough : 32 ≤ ahead.length)
    (begins : ahead.take 8 ∈ handler.hashPrefixes)
    (unknown : handler.users.lookup (ahead.take 32) = none) :
    handler.authenticate.Returns (Holds DEFAULT_BUFFER_SIZE ahead) (.error .unknownPassword)
      (Holds DEFAULT_BUFFER_SIZE ahead) := by
  refine (peek_eight (by omega)).bind ?_
  rw [if_pos begins]
  refine (peekSlice_returns (by decide) enough).bind ?_
  rw [unknown]
  exact (Fallible.returns_pure _ _).consequence (fun _ h => h) fun _ h => h.1

theorem authenticate_known (enough : 32 ≤ ahead.length)
    (begins : ahead.take 8 ∈ handler.hashPrefixes)
    (known : handler.users.lookup (ahead.take 32) = some name) :
    handler.authenticate.Returns (Holds DEFAULT_BUFFER_SIZE ahead) (.ok name)
      (Holds DEFAULT_BUFFER_SIZE (ahead.drop 32)) := by
  refine (peek_eight (by omega)).bind ?_
  rw [if_pos begins]
  refine (peekSlice_returns (by decide) enough).bind ?_
  rw [known]
  exact consume_returns.bind (Fallible.returns_pure _ _)

/-- A stream that ends too early for a look ends the connection. -/
theorem authenticate_eof (short : ahead.length < 8 ∨
      ahead.take 8 ∈ handler.hashPrefixes ∧ ahead.length < 32) :
    handler.authenticate.Raises (Holds DEFAULT_BUFFER_SIZE ahead) eofError
      (Holds DEFAULT_BUFFER_SIZE ahead) := by
  by_cases first : ahead.length < 8
  · exact (peekSlice_raises (by decide) first).bind
  · obtain ⟨begins, short⟩ := short.resolve_left first
    refine (peek_eight (by omega)).bind_raises ?_
    rw [if_pos begins]
    exact (peekSlice_raises (by decide) short).bind

/-- The looks reject whatever the table of hashes does not have. -/
theorem authenticate_rejects (eight : 8 ≤ ahead.length)
    (enough : ahead.take 8 ∈ handler.hashPrefixes → 32 ≤ ahead.length)
    (absent : handler.users.lookup (ahead.take 32) = none) :
    ∃ rejection, handler.authenticate.Returns (Holds DEFAULT_BUFFER_SIZE ahead)
      (.error rejection) (Holds DEFAULT_BUFFER_SIZE ahead) := by
  by_cases begins : ahead.take 8 ∈ handler.hashPrefixes
  · exact ⟨_, authenticate_unknown (enough begins) begins absent⟩
  · exact ⟨_, authenticate_mismatch eight begins⟩

/-- A client that is turned away has had nothing consumed. -/
theorem handleConnection_rejects {rejection : Rejection}
    (rejected : handler.authenticate.Returns (Holds DEFAULT_BUFFER_SIZE ahead)
      (.error rejection) (Holds DEFAULT_BUFFER_SIZE ahead))
    {s : StreamReader × Incoming} (h : Holds DEFAULT_BUFFER_SIZE ahead s) :
    ∃ t, handler.handleConnection s = (handler.reject rejection, t) ∧
      Holds DEFAULT_BUFFER_SIZE ahead t := by
  obtain ⟨t, ran, holds⟩ := rejected s h
  exact ⟨t, Fallible.bind_of_ok ran, holds⟩

end Authentication

/-- A hash that is known begins with a prefix that is known. -/
theorem mem_hashPrefixes_of_lookup {name : Text}
    (known : (new digest users padding udpEnabled fallback).users.lookup hash = some name) :
    hash.take 8 ∈ (new digest users padding udpEnabled fallback).hashPrefixes := by
  rw [lookup_users] at known
  obtain ⟨user, found, -⟩ := Option.map_eq_some_iff.mp known
  obtain ⟨other, mem, own⟩ := lastUser_isSome_iff.mp (Option.isSome_of_eq_some found)
  exact mem_hashPrefixes_iff.mpr ⟨other, mem, by rw [own]⟩

/-- The looks let in whomever the table of hashes has. -/
theorem authenticate_accepts {ahead : Bytes} {name : Text} (enough : 32 ≤ ahead.length)
    (known : (new digest users padding udpEnabled fallback).users.lookup (ahead.take 32) =
      some name) :
    (new digest users padding udpEnabled fallback).authenticate.Returns
      (Holds DEFAULT_BUFFER_SIZE ahead) (.ok name)
      (Holds DEFAULT_BUFFER_SIZE (ahead.drop 32)) := by
  have begins := mem_hashPrefixes_of_lookup known
  rw [List.take_take, show min 8 32 = 8 by decide] at begins
  exact authenticate_known enough begins known

/-- The reader on a connection before anything has been read. -/
def fresh (memory : Nat → UInt8) (pieces : List Bytes) : StreamReader × Incoming :=
  (StreamReader.new memory, pieces.map .ok)

/-! ## The handover to the session -/

variable {handler : AnyTlsServerHandler} {filler stream : Bytes} {s : StreamReader × Incoming}

/-- The connection becomes a session that finds `stream` in its initial data
and in what the connection still has. -/
def StartsSessionOn (stream : Bytes) (handler : AnyTlsServerHandler)
    (s : StreamReader × Incoming) : Prop :=
  ∃ start t, handler.handleConnection s = (.ok (.startsSession start), t) ∧
    start.initialData.getD [] ++ t.2.bytes = stream

@[simp] theorem getD_unparsedDataOwned (r : StreamReader) :
    r.unparsedDataOwned.getD [] = r.unparsedData := by
  unfold unparsedDataOwned
  split
  · rename_i none_
    rw [none_]
    rfl
  · rfl

theorem readU16Be_length (short : filler.length < 2 ^ 16) :
    readU16Be.Returns (Holds DEFAULT_BUFFER_SIZE (BigEndian.toBe 2 filler.length ++ stream))
      filler.length (Holds DEFAULT_BUFFER_SIZE stream) := by
  have read : readU16Be.Returns
      (Holds DEFAULT_BUFFER_SIZE (BigEndian.toBe 2 filler.length ++ stream))
      (BigEndian.ofBe (BigEndian.toBe 2 filler.length)) (Holds DEFAULT_BUFFER_SIZE stream) :=
    readU16Be_returns (BigEndian.length_toBe 2 filler.length) (by decide)
  rwa [BigEndian.ofBe_toBe_of_lt (show filler.length < 256 ^ 2 by omega)] at read

theorem skipPadding_returns (fits : filler.length ≤ DEFAULT_BUFFER_SIZE) :
    (skipPadding filler.length).Returns (Holds DEFAULT_BUFFER_SIZE (filler ++ stream)) ()
      (Holds DEFAULT_BUFFER_SIZE stream) := by
  unfold skipPadding
  split
  · exact (readSlice_returns rfl fits).bind (Fallible.returns_pure _ _)
  · have none_ : filler = [] := List.eq_nil_of_length_eq_zero (by omega)
    rw [none_, List.nil_append]
    exact Fallible.returns_pure _ _

theorem handshake_starts (userName : Text) (short : filler.length < 2 ^ 16)
    (fits : filler.length ≤ DEFAULT_BUFFER_SIZE)
    (h : Holds DEFAULT_BUFFER_SIZE (BigEndian.toBe 2 filler.length ++ (filler ++ stream)) s) :
    ∃ start t, handler.handshake userName s = (.ok (.startsSession start), t) ∧
      start.initialData.getD [] ++ t.2.bytes = stream := by
  obtain ⟨m, read, between⟩ := readU16Be_length short s h
  obtain ⟨t, skipped, reached⟩ := skipPadding_returns fits m between
  refine ⟨⟨handler.padding, handler.udpEnabled, userName, t.1.unparsedDataOwned⟩, t, ?_, ?_⟩
  · rw [handshake, Fallible.bind_of_ok read, Fallible.bind_of_ok skipped]
    rfl
  · rw [getD_unparsedDataOwned, reached.ahead]

theorem handshake_refuses (userName : Text) (short : filler.length < 2 ^ 16)
    (long : DEFAULT_BUFFER_SIZE < filler.length) :
    (handler.handshake userName).Raises
      (Holds DEFAULT_BUFFER_SIZE (BigEndian.toBe 2 filler.length ++ (filler ++ stream)))
      (tooLongError filler.length DEFAULT_BUFFER_SIZE)
      (Holds DEFAULT_BUFFER_SIZE (filler ++ stream)) := by
  refine (readU16Be_length short).bind_raises ?_
  have refused : (skipPadding filler.length).Raises (Holds DEFAULT_BUFFER_SIZE (filler ++ stream))
      (tooLongError filler.length DEFAULT_BUFFER_SIZE)
      (Holds DEFAULT_BUFFER_SIZE (filler ++ stream)) := by
    rw [skipPadding, if_pos (by omega)]
    exact (readSlice_refuses long).bind
  exact refused.bind

/-! ### What is left ahead of the reader -/

theorem skipPadding_suffix {ahead : Bytes} (paddingLen : Nat)
    (h : Holds DEFAULT_BUFFER_SIZE ahead s) :
    ∃ rest, rest <:+ ahead ∧ Holds DEFAULT_BUFFER_SIZE rest (skipPadding paddingLen s).2 := by
  unfold skipPadding
  split
  case isFalse => exact ⟨ahead, List.suffix_rfl, h⟩
  case isTrue =>
    by_cases long : DEFAULT_BUFFER_SIZE < paddingLen
    · obtain ⟨t, ran, reached⟩ := readSlice_refuses long s h
      rw [Fallible.bind_of_error ran]
      exact ⟨ahead, List.suffix_rfl, reached⟩
    by_cases short : ahead.length < paddingLen
    · obtain ⟨t, ran, reached⟩ := readSlice_raises (by omega) short s h
      rw [Fallible.bind_of_error ran]
      exact ⟨ahead, List.suffix_rfl, reached⟩
    · rw [← List.take_append_drop paddingLen ahead] at h
      have length : (ahead.take paddingLen).length = paddingLen :=
        List.length_take_of_le (by omega)
      obtain ⟨t, ran, reached⟩ := readSlice_returns length (by omega) s h
      rw [Fallible.bind_of_ok ran]
      exact ⟨ahead.drop paddingLen, List.drop_suffix _ _, reached⟩

/-- However the handshake ends, it has only consumed. -/
theorem handshake_suffix (handler : AnyTlsServerHandler) {ahead : Bytes} (userName : Text)
    (h : Holds DEFAULT_BUFFER_SIZE ahead s) :
    ∃ rest, rest <:+ ahead ∧ Holds DEFAULT_BUFFER_SIZE rest (handler.handshake userName s).2 := by
  by_cases short : ahead.length < 2
  · obtain ⟨t, ran, reached⟩ := readU16Be_raises (by decide) short s h
    rw [handshake, Fallible.bind_of_error ran]
    exact ⟨ahead, List.suffix_rfl, reached⟩
  · rw [← List.take_append_drop 2 ahead] at h
    have length : (ahead.take 2).length = 2 := List.length_take_of_le (by omega)
    obtain ⟨m, ran, between⟩ := readU16Be_returns length (by decide) s h
    obtain ⟨rest, suffix, reached⟩ :=
      skipPadding_suffix (BigEndian.ofBe (ahead.take 2)) between
    refine ⟨rest, suffix.trans (List.drop_suffix 2 ahead), ?_⟩
    rw [handshake, Fallible.bind_of_ok ran]
    generalize skipped : skipPadding (BigEndian.ofBe (ahead.take 2)) m = result at reached
    obtain ⟨answer, t⟩ := result
    cases answer with
    | error e => rwa [Fallible.bind_of_error skipped]
    | ok => rwa [Fallible.bind_of_ok skipped]

/-- A session that the handshake starts is the user's. -/
theorem handshake_name {userName : Text} {start : SessionStart} {t : StreamReader × Incoming}
    (started : handler.handshake userName s = (.ok (.startsSession start), t)) :
    start.userName = userName := by
  obtain ⟨paddingLen, m, -, skipped⟩ := Fallible.of_bind_ok started
  obtain ⟨⟨⟩, u, -, owned⟩ := Fallible.of_bind_ok skipped
  cases owned
  rfl

/-! ## The two looks together -/

/-- The connection goes on in the authenticated branch: what is left to do is the
handshake of a user of this name, 32 bytes further on. -/
def AuthenticatedAs (handler : AnyTlsServerHandler) (s : StreamReader × Incoming) (ahead : Bytes)
    (name : Text) : Prop :=
  ∃ t, handler.handleConnection s = handler.handshake name t ∧
    Holds DEFAULT_BUFFER_SIZE (ahead.drop 32) t

/-- The connection is turned away with everything still ahead of the reader. -/
def TurnedAway (handler : AnyTlsServerHandler) (s : StreamReader × Incoming) (ahead : Bytes) :
    Prop :=
  ∃ rejection t, handler.handleConnection s = (handler.reject rejection, t) ∧
    t.1.unparsedData ++ t.2.bytes = ahead

/-- In the authenticated branch something is consumed, and a client that is turned
away keeps all. -/
theorem AuthenticatedAs.not_turnedAway {ahead : Bytes} {name : Text} (enough : 32 ≤ ahead.length)
    (h : AuthenticatedAs handler s ahead name) : ¬TurnedAway handler s ahead := by
  obtain ⟨t, ran, reached⟩ := h
  rintro ⟨rejection, u, rejected, whole⟩
  obtain ⟨rest, suffix, left⟩ := handshake_suffix handler name reached
  rw [← ran, rejected] at left
  have all : rest = ahead := left.ahead.symm.trans whole
  have shorter := suffix.length_le
  rw [all, List.length_drop] at shorter
  omega

theorem reject_ne_startsSession (handler : AnyTlsServerHandler) (rejection : Rejection)
    (start : SessionStart) : handler.reject rejection ≠ .ok (.startsSession start) := by
  unfold reject
  cases handler.fallback with
  | some fallback =>
      intro same
      cases same
  | none =>
      intro same
      cases same

theorem authenticatedAs_of_lookup {ahead : Bytes} {name : Text} (enough : 32 ≤ ahead.length)
    (h : Holds DEFAULT_BUFFER_SIZE ahead s)
    (known : (new digest users padding udpEnabled fallback).users.lookup (ahead.take 32) =
      some name) :
    AuthenticatedAs (new digest users padding udpEnabled fallback) s ahead name := by
  obtain ⟨t, ran, reached⟩ := authenticate_accepts enough known s h
  exact ⟨t, Fallible.bind_of_ok ran, reached⟩

theorem turnedAway_of_lookup {ahead : Bytes} (enough : 32 ≤ ahead.length)
    (h : Holds DEFAULT_BUFFER_SIZE ahead s)
    (unknown : handler.users.lookup (ahead.take 32) = none) : TurnedAway handler s ahead := by
  obtain ⟨rejection, rejected⟩ := authenticate_rejects (by omega) (fun _ => enough) unknown
  obtain ⟨t, ran, holds⟩ := handleConnection_rejects rejected h
  exact ⟨rejection, t, ran, holds.ahead⟩

/-- The two looks together decide as the table of hashes alone. A connection goes
on in the authenticated branch exactly when its first 32 bytes are the hash of a
configured password, and under the name of the last user with that hash, as does
the session it becomes; and a client that is turned away has everything it sent
still ahead of the reader. -/
theorem authentication_agrees (digest : Digest) (users : List User) (padding : Padding)
    (udpEnabled : Bool) (fallback : Option NetLocation) (memory : Nat → UInt8)
    (pieces : List Bytes) (some_ : ∀ piece ∈ pieces, piece ≠ [])
    (enough : 32 ≤ pieces.flatten.length) :
    let handler := new digest users padding udpEnabled fallback
    let client := fresh memory pieces
    ((∃ name, AuthenticatedAs handler client pieces.flatten name) ↔
      ∃ user ∈ users, user.passwordHash digest = pieces.flatten.take 32) ∧
    (∀ user, lastUser digest users (pieces.flatten.take 32) = some user →
      AuthenticatedAs handler client pieces.flatten user.name) ∧
    (∀ start t, handler.handleConnection client = (.ok (.startsSession start), t) →
      (lastUser digest users (pieces.flatten.take 32)).map User.name = some start.userName) ∧
    (∀ name, (∃ t, handler.authenticate client = (.ok (.ok name), t)) ↔
      (lastUser digest users (pieces.flatten.take 32)).map User.name = some name) ∧
    (∀ hash, (handler.users.lookup hash).isSome → hash.take 8 ∈ handler.hashPrefixes) ∧
    ((¬∃ user ∈ users, user.passwordHash digest = pieces.flatten.take 32) →
      TurnedAway handler client pieces.flatten) := by
  intro handler client
  have start : Holds DEFAULT_BUFFER_SIZE pieces.flatten client :=
    holds_new memory DEFAULT_BUFFER_SIZE some_
  have lookup : handler.users.lookup (pieces.flatten.take 32) =
      (lastUser digest users (pieces.flatten.take 32)).map User.name := lookup_users _
  have goesOn (user : User) (found : lastUser digest users (pieces.flatten.take 32) = some user) :
      AuthenticatedAs handler client pieces.flatten user.name :=
    authenticatedAs_of_lookup enough start (by rw [lookup_users, found]; rfl)
  have stranger (absent : ¬∃ user ∈ users, user.passwordHash digest = pieces.flatten.take 32) :
      TurnedAway handler client pieces.flatten := by
    rw [← lastUser_isSome_iff, Option.not_isSome_iff_eq_none] at absent
    exact turnedAway_of_lookup enough start (by rw [lookup, absent]; rfl)
  refine ⟨⟨?_, ?_⟩, goesOn, ?_, ?_, ?_, stranger⟩
  · rintro ⟨name, known⟩
    by_contra absent
    exact known.not_turnedAway enough (stranger absent)
  · intro registered
    obtain ⟨user, found⟩ := Option.isSome_iff_exists.mp (lastUser_isSome_iff.mpr registered)
    exact ⟨user.name, goesOn user found⟩
  · intro session t started
    cases found : lastUser digest users (pieces.flatten.take 32) with
    | some user =>
        obtain ⟨m, ran, -⟩ := goesOn user found
        rw [handshake_name (ran.symm.trans started)]
        rfl
    | none =>
        rw [← Option.not_isSome_iff_eq_none, lastUser_isSome_iff] at found
        obtain ⟨rejection, u, ran, -⟩ := stranger found
        rw [started] at ran
        exact absurd (congrArg (·.1) ran).symm (reject_ne_startsSession handler rejection session)
  · intro name
    rw [← lookup]
    constructor
    · rintro ⟨t, ran⟩
      cases found : handler.users.lookup (pieces.flatten.take 32) with
      | none =>
          obtain ⟨rejection, rejected⟩ := authenticate_rejects (by omega) (fun _ => enough) found
          obtain ⟨u, ran', -⟩ := rejected _ start
          rw [ran] at ran'
          cases ran'
      | some other =>
          obtain ⟨u, ran', -⟩ := authenticate_accepts enough found _ start
          rw [ran] at ran'
          cases ran'
          rfl
    · intro found
      obtain ⟨t, ran, -⟩ := authenticate_accepts enough found _ start
      exact ⟨t, ran⟩
  · intro hash found
    obtain ⟨name, found⟩ := Option.isSome_iff_exists.mp found
    exact mem_hashPrefixes_of_lookup found

/-- A digest that repeats the first byte of the password. -/
def firstByteDigest : Digest := fun password => Vector.replicate 32 (password.headD 0)

/-- Of two users with one password the last one comes in, however the hash is cut,
and has the session on what follows the padding. -/
theorem last_user_comes_in :
    let client := fresh (fun _ => 0) [List.replicate 7 1, List.replicate 25 1 ++ [0], [1, 9, 2]]
    ∃ start t,
      (new firstByteDigest [⟨['a'], [1]⟩, ⟨['b'], [1]⟩] ⟨[], []⟩ false none).handleConnection
        client = (.ok (.startsSession start), t) ∧ start.userName = ['b'] := by
  intro client
  obtain ⟨-, goesOn, -⟩ := authentication_agrees firstByteDigest [⟨['a'], [1]⟩, ⟨['b'], [1]⟩]
    ⟨[], []⟩ false none (fun _ => 0)
    [List.replicate 7 1, List.replicate 25 1 ++ [0], [1, 9, 2]] (by decide) (by decide)
  obtain ⟨t, ran, reached⟩ := goesOn ⟨['b'], [1]⟩ (by decide)
  obtain ⟨start, u, started, -⟩ := @handshake_starts _ [9] [2] _ ['b'] (by decide) (by decide)
    reached
  exact ⟨start, u, ran.trans started, handshake_name started⟩

/-- A registered hash lets its client in, under some name. -/
theorem authenticate_registered (padding : Padding) (udpEnabled : Bool)
    (fallback : Option NetLocation) (stream : Bytes)
    (registered : ∃ user ∈ users, user.passwordHash digest = hash) :
    ∃ name, (new digest users padding udpEnabled fallback).authenticate.Returns
      (Holds DEFAULT_BUFFER_SIZE (hash ++ stream)) (.ok name)
      (Holds DEFAULT_BUFFER_SIZE stream) := by
  have length : hash.length = 32 := by
    obtain ⟨user, -, rfl⟩ := registered
    exact length_passwordHash user
  obtain ⟨user, found⟩ := Option.isSome_iff_exists.mp (lastUser_isSome_iff.mpr registered)
  have known : (new digest users padding udpEnabled fallback).users.lookup
      ((hash ++ stream).take 32) = some user.name := by
    rw [List.take_left' length, lookup_users, found]
    rfl
  have accepted := authenticate_accepts (by rw [List.length_append]; omega) known
  rw [List.drop_left' length] at accepted
  exact ⟨user.name, accepted⟩

theorem startsSessionOn_iff (registered : ∃ user ∈ users, user.passwordHash digest = hash)
    (short : filler.length < 2 ^ 16)
    (h : Holds DEFAULT_BUFFER_SIZE
      (hash ++ (BigEndian.toBe 2 filler.length ++ (filler ++ stream))) s) :
    StartsSessionOn stream (new digest users padding udpEnabled fallback) s ↔
      filler.length ≤ DEFAULT_BUFFER_SIZE := by
  obtain ⟨name, known⟩ := authenticate_registered padding udpEnabled fallback
    (BigEndian.toBe 2 filler.length ++ (filler ++ stream)) registered
  obtain ⟨m, ran, between⟩ := known s h
  have goesOn : (new digest users padding udpEnabled fallback).handleConnection s =
      (new digest users padding udpEnabled fallback).handshake name m := Fallible.bind_of_ok ran
  constructor
  · rintro ⟨start, t, started, -⟩
    by_contra long
    obtain ⟨u, refused, -⟩ := handshake_refuses name short (by omega) m between
    rw [goesOn, refused] at started
    cases started
  · intro fits
    obtain ⟨start, t, started, whole⟩ := handshake_starts name short fits between
    exact ⟨start, t, goesOn.trans started, whole⟩

/-- However the handshake of a registered client is cut into reads, it is handed
over to a session with nothing lost of what follows it, exactly when the padding
fits into the reader's buffer. -/
theorem handshake_handed_over_iff (digest : Digest) (users : List User) (padding : Padding)
    (udpEnabled : Bool) (fallback : Option NetLocation) (memory : Nat → UInt8) (hash : Bytes)
    (registered : ∃ user ∈ users, user.passwordHash digest = hash) (filler stream : Bytes)
    (short : filler.length < 2 ^ 16) (pieces : List Bytes) (some_ : ∀ piece ∈ pieces, piece ≠ [])
    (cut : pieces.flatten = hash ++ (BigEndian.toBe 2 filler.length ++ (filler ++ stream))) :
    StartsSessionOn stream (new digest users padding udpEnabled fallback) (fresh memory pieces) ↔
      filler.length ≤ 32768 := by
  have start := holds_new memory DEFAULT_BUFFER_SIZE some_
  rw [cut] at start
  exact startsSessionOn_iff registered short start

/-- Three bytes of padding and a frame, cut in the padding. -/
theorem padded_client_starts_session :
    StartsSessionOn [2, 0, 0] (new firstByteDigest [⟨['a'], [1]⟩] ⟨[], []⟩ false none)
      (fresh (fun _ => 0) [List.replicate 32 1 ++ [0, 3, 9], [9, 9, 2], [0, 0]]) :=
  (handshake_handed_over_iff firstByteDigest [⟨['a'], [1]⟩] ⟨[], []⟩ false none (fun _ => 0)
    (List.replicate 32 1) ⟨⟨['a'], [1]⟩, by decide, by decide⟩ [9, 9, 9] [2, 0, 0] (by decide)
    [List.replicate 32 1 ++ [0, 3, 9], [9, 9, 2], [0, 0]] (by decide) (by decide)).mpr (by decide)

/-- A client that pads with one byte more than the buffer has is cut off. -/
theorem long_padding_refused :
    ¬StartsSessionOn [] (new firstByteDigest [⟨['a'], [1]⟩] ⟨[], []⟩ false none)
      (fresh (fun _ => 0)
        [List.replicate 32 1 ++ (BigEndian.toBe 2 32769 ++ List.replicate 32769 0)]) := by
  have some_ : ∀ piece ∈ [List.replicate 32 1 ++
      (BigEndian.toBe 2 32769 ++ List.replicate 32769 (0 : UInt8))], piece ≠ [] := by
    intro piece mem none_
    rw [List.mem_singleton.mp mem] at none_
    cases (List.append_eq_nil_iff.mp none_).1
  have start := holds_new (fun _ => 0) DEFAULT_BUFFER_SIZE some_
  have length : (List.replicate 32769 (0 : UInt8)).length = 32769 := List.length_replicate
  have whole : [List.replicate 32 1 ++ (BigEndian.toBe 2 32769 ++ List.replicate 32769 0)].flatten =
      List.replicate 32 (1 : UInt8) ++
        (BigEndian.toBe 2 (List.replicate 32769 (0 : UInt8)).length ++
          (List.replicate 32769 0 ++ [])) := by
    rw [length, List.flatten_singleton, List.append_nil]
  rw [whole] at start
  have registered : ∃ user ∈ [(⟨['a'], [1]⟩ : User)],
      user.passwordHash firstByteDigest = List.replicate 32 1 :=
    ⟨⟨['a'], [1]⟩, by decide, by decide⟩
  intro starts
  have fits := (startsSessionOn_iff registered (by rw [length]; decide) start).mp starts
  rw [length] at fits
  exact absurd fits (by decide)

end RustProxy.AnyTls
