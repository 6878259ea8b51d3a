import RustProxy.UdpRelay.Forwards

/-!
# Responses on their way to the client

What the sockets of `run_udp_routing` receive goes through one channel to the
client, whichever sessions come and go meanwhile. The future takes a response
off the channel, writes it and flushes it before it looks at anything else, and
reads of the client's packets are dropped and taken up again around it.

So in every run the client is sent the responses in the order they were
received, whole and with their sources: what its stream has accepted is a prefix
of their frames. None is lost while the loop goes on, and none is held back in
the write buffer while the future waits for something else.
-/

namespace RustProxy.UdpRelay

open MessageStream
open MessageStream.PacketAddrStream (Running Answer Calling packets frames messages Serves AfterCall
  Keeps)

variable {ω : Type}

/-- The response that a move brings. -/
def Move.received? : Move ω → Option (Bytes × SocketAddr)
  | .event (.packet _ source payload) => some (payload, source)
  | _ => none

namespace Forwarding

/-- The response that is being written, until it is taken by the stream. -/
def inWriting (t : Forwarding ω) : List (Bytes × SocketAddr) :=
  match t.routing.await with
  | .writing source payload => if t.flushing then [] else [(payload, source)]
  | _ => []

/-- One move of the future, beside what the sockets have received so far. -/
def loggedMove (stream : AsyncStream ω) (s : Forwarding ω × List (Bytes × SocketAddr))
    (m : Move ω) : Option (Forwarding ω × List (Bytes × SocketAddr)) :=
  (s.1.move stream m).map fun t => (t, s.2 ++ m.received?.toList)

/-- The responses that the client's stream has not taken. -/
def outstanding (t : Forwarding ω) : List (Bytes × SocketAddr) :=
  t.inWriting ++ t.routing.responses.map fun (source, payload) => (payload, source)

end Forwarding

/-- The future waits for a write of a response. -/
def Await.isWriting : Await → Bool
  | .writing _ _ => true
  | _ => false

/-- What has become of the responses. -/
structure Delivers (responses : List (Bytes × SocketAddr)) (t : Forwarding ω) : Prop where
  inOrder : Relay.accepted (events t.server.1.2) <+: frames responses
  whole : ∀ payload source, (payload, source) ∈ messages t.server.2 → ∀ more, ∃ payloadStart,
    parsePacket (frameOf payload source ++ more) =
      some (.ok (some (locationOf source, payloadStart, payload.length))) ∧
    payloadStart + payload.length = (frameOf payload source).length ∧
    (frameOf payload source ++ more).slice payloadStart (payloadStart + payload.length) =
      some payload
  account : ¬t.routing.await.Past → responses = messages t.server.2 ++ t.outstanding
  written : ¬t.routing.await.Past → t.routing.await.isWriting = false →
    Relay.accepted (events t.server.1.2) = frames (messages t.server.2)

namespace Forwarding

/-- The accounts of the responses and of the client's stream, together. -/
structure Returns (responses : List (Bytes × SocketAddr)) (t : Forwarding ω) : Prop where
  serves : Serves t.server
  taken : messages t.server.2 <+: responses
  account : ¬t.routing.await.Past → responses = messages t.server.2 ++ t.outstanding
  flushing : ¬t.routing.await.Past → t.routing.await.isWriting = false → t.flushing = false
  written : ¬t.routing.await.Past → t.routing.await.isWriting = false →
    PacketAddrStream.Writes (frames (messages t.server.2)) True t.server.1

variable {stream : AsyncStream ω} {s t : Forwarding ω} {e : Event}
  {responses : List (Bytes × SocketAddr)}

theorem accepted_of_writes {bytes : Bytes} {server : Calling (Recorded ω)}
    (writes : PacketAddrStream.Writes bytes True server) :
    Relay.accepted (events server.2) = bytes := by
  obtain ⟨staged, -, account, clean⟩ := writes
  rw [← account, clean trivial, List.append_nil]

theorem Returns.delivers (h : Returns responses t) : Delivers responses t where
  inOrder := by
    obtain ⟨more, rfl⟩ := h.taken
    refine h.serves.writesWhole.inOrder.trans ?_
    rw [frames, frames, List.flatMap_append]
    exact List.prefix_append _ _
  whole := h.serves.writesWhole.parses
  account := h.account
  written inside idle := accepted_of_writes (h.written inside idle)

theorem returns_start (readMemory writeMemory memory : Nat → UInt8) (now : Nat) (world : ω) :
    Returns [] (start readMemory writeMemory memory now world) where
  serves := PacketAddrStream.serves_start readMemory writeMemory world
  taken := List.prefix_rfl
  account _ := rfl
  flushing _ _ := rfl
  written _ _ := ⟨[], PacketAddrStream.stages_newUot _ _, rfl, fun _ => rfl⟩

/-- Once the loop was left, nothing more is written. -/
theorem Returns.past (h : Returns responses s) (server : t.server = s.server)
    (past : t.routing.await.Past) (more : List (Bytes × SocketAddr)) :
    Returns (responses ++ more) t where
  serves := server ▸ h.serves
  taken := by
    rw [server]
    exact h.taken.trans (List.prefix_append _ _)
  account inside := absurd past inside
  flushing inside := absurd past inside
  written inside := absurd past inside

/-- A step of the future that has to do with no response. -/
theorem Returns.aside (h : Returns responses s) (inside : ¬s.routing.await.Past)
    (idle : s.routing.await.isWriting = false) (server : t.server = s.server)
    (flag : t.flushing = s.flushing) (queue : t.routing.responses = s.routing.responses)
    (idleThen : t.routing.await.isWriting = false) : Returns responses t := by
  have none_ {u : Forwarding ω} (idle : u.routing.await.isWriting = false) : u.inWriting = [] := by
    unfold inWriting
    split
    · rename_i at_
      rw [at_] at idle
      cases idle
    · rfl
  refine ⟨server ▸ h.serves, server ▸ h.taken, fun _ => ?_, fun _ _ => ?_, fun _ _ => ?_⟩
  · rw [h.account inside, outstanding, outstanding, none_ idle, none_ idleThen, queue, server]
  · rw [flag]
    exact h.flushing inside idle
  · rw [server]
    exact h.written inside idle

/-- A step of a task, which may bring responses. -/
theorem Returns.beside (h : Returns responses s) (more : List (SocketAddr × Bytes))
    (server : t.server = s.server) (flag : t.flushing = s.flushing)
    (await : t.routing.await = s.routing.await)
    (queue : t.routing.responses = s.routing.responses ++ more) :
    Returns (responses ++ more.map fun (source, payload) => (payload, source)) t := by
  have inWriting : t.inWriting = s.inWriting := by rw [inWriting, inWriting, await, flag]
  refine ⟨server ▸ h.serves, ?_, ?_, ?_, ?_⟩
  · rw [server]
    exact h.taken.trans (List.prefix_append _ _)
  · intro inside
    rw [await] at inside
    rw [h.account inside, outstanding, outstanding, inWriting, queue, server, List.map_append,
      List.append_assoc, List.append_assoc]
  · rw [await, flag]
    exact h.flushing
  · rw [await, server]
    exact h.written

/-- The future takes a response off the channel. -/
theorem Returns.response {source : SocketAddr} {payload : Bytes} (h : Returns responses s)
    (at_ : s.routing.await = .select)
    (queued : s.routing.responses = (source, payload) :: t.routing.responses)
    (server : t.server = s.server) (flag : t.flushing = s.flushing)
    (await : t.routing.await = .writing source payload) : Returns responses t := by
  have inside : ¬s.routing.await.Past := by
    rw [at_]
    exact id
  have still : s.flushing = false := h.flushing inside (by rw [at_]; rfl)
  refine ⟨server ▸ h.serves, server ▸ h.taken, fun _ => ?_, ?_, ?_⟩
  · rw [h.account inside, outstanding, outstanding, inWriting, inWriting, at_, await, queued,
      server, flag, still]
    simp
  · intro _ idle
    rw [await] at idle
    cases idle
  · intro _ idle
    rw [await] at idle
    cases idle

/-- Steps of the future and its tasks that neither poll the client's stream nor
bring a response. -/
theorem Returns.advance (h : Returns responses s) (ran : s.advance e = some t)
    (notRead : ∀ packet, e ≠ .read packet) (notWrote : ∀ ok, e ≠ .wrote ok)
    (notPacket : ∀ i source payload, e ≠ .packet i source payload) : Returns responses t := by
  obtain ⟨routing, taken, rfl⟩ := advance_inv ran
  have past {u : Forwarding ω} (server : u.server = s.server) (past : u.routing.await.Past) :
      Returns responses u := by
    have stays := h.past server past []
    rwa [List.append_nil] at stays
  have still {u : Forwarding ω} (server : u.server = s.server) (flag : u.flushing = s.flushing)
      (await : u.routing.await = s.routing.await)
      (queue : u.routing.responses = s.routing.responses) : Returns responses u := by
    have stays := h.beside [] server flag await (by rw [queue, List.append_nil])
    rwa [List.map_nil, List.append_nil] at stays
  cases taken_of_step taken with
  | readFailed | closed | read => exact absurd rfl (notRead _)
  | wrote | writeFailed => exact absurd rfl (notWrote _)
  | packetLate | packet => exact absurd rfl (notPacket _ _ _)
  | @enter now at_ =>
      refine h.aside (by rw [at_]; exact id) (by rw [at_]; rfl) rfl rfl ?_ rfl
      show (s.routing.cleanUp now).responses = _
      unfold Routing.cleanUp
      split <;> rfl
  | response at_ queued => exact h.response at_ queued rfl rfl rfl
  | unresolved at_ | known at_ | unknown at_ | created at_ | noSocket at_ | sent at_ =>
      exact h.aside (by rw [at_]; exact id) (by rw [at_]; rfl) rfl rfl rfl rfl
  | shutDown | dropped => exact past rfl trivial
  | receiveFails | seesCancellation =>
      exact still rfl rfl rfl rfl

/-- A socket receives a response. -/
theorem Returns.packet {i : Nat} {source : SocketAddr} {payload : Bytes} (h : Returns responses s)
    (ran : s.advance (.packet i source payload) = some t) :
    Returns (responses ++ [(payload, source)]) t := by
  obtain ⟨routing, taken, rfl⟩ := advance_inv ran
  cases taken_of_step taken with
  | packetLate ended =>
      have past : s.routing.await.Past := by
        rw [ended]
        trivial
      apply h.past
      · rfl
      · exact past
  | packet => exact h.beside [(source, payload)] rfl rfl rfl rfl

/-! ## Polls of the client's stream -/

theorem messages_of_none {answers : List Answer} {answer : Answer}
    (none_ : answer.message? = none) :
    messages (answers ++ [answer]) = messages answers := by
  rw [PacketAddrStream.messages_concat, none_]
  exact List.append_nil _

/-- The select has polled a read. -/
theorem Returns.polledRead {answer : Poll (IoResult Packet)} {server : Calling (Recorded ω)}
    (h : Returns responses s) (at_ : s.routing.await = .select)
    (polled : PacketAddrStream.pollReadTargetedMessage (BUFFER_SIZE + 1) (stream.recorded .a) 65535
      s.server.1 = (.returned answer, server)) :
    Returns responses (s.answered (.read answer server.1.isEof) server) := by
  have inside : ¬s.routing.await.Past := by
    rw [at_]
    exact id
  have idle : s.routing.await.isWriting = false := by rw [at_]; rfl
  have same : messages (s.server.2 ++ [.read answer server.1.isEof]) = messages s.server.2 :=
    messages_of_none rfl
  have meets : (PacketAddrStream.pollReadTargetedMessage (BUFFER_SIZE + 1) (stream.recorded .a)
      65535).Meets s.server.1 (fun _ => True) (PacketAddrStream.AfterRead [] (packets s.server.2)
        (frames (messages s.server.2)) True) :=
    PacketAddrStream.pollRead_keeps
      ⟨h.serves.keeps.reads, h.written inside idle, List.nil_prefix⟩ (.inl fun _ _ => trivial)
  have after := meets.returned (congrArg Prod.fst polled)
  rw [polled] at after
  have served : Serves (server, s.server.2 ++ [.read answer server.1.isEof]) :=
    h.serves.answered (afterCall h.serves .read (Exec.bind_of_returned polled))
  refine ⟨served, ?_, fun _ => ?_, h.flushing, fun _ _ => ?_⟩
  · show messages (s.server.2 ++ [.read answer server.1.isEof]) <+: responses
    rw [same]
    exact h.taken
  · show responses = messages (s.server.2 ++ [.read answer server.1.isEof]) ++ s.outstanding
    rw [same]
    exact h.account inside
  · show PacketAddrStream.Writes
      (frames (messages (s.server.2 ++ [.read answer server.1.isEof]))) True server
    rw [same]
    exact after.writes

/-- The select takes what a read has returned. -/
theorem Returns.readStep {packet : Option (NetLocation × Bytes)} (h : Returns responses s)
    (ran : s.advance (.read packet) = some t) : Returns responses t := by
  obtain ⟨routing, taken, rfl⟩ := advance_inv ran
  have past {u : Forwarding ω} (server : u.server = s.server) (past : u.routing.await.Past) :
      Returns responses u := by
    have stays := h.past server past []
    rwa [List.append_nil] at stays
  cases taken_of_step taken with
  | readFailed | closed => exact past rfl trivial
  | read at_ => exact h.aside (by rw [at_]; exact id) (by rw [at_]; rfl) rfl rfl rfl rfl

theorem Returns.pollRead (h : Returns responses s) (ran : s.pollRead stream = some t) :
    Returns responses t := by
  unfold Forwarding.pollRead at ran
  split at ran
  case h_1 at_ polled =>
      obtain rfl := Option.some.inj ran
      exact h.polledRead at_ polled
  case h_2 at_ polled => exact (h.polledRead at_ polled).readStep ran
  case h_3 at_ polled =>
      have read := h.polledRead at_ polled
      refine Returns.readStep ?_ ran
      exact ⟨read.serves, read.taken, read.account, read.flushing, read.written⟩
  case h_4 => cases ran

/-- A poll of the write or of the flush that takes no message. -/
theorem Returns.polledWrite {source : SocketAddr} {payload : Bytes} {answer : Answer}
    {server : Calling (Recorded ω)} (h : Returns responses s)
    (at_ : s.routing.await = .writing source payload)
    (served : Serves (server, s.server.2 ++ [answer])) (none_ : answer.message? = none) :
    Returns responses (s.answered answer server) := by
  have same : messages (s.server.2 ++ [answer]) = messages s.server.2 := messages_of_none none_
  refine ⟨served, ?_, fun inside => ?_, h.flushing, fun _ idle => ?_⟩
  · show messages (s.server.2 ++ [answer]) <+: responses
    rw [same]
    exact h.taken
  · show responses = messages (s.server.2 ++ [answer]) ++ s.outstanding
    rw [same]
    exact h.account inside
  · have writing : s.routing.await.isWriting = false := idle
    rw [at_] at writing
    cases writing

/-- The stream takes the response. -/
theorem Returns.tookMessage {source : SocketAddr} {payload : Bytes} {server : Calling (Recorded ω)}
    (h : Returns responses s) (at_ : s.routing.await = .writing source payload)
    (still : s.flushing = false)
    (served : Serves (server, s.server.2 ++ [.write payload source (.ready (.ok ()))])) :
    Returns responses { s.answered (.write payload source (.ready (.ok ()))) server with
      flushing := true } := by
  have inside : ¬s.routing.await.Past := by
    rw [at_]
    exact id
  have more : messages (s.server.2 ++ [.write payload source (.ready (.ok ()))]) =
      messages s.server.2 ++ [(payload, source)] := PacketAddrStream.messages_concat _ _
  have account : responses = messages (s.server.2 ++ [.write payload source (.ready (.ok ()))]) ++
      s.routing.responses.map fun (source, payload) => (payload, source) := by
    rw [h.account inside, outstanding, inWriting, at_, still, more, List.append_assoc]
    rfl
  refine ⟨served, ⟨_, account.symm⟩, fun _ => ?_, fun _ idle => ?_, fun _ idle => ?_⟩
  · rw [outstanding, inWriting]
    show responses = messages (s.server.2 ++ [.write payload source (.ready (.ok ()))]) ++
      ((match s.routing.await with
        | .writing source payload => if true then [] else [(payload, source)]
        | _ => []) ++ _)
    rw [at_]
    exact account
  · have writing : s.routing.await.isWriting = false := idle
    rw [at_] at writing
    cases writing
  · have writing : s.routing.await.isWriting = false := idle
    rw [at_] at writing
    cases writing

/-- The write has failed, and the loop is left. -/
theorem Returns.notWritten (h : Returns responses s) (ran : s.advance (.wrote false) = some t) :
    Returns responses t := by
  obtain ⟨routing, taken, rfl⟩ := advance_inv ran
  cases taken_of_step taken with
  | writeFailed =>
      have stays := h.past (t := { s with
        routing := s.routing.leaveLoop
        verdicts := s.verdicts ++ (verdict s.routing (.wrote false)).toList }) rfl trivial []
      rwa [List.append_nil] at stays

/-- The response is written and flushed. -/
theorem Returns.flushed {source : SocketAddr} {payload : Bytes} {server : Calling (Recorded ω)}
    (h : Returns responses s) (at_ : s.routing.await = .writing source payload)
    (flushing : s.flushing = true)
    (after : AfterCall (events s.server.1.2) (packets s.server.2) (frames (messages s.server.2))
      (.flush (.ready (.ok ()))) server)
    (ran : { s.answered (.flush (.ready (.ok ()))) server with flushing := false }.advance
      (.wrote true) = some t) : Returns responses t := by
  obtain ⟨routing, taken, rfl⟩ := advance_inv ran
  have inside : ¬s.routing.await.Past := by
    rw [at_]
    exact id
  have same : messages (s.server.2 ++ [.flush (.ready (.ok ()))]) = messages s.server.2 :=
    messages_of_none rfl
  cases taken_of_step taken with
  | wrote =>
      refine ⟨h.serves.answered after, ?_, fun _ => ?_, fun _ _ => rfl, fun _ _ => ?_⟩
      · show messages (s.server.2 ++ [.flush (.ready (.ok ()))]) <+: responses
        rw [same]
        exact h.taken
      · show responses = messages (s.server.2 ++ [.flush (.ready (.ok ()))]) ++ ([] ++ _)
        rw [same, h.account inside, outstanding, inWriting, at_, flushing]
        rfl
      · show PacketAddrStream.Writes
          (frames (messages (s.server.2 ++ [.flush (.ready (.ok ()))]))) True server
        rw [same]
        have writes := after.keeps.writes
        obtain ⟨staged, stages, account, clean⟩ := writes
        exact ⟨staged, stages, account.trans (List.append_nil _), fun _ => clean rfl⟩

theorem Returns.pollWrite {fuel : Nat} (h : Returns responses s)
    (ran : s.pollWrite stream fuel = some t) : Returns responses t := by
  unfold Forwarding.pollWrite at ran
  split at ran
  case h_2 => cases ran
  case h_1 source payload at_ =>
      split at ran
      case isTrue flushing =>
          have after {answer : Poll (IoResult Unit)} {server : Calling (Recorded ω)}
              (polled : PacketAddrStream.pollFlushMessage fuel (stream.recorded .a) s.server.1 =
                (.returned answer, server)) :=
            afterCall h.serves .flush (Exec.bind_of_returned polled)
          split at ran
          case h_1 polled =>
              obtain rfl := Option.some.inj ran
              exact h.polledWrite at_ (h.serves.answered (after polled)) rfl
          case h_2 polled => exact h.flushed at_ flushing (after polled) ran
          case h_3 polled =>
              exact (h.polledWrite at_ (h.serves.answered (after polled)) rfl).notWritten ran
          case h_4 => cases ran
      case isFalse still =>
          have served {answer : Poll (IoResult Unit)} {server : Calling (Recorded ω)}
              (polled : PacketAddrStream.pollWriteSourcedMessage fuel (stream.recorded .a) payload
                source s.server.1 = (.returned answer, server)) :=
            h.serves.answered (afterCall h.serves (.write payload source)
              (Exec.bind_of_returned polled))
          split at ran
          case h_1 polled =>
              obtain rfl := Option.some.inj ran
              exact h.polledWrite at_ (served polled) rfl
          case h_2 polled =>
              obtain rfl := Option.some.inj ran
              exact h.tookMessage at_ (eq_false_of_ne_true still) (served polled)
          case h_3 polled => exact (h.polledWrite at_ (served polled) rfl).notWritten ran
          case h_4 => cases ran

/-! ## Runs -/

theorem Returns.move {m : Move ω} (h : Returns responses s) (ran : s.move stream m = some t) :
    Returns (responses ++ m.received?.toList) t := by
  have quiet (none_ : m.received? = none) (after : Returns responses t) :
      Returns (responses ++ m.received?.toList) t := by
    rw [none_, Option.toList_none, List.append_nil]
    exact after
  cases m with
  | read => exact quiet rfl (h.pollRead ran)
  | write fuel => exact quiet rfl (h.pollWrite ran)
  | event e =>
      cases e with
      | read | wrote => cases ran
      | packet => exact h.packet ran
      | enter | response | resolved | created | sent | shutDown | dropped | receiveFails
      | seesCancellation =>
          refine quiet rfl (h.advance ran ?_ ?_ ?_)
          · rintro _ ⟨⟩
          · rintro _ ⟨⟩
          · rintro _ _ _ ⟨⟩
  | meanwhile f =>
      obtain rfl := Option.some.inj ran
      exact quiet rfl ⟨h.serves.around _, h.taken, h.account, h.flushing, h.written⟩

/-- In every run the client is sent the responses of its destinations in the order
they were received, and none of them is lost or held back while the loop goes on. -/
theorem responses_delivered (stream : AsyncStream ω) (readMemory writeMemory memory : Nat → UInt8)
    (now : Nat) (world : ω) (moves : List (Move ω)) :
    Transition.Always (loggedMove stream) (fun s => Delivers s.2 s.1)
      (start readMemory writeMemory memory now world, []) moves := by
  refine Transition.always_of_invariant
    (I := fun s : Forwarding ω × List (Bytes × SocketAddr) => Returns s.2 s.1)
    (fun _ h => h.delivers) ?_ (returns_start readMemory writeMemory memory now world) moves
  intro s m t h ran
  obtain ⟨after, moved, rfl⟩ := Option.map_eq_some_iff.mp ran
  exact h.move moved

end Forwarding

end RustProxy.UdpRelay
