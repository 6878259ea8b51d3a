import RustProxy.MessageStream.VlessCalls
import RustProxy.UdpRelay.RelayEnds

/-!
# An association with one destination

UDP over TCP in connect mode: the relay between the client's `VlessMessageStream`
and a connected `UdpSocket`. Both are message streams over one world, in which the
client's stream has its buffers and the calls made underneath it. `Association` is
that world; its buffers are always in the order that the calls on the stream leave
(`Valid`), so every call returns.

The relay takes a read of nothing for the end of the input. The client's stream
answers so at its end, but also with an empty message, and the socket answers so
with an empty datagram: then the association ends although nobody wanted that.
As long as no empty message is read, it ends only for a reason.
-/

namespace RustProxy.UdpRelay

open MessageStream (VlessMessageStream events)
open MessageStream.VlessMessageStream (Calling READ_SIZE Failed)
open Prefixed

variable {ω : Type}

/-- `tokio::net::UdpSocket` after `connect`: `poll_recv` answers with one datagram,
as far as it fits, and `poll_send` with the number of bytes sent. -/
structure UdpSocket (ω : Type) where
  pollRecv : Nat → PollOp ω Bytes
  pollSend : Bytes → PollOp ω Nat
  recv_fits : ∀ room w datagram, (pollRecv room w).1 = .ready (.ok datagram) →
    datagram.length ≤ room

/-- The buffers are in the order that the calls leave. -/
def Valid (s : Calling (Recorded ω)) : Prop :=
  ∃ ms ended taken, VlessMessageStream.Keeps ms ended taken False [] s

/-- The world of the relay. -/
abbrev Association (ω : Type) : Type := { s : Calling (Recorded ω) // Valid s }

namespace Association

/-- A call on the client's stream. -/
def serve {α : Type} (x : Exec (Calling (Recorded ω)) α)
    (returns : ∀ s, Valid s → x.Meets s (fun _ => False) fun _ => Valid) (s : Association ω) :
    α × Association ω :=
  let r := Exec.settled x s.1 (returns s.1 s.2)
  (r.1.1, ⟨r.1.2, r.2.2⟩)

/-- The contract of a call holds of its answer and of the world after it. -/
theorem serve_meets {α : Type} {x : Exec (Calling (Recorded ω)) α}
    {returns : ∀ s, Valid s → x.Meets s (fun _ => False) fun _ => Valid} {s : Association ω}
    {post : α → Calling (Recorded ω) → Prop} (meets : x.Meets s.1 (fun _ => False) post) :
    post (serve x returns s).1 (serve x returns s).2.1 := by
  have ran : x s.1 = (.returned (serve x returns s).1, (serve x returns s).2.1) :=
    (Exec.settled x s.1 (returns s.1 s.2)).2.1
  have held := meets.returned (congrArg Prod.fst ran)
  rwa [ran] at held

theorem serve_eq {α : Type} {x : Exec (Calling (Recorded ω)) α}
    {returns : ∀ s, Valid s → x.Meets s (fun _ => False) fun _ => Valid} {s : Association ω}
    {a : α} {t : Calling (Recorded ω)} (ran : x s.1 = (.returned a, t)) :
    ∃ valid, serve x returns s = (a, ⟨t, valid⟩) := by
  have meets : x.Meets s.1 (fun _ => False) fun b u => b = a ∧ u = t := .of_returned ran ⟨rfl, rfl⟩
  have served : (serve x returns s).1 = a ∧ (serve x returns s).2.1 = t := serve_meets meets
  exact ⟨served.2 ▸ (serve x returns s).2.2, Prod.ext served.1 (Subtype.ext served.2)⟩

/-- The world may change around the stream. -/
def setWorld (s : Association ω) (w : ω) : Association ω :=
  ⟨(s.1.1, ⟨w, s.1.2.calls⟩), by
    obtain ⟨ms, ended, taken, keeps⟩ := s.2
    exact ⟨ms, ended, taken, keeps.of_events rfl⟩⟩

variable {inner : AsyncStream ω} {fuel room : Nat} {s : Calling (Recorded ω)}

theorem read_returns (enough : READ_SIZE < fuel) (valid : Valid s) :
    (VlessMessageStream.pollReadMessage fuel (inner.recorded .a) room).Meets s (fun _ => False)
      fun _ => Valid := by
  obtain ⟨ms, ended, taken, keeps⟩ := valid
  exact (VlessMessageStream.pollRead_keeps keeps (.inr enough)).mono (fun _ h => h)
    fun _ _ after => ⟨_, _, _, after.keeps⟩

theorem write_returns (enough : READ_SIZE < fuel) (buf : Bytes) (valid : Valid s) :
    (VlessMessageStream.pollWriteMessage fuel (inner.recorded .a) buf).Meets s (fun _ => False)
      fun _ => Valid := by
  obtain ⟨ms, ended, taken, keeps⟩ := valid
  exact (VlessMessageStream.pollWrite_keeps buf keeps (.inr enough)).mono (fun _ h => h)
    fun _ _ after => ⟨_, _, _, after.keeps.mono False.elim⟩

theorem flush_returns (enough : READ_SIZE < fuel) (valid : Valid s) :
    (VlessMessageStream.pollFlushMessage fuel (inner.recorded .a)).Meets s (fun _ => False)
      fun _ => Valid := by
  obtain ⟨ms, ended, taken, keeps⟩ := valid
  exact (VlessMessageStream.pollFlush_keeps keeps (.inr enough)).mono (fun _ h => h)
    fun _ _ after => ⟨_, _, _, after.keeps.mono False.elim⟩

theorem shutdown_returns (enough : READ_SIZE < fuel) (valid : Valid s) :
    (VlessMessageStream.pollShutdownMessage fuel (inner.recorded .a)).Meets s (fun _ => False)
      fun _ => Valid := by
  obtain ⟨ms, ended, taken, keeps⟩ := valid
  exact (VlessMessageStream.pollShutdown_keeps keeps (.inr enough)).mono (fun _ h => h)
    fun _ _ after => ⟨_, _, _, after.keeps⟩

theorem ping_returns (valid : Valid s) :
    (VlessMessageStream.pollWritePing (inner.recorded .a)).Meets s (fun _ => False)
      fun _ => Valid := by
  obtain ⟨ms, ended, taken, keeps⟩ := valid
  exact (VlessMessageStream.pollWritePing_keeps keeps).mono (fun _ h => h)
    fun _ _ after => ⟨_, _, _, after.keeps⟩

section Calls

variable (inner : AsyncStream ω)

def readMessage (room : Nat) : PollOp (Association ω) Bytes :=
  serve (VlessMessageStream.pollReadMessage (READ_SIZE + 1) (inner.recorded .a) room)
    fun _ => read_returns (Nat.lt_succ_self _)

def writeMessage (message : Bytes) : PollOp (Association ω) Unit :=
  serve (VlessMessageStream.pollWriteMessage (READ_SIZE + 1) (inner.recorded .a) message)
    fun _ => write_returns (Nat.lt_succ_self _) message

def flushMessage : PollOp (Association ω) Unit :=
  serve (VlessMessageStream.pollFlushMessage (READ_SIZE + 1) (inner.recorded .a))
    fun _ => flush_returns (Nat.lt_succ_self _)

def shutdownMessage : PollOp (Association ω) Unit :=
  serve (VlessMessageStream.pollShutdownMessage (READ_SIZE + 1) (inner.recorded .a))
    fun _ => shutdown_returns (Nat.lt_succ_self _)

def writePing : PollOp (Association ω) Bool :=
  serve (VlessMessageStream.pollWritePing (inner.recorded .a)) fun _ => ping_returns

end Calls

section Specs

variable {ms : List Bytes} {ended : Option (Poll (IoResult Bytes))} {taken : Bytes}
  {flushed : Prop} {seen : List IoEvent} {s : Association ω}

theorem readMessage_after (keeps : VlessMessageStream.Keeps ms ended taken flushed seen s.1) :
    VlessMessageStream.AfterRead ms ended taken flushed seen room (readMessage inner room s).1
      (readMessage inner room s).2.1 :=
  serve_meets (VlessMessageStream.pollRead_keeps keeps (.inr (Nat.lt_succ_self _)))

theorem writeMessage_after (message : Bytes)
    (keeps : VlessMessageStream.Keeps ms ended taken flushed seen s.1) :
    VlessMessageStream.AfterCall ms ended taken seen
      (.write message (writeMessage inner message s).1) (writeMessage inner message s).2.1 :=
  serve_meets (VlessMessageStream.pollWrite_keeps message keeps (.inr (Nat.lt_succ_self _)))

theorem flushMessage_after (keeps : VlessMessageStream.Keeps ms ended taken flushed seen s.1) :
    VlessMessageStream.AfterFlush ms ended taken flushed seen (flushMessage inner s).1
      (flushMessage inner s).2.1 :=
  serve_meets (VlessMessageStream.pollFlush_keeps keeps (.inr (Nat.lt_succ_self _)))

theorem shutdownMessage_after (keeps : VlessMessageStream.Keeps ms ended taken flushed seen s.1) :
    VlessMessageStream.AfterShutdown ms ended taken flushed seen (shutdownMessage inner s).1
      (shutdownMessage inner s).2.1 :=
  serve_meets (VlessMessageStream.pollShutdown_keeps keeps (.inr (Nat.lt_succ_self _)))

theorem writePing_after (keeps : VlessMessageStream.Keeps ms ended taken flushed seen s.1) :
    VlessMessageStream.AfterPing ms ended taken flushed seen (writePing inner s).1
      (writePing inner s).2.1 :=
  serve_meets (VlessMessageStream.pollWritePing_keeps keeps)

end Specs

/-- The client's stream. -/
def client (inner : AsyncStream ω) : AsyncMessageStream (Association ω) where
  pollReadMessage := readMessage inner
  pollWriteMessage := writeMessage inner
  pollFlushMessage := flushMessage inner
  pollShutdownMessage := shutdownMessage inner
  supportsPing s := VlessMessageStream.supportsPing (inner.recorded .a) s.1
  pollWritePing := writePing inner
  read_fits room s message answered := by
    obtain ⟨ms, ended, taken, keeps⟩ := s.2
    exact (readMessage_after keeps).space message answered

/-- The socket. `poll_write_ping` is not implemented there, and `supports_ping`
says so. -/
def socketStream (socket : UdpSocket ω) : AsyncMessageStream (Association ω) where
  pollReadMessage room s :=
    let (answer, w) := socket.pollRecv room s.1.2.world
    (answer, s.setWorld w)
  pollWriteMessage message s :=
    match socket.pollSend message s.1.2.world with
    | (.ready (.ok _), w) => (.ready (.ok ()), s.setWorld w)
    | (.ready (.error e), w) => (.ready (.error e), s.setWorld w)
    | (.pending, w) => (.pending, s.setWorld w)
  pollFlushMessage s := (.ready (.ok ()), s)
  pollShutdownMessage s := (.ready (.ok ()), s)
  supportsPing _ := false
  pollWritePing s := (.pending, s)
  read_fits room s message answered := socket.recv_fits room s.1.2.world message answered

/-- The runtime, in the world of the relay. -/
def context (cx : TimedContext ω) : TimedContext (Association ω) where
  pollProceed s := ((cx.pollProceed s.1.2.world).1, s.setWorld (cx.pollProceed s.1.2.world).2)
  pollSleep s := ((cx.pollSleep s.1.2.world).1, s.setWorld (cx.pollSleep s.1.2.world).2)
  resetSleep s := s.setWorld (cx.resetSleep s.1.2.world)
  now s := cx.now s.1.2.world

/-- What happens between the polls happens around the stream. -/
def turn (turn : CopyBidirectional.Turn ω) : CopyBidirectional.Turn (Association ω) where
  meanwhile s := s.setWorld (turn.meanwhile s.1.2.world)
  fuel := turn.fuel

/-! ## What the calls on the client's stream say about the stream underneath -/

/-- The calls of the relay, against the account of the client's stream: the
messages it returned were read, the messages it took were written, it answered
with nothing at the end of the stream or for an empty message, and it failed
because the stream underneath did or ended inside a message. -/
structure Follows (ms : List Bytes) (ended : Option (Poll (IoResult Bytes)))
    (calls : List (Side × MessageEvent)) (s : Calling (Recorded ω)) : Prop where
  keeps : VlessMessageStream.Keeps ms ended (encodeAll 2 (accepted (view .b calls))) False [] s
  received : produced (view .a calls) = ms.filter (· ≠ [])
  ends : EndSeen (view .a calls) → s.1.isEof = true ∨ [] ∈ ms
  explained : ∀ event e, (.a, event) ∈ calls → event.failure? = some e →
    Failed (events s.2) e ∨ s.1.isEof = true
  noPing : ∀ answer, (.b, .ping answer) ∉ calls

/-- The calls of a relay follow the client's stream. -/
def Followed (w : Traced (Association ω)) : Prop := ∃ ms ended, Follows ms ended w.calls w.world.1

section Follows

variable {ms : List Bytes} {ended : Option (Poll (IoResult Bytes))}
  {calls : List (Side × MessageEvent)} {s t : Calling (Recorded ω)} {event : MessageEvent}

theorem Follows.seen (follows : Follows ms ended calls s) :
    VlessMessageStream.Keeps ms ended (encodeAll 2 (accepted (view .b calls))) False
      (events s.2) s :=
  ⟨follows.keeps.reads, follows.keeps.writes, List.Subset.refl _⟩

/-- The end of the stream stays seen, and failures stay so. -/
theorem isEof_of_keeps {ms' : List Bytes} {ended' : Option (Poll (IoResult Bytes))} {taken' : Bytes}
    {flushed' : Prop} (follows : Follows ms ended calls s)
    (keeps : VlessMessageStream.Keeps ms' ended' taken' flushed' (events s.2) t)
    (eof : s.1.isEof = true) : t.1.isEof = true := by
  obtain ⟨live, reads⟩ := follows.keeps.reads
  obtain ⟨live', reads'⟩ := keeps.reads
  obtain ⟨room, mem⟩ := reads.eof.mp eof
  exact reads'.eof.mpr ⟨room, keeps.seen mem⟩

/-- A call on the client's stream. -/
theorem Follows.call {new : List Bytes} {ended' : Option (Poll (IoResult Bytes))}
    (follows : Follows ms ended calls s)
    (keeps : VlessMessageStream.Keeps (ms ++ new) ended'
      (encodeAll 2 (accepted (view .b (calls ++ [(.a, event)])))) False (events s.2) t)
    (received : produced (view .a (calls ++ [(.a, event)])) =
      produced (view .a calls) ++ new.filter (· ≠ []))
    (ends : ∀ room, event = .read room (.ready (.ok [])) → t.1.isEof = true ∨ [] ∈ new)
    (explained : ∀ e, event.failure? = some e → Failed (events t.2) e ∨ t.1.isEof = true) :
    Follows (ms ++ new) ended' (calls ++ [(.a, event)]) t where
  keeps := ⟨keeps.reads, keeps.writes, List.nil_subset _⟩
  received := by
    rw [received, follows.received, List.filter_append]
  ends := by
    rintro ⟨room, mem⟩
    obtain ⟨⟨side, event'⟩, mem, found⟩ := List.mem_filterMap.mp mem
    rcases List.mem_append.mp mem with earlier | last
    · have before : EndSeen (view .a calls) := ⟨room, List.mem_filterMap.mpr ⟨_, earlier, found⟩⟩
      rcases follows.ends before with eof | empty
      · exact .inl (isEof_of_keeps follows keeps eof)
      · exact .inr (List.mem_append_left _ empty)
    · obtain ⟨rfl, rfl⟩ := Prod.mk.inj (List.mem_singleton.mp last)
      have same : event' = .read room (.ready (.ok [])) := by
        split at found
        · exact Option.some.inj found
        · cases found
      exact (ends room same).imp id fun empty => List.mem_append_right _ empty
  explained event' e mem found := by
    rcases List.mem_append.mp mem with earlier | last
    · rcases follows.explained event' e earlier found with ⟨event, mem, failed⟩ | eof
      · exact .inl ⟨event, keeps.seen mem, failed⟩
      · exact .inr (isEof_of_keeps follows keeps eof)
    · obtain ⟨-, rfl⟩ := Prod.mk.inj (List.mem_singleton.mp last)
      exact explained e found
  noPing answer mem := by
    rcases List.mem_append.mp mem with earlier | last
    · exact follows.noPing answer earlier
    · cases List.mem_singleton.mp last

/-- A call on the socket writes nothing to the client and reads nothing from it. -/
theorem accepted_onSocket :
    accepted (view .b (calls ++ [(.b, event)])) = accepted (view .b calls) := by
  rw [view_concat]
  cases event with
  | read room answer =>
      rw [if_pos (show direction .b (.read room answer) = .b from rfl), accepted_concat]
      exact List.append_nil _
  | write | flush | shutdown | ping => rfl

theorem produced_onSocket :
    produced (view .a (calls ++ [(.b, event)])) = produced (view .a calls) := by
  rw [view_concat]
  cases event with
  | read => rfl
  | write message answer =>
      rw [if_pos (show direction .b (.write message answer) = .a from rfl), produced_concat]
      exact List.append_nil _
  | flush answer =>
      rw [if_pos (show direction .b (.flush answer) = .a from rfl), produced_concat]
      exact List.append_nil _
  | shutdown answer =>
      rw [if_pos (show direction .b (.shutdown answer) = .a from rfl), produced_concat]
      exact List.append_nil _
  | ping answer =>
      rw [if_pos (show direction .b (.ping answer) = .a from rfl), produced_concat]
      exact List.append_nil _

theorem endSeen_onSocket (seen : EndSeen (view .a (calls ++ [(.b, event)]))) :
    EndSeen (view .a calls) := by
  obtain ⟨room, mem⟩ := seen
  obtain ⟨⟨side, event'⟩, mem, found⟩ := List.mem_filterMap.mp mem
  rcases List.mem_append.mp mem with earlier | last
  · exact ⟨room, List.mem_filterMap.mpr ⟨_, earlier, found⟩⟩
  · obtain ⟨rfl, rfl⟩ := Prod.mk.inj (List.mem_singleton.mp last)
    split at found
    case isTrue own =>
        obtain rfl := Option.some.inj found
        cases own
    case isFalse => cases found

/-- A call on the socket. -/
theorem Follows.onSocket {w : ω} (follows : Follows ms ended calls s)
    (notPing : ∀ answer, event ≠ .ping answer) :
    Follows ms ended (calls ++ [(.b, event)]) (s.1, ⟨w, s.2.calls⟩) where
  keeps := by
    rw [accepted_onSocket]
    exact follows.keeps.of_events rfl
  received := by
    rw [produced_onSocket]
    exact follows.received
  ends seen := follows.ends (endSeen_onSocket seen)
  explained event' e mem found := by
    rcases List.mem_append.mp mem with earlier | last
    · exact follows.explained event' e earlier found
    · cases List.mem_singleton.mp last
  noPing answer mem := by
    rcases List.mem_append.mp mem with earlier | last
    · exact follows.noPing answer earlier
    · cases List.mem_singleton.mp last
      exact notPing answer rfl

/-- What happens in the world around the stream. -/
theorem Follows.around {w : ω} (follows : Follows ms ended calls s) :
    Follows ms ended calls (s.1, ⟨w, s.2.calls⟩) :=
  ⟨follows.keeps.of_events rfl, follows.received, follows.ends, follows.explained, follows.noPing⟩

theorem closed_socket (socket : UdpSocket ω) :
    Closed Followed (recorded (socketStream socket) .b) where
  read w := by
    rintro ⟨ms, ended, follows⟩
    exact ⟨ms, ended, follows.onSocket nofun⟩
  write message w _ := by
    rintro ⟨ms, ended, follows⟩
    refine ⟨ms, ended, ?_⟩
    show Follows ms ended (w.calls ++ [_])
      ((socketStream socket).pollWriteMessage message w.world).2.1
    rcases sent : socket.pollSend message w.world.1.2.world with ⟨_ | e | n, w'⟩
    · simp only [socketStream, sent]
      exact follows.onSocket nofun
    · simp only [socketStream, sent]
      exact follows.onSocket nofun
    · simp only [socketStream, sent]
      exact follows.onSocket nofun
  flush w := by
    rintro ⟨ms, ended, follows⟩
    exact ⟨ms, ended, follows.onSocket nofun⟩
  shutdown w := by
    rintro ⟨ms, ended, follows⟩
    exact ⟨ms, ended, follows.onSocket nofun⟩
  ping supported := by
    obtain ⟨w, supported⟩ := supported
    cases supported

variable {inner : AsyncStream ω} {s : Association ω}

theorem Follows.read (follows : Follows ms ended calls s.1) :
    ∃ ms' ended', Follows ms' ended'
      (calls ++ [(.a, .read 65535 (readMessage inner 65535 s).1)])
        (readMessage inner 65535 s).2.1 := by
  have after : VlessMessageStream.AfterRead _ _ _ _ _ 65535 (readMessage inner 65535 s).1
    (readMessage inner 65535 s).2.1 := readMessage_after follows.seen
  generalize readMessage inner 65535 s = r at after ⊢
  obtain ⟨answer, t⟩ := r
  have unseen : view .b (calls ++ [(.a, .read 65535 answer)]) = view .b calls := by
    rw [view_concat]
    rfl
  have keeps := after.keeps
  rw [← unseen] at keeps
  refine ⟨_, _, follows.call keeps ?_ ?_ ?_⟩
  · rw [view_concat, if_pos (show direction .a (.read 65535 answer) = .a from rfl), produced_concat]
    congr 1
    rcases answer with _ | e | m
    · rfl
    · rfl
    · dsimp only
      cases eof : t.1.1.isEof with
      | true =>
          obtain rfl := after.nothing eof m rfl
          rfl
      | false =>
          by_cases empty : m = []
          · simp [MessageEvent.read?, VlessMessageStream.Answer.returned?, empty]
          · simp [MessageEvent.read?, VlessMessageStream.Answer.returned?, empty]
  · rintro room ⟨⟩
    dsimp only
    cases t.1.1.isEof with
    | true => exact .inl rfl
    | false => exact .inr (List.mem_singleton_self _)
  · intro e found
    rcases answer with _ | e' | m
    · cases found
    · cases found
      exact (after.explained (Nat.le_refl _)).imp id And.right
    · cases found

/-- A call on the client's stream that is not a read. -/
theorem Follows.aside {t : Association ω} (follows : Follows ms ended calls s.1)
    (own : direction .a event = .b)
    (keeps : VlessMessageStream.Keeps ms ended
      (encodeAll 2 (accepted (view .b calls) ++ event.written?.toList)) False (events s.1.2) t.1)
    (explained : ∀ e, event.failure? = some e → Failed (events t.1.2) e) :
    ∃ ms' ended', Follows ms' ended' (calls ++ [(.a, event)]) t.1 := by
  have seen : accepted (view .b (calls ++ [(.a, event)])) =
      accepted (view .b calls) ++ event.written?.toList := by
    rw [view_concat, if_pos own, accepted_concat]
  refine ⟨ms ++ [], ended, follows.call ?_ ?_ ?_ fun e found => .inl (explained e found)⟩
  · rw [seen, List.append_nil]
    exact keeps
  · rw [view_concat, own]
    exact (List.append_nil _).symm
  · intro room same
    rw [same] at own
    cases own

theorem Follows.write (follows : Follows ms ended calls s.1) {message : Bytes}
    (fits : message.length ≤ 65535) :
    ∃ ms' ended', Follows ms' ended'
      (calls ++ [(.a, .write message (writeMessage inner message s).1)])
      (writeMessage inner message s).2.1 := by
  have after : VlessMessageStream.AfterCall _ _ _ _
    (.write message (writeMessage inner message s).1)
    (writeMessage inner message s).2.1 := writeMessage_after message follows.seen
  generalize writeMessage inner message s = r at after ⊢
  obtain ⟨answer, t⟩ := r
  have taken : (VlessMessageStream.Answer.write message answer).taken? =
      (MessageEvent.write message answer).written? := by
    rcases answer with _ | e | _ <;> rfl
  have keeps : VlessMessageStream.Keeps (ms ++ []) (ended.or none)
      (encodeAll 2 (accepted (view .b calls)) ++
        encodeAll 2 (VlessMessageStream.Answer.write message answer).taken?.toList) False
      (events s.1.2) t.1 := after.keeps.mono False.elim
  rw [List.append_nil, Option.or_none, taken, encodeAll, encodeAll, ← List.flatMap_append] at keeps
  refine follows.aside rfl keeps fun e found => ?_
  rcases answer with _ | e' | _
  · cases found
  · cases found
    exact after.explained.resolve_right fun large => absurd large.2 (Nat.not_lt.mpr fits)
  · cases found

/-- A call that writes no message, with its errors explained. -/
theorem Follows.unwritten {t : Association ω} (follows : Follows ms ended calls s.1)
    (own : direction .a event = .b) (nothing : event.written? = none)
    (keeps : VlessMessageStream.Keeps ms ended (encodeAll 2 (accepted (view .b calls))) False
      (events s.1.2) t.1)
    (explained : ∀ e, event.failure? = some e → Failed (events t.1.2) e) :
    ∃ ms' ended', Follows ms' ended' (calls ++ [(.a, event)]) t.1 := by
  refine follows.aside own ?_ explained
  rw [nothing, Option.toList_none, List.append_nil]
  exact keeps

section Failures

variable {e : IoError}

theorem error_of_flush {answer : Poll (IoResult Unit)}
    (found : (MessageEvent.flush answer).failure? = some e) : answer = .ready (.error e) := by
  rcases answer with _ | e' | _ <;> cases found
  rfl

theorem error_of_shutdown {answer : Poll (IoResult Unit)}
    (found : (MessageEvent.shutdown answer).failure? = some e) : answer = .ready (.error e) := by
  rcases answer with _ | e' | _ <;> cases found
  rfl

theorem error_of_ping {answer : Poll (IoResult Bool)}
    (found : (MessageEvent.ping answer).failure? = some e) : answer = .ready (.error e) := by
  rcases answer with _ | e' | _ <;> cases found
  rfl

end Failures

theorem closed_client (inner : AsyncStream ω) : Closed Followed (recorded (client inner) .a) where
  read w := by
    rintro ⟨ms, ended, follows⟩
    exact follows.read
  write message w fits := by
    rintro ⟨ms, ended, follows⟩
    exact follows.write fits
  flush w := by
    rintro ⟨ms, ended, follows⟩
    have after : VlessMessageStream.AfterFlush _ _ _ _ _ (flushMessage inner w.world).1
      (flushMessage inner w.world).2.1 := flushMessage_after follows.seen
    exact follows.unwritten rfl rfl (after.keeps.mono False.elim)
      fun e found => after.explained.failed (error_of_flush found)
  shutdown w := by
    rintro ⟨ms, ended, follows⟩
    have after : VlessMessageStream.AfterShutdown _ _ _ _ _ (shutdownMessage inner w.world).1
      (shutdownMessage inner w.world).2.1 := shutdownMessage_after follows.seen
    exact follows.unwritten rfl rfl after.keeps
      fun e found => after.explained.failed (error_of_shutdown found)
  ping _ w := by
    rintro ⟨ms, ended, follows⟩
    have after : VlessMessageStream.AfterPing _ _ _ _ _ (writePing inner w.world).1
      (writePing inner w.world).2.1 := writePing_after follows.seen
    exact follows.unwritten rfl rfl after.keeps fun e found =>
      after.explained e (error_of_ping found)

end Follows

end Association

end RustProxy.UdpRelay
