import RustProxy.Base.Transition
import RustProxy.Hysteria2.Destination
import RustProxy.Hysteria2.Sender

/-!
# Whom a reply is from

The receive task of a session labels every datagram it sends to the client. The
socket is not connected, so a packet may come from anywhere, but the label was
chosen when the session opened: a session that was opened by a location that
prints as its address labels each packet with the packet's own source, any other
one labels all packets with the location that opened it.

A task stands for its session. Beside the loop and its tasks stand the locations
that the client has used in each session; the first of them opened it.
-/

namespace RustProxy

/-- An IPv4-mapped IPv6 address is the IPv4 address it holds. -/
def SocketAddr.canonical : SocketAddr → SocketAddr
  | v4 ip port => v4 ip port
  | v6 ip port flowinfo scopeId =>
      match ip.toIpv4Mapped with
      | some ipv4 => v4 ipv4 port
      | none => v6 ip port flowinfo scopeId

namespace Hysteria2

/-- A packet that `try_recv_from` takes off a session's socket. -/
structure Received where
  srcAddr : SocketAddr
  payload : Bytes
  carried : payload.length < 2 ^ 16

/-- The loop and its receive tasks. A task counts its packets; `used` has the
locations of the datagrams that were handled in the task's session. -/
structure Exchange where
  loop : UdpLoop
  nextPacketId : Nat → UInt16
  used : Nat → List NetLocation

inductive ExchangeEvent where
  | iterate (it : Iteration)
  /-- A receive task takes a packet off its socket. -/
  | receives (i : Nat) (packet : Received)
  /-- A receive task returns: its token was cancelled, the socket failed, or the
  connection took no datagram. -/
  | taskEnds (i : Nat)
  | dropped
  | cancelParent

namespace Exchange

def initial (now : Nat) : Exchange where
  loop := UdpLoop.initial now
  nextPacketId := fun _ => 0
  used := fun _ => []

/-- The locations used in each session after a datagram, given the loop that is
about to handle it. -/
def usedAfter (resolve : Resolve) (s : Exchange) (it : Iteration) : Nat → List NetLocation :=
  match it.read with
  | .headed d =>
      match enterSession resolve (cleanUp s.loop it) it d with
      | .ok (session, _) => Function.update s.used session.cancelToken
          (s.used session.cancelToken ++ [d.remoteLocation])
      | .error _ => s.used
  | _ => s.used

/-- The round of a receive task for a packet. `maxDatagramSize` is what each
task was told when it started. -/
def round (maxDatagramSize : Nat → Nat) (s : Exchange) (i : Nat) (task : RecvTask)
    (packet : Received) : Round :=
  sendPacket (maxDatagramSize i) task.key (s.nextPacketId i)
    ⟨addressLabel task.label packet.srcAddr, packet.payload, packet.carried⟩

/-- The datagrams that a task sends to the client for a packet. -/
def replies (maxDatagramSize : Nat → Nat) (s : Exchange) (i : Nat) (packet : Received) :
    List Outgoing :=
  match s.loop.tasks[i]? with
  | some task =>
      match s.round maxDatagramSize i task packet with
      | .sends datagrams => datagrams
      | .failed _ | .asserts => []
  | none => []

end Exchange

def stepExchange (resolve : Resolve) (maxDatagramSize : Nat → Nat) (s : Exchange) :
    ExchangeEvent → Option Exchange
  | .iterate it => (step s.loop (.iterate resolve it)).map fun loop =>
      { s with loop, used := s.usedAfter resolve it }
  | .receives i packet =>
      match s.loop.tasks[i]? with
      | some task =>
          if task.ended then none
          else
            match s.round maxDatagramSize i task packet with
            | .sends _ => some
                { s with nextPacketId := Function.update s.nextPacketId i (s.nextPacketId i + 1) }
            -- the error, or the panic, ends the task
            | .failed _ | .asserts => (step s.loop (.taskEnds i)).map fun loop => { s with loop }
      | none => none
  | .taskEnds i => (step s.loop (.taskEnds i)).map fun loop => { s with loop }
  | .dropped => (step s.loop .dropped).map fun loop => { s with loop }
  | .cancelParent => (step s.loop .cancelParent).map fun loop => { s with loop }

/-- A label denotes a source: it is the source address, or a location among
those used whose address the source is. -/
def Denotes (resolve : Resolve) (used : List NetLocation) (label : Text) (srcAddr : SocketAddr) :
    Prop :=
  label = srcAddr.toText ∨ label = srcAddr.canonical.toText ∨
    ∃ location ∈ used, label = location.toText ∧
      (resolve location).map SocketAddr.canonical = some srcAddr.canonical

instance (resolve : Resolve) (used : List NetLocation) (label : Text) (srcAddr : SocketAddr) :
    Decidable (Denotes resolve used label srcAddr) :=
  inferInstanceAs (Decidable (_ ∨ _ ∨ _))

/-- Every datagram that goes to the client in this event is labelled with its
source. -/
def Attributed (resolve : Resolve) (maxDatagramSize : Nat → Nat) (s : Exchange) :
    ExchangeEvent → Prop
  | .receives i packet => ∀ o ∈ s.replies maxDatagramSize i packet,
      Denotes resolve (s.used i) o.address packet.srcAddr
  | _ => True

/-- A packet for which datagrams go to the client arrives in a session that was
opened by a location that prints as its address, or by one that denotes the
packet's source. -/
def OpenerFits (resolve : Resolve) (maxDatagramSize : Nat → Nat) (s : Exchange) :
    ExchangeEvent → Prop
  | .receives i packet => s.replies maxDatagramSize i packet ≠ [] →
      ∃ opener, (s.used i).head? = some opener ∧ (PrintsAsAddress resolve opener ∨
        Denotes resolve (s.used i) opener.toText packet.srcAddr)
  | _ => True

/-! ## The label of a task -/

/-- The task's label follows from the location that opened its session. -/
def LabelledBy (resolve : Resolve) (used : List NetLocation) (label : Option NetLocation) : Prop :=
  ∃ opener, used.head? = some opener ∧
    (label = none ∧ PrintsAsAddress resolve opener ∨
      label = some opener ∧ ¬PrintsAsAddress resolve opener)

/-- The labels of the tasks, which never change. -/
def UdpLoop.labels (s : UdpLoop) : List (Option NetLocation) := s.tasks.map (·.label)

/-- Every task has the label of its session, and a session's task is there. -/
structure Labelled (resolve : Resolve) (s : UdpLoop) (used : Nat → List NetLocation) : Prop where
  label : ∀ i label, s.labels[i]? = some label → LabelledBy resolve (used i) label
  token : ∀ k session, s.sessions.lookup k = some session → session.cancelToken < s.labels.length
  unused : ∀ i, s.labels.length ≤ i → used i = []

variable {resolve : Resolve} {maxDatagramSize : Nat → Nat} {s t : UdpLoop} {it : Iteration}
  {d : Datagram} {used : Nat → List NetLocation}

theorem LabelledBy.concat {used : List NetLocation} {label : Option NetLocation}
    (h : LabelledBy resolve used label) (location : NetLocation) :
    LabelledBy resolve (used ++ [location]) label := by
  obtain ⟨opener, first, fits⟩ := h
  refine ⟨opener, ?_, fits⟩
  rw [List.head?_append, first]
  rfl

/-- The label that a task is given when a location opens its session. -/
theorem labels_opening (s : UdpLoop) (it : Iteration) {addr : SocketAddr}
    (answer : resolve d.remoteLocation = some addr) :
    ∃ label, (opening s it d addr).2.map (·.label) = s.labels ++ [label] ∧
      LabelledBy resolve [d.remoteLocation] label := by
  by_cases prints : addr.toText = d.remoteLocation.toText
  · refine ⟨none, ?_, d.remoteLocation, rfl, .inl ⟨rfl, addr, answer, prints⟩⟩
    simp [opening, UdpSession.start, prints, UdpLoop.labels, Spawn.Task.fresh]
  · refine ⟨some d.remoteLocation, ?_, d.remoteLocation, rfl, .inr ⟨rfl, ?_⟩⟩
    · simp [opening, UdpSession.start, prints, UdpLoop.labels, Spawn.Task.fresh]
    · rintro ⟨other, answer', prints'⟩
      obtain rfl := Option.some.inj (answer.symm.trans answer')
      exact prints prints'

namespace Labelled

/-- A loop with the same labels and no new token. -/
theorem of_same (h : Labelled resolve s used) (labels : t.labels = s.labels)
    (tokens : ∀ k session, t.sessions.lookup k = some session →
      ∃ before, s.sessions.lookup k = some before ∧ session.cancelToken = before.cancelToken) :
    Labelled resolve t used where
  label := by
    rw [labels]
    exact h.label
  token := by
    intro k session found
    obtain ⟨before, present, same⟩ := tokens k session found
    rw [labels, same]
    exact h.token k before present
  unused := by
    rw [labels]
    exact h.unused

theorem cleanUp (h : Labelled resolve s used) (it : Iteration) :
    Labelled resolve (cleanUp s it) used := by
  refine h.of_same ?_ fun k session found => ⟨session, lookup_cleanUp found, rfl⟩
  unfold UdpLoop.labels Hysteria2.cleanUp
  split
  · exact Spawn.labels_cancel _ _
  · rfl

theorem leave (h : Labelled resolve s used) (status : LoopStatus) :
    Labelled resolve (s.leave status) used := by
  refine h.of_same rfl ?_
  intro k session found
  simp [UdpLoop.leave] at found

/-- A datagram adds its location to those of the session it enters. -/
theorem entered {session : UdpSession} (h : Labelled resolve s used)
    (entered : Entered resolve s it d session t) :
    Labelled resolve t (Function.update used session.cancelToken
      (used session.cancelToken ++ [d.remoteLocation])) := by
  cases entered with
  | present found =>
      have inside := h.token _ _ found
      refine ⟨fun i label present => ?_, h.token, fun i outside => ?_⟩
      · by_cases own : i = session.cancelToken
        · subst own
          rw [Function.update_self]
          exact (h.label _ label present).concat d.remoteLocation
        · rw [Function.update_of_ne own]
          exact h.label i label present
      · rw [Function.update_of_ne (by omega)]
        exact h.unused i outside
  | opened absent answer =>
      rename_i addr _
      obtain ⟨label, labels, labelled⟩ := labels_opening s it answer
      have token : (opening s it d addr).1.cancelToken = s.labels.length := by
        simp [opening, UdpSession.start, UdpLoop.labels]
      rw [token, h.unused _ (Nat.le_refl _), List.nil_append]
      -- the labels of the loop with the new task
      have length : (s.labels ++ [label]).length = s.labels.length + 1 := by simp
      refine ⟨fun i other present => ?_, fun k found present => ?_, fun i outside => ?_⟩
      · change ((opening s it d addr).2.map (·.label))[i]? = some other at present
        rw [labels] at present
        by_cases own : i = s.labels.length
        · subst own
          obtain rfl : label = other := by simpa using present
          rw [Function.update_self]
          exact labelled
        · have inside : i < s.labels.length := by
            have := (List.getElem?_eq_some_iff.mp present).1
            omega
          rw [Function.update_of_ne own]
          rw [List.getElem?_append_left inside] at present
          exact h.label i other present
      · change found.cancelToken < ((opening s it d addr).2.map (·.label)).length
        rw [labels, length]
        rcases Table.lookup_insert_eq_some.mp present with ⟨-, rfl⟩ | ⟨-, present⟩
        · omega
        · have := h.token k found present
          omega
      · change ((opening s it d addr).2.map (·.label)).length ≤ i at outside
        rw [labels, length] at outside
        rw [Function.update_of_ne (by omega)]
        exact h.unused i (by omega)

end Labelled

/-- After a datagram has entered a session, the rest of the iteration spawns no
task and gives no session another token. -/
theorem handleDatagram_of_entered {session : UdpSession}
    (entry : enterSession resolve s it d = .ok (session, t)) :
    (handleDatagram resolve s it d).1.labels = t.labels ∧
      ∀ k updated, (handleDatagram resolve s it d).1.sessions.lookup k = some updated →
        ∃ before, t.sessions.lookup k = some before ∧
          updated.cancelToken = before.cancelToken := by
  have present := (enterSession_ok_iff.mp entry).lookup
  have stored {final : UdpSession}
      (same : final.cancelToken = session.cancelToken) (k : UInt32) (updated : UdpSession)
      (found : (t.store d.sessionId final).sessions.lookup k = some updated) :
      ∃ before, t.sessions.lookup k = some before ∧ updated.cancelToken = before.cancelToken := by
    rcases Table.lookup_insert_eq_some.mp found with ⟨rfl, rfl⟩ | ⟨-, found⟩
    · exact ⟨session, present, same⟩
    · exact ⟨updated, found, rfl⟩
  unfold handleDatagram
  rw [entry]
  dsimp only
  cases result : reassemble session.fragments d with
  | error fault =>
      refine ⟨rfl, ?_⟩
      intro k updated found
      simp [UdpLoop.leave] at found
  | ok outcome =>
      obtain ⟨fragments, complete⟩ := outcome
      cases complete with
      | none => exact ⟨rfl, stored rfl⟩
      | some packet =>
          obtain ⟨payload, location⟩ := packet
          dsimp only
          cases chosen : destination resolve { session with fragments } location with
          | none => exact ⟨rfl, stored rfl⟩
          | some target =>
              obtain ⟨addr, updated⟩ := target
              dsimp only
              cases it.sendTo with
              | true => exact ⟨rfl, stored (destination_fragments chosen).2⟩
              | false =>
                  refine ⟨rfl, fun k other found => ⟨other, ?_, rfl⟩⟩
                  exact (Table.lookup_erase_eq_some.mp found).2

/-! ## Whole runs -/

variable {x y : Exchange}

theorem Labelled.iterate (h : Labelled resolve x.loop x.used) (it : Iteration) :
    Labelled resolve (Hysteria2.iterate resolve x.loop it).1 (x.usedAfter resolve it) := by
  have clean := h.cleanUp it
  unfold Hysteria2.iterate Exchange.usedAfter
  cases read : it.read with
  | failed => exact clean.leave .returned
  | ignored => exact clean
  | headed d =>
      dsimp only
      cases entry : enterSession resolve (Hysteria2.cleanUp x.loop it) it d with
      | error refusal =>
          unfold handleDatagram
          rw [entry]
          cases refusal with
          | unresolved => exact clean
          | noSocket => exact clean.leave .returned
      | ok entered =>
          obtain ⟨session, t⟩ := entered
          obtain ⟨labels, tokens⟩ := handleDatagram_of_entered entry
          exact (clean.entered (enterSession_ok_iff.mp entry)).of_same labels tokens

theorem Labelled.taskEnds (h : Labelled resolve s used) (i : Nat) :
    Labelled resolve { s with tasks := Spawn.finish i s.tasks } used :=
  h.of_same (Spawn.labels_finish i s.tasks) fun _ session found => ⟨session, found, rfl⟩

/-- The labels stay right along every run. -/
theorem Labelled.step {e : ExchangeEvent} (h : Labelled resolve x.loop x.used)
    (taken : stepExchange resolve maxDatagramSize x e = some y) :
    Labelled resolve y.loop y.used := by
  cases e with
  | iterate it =>
      obtain ⟨loop, ran, rfl⟩ := Option.map_eq_some_iff.mp taken
      simp only [Hysteria2.step, Option.ite_none_right_eq_some, Option.some.injEq] at ran
      obtain ⟨-, rfl⟩ := ran
      exact h.iterate it
  | receives i packet =>
      unfold stepExchange at taken
      dsimp only at taken
      split at taken
      · split at taken
        · cases taken
        · split at taken
          · obtain rfl := Option.some.inj taken
            exact h
          · obtain rfl := Option.some.inj taken
            exact h.taskEnds i
          · obtain rfl := Option.some.inj taken
            exact h.taskEnds i
      · cases taken
  | taskEnds i =>
      obtain rfl := Option.some.inj taken
      exact h.taskEnds i
  | dropped =>
      obtain ⟨loop, ran, rfl⟩ := Option.map_eq_some_iff.mp taken
      simp only [Hysteria2.step, Option.ite_none_right_eq_some, Option.some.injEq] at ran
      obtain ⟨-, rfl⟩ := ran
      exact h.leave .returned
  | cancelParent =>
      obtain ⟨loop, ran, rfl⟩ := Option.map_eq_some_iff.mp taken
      simp only [Hysteria2.step, Option.ite_none_right_eq_some, Option.some.injEq] at ran
      obtain ⟨-, rfl⟩ := ran
      refine h.of_same ?_ fun _ session found => ⟨session, found, rfl⟩
      simp [UdpLoop.labels]

/-- Every datagram of a round has the label of its packet. -/
theorem address_of_mem_sends {size : Nat} {sessionId : UInt32} {packetId : UInt16} {p : Packet}
    {datagrams : List Outgoing} (sends : sendPacket size sessionId packetId p = .sends datagrams)
    {o : Outgoing} (mem : o ∈ datagrams) : o.address = p.address := by
  unfold sendPacket at sends
  split at sends
  · cases sends
  · dsimp only at sends
    split at sends
    · cases sends
    · obtain rfl := Round.sends.inj sends
      exact address_of_mem_datagrams mem

/-- A packet's datagrams are labelled with its source exactly when the location
that opened the session fits the source. -/
theorem attributed_iff {e : ExchangeEvent} (h : Labelled resolve x.loop x.used) :
    Attributed resolve maxDatagramSize x e ↔ OpenerFits resolve maxDatagramSize x e := by
  cases e with
  | iterate | taskEnds | dropped | cancelParent => exact Iff.rfl
  | receives i packet =>
      show (∀ o ∈ x.replies maxDatagramSize i packet, _) ↔
        (x.replies maxDatagramSize i packet ≠ [] → _)
      cases present : x.loop.tasks[i]? with
      | none => simp [Exchange.replies, present]
      | some task =>
          cases sends : x.round maxDatagramSize i task packet with
          | failed | asserts => simp [Exchange.replies, present, sends]
          | sends datagrams =>
              have replies : x.replies maxDatagramSize i packet = datagrams := by
                simp only [Exchange.replies, present, sends]
              have address (o : Outgoing) (mem : o ∈ datagrams) :
                  o.address = addressLabel task.label packet.srcAddr :=
                address_of_mem_sends sends mem
              obtain ⟨opener, first, label⟩ := h.label i task.label (by
                simp [UdpLoop.labels, present])
              rw [replies]
              rcases label with ⟨own, prints⟩ | ⟨fixed, prints⟩
              · constructor
                · exact fun _ _ => ⟨opener, first, .inl prints⟩
                · intro _ o mem
                  rw [address o mem, own]
                  exact .inl rfl
              · constructor
                · intro attributed some_
                  obtain ⟨o, mem⟩ := List.exists_mem_of_ne_nil _ some_
                  have denotes := attributed o mem
                  rw [address o mem, fixed] at denotes
                  exact ⟨opener, first, .inr denotes⟩
                · intro fits o mem
                  obtain ⟨opener', first', fits⟩ := fits (List.ne_nil_of_mem mem)
                  obtain rfl := Option.some.inj (first.symm.trans first')
                  rw [address o mem, fixed]
                  exact fits.resolve_left prints

/-- Along every run the datagrams that go to the client are labelled with their
sources exactly when each of them comes through a session that was opened by a
location that prints as its address, or by one that denotes the source. -/
theorem replies_attributed_iff (resolve : Resolve) (maxDatagramSize : Nat → Nat) (now : Nat)
    (events : List ExchangeEvent) :
    Transition.Along (stepExchange resolve maxDatagramSize)
        (Attributed resolve maxDatagramSize) (.initial now) events ↔
      Transition.Along (stepExchange resolve maxDatagramSize)
        (OpenerFits resolve maxDatagramSize) (.initial now) events := by
  have start : Labelled resolve (Exchange.initial now).loop (Exchange.initial now).used := by
    refine ⟨fun i label present => ?_, fun k session found => ?_, fun i _ => rfl⟩
    · simp [Exchange.initial, UdpLoop.initial, UdpLoop.labels] at present
    · simp [Exchange.initial, UdpLoop.initial] at found
  exact Transition.along_congr (I := fun x => Labelled resolve x.loop x.used)
    (fun x e y h _ => attributed_iff h)
    (fun x e y h taken => h.step taken) start events

/-- A byte from a port of 9.9.9.9, as a dual-stack socket reports it. -/
def strangersByte : Received where
  srcAddr := .v6 ⟨#v[0, 0, 0, 0, 0, 0xffff, 0x909, 0x909]⟩ 1000 0 0
  payload := [7]
  carried := by simp

/-- A session that was opened by a hostname. -/
def namedSession : Option Exchange :=
  stepExchange oneHost (fun _ => 1200) (.initial 0) (.iterate (datagramTo ⟨.hostname ['a'], 53⟩))

/-- The client talks to a hostname only; what 9.9.9.9 sends to the session's
socket reaches it under that name. -/
theorem strangers_reply_misattributed :
    ¬Transition.Along (stepExchange oneHost fun _ => 1200) (Attributed oneHost fun _ => 1200)
      (.initial 0) [.iterate (datagramTo ⟨.hostname ['a'], 53⟩), .receives 0 strangersByte] := by
  intro all
  have opens : stepExchange oneHost (fun _ => 1200) (.initial 0)
      (.iterate (datagramTo ⟨.hostname ['a'], 53⟩)) =
        some (namedSession.get (by decide +kernel)) := (Option.some_get _).symm
  obtain ⟨-, rest⟩ := all _ opens
  have replies : (stepExchange oneHost (fun _ => 1200) (namedSession.get (by decide +kernel))
      (.receives 0 strangersByte)).isSome = true := by decide +kernel
  obtain ⟨attributed, -⟩ := rest _ (Option.some_get replies).symm
  have label : ∃ o ∈ (namedSession.get (by decide +kernel)).replies (fun _ => 1200) 0 strangersByte,
      o.address = ['a', ':', '5', '3'] := by decide +kernel
  obtain ⟨o, mem, address⟩ := label
  have denotes := attributed o mem
  rw [address] at denotes
  revert denotes
  decide +kernel

end Hysteria2

end RustProxy
