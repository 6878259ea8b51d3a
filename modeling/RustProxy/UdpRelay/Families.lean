import RustProxy.Base.Transition
import RustProxy.UdpRelay.Routing

/-!
# The address family of a session's socket

A session's socket is made for the family of the address that its destination
resolved to when the session was opened. Every later packet to the destination
is resolved again and goes through the same socket, whose family is not looked
at. As the resolver may answer a hostname with an address of the other family
in the meantime, `sends_match_family_iff` names what the sends depend on: the
answers for a destination stay in one family for as long as its session lives.
-/

namespace RustProxy.UdpRelay

/-- For every socket ever made, whether it was made for IPv6. -/
def Routing.families (s : Routing) : List Bool := s.tasks.map (·.label)

/-- Every `send_to` was called on a socket made for the family of its address. -/
def FamiliesMatch (s : Routing) : Prop :=
  ∀ send ∈ s.sends, s.families[send.socket]? = some send.addr.isIpv6

/-- When the resolver answers for a destination that has a session, the answer
is of the family for which the session was opened. -/
def AnswerKeepsFamily (s : Routing) : Event → Prop
  | .resolved (some addr) _ => ∀ destination payload session,
      s.await = .resolving destination payload → s.sessions.lookup destination = some session →
      s.families[session.cancel]? = some addr.isIpv6
  | _ => True

variable {s t : Routing}

@[simp, grind =] theorem families_cleanUp (now : Nat) : (s.cleanUp now).families = s.families := by
  unfold Routing.cleanUp
  split
  · exact Spawn.labels_cancel _ _
  · rfl

@[simp, grind =] theorem families_leaveLoop : s.leaveLoop.families = s.families :=
  Spawn.labels_cancel _ _

@[simp, grind =] theorem families_createSession (destination : NetLocation)
    (addr : SocketAddr) (now : Nat) :
    (s.createSession destination addr now).2.families = s.families ++ [addr.isIpv6] :=
  List.map_append

/-- A step that makes no call and no socket. -/
theorem FamiliesMatch.of_same (h : FamiliesMatch s) (families : t.families = s.families)
    (sends : t.sends = s.sends) : FamiliesMatch t := by
  intro send mem
  rw [families]
  rw [sends] at mem
  exact h send mem

/-- Sockets made later leave the earlier ones as they are. -/
theorem FamiliesMatch.createSession (h : FamiliesMatch s) (destination : NetLocation)
    (addr : SocketAddr) (now : Nat) : FamiliesMatch (s.createSession destination addr now).2 := by
  intro send mem
  have matches_ := h send mem
  rw [families_createSession]
  have made : send.socket < s.families.length := (List.getElem?_eq_some_iff.mp matches_).1
  rw [List.getElem?_append_left made, matches_]

theorem FamiliesMatch.forward {destination : NetLocation} {session : Session} {payload : Bytes}
    {addr : SocketAddr} {now : Nat} (h : FamiliesMatch s)
    (same : s.families[session.cancel]? = some addr.isIpv6) :
    FamiliesMatch (s.forward destination session payload addr now) := by
  intro send mem
  rcases List.mem_append.mp mem with earlier | last
  · exact h send earlier
  · obtain rfl := List.mem_singleton.mp last
    exact same

theorem FamiliesMatch.step {e : Event} (h : FamiliesMatch s) (keeps : AnswerKeepsFamily s e)
    (taken : step s e = some t) : FamiliesMatch t := by
  cases taken_of_step taken with
  | enter => exact h.of_same (families_cleanUp _) (sends_cleanUp _ _)
  | writeFailed | readFailed | closed => exact h.of_same families_leaveLoop rfl
  | known at_ found => exact h.forward (keeps _ _ _ at_ found)
  | created =>
      -- the new socket is the last one, and it is made for the address it first sends to
      apply (h.createSession _ _ _).forward
      rw [families_createSession]
      simp [Routing.createSession, Routing.families]
  | packetLate | receiveFails | seesCancellation => exact h.of_same (Spawn.labels_finish _ _) rfl
  | _ => exact h.of_same rfl rfl

/-- An answer of the other family is sent to through the socket there is. -/
theorem not_familiesMatch_of_answer {e : Event} (strays : ¬AnswerKeepsFamily s e)
    (taken : step s e = some t) : ¬FamiliesMatch t := by
  cases taken_of_step taken with
  | known at_ found =>
      intro matches_
      apply strays
      intro destination payload session at_' found'
      obtain ⟨rfl, rfl⟩ := Await.resolving.inj (at_.symm.trans at_')
      obtain rfl := Option.some.inj (found.symm.trans found')
      exact matches_ _ (List.mem_append_right _ List.mem_cons_self)
  | unknown at_ absent =>
      apply absurd _ strays
      intro destination payload session at_' found
      obtain ⟨rfl, rfl⟩ := Await.resolving.inj (at_.symm.trans at_')
      rw [absent] at found
      cases found
  | _ => exact absurd trivial strays

/-- Along a run every `send_to` is called on a socket of the right family,
exactly when the resolver never answers for a destination that has a session
with an address of the other family than the one the session was opened for. -/
theorem sends_match_family_iff (now : Nat) (events : List Event) :
    Transition.Always step FamiliesMatch (Routing.initial now) events ↔
      Transition.Along step AnswerKeepsFamily (Routing.initial now) events := by
  apply Transition.always_iff_along (I := FamiliesMatch)
  · exact fun s h => h
  · exact fun s e t h keeps taken => h.step keeps taken
  · exact fun s e t _ strays taken => not_familiesMatch_of_answer strays taken
  · intro send mem
    cases mem

/-- Two packets to a host that first has an IPv4 address and then, 61 s later,
an IPv6 one. -/
def movedHost : List Event :=
  let host : NetLocation := ⟨.hostname "h".toList, 53⟩
  [.enter 0, .read (some (host, [0])), .resolved (some (.v4 ⟨1, 2, 3, 4⟩ 53)) 0, .created true,
    .sent, .enter 0, .read (some (host, [1])),
    .resolved (some (.v6 ⟨Vector.replicate 8 1⟩ 53 0 0)) (seconds 61)]

/-- The second packet is sent to the IPv6 address on the IPv4 socket. -/
theorem moved_host_sent_on_wrong_socket :
    ¬Transition.Always step FamiliesMatch (Routing.initial 0) movedHost := by
  intro always
  have last : FamiliesMatch _ :=
    (((((((always.2 _ rfl).2 _ rfl).2 _ rfl).2 _ rfl).2 _ rfl).2 _ rfl).2 _ rfl).2 _ rfl
  have sent := last ⟨0, [1], .v6 ⟨Vector.replicate 8 1⟩ 53 0 0⟩
    (List.mem_append_right _ List.mem_cons_self)
  cases sent

end RustProxy.UdpRelay
