import RustProxy.Base.Permits
import RustProxy.Base.Transition

/-!
# The accept loops

`run_server` of `anytls/server.rs` and of `hysteria2.rs`, from the first turn of
their loops on: connections are accepted one after the other, each is handled in
a task of its own, and a semaphore keeps the number of these tasks within the
configured limit. A task holds its permit for as long as it runs, whichever way
it ends: by a handshake that fails or takes too long, by the end of its
connection, or by a panic.

The two loops take their steps in a different order. The AnyTLS loop waits for a
permit and accepts with the permit in hand, which it gives back when `accept`
fails. The Hysteria2 loop accepts first: a connection beyond the limit is
accepted and then kept waiting, one at a time.

On Ctrl+C `main` aborts the loops. Whatever a loop has in hand is dropped with
it; the connections go on.
-/

namespace RustProxy

/-- The semaphore of a server; 0 means that there is none. -/
def connectionPermits (maxConnections : UInt32) : Option Nat :=
  if 0 < maxConnections then some maxConnections.toNat else none

namespace AnyTls

/-- Where the task of an accepted connection is. -/
inductive ConnectionAt where
  | handshaking
  | handling
  | over
  deriving DecidableEq, Repr

def ConnectionAt.isOpen : ConnectionAt → Bool
  | .handshaking | .handling => true
  | .over => false

/-- Where the accept loop is. -/
inductive AcceptAt where
  | acquiring
  | accepting
  | aborted
  deriving DecidableEq, Repr

structure Listener where
  permits : Option Nat
  accept : AcceptAt
  connections : List ConnectionAt
  deriving DecidableEq

inductive ListenerEvent where
  /-- `acquire_owned` returns -/
  | permitted
  | accepted
  | acceptFailed
  /-- the handshake of a connection succeeds, or fails or times out -/
  | handshake (i : Nat) (ok : Bool)
  /-- `handle_connection` returns or panics -/
  | handled (i : Nat)
  | aborted
  deriving DecidableEq, Repr

namespace Listener

def start (maxConnections : UInt32) : Listener where
  permits := connectionPermits maxConnections
  accept := .acquiring
  connections := []

/-- The task of a connection ends, and its permit is dropped with it. -/
def finish (s : Listener) (i : Nat) : Listener :=
  { s with permits := Permits.release s.permits, connections := s.connections.set i .over }

def step (s : Listener) : ListenerEvent → Option Listener
  | .permitted =>
      if s.accept = .acquiring then
        (Permits.acquire s.permits).map fun permits => { s with permits, accept := .accepting }
      else none
  | .accepted =>
      if s.accept = .accepting then
        some { s with accept := .acquiring, connections := s.connections ++ [.handshaking] }
      else none
  | .acceptFailed =>
      if s.accept = .accepting then
        some { s with permits := Permits.release s.permits, accept := .acquiring }
      else none
  | .handshake i ok =>
      if s.connections[i]? = some .handshaking then
        some (if ok then { s with connections := s.connections.set i .handling } else s.finish i)
      else none
  | .handled i => if s.connections[i]? = some .handling then some (s.finish i) else none
  | .aborted =>
      match s.accept with
      | .acquiring => some { s with accept := .aborted }
      | .accepting => some { s with permits := Permits.release s.permits, accept := .aborted }
      | .aborted => none

/-- The connections that are being handled. -/
def opened (s : Listener) : Nat := s.connections.countP ConnectionAt.isOpen

/-- The permit that the accept loop has in hand. -/
def inHand (s : Listener) : Nat := if s.accept = .accepting then 1 else 0

/-- The limit is kept, the loop is kept waiting only at the limit, and no permit
is lost. -/
structure Limited (maxConnections : UInt32) (s : Listener) : Prop where
  most : 0 < maxConnections → s.opened + s.inHand ≤ maxConnections.toNat
  waits : s.accept = .acquiring → (s.step .permitted = none ↔
    0 < maxConnections ∧ s.opened = maxConnections.toNat)
  back : s.opened + s.inHand = 0 → s.permits = connectionPermits maxConnections

/-- Every permit is left, with a connection, or with the accept loop. -/
def Accounted (maxConnections : UInt32) (s : Listener) : Prop :=
  Permits.Balanced (connectionPermits maxConnections) s.permits (s.opened + s.inHand)

variable {maxConnections : UInt32} {s t : Listener} {event : ListenerEvent}

theorem accounted_start (maxConnections : UInt32) :
    Accounted maxConnections (start maxConnections) :=
  Permits.balanced_new (connectionPermits maxConnections)

theorem Accounted.limited (h : Accounted maxConnections s) : Limited maxConnections s where
  most some_ := h.held_le (if_pos some_)
  waits at_ := by
    have hand : s.inHand = 0 := by simp [inHand, at_]
    rw [step, if_pos at_, Option.map_eq_none_iff, h.acquire_eq_none_iff, hand, Nat.add_zero,
      connectionPermits]
    by_cases some_ : 0 < maxConnections
    · simp [some_, eq_comm]
    · simp [some_]
  back none_ := by
    rw [Accounted, none_] at h
    exact h.eq_of_none_held

/-- The task of a connection gives its permit back as it ends. -/
theorem Accounted.finish {i : Nat} {at_ : ConnectionAt} (h : Accounted maxConnections s)
    (found : s.connections[i]? = some at_) (opens : at_.isOpen = true) :
    Accounted maxConnections (s.finish i) := by
  have count := Permits.countP_set_of_holds (y := ConnectionAt.over) found opens rfl
  have held : s.opened + s.inHand = (s.finish i).opened + (s.finish i).inHand + 1 := by
    show s.connections.countP _ + s.inHand = (s.connections.set i .over).countP _ + s.inHand + 1
    omega
  rw [Accounted, held] at h
  exact h.release

theorem Accounted.step (h : Accounted maxConnections s) (taken : s.step event = some t) :
    Accounted maxConnections t := by
  unfold Accounted at h
  cases event with
  | permitted =>
      obtain ⟨at_, taken⟩ := Option.ite_none_right_eq_some.mp taken
      obtain ⟨permits, got, rfl⟩ := Option.map_eq_some_iff.mp taken
      have hand : s.inHand = 0 := by simp [inHand, at_]
      rw [hand] at h
      exact h.acquire got
  | accepted =>
      obtain ⟨at_, taken⟩ := Option.ite_none_right_eq_some.mp taken
      obtain rfl := Option.some.inj taken
      have hand : s.inHand = 1 := by simp [inHand, at_]
      have count : (s.connections ++ [ConnectionAt.handshaking]).countP ConnectionAt.isOpen =
          s.opened + 1 := by
        rw [List.countP_append]
        rfl
      rw [hand] at h
      show Permits.Balanced _ s.permits (List.countP _ (s.connections ++ [.handshaking]) + 0)
      rwa [count]
  | acceptFailed =>
      obtain ⟨at_, taken⟩ := Option.ite_none_right_eq_some.mp taken
      obtain rfl := Option.some.inj taken
      have hand : s.inHand = 1 := by simp [inHand, at_]
      rw [hand] at h
      exact h.release
  | handshake i ok =>
      obtain ⟨found, taken⟩ := Option.ite_none_right_eq_some.mp taken
      obtain rfl := Option.some.inj taken
      split
      · have count : (s.connections.set i .handling).countP ConnectionAt.isOpen = s.opened :=
          Permits.countP_set_of_eq found rfl
        show Permits.Balanced _ s.permits (List.countP _ (s.connections.set i .handling) + s.inHand)
        rwa [count]
      · exact Accounted.finish h found rfl
  | handled i =>
      obtain ⟨found, taken⟩ := Option.ite_none_right_eq_some.mp taken
      exact Option.some.inj taken ▸ Accounted.finish h found rfl
  | aborted =>
      simp only [Listener.step] at taken
      split at taken
      case h_1 at_ =>
        obtain rfl := Option.some.inj taken
        have hand : s.inHand = 0 := by simp [inHand, at_]
        rw [hand] at h
        exact h
      case h_2 at_ =>
        obtain rfl := Option.some.inj taken
        have hand : s.inHand = 1 := by simp [inHand, at_]
        rw [hand] at h
        exact h.release
      case h_3 => cases taken

/-- The AnyTLS server handles no more connections at a time than it may, makes a
client wait only when it handles that many, and has all its permits back when
all its connections are over. -/
theorem listener_limited (maxConnections : UInt32) (events : List ListenerEvent) :
    Transition.Always step (Limited maxConnections) (start maxConnections) events :=
  Transition.always_of_invariant (fun _ => Accounted.limited) (fun _ _ _ => Accounted.step)
    (accounted_start maxConnections) events

end Listener

end AnyTls

namespace Hysteria2

/-- Where the accept loop is: waiting for a connection, or for the permit of one
that it has accepted. -/
inductive AcceptAt where
  | accepting
  | acquiring
  /-- the endpoint was closed, or the loop aborted -/
  | stopped
  deriving DecidableEq, Repr

structure Endpoint where
  permits : Option Nat
  accept : AcceptAt
  /-- whether the `process_connection` of each connection still runs -/
  connections : List Bool
  deriving DecidableEq

inductive EndpointEvent where
  | incoming
  | closed
  | permitted
  /-- `process_connection` returns or panics -/
  | processed (i : Nat)
  | aborted
  deriving DecidableEq, Repr

namespace Endpoint

def start (maxConnections : UInt32) : Endpoint where
  permits := connectionPermits maxConnections
  accept := .accepting
  connections := []

def step (s : Endpoint) : EndpointEvent → Option Endpoint
  | .incoming => if s.accept = .accepting then some { s with accept := .acquiring } else none
  | .closed => if s.accept = .accepting then some { s with accept := .stopped } else none
  | .permitted =>
      if s.accept = .acquiring then
        (Permits.acquire s.permits).map fun permits =>
          { permits, accept := .accepting, connections := s.connections ++ [true] }
      else none
  | .processed i =>
      if s.connections[i]? = some true then
        some { s with
          permits := Permits.release s.permits
          connections := s.connections.set i false }
      else none
  | .aborted => if s.accept = .stopped then none else some { s with accept := .stopped }

/-- The connections that are being processed. -/
def processing (s : Endpoint) : Nat := s.connections.countP id

/-- The connections that were accepted and are not over. -/
def admitted (s : Endpoint) : Nat := s.processing + if s.accept = .acquiring then 1 else 0

/-- The limit is kept for what is processed; one more is admitted, and waits only
at the limit. No permit is lost. -/
structure Limited (maxConnections : UInt32) (s : Endpoint) : Prop where
  most : 0 < maxConnections → s.processing ≤ maxConnections.toNat
  admits : 0 < maxConnections → s.admitted ≤ maxConnections.toNat + 1
  waits : s.accept = .acquiring → (s.step .permitted = none ↔
    0 < maxConnections ∧ s.processing = maxConnections.toNat)
  back : s.processing = 0 → s.permits = connectionPermits maxConnections

/-- Every permit is left or with a connection. -/
def Accounted (maxConnections : UInt32) (s : Endpoint) : Prop :=
  Permits.Balanced (connectionPermits maxConnections) s.permits s.processing

variable {maxConnections : UInt32} {s t : Endpoint} {event : EndpointEvent}

theorem accounted_start (maxConnections : UInt32) :
    Accounted maxConnections (start maxConnections) :=
  Permits.balanced_new (connectionPermits maxConnections)

theorem Accounted.limited (h : Accounted maxConnections s) : Limited maxConnections s where
  most some_ := h.held_le (if_pos some_)
  admits some_ := by
    have most := h.held_le (if_pos some_)
    rw [admitted]
    split <;> omega
  waits at_ := by
    rw [step, if_pos at_, Option.map_eq_none_iff, h.acquire_eq_none_iff, connectionPermits]
    by_cases some_ : 0 < maxConnections
    · simp [some_, eq_comm]
    · simp [some_]
  back none_ := by
    rw [Accounted, none_] at h
    exact h.eq_of_none_held

theorem Accounted.step (h : Accounted maxConnections s) (taken : s.step event = some t) :
    Accounted maxConnections t := by
  unfold Accounted at h
  cases event with
  | incoming | closed =>
      obtain ⟨-, taken⟩ := Option.ite_none_right_eq_some.mp taken
      exact Option.some.inj taken ▸ h
  | permitted =>
      obtain ⟨-, taken⟩ := Option.ite_none_right_eq_some.mp taken
      obtain ⟨permits, got, rfl⟩ := Option.map_eq_some_iff.mp taken
      have count : (s.connections ++ [true]).countP id = s.processing + 1 := by
        rw [List.countP_append]
        rfl
      show Permits.Balanced _ permits (List.countP _ (s.connections ++ [true]))
      rw [count]
      exact h.acquire got
  | processed i =>
      obtain ⟨found, taken⟩ := Option.ite_none_right_eq_some.mp taken
      obtain rfl := Option.some.inj taken
      have count : (s.connections.set i false).countP id + 1 = s.connections.countP id :=
        Permits.countP_set_of_holds found rfl rfl
      rw [processing, ← count] at h
      exact h.release
  | aborted =>
      obtain ⟨-, taken⟩ := Option.ite_none_left_eq_some.mp taken
      exact Option.some.inj taken ▸ h

/-- Connections that come in one after the other and do not end. -/
def rush (n : Nat) : List EndpointEvent :=
  (List.replicate n [EndpointEvent.incoming, .permitted]).flatten

theorem rush_admits {n left : Nat} (connections : List Bool) (enough : n ≤ left) :
    (rush n).foldlM step ⟨some left, .accepting, connections⟩ =
      some ⟨some (left - n), .accepting, connections ++ List.replicate n true⟩ := by
  induction n generalizing left connections with
  | zero => simp [rush]
  | succ n ih =>
      obtain ⟨left, rfl⟩ : ∃ k, left = k + 1 := ⟨left - 1, by omega⟩
      have rest := ih (connections ++ [true]) (show n ≤ left by omega)
      rw [rush, List.replicate_succ, List.flatten_cons, List.foldlM_append]
      refine Eq.trans rest ?_
      rw [List.append_assoc, List.singleton_append, ← List.replicate_succ, Nat.succ_sub_succ]

/-- The Hysteria2 server processes no more connections at a time than it may, and
admits one more, which waits for the first of them to end; it does admit that
many. -/
theorem endpoint_limited (maxConnections : UInt32) :
    (∀ events, Transition.Always step (Limited maxConnections) (start maxConnections) events) ∧
      (maxConnections = 0 ∨ ∃ (events : List EndpointEvent) (s : Endpoint),
        events.foldlM step (start maxConnections) = some s ∧
          s.admitted = maxConnections.toNat + 1) := by
  constructor
  · intro events
    exact Transition.always_of_invariant (fun _ => Accounted.limited) (fun _ _ _ => Accounted.step)
      (accounted_start maxConnections) events
  · by_cases none_ : maxConnections = 0
    · exact .inl none_
    · have some_ : 0 < maxConnections := UInt32.pos_iff_ne_zero.mpr none_
      refine .inr ⟨rush maxConnections.toNat ++ [.incoming],
        ⟨some 0, .acquiring, List.replicate maxConnections.toNat true⟩, ?_, ?_⟩
      · rw [List.foldlM_append, start, connectionPermits, if_pos some_,
          rush_admits [] (Nat.le_refl _), Nat.sub_self, List.nil_append]
        rfl
      · simp [admitted, processing, List.countP_replicate]

end Endpoint

end Hysteria2

end RustProxy
