import RustProxy.Base.Leases
import RustProxy.Base.Transition
import RustProxy.UdpRelay.Families

/-!
# One socket for each destination

`run_udp_routing` is there to send the packets of a client with one UDP socket
for each destination, so that a destination sees the client at one address and
its responses come back through the socket it was sent to from. A socket stays
with its destination until the clean-up pass finds it unused for longer than
`ASSOCIATION_TIMEOUT`.

`Timed` is the future under a monotone clock, beside the uses it made of its
sockets. The sessions are leases of sockets, in the sense of `Leases`.
-/

namespace RustProxy.UdpRelay

open Leases (Kept Leased Idle)

/-- A `send_to` for a destination, by the socket and the time. -/
abbrev Use := Leases.Use NetLocation Nat

/-- The clock reading of an event. -/
def Event.reading? : Event → Option Nat
  | .enter now => some now
  | .resolved _ now => some now
  | _ => none

/-- The use of a socket that a step makes. -/
def Routing.use? (s : Routing) : Event → Option Use
  | .resolved (some _) now =>
      match s.await with
      | .resolving destination _ =>
          (s.sessions.lookup destination).map fun session => ⟨destination, session.cancel, now⟩
      | _ => none
  | .created true =>
      match s.await with
      | .creating destination _ _ now => some ⟨destination, s.tasks.length, now⟩
      | _ => none
  | _ => none

structure Timed where
  routing : Routing
  clock : Nat
  uses : List Use

def Timed.initial (now : Nat) : Timed := ⟨.initial now, now, []⟩

/-- A step under a monotone clock. -/
def timedStep (s : Timed) (e : Event) : Option Timed :=
  let clock := e.reading?.getD s.clock
  if s.clock ≤ clock then
    (step s.routing e).map fun routing => ⟨routing, clock, s.uses ++ (s.routing.use? e).toList⟩
  else none

/-- The uses are the calls of `send_to`. A socket is used for one destination
only, and a destination keeps its socket unless the timeout passes unused. -/
structure OneSocketEach (s : Timed) : Prop where
  calls : s.uses.map Leases.Use.resource = s.routing.sends.map SendTo.socket
  own : ∀ use ∈ s.uses, ∀ other ∈ s.uses, use.resource = other.resource → use.key = other.key
  kept : Kept ASSOCIATION_TIMEOUT s.uses

/-- A clean-up pass ends the sessions whose destination was not sent to during
the timeout, and no others. -/
def EndsIdle (s : Timed) : Event → Prop
  | .enter now => seconds 10 ≤ now - s.routing.lastCleanup →
      ∀ destination session, s.routing.sessions.lookup destination = some session →
        ((s.routing.cleanUp now).sessions.lookup destination = none ↔
          Idle ASSOCIATION_TIMEOUT now s.uses destination)
  | _ => True

/-- The sessions as leases. -/
def Routing.lease (s : Routing) (destination : NetLocation) : Option (Nat × Nat) :=
  (s.sessions.lookup destination).map fun session => (session.cancel, session.lastActivity)

/-- The future has left its loop, or was dropped. -/
def Await.Left (await : Await) : Prop := await = .shuttingDown ∨ await = .ended

/-- Uses, sockets and sessions belong together. -/
structure Tracked (s : Timed) : Prop where
  calls : s.uses.map Leases.Use.resource = s.routing.sends.map SendTo.socket
  made : ∀ use ∈ s.uses, ∃ task, s.routing.tasks[use.resource]? = some task ∧ task.key = use.key
  kept : Kept ASSOCIATION_TIMEOUT s.uses
  leased : ¬s.routing.await.Left → Leased ASSOCIATION_TIMEOUT s.clock s.routing.lease s.uses
  creating : ∀ destination payload addr now,
    s.routing.await = .creating destination payload addr now →
      now = s.clock ∧ s.routing.sessions.lookup destination = none

variable {s t : Timed} {e : Event}

theorem Tracked.oneSocketEach (h : Tracked s) : OneSocketEach s where
  calls := h.calls
  own use mem other mem' same := by
    obtain ⟨task, get, own⟩ := h.made use mem
    obtain ⟨task', get', own'⟩ := h.made other mem'
    rw [same, get'] at get
    rw [← own, ← own', Option.some.inj get]
  kept := h.kept

theorem lookup_cleanUp_eq_none_iff {r : Routing} {now : Nat} {destination : NetLocation}
    {session : Session} (due : seconds 10 ≤ now - r.lastCleanup)
    (found : r.sessions.lookup destination = some session) :
    (r.cleanUp now).sessions.lookup destination = none ↔
      ASSOCIATION_TIMEOUT < now - session.lastActivity := by
  rw [Routing.cleanUp, if_pos due]
  constructor
  · intro removed
    by_contra recent
    have kept : (r.sessions.retain (Routing.isActive now)).lookup destination = some session :=
      Table.lookup_retain_eq_some.mpr ⟨found, by simp [Routing.isActive, recent]⟩
    cases removed.symm.trans kept
  · intro idle
    by_contra present
    obtain ⟨kept, kept_⟩ := Option.ne_none_iff_exists'.mp present
    obtain ⟨same, active⟩ := Table.lookup_retain_eq_some.mp kept_
    obtain rfl := Option.some.inj (found.symm.trans same)
    simp [Routing.isActive, idle] at active

theorem lease_of_lookup {r : Routing} {destination : NetLocation} {session : Session}
    (found : r.sessions.lookup destination = some session) :
    r.lease destination = some (session.cancel, session.lastActivity) := by
  rw [Routing.lease, found]
  rfl

/-- A clean-up pass ends leases that are past the timeout. -/
theorem lease_cleanUp (r : Routing) (now : Nat) (destination : NetLocation) :
    (r.cleanUp now).lease destination = r.lease destination ∨
      (r.cleanUp now).lease destination = none ∧ ∃ socket time,
        r.lease destination = some (socket, time) ∧ ASSOCIATION_TIMEOUT < now - time := by
  by_cases due : seconds 10 ≤ now - r.lastCleanup
  · cases found : r.sessions.lookup destination with
    | none =>
        left
        have absent : (r.cleanUp now).sessions.lookup destination = none := by
          rw [Routing.cleanUp, if_pos due, Option.eq_none_iff_forall_ne_some]
          intro session present
          rw [(Table.lookup_retain_eq_some.mp present).1] at found
          cases found
        rw [Routing.lease, Routing.lease, absent, found]
    | some session =>
        cases cleaned : (r.cleanUp now).sessions.lookup destination with
        | none =>
            right
            refine ⟨by rw [Routing.lease, cleaned]; rfl, _, _, lease_of_lookup found, ?_⟩
            exact (lookup_cleanUp_eq_none_iff due found).mp cleaned
        | some kept =>
            left
            have same : r.sessions.lookup destination = some kept := by
              rw [Routing.cleanUp, if_pos due] at cleaned
              exact (Table.lookup_retain_eq_some.mp cleaned).1
            rw [lease_of_lookup cleaned, lease_of_lookup same]
  · left
    rw [Routing.cleanUp, if_neg due]

theorem timedStep_cases (taken : timedStep s e = some t) :
    s.clock ≤ t.clock ∧ step s.routing e = some t.routing ∧
      t.clock = e.reading?.getD s.clock ∧ t.uses = s.uses ++ (s.routing.use? e).toList := by
  obtain ⟨monotone, mapped⟩ := Option.ite_none_right_eq_some.mp taken
  obtain ⟨routing, ran, rfl⟩ := Option.map_eq_some_iff.mp mapped
  exact ⟨monotone, ran, rfl, rfl⟩

theorem Tracked.endsIdle (h : Tracked s) (taken : timedStep s e = some t) : EndsIdle s e := by
  cases e with
  | enter now =>
      intro due destination session found
      obtain ⟨-, ran, -⟩ := timedStep_cases taken
      have inside : ¬s.routing.await.Left := by
        generalize t.routing = routing at ran
        cases taken_of_step ran with
        | enter at_ => simp [Await.Left, at_]
      rw [lookup_cleanUp_eq_none_iff due found]
      exact ((h.leased inside).idle_iff (lease_of_lookup found)).symm
  | _ => trivial

/-! ## The steps -/

/-- The tasks are still those for the same destinations. -/
def SameKeys (before after : List RecvLoop) : Prop :=
  ∀ (i : Nat) (task : RecvLoop), before[i]? = some task →
    ∃ task', after[i]? = some task' ∧ task'.key = task.key

theorem sameKeys_refl (tasks : List RecvLoop) : SameKeys tasks tasks := by
  intro i task get
  exact ⟨task, get, rfl⟩

theorem sameKeys_cancel (tokens : List Nat) (tasks : List RecvLoop) :
    SameKeys tasks (Spawn.cancel tokens tasks) := by
  intro i task get
  refine ⟨_, Spawn.getElem?_cancel.mpr ⟨task, get, rfl⟩, ?_⟩
  split <;> rfl

theorem sameKeys_finish (i : Nat) (tasks : List RecvLoop) :
    SameKeys tasks (Spawn.finish i tasks) := by
  intro j task get
  refine ⟨_, Spawn.getElem?_finish.mpr ⟨task, get, rfl⟩, ?_⟩
  split <;> rfl

theorem sameKeys_cleanUp (r : Routing) (now : Nat) : SameKeys r.tasks (r.cleanUp now).tasks := by
  unfold Routing.cleanUp
  split
  · exact sameKeys_cancel _ _
  · exact sameKeys_refl _

theorem sameKeys_concat (tasks : List RecvLoop) (task : RecvLoop) :
    SameKeys tasks (tasks ++ [task]) := by
  intro i earlier get
  have inside := (List.getElem?_eq_some_iff.mp get).1
  exact ⟨earlier, (List.getElem?_append_left inside).trans get, rfl⟩

section Forward

variable {r : Routing} {destination other : NetLocation} {session : Session} {payload : Bytes}
  {addr : SocketAddr} {now : Nat}

@[simp] theorem lease_forward_self (r : Routing) :
    (r.forward destination session payload addr now).lease destination =
      some (session.cancel, now) := by
  rw [Routing.lease, Routing.forward, AList.lookup_insert]
  rfl

theorem lease_forward_ne (ne : other ≠ destination) :
    (r.forward destination session payload addr now).lease other = r.lease other := by
  rw [Routing.lease, Routing.forward, AList.lookup_insert_ne ne, Routing.lease]

end Forward

/-- A step that uses no socket. Leases may end, or the loop be left. -/
theorem Tracked.unused (h : Tracked s) (uses : t.uses = s.uses)
    (sends : t.routing.sends = s.routing.sends) (keys : SameKeys s.routing.tasks t.routing.tasks)
    (leased : ¬t.routing.await.Left → Leased ASSOCIATION_TIMEOUT t.clock t.routing.lease t.uses)
    (creating : ∀ destination payload addr now,
      t.routing.await = .creating destination payload addr now →
        now = t.clock ∧ t.routing.sessions.lookup destination = none) : Tracked t where
  calls := by rw [uses, sends, h.calls]
  made use mem := by
    rw [uses] at mem
    obtain ⟨task, get, own⟩ := h.made use mem
    obtain ⟨task', get', same⟩ := keys _ _ get
    exact ⟨task', get', same.trans own⟩
  kept := by
    rw [uses]
    exact h.kept
  leased := leased
  creating := creating

/-- A step of a task, beside the future. -/
theorem Tracked.aside (h : Tracked s) (clock : t.clock = s.clock) (uses : t.uses = s.uses)
    (sends : t.routing.sends = s.routing.sends) (keys : SameKeys s.routing.tasks t.routing.tasks)
    (sessions : t.routing.sessions = s.routing.sessions)
    (await : t.routing.await = s.routing.await) : Tracked t := by
  have lease : t.routing.lease = s.routing.lease := by
    funext destination
    rw [Routing.lease, Routing.lease, sessions]
  refine h.unused uses sends keys ?_ ?_
  · rw [await, clock, lease, uses]
    exact h.leased
  · rw [await, clock, sessions]
    exact h.creating

/-- A step inside the loop that keeps the sessions. -/
theorem Tracked.goesOn (h : Tracked s) (inside : ¬s.routing.await.Left) (later : s.clock ≤ t.clock)
    (uses : t.uses = s.uses) (sends : t.routing.sends = s.routing.sends)
    (keys : SameKeys s.routing.tasks t.routing.tasks)
    (sessions : t.routing.sessions = s.routing.sessions)
    (creating : ∀ destination payload addr now,
      t.routing.await = .creating destination payload addr now →
        now = t.clock ∧ t.routing.sessions.lookup destination = none) : Tracked t := by
  refine h.unused uses sends keys ?_ creating
  intro _
  rw [uses]
  refine (h.leased inside).expire later ?_
  intro destination
  left
  rw [Routing.lease, Routing.lease, sessions]

/-- A `send_to`, on the socket there was or on one that was made for it. -/
theorem Tracked.sends (h : Tracked s) {destination : NetLocation} {session : Session}
    {payload : Bytes} {addr : SocketAddr} {r : Routing}
    (routing : t.routing = r.forward destination session payload addr t.clock)
    (uses : t.uses = s.uses ++ [⟨destination, session.cancel, t.clock⟩])
    (sends : r.sends = s.routing.sends) (keys : SameKeys s.routing.tasks r.tasks)
    (made : ∃ task, r.tasks[session.cancel]? = some task ∧ task.key = destination)
    (leased : Leased ASSOCIATION_TIMEOUT t.clock t.routing.lease
      (s.uses ++ [⟨destination, session.cancel, t.clock⟩])) : Tracked t where
  calls := by
    rw [uses, routing, Routing.forward, List.map_append, List.map_append, sends, h.calls]
    rfl
  made use mem := by
    rw [uses] at mem
    rw [routing]
    rcases List.mem_append.mp mem with earlier | last
    · obtain ⟨task, get, own⟩ := h.made use earlier
      obtain ⟨task', get', same⟩ := keys _ _ get
      exact ⟨task', get', same.trans own⟩
    · rw [List.mem_singleton.mp last]
      exact made
  kept := by
    rw [uses]
    exact leased.kept
  leased _ := by
    rw [uses]
    exact leased
  creating destination payload addr now at_ := by
    rw [routing] at at_
    cases at_

theorem Tracked.step (h : Tracked s) (taken : timedStep s e = some t) : Tracked t := by
  obtain ⟨later, ran, clock, uses⟩ := timedStep_cases taken
  obtain ⟨routing, clock_, uses_⟩ := t
  dsimp only at later ran clock uses
  subst uses
  cases taken_of_step ran with
  | @enter now at_ =>
      obtain rfl : clock_ = now := clock
      refine h.unused (List.append_nil _) (sends_cleanUp _ _) (sameKeys_cleanUp _ _) ?_ ?_
      · intro _
        have inside : ¬s.routing.await.Left := by simp [Await.Left, at_]
        have leased := (h.leased inside).expire later (lease_cleanUp s.routing clock_)
        rw [← List.append_nil s.uses] at leased
        exact leased
      · intro destination payload addr now at_
        cases at_
  | response at_ | wrote at_ | read at_ | sent at_ =>
      refine h.goesOn (by simp [Await.Left, at_]) later (List.append_nil _) rfl
        (sameKeys_refl _) rfl ?_
      intro destination payload addr now at_
      cases at_
  | noSocket at_ | unresolved at_ =>
      refine h.goesOn (by simp [Await.Left, at_]) later (List.append_nil _) rfl
        (sameKeys_refl _) rfl ?_
      intro destination payload addr now at_
      cases at_
  | @unknown destination payload addr now at_ absent =>
      obtain rfl : clock_ = now := clock
      refine h.goesOn (by simp [Await.Left, at_]) later ?_ rfl (sameKeys_refl _) rfl ?_
      · simp [Routing.use?, at_, absent]
      · intro destination payload addr now at_
        cases at_
        exact ⟨rfl, absent⟩
  | writeFailed | readFailed | closed =>
      refine h.unused (List.append_nil _) rfl (sameKeys_cancel _ _)
        (fun inside => absurd (.inl rfl) inside) ?_
      intro destination payload addr now at_
      cases at_
  | shutDown =>
      refine h.unused (List.append_nil _) rfl (sameKeys_refl _)
        (fun inside => absurd (.inr rfl) inside) ?_
      intro destination payload addr now at_
      cases at_
  | dropped =>
      refine h.unused (List.append_nil _) rfl (sameKeys_refl _)
        (fun inside => absurd (.inr rfl) inside) ?_
      intro destination payload addr now at_
      cases at_
  | packet =>
      exact h.aside (t := ⟨_, clock_, _⟩) clock (List.append_nil _) rfl (sameKeys_refl _) rfl rfl
  | packetLate | receiveFails | seesCancellation =>
      exact h.aside (t := ⟨_, clock_, _⟩) clock (List.append_nil _) rfl (sameKeys_finish _ _) rfl
        rfl
  | @known destination payload addr now session at_ found =>
      obtain rfl : clock_ = now := clock
      have leased := h.leased (by simp [Await.Left, at_])
      have use : s.routing.use? (.resolved (some addr) clock_) =
          some ⟨destination, session.cancel, clock_⟩ := by
        simp [Routing.use?, at_, found]
      rw [use]
      refine h.sends rfl rfl rfl (sameKeys_refl _) ?_ ?_
      · -- the socket was made for the destination when it was first used
        obtain ⟨last, -⟩ := leased.latest _ _ _ (lease_of_lookup found)
        exact h.made _ (Leases.mem_of_getLast? last).1
      · exact (leased.expire later fun _ => .inl rfl).renew (lease_of_lookup found)
          (lease_forward_self _) fun _ other => lease_forward_ne other
  | @created destination payload addr now at_ =>
      obtain ⟨rfl, absent⟩ := h.creating _ _ _ _ at_
      obtain rfl : clock_ = s.clock := clock
      have leased := h.leased (by simp [Await.Left, at_])
      have use : s.routing.use? (.created true) =
          some ⟨destination, s.routing.tasks.length, s.clock⟩ := by
        simp [Routing.use?, at_]
      rw [use]
      refine h.sends rfl rfl rfl (sameKeys_concat _ _) ?_ ?_
      · exact ⟨_, List.getElem?_concat_length, rfl⟩
      · refine leased.grant (by rw [Routing.lease, absent]; rfl) (lease_forward_self _) ?_
        intro other ne
        rw [lease_forward_ne ne, Routing.lease, Routing.createSession,
          AList.lookup_insert_ne ne, Routing.lease]

theorem tracked_initial (now : Nat) : Tracked (Timed.initial now) where
  calls := rfl
  made use mem := by cases mem
  kept _ := List.isChain_nil
  leased _ :=
    { kept := fun _ => List.isChain_nil
      past := fun use mem => by cases mem
      latest := fun k r time found => by cases found
      gone := fun k _ use mem => by cases mem }
  creating _ _ _ _ at_ := by cases at_

/-- Over every run under a monotone clock, whatever becomes of the sockets and
the sessions: a socket serves one destination, a destination keeps its socket
unless it is not sent to for longer than `ASSOCIATION_TIMEOUT`, and a clean-up
pass ends just the sessions that were not. -/
theorem sockets_follow_destinations (now : Nat) (events : List Event) :
    Transition.Always timedStep OneSocketEach (Timed.initial now) events ∧
      Transition.Along timedStep EndsIdle (Timed.initial now) events := by
  constructor
  · exact Transition.always_of_invariant (fun _ => Tracked.oneSocketEach)
      (fun _ _ _ => Tracked.step) (tracked_initial now) events
  · exact Transition.along_of_along (P := fun _ _ => True)
      (fun _ _ _ h _ taken => h.endsIdle taken) (fun _ _ _ h _ taken => h.step taken)
      (tracked_initial now) (Transition.along_of_forall (fun _ _ => trivial) _ events)

end RustProxy.UdpRelay
