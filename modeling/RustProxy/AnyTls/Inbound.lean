import RustProxy.AnyTls.Names
import RustProxy.Base.Transition

/-!
# What a stream reads

The bytes pushed for an instance pass through the receive loop, the channel of
the instance and the chunk that its stream keeps between reads. What has been
read and what is still under way are together a prefix of what the client pushed
between the SYN of the instance and the next FIN of its id. The receive loop
finds an instance only while its entry is there; as long as it is, nothing is
missing and no FIN of the id has been handled, so the next payload may follow.
-/

namespace RustProxy.AnyTls

open Session

/-- The payloads of an id, up to the first FIN of the id. -/
def pushed (streamId : UInt32) : List Frame → Bytes
  | [] => []
  | frame :: frames =>
      if frame.streamId = streamId ∧ frame.cmd = .fin then []
      else if frame.streamId = streamId ∧ frame.cmd = .psh then
        frame.data ++ pushed streamId frames
      else pushed streamId frames

/-- Among the frames is no FIN of the id. -/
def Unfinished (streamId : UInt32) (frames : List Frame) : Prop :=
  ∀ frame ∈ frames, ¬(frame.streamId = streamId ∧ frame.cmd = .fin)

/-- Every instance was opened by a SYN of its id, and has read a prefix of what
was pushed for the id after this SYN and before the next FIN; nothing of it was
pushed after the SYN of a later instance. -/
def ReadsOwn (s : Session) : Prop :=
  ∀ (i : Nat) (inst : Instance), s.instances[i]? = some inst →
    (∃ data, (s.arrived.take inst.synAt).getLast? = some (.withData .syn inst.id data)) ∧
    inst.read <+: pushed inst.id (s.arrived.drop inst.synAt) ∧
    ∀ (j : Nat) (other : Instance), s.instances[j]? = some other → i < j → other.id = inst.id →
      inst.read <+: pushed inst.id ((s.arrived.take other.synAt).drop inst.synAt)

section Pushed

variable {streamId : UInt32} {xs ys : List Frame}

theorem pushed_append (h : Unfinished streamId xs) :
    pushed streamId (xs ++ ys) = pushed streamId xs ++ pushed streamId ys := by
  induction xs with
  | nil => rfl
  | cons frame frames ih =>
      have rest : Unfinished streamId frames := fun f mem => h f (List.mem_cons_of_mem _ mem)
      simp only [List.cons_append, pushed, if_neg (h frame List.mem_cons_self), ih rest]
      split
      · rw [List.append_assoc]
      · rfl

theorem pushed_prefix_append (streamId : UInt32) (xs ys : List Frame) :
    pushed streamId xs <+: pushed streamId (xs ++ ys) := by
  induction xs with
  | nil => exact List.nil_prefix
  | cons frame frames ih =>
      simp only [List.cons_append, pushed]
      split
      · exact List.prefix_refl _
      · split
        · exact (List.prefix_append_right_inj frame.data).mpr ih
        · exact ih

theorem pushed_of_quiet (h : ∀ frame ∈ xs, frame.Quiet) : pushed streamId xs = [] := by
  induction xs with
  | nil => rfl
  | cons frame frames ih =>
      obtain ⟨notFin, empty⟩ := h frame List.mem_cons_self
      rw [pushed, if_neg (fun fin => notFin fin.2),
        ih fun f mem => h f (List.mem_cons_of_mem _ mem)]
      split
      case isTrue psh => rw [empty psh.2]; rfl
      case isFalse => rfl

theorem unfinished_of_quiet (h : ∀ frame ∈ xs, frame.Quiet) : Unfinished streamId xs :=
  fun frame mem fin => (h frame mem).1 fin.2

end Pushed

namespace AnyTlsStream

variable {me : AnyTlsStream}

@[simp] theorem rest_consume (n : Nat) : (me.consume n).rest = me.rest.drop n := by
  unfold consume
  split
  case isTrue used =>
    symm
    simp only [rest, List.drop_drop, List.drop_nil, List.drop_eq_nil_iff]
    exact used
  case isFalse => simp only [rest, List.drop_drop]

theorem rest_keep {data : Bytes} {n : Nat} (used : me.rest = []) :
    (me.keep data n).rest = data.drop n := by
  unfold keep
  split
  case isTrue => rfl
  case isFalse all => rw [used, List.drop_eq_nil_of_le (Nat.le_of_not_lt all)]

end AnyTlsStream

/-- What the receive loop is about to send to an instance. -/
def RecvAt.inFlight (i : Nat) : RecvAt → Bytes
  | .pshSend target data => if target = i then data else []
  | _ => []

/-- What the receive loop is about to look an id up for. -/
def RecvAt.lookedUp (streamId : UInt32) : RecvAt → Bytes
  | .pshLookup id data => if id = streamId then data else []
  | _ => []

/-- What is under way to the reader of an instance. -/
def unread (recv : RecvAt) (i : Nat) (inst : Instance) : Bytes :=
  match inst.stream with
  | none => []
  | some me => me.rest ++ inst.inbound.flatten ++ recv.inFlight i

/-- What is read or under way. -/
def received (recv : RecvAt) (i : Nat) (inst : Instance) : Bytes :=
  inst.read ++ unread recv i inst

structure Demuxed (s : Session) : Prop where
  named : Named s
  opened : ∀ (i : Nat) (inst : Instance), s.instances[i]? = some inst →
    inst.synAt ≤ s.arrived.length ∧
      ∃ data, (s.arrived.take inst.synAt).getLast? = some (.withData .syn inst.id data)
  owed : ∀ (i : Nat) (inst : Instance), s.instances[i]? = some inst →
    received s.recv i inst <+: pushed inst.id (s.arrived.drop inst.synAt)
  later : ∀ (i j : Nat) (inst other : Instance), s.instances[i]? = some inst →
    s.instances[j]? = some other → i < j → other.id = inst.id →
    received s.recv i inst <+: pushed inst.id ((s.arrived.take other.synAt).drop inst.synAt)
  complete : ∀ (i : Nat) (inst : Instance), s.instances[i]? = some inst →
    s.streams.lookup inst.id = some i → inst.stream.isSome →
    received s.recv i inst ++ s.recv.lookedUp inst.id = pushed inst.id (s.arrived.drop inst.synAt)
  unfinished : ∀ (i : Nat) (inst : Instance), s.instances[i]? = some inst →
    s.streams.lookup inst.id = some i → s.recv ≠ .finLookup inst.id →
    Unfinished inst.id (s.arrived.drop inst.synAt)
  latest : ∀ streamId i, s.streams.lookup streamId = some i →
    ∀ j, s.idOf j = some streamId → j ≤ i
  looking : ∀ streamId, s.recv = .synLookup streamId →
    ∃ data, s.arrived.getLast? = some (.withData .syn streamId data)

theorem demuxed_start : Demuxed Session.start where
  named := named_start
  opened i inst get := by simp [start] at get
  owed i inst get := by simp [start] at get
  later i j inst other get := by simp [start] at get
  complete i inst get := by simp [start] at get
  unfinished i inst get := by simp [start] at get
  latest streamId i stored := by simp [start] at stored
  looking streamId looking := by simp [start] at looking

variable {s t : Session} {i : Nat} {inst inst' : Instance} {items : List Item}

theorem Demuxed.readsOwn (h : Demuxed s) : ReadsOwn s := by
  intro i inst get
  have read : inst.read <+: received s.recv i inst := List.prefix_append _ _
  refine ⟨(h.opened i inst get).2, read.trans (h.owed i inst get), ?_⟩
  intro j other getJ before same
  exact read.trans (h.later i j inst other get getJ before same)

/-- An instance after a step: still the same one, with nothing received that was
not on its way before; all of it, if the stream is still there. -/
structure Delivers (before after : RecvAt) (i : Nat) (inst inst' : Instance) : Prop where
  id : inst'.id = inst.id
  synAt : inst'.synAt = inst.synAt
  owed : received after i inst' <+: received before i inst
  all : inst'.stream.isSome → inst.stream.isSome ∧ received after i inst' = received before i inst

theorem delivers_self {recv : RecvAt} : Delivers recv recv i inst inst :=
  ⟨rfl, rfl, List.prefix_refl _, fun there => ⟨there, rfl⟩⟩

/-- A step that keeps the stream and loses nothing. -/
theorem delivers_of_eq {before after : RecvAt} {me : AnyTlsStream} (stream : inst.stream = some me)
    (id : inst'.id = inst.id) (synAt : inst'.synAt = inst.synAt)
    (same : received after i inst' = received before i inst) : Delivers before after i inst inst' :=
  ⟨id, synAt, same ▸ List.prefix_refl _, fun _ => ⟨by rw [stream]; rfl, same⟩⟩

theorem received_of_stream {recv : RecvAt} {me : AnyTlsStream} (stream : inst.stream = some me) :
    received recv i inst = inst.read ++ (me.rest ++ inst.inbound.flatten ++ recv.inFlight i) := by
  rw [received, unread, stream]

theorem received_congr {before after : RecvAt} (same : after.inFlight i = before.inFlight i) :
    received after i inst = received before i inst := by
  rw [received, unread, same]
  rfl

/-- The receive loop moves on and the instance stays as it is. -/
theorem delivers_of_inFlight {before after : RecvAt} (same : after.inFlight i = before.inFlight i) :
    Delivers before after i inst inst :=
  have same := received_congr same
  ⟨rfl, rfl, same ▸ List.prefix_refl _, fun there => ⟨there, same⟩⟩

theorem Reads.delivers {recv : RecvAt} {me : AnyTlsStream} {room : Nat}
    {answer : Poll (IoResult Bytes)} (stream : inst.stream = some me)
    (h : Reads s i inst me room answer inst') : Delivers recv recv i inst inst' := by
  refine delivers_of_eq stream h.sameTask.id h.sameTask.synAt ?_
  cases h with
  | refused | atEnd | waits => rfl
  | @kept n =>
      rw [received_of_stream rfl, received_of_stream stream, AnyTlsStream.rest_consume]
      simp only [List.append_assoc, ← List.append_assoc (me.rest.take n), List.take_append_drop]
  | @chunk data inbound n _ _ used queued =>
      rw [received_of_stream rfl, received_of_stream stream, AnyTlsStream.rest_keep used, used,
        queued]
      simp only [List.append_assoc, ← List.append_assoc (data.take n), List.take_append_drop,
        List.flatten_cons, List.nil_append]
  | fin _ _ used queued =>
      rw [received_of_stream rfl, received_of_stream stream, queued]
      simp [AnyTlsStream.rest]
  | hungUp => rw [received_of_stream rfl, received_of_stream stream]; rfl

theorem Drops.delivers {recv : RecvAt} {task : TaskAt} (h : Drops s i inst inst' items) :
    Delivers recv recv i inst { inst' with task } := by
  cases h with
  | gone none_ => exact ⟨rfl, rfl, List.prefix_refl _, fun there => ⟨there, rfl⟩⟩
  | silent | fin =>
      refine ⟨rfl, rfl, ?_, nofun⟩
      simp [received, unread]

theorem Acts.delivers (h : Acts s i inst inst' items) (recv : RecvAt) :
    Delivers recv recv i inst inst' := by
  cases h with
  | reads stream reads => exact reads.delivers stream
  | writes stream writes =>
      cases writes with
      | refused | waits => exact delivers_self
      | sent => exact delivers_of_eq stream rfl rfl rfl
  | shuts stream shuts =>
      cases shuts with
      | already => exact delivers_self
      | silent | waits | sent =>
          refine delivers_of_eq stream rfl rfl ?_
          rw [received_of_stream rfl, received_of_stream stream]
          rfl
  | moves => exact ⟨rfl, rfl, List.prefix_refl _, fun there => ⟨there, rfl⟩⟩
  | drops drops => exact drops.delivers

/-- A step that finds no instance to push to and accepts no SYN; `frames` is
what arrived in it. -/
structure Handles (s t : Session) (frames : List Frame) : Prop where
  continues : Continues s t
  arrived : t.arrived = s.arrived ++ frames
  instances : ∀ (j : Nat) (y : Instance), t.instances[j]? = some y →
    ∃ x, s.instances[j]? = some x ∧ Delivers s.recv t.recv j x y
  still : ∀ streamId, s.recv = .finLookup streamId → frames = []
  lookedUp : ∀ streamId i, t.streams.lookup streamId = some i →
    s.recv.lookedUp streamId ++ pushed streamId frames = t.recv.lookedUp streamId
  finished : ∀ streamId i, t.streams.lookup streamId = some i → t.recv ≠ .finLookup streamId →
    s.recv ≠ .finLookup streamId ∧ Unfinished streamId frames
  looking : ∀ streamId, t.recv = .synLookup streamId →
    s.recv = .synLookup streamId ∧ frames = [] ∨ ∃ data, frames = [.withData .syn streamId data]

theorem Demuxed.handles {frames : List Frame} (h : Demuxed s) (on : Handles s t frames) :
    Demuxed t := by
  have window {x : Instance} {j : Nat} (get : s.instances[j]? = some x) :
      t.arrived.drop x.synAt = s.arrived.drop x.synAt ++ frames := by
    rw [on.arrived, List.drop_append_of_le_length (h.opened j x get).1]
  have upTo {x : Instance} {j : Nat} (get : s.instances[j]? = some x) :
      t.arrived.take x.synAt = s.arrived.take x.synAt := by
    rw [on.arrived, List.take_append_of_le_length (h.opened j x get).1]
  exact
    { named := h.named.continues on.continues
      opened := fun j y get => by
        obtain ⟨x, getX, delivers⟩ := on.instances j y get
        obtain ⟨inside, syn⟩ := h.opened j x getX
        rw [delivers.id, delivers.synAt, upTo getX]
        refine ⟨?_, syn⟩
        rw [on.arrived, List.length_append]
        omega
      owed := fun j y get => by
        obtain ⟨x, getX, delivers⟩ := on.instances j y get
        rw [delivers.id, delivers.synAt, window getX]
        exact (delivers.owed.trans (h.owed j x getX)).trans (pushed_prefix_append _ _ _)
      later := fun j k y y' get get' before same => by
        obtain ⟨x, getX, delivers⟩ := on.instances j y get
        obtain ⟨x', getX', delivers'⟩ := on.instances k y' get'
        rw [delivers.id, delivers'.id] at same
        rw [delivers.id, delivers.synAt, delivers'.synAt, upTo getX']
        exact delivers.owed.trans (h.later j k x x' getX getX' before same)
      complete := fun j y get stored there => by
        obtain ⟨x, getX, delivers⟩ := on.instances j y get
        obtain ⟨thereX, same⟩ := delivers.all there
        rw [delivers.id] at stored ⊢
        have storedX := on.continues.streams x.id j stored
        have before := h.complete j x getX storedX thereX
        rw [delivers.synAt, window getX, ← on.lookedUp x.id j stored, ← List.append_assoc, same,
          before]
        by_cases fin : s.recv = .finLookup x.id
        · rw [on.still x.id fin, List.append_nil, pushed, List.append_nil]
        · rw [pushed_append (h.unfinished j x getX storedX fin)]
      unfinished := fun j y get stored fin => by
        obtain ⟨x, getX, delivers⟩ := on.instances j y get
        rw [delivers.id] at stored fin ⊢
        obtain ⟨before, quiet⟩ := on.finished x.id j stored fin
        have storedX := on.continues.streams x.id j stored
        rw [delivers.synAt, window getX]
        intro frame mem
        rcases List.mem_append.mp mem with mem | mem
        · exact h.unfinished j x getX storedX before frame mem
        · exact quiet frame mem
      latest := fun streamId j stored k named => by
        rw [on.continues.ids] at named
        exact h.latest streamId j (on.continues.streams streamId j stored) k named
      looking := fun streamId looking => by
        rw [on.arrived]
        rcases on.looking streamId looking with ⟨before, rfl⟩ | ⟨data, rfl⟩
        · rw [List.append_nil]
          exact h.looking streamId before
        · exact ⟨data, by simp⟩ }

/-- A step in which the receive loop stands still. -/
theorem handles_of_recv (on : Continues s t) (arrived : t.arrived = s.arrived)
    (recv : t.recv = s.recv) (instances : ∀ (j : Nat) (y : Instance), t.instances[j]? = some y →
      ∃ x, s.instances[j]? = some x ∧ Delivers s.recv s.recv j x y) : Handles s t [] where
  continues := on
  arrived := by rw [arrived, List.append_nil]
  instances := by rwa [recv]
  still _ _ := rfl
  lookedUp _ _ _ := by rw [recv, pushed, List.append_nil]
  finished _ _ _ fin := ⟨recv ▸ fin, nofun⟩
  looking _ looking := .inl ⟨recv ▸ looking, rfl⟩

theorem Did.handles (found : s.instances[i]? = some inst) (h : Did s i inst t) :
    Handles s t [] := by
  have on := h.continues found
  cases h with
  | idle => exact handles_of_recv on rfl rfl fun j y get => ⟨y, get, delivers_self⟩
  | acted going handles acts =>
      apply handles_of_recv on rfl rfl
      intro j y get
      rcases getElem?_put_cases get with ⟨rfl, rfl⟩ | ⟨-, get⟩
      · exact ⟨inst, found, acts.delivers s.recv⟩
      · exact ⟨y, get, delivers_self⟩

/-- The receive loop moves on from a point at which it holds nothing. -/
theorem handles_of_idle {frames : List Frame} (on : Continues s t)
    (arrived : t.arrived = s.arrived ++ frames) (instances : t.instances = s.instances)
    (before : ∀ j, s.recv.inFlight j = []) (after : ∀ j, t.recv.inFlight j = [])
    (still : ∀ streamId, s.recv = .finLookup streamId → frames = [])
    (lookedUp : ∀ streamId i, t.streams.lookup streamId = some i →
      s.recv.lookedUp streamId ++ pushed streamId frames = t.recv.lookedUp streamId)
    (finished : ∀ streamId i, t.streams.lookup streamId = some i → t.recv ≠ .finLookup streamId →
      s.recv ≠ .finLookup streamId ∧ Unfinished streamId frames)
    (looking : ∀ streamId, t.recv = .synLookup streamId →
      ∃ data, frames = [.withData .syn streamId data]) : Handles s t frames where
  continues := on
  arrived := arrived
  instances j y get :=
    ⟨y, instances ▸ get, delivers_of_inFlight ((after j).trans (before j).symm)⟩
  still := still
  lookedUp := lookedUp
  finished := finished
  looking streamId looking' := .inr (looking streamId looking')

/-- The receive loop takes a frame out of its buffer. -/
theorem handles_of_frame {frame : Frame} (on : Continues s t) (at_ : s.recv = .decoding)
    (arrived : t.arrived = s.arrived ++ [frame]) (instances : t.instances = s.instances)
    (after : ∀ j, t.recv.inFlight j = [])
    (lookedUp : ∀ streamId, pushed streamId [frame] = t.recv.lookedUp streamId)
    (finished : ∀ streamId, t.recv ≠ .finLookup streamId → Unfinished streamId [frame])
    (looking : ∀ streamId, t.recv = .synLookup streamId →
      ∃ data, [frame] = [.withData .syn streamId data]) : Handles s t [frame] := by
  refine handles_of_idle on arrived instances (by simp [at_, RecvAt.inFlight]) after (by simp [at_])
    (fun streamId _ _ => ?_) (fun streamId _ _ other => ?_) looking
  · rw [at_, ← lookedUp streamId]
    rfl
  · exact ⟨by simp [at_], finished streamId other⟩

/-- The receive loop got the lock it waited for, and holds nothing to push. -/
theorem handles_of_lookup (on : Continues s t) (arrived : t.arrived = s.arrived)
    (instances : t.instances = s.instances) (before : ∀ j, s.recv.inFlight j = [])
    (after : t.recv = .decoding ∨ ∃ target, t.recv = .finSend target)
    (lookedUp : ∀ streamId i, t.streams.lookup streamId = some i → s.recv.lookedUp streamId = [])
    (finished : ∀ streamId i, t.streams.lookup streamId = some i → s.recv ≠ .finLookup streamId) :
    Handles s t [] := by
  have holds : (∀ j, t.recv.inFlight j = []) ∧ (∀ streamId, t.recv.lookedUp streamId = []) ∧
      ∀ streamId, t.recv ≠ .synLookup streamId := by
    rcases after with after | ⟨target, after⟩
    · rw [after]
      exact ⟨fun _ => rfl, fun _ => rfl, nofun⟩
    · rw [after]
      exact ⟨fun _ => rfl, fun _ => rfl, nofun⟩
  obtain ⟨flight, looked, settled⟩ := holds
  refine handles_of_idle on (by rw [arrived, List.append_nil]) instances before flight
    (fun _ _ => rfl) (fun streamId i stored => ?_)
    (fun streamId i stored _ => ⟨finished streamId i stored, nofun⟩)
    fun streamId looking => absurd looking (settled streamId)
  rw [lookedUp streamId i stored, looked streamId]
  rfl

theorem inFlight_of_calm {recv : RecvAt} (calm : recv.Calm) (j : Nat) : recv.inFlight j = [] := by
  cases recv <;> first | rfl | exact calm.elim

theorem lookedUp_of_calm {recv : RecvAt} (calm : recv.Calm) (streamId : UInt32) :
    recv.lookedUp streamId = [] := by
  cases recv <;> first | rfl | exact calm.elim

theorem calm_ne {recv other : RecvAt} (calm : recv.Calm) (held : ¬other.Calm) : recv ≠ other :=
  fun same => held (same ▸ calm)

/-- From one calm point to another, with frames that lead to no lookup. -/
theorem handles_of_quiet {frames : List Frame} (on : Continues s t)
    (arrived : t.arrived = s.arrived ++ frames) (instances : t.instances = s.instances)
    (before : s.recv.Calm) (after : t.recv.Calm ∨ t.recv = .closing ∨ t.recv = .returned)
    (quiet : ∀ frame ∈ frames, frame.Quiet) : Handles s t frames := by
  have flight (j : Nat) : t.recv.inFlight j = [] := by
    rcases after with calm | closing | returned
    · exact inFlight_of_calm calm j
    · rw [closing]; rfl
    · rw [returned]; rfl
  have lookedUp (streamId : UInt32) : t.recv.lookedUp streamId = [] := by
    rcases after with calm | closing | returned
    · exact lookedUp_of_calm calm streamId
    · rw [closing]; rfl
    · rw [returned]; rfl
  refine handles_of_idle on arrived instances (inFlight_of_calm before) flight ?_ ?_ ?_ ?_
  · exact fun streamId fin => absurd fin (calm_ne before id)
  · intro streamId i _
    rw [lookedUp_of_calm before, pushed_of_quiet quiet, lookedUp]
    rfl
  · exact fun streamId i _ _ => ⟨calm_ne before id, unfinished_of_quiet quiet⟩
  · intro streamId looking
    rcases after with calm | closing | returned
    · exact absurd looking (calm_ne calm id)
    · rw [closing] at looking; cases looking
    · rw [returned] at looking; cases looking

/-- The receive loop finds the entry for a payload. -/
theorem Demuxed.find {streamId : UInt32} {data : Bytes} {target : Nat} (h : Demuxed s)
    (at_ : s.recv = .pshLookup streamId data)
    (present : s.streams.lookup streamId = some target) :
    Demuxed { s with recv := .pshSend target data } := by
  obtain ⟨inst, found, rfl⟩ := idOf_eq_some.mp (h.named.streams streamId target present)
  -- the payload joins what is under way to the target, if its stream is still there
  have others {j : Nat} {x : Instance} (other : j ≠ target) :
      received (.pshSend target data) j x = received s.recv j x :=
    received_congr (by simp [at_, RecvAt.inFlight, Ne.symm other])
  have joins (there : inst.stream.isSome) :
      received (.pshSend target data) target inst = received s.recv target inst ++ data := by
    obtain ⟨me, stream⟩ := Option.isSome_iff_exists.mp there
    rw [received_of_stream stream, received_of_stream stream, at_]
    simp [RecvAt.inFlight]
  have gone (none_ : inst.stream = none) :
      received (.pshSend target data) target inst = received s.recv target inst := by
    simp [received, unread, none_]
  have all (there : inst.stream.isSome) : received (.pshSend target data) target inst =
      pushed inst.id (s.arrived.drop inst.synAt) := by
    have complete := h.complete target inst found present there
    rw [at_, RecvAt.lookedUp, if_pos rfl, ← at_] at complete
    rw [joins there, complete]
  exact
    { named := ⟨h.named.stream, h.named.streams, h.named.streamTasks, nofun⟩
      opened := h.opened
      owed := fun j x get => by
        by_cases own : j = target
        · subst own
          obtain rfl := Option.some.inj (get.symm.trans found)
          cases stream : x.stream with
          | none => exact gone stream ▸ h.owed j x get
          | some me => exact all (by rw [stream]; rfl) ▸ List.prefix_refl _
        · exact others own ▸ h.owed j x get
      later := fun j k x x' get get' before same => by
        by_cases own : j = target
        · subst own
          obtain rfl := Option.some.inj (get.symm.trans found)
          have last := h.latest x.id j present k (idOf_eq_some.mpr ⟨x', get', same⟩)
          omega
        · exact others own ▸ h.later j k x x' get get' before same
      complete := fun j x get stored there => by
        by_cases own : j = target
        · subst own
          obtain rfl := Option.some.inj (get.symm.trans found)
          exact (List.append_nil _).trans (all there)
        · have complete := h.complete j x get stored there
          have different : inst.id ≠ x.id := by
            intro same
            rw [same, stored] at present
            exact own (Option.some.inj present)
          rw [at_, RecvAt.lookedUp, if_neg different, ← at_] at complete
          exact others own ▸ complete
      unfinished := fun j x get stored _ => h.unfinished j x get stored (by simp [at_])
      latest := h.latest
      looking := nofun }

/-- A SYN is accepted: nothing was pushed for the new instance yet. -/
theorem Demuxed.accept {streamId : UInt32} (h : Demuxed s) (at_ : s.recv = .synLookup streamId) :
    Demuxed (s.accept streamId) := by
  obtain ⟨data, syn⟩ := h.looking streamId at_
  have before {j : Nat} {x : Instance} :
      received (.synStore streamId s.instances.length) j x = received s.recv j x :=
    received_congr (by simp [at_, RecvAt.inFlight])
  exact
    { named := h.named.accept streamId
      opened := fun j x get => by
        rcases getElem?_accept_cases get with earlier | ⟨-, rfl⟩
        · exact h.opened j x earlier
        · refine ⟨Nat.le_refl _, data, ?_⟩
          simpa [Instance.new, Session.accept] using syn
      owed := fun j x get => by
        rcases getElem?_accept_cases get with earlier | ⟨-, rfl⟩
        · exact before ▸ h.owed j x earlier
        · simp [received, unread, Instance.new, AnyTlsStream.new, AnyTlsStream.rest,
            Session.accept, RecvAt.inFlight]
      later := fun j k x x' get get' less same => by
        rcases getElem?_accept_cases get with earlier | ⟨rfl, rfl⟩
        · rcases getElem?_accept_cases get' with earlier' | ⟨rfl, rfl⟩
          · exact before ▸ h.later j k x x' earlier earlier' less same
          · have owed := h.owed j x earlier
            simpa [Instance.new, Session.accept, before] using owed
        · obtain ⟨inside, -⟩ := List.getElem?_eq_some_iff.mp get'
          simp only [Session.accept, List.length_append, List.length_singleton] at inside
          omega
      complete := fun j x get stored there => by
        rcases getElem?_accept_cases get with earlier | ⟨-, rfl⟩
        · rcases Table.lookup_insert_eq_some.mp stored with ⟨-, rfl⟩ | ⟨-, stored⟩
          · have inside := (List.getElem?_eq_some_iff.mp earlier).1
            omega
          · have complete := h.complete j x earlier stored there
            simpa [Session.accept, before, at_, RecvAt.lookedUp] using complete
        · simp [received, unread, Instance.new, AnyTlsStream.new, AnyTlsStream.rest,
            Session.accept, RecvAt.inFlight, RecvAt.lookedUp, pushed]
      unfinished := fun j x get stored _ => by
        rcases getElem?_accept_cases get with earlier | ⟨-, rfl⟩
        · rcases Table.lookup_insert_eq_some.mp stored with ⟨-, rfl⟩ | ⟨-, stored⟩
          · have inside := (List.getElem?_eq_some_iff.mp earlier).1
            omega
          · exact h.unfinished j x earlier stored (by simp [at_])
        · simp [Instance.new, Session.accept, Unfinished]
      latest := fun id j stored k named => by
        rcases Table.lookup_insert_eq_some.mp stored with ⟨rfl, rfl⟩ | ⟨different, stored⟩
        · rcases idOf_accept.mp named with named | ⟨rfl, -⟩
          · obtain ⟨x, get, -⟩ := idOf_eq_some.mp named
            exact Nat.le_of_lt (List.getElem?_eq_some_iff.mp get).1
          · exact Nat.le_refl _
        · rcases idOf_accept.mp named with named | ⟨-, same⟩
          · exact h.latest id j stored k named
          · exact absurd same different
      looking := nofun }

theorem inFlight_of_sending {target : Nat} {data : Bytes}
    (at_ : s.recv = .pshSend target data ∨ s.recv = .finSend target ∧ data = []) (j : Nat) :
    s.recv.inFlight j = if target = j then data else [] := by
  rcases at_ with at_ | ⟨at_, rfl⟩
  · rw [at_]; rfl
  · rw [at_]; simp [RecvAt.inFlight]

/-- The receive loop has sent what it held, or could not. -/
theorem handles_of_sending {target : Nat} {data : Bytes} (on : Continues s t)
    (at_ : s.recv = .pshSend target data ∨ s.recv = .finSend target ∧ data = [])
    (arrived : t.arrived = s.arrived) (recv : t.recv = .decoding)
    (instances : ∀ (j : Nat) (y : Instance), t.instances[j]? = some y →
      ∃ x, s.instances[j]? = some x ∧ Delivers s.recv .decoding j x y) : Handles s t [] := by
  have before (streamId : UInt32) :
      s.recv ≠ .finLookup streamId ∧ s.recv.lookedUp streamId = [] := by
    rcases at_ with at_ | ⟨at_, -⟩
    · exact ⟨by simp [at_], by rw [at_]; rfl⟩
    · exact ⟨by simp [at_], by rw [at_]; rfl⟩
  exact
    { continues := on
      arrived := by rw [arrived, List.append_nil]
      instances := by rwa [recv]
      still := fun _ _ => rfl
      lookedUp := fun streamId _ _ => by rw [recv, (before streamId).2]; rfl
      finished := fun streamId _ _ _ => ⟨(before streamId).1, nofun⟩
      looking := fun streamId looking => by rw [recv] at looking; cases looking }

/-- A step of the receive loop, seen from the channels of the instances: it
finds the one to push to, accepts a SYN, or does neither. -/
inductive Routes (s : Session) : Session → Prop
  | finds {streamId : UInt32} {data : Bytes} {target : Nat}
      (at_ : s.recv = .pshLookup streamId data)
      (present : s.streams.lookup streamId = some target) :
      Routes s { s with recv := .pshSend target data }
  | accepts {streamId : UInt32} (at_ : s.recv = .synLookup streamId) :
      Routes s (s.accept streamId)
  | handles {frames : List Frame} {t : Session} (on : Handles s t frames) : Routes s t

theorem RecvTaken.routes {event : RecvEvent} (taken : RecvTaken s event t) : Routes s t := by
  rcases taken.continues_or_accepts with on | ⟨streamId, rfl, at_, -, rfl⟩
  case inr => exact .accepts at_
  cases taken with
  | calm at_ next =>
      exact .handles (handles_of_quiet on (List.append_nil _).symm rfl at_ (.inl next) nofun)
  | leave at_ _ quiet =>
      exact .handles (handles_of_quiet on (leaveRecvLoop_arrived _) (leaveRecvLoop_instances _) at_
        (.inr (leaveRecvLoop_recv _)) quiet)
  | arrive at_ next quiet =>
      exact .handles (handles_of_quiet on rfl rfl (by rw [at_]; trivial) (.inl next) (by simpa))
  | @psh streamId data at_ =>
      refine .handles (handles_of_frame on at_ rfl rfl (fun _ => rfl) ?_ ?_ nofun)
      · intro id
        simp [RecvAt.lookedUp, AnyTls.pushed, Frame.psh, Frame.withData]
      · intro id _
        simp [Unfinished, Frame.psh, Frame.withData]
  | @syn streamId data at_ =>
      refine .handles (handles_of_frame on at_ rfl rfl (fun _ => rfl) ?_ ?_ ?_)
      · intro id
        simp [RecvAt.lookedUp, AnyTls.pushed, Frame.withData]
      · intro id _
        simp [Unfinished, Frame.withData]
      · intro id looking
        obtain rfl := RecvAt.synLookup.inj looking
        exact ⟨data, rfl⟩
  | @fin streamId data at_ =>
      refine .handles (handles_of_frame on at_ rfl rfl (fun _ => rfl) ?_ ?_ nofun)
      · intro id
        simp [RecvAt.lookedUp, AnyTls.pushed, Frame.withData]
      · intro id other
        have different : streamId ≠ id := fun same => other (by rw [same])
        simp [Unfinished, Frame.withData, different]
  | @pshMissed streamId data at_ absent =>
      refine .handles (handles_of_lookup on rfl rfl (by simp [at_, RecvAt.inFlight]) (.inl rfl) ?_
        (by simp [at_]))
      intro id i (stored : s.streams.lookup id = some i)
      have different : streamId ≠ id := by
        rintro rfl
        rw [absent] at stored
        cases stored
      simp [at_, RecvAt.lookedUp, different]
  | pshFound at_ present => exact .finds at_ present
  | synDuplicate at_ | stored at_ =>
      exact .handles (handles_of_lookup on rfl rfl (by simp [at_, RecvAt.inFlight]) (.inl rfl)
        (by simp [at_, RecvAt.lookedUp]) (by simp [at_]))
  | synAccepted at_ => exact .accepts at_
  | @finMissed streamId at_ absent =>
      refine .handles (handles_of_lookup on rfl rfl (by simp [at_, RecvAt.inFlight]) (.inl rfl)
        (by simp [at_, RecvAt.lookedUp]) ?_)
      intro id i (stored : s.streams.lookup id = some i) fin
      rw [at_] at fin
      rw [← RecvAt.finLookup.inj fin, absent] at stored
      cases stored
  | @finFound streamId target at_ =>
      refine .handles (handles_of_lookup on rfl rfl (by simp [at_, RecvAt.inFlight])
        (.inr ⟨target, rfl⟩) (by simp [at_, RecvAt.lookedUp]) ?_)
      intro id i stored fin
      obtain ⟨different, -⟩ := Table.lookup_erase_eq_some.mp stored
      rw [at_] at fin
      exact different (RecvAt.finLookup.inj fin).symm
  | @receiverGone target data inst at_ found gone =>
      refine .handles (handles_of_sending on at_ rfl rfl fun j x get => ⟨x, get, ?_⟩)
      by_cases own : target = j
      · subst own
        obtain rfl := Option.some.inj (get.symm.trans found)
        refine ⟨rfl, rfl, ?_, fun there => by simp [gone] at there⟩
        simp [received, unread, gone]
      · exact delivers_of_inFlight (by rw [inFlight_of_sending at_, if_neg own]; rfl)
  | @pushed target data inst me at_ found stream =>
      refine .handles (handles_of_sending on at_ rfl rfl fun j y get => ?_)
      rcases getElem?_set_cases get with ⟨rfl, rfl⟩ | ⟨other, get⟩
      · refine ⟨inst, found, delivers_of_eq stream rfl rfl ?_⟩
        rw [received_of_stream stream, inFlight_of_sending at_, if_pos rfl]
        simp [received, unread, stream, RecvAt.inFlight]
      · refine ⟨y, get, delivers_of_inFlight ?_⟩
        rw [inFlight_of_sending at_, if_neg (Ne.symm other)]
        rfl

theorem Demuxed.recv (h : Demuxed s) (routes : Routes s t) : Demuxed t := by
  cases routes with
  | finds at_ present => exact h.find at_ present
  | accepts at_ => exact h.accept at_
  | handles on => exact h.handles on

theorem Finishes.handles {closer : Closer} (h : Finishes s closer t)
    (waits : closer = .run → s.recv = .closing) : Handles s t [] := by
  have on := h.continues
  cases h with
  | run =>
      have at_ := waits rfl
      exact handles_of_idle on (List.append_nil _).symm rfl (by simp [at_, RecvAt.inFlight])
        (fun _ => rfl) (by simp) (by simp [at_, RecvAt.lookedUp, pushed])
        (fun _ _ _ _ => ⟨by simp [at_], nofun⟩) nofun
  | task found at_ answers =>
      exact (answers.did (s := s) (by simp [Instance.isOver, at_])).handles found
  | alone => exact handles_of_recv on rfl rfl fun j y get => ⟨y, get, delivers_self⟩

theorem CloseTaken.handles {event : CloseEvent} (h : CloseTaken s event t) (waits : RunWaits s) :
    Handles s t [] := by
  have on := h.continues
  cases h with
  | drained at_ =>
      apply handles_of_recv on rfl rfl
      intro j y get
      obtain ⟨x, aborted, getX, rfl, -⟩ := getElem?_abortAll get
      exact ⟨x, getX, rfl, rfl, List.prefix_refl _, fun there => ⟨there, rfl⟩⟩
  | cleared => exact handles_of_recv on rfl rfl fun j y get => ⟨y, get, delivers_self⟩
  | clearedLast at_ finishes =>
      have after := finishes.handles fun run => waits (by rw [at_, run]; rfl)
      exact
        { continues := on
          arrived := after.arrived
          instances := after.instances
          still := after.still
          lookedUp := after.lookedUp
          finished := after.finished
          looking := after.looking }
  | shut at_ finishes => exact finishes.handles fun run => waits (by rw [at_, run]; rfl)

theorem OutgoingTaken.handles {event : OutgoingEvent} (h : OutgoingTaken s event t) :
    Handles s t [] := by
  have on := h.continues
  cases h <;> exact handles_of_recv on rfl rfl fun j y get => ⟨y, get, delivers_self⟩

theorem Demuxed.step {event : Event} (h : Demuxed s) (waits : RunWaits s)
    (taken : Taken s event t) : Demuxed t := by
  cases taken with
  | recv does => exact h.recv does.routes
  | close does => exact h.handles (does.handles waits)
  | outgoing does => exact h.handles does.handles
  | task found does => exact h.handles (does.did.handles found)

/-- In every state of every run, each instance has read a prefix of what the
client pushed for it. -/
theorem reads_own (padding : Padding) (events : List Event) :
    Transition.Always (step padding) ReadsOwn Session.start events := by
  refine Transition.always_of_invariant (I := fun s => Demuxed s ∧ RunWaits s)
    (fun _ h => h.1.readsOwn) ?_ ⟨demuxed_start, nofun⟩ events
  rintro s event t ⟨demuxed, waits⟩ taken
  have does := taken_of_step taken
  exact ⟨demuxed.step waits does, waits.step does⟩

end RustProxy.AnyTls
