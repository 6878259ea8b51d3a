import RustProxy.AnyTls.Cases

/-!
# Instances and their ids

An instance keeps its id, and so does its stream. Apart from the step that
accepts a SYN, a step of a session adds no instance, puts nothing into `streams`
and sends nothing under an id that is not the sender's: this is `Continues`, and
`continues_or_accepts` says it of every step at once. The entries of both maps
therefore name instances of the id they are stored under.
-/

namespace RustProxy.AnyTls

open Session

/-- What a stream task did to its instance, and the items it sent. -/
inductive Acts (s : Session) (i : Nat) (inst : Instance) : Instance → List Item → Prop
  | reads {room : Nat} {me : AnyTlsStream} {answer : Poll (IoResult Bytes)} {inst' : Instance}
      (stream : inst.stream = some me) (reads : Reads s i inst me room answer inst') :
      Acts s i inst inst' []
  | writes {buf : Bytes} {me : AnyTlsStream} {answer : Poll (IoResult Nat)} {inst' : Instance}
      {items : List Item} (stream : inst.stream = some me)
      (writes : Writes s i inst me buf answer inst' items) : Acts s i inst inst' items
  | shuts {me : AnyTlsStream} {budget : Bool} {answer : Poll (IoResult Unit)} {inst' : Instance}
      {items : List Item} (stream : inst.stream = some me)
      (shuts : Shuts s i inst me budget answer inst' items) : Acts s i inst inst' items
  | moves {task : TaskAt} : Acts s i inst { inst with task } []
  | drops {task : TaskAt} {inst' : Instance} {items : List Item}
      (drops : Drops s i inst inst' items) : Acts s i inst { inst' with task } items

/-- A step of the task of instance `i`: it does nothing, or acts while the task
goes on. -/
inductive Did (s : Session) (i : Nat) (inst : Instance) : Session → Prop
  | idle : Did s i inst s
  | acted {streamTasks : Table UInt32 Nat} {close : CloseAt} {wire : List (Option Nat × Frame)}
      {inst' : Instance} {items : List Item} {waiting granted : List Nat}
      (going : inst.isOver = false)
      (handles : streamTasks = s.streamTasks ∨ streamTasks = s.streamTasks.erase inst.id)
      (acts : Acts s i inst inst' items) :
      Did s i inst ({ s with streamTasks, close, wire }.put i inst' items waiting granted)

/-- A FIN on its way: of which id, and from which instance. -/
inductive FinOnItsWay (s : Session) : UInt32 → Nat → Prop
  | queued {item : Item} (mem : item ∈ s.outgoing) (fin : item.data = []) :
      FinOnItsWay s item.streamId item.origin
  | writing {item : Item} (at_ : s.outgoingTask = .writing item) (fin : item.data = []) :
      FinOnItsWay s item.streamId item.origin
  | removing {item : Item} (at_ : s.outgoingTask = .removing item) :
      FinOnItsWay s item.streamId item.origin

/-- The id of the instance at a place. -/
def Session.idOf (s : Session) (j : Nat) : Option UInt32 := (s.instances[j]?).map Instance.id

/-- What every step that accepts no SYN leaves alone. -/
structure Continues (s t : Session) : Prop where
  ids : ∀ j, t.idOf j = s.idOf j
  instances : ∀ (j : Nat) (y : Instance), t.instances[j]? = some y →
    ∃ x, s.instances[j]? = some x ∧ y.id = x.id ∧ (x.isOver = true → y.isOver = true) ∧
      ∀ me', y.stream = some me' → ∃ me, x.stream = some me ∧ me'.id = me.id
  streams : ∀ streamId j, t.streams.lookup streamId = some j →
    s.streams.lookup streamId = some j
  streamTasks : ∀ streamId j, t.streamTasks.lookup streamId = some j →
    s.streamTasks.lookup streamId = some j ∨ s.recv = .synStore streamId j
  storing : ∀ streamId j, t.recv = .synStore streamId j → s.recv = .synStore streamId j
  fins : ∀ streamId origin, FinOnItsWay t streamId origin → FinOnItsWay s streamId origin ∨
    ∃ inst me, s.instances[origin]? = some inst ∧ inst.isOver = false ∧
      inst.stream = some me ∧ me.id = streamId

variable {s t : Session} {i : Nat} {inst inst' : Instance} {items : List Item}

theorem idOf_eq_some {j : Nat} {streamId : UInt32} :
    s.idOf j = some streamId ↔ ∃ inst, s.instances[j]? = some inst ∧ inst.id = streamId :=
  Option.map_eq_some_iff

theorem idOf_of_getElem? {j : Nat} (get : s.instances[j]? = some inst) :
    s.idOf j = some inst.id := by
  rw [idOf, get]
  rfl

theorem Acts.sameId (h : Acts s i inst inst' items) : inst'.id = inst.id := by
  cases h with
  | reads _ reads => exact reads.sameTask.id
  | writes _ writes => exact writes.sameTask.id
  | shuts _ shuts => exact shuts.sameTask.id
  | moves => rfl
  | drops drops => exact drops.sameTask.id

/-- The stream that is left is the one that was there, under the same id. -/
theorem Acts.sameStream (h : Acts s i inst inst' items) {me' : AnyTlsStream}
    (after : inst'.stream = some me') : ∃ me, inst.stream = some me ∧ me'.id = me.id := by
  cases h with
  | @reads _ me _ _ stream reads =>
      refine ⟨me, stream, ?_⟩
      cases reads with
      | refused | atEnd | waits => rw [Option.some.inj (after.symm.trans stream)]
      | kept =>
          obtain rfl := Option.some.inj after
          unfold AnyTlsStream.consume
          split <;> rfl
      | chunk =>
          obtain rfl := Option.some.inj after
          unfold AnyTlsStream.keep
          split <;> rfl
      | fin | hungUp =>
          obtain rfl := Option.some.inj after
          rfl
  | @writes _ me _ _ _ stream writes =>
      refine ⟨me, stream, ?_⟩
      cases writes with
      | refused | waits | sent => rw [Option.some.inj (after.symm.trans stream)]
  | @shuts me _ _ _ _ stream shuts =>
      refine ⟨me, stream, ?_⟩
      cases shuts with
      | already => rw [Option.some.inj (after.symm.trans stream)]
      | silent | waits | sent =>
          obtain rfl := Option.some.inj after
          rfl
  | moves => exact ⟨me', after, rfl⟩
  | drops drops =>
      cases drops with
      | gone none_ => exact ⟨me', after, rfl⟩
      | silent | fin => cases after

/-- An instance sends in its own name, while its stream is there. -/
theorem Acts.ownItems (h : Acts s i inst inst' items) {item : Item} (mem : item ∈ items) :
    item.origin = i ∧ ∃ me, inst.stream = some me ∧ me.id = item.streamId := by
  cases h with
  | reads | moves => cases mem
  | @writes _ me _ _ _ stream writes =>
      cases writes with
      | refused | waits => cases mem
      | sent =>
          obtain rfl := List.mem_singleton.mp mem
          exact ⟨rfl, me, stream, rfl⟩
  | @shuts me _ _ _ _ stream shuts =>
      cases shuts with
      | already | silent | waits => cases mem
      | sent =>
          obtain rfl := List.mem_singleton.mp mem
          exact ⟨rfl, me, stream, rfl⟩
  | drops drops =>
      cases drops with
      | gone | silent => cases mem
      | @fin me stream =>
          obtain rfl := List.mem_singleton.mp mem
          exact ⟨rfl, me, stream, rfl⟩

theorem Answers.did {error : Option Bytes} {close : CloseAt} {wire : List (Option Nat × Frame)}
    (going : inst.isOver = false) (h : Answers { s with close, wire } i inst error t) :
    Did s i inst t := by
  cases h with
  | relay => exact .acted going (.inl rfl) .moves
  | fail drops =>
      refine .acted going (.inl rfl) (.drops ?_)
      cases drops with
      | gone none_ => exact .gone none_
      | silent stream why => exact .silent stream why
      | fin stream opened => exact .fin stream opened

theorem TaskTaken.did {event : TaskEvent} (h : TaskTaken s i inst event t) : Did s i inst t := by
  cases h with
  | absent => exact .idle
  | read at_ stream reads =>
      exact .acted (by rcases at_ with at_ | at_ <;> simp [Instance.isOver, at_]) (.inl rfl)
        (.reads stream reads)
  | write at_ stream writes =>
      exact .acted (by simp [Instance.isOver, at_]) (.inl rfl) (.writes stream writes)
  | shutdown at_ stream shuts =>
      exact .acted (by simp [Instance.isOver, at_]) (.inl rfl) (.shuts stream shuts)
  | opened at_ answers | synackWritten at_ answers | synackFailed at_ answers
  | synackLate at_ answers => exact answers.did (by simp [Instance.isOver, at_])
  | synack at_ | synackTimedOut at_ =>
      exact .acted (by simp [Instance.isOver, at_]) (.inl rfl) .moves
  | returned at_ drops =>
      exact .acted (by rcases at_ with at_ | at_ <;> simp [Instance.isOver, at_]) (.inl rfl)
        (.drops drops)
  | cleanedUp at_ =>
      exact .acted (by simp [Instance.isOver, at_])
        (.inr rfl) .moves
  | dropped _ going drops => exact .acted going (.inl rfl) (.drops drops)

theorem FinOnItsWay.of_eq {streamId : UInt32} {origin : Nat} (h : FinOnItsWay t streamId origin)
    (outgoing : t.outgoing = s.outgoing) (outgoingTask : t.outgoingTask = s.outgoingTask) :
    FinOnItsWay s streamId origin := by
  cases h with
  | queued mem fin => exact .queued (outgoing ▸ mem) fin
  | writing at_ fin => exact .writing (outgoingTask ▸ at_) fin
  | removing at_ => exact .removing (outgoingTask ▸ at_)

/-- Steps that touch neither instances nor the outgoing channel. -/
theorem continues_of_instances (instances : t.instances = s.instances)
    (streams : ∀ streamId j, t.streams.lookup streamId = some j →
      s.streams.lookup streamId = some j)
    (streamTasks : ∀ streamId j, t.streamTasks.lookup streamId = some j →
      s.streamTasks.lookup streamId = some j ∨ s.recv = .synStore streamId j)
    (storing : ∀ streamId j, t.recv = .synStore streamId j → s.recv = .synStore streamId j)
    (outgoing : t.outgoing = s.outgoing) (outgoingTask : t.outgoingTask = s.outgoingTask) :
    Continues s t where
  ids j := by rw [idOf, idOf, instances]
  instances j y get := ⟨y, instances ▸ get, rfl, id, fun me' stream => ⟨me', stream, rfl⟩⟩
  streams := streams
  streamTasks := streamTasks
  storing := storing
  fins _ _ fin := .inl (fin.of_eq outgoing outgoingTask)

theorem Did.continues (found : s.instances[i]? = some inst) (h : Did s i inst t) :
    Continues s t := by
  cases h with
  | idle => exact continues_of_instances rfl (by simp) (by simp +contextual) (by simp) rfl rfl
  | @acted streamTasks close wire inst' items _ _ going handles acts =>
      exact
        { ids := map_getElem?_set found acts.sameId
          instances := fun j y get => by
            rcases getElem?_put_cases get with ⟨rfl, rfl⟩ | ⟨-, get⟩
            · refine ⟨inst, found, acts.sameId, ?_, fun me' => acts.sameStream⟩
              intro isOver
              rw [going] at isOver
              cases isOver
            · exact ⟨y, get, rfl, id, fun me' stream => ⟨me', stream, rfl⟩⟩
          streams := fun _ _ stored => stored
          streamTasks := fun streamId j stored => by
            rcases handles with rfl | rfl
            · exact .inl stored
            · exact .inl (Table.lookup_erase_eq_some.mp stored).2
          storing := fun _ _ storing => storing
          fins := fun streamId origin fin => by
            cases fin with
            | queued mem fin =>
                rcases List.mem_append.mp mem with mem | mem
                · exact .inl (.queued mem fin)
                · obtain ⟨origin, me, stream, id⟩ := acts.ownItems mem
                  rw [origin]
                  exact .inr ⟨inst, me, found, going, stream, id⟩
            | writing at_ fin => exact .inl (.writing at_ fin)
            | removing at_ => exact .inl (.removing at_) }

theorem not_synStore_of_calm {recv : RecvAt} (calm : recv.Calm) (streamId : UInt32) (j : Nat) :
    recv ≠ .synStore streamId j := by
  rintro rfl
  exact calm

/-- The receive loop moves on without storing a handle. -/
theorem continues_of_recv (instances : t.instances = s.instances) (streams : t.streams = s.streams)
    (streamTasks : t.streamTasks = s.streamTasks)
    (after : ∀ streamId j, t.recv ≠ .synStore streamId j) (outgoing : t.outgoing = s.outgoing)
    (outgoingTask : t.outgoingTask = s.outgoingTask) : Continues s t :=
  continues_of_instances instances (fun _ _ stored => streams ▸ stored)
    (fun _ _ stored => .inl (streamTasks ▸ stored))
    (fun streamId j storing => absurd storing (after streamId j)) outgoing outgoingTask

theorem RecvTaken.continues_or_accepts {event : RecvEvent} (h : RecvTaken s event t) :
    Continues s t ∨ ∃ streamId, event = .streamsLocked ∧ s.recv = .synLookup streamId ∧
      s.streams.lookup streamId = none ∧ t = s.accept streamId := by
  cases h with
  | calm _ next | arrive _ next =>
      exact .inl (continues_of_recv rfl rfl rfl (not_synStore_of_calm next) rfl rfl)
  | leave =>
      left
      unfold leaveRecvLoop
      split <;> exact continues_of_recv rfl rfl rfl nofun rfl rfl
  | psh | syn | fin | pshMissed | pshFound | synDuplicate | finMissed | receiverGone =>
      exact .inl (continues_of_recv rfl rfl rfl nofun rfl rfl)
  | synAccepted at_ absent => exact .inr ⟨_, rfl, at_, absent, rfl⟩
  | finFound =>
      exact .inl (continues_of_instances rfl
        (fun _ _ stored => (Table.lookup_erase_eq_some.mp stored).2) (fun _ _ stored => .inl stored)
        nofun rfl rfl)
  | @pushed target data inst _ _ found =>
      left
      exact
        { ids := map_getElem?_set found rfl
          instances := fun j y get => by
            rcases getElem?_set_cases get with ⟨rfl, rfl⟩ | ⟨-, get⟩
            · exact ⟨inst, found, rfl, id, fun me' stream => ⟨me', stream, rfl⟩⟩
            · exact ⟨y, get, rfl, id, fun me' stream => ⟨me', stream, rfl⟩⟩
          streams := fun _ _ stored => stored
          streamTasks := fun _ _ stored => .inl stored
          storing := nofun
          fins := fun _ _ fin => .inl (fin.of_eq rfl rfl) }
  | @stored streamId target at_ =>
      refine .inl (continues_of_instances rfl (fun _ _ stored => stored) (fun id j stored => ?_)
        nofun rfl rfl)
      rcases Table.lookup_insert_eq_some.mp stored with ⟨rfl, rfl⟩ | ⟨-, stored⟩
      · exact .inr at_
      · exact .inl stored

theorem Finishes.continues {closer : Closer} (h : Finishes s closer t) : Continues s t := by
  cases h with
  | run => exact continues_of_recv rfl rfl rfl nofun rfl rfl
  | task found at_ answers =>
      exact (answers.did (s := s) (by simp [Instance.isOver, at_])).continues found
  | alone =>
      exact continues_of_instances rfl (fun _ _ stored => stored) (fun _ _ stored => .inl stored)
        (fun _ _ storing => storing) rfl rfl

theorem getElem?_abortAll {streamTasks : Table UInt32 Nat} {instances : List Instance} {i : Nat}
    {y : Instance} (get : (abortAll streamTasks instances)[i]? = some y) :
    ∃ x aborted, instances[i]? = some x ∧ y = { x with aborted } ∧
      ∀ streamId, streamTasks.lookup streamId = some i → aborted = true := by
  simp only [abortAll, List.getElem?_mapIdx, Option.map_eq_some_iff] at get
  obtain ⟨x, getX, rfl⟩ := get
  split
  case isTrue => exact ⟨x, true, getX, rfl, fun _ _ => rfl⟩
  case isFalse absent =>
    refine ⟨x, x.aborted, getX, rfl, fun streamId stored => absurd ?_ absent⟩
    exact List.any_eq_true.mpr ⟨⟨streamId, i⟩, Table.mem_entries_iff.mpr stored, by simp⟩

theorem CloseTaken.continues {event : CloseEvent} (h : CloseTaken s event t) : Continues s t := by
  cases h with
  | drained =>
      exact
        { ids := fun j => by
            simp only [idOf, drainTasks, abortAll, List.getElem?_mapIdx, Option.map_map]
            congr 1
            funext x
            simp only [Function.comp_apply]
            split <;> rfl
          instances := fun j y get => by
            obtain ⟨x, aborted, getX, rfl, -⟩ := getElem?_abortAll get
            exact ⟨x, getX, rfl, id, fun me' stream => ⟨me', stream, rfl⟩⟩
          streams := fun _ _ stored => stored
          streamTasks := fun _ _ stored => by simp [drainTasks] at stored
          storing := fun _ _ storing => storing
          fins := fun _ _ fin => .inl (fin.of_eq rfl rfl) }
  | cleared =>
      exact continues_of_instances rfl (by simp) (fun _ _ stored => .inl stored)
        (fun _ _ storing => storing) rfl rfl
  | clearedLast _ finishes =>
      have after := finishes.continues
      exact
        { ids := after.ids
          instances := after.instances
          streams := fun streamId j stored => by simpa using after.streams streamId j stored
          streamTasks := after.streamTasks
          storing := after.storing
          fins := fun streamId origin fin => by
            rcases after.fins streamId origin fin with fin | sent
            · exact .inl (fin.of_eq rfl rfl)
            · exact .inr sent }
  | shut _ finishes => exact finishes.continues

theorem OutgoingTaken.continues {event : OutgoingEvent} (h : OutgoingTaken s event t) :
    Continues s t := by
  have on {u : Session} (instances : u.instances = s.instances)
      (streams : ∀ streamId j, u.streams.lookup streamId = some j →
        s.streams.lookup streamId = some j) (streamTasks : u.streamTasks = s.streamTasks)
      (recv : u.recv = s.recv)
      (fins : ∀ streamId origin, FinOnItsWay u streamId origin → FinOnItsWay s streamId origin) :
      Continues s u :=
    { ids := fun j => by rw [idOf, idOf, instances]
      instances := fun j y get =>
        ⟨y, instances ▸ get, rfl, id, fun me' stream => ⟨me', stream, rfl⟩⟩
      streams
      streamTasks := fun _ _ stored => .inl (streamTasks ▸ stored)
      storing := fun _ _ storing => recv ▸ storing
      fins := fun streamId origin fin => .inl (fins streamId origin fin) }
  cases h with
  | @taken item outgoing _ _ _ queued =>
      refine on rfl (fun _ _ stored => stored) rfl rfl ?_
      intro streamId origin fin
      cases fin with
      | queued mem fin => exact .queued (by rw [queued]; exact List.mem_cons_of_mem _ mem) fin
      | writing at_ fin =>
          obtain rfl := OutgoingAt.writing.inj at_
          exact .queued (by rw [queued]; exact List.mem_cons_self) fin
      | removing at_ => cases at_
  | @closed item outgoing _ _ _ queued =>
      refine on rfl (fun _ _ stored => stored) rfl rfl ?_
      intro streamId origin fin
      cases fin with
      | queued mem fin => exact .queued (by rw [queued]; exact List.mem_cons_of_mem _ mem) fin
      | writing at_ | removing at_ => cases at_
  | written | failed | dropped =>
      refine on rfl (fun _ _ stored => stored) rfl rfl ?_
      intro streamId origin fin
      cases fin with
      | queued mem fin => exact .queued mem fin
      | writing at_ | removing at_ => cases at_
  | finWritten holds empty | finFailed holds empty =>
      refine on rfl (fun _ _ stored => stored) rfl rfl ?_
      intro streamId origin fin
      cases fin with
      | queued mem fin => exact .queued mem fin
      | writing at_ => cases at_
      | removing at_ =>
          obtain rfl := OutgoingAt.removing.inj at_
          exact .writing holds empty
  | removed =>
      refine on rfl (fun _ _ stored => (Table.lookup_erase_eq_some.mp stored).2) rfl rfl
        fun streamId origin fin => ?_
      cases fin with
      | queued mem fin => exact .queued mem fin
      | writing at_ | removing at_ => cases at_

/-- A step goes on with the instances there are, or accepts a SYN. -/
theorem continues_or_accepts {event : Event} (h : Taken s event t) :
    Continues s t ∨ ∃ streamId, event = .recv .streamsLocked ∧ s.recv = .synLookup streamId ∧
      s.streams.lookup streamId = none ∧ t = s.accept streamId := by
  cases h with
  | recv does =>
      rcases does.continues_or_accepts with continues | ⟨streamId, rfl, at_, absent, rfl⟩
      · exact .inl continues
      · exact .inr ⟨streamId, rfl, at_, absent, rfl⟩
  | close does => exact .inl does.continues
  | outgoing does => exact .inl does.continues
  | task found does => exact .inl (does.did.continues found)

/-- Streams and entries bear the id of their instance. -/
structure Named (s : Session) : Prop where
  stream : ∀ (i : Nat) (inst : Instance) (me : AnyTlsStream), s.instances[i]? = some inst →
    inst.stream = some me → me.id = inst.id
  streams : ∀ streamId j, s.streams.lookup streamId = some j → s.idOf j = some streamId
  streamTasks : ∀ streamId j, s.streamTasks.lookup streamId = some j → s.idOf j = some streamId
  storing : ∀ streamId j, s.recv = .synStore streamId j → s.idOf j = some streamId

theorem named_start : Named Session.start where
  stream i inst me get := by simp [start] at get
  streams streamId j stored := by simp [start] at stored
  streamTasks streamId j stored := by simp [start] at stored
  storing streamId j storing := by simp [start] at storing

theorem Named.continues (h : Named s) (on : Continues s t) : Named t where
  stream i y me' get after := by
    obtain ⟨x, getX, id, -, stream⟩ := on.instances i y get
    obtain ⟨me, before, same⟩ := stream me' after
    rw [same, id]
    exact h.stream i x me getX before
  streams streamId j stored := by
    rw [on.ids]
    exact h.streams streamId j (on.streams streamId j stored)
  streamTasks streamId j stored := by
    rw [on.ids]
    rcases on.streamTasks streamId j stored with stored | storing
    · exact h.streamTasks streamId j stored
    · exact h.storing streamId j storing
  storing streamId j storing := by
    rw [on.ids]
    exact h.storing streamId j (on.storing streamId j storing)

theorem idOf_accept {streamId other : UInt32} {j : Nat} :
    (s.accept streamId).idOf j = some other ↔
      s.idOf j = some other ∨ j = s.instances.length ∧ other = streamId := by
  constructor
  · intro named
    obtain ⟨inst, get, rfl⟩ := idOf_eq_some.mp named
    rcases getElem?_accept_cases get with earlier | ⟨rfl, rfl⟩
    · exact .inl (idOf_of_getElem? earlier)
    · exact .inr ⟨rfl, rfl⟩
  · rintro (named | ⟨rfl, rfl⟩)
    · obtain ⟨inst, get, rfl⟩ := idOf_eq_some.mp named
      obtain ⟨inside, -⟩ := List.getElem?_eq_some_iff.mp get
      refine idOf_of_getElem? ?_
      rw [accept, List.getElem?_append_left inside, get]
    · simp [idOf, accept, Instance.new]

theorem Named.accept (h : Named s) (streamId : UInt32) : Named (s.accept streamId) where
  stream i inst me get stream := by
    rcases getElem?_accept_cases get with earlier | ⟨-, rfl⟩
    · exact h.stream i inst me earlier stream
    · obtain rfl := Option.some.inj stream
      rfl
  streams id j stored := by
    rw [idOf_accept]
    rcases Table.lookup_insert_eq_some.mp stored with ⟨rfl, rfl⟩ | ⟨-, stored⟩
    · exact .inr ⟨rfl, rfl⟩
    · exact .inl (h.streams id j stored)
  streamTasks id j stored := idOf_accept.mpr (.inl (h.streamTasks id j stored))
  storing id j storing := by
    obtain ⟨rfl, rfl⟩ := RecvAt.synStore.inj storing
    exact idOf_accept.mpr (.inr ⟨rfl, rfl⟩)

theorem Named.step {event : Event} (h : Named s) (taken : Taken s event t) : Named t := by
  rcases continues_or_accepts taken with on | ⟨streamId, -, -, -, rfl⟩
  · exact h.continues on
  · exact h.accept streamId

/-- Who is in the body of `close`. -/
def CloseAt.closer : CloseAt → Option Closer
  | .draining closer | .clearing closer | .shuttingWriter closer => some closer
  | .uncalled | .done | .abandoned _ => none

theorem abandonClose_closer {i : Nat} {close : CloseAt}
    (h : (abandonClose i close).closer = some .run) : close.closer = some .run := by
  unfold abandonClose at h
  split at h
  · split at h <;> cases h
  · split at h <;> cases h
  · split at h <;> cases h
  · exact h

/-- While the task of `run` is in the body of `close`, its receive loop is over. -/
def RunWaits (s : Session) : Prop := s.close.closer = some .run → s.recv = .closing

theorem RunWaits.answers {error : Option Bytes} (h : RunWaits s)
    (taken : Answers s i inst error t) : RunWaits t := by
  cases taken with
  | relay | fail => exact h

theorem RunWaits.finishes {closer : Closer} (taken : Finishes s closer t) : RunWaits t := by
  cases taken with
  | run | alone => exact nofun
  | task _ _ answers => exact RunWaits.answers (s := { s with close := .done }) nofun answers

theorem RunWaits.recv {event : RecvEvent} (h : RunWaits s) (taken : RecvTaken s event t) :
    RunWaits t := by
  -- the receive loop takes no step while its task is in `close`
  have on (inside : s.recv ≠ .closing) {u : Session} (close : u.close = s.close) : RunWaits u :=
    fun closing => absurd (h (close ▸ closing)) inside
  have calm (at_ : s.recv.Calm) : s.recv ≠ .closing := by
    intro closing
    rw [closing] at at_
    exact at_
  cases taken with
  | calm at_ => exact on (calm at_) rfl
  | leave at_ =>
      unfold leaveRecvLoop
      split
      case isTrue => exact on (calm at_) rfl
      case isFalse => exact fun _ => rfl
  | arrive at_ | psh at_ | syn at_ | fin at_ | pshMissed at_ | pshFound at_ | synDuplicate at_
  | synAccepted at_ | finMissed at_ | finFound at_ | stored at_ =>
      exact on (by simp [at_]) rfl
  | receiverGone at_ | pushed at_ =>
      exact on (by rcases at_ with at_ | ⟨at_, -⟩ <;> simp [at_]) rfl

theorem RunWaits.step {event : Event} (h : RunWaits s) (taken : Taken s event t) : RunWaits t := by
  cases taken with
  | recv does => exact h.recv does
  | close does =>
      cases does with
      | drained at_ | cleared at_ => exact fun closing => h (by rw [at_]; exact closing)
      | clearedLast _ finishes | shut _ finishes => exact .finishes finishes
  | outgoing does => cases does <;> exact h
  | task found does =>
      cases does with
      | absent | read | write | shutdown | synack | returned | cleanedUp => exact h
      | opened _ answers | synackFailed _ answers | synackLate _ answers => exact h.answers answers
      | synackWritten _ answers => cases answers <;> exact h
      | synackTimedOut => exact nofun
      | dropped => exact fun closing => h (abandonClose_closer closing)

end RustProxy.AnyTls
