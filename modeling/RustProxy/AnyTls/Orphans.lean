import RustProxy.AnyTls.Isolation

/-!
# Entries that nobody will remove

An entry of `streams` goes away when the outgoing loop has dealt with the FIN of
its id. A stream that is shut down waits for a place in the outgoing channel
before it sends that FIN; a stream that is merely dropped tries once, and does
without it when the channel is full. Every handler that returns early (a bad
address, a destination that cannot be reached, UDP that is not enabled) leaves
its FIN to the second way, and so does a UDP relay that ends.

Such a step orphans an entry exactly when the entry is the stream's own, no
other FIN of its id is under way and no place in the channel is free.
-/

namespace RustProxy.AnyTls

open Session

/-- The FIN of an id is in the outgoing channel or in the hands of the outgoing
loop. -/
def finUnderWay (s : Session) (streamId : UInt32) : Bool :=
  s.outgoing.any (fun item => item.data.isEmpty && item.streamId = streamId) ||
    s.outgoingTask.holdsFin streamId

/-- The stream of an instance has not been dropped. -/
def hasStream (s : Session) (i : Nat) : Bool := (s.instances[i]?).any (·.stream.isSome)

/-- While the session is open, every entry has its stream or a FIN that will
remove it. -/
def NoOrphans (s : Session) : Prop :=
  s.isClosed = false → ∀ entry ∈ s.streams.entries,
    hasStream s entry.2 = true ∨ finUnderWay s entry.1 = true

instance (s : Session) : Decidable (NoOrphans s) :=
  inferInstanceAs (Decidable (_ → ∀ entry ∈ s.streams.entries, _ ∨ _))

/-- The event takes a task past its handler, where the stream is dropped. -/
def givesUp (s : Session) (inst : Instance) : TaskEvent → Bool
  | .handlerReturned => true
  | .opened error => s.peerVersion < 2 && error.isSome
  | .synackWritten | .synackFailed =>
      match inst.task with
      | .synack error => error.isSome
      | _ => false
  | .dropped => true
  | _ => false

/-- A handler that leaves an entry behind finds a place for its FIN. -/
def findsRoom (s : Session) : Event → Bool
  | .task i event =>
      match s.instances[i]? with
      | none => true
      | some inst => s.isClosed || !givesUp s inst event || inst.stream.all (·.streamClosed) ||
          s.streams.lookup inst.id ≠ some i || finUnderWay s inst.id || 0 < s.available
  | _ => true

variable {s t : Session} {i : Nat} {inst inst' : Instance} {items : List Item}

theorem finUnderWay_iff {streamId : UInt32} :
    finUnderWay s streamId = true ↔ ∃ origin, FinOnItsWay s streamId origin := by
  constructor
  · intro fin
    rcases Bool.or_eq_true _ _ |>.mp fin with queued | held
    · obtain ⟨item, mem, same⟩ := List.any_eq_true.mp queued
      simp only [Bool.and_eq_true, List.isEmpty_iff, decide_eq_true_eq] at same
      obtain ⟨empty, rfl⟩ := same
      exact ⟨item.origin, .queued mem empty⟩
    · cases at_ : s.outgoingTask with
      | receiving | stopped => simp [OutgoingAt.holdsFin, at_] at held
      | writing item =>
          simp only [OutgoingAt.holdsFin, at_, Bool.and_eq_true, List.isEmpty_iff,
            decide_eq_true_eq] at held
          obtain ⟨empty, rfl⟩ := held
          exact ⟨item.origin, .writing at_ empty⟩
      | removing item =>
          simp only [OutgoingAt.holdsFin, at_, decide_eq_true_eq] at held
          subst held
          exact ⟨item.origin, .removing at_⟩
  · rintro ⟨origin, fin⟩
    cases fin with
    | queued mem fin =>
        refine Bool.or_eq_true _ _ |>.mpr (.inl (List.any_eq_true.mpr ⟨_, mem, ?_⟩))
        simp [fin]
    | writing at_ fin => simp [finUnderWay, OutgoingAt.holdsFin, at_, fin]
    | removing at_ => simp [finUnderWay, OutgoingAt.holdsFin, at_]

/-- The stream of an instance is there and will still send a FIN. -/
def Opened (s : Session) (i : Nat) : Prop :=
  ∃ inst me, s.instances[i]? = some inst ∧ inst.stream = some me ∧ me.streamClosed = false

/-- What is behind an entry: a stream that will send its FIN, or the FIN. -/
def Covered (s : Session) (streamId : UInt32) (i : Nat) : Prop :=
  Opened s i ∨ ∃ origin, FinOnItsWay s streamId origin

/-- Every entry of an open session is covered. -/
structure Tended (s : Session) : Prop where
  named : Named s
  running : s.isClosed = false → s.recv ≠ .returned
  covered : s.isClosed = false → ∀ streamId i, s.streams.lookup streamId = some i →
    Covered s streamId i

theorem tended_start : Tended Session.start where
  named := named_start
  running _ := nofun
  covered _ streamId i stored := by simp [start] at stored

theorem Tended.noOrphans (h : Tended s) : NoOrphans s := by
  rintro stays ⟨streamId, i⟩ mem
  rcases h.covered stays streamId i (Table.mem_entries_iff.mp mem) with opened | fin
  · obtain ⟨inst, me, found, stream, -⟩ := opened
    exact .inl (by simp [hasStream, found, stream])
  · exact .inr (finUnderWay_iff.mpr fin)

/-- A session that is open has been open. -/
theorem open_before {event : Event} (taken : Taken s event t) (stays : t.isClosed = false) :
    s.isClosed = false := by
  rw [isClosed_eq_false] at stays ⊢
  cases taken with
  | recv does =>
      cases does with
      | leave =>
          unfold leaveRecvLoop at stays
          split at stays
          · exact stays
          · cases stays
      | _ => exact stays
  | close does =>
      -- the steps of `close` end in a session that is closed
      exfalso
      have done {u v : Session} {closer : Closer} (finishes : Finishes u closer v) :
          v.close = .done := by
        cases finishes with
        | run | alone => rfl
        | task _ _ answers => cases answers <;> rfl
      cases does with
      | drained | cleared => cases stays
      | clearedLast _ finishes | shut _ finishes =>
          rw [done finishes] at stays
          cases stays
  | outgoing does => cases does <;> exact stays
  | @task i _ _ _ found does =>
      cases does with
      | absent | read | write | shutdown | synack | returned | cleanedUp => exact stays
      | opened _ answers | synackWritten _ answers | synackFailed _ answers
      | synackLate _ answers => cases answers <;> exact stays
      | synackTimedOut => cases stays
      | dropped =>
          have unmoved : abandonClose i s.close = .uncalled := stays
          unfold abandonClose at unmoved
          split at unmoved
          · split at unmoved <;> cases unmoved
          · split at unmoved <;> cases unmoved
          · split at unmoved <;> cases unmoved
          · exact unmoved

/-- An open session whose loop has not returned goes on without returning. -/
theorem running_after {event : Event} (taken : Taken s event t) (stays : t.isClosed = false)
    (before : s.recv ≠ .returned) : t.recv ≠ .returned := by
  cases taken with
  | recv does =>
      have ofCalm {recv : RecvAt} (calm : recv.Calm) : recv ≠ .returned := by
        rintro rfl
        exact calm
      cases does with
      | calm _ next | arrive _ next => exact ofCalm next
      | leave =>
          unfold leaveRecvLoop at stays ⊢
          split at stays
          case isTrue closed =>
            have closed : s.isClosed = true := closed
            have stays : s.isClosed = false := stays
            rw [closed] at stays
            cases stays
          case isFalse => cases stays
      | _ => exact nofun
  | close does =>
      have uncalled := isClosed_eq_false.mp (open_before (.close does) stays)
      cases does with
      | drained at_ | cleared at_ | clearedLast at_ | shut at_ =>
          rw [uncalled] at at_
          cases at_
  | outgoing does => cases does <;> exact before
  | task found does =>
      cases does.did with
      | idle | acted => exact before

/-- The outgoing loop loses no FIN but the one whose entry it removes. -/
theorem FinOnItsWay.outgoing {event : OutgoingEvent} (taken : OutgoingTaken s event t)
    (stays : s.isClosed = false) (running : s.recv ≠ .returned) {streamId : UInt32} {origin j : Nat}
    (stored : t.streams.lookup streamId = some j) (fin : FinOnItsWay s streamId origin) :
    FinOnItsWay t streamId origin := by
  cases taken with
  | @taken item outgoing _ _ at_ queued =>
      cases fin with
      | @queued other mem empty =>
          rw [queued] at mem
          rcases List.mem_cons.mp mem with rfl | mem
          · exact .writing rfl empty
          · exact .queued mem empty
      | writing held | removing held =>
          rw [at_] at held
          cases held
  | closed _ _ closed =>
      rw [stays] at closed
      cases closed
  | written at_ some_ | failed at_ some_ =>
      cases fin with
      | queued mem empty => exact .queued mem empty
      | writing held empty =>
          obtain rfl := OutgoingAt.writing.inj (at_.symm.trans held)
          exact absurd empty some_
      | removing held =>
          rw [at_] at held
          cases held
  | finWritten at_ | finFailed at_ =>
      cases fin with
      | queued mem empty => exact .queued mem empty
      | writing held =>
          obtain rfl := OutgoingAt.writing.inj (at_.symm.trans held)
          exact .removing rfl
      | removing held =>
          rw [at_] at held
          cases held
  | removed at_ =>
      obtain ⟨different, -⟩ := Table.lookup_erase_eq_some.mp stored
      cases fin with
      | queued mem empty => exact .queued mem empty
      | writing held =>
          rw [at_] at held
          cases held
      | removing held =>
          obtain rfl := OutgoingAt.removing.inj (at_.symm.trans held)
          exact absurd rfl different
  | dropped at_ => exact absurd at_ running

/-- A step of a task keeps what is behind every entry, when it does so for the
entry of its own stream. -/
theorem Tended.put (h : Tended s) (stays : s.isClosed = false)
    (found : s.instances[i]? = some inst) {streamTasks : Table UInt32 Nat} {close : CloseAt}
    {wire : List (Option Nat × Frame)} {waiting granted : List Nat}
    (own : ∀ me, inst.stream = some me → me.streamClosed = false →
      s.streams.lookup inst.id = some i →
      (∃ me', inst'.stream = some me' ∧ me'.streamClosed = false) ∨
        (∃ item ∈ items, item.data = [] ∧ item.streamId = inst.id) ∨
          ∃ origin, FinOnItsWay s inst.id origin)
    {streamId : UInt32} {j : Nat} (stored : s.streams.lookup streamId = some j) :
    Covered ({ s with streamTasks, close, wire }.put i inst' items waiting granted) streamId j := by
  have kept {id : UInt32} {origin : Nat} (fin : FinOnItsWay s id origin) :
      FinOnItsWay ({ s with streamTasks, close, wire }.put i inst' items waiting granted) id
        origin := by
    cases fin with
    | queued mem empty => exact .queued (List.mem_append_left _ mem) empty
    | writing held empty => exact .writing held empty
    | removing held => exact .removing held
  rcases h.covered stays streamId j stored with ⟨y, me, get, stream, opened⟩ | ⟨origin, fin⟩
  · by_cases same : j = i
    · subst same
      obtain rfl := Option.some.inj (found.symm.trans get)
      have named := h.named.streams streamId j stored
      rw [idOf_of_getElem? found] at named
      obtain rfl := Option.some.inj named
      rcases own me stream opened stored with ⟨me', after, still⟩ | ⟨item, mem, empty, id⟩ | fin
      · refine .inl ⟨inst', me', ?_, after, still⟩
        exact getElem?_put (s := { s with streamTasks, close, wire }) found
      · exact .inr ⟨item.origin, id ▸ .queued (List.mem_append_right _ mem) empty⟩
      · obtain ⟨origin, fin⟩ := fin
        exact .inr ⟨origin, kept fin⟩
    · refine .inl ⟨y, me, ?_, stream, opened⟩
      rw [Session.put, List.getElem?_set_ne (Ne.symm same), get]
  · exact .inr ⟨origin, kept fin⟩

/-- So it does when it leaves its own stream as it is. -/
theorem Tended.put_same (h : Tended s) (stays : s.isClosed = false)
    (found : s.instances[i]? = some inst) (same : inst'.stream = inst.stream)
    {streamTasks : Table UInt32 Nat} {close : CloseAt} {wire : List (Option Nat × Frame)}
    {waiting granted : List Nat} {streamId : UInt32} {j : Nat}
    (stored : s.streams.lookup streamId = some j) :
    Covered ({ s with streamTasks, close, wire }.put i inst' items waiting granted) streamId j := by
  refine h.put stays found (fun me stream opened _ => .inl ⟨me, ?_, opened⟩) stored
  rw [same, stream]

variable {me : AnyTlsStream}

theorem Reads.opened {room : Nat} {answer : Poll (IoResult Bytes)}
    (reads : Reads s i inst me room answer inst') (stream : inst.stream = some me)
    (opened : me.streamClosed = false) :
    ∃ me', inst'.stream = some me' ∧ me'.streamClosed = false := by
  cases reads with
  | refused | atEnd | waits => exact ⟨me, stream, opened⟩
  | kept =>
      refine ⟨_, rfl, ?_⟩
      unfold AnyTlsStream.consume
      split <;> exact opened
  | chunk =>
      refine ⟨_, rfl, ?_⟩
      unfold AnyTlsStream.keep
      split <;> exact opened
  | fin | hungUp => exact ⟨_, rfl, opened⟩

theorem Writes.opened {buf : Bytes} {answer : Poll (IoResult Nat)}
    (writes : Writes s i inst me buf answer inst' items) (stream : inst.stream = some me)
    (opened : me.streamClosed = false) :
    ∃ me', inst'.stream = some me' ∧ me'.streamClosed = false := by
  cases writes with
  | refused | waits | sent => exact ⟨me, stream, opened⟩

/-- In an open session a shutdown that closes the stream has sent its FIN. -/
theorem Shuts.opened {budget : Bool} {answer : Poll (IoResult Unit)}
    (shuts : Shuts s i inst me budget answer inst' items) (stays : s.isClosed = false)
    (stream : inst.stream = some me) (opened : me.streamClosed = false) :
    (∃ me', inst'.stream = some me' ∧ me'.streamClosed = false) ∨
      ∃ item ∈ items, item.data = [] ∧ item.streamId = me.id := by
  cases shuts with
  | already => exact .inl ⟨me, stream, opened⟩
  | silent sessionOver =>
      rw [stays] at sessionOver
      cases sessionOver
  | waits => exact .inl ⟨_, rfl, opened⟩
  | sent => exact .inr ⟨_, List.mem_singleton_self _, rfl, rfl⟩

/-- With room in the channel an open stream does not go without its FIN. -/
theorem Drops.sends (drops : Drops s i inst inst' items) (room : 0 < s.available)
    (stream : inst.stream = some me) (opened : me.streamClosed = false) :
    ∃ item ∈ items, item.data = [] ∧ item.streamId = me.id := by
  cases drops with
  | gone none_ =>
      rw [none_] at stream
      cases stream
  | silent stream' why =>
      obtain rfl := Option.some.inj (stream.symm.trans stream')
      rcases why with closed | full
      · rw [opened] at closed
        cases closed
      · omega
  | fin stream' =>
      obtain rfl := Option.some.inj (stream.symm.trans stream')
      exact ⟨_, List.mem_singleton_self _, rfl, rfl⟩

theorem room_of_findsRoom {event : TaskEvent} (met : findsRoom s (.task i event) = true)
    (stays : s.isClosed = false) (found : s.instances[i]? = some inst)
    (gives : givesUp s inst event = true) (stream : inst.stream = some me)
    (opened : me.streamClosed = false) (stored : s.streams.lookup inst.id = some i) :
    (∃ origin, FinOnItsWay s inst.id origin) ∨ 0 < s.available := by
  simpa [findsRoom, found, stays, gives, stream, opened, stored, finUnderWay_iff] using met

/-- A handler that gives its stream up leaves its entry covered. -/
theorem Tended.drops (h : Tended s) (stays : s.isClosed = false)
    (found : s.instances[i]? = some inst) {event : TaskEvent}
    (met : findsRoom s (.task i event) = true) (gives : givesUp s inst event = true)
    (drops : Drops s i inst inst' items) {task : TaskAt} {close : CloseAt}
    {wire : List (Option Nat × Frame)} {waiting granted : List Nat} {streamId : UInt32} {j : Nat}
    (stored : s.streams.lookup streamId = some j) :
    Covered ({ s with close, wire }.put i { inst' with task } items waiting granted) streamId
      j := by
  refine h.put stays found (fun me stream opened own => .inr ?_) stored
  rcases room_of_findsRoom met stays found gives stream opened own with fin | room
  · exact .inr fin
  · rw [← h.named.stream i inst me found stream]
    exact .inl (drops.sends room stream opened)

theorem Tended.task (h : Tended s) (stays : s.isClosed = false) {event : TaskEvent}
    (met : findsRoom s (.task i event) = true) (found : s.instances[i]? = some inst)
    (taken : TaskTaken s i inst event t) (answered : event ≠ .synackTimedOut)
    (silent : ∀ error, event = .opened (some error) → s.peerVersion < 2) {streamId : UInt32}
    {j : Nat} (stored : t.streams.lookup streamId = some j) : Covered t streamId j := by
  cases taken with
  | absent => exact h.covered stays streamId j stored
  | @read _ _ me _ _ _ stream reads =>
      refine h.put stays found (fun me' stream' opened _ => .inl ?_) stored
      obtain rfl := Option.some.inj (stream.symm.trans stream')
      exact reads.opened stream opened
  | @write _ _ me _ _ _ _ _ _ stream writes =>
      refine h.put stays found (fun me' stream' opened _ => .inl ?_) stored
      obtain rfl := Option.some.inj (stream.symm.trans stream')
      exact writes.opened stream opened
  | @shutdown _ me _ _ _ _ _ _ stream shuts =>
      refine h.put stays found ?_ stored
      intro me' stream' opened _
      obtain rfl := Option.some.inj (stream.symm.trans stream')
      rw [← h.named.stream i inst me found stream]
      rcases shuts.opened stays stream opened with still | sent
      · exact .inl still
      · exact .inr (.inl sent)
  | opened at_ answers =>
      cases answers with
      | relay => exact h.put_same stays found (by rfl) stored
      | @fail error _ _ _ _ drops =>
          have gives : givesUp s inst (.opened (some error)) = true := by
            simp [givesUp, silent error rfl]
          exact h.drops stays found met gives drops stored
  | synackWritten at_ answers =>
      cases answers with
      | relay => exact h.put_same stays found (by rfl) stored
      | fail drops =>
          have gives : givesUp s inst .synackWritten = true := by simp [givesUp, at_]
          refine h.drops stays found met gives ?_ stored
          cases drops with
          | gone none_ => exact .gone none_
          | silent stream why => exact .silent stream why
          | fin stream opened => exact .fin stream opened
  | synackFailed at_ answers =>
      cases answers with
      | relay => exact h.put_same stays found (by rfl) stored
      | fail drops =>
          have gives : givesUp s inst .synackFailed = true := by simp [givesUp, at_]
          exact h.drops stays found met gives drops stored
  | synackLate | synackTimedOut => exact absurd rfl answered
  | synack | cleanedUp => exact h.put_same stays found (by rfl) stored
  | returned _ drops => exact h.drops stays found met rfl drops stored
  | dropped _ _ drops => exact h.drops stays found met rfl drops stored

/-- The receive loop keeps what is behind the entries, and a stream that it
opens has still to send its FIN. -/
theorem Tended.recv (h : Tended s) (stays : s.isClosed = false) {event : RecvEvent}
    (taken : RecvTaken s event t) {streamId : UInt32} {j : Nat}
    (stored : t.streams.lookup streamId = some j) : Covered t streamId j := by
  have on {u : Session} (instances : ∀ y : Instance, s.instances[j]? = some y →
        ∃ y', u.instances[j]? = some y' ∧ y'.stream = y.stream)
      (outgoing : u.outgoing = s.outgoing) (outgoingTask : u.outgoingTask = s.outgoingTask)
      (before : s.streams.lookup streamId = some j) : Covered u streamId j := by
    rcases h.covered stays streamId j before with ⟨y, me, get, stream, opened⟩ | ⟨origin, fin⟩
    · obtain ⟨y', get', same⟩ := instances y get
      exact .inl ⟨y', me, get', same ▸ stream, opened⟩
    · exact .inr ⟨origin, fin.of_eq outgoing.symm outgoingTask.symm⟩
  have same (y : Instance) (get : s.instances[j]? = some y) :
      ∃ y', s.instances[j]? = some y' ∧ y'.stream = y.stream := ⟨y, get, rfl⟩
  cases taken with
  | calm | arrive | psh | syn | fin | pshMissed | pshFound | synDuplicate | finMissed
  | receiverGone | stored => exact on same rfl rfl stored
  | leave =>
      unfold leaveRecvLoop at stored ⊢
      split at stored
      case isTrue closed =>
        rw [if_pos closed]
        exact on same rfl rfl stored
      case isFalse closed =>
        rw [if_neg closed]
        exact on same rfl rfl stored
  | synAccepted =>
      rcases Table.lookup_insert_eq_some.mp stored with ⟨rfl, rfl⟩ | ⟨-, stored⟩
      · exact .inl ⟨.new streamId s.arrived.length, _, by simp [accept], rfl, rfl⟩
      · refine on (fun y get => ⟨y, ?_, rfl⟩) rfl rfl stored
        rw [accept, List.getElem?_append_left (List.getElem?_eq_some_iff.mp get).1, get]
  | finFound => exact on same rfl rfl (Table.lookup_erase_eq_some.mp stored).2
  | @pushed target data inst _ _ found =>
      refine on ?_ rfl rfl stored
      intro y get
      by_cases own : target = j
      · subst own
        obtain rfl := Option.some.inj (found.symm.trans get)
        exact ⟨{ inst with inbound := inst.inbound ++ [data] },
          by simp [(List.getElem?_eq_some_iff.mp found).1], rfl⟩
      · exact ⟨y, by rw [List.getElem?_set_ne own, get], rfl⟩

theorem Tended.outgoing (h : Tended s) (stays : s.isClosed = false) {event : OutgoingEvent}
    (taken : OutgoingTaken s event t) {streamId : UInt32} {j : Nat}
    (stored : t.streams.lookup streamId = some j) : Covered t streamId j := by
  have before := (OutgoingTaken.continues taken).streams streamId j stored
  have instances : t.instances = s.instances := by cases taken <;> rfl
  rcases h.covered stays streamId j before with ⟨y, me, get, stream, opened⟩ | ⟨origin, fin⟩
  · exact .inl ⟨y, me, instances ▸ get, stream, opened⟩
  · exact .inr ⟨origin, fin.outgoing taken stays (h.running stays) stored⟩

theorem Tended.step {padding : Padding} {event : Event} (h : Tended s)
    (met : findsRoom s event = true) (taken : s.step padding event = some t) : Tended t := by
  have does := taken_of_step taken
  refine ⟨h.named.step does, fun after => ?_, fun after streamId j stored => ?_⟩
  · exact running_after does after (h.running (open_before does after))
  have stays := open_before does after
  cases event with
  | recv event =>
      cases does with
      | recv does => exact h.recv stays does stored
  | close event =>
      have uncalled := isClosed_eq_false.mp stays
      cases does with
      | close does =>
          cases does with
          | drained at_ | cleared at_ | clearedLast at_ | shut at_ =>
              rw [uncalled] at at_
              cases at_
  | outgoing event =>
      cases does with
      | outgoing does => exact h.outgoing stays does stored
  | task i event =>
      obtain ⟨inst, found, moved⟩ := Option.bind_eq_some_iff.mp taken
      have does := taskTaken_of_step found moved
      by_cases late : event = .synackTimedOut
      · -- the session is closed by this step
        subst late
        exfalso
        simp only [taskStep, stays, Bool.false_eq_true, if_false] at moved
        split at moved
        · obtain rfl := Option.some.inj moved
          cases after
        · cases moved
      by_cases answers : ∃ error, event = .opened (some error) ∧ ¬s.peerVersion < 2
      · -- the error is reported in a SYNACK, with the stream kept
        obtain ⟨error, rfl, versed⟩ := answers
        simp only [taskStep, versed, if_false, Option.ite_none_right_eq_some,
          Option.some.injEq] at moved
        obtain ⟨-, rfl⟩ := moved
        rw [setTask, modifyInstance_eq found] at stored ⊢
        exact h.put_same stays found (by rfl) stored
      · refine h.task stays met found does late ?_ stored
        intro error same
        by_contra versed
        exact answers ⟨error, same, versed⟩

/-- Dropping a stream does not touch the rest of the session, and sends nothing
while the channel is full. -/
theorem dropStream_full (found : s.instances[i]? = some inst) (stream : inst.stream = some me)
    (full : s.available = 0) (task : TaskAt) :
    ∃ waiting granted, (s.dropStream i).setTask i task =
      s.put i { inst with stream := none, inbound := [], task } [] waiting granted := by
  have sends : me.drop (trySend i) s = s := by
    unfold AnyTlsStream.drop trySend
    rw [full]
    exact ite_self s
  obtain ⟨waiting, granted, handed⟩ := handOver_eq
    { s with waiting := s.waiting.erase i, granted := s.granted.erase i }
  refine ⟨waiting, granted, ?_⟩
  have dropped : s.dropStream i =
      s.put i { inst with stream := none, inbound := [] } [] waiting granted := by
    unfold dropStream
    simp only [found, Option.bind_some, stream, sends, handed]
    exact modifyInstance_eq (s := { s with waiting, granted }) found
  rw [dropped, setTask_put found]

/-- An entry whose stream is gone, without a FIN under way, is an orphan. -/
theorem orphan_put (stays : s.isClosed = false) (found : s.instances[i]? = some inst)
    (stored : s.streams.lookup inst.id = some i) (unsent : finUnderWay s inst.id = false)
    {wire : List (Option Nat × Frame)} {waiting granted : List Nat}
    (gone : inst'.stream = none) :
    ¬NoOrphans ({ s with wire }.put i inst' [] waiting granted) := by
  intro none_
  rcases none_ stays ⟨inst.id, i⟩ (Table.mem_entries_iff.mpr stored) with kept | fin
  · simp [hasStream, getElem?_put (s := { s with wire }) found, gone] at kept
  · simp only [finUnderWay, Session.put, List.append_nil] at fin unsent
    rw [unsent] at fin
    cases fin

theorem full_of_not_findsRoom {event : TaskEvent} (found : s.instances[i]? = some inst)
    (met : ¬findsRoom s (.task i event) = true) :
    s.isClosed = false ∧ givesUp s inst event = true ∧ s.streams.lookup inst.id = some i ∧
      finUnderWay s inst.id = false ∧ s.available = 0 ∧
        ∃ me, inst.stream = some me ∧ me.streamClosed = false := by
  cases stream : inst.stream with
  | none => simp [findsRoom, found, stream] at met
  | some me =>
      simp only [findsRoom, found, stream, Bool.or_eq_true, not_or, Bool.not_eq_true,
        Bool.not_eq_eq_eq_not, Bool.not_true, decide_eq_true_eq, not_not, Option.all_some,
        Bool.not_eq_false, Nat.not_lt, Nat.le_zero] at met
      obtain ⟨⟨⟨⟨⟨stays, gives⟩, opened⟩, stored⟩, unsent⟩, full⟩ := met
      exact ⟨stays, gives, stored, unsent, full, me, rfl, opened⟩

/-- A handler that finds no place for its FIN orphans its entry. -/
theorem orphan_of_step {padding : Padding} {event : Event} (met : ¬findsRoom s event = true)
    (taken : s.step padding event = some t) : ¬NoOrphans t := by
  cases event with
  | recv | close | outgoing => exact absurd rfl met
  | task i event =>
      obtain ⟨inst, found, moved⟩ := Option.bind_eq_some_iff.mp taken
      obtain ⟨stays, gives, stored, unsent, full, me, stream, -⟩ := full_of_not_findsRoom found met
      have orphaned (wire : List (Option Nat × Frame)) (task : TaskAt) :
          ¬NoOrphans (({ s with wire }.dropStream i).setTask i task) := by
        obtain ⟨waiting, granted, dropped⟩ :=
          dropStream_full (s := { s with wire }) found stream full task
        rw [dropped]
        exact orphan_put stays found stored unsent rfl
      cases event with
      | read | write | shutdown | synackTimedOut | cleanedUp => cases gives
      | opened error =>
          simp only [givesUp, Bool.and_eq_true, decide_eq_true_eq] at gives
          obtain ⟨error, rfl⟩ := Option.isSome_iff_exists.mp gives.2
          simp only [taskStep, gives.1, if_true, Option.ite_none_right_eq_some,
            Option.some.injEq] at moved
          obtain ⟨-, rfl⟩ := moved
          exact orphaned s.wire .ending
      | synackWritten =>
          simp only [givesUp] at gives
          simp only [taskStep] at moved
          split at gives
          case h_1 error at_ =>
            obtain ⟨error, rfl⟩ := Option.isSome_iff_exists.mp gives
            rw [at_] at moved
            obtain rfl := Option.some.inj moved
            exact orphaned _ .ending
          case h_2 => cases gives
      | synackFailed =>
          simp only [givesUp] at gives
          simp only [taskStep] at moved
          split at gives
          case h_1 error at_ =>
            obtain ⟨error, rfl⟩ := Option.isSome_iff_exists.mp gives
            rw [at_] at moved
            obtain rfl := Option.some.inj moved
            exact orphaned s.wire .ending
          case h_2 => cases gives
      | handlerReturned =>
          simp only [taskStep, Option.ite_none_right_eq_some, Option.some.injEq] at moved
          obtain ⟨-, rfl⟩ := moved
          exact orphaned s.wire .ending
      | dropped =>
          simp only [taskStep, isClosed_eq_false.mp stays, abandonClose,
            Option.ite_none_right_eq_some, Option.some.injEq] at moved
          obtain ⟨-, rfl⟩ := moved
          have unclosed : { s with close := .uncalled } = s := by
            rw [← isClosed_eq_false.mp stays]
          rw [unclosed]
          exact orphaned s.wire .dropped

/-- Every entry of an open session has its stream, or a FIN under way, in every
state of a run exactly when no handler in it leaves an entry to a FIN for which
the outgoing channel has no place. -/
theorem entries_tended_iff (padding : Padding) (events : List Event) :
    Transition.Always (step padding) NoOrphans Session.start events ↔
      Transition.Along (step padding) (findsRoom · ·) Session.start events :=
  Transition.always_iff_along (I := Tended) (fun _ h => h.noOrphans)
    (fun _ _ _ h met taken => h.step met taken)
    (fun _ _ _ _ met taken => orphan_of_step met taken) tended_start events

/-- Two streams are opened; the first writes until the outgoing channel is full,
and the handler of the second returns with an error. -/
def crowdedOut : List Event :=
  [.recv .loopTop, .recv (.decoded (.control .settings 0)), .recv (.decoded (.control .syn 1)),
    .recv .streamsLocked, .recv .handleStored, .recv (.decoded (.control .syn 2)),
    .recv .streamsLocked, .recv .handleStored, .task 0 (.opened none)] ++
    List.replicate OUTGOING_BUFFER (.task 0 (.write [7] true)) ++ [.task 1 .handlerReturned]

/-- The second stream is gone and its FIN was not sent, while its entry stays. -/
theorem crowded_out_orphan :
    ¬Transition.Always (step ⟨[], []⟩) NoOrphans Session.start crowdedOut := by
  decide +kernel

end RustProxy.AnyTls
