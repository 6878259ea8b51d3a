import RustProxy.AnyTls.Session

/-!
# What a step of a session can do

The operations of a stream and the steps of each task, turned into relations
with one constructor for each way they come out. Everything that a stream task
does to the session has one form, `put`: its instance is replaced, items are
added to the outgoing channel, and the places in that channel are shared out
anew.
-/

namespace RustProxy.AnyTls

namespace Session

/-- Replace an instance and add what it sent. -/
def put (s : Session) (i : Nat) (inst : Instance) (items : List Item)
    (waiting granted : List Nat) : Session :=
  { s with
    instances := s.instances.set i inst
    outgoing := s.outgoing ++ items
    waiting
    granted }

variable {s : Session} {i : Nat} {inst : Instance} {me : AnyTlsStream}

theorem modify_eq_set {α : Type*} {xs : List α} {x : α} {f : α → α} (found : xs[i]? = some x) :
    xs.modify i f = xs.set i (f x) := by
  rw [List.modify_eq_set_getElem?, found]
  rfl

theorem modifyInstance_eq {f : Instance → Instance} (found : s.instances[i]? = some inst) :
    s.modifyInstance i f = s.put i (f inst) [] s.waiting s.granted := by
  rw [modifyInstance, modify_eq_set found]
  simp [put]

theorem getElem?_put {items : List Item} {waiting granted : List Nat} {old : Instance}
    (found : s.instances[i]? = some old) :
    (s.put i inst items waiting granted).instances[i]? = some inst := by
  obtain ⟨inside, -⟩ := List.getElem?_eq_some_iff.mp found
  simp [put, inside]

theorem modifyInstance_put {items : List Item} {waiting granted : List Nat} {old : Instance}
    {f : Instance → Instance} (found : s.instances[i]? = some old) :
    (s.put i inst items waiting granted).modifyInstance i f =
      s.put i (f inst) items waiting granted := by
  rw [modifyInstance, modify_eq_set (getElem?_put found)]
  simp [put]

/-- What stands in a list after one of its elements was replaced. -/
theorem getElem?_set_cases {α : Type*} {xs : List α} {j : Nat} {x y : α}
    (get : (xs.set i x)[j]? = some y) : j = i ∧ y = x ∨ j ≠ i ∧ xs[j]? = some y := by
  rw [List.getElem?_set] at get
  split at get
  case isTrue same =>
    split at get
    · exact .inl ⟨same.symm, (Option.some.inj get).symm⟩
    · cases get
  case isFalse different => exact .inr ⟨Ne.symm different, get⟩

/-- Replacing an element changes nothing that the new one agrees on. -/
theorem map_getElem?_set {α β : Type*} {xs : List α} {x old : α} {f : α → β}
    (found : xs[i]? = some old) (same : f x = f old) (j : Nat) :
    ((xs.set i x)[j]?).map f = (xs[j]?).map f := by
  rw [List.getElem?_set]
  split
  case isTrue own =>
    subst own
    obtain ⟨inside, -⟩ := List.getElem?_eq_some_iff.mp found
    rw [if_pos inside, found, Option.map_some, Option.map_some, same]
  case isFalse => rfl

theorem getElem?_put_cases {items : List Item} {waiting granted : List Nat} {j : Nat}
    {other : Instance} (get : (s.put i inst items waiting granted).instances[j]? = some other) :
    j = i ∧ other = inst ∨ j ≠ i ∧ s.instances[j]? = some other :=
  getElem?_set_cases get

/-- After a SYN was accepted an instance is the new one or was there before. -/
theorem getElem?_accept_cases {streamId : UInt32} {j : Nat} {other : Instance}
    (get : (s.accept streamId).instances[j]? = some other) :
    s.instances[j]? = some other ∨
      j = s.instances.length ∧ other = .new streamId s.arrived.length := by
  simp only [accept, List.getElem?_append, List.getElem?_singleton] at get
  split at get
  · exact .inl get
  · split at get
    · exact .inr ⟨by omega, (Option.some.inj get).symm⟩
    · cases get

/-- Replacing an instance by itself does nothing. -/
theorem put_self (found : s.instances[i]? = some inst) :
    s.put i inst [] s.waiting s.granted = s := by
  have same : s.instances.set i inst = s.instances := by
    apply List.ext_getElem?
    intro j
    rw [List.getElem?_set]
    split
    case isTrue same =>
      subst same
      obtain ⟨inside, -⟩ := List.getElem?_eq_some_iff.mp found
      rw [if_pos inside, found]
    case isFalse => rfl
  rw [put, same, List.append_nil]

end Session

open Session

variable {s t : Session} {i : Nat} {inst inst' : Instance} {me : AnyTlsStream}

/-- How a read of an instance's stream comes out. -/
inductive Reads (s : Session) (i : Nat) (inst : Instance) (me : AnyTlsStream) (room : Nat) :
    Poll (IoResult Bytes) → Instance → Prop
  | refused (closed : me.streamClosed = true) :
      Reads s i inst me room (.ready (.error (AnyTlsStream.brokenPipe "stream closed"))) inst
  | atEnd (ended : me.eof = true) (used : me.rest = []) :
      Reads s i inst me room (.ready (.ok [])) inst
  | kept {n : Nat} (opened : me.streamClosed = false) (left : me.rest ≠ [])
      (size : n = min me.rest.length room) :
      Reads s i inst me room (.ready (.ok (me.rest.take n))) { inst with
        stream := some (me.consume n)
        read := inst.read ++ me.rest.take n }
  | chunk {data : Bytes} {inbound : List Bytes} {n : Nat} (opened : me.streamClosed = false)
      (more : me.eof = false) (used : me.rest = []) (queued : inst.inbound = data :: inbound)
      (some_ : data ≠ []) (size : n = min data.length room) :
      Reads s i inst me room (.ready (.ok (data.take n))) { inst with
        inbound
        stream := some (me.keep data n)
        read := inst.read ++ data.take n }
  | fin {inbound : List Bytes} (opened : me.streamClosed = false) (more : me.eof = false)
      (used : me.rest = []) (queued : inst.inbound = [] :: inbound) :
      Reads s i inst me room (.ready (.ok [])) { inst with
        inbound
        finRead := true
        stream := some { me with eof := true } }
  | hungUp (opened : me.streamClosed = false) (more : me.eof = false) (used : me.rest = [])
      (empty : inst.inbound = []) (alone : s.hasSender i = false) :
      Reads s i inst me room (.ready (.ok [])) { inst with stream := some { me with eof := true } }
  | waits : Reads s i inst me room .pending inst

@[simp] theorem rest_eq_nil_iff : me.rest = [] ↔ me.readBuffer.length - me.readOffset = 0 := by
  rw [AnyTlsStream.rest, List.drop_eq_nil_iff]
  omega

/-- The bytes that an answer brings. -/
def answeredBytes : Poll (IoResult Bytes) → Bytes
  | .ready (.ok bytes) => bytes
  | _ => []

/-- The session takes over what the stream's own `poll_read` did. -/
theorem pollRead_eq {room : Nat} {budget : Bool} {answer : Poll (IoResult Bytes)}
    {me' : AnyTlsStream} {middle : Instance} (found : s.instances[i]? = some inst)
    (stream : inst.stream = some me)
    (ran : me.pollRead room (pollRecv i budget) s =
      (answer, me', s.put i middle [] s.waiting s.granted)) :
    s.pollRead i room budget = (answer, s.put i { middle with
      stream := some me', read := middle.read ++ answeredBytes answer } [] s.waiting
        s.granted) := by
  have opens : (s.instances[i]?).bind Instance.stream = some me := by simp [found, stream]
  unfold Session.pollRead withStream
  rw [opens]
  simp only [ran, modifyInstance_put found]
  rcases answer with _ | _ | bytes
  · simp [answeredBytes]
  · simp [answeredBytes]
  · simp [answeredBytes, modifyInstance_put found]

theorem pollRecv_eq (found : s.instances[i]? = some inst) (budget : Bool) :
    pollRecv i budget s =
      if !budget then (.pending, s)
      else match inst.inbound with
        | data :: inbound => (.ready (some data), s.put i { inst with
            inbound, finRead := inst.finRead || data.isEmpty } [] s.waiting s.granted)
        | [] => if s.hasSender i then (.pending, s) else (.ready none, s) := by
  unfold pollRecv
  rw [found]
  dsimp only
  cases inst.inbound with
  | nil => rfl
  | cons data inbound =>
      dsimp only
      rw [modifyInstance_eq found]

theorem pollRead_reads (found : s.instances[i]? = some inst) (stream : inst.stream = some me)
    (room : Nat) (budget : Bool) :
    ∃ inst', Reads s i inst me room (s.pollRead i room budget).1 inst' ∧
      (s.pollRead i room budget).2 = s.put i inst' [] s.waiting s.granted := by
  -- an operation that leaves the stream and the channel alone
  have idle {answer : Poll (IoResult Bytes)} (none_ : answeredBytes answer = [])
      (ran : me.pollRead room (pollRecv i budget) s = (answer, me, s))
      (reads : Reads s i inst me room answer inst) :
      ∃ inst', Reads s i inst me room (s.pollRead i room budget).1 inst' ∧
        (s.pollRead i room budget).2 = s.put i inst' [] s.waiting s.granted := by
    have same :
        { inst with stream := some me, read := inst.read ++ answeredBytes answer } = inst := by
      rw [none_, ← stream, List.append_nil]
    have put : me.pollRead room (pollRecv i budget) s =
        (answer, me, s.put i inst [] s.waiting s.granted) := by
      rw [ran, put_self found]
    have ran' := pollRead_eq found stream put
    rw [same] at ran'
    exact ⟨inst, by rw [ran']; exact ⟨reads, rfl⟩⟩
  have done (answer : Poll (IoResult Bytes)) (me' : AnyTlsStream) (middle : Instance)
      (ran : me.pollRead room (pollRecv i budget) s =
        (answer, me', s.put i middle [] s.waiting s.granted))
      (reads : Reads s i inst me room answer { middle with
        stream := some me', read := middle.read ++ answeredBytes answer }) :
      ∃ inst', Reads s i inst me room (s.pollRead i room budget).1 inst' ∧
        (s.pollRead i room budget).2 = s.put i inst' [] s.waiting s.granted :=
    ⟨_, by rw [pollRead_eq found stream ran]; exact ⟨reads, rfl⟩⟩
  by_cases closed : me.streamClosed
  · exact idle rfl (by simp [AnyTlsStream.pollRead, closed]) (.refused closed)
  have opened : me.streamClosed = false := by simpa using closed
  by_cases used : me.rest = []
  · have none_ := rest_eq_nil_iff.mp used
    by_cases ended : me.eof
    · exact idle rfl (by simp [AnyTlsStream.pollRead, opened, none_, ended]) (.atEnd ended used)
    have more : me.eof = false := by simpa using ended
    by_cases budgeted : budget
    · cases queued : inst.inbound with
      | nil =>
          by_cases sender : s.hasSender i
          · exact idle rfl (by simp [AnyTlsStream.pollRead, opened, none_, more, pollRecv_eq found,
              budgeted, queued, sender]) .waits
          · refine done (.ready (.ok [])) { me with eof := true } inst ?_ ?_
            · simp [AnyTlsStream.pollRead, opened, none_, more, pollRecv_eq found, budgeted,
                queued, sender, put_self found]
            · have alone : s.hasSender i = false := by simpa using sender
              simpa [answeredBytes] using Reads.hungUp opened more used queued alone
      | cons data inbound =>
          by_cases empty : data = []
          · subst empty
            refine done (.ready (.ok [])) { me with eof := true }
              { inst with inbound, finRead := true } ?_ ?_
            · simp [AnyTlsStream.pollRead, opened, none_, more, pollRecv_eq found, budgeted, queued]
            · simpa [answeredBytes] using Reads.fin opened more used queued
          · have some_ : data.isEmpty = false := by simpa using empty
            refine done (.ready (.ok (data.take (min data.length room))))
              (me.keep data (min data.length room)) { inst with inbound } ?_ ?_
            · simp [AnyTlsStream.pollRead, opened, none_, more, pollRecv_eq found, budgeted, queued,
                some_]
            · exact .chunk opened more used queued empty rfl
    · exact idle rfl (by simp [AnyTlsStream.pollRead, opened, none_, more, pollRecv_eq found,
        budgeted]) .waits
  · have left : ¬me.readBuffer.length - me.readOffset = 0 := fun none_ =>
      used (rest_eq_nil_iff.mpr none_)
    have length : me.readBuffer.length - me.readOffset = me.rest.length := by
      simp [AnyTlsStream.rest]
    refine done (.ready (.ok (me.rest.take (min me.rest.length room))))
      (me.consume (min me.rest.length room)) inst ?_ ?_
    · simp [AnyTlsStream.pollRead, opened, ← length, left, Nat.pos_of_ne_zero left, put_self found]
    · exact .kept opened used rfl

/-- A reservation is granted or waits; only the places are shared out anew. -/
theorem pollReserve_cases (s : Session) (i : Nat) (budget : Bool) :
    (∃ waiting, pollReserve i budget s = (.pending, { s with waiting })) ∨
      ∃ granted, pollReserve i budget s = (.ready .granted, { s with granted }) := by
  unfold pollReserve
  split
  · exact .inl ⟨s.waiting, rfl⟩
  · split
    · exact .inr ⟨s.granted.erase i, rfl⟩
    · split
      · exact .inl ⟨s.waiting, rfl⟩
      · split
        · exact .inr ⟨s.granted, rfl⟩
        · exact .inl ⟨s.waiting ++ [i], rfl⟩

theorem sendItem_eq {item : UInt32 × Bytes} (found : s.instances[i]? = some inst) :
    s.sendItem i item = s.put i { inst with sent := inst.sent ++ [item.2] }
      [⟨i, item.1, item.2⟩] s.waiting s.granted := by
  rw [sendItem, modify_eq_set found]
  rfl

/-- How a write to an instance's stream comes out. -/
inductive Writes (s : Session) (i : Nat) (inst : Instance) (me : AnyTlsStream) (buf : Bytes) :
    Poll (IoResult Nat) → Instance → List Item → Prop
  | refused {e : IoError} (closed : me.streamClosed = true ∨ me.shutdownInProgress = true ∨
      s.isClosed = true) : Writes s i inst me buf (.ready (.error e)) inst []
  | waits : Writes s i inst me buf .pending inst []
  | sent {n : Nat} (opened : me.streamClosed = false) (running : me.shutdownInProgress = false)
      (size : n = min buf.length MAX_FRAME_DATA_SIZE) :
      Writes s i inst me buf (.ready (.ok n)) { inst with
        sent := inst.sent ++ [buf.take n]
        accepted := inst.accepted ++ buf.take n } [⟨i, me.id, buf.take n⟩]

theorem pollWrite_writes (found : s.instances[i]? = some inst) (stream : inst.stream = some me)
    (buf : Bytes) (budget : Bool) :
    ∃ inst' items waiting granted, Writes s i inst me buf (s.pollWrite i buf budget).1 inst' items ∧
      (s.pollWrite i buf budget).2 = s.put i inst' items waiting granted := by
  have opens : (s.instances[i]?).bind Instance.stream = some me := by simp [found, stream]
  have same : { inst with stream := some me } = inst := by rw [← stream]
  -- an operation that leaves the stream as it is and sends nothing
  have idle (answer : Poll (IoResult Nat)) (waiting : List Nat)
      (ran : me.pollWrite buf (dataTx i budget) s.isClosed s = (answer, me, { s with waiting }))
      (notOk : ∀ n, answer ≠ .ready (.ok n)) (writes : Writes s i inst me buf answer inst []) :
      ∃ inst' items waiting granted,
        Writes s i inst me buf (s.pollWrite i buf budget).1 inst' items ∧
        (s.pollWrite i buf budget).2 = s.put i inst' items waiting granted := by
    have ended : s.pollWrite i buf budget = (answer, s.put i inst [] waiting s.granted) := by
      unfold Session.pollWrite withStream
      rw [opens]
      simp only [ran]
      rw [modifyInstance_eq (s := { s with waiting }) found, same]
      rcases answer with _ | _ | n
      · rfl
      · rfl
      · exact absurd rfl (notOk n)
    exact ⟨inst, [], waiting, s.granted, by rw [ended]; exact ⟨writes, rfl⟩⟩
  by_cases closed : me.streamClosed
  · exact idle (.ready (.error (AnyTlsStream.brokenPipe "stream closed"))) s.waiting
      (by simp [AnyTlsStream.pollWrite, closed]) (by simp)
      (.refused (.inl closed))
  by_cases shutting : me.shutdownInProgress
  · exact idle (.ready (.error (AnyTlsStream.brokenPipe "stream is shutting down"))) s.waiting
      (by simp [AnyTlsStream.pollWrite, closed, shutting]) (by simp)
      (.refused (.inr (.inl shutting)))
  by_cases sessionOver : s.isClosed
  · exact idle (.ready (.error (AnyTlsStream.brokenPipe "session closed"))) s.waiting
      (by simp [AnyTlsStream.pollWrite, closed, shutting, sessionOver]) (by simp)
      (.refused (.inr (.inr sessionOver)))
  rcases pollReserve_cases s i budget with ⟨waiting, reserve⟩ | ⟨granted, reserve⟩
  · exact idle .pending waiting
      (by simp [AnyTlsStream.pollWrite, closed, shutting, sessionOver, dataTx, reserve]) (by simp)
      .waits
  · have ended : s.pollWrite i buf budget =
        (.ready (.ok (min buf.length MAX_FRAME_DATA_SIZE)), s.put i { inst with
          sent := inst.sent ++ [buf.take (min buf.length MAX_FRAME_DATA_SIZE)]
          accepted := inst.accepted ++ buf.take (min buf.length MAX_FRAME_DATA_SIZE) }
          [⟨i, me.id, buf.take (min buf.length MAX_FRAME_DATA_SIZE)⟩] s.waiting granted) := by
      unfold Session.pollWrite withStream
      rw [opens]
      simp only [AnyTlsStream.pollWrite, closed, shutting, sessionOver, dataTx, reserve,
        Bool.false_eq_true, if_false, sendItem_eq (s := { s with granted }) found]
      rw [modifyInstance_put (s := { s with granted }) found,
        modifyInstance_put (s := { s with granted }) found]
      simp only [← stream]
      rfl
    rw [ended]
    exact ⟨_, _, _, _, .sent (by simpa using closed) (by simpa using shutting) rfl, rfl⟩

/-- How a shutdown of an instance's stream comes out. -/
inductive Shuts (s : Session) (i : Nat) (inst : Instance) (me : AnyTlsStream) (budget : Bool) :
    Poll (IoResult Unit) → Instance → List Item → Prop
  | already (closed : me.streamClosed = true) : Shuts s i inst me budget (.ready (.ok ())) inst []
  | silent (sessionOver : s.isClosed = true) :
      Shuts s i inst me budget (.ready (.ok ()))
        { inst with stream := some { me with streamClosed := true } } []
  | waits (opened : me.streamClosed = false) : Shuts s i inst me budget .pending
        { inst with stream := some { me with shutdownInProgress := true } } []
  | sent (opened : me.streamClosed = false)
      (granted : (pollReserve i budget s).1 = .ready .granted) :
      Shuts s i inst me budget (.ready (.ok ())) { inst with
        stream := some { me with shutdownInProgress := true, streamClosed := true }
        sent := inst.sent ++ [[]] } [⟨i, me.id, []⟩]

theorem pollShutdown_shuts (found : s.instances[i]? = some inst) (stream : inst.stream = some me)
    (budget : Bool) :
    ∃ inst' items waiting granted,
      Shuts s i inst me budget (s.pollShutdown i budget).1 inst' items ∧
      (s.pollShutdown i budget).2 = s.put i inst' items waiting granted := by
  have opens : (s.instances[i]?).bind Instance.stream = some me := by simp [found, stream]
  unfold Session.pollShutdown withStream
  rw [opens]
  by_cases closed : me.streamClosed
  · refine ⟨inst, [], s.waiting, s.granted, ?_⟩
    simp only [AnyTlsStream.pollShutdown, closed, if_true, modifyInstance_eq found, ← stream]
    exact ⟨.already closed, trivial⟩
  by_cases sessionOver : s.isClosed
  · simp only [AnyTlsStream.pollShutdown, closed, sessionOver, if_true, Bool.false_eq_true,
      if_false, modifyInstance_eq found]
    exact ⟨_, _, _, _, .silent sessionOver, rfl⟩
  have opened : me.streamClosed = false := by simpa using closed
  rcases pollReserve_cases s i budget with ⟨waiting, reserve⟩ | ⟨granted, reserve⟩
  · have ran : me.pollShutdown (dataTx i budget) s.isClosed s =
        (.pending, { me with shutdownInProgress := true }, { s with waiting }) := by
      rw [AnyTlsStream.pollShutdown, if_neg closed, if_neg sessionOver]
      simp only [dataTx, reserve]
    simp only [ran]
    rw [modifyInstance_eq (s := { s with waiting }) found]
    exact ⟨_, _, _, _, .waits opened, rfl⟩
  · simp only [AnyTlsStream.pollShutdown, closed, sessionOver, Bool.false_eq_true, if_false, dataTx,
      reserve, sendItem_eq (s := { s with granted }) found]
    rw [modifyInstance_put (s := { s with granted }) found]
    exact ⟨_, _, _, _, .sent opened (by rw [reserve]), rfl⟩

/-- How dropping an instance's stream comes out: its FIN is sent unless the
stream is closed or there is no room for it. -/
inductive Drops (s : Session) (i : Nat) (inst : Instance) : Instance → List Item → Prop
  | gone (none_ : inst.stream = none) : Drops s i inst inst []
  | silent {me : AnyTlsStream} (stream : inst.stream = some me)
      (why : me.streamClosed = true ∨ s.available = 0) :
      Drops s i inst { inst with stream := none, inbound := [] } []
  | fin {me : AnyTlsStream} (stream : inst.stream = some me) (opened : me.streamClosed = false) :
      Drops s i inst { inst with stream := none, inbound := [], sent := inst.sent ++ [[]] }
        [⟨i, me.id, []⟩]

/-- Handing a place over only shares the places out anew. -/
theorem handOver_eq (s : Session) :
    ∃ waiting granted, s.handOver = { s with waiting, granted } := by
  unfold handOver
  split
  · exact ⟨s.waiting, s.granted, rfl⟩
  · split
    · exact ⟨_, _, rfl⟩
    · exact ⟨s.waiting, s.granted, rfl⟩

theorem dropStream_drops (found : s.instances[i]? = some inst) :
    ∃ inst' items waiting granted, Drops s i inst inst' items ∧
      s.dropStream i = s.put i inst' items waiting granted := by
  unfold dropStream
  cases stream : inst.stream with
  | none =>
      refine ⟨inst, [], s.waiting, s.granted, .gone stream, ?_⟩
      simp [found, stream, put_self found]
  | some me =>
      simp only [found, Option.bind_some, stream]
      by_cases sends : me.streamClosed = false ∧ 0 < s.available
      · have drops : me.drop (trySend i) s = s.put i { inst with sent := inst.sent ++ [[]] }
            [⟨i, me.id, []⟩] s.waiting s.granted := by
          simp only [AnyTlsStream.drop, sends.1, trySend, sends.2, if_true, Bool.false_eq_true,
            if_false, sendItem_eq found]
        rw [drops]
        obtain ⟨waiting, granted, handed⟩ := handOver_eq
          { s.put i { inst with sent := inst.sent ++ [[]] } [⟨i, me.id, []⟩] s.waiting
              s.granted with
            waiting := s.waiting.erase i, granted := s.granted.erase i }
        refine ⟨_, _, waiting, granted, .fin stream sends.1, ?_⟩
        refine Eq.trans (congrArg (modifyInstance i _) handed) ?_
        exact modifyInstance_put (s := s) found
      · have drops : me.drop (trySend i) s = s := by
          unfold AnyTlsStream.drop trySend
          split
          case isTrue => rfl
          case isFalse closed =>
            exact if_neg fun room => sends ⟨by simpa using closed, room⟩
        rw [drops]
        obtain ⟨waiting, granted, handed⟩ := handOver_eq
          { s with waiting := s.waiting.erase i, granted := s.granted.erase i }
        refine ⟨_, [], waiting, granted, .silent stream ?_, ?_⟩
        · by_contra neither
          rw [not_or] at neither
          exact sends ⟨by simpa using neither.1, Nat.pos_of_ne_zero neither.2⟩
        · refine Eq.trans (congrArg (modifyInstance i _) handed) ?_
          exact modifyInstance_eq (s := { s with waiting, granted }) found

/-- What the operations of a stream leave alone in its instance. -/
structure SameTask (inst inst' : Instance) : Prop where
  id : inst'.id = inst.id
  task : inst'.task = inst.task
  aborted : inst'.aborted = inst.aborted
  synAt : inst'.synAt = inst.synAt

theorem Reads.sameTask {room : Nat} {answer : Poll (IoResult Bytes)}
    (h : Reads s i inst me room answer inst') : SameTask inst inst' := by
  cases h <;> exact ⟨rfl, rfl, rfl, rfl⟩

theorem Writes.sameTask {buf : Bytes} {answer : Poll (IoResult Nat)} {items : List Item}
    (h : Writes s i inst me buf answer inst' items) : SameTask inst inst' := by
  cases h <;> exact ⟨rfl, rfl, rfl, rfl⟩

theorem Shuts.sameTask {budget : Bool} {answer : Poll (IoResult Unit)} {items : List Item}
    (h : Shuts s i inst me budget answer inst' items) : SameTask inst inst' := by
  cases h <;> exact ⟨rfl, rfl, rfl, rfl⟩

theorem Drops.sameTask {items : List Item} (h : Drops s i inst inst' items) :
    SameTask inst inst' := by
  cases h <;> exact ⟨rfl, rfl, rfl, rfl⟩

theorem setTask_put {items : List Item} {waiting granted : List Nat} {task : TaskAt}
    (found : s.instances[i]? = some inst) :
    (s.put i inst' items waiting granted).setTask i task =
      s.put i { inst' with task } items waiting granted := modifyInstance_put found

/-- The stream task past its SYNACK. -/
inductive Answers (s : Session) (i : Nat) (inst : Instance) : Option Bytes → Session → Prop
  | relay : Answers s i inst none
      (s.put i { inst with task := .relaying } [] s.waiting s.granted)
  | fail {error : Bytes} {inst' : Instance} {items : List Item} {waiting granted : List Nat}
      (drops : Drops s i inst inst' items) :
      Answers s i inst (some error) (s.put i { inst' with task := .ending } items waiting granted)

theorem afterSynack_answers (found : s.instances[i]? = some inst) (error : Option Bytes) :
    Answers s i inst error (s.afterSynack i error) := by
  cases error with
  | none =>
      have done : s.afterSynack i none =
          s.put i { inst with task := .relaying } [] s.waiting s.granted := modifyInstance_eq found
      rw [done]
      exact .relay
  | some error =>
      obtain ⟨inst', items, waiting, granted, drops, done⟩ := dropStream_drops found
      rw [afterSynack, done, setTask_put found]
      exact .fail drops

/-- What the task of instance `i` can do. -/
inductive TaskTaken (s : Session) (i : Nat) (inst : Instance) : TaskEvent → Session → Prop
  | absent {event : TaskEvent} (none_ : inst.stream = none) : TaskTaken s i inst event s
  | read {room : Nat} {budget : Bool} {me : AnyTlsStream} {answer : Poll (IoResult Bytes)}
      {inst' : Instance} (at_ : inst.task = .opening ∨ inst.task = .relaying)
      (stream : inst.stream = some me) (reads : Reads s i inst me room answer inst') :
      TaskTaken s i inst (.read room budget) (s.put i inst' [] s.waiting s.granted)
  | write {buf : Bytes} {budget : Bool} {me : AnyTlsStream} {answer : Poll (IoResult Nat)}
      {inst' : Instance} {items : List Item} {waiting granted : List Nat}
      (at_ : inst.task = .relaying) (stream : inst.stream = some me)
      (writes : Writes s i inst me buf answer inst' items) :
      TaskTaken s i inst (.write buf budget) (s.put i inst' items waiting granted)
  | shutdown {budget : Bool} {me : AnyTlsStream} {answer : Poll (IoResult Unit)}
      {inst' : Instance} {items : List Item} {waiting granted : List Nat}
      (at_ : inst.task = .relaying) (stream : inst.stream = some me)
      (shuts : Shuts s i inst me budget answer inst' items) :
      TaskTaken s i inst (.shutdown budget) (s.put i inst' items waiting granted)
  | opened {error : Option Bytes} {t : Session} (at_ : inst.task = .opening)
      (answers : Answers s i inst error t) : TaskTaken s i inst (.opened error) t
  | synack {error : Option Bytes} (at_ : inst.task = .opening) :
      TaskTaken s i inst (.opened error)
        (s.put i { inst with task := .synack error } [] s.waiting s.granted)
  | synackWritten {error : Option Bytes} {t : Session} (at_ : inst.task = .synack error)
      (answers : Answers { s with wire := s.wire ++ [(some i, synackFrame inst.id error)] }
        i inst error t) : TaskTaken s i inst .synackWritten t
  | synackFailed {error : Option Bytes} {t : Session} (at_ : inst.task = .synack error)
      (answers : Answers s i inst error t) : TaskTaken s i inst .synackFailed t
  | synackLate {error : Option Bytes} {t : Session} (at_ : inst.task = .synack error)
      (answers : Answers s i inst error t) : TaskTaken s i inst .synackTimedOut t
  | synackTimedOut {error : Option Bytes} (at_ : inst.task = .synack error)
      (uncalled : s.close = .uncalled) : TaskTaken s i inst .synackTimedOut
        ({ s with close := .draining (.task i) }.put i { inst with task := .closing error } []
          s.waiting s.granted)
  | returned {inst' : Instance} {items : List Item} {waiting granted : List Nat}
      (at_ : inst.task = .opening ∨ inst.task = .relaying) (drops : Drops s i inst inst' items) :
      TaskTaken s i inst .handlerReturned
        (s.put i { inst' with task := .ending } items waiting granted)
  | cleanedUp (at_ : inst.task = .ending) : TaskTaken s i inst .cleanedUp
      ({ s with streamTasks := s.streamTasks.erase inst.id }.put i
        { inst with task := .finished } [] s.waiting s.granted)
  | dropped {inst' : Instance} {items : List Item} {waiting granted : List Nat}
      (aborted : inst.aborted = true) (going : inst.isOver = false)
      (drops : Drops s i inst inst' items) : TaskTaken s i inst .dropped
        ({ s with close := abandonClose i s.close }.put i { inst' with task := .dropped } items
          waiting granted)

@[simp] theorem isClosed_eq_false : s.isClosed = false ↔ s.close = .uncalled := by
  simp [isClosed]

theorem Drops.of_close {close : CloseAt} {items : List Item}
    (h : Drops { s with close } i inst inst' items) : Drops s i inst inst' items := by
  cases h with
  | gone none_ => exact .gone none_
  | silent stream why => exact .silent stream why
  | fin stream opened => exact .fin stream opened

/-- Operations of a stream that is gone do nothing. -/
theorem withStream_absent {α : Type}
    {op : AnyTlsStream → Session → Poll (IoResult α) × AnyTlsStream × Session}
    (found : s.instances[i]? = some inst) (absent : inst.stream = none) :
    s.withStream i op = (.pending, s) := by
  simp [withStream, found, absent]

theorem taskTaken_of_step {event : TaskEvent} (found : s.instances[i]? = some inst)
    (taken : s.taskStep i inst event = some t) : TaskTaken s i inst event t := by
  cases event with
  | read room budget =>
      simp only [taskStep, Option.ite_none_right_eq_some, Option.some.injEq] at taken
      obtain ⟨at_, rfl⟩ := taken
      cases stream : inst.stream with
      | none =>
          have idle : (s.pollRead i room budget).2 = s := by
            rw [Session.pollRead, withStream_absent found stream]
          rw [idle]
          exact .absent stream
      | some me =>
          obtain ⟨inst', reads, done⟩ := pollRead_reads found stream room budget
          rw [done]
          exact .read at_ stream reads
  | write buf budget =>
      simp only [taskStep, Option.ite_none_right_eq_some, Option.some.injEq] at taken
      obtain ⟨at_, rfl⟩ := taken
      cases stream : inst.stream with
      | none =>
          have idle : (s.pollWrite i buf budget).2 = s := by
            rw [Session.pollWrite, withStream_absent found stream]
          rw [idle]
          exact .absent stream
      | some me =>
          obtain ⟨inst', items, waiting, granted, writes, done⟩ :=
            pollWrite_writes found stream buf budget
          rw [done]
          exact .write at_ stream writes
  | shutdown budget =>
      simp only [taskStep, Option.ite_none_right_eq_some, Option.some.injEq] at taken
      obtain ⟨at_, rfl⟩ := taken
      cases stream : inst.stream with
      | none =>
          have idle : (s.pollShutdown i budget).2 = s := by
            rw [Session.pollShutdown, withStream_absent found stream]
          rw [idle]
          exact .absent stream
      | some me =>
          obtain ⟨inst', items, waiting, granted, shuts, done⟩ :=
            pollShutdown_shuts found stream budget
          rw [done]
          exact .shutdown at_ stream shuts
  | opened error =>
      simp only [taskStep, Option.ite_none_right_eq_some, Option.some.injEq] at taken
      obtain ⟨at_, rfl⟩ := taken
      split
      · exact .opened at_ (afterSynack_answers found error)
      · rw [setTask, modifyInstance_eq found]
        exact .synack at_
  | synackWritten =>
      simp only [taskStep] at taken
      split at taken
      case h_1 error at_ =>
        obtain rfl := Option.some.inj taken
        exact .synackWritten at_ (afterSynack_answers (s := { s with
          wire := s.wire ++ [(some i, synackFrame inst.id error)] }) found error)
      case h_2 => cases taken
  | synackFailed =>
      simp only [taskStep] at taken
      split at taken
      case h_1 error at_ =>
        obtain rfl := Option.some.inj taken
        exact .synackFailed at_ (afterSynack_answers found error)
      case h_2 => cases taken
  | synackTimedOut =>
      simp only [taskStep] at taken
      split at taken
      case h_1 error at_ =>
        obtain rfl := Option.some.inj taken
        split
        case isTrue => exact .synackLate at_ (afterSynack_answers found error)
        case isFalse uncalled =>
          rw [setTask, modifyInstance_eq (s := { s with close := .draining (.task i) }) found]
          exact .synackTimedOut at_ (isClosed_eq_false.mp (by simpa using uncalled))
      case h_2 => cases taken
  | handlerReturned =>
      simp only [taskStep, Option.ite_none_right_eq_some, Option.some.injEq] at taken
      obtain ⟨at_, rfl⟩ := taken
      obtain ⟨inst', items, waiting, granted, drops, done⟩ := dropStream_drops found
      rw [done, setTask_put found]
      exact .returned at_ drops
  | cleanedUp =>
      simp only [taskStep, Option.ite_none_right_eq_some, Option.some.injEq] at taken
      obtain ⟨at_, rfl⟩ := taken
      rw [setTask, modifyInstance_eq (s := { s with
        streamTasks := s.streamTasks.erase inst.id }) found]
      exact .cleanedUp at_
  | dropped =>
      simp only [taskStep, Option.ite_none_right_eq_some, Option.some.injEq, Bool.and_eq_true,
        Bool.not_eq_true'] at taken
      obtain ⟨⟨aborted, going⟩, rfl⟩ := taken
      obtain ⟨inst', items, waiting, granted, drops, done⟩ :=
        dropStream_drops (s := { s with close := abandonClose i s.close }) found
      rw [done, setTask_put (s := { s with close := abandonClose i s.close }) found]
      exact .dropped aborted going drops.of_close

/-- Await points of the receive loop that hold nothing. -/
def RecvAt.Calm : RecvAt → Prop
  | .top | .decoding | .reading | .writing _ => True
  | _ => False

/-- Frames that lead to no lookup. -/
def Frame.Quiet (frame : Frame) : Prop :=
  frame.cmd ≠ .fin ∧ (frame.cmd = .psh → frame.data = [])

/-- The events that end the receive loop. -/
def leaves (s : Session) : RecvEvent → Bool
  | .loopTop => s.isClosed
  | .decoded frame => frame.cmd = .alert
  | .undecodable | .readEnded | .controlFailed | .controlTimedOut => true
  | .controlWritten => s.recv = .writing .missingSettings
  | .exhausted | .received | .streamsLocked | .pushed | .handleStored => false

/-- What the receive loop can do. -/
inductive RecvTaken (s : Session) : RecvEvent → Session → Prop
  | calm {event : RecvEvent} {recv : RecvAt} {receivedClientSettings : Bool} {peerVersion : UInt8}
      {written : List (Option Nat × Frame)} (at_ : s.recv.Calm) (next : recv.Calm)
      (control : ∀ entry ∈ written, entry.1 = none) :
      RecvTaken s event { s with
        recv, receivedClientSettings, peerVersion, wire := s.wire ++ written }
  | leave {event : RecvEvent} {arrived : List Frame} {written : List (Option Nat × Frame)}
      (at_ : s.recv.Calm) (ends : leaves s event = true)
      (quiet : ∀ frame ∈ arrived, frame.Quiet) (control : ∀ entry ∈ written, entry.1 = none) :
      RecvTaken s event
        (leaveRecvLoop { s with arrived := s.arrived ++ arrived, wire := s.wire ++ written })
  | arrive {frame : Frame} {recv : RecvAt} {receivedClientSettings : Bool} {peerVersion : UInt8}
      (at_ : s.recv = .decoding) (next : recv.Calm) (quiet : frame.Quiet) :
      RecvTaken s (.decoded frame) { s with
        arrived := s.arrived ++ [frame], recv, receivedClientSettings, peerVersion }
  | psh {streamId : UInt32} {data : Bytes} (at_ : s.recv = .decoding) (some_ : data ≠ []) :
      RecvTaken s (.decoded (.psh streamId data)) { s with
        arrived := s.arrived ++ [.psh streamId data], recv := .pshLookup streamId data }
  | syn {streamId : UInt32} {data : Bytes} (at_ : s.recv = .decoding) :
      RecvTaken s (.decoded (.withData .syn streamId data)) { s with
        arrived := s.arrived ++ [.withData .syn streamId data], recv := .synLookup streamId }
  | fin {streamId : UInt32} {data : Bytes} (at_ : s.recv = .decoding) :
      RecvTaken s (.decoded (.withData .fin streamId data)) { s with
        arrived := s.arrived ++ [.withData .fin streamId data], recv := .finLookup streamId }
  | pshMissed {streamId : UInt32} {data : Bytes} (at_ : s.recv = .pshLookup streamId data)
      (absent : s.streams.lookup streamId = none) :
      RecvTaken s .streamsLocked { s with recv := .decoding }
  | pshFound {streamId : UInt32} {data : Bytes} {target : Nat}
      (at_ : s.recv = .pshLookup streamId data)
      (present : s.streams.lookup streamId = some target) :
      RecvTaken s .streamsLocked { s with recv := .pshSend target data }
  | synDuplicate {streamId : UInt32} {target : Nat} (at_ : s.recv = .synLookup streamId)
      (present : s.streams.lookup streamId = some target) :
      RecvTaken s .streamsLocked { s with recv := .decoding }
  | synAccepted {streamId : UInt32} (at_ : s.recv = .synLookup streamId)
      (absent : s.streams.lookup streamId = none) :
      RecvTaken s .streamsLocked (s.accept streamId)
  | finMissed {streamId : UInt32} (at_ : s.recv = .finLookup streamId)
      (absent : s.streams.lookup streamId = none) :
      RecvTaken s .streamsLocked { s with recv := .decoding }
  | finFound {streamId : UInt32} {target : Nat} (at_ : s.recv = .finLookup streamId)
      (present : s.streams.lookup streamId = some target) :
      RecvTaken s .streamsLocked { s with
        streams := s.streams.erase streamId, recv := .finSend target }
  | receiverGone {target : Nat} {data : Bytes} {inst : Instance}
      (at_ : s.recv = .pshSend target data ∨ s.recv = .finSend target ∧ data = [])
      (found : s.instances[target]? = some inst) (gone : inst.stream = none) :
      RecvTaken s .pushed { s with recv := .decoding }
  | pushed {target : Nat} {data : Bytes} {inst : Instance} {me : AnyTlsStream}
      (at_ : s.recv = .pshSend target data ∨ s.recv = .finSend target ∧ data = [])
      (found : s.instances[target]? = some inst) (stream : inst.stream = some me) :
      RecvTaken s .pushed { s with
        instances := s.instances.set target { inst with inbound := inst.inbound ++ [data] }
        recv := .decoding }
  | stored {streamId : UInt32} {target : Nat} (at_ : s.recv = .synStore streamId target) :
      RecvTaken s .handleStored { s with
        streamTasks := s.streamTasks.insert streamId target, recv := .decoding }

@[simp] theorem leaveRecvLoop_instances (s : Session) :
    s.leaveRecvLoop.instances = s.instances := by
  unfold leaveRecvLoop
  split <;> rfl

@[simp] theorem leaveRecvLoop_arrived (s : Session) : s.leaveRecvLoop.arrived = s.arrived := by
  unfold leaveRecvLoop
  split <;> rfl

theorem leaveRecvLoop_recv (s : Session) :
    s.leaveRecvLoop.recv = .closing ∨ s.leaveRecvLoop.recv = .returned := by
  unfold leaveRecvLoop
  split
  · exact .inr rfl
  · exact .inl rfl

theorem leave_of_calm {event : RecvEvent} (at_ : s.recv.Calm) (ends : leaves s event = true) :
    RecvTaken s event s.leaveRecvLoop := by
  have left := @RecvTaken.leave s event [] [] at_ ends (by simp) (by simp)
  simpa using left

theorem calm_of_recv {event : RecvEvent} {recv : RecvAt} (at_ : s.recv.Calm) (next : recv.Calm) :
    RecvTaken s event { s with recv } := by
  have moved := @RecvTaken.calm s event recv s.receivedClientSettings s.peerVersion [] at_ next
    (by simp)
  simpa using moved

theorem lookUp_taken (taken : s.lookUp = some t) : RecvTaken s .streamsLocked t := by
  unfold lookUp at taken
  split at taken
  case h_1 streamId data at_ =>
    split at taken
    case h_1 target present =>
      obtain rfl := Option.some.inj taken
      exact .pshFound at_ present
    case h_2 absent =>
      obtain rfl := Option.some.inj taken
      exact .pshMissed at_ absent
  case h_2 streamId at_ =>
    split at taken
    case h_1 target present =>
      obtain rfl := Option.some.inj taken
      exact .synDuplicate at_ present
    case h_2 absent =>
      obtain rfl := Option.some.inj taken
      exact .synAccepted at_ absent
  case h_3 streamId at_ =>
    split at taken
    case h_1 target present =>
      obtain rfl := Option.some.inj taken
      exact .finFound at_ present
    case h_2 absent =>
      obtain rfl := Option.some.inj taken
      exact .finMissed at_ absent
  case h_4 => cases taken

theorem push_taken {target : Nat} {data : Bytes}
    (at_ : s.recv = .pshSend target data ∨ s.recv = .finSend target ∧ data = [])
    (taken : s.push target data = some t) : RecvTaken s .pushed t := by
  unfold push at taken
  split at taken
  case h_1 => cases taken
  case h_2 inst found =>
    cases stream : inst.stream with
    | none =>
        obtain rfl : { s with recv := .decoding } = t := by simpa [stream] using taken
        exact .receiverGone at_ found stream
    | some me =>
        obtain ⟨-, rfl⟩ : inst.inbound.length < STREAM_CHANNEL_BUFFER ∧
            { s with
              instances := s.instances.set target { inst with inbound := inst.inbound ++ [data] }
              recv := .decoding } = t := by
          simpa [stream, modifyInstance, modify_eq_set found] using taken
        exact .pushed at_ found stream

theorem handleFrame_taken {padding : Padding} {frame : Frame} (at_ : s.recv = .decoding) :
    RecvTaken s (.decoded frame)
      ({ s with arrived := s.arrived ++ [frame] }.handleFrame padding frame) := by
  obtain ⟨cmd, streamId, data⟩ := frame
  -- a frame that leaves the receive loop at a calm point
  have arrives {recv : RecvAt} {received : Bool} {version : UInt8} (next : recv.Calm)
      (quiet : Frame.Quiet ⟨cmd, streamId, data⟩) :
      RecvTaken s (.decoded ⟨cmd, streamId, data⟩) { s with
        arrived := s.arrived ++ [⟨cmd, streamId, data⟩], recv
        receivedClientSettings := received, peerVersion := version } := .arrive at_ next quiet
  cases cmd with
  | psh =>
      by_cases empty : data = []
      · subst empty
        exact arrives trivial ⟨by simp, fun _ => rfl⟩
      · have some_ : data.isEmpty = false := by simpa using empty
        simp only [handleFrame, some_, Bool.false_eq_true, if_false]
        exact .psh at_ empty
  | syn =>
      by_cases settings : s.receivedClientSettings
      · rw [handleFrame, if_pos settings]
        exact .syn at_
      · rw [handleFrame, if_neg settings]
        exact arrives trivial ⟨by simp, by simp⟩
  | fin => exact .fin at_
  | settings =>
      have quiet : Frame.Quiet ⟨.settings, streamId, data⟩ := ⟨by simp, by simp⟩
      simp only [handleFrame]
      split
      · exact arrives trivial quiet
      · unfold answerVersion
        split
        · exact arrives trivial quiet
        · exact arrives trivial quiet
  | heartRequest => exact arrives trivial ⟨by simp, by simp⟩
  | alert =>
      have left := @RecvTaken.leave s (.decoded ⟨.alert, streamId, data⟩)
        [⟨.alert, streamId, data⟩] [] (by rw [at_]; trivial) (by simp [leaves])
        (by simp [Frame.Quiet]) (by simp)
      simpa [handleFrame] using left
  | waste | synAck | serverSettings | updatePaddingScheme | heartResponse =>
      exact arrives trivial ⟨by simp, by simp⟩

theorem recvTaken_of_step {padding : Padding} {event : RecvEvent}
    (taken : s.recvStep padding event = some t) : RecvTaken s event t := by
  cases event with
  | loopTop =>
      simp only [recvStep, Option.ite_none_right_eq_some, Option.some.injEq] at taken
      obtain ⟨at_, rfl⟩ := taken
      have calm : s.recv.Calm := by rw [at_]; trivial
      split
      case isTrue closed => exact leave_of_calm calm closed
      case isFalse => exact calm_of_recv calm trivial
  | decoded frame =>
      simp only [recvStep, Option.ite_none_right_eq_some, Option.some.injEq] at taken
      obtain ⟨at_, rfl⟩ := taken
      exact handleFrame_taken at_
  | undecodable | readEnded =>
      simp only [recvStep, Option.ite_none_right_eq_some, Option.some.injEq] at taken
      obtain ⟨at_, rfl⟩ := taken
      exact leave_of_calm (by rw [at_]; trivial) rfl
  | exhausted | received =>
      simp only [recvStep, Option.ite_none_right_eq_some, Option.some.injEq] at taken
      obtain ⟨at_, rfl⟩ := taken
      exact calm_of_recv (by rw [at_]; trivial) trivial
  | streamsLocked =>
      simp only [recvStep, Option.ite_none_right_eq_some] at taken
      exact lookUp_taken taken.2
  | pushed =>
      simp only [recvStep] at taken
      split at taken
      case h_1 at_ => exact push_taken (.inl at_) taken
      case h_2 at_ => exact push_taken (.inr ⟨at_, rfl⟩) taken
      case h_3 => cases taken
  | handleStored =>
      simp only [recvStep] at taken
      split at taken
      case h_1 at_ =>
        obtain rfl := Option.some.inj taken
        exact .stored at_
      case h_2 => cases taken
  | controlWritten =>
      simp only [recvStep] at taken
      split at taken
      case h_1 control at_ =>
        obtain rfl := Option.some.inj taken
        have calm : s.recv.Calm := by rw [at_]; trivial
        cases control with
        | missingSettings =>
            have left := @RecvTaken.leave s .controlWritten []
              [(none, Control.missingSettings.frame padding)] calm (by simp [leaves, at_]) (by simp)
              (by simp)
            simpa [afterControl] using left
        | updatePaddingScheme version =>
            cases version with
            | none => exact .calm calm trivial (by simp)
            | some v => exact .calm calm trivial (by simp)
        | serverSettings => exact .calm calm trivial (by simp)
        | heartResponse => exact .calm calm trivial (by simp)
      case h_2 => cases taken
  | controlFailed | controlTimedOut =>
      simp only [recvStep] at taken
      split at taken
      case h_1 at_ =>
        obtain rfl := Option.some.inj taken
        exact leave_of_calm (by rw [at_]; trivial) rfl
      case h_2 => cases taken

/-- The end of the body of `close`. -/
inductive Finishes (s : Session) : Closer → Session → Prop
  | run : Finishes s .run { s with close := .done, recv := .returned }
  | task {i : Nat} {inst : Instance} {error : Option Bytes} {t : Session}
      (found : s.instances[i]? = some inst) (at_ : inst.task = .closing error)
      (answers : Answers { s with close := .done } i inst error t) : Finishes s (.task i) t
  | alone {i : Nat} : Finishes s (.task i) { s with close := .done }

theorem finishClose_finishes (s : Session) (closer : Closer) :
    Finishes s closer (s.finishClose closer) := by
  cases closer with
  | run => exact .run
  | task i =>
      simp only [finishClose]
      split
      case h_1 error at_ =>
        obtain ⟨inst, found, task⟩ := Option.map_eq_some_iff.mp at_
        exact .task found task (afterSynack_answers (s := { s with close := .done }) found error)
      case h_2 => exact .alone

/-- What the body of `close` can do. -/
inductive CloseTaken (s : Session) : CloseEvent → Session → Prop
  | drained {closer : Closer} (at_ : s.close = .draining closer) :
      CloseTaken s .tasksDrained { s.drainTasks with close := .clearing closer }
  | cleared {closer : Closer} (at_ : s.close = .clearing closer) :
      CloseTaken s (.streamsCleared true) { s with
        streams := ∅, close := .shuttingWriter closer }
  | clearedLast {closer : Closer} {t : Session} (at_ : s.close = .clearing closer)
      (finishes : Finishes { s with streams := ∅ } closer t) :
      CloseTaken s (.streamsCleared false) t
  | shut {closer : Closer} {t : Session} (at_ : s.close = .shuttingWriter closer)
      (finishes : Finishes s closer t) : CloseTaken s .writerShut t

theorem closeTaken_of_step {event : CloseEvent} (taken : s.closeStep event = some t) :
    CloseTaken s event t := by
  cases event with
  | tasksDrained =>
      simp only [closeStep] at taken
      split at taken
      case h_1 at_ =>
        obtain rfl := Option.some.inj taken
        exact .drained at_
      case h_2 => cases taken
  | streamsCleared writerFree =>
      simp only [closeStep] at taken
      split at taken
      case h_1 closer at_ =>
        obtain rfl := Option.some.inj taken
        cases writerFree with
        | true => exact .cleared at_
        | false => exact .clearedLast at_ (finishClose_finishes _ closer)
      case h_2 => cases taken
  | writerShut =>
      simp only [closeStep] at taken
      split at taken
      case h_1 closer at_ =>
        obtain rfl := Option.some.inj taken
        exact .shut at_ (finishClose_finishes s closer)
      case h_2 => cases taken

/-- What the outgoing loop can do. -/
inductive OutgoingTaken (s : Session) : OutgoingEvent → Session → Prop
  | taken {item : Item} {outgoing : List Item} {waiting granted : List Nat}
      (at_ : s.outgoingTask = .receiving) (queued : s.outgoing = item :: outgoing) :
      OutgoingTaken s .taken { s with
        outgoing, waiting, granted, outgoingTask := .writing item }
  | closed {item : Item} {outgoing : List Item} {waiting granted : List Nat}
      (at_ : s.outgoingTask = .receiving) (queued : s.outgoing = item :: outgoing)
      (closed : s.isClosed = true) : OutgoingTaken s .taken { s with
        outgoing, waiting, granted, outgoingTask := .stopped }
  | written {item : Item} (at_ : s.outgoingTask = .writing item) (some_ : item.data ≠ []) :
      OutgoingTaken s .frameWritten { s with
        wire := s.wire ++ [(some item.origin, .psh item.streamId item.data)]
        outgoingTask := .receiving }
  | finWritten {item : Item} (at_ : s.outgoingTask = .writing item) (empty : item.data = []) :
      OutgoingTaken s .frameWritten { s with
        wire := s.wire ++ [(some item.origin, .control .fin item.streamId)]
        outgoingTask := .removing item }
  | failed {item : Item} (at_ : s.outgoingTask = .writing item) (some_ : item.data ≠ []) :
      OutgoingTaken s .frameFailed { s with outgoingTask := .stopped }
  | finFailed {item : Item} (at_ : s.outgoingTask = .writing item) (empty : item.data = []) :
      OutgoingTaken s .frameFailed { s with outgoingTask := .removing item }
  | removed {item : Item} (at_ : s.outgoingTask = .removing item) :
      OutgoingTaken s .entryRemoved { s with
        streams := s.streams.erase item.streamId, outgoingTask := .receiving }
  | dropped (at_ : s.recv = .returned) :
      OutgoingTaken s .dropped { s with outgoingTask := .stopped }

theorem outgoingTaken_of_step {event : OutgoingEvent} (taken : s.outgoingStep event = some t) :
    OutgoingTaken s event t := by
  cases event with
  | taken =>
      simp only [outgoingStep] at taken
      split at taken
      case h_1 item outgoing at_ queued =>
        obtain rfl := Option.some.inj taken
        obtain ⟨waiting, granted, handed⟩ := handOver_eq { s with outgoing }
        rw [handed]
        by_cases closed : s.isClosed
        · simp only [closed, if_true]
          exact .closed at_ queued closed
        · simp only [closed, Bool.false_eq_true, if_false]
          exact .taken at_ queued
      case h_2 => cases taken
  | frameWritten =>
      simp only [outgoingStep] at taken
      split at taken
      case h_1 item at_ =>
        obtain rfl := Option.some.inj taken
        by_cases empty : item.data = []
        · simp only [Item.frame, empty, List.isEmpty_nil, if_true]
          exact .finWritten at_ empty
        · have some_ : item.data.isEmpty = false := by simpa using empty
          simp only [Item.frame, some_, Bool.false_eq_true, if_false]
          exact .written at_ empty
      case h_2 => cases taken
  | frameFailed =>
      simp only [outgoingStep] at taken
      split at taken
      case h_1 item at_ =>
        obtain rfl := Option.some.inj taken
        by_cases empty : item.data = []
        · simp only [empty, List.isEmpty_nil, if_true]
          exact .finFailed at_ empty
        · have some_ : item.data.isEmpty = false := by simpa using empty
          simp only [some_, Bool.false_eq_true, if_false]
          exact .failed at_ empty
      case h_2 => cases taken
  | entryRemoved =>
      simp only [outgoingStep] at taken
      split at taken
      case h_1 item at_ =>
        simp only [Option.ite_none_right_eq_some, Option.some.injEq] at taken
        obtain ⟨-, rfl⟩ := taken
        exact .removed at_
      case h_2 => cases taken
  | dropped =>
      simp only [outgoingStep, Option.ite_none_right_eq_some, Option.some.injEq] at taken
      obtain ⟨at_, rfl⟩ := taken
      exact .dropped at_

/-- What any step of a session can do. -/
inductive Taken (s : Session) : Event → Session → Prop
  | recv {event : RecvEvent} {t : Session} (does : RecvTaken s event t) : Taken s (.recv event) t
  | close {event : CloseEvent} {t : Session} (does : CloseTaken s event t) :
      Taken s (.close event) t
  | outgoing {event : OutgoingEvent} {t : Session} (does : OutgoingTaken s event t) :
      Taken s (.outgoing event) t
  | task {i : Nat} {inst : Instance} {event : TaskEvent} {t : Session}
      (found : s.instances[i]? = some inst) (does : TaskTaken s i inst event t) :
      Taken s (.task i event) t

theorem taken_of_step {padding : Padding} {event : Event} (taken : s.step padding event = some t) :
    Taken s event t := by
  cases event with
  | recv event => exact .recv (recvTaken_of_step taken)
  | close event => exact .close (closeTaken_of_step taken)
  | outgoing event => exact .outgoing (outgoingTaken_of_step taken)
  | task i event =>
      obtain ⟨inst, found, taken⟩ := Option.bind_eq_some_iff.mp taken
      exact .task found (taskTaken_of_step found taken)

end RustProxy.AnyTls
