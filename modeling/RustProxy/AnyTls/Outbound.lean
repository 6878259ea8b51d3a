import Mathlib.Data.List.Infix
import RustProxy.AnyTls.Names
import RustProxy.Base.Transition

/-!
# What a stream puts on the wire

The SYNACK of an instance is written by its own task; its data and its FIN pass
through the outgoing channel and the outgoing loop. Nothing is sent before the
task is past its SYNACK, a FIN is sent only while the stream is open and closes
it, and the outgoing loop writes what it takes in the order it was sent. So the
frames of an instance on the wire are those of a prefix of what it sent, after
its SYNACK.

A write of no bytes would look like a FIN; the copy loops write none. When the
connection writer fails in the middle of a frame, there is no order to speak of.
-/

namespace RustProxy.AnyTls

open Session

/-- The frames that an instance caused on the wire. -/
def wireOf (s : Session) (i : Nat) : List Frame :=
  s.wire.filterMap fun entry => if entry.1 = some i then some entry.2 else none

/-- The frames of every instance on the wire: at most one SYNACK, then payloads,
then at most one FIN. The payloads are a prefix of what was accepted, and all of
it once the FIN is there. -/
def InOrder (s : Session) : Prop :=
  ∀ (i : Nat) (inst : Instance), s.instances[i]? = some inst →
    ∃ (synack : Option (Option Bytes)) (payloads : List Bytes) (fin : Bool),
      wireOf s i = synack.toList.map (synackFrame inst.id) ++ payloads.map (.psh inst.id) ++
        (if fin then [.control .fin inst.id] else []) ∧
      (∀ payload ∈ payloads, payload.length ≤ 65535) ∧
      payloads.flatten <+: inst.accepted ∧ (fin = true → payloads.flatten = inst.accepted)

/-- Events of a connection writer that neither fails nor times out, and of copy
loops that write no empty buffer. -/
def steady : Event → Bool
  | .recv .controlFailed | .recv .controlTimedOut | .outgoing .frameFailed => false
  | .task _ .synackFailed | .task _ .synackTimedOut => false
  | .task _ (.write buf _) => buf ≠ []
  | _ => true

/-- What an instance sent: the chunks that it accepted, then at most one FIN,
after which its stream is closed or gone. -/
structure Sends (inst : Instance) (chunks : List Bytes) (fin : Bool) : Prop where
  sent : inst.sent = chunks ++ if fin then [[]] else []
  closed : fin = true → ∀ me, inst.stream = some me → me.streamClosed = true
  sizes : ∀ chunk ∈ chunks, chunk ≠ [] ∧ chunk.length ≤ MAX_FRAME_DATA_SIZE
  accepted : chunks.flatten = inst.accepted

/-- The task is not past its SYNACK. -/
def TaskAt.early : TaskAt → Bool
  | .opening | .synack _ | .closing _ => true
  | .relaying | .ending | .finished | .dropped => false

/-- What the outgoing loop writes or is still to take. -/
def inHand (s : Session) : List Item :=
  match s.outgoingTask with
  | .writing item => item :: s.outgoing
  | .receiving | .removing _ => s.outgoing
  | .stopped => []

/-- The wire has the SYNACK and then `items`; the outgoing loop has the rest of
what the instance sent, unless it has stopped. -/
structure Carried (s : Session) (i : Nat) (inst : Instance) (synack : Option (Option Bytes))
    (items pending : List Bytes) : Prop where
  wire : wireOf s i = synack.toList.map (synackFrame inst.id) ++
    items.map fun data => (Item.mk i inst.id data).frame
  queued : (inHand s).filter (·.origin = i) = pending.map (Item.mk i inst.id)
  all : s.outgoingTask ≠ .stopped → items ++ pending = inst.sent
  upTo : items <+: inst.sent
  early : inst.task.early = true → synack = none ∧ inst.sent = []

structure Ordered (s : Session) : Prop where
  sends : ∀ (i : Nat) (inst : Instance), s.instances[i]? = some inst →
    ∃ chunks fin, Sends inst chunks fin
  carried : ∀ (i : Nat) (inst : Instance), s.instances[i]? = some inst →
    ∃ synack items pending, Carried s i inst synack items pending
  wire : ∀ entry ∈ s.wire, ∀ i ∈ entry.1, i < s.instances.length
  queue : ∀ item ∈ inHand s, item.origin < s.instances.length

theorem ordered_start : Ordered Session.start where
  sends i inst get := by simp [start] at get
  carried i inst get := by simp [start] at get
  wire entry mem := by simp [start] at mem
  queue item mem := by simp [start, inHand] at mem

variable {s t : Session} {i : Nat} {inst inst' : Instance} {items : List Item}

theorem frame_of_chunk {chunk : Bytes} {streamId : UInt32} (some_ : chunk ≠ []) :
    (Item.mk i streamId chunk).frame = .psh streamId chunk := by
  simp [Item.frame, some_]

theorem map_frame_of_chunks {chunks : List Bytes} {streamId : UInt32}
    (some_ : ∀ chunk ∈ chunks, chunk ≠ []) :
    chunks.map (fun data => (Item.mk i streamId data).frame) = chunks.map (.psh streamId) :=
  List.map_congr_left fun _ mem => frame_of_chunk (some_ _ mem)

theorem Ordered.inOrder (h : Ordered s) : InOrder s := by
  intro i inst get
  obtain ⟨chunks, fin, sends⟩ := h.sends i inst get
  obtain ⟨synack, items, pending, carried⟩ := h.carried i inst get
  -- either the FIN is on the wire, after everything else, or only chunks are
  have parts : items = chunks ++ [[]] ∨ items <+: chunks := by
    have upTo := carried.upTo
    rw [sends.sent] at upTo
    cases fin with
    | true => exact List.prefix_concat_iff.mp upTo
    | false => exact .inr (by simpa using upTo)
  rcases parts with rfl | upTo
  · refine ⟨synack, chunks, true, ?_, fun p mem => (sends.sizes p mem).2, ?_,
      fun _ => sends.accepted⟩
    · rw [carried.wire, List.map_append, map_frame_of_chunks fun p mem => (sends.sizes p mem).1,
        List.append_assoc]
      rfl
    · exact sends.accepted ▸ List.prefix_refl _
  · refine ⟨synack, items, false, ?_, fun p mem => (sends.sizes p (upTo.subset mem)).2, ?_, nofun⟩
    · rw [carried.wire, map_frame_of_chunks fun p mem => (sends.sizes p (upTo.subset mem)).1]
      simp
    · exact sends.accepted ▸ upTo.flatten

/-- What a step of a task means for what its instance sends. -/
structure Advances (i : Nat) (inst inst' : Instance) (items : List Item) : Prop where
  id : inst'.id = inst.id
  sent : inst'.sent = inst.sent ++ items.map Item.data
  own : items = (items.map Item.data).map (Item.mk i inst.id)
  early : inst'.task.early = true → inst.task.early = true ∧ items = []
  sends : ∀ chunks fin, Sends inst chunks fin → ∃ chunks' fin', Sends inst' chunks' fin'

/-- A step that sends nothing and leaves the stream no more open than it was. -/
theorem advances_of_sent (id : inst'.id = inst.id) (sent : inst'.sent = inst.sent)
    (accepted : inst'.accepted = inst.accepted)
    (early : inst'.task.early = true → inst.task.early = true)
    (closed : (∀ me, inst.stream = some me → me.streamClosed = true) →
      ∀ me, inst'.stream = some me → me.streamClosed = true) : Advances i inst inst' [] where
  id := id
  sent := by rw [sent, List.map_nil, List.append_nil]
  own := rfl
  early task := ⟨early task, rfl⟩
  sends chunks fin h := by
    refine ⟨chunks, fin, ?_, fun sentFin => closed (h.closed sentFin), h.sizes, ?_⟩
    · rw [sent, h.sent]
    · rw [accepted, h.accepted]

/-- An open stream sends its FIN and is then closed or gone. -/
theorem advances_of_fin {me : AnyTlsStream} (stream : inst.stream = some me)
    (opened : me.streamClosed = false) (named : me.id = inst.id) (id : inst'.id = inst.id)
    (sent : inst'.sent = inst.sent ++ [[]]) (accepted : inst'.accepted = inst.accepted)
    (early : inst'.task.early = false)
    (closed : ∀ me, inst'.stream = some me → me.streamClosed = true) :
    Advances i inst inst' [⟨i, me.id, []⟩] where
  id := id
  sent := sent
  own := by simp [named]
  early task := by rw [early] at task; cases task
  sends chunks fin h := by
    have unsent : fin = false := by
      by_contra sentFin
      rw [h.closed (by simpa using sentFin) me stream] at opened
      cases opened
    subst unsent
    refine ⟨chunks, true, ?_, fun _ => closed, h.sizes, ?_⟩
    · rw [sent, h.sent]
      simp
    · rw [accepted, h.accepted]

theorem Reads.advances {me : AnyTlsStream} {room : Nat} {answer : Poll (IoResult Bytes)}
    (stream : inst.stream = some me) (h : Reads s i inst me room answer inst') :
    Advances i inst inst' [] := by
  have closed {me' : AnyTlsStream} (flag : me'.streamClosed = me.streamClosed)
      (before : ∀ me, inst.stream = some me → me.streamClosed = true) (me'' : AnyTlsStream)
      (after : some me' = some me'') : me''.streamClosed = true := by
    rw [← Option.some.inj after, flag]
    exact before me stream
  cases h with
  | refused | atEnd | waits => exact advances_of_sent rfl rfl rfl id id
  | kept =>
      refine advances_of_sent rfl rfl rfl id (closed ?_)
      unfold AnyTlsStream.consume
      split <;> rfl
  | chunk =>
      refine advances_of_sent rfl rfl rfl id (closed ?_)
      unfold AnyTlsStream.keep
      split <;> rfl
  | fin | hungUp => exact advances_of_sent rfl rfl rfl id (closed rfl)

theorem Writes.advances {me : AnyTlsStream} {buf : Bytes} {answer : Poll (IoResult Nat)}
    (stream : inst.stream = some me) (named : me.id = inst.id) (some_ : buf ≠ [])
    (relaying : inst.task = .relaying) (h : Writes s i inst me buf answer inst' items) :
    Advances i inst inst' items := by
  cases h with
  | refused | waits => exact advances_of_sent rfl rfl rfl id id
  | @sent n opened _ size =>
      have chunk : buf.take n ≠ [] := by
        have length := List.length_pos_of_ne_nil some_
        simp only [ne_eq, List.take_eq_nil_iff, some_, or_false]
        simp only [MAX_FRAME_DATA_SIZE] at size
        omega
      refine ⟨rfl, rfl, by simp [named], fun task => ?_, fun chunks fin h => ?_⟩
      · simp [relaying, TaskAt.early] at task
      · have unsent : fin = false := by
          by_contra sentFin
          rw [h.closed (by simpa using sentFin) me stream] at opened
          cases opened
        subst unsent
        refine ⟨chunks ++ [buf.take n], false, ?_, nofun, ?_, ?_⟩
        · rw [h.sent]
          simp
        · intro c mem
          rcases List.mem_append.mp mem with mem | mem
          · exact h.sizes c mem
          · obtain rfl := List.mem_singleton.mp mem
            refine ⟨chunk, ?_⟩
            rw [List.length_take]
            omega
        · rw [← h.accepted]
          simp

theorem Shuts.advances {me : AnyTlsStream} {budget : Bool} {answer : Poll (IoResult Unit)}
    (stream : inst.stream = some me) (named : me.id = inst.id) (relaying : inst.task = .relaying)
    (h : Shuts s i inst me budget answer inst' items) : Advances i inst inst' items := by
  cases h with
  | already => exact advances_of_sent rfl rfl rfl id id
  | silent =>
      refine advances_of_sent rfl rfl rfl id ?_
      intro _ me' after
      rw [← Option.some.inj after]
  | waits opened =>
      refine advances_of_sent rfl rfl rfl id ?_
      intro before me' after
      rw [← Option.some.inj after]
      exact before me stream
  | sent opened =>
      refine advances_of_fin stream opened named rfl rfl rfl ?_ fun me' after => ?_
      · rw [relaying]; rfl
      · rw [← Option.some.inj after]

theorem Drops.advances {task : TaskAt} (named : ∀ me, inst.stream = some me → me.id = inst.id)
    (late : task.early = false) (h : Drops s i inst inst' items) :
    Advances i inst { inst' with task } items := by
  have never (early : task.early = true) : inst.task.early = true := by
    rw [late] at early
    cases early
  cases h with
  | gone none_ => exact advances_of_sent rfl rfl rfl never id
  | silent => exact advances_of_sent rfl rfl rfl never fun _ => nofun
  | fin stream opened =>
      exact advances_of_fin stream opened (named _ stream) rfl rfl rfl late nofun

theorem moves_advances {task : TaskAt} (early : task.early = true → inst.task.early = true) :
    Advances i inst { inst with task } [] := advances_of_sent rfl rfl rfl early id

theorem wireOf_append {written : List (Option Nat × Frame)} (wire : t.wire = s.wire ++ written)
    (j : Nat) : wireOf t j = wireOf s j ++
      written.filterMap fun entry => if entry.1 = some j then some entry.2 else none := by
  rw [wireOf, wire, List.filterMap_append]
  rfl

theorem wireOf_of_others {written : List (Option Nat × Frame)} {j : Nat}
    (wire : t.wire = s.wire ++ written) (others : ∀ entry ∈ written, entry.1 ≠ some j) :
    wireOf t j = wireOf s j := by
  rw [wireOf_append wire, List.filterMap_eq_nil_iff.mpr, List.append_nil]
  intro entry mem
  rw [if_neg (others entry mem)]

/-- What the outgoing loop has, after items were added to its channel. -/
theorem inHand_append (s : Session) (items : List Item)
    (outgoing : t.outgoing = s.outgoing ++ items) (outgoingTask : t.outgoingTask = s.outgoingTask) :
    inHand t = inHand s ++ if s.outgoingTask = .stopped then [] else items := by
  simp only [inHand, outgoing, outgoingTask]
  cases s.outgoingTask <;> simp

theorem advances_self : Advances i inst inst [] := moves_advances id

/-- An instance moves on, and may have written its SYNACK. -/
theorem Carried.advance (written : List Frame) {answer : Option (Option Bytes)}
    {done pending : List Bytes} (h : Carried s i inst answer done pending)
    (adv : Advances i inst inst' items) (outgoingTask : t.outgoingTask = s.outgoingTask)
    (frames : wireOf t i = wireOf s i ++ written)
    (queued : (inHand t).filter (·.origin = i) =
      (inHand s).filter (·.origin = i) ++ if s.outgoingTask = .stopped then [] else items)
    (synack : written = [] ∨ inst.task.early = true ∧ inst'.task.early = false ∧
      ∃ error, written = [synackFrame inst.id error]) :
    ∃ answer done pending, Carried t i inst' answer done pending := by
  obtain ⟨answer', onWire, before⟩ : ∃ answer' : Option (Option Bytes),
      wireOf t i = answer'.toList.map (synackFrame inst.id) ++
        (done.map fun data => (Item.mk i inst.id data).frame) ∧
      (inst'.task.early = true → answer' = none) := by
    rcases synack with rfl | ⟨early, late, error, rfl⟩
    · refine ⟨answer, by rw [frames, List.append_nil, h.wire], ?_⟩
      intro task
      exact (h.early (adv.early task).1).1
    · -- nothing was on the wire before the SYNACK
      obtain ⟨rfl, unsent⟩ := h.early early
      have none_ : done = [] := List.prefix_nil.mp (unsent ▸ h.upTo)
      refine ⟨some error, ?_, fun task => ?_⟩
      · rw [frames, h.wire, none_]
        rfl
      · rw [late] at task
        cases task
  refine ⟨answer', done, pending ++ if s.outgoingTask = .stopped then [] else items.map Item.data,
    ?_, ?_, fun running => ?_, ?_, fun task => ⟨before task, ?_⟩⟩
  · rw [adv.id, onWire]
  · rw [queued, h.queued, adv.id, List.map_append]
    congr 1
    split
    · rfl
    · exact adv.own
  · rw [outgoingTask] at running
    rw [if_neg running, ← List.append_assoc, h.all running, adv.sent]
  · rw [adv.sent]
    exact h.upTo.trans (List.prefix_append _ _)
  · obtain ⟨early, rfl⟩ := adv.early task
    rw [adv.sent, (h.early early).2]
    rfl

/-- No instance sends anything, and only control frames are written. -/
theorem Ordered.keep {written : List (Option Nat × Frame)} (h : Ordered s)
    (instances : ∀ (j : Nat) (y : Instance), t.instances[j]? = some y →
      ∃ x, s.instances[j]? = some x ∧ Advances j x y [])
    (length : s.instances.length ≤ t.instances.length) (outgoing : t.outgoing = s.outgoing)
    (outgoingTask : t.outgoingTask = s.outgoingTask) (wire : t.wire = s.wire ++ written)
    (control : ∀ entry ∈ written, entry.1 = none) : Ordered t := by
  have hand : inHand t = inHand s := by simp only [inHand, outgoing, outgoingTask]
  refine ⟨fun j y get => ?_, fun j y get => ?_, fun entry mem j by_ => ?_, fun item mem => ?_⟩
  · obtain ⟨x, getX, adv⟩ := instances j y get
    obtain ⟨chunks, fin, sends⟩ := h.sends j x getX
    exact adv.sends chunks fin sends
  · obtain ⟨x, getX, adv⟩ := instances j y get
    obtain ⟨answer, done, pending, carried⟩ := h.carried j x getX
    refine carried.advance [] adv outgoingTask ?_ ?_ (.inl rfl)
    · rw [List.append_nil]
      exact wireOf_of_others wire fun entry mem => by simp [control entry mem]
    · rw [hand, ite_self, List.append_nil]
  · rw [wire] at mem
    rcases List.mem_append.mp mem with mem | mem
    · exact Nat.lt_of_lt_of_le (h.wire entry mem j by_) length
    · rw [control entry mem] at by_
      cases by_
  · rw [hand] at mem
    exact Nat.lt_of_lt_of_le (h.queue item mem) length

/-- The task of an instance moves on, and may have written its SYNACK. -/
theorem Ordered.advance (h : Ordered s) (written : List Frame)
    (found : s.instances[i]? = some inst) (adv : Advances i inst inst' items)
    (instances : t.instances = s.instances.set i inst')
    (outgoing : t.outgoing = s.outgoing ++ items) (outgoingTask : t.outgoingTask = s.outgoingTask)
    (wire : t.wire = s.wire ++ written.map (some i, ·))
    (synack : written = [] ∨ inst.task.early = true ∧ inst'.task.early = false ∧
      ∃ error, written = [synackFrame inst.id error]) : Ordered t := by
  have hand := inHand_append s items outgoing outgoingTask
  have inside : i < s.instances.length := (List.getElem?_eq_some_iff.mp found).1
  have origin {item : Item} (mem : item ∈ items) : item.origin = i := by
    rw [adv.own] at mem
    obtain ⟨data, -, rfl⟩ := List.mem_map.mp mem
    rfl
  refine ⟨fun j y get => ?_, fun j y get => ?_, fun entry mem j by_ => ?_, fun item mem => ?_⟩
  · rw [instances] at get
    rcases getElem?_set_cases get with ⟨rfl, rfl⟩ | ⟨-, get⟩
    · obtain ⟨chunks, fin, sends⟩ := h.sends j inst found
      exact adv.sends chunks fin sends
    · exact h.sends j y get
  · rw [instances] at get
    rcases getElem?_set_cases get with ⟨rfl, rfl⟩ | ⟨other, get⟩
    · obtain ⟨answer, done, pending, carried⟩ := h.carried j inst found
      refine carried.advance written adv outgoingTask ?_ ?_ synack
      · rw [wireOf_append wire]
        simp [List.filterMap_map]
      · rw [hand, List.filter_append]
        split
        · rfl
        · congr 1
          exact List.filter_eq_self.mpr fun item mem => by simp [origin mem]
    · obtain ⟨answer, done, pending, carried⟩ := h.carried j y get
      refine carried.advance [] advances_self outgoingTask ?_ ?_ (.inl rfl)
      · rw [List.append_nil]
        apply wireOf_of_others wire
        intro entry mem
        obtain ⟨frame, -, rfl⟩ := List.mem_map.mp mem
        simpa using Ne.symm other
      · rw [hand, List.filter_append, ite_self]
        congr 1
        apply List.filter_eq_nil_iff.mpr
        intro item mem
        split at mem
        · cases mem
        · simpa [origin mem] using Ne.symm other
  · rw [instances, List.length_set]
    rw [wire] at mem
    rcases List.mem_append.mp mem with mem | mem
    · exact h.wire entry mem j by_
    · obtain ⟨frame, -, rfl⟩ := List.mem_map.mp mem
      obtain rfl := Option.some.inj by_
      exact inside
  · rw [instances, List.length_set]
    rw [hand] at mem
    rcases List.mem_append.mp mem with mem | mem
    · exact h.queue item mem
    · split at mem
      · cases mem
      · rw [origin mem]
        exact inside

/-- The task of an instance moves on and writes nothing. -/
theorem Ordered.move {streamTasks : Table UInt32 Nat} {close : CloseAt} {waiting granted : List Nat}
    (h : Ordered s) (found : s.instances[i]? = some inst) (adv : Advances i inst inst' items) :
    Ordered ({ s with streamTasks, close }.put i inst' items waiting granted) :=
  h.advance [] found adv rfl rfl rfl (List.append_nil _).symm (.inl rfl)

theorem Ordered.answers {error : Option Bytes} {close : CloseAt} (h : Ordered s)
    (name : ∀ me, inst.stream = some me → me.id = inst.id) (found : s.instances[i]? = some inst)
    (taken : Answers { s with close } i inst error t) : Ordered t := by
  cases taken with
  | relay => exact h.move found (moves_advances nofun)
  | fail drops => exact h.move found (drops.advances name rfl)

theorem Ordered.task {event : TaskEvent} (h : Ordered s) (named : Named s)
    (met : steady (.task i event) = true) (found : s.instances[i]? = some inst)
    (taken : TaskTaken s i inst event t) : Ordered t := by
  have name (me : AnyTlsStream) := named.stream i inst me found
  cases taken with
  | absent => exact h
  | read _ stream reads => exact h.move found (reads.advances stream)
  | write at_ stream writes =>
      exact h.move found (writes.advances stream (name _ stream) (by simpa [steady] using met) at_)
  | shutdown at_ stream shuts => exact h.move found (shuts.advances stream (name _ stream) at_)
  | opened _ answers => exact h.answers name found answers
  | synack at_ => exact h.move found (moves_advances fun _ => by rw [at_]; rfl)
  | synackWritten at_ answers =>
      have early : inst.task.early = true := by rw [at_]; rfl
      cases answers with
      | relay =>
          exact h.advance [synackFrame inst.id none] found (moves_advances (by simp [TaskAt.early]))
            rfl rfl rfl rfl (.inr ⟨early, rfl, _, rfl⟩)
      | @fail error _ _ _ _ drops =>
          exact h.advance [synackFrame inst.id (some error)] found (drops.advances name rfl)
            rfl rfl rfl rfl (.inr ⟨early, rfl, _, rfl⟩)
  | synackFailed | synackLate | synackTimedOut => cases met
  | returned _ drops | dropped _ _ drops => exact h.move found (drops.advances name rfl)
  | cleanedUp => exact h.move found (moves_advances nofun)

/-- The instances stay as they are, and no frame of theirs is written. -/
theorem Ordered.same (h : Ordered s) (instances : t.instances = s.instances)
    (outgoing : t.outgoing = s.outgoing) (outgoingTask : t.outgoingTask = s.outgoingTask)
    (wire : t.wire = s.wire) : Ordered t :=
  h.keep (fun _ y get => ⟨y, instances ▸ get, advances_self⟩) (by rw [instances]) outgoing
    outgoingTask (wire.trans (List.append_nil _).symm) nofun

/-- A new instance has nothing on the wire and nothing in the channel. -/
theorem Ordered.accept (h : Ordered s) (streamId : UInt32) : Ordered (s.accept streamId) := by
  have length : s.instances.length ≤ (s.accept streamId).instances.length := by
    simp [Session.accept]
  refine ⟨fun j y get => ?_, fun j y get => ?_, fun entry mem j by_ => ?_, fun item mem => ?_⟩
  · rcases getElem?_accept_cases get with earlier | ⟨-, rfl⟩
    · exact h.sends j y earlier
    · refine ⟨[], false, rfl, ?_, List.forall_mem_nil _, rfl⟩
      intro closed
      cases closed
  · rcases getElem?_accept_cases get with earlier | ⟨rfl, rfl⟩
    · obtain ⟨answer, done, pending, carried⟩ := h.carried j y earlier
      exact ⟨answer, done, pending, carried.wire, carried.queued, carried.all, carried.upTo,
        carried.early⟩
    · refine ⟨none, [], [], ?_, ?_, fun _ => rfl, List.nil_prefix, fun _ => ⟨rfl, rfl⟩⟩
      · refine List.filterMap_eq_nil_iff.mpr fun entry mem => if_neg ?_
        intro own
        exact Nat.lt_irrefl _ (h.wire entry mem s.instances.length own)
      · apply List.filter_eq_nil_iff.mpr
        intro item mem own
        have inside := h.queue item mem
        simp only [decide_eq_true_eq] at own
        omega
  · exact Nat.lt_of_lt_of_le (h.wire entry mem j by_) length
  · exact Nat.lt_of_lt_of_le (h.queue item mem) length

theorem Ordered.recv {event : RecvEvent} (h : Ordered s) (taken : RecvTaken s event t) :
    Ordered t := by
  cases taken with
  | calm _ _ control =>
      exact h.keep (fun _ y get => ⟨y, get, advances_self⟩) (Nat.le_refl _) rfl rfl rfl control
  | leave _ _ _ control =>
      unfold leaveRecvLoop
      split <;>
        exact h.keep (fun _ y get => ⟨y, get, advances_self⟩) (Nat.le_refl _) rfl rfl rfl control
  | arrive | psh | syn | fin | pshMissed | pshFound | synDuplicate | finMissed | finFound
  | receiverGone | stored => exact h.same rfl rfl rfl rfl
  | synAccepted => exact h.accept _
  | @pushed target data inst _ _ found =>
      have adv : Advances target inst { inst with inbound := inst.inbound ++ [data] } [] :=
        advances_of_sent rfl rfl rfl id id
      exact h.advance [] found adv rfl (List.append_nil _).symm rfl (List.append_nil _).symm
        (.inl rfl)

theorem Ordered.finishes {closer : Closer} (h : Ordered s) (named : Named s)
    (taken : Finishes s closer t) : Ordered t := by
  cases taken with
  | run | alone => exact h.same rfl rfl rfl rfl
  | task found _ answers => exact h.answers (fun me => named.stream _ _ me found) found answers

theorem Ordered.close {event : CloseEvent} (h : Ordered s) (named : Named s)
    (taken : CloseTaken s event t) : Ordered t := by
  cases taken with
  | drained =>
      refine h.keep (fun j y get => ?_) ?_ rfl rfl (List.append_nil _).symm nofun
      · obtain ⟨x, aborted, getX, rfl, -⟩ := getElem?_abortAll get
        exact ⟨x, getX, advances_of_sent rfl rfl rfl id id⟩
      · simp [drainTasks, abortAll]
  | cleared => exact h.same rfl rfl rfl rfl
  | clearedLast _ finishes =>
      have cleared : Ordered { s with streams := ∅ } := h.same rfl rfl rfl rfl
      exact cleared.finishes ⟨named.stream, by simp, named.streamTasks, named.storing⟩ finishes
  | shut _ finishes => exact h.finishes named finishes

/-- The outgoing loop goes on with the same items, or stops. -/
theorem Ordered.pass (h : Ordered s) (instances : t.instances = s.instances)
    (wire : t.wire = s.wire)
    (hand : t.outgoingTask = .stopped ∨ s.outgoingTask ≠ .stopped ∧ inHand t = inHand s) :
    Ordered t := by
  refine ⟨instances ▸ h.sends, fun j y get => ?_, by rw [wire, instances]; exact h.wire, ?_⟩
  · obtain ⟨answer, done, pending, carried⟩ := h.carried j y (instances ▸ get)
    have onWire : wireOf t j = wireOf s j := by rw [wireOf, wire]; rfl
    rcases hand with stopped | ⟨running, hand⟩
    · exact ⟨answer, done, [], onWire.trans carried.wire, by simp [inHand, stopped],
        fun running => absurd stopped running, carried.upTo, carried.early⟩
    · exact ⟨answer, done, pending, onWire.trans carried.wire, hand ▸ carried.queued,
        fun _ => carried.all running, carried.upTo, carried.early⟩
  · rw [instances]
    rcases hand with stopped | ⟨-, hand⟩
    · simp [inHand, stopped]
    · rw [hand]
      exact h.queue

/-- The outgoing loop writes the frame of the item it holds. -/
theorem Ordered.write {item : Item} (h : Ordered s) (at_ : s.outgoingTask = .writing item)
    (instances : t.instances = s.instances) (hand : inHand t = s.outgoing)
    (wire : t.wire = s.wire ++ [(some item.origin, item.frame)]) : Ordered t := by
  have before : inHand s = item :: s.outgoing := by rw [inHand, at_]
  have running : s.outgoingTask ≠ .stopped := by simp [at_]
  have origin := h.queue item (before ▸ List.mem_cons_self)
  refine ⟨instances ▸ h.sends, fun j y get => ?_, fun entry mem j by_ => ?_, fun other mem => ?_⟩
  · obtain ⟨answer, done, pending, carried⟩ := h.carried j y (instances ▸ get)
    have queued := carried.queued
    rw [before] at queued
    by_cases own : item.origin = j
    · -- the item is the first of what is pending
      rw [List.filter_cons_of_pos (by simpa using own)] at queued
      obtain ⟨data, pending', rfl, same, rest⟩ := List.map_eq_cons_iff.mp queued.symm
      have all := carried.all running
      refine ⟨answer, done ++ [data], pending', ?_, ?_, fun _ => ?_, ?_, carried.early⟩
      · rw [wireOf_append wire, carried.wire, ← same]
        simp
      · rw [hand, rest]
      · rw [← all, List.append_assoc]
        rfl
      · rw [← all]
        exact (List.prefix_append_right_inj done).mpr (List.prefix_append [data] pending')
    · rw [List.filter_cons_of_neg (by simpa using own)] at queued
      refine ⟨answer, done, pending, ?_, hand ▸ queued, fun _ => carried.all running, carried.upTo,
        carried.early⟩
      rw [wireOf_of_others wire (by simpa using own), carried.wire]
  · rw [wire] at mem
    rw [instances]
    rcases List.mem_append.mp mem with mem | mem
    · exact h.wire entry mem j by_
    · obtain rfl := List.mem_singleton.mp mem
      obtain rfl := Option.some.inj by_
      exact origin
  · rw [hand] at mem
    rw [instances]
    exact h.queue other (before ▸ List.mem_cons_of_mem _ mem)

theorem Ordered.outgoing {event : OutgoingEvent} (h : Ordered s)
    (met : steady (.outgoing event) = true) (taken : OutgoingTaken s event t) : Ordered t := by
  cases taken with
  | taken at_ queued =>
      refine h.pass rfl rfl (.inr ⟨by simp [at_], ?_⟩)
      simp [inHand, at_, queued]
  | closed | dropped => exact h.pass rfl rfl (.inl rfl)
  | written at_ some_ =>
      refine h.write at_ rfl rfl ?_
      simp [Item.frame, some_]
  | finWritten at_ empty =>
      refine h.write at_ rfl rfl ?_
      simp [Item.frame, empty]
  | failed | finFailed => cases met
  | removed at_ =>
      refine h.pass rfl rfl (.inr ⟨by simp [at_], ?_⟩)
      simp [inHand, at_]

theorem Ordered.step {event : Event} (h : Ordered s) (named : Named s)
    (met : steady event = true) (taken : Taken s event t) : Ordered t := by
  cases taken with
  | recv does => exact h.recv does
  | close does => exact h.close named does
  | outgoing does => exact h.outgoing met does
  | task found does => exact h.task named met found does

/-- Along every run of a steady connection writer, the frames of each instance
are on the wire in the order of the protocol, and lose nothing. -/
theorem in_order_along (padding : Padding) (events : List Event)
    (met : Transition.Along (step padding) (fun _ event => steady event) Session.start events) :
    Transition.Always (step padding) InOrder Session.start events := by
  refine Transition.always_of_along (I := fun s => Ordered s ∧ Named s)
    (fun _ h => h.1.inOrder) ?_ ⟨ordered_start, named_start⟩ met
  rintro s event t ⟨ordered, named⟩ met taken
  have does := taken_of_step taken
  exact ⟨ordered.step named met does, named.step does⟩

/-- A stream is opened and answered, writes two bytes, is shut down while its
second write is still in the channel, and is dropped. -/
def answeredStream : List Event :=
  [.recv .loopTop, .recv (.decoded (.withData .settings 0 ("v=2".toUTF8.toList))),
    .recv .controlWritten, .recv (.decoded (.control .syn 1)), .recv .streamsLocked,
    .recv .handleStored, .task 0 (.opened none), .task 0 .synackWritten, .task 0 (.write [7] true),
    .outgoing .taken, .outgoing .frameWritten, .task 0 (.write [8] true), .task 0 (.shutdown true),
    .outgoing .taken, .outgoing .frameWritten, .outgoing .taken, .outgoing .frameWritten,
    .outgoing .entryRemoved, .task 0 .handlerReturned]

theorem answered_stream_in_order :
    Transition.Along (step ⟨[], []⟩) (fun _ event => steady event) Session.start answeredStream ∧
      Transition.Always (step ⟨[], []⟩) InOrder Session.start answeredStream :=
  ⟨by decide +kernel, in_order_along ⟨[], []⟩ answeredStream (by decide +kernel)⟩

end RustProxy.AnyTls
