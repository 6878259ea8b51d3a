import RustProxy.AnyTls.Codec
import RustProxy.Base.Pieces
import RustProxy.Base.Transition

/-!
# Writing frames to the connection

`write_frame` and its callers, as calls that run side by side: the outgoing
loop, `handle_frame` and the stream tasks each have one, and a control frame is
written under a timeout. A call waits for `write_buf` and keeps it to its end;
with the frame encoded there it waits for the writer, which takes the bytes in
pieces of its choice, and flushes. A call ends in the middle when the writer
fails, when its timeout passes and when its task is aborted; its locks are then
free for whoever waits. `close` takes the writer for itself if it is free.

A call that is cut short after a part of its frame leaves that part on the
wire, and the next call writes its own frame behind it. Every other end keeps
the frames whole.
-/

namespace RustProxy.AnyTls

/-- The await points of `write_frame`. -/
inductive WriteAt where
  | forBuffer
  | forWriter
  /-- in `write_all`, with the bytes that are not accepted yet -/
  | writing (rest : Bytes)
  | flushing
  | ended
  deriving DecidableEq

/-- A call of `write_frame`, by `write_control_frame` or directly. -/
structure WriteCall where
  frame : Frame
  control : Bool
  at_ : WriteAt
  deriving DecidableEq

/-- Who has locked the writer. -/
inductive WriterHolder where
  | call (i : Nat)
  | closer
  deriving DecidableEq

structure Wire where
  calls : List WriteCall
  writeBuf : Bytes
  bufHolder : Option Nat
  writer : Option WriterHolder
  /-- what the writer accepted, and from which call -/
  pieces : List (Nat × Bytes)
  deriving DecidableEq

inductive WireEvent where
  | called (frame : Frame) (control : Bool)
  | bufferLocked (i : Nat)
  | writerLocked (i : Nat)
  | accepted (i n : Nat)
  /-- `poll_write` fails, or accepts nothing -/
  | refused (i : Nat)
  /-- `flush` is through, with an error or without -/
  | flushed (i : Nat)
  | timedOut (i : Nat)
  | aborted (i : Nat)
  /-- `close` finds the writer free -/
  | closerLocked
  | closerDone
  deriving DecidableEq

namespace Wire

def start : Wire := ⟨[], [], none, none, []⟩

def moveTo (i : Nat) (at_ : WriteAt) (w : Wire) : Wire :=
  { w with calls := w.calls.modify i fun call => { call with at_ } }

/-- A call ends, and its locks with it. -/
def finish (i : Nat) (w : Wire) : Wire :=
  { w.moveTo i .ended with
    bufHolder := if w.bufHolder = some i then none else w.bufHolder
    writer := if w.writer = some (.call i) then none else w.writer }

/-- What a call does next. -/
def callStep (w : Wire) (i : Nat) (call : WriteCall) : WireEvent → Option Wire
  | .bufferLocked _ =>
      if call.at_ = .forBuffer ∧ w.bufHolder = none then
        some { w.moveTo i .forWriter with
          writeBuf := call.frame.encodeInto []
          bufHolder := some i }
      else none
  | .writerLocked _ =>
      if call.at_ = .forWriter ∧ w.writer = none then
        some { w.moveTo i (.writing w.writeBuf) with writer := some (.call i) }
      else none
  | .accepted _ n =>
      match call.at_ with
      | .writing rest =>
          if 0 < n ∧ n ≤ rest.length then
            some { w.moveTo i (if n = rest.length then .flushing else .writing (rest.drop n)) with
              pieces := w.pieces ++ [(i, rest.take n)] }
          else none
      | _ => none
  | .refused _ =>
      match call.at_ with
      | .writing _ => some (w.finish i)
      | _ => none
  | .flushed _ => if call.at_ = .flushing then some (w.finish i) else none
  | .timedOut _ => if call.control ∧ call.at_ ≠ .ended then some (w.finish i) else none
  | .aborted _ => if call.at_ ≠ .ended then some (w.finish i) else none
  | .called .. | .closerLocked | .closerDone => none

def step (w : Wire) (event : WireEvent) : Option Wire :=
  match event with
  | .called frame control => some { w with calls := w.calls ++ [⟨frame, control, .forBuffer⟩] }
  | .closerLocked => if w.writer = none then some { w with writer := some .closer } else none
  | .closerDone => if w.writer = some .closer then some { w with writer := none } else none
  | .bufferLocked i | .writerLocked i | .accepted i _ | .refused i | .flushed i | .timedOut i
  | .aborted i => (w.calls[i]?).bind fun call => w.callStep i call event

/-- The bytes that the writer has accepted. -/
def bytes (w : Wire) : Bytes := w.pieces.flatMap Prod.snd

/-- The encoding of a call's frame. -/
def message (w : Wire) (i : Nat) : Bytes := ((w.calls[i]?).map (·.frame.encode)).getD []

end Wire

open Wire Pieces

/-- The accepted bytes are a prefix of whole encodings of frames that were passed
to `write_frame`. -/
def OfWholeFrames (w : Wire) : Prop :=
  ∃ frames : List Frame, (∀ frame ∈ frames, frame ∈ w.calls.map WriteCall.frame) ∧
    w.bytes <+: (frames.map Frame.encode).flatten

/-- The wire holds whole frames up to the one being written, and no byte of
another frame comes after a part of a frame. -/
def Untorn (w : Wire) : Prop := OfWholeFrames w ∧ Unbroken w.message w.pieces

/-- The call is not in the middle of its frame. -/
def WriteCall.uncut (call : WriteCall) : Bool :=
  match call.at_ with
  | .writing rest => rest = call.frame.encode
  | _ => true

/-- No call is cut short by this event after a part of its frame was accepted. -/
def cutsNoFrame (w : Wire) : WireEvent → Bool
  | .refused i | .timedOut i | .aborted i => (w.calls[i]?).all WriteCall.uncut
  | _ => true

/-- What a call has written by the await point it has reached. -/
def WriteAt.Wrote (w : Wire) (i : Nat) (message part : Bytes) : WriteAt → Prop
  | .forBuffer => part = []
  | .forWriter => w.bufHolder = some i ∧ w.writeBuf = message ∧ part = []
  | .writing rest => w.bufHolder = some i ∧ part ++ rest = message
  | .flushing => w.bufHolder = some i ∧ part = message
  | .ended => part = [] ∨ part = message

/-- Every call has written what its await point says, one after the other. -/
structure Whole (w : Wire) : Prop where
  wrote : ∀ (i : Nat) (call : WriteCall), w.calls[i]? = some call →
    call.at_.Wrote w i call.frame.encode (partOf i w.pieces)
  known : ∀ sent ∈ w.pieces, sent.1 < w.calls.length ∧ sent.2 ≠ []
  unbroken : Unbroken w.message w.pieces

theorem whole_start : Whole Wire.start where
  wrote i call get := by simp [Wire.start] at get
  known sent mem := by simp [Wire.start] at mem
  unbroken := unbroken_nil

variable {w : Wire} {i j : Nat} {call : WriteCall}

theorem message_eq (get : w.calls[i]? = some call) : w.message i = call.frame.encode := by
  simp [Wire.message, get]

theorem WriteAt.Wrote.isPrefix {at_ : WriteAt} {message part : Bytes}
    (h : at_.Wrote w i message part) : part <+: message := by
  cases at_ with
  | forBuffer =>
      rw [show part = [] from h]
      exact List.nil_prefix
  | forWriter =>
      rw [h.2.2]
      exact List.nil_prefix
  | writing rest => exact ⟨rest, h.2⟩
  | flushing =>
      obtain ⟨-, rfl⟩ := h
      exact List.prefix_rfl
  | ended =>
      rcases h with rfl | rfl
      · exact List.nil_prefix
      · exact List.prefix_rfl

theorem Whole.part_isPrefix (h : Whole w) (i : Nat) : partOf i w.pieces <+: w.message i := by
  cases get : w.calls[i]? with
  | none =>
      rw [partOf_eq_nil]
      · exact List.nil_prefix
      · intro mem
        obtain ⟨sent, sends, rfl⟩ := List.mem_map.mp mem
        have inside := (h.known sent sends).1
        rw [List.getElem?_eq_none_iff] at get
        omega
  | some call =>
      rw [message_eq get]
      exact (h.wrote i call get).isPrefix

/-- The messages of senders are the encodings of their frames. -/
theorem flatMap_message (w : Wire) (order : List Nat) :
    order.flatMap w.message =
      ((order.filterMap fun i => (w.calls[i]?).map WriteCall.frame).map Frame.encode).flatten := by
  induction order with
  | nil => rfl
  | cons i order ih =>
      cases get : w.calls[i]? with
      | none => simp [ih, get, Wire.message]
      | some call => simp [ih, get, Wire.message]

theorem Whole.untorn (h : Whole w) : Untorn w := by
  refine ⟨?_, h.unbroken⟩
  obtain ⟨order, -, sent⟩ :=
    h.unbroken.isPrefix_messages (fun sent mem => (h.known sent mem).2) h.part_isPrefix
  refine ⟨order.filterMap fun i => (w.calls[i]?).map WriteCall.frame, ?_, ?_⟩
  · intro frame inside
    obtain ⟨i, -, found⟩ := List.mem_filterMap.mp inside
    obtain ⟨call, get, rfl⟩ := Option.map_eq_some_iff.mp found
    exact List.mem_map_of_mem (List.mem_of_getElem? get)
  · rw [← flatMap_message]
    exact sent

theorem getElem?_moveTo {at_ : WriteAt} {other : WriteCall}
    (get : (w.moveTo i at_).calls[j]? = some other) :
    ∃ before, w.calls[j]? = some before ∧ other.frame = before.frame ∧
      (j = i ∧ other.at_ = at_ ∨ j ≠ i ∧ other.at_ = before.at_) := by
  simp only [moveTo, List.getElem?_modify, Option.map_eq_map, Option.map_eq_some_iff] at get
  obtain ⟨before, found, rfl⟩ := get
  refine ⟨before, found, ?_⟩
  by_cases own : i = j
  · subst own
    exact ⟨by simp, .inl ⟨rfl, by simp⟩⟩
  · exact ⟨by simp [own], .inr ⟨Ne.symm own, by simp [own]⟩⟩

@[simp] theorem message_moveTo (w : Wire) (i : Nat) (at_ : WriteAt) :
    (w.moveTo i at_).message = w.message := by
  funext j
  simp only [Wire.message, moveTo, List.getElem?_modify, Option.map_eq_map, Option.map_map]
  congr 2
  funext call
  simp only [Function.comp_apply]
  split <;> rfl

/-- A call moves on without writing; the others are where they were. -/
theorem Whole.move {w' : Wire} (h : Whole w) (at_ : WriteAt) (get : w.calls[i]? = some call)
    (calls : w'.calls = (w.moveTo i at_).calls) (pieces : w'.pieces = w.pieces)
    (own : at_.Wrote w' i call.frame.encode (partOf i w.pieces))
    (others : ∀ (j : Nat) (other : WriteCall) (message part : Bytes), j ≠ i →
      w.calls[j]? = some other → other.at_.Wrote w j message part →
      other.at_.Wrote w' j message part) : Whole w' where
  wrote j other found := by
    rw [calls] at found
    rw [pieces]
    obtain ⟨before, foundBefore, frame, ⟨rfl, there⟩ | ⟨different, there⟩⟩ := getElem?_moveTo found
    · obtain rfl := Option.some.inj (get.symm.trans foundBefore)
      rw [there, frame]
      exact own
    · rw [there, frame]
      exact others j before _ _ different foundBefore (h.wrote j before foundBefore)
  known sent mem := by
    rw [calls, moveTo, List.length_modify]
    exact h.known sent (pieces ▸ mem)
  unbroken := by
    have same : w'.message = w.message := by
      rw [← message_moveTo w i at_]
      funext j
      rw [Wire.message, Wire.message, calls]
    rw [same, pieces]
    exact h.unbroken

/-- Steps of others that keep the holder and the contents of `write_buf`. -/
theorem WriteAt.Wrote.of_eq {w' : Wire} {at_ : WriteAt} {message part : Bytes}
    (h : at_.Wrote w j message part) (holder : w'.bufHolder = w.bufHolder)
    (buf : w'.writeBuf = w.writeBuf) : at_.Wrote w' j message part := by
  cases at_ with
  | forBuffer | ended => exact h
  | forWriter => exact ⟨holder.trans h.1, buf.trans h.2.1, h.2.2⟩
  | writing | flushing => exact ⟨holder.trans h.1, h.2⟩

/-- A call that does not hold `write_buf` has written nothing, or all. -/
theorem WriteAt.Wrote.of_not_holder {w' : Wire} {at_ : WriteAt} {message part : Bytes}
    (h : at_.Wrote w j message part) (free : w.bufHolder ≠ some j) :
    at_.Wrote w' j message part := by
  cases at_ with
  | forBuffer | ended => exact h
  | forWriter | writing | flushing => exact absurd h.1 free

/-- A call that has written something and does not hold `write_buf` is through. -/
theorem WriteAt.Wrote.whole {at_ : WriteAt} {message part : Bytes}
    (h : at_.Wrote w j message part) (free : w.bufHolder ≠ some j) (some_ : part ≠ []) :
    part = message := by
  cases at_ with
  | forBuffer => exact absurd h some_
  | forWriter | writing | flushing => exact absurd h.1 free
  | ended => exact h.resolve_left some_

theorem Whole.finish (h : Whole w) (get : w.calls[i]? = some call)
    (part : partOf i w.pieces = [] ∨ partOf i w.pieces = call.frame.encode) :
    Whole (w.finish i) := by
  refine h.move .ended get rfl rfl part ?_
  intro j other message part different found wrote
  by_cases holder : w.bufHolder = some j
  · refine wrote.of_eq ?_ rfl
    have other : ¬w.bufHolder = some i := by
      rw [holder]
      exact fun same => different (Option.some.inj same)
    simp only [Wire.finish, if_neg other]
  · exact wrote.of_not_holder holder

/-- Whoever ends before it wrote a part, or after it wrote the rest, leaves
whole frames. -/
theorem Whole.part_of_end (h : Whole w) (get : w.calls[i]? = some call)
    (uncut : call.uncut = true) :
    partOf i w.pieces = [] ∨ partOf i w.pieces = call.frame.encode := by
  have wrote := h.wrote i call get
  cases at_ : call.at_ with
  | forBuffer =>
      rw [at_] at wrote
      exact .inl wrote
  | forWriter =>
      rw [at_] at wrote
      exact .inl wrote.2.2
  | writing rest =>
      rw [at_] at wrote
      have all : rest = call.frame.encode := by simpa [WriteCall.uncut, at_] using uncut
      have sent := wrote.2
      rw [all] at sent
      exact .inl (List.append_left_eq_self.mp sent)
  | flushing =>
      rw [at_] at wrote
      exact .inr wrote.2
  | ended =>
      rw [at_] at wrote
      exact wrote

theorem Whole.partOf_new (h : Whole w) (new : w.calls.length ≤ i) : partOf i w.pieces = [] := by
  apply partOf_eq_nil
  intro mem
  obtain ⟨sent, sends, rfl⟩ := List.mem_map.mp mem
  have := (h.known sent sends).1
  omega

/-- A new call has written nothing yet. -/
theorem Whole.called (h : Whole w) (frame : Frame) (control : Bool) :
    Whole { w with calls := w.calls ++ [⟨frame, control, .forBuffer⟩] } where
  wrote i call get := by
    rw [List.getElem?_append] at get
    split at get
    case isTrue => exact (h.wrote i call get).of_eq rfl rfl
    case isFalse new =>
      have fresh : partOf i w.pieces = [] := h.partOf_new (Nat.le_of_not_lt new)
      rw [List.getElem?_singleton] at get
      split at get
      · obtain rfl := Option.some.inj get
        exact fresh
      · cases get
  known sent mem := by
    obtain ⟨inside, some_⟩ := h.known sent mem
    refine ⟨?_, some_⟩
    rw [List.length_append]
    omega
  unbroken := by
    apply h.unbroken.congr
    intro i mem
    obtain ⟨sent, sends, rfl⟩ := List.mem_map.mp mem
    simp only [Wire.message]
    rw [List.getElem?_append_left (h.known sent sends).1]

/-- The writer takes a piece of the frame that is being written. -/
theorem Whole.accepted (h : Whole w) (get : w.calls[i]? = some call) {rest : Bytes} {n : Nat}
    (at_ : call.at_ = .writing rest) (some_ : 0 < n) (inside : n ≤ rest.length) :
    Whole { w.moveTo i (if n = rest.length then .flushing else .writing (rest.drop n)) with
      pieces := w.pieces ++ [(i, rest.take n)] } where
  wrote j other found := by
    have wrote := h.wrote i call get
    rw [at_] at wrote
    obtain ⟨before, foundBefore, frame, ⟨rfl, there⟩ | ⟨different, there⟩⟩ := getElem?_moveTo found
    · obtain rfl := Option.some.inj (get.symm.trans foundBefore)
      rw [there, frame, partOf_concat_self]
      split
      case isTrue all =>
        refine ⟨wrote.1, ?_⟩
        rw [all, List.take_length]
        exact wrote.2
      case isFalse =>
        refine ⟨wrote.1, ?_⟩
        rw [List.append_assoc, List.take_append_drop]
        exact wrote.2
    · rw [there, frame, partOf_concat_ne different]
      exact (h.wrote j before foundBefore).of_eq rfl rfl
  known sent mem := by
    rw [moveTo, List.length_modify]
    rcases List.mem_append.mp mem with mem | mem
    · exact h.known sent mem
    · obtain rfl := List.mem_singleton.mp mem
      refine ⟨(List.getElem?_eq_some_iff.mp get).1, fun empty => ?_⟩
      rcases List.take_eq_nil_iff.mp empty with none_ | none_
      · omega
      · rw [none_, List.length_nil] at inside
        omega
  unbroken := by
    show Unbroken (w.moveTo i _).message (w.pieces ++ [(i, rest.take n)])
    rw [message_moveTo, unbroken_concat]
    refine ⟨h.unbroken, ?_⟩
    intro j mem different
    -- another call that has written something is through with its frame
    have sent := partOf_ne_nil (fun sent mem => (h.known sent mem).2) mem
    have holder : w.bufHolder = some i := by
      have wrote := h.wrote i call get
      rw [at_] at wrote
      exact wrote.1
    obtain ⟨other, sends, rfl⟩ := List.mem_map.mp mem
    have get := List.getElem?_eq_getElem (h.known other sends).1
    rw [message_eq get]
    refine (h.wrote other.1 _ get).whole (fun own => different ?_) sent
    exact (Option.some.inj (holder.symm.trans own)).symm

theorem Whole.step {event : WireEvent} {w' : Wire} (h : Whole w) (met : cutsNoFrame w event = true)
    (taken : w.step event = some w') : Whole w' := by
  -- the steps of a call
  have ofCall {i : Nat} (steps : (w.calls[i]?).bind (fun call => w.callStep i call event) = some w')
      (does : ∀ call, w.calls[i]? = some call → w.callStep i call event = some w' → Whole w') :
      Whole w' := by
    obtain ⟨call, get, steps⟩ := Option.bind_eq_some_iff.mp steps
    exact does call get steps
  -- a call that ends, by itself or cut short
  have ends {i : Nat} {call : WriteCall} (get : w.calls[i]? = some call)
      (uncut : call.uncut = true) : Whole (w.finish i) :=
    h.finish get (h.part_of_end get uncut)
  cases event with
  | called frame control =>
      obtain rfl := Option.some.inj taken
      exact h.called frame control
  | bufferLocked i =>
      apply ofCall taken
      intro call get steps
      simp only [callStep, Option.ite_none_right_eq_some, Option.some.injEq] at steps
      obtain ⟨⟨at_, free⟩, rfl⟩ := steps
      have wrote := h.wrote i call get
      rw [at_] at wrote
      refine h.move .forWriter get rfl rfl ⟨rfl, rfl, wrote⟩
        fun j other message part different found wrote => ?_
      exact wrote.of_not_holder (by rw [free]; exact nofun)
  | writerLocked i =>
      apply ofCall taken
      intro call get steps
      simp only [callStep, Option.ite_none_right_eq_some, Option.some.injEq] at steps
      obtain ⟨⟨at_, -⟩, rfl⟩ := steps
      have wrote := h.wrote i call get
      rw [at_] at wrote
      obtain ⟨holder, buf, none_⟩ := wrote
      refine h.move (.writing w.writeBuf) get rfl rfl ⟨holder, ?_⟩
        fun j other message part different found wrote => wrote.of_eq rfl rfl
      rw [none_, buf, List.nil_append]
  | accepted i n =>
      apply ofCall taken
      intro call get steps
      simp only [callStep] at steps
      split at steps
      case h_1 rest at_ =>
        simp only [Option.ite_none_right_eq_some, Option.some.injEq] at steps
        obtain ⟨⟨some_, inside⟩, rfl⟩ := steps
        exact h.accepted get at_ some_ inside
      case h_2 => cases steps
  | refused i =>
      apply ofCall taken
      intro call get steps
      simp only [callStep] at steps
      split at steps
      case h_1 rest at_ =>
        obtain rfl := Option.some.inj steps
        exact ends get (by simpa [cutsNoFrame, get] using met)
      case h_2 => cases steps
  | flushed i =>
      apply ofCall taken
      intro call get steps
      simp only [callStep, Option.ite_none_right_eq_some, Option.some.injEq] at steps
      obtain ⟨at_, rfl⟩ := steps
      exact ends get (by simp [WriteCall.uncut, at_])
  | timedOut i | aborted i =>
      apply ofCall taken
      intro call get steps
      simp only [callStep, Option.ite_none_right_eq_some, Option.some.injEq] at steps
      obtain ⟨-, rfl⟩ := steps
      exact ends get (by simpa [cutsNoFrame, get] using met)
  | closerLocked | closerDone =>
      simp only [Wire.step, Option.ite_none_right_eq_some, Option.some.injEq] at taken
      obtain ⟨-, rfl⟩ := taken
      exact ⟨fun i call get => (h.wrote i call get).of_eq rfl rfl, h.known, h.unbroken⟩

/-- Along every run in which no call is cut short within its frame, the wire
holds whole frames up to the one being written. -/
theorem frames_untorn_along (events : List WireEvent)
    (met : Transition.Along Wire.step (cutsNoFrame · ·) Wire.start events) :
    Transition.Always Wire.step Untorn Wire.start events :=
  Transition.always_of_along (I := Whole) (fun _ h => h.untorn)
    (fun _ _ _ h met taken => h.step met taken) whole_start met

/-- A control frame is written in two pieces while a second one waits for the
buffer until its timeout, and a data frame goes out after it. -/
def waitingTimesOut : List WireEvent :=
  [.called (.control .heartResponse 1) true, .bufferLocked 0,
    .called (.control .synAck 2) true, .called (.psh 3 [5]) false, .writerLocked 0, .accepted 0 3,
    .timedOut 1, .accepted 0 4, .flushed 0, .bufferLocked 2, .writerLocked 2, .accepted 2 8]

theorem waiting_times_out_untorn :
    Transition.Along Wire.step (cutsNoFrame · ·) Wire.start waitingTimesOut ∧
      Transition.Always Wire.step Untorn Wire.start waitingTimesOut :=
  ⟨by decide +kernel, frames_untorn_along waitingTimesOut (by decide +kernel)⟩

/-- A control frame times out when the writer has taken three of its bytes, and
the data frame that was waiting goes out. -/
def cutFrame : List WireEvent :=
  [.called (.control .heartResponse 1) true, .bufferLocked 0, .called (.psh 3 [5]) false,
    .writerLocked 0, .accepted 0 3, .timedOut 0, .bufferLocked 1, .writerLocked 1, .accepted 1 8]

/-- The data frame starts where the client expects the fourth byte of the
control frame. -/
theorem cut_frame_torn : ∃ w, cutFrame.foldlM Wire.step Wire.start = some w ∧ ¬OfWholeFrames w := by
  refine ⟨⟨[⟨.control .heartResponse 1, true, .ended⟩, ⟨.psh 3 [5], false, .flushing⟩],
    [2, 0, 0, 0, 3, 0, 1, 5], some 1, some (.call 1),
    [(0, [9, 0, 0]), (1, [2, 0, 0, 0, 3, 0, 1, 5])]⟩, by decide +kernel, ?_⟩
  rintro ⟨frames, passed, sent⟩
  cases frames with
  | nil => exact absurd (List.prefix_nil.mp sent) (by decide)
  | cons frame frames =>
      -- the first frame would begin with these four bytes, and neither does
      obtain ⟨more, sent⟩ := sent
      have front : frame.encode.take 4 = [9, 0, 0, 2] := by
        have long : 4 ≤ frame.encode.length := by
          rw [Frame.length_encode, FRAME_HEADER_SIZE]
          omega
        rw [← List.take_append_of_le_length long, ← List.flatten_cons, ← List.map_cons, ← sent]
        rfl
      have either : frame = .control .heartResponse 1 ∨ frame = .psh 3 [5] := by
        simpa using passed frame List.mem_cons_self
      rcases either with rfl | rfl <;> exact absurd front (by decide)

end RustProxy.AnyTls
