import RustProxy.AnyTls.Wire

/-!
# What the peer makes of the writes

The calls of `write_frame` run side by side and the writer takes their bytes in
pieces; the peer reads those bytes in pieces of its own and takes frames off
its buffer. As long as no call is cut short within its frame, the peer has at
every moment been handed the frames of exactly the calls whose bytes have all
been accepted, each once and in the order in which the calls began to write,
and what stays in its buffer is what one call has written of its frame so far.
-/

namespace RustProxy.AnyTls

open Wire Pieces

namespace Wire

/-- The calls whose whole frame has been accepted, in the order in which they
began to write. -/
def through (w : Wire) : List Nat :=
  (senders w.pieces).filter fun i => partOf i w.pieces = w.message i

/-- Their frames. -/
def sentFrames (w : Wire) : List Frame :=
  w.through.filterMap fun i => (w.calls[i]?).map WriteCall.frame

/-- What was accepted of a frame that is not through. -/
def unfinished (w : Wire) : Bytes :=
  ((senders w.pieces).filter fun i => partOf i w.pieces ≠ w.message i).flatMap
    (partOf · w.pieces)

end Wire

/-- A loop that hands on every frame has been handed these frames and keeps the
rest, however it was given what was written. -/
def PeerReads (w : Wire) (frames : List Frame) (rest : Bytes) : Prop :=
  ∀ chunks : List Bytes, (∀ chunk ∈ chunks, chunk ≠ []) → chunks.flatten = w.bytes →
    recvLoop (handing fun _ s => (.ok (), s)) (fun _ => false) (chunks.map .ok) [] ((), []) =
      (none, rest, (), frames)

/-- The peer is where the calls are. -/
structure InStep (w : Wire) : Prop where
  reads : PeerReads w w.sentFrames w.unfinished
  once : w.through.Nodup
  flushed : ∀ (i : Nat) (call : WriteCall), w.calls[i]? = some call → call.at_ = .flushing →
    i ∈ w.through
  rest : w.unfinished = [] ∨ ∃ (i : Nat) (call : WriteCall) (rest : Bytes),
    w.calls[i]? = some call ∧ call.at_ = .writing rest ∧ w.unfinished ++ rest = call.frame.encode

/-- Every call's frame has a length that its header can say. -/
def PayloadsFit (w : Wire) : Prop := ∀ call ∈ w.calls, call.frame.data.length ≤ 65535

variable {w w' : Wire} {i j : Nat} {call : WriteCall}

theorem encode_ne_nil (frame : Frame) : frame.encode ≠ [] := List.cons_ne_nil _ _

/-- A call that has begun to write and is not through is in the middle of its frame. -/
theorem Whole.writing_of_cut (h : Whole w) (mem : i ∈ senders w.pieces)
    (cut : partOf i w.pieces ≠ w.message i) :
    ∃ (call : WriteCall) (rest : Bytes), w.calls[i]? = some call ∧ call.at_ = .writing rest ∧
      partOf i w.pieces ++ rest = call.frame.encode := by
  have sent := partOf_ne_nil (fun sent mem => (h.known sent mem).2) (mem_senders.mp mem)
  obtain ⟨piece, sends, rfl⟩ := List.mem_map.mp (mem_senders.mp mem)
  obtain ⟨call, get⟩ : ∃ call, w.calls[piece.1]? = some call :=
    ⟨_, List.getElem?_eq_getElem (h.known piece sends).1⟩
  rw [message_eq get] at cut
  have wrote := h.wrote piece.1 call get
  refine ⟨call, ?_⟩
  cases at_ : call.at_ with
  | forBuffer =>
      rw [at_] at wrote
      exact absurd wrote sent
  | forWriter =>
      rw [at_] at wrote
      exact absurd wrote.2.2 sent
  | writing rest =>
      rw [at_] at wrote
      exact ⟨rest, get, rfl, wrote.2⟩
  | flushing =>
      rw [at_] at wrote
      exact absurd wrote.2 cut
  | ended =>
      rw [at_] at wrote
      exact (wrote.elim sent cut).elim

/-- Every call that has begun is through, or all but the last. -/
theorem Whole.through_or_cut (h : Whole w) :
    (w.bytes = w.through.flatMap w.message ∧ w.unfinished = []) ∨
    ∃ j ∈ senders w.pieces, partOf j w.pieces ≠ w.message j ∧
      w.bytes = w.through.flatMap w.message ++ partOf j w.pieces ∧
      w.unfinished = partOf j w.pieces := by
  rcases h.unbroken.whole_or_cut (fun sent mem => (h.known sent mem).2) h.part_isPrefix with
    ⟨whole, sent⟩ | ⟨order, j, began, whole, cut, sent⟩
  · have all : w.through = senders w.pieces :=
      List.filter_eq_self.mpr fun i mem => decide_eq_true (whole i mem)
    have noneCut : (senders w.pieces).filter (fun i => partOf i w.pieces ≠ w.message i) = [] :=
      List.filter_eq_nil_iff.mpr fun i mem => by simp [whole i mem]
    refine .inl ⟨by rw [all, bytes, sent], ?_⟩
    rw [unfinished, noneCut, List.flatMap_nil]
  · have others : order.filter (fun i => partOf i w.pieces = w.message i) = order :=
      List.filter_eq_self.mpr fun i mem => decide_eq_true (whole i mem)
    have noneCut : order.filter (fun i => partOf i w.pieces ≠ w.message i) = [] :=
      List.filter_eq_nil_iff.mpr fun i mem => by simp [whole i mem]
    have all : w.through = order := by
      rw [through, began, List.filter_append, others, List.filter_singleton, decide_eq_false cut,
        Bool.cond_false, List.append_nil]
    refine .inr ⟨j, ?_, cut, by rw [all, bytes, sent], ?_⟩
    · rw [began]
      exact List.mem_append_right _ List.mem_cons_self
    · rw [unfinished, began, List.filter_append, noneCut, List.filter_singleton,
        decide_eq_true cut, Bool.cond_true, List.nil_append, List.flatMap_singleton]

/-- What was accepted: the frames of the calls that are through, and a part of
one more. -/
theorem Whole.bytes_eq (h : Whole w) :
    w.bytes = (w.sentFrames.map Frame.encode).flatten ++ w.unfinished := by
  rw [sentFrames, ← flatMap_message]
  rcases h.through_or_cut with ⟨sent, none_⟩ | ⟨j, -, -, sent, part⟩
  · rw [none_, List.append_nil, sent]
  · rw [part, sent]

theorem Whole.mem_through (h : Whole w) (get : w.calls[i]? = some call)
    (at_ : call.at_ = .flushing) : i ∈ w.through := by
  have wrote := h.wrote i call get
  rw [at_] at wrote
  have whole : partOf i w.pieces = w.message i := wrote.2.trans (message_eq get).symm
  rw [through, List.mem_filter, mem_senders]
  refine ⟨?_, decide_eq_true whole⟩
  by_contra absent
  have none_ := wrote.2
  rw [partOf_eq_nil absent] at none_
  exact encode_ne_nil call.frame none_.symm

/-- Nothing is unfinished, or what one call has written so far. -/
theorem Whole.unfinished_cases (h : Whole w) :
    w.unfinished = [] ∨ ∃ (i : Nat) (call : WriteCall) (rest : Bytes),
      w.calls[i]? = some call ∧ call.at_ = .writing rest ∧
      w.unfinished ++ rest = call.frame.encode ∧ w.unfinished ≠ call.frame.encode := by
  rcases h.through_or_cut with ⟨-, none_⟩ | ⟨j, mem, cut, -, part⟩
  · exact .inl none_
  · obtain ⟨call, rest, get, at_, wrote⟩ := h.writing_of_cut mem cut
    rw [message_eq get] at cut
    rw [part]
    exact .inr ⟨j, call, rest, get, at_, wrote, cut⟩

/-- The peer is handed the frames that are through, and keeps the rest. -/
theorem Whole.peerReads (h : Whole w) (fit : PayloadsFit w) :
    PeerReads w w.sentFrames w.unfinished := by
  intro chunks some_ whole
  have fits : ∀ frame ∈ w.sentFrames, frame.data.length ≤ 65535 := by
    intro frame mem
    obtain ⟨i, -, found⟩ := List.mem_filterMap.mp mem
    obtain ⟨call, get, rfl⟩ := Option.map_eq_some_iff.mp found
    exact fit call (List.mem_of_getElem? get)
  have waits : FrameCodec.decode w.unfinished = (.ok none, w.unfinished) := by
    rcases h.unfinished_cases with none_ | ⟨i, call, rest, get, -, part, cut⟩
    · rw [none_]
      rfl
    · exact FrameCodec.decode_prefix call.frame (fit call (List.mem_of_getElem? get))
        ⟨rest, part⟩ cut
  have stream : [] ++ chunks.flatten = (w.sentFrames.map Frame.encode).flatten ++ w.unfinished :=
    whole.trans h.bytes_eq
  exact handedOver_encoded fits waits some_ stream (.of_ok (fun _ _ => rfl) _ ())
    (staysOpen_always (fun _ => rfl) _ ())

theorem Whole.inStep (h : Whole w) (fit : PayloadsFit w) : InStep w where
  reads := h.peerReads fit
  once := (nodup_senders w.pieces).filter _
  flushed i call get at_ := h.mem_through get at_
  rest := by
    rcases h.unfinished_cases with none_ | ⟨i, call, rest, get, at_, part, -⟩
    · exact .inl none_
    · exact .inr ⟨i, call, rest, get, at_, part⟩

/-- The frame that a call is made for fits. -/
def fitsFrame : WireEvent → Bool
  | .called frame _ => frame.data.length ≤ 65535
  | _ => true

theorem PayloadsFit.moveTo (fit : PayloadsFit w) (i : Nat) (at_ : WriteAt)
    (calls : w'.calls = (w.moveTo i at_).calls) : PayloadsFit w' := by
  intro call mem
  obtain ⟨j, found⟩ := List.mem_iff_getElem?.mp (calls ▸ mem)
  obtain ⟨before, get, frame, -⟩ := getElem?_moveTo found
  rw [frame]
  exact fit before (List.mem_of_getElem? get)

/-- A step of a call only moves it. -/
theorem calls_callStep {event : WireEvent} (taken : w.callStep i call event = some w') :
    ∃ at_, w'.calls = (w.moveTo i at_).calls := by
  cases event with
  | called | closerLocked | closerDone => cases taken
  | bufferLocked | writerLocked | flushed | timedOut | aborted =>
      simp only [callStep, Option.ite_none_right_eq_some, Option.some.injEq] at taken
      obtain ⟨-, rfl⟩ := taken
      exact ⟨_, rfl⟩
  | accepted j n =>
      simp only [callStep] at taken
      split at taken
      case h_1 =>
        simp only [Option.ite_none_right_eq_some, Option.some.injEq] at taken
        obtain ⟨-, rfl⟩ := taken
        exact ⟨_, rfl⟩
      case h_2 => cases taken
  | refused =>
      simp only [callStep] at taken
      split at taken
      case h_1 =>
        obtain rfl := Option.some.inj taken
        exact ⟨_, rfl⟩
      case h_2 => cases taken

theorem PayloadsFit.step {event : WireEvent} (fit : PayloadsFit w) (met : fitsFrame event = true)
    (taken : w.step event = some w') : PayloadsFit w' := by
  have ofCall {i : Nat}
      (steps : (w.calls[i]?).bind (fun call => w.callStep i call event) = some w') :
      PayloadsFit w' := by
    obtain ⟨call, -, steps⟩ := Option.bind_eq_some_iff.mp steps
    obtain ⟨at_, calls⟩ := calls_callStep steps
    exact fit.moveTo i at_ calls
  cases event with
  | called frame control =>
      obtain rfl := Option.some.inj taken
      intro call mem
      rcases List.mem_append.mp mem with mem | mem
      · exact fit call mem
      · obtain rfl := List.mem_singleton.mp mem
        exact of_decide_eq_true met
  | bufferLocked | writerLocked | accepted | refused | flushed | timedOut | aborted =>
      exact ofCall taken
  | closerLocked | closerDone =>
      simp only [Wire.step, Option.ite_none_right_eq_some, Option.some.injEq] at taken
      obtain ⟨-, rfl⟩ := taken
      exact fit

/-- Along every run in which no call is cut short within its frame and every
frame's length fits its header, the peer has been handed the frames of exactly
the calls that are through. -/
theorem peer_in_step_along (events : List WireEvent)
    (met : Transition.Along Wire.step (cutsNoFrame · ·) Wire.start events)
    (fits : ∀ event ∈ events, fitsFrame event = true) :
    Transition.Always Wire.step InStep Wire.start events :=
  Transition.always_of_along (I := fun w => Whole w ∧ PayloadsFit w)
    (fun _ h => h.1.inStep h.2)
    (fun _ _ _ h met taken => ⟨h.1.step met.1 taken, h.2.step met.2 taken⟩)
    ⟨whole_start, fun _ mem => absurd mem List.not_mem_nil⟩ (met.and_forall fits)

/-- Two frames are through, the second call before the first one had its turn,
and a third is cut after its header. -/
def twoThrough : List WireEvent :=
  [.called (.control .heartResponse 1) true, .called (.psh 3 [5]) false, .bufferLocked 1,
    .called (.psh 2 [6, 7]) false, .writerLocked 1, .accepted 1 3, .accepted 1 5, .flushed 1,
    .bufferLocked 0, .writerLocked 0, .accepted 0 7, .flushed 0, .bufferLocked 2, .writerLocked 2,
    .accepted 2 7]

theorem two_through_in_step :
    Transition.Along Wire.step (cutsNoFrame · ·) Wire.start twoThrough ∧
      (∀ event ∈ twoThrough, fitsFrame event = true) ∧
      Transition.Always Wire.step InStep Wire.start twoThrough ∧
      ∃ w, twoThrough.foldlM Wire.step Wire.start = some w ∧
        w.sentFrames = [.psh 3 [5], .control .heartResponse 1] ∧ w.unfinished ≠ [] := by
  have met : Transition.Along Wire.step (cutsNoFrame · ·) Wire.start twoThrough := by
    decide +kernel
  have fits : ∀ event ∈ twoThrough, fitsFrame event = true := by decide
  refine ⟨met, fits, peer_in_step_along twoThrough met fits, ?_⟩
  exact ⟨_, rfl, by decide +kernel, by decide +kernel⟩

end RustProxy.AnyTls
