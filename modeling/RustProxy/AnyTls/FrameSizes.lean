import RustProxy.AnyTls.Codec
import RustProxy.AnyTls.Names
import RustProxy.AnyTls.Opening
import RustProxy.AnyTls.Padding
import RustProxy.Base.Transition

/-!
# The frames that a session writes

`encode_into` writes the length of a payload in 16 bits, whatever it is. So each
frame that is passed to `write_frame` has to fit by itself: data is cut when it
is written to a stream, control frames have fixed texts, and the error of a
SYNACK is short. The exception is the padding scheme, which
`UpdatePaddingScheme` carries as the operator wrote it.
-/

namespace RustProxy.AnyTls

open BigEndian Session

/-- What the server announces of its scheme. -/
def PaddingFactory.announced (factory : PaddingFactory) : Padding :=
  ⟨factory.rawScheme, factory.md5⟩

/-- The frames that are passed to `write_frame`: whoever waits for a write holds
the frame. -/
inductive Passed (padding : Padding) (s : Session) : Frame → Prop
  | control {control : Control} (at_ : s.recv = .writing control) :
      Passed padding s (control.frame padding)
  | item {item : Item} (at_ : s.outgoingTask = .writing item) : Passed padding s item.frame
  | synack {i : Nat} {inst : Instance} {error : Option Bytes}
      (found : s.instances[i]? = some inst) (at_ : inst.task = .synack error) :
      Passed padding s (synackFrame inst.id error)

/-- The length in the encoding is that of the payload, and the frame is decoded
unchanged. -/
structure Frame.Encodes (frame : Frame) : Prop where
  fits : frame.data.length ≤ 65535
  length : ofBe ((frame.encode.drop 5).take 2) = frame.data.length
  decodes : ∀ more, FrameCodec.decode (frame.encode ++ more) = (.ok (some frame), more)

def FramesFit (padding : Padding) (s : Session) : Prop :=
  ∀ frame, Passed padding s frame → frame.Encodes

/-- A task reports what came out of opening its destination; the system's own
texts are short. -/
def Genuine : Event → Prop
  | .task _ (.opened error) => ∃ stream destination rest opening,
      readLocationDirect stream = some (.ok destination, rest) ∧ Opening.Short opening ∧
        error = (opening.error destination).map utf8Bytes
  | _ => True

/-- Every frame that is passed to `write_frame` is encoded as it is, in every
run of a session with the scheme. -/
def AlwaysFit (padding : Padding) : Prop :=
  ∀ events, (∀ event ∈ events, Genuine event) →
    Transition.Always (step padding) (FramesFit padding) Session.start events

theorem Frame.encodes {frame : Frame} (fits : frame.data.length ≤ 65535) : frame.Encodes where
  fits := fits
  length := by
    have field : (frame.encode.drop 5).take 2 = toBe 2 frame.data.length := by
      rw [encode, List.append_assoc, List.drop_left' (by simp), List.take_left' (by simp)]
    rw [field, ofBe_toBe_of_lt (by omega)]
  decodes := FrameCodec.decode_encode frame fits

/-! ## Sizes along a run -/

/-- What is queued, written and reported is short. -/
structure Short (s : Session) : Prop where
  queued : ∀ item ∈ s.outgoing, item.data.length ≤ MAX_FRAME_DATA_SIZE
  written : ∀ item, s.outgoingTask = .writing item → item.data.length ≤ MAX_FRAME_DATA_SIZE
  reported : ∀ (i : Nat) (inst : Instance) (error : Bytes), s.instances[i]? = some inst →
    inst.task = .synack (some error) → error.length ≤ 65535

variable {s t : Session} {i : Nat} {inst inst' : Instance} {items : List Item}
  {waiting granted : List Nat}

theorem short_start : Short Session.start := by
  constructor
  · nofun
  · nofun
  · intro i inst error at_
    have none_ : Session.start.instances[i]? = none := List.getElem?_nil
    rw [none_] at at_
    cases at_

theorem Short.framesFit {padding : Padding} (h : Short s)
    (scheme : padding.rawScheme.length ≤ 65535) : FramesFit padding s := by
  intro frame passed
  apply Frame.encodes
  cases passed with
  | @control control at_ =>
      cases control with
      | missingSettings =>
          show ("client did not send its settings".toUTF8.toList).length ≤ 65535
          decide +kernel
      | updatePaddingScheme => exact scheme
      | serverSettings =>
          show ("v=2".toUTF8.toList).length ≤ 65535
          decide +kernel
      | heartResponse => exact Nat.zero_le _
  | @item item at_ =>
      unfold Item.frame
      split
      · exact Nat.zero_le _
      · exact h.written item at_
  | @synack i inst error found at_ =>
      cases error with
      | none => exact Nat.zero_le _
      | some error => exact h.reported i inst error found at_

/-- Steps that leave the queue, the outgoing loop and the instances alone. -/
theorem Short.same (h : Short s) (outgoing : t.outgoing = s.outgoing)
    (outgoingTask : t.outgoingTask = s.outgoingTask) (instances : t.instances = s.instances) :
    Short t := by
  constructor
  · rw [outgoing]
    exact h.queued
  · rw [outgoingTask]
    exact h.written
  · rw [instances]
    exact h.reported

theorem Short.put (h : Short s) (fits : ∀ item ∈ items, item.data.length ≤ MAX_FRAME_DATA_SIZE)
    (report : ∀ error, inst.task = .synack (some error) → error.length ≤ 65535) :
    Short (s.put i inst items waiting granted) := by
  refine ⟨?_, h.written, ?_⟩
  · intro item mem
    rcases List.mem_append.mp mem with mem | mem
    · exact h.queued item mem
    · exact fits item mem
  · intro j other error get at_
    rcases getElem?_put_cases get with ⟨-, rfl⟩ | ⟨-, get⟩
    · exact report error at_
    · exact h.reported j other error get at_

/-- What a stream's operations send is at most a frame. -/
theorem Writes.fits {me : AnyTlsStream} {buf : Bytes} {answer : Poll (IoResult Nat)}
    (writes : Writes s i inst me buf answer inst' items) :
    ∀ item ∈ items, item.data.length ≤ MAX_FRAME_DATA_SIZE := by
  cases writes with
  | refused | waits => nofun
  | sent _ _ size =>
      intro item mem
      obtain rfl := List.mem_singleton.mp mem
      rw [List.length_take, size]
      omega

theorem Shuts.fits {me : AnyTlsStream} {budget : Bool} {answer : Poll (IoResult Unit)}
    (shuts : Shuts s i inst me budget answer inst' items) :
    ∀ item ∈ items, item.data.length ≤ MAX_FRAME_DATA_SIZE := by
  cases shuts with
  | already | silent | waits => nofun
  | sent =>
      intro item mem
      obtain rfl := List.mem_singleton.mp mem
      exact Nat.zero_le _

theorem Drops.fits (drops : Drops s i inst inst' items) :
    ∀ item ∈ items, item.data.length ≤ MAX_FRAME_DATA_SIZE := by
  cases drops with
  | gone | silent => nofun
  | fin =>
      intro item mem
      obtain rfl := List.mem_singleton.mp mem
      exact Nat.zero_le _

theorem Short.answers {error : Option Bytes} (h : Short s) (taken : Answers s i inst error t) :
    Short t := by
  cases taken with
  | relay => exact h.put nofun nofun
  | fail drops => exact h.put drops.fits nofun

theorem Short.task {event : TaskEvent} (h : Short s) (genuine : Genuine (.task i event))
    (found : s.instances[i]? = some inst) (taken : TaskTaken s i inst event t) : Short t := by
  -- an operation of the stream leaves the task where it is
  have stays {inst' : Instance} (same : SameTask inst inst') :
      ∀ error, inst'.task = .synack (some error) → error.length ≤ 65535 := by
    intro error at_
    exact h.reported i inst error found (same.task ▸ at_)
  cases taken with
  | absent => exact h
  | read _ _ reads => exact h.put nofun (stays reads.sameTask)
  | write _ _ writes => exact h.put writes.fits (stays writes.sameTask)
  | shutdown _ _ shuts => exact h.put shuts.fits (stays shuts.sameTask)
  | opened _ answers => exact h.answers answers
  | @synack error at_ =>
      obtain ⟨stream, destination, rest, opening, read, short, rfl⟩ := genuine
      refine h.put nofun fun error reports => ?_
      obtain ⟨text, failed, rfl⟩ := Option.map_eq_some_iff.mp (TaskAt.synack.inj reports)
      exact length_openError_le read short failed
  | @synackWritten error _ _ answers =>
      have wrote : Short { s with wire := s.wire ++ [(some i, synackFrame inst.id error)] } :=
        h.same rfl rfl rfl
      exact wrote.answers answers
  | synackFailed _ answers | synackLate _ answers => exact h.answers answers
  | synackTimedOut =>
      have closes : Short { s with close := .draining (.task i) } := h.same rfl rfl rfl
      exact closes.put nofun nofun
  | returned _ drops => exact h.put drops.fits nofun
  | cleanedUp =>
      have erased : Short { s with streamTasks := s.streamTasks.erase inst.id } :=
        h.same rfl rfl rfl
      exact erased.put nofun nofun
  | dropped _ _ drops =>
      have left : Short { s with close := abandonClose i s.close } := h.same rfl rfl rfl
      exact left.put drops.fits nofun

theorem Short.recv {event : RecvEvent} (h : Short s) (taken : RecvTaken s event t) : Short t := by
  cases taken with
  | calm | arrive | psh | syn | fin | pshMissed | pshFound | synDuplicate | finMissed | finFound
  | receiverGone | stored => exact h.same rfl rfl rfl
  | leave =>
      unfold leaveRecvLoop
      split
      · exact h.same rfl rfl rfl
      · exact h.same rfl rfl rfl
  | synAccepted =>
      refine ⟨h.queued, h.written, fun j other error get at_ => ?_⟩
      rcases getElem?_accept_cases get with get | ⟨-, rfl⟩
      · exact h.reported j other error get at_
      · cases at_
  | @pushed target _ inst _ _ found =>
      refine ⟨h.queued, h.written, fun j other error get at_ => ?_⟩
      rcases getElem?_set_cases get with ⟨rfl, rfl⟩ | ⟨-, get⟩
      · exact h.reported j inst error found at_
      · exact h.reported j other error get at_

theorem Short.finishes {closer : Closer} (h : Short s) (taken : Finishes s closer t) : Short t := by
  cases taken with
  | run | alone => exact h.same rfl rfl rfl
  | task _ _ answers =>
      have done : Short { s with close := .done } := h.same rfl rfl rfl
      exact done.answers answers

theorem Short.close {event : CloseEvent} (h : Short s) (taken : CloseTaken s event t) :
    Short t := by
  cases taken with
  | drained =>
      refine ⟨h.queued, h.written, fun j other error get at_ => ?_⟩
      obtain ⟨x, aborted, getX, rfl, -⟩ := getElem?_abortAll get
      exact h.reported j x error getX at_
  | cleared => exact h.same rfl rfl rfl
  | clearedLast _ finishes =>
      have cleared : Short { s with streams := ∅ } := h.same rfl rfl rfl
      exact cleared.finishes finishes
  | shut _ finishes => exact h.finishes finishes

theorem Short.outgoing {event : OutgoingEvent} (h : Short s) (taken : OutgoingTaken s event t) :
    Short t := by
  cases taken with
  | @taken item outgoing _ _ _ queue =>
      have all : ∀ other ∈ item :: outgoing, other.data.length ≤ MAX_FRAME_DATA_SIZE :=
        queue ▸ h.queued
      refine ⟨fun other mem => all other (List.mem_cons_of_mem _ mem), ?_, h.reported⟩
      intro other at_
      obtain rfl := OutgoingAt.writing.inj at_
      exact all item List.mem_cons_self
  | @closed item outgoing _ _ _ queue =>
      have all : ∀ other ∈ item :: outgoing, other.data.length ≤ MAX_FRAME_DATA_SIZE :=
        queue ▸ h.queued
      exact ⟨fun other mem => all other (List.mem_cons_of_mem _ mem), nofun, h.reported⟩
  | written | finWritten | failed | finFailed | removed | dropped =>
      exact ⟨h.queued, nofun, h.reported⟩

theorem Short.step {padding : Padding} {event : Event} (h : Short s) (genuine : Genuine event)
    (taken : s.step padding event = some t) : Short t := by
  cases taken_of_step taken with
  | recv does => exact h.recv does
  | close does => exact h.close does
  | outgoing does => exact h.outgoing does
  | task found does => exact h.task genuine found does

/-! ## The scheme -/

/-- The setting of a client with another scheme than the server's. -/
def otherSetting (md5 : Text) : Bytes :=
  utf8Bytes (if md5 = [] then "padding-md5=0".toList else "padding-md5=".toList)

theorem otherSetting_differs (md5 : Text) :
    ((StringMap.fromBytes (otherSetting md5)).get "padding-md5").any (· ≠ md5) = true := by
  by_cases empty : md5 = []
  · subst empty
    decide
  · have value : (StringMap.fromBytes (utf8Bytes "padding-md5=".toList)).get "padding-md5" =
        some [] := by decide
    rw [otherSetting, if_neg empty, value]
    simpa using Ne.symm empty

/-- The events until the client is told the scheme. -/
def announces (md5 : Text) : List Event :=
  [.recv .loopTop, .recv (.decoded (.withData .settings 0 (otherSetting md5)))]

theorem announced_after (padding : Padding) :
    ∃ s version, (announces padding.md5).foldlM (step padding) Session.start = some s ∧
      s.recv = .writing (.updatePaddingScheme version) := by
  refine ⟨_, clientVersion (StringMap.fromBytes (otherSetting padding.md5)), rfl, ?_⟩
  exact congrArg Session.recv (if_pos (otherSetting_differs padding.md5))

/-- A scheme that does not fit is passed to `write_frame` all the same. -/
theorem not_framesFit {padding : Padding} (long : 65535 < padding.rawScheme.length) :
    ∃ s, (announces padding.md5).foldlM (step padding) Session.start = some s ∧
      ¬FramesFit padding s := by
  obtain ⟨s, version, ran, at_⟩ := announced_after padding
  refine ⟨s, ran, fun fit => ?_⟩
  have fits : padding.rawScheme.length ≤ 65535 := (fit _ (.control at_)).fits
  omega

/-- With a scheme that `PaddingFactory::new` accepts, every frame that is passed
to `write_frame` is encoded as it is, exactly when the scheme's text fits a
frame. -/
theorem frames_fit_iff (digest : Bytes → Text) (rawScheme : Bytes) (factory : PaddingFactory)
    (accepted : PaddingFactory.new digest rawScheme = .ok factory) :
    AlwaysFit factory.announced ↔ rawScheme.length ≤ 65535 := by
  have same : factory.announced.rawScheme = rawScheme := PaddingFactory.rawScheme_new accepted
  constructor
  · intro always
    by_contra fits
    have long : 65535 < factory.announced.rawScheme.length := by
      rw [same]
      omega
    obtain ⟨s, ran, unfit⟩ := not_framesFit long
    apply unfit
    apply Transition.Always.after (always _ ?_) ran
    simp [announces, Genuine]
  · intro fits events genuine
    apply Transition.always_of_along (I := Short) (P := fun _ event => Genuine event)
    · intro s h
      exact h.framesFit (by rw [same]; exact fits)
    · intro s event t h met taken
      exact h.step met taken
    · exact short_start
    · exact Transition.along_of_mem genuine

/-- A scheme of two lines, the second of which is of no use. -/
def filledScheme (n : Nat) : Bytes := utf8Bytes "stop=1\n".toList ++ List.replicate n 97

theorem lossyChars_filled (n : Nat) :
    lossyChars n (List.replicate n 97) = List.replicate n 'a' := by
  induction n with
  | zero => rfl
  | succ n ih =>
      rw [List.replicate_succ, List.replicate_succ, lossyChars]
      exact congrArg _ ih

theorem fromUtf8Lossy_filled (n : Nat) :
    fromUtf8Lossy (filledScheme n) = "stop=1".toList ++ '\n' :: List.replicate n 'a' := by
  have steps : (filledScheme n).length = n + 7 := by
    rw [filledScheme, List.length_append, List.length_replicate, Nat.add_comm]
    rfl
  rw [fromUtf8Lossy, steps]
  exact congrArg ("stop=1\n".toList ++ ·) (lossyChars_filled n)

theorem lines_filled {n : Nat} (some_ : 0 < n) :
    lines ("stop=1".toList ++ '\n' :: List.replicate n 'a') =
      ["stop=1".toList, List.replicate n 'a'] := by
  have pieces : ("stop=1".toList ++ '\n' :: List.replicate n 'a').splitOn '\n' =
      ["stop=1".toList, List.replicate n 'a'] := by
    have first : ∀ c ∈ "stop=1".toList, (c == '\n') = false := by simp
    rw [List.splitOn, List.splitOnP_append_cons_of_forall_mem first '\n' rfl,
      List.splitOnP_eq_singleton]
    intro c mem
    rw [List.eq_of_mem_replicate mem]
    rfl
  have filled : List.replicate n 'a' ≠ [] := by
    simp only [ne_eq, List.replicate_eq_nil_iff]
    omega
  rw [lines, pieces]
  simp [filled, stripCarriageReturn]

theorem fromBytes_filled {n : Nat} (some_ : 0 < n) :
    StringMap.fromBytes (filledScheme n) = (∅ : StringMap).insert "stop".toList "1".toList := by
  have noSetting : splitOnce '=' (List.replicate n 'a') = none := by
    apply if_neg
    intro mem
    exact absurd (List.eq_of_mem_replicate mem) (by decide)
  rw [StringMap.fromBytes, fromUtf8Lossy_filled, lines_filled some_, List.foldl_cons,
    List.foldl_cons, List.foldl_nil, noSetting]
  rfl

def filledFactory (md5 : Text) (n : Nat) : PaddingFactory :=
  ⟨(∅ : StringMap).insert "stop".toList "1".toList, filledScheme n, 1, md5⟩

theorem new_filled {n : Nat} (some_ : 0 < n) (md5 : Text) :
    PaddingFactory.new (fun _ => md5) (filledScheme n) = .ok (filledFactory md5 n) := by
  unfold PaddingFactory.new
  rw [fromBytes_filled some_]
  rfl

/-- The MD5 of the scheme with three letters in its second line. -/
def shortSchemeMd5 : Text := "96f7cf7ff148369cc8b385e4dcd7d3f0".toList

theorem short_scheme_framed : AlwaysFit (filledFactory shortSchemeMd5 3).announced :=
  (frames_fit_iff (fun _ => shortSchemeMd5) (filledScheme 3) _
    (new_filled (by decide) shortSchemeMd5)).mpr (by decide)

/-- The MD5 of the scheme with 65536 letters in its second line. -/
def longSchemeMd5 : Text := "a9e539f06af761df219a2c99ba35c45e".toList

/-- The scheme is accepted, and the client that asks for it is sent a frame that
says the payload has seven bytes. -/
theorem long_scheme_not_framed :
    PaddingFactory.new (fun _ => longSchemeMd5) (filledScheme 65536) =
        .ok (filledFactory longSchemeMd5 65536) ∧
      ∃ s, (announces longSchemeMd5).foldlM
          (step (filledFactory longSchemeMd5 65536).announced) Session.start = some s ∧
        ¬FramesFit (filledFactory longSchemeMd5 65536).announced s := by
  refine ⟨new_filled (by decide) longSchemeMd5, ?_⟩
  have long : 65535 < (filledFactory longSchemeMd5 65536).announced.rawScheme.length := by
    generalize sized : 65536 = n
    show 65535 < (filledScheme n).length
    rw [filledScheme, List.length_append, List.length_replicate]
    omega
  exact not_framesFit long

end RustProxy.AnyTls
