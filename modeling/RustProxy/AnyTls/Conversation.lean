import RustProxy.AnyTls.Names
import RustProxy.Base.Transition

/-!
# What the receive loop says

Beside the frames of its streams a session writes frames of its own: the alert
for a SYN that no settings went before, the padding scheme and the server's
version in return for the client's settings, and the response to a heartbeat.
They are written by the receive loop, one frame of the client at a time, so
they are determined by the frames that have arrived: nothing is said twice,
left out or said unasked, whatever the other tasks do in between.

The settings open the conversation. A SYN before them ends it, so no stream is
older than the settings, and no stream is answered with a SYNACK unless a
version that knows it was announced.
-/

namespace RustProxy.AnyTls

open Session

/-- What the receive loop answers to a frame; `settled` tells whether settings
had arrived before it. -/
def replies (padding : Padding) (settled : Bool) (frame : Frame) : List Frame :=
  match frame.cmd with
  | .syn => if settled then [] else [Control.missingSettings.frame padding]
  | .settings =>
      let settings := StringMap.fromBytes frame.data
      (if (settings.get "padding-md5").any (· ≠ padding.md5) then
        [Frame.withData .updatePaddingScheme 0 padding.rawScheme] else []) ++
      if (clientVersion settings).isSome then [Control.serverSettings.frame padding] else []
  | .heartRequest => [Frame.control .heartResponse frame.streamId]
  | .waste | .psh | .fin | .alert | .updatePaddingScheme | .synAck | .heartResponse
  | .serverSettings => []

def answersFrom (padding : Padding) : Bool → List Frame → List Frame
  | _, [] => []
  | settled, frame :: frames =>
      replies padding settled frame ++ answersFrom padding (settled || frame.cmd = .settings) frames

/-- All that the receive loop has to say to the frames of a client. -/
def answers (padding : Padding) (frames : List Frame) : List Frame :=
  answersFrom padding false frames

/-- The settings of a client are among the frames. -/
def settled (frames : List Frame) : Bool := frames.any fun frame => frame.cmd = .settings

/-- The frames on the wire that no stream has caused. -/
def controls (s : Session) : List Frame :=
  s.wire.filterMap fun entry => if entry.1 = none then some entry.2 else none

/-- The receive loop is between two frames of the client, or at work on one that
it has nothing more to say to. -/
def RecvAt.listening : RecvAt → Bool
  | .writing _ | .closing | .returned => false
  | _ => true

/-- What was said is the beginning of what is to be said, and all of it whenever
the receive loop is not writing and has not left. -/
structure Conversed (padding : Padding) (s : Session) : Prop where
  answered : controls s <+: answers padding s.arrived
  complete : s.recv.listening = true → controls s = answers padding s.arrived

theorem answersFrom_concat (padding : Padding) (known : Bool) (frames : List Frame)
    (frame : Frame) :
    answersFrom padding known (frames ++ [frame]) =
      answersFrom padding known frames ++ replies padding (known || settled frames) frame := by
  induction frames generalizing known with
  | nil => simp [answersFrom, settled]
  | cons first frames ih =>
      rw [List.cons_append, answersFrom, ih, answersFrom, List.append_assoc, settled, settled,
        List.any_cons, Bool.or_assoc]

theorem answers_concat (padding : Padding) (frames : List Frame) (frame : Frame) :
    answers padding (frames ++ [frame]) =
      answers padding frames ++ replies padding (settled frames) frame := by
  rw [answers, answersFrom_concat, Bool.false_or, answers]

@[simp] theorem settled_concat (frames : List Frame) (frame : Frame) :
    settled (frames ++ [frame]) = (settled frames || frame.cmd = .settings) := by
  simp [settled]

/-- What a control frame leaves to say, itself included. -/
def Control.owes (padding : Padding) : Control → List Frame
  | .updatePaddingScheme version =>
      Frame.withData .updatePaddingScheme 0 padding.rawScheme ::
        if version.isSome then [Control.serverSettings.frame padding] else []
  | control => [control.frame padding]

/-- What is still to be said to the frames that have arrived, as long as the
receive loop has not left. -/
def RecvAt.owes (padding : Padding) : RecvAt → Option (List Frame)
  | .writing control => some (control.owes padding)
  | .closing | .returned => none
  | _ => some []

theorem owes_of_listening {padding : Padding} {recv : RecvAt} (at_ : recv.listening = true) :
    recv.owes padding = some [] := by
  cases recv with
  | writing | closing | returned => cases at_
  | _ => rfl

/-- The flag of the settings, and what was said with what is still to be said. -/
structure Speaking (padding : Padding) (s : Session) : Prop where
  known : s.receivedClientSettings = settled s.arrived
  answered : controls s <+: answers padding s.arrived
  owed : ∀ rest, s.recv.owes padding = some rest → controls s ++ rest = answers padding s.arrived

variable {padding : Padding} {s t : Session} {i : Nat} {inst : Instance}

theorem speaking_start : Speaking padding Session.start where
  known := rfl
  answered := List.prefix_refl _
  owed := by
    rintro rest ⟨⟩
    rfl

theorem Speaking.conversed (h : Speaking padding s) : Conversed padding s where
  answered := h.answered
  complete at_ := by
    have said := h.owed [] (owes_of_listening at_)
    rwa [List.append_nil] at said

/-- A step that hears nothing new, and says the beginning of what is owed. -/
theorem Speaking.move {said : List Frame} (h : Speaking padding s) (arrived : t.arrived = s.arrived)
    (known : t.receivedClientSettings = s.receivedClientSettings)
    (spoken : controls t = controls s ++ said)
    (owed : said = [] ∨ ∃ rest, s.recv.owes padding = some (said ++ rest))
    (next : ∀ rest, t.recv.owes padding = some rest → s.recv.owes padding = some (said ++ rest)) :
    Speaking padding t where
  known := by rw [known, arrived, h.known]
  answered := by
    rw [spoken, arrived]
    rcases owed with rfl | ⟨rest, owed⟩
    · rw [List.append_nil]
      exact h.answered
    · refine ⟨rest, ?_⟩
      rw [List.append_assoc]
      exact h.owed _ owed
  owed rest at_ := by
    rw [spoken, arrived, List.append_assoc]
    exact h.owed _ (next rest at_)

/-- A step that says nothing and owes what was owed, or leaves. -/
theorem Speaking.aside (h : Speaking padding s) (arrived : t.arrived = s.arrived)
    (known : t.receivedClientSettings = s.receivedClientSettings)
    (same : controls t = controls s)
    (next : t.recv.owes padding = s.recv.owes padding ∨ t.recv.owes padding = none) :
    Speaking padding t := by
  have spoken : controls t = controls s ++ [] := by rw [same, List.append_nil]
  refine h.move arrived known spoken (.inl rfl) ?_
  intro rest at_
  rcases next with same | left
  · rw [← same]
    exact at_
  · rw [left] at at_
    cases at_

theorem controls_append {written : List (Option Nat × Frame)} (wire : t.wire = s.wire ++ written)
    (others : ∀ entry ∈ written, entry.1 ≠ none) : controls t = controls s := by
  have none_ :
      written.filterMap (fun entry => if entry.1 = none then some entry.2 else none) = [] :=
    List.filterMap_eq_nil_iff.mpr fun entry mem => if_neg (others entry mem)
  rw [controls, wire, List.filterMap_append, none_, List.append_nil, controls]

/-! ## Other tasks -/

/-- What the other tasks leave to the receive loop. They write only in the name
of a stream, and a SYNACK only when the client announced a version that has it. -/
structure Unheard (s t : Session) : Prop where
  arrived : t.arrived = s.arrived
  known : t.receivedClientSettings = s.receivedClientSettings
  version : t.peerVersion = s.peerVersion
  recv : t.recv = s.recv ∨ t.recv = .returned
  wire : ∃ written, t.wire = s.wire ++ written ∧ ∀ entry ∈ written, entry.1 ≠ none

theorem unheard_of_wire {written : List (Option Nat × Frame)} (arrived : t.arrived = s.arrived)
    (known : t.receivedClientSettings = s.receivedClientSettings)
    (version : t.peerVersion = s.peerVersion) (recv : t.recv = s.recv ∨ t.recv = .returned)
    (wire : t.wire = s.wire ++ written) (others : ∀ entry ∈ written, entry.1 ≠ none) :
    Unheard s t := ⟨arrived, known, version, recv, written, wire, others⟩

theorem unheard_of_same (arrived : t.arrived = s.arrived)
    (known : t.receivedClientSettings = s.receivedClientSettings)
    (version : t.peerVersion = s.peerVersion) (recv : t.recv = s.recv ∨ t.recv = .returned)
    (wire : t.wire = s.wire) : Unheard s t :=
  unheard_of_wire arrived known version recv (by rw [wire, List.append_nil]) (List.forall_mem_nil _)

theorem Unheard.trans {u : Session} (h : Unheard s t) (next : Unheard t u) : Unheard s u := by
  obtain ⟨written, wire, others⟩ := h.wire
  obtain ⟨later, wireLater, othersLater⟩ := next.wire
  have both : u.wire = s.wire ++ (written ++ later) := by
    rw [wireLater, wire, List.append_assoc]
  refine unheard_of_wire (next.arrived.trans h.arrived) (next.known.trans h.known)
    (next.version.trans h.version) ?_ both ?_
  · rcases next.recv with same | left
    · rw [same]
      exact h.recv
    · exact .inr left
  · intro entry mem
    rcases List.mem_append.mp mem with mem | mem
    · exact others entry mem
    · exact othersLater entry mem

theorem Answers.unheard {error : Option Bytes} (h : Answers s i inst error t) : Unheard s t := by
  cases h <;> exact unheard_of_same rfl rfl rfl (.inl rfl) rfl

theorem TaskTaken.unheard {event : TaskEvent} (h : TaskTaken s i inst event t) : Unheard s t := by
  cases h with
  | synackWritten _ answers =>
      refine Unheard.trans ?_ answers.unheard
      exact unheard_of_wire rfl rfl rfl (.inl rfl) rfl (by simp)
  | opened _ answers | synackFailed _ answers | synackLate _ answers => exact answers.unheard
  | _ => exact unheard_of_same rfl rfl rfl (.inl rfl) rfl

theorem Finishes.unheard {closer : Closer} (h : Finishes s closer t) : Unheard s t := by
  cases h with
  | run => exact unheard_of_same rfl rfl rfl (.inr rfl) rfl
  | task _ _ answers =>
      refine Unheard.trans ?_ answers.unheard
      exact unheard_of_same rfl rfl rfl (.inl rfl) rfl
  | alone => exact unheard_of_same rfl rfl rfl (.inl rfl) rfl

theorem CloseTaken.unheard {event : CloseEvent} (h : CloseTaken s event t) : Unheard s t := by
  cases h with
  | drained | cleared => exact unheard_of_same rfl rfl rfl (.inl rfl) rfl
  | clearedLast _ finishes =>
      refine Unheard.trans ?_ finishes.unheard
      exact unheard_of_same rfl rfl rfl (.inl rfl) rfl
  | shut _ finishes => exact finishes.unheard

theorem OutgoingTaken.unheard {event : OutgoingEvent} (h : OutgoingTaken s event t) :
    Unheard s t := by
  cases h with
  | written | finWritten => exact unheard_of_wire rfl rfl rfl (.inl rfl) rfl (by simp)
  | _ => exact unheard_of_same rfl rfl rfl (.inl rfl) rfl

theorem Speaking.unheard (h : Speaking padding s) (on : Unheard s t) : Speaking padding t := by
  obtain ⟨written, wire, others⟩ := on.wire
  refine h.aside on.arrived on.known (controls_append wire others) ?_
  rcases on.recv with same | left
  · exact .inl (by rw [same])
  · exact .inr (by rw [left]; rfl)

/-! ## The receive loop -/

/-- The receive loop leaves, with what it has said so far. -/
theorem Speaking.leave (h : Speaking padding s) : Speaking padding s.leaveRecvLoop := by
  unfold leaveRecvLoop
  split
  · exact h.aside rfl rfl rfl (.inr rfl)
  · exact h.aside rfl rfl rfl (.inr rfl)

/-- What a step of the receive loop leaves alone that neither hears nor says
anything. -/
structure Unmoved (s t : Session) : Prop where
  arrived : t.arrived = s.arrived
  known : t.receivedClientSettings = s.receivedClientSettings
  version : t.peerVersion = s.peerVersion
  wire : t.wire = s.wire
  before : s.recv.listening = true
  after : t.recv.listening = true
  looked : ∀ streamId, t.recv ≠ .synLookup streamId
  instances : ∀ y ∈ t.instances, (∃ x ∈ s.instances, y.synAt = x.synAt ∧ y.task = x.task) ∨
    y.synAt = s.arrived.length ∧ y.task = .opening ∧ ∃ streamId, s.recv = .synLookup streamId

theorem unmoved_of_instances (arrived : t.arrived = s.arrived)
    (known : t.receivedClientSettings = s.receivedClientSettings)
    (version : t.peerVersion = s.peerVersion) (wire : t.wire = s.wire)
    (before : s.recv.listening = true) (after : t.recv.listening = true)
    (looked : ∀ streamId, t.recv ≠ .synLookup streamId) (instances : t.instances = s.instances) :
    Unmoved s t := by
  refine ⟨arrived, known, version, wire, before, after, looked, ?_⟩
  intro y mem
  exact .inl ⟨y, instances ▸ mem, rfl, rfl⟩

theorem lookUp_unmoved (taken : s.lookUp = some t) : Unmoved s t := by
  unfold Session.lookUp at taken
  split at taken
  case h_1 at_ | h_3 at_ =>
    split at taken <;> obtain rfl := Option.some.inj taken <;>
      exact unmoved_of_instances rfl rfl rfl rfl (by rw [at_]; rfl) rfl (by simp) rfl
  case h_2 at_ =>
    split at taken <;> obtain rfl := Option.some.inj taken
    · exact unmoved_of_instances rfl rfl rfl rfl (by rw [at_]; rfl) rfl (by simp) rfl
    · refine ⟨rfl, rfl, rfl, rfl, by rw [at_]; rfl, rfl, by simp [accept], ?_⟩
      intro y mem
      rcases List.mem_append.mp mem with mem | mem
      · exact .inl ⟨y, mem, rfl, rfl⟩
      · obtain rfl := List.mem_singleton.mp mem
        exact .inr ⟨rfl, rfl, _, at_⟩
  case h_4 => cases taken

theorem push_unmoved {target : Nat} {data : Bytes} (before : s.recv.listening = true)
    (taken : s.push target data = some t) : Unmoved s t := by
  unfold Session.push at taken
  split at taken
  case h_1 => cases taken
  case h_2 inst found =>
    split at taken
    case isTrue =>
      obtain rfl := Option.some.inj taken
      exact unmoved_of_instances rfl rfl rfl rfl before rfl (by simp) rfl
    case isFalse =>
      obtain ⟨-, taken⟩ := Option.ite_none_right_eq_some.mp taken
      obtain rfl := Option.some.inj taken
      refine ⟨rfl, rfl, rfl, rfl, before, rfl, by simp, ?_⟩
      intro y mem
      rw [modifyInstance_eq found] at mem
      rcases List.mem_or_eq_of_mem_set mem with mem | rfl
      · exact .inl ⟨y, mem, rfl, rfl⟩
      · exact .inl ⟨inst, List.mem_of_getElem? found, rfl, rfl⟩

/-- The ways of the receive loop: it hears a frame, says one, leaves, or goes on
in silence. -/
inductive Converses (padding : Padding) (s : Session) : RecvEvent → Session → Prop
  | hears {frame : Frame} (at_ : s.recv = .decoding) : Converses padding s (.decoded frame)
      ({ s with arrived := s.arrived ++ [frame] }.handleFrame padding frame)
  | speaks {control : Control} (at_ : s.recv = .writing control) :
      Converses padding s .controlWritten
        ({ s with wire := s.wire ++ [(none, control.frame padding)] }.afterControl control)
  | leaves {event : RecvEvent} : Converses padding s event s.leaveRecvLoop
  | silent {event : RecvEvent} {t : Session} (unmoved : Unmoved s t) : Converses padding s event t

theorem converses_of_step {event : RecvEvent} (taken : s.recvStep padding event = some t) :
    Converses padding s event t := by
  cases event with
  | loopTop =>
      obtain ⟨at_, taken⟩ := Option.ite_none_right_eq_some.mp taken
      obtain rfl := Option.some.inj taken
      split
      · exact .leaves
      · exact .silent
          (unmoved_of_instances rfl rfl rfl rfl (by rw [at_]; rfl) rfl (by simp) rfl)
  | decoded frame =>
      obtain ⟨at_, taken⟩ := Option.ite_none_right_eq_some.mp taken
      obtain rfl := Option.some.inj taken
      exact .hears at_
  | undecodable | readEnded =>
      obtain ⟨-, taken⟩ := Option.ite_none_right_eq_some.mp taken
      obtain rfl := Option.some.inj taken
      exact .leaves
  | exhausted | received =>
      obtain ⟨at_, taken⟩ := Option.ite_none_right_eq_some.mp taken
      obtain rfl := Option.some.inj taken
      exact .silent
          (unmoved_of_instances rfl rfl rfl rfl (by rw [at_]; rfl) rfl (by simp) rfl)
  | streamsLocked =>
      obtain ⟨-, taken⟩ := Option.ite_none_right_eq_some.mp taken
      exact .silent (lookUp_unmoved taken)
  | pushed =>
      simp only [recvStep] at taken
      split at taken
      case h_1 at_ | h_2 at_ => exact .silent (push_unmoved (by rw [at_]; rfl) taken)
      case h_3 => cases taken
  | handleStored =>
      simp only [recvStep] at taken
      split at taken
      case h_1 at_ =>
        obtain rfl := Option.some.inj taken
        exact .silent
          (unmoved_of_instances rfl rfl rfl rfl (by rw [at_]; rfl) rfl (by simp) rfl)
      case h_2 => cases taken
  | controlWritten =>
      simp only [recvStep] at taken
      split at taken
      case h_1 at_ =>
        obtain rfl := Option.some.inj taken
        exact .speaks at_
      case h_2 => cases taken
  | controlFailed | controlTimedOut =>
      simp only [recvStep] at taken
      split at taken
      case h_1 =>
        obtain rfl := Option.some.inj taken
        exact .leaves
      case h_2 => cases taken

/-- The settings of a client that knows the SYNACK. -/
def knowsSynack (frame : Frame) : Bool :=
  frame.cmd = .settings && (clientVersion (StringMap.fromBytes frame.data)).isSome

theorem two_le_clientVersion {settings : StringMap} {v : UInt8}
    (announced : clientVersion settings = some v) : 2 ≤ v := by
  have passes := (Option.filter_eq_some_iff.mp announced).2
  exact of_decide_eq_true passes

/-- What hearing a frame does to the conversation. -/
structure Heard (padding : Padding) (s : Session) (frame : Frame) (t : Session) : Prop where
  arrived : t.arrived = s.arrived ++ [frame]
  known : t.receivedClientSettings = (s.receivedClientSettings || frame.cmd = .settings)
  wire : t.wire = s.wire
  instances : t.instances = s.instances
  owed : t.recv.owes padding = some (replies padding s.receivedClientSettings frame) ∨
    t.recv.owes padding = none
  looked : ∀ streamId, t.recv = .synLookup streamId → s.receivedClientSettings = true
  early : frame.cmd = .syn → s.receivedClientSettings = false → t.recv = .writing .missingSettings
  version : t.peerVersion = s.peerVersion ∨ 2 ≤ t.peerVersion ∧ knowsSynack frame = true
  announced : ∀ v, t.recv = .writing (.updatePaddingScheme (some v)) →
    2 ≤ v ∧ knowsSynack frame = true

theorem handleFrame_heard (padding : Padding) (s : Session) (frame : Frame) :
    Heard padding s frame
      ({ s with arrived := s.arrived ++ [frame] }.handleFrame padding frame) := by
  obtain ⟨cmd, streamId, data⟩ := frame
  -- a frame that changes the place of the receive loop only
  have quiet (recv : RecvAt) (other : cmd ≠ .settings) (notSyn : cmd ≠ .syn)
      (owed : recv.owes padding = some (replies padding s.receivedClientSettings
        ⟨cmd, streamId, data⟩)) (looked : ∀ streamId, recv ≠ .synLookup streamId)
      (announced : ∀ v, recv ≠ .writing (.updatePaddingScheme (some v))) :
      Heard padding s ⟨cmd, streamId, data⟩
        { s with arrived := s.arrived ++ [⟨cmd, streamId, data⟩], recv } := by
    refine ⟨rfl, by simp [other], rfl, rfl, .inl owed, ?_, ?_, .inl rfl, ?_⟩
    · exact fun streamId at_ => absurd at_ (looked streamId)
    · exact fun isSyn => absurd isSyn notSyn
    · exact fun v at_ => absurd at_ (announced v)
  cases cmd with
  | psh =>
      simp only [handleFrame]
      split
      · exact quiet .decoding (by simp) (by simp) rfl (by simp) (by simp)
      · exact quiet (.pshLookup streamId data) (by simp) (by simp) rfl (by simp) (by simp)
  | syn =>
      simp only [handleFrame]
      split
      case isTrue settings =>
        have settings : s.receivedClientSettings = true := settings
        refine ⟨rfl, by simp, rfl, rfl, .inl (by simp [replies, settings]; rfl), ?_, ?_, .inl rfl,
          by simp⟩
        · exact fun _ _ => settings
        · intro _ unknown
          cases settings.symm.trans unknown
      case isFalse settings =>
        have settings : s.receivedClientSettings = false := Bool.eq_false_iff.mpr settings
        exact ⟨rfl, by simp, rfl, rfl, .inl (by simp [replies, settings]; rfl), by simp,
          fun _ _ => rfl, .inl rfl, by simp⟩
  | settings =>
      simp only [handleFrame]
      split
      case isTrue differs =>
        refine ⟨rfl, by simp, rfl, rfl, .inl ?_, by simp, by simp, .inl rfl, ?_⟩
        · simp only [RecvAt.owes, Control.owes, replies, differs, if_true, List.singleton_append]
        · intro v at_
          have announced := (Control.updatePaddingScheme.inj (RecvAt.writing.inj at_))
          exact ⟨two_le_clientVersion announced, by simp [knowsSynack, announced]⟩
      case isFalse same =>
        unfold answerVersion
        split
        case h_1 version announced =>
          refine ⟨rfl, by simp, rfl, rfl, .inl ?_, by simp, by simp, .inr ⟨?_, ?_⟩, by simp⟩
          · simp only [RecvAt.owes, Control.owes, replies, same, announced]
            rfl
          · exact two_le_clientVersion announced
          · simp [knowsSynack, announced]
        case h_2 announced =>
          refine ⟨rfl, by simp, rfl, rfl, .inl ?_, by simp, by simp, .inl rfl, by simp⟩
          simp only [RecvAt.owes, replies, same, announced]
          rfl
  | alert =>
      simp only [handleFrame, leaveRecvLoop]
      split
      · exact ⟨rfl, by simp [returnFromRun], rfl, rfl, .inr rfl, by simp [returnFromRun],
          by simp, .inl rfl, by simp [returnFromRun]⟩
      · exact ⟨rfl, by simp, rfl, rfl, .inr rfl, by simp, by simp, .inl rfl, by simp⟩
  | fin => exact quiet (.finLookup streamId) (by simp) (by simp) rfl (by simp) (by simp)
  | heartRequest =>
      exact quiet (.writing (.heartResponse streamId)) (by simp) (by simp) rfl (by simp) (by simp)
  | waste | synAck | serverSettings | updatePaddingScheme | heartResponse =>
      exact quiet .decoding (by simp) (by simp) rfl (by simp) (by simp)

/-- A frame is heard when everything before it has been answered, and its own
replies are owed from then on. -/
theorem Speaking.hear {frame : Frame} (h : Speaking padding s) (at_ : s.recv = .decoding)
    (heard : Heard padding s frame t) : Speaking padding t := by
  have said : controls t = answers padding s.arrived := by
    rw [← h.owed [] (by rw [at_]; rfl), List.append_nil, controls, heard.wire, controls]
  refine ⟨?_, ?_, ?_⟩
  · rw [heard.known, heard.arrived, settled_concat, h.known]
  · rw [said, heard.arrived, answers_concat]
    exact List.prefix_append _ _
  · intro rest still
    rcases heard.owed with owed | left
    · obtain rfl := Option.some.inj (still.symm.trans owed)
      rw [said, heard.arrived, answers_concat, h.known]
    · cases left.symm.trans still

/-- A control frame is said when it is owed, and what it leaves is owed next. -/
theorem Speaking.speak {control : Control} (h : Speaking padding s)
    (at_ : s.recv = .writing control) : Speaking padding
      ({ s with wire := s.wire ++ [(none, control.frame padding)] }.afterControl control) := by
  have spoken (u : Session) (wire : u.wire = s.wire ++ [(none, control.frame padding)]) :
      controls u = controls s ++ [control.frame padding] := by
    rw [controls, wire, List.filterMap_append]
    rfl
  have owed : ∃ rest, s.recv.owes padding = some ([control.frame padding] ++ rest) := by
    rw [at_]
    cases control <;> exact ⟨_, rfl⟩
  cases control with
  | missingSettings =>
      simp only [afterControl, leaveRecvLoop]
      split
      · exact h.move rfl rfl (spoken _ rfl) (.inr owed) (by rintro rest ⟨⟩)
      · exact h.move rfl rfl (spoken _ rfl) (.inr owed) (by rintro rest ⟨⟩)
  | updatePaddingScheme version =>
      cases version with
      | none =>
          refine h.move rfl rfl (spoken _ rfl) (.inr owed) ?_
          rintro rest ⟨⟩
          rw [at_]
          rfl
      | some v =>
          refine h.move rfl rfl (spoken _ rfl) (.inr owed) ?_
          rintro rest ⟨⟩
          rw [at_]
          rfl
  | serverSettings | heartResponse =>
      refine h.move rfl rfl (spoken _ rfl) (.inr owed) ?_
      rintro rest ⟨⟩
      rw [at_]
      rfl

theorem Speaking.recv {event : RecvEvent} (h : Speaking padding s)
    (taken : s.recvStep padding event = some t) : Speaking padding t := by
  cases converses_of_step taken with
  | hears at_ => exact h.hear at_ (handleFrame_heard padding s _)
  | speaks at_ => exact h.speak at_
  | leaves => exact h.leave
  | silent on =>
      refine h.aside on.arrived on.known (by rw [controls, on.wire, controls]) (.inl ?_)
      rw [owes_of_listening on.before, owes_of_listening on.after]

theorem unheard_of_taken {event : Event} (taken : s.step padding event = some t)
    (other : ∀ e, event ≠ .recv e) : Unheard s t := by
  cases taken_of_step taken with
  | recv => exact absurd rfl (other _)
  | close does => exact does.unheard
  | outgoing does => exact does.unheard
  | task _ does => exact does.unheard

theorem Speaking.step {event : Event} (h : Speaking padding s)
    (taken : s.step padding event = some t) : Speaking padding t := by
  cases event with
  | recv => exact h.recv taken
  | close | outgoing | task => exact h.unheard (unheard_of_taken taken (by simp))

/-- The control frames on the wire answer the frames of the client, one after the
other and each in full. -/
theorem control_frames_answer (padding : Padding) (events : List Event) :
    Transition.Always (Session.step padding) (Conversed padding) Session.start events :=
  Transition.always_of_invariant (fun _ => Speaking.conversed) (fun _ _ _ => Speaking.step)
    speaking_start events

/-! ## Settings first -/

/-- Every stream was opened behind the settings, a SYN before them was the last
frame of the client, and SYNACKs answer a client that announced to know them. -/
structure SettingsFirst (s : Session) : Prop where
  opened : ∀ inst ∈ s.instances, settled (s.arrived.take inst.synAt) = true
  early : ∀ before syn behind, s.arrived = before ++ syn :: behind → syn.cmd = .syn →
    settled before = false → behind = []
  synacks : ∀ entry ∈ s.wire, entry.2.cmd = .synAck → s.arrived.any knowsSynack = true

/-- Where the receive loop, the streams and the wire stand in the conversation. -/
structure Greeted (s : Session) : Prop where
  known : s.receivedClientSettings = settled s.arrived
  opened : ∀ inst ∈ s.instances, settled (s.arrived.take inst.synAt) = true
  looked : ∀ streamId, s.recv = .synLookup streamId → settled s.arrived = true
  early : ∀ before syn behind, s.arrived = before ++ syn :: behind → syn.cmd = .syn →
    settled before = false →
      behind = [] ∧ (s.recv = .writing .missingSettings ∨ s.recv = .closing ∨ s.recv = .returned)
  version : 2 ≤ s.peerVersion → s.arrived.any knowsSynack = true
  announced : ∀ v, s.recv = .writing (.updatePaddingScheme (some v)) →
    2 ≤ v ∧ s.arrived.any knowsSynack = true
  synack : ∀ inst ∈ s.instances, ∀ error, inst.task = .synack error → 2 ≤ s.peerVersion
  wire : ∀ entry ∈ s.wire, entry.2.cmd = .synAck → 2 ≤ s.peerVersion

theorem greeted_start : Greeted Session.start where
  known := rfl
  opened := by simp [Session.start]
  looked := by simp [Session.start]
  early := by simp [Session.start]
  version := by simp [Session.start]
  announced := by simp [Session.start]
  synack := by simp [Session.start]
  wire := by simp [Session.start]

theorem Greeted.settingsFirst (h : Greeted s) : SettingsFirst s where
  opened := h.opened
  early before syn behind split isSyn unsettled :=
    (h.early before syn behind split isSyn unsettled).1
  synacks entry mem isSynack := h.version (h.wire entry mem isSynack)

/-- What the other tasks leave of the streams, and what they write. -/
structure Unopened (s t : Session) : Prop where
  instances : ∀ y ∈ t.instances, ∃ x ∈ s.instances, y.synAt = x.synAt ∧
    ∀ error, y.task = .synack error → x.task = .synack error ∨ 2 ≤ s.peerVersion
  wire : ∀ entry ∈ t.wire, entry ∈ s.wire ∨ entry.2.cmd ≠ .synAck ∨ 2 ≤ s.peerVersion

theorem unopened_of_same (instances : t.instances = s.instances) (wire : t.wire = s.wire) :
    Unopened s t where
  instances y mem := ⟨y, instances ▸ mem, rfl, fun _ at_ => .inl at_⟩
  wire _ mem := .inl (wire ▸ mem)

theorem unopened_of_put {inst' : Instance} (found : s.instances[i]? = some inst)
    (instances : t.instances = s.instances.set i inst') (synAt : inst'.synAt = inst.synAt)
    (task : ∀ error, inst'.task = .synack error → inst.task = .synack error ∨ 2 ≤ s.peerVersion)
    (wire : t.wire = s.wire) : Unopened s t where
  instances y mem := by
    rw [instances] at mem
    rcases List.mem_or_eq_of_mem_set mem with mem | rfl
    · exact ⟨y, mem, rfl, fun _ at_ => .inl at_⟩
    · exact ⟨inst, List.mem_of_getElem? found, synAt, task⟩
  wire _ mem := .inl (wire ▸ mem)

theorem Answers.unopened {error : Option Bytes} (found : s.instances[i]? = some inst)
    (h : Answers s i inst error t) : Unopened s t := by
  cases h with
  | relay => exact unopened_of_put found rfl rfl (by simp) rfl
  | fail drops => exact unopened_of_put found rfl drops.sameTask.synAt (by simp) rfl

theorem Finishes.unopened {closer : Closer} (h : Finishes s closer t) : Unopened s t := by
  cases h with
  | run | alone => exact unopened_of_same rfl rfl
  | task found _ answers =>
      obtain ⟨instances, wire⟩ := answers.unopened (s := { s with close := .done }) found
      exact ⟨instances, wire⟩

theorem unopened_drained : Unopened s s.drainTasks where
  instances y mem := by
    obtain ⟨j, get⟩ := List.getElem?_of_mem mem
    obtain ⟨x, aborted, found, rfl, -⟩ := getElem?_abortAll get
    exact ⟨x, List.mem_of_getElem? found, rfl, fun _ at_ => .inl at_⟩
  wire _ mem := .inl mem

theorem CloseTaken.unopened {event : CloseEvent} (h : CloseTaken s event t) : Unopened s t := by
  cases h with
  | drained =>
      obtain ⟨instances, wire⟩ := unopened_drained (s := s)
      exact ⟨instances, wire⟩
  | cleared => exact unopened_of_same rfl rfl
  | clearedLast _ finishes =>
      obtain ⟨instances, wire⟩ := finishes.unopened
      exact ⟨instances, wire⟩
  | shut _ finishes => exact finishes.unopened

theorem OutgoingTaken.unopened {event : OutgoingEvent} (h : OutgoingTaken s event t) :
    Unopened s t := by
  cases h with
  | written | finWritten =>
      refine ⟨(unopened_of_same (s := s) (t := s) rfl rfl).instances, ?_⟩
      intro entry mem
      rcases List.mem_append.mp mem with mem | mem
      · exact .inl mem
      · obtain rfl := List.mem_singleton.mp mem
        exact .inr (.inl (by simp [Frame.psh, Frame.control, Frame.withData]))
  | _ => exact unopened_of_same rfl rfl

/-- A stream task waits for its SYNACK only when the client announced that it
knows it. -/
theorem opened_unopened {error : Option Bytes} (found : s.instances[i]? = some inst)
    (taken : s.taskStep i inst (.opened error) = some t) : Unopened s t := by
  obtain ⟨-, taken⟩ := Option.ite_none_right_eq_some.mp taken
  obtain rfl := Option.some.inj taken
  split
  case isTrue => exact (afterSynack_answers found error).unopened found
  case isFalse version =>
    have put : s.setTask i (.synack error) = s.put i { inst with task := .synack error } []
        s.waiting s.granted := modifyInstance_eq found
    rw [put]
    exact unopened_of_put found rfl rfl (fun _ _ => .inr (UInt8.not_lt.mp version)) rfl

theorem TaskTaken.unopened {event : TaskEvent} (opened : Greeted s)
    (found : s.instances[i]? = some inst) (other : ∀ error, event ≠ .opened error)
    (h : TaskTaken s i inst event t) : Unopened s t := by
  cases h with
  | absent => exact unopened_of_same rfl rfl
  | read _ _ reads =>
      have same := reads.sameTask
      exact unopened_of_put found rfl same.synAt (fun _ at_ => .inl (same.task ▸ at_)) rfl
  | write _ _ writes =>
      have same := writes.sameTask
      exact unopened_of_put found rfl same.synAt (fun _ at_ => .inl (same.task ▸ at_)) rfl
  | shutdown _ _ shuts =>
      have same := shuts.sameTask
      exact unopened_of_put found rfl same.synAt (fun _ at_ => .inl (same.task ▸ at_)) rfl
  | opened | synack => exact absurd rfl (other _)
  | @synackWritten error _ at_ answers =>
      obtain ⟨instances, wire⟩ := answers.unopened
        (s := { s with wire := s.wire ++ [(some i, synackFrame inst.id error)] }) found
      have version := opened.synack inst (List.mem_of_getElem? found) _ at_
      refine ⟨instances, fun entry mem => ?_⟩
      rcases wire entry mem with mem | other
      · rcases List.mem_append.mp mem with mem | mem
        · exact .inl mem
        · exact .inr (.inr version)
      · exact .inr other
  | synackFailed _ answers | synackLate _ answers => exact answers.unopened found
  | returned _ drops | dropped _ _ drops =>
      exact unopened_of_put found rfl drops.sameTask.synAt (by simp) rfl
  | synackTimedOut | cleanedUp => exact unopened_of_put found rfl rfl (by simp) rfl

theorem unopened_of_taken {event : Event} (opened : Greeted s)
    (taken : s.step padding event = some t) (other : ∀ e, event ≠ .recv e) : Unopened s t := by
  cases event with
  | recv => exact absurd rfl (other _)
  | close => exact (closeTaken_of_step taken).unopened
  | outgoing => exact (outgoingTaken_of_step taken).unopened
  | task i event =>
      obtain ⟨inst, found, taken⟩ := Option.bind_eq_some_iff.mp taken
      cases event with
      | opened => exact opened_unopened found taken
      | _ => exact (taskTaken_of_step found taken).unopened opened found (by simp)

theorem Greeted.unheard (h : Greeted s) (on : Unheard s t) (open_ : Unopened s t) : Greeted t where
  known := by rw [on.known, on.arrived, h.known]
  opened y mem := by
    obtain ⟨x, member, synAt, -⟩ := open_.instances y mem
    rw [on.arrived, synAt]
    exact h.opened x member
  looked streamId at_ := by
    rw [on.arrived]
    rcases on.recv with same | left
    · exact h.looked streamId (same.symm.trans at_)
    · cases left.symm.trans at_
  early before syn behind split isSyn unsettled := by
    obtain ⟨last, at_⟩ := h.early before syn behind (on.arrived.symm.trans split) isSyn unsettled
    refine ⟨last, ?_⟩
    rcases on.recv with same | left
    · rw [same]
      exact at_
    · exact .inr (.inr left)
  version v := by
    rw [on.arrived]
    exact h.version (on.version ▸ v)
  announced v at_ := by
    rw [on.arrived]
    rcases on.recv with same | left
    · exact h.announced v (same.symm.trans at_)
    · cases left.symm.trans at_
  synack y mem error at_ := by
    obtain ⟨x, member, -, task⟩ := open_.instances y mem
    rw [on.version]
    rcases task error at_ with at_ | version
    · exact h.synack x member error at_
    · exact version
  wire entry mem isSynack := by
    rw [on.version]
    rcases open_.wire entry mem with mem | other | version
    · exact h.wire entry mem isSynack
    · exact absurd isSynack other
    · exact version

theorem settled_take_append {frames : List Frame} {n : Nat} (known : settled (frames.take n) = true)
    (more : List Frame) : settled ((frames ++ more).take n) = true := by
  rw [List.take_append, settled, List.any_append]
  rw [settled] at known
  rw [known, Bool.true_or]

theorem Greeted.hear {frame : Frame} (h : Greeted s) (at_ : s.recv = .decoding)
    (heard : Heard padding s frame t) : Greeted t := by
  have version (already : 2 ≤ s.peerVersion) : 2 ≤ t.peerVersion := by
    rcases heard.version with same | ⟨new, -⟩
    · rw [same]
      exact already
    · exact new
  have announced (earlier : s.arrived.any knowsSynack = true ∨ knowsSynack frame = true) :
      t.arrived.any knowsSynack = true := by
    rw [heard.arrived, List.any_append]
    rcases earlier with earlier | now
    · rw [earlier, Bool.true_or]
    · simp [now]
  refine ⟨?_, ?_, ?_, ?_, ?_, ?_, ?_, ?_⟩
  · rw [heard.known, heard.arrived, settled_concat, h.known]
  · intro inst mem
    rw [heard.arrived]
    exact settled_take_append (h.opened inst (heard.instances ▸ mem)) [frame]
  · intro streamId looks
    rw [heard.arrived, settled_concat, ← h.known, heard.looked streamId looks, Bool.true_or]
  · intro before syn behind split isSyn unsettled
    rw [heard.arrived] at split
    rcases List.eq_nil_or_concat behind with rfl | ⟨earlier, last, rfl⟩
    · obtain ⟨rfl, same⟩ := List.append_inj' split rfl
      obtain rfl : frame = syn := List.singleton_inj.mp same
      exact ⟨rfl, .inl (heard.early isSyn (h.known.trans unsettled))⟩
    · rw [List.concat_eq_append, ← List.cons_append, ← List.append_assoc] at split
      obtain ⟨arrived, -⟩ := List.append_inj' split rfl
      obtain ⟨-, left⟩ := h.early before syn earlier arrived isSyn unsettled
      rw [at_] at left
      rcases left with left | left | left <;> cases left
  · intro known
    rcases heard.version with same | ⟨-, now⟩
    · exact announced (.inl (h.version (same ▸ known)))
    · exact announced (.inr now)
  · intro v writes
    obtain ⟨two, now⟩ := heard.announced v writes
    exact ⟨two, announced (.inr now)⟩
  · intro inst mem error waits
    exact version (h.synack inst (heard.instances ▸ mem) error waits)
  · intro entry mem isSynack
    exact version (h.wire entry (heard.wire ▸ mem) isSynack)

/-- A step that hears nothing new. A SYN that is accepted was looked up behind the
settings. -/
theorem Greeted.turn (h : Greeted s) (arrived : t.arrived = s.arrived)
    (known : t.receivedClientSettings = s.receivedClientSettings)
    (instances : ∀ y ∈ t.instances, (∃ x ∈ s.instances, y.synAt = x.synAt ∧ y.task = x.task) ∨
      y.synAt = s.arrived.length ∧ y.task = .opening ∧ ∃ streamId, s.recv = .synLookup streamId)
    (wire : ∀ entry ∈ t.wire, entry ∈ s.wire ∨ entry.2.cmd ≠ .synAck)
    (version : t.peerVersion = s.peerVersion ∨
      2 ≤ t.peerVersion ∧ s.arrived.any knowsSynack = true)
    (looked : ∀ streamId, t.recv ≠ .synLookup streamId)
    (announced : ∀ v, t.recv ≠ .writing (.updatePaddingScheme (some v)))
    (early : s.recv = .writing .missingSettings ∨ s.recv = .closing ∨ s.recv = .returned →
      t.recv = .closing ∨ t.recv = .returned) : Greeted t := by
  have still (already : 2 ≤ s.peerVersion) : 2 ≤ t.peerVersion := by
    rcases version with same | ⟨new, -⟩
    · rw [same]
      exact already
    · exact new
  refine ⟨?_, ?_, ?_, ?_, ?_, ?_, ?_, ?_⟩
  · rw [known, arrived, h.known]
  · intro y mem
    rw [arrived]
    rcases instances y mem with ⟨x, member, synAt, -⟩ | ⟨synAt, -, streamId, looks⟩
    · rw [synAt]
      exact h.opened x member
    · rw [synAt, List.take_length]
      exact h.looked streamId looks
  · exact fun streamId looks => absurd looks (looked streamId)
  · intro before syn behind split isSyn unsettled
    obtain ⟨last, left⟩ := h.early before syn behind (arrived ▸ split) isSyn unsettled
    exact ⟨last, .inr (early left)⟩
  · intro new
    rw [arrived]
    rcases version with same | ⟨-, now⟩
    · exact h.version (same ▸ new)
    · exact now
  · exact fun v writes => absurd writes (announced v)
  · intro y mem error waits
    rcases instances y mem with ⟨x, member, -, task⟩ | ⟨-, opening, -⟩
    · exact still (h.synack x member error (task ▸ waits))
    · cases opening.symm.trans waits
  · intro entry mem isSynack
    rcases wire entry mem with mem | other
    · exact still (h.wire entry mem isSynack)
    · exact absurd isSynack other

theorem Greeted.leave (h : Greeted s) : Greeted s.leaveRecvLoop := by
  have left := leaveRecvLoop_recv s
  refine h.turn (leaveRecvLoop_arrived s) ?_ ?_ ?_ (.inl ?_) ?_ ?_ (fun _ => left)
  · unfold leaveRecvLoop
    split <;> rfl
  · intro y mem
    rw [leaveRecvLoop_instances] at mem
    exact .inl ⟨y, mem, rfl, rfl⟩
  · intro entry mem
    unfold leaveRecvLoop at mem
    split at mem <;> exact .inl mem
  · unfold leaveRecvLoop
    split <;> rfl
  · intro streamId looks
    rw [looks] at left
    rcases left with left | left <;> cases left
  · intro v writes
    rw [writes] at left
    rcases left with left | left <;> cases left

/-- A control frame is on the wire, and the receive loop is where it was. -/
theorem Greeted.write {control : Control} (h : Greeted s) :
    Greeted { s with wire := s.wire ++ [(none, control.frame padding)] } := by
  refine ⟨h.known, h.opened, h.looked, h.early, h.version, h.announced, h.synack, ?_⟩
  intro entry mem isSynack
  rcases List.mem_append.mp mem with mem | mem
  · exact h.wire entry mem isSynack
  · obtain rfl := List.mem_singleton.mp mem
    cases control <;> cases isSynack

theorem Greeted.afterControl {control : Control} (h : Greeted s) (at_ : s.recv = .writing control) :
    Greeted (s.afterControl control) := by
  have instances (y : Instance) (mem : y ∈ s.instances) :
      (∃ x ∈ s.instances, y.synAt = x.synAt ∧ y.task = x.task) ∨ y.synAt = s.arrived.length ∧
        y.task = .opening ∧ ∃ streamId, s.recv = .synLookup streamId := .inl ⟨y, mem, rfl, rfl⟩
  have late (other : control ≠ .missingSettings) (early : s.recv = .writing .missingSettings ∨
      s.recv = .closing ∨ s.recv = .returned) (P : Prop) : P := by
    rw [at_] at early
    rcases early with same | left | left
    · exact absurd (RecvAt.writing.inj same) other
    · cases left
    · cases left
  cases control with
  | missingSettings => exact h.leave
  | updatePaddingScheme version =>
      cases version with
      | none =>
          exact h.turn rfl rfl instances (fun _ mem => .inl mem) (.inl rfl) (by simp [answerVersion,
            Session.afterControl]) (by simp [Session.afterControl, answerVersion])
            (fun early => late (by simp) early _)
      | some v =>
          obtain ⟨two, announced⟩ := h.announced v at_
          exact h.turn rfl rfl instances (fun _ mem => .inl mem) (.inr ⟨two, announced⟩)
            (by simp [Session.afterControl, answerVersion])
            (by simp [Session.afterControl, answerVersion]) (fun early => late (by simp) early _)
  | serverSettings | heartResponse =>
      exact h.turn rfl rfl instances (fun _ mem => .inl mem) (.inl rfl)
        (by simp [Session.afterControl]) (by simp [Session.afterControl])
        (fun early => late (by simp) early _)

theorem Greeted.recv {event : RecvEvent} (h : Greeted s)
    (taken : s.recvStep padding event = some t) : Greeted t := by
  cases converses_of_step taken with
  | hears at_ => exact h.hear at_ (handleFrame_heard padding s _)
  | speaks at_ => exact Greeted.afterControl h.write at_
  | leaves => exact h.leave
  | silent on =>
      refine h.turn on.arrived on.known on.instances (fun _ mem => .inl (on.wire ▸ mem))
        (.inl on.version) on.looked ?_ ?_
      · intro v writes
        have after := on.after
        rw [writes] at after
        cases after
      · intro early
        have before := on.before
        rcases early with early | early | early <;> rw [early] at before <;> cases before

theorem Greeted.step {event : Event} (h : Greeted s) (taken : s.step padding event = some t) :
    Greeted t := by
  cases event with
  | recv => exact h.recv taken
  | close | outgoing | task =>
      exact h.unheard (unheard_of_taken taken (by simp)) (unopened_of_taken h taken (by simp))

/-- In every run the settings come first: before any stream, and before any
SYNACK. -/
theorem settings_come_first (padding : Padding) (events : List Event) :
    Transition.Always (Session.step padding) SettingsFirst Session.start events :=
  Transition.always_of_invariant (fun _ => Greeted.settingsFirst) (fun _ _ _ => Greeted.step)
    greeted_start events

end RustProxy.AnyTls
