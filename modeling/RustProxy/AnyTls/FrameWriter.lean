import RustProxy.AnyTls.PaddedWrites

/-!
# `write_frame` in all its branches

A frame is encoded into `write_buf`. While the session buffers, the encoding is
kept back; the next frame that is written takes what was kept back with it. Up
to the packet number at which the scheme stops, the bytes go out with padding;
the packet that reaches it switches padding off.

Both flags are atomics that anyone with the session could set between two calls.
Nothing in the program does: `new_server_with_initial_data` leaves them off, and
then a call writes the encoding of its frame and nothing else
(`run_of_server`). With the flags set in any way, the peer still decodes the
frames in the order of the calls, and beside them Waste frames only.
-/

namespace RustProxy.AnyTls

/-- The fields of a session that `write_frame` works with. -/
structure FrameWriter where
  buffering : Bool
  buffer : Bytes
  sendPadding : Bool
  pktCounter : UInt32
  deriving DecidableEq

inductive WriterEvent where
  /-- a call, and what is drawn for the parts of its packet's line -/
  | writeFrame (frame : Frame) (draws : Nat → Draw)
  | setBuffering (on : Bool)
  | setSendPadding (on : Bool)

namespace FrameWriter

/-- As `new_server_with_initial_data` has them. -/
def server : FrameWriter := ⟨false, [], false, 0⟩

/-- `write_frame`: the buffers that are handed to `write_all`, and the fields
afterwards. -/
def writeFrame (padding : PaddingFactory) (w : FrameWriter) (frame : Frame) (draws : Nat → Draw) :
    List Bytes × FrameWriter :=
  let writeBuf := frame.encodeInto []
  if w.buffering then ([], { w with buffer := w.buffer ++ writeBuf })
  else
    let combined := if w.buffer.isEmpty then writeBuf else w.buffer ++ writeBuf
    let w := { w with buffer := [] }
    if w.sendPadding then
      let pkt := w.pktCounter + 1
      let w := { w with pktCounter := pkt }
      if pkt.toNat < padding.stop then
        (writeWithPadding (padding.generateRecordPayloadSizes draws) combined pkt.toNat, w)
      else ([combined], { w with sendPadding := false })
    else ([combined], w)

def step (padding : PaddingFactory) (w : FrameWriter) : WriterEvent → List Bytes × FrameWriter
  | .writeFrame frame draws => w.writeFrame padding frame draws
  | .setBuffering on => ([], { w with buffering := on })
  | .setSendPadding on => ([], { w with sendPadding := on })

/-- What a run hands to `write_all`, and the fields at its end. -/
def run (padding : PaddingFactory) (w : FrameWriter) : List WriterEvent → List Bytes × FrameWriter
  | [] => ([], w)
  | event :: events =>
      let (written, w) := w.step padding event
      let (more, w) := run padding w events
      (written ++ more, w)

end FrameWriter

/-- The frame that a call is made with. -/
def WriterEvent.frame : WriterEvent → Option Frame
  | .writeFrame frame _ => some frame
  | .setBuffering _ | .setSendPadding _ => none

/-- A frame that says nothing. -/
structure IsPadding (frame : Frame) : Prop where
  waste : frame.cmd = .waste
  session : frame.streamId = 0
  zeros : ∀ byte ∈ frame.data, byte = 0

/-- Frames on the wire, each with whether it was passed to `write_frame`. -/
abbrev WireFrames := List (Bool × Frame)

namespace WireFrames

def frames (entries : WireFrames) : List Frame := entries.map Prod.snd

def passed (entries : WireFrames) : List Frame := (entries.filter Prod.fst).map Prod.snd

def bytes (entries : WireFrames) : Bytes := (entries.frames.map Frame.encode).flatten

/-- Some frames of calls, and padding behind them. -/
def padded (frames : List Frame) (lengths : List Nat) : WireFrames :=
  frames.map (true, ·) ++ lengths.map (false, Frame.padding ·)

@[simp, grind =] theorem frames_append (entries more : WireFrames) :
    frames (entries ++ more) = entries.frames ++ more.frames := List.map_append

@[simp, grind =] theorem passed_append (entries more : WireFrames) :
    passed (entries ++ more) = entries.passed ++ more.passed := by
  rw [passed, List.filter_append, List.map_append]
  rfl

@[simp, grind =] theorem bytes_append (entries more : WireFrames) :
    bytes (entries ++ more) = entries.bytes ++ more.bytes := by
  rw [bytes, frames_append, List.map_append, List.flatten_append]
  rfl

@[simp] theorem frames_padded (frames : List Frame) (lengths : List Nat) :
    (padded frames lengths).frames = frames ++ lengths.map Frame.padding := by
  simp [padded, WireFrames.frames, Function.comp_def]

@[simp] theorem passed_padded (frames : List Frame) (lengths : List Nat) :
    (padded frames lengths).passed = frames := by
  simp [padded, passed, List.filter_map, Function.comp_def]

theorem bytes_padded (frames : List Frame) (lengths : List Nat) :
    (padded frames lengths).bytes = (frames.map Frame.encode).flatten ++
      ((lengths.map Frame.padding).map Frame.encode).flatten := by
  rw [bytes, frames_padded, List.map_append, List.flatten_append]

end WireFrames

theorem isPadding_padding (n : Nat) : IsPadding (.padding n) where
  waste := rfl
  session := rfl
  zeros _ mem := List.eq_of_mem_replicate mem

/-- The wire carries the frames of the calls but for those that are kept back,
and beside them padding only. -/
structure Carries (called : List Frame) (written : Bytes) (w : FrameWriter) (entries : WireFrames)
    (held : List Frame) : Prop where
  wire : written = entries.bytes
  calls : entries.passed ++ held = called
  kept : w.buffer = (held.map Frame.encode).flatten
  padding : ∀ entry ∈ entries, entry.1 = false →
    IsPadding entry.2 ∧ entry.2.data.length ≤ 65535

section Runs

variable {padding : PaddingFactory} {w : FrameWriter} {called held : List Frame} {written : Bytes}
  {entries : WireFrames}

/-- What a call that is not kept back adds to the wire. -/
theorem Carries.add (h : Carries called written w entries held)
    (frame : Frame) (lengths : List Nat) (small : ∀ n ∈ lengths, n ≤ 65535) {more : Bytes}
    {w' : FrameWriter} (emptied : w'.buffer = [])
    (adds : more = w.buffer ++ frame.encode ++
      ((lengths.map Frame.padding).map Frame.encode).flatten) :
    Carries (called ++ [frame]) (written ++ more) w'
      (entries ++ .padded (held ++ [frame]) lengths) [] where
  wire := by
    rw [WireFrames.bytes_append, WireFrames.bytes_padded, h.wire, adds, h.kept]
    simp
  calls := by
    rw [WireFrames.passed_append, WireFrames.passed_padded, List.append_nil,
      ← List.append_assoc, h.calls]
  kept := emptied
  padding entry mem unmarked := by
    rcases List.mem_append.mp mem with mem | mem
    · exact h.padding entry mem unmarked
    · rcases List.mem_append.mp mem with mem | mem
      · obtain ⟨frame, -, rfl⟩ := List.mem_map.mp mem
        cases unmarked
      · obtain ⟨n, inside, rfl⟩ := List.mem_map.mp mem
        exact ⟨isPadding_padding n, (List.length_replicate ..).trans_le (small n inside)⟩

/-- What a call writes that is not kept back: what was, its own frame, and padding. -/
theorem FrameWriter.writeFrame_flatten (fits : ∀ pkt, padding.RangesFit pkt)
    (unbuffered : w.buffering = false) (frame : Frame) (draws : Nat → Draw) :
    ∃ lengths : List Nat, (∀ n ∈ lengths, n ≤ 65535) ∧
      (w.writeFrame padding frame draws).1.flatten = w.buffer ++ frame.encode ++
        ((lengths.map Frame.padding).map Frame.encode).flatten ∧
      (w.writeFrame padding frame draws).2.buffer = [] := by
  have combined : (if w.buffer.isEmpty then frame.encodeInto [] else
      w.buffer ++ frame.encodeInto []) = w.buffer ++ frame.encode := by
    split
    case isTrue none_ =>
      rw [List.isEmpty_iff.mp none_]
      rfl
    case isFalse => rfl
  simp only [FrameWriter.writeFrame, unbuffered, Bool.false_eq_true, if_false, combined]
  split
  case isTrue =>
    split
    case isTrue =>
      obtain ⟨lengths, small, written⟩ := writeWithPadding_flatten
        (PaddingFactory.usableSize (fits (w.pktCounter + 1).toNat) draws)
        (w.buffer ++ frame.encode)
      exact ⟨lengths, small, written, rfl⟩
    case isFalse => exact ⟨[], nofun, by simp, rfl⟩
  case isFalse => exact ⟨[], nofun, by simp, rfl⟩

theorem Carries.step (h : Carries called written w entries held)
    (fits : ∀ pkt, padding.RangesFit pkt) (event : WriterEvent) :
    ∃ entries' held', Carries (called ++ event.frame.toList)
      (written ++ (w.step padding event).1.flatten) (w.step padding event).2 entries' held' := by
  cases event with
  | setBuffering on | setSendPadding on =>
      refine ⟨entries, held, ?_, ?_, h.kept, h.padding⟩
      · exact (List.append_nil _).trans h.wire
      · exact h.calls.trans (List.append_nil _).symm
  | writeFrame frame draws =>
      cases buffering : w.buffering with
      | true =>
          have kept : w.writeFrame padding frame draws =
              ([], { w with buffer := w.buffer ++ frame.encode }) := by
            simp only [FrameWriter.writeFrame, buffering, if_true]
            rfl
          refine ⟨entries, held ++ [frame], ?_, ?_, ?_, h.padding⟩
          · rw [FrameWriter.step, kept]
            exact (List.append_nil _).trans h.wire
          · rw [← List.append_assoc, h.calls]
            rfl
          · rw [FrameWriter.step, kept, List.map_append, List.flatten_append, ← h.kept]
            simp
      | false =>
          obtain ⟨lengths, small, adds, emptied⟩ :=
            FrameWriter.writeFrame_flatten fits buffering frame draws
          exact ⟨_, _, h.add frame lengths small emptied adds⟩

theorem Carries.run (h : Carries called written w entries held)
    (fits : ∀ pkt, padding.RangesFit pkt) (events : List WriterEvent) :
    ∃ entries' held', Carries (called ++ events.filterMap WriterEvent.frame)
      (written ++ (w.run padding events).1.flatten) (w.run padding events).2 entries' held' := by
  induction events generalizing w called written entries held with
  | nil =>
      refine ⟨entries, held, ?_⟩
      simpa [FrameWriter.run] using h
  | cons event events ih =>
      obtain ⟨entries', held', stepped⟩ := h.step fits event
      obtain ⟨entries'', held'', ran⟩ := ih stepped
      refine ⟨entries'', held'', ?_⟩
      have calls : called ++ (event :: events).filterMap WriterEvent.frame =
          called ++ event.frame.toList ++ events.filterMap WriterEvent.frame := by
        cases frame : event.frame <;> simp [frame]
      rw [calls, FrameWriter.run]
      simpa [List.append_assoc] using ran

end Runs

namespace PaddingFactory

/-- The default scheme, by its lines. -/
def DEFAULT_PADDING_SCHEME : Text :=
  List.intercalate ['\n'] ["stop=8".toList, "0=30-30".toList, "1=100-400".toList,
    "2=400-500,c,500-1000,c,500-1000,c,500-1000,c,500-1000".toList, "3=9-9,500-1000".toList,
    "4=500-1000".toList, "5=500-1000".toList, "6=500-1000".toList, "7=500-1000".toList]

/-- `default_factory`; an error would be its panic. -/
def defaultFactory (digest : Bytes → Text) : Except String PaddingFactory :=
  new digest (utf8Bytes DEFAULT_PADDING_SCHEME)

/-- The ranges of every line fit, whatever packet it is for. -/
def linesFit (scheme : StringMap) : Bool :=
  scheme.entries.all fun line => (line.2.splitOn ',').all fun part =>
    (rangeOf (trim part)).all fun bounds => bounds.2 ≤ 65535

theorem rangesFit_of_linesFit {factory : PaddingFactory} (fit : linesFit factory.scheme = true)
    (pkt : Nat) : factory.RangesFit pkt := by
  intro part mem _ lo hi range
  unfold partsFor at mem
  split at mem
  case h_1 spec found =>
    have line := List.all_eq_true.mp fit _ (Table.mem_entries_iff.mpr found)
    have fits := List.all_eq_true.mp line part mem
    rw [range] at fits
    exact of_decide_eq_true fits
  case h_2 => exact absurd mem List.not_mem_nil

/-- What becomes of the default scheme. -/
def standard (md5 : Text) : PaddingFactory where
  scheme := .fromBytes (utf8Bytes DEFAULT_PADDING_SCHEME)
  rawScheme := utf8Bytes DEFAULT_PADDING_SCHEME
  stop := 8
  md5 := md5

/-- The default scheme is accepted. -/
theorem defaultFactory_eq (digest : Bytes → Text) :
    defaultFactory digest = .ok (standard (digest (utf8Bytes DEFAULT_PADDING_SCHEME))) := by
  have stop : (StringMap.fromBytes (utf8Bytes DEFAULT_PADDING_SCHEME)).get "stop" =
      some "8".toList := by decide +kernel
  have eight : parseUnsigned (2 ^ 32 - 1) "8".toList = some 8 := by decide +kernel
  simp only [defaultFactory, new, stop, eight]
  rfl

theorem linesFit_default : linesFit (.fromBytes (utf8Bytes DEFAULT_PADDING_SCHEME)) = true := by
  decide +kernel

theorem rangesFit_standard (md5 : Text) (pkt : Nat) : (standard md5).RangesFit pkt := by
  have fit : linesFit (standard md5).scheme = true := by
    simp only [standard]
    exact linesFit_default
  exact rangesFit_of_linesFit fit pkt

end PaddingFactory

/-- The peer decodes what a run has written as the frames in the order of the
calls, but for those that are kept back, and beside them padding. -/
def KeepsFrames (padding : PaddingFactory) (w : FrameWriter) (events : List WriterEvent) : Prop :=
  ∃ (entries : WireFrames) (held : List Frame),
    FrameCodec.decodeAll (w.run padding events).1.flatten = (.ok (), [], entries.frames) ∧
    entries.passed ++ held = events.filterMap WriterEvent.frame ∧
    (w.run padding events).2.buffer = (held.map Frame.encode).flatten ∧
    ∀ entry ∈ entries, entry.1 = false → IsPadding entry.2

/-- However the flags are set at the start and between the calls, a scheme whose
ranges fit does not change the frames that come out. -/
theorem written_frames_decode (padding : PaddingFactory) (fits : ∀ pkt, padding.RangesFit pkt)
    (buffering sendPadding : Bool) (pktCounter : UInt32) (events : List WriterEvent)
    (small : ∀ frame ∈ events.filterMap WriterEvent.frame, frame.data.length ≤ 65535) :
    KeepsFrames padding ⟨buffering, [], sendPadding, pktCounter⟩ events := by
  have start : Carries [] [] ⟨buffering, [], sendPadding, pktCounter⟩ [] [] :=
    ⟨rfl, rfl, rfl, fun _ mem => absurd mem List.not_mem_nil⟩
  obtain ⟨entries, held, ran⟩ := start.run fits events
  rw [List.nil_append, List.nil_append] at ran
  refine ⟨entries, held, ?_, ran.calls, ran.kept, ?_⟩
  · rw [ran.wire]
    apply FrameCodec.decodeAll_encoded
    intro frame mem
    obtain ⟨⟨mark, frame⟩, inside, rfl⟩ := List.mem_map.mp mem
    cases mark with
    | false => exact (ran.padding _ inside rfl).2
    | true =>
        apply small
        have passed : frame ∈ entries.passed :=
          List.mem_map_of_mem (f := Prod.snd) (List.mem_filter.mpr ⟨inside, rfl⟩)
        rw [← ran.calls]
        exact List.mem_append_left _ passed
  · intro entry mem unmarked
    exact (ran.padding entry mem unmarked).1

/-- A frame is kept back, and goes out with the next one in a padded packet. -/
def keptBack : List WriterEvent :=
  [.setBuffering true, .writeFrame (.control .synAck 1) fun _ => .giving 120,
    .setBuffering false, .writeFrame (.psh 1 [5]) fun _ => .giving 120]

/-- The MD5 of the default scheme. -/
def defaultMd5 : Text := "75cff2ad89aadf5e257059ee571ebe11".toList

/-- So it is under the default scheme. -/
theorem kept_back_decodes :
    ∃ padding, PaddingFactory.defaultFactory (fun _ => defaultMd5) = .ok padding ∧
      (∀ frame ∈ keptBack.filterMap WriterEvent.frame, frame.data.length ≤ 65535) ∧
      KeepsFrames padding ⟨false, [], true, 0⟩ keptBack :=
  ⟨_, PaddingFactory.defaultFactory_eq _, by decide, written_frames_decode _
    (PaddingFactory.rangesFit_standard defaultMd5) false true 0 keptBack (by decide)⟩

/-- As the server has the flags, every call writes the encoding of its frame. -/
theorem FrameWriter.run_of_server (padding : PaddingFactory)
    (calls : List (Frame × (Nat → Draw))) :
    FrameWriter.server.run padding (calls.map fun call => .writeFrame call.1 call.2) =
      (calls.map fun call => call.1.encodeInto [], .server) := by
  induction calls with
  | nil => rfl
  | cons call calls ih =>
      have first : FrameWriter.server.step padding (.writeFrame call.1 call.2) =
          ([call.1.encodeInto []], .server) := rfl
      rw [List.map_cons, FrameWriter.run, first]
      dsimp only
      rw [ih]
      rfl

end RustProxy.AnyTls
