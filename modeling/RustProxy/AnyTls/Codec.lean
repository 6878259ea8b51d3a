import RustProxy.AnyTls.Types
import RustProxy.AsyncStream
import RustProxy.Base.BigEndian

/-!
# Frames on the wire

`Frame::encode_into`, `FrameCodec::decode` and the receive loop that uses them.
A frame is its command, its stream id, the length of its payload in 16 bits and
the payload. The decoder is incremental: it takes a frame off the front of the
buffer once all of it is there, and leaves the buffer alone until then.

Bytes that arrive later do not change what the decoder makes of those already
there (`decode_append`). So the loop hands its handler the same frames however
the stream was cut (`handedOver_pieces`), and what follows the last whole frame
stays in the buffer. The session is looked at between two reads only: closed by
another task while a frame is handled, it still handles the other frames of the
same read, so a cut may end the loop earlier (`read_at_once_or_apart`).
-/

namespace RustProxy.AnyTls

open BigEndian

def FRAME_HEADER_SIZE : Nat := 7

namespace Command

/-- `cmd as u8`. -/
def toByte : Command → UInt8
  | waste => 0
  | syn => 1
  | psh => 2
  | fin => 3
  | settings => 4
  | alert => 5
  | updatePaddingScheme => 6
  | synAck => 7
  | heartRequest => 8
  | heartResponse => 9
  | serverSettings => 10

def unknown (value : UInt8) : IoError :=
  ⟨.invalidData, "unknown command: " ++ toString value.toNat⟩

def tryFrom (value : UInt8) : IoResult Command :=
  match value.toNat with
  | 0 => .ok waste
  | 1 => .ok syn
  | 2 => .ok psh
  | 3 => .ok fin
  | 4 => .ok settings
  | 5 => .ok alert
  | 6 => .ok updatePaddingScheme
  | 7 => .ok synAck
  | 8 => .ok heartRequest
  | 9 => .ok heartResponse
  | 10 => .ok serverSettings
  | _ => .error (unknown value)

@[simp, grind =] theorem tryFrom_toByte (cmd : Command) : tryFrom cmd.toByte = .ok cmd := by
  cases cmd <;> rfl

end Command

namespace Frame

/-- `put_u8`, `put_u32`, `put_u16(data.len() as u16)` and the payload. -/
def encode (frame : Frame) : Bytes :=
  frame.cmd.toByte :: toBe 4 frame.streamId.toNat ++ toBe 2 frame.data.length ++ frame.data

def encodeInto (frame : Frame) (buf : Bytes) : Bytes := buf ++ frame.encode

def decodeHeader (header : Bytes) : IoResult (Command × UInt32 × UInt16) :=
  match Command.tryFrom (header.getD 0 0) with
  | .error e => .error e
  | .ok cmd =>
      .ok (cmd, UInt32.ofNat (ofBe ((header.drop 1).take 4)),
        UInt16.ofNat (ofBe ((header.drop 5).take 2)))

@[simp, grind =] theorem length_encode (frame : Frame) :
    frame.encode.length = FRAME_HEADER_SIZE + frame.data.length := by
  simp [encode, FRAME_HEADER_SIZE]
  omega

/-- The header of an encoding is read back, when the payload's length fits. -/
theorem decodeHeader_encode (frame : Frame) (fits : frame.data.length ≤ 65535) (more : Bytes) :
    decodeHeader ((frame.encode ++ more).take FRAME_HEADER_SIZE) =
      .ok (frame.cmd, frame.streamId, UInt16.ofNat frame.data.length) := by
  have header : (frame.encode ++ more).take FRAME_HEADER_SIZE =
      frame.cmd.toByte :: (toBe 4 frame.streamId.toNat ++ toBe 2 frame.data.length) := by
    rw [encode, List.append_assoc]
    exact List.take_left' (by simp [FRAME_HEADER_SIZE])
  have id : ofBe (toBe 4 frame.streamId.toNat) = frame.streamId.toNat :=
    ofBe_toBe_of_lt frame.streamId.toNat_lt
  have length : ofBe (toBe 2 frame.data.length) = frame.data.length :=
    ofBe_toBe_of_lt (by omega)
  have all : (toBe 2 frame.data.length).take 2 = toBe 2 frame.data.length :=
    List.take_of_length_le (by simp)
  simp [header, decodeHeader, Command.tryFrom_toByte, id, all, length]

end Frame

namespace FrameCodec

/-- `decode(&mut buf)`: the frame, and what is left in the buffer. -/
def decode (buf : Bytes) : IoResult (Option Frame) × Bytes :=
  if buf.length < FRAME_HEADER_SIZE then (.ok none, buf)
  else
    match Frame.decodeHeader (buf.take FRAME_HEADER_SIZE) with
    | .error e => (.error e, buf)
    | .ok (cmd, streamId, dataLen) =>
        let totalLen := FRAME_HEADER_SIZE + dataLen.toNat
        if buf.length < totalLen then (.ok none, buf)
        else
          let rest := buf.drop FRAME_HEADER_SIZE
          (.ok (some ⟨cmd, streamId, rest.take dataLen.toNat⟩), rest.drop dataLen.toNat)

variable {buf rest : Bytes} {frame : Frame} {e : IoError}

/-- What the decoder can do, and what it then says of the buffer. -/
inductive Decodes (buf : Bytes) : IoResult (Option Frame) × Bytes → Prop
  | short (less : buf.length < FRAME_HEADER_SIZE) : Decodes buf (.ok none, buf)
  | unknown {e : IoError} (enough : FRAME_HEADER_SIZE ≤ buf.length)
      (header : Frame.decodeHeader (buf.take FRAME_HEADER_SIZE) = .error e) :
      Decodes buf (.error e, buf)
  | cut {cmd : Command} {streamId : UInt32} {dataLen : UInt16}
      (enough : FRAME_HEADER_SIZE ≤ buf.length)
      (header : Frame.decodeHeader (buf.take FRAME_HEADER_SIZE) = .ok (cmd, streamId, dataLen))
      (less : buf.length < FRAME_HEADER_SIZE + dataLen.toNat) : Decodes buf (.ok none, buf)
  | whole {cmd : Command} {streamId : UInt32} {dataLen : UInt16}
      (header : Frame.decodeHeader (buf.take FRAME_HEADER_SIZE) = .ok (cmd, streamId, dataLen))
      (enough : FRAME_HEADER_SIZE + dataLen.toNat ≤ buf.length) :
      Decodes buf (.ok (some ⟨cmd, streamId, (buf.drop FRAME_HEADER_SIZE).take dataLen.toNat⟩),
        (buf.drop FRAME_HEADER_SIZE).drop dataLen.toNat)

theorem decode_decodes (buf : Bytes) : Decodes buf (decode buf) := by
  unfold decode
  split
  case isTrue less => exact .short less
  case isFalse enough =>
    have enough := Nat.le_of_not_lt enough
    split
    case h_1 header => exact .unknown enough header
    case h_2 header =>
      dsimp only
      split
      case isTrue less => exact .cut enough header less
      case isFalse all => exact .whole header (Nat.le_of_not_lt all)

theorem take_header_append {more : Bytes} (enough : FRAME_HEADER_SIZE ≤ buf.length) :
    (buf ++ more).take FRAME_HEADER_SIZE = buf.take FRAME_HEADER_SIZE :=
  List.take_append_of_le_length enough

/-- Later bytes do not change an answer: a frame is decoded as before, and an
unknown command stays one. -/
theorem decode_append (buf more : Bytes) (answered : (decode buf).1 ≠ .ok none) :
    decode (buf ++ more) = ((decode buf).1, (decode buf).2 ++ more) := by
  generalize done : decode buf = result at answered ⊢
  cases done ▸ decode_decodes buf with
  | short | cut => exact absurd rfl answered
  | unknown enough header =>
      have long : ¬(buf ++ more).length < FRAME_HEADER_SIZE := by
        rw [List.length_append]
        omega
      rw [decode, if_neg long, take_header_append enough, header]
  | @whole cmd streamId dataLen header enough =>
      have long : ¬(buf ++ more).length < FRAME_HEADER_SIZE := by
        rw [List.length_append]
        omega
      have all : ¬(buf ++ more).length < FRAME_HEADER_SIZE + dataLen.toNat := by
        rw [List.length_append]
        omega
      have inside : dataLen.toNat ≤ (buf.drop FRAME_HEADER_SIZE).length := by
        rw [List.length_drop]
        omega
      rw [decode, if_neg long, take_header_append (by omega), header]
      dsimp only
      rw [if_neg all, List.drop_append_of_le_length (by omega),
        List.take_append_of_le_length inside, List.drop_append_of_le_length inside]

/-- A decoded frame leaves less in the buffer. -/
theorem decode_shorter (decoded : decode buf = (.ok (some frame), rest)) :
    rest.length < buf.length := by
  cases decoded ▸ decode_decodes buf with
  | whole header enough =>
      rw [List.length_drop, List.length_drop]
      have : 0 < FRAME_HEADER_SIZE := by decide
      omega

/-- Without a whole frame the buffer is left alone. -/
theorem decode_waits (waits : decode buf = (.ok none, rest)) : rest = buf := by
  cases waits ▸ decode_decodes buf with
  | short | cut => rfl

/-- A whole encoding at the front of the buffer is taken off as its frame. -/
theorem decode_encode (frame : Frame) (fits : frame.data.length ≤ 65535) (more : Bytes) :
    decode (frame.encode ++ more) = (.ok (some frame), more) := by
  have size : (UInt16.ofNat frame.data.length).toNat = frame.data.length :=
    UInt16.toNat_ofNat_of_lt' (Nat.lt_succ_of_le fits)
  have long : ¬(frame.encode ++ more).length < FRAME_HEADER_SIZE := by
    rw [List.length_append, Frame.length_encode]
    omega
  have all : ¬(frame.encode ++ more).length < FRAME_HEADER_SIZE + frame.data.length := by
    rw [List.length_append, Frame.length_encode]
    omega
  have payload : (frame.encode ++ more).drop FRAME_HEADER_SIZE = frame.data ++ more := by
    rw [Frame.encode, List.append_assoc]
    exact List.drop_left' (by simp [FRAME_HEADER_SIZE])
  rw [decode, if_neg long, Frame.decodeHeader_encode frame fits]
  dsimp only
  rw [size, if_neg all, payload, List.take_left' rfl, List.drop_left' rfl]

/-- A proper prefix of an encoding is left in the buffer. -/
theorem decode_prefix (frame : Frame) (fits : frame.data.length ≤ 65535)
    (cut : buf <+: frame.encode) (proper : buf ≠ frame.encode) : decode buf = (.ok none, buf) := by
  obtain ⟨missing, whole⟩ := cut
  -- an answer would be the answer on the encoding, which leaves nothing over
  have encoded : decode (buf ++ missing) = (.ok (some frame), []) := by
    rw [whole]
    simpa using decode_encode frame fits []
  generalize done : decode buf = result
  cases done ▸ decode_decodes buf with
  | short | cut => rfl
  | unknown =>
      have same := decode_append buf missing (by rw [done]; exact nofun)
      rw [encoded, done] at same
      cases same
  | whole =>
      have same := decode_append buf missing (by rw [done]; exact nofun)
      rw [encoded, done] at same
      have nothing : missing = [] := (List.append_eq_nil_iff.mp (Prod.ext_iff.mp same).2.symm).2
      rw [nothing, List.append_nil] at whole
      exact absurd whole proper

end FrameCodec

section Loop

variable {σ : Type} (handleFrame : Frame → σ → IoResult Unit × σ) (isClosed : σ → Bool)

/-- The inner loop: every frame that is whole in the buffer is handled. -/
def handleFrames (buffer : Bytes) (s : σ) : IoResult Unit × Bytes × σ :=
  match _ : FrameCodec.decode buffer with
  | (.error e, buffer) => (.error e, buffer, s)
  | (.ok none, buffer) => (.ok (), buffer, s)
  | (.ok (some frame), rest) =>
      match handleFrame frame s with
      | (.error e, s) => (.error e, rest, s)
      | (.ok (), s) => handleFrames rest s
termination_by buffer.length
decreasing_by exact FrameCodec.decode_shorter (by assumption)

/-- `recv_loop` on the reads that the connection has answered so far; an empty
one is the end of the stream. The answer is `none` while the loop waits for the
next read. -/
def recvLoop : List (IoResult Bytes) → Bytes → σ → Option (IoResult Unit) × Bytes × σ
  | reads, buffer, s =>
      if isClosed s then (some (.ok ()), buffer, s)
      else
        match handleFrames handleFrame buffer s with
        | (.error e, buffer, s) => (some (.error e), buffer, s)
        | (.ok (), buffer, s) =>
            match reads with
            | [] => (none, buffer, s)
            | .error e :: _ => (some (.error e), buffer, s)
            | .ok bytes :: reads =>
                if bytes.isEmpty then (some (.ok ()), buffer, s)
                else recvLoop reads (buffer ++ bytes) s

variable {handleFrame isClosed} {buffer rest : Bytes} {frame : Frame} {s : σ}

theorem handleFrames_error {e : IoError} (decoded : FrameCodec.decode buffer = (.error e, rest)) :
    handleFrames handleFrame buffer s = (.error e, rest, s) := by
  rw [handleFrames]
  split
  case h_1 same =>
    rw [decoded] at same
    cases same
    rfl
  case h_2 same => simp [decoded] at same
  case h_3 same => simp [decoded] at same

theorem handleFrames_none (decoded : FrameCodec.decode buffer = (.ok none, rest)) :
    handleFrames handleFrame buffer s = (.ok (), rest, s) := by
  rw [handleFrames]
  split
  case h_1 same => simp [decoded] at same
  case h_2 same =>
    rw [decoded] at same
    cases same
    rfl
  case h_3 same => simp [decoded] at same

theorem handleFrames_some (decoded : FrameCodec.decode buffer = (.ok (some frame), rest)) :
    handleFrames handleFrame buffer s =
      match handleFrame frame s with
      | (.error e, s) => (.error e, rest, s)
      | (.ok (), s) => handleFrames handleFrame rest s := by
  rw [handleFrames]
  split
  case h_1 same => simp [decoded] at same
  case h_2 same => simp [decoded] at same
  case h_3 same =>
    rw [decoded] at same
    cases same
    rfl

/-- The frames of a longer buffer are those of its front, and then those of what
the front left over. -/
theorem handleFrames_append (buffer more : Bytes) (s : σ) :
    handleFrames handleFrame (buffer ++ more) s =
      match handleFrames handleFrame buffer s with
      | (.error e, rest, s) => (.error e, rest ++ more, s)
      | (.ok (), rest, s) => handleFrames handleFrame (rest ++ more) s := by
  induction buffer, s using handleFrames.induct handleFrame with
  | case1 buffer s e rest decoded =>
      have longer := FrameCodec.decode_append buffer more (by rw [decoded]; exact nofun)
      rw [decoded] at longer
      rw [handleFrames_error decoded, handleFrames_error longer]
  | case2 buffer s rest decoded =>
      rw [handleFrames_none decoded, FrameCodec.decode_waits decoded]
  | case3 buffer s frame rest decoded e s' handled =>
      have longer := FrameCodec.decode_append buffer more (by rw [decoded]; exact nofun)
      rw [decoded] at longer
      rw [handleFrames_some decoded, handleFrames_some longer, handled]
  | case4 buffer s frame rest decoded s' handled ih =>
      have longer := FrameCodec.decode_append buffer more (by rw [decoded]; exact nofun)
      rw [decoded] at longer
      rw [handleFrames_some decoded, handleFrames_some longer, handled]
      exact ih

/-! ### The frames that are handed over -/

/-- The handler with the frames it was handed. -/
def handing (handleFrame : Frame → σ → IoResult Unit × σ) (frame : Frame) (s : σ × List Frame) :
    IoResult Unit × σ × List Frame :=
  ((handleFrame frame s.1).1, (handleFrame frame s.1).2, s.2 ++ [frame])

/-- `recv_loop` with the frames it hands over, after those in the log. -/
def handedOver (handleFrame : Frame → σ → IoResult Unit × σ) (isClosed : σ → Bool)
    (reads : List (IoResult Bytes)) (buffer : Bytes) (s : σ) (log : List Frame) :
    Option (IoResult Unit) × Bytes × σ × List Frame :=
  recvLoop (handing handleFrame) (fun s => isClosed s.1) reads buffer (s, log)

/-- The handler answers `Ok` to each of the frames and goes from one state to another. -/
inductive Handled (handleFrame : Frame → σ → IoResult Unit × σ) : List Frame → σ → σ → Prop
  | nil {s : σ} : Handled handleFrame [] s s
  | cons {frame : Frame} {frames : List Frame} {s s' t : σ} :
      handleFrame frame s = (.ok (), s') → Handled handleFrame frames s' t →
      Handled handleFrame (frame :: frames) s t

/-- The session is open, and open after each of the frames that the handler
answers `Ok` to. -/
def StaysOpen (handleFrame : Frame → σ → IoResult Unit × σ) (isClosed : σ → Bool) :
    List Frame → σ → Prop
  | [], s => isClosed s = false
  | frame :: frames, s => isClosed s = false ∧
      ((handleFrame frame s).1 = .ok () →
        StaysOpen handleFrame isClosed frames (handleFrame frame s).2)

theorem staysOpen_always (opened : ∀ s, isClosed s = false) (frames : List Frame) (s : σ) :
    StaysOpen handleFrame isClosed frames s := by
  induction frames generalizing s with
  | nil => exact opened s
  | cons frame frames ih => exact ⟨opened s, fun _ => ih (handleFrame frame s).2⟩

theorem StaysOpen.opened {frames : List Frame} (h : StaysOpen handleFrame isClosed frames s) :
    isClosed s = false := by
  cases frames with
  | nil => exact h
  | cons => exact h.1

/-- What follows frames that were answered with `Ok`. -/
theorem StaysOpen.after {frames more : List Frame} {s' : σ}
    (h : StaysOpen handleFrame isClosed (frames ++ more) s)
    (handled : Handled handleFrame frames s s') : StaysOpen handleFrame isClosed more s' := by
  induction handled with
  | nil => exact h
  | cons ok _ ih =>
      apply ih
      have goesOn := h.2
      rw [ok] at goesOn
      exact goesOn rfl

theorem StaysOpen.of_isPrefix {frames frames' : List Frame}
    (h : StaysOpen handleFrame isClosed frames' s) (front : frames <+: frames') :
    StaysOpen handleFrame isClosed frames s := by
  induction frames generalizing frames' s with
  | nil => exact h.opened
  | cons frame frames ih =>
      obtain ⟨more, rfl⟩ := front
      exact ⟨h.1, fun ok => ih (h.2 ok) (List.prefix_append _ _)⟩

variable {s' : σ} {log log' : List Frame}

/-- The inner loop hands over some frames, which were answered with `Ok` if it
was. -/
theorem handleFrames_handing (handleFrame : Frame → σ → IoResult Unit × σ) (buffer : Bytes) (s : σ)
    (log : List Frame) :
    ∃ frames answer rest s',
      handleFrames (handing handleFrame) buffer (s, log) = (answer, rest, s', log ++ frames) ∧
      (answer = .ok () → Handled handleFrame frames s s') := by
  generalize start : (s, log) = state
  induction buffer, state using handleFrames.induct (handing handleFrame) generalizing s log with
  | case1 buffer state e rest decoded =>
      subst start
      refine ⟨[], .error e, rest, s, ?_, fun ok => ?_⟩
      · rw [handleFrames_error decoded, List.append_nil]
      · cases ok
  | case2 buffer state rest decoded =>
      subst start
      refine ⟨[], .ok (), rest, s, ?_, fun _ => .nil⟩
      rw [handleFrames_none decoded, List.append_nil]
  | case3 buffer state frame rest decoded e after failed =>
      subst start
      obtain ⟨s', log'⟩ := after
      have logged : log ++ [frame] = log' := congrArg (·.2.2) failed
      refine ⟨[frame], .error e, rest, s', ?_, fun ok => ?_⟩
      · rw [handleFrames_some decoded, failed, logged]
      · cases ok
  | case4 buffer state frame rest decoded after handled ih =>
      subst start
      obtain ⟨s', log'⟩ := after
      have logged : log ++ [frame] = log' := congrArg (·.2.2) handled
      have ok : handleFrame frame s = (.ok (), s') :=
        Prod.ext (congrArg (·.1) handled) (congrArg (·.2.1) handled)
      obtain ⟨frames, answer, left_, t, ran, onward⟩ := ih s' log' rfl
      refine ⟨frame :: frames, answer, left_, t, ?_, fun fine => .cons ok (onward fine)⟩
      rw [handleFrames_some decoded, handled]
      dsimp only
      rw [ran, ← logged, List.append_assoc, List.singleton_append]

/-! ### One round of the loop -/

theorem handedOver_closed (closed : isClosed s = true) (reads : List (IoResult Bytes))
    (buffer : Bytes) (log : List Frame) :
    handedOver handleFrame isClosed reads buffer s log = (some (.ok ()), buffer, s, log) := by
  rw [handedOver, recvLoop.eq_def]
  simp only [closed, if_true]

theorem handedOver_failed (opened : isClosed s = false) {e : IoError}
    (failed : handleFrames (handing handleFrame) buffer (s, log) = (.error e, rest, s', log'))
    (reads : List (IoResult Bytes)) (more : Bytes) :
    handedOver handleFrame isClosed reads (buffer ++ more) s log =
      (some (.error e), rest ++ more, s', log') := by
  have longer : handleFrames (handing handleFrame) (buffer ++ more) (s, log) = _ :=
    handleFrames_append buffer more (s, log)
  rw [failed] at longer
  rw [handedOver, recvLoop.eq_def]
  simp only [opened, Bool.false_eq_true, if_false, longer]

/-- The loop on a read, after a round that handled what was whole. -/
theorem handedOver_read (opened : isClosed s = false)
    (handled : handleFrames (handing handleFrame) buffer (s, log) = (.ok (), rest, s', log'))
    {chunk : Bytes} (filled : chunk ≠ []) (reads : List (IoResult Bytes)) :
    handedOver handleFrame isClosed (.ok chunk :: reads) buffer s log =
      handedOver handleFrame isClosed reads (rest ++ chunk) s' log' := by
  have some_ : chunk.isEmpty = false := by simpa using filled
  rw [handedOver, recvLoop]
  simp only [opened, Bool.false_eq_true, if_false, handled, some_]
  rfl

/-- A round on the front of the buffer, in a session that is open before and
after it. -/
theorem handedOver_front (opened : isClosed s = false)
    (handled : handleFrames (handing handleFrame) buffer (s, log) = (.ok (), rest, s', log'))
    (after : isClosed s' = false) (reads : List (IoResult Bytes)) (more : Bytes) :
    handedOver handleFrame isClosed reads (buffer ++ more) s log =
      handedOver handleFrame isClosed reads (rest ++ more) s' log' := by
  have longer : handleFrames (handing handleFrame) (buffer ++ more) (s, log) = _ :=
    handleFrames_append buffer more (s, log)
  rw [handled] at longer
  rw [handedOver, handedOver, recvLoop.eq_def, recvLoop.eq_def]
  simp only [opened, after, Bool.false_eq_true, if_false, longer]

/-- The frames of a round stay handed over, whatever the loop does after it. -/
theorem isPrefix_of_round {reads : List (IoResult Bytes)} {answer : IoResult Unit}
    (opened : isClosed s = false)
    (ran : handleFrames (handing handleFrame) buffer (s, log) = (answer, rest, s', log'))
    (later : ∀ bytes reads', reads = .ok bytes :: reads' → ∀ (buffer : Bytes) (s : σ) (log),
      log <+: (handedOver handleFrame isClosed reads' buffer s log).2.2.2) :
    log' <+: (handedOver handleFrame isClosed reads buffer s log).2.2.2 := by
  rw [handedOver, recvLoop.eq_def]
  simp only [opened, Bool.false_eq_true, if_false, ran]
  cases answer with
  | error e => exact List.prefix_rfl
  | ok =>
      cases reads with
      | nil => exact List.prefix_rfl
      | cons read reads =>
          cases read with
          | error e => exact List.prefix_rfl
          | ok bytes =>
              dsimp only
              split
              · exact List.prefix_rfl
              · exact later bytes reads rfl (rest ++ bytes) s' log'

/-- The loop only adds to the frames that were handed over. -/
theorem isPrefix_handedOver (handleFrame : Frame → σ → IoResult Unit × σ) (isClosed : σ → Bool)
    (reads : List (IoResult Bytes)) (buffer : Bytes) (s : σ) (log : List Frame) :
    log <+: (handedOver handleFrame isClosed reads buffer s log).2.2.2 := by
  have round : ∀ (reads : List (IoResult Bytes)) (buffer : Bytes) (s : σ) (log : List Frame),
      (∀ bytes reads', reads = .ok bytes :: reads' → ∀ (buffer : Bytes) (s : σ) (log),
        log <+: (handedOver handleFrame isClosed reads' buffer s log).2.2.2) →
      log <+: (handedOver handleFrame isClosed reads buffer s log).2.2.2 := by
    intro reads buffer s log later
    cases closed : isClosed s with
    | true =>
        rewrite [handedOver_closed closed]
        exact List.prefix_rfl
    | false =>
        obtain ⟨frames, answer, rest, s', ran, -⟩ := handleFrames_handing handleFrame buffer s log
        exact (List.prefix_append log frames).trans (isPrefix_of_round closed ran later)
  induction reads generalizing buffer s log with
  | nil =>
      refine round [] buffer s log fun bytes reads' more => ?_
      cases more
  | cons read reads ih =>
      refine round (read :: reads) buffer s log fun bytes reads' more => ?_
      cases more
      exact ih

/-! ### A stretch of the stream in pieces -/

/-- A stretch of the stream in pieces gives no frame that it does not give in one
piece. -/
theorem isPrefix_pieces (handleFrame : Frame → σ → IoResult Unit × σ) (isClosed : σ → Bool)
    {chunks : List Bytes} (some_ : ∀ chunk ∈ chunks, chunk ≠ []) (reads : List (IoResult Bytes))
    (buffer : Bytes) (s : σ) (log : List Frame) :
    (handedOver handleFrame isClosed (chunks.map .ok ++ reads) buffer s log).2.2.2 <+:
      (handedOver handleFrame isClosed reads (buffer ++ chunks.flatten) s log).2.2.2 := by
  induction chunks generalizing buffer s log with
  | nil => simp
  | cons chunk chunks ih =>
      obtain ⟨filled, later⟩ := List.forall_mem_cons.mp some_
      cases opened : isClosed s with
      | true =>
          rewrite [handedOver_closed opened, handedOver_closed opened]
          exact List.prefix_rfl
      | false =>
          obtain ⟨frames, answer, rest, s', ran, -⟩ := handleFrames_handing handleFrame buffer s log
          cases answer with
          | error e =>
              have piece := handedOver_failed opened ran ((chunk :: chunks).map .ok ++ reads) []
              rw [List.append_nil] at piece
              rewrite [piece, handedOver_failed opened ran]
              exact List.prefix_rfl
          | ok =>
              rw [List.map_cons, List.cons_append, handedOver_read opened ran filled]
              cases after : isClosed s' with
              | true =>
                  -- the pieces stop here, and the whole goes on from these frames
                  have onward : handleFrames (handing handleFrame)
                      (buffer ++ (chunk :: chunks).flatten) (s, log) = _ :=
                    handleFrames_append buffer (chunk :: chunks).flatten (s, log)
                  rw [ran] at onward
                  obtain ⟨more, answer, left_, t, again, -⟩ := handleFrames_handing handleFrame
                    (rest ++ (chunk :: chunks).flatten) s' (log ++ frames)
                  rw [handedOver_closed after]
                  exact (List.prefix_append _ more).trans (isPrefix_of_round opened
                    (onward.trans again) fun _ reads' _ => isPrefix_handedOver _ _ reads')
              | false =>
                  rw [handedOver_front opened ran after, List.flatten_cons, ← List.append_assoc]
                  exact ih later (rest ++ chunk) s' (log ++ frames)

/-- As long as the session stays open over the frames that the pieces give, the
whole gives the same: the answer and the handler's state are the same, and so is
the buffer unless the loop has failed. -/
theorem handedOver_pieces {chunks : List Bytes} (some_ : ∀ chunk ∈ chunks, chunk ≠ [])
    (reads : List (IoResult Bytes)) (buffer : Bytes) {frames : List Frame}
    (given : (handedOver handleFrame isClosed (chunks.map .ok ++ reads) buffer s log).2.2.2 =
      log ++ frames)
    (open_ : StaysOpen handleFrame isClosed frames s) :
    let pieces := handedOver handleFrame isClosed (chunks.map .ok ++ reads) buffer s log
    let whole := handedOver handleFrame isClosed reads (buffer ++ chunks.flatten) s log
    pieces.1 = whole.1 ∧ pieces.2.2 = whole.2.2 ∧
      ((∀ e, pieces.1 ≠ some (.error e)) → pieces.2.1 = whole.2.1) := by
  induction chunks generalizing buffer s log frames with
  | nil => simp
  | cons chunk chunks ih =>
      obtain ⟨filled, later⟩ := List.forall_mem_cons.mp some_
      have opened := open_.opened
      obtain ⟨first, answer, rest, s', ran, handled⟩ :=
        handleFrames_handing handleFrame buffer s log
      cases answer with
      | error e =>
          have piece := handedOver_failed opened ran ((chunk :: chunks).map .ok ++ reads) []
          rw [List.append_nil] at piece
          rw [piece, handedOver_failed opened ran]
          exact ⟨rfl, rfl, fun fine => absurd rfl (fine e)⟩
      | ok =>
          rw [List.map_cons, List.cons_append, handedOver_read opened ran filled] at given ⊢
          -- the first round's frames come first, so the session is open after them
          obtain ⟨more, split⟩ := isPrefix_handedOver handleFrame isClosed (chunks.map .ok ++ reads)
            (rest ++ chunk) s' (log ++ first)
          have all : frames = first ++ more := by
            rw [given, List.append_assoc] at split
            exact (List.append_cancel_left split).symm
          subst all
          have after := open_.after (handled rfl)
          rw [handedOver_front opened ran after.opened, List.flatten_cons, ← List.append_assoc]
          exact ih later (rest ++ chunk) split.symm after

/-! ### Encodings -/

theorem Handled.of_ok (ok : ∀ frame s, handleFrame frame s = (.ok (), s)) (frames : List Frame)
    (s : σ) : Handled handleFrame frames s s := by
  induction frames with
  | nil => exact .nil
  | cons frame frames ih => exact .cons (ok frame s) ih

/-- Whole encodings are handed over one by one, and what follows them is left. -/
theorem handleFrames_encoded {frames : List Frame} (handled : Handled handleFrame frames s s')
    (fits : ∀ frame ∈ frames, frame.data.length ≤ 65535) {tail : Bytes}
    (cut : FrameCodec.decode tail = (.ok none, tail)) (log : List Frame) :
    handleFrames (handing handleFrame) ((frames.map Frame.encode).flatten ++ tail) (s, log) =
      (.ok (), tail, s', log ++ frames) := by
  induction handled generalizing log with
  | nil => simpa using handleFrames_none cut
  | @cons frame frames s s' t ok _ ih =>
      obtain ⟨fit, later⟩ := List.forall_mem_cons.mp fits
      have decoded := FrameCodec.decode_encode frame fit ((frames.map Frame.encode).flatten ++ tail)
      have onward := ih later (log ++ [frame])
      rw [List.map_cons, List.flatten_cons, List.append_assoc, handleFrames_some decoded]
      simpa [handing, ok] using onward

/-- Of whole encodings some first ones are handed over, whatever the handler answers. -/
theorem isPrefix_encoded {frames : List Frame}
    (fits : ∀ frame ∈ frames, frame.data.length ≤ 65535) {tail : Bytes}
    (cut : FrameCodec.decode tail = (.ok none, tail)) (s : σ) (log : List Frame) :
    (handleFrames (handing handleFrame) ((frames.map Frame.encode).flatten ++ tail)
      (s, log)).2.2.2 <+: log ++ frames := by
  induction frames generalizing s log with
  | nil => simp [handleFrames_none cut]
  | cons frame frames ih =>
      obtain ⟨fit, later⟩ := List.forall_mem_cons.mp fits
      have decoded := FrameCodec.decode_encode frame fit ((frames.map Frame.encode).flatten ++ tail)
      rw [List.map_cons, List.flatten_cons, List.append_assoc, handleFrames_some decoded, handing]
      cases (handleFrame frame s).1 with
      | error e => exact ⟨frames, by simp⟩
      | ok => simpa using ih later (handleFrame frame s).2 (log ++ [frame])

/-- The loop on a stretch of the stream in one piece, with nothing to read after it. -/
theorem handedOver_nil (handleFrame : Frame → σ → IoResult Unit × σ) (opened : isClosed s = false)
    (buffer : Bytes) (log : List Frame) :
    (handedOver handleFrame isClosed [] buffer s log).2 =
        (handleFrames (handing handleFrame) buffer (s, log)).2 ∧
      ((handleFrames (handing handleFrame) buffer (s, log)).1 = .ok () →
        (handedOver handleFrame isClosed [] buffer s log).1 = none) := by
  rw [handedOver, recvLoop]
  simp only [opened, Bool.false_eq_true, if_false]
  obtain ⟨answer, rest, state⟩ := handleFrames (handing handleFrame) buffer (s, log)
  cases answer with
  | error e => exact ⟨rfl, fun ok => by cases ok⟩
  | ok => exact ⟨rfl, fun _ => rfl⟩

section Encoded

variable {frames : List Frame} {tail initial : Bytes} {chunks : List Bytes}
  (fits : ∀ frame ∈ frames, frame.data.length ≤ 65535)
  (waits : FrameCodec.decode tail = (.ok none, tail)) (some_ : ∀ chunk ∈ chunks, chunk ≠ [])
  (stream : initial ++ chunks.flatten = (frames.map Frame.encode).flatten ++ tail)

include fits waits some_ stream

theorem isPrefix_handedOver_encoded :
    (handedOver handleFrame isClosed (chunks.map .ok) initial s []).2.2.2 <+: frames := by
  have front := isPrefix_pieces handleFrame isClosed some_ [] initial s []
  rw [List.append_nil, stream] at front
  cases opened : isClosed s with
  | true =>
      rw [handedOver_closed opened]
      exact List.nil_prefix
  | false =>
      rw [(handedOver_nil handleFrame opened _ []).1] at front
      exact front.trans (isPrefix_encoded fits waits s [])

theorem handedOver_encoded (handled : Handled handleFrame frames s s')
    (open_ : StaysOpen handleFrame isClosed frames s) :
    handedOver handleFrame isClosed (chunks.map .ok) initial s [] = (none, tail, s', frames) := by
  have through : (handedOver handleFrame isClosed (chunks.map .ok) initial s []).2.2.2 <+: frames :=
    isPrefix_handedOver_encoded fits waits some_ stream
  obtain ⟨once, waiting⟩ := handedOver_nil handleFrame open_.opened
    ((frames.map Frame.encode).flatten ++ tail) []
  have whole := handleFrames_encoded handled fits waits []
  rw [← List.append_nil (List.map Except.ok chunks)] at through ⊢
  obtain ⟨answer, state, buffer⟩ := handedOver_pieces some_ [] initial
    (List.nil_append _).symm (open_.of_isPrefix through)
  rw [stream, waiting (by rw [whole])] at answer
  rw [stream, once, whole] at state buffer
  refine Prod.ext answer (Prod.ext (buffer fun e => ?_) state)
  rw [answer]
  exact (Option.some_ne_none _).symm

end Encoded

end Loop

end RustProxy.AnyTls
