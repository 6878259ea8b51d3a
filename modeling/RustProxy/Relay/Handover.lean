import RustProxy.Base.Fallible
import RustProxy.Relay.Lossless

/-!
# Handing a stream over to the relay

A stream whose first bytes have been read by somebody else is handed to the
relay in two parts: what was read and not used is written to the other stream
at once, the rest the relay reads for itself. When the two parts are the stream,
the other side gets the stream, whatever the boundary between them.

The bytes written ahead go through a `Sink`, which accepts them piecemeal. The
relay is any relay, at any moment; what it has read so far is what its calls
show.
-/

namespace RustProxy.Relay

/-- A stream that is written to and awaited. A write that succeeds accepts a
part of what it is offered, and something unless it is offered nothing; a write
that fails accepts nothing. -/
structure Sink (ω : Type) where
  write : Bytes → Fallible ω IoError Nat
  flush : Fallible ω IoError Unit
  accepted : ω → Bytes
  write_ok : ∀ offered w n w', write offered w = (.ok n, w') →
    (offered ≠ [] → 0 < n) ∧ n ≤ offered.length ∧ accepted w' = accepted w ++ offered.take n
  write_error : ∀ offered w e w', write offered w = (.error e, w') → accepted w' = accepted w
  flush_accepted : ∀ w, accepted (flush w).2 = accepted w

variable {ω : Type}

/-- The loop that writes `buf` from `i` on, for a number of turns. `fail` is what
becomes of an error. -/
def writeFrom (sink : Sink ω) (fail : IoError → IoError) (buf : Bytes) :
    Nat → Nat → Fallible ω IoError Unit
  | 0, _ => pure ()
  | turns + 1, i => fun w =>
      if i < buf.length then
        match sink.write (buf.drop i) w with
        | (.ok count, w) => writeFrom sink fail buf turns (i + count) w
        | (.error e, w) => (.error (fail e), w)
      else (.ok (), w)

/-- Write all of `buf`. Every turn writes a byte at least, so as many turns as
there are bytes are as good as no bound. -/
def writeAll (sink : Sink ω) (fail : IoError → IoError) (buf : Bytes) : Fallible ω IoError Unit :=
  writeFrom sink fail buf buf.length 0

variable {sink : Sink ω} {fail : IoError → IoError} {buf before : Bytes} {w : ω}

theorem writeFrom_more (turns : Nat) {i : Nat} (more : i < buf.length) :
    writeFrom sink fail buf (turns + 1) i w =
      match sink.write (buf.drop i) w with
      | (.ok count, w) => writeFrom sink fail buf turns (i + count) w
      | (.error e, w) => (.error (fail e), w) := by
  show (if i < buf.length then _ else _) = _
  rw [if_pos more]

theorem writeFrom_done (turns : Nat) {i : Nat} (all : buf.length ≤ i) :
    writeFrom sink fail buf (turns + 1) i w = (.ok (), w) := by
  show (if i < buf.length then _ else _) = _
  rw [if_neg (by omega)]

/-- The loop ends with everything written, or with an error of the sink. -/
theorem writeFrom_ends (turns i : Nat) (few : buf.length ≤ i + turns) (inside : i ≤ buf.length)
    (written : sink.accepted w = before ++ buf.take i) :
    (∃ w', writeFrom sink fail buf turns i w = (.ok (), w') ∧
      sink.accepted w' = before ++ buf) ∨
    ∃ e offered w₀ w', sink.write offered w₀ = (.error e, w') ∧
      writeFrom sink fail buf turns i w = (.error (fail e), w') ∧
      sink.accepted w' <+: before ++ buf := by
  induction turns generalizing i w with
  | zero =>
      refine .inl ⟨w, rfl, ?_⟩
      rw [written, List.take_of_length_le (by omega)]
  | succ turns ih =>
      by_cases more : i < buf.length
      swap
      · refine .inl ⟨w, writeFrom_done turns (by omega), ?_⟩
        rw [written, List.take_of_length_le (by omega)]
      rw [writeFrom_more turns more]
      cases answer : sink.write (buf.drop i) w with
      | mk result w' =>
          cases result with
          | ok count =>
              obtain ⟨positive, fits, accepts⟩ := sink.write_ok _ _ _ _ answer
              have some_ : buf.drop i ≠ [] := by
                rw [Ne, List.drop_eq_nil_iff]
                omega
              have positive := positive some_
              rw [List.length_drop] at fits
              refine ih (i + count) (by omega) (by omega) ?_
              rw [accepts, written, List.append_assoc, List.take_add]
          | error e =>
              refine .inr ⟨e, _, _, w', answer, rfl, ?_⟩
              rw [sink.write_error _ _ _ _ answer, written]
              exact List.prefix_append_right_inj before |>.mpr (List.take_prefix i buf)

theorem writeAll_ends (sink : Sink ω) (fail : IoError → IoError) (buf : Bytes) (w : ω) :
    (∃ w', writeAll sink fail buf w = (.ok (), w') ∧
      sink.accepted w' = sink.accepted w ++ buf) ∨
    ∃ e offered w₀ w', sink.write offered w₀ = (.error e, w') ∧
      writeAll sink fail buf w = (.error (fail e), w') ∧
      sink.accepted w' <+: sink.accepted w ++ buf :=
  writeFrom_ends buf.length 0 (by omega) (Nat.zero_le _) (by simp)

/-- A sink that takes one byte at a time. -/
def byteSink : Sink Bytes where
  write offered w := (.ok (offered.take 1).length, w ++ offered.take 1)
  flush w := (.ok (), w)
  accepted w := w
  write_ok offered w n w' answered := by
    obtain ⟨count, rfl⟩ := Prod.mk.inj answered
    obtain rfl := Except.ok.inj count
    cases offered <;> simp
  write_error offered w e w' answered := by
    cases (Prod.mk.inj answered).1
  flush_accepted w := rfl

example : writeAll byteSink id [1, 2, 3] [] = (.ok (), [1, 2, 3]) := rfl

/-! ## The relay takes over -/

/-- What a direction reads from a stream that has `rest` left: its bytes in
order, and the end of the input only after the last of them. -/
structure ReadsOff (rest : Bytes) (calls : List IoEvent) : Prop where
  order : produced calls <+: rest
  eof : EofSeen calls → produced calls = rest

/-- With `written` ahead of the relay, the writer has got `stream` as far as it
has come, and all of it once the direction is done with copying. -/
structure PassesOn (stream written : Bytes) (t : Transfer) (calls : List IoEvent) : Prop where
  order : written ++ accepted calls ++ t.buf.contents <+: stream
  complete : t.state ≠ .running → written ++ accepted calls = stream

variable {stream written rest : Bytes} {t : Transfer} {calls : List IoEvent}

theorem Lossless.passesOn (h : Lossless t calls) (reads : ReadsOff rest calls)
    (whole : written ++ rest = stream) : PassesOn stream written t calls := by
  constructor
  · rw [List.append_assoc, h.fifo, ← whole]
    exact (List.prefix_append_right_inj written).mpr reads.order
  · intro past
    obtain ⟨eof, complete, -⟩ := h.copied past
    rw [complete, reads.eof eof, whole]

namespace CopyBidirectional

/-- A relay from a client, which has `rest` left, to a server that has got
`written`: however it is polled it does not panic, and the server gets `stream`. -/
def HandsOver (stream written rest : Bytes) (aNeedInitialFlush bNeedInitialFlush : Bool)
    (aToBBufSize bToABufSize : Nat) : Prop :=
  ∀ (ω : Type) (cx : Context ω) (a b : AsyncStream ω) (memory : Side → Nat → UInt8) (world : ω)
    (turns : List (Turn ω)),
    let after := pollAll cx.recorded (a.recorded .a) (b.recorded .b) (turns.map Turn.recorded)
      (copyBidirectionalWithSizes memory a b world aNeedInitialFlush bNeedInitialFlush aToBBufSize
        bToABufSize, Recorded.start world)
    after.1 ≠ .panicked ∧ (ReadsOff rest (view .a after.2.2.calls) →
      PassesOn stream written (after.2.1.transfer .a) (view .a after.2.2.calls))

theorem handsOver (whole : written ++ rest = stream) (aNeedInitialFlush bNeedInitialFlush : Bool)
    {aToBBufSize bToABufSize : Nat} (aToB : 0 < aToBBufSize) (bToA : 0 < bToABufSize) :
    HandsOver stream written rest aNeedInitialFlush bNeedInitialFlush aToBBufSize bToABufSize := by
  intro ω cx a b memory world turns
  have start : Accounts (copyBidirectionalWithSizes memory a b world aNeedInitialFlush
      bNeedInitialFlush aToBBufSize bToABufSize, Recorded.start world) := accounts_start aToB bToA
  obtain ⟨fine, accounts⟩ := (start.pollAll cx a b turns).always
  exact ⟨fine, fun reads => (accounts .a).toLossless.passesOn reads whole⟩

end CopyBidirectional

end RustProxy.Relay
