import RustProxy.AsyncStream

/-!
# A stream as what arrives on it

Bytes arrive in pieces, and between the pieces the reader waits. A read is given
what has arrived, as far as it has room for it, and the rest of the piece stays
for the next one. Every way to cut bytes into reads is such a list.
-/

namespace RustProxy.MessageStream

/-- What a stream has for its reader. The stream ends at the end of the list. -/
inductive Arrival where
  | pending
  | piece (bytes : Bytes)
  | failed (e : IoError)
  deriving DecidableEq

abbrev Arrivals := List Arrival

namespace Arrivals

/-- The bytes that are still to come. -/
def bytes (src : Arrivals) : Bytes :=
  src.flatMap fun
    | .piece bytes => bytes
    | _ => []

/-- `poll_read` into a slice of `room` bytes. -/
def pollRead (room : Nat) : PollOp Arrivals Bytes
  | [] => (.ready (.ok []), [])
  | .pending :: src => (.pending, src)
  | .failed e :: src => (.ready (.error e), src)
  | .piece bytes :: src =>
      if bytes.length ≤ room then (.ready (.ok bytes), src)
      else (.ready (.ok (bytes.take room)), .piece (bytes.drop room) :: src)

/-- The stream that brings them. It takes everything that is written to it. -/
def stream : AsyncStream Arrivals where
  pollRead := pollRead
  pollWrite offered src := (.ready (.ok offered.length), src)
  pollFlush src := (.ready (.ok ()), src)
  pollShutdown src := (.ready (.ok ()), src)
  supportsPing _ := false
  pollWritePing src := (.ready (.ok false), src)
  read_fits room src bytes answered := by
    match src with
    | [] =>
        cases answered
        exact Nat.zero_le _
    | .pending :: src => cases answered
    | .failed e :: src => cases answered
    | .piece piece :: src =>
        rw [pollRead] at answered
        split at answered
        case isTrue fits =>
            cases answered
            exact fits
        case isFalse =>
            cases answered
            exact List.length_take_le _ _
  write_fits offered src n answered := by
    cases answered
    exact Nat.le_refl _

/-- Bytes in pieces that are not empty, with any waiting between them. -/
def Delivers (src : Arrivals) : Prop := ∀ arrival ∈ src, arrival = .pending ∨
  ∃ bytes, bytes ≠ [] ∧ arrival = .piece bytes

/-- What a read of such a stream is. -/
inductive ReadsOn (src : Arrivals) : Poll (IoResult Bytes) → Arrivals → Prop
  | bytes {piece : Bytes} {src' : Arrivals} (some_ : piece ≠ [])
      (split : src.bytes = piece ++ src'.bytes) (shorter : src'.length ≤ src.length)
      (rest : src'.Delivers) :
      ReadsOn src (.ready (.ok piece)) src'
  | end_ (ended : src = []) : ReadsOn src (.ready (.ok [])) []
  | pending {src' : Arrivals} (same : src.bytes = src'.bytes) (shorter : src'.length < src.length)
      (rest : src'.Delivers) : ReadsOn src .pending src'

theorem readsOn {src : Arrivals} (delivers : src.Delivers) {room : Nat} (positive : 0 < room) :
    ReadsOn src (stream.pollRead room src).1 (stream.pollRead room src).2 := by
  match src with
  | [] => exact .end_ rfl
  | arrival :: src =>
      have rest : Delivers src := fun arrival mem => delivers arrival (List.mem_cons_of_mem _ mem)
      rcases delivers arrival List.mem_cons_self with rfl | ⟨bytes, some_, rfl⟩
      · exact .pending rfl (Nat.lt_succ_self _) rest
      · by_cases fits : bytes.length ≤ room
        · have read : stream.pollRead room (.piece bytes :: src) = (.ready (.ok bytes), src) :=
            if_pos fits
          rw [read]
          exact .bytes some_ rfl (Nat.le_succ _) rest
        · have read : stream.pollRead room (.piece bytes :: src) =
              (.ready (.ok (bytes.take room)), .piece (bytes.drop room) :: src) := if_neg fits
          rw [read]
          refine .bytes ?_ ?_ (Nat.le_refl _) ?_
          · rw [ne_eq, List.take_eq_nil_iff, not_or]
            exact ⟨Nat.pos_iff_ne_zero.mp positive, some_⟩
          · show bytes ++ Arrivals.bytes src = bytes.take room ++
              (bytes.drop room ++ Arrivals.bytes src)
            rw [← List.append_assoc, List.take_append_drop]
          · intro arrival mem
            rcases List.mem_cons.mp mem with rfl | mem
            · refine .inr ⟨_, ?_, rfl⟩
              rw [ne_eq, List.drop_eq_nil_iff]
              exact fits
            · exact rest arrival mem

end Arrivals

end RustProxy.MessageStream
