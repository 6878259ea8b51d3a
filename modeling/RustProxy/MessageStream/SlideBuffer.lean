import RustProxy.Base.Slice
import RustProxy.Relay.CopyBidirectional

/-!
# The sliding buffer

`SlideBuffer` of `message_stream.rs`: memory of fixed size, with live bytes
between two indices. Bytes are written behind the live ones and consumed in
front of them, and the live ones are moved to the front only when enough has
been consumed.

`none` is a panic: a slice out of range, an index that would be negative, or an
assertion that fails. `Holds` is what a caller has to know of a buffer, its size,
where the live bytes start and what they are. Every operation is specified by
what it does to these.
-/

namespace RustProxy.MessageStream

open Relay (allocateVec)

structure SlideBuffer where
  data : Bytes
  start : Nat
  end_ : Nat
  deriving DecidableEq

namespace SlideBuffer

def new (memory : Nat → UInt8) (capacity : Nat) : SlideBuffer :=
  ⟨allocateVec memory capacity, 0, 0⟩

def len (b : SlideBuffer) : Option Nat :=
  if b.start ≤ b.end_ then some (b.end_ - b.start) else none

def remainingCapacity (b : SlideBuffer) : Option Nat :=
  if b.end_ ≤ b.data.length then some (b.data.length - b.end_) else none

def asSlice (b : SlideBuffer) : Option Bytes := b.data.slice b.start b.end_

def writeSlice (b : SlideBuffer) : Option Bytes := b.data.slice b.end_ b.data.length

/-- What a reader that was given the write slice has put at its beginning. -/
def filled (b : SlideBuffer) (bytes : Bytes) : SlideBuffer :=
  { b with data := Ring.overwrite b.data b.end_ bytes }

def advanceWrite (b : SlideBuffer) (n : Nat) : Option SlideBuffer :=
  if b.end_ + n ≤ b.data.length then some { b with end_ := b.end_ + n } else none

def consume (b : SlideBuffer) (n : Nat) : Option SlideBuffer := do
  let len ← b.len
  if n ≤ len then
    let start := b.start + n
    if b.end_ ≤ start then some { b with start := 0, end_ := 0 } else some { b with start }
  else none

def maybeCompact (b : SlideBuffer) (threshold : Nat) : Option SlideBuffer :=
  if threshold < b.start then
    if b.start < b.end_ then do
      let moved ← b.data.slice b.start b.end_
      some ⟨Ring.overwrite b.data 0 moved, 0, b.end_ - b.start⟩
    else some { b with start := 0, end_ := 0 }
  else some b

/-! ## What a buffer holds -/

/-- The buffer has `size` bytes of memory, and from `start` on the live ones. -/
structure Holds (b : SlideBuffer) (size start : Nat) (live : Bytes) : Prop where
  allocated : b.data.length = size
  starts : b.start = start
  ends : b.end_ = start + live.length
  inside : start + live.length ≤ size
  bytes : (b.data.drop start).take live.length = live

variable {b : SlideBuffer} {size start : Nat} {live front rest bytes : Bytes}

theorem holds_new (memory : Nat → UInt8) (capacity : Nat) :
    (new memory capacity).Holds capacity 0 [] where
  allocated := by simp [new, allocateVec]
  starts := rfl
  ends := rfl
  inside := Nat.zero_le _
  bytes := rfl

namespace Holds

theorem asSlice (h : b.Holds size start live) : b.asSlice = some live := by
  have order : start ≤ start + live.length := Nat.le_add_right _ _
  rw [SlideBuffer.asSlice, h.starts, h.ends, List.slice_eq order (h.allocated ▸ h.inside),
    Nat.add_sub_cancel_left, h.bytes]

theorem remainingCapacity (h : b.Holds size start live) :
    b.remainingCapacity = some (size - (start + live.length)) := by
  rw [SlideBuffer.remainingCapacity, h.ends, h.allocated, if_pos h.inside]

theorem writeSlice (h : b.Holds size start live) :
    ∃ room, b.writeSlice = some room ∧ room.length = size - (start + live.length) := by
  refine ⟨b.data.drop b.end_, ?_, ?_⟩
  · rw [SlideBuffer.writeSlice, List.slice_length (by rw [h.ends, h.allocated]; exact h.inside)]
  · rw [List.length_drop, h.allocated, h.ends]

/-- Reading into the write slice appends to the live bytes. -/
theorem advanceWrite (h : b.Holds size start live)
    (fits : bytes.length ≤ size - (start + live.length)) :
    ∃ b', (b.filled bytes).advanceWrite bytes.length = some b' ∧
      b'.Holds size start (live ++ bytes) := by
  have inside := h.inside
  have length : (Ring.overwrite b.data (start + live.length) bytes).length = size := by
    rw [Ring.length_overwrite (by rw [h.allocated]; omega), h.allocated]
  refine ⟨{ b.filled bytes with end_ := b.end_ + bytes.length }, ?_, ?_⟩
  · rw [SlideBuffer.advanceWrite, filled, h.ends, length, if_pos (by omega)]
  · refine ⟨?_, h.starts, ?_, ?_, ?_⟩
    · rw [filled, h.ends]
      exact length
    · rw [List.length_append, ← Nat.add_assoc, ← h.ends]
    · rw [List.length_append]
      omega
    · have kept : (b.data.take (start + live.length)).drop start = live := by
        rw [List.drop_take, Nat.add_sub_cancel_left, h.bytes]
      dsimp only [filled]
      rw [h.ends, List.length_append, List.take_drop, ← Nat.add_assoc,
        Ring.take_overwrite (by rw [h.allocated]; exact inside),
        List.drop_append_of_le_length (by rw [List.length_take, h.allocated]; omega), kept]

/-- Consuming the first live bytes leaves the others. An empty buffer starts
over at the front. -/
theorem consume (h : b.Holds size start (front ++ rest)) :
    ∃ b', b.consume front.length = some b' ∧
      b'.Holds size (if rest = [] then 0 else start + front.length) rest := by
  have inside := h.inside
  have ends := h.ends
  have starts := h.starts
  rw [List.length_append] at inside ends
  have len : b.len = some (front.length + rest.length) := by
    rw [SlideBuffer.len, if_pos (by omega)]
    exact congrArg some (by omega)
  rw [SlideBuffer.consume, len]
  dsimp only [Option.bind_eq_bind, Option.bind_some]
  rw [if_pos (Nat.le_add_right _ _)]
  by_cases empty : rest = []
  · subst empty
    rw [if_pos (by simpa [starts] using ends.le), if_pos rfl]
    exact ⟨_, rfl, h.allocated, rfl, rfl, Nat.zero_le _, rfl⟩
  · have some_ := List.length_pos_iff.mpr empty
    rw [if_neg (by omega), if_neg empty]
    refine ⟨_, rfl, h.allocated, by rw [← starts], ?_, by omega, ?_⟩
    · rw [Nat.add_assoc]
      exact ends
    · have live := congrArg (List.drop front.length) h.bytes
      rw [List.drop_left, List.drop_take, List.drop_drop, List.length_append,
        Nat.add_sub_cancel_left] at live
      exact live

/-- The live bytes stay what they are. They are moved only when they start
behind the threshold. -/
theorem maybeCompact (h : b.Holds size start live) (threshold : Nat) :
    ∃ b', b.maybeCompact threshold = some b' ∧
      b'.Holds size (if threshold < start then 0 else start) live := by
  have inside := h.inside
  have ends := h.ends
  have starts := h.starts
  rw [SlideBuffer.maybeCompact, starts]
  by_cases behind : threshold < start
  · rw [if_pos behind, if_pos behind]
    by_cases some_ : start < b.end_
    · have slice : b.data.slice start b.end_ = some live := by
        rw [← starts]
        exact h.asSlice
      rw [if_pos some_, slice]
      refine ⟨_, rfl, ?_, rfl, ?_, by omega, ?_⟩
      · rw [Ring.length_overwrite (by rw [h.allocated]; omega), h.allocated]
      · show b.end_ - start = 0 + live.length
        omega
      · have moved :
          (Ring.overwrite b.data 0 live).take (0 + live.length) = b.data.take 0 ++ live :=
          Ring.take_overwrite (Nat.zero_le _)
        rw [Nat.zero_add] at moved
        rw [List.drop_zero, moved]
        rfl
    · have empty : live = [] := List.length_eq_zero_iff.mp (by omega)
      rw [if_neg some_]
      subst empty
      exact ⟨_, rfl, h.allocated, rfl, rfl, Nat.zero_le _, rfl⟩
  · rw [if_neg behind, if_neg behind]
    exact ⟨b, rfl, h⟩

end Holds

end SlideBuffer

end RustProxy.MessageStream
