import RustProxy.Base.BigEndian

/-!
# Messages with their length in front

A message is encoded as its length, in a fixed number of big-endian bytes, and
its bytes. Encodings are told apart from what follows them, so a byte string has
at most one decomposition into messages and an incomplete rest.
-/

namespace Prefixed

open BigEndian

/-- The length in `w` bytes, and the message. -/
def encode (w : Nat) (m : List UInt8) : List UInt8 := toBe w m.length ++ m

def encodeAll (w : Nat) (ms : List (List UInt8)) : List UInt8 := ms.flatMap (encode w)

/-- Messages whose length can be written. -/
def Fits (w : Nat) (m : List UInt8) : Prop := m.length < 256 ^ w

/-- Bytes that do not begin with a whole message. -/
def Incomplete (w : Nat) (bytes : List UInt8) : Prop :=
  bytes.length < w ∨ bytes.length < w + ofBe (bytes.take w)

/-- Bytes that end strictly inside a message. -/
def CutsMessage (w : Nat) (bytes : List UInt8) : Prop :=
  ∃ ms m part, (∀ m ∈ ms, Fits w m) ∧ Fits w m ∧ bytes = encodeAll w ms ++ part ∧ part ≠ [] ∧
    part <+: encode w m ∧ part ≠ encode w m

variable {w : Nat} {m m' bytes rest rest' part : List UInt8} {ms ms' : List (List UInt8)}

@[simp, grind =] theorem length_encode : (encode w m).length = w + m.length := by
  rw [encode, List.length_append, length_toBe]

@[simp, grind =] theorem encodeAll_cons :
    encodeAll w (m :: ms) = encode w m ++ encodeAll w ms := rfl

@[simp, grind =] theorem encodeAll_concat :
    encodeAll w (ms ++ [m]) = encodeAll w ms ++ encode w m := by
  rw [encodeAll, List.flatMap_append, List.flatMap_singleton]
  rfl

/-- The length in front of a message is the one that was written. -/
theorem ofBe_take_encode (fits : Fits w m) (rest : List UInt8) :
    ofBe ((encode w m ++ rest).take w) = m.length := by
  rw [encode, List.append_assoc, List.take_left' (length_toBe w _), ofBe_toBe_of_lt fits]

theorem not_incomplete_encode (fits : Fits w m) : ¬Incomplete w (encode w m ++ rest) := by
  rw [Incomplete, ofBe_take_encode fits, List.length_append, length_encode]
  omega

/-- A message of the length that is written in some bytes. -/
theorem encode_of_length (front : bytes.length = w) (length : m.length = ofBe bytes) :
    encode w m = bytes ++ m ∧ Fits w m := by
  have small := ofBe_lt bytes
  have written := toBe_ofBe bytes
  rw [front] at small written
  rw [encode, Fits, length, written]
  exact ⟨rfl, small⟩

/-- Bytes that are not incomplete begin with the message of the length in front. -/
theorem exists_encode (complete : ¬Incomplete w bytes) :
    ∃ m rest, bytes = encode w m ++ rest ∧ m.length = ofBe (bytes.take w) ∧ Fits w m := by
  rw [Incomplete, not_or, Nat.not_lt, Nat.not_lt] at complete
  have length : ((bytes.drop w).take (ofBe (bytes.take w))).length = ofBe (bytes.take w) := by
    rw [List.length_take, List.length_drop]
    omega
  obtain ⟨encoded, fits⟩ := encode_of_length (List.length_take_of_le complete.1) length
  refine ⟨_, bytes.drop (w + ofBe (bytes.take w)), ?_, length, fits⟩
  rw [encoded, List.append_assoc, ← List.drop_drop, List.take_append_drop, List.take_append_drop]

theorem encode_unique (fits : Fits w m) (fits' : Fits w m')
    (same : encode w m ++ rest = encode w m' ++ rest') : m = m' ∧ rest = rest' := by
  have length : m.length = m'.length := by
    rw [← ofBe_take_encode fits rest, same, ofBe_take_encode fits']
  obtain ⟨encoded, behind⟩ := List.append_inj same (by rw [length_encode, length_encode, length])
  rw [encode, encode, length] at encoded
  exact ⟨List.append_cancel_left encoded, behind⟩

/-- The decomposition into messages and an incomplete rest is unique. -/
theorem encodeAll_unique (fits : ∀ m ∈ ms, Fits w m) (fits' : ∀ m ∈ ms', Fits w m)
    (ends : Incomplete w rest) (ends' : Incomplete w rest')
    (same : encodeAll w ms ++ rest = encodeAll w ms' ++ rest') : ms = ms' ∧ rest = rest' := by
  induction ms generalizing ms' with
  | nil =>
      cases ms' with
      | nil => exact ⟨rfl, same⟩
      | cons m' ms' =>
          rw [encodeAll_cons, List.append_assoc] at same
          obtain rfl : rest = _ := same
          exact absurd ends (not_incomplete_encode (fits' m' List.mem_cons_self))
  | cons m ms ih =>
      rw [encodeAll_cons, List.append_assoc] at same
      cases ms' with
      | nil =>
          obtain rfl : _ = rest' := same
          exact absurd ends' (not_incomplete_encode (fits m List.mem_cons_self))
      | cons m' ms' =>
          rw [encodeAll_cons, List.append_assoc] at same
          obtain ⟨rfl, behind⟩ :=
            encode_unique (fits m List.mem_cons_self) (fits' m' List.mem_cons_self) same
          obtain ⟨rfl, rfl⟩ := ih (fun m mem => fits m (List.mem_cons_of_mem _ mem))
            (fun m mem => fits' m (List.mem_cons_of_mem _ mem)) behind
          exact ⟨rfl, rfl⟩

/-- A part of an encoding without its end is incomplete. -/
theorem incomplete_of_begins (fits : Fits w m) (begins : part <+: encode w m)
    (proper : part ≠ encode w m) : Incomplete w part := by
  obtain ⟨rest, whole⟩ := begins
  by_contra complete
  obtain ⟨m', behind, rfl, -, fits'⟩ := exists_encode complete
  have same : encode w m' ++ (behind ++ rest) = encode w m ++ [] := by
    rw [← List.append_assoc, whole, List.append_nil]
  obtain ⟨rfl, nothing⟩ := encode_unique fits' fits same
  rw [(List.append_eq_nil_iff.mp nothing).1, List.append_nil] at proper
  exact proper rfl

/-- Incomplete bytes are a part of some encoding, without its end. -/
theorem exists_prefix_of_incomplete (h : Incomplete w part) :
    ∃ m, Fits w m ∧ part <+: encode w m ∧ part ≠ encode w m := by
  -- zeros take the place of what is missing, of the length or of the message
  by_cases short : part.length < w
  · have front : (part ++ List.replicate (w - part.length) 0).length = w := by
      rw [List.length_append, List.length_replicate]
      omega
    obtain ⟨encoded, fits⟩ := encode_of_length front List.length_replicate (m := List.replicate _ 0)
    refine ⟨_, fits, ?_, ?_⟩
    · rw [encoded, List.append_assoc]
      exact List.prefix_append _ _
    · intro same
      have lengths := congrArg List.length same
      rw [length_encode] at lengths
      omega
  · have less : part.length < w + ofBe (part.take w) := h.resolve_left short
    have length : (part.drop w ++ List.replicate (w + ofBe (part.take w) - part.length) 0).length =
        ofBe (part.take w) := by
      rw [List.length_append, List.length_drop, List.length_replicate]
      omega
    obtain ⟨encoded, fits⟩ :=
      encode_of_length (List.length_take_of_le (Nat.le_of_not_lt short)) length
    refine ⟨_, fits, ?_, ?_⟩
    · rw [encoded, ← List.append_assoc, List.take_append_drop]
      exact List.prefix_append _ _
    · intro same
      have lengths := congrArg List.length same
      rw [length_encode, length] at lengths
      omega

/-- Where bytes end, told from what is left behind the whole messages. -/
theorem cutsMessage_iff (fits : ∀ m ∈ ms, Fits w m) (ends : Incomplete w rest) :
    CutsMessage w (encodeAll w ms ++ rest) ↔ rest ≠ [] := by
  constructor
  · rintro ⟨ms', m, part, fits', fits_, same, some_, begins, proper⟩
    obtain ⟨-, rfl⟩ :=
      encodeAll_unique fits fits' ends (incomplete_of_begins fits_ begins proper) same
    exact some_
  · intro some_
    obtain ⟨m, fits', begins, proper⟩ := exists_prefix_of_incomplete ends
    exact ⟨ms, m, rest, fits, fits', rfl, some_, begins, proper⟩

end Prefixed
