import RustProxy.AnyTls.Session
import RustProxy.Utf8

/-!
# Settings as text and back

A map of settings is written as one `key=value` a line, in whatever order the
hash map yields its entries, and read line by line, each split at its first
`=`. Neither side quotes anything. So a map comes back exactly if no key holds
a `=`, no text holds a line feed, and no value but the last one written ends in
a carriage return, which the reader takes for a part of the line's end.
-/

namespace RustProxy

section Lines

variable {key value line text : Text}

theorem not_mem_of_mem_splitOn (mem : line ∈ text.splitOn '\n') : '\n' ∉ line := by
  induction text generalizing line with
  | nil =>
      rw [List.splitOn_nil, List.mem_singleton] at mem
      subst mem
      exact List.not_mem_nil
  | cons c text ih =>
      rw [List.splitOn_cons_eq_if_modifyHead] at mem
      obtain ⟨first, others, split⟩ := List.exists_cons_of_ne_nil (List.splitOn_ne_nil '\n' text)
      split_ifs at mem with feed
      · rcases List.mem_cons.mp mem with rfl | mem
        · exact List.not_mem_nil
        · exact ih mem
      · rw [split, List.modifyHead_cons] at mem
        rcases List.mem_cons.mp mem with rfl | mem
        · have clean : '\n' ∉ first := ih (split ▸ List.mem_cons_self)
          simp only [beq_iff_eq] at feed
          exact fun inside => (List.mem_cons.mp inside).elim (fun same => feed same.symm) clean
        · exact ih (split ▸ List.mem_cons_of_mem _ mem)

theorem stripCarriageReturn_concat (front : Text) (last : Char) :
    stripCarriageReturn (front ++ [last]) = if last = '\r' then front else front ++ [last] := by
  simp only [stripCarriageReturn, List.getLast?_concat, Option.some.injEq, List.dropLast_concat]

theorem not_mem_stripCarriageReturn {c : Char} (clean : c ∉ line) :
    c ∉ stripCarriageReturn line := by
  unfold stripCarriageReturn
  split
  · exact fun inside => clean (List.dropLast_subset _ inside)
  · exact clean

/-- No line holds a line feed. -/
theorem not_mem_of_mem_lines (mem : line ∈ lines text) : '\n' ∉ line := by
  rw [lines, List.mem_append, List.mem_map, List.mem_filter, Option.mem_toList] at mem
  rcases mem with ⟨piece, mem, rfl⟩ | ⟨mem, -⟩
  · exact not_mem_stripCarriageReturn (not_mem_of_mem_splitOn (List.dropLast_subset _ mem))
  · exact not_mem_of_mem_splitOn (List.mem_of_getLast? mem)

theorem splitOnce_append {separator : Char} (clean : separator ∉ key) :
    splitOnce separator (key ++ separator :: value) = some (key, value) := by
  have before : ∀ c ∈ key, (c != separator) = true := by
    intro c mem
    exact bne_iff_ne.mpr fun same => clean (same ▸ mem)
  rw [splitOnce, if_pos (List.mem_append_right _ List.mem_cons_self),
    List.takeWhile_append_of_pos before, List.dropWhile_append_of_pos before,
    List.takeWhile_cons_of_neg (by simp), List.dropWhile_cons_of_neg (by simp),
    List.append_nil, List.tail_cons]

theorem splitOnce_eq_some {separator : Char}
    (split : splitOnce separator line = some (key, value)) :
    separator ∉ key ∧ line = key ++ separator :: value := by
  by_cases inside : separator ∈ line
  · obtain ⟨before, after, rfl, clean⟩ := List.eq_append_cons_of_mem inside
    rw [splitOnce_append clean] at split
    cases split
    exact ⟨clean, rfl⟩
  · rw [splitOnce, if_neg inside] at split
    cases split

/-- The lines of texts that hold no line feed themselves. -/
theorem lines_intercalate {texts : List Text} (clean : ∀ text ∈ texts, '\n' ∉ text)
    (some_ : ∀ text ∈ texts, text ≠ []) :
    lines (List.intercalate ['\n'] texts) =
      texts.dropLast.map stripCarriageReturn ++ texts.getLast?.toList := by
  rcases eq_or_ne texts [] with rfl | nonempty
  · rfl
  · rw [lines, List.splitOn_intercalate '\n' clean nonempty]
    congr 1
    rw [List.filter_eq_self]
    intro text last
    exact decide_eq_true (some_ text (List.mem_of_getLast? (Option.mem_toList.mp last)))

end Lines

namespace AnyTls.StringMap

/-- `HashMap::iter`: the entries of a map, in one of the orders they may come in. -/
def Iter (map : StringMap) : Type :=
  { order : List (Text × Text) // order.Perm (map.entries.map fun e => (e.1, e.2)) }

/-- An entry as `to_bytes` formats it. -/
def settingLine (entry : Text × Text) : Text := entry.1 ++ '=' :: entry.2

/-- `StringMap::to_bytes`. -/
def toBytes {map : StringMap} (iter : map.Iter) : Bytes :=
  utf8Bytes (List.intercalate ['\n'] (iter.1.map settingLine))

/-- What `from_bytes` does with a line. -/
def readLine (map : StringMap) (line : Text) : StringMap :=
  match splitOnce '=' line with
  | some (key, value) => map.insert key value
  | none => map

theorem fromBytes_eq (data : Bytes) :
    fromBytes data = (lines (fromUtf8Lossy data)).foldl readLine ∅ := rfl

section Reading

variable {key value : Text}

/-- What was read into a map was there before, or stands on one of the lines. -/
theorem lookup_readLines {texts : List Text} {map : StringMap}
    (found : (texts.foldl readLine map).lookup key = some value) :
    map.lookup key = some value ∨ key ++ '=' :: value ∈ texts ∧ '=' ∉ key := by
  induction texts generalizing map with
  | nil => exact .inl found
  | cons text texts ih =>
      rw [List.foldl_cons] at found
      rcases ih found with before | ⟨mem, clean⟩
      · unfold readLine at before
        split at before
        case h_1 split =>
          obtain ⟨clean, rfl⟩ := splitOnce_eq_some split
          rcases Table.lookup_insert_eq_some.mp before with ⟨rfl, rfl⟩ | ⟨-, before⟩
          · exact .inr ⟨List.mem_cons_self, clean⟩
          · exact .inl before
        case h_2 => exact .inl before
      · exact .inr ⟨List.mem_cons_of_mem _ mem, clean⟩

/-- What a key and a value that were read cannot hold. -/
theorem clean_of_fromBytes {data : Bytes} (found : (fromBytes data).lookup key = some value) :
    '=' ∉ key ∧ '\n' ∉ key ∧ '\n' ∉ value := by
  rw [fromBytes_eq] at found
  rcases lookup_readLines found with none_ | ⟨mem, clean⟩
  · rw [AList.lookup_empty] at none_
    cases none_
  · have noFeed := not_mem_of_mem_lines mem
    rw [List.mem_append, List.mem_cons, not_or, not_or] at noFeed
    exact ⟨clean, noFeed.1, noFeed.2.2⟩

/-- Reading the lines of entries puts one entry after another into the map. -/
theorem readLines_settingLines {entries : List (Text × Text)} {map : StringMap}
    (clean : ∀ entry ∈ entries, '=' ∉ entry.1) :
    (entries.map settingLine).foldl readLine map =
      entries.foldl (fun map entry => map.insert entry.1 entry.2) map := by
  induction entries generalizing map with
  | nil => rfl
  | cons entry entries ih =>
      have first : readLine map (settingLine entry) = map.insert entry.1 entry.2 := by
        rw [readLine, settingLine, splitOnce_append (clean entry List.mem_cons_self)]
      rw [List.map_cons, List.foldl_cons, List.foldl_cons, first]
      exact ih fun entry mem => clean entry (List.mem_cons_of_mem _ mem)

theorem lookup_inserted {entries : List (Text × Text)} {map : StringMap}
    (distinct : (entries.map Prod.fst).Nodup) :
    (entries.foldl (fun map entry => map.insert entry.1 entry.2) map).lookup key = some value ↔
      (key, value) ∈ entries ∨ key ∉ entries.map Prod.fst ∧ map.lookup key = some value := by
  induction entries generalizing map with
  | nil => simp
  | cons entry entries ih =>
      obtain ⟨k, v⟩ := entry
      rw [List.map_cons, List.nodup_cons] at distinct
      rw [List.foldl_cons, ih distinct.2, Table.lookup_insert_eq_some]
      simp only [List.map_cons, List.mem_cons, Prod.mk.injEq, not_or]
      constructor
      · rintro (mem | ⟨other, ⟨rfl, rfl⟩ | ⟨ne, found⟩⟩)
        · exact .inl (.inr mem)
        · exact .inl (.inl ⟨rfl, rfl⟩)
        · exact .inr ⟨⟨ne, other⟩, found⟩
      · rintro ((⟨rfl, rfl⟩ | mem) | ⟨⟨ne, other⟩, found⟩)
        · exact .inr ⟨distinct.1, .inl ⟨rfl, rfl⟩⟩
        · exact .inl mem
        · exact .inr ⟨other, .inr ⟨ne, found⟩⟩

end Reading

theorem stripCarriageReturn_settingLine (entry : Text × Text) :
    stripCarriageReturn (settingLine entry) =
      settingLine (entry.1, stripCarriageReturn entry.2) := by
  obtain ⟨key, value⟩ := entry
  rcases List.eq_nil_or_concat value with rfl | ⟨front, last, rfl⟩
  · rw [settingLine, stripCarriageReturn_concat, if_neg (by decide)]
    rfl
  · have shape : settingLine (key, front ++ [last]) = (key ++ '=' :: front) ++ [last] := by
      simp [settingLine]
    rw [List.concat_eq_append, shape, stripCarriageReturn_concat, stripCarriageReturn_concat]
    split
    · rfl
    · rw [shape]

/-- Entries as they come back: every value but the last has lost a carriage
return at its end. -/
def asRead (entries : List (Text × Text)) : List (Text × Text) :=
  entries.dropLast.map (fun entry => (entry.1, stripCarriageReturn entry.2)) ++
    entries.getLast?.toList

theorem dropLast_append_getLast? {α : Type*} (xs : List α) :
    xs.dropLast ++ xs.getLast?.toList = xs := by
  rcases List.eq_nil_or_concat xs with rfl | ⟨front, last, rfl⟩
  · rfl
  · simp

@[simp] theorem keys_asRead (entries : List (Text × Text)) :
    (asRead entries).map Prod.fst = entries.map Prod.fst := by
  rw [asRead, List.map_append, List.map_map, Function.comp_def, ← List.map_append,
    dropLast_append_getLast?]

/-- The texts of the entries hold nothing that the format gives a meaning to. -/
def Clean (entries : List (Text × Text)) : Prop :=
  ∀ entry ∈ entries, '=' ∉ entry.1 ∧ '\n' ∉ entry.1 ∧ '\n' ∉ entry.2

theorem lines_settingLines {entries : List (Text × Text)} (clean : Clean entries) :
    lines (List.intercalate ['\n'] (entries.map settingLine)) =
      (asRead entries).map settingLine := by
  rw [lines_intercalate, asRead, List.map_append, ← List.map_dropLast, List.map_map, List.map_map,
    List.getLast?_map]
  · congr 1
    · exact List.map_congr_left fun entry _ => stripCarriageReturn_settingLine entry
    · cases entries.getLast? <;> rfl
  · intro text mem
    obtain ⟨entry, written, rfl⟩ := List.mem_map.mp mem
    obtain ⟨-, noKey, noValue⟩ := clean entry written
    simp [settingLine, noKey, noValue]
  · intro text mem
    obtain ⟨entry, -, rfl⟩ := List.mem_map.mp mem
    simp [settingLine]

section RoundTrip

variable {map : StringMap} {key value : Text}

@[simp] theorem Iter.mem_iff (iter : map.Iter) :
    (key, value) ∈ iter.1 ↔ map.lookup key = some value := by
  rw [iter.2.mem_iff, ← Table.mem_entries_iff, List.mem_map]
  constructor
  · rintro ⟨entry, mem, same⟩
    cases same
    exact mem
  · intro mem
    exact ⟨_, mem, rfl⟩

theorem Iter.nodup_keys (iter : map.Iter) : (iter.1.map Prod.fst).Nodup := by
  rw [(iter.2.map Prod.fst).nodup_iff, List.map_map]
  exact map.nodupKeys

theorem lookup_fromBytes_toBytes {iter : map.Iter} (clean : Clean iter.1) :
    (fromBytes (toBytes iter)).lookup key = some value ↔ (key, value) ∈ asRead iter.1 := by
  have cleanKeys : ∀ entry ∈ asRead iter.1, '=' ∉ entry.1 := by
    intro entry mem
    have key : entry.1 ∈ iter.1.map Prod.fst := keys_asRead iter.1 ▸ List.mem_map_of_mem mem
    obtain ⟨written, mem, same⟩ := List.mem_map.mp key
    rw [← same]
    exact (clean written mem).1
  have distinct : ((asRead iter.1).map Prod.fst).Nodup := by
    rw [keys_asRead]
    exact iter.nodup_keys
  rw [fromBytes_eq, toBytes, fromUtf8Lossy_utf8Bytes, lines_settingLines clean,
    readLines_settingLines cleanKeys, lookup_inserted distinct]
  simp

/-- A carriage return ends no value but the last one. -/
def NoInnerReturn (entries : List (Text × Text)) : Prop :=
  ∀ entry ∈ entries.dropLast, entry.2.getLast? ≠ some '\r'

theorem asRead_eq_self {entries : List (Text × Text)} (inner : NoInnerReturn entries) :
    asRead entries = entries := by
  have same : entries.dropLast.map (fun entry => (entry.1, stripCarriageReturn entry.2)) =
      entries.dropLast := by
    conv_rhs => rw [← List.map_id entries.dropLast]
    refine List.map_congr_left fun entry mem => ?_
    rw [stripCarriageReturn, if_neg (inner entry mem), id]
  rw [asRead, same, dropLast_append_getLast?]

/-- Settings that were written come back as they were, in whatever order the
map was gone through, if and only if no key holds a `=` or a line feed, no
value holds a line feed, and no value but the last one written ends in a
carriage return. -/
theorem settings_read_back (map : StringMap) (iter : map.Iter) :
    (∀ key, (fromBytes (toBytes iter)).lookup key = map.lookup key) ↔
      (∀ key value, map.lookup key = some value →
        '=' ∉ key ∧ '\n' ∉ key ∧ '\n' ∉ value) ∧
      ∀ entry ∈ iter.1.dropLast, entry.2.getLast? ≠ some '\r' := by
  constructor
  · intro back
    have clean : Clean iter.1 := by
      rintro ⟨key, value⟩ mem
      exact clean_of_fromBytes ((back key).trans (iter.mem_iff.mp mem))
    constructor
    · intro key value found
      exact clean (key, value) (iter.mem_iff.mpr found)
    · rintro ⟨key, value⟩ mem carriage
      -- The entry comes back without its carriage return, under the same key.
      have read : (key, stripCarriageReturn value) ∈ asRead iter.1 :=
        List.mem_append_left _ (List.mem_map_of_mem mem)
      have found := (back key).symm.trans ((lookup_fromBytes_toBytes clean).mpr read)
      have written := iter.mem_iff.mp (List.dropLast_subset _ mem)
      obtain ⟨front, rfl⟩ := List.getLast?_eq_some_iff.mp carriage
      rw [written, stripCarriageReturn_concat, if_pos rfl, Option.some.injEq] at found
      exact List.cons_ne_nil _ _ (List.append_right_eq_self.mp found)
  · rintro ⟨clean, inner⟩ key
    have cleanIter : Clean iter.1 := fun entry mem => clean entry.1 entry.2 (iter.mem_iff.mp mem)
    apply Option.ext
    intro value
    rw [lookup_fromBytes_toBytes cleanIter, asRead_eq_self inner, iter.mem_iff]

end RoundTrip

/-- The settings that the server answers with, as it builds them. -/
def serverSettings : StringMap := (∅ : StringMap).insert "v".toList "2".toList

/-- Their bytes are what the session's answer carries. -/
theorem toBytes_serverSettings (iter : serverSettings.Iter) (padding : Padding) :
    toBytes iter = (Control.serverSettings.frame padding).data := by
  have only : iter.1 = [("v".toList, "2".toList)] := List.perm_singleton.mp iter.2
  rw [toBytes, only, Control.frame, Frame.withData]
  decide +kernel

end AnyTls.StringMap

end RustProxy
