import RustProxy.Base.Transition
import RustProxy.LocationText
import RustProxy.Resolver

/-!
# What the resolver answers

Each address that a call returns for a hostname was found by a lookup of that
hostname and port, its own or one whose result had been in the cache for less
than `CACHE_TTL`. An entry of the cache stands for the call that stored it: the
key tells its hostname and port apart from all others, since the last colon of
a key is the one in front of the port, whatever the hostname holds. Entries
come and go with the stores of other calls and are never changed otherwise.
-/

namespace RustProxy.Resolver

/-- The first IPv4 address of an answer, or else its first address. -/
def preferred (addrs : List SocketAddr) : Option SocketAddr :=
  (addrs.find? fun addr => !addr.isIpv6).or addrs.head?

/-- The call's own lookup found the address. -/
def Call.Answered (call : Call) (addr : SocketAddr) : Prop :=
  ∃ addrs, call.answer = some (.ok addrs) ∧ preferred addrs = some addr

/-- The call's lookup has ended without an address. -/
def Call.Failed (call : Call) : Prop := call.answer ≠ none ∧ ∀ addr, ¬call.Answered addr

/-- Each address returned for a hostname was found by a lookup of that hostname
and port, by the call itself or by one that stored it less than `CACHE_TTL`
before the call consulted the cache. A call whose lookup failed returns an
error and has stored nothing. -/
structure Faithful (s : State) : Prop where
  answers : ∀ call ∈ s.calls, ∀ hostname addr, call.location.address = .hostname hostname →
    call.status = .returned (.ok addr) →
    call.Answered addr ∨ ∃ other ∈ s.calls, other.location = call.location ∧
      other.Answered addr ∧ ∃ time, other.stored = some time ∧ time ≤ call.consulted ∧
        call.consulted < time + CACHE_TTL
  failures : ∀ call ∈ s.calls, call.Failed →
    (∃ e, call.status = .returned (.error e)) ∧ call.stored = none

/-- Only the store of an address changes what the cache holds. -/
def KeepsContents (s : State) : Event → Prop
  | .stored _ _ => True
  | e => ∀ t, step s e = some t → ∀ key, t.cache.get? key = s.cache.get? key

/-! ## Lookups and keys -/

theorem isIpv6_le_trans (a b c : SocketAddr) : decide (a.isIpv6 ≤ b.isIpv6) = true →
    decide (b.isIpv6 ≤ c.isIpv6) = true → decide (a.isIpv6 ≤ c.isIpv6) = true := by
  cases a.isIpv6 <;> cases b.isIpv6 <;> cases c.isIpv6 <;> decide

theorem isIpv6_le_total (a b : SocketAddr) :
    (decide (a.isIpv6 ≤ b.isIpv6) || decide (b.isIpv6 ≤ a.isIpv6)) = true := by
  cases a.isIpv6 <;> cases b.isIpv6 <;> decide

/-- Behind an IPv6 address that was sorted there are no others. -/
theorem find?_behind_ipv6 {addr : SocketAddr} {addrs behind : List SocketAddr}
    (family : addr.isIpv6 = true)
    (ordered : (addr :: behind).Pairwise fun a b => decide (a.isIpv6 ≤ b.isIpv6) = true)
    (kept : ∀ other ∈ addrs, other ∈ behind) :
    addrs.find? (fun addr => !addr.isIpv6) = none := by
  apply List.find?_eq_none.mpr
  intro other mem
  have above := (List.pairwise_cons.mp ordered).1 other (kept other mem)
  rw [family] at above
  cases ipv6 : other.isIpv6 with
  | false =>
      rw [ipv6] at above
      cases above
  | true => decide

/-- The first address of the sorted ones. -/
theorem head?_mergeSort (addrs : List SocketAddr) :
    (addrs.mergeSort fun a b => a.isIpv6 ≤ b.isIpv6).head? = preferred addrs := by
  induction addrs with
  | nil => simp [preferred]
  | cons addr addrs ih =>
      obtain ⟨before, behind, sorted, rest, earlier⟩ :=
        List.mergeSort_cons isIpv6_le_trans isIpv6_le_total addr addrs
      rw [sorted]
      -- what the sort puts in front of an address is IPv4, and then the address is not
      have front : ∀ other ∈ before, other.isIpv6 = false ∧ addr.isIpv6 = true := by
        intro other mem
        have above := earlier other mem
        cases family : addr.isIpv6 <;> cases ipv6 : other.isIpv6 <;> simp_all
      have inside : ∀ other, other ∈ before ++ behind ↔ other ∈ addrs := by
        intro other
        rw [← rest, List.mem_mergeSort]
      cases before with
      | nil =>
          cases family : addr.isIpv6 with
          | false => simp [preferred, family]
          | true =>
              have ordered :=
                List.pairwise_mergeSort isIpv6_le_trans isIpv6_le_total (addr :: addrs)
              rw [sorted] at ordered
              have none := find?_behind_ipv6 family ordered fun other => (inside other).mpr
              simp [preferred, family, none]
      | cons other before =>
          obtain ⟨ipv4, family⟩ := front other List.mem_cons_self
          rw [rest, List.cons_append, List.head?_cons, preferred] at ih
          cases found : addrs.find? (fun addr => !addr.isIpv6) with
          | none =>
              have mem := (inside other).mp List.mem_cons_self
              have := List.find?_eq_none.mp found other mem
              simp [ipv4] at this
          | some first =>
              rw [found] at ih
              simpa [preferred, family, found] using ih

theorem lookupHost_eq_ok {hostname : Text} {port : UInt16} {answer : IoResult (List SocketAddr)}
    {addr : SocketAddr} (found : lookupHost hostname port answer = .ok addr) :
    ∃ addrs, answer = .ok addrs ∧ preferred addrs = some addr := by
  cases answer with
  | error e => cases found
  | ok addrs =>
      refine ⟨addrs, rfl, ?_⟩
      rw [← head?_mergeSort]
      simp only [lookupHost] at found
      split at found
      · rename_i first
        rw [first, Except.ok.inj found]
      · cases found

theorem key_injective {hostname hostname' : Text} {port port' : UInt16}
    (same : key hostname port = key hostname' port') : hostname = hostname' ∧ port = port' := by
  have split := NetLocation.splitLast_append hostname (colon_notMem_decimal port.toNat)
  have split' := NetLocation.splitLast_append hostname' (colon_notMem_decimal port'.toNat)
  rw [key, key] at same
  rw [same, split'] at split
  obtain ⟨hostnames, ports⟩ := Prod.mk.inj (Option.some.inj split)
  refine ⟨hostnames.symm, UInt16.toNat_inj.mp ?_⟩
  have read := parseUnsigned_decimal (Nat.le_of_lt port.toNat_lt)
  have read' := parseUnsigned_decimal (Nat.le_of_lt port'.toNat_lt)
  rw [ports, read] at read'
  exact Option.some.inj read'

/-! ## Calls -/

/-- The call has put the address into the cache. -/
structure Call.Stored (call : Call) (addr : SocketAddr) (time : Nat) : Prop where
  answered : call.Answered addr
  time : call.stored = some time
  returned : call.status = .returned (.ok addr)

/-- What a call's status says about its record. -/
structure Call.Sound (calls : List Call) (call : Call) : Prop where
  waiting : call.status = .lookingUp ∨ call.status = .dropped →
    call.answer = none ∧ call.stored = none
  storing : ∀ addr, call.status = .storing addr → call.Answered addr
  returned : ∀ addr, call.status = .returned (.ok addr) →
    call.Answered addr ∨ call.answer = none ∧
      ∀ hostname, call.location.address = .hostname hostname → ∃ other ∈ calls,
        other.location = call.location ∧ ∃ time, other.Stored addr time ∧
          time ≤ call.consulted ∧ call.consulted < time + CACHE_TTL
  failed : ∀ e, call.status = .returned (.error e) → call.stored = none

/-- Calls that have returned an address stay as they are. -/
def Kept (calls calls' : List Call) : Prop :=
  ∀ call ∈ calls, ∀ addr, call.status = .returned (.ok addr) → call ∈ calls'

variable {s t : State} {calls calls' : List Call} {call call' : Call} {i : Nat}

theorem kept_append (more : List Call) : Kept calls (calls ++ more) := fun _ mem _ _ =>
  List.mem_append_left _ mem

theorem kept_set (found : calls[i]? = some call)
    (running : ∀ addr, call.status ≠ .returned (.ok addr)) : Kept calls (calls.set i call') := by
  intro other mem addr returned
  obtain ⟨j, at_⟩ := List.mem_iff_getElem?.mp mem
  apply List.mem_iff_getElem?.mpr
  refine ⟨j, ?_⟩
  rw [List.getElem?_set_ne, at_]
  rintro rfl
  rw [found] at at_
  obtain rfl := Option.some.inj at_
  exact running addr returned

theorem Call.Sound.kept (h : call.Sound calls) (kept : Kept calls calls') :
    call.Sound calls' where
  waiting := h.waiting
  storing := h.storing
  returned := by
    intro addr returned
    rcases h.returned addr returned with own | ⟨none, cached⟩
    · exact .inl own
    · refine .inr ⟨none, fun hostname named => ?_⟩
      obtain ⟨other, mem, location, time, stored, fresh⟩ := cached hostname named
      exact ⟨other, kept other mem addr stored.returned, location, time, stored, fresh⟩
  failed := h.failed

/-- The end of a lookup leaves an address to store or an error. -/
theorem Call.sound_lookedUp (h : call.Sound calls) (waits : call.status = .lookingUp)
    (hostname : Text) (answer : IoResult (List SocketAddr)) :
    (call.lookedUp hostname answer).Sound calls := by
  have stored := (h.waiting (.inl waits)).2
  cases found : lookupHost hostname call.location.port answer with
  | ok addr =>
      have status : (call.lookedUp hostname answer).status = .storing addr := by
        simp [Call.lookedUp, found]
      constructor <;> rw [status]
      · simp
      · intro addr' same
        cases same
        obtain ⟨addrs, rfl, first⟩ := lookupHost_eq_ok found
        exact ⟨addrs, rfl, first⟩
      · simp
      · simp
  | error e =>
      have status : (call.lookedUp hostname answer).status = .returned (.error e) := by
        simp [Call.lookedUp, found]
      constructor <;> rw [status]
      · simp
      · simp
      · simp
      · exact fun _ _ => stored

/-! ## The invariant -/

/-- The records are sound, and every entry of the cache was stored by a call
for its hostname and port. -/
structure Sound (s : State) : Prop where
  calls : ∀ call ∈ s.calls, call.Sound s.calls
  cache : ∀ hostname port entry, s.cache.get? (key hostname port) = some entry →
    entry.inserted ≤ s.clock ∧ ∃ other ∈ s.calls, other.location = ⟨.hostname hostname, port⟩ ∧
      other.Stored entry.addr entry.inserted

theorem sound_initial : Sound State.initial where
  calls := fun _ mem => absurd mem List.not_mem_nil
  cache := by
    intro hostname port entry found
    rw [State.initial, Lru.get?_empty] at found
    cases found

/-- The entries of the cache keep the calls they stand for. -/
theorem Sound.cache_kept (h : Sound s) (kept : Kept s.calls calls') {clock : Nat}
    (later : s.clock ≤ clock) {hostname : Text} {port : UInt16} {entry : CacheEntry}
    (found : s.cache.get? (key hostname port) = some entry) :
    entry.inserted ≤ clock ∧ ∃ other ∈ calls', other.location = ⟨.hostname hostname, port⟩ ∧
      other.Stored entry.addr entry.inserted := by
  obtain ⟨before, other, mem, location, stored⟩ := h.cache hostname port entry found
  exact ⟨Nat.le_trans before later, other, kept other mem _ stored.returned, location, stored⟩

/-- A new call beside the others. -/
theorem Sound.calls_append (h : Sound s) (sound : call.Sound s.calls) :
    ∀ other ∈ s.calls ++ [call], other.Sound (s.calls ++ [call]) := by
  intro other mem
  rcases List.mem_append.mp mem with earlier | last
  · exact (h.calls other earlier).kept (kept_append _)
  · obtain rfl := List.mem_singleton.mp last
    exact sound.kept (kept_append _)

/-- A call that has not returned an address goes on. -/
theorem Sound.calls_set (h : Sound s) (found : s.calls[i]? = some call)
    (running : ∀ addr, call.status ≠ .returned (.ok addr)) (sound : call'.Sound s.calls) :
    ∀ other ∈ s.calls.set i call', other.Sound (s.calls.set i call') := by
  intro other mem
  rcases List.mem_or_eq_of_mem_set mem with earlier | rfl
  · exact (h.calls other earlier).kept (kept_set found running)
  · exact sound.kept (kept_set found running)

@[simp] theorem consult_get? (cache : Cache) (key : Text) (now : Nat) (other : Text) :
    (consult cache key now).2.get? other = cache.get? other := by
  unfold consult
  split
  · rename_i entry cache' found
    obtain ⟨present, rfl⟩ := Lru.getMut_eq_some.mp found
    exact Lru.get?_put_present present other
  · rfl

/-- An address out of the cache is in a fresh entry. -/
theorem consult_eq_some {cache : Cache} {key : Text} {now : Nat} {addr : SocketAddr}
    (found : (consult cache key now).1 = some addr) :
    ∃ entry, cache.get? key = some entry ∧ entry.addr = addr ∧
      now - entry.inserted < CACHE_TTL := by
  unfold consult at found
  split at found
  · rename_i entry cache' got
    simp only at found
    split at found
    · rename_i fresh
      exact ⟨entry, (Lru.getMut_eq_some.mp got).1, Option.some.inj found, fresh⟩
    · cases found
  · cases found

/-- A call that has consulted the cache. -/
theorem Sound.start (h : Sound s) {location : NetLocation} {hostname : Text} {now : Nat}
    (named : location.address = .hostname hostname) (later : s.clock ≤ now) :
    (Call.start location now (consult s.cache (key hostname location.port) now).1).Sound
      s.calls := by
  cases found : (consult s.cache (key hostname location.port) now).1 with
  | none => constructor <;> simp [Call.start]
  | some addr =>
      constructor <;> simp only [Call.start]
      · simp
      · simp
      · intro addr' same
        cases same
        obtain ⟨entry, present, rfl, fresh⟩ := consult_eq_some found
        obtain ⟨before, other, mem, place, stored⟩ := h.cache _ _ _ present
        refine .inr ⟨trivial, fun _ _ => ⟨other, mem, ?_, entry.inserted, stored, ?_, ?_⟩⟩
        · rw [place, ← named]
        · omega
        · omega
      · simp

theorem sound_literal {location : NetLocation} {now : Nat} {addr : SocketAddr}
    (literal : location.toSocketAddrNonblocking = some addr) :
    (Call.start location now (some addr)).Sound calls := by
  constructor <;> simp only [Call.start]
  · simp
  · simp
  · refine fun _ _ => .inr ⟨trivial, fun hostname named => ?_⟩
    simp [NetLocation.toSocketAddrNonblocking, named] at literal
  · simp

theorem Sound.step {e : Event} (h : Sound s) (taken : step s e = some t) : Sound t := by
  cases taken_of_step taken with
  | literal addr =>
      exact ⟨h.calls_append (sound_literal addr),
        fun _ _ _ => h.cache_kept (kept_append _) (Nat.le_refl _)⟩
  | consulted later named =>
      refine ⟨h.calls_append (h.start named later), fun hostname port entry found => ?_⟩
      rw [consult_get?] at found
      exact h.cache_kept (kept_append _) later found
  | @lookedUp i answer call hostname found waits named =>
      have sound := h.calls call (List.mem_of_getElem? found)
      have running : ∀ addr, call.status ≠ .returned (.ok addr) := by simp [waits]
      exact ⟨h.calls_set found running (Call.sound_lookedUp sound waits _ _),
        fun _ _ _ => h.cache_kept (kept_set found running) (Nat.le_refl _)⟩
  | @stored i now call addr hostname later found stores named =>
      have answered := (h.calls call (List.mem_of_getElem? found)).storing addr stores
      have running : ∀ addr, call.status ≠ .returned (.ok addr) := by simp [stores]
      have inside : i < s.calls.length := (List.getElem?_eq_some_iff.mp found).1
      refine ⟨h.calls_set found running ?_, fun hostname' port entry present => ?_⟩
      · constructor <;> simp only
        · simp
        · simp
        · intro addr' same
          cases same
          exact .inl answered
        · simp
      · rcases Lru.get?_of_get?_put present with ⟨same, rfl⟩ | ⟨-, present⟩
        · obtain ⟨rfl, rfl⟩ := key_injective same
          refine ⟨Nat.le_refl _, _, List.mem_set inside _, ?_, answered, rfl, rfl⟩
          rw [← named]
        · exact h.cache_kept (kept_set found running) later present
  | @dropped i call found waits =>
      have sound := h.calls call (List.mem_of_getElem? found)
      have running : ∀ addr, call.status ≠ .returned (.ok addr) := by simp [waits]
      refine ⟨h.calls_set found running ?_,
        fun _ _ _ => h.cache_kept (kept_set found running) (Nat.le_refl _)⟩
      constructor <;> simp only
      · exact fun _ => sound.waiting (.inl waits)
      · simp
      · simp
      · simp

theorem Sound.faithful (h : Sound s) : Faithful s where
  answers := by
    intro call mem hostname addr named returned
    rcases (h.calls call mem).returned addr returned with own | ⟨-, cached⟩
    · exact .inl own
    · obtain ⟨other, inside, location, time, stored, fresh⟩ := cached hostname named
      exact .inr ⟨other, inside, location, stored.answered, time, stored.time, fresh⟩
  failures := by
    intro call mem ⟨ended, failed⟩
    have sound := h.calls call mem
    cases status : call.status with
    | lookingUp => exact absurd (sound.waiting (.inl status)).1 ended
    | dropped => exact absurd (sound.waiting (.inr status)).1 ended
    | storing addr => exact absurd (sound.storing addr status) (failed addr)
    | returned result =>
        cases result with
        | ok addr =>
            rcases sound.returned addr status with own | ⟨none, -⟩
            · exact absurd own (failed addr)
            · exact absurd none ended
        | error e => exact ⟨⟨e, rfl⟩, sound.failed e status⟩

theorem keepsContents (s : State) (e : Event) : KeepsContents s e := by
  cases e with
  | stored => exact trivial
  | resolve =>
      intro t taken key
      cases taken_of_step taken with
      | literal => rfl
      | consulted => exact consult_get? _ _ _ _
  | lookedUp | dropped =>
      intro t taken key
      cases taken_of_step taken
      rfl

/-- Whatever calls overlap, whatever the clock reads and whatever the lookups
answer, the resolver stays faithful, and only a store changes what the cache
holds. -/
theorem resolver_faithful (events : List Event) :
    Transition.Always step Faithful State.initial events ∧
      Transition.Along step KeepsContents State.initial events := by
  constructor
  · apply Transition.always_of_invariant (I := Sound)
    · exact fun s h => h.faithful
    · exact fun s e t h taken => h.step taken
    · exact sound_initial
  · exact Transition.along_of_forall keepsContents _ _

end RustProxy.Resolver
