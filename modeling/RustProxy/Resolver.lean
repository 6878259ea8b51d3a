import RustProxy.AsyncStream
import RustProxy.Base.Table

/-!
# The resolver and its cache

`resolver.rs`. Any number of calls of `resolve` run side by side. A call holds
the lock of the cache twice, to look its key up and to store its answer, and
not in between, where it waits for the lookup: each of the two is one step here
and other calls may take theirs at any point. The clock is read under the lock,
so its readings follow the order of the steps.

A call keeps on record when it consulted the cache, what its lookup answered
and when it stored the address.
-/

namespace RustProxy

/-- `Address::hostname`. -/
def Address.hostname? : Address → Option Text
  | hostname name => some name
  | _ => none

namespace Resolver

def CACHE_SIZE : Nat := 1024

def CACHE_TTL : Nat := seconds 60

structure CacheEntry where
  addr : SocketAddr
  inserted : Nat
  deriving DecidableEq, Repr

abbrev Cache := Lru Text CacheEntry CACHE_SIZE

/-- The key of a hostname and a port. -/
def key (hostname : Text) (port : UInt16) : Text := hostname ++ ':' :: decimal port.toNat

/-- `lookup_host`, given what the system's resolver answers. -/
def lookupHost (hostname : Text) (port : UInt16) : IoResult (List SocketAddr) → IoResult SocketAddr
  | .error e => .error e
  | .ok addrs =>
      -- a stable sort that puts IPv4 first
      match (addrs.mergeSort fun a b => a.isIpv6 ≤ b.isIpv6).head? with
      | some addr => .ok addr
      | none => .error ⟨.other, "no addresses for " ++ String.ofList (key hostname port)⟩

/-- The first look into the cache, which makes the entry the most recent one. -/
def consult (cache : Cache) (key : Text) (now : Nat) : Option SocketAddr × Cache :=
  match cache.getMut key with
  | some (entry, cache) =>
      (if now - entry.inserted < CACHE_TTL then some entry.addr else none, cache)
  | none => (none, cache)

/-- Where a call stands. -/
inductive Status where
  | lookingUp
  | storing (addr : SocketAddr)
  | returned (result : IoResult SocketAddr)
  | dropped
  deriving DecidableEq

/-- A call of `resolve`, with what it has done up to now. -/
structure Call where
  location : NetLocation
  consulted : Nat
  answer : Option (IoResult (List SocketAddr))
  stored : Option Nat
  status : Status

/-- A call that has looked into the cache. -/
def Call.start (location : NetLocation) (now : Nat) (found : Option SocketAddr) : Call where
  location
  consulted := now
  answer := none
  stored := none
  status :=
    match found with
    | some addr => .returned (.ok addr)
    | none => .lookingUp

/-- The lookup of a call has ended, with an address to store or with an error. -/
def Call.lookedUp (call : Call) (hostname : Text) (answer : IoResult (List SocketAddr)) : Call :=
  { call with
    answer := some answer
    status :=
      match lookupHost hostname call.location.port answer with
      | .ok addr => .storing addr
      | .error e => .returned (.error e) }

structure State where
  cache : Cache
  clock : Nat
  calls : List Call

def State.initial : State := ⟨Lru.empty, 0, []⟩

inductive Event where
  /-- A new call, up to its lookup if it needs one. -/
  | resolve (location : NetLocation) (now : Nat)
  /-- The lookup of a call ends. -/
  | lookedUp (i : Nat) (answer : IoResult (List SocketAddr))
  /-- A call stores its address and returns. -/
  | stored (i : Nat) (now : Nat)
  /-- The future of a call is dropped while it waits. -/
  | dropped (i : Nat)

def step (s : State) : Event → Option State
  | .resolve location now =>
      if now < s.clock then none
      else
        match location.toSocketAddrNonblocking, location.address.hostname? with
        | some addr, _ => some { s with calls := s.calls ++ [.start location now (some addr)] }
        | none, some hostname =>
            let (found, cache) := consult s.cache (key hostname location.port) now
            some ⟨cache, now, s.calls ++ [.start location now found]⟩
        | none, none => none
  | .lookedUp i answer =>
      match s.calls[i]? with
      | some call =>
          match call.status, call.location.address.hostname? with
          | .lookingUp, some hostname =>
              some { s with calls := s.calls.set i (call.lookedUp hostname answer) }
          | _, _ => none
      | none => none
  | .stored i now =>
      match s.calls[i]? with
      | some call =>
          match call.status, call.location.address.hostname? with
          | .storing addr, some hostname =>
              if now < s.clock then none
              else some ⟨s.cache.put (key hostname call.location.port) ⟨addr, now⟩, now,
                s.calls.set i { call with stored := some now, status := .returned (.ok addr) }⟩
          | _, _ => none
      | none => none
  | .dropped i =>
      match s.calls[i]? with
      | some call =>
          match call.status with
          | .lookingUp => some { s with calls := s.calls.set i { call with status := .dropped } }
          | _ => none
      | none => none

/-- The steps of the calls, one case for each outcome. -/
inductive Taken (s : State) : Event → State → Prop
  | literal {location : NetLocation} {now : Nat} {addr : SocketAddr} :
      location.toSocketAddrNonblocking = some addr → Taken s (.resolve location now)
        { s with calls := s.calls ++ [.start location now (some addr)] }
  | consulted {location : NetLocation} {now : Nat} {hostname : Text} : s.clock ≤ now →
      location.address = .hostname hostname → Taken s (.resolve location now)
        ⟨(consult s.cache (key hostname location.port) now).2, now, s.calls ++
          [.start location now (consult s.cache (key hostname location.port) now).1]⟩
  | lookedUp {i : Nat} {answer : IoResult (List SocketAddr)} {call : Call} {hostname : Text} :
      s.calls[i]? = some call → call.status = .lookingUp →
      call.location.address = .hostname hostname →
      Taken s (.lookedUp i answer)
        { s with calls := s.calls.set i (call.lookedUp hostname answer) }
  | stored {i now : Nat} {call : Call} {addr : SocketAddr} {hostname : Text} : s.clock ≤ now →
      s.calls[i]? = some call → call.status = .storing addr →
      call.location.address = .hostname hostname →
      Taken s (.stored i now) ⟨s.cache.put (key hostname call.location.port) ⟨addr, now⟩, now,
        s.calls.set i { call with stored := some now, status := .returned (.ok addr) }⟩
  | dropped {i : Nat} {call : Call} : s.calls[i]? = some call → call.status = .lookingUp →
      Taken s (.dropped i) { s with calls := s.calls.set i { call with status := .dropped } }

theorem hostname?_eq_some {address : Address} {name : Text}
    (named : address.hostname? = some name) : address = .hostname name := by
  cases address with
  | hostname other => exact congrArg _ (Option.some.inj named)
  | ipv4 | ipv6 => cases named

theorem taken_of_step {s t : State} {e : Event} (h : step s e = some t) : Taken s e t := by
  cases e with
  | resolve location now =>
      simp only [step] at h
      split at h
      · cases h
      · rename_i late
        split at h
        · rename_i literal
          exact Option.some.inj h ▸ .literal literal
        · rename_i named
          exact Option.some.inj h ▸ .consulted (Nat.le_of_not_lt late) (hostname?_eq_some named)
        · cases h
  | lookedUp i answer =>
      simp only [step] at h
      split at h
      · rename_i found
        split at h
        · rename_i waits named
          exact Option.some.inj h ▸ .lookedUp found waits (hostname?_eq_some named)
        · cases h
      · cases h
  | stored i now =>
      simp only [step] at h
      split at h
      · rename_i found
        split at h
        · rename_i stores named
          split at h
          · cases h
          · rename_i late
            exact Option.some.inj h ▸
              .stored (Nat.le_of_not_lt late) found stores (hostname?_eq_some named)
        · cases h
      · cases h
  | dropped i =>
      simp only [step] at h
      split at h
      · rename_i found
        split at h
        · rename_i waits
          exact Option.some.inj h ▸ .dropped found waits
        · cases h
      · cases h

end Resolver

end RustProxy
