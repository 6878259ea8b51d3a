import RustProxy.AsyncStream
import RustProxy.Hysteria2.Udp
import RustProxy.Base.Transition

/-!
# Connections and their authentication

`process_connection`, `auth_connection` and `validate_auth_request` of
`hysteria2.rs`. A client asks for `https://hysteria/auth` with the password in a
header, and is let in by a response 233; any other request is answered 404, and
the next one is awaited until the three seconds are over. Only then the three
loops of the connection start: UDP, unidirectional streams, TCP.

`try_join!` ends with the first loop that fails, or with all of them. The token
of the connection is cancelled then, and with it every receive task of the UDP
loop, also of the sessions that the loop has lost sight of. A loop that panics
takes the connection with it, and nothing is cancelled.

The request is what the HTTP/3 library hands over. A `Uri` is known by the texts
it compares equal to, since the comparison ignores case in part of it; names of
headers are in lower case. The values of headers are those of the `http` crate,
of which only `to_str` is used; what is documented of it is assumed where a
result rests on it.
-/

namespace RustProxy.Hysteria2

/-! ## Requests -/

/-- `http::HeaderValue`, with its text or the message of `ToStrError`. -/
class HeaderValue (ν : Type) where
  toStr : ν → Except String Text

structure Request (ν : Type) where
  uri : String
  uriEq : String → Bool
  method : String
  headers : String → Option ν

variable {ν : Type} [HeaderValue ν]

/-- `std::io::Error::other`. -/
def ioOther (message : String) : IoError := ⟨.other, message⟩

def validateAuthRequest (req : Request ν) (password : Text) : IoResult Unit :=
  if req.uriEq "https://hysteria/auth" = false then
    .error (ioOther ("unexpected uri: " ++ req.uri))
  else if req.method ≠ "POST" then
    .error (ioOther ("unexpected method: " ++ req.method))
  else
    match req.headers "hysteria-auth" with
    | none => .error (ioOther "missing auth header")
    | some authValue =>
        match HeaderValue.toStr authValue with
        | .error e => .error (ioOther ("invalid auth header value: " ++ e))
        | .ok authStr =>
            if authStr ≠ password then
              .error (ioOther ("incorrect auth password: " ++ String.ofList authStr))
            else .ok ()

/-- What `generate_ascii_string` may return. -/
structure AsciiString where
  text : Text
  some_ : text ≠ []
  short : text.length < 80
  alphanumeric : ∀ c ∈ text, c.isAlphanum

structure Response where
  status : Nat
  headers : List (String × String)
  deriving DecidableEq, Repr

def acceptResponse (udpEnabled : Bool) (padding : AsciiString) : Response where
  status := 233
  headers := [("Hysteria-UDP", if udpEnabled then "true" else "false"), ("Hysteria-CC-RX", "0"),
    ("Hysteria-Padding", String.ofList padding.text)]

def rejectResponse : Response := ⟨404, []⟩

/-- The configuration of the server that a connection is given. -/
structure Config where
  password : Text
  udpEnabled : Bool

def Config.admits (config : Config) (req : Request ν) : Bool :=
  match validateAuthRequest req config.password with
  | .ok () => true
  | .error _ => false

def Config.response (config : Config) (req : Request ν) (padding : AsciiString) : Response :=
  if config.admits req then acceptResponse config.udpEnabled padding else rejectResponse

/-! ## The connection -/

/-- What `process_connection` awaits. -/
inductive Stage (ν : Type) where
  | connecting
  /-- `h3::server::Connection::new` -/
  | settingUp
  | accepting
  | resolving
  /-- `send_response`, on the stream of the request -/
  | responding (req : Request ν) (response : Response)
  /-- `finish`, on the stream of a request that was admitted or not -/
  | finishing (admitted : Bool)
  /-- `try_join!`, with the two loops over streams that may still run -/
  | serving (uni tcp : Bool)
  | returned (result : IoResult Unit)
  | panicked

/-- The stages with no request at hand. -/
def Stage.isEarly : Stage ν → Bool
  | .connecting | .settingUp | .accepting | .resolving => true
  | _ => false

/-- A connection with what it has done: the requests it answered, each with its
response, the streams it accepted, the UDP loop if it was started, and the
reason it was closed with. -/
structure Connection (ν : Type) where
  stage : Stage ν
  answered : List (Request ν × Response)
  uniStreams : Nat
  tcpStreams : Nat
  udp : Option UdpLoop
  closed : Option String

/-- What `accept_uni` and `accept_bi` answer. -/
inductive AcceptStream where
  | stream
  /-- `ApplicationClosed` or `ConnectionClosed` -/
  | closed
  | failed (e : String)
  deriving DecidableEq, Repr

inductive ConnectionEvent (ν : Type) where
  | connected (answer : IoResult Unit)
  | h3Ready (answer : Except String Unit)
  /-- `accept` answers with a request to resolve, or without one -/
  | accepted (answer : Except String Bool)
  | resolved (answer : Except String (Request ν)) (padding : AsciiString)
  | responded (answer : Except String Unit)
  /-- `finish` answers; the UDP loop looks at the clock if it starts then -/
  | finished (answer : Except String Unit) (now : Nat)
  /-- the three seconds are over -/
  | elapsed
  | uni (answer : AcceptStream)
  | bi (answer : AcceptStream)
  /-- an iteration of the UDP loop, and the error it returns with if it does -/
  | udp (resolve : Resolve) (it : Iteration) (e : IoError)
  /-- a receive task of the UDP loop ends -/
  | taskEnds (i : Nat)

namespace Connection

def start : Connection ν where
  stage := .connecting
  answered := []
  uniStreams := 0
  tcpStreams := 0
  udp := none
  closed := none

/-- `auth_connection` fails. -/
def authFailed (s : Connection ν) (message : String) : Connection ν :=
  { s with stage := .returned (.error (ioOther message)), closed := some "auth failed" }

/-- The loop is dropped if it still runs, and the tokens of its tasks are
children of the one that is cancelled. -/
def cancelUdp (udp : UdpLoop) : UdpLoop :=
  let udp := if udp.status = .running then udp.leave .returned else udp
  { udp with tasks := udp.tasks.map fun task => { task with cancelled := true } }

/-- `try_join!` has its result. -/
def conclude (s : Connection ν) (result : IoResult Unit) : Connection ν :=
  { s with
    stage := .returned result
    udp := s.udp.map cancelUdp
    closed := match result with
      | .ok () => s.closed
      | .error _ => some "" }

/-- One of the loops over streams has returned. -/
def join (s : Connection ν) (uni tcp : Bool) : Connection ν :=
  if uni || tcp || s.udp.isSome then { s with stage := .serving uni tcp } else s.conclude (.ok ())

def step (config : Config) (s : Connection ν) : ConnectionEvent ν → Option (Connection ν)
  | .connected answer =>
      match s.stage, answer with
      | .connecting, .ok () => some { s with stage := .settingUp }
      | .connecting, .error e => some { s with stage := .returned (.error e) }
      | _, _ => none
  | .h3Ready answer =>
      match s.stage, answer with
      | .settingUp, .ok () => some { s with stage := .accepting }
      | .settingUp, .error e =>
          some { s with
            stage := .returned (.error (ioOther ("H3 connection setup failed: " ++ e))) }
      | _, _ => none
  | .accepted answer =>
      match s.stage, answer with
      | .accepting, .ok true => some { s with stage := .resolving }
      | .accepting, .ok false =>
          some { s with
            stage := .returned (.error ⟨.unexpectedEof, "no streams"⟩)
            closed := some "auth failed" }
      | .accepting, .error e => some (s.authFailed ("H3 accept failed: " ++ e))
      | _, _ => none
  | .resolved answer padding =>
      match s.stage, answer with
      | .resolving, .ok req =>
          some { s with stage := .responding req (config.response req padding) }
      | .resolving, .error e => some (s.authFailed ("Failed to resolve request: " ++ e))
      | _, _ => none
  | .responded answer =>
      match s.stage, answer with
      | .responding req response, .ok () =>
          some { s with
            stage := .finishing (config.admits req)
            answered := s.answered ++ [(req, response)] }
      | .responding req _, .error e =>
          some (s.authFailed ((if config.admits req then "failed to send auth response: "
            else "failed to send reject response: ") ++ e))
      | _, _ => none
  | .finished answer now =>
      match s.stage, answer with
      | .finishing true, .ok () =>
          some { s with
            stage := .serving true true
            udp := if config.udpEnabled then some (UdpLoop.initial now) else none }
      | .finishing false, .ok () => some { s with stage := .accepting }
      | .finishing admitted, .error e =>
          some (s.authFailed ((if admitted then "failed to finish auth stream: "
            else "failed to finish reject stream: ") ++ e))
      | _, _ => none
  | .elapsed =>
      match s.stage with
      | .accepting | .resolving | .responding _ _ | .finishing _ =>
          some { s with
            stage := .returned (.error ⟨.timedOut, "authentication timeout"⟩)
            closed := some "auth timeout" }
      | _ => none
  | .uni answer =>
      match s.stage, answer with
      | .serving true _, .stream => some { s with uniStreams := s.uniStreams + 1 }
      | .serving true tcp, .closed => some (s.join false tcp)
      | .serving true _, .failed e =>
          some (s.conclude (.error (ioOther ("unidirectional loop error: " ++ e))))
      | _, _ => none
  | .bi answer =>
      match s.stage, answer with
      | .serving _ true, .stream => some { s with tcpStreams := s.tcpStreams + 1 }
      | .serving uni true, .closed => some (s.join uni false)
      | .serving _ true, .failed e =>
          some (s.conclude (.error (ioOther ("failed to accept bidirectional stream: " ++ e))))
      | _, _ => none
  | .udp resolve it e =>
      match s.stage, s.udp with
      | .serving _ _, some udp =>
          let udp := (iterate resolve udp it).1
          match udp.status with
          | .running => some { s with udp := some udp }
          | .returned => some ({ s with udp := some udp }.conclude (.error e))
          | .panicked _ => some { s with stage := .panicked, udp := some udp }
      | _, _ => none
  | .taskEnds i =>
      s.udp.map fun udp => { s with udp := some { udp with tasks := Spawn.finish i udp.tasks } }

/-! ## Authentication -/

/-- A request with the password. -/
structure HasPassword (config : Config) (req : Request ν) : Prop where
  uri : req.uriEq "https://hysteria/auth" = true
  method : req.method = "POST"
  auth : ∃ value, req.headers "hysteria-auth" = some value ∧
    HeaderValue.toStr value = .ok config.password

/-- What holds of a connection at any time: each request was answered according
to what it asks for, none came after one that was admitted, and nothing was
served before. The UDP loop is there only where it is enabled, and takes the
steps of a loop that runs by itself; the connection does not outlive its tasks,
and with UDP it never ends well. -/
structure Guarded (config : Config) (s : Connection ν) : Prop where
  answers : ∀ pair ∈ s.answered, ∃ padding,
    (HasPassword config pair.1 ∧ pair.2 = acceptResponse config.udpEnabled padding) ∨
      (¬HasPassword config pair.1 ∧ pair.2 = rejectResponse)
  once : ∀ pair ∈ s.answered.dropLast, ¬HasPassword config pair.1
  gate : s.uniStreams ≠ 0 ∨ s.tcpStreams ≠ 0 ∨ s.udp ≠ none →
    ∃ pair, s.answered.getLast? = some pair ∧ HasPassword config pair.1
  noUdp : config.udpEnabled = false → s.udp = none
  udpRuns : ∀ udp, s.udp = some udp →
    ∃ now events, List.foldlM Hysteria2.step (UdpLoop.initial now) events = some udp
  released : ∀ result, s.stage = .returned result →
    ∀ udp, s.udp = some udp → ∀ task ∈ udp.tasks, ¬task.Loose
  ends : config.udpEnabled = true → s.stage ≠ .returned (.ok ())

theorem admits_iff (config : Config) (req : Request ν) :
    config.admits req = true ↔ HasPassword config req := by
  unfold Config.admits validateAuthRequest
  constructor
  · intro admitted
    split at admitted
    case h_2 => cases admitted
    case h_1 checked =>
      split at checked
      · cases checked
      · rename_i uri
        split at checked
        · cases checked
        · rename_i method
          split at checked
          · cases checked
          · rename_i value found
            split at checked
            · cases checked
            · rename_i authStr read
              split at checked
              · cases checked
              · rename_i same
                rw [not_not.mp same] at read
                exact ⟨eq_true_of_ne_false uri, not_not.mp method, value, found, read⟩
  · rintro ⟨uri, method, value, found, read⟩
    simp [uri, method, found, read]

/-- Nothing was served yet. -/
def Unserved (s : Connection ν) : Prop := s.uniStreams = 0 ∧ s.tcpStreams = 0 ∧ s.udp = none

def Refused (config : Config) (answered : List (Request ν × Response)) : Prop :=
  ∀ pair ∈ answered, config.admits pair.1 = false

def LetIn (config : Config) (answered : List (Request ν × Response)) : Prop :=
  ∃ before pair, answered = before ++ [pair] ∧ Refused config before ∧
    config.admits pair.1 = true

/-- A loop that has come about by the steps of a loop by itself. -/
def Runs (udp : UdpLoop) : Prop :=
  ∃ now events, List.foldlM Hysteria2.step (UdpLoop.initial now) events = some udp

/-- What a stage says about what was done before. -/
def StageOk (config : Config) (s : Connection ν) : Prop :=
  match s.stage with
  | .connecting | .settingUp | .accepting | .resolving =>
      Unserved s ∧ Refused config s.answered
  | .responding req response =>
      Unserved s ∧ Refused config s.answered ∧ ∃ padding, response = config.response req padding
  | .finishing admitted =>
      Unserved s ∧ if admitted then LetIn config s.answered else Refused config s.answered
  | .serving _ _ =>
      LetIn config s.answered ∧ s.udp.isSome = config.udpEnabled ∧
        ∀ udp, s.udp = some udp → udp.status = .running
  | .returned result =>
      (LetIn config s.answered ∨ Unserved s ∧ Refused config s.answered) ∧
        (∀ udp, s.udp = some udp → ∀ task ∈ udp.tasks, task.cancelled = true) ∧
        (config.udpEnabled = true → result ≠ .ok ())
  | .panicked => LetIn config s.answered

structure Stands (config : Config) (s : Connection ν) : Prop where
  answers : ∀ pair ∈ s.answered, ∃ padding, pair.2 = config.response pair.1 padding
  noUdp : config.udpEnabled = false → s.udp = none
  udpRuns : ∀ udp, s.udp = some udp → Runs udp
  stage : StageOk config s

variable {config : Config} {s t : Connection ν}

theorem LetIn.getLast? {answered : List (Request ν × Response)} (h : LetIn config answered) :
    ∃ pair, answered.getLast? = some pair ∧ config.admits pair.1 = true := by
  obtain ⟨before, pair, rfl, -, admitted⟩ := h
  exact ⟨pair, List.getLast?_concat, admitted⟩

theorem LetIn.dropLast {answered : List (Request ν × Response)} (h : LetIn config answered) :
    Refused config answered.dropLast := by
  obtain ⟨before, pair, rfl, refused, -⟩ := h
  rwa [List.dropLast_concat]

theorem Refused.dropLast {answered : List (Request ν × Response)} (h : Refused config answered) :
    Refused config answered.dropLast := fun pair mem => h pair (List.dropLast_subset _ mem)

/-- At every stage, either nothing was served or the last request was admitted. -/
theorem Stands.settled (h : Stands config s) :
    Refused config s.answered.dropLast ∧ (Unserved s ∨ LetIn config s.answered) := by
  have stage := h.stage
  unfold StageOk at stage
  split at stage
  · exact ⟨stage.2.dropLast, .inl stage.1⟩
  · exact ⟨stage.2.dropLast, .inl stage.1⟩
  · exact ⟨stage.2.dropLast, .inl stage.1⟩
  · exact ⟨stage.2.dropLast, .inl stage.1⟩
  · exact ⟨stage.2.1.dropLast, .inl stage.1⟩
  · refine ⟨?_, .inl stage.1⟩
    have last := stage.2
    split at last
    · exact last.dropLast
    · exact last.dropLast
  · exact ⟨stage.1.dropLast, .inr stage.1⟩
  · rcases stage.1 with admitted | ⟨unserved, refused⟩
    · exact ⟨admitted.dropLast, .inr admitted⟩
    · exact ⟨refused.dropLast, .inl unserved⟩
  · exact ⟨stage.dropLast, .inr stage⟩

theorem Stands.guarded (h : Stands config s) : Guarded config s where
  answers := by
    intro pair mem
    obtain ⟨padding, response⟩ := h.answers pair mem
    refine ⟨padding, ?_⟩
    rw [response, Config.response, ← admits_iff]
    by_cases admitted : config.admits pair.1 = true
    · exact .inl ⟨admitted, if_pos admitted⟩
    · exact .inr ⟨admitted, if_neg admitted⟩
  once := by
    intro pair mem has
    have refused := h.settled.1 pair mem
    rw [(admits_iff config pair.1).mpr has] at refused
    cases refused
  gate := by
    intro served
    rcases h.settled.2 with unserved | admitted
    · rcases served with uni | tcp | udp
      · exact absurd unserved.1 uni
      · exact absurd unserved.2.1 tcp
      · exact absurd unserved.2.2 udp
    · obtain ⟨pair, last, admitted⟩ := admitted.getLast?
      exact ⟨pair, last, (admits_iff config pair.1).mp admitted⟩
  noUdp := h.noUdp
  udpRuns := h.udpRuns
  released := by
    intro result at_ udp found task mem loose
    have stage := h.stage
    rw [StageOk, at_] at stage
    have cancelled := stage.2.1 udp found task mem
    rw [loose.2] at cancelled
    cases cancelled
  ends := by
    intro enabled at_
    have stage := h.stage
    rw [StageOk, at_] at stage
    exact stage.2.2 enabled rfl

theorem stands_start (config : Config) : Stands config (start : Connection ν) where
  answers := List.forall_mem_nil _
  noUdp _ := rfl
  udpRuns _ found := by cases found
  stage := ⟨⟨rfl, rfl, rfl⟩, List.forall_mem_nil _⟩

/-! ## Steps -/

theorem Runs.step {udp after : UdpLoop} (h : Runs udp) (event : UdpEvent)
    (taken : Hysteria2.step udp event = some after) : Runs after := by
  obtain ⟨now, events, ran⟩ := h
  refine ⟨now, events ++ [event], ?_⟩
  rw [List.foldlM_append, ran]
  simp [taken]

theorem Runs.iterate {udp : UdpLoop} {resolve : Resolve} {it : Iteration} (h : Runs udp)
    (running : udp.status = .running) : Runs (iterate resolve udp it).1 :=
  h.step (.iterate resolve it) (if_pos running)

/-- The end of the connection is two steps of the loop, or the second of them. -/
theorem Runs.cancelUdp {udp : UdpLoop} (h : Runs udp)
    (alive : ∀ fault, udp.status ≠ .panicked fault) :
    Runs (cancelUdp udp) := by
  cases at_ : udp.status with
  | running =>
      have dropped : Runs (udp.leave .returned) := h.step .dropped (if_pos at_)
      rw [Connection.cancelUdp, if_pos at_]
      have left : (udp.leave .returned).status = .returned := rfl
      exact dropped.step .cancelParent (by rw [Hysteria2.step, if_pos left])
  | returned =>
      rw [Connection.cancelUdp, if_neg (by rw [at_]; intro same; cases same)]
      exact h.step .cancelParent (if_pos at_)
  | panicked fault => exact absurd at_ (alive fault)

theorem cancelled_of_mem_cancelUdp {udp : UdpLoop} {task : RecvTask}
    (mem : task ∈ (cancelUdp udp).tasks) : task.cancelled = true := by
  obtain ⟨before, -, rfl⟩ := List.mem_map.mp mem
  rfl

/-- A connection that has let its client in comes to its end. -/
theorem Stands.conclude {result : IoResult Unit}
    (answers : ∀ pair ∈ s.answered, ∃ padding, pair.2 = config.response pair.1 padding)
    (noUdp : config.udpEnabled = false → s.udp = none)
    (udpRuns : ∀ udp, s.udp = some udp → Runs udp ∧ ∀ fault, udp.status ≠ .panicked fault)
    (admitted : LetIn config s.answered) (fails : config.udpEnabled = true → result ≠ .ok ()) :
    Stands config (s.conclude result) where
  answers := answers
  noUdp off := by
    show s.udp.map Connection.cancelUdp = none
    rw [noUdp off]
    rfl
  udpRuns := by
    intro udp found
    obtain ⟨before, was, rfl⟩ := Option.map_eq_some_iff.mp found
    exact (udpRuns before was).1.cancelUdp (udpRuns before was).2
  stage := by
    refine ⟨.inl admitted, ?_, fails⟩
    intro udp found task mem
    obtain ⟨before, -, rfl⟩ := Option.map_eq_some_iff.mp found
    exact cancelled_of_mem_cancelUdp mem

/-- A connection leaves before it has served anything. -/
theorem Stands.leave {e : IoError} {reason : Option String} (h : Stands config s)
    (unserved : Unserved s) (settled : LetIn config s.answered ∨ Refused config s.answered) :
    Stands config { s with stage := .returned (.error e), closed := reason } where
  answers := h.answers
  noUdp := h.noUdp
  udpRuns := h.udpRuns
  stage := by
    refine ⟨settled.imp_right fun refused => ⟨unserved, refused⟩, ?_, ?_⟩
    · intro udp found
      rw [show s.udp = none from unserved.2.2] at found
      cases found
    · intro _ same
      cases same

theorem Stands.serving {uni tcp : Bool} (h : Stands config s) (at_ : s.stage = .serving uni tcp) :
    LetIn config s.answered ∧ s.udp.isSome = config.udpEnabled ∧
      ∀ udp, s.udp = some udp → udp.status = .running := by
  have stage := h.stage
  rwa [StageOk, at_] at stage

theorem Stands.running {uni tcp : Bool} (h : Stands config s) (at_ : s.stage = .serving uni tcp)
    {udp : UdpLoop} (found : s.udp = some udp) :
    Runs udp ∧ ∀ fault, udp.status ≠ .panicked fault := by
  refine ⟨h.udpRuns udp found, ?_⟩
  intro fault panicked
  rw [(h.serving at_).2.2 udp found] at panicked
  cases panicked

theorem Stands.failed {uni tcp : Bool} {e : IoError} (h : Stands config s)
    (at_ : s.stage = .serving uni tcp) : Stands config (s.conclude (.error e)) := by
  refine .conclude h.answers h.noUdp (fun udp found => h.running at_ found) (h.serving at_).1 ?_
  intro _ same
  cases same

/-- A loop over streams returns; the last one ends the connection if there is no
UDP loop. -/
theorem Stands.join {uni tcp uni' tcp' : Bool} (h : Stands config s)
    (at_ : s.stage = .serving uni tcp) : Stands config (s.join uni' tcp') := by
  have serving := h.serving at_
  unfold Connection.join
  split
  · exact ⟨h.answers, h.noUdp, h.udpRuns, serving⟩
  · rename_i over_
    refine .conclude h.answers h.noUdp (fun udp found => h.running at_ found) serving.1 ?_
    intro enabled
    rw [← serving.2.1] at enabled
    simp [enabled] at over_

theorem Stands.finishing {admitted : Bool} (h : Stands config s)
    (at_ : s.stage = .finishing admitted) :
    Unserved s ∧ if admitted then LetIn config s.answered else Refused config s.answered := by
  have stage := h.stage
  rwa [StageOk, at_] at stage

theorem Stands.responding {req : Request ν} {response : Response} (h : Stands config s)
    (at_ : s.stage = .responding req response) : Unserved s ∧ Refused config s.answered ∧
      ∃ padding, response = config.response req padding := by
  have stage := h.stage
  rwa [StageOk, at_] at stage

/-- The response is sent, and its request admitted or refused. -/
theorem Stands.respond {req : Request ν} {response : Response} (h : Stands config s)
    (at_ : s.stage = .responding req response) : Stands config { s with
      stage := .finishing (config.admits req)
      answered := s.answered ++ [(req, response)] } := by
  obtain ⟨unserved, refused, padding, response_⟩ := h.responding at_
  refine ⟨?_, h.noUdp, h.udpRuns, ⟨unserved, ?_⟩⟩
  · intro pair mem
    rcases List.mem_append.mp mem with mem | mem
    · exact h.answers pair mem
    · obtain rfl := List.mem_singleton.mp mem
      exact ⟨padding, response_⟩
  · split
    · rename_i admitted
      exact ⟨s.answered, (req, response), rfl, refused, admitted⟩
    · rename_i admitted
      intro pair mem
      rcases List.mem_append.mp mem with mem | mem
      · exact refused pair mem
      · obtain rfl := List.mem_singleton.mp mem
        exact eq_false_of_ne_true admitted

theorem Stands.last {admitted : Bool} (h : Stands config s)
    (at_ : s.stage = .finishing admitted) :
    LetIn config s.answered ∨ Refused config s.answered := by
  have last := (h.finishing at_).2
  split at last
  · exact .inl last
  · exact .inr last

/-- The loops start. -/
theorem Stands.serve {now : Nat} (h : Stands config s) (admitted : LetIn config s.answered) :
    Stands config { s with
      stage := .serving true true
      udp := if config.udpEnabled then some (UdpLoop.initial now) else none } := by
  have initial (udp : UdpLoop)
      (found : (if config.udpEnabled then some (UdpLoop.initial now) else none) = some udp) :
      udp = UdpLoop.initial now := by
    split at found
    · exact (Option.some.inj found).symm
    · cases found
  refine ⟨h.answers, ?_, ?_, admitted, ?_, ?_⟩
  · intro off
    simp [off]
  · intro udp found
    rw [initial udp found]
    exact ⟨now, [], rfl⟩
  · cases config.udpEnabled <;> rfl
  · intro udp found
    rw [initial udp found]
    rfl

/-- An iteration of the UDP loop: it goes on, or ends the connection, or panics. -/
theorem Stands.iterate {uni tcp : Bool} {udp : UdpLoop} {resolve : Resolve} {it : Iteration}
    {e : IoError} (h : Stands config s) (at_ : s.stage = .serving uni tcp)
    (found : s.udp = some udp)
    (taken : (match (Hysteria2.iterate resolve udp it).1.status with
      | .running => some { s with udp := some (Hysteria2.iterate resolve udp it).1 }
      | .returned =>
          some ({ s with udp := some (Hysteria2.iterate resolve udp it).1 }.conclude (.error e))
      | .panicked _ => some { s with
          stage := .panicked
          udp := some (Hysteria2.iterate resolve udp it).1 }) = some t) :
    Stands config t := by
  obtain ⟨admitted, enabled, running⟩ := h.serving at_
  have runs : Runs (Hysteria2.iterate resolve udp it).1 :=
    (h.udpRuns udp found).iterate (running udp found)
  have noUdp (off : config.udpEnabled = false) : False := by
    rw [found, off] at enabled
    cases enabled
  split at taken
  case h_1 status =>
    obtain rfl := Option.some.inj taken
    refine ⟨h.answers, fun off => (noUdp off).elim, ?_, ?_⟩
    · rintro _ ⟨⟩
      exact runs
    · rw [StageOk, at_]
      refine ⟨admitted, ?_, ?_⟩
      · rw [← enabled, found]
        rfl
      · rintro _ ⟨⟩
        exact status
  case h_2 status =>
    obtain rfl := Option.some.inj taken
    refine .conclude h.answers (fun off => (noUdp off).elim) ?_ admitted ?_
    · rintro _ ⟨⟩
      refine ⟨runs, ?_⟩
      intro fault panicked
      rw [status] at panicked
      cases panicked
    · intro _ same
      cases same
  case h_3 =>
    obtain rfl := Option.some.inj taken
    refine ⟨h.answers, fun off => (noUdp off).elim, ?_, admitted⟩
    rintro _ ⟨⟩
    exact runs

/-- The end of a receive task changes nothing else. -/
theorem Stands.taskEnds {i : Nat} {udp : UdpLoop} (h : Stands config s) (found : s.udp = some udp) :
    Stands config { s with udp := some { udp with tasks := Spawn.finish i udp.tasks } } := by
  have served (unserved : Unserved s) : False := by
    rw [unserved.2.2] at found
    cases found
  refine ⟨h.answers, ?_, ?_, ?_⟩
  · intro off
    rw [h.noUdp off] at found
    cases found
  · rintro _ ⟨⟩
    exact (h.udpRuns udp found).step (.taskEnds i) rfl
  · have stage := h.stage
    unfold StageOk at stage ⊢
    cases at_ : s.stage with
    | connecting | settingUp | accepting | resolving | responding | finishing =>
        rw [at_] at stage
        exact (served stage.1).elim
    | serving uni tcp =>
        obtain ⟨admitted, enabled, running⟩ := h.serving at_
        refine ⟨admitted, ?_, ?_⟩
        · rw [← enabled, found]
          rfl
        · rintro _ ⟨⟩
          exact running udp found
    | returned result =>
        rw [at_] at stage
        obtain ⟨settled, cancelled, fails⟩ := stage
        refine ⟨settled.imp_right fun early => (served early.1).elim, ?_, fails⟩
        rintro _ ⟨⟩ task mem
        obtain ⟨j, get⟩ := List.mem_iff_getElem?.mp mem
        obtain ⟨before, was, rfl⟩ := Spawn.getElem?_finish.mp get
        have told := cancelled udp found before (List.mem_of_getElem? was)
        split
        · exact told
        · exact told
    | panicked =>
        rw [at_] at stage
        exact stage

theorem Stands.early (h : Stands config s) (at_ : s.stage.isEarly = true) :
    Unserved s ∧ Refused config s.answered := by
  have stage := h.stage
  unfold StageOk at stage
  split at stage <;> first | exact stage | (rename_i same; rw [same] at at_; cases at_)

theorem Stands.step {event : ConnectionEvent ν} (h : Stands config s)
    (taken : step config s event = some t) : Stands config t := by
  cases event with
  | connected answer | h3Ready answer =>
      simp only [Connection.step] at taken
      split at taken
      case h_3 => cases taken
      all_goals
        rename_i at_
        have early := h.early (by rw [at_]; rfl)
        obtain rfl := Option.some.inj taken
      · exact ⟨h.answers, h.noUdp, h.udpRuns, early⟩
      · exact h.leave early.1 (.inr early.2)
  | accepted answer =>
      simp only [Connection.step] at taken
      split at taken
      case h_4 => cases taken
      all_goals
        rename_i at_
        have early := h.early (by rw [at_]; rfl)
        obtain rfl := Option.some.inj taken
      · exact ⟨h.answers, h.noUdp, h.udpRuns, early⟩
      · exact h.leave early.1 (.inr early.2)
      · exact h.leave early.1 (.inr early.2)
  | resolved answer padding =>
      simp only [Connection.step] at taken
      split at taken
      case h_3 => cases taken
      all_goals
        rename_i at_
        have early := h.early (by rw [at_]; rfl)
        obtain rfl := Option.some.inj taken
      · exact ⟨h.answers, h.noUdp, h.udpRuns, early.1, early.2, padding, rfl⟩
      · exact h.leave early.1 (.inr early.2)
  | responded answer =>
      simp only [Connection.step] at taken
      split at taken
      case h_3 => cases taken
      case h_1 at_ =>
        exact Option.some.inj taken ▸ h.respond at_
      case h_2 at_ =>
        obtain ⟨unserved, refused, -⟩ := h.responding at_
        exact Option.some.inj taken ▸ h.leave unserved (.inr refused)
  | finished answer now =>
      simp only [Connection.step] at taken
      split at taken
      case h_4 => cases taken
      case h_1 at_ =>
        obtain rfl := Option.some.inj taken
        exact h.serve (h.finishing at_).2
      case h_2 at_ =>
        obtain rfl := Option.some.inj taken
        exact ⟨h.answers, h.noUdp, h.udpRuns, h.finishing at_⟩
      case h_3 at_ =>
        exact Option.some.inj taken ▸ h.leave (h.finishing at_).1 (h.last at_)
  | elapsed =>
      simp only [Connection.step] at taken
      split at taken
      case h_1 at_ | h_2 at_ =>
        have early := h.early (by rw [at_]; rfl)
        exact Option.some.inj taken ▸ h.leave early.1 (.inr early.2)
      case h_3 at_ =>
        obtain ⟨unserved, refused, -⟩ := h.responding at_
        exact Option.some.inj taken ▸ h.leave unserved (.inr refused)
      case h_4 at_ => exact Option.some.inj taken ▸ h.leave (h.finishing at_).1 (h.last at_)
      case h_5 => cases taken
  | uni answer | bi answer =>
      simp only [Connection.step] at taken
      split at taken
      case h_1 at_ =>
        obtain rfl := Option.some.inj taken
        refine ⟨h.answers, h.noUdp, h.udpRuns, ?_⟩
        rw [StageOk, at_]
        exact h.serving at_
      case h_2 at_ => exact Option.some.inj taken ▸ h.join at_
      case h_3 at_ => exact Option.some.inj taken ▸ h.failed at_
      case h_4 => cases taken
  | udp resolve it e =>
      simp only [Connection.step] at taken
      split at taken
      case h_1 at_ found =>
        exact h.iterate at_ found taken
      case h_2 => cases taken
  | taskEnds i =>
      obtain ⟨udp, found, rfl⟩ := Option.map_eq_some_iff.mp taken
      exact h.taskEnds found

/-- In every run of a connection nothing is served to a client that has not sent
the password, and no task of the connection runs on when it has returned. -/
theorem connection_guarded (config : Config) (events : List (ConnectionEvent ν)) :
    Transition.Always (step config) (Guarded config) start events :=
  Transition.always_of_invariant (fun _ => Stands.guarded) (fun _ _ _ => Stands.step)
    (stands_start config) events

/-! ## Passwords that can be sent -/

/-- What is documented of `HeaderValue`: `from_bytes` takes any visible ASCII
characters, and `to_str` yields the text of a value that has no others. -/
structure YieldsVisible (isVisible : UInt8 → Bool) (asBytes : ν → Bytes) : Prop where
  ascii : ∀ byte, isVisible byte = true → byte.toNat < 128
  fromBytes : ∀ bytes : Bytes, bytes.all isVisible = true → ∃ value, asBytes value = bytes
  toStr : ∀ value text, HeaderValue.toStr value = .ok text ↔
    (asBytes value).all isVisible = true ∧
      text = (asBytes value).map fun byte => Char.ofNat byte.toNat

/-- A character that a header can carry. -/
def Visible (isVisible : UInt8 → Bool) (c : Char) : Prop :=
  c.toNat < 128 ∧ isVisible (UInt8.ofNat c.toNat) = true

instance decidableVisible (isVisible : UInt8 → Bool) : DecidablePred (Visible isVisible) :=
  fun c => inferInstanceAs (Decidable (c.toNat < 128 ∧ isVisible (UInt8.ofNat c.toNat) = true))

section Documented

variable {isVisible : UInt8 → Bool} {asBytes : ν → Bytes}
  (documented : YieldsVisible isVisible asBytes)

theorem toNat_ofByte {byte : UInt8} : (Char.ofNat byte.toNat).toNat = byte.toNat := by
  have small : byte.toNat.isValidChar := .inl (by have := byte.toNat_lt; omega)
  rw [Char.ofNat, dif_pos small]
  rfl

theorem byte_of_visible {c : Char} (visible : Visible isVisible c) :
    (UInt8.ofNat c.toNat).toNat = c.toNat := by
  have := visible.1
  rw [UInt8.toNat_ofNat']
  omega

include documented in
theorem visible_of_hasPassword {req : Request ν} (h : HasPassword config req) :
    ∀ c ∈ config.password, Visible isVisible c := by
  obtain ⟨value, -, read⟩ := h.auth
  obtain ⟨visible, same⟩ := (documented.toStr value config.password).mp read
  intro c mem
  rw [same] at mem
  obtain ⟨byte, carried, rfl⟩ := List.mem_map.mp mem
  have seen := List.all_eq_true.mp visible byte carried
  rw [Visible, toNat_ofByte, UInt8.ofNat_toNat]
  exact ⟨documented.ascii byte seen, seen⟩

/-- A request with some value for the password. -/
def passwordRequest (value : ν) : Request ν where
  uri := "https://hysteria/auth"
  uriEq text := text == "https://hysteria/auth"
  method := "POST"
  headers name := if name = "hysteria-auth" then some value else none

include documented in
theorem exists_hasPassword (visible : ∀ c ∈ config.password, Visible isVisible c) :
    ∃ req : Request ν, HasPassword config req := by
  have all : (config.password.map fun c => UInt8.ofNat c.toNat).all isVisible = true := by
    rw [List.all_map, List.all_eq_true]
    exact fun c mem => (visible c mem).2
  have back : (config.password.map fun c => UInt8.ofNat c.toNat).map
      (fun byte => Char.ofNat byte.toNat) = config.password := by
    rw [List.map_map]
    refine (List.map_congr_left fun c mem => ?_).trans (List.map_id _)
    rw [Function.comp_apply, byte_of_visible (visible c mem), Char.ofNat_toNat, id]
  obtain ⟨value, bytes⟩ := documented.fromBytes _ all
  refine ⟨passwordRequest value, rfl, rfl, value, rfl, (documented.toStr value _).mpr ?_⟩
  rw [bytes]
  exact ⟨all, back.symm⟩

end Documented

theorem alphanumeric_letter : ∀ c ∈ ['a'], c.isAlphanum := by
  intro c mem
  rw [List.mem_singleton.mp mem]
  rfl

theorem length_letter : ['a'].length < 80 := by decide

def shortPadding : AsciiString :=
  ⟨['a'], List.cons_ne_nil 'a' [], length_letter, alphanumeric_letter⟩

/-- A client that logs in at once. -/
def logIn (req : Request ν) : List (ConnectionEvent ν) :=
  [.connected (.ok ()), .h3Ready (.ok ()), .accepted (.ok true),
    .resolved (.ok req) shortPadding, .responded (.ok ()), .finished (.ok ()) 0]

theorem logIn_serves {req : Request ν} (admitted : config.admits req = true) :
    (logIn req).foldlM (step config) start = some { (start : Connection ν) with
      stage := .serving true true
      answered := [(req, config.response req shortPadding)]
      udp := if config.udpEnabled then some (UdpLoop.initial 0) else none } := by
  simp [logIn, step, start, admitted]

/-- Some client is let in and served. -/
def Admissible (ν : Type) [HeaderValue ν] (config : Config) : Prop :=
  ∃ (events : List (ConnectionEvent ν)) (s : Connection ν) (uni tcp : Bool),
    events.foldlM (step config) start = some s ∧ s.stage = .serving uni tcp

/-- The password of a server lets clients in exactly if all its characters are
visible ASCII; with any other password nobody can log in. -/
theorem password_admits_iff (isVisible : UInt8 → Bool) (asBytes : ν → Bytes)
    (documented : YieldsVisible isVisible asBytes) (config : Config) :
    Admissible ν config ↔ ∀ c ∈ config.password, Visible isVisible c := by
  constructor
  · rintro ⟨events, s, uni, tcp, ran, at_⟩
    have along : Transition.Along (step config) (fun _ _ => True) start events :=
      Transition.along_of_forall (fun _ _ => trivial) start events
    have stands : Stands config s := Transition.invariant_of_run
      (fun _ _ _ h _ taken => Stands.step h taken) (stands_start config) along ran
    obtain ⟨pair, -, admitted⟩ := (stands.serving at_).1.getLast?
    exact visible_of_hasPassword documented ((admits_iff config pair.1).mp admitted)
  · intro visible
    obtain ⟨req, has⟩ := exists_hasPassword documented visible
    exact ⟨logIn req, _, true, true, logIn_serves ((admits_iff config req).mpr has), rfl⟩

/-- Space and what is to be seen behind it, and the tab. -/
def isVisibleAscii (byte : UInt8) : Bool := 32 ≤ byte && byte < 127 || byte == 9

/-- Bytes as values of headers. -/
instance headerBytes : HeaderValue Bytes where
  toStr value :=
    if value.all isVisibleAscii then .ok (value.map fun byte => Char.ofNat byte.toNat)
    else .error "failed to convert header to a str"

theorem yieldsVisible_bytes : YieldsVisible isVisibleAscii (id : Bytes → Bytes) where
  ascii byte visible := by
    simp only [isVisibleAscii, Bool.or_eq_true, Bool.and_eq_true, decide_eq_true_eq, beq_iff_eq,
      UInt8.le_iff_toNat_le, UInt8.lt_iff_toNat_lt, ← UInt8.toNat_inj] at visible
    simp only [UInt8.reduceToNat] at visible
    omega
  fromBytes bytes _ := ⟨bytes, rfl⟩
  toStr value text := by
    simp only [HeaderValue.toStr, id]
    split
    · rename_i visible
      simp [visible, eq_comm]
    · rename_i hidden
      simp [hidden]

/-- A password with a space is as good as any, one with an accent never is. -/
theorem accented_password_refused :
    Admissible Bytes ⟨['a', ' ', 'b'], true⟩ ∧ ¬Admissible Bytes ⟨['é'], true⟩ := by
  constructor
  · have visible : ∀ c ∈ ['a', ' ', 'b'], Visible isVisibleAscii c := by
      simp [Visible, isVisibleAscii]
    exact (password_admits_iff isVisibleAscii id yieldsVisible_bytes _).mpr visible
  · intro admissible
    have visible := (password_admits_iff isVisibleAscii id yieldsVisible_bytes _).mp admissible
    exact absurd (visible _ List.mem_cons_self).1 (by decide)

end Connection

end RustProxy.Hysteria2
