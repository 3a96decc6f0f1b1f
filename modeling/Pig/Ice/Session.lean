import Mathlib.Logic.Function.Basic
import Pig.Lib.Run
import Pig.Stun.Candidate

namespace Pig.Ice

open Go
open Stun

/-! One negotiation of a client and a server: on every candidate path each of
them has a binding agent, a goroutine that drives it and one that receives. -/

inductive Role where
  | client
  | server
  deriving DecidableEq, Repr

structure Endpoint where
  role : Role
  path : Nat
  deriving DecidableEq, Repr

def Endpoint.peer : Endpoint → Endpoint
  | ⟨.client, path⟩ => ⟨.server, path⟩
  | ⟨.server, path⟩ => ⟨.client, path⟩

structure IceCredentials where
  username : Bytes
  password : Bytes
  length_username : username.length = 12
  length_password : password.length = 12

def defaultIceTieBreaker : UInt64 := 0x12345678

def newControllingICEBindingAgentConfig (auth : IceAuth) (priority : UInt32) : BindingAgentConfig :=
  newICEBindingAgentConfig auth (some {
    priority
    useCandidate := false
    iceControlling := defaultIceTieBreaker
    iceControlled := 0 })

def newControlledICEBindingAgentConfig (auth : IceAuth) (priority : UInt32) : BindingAgentConfig :=
  newICEBindingAgentConfig auth (some {
    priority
    useCandidate := false
    iceControlling := 0
    iceControlled := defaultIceTieBreaker })

structure Setup where
  offer : IceCredentials
  answer : IceCredentials
  paths : Nat
  /-- The configuration of the agent. Agents that were cloned share one. -/
  configOf : Endpoint → Nat
  priority : Role → Nat → UInt32
  remoteAddr : Endpoint → Addr

namespace Setup

variable (setup : Setup)

def auth : Role → IceAuth
  | .client => {
      localUfrag := setup.offer.username
      localPassword := setup.offer.password
      remoteUfrag := setup.answer.username
      remotePassword := setup.answer.password }
  | .server => {
      localUfrag := setup.answer.username
      localPassword := setup.answer.password
      remoteUfrag := setup.offer.username
      remotePassword := setup.offer.password }

def config (role : Role) (index : Nat) : BindingAgentConfig :=
  match role with
  | .client => newControllingICEBindingAgentConfig (setup.auth .client)
      (setup.priority .client index)
  | .server => newControlledICEBindingAgentConfig (setup.auth .server)
      (setup.priority .server index)

end Setup

/-- The goroutine of a path: Connect, Bind with its first request and with the
one it sends after a sign of life, ICEWaitNominated on the server, and the
compare-and-swap. -/
inductive PathPhase where
  | ready
  | connected
  | built (request : Message) (retry : Bool)
  | waiting (retry : Bool)
  | retrying
  | bound
  | nominated
  | selected
  | finished
  deriving DecidableEq, Repr

def Role.swapping : Role → PathPhase
  | .client => .bound
  | .server => .nominated

inductive ReceivePhase where
  | reading
  | handling (message : Message)
  | resolving (message : Message)
  | flagging
  | noticing
  deriving DecidableEq, Repr

structure RequestContext where
  transactionID : FixedBytes 12
  result : Option Bool
  deriving DecidableEq, Repr

structure Agent where
  phase : PathPhase
  receive : ReceivePhase
  started : Bool
  connected : Bool
  alive : Bool
  request : Option RequestContext
  nominated : Bool
  deriving DecidableEq, Repr

inductive MainPhase where
  | gathering
  | failed
  | joined (path : Nat)
  | marked (path : Nat)
  | built (path : Nat) (request : Message)
  | sent (path : Nat)
  deriving DecidableEq, Repr

structure Session where
  agents : Endpoint → Agent
  configs : Role → Nat → BindingAgentConfig
  pointer : Role → Option Nat
  cancelled : Role → Bool
  /-- What was written on each path. It may arrive late, again or not at
  all. -/
  wire : Endpoint → List Bytes
  main : MainPhase

inductive SessionEvent where
  | connect (e : Endpoint) (ok : Bool)
  | build (e : Endpoint) (txID : FixedBytes 12)
  | write (e : Endpoint) (ok : Bool)
  | alive (e : Endpoint)
  | complete (e : Endpoint)
  | waitNominated (e : Endpoint) (ok : Bool)
  | select (e : Endpoint)
  | stopReceive (e : Endpoint)
  | deliver (e : Endpoint) (data : Slice)
  | handle (e : Endpoint) (written : Bool)
  | resolve (e : Endpoint)
  | flag (e : Endpoint)
  | notice (e : Endpoint)
  | cancel (role : Role)
  | join
  | mark
  | nominate (txID : FixedBytes 12)
  | writeNomination (ok : Bool)
  deriving DecidableEq, Repr

namespace Agent

def start : Agent where
  phase := .ready
  receive := .reading
  started := false
  connected := false
  alive := false
  request := none
  nominated := false

def finish (a : Agent) (close : Bool) : Agent :=
  { a with
    phase := .finished
    connected := a.connected && !close
    request := none }

def result (a : Agent) : Option Bool := a.request.bind (·.result)

end Agent

namespace Session

section

variable (algorithms : Algorithms) (setup : Setup)

def start : Session where
  agents _ := .start
  configs := setup.config
  pointer _ := none
  cancelled _ := false
  wire _ := []
  main := .gathering

variable (s : Session)

def setAgent (e : Endpoint) (a : Agent) : Session :=
  { s with agents := Function.update s.agents e a }

def send (e : Endpoint) (bytes : Bytes) : Session :=
  { s with wire := Function.update s.wire e (s.wire e ++ [bytes]) }

def config (e : Endpoint) : BindingAgentConfig := s.configs e.role (setup.configOf e)

def bindingAgent (e : Endpoint) : BindingAgent where
  remoteAddr := some (setup.remoteAddr e)
  requestOptions := some (s.config setup e).requestOptions
  handleOptions := (s.config setup e).handleOptions

def giveUp (e : Endpoint) : Session := s.setAgent e ((s.agents e).finish (e.role = .client))

def connect (e : Endpoint) (ok : Bool) : Option Session :=
  let a := s.agents e
  if a.phase = .ready ∧ e.path < setup.paths then
    if ok then
      some (s.setAgent e { a with
        phase := .connected
        started := true
        connected := true })
    else some (s.setAgent e { a with phase := .finished })
  else none

def build (e : Endpoint) (txID : FixedBytes 12) : Option Session :=
  let a := s.agents e
  let options := (s.config setup e).requestOptions
  let request (retry : Bool) : Session :=
    match buildBindingRequest algorithms (some options) txID with
    | .ok msg => s.setAgent e { a with
        phase := .built msg retry
        request := some ⟨txID, none⟩ }
    | .error _ => s.giveUp e
  match a.phase with
  | .connected => some (request false)
  | .retrying => some (if a.started then request true else s.giveUp e)
  | _ => none

def write (e : Endpoint) (ok : Bool) : Option Session :=
  let a := s.agents e
  match a.phase with
  | .built msg retry =>
    match msg.writeTo algorithms.crc32 with
    | .ok (_, bytes) =>
      if ok && a.connected then
        some ((s.send e bytes).setAgent e { a with phase := .waiting retry })
      else some (s.giveUp e)
    | .error _ => some (s.giveUp e)
  | _ => none

def bindReturns (e : Endpoint) (ok : Bool) : Session :=
  if ok then
    s.setAgent e { s.agents e with phase := .bound, request := none }
  else s.giveUp e

def alive (e : Endpoint) : Option Session :=
  let a := s.agents e
  if a.phase = .waiting false ∧ a.alive then
    match a.result with
    | some ok => some (s.bindReturns e ok)
    | none => some (s.setAgent e { a with phase := .retrying, request := none })
  else none

def complete (e : Endpoint) : Option Session :=
  let a := s.agents e
  match a.phase with
  | .waiting _ =>
    match a.result with
    | some ok => some (s.bindReturns e ok)
    | none => if s.cancelled e.role then some (s.giveUp e) else none
  | _ => none

/-- ICEWaitNominated of the server returns, because the agent is nominated or
because the context is done. -/
def waitNominated (e : Endpoint) (ok : Bool) : Option Session :=
  let a := s.agents e
  if e.role = .server ∧ a.phase = .bound then
    if (s.bindingAgent setup e).controlled then
      if ok then
        if a.nominated then some (s.setAgent e { a with phase := .nominated })
        else none
      else if s.cancelled .server then some (s.setAgent e (a.finish true))
      else none
    else some (s.setAgent e (a.finish true))
  else none

def select (e : Endpoint) : Option Session :=
  let a := s.agents e
  if a.phase = e.role.swapping then
    match s.pointer e.role with
    | none => some { s.setAgent e { a with phase := .selected } with
        pointer := Function.update s.pointer e.role (some e.path) }
    | some _ => some (s.setAgent e (a.finish true))
  else none

def stopReceive (e : Endpoint) : Option Session :=
  let a := s.agents e
  if a.phase = .selected ∧ a.receive = .reading ∧ (e.role = .client → s.main = .sent e.path) then
    some (s.setAgent e { a with started := false })
  else none

def deliver (e : Endpoint) (data : Slice) : Option Session :=
  let a := s.agents e
  if a.started ∧ a.connected ∧ a.receive = .reading ∧ data.contents ∈ s.wire e.peer then
    match decodeMessage data with
    | .ok msg => some (s.setAgent e { a with receive := .handling msg })
    | .error _ => some s
  else none

def responseBytes (agent : BindingAgent) (request : Message) : Option Bytes := do
  let remoteAddr ← agent.remoteAddr
  let response ← (processBindingRequest algorithms request remoteAddr
    (some agent.handleOptions) agent.requestOptions).toOption
  let (_, bytes) ← (response.writeTo algorithms.crc32).toOption
  return bytes

def handle (e : Endpoint) (written : Bool) : Option Session :=
  let a := s.agents e
  let agent := s.bindingAgent setup e
  match a.receive with
  | .handling msg =>
    if msg.isRequest then
      match agent.handleRequest algorithms msg (written && a.connected),
          responseBytes algorithms agent msg with
      | .ok nominates, some bytes =>
        some ((s.send e bytes).setAgent e { a with
          receive := if nominates then .flagging else .noticing })
      | _, _ => some (s.setAgent e { a with receive := .noticing })
    else if validateMethodAndClass msg.header.type methodBinding [classSuccessResponse,
        classErrorResponse] = .ok () ∧ a.request = some ⟨msg.header.transactionID, none⟩ ∧
        s.cancelled e.role = false then
      some (s.setAgent e { a with receive := .resolving msg })
    else some (s.setAgent e { a with receive := .noticing })
  | _ => none

/-- HandleResponse, for a request that may have been given up meanwhile. -/
def resolve (e : Endpoint) : Option Session :=
  let a := s.agents e
  match a.receive with
  | .resolving msg =>
    let txID := msg.header.transactionID
    let result := (processBindingResponse algorithms msg txID
      (some (s.config setup e).handleOptions)).isOk
    some (s.setAgent e { a with
      receive := .noticing
      request := a.request.map fun context =>
        if context.transactionID = txID then ⟨txID, some result⟩
        else context })
  | _ => none

def flag (e : Endpoint) : Option Session :=
  let a := s.agents e
  if a.receive = .flagging then
    some (s.setAgent e { a with receive := .noticing, nominated := true })
  else none

def notice (e : Endpoint) : Option Session :=
  let a := s.agents e
  if a.receive = .noticing then
    some (s.setAgent e { a with receive := .reading, alive := true })
  else none

def cancel (role : Role) : Session := { s with cancelled := Function.update s.cancelled role true }

def isDone : PathPhase → Bool
  | .selected => true
  | .finished => true
  | _ => false

def join : Option Session :=
  if s.main = .gathering ∧ ∀ path < setup.paths, isDone (s.agents ⟨.client, path⟩).phase = true then
    match s.pointer .client with
    | none => some { s with main := .failed }
    | some path => some { s with main := .joined path }
  else none

/-- USE-CANDIDATE is set in the configuration of the selected path, and with it
in that of its clones. -/
def mark : Option Session :=
  match s.main with
  | .joined path =>
    let index := setup.configOf ⟨.client, path⟩
    let config := s.configs .client index
    match config.requestOptions.ice with
    | none => some { s with main := .failed }
    | some ice =>
      if ice.iceControlling = 0 then some { s with main := .failed }
      else
        let options := { config.requestOptions with
          ice := some { ice with useCandidate := true } }
        some { s with
          main := .marked path
          configs := Function.update s.configs .client (Function.update (s.configs .client) index
              { config with requestOptions := options }) }
  | _ => none

def nominate (txID : FixedBytes 12) : Option Session :=
  match s.main with
  | .marked path =>
    let e : Endpoint := ⟨.client, path⟩
    let a := s.agents e
    let options := (s.config setup e).requestOptions
    if a.started then
      match buildBindingRequest algorithms (some options) txID with
      | .ok msg => some { s.setAgent e { a with
          request := some ⟨txID, none⟩ } with main := .built path msg }
      | .error _ => some { s with main := .failed }
    else some { s with main := .failed }
  | _ => none

def writeNomination (ok : Bool) : Option Session :=
  match s.main with
  | .built path msg =>
    let e : Endpoint := ⟨.client, path⟩
    match msg.writeTo algorithms.crc32 with
    | .ok (_, bytes) =>
      if ok && (s.agents e).connected then
        some { s.send e bytes with main := .sent path }
      else some { s with main := .failed }
    | .error _ => some { s with main := .failed }
  | _ => none

def step : SessionEvent → Option Session
  | .connect e ok => s.connect setup e ok
  | .build e txID => s.build algorithms setup e txID
  | .write e ok => s.write algorithms e ok
  | .alive e => s.alive e
  | .complete e => s.complete e
  | .waitNominated e ok => s.waitNominated setup e ok
  | .select e => s.select e
  | .stopReceive e => s.stopReceive e
  | .deliver e data => s.deliver e data
  | .handle e written => s.handle algorithms setup e written
  | .resolve e => s.resolve algorithms setup e
  | .flag e => s.flag e
  | .notice e => s.notice e
  | .cancel role => some (s.cancel role)
  | .join => s.join setup
  | .mark => s.mark setup
  | .nominate txID => s.nominate algorithms setup txID
  | .writeNomination ok => s.writeNomination algorithms ok

end

end Session

end Pig.Ice
