import Pig.Network.Ranges
import Pig.Stun.Exchange

namespace Pig.Stun

open Go

/-! Discovery of the behaviour of a NAT: binding requests are sent to a server
with two addresses and two ports, and the answers are compared. -/

inductive NATMappingBehavior where
  | unknown
  | endpointIndependent
  | addressDependent
  | addressAndPortDependent
  deriving DecidableEq, Repr

inductive NATFilteringBehavior where
  | unknown
  | endpointIndependent
  | addressDependent
  | addressAndPortDependent
  deriving DecidableEq, Repr

inductive NATConnectivity where
  | unknown
  | udpBlocked
  | openInternet
  | symmetricUDPFirewall
  | behindNAT
  deriving DecidableEq, Repr

inductive NATDiscoveryScope where
  | full
  | mappingOnly
  deriving DecidableEq, Repr

structure UDPAddr where
  ip : Bytes
  port : Nat
  deriving DecidableEq, Repr

structure NATDiscoveryResult where
  connectivity : NATConnectivity := .unknown
  mapping : NATMappingBehavior := .unknown
  filtering : NATFilteringBehavior := .unknown
  mappedAddress : Bytes := []
  mappedPort : Nat := 0
  primaryServer : UDPAddr
  alternateServer : Option UDPAddr := none
  mappingMappedPorts : Nat × Nat × Nat := (0, 0, 0)
  deriving DecidableEq, Repr

structure BindingTestOutcome where
  received : Bool
  mappedIP : Bytes := []
  mappedPort : Nat := 0
  msg : Option Message := none
  deriving DecidableEq, Repr

/-- The address that is given, which may be none, and the server's one. -/
structure NatDiscoverer where
  stunServer : UDPAddr
  localAddr : Option UDPAddr
  scope : NATDiscoveryScope
  deriving DecidableEq, Repr

def changeIPFlag : UInt32 := 0x00000004
def changePortFlag : UInt32 := 0x00000002

inductive Test where
  | connectivityI
  | filteringII
  | filteringIIWithoutNAT
  | filteringIII
  | mappingII
  | mappingIII
  deriving DecidableEq, Repr

inductive ProbeError where
  | build (cause : BindingFailure)
  | send (dest : UDPAddr) (cause : String)
  | read (cause : String)
  | decode (cause : Failure)
  | response (cause : BindingFailure)
  deriving DecidableEq, Repr

inductive OtherAddressError where
  | missing
  | tooShort
  | tooShortIPv4
  | tooShortIPv6
  | unsupportedFamily (family : UInt8)
  deriving DecidableEq, Repr

inductive DiscoveryError where
  | listen (cause : String)
  | test (test : Test) (cause : ProbeError)
  | noResponse (test : Test)
  | otherAddress (cause : OtherAddressError)
  deriving DecidableEq, Repr

structure UDPConn (State : Type) where
  localAddr : UDPAddr
  writeToUDP : State → Bytes → UDPAddr → Except String State
  readFromUDP : State → Except String (Option Bytes) × State

def isPrivateIP (ip : Bytes) : Bool := Network.isPrivate ip || Network.isLoopback ip ||
    Network.isLinkLocalUnicast ip

def isNatted (localAddr : UDPAddr) (mappedIP : Bytes) (mappedPort : Nat) : Bool :=
  if mappedIP = [] then false
  else if localAddr.ip = [] ∨ Network.isUnspecified localAddr.ip then
    !isPrivateIP mappedIP
  else if isPrivateIP localAddr.ip ∧ !isPrivateIP mappedIP then true
  else if !Network.ipEqual mappedIP localAddr.ip then true
  else mappedPort ≠ localAddr.port

def isMappedAddrEqual : Option BindingTestOutcome → Option BindingTestOutcome → Bool
  | some a, some b =>
    a.received && b.received && a.mappedIP ≠ [] && b.mappedIP ≠ [] && a.mappedPort = b.mappedPort &&
      Network.ipEqual a.mappedIP b.mappedIP
  | _, _ => false

def BindingTestOutcome.isReceived (outcome : Option BindingTestOutcome) : Bool :=
  outcome.any (·.received)

def getNatMappingBehavior (testI testII testIII : Option BindingTestOutcome) : NATMappingBehavior :=
  if !BindingTestOutcome.isReceived testII then .unknown
  else if isMappedAddrEqual testI testII then .endpointIndependent
  else if !BindingTestOutcome.isReceived testIII then .unknown
  else if isMappedAddrEqual testII testIII then .addressDependent
  else .addressAndPortDependent

def getNatFilteringBehavior (testII testIII : Option BindingTestOutcome) : NATFilteringBehavior :=
  if BindingTestOutcome.isReceived testII then .endpointIndependent
  else if BindingTestOutcome.isReceived testIII then .addressDependent
  else .addressAndPortDependent

def decodeOtherAddress (value : Bytes) : Except OtherAddressError (Bytes × Nat) :=
  if value.length < 4 then .error .tooShort
  else
    let port := (value.window 2 2).toNatBE
    match value.getD 1 0 with
    | 0x01 =>
      if value.length < 8 then .error .tooShortIPv4
      else .ok (value.window 4 4, port)
    | 0x02 =>
      if value.length < 20 then .error .tooShortIPv6
      else .ok (value.window 4 16, port)
    | family => .error (.unsupportedFamily family)

def getOtherAddressFromMessage (msg : Option Message) : Except OtherAddressError (Bytes × Nat) :=
  match msg.bind (·.findAttribute .otherAddress) with
  | some (.otherAddress value) => decodeOtherAddress value
  | _ => .error .missing

def readBuffer (datagram : Bytes) : Slice where
  array := datagram.take 1500 ++ List.replicate (1500 - datagram.length) 0
  len := min 1500 datagram.length
  len_le := by
    rw [List.length_append, List.length_take]
    omega

namespace NatDiscoverer

def bindingOpts : BindingOptions where
  auth := none
  ice := none
  requireFingerprint := false

section

variable (algorithms : Algorithms) {State : Type} (conn : UDPConn State)
  (txID : Test → FixedBytes 12)

def buildBindingRequest (txID : FixedBytes 12) (changeFlags : UInt32) : Binding Message := do
  let req ← Stun.buildBindingRequest algorithms (some bindingOpts) txID
  if changeFlags ≠ 0 then
    (req.appendAttribute (.changeRequest changeFlags)).mapError bindingResponse.buildFailure
  else return req

def readOutcome (txID : FixedBytes 12) : Option Bytes → Except ProbeError BindingTestOutcome
  | none => .ok { received := false }
  | some datagram => do
      let msg ← (decodeMessage (readBuffer datagram)).mapError .decode
      let result ← (processBindingResponse algorithms msg txID
        (some bindingOpts)).mapError .response
      return {
        received := true
        mappedIP := result.ip
        mappedPort := result.port
        msg := some msg }

def sendBindingTest (txID : FixedBytes 12) (dest : UDPAddr) (changeFlags : UInt32) (state : State) :
    Except ProbeError (BindingTestOutcome × State) := do
  let req ← (buildBindingRequest algorithms txID changeFlags).mapError .build
  let state ← (conn.writeToUDP state req.raw dest).mapError (.send dest)
  let read := conn.readFromUDP state
  let datagram ← read.1.mapError .read
  let outcome ← readOutcome algorithms txID datagram
  return (outcome, read.2)

def runTest (test : Test) (dest : UDPAddr) (changeFlags : UInt32)
    (state : State) : Except DiscoveryError (BindingTestOutcome × State) :=
  (sendBindingTest algorithms conn (txID test) dest changeFlags state).mapError (.test test)

def runConnectivityTest (primaryAddr : UDPAddr) (state : State) : Except DiscoveryError
  (BindingTestOutcome × State) := runTest algorithms conn txID .connectivityI primaryAddr 0 state

def runMappingTests (testI : BindingTestOutcome)
    (alternatePrimaryPortAddr alternateAddr : UDPAddr) (state : State) :
    Except DiscoveryError (BindingTestOutcome × Option BindingTestOutcome × State) := do
  let (testII, state) ← runTest algorithms conn txID .mappingII alternatePrimaryPortAddr 0 state
  if !testII.received then .error (.noResponse .mappingII)
  else if isMappedAddrEqual (some testI) (some testII) then
    return (testII, none, state)
  else do
    let (testIII, state) ← runTest algorithms conn txID .mappingIII alternateAddr 0 state
    if !testIII.received then .error (.noResponse .mappingIII)
    else return (testII, some testIII, state)

/-- These run before any request is sent to the alternate address. -/
def runFilteringTests (primaryAddr : UDPAddr) (state : State) : Except DiscoveryError
      (BindingTestOutcome × Option BindingTestOutcome × State) := do
  let (testII, state) ← runTest algorithms conn txID .filteringII primaryAddr
    (changeIPFlag ||| changePortFlag) state
  if testII.received then return (testII, none, state)
  else do
    let (testIII, state) ← runTest algorithms conn txID .filteringIII
      primaryAddr changePortFlag state
    return (testII, some testIII, state)

def getResultWhenNonNatted (primaryAddr : UDPAddr) (result : NATDiscoveryResult) (state : State) :
    Except DiscoveryError (NATDiscoveryResult × State) := do
  let (filterII, state) ← runTest algorithms conn txID .filteringIIWithoutNAT
    primaryAddr (changeIPFlag ||| changePortFlag) state
  if filterII.received then
    return ({ result with
      mapping := .endpointIndependent
      connectivity := .openInternet
      filtering := .endpointIndependent }, state)
  else
    return ({ result with
      mapping := .endpointIndependent
      connectivity := .symmetricUDPFirewall
      filtering := .addressAndPortDependent }, state)

def discoverFiltering (d : NatDiscoverer) (state : State) :
    Except DiscoveryError (NATFilteringBehavior × State) :=
  match d.scope with
  | .full => do
      let (filterII, filterIII, state) ← runFilteringTests algorithms conn txID d.stunServer state
      return (getNatFilteringBehavior (some filterII) filterIII, state)
  | .mappingOnly => return (.unknown, state)

def discoverBehavior (d : NatDiscoverer) (testI : BindingTestOutcome)
    (result : NATDiscoveryResult) (state : State) :
    Except DiscoveryError (NATDiscoveryResult × State) := do
  let (otherIP, otherPort) ← (getOtherAddressFromMessage testI.msg).mapError .otherAddress
  let alternateAddr : UDPAddr := { ip := otherIP, port := otherPort }
  let alternatePrimaryPortAddr : UDPAddr := { ip := otherIP, port := d.stunServer.port }
  let (filtering, state) ← d.discoverFiltering algorithms conn txID state
  let (mappingII, mappingIII, state) ← runMappingTests algorithms conn txID
    testI alternatePrimaryPortAddr alternateAddr state
  return ({ result with
    connectivity := .behindNAT
    alternateServer := some alternateAddr
    filtering := filtering
    mappingMappedPorts := (testI.mappedPort, mappingII.mappedPort,
        ((mappingIII.filter (·.received)).map (·.mappedPort)).getD 0)
    mapping :=
      getNatMappingBehavior (some testI) (some mappingII) mappingIII }, state)

def discover (d : NatDiscoverer) (state : State) :
    Except DiscoveryError (NATDiscoveryResult × State) := do
  let result : NATDiscoveryResult := { primaryServer := d.stunServer }
  let (testI, state) ← runConnectivityTest algorithms conn txID d.stunServer state
  if !testI.received then
    return ({ result with connectivity := .udpBlocked }, state)
  else
    let result : NATDiscoveryResult := { result with
      mappedAddress := testI.mappedIP
      mappedPort := testI.mappedPort
      mappingMappedPorts := (testI.mappedPort, 0, 0) }
    if !isNatted conn.localAddr testI.mappedIP testI.mappedPort then
      getResultWhenNonNatted algorithms conn txID d.stunServer result state
    else d.discoverBehavior algorithms conn txID testI result state

end

inductive UDPNetwork where
  | udp4
  | udp6
  deriving DecidableEq, Repr

def udpNetworkForAddr (addr : UDPAddr) : UDPNetwork :=
  if addr.ip ≠ [] ∧ Network.to4 addr.ip = [] then .udp6 else .udp4

def getListenAddr (d : NatDiscoverer) (primary : UDPAddr) : UDPAddr :=
  match d.localAddr with
  | some addr => addr
  | none =>
    { ip := if primary.ip ≠ [] ∧ Network.to4 primary.ip = [] then
        Network.ipv6zero else Network.ipv4zero
      port := 0 }

/-- `listenUDP` opens the socket. -/
def run (algorithms : Algorithms) {State : Type} (listenUDP : UDPNetwork → UDPAddr → Except String
    (UDPConn State)) (txID : Test → FixedBytes 12) (d : NatDiscoverer) (state : State) :
    Except DiscoveryError (NATDiscoveryResult × State) := do
  let conn ← (listenUDP (udpNetworkForAddr d.stunServer)
    (d.getListenAddr d.stunServer)).mapError .listen
  d.discover algorithms conn txID state

end NatDiscoverer

end Pig.Stun
