import Pig.Network.IPv4
import Pig.Stun.Integrity

namespace Pig.Stun

open Go

/-! Binding requests and responses: how a received one is checked, what is read
from it, and how a request is answered. -/

def messageMethod (msgType : UInt16) : UInt16 :=
  ((msgType &&& 0x3e00) >>> 2) ||| ((msgType &&& 0x00e0) >>> 1) ||| (msgType &&& 0x000f)

def messageClass (msgType : UInt16) : UInt16 :=
  ((msgType &&& 0x0100) >>> 7) ||| ((msgType &&& 0x0010) >>> 4)

def methodBinding : UInt16 := 0x0001
def classRequest : UInt16 := 0x0000
def classSuccessResponse : UInt16 := 0x0002
def classErrorResponse : UInt16 := 0x0003
def msgTypeBindingResponse : UInt16 := 0x0101

def isSuccessResponseType (msgType : UInt16) : Bool := msgType &&& 0x0110 == 0x0100

def isErrorResponseType (msgType : UInt16) : Bool := msgType &&& 0x0110 == 0x0110

inductive HeaderError where
  | typeBits
  | cookie
  | length
  deriving DecidableEq, Repr

inductive AddressError where
  | notFound
  | tooShort
  | tooShortIPv6
  | unsupportedFamily (family : UInt8)
  deriving DecidableEq, Repr

inductive BindingError where
  | method (got : UInt16)
  | messageClass (got : UInt16)
  | header (error : HeaderError)
  | integrity (error : IntegrityError)
  | fingerprint
  | transactionID
  | stunError (code : Int) (reason : Bytes)
  | errorCodeNotFound
  | unexpectedType (msgType : UInt16)
  | address (error : AddressError)
  | noAddress
  | parseAddress
  | invalidIP
  | decode (error : DecodeError)
  | build (error : Kind)
  | connectionNotSet
  | send
  deriving DecidableEq, Repr

inductive BindingFailure where
  | fault (fault : Fault)
  | error (error : BindingError)
  deriving DecidableEq, Repr

abbrev Binding := Except BindingFailure

namespace Binding

def checked {Value : Type} (value : Checked Value) : Binding Value := value.mapError .fault

def fail {Value : Type} (error : BindingError) : Binding Value := .error (.error error)

end Binding

def validateMethodAndClass (msgType expectedMethod : UInt16)
    (allowedClasses : List UInt16) : Binding Unit :=
  if messageMethod msgType ≠ expectedMethod then
    Binding.fail (.method (messageMethod msgType))
  else if messageClass msgType ∈ allowedClasses then .ok ()
  else Binding.fail (.messageClass (messageClass msgType))

def Header.validate (header : Header) : Except HeaderError Unit :=
  if header.type &&& 0xc000 ≠ 0 then .error .typeBits
  else if header.magicCookie ≠ Stun.magicCookie then .error .cookie
  else if header.length % 4 ≠ 0 then .error .length
  else .ok ()

structure IceConfig where
  priority : UInt32
  useCandidate : Bool
  iceControlling : UInt64
  iceControlled : UInt64
  deriving DecidableEq, Repr

structure BindingOptions where
  auth : Option AuthConfig
  ice : Option IceConfig
  requireFingerprint : Bool
  deriving DecidableEq, Repr

def BindingOptions.buildAuthAttributes (opts : BindingOptions) : List Attribute :=
  match opts.auth with
  | none => []
  | some auth =>
    (if auth.username ≠ [] then [.username auth.username] else []) ++
    (if auth.realm ≠ [] then [.realm auth.realm] else []) ++
    (if auth.nonce ≠ [] then [.nonce auth.nonce] else [])

def BindingOptions.buildIceAttributes (opts : BindingOptions) : List Attribute :=
  match opts.ice with
  | none => []
  | some ice =>
    (if ice.useCandidate then [.iceUseCandidate] else []) ++
    (if 0 < ice.iceControlling then [.iceControlling ice.iceControlling]
      else []) ++
    (if 0 < ice.iceControlled then [.iceControlled ice.iceControlled]
      else []) ++
    (if 0 < ice.priority then [.icePriority ice.priority] else [])

def decodeMappedAddress (value : Bytes) : Binding (Bytes × Nat) := do
  let v := Slice.ofBytes value
  let family ← Binding.checked (v.get 1)
  let port ← Binding.checked (v.sub 2 4)
  match family with
  | 0x01 => return (← Binding.checked (v.sub 4 8), port.toNatBE)
  | 0x02 => return (← Binding.checked (v.sub 4 20), port.toNatBE)
  | family => Binding.fail (.address (.unsupportedFamily family))

def magicCookieBytes : Bytes := Bytes.ofNatBE 4 magicCookie.toNat

def xorBytes (bytes mask : Bytes) : Bytes := List.zipWith (· ^^^ ·) bytes mask

def decodeXorMappedAddress (value : Bytes) (txID : FixedBytes 12) :
    Except AddressError (Bytes × Nat) :=
  if value.length < 8 then .error .tooShort
  else
    let port := (value.window 2 2).toNatBE ^^^ 0x2112
    match value.getD 1 0 with
    | 0x01 => .ok (xorBytes (value.window 4 4) magicCookieBytes, port)
    | 0x02 =>
      if value.length < 20 then .error .tooShortIPv6
      else
        let mask := magicCookieBytes ++ txID.bytes
        .ok (xorBytes (value.window 4 16) mask, port)
    | family => .error (.unsupportedFamily family)

namespace Message

/-- The XOR-MAPPED-ADDRESS if there is one, and the MAPPED-ADDRESS if not. -/
def mappedAddrPort (msg : Message) : Binding (Bytes × Nat) :=
  match msg.findAttribute .xorMappedAddress with
  | some (.xorMappedAddress value) =>
    (decodeXorMappedAddress value msg.header.transactionID).mapError
      fun error => .error (.address error)
  | _ =>
    match msg.findAttribute .mappedAddress with
    | some (.mappedAddress value) => decodeMappedAddress value
    | _ => Binding.fail (.address .notFound)

def parseError (msg : Message) : Binding (Int × Bytes) :=
  match msg.findAttribute .errorCode with
  | some (.errorCode code reason) => .ok (code, reason)
  | _ => Binding.fail .errorCodeNotFound

end Message

/-- An address of a connection. Of one that is none of the known types, what
its text parses to. -/
inductive Addr where
  | ip (address : Bytes)
  | tcp (address : Bytes) (port : Int)
  | udp (address : Bytes) (port : Int)
  | other (address : Bytes) (port : Option Int)
  deriving DecidableEq, Repr

def Addr.parse : Addr → Option (Bytes × Int)
  | .ip address => some (address, 0)
  | .tcp address port => some (address, port)
  | .udp address port => some (address, port)
  | .other address port => port.map fun port => (address, port)

/-- The whole attribute. An address that is neither of the two kinds has no
bytes to index. -/
def createXorMappedAddress (addr : Addr) (txID : FixedBytes 12) : Binding Bytes :=
  match addr.parse with
  | none => Binding.fail .parseAddress
  | some (ip, port) =>
    if ip = [] then Binding.fail .invalidIP
    else
      let xorPort := Bytes.ofNatBE 2 (UInt16.ofInt port ^^^ 0x2112).toNat
      let v4 := Network.to4 ip
      let v6 := Network.to16 ip
      let mask := magicCookieBytes ++ txID.bytes
      if v4 ≠ [] then
        .ok ([0x00, 0x20, 0, 8, 0, 0x01] ++ xorPort ++ xorBytes v4 mask)
      else if v6 ≠ [] then
        .ok ([0x00, 0x20, 0, 20, 0, 0x02] ++ xorPort ++ xorBytes v6 mask)
      else .error (.fault .index)

def newXorMappedAddressAttr (addr : Addr) (txID : FixedBytes 12) : Binding Attribute := do
  let attrBytes ← createXorMappedAddress addr txID
  (decodeFromBytes .xorMappedAddress (.ofBytes attrBytes)).mapError fun
    | .fault fault => .fault fault
    | .error error => .error (.decode error)

section

variable (algorithms : Algorithms)

def Message.validate (msg : Message) (opts : Option BindingOptions) : Binding Unit := do
  msg.header.validate.mapError fun error => .error (.header error)
  match opts with
  | none => return ()
  | some opts =>
    (validateShortTermIntegrity algorithms msg opts.auth).mapError
      fun error => .error (.integrity error)
    if opts.requireFingerprint ∧ !msg.verifyFingerprint algorithms then
      Binding.fail .fingerprint
    else return ()

def bindingResponse (remoteAddr : Addr) (txID : FixedBytes 12)
    (opts : Option BindingOptions) : Binding Message := do
  let xorAttr ← newXorMappedAddressAttr remoteAddr txID
  let attrs :=
    match opts with
    | none => [xorAttr]
    | some opts =>
      opts.buildAuthAttributes ++ opts.buildIceAttributes ++ [xorAttr]
  let response ← (newMessageWithTransactionID msgTypeBindingResponse attrs txID).mapError
      buildFailure
  match opts with
  | none => return response
  | some opts =>
    let response ←
      match opts.auth with
      | some auth =>
        if auth.password ≠ [] then
          (response.addMessageIntegrity algorithms auth.password).mapError integrityFailure
        else pure response
      | none => pure response
    return if opts.requireFingerprint then response.withFingerprint
      else response
where
  buildFailure : BuildFailure → BindingFailure
    | .fault fault => .fault fault
    | .refused last => .error (.build last)
  integrityFailure : Message.IntegrityFailure → BindingFailure
    | .build failure => buildFailure failure
    | .error error => .error (.integrity error)

def processBindingRequest (request : Message) (remoteAddr : Addr)
    (validateOpts opts : Option BindingOptions) : Binding Message := do
  validateMethodAndClass request.header.type methodBinding [classRequest]
  request.validate algorithms validateOpts
  bindingResponse algorithms remoteAddr request.header.transactionID opts

structure BindingResult where
  transactionID : FixedBytes 12
  ip : Bytes
  port : Nat
  deriving DecidableEq, Repr

def processBindingResponse (response : Message) (expectedTxID : FixedBytes 12)
    (validateOpts : Option BindingOptions) : Binding BindingResult := do
  response.validate algorithms validateOpts
  if response.header.transactionID ≠ expectedTxID then
    Binding.fail .transactionID
  else do
    validateMethodAndClass response.header.type methodBinding
      [classSuccessResponse, classErrorResponse]
    if isErrorResponseType response.header.type then do
      let (code, reason) ← response.parseError
      Binding.fail (.stunError code reason)
    else if isSuccessResponseType response.header.type then do
      let (ip, port) ← response.mappedAddrPort
      if ip = [] then Binding.fail .noAddress
      else return { transactionID := expectedTxID, ip, port }
    else Binding.fail (.unexpectedType response.header.type)

/-- An agent on a connection. Its options for received messages are never
missing. -/
structure BindingAgent where
  remoteAddr : Option Addr
  requestOptions : Option BindingOptions
  handleOptions : BindingOptions

def BindingAgent.controlled (agent : BindingAgent) : Bool :=
  match agent.handleOptions.ice with
  | none => false
  | some ice => ice.iceControlled ≠ 0

/-- Whether the agent is nominated by the request. The response is written
first, which may fail. -/
def BindingAgent.handleRequest (agent : BindingAgent) (request : Message)
    (sent : Bool) : Binding Bool :=
  match agent.remoteAddr with
  | none => Binding.fail .connectionNotSet
  | some remoteAddr => do
      let response ← processBindingRequest algorithms request remoteAddr
        (some agent.handleOptions) agent.requestOptions
      let _ ← (response.writeTo algorithms.crc32).mapError bindingResponse.buildFailure
      if !sent then Binding.fail .send
      else return agent.controlled && (request.findAttribute .iceUseCandidate).isSome

end

end Pig.Stun
