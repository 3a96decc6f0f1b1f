import Mathlib.Data.Rat.Defs
import Pig.Routing.Manager

namespace Pig.Settings

open Routing

/-! The settings as they are read from a file. A text that is missing is empty,
a number that is missing is zero, and numbers with a fraction are exact. -/

inductive TunnelDirection where
  | unset
  | connect
  | listen
  | unknown (text : String)
  deriving DecidableEq, Repr

def TunnelDirection.isValid : TunnelDirection → Bool
  | .connect => true
  | .listen => true
  | _ => false

def TunnelDirection.text : TunnelDirection → String
  | .unset => ""
  | .connect => "connect"
  | .listen => "listen"
  | .unknown text => text

abbrev TransportType := String

def transportQUIC : TransportType := "quic"
def transportUDP : TransportType := "udp"
def transportTLS : TransportType := "tls"
def transportWS : TransportType := "ws"
def transportICMP : TransportType := "icmp"
def transportTLSICMP : TransportType := "tls-in-icmp"
def transportDTLS : TransportType := "dtls"
def transportWG : TransportType := "wg"

def TransportType.isValid (t : TransportType) : Bool :=
  t ∈ [transportQUIC, transportTLS, transportWS, transportTLSICMP, transportDTLS, transportWG]

def TransportType.isICEProtocol (t : TransportType) : Bool :=
  t ∈ [transportWS, transportQUIC, transportDTLS, transportTLS, transportWG, transportTLSICMP]

inductive AuthType where
  | unset
  | none
  | jwt
  | oidc
  | oauth
  | unknown (text : String)
  deriving DecidableEq, Repr

structure AdapterConfig where
  tunnelAddress : List String := []
  mtu : Int := 0
  bindAdapter : String := ""
  queueSize : Int := 0
  deriving DecidableEq, Repr

def AdapterConfig.isZero (c : AdapterConfig) : Bool :=
  c.tunnelAddress = [] ∧ c.mtu = 0 ∧ c.bindAdapter = "" ∧ c.queueSize = 0

structure WredConfig where
  weightFactor : ℚ
  maxDropProbability : ℚ
  minThreshold : ℚ
  maxThreshold : ℚ
  deriving DecidableEq, Repr

structure ConnectTarget where
  address : String
  port : Int
  deriving DecidableEq, Repr

structure TLSConfig where
  certFile : String
  keyFile : String
  deriving DecidableEq, Repr

structure MTLSConfig where
  certFile : String
  keyFile : String
  deriving DecidableEq, Repr

structure WireGuardPeer where
  publicKey : String
  presharedKey : String
  keepalive : Int
  deriving DecidableEq, Repr

structure WireGuardConfig where
  privateKey : String := ""
  peers : List WireGuardPeer := []
  deriving DecidableEq, Repr

structure TrustConfig where
  mtls : Option MTLSConfig := Option.none
  wireGuard : Option WireGuardConfig := Option.none
  deriving DecidableEq, Repr

structure JWTAuth where
  publicKeySource : String
  token : String
  deriving DecidableEq, Repr

inductive ClaimElement where
  | text (value : String)
  | other (type : String)
  deriving DecidableEq, Repr

inductive ClaimMatcher where
  | regexp (pattern : String)
  | exact (values : List ClaimElement)
  | other (type : String)
  deriving DecidableEq, Repr

structure OAuthAuth where
  issuerURL : String
  clientID : String
  clientSecret : String
  redirectURL : String
  redirectPath : String
  disablePKCE : Bool
  claimMatchers : List (String × ClaimMatcher)
  deriving DecidableEq, Repr

structure AuthConfig where
  type : AuthType
  jwt : Option JWTAuth
  oidc : Option OAuthAuth
  oauth : Option OAuthAuth
  deriving DecidableEq, Repr

structure MQTTBrokerConfig where
  address : String
  clientID : String
  username : String
  password : String
  deriving DecidableEq, Repr

structure ICESignalingOpts where
  serverID : String := ""
  mqtt : Option MQTTBrokerConfig := Option.none
  deriving DecidableEq, Repr

structure ICEConfig where
  enabled : Bool
  protos : List String := []
  stunAddress : List String := []
  signaling : Option ICESignalingOpts := Option.none
  deriving DecidableEq, Repr

structure TunnelConfig where
  name : String
  direction : TunnelDirection
  adapter : Option AdapterConfig
  connect : ConnectTarget
  tls : TLSConfig
  streamCount : Int
  proto : TransportType
  idleTimeout : Int
  reconnectInterval : Int
  wred : WredConfig
  trust : Option TrustConfig
  auth : Option AuthConfig
  ice : Option ICEConfig
  deriving DecidableEq, Repr

structure RouteConfig where
  enabled : Bool
  routes : List ConfigRoute
  deriving DecidableEq, Repr

structure Config where
  logLevel : String
  adapter : AdapterConfig
  routeConfig : RouteConfig
  tunnels : List TunnelConfig
  stunAddress : List String
  mqttBroker : MQTTBrokerConfig
  deriving DecidableEq, Repr

def defaultMTU : Int := 1420
def defaultQueueSize : Int := 256
def defaultStreamCount : Int := 0
def defaultIdleTimeout : Int := 0
def defaultRetryInterval : Int := 5
def defaultWredWF : ℚ := 9
def defaultWredDP : ℚ := 1 / 10
def defaultWredThresh : ℚ := 1 / 2
def defaultWredMinThresh : ℚ := 1 / 4

def defaultICEBrokerAddress : String := "ssl://broker.hivemq.com:8883"
def defaultICEProtocol : TransportType := transportWS
def defaultICESTUNServer : String := "stun.nextcloud.com:443"

def defaultConnectBasePrefixV4 : String := "100.64.0.0/11"
def defaultListenBasePrefixV4 : String := "100.96.0.0/11"
def defaultConnectPrefixLengthV4 : Nat := 30
def defaultListenPrefixLengthV4 : Nat := 16

def defaultWGKeepaliveConnect : Int := 25

inductive EnvVar where
  | token
  | stun
  | mqttBroker
  | mqttClientID
  | mqttUsername
  | mqttPassword
  | wgPrivateKey
  | wgPeerPublicKey
  | wgPSK
  deriving DecidableEq, Repr

/-- What the settings are completed with: the variables of the process, and the
functions of other packages that are called. Errors are their texts. -/
structure Environment where
  getenv : EnvVar → String
  trimSpace : String → String
  quote : String → String
  isIPv4CIDR : String → Bool
  decodeBase64 : String → Except String Bytes
  parseURL : String → Except String Unit
  compileRegexp : String → Except String Unit
  /-- The network that is generated at the `draw`-th call. -/
  generateIPPrefix : (draw : Nat) → (base : String) → (length : Nat) → Except String String

def fill {Value : Type} [DecidableEq Value] (unset filler value : Value) : Value :=
  if value = unset then filler else value

theorem fill_iff {Value : Type} [DecidableEq Value] {unset filler value : Value}
    (after before : Value → Prop) (hfiller : after filler ↔ before unset)
    (hgiven : value ≠ unset → (after value ↔ before value)) :
    after (fill unset filler value) ↔ before value := by
  rw [fill]
  split
  · rename_i hunset
    rw [hunset]
    exact hfiller
  · rename_i hset
    exact hgiven hset

end Pig.Settings
