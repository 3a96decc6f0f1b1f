import Pig.Settings.Types

namespace Pig.Settings

open Go Routing

/-! Completing and checking the settings of a program. What is set in place in
the source is returned here; an error is its text. -/

def require (passes : Prop) [Decidable passes] (message : String) : Except String Unit :=
  if passes then .ok () else .error message

def checkIf (applies : Prop) [Decidable applies]
    (check : Except String Unit) : Except String Unit :=
  if applies then check else .ok ()

theorem require_eq_ok {passes : Prop} [Decidable passes] {message : String} {result : Unit} :
    require passes message = .ok result ↔ passes := by
  by_cases h : passes <;> simp [require, h]

def MQTTBrokerConfig.initializeConfig (env : Environment)
    (b : MQTTBrokerConfig) : MQTTBrokerConfig where
  address := fill "" defaultICEBrokerAddress
    (fill "" (env.getenv .mqttBroker) b.address)
  clientID := fill "" (env.getenv .mqttClientID) b.clientID
  username := fill "" (env.getenv .mqttUsername) b.username
  password := fill "" (env.getenv .mqttPassword) b.password

section

variable (env : Environment) (draw : Nat)

def generateTunnelAddress (base : String) (length : Nat) : Except String String :=
  (env.generateIPPrefix draw base length).mapError
    ("failed to generate tunnel adapter address: " ++ ·)

def generateAddressFor : TunnelDirection → Except String String
  | .connect => generateTunnelAddress env draw defaultConnectBasePrefixV4
      defaultConnectPrefixLengthV4
  | .listen => generateTunnelAddress env draw defaultListenBasePrefixV4 defaultListenPrefixLengthV4
  | _ => .ok "invalid Prefix"

def AdapterConfig.fillSizes (c : AdapterConfig) : AdapterConfig :=
  { c with
    mtu := fill 0 defaultMTU c.mtu
    queueSize := fill 0 defaultQueueSize c.queueSize }

def AdapterConfig.initializeTunnelAdapter (c : AdapterConfig)
    (direction : TunnelDirection) : Except String AdapterConfig :=
  if c.tunnelAddress ≠ [] then .ok c.fillSizes
  else do
    let generated ← generateAddressFor env draw direction
    .ok { c.fillSizes with tunnelAddress := [generated] }

def AdapterConfig.initializeDefaultAdapter (c : AdapterConfig) : Except String AdapterConfig :=
  if c.tunnelAddress.any env.isIPv4CIDR then .ok c.fillSizes
  else do
    let generated ← generateTunnelAddress env draw defaultConnectBasePrefixV4
      defaultConnectPrefixLengthV4
    .ok { c.fillSizes with tunnelAddress := c.tunnelAddress ++ [generated] }

variable {env draw} {c after : AdapterConfig}

theorem AdapterConfig.queueSize_of_fillSizes {complete : Prop} [Decidable complete]
    {generate : Except String String} {addresses : String → List String}
    (hafter : (if complete then .ok c.fillSizes
      else do
        let generated ← generate
        .ok { c.fillSizes with tunnelAddress := addresses generated }) =
      Except.ok after) :
    after.queueSize = fill 0 defaultQueueSize c.queueSize := by
  split at hafter
  · cases hafter
    rfl
  · obtain ⟨generated, -, hafter⟩ := bind_eq_ok.1 hafter
    cases hafter
    rfl

end

section

variable (env : Environment)

def validateWGKey (key field : String) : Except String Unit := do
  require (key ≠ "") s!"wireguard {field} not specified"
  let raw ← (env.decodeBase64 key).mapError (s!"wireguard {field} is not valid base64: " ++ ·)
  require (raw.length = 32) s!"wireguard {field} must decode to 32 bytes"

def WireGuardPeer.initializeConfig (direction : TunnelDirection)
    (peer : WireGuardPeer) : Except String WireGuardPeer := do
  validateWGKey env peer.publicKey "peer_public_key"
  checkIf (peer.presharedKey ≠ "")
    (validateWGKey env peer.presharedKey "preshared_key")
  .ok { peer with
    keepalive :=
      if direction = .connect then
        fill 0 defaultWGKeepaliveConnect peer.keepalive
      else peer.keepalive }

/-- With no peers there is one, named by the variables. -/
def WireGuardConfig.peersOrDefault (c : WireGuardConfig) : Except String (List WireGuardPeer) :=
  if c.peers ≠ [] then .ok c.peers
  else if env.getenv .wgPeerPublicKey = "" then
    .error "wireguard peer public key not specified"
  else
    .ok [{ publicKey := env.getenv .wgPeerPublicKey
           presharedKey := env.getenv .wgPSK
           keepalive := defaultWGKeepaliveConnect }]

def WireGuardConfig.initializeConfig (direction : TunnelDirection)
    (c : WireGuardConfig) : Except String WireGuardConfig := do
  let privateKey := fill "" (env.getenv .wgPrivateKey) c.privateKey
  validateWGKey env privateKey "private_key"
  let peers ← c.peersOrDefault env
  let peers ← peers.mapM (WireGuardPeer.initializeConfig env direction)
  .ok { privateKey := privateKey, peers := peers }

end

def MTLSConfig.initializeConfig (direction : TunnelDirection) (c : MTLSConfig) :
    Except String Unit :=
  if direction = .listen then .ok ()
  else require (c.certFile = "" ↔ c.keyFile = "")
    "both MTLS cert_file and key_file must be specified together"

def TLSConfig.initializeConfig (c : TLSConfig) : Except String Unit :=
  require (c.certFile = "" ↔ c.keyFile = "")
    "both TLS cert_file and key_file must be specified together"

section

variable (env : Environment)

def checkExactElement (index : Nat) : ClaimElement → Except String Unit
  | .text value =>
    require (env.trimSpace value ≠ "") s!"exact list element {index} is empty"
  | .other type =>
    .error s!"exact list element {index}: want string, got {type}"

def checkExactElements (index : Nat) : List ClaimElement → Except String Unit
  | [] => .ok ()
  | element :: rest => do
      checkExactElement env index element
      checkExactElements (index + 1) rest

def parseClaimMatcherValue : ClaimMatcher → Except String Unit
  | .regexp pattern => do
      require (env.trimSpace pattern ≠ "") "empty regex pattern"
      (env.compileRegexp (env.trimSpace pattern)).mapError ("regex: " ++ ·)
  | .exact values => do
      require (values ≠ []) "empty exact-value list"
      checkExactElements env 0 values
  | .other type =>
    .error ("want string (regex) or []string / []any (exact values), got " ++
      type)

def parseClaimMatchers : List (String × ClaimMatcher) → Except String Unit
  | [] => .ok ()
  | (claim, value) :: rest => do
      require (env.trimSpace claim ≠ "")
        "oauth: claim_matchers: empty claim name"
      (parseClaimMatcherValue env value).mapError
        (s!"oauth: claim_matchers[{env.quote (env.trimSpace claim)}]: " ++ ·)
      parseClaimMatchers rest

def OAuthAuth.validateForClient (c : OAuthAuth) : Except String Unit := do
  require (env.trimSpace c.issuerURL ≠ "") "oauth: IssuerURL is required"
  require (env.trimSpace c.clientID ≠ "") "oauth: ClientID is required"
  require (c.redirectPath = "" ∨ c.redirectPath.startsWith "/")
    "oauth: RedirectPath must start with /"
  checkIf (c.redirectURL ≠ "")
    ((env.parseURL c.redirectURL).mapError ("oauth: RedirectURL: " ++ ·))
  require (¬ (c.disablePKCE ∧ c.clientSecret = ""))
    "oauth: DisablePKCE with empty ClientSecret is unsafe for most providers"

def OAuthAuth.validateForServer (package : String) (c : OAuthAuth) : Except String Unit := do
  require (env.trimSpace c.issuerURL ≠ "")
    (package ++ ": IssuerURL is required")
  parseClaimMatchers env c.claimMatchers

def OAuthAuth.validate (package : String) (direction : TunnelDirection)
    (c : OAuthAuth) : Except String Unit := do
  checkIf (direction = .connect) (c.validateForClient env)
  checkIf (direction = .listen) (c.validateForServer env package)

def JWTAuth.initializeConfig (direction : TunnelDirection) (c : JWTAuth) :
    Except String JWTAuth := do
  require (¬ (direction = .listen ∧ c.publicKeySource = ""))
    "JWT public key source not specified"
  if direction ≠ .connect then .ok c
  else
    let token := fill "" (env.getenv .token) c.token
    require (token ≠ "") "JWT token not specified"
    .ok { c with token := token }

def AuthConfig.initializeConfig (direction : TunnelDirection) (c : AuthConfig) :
    Except String AuthConfig :=
  match c.type with
  | .unset => .ok { c with type := .none }
  | .none => .ok c
  | .jwt =>
    match c.jwt with
    | none => .error "JWT auth config not specified"
    | some jwt => do
        let jwt ← jwt.initializeConfig env direction
        .ok { c with jwt := some jwt }
  | .oidc =>
    match c.oidc with
    | none => .error "OIDC auth config not specified"
    | some oidc => do
        oidc.validate env "oidc" direction
        .ok c
  | .oauth =>
    match c.oauth with
    | none => .error "OAuth auth config not specified"
    | some oauth => do
        oauth.validate env "oauth" direction
        .ok c
  | .unknown text => .error ("invalid auth type: " ++ text)

end

namespace TunnelConfig

variable (env : Environment) (bindAdapter : String) (c : TunnelConfig)

def iceEnabled : Bool := c.ice.any (·.enabled)

def needsConnectTarget : Bool := c.connect.address = "" ∧
    ¬ (c.iceEnabled ∧ (c.ice.bind (·.signaling)).any (·.serverID ≠ ""))

def overICMP : Bool := c.proto = transportICMP ∨ c.proto = transportTLSICMP

def validateTransportAndTarget : Except String Unit := do
  require (¬ (c.direction = .connect ∧ c.needsConnectTarget)) "connect address not specified"
  if c.iceEnabled then .ok ()
  else
    require c.proto.isValid ("invalid transport: " ++ c.proto)
    require (¬ (c.overICMP ∧ bindAdapter = ""))
      ("bind adapter not specified, but required for " ++ c.proto)
    require (c.direction = .listen ∨ c.connect.port ≠ 0 ∨ c.overICMP) "connect port not specified"

def dotExpandICEProtos : List String :=
  let protos := [transportWS, transportQUIC, transportTLS, transportDTLS]
  let hasWGConfig := (c.trust.bind (·.wireGuard)).isSome
  let hasWGEnv := env.getenv .wgPrivateKey ≠ "" ∧
    env.getenv .wgPeerPublicKey ≠ ""
  if hasWGConfig ∨ hasWGEnv then protos ++ [transportWG] else protos

def expandProtos (protos : List String) : List String :=
  if protos ≠ [] then protos
  else if c.proto = "." then c.dotExpandICEProtos env
  else if c.proto ≠ "" then c.proto.splitOn ","
  else []

def checkICEProto (proto : String) : Except String Unit := do
  require (TransportType.isICEProtocol proto) ("invalid ICE protocol: " ++ proto)
  require (¬ (proto = transportTLSICMP ∧ bindAdapter = ""))
    ("bind adapter not specified, but required for " ++ proto)

def checkICEProtos : List String → Except String Unit
  | [] => .ok ()
  | proto :: rest => do
      checkICEProto bindAdapter proto
      checkICEProtos rest

def withWireGuard : Option TrustConfig → Option TrustConfig
  | none => some { wireGuard := some {} }
  | some trust =>
    some { trust with wireGuard := some (trust.wireGuard.getD {}) }

def initializeICE (globalStunServers : List String)
    (defaultMqttBroker : MQTTBrokerConfig) : Except String TunnelConfig :=
  match c.ice with
  | none => .ok c
  | some ice =>
    if ice.enabled then do
      let signaling := ice.signaling.getD {}
      let protos := c.expandProtos env ice.protos
      require (protos ≠ []) "no ICE protocols specified"
      checkICEProtos bindAdapter protos
      .ok { c with
        ice := some { ice with
          stunAddress := fill [] globalStunServers ice.stunAddress
          signaling := some { signaling with
            mqtt := some (signaling.mqtt.getD defaultMqttBroker) }
          protos := protos }
        trust :=
          if transportWG ∈ protos then withWireGuard c.trust else c.trust }
    else .ok c

def initializeMTLS (direction : TunnelDirection) : Option MTLSConfig → Except String Unit
  | none => .ok ()
  | some mtls => mtls.initializeConfig direction

def initializeWireGuard (direction : TunnelDirection) :
    Option WireGuardConfig → Except String (Option WireGuardConfig)
  | none => .ok none
  | some wireGuard => some <$> wireGuard.initializeConfig env direction

def initializeTrustConfig (direction : TunnelDirection) :
    Option TrustConfig → Except String (Option TrustConfig)
  | none => .ok none
  | some trust => do
      initializeMTLS direction trust.mtls
      let wireGuard ← initializeWireGuard env direction trust.wireGuard
      .ok (some { trust with wireGuard := wireGuard })

/-- The settings of WireGuard are only asked for with its transport; those of
ICE are there by now. -/
def initializeTrust : Except String TunnelConfig := do
  let trust ← initializeTrustConfig env c.direction c.trust
  if c.proto ≠ transportWG ∨ c.iceEnabled ∨ (trust.bind (·.wireGuard)).isSome then
    .ok { c with trust := trust }
  else
    let wireGuard ← WireGuardConfig.initializeConfig env c.direction {}
    .ok { c with
      trust := some { trust.getD {} with wireGuard := some wireGuard } }

def initializeAuth : Except String TunnelConfig :=
  match c.auth with
  | none => .ok c
  | some auth => do
      let auth ← auth.initializeConfig env c.direction
      .ok { c with auth := some auth }

def fillDefaults : TunnelConfig :=
  { c with
    ice := some (c.ice.getD { enabled := false })
    idleTimeout := fill 0 defaultIdleTimeout c.idleTimeout
    reconnectInterval := fill 0 defaultRetryInterval c.reconnectInterval
    wred :=
      { weightFactor := fill 0 defaultWredWF c.wred.weightFactor
        maxDropProbability := fill 0 defaultWredDP c.wred.maxDropProbability
        minThreshold := fill 0 defaultWredMinThresh c.wred.minThreshold
        maxThreshold := fill 0 defaultWredThresh c.wred.maxThreshold }
    streamCount := fill 0 defaultStreamCount c.streamCount
    proto := fill "" defaultICEProtocol c.proto }

def initializeConfig (globalStunServers : List String)
    (defaultMqttBroker : MQTTBrokerConfig) : Except String TunnelConfig := do
  let bindAdapter :=
    match c.adapter with
    | none => bindAdapter
    | some adapter => fill "" bindAdapter adapter.bindAdapter
  let c := c.fillDefaults
  c.validateTransportAndTarget bindAdapter
  c.tls.initializeConfig
  let c ← c.initializeICE env bindAdapter globalStunServers defaultMqttBroker
  let c ← c.initializeTrust env
  c.initializeAuth env

variable {env bindAdapter c} {after : TunnelConfig}

variable {globalStunServers : List String} {defaultMqttBroker : MQTTBrokerConfig}

theorem initializeICE_eq_ok
    (hafter : c.initializeICE env bindAdapter globalStunServers defaultMqttBroker = .ok after) :
    ∃ ice trust, after = { c with ice := ice, trust := trust } := by
  rw [initializeICE] at hafter
  split at hafter
  · cases hafter
    exact ⟨c.ice, c.trust, rfl⟩
  · split at hafter
    · obtain ⟨-, -, hafter⟩ := bind_eq_ok.1 hafter
      obtain ⟨-, -, hafter⟩ := bind_eq_ok.1 hafter
      cases hafter
      exact ⟨_, _, rfl⟩
    · cases hafter
      exact ⟨c.ice, c.trust, rfl⟩

theorem initializeTrust_eq_ok (hafter : c.initializeTrust env = .ok after) :
    ∃ trust, after = { c with trust := trust } := by
  obtain ⟨trust, -, hafter⟩ := bind_eq_ok.1 hafter
  split at hafter
  · cases hafter
    exact ⟨_, rfl⟩
  · obtain ⟨wireGuard, -, hafter⟩ := bind_eq_ok.1 hafter
    cases hafter
    exact ⟨_, rfl⟩

theorem initializeAuth_eq_ok (hafter : c.initializeAuth env = .ok after) :
    ∃ auth, after = { c with auth := auth } := by
  rw [initializeAuth] at hafter
  split at hafter
  · cases hafter
    exact ⟨c.auth, rfl⟩
  · obtain ⟨auth, -, hafter⟩ := bind_eq_ok.1 hafter
    cases hafter
    exact ⟨_, rfl⟩

theorem initializeConfig_eq_ok
    (hafter : c.initializeConfig env bindAdapter globalStunServers defaultMqttBroker = .ok after) :
    ∃ ice trust auth, after =
        { c.fillDefaults with
          ice := ice
          trust := trust
          auth := auth } := by
  obtain ⟨-, -, hafter⟩ := bind_eq_ok.1 hafter
  obtain ⟨-, -, hafter⟩ := bind_eq_ok.1 hafter
  obtain ⟨withICE, hICE, hafter⟩ := bind_eq_ok.1 hafter
  obtain ⟨withTrust, hTrust, hafter⟩ := bind_eq_ok.1 hafter
  obtain ⟨ice, trust, rfl⟩ := initializeICE_eq_ok hICE
  obtain ⟨trust, rfl⟩ := initializeTrust_eq_ok hTrust
  obtain ⟨auth, rfl⟩ := initializeAuth_eq_ok hafter
  exact ⟨ice, trust, auth, rfl⟩

end TunnelConfig

def routeTypePriority : ConfigRouteType → Nat
  | .bypass => 0
  | .static => 1
  | .tunnel => 2
  | .unknown _ => 3

def RouteConfig.initializeConfig (c : RouteConfig) : RouteConfig :=
  if c.enabled ∧ 2 ≤ c.routes.length then
    { c with
      routes := c.routes.mergeSort fun a b =>
        routeTypePriority a.type ≤ routeTypePriority b.type }
  else c

namespace Config

variable (env : Environment) (c : Config)

def hasDefaultOrConnectTunnels : Bool := c.tunnels.any fun tunnel =>
    tunnel.direction = .unset ∨ tunnel.direction = .connect

def adapterForTunnel (shared : AdapterConfig) (tunnel : TunnelConfig) : Option AdapterConfig :=
  if tunnel.direction = .listen then tunnel.adapter
  else some (tunnel.adapter.getD shared)

def initializeOwnAdapter (draw : Nat) (direction : TunnelDirection)
    (adapter : Option AdapterConfig) :
    Except String (Option AdapterConfig) :=
  match direction, adapter with
  | .listen, adapter =>
    some <$> (adapter.getD {}).initializeTunnelAdapter env draw .listen
  | .connect, some adapter =>
    some <$> adapter.initializeTunnelAdapter env draw .connect
  | _, adapter => .ok adapter

def boundAdapter (i : Nat) (name : String) : Option AdapterConfig → Except String String
  | none => .error s!"tunnel {i}: adapter is not configured for tunnel {name}"
  | some adapter =>
    if adapter.isZero then
      .error s!"tunnel {i}: adapter is not configured for tunnel {name}"
    else .ok adapter.bindAdapter

def initializeTunnel (shared : AdapterConfig) (stunAddress : List String)
    (mqttBroker : MQTTBrokerConfig) (i : Nat) (tunnel : TunnelConfig) :
    Except String TunnelConfig := do
  let direction := fill .unset .connect tunnel.direction
  require direction.isValid s!"tunnel {i}: invalid direction: {direction.text}"
  let name := fill "" s!"tunnel-{i}" tunnel.name
  let adapter ← (initializeOwnAdapter env (i + 1) direction
    tunnel.adapter).mapError (s!"tunnel {i}: " ++ ·)
  let tunnel := { tunnel with direction := direction, name := name, adapter := adapter }
  let bindAdapter ← boundAdapter i name (adapterForTunnel shared tunnel)
  (tunnel.initializeConfig env bindAdapter stunAddress mqttBroker).mapError (s!"tunnel {i}: " ++ ·)

def initializeTunnels (shared : AdapterConfig) (stunAddress : List String)
    (mqttBroker : MQTTBrokerConfig) :
    Nat → List TunnelConfig → Except String (List TunnelConfig)
  | _, [] => .ok []
  | i, tunnel :: rest => do
      let tunnel ← initializeTunnel env shared stunAddress mqttBroker i tunnel
      let rest ← initializeTunnels shared stunAddress mqttBroker (i + 1) rest
      .ok (tunnel :: rest)

def stunServers : List String := fill [] [defaultICESTUNServer] (fill []
      ((((env.getenv .stun).splitOn ",").map env.trimSpace).filter (· ≠ ""))
      c.stunAddress)

def initializeShared : Except String AdapterConfig :=
  if c.hasDefaultOrConnectTunnels ∨ ¬ c.adapter.isZero then
    c.adapter.initializeDefaultAdapter env 0
  else .ok c.adapter

def initializeConfig : Except String Config := do
  let stunAddress := c.stunServers env
  let mqttBroker := c.mqttBroker.initializeConfig env
  let adapter ← c.initializeShared env
  let tunnels ← initializeTunnels env adapter stunAddress mqttBroker 0 c.tunnels
  .ok
    { logLevel := fill "" "info" c.logLevel
      adapter := adapter
      routeConfig := c.routeConfig.initializeConfig
      tunnels := tunnels
      stunAddress := stunAddress
      mqttBroker := mqttBroker }

structure Completed (tunnel after : TunnelConfig) : Prop where
  direction : after.direction = fill .unset .connect tunnel.direction
  valid : after.direction.isValid
  wred : after.wred = tunnel.fillDefaults.wred
  adapter : ∃ draw, initializeOwnAdapter env draw after.direction tunnel.adapter = .ok after.adapter

variable {env c} {shared : AdapterConfig} {stunAddress : List String}
  {mqttBroker : MQTTBrokerConfig}

theorem completed_initializeTunnel {i : Nat} {tunnel after : TunnelConfig}
    (hafter : initializeTunnel env shared stunAddress mqttBroker i tunnel = .ok after) :
    Completed env tunnel after := by
  obtain ⟨_, hvalid, hafter⟩ := bind_eq_ok.1 hafter
  obtain ⟨adapter, hadapter, hafter⟩ := bind_eq_ok.1 hafter
  rw [mapError_ok_iff] at hadapter
  obtain ⟨bindAdapter, -, hafter⟩ := bind_eq_ok.1 hafter
  rw [mapError_ok_iff] at hafter
  obtain ⟨ice, trust, auth, rfl⟩ := TunnelConfig.initializeConfig_eq_ok hafter
  exact ⟨rfl, require_eq_ok.1 hvalid, rfl, i + 1, hadapter⟩

theorem completed_initializeTunnels {i : Nat} {tunnels after : List TunnelConfig}
    (hafter : initializeTunnels env shared stunAddress mqttBroker i tunnels = .ok after) :
    List.Forall₂ (Completed env) tunnels after := by
  induction tunnels generalizing i after with
  | nil =>
    cases hafter
    exact .nil
  | cons tunnel rest ih =>
    obtain ⟨first, hfirst, hafter⟩ := bind_eq_ok.1 hafter
    obtain ⟨others, hothers, hafter⟩ := bind_eq_ok.1 hafter
    cases hafter
    exact .cons (completed_initializeTunnel hfirst) (ih hothers)

theorem completed_of_initializeConfig {after : Config}
    (hafter : c.initializeConfig env = .ok after) :
    c.initializeShared env = .ok after.adapter ∧
      List.Forall₂ (Completed env) c.tunnels after.tunnels := by
  obtain ⟨adapter, hadapter, hafter⟩ := bind_eq_ok.1 hafter
  obtain ⟨tunnels, htunnels, hafter⟩ := bind_eq_ok.1 hafter
  cases hafter
  exact ⟨hadapter, completed_initializeTunnels htunnels⟩

theorem direction_eq_listen {tunnel after : TunnelConfig} (completed : Completed env tunnel after)
    (hlisten : tunnel.direction = .listen) : after.direction = .listen := by
  rw [completed.direction, hlisten]
  rfl

theorem direction_eq_connect {tunnel after : TunnelConfig} (completed : Completed env tunnel after)
    (hlisten : tunnel.direction ≠ .listen) :
    after.direction = .connect ∧ (tunnel.direction = .unset ∨ tunnel.direction = .connect) := by
  have hvalid := completed.valid
  rw [completed.direction, fill] at *
  cases hdirection : tunnel.direction <;> simp_all [TunnelDirection.isValid]

def queueSizeOf (c : Config) (tunnel : TunnelConfig) : Int :=
  ((adapterForTunnel c.adapter tunnel).getD {}).queueSize

theorem queueSize_adapterForTunnel {after : Config} {tunnel result : TunnelConfig}
    (hshared : c.initializeShared env = .ok after.adapter) (htunnel : tunnel ∈ c.tunnels)
    (completed : Completed env tunnel result) :
    ∃ adapter, adapterForTunnel after.adapter result = some adapter ∧ adapter.queueSize =
        fill 0 defaultQueueSize (queueSizeOf c tunnel) := by
  obtain ⟨draw, hown⟩ := completed.adapter
  by_cases hlisten : tunnel.direction = .listen
  · have hresult := direction_eq_listen completed hlisten
    rw [hresult] at hown
    rw [adapterForTunnel, if_pos hresult, queueSizeOf, adapterForTunnel, if_pos hlisten]
    obtain ⟨own, hown, hafter⟩ := map_eq_ok.1 hown
    exact ⟨own, hafter.symm, AdapterConfig.queueSize_of_fillSizes hown⟩
  · obtain ⟨hresult, hdirection⟩ := direction_eq_connect completed hlisten
    rw [initializeShared, if_pos (.inl (List.any_eq_true.2
      ⟨tunnel, htunnel, decide_eq_true hdirection⟩))] at hshared
    have hsize := AdapterConfig.queueSize_of_fillSizes hshared
    rw [hresult] at hown
    rw [adapterForTunnel, hresult, if_neg (by decide), queueSizeOf,
      adapterForTunnel, if_neg hlisten]
    refine ⟨_, rfl, ?_⟩
    cases hbefore : tunnel.adapter with
    | none =>
      rw [hbefore] at hown
      rw [← Except.ok.inj hown]
      exact hsize
    | some before =>
      rw [hbefore] at hown
      obtain ⟨own, hown, hresult⟩ := map_eq_ok.1 hown
      rw [← hresult]
      exact AdapterConfig.queueSize_of_fillSizes hown

end Config

end Pig.Settings
