import Pig.Settings.Initialize

namespace Pig.Settings

open Go Routing

/-- What is generated for the shared adapter reads as an IPv4 network. -/
def Environment.GeneratesIPv4 (env : Environment) : Prop := ∀ draw text, env.generateIPPrefix draw
  defaultConnectBasePrefixV4 defaultConnectPrefixLengthV4 = .ok text → env.isIPv4CIDR text = true

variable {Value : Type}

@[simp] theorem fill_fill [DecidableEq Value] (unset filler value : Value) :
    fill unset filler (fill unset filler value) = fill unset filler value := by
  unfold fill
  split_ifs <;> simp_all

theorem fill_twice [DecidableEq Value] (unset first second value : Value) :
    fill unset second (fill unset first (fill unset second (fill unset first value))) =
      fill unset second (fill unset first value) := by
  unfold fill
  split_ifs <;> simp_all

theorem mapM_again {next : Value → Except String Value} {list results : List Value}
    (hnext : ∀ value result, next value = .ok result → next result = .ok result)
    (hresults : list.mapM next = .ok results) : results.mapM next = .ok results := by
  rw [mapM_eq_ok] at hresults ⊢
  induction hresults with
  | nil => exact .nil
  | cons hvalue _ ih => exact .cons (hnext _ _ hvalue) ih

theorem MQTTBrokerConfig.initializeConfig_again (env : Environment) (b : MQTTBrokerConfig) :
    (b.initializeConfig env).initializeConfig env = b.initializeConfig env := by
  simp only [MQTTBrokerConfig.initializeConfig, fill_fill, fill_twice]

theorem RouteConfig.initializeConfig_again (c : RouteConfig) :
    c.initializeConfig.initializeConfig = c.initializeConfig := by
  by_cases hsorts : c.enabled ∧ 2 ≤ c.routes.length
  · have hsorted := @List.pairwise_mergeSort _ (fun a b : ConfigRoute =>
      routeTypePriority a.type ≤ routeTypePriority b.type) (by grind) (by grind) c.routes
    simp [RouteConfig.initializeConfig, hsorts, List.mergeSort_of_pairwise hsorted]
  · simp [RouteConfig.initializeConfig, hsorts]

section

variable {env : Environment} {draw : Nat} {direction : TunnelDirection}

theorem AdapterConfig.fillSizes_again (c : AdapterConfig) :
    c.fillSizes.fillSizes = c.fillSizes := by
  simp [fillSizes]

theorem AdapterConfig.initializeTunnelAdapter_again {c after : AdapterConfig}
    (hafter : c.initializeTunnelAdapter env draw direction = .ok after) (other : Environment) :
    after.initializeTunnelAdapter other draw direction = .ok after := by
  rw [initializeTunnelAdapter] at hafter
  split at hafter
  · next hgiven =>
      cases hafter
      exact (if_pos hgiven).trans (congrArg _ c.fillSizes_again)
  · obtain ⟨generated, -, hafter⟩ := bind_eq_ok.1 hafter
    cases hafter
    simp [initializeTunnelAdapter, fillSizes]

theorem WireGuardPeer.initializeConfig_again {peer after : WireGuardPeer}
    (hafter : peer.initializeConfig env direction = .ok after) :
    after.initializeConfig env direction = .ok after := by
  obtain ⟨_, hpublic, hafter⟩ := bind_eq_ok.1 hafter
  obtain ⟨_, hshared, hafter⟩ := bind_eq_ok.1 hafter
  cases hafter
  refine bind_eq_ok.2 ⟨_, hpublic, bind_eq_ok.2 ⟨_, hshared, ?_⟩⟩
  split <;> simp

theorem WireGuardConfig.initializeConfig_again {c after : WireGuardConfig}
    (hafter : c.initializeConfig env direction = .ok after) :
    after.initializeConfig env direction = .ok after := by
  obtain ⟨_, hkey, hafter⟩ := bind_eq_ok.1 hafter
  obtain ⟨given, hgiven, hafter⟩ := bind_eq_ok.1 hafter
  obtain ⟨peers, hpeers, hafter⟩ := bind_eq_ok.1 hafter
  cases hafter
  have hne : peers ≠ [] := by
    rintro rfl
    rw [List.forall₂_nil_right_iff.1 (mapM_eq_ok.1 hpeers), peersOrDefault] at hgiven
    split at hgiven
    · next hnil => exact hnil (Except.ok.inj hgiven)
    · split at hgiven <;> cases hgiven
  have hsame := mapM_again (fun _ _ => WireGuardPeer.initializeConfig_again) hpeers
  simp only [initializeConfig, fill_fill, hkey, ok_bind, peersOrDefault, if_pos hne, hsame]

theorem JWTAuth.initializeConfig_again {c after : JWTAuth}
    (hafter : c.initializeConfig env direction = .ok after) :
    after.initializeConfig env direction = .ok after := by
  obtain ⟨_, hsource, hafter⟩ := bind_eq_ok.1 hafter
  split at hafter
  · next hother =>
      cases hafter
      exact bind_eq_ok.2 ⟨_, hsource, if_pos hother⟩
  · next hconnect =>
      obtain ⟨_, htoken, hafter⟩ := bind_eq_ok.1 hafter
      cases hafter
      simp only [initializeConfig, hsource, ok_bind, if_neg hconnect, fill_fill, htoken]

theorem AuthConfig.initializeConfig_again {c after : AuthConfig}
    (hafter : c.initializeConfig env direction = .ok after) :
    after.initializeConfig env direction = .ok after := by
  unfold AuthConfig.initializeConfig at hafter
  split at hafter
  · cases hafter
    rfl
  · next htype =>
      cases hafter
      simp [AuthConfig.initializeConfig, htype]
  · next htype =>
      split at hafter
      · cases hafter
      · obtain ⟨jwt, hjwt, hafter⟩ := bind_eq_ok.1 hafter
        cases hafter
        simp [AuthConfig.initializeConfig, htype, JWTAuth.initializeConfig_again hjwt]
  · next htype =>
      split at hafter
      · cases hafter
      · next oidc hoidc =>
          obtain ⟨_, hvalid, hafter⟩ := bind_eq_ok.1 hafter
          cases hafter
          simp [AuthConfig.initializeConfig, htype, hoidc, hvalid]
  · next htype =>
      split at hafter
      · cases hafter
      · next oauth hoauth =>
          obtain ⟨_, hvalid, hafter⟩ := bind_eq_ok.1 hafter
          cases hafter
          simp [AuthConfig.initializeConfig, htype, hoauth, hvalid]
  · cases hafter

end

namespace TunnelConfig

variable {env : Environment} {bindAdapter : String} {globalStunServers : List String}
  {defaultMqttBroker : MQTTBrokerConfig} {c after : TunnelConfig}

def hasWireGuard (trust : Option TrustConfig) : Bool := (trust.bind (·.wireGuard)).isSome

theorem withWireGuard_of_has {trust : Option TrustConfig} (hhas : hasWireGuard trust = true) :
    withWireGuard trust = trust := by
  obtain _ | ⟨mtls, _ | wireGuard⟩ := trust
  · cases hhas
  · cases hhas
  · rfl

/-- Whatever is done later to the authentication, and to the trust as long as
WireGuard is not taken out of it. What is asked of the target does not depend
on the signaling that was added. -/
theorem initializeICE_again
    (hafter : c.initializeICE env bindAdapter globalStunServers defaultMqttBroker = .ok after) :
    (∀ trust auth, (hasWireGuard after.trust = true → hasWireGuard trust = true) →
      initializeICE env bindAdapter { after with trust := trust, auth := auth } globalStunServers
        defaultMqttBroker = .ok { after with trust := trust, auth := auth }) ∧
      after.ice.isSome = c.ice.isSome ∧ after.iceEnabled = c.iceEnabled ∧
      after.needsConnectTarget = c.needsConnectTarget := by
  rw [initializeICE] at hafter
  split at hafter
  · next hice =>
      cases hafter
      simp [initializeICE, hice]
  · next ice hice =>
      split at hafter
      · next henabled =>
          generalize c.expandProtos env ice.protos = protos at hafter
          obtain ⟨_, hsome, hafter⟩ := bind_eq_ok.1 hafter
          obtain ⟨_, hchecked, hafter⟩ := bind_eq_ok.1 hafter
          cases hafter
          refine ⟨fun trust auth htrust => ?_, by rw [hice]; rfl, by simp [iceEnabled, hice], ?_⟩
          · have hexpand : ∀ d : TunnelConfig, d.expandProtos env protos = protos :=
              fun _ => if_pos (require_eq_ok.1 hsome)
            have hwith : (if transportWG ∈ protos then withWireGuard trust else trust) = trust := by
              split
              · next hWG =>
                  refine withWireGuard_of_has (htrust ?_)
                  simp only [if_pos hWG]
                  cases c.trust <;> rfl
              · rfl
            simp [initializeICE, henabled, hexpand, hsome, hchecked, hwith]
          · cases hsignaling : ice.signaling <;>
              simp [needsConnectTarget, iceEnabled, hice, hsignaling]
      · next hdisabled =>
          cases hafter
          simp [initializeICE, hice, hdisabled]

variable {direction : TunnelDirection}

theorem initializeWireGuard_again {before after : Option WireGuardConfig}
    (hafter : initializeWireGuard env direction before = .ok after) :
    initializeWireGuard env direction after = .ok after ∧ after.isSome = before.isSome := by
  cases before with
  | none =>
    cases hafter
    exact ⟨rfl, rfl⟩
  | some wireGuard =>
    obtain ⟨found, hfound, rfl⟩ := map_eq_ok.1 hafter
    exact ⟨map_eq_ok.2 ⟨found, WireGuardConfig.initializeConfig_again hfound, rfl⟩, rfl⟩

theorem initializeTrustConfig_again {before after : Option TrustConfig}
    (hafter : initializeTrustConfig env direction before = .ok after) :
    initializeTrustConfig env direction after = .ok after ∧
      hasWireGuard after = hasWireGuard before := by
  cases before with
  | none =>
    cases hafter
    exact ⟨rfl, rfl⟩
  | some trust =>
    obtain ⟨_, hmtls, hafter⟩ := bind_eq_ok.1 hafter
    obtain ⟨wireGuard, hwireGuard, hafter⟩ := bind_eq_ok.1 hafter
    cases hafter
    obtain ⟨hagain, hsame⟩ := initializeWireGuard_again hwireGuard
    exact ⟨by simp [initializeTrustConfig, hmtls, hagain], hsame⟩

theorem initializeTrust_again (hafter : c.initializeTrust env = .ok after) :
    (∀ auth, ({ after with auth := auth } : TunnelConfig).initializeTrust env =
      .ok { after with auth := auth }) ∧
      (hasWireGuard c.trust = true → hasWireGuard after.trust = true) := by
  obtain ⟨trust, htrust, hafter⟩ := bind_eq_ok.1 hafter
  obtain ⟨hagain, hsame⟩ := initializeTrustConfig_again htrust
  split at hafter
  · next hasked =>
      cases hafter
      refine ⟨fun auth => ?_, fun hhas => hsame.trans hhas⟩
      exact bind_eq_ok.2 ⟨trust, hagain, if_pos hasked⟩
  · next hasked =>
      obtain ⟨wireGuard, hwireGuard, hafter⟩ := bind_eq_ok.1 hafter
      cases hafter
      refine ⟨fun auth => bind_eq_ok.2 ⟨_, ?_, if_pos (.inr (.inr rfl))⟩, fun _ => rfl⟩
      have hfound := WireGuardConfig.initializeConfig_again hwireGuard
      cases trust with
      | none => simp [initializeTrustConfig, initializeMTLS, initializeWireGuard, hfound]
      | some trust =>
        obtain ⟨_, hmtls, -⟩ := bind_eq_ok.1 hagain
        simp [initializeTrustConfig, hmtls, initializeWireGuard, hfound]

theorem initializeAuth_again (hafter : c.initializeAuth env = .ok after) :
    after.initializeAuth env = .ok after := by
  rw [initializeAuth] at hafter
  split at hafter
  · next hnone =>
      cases hafter
      simp [initializeAuth, hnone]
  · obtain ⟨auth, hauth, hafter⟩ := bind_eq_ok.1 hafter
    cases hafter
    simp [initializeAuth, AuthConfig.initializeConfig_again hauth]

theorem validateTransportAndTarget_congr (hdirection : after.direction = c.direction)
    (hproto : after.proto = c.proto) (hconnect : after.connect = c.connect)
    (henabled : after.iceEnabled = c.iceEnabled)
    (hneeds : after.needsConnectTarget = c.needsConnectTarget) :
    after.validateTransportAndTarget bindAdapter = c.validateTransportAndTarget bindAdapter := by
  unfold validateTransportAndTarget overICMP
  rw [hdirection, hproto, hconnect, henabled, hneeds]

theorem initializeConfig_again
    (hafter : c.initializeConfig env bindAdapter globalStunServers defaultMqttBroker = .ok after) :
    after.initializeConfig env bindAdapter globalStunServers defaultMqttBroker = .ok after := by
  obtain ⟨_, htarget, hafter⟩ := bind_eq_ok.1 hafter
  obtain ⟨_, htls, hafter⟩ := bind_eq_ok.1 hafter
  obtain ⟨withICE, hICE, hafter⟩ := bind_eq_ok.1 hafter
  obtain ⟨withTrust, hTrust, hafter⟩ := bind_eq_ok.1 hafter
  have hauth := initializeAuth_again hafter
  obtain ⟨htrust, hkept⟩ := initializeTrust_again hTrust
  obtain ⟨hice, hsome, henabled, hneeds⟩ := initializeICE_again hICE
  have hice := hice withTrust.trust after.auth hkept
  obtain ⟨ice, trust, rfl⟩ := initializeICE_eq_ok hICE
  obtain ⟨trust, rfl⟩ := initializeTrust_eq_ok hTrust
  have htrust := htrust after.auth
  obtain ⟨ice, rfl⟩ := Option.isSome_iff_exists.1 hsome
  obtain ⟨hfilled, hadapter, hsame⟩ : after.fillDefaults = after ∧ after.adapter = c.adapter ∧
      ∀ adapter, after.validateTransportAndTarget adapter =
        c.fillDefaults.validateTransportAndTarget adapter := by
    obtain ⟨auth, rfl⟩ := initializeAuth_eq_ok hafter
    refine ⟨by simp [fillDefaults], rfl, fun adapter => ?_⟩
    exact validateTransportAndTarget_congr rfl rfl rfl henabled hneeds
  rw [initializeConfig, hfilled, hadapter]
  refine bind_eq_ok.2 ⟨_, (hsame _).trans htarget, bind_eq_ok.2 ⟨(), ?_, ?_⟩⟩
  · obtain ⟨auth, rfl⟩ := initializeAuth_eq_ok hafter
    exact htls
  refine bind_eq_ok.2 ⟨after, ?_, bind_eq_ok.2 ⟨after, ?_, hauth⟩⟩
  · obtain ⟨auth, rfl⟩ := initializeAuth_eq_ok hafter
    exact hice
  · obtain ⟨auth, rfl⟩ := initializeAuth_eq_ok hafter
    exact htrust

end TunnelConfig

namespace Config

variable {env : Environment} {c after : Config} {shared : AdapterConfig}
  {stunAddress : List String} {mqttBroker : MQTTBrokerConfig}

theorem initializeOwnAdapter_again {draw : Nat} {direction : TunnelDirection}
    {before after : Option AdapterConfig}
    (hafter : initializeOwnAdapter env draw direction before = .ok after) (other : Environment) :
    initializeOwnAdapter other draw direction after = .ok after := by
  unfold initializeOwnAdapter at hafter
  split at hafter
  · obtain ⟨own, hown, rfl⟩ := map_eq_ok.1 hafter
    exact map_eq_ok.2 ⟨own, AdapterConfig.initializeTunnelAdapter_again hown other, rfl⟩
  · obtain ⟨own, hown, rfl⟩ := map_eq_ok.1 hafter
    exact map_eq_ok.2 ⟨own, AdapterConfig.initializeTunnelAdapter_again hown other, rfl⟩
  · next hlisten hconnect =>
      cases hafter
      unfold initializeOwnAdapter
      split
      · exact (hlisten rfl).elim
      · exact (hconnect _ rfl rfl).elim
      · rfl

section

variable (again : Nat → String → Nat → Except String String)

theorem checkExactElements_again (index : Nat) (values : List ClaimElement) :
    checkExactElements { env with generateIPPrefix := again } index values =
      checkExactElements env index values := by
  induction values generalizing index with
  | nil => rfl
  | cons value rest ih =>
    simp only [checkExactElements, ih]
    rfl

theorem parseClaimMatchers_again (matchers : List (String × ClaimMatcher)) :
    parseClaimMatchers { env with generateIPPrefix := again } matchers =
      parseClaimMatchers env matchers := by
  induction matchers with
  | nil => rfl
  | cons matcher rest ih =>
    obtain ⟨claim, _ | _ | _⟩ := matcher <;>
      simp only [parseClaimMatchers, parseClaimMatcherValue, checkExactElements_again, ih]

/-- Only the addresses are generated. -/
theorem tunnelConfig_again (tunnel : TunnelConfig) (bindAdapter : String) :
    tunnel.initializeConfig { env with generateIPPrefix := again } bindAdapter stunAddress
      mqttBroker = tunnel.initializeConfig env bindAdapter stunAddress mqttBroker := by
  simp only [TunnelConfig.initializeConfig, TunnelConfig.initializeAuth,
    AuthConfig.initializeConfig, OAuthAuth.validate, OAuthAuth.validateForServer,
    parseClaimMatchers_again]
  rfl

theorem initializeTunnel_again {i : Nat} {tunnel after : TunnelConfig}
    (hafter : initializeTunnel env shared stunAddress mqttBroker i tunnel = .ok after) :
    initializeTunnel { env with generateIPPrefix := again } shared stunAddress mqttBroker i after =
      .ok after := by
  obtain ⟨_, hvalid, hafter⟩ := bind_eq_ok.1 hafter
  obtain ⟨adapter, hadapter, hafter⟩ := bind_eq_ok.1 hafter
  rw [mapError_ok_iff] at hadapter
  obtain ⟨bindAdapter, hbound, hafter⟩ := bind_eq_ok.1 hafter
  rw [mapError_ok_iff] at hafter
  have hagain := TunnelConfig.initializeConfig_again hafter
  obtain ⟨hdirection, hname, hown⟩ : fill .unset .connect tunnel.direction = after.direction ∧
      fill "" s!"tunnel-{i}" tunnel.name = after.name ∧ adapter = after.adapter := by
    obtain ⟨ice, trust, auth, rfl⟩ := TunnelConfig.initializeConfig_eq_ok hafter
    exact ⟨rfl, rfl, rfl⟩
  have hagainDirection : fill .unset .connect after.direction = after.direction := by
    rw [← hdirection, fill_fill]
  have hagainName : fill "" s!"tunnel-{i}" after.name = after.name := by
    rw [← hname, fill_fill]
  rw [hdirection] at hvalid hadapter
  simp only [hdirection, hname, hown] at hbound
  rw [hown] at hadapter
  simp only [initializeTunnel, hagainDirection, hagainName]
  exact bind_eq_ok.2 ⟨(), hvalid, bind_eq_ok.2 ⟨after.adapter,
    mapError_ok_iff.2 (initializeOwnAdapter_again hadapter _),
    bind_eq_ok.2 ⟨bindAdapter, hbound, mapError_ok_iff.2 ((tunnelConfig_again ..).trans hagain)⟩⟩⟩

theorem initializeTunnels_again {i : Nat} {tunnels after : List TunnelConfig}
    (hafter : initializeTunnels env shared stunAddress mqttBroker i tunnels = .ok after) :
    initializeTunnels { env with generateIPPrefix := again } shared stunAddress mqttBroker i after =
      .ok after := by
  induction tunnels generalizing i after with
  | nil =>
    cases hafter
    rfl
  | cons tunnel rest ih =>
    obtain ⟨first, hfirst, hafter⟩ := bind_eq_ok.1 hafter
    obtain ⟨others, hothers, hafter⟩ := bind_eq_ok.1 hafter
    cases hafter
    exact bind_eq_ok.2 ⟨first, initializeTunnel_again again hfirst,
      bind_eq_ok.2 ⟨others, ih hothers, rfl⟩⟩

end

theorem initializeDefaultAdapter_again {c after : AdapterConfig} {draw : Nat}
    (hgenerated : env.GeneratesIPv4)
    (hafter : c.initializeDefaultAdapter env draw = .ok after) {other : Environment}
    (hsame : other.isIPv4CIDR = env.isIPv4CIDR) :
    after.initializeDefaultAdapter other draw = .ok after := by
  rw [AdapterConfig.initializeDefaultAdapter] at hafter
  split at hafter
  · next hgiven =>
      cases hafter
      refine (if_pos ?_).trans (congrArg _ c.fillSizes_again)
      rw [hsame]
      exact hgiven
  · obtain ⟨generated, hgenerate, hafter⟩ := bind_eq_ok.1 hafter
    cases hafter
    have hIPv4 := hgenerated _ _ (mapError_ok_iff.1 hgenerate)
    simp [AdapterConfig.initializeDefaultAdapter, hsame, hIPv4, AdapterConfig.fillSizes]

/-- The tunnels that need the shared adapter are those that needed it before. -/
theorem hasDefaultOrConnectTunnels_of_completed
    (completed : List.Forall₂ (Completed env) c.tunnels after.tunnels) :
    after.hasDefaultOrConnectTunnels = false ↔ c.hasDefaultOrConnectTunnels = false := by
  simp only [hasDefaultOrConnectTunnels, List.any_eq_false]
  refine forall_mem_iff_of_forall₂ completed fun tunnel _ result first => ?_
  by_cases hlisten : tunnel.direction = .listen
  · simp [hlisten, direction_eq_listen first hlisten]
  · simp [direction_eq_connect first hlisten]

theorem initializeShared_again (hgenerated : env.GeneratesIPv4)
    (hshared : c.initializeShared env = .ok after.adapter)
    (completed : List.Forall₂ (Completed env) c.tunnels after.tunnels) {other : Environment}
    (hsame : other.isIPv4CIDR = env.isIPv4CIDR) :
    after.initializeShared other = .ok after.adapter := by
  rw [initializeShared] at hshared ⊢
  split at hshared
  · have hagain := initializeDefaultAdapter_again hgenerated hshared hsame
    split
    · exact hagain
    · rfl
  · next hunused =>
      rw [not_or, Except.ok.inj hshared] at hunused
      refine if_neg (not_or.2 ⟨?_, hunused.2⟩)
      simpa [hasDefaultOrConnectTunnels_of_completed completed] using hunused.1

/-- The second time another network may be generated, or none. -/
theorem initializeConfig_idempotent (hgenerated : env.GeneratesIPv4)
    (hafter : c.initializeConfig env = .ok after)
    (again : Nat → String → Nat → Except String String) :
    after.initializeConfig { env with generateIPPrefix := again } = .ok after := by
  obtain ⟨hadapter, completed⟩ := completed_of_initializeConfig hafter
  have hshared := @initializeShared_again _ _ _ hgenerated hadapter completed
    { env with generateIPPrefix := again } rfl
  obtain ⟨adapter, -, hafter⟩ := bind_eq_ok.1 hafter
  obtain ⟨tunnels, htunnels, hafter⟩ := bind_eq_ok.1 hafter
  cases hafter
  have hstun : fill [] [defaultICESTUNServer] (fill [] ((((env.getenv .stun).splitOn ",").map
      env.trimSpace).filter (· ≠ "")) (c.stunServers env)) = c.stunServers env := fill_twice ..
  have hmqtt := c.mqttBroker.initializeConfig_again env
  refine bind_eq_ok.2 ⟨adapter, hshared, bind_eq_ok.2 ⟨tunnels, ?_, ?_⟩⟩
  · exact (congrArg₂ (initializeTunnels _ adapter · · 0 tunnels) hstun hmqtt).trans
      (initializeTunnels_again again htunnels)
  · simp only [fill_fill, RouteConfig.initializeConfig_again]
    exact congrArg₂ (fun stun mqtt => Except.ok (Config.mk _ _ _ _ stun mqtt)) hstun hmqtt

def generating : Environment where
  getenv _ := ""
  trimSpace := id
  quote := id
  isIPv4CIDR address := address = "100.64.0.4/30"
  decodeBase64 _ := .error "illegal base64 data at input byte 0"
  parseURL _ := .ok ()
  compileRegexp _ := .ok ()
  generateIPPrefix _ _ _ := .ok "100.64.0.4/30"

def targetOnly : Config where
  logLevel := ""
  adapter := {}
  routeConfig := ⟨false, []⟩
  tunnels := [⟨"", .unset, none, ⟨"10.0.0.2", 443⟩, ⟨"", ""⟩, 0, "", 0, 0, ⟨0, 0, 0, 0⟩, none, none,
    none⟩]
  stunAddress := []
  mqttBroker := ⟨"", "", "", ""⟩

theorem initializeConfig_idempotent_targetOnly : ∃ after,
    targetOnly.initializeConfig generating = .ok after ∧
      after.adapter.tunnelAddress = ["100.64.0.4/30"] ∧ after.initializeConfig
        { generating with generateIPPrefix := fun _ base _ => .ok base } = .ok after := by
  obtain ⟨after, hafter, haddress⟩ : ∃ after, targetOnly.initializeConfig generating = .ok after ∧
    after.adapter.tunnelAddress = ["100.64.0.4/30"] := ⟨_, rfl, rfl⟩
  refine ⟨after, hafter, haddress, initializeConfig_idempotent ?_ hafter _⟩
  rintro draw text ⟨⟩
  rfl

end Config

end Pig.Settings
