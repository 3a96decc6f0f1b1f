import Pig.Stun.Reflector

namespace Pig.Stun

open Go Network Translation

section

variable {State : Type} (box : Middlebox Transport State) (server : ReflectiveServer)

def heardFrom (mapped : Transport) (msg : Message) : BindingTestOutcome where
  received := true
  mappedIP := mapped.ip.bytes
  mappedPort := mapped.port.toNat
  msg := some msg

@[simp] theorem received_heardFrom (mapped : Transport) (msg : Message) :
  (heardFrom mapped msg).received = true := rfl

def probe (txID : FixedBytes 12) (side : Side) (changeFlags : UInt32)
    (state : State) : BindingTestOutcome × State :=
  let sent := box.outgoing state (server.endpoint side)
  let answering := side.change changeFlags
  (if box.incoming sent.2 sent.1 (server.endpoint answering) then
      heardFrom sent.1 (server.message side answering sent.1 txID)
    else { received := false },
    sent.2)

variable {txID : FixedBytes 12}

theorem probe_of_lossless {box : Middlebox Transport State} (lossless : box.Lossless) (side : Side)
    (state : State) :
    probe box server txID side 0 state = (heardFrom (box.outgoing state (server.endpoint side)).1
        (server.message side side (box.outgoing state (server.endpoint side)).1 txID),
        (box.outgoing state (server.endpoint side)).2) := by
  have hside : side.change 0 = side := by
    obtain ⟨otherIP, otherPort⟩ := side
    cases otherIP <;> cases otherPort <;> rfl
  rw [probe, hside]
  exact Prod.ext (if_pos (lossless state (server.endpoint side))) rfl

theorem readOutcome_response (algorithms : Algorithms) {asked answering : Side}
    {source : Transport} :
    NatDiscoverer.readOutcome algorithms txID (some (server.response asked answering source txID)) =
      .ok (heardFrom source (server.message asked answering source txID)) := by
  rw [NatDiscoverer.readOutcome, server.decodeMessage_response]
  change Except.mapError _ (processBindingResponse _ _ _ _) >>= _ = _
  rw [server.processBindingResponse_message]
  rfl

theorem sendBindingTest_eq (algorithms : Algorithms) (localAddr : UDPAddr) (txID : FixedBytes 12)
    (side : Side) (changeFlags : UInt32) (state : State) :
    NatDiscoverer.sendBindingTest algorithms (conn box server localAddr) txID
      (server.endpoint side).udp changeFlags ⟨state, []⟩ = .ok ((probe box server txID side
      changeFlags state).1, ⟨(probe box server txID side changeFlags state).2, []⟩) := by
  obtain ⟨req, hreq, complete⟩ := buildBindingRequest_complete algorithms txID changeFlags
  have hwrite : (conn box server localAddr).writeToUDP ⟨state, []⟩ req.raw
      (server.endpoint side).udp =
        .ok (send box server ⟨state, []⟩ req.raw (server.endpoint side)) := by
    simp only [conn, Transport.ofUDPAddr_udp]
  rw [NatDiscoverer.sendBindingTest, hreq]
  change Except.mapError _ ((conn box server localAddr).writeToUDP _ _ _) >>=
    _ = _
  rw [hwrite]
  simp only [send, server.answer_request complete, probe]
  split
  · change NatDiscoverer.readOutcome _ _ (some _) >>= _ = _
    rw [readOutcome_response]
    rfl
  · rfl

theorem runTest_eq (algorithms : Algorithms) (localAddr : UDPAddr) (txID : Test → FixedBytes 12)
    (test : Test) (side : Side) (changeFlags : UInt32) (state : State) :
    NatDiscoverer.runTest algorithms (conn box server localAddr) txID test
      (server.endpoint side).udp changeFlags ⟨state, []⟩ = .ok ((probe box server (txID test) side
      changeFlags state).1, ⟨(probe box server (txID test) side changeFlags state).2, []⟩) := by
  rw [NatDiscoverer.runTest, sendBindingTest_eq]
  rfl

theorem isMappedAddrEqual_heardFrom (a b : Transport) (msg other : Message) :
    isMappedAddrEqual (some (heardFrom a msg)) (some (heardFrom b other)) = decide (a = b) := by
  rw [Bool.eq_iff_iff, decide_eq_true_iff, Endpoint.ext_iff,
    ← IPAddress.ipEqual_iff, ← UInt16.toNat_inj, and_comm]
  simp only [isMappedAddrEqual, heardFrom, Bool.true_and, Bool.and_eq_true]
  constructor
  · rintro ⟨⟨-, hport⟩, hip⟩
    exact ⟨of_decide_eq_true hport, hip⟩
  · rintro ⟨hport, hip⟩
    exact ⟨⟨⟨decide_eq_true a.ip.bytes_ne_nil,
      decide_eq_true b.ip.bytes_ne_nil⟩, decide_eq_true hport⟩, hip⟩

variable {box server} {algorithms : Algorithms} {localAddr : UDPAddr}
  {txIDs : Test → FixedBytes 12} {d : NatDiscoverer}

def firstResult (server : ReflectiveServer) (mapped : Transport) : NATDiscoveryResult where
  primaryServer := (server.endpoint .primary).udp
  mappedAddress := mapped.ip.bytes
  mappedPort := mapped.port.toNat
  mappingMappedPorts := (mapped.port.toNat, 0, 0)

theorem discover_eq (lossless : box.Lossless)
    (hserver : d.stunServer = (server.endpoint .primary).udp) (state : State) :
    d.discover algorithms (conn box server localAddr) txIDs ⟨state, []⟩ =
      let sent := box.outgoing state (server.endpoint .primary)
      if isNatted localAddr sent.1.ip.bytes sent.1.port.toNat then
        d.discoverBehavior algorithms (conn box server localAddr) txIDs (heardFrom sent.1
          (server.message .primary .primary sent.1 (txIDs .connectivityI)))
          (firstResult server sent.1) ⟨sent.2, []⟩
      else NatDiscoverer.getResultWhenNonNatted algorithms (conn box server localAddr) txIDs
        (server.endpoint .primary).udp (firstResult server sent.1) ⟨sent.2, []⟩ := by
  rw [NatDiscoverer.discover, NatDiscoverer.runConnectivityTest, hserver, runTest_eq, ok_bind]
  simp only [probe_of_lossless server lossless, received_heardFrom, Bool.not_true,
    Bool.false_eq_true, if_false, Bool.not_eq_true', ← Bool.not_eq_true, ite_not]
  rfl

theorem discoverBehavior_of_tests (hserver : d.stunServer = (server.endpoint .primary).udp)
    {mapped : Transport} (result : NATDiscoveryResult)
    {filtering : NATFilteringBehavior} {testII : BindingTestOutcome}
    {testIII : Option BindingTestOutcome} {state middle after : State}
    (hfiltering : d.discoverFiltering algorithms (conn box server localAddr) txIDs ⟨state, []⟩ =
      .ok (filtering, ⟨middle, []⟩))
    (htests : NatDiscoverer.runMappingTests algorithms (conn box server localAddr) txIDs
      (heardFrom mapped (server.message .primary .primary mapped txID))
      (server.endpoint ⟨true, false⟩).udp (server.endpoint ⟨true, true⟩).udp ⟨middle, []⟩ =
      .ok (testII, testIII, ⟨after, []⟩)) :
    ∃ found, d.discoverBehavior algorithms (conn box server localAddr) txIDs (heardFrom mapped
      (server.message .primary .primary mapped txID)) result ⟨state, []⟩ = .ok
      (found, ⟨after, []⟩) ∧ found.connectivity = .behindNAT ∧ found.mapping =
      getNatMappingBehavior (some (heardFrom mapped (server.message .primary .primary mapped txID)))
      (some testII) testIII ∧ found.filtering = filtering := by
  have hother : getOtherAddressFromMessage (heardFrom mapped (server.message .primary .primary
    mapped txID)).msg = .ok ((server.endpoint ⟨true, true⟩).ip.bytes,
    (server.endpoint ⟨true, true⟩).port.toNat) := decodeOtherAddress_plainValue _
  have hport : d.stunServer.port = (server.endpoint ⟨true, false⟩).port.toNat := by
    rw [hserver]
    rfl
  rw [NatDiscoverer.discoverBehavior, hother]
  simp only [Except.mapError, ok_bind, hfiltering, hport]
  exact ⟨_, bind_eq_ok.2 ⟨_, htests, rfl⟩, rfl, rfl, rfl⟩

end

def mappingOf : Dependence → NATMappingBehavior
  | .endpointIndependent => .endpointIndependent
  | .addressDependent => .addressDependent
  | .addressAndPortDependent => .addressAndPortDependent

def filteringOf : Dependence → NATFilteringBehavior
  | .endpointIndependent => .endpointIndependent
  | .addressDependent => .addressDependent
  | .addressAndPortDependent => .addressAndPortDependent

def ReflectiveServer.IsEndpoint (server : ReflectiveServer) (remote : Transport) : Prop :=
  ∃ side, server.endpoint side = remote

section

variable {behaviour : Dependence} {server : ReflectiveServer} {a b : Side}

theorem alike_of_otherIP_ne (hip : a.otherIP ≠ b.otherIP) :
    behaviour.Alike (server.endpoint a) (server.endpoint b) ↔ behaviour = .endpointIndependent := by
  cases behaviour with
  | endpointIndependent => exact iff_of_true trivial rfl
  | addressDependent =>
    exact iff_of_false (mt server.endpoint_ip_eq_iff.1 hip) (by decide)
  | addressAndPortDependent =>
    refine iff_of_false (fun hsame => hip ?_) (by decide)
    rw [server.endpoint_eq_iff.1 hsame]

theorem alike_of_otherPort_ne (hip : a.otherIP = b.otherIP) (hport : a.otherPort ≠ b.otherPort) :
    behaviour.Alike (server.endpoint a) (server.endpoint b) ↔
      behaviour ≠ .addressAndPortDependent := by
  cases behaviour with
  | endpointIndependent => exact iff_of_true trivial (by decide)
  | addressDependent =>
    exact iff_of_true (server.endpoint_ip_eq_iff.2 hip) (by decide)
  | addressAndPortDependent =>
    refine iff_of_false (fun hsame => hport ?_) (not_not.2 rfl)
    rw [server.endpoint_eq_iff.1 hsame]

end

theorem getNatFilteringBehavior_eq {filtering : Dependence} {testII testIII : BindingTestOutcome}
    (hII : testII.received = true ↔ filtering = .endpointIndependent)
    (hIII : testIII.received = true ↔ filtering ≠ .addressAndPortDependent) :
    getNatFilteringBehavior (some testII) (if testII.received then none else some testIII) =
      filteringOf filtering := by
  cases filtering with
  | endpointIndependent =>
    have hreceived := hII.2 rfl
    simp [getNatFilteringBehavior, BindingTestOutcome.isReceived, hreceived, filteringOf]
  | addressDependent =>
    have hlost := mt hII.1 (by decide)
    have hreceived := hIII.2 (by decide)
    simp [getNatFilteringBehavior, BindingTestOutcome.isReceived, hlost, hreceived, filteringOf]
  | addressAndPortDependent =>
    have hlost := mt hII.1 (by decide)
    have hlostIII := mt hIII.1 (not_not.2 rfl)
    simp [getNatFilteringBehavior, BindingTestOutcome.isReceived, hlost, hlostIII, filteringOf]

theorem getNatMappingBehavior_eq {mapping : Dependence} {first second third : Transport}
    (msgI msgII msgIII : Message) (hfirst : first = second ↔ mapping = .endpointIndependent)
    (hsecond : second = third ↔ mapping ≠ .addressAndPortDependent) :
    getNatMappingBehavior (some (heardFrom first msgI)) (some (heardFrom second msgII))
        (if mapping = .endpointIndependent then none
          else some (heardFrom third msgIII)) =
      mappingOf mapping := by
  rw [getNatMappingBehavior]
  simp only [isMappedAddrEqual_heardFrom, hfirst]
  cases mapping with
  | endpointIndependent => simp [BindingTestOutcome.isReceived, mappingOf]
  | addressDependent =>
    have hsame : second = third := hsecond.2 (by decide)
    simp [BindingTestOutcome.isReceived, isMappedAddrEqual_heardFrom, hsame, mappingOf]
  | addressAndPortDependent =>
    have hdiffer : second ≠ third := mt hsecond.1 (not_not.2 rfl)
    simp [BindingTestOutcome.isReceived, isMappedAddrEqual_heardFrom, hdiffer, mappingOf]

section

variable {nat : Translator IPAddress UInt16} {host : Transport} {server : ReflectiveServer}
  {txID : FixedBytes 12} {sessions : Translator.Sessions IPAddress UInt16}

theorem probe_unchanged (side : Side) : probe (nat.box host) server txID side 0 sessions =
  (heardFrom (nat.translate host (server.endpoint side)) (server.message side side
  (nat.translate host (server.endpoint side)) txID), (host, server.endpoint side) :: sessions) :=
  probe_of_lossless server (nat.lossless_box host) side sessions

theorem only_cons {remote : Transport}
    (honly : ∀ other, (host, other) ∈ sessions → other = remote) :
    ∀ other, (host, other) ∈ (host, remote) :: sessions → other = remote := by
  intro other hother
  rcases List.mem_cons.1 hother with heq | hearlier
  · exact congrArg Prod.snd heq
  · exact honly other hearlier

theorem received_probe {changeFlags : UInt32} {side : Side}
    (honly : ∀ remote, (host, remote) ∈ sessions → remote = server.endpoint side) :
    (probe (nat.box host) server txID side changeFlags sessions).1.received = true ↔
      nat.filtering.Alike (server.endpoint side) (server.endpoint (side.change changeFlags)) := by
  have hmem : (host, server.endpoint side) ∈ (host, server.endpoint side) :: sessions :=
    List.mem_cons_self
  have hincoming : nat.incoming host ((host, server.endpoint side) :: sessions) (nat.translate host
      (server.endpoint side)) (server.endpoint (side.change changeFlags)) = true ↔
      nat.filtering.Alike (server.endpoint side) (server.endpoint (side.change changeFlags)) := by
    rw [nat.incoming_iff]
    refine ⟨?_, fun halike => ⟨⟨_, hmem, rfl⟩, _, hmem, halike⟩⟩
    rintro ⟨-, remote, hremote, halike⟩
    rwa [← only_cons honly remote hremote]
  rw [← hincoming, probe]
  split
  · exact iff_of_true rfl ‹_›
  · exact iff_of_false Bool.false_ne_true ‹_›

variable (algorithms : Algorithms) (localAddr : UDPAddr) (txIDs : Test → FixedBytes 12)

theorem discoverFiltering_eq {d : NatDiscoverer} (hscope : d.scope = .full)
    (hserver : d.stunServer = (server.endpoint .primary).udp)
    (honly : ∀ remote, (host, remote) ∈ sessions → remote = server.endpoint .primary) :
    ∃ after, d.discoverFiltering algorithms (conn (nat.box host) server localAddr) txIDs
      ⟨sessions, []⟩ = .ok (filteringOf nat.filtering, ⟨after, []⟩) := by
  let first := probe (nat.box host) server (txIDs .filteringII) .primary
    (changeIPFlag ||| changePortFlag) sessions
  let second := probe (nat.box host) server (txIDs .filteringIII) .primary changePortFlag first.2
  have hII : first.1.received = true ↔ nat.filtering = .endpointIndependent :=
    (received_probe honly).trans (alike_of_otherIP_ne (by decide))
  have hIII : second.1.received = true ↔ nat.filtering ≠ .addressAndPortDependent :=
    (received_probe (only_cons honly)).trans (alike_of_otherPort_ne (by decide) (by decide))
  have hbehavior := getNatFilteringBehavior_eq hII hIII
  rw [NatDiscoverer.discoverFiltering, hscope]
  simp only [NatDiscoverer.runFilteringTests, hserver, runTest_eq, ok_bind]
  by_cases hreceived : first.1.received = true
  · rw [if_pos hreceived] at hbehavior ⊢
    rw [← hbehavior]
    exact ⟨first.2, rfl⟩
  · rw [if_neg hreceived] at hbehavior ⊢
    rw [← hbehavior]
    exact ⟨second.2, rfl⟩

theorem runMappingTests_eq (separates : nat.Separates host server.IsEndpoint) (msg : Message) :
    ∃ testII testIII after, NatDiscoverer.runMappingTests algorithms
      (conn (nat.box host) server localAddr) txIDs (heardFrom (nat.translate host
      (server.endpoint .primary)) msg) (server.endpoint ⟨true, false⟩).udp
      (server.endpoint ⟨true, true⟩).udp ⟨sessions, []⟩ = .ok (testII, testIII, ⟨after, []⟩) ∧
      getNatMappingBehavior (some (heardFrom (nat.translate host (server.endpoint .primary)) msg))
      (some testII) testIII = mappingOf nat.mapping := by
  have hsame : ∀ a b, nat.translate host (server.endpoint a) = nat.translate host
      (server.endpoint b) ↔ nat.mapping.Alike (server.endpoint a) (server.endpoint b) :=
    fun a b => separates.translate_eq_iff nat host ⟨a, rfl⟩ ⟨b, rfl⟩
  have hfirst := (hsame .primary ⟨true, false⟩).trans (alike_of_otherIP_ne (by decide))
  have hsecond := (hsame ⟨true, false⟩ ⟨true, true⟩).trans (alike_of_otherPort_ne rfl (by decide))
  have hbehavior := fun msgII msgIII =>
    getNatMappingBehavior_eq msg msgII msgIII hfirst hsecond
  simp only [NatDiscoverer.runMappingTests, runTest_eq, probe_unchanged,
    ok_bind, isMappedAddrEqual_heardFrom, decide_eq_true_iff, hfirst,
    received_heardFrom, Bool.not_true, Bool.false_eq_true, if_false]
  by_cases hindependent : nat.mapping = .endpointIndependent
  · simp only [if_pos hindependent] at hbehavior ⊢
    exact ⟨_, _, _, rfl, hbehavior _ msg⟩
  · simp only [if_neg hindependent] at hbehavior ⊢
    exact ⟨_, _, _, rfl, hbehavior _ _⟩

end

variable {host : Transport}

theorem isNatted_of_public {localAddr : UDPAddr} {mapped : IPAddress}
    {port : Nat} (hlocal : isUnspecified localAddr.ip = true ∨ localAddr.ip = host.ip.bytes)
    (hpublic : mapped.Public) (hne : mapped ≠ host.ip) :
    isNatted localAddr mapped.bytes port = true := by
  have hprivate : isPrivateIP mapped.bytes = false := (IPAddress.public_iff mapped).1 hpublic
  rw [isNatted, if_neg mapped.bytes_ne_nil]
  split
  · rw [hprivate]
    rfl
  · rename_i hconcrete
    have hlocal := hlocal.resolve_left fun h => hconcrete (.inr h)
    have hdiffer : ipEqual mapped.bytes localAddr.ip = false := by
      rw [hlocal, ← Bool.not_eq_true, IPAddress.ipEqual_iff]
      exact hne
    rw [hdiffer]
    split <;> rfl

/-- An address the host can be bound to: its own or the unspecified one. -/
structure Binds (host : Transport) (addr : UDPAddr) : Prop where
  port : addr.port = 0 ∨ addr.port = host.port.toNat
  ip : addr.ip = [] ∨ isUnspecified addr.ip = true ∨ ipEqual addr.ip host.ip.bytes = true

theorem Binds.getListenAddr {d : NatDiscoverer}
    (binds : ∀ addr ∈ d.localAddr, Binds host addr) (primary : UDPAddr) :
    Binds host (d.getListenAddr primary) := by
  rw [NatDiscoverer.getListenAddr]
  split
  · rename_i addr haddr
    exact binds addr haddr
  · refine ⟨.inl rfl, .inr (.inl ?_)⟩
    split <;> decide

theorem isUnspecified_wildcard (network : NatDiscoverer.UDPNetwork) :
    isUnspecified (wildcard network) = true := by
  cases network <;> decide

theorem exists_listenUDP {State : Type} (box : Middlebox Transport State)
    (server : ReflectiveServer) {addr : UDPAddr}
    (binds : Binds host addr) (network : NatDiscoverer.UDPNetwork) :
    ∃ localAddr, listenUDP box server host network addr = .ok (conn box server localAddr) ∧
      (isUnspecified localAddr.ip = true ∨ localAddr.ip = host.ip.bytes) := by
  rw [listenUDP, if_neg fun h => binds.port.elim h.1 h.2]
  split
  · exact ⟨_, rfl, .inl (isUnspecified_wildcard network)⟩
  · rename_i hconcrete
    rw [if_pos ((or_assoc.2 binds.ip).resolve_left hconcrete)]
    exact ⟨host.udp, rfl, .inr rfl⟩

/-- With the full scope the discovery finds a NAT with the mapping and the
filtering that the NAT has. -/
theorem run_eq_of_translator (algorithms : Algorithms) (nat : Translator IPAddress UInt16)
    (server : ReflectiveServer) (host : Transport) (txIDs : Test → FixedBytes 12)
    (d : NatDiscoverer) (sessions : Translator.Sessions IPAddress UInt16)
    (hserver : d.stunServer = (server.endpoint .primary).udp) (hscope : d.scope = .full)
    (binds : ∀ addr ∈ d.localAddr, Binds host addr) (hfresh : ∀ remote, (host, remote) ∉ sessions)
    (separates : nat.Separates host server.IsEndpoint) (hpublic : ∀ side,
    (nat.translate host (server.endpoint side)).ip.Public) (hother : ∀ side,
    (nat.translate host (server.endpoint side)).ip ≠ host.ip) :
    ∃ found after, d.run algorithms (listenUDP (nat.box host) server host) txIDs ⟨sessions, []⟩ =
      .ok (found, after) ∧ found.connectivity = .behindNAT ∧ found.mapping = mappingOf nat.mapping ∧
      found.filtering = filteringOf nat.filtering := by
  obtain ⟨localAddr, hlisten, hlocal⟩ := exists_listenUDP (nat.box host) server
      (Binds.getListenAddr binds d.stunServer) (NatDiscoverer.udpNetworkForAddr d.stunServer)
  have honly : ∀ remote, (host, remote) ∈ (host, server.endpoint .primary) :: sessions → remote =
    server.endpoint .primary := only_cons fun remote hremote => absurd hremote (hfresh remote)
  obtain ⟨middle, hfiltering⟩ := @discoverFiltering_eq nat host server _ algorithms localAddr txIDs
    d hscope hserver honly
  obtain ⟨testII, testIII, after, htests, hmapping⟩ := @runMappingTests_eq nat host server middle
    algorithms localAddr txIDs separates (server.message .primary .primary
    (nat.translate host (server.endpoint .primary)) (txIDs .connectivityI))
  obtain ⟨found, hfound, hbehavior⟩ :=
    discoverBehavior_of_tests hserver (firstResult server _) hfiltering htests
  refine ⟨found, ⟨after, []⟩, ?_, hmapping ▸ hbehavior⟩
  rw [NatDiscoverer.run, hlisten]
  refine (discover_eq (nat.lossless_box host) hserver sessions).trans ((if_pos ?_).trans hfound)
  exact isNatted_of_public hlocal (hpublic .primary) (hother .primary)

def v4 (a b c d : UInt8) : IPAddress where
  bytes := [a, b, c, d]
  canonical := .inl rfl

def documentationServer : ReflectiveServer where
  address := v4 198 51 100 1
  alternate := v4 198 51 100 2
  port := 3478
  alternatePort := 3479
  software := [0x70, 0x69, 0x67]
  address_ne := by decide
  port_ne := by decide
  length_software := by decide

/-- A NAT with a port for every endpoint that is sent to. It lets in what comes
from the addresses that were sent to. -/
def symmetricNAT : Translator IPAddress UInt16 where
  mapping := .addressAndPortDependent
  filtering := .addressDependent
  external _ part :=
    { ip := v4 203 0 113 7
      port :=
        match part with
        | .all remote =>
          40000 + remote.port + (remote.ip.bytes.getD 3 0).toUInt16 * 2
        | _ => 40000 }

theorem run_eq_of_translator_symmetricNAT : ∃ found after, NatDiscoverer.run sampleAlgorithms
          (listenUDP (symmetricNAT.box ⟨v4 192 168 1 2, 4136⟩) documentationServer
          ⟨v4 192 168 1 2, 4136⟩) (fun _ => .copyOf 12 [1, 2, 3])
          { stunServer := (documentationServer.endpoint .primary).udp
            localAddr := none
            scope := .full }
          ⟨[], []⟩ = .ok (found, after) ∧
      found.connectivity = .behindNAT ∧
      found.mapping = .addressAndPortDependent ∧
      found.filtering = .addressDependent := by
  apply run_eq_of_translator sampleAlgorithms symmetricNAT documentationServer
  · rfl
  · rfl
  · simp
  · simp
  · rintro _ _ ⟨⟨_ | _, _ | _⟩, rfl⟩ ⟨⟨_ | _, _ | _⟩, rfl⟩ <;> decide
  · rintro ⟨_ | _, _ | _⟩ <;> decide
  · rintro ⟨_ | _, _ | _⟩ <;> decide

end Pig.Stun
