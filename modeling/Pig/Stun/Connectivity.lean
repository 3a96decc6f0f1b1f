import Pig.Stun.Classification

namespace Pig.Stun

open Go Network Translation

/-! What the discovery reports about the way to the server: whether addresses
are translated on it, and if not, whether it is open. -/

section

variable {State : Type} (box : Middlebox Transport State)
  (server : ReflectiveServer) (state : State)

def seen : Transport := (box.outgoing state (server.endpoint .primary)).1

def alternateArrives : Bool :=
  let first := box.outgoing state (server.endpoint .primary)
  let second := box.outgoing first.2 (server.endpoint .primary)
  box.incoming second.2 second.1 (server.endpoint ⟨true, true⟩)

/-- What there is to report if the packets leave the host from its own
endpoint. -/
def connectivity (host : Transport) : NATConnectivity :=
  if seen box server state ≠ host then .behindNAT
  else if alternateArrives box server state then .openInternet
  else .symmetricUDPFirewall

def ReportsConnectivity (algorithms : Algorithms) (host : Transport) (txIDs : Test → FixedBytes 12)
  (d : NatDiscoverer) : Prop := ∃ found after, d.run algorithms (listenUDP box server host) txIDs
  ⟨state, []⟩ = .ok (found, after) ∧ found.connectivity = connectivity box server state host

end

def NatDiscoverer.Concrete (d : NatDiscoverer) : Prop :=
  ∃ addr ∈ d.localAddr, addr.ip ≠ [] ∧ isUnspecified addr.ip = false

section

variable {State : Type} {box : Middlebox Transport State}
  {server : ReflectiveServer} {state : State} {algorithms : Algorithms}
  {txIDs : Test → FixedBytes 12} {d : NatDiscoverer} {host : Transport}

theorem exists_discoverFiltering (localAddr : UDPAddr)
    (hserver : d.stunServer = (server.endpoint .primary).udp) :
    ∃ filtering after, d.discoverFiltering algorithms (conn box server localAddr) txIDs ⟨state, []⟩
      = .ok (filtering, ⟨after, []⟩) := by
  rw [NatDiscoverer.discoverFiltering]
  cases d.scope with
  | mappingOnly => exact ⟨.unknown, state, rfl⟩
  | full =>
    simp only [NatDiscoverer.runFilteringTests, hserver, runTest_eq, ok_bind]
    split <;> exact ⟨_, _, rfl⟩

theorem exists_runMappingTests (lossless : box.Lossless) (localAddr : UDPAddr)
    (testI : BindingTestOutcome) :
    ∃ testII testIII after, NatDiscoverer.runMappingTests algorithms (conn box server localAddr)
        txIDs testI (server.endpoint ⟨true, false⟩).udp (server.endpoint ⟨true, true⟩).udp
        ⟨state, []⟩ = .ok (testII, testIII, ⟨after, []⟩) := by
  simp only [NatDiscoverer.runMappingTests, runTest_eq, probe_of_lossless server lossless, ok_bind,
    received_heardFrom, Bool.not_true, Bool.false_eq_true, if_false]
  split <;> exact ⟨_, _, _, rfl⟩

theorem exists_discoverBehavior (lossless : box.Lossless) (localAddr : UDPAddr)
    (hserver : d.stunServer = (server.endpoint .primary).udp) {mapped : Transport}
    {txID : FixedBytes 12} (result : NATDiscoveryResult) :
    ∃ found after, d.discoverBehavior algorithms (conn box server localAddr) txIDs
      (heardFrom mapped (server.message .primary .primary mapped txID)) result ⟨state, []⟩ = .ok
      (found, after) ∧ found.connectivity = .behindNAT := by
  obtain ⟨filtering, middle, hfiltering⟩ :=
    @exists_discoverFiltering _ box server state algorithms txIDs d localAddr hserver
  obtain ⟨testII, testIII, after, htests⟩ := @exists_runMappingTests _ box server middle algorithms
    txIDs lossless localAddr (heardFrom mapped (server.message .primary .primary mapped txID))
  obtain ⟨found, hfound, hconnectivity, -⟩ :=
    discoverBehavior_of_tests hserver result hfiltering htests
  exact ⟨found, ⟨after, []⟩, hfound, hconnectivity⟩

theorem received_probe_alternate (txID : FixedBytes 12) :
    (probe box server txID .primary (changeIPFlag ||| changePortFlag)
      (box.outgoing state (server.endpoint .primary)).2).1.received =
        alternateArrives box server state := by
  have hside : Side.primary.change (changeIPFlag ||| changePortFlag) = ⟨true, true⟩ := by decide
  rw [probe, alternateArrives, hside]
  split
  · next harrives => rw [harrives, received_heardFrom]
  · next hlost => exact ((Bool.not_eq_true _).mp hlost).symm

theorem exists_discover (lossless : box.Lossless) (localAddr : UDPAddr)
    (hserver : d.stunServer = (server.endpoint .primary).udp) :
    ∃ found after, d.discover algorithms (conn box server localAddr) txIDs ⟨state, []⟩ = .ok
      (found, after) ∧ found.connectivity =
        if isNatted localAddr (seen box server state).ip.bytes
            (seen box server state).port.toNat then .behindNAT
        else if alternateArrives box server state then .openInternet
        else .symmetricUDPFirewall := by
  rw [discover_eq lossless hserver]
  change ∃ found after, (if isNatted localAddr (seen box server state).ip.bytes
    (seen box server state).port.toNat = true then _ else _) = _ ∧ _
  split
  · exact exists_discoverBehavior lossless localAddr hserver _
  · rw [NatDiscoverer.getResultWhenNonNatted, runTest_eq, ok_bind]
    simp only [received_probe_alternate]
    split <;> exact ⟨_, _, rfl, rfl⟩

theorem isNatted_host (hspecified : isUnspecified host.ip.bytes = false) (mapped : Transport) :
    isNatted host.udp mapped.ip.bytes mapped.port.toNat = decide (mapped ≠ host) := by
  have hconcrete : ¬ (host.udp.ip = [] ∨ isUnspecified host.udp.ip = true) := by
    rintro (hnil | hzero)
    · exact host.ip.bytes_ne_nil hnil
    · rw [Transport.udp, hspecified] at hzero
      cases hzero
  rw [isNatted, if_neg mapped.ip.bytes_ne_nil, if_neg hconcrete]
  by_cases hip : mapped.ip = host.ip
  · have hequal : ipEqual mapped.ip.bytes host.udp.ip = true :=
      (IPAddress.ipEqual_iff mapped.ip host.ip).mpr hip
    have hrange : ¬ (isPrivateIP host.udp.ip = true ∧ (!isPrivateIP mapped.ip.bytes) = true) := by
      rw [hip, Bool.not_eq_true']
      exact fun hranges => Bool.false_ne_true (hranges.2.symm.trans hranges.1)
    rw [if_neg hrange, hequal, if_neg (by decide), decide_eq_decide, ne_eq,
      not_iff_not, Endpoint.ext_iff, and_iff_right hip]
    exact UInt16.toNat_inj
  · have hdiffer : ipEqual mapped.ip.bytes host.udp.ip = false := by
      rw [← Bool.not_eq_true]
      exact mt (IPAddress.ipEqual_iff mapped.ip host.ip).mp hip
    have hne : mapped ≠ host := fun hsame => hip (congrArg Endpoint.ip hsame)
    rw [hdiffer, decide_eq_true hne]
    split <;> rfl

theorem ipEqual_trans {a b c : Bytes} (hfirst : ipEqual a b = true) (hsecond : ipEqual b c = true) :
    ipEqual a c = true := by
  have hfront := List.take_append_drop 12 a
  have hback := List.take_append_drop 12 c
  grind [ipEqual]

theorem isUnspecified_of_ipEqual {ip x : Bytes} (hequal : ipEqual ip x = true)
    (hzero : isUnspecified x = true) : isUnspecified ip = true := by
  rw [isUnspecified, Bool.or_eq_true] at hzero ⊢
  exact hzero.imp (ipEqual_trans hequal) (ipEqual_trans hequal)

theorem listenUDP_cases (binds : ∀ addr ∈ d.localAddr, Binds host addr)
    (network : NatDiscoverer.UDPNetwork) :
    (d.Concrete ∧ isUnspecified host.ip.bytes = false ∧ listenUDP box server host network
      (d.getListenAddr d.stunServer) = .ok (conn box server host.udp)) ∨ ¬ d.Concrete ∧ listenUDP
      box server host network (d.getListenAddr d.stunServer) = .ok
      (conn box server ⟨wildcard network, host.port.toNat⟩) := by
  have hbinds := Binds.getListenAddr binds d.stunServer
  have hconcrete : d.Concrete ↔ ¬ ((d.getListenAddr d.stunServer).ip = [] ∨
        isUnspecified (d.getListenAddr d.stunServer).ip = true) := by
    rw [NatDiscoverer.Concrete, NatDiscoverer.getListenAddr]
    cases d.localAddr with
    | none =>
      simp only
      split <;> decide
    | some addr => simp
  rw [listenUDP, if_neg fun hport => hbinds.port.elim hport.1 hport.2]
  by_cases hunspecified : (d.getListenAddr d.stunServer).ip = [] ∨
      isUnspecified (d.getListenAddr d.stunServer).ip = true
  · exact .inr ⟨fun h => hconcrete.mp h hunspecified, if_pos hunspecified⟩
  · have hequal := (or_assoc.mpr hbinds.ip).resolve_left hunspecified
    refine .inl ⟨hconcrete.mpr hunspecified, ?_, ?_⟩
    · rw [← Bool.not_eq_true]
      exact fun hzero =>
        hunspecified (.inr (isUnspecified_of_ipEqual hequal hzero))
    · rw [if_neg hunspecified, if_pos hequal]

/-- Over a network that loses nothing, the discovery reports what is there
exactly if it is given a local address, or if the address the server sees is
private and the host's own, or neither. -/
theorem reportsConnectivity_iff (lossless : box.Lossless) (hserver : d.stunServer =
    (server.endpoint .primary).udp) (binds : ∀ addr ∈ d.localAddr, Binds host addr) :
    ReportsConnectivity box server state algorithms host txIDs d ↔ d.Concrete ∨
        (isPrivateIP (seen box server state).ip.bytes = true ↔ seen box server state = host) := by
  have hreports : ∀ localAddr, listenUDP box server host (NatDiscoverer.udpNetworkForAddr
      d.stunServer) (d.getListenAddr d.stunServer) = .ok (conn box server localAddr) →
      (ReportsConnectivity box server state algorithms host txIDs d ↔ isNatted localAddr
      (seen box server state).ip.bytes (seen box server state).port.toNat = decide
      (seen box server state ≠ host)) := by
    intro localAddr hlisten
    obtain ⟨found, after, hfound, hconnectivity⟩ :=
      @exists_discover _ box server state algorithms txIDs d lossless localAddr hserver
    have hrun : d.run algorithms (listenUDP box server host) txIDs
        ⟨state, []⟩ = .ok (found, after) := by
      rw [NatDiscoverer.run, hlisten]
      exact hfound
    have hsame : ReportsConnectivity box server state algorithms host txIDs d ↔
        found.connectivity = connectivity box server state host := by
      constructor
      · rintro ⟨other, later, hother, hreported⟩
        cases hother.symm.trans hrun
        exact hreported
      · exact fun hreported => ⟨found, after, hrun, hreported⟩
    rw [hsame, hconnectivity, connectivity]
    cases isNatted localAddr (seen box server state).ip.bytes (seen box server state).port.toNat <;>
      cases alternateArrives box server state <;> by_cases hseen : seen box server state = host <;>
      simp [hseen]
  obtain ⟨hconcrete, hspecified, hlisten⟩ | ⟨hnone, hlisten⟩ :=
    listenUDP_cases binds (NatDiscoverer.udpNetworkForAddr d.stunServer)
  · rw [hreports _ hlisten, isNatted_host hspecified]
    exact iff_of_true rfl (.inl hconcrete)
  · rw [hreports _ hlisten, isNatted, if_neg (seen box server state).ip.bytes_ne_nil,
      if_pos (.inr (isUnspecified_wildcard _)), or_iff_right hnone, Bool.eq_iff_iff,
      Bool.not_eq_true', decide_eq_true_iff]
    cases isPrivateIP (seen box server state).ip.bytes <;> simp

end

theorem reportsConnectivity_iff_symmetricNAT :
    ReportsConnectivity (symmetricNAT.box ⟨v4 192 168 1 2, 4136⟩) documentationServer []
      sampleAlgorithms ⟨v4 192 168 1 2, 4136⟩ (fun _ => .copyOf 12 [1, 2, 3])
      { stunServer := (documentationServer.endpoint .primary).udp
        localAddr := none
        scope := .full } := by
  refine (reportsConnectivity_iff (symmetricNAT.lossless_box _) rfl ?_).mpr (.inr ?_)
  · simp
  · decide +kernel

/-- A network in which every packet is seen to come from this source, and every
answer passes. -/
def unfiltered (source : Transport) : Middlebox Transport Unit where
  outgoing state _ := (source, state)
  incoming _ _ _ := true

/-- With no address given, a host with a public address is reported to be
behind a NAT although nothing is translated, and one behind a NAT that gives it
a private address is reported not to be. -/
theorem exists_not_reportsConnectivity :
    (seen (unfiltered ⟨v4 203 0 113 7, 4136⟩) documentationServer () = ⟨v4 203 0 113 7, 4136⟩ ∧
      ((NatDiscoverer.run sampleAlgorithms (listenUDP (unfiltered ⟨v4 203 0 113 7, 4136⟩)
      documentationServer ⟨v4 203 0 113 7, 4136⟩) (fun _ => .copyOf 12 [1, 2, 3])
          { stunServer := (documentationServer.endpoint .primary).udp
            localAddr := none
            scope := .full } ⟨(), []⟩).map fun result =>
              result.1.connectivity) = .ok .behindNAT) ∧
    seen (unfiltered ⟨v4 192 168 1 2, 50000⟩) documentationServer () ≠ ⟨v4 10 0 0 5, 4136⟩ ∧
      ((NatDiscoverer.run sampleAlgorithms (listenUDP (unfiltered ⟨v4 192 168 1 2, 50000⟩)
      documentationServer ⟨v4 10 0 0 5, 4136⟩) (fun _ => .copyOf 12 [1, 2, 3])
          { stunServer := (documentationServer.endpoint .primary).udp
            localAddr := none
            scope := .full } ⟨(), []⟩).map fun result =>
              result.1.connectivity) = .ok .openInternet := by
  decide +kernel

end Pig.Stun
