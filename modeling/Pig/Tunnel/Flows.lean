import Pig.Tunnel.Conntrack

namespace Pig.Tunnel.Client

open Go Network

/-! The key of a flow. The ports of a datagram stand behind the header, whose
length depends on the options; the tuple has the words that stand behind the
first 20 bytes. -/

structure PortFlow where
  source : Bytes
  target : Bytes
  protocol : UInt8
  sourcePort : Nat
  targetPort : Nat
  deriving DecidableEq, Repr

def transportSourcePort (p : Slice) : Nat := wordAt p (IPv4Packet.headerLen p)

def transportTargetPort (p : Slice) : Nat := wordAt p (IPv4Packet.headerLen p + 2)

namespace PortFlow

/-- A whole datagram of the flow, with any options, at the front of a
buffer. -/
structure Carries (flow : PortFlow) (p : Slice) : Prop where
  version_eq : (p.byte 0 >>> 4).toNat = 4
  header_ge : 20 ≤ IPv4Packet.headerLen p
  transport_le : IPv4Packet.headerLen p + IPv4Packet.leastHeader (p.byte 9) ≤ wordAt p 2
  total_le : wordAt p 2 ≤ p.len
  unfragmented : p.byte 6 &&& 0x3f = 0 ∧ p.byte 7 = 0
  hasPorts : HasPorts p
  protocol_eq : p.byte 9 = flow.protocol
  source_eq : sourceOf p = flow.source
  target_eq : targetOf p = flow.target
  sourcePort_eq : transportSourcePort p = flow.sourcePort
  targetPort_eq : transportTargetPort p = flow.targetPort

def answer (flow : PortFlow) (address : Bytes) : PortFlow where
  source := flow.target
  target := address
  protocol := flow.protocol
  sourcePort := flow.targetPort
  targetPort := flow.sourcePort

def tuple (flow : PortFlow) : Tuple := ⟨4, flow.source, flow.target, flow.protocol,
    .portBased flow.sourcePort flow.targetPort, 0⟩

end PortFlow

def ShowsPorts (p : Slice) : Prop := ∃ tuple, newTuple (.v4 p) = .ok tuple ∧ tuple.protocolData =
      .portBased (transportSourcePort p) (transportTargetPort p)

/-- The packets sent are those of one flow for the table, and their replies are
found. -/
structure OneKey (sum64 : Bytes → UInt64) (ip : Bytes)
    (sent replies : List Slice) : Prop where
  ports : ∀ p ∈ sent ++ replies, ShowsPorts p
  key : ∀ p ∈ sent, ∀ q ∈ sent, ∀ tuple other, newTuple (.v4 p) = .ok tuple → newTuple (.v4 q) = .ok
    other → tuple.toKey sum64 = other.toKey sum64
  reply : ∀ p ∈ sent, ∀ r ∈ replies, ∀ tuple other, newTuple (.v4 p) = .ok tuple → newTuple (.v4 r)
    = .ok other → { replyTuple ip tuple with direction := 0 } = { other with destIP := ip }

/-- The ports stand, or are repeated, right behind the fixed part of the
header. -/
def PortsInPlace (p : Slice) : Prop :=
  wordAt p 20 = transportSourcePort p ∧ wordAt p 22 = transportTargetPort p

instance (p : Slice) : Decidable (PortsInPlace p) := inferInstanceAs (Decidable (_ ∧ _))

theorem portsInPlace_of_headerLen {p : Slice}
    (hheader : IPv4Packet.headerLen p = 20) : PortsInPlace p := by
  rw [PortsInPlace, transportSourcePort, transportTargetPort, hheader]
  exact ⟨rfl, rfl⟩

section

variable {flow : PortFlow} {p : Slice}

theorem PortFlow.Carries.newTuple_eq (carries : flow.Carries p) :
    newTuple (.v4 p) = .ok ⟨4, flow.source, flow.target, flow.protocol,
      .portBased (wordAt p 20) (wordAt p 22), 0⟩ := by
  have hheader := carries.header_ge
  have htransport := carries.transport_le
  have htotal := carries.total_le
  have hleast : 8 ≤ IPv4Packet.leastHeader (p.byte 9) := by
    obtain hprotocol | hprotocol := carries.hasPorts <;> rw [hprotocol] <;> decide
  rw [← carries.source_eq, ← carries.target_eq, ← carries.protocol_eq]
  exact newTuple_of_protocolData carries.version_eq (by omega)
    (protocolData_of_hasPorts carries.hasPorts (by omega))

theorem PortFlow.Carries.showsPorts_iff (carries : flow.Carries p) :
    ShowsPorts p ↔ PortsInPlace p := by
  simp only [ShowsPorts, carries.newTuple_eq, Except.ok.injEq, exists_eq_left',
    ProtocolData.portBased.injEq, PortsInPlace]

theorem PortFlow.Carries.newTuple_of_portsInPlace (carries : flow.Carries p)
    (hports : PortsInPlace p) : newTuple (.v4 p) = .ok flow.tuple := by
  rw [carries.newTuple_eq, hports.1, hports.2, carries.sourcePort_eq, carries.targetPort_eq]
  rfl

end

/-- All datagrams of a flow have one key and the replies are found exactly if
each of them has its ports where a header without options has them. -/
theorem oneKey_iff_portsInPlace (sum64 : Bytes → UInt64) (ip : Bytes) {flow : PortFlow}
    {sent replies : List Slice} (hsent : ∀ p ∈ sent, flow.Carries p)
    (hreplies : ∀ r ∈ replies, ∃ address, (flow.answer address).Carries r) :
    OneKey sum64 ip sent replies ↔ ∀ p ∈ sent ++ replies, PortsInPlace p := by
  constructor
  · intro oneKey p hp
    have hshows := oneKey.ports p hp
    rcases List.mem_append.mp hp with hp | hp
    · exact (hsent p hp).showsPorts_iff.mp hshows
    · obtain ⟨address, carries⟩ := hreplies p hp
      exact carries.showsPorts_iff.mp hshows
  · intro hports
    have hout : ∀ p ∈ sent, newTuple (.v4 p) = .ok flow.tuple := fun p hp =>
      (hsent p hp).newTuple_of_portsInPlace (hports p (List.mem_append_left _ hp))
    refine ⟨fun p hp => ?_, ?_, ?_⟩
    · rcases List.mem_append.mp hp with hout | hback
      · exact (hsent p hout).showsPorts_iff.mpr (hports p hp)
      · obtain ⟨address, carries⟩ := hreplies p hback
        exact carries.showsPorts_iff.mpr (hports p hp)
    · rintro p hp q hq tuple other htuple hother
      cases (hout p hp).symm.trans htuple
      cases (hout q hq).symm.trans hother
      rfl
    · rintro p hp r hr tuple other htuple hother
      obtain ⟨address, carries⟩ := hreplies r hr
      cases (hout p hp).symm.trans htuple
      cases (carries.newTuple_of_portsInPlace
        (hports r (List.mem_append_right _ hr))).symm.trans hother
      rfl

def queryFlow : PortFlow := ⟨[192, 168, 1, 5], [9, 9, 9, 9], 17, 51201, 53⟩

def queryAnswer : Slice := .ofBytes [0x45, 0, 0, 28, 0, 1, 0, 0, 64, 17, 0, 0, 9, 9, 9, 9,
    10, 0, 0, 1, 0, 53, 200, 1, 0, 8, 0, 0]

/-- A query with a router alert between the header and the ports. -/
def alertQuery : Slice := .ofBytes [0x46, 0, 0, 32, 0, 1, 0, 0, 64, 17, 0, 0, 192, 168, 1, 5,
    9, 9, 9, 9, 0x94, 4, 0, 0, 200, 1, 0, 53, 0, 8, 0, 0]

theorem carries_query : queryFlow.Carries (query 5 1) := by
  constructor <;> decide +kernel

theorem carries_queryAnswer : (queryFlow.answer [10, 0, 0, 1]).Carries queryAnswer := by
  constructor <;> decide +kernel

theorem carries_alertQuery : queryFlow.Carries alertQuery := by
  constructor <;> decide +kernel

theorem oneKey_iff_portsInPlace_query : (∀ p ∈ [query 5 1, queryAnswer], PortsInPlace p) ∧
      (OneKey sampleSum [10, 0, 0, 1] [query 5 1] [queryAnswer] ↔
        ∀ p ∈ [query 5 1] ++ [queryAnswer], PortsInPlace p) := by
  have hheader : ∀ p ∈ [query 5 1, queryAnswer], IPv4Packet.headerLen p = 20 := by
    decide +kernel
  exact ⟨fun p hp => portsInPlace_of_headerLen (hheader p hp),
    oneKey_iff_portsInPlace _ _ (List.forall_mem_singleton.mpr carries_query)
      (List.forall_mem_singleton.mpr ⟨_, carries_queryAnswer⟩)⟩

/-- Two datagrams of one flow, of which one has an option: they have different
keys, and the option is taken for the ports. -/
theorem exists_two_keys : queryFlow.Carries (query 5 1) ∧ queryFlow.Carries alertQuery ∧
    (∃ tuple other, newTuple (.v4 (query 5 1)) = .ok tuple ∧ newTuple (.v4 alertQuery) = .ok other ∧
    other.protocolData = .portBased 0x9404 0 ∧ tuple.keyBytes ≠ other.keyBytes ∧ tuple.toKey
    sampleSum ≠ other.toKey sampleSum) ∧ ∀ sum64 ip, ¬ OneKey sum64 ip [query 5 1, alertQuery] [] :=
    by
  refine ⟨carries_query, carries_alertQuery,
    ⟨_, _, carries_query.newTuple_eq, carries_alertQuery.newTuple_eq,
      by decide +kernel, by decide +kernel, by decide +kernel⟩, ?_⟩
  intro sum64 ip oneKey
  have hports := carries_alertQuery.showsPorts_iff.mp (oneKey.ports alertQuery (by simp))
  exact absurd hports (by decide +kernel)

end Pig.Tunnel.Client
