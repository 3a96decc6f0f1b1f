import Pig.Lib.Tracking
import Pig.Tunnel.Reframing

namespace Pig.Tunnel.Client

open Go Network Tracking

/-! Connection tracking: a packet that leaves is noted under its tuple and under
the tuple of its replies, which come back to the adapter's address. -/

def icmpTypeEchoReply : UInt8 := 0
def icmpTypeEchoRequest : UInt8 := 8

namespace ProtocolData

def inverted : ProtocolData → ProtocolData
  | .generic data => .generic data
  | .portBased srcPort destPort => .portBased destPort srcPort
  | .icmp type code =>
    if type = icmpTypeEchoRequest then .icmp icmpTypeEchoReply code
    else if type = icmpTypeEchoReply then .icmp icmpTypeEchoRequest code
    else .icmp type code

def bytes : ProtocolData → Bytes
  | .generic data => [data]
  | .portBased srcPort destPort =>
    Bytes.ofNatBE 2 srcPort ++ Bytes.ofNatBE 2 destPort
  | .icmp type code => [type, code]

def InRange : ProtocolData → Prop
  | .portBased srcPort destPort => srcPort < 65536 ∧ destPort < 65536
  | _ => True

end ProtocolData

namespace Tuple

def inverted (tuple : Tuple) : Tuple where
  family := tuple.family
  srcIP := tuple.destIP
  destIP := tuple.srcIP
  protocol := tuple.protocol
  protocolData := tuple.protocolData.inverted
  direction := tuple.direction ^^^ 1

/-- The key starts with `size` zero bytes: the fields are appended to a slice
that was made with that length. -/
def keyBytes (tuple : Tuple) : Bytes :=
  let size :=
    if tuple.family = 4 then 14 else if tuple.family = 6 then 262 else 0
  List.replicate size 0 ++ [tuple.family] ++ tuple.srcIP ++ tuple.destIP ++
    [tuple.protocol] ++ tuple.protocolData.bytes

def toKey (sum64 : Bytes → UInt64) (tuple : Tuple) : UInt64 := sum64 tuple.keyBytes

end Tuple

abbrev Conntrack := UInt64 → Option ConnTrackEntry

section

variable (sum64 : Bytes → UInt64) (ip : Bytes)

def Conntrack.load (table : Conntrack) (tuple : Tuple) : Option ConnTrackEntry :=
  table (tuple.toKey sum64)

def Conntrack.store (table : Conntrack) (tuple : Tuple) (entry : ConnTrackEntry) : Conntrack :=
  Function.update table (tuple.toKey sum64) (some entry)

def replyTuple (tuple : Tuple) : Tuple := { tuple.inverted with destIP := ip }

def track (table : Conntrack) (tuple : Tuple) : Conntrack :=
  match table.load sum64 tuple with
  | some _ => table
  | none =>
    let entry : ConnTrackEntry := ⟨some tuple.srcIP⟩
    (table.store sum64 tuple entry).store sum64 (replyTuple ip tuple) entry

/-- What `processPacket` does to the table before it appends the packet to the
batch. -/
def processPacket (table : Conntrack) (pkt : IPPacket) : Checked Conntrack := do
  let totalLen ← pkt.totalLength
  if totalLen = 0 ∨ pkt.slice.len < totalLen then return table
  match pkt with
  | .v4 p => return track sum64 ip table (← newTuple (.v4 p))
  | .v6 _ => return table

def processPackets (pkts : List IPPacket) : Checked Conntrack :=
  pkts.foldlM (processPacket sum64 ip) fun _ => none

end

def Env.tracking (env : Env) (sum64 : Bytes → UInt64) (table : Conntrack) : Env :=
  { env with load := fun _ tuple => table.load sum64 tuple }

def sourceOf (p : Slice) : Bytes := p.array.window 12 4

def targetOf (p : Slice) : Bytes := p.array.window 16 4

def HasPorts (p : Slice) : Prop := p.byte 9 = protocolTCP ∨ p.byte 9 = protocolUDP

instance (p : Slice) : Decidable (HasPorts p) := inferInstanceAs (Decidable (_ ∨ _))

/-- A whole packet at the front of a buffer. The ports stand right behind a
header without options. -/
@[mk_iff]
structure Plain (p : Slice) : Prop where
  version_eq : (p.byte 0 >>> 4).toNat = 4
  header_ge : 20 ≤ IPv4Packet.headerLen p
  transport_le : IPv4Packet.headerLen p + IPv4Packet.leastHeader (p.byte 9) ≤ wordAt p 2
  total_le : wordAt p 2 ≤ p.len
  unfragmented : p.byte 6 &&& 0x3f = 0 ∧ p.byte 7 = 0
  header_eq : HasPorts p → IPv4Packet.headerLen p = 20

instance (p : Slice) : Decidable (Plain p) := decidable_of_iff' _ (plain_iff p)

def echoType (p : Slice) : UInt8 := p.byte (IPv4Packet.headerLen p)

def echoCode (p : Slice) : UInt8 := p.byte (IPv4Packet.headerLen p + 1)

def echoIdentifier (p : Slice) : Nat := wordAt p (IPv4Packet.headerLen p + 4)

/-- A packet that the other side replies to: to its ports, or to an echo
request. -/
def Answerable (p : Slice) : Prop :=
  HasPorts p ∨ p.byte 9 = protocolICMP ∧ echoType p = icmpTypeEchoRequest

instance (p : Slice) : Decidable (Answerable p) := inferInstanceAs (Decidable (_ ∨ _))

/-- Addresses and ports are swapped, or an echo request is answered with the
same identifier. A reply is addressed to the tunnel, whichever host sent. -/
structure IsReply (sent reply : Slice) : Prop where
  plain : Plain reply
  source_eq : sourceOf reply = targetOf sent
  protocol_eq : reply.byte 9 = sent.byte 9
  ports_eq : HasPorts sent → wordAt reply 20 = wordAt sent 22 ∧ wordAt reply 22 = wordAt sent 20
  echo_eq : ¬ HasPorts sent → (sent.byte 9 = protocolICMP ∧ echoType sent = icmpTypeEchoRequest) ∧
      echoType reply = icmpTypeEchoReply ∧ echoCode reply = echoCode sent ∧
      echoIdentifier reply = echoIdentifier sent

def SameReply (first second : Slice) : Prop := targetOf first = targetOf second ∧ first.byte 9 =
  second.byte 9 ∧ (HasPorts first → wordAt first 20 = wordAt second 20 ∧ wordAt first 22 = wordAt
  second 22) ∧ (¬ HasPorts first → echoCode first = echoCode second)

instance (first second : Slice) : Decidable (SameReply first second) :=
  inferInstanceAs (Decidable (_ ∧ _))

/-- No two hosts have flows with the same replies. -/
def Unshared (sent : List Slice) : Prop := ∀ first ∈ sent, ∀ second ∈ sent, Answerable first →
  Answerable second → SameReply first second → sourceOf first = sourceOf second

instance (sent : List Slice) : Decidable (Unshared sent) :=
  inferInstanceAs (Decidable (∀ first ∈ sent, _))

/-- Every reply to a packet sent gets the address of the host that sent it. -/
def ReturnsReplies (env : Env) (sent : List Slice) : Prop := ∀ p ∈ sent, ∀ reply index, IsReply p
  reply → ∃ after, rewrite env index (.v4 reply) = .ok (.v4 after) ∧ IPv4Packet.destinationIP after
  = .ok (sourceOf p)

def dataOf (p : Slice) : ProtocolData :=
  if HasPorts p then .portBased (wordAt p 20) (wordAt p 22)
  else if p.byte 9 = protocolICMP then .icmp (echoType p) (echoCode p)
  else .generic (p.byte 9)

def tupleOf (p : Slice) : Tuple := ⟨4, sourceOf p, targetOf p, p.byte 9, dataOf p, 0⟩

section

variable {p : Slice}

theorem protocolData_of_hasPorts (hports : HasPorts p) (hlen : 24 ≤ p.len) :
    protocolData (.v4 p) (p.byte 9) = .ok (.portBased (wordAt p 20) (wordAt p 22)) := by
  have hget : IPv4Packet.protocol p = .ok (p.byte 9) := if_pos (by omega)
  have hneither : ¬ (p.byte 9 ≠ protocolTCP ∧ p.byte 9 ≠ protocolUDP) :=
    fun h => hports.elim h.1 h.2
  rw [protocolData, if_pos (show _ ∨ _ from hports)]
  simp only [IPPacket.sourcePort, IPv4Packet.sourcePort,
    IPPacket.destinationPort, IPv4Packet.destinationPort]
  rw [hget, ok_bind, if_neg hneither, word_bind_eq_ok]
  refine ⟨by omega, ?_⟩
  rw [ok_bind, if_neg hneither, word_bind_eq_ok]
  exact ⟨by omega, rfl⟩

theorem newTuple_of_protocolData {data : ProtocolData} (hversion : (p.byte 0 >>> 4).toNat = 4)
    (hlen : 20 ≤ p.len) (hdata : protocolData (.v4 p) (p.byte 9) = .ok data) :
    newTuple (.v4 p) = .ok ⟨4, sourceOf p, targetOf p, p.byte 9, data, 0⟩ := by
  have hcap : 20 ≤ p.cap := Nat.le_trans hlen p.len_le
  have hget : IPv4Packet.protocol p = .ok (p.byte 9) := if_pos (by omega)
  have hsource : p.sub 12 16 = .ok (sourceOf p) := if_pos ⟨by decide, by omega⟩
  have htarget : p.sub 16 20 = .ok (targetOf p) := if_pos ⟨by decide, hcap⟩
  simp only [newTuple, IPPacket.version, IPv4Packet.version, bind_assoc, pure_bind]
  rw [p.get_bind_eq_ok]
  refine ⟨by omega, ?_⟩
  simp only [IPPacket.protocol, IPPacket.sourceIP, IPv4Packet.sourceIP,
    IPPacket.destinationIP, IPv4Packet.destinationIP]
  rw [hget, ok_bind, hdata, ok_bind, hsource, ok_bind, htarget, hversion]
  rfl

namespace Plain

variable (plain : Plain p)

include plain

theorem header_le_len :
    IPv4Packet.headerLen p + IPv4Packet.leastHeader (p.byte 9) ≤ p.len :=
  Nat.le_trans plain.transport_le plain.total_le

theorem len_ge : 20 ≤ p.len := Nat.le_trans plain.header_ge (by have := plain.header_le_len; omega)

theorem ports_le (hports : HasPorts p) : 28 ≤ p.len := by
  have hle := plain.header_le_len
  have hleast : 8 ≤ IPv4Packet.leastHeader (p.byte 9) := by
    obtain hprotocol | hprotocol := hports <;> rw [hprotocol] <;> decide
  have hheader := plain.header_ge
  omega

theorem echo_le (hicmp : p.byte 9 = protocolICMP) :
    IPv4Packet.headerLen p + 8 ≤ p.len := by
  have hle := plain.header_le_len
  have hleast : IPv4Packet.leastHeader (p.byte 9) = 8 := by
    rw [hicmp]
    rfl
  omega

theorem length_sourceOf : (sourceOf p).length = 4 := Bytes.length_window _ _ _ <|
    Nat.le_trans (Nat.le_trans (by decide) plain.len_ge) p.len_le

theorem length_targetOf : (targetOf p).length = 4 :=
  Bytes.length_window _ _ _ (Nat.le_trans plain.len_ge p.len_le)

theorem getICMPProtocolData_eq (hicmp : p.byte 9 = protocolICMP) :
    getICMPProtocolData (.v4 p) = .ok (.icmp (echoType p) (echoCode p)) := by
  have hlen := plain.echo_le hicmp
  simp only [getICMPProtocolData, IPPacket.payloadOffset, IPPacket.slice]
  rw [IPv4Packet.payloadOffset_bind_eq_ok]
  refine ⟨by omega, ?_⟩
  rw [Slice.dropFront, dif_pos (by omega), ok_bind, Slice.get_bind_eq_ok]
  refine ⟨by simp only; omega, ?_⟩
  rw [Slice.get_bind_eq_ok]
  refine ⟨by simp only; omega, ?_⟩
  simp [Slice.byte, echoType, echoCode, pure, Except.pure]

theorem protocolData_eq : protocolData (.v4 p) (p.byte 9) = .ok (dataOf p) := by
  rw [dataOf]
  by_cases hports : HasPorts p
  · have hbound := plain.ports_le hports
    rw [if_pos hports]
    exact protocolData_of_hasPorts hports (by omega)
  · rw [protocolData, if_neg hports, if_neg (show ¬ (_ ∨ _) from hports)]
    by_cases hicmp : p.byte 9 = protocolICMP
    · rw [if_pos hicmp, if_pos hicmp]
      exact plain.getICMPProtocolData_eq hicmp
    · rw [if_neg hicmp, if_neg hicmp]
      rfl

theorem newTuple_eq : newTuple (.v4 p) = .ok (tupleOf p) :=
  newTuple_of_protocolData plain.version_eq plain.len_ge plain.protocolData_eq

end Plain

end

section

variable (sum64 : Bytes → UInt64) (ip : Bytes)

def flowOf (p : Slice) : Flow UInt64 ConnTrackEntry where
  out := (tupleOf p).toKey sum64
  back := (replyTuple ip (tupleOf p)).toKey sum64
  host := ⟨some (sourceOf p)⟩

theorem track_eq_note (table : Conntrack) (p : Slice) :
    track sum64 ip table (tupleOf p) = note table (flowOf sum64 ip p) := by
  simp only [track, note, Conntrack.load, flowOf]
  cases table ((tupleOf p).toKey sum64) with
  | none | some entry => rfl

variable {sum64 ip} {p : Slice} {sent : List Slice}

theorem processPacket_eq (plain : Plain p) (table : Conntrack) :
    processPacket sum64 ip table (.v4 p) = .ok (note table (flowOf sum64 ip p)) := by
  have hlen : 6 ≤ (IPPacket.v4 p).slice.len := Nat.le_trans (by decide) plain.len_ge
  have hkept : ¬ ((IPPacket.v4 p).statedLength = 0 ∨
      (IPPacket.v4 p).slice.len < (IPPacket.v4 p).statedLength) := by
    have hheader := plain.header_ge
    have htransport := plain.transport_le
    have htotal := plain.total_le
    simp only [IPPacket.statedLength, IPPacket.slice]
    omega
  rw [processPacket, IPPacket.totalLength_eq hlen, ok_bind, if_neg hkept]
  simp only [plain.newTuple_eq, ok_bind, track_eq_note]
  rfl

theorem processPackets_eq (hplain : ∀ p ∈ sent, Plain p) : processPackets sum64 ip (sent.map .v4) =
      .ok (noteAll (sent.map (flowOf sum64 ip))) := by
  have hfold : ∀ table : Conntrack, (sent.map IPPacket.v4).foldlM (processPacket sum64 ip) table =
        .ok ((sent.map (flowOf sum64 ip)).foldl note table) := by
    induction sent with
    | nil => exact fun table => rfl
    | cons p rest ih =>
      intro table
      rw [List.map_cons, List.foldlM_cons,
        processPacket_eq (hplain p (List.mem_cons_self ..)), ok_bind]
      exact ih (fun q hq => hplain q (List.mem_cons_of_mem p hq)) _
  exact hfold _

end

theorem ProtocolData.bytes_injective {first second : ProtocolData} (hfirst : first.InRange)
    (hsecond : second.InRange) (hbytes : first.bytes = second.bytes) : first = second := by
  have hlength := congrArg List.length hbytes
  cases first with
  | generic data =>
    cases second with
    | generic other => simpa [bytes] using hbytes
    | portBased | icmp => simp [bytes] at hlength
  | portBased srcPort destPort =>
    cases second with
    | portBased otherSrc otherDest =>
      obtain ⟨hsrc, hdest⟩ := List.append_inj hbytes (by simp)
      have hsrc := congrArg Bytes.toNatBE hsrc
      have hdest := congrArg Bytes.toNatBE hdest
      rw [Bytes.toNatBE_ofNatBE, Bytes.toNatBE_ofNatBE] at hsrc hdest
      simp only [InRange] at hfirst hsecond
      rw [show srcPort = otherSrc by omega, show destPort = otherDest by omega]
    | generic | icmp => simp [bytes] at hlength
  | icmp type code =>
    cases second with
    | icmp otherType otherCode => simpa [bytes] using hbytes
    | generic | portBased => simp [bytes] at hlength

theorem Tuple.fields_eq_of_keyBytes (first second : Tuple) (hfamily : first.family = second.family)
    (hsrc : first.srcIP.length = second.srcIP.length) (hdest : first.destIP.length =
    second.destIP.length) (hkey : first.keyBytes = second.keyBytes) :
    first.srcIP = second.srcIP ∧ first.destIP = second.destIP ∧ first.protocol = second.protocol ∧
      first.protocolData.bytes = second.protocolData.bytes := by
  simp only [keyBytes, hfamily, List.append_assoc] at hkey
  have hkey := List.append_cancel_left (List.append_cancel_left hkey)
  obtain ⟨hsrcIP, hkey⟩ := List.append_inj hkey hsrc
  obtain ⟨hdestIP, hkey⟩ := List.append_inj hkey hdest
  obtain ⟨hprotocol, hdata⟩ := List.append_inj hkey rfl
  exact ⟨hsrcIP, hdestIP, List.singleton_inj.1 hprotocol, hdata⟩

theorem wordAt_lt (p : Slice) (position : Nat) : wordAt p position < 65536 := by
  have hhigh := (p.byte position).toNat_lt
  have hlow := (p.byte (position + 1)).toNat_lt
  rw [wordAt]
  omega

theorem inRange_dataOf (p : Slice) : (dataOf p).InRange := by
  rw [dataOf]
  split
  · exact ⟨wordAt_lt p 20, wordAt_lt p 22⟩
  · split <;> trivial

theorem inRange_inverted {data : ProtocolData} (hdata : data.InRange) : data.inverted.InRange := by
  cases data with
  | generic data => trivial
  | portBased srcPort destPort => exact ⟨hdata.2, hdata.1⟩
  | icmp type code =>
    rw [ProtocolData.inverted]
    split
    · trivial
    · split <;> trivial

section

variable {ip : Bytes} {p q : Slice}

theorem tupleOf_eq_of_keyBytes (hp : Plain p) (hq : Plain q)
    (hkey : (tupleOf p).keyBytes = (tupleOf q).keyBytes) :
    tupleOf p = tupleOf q := by
  obtain ⟨hsource, htarget, hprotocol, hdata⟩ := Tuple.fields_eq_of_keyBytes (tupleOf p) (tupleOf q)
    rfl (hp.length_sourceOf.trans hq.length_sourceOf.symm) (hp.length_targetOf.trans
    hq.length_targetOf.symm) hkey
  have hdata := ProtocolData.bytes_injective (inRange_dataOf p) (inRange_dataOf q) hdata
  simp only [tupleOf] at hsource htarget hprotocol ⊢
  rw [hsource, htarget, hprotocol, hdata]

theorem keyBytes_ne_reply (hip : ip.length = 4 ∨ ip.length = 16)
    (hp : Plain p) (hq : Plain q) (hforeign : targetOf p ≠ ip) :
    (tupleOf p).keyBytes ≠ (replyTuple ip (tupleOf q)).keyBytes := by
  intro hkey
  obtain hfour | hsixteen := hip
  · have hfields := Tuple.fields_eq_of_keyBytes (tupleOf p) (replyTuple ip (tupleOf q)) rfl
      (hp.length_sourceOf.trans hq.length_targetOf.symm) (hp.length_targetOf.trans hfour.symm) hkey
    exact hforeign hfields.2.1
  · have hlength := congrArg List.length hkey
    have hdata : ∀ data : ProtocolData, data.bytes.length ≤ 4 := by
      intro data
      cases data <;> simp [ProtocolData.bytes]
    have hout := hdata (dataOf p)
    have hsource := hp.length_sourceOf
    have htarget := hp.length_targetOf
    simp only [Tuple.keyBytes, tupleOf, replyTuple, Tuple.inverted, List.length_append,
      List.length_replicate, List.length_singleton, if_true] at hlength
    omega

end

def keysOf (ip : Bytes) (sent : List Slice) : List Bytes := sent.flatMap fun p =>
    [(tupleOf p).keyBytes, (replyTuple ip (tupleOf p)).keyBytes]

def CollisionFree (sum64 : Bytes → UInt64) (ip : Bytes) (sent : List Slice) : Prop :=
  ∀ first ∈ keysOf ip sent, ∀ second ∈ keysOf ip sent, sum64 first = sum64 second → first = second

instance (sum64 : Bytes → UInt64) (ip : Bytes) (sent : List Slice) : Decidable
  (CollisionFree sum64 ip sent) := inferInstanceAs (Decidable (∀ first ∈ _, _))

section

variable {sum64 : Bytes → UInt64} {ip : Bytes} {sent : List Slice} {p q : Slice}

theorem tupleOf_mem_keysOf (ip : Bytes) (hp : p ∈ sent) : (tupleOf p).keyBytes ∈ keysOf ip sent :=
  List.mem_flatMap.2 ⟨p, hp, by simp⟩

theorem replyTuple_mem_keysOf (ip : Bytes) (hp : p ∈ sent) :
    (replyTuple ip (tupleOf p)).keyBytes ∈ keysOf ip sent :=
  List.mem_flatMap.2 ⟨p, hp, by simp⟩

end

theorem ProtocolData.inverted_inverted (data : ProtocolData) : data.inverted.inverted = data := by
  cases data with
  | generic data | portBased srcPort destPort => rfl
  | icmp type code =>
    by_cases hrequest : type = icmpTypeEchoRequest
    · subst hrequest
      rfl
    · by_cases hreply : type = icmpTypeEchoReply
      · subst hreply
        rfl
      · simp only [inverted, if_neg hrequest, if_neg hreply]

theorem hasPorts_congr {p q : Slice} (hprotocol : p.byte 9 = q.byte 9) :
    HasPorts p ↔ HasPorts q := by
  rw [HasPorts, HasPorts, hprotocol]

section

variable {ip : Bytes} {p q sent reply : Slice}

theorem dataOf_of_ports (hports : HasPorts p) : dataOf p = .portBased (wordAt p 20) (wordAt p 22) :=
  if_pos hports

theorem dataOf_of_icmp (hicmp : p.byte 9 = protocolICMP) :
    dataOf p = .icmp (echoType p) (echoCode p) := by
  have hports : ¬ HasPorts p := by
    rw [HasPorts, hicmp]
    decide
  rw [dataOf, if_neg hports, if_pos hicmp]

theorem IsReply.dataOf_eq (hreply : IsReply sent reply) :
    dataOf reply = (dataOf sent).inverted := by
  by_cases hports : HasPorts sent
  · obtain ⟨hsrc, hdest⟩ := hreply.ports_eq hports
    rw [dataOf_of_ports hports, dataOf_of_ports ((hasPorts_congr hreply.protocol_eq).2 hports),
      hsrc, hdest]
    rfl
  · obtain ⟨⟨hicmp, hrequest⟩, htype, hcode, -⟩ := hreply.echo_eq hports
    rw [dataOf_of_icmp hicmp,
      dataOf_of_icmp (hreply.protocol_eq.trans hicmp), hrequest, htype, hcode]
    rfl

theorem IsReply.keyBytes_eq (hreply : IsReply sent reply) (ip : Bytes) :
    ({ tupleOf reply with destIP := ip } : Tuple).keyBytes =
      (replyTuple ip (tupleOf sent)).keyBytes := by
  simp only [Tuple.keyBytes, replyTuple, Tuple.inverted, tupleOf,
    hreply.source_eq, hreply.protocol_eq, hreply.dataOf_eq]
  rfl

theorem SameReply.dataOf_eq (hsame : SameReply p q) (hp : Answerable p)
    (hq : Answerable q) : dataOf p = dataOf q := by
  obtain ⟨-, hprotocol, hports, hcode⟩ := hsame
  by_cases hwith : HasPorts p
  · obtain ⟨hsrc, hdest⟩ := hports hwith
    rw [dataOf_of_ports hwith, dataOf_of_ports ((hasPorts_congr hprotocol).1 hwith), hsrc, hdest]
  · obtain ⟨hicmp, htype⟩ := hp.resolve_left hwith
    have hother := hq.resolve_left fun h => hwith ((hasPorts_congr hprotocol).2 h)
    rw [dataOf_of_icmp hicmp, dataOf_of_icmp hother.1, htype, hother.2, hcode hwith]

theorem SameReply.replyTuple_eq (hsame : SameReply p q) (hp : Answerable p)
    (hq : Answerable q) (ip : Bytes) :
    replyTuple ip (tupleOf p) = replyTuple ip (tupleOf q) := by
  have hdata := hsame.dataOf_eq hp hq
  obtain ⟨htarget, hprotocol, -, -⟩ := hsame
  simp only [replyTuple, Tuple.inverted, tupleOf, htarget, hprotocol, hdata]

theorem sameReply_of_dataOf (htarget : targetOf p = targetOf q) (hprotocol : p.byte 9 = q.byte 9)
    (hdata : dataOf p = dataOf q) (hp : Answerable p) : Answerable q ∧ SameReply p q := by
  obtain hports | ⟨hicmp, htype⟩ := hp
  · have hother := (hasPorts_congr hprotocol).1 hports
    rw [dataOf_of_ports hports, dataOf_of_ports hother] at hdata
    injection hdata with hsrc hdest
    exact ⟨.inl hother, htarget, hprotocol, fun _ => ⟨hsrc, hdest⟩,
      fun hnot => absurd hports hnot⟩
  · have hother : q.byte 9 = protocolICMP := hprotocol.symm.trans hicmp
    have hnot : ¬ HasPorts p := by
      rw [HasPorts, hicmp]
      decide
    rw [dataOf_of_icmp hicmp, dataOf_of_icmp hother] at hdata
    injection hdata with hsameType hsameCode
    exact ⟨.inr ⟨hother, hsameType.symm.trans htype⟩, htarget, hprotocol,
      fun h => absurd h hnot, fun _ => hsameCode⟩

theorem sameReply_of_keyBytes (hp : Plain p) (hq : Plain q) (hanswerable : Answerable p)
    (hkey : (replyTuple ip (tupleOf p)).keyBytes = (replyTuple ip (tupleOf q)).keyBytes) :
    Answerable q ∧ SameReply p q := by
  obtain ⟨htarget, -, hprotocol, hbytes⟩ := Tuple.fields_eq_of_keyBytes (replyTuple ip (tupleOf p))
    (replyTuple ip (tupleOf q)) rfl (hp.length_targetOf.trans hq.length_targetOf.symm) rfl hkey
  have hinverted := ProtocolData.bytes_injective (inRange_inverted (inRange_dataOf p))
    (inRange_inverted (inRange_dataOf q)) hbytes
  have hdata : dataOf p = dataOf q := by
    rw [← (dataOf p).inverted_inverted, hinverted, ProtocolData.inverted_inverted]
  exact sameReply_of_dataOf htarget hprotocol hdata hanswerable

end

def answer (p : Slice) (a b c d e f : UInt8) : Slice := .ofBytes [0x45, 0, 0, 40, 0, 0, 0, 0, 64,
  p.byte 9, 0, 0, p.byte 16, p.byte 17, p.byte 18, p.byte 19, 0, 0, 0, 0, a, b, c, d, e, f, 0, 0, 0,
  0, 0, 0, 0x50, 0, 0, 0, 0, 0, 0, 0]

section

variable {p : Slice} {a b c d e f : UInt8}

@[simp] theorem len_answer : (answer p a b c d e f).len = 40 := rfl

@[simp] theorem headerLen_answer : IPv4Packet.headerLen (answer p a b c d e f) = 20 := by
  have hfirst : (answer p a b c d e f).byte 0 = 0x45 := rfl
  rw [IPv4Packet.headerLen, hfirst]
  decide

@[simp] theorem protocol_answer : (answer p a b c d e f).byte 9 = p.byte 9 := rfl

theorem total_answer : wordAt (answer p a b c d e f) 2 = 40 :=
  (by decide : (0 : UInt8).toNat * 256 + (40 : UInt8).toNat = 40)

theorem plain_answer : Plain (answer p a b c d e f) where
  version_eq := (by decide : ((0x45 : UInt8) >>> 4).toNat = 4)
  header_ge := Nat.le_of_eq headerLen_answer.symm
  transport_le := by
    have hleast : IPv4Packet.leastHeader (p.byte 9) ≤ 20 := by
      rw [IPv4Packet.leastHeader]
      repeat' split
      all_goals omega
    rw [headerLen_answer, protocol_answer, total_answer]
    exact Nat.add_le_add_left hleast 20
  total_le := by rw [total_answer, len_answer]
  unfragmented := (by decide : (0 : UInt8) &&& 0x3f = 0 ∧ (0 : UInt8) = 0)
  header_eq := fun _ => headerLen_answer

theorem sourceOf_answer (hlen : 20 ≤ p.len) : sourceOf (answer p a b c d e f) = targetOf p := by
  have hcap : 20 ≤ p.cap := Nat.le_trans hlen p.len_le
  refine (p.window_eq_of_byte 16 [p.byte 16, p.byte 17, p.byte 18, p.byte 19] hcap ?_).symm
  intro index hindex
  have hindex : index < 4 := hindex
  obtain rfl | rfl | rfl | rfl : index = 0 ∨ index = 1 ∨ index = 2 ∨ index = 3 := by omega
  all_goals rfl

end

theorem exists_reply {p : Slice} (plain : Plain p)
    (hanswerable : Answerable p) : ∃ reply, IsReply p reply := by
  have hlen := plain.len_ge
  by_cases hports : HasPorts p
  · refine ⟨answer p (p.byte 22) (p.byte 23) (p.byte 20) (p.byte 21) 0 0,
      plain_answer, sourceOf_answer hlen, protocol_answer, fun _ => ⟨rfl, rfl⟩,
      fun hnot => absurd hports hnot⟩
  · have hrequest := hanswerable.resolve_left hports
    refine ⟨answer p icmpTypeEchoReply (echoCode p) 0 0 (p.byte (IPv4Packet.headerLen p + 4))
        (p.byte (IPv4Packet.headerLen p + 4 + 1)),
      plain_answer, sourceOf_answer hlen, protocol_answer,
      fun h => absurd h hports, fun _ => ⟨hrequest, ?_, ?_, ?_⟩⟩
    · rw [echoType, headerLen_answer]
      rfl
    · rw [echoCode, headerLen_answer]
      rfl
    · rw [echoIdentifier, headerLen_answer]
      rfl

section

variable {env : Env} {sum64 : Bytes → UInt64} {table : Conntrack}
  {sent : List Slice} {p reply : Slice} {host : Bytes}

theorem destinationIP_of_copyTo {after : Slice} (hcap : 20 ≤ p.cap) (hhost : host.length = 4)
    (hcopy : IPv4Packet.setDestinationIP p host = .ok after) :
    IPv4Packet.destinationIP after = .ok host := by
  have hto4 : to4 host = host := if_pos hhost
  rw [IPv4Packet.setDestinationIP, hto4, Slice.copyTo_eq_ok_iff,
    List.take_of_length_le (by omega)] at hcopy
  obtain ⟨-, rfl⟩ := hcopy
  have hcapAfter : 20 ≤ (p.write 16 host).cap := by
    rw [Slice.cap_write]
    exact hcap
  have hwindow := (p.write 16 host).window_eq_of_byte 16 host (by rw [hhost]; exact hcapAfter)
    fun index hindex => by
      rw [p.byte_write_of_inside (by omega) (by omega) (by omega)]
      congr 1
      omega
  rw [hhost] at hwindow
  rw [IPv4Packet.destinationIP, Slice.sub_eq_ok_iff]
  exact ⟨⟨by decide, hcapAfter⟩, hwindow⟩

theorem rewrite_reply (index : Nat) (hreply : IsReply p reply) (hhost : host.length = 4)
    (hentry : table (flowOf sum64 env.ip p).back = some ⟨some host⟩) :
    ∃ after, rewrite (env.tracking sum64 table) index (.v4 reply) = .ok (.v4 after) ∧
        IPv4Packet.destinationIP after = .ok host := by
  have hload : (env.tracking sum64 table).load index { tupleOf reply with destIP :=
      (env.tracking sum64 table).ip } = some ⟨some host⟩ := by
    have hkey := hreply.keyBytes_eq env.ip
    simp only [Env.tracking, Conntrack.load, Tuple.toKey] at hkey ⊢
    rw [hkey]
    exact hentry
  have hcap : 20 ≤ reply.cap := Nat.le_trans hreply.plain.len_ge reply.len_le
  obtain ⟨after, hcopy, -⟩ := Slice.ChangedAt.exists_copyTo reply
    (by decide : 16 ≤ 20) hcap (to4 host)
  have hset : IPv4Packet.setDestinationIP reply host = .ok after := hcopy
  refine ⟨after, ?_, destinationIP_of_copyTo hcap hhost hset⟩
  simp only [rewrite, hreply.plain.newTuple_eq, ok_bind, hload, hset]
  rfl

variable (hip : env.ip.length = 4 ∨ env.ip.length = 16) (hplain : ∀ p ∈ sent, Plain p)
  (hforeign : ∀ p ∈ sent, targetOf p ≠ env.ip) (hfree : CollisionFree sum64 env.ip sent)

include hip hplain hforeign hfree

theorem apart_flows : Apart (sent.map (flowOf sum64 env.ip)) := by
  refine ⟨?_, ?_⟩
  · simp only [List.forall_mem_map]
    intro p hp q hq hout
    have hkey := hfree _ (tupleOf_mem_keysOf env.ip hp) _ (tupleOf_mem_keysOf env.ip hq) hout
    have htuple := tupleOf_eq_of_keyBytes (hplain p hp) (hplain q hq) hkey
    simp only [flowOf, htuple]
  · simp only [List.forall_mem_map]
    intro p hp q hq hout
    exact keyBytes_ne_reply hip (hplain p hp) (hplain q hq) (hforeign p hp)
      (hfree _ (tupleOf_mem_keysOf env.ip hp) _ (replyTuple_mem_keysOf env.ip hq) hout)

theorem exists_answer (hp : p ∈ sent) :
    ∃ q ∈ sent, (replyTuple env.ip (tupleOf q)).keyBytes = (replyTuple env.ip (tupleOf p)).keyBytes
      ∧ noteAll (sent.map (flowOf sum64 env.ip)) (flowOf sum64 env.ip p).back = some
      ⟨some (sourceOf q)⟩ := by
  have apart := apart_flows hip hplain hforeign hfree
  obtain ⟨other, hother, hback, hentry⟩ := (kept_noteAll apart).answered _ (List.mem_map_of_mem hp)
  obtain ⟨q, hq, rfl⟩ := List.mem_map.1 hother
  exact ⟨q, hq, hfree _ (replyTuple_mem_keysOf env.ip hq) _
    (replyTuple_mem_keysOf env.ip hp) hback, hentry⟩

theorem returnsReplies_noteAll_iff :
    ReturnsReplies (env.tracking sum64 (noteAll (sent.map (flowOf sum64 env.ip)))) sent ↔
      Unshared sent := by
  constructor
  · intro returns first hfirst second hsecond hone htwo hsame
    -- Both hosts get a reply, and both replies ask for the same key.
    obtain ⟨q, hq, -, hentry⟩ := exists_answer hip hplain hforeign hfree hfirst
    have hlength := (hplain q hq).length_sourceOf
    have hback : (flowOf sum64 env.ip second).back = (flowOf sum64 env.ip first).back := by
      simp only [flowOf, hsame.replyTuple_eq hone htwo]
    have hgets : ∀ p ∈ sent, Answerable p → (flowOf sum64 env.ip p).back =
        (flowOf sum64 env.ip first).back → sourceOf p = sourceOf q := by
      intro p hp hanswerable hsameBack
      obtain ⟨reply, hreply⟩ := exists_reply (hplain p hp) hanswerable
      obtain ⟨after, hafter, hdestination⟩ := returns p hp reply 0 hreply
      obtain ⟨other, hother, hhost⟩ := rewrite_reply 0 hreply hlength (hsameBack ▸ hentry)
      cases hafter.symm.trans hother
      rw [hdestination] at hhost
      exact Except.ok.inj hhost
    exact (hgets first hfirst hone rfl).trans (hgets second hsecond htwo hback).symm
  · intro unshared p hp reply index hreply
    obtain ⟨q, hq, hkey, hentry⟩ := exists_answer hip hplain hforeign hfree hp
    have hanswerable : Answerable p := by
      by_cases hports : HasPorts p
      · exact .inl hports
      · exact .inr (hreply.echo_eq hports).1
    obtain ⟨hother, hsame⟩ := sameReply_of_keyBytes (hplain p hp) (hplain q hq)
      hanswerable hkey.symm
    rw [unshared p hp q hq hanswerable hother hsame]
    exact rewrite_reply index hreply (hplain q hq).length_sourceOf hentry

end

/-- Replies come back to the hosts that sent exactly when no two hosts have
flows with the same replies: ports are not translated, and the identifier of an
echo request is not looked at. -/
theorem returnsReplies_iff_unshared (env : Env) (sum64 : Bytes → UInt64) (sent : List Slice)
    (hip : env.ip.length = 4 ∨ env.ip.length = 16) (hplain : ∀ p ∈ sent, Plain p)
    (hforeign : ∀ p ∈ sent, targetOf p ≠ env.ip) (hfree : CollisionFree sum64 env.ip sent) :
    ∃ table, processPackets sum64 env.ip (sent.map .v4) = .ok table ∧
      (ReturnsReplies (env.tracking sum64 table) sent ↔ Unshared sent) :=
  ⟨_, processPackets_eq hplain, returnsReplies_noteAll_iff hip hplain hforeign hfree⟩

def sampleSum (bytes : Bytes) : UInt64 := bytes.foldl (fun sum byte => sum * 31 + byte.toUInt64) 7

def echoRequest (host identifier : UInt8) : Slice := .ofBytes [0x45, 0, 0, 28, 0, 1, 0, 0, 64, 1, 0,
  0, 192, 168, 1, host, 9, 9, 9, 9, 8, 0, 0, 0, 0, identifier, 0, 1]

def query (host port : UInt8) : Slice := .ofBytes [0x45, 0, 0, 28, 0, 1, 0, 0, 64, 17, 0, 0, 192,
  168, 1, host, 9, 9, 9, 9, 200, port, 0, 53, 0, 8, 0, 0]

/-- Two hosts on different ports, one of which also sends an echo request. -/
theorem returnsReplies_iff_unshared_queries : Unshared [query 5 1, query 6 2, echoRequest 6 1] ∧ ∃
  table, processPackets sampleSum sampleClient.ip ([query 5 1, query 6 2, echoRequest 6 1].map .v4)
  = .ok table ∧ (ReturnsReplies (sampleClient.tracking sampleSum table)
  [query 5 1, query 6 2, echoRequest 6 1] ↔ Unshared [query 5 1, query 6 2, echoRequest 6 1]) :=
  ⟨by decide +kernel, returnsReplies_iff_unshared sampleClient sampleSum _ (.inl rfl)
  (by decide +kernel) (by decide +kernel) (by decide +kernel)⟩

/-- Two hosts send an echo request to the same address. The replies carry
different identifiers, yet one of them reaches the wrong host. -/
theorem exists_not_returnsReplies : ∃ first second : Slice, Plain first ∧ Plain second ∧ sourceOf
      first ≠ sourceOf second ∧ echoIdentifier first ≠ echoIdentifier second ∧ CollisionFree
      sampleSum sampleClient.ip [first, second] ∧ ∃ table, processPackets sampleSum sampleClient.ip
      [.v4 first, .v4 second] = .ok table ∧ ¬ ReturnsReplies (sampleClient.tracking sampleSum table)
      [first, second] := by
  have hplain : ∀ p ∈ [echoRequest 5 1, echoRequest 6 2], Plain p := by
    decide +kernel
  have hforeign : ∀ p ∈ [echoRequest 5 1, echoRequest 6 2], targetOf p ≠ sampleClient.ip := by
    decide +kernel
  have hfree : CollisionFree sampleSum sampleClient.ip [echoRequest 5 1, echoRequest 6 2] := by
    decide +kernel
  have hshared : ¬ Unshared [echoRequest 5 1, echoRequest 6 2] := by
    decide +kernel
  refine ⟨echoRequest 5 1, echoRequest 6 2, hplain _ (by simp), hplain _ (by simp),
    by decide +kernel, by decide +kernel, hfree, _, processPackets_eq hplain, ?_⟩
  rw [returnsReplies_noteAll_iff (.inl rfl) hplain hforeign hfree]
  exact hshared

/-- The same port on two hosts is enough as well. -/
example : ¬ Unshared [query 5 1, query 6 1] := by decide +kernel

end Pig.Tunnel.Client
