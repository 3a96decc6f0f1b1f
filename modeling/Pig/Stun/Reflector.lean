import Pig.Lib.Translation
import Pig.Stun.Discovery

namespace Pig.Stun

open Go Network Translation

/-! The other end of the discovery: a server with two addresses and two ports
that follows RFC 5780, behind a box that may translate and filter. No packet is
lost. -/

abbrev Transport := Endpoint IPAddress UInt16

def Transport.udp (transport : Transport) : UDPAddr where
  ip := transport.ip.bytes
  port := transport.port.toNat

theorem isIP_bytes (ip : IPAddress) : IsIP ip.bytes := ip.canonical.imp_right (·.1)

theorem to4_bytes (ip : IPAddress) : to4 ip.bytes ≠ [] ↔ ip.bytes.length = 4 := by
  rcases ip.canonical with hfour | ⟨hsixteen, hplain⟩
  · rw [to4_of_length hfour]
    exact iff_of_true ip.bytes_ne_nil hfour
  · rw [to4_of_not_mapped hsixteen hplain]
    exact iff_of_false (not_not.2 rfl) (by omega)

theorem plainIP_bytes (ip : IPAddress) : plainIP ip.bytes = ip.bytes := by
  rw [plainIP]
  split
  · exact to4_of_length ((to4_bytes ip).1 ‹_›)
  · have hsixteen := (isIP_bytes ip).resolve_left
      fun hfour => ‹¬ _› ((to4_bytes ip).2 hfour)
    exact to16_of_length hsixteen

@[ext] structure Side where
  otherIP : Bool
  otherPort : Bool
  deriving DecidableEq, Repr

namespace Side

def primary : Side := ⟨false, false⟩

def opposite (side : Side) : Side := ⟨!side.otherIP, !side.otherPort⟩

def change (side : Side) (flags : UInt32) : Side where
  otherIP := side.otherIP ^^ (flags &&& 0x4 ≠ 0)
  otherPort := side.otherPort ^^ (flags &&& 0x2 ≠ 0)

end Side

structure ReflectiveServer where
  address : IPAddress
  alternate : IPAddress
  port : UInt16
  alternatePort : UInt16
  software : Bytes
  address_ne : address ≠ alternate
  port_ne : port ≠ alternatePort
  length_software : software.length ≤ 763

def plainValue (transport : Transport) : Bytes := [0, if transport.ip.bytes.length = 4 then 0x01
  else 0x02] ++ Bytes.ofNatBE 2 transport.port.toNat ++ transport.ip.bytes

variable (transport : Transport)

theorem length_plainValue : (plainValue transport).length = 8 ∨
      (plainValue transport).length = 20 := by
  simp only [plainValue, List.length_append, List.length_cons, List.length_nil,
    Bytes.length_ofNatBE]
  have hip := isIP_bytes transport.ip
  rw [IsIP] at hip
  omega

theorem plainValue_lt : (plainValue transport).length < 65536 := by
  have hlength := length_plainValue transport
  omega

def maskedValue (txID : FixedBytes 12) (transport : Transport) : Bytes :=
  addressValue txID transport.ip.bytes transport.port.toNat

theorem length_maskedValue (txID : FixedBytes 12) (transport : Transport) :
    (maskedValue txID transport).length = 8 ∨ (maskedValue txID transport).length = 20 := by
  rw [maskedValue, length_addressValue (isIP_bytes _)]
  exact addressLength_cases _

theorem maskedValue_lt (txID : FixedBytes 12) (transport : Transport) :
    (maskedValue txID transport).length < 65536 := by
  have hlength := length_maskedValue txID transport
  omega

def Tlv.padded (code : Nat) (value : Bytes) (code_lt : code < 65536)
    (length_lt : value.length < 65536) : Tlv where
  code := code
  value := value
  padding := List.replicate (calculatePadding value.length) 0
  code_lt := code_lt
  length_lt := length_lt
  length_padding := List.length_replicate

namespace ReflectiveServer

variable (server : ReflectiveServer)

def endpoint (side : Side) : Transport where
  ip := if side.otherIP then server.alternate else server.address
  port := if side.otherPort then server.alternatePort else server.port

theorem endpoint_ip_eq_iff {a b : Side} : (server.endpoint a).ip = (server.endpoint b).ip ↔
      a.otherIP = b.otherIP := by
  have hne := server.address_ne
  simp only [endpoint]
  cases a.otherIP <;> cases b.otherIP <;> simp [hne, hne.symm]

theorem endpoint_eq_iff {a b : Side} : server.endpoint a = server.endpoint b ↔ a = b := by
  have hport : (server.endpoint a).port = (server.endpoint b).port ↔ a.otherPort = b.otherPort := by
    have hne := server.port_ne
    simp only [endpoint]
    cases a.otherPort <;> cases b.otherPort <;> simp [hne, hne.symm]
  rw [Endpoint.ext_iff, Side.ext_iff, hport, server.endpoint_ip_eq_iff]

theorem softwareCode_lt : 0x8022 < 65536 := by
  decide

theorem software_lt : server.software.length < 65536 :=
  Nat.lt_of_le_of_lt server.length_software (by decide)

/-- XOR-MAPPED-ADDRESS, MAPPED-ADDRESS, RESPONSE-ORIGIN, OTHER-ADDRESS and
SOFTWARE, in the answer to a request that was sent to one side from `source` and
is answered by the other side. -/
def attributes (asked answering : Side) (source : Transport) (txID : FixedBytes 12) : List Tlv :=
  [.padded 0x0020 (maskedValue txID source) (by decide) (maskedValue_lt txID source),
    .padded 0x0001 (plainValue source) (by decide) (plainValue_lt source),
    .padded 0x802b (plainValue (server.endpoint answering)) (by decide) (plainValue_lt _),
    .padded 0x802c (plainValue (server.endpoint asked.opposite)) (by decide) (plainValue_lt _),
    .padded 0x8022 server.software softwareCode_lt server.software_lt]

def response (asked answering : Side) (source : Transport) (txID : FixedBytes 12) : Bytes :=
  let tlvs := server.attributes asked answering source txID
  (headerFor msgTypeBindingResponse txID tlvs).serializeTo ++ area tlvs

def changeRequest : (fuel : Nat) → Bytes → UInt32
  | 0, _ => 0
  | fuel + 1, area =>
    if area.length < 4 then 0
    else if (area.window 0 2).toNatBE = 0x0003 then
      UInt32.ofNat (area.window 4 4).toNatBE
    else
      changeRequest fuel (area.drop (attrSerializedSize (area.window 2 2).toNatBE))

def sides : List Side := [⟨false, false⟩, ⟨false, true⟩, ⟨true, false⟩, ⟨true, true⟩]

def answer (dest source : Transport) (request : Bytes) : Option (Transport × Bytes) :=
  match sides.find? (server.endpoint · = dest) with
  | none => none
  | some asked =>
    let header := headerAt (.ofBytes request)
    if request.length < 20 ∨ header.type ≠ msgTypeBindingRequest ∨
        header.magicCookie ≠ Stun.magicCookie then none
    else
      let flags := changeRequest request.length (request.drop 20)
      let answering := asked.change flags
      some (server.endpoint answering, server.response asked answering source header.transactionID)

end ReflectiveServer

structure Net (State : Type) where
  box : State
  inbox : List Bytes

def Transport.ofUDPAddr (addr : UDPAddr) : Option Transport :=
  if h : (plainIP addr.ip).length = 4 ∨ (plainIP addr.ip).length = 16 ∧
      (plainIP addr.ip).take 12 ≠ v4InV6 then
    some { ip := ⟨plainIP addr.ip, h⟩, port := UInt16.ofNat addr.port }
  else none

theorem Transport.ofUDPAddr_udp :
    ofUDPAddr transport.udp = some transport := by
  have hplain : plainIP transport.udp.ip = transport.ip.bytes := plainIP_bytes transport.ip
  have hport : UInt16.ofNat transport.udp.port = transport.port := UInt16.ofNat_toNat
  have hcanonical := transport.ip.canonical
  simp only [ofUDPAddr, hplain, hport]
  exact dif_pos hcanonical

section

variable {State : Type} (box : Middlebox Transport State) (server : ReflectiveServer)

def send (net : Net State) (datagram : Bytes) (dest : Transport) : Net State :=
  let sent := box.outgoing net.box dest
  match server.answer dest sent.1 datagram with
  | none => { net with box := sent.2 }
  | some (source, reply) =>
    if box.incoming sent.2 sent.1 source then
      { box := sent.2, inbox := net.inbox ++ [reply] }
    else { net with box := sent.2 }

def conn (localAddr : UDPAddr) : UDPConn (Net State) where
  localAddr := localAddr
  writeToUDP net datagram dest :=
    match Transport.ofUDPAddr dest with
    | none => .error "sendto: invalid argument"
    | some dest => .ok (send box server net datagram dest)
  readFromUDP net :=
    match net.inbox with
    | [] => (.ok none, net)
    | datagram :: rest => (.ok (some datagram), { net with inbox := rest })

def wildcard : NatDiscoverer.UDPNetwork → Bytes
  | .udp4 => [0, 0, 0, 0]
  | .udp6 => ipv6zero

/-- A socket of the host, whose packets leave from its address and port. -/
def listenUDP (host : Transport) (network : NatDiscoverer.UDPNetwork)
    (addr : UDPAddr) : Except String (UDPConn (Net State)) :=
  if addr.port ≠ 0 ∧ addr.port ≠ host.port.toNat then
    .error "bind: address already in use"
  else if addr.ip = [] ∨ isUnspecified addr.ip then
    .ok (conn box server { ip := wildcard network, port := host.port.toNat })
  else if ipEqual addr.ip host.ip.bytes then .ok (conn box server host.udp)
  else .error "bind: cannot assign requested address"

end

def requestAttributes (changeFlags : UInt32) : List Attribute :=
  if changeFlags ≠ 0 then [.changeRequest changeFlags] else []

theorem buildBindingRequest_complete (algorithms : Algorithms)
    (txID : FixedBytes 12) (changeFlags : UInt32) :
    ∃ req, NatDiscoverer.buildBindingRequest algorithms txID changeFlags = .ok req ∧ req.Complete
      msgTypeBindingRequest txID (requestAttributes changeFlags) := by
  obtain ⟨bare, hbare, complete, -⟩ := @newMessage_complete msgTypeBindingRequest txID [] .nil
      fun attr hattr => by cases hattr
  have hbuild : Stun.buildBindingRequest algorithms
      (some NatDiscoverer.bindingOpts) txID = .ok bare := by
    change (newMessageWithTransactionID msgTypeBindingRequest [] txID).mapError
      _ >>= _ = _
    rw [hbare]
    rfl
  rw [NatDiscoverer.buildBindingRequest, hbuild, ok_bind, requestAttributes]
  split
  · have hlength : (Attribute.changeRequest changeFlags).value.length <
        65536 := by
      rw [Attribute.value, Bytes.length_ofNatBE]
      decide
    obtain ⟨req, hreq, hcomplete, -⟩ := complete.assembled.appendAttribute hlength (by simp)
    rw [hreq]
    exact ⟨req, rfl, hcomplete⟩
  · exact ⟨bare, rfl, complete⟩

theorem changeRequest_encoded (changeFlags : UInt32) {fuel : Nat} (hfuel : fuel ≠ 0) :
    ReflectiveServer.changeRequest fuel
      (encoded (requestAttributes changeFlags)) = changeFlags := by
  obtain ⟨fuel, rfl⟩ := Nat.exists_eq_succ_of_ne_zero hfuel
  rw [requestAttributes]
  split
  · have hlt : changeFlags.toNat < 256 ^ 4 := changeFlags.toNat_lt
    have hbytes : encoded [.changeRequest changeFlags] =
        [0, 3, 0, 4] ++ Bytes.ofNatBE 4 changeFlags.toNat := by
      have htake : (Bytes.ofNatBE 4 changeFlags.toNat).take 65535 = Bytes.ofNatBE 4
        changeFlags.toNat := List.take_of_length_le (by rw [Bytes.length_ofNatBE]; decide)
      simp only [encoded, area, List.map_cons, List.map_nil, List.flatMap_cons, List.flatMap_nil,
        Tlv.bytes, Attribute.toTlv, Attribute.value, htake, Bytes.length_ofNatBE, List.append_nil]
      have hpadding : List.replicate (calculatePadding 4) (0 : UInt8) = [] := rfl
      have hfront : (Bytes.ofNatBE 2 Kind.changeRequest.code ++
          Bytes.ofNatBE 2 4) = [0, 3, 0, 4] := by decide
      rw [hpadding, List.append_nil, ← hfront]
      rfl
    have hcode : (([0, 3, 0, 4] ++ Bytes.ofNatBE 4 changeFlags.toNat :
        Bytes).window 0 2).toNatBE = 3 := rfl
    rw [hbytes, ReflectiveServer.changeRequest]
    have hvalue : ([0, 3, 0, 4] ++ Bytes.ofNatBE 4 changeFlags.toNat :
        Bytes).window 4 4 = Bytes.ofNatBE 4 changeFlags.toNat :=
      List.take_of_length_le (Nat.le_of_eq (Bytes.length_ofNatBE _ _))
    rw [if_neg (by simp), if_pos hcode, hvalue, Bytes.toNatBE_ofNatBE,
      Nat.mod_eq_of_lt hlt, UInt32.ofNat_toNat]
  · rename_i hzero
    exact (not_not.1 hzero).symm

theorem contents_readBuffer {datagram : Bytes} (hlength : datagram.length ≤ 1500) :
    (readBuffer datagram).contents = datagram := by
  have htake : datagram.take 1500 = datagram := List.take_of_length_le hlength
  change (datagram.take 1500 ++ _).take (min 1500 datagram.length) = datagram
  rw [htake, Nat.min_eq_right hlength]
  exact List.take_left

theorem decodeOtherAddress_plainValue :
    decodeOtherAddress (plainValue transport) = .ok (transport.ip.bytes, transport.port.toNat) := by
  have hlt : transport.port.toNat < 256 ^ 2 := transport.port.toNat_lt
  have hport : ((plainValue transport).window 2 2).toNatBE = transport.port.toNat := by
    have hwindow : (plainValue transport).window 2 2 = Bytes.ofNatBE 2 transport.port.toNat :=
      Bytes.window_middle rfl (Bytes.length_ofNatBE _ _)
    rw [hwindow, Bytes.toNatBE_ofNatBE, Nat.mod_eq_of_lt hlt]
  have hdrop : (plainValue transport).drop 4 = transport.ip.bytes := rfl
  have hlength : (plainValue transport).length = 4 + transport.ip.bytes.length := by
    simp only [plainValue, List.length_append, List.length_cons,
      List.length_nil, Bytes.length_ofNatBE]
  rw [decodeOtherAddress, if_neg (by omega), hport]
  rcases isIP_bytes transport.ip with hfour | hsixteen
  · have hfamily : (plainValue transport).getD 1 0 = 0x01 := by
      simp [plainValue, hfour]
    have hip : (plainValue transport).window 4 4 = transport.ip.bytes := by
      rw [Bytes.window, hdrop, List.take_of_length_le (by omega)]
    simp only [hfamily, hip, if_neg (by omega : ¬ (plainValue transport).length < 8)]
  · have hfamily : (plainValue transport).getD 1 0 = 0x02 := by
      simp [plainValue, hsixteen]
    have hip : (plainValue transport).window 4 16 = transport.ip.bytes := by
      rw [Bytes.window, hdrop, List.take_of_length_le (by omega)]
    simp only [hfamily, hip, if_neg (by omega : ¬ (plainValue transport).length < 20)]

namespace ReflectiveServer

variable (server : ReflectiveServer) {asked answering : Side}
  {source : Transport} {txID : FixedBytes 12}

theorem find_sides (side : Side) :
    sides.find? (server.endpoint · = server.endpoint side) = some side := by
  simp only [endpoint_eq_iff]
  obtain ⟨otherIP, otherPort⟩ := side
  cases otherIP <;> cases otherPort <;> rfl

theorem answer_request {changeFlags : UInt32} {req : Message}
    (complete : req.Complete msgTypeBindingRequest txID (requestAttributes changeFlags)) :
    server.answer (server.endpoint asked) source req.raw =
      some (server.endpoint (asked.change changeFlags),
        server.response asked (asked.change changeFlags) source txID) := by
  have hheader := headerAt_of_contents ((Slice.contents_ofBytes req.raw).trans complete.raw_eq)
  have hlong : ¬ req.raw.length < 20 := by
    rw [complete.raw_eq, List.length_append, length_serializeTo]
    omega
  have harea : req.raw.drop 20 = encoded (requestAttributes changeFlags) := by
    rw [complete.raw_eq]
    exact List.drop_left' (length_serializeTo _)
  simp only [answer, find_sides, hheader, harea,
    changeRequest_encoded changeFlags (by omega : req.raw.length ≠ 0)]
  rw [if_neg]
  · rfl
  · rintro (hshort | htype | hcookie)
    · exact hlong hshort
    · exact htype rfl
    · exact hcookie rfl

theorem length_area_attributes :
    (area (server.attributes asked answering source txID)).length ≤ 866 := by
  have hmasked := length_maskedValue txID source
  have hmapped := length_plainValue source
  have horigin := length_plainValue (server.endpoint answering)
  have hother := length_plainValue (server.endpoint asked.opposite)
  have hsoftware := server.length_software
  simp only [attributes, area, List.flatMap_cons, List.flatMap_nil, List.length_append,
    List.length_nil, Tlv.length_bytes, attrSerializedSize, Tlv.padded, calculatePadding]
  split_ifs <;> omega

theorem wellFormed_attributes : WellFormedArea (server.attributes asked answering source txID) := by
  have hmasked := length_maskedValue txID source
  have hmapped := length_plainValue source
  have hother := length_plainValue (server.endpoint asked.opposite)
  constructor
  · intro tlv htlv
    simp only [attributes, List.mem_cons, List.not_mem_nil, or_false] at htlv
    rcases htlv with rfl | rfl | rfl | rfl | rfl
    · exact Bool.or_eq_true_iff.2 (hmasked.imp beq_iff_eq.2 beq_iff_eq.2)
    · exact Bool.or_eq_true_iff.2 (hmapped.imp beq_iff_eq.2 beq_iff_eq.2)
    · exact (by decide : 0x8000 ≤ 0x802b)
    · exact Bool.or_eq_true_iff.2 (hother.imp beq_iff_eq.2 beq_iff_eq.2)
    · exact (by decide : 0x8000 ≤ 0x8022)
  · exact Nat.le_trans server.length_area_attributes (by decide)

theorem aligned_attributes : UnknownAligned (server.attributes asked answering source txID) := by
  have horigin := length_plainValue (server.endpoint answering)
  intro tlv htlv hunknown
  simp only [attributes, List.dropLast_cons_cons, List.dropLast_singleton,
    List.mem_cons, List.not_mem_nil, or_false] at htlv
  rcases htlv with rfl | rfl | rfl | rfl
  · cases hunknown
  · cases hunknown
  · change (plainValue (server.endpoint answering)).length % 4 = 0
    omega
  · cases hunknown

def message (asked answering : Side) (source : Transport) (txID : FixedBytes 12) : Message where
  header := headerFor msgTypeBindingResponse txID (server.attributes asked answering source txID)
  attributes := [.xorMappedAddress (maskedValue txID source), .mappedAddress (plainValue source),
      .otherAddress (plainValue (server.endpoint asked.opposite))]
  raw := server.response asked answering source txID
  fingerprint := false

theorem decodeMessage_response :
    decodeMessage (readBuffer (server.response asked answering source txID)) =
      .ok (server.message asked answering source txID) := by
  have hlength : (server.response asked answering source txID).length ≤
      1500 := by
    rw [response, List.length_append, length_serializeTo]
    exact Nat.le_trans (Nat.add_le_add_left server.length_area_attributes 20) (by decide)
  have hcontents := contents_readBuffer hlength
  have hdecode := decodeMessage_of_area server.wellFormed_attributes
    server.aligned_attributes hcontents
  rwa [hcontents] at hdecode

theorem processBindingResponse_message (algorithms : Algorithms) : processBindingResponse algorithms
      (server.message asked answering source txID) txID (some NatDiscoverer.bindingOpts) = .ok
      ⟨txID, source.ip.bytes, source.port.toNat⟩ := by
  have hport : 0 ≤ (source.port.toNat : Int) ∧ (source.port.toNat : Int) < 65536 :=
    ⟨Int.natCast_nonneg _, by exact_mod_cast source.port.toNat_lt⟩
  have haddress : (server.message asked answering source txID).mappedAddrPort =
      .ok (source.ip.bytes, source.port.toNat) := by
    change Except.mapError _ (decodeXorMappedAddress (maskedValue txID source) txID) = _
    rw [maskedValue, decodeXorMappedAddress_addressValue (isIP_bytes _) hport, plainIP_bytes]
    rfl
  have hacceptable : Acceptable algorithms NatDiscoverer.bindingOpts
      (server.message asked answering source txID) := by
    constructor
    · have hmod := length_area_mod (server.attributes asked answering source txID)
      apply UInt16.toNat_inj.mp
      change _ % 65536 % 4 = 0
      omega
    · intro hrequires
      cases hrequires
  have expects : Expects (server.message asked answering source txID).header.authenticated
      txID := {
    genuine := ⟨(by decide : msgTypeBindingResponse &&& 0xc000 = 0), rfl⟩
    transactionID := rfl
    method := (by decide : validateMethodAndClass msgTypeBindingResponse
      methodBinding [classSuccessResponse, classErrorResponse] = .ok ())
    not_error := (by decide : isErrorResponseType msgTypeBindingResponse = false)
    success :=
      (by decide : isSuccessResponseType msgTypeBindingResponse = true) }
  have hintegrity : validateShortTermIntegrity algorithms (server.message asked answering source
      txID) NatDiscoverer.bindingOpts.auth = .ok () := rfl
  exact (processBindingResponse_iff hintegrity).mpr ⟨expects, hacceptable, haddress, rfl⟩

end ReflectiveServer

end Pig.Stun
