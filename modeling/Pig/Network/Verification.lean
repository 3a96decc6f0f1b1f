import Mathlib.Tactic.MkIffOfInductiveProp
import Pig.Network.IPv4
import Pig.Network.Sums

namespace Pig.Network.IPv4Packet

open Go OnesComplement

def header (p : Slice) : Bytes := p.array.window 0 (headerLen p)

def transportLen (p : Slice) : Nat :=
  if p.byte 9 = protocolUDP then wordAt p (headerLen p + 4)
  else wordAt p 2 - headerLen p

def segment (p : Slice) : Bytes := p.array.window (headerLen p) (transportLen p)

def pseudoHeader (p : Slice) : Bytes :=
  p.array.window 12 8 ++ [0, p.byte 9] ++ Bytes.ofNatBE 2 (transportLen p)

def covered (p : Slice) : Bytes :=
  if p.byte 9 = protocolICMP then segment p else pseudoHeader p ++ segment p

def HeaderVerifies (p : Slice) : Prop := Verifies (header p)

def TransportVerifies (p : Slice) : Prop := Verifies (covered p)

instance (p : Slice) : Decidable (HeaderVerifies p) := inferInstanceAs (Decidable (Verifies _))

instance (p : Slice) : Decidable (TransportVerifies p) := inferInstanceAs (Decidable (Verifies _))

@[mk_iff]
structure Complete (p : Slice) : Prop where
  version_eq : (p.byte 0 >>> 4).toNat = 4
  header_ge : 20 ≤ headerLen p
  transport_le : headerLen p + leastHeader (p.byte 9) ≤ wordAt p 2
  total_le : wordAt p 2 ≤ p.len
  unfragmented : p.byte 6 &&& 0x3f = 0 ∧ p.byte 7 = 0
  protocol_mem : p.byte 9 = protocolTCP ∨ p.byte 9 = protocolUDP ∨ p.byte 9 = protocolICMP
  udp_length : p.byte 9 = protocolUDP → 8 ≤ wordAt p (headerLen p + 4) ∧
      headerLen p + wordAt p (headerLen p + 4) ≤ wordAt p 2

instance (p : Slice) : Decidable (Complete p) := decidable_of_iff' _ (complete_iff p)

inductive Side where
  | source
  | destination
  deriving DecidableEq, Repr

def setIP : Side → Slice → Bytes → Checked Slice
  | .source => setSourceIP
  | .destination => setDestinationIP

/-- The last byte of an ICMP message of odd length, which is not summed. -/
def LosesByte (p : Slice) : Prop := p.byte 9 = protocolICMP ∧ transportLen p % 2 = 1 ∧
    p.byte (headerLen p + transportLen p - 1) ≠ 0

instance (p : Slice) : Decidable (LosesByte p) := inferInstanceAs (Decidable (_ ∧ _))

section

variable {p q after : Slice}

theorem headerLen_eq_two_mul (p : Slice) : headerLen p = 2 * (headerLen p / 2) := by
  rw [headerLen]
  omega

theorem total_header (hcap : headerLen p ≤ p.cap) :
    total (header p) = wordSum p 0 (headerLen p / 2) := by
  have heven := headerLen_eq_two_mul p
  rw [header]
  rw [heven] at hcap ⊢
  rw [total_window p _ _ (by omega)]
  congr 1
  omega

theorem headerVerifies_updateIPChecksum (hge : 20 ≤ headerLen p)
    (hlen : headerLen p ≤ p.len) (hupdate : updateIPChecksum p = .ok after) :
    HeaderVerifies after := by
  obtain ⟨found, hfound, hzero, hword, changed⟩ := resum_eq_ok hupdate
  have hle := headerLen_le p
  have hafter := (header_of_updateIPChecksum hupdate).1
  have hcap : headerLen p ≤ after.cap := by
    rw [(changedAt_resum hupdate).cap_eq]
    exact Nat.le_trans hlen p.len_le
  -- The checksum is the complement of the sum over the cleared header.
  rw [payloadOffset_bind_eq_ok, headerLen_cleared,
    sumWords_zero (cleared p 10) (by rw [len_cleared]; omega)] at hfound
  have hbound := wordSum_le (cleared p 10) 0 (headerLen p / 2)
  have hchecksum : found.toNat = 65535 - reduce (wordSum (cleared p 10) 0 (headerLen p / 2)) := by
    have hpure := Except.ok.inj hfound.2
    rw [← hpure, foldSum_eq (by omega)]
  have hsum := wordSum_of_changedAt 0 5 (headerLen p / 2) changed (by omega) hzero
  rw [HeaderVerifies, verifies_iff, total_header (by omega), hafter, hsum]
  rw [hword, hchecksum]
  exact complement_reduce _

theorem headerVerifies_of_changedAt {places : Nat → Prop} (changed : p.ChangedAt places q)
    (hplaces : ∀ index, places index → headerLen p ≤ index) (hge : 20 ≤ headerLen p)
    (hcap : headerLen p ≤ p.cap) (hverifies : HeaderVerifies p) : HeaderVerifies q := by
  have hheader := (header_of_changedAt changed fun index hplace =>
    Nat.le_trans (by omega) (hplaces index hplace)).1
  have hsame : total (header q) = total (header p) := by
    have hcapAfter : headerLen q ≤ q.cap := by
      rw [hheader, changed.cap_eq]
      exact hcap
    rw [total_header hcapAfter, total_header hcap, hheader]
    apply wordSum_congr
    intro index _ hindex
    apply changed.byte_eq
    intro hplace
    have hlow := hplaces index hplace
    omega
  rw [HeaderVerifies, verifies_iff] at hverifies ⊢
  rw [hsame]
  exact hverifies

end

section

variable {p q after : Slice} {place : Nat}

theorem total_pseudoHeader (hcap : 20 ≤ p.cap) (hlength : transportLen p < 65536) :
    total (pseudoHeader p) = wordSum p 12 4 + (p.byte 9).toNat + transportLen p := by
  have haddresses : total (p.array.window 12 8) = wordSum p 12 4 := total_window p 12 4 hcap
  have hprotocol : total [0, p.byte 9] = (p.byte 9).toNat := by
    simp [total, words]
  have hfield : total (Bytes.ofNatBE 2 (transportLen p)) = transportLen p := by
    simp only [total, words, Bytes.ofNatBE, List.nil_append, List.cons_append,
      List.sum_cons, List.sum_nil, UInt8.toNat_ofNat']
    omega
  have height : (p.array.window 12 8).length = 8 := Bytes.length_window _ _ _ hcap
  rw [pseudoHeader, total_append, total_append, haddresses, hprotocol, hfield]
  · rw [height]
  · simp [height]

theorem total_covered (hcap : 20 ≤ p.cap) (hlength : transportLen p < 65536)
    (hicmp : p.byte 9 ≠ protocolICMP) :
    total (covered p) = wordSum p 12 4 + (p.byte 9).toNat + transportLen p + total (segment p) := by
  have heven : (pseudoHeader p).length % 2 = 0 := by
    have height : (p.array.window 12 8).length = 8 := Bytes.length_window _ _ _ hcap
    simp only [pseudoHeader, List.length_append, height, Bytes.length_ofNatBE,
      List.length_cons, List.length_nil]
  rw [covered, if_neg hicmp, total_append heven, total_pseudoHeader hcap hlength]

theorem fields_of_changedAt (place : Nat) (changed : p.ChangedAt (WordPlaces
    (headerLen p + 2 * place)) q) (hge : 20 ≤ headerLen p) (hudp : p.byte 9 = protocolUDP → 3 ≤
    place) :
    headerLen q = headerLen p ∧ q.byte 9 = p.byte 9 ∧
      transportLen q = transportLen p ∧ wordSum q 12 4 = wordSum p 12 4 := by
  have hkeep : ∀ index, index < headerLen p + 2 * place → q.byte index = p.byte index := by
    intro index hindex
    apply changed.byte_eq
    rintro (rfl | rfl) <;> omega
  have hheader : headerLen q = headerLen p := by
    rw [headerLen, headerLen, hkeep 0 (by omega)]
  have hprotocol := hkeep 9 (by omega)
  refine ⟨hheader, hprotocol, ?_, wordSum_congr fun index _ hindex =>
    hkeep index (by omega)⟩
  rw [transportLen, transportLen, hprotocol, hheader]
  split
  · rename_i hprotocolUDP
    have hplace := hudp hprotocolUDP
    exact wordAt_congr (hkeep _ (by omega)) (hkeep _ (by omega))
  · rw [wordAt_congr (hkeep 2 (by omega)) (hkeep (2 + 1) (by omega))]

/-- The checksum of `place` words into the transport header is inside the
segment, and the segment inside the buffer. -/
@[mk_iff]
structure Fits (place : Nat) (p : Slice) : Prop where
  header_ge : 20 ≤ headerLen p
  place_lt : 2 * place + 1 < transportLen p
  segment_le : headerLen p + transportLen p ≤ p.len
  length_lt : transportLen p < 65536
  udp_place : p.byte 9 = protocolUDP → 3 ≤ place

theorem Fits.of_changedAt (fits : Fits place p)
    (changed : p.ChangedAt (WordPlaces (headerLen p + 2 * place)) q) :
    Fits place q := by
  obtain ⟨hheader, hprotocol, hlength, -⟩ :=
    fields_of_changedAt place changed fits.header_ge fits.udp_place
  rw [fits_iff, hheader, hlength, hprotocol, changed.len_eq, ← fits_iff]
  exact fits

theorem Fits.total_segment (fits : Fits place p) (changed : p.ChangedAt
    (WordPlaces (headerLen p + 2 * place)) q) (hzero : wordAt p (headerLen p + 2 * place) = 0) :
    total (segment q) = total (segment p) + wordAt q (headerLen p + 2 * place) := by
  obtain ⟨hheader, -, hlength, -⟩ := fields_of_changedAt place changed fits.header_ge fits.udp_place
  rw [segment, segment, hheader, hlength]
  exact total_window_of_changedAt _ place _ changed fits.place_lt
    (Nat.le_trans fits.segment_le p.len_le) hzero

theorem Fits.total_segment_le (fits : Fits place p) : total (segment p) ≤ 2147450880 := by
  have hlength : (segment p).length = transportLen p :=
    Bytes.length_window _ _ _ (Nat.le_trans fits.segment_le p.len_le)
  have hle := OnesComplement.total_le (segment p)
  have hlt := fits.length_lt
  omega

variable {checksum : UInt32 → UInt16}

theorem transportSums_eq (fits : Fits place p) (hicmp : p.byte 9 ≠ protocolICMP) :
    (do
      let sum ← pseudoHeaderSum p (transportLen p)
      let sum ← sumTransport p (headerLen p) (transportLen p) sum
      return checksum sum) =
      .ok (checksum (UInt32.ofNat (total (covered p)))) := by
  have hlen : 20 ≤ p.len := Nat.le_trans fits.header_ge (Nat.le_trans (by omega) fits.segment_le)
  have hcast : UInt32.ofInt (transportLen p) = UInt32.ofNat (transportLen p) := by
    apply UInt32.toNat_inj.1
    simp only [UInt32.ofInt, UInt32.toNat_ofNat', Nat.reducePow]
    omega
  have hprotocol : (p.byte 9).toUInt32 = UInt32.ofNat (p.byte 9).toNat := by
    simp
  have hpseudo : pseudoHeaderSum p (transportLen p) = .ok (UInt32.ofNat
        (wordSum p 12 4 + (p.byte 9).toNat + transportLen p)) := by
    rw [pseudoHeaderSum, sumWords_zero p hlen, ok_bind, p.get_bind_eq_ok,
      hcast, hprotocol, ← UInt32.ofNat_add, ← UInt32.ofNat_add]
    exact ⟨by omega, rfl⟩
  rw [hpseudo, ok_bind, sumTransport_eq p _ fits.segment_le, ok_bind,
    total_covered (Nat.le_trans hlen p.len_le) fits.length_lt hicmp]
  rfl

def Completes (checksum : UInt32 → UInt16) : Prop := ∀ sum, sum < 4294967296 → 0 < sum +
    (checksum (UInt32.ofNat sum)).toNat ∧ (sum + (checksum (UInt32.ofNat sum)).toNat) % 65535 = 0

theorem completes_foldSum : Completes foldSum := by
  intro sum hsum
  rw [foldSum_eq hsum]
  exact complement_reduce sum

theorem completes_nonzero :
    Completes fun sum => if foldSum sum = 0 then 0xffff else foldSum sum := by
  intro sum hsum
  have hcompletes := completes_foldSum sum hsum
  by_cases hzero : foldSum (UInt32.ofNat sum) = 0
  · simp only [hzero, if_true] at hcompletes ⊢
    simp only [UInt16.reduceToNat] at hcompletes ⊢
    omega
  · simp only [hzero, if_false]
    exact hcompletes

theorem transportVerifies_resum (fits : Fits place p)
    (hicmp : p.byte 9 ≠ protocolICMP) (hcompletes : Completes checksum)
    (hresum : resum p (headerLen p + 2 * place) (fun q => do
      let sum ← pseudoHeaderSum q (transportLen p)
      let sum ← sumTransport q (headerLen p) (transportLen p) sum
      return checksum sum) = .ok after) :
    TransportVerifies after := by
  obtain ⟨found, hfound, hzero, hword, changed⟩ := resum_eq_ok hresum
  have hfirst := changedAt_cleared p (headerLen p + 2 * place)
  have fitsCleared := fits.of_changedAt hfirst
  obtain ⟨hheader, hprotocol, hlength, -⟩ :=
    fields_of_changedAt place hfirst fits.header_ge fits.udp_place
  generalize cleared p (headerLen p + 2 * place) = middle at *
  rw [← hheader, ← hlength] at hfound
  rw [← hprotocol] at hicmp
  rw [← hheader] at hzero hword changed
  have fitsAfter := fitsCleared.of_changedAt changed
  obtain ⟨-, hprotocolAfter, hlengthAfter, hwordsAfter⟩ :=
    fields_of_changedAt place changed fitsCleared.header_ge fitsCleared.udp_place
  have hcap : 20 ≤ middle.cap := Nat.le_trans fitsCleared.header_ge
    (Nat.le_trans (by omega) (Nat.le_trans fitsCleared.segment_le middle.len_le))
  have htotal : total (covered after) = total (covered middle) + found.toNat := by
    rw [total_covered (by rw [changed.cap_eq]; exact hcap) fitsAfter.length_lt
      (by rw [hprotocolAfter]; exact hicmp), total_covered hcap fitsCleared.length_lt hicmp,
      fitsCleared.total_segment changed hzero, hword, hprotocolAfter, hlengthAfter, hwordsAfter]
    omega
  have hbound : total (covered middle) < 4294967296 := by
    have hsegment := fitsCleared.total_segment_le
    have hwords := wordSum_le middle 12 4
    have hbyte := (middle.byte 9).toNat_lt
    have hlt := fitsCleared.length_lt
    rw [total_covered hcap hlt hicmp]
    omega
  rw [transportSums_eq fitsCleared hicmp] at hfound
  rw [TransportVerifies, verifies_iff, htotal, ← Except.ok.inj hfound]
  exact hcompletes _ hbound

theorem transportVerifies_updateTCPChecksum (fits : Fits 8 p)
    (htcp : p.byte 9 = protocolTCP) (hle : headerLen p ≤ wordAt p 2)
    (hupdate : updateTCPChecksum p = .ok after) : TransportVerifies after := by
  have hlength : (wordAt p 2 : Int) - headerLen p = transportLen p := by
    rw [transportLen, if_neg (htcp.trans_ne (by decide))]
    omega
  rw [updateTCPChecksum, payloadOffset_bind_eq_ok, totalLength, word_bind_eq_ok, hlength] at hupdate
  exact transportVerifies_resum fits (htcp.trans_ne (by decide)) completes_foldSum hupdate.2.2

theorem transportVerifies_updateUDPChecksum (fits : Fits 3 p) (hudp : p.byte 9 = protocolUDP)
    (hupdate : updateUDPChecksum p = .ok after) : TransportVerifies after := by
  have hlength : wordAt p (headerLen p + 4) = transportLen p := (if_pos hudp).symm
  have hplace := fits.place_lt
  have hsegment := fits.segment_le
  rw [updateUDPChecksum, payloadOffset_bind_eq_ok, if_neg (by omega),
    word_bind_eq_ok, hlength, if_neg (by omega)] at hupdate
  exact transportVerifies_resum fits (hudp.trans_ne (by decide)) completes_nonzero hupdate.2.2

theorem total_segment_eq (hcap : headerLen p + transportLen p ≤ p.cap) :
    total (segment p) = wordSum p (headerLen p) (transportLen p / 2) + transportLen p % 2 *
        ((p.byte (headerLen p + transportLen p - 1)).toNat * 256) := by
  rw [segment]
  generalize transportLen p = length at *
  obtain ⟨count, rfl | rfl⟩ := Nat.even_or_odd' length
  · rw [total_window p _ _ hcap, Nat.mul_mod_right, Nat.mul_div_cancel_left count (by decide)]
    omega
  · have hhalf : (2 * count + 1) / 2 = count := by omega
    have hodd : (2 * count + 1) % 2 = 1 := by omega
    rw [total_window_odd p _ _ (by omega), hhalf, hodd, Nat.one_mul]
    rfl

theorem transportVerifies_updateICMPChecksum_iff (fits : Fits 1 p) (hicmp : p.byte 9 = protocolICMP)
    (hle : headerLen p ≤ wordAt p 2) (hupdate : updateICMPChecksum p = .ok after) :
    TransportVerifies after ↔ ¬ LosesByte p := by
  have hcount : (((wordAt p 2 : Int) - headerLen p) / 2).toNat = transportLen p / 2 := by
    have hnot : ¬ p.byte 9 = protocolUDP := by
      rw [hicmp]
      decide
    rw [transportLen, if_neg hnot]
    omega
  rw [updateICMPChecksum, payloadOffset_bind_eq_ok, totalLength, word_bind_eq_ok] at hupdate
  obtain ⟨found, hfound, hzero, hword, changed⟩ := resum_eq_ok hupdate.2.2
  have hfirst := changedAt_cleared p (headerLen p + 2)
  have fitsCleared : Fits 1 (cleared p (headerLen p + 2)) := fits.of_changedAt hfirst
  obtain ⟨hheader, hprotocol, hlength, -⟩ :=
    fields_of_changedAt 1 hfirst fits.header_ge fits.udp_place
  have hplace := fits.place_lt
  have hlast : (cleared p (headerLen p + 2)).byte (headerLen p + transportLen p - 1) = p.byte
      (headerLen p + transportLen p - 1) ∨ transportLen p % 2 = 0 := by
    by_cases heven : transportLen p % 2 = 0
    · exact .inr heven
    · refine .inl (hfirst.byte_eq _ ?_)
      rintro (h | h) <;> omega
  generalize cleared p (headerLen p + 2) = middle at *
  have hsegment := fitsCleared.segment_le
  rw [hcount, ← hheader, ← hlength, sumWords_zero middle (by omega), ok_bind] at hfound
  have hbound := wordSum_le middle (headerLen middle) (transportLen middle / 2)
  have hlt := fitsCleared.length_lt
  have hcompletes := completes_foldSum
    (wordSum middle (headerLen middle) (transportLen middle / 2)) (by omega)
  rw [← hheader] at hzero hword changed
  have hicmpAfter : after.byte 9 = protocolICMP := by
    rw [(fields_of_changedAt 1 changed fitsCleared.header_ge
      fitsCleared.udp_place).2.1, hprotocol, hicmp]
  have htotal := fitsCleared.total_segment changed hzero
  rw [total_segment_eq (Nat.le_trans hsegment middle.len_le), hword,
    ← Except.ok.inj hfound] at htotal
  rw [TransportVerifies, covered, if_pos hicmpAfter, verifies_iff, htotal,
    LosesByte, ← UInt8.toNat_inj.ne]
  rw [hheader, hlength] at hcompletes ⊢
  obtain hlast | heven := hlast
  · rw [hlast]
    have hbyte := (p.byte (headerLen p + transportLen p - 1)).toNat_lt
    obtain hparity | hparity := Nat.mod_two_eq_zero_or_one (transportLen p)
    · rw [hparity]
      omega
    · rw [hparity]
      simp only [hicmp, true_and, UInt8.reduceToNat]
      omega
  · rw [heven]
    omega

end

section

variable {p q after : Slice} {places : Nat → Prop}

namespace Complete

variable (complete : Complete p)

include complete

theorem header_le_total : headerLen p ≤ wordAt p 2 :=
  Nat.le_trans (Nat.le_add_right _ _) complete.transport_le

theorem leastHeader_ge : 8 ≤ leastHeader (p.byte 9) := by
  obtain hprotocol | hprotocol | hprotocol := complete.protocol_mem
  all_goals
    rw [hprotocol]
    decide

theorem len_ge : headerLen p + 8 ≤ p.len := by
  have hleast := complete.leastHeader_ge
  have htransport := complete.transport_le
  have htotal := complete.total_le
  omega

section

variable (changed : p.ChangedAt places q)
  (hplaces : ∀ index, places index → 10 ≤ index ∧ index < 20)

include changed hplaces

theorem byte_eq (index : Nat) (hindex : index < 10 ∨ headerLen p ≤ index) :
    q.byte index = p.byte index := by
  have hheader := complete.header_ge
  apply changed.byte_eq
  intro hplace
  have hbetween := hplaces index hplace
  omega

theorem fields_eq :
    headerLen q = headerLen p ∧ q.byte 9 = p.byte 9 ∧ wordAt q 2 = wordAt p 2 ∧ wordAt q
      (headerLen p + 4) = wordAt p (headerLen p + 4) ∧ transportLen q = transportLen p := by
  have hkeep := complete.byte_eq changed hplaces
  have hheader : headerLen q = headerLen p := by
    rw [headerLen, headerLen, hkeep 0 (.inl (by decide))]
  have hprotocol := hkeep 9 (.inl (by decide))
  have htotal : wordAt q 2 = wordAt p 2 :=
    wordAt_congr (hkeep 2 (.inl (by decide))) (hkeep 3 (.inl (by decide)))
  have hudp : wordAt q (headerLen p + 4) = wordAt p (headerLen p + 4) :=
    wordAt_congr (hkeep _ (.inr (by omega))) (hkeep _ (.inr (by omega)))
  refine ⟨hheader, hprotocol, htotal, hudp, ?_⟩
  rw [transportLen, transportLen, hheader, hprotocol, htotal, hudp]

theorem of_changedAt :
    Complete q := by
  have hkeep := complete.byte_eq changed hplaces
  obtain ⟨hheader, hprotocol, htotal, hudp, -⟩ := complete.fields_eq changed hplaces
  rw [complete_iff, hkeep 0 (.inl (by decide)), hkeep 6 (.inl (by decide)),
    hkeep 7 (.inl (by decide)), hheader, hprotocol, htotal, hudp, changed.len_eq, ← complete_iff]
  exact complete

theorem losesByte_iff :
    LosesByte q ↔ LosesByte p := by
  obtain ⟨hheader, hprotocol, -, -, hlength⟩ := complete.fields_eq changed hplaces
  rw [LosesByte, LosesByte, hheader, hprotocol, hlength]
  by_cases hodd : transportLen p % 2 = 1
  · rw [complete.byte_eq changed hplaces _ (.inr (by omega))]
  · simp only [hodd, false_and, and_false]

end

theorem transportLen_eq (hudp : p.byte 9 ≠ protocolUDP) :
    headerLen p + transportLen p = wordAt p 2 := by
  have hle := complete.header_le_total
  rw [transportLen, if_neg hudp]
  omega

theorem fits_of_least {place : Nat} (hudp : p.byte 9 ≠ protocolUDP)
    (hleast : 2 * place + 2 ≤ leastHeader (p.byte 9)) : Fits place p := by
  have hlength := complete.transportLen_eq hudp
  have htransport := complete.transport_le
  have htotal := complete.total_le
  have hword := wordAt_le p 2
  have hheader := complete.header_ge
  exact ⟨hheader, by omega, by omega, by omega, fun h => absurd h hudp⟩

theorem fits_udp (hudp : p.byte 9 = protocolUDP) : Fits 3 p := by
  have hlength : transportLen p = wordAt p (headerLen p + 4) := if_pos hudp
  have hstated := complete.udp_length hudp
  have htotal := complete.total_le
  have hword := wordAt_le p (headerLen p + 4)
  exact ⟨complete.header_ge, by omega, by omega, by omega, fun _ => by decide⟩

theorem transportVerifies_iff (hupdate : updateTransportChecksum p = .ok after) :
    TransportVerifies after ↔ ¬ LosesByte p := by
  have hle := complete.header_le_total
  have hge := complete.header_ge
  have hlen := complete.len_ge
  obtain htcp | hudp | hicmp := complete.protocol_mem
  · rw [updateTransportChecksum_of_tcp (by omega) htcp] at hupdate
    have fits : Fits 8 p := complete.fits_of_least (htcp.trans_ne (by decide))
      (by rw [htcp]; decide)
    exact iff_of_true (transportVerifies_updateTCPChecksum fits htcp hle hupdate)
      fun hloses => absurd (htcp.symm.trans hloses.1) (by decide)
  · rw [updateTransportChecksum_of_udp (by omega) hudp] at hupdate
    exact iff_of_true (transportVerifies_updateUDPChecksum (complete.fits_udp hudp) hudp hupdate)
      fun hloses => absurd (hudp.symm.trans hloses.1) (by decide)
  · rw [updateTransportChecksum_of_icmp (by omega) hicmp] at hupdate
    have fits : Fits 1 p := complete.fits_of_least (hicmp.trans_ne (by decide))
      (by rw [hicmp]; decide)
    exact transportVerifies_updateICMPChecksum_iff fits hicmp hle hupdate

theorem succeeds_updateChecksum : Succeeds (updateChecksum p) := by
  have hlen := complete.len_ge
  have hheader := complete.header_ge
  have htransport := complete.transport_le
  rw [IPv4Packet.succeeds_updateChecksum (by omega)]
  refine fun _ => ⟨by omega, fun _ => by omega, fun htcp => ?_⟩
  rw [htcp] at htransport
  change headerLen p + 20 ≤ _ at htransport
  omega

end Complete

theorem updateChecksum_eq (hlen : 3 < p.len) (htotal : wordAt p 2 ≤ p.len) :
    updateChecksum p = updateIPChecksum p >>= updateTransportChecksum := by
  rw [updateChecksum, totalLength, word_eq hlen, ok_bind, if_neg (by omega)]

theorem updateChecksum_eq_ok (htotal : wordAt p 2 ≤ p.len)
    (hupdate : updateChecksum p = .ok after) :
    ∃ middle, updateIPChecksum p = .ok middle ∧ updateTransportChecksum middle = .ok after := by
  rw [updateChecksum, totalLength, word_bind_eq_ok, if_neg (by omega), bind_eq_ok] at hupdate
  exact hupdate.2

theorem headerVerifies_updateChecksum (hge : 20 ≤ headerLen p)
    (hlen : headerLen p ≤ p.len) (htotal : wordAt p 2 ≤ p.len)
    (hupdate : updateChecksum p = .ok after) : HeaderVerifies after := by
  obtain ⟨middle, hheader, htransport⟩ := updateChecksum_eq_ok htotal hupdate
  have hverifies := headerVerifies_updateIPChecksum hge hlen hheader
  have hsame := (header_of_updateIPChecksum hheader).1
  refine headerVerifies_of_changedAt
    (changedAt_updateTransportChecksum htransport) ?_ (by omega) ?_ hverifies
  · rintro index ⟨offset, -, rfl | rfl⟩ <;> omega
  · rw [hsame, (changedAt_resum hheader).cap_eq]
    exact Nat.le_trans hlen p.len_le

theorem Complete.verifies_iff (complete : Complete p) (hupdate : updateChecksum p = .ok after) :
    HeaderVerifies after ∧ (TransportVerifies after ↔ ¬ LosesByte p) := by
  have hlen := complete.len_ge
  refine ⟨headerVerifies_updateChecksum complete.header_ge (by omega) complete.total_le hupdate, ?_⟩
  obtain ⟨middle, hheader, htransport⟩ := updateChecksum_eq_ok complete.total_le hupdate
  have changed : p.ChangedAt (WordPlaces 10) middle := changedAt_resum hheader
  have hplaces : ∀ index, WordPlaces 10 index → 10 ≤ index ∧ index < 20 := by
    rintro index (rfl | rfl) <;> decide
  rw [(complete.of_changedAt changed hplaces).transportVerifies_iff htransport,
    complete.losesByte_iff changed hplaces]

theorem exists_setIP (side : Side) (ip : Bytes) (hcap : 20 ≤ p.cap) : ∃ q, setIP side p ip = .ok q ∧
      p.ChangedAt (fun index => 12 ≤ index ∧ index < 20) q := by
  cases side with
  | source =>
    obtain ⟨q, hcopy, changed⟩ := Slice.ChangedAt.exists_copyTo p
      (by decide : 12 ≤ 16) (by omega) (to4 ip)
    exact ⟨q, hcopy, changed.widen fun index h => ⟨h.1, by omega⟩⟩
  | destination =>
    obtain ⟨q, hcopy, changed⟩ := Slice.ChangedAt.exists_copyTo p
      (by decide : 16 ≤ 20) hcap (to4 ip)
    exact ⟨q, hcopy, changed.widen fun index h => ⟨by omega, h.2⟩⟩

end

/-- With a new address written, the update touches nothing but the two
checksums, and both of them verify, unless the last byte of an ICMP message of
odd length is left out of its sum. -/
theorem verifies_iff_not_losesByte (p : Slice) (complete : Complete p) (side : Side) (ip : Bytes) :
    ∃ q after, setIP side p ip = .ok q ∧ updateChecksum q = .ok after ∧
      q.ChangedAt (ChecksumPlaces q) after ∧ HeaderVerifies after ∧
      (TransportVerifies after ↔ ¬ LosesByte p) := by
  have hcap : 20 ≤ p.cap := Nat.le_trans complete.header_ge <|
    Nat.le_trans (by have hlen := complete.len_ge; omega) p.len_le
  obtain ⟨q, hset, changed⟩ := exists_setIP side ip hcap
  have hplaces : ∀ index, 12 ≤ index ∧ index < 20 → 10 ≤ index ∧ index < 20 :=
    fun index h => ⟨by omega, h.2⟩
  have completeAfter := complete.of_changedAt changed hplaces
  obtain ⟨after, hupdate⟩ := completeAfter.succeeds_updateChecksum
  obtain ⟨hheader, htransport⟩ := completeAfter.verifies_iff hupdate
  rw [complete.losesByte_iff changed hplaces] at htransport
  exact ⟨q, after, hset, hupdate, changedAt_updateChecksum hupdate, hheader, htransport⟩

def oddDatagram : Slice := .ofBytes [0x46, 0, 0, 33, 0, 1, 0, 0, 64, 17, 0, 0, 192, 168, 1, 5,
    9, 9, 9, 9, 1, 1, 1, 0, 200, 1, 0, 53, 0, 9, 0, 0, 65]

theorem verifies_iff_not_losesByte_oddDatagram : ¬ LosesByte oddDatagram ∧ ∃ q after, setIP .source
  oddDatagram [10, 8, 0, 2] = .ok q ∧ updateChecksum q = .ok after ∧ q.ChangedAt (ChecksumPlaces q)
  after ∧ HeaderVerifies after ∧ (TransportVerifies after ↔ ¬ LosesByte oddDatagram) :=
  ⟨by decide +kernel, verifies_iff_not_losesByte oddDatagram (by decide +kernel) .source
  [10, 8, 0, 2]⟩

def oddEcho : Slice := .ofBytes [0x45, 0, 0, 29, 0, 1, 0, 0, 64, 1, 0, 0, 192, 168, 1, 5,
    9, 9, 9, 9, 8, 0, 0, 0, 0, 1, 0, 1, 65]

theorem exists_not_transportVerifies : Complete oddEcho ∧ ∃ q after, setIP .source oddEcho
      [10, 8, 0, 2] = .ok q ∧ updateChecksum q = .ok after ∧ ¬ TransportVerifies after := by
  refine ⟨by decide +kernel, .ofBytes [0x45, 0, 0, 29, 0, 1, 0, 0, 64, 1, 0, 0, 10, 8, 0, 2, 9, 9,
    9, 9, 8, 0, 0, 0, 0, 1, 0, 1, 65], .ofBytes [0x45, 0, 0, 29, 0, 1, 0, 0, 64, 1, 94, 196, 10, 8,
    0, 2, 9, 9, 9, 9, 8, 0, 247, 253, 0, 1, 0, 1, 65], ?_, ?_, ?_⟩
  all_goals decide +kernel

end Pig.Network.IPv4Packet
