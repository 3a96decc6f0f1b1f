import Pig.Stun.Area

namespace Pig.Stun

open Go

/-- The decoder returns the registered attributes, in order, and the same ones
when those of unknown types are left out. -/
def SkipsUnknown (tlvs : List Tlv) : Prop := ∀ data stripped : Slice, data.contents = area tlvs →
    stripped.contents = area (tlvs.filter fun tlv => ¬ tlv.Unknown) → decodeAttributes data = .ok
    (tlvs.filterMap Tlv.decoded) ∧ decodeAttributes stripped = .ok (tlvs.filterMap Tlv.decoded)

section

variable {tlvs : List Tlv}

theorem length_area_filter (keep : Tlv → Bool) :
    (area (tlvs.filter keep)).length ≤ (area tlvs).length := by
  induction tlvs with
  | nil => exact Nat.le_refl _
  | cons tlv tlvs ih =>
    rw [area_cons, List.length_append]
    cases hkeep : keep tlv with
    | true =>
      rw [List.filter_cons_of_pos hkeep, area_cons, List.length_append]
      omega
    | false =>
      rw [List.filter_cons_of_neg (by simp [hkeep])]
      omega

theorem WellFormedArea.filter (hformed : WellFormedArea tlvs)
    (keep : Tlv → Bool) : WellFormedArea (tlvs.filter keep) where
  wellFormed := fun tlv htlv =>
    hformed.wellFormed tlv (List.mem_filter.mp htlv).1
  length_le := Nat.le_trans (length_area_filter keep) hformed.length_le

theorem filterMap_registered : (tlvs.filter fun tlv => ¬ tlv.Unknown).filterMap Tlv.decoded =
      tlvs.filterMap Tlv.decoded := by
  induction tlvs with
  | nil => rfl
  | cons tlv tlvs ih =>
    by_cases hunknown : tlv.Unknown
    · rw [List.filter_cons_of_neg (by simpa using hunknown), ih, List.filterMap_cons_none]
      rw [Tlv.decoded, hunknown]
      rfl
    · rw [List.filter_cons_of_pos (by simpa using hunknown),
        List.filterMap_cons, List.filterMap_cons, ih]

theorem skipsUnknown_of_aligned (hformed : WellFormedArea tlvs)
    (haligned : UnknownAligned tlvs) : SkipsUnknown tlvs := by
  intro data stripped hdata hstripped
  constructor
  · exact decodeAttributes_area hformed haligned data hdata
  · rw [← filterMap_registered]
    refine decodeAttributes_area (hformed.filter _) ?_ stripped hstripped
    intro tlv htlv hunknown
    have hregistered := (List.mem_filter.mp ((List.dropLast_sublist _).mem htlv)).2
    simp [hunknown] at hregistered

end

theorem kind_ofValue (kind : Kind) (value : Bytes) :
    (Attribute.ofValue kind value).kind = kind := by
  cases kind <;> rfl

theorem front_of_single {rest : Slice} {attr : Attribute} (hlen : rest.len ≤ 7)
    (hdecode : decodeAttributes rest = .ok [attr]) :
    codeAt rest = attr.getType ∧ 4 + lengthAt rest ≤ rest.len := by
  by_cases hshort : rest.len < 4
  · cases (decodeAttributes_of_finished (front_of_short hshort)).symm.trans hdecode
  · cases hcode : typeRegistry (codeAt rest) with
    | none =>
      rw [decodeAttributes_of_skipped (front_of_unknown (by omega) hcode),
        decodeAttributes_of_finished (front_of_short (by rw [len_advance]; omega))] at hdecode
      cases hdecode
    | some kind =>
      by_cases haccepts : kind.Accepts rest.len (lengthAt rest)
      · have hne : kind ≠ .errorCode := by
          rintro rfl
          have hleast : 8 ≤ rest.len := haccepts.1
          omega
        have hinside := haccepts.inside hne
        obtain ⟨hfront, -⟩ := front_of_accepts (by omega) (by omega) hcode
          haccepts (Nat.le_trans (by omega) rest.len_le)
        rw [decodeAttributes_of_decoded hfront, bind_eq_ok] at hdecode
        obtain ⟨attrs, -, hattrs⟩ := hdecode
        cases hattrs
        rw [Attribute.getType, kind_ofValue]
        exact ⟨(code_of_typeRegistry hcode).symm, by omega⟩
      · obtain ⟨cause, hfront⟩ := front_of_rejects (by omega) hcode haccepts
        cases (decodeAttributes_of_error hfront).symm.trans hdecode

theorem padding_of_misread {rest : Slice} {padding : Bytes} {low : UInt8} (hne : padding ≠ [])
    (hpadding : padding.length < 4) (hlow : 2 < low.toNat) (hrest : rest.contents = padding ++
    [0, low, 0, 0]) (hcode : codeAt rest = low.toNat) (hinside : 4 + lengthAt rest ≤ rest.len) :
    padding = [0, low, 0] := by
  have hlen : rest.len = padding.length + 4 := by
    rw [← rest.length_contents, hrest, List.length_append]
    rfl
  rw [codeAt, rest.window_contents (by omega), hrest] at hcode
  rw [lengthAt, rest.window_contents (by omega), hrest] at hinside
  rcases padding with _ | ⟨first, _ | ⟨second, _ | ⟨third, _ | ⟨_, _⟩⟩⟩⟩
  · exact absurd rfl hne
  · simp [Bytes.window, Bytes.toNatBE] at hcode
    have hbyte := low.toNat_lt
    omega
  · simp [Bytes.window, Bytes.toNatBE] at hinside hlen
    omega
  · simp [Bytes.window, Bytes.toNatBE] at hcode hinside hlen
    have hbyte := low.toNat_lt
    have hfirst : first = 0 := UInt8.toNat_inj.mp (by simp; omega)
    have hthird : third = 0 := UInt8.toNat_inj.mp (by simp; omega)
    have hsecond : second = low := UInt8.toNat_inj.mp (by omega)
    rw [hfirst, hsecond, hthird]
  · simp at hpadding
    omega

def Tlv.bare (kind : Kind) : Tlv where
  code := kind.code
  value := []
  padding := []
  code_lt := kind.code_lt
  length_lt := by decide
  length_padding := rfl

/-- An unknown attribute that is padded, followed by an attribute without a
value whose type the padding does not spell. -/
theorem exists_not_skipsUnknown {tlv : Tlv} (hunknown : tlv.Unknown) (hformed : tlv.WellFormed)
    (hroom : tlv.bytes.length + 4 ≤ 65535) (hunaligned : tlv.value.length % 4 ≠ 0) :
    ∃ kind, WellFormedArea [tlv, .bare kind] ∧ ¬ SkipsUnknown [tlv, .bare kind] := by
  obtain ⟨kind, low, hkind, hlow, hbytes, hspells⟩ : ∃ (kind : Kind) (low : UInt8),
        (kind = .username ∨ kind = .iceUseCandidate) ∧ low.toNat = kind.code ∧ (Tlv.bare kind).bytes
        = [0, low, 0, 0] ∧ tlv.padding ≠ [0, low, 0] := by
    by_cases hpadding : tlv.padding = [0, 0x25, 0]
    · exact ⟨.username, 0x06, .inl rfl, rfl, rfl, by rw [hpadding]; decide⟩
    · exact ⟨.iceUseCandidate, 0x25, .inr rfl, rfl, rfl, hpadding⟩
  refine ⟨kind, ⟨?_, ?_⟩, fun hskips => ?_⟩
  · intro other hother
    rcases List.mem_cons.mp hother with rfl | hbare
    · exact hformed
    · cases List.mem_singleton.mp hbare
      rcases hkind with rfl | rfl <;> rfl
  · simp only [area, List.flatMap_cons, List.flatMap_nil, List.append_nil,
      List.length_append, hbytes, List.length_cons, List.length_nil]
    omega
  · have hpadding := tlv.length_padding
    rw [calculatePadding, if_neg hunaligned] at hpadding
    have hdata : (Slice.ofBytes (area [tlv, .bare kind])).contents =
        tlv.bytes ++ [0, low, 0, 0] := by
      rw [Slice.contents_ofBytes, ← hbytes, area_cons, area_cons]
      exact congrArg _ (List.append_nil _)
    obtain ⟨rest, hrest, hsame⟩ := decodeAttributes_unknown hdata hunknown
    have hlen : rest.len ≤ 7 := by
      rw [← rest.length_contents, hrest, List.length_append, hpadding, List.length_cons,
        List.length_cons, List.length_cons, List.length_cons, List.length_nil]
      omega
    have hdecode := (hskips _ (.ofBytes _) (Slice.contents_ofBytes _) (Slice.contents_ofBytes _)).1
    have hexpected : [tlv, .bare kind].filterMap Tlv.decoded = [.ofValue kind []] := by
      rw [List.filterMap_cons_none (by rw [Tlv.decoded, hunknown]; rfl),
        List.filterMap_cons, Tlv.decoded, Tlv.bare, typeRegistry_code]
      rfl
    rw [hsame, hexpected] at hdecode
    obtain ⟨hcode, hinside⟩ := front_of_single hlen hdecode
    rw [Attribute.getType, kind_ofValue, ← hlow] at hcode
    refine hspells (padding_of_misread ?_ (by omega) ?_ hrest hcode hinside)
    · intro hnil
      rw [hnil, List.length_nil] at hpadding
      omega
    · rw [hlow]
      rcases hkind with rfl | rfl <;> decide

theorem room_of_mem_dropLast {tlvs : List Tlv} {tlv : Tlv} (htlv : tlv ∈ tlvs.dropLast) :
    tlv.bytes.length + 4 ≤ (area tlvs).length := by
  induction tlvs with
  | nil => cases htlv
  | cons first tlvs ih =>
    cases tlvs with
    | nil => cases htlv
    | cons next tlvs =>
      rw [area_cons, List.length_append]
      rcases List.mem_cons.mp htlv with rfl | hlater
      · rw [area_cons, List.length_append, next.length_bytes, attrSerializedSize]
        omega
      · have hroom := ih hlater
        omega

/-- A condition on the single unknown attributes makes the decoder skip them
in every area, if each one that another attribute can follow meets it, exactly
if it asks for lengths that need no padding. -/
theorem unknown_skipped_iff (permitted : Tlv → Prop) : (∀ tlvs, WellFormedArea tlvs →
      (∀ tlv ∈ tlvs.dropLast, tlv.Unknown → permitted tlv) → SkipsUnknown tlvs) ↔ ∀ tlv, tlv.Unknown
      → tlv.WellFormed → tlv.bytes.length + 4 ≤ 65535 → permitted tlv → tlv.value.length % 4 = 0 :=
      by
  constructor
  · intro hskips tlv hunknown hformed hroom hpermitted
    by_contra hunaligned
    obtain ⟨kind, harea, hlost⟩ := exists_not_skipsUnknown hunknown hformed hroom hunaligned
    refine hlost (hskips _ harea ?_)
    intro other hother _
    cases List.mem_singleton.mp hother
    exact hpermitted
  · intro haligned tlvs hformed hpermitted
    apply skipsUnknown_of_aligned hformed
    intro tlv htlv hunknown
    apply haligned tlv hunknown
    · exact hformed.wellFormed tlv ((List.dropLast_sublist _).mem htlv)
    · exact Nat.le_trans (room_of_mem_dropLast htlv) hformed.length_le
    · exact hpermitted tlv htlv hunknown

def software : Tlv where
  code := 0x8022
  value := [0x70, 0x69, 0x67]
  padding := [0]
  code_lt := by decide
  length_lt := by decide
  length_padding := rfl

def fingerprintTlv : Tlv where
  code := Kind.fingerprint.code
  value := [0xde, 0xad, 0xbe, 0xef]
  padding := []
  code_lt := by decide
  length_lt := by decide
  length_padding := rfl

theorem not_skipsUnknown_software : WellFormedArea [software, fingerprintTlv] ∧ decodeAttributes
      (.ofBytes (area [software, fingerprintTlv])) = .ok [] ∧ [software, fingerprintTlv].filterMap
      Tlv.decoded = [.fingerprint 0xdeadbeef] ∧ ¬ SkipsUnknown [software, fingerprintTlv] := by
  have hlost : decodeAttributes (.ofBytes (area [software, fingerprintTlv])) =
      .ok [] := by decide +kernel
  refine ⟨⟨?_, by decide⟩, hlost, by decide, fun hskips => ?_⟩
  · intro tlv htlv
    rcases List.mem_cons.mp htlv with rfl | hlast
    · exact (by decide : 0x8000 ≤ 0x8022)
    · cases List.mem_singleton.mp hlast
      rfl
  · have hfound := (hskips _ (.ofBytes _) (Slice.contents_ofBytes _) (Slice.contents_ofBytes _)).1
    cases hfound

end Pig.Stun
