import Pig.Stun.Decode

namespace Pig.Stun

open Go

/-! Attribute areas as the format has them: a sequence of types, lengths and
values, each value padded to four bytes with bytes of any kind. -/

structure Tlv where
  code : Nat
  value : Bytes
  padding : Bytes
  code_lt : code < 65536
  length_lt : value.length < 65536
  length_padding : padding.length = calculatePadding value.length

namespace Tlv

def bytes (tlv : Tlv) : Bytes :=
  Bytes.ofNatBE 2 tlv.code ++ Bytes.ofNatBE 2 tlv.value.length ++ tlv.value ++ tlv.padding

def Unknown (tlv : Tlv) : Prop := typeRegistry tlv.code = none

instance (tlv : Tlv) : Decidable tlv.Unknown := inferInstanceAs (Decidable (_ = none))

/-- A registered type has a value of a length its format allows, any other one
is in the range that may be ignored. -/
def WellFormed (tlv : Tlv) : Prop :=
  match typeRegistry tlv.code with
  | some kind => kind.layout.lengths tlv.value.length = true
  | none => 0x8000 ≤ tlv.code

def decoded (tlv : Tlv) : Option Attribute :=
  (typeRegistry tlv.code).map fun kind => .ofValue kind tlv.value

theorem length_bytes (tlv : Tlv) : tlv.bytes.length = attrSerializedSize tlv.value.length := by
  simp only [bytes, List.length_append, Bytes.length_ofNatBE,
    tlv.length_padding, attrSerializedSize]

end Tlv

def area (tlvs : List Tlv) : Bytes := tlvs.flatMap Tlv.bytes

@[simp] theorem area_cons (tlv : Tlv) (tlvs : List Tlv) : area (tlv :: tlvs) = tlv.bytes ++ area
  tlvs := List.flatMap_cons

theorem length_area_mod (tlvs : List Tlv) : (area tlvs).length % 4 = 0 := by
  induction tlvs with
  | nil => rfl
  | cons tlv tlvs ih =>
    rw [area_cons, List.length_append, tlv.length_bytes, attrSerializedSize, calculatePadding]
    split <;> omega

structure WellFormedArea (tlvs : List Tlv) : Prop where
  wellFormed : ∀ tlv ∈ tlvs, tlv.WellFormed
  length_le : (area tlvs).length ≤ 65535

section

variable {data : Slice} {tlv : Tlv} {more : Bytes}

section

variable (hdata : data.contents = tlv.bytes ++ more)

include hdata

theorem len_of_contents :
    data.len = attrSerializedSize tlv.value.length + more.length := by
  rw [← data.length_contents, hdata, List.length_append, tlv.length_bytes]

theorem codeAt_of_contents :
    codeAt data = tlv.code := by
  have hlen := len_of_contents hdata
  rw [attrSerializedSize] at hlen
  have hread : (tlv.bytes ++ more).window 0 2 = Bytes.ofNatBE 2 tlv.code := by
    simp [Bytes.window, Tlv.bytes]
  rw [codeAt, data.window_contents (by omega), hdata, hread, Bytes.toNatBE_ofNatBE]
  exact Nat.mod_eq_of_lt tlv.code_lt

theorem lengthAt_of_contents :
    lengthAt data = tlv.value.length := by
  have hlen := len_of_contents hdata
  rw [attrSerializedSize] at hlen
  have hread : (tlv.bytes ++ more).window 2 2 = Bytes.ofNatBE 2 tlv.value.length := by
    simp [Bytes.window, Tlv.bytes]
  rw [lengthAt, data.window_contents (by omega), hdata, hread, Bytes.toNatBE_ofNatBE]
  exact Nat.mod_eq_of_lt tlv.length_lt

theorem valueAt_of_contents :
    valueAt data = tlv.value := by
  have hlen := len_of_contents hdata
  rw [attrSerializedSize] at hlen
  rw [valueAt, lengthAt_of_contents hdata, data.window_contents (by omega), hdata]
  simp [Bytes.window, Tlv.bytes, List.take_append, List.drop_append]

theorem decodeAttributes_unknown (hunknown : tlv.Unknown) :
    ∃ rest : Slice, rest.contents = tlv.padding ++ more ∧
      decodeAttributes data = decodeAttributes rest := by
  have hlen := len_of_contents hdata
  rw [attrSerializedSize] at hlen
  refine ⟨data.advance (lengthAt data + 4), ?_, ?_⟩
  · have hfront : tlv.bytes ++ more = (Bytes.ofNatBE 2 tlv.code ++ Bytes.ofNatBE 2 tlv.value.length
        ++ tlv.value) ++ (tlv.padding ++ more) := by
      simp only [Tlv.bytes, List.append_assoc]
    rw [data.contents_advance, hdata, lengthAt_of_contents hdata, hfront]
    apply List.drop_left'
    simp only [List.length_append, Bytes.length_ofNatBE]
    omega
  · apply decodeAttributes_of_skipped
    apply front_of_unknown (by omega)
    rw [codeAt_of_contents hdata]
    exact hunknown

end

theorem Kind.accepts_of_lengths {kind : Kind} {left length : Nat} (hlengths : kind.layout.lengths
    length = true) (hinside : length + 4 ≤ left) : kind.Accepts left length := by
  refine ⟨?_, hlengths, fun _ => hinside⟩
  cases kind <;> simp only [Kind.layout, beq_iff_eq, decide_eq_true_eq] at hlengths ⊢ <;> omega

theorem decodeAttributes_registered {kind : Kind} (hdata : data.contents = tlv.bytes ++ more)
    (hmax : data.len ≤ 65535) (hknown : typeRegistry tlv.code = some kind)
    (hlengths : kind.layout.lengths tlv.value.length = true) :
    ∃ rest : Slice, rest.contents = more ∧ decodeAttributes data = (do
        let attrs ← decodeAttributes rest
        return .ofValue kind tlv.value :: attrs) := by
  have hlen := len_of_contents hdata
  have hlength := lengthAt_of_contents hdata
  rw [attrSerializedSize] at hlen
  obtain ⟨hfront, hsize⟩ := front_of_accepts (by omega) hmax (codeAt_of_contents hdata ▸ hknown)
    (Kind.accepts_of_lengths (hlength ▸ hlengths) (by omega)) (Nat.le_trans (by omega) data.len_le)
  refine ⟨data.advance (attrSerializedSize (lengthAt data)), ?_, ?_⟩
  · rw [data.contents_advance, hdata, hlength]
    exact List.drop_left' tlv.length_bytes
  · rw [decodeAttributes_of_decoded hfront, hsize, valueAt_of_contents hdata]

end

/-- Every unknown attribute but the last one of the area has a value that needs
no padding. -/
def UnknownAligned (tlvs : List Tlv) : Prop :=
  ∀ tlv ∈ tlvs.dropLast, tlv.Unknown → tlv.value.length % 4 = 0

variable {tlvs : List Tlv}

variable {tlv : Tlv}

theorem UnknownAligned.tail (haligned : UnknownAligned (tlv :: tlvs)) : UnknownAligned tlvs := by
  intro other hother
  cases tlvs with
  | nil => cases hother
  | cons next tlvs => exact haligned other (List.mem_cons_of_mem _ hother)

theorem calculatePadding_lt (length : Nat) : calculatePadding length < 4 := by
  rw [calculatePadding]
  split <;> omega

theorem decodeAttributes_unknown_aligned {data : Slice}
    (haligned : UnknownAligned (tlv :: tlvs)) (hdata : data.contents = tlv.bytes ++ area tlvs)
    (hunknown : tlv.Unknown) :
    ∃ rest : Slice, rest.contents = area tlvs ∧ decodeAttributes data = decodeAttributes rest := by
  obtain ⟨rest, hrest, hdecode⟩ := decodeAttributes_unknown hdata hunknown
  cases tlvs with
  | nil =>
    -- What is left is padding, which is no attribute any more.
    have hlen : rest.len < 4 := by
      rw [← rest.length_contents, hrest, area, List.flatMap_nil,
        List.append_nil, tlv.length_padding]
      exact calculatePadding_lt _
    refine ⟨.ofBytes [], rfl, ?_⟩
    rw [hdecode, decodeAttributes_of_finished (front_of_short hlen)]
    rfl
  | cons next tlvs =>
    have hlength := haligned tlv List.mem_cons_self hunknown
    have hpadding : tlv.padding = [] := by
      rw [← List.length_eq_zero_iff, tlv.length_padding, calculatePadding, if_pos hlength]
    exact ⟨rest, by rw [hrest, hpadding, List.nil_append], hdecode⟩

def LengthsAllowed (tlvs : List Tlv) : Prop := ∀ tlv ∈ tlvs, ∀ kind, typeRegistry tlv.code = some
  kind → kind.layout.lengths tlv.value.length = true

theorem LengthsAllowed.tail (hlengths : LengthsAllowed (tlv :: tlvs)) : LengthsAllowed tlvs :=
  fun other hother => hlengths other (List.mem_cons_of_mem _ hother)

theorem WellFormedArea.lengthsAllowed (hformed : WellFormedArea tlvs) : LengthsAllowed tlvs := by
  intro tlv htlv kind hcode
  have hlength := hformed.wellFormed tlv htlv
  rw [Tlv.WellFormed, hcode] at hlength
  exact hlength

theorem decodeAttributes_of_lengths (hlengths : LengthsAllowed tlvs)
    (haligned : UnknownAligned tlvs) (data : Slice) (hmax : data.len ≤ 65535)
    (hdata : data.contents = area tlvs) :
    decodeAttributes data = .ok (tlvs.filterMap Tlv.decoded) := by
  induction tlvs generalizing data with
  | nil =>
    have hlen : data.len = 0 := by
      rw [← data.length_contents, hdata]
      rfl
    exact decodeAttributes_of_finished (front_of_short (by omega))
  | cons tlv tlvs ih =>
    rw [area_cons] at hdata
    have hleft : ∀ rest : Slice, rest.contents = area tlvs → rest.len ≤ 65535 := by
      intro rest hrest
      rw [len_of_contents hdata, ← hrest, rest.length_contents] at hmax
      omega
    cases hcode : typeRegistry tlv.code with
    | some kind =>
      obtain ⟨rest, hrest, hdecode⟩ := decodeAttributes_registered hdata
        hmax hcode (hlengths tlv List.mem_cons_self kind hcode)
      rw [hdecode, ih hlengths.tail haligned.tail rest (hleft rest hrest) hrest,
        List.filterMap_cons_some (b := .ofValue kind tlv.value) (by rw [Tlv.decoded, hcode]; rfl)]
      rfl
    | none =>
      obtain ⟨rest, hrest, hdecode⟩ := decodeAttributes_unknown_aligned haligned hdata hcode
      rw [hdecode, List.filterMap_cons_none (by rw [Tlv.decoded, hcode]; rfl)]
      exact ih hlengths.tail haligned.tail rest (hleft rest hrest) hrest

theorem decodeAttributes_area (hformed : WellFormedArea tlvs)
    (haligned : UnknownAligned tlvs) (data : Slice) (hdata : data.contents = area tlvs) :
    decodeAttributes data = .ok (tlvs.filterMap Tlv.decoded) := by
  refine decodeAttributes_of_lengths hformed.lengthsAllowed haligned data ?_ hdata
  rw [← data.length_contents, hdata]
  exact hformed.length_le

theorem lengthsAllowed_of_decodeAttributes
    (haligned : UnknownAligned tlvs) {data : Slice} (hmax : data.len ≤ 65535)
    (hdata : data.contents = area tlvs) {attrs : List Attribute}
    (hdecode : decodeAttributes data = .ok attrs) : LengthsAllowed tlvs := by
  induction tlvs generalizing data attrs with
  | nil => exact fun _ hmem => absurd hmem List.not_mem_nil
  | cons tlv tlvs ih =>
    rw [area_cons] at hdata
    have hlen := len_of_contents hdata
    rw [attrSerializedSize] at hlen
    have hleft : ∀ rest : Slice, rest.contents = area tlvs → rest.len ≤ 65535 := by
      intro rest hrest
      rw [← hrest, rest.length_contents] at hlen
      omega
    cases hcode : typeRegistry tlv.code with
    | none =>
      obtain ⟨rest, hrest, hsame⟩ := decodeAttributes_unknown_aligned haligned hdata hcode
      have htail := ih haligned.tail (hleft rest hrest) hrest (hsame.symm.trans hdecode)
      intro other hother kind hkind
      rcases List.mem_cons.mp hother with rfl | hother
      · cases hcode.symm.trans hkind
      · exact htail other hother kind hkind
    | some kind =>
      have hlength : kind.layout.lengths tlv.value.length = true := by
        by_contra hnot
        have hrejects : ¬ kind.Accepts data.len (lengthAt data) := by
          intro haccepts
          rw [lengthAt_of_contents hdata] at haccepts
          exact hnot haccepts.2.1
        obtain ⟨cause, hfront⟩ := front_of_rejects (by omega)
          (codeAt_of_contents hdata ▸ hcode) hrejects
        cases (decodeAttributes_of_error hfront).symm.trans hdecode
      obtain ⟨rest, hrest, hsame⟩ := decodeAttributes_registered hdata hmax hcode hlength
      rw [hsame, bind_eq_ok] at hdecode
      obtain ⟨later, hlater, -⟩ := hdecode
      have htail := ih haligned.tail (hleft rest hrest) hrest hlater
      intro other hother registered hregistered
      rcases List.mem_cons.mp hother with rfl | hother
      · cases hcode.symm.trans hregistered
        exact hlength
      · exact htail other hother registered hregistered

end Pig.Stun
