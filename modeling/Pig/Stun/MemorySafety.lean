import Pig.Stun.Message

namespace Pig.Stun

open Go

/-- The attributes are those of the data, in order, and each was read from its
own declared length, which ends inside the data. -/
inductive Inside : Slice → List Attribute → Prop
  | finished {rest : Slice} (hshort : rest.len < 4) : Inside rest []
  | skipped {rest : Slice} {attrs : List Attribute} (hlen : 4 ≤ rest.len)
      (hunknown : typeRegistry (codeAt rest) = none)
      (after : Inside (rest.advance (lengthAt rest + 4)) attrs) :
      Inside rest attrs
  | decoded {rest : Slice} {kind : Kind} {attr : Attribute}
      {attrs : List Attribute} (hlen : 4 ≤ rest.len)
      (hknown : typeRegistry (codeAt rest) = some kind)
      (hinside : 4 + lengthAt rest ≤ rest.len)
      (hattr : attr = .ofValue kind (valueAt rest))
      (after : Inside (rest.advance (attrSerializedSize (lengthAt rest))) attrs) :
      Inside rest (attr :: attrs)

/-- The places where an attribute is looked for: behind unknown ones and behind
those whose decoders accept the data. -/
inductive Reaches : Slice → Slice → Prop
  | here (rest : Slice) : Reaches rest rest
  | skipped {rest later : Slice} (hlen : 4 ≤ rest.len)
      (hunknown : typeRegistry (codeAt rest) = none)
      (after : Reaches (rest.advance (lengthAt rest + 4)) later) :
      Reaches rest later
  | decoded {rest later : Slice} {kind : Kind} (hlen : 4 ≤ rest.len)
      (hknown : typeRegistry (codeAt rest) = some kind)
      (haccepts : kind.Accepts rest.len (lengthAt rest))
      (after : Reaches (rest.advance (attrSerializedSize (lengthAt rest))) later) :
      Reaches rest later

/-- Every ERROR-CODE attribute that is reached and has room for its fixed part
ends inside the data. -/
def ErrorCodesFit (area : Slice) : Prop := ∀ rest, Reaches area rest → codeAt rest =
  Kind.errorCode.code → 8 ≤ rest.len → 4 ≤ lengthAt rest → 4 + lengthAt rest ≤ rest.len

def AttributesSafe (area : Slice) : Prop := (∀ fault, decodeAttributes area ≠ .error (.fault fault))
  ∧ ∀ attrs, decodeAttributes area = .ok attrs → Inside area attrs

section

variable {rest : Slice} {kind : Kind}

theorem attributesSafe_of_short (hshort : rest.len < 4) :
    AttributesSafe rest ∧ ErrorCodesFit rest := by
  have hdecode := decodeAttributes_of_finished (front_of_short hshort)
  refine ⟨⟨fun fault hfault => ?_, fun attrs hattrs => ?_⟩, ?_⟩
  · cases hdecode.symm.trans hfault
  · cases hdecode.symm.trans hattrs
    exact .finished hshort
  · intro later hreaches _ hlen _
    cases hreaches <;> omega

theorem attributesSafe_skipped (hlen : 4 ≤ rest.len)
    (hunknown : typeRegistry (codeAt rest) = none) :
    (AttributesSafe rest ↔ AttributesSafe (rest.advance (lengthAt rest + 4))) ∧
      (ErrorCodesFit rest ↔ ErrorCodesFit (rest.advance (lengthAt rest + 4))) := by
  have hdecode := decodeAttributes_of_skipped (front_of_unknown hlen hunknown)
  constructor
  · rw [AttributesSafe, AttributesSafe, hdecode]
    refine and_congr_right fun _ => forall_congr' fun attrs =>
      imp_congr_right fun _ => ⟨fun hinside => ?_, .skipped hlen hunknown⟩
    cases hinside with
    | finished hshort => omega
    | skipped _ _ after => exact after
    | decoded _ hknown => cases hunknown.symm.trans hknown
  · constructor
    · intro hfit later hreaches
      exact hfit later (.skipped hlen hunknown hreaches)
    · intro hfit later hreaches hcode
      cases hreaches with
      | here =>
        rw [hcode, typeRegistry_code] at hunknown
        cases hunknown
      | skipped _ _ after => exact hfit later after hcode
      | decoded _ hknown => cases hunknown.symm.trans hknown

theorem attributesSafe_decoded (hlen : 4 ≤ rest.len) (hmax : rest.len ≤ 65535)
    (hknown : typeRegistry (codeAt rest) = some kind) (haccepts : kind.Accepts rest.len
    (lengthAt rest)) (hinside : 4 + lengthAt rest ≤ rest.len) :
    (AttributesSafe rest ↔ AttributesSafe (rest.advance (attrSerializedSize (lengthAt rest)))) ∧
      (ErrorCodesFit rest ↔ ErrorCodesFit (rest.advance (attrSerializedSize (lengthAt rest)))) := by
  obtain ⟨hfront, hsize⟩ := front_of_accepts hlen hmax hknown haccepts
    (Nat.le_trans hinside rest.len_le)
  have hdecode := decodeAttributes_of_decoded hfront
  rw [hsize] at hdecode
  constructor
  · rw [AttributesSafe, AttributesSafe, hdecode]
    cases hrest : decodeAttributes (rest.advance (attrSerializedSize (lengthAt rest))) with
    | error failure => simp
    | ok attrs =>
      simp only [ok_bind, pure, Except.pure, Except.ok.injEq, reduceCtorEq,
        ne_eq, not_false_eq_true, implies_true, true_and, forall_eq']
      constructor
      · intro hattrs
        cases hattrs with
        | skipped _ hunknown => cases hunknown.symm.trans hknown
        | decoded _ _ _ _ after => exact after
      · exact .decoded hlen hknown hinside rfl
  · constructor
    · intro hfit later hreaches
      exact hfit later (.decoded hlen hknown haccepts hreaches)
    · intro hfit later hreaches hcode
      cases hreaches with
      | here => exact fun _ _ => hinside
      | skipped _ hunknown => cases hunknown.symm.trans hknown
      | decoded _ _ _ after => exact hfit later after hcode

theorem attributesSafe_rejected (hlen : 4 ≤ rest.len) (hknown : typeRegistry (codeAt rest) = some
    kind) (hrejects : ¬ kind.Accepts rest.len (lengthAt rest)) :
    AttributesSafe rest ∧ ErrorCodesFit rest := by
  obtain ⟨cause, hfront⟩ := front_of_rejects hlen hknown hrejects
  have hdecode := decodeAttributes_of_error hfront
  refine ⟨⟨fun fault hfault => ?_, fun attrs hattrs => ?_⟩, ?_⟩
  · cases hdecode.symm.trans hfault
  · cases hdecode.symm.trans hattrs
  · intro later hreaches hcode hleast hlength
    cases hreaches with
    | here =>
      rw [hcode, typeRegistry_code] at hknown
      cases hknown
      exact absurd ⟨hleast, decide_eq_true hlength, nofun⟩ hrejects
    | skipped _ hunknown => cases hunknown.symm.trans hknown
    | decoded _ hknown' haccepts =>
      cases hknown.symm.trans hknown'
      exact absurd haccepts hrejects

/-- One that is accepted and runs over the end of the data is an ERROR-CODE:
its reason is cut out of whatever follows in the array, or there is no more
array. -/
theorem not_attributesSafe_overrun (hlen : 4 ≤ rest.len) (hmax : rest.len ≤ 65535)
    (hknown : typeRegistry (codeAt rest) = some kind) (haccepts : kind.Accepts rest.len
    (lengthAt rest)) (hoverrun : rest.len < 4 + lengthAt rest) :
    ¬ AttributesSafe rest ∧ ¬ ErrorCodesFit rest := by
  constructor
  · rintro ⟨hnofault, hinside⟩
    by_cases hcap : 4 + lengthAt rest ≤ rest.cap
    · obtain ⟨hfront, hsize⟩ := front_of_accepts hlen hmax hknown haccepts hcap
      have hlast : decodeAttributes
          (rest.advance (attrSerializedSize (lengthAt rest))) = .ok [] := by
        apply decodeAttributes_of_finished
        apply front_of_short
        rw [len_advance, attrSerializedSize]
        omega
      have hdecode := decodeAttributes_of_decoded hfront
      rw [hsize, hlast] at hdecode
      cases hinside _ hdecode with
      | skipped _ hunknown => cases hunknown.symm.trans hknown
      | decoded _ _ hfits => omega
    · exact hnofault _ (decodeAttributes_of_error
        (front_of_overrun hlen hmax hknown haccepts (by omega)))
  · intro hfit
    have hkind : kind = .errorCode := by
      by_contra hne
      have hbound := haccepts.inside hne
      omega
    subst hkind
    have hfits := hfit rest (.here rest) (code_of_typeRegistry hknown).symm
      haccepts.1 (of_decide_eq_true haccepts.2.1)
    omega

end

theorem attributesSafe_iff (rest : Slice) (hmax : rest.len ≤ 65535) :
    AttributesSafe rest ↔ ErrorCodesFit rest := by
  -- Induction on the data left: an attribute, known or not, takes four bytes.
  induction hlen : rest.len using Nat.strongRecOn generalizing rest with
  | ind len ih =>
    by_cases hshort : rest.len < 4
    · exact iff_of_true (attributesSafe_of_short hshort).1 (attributesSafe_of_short hshort).2
    · have hlen : 4 ≤ rest.len := by omega
      have step : ∀ size, 4 ≤ size → (AttributesSafe (rest.advance size) ↔
            ErrorCodesFit (rest.advance size)) := by
        intro size hsize
        exact ih _ (by rw [len_advance]; omega) _ (by rw [len_advance]; omega) rfl
      cases hcode : typeRegistry (codeAt rest) with
      | none =>
        obtain ⟨hsafe, hfit⟩ := attributesSafe_skipped hlen hcode
        rw [hsafe, hfit]
        exact step _ (by omega)
      | some kind =>
        by_cases haccepts : kind.Accepts rest.len (lengthAt rest)
        · by_cases hinside : 4 + lengthAt rest ≤ rest.len
          · obtain ⟨hsafe, hfit⟩ := attributesSafe_decoded hlen hmax hcode haccepts hinside
            rw [hsafe, hfit]
            exact step _ (by rw [attrSerializedSize]; omega)
          · obtain ⟨hoverreads, hunfit⟩ := not_attributesSafe_overrun hlen hmax
              hcode haccepts (by omega)
            exact iff_of_false hoverreads hunfit
        · obtain ⟨hsafe, hfit⟩ := attributesSafe_rejected hlen hcode haccepts
          exact iff_of_true hsafe hfit

/-- Decoding neither panics nor returns an attribute that was read from bytes
outside its own declared length in the message. -/
def DecodesSafely (data : Slice) : Prop := (∀ fault, decodeMessage data ≠ .error (.fault fault)) ∧
    ∀ msg, decodeMessage data = .ok msg → ∃ hlen, Inside (areaAt data hlen) msg.attributes

theorem decodesSafely_iff_area {data : Slice}
    (hlen : 20 + (headerAt data).length.toNat ≤ data.len) :
    DecodesSafely data ↔ AttributesSafe (areaAt data hlen) := by
  rw [DecodesSafely, AttributesSafe, decodeMessage_eq hlen]
  cases decodeAttributes (areaAt data hlen) with
  | error failure => simp
  | ok attrs =>
    simp only [ok_bind, pure, Except.pure, reduceCtorEq, ne_eq,
      not_false_eq_true, implies_true, true_and, Except.ok.injEq, forall_eq']
    constructor
    · rintro ⟨_, hinside⟩
      exact hinside
    · exact fun hinside => ⟨hlen, hinside⟩

theorem decodeMessage_safe_iff (data : Slice) : DecodesSafely data ↔ ∀ hlen : 20 +
      (headerAt data).length.toNat ≤ data.len, ErrorCodesFit (areaAt data hlen) := by
  by_cases hlen : 20 + (headerAt data).length.toNat ≤ data.len
  · have hmax : (areaAt data hlen).len ≤ 65535 := by
      have hlt := (headerAt data).length.toNat_lt
      change (headerAt data).length.toNat ≤ 65535
      omega
    rw [decodesSafely_iff_area hlen, attributesSafe_iff _ hmax]
    exact ⟨fun hfit _ => hfit, fun hfit => hfit hlen⟩
  · obtain ⟨cause, herror⟩ := @decodeMessage_of_short data (.inr (by omega))
    refine iff_of_true ⟨fun fault hfault => ?_, fun msg hmsg => ?_⟩
      fun hfits => absurd hfits hlen
    · cases herror.symm.trans hfault
    · cases herror.symm.trans hmsg

/-- An error response whose ERROR-CODE states eight bytes where four are
left. -/
def overrunning : Bytes := [0x01, 0x11, 0x00, 0x08, 0x21, 0x12, 0xa4, 0x42] ++ List.replicate 12 0
  ++ [0x00, 0x09, 0x00, 0x08, 0x00, 0x04, 0x01, 0x00]

/-- Without more array than the message it panics; in a longer array the
reason is made of the bytes behind the message. -/
theorem exists_not_decodesSafely :
    (decodeMessage (.ofBytes overrunning) = .error (.fault .sliceBounds) ∧
      ¬ DecodesSafely (.ofBytes overrunning)) ∧
    ∃ data : Slice, data.array = overrunning ++ [0xde, 0xad, 0xbe, 0xef] ∧ data.len =
      overrunning.length ∧ (decodeMessage data).map (·.attributes) = .ok
      [.errorCode 401 [0xde, 0xad, 0xbe, 0xef]] ∧ ¬ DecodesSafely data := by
  have hfault : decodeMessage (.ofBytes overrunning) =
      .error (.fault .sliceBounds) := by decide +kernel
  refine ⟨⟨hfault, fun hsafe => hsafe.1 _ hfault⟩, ?_⟩
  refine ⟨⟨overrunning ++ [0xde, 0xad, 0xbe, 0xef], 28, by decide⟩, rfl, rfl,
    by decide +kernel, fun hsafe => ?_⟩
  have harea := (decodesSafely_iff_area (by decide)).mp hsafe
  exact (not_attributesSafe_overrun (by decide) (by decide)
    (by decide : _ = some Kind.errorCode) (by decide) (by decide)).1 harea

end Pig.Stun
