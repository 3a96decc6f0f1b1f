import Pig.Stun.Attribute

namespace Pig.Stun

open Go

inductive DecodeError where
  | messageTooShort (length : Nat)
  | truncated (expected got : Nat)
  | tooShort (kind : Kind)
  | wrongType (kind : Kind) (got : Nat)
  | invalidLength (kind : Kind) (length : Nat)
  | exceedsBuffer (kind : Kind)
  | valueTooShort (kind : Kind)
  | parseAttribute (code : Nat) (cause : DecodeError)
  deriving DecidableEq, Repr

inductive Failure where
  | fault (fault : Fault)
  | error (error : DecodeError)
  deriving DecidableEq, Repr

abbrev Decoder := Except Failure

def checked {Value : Type} (value : Checked Value) : Decoder Value := value.mapError .fault

@[simp] theorem checked_ok {Value : Type} (value : Value) : checked (.ok value) = .ok value := rfl

def fail {Value : Type} (error : DecodeError) : Decoder Value := .error (.error error)

/-- The call `binary.BigEndian.Uint16(b[position:position+2])`. -/
def uint16 (b : Slice) (position : Nat) : Decoder Nat := do
  let bytes ← checked (b.sub position (position + 2))
  return bytes.toNatBE

structure Layout where
  least : Nat
  lengths : Nat → Bool
  bounded : Bool

def Kind.layout : Kind → Layout
  | .mappedAddress => ⟨4, fun length => length == 8 || length == 20, true⟩
  | .username => ⟨4, fun _ => true, true⟩
  | .messageIntegrity => ⟨24, fun length => length == 20, false⟩
  | .messageIntegritySHA256 => ⟨36, fun length => length == 32, false⟩
  | .errorCode => ⟨8, fun length => 4 ≤ length, false⟩
  | .realm => ⟨4, fun _ => true, true⟩
  | .nonce => ⟨4, fun _ => true, true⟩
  | .xorMappedAddress => ⟨4, fun length => length == 8 || length == 20, true⟩
  | .fingerprint => ⟨8, fun length => length == 4, false⟩
  | .icePriority => ⟨8, fun length => length == 4, false⟩
  | .iceUseCandidate => ⟨4, fun length => length == 0, false⟩
  | .iceControlled => ⟨12, fun length => length == 8, false⟩
  | .iceControlling => ⟨12, fun length => length == 8, false⟩
  | .changeRequest => ⟨4, fun length => length == 4, true⟩
  | .otherAddress => ⟨4, fun length => length == 8 || length == 20, true⟩

/-- The value of an attribute. The end of it is computed as a `uint16`. -/
def decodeValue (kind : Kind) (b : Slice) : Decoder Bytes :=
  if b.len < kind.layout.least then fail (.tooShort kind)
  else do
    let attrType ← uint16 b 0
    let attrLen ← uint16 b 2
    if attrType ≠ kind.code then fail (.wrongType kind attrType)
    else if !kind.layout.lengths attrLen then
      fail (.invalidLength kind attrLen)
    else if kind.layout.bounded ∧ b.len - 4 < attrLen then
      fail (.exceedsBuffer kind)
    else checked (b.sub 4 ((4 + attrLen) % 65536))

def decodeReason (value : Slice) (attrLen : Nat) : Decoder Bytes :=
  if 4 < attrLen then checked (value.sub 4 attrLen) else pure []

def decodeErrorCode (b : Slice) : Decoder Attribute :=
  if b.len < 8 then fail (.tooShort .errorCode)
  else do
    let attrType ← uint16 b 0
    let attrLen ← uint16 b 2
    if attrType ≠ Kind.errorCode.code then
      fail (.wrongType .errorCode attrType)
    else if attrLen < 4 then fail (.valueTooShort .errorCode)
    else do
      let value ← checked (b.dropFront 4)
      let high ← checked (value.get 1)
      let low ← checked (value.get 2)
      let reason ← decodeReason value attrLen
      return .errorCode (high.toNat * 100 + low.toNat) reason

def decodeFromBytes (kind : Kind) (b : Slice) : Decoder Attribute :=
  match kind with
  | .errorCode => decodeErrorCode b
  | kind => return .ofValue kind (← decodeValue kind b)

inductive Front where
  | finished
  | skipped (size : Nat)
  | decoded (attr : Attribute)
  deriving DecidableEq, Repr

def front (rest : Slice) : Decoder Front := do
  if rest.len < 4 then return .finished
  let attrType ← uint16 rest 0
  match typeRegistry attrType with
  | none =>
    let attrLen ← uint16 rest 2
    return .skipped (attrLen + 4)
  | some kind =>
    match decodeFromBytes kind rest with
    | .ok attr => return .decoded attr
    | .error (.error cause) => fail (.parseAttribute attrType cause)
    | .error (.fault fault) => .error (.fault fault)

def decodeLoop : (fuel : Nat) → Slice → Decoder (List Attribute)
  | 0, _ => return []
  | fuel + 1, rest => do
      match ← front rest with
      | .finished => return []
      | .skipped size => decodeLoop fuel (rest.advance size)
      | .decoded attr =>
        let attrs ← decodeLoop fuel (rest.advance attr.serializeLen)
        return attr :: attrs

/-- Every iteration passes at least four bytes. -/
def decodeAttributes (data : Slice) : Decoder (List Attribute) := decodeLoop data.len data

def codeAt (b : Slice) : Nat := (b.array.window 0 2).toNatBE

def lengthAt (b : Slice) : Nat := (b.array.window 2 2).toNatBE

def valueAt (b : Slice) : Bytes := b.array.window 4 (lengthAt b)

theorem lengthAt_lt (b : Slice) : lengthAt b < 65536 := by
  have hlt := Bytes.toNatBE_lt (b.array.window 2 2)
  have hlength : (b.array.window 2 2).length ≤ 2 := by
    simp only [Bytes.window, List.length_take]
    omega
  have hpow := Nat.pow_le_pow_right (by decide : 0 < 256) hlength
  rw [lengthAt]
  omega

variable {b : Slice}

theorem uint16_eq {position : Nat} (hposition : position + 2 ≤ b.cap) :
    uint16 b position = .ok (b.array.window position 2).toNatBE := by
  have hsub : b.sub position (position + 2) = .ok (b.array.window position 2) := by
    rw [b.sub_eq_ok_iff, Nat.add_sub_cancel_left]
    exact ⟨⟨by omega, hposition⟩, rfl⟩
  rw [uint16, hsub]
  rfl

def Kind.Accepts (kind : Kind) (left length : Nat) : Prop := kind.layout.least ≤ left ∧
  kind.layout.lengths length = true ∧ (kind.layout.bounded = true → length + 4 ≤ left)

instance (kind : Kind) (left length : Nat) : Decidable (kind.Accepts left length) :=
  inferInstanceAs (Decidable (_ ∧ _ ∧ (_ → _)))

variable {kind : Kind}

theorem Kind.Accepts.inside {left length : Nat}
    (haccepts : kind.Accepts left length) (hkind : kind ≠ .errorCode) :
    length + 4 ≤ left := by
  obtain ⟨hleast, hlengths, hbounded⟩ := haccepts
  cases kind with
  | errorCode => exact absurd rfl hkind
  | _ =>
    simp only [Kind.layout, beq_iff_eq, Bool.or_eq_true, forall_const] at hleast hlengths hbounded
    omega

theorem decodeValue_eq (hcap : 4 ≤ b.cap) (hcode : codeAt b = kind.code) :
    decodeValue kind b =
      if b.len < kind.layout.least then fail (.tooShort kind)
      else if (!kind.layout.lengths (lengthAt b)) = true then
        fail (.invalidLength kind (lengthAt b))
      else if kind.layout.bounded ∧ b.len - 4 < lengthAt b then
        fail (.exceedsBuffer kind)
      else checked (b.sub 4 ((4 + lengthAt b) % 65536)) := by
  have htype : uint16 b 0 = .ok kind.code := hcode ▸ uint16_eq (by omega)
  have hlength : uint16 b 2 = .ok (lengthAt b) := uint16_eq hcap
  rw [decodeValue, htype, ok_bind, hlength, ok_bind,
    if_neg (not_not.mpr rfl : ¬ kind.code ≠ kind.code)]

theorem sub_value (hinside : lengthAt b + 4 ≤ b.cap) :
    b.sub 4 (4 + lengthAt b) = .ok (valueAt b) := by
  rw [b.sub_eq_ok_iff, Nat.add_sub_cancel_left]
  exact ⟨⟨by omega, by omega⟩, rfl⟩

theorem byte_value {index : Nat} (hindex : index < lengthAt b) :
    b.byte (4 + index) = (valueAt b).getD index 0 := by
  simp only [Slice.byte, valueAt, Bytes.window, List.getD_eq_getElem?_getD,
    List.getElem?_take_of_lt hindex, List.getElem?_drop]

theorem decodeErrorCode_eq (hcap : 4 ≤ b.cap) (hcode : codeAt b = Kind.errorCode.code) :
    decodeErrorCode b =
      if b.len < 8 then fail (.tooShort .errorCode)
      else if lengthAt b < 4 then fail (.valueTooShort .errorCode)
      else if 4 + lengthAt b ≤ b.cap then
        .ok (.ofValue .errorCode (valueAt b))
      else .error (.fault .sliceBounds) := by
  have htype : uint16 b 0 = .ok Kind.errorCode.code := hcode ▸ uint16_eq (by omega)
  have hlength : uint16 b 2 = .ok (lengthAt b) := uint16_eq hcap
  rw [decodeErrorCode, htype, ok_bind, hlength, ok_bind,
    if_neg (not_not.mpr rfl : ¬ Kind.errorCode.code ≠ Kind.errorCode.code)]
  split
  · rfl
  · split
    · rfl
    · have hlen_le : b.len ≤ b.cap := b.len_le
      obtain ⟨value, hvalue, harray, hvalueLen⟩ : ∃ value : Slice, b.dropFront 4 = .ok value ∧
        value.array = b.array.drop 4 ∧ value.len = b.len - 4 := ⟨_, dif_pos (by omega), rfl, rfl⟩
      have hget : ∀ index, index < 4 → value.get index = .ok ((valueAt b).getD index 0) := by
        intro index hindex
        rw [← byte_value (by omega), Slice.get, if_pos (by omega), Slice.byte, harray]
        simp only [Slice.byte, List.getD_eq_getElem?_getD, List.getElem?_drop]
      have hreason : value.sub 4 (lengthAt b) =
          if 4 + lengthAt b ≤ b.cap then .ok ((valueAt b).drop 4)
          else .error .sliceBounds := by
        have hvalueCap : value.cap = b.cap - 4 := by
          rw [Slice.cap, harray, List.length_drop]
          rfl
        rw [Slice.sub, harray, hvalueCap, valueAt, Bytes.window, Bytes.window, List.drop_take]
        congr 1
        apply propext
        omega
      rw [hvalue, checked_ok, ok_bind, hget 1 (by decide), checked_ok, ok_bind,
        hget 2 (by decide), checked_ok, ok_bind, decodeReason, hreason]
      by_cases hlong : 4 < lengthAt b
      · rw [if_pos hlong]
        split <;> rfl
      · have hnone : (valueAt b).drop 4 = [] := by
          rw [List.drop_eq_nil_iff, valueAt, Bytes.window, List.length_take]
          omega
        rw [if_neg hlong, if_pos (by omega), Attribute.ofValue, hnone]
        rfl

theorem decodeFromBytes_of_ne (hkind : kind ≠ .errorCode) (b : Slice) :
    decodeFromBytes kind b = (decodeValue kind b >>= fun value => pure (.ofValue kind value)) := by
  cases kind <;> first | rfl | exact absurd rfl hkind

theorem decodeFromBytes_of_accepts (hleast : 4 ≤ b.len) (hlen : b.len ≤ 65535)
    (hcode : codeAt b = kind.code) (haccepts : kind.Accepts b.len (lengthAt b)) :
    decodeFromBytes kind b =
      if 4 + lengthAt b ≤ b.cap then .ok (.ofValue kind (valueAt b))
      else .error (.fault .sliceBounds) := by
  have hcap : b.len ≤ b.cap := b.len_le
  by_cases hkind : kind = .errorCode
  · subst hkind
    obtain ⟨hmin, hlengths, -⟩ := haccepts
    simp only [Kind.layout, decide_eq_true_eq] at hmin hlengths
    rw [decodeFromBytes, decodeErrorCode_eq (by omega) hcode, if_neg (by omega), if_neg (by omega)]
  · have hinside := haccepts.inside hkind
    obtain ⟨hmin, hlengths, hbounded⟩ := haccepts
    rw [decodeFromBytes_of_ne hkind, decodeValue_eq (by omega) hcode,
      if_neg (by omega), if_neg (by simp [hlengths]), if_neg (by omega),
      Nat.mod_eq_of_lt (by omega), sub_value (by omega), if_pos (by omega)]
    rfl

theorem decodeFromBytes_of_not_accepts (hleast : 4 ≤ b.len) (hcode : codeAt b = kind.code)
    (haccepts : ¬ kind.Accepts b.len (lengthAt b)) :
    ∃ cause, decodeFromBytes kind b = .error (.error cause) := by
  have hcap : b.len ≤ b.cap := b.len_le
  by_cases hkind : kind = .errorCode
  · subst hkind
    simp only [Kind.Accepts, Kind.layout, decide_eq_true_eq, Bool.false_eq_true,
      false_implies, and_true] at haccepts
    rw [decodeFromBytes, decodeErrorCode_eq (by omega) hcode]
    by_cases hmin : b.len < 8
    · exact ⟨_, if_pos hmin⟩
    · exact ⟨_, by rw [if_neg hmin, if_pos (by omega)]; rfl⟩
  · rw [decodeFromBytes_of_ne hkind, decodeValue_eq (by omega) hcode]
    by_cases hmin : b.len < kind.layout.least
    · exact ⟨_, by rw [if_pos hmin]; rfl⟩
    · rw [if_neg hmin]
      by_cases hlengths : (!kind.layout.lengths (lengthAt b)) = true
      · exact ⟨_, by rw [if_pos hlengths]; rfl⟩
      · rw [if_neg hlengths]
        have hexceeds : kind.layout.bounded = true ∧ b.len - 4 < lengthAt b := by
          by_contra hbounded
          refine haccepts ⟨by omega, by simpa using hlengths, fun h => ?_⟩
          have hlt := not_and.mp hbounded h
          omega
        exact ⟨_, by rw [if_pos hexceeds]; rfl⟩

theorem length_value_ofValue {value : Bytes} (hlengths : kind.layout.lengths value.length = true) :
    (Attribute.ofValue kind value).value.length = value.length := by
  cases kind with
  | errorCode =>
    simp only [Kind.layout, decide_eq_true_eq] at hlengths
    simp only [Attribute.ofValue, Attribute.value, List.length_append,
      List.length_cons, List.length_nil, List.length_drop]
    omega
  | messageIntegrity | messageIntegritySHA256 =>
    simp only [Kind.layout, beq_iff_eq] at hlengths
    simp only [Attribute.ofValue, Attribute.value, FixedBytes.length_eq, hlengths]
  | fingerprint | icePriority | iceUseCandidate | iceControlled | iceControlling | changeRequest =>
    simp only [Kind.layout, beq_iff_eq] at hlengths
    simp only [Attribute.ofValue, Attribute.value, Bytes.length_ofNatBE, List.length_nil, hlengths]
  | _ => rfl

section

variable {rest : Slice}

theorem front_of_short (hshort : rest.len < 4) : front rest = .ok .finished := if_pos hshort

theorem front_of_unknown (hlen : 4 ≤ rest.len) (hunknown : typeRegistry (codeAt rest) = none) :
    front rest = .ok (.skipped (lengthAt rest + 4)) := by
  have hcap : rest.len ≤ rest.cap := rest.len_le
  have htype : uint16 rest 0 = .ok (codeAt rest) := uint16_eq (by omega)
  have hlength : uint16 rest 2 = .ok (lengthAt rest) := uint16_eq (by omega)
  rw [front, if_neg (by omega), htype, ok_bind, hunknown]
  simp only [hlength]
  rfl

theorem front_of_known (hlen : 4 ≤ rest.len) (hknown : typeRegistry (codeAt rest) = some kind) :
    front rest =
      match decodeFromBytes kind rest with
      | .ok attr => .ok (.decoded attr)
      | .error (.error cause) => fail (.parseAttribute (codeAt rest) cause)
      | .error (.fault fault) => .error (.fault fault) := by
  have hcap : rest.len ≤ rest.cap := rest.len_le
  have htype : uint16 rest 0 = .ok (codeAt rest) := uint16_eq (by omega)
  rw [front, if_neg (by omega), htype, ok_bind, hknown]
  rfl

theorem front_of_accepts (hlen : 4 ≤ rest.len) (hmax : rest.len ≤ 65535)
    (hknown : typeRegistry (codeAt rest) = some kind) (haccepts : kind.Accepts rest.len
    (lengthAt rest)) (hinside : 4 + lengthAt rest ≤ rest.cap) :
    front rest = .ok (.decoded (.ofValue kind (valueAt rest))) ∧ (Attribute.ofValue kind
      (valueAt rest)).serializeLen = attrSerializedSize (lengthAt rest) := by
  have hlength : (valueAt rest).length = lengthAt rest := Bytes.length_window _ _ _ hinside
  constructor
  · rw [front_of_known hlen hknown, decodeFromBytes_of_accepts hlen hmax
      (code_of_typeRegistry hknown).symm haccepts, if_pos hinside]
  · rw [Attribute.serializeLen, length_value_ofValue (hlength ▸ haccepts.2.1),
      hlength, Nat.mod_eq_of_lt (lengthAt_lt rest)]

theorem front_of_overrun (hlen : 4 ≤ rest.len) (hmax : rest.len ≤ 65535)
    (hknown : typeRegistry (codeAt rest) = some kind) (haccepts : kind.Accepts rest.len
    (lengthAt rest)) (hoverrun : rest.cap < 4 + lengthAt rest) :
    front rest = .error (.fault .sliceBounds) := by
  rw [front_of_known hlen hknown, decodeFromBytes_of_accepts hlen hmax
    (code_of_typeRegistry hknown).symm haccepts, if_neg (by omega)]

theorem front_of_rejects (hlen : 4 ≤ rest.len) (hknown : typeRegistry (codeAt rest) =
    some kind) (hrejects : ¬ kind.Accepts rest.len (lengthAt rest)) :
    ∃ cause, front rest = .error (.error cause) := by
  obtain ⟨cause, hcause⟩ := decodeFromBytes_of_not_accepts hlen
    (code_of_typeRegistry hknown).symm hrejects
  exact ⟨_, by rw [front_of_known hlen hknown, hcause]; rfl⟩

end

theorem len_advance (slice : Slice) (count : Nat) : (slice.advance count).len = slice.len - count :=
  rfl

theorem four_le_serializeLen (attr : Attribute) : 4 ≤ attr.serializeLen := by
  rw [Attribute.serializeLen, attrSerializedSize]
  omega

theorem front_eq_skipped {rest : Slice} {size : Nat} (hfront : front rest = .ok (.skipped size)) :
    4 ≤ rest.len ∧ typeRegistry (codeAt rest) = none ∧ size = lengthAt rest + 4 := by
  by_cases hlen : rest.len < 4
  · cases (front_of_short hlen).symm.trans hfront
  · cases hcode : typeRegistry (codeAt rest) with
    | none =>
      cases (front_of_unknown (by omega) hcode).symm.trans hfront
      exact ⟨by omega, rfl, rfl⟩
    | some kind =>
      rw [front_of_known (by omega) hcode] at hfront
      split at hfront <;> cases hfront

theorem decodeLoop_succ (fuel : Nat) (rest : Slice) (hfuel : rest.len ≤ fuel) :
    decodeLoop (fuel + 1) rest = decodeLoop fuel rest := by
  induction fuel generalizing rest with
  | zero =>
    have hfront : front rest = .ok .finished := front_of_short (by omega)
    simp only [decodeLoop, hfront]
    rfl
  | succ fuel ih =>
    rw [decodeLoop, decodeLoop]
    cases hfront : front rest with
    | error failure => rfl
    | ok found =>
      cases found with
      | finished => rfl
      | skipped size =>
        have hsize := (front_eq_skipped hfront).2.2
        exact ih _ (by rw [len_advance]; omega)
      | decoded attr =>
        have hsize := four_le_serializeLen attr
        have hrest := ih (rest.advance attr.serializeLen) (by rw [len_advance]; omega)
        simp only [ok_bind]
        rw [hrest]

theorem decodeLoop_of_le {fuel : Nat} {rest : Slice}
    (hfuel : rest.len ≤ fuel) : decodeLoop fuel rest = decodeAttributes rest := by
  induction fuel with
  | zero => rw [decodeAttributes, Nat.le_zero.mp hfuel]
  | succ fuel ih =>
    by_cases heq : rest.len = fuel + 1
    · rw [decodeAttributes, heq]
    · rw [decodeLoop_succ fuel rest (by omega), ih (by omega)]

theorem decodeAttributes_eq (data : Slice) : decodeAttributes data = do
      match ← front data with
      | .finished => return []
      | .skipped size => decodeAttributes (data.advance size)
      | .decoded attr =>
        let attrs ← decodeAttributes (data.advance attr.serializeLen)
        return attr :: attrs := by
  rw [← decodeLoop_of_le (Nat.le_succ data.len), decodeLoop]
  cases hfront : front data with
  | error failure => rfl
  | ok found =>
    cases found with
    | finished => rfl
    | skipped size =>
      exact decodeLoop_of_le (by rw [len_advance]; omega)
    | decoded attr =>
      simp only [ok_bind]
      rw [decodeLoop_of_le (by rw [len_advance]; omega)]

variable {data : Slice}

theorem decodeAttributes_of_finished
    (hfront : front data = .ok .finished) : decodeAttributes data = .ok [] := by
  rw [decodeAttributes_eq, hfront]
  rfl

theorem decodeAttributes_of_skipped {size : Nat} (hfront : front data = .ok (.skipped size)) :
    decodeAttributes data = decodeAttributes (data.advance size) := by
  rw [decodeAttributes_eq, hfront]
  rfl

theorem decodeAttributes_of_decoded {attr : Attribute} (hfront : front data = .ok (.decoded attr)) :
    decodeAttributes data = do
      let attrs ← decodeAttributes (data.advance attr.serializeLen)
      return attr :: attrs := by
  rw [decodeAttributes_eq, hfront]
  rfl

theorem decodeAttributes_of_error {failure : Failure} (hfront : front data = .error failure) :
    decodeAttributes data = .error failure := by
  rw [decodeAttributes_eq, hfront]
  rfl

end Pig.Stun
