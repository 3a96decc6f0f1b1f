import Pig.Stun.Binding
import Pig.Stun.RoundTrip
import Pig.Stun.Unknown

namespace Pig.Stun

open Go

/-! The ICE attributes, taken from a decoded message and from the bytes of its
attribute area. -/

def parseIceAttributesFromMessage (message : Message) : IceConfig where
  priority :=
    match message.findAttribute .icePriority with
    | some (.icePriority value) => value
    | _ => 0
  useCandidate := (message.findAttribute .iceUseCandidate).isSome
  iceControlling :=
    match message.findAttribute .iceControlling with
    | some (.iceControlling value) => value
    | _ => 0
  iceControlled :=
    match message.findAttribute .iceControlled with
    | some (.iceControlled value) => value
    | _ => 0

inductive IceError where
  | dataTooShort
  deriving DecidableEq, Repr

namespace IceConfig

def zero : IceConfig where
  priority := 0
  useCandidate := false
  iceControlling := 0
  iceControlled := 0

/-- The `switch` on the type: a value of another length is passed over. -/
def store (ice : IceConfig) (attrType : Nat) (value : Bytes) : IceConfig :=
  if attrType = Kind.icePriority.code then
    if value.length = 4 then
      { ice with priority := UInt32.ofNat value.toNatBE }
    else ice
  else if attrType = Kind.iceUseCandidate.code then
    { ice with useCandidate := true }
  else if attrType = Kind.iceControlling.code then
    if value.length = 8 then
      { ice with iceControlling := UInt64.ofNat value.toNatBE }
    else ice
  else if attrType = Kind.iceControlled.code then
    if value.length = 8 then
      { ice with iceControlled := UInt64.ofNat value.toNatBE }
    else ice
  else ice

def parseLoop : (fuel : Nat) → Bytes → IceConfig → IceConfig
  | 0, _, ice => ice
  | fuel + 1, rest, ice =>
    let attrType := (rest.window 0 2).toNatBE
    let attrLen := (rest.window 2 2).toNatBE
    if rest.length < 4 then ice
    else if rest.length < 4 + attrLen then ice
    else
      parseLoop fuel (rest.drop (4 + attrLen + calculatePadding attrLen))
        (ice.store attrType (rest.window 4 attrLen))

end IceConfig

/-- Every iteration passes at least four bytes. -/
def parseIceAttributesFromBytes (data : Bytes) : Except IceError IceConfig :=
  if data.length < 4 then .error .dataTooShort
  else .ok (IceConfig.parseLoop data.length data .zero)

def firstValue (tlvs : List Tlv) (kind : Kind) : Option Bytes :=
  (tlvs.find? fun tlv => tlv.code = kind.code).map Tlv.value

def lastValue (tlvs : List Tlv) (kind : Kind) : Option Bytes := firstValue tlvs.reverse kind

namespace IceConfig

def ofValues (value : Kind → Option Bytes) : IceConfig where
  priority := UInt32.ofNat ((value .icePriority).elim 0 Bytes.toNatBE)
  useCandidate := (value .iceUseCandidate).isSome
  iceControlling := UInt64.ofNat ((value .iceControlling).elim 0 Bytes.toNatBE)
  iceControlled := UInt64.ofNat ((value .iceControlled).elim 0 Bytes.toNatBE)

end IceConfig

section

variable {tlvs : List Tlv}

theorem firstValue_cons (tlv : Tlv) (kind : Kind) : firstValue (tlv :: tlvs) kind =
      if tlv.code = kind.code then some tlv.value
      else firstValue tlvs kind := by
  by_cases hcode : tlv.code = kind.code <;> simp [hcode, firstValue]

theorem lastValue_append_singleton (tlv : Tlv) (kind : Kind) : lastValue (tlvs ++ [tlv]) kind =
      if tlv.code = kind.code then some tlv.value
      else lastValue tlvs kind := by
  rw [lastValue, List.reverse_append]
  exact firstValue_cons tlv kind

variable {kind : Kind}

theorem exists_mem_of_firstValue {value : Bytes} (hfirst : firstValue tlvs kind = some value) :
    ∃ tlv ∈ tlvs, tlv.code = kind.code ∧ tlv.value = value := by
  obtain ⟨tlv, hfound, hvalue⟩ := Option.map_eq_some_iff.mp hfirst
  have hcode := List.find?_some hfound
  exact ⟨tlv, List.mem_of_find?_eq_some hfound, of_decide_eq_true hcode, hvalue⟩

theorem exists_mem_of_lastValue {value : Bytes} (hlast : lastValue tlvs kind = some value) :
    ∃ tlv ∈ tlvs, tlv.code = kind.code ∧ tlv.value = value := by
  obtain ⟨tlv, hmem, hparts⟩ := exists_mem_of_firstValue hlast
  exact ⟨tlv, List.mem_reverse.mp hmem, hparts⟩

theorem isSome_firstValue_iff : (firstValue tlvs kind).isSome = true ↔
      ∃ tlv ∈ tlvs, tlv.code = kind.code := by
  simp [firstValue]

theorem isSome_lastValue (kind : Kind) :
    (lastValue tlvs kind).isSome = (firstValue tlvs kind).isSome := by
  rw [Bool.eq_iff_iff, lastValue, isSome_firstValue_iff, isSome_firstValue_iff]
  simp only [List.mem_reverse]

theorem find_decoded (kind : Kind) :
    (tlvs.filterMap Tlv.decoded).find? (fun attr => attr.kind = kind) =
      (firstValue tlvs kind).map (Attribute.ofValue kind) := by
  induction tlvs with
  | nil => rfl
  | cons tlv tlvs ih =>
    rw [firstValue_cons]
    cases hcode : typeRegistry tlv.code with
    | none =>
      have hne : tlv.code ≠ kind.code := by
        intro hsame
        rw [hsame, typeRegistry_code] at hcode
        cases hcode
      rw [List.filterMap_cons_none (by rw [Tlv.decoded, hcode]; rfl), if_neg hne, ih]
    | some registered =>
      have hregistered := code_of_typeRegistry hcode
      rw [List.filterMap_cons_some (by rw [Tlv.decoded, hcode]; rfl), List.find?_cons, kind_ofValue]
      by_cases hkind : registered = kind
      · subst hkind
        simp [hregistered]
      · have hne : tlv.code ≠ kind.code := by
          intro hsame
          rw [hsame, typeRegistry_code] at hcode
          exact hkind (Option.some.inj hcode).symm
        rw [if_neg hne, ih]
        simp [hkind]

theorem parseIceAttributesFromMessage_eq {message : Message}
    (hattributes : message.attributes = tlvs.filterMap Tlv.decoded) :
    parseIceAttributesFromMessage message = .ofValues (firstValue tlvs) := by
  have hfind : ∀ kind, message.findAttribute kind =
      (firstValue tlvs kind).map (Attribute.ofValue kind) := by
    intro kind
    rw [Message.findAttribute, hattributes, find_decoded]
  simp only [parseIceAttributesFromMessage, hfind, IceConfig.ofValues,
    IceConfig.mk.injEq, Option.isSome_map, true_and]
  refine ⟨?_, ?_, ?_⟩
  · cases firstValue tlvs .icePriority <;> rfl
  · cases firstValue tlvs .iceControlling <;> rfl
  · cases firstValue tlvs .iceControlled <;> rfl

namespace IceConfig

theorem parseLoop_cons {fuel : Nat} {tlv : Tlv} {more : Bytes} (ice : IceConfig) :
    parseLoop (fuel + 1) (tlv.bytes ++ more) ice =
      parseLoop fuel more (ice.store tlv.code tlv.value) := by
  have hlength : (tlv.bytes ++ more).length =
      attrSerializedSize tlv.value.length + more.length := by
    rw [List.length_append, tlv.length_bytes]
  have hdata : (Slice.ofBytes (tlv.bytes ++ more)).contents =
      tlv.bytes ++ more := Slice.contents_ofBytes _
  have hcode : ((tlv.bytes ++ more).window 0 2).toNatBE = tlv.code := codeAt_of_contents hdata
  have hlen : ((tlv.bytes ++ more).window 2 2).toNatBE = tlv.value.length :=
    lengthAt_of_contents hdata
  have hvalue : (tlv.bytes ++ more).window 4 tlv.value.length = tlv.value :=
    hlen ▸ valueAt_of_contents hdata
  rw [attrSerializedSize] at hlength
  rw [parseLoop]
  simp only [hcode, hlen, hvalue]
  rw [if_neg (by omega), if_neg (by omega)]
  congr 1
  exact List.drop_left' tlv.length_bytes

theorem parseLoop_area {fuel : Nat} (ice : IceConfig) (hfuel : (area tlvs).length ≤ fuel) :
    parseLoop fuel (area tlvs) ice =
      tlvs.foldl (fun ice tlv => ice.store tlv.code tlv.value) ice := by
  induction tlvs generalizing fuel ice with
  | nil => cases fuel <;> rfl
  | cons tlv tlvs ih =>
    rw [area_cons, List.length_append, tlv.length_bytes, attrSerializedSize] at hfuel
    obtain ⟨fuel, rfl⟩ : ∃ less, fuel = less + 1 := ⟨fuel - 1, by omega⟩
    rw [area_cons, parseLoop_cons, ih _ (by omega), List.foldl_cons]

theorem store_ofValues {tlv : Tlv} (hlengths : LengthsAllowed [tlv]) :
    (ofValues (lastValue tlvs)).store tlv.code tlv.value =
      ofValues (lastValue (tlvs ++ [tlv])) := by
  have hlength : ∀ kind : Kind, tlv.code = kind.code →
      kind.layout.lengths tlv.value.length = true := by
    intro kind hcode
    apply hlengths tlv (List.mem_singleton.mpr rfl)
    rw [hcode, typeRegistry_code]
  have hpriority : tlv.code = Kind.icePriority.code →
      tlv.value.length = 4 := fun hcode => eq_of_beq (hlength _ hcode)
  have hcontrolling : tlv.code = Kind.iceControlling.code →
      tlv.value.length = 8 := fun hcode => eq_of_beq (hlength _ hcode)
  have hcontrolled : tlv.code = Kind.iceControlled.code →
      tlv.value.length = 8 := fun hcode => eq_of_beq (hlength _ hcode)
  simp only [ofValues, lastValue_append_singleton, store]
  by_cases hcode : tlv.code = Kind.icePriority.code
  · simp [hcode, hpriority hcode, Kind.code]
  rw [if_neg hcode, if_neg hcode]
  by_cases hcode : tlv.code = Kind.iceUseCandidate.code
  · simp [hcode, Kind.code]
  rw [if_neg hcode, if_neg hcode]
  by_cases hcode : tlv.code = Kind.iceControlling.code
  · simp [hcode, hcontrolling hcode, Kind.code]
  rw [if_neg hcode, if_neg hcode]
  by_cases hcode : tlv.code = Kind.iceControlled.code
  · rw [if_pos hcode, if_pos hcode, if_pos (hcontrolled hcode), Option.elim_some]
  · rw [if_neg hcode, if_neg hcode]

theorem foldl_store (hlengths : LengthsAllowed tlvs) :
    tlvs.foldl (fun ice tlv => ice.store tlv.code tlv.value) zero = ofValues (lastValue tlvs) := by
  induction tlvs using List.reverseRecOn with
  | nil => rfl
  | append_singleton tlvs tlv ih =>
    have hfront : LengthsAllowed tlvs := fun other hother =>
      hlengths other (List.mem_append_left _ hother)
    have hlast : LengthsAllowed [tlv] := fun other hother =>
      hlengths other (List.mem_append_right _ hother)
    rw [List.foldl_append, ih hfront]
    exact store_ofValues hlast

end IceConfig

theorem four_le_length_area (hne : tlvs ≠ []) : 4 ≤ (area tlvs).length := by
  obtain ⟨tlv, tlvs, rfl⟩ := List.exists_cons_of_ne_nil hne
  rw [area_cons, List.length_append, tlv.length_bytes, attrSerializedSize]
  omega

theorem parseIceAttributesFromBytes_area (hne : tlvs ≠ []) (hlengths : LengthsAllowed tlvs) :
    parseIceAttributesFromBytes (area tlvs) = .ok (.ofValues (lastValue tlvs)) := by
  rw [parseIceAttributesFromBytes, if_neg (Nat.not_lt.mpr (four_le_length_area hne)),
    IceConfig.parseLoop_area _ (Nat.le_refl _), IceConfig.foldl_store hlengths]

theorem number_eq_iff {length bits : Nat} (hlengths : LengthsAllowed tlvs)
    (hlength : ∀ value : Bytes, kind.layout.lengths value.length = true →
      value.length = length) (hbits : 256 ^ length = bits) :
    (lastValue tlvs kind).elim 0 Bytes.toNatBE % bits = (firstValue tlvs kind).elim 0 Bytes.toNatBE
      % bits ↔ firstValue tlvs kind = lastValue tlvs kind := by
  have hsome := @isSome_lastValue tlvs kind
  have hvalue : ∀ tlv ∈ tlvs, tlv.code = kind.code → tlv.value.length = length := by
    intro tlv htlv hcode
    apply hlength
    apply hlengths tlv htlv
    rw [hcode, typeRegistry_code]
  cases hfirst : firstValue tlvs kind with
  | none =>
    rw [hfirst, Option.isSome_none, Option.isSome_eq_false_iff, Option.isNone_iff_eq_none] at hsome
    simp [hsome]
  | some first =>
    rw [hfirst, Option.isSome_some, Option.isSome_iff_exists] at hsome
    obtain ⟨last, hlast⟩ := hsome
    obtain ⟨tlv, htlv, hcode, rfl⟩ := exists_mem_of_firstValue hfirst
    obtain ⟨other, hother, hotherCode, rfl⟩ := exists_mem_of_lastValue hlast
    have hlt := Bytes.toNatBE_lt tlv.value
    have hotherLt := Bytes.toNatBE_lt other.value
    rw [hvalue tlv htlv hcode, hbits] at hlt
    rw [hvalue other hother hotherCode, hbits] at hotherLt
    rw [hlast, Option.elim_some, Option.elim_some, Nat.mod_eq_of_lt hlt,
      Nat.mod_eq_of_lt hotherLt, Option.some.injEq]
    constructor
    · intro hnumber
      refine Bytes.eq_of_toNatBE_eq ?_ hnumber.symm
      rw [hvalue tlv htlv hcode, hvalue other hother hotherCode]
    · intro hsame
      rw [hsame]

def numbered : List Kind := [.icePriority, .iceControlling, .iceControlled]

theorem ofValues_eq_iff (hlengths : LengthsAllowed tlvs) :
    IceConfig.ofValues (lastValue tlvs) = .ofValues (firstValue tlvs) ↔
      ∀ kind ∈ numbered, firstValue tlvs kind = lastValue tlvs kind := by
  have hpriority := @number_eq_iff tlvs .icePriority 4 (2 ^ 32) hlengths
    (fun _ hlength => eq_of_beq hlength) rfl
  have hcontrolling := @number_eq_iff tlvs .iceControlling 8 (2 ^ 64) hlengths
    (fun _ hlength => eq_of_beq hlength) rfl
  have hcontrolled := @number_eq_iff tlvs .iceControlled 8 (2 ^ 64) hlengths
    (fun _ hlength => eq_of_beq hlength) rfl
  simp only [IceConfig.ofValues, IceConfig.mk.injEq, isSome_lastValue, true_and, ← UInt32.toNat_inj,
    ← UInt64.toNat_inj, UInt32.toNat_ofNat', UInt64.toNat_ofNat', numbered, List.forall_mem_cons]
  refine and_congr hpriority (and_congr hcontrolling ?_)
  exact hcontrolled.trans (and_iff_left (List.forall_mem_nil _)).symm

end

section

variable {tlvs : List Tlv} {data : Slice} {message : Message}

theorem decodeAttributes_of_decodeMessage (hdecode : decodeMessage data = .ok message) :
    ∃ rest : Slice, rest.len ≤ 65535 ∧ rest.contents = message.raw.drop 20 ∧
      decodeAttributes rest = .ok message.attributes := by
  obtain ⟨hlen, -, hattributes, hraw⟩ := decodeMessage_eq_ok hdecode
  refine ⟨areaAt data hlen, Nat.le_of_lt_succ (UInt16.toNat_lt _), ?_, hattributes⟩
  rw [hraw, List.drop_take, Nat.add_sub_cancel_left]
  rfl

end

def priorityTlv (priority : UInt32) : Tlv where
  code := Kind.icePriority.code
  value := Bytes.ofNatBE 4 priority.toNat
  padding := []
  code_lt := by decide
  length_lt := by rw [Bytes.length_ofNatBE]; decide
  length_padding := by rw [Bytes.length_ofNatBE]; rfl

def requestWith (tlvs : List Tlv) (attributes : List Attribute) : Message where
  header := headerFor 0x0001 ⟨List.replicate 12 7, rfl⟩ tlvs
  attributes := attributes
  raw := (headerFor 0x0001 ⟨List.replicate 12 7, rfl⟩ tlvs).serializeTo ++ area tlvs
  fingerprint := false

def nominating : Message := requestWith [priorityTlv 1, .bare .iceUseCandidate, software]
    [.icePriority 1, .iceUseCandidate]

end Pig.Stun
