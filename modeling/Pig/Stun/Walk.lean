import Pig.Stun.Area

namespace Pig.Stun

open Go

inductive Walk : Slice → List Attribute → Nat → Prop
  | here (data : Slice) : Walk data [] 0
  | skipped {data : Slice} {attrs : List Attribute} {size count : Nat}
      (hfront : front data = .ok (.skipped size))
      (after : Walk (data.advance size) attrs count) :
      Walk data attrs (size + count)
  | decoded {data : Slice} {attr : Attribute} {attrs : List Attribute}
      {count : Nat} (hfront : front data = .ok (.decoded attr))
      (after : Walk (data.advance attr.serializeLen) attrs count) :
      Walk data (attr :: attrs) (attr.serializeLen + count)

theorem decodeAttributes_of_walk {data : Slice} {attrs : List Attribute}
    {count : Nat} (walk : Walk data attrs count) :
    decodeAttributes data = (do
      let later ← decodeAttributes (data.advance count)
      return attrs ++ later) := by
  induction walk with
  | here data =>
    rw [data.advance_zero]
    cases decodeAttributes data <;> rfl
  | @skipped data attrs size count hfront after ih =>
    rw [decodeAttributes_of_skipped hfront, ih, data.advance_advance]
  | @decoded data attr attrs count hfront after ih =>
    rw [decodeAttributes_of_decoded hfront, ih, data.advance_advance]
    cases decodeAttributes (data.advance (attr.serializeLen + count)) <;> rfl

structure Agree (count : Nat) (data other : Slice) : Prop where
  le_len : count ≤ data.len
  le_len_other : count ≤ other.len
  take_eq : data.array.take count = other.array.take count

namespace Agree

variable {count : Nat} {data other third : Slice}

theorem advance {size : Nat} (agree : Agree (size + count) data other) :
    Agree count (data.advance size) (other.advance size) where
  le_len := by
    have hlen := agree.le_len
    rw [len_advance]
    omega
  le_len_other := by
    have hlen := agree.le_len_other
    rw [len_advance]
    omega
  take_eq := by
    have hdrop := congrArg (List.drop size) agree.take_eq
    rwa [List.drop_take, List.drop_take, Nat.add_sub_cancel_left] at hdrop

theorem window_eq {start length : Nat} (agree : Agree count data other)
    (hinside : start + length ≤ count) :
    data.array.window start length = other.array.window start length := by
  rw [← Bytes.window_take data.array hinside, agree.take_eq, Bytes.window_take other.array hinside]

end Agree

section

variable {data : Slice}

theorem front_eq_decoded {attr : Attribute} (hmax : data.len ≤ 65535)
    (hfront : front data = .ok (.decoded attr)) :
    ∃ kind, 4 ≤ data.len ∧ 4 + lengthAt data ≤ data.cap ∧ typeRegistry (codeAt data) = some kind ∧
      kind.layout.lengths (lengthAt data) = true ∧ attr = .ofValue kind (valueAt data) ∧
      attr.serializeLen = attrSerializedSize (lengthAt data) := by
  by_cases hlen : data.len < 4
  · cases (front_of_short hlen).symm.trans hfront
  · cases hcode : typeRegistry (codeAt data) with
    | none =>
      cases (front_of_unknown (by omega) hcode).symm.trans hfront
    | some kind =>
      by_cases haccepts : kind.Accepts data.len (lengthAt data)
      · by_cases hcap : 4 + lengthAt data ≤ data.cap
        · obtain ⟨hfound, hsize⟩ := front_of_accepts (by omega) hmax hcode haccepts hcap
          cases hfound.symm.trans hfront
          exact ⟨kind, by omega, hcap, rfl, haccepts.2.1, rfl, hsize⟩
        · cases (front_of_overrun (by omega) hmax hcode haccepts (by omega)).symm.trans hfront
      · obtain ⟨cause, hcause⟩ := front_of_rejects (by omega) hcode haccepts
        cases hcause.symm.trans hfront

end

theorem Walk.transfer {data other : Slice} {attrs : List Attribute} {count : Nat}
    (walk : Walk data attrs count) (agree : Agree count data other) (hmax : data.len ≤ 65535)
    (hmaxOther : other.len ≤ 65535) : Walk other attrs count := by
  induction walk generalizing other with
  | here data => exact .here other
  | @skipped data attrs size count hfront after ih =>
    obtain ⟨hlen, hunknown, hsize⟩ := front_eq_skipped hfront
    have hcode : codeAt other = codeAt data :=
      congrArg Bytes.toNatBE (agree.window_eq (by omega)).symm
    have hlength : lengthAt other = lengthAt data :=
      congrArg Bytes.toNatBE (agree.window_eq (by omega)).symm
    have hother := agree.le_len_other
    refine .skipped ?_ (ih agree.advance ?_ ?_)
    · rw [front_of_unknown (by omega) (by rw [hcode, hunknown]), hlength, hsize]
    · rw [len_advance]
      omega
    · rw [len_advance]
      omega
  | @decoded data attr attrs count hfront after ih =>
    obtain ⟨kind, hlen, -, hknown, hlengths, hattr, hsize⟩ := front_eq_decoded hmax hfront
    have hinside : 4 + lengthAt data ≤ attr.serializeLen := by
      rw [hsize, attrSerializedSize]
      omega
    have hcode : codeAt other = codeAt data :=
      congrArg Bytes.toNatBE (agree.window_eq (by omega)).symm
    have hlength : lengthAt other = lengthAt data :=
      congrArg Bytes.toNatBE (agree.window_eq (by omega)).symm
    have hvalue : valueAt other = valueAt data := by
      rw [valueAt, hlength]
      exact (agree.window_eq (by omega)).symm
    have hother := agree.le_len_other
    obtain ⟨hfound, -⟩ := front_of_accepts (by omega) hmaxOther (hcode ▸ hknown)
      (Kind.accepts_of_lengths (hlength ▸ hlengths) (by omega))
      (Nat.le_trans (by omega) other.len_le)
    refine .decoded ?_ (ih agree.advance ?_ ?_)
    · rw [hfound, hvalue, hattr]
    · rw [len_advance]
      omega
    · rw [len_advance]
      omega

end Pig.Stun
