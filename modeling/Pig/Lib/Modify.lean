import Mathlib.Data.List.Basic

namespace Pig

section

variable {Value Part : Type} {values : List Value} {index : Nat} {change : Value → Value}

theorem forall_mem_modify {property : Value → Prop} (hall : ∀ value ∈ values, property value)
    (hchange : ∀ value, values[index]? = some value → property (change value)) :
    ∀ value ∈ values.modify index change, property value := by
  intro value hvalue
  obtain ⟨position, hposition⟩ := List.mem_iff_getElem?.mp hvalue
  rw [List.getElem?_modify] at hposition
  obtain ⟨old, hold, rfl⟩ := Option.map_eq_some_iff.mp hposition
  split
  · next hindex => exact hchange old (hindex ▸ hold)
  · exact hall old (List.mem_of_getElem? hold)

theorem map_modify {part : Value → Part} (hpart : ∀ value, part (change value) = part value) :
    (values.modify index change).map part = values.map part := by
  apply List.ext_getElem?
  intro position
  rw [List.getElem?_map, List.getElem?_map, List.getElem?_modify]
  cases values[position]? with
  | none => rfl
  | some value =>
    simp only [Option.map_eq_map, Option.map_some]
    split
    · rw [hpart]
    · rfl

end

end Pig
