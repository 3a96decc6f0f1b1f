import Mathlib.Data.List.Rotate
import Mathlib.Data.Nat.ModEq

namespace Pig.Circular

/-! Cells in a circle. A part of them is read from a position on, or overwritten
from a position on, in one piece or in two if it goes past the last cell. -/

variable {Cell : Type} {cells after source : List Cell} {start count taken : Nat}

def splice (cells : List Cell) (start : Nat) (source : List Cell) : List Cell :=
  cells.take start ++ source ++ cells.drop (start + source.length)

theorem length_splice (h : start + source.length ≤ cells.length) :
    (splice cells start source).length = cells.length := by
  simp only [splice, List.length_append, List.length_take, List.length_drop]
  omega

theorem rotate_eq (h : start ≤ cells.length) :
    cells.rotate start = cells.drop start ++ cells.take start :=
  List.rotate_eq_drop_append_take h

theorem rotate_splice (h : start + source.length ≤ cells.length) :
    (splice cells start source).rotate start =
      source ++ (cells.rotate start).drop source.length := by
  have hstart : (cells.take start).length = start := by
    rw [List.length_take]
    omega
  rw [rotate_eq (by rw [length_splice h]; omega), rotate_eq (by omega),
    List.drop_append_of_le_length (by rw [List.length_drop]; omega), List.drop_drop, splice,
    List.append_assoc, List.drop_left' hstart, List.take_left' hstart, List.append_assoc]

/-- The piece up to the last cell comes first, the rest goes to the front. -/
theorem rotate_splice_splice (hstart : start ≤ cells.length) (hover : cells.length - start ≤
    source.length) (hfits : source.length ≤ cells.length) :
    (splice (splice cells start (source.take (cells.length - start))) 0
        (source.drop (cells.length - start))).rotate start =
      source ++ (cells.rotate start).drop source.length := by
  have hfirst : (source.take (cells.length - start)).length = cells.length - start := by
    rw [List.length_take]
    omega
  have hend : splice cells start (source.take (cells.length - start)) =
      cells.take start ++ source.take (cells.length - start) := by
    rw [splice, hfirst, List.drop_of_length_le (by omega), List.append_nil]
  have hrest : (source.drop (cells.length - start)).length ≤ (cells.take start).length := by
    rw [List.length_drop, List.length_take]
    omega
  have hfront : (source.drop (cells.length - start) ++ (cells.take start).drop
      (source.drop (cells.length - start)).length).length = start := by
    simp only [List.length_append, List.length_drop, List.length_take]
    omega
  have hgone : cells.drop (start + source.length) = [] := List.drop_of_length_le (by omega)
  rw [hend, splice, List.take_zero, List.nil_append, Nat.zero_add,
    List.drop_append_of_le_length hrest, ← List.append_assoc]
  rw [rotate_eq (by rw [List.length_append, hfront]; omega), List.drop_left' hfront, List.take_left'
    hfront, ← List.append_assoc, List.take_append_drop, rotate_eq hstart, List.drop_append,
    List.drop_drop, hgone, List.nil_append, List.length_drop, List.length_drop]

theorem take_rotate (h : start + count ≤ cells.length) :
    (cells.rotate start).take count = (cells.drop start).take count := by
  rw [rotate_eq (by omega), List.take_append_of_le_length (by rw [List.length_drop]; omega)]

theorem take_rotate_over (hstart : start ≤ cells.length)
    (hover : cells.length - start ≤ count) (hfits : count ≤ cells.length) :
    (cells.rotate start).take count =
      cells.drop start ++ cells.take (count - (cells.length - start)) := by
  rw [rotate_eq hstart, List.take_append, List.take_of_length_le (by rw [List.length_drop]; omega),
    List.length_drop, List.take_take, Nat.min_eq_left (by omega)]

theorem take_rotate_append (hfits : count + source.length ≤ cells.length)
    (hafter : after.rotate (start + count) =
      source ++ (cells.rotate (start + count)).drop source.length) :
    (after.rotate start).take (count + source.length) =
      (cells.rotate start).take count ++ source := by
  have hrotated : (cells.rotate start).length = cells.length := List.length_rotate ..
  have hcount : ((cells.rotate start).take count).length = count := by
    rw [List.length_take]
    omega
  have hwhole : after.rotate start = splice (cells.rotate start) count
      source := by
    apply List.rotate_injective count
    change (after.rotate start).rotate count = List.rotate _ count
    rw [List.rotate_rotate, hafter, rotate_splice (by omega), List.rotate_rotate]
  rw [hwhole, splice]
  exact List.take_left' (by rw [List.length_append, hcount])

theorem drop_take_rotate (htaken : taken ≤ count) (hfits : count ≤ cells.length) :
    ((cells.rotate start).take count).drop taken =
      (cells.rotate (start + taken)).take (count - taken) := by
  have hrotated : (cells.rotate start).length = cells.length := List.length_rotate ..
  have hturned : cells.rotate (start + taken) =
      (cells.rotate start).drop taken ++ (cells.rotate start).take taken := by
    rw [← List.rotate_rotate]
    exact rotate_eq (by omega)
  rw [hturned, List.drop_take, List.take_append_of_le_length (by rw [List.length_drop]; omega)]

theorem rotate_set {value : Cell} (hcount : count < cells.length) :
    (cells.set ((start + count) % cells.length) value).rotate start =
      (cells.rotate start).set count value := by
  refine List.ext_getElem (by simp) fun index hleft _ => ?_
  rw [List.length_rotate, List.length_set] at hleft
  simp only [List.getElem_rotate, List.getElem_set, List.length_set]
  -- Two positions meet only if they are the same before the turn.
  have hsame : (start + count) % cells.length = (index + start) % cells.length ↔ count = index := by
    rw [Nat.add_comm index]
    constructor
    · intro h
      have := Nat.ModEq.add_left_cancel' start h
      rwa [Nat.ModEq, Nat.mod_eq_of_lt hcount, Nat.mod_eq_of_lt hleft] at this
    · rintro rfl
      rfl
  simp only [hsame]

end Pig.Circular
