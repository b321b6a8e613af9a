import Mathlib.Algebra.Ring.Int.Defs
import Mathlib.Tactic.Common

/-!
# Checked `int` arithmetic

An expression of the type `int` is computed as an integer and is undefined where that does not fit 32
bits. Arrays are indexed by such expressions.
-/

namespace CInt

/-- The value of an `int` expression. -/
def checked (z : Int) : Option Int := if -2 ^ 31 ≤ z ∧ z < 2 ^ 31 then some z else none

lemma checked_of_mem {z : Int} (hlow : -2 ^ 31 ≤ z) (hhigh : z < 2 ^ 31) : checked z = some z :=
  if_pos ⟨hlow, hhigh⟩

lemma checked_of_le {z : Int} (h : 2 ^ 31 ≤ z) : checked z = none :=
  if_neg fun hz => by omega

/-- The slot of an array at an `int` index. -/
def slot {α : Type} (a : List α) (i : Int) : Option α := if 0 ≤ i then a[i.toNat]? else none

lemma slot_of_mem {α : Type} {a : List α} {i : Int} (hpos : 0 ≤ i) (hlt : i < a.length) (d : α) :
    slot a i = some (a.getD i.toNat d) := by
  rw [slot, if_pos hpos, List.getD_eq_getElem?_getD, List.getElem?_eq_getElem (by omega),
    Option.getD_some]

end CInt
