import Mathlib.Algebra.Order.Ring.Int
import Mathlib.Tactic.Common

/-!
# Bisection of an integer interval

`bisect p fuel low high` narrows the open interval `(low, high)` to an empty one: the midpoint
becomes the new upper end where `p` holds and the new lower end where it fails. When `p` is
upwards closed on the interval, the returned lower end is the last position where `p` fails.
-/

namespace Bisect

/-- Bisection with sentinels: `low` stands before and `high` behind the positions searched. -/
def bisect (p : Int → Bool) : Nat → Int → Int → Int
  | 0, low, _ => low
  | fuel + 1, low, high =>
    if low + 1 < high then
      let mid := low + (high - low) / 2
      if p mid then bisect p fuel low mid else bisect p fuel mid high
    else low

/-- The midpoint of a non-empty open interval lies strictly inside it. -/
lemma mid_bounds {low high : Int} (h : low + 1 < high) :
    low < low + (high - low) / 2 ∧ low + (high - low) / 2 < high := by
  omega

/-- The result lies in the interval, the lower end included. -/
lemma bisect_mem (p : Int → Bool) (fuel : Nat) {low high : Int} (h : low < high) :
    low ≤ bisect p fuel low high ∧ bisect p fuel low high < high := by
  induction fuel generalizing low high with
  | zero => exact ⟨le_refl _, h⟩
  | succ fuel ih =>
    simp only [bisect]
    split_ifs with hgap
    · obtain ⟨hm₁, hm₂⟩ := mid_bounds hgap
      obtain ⟨h₁, h₂⟩ := ih hm₁
      exact ⟨h₁, h₂.trans hm₂⟩
    · obtain ⟨hm₁, hm₂⟩ := mid_bounds hgap
      obtain ⟨h₁, h₂⟩ := ih hm₂
      exact ⟨hm₁.le.trans h₁, h₂⟩
    · exact ⟨le_refl _, h⟩

/-- Enough fuel ends the bisection at a boundary: `p` fails on everything up to the result and
holds from the next position on. -/
theorem bisect_boundary (p : Int → Bool) {n : Int}
    (hmono : ∀ i j, 0 ≤ i → i ≤ j → j < n → p i = true → p j = true) (fuel : Nat)
    (low high : Int) (hlow : -1 ≤ low) (hlh : low < high) (hhigh : high ≤ n)
    (hfuel : high - low ≤ fuel + 1) (hl : ∀ i, 0 ≤ i → i ≤ low → p i = false)
    (hh : ∀ i, high ≤ i → i < n → p i = true) :
    low ≤ bisect p fuel low high ∧ bisect p fuel low high < high ∧
      (∀ i, 0 ≤ i → i ≤ bisect p fuel low high → p i = false) ∧
      (∀ i, bisect p fuel low high < i → i < n → p i = true) := by
  induction fuel generalizing low high with
  | zero =>
    refine ⟨le_refl _, hlh, hl, fun i hi hin => hh i ?_ hin⟩
    simp only [bisect] at hi
    omega
  | succ fuel ih =>
    simp only [bisect]
    split_ifs with hgap hp
    · -- `p` holds at the midpoint, hence at everything behind it
      obtain ⟨hm₁, hm₂⟩ := mid_bounds hgap
      obtain ⟨h₁, h₂, h₃, h₄⟩ := ih low (low + (high - low) / 2) hlow hm₁ (by omega) (by omega) hl
        (fun i hi hin => hmono _ i (by omega) hi hin hp)
      exact ⟨h₁, by omega, h₃, h₄⟩
    · -- `p` fails at the midpoint, hence at everything before it
      obtain ⟨hm₁, hm₂⟩ := mid_bounds hgap
      have hl' : ∀ i, 0 ≤ i → i ≤ low + (high - low) / 2 → p i = false := by
        intro i h0 hi
        by_contra hpi
        exact hp (hmono i _ h0 hi (by omega) (by simpa using hpi))
      obtain ⟨h₁, h₂, h₃, h₄⟩ := ih (low + (high - low) / 2) high (by omega) hm₂ hhigh (by omega)
        hl' hh
      exact ⟨by omega, h₂, h₃, h₄⟩
    · exact ⟨le_refl _, hlh, hl, fun i hi hin => hh i (by omega) hin⟩

end Bisect
