import Mathlib.Data.List.Basic
import Mathlib.Order.Nat
import Mathlib.Tactic.Common

/-!
# Scans of an array from either end

Loops that walk an index over an array, down to its first slot or up to its end, as long as the slots
satisfy a predicate, and loops that copy what is left. Every read is checked: a loop is `none` where
it leaves the array. On the reversed array the loop in one direction does what the other does on the
array, unless all slots satisfy the predicate: the one that goes down stops at the first slot, and the
one that goes up behind the last.
-/

namespace Scan

variable {α : Type} {p : α → Bool} {a : List α}

/-- `while (i > 0 && p(a[i])) i--;` -/
def down (p : α → Bool) (a : List α) : Nat → Option Nat
  | 0 => some 0
  | i + 1 => do
    let x ← a[i + 1]?
    if p x then down p a i else some (i + 1)

/-- `while (i < n && p(a[i])) i++;` with `k` of the `n` slots left. -/
def up (p : α → Bool) (a : List α) : Nat → Nat → Option Nat
  | 0, i => some i
  | k + 1, i => do
    let x ← a[i]?
    if p x then up p a k (i + 1) else some i

/-- `while (i >= 0) out[j++] = a[i--];` -/
def copyDown (a : List α) : Nat → Option (List α)
  | 0 => do
    let x ← a[0]?
    some [x]
  | i + 1 => do
    let x ← a[i + 1]?
    let out ← copyDown a i
    some (x :: out)

/-- `while (i < n) out[j++] = a[i++];` with `k` of the `n` slots left. -/
def copyUp (a : List α) : Nat → Nat → Option (List α)
  | 0, _ => some []
  | k + 1, i => do
    let x ← a[i]?
    let out ← copyUp a k (i + 1)
    some (x :: out)

lemma down_succ {i : Nat} (h : i + 1 < a.length) :
    down p a (i + 1) = if p a[i + 1] then down p a i else some (i + 1) := by
  rw [down, List.getElem?_eq_getElem h]
  rfl

lemma copyDown_eq {i : Nat} (h : i < a.length) : copyDown a i = some (a.take (i + 1)).reverse := by
  induction i with
  | zero =>
    rw [copyDown, List.getElem?_eq_getElem h, List.take_succ_eq_append_getElem h]
    rfl
  | succ i ih =>
    rw [copyDown, List.getElem?_eq_getElem h, ih (by omega), List.take_succ_eq_append_getElem h,
      List.reverse_append]
    rfl

lemma copyUp_eq {k i : Nat} (h : i + k = a.length) : copyUp a k i = some (a.drop i) := by
  induction k generalizing i with
  | zero => rw [copyUp, List.drop_eq_nil_of_le (by omega)]
  | succ k ih =>
    have hi : i < a.length := by omega
    rw [copyUp, List.getElem?_eq_getElem hi, ih (by omega), List.drop_eq_getElem_cons hi]
    rfl

/-- The slots that are left of the reversed array, copied upwards, are those of the array downwards. -/
lemma copyUp_reverse {i : Nat} (h : i < a.length) :
    copyUp a.reverse (i + 1) (a.length - 1 - i) = copyDown a i := by
  rw [copyUp_eq (by rw [List.length_reverse]; omega), copyDown_eq h, List.drop_reverse,
    show a.length - (a.length - 1 - i) = i + 1 by omega]

/-- The scan stays in the array, and stops at a slot that is not passed over if there is one. -/
lemma down_spec {i : Nat} (h : i < a.length) :
    ∃ j ≤ i, down p a i = some j ∧ ((∃ x ∈ a.take (i + 1), ¬ p x) → ∃ x, a[j]? = some x ∧ ¬ p x) := by
  induction i with
  | zero =>
    refine ⟨0, le_rfl, rfl, ?_⟩
    rintro ⟨x, hx, hp⟩
    rw [List.take_succ_eq_append_getElem h] at hx
    obtain rfl : x = a[0] := by simpa using hx
    exact ⟨_, List.getElem?_eq_getElem h, hp⟩
  | succ i ih =>
    rw [down_succ h]
    by_cases hp : p a[i + 1]
    · obtain ⟨j, hj, hdown, hstop⟩ := ih (by omega)
      refine ⟨j, by omega, by rw [if_pos hp, hdown], ?_⟩
      rintro ⟨x, hx, hpx⟩
      rw [List.take_succ_eq_append_getElem h, List.mem_append, List.mem_singleton] at hx
      rcases hx with hx | rfl
      · exact hstop ⟨x, hx, hpx⟩
      · exact absurd hp hpx
    · exact ⟨i + 1, le_rfl, if_neg hp, fun _ => ⟨_, List.getElem?_eq_getElem h, hp⟩⟩

/-- The scan upwards of the reversed array, behind which all slots but the first `k` lie. -/
lemma up_reverse {k i : Nat} (h : i + k = a.length) :
    up p a.reverse k i =
      if ∀ x ∈ a.take k, p x then some a.length else (down p a (k - 1)).map (a.length - 1 - ·) := by
  induction k generalizing i with
  | zero =>
    rw [up, if_pos (by simp)]
    congr 1
  | succ k ih =>
    have hk : k < a.length := by omega
    have hget : a.reverse[i]? = some a[k] := by
      rw [List.getElem?_reverse (by omega), show a.length - 1 - i = k by omega,
        List.getElem?_eq_getElem hk]
    have hall : (∀ x ∈ a.take (k + 1), p x) ↔ (∀ x ∈ a.take k, p x) ∧ p a[k] := by
      rw [List.take_succ_eq_append_getElem hk]
      simp only [List.mem_append, List.mem_singleton, or_imp, forall_and, forall_eq]
    rw [up, hget, Option.bind_eq_bind, Option.bind_some, Nat.add_sub_cancel]
    by_cases hp : p a[k]
    · rw [if_pos hp, ih (by omega)]
      by_cases htake : ∀ x ∈ a.take k, p x
      · rw [if_pos htake, if_pos (hall.mpr ⟨htake, hp⟩)]
      · rw [if_neg htake, if_neg fun h => htake (hall.mp h).1]
        -- there is a slot before this one, which the scan downwards passes over too
        obtain ⟨k, rfl⟩ : ∃ m, k = m + 1 := Nat.exists_eq_succ_of_ne_zero fun h0 => htake (by simp [h0])
        rw [down_succ hk, if_pos hp, Nat.add_sub_cancel]
    · rw [if_neg hp, if_neg fun h => hp (hall.mp h).2]
      have hdown : down p a k = some k := by
        cases k with
        | zero => rfl
        | succ k => rw [down_succ hk, if_neg hp]
      rw [hdown, Option.map_some, show a.length - 1 - k = i by omega]

/-- Unless every slot is passed over, the two scans stop at the same one. -/
theorem up_reverse_eq_down {n : Nat} (hlen : a.length = n + 1) (h : ∃ x ∈ a, ¬ p x) :
    ∃ j ≤ n, down p a n = some j ∧ up p a.reverse (n + 1) 0 = some (n - j) ∧
      ∃ x, a[j]? = some x ∧ a.reverse[n - j]? = some x ∧ ¬ p x := by
  have htake : a.take (n + 1) = a := List.take_of_length_le hlen.le
  obtain ⟨j, hj, hdown, hstop⟩ := down_spec (p := p) (show n < a.length by omega)
  rw [htake] at hstop
  obtain ⟨x, hx, hp⟩ := hstop h
  have hup := up_reverse (p := p) (show 0 + (n + 1) = a.length by omega)
  rw [htake, if_neg (by simpa using h), Nat.add_sub_cancel, hdown, Option.map_some, hlen,
    Nat.add_sub_cancel] at hup
  refine ⟨j, hj, hdown, hup, x, hx, ?_, hp⟩
  rw [List.getElem?_reverse (by omega), ← hx]
  congr 1
  omega

/-- If every slot is passed over, one scan stops at the first slot and the other behind the last. -/
theorem scans_of_forall {n : Nat} (hlen : a.length = n + 1) (h : ∀ x ∈ a, p x) :
    down p a n = some 0 ∧ up p a.reverse (n + 1) 0 = some (n + 1) := by
  constructor
  · have hdown : ∀ i < a.length, down p a i = some 0 := by
      intro i hi
      induction i with
      | zero => rfl
      | succ i ih => rw [down_succ hi, if_pos (h _ (List.getElem_mem hi)), ih (by omega)]
    exact hdown n (by omega)
  · have hup := up_reverse (p := p) (show 0 + (n + 1) = a.length by omega)
    rwa [if_pos fun x hx => h x (List.mem_of_mem_take hx), hlen] at hup

end Scan
