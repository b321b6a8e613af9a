import SmartSnmp.Lib.CInt
import SmartSnmp.Lib.Traced
import SmartSnmp.Mib.Oid

/-!
# The binary search in `int` arithmetic

`oid_binary_search` with the operations of the source: every `int` expression is checked for overflow
and every index for the bounds of the array. The callers pass a count of 16 bits; up to `INT_MAX - 1`
elements nothing overflows, and the search is `oidBinarySearch`.
-/

namespace SmartSnmp

open CInt

/-- The body of the loop: the new bounds. -/
def searchStep (arr : List UInt32) (oid : UInt32) (low high : Int) : Option (Int × Int) := do
  let gap ← checked (high - low)
  let mid ← checked (low + gap.tdiv 2)
  let x ← slot arr mid
  some (if oid < x then (low, mid) else (mid, high))

/-- The loop: `low` at its end. -/
def searchLoop (arr : List UInt32) (oid : UInt32) : Nat → Int → Int → Outcome Int
  | 0, _, _ => .fuel
  | fuel + 1, low, high =>
    match checked (low + 1) with
    | none => .crash
    | some next =>
      if next < high then
        match searchStep arr oid low high with
        | none => .crash
        | some (low, high) => searchLoop arr oid fuel low high
      else .ok low

/-- What is returned after the loop. -/
def searchResult (arr : List UInt32) (oid : UInt32) (low : Int) : Option Int :=
  let absent := do
    let neg ← checked (-low)
    checked (neg - 2)
  if low < 0 then absent
  else do
    let x ← slot arr low
    if x ≠ oid then absent else some low

/-- `oid_binary_search` on an array of `n` elements. -/
def oidBinarySearchInt (arr : List UInt32) (oid : UInt32) : Outcome Int :=
  match searchLoop arr oid (arr.length + 1) (-1) arr.length with
  | .ok low =>
    match searchResult arr oid low with
    | some r => .ok r
    | none => .crash
  | .crash => .crash
  | .fuel => .fuel

/-! ### Without an overflow -/

section NoOverflow

variable {arr : List UInt32} (hlen : (arr.length : Int) < 2 ^ 31 - 1) (oid : UInt32)

include hlen

lemma searchStep_eq {low high : Int} (hlow : -1 ≤ low) (hgap : low + 1 < high)
    (hhigh : high ≤ arr.length) :
    searchStep arr oid low high =
      some (if oid < arr.getD (low + (high - low) / 2).toNat 0 then (low, low + (high - low) / 2)
        else (low + (high - low) / 2, high)) := by
  obtain ⟨hm₁, hm₂⟩ := Bisect.mid_bounds hgap
  rw [searchStep, checked_of_mem (by omega) (by omega), Option.bind_eq_bind, Option.bind_some,
    Int.tdiv_eq_ediv_of_nonneg (by omega), checked_of_mem (by omega) (by omega), Option.bind_eq_bind,
    Option.bind_some, slot_of_mem (by omega) (by omega) 0]
  rfl

/-- The loop ends within as many rounds as the interval is wide. -/
lemma searchLoop_eq (fuel : Nat) {low high : Int} (hlow : -1 ≤ low) (hlh : low < high)
    (hhigh : high ≤ arr.length) (hfuel : high - low ≤ fuel + 1) :
    searchLoop arr oid (fuel + 1) low high =
      .ok (Bisect.bisect (fun mid => decide (oid < arr.getD mid.toNat 0)) fuel low high) := by
  induction fuel generalizing low high with
  | zero =>
    rw [searchLoop, checked_of_mem (by omega) (by omega), Bisect.bisect]
    exact if_neg (by omega)
  | succ fuel ih =>
    rw [searchLoop, checked_of_mem (by omega) (by omega), Bisect.bisect]
    by_cases hgap : low + 1 < high
    · obtain ⟨hm₁, hm₂⟩ := Bisect.mid_bounds hgap
      simp only [if_pos hgap, searchStep_eq hlen oid hlow hgap hhigh, decide_eq_true_eq]
      by_cases hmid : oid < arr.getD (low + (high - low) / 2).toNat 0
      · simp only [if_pos hmid]
        exact ih hlow hm₁ (by omega) (by omega)
      · simp only [if_neg hmid]
        exact ih (by omega) hm₂ hhigh (by omega)
    · simp only [if_neg hgap]

/-- Up to `INT_MAX - 1` elements the search is the one without bounds on the integers. -/
theorem oidBinarySearchInt_eq :
    oidBinarySearchInt arr oid = .ok (oidBinarySearch arr arr.length oid) := by
  rw [oidBinarySearchInt, searchLoop_eq hlen oid arr.length (le_refl _) (by omega) (le_refl _)
    (by omega), oidBinarySearch]
  obtain ⟨hlow, hhigh⟩ := Bisect.bisect_mem (fun mid => decide (oid < arr.getD mid.toNat 0)) arr.length
    (show (-1 : Int) < arr.length by omega)
  generalize Bisect.bisect (fun mid => decide (oid < arr.getD mid.toNat 0)) arr.length (-1)
    arr.length = low at hlow hhigh
  have habsent : (do let neg ← checked (-low); checked (neg - 2) : Option Int) = some (-low - 2) := by
    rw [checked_of_mem (by omega) (by omega), Option.bind_eq_bind, Option.bind_some,
      checked_of_mem (by omega) (by omega)]
  have hresult : searchResult arr oid low =
      some (if low < 0 ∨ arr.getD low.toNat 0 ≠ oid then -low - 2 else low) := by
    rw [searchResult, habsent]
    by_cases hneg : low < 0
    · rw [if_pos hneg, if_pos (.inl hneg)]
    · rw [if_neg hneg, slot_of_mem (by omega) hhigh 0, Option.bind_eq_bind, Option.bind_some]
      simp only [hneg, false_or]
      split_ifs <;> rfl
  simp only [hresult]

end NoOverflow

/-! ### The contract -/

/-- What a search returns: the index of the target, or, negative, the number of smaller elements. -/
def SearchContract (arr : List UInt32) (oid : UInt32) : Prop :=
  ∃ r, oidBinarySearchInt arr oid = .ok r ∧ (∀ i, arr[i]? = some oid → r = (i : Nat)) ∧
    (oid ∉ arr → r < 0 ∧ -r - 1 = arr.countP (· < oid))

/-- The number of elements below the place where an ascending array is split. -/
lemma countP_of_split {arr : List UInt32} {oid : UInt32} {i : Nat} (hi : i ≤ arr.length)
    (hbelow : ∀ j k, j < i → arr[j]? = some k → k < oid)
    (habove : ∀ j k, i ≤ j → j < arr.length → arr[j]? = some k → oid < k) :
    arr.countP (· < oid) = i := by
  have htake : (arr.take i).countP (· < oid) = (arr.take i).length := by
    refine List.countP_eq_length.mpr fun k hk => ?_
    obtain ⟨j, hj⟩ := List.mem_iff_getElem?.mp hk
    rw [List.getElem?_take] at hj
    split_ifs at hj with hji
    simpa using hbelow j k hji hj
  have hdrop : (arr.drop i).countP (· < oid) = 0 := by
    refine List.countP_eq_zero.mpr fun k hk => ?_
    obtain ⟨j, hj⟩ := List.mem_iff_getElem?.mp hk
    rw [List.getElem?_drop] at hj
    obtain ⟨hlt, -⟩ := List.getElem?_eq_some_iff.mp hj
    simpa using (habove (i + j) k (Nat.le_add_right i j) hlt hj).le
  rw [← List.take_append_drop i arr, List.countP_append, htake, hdrop, List.length_take]
  omega

/-- On a strictly ascending array of fewer than `INT_MAX` elements the search ends, reads inside of the
array, and finds the target or the number of elements below it. -/
theorem searchContract_of_lt {arr : List UInt32} (hasc : arr.Pairwise (· < ·))
    (hlen : arr.length < 2 ^ 31 - 1) (oid : UInt32) : SearchContract arr oid := by
  have htake : arr.take arr.length = arr := List.take_length
  refine ⟨_, oidBinarySearchInt_eq (by omega) oid, ?_⟩
  rcases oidBinarySearch_cases (le_refl _) (htake.symm ▸ hasc) oid with
    ⟨i, hi, hget, heq⟩ | ⟨i, hi, hbelow, habove, heq⟩
  · rw [heq]
    constructor
    · intro j hj
      -- an ascending array has no element twice
      have hnodup : arr.Nodup := hasc.imp ne_of_lt
      rw [(List.getElem?_inj hi hnodup).mp (hget.trans hj.symm)]
    · exact fun hnot => absurd (List.mem_of_getElem? hget) hnot
  · rw [heq]
    constructor
    · intro j hj
      obtain ⟨hlt, -⟩ := List.getElem?_eq_some_iff.mp hj
      exact absurd hj (getElem?_ne_of_split hbelow habove hlt)
    · intro _
      rw [countP_of_split hi hbelow habove]
      omega

theorem searchContract_of_lt_enterprises : SearchContract [1, 2, 4, 311] 4 :=
  searchContract_of_lt (by decide) (by decide) 4

/-- With `INT_MAX` elements the width of the first interval overflows. -/
lemma oidBinarySearchInt_overflow {arr : List UInt32} (hlen : arr.length = 2 ^ 31 - 1) (oid : UInt32) :
    oidBinarySearchInt arr oid = .crash := by
  have hstep : searchStep arr oid (-1) arr.length = none := by
    rw [searchStep, checked_of_le (by omega), Option.bind_eq_bind, Option.bind_none]
  rw [oidBinarySearchInt, searchLoop, checked_of_mem (by omega) (by omega)]
  simp only [hstep, if_pos (show (-1 : Int) + 1 < arr.length by omega)]

/-- The ascending array of the numbers below `n`. -/
def ascendingArray (n : Nat) : List UInt32 := (List.range n).map UInt32.ofNat

lemma pairwise_ascendingArray {n : Nat} (h : n ≤ 2 ^ 32) : (ascendingArray n).Pairwise (· < ·) := by
  rw [ascendingArray, List.pairwise_map]
  refine List.pairwise_lt_range.imp_of_mem fun ha hb hab => ?_
  rw [List.mem_range] at ha hb
  rw [UInt32.lt_iff_toNat_lt, UInt32.toNat_ofNat_of_lt' (ha.trans_le h),
    UInt32.toNat_ofNat_of_lt' (hb.trans_le h)]
  exact hab

/-- An array of `INT_MAX` elements cannot be searched. -/
theorem ascendingArray_not_searched :
    ¬ ∀ (arr : List UInt32) (oid : UInt32), arr.length < 2 ^ 31 → arr.Pairwise (· < ·) →
      SearchContract arr oid := by
  intro h
  have hlen : (ascendingArray (2 ^ 31 - 1)).length = 2 ^ 31 - 1 := by
    rw [ascendingArray, List.length_map, List.length_range]
  have hasc : (ascendingArray (2 ^ 31 - 1)).Pairwise (· < ·) := pairwise_ascendingArray (by decide)
  generalize ascendingArray (2 ^ 31 - 1) = arr at hlen hasc
  obtain ⟨r, hrun, -⟩ := h arr 0 (by omega) hasc
  rw [oidBinarySearchInt_overflow hlen] at hrun
  cases hrun

end SmartSnmp
