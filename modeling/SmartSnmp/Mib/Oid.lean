import SmartSnmp.Lib.Bisect
import SmartSnmp.Lib.PrefixOrder
import Mathlib.Order.Basic
import Mathlib.Tactic.Common

/-!
# Object identifiers

The OID helpers of `core/mib_tree.c`: `oid_cmp`, `oid_cover` and `oid_binary_search`. An OID is
the list of its sub-identifiers, 32-bit words as `oid_t` is; a pointer with a length is the list
of the sub-identifiers it spans. Lengths are not bounded.
-/

namespace SmartSnmp

open PrefixOrder

/-- `oid_t *` with its length. -/
abbrev Oid := List UInt32

/-- `MIB_OID_MAX_LEN`. -/
abbrev mibOidMaxLen : Nat := 64

instance linearOrderUInt32 : LinearOrder UInt32 where
  le_refl a := UInt32.le_refl a
  le_trans _ _ _ := UInt32.le_trans
  lt_iff_le_not_ge a b := by
    simp only [UInt32.lt_iff_toNat_lt, UInt32.le_iff_toNat_le]
    omega
  le_antisymm _ _ := UInt32.le_antisymm
  le_total a b := by
    simp only [UInt32.le_iff_toNat_le]
    omega
  toDecidableLE := inferInstance
  toDecidableLT := inferInstance
  toDecidableEq := inferInstance

/-! ### Comparison and cover -/

/-- `oid_cmp`: the first difference of two sub-identifiers as a signed 32-bit word, or the
difference of the lengths left when one OID ends. -/
def oidCmp : Oid → Oid → Int
  | x :: xs, y :: ys =>
    let ret := (x - y).toInt32.toInt
    if ret = 0 then oidCmp xs ys else ret
  | xs, ys => (xs.length : Int) - ys.length

/-- `oid_cover`: `1` if `oid1` covers `oid2`, `-1` if `oid2` covers `oid1`, `0` otherwise. -/
def oidCover (oid1 oid2 : Oid) : Int :=
  if oid1.length ≤ oid2.length ∧ oidCmp oid1 (oid2.take oid1.length) = 0 then 1
  else if oid2.length ≤ oid1.length ∧ oidCmp (oid1.take oid2.length) oid2 = 0 then -1
  else 0

lemma toInt_sub_eq_zero {x y : UInt32} : (x - y).toInt32.toInt = 0 ↔ x = y := by
  constructor
  · intro h
    have h0 : (x - y).toInt32 = (0 : UInt32).toInt32 := Int32.toInt_inj.mp h
    have h1 : x - y = 0 := by
      simpa only [UInt32.toUInt32_toInt32] using congrArg Int32.toUInt32 h0
    have h2 : x.toNat = y.toNat := by
      have := congrArg UInt32.toNat h1
      simp only [UInt32.toNat_sub, UInt32.toNat_zero] at this
      have hx := x.toNat_lt
      have hy := y.toNat_lt
      omega
    exact UInt32.toNat_inj.mp h2
  · rintro rfl
    simp

lemma oidCmp_cons (x y : UInt32) (xs ys : Oid) :
    oidCmp (x :: xs) (y :: ys) = if x = y then oidCmp xs ys else (x - y).toInt32.toInt := by
  simp only [oidCmp, toInt_sub_eq_zero]

lemma oidCmp_eq_zero_iff (a b : Oid) : oidCmp a b = 0 ↔ a = b := by
  induction a generalizing b with
  | nil => cases b <;> simp [oidCmp]; omega
  | cons x xs ih =>
    cases b with
    | nil => simp [oidCmp]; omega
    | cons y ys =>
      rw [oidCmp_cons]
      split_ifs with h
      · simp [ih, h]
      · rw [toInt_sub_eq_zero]
        simp [h]

lemma oidCover_eq_one_iff (a b : Oid) : oidCover a b = 1 ↔ a <+: b := by
  simp only [oidCover, oidCmp_eq_zero_iff, List.prefix_iff_eq_take]
  constructor
  · intro h
    split_ifs at h with h₁ h₂
    · exact h₁.2
    · omega
  · intro h
    have hlen : a.length ≤ b.length := by
      have := congrArg List.length h
      simp only [List.length_take] at this
      omega
    rw [if_pos ⟨hlen, h⟩]

lemma oidCover_eq_neg_one_iff (a b : Oid) : oidCover a b = -1 ↔ b <+: a ∧ b ≠ a := by
  simp only [oidCover, oidCmp_eq_zero_iff]
  constructor
  · intro h
    split_ifs at h with h₁ h₂
    refine ⟨List.prefix_iff_eq_take.mpr h₂.2.symm, fun hab => h₁ ?_⟩
    subst hab
    simp
  · rintro ⟨⟨t, rfl⟩, hne⟩
    have ht : t ≠ [] := by rintro rfl; simp at hne
    have hlen : 0 < t.length := List.length_pos_iff.mpr ht
    have hnot : ¬ (b ++ t).length ≤ b.length := by
      rw [List.length_append]
      omega
    rw [if_neg fun h => hnot h.1, if_pos (by simp)]

lemma oidCover_cases (a b : Oid) : oidCover a b = 1 ∨ oidCover a b = -1 ∨ oidCover a b = 0 := by
  simp only [oidCover]
  split_ifs <;> simp

lemma oidCover_pos_iff (a b : Oid) : 0 < oidCover a b ↔ a <+: b := by
  rw [← oidCover_eq_one_iff]
  rcases oidCover_cases a b with h | h | h <;> omega

lemma oidCover_eq_zero_iff (a b : Oid) : oidCover a b = 0 ↔ ¬ a <+: b ∧ ¬ b <+: a := by
  have h₁ := oidCover_eq_one_iff a b
  have h₂ := oidCover_eq_neg_one_iff a b
  rcases oidCover_cases a b with h | h | h
  · simp [h, h₁.mp h]
  · simp [h, (h₂.mp h).1]
  · have h₃ : ¬ a <+: b := fun hp => by rw [h₁.mpr hp] at h; omega
    have h₄ : ¬ b <+: a := fun hp => by
      have hne : b ≠ a := by rintro rfl; exact h₃ (List.prefix_refl _)
      rw [h₂.mpr ⟨hp, hne⟩] at h
      omega
    simp [h, h₃, h₄]

/-! ### The sign of a comparison -/

/-- Where two OIDs first differ, the second is at most `2 ^ 31` above the first. -/
def NearBelow : Oid → Oid → Prop
  | x :: xs, y :: ys => if x = y then NearBelow xs ys else y.toNat ≤ x.toNat + 2 ^ 31
  | _, _ => True

lemma toInt_toInt32 (x : UInt32) :
    x.toInt32.toInt = if x.toNat < 2 ^ 31 then (x.toNat : Int) else x.toNat - 2 ^ 32 := by
  rw [← Int32.toInt_toBitVec, UInt32.toBitVec_toInt32, BitVec.toInt_eq_toNat_cond]
  simp only [UInt32.toNat_toBitVec]
  split_ifs <;> omega

lemma toInt_sub_neg_iff {x y : UInt32} (hx : x.toNat < 2 ^ 31) (hne : x ≠ y) :
    (x - y).toInt32.toInt < 0 ↔ x < y ∧ y.toNat ≤ x.toNat + 2 ^ 31 := by
  have hy := y.toNat_lt
  have hne' : x.toNat ≠ y.toNat := fun h => hne (UInt32.toNat_inj.mp h)
  rw [toInt_toInt32, UInt32.toNat_sub, UInt32.lt_iff_toNat_lt]
  split_ifs <;> omega

/-- With sub-identifiers below `2 ^ 31` on the left, `oid_cmp` is negative exactly when the left OID
is the smaller one and the difference does not wrap around. -/
lemma oidCmp_neg_iff {a b : Oid} (hsmall : ∀ x ∈ a, x.toNat < 2 ^ 31) :
    oidCmp a b < 0 ↔ a < b ∧ NearBelow a b := by
  induction a generalizing b with
  | nil =>
    cases b with
    | nil => simp [oidCmp]
    | cons y ys => simp [oidCmp, NearBelow]; omega
  | cons x xs ih =>
    cases b with
    | nil => simp [oidCmp]; omega
    | cons y ys =>
      rw [oidCmp_cons, List.cons_lt_cons_iff]
      simp only [NearBelow]
      split_ifs with h
      · rw [ih fun z hz => hsmall z (List.mem_cons_of_mem _ hz)]
        simp [h]
      · rw [toInt_sub_neg_iff (hsmall x List.mem_cons_self) h]
        simp [h]

/-- Nothing is far below an OID of sub-identifiers below `2 ^ 31`. -/
lemma nearBelow_of_small (a : Oid) {b : Oid} (hb : ∀ x ∈ b, x.toNat < 2 ^ 31) : NearBelow a b := by
  induction a generalizing b with
  | nil => simp [NearBelow]
  | cons x xs ih =>
    cases b with
    | nil => simp [NearBelow]
    | cons y ys =>
      have hy := hb y List.mem_cons_self
      simp only [NearBelow]
      split_ifs
      · exact ih fun z hz => hb z (List.mem_cons_of_mem _ hz)
      · omega

/-- With sub-identifiers below `2 ^ 31` on both sides, `oid_cmp` is the lexicographic order. -/
lemma oidCmp_pos_iff {a b : Oid} (ha : ∀ x ∈ a, x.toNat < 2 ^ 31) (hb : ∀ x ∈ b, x.toNat < 2 ^ 31) :
    0 < oidCmp a b ↔ b < a := by
  have hneg := oidCmp_neg_iff (b := b) ha
  have hzero := oidCmp_eq_zero_iff a b
  have hn := nearBelow_of_small a hb
  constructor
  · intro hpos
    rcases lt_trichotomy a b with h | h | h
    · have := hneg.mpr ⟨h, hn⟩
      omega
    · have := hzero.mpr h
      omega
    · exact h
  · intro hlt
    have h1 : ¬ oidCmp a b < 0 := fun h => hlt.not_gt (hneg.mp h).1
    have h2 : oidCmp a b ≠ 0 := fun h => hlt.ne (hzero.mp h).symm
    omega

/-! ### Binary search -/

/-- `oid_binary_search` in the first `n` slots of `arr`: the position of `oid`, or, negative, the
complement of the position it would be inserted at. -/
def oidBinarySearch (arr : List UInt32) (n : Nat) (oid : UInt32) : Int :=
  let low := Bisect.bisect (fun mid => decide (oid < arr.getD mid.toNat 0)) n (-1) n
  if low < 0 ∨ arr.getD low.toNat 0 ≠ oid then -low - 2 else low

/-- What the search says about ascending slots: it splits them at the target. -/
theorem oidBinarySearch_cases {arr : List UInt32} {n : Nat} (hn : n ≤ arr.length)
    (hsorted : (arr.take n).Pairwise (· < ·)) (oid : UInt32) :
    (∃ i, i < n ∧ arr[i]? = some oid ∧ oidBinarySearch arr n oid = i) ∨
    (∃ i, i ≤ n ∧ (∀ j k, j < i → arr[j]? = some k → k < oid) ∧
      (∀ j k, i ≤ j → j < n → arr[j]? = some k → oid < k) ∧
      oidBinarySearch arr n oid = -(i : Int) - 1) := by
  have hlt : ∀ i j, i < j → j < n → arr.getD i 0 < arr.getD j 0 := by
    intro i j hij hjn
    have := List.pairwise_iff_getElem.mp hsorted i j (by simp; omega) (by simp; omega) hij
    simpa [List.getD_eq_getElem?_getD, List.getElem?_eq_getElem (show i < arr.length by omega),
      List.getElem?_eq_getElem (show j < arr.length by omega)] using this
  have hmono : ∀ i j : Int, 0 ≤ i → i ≤ j → j < n →
      decide (oid < arr.getD i.toNat 0) = true → decide (oid < arr.getD j.toNat 0) = true := by
    intro i j h0 hij hjn h
    rcases hij.eq_or_lt with rfl | hij
    · exact h
    · simp only [decide_eq_true_eq] at h ⊢
      exact lt_trans h (hlt _ _ (by omega) (by omega))
  obtain ⟨h₁, h₂, h₃, h₄⟩ := Bisect.bisect_boundary
    (fun mid => decide (oid < arr.getD mid.toNat 0)) hmono n (-1) n (le_refl _) (by omega)
    (le_refl _) (by omega) (by intro i _ _; omega) (by intro i _ _; omega)
  simp only [oidBinarySearch]
  generalize Bisect.bisect (fun mid => decide (oid < arr.getD mid.toNat 0)) n (-1) n = low at *
  have hget : ∀ j k, arr[j]? = some k → arr.getD j 0 = k := by
    intro j k h
    simp [List.getD_eq_getElem?_getD, h]
  have habove : ∀ (j : Nat) k, low < j → j < n → arr[j]? = some k → oid < k := by
    intro j k hj hjn hk
    have := h₄ j hj (by omega)
    simpa only [Int.toNat_natCast, hget j k hk, decide_eq_true_eq] using this
  by_cases hfound : low < 0 ∨ arr.getD low.toNat 0 ≠ oid
  · right
    refine ⟨(low + 1).toNat, by omega, fun j k hj hk => ?_, fun j k hj hjn hk => ?_, ?_⟩
    · -- everything up to `low` is at most the target, and `low` itself misses it
      have hle := h₃ j (by omega) (by omega)
      simp only [Int.toNat_natCast, hget j k hk, decide_eq_false_iff_not, not_lt] at hle
      apply lt_of_le_of_ne hle
      rintro rfl
      rcases hfound with h | h
      · omega
      · rcases Nat.lt_or_ge j low.toNat with hjl | hjl
        · have hlast := h₃ low (by omega) (le_refl _)
          simp only [decide_eq_false_iff_not, not_lt] at hlast
          have := hlt j low.toNat hjl (by omega)
          rw [hget j k hk] at this
          exact absurd (lt_of_lt_of_le this hlast) (lt_irrefl _)
        · obtain rfl : j = low.toNat := by omega
          exact h (hget _ k hk)
    · exact habove j k (by omega) hjn hk
    · rw [if_pos hfound]
      omega
  · left
    rw [if_neg hfound]
    rw [not_or, not_lt, not_not] at hfound
    refine ⟨low.toNat, by omega, ?_, by omega⟩
    rw [← hfound.2, List.getD_eq_getElem?_getD, List.getElem?_eq_getElem (by omega)]
    rfl

/-- Where the search splits the slots, the target is in none of them. -/
lemma getElem?_ne_of_split {arr : List UInt32} {n i : Nat} {oid : UInt32}
    (hbelow : ∀ j k, j < i → arr[j]? = some k → k < oid)
    (habove : ∀ j k, i ≤ j → j < n → arr[j]? = some k → oid < k) {j : Nat} (hj : j < n) :
    arr[j]? ≠ some oid := by
  intro hget
  rcases Nat.lt_or_ge j i with hji | hji
  · exact lt_irrefl oid (hbelow j oid hji hget)
  · exact lt_irrefl oid (habove j oid hji hj hget)

end SmartSnmp
