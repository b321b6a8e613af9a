import Mathlib.Algebra.Order.Ring.Nat
import Mathlib.Tactic.Common
import Mathlib.Tactic.Ring

/-!
# Numbers in groups of seven bits

A number is written in bytes of seven bits each, the highest first, and every byte but the last has
its high bit set.
-/

namespace Base128

/-- The number that the low seven bits of the bytes spell. -/
def value (bs : List UInt8) : Nat := bs.foldl (fun acc b => acc * 128 + b.toNat % 128) 0

/-- The high bit is set on every byte but the last. -/
inductive Group : List UInt8 → Prop where
  | last {b : UInt8} (h : b.toNat < 128) : Group [b]
  | more {b : UInt8} {bs : List UInt8} (h : 128 ≤ b.toNat) (hbs : Group bs) : Group (b :: bs)

lemma foldl_eq (acc : Nat) (bs : List UInt8) :
    bs.foldl (fun acc b => acc * 128 + b.toNat % 128) acc = acc * 128 ^ bs.length + value bs := by
  induction bs generalizing acc with
  | nil => simp [value]
  | cons b bs ih =>
    rw [value, List.foldl_cons, List.foldl_cons, ih, ih]
    simp only [List.length_cons, pow_succ]
    ring

lemma value_cons (b : UInt8) (bs : List UInt8) :
    value (b :: bs) = b.toNat % 128 * 128 ^ bs.length + value bs := by
  rw [value, List.foldl_cons, foldl_eq]
  simp

lemma value_append_singleton (bs : List UInt8) (b : UInt8) :
    value (bs ++ [b]) = value bs * 128 + b.toNat % 128 := by
  simp [value]

lemma group_append_singleton {bs : List UInt8} {b : UInt8} (h : ∀ c ∈ bs, 128 ≤ c.toNat)
    (hb : b.toNat < 128) : Group (bs ++ [b]) := by
  induction bs with
  | nil => exact .last hb
  | cons c bs ih => exact .more (h c (by simp)) (ih fun d hd => h d (by simp [hd]))

lemma Group.ne_nil {bs : List UInt8} (h : Group bs) : bs ≠ [] := by
  cases h <;> simp

lemma value_lt (bs : List UInt8) : value bs < 128 ^ bs.length := by
  induction bs with
  | nil => simp [value]
  | cons b bs ih =>
    have hdigit : b.toNat % 128 + 1 ≤ 128 := Nat.mod_lt _ (by norm_num)
    calc value (b :: bs) < b.toNat % 128 * 128 ^ bs.length + 128 ^ bs.length := by
          rw [value_cons]
          omega
      _ = (b.toNat % 128 + 1) * 128 ^ bs.length := by ring
      _ ≤ 128 * 128 ^ bs.length := Nat.mul_le_mul_right _ hdigit
      _ = 128 ^ (b :: bs).length := by rw [List.length_cons, pow_succ]; ring

/-- A group is given by its length and its number. -/
lemma Group.eq_of_value {as bs : List UInt8} (ha : Group as) (hb : Group bs)
    (hlen : as.length = bs.length) (hval : value as = value bs) : as = bs := by
  induction ha generalizing bs with
  | last h =>
    cases hb with
    | last h' =>
      simp only [value_cons, List.length_nil, pow_zero, mul_one, Nat.mod_eq_of_lt h,
        Nat.mod_eq_of_lt h', Nat.add_right_cancel_iff, UInt8.toNat_inj] at hval
      rw [hval]
    | more h' hbs => exact absurd hlen.symm (by simp [hbs.ne_nil])
  | @more a as h has ih =>
    cases hb with
    | last h' => exact absurd hlen (by simp [has.ne_nil])
    | @more b bs h' hbs =>
      have hlen' : as.length = bs.length := by simpa using hlen
      rw [value_cons, value_cons, hlen'] at hval
      have hpos : 0 < 128 ^ bs.length := Nat.pow_pos (by norm_num)
      have hvas := hlen' ▸ value_lt as
      have hvbs := value_lt bs
      have hdigit : a.toNat % 128 = b.toNat % 128 := by
        have h1 := congrArg (· / 128 ^ bs.length) hval
        simp only [Nat.mul_comm _ (128 ^ bs.length), Nat.mul_add_div hpos, Nat.div_eq_of_lt hvas,
          Nat.div_eq_of_lt hvbs, Nat.add_zero] at h1
        exact h1
      have hbyte : a = b := by
        have := a.toNat_lt
        have := b.toNat_lt
        exact UInt8.toNat_inj.mp (by omega)
      rw [hbyte, ih hbs hlen' (by rw [hdigit] at hval; omega)]

/-- The shortest group of its number does not start with an empty digit. -/
def Minimal (bs : List UInt8) : Prop := Group bs ∧ bs.head? ≠ some 0x80

lemma Minimal.le_value {bs : List UInt8} (h : Minimal bs) (hlen : 2 ≤ bs.length) :
    128 ^ (bs.length - 1) ≤ value bs := by
  obtain ⟨hgroup, hhead⟩ := h
  cases hgroup with
  | last h => simp at hlen
  | @more b bs hb hbs =>
    have hlt := b.toNat_lt
    have hne : b.toNat ≠ 128 := fun h => hhead (by simp [← UInt8.toNat_inj, h])
    have hdigit : 1 ≤ b.toNat % 128 := by omega
    rw [value_cons, List.length_cons, Nat.add_sub_cancel]
    calc 128 ^ bs.length = 1 * 128 ^ bs.length := (one_mul _).symm
      _ ≤ b.toNat % 128 * 128 ^ bs.length := Nat.mul_le_mul_right _ hdigit
      _ ≤ _ := Nat.le_add_right _ _

end Base128
