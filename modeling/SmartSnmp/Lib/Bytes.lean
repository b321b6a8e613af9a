import Mathlib.Algebra.Order.Ring.Nat
import Mathlib.Data.List.Induction
import Mathlib.Data.Nat.ModEq
import Mathlib.Tactic.Common
import Mathlib.Tactic.Linarith
import Mathlib.Tactic.Ring

/-!
# Numbers as bytes

Little-endian byte strings of a fixed width, as a word lies in memory, the value of a big-endian
byte string, unsigned and in two's complement, and the shifts that a decoder collects bytes with.
-/

namespace Bytes

/-- The `n` low bytes of `v`, the lowest first. -/
def leBytes : Nat → Nat → List UInt8
  | 0, _ => []
  | n + 1, v => UInt8.ofNat v :: leBytes n (v / 256)

/-- The number a byte string spells with its lowest byte first. -/
def leNat : List UInt8 → Nat
  | [] => 0
  | b :: bs => b.toNat + 256 * leNat bs

/-- The number a byte string spells with its highest byte first. -/
def beNat (bs : List UInt8) : Nat := bs.foldl (fun acc b => acc * 256 + b.toNat) 0

@[simp] lemma length_leBytes (n v : Nat) : (leBytes n v).length = n := by
  induction n generalizing v with
  | zero => rfl
  | succ n ih => simp [leBytes, ih]

lemma length_flatMap_word {α : Type} (f : α → List UInt8) (hf : ∀ x, (f x).length = 4)
    (xs : List α) : (xs.flatMap f).length = 4 * xs.length := by
  induction xs with
  | nil => rfl
  | cons x xs ih =>
    rw [List.flatMap_cons, List.length_append, hf, ih, List.length_cons]
    omega

lemma leNat_leBytes (n v : Nat) : leNat (leBytes n v) = v % 256 ^ n := by
  induction n generalizing v with
  | zero => simp [leBytes, leNat, Nat.mod_one]
  | succ n ih =>
    have h : (UInt8.ofNat v).toNat = v % 256 := by simp
    rw [leBytes, leNat, ih, h, Nat.pow_succ', Nat.mod_mul]

@[simp] lemma beNat_nil : beNat [] = 0 := rfl

lemma beNat_append (as bs : List UInt8) : beNat (as ++ bs) = beNat as * 256 ^ bs.length + beNat bs := by
  induction bs using List.reverseRecOn with
  | nil => simp
  | append_singleton bs b ih =>
    have h : ∀ cs : List UInt8, beNat (cs ++ [b]) = beNat cs * 256 + b.toNat := by simp [beNat]
    rw [← List.append_assoc, h, h, ih]
    simp only [List.length_append, List.length_singleton, Nat.pow_succ]
    ring

lemma beNat_cons (b : UInt8) (bs : List UInt8) :
    beNat (b :: bs) = b.toNat * 256 ^ bs.length + beNat bs := by
  have h := beNat_append [b] bs
  simpa [beNat] using h

lemma beNat_lt (bs : List UInt8) : beNat bs < 256 ^ bs.length := by
  induction bs with
  | nil => simp
  | cons b bs ih =>
    rw [beNat_cons, List.length_cons, Nat.pow_succ]
    have := b.toNat_lt
    nlinarith

lemma beNat_replicate_zero_append (n : Nat) (bs : List UInt8) :
    beNat (List.replicate n 0 ++ bs) = beNat bs := by
  induction n with
  | zero => simp
  | succ n ih => rw [List.replicate_succ, List.cons_append, beNat_cons, ih]; simp

/-- The high byte first is the low byte last. -/
lemma beNat_reverse (bs : List UInt8) : beNat bs.reverse = leNat bs := by
  induction bs with
  | nil => rfl
  | cons b bs ih =>
    rw [List.reverse_cons, beNat_append, ih]
    simp [beNat, leNat]
    ring

/-! ### Byte order -/

lemma leNat_lt (bs : List UInt8) : leNat bs < 256 ^ bs.length := by
  rw [← beNat_reverse, ← List.length_reverse]
  exact beNat_lt bs.reverse

lemma leBytes_leNat (bs : List UInt8) : leBytes bs.length (leNat bs) = bs := by
  induction bs with
  | nil => rfl
  | cons b bs ih =>
    have hb := b.toNat_lt
    have hdiv : (b.toNat + 256 * leNat bs) / 256 = leNat bs := by omega
    have hbyte : UInt8.ofNat (b.toNat + 256 * leNat bs) = b := by
      apply UInt8.toNat_inj.mp
      simp only [UInt8.toNat_ofNat']
      omega
    rw [leNat, List.length_cons, leBytes, hdiv, ih, hbyte]

/-- The `n` low bytes of `v`, the highest first. -/
def beBytes (n v : Nat) : List UInt8 := (leBytes n v).reverse

@[simp] lemma length_beBytes (n v : Nat) : (beBytes n v).length = n := by simp [beBytes]

/-- The number with the `n` low bytes of `v` in reverse order. -/
def swap (n v : Nat) : Nat := leNat (beBytes n v)

lemma swap_lt (n v : Nat) : swap n v < 256 ^ n := by
  have h := leNat_lt (beBytes n v)
  rwa [length_beBytes] at h

lemma leBytes_swap (n v : Nat) : leBytes n (swap n v) = beBytes n v := by
  have h := leBytes_leNat (beBytes n v)
  rwa [length_beBytes] at h

lemma swap_swap {n v : Nat} (h : v < 256 ^ n) : swap n (swap n v) = v := by
  rw [swap, beBytes, leBytes_swap, beBytes, List.reverse_reverse, leNat_leBytes, Nat.mod_eq_of_lt h]

/-! ### Two's complement -/

/-- The sign bit of the first byte. -/
def negative : List UInt8 → Bool
  | [] => false
  | b :: _ => 128 ≤ b.toNat

/-- The number a byte string spells in two's complement, the highest byte first. -/
def beInt (bs : List UInt8) : Int :=
  if negative bs then (beNat bs : Int) - 256 ^ bs.length else beNat bs

lemma beInt_of_not_negative {bs : List UInt8} (h : negative bs = false) : beInt bs = beNat bs := by
  simp [beInt, h]

lemma beInt_of_negative {bs : List UInt8} (h : negative bs = true) :
    beInt bs = (beNat bs : Int) - 256 ^ bs.length := by
  simp [beInt, h]

lemma negative_iff (bs : List UInt8) : negative bs = true ↔ 256 ^ bs.length ≤ 2 * beNat bs := by
  cases bs with
  | nil => simp [negative]
  | cons b bs =>
    have hlt := beNat_lt bs
    simp only [negative, decide_eq_true_eq, beNat_cons, List.length_cons, Nat.pow_succ]
    constructor
    · intro h
      nlinarith
    · intro h
      by_contra hb
      have : b.toNat + 1 ≤ 128 := by omega
      nlinarith

/-- The sign is that of the number. -/
lemma beInt_neg_iff (bs : List UInt8) : beInt bs < 0 ↔ negative bs = true := by
  have hlt := beNat_lt bs
  cases h : negative bs with
  | false => simp [beInt_of_not_negative h]
  | true =>
    rw [beInt_of_negative h]
    have : (beNat bs : Int) < 256 ^ bs.length := by exact_mod_cast hlt
    simp only [iff_true]
    omega

/-- A two's complement number is given by its residue. -/
lemma beInt_emod (bs : List UInt8) : beInt bs % 256 ^ bs.length = beNat bs := by
  have hlt : (beNat bs : Int) < 256 ^ bs.length := by exact_mod_cast beNat_lt bs
  cases h : negative bs with
  | false =>
    rw [beInt_of_not_negative h]
    exact Int.emod_eq_of_lt (by positivity) hlt
  | true =>
    rw [beInt_of_negative h, Int.sub_emod_right]
    exact Int.emod_eq_of_lt (by positivity) hlt

/-- What `n` bytes can spell. -/
lemma beInt_range (bs : List UInt8) :
    -(256 ^ bs.length : Int) ≤ 2 * beInt bs ∧ 2 * beInt bs < 256 ^ bs.length := by
  have hlt : (beNat bs : Int) < 256 ^ bs.length := by exact_mod_cast beNat_lt bs
  have hneg := negative_iff bs
  cases h : negative bs with
  | false =>
    have h2 : 2 * beNat bs < 256 ^ bs.length := not_le.mp (by simpa [h] using hneg)
    have h3 : 2 * (beNat bs : Int) < 256 ^ bs.length := by exact_mod_cast h2
    rw [beInt_of_not_negative h]
    constructor <;> omega
  | true =>
    have h2 : 256 ^ bs.length ≤ 2 * beNat bs := hneg.mp h
    have h3 : (256 ^ bs.length : Int) ≤ 2 * beNat bs := by exact_mod_cast h2
    rw [beInt_of_negative h]
    constructor <;> omega

/-- A byte of sign bits in front of a negative number does not change it. -/
lemma beInt_replicate_append (n : Nat) {bs : List UInt8} (h : negative bs = true) :
    negative (List.replicate n 0xff ++ bs) = true ∧
      beInt (List.replicate n 0xff ++ bs) = beInt bs := by
  induction n with
  | zero => exact ⟨h, rfl⟩
  | succ n ih =>
    have hneg : negative (List.replicate (n + 1) 0xff ++ bs) = true := by
      simp [List.replicate_succ, negative]
    refine ⟨hneg, ?_⟩
    rw [← ih.2, beInt_of_negative hneg, beInt_of_negative ih.1, List.replicate_succ,
      List.cons_append, beNat_cons, List.length_cons, pow_succ]
    push_cast
    ring

/-- More bytes behind a number. -/
lemma beInt_append {as : List UInt8} (h : as ≠ []) (bs : List UInt8) :
    beInt (as ++ bs) = beInt as * 256 ^ bs.length + beNat bs := by
  obtain ⟨a, as, rfl⟩ := List.exists_cons_of_ne_nil h
  have hsign : negative (a :: as ++ bs) = negative (a :: as) := rfl
  rw [beInt, beInt, hsign, beNat_append, List.length_append, pow_add]
  split_ifs
  · push_cast
    ring
  · push_cast
    ring

/-- Bytes of which the first one is no sign extension change the number in front of them. -/
lemma beInt_append_ne {as : List UInt8} (h : as ≠ []) {b : UInt8} (h0 : b ≠ 0) (hff : b ≠ 0xff)
    (bs : List UInt8) : beInt (as ++ b :: bs) ≠ beInt as := by
  intro heq
  rw [beInt_append h, beNat_cons, List.length_cons, pow_succ] at heq
  have hpos : (0 : Int) < 256 ^ bs.length := by positivity
  have hlt : (beNat bs : Int) < 256 ^ bs.length := by exact_mod_cast beNat_lt bs
  have hb0 : 1 ≤ b.toNat := Nat.one_le_iff_ne_zero.mpr fun hb => h0 (UInt8.toNat_inj.mp hb)
  have hbff : b.toNat ≤ 254 := by
    have hle := b.toNat_lt
    have hne : b.toNat ≠ 255 := fun hb => hff (UInt8.toNat_inj.mp hb)
    omega
  push_cast at heq
  have hb0' : (1 : Int) ≤ b.toNat := by exact_mod_cast hb0
  have hbff' : (b.toNat : Int) ≤ 254 := by exact_mod_cast hbff
  -- the number would have to be its own multiple
  rcases lt_trichotomy (beInt as) (-1) with hlow | hone | hhigh
  · nlinarith
  · rw [hone] at heq
    nlinarith
  · nlinarith

lemma beNat_injective {as bs : List UInt8} (hlen : as.length = bs.length)
    (h : beNat as = beNat bs) : as = bs := by
  have hle : ∀ cs : List UInt8, leBytes cs.length (beNat cs) = cs.reverse := by
    intro cs
    rw [← List.length_reverse, ← leBytes_leNat cs.reverse, ← beNat_reverse, List.reverse_reverse,
      length_leBytes]
  exact List.reverse_inj.mp (by rw [← hle as, ← hle bs, hlen, h])

/-- No shorter string spells the same number. -/
def Shortest (bs : List UInt8) : Prop :=
  bs ≠ [] ∧ ∀ cs, cs ≠ [] → beInt cs = beInt bs → bs.length ≤ cs.length

lemma Shortest.eq {as bs : List UInt8} (ha : Shortest as) (hb : Shortest bs)
    (h : beInt as = beInt bs) : as = bs := by
  have hlen : as.length = bs.length := le_antisymm (ha.2 bs hb.1 h.symm) (hb.2 as ha.1 h)
  apply beNat_injective hlen
  have hmod := congrArg (· % (256 : Int) ^ bs.length) h
  rw [← hlen] at hmod
  simp only [beInt_emod] at hmod
  rw [hlen, beInt_emod] at hmod
  exact_mod_cast hmod

lemma shortest_singleton (b : UInt8) : Shortest [b] :=
  ⟨List.cons_ne_nil b [], fun _ hcs _ => List.length_pos_iff.mpr hcs⟩

/-- A first byte that does more than repeat the sign of the rest takes the number out of the range of
the rest. -/
lemma beInt_cons_out_of_range {b : UInt8} {bs : List UInt8} (h0 : b = 0 → negative bs = true)
    (h1 : b = 0xff → negative bs = false) :
    2 * beInt (b :: bs) < -(256 ^ bs.length : Int) ∨
      (256 ^ bs.length : Int) ≤ 2 * beInt (b :: bs) := by
  have hpos : 0 < 256 ^ bs.length := by positivity
  have hlt := beNat_lt bs
  have hsign := negative_iff bs
  have hcons := beNat_cons b bs
  cases hneg : negative (b :: bs) with
  | false =>
    right
    rw [beInt_of_not_negative hneg]
    have hbig : 256 ^ bs.length ≤ 2 * beNat (b :: bs) := by
      by_cases hb : b = 0
      · rw [hcons]
        exact (hsign.mp (h0 hb)).trans (Nat.mul_le_mul_left 2 (Nat.le_add_left _ _))
      · have hone : 1 ≤ b.toNat := Nat.one_le_iff_ne_zero.mpr fun h =>
          hb (UInt8.toNat_inj.mp (by simpa using h))
        have := Nat.mul_le_mul_right (256 ^ bs.length) hone
        omega
    exact_mod_cast hbig
  | true =>
    left
    rw [beInt_of_negative hneg, List.length_cons]
    have hsmall : 2 * beNat (b :: bs) + 256 ^ bs.length < 2 * 256 ^ (bs.length + 1) := by
      rw [hcons, pow_succ]
      by_cases hb : b = 0xff
      · have hrest : 2 * beNat bs < 256 ^ bs.length :=
          not_le.mp fun h => by simpa [h1 hb] using hsign.mpr h
        rw [hb]
        simp only [UInt8.reduceToNat]
        omega
      · have hle : b.toNat ≤ 254 := by
          have := b.toNat_lt
          have hne : b.toNat ≠ 255 := fun h => hb (UInt8.toNat_inj.mp (by simpa using h))
          omega
        have := Nat.mul_le_mul_right (256 ^ bs.length) hle
        omega
    have : (2 * beNat (b :: bs) : Int) + 256 ^ bs.length < 2 * 256 ^ (bs.length + 1) := by
      exact_mod_cast hsmall
    omega

/-- A string is shortest if its first byte does more than repeat the sign of the rest. -/
lemma shortest_cons {b : UInt8} {bs : List UInt8} (h0 : b = 0 → negative bs = true)
    (h1 : b = 0xff → negative bs = false) : Shortest (b :: bs) := by
  refine ⟨List.cons_ne_nil b bs, ?_⟩
  intro cs _ heq
  by_contra hshort
  rw [List.length_cons, not_le, Nat.lt_succ_iff] at hshort
  have hpow : (256 : Int) ^ cs.length ≤ 256 ^ bs.length := pow_le_pow_right₀ (by norm_num) hshort
  obtain ⟨hlow, hhigh⟩ := beInt_range cs
  rw [heq] at hlow hhigh
  rcases beInt_cons_out_of_range h0 h1 with h | h
  · omega
  · omega

/-! ### Shifting bits into a word -/

lemma toNat_shiftLeft_or (v c : UInt32) (k : Nat) (hk : k < 32) (hc : c.toNat < 2 ^ k) :
    (v <<< UInt32.ofNat k ||| c).toNat = (v.toNat * 2 ^ k + c.toNat) % 2 ^ 32 := by
  have hk' : (UInt32.ofNat k).toNat % 32 = k := by
    simp
    omega
  have h := Nat.or_mod_two_pow (a := v.toNat <<< k) (b := c.toNat) (n := 32)
  rw [Nat.mod_eq_of_lt c.toNat_lt] at h
  rw [UInt32.toNat_or, UInt32.toNat_shiftLeft, hk', ← h, ← Nat.shiftLeft_add_eq_or_of_lt hc,
    Nat.shiftLeft_eq]

/-- Shift bytes into a word. -/
def shiftIn (acc : UInt32) (bs : List UInt8) : UInt32 :=
  bs.foldl (fun v b => v <<< 8 ||| b.toUInt32) acc

lemma toNat_shiftIn (acc : UInt32) (bs : List UInt8) :
    (shiftIn acc bs).toNat = (acc.toNat * 256 ^ bs.length + beNat bs) % 2 ^ 32 := by
  induction bs generalizing acc with
  | nil => simp [shiftIn]
  | cons b bs ih =>
    have h : (acc <<< 8 ||| b.toUInt32).toNat = (acc.toNat * 256 + b.toNat) % 2 ^ 32 := by
      simpa using toNat_shiftLeft_or acc b.toUInt32 8 (by omega) (by simpa using b.toNat_lt)
    calc (shiftIn acc (b :: bs)).toNat
        = ((acc.toNat * 256 + b.toNat) % 2 ^ 32 * 256 ^ bs.length + beNat bs) % 2 ^ 32 := by
          rw [shiftIn, List.foldl_cons, ← shiftIn, ih, h]
      _ = ((acc.toNat * 256 + b.toNat) * 256 ^ bs.length + beNat bs) % 2 ^ 32 :=
          ((Nat.mod_modEq _ _).mul_right _).add_right _
      _ = (acc.toNat * 256 ^ (b :: bs).length + beNat (b :: bs)) % 2 ^ 32 := by
          rw [beNat_cons, List.length_cons, Nat.pow_succ]
          ring_nf

end Bytes
