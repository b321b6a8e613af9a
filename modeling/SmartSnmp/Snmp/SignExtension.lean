import SmartSnmp.Lib.CInt
import SmartSnmp.Snmp.Bounds

/-!
# The loops of the integer decoders

`ber_int_dec` and `ber_uint_dec` with their counters: the length has 32 bits, `size_t` has 64, and the
loop indices are of the type `int`. On content of fewer than `2 ^ 31` bytes they are the functions of
`Snmp.Decoder`.
-/

namespace SmartSnmp

open Bytes CInt

/-! ### Loops -/

/-- `sizeof(int) - len`. -/
def extensionCount (len : UInt32) : UInt64 := 4 - len.toUInt64

/-- `for (j = 0; j < count; j++) *value = (*value << 8) | 0xff;`: the number of rounds, and the value. -/
def signExtend (count : UInt64) : Nat → Int → UInt32 → Outcome (Int × UInt32)
  | 0, _, _ => .fuel
  | fuel + 1, j, value =>
    if j < count.toNat then
      match checked (j + 1) with
      | some next => signExtend count fuel next (value <<< 8 ||| 0xff)
      | none => .crash
    else .ok (j, value)

/-- `while (i < len) *value = (*value << 8) | buf[i++];` with the bytes that are left. -/
def shiftBytes : Int → UInt32 → List UInt8 → Option UInt32
  | _, value, [] => some value
  | i, value, b :: bs => do
    let next ← checked (i + 1)
    shiftBytes next (value <<< 8 ||| b.toUInt32) bs

/-- The first branch of `ber_int_dec`; `j` overflows before the fuel is used up. -/
def signRounds (buf : List UInt8) : Outcome (Int × UInt32) :=
  if highBit (buf.headD 0) then
    signExtend (extensionCount (UInt32.ofNat buf.length)) (2 ^ 31) 0 0
  else .ok (0, 0)

/-- The loop over the content, behind a leading zero. -/
def shiftContent (value : UInt32) (buf : List UInt8) : Option UInt32 :=
  if buf.headD 0 = 0 then shiftBytes 1 value buf.tail else shiftBytes 0 value buf

/-- `ber_int_dec` on non-empty content: the rounds of the sign extension, and the value. -/
def berIntDecRounds (buf : List UInt8) : Outcome (Int × Int32) :=
  match signRounds buf with
  | .ok (rounds, value) =>
    match shiftContent value buf with
    | some value => .ok (rounds, value.toInt32)
    | none => .crash
  | .crash => .crash
  | .fuel => .fuel

/-! ### What they compute -/

lemma toNat_extensionCount (len : UInt32) :
    (extensionCount len).toNat = if len.toNat ≤ 4 then 4 - len.toNat else 2 ^ 64 + 4 - len.toNat := by
  have hlen := len.toNat_lt
  rw [extensionCount, UInt64.toNat_sub, UInt32.toNat_toUInt64]
  simp only [UInt64.reduceToNat]
  split_ifs <;> omega

section Loops

variable {count : UInt64} {fuel k : Nat} {j i : Int} (value : UInt32)

lemma signExtend_eq (hj : 0 ≤ j) (hk : j + k = count.toNat) (hcount : count.toNat < 2 ^ 31)
    (hfuel : k < fuel) :
    signExtend count fuel j value = .ok (count.toNat, shiftIn value (List.replicate k 0xff)) := by
  obtain ⟨fuel, rfl⟩ := Nat.exists_eq_add_of_lt hfuel
  induction k generalizing j value with
  | zero =>
    rw [signExtend, if_neg (by omega), show j = count.toNat by omega]
    rfl
  | succ k ih =>
    rw [show k + 1 + fuel + 1 = (k + fuel + 1) + 1 by omega, signExtend, if_pos (by omega),
      checked_of_mem (by omega) (by omega)]
    exact ih _ (by omega) (by omega) (by omega)

/-- A counter that has to go past `INT_MAX` overflows. -/
lemma signExtend_crash (hj : 0 ≤ j) (hk : j + k = 2 ^ 31 - 1) (hcount : 2 ^ 31 ≤ count.toNat)
    (hfuel : k < fuel) : signExtend count fuel j value = .crash := by
  obtain ⟨fuel, rfl⟩ := Nat.exists_eq_add_of_lt hfuel
  induction k generalizing j value with
  | zero => rw [signExtend, if_pos (by omega), checked_of_le (by omega)]
  | succ k ih =>
    rw [show k + 1 + fuel + 1 = (k + fuel + 1) + 1 by omega, signExtend, if_pos (by omega),
      checked_of_mem (by omega) (by omega)]
    exact ih _ (by omega) (by omega) (by omega)

lemma shiftBytes_eq {bs : List UInt8} (hi : 0 ≤ i) (hlt : i < 2 ^ 31) :
    shiftBytes i value bs = if i + bs.length < 2 ^ 31 then some (shiftIn value bs) else none := by
  induction bs generalizing i value with
  | nil =>
    rw [if_pos (by simpa using hlt)]
    rfl
  | cons b bs ih =>
    rw [shiftBytes]
    by_cases hnext : i + 1 < 2 ^ 31
    · rw [checked_of_mem (by omega) hnext, Option.bind_eq_bind, Option.bind_some,
        ih _ (by omega) hnext, List.length_cons]
      congr 1
      rw [Nat.cast_add, Nat.cast_one, add_assoc, add_comm 1]
    · rw [checked_of_le (by omega), if_neg (by rw [List.length_cons]; omega)]
      rfl

lemma shiftContent_eq {buf : List UInt8} (hne : buf ≠ []) :
    shiftContent value buf =
      if buf.length < 2 ^ 31 then some (shiftIn value (if buf.headD 0 = 0 then buf.tail else buf))
      else none := by
  obtain ⟨b, bs, rfl⟩ := List.exists_cons_of_ne_nil hne
  rw [shiftContent]
  by_cases hb : (b :: bs).headD 0 = 0
  · rw [if_pos hb, if_pos hb, shiftBytes_eq value (by omega) (by omega), List.tail_cons, List.length_cons]
    congr 1
    rw [eq_iff_iff]
    omega
  · rw [if_neg hb, if_neg hb, shiftBytes_eq value (le_refl 0) (by omega)]
    congr 1
    rw [eq_iff_iff]
    omega

end Loops

lemma signRounds_of_negative {buf : List UInt8} (hlen : buf.length < 2 ^ 32)
    (hhigh : highBit (buf.headD 0) = true) :
    signRounds buf = if buf.length ≤ 4
      then .ok (4 - buf.length, shiftIn 0 (List.replicate (4 - buf.length) 0xff)) else .crash := by
  have hcount := toNat_extensionCount (UInt32.ofNat buf.length)
  rw [UInt32.toNat_ofNat_of_lt' hlen] at hcount
  rw [signRounds, if_pos hhigh]
  by_cases h4 : buf.length ≤ 4
  · rw [if_pos h4] at hcount
    rw [if_pos h4, signExtend_eq (k := 4 - buf.length) 0 (le_refl 0) (by omega) (by omega) (by omega),
      hcount, Nat.cast_sub h4]
    rfl
  · rw [if_neg h4] at hcount
    rw [if_neg h4, signExtend_crash (k := 2 ^ 31 - 1) 0 (le_refl 0) (by omega) (by omega) (by omega)]

/-- With the counters in range, `ber_int_dec` is the function without them. -/
lemma berIntDecRounds_eq {buf : List UInt8} (hne : buf ≠ []) (hlen : buf.length < 2 ^ 31) :
    berIntDecRounds buf = match berIntDec buf with
      | some value => .ok (if highBit (buf.headD 0) then 4 - (buf.length : Int) else 0, value)
      | none => .crash := by
  rw [berIntDecRounds, berIntDec]
  cases hhigh : highBit (buf.headD 0) with
  | true =>
    have hhead : buf.headD 0 ≠ 0 := by
      intro h0
      rw [h0] at hhigh
      exact absurd hhigh (by decide)
    rw [signRounds_of_negative (by omega) hhigh]
    by_cases h4 : buf.length ≤ 4
    · simp only [if_pos h4, if_true, shiftContent_eq _ hne, if_pos hlen, if_neg hhead]
    · simp only [if_neg h4, if_true]
  | false =>
    rw [signRounds, hhigh]
    simp only [Bool.false_eq_true, if_false, shiftContent_eq _ hne, if_pos hlen]

/-- Content of `2 ^ 31` bytes or more is not read to its end. -/
lemma berIntDecRounds_of_le {buf : List UInt8} (hle : 2 ^ 31 ≤ buf.length) (hlen : buf.length < 2 ^ 32) :
    berIntDecRounds buf = .crash := by
  have hne : buf ≠ [] := List.ne_nil_of_length_pos (by omega)
  rw [berIntDecRounds]
  cases hhigh : highBit (buf.headD 0) with
  | true => rw [signRounds_of_negative hlen hhigh, if_neg (by omega)]
  | false =>
    rw [signRounds, hhigh]
    simp only [Bool.false_eq_true, if_false, shiftContent_eq _ hne, if_neg (not_lt.mpr hle)]

/-! ### The sign extension -/

/-- The count of the sign extension does not wrap around, there are at most three rounds, and the result
is the number modulo `2 ^ 32`. -/
def SignExtended (buf : List UInt8) : Prop :=
  (negative buf = true →
      ((extensionCount (UInt32.ofNat buf.length)).toNat : Int) = 4 - (buf.length : Int)) ∧
    ∃ rounds value, berIntDecRounds buf = .ok (rounds, value) ∧ rounds ≤ 3 ∧
      value.toInt % 2 ^ 32 = beInt buf % 2 ^ 32

/-- The decoder returns exactly if the index can run over the content and a negative number has no more
bytes than an `int`. -/
lemma exists_berIntDecRounds_iff {buf : List UInt8} (hne : buf ≠ []) (hlen : buf.length < 2 ^ 32) :
    (∃ rounds value, berIntDecRounds buf = .ok (rounds, value)) ↔
      buf.length < 2 ^ 31 ∧ (negative buf = true → buf.length ≤ 4) := by
  constructor
  · rintro ⟨rounds, value, hrun⟩
    have hlt : buf.length < 2 ^ 31 := by
      by_contra hle
      rw [berIntDecRounds_of_le (not_lt.mp hle) hlen] at hrun
      cases hrun
    refine ⟨hlt, fun hneg => ?_⟩
    by_contra h4
    rw [berIntDecRounds_eq hne hlt, berIntDec_eq_none_iff.mpr ⟨not_le.mp h4, hneg⟩] at hrun
    cases hrun
  · rintro ⟨hlt, h4⟩
    have hsome : berIntDec buf ≠ none := fun hnone => by
      obtain ⟨hlong, hneg⟩ := berIntDec_eq_none_iff.mp hnone
      exact absurd (h4 hneg) (not_le.mpr hlong)
    obtain ⟨value, hdec⟩ := Option.ne_none_iff_exists'.mp hsome
    exact ⟨_, value, by rw [berIntDecRounds_eq hne hlt, hdec]⟩

theorem signExtended_iff {buf : List UInt8} (hne : buf ≠ []) (hlen : buf.length < 2 ^ 32) :
    SignExtended buf ↔ buf.length < 2 ^ 31 ∧ (negative buf = true → buf.length ≤ 4) := by
  have hpos := List.length_pos_of_ne_nil hne
  constructor
  · rintro ⟨-, rounds, value, hrun, -, -⟩
    exact (exists_berIntDecRounds_iff hne hlen).mp ⟨rounds, value, hrun⟩
  · intro hwithin
    have hcount := toNat_extensionCount (UInt32.ofNat buf.length)
    rw [UInt32.toNat_ofNat_of_lt' hlen] at hcount
    refine ⟨fun hneg => ?_, ?_⟩
    · rw [hcount, if_pos (hwithin.2 hneg), Nat.cast_sub (hwithin.2 hneg)]
      rfl
    · obtain ⟨rounds, value, hrun⟩ := (exists_berIntDecRounds_iff hne hlen).mpr hwithin
      refine ⟨rounds, value, hrun, ?_⟩
      rw [berIntDecRounds_eq hne hwithin.1] at hrun
      cases hdec : berIntDec buf with
      | none =>
        rw [hdec] at hrun
        cases hrun
      | some value' =>
        rw [hdec] at hrun
        obtain ⟨rfl, rfl⟩ : _ = rounds ∧ value' = value := by simpa using hrun
        refine ⟨by split_ifs <;> omega, ?_⟩
        rw [toInt_berIntDec hdec, intValue]
        exact Int.bmod_emod

theorem signExtended_iff_minusOne :
    SignExtended [0xff] ↔ ([0xff] : List UInt8).length < 2 ^ 31 ∧
      (negative [0xff] = true → ([0xff] : List UInt8).length ≤ 4) :=
  signExtended_iff (by decide) (by decide)

/-- A GET request with the number -1 in five bytes as its identifier. -/
def longRequestId : List UInt8 :=
  [0x30, 0x1c, 0x02, 0x01, 0x01, 0x04, 0x06, 0x70, 0x75, 0x62, 0x6c, 0x69, 0x63] ++
    [0xa0, 0x0f, 0x02, 0x05, 0xff, 0xff, 0xff, 0xff, 0xff, 0x02, 0x01, 0x00, 0x02, 0x01, 0x00] ++
    [0x30, 0x00]

/-- The count for five bytes wraps around, and a message that passes the checks brings it about. -/
theorem longRequestId_not_signExtended :
    extensionCount 5 = 0xffffffffffffffff ∧ ¬ SignExtended [0xff, 0xff, 0xff, 0xff, 0xff] ∧
      recvCheck longRequestId.length longRequestId = .ok (.ok ((), longRequestId.drop 2)) ∧
      snmpDecode longRequestId = .crash := by
  refine ⟨by decide, ?_, by decide, by decide⟩
  rintro ⟨hcount, -⟩
  exact absurd (hcount (by decide)) (by decide)

end SmartSnmp
