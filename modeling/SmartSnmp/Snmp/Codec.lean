import SmartSnmp.Lib.Base128
import SmartSnmp.Snmp.Decoder

/-!
# Round trips of the BER codec

What an encoder writes, in terms of the value of the bytes, and that a decoder reads it back.
-/

namespace SmartSnmp

open Bytes

lemma highBit_iff (b : UInt8) : highBit b = true ↔ 128 ≤ b.toNat := by
  have h : ∀ n : Fin 256, highBit (UInt8.ofNat n.val) = true ↔ 128 ≤ n.val := by
    decide +kernel
  have := h ⟨b.toNat, b.toNat_lt⟩
  simpa using this

lemma highBit_eq_negative (b : UInt8) (bs : List UInt8) : highBit b = negative (b :: bs) := by
  rw [Bool.eq_iff_iff, highBit_iff]
  simp [negative]

/-! ### Trimming a word -/

@[simp] lemma length_wordBytes (w : UInt32) : (wordBytes w).length = 4 := length_leBytes 4 _

lemma leNat_wordBytes (w : UInt32) : leNat (wordBytes w) = w.toNat := by
  rw [wordBytes, leNat_leBytes]
  exact Nat.mod_eq_of_lt w.toNat_lt

lemma wordAt_wordBytes (w : UInt32) (rest : List UInt8) : wordAt (wordBytes w ++ rest) = w := by
  rw [wordAt, List.take_left' (length_wordBytes w), leNat_wordBytes, UInt32.ofNat_toNat]

lemma trimIndex_le (pad : UInt8) (buf : List UInt8) (i : Nat) : trimIndex pad buf i ≤ i := by
  induction i with
  | zero => simp [trimIndex]
  | succ i ih =>
    rw [trimIndex]
    split_ifs
    · omega
    · exact le_rfl

/-- Trimming ends at a byte that is not padding, or at the lowest. -/
lemma getD_trimIndex_ne {pad : UInt8} {buf : List UInt8} {i : Nat} (h : trimIndex pad buf i ≠ 0) :
    buf.getD (trimIndex pad buf i) 0 ≠ pad := by
  induction i with
  | zero => simp [trimIndex] at h
  | succ i ih =>
    rw [trimIndex] at h ⊢
    split_ifs at h ⊢ with hpad
    · exact ih h
    · exact hpad

lemma length_bytesDown {buf : List UInt8} {i : Nat} (h : i < buf.length) :
    (bytesDown buf i).length = i + 1 := by
  simp only [bytesDown, List.length_reverse, List.length_take]
  omega

lemma bytesDown_eq_cons {buf : List UInt8} {i : Nat} (h : i < buf.length) :
    bytesDown buf i = buf.getD i 0 :: (buf.take i).reverse := by
  rw [bytesDown, List.take_succ_eq_append_getElem h, List.reverse_append]
  simp [h]

/-- What is trimmed is the padding. -/
lemma bytesDown_trimIndex (pad : UInt8) {buf : List UInt8} {i : Nat} (h : i < buf.length) :
    bytesDown buf i =
      List.replicate (i - trimIndex pad buf i) pad ++ bytesDown buf (trimIndex pad buf i) := by
  induction i with
  | zero => simp [trimIndex]
  | succ i ih =>
    have hle := trimIndex_le pad buf i
    rw [trimIndex]
    split_ifs with hpad
    · rw [bytesDown_eq_cons h, hpad, Nat.succ_sub hle, List.replicate_succ, List.cons_append,
        ← ih (by omega)]
      rfl
    · simp

lemma beNat_bytesDown_wordBytes (w : UInt32) : beNat (bytesDown (wordBytes w) 3) = w.toNat := by
  have h : (wordBytes w).take (3 + 1) = wordBytes w := List.take_of_length_le (by simp)
  rw [bytesDown, h, beNat_reverse, leNat_wordBytes]

/-! ### Integers -/

/-- The value of a word given by four or fewer bytes of two's complement. -/
lemma toInt_eq_beInt {w : UInt32} {bs : List UInt8} (hlen : bs.length = 4)
    (hw : w.toNat = beNat bs) : w.toInt32.toInt = beInt bs := by
  have hneg := negative_iff bs
  rw [hlen] at hneg
  rw [toInt_toInt32, hw, beInt, hlen]
  split_ifs with h1 h2 h2
  · have := hneg.mp h2
    omega
  · rfl
  · norm_num
  · exact absurd (hneg.mpr (by omega)) h2

lemma toInt_eq_beInt_bytesDown (value : Int32) :
    value.toInt = beInt (bytesDown (wordBytes value.toUInt32) 3) :=
  toInt_eq_beInt (length_bytesDown (by simp)) (beNat_bytesDown_wordBytes _).symm

lemma nonneg_iff_toInt (value : Int32) : 0 ≤ value ↔ 0 ≤ value.toInt := by
  rw [Int32.le_iff_toInt_le]
  simp

/-- The shape of what `ber_int_enc` writes: a word whose high bytes repeat its sign is cut down,
and a byte of the sign is put back where the rest has the other sign. -/
lemma berIntEnc_shape (value : Int32) : ∃ (k j : Nat) (pad : UInt8),
    k + j = 3 ∧ (pad = 0 ∧ 0 ≤ value ∨ pad = 0xff ∧ ¬ 0 ≤ value) ∧
    bytesDown (wordBytes value.toUInt32) 3 =
      List.replicate k pad ++ bytesDown (wordBytes value.toUInt32) j ∧
    (j ≠ 0 → (wordBytes value.toUInt32).getD j 0 ≠ pad) ∧
    berIntEncTry value = (berIntEnc value).length ∧
    berIntEnc value =
      (if negative (bytesDown (wordBytes value.toUInt32) j) = decide (0 ≤ value) then [pad] else [])
        ++ bytesDown (wordBytes value.toUInt32) j := by
  have hhigh : ∀ j < 4, highBit ((wordBytes value.toUInt32).getD j 0) =
      negative (bytesDown (wordBytes value.toUInt32) j) := by
    intro j hj
    rw [bytesDown_eq_cons (by simpa using hj)]
    exact highBit_eq_negative _ _
  have hlen : ∀ j < 4, (bytesDown (wordBytes value.toUInt32) j).length = j + 1 :=
    fun j hj => length_bytesDown (by simpa using hj)
  by_cases hv : 0 ≤ value
  · have hle := trimIndex_le 0 (wordBytes value.toUInt32) 3
    refine ⟨_, trimIndex 0 (wordBytes value.toUInt32) 3, 0, Nat.sub_add_cancel hle,
      .inl ⟨rfl, hv⟩, bytesDown_trimIndex 0 (by simp), getD_trimIndex_ne, ?_, ?_⟩
    · simp only [berIntEncTry, berIntEnc, if_pos hv, List.length_append,
        hlen _ (Nat.lt_succ_of_le hle)]
      split_ifs <;> rfl
    · simp only [berIntEnc, if_pos hv, hhigh _ (Nat.lt_succ_of_le hle)]
      simp [hv]
  · have hle := trimIndex_le 0xff (wordBytes value.toUInt32) 3
    refine ⟨_, trimIndex 0xff (wordBytes value.toUInt32) 3, 0xff, Nat.sub_add_cancel hle,
      .inr ⟨rfl, hv⟩, bytesDown_trimIndex 0xff (by simp), getD_trimIndex_ne, ?_, ?_⟩
    · simp only [berIntEncTry, berIntEnc, if_neg hv, List.length_append,
        hlen _ (Nat.lt_succ_of_le hle)]
      split_ifs <;> rfl
    · simp only [berIntEnc, if_neg hv, hhigh _ (Nat.lt_succ_of_le hle)]
      cases negative (bytesDown (wordBytes value.toUInt32)
        (trimIndex 0xff (wordBytes value.toUInt32) 3)) <;> simp [hv]

lemma length_berIntEnc_eq_try (value : Int32) : (berIntEnc value).length = berIntEncTry value := by
  obtain ⟨_, _, _, _, _, _, _, h, _⟩ := berIntEnc_shape value
  exact h.symm

/-- `ber_int_enc` writes one to four bytes that denote the value. -/
lemma berIntEnc_spec (value : Int32) : 1 ≤ (berIntEnc value).length ∧
    (berIntEnc value).length ≤ 4 ∧ beInt (berIntEnc value) = value.toInt := by
  obtain ⟨k, j, pad, hkj, hpad, hfull, _, _, henc⟩ := berIntEnc_shape value
  have hlen : (bytesDown (wordBytes value.toUInt32) j).length = j + 1 :=
    length_bytesDown (by simp; omega)
  have hval := toInt_eq_beInt_bytesDown value
  have hsign := beInt_neg_iff (bytesDown (wordBytes value.toUInt32) 3)
  rw [← hval] at hsign
  rw [hfull] at hval hsign
  set bs := bytesDown (wordBytes value.toUInt32) j
  rcases hpad with ⟨rfl, hv⟩ | ⟨rfl, hv⟩
  · have hpos : ¬ value.toInt < 0 := not_lt.mpr ((nonneg_iff_toInt value).mp hv)
    have hnot : negative (List.replicate k 0 ++ bs) = false := by
      simpa [hpos] using hsign
    rw [beInt_of_not_negative hnot, beNat_replicate_zero_append] at hval
    cases hneg : negative bs with
    | false =>
      rw [henc, hneg, if_neg (by simp [hv]), List.nil_append]
      exact ⟨by omega, by omega, by rw [beInt_of_not_negative hneg, hval]⟩
    | true =>
      have hk : k ≠ 0 := by
        rintro rfl
        simp [hneg] at hnot
      have h0 : negative (0 :: bs) = false := by simp [negative]
      rw [henc, hneg, if_pos (by simp [hv])]
      refine ⟨by simp, by simp; omega, ?_⟩
      rw [List.singleton_append, beInt_of_not_negative h0, beNat_cons, hval]
      simp
  · have hneg' : value.toInt < 0 := not_le.mp fun h => hv ((nonneg_iff_toInt value).mpr h)
    have hsgn : negative (List.replicate k 0xff ++ bs) = true := hsign.mp hneg'
    cases hneg : negative bs with
    | true =>
      rw [henc, hneg, if_neg (by simp [hv]), List.nil_append]
      exact ⟨by omega, by omega, by rw [hval, (beInt_replicate_append k hneg).2]⟩
    | false =>
      obtain ⟨k, rfl⟩ : ∃ k', k = k' + 1 := by
        apply Nat.exists_eq_succ_of_ne_zero
        rintro rfl
        simp [hneg] at hsgn
      have h1 : negative (0xff :: bs) = true := by simp [negative]
      have happ : List.replicate (k + 1) (0xff : UInt8) ++ bs = List.replicate k 0xff ++ 0xff :: bs := by
        rw [List.replicate_succ']
        simp
      rw [henc, hneg, if_pos (by simp [hv])]
      refine ⟨by simp, by simp; omega, ?_⟩
      rw [List.singleton_append, hval, happ, (beInt_replicate_append k h1).2]

/-- What is left after trimming the bytes of its sign is shortest. -/
lemma shortest_bytesDown {buf : List UInt8} {j : Nat} {pad : UInt8} (hj : j < buf.length)
    (hne : j ≠ 0 → buf.getD j 0 ≠ pad)
    (hpad : pad = 0 ∧ negative (bytesDown buf j) = false ∨
      pad = 0xff ∧ negative (bytesDown buf j) = true) : Shortest (bytesDown buf j) := by
  rw [bytesDown_eq_cons hj] at hpad ⊢
  by_cases hzero : j = 0
  · rw [hzero, List.take_zero]
    exact shortest_singleton _
  · have htop := hne hzero
    rcases hpad with ⟨rfl, hneg⟩ | ⟨rfl, hneg⟩
    · apply shortest_cons (fun h => absurd h htop)
      intro h
      rw [h] at hneg
      simp [negative] at hneg
    · refine shortest_cons (fun h => ?_) fun h => absurd h htop
      rw [h] at hneg
      simp [negative] at hneg

/-- `ber_int_enc` writes as few bytes as the value can be spelled with. -/
lemma shortest_berIntEnc (value : Int32) : Shortest (berIntEnc value) := by
  obtain ⟨k, j, pad, hkj, hpad, _, hne, _, henc⟩ := berIntEnc_shape value
  have hj : j < (wordBytes value.toUInt32).length := by
    rw [length_wordBytes]
    omega
  rw [henc]
  rcases hpad with ⟨rfl, hv⟩ | ⟨rfl, hv⟩
  · cases hneg : negative (bytesDown (wordBytes value.toUInt32) j) with
    | false =>
      rw [if_neg (by simp [hv]), List.nil_append]
      exact shortest_bytesDown hj hne (.inl ⟨rfl, hneg⟩)
    | true =>
      rw [if_pos (by simp [hv]), List.singleton_append]
      exact shortest_cons (fun _ => hneg) fun h => absurd h (by decide)
  · cases hneg : negative (bytesDown (wordBytes value.toUInt32) j) with
    | false =>
      rw [if_pos (by simp [hv]), List.singleton_append]
      exact shortest_cons (fun h => absurd h (by decide)) fun _ => hneg
    | true =>
      rw [if_neg (by simp [hv]), List.nil_append]
      exact shortest_bytesDown hj hne (.inr ⟨rfl, hneg⟩)

lemma toNat_shiftIn_zero {bs : List UInt8} (hlen : bs.length ≤ 4) :
    (shiftIn 0 bs).toNat = beNat bs := by
  have hlt : beNat bs < 2 ^ 32 := by
    calc beNat bs < 256 ^ bs.length := beNat_lt bs
      _ ≤ 256 ^ 4 := Nat.pow_le_pow_right (by omega) hlen
      _ = 2 ^ 32 := by norm_num
  rw [toNat_shiftIn]
  simpa using hlt

/-- `ber_int_dec` on one to four bytes gives their value. -/
lemma berIntDec_eq {bs : List UInt8} (hne : bs ≠ []) (hlen : bs.length ≤ 4) :
    ∃ v, berIntDec bs = some v ∧ v.toInt = beInt bs := by
  obtain ⟨b, bs, rfl⟩ := List.exists_cons_of_ne_nil hne
  have hlt := beNat_lt (b :: bs)
  cases hb : highBit b with
  | true =>
    have hneg : negative (b :: bs) = true := by rw [← highBit_eq_negative, hb]
    refine ⟨_, by simp only [berIntDec, List.headD_cons, hb, if_true, if_pos hlen]; rfl, ?_⟩
    rw [← (beInt_replicate_append (4 - (b :: bs).length) hneg).2]
    have hshift : shiftIn (shiftIn 0 (List.replicate (4 - (b :: bs).length) 0xff)) (b :: bs) =
        shiftIn 0 (List.replicate (4 - (b :: bs).length) 0xff ++ b :: bs) := by
      simp [shiftIn]
    have hfour : (List.replicate (4 - (b :: bs).length) (0xff : UInt8) ++ b :: bs).length = 4 := by
      simp at hlen ⊢
      omega
    rw [hshift]
    exact toInt_eq_beInt hfour (toNat_shiftIn_zero hfour.le)
  | false =>
    have hneg : negative (b :: bs) = false := by rw [← highBit_eq_negative, hb]
    have hnat : (shiftIn 0 (if b = 0 then bs else b :: bs)).toNat = beNat (b :: bs) := by
      split_ifs with h0
      · rw [toNat_shiftIn_zero (by simp at hlen; omega), beNat_cons, h0]
        simp
      · exact toNat_shiftIn_zero hlen
    have hsmall : beNat (b :: bs) < 2 ^ 31 := by
      have h1 := (negative_iff (b :: bs)).not.mp (by simp [hneg])
      have h2 : 256 ^ (b :: bs).length ≤ 256 ^ 4 := Nat.pow_le_pow_right (by omega) hlen
      omega
    refine ⟨(shiftIn 0 (if b = 0 then bs else b :: bs)).toInt32, by simp [berIntDec, hb], ?_⟩
    rw [toInt_toInt32, hnat, if_pos hsmall, beInt_of_not_negative hneg]

/-- Decoding what was encoded. -/
lemma berIntDec_berIntEnc (value : Int32) : berIntDec (berIntEnc value) = some value := by
  obtain ⟨h1, h4, hval⟩ := berIntEnc_spec value
  obtain ⟨v, hdec, hv⟩ := berIntDec_eq (List.ne_nil_of_length_pos h1) h4
  rw [hdec, Int32.toInt_inj.mp (hv.trans hval)]

/-! ### Lengths -/

/-- The octets of a length: one byte, or their number with the high bit set and then the length in
any number of bytes. -/
def IsLength (n : Nat) (octets : List UInt8) : Prop :=
  (n < 128 ∧ octets = [UInt8.ofNat n]) ∨
    ∃ digits, digits ≠ [] ∧ digits.length < 127 ∧ beNat digits = n ∧
      octets = UInt8.ofNat (128 + digits.length) :: digits

lemma and_0x7f (n : Nat) (h : n < 128) : (UInt8.ofNat (128 + n) &&& 0x7f).toNat = n := by
  have : ∀ m : Fin 128, (UInt8.ofNat (128 + m.val) &&& 0x7f).toNat = m.val := by decide +kernel
  exact this ⟨n, h⟩

/-- `ber_length_dec` reads every form of a length. -/
lemma parses_berLengthDec {ε : Type} {n : Nat} {octets : List UInt8} (h : IsLength n octets)
    (hn : n < 2 ^ 32) : Reader.Parses (berLengthDec (ε := ε)) octets (octets.length, n) := by
  rcases h with ⟨hsmall, rfl⟩ | ⟨digits, _, hlen, hval, rfl⟩
  · have hlow : highBit (UInt8.ofNat n) = false := by
      rw [Bool.eq_false_iff, Ne, highBit_iff]
      simp
      omega
    intro rest
    simp only [berLengthDec, List.singleton_append, Reader.bind_apply, Reader.byte_cons, hlow]
    simp
    omega
  · have hhigh : highBit (UInt8.ofNat (128 + digits.length)) = true := by
      rw [highBit_iff]
      simp
      omega
    have hcount := and_0x7f digits.length (by omega)
    intro rest
    simp only [berLengthDec, List.cons_append, Reader.bind_apply, Reader.byte_cons, hhigh,
      if_true, hcount, Reader.bytes_append rfl rest, Reader.pure_apply, toNat_shiftIn, hval]
    simp [Nat.add_comm]
    omega

/-- A word without its high zero bytes. -/
lemma beNat_bytesDown_trimIndex (w : UInt32) :
    beNat (bytesDown (wordBytes w) (trimIndex 0 (wordBytes w) 3)) = w.toNat := by
  have h := bytesDown_trimIndex 0 (show 3 < (wordBytes w).length by simp)
  calc beNat (bytesDown (wordBytes w) (trimIndex 0 (wordBytes w) 3))
      = beNat (bytesDown (wordBytes w) 3) := by rw [h, beNat_replicate_zero_append]
    _ = w.toNat := beNat_bytesDown_wordBytes w

lemma trimIndex_wordBytes_lt (pad : UInt8) (w : UInt32) :
    trimIndex pad (wordBytes w) 3 < (wordBytes w).length := by
  have := trimIndex_le pad (wordBytes w) 3
  simp
  omega

lemma length_berLengthEnc (value : UInt32) :
    (berLengthEnc value).length = berLengthEncTry value := by
  simp only [berLengthEnc, berLengthEncTry, List.length_append,
    length_bytesDown (trimIndex_wordBytes_lt 0 value)]
  split_ifs <;> rfl

/-- The byte that trimming ends at counts. -/
lemma pow_trimIndex_le {w : UInt32} (hne : trimIndex 0 (wordBytes w) 3 ≠ 0) :
    256 ^ trimIndex 0 (wordBytes w) 3 ≤ w.toNat := by
  have hval := beNat_bytesDown_trimIndex w
  have hlt := trimIndex_wordBytes_lt 0 w
  rw [bytesDown_eq_cons hlt, beNat_cons] at hval
  have hlen : ((wordBytes w).take (trimIndex 0 (wordBytes w) 3)).reverse.length =
      trimIndex 0 (wordBytes w) 3 := by
    simp only [List.length_reverse, List.length_take]
    omega
  have hpos : 0 < ((wordBytes w).getD (trimIndex 0 (wordBytes w) 3) 0).toNat := by
    refine Nat.pos_of_ne_zero fun h0 => getD_trimIndex_ne hne ?_
    exact UInt8.toNat_inj.mp (by simpa using h0)
  rw [hlen] at hval
  nlinarith

/-- A word below 256 is trimmed to its lowest byte. -/
lemma trimIndex_eq_zero {w : UInt32} (h : w.toNat < 256) : trimIndex 0 (wordBytes w) 3 = 0 := by
  by_contra hne
  have hle := pow_trimIndex_le hne
  have : 256 ^ 1 ≤ 256 ^ trimIndex 0 (wordBytes w) 3 := Nat.pow_le_pow_right (by omega) (by omega)
  omega

lemma isLength_berLengthEnc (value : UInt32) : IsLength value.toNat (berLengthEnc value) := by
  have hval := beNat_bytesDown_trimIndex value
  have hlt := trimIndex_wordBytes_lt 0 value
  have hlen := length_bytesDown hlt
  rw [length_wordBytes] at hlt
  by_cases h : 127 < value
  · refine .inr ⟨_, List.ne_nil_of_length_eq_add_one hlen, by omega, hval, ?_⟩
    have hor : ∀ n < 5, (0x80 ||| UInt8.ofNat n : UInt8) = UInt8.ofNat (128 + n) := by decide +kernel
    simp only [berLengthEnc, if_pos h, List.singleton_append, hlen,
      hor (trimIndex 0 (wordBytes value) 3 + 1) (by omega)]
  · have hsmall : value.toNat < 128 := by
      rw [UInt32.lt_iff_toNat_lt] at h
      simp at h
      omega
    refine .inl ⟨hsmall, ?_⟩
    have h0 := trimIndex_eq_zero (by omega : value.toNat < 256)
    rw [h0, bytesDown_eq_cons (by simp)] at hval
    simp only [berLengthEnc, if_neg h, List.nil_append, h0, bytesDown_eq_cons
      (show 0 < (wordBytes value).length by simp)]
    simp only [List.take_zero, List.reverse_nil, beNat_cons, List.length_nil, pow_zero, mul_one,
      beNat_nil, add_zero] at hval ⊢
    rw [← hval]
    simp

/-! ### Object identifiers -/

lemma and_0x7f_toNat (b : UInt8) : (b &&& 0x7f).toNat = b.toNat % 128 := by
  rw [UInt8.toNat_and]
  exact Nat.and_two_pow_sub_one_eq_mod b.toNat 7

/-- A group of bytes gives one sub-identifier. -/
lemma berOidDecLoop_group {bs : List UInt8} (h : Base128.Group bs) (id : UInt32)
    (rest : List UInt8) :
    berOidDecLoop id (bs ++ rest) =
      UInt32.ofNat (id.toNat * 128 ^ bs.length + Base128.value bs) :: berOidDecLoop 0 rest := by
  have hstep : ∀ (id : UInt32) (b : UInt8),
      (id <<< 7 ||| (b &&& 0x7f).toUInt32).toNat = (id.toNat * 128 + b.toNat % 128) % 2 ^ 32 := by
    intro id b
    have := toNat_shiftLeft_or id (b &&& 0x7f).toUInt32 7 (by omega) (by
      rw [UInt8.toNat_toUInt32, and_0x7f_toNat]
      omega)
    rw [UInt8.toNat_toUInt32, and_0x7f_toNat] at this
    exact this
  induction h generalizing id with
  | @last b hb =>
    have hlow : highBit b = false := by
      rw [Bool.eq_false_iff, Ne, highBit_iff]
      omega
    rw [List.singleton_append, berOidDecLoop, hlow]
    simp only [Bool.false_eq_true, if_false, List.cons.injEq, and_true]
    apply UInt32.toNat_inj.mp
    rw [hstep]
    simp [Base128.value]
  | @more b bs hb _ ih =>
    rw [List.cons_append, berOidDecLoop, (highBit_iff b).mpr hb]
    simp only [if_true]
    rw [ih, hstep]
    congr 1
    apply UInt32.toNat_inj.mp
    rw [UInt32.toNat_ofNat', UInt32.toNat_ofNat']
    calc ((id.toNat * 128 + b.toNat % 128) % 2 ^ 32 * 128 ^ bs.length + Base128.value bs) % 2 ^ 32
        = ((id.toNat * 128 + b.toNat % 128) * 128 ^ bs.length + Base128.value bs) % 2 ^ 32 :=
          ((Nat.mod_modEq _ _).mul_right _).add_right _
      _ = _ := by
          rw [Base128.value_cons, List.length_cons, pow_succ]
          ring_nf

/-- The content of an OID: the first two sub-identifiers in one byte, then a group for each. -/
inductive IsOidTail : Oid → List UInt8 → Prop where
  | nil : IsOidTail [] []
  | cons {id : UInt32} {oid : Oid} {bs content : List UInt8} (hgroup : Base128.Group bs)
      (hval : Base128.value bs = id.toNat) (h : IsOidTail oid content) :
      IsOidTail (id :: oid) (bs ++ content)

lemma IsOidTail.berOidDecLoop {oid : Oid} {content : List UInt8} (h : IsOidTail oid content) :
    berOidDecLoop 0 content = oid := by
  induction h with
  | nil => rfl
  | cons hgroup hval _ ih =>
    rw [berOidDecLoop_group hgroup, ih, hval]
    simp

lemma subIdTmp_byte (id : UInt32) :
    ((id &&& 0x7f) ||| 0x80).toUInt8.toNat = id.toNat % 128 + 128 := by
  have h : ∀ n : Fin 128, (n.val ||| 128) % 256 = n.val + 128 := by decide +kernel
  have hlow : (id &&& 0x7f).toNat = id.toNat % 128 := by
    rw [UInt32.toNat_and]
    exact Nat.and_two_pow_sub_one_eq_mod id.toNat 7
  rw [UInt32.toNat_toUInt8, UInt32.toNat_or, hlow]
  exact h ⟨id.toNat % 128, Nat.mod_lt _ (by omega)⟩

/-- `tmp` holds the groups of seven bits from the lowest on. -/
lemma subIdTmp_spec (size : Nat) (id : UInt32) (h : id.toNat < 128 ^ (size + 1)) :
    ∃ t tmp, subIdTmp (size + 1) id = t :: tmp ∧ (∀ c ∈ tmp, 128 ≤ c.toNat) ∧
      t.toNat = id.toNat % 128 + 128 ∧ Base128.value tmp.reverse = id.toNat / 128 := by
  induction size generalizing id with
  | zero =>
    have hdiv : id / 128 = 0 := UInt32.toNat_inj.mp (by simp; omega)
    refine ⟨_, [], by rw [subIdTmp, if_pos hdiv], by simp, subIdTmp_byte id, ?_⟩
    simp [Base128.value]
    omega
  | succ size ih =>
    by_cases hdiv : id / 128 = 0
    · refine ⟨_, [], by rw [subIdTmp, if_pos hdiv], by simp, subIdTmp_byte id, ?_⟩
      have := congrArg UInt32.toNat hdiv
      simp at this
      simp [Base128.value]
      omega
    · have hnat : (id / 128).toNat = id.toNat / 128 := by simp
      obtain ⟨t, tmp, htmp, hall, ht, hval⟩ := ih (id / 128) (by
        rw [hnat]
        rw [pow_succ] at h
        omega)
      refine ⟨_, t :: tmp, by rw [subIdTmp, if_neg hdiv, htmp], ?_, subIdTmp_byte id, ?_⟩
      · intro c hc
        rcases List.mem_cons.mp hc with rfl | hc
        · omega
        · exact hall c hc
      · rw [List.reverse_cons, Base128.value_append_singleton, hval, hnat, ht, hnat]
        omega

lemma subIdEnc_spec (id : UInt32) :
    Base128.Group (subIdEnc id) ∧ Base128.value (subIdEnc id) = id.toNat ∧
      (subIdEnc id).length = (subIdTmp 10 id).length := by
  have hid : id.toNat < 128 ^ 10 := id.toNat_lt.trans (by norm_num)
  obtain ⟨t, tmp, htmp, hall, ht, hval⟩ := subIdTmp_spec 9 id hid
  have henc : subIdEnc id = tmp.reverse ++ [t &&& 0x7f] := by
    rw [subIdEnc, htmp]
    simp
  have hlow := and_0x7f_toNat t
  refine ⟨?_, ?_, ?_⟩
  · rw [henc]
    exact Base128.group_append_singleton (by simpa using hall) (by omega)
  · rw [henc, Base128.value_append_singleton, hval]
    omega
  · rw [henc, htmp]
    simp

lemma isOidTail_flatMap (oid : Oid) : IsOidTail oid (oid.flatMap subIdEnc) := by
  induction oid with
  | nil => exact .nil
  | cons id oid ih => exact .cons (subIdEnc_spec id).1 (subIdEnc_spec id).2.1 ih

/-! ### Values -/

/-- The elements and the bytes that `ber_value_dec` gives, by the type. -/
inductive ValueDecoded (buf : List UInt8) (type : UInt8) : Nat → List UInt8 → Prop where
  | empty (hnil : buf = []) : ValueDecoded buf type 0 []
  | int {value : Int32} (hnil : buf ≠ []) (htype : type = asn1TagInt ∨ type = asn1TagCnt)
      (hdec : berIntDec buf = some value) : ValueDecoded buf type 1 (wordBytes value.toUInt32)
  | uint (hnil : buf ≠ []) (htype : type = asn1TagGau ∨ type = asn1TagTimeticks) :
      ValueDecoded buf type 1 (wordBytes (berUintDec buf))
  | objid (hnil : buf ≠ []) (htype : type = asn1TagObjid) :
      ValueDecoded buf type (berOidDec buf).length ((berOidDec buf).flatMap wordBytes)
  | str (hnil : buf ≠ []) (htype : type = asn1TagOctstr ∨ type = asn1TagIpaddr) :
      ValueDecoded buf type buf.length buf
  | other (hnil : buf ≠ []) (hint : ¬ (type = asn1TagInt ∨ type = asn1TagCnt))
      (huint : ¬ (type = asn1TagGau ∨ type = asn1TagTimeticks)) (hobj : type ≠ asn1TagObjid)
      (hstr : ¬ (type = asn1TagOctstr ∨ type = asn1TagIpaddr)) : ValueDecoded buf type 0 []

lemma berValueDec_decoded {buf : List UInt8} {type : UInt8} {count : Nat} {bytes : List UInt8}
    (h : berValueDec buf type = some (count, bytes)) : ValueDecoded buf type count bytes := by
  rw [berValueDec] at h
  split_ifs at h with hnil hint huint hobj hstr
  · obtain ⟨rfl, rfl⟩ : 0 = count ∧ [] = bytes := by simpa using h
    exact .empty hnil
  · obtain ⟨value, hdec, hv⟩ := Option.map_eq_some_iff.mp h
    obtain ⟨rfl, rfl⟩ : 1 = count ∧ _ = bytes := by simpa using hv
    exact .int hnil hint hdec
  · obtain ⟨rfl, rfl⟩ : 1 = count ∧ _ = bytes := by simpa using h
    exact .uint hnil huint
  · obtain ⟨rfl, rfl⟩ : (berOidDec buf).length = count ∧ _ = bytes := by simpa using h
    exact .objid hnil hobj
  · obtain ⟨rfl, rfl⟩ : buf.length = count ∧ buf = bytes := by simpa using h
    exact .str hnil hstr
  · obtain ⟨rfl, rfl⟩ : 0 = count ∧ [] = bytes := by simpa using h
    exact .other hnil hint huint hobj hstr

/-! ### The dry run -/

/-- The number of seven-bit groups of a sub-identifier. -/
def subIdLen (id : UInt32) : Nat :=
  if id < 0x80 then 1
  else if id < 0x4000 then 2
  else if id < 0x200000 then 3
  else if id < 0x10000000 then 4
  else 5

lemma length_subIdTmp_succ (size : Nat) (id : UInt32) : (subIdTmp (size + 1) id).length =
    if id.toNat < 128 then 1 else (subIdTmp size (id / 128)).length + 1 := by
  have hdiv : id / 128 = 0 ↔ id.toNat < 128 := by
    rw [← UInt32.toNat_inj]
    simp
  rw [subIdTmp]
  by_cases h : id / 128 = 0
  · rw [if_pos h, if_pos (hdiv.mp h)]
    rfl
  · rw [if_neg h, if_neg (h ∘ hdiv.mpr)]
    rfl

/-- A number of `m + 1` groups of seven bits. -/
lemma length_subIdTmp_eq {m size : Nat} (hm : m < size) {id : UInt32}
    (hlow : m = 0 ∨ 128 ^ m ≤ id.toNat) (hhigh : id.toNat < 128 ^ (m + 1)) :
    (subIdTmp size id).length = m + 1 := by
  induction m generalizing size id with
  | zero =>
    obtain ⟨size, rfl⟩ := Nat.exists_eq_add_of_lt hm
    rw [Nat.zero_add, length_subIdTmp_succ, if_pos (by simpa using hhigh)]
  | succ m ih =>
    obtain ⟨size, rfl⟩ : ∃ n, size = n + 1 := ⟨size - 1, by omega⟩
    have hge : 128 ^ (m + 1) ≤ id.toNat := hlow.resolve_left (Nat.succ_ne_zero m)
    have hdiv : (id / 128).toNat = id.toNat / 128 := by simp
    have hbig : ¬ id.toNat < 128 := by
      have : 128 ^ 1 ≤ 128 ^ (m + 1) := Nat.pow_le_pow_right (by omega) (by omega)
      omega
    rw [length_subIdTmp_succ, if_neg hbig, ih (Nat.lt_of_succ_lt_succ hm)]
    · right
      rw [hdiv, Nat.le_div_iff_mul_le (by omega), ← pow_succ]
      exact hge
    · rw [hdiv, Nat.div_lt_iff_lt_mul (by omega), ← pow_succ]
      exact hhigh

lemma length_subIdTmp (id : UInt32) : (subIdTmp 10 id).length = subIdLen id := by
  have hlt := id.toNat_lt
  simp only [subIdLen, UInt32.lt_iff_toNat_lt, UInt32.reduceToNat]
  split_ifs with h₁ h₂ h₃ h₄
  · exact length_subIdTmp_eq (by omega) (.inl rfl) (by omega)
  · exact length_subIdTmp_eq (by omega) (.inr (by omega)) (by omega)
  · exact length_subIdTmp_eq (by omega) (.inr (by omega)) (by omega)
  · exact length_subIdTmp_eq (by omega) (.inr (by omega)) (by omega)
  · exact length_subIdTmp_eq (by omega) (.inr (by omega)) (by omega)

lemma length_flatMap_subIdEnc (ids : Oid) :
    (ids.flatMap subIdEnc).length = (ids.map subIdLen).sum := by
  rw [List.length_flatMap]
  refine congrArg List.sum (List.map_congr_left fun id _ => ?_)
  rw [(subIdEnc_spec id).2.2, length_subIdTmp]

/-- The two counts of an OID agree as long as the bytes fit the 8-bit counter of the dry run. -/
lemma berOidEncTry_eq_iff {oid : Oid} (h : oid.length < 256) :
    berOidEncTry oid = some (berOidEnc oid).length ↔ ((oid.drop 2).map subIdLen).sum ≤ 254 := by
  match oid with
  | [] => simp [berOidEncTry, berOidEnc]
  | [_] => simp [berOidEncTry, berOidEnc]
  | a :: b :: ids =>
    have hlen : (fun id => (subIdTmp 10 id).length) = subIdLen := funext length_subIdTmp
    rw [berOidEncTry, if_neg (by simp), if_pos h, berOidEnc, List.length_cons,
      length_flatMap_subIdEnc, hlen]
    simp only [List.drop_succ_cons, List.drop_zero, Option.some.injEq]
    omega

lemma length_berUintEnc (value : UInt32) : (berUintEnc value).length = berUintEncTry value := by
  simp only [berUintEnc, berUintEncTry, List.length_append,
    length_bytesDown (trimIndex_wordBytes_lt 0 value)]
  split_ifs <;> rfl

lemma length_oidAt {mem : List UInt8} {len : Nat} {oid : Oid} (h : oidAt mem len = some oid) :
    oid.length = len := by
  rw [oidAt] at h
  split_ifs at h
  obtain rfl := Option.some.inj h
  simp

/-- The dry run announces the number of bytes that the encoder writes, except for an OID whose
sub-identifiers from the third on take more than 254 bytes. -/
theorem berValueEncTry_eq_length_iff {mem bytes : List UInt8} {len : Nat} {type : UInt8}
    (henc : berValueEnc mem len type = some bytes) (hoid : type = asn1TagObjid → len ≤ 64) :
    berValueEncTry mem len type = some bytes.length ↔
      (type = asn1TagObjid →
        ∀ oid, oidAt mem len = some oid → ((oid.drop 2).map subIdLen).sum ≤ 254) := by
  unfold berValueEnc at henc
  unfold berValueEncTry
  split_ifs at henc ⊢ with hint huint hobj hstr hmem
  · obtain rfl := Option.some.inj henc
    have hne : type ≠ asn1TagObjid := by rcases hint with rfl | rfl <;> decide
    simp [hne, length_berIntEnc_eq_try]
  · obtain rfl := Option.some.inj henc
    have hne : type ≠ asn1TagObjid := by rcases huint with rfl | rfl <;> decide
    simp [hne, length_berUintEnc]
  · obtain ⟨oid, hat, rfl⟩ := Option.map_eq_some_iff.mp henc
    have hlen : oid.length < 256 := by
      have := length_oidAt hat
      have := hoid hobj
      omega
    simp [hat, hobj, berOidEncTry_eq_iff hlen]
  · obtain rfl := Option.some.inj henc
    have hne : type ≠ asn1TagObjid := by rcases hstr with rfl | rfl <;> decide
    simp [hne, hmem]
  · obtain rfl := Option.some.inj henc
    simp [hobj]

theorem berValueEncTry_eq_length_sysDescr :
    berValueEncTry (([1, 3, 6, 1, 2, 1, 1, 1] : Oid).flatMap wordBytes) 8 asn1TagObjid =
      some [0x2b, 6, 1, 2, 1, 1, (1 : UInt8)].length := by
  apply (berValueEncTry_eq_length_iff (by decide) (by decide)).mpr
  rintro - oid h
  obtain rfl := Option.some.inj h
  decide

/-- An OID of 53 sub-identifiers, 51 of them of five bytes each. -/
def wideOid : Oid := 1 :: 3 :: List.replicate 51 0xffffffff

/-- 256 bytes are written for it and none is announced. -/
theorem berValueEncTry_wraps :
    (berValueEnc (wideOid.flatMap wordBytes) 53 asn1TagObjid).map List.length = some 256 ∧
      berValueEncTry (wideOid.flatMap wordBytes) 53 asn1TagObjid = some 0 := by
  decide +kernel

end SmartSnmp
