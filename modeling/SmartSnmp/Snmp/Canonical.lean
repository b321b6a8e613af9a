import SmartSnmp.Snmp.Accept

/-!
# Canonical values

The contents of values in their shortest BER encoding. The encoders write these, so a canonical
value is what is encoded of its decoding: for an unsigned number if it is decoded as one.
-/

namespace SmartSnmp

open Bytes

/-! ### Integers -/

/-- What `ber_uint_enc` writes is shortest, and never negative. -/
lemma berUintEnc_spec (value : UInt32) :
    Shortest (berUintEnc value) ∧ beInt (berUintEnc value) = value.toNat := by
  have hval := beNat_bytesDown_trimIndex value
  have hlt := trimIndex_wordBytes_lt 0 value
  have hne := @getD_trimIndex_ne 0 (wordBytes value) 3
  simp only [berUintEnc]
  generalize trimIndex 0 (wordBytes value) 3 = i at *
  have hsign : highBit ((wordBytes value).getD i 0) = negative (bytesDown (wordBytes value) i) := by
    rw [bytesDown_eq_cons hlt, highBit_eq_negative]
  cases hneg : negative (bytesDown (wordBytes value) i) with
  | true =>
    rw [hsign, hneg, if_pos rfl, List.singleton_append]
    refine ⟨shortest_cons (fun _ => hneg) fun h => absurd h (by decide), ?_⟩
    rw [beInt_of_not_negative (by simp [negative]), beNat_cons, hval]
    simp
  | false =>
    rw [hsign, hneg, if_neg (by simp), List.nil_append]
    refine ⟨shortest_bytesDown hlt hne (.inl ⟨rfl, hneg⟩), ?_⟩
    rw [beInt_of_not_negative hneg, hval]

/-- Without a leading zero at most a word is written. -/
lemma length_drop_zero_berUintEnc (value : UInt32) :
    (if (berUintEnc value).headD 0 = 0 then (berUintEnc value).tail else berUintEnc value).length ≤
      4 := by
  have hlt := trimIndex_wordBytes_lt 0 value
  have hlen := length_bytesDown hlt
  rw [length_wordBytes] at hlt
  rw [berUintEnc]
  by_cases hhigh : highBit ((wordBytes value).getD (trimIndex 0 (wordBytes value) 3) 0) = true
  · rw [if_pos hhigh, List.singleton_append, List.headD_cons, if_pos rfl, List.tail_cons, hlen]
    omega
  · rw [if_neg hhigh, List.nil_append]
    split_ifs
    · rw [List.length_tail, hlen]
      omega
    · rw [hlen]
      omega

lemma beNat_drop_zero (bs : List UInt8) :
    beNat (if bs.headD 0 = 0 then bs.tail else bs) = beNat bs := by
  split_ifs with h
  · cases bs with
    | nil => rfl
    | cons b bs =>
      obtain rfl : b = 0 := h
      simp [beNat_cons]
  · rfl

/-- Decoding what was encoded. -/
lemma berUintDec_berUintEnc (value : UInt32) : berUintDec (berUintEnc value) = value := by
  obtain ⟨-, hval⟩ := berUintEnc_spec value
  have hneg : negative (berUintEnc value) = false := by
    rw [Bool.eq_false_iff, Ne, ← beInt_neg_iff]
    omega
  rw [beInt_of_not_negative hneg] at hval
  apply UInt32.toNat_inj.mp
  rw [berUintDec, toNat_shiftIn_zero (length_drop_zero_berUintEnc value), beNat_drop_zero]
  exact_mod_cast hval

/-- A canonical integer is what is encoded of its decoding. -/
lemma berIntDec_of_shortest {content : List UInt8} (h : Shortest content)
    (hlow : -2 ^ 31 ≤ beInt content) (hhigh : beInt content < 2 ^ 31) :
    ∃ value, berIntDec content = some value ∧ berIntEnc value = content := by
  have hval : (Int32.ofInt (beInt content)).toInt = beInt content :=
    Int32.toInt_ofInt_of_le hlow hhigh
  have henc : berIntEnc (Int32.ofInt (beInt content)) = content :=
    (shortest_berIntEnc _).eq h ((berIntEnc_spec _).2.2.trans hval)
  refine ⟨_, ?_, henc⟩
  have hdec := berIntDec_berIntEnc (Int32.ofInt (beInt content))
  rwa [henc] at hdec

/-- A canonical unsigned number is what is encoded of its decoding. -/
lemma berUintEnc_berUintDec {content : List UInt8} (h : Shortest content)
    (hlow : 0 ≤ beInt content) (hhigh : beInt content < 2 ^ 32) :
    berUintEnc (berUintDec content) = content := by
  obtain ⟨n, hn⟩ := Int.eq_ofNat_of_zero_le hlow
  have hlt : n < 2 ^ 32 := by omega
  have hofNat : (UInt32.ofNat n).toNat = n := by rw [UInt32.toNat_ofNat', Nat.mod_eq_of_lt hlt]
  obtain ⟨hshort, hval⟩ := berUintEnc_spec (UInt32.ofNat n)
  have henc : berUintEnc (UInt32.ofNat n) = content :=
    hshort.eq h (by rw [hval, hofNat, hn])
  have hdec := berUintDec_berUintEnc (UInt32.ofNat n)
  rw [henc] at hdec
  rw [hdec, henc]

/-! ### Object identifiers -/

/-- A minimal group is what is written of its number. -/
lemma subIdEnc_of_minimal {g : List UInt8} (h : Base128.Minimal g) (hval : Base128.value g < 2 ^ 32) :
    subIdEnc (UInt32.ofNat (Base128.value g)) = g := by
  obtain ⟨hgroup, hvalue, hlen⟩ := subIdEnc_spec (UInt32.ofNat (Base128.value g))
  have hofNat : (UInt32.ofNat (Base128.value g)).toNat = Base128.value g := by
    rw [UInt32.toNat_ofNat', Nat.mod_eq_of_lt hval]
  refine hgroup.eq_of_value h.1 ?_ (hvalue.trans hofNat)
  rw [hlen, length_subIdTmp]
  have hpos := List.length_pos_of_ne_nil h.1.ne_nil
  have hupper := Base128.value_lt g
  have hlower := h.le_value
  have hfive : g.length ≤ 5 := by
    by_contra hlong
    have := Nat.pow_le_pow_right (show 0 < 128 by norm_num) (show 5 ≤ g.length - 1 by omega)
    have := hlower (by omega)
    omega
  simp only [subIdLen, UInt32.lt_iff_toNat_lt, hofNat, UInt32.reduceToNat]
  generalize g.length = k at *
  obtain rfl | rfl | rfl | rfl | rfl : k = 1 ∨ k = 2 ∨ k = 3 ∨ k = 4 ∨ k = 5 := by omega
  all_goals
    simp only [Nat.reducePow, Nat.reduceSub, Nat.reduceLeDiff, forall_const] at hupper hlower
    split_ifs <;> omega

/-- The numbers of groups. -/
def groupIds (groups : List (List UInt8)) : Oid :=
  groups.map fun g => UInt32.ofNat (Base128.value g)

variable {groups : List (List UInt8)}
  (h : ∀ g ∈ groups, Base128.Minimal g ∧ Base128.value g < 2 ^ 32)

include h

lemma berOidDecLoop_flatten : berOidDecLoop 0 groups.flatten = groupIds groups := by
  apply IsOidTail.berOidDecLoop
  induction groups with
  | nil => exact .nil
  | cons g groups ih =>
    rw [List.forall_mem_cons] at h
    refine .cons h.1.1.1 ?_ (ih h.2)
    rw [UInt32.toNat_ofNat', Nat.mod_eq_of_lt h.1.2]

lemma flatMap_subIdEnc_groupIds : (groupIds groups).flatMap subIdEnc = groups.flatten := by
  induction groups with
  | nil => rfl
  | cons g groups ih =>
    rw [List.forall_mem_cons] at h
    rw [groupIds, List.map_cons, List.flatMap_cons, subIdEnc_of_minimal h.1.1 h.1.2,
      List.flatten_cons]
    exact congrArg (g ++ ·) (ih h.2)

/-- A canonical OID is what is encoded of its decoding. -/
lemma berOidEnc_berOidDec (b : UInt8) :
    berOidEnc (berOidDec (b :: groups.flatten)) = b :: groups.flatten := by
  have hb : ((b / 40).toUInt32 * 40 + (b % 40).toUInt32).toUInt8 = b := by
    apply UInt8.toNat_inj.mp
    have := b.toNat_lt
    simp
    omega
  rw [berOidDec, List.headD_cons, List.tail_cons, berOidDecLoop_flatten h, berOidEnc, hb,
    flatMap_subIdEnc_groupIds h]

omit h

lemma length_berOidEnc {oid : Oid} (htwo : 2 ≤ oid.length) :
    (berOidEnc oid).length = 1 + ((oid.drop 2).map subIdLen).sum := by
  match oid, htwo with
  | a :: b :: ids, _ =>
    rw [berOidEnc, List.length_cons, length_flatMap_subIdEnc, Nat.add_comm]
    rfl

lemma length_berOidEnc_of_lt {oid : Oid} (h : oid.length < 2) : (berOidEnc oid).length = oid.length := by
  match oid, h with
  | [], _ => rfl
  | [_], _ => rfl

/-- The dry run counts the bytes in eight bits. -/
lemma berOidEncTry_eq_mod (oid : Oid) :
    berOidEncTry oid = if oid.length < 256 then some ((berOidEnc oid).length % 256) else none := by
  have hlen : (fun id => (subIdTmp 10 id).length) = subIdLen := funext length_subIdTmp
  rw [berOidEncTry, hlen]
  by_cases htwo : oid.length < 2
  · rw [if_pos htwo, if_pos (by omega), length_berOidEnc_of_lt htwo, Nat.mod_eq_of_lt (by omega)]
  · rw [if_neg htwo, length_berOidEnc (by omega)]

/-! ### Values -/

lemma berValueEncTry_objid (mem : List UInt8) (len : Nat) :
    berValueEncTry mem len asn1TagObjid = (oidAt mem len).bind berOidEncTry := rfl

lemma berValueEnc_objid (mem : List UInt8) (len : Nat) :
    berValueEnc mem len asn1TagObjid = (oidAt mem len).map berOidEnc := rfl

/-- The contents of a value in canonical BER, by type. -/
inductive Canonical : UInt8 → List UInt8 → Prop where
  | int {content : List UInt8} (h : Shortest content) (hlow : -2 ^ 31 ≤ beInt content)
      (hhigh : beInt content < 2 ^ 31) : Canonical asn1TagInt content
  | unsigned {type : UInt8} {content : List UInt8}
      (htype : type = asn1TagCnt ∨ type = asn1TagGau ∨ type = asn1TagTimeticks)
      (h : Shortest content) (hlow : 0 ≤ beInt content) (hhigh : beInt content < 2 ^ 32) :
      Canonical type content
  | string {type : UInt8} (htype : type = asn1TagOctstr ∨ type = asn1TagIpaddr)
      (content : List UInt8) : Canonical type content
  | objid (first : UInt8) {groups : List (List UInt8)}
      (h : ∀ g ∈ groups, Base128.Minimal g ∧ Base128.value g < 2 ^ 32) :
      Canonical asn1TagObjid (first :: groups.flatten)

end SmartSnmp
