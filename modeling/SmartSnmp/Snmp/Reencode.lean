import SmartSnmp.Snmp.Canonical
import SmartSnmp.Snmp.Bounds
import SmartSnmp.Snmp.MsgProc
import SmartSnmp.Snmp.Limits

/-!
# Values that are decoded and encoded again

`snmp_set` encodes the variable under the tag that the search has left, and passes the number of bytes of
its dry run for the number of elements. A canonical value comes back as it was if it keeps its bytes under
that tag; what memory holds behind the value takes part in it.
-/

namespace SmartSnmp

open Bytes

/-! ### Words in memory -/

/-- One word after the other is read. -/
lemma oidAt_wordBytes_append (a : UInt32) (mem : List UInt8) (k : Nat) :
    oidAt (wordBytes a ++ mem) (k + 1) = (oidAt mem k).map (a :: ·) := by
  have hlen : 4 * (k + 1) ≤ (wordBytes a ++ mem).length ↔ 4 * k ≤ mem.length := by
    rw [List.length_append, length_wordBytes]
    omega
  have hdrop : ∀ i, (wordBytes a ++ mem).drop (4 * (i + 1)) = mem.drop (4 * i) := by
    intro i
    rw [Nat.mul_succ, Nat.add_comm, ← List.drop_drop, List.drop_left' (length_wordBytes a)]
  rw [oidAt, oidAt, List.range_succ_eq_map]
  by_cases hle : 4 * k ≤ mem.length
  · rw [if_pos hle, if_pos (hlen.mpr hle), Option.map_some, List.map_cons, List.map_map]
    refine congrArg some (congrArg₂ List.cons ?_ (List.map_congr_left fun i _ => ?_))
    · exact wordAt_wordBytes a mem
    · rw [Function.comp_apply, Nat.succ_eq_add_one, hdrop]
  · rw [if_neg hle, if_neg (hle ∘ hlen.mp)]
    rfl

/-- What is read of an OID that is followed by something else. -/
lemma oidAt_flatMap_append (oid : Oid) (rest : List UInt8) (k : Nat) :
    oidAt (oid.flatMap wordBytes ++ rest) k =
      if k ≤ oid.length then some (oid.take k)
      else (oidAt rest (k - oid.length)).map (oid ++ ·) := by
  induction oid generalizing k with
  | nil =>
    cases k with
    | zero => rfl
    | succ k => simp
  | cons a oid ih =>
    cases k with
    | zero => simp [oidAt]
    | succ k =>
      rw [List.flatMap_cons, List.append_assoc, oidAt_wordBytes_append, ih, List.length_cons]
      by_cases hle : k ≤ oid.length
      · rw [if_pos hle, if_pos (by omega)]
        rfl
      · rw [if_neg hle, if_neg (by omega), Nat.add_sub_add_right, Option.map_map]
        rfl

lemma oidAt_of_le {mem : List UInt8} {j k : Nat} {words : Oid} (h : oidAt mem k = some words) (hle : j ≤ k) :
    oidAt mem j = some (words.take j) := by
  rw [oidAt] at h ⊢
  split_ifs at h with hmem
  rw [if_pos (by omega), ← Option.some.inj h, ← List.map_take, List.take_range, Nat.min_eq_left hle]

/-! ### Object identifiers -/

lemma length_le_sum_subIdLen (ids : Oid) : ids.length ≤ (ids.map subIdLen).sum := by
  induction ids with
  | nil => rfl
  | cons id ids ih =>
    have hpos : 1 ≤ subIdLen id := by
      rw [subIdLen]
      split_ifs <;> omega
    rw [List.map_cons, List.sum_cons, List.length_cons]
    omega

/-- More elements take more bytes. -/
lemma length_berOidEnc_lt {oid more : Oid} (htwo : 2 ≤ oid.length) (hmore : more ≠ []) :
    (berOidEnc oid).length < (berOidEnc (oid ++ more)).length := by
  have hpos := List.length_pos_of_ne_nil hmore
  have hle := length_le_sum_subIdLen more
  rw [length_berOidEnc htwo, length_berOidEnc (by rw [List.length_append]; omega),
    List.drop_append_of_le_length htwo, List.map_append, List.sum_append]
  omega

lemma length_berOidEnc_take_one {oid : Oid} (h : oid ≠ []) :
    (berOidEnc (oid.take 1)).length = 1 := by
  obtain ⟨id, ids, rfl⟩ := List.exists_cons_of_ne_nil h
  rfl

/-- The number of bytes of an OID stands for its number of elements when it is encoded again. This
goes well if both are the same, or if the first element is all that is needed. -/
lemma reencode_oid {oid : Oid} (htwo : 2 ≤ oid.length) {rest value : List UInt8} {valLen : Nat}
    (htry : berValueEncTry (oid.flatMap wordBytes ++ rest) oid.length asn1TagObjid = some valLen)
    (henc : berValueEnc (oid.flatMap wordBytes ++ rest) valLen asn1TagObjid = some value)
    (hfit : value.length ≤ varBindTail + valLen) :
    value = berOidEnc oid ↔
      (berOidEnc oid).length = oid.length ∨ berOidEnc (oid.take 1) = berOidEnc oid := by
  have hoid := length_berOidEnc htwo
  rw [berValueEncTry_objid, oidAt_flatMap_append, if_pos le_rfl, List.take_length, Option.bind_some,
    berOidEncTry, if_neg (by omega)] at htry
  split_ifs at htry with hshort
  simp only [length_subIdTmp, ← hoid, Option.some.injEq] at htry
  rw [berValueEnc_objid] at henc
  obtain ⟨words, hwords, rfl⟩ := Option.map_eq_some_iff.mp henc
  rw [oidAt_flatMap_append] at hwords
  constructor
  · intro heq
    rw [heq, varBindTail] at hfit
    have hfull : (berOidEnc oid).length = valLen := by omega
    obtain hlt | heq' | hgt := lt_trichotomy valLen oid.length
    · rw [if_pos hlt.le, Option.some.injEq] at hwords
      subst hwords
      by_cases hone : 2 ≤ valLen
      · have := @length_berOidEnc_lt (oid.take valLen) (oid.drop valLen)
          (by rw [List.length_take]; omega) (by simpa using hlt)
        rw [List.take_append_drop, heq] at this
        omega
      · obtain rfl : valLen = 1 := by omega
        exact .inr heq
    · exact .inl (hfull.trans heq')
    · rw [if_neg (by omega)] at hwords
      obtain ⟨more, hmore, rfl⟩ := Option.map_eq_some_iff.mp hwords
      have hlen := length_oidAt hmore
      have hmore' : more ≠ [] := by
        rintro rfl
        rw [List.length_nil] at hlen
        omega
      have := length_berOidEnc_lt htwo hmore'
      rw [heq] at this
      omega
  · rintro (heq | heq)
    · obtain rfl : valLen = oid.length := by omega
      rw [if_pos le_rfl, List.take_length, Option.some.injEq] at hwords
      rw [hwords]
    · have hone := length_berOidEnc_take_one (List.ne_nil_of_length_pos (by omega) : oid ≠ [])
      rw [heq] at hone
      obtain rfl : valLen = 1 := by omega
      rw [if_pos (by omega), Option.some.injEq] at hwords
      rw [← hwords, heq]

/-- A canonical OID is repeated if one sub-identifier takes two bytes and the others one, or if it
is `0.0`. -/
lemma reencode_objid (first : UInt8) {groups : List (List UInt8)}
    (h : ∀ g ∈ groups, Base128.Minimal g ∧ Base128.value g < 2 ^ 32) {rest value : List UInt8}
    {valLen : Nat}
    (htry : berValueEncTry ((berOidDec (first :: groups.flatten)).flatMap wordBytes ++ rest)
      (berOidDec (first :: groups.flatten)).length asn1TagObjid = some valLen)
    (henc : berValueEnc ((berOidDec (first :: groups.flatten)).flatMap wordBytes ++ rest) valLen
      asn1TagObjid = some value) (hfit : value.length ≤ varBindTail + valLen) :
    value = first :: groups.flatten ↔
      groups.flatten.countP highBit = 1 ∨ first :: groups.flatten = [0] := by
  have hcount : (berOidDec (first :: groups.flatten)).length =
      (groups.flatten.countP fun b => !highBit b) + 2 := by
    rw [berOidDec, List.length_cons, List.length_cons, berOidDecLoop_length, List.tail_cons]
  have hbits : groups.flatten.length = groups.flatten.countP highBit +
      groups.flatten.countP fun b => !highBit b := by
    rw [List.length_eq_countP_add_countP highBit]
    simp
  have hone : berOidEnc ((berOidDec (first :: groups.flatten)).take 1) = [first / 40] := by
    rw [berOidDec, List.take_succ_cons, List.take_zero, List.headD_cons, berOidEnc, UInt8.toUInt8_toUInt32]
  have hround := berOidEnc_berOidDec h first
  rw [← hround, reencode_oid (by omega) htry henc hfit, hround, hone, List.length_cons, hcount]
  apply or_congr (by omega)
  rw [List.cons.injEq, List.cons.injEq]
  constructor
  · rintro ⟨hfirst, hnil⟩
    refine ⟨?_, hnil.symm⟩
    have := congrArg UInt8.toNat hfirst
    rw [UInt8.toNat_div] at this
    exact UInt8.toNat_inj.mp (by simp at this ⊢; omega)
  · rintro ⟨rfl, hnil⟩
    exact ⟨rfl, hnil.symm⟩

/-! ### Numbers -/

lemma berIntEnc_eq_iff {v : Int32} {content : List UInt8} :
    berIntEnc v = content ↔ Shortest content ∧ beInt content = v.toInt := by
  constructor
  · rintro rfl
    exact ⟨shortest_berIntEnc v, (berIntEnc_spec v).2.2⟩
  · rintro ⟨h, hval⟩
    exact (shortest_berIntEnc v).eq h ((berIntEnc_spec v).2.2.trans hval.symm)

lemma berUintEnc_eq_iff {w : UInt32} {content : List UInt8} :
    berUintEnc w = content ↔ Shortest content ∧ beInt content = w.toNat := by
  obtain ⟨hshort, hspec⟩ := berUintEnc_spec w
  constructor
  · rintro rfl
    exact ⟨hshort, hspec⟩
  · rintro ⟨h, hval⟩
    exact hshort.eq h (hspec.trans hval.symm)

/-- The types of signed numbers. -/
def signedTag (tag : UInt8) : Bool := tag = asn1TagInt || tag = asn1TagCnt

/-- The number that a word stands for under a type. -/
def wordInt (tag : UInt8) (w : UInt32) : Int := if signedTag tag then w.toInt32.toInt else w.toNat

lemma wordInt_of_lt {tag : UInt8} {w : UInt32} (h : w.toNat < 2 ^ 31) : wordInt tag w = w.toNat := by
  have hword : w.toInt32.toInt = (w.toNat : Int).bmod (2 ^ 32) :=
    BitVec.toInt_eq_toNat_bmod w.toBitVec
  rw [wordInt]
  split_ifs
  · rw [hword, Int.bmod_def]
    omega
  · rfl

lemma wordTag_cases {tag : UInt8} (h : wordTag tag = true) :
    tag = asn1TagInt ∨ tag = asn1TagCnt ∨ tag = asn1TagGau ∨ tag = asn1TagTimeticks := by
  simp only [wordTag, Bool.or_eq_true, decide_eq_true_eq] at h
  tauto

lemma wordTag_of_signedTag {tag : UInt8} (h : signedTag tag = true) : wordTag tag = true := by
  simp only [signedTag, wordTag, Bool.or_eq_true, decide_eq_true_eq] at h ⊢
  exact .inl (.inl h)

lemma objid_ne_of_wordTag {tag : UInt8} (h : wordTag tag = true) : tag ≠ asn1TagObjid := by
  rcases wordTag_cases h with rfl | rfl | rfl | rfl <;> decide

/-- What is encoded of a word is the number that it stands for, in the shortest form. -/
lemma berValueEnc_word_eq_iff {tag : UInt8} (h : wordTag tag = true) {mem value : List UInt8} {len : Nat}
    (henc : berValueEnc mem len tag = some value) (content : List UInt8) :
    value = content ↔ Shortest content ∧ beInt content = wordInt tag (wordAt mem) := by
  rw [berValueEnc] at henc
  rcases wordTag_cases h with rfl | rfl | rfl | rfl
  · obtain rfl := Option.some.inj henc
    exact berIntEnc_eq_iff
  · obtain rfl := Option.some.inj henc
    exact berIntEnc_eq_iff
  · obtain rfl := Option.some.inj henc
    exact berUintEnc_eq_iff
  · obtain rfl := Option.some.inj henc
    exact berUintEnc_eq_iff

lemma Canonical.number {type : UInt8} {content : List UInt8} (h : Canonical type content)
    (htype : wordTag type = true) :
    Shortest content ∧ -2 ^ 31 ≤ beInt content ∧ beInt content < 2 ^ 32 := by
  cases h with
  | int h hlow hhigh => exact ⟨h, hlow, by omega⟩
  | unsigned _ h hlow hhigh => exact ⟨h, by omega, hhigh⟩
  | string h => rcases h with rfl | rfl <;> exact absurd htype (by decide)
  | objid => exact absurd htype (by decide)

/-- A number is stored as the word that is congruent to it. -/
lemma berValueDec_number {type : UInt8} {content bytes : List UInt8} {len : Nat}
    (hcan : Canonical type content) (htype : wordTag type = true)
    (hdec : berValueDec content type = some (len, bytes)) :
    ∃ w : UInt32, len = 1 ∧ bytes = wordBytes w ∧ (w.toNat : Int) = beInt content % 2 ^ 32 := by
  obtain ⟨hshort, hlow, hhigh⟩ := hcan.number htype
  rw [berValueDec, if_neg hshort.1] at hdec
  by_cases hint : type = asn1TagInt ∨ type = asn1TagCnt
  · rw [if_pos hint] at hdec
    obtain ⟨v, hv, hpair⟩ := Option.map_eq_some_iff.mp hdec
    obtain ⟨rfl, rfl⟩ := Prod.mk.inj hpair
    refine ⟨_, rfl, rfl, ?_⟩
    have hval := toInt_berIntDec hv
    have hword : v.toInt = (v.toUInt32.toNat : Int).bmod (2 ^ 32) := by
      exact BitVec.toInt_eq_toNat_bmod v.toBitVec
    have hlt := v.toUInt32.toNat_lt
    rw [hword, intValue] at hval
    simp only [Int.bmod_def] at hval
    omega
  · have hnat : type = asn1TagGau ∨ type = asn1TagTimeticks := by
      rcases wordTag_cases htype with h | h | h | h
      · exact absurd (.inl h) hint
      · exact absurd (.inr h) hint
      · exact .inl h
      · exact .inr h
    rw [if_neg hint, if_pos hnat, Option.some.injEq, Prod.mk.injEq] at hdec
    obtain ⟨rfl, rfl⟩ := hdec
    have hnonneg : 0 ≤ beInt content := by
      cases hcan with
      | int => exact absurd (.inl rfl) hint
      | unsigned _ _ h => exact h
      | string h => rcases h with rfl | rfl <;> exact absurd htype (by decide)
      | objid => exact absurd htype (by decide)
    refine ⟨_, rfl, rfl, ?_⟩
    obtain ⟨-, hval⟩ := berUintEnc_eq_iff.mp (berUintEnc_berUintDec hshort hnonneg hhigh)
    omega

/-- A number under the type of another one: for a signed type it takes at most four bytes, for an unsigned
one it is not negative. -/
lemma reencode_number {type tag : UInt8} {content rest value : List UInt8} {n : Nat}
    (hcan : Canonical type content) (htype : wordTag type = true) (htag : wordTag tag = true) {w : UInt32}
    (hw : (w.toNat : Int) = beInt content % 2 ^ 32)
    (henc : berValueEnc (wordBytes w ++ rest) n tag = some value) :
    value = content ↔ if signedTag tag then content.length ≤ 4 else negative content = false := by
  obtain ⟨hshort, hlow, hhigh⟩ := hcan.number htype
  rw [berValueEnc_word_eq_iff htag henc, wordAt_wordBytes, wordInt]
  cases signedTag tag with
  | true =>
    have hword : w.toInt32.toInt = (w.toNat : Int).bmod (2 ^ 32) :=
      BitVec.toInt_eq_toNat_bmod w.toBitVec
    simp only [if_true, hshort, true_and, hword, hw]
    constructor
    · intro h
      have hrange : -2 ^ 31 ≤ beInt content ∧ beInt content < 2 ^ 31 := by
        rw [Int.bmod_def] at h
        omega
      obtain ⟨v, -, henc⟩ := berIntDec_of_shortest hshort hrange.1 hrange.2
      rw [← henc]
      exact (berIntEnc_spec v).2.1
    · intro hle
      have hpow : (256 : Int) ^ content.length ≤ 256 ^ 4 := pow_le_pow_right₀ (by norm_num) hle
      have hrange := beInt_range content
      norm_num at hpow
      rw [Int.bmod_def]
      omega
  | false =>
    have hneg := beInt_neg_iff content
    simp only [Bool.false_eq_true, if_false, hshort, true_and, hw]
    constructor
    · intro h
      rw [Bool.eq_false_iff, Ne, ← hneg]
      omega
    · intro h
      rw [h] at hneg
      have : ¬ beInt content < 0 := by simp [hneg]
      omega

/-- The first byte in memory of a word. -/
lemma head_wordBytes (w : UInt32) : ∃ b rest, wordBytes w = b :: rest ∧ b.toNat = w.toNat % 256 :=
  ⟨UInt8.ofNat w.toNat, leBytes 3 (w.toNat / 256), rfl, by simp⟩

/-- The types of strings. -/
def stringTag (tag : UInt8) : Bool := tag = asn1TagOctstr || tag = asn1TagIpaddr

lemma stringTag_cases {tag : UInt8} (h : stringTag tag = true) : tag = asn1TagOctstr ∨ tag = asn1TagIpaddr := by
  simpa [stringTag] using h

/-- A string is neither a number nor an OID. -/
lemma stringTag_apart {tag : UInt8} (h : stringTag tag = true) : ¬ wordTag tag = true ∧ tag ≠ asn1TagObjid := by
  rcases stringTag_cases h with rfl | rfl <;> decide

/-- A string is stored as it is. -/
lemma berValueDec_string {type : UInt8} (h : stringTag type = true) {content bytes : List UInt8} {len : Nat}
    (hdec : berValueDec content type = some (len, bytes)) : content.length = len ∧ content = bytes := by
  cases content with
  | nil => simpa using Option.some.inj hdec
  | cons b content =>
    have hkind : berValueDec (b :: content) type = some ((b :: content).length, b :: content) := by
      rcases stringTag_cases h with rfl | rfl
      · rfl
      · rfl
    exact Prod.mk.inj (Option.some.inj (hkind.symm.trans hdec))

/-- A string is as long as it is counted, and its bytes are those in memory. -/
lemma berValueEnc_string {tag : UInt8} (h : stringTag tag = true) {mem value : List UInt8} {len valLen : Nat}
    (htry : berValueEncTry mem len tag = some valLen) (henc : berValueEnc mem valLen tag = some value) :
    len ≤ mem.length ∧ mem.take len = value := by
  have hkind : berValueEncTry mem len tag = some len ∧
      berValueEnc mem valLen tag = if valLen ≤ mem.length then some (mem.take valLen) else none := by
    rcases stringTag_cases h with rfl | rfl
    · exact ⟨rfl, rfl⟩
    · exact ⟨rfl, rfl⟩
  rw [hkind.1, Option.some.injEq] at htry
  subst htry
  rw [hkind.2] at henc
  split_ifs at henc with hle
  exact ⟨hle, Option.some.inj henc⟩

/-- A number under the type of a string or of an OID is its low byte. -/
lemma reencode_number_byte {tag : UInt8} {content rest value : List UInt8} {valLen : Nat}
    (htag : stringTag tag = true ∨ tag = asn1TagObjid) {w : UInt32}
    (hw : (w.toNat : Int) = beInt content % 2 ^ 32)
    (htry : berValueEncTry (wordBytes w ++ rest) 1 tag = some valLen)
    (henc : berValueEnc (wordBytes w ++ rest) valLen tag = some value) :
    value = content ↔ content.length = 1 := by
  have hvalue : ∃ b : UInt8, value = [b] ∧ b.toNat = w.toNat % 256 := by
    rcases htag with htag | rfl
    · obtain ⟨-, rfl⟩ := berValueEnc_string htag htry henc
      obtain ⟨b, bs, hbytes, hb⟩ := head_wordBytes w
      exact ⟨b, by rw [hbytes]; rfl, hb⟩
    · have hone : oidAt (wordBytes w ++ rest) 1 = some [w] := by
        rw [oidAt_wordBytes_append]
        rfl
      rw [berValueEncTry_objid, hone] at htry
      obtain rfl : 1 = valLen := Option.some.inj htry
      rw [berValueEnc_objid, hone] at henc
      obtain rfl := Option.some.inj henc
      exact ⟨w.toUInt8, rfl, by simp⟩
  obtain ⟨b, rfl, hb⟩ := hvalue
  constructor
  · rintro rfl
    rfl
  · intro hlen
    obtain ⟨x, rfl⟩ := List.length_eq_one_iff.mp hlen
    have hmod := beInt_emod [x]
    have hnat : beNat [x] = x.toNat := by simp [beNat_cons]
    rw [hnat, List.length_singleton, pow_one] at hmod
    have hbx : b.toNat = x.toNat := by omega
    rw [UInt8.toNat_inj.mp hbx]

/-! ### Object identifiers under another type -/

lemma eq_zero_of_div {b : UInt8} (h : b = b / 40) : b = 0 := by
  have := congrArg UInt8.toNat h
  rw [UInt8.toNat_div] at this
  exact UInt8.toNat_inj.mp (by simp at this ⊢; omega)

/-- An OID under the type of a number is its first element. -/
lemma reencode_oid_number {tag first : UInt8} (htag : wordTag tag = true) {tail rest value : List UInt8}
    {n : Nat}
    (henc : berValueEnc ((berOidDec (first :: tail)).flatMap wordBytes ++ rest) n tag = some value) :
    value = first :: tail ↔ first :: tail = [0] := by
  have hword : wordAt ((berOidDec (first :: tail)).flatMap wordBytes ++ rest) = (first / 40).toUInt32 := by
    rw [berOidDec, List.flatMap_cons, List.append_assoc, wordAt_wordBytes]
    rfl
  have hsmall : (first / 40).toNat < 128 := by
    have := first.toNat_lt
    rw [UInt8.toNat_div]
    simp
    omega
  have hint : wordInt tag (first / 40).toUInt32 = beInt [first / 40] := by
    have hlt : (first / 40).toUInt32.toNat < 2 ^ 31 := by
      rw [UInt8.toNat_toUInt32]
      omega
    rw [wordInt_of_lt hlt, beInt_of_not_negative (by simpa [negative] using hsmall)]
    simp [beNat_cons]
  rw [berValueEnc_word_eq_iff htag henc, hword, hint]
  constructor
  · rintro ⟨hshort, hval⟩
    obtain ⟨hfirst, rfl⟩ := List.cons.inj (hshort.eq (shortest_singleton _) hval)
    rw [eq_zero_of_div hfirst]
  · intro h
    obtain ⟨rfl, rfl⟩ := List.cons.inj h
    exact ⟨shortest_singleton 0, by decide⟩

lemma berOidDecLoop_replicate (k : Nat) (bs : List UInt8) :
    berOidDecLoop 0 (List.replicate k 0 ++ bs) = List.replicate k 0 ++ berOidDecLoop 0 bs := by
  induction k with
  | zero => rfl
  | succ k ih =>
    rw [List.replicate_succ, List.replicate_succ, List.cons_append, List.cons_append, ← ih]
    rfl

lemma flatMap_wordBytes_replicate (k : Nat) :
    (List.replicate k (0 : UInt32)).flatMap wordBytes = List.replicate (4 * k) 0 := by
  induction k with
  | zero => rfl
  | succ k ih =>
    rw [List.replicate_succ, List.flatMap_cons, ih, Nat.mul_succ, Nat.add_comm, List.replicate_add]
    rfl

/-- Where bytes are the same as the words of their OID in memory, they are zeros: the words of the zeros
at their start reach further than these zeros. -/
lemma eq_zero_of_words {content rest : List UInt8} {n : Nat}
    (h : content = ((berOidDec content).flatMap wordBytes ++ rest).take n) : ∀ b ∈ content, b = 0 := by
  have hzeros : ∃ k d, content = List.replicate k 0 ++ d ∧ d.head? ≠ some 0 := by
    refine ⟨(content.takeWhile (· = 0)).length, content.dropWhile (· = 0), ?_, ?_⟩
    · rw [← List.eq_replicate_length.mpr fun b hb => by simpa using List.mem_takeWhile_imp hb]
      exact List.takeWhile_append_dropWhile.symm
    · intro hhead
      have := List.head?_dropWhile_not (· = 0) content
      simp [hhead] at this
  obtain ⟨k, d, hcontent, hd⟩ := hzeros
  cases d with
  | nil =>
    rw [hcontent, List.append_nil]
    exact fun b hb => List.eq_of_mem_replicate hb
  | cons b d =>
    have hb : b ≠ 0 := fun h => hd (by rw [h]; rfl)
    have hat : content[k]? = some b := by
      rw [hcontent, List.getElem?_append_right (by simp)]
      simp
    -- the first byte that is no zero, in memory
    rw [h, List.getElem?_take] at hat
    split_ifs at hat
    refine absurd ?_ hb
    cases k with
    | zero =>
      obtain ⟨c, bs, hbytes, hc⟩ := head_wordBytes (b / 40).toUInt32
      rw [hcontent, List.replicate_zero, List.nil_append, berOidDec, List.headD_cons, List.flatMap_cons,
        hbytes, List.cons_append, List.cons_append, List.getElem?_cons_zero, Option.some.injEq] at hat
      subst hat
      refine eq_zero_of_div (UInt8.toNat_inj.mp ?_)
      have := (c / 40).toNat_lt
      rw [UInt8.toNat_toUInt32] at hc
      omega
    | succ k =>
      have hoid : berOidDec content = List.replicate (k + 2) 0 ++ berOidDecLoop 0 (b :: d) := by
        rw [hcontent, List.replicate_succ, List.cons_append, berOidDec, List.headD_cons, List.tail_cons,
          berOidDecLoop_replicate]
        rfl
      rw [hoid, List.flatMap_append, flatMap_wordBytes_replicate, List.append_assoc,
        List.getElem?_append_left (by rw [List.length_replicate]; omega), List.getElem?_replicate,
        if_pos (by omega), Option.some.injEq] at hat
      exact hat.symm

/-- An OID under the type of a string is not the same. -/
lemma reencode_oid_string {tag first : UInt8} (htag : stringTag tag = true) {tail rest value : List UInt8}
    {valLen : Nat}
    (htry : berValueEncTry ((berOidDec (first :: tail)).flatMap wordBytes ++ rest)
      (berOidDec (first :: tail)).length tag = some valLen)
    (henc : berValueEnc ((berOidDec (first :: tail)).flatMap wordBytes ++ rest) valLen tag = some value) :
    value ≠ first :: tail := by
  rintro rfl
  obtain ⟨hle, htake⟩ := berValueEnc_string htag htry henc
  have hlen := congrArg List.length htake
  have hzero := eq_zero_of_words htake.symm
  have hcount : (tail.countP fun b => !highBit b) = tail.length := by
    rw [List.countP_eq_length]
    intro b hb
    rw [hzero b (List.mem_cons_of_mem first hb)]
    rfl
  rw [List.length_take_of_le hle, berOidDec, List.length_cons, List.length_cons, berOidDecLoop_length,
    List.tail_cons, hcount, List.length_cons] at hlen
  omega

/-! ### Strings under another type -/

/-- Content that spells an OID: in its first byte the first two sub-identifiers, and then each of the
others in the least number of bytes. -/
inductive SpellsOid : List UInt8 → Oid → Prop
  | mk (a c : UInt32) {groups : List (List UInt8)}
      (h : ∀ g ∈ groups, Base128.Minimal g ∧ Base128.value g < 2 ^ 32) :
      SpellsOid ((a * 40 + c).toUInt8 :: groups.flatten) (a :: c :: groupIds groups)

/-- A string under the type of an OID, of which memory has as many words as the string has bytes. Either
the string is one byte at most, or it spells the OID of the first of these words, as many as the number of
bytes that an OID of all of them takes, in 8 bits. -/
def SpellsWords (content mem : List UInt8) : Prop :=
  content.length ≤ 1 ∨ ∃ words, oidAt mem content.length = some words ∧
    SpellsOid content (words.take ((berOidEnc words).length % 256))

lemma minimal_subIdEnc (id : UInt32) : Base128.Minimal (subIdEnc id) := by
  obtain ⟨hgroup, hvalue, hlen⟩ := subIdEnc_spec id
  rw [length_subIdTmp] at hlen
  refine ⟨hgroup, fun hhead => ?_⟩
  obtain ⟨bs, hbs⟩ : ∃ bs, subIdEnc id = 0x80 :: bs := List.head?_eq_some_iff.mp hhead
  rw [hbs] at hgroup hvalue hlen
  have hlt := Base128.value_lt bs
  have hid : Base128.value bs = id.toNat := by
    rw [Base128.value_cons] at hvalue
    simpa using hvalue
  have hne : bs ≠ [] := by
    cases hgroup with
    | last h => exact absurd h (by decide)
    | more _ hbs => exact hbs.ne_nil
  have hpos := List.length_pos_of_ne_nil hne
  rw [hid] at hlt
  rw [List.length_cons] at hlen
  simp only [subIdLen, UInt32.lt_iff_toNat_lt, UInt32.reduceToNat] at hlen
  clear hhead hvalue hbs hgroup hid
  generalize bs.length = k at *
  split_ifs at hlen
  · omega
  · obtain rfl : k = 1 := by omega
    omega
  · obtain rfl : k = 2 := by omega
    omega
  · obtain rfl : k = 3 := by omega
    omega
  · obtain rfl : k = 4 := by omega
    omega

lemma groupIds_map_subIdEnc (ids : Oid) : groupIds (ids.map subIdEnc) = ids := by
  rw [groupIds, List.map_map]
  refine (List.map_congr_left fun id _ => ?_).trans (List.map_id _)
  rw [Function.comp_apply, (subIdEnc_spec id).2.1, UInt32.ofNat_toNat]
  rfl

lemma berOidEnc_eq_iff {oid : Oid} (htwo : 2 ≤ oid.length) {content : List UInt8} :
    berOidEnc oid = content ↔ SpellsOid content oid := by
  constructor
  · rintro rfl
    match oid, htwo with
    | a :: c :: ids, _ =>
      have h : ∀ g ∈ ids.map subIdEnc, Base128.Minimal g ∧ Base128.value g < 2 ^ 32 := by
        intro g hg
        obtain ⟨id, -, rfl⟩ := List.mem_map.mp hg
        rw [(subIdEnc_spec id).2.1]
        exact ⟨minimal_subIdEnc id, id.toNat_lt⟩
      have hspells := SpellsOid.mk a c h
      rwa [groupIds_map_subIdEnc] at hspells
  · rintro ⟨a, c, h⟩
    rw [berOidEnc, flatMap_subIdEnc_groupIds h]

lemma SpellsOid.two_le {content : List UInt8} {oid : Oid} (h : SpellsOid content oid) : 2 ≤ oid.length := by
  cases h
  simp

/-- The first byte of memory is the low one of its first word. -/
lemma berOidEnc_of_oidAt_one {b : UInt8} {mem : List UInt8} {words : Oid} (h : oidAt (b :: mem) 1 = some words) :
    berOidEnc words = [b] := by
  rw [oidAt] at h
  split_ifs at h
  obtain rfl := Option.some.inj h
  rw [List.range_one, List.map_singleton, berOidEnc]
  simp [leNat, show (256 : UInt8) = 0 from rfl]

/-- A string under the type of an OID. -/
lemma reencode_words {content rest value : List UInt8} {valLen : Nat}
    (htry : berValueEncTry (content ++ rest) content.length asn1TagObjid = some valLen)
    (henc : berValueEnc (content ++ rest) valLen asn1TagObjid = some value) :
    value = content ↔ SpellsWords content (content ++ rest) := by
  obtain ⟨words, hwords, htry⟩ := Option.bind_eq_some_iff.mp htry
  obtain ⟨words', hwords', rfl⟩ := Option.map_eq_some_iff.mp henc
  have hlen := length_oidAt hwords
  have hlen' := length_oidAt hwords'
  rw [berOidEncTry, hlen] at htry
  by_cases hshort : content.length < 2
  · rw [if_pos hshort, Option.some.injEq] at htry
    subst htry
    refine iff_of_true ?_ (.inl (by omega))
    cases content with
    | nil =>
      rw [List.eq_nil_of_length_eq_zero hlen']
      rfl
    | cons b bs =>
      obtain rfl : bs = [] := List.eq_nil_of_length_eq_zero (by
        rw [List.length_cons] at hshort
        omega)
      exact berOidEnc_of_oidAt_one hwords'
  · rw [if_neg hshort] at htry
    split_ifs at htry with hlt
    have hcount : (berOidEnc words).length % 256 = valLen := by
      simpa only [length_subIdTmp, ← length_berOidEnc (hlen ▸ not_lt.mp hshort), Option.some.injEq] using htry
    have hspells : SpellsWords content (content ++ rest) ↔ SpellsOid content (words.take valLen) := by
      rw [SpellsWords, hwords]
      simp [hcount, show ¬ content.length ≤ 1 by omega]
    rw [hspells]
    by_cases hle : valLen ≤ content.length
    · obtain rfl := Option.some.inj (hwords'.symm.trans (oidAt_of_le hwords hle))
      by_cases htwo : 2 ≤ valLen
      · exact berOidEnc_eq_iff (htwo.trans_eq hlen'.symm)
      · refine iff_of_false (fun h => ?_) fun h => ?_
        · have := congrArg List.length h
          rw [length_berOidEnc_of_lt (by omega), hlen'] at this
          omega
        · have := h.two_le
          omega
    · have htake := Option.some.inj (hwords.symm.trans (oidAt_of_le hwords' (not_le.mp hle).le))
      have hlt := @length_berOidEnc_lt words (words'.drop content.length) (by omega) (by simp; omega)
      rw [htake, List.take_append_drop, ← htake] at hlt
      refine iff_of_false (fun h => ?_) fun h => ?_
      · rw [h] at hlt
        omega
      · rw [List.take_of_length_le (by omega), ← berOidEnc_eq_iff (by omega)] at h
        rw [h] at hcount
        omega

/-! ### Values under a tag -/

/-- The types with values. -/
def isValueTag (tag : UInt8) : Bool := wordTag tag || stringTag tag || tag = asn1TagObjid

/-- Other tags have no bytes. -/
lemma berValueEnc_of_not_value {tag : UInt8} (h : isValueTag tag = false) (mem : List UInt8)
    (len : Nat) : berValueEnc mem len tag = some [] := by
  simp only [isValueTag, wordTag, stringTag, Bool.or_eq_false_iff, decide_eq_false_iff_not] at h
  obtain ⟨⟨⟨⟨⟨hint, hcnt⟩, hgau⟩, htime⟩, hstr, hip⟩, hobj⟩ := h
  simp [berValueEnc, hint, hcnt, hgau, htime, hstr, hip, hobj]

/-- When a canonical value has the same bytes if it is stored over `mem` and encoded under a tag.

A number does as a signed one of at most four bytes, as an unsigned one that is not negative, and as a
string or an OID of one byte. An OID does as an OID with one sub-identifier of two bytes and else of
one, and `0.0` also as a number. A string does as a string, as the number that its bytes are both in
memory and in BER, and as the OID that it spells. Nothing does under another tag but the empty string. -/
def KeepsBytes (type : UInt8) (content mem : List UInt8) (tag : UInt8) : Prop :=
  if isValueTag tag = false then content = []
  else if wordTag type = true then
    if signedTag tag = true then content.length ≤ 4
    else if wordTag tag = true then negative content = false
    else content.length = 1
  else if type = asn1TagObjid then
    if tag = asn1TagObjid then content.tail.countP highBit = 1 ∨ content = [0]
    else wordTag tag = true ∧ content = [0]
  else
    if wordTag tag = true then
      Shortest content ∧ beInt content = wordInt tag (wordAt (content ++ mem.drop content.length))
    else if tag = asn1TagObjid then SpellsWords content (content ++ mem.drop content.length)
    else True

/-- A canonical value that is decoded to memory and encoded again under a tag. -/
lemma reencode_iff {type tag : UInt8} {content bytes mem value : List UInt8} {len valLen : Nat}
    (hcan : Canonical type content) (hdec : berValueDec content type = some (len, bytes))
    (htry : berValueEncTry (bytes ++ mem.drop bytes.length) len tag = some valLen)
    (henc : berValueEnc (bytes ++ mem.drop bytes.length) valLen tag = some value)
    (hfit : value.length ≤ varBindTail + valLen) :
    value = content ↔ KeepsBytes type content mem tag := by
  rw [KeepsBytes]
  cases hval : isValueTag tag with
  | false =>
    rw [berValueEnc_of_not_value hval, Option.some.injEq] at henc
    rw [if_pos rfl, ← henc, eq_comm]
  | true =>
    have hkind : wordTag tag = true ∨ stringTag tag = true ∨ tag = asn1TagObjid := by
      simpa [isValueTag, or_assoc] using hval
    rw [if_neg (by simp)]
    by_cases hnumber : wordTag type = true
    · rw [if_pos hnumber]
      obtain ⟨w, rfl, rfl, hw⟩ := berValueDec_number hcan hnumber hdec
      by_cases hword : wordTag tag = true
      · rw [reencode_number hcan hnumber hword hw henc, if_pos hword]
      · rw [if_neg (mt wordTag_of_signedTag hword), if_neg hword]
        exact reencode_number_byte (hkind.resolve_left hword) hw htry henc
    · rw [if_neg hnumber]
      cases hcan with
      | int => exact absurd rfl hnumber
      | unsigned htype => exact absurd (by rcases htype with rfl | rfl | rfl <;> rfl) hnumber
      | string htype =>
        have htype : stringTag type = true := by simpa [stringTag] using htype
        obtain ⟨rfl, rfl⟩ := berValueDec_string htype hdec
        rw [if_neg (stringTag_apart htype).2]
        rcases hkind with hword | hstr | rfl
        · rw [if_pos hword]
          exact berValueEnc_word_eq_iff hword henc content
        · rw [if_neg (stringTag_apart hstr).1, if_neg (stringTag_apart hstr).2, iff_true,
            ← (berValueEnc_string hstr htry henc).2, List.take_left]
        · rw [if_neg (by decide), if_pos rfl]
          exact reencode_words htry henc
      | objid first h =>
        rw [berValueDec_objid (List.cons_ne_nil _ _), Option.some.injEq, Prod.mk.injEq] at hdec
        obtain ⟨rfl, rfl⟩ := hdec
        rw [if_pos rfl]
        rcases hkind with hword | hstr | rfl
        · rw [if_neg (objid_ne_of_wordTag hword), reencode_oid_number hword henc]
          simp [hword]
        · rw [if_neg (stringTag_apart hstr).2]
          exact iff_of_false (reencode_oid_string hstr htry henc) fun h => (stringTag_apart hstr).1 h.1
        · rw [if_pos rfl]
          exact reencode_objid first h htry henc hfit

end SmartSnmp
