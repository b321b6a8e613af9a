import SmartSnmp.Snmp.Codec
import SmartSnmp.Snmp.MsgIn

/-!
# Where the decoder stays inside of the datagram

`snmp_decode` does not know the length of the datagram. The condition `DatagramWithin` walks over
the fields in their order and asks that what has to be read of them is there; it is given in terms
of the bytes only. It holds exactly when the decoder reads nothing else and its counter of the
varbinds does not wrap.
-/

namespace SmartSnmp

open Bytes Reader

/-! ### The condition -/

/-- The bytes start with `lenLen` length octets for `len`, as 32 bits hold it. -/
def LengthAt (bs : List UInt8) (lenLen len : Nat) (body : List UInt8) : Prop :=
  ∃ b digits, bs = b :: (digits ++ body) ∧
    (b.toNat < 128 ∧ digits = [] ∧ lenLen = 1 ∧ len = b.toNat ∨
      128 ≤ b.toNat ∧ digits.length = b.toNat - 128 ∧ lenLen = 1 + digits.length ∧
        len = beNat digits % 2 ^ 32)

/-- There is a byte for the tag. If it is the expected one, the length octets are there, and `K`
holds of the length and of what follows. -/
def HeaderWithin (tag : UInt8) (K : Nat → List UInt8 → Prop) (bs : List UInt8) : Prop :=
  ∃ b rest, bs = b :: rest ∧
    (b = tag → ∃ lenLen len body, LengthAt rest lenLen len body ∧ K len body)

/-- An integer: its content is there, and it has at most four bytes unless it is positive. -/
def IntWithin (K : List UInt8 → List UInt8 → Prop) : List UInt8 → Prop :=
  HeaderWithin asn1TagInt fun len body =>
    len ≤ body.length ∧ (4 < len → negative (body.take len) = false) ∧
      K (body.take len) (body.drop len)

/-- A string that is refused if it is longer than `max`; else its content is there. The longest
length of 32 bits passes the check. -/
def StrWithin (max : Nat) (K : List UInt8 → Prop) : List UInt8 → Prop :=
  HeaderWithin asn1TagOctstr fun len body =>
    len ≠ 2 ^ 32 - 1 ∧ (len ≤ max → len ≤ body.length ∧ K (body.drop len))

/-- The flags: at most four bytes, which are there. -/
def FlagsWithin (K : List UInt8 → Prop) : List UInt8 → Prop :=
  HeaderWithin asn1TagOctstr fun len body => len ≤ 4 ∧ len ≤ body.length ∧ K (body.drop len)

/-- A varbind that ends with an error (`false`) or is taken (`true`), inside of the bytes. -/
inductive BindingWithin : Bool → List UInt8 → Prop where
  | oidTag {tag : UInt8} {rest : List UInt8} (htag : tag ≠ asn1TagObjid) :
      BindingWithin false (tag :: rest)
  | oidLen {rest body : List UInt8} {lenLen len : Nat} (hlen : LengthAt rest lenLen len body)
      (hbody : len ≤ body.length)
      (hcount : mibOidMaxLen < berValueDecTry (body.take len) asn1TagObjid) :
      BindingWithin false (asn1TagObjid :: rest)
  | valueLen {rest body rest' body' : List UInt8} {lenLen len lenLen' len' : Nat} {type : UInt8}
      (hlen : LengthAt rest lenLen len body) (hbody : len ≤ body.length)
      (hcount : berValueDecTry (body.take len) asn1TagObjid ≤ mibOidMaxLen)
      (hvalue : body.drop len = type :: rest') (hlen' : LengthAt rest' lenLen' len' body')
      (hlong : mibValueMaxLen < len') : BindingWithin false (asn1TagObjid :: rest)
  | taken {rest body rest' body' : List UInt8} {lenLen len lenLen' len' : Nat} {type : UInt8}
      (hlen : LengthAt rest lenLen len body) (hbody : len ≤ body.length)
      (hcount : berValueDecTry (body.take len) asn1TagObjid ≤ mibOidMaxLen)
      (hvalue : body.drop len = type :: rest') (hlen' : LengthAt rest' lenLen' len' body')
      (hshort : len' ≤ mibValueMaxLen) (hbody' : len' ≤ body'.length) :
      BindingWithin true (asn1TagObjid :: rest)

/-- The varbinds of a list of `n` bytes. One that is taken is not longer than what is left of the
list, and the next one starts where it ends. -/
inductive VarBindsWithin : Nat → List UInt8 → Prop where
  | done (bs : List UInt8) : VarBindsWithin 0 bs
  | seqTag {n : Nat} {tag : UInt8} {rest : List UInt8} (htag : tag ≠ asn1TagSeq) :
      VarBindsWithin (n + 1) (tag :: rest)
  | refused {n lenLen len : Nat} {rest body : List UInt8} (hlen : LengthAt rest lenLen len body)
      (h : BindingWithin false body) : VarBindsWithin (n + 1) (asn1TagSeq :: rest)
  | taken {n lenLen len : Nat} {rest body : List UInt8} (hlen : LengthAt rest lenLen len body)
      (h : BindingWithin true body) (hle : (1 + lenLen + len) % 2 ^ 32 ≤ n + 1)
      (hnext : VarBindsWithin (n + 1 - (1 + lenLen + len) % 2 ^ 32) (body.drop len)) :
      VarBindsWithin (n + 1) (asn1TagSeq :: rest)

/-- The header of the PDU. -/
def PduWithin (K : List UInt8 → Prop) (bs : List UInt8) : Prop :=
  ∃ type rest, bs = type :: rest ∧ ∃ lenLen len body, LengthAt rest lenLen len body ∧
    IntWithin (fun _ => IntWithin fun _ => IntWithin fun _ => K) body

/-- The fields between the version and the context name from version 3 on. -/
def V3Within (K : List UInt8 → Prop) : List UInt8 → Prop :=
  HeaderWithin asn1TagSeq fun _ => IntWithin fun _ => IntWithin fun _ => FlagsWithin <|
    IntWithin fun _ => HeaderWithin asn1TagOctstr fun _ => HeaderWithin asn1TagSeq fun _ =>
    StrWithin 32 <| IntWithin fun _ => IntWithin fun _ => StrWithin 40 <| StrWithin 40 <|
    StrWithin 40 <| HeaderWithin asn1TagSeq fun _ => StrWithin 32 K

/-- The value of 32 bits that the decoder takes an integer for. -/
def intValue (content : List UInt8) : Int := (beInt content).bmod (2 ^ 32)

/-- A message up to the varbinds. -/
def MessageWithin (K : List UInt8 → Prop) (bs : List UInt8) : Prop :=
  ∃ lenLen len body, LengthAt (bs.drop 1) lenLen len body ∧
    IntWithin (fun version rest =>
      if 3 ≤ intValue version then V3Within (StrWithin 40 (PduWithin K)) rest
      else StrWithin 40 (PduWithin K) rest) body

/-- The whole datagram. -/
def DatagramWithin : List UInt8 → Prop := MessageWithin (HeaderWithin asn1TagSeq VarBindsWithin)

/-! ### Fields -/

section Fields

variable {bs : List UInt8}

lemma and_0x7f_of_highBit {b : UInt8} (h : 128 ≤ b.toNat) :
    (b &&& 0x7f).toNat = b.toNat - 128 := by
  have := b.toNat_lt
  rw [and_0x7f_toNat]
  omega

lemma inside_berLengthDec {ε : Type} {K : Nat × Nat → List UInt8 → Prop} :
    Inside (berLengthDec (ε := ε)) K bs ↔
      ∃ lenLen len body, LengthAt bs lenLen len body ∧ K (lenLen, len) body := by
  unfold berLengthDec
  simp only [inside_bind, inside_byte]
  constructor
  · rintro ⟨b, rest, rfl, h⟩
    cases hb : highBit b with
    | false =>
      have hlow : b.toNat < 128 := not_le.mp fun hle => by simp [(highBit_iff b).mpr hle] at hb
      exact ⟨1, b.toNat, rest, ⟨b, [], rfl, .inl ⟨hlow, rfl, rfl, rfl⟩⟩, by simpa [hb] using h⟩
    | true =>
      have hhigh := (highBit_iff b).mp hb
      simp only [hb, if_true, inside_bind, inside_bytes, inside_pure, toNat_shiftIn,
        and_0x7f_of_highBit hhigh] at h
      refine ⟨1 + (b.toNat - 128), _, rest.drop (b.toNat - 128), ⟨b, rest.take (b.toNat - 128), by simp,
        .inr ⟨hhigh, ?_, ?_, rfl⟩⟩, ?_⟩
      · exact List.length_take_of_le h.1
      · rw [List.length_take_of_le h.1]
      · simpa using h.2
  · rintro ⟨lenLen, len, body, ⟨b, digits, rfl, h | h⟩, hK⟩
    · obtain ⟨hlow, rfl, rfl, rfl⟩ := h
      have hb : highBit b = false := by
        rw [Bool.eq_false_iff, Ne, highBit_iff]
        omega
      exact ⟨b, body, rfl, by simpa [hb] using hK⟩
    · obtain ⟨hhigh, hdigits, rfl, rfl⟩ := h
      refine ⟨b, digits ++ body, rfl, ?_⟩
      simp only [(highBit_iff b).mpr hhigh, if_true, inside_bind, inside_bytes, inside_pure,
        toNat_shiftIn, and_0x7f_of_highBit hhigh, ← hdigits]
      simpa using hK

lemma inside_header {tag : UInt8} {err : SnmpErrCode} {K : Nat → List UInt8 → Prop} :
    Inside (header tag err) K bs ↔ HeaderWithin tag K bs := by
  simp only [header, expectTag, inside_bind, inside_byte, inside_failIf, inside_berLengthDec,
    inside_pure, not_not, HeaderWithin]

lemma LengthAt.lt {lenLen len : Nat} {body : List UInt8} (h : LengthAt bs lenLen len body) :
    len < 2 ^ 32 := by
  obtain ⟨b, digits, _, ⟨_, _, _, rfl⟩ | ⟨_, _, _, rfl⟩⟩ := h
  · exact b.toNat_lt.trans (by norm_num)
  · exact Nat.mod_lt _ (by norm_num)

lemma HeaderWithin.congr {tag : UInt8} {K K' : Nat → List UInt8 → Prop}
    (h : ∀ len body, len < 2 ^ 32 → (K len body ↔ K' len body)) :
    HeaderWithin tag K bs ↔ HeaderWithin tag K' bs := by
  refine exists₂_congr fun b rest => and_congr_right fun _ => imp_congr_right fun _ =>
    exists₃_congr fun lenLen len body => and_congr_right fun hlen => h len body hlen.lt

/-- `ber_int_dec` is undefined for a negative number of more than four bytes. -/
lemma berIntDec_eq_none_iff {content : List UInt8} :
    berIntDec content = none ↔ 4 < content.length ∧ negative content = true := by
  cases content with
  | nil => simp [berIntDec, highBit]
  | cons b bs =>
    rw [← highBit_eq_negative]
    by_cases hb : highBit b = true
    · by_cases h4 : (b :: bs).length ≤ 4
      · simp only [berIntDec, List.headD_cons, hb, if_true, if_pos h4, reduceCtorEq, and_true,
          false_iff]
        omega
      · simp only [berIntDec, List.headD_cons, hb, if_true, if_neg h4, and_true, true_iff]
        omega
    · simp [berIntDec, hb]

/-- `ber_int_dec` gives the low 32 bits of the number. -/
lemma toInt_berIntDec {content : List UInt8} {v : Int32} (h : berIntDec content = some v) :
    v.toInt = intValue content := by
  rw [intValue, Int.bmod_def]
  by_cases hneg : negative content = true
  · have h4 : content.length ≤ 4 := not_lt.mp fun hlt => by
      simp [berIntDec_eq_none_iff.mpr ⟨hlt, hneg⟩] at h
    have hne : content ≠ [] := by
      rintro rfl
      simp [negative] at hneg
    obtain ⟨v', hv', hval⟩ := berIntDec_eq hne h4
    obtain rfl : v = v' := Option.some.inj (h.symm.trans hv')
    have hrange := beInt_range content
    have hpow : (256 ^ content.length : Int) ≤ 256 ^ 4 := pow_le_pow_right₀ (by norm_num) h4
    norm_num at hpow ⊢
    rw [hval]
    omega
  · have hneg : negative content = false := by simpa using hneg
    rw [beInt_of_not_negative hneg]
    have hword : v.toInt = (shiftIn 0 content).toInt32.toInt := by
      cases content with
      | nil => simpa [berIntDec, highBit, shiftIn] using congrArg (Option.map Int32.toInt) h.symm
      | cons b bs =>
        have hb : highBit b = false := by rw [highBit_eq_negative b bs, hneg]
        by_cases h0 : b = 0
        · subst h0
          obtain rfl : _ = v := by simpa [berIntDec, hb] using h
          rfl
        · obtain rfl : _ = v := by simpa [berIntDec, hb, h0] using h
          rfl
    rw [hword, toInt_toInt32, toNat_shiftIn]
    simp only [UInt32.toNat_zero, Nat.zero_mul, Nat.zero_add]
    split_ifs <;> omega

lemma inside_intField {err : SnmpErrCode} {K : Nat × Int32 → List UInt8 → Prop} :
    Inside (intField err) K bs ↔ IntWithin (fun content rest =>
      ∀ v : Int32, v.toInt = intValue content → K (content.length, v) rest) bs := by
  simp only [intField, inside_bind, inside_header, inside_bytes, IntWithin]
  refine HeaderWithin.congr fun len body _ => and_congr_right fun hle => ?_
  have hlen : (body.take len).length = len := List.length_take_of_le hle
  generalize body.take len = content at hlen
  subst hlen
  by_cases hne : content = []
  · subst hne
    simp only [if_true, inside_pure]
    constructor
    · intro h
      refine ⟨by simp, fun v hv => ?_⟩
      obtain rfl : v = 0 := Int32.toInt_inj.mp hv
      exact h
    · exact fun h => h.2 0 rfl
  · simp only [hne, if_false]
    cases hdec : berIntDec content with
    | none =>
      obtain ⟨h4, hneg⟩ := berIntDec_eq_none_iff.mp hdec
      refine iff_of_false inside_crash fun h => ?_
      simp [h.1 h4] at hneg
    | some v =>
      have hdef : 4 < content.length → negative content = false := fun h4 => by
        by_contra hneg
        simp [berIntDec_eq_none_iff.mpr ⟨h4, by simpa using hneg⟩] at hdec
      simp only [inside_pure]
      constructor
      · intro h
        refine ⟨hdef, fun v' hv' => ?_⟩
        obtain rfl : v' = v := Int32.toInt_inj.mp (hv'.trans (toInt_berIntDec hdec).symm)
        exact h
      · exact fun h => h.2 v (toInt_berIntDec hdec)

lemma inside_strField {max : Nat} {err errLen : SnmpErrCode} {K : List UInt8 → Prop}
    (hmax : max < 2 ^ 31) :
    Inside (strField (max + 1) err errLen) (fun _ => K) bs ↔ StrWithin max K bs := by
  simp only [strField, inside_bind, inside_header, inside_failIf, StrWithin]
  apply HeaderWithin.congr
  intro len body hlen
  by_cases hwrap : len = 2 ^ 32 - 1
  · refine iff_of_false (fun h => ?_) fun h => h.1 hwrap
    have hlong : max + 1 < len := by omega
    have := h (by simp [hwrap])
    rw [if_pos hlong] at this
    exact inside_crash this
  · by_cases hle : len ≤ max
    · have hcheck : ¬ max + 1 < (len + 1) % 2 ^ 32 := by omega
      have hshort : ¬ max + 1 < len := by omega
      simp only [hcheck, hshort, hwrap, hle, not_false_eq_true, if_false, forall_const, inside_bytes,
        ne_eq, true_and]
    · have hcheck : max + 1 < (len + 1) % 2 ^ 32 := by omega
      simp only [hcheck, hwrap, hle, not_true_eq_false, not_false_eq_true, IsEmpty.forall_iff, ne_eq,
        and_self]

lemma inside_flagsField {err : SnmpErrCode} {K : List UInt8 → Prop} :
    Inside (flagsField err) (fun _ => K) bs ↔ FlagsWithin K bs := by
  simp only [flagsField, inside_bind, inside_header, FlagsWithin]
  apply HeaderWithin.congr
  intro len body _
  by_cases h4 : 4 < len
  · rw [if_pos h4]
    exact iff_of_false inside_crash fun h => absurd h.1 (by omega)
  · rw [if_neg h4, inside_bytes]
    simp [Nat.le_of_not_lt h4]

end Fields

/-! ### Parts of a message -/

section Parts

variable {bs : List UInt8} {K : List UInt8 → Prop}

/-- A header whose length does not matter. -/
lemma inside_header_const {tag : UInt8} {err : SnmpErrCode} {L : Nat → List UInt8 → Prop}
    (h : ∀ len rest, L len rest ↔ K rest) :
    Inside (header tag err) L bs ↔ HeaderWithin tag (fun _ => K) bs :=
  (inside_congr h).trans inside_header

/-- An integer whose value does not matter. -/
lemma inside_intField_const {err : SnmpErrCode} {L : Nat × Int32 → List UInt8 → Prop}
    (h : ∀ x rest, L x rest ↔ K rest) :
    Inside (intField err) L bs ↔ IntWithin (fun _ => K) bs := by
  rw [inside_congr h, inside_intField]
  refine HeaderWithin.congr fun len body _ => and_congr_right fun _ => and_congr_right fun _ => ?_
  exact ⟨fun hL => hL (Int32.ofInt (beInt (body.take len))) Int32.toInt_ofInt, fun hL _ _ => hL⟩

lemma inside_strField_const {max : Nat} {err errLen : SnmpErrCode}
    {L : List UInt8 → List UInt8 → Prop} (hmax : max < 2 ^ 31) (h : ∀ s rest, L s rest ↔ K rest) :
    Inside (strField (max + 1) err errLen) L bs ↔ StrWithin max K bs :=
  (inside_congr h).trans (inside_strField hmax)

lemma inside_flagsField_const {err : SnmpErrCode} {L : List UInt8 → List UInt8 → Prop}
    (h : ∀ s rest, L s rest ↔ K rest) : Inside (flagsField err) L bs ↔ FlagsWithin K bs :=
  (inside_congr h).trans inside_flagsField

lemma inside_v3HeaderDecode {sdg : SnmpDatagram} {L : SnmpDatagram → List UInt8 → Prop}
    (h : ∀ sdg rest, L sdg rest ↔ K rest) :
    Inside (v3HeaderDecode sdg) L bs ↔ V3Within K bs := by
  simp only [v3HeaderDecode, globalDataDecode, securityParameterDecode, inside_bind, inside_pure]
  refine inside_header_const fun _ _ => inside_intField_const fun _ _ =>
    inside_intField_const fun _ _ => inside_flagsField_const fun _ _ =>
    inside_intField_const fun _ _ => inside_header_const fun _ _ => inside_header_const fun _ _ =>
    inside_strField_const (by norm_num) fun _ _ => inside_intField_const fun _ _ =>
    inside_intField_const fun _ _ => inside_strField_const (by norm_num) fun _ _ =>
    inside_strField_const (by norm_num) fun _ _ => inside_strField_const (by norm_num) fun _ _ =>
    inside_header_const fun _ _ => inside_strField_const (by norm_num) fun _ _ => h _ _

lemma inside_pduHdrParse {sdg : SnmpDatagram} {L : SnmpDatagram → List UInt8 → Prop}
    (h : ∀ sdg rest, L sdg rest ↔ K rest) : Inside (pduHdrParse sdg) L bs ↔ PduWithin K bs := by
  simp only [pduHdrParse, inside_bind, inside_byte, inside_berLengthDec, inside_pure, PduWithin]
  refine exists₂_congr fun type rest => and_congr_right fun _ => exists₃_congr fun lenLen len body =>
    and_congr_right fun _ => ?_
  exact inside_intField_const fun _ _ => inside_intField_const fun _ _ =>
    inside_intField_const fun _ _ => h _ _

lemma inside_messageDecode {L : SnmpDatagram → List UInt8 → Prop}
    (h : ∀ sdg rest, L sdg rest ↔ K rest) : Inside messageDecode L bs ↔ MessageWithin K bs := by
  have htail : ∀ (sdg : SnmpDatagram) (rest : List UInt8),
      Inside (strField 41 .contextName .contextNameLen) (fun contextName rest =>
        Inside (pduHdrParse { sdg with contextName }) L rest) rest ↔
      StrWithin 40 (PduWithin K) rest := fun _ _ =>
    inside_strField_const (by norm_num) fun _ _ => inside_pduHdrParse h
  simp only [messageDecode, inside_bind, inside_skip, inside_berLengthDec, MessageWithin]
  refine exists₃_congr fun lenLen len body => and_congr_right fun _ => ?_
  rw [inside_intField]
  refine HeaderWithin.congr fun len body _ => and_congr_right fun _ => and_congr_right fun _ => ?_
  have hv3 : ∀ sdg : SnmpDatagram, sdg.version.toInt = intValue (body.take len) →
      (Inside (v3Decode sdg) (fun sdg rest => Inside (strField 41 .contextName .contextNameLen)
          (fun contextName rest => Inside (pduHdrParse { sdg with contextName }) L rest) rest)
        (body.drop len) ↔
      if 3 ≤ intValue (body.take len) then V3Within (StrWithin 40 (PduWithin K)) (body.drop len)
      else StrWithin 40 (PduWithin K) (body.drop len)) := by
    intro sdg hsdg
    have hle : 3 ≤ sdg.version ↔ 3 ≤ intValue (body.take len) := by
      rw [Int32.le_iff_toInt_le, hsdg]
      rfl
    by_cases h3 : 3 ≤ sdg.version
    · rw [v3Decode, if_pos h3, if_pos (hle.mp h3)]
      exact inside_v3HeaderDecode htail
    · rw [v3Decode, if_neg h3, if_neg (mt hle.mpr h3)]
      exact htail sdg _
  constructor
  · intro hall
    exact (hv3 _ Int32.toInt_ofInt).mp (hall (Int32.ofInt (beInt (body.take len))) Int32.toInt_ofInt)
  · intro hif v hv
    exact (hv3 _ hv).mpr hif

end Parts

/-! ### Varbinds -/

section VarBinds

variable {bs : List UInt8}

/-- `var_bind_alloc` ends inside of the bytes exactly in the cases of `BindingWithin`. -/
lemma inside_varBindAlloc {P : Prop} :
    Inside varBindAlloc (fun _ _ => P) bs ↔ BindingWithin false bs ∨ BindingWithin true bs ∧ P := by
  simp only [varBindAlloc, inside_bind, inside_header, inside_bytes, inside_failIf, inside_byte,
    inside_berLengthDec, inside_pure, HeaderWithin]
  constructor
  · rintro ⟨tag, rest, rfl, h⟩
    by_cases htag : tag = asn1TagObjid
    · obtain ⟨lenLen, len, body, hlen, hbody, hvalue⟩ := h htag
      subst htag
      by_cases hcount : mibOidMaxLen < berValueDecTry (body.take len) asn1TagObjid
      · exact .inl (.oidLen hlen hbody hcount)
      · obtain ⟨type, rest', hvalue, lenLen', len', body', hlen', hP⟩ := hvalue hcount
        by_cases hlong : mibValueMaxLen < len'
        · exact .inl (.valueLen hlen hbody (not_lt.mp hcount) hvalue hlen' hlong)
        · obtain ⟨hbody', hP⟩ := hP hlong
          exact .inr ⟨.taken hlen hbody (not_lt.mp hcount) hvalue hlen' (not_lt.mp hlong) hbody', hP⟩
    · exact .inl (.oidTag htag)
  · rintro (h | ⟨h, hP⟩)
    · cases h with
      | oidTag htag => exact ⟨_, _, rfl, fun h => absurd h htag⟩
      | oidLen hlen hbody hcount =>
        exact ⟨_, _, rfl, fun _ => ⟨_, _, _, hlen, hbody, fun h => absurd hcount h⟩⟩
      | valueLen hlen hbody hcount hvalue hlen' hlong =>
        exact ⟨_, _, rfl, fun _ => ⟨_, _, _, hlen, hbody, fun _ => ⟨_, _, hvalue, _, _, _, hlen',
          fun h => absurd hlong h⟩⟩⟩
    · cases h with
      | taken hlen hbody hcount hvalue hlen' hshort hbody' =>
        exact ⟨_, _, rfl, fun _ => ⟨_, _, _, hlen, hbody, fun _ => ⟨_, _, hvalue, _, _, _, hlen',
          fun _ => ⟨hbody', hP⟩⟩⟩⟩

lemma inside_varBindStep {K : Nat → List UInt8 → Prop} :
    Inside varBindStep (fun x => K x.2) bs ↔ ∃ tag rest, bs = tag :: rest ∧ (tag = asn1TagSeq →
      ∃ lenLen len body, LengthAt rest lenLen len body ∧ (BindingWithin false body ∨
        BindingWithin true body ∧ K ((1 + lenLen + len) % 2 ^ 32) (body.drop len))) := by
  simp only [varBindStep, expectTag, inside_bind, inside_byte, inside_failIf, inside_berLengthDec,
    inside_peek, inside_skip, inside_pure, inside_varBindAlloc, not_not]

/-- The loop reaches its head with `m` bytes of the list left and the cursor at `bs'`. -/
inductive LoopHead : Nat → List UInt8 → Nat → List UInt8 → Prop where
  | start (n : Nat) (bs : List UInt8) : LoopHead n bs n bs
  | next {n m used : Nat} {bs rest bs' : List UInt8} {vb : VarBind} (hn : n ≠ 0)
      (hstep : varBindStep bs = .ok (.ok ((vb, used), rest)))
      (h : LoopHead (countDown n used) rest m bs') : LoopHead n bs m bs'

/-- No subtraction of the loop takes more than what `vb_list_len` holds. -/
def NoWrap (n : Nat) (bs : List UInt8) : Prop :=
  ∀ ⦃m bs' vb used rest⦄, LoopHead n bs m bs' → m ≠ 0 →
    varBindStep bs' = .ok (.ok ((vb, used), rest)) → used ≤ m

lemma berLengthDec_eq_ok {ε : Type} {lenLen len : Nat} {body : List UInt8}
    (h : LengthAt bs lenLen len body) :
    (berLengthDec (ε := ε)) bs = .ok (.ok ((lenLen, len), body)) := by
  have hin : Inside (berLengthDec (ε := ε)) (fun x rest => x = (lenLen, len) ∧ rest = body) bs :=
    inside_berLengthDec.mpr ⟨_, _, _, h, rfl, rfl⟩
  obtain ⟨_, _, hrun, rfl, rfl⟩ := hin.exists_of_not fun hfail => by
    obtain ⟨_, _, _, _, hfalse⟩ := inside_berLengthDec.mp hfail
    exact hfalse
  exact hrun

lemma header_eq_ok {tag : UInt8} {err : SnmpErrCode} {lenLen len : Nat} {body : List UInt8}
    (h : LengthAt bs lenLen len body) : header tag err (tag :: bs) = .ok (.ok (len, body)) := by
  simp [header, expectTag, bind_apply, failIf, berLengthDec_eq_ok h]

lemma varBindAlloc_eq_ok (h : BindingWithin true bs) :
    ∃ vb rest, varBindAlloc bs = .ok (.ok (vb, rest)) := by
  cases h with
  | taken hlen hbody hcount hvalue hlen' hshort hbody' =>
    simp [varBindAlloc, bind_apply, header_eq_ok hlen, bytes, hbody, failIf, not_lt.mpr hcount,
      hvalue, berLengthDec_eq_ok hlen', not_lt.mpr hshort, hbody']

/-- A varbind that is taken. -/
lemma varBindStep_eq_ok {lenLen len : Nat} {body : List UInt8} (hlen : LengthAt bs lenLen len body)
    (h : BindingWithin true body) : ∃ vb, varBindStep (asn1TagSeq :: bs) =
      .ok (.ok ((vb, (1 + lenLen + len) % 2 ^ 32), body.drop len)) := by
  obtain ⟨vb, rest, halloc⟩ := varBindAlloc_eq_ok h
  refine ⟨vb, ?_⟩
  simp [varBindStep, expectTag, bind_apply, failIf, berLengthDec_eq_ok hlen, peek, halloc]

lemma forward_berLengthDec {ε : Type} : Forward (berLengthDec (ε := ε)) := by
  intro bs x rest h
  refine (Forward.byte_bind (fun b => ?_) h).le
  split_ifs
  · exact (forward_bytes _).bind fun _ => forward_pure _
  · exact forward_pure _

/-- An iteration moves the cursor. -/
lemma varBindStep_length_lt {x : VarBind × Nat} {rest : List UInt8}
    (h : varBindStep bs = .ok (.ok (x, rest))) : rest.length < bs.length := by
  obtain ⟨_, mid, h1, h2⟩ := bind_eq_ok h
  have hlt : mid.length < bs.length := Forward.byte_bind (fun b => forward_failIf _ _) h1
  refine lt_of_le_of_lt (Forward.bind forward_berLengthDec (fun x => ?_) h2) hlt
  exact (forward_peek _).bind fun vb => (forward_skip _).bind fun _ => forward_pure _

lemma countDown_of_le {n used : Nat} (hn : n < 2 ^ 32) (h : used ≤ n) :
    countDown n used = n - used := by
  unfold countDown
  omega

lemma inside_varBindLoop_succ {n fuel : Nat} :
    Inside (varBindLoop (fuel + 1) (n + 1)) (fun _ _ => True) bs ↔
      Inside varBindStep (fun x =>
        Inside (varBindLoop fuel (countDown (n + 1) x.2)) fun _ _ => True) bs := by
  rw [varBindLoop, inside_bind]
  apply inside_congr
  intro x rest
  show Inside (varBindLoop fuel (countDown (n + 1) x.2) >>= _) _ _ ↔ _
  rw [inside_bind]
  rfl

lemma noWrap_zero (bs : List UInt8) : NoWrap 0 bs := by
  intro m bs' vb used rest hhead hm _
  cases hhead with
  | start => exact absurd rfl hm
  | next hn _ _ => exact absurd rfl hn

/-- A step that fails ends the loop. -/
lemma noWrap_of_fails {n : Nat} (h : Inside varBindStep (fun _ _ => False) bs) : NoWrap n bs := by
  intro m bs' vb used rest hhead _ hstep
  cases hhead with
  | start => exact ((inside_of_eq_ok hstep).mp h).elim
  | next _ hstep' _ => exact ((inside_of_eq_ok hstep').mp h).elim

/-- A step that returns is followed by the rest of the loop. -/
lemma noWrap_of_step {n used : Nat} {vb : VarBind} {rest : List UInt8} (hn : n ≠ 0)
    (hstep : varBindStep bs = .ok (.ok ((vb, used), rest))) :
    NoWrap n bs ↔ used ≤ n ∧ NoWrap (countDown n used) rest := by
  constructor
  · intro h
    refine ⟨h (.start n bs) hn hstep, ?_⟩
    intro m bs' vb' used' rest' hhead hm hstep'
    exact h (.next hn hstep hhead) hm hstep'
  · rintro ⟨hle, h⟩ m bs' vb' used' rest' hhead hm hstep'
    cases hhead with
    | start =>
      obtain ⟨⟨rfl, rfl⟩, rfl⟩ : (vb = vb' ∧ used = used') ∧ rest = rest' := by
        simpa [hstep] using hstep'
      exact hle
    | next _ hstep'' hhead =>
      obtain ⟨⟨rfl, rfl⟩, rfl⟩ : (vb = _ ∧ used = _) ∧ rest = _ := by
        simpa [hstep] using hstep''
      exact h hhead hm hstep'

/-- The loop ends inside of the bytes without a wrap exactly in the cases of `VarBindsWithin`. -/
lemma varBindsWithin_iff {n fuel : Nat} (hn : n < 2 ^ 32) (hfuel : bs.length < fuel) :
    Inside (varBindLoop fuel n) (fun _ _ => True) bs ∧ NoWrap n bs ↔ VarBindsWithin n bs := by
  constructor
  · rintro ⟨hin, hwrap⟩
    induction fuel generalizing n bs with
    | zero => omega
    | succ fuel ih =>
      cases n with
      | zero => exact .done bs
      | succ n =>
        rw [inside_varBindLoop_succ] at hin
        obtain ⟨tag, rest, rfl, htag⟩ := (inside_varBindStep (K := fun used =>
          Inside (varBindLoop fuel (countDown (n + 1) used)) fun _ _ => True)).mp hin
        by_cases hseq : tag = asn1TagSeq
        · obtain ⟨lenLen, len, body, hlen, hbinding | ⟨hbinding, hloop⟩⟩ := htag hseq
          · rw [hseq]
            exact .refused hlen hbinding
          · subst hseq
            obtain ⟨vb, hstep⟩ := varBindStep_eq_ok hlen hbinding
            have hlt := varBindStep_length_lt hstep
            obtain ⟨hle, hwrap⟩ := (noWrap_of_step (by omega) hstep).mp hwrap
            rw [countDown_of_le hn hle] at hloop hwrap
            exact .taken hlen hbinding hle (ih (by omega) (by omega) hloop hwrap)
        · exact .seqTag hseq
  · intro h
    induction h generalizing fuel with
    | done bs => exact ⟨by cases fuel <;> trivial, noWrap_zero bs⟩
    | @seqTag n tag rest htag =>
      obtain ⟨fuel, rfl⟩ := Nat.exists_eq_succ_of_ne_zero (Nat.ne_zero_of_lt hfuel)
      rw [inside_varBindLoop_succ]
      have hfail : ∀ K : Nat → List UInt8 → Prop,
          Inside varBindStep (fun x => K x.2) (tag :: rest) := fun K =>
        inside_varBindStep.mpr ⟨_, _, rfl, fun h => absurd h htag⟩
      exact ⟨hfail fun used => Inside (varBindLoop fuel (countDown (n + 1) used)) fun _ _ => True,
        noWrap_of_fails (hfail fun _ _ => False)⟩
    | @refused n lenLen len rest body hlen hbinding =>
      obtain ⟨fuel, rfl⟩ := Nat.exists_eq_succ_of_ne_zero (Nat.ne_zero_of_lt hfuel)
      rw [inside_varBindLoop_succ]
      have hfail : ∀ K : Nat → List UInt8 → Prop,
          Inside varBindStep (fun x => K x.2) (asn1TagSeq :: rest) := fun K =>
        inside_varBindStep.mpr ⟨_, _, rfl, fun _ => ⟨_, _, _, hlen, .inl hbinding⟩⟩
      exact ⟨hfail fun used => Inside (varBindLoop fuel (countDown (n + 1) used)) fun _ _ => True,
        noWrap_of_fails (hfail fun _ _ => False)⟩
    | @taken n lenLen len rest body hlen hbinding hle _ ih =>
      obtain ⟨fuel, rfl⟩ := Nat.exists_eq_succ_of_ne_zero (Nat.ne_zero_of_lt hfuel)
      obtain ⟨vb, hstep⟩ := varBindStep_eq_ok hlen hbinding
      have hlt := varBindStep_length_lt hstep
      rw [inside_varBindLoop_succ, inside_of_eq_ok hstep, noWrap_of_step (by omega) hstep,
        countDown_of_le hn hle]
      obtain ⟨hin, hwrap⟩ := ih (by omega) (show _ < fuel by omega)
      exact ⟨hin, hle, hwrap⟩

/-- More fuel does not change a result. -/
lemma varBindLoop_mono {n fuel fuel' : Nat} {r : Except SnmpErrCode ((List VarBind × Nat) × List UInt8)}
    (h : varBindLoop fuel n bs = .ok r) (hle : fuel ≤ fuel') : varBindLoop fuel' n bs = .ok r := by
  induction fuel generalizing n bs fuel' r with
  | zero =>
    cases n with
    | zero => cases fuel' <;> exact h
    | succ n => simp [varBindLoop, outOfFuel] at h
  | succ fuel ih =>
    obtain ⟨fuel', rfl⟩ := Nat.exists_eq_succ_of_ne_zero (by omega : fuel' ≠ 0)
    cases n with
    | zero => exact h
    | succ n =>
      rw [varBindLoop, bind_apply] at h ⊢
      rcases hstep : varBindStep bs with (e | ⟨⟨vb, used⟩, rest⟩) | _ | _ <;> rw [hstep] at h
      · exact h
      · simp only [bind_apply] at h ⊢
        rcases hloop : varBindLoop fuel (countDown (n + 1) used) rest with r' | _ | _
        · rw [hloop] at h
          rw [ih hloop (by omega)]
          exact h
        · simp [hloop] at h
        · simp [hloop] at h
      · simp at h
      · simp at h

end VarBinds

/-! ### The whole datagram -/

section Local

lemma local_berLengthDec {ε : Type} : Local (berLengthDec (ε := ε)) :=
  local_byte.bind fun _ => local_ite ((local_bytes _).bind fun _ => local_pure _) (local_pure _)

lemma local_expectTag (tag : UInt8) (err : SnmpErrCode) : Local (expectTag tag err) :=
  local_byte.bind fun _ => local_failIf _ _

lemma local_header (tag : UInt8) (err : SnmpErrCode) : Local (header tag err) :=
  (local_expectTag tag err).bind fun _ => local_berLengthDec.bind fun _ => local_pure _

lemma local_intField (err : SnmpErrCode) : Local (intField err) := by
  refine (local_header _ _).bind fun len => (local_bytes _).bind fun content => ?_
  refine local_ite (local_pure _) ?_
  cases berIntDec content with
  | none => exact local_crash
  | some v => exact local_pure _

lemma local_strField (size : Nat) (err errLen : SnmpErrCode) : Local (strField size err errLen) :=
  (local_header _ _).bind fun _ => (local_failIf _ _).bind fun _ => local_ite local_crash (local_bytes _)

lemma local_flagsField (err : SnmpErrCode) : Local (flagsField err) :=
  (local_header _ _).bind fun _ => local_ite local_crash (local_bytes _)

lemma local_v3Decode (sdg : SnmpDatagram) : Local (v3Decode sdg) := by
  refine local_ite ?_ (local_pure _)
  refine (local_header _ _).bind fun _ => (Local.bind ?_ fun sdg => Local.bind ?_ fun sdg => ?_)
  · exact (local_intField _).bind fun _ => (local_intField _).bind fun _ =>
      (local_flagsField _).bind fun _ => (local_intField _).bind fun _ => local_pure _
  · exact (local_header _ _).bind fun _ => (local_header _ _).bind fun _ =>
      (local_strField _ _ _).bind fun _ => (local_intField _).bind fun _ =>
      (local_intField _).bind fun _ => (local_strField _ _ _).bind fun _ =>
      (local_strField _ _ _).bind fun _ => (local_strField _ _ _).bind fun _ => local_pure _
  · exact (local_header _ _).bind fun _ => (local_strField _ _ _).bind fun _ => local_pure _

lemma local_messageDecode : Local messageDecode :=
  (local_skip 1).bind fun _ => local_berLengthDec.bind fun _ => (local_intField _).bind fun _ =>
    (local_v3Decode _).bind fun _ => (local_strField _ _ _).bind fun _ =>
    local_byte.bind fun _ => local_berLengthDec.bind fun _ => (local_intField _).bind fun _ =>
    (local_intField _).bind fun _ => (local_intField _).bind fun _ => local_pure _

lemma local_varBindStep : Local varBindStep := by
  refine (local_expectTag _ _).bind fun _ => local_berLengthDec.bind fun _ =>
    (Local.peek ?_).bind fun _ => (local_skip _).bind fun _ => local_pure _
  exact (local_header _ _).bind fun _ => (local_bytes _).bind fun _ => (local_failIf _ _).bind fun _ =>
    local_byte.bind fun _ => local_berLengthDec.bind fun _ => (local_failIf _ _).bind fun _ =>
    (local_bytes _).bind fun _ => local_pure _

lemma local_varBindLoop (fuel n : Nat) : Local (varBindLoop fuel n) := by
  induction fuel generalizing n with
  | zero =>
    cases n with
    | zero => exact local_pure _
    | succ n => exact local_outOfFuel
  | succ fuel ih =>
    cases n with
    | zero => exact local_pure _
    | succ n => exact local_varBindStep.bind fun x => (ih _).bind fun _ => local_pure _

/-- The fuel grows with the input and has no influence. -/
lemma local_varBindLoop_remaining (n : Nat) :
    Local (withRemaining fun k => varBindLoop (k + 1) n) := by
  intro bs bs' h
  have hle := h.length_le
  obtain ⟨herr, hok⟩ := local_varBindLoop (bs.length + 1) n h
  constructor
  · intro e he
    exact varBindLoop_mono (herr e he) (by omega)
  · intro a rest ha
    obtain ⟨rest', hrest, ha'⟩ := hok a rest ha
    exact ⟨rest', hrest, varBindLoop_mono ha' (by omega)⟩

lemma local_datagramDecode : Local datagramDecode :=
  local_messageDecode.bind fun _ => (local_header _ _).bind fun _ =>
    (local_varBindLoop_remaining _).bind fun _ => local_pure _

end Local

/-- The decoder is bounded by the datagram: it ends and reads no byte behind it, its counter does
not wrap, and whatever lies behind the datagram has no influence. -/
structure Bounded (buffer : List UInt8) : Prop where
  inside : ∃ r, datagramDecode buffer = .ok r
  noWrap : ∀ ⦃sdg rest n body⦄, messageDecode buffer = .ok (.ok (sdg, rest)) →
    header asn1TagSeq .vbListSeq rest = .ok (.ok (n, body)) → NoWrap n body
  agree : ∀ ⦃b₁ b₂⦄, buffer <+: b₁ → buffer <+: b₂ → snmpDecode b₁ = snmpDecode b₂

lemma snmpDecode_of_append {buffer b : List UInt8} (h : ∃ r, datagramDecode buffer = .ok r)
    (hb : buffer <+: b) : snmpDecode b = snmpDecode buffer := by
  obtain ⟨herr, hok⟩ := local_datagramDecode hb
  obtain ⟨e | ⟨sdg, rest⟩, hr⟩ := h
  · simp [snmpDecode, hr, herr e hr]
  · obtain ⟨rest', _, hr'⟩ := hok sdg rest hr
    simp [snmpDecode, hr, hr']

/-- What the loop over the varbinds has to meet, with the reads before it. -/
lemma inside_messageDecode_noWrap {buffer : List UInt8} :
    Inside messageDecode (fun _ => Inside (header asn1TagSeq .vbListSeq) fun n body =>
        Inside (varBindLoop (body.length + 1) n) (fun _ _ => True) body ∧ NoWrap n body) buffer ↔
      DatagramWithin buffer := by
  refine inside_messageDecode fun _ rest => inside_header.trans ?_
  exact HeaderWithin.congr fun n body hn => varBindsWithin_iff hn (Nat.lt_succ_self _)

lemma inside_datagramDecode {buffer : List UInt8} :
    Inside datagramDecode (fun _ _ => True) buffer ↔ Inside messageDecode (fun _ =>
      Inside (header asn1TagSeq .vbListSeq) fun n body =>
        Inside (varBindLoop (body.length + 1) n) (fun _ _ => True) body) buffer := by
  rw [datagramDecode, inside_bind]
  apply inside_congr
  intro sdg rest
  rw [varBindParse, inside_bind]
  apply inside_congr
  intro n body
  rw [inside_bind]
  rfl

/-- The decoder is bounded by exactly those datagrams that hold what is read of them. -/
theorem snmpDecode_bounded_iff (buffer : List UInt8) :
    Bounded buffer ↔ DatagramWithin buffer := by
  rw [← inside_messageDecode_noWrap]
  constructor
  · intro h
    have hin := inside_datagramDecode.mp (inside_true_iff.mpr h.inside)
    apply hin.mono
    intro sdg rest hmsg hhdr
    exact hhdr.mono fun n body hn hloop => ⟨hloop, h.noWrap hmsg hn⟩
  · intro h
    have hin : ∃ r, datagramDecode buffer = .ok r := by
      refine inside_true_iff.mp (inside_datagramDecode.mpr ?_)
      exact h.mono fun _ _ _ hhdr => hhdr.mono fun _ _ _ hloop => hloop.1
    refine ⟨hin, fun sdg rest n body hmsg hn => ?_, fun b₁ b₂ h₁ h₂ => ?_⟩
    · exact ((inside_of_eq_ok hn).mp ((inside_of_eq_ok hmsg).mp h)).2
    · rw [snmpDecode_of_append hin h₁, snmpDecode_of_append hin h₂]

/-- A datagram that `snmpd_recv` hands on although it ends inside of the version. -/
theorem snmpDecode_unbounded : recvCheck 4 [0x30, 0x02, 0x02, 0x7f] = .ok (.ok ((), [0x02, 0x7f])) ∧
    ¬ Bounded [0x30, 0x02, 0x02, 0x7f] := by
  refine ⟨by decide, ?_⟩
  intro h
  obtain ⟨r, hr⟩ := h.inside
  have hcrash : datagramDecode [0x30, 0x02, 0x02, 0x7f] = .crash := by rfl
  simp [hcrash] at hr

end SmartSnmp
