import SmartSnmp.AgentX.MsgProc
import SmartSnmp.Snmp.SetResponse

/-!
# The buffers of response values

Each of the seven request functions has the length of a value computed by a dry run, allocates as many
bytes, and has the value encoded into them. The two functions for SET pass the number of bytes to the
encoder where the others pass the number of elements.
-/

namespace SmartSnmp

open Bytes

/-- The functions that answer requests, of both protocols. -/
inductive RequestFunction where
  | snmpGet
  | snmpGetnext
  | snmpSet
  | snmpBulkget
  | agentxGet
  | agentxGetnext
  | agentxSet
  deriving DecidableEq

namespace RequestFunction

/-- `val_len`, what is allocated for the value; `none` where the dry run does not end or reads past the
value. -/
def valLen (f : RequestFunction) (var : Variable) : Option Nat :=
  match f with
  | snmpGet | snmpGetnext | snmpSet | snmpBulkget => berValueEncTry var.value var.len var.tag
  | agentxGet | agentxGetnext | agentxSet => some (agentxValueEncTry var.len var.tag)

/-- The number of elements that is passed to the encoder. -/
def passes (f : RequestFunction) (var : Variable) (valLen : Nat) : Nat :=
  match f with
  | snmpSet | agentxSet => valLen
  | snmpGet | snmpGetnext | snmpBulkget | agentxGet | agentxGetnext => var.len

/-- What the encoder writes for `len` elements. -/
def enc (f : RequestFunction) (var : Variable) (len : Nat) : Option (List UInt8) :=
  match f with
  | snmpGet | snmpGetnext | snmpSet | snmpBulkget => berValueEnc var.value len var.tag
  | agentxGet | agentxGetnext | agentxSet => agentxValueEnc var.value len var.tag

/-- What the structure of a varbind leaves behind the start of its value. -/
def tail (f : RequestFunction) : Nat :=
  match f with
  | snmpGet | snmpGetnext | snmpSet | snmpBulkget => varBindTail
  | agentxGet | agentxGetnext | agentxSet => xVarBindTail

/-- The value of a varbind of the response, if it fits the varbind. -/
def value (f : RequestFunction) (var : Variable) : Option (List UInt8) :=
  (f.valLen var).bind fun valLen =>
    (f.enc var (f.passes var valLen)).filter fun value => value.length ≤ f.tail + valLen

/-- The types whose values are one number. BER has no 64-bit counters here. -/
def isNumber (f : RequestFunction) (type : UInt8) : Bool :=
  match f with
  | snmpGet | snmpGetnext | snmpSet | snmpBulkget => isWordType type
  | agentxGet | agentxGetnext | agentxSet => isWordType type || type = asn1TagCnt64

/-- How many elements the encoder reads: one number whatever is passed, else as many as are passed. -/
def reads (f : RequestFunction) (type : UInt8) (len : Nat) : Nat :=
  if f.isNumber type then 1
  else if type = asn1TagObjid ∨ isStringType type then len
  else 0

end RequestFunction

/-- The bytes of an element. -/
def elemWidth (type : UInt8) : Nat :=
  if isWordType type || type = asn1TagObjid then 4
  else if type = asn1TagCnt64 then 8
  else 1

/-! ### The varbinds of responses -/

section Responses

lemma getVarBind_value {f : RequestFunction} (hf : f = .snmpGet ∨ f = .snmpGetnext ∨ f = .snmpBulkget)
    (ret : OidSearchRes) : getVarBind ret =
      (f.value ret.var).bind fun value => responseVarBind ret.oid ret.var.tag value := by
  rcases hf with rfl | rfl | rfl <;>
    · rw [getVarBind, RequestFunction.value, Option.bind_assoc]
      rfl

lemma setVarBind_value (vbIn : VarBind) (ret : OidSearchRes) : setVarBind vbIn ret =
    (RequestFunction.snmpSet.value ret.var).bind fun value =>
      responseVarBind ret.oid vbIn.valueType value := by
  rw [setVarBind, RequestFunction.value, Option.bind_assoc]
  rfl

lemma xGetVarBind_value {f : RequestFunction} (hf : f = .agentxGet ∨ f = .agentxGetnext)
    (tail : UInt32) (ret : OidSearchRes) : AgentX.getVarBind tail ret = (f.value ret.var).map
      fun value => ⟨ret.oid, ret.var.tag.toUInt16, value.length, value, bytes32 tail⟩ := by
  rcases hf with rfl | rfl <;> rfl

lemma xSetVarBind_value (tail : UInt32) (vbIn : XVarBind) (ret : OidSearchRes) :
    AgentX.setVarBind tail vbIn ret = (RequestFunction.agentxSet.value ret.var).map fun value =>
      ⟨ret.oid, vbIn.valType, value.length, value, bytes32 tail⟩ := rfl

end Responses

/-! ### What is read -/

section Classes

variable {f : RequestFunction}

lemma isWordType_iff {type : UInt8} : isWordType type ↔
    type = asn1TagInt ∨ type = asn1TagCnt ∨ type = asn1TagGau ∨ type = asn1TagTimeticks := by
  simp [isWordType, or_assoc]

lemma isStringType_iff {type : UInt8} :
    isStringType type ↔ type = asn1TagOctstr ∨ type = asn1TagIpaddr := by
  simp [isStringType]

/-- The classes of types do not overlap. -/
lemma isNumber_cases {type : UInt8} (h : f.isNumber type) :
    isStringType type = false ∧ type ≠ asn1TagObjid := by
  have hclass : isWordType type || type = asn1TagCnt64 := by
    cases f <;> simp_all [RequestFunction.isNumber]
  simp only [isWordType, Bool.or_eq_true, decide_eq_true_eq] at hclass
  rcases hclass with (((h | h) | h) | h) | h <;> rw [h] <;> decide

lemma isNumber_string {type : UInt8} (h : isStringType type) : ¬ f.isNumber type := by
  intro hnum
  rw [(isNumber_cases hnum).1] at h
  cases h

lemma reads_objid (f : RequestFunction) (len : Nat) : f.reads asn1TagObjid len = len := by
  cases f <;> rfl

end Classes

lemma bytesAt_congr {a b : List UInt8} (hsize : a.length = b.length) {n : Nat}
    (h : a.take n = b.take n) : bytesAt a n = bytesAt b n := by
  rw [bytesAt, bytesAt, hsize, h]

lemma oidAt_congr {a b : List UInt8} (hsize : a.length = b.length) {n : Nat}
    (h : a.take (4 * n) = b.take (4 * n)) : oidAt a n = oidAt b n := by
  by_cases hn : 4 * n ≤ a.length
  · rw [← oidAt_take a n hn, h, oidAt_take b n (hsize ▸ hn)]
  · rw [oidAt, oidAt, if_neg hn, if_neg (hsize ▸ hn)]

section Congr

variable {a b : List UInt8} {type : UInt8} {len : Nat}

lemma berValueEnc_congr (hsize : a.length = b.length) (hword : isWordType type → a.take 4 = b.take 4)
    (hobj : type = asn1TagObjid → a.take (4 * len) = b.take (4 * len))
    (hstr : isStringType type → a.take len = b.take len) :
    berValueEnc a len type = berValueEnc b len type := by
  rw [berValueEnc, berValueEnc]
  split_ifs with hint huint hoid hoct hmem hmem'
  · rw [wordAt, wordAt, hword (by rcases hint with rfl | rfl <;> rfl)]
  · rw [wordAt, wordAt, hword (by rcases huint with rfl | rfl <;> rfl)]
  · rw [oidAt_congr hsize (hobj hoid)]
  · rw [hstr (by rcases hoct with rfl | rfl <;> rfl)]
  · omega
  · omega
  · rfl
  · rfl

lemma agentxValueEnc_congr (hsize : a.length = b.length)
    (hword : isWordType type → a.take 4 = b.take 4)
    (hcnt : type = asn1TagCnt64 → a.take 8 = b.take 8)
    (hobj : type = asn1TagObjid → a.take (4 * len) = b.take (4 * len))
    (hstr : isStringType type → a.take len = b.take len) :
    agentxValueEnc a len type = agentxValueEnc b len type := by
  rw [agentxValueEnc, agentxValueEnc]
  split_ifs with h₁ h₂ h₃ h₄
  · exact bytesAt_congr hsize (hword h₁)
  · exact bytesAt_congr hsize (hcnt h₂)
  · rw [Nat.mul_comm]
    exact bytesAt_congr hsize (hobj h₃)
  · exact bytesAt_congr hsize (hstr h₄)
  · rfl

end Congr

/-- Values that agree on the elements that are read are encoded the same. -/
lemma enc_reads {f : RequestFunction} {a b : Variable} (htag : a.tag = b.tag)
    (hsize : a.value.length = b.value.length) {len : Nat}
    (h : a.value.take (elemWidth a.tag * f.reads a.tag len) =
      b.value.take (elemWidth a.tag * f.reads a.tag len)) : f.enc a len = f.enc b len := by
  have hword : isWordType a.tag → a.value.take 4 = b.value.take 4 := by
    intro hword
    have hnum : f.isNumber a.tag := by cases f <;> simp [RequestFunction.isNumber, hword]
    simpa [elemWidth, RequestFunction.reads, hword, hnum] using h
  have hobj : a.tag = asn1TagObjid → a.value.take (4 * len) = b.value.take (4 * len) := by
    intro hobj
    rw [hobj] at h
    rwa [reads_objid] at h
  have hstr : isStringType a.tag → a.value.take len = b.value.take len := by
    intro hstr
    have hwidth : elemWidth a.tag = 1 := by
      rcases isStringType_iff.mp hstr with h | h <;> rw [h] <;> rfl
    rw [hwidth, RequestFunction.reads, if_neg (isNumber_string hstr), if_pos (.inr hstr), one_mul] at h
    exact h
  cases f with
  | snmpGet | snmpGetnext | snmpSet | snmpBulkget =>
    simp only [RequestFunction.enc, ← htag]
    exact berValueEnc_congr hsize hword hobj hstr
  | agentxGet | agentxGetnext | agentxSet =>
    have hcnt : a.tag = asn1TagCnt64 → a.value.take 8 = b.value.take 8 := by
      intro hcnt
      rw [hcnt] at h
      exact h
    simp only [RequestFunction.enc, ← htag]
    exact agentxValueEnc_congr hsize hword hcnt hobj hstr

/-- The encoder writes at most what was allocated, and reads at most the elements that the variable
has. -/
def Buffered (f : RequestFunction) (var : Variable) : Prop :=
  ∃ valLen value, f.valLen var = some valLen ∧ f.enc var (f.passes var valLen) = some value ∧
    value.length ≤ valLen ∧ f.reads var.tag (f.passes var valLen) ≤ var.len

/-- At most one of the sub-identifiers takes two bytes in BER, and each of the others one. -/
@[mk_iff]
structure AtMostOneLong (ids : Oid) : Prop where
  below : ∀ id ∈ ids, id < 0x4000
  long : ids.countP (fun id => 0x80 ≤ id) ≤ 1

/-- The OIDs that can be encoded. SNMP counts the bytes of an OID in eight bits, and `snmp_set` encodes as
many elements as it counts bytes: if the count does not wrap, the last element is dropped or none is. -/
def RequestFunction.FitsOid (f : RequestFunction) (oid : Oid) : Prop :=
  match f with
  | snmpGet | snmpGetnext | snmpBulkget => oid.length < 256 ∧ (berOidEnc oid).length < 256
  | snmpSet => oid.length < 256 ∧
      if (berOidEnc oid).length < 256 then AtMostOneLong (oid.drop 2)
      else (berOidEnc oid).length % 256 ≤ oid.length ∧
        AtMostOneLong ((oid.take ((berOidEnc oid).length % 256)).drop 2)
  | agentxGet | agentxGetnext => True
  | agentxSet => oid = []

/-- A number is there, and the elements lie in the union. -/
structure FitsBuffer (f : RequestFunction) (var : Variable) : Prop where
  number : f.isNumber var.tag → 1 ≤ var.len
  string : isStringType var.tag → var.len ≤ mibValueMaxLen
  objid : var.tag = asn1TagObjid → 4 * var.len ≤ mibValueMaxLen ∧ f.FitsOid var.oid

section Classes

variable {f : RequestFunction} {var : Variable}

lemma fitsBuffer_number (h : f.isNumber var.tag) : FitsBuffer f var ↔ 1 ≤ var.len := by
  obtain ⟨hstr, hobj⟩ := isNumber_cases h
  constructor
  · exact fun hfits => hfits.number h
  · intro hlen
    exact ⟨fun _ => hlen, fun h => by simp [hstr] at h, fun h => absurd h hobj⟩

lemma fitsBuffer_string (h : isStringType var.tag) : FitsBuffer f var ↔ var.len ≤ mibValueMaxLen := by
  constructor
  · exact fun hfits => hfits.string h
  · intro hlen
    refine ⟨fun hnum => ?_, fun _ => hlen, fun hobj => ?_⟩
    · rw [(isNumber_cases hnum).1] at h
      cases h
    · rw [hobj] at h
      cases h

lemma fitsBuffer_objid (h : var.tag = asn1TagObjid) :
    FitsBuffer f var ↔ 4 * var.len ≤ mibValueMaxLen ∧ f.FitsOid var.oid := by
  constructor
  · exact fun hfits => hfits.objid h
  · intro hoid
    refine ⟨fun hnum => absurd h (isNumber_cases hnum).2, fun hstr => ?_, fun _ => hoid⟩
    rw [h] at hstr
    cases hstr

end Classes

/-! ### Numbers and strings -/

section Numbers

variable {f : RequestFunction} {var : Variable}

lemma bytesAt_of_le {mem : List UInt8} {n : Nat} (h : n ≤ mem.length) : bytesAt mem n = some (mem.take n) :=
  if_pos h

lemma berValueEnc_word (mem : List UInt8) {type : UInt8} (h : isWordType type) :
    ∃ value, (∀ len, berValueEncTry mem len type = some value.length) ∧
      ∀ len, berValueEnc mem len type = some value := by
  rcases isWordType_iff.mp h with rfl | rfl | rfl | rfl
  · exact ⟨berIntEnc (wordAt mem).toInt32,
      fun _ => congrArg some (length_berIntEnc_eq_try _).symm, fun _ => rfl⟩
  · exact ⟨berIntEnc (wordAt mem).toInt32,
      fun _ => congrArg some (length_berIntEnc_eq_try _).symm, fun _ => rfl⟩
  · exact ⟨berUintEnc (wordAt mem), fun _ => congrArg some (length_berUintEnc _).symm, fun _ => rfl⟩
  · exact ⟨berUintEnc (wordAt mem), fun _ => congrArg some (length_berUintEnc _).symm, fun _ => rfl⟩

/-- The bytes of a number do not depend on the number of elements that is passed. -/
lemma enc_number (hw : var.Whole) (h : f.isNumber var.tag) :
    ∃ value, f.valLen var = some value.length ∧ ∀ len, f.enc var len = some value := by
  have hsnmp : isWordType var.tag → ∃ value,
      berValueEncTry var.value var.len var.tag = some value.length ∧
        ∀ len, berValueEnc var.value len var.tag = some value := by
    intro hword
    obtain ⟨value, htry, henc⟩ := berValueEnc_word var.value hword
    exact ⟨value, htry _, henc⟩
  have hagentx : isWordType var.tag ∨ var.tag = asn1TagCnt64 → ∃ value,
      some (agentxValueEncTry var.len var.tag) = some value.length ∧
        ∀ len, agentxValueEnc var.value len var.tag = some value := by
    have hsize : var.value.length = 1024 := hw
    intro hclass
    by_cases hword : isWordType var.tag
    · refine ⟨var.value.take 4, ?_, fun len => ?_⟩
      · rw [agentxValueEncTry, if_pos hword, List.length_take, hsize]
        rfl
      · rw [agentxValueEnc, if_pos hword, bytesAt_of_le (by omega)]
    · have hcnt := hclass.resolve_left hword
      refine ⟨var.value.take 8, ?_, fun len => ?_⟩
      · rw [agentxValueEncTry, if_neg hword, if_pos hcnt, List.length_take, hsize]
        rfl
      · rw [agentxValueEnc, if_neg hword, if_pos hcnt, bytesAt_of_le (by omega)]
  cases f with
  | snmpGet | snmpGetnext | snmpSet | snmpBulkget => exact hsnmp h
  | agentxGet | agentxGetnext | agentxSet =>
    exact hagentx (by simpa [RequestFunction.isNumber] using h)

lemma buffered_number (hw : var.Whole) (h : f.isNumber var.tag) : Buffered f var ↔ 1 ≤ var.len := by
  obtain ⟨value, hlen, henc⟩ := enc_number hw h
  have hreads (len : Nat) : f.reads var.tag len = 1 := if_pos h
  constructor
  · rintro ⟨n, _, -, -, -, hread⟩
    rwa [hreads] at hread
  · intro hone
    exact ⟨value.length, value, hlen, henc _, le_rfl, by rwa [hreads]⟩

end Numbers

section Strings

variable {f : RequestFunction} {var : Variable}

lemma valLen_string (h : isStringType var.tag) : f.valLen var = some var.len := by
  rcases isStringType_iff.mp h with h | h <;> cases f <;>
    · rw [RequestFunction.valLen, h]
      rfl

lemma enc_string (h : isStringType var.tag) (len : Nat) :
    f.enc var len = if len ≤ var.value.length then some (var.value.take len) else none := by
  rcases isStringType_iff.mp h with h | h <;> cases f <;>
    · rw [RequestFunction.enc, h]
      rfl

lemma passes_len (f : RequestFunction) (var : Variable) : f.passes var var.len = var.len := by
  cases f <;> rfl

lemma buffered_string (hw : var.Whole) (h : isStringType var.tag) :
    Buffered f var ↔ var.len ≤ mibValueMaxLen := by
  have hsize : var.value.length = mibValueMaxLen := hw
  constructor
  · rintro ⟨n, value, hn, henc, -, -⟩
    obtain rfl : var.len = n := Option.some.inj ((valLen_string h).symm.trans hn)
    rw [passes_len, enc_string h, hsize] at henc
    split_ifs at henc with hle
    exact hle
  · intro hle
    refine ⟨var.len, var.value.take var.len, valLen_string h, ?_, ?_, ?_⟩
    · rw [passes_len, enc_string h, hsize, if_pos hle]
    · rw [List.length_take]
      exact min_le_left _ _
    · rw [passes_len, RequestFunction.reads, if_neg (isNumber_string h), if_pos (.inr h)]

end Strings

/-! ### Object identifiers -/

section Oids

variable {f : RequestFunction} {var : Variable}

lemma oidAt_oid (hw : var.Whole) {n : Nat} (h : n ≤ var.len) :
    oidAt var.value n = if 4 * n ≤ mibValueMaxLen then some (var.oid.take n) else none := by
  have hsize : var.value.length = mibValueMaxLen := hw
  rw [oidAt, hsize, Variable.oid, ← List.map_take, List.take_range, min_eq_left h]

lemma length_oid (var : Variable) : var.oid.length = var.len := by simp [Variable.oid]

lemma le_mod_iff (n : Nat) : n ≤ n % 256 ↔ n < 256 := by omega

lemma subIdLen_cases (id : UInt32) : 1 ≤ subIdLen id ∧ (subIdLen id ≤ 1 ↔ id < 0x80) ∧
    (subIdLen id ≤ 2 ↔ id < 0x4000) := by
  simp only [subIdLen, UInt32.lt_iff_toNat_lt, UInt32.reduceToNat]
  split_ifs <;> omega

/-- All take one byte. -/
lemma sum_subIdLen_le_length (ids : Oid) :
    (ids.map subIdLen).sum ≤ ids.length ↔ ∀ id ∈ ids, id < 0x80 := by
  induction ids with
  | nil => simp
  | cons id ids ih =>
    obtain ⟨hpos, hone, -⟩ := subIdLen_cases id
    have hle := length_le_sum_subIdLen ids
    rw [List.map_cons, List.sum_cons, List.length_cons, List.forall_mem_cons, ← ih, ← hone]
    omega

/-- One byte more than there are sub-identifiers. -/
lemma sum_subIdLen_le_succ (ids : Oid) :
    (ids.map subIdLen).sum ≤ ids.length + 1 ↔ AtMostOneLong ids := by
  induction ids with
  | nil => exact iff_of_true (by simp) ⟨by simp, by simp⟩
  | cons id ids ih =>
    obtain ⟨hpos, hone, htwo⟩ := subIdLen_cases id
    have hle := length_le_sum_subIdLen ids
    have hshort := sum_subIdLen_le_length ids
    have hnone : (∀ id ∈ ids, id < 0x80) ↔ ids.countP (fun id => 0x80 ≤ id) = 0 := by
      simp [List.countP_eq_zero]
    rw [atMostOneLong_iff] at ih
    rw [atMostOneLong_iff, List.map_cons, List.sum_cons, List.length_cons, List.forall_mem_cons,
      List.countP_cons, ← htwo, and_assoc]
    by_cases h : id < 0x80
    · rw [if_neg (by simpa using h)]
      simp only [add_zero, ← ih]
      have := hone.mpr h
      omega
    · have hlong : (0x80 : UInt32) ≤ id := UInt32.not_lt.mp h
      have hbelow : (∀ id ∈ ids, id < 0x80) → ∀ id ∈ ids, id < 0x4000 := fun hall id hid =>
        UInt32.lt_of_lt_of_le (hall id hid) (by decide)
      have hnot : ¬ subIdLen id ≤ 1 := mt hone.mp h
      rw [if_pos (by simpa using hlong)]
      constructor
      · intro hsum
        have hall := hshort.mp (by omega)
        exact ⟨by omega, hbelow hall, by rw [hnone.mp hall]⟩
      · rintro ⟨hid, -, hcount⟩
        have := hshort.mpr (hnone.mpr (by omega))
        omega

/-- As many bytes as there are elements. -/
lemma length_berOidEnc_le_length (oid : Oid) :
    (berOidEnc oid).length ≤ oid.length ↔ AtMostOneLong (oid.drop 2) := by
  rw [← sum_subIdLen_le_succ, List.length_drop]
  by_cases htwo : oid.length < 2
  · rw [length_berOidEnc_of_lt htwo, List.drop_of_length_le (by omega)]
    simp
  · rw [length_berOidEnc (by omega)]
    omega

lemma AtMostOneLong.sublist {ids ids' : Oid} (h : AtMostOneLong ids) (hsub : ids'.Sublist ids) :
    AtMostOneLong ids' :=
  ⟨fun id hid => h.below id (hsub.subset hid), (hsub.countP_le (p := fun id => 0x80 ≤ id)).trans h.long⟩

/-- If the count does not wrap, the elements that are encoded are among those that decide it. -/
lemma fitsOid_snmpSet (oid : Oid) : RequestFunction.snmpSet.FitsOid oid ↔
    oid.length < 256 ∧ (berOidEnc oid).length % 256 ≤ oid.length ∧
      AtMostOneLong ((oid.take ((berOidEnc oid).length % 256)).drop 2) := by
  rw [RequestFunction.FitsOid]
  split_ifs with hwrap
  · rw [Nat.mod_eq_of_lt hwrap, length_berOidEnc_le_length]
    refine and_congr_right fun _ => ⟨fun h => ⟨h, ?_⟩, And.left⟩
    exact h.sublist ((List.take_sublist _ _).drop 2)
  · rfl

/-- The elements of an OID are passed as they are. -/
lemma buffered_objid_get (hw : var.Whole) (htag : var.tag = asn1TagObjid)
    (hf : f = .snmpGet ∨ f = .snmpGetnext ∨ f = .snmpBulkget) : Buffered f var ↔
      4 * var.len ≤ mibValueMaxLen ∧ var.oid.length < 256 ∧ (berOidEnc var.oid).length < 256 := by
  have hvalLen : f.valLen var = (oidAt var.value var.len).bind berOidEncTry := by
    rcases hf with rfl | rfl | rfl <;> rw [RequestFunction.valLen, htag, berValueEncTry_objid]
  have henc : f.enc var var.len = (oidAt var.value var.len).map berOidEnc := by
    rcases hf with rfl | rfl | rfl <;> rw [RequestFunction.enc, htag, berValueEnc_objid]
  have hpasses (n : Nat) : f.passes var n = var.len := by
    rcases hf with rfl | rfl | rfl <;> rfl
  have htake : var.oid.take var.len = var.oid := List.take_of_length_le (length_oid var).le
  rw [oidAt_oid hw le_rfl, htake] at hvalLen henc
  simp only [Buffered, hvalLen, hpasses, henc, htag, reads_objid]
  split_ifs with hmem
  · simp only [Option.bind_some, Option.map_some, berOidEncTry_eq_mod]
    split_ifs with hshort
    · simp [hmem, hshort, le_mod_iff]
    · simp [hshort]
  · simp [hmem]

/-- The number of bytes is passed as the number of elements. -/
lemma buffered_objid_snmpSet (hw : var.Whole) (htag : var.tag = asn1TagObjid) :
    Buffered .snmpSet var ↔ 4 * var.len ≤ mibValueMaxLen ∧ RequestFunction.snmpSet.FitsOid var.oid := by
  have htake : var.oid.take var.len = var.oid := List.take_of_length_le (length_oid var).le
  have hvalLen : RequestFunction.snmpSet.valLen var = (oidAt var.value var.len).bind berOidEncTry := by
    rw [RequestFunction.valLen, htag, berValueEncTry_objid]
  have henc (n : Nat) : RequestFunction.snmpSet.enc var n = (oidAt var.value n).map berOidEnc := by
    rw [RequestFunction.enc, htag, berValueEnc_objid]
  have hpasses (n : Nat) : RequestFunction.snmpSet.passes var n = n := rfl
  rw [oidAt_oid hw le_rfl, htake] at hvalLen
  rw [fitsOid_snmpSet]
  simp only [Buffered, hvalLen, hpasses, henc, htag, reads_objid, length_oid]
  split_ifs with hmem
  · rw [Option.bind_some, berOidEncTry_eq_mod, length_oid]
    split_ifs with hshort
    · set n := (berOidEnc var.oid).length % 256
      simp only [Option.some.injEq, exists_and_left, exists_eq_left', hmem, hshort, true_and]
      by_cases hle : n ≤ var.len
      · have hlen : (var.oid.take n).length = n := by rw [List.length_take, length_oid, min_eq_left hle]
        have hfits := length_berOidEnc_le_length (var.oid.take n)
        rw [hlen] at hfits
        simp [oidAt_oid hw hle, hle, hfits, show 4 * n ≤ mibValueMaxLen by omega]
      · simp [hle]
    · simp [hshort]
  · simp [hmem]

lemma buffered_objid_agentx (hw : var.Whole) (htag : var.tag = asn1TagObjid)
    (hf : f = .agentxGet ∨ f = .agentxGetnext) : Buffered f var ↔ 4 * var.len ≤ mibValueMaxLen := by
  have hsize : var.value.length = mibValueMaxLen := hw
  have hvalLen : f.valLen var = some (var.len * 4) := by
    rcases hf with rfl | rfl <;>
      · rw [RequestFunction.valLen, htag]
        rfl
  have henc : f.enc var var.len = bytesAt var.value (var.len * 4) := by
    rcases hf with rfl | rfl <;>
      · rw [RequestFunction.enc, htag]
        rfl
  have hpasses (n : Nat) : f.passes var n = var.len := by
    rcases hf with rfl | rfl <;> rfl
  simp only [Buffered, hvalLen, hpasses, henc, htag, reads_objid, bytesAt, hsize]
  split_ifs with hmem
  · simp [List.length_take]
    omega
  · simp
    omega

lemma agentxSet_enc_objid (htag : var.tag = asn1TagObjid) (n : Nat) :
    RequestFunction.agentxSet.enc var n = bytesAt var.value (n * 4) := by
  rw [RequestFunction.enc, htag]
  rfl

/-- Four times as many bytes are written as there are. -/
lemma buffered_objid_agentxSet (htag : var.tag = asn1TagObjid) :
    Buffered .agentxSet var ↔ var.oid = [] := by
  have hvalLen : RequestFunction.agentxSet.valLen var = some (var.len * 4) := by
    rw [RequestFunction.valLen, htag]
    rfl
  have hpasses (n : Nat) : RequestFunction.agentxSet.passes var n = n := rfl
  rw [← List.length_eq_zero_iff, length_oid]
  simp only [Buffered, hvalLen, hpasses, agentxSet_enc_objid htag, htag, reads_objid]
  constructor
  · rintro ⟨n, value, hn, -, -, hreads⟩
    obtain rfl := Option.some.inj hn
    omega
  · intro hnil
    refine ⟨0, [], by rw [hnil], ?_, le_rfl, Nat.zero_le _⟩
    simp [bytesAt]

lemma buffered_objid (hw : var.Whole) (htag : var.tag = asn1TagObjid) :
    Buffered f var ↔ 4 * var.len ≤ mibValueMaxLen ∧ f.FitsOid var.oid := by
  cases f with
  | snmpGet => exact buffered_objid_get hw htag (by simp)
  | snmpGetnext => exact buffered_objid_get hw htag (by simp)
  | snmpBulkget => exact buffered_objid_get hw htag (by simp)
  | snmpSet => exact buffered_objid_snmpSet hw htag
  | agentxGet => simpa [RequestFunction.FitsOid] using buffered_objid_agentx hw htag (by simp)
  | agentxGetnext => simpa [RequestFunction.FitsOid] using buffered_objid_agentx hw htag (by simp)
  | agentxSet =>
    rw [buffered_objid_agentxSet htag, RequestFunction.FitsOid]
    have hlen := length_oid var
    constructor
    · intro hnil
      rw [hnil, List.length_nil] at hlen
      exact ⟨by omega, hnil⟩
    · exact And.right

end Oids

/-! ### All types -/

section All

variable {f : RequestFunction} {var : Variable}

/-- Nothing is written for the other types. -/
lemma buffered_other (hnum : ¬ f.isNumber var.tag) (hstr : ¬ isStringType var.tag)
    (hobj : var.tag ≠ asn1TagObjid) : Buffered f var := by
  refine ⟨0, [], ?_, ?_, le_rfl, ?_⟩
  · cases f <;>
      simp_all [RequestFunction.valLen, RequestFunction.isNumber, berValueEncTry, agentxValueEncTry,
        isWordType, isStringType]
  · cases f <;>
      simp_all [RequestFunction.enc, RequestFunction.isNumber, berValueEnc, agentxValueEnc, isWordType,
        isStringType]
  · rw [RequestFunction.reads, if_neg hnum, if_neg (by simp [hstr, hobj])]
    exact Nat.zero_le _

/-- The bytes of a value are written to the buffer and are read of the value if and only if a number is
there, the elements lie in the union, and the OID is one that its function can encode. -/
theorem buffered_iff (f : RequestFunction) (var : Variable) (hw : var.Whole) :
    Buffered f var ↔ FitsBuffer f var := by
  by_cases hnum : f.isNumber var.tag
  · rw [buffered_number hw hnum, fitsBuffer_number hnum]
  by_cases hstr : isStringType var.tag
  · rw [buffered_string hw hstr, fitsBuffer_string hstr]
  by_cases hobj : var.tag = asn1TagObjid
  · rw [buffered_objid hw hobj, fitsBuffer_objid hobj]
  · constructor
    · exact fun _ => ⟨fun h => absurd h hnum, fun h => absurd h hstr, fun h => absurd h hobj⟩
    · exact fun _ => buffered_other hnum hstr hobj

/-- A TestSet of the OID `1.3.6.1.2` for `1.3.6.1.2.1.0`, in the byte order of the host. -/
def sampleTestset : List UInt8 :=
  [1, 8, 0, 0] ++ bytes32 0 ++ bytes32 0 ++ bytes32 1 ++ bytes32 20 ++
    [6, 0, 0, 0] ++ ([2, 2, 0, 0] ++ bytes32 1 ++ bytes32 0) ++ [0, 2, 0, 0]

/-- The varbind in it. -/
def testsetVarBind : XVarBind :=
  ⟨[1, 3, 6, 1, 2, 1, 0], asn1TagObjid.toUInt16, 5, expandedPrefix 2, []⟩

/-- The variable with its value. -/
def prefixOid : Variable := ⟨asn1TagObjid, 5, expandedPrefix 2 ++ List.replicate 1004 0⟩

lemma whole_prefixOid : prefixOid.Whole := by
  rw [Variable.Whole, prefixOid, List.length_append, List.length_replicate]
  rfl

theorem buffered_iff_prefixOid : Buffered .agentxGet prefixOid ∧ Buffered .snmpSet prefixOid := by
  refine ⟨(buffered_iff .agentxGet prefixOid whole_prefixOid).mpr ?_,
    (buffered_iff .snmpSet prefixOid whole_prefixOid).mpr ?_⟩
  · exact ⟨fun h => Bool.noConfusion h, fun h => Bool.noConfusion h, fun _ => ⟨by decide, trivial⟩⟩
  · refine ⟨fun h => Bool.noConfusion h, fun h => Bool.noConfusion h, fun _ => ⟨by decide, ?_⟩⟩
    have hoid : prefixOid.oid = [1, 3, 6, 1, 2] := by decide +kernel
    have hshort : (berOidEnc [1, 3, 6, 1, 2]).length < 256 := by decide +kernel
    rw [hoid]
    refine ⟨by simp, ?_⟩
    rw [if_pos hshort]
    exact ⟨by simp, by simp⟩

/-- Of an OID of five elements, twenty bytes long, SET encodes twenty elements to eighty bytes. -/
theorem agentxSet_not_buffered :
    (∃ xdg ret, agentxDecode sampleTestset = .ok (.ok xdg) ∧ xdg.vbInList = [testsetVarBind] ∧
      AgentX.decodeValue testsetVarBind (.init .set) = some ret ∧ ret.var = prefixOid) ∧
    ¬ ∀ f var, Variable.Whole var → Buffered f var := by
  refine ⟨?_, fun hall => ?_⟩
  · exact ⟨{ AgentxDatagram.clear ⟨1, agentxPduTestset, 0, 0, 0, 0, 1, 0⟩ with vbInList := [testsetVarBind] },
      { OidSearchRes.init .set with var := prefixOid }, by rfl, rfl, by rfl, rfl⟩
  · obtain ⟨n, value, hn, henc, hle, -⟩ := hall .agentxSet prefixOid whole_prefixOid
    have hsize : prefixOid.value.length = 1024 := whole_prefixOid
    obtain rfl : 20 = n := Option.some.inj hn
    rw [RequestFunction.passes, agentxSet_enc_objid rfl, bytesAt_of_le (by omega)] at henc
    obtain rfl := Option.some.inj henc
    rw [List.length_take, hsize] at hle
    omega

end All

end SmartSnmp
