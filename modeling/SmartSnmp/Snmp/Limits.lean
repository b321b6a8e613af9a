import SmartSnmp.AgentX.MsgIn
import SmartSnmp.Snmp.Accept
import SmartSnmp.Snmp.Bounds
import SmartSnmp.Snmp.Leftover

/-!
# The limits of a message

`var_bind_alloc` limits the bytes of a value before it is decoded. That limits the decoded value too,
but for an OID: every byte may end a sub-identifier, which takes four bytes of the union and one
of the elements of an OID.
-/

namespace SmartSnmp

open Bytes Reader

/-! ### Values -/

/-- The size of an element of a value of this type. -/
def elementSize (type : UInt8) : Nat := if wordTag type ∨ type = asn1TagObjid then 4 else 1

/-- What is decoded of the value of a varbind fits the union of a variable, and what is decoded of
an OID its array. -/
def VarBind.ValueFits (vb : VarBind) : Prop :=
  ∀ len bytes, berValueDec vb.value vb.valueType = some (len, bytes) →
    len * elementSize vb.valueType ≤ mibValueMaxLen ∧
      (vb.valueType = asn1TagObjid → len ≤ mibOidMaxLen)

/-- The bytes that are written are those of the elements. -/
lemma length_berValueDec {buf : List UInt8} {type : UInt8} {len : Nat} {bytes : List UInt8}
    (h : berValueDec buf type = some (len, bytes)) : bytes.length = len * elementSize type := by
  cases berValueDec_decoded h with
  | empty => simp
  | int _ htype => rcases htype with rfl | rfl <;> exact length_wordBytes _
  | uint _ htype => rcases htype with rfl | rfl <;> exact length_wordBytes _
  | objid _ htype =>
    rw [length_flatMap_word _ length_wordBytes, htype, Nat.mul_comm]
    rfl
  | str _ htype => rcases htype with rfl | rfl <;> exact (Nat.mul_one _).symm
  | other => simp

/-- Only an OID takes more memory than it has bytes, or than a word. -/
lemma length_berValueDec_le {buf : List UInt8} {type : UInt8} {len : Nat} {bytes : List UInt8}
    (h : berValueDec buf type = some (len, bytes)) (hobj : type ≠ asn1TagObjid) :
    bytes.length ≤ max 4 buf.length := by
  cases berValueDec_decoded h with
  | empty => simp
  | int => exact (length_wordBytes _).trans_le (le_max_left _ _)
  | uint => exact (length_wordBytes _).trans_le (le_max_left _ _)
  | objid _ htype => exact absurd htype hobj
  | str => exact le_max_right _ _
  | other => simp

lemma berValueDec_objid {buf : List UInt8} (h : buf ≠ []) :
    berValueDec buf asn1TagObjid = some ((berOidDec buf).length, (berOidDec buf).flatMap wordBytes) := by
  have hint : ¬ (asn1TagObjid = asn1TagInt ∨ asn1TagObjid = asn1TagCnt) := by decide
  have huint : ¬ (asn1TagObjid = asn1TagGau ∨ asn1TagObjid = asn1TagTimeticks) := by decide
  rw [berValueDec, if_neg h, if_neg hint, if_neg huint, if_pos rfl]

lemma length_berOidDec (buf : List UInt8) :
    (berOidDec buf).length = (buf.tail.countP fun b => !highBit b) + 2 := by
  rw [berOidDec, List.length_cons, List.length_cons, berOidDecLoop_length]

/-- A varbind is accepted with at most as many bytes of a value as the union has. -/
lemma length_value_of_varBindAlloc {bs rest : List UInt8} {vb : VarBind}
    (h : varBindAlloc bs = .ok (.ok (vb, rest))) : vb.value.length ≤ mibValueMaxLen := by
  have hy : Yields varBindAlloc vb := ⟨bs, rest, h⟩
  obtain ⟨oidLen, _, hy⟩ := hy.of_bind
  obtain ⟨content, _, hy⟩ := hy.of_bind
  obtain ⟨_, _, hy⟩ := hy.of_bind
  obtain ⟨valType, _, hy⟩ := hy.of_bind
  obtain ⟨len, _, hy⟩ := hy.of_bind
  obtain ⟨_, hcheck, hy⟩ := hy.of_bind
  obtain ⟨value, hvalue, hy⟩ := hy.of_bind
  obtain rfl := hy.of_pure
  exact hvalue.length_of_bytes.trans_le (not_lt.mp hcheck.of_failIf)

/-- An accepted varbind has a value that fits if and only if it is no OID or at most 62 bytes
after the first one end a sub-identifier. -/
theorem varBindAlloc_valueFits_iff {bs rest : List UInt8} {vb : VarBind}
    (h : varBindAlloc bs = .ok (.ok (vb, rest))) :
    vb.ValueFits ↔ (vb.valueType = asn1TagObjid →
      (vb.value.tail.countP fun b => !highBit b) + 2 ≤ mibOidMaxLen) := by
  have hlen := length_value_of_varBindAlloc h
  constructor
  · intro hfits hobj
    by_cases hnil : vb.value = []
    · rw [hnil]
      decide
    · have hdec := berValueDec_objid hnil
      rw [← hobj] at hdec
      rw [← length_berOidDec]
      exact (hfits _ _ hdec).2 hobj
  · intro hcount len bytes hdec
    rw [← length_berValueDec hdec]
    by_cases hobj : vb.valueType = asn1TagObjid
    · by_cases hnil : vb.value = []
      · simp only [hnil, berValueDec, if_true, Option.some.injEq, Prod.mk.injEq] at hdec
        obtain ⟨rfl, rfl⟩ := hdec
        simp
      · rw [hobj, berValueDec_objid hnil, Option.some.injEq, Prod.mk.injEq] at hdec
        obtain ⟨rfl, rfl⟩ := hdec
        have := hcount hobj
        rw [← length_berOidDec] at this
        rw [length_flatMap_word _ length_wordBytes]
        simp only [mibOidMaxLen, mibValueMaxLen] at this ⊢
        exact ⟨by omega, fun _ => this⟩
    · have := length_berValueDec_le hdec hobj
      refine ⟨this.trans (max_le (by decide) hlen), fun h => absurd h hobj⟩

theorem varBindAlloc_valueFits_iff_objid : ∃ vb, varBindAlloc [0x06, 0x01, 0x28, 0x06, 0x02, 0x2b, 0x06] =
    .ok (.ok (vb, [])) ∧ vb.valueType = asn1TagObjid ∧ vb.ValueFits := by
  have hrun : varBindAlloc [0x06, 0x01, 0x28, 0x06, 0x02, 0x2b, 0x06] =
      .ok (.ok (⟨[1, 0], 0, asn1TagObjid, [0x2b, 0x06]⟩, [])) := by
    decide
  exact ⟨_, hrun, rfl, (varBindAlloc_valueFits_iff hrun).mpr fun _ => by decide⟩

/-- The varbind of 1.0 with an OID of 1024 bytes as its value, each of them a sub-identifier. -/
def longObjid : List UInt8 :=
  [0x06, 0x01, 0x28, 0x06, 0x82, 0x04, 0x00] ++ List.replicate mibValueMaxLen 0x01

/-- A value does not fit: there is no decoding to a variable. -/
lemma decodeValue_eq_none {vb : VarBind} {len : Nat} {bytes : List UInt8}
    (hdec : berValueDec vb.value vb.valueType = some (len, bytes))
    (hlen : mibValueMaxLen < len * elementSize vb.valueType) (ret : OidSearchRes) :
    decodeValue vb ret = none := by
  rw [← length_berValueDec hdec] at hlen
  simp [decodeValue, hdec, Variable.write, not_le.mpr hlen]

/-- An accepted OID takes 4100 bytes, and every request function runs over the union. -/
theorem varBindAlloc_longObjid : ∃ vb, varBindAlloc longObjid = .ok (.ok (vb, [])) ∧
    ¬ vb.ValueFits ∧ (∃ bytes, berValueDec vb.value vb.valueType = some (1025, bytes)) ∧
    ∀ ret, decodeValue vb ret = none := by
  have hrun : varBindAlloc longObjid =
      .ok (.ok (⟨[1, 0], 0, asn1TagObjid, List.replicate mibValueMaxLen 0x01⟩, [])) := by
    decide +kernel
  have hne : List.replicate mibValueMaxLen (0x01 : UInt8) ≠ [] := by simp
  have hlen : (berOidDec (List.replicate mibValueMaxLen 0x01)).length = 1025 := by
    rw [length_berOidDec, List.tail_replicate, List.countP_replicate]
    rfl
  have hdec := berValueDec_objid hne
  rw [hlen] at hdec
  refine ⟨_, hrun, fun h => ?_, ⟨_, hdec⟩, decodeValue_eq_none hdec (by decide)⟩
  exact absurd (h _ _ hdec).1 (by decide)

/-! ### Names -/

/-- The strings of a message that are copied to arrays. -/
inductive NameField where
  | engineId
  | userName
  | authPara
  | privPara
  | contextId
  | contextName
  deriving DecidableEq

namespace NameField

/-- The longest string that leaves a zero at the end of the array. -/
def maxLen : NameField → Nat
  | engineId | contextId => 32
  | userName | authPara | privPara | contextName => 40

/-- The error for a tag. -/
def err : NameField → SnmpErrCode
  | engineId => .securityEngineId
  | userName => .securityUserName
  | authPara => .securityAuthPara
  | privPara => .securityEngineTime
  | contextId => .contextId
  | contextName => .contextName

/-- The error for a length. -/
def errLen : NameField → SnmpErrCode
  | engineId => .securityEngineIdLen
  | userName => .securityUserNameLen
  | authPara => .securityAuthParaLen
  | privPara => .securityPrivParaLen
  | contextId => .contextIdLen
  | contextName => .contextNameLen

/-- The length of the field, which is stored before it is checked. -/
def storedLen (name : NameField) : Reader SnmpErrCode Nat := header asn1TagOctstr name.err

/-- The length of the field up to its check. -/
def checkedLen (name : NameField) : Reader SnmpErrCode Nat := do
  let len ← name.storedLen
  failIf (name.maxLen + 1 < (len + 1) % 2 ^ 32) name.errLen
  pure len

def field (name : NameField) : Reader SnmpErrCode (List UInt8) :=
  strField (name.maxLen + 1) name.err name.errLen

lemma field_eq (name : NameField) : name.field = name.checkedLen >>= fun len =>
    if name.maxLen + 1 < len then crash else bytes len := by
  simp only [checkedLen, bind_bind]
  rfl

end NameField

/-- What `snmp_decode` reads up to the version. -/
def versionDecode : Reader SnmpErrCode SnmpDatagram := do
  skip 1
  let (_, dataLen) ← berLengthDec
  let (verLen, version) ← intField .version
  pure { SnmpDatagram.clear with dataLen, verLen, version }

def beforeEngineId (sdg : SnmpDatagram) : Reader SnmpErrCode SnmpDatagram := do
  let msgLen ← header asn1TagSeq .globalDataLen
  let sdg ← globalDataDecode { sdg with msgLen }
  let securStrLen ← header asn1TagOctstr .securityStr
  let securParaLen ← header asn1TagSeq .securitySeq
  pure { sdg with securStrLen, securParaLen }

def beforeUserName (sdg : SnmpDatagram) : Reader SnmpErrCode SnmpDatagram := do
  let sdg ← beforeEngineId sdg
  let engineId ← NameField.engineId.field
  let (engineBootsLen, engineBoots) ← intField .securityEngineBoots
  let (engineTimeLen, engineTime) ← intField .securityEngineTime
  pure { sdg with engineId, engineBootsLen, engineBoots, engineTimeLen, engineTime }

def beforeAuthPara (sdg : SnmpDatagram) : Reader SnmpErrCode SnmpDatagram := do
  let sdg ← beforeUserName sdg
  let userName ← NameField.userName.field
  pure { sdg with userName }

def beforePrivPara (sdg : SnmpDatagram) : Reader SnmpErrCode SnmpDatagram := do
  let sdg ← beforeAuthPara sdg
  let authPara ← NameField.authPara.field
  pure { sdg with authPara }

def beforeContextId (sdg : SnmpDatagram) : Reader SnmpErrCode SnmpDatagram := do
  let sdg ← beforePrivPara sdg
  let privPara ← NameField.privPara.field
  let scopeLen ← header asn1TagSeq .scopePduSeq
  pure { sdg with privPara, scopeLen }

def beforeContextName (sdg : SnmpDatagram) : Reader SnmpErrCode SnmpDatagram :=
  if 3 ≤ sdg.version then do
    let sdg ← beforeContextId sdg
    let contextId ← NameField.contextId.field
    pure { sdg with contextId }
  else pure sdg

/-- What `snmp_decode` reads between the version and a name. -/
def NameField.before : NameField → SnmpDatagram → Reader SnmpErrCode SnmpDatagram
  | engineId => beforeEngineId
  | userName => beforeUserName
  | authPara => beforeAuthPara
  | privPara => beforePrivPara
  | contextId => beforeContextId
  | contextName => beforeContextName

lemma beforeContextName_eq : beforeContextName = v3Decode := by
  funext sdg
  simp only [beforeContextName, v3Decode, v3HeaderDecode, beforeContextId, beforePrivPara,
    beforeAuthPara, beforeUserName, beforeEngineId, securityParameterDecode, bind_bind]
  rfl

lemma messageDecode_eq : messageDecode = versionDecode >>= fun sdg =>
    NameField.contextName.before sdg >>= fun sdg => NameField.contextName.field >>= fun contextName =>
      pduHdrParse { sdg with contextName } := by
  simp only [NameField.before, beforeContextName_eq, messageDecode, versionDecode, bind_bind]
  rfl

/-- `snmp_decode` of a datagram comes to a name. -/
def ReachesName (buffer : List UInt8) (name : NameField) (bs : List UInt8) : Prop :=
  ∃ sdg rest sdg', versionDecode buffer = .ok (.ok (sdg, rest)) ∧
    (name ≠ .contextName → 3 ≤ sdg.version) ∧ name.before sdg rest = .ok (.ok (sdg', bs))

/-- `snmp_decode` stores the length of a name. -/
def StoresLength (buffer : List UInt8) (name : NameField) (len : Nat) : Prop :=
  ∃ bs rest, ReachesName buffer name bs ∧ name.storedLen bs = .ok (.ok (len, rest))

/-- `snmp_decode` goes past the check of the length of a name. -/
def PassesCheck (buffer : List UInt8) (name : NameField) (len : Nat) : Prop :=
  ∃ bs rest, ReachesName buffer name bs ∧ name.checkedLen bs = .ok (.ok (len, rest))

/-- `pdu_hdr_parse` of an AgentX datagram stores the length of the context. -/
def StoresCtxLen (buffer : List UInt8) (ctxLen : UInt32) : Prop :=
  ∃ pduHdr bs rest, fixedHdrParse buffer = .ok (.ok (pduHdr, bs)) ∧
    hasFlag pduHdr.flags nonDefaultContext = true ∧
    field32 (ε := AgentxErrCode) pduHdr.flags bs = .ok (.ok (ctxLen, rest))

/-- `pdu_hdr_parse` goes past the check of the length of the context. -/
def PassesCtxCheck (buffer : List UInt8) (ctxLen : UInt32) : Prop :=
  StoresCtxLen buffer ctxLen ∧ ¬ 41 < (ctxLen + 1).toNat

lemma length_lt_of_berLengthDec {ε : Type} {lenLen len : Nat}
    (h : Yields (berLengthDec (ε := ε)) (lenLen, len)) : len < 2 ^ 32 := by
  obtain ⟨b, _, h⟩ := h.of_bind
  split_ifs at h
  · obtain ⟨octets, _, h⟩ := h.of_bind
    obtain ⟨-, rfl⟩ := Prod.mk.inj h.of_pure
    exact UInt32.toNat_lt _
  · obtain ⟨-, rfl⟩ := Prod.mk.inj h.of_pure
    exact (UInt8.toNat_lt b).trans (by norm_num)

lemma length_lt_of_storedLen {name : NameField} {len : Nat} (h : Yields name.storedLen len) :
    len < 2 ^ 32 := by
  obtain ⟨_, _, h⟩ := h.of_bind
  obtain ⟨⟨lenLen, len⟩, hdec, h⟩ := h.of_bind
  obtain rfl := h.of_pure
  exact length_lt_of_berLengthDec hdec

/-- A check lets a length pass that is short enough, or that wraps. -/
lemma passesCheck_iff {buffer : List UInt8} {name : NameField} {len : Nat} :
    PassesCheck buffer name len ↔
      StoresLength buffer name len ∧ (len ≤ name.maxLen ∨ len = 2 ^ 32 - 1) := by
  have hmax : name.maxLen ≤ 40 := by cases name <;> decide
  constructor
  · rintro ⟨bs, rest, hreach, hcheck⟩
    obtain ⟨len', mid, hstored, hcheck⟩ := bind_eq_ok hcheck
    obtain ⟨u, mid', hfail, hcheck⟩ := bind_eq_ok hcheck
    obtain rfl : len' = len := Yields.of_pure ⟨_, _, hcheck⟩
    have hlt := length_lt_of_storedLen ⟨_, _, hstored⟩
    have hle := Yields.of_failIf ⟨_, _, hfail⟩
    exact ⟨⟨bs, mid, hreach, hstored⟩, by omega⟩
  · rintro ⟨⟨bs, rest, hreach, hstored⟩, hlen⟩
    refine ⟨bs, rest, hreach, ?_⟩
    rw [NameField.checkedLen, bind_apply_ok hstored, failIf, if_neg (by omega)]
    rfl

lemma passesCtxCheck_iff {buffer : List UInt8} {ctxLen : UInt32} :
    PassesCtxCheck buffer ctxLen ↔
      StoresCtxLen buffer ctxLen ∧ (ctxLen.toNat ≤ 40 ∨ ctxLen = 0xffffffff) := by
  have hlt := ctxLen.toNat_lt
  rw [PassesCtxCheck, UInt32.toNat_add, ← UInt32.toNat_inj]
  have h1 : (1 : UInt32).toNat = 1 := rfl
  have h2 : (0xffffffff : UInt32).toNat = 2 ^ 32 - 1 := rfl
  rw [h1, h2]
  apply and_congr_right
  intro _
  omega

/-- If the copy of a name crashes, so does what is read before the context name. -/
lemma beforeContextName_crash {name : NameField} (hname : name ≠ .contextName)
    {sdg sdg' : SnmpDatagram} {bs rest : List UInt8} (hv : 3 ≤ sdg.version)
    (hbefore : name.before sdg bs = .ok (.ok (sdg', rest))) (hfield : name.field rest = .crash) :
    beforeContextName sdg bs = .crash := by
  have hname' : beforeContextName sdg = _ := if_pos hv
  -- a crash is handed on from each name to the next
  have hid : beforeContextId sdg bs = .crash → beforeContextName sdg bs = .crash :=
    fun h => hname' ▸ bind_apply_crash h _
  have hpriv : beforePrivPara sdg bs = .crash → beforeContextName sdg bs = .crash :=
    fun h => hid (bind_apply_crash h _)
  have hauth : beforeAuthPara sdg bs = .crash → beforeContextName sdg bs = .crash :=
    fun h => hpriv (bind_apply_crash h _)
  cases name with
  | engineId => exact hauth (bind_apply_crash (bind_bind_crash hbefore hfield _) _)
  | userName => exact hauth (bind_bind_crash hbefore hfield _)
  | authPara => exact hpriv (bind_bind_crash hbefore hfield _)
  | privPara => exact hid (bind_bind_crash hbefore hfield _)
  | contextId => exact hname' ▸ bind_bind_crash hbefore hfield _
  | contextName => exact absurd rfl hname

/-- Past a check with a length that is too long, the copy of the name overruns its array. -/
lemma snmpDecode_crash {buffer : List UInt8} {name : NameField} {len : Nat}
    (h : PassesCheck buffer name len) (hlen : name.maxLen < len) : snmpDecode buffer = .crash := by
  obtain ⟨⟨bs, rest, ⟨sdg, mid, sdg', hversion, hv, hbefore⟩, hstored⟩, hle | rfl⟩ :=
    passesCheck_iff.mp h
  · omega
  have hmax : name.maxLen ≤ 40 := by cases name <;> decide
  have hcheck : name.checkedLen bs = .ok (.ok (2 ^ 32 - 1, rest)) := by
    rw [NameField.checkedLen, bind_apply_ok hstored, failIf, if_neg (by omega)]
    rfl
  have hfield : name.field bs = .crash := by
    rw [NameField.field_eq, bind_apply_ok hcheck, if_pos (by omega)]
    rfl
  have hmessage : messageDecode buffer = .crash := by
    rw [messageDecode_eq, bind_apply_ok hversion]
    by_cases hname : name = .contextName
    · subst hname
      exact bind_bind_crash hbefore hfield _
    · exact bind_apply_crash (beforeContextName_crash hname (hv hname) hbefore hfield) _
  have hdatagram : datagramDecode buffer = .crash := bind_apply_crash hmessage _
  rw [snmpDecode, hdatagram]

/-- Every length that goes past its check leaves room for a zero in the array if and only if no
stored length is the largest one of 32 bits. -/
theorem name_checks_iff (buffer : List UInt8) :
    ((∀ name len, PassesCheck buffer name len → len ≤ name.maxLen) ↔
      ∀ name, ¬ StoresLength buffer name (2 ^ 32 - 1)) ∧
    ((∀ ctxLen, PassesCtxCheck buffer ctxLen → ctxLen.toNat ≤ 40) ↔
      ¬ StoresCtxLen buffer 0xffffffff) := by
  constructor
  · constructor
    · intro h name hstores
      have hmax : name.maxLen ≤ 40 := by cases name <;> decide
      have := h name _ (passesCheck_iff.mpr ⟨hstores, .inr rfl⟩)
      omega
    · intro h name len hpass
      obtain ⟨hstores, hlen | rfl⟩ := passesCheck_iff.mp hpass
      · exact hlen
      · exact absurd hstores (h name)
  · constructor
    · intro h hstores
      have := h _ (passesCtxCheck_iff.mpr ⟨hstores, .inr rfl⟩)
      exact absurd this (by decide)
    · intro h ctxLen hpass
      obtain ⟨hstores, hlen | rfl⟩ := passesCtxCheck_iff.mp hpass
      · exact hlen
      · exact absurd hstores h

/-- A message of version 2c with a community of 2^32 - 1 bytes by its length. -/
def wrappedCommunity : List UInt8 :=
  [0x30, 0x09, 0x02, 0x01, 0x01, 0x04, 0x84, 0xff, 0xff, 0xff, 0xff]

/-- An AgentX PDU with a context of 2^32 - 1 bytes by its length. -/
def wrappedContext : List UInt8 :=
  [1, agentxPduGet, nonDefaultContext, 0] ++ List.replicate 12 0 ++
    [4, 0, 0, 0, 0xff, 0xff, 0xff, 0xff]

/-- Both go past their checks, and the copy of the community overruns its array. -/
theorem name_checks_wrap :
    recvCheck 11 wrappedCommunity = .ok (.ok ((), wrappedCommunity.drop 2)) ∧
    (¬ ∀ name len, PassesCheck wrappedCommunity name len → len ≤ name.maxLen) ∧
    snmpDecode wrappedCommunity = .crash ∧
    ¬ ∀ ctxLen, PassesCtxCheck wrappedContext ctxLen → ctxLen.toNat ≤ 40 := by
  have hpass : PassesCheck wrappedCommunity .contextName (2 ^ 32 - 1) :=
    ⟨wrappedCommunity.drop 5, [], ⟨_, _, _, rfl, by decide, rfl⟩, by decide⟩
  have hctx : PassesCtxCheck wrappedContext 0xffffffff := ⟨⟨_, _, [], rfl, by decide, by decide⟩, by decide⟩
  refine ⟨by decide, fun h => ?_, snmpDecode_crash hpass (by decide), fun h => ?_⟩
  · exact absurd (h _ _ hpass) (by decide)
  · exact absurd (h _ hctx) (by decide)

end SmartSnmp
