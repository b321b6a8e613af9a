import SmartSnmp.Lib.Filler
import SmartSnmp.Snmp.Access

/-!
# The global datagram

There is one `snmp_datagram`, which every message is decoded to. The functions of
`core/snmp_msg_in.c` are modelled here once more as they fill it, field by field, and as they leave
it where they fail. From a cleared datagram they store what the functions of `MsgIn` return.
-/

namespace SmartSnmp

open Filler

/-- `struct snmp_datagram` with the lengths of its strings, which are stored before a string is
checked and copied. -/
structure GlobalDatagram extends SnmpDatagram where
  msgFlagsLen : Nat
  engineIdLen : Nat
  userNameLen : Nat
  authParaLen : Nat
  privParaLen : Nat
  contextIdLen : Nat
  contextNameLen : Nat
  deriving DecidableEq

namespace GlobalDatagram

/-- The datagram in which each length is that of its string. -/
def of (sdg : SnmpDatagram) : GlobalDatagram where
  toSnmpDatagram := sdg
  msgFlagsLen := sdg.msgFlags.length
  engineIdLen := sdg.engineId.length
  userNameLen := sdg.userName.length
  authParaLen := sdg.authPara.length
  privParaLen := sdg.privPara.length
  contextIdLen := sdg.contextId.length
  contextNameLen := sdg.contextName.length

/-- `snmp_datagram_clear`: every field is zero and the lists are empty, whatever was there. -/
def clear (_ : GlobalDatagram) : GlobalDatagram := of SnmpDatagram.clear

abbrev Fill := Filler GlobalDatagram SnmpErrCode

/-! ### Fields -/

/-- An integer: its length is stored, then its value. Empty content stores no value. -/
def intField (err : SnmpErrCode) (setLen : Nat → GlobalDatagram → GlobalDatagram)
    (setValue : Int32 → GlobalDatagram → GlobalDatagram) : Fill Unit := do
  let len ← lift (header asn1TagInt err)
  store (setLen len)
  let content ← lift (Reader.bytes len)
  if content = [] then pure ()
  else
    match berIntDec content with
    | some value => store (setValue value)
    | none => lift Reader.crash

/-- Copy to the start of an array. -/
def copyTo (content array : List UInt8) : List UInt8 := content ++ array.drop content.length

/-- A string: its length is stored and then checked; the content is copied over the array. -/
def strField (size : Nat) (err errLen : SnmpErrCode)
    (setLen : Nat → GlobalDatagram → GlobalDatagram)
    (modify : (List UInt8 → List UInt8) → GlobalDatagram → GlobalDatagram) : Fill Unit := do
  let len ← lift (header asn1TagOctstr err)
  store (setLen len)
  lift (Reader.failIf (size < (len + 1) % 2 ^ 32) errLen)
  if size < len then lift Reader.crash
  else do
    let content ← lift (Reader.bytes len)
    store (modify (copyTo content))

/-- The flags, the length of which is not checked. -/
def flagsField (err : SnmpErrCode) : Fill Unit := do
  let len ← lift (header asn1TagOctstr err)
  store fun g => { g with msgFlagsLen := len }
  if 4 < len then lift Reader.crash
  else do
    let content ← lift (Reader.bytes len)
    store fun g => { g with msgFlags := copyTo content g.msgFlags }

/-! ### Parts of a message -/

def globalDataDecode : Fill Unit := do
  intField .globalId (fun len g => { g with msgIdLen := len }) (fun v g => { g with msgId := v })
  intField .globalSize (fun len g => { g with msgSizeLen := len })
    (fun v g => { g with msgMaxSize := v })
  flagsField .globalFlags
  intField .globalModel (fun len g => { g with msgModelLen := len })
    (fun v g => { g with msgSecurityModel := v })

def securityParameterDecode : Fill Unit := do
  let securStrLen ← lift (header asn1TagOctstr .securityStr)
  store fun g => { g with securStrLen }
  let securParaLen ← lift (header asn1TagSeq .securitySeq)
  store fun g => { g with securParaLen }
  strField 33 .securityEngineId .securityEngineIdLen (fun len g => { g with engineIdLen := len })
    (fun u g => { g with engineId := u g.engineId })
  intField .securityEngineBoots (fun len g => { g with engineBootsLen := len })
    (fun v g => { g with engineBoots := v })
  intField .securityEngineTime (fun len g => { g with engineTimeLen := len })
    (fun v g => { g with engineTime := v })
  strField 41 .securityUserName .securityUserNameLen (fun len g => { g with userNameLen := len })
    (fun u g => { g with userName := u g.userName })
  strField 41 .securityAuthPara .securityAuthParaLen (fun len g => { g with authParaLen := len })
    (fun u g => { g with authPara := u g.authPara })
  strField 41 .securityEngineTime .securityPrivParaLen (fun len g => { g with privParaLen := len })
    (fun u g => { g with privPara := u g.privPara })

def pduHdrParse : Fill Unit := do
  let pduType ← lift Reader.byte
  store fun g => { g with pduHdr := { g.pduHdr with pduType } }
  let (_, pduLen) ← lift berLengthDec
  store fun g => { g with pduHdr := { g.pduHdr with pduLen } }
  intField .pduReqid (fun len g => { g with pduHdr := { g.pduHdr with reqIdLen := len } })
    (fun v g => { g with pduHdr := { g.pduHdr with reqId := v } })
  intField .pduErrstat (fun len g => { g with pduHdr := { g.pduHdr with errStatLen := len } })
    (fun v g => { g with pduHdr := { g.pduHdr with errStat := v } })
  intField .pduErridx (fun len g => { g with pduHdr := { g.pduHdr with errIdxLen := len } })
    (fun v g => { g with pduHdr := { g.pduHdr with errIdx := v } })

/-! ### Varbinds -/

/-- One iteration of the loop of `var_bind_parse`. -/
def varBindStep : Fill Unit := do
  lift (expectTag asn1TagSeq .vbSeq)
  let (lenLen, vbLen) ← lift berLengthDec
  let vb ← lift (Reader.peek varBindAlloc)
  store fun g => { g with vbInList := g.vbInList ++ [vb], vbInCnt := g.vbInCnt + 1 }
  lift (Reader.skip vbLen)
  store fun g => { g with vbListLen := countDown g.vbListLen ((1 + lenLen + vbLen) % 2 ^ 32) }

/-- `while (sdg->vb_list_len > 0)`. -/
def varBindLoop : Nat → Fill Unit
  | 0 => do
    let g ← Filler.get
    if g.vbListLen = 0 then pure () else lift Reader.outOfFuel
  | fuel + 1 => do
    let g ← Filler.get
    if g.vbListLen = 0 then pure ()
    else do
      varBindStep
      varBindLoop fuel

def varBindParse : Fill Unit := do
  let vbListLen ← lift (header asn1TagSeq .vbListSeq)
  store fun g => { g with vbListLen }
  Filler.withRemaining fun n => varBindLoop (n + 1)

/-! ### Messages -/

/-- What `snmp_decode` reads from version 3 on. -/
def v3HeaderDecode : Fill Unit := do
  let msgLen ← lift (header asn1TagSeq .globalDataLen)
  store fun g => { g with msgLen }
  globalDataDecode
  securityParameterDecode
  let scopeLen ← lift (header asn1TagSeq .scopePduSeq)
  store fun g => { g with scopeLen }
  strField 33 .contextId .contextIdLen (fun len g => { g with contextIdLen := len })
    (fun u g => { g with contextId := u g.contextId })

/-- The branch of `snmp_decode` on the version. -/
def v3Decode : Fill Unit := do
  let g ← Filler.get
  if 3 ≤ g.version then v3HeaderDecode else pure ()

/-- `snmp_decode` up to the varbinds. -/
def messageDecode : Fill Unit := do
  lift (Reader.skip 1)
  let (_, dataLen) ← lift berLengthDec
  store fun g => { g with dataLen }
  intField .version (fun len g => { g with verLen := len }) (fun v g => { g with version := v })
  v3Decode
  strField 41 .contextName .contextNameLen (fun len g => { g with contextNameLen := len })
    (fun u g => { g with contextName := u g.contextName })
  pduHdrParse

/-- The part of `snmp_decode` before `DECODE_FINISH`. -/
def datagramDecode : Fill Unit := do
  messageDecode
  varBindParse

/-- `snmp_decode`: where it fails, it clears the datagram. -/
def snmpDecode (g : GlobalDatagram) (buffer : List UInt8) : Outcome GlobalDatagram :=
  match datagramDecode g buffer with
  | .ok (.ok _, g) => .ok g
  | .ok (.error _, g) => .ok g.clear
  | .crash => .crash
  | .fuel => .fuel

/-- The checks of `snmpd_recv`. The length that is checked is stored. -/
def recvCheck (len : Nat) : Fill Unit := do
  lift (expectTag asn1TagSeq .pduType)
  let (lenLen, dataLen) ← lift berLengthDec
  store fun g => { g with dataLen }
  lift (Reader.failIf ((1 + lenLen + dataLen) % 2 ^ 32 ≠ len) .pduLen)

/-! ### From a cleared datagram -/

section Fields

variable {g : GlobalDatagram} {err errLen : SnmpErrCode}
  {setLen : Nat → GlobalDatagram → GlobalDatagram}

lemma fills_intField {setValue : Int32 → GlobalDatagram → GlobalDatagram}
    (hzero : ∀ len, setLen len g = setValue 0 (setLen len g)) :
    Fills g (intField err setLen setValue) (SmartSnmp.intField err)
      fun r => ((), setValue r.2 (setLen r.1 g)) := by
  refine (fills_lift _ g).bind fun len _ => .store_bind ((fills_lift _ _).bind fun content _ => ?_)
  refine Fills.ite (fun _ => fills_pure _ _ ?_) fun _ => ?_
  · rw [← hzero]
  · cases berIntDec content with
    | some value => exact fun bs => rfl
    | none => exact fills_crash

lemma fills_strField {size : Nat}
    {modify : (List UInt8 → List UInt8) → GlobalDatagram → GlobalDatagram}
    (hempty : ∀ content len, modify (copyTo content) (setLen len g) =
      modify (fun _ => content) (setLen len g)) :
    Fills g (strField size err errLen setLen modify) (SmartSnmp.strField size err errLen)
      fun content => ((), modify (fun _ => content) (setLen content.length g)) := by
  refine (fills_lift _ g).bind fun len _ => .store_bind ((fills_lift _ _).bind fun _ _ => ?_)
  refine Fills.ite (fun _ => fills_crash) fun _ => fills_bytes_store fun content hlen => ?_
  rw [hempty, hlen]

end Fields

lemma fills_flagsField {g : GlobalDatagram} {err : SnmpErrCode} (hempty : g.msgFlags = []) :
    Fills g (flagsField err) (SmartSnmp.flagsField err)
      fun content => ((), { g with msgFlagsLen := content.length, msgFlags := content }) := by
  refine (fills_lift _ g).bind fun len _ => .store_bind ?_
  refine Fills.ite (fun _ => fills_crash) fun _ => fills_bytes_store fun content hlen => ?_
  simp [copyTo, hempty, hlen]

lemma copyTo_nil (content : List UInt8) : copyTo content [] = content := by simp [copyTo]

lemma fills_globalDataDecode (sdg : SnmpDatagram) (hid : sdg.msgId = 0) (hsize : sdg.msgMaxSize = 0)
    (hflags : sdg.msgFlags = []) (hmodel : sdg.msgSecurityModel = 0) :
    Fills (of sdg) globalDataDecode (SmartSnmp.globalDataDecode sdg) fun sdg => ((), of sdg) := by
  refine (fills_intField fun _ => ?_).bind fun id _ => ?_
  · simp [of, hid]
  refine (fills_intField fun _ => ?_).bind fun size _ => ?_
  · simp [of, hsize]
  refine (fills_flagsField ?_).bind fun flags _ => ?_
  · exact hflags
  refine (fills_intField fun _ => ?_).map fun model => ?_
  · simp [of, hmodel]
  · rfl

lemma fills_securityParameterDecode (sdg : SnmpDatagram) (hid : sdg.engineId = [])
    (hboots : sdg.engineBoots = 0) (htime : sdg.engineTime = 0) (huser : sdg.userName = [])
    (hauth : sdg.authPara = []) (hpriv : sdg.privPara = []) :
    Fills (of sdg) securityParameterDecode (SmartSnmp.securityParameterDecode sdg)
      fun sdg => ((), of sdg) := by
  refine (fills_lift _ _).bind fun securStrLen _ => .store_bind ?_
  refine (fills_lift _ _).bind fun securParaLen _ => .store_bind ?_
  refine (fills_strField fun _ _ => ?_).bind fun engineId _ => ?_
  · simp [of, hid, copyTo_nil]
  refine (fills_intField fun _ => ?_).bind fun boots _ => ?_
  · simp [of, hboots]
  refine (fills_intField fun _ => ?_).bind fun time _ => ?_
  · simp [of, htime]
  refine (fills_strField fun _ _ => ?_).bind fun userName _ => ?_
  · simp [of, huser, copyTo_nil]
  refine (fills_strField fun _ _ => ?_).bind fun authPara _ => ?_
  · simp [of, hauth, copyTo_nil]
  refine (fills_strField fun _ _ => ?_).map fun privPara => ?_
  · simp [of, hpriv, copyTo_nil]
  · rfl

lemma fills_pduHdrParse (sdg : SnmpDatagram) (hzero : sdg.pduHdr = ⟨0, 0, 0, 0, 0, 0, 0, 0⟩) :
    Fills (of sdg) pduHdrParse (SmartSnmp.pduHdrParse sdg) fun sdg => ((), of sdg) := by
  refine (fills_lift _ _).bind fun pduType _ => .store_bind ?_
  refine (fills_lift _ _).bind fun pduLen _ => .store_bind ?_
  refine (fills_intField fun _ => ?_).bind fun reqId _ => ?_
  · simp [of, hzero]
  refine (fills_intField fun _ => ?_).bind fun errStat _ => ?_
  · simp [of, hzero]
  refine (fills_intField fun _ => ?_).map fun errIdx => ?_
  · simp [of, hzero]
  · simp [of]

/-- The datagram with varbinds added and the length that is left of their list. -/
def addVarBinds (g : GlobalDatagram) (vbs : List VarBind) (left : Nat) : GlobalDatagram :=
  { g with vbInList := g.vbInList ++ vbs, vbInCnt := g.vbInCnt + vbs.length, vbListLen := left }

lemma addVarBinds_nil {g : GlobalDatagram} {left : Nat} (h : g.vbListLen = left) :
    g.addVarBinds [] left = g := by
  subst h
  simp [addVarBinds]

lemma fills_varBindStep (g : GlobalDatagram) :
    Fills g varBindStep SmartSnmp.varBindStep
      fun r => ((), g.addVarBinds [r.1] (countDown g.vbListLen r.2)) := by
  refine (fills_lift _ _).bind fun _ _ => (fills_lift _ _).bind fun len _ => ?_
  refine (fills_lift _ _).bind fun vb _ => .store_bind ?_
  exact (fills_lift _ _).bind fun _ _ => fills_store rfl

lemma fills_varBindLoop (fuel : Nat) (g : GlobalDatagram) :
    Fills g (varBindLoop fuel) (SmartSnmp.varBindLoop fuel g.vbListLen)
      fun r => ((), g.addVarBinds r.1 r.2) := by
  induction fuel generalizing g with
  | zero =>
    refine .get_bind ?_
    cases hlen : g.vbListLen with
    | zero =>
      exact fills_pure _ _ (by rw [addVarBinds_nil hlen])
    | succ n => exact fun bs => rfl
  | succ fuel ih =>
    refine .get_bind ?_
    cases hlen : g.vbListLen with
    | zero =>
      exact fills_pure _ _ (by rw [addVarBinds_nil hlen])
    | succ n =>
      rw [if_neg (Nat.succ_ne_zero n)]
      refine (fills_varBindStep g).bind fun r _ => ?_
      rw [hlen]
      refine (ih _).map fun rest => ?_
      simp [addVarBinds]
      omega

lemma fills_varBindParse (sdg : SnmpDatagram) (hlist : sdg.vbInList = []) (hcnt : sdg.vbInCnt = 0) :
    Fills (of sdg) varBindParse (SmartSnmp.varBindParse sdg) fun sdg => ((), of sdg) := by
  refine (fills_lift _ _).bind fun vbListLen _ => .store_bind ?_
  apply (fills_withRemaining fun n => fills_varBindLoop (n + 1) _).map
  intro r
  simp [addVarBinds, of, hlist, hcnt]

/-- A part of a message stores its own fields only. -/
lemma frame_globalDataDecode {sdg sdg' : SnmpDatagram}
    (h : Reader.Yields (SmartSnmp.globalDataDecode sdg) sdg') :
    ∃ msgIdLen msgId msgSizeLen msgMaxSize msgFlags msgModelLen msgSecurityModel,
      sdg' = { sdg with
        msgIdLen, msgId, msgSizeLen, msgMaxSize, msgFlags, msgModelLen, msgSecurityModel } := by
  obtain ⟨id, _, h⟩ := h.of_bind
  obtain ⟨size, _, h⟩ := h.of_bind
  obtain ⟨flags, _, h⟩ := h.of_bind
  obtain ⟨model, _, h⟩ := h.of_bind
  exact ⟨_, _, _, _, _, _, _, h.of_pure.symm⟩

lemma frame_securityParameterDecode {sdg sdg' : SnmpDatagram}
    (h : Reader.Yields (SmartSnmp.securityParameterDecode sdg) sdg') :
    ∃ securStrLen securParaLen engineId engineBootsLen engineBoots engineTimeLen engineTime userName
      authPara privPara, sdg' = { sdg with
        securStrLen, securParaLen, engineId, engineBootsLen, engineBoots, engineTimeLen, engineTime
        userName, authPara, privPara } := by
  obtain ⟨str, _, h⟩ := h.of_bind
  obtain ⟨para, _, h⟩ := h.of_bind
  obtain ⟨id, _, h⟩ := h.of_bind
  obtain ⟨boots, _, h⟩ := h.of_bind
  obtain ⟨time, _, h⟩ := h.of_bind
  obtain ⟨user, _, h⟩ := h.of_bind
  obtain ⟨auth, _, h⟩ := h.of_bind
  obtain ⟨priv, _, h⟩ := h.of_bind
  exact ⟨_, _, _, _, _, _, _, _, _, _, h.of_pure.symm⟩

/-- The fields that are read after the header of version 3. -/
structure PduCleared (sdg : SnmpDatagram) : Prop where
  contextName : sdg.contextName = []
  pduHdr : sdg.pduHdr = ⟨0, 0, 0, 0, 0, 0, 0, 0⟩
  vbInList : sdg.vbInList = []
  vbInCnt : sdg.vbInCnt = 0

section Version

variable (dataLen verLen : Nat) (version : Int32)

lemma fills_v3HeaderDecode :
    Fills (of { SnmpDatagram.clear with dataLen, verLen, version }) v3HeaderDecode
      (SmartSnmp.v3HeaderDecode { SnmpDatagram.clear with dataLen, verLen, version })
      fun sdg => ((), of sdg) := by
  refine (fills_lift _ _).bind fun msgLen _ => .store_bind ?_
  apply (fills_globalDataDecode _ rfl rfl rfl rfl).bind
  intro sdg hsdg
  obtain ⟨_, _, _, _, _, _, _, rfl⟩ := frame_globalDataDecode hsdg
  apply (fills_securityParameterDecode _ rfl rfl rfl rfl rfl rfl).bind
  intro sdg hsdg
  obtain ⟨_, _, _, _, _, _, _, _, _, _, rfl⟩ := frame_securityParameterDecode hsdg
  refine (fills_lift _ _).bind fun scopeLen _ => .store_bind ?_
  refine (fills_strField fun _ _ => ?_).map fun contextId => ?_
  · simp [of, SnmpDatagram.clear, copyTo_nil]
  · rfl

lemma pduCleared_v3Decode {sdg : SnmpDatagram} (h : Reader.Yields (SmartSnmp.v3Decode
    { SnmpDatagram.clear with dataLen, verLen, version }) sdg) : PduCleared sdg := by
  rw [SmartSnmp.v3Decode] at h
  split_ifs at h
  · obtain ⟨msgLen, _, h⟩ := h.of_bind
    obtain ⟨sdg₁, h₁, h⟩ := h.of_bind
    obtain ⟨_, _, _, _, _, _, _, rfl⟩ := frame_globalDataDecode h₁
    obtain ⟨sdg₂, h₂, h⟩ := h.of_bind
    obtain ⟨_, _, _, _, _, _, _, _, _, _, rfl⟩ := frame_securityParameterDecode h₂
    obtain ⟨scopeLen, _, h⟩ := h.of_bind
    obtain ⟨contextId, _, h⟩ := h.of_bind
    obtain rfl := h.of_pure
    exact ⟨rfl, rfl, rfl, rfl⟩
  · obtain rfl := h.of_pure
    exact ⟨rfl, rfl, rfl, rfl⟩

lemma fills_v3Decode :
    Fills (of { SnmpDatagram.clear with dataLen, verLen, version }) v3Decode
      (SmartSnmp.v3Decode { SnmpDatagram.clear with dataLen, verLen, version })
      fun sdg => ((), of sdg) := by
  refine .get_bind (.ite (fun _ => fills_v3HeaderDecode dataLen verLen version) fun _ => ?_)
  exact fills_pure _ _ rfl

end Version

lemma fills_messageDecode :
    Fills (of SnmpDatagram.clear) messageDecode SmartSnmp.messageDecode
      fun sdg => ((), of sdg) := by
  refine (fills_lift _ _).bind fun _ _ => (fills_lift _ _).bind fun len _ => .store_bind ?_
  apply (fills_intField fun _ => rfl).bind
  intro version _
  apply (fills_v3Decode len.2 version.1 version.2).bind
  intro sdg hsdg
  have hcleared := pduCleared_v3Decode _ _ _ hsdg
  refine (fills_strField fun _ _ => ?_).bind fun contextName _ => ?_
  · simp [of, hcleared.contextName, copyTo_nil]
  exact fills_pduHdrParse _ hcleared.pduHdr

lemma varBinds_messageDecode {sdg : SnmpDatagram} (h : Reader.Yields SmartSnmp.messageDecode sdg) :
    sdg.vbInList = [] ∧ sdg.vbInCnt = 0 := by
  obtain ⟨_, _, h⟩ := h.of_bind
  obtain ⟨_, _, h⟩ := h.of_bind
  obtain ⟨_, _, h⟩ := h.of_bind
  obtain ⟨sdg₁, h₁, h⟩ := h.of_bind
  have hcleared := pduCleared_v3Decode _ _ _ h₁
  obtain ⟨_, _, h⟩ := h.of_bind
  obtain ⟨_, _, h⟩ := h.of_bind
  obtain ⟨_, _, h⟩ := h.of_bind
  obtain ⟨_, _, h⟩ := h.of_bind
  obtain ⟨_, _, h⟩ := h.of_bind
  obtain ⟨_, _, h⟩ := h.of_bind
  obtain rfl := h.of_pure
  exact ⟨hcleared.vbInList, hcleared.vbInCnt⟩

/-- From a cleared datagram, `snmp_decode` stores what the pure decoder returns. -/
lemma fills_datagramDecode :
    Fills (of SnmpDatagram.clear) datagramDecode SmartSnmp.datagramDecode
      fun sdg => ((), of sdg) := by
  apply fills_messageDecode.bind
  intro sdg hsdg
  obtain ⟨hlist, hcnt⟩ := varBinds_messageDecode hsdg
  exact fills_varBindParse sdg hlist hcnt

/-- `snmp_decode` on a cleared datagram is the pure decoder. -/
lemma snmpDecode_clear (buffer : List UInt8) :
    snmpDecode (of SnmpDatagram.clear) buffer = match SmartSnmp.snmpDecode buffer with
      | .ok sdg => .ok (of sdg)
      | .crash => .crash
      | .fuel => .fuel := by
  have h := fills_datagramDecode buffer
  rw [snmpDecode, SmartSnmp.snmpDecode]
  generalize SmartSnmp.datagramDecode buffer = r at h ⊢
  rcases r with (e | ⟨sdg, rest⟩) | _ | _
  · obtain ⟨g, hg⟩ := h
    rw [hg]
    rfl
  · rw [show datagramDecode _ buffer = _ from h]
  · rw [show datagramDecode _ buffer = _ from h]
  · rw [show datagramDecode _ buffer = _ from h]

/-- What the checks find does not depend on the datagram. -/
lemma follows_recvCheck (len : Nat) : Follows (recvCheck len) (SmartSnmp.recvCheck len) :=
  (follows_lift _).bind fun _ => (follows_lift _).bind fun _ => .store_bind (follows_lift _)

/-! ### Receiving -/

/-- The datagram as `snmp_response` leaves it. -/
def afterResponse (g : GlobalDatagram) (sdg : SnmpDatagram) : GlobalDatagram :=
  let g := { g with toSnmpDatagram := asn1Lengths sdg }
  if 3 ≤ sdg.version then { g with
    msgFlags := clearFlags g.msgFlags
    engineIdLen := snmpv3EngineId.length
    contextIdLen := snmpv3EngineId.length }
  else g

section Recv

variable (handlers : Handlers) (root : MibNode) (mv : MibViews)

/-- The dispatch of a decoded datagram: the response and the datagram that is left. -/
def dispatch (g : GlobalDatagram) : Traced Call (Option Response × GlobalDatagram) := do
  let r ← snmpRequestDispatch handlers root mv g.toSnmpDatagram
  match r with
  | none => pure (none, g)
  | some (s, response) => pure (some response, g.afterResponse s.sdg)

/-- `snmpd_recv` on the global datagram. A message that is rejected leaves before the datagram is
cleared. -/
def snmpdRecv (g : GlobalDatagram) (buffer : List UInt8) :
    Traced Call (Option Response × GlobalDatagram) :=
  match recvCheck buffer.length g buffer with
  | .ok (.error _, g) => pure (none, g)
  | .ok (.ok _, g) =>
    match snmpDecode g.clear buffer with
    | .ok g => dispatch handlers root mv g
    | .crash => Traced.crash
    | .fuel => Traced.outOfFuel
  | .crash => Traced.crash
  | .fuel => Traced.outOfFuel

/-- What `snmpd_recv` sends, where `memory` stands in the buffer of the response. -/
def snmpdRecvSent (g : GlobalDatagram) (buffer : List UInt8) (memory : Nat → UInt8) :
    Traced Call (Option (List UInt8)) := do
  let (response, _) ← snmpdRecv handlers root mv g buffer
  pure (response.map fun r => r.sent memory)

/-- The messages one after the other, from the datagram of `snmpd_init`. -/
def recvAll (history : List (List UInt8)) : Traced Call GlobalDatagram :=
  history.foldlM (fun g buffer => do
    let (_, g) ← snmpdRecv handlers root mv g buffer
    pure g) (of SnmpDatagram.clear)

/-- The messages that have left the datagram `g` leave no trace in what happens to the next one, after
the calls `l`. One that is rejected or that fails calls no handler and has no response; one that fails
to be decoded leaves the datagram cleared; the calls and the bytes of the response to any other are
those for a first message, whatever stands in the memory. -/
structure NoTrace (g : GlobalDatagram) (l : List Call) (buffer : List UInt8) : Prop where
  rejected : ∀ e g₁, recvCheck buffer.length g buffer = .ok (.error e, g₁) →
    snmpdRecv handlers root mv g buffer l = (.ok (none, g₁), l)
  failed : ∀ r g₁ e g₂, recvCheck buffer.length g buffer = .ok (.ok r, g₁) →
    datagramDecode g₁.clear buffer = .ok (.error e, g₂) →
    snmpdRecv handlers root mv g buffer l = (.ok (none, of SnmpDatagram.clear), l)
  sent : ∀ memory first, snmpdRecvSent handlers root mv g buffer memory l =
    snmpdRecvSent handlers root mv (of SnmpDatagram.clear) buffer first l

variable {handlers root mv}

/-- Whatever is in the datagram, the response is that of the model without it. -/
lemma snmpdRecv_refines (g : GlobalDatagram) (buffer : List UInt8) :
    (do let (response, _) ← snmpdRecv handlers root mv g buffer; pure response) =
      (do let r ← SmartSnmp.snmpdRecv handlers root mv buffer; pure (r.map Prod.snd)) := by
  have hcheck := follows_recvCheck buffer.length g buffer
  have hdecode := snmpDecode_clear buffer
  rw [snmpdRecv, SmartSnmp.snmpdRecv]
  generalize SmartSnmp.recvCheck buffer.length buffer = r at hcheck ⊢
  generalize SmartSnmp.snmpDecode buffer = d at hdecode ⊢
  rcases r with (e | r) | _ | _
  · obtain ⟨g', hg'⟩ := hcheck
    rw [hg']
    rfl
  · obtain ⟨g', hg'⟩ := hcheck
    rw [hg']
    simp only [clear, hdecode]
    rcases d with sdg | _ | _
    · simp only [dispatch, Traced.bind_assoc]
      congr 1
      funext r
      rcases r with _ | ⟨s, response⟩
      · rfl
      · rfl
    · rfl
    · rfl
  · rw [show recvCheck buffer.length g buffer = _ from hcheck]
    rfl
  · rw [show recvCheck buffer.length g buffer = _ from hcheck]
    rfl

/-- A cleared datagram is of no type that is dispatched. -/
lemma dispatch_clear :
    dispatch handlers root mv (of SnmpDatagram.clear) = pure (none, of SnmpDatagram.clear) := rfl

lemma snmpdRecv_rejected {g g₁ : GlobalDatagram} {buffer : List UInt8} {e : SnmpErrCode}
    (h : recvCheck buffer.length g buffer = .ok (.error e, g₁)) (l : List Call) :
    snmpdRecv handlers root mv g buffer l = (.ok (none, g₁), l) := by
  simp only [snmpdRecv, h, Traced.pure_apply]

lemma snmpdRecv_failed {g g₁ g₂ : GlobalDatagram} {buffer : List UInt8} {r : Unit × List UInt8}
    {e : SnmpErrCode} (hcheck : recvCheck buffer.length g buffer = .ok (.ok r, g₁))
    (hdecode : datagramDecode g₁.clear buffer = .ok (.error e, g₂)) (l : List Call) :
    snmpdRecv handlers root mv g buffer l = (.ok (none, of SnmpDatagram.clear), l) := by
  have hfail : snmpDecode g₁.clear buffer = .ok (of SnmpDatagram.clear) := by
    rw [snmpDecode, hdecode]
    rfl
  simp only [snmpdRecv, hcheck, hfail, dispatch_clear, Traced.pure_apply]

/-- Whatever is in the datagram, what is sent is the response of the model without it. -/
lemma snmpdRecvSent_eq (g : GlobalDatagram) (buffer : List UInt8) (memory : Nat → UInt8) :
    snmpdRecvSent handlers root mv g buffer memory = (do
      let r ← SmartSnmp.snmpdRecv handlers root mv buffer
      pure (r.map fun x => x.2.sent memory)) := by
  have hrefines : (do let (response, _) ← snmpdRecv handlers root mv g buffer; pure response) =
      (do let r ← SmartSnmp.snmpdRecv handlers root mv buffer; pure (r.map Prod.snd)) :=
    snmpdRecv_refines g buffer
  have h := congrArg (fun m => m >>= fun response => pure (response.map fun r => r.sent memory)) hrefines
  simpa [snmpdRecvSent, Traced.bind_assoc, Function.comp_def] using h

end Recv

end GlobalDatagram

end SmartSnmp
