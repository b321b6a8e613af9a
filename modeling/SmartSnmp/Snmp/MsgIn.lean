import SmartSnmp.Snmp.Datagram
import SmartSnmp.Snmp.Decoder

/-!
# Receiving a message

`snmp_decode` of `core/snmp_msg_in.c` with the functions it calls, and the checks that `snmpd_recv`
makes before. They are readers of the received bytes: the length of the buffer is not known to
them. What a failing function has stored so far is not modelled, as `snmp_decode` then clears the
datagram.
-/

namespace SmartSnmp

open Reader

/-! ### Fields -/

/-- `if (*buf++ != tag) return err`. -/
def expectTag (tag : UInt8) (err : SnmpErrCode) : Reader SnmpErrCode Unit := do
  let b ← byte
  failIf (b ≠ tag) err

/-- The tag and the length octets of a sequence or a string; the length is returned. -/
def header (tag : UInt8) (err : SnmpErrCode) : Reader SnmpErrCode Nat := do
  expectTag tag err
  let (_, len) ← berLengthDec
  pure len

/-- An integer field: the length of its content and the value. The datagram has been cleared, so
empty content leaves a zero. -/
def intField (err : SnmpErrCode) : Reader SnmpErrCode (Nat × Int32) := do
  let len ← header asn1TagInt err
  let content ← bytes len
  if content = [] then pure (len, 0)
  else
    match berIntDec content with
    | some value => pure (len, value)
    | none => crash

/-- A string field that is copied to an array of `size` characters. The check of the length adds 1
to it in 32 bits. -/
def strField (size : Nat) (err errLen : SnmpErrCode) : Reader SnmpErrCode (List UInt8) := do
  let len ← header asn1TagOctstr err
  failIf (size < (len + 1) % 2 ^ 32) errLen
  if size < len then crash else bytes len

/-- The flags, which are copied to one character with three bytes of padding after it. -/
def flagsField (err : SnmpErrCode) : Reader SnmpErrCode (List UInt8) := do
  let len ← header asn1TagOctstr err
  if 4 < len then crash else bytes len

/-! ### Parts of a message -/

def globalDataDecode (sdg : SnmpDatagram) : Reader SnmpErrCode SnmpDatagram := do
  let (msgIdLen, msgId) ← intField .globalId
  let (msgSizeLen, msgMaxSize) ← intField .globalSize
  let msgFlags ← flagsField .globalFlags
  let (msgModelLen, msgSecurityModel) ← intField .globalModel
  pure { sdg with msgIdLen, msgId, msgSizeLen, msgMaxSize, msgFlags, msgModelLen, msgSecurityModel }

def securityParameterDecode (sdg : SnmpDatagram) : Reader SnmpErrCode SnmpDatagram := do
  let securStrLen ← header asn1TagOctstr .securityStr
  let securParaLen ← header asn1TagSeq .securitySeq
  let engineId ← strField 33 .securityEngineId .securityEngineIdLen
  let (engineBootsLen, engineBoots) ← intField .securityEngineBoots
  let (engineTimeLen, engineTime) ← intField .securityEngineTime
  let userName ← strField 41 .securityUserName .securityUserNameLen
  let authPara ← strField 41 .securityAuthPara .securityAuthParaLen
  -- a wrong tag is reported as the error of the engine time
  let privPara ← strField 41 .securityEngineTime .securityPrivParaLen
  pure { sdg with
    securStrLen, securParaLen, engineId, engineBootsLen, engineBoots, engineTimeLen, engineTime
    userName, authPara, privPara }

def pduHdrParse (sdg : SnmpDatagram) : Reader SnmpErrCode SnmpDatagram := do
  let pduType ← byte
  let (_, pduLen) ← berLengthDec
  let (reqIdLen, reqId) ← intField .pduReqid
  let (errStatLen, errStat) ← intField .pduErrstat
  let (errIdxLen, errIdx) ← intField .pduErridx
  pure { sdg with
    pduHdr := { pduType, pduLen, reqIdLen, reqId, errStatLen, errStat, errIdxLen, errIdx } }

/-! ### Varbinds -/

def varBindAlloc : Reader SnmpErrCode VarBind := do
  let oidLen ← header asn1TagObjid .vbOidType
  let content ← bytes oidLen
  failIf (mibOidMaxLen < berValueDecTry content asn1TagObjid) .vbOidLen
  let valType ← byte
  let (_, valLen) ← berLengthDec
  failIf (mibValueMaxLen < valLen) .vbValueLen
  let value ← bytes valLen
  pure {
    oid := if content = [] then [] else berOidDec content
    vbLen := 0
    valueType := valType
    value := value }

/-- One iteration of the loop of `var_bind_parse`: the new varbind, and what is subtracted from
`vb_list_len`. -/
def varBindStep : Reader SnmpErrCode (VarBind × Nat) := do
  expectTag asn1TagSeq .vbSeq
  let (lenLen, vbLen) ← berLengthDec
  let vb ← peek varBindAlloc
  skip vbLen
  pure (vb, (1 + lenLen + vbLen) % 2 ^ 32)

/-- `vb_list_len -= used`, in 32 bits. -/
def countDown (vbListLen used : Nat) : Nat := (vbListLen + 2 ^ 32 - used) % 2 ^ 32

/-- The loop of `var_bind_parse`: the varbinds, and `vb_list_len` at its end. -/
def varBindLoop : Nat → Nat → Reader SnmpErrCode (List VarBind × Nat)
  | _, 0 => pure ([], 0)
  | 0, _ + 1 => outOfFuel
  | fuel + 1, vbListLen + 1 => do
    let (vb, used) ← varBindStep
    let (vbs, left) ← varBindLoop fuel (countDown (vbListLen + 1) used)
    pure (vb :: vbs, left)

/-- `var_bind_parse`. Every iteration reads a byte, so those that are left bound the loop. -/
def varBindParse (sdg : SnmpDatagram) : Reader SnmpErrCode SnmpDatagram := do
  let vbListLen ← header asn1TagSeq .vbListSeq
  let (vbInList, left) ← withRemaining fun n => varBindLoop (n + 1) vbListLen
  pure { sdg with vbListLen := left, vbInList, vbInCnt := vbInList.length }

/-! ### Messages -/

/-- What `snmp_decode` reads from version 3 on. -/
def v3HeaderDecode (sdg : SnmpDatagram) : Reader SnmpErrCode SnmpDatagram := do
  let msgLen ← header asn1TagSeq .globalDataLen
  let sdg ← globalDataDecode { sdg with msgLen }
  let sdg ← securityParameterDecode sdg
  let scopeLen ← header asn1TagSeq .scopePduSeq
  let contextId ← strField 33 .contextId .contextIdLen
  pure { sdg with scopeLen, contextId }

/-- The branch of `snmp_decode` on the version. -/
def v3Decode (sdg : SnmpDatagram) : Reader SnmpErrCode SnmpDatagram :=
  if 3 ≤ sdg.version then v3HeaderDecode sdg else pure sdg

/-- `snmp_decode` up to the varbinds. -/
def messageDecode : Reader SnmpErrCode SnmpDatagram := do
  skip 1
  let (_, dataLen) ← berLengthDec
  let (verLen, version) ← intField .version
  let sdg ← v3Decode { SnmpDatagram.clear with dataLen, verLen, version }
  let contextName ← strField 41 .contextName .contextNameLen
  pduHdrParse { sdg with contextName }

/-- The part of `snmp_decode` before `DECODE_FINISH`. -/
def datagramDecode : Reader SnmpErrCode SnmpDatagram := do
  let sdg ← messageDecode
  varBindParse sdg

/-- `snmp_decode` on a cleared datagram. -/
def snmpDecode (buffer : List UInt8) : Outcome SnmpDatagram :=
  match datagramDecode buffer with
  | .ok (.ok (sdg, _)) => .ok sdg
  | .ok (.error _) => .ok SnmpDatagram.clear
  | .crash => .crash
  | .fuel => .fuel

/-- The checks of `snmpd_recv` on a buffer of `len` bytes. -/
def recvCheck (len : Nat) : Reader SnmpErrCode Unit := do
  expectTag asn1TagSeq .pduType
  let (lenLen, dataLen) ← berLengthDec
  failIf ((1 + lenLen + dataLen) % 2 ^ 32 ≠ len) .pduLen

end SmartSnmp
