import SmartSnmp.Mib.Instance

/-!
# The datagram

`struct snmp_datagram` of `core/snmp.h` and what belongs to it. A length of the source is a field of
its own where the code keeps it apart from the value: the length of an integer is the one found in
the request. A length that always is the number of elements of a buffer is that of the list.
-/

namespace SmartSnmp

/-- `struct var_bind`: `oid` spans `oid_len` and `value` spans `value_len`. The decoder leaves
`vb_len` unassigned, and it is read in responses only. -/
structure VarBind where
  oid : Oid
  vbLen : Nat
  valueType : UInt8
  value : List UInt8
  deriving DecidableEq

/-- `struct pdu_hdr`. -/
structure PduHdr where
  pduType : UInt8
  pduLen : Nat
  reqIdLen : Nat
  reqId : Int32
  errStatLen : Nat
  errStat : Int32
  errIdxLen : Nat
  errIdx : Int32
  deriving DecidableEq

/-- `struct snmp_datagram` without its two buffers. A character array holds its string, and zeros
after it. -/
structure SnmpDatagram where
  dataLen : Nat
  version : Int32
  verLen : Nat
  msgLen : Nat
  msgId : Int32
  msgIdLen : Nat
  msgMaxSize : Int32
  msgSizeLen : Nat
  /-- The byte `msg_flags` and, after it, what was copied to the padding. -/
  msgFlags : List UInt8
  msgSecurityModel : Int32
  msgModelLen : Nat
  securStrLen : Nat
  securParaLen : Nat
  engineId : List UInt8
  engineBoots : Int32
  engineBootsLen : Nat
  engineTime : Int32
  engineTimeLen : Nat
  userName : List UInt8
  authPara : List UInt8
  privPara : List UInt8
  scopeLen : Nat
  contextId : List UInt8
  contextName : List UInt8
  pduHdr : PduHdr
  vbListLen : Nat
  vbInCnt : Nat
  vbOutCnt : Nat
  vbInList : List VarBind
  vbOutList : List VarBind
  deriving DecidableEq

/-- `snmp_datagram_clear`. -/
def SnmpDatagram.clear : SnmpDatagram where
  dataLen := 0
  version := 0
  verLen := 0
  msgLen := 0
  msgId := 0
  msgIdLen := 0
  msgMaxSize := 0
  msgSizeLen := 0
  msgFlags := []
  msgSecurityModel := 0
  msgModelLen := 0
  securStrLen := 0
  securParaLen := 0
  engineId := []
  engineBoots := 0
  engineBootsLen := 0
  engineTime := 0
  engineTimeLen := 0
  userName := []
  authPara := []
  privPara := []
  scopeLen := 0
  contextId := []
  contextName := []
  pduHdr := ⟨0, 0, 0, 0, 0, 0, 0, 0⟩
  vbListLen := 0
  vbInCnt := 0
  vbOutCnt := 0
  vbInList := []
  vbOutList := []

/-- `SNMP_ERR_CODE_E`, as far as a function of the decoder returns it. -/
inductive SnmpErrCode where
  | version
  | globalDataLen
  | globalId
  | globalSize
  | globalFlags
  | globalModel
  | securityStr
  | securitySeq
  | securityEngineId
  | securityEngineIdLen
  | securityEngineBoots
  | securityEngineTime
  | securityUserName
  | securityUserNameLen
  | securityAuthPara
  | securityAuthParaLen
  | securityPrivParaLen
  | scopePduSeq
  | contextId
  | contextIdLen
  | contextName
  | contextNameLen
  | pduType
  | pduLen
  | pduReqid
  | pduErrstat
  | pduErridx
  | vbListSeq
  | vbSeq
  | vbOidType
  | vbValueLen
  | vbOidLen
  deriving DecidableEq

end SmartSnmp
