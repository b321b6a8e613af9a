import SmartSnmp.Snmp.Datagram
import SmartSnmp.Snmp.Encoder

/-!
# Sending a response

`core/snmp_msg_out.c`. The lengths are computed in 32 bits from the inside out, then the buffer is
allocated and filled from its start. What is written is modelled apart from what was allocated: the
code does not compare the two.
-/

namespace SmartSnmp

/-- `snmpv3_engine_id`. -/
def snmpv3EngineId : List UInt8 :=
  [0x80, 0x00, 0x00, 0x00, 0x04, 0x53, 0x6d, 0x61, 0x72, 0x74, 0x53, 0x4e, 0x4d, 0x50]

/-! ### Lengths -/

/-- `tag_len + len_len + len`, in 32 bits. -/
def tlvLen (len : Nat) : Nat := (1 + berLengthEncTry (UInt32.ofNat len) + len) % 2 ^ 32

def globalDataEncodeTry (sdg : SnmpDatagram) : Nat :=
  (tlvLen sdg.msgIdLen + tlvLen sdg.msgSizeLen + tlvLen sdg.msgFlags.length +
    tlvLen sdg.msgModelLen) % 2 ^ 32

/-- `security_parameter_encode_try`, where `engine_id_len` is first set for the own engine. -/
def securityParameterEncodeTry (sdg : SnmpDatagram) : Nat :=
  (tlvLen snmpv3EngineId.length + tlvLen sdg.engineBootsLen + tlvLen sdg.engineTimeLen +
    tlvLen sdg.userName.length + tlvLen sdg.authPara.length + tlvLen sdg.privPara.length) % 2 ^ 32

/-- What `asn1_encode` computes as `pdu_len`. -/
def pduEncodeTry (sdg : SnmpDatagram) : Nat :=
  (tlvLen sdg.vbListLen + tlvLen sdg.pduHdr.reqIdLen + tlvLen sdg.pduHdr.errStatLen +
    tlvLen sdg.pduHdr.errIdxLen) % 2 ^ 32

/-- The lengths that `asn1_encode` computes. -/
def asn1Lengths (sdg : SnmpDatagram) : SnmpDatagram :=
  let pduLen := pduEncodeTry sdg
  let scopeLen := (tlvLen pduLen + tlvLen sdg.contextName.length) % 2 ^ 32
  if 3 ≤ sdg.version then
    let scopeLen := (scopeLen + tlvLen snmpv3EngineId.length) % 2 ^ 32
    let securParaLen := securityParameterEncodeTry sdg
    let securStrLen := tlvLen securParaLen
    let msgLen := globalDataEncodeTry sdg
    { sdg with
      pduHdr := { sdg.pduHdr with pduLen }
      scopeLen, securParaLen, securStrLen, msgLen
      dataLen := (tlvLen msgLen + tlvLen securStrLen + tlvLen scopeLen + tlvLen sdg.verLen) %
        2 ^ 32 }
  else
    { sdg with
      pduHdr := { sdg.pduHdr with pduLen }
      scopeLen
      dataLen := (scopeLen + tlvLen sdg.verLen) % 2 ^ 32 }

/-- `vb_len` of a response varbind, as `snmp_get` and its siblings compute it. -/
def responseVbLen (oidLen valueLen : Nat) : Nat := (tlvLen oidLen + tlvLen valueLen) % 2 ^ 32

/-- `vb_list_len += tag_len + len_len + vb_len`. -/
def addVarBindLen (vbListLen vbLen : Nat) : Nat := (vbListLen + tlvLen vbLen) % 2 ^ 32

/-! ### Bytes -/

/-- A tag and the octets of a length. -/
def headerEnc (tag : UInt8) (len : Nat) : List UInt8 := tag :: berLengthEnc (UInt32.ofNat len)

/-- An integer, announced with the length that is stored for it. -/
def intFieldEnc (len : Nat) (value : Int32) : List UInt8 := headerEnc asn1TagInt len ++ berIntEnc value

def strFieldEnc (value : List UInt8) : List UInt8 := headerEnc asn1TagOctstr value.length ++ value

/-- `msg_flags = 0`, which leaves the padding after it. -/
def clearFlags : List UInt8 → List UInt8
  | [] => []
  | _ :: padding => 0 :: padding

def globalDataEncode (sdg : SnmpDatagram) : List UInt8 :=
  headerEnc asn1TagSeq sdg.msgLen ++ (intFieldEnc sdg.msgIdLen sdg.msgId ++
    (intFieldEnc sdg.msgSizeLen sdg.msgMaxSize ++ (strFieldEnc (clearFlags sdg.msgFlags) ++
      intFieldEnc sdg.msgModelLen sdg.msgSecurityModel)))

def securityParameterEncode (sdg : SnmpDatagram) : List UInt8 :=
  headerEnc asn1TagSeq sdg.securParaLen ++ (strFieldEnc snmpv3EngineId ++
    (intFieldEnc sdg.engineBootsLen sdg.engineBoots ++
      (intFieldEnc sdg.engineTimeLen sdg.engineTime ++ (strFieldEnc sdg.userName ++
        (strFieldEnc sdg.authPara ++ strFieldEnc sdg.privPara)))))

/-- What `asn1_encode` writes from version 3 on. -/
def v3HeaderEncode (sdg : SnmpDatagram) : List UInt8 :=
  globalDataEncode sdg ++ (headerEnc asn1TagOctstr sdg.securStrLen ++
    (securityParameterEncode sdg ++ (headerEnc asn1TagSeq sdg.scopeLen ++
      strFieldEnc snmpv3EngineId)))

/-- What `asn1_encode` writes from the PDU header on. -/
def pduHdrEncode (sdg : SnmpDatagram) : List UInt8 :=
  let ph := sdg.pduHdr
  headerEnc ph.pduType ph.pduLen ++ (intFieldEnc ph.reqIdLen ph.reqId ++
    (intFieldEnc ph.errStatLen ph.errStat ++ (intFieldEnc ph.errIdxLen ph.errIdx ++
      headerEnc asn1TagSeq sdg.vbListLen)))

/-- What `asn1_encode` writes, with the lengths computed. -/
def asn1Encode (sdg : SnmpDatagram) : List UInt8 :=
  headerEnc asn1TagSeq sdg.dataLen ++ (intFieldEnc sdg.verLen sdg.version ++
    ((if 3 ≤ sdg.version then v3HeaderEncode sdg else []) ++
      (strFieldEnc sdg.contextName ++ pduHdrEncode sdg)))

/-- What the loop of `snmp_response` writes for a varbind; `none` if the length of the OID is not
found. -/
def varBindEncode (vb : VarBind) : Option (List UInt8) :=
  (berOidEncTry vb.oid).map fun oidLen =>
    headerEnc asn1TagSeq vb.vbLen ++ (headerEnc asn1TagObjid oidLen ++ (berOidEnc vb.oid ++
      (headerEnc vb.valueType vb.value.length ++ vb.value)))

/-- A response: the size of `send_buf`, what is written to it, and the length that is sent. -/
structure Response where
  alloc : Nat
  written : List UInt8
  len : Nat
  deriving DecidableEq

/-- The bytes that are sent, where `memory` stands in `send_buf` before it is written. -/
def Response.sent (r : Response) (memory : Nat → UInt8) : List UInt8 :=
  (r.written ++ ((List.range r.alloc).drop r.written.length).map memory).take r.len

/-- `asn1_encode` and `snmp_response`. -/
def snmpResponse (sdg : SnmpDatagram) : Option Response :=
  let sdg := asn1Lengths sdg
  (sdg.vbOutList.mapM varBindEncode).map fun parts => {
    alloc := tlvLen sdg.dataLen
    written := asn1Encode sdg ++ parts.flatten
    len := tlvLen sdg.dataLen }

end SmartSnmp
