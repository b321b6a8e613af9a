import SmartSnmp.AgentX.MsgIn

/-!
# Sending AgentX PDUs

`core/agentx_msg_out.c`, on a little-endian host. A PDU is written in the byte order of the host, into
a buffer that is allocated and cleared before. What is written is modelled apart from what was
allocated: the code does not compare the two.
-/

namespace SmartSnmp

open Bytes

/-! ### Words -/

def bytes16 (x : UInt16) : List UInt8 := leBytes 2 x.toNat

def bytes32 (x : UInt32) : List UInt8 := leBytes 4 x.toNat

/-- `struct x_pdu_hdr` in memory. -/
def XPduHdr.encode (ph : XPduHdr) : List UInt8 :=
  [ph.version, ph.type, ph.flags, ph.reserved] ++ (bytes32 ph.sessionId ++
    (bytes32 ph.transactionId ++ (bytes32 ph.packetId ++ bytes32 ph.payloadLength)))

/-- A PDU: the length that is allocated and sent, and what is written. -/
structure XPduBuf where
  len : Nat
  written : List UInt8
  deriving DecidableEq

/-- `struct x_objid_t` in memory, with its sub-identifiers. The fields of a byte are truncated. -/
def objidEncode (oid : Oid) : List UInt8 :=
  [UInt8.ofNat (oid.length - 5), (oid[4]?.getD 0).toUInt8, 0, 0] ++ (oid.drop 5).flatMap bytes32

/-! ### Regions -/

/-- `agentx_register_pdu` and `agentx_unregister_pdu` without a context: the header of the datagram
afterwards and the PDU; `none` where the assertion fails. -/
def regionPdu (type timeout : UInt8) (ph : XPduHdr) (oid : Oid) (priority rangeSubid : UInt8)
    (upperBound : UInt32) : Option (XPduHdr × XPduBuf) :=
  if 4 < oid.length ∧ oid.length + 5 ≤ mibOidMaxLen then
    let upper := if rangeSubid = 0 then [] else bytes32 upperBound
    let len := 28 + 4 * (oid.length - 5) + upper.length
    let ph := { ph with packetId := ph.packetId + 1 }
    let hdr := { ph with
      type := type
      flags := ph.flags ||| instanceRegistration
      reserved := 0
      payloadLength := UInt32.ofNat (len - 20) }
    some (ph, ⟨len, hdr.encode ++ ([timeout, priority, rangeSubid, 0] ++ (objidEncode oid ++ upper))⟩)
  else none

def agentxRegisterPdu (ph : XPduHdr) (oid : Oid) (timeout priority rangeSubid : UInt8)
    (upperBound : UInt32) : Option (XPduHdr × XPduBuf) :=
  regionPdu agentxPduReg timeout ph oid priority rangeSubid upperBound

/-- It does not write its timeout. -/
def agentxUnregisterPdu (ph : XPduHdr) (oid : Oid) (_timeout priority rangeSubid : UInt8)
    (upperBound : UInt32) : Option (XPduHdr × XPduBuf) :=
  regionPdu agentxPduUnreg 0 ph oid priority rangeSubid upperBound

/-! ### Responses -/

/-- What is added to the length of a response for the value of a varbind. -/
def valueSize (vb : XVarBind) : Nat :=
  if vb.valType < 256 ∧ isWordType vb.valType.toUInt8 then 4
  else if vb.valType = asn1TagCnt64.toUInt16 then 8
  else if vb.valType < 256 ∧ isStringType vb.valType.toUInt8 then 4 + uintSizeof vb.valLen
  else if vb.valType = asn1TagObjid.toUInt16 then 4 + (vb.valLen - 20)
  else 0

/-- What is added to the length of a response for a varbind. -/
def varBindSize (vb : XVarBind) : Nat := 4 + 4 + (vb.oid.length - 5) * 4 + valueSize vb

/-- The first `n` bytes of a value and of what lies behind it; `none` where they are not in the
varbind. -/
def valueBytes (vb : XVarBind) (n : Nat) : Option (List UInt8) :=
  if n ≤ (vb.value ++ vb.tail).length then some ((vb.value ++ vb.tail).take n) else none

/-- What is written for the value of a varbind. -/
def valueEncode (vb : XVarBind) : Option (List UInt8) :=
  if vb.valType < 256 ∧ isWordType vb.valType.toUInt8 then valueBytes vb 4
  else if vb.valType = asn1TagCnt64.toUInt16 then valueBytes vb 8
  else if vb.valType < 256 ∧ isStringType vb.valType.toUInt8 then
    (valueBytes vb vb.valLen).map fun value => bytes32 (UInt32.ofNat vb.valLen) ++
      (value ++ List.replicate (uintSizeof vb.valLen - vb.valLen) 0)
  else if vb.valType = asn1TagObjid.toUInt16 then
    (valueBytes vb (vb.valLen / 4 * 4)).map fun value => objidEncode (wordsOf value)
  else some []

/-- What is written for a varbind. -/
def xVarBindEncode (vb : XVarBind) : Option (List UInt8) :=
  (valueEncode vb).map fun value => bytes16 vb.valType ++ ([0, 0] ++ (objidEncode vb.oid ++ value))

/-- The length of a response, in 32 bits. -/
def responseLen (vbs : List XVarBind) : Nat := (28 + (vbs.map varBindSize).sum) % 2 ^ 32

/-- The header of a response of `len` bytes. -/
def responseHdr (ph : XPduHdr) (len : Nat) : XPduHdr :=
  { ph with
    type := agentxPduResponse
    reserved := 0
    payloadLength := UInt32.ofNat len - 20 }

/-- What is written in front of the varbinds of a response. -/
def responseHdrEncode (xdg : AgentxDatagram) (len : Nat) : List UInt8 :=
  (responseHdr xdg.pduHdr len).encode ++
    ([0, 0, 0, 0] ++ (bytes16 xdg.error ++ bytes16 xdg.index))

/-- `agentx_response_pdu`; `none` where it reads past a varbind. -/
def agentxResponsePdu (xdg : AgentxDatagram) : Option XPduBuf :=
  let len := responseLen xdg.vbOutList
  (xdg.vbOutList.mapM xVarBindEncode).map fun parts =>
    { len := len, written := responseHdrEncode xdg len ++ parts.flatten }

end SmartSnmp
