import SmartSnmp.AgentX.Decoder

/-!
# Receiving AgentX PDUs

`core/agentx_msg_in.c` up to the calls of the dispatch. The decoder knows the length that a PDU announces, but not
how many bytes were received.
-/

namespace SmartSnmp

open Bytes Reader

/-- The memory of an OID, word by word. -/
def wordsOf : List UInt8 → Oid
  | a :: b :: c :: d :: rest => UInt32.ofNat (leNat [a, b, c, d]) :: wordsOf rest
  | _ => []

/-- How far an OID of `oidLen` bytes in memory reaches in the buffer. -/
def oidAdvance (oidLen : Nat) : Nat := if 0 < oidLen then 4 + oidLen - 20 else 4

/-! ### Varbinds and search ranges -/

/-- `var_bind_alloc`: the new varbind, and how far the buffer is moved. -/
def xVarBindAlloc (flag : UInt8) : Reader AgentxErrCode (XVarBind × Nat) := do
  let type ← field16 flag
  skip 2
  let oidLen ← peek (agentxValueDecTry flag asn1TagObjid)
  failIf (mibOidMaxLen < oidLen / 4) .vbOidLen
  let valLen ← peek (do skip (oidAdvance oidLen); agentxValueDecTry flag type.toUInt8)
  failIf (mibValueMaxLen < valLen) .vbValueLen
  let oid ← peek (agentxValueDec flag asn1TagObjid)
  skip (oidAdvance oidLen)
  let val ← agentxValueDec flag type.toUInt8
  pure (⟨wordsOf oid.value, type, val.count, val.value, []⟩, 4 + oidAdvance oidLen + val.used)

/-- `search_range_alloc`: the new search range, and how far the buffer is moved. -/
def searchRangeAlloc (flag : UInt8) : Reader AgentxErrCode (XSearchRange × Nat) := do
  let startLen ← peek (agentxValueDecTry flag asn1TagObjid)
  failIf (mibOidMaxLen < startLen / 4) .srOidLen
  let startInclude ← peek (do skip 2; byte)
  let start ← peek (agentxValueDec flag asn1TagObjid)
  skip (oidAdvance startLen)
  let endLen ← peek (agentxValueDecTry flag asn1TagObjid)
  failIf (mibOidMaxLen < endLen / 4) .srOidLen
  let endInclude ← peek (do skip 2; byte)
  let stop ← agentxValueDec flag asn1TagObjid
  pure (⟨wordsOf start.value, wordsOf stop.value, startInclude, endInclude⟩,
    oidAdvance startLen + stop.used)

/-- The loop of `var_bind_parse` and of `search_range_parse`: the elements, and `payload_length` at
its end. -/
def payloadLoop {α : Type} (alloc : Reader AgentxErrCode (α × Nat)) :
    Nat → UInt32 → Reader AgentxErrCode (List α × UInt32)
  | 0, _ => outOfFuel
  | fuel + 1, payloadLength =>
    if payloadLength = 0 then pure ([], 0)
    else do
      let (elem, used) ← alloc
      let (elems, left) ← payloadLoop alloc fuel (payloadLength - UInt32.ofNat used)
      pure (elem :: elems, left)

/-- Every iteration reads a byte, so those that are left bound the loop. -/
def payloadParse {α : Type} (alloc : Reader AgentxErrCode (α × Nat)) (payloadLength : UInt32) :
    Reader AgentxErrCode (List α × UInt32) :=
  withRemaining fun n => payloadLoop alloc (n + 1) payloadLength

def AgentxDatagram.setPayload (xdg : AgentxDatagram) (payloadLength : UInt32) : AgentxDatagram :=
  { xdg with pduHdr := { xdg.pduHdr with payloadLength := payloadLength } }

/-- `var_bind_parse`. -/
def xVarBindParse (xdg : AgentxDatagram) : Reader AgentxErrCode AgentxDatagram := do
  let (vbs, left) ← payloadParse (xVarBindAlloc xdg.pduHdr.flags) xdg.pduHdr.payloadLength
  pure { xdg.setPayload left with vbInList := vbs }

def searchRangeParse (xdg : AgentxDatagram) : Reader AgentxErrCode AgentxDatagram := do
  let (srs, left) ← payloadParse (searchRangeAlloc xdg.pduHdr.flags) xdg.pduHdr.payloadLength
  pure { xdg.setPayload left with srInList := srs }

/-! ### The header -/

/-- The twenty bytes that every PDU starts with. -/
def fixedHdrParse : Reader AgentxErrCode XPduHdr := do
  let version ← byte
  let type ← byte
  let flags ← byte
  let reserved ← byte
  let sessionId ← field32 flags
  let transactionId ← field32 flags
  let packetId ← field32 flags
  let payloadLength ← field32 flags
  pure { version, type, flags, reserved, sessionId, transactionId, packetId, payloadLength }

/-- The optional context. The check of its length is made in 32 bits. -/
def contextParse (xdg : AgentxDatagram) : Reader AgentxErrCode AgentxDatagram :=
  if hasFlag xdg.pduHdr.flags nonDefaultContext then do
    let ctxLen ← field32 xdg.pduHdr.flags
    failIf (41 < (ctxLen + 1).toNat) .pduCtxLen
    let context ← bytes ctxLen.toNat
    skip (uintSizeof ctxLen.toNat - ctxLen.toNat)
    pure { xdg.setPayload (xdg.pduHdr.payloadLength - UInt32.ofNat (4 + uintSizeof ctxLen.toNat)) with
      context := context }
  else pure xdg

/-- The fields that belong to a type of PDU. -/
def additionalParse (xdg : AgentxDatagram) : Reader AgentxErrCode AgentxDatagram :=
  if xdg.pduHdr.type = agentxPduClose then do
    let reason ← peek byte
    skip 4
    pure { xdg.setPayload (xdg.pduHdr.payloadLength - 4) with reason := reason }
  else if xdg.pduHdr.type = agentxPduGetbulk then do
    let nonRep ← field16 xdg.pduHdr.flags
    let maxRep ← field16 xdg.pduHdr.flags
    pure { xdg.setPayload (xdg.pduHdr.payloadLength - 4) with nonRep := nonRep, maxRep := maxRep }
  else if xdg.pduHdr.type = agentxPduResponse then do
    let sysUpTime ← field32 xdg.pduHdr.flags
    let error ← field16 xdg.pduHdr.flags
    let index ← field16 xdg.pduHdr.flags
    pure { xdg.setPayload (xdg.pduHdr.payloadLength - 8) with
      sysUpTime := sysUpTime, error := error, index := index }
  else pure xdg

/-- `pdu_hdr_parse`. -/
def xPduHdrParse : Reader AgentxErrCode AgentxDatagram := do
  let pduHdr ← fixedHdrParse
  let xdg ← contextParse (.clear pduHdr)
  additionalParse xdg

/-! ### Datagrams -/

/-- The PDUs that carry search ranges. -/
def isSearchPdu (type : UInt8) : Bool :=
  type = agentxPduGet || type = agentxPduGetnext || type = agentxPduGetbulk

/-- The PDUs that carry varbinds, as far as the agent receives them. -/
def isVarBindPdu (type : UInt8) : Bool := type = agentxPduTestset || type = agentxPduResponse

/-- What `agentx_decode` does before `DECODE_FINISH`. -/
def agentxDatagramDecode : Reader AgentxErrCode AgentxDatagram := do
  let xdg ← xPduHdrParse
  if isSearchPdu xdg.pduHdr.type then searchRangeParse xdg
  else if isVarBindPdu xdg.pduHdr.type then xVarBindParse xdg
  else pure xdg

/-- `agentx_decode` of a buffer on a cleared datagram: the datagram, or the error. -/
def agentxDecode (buffer : List UInt8) : Outcome (Except AgentxErrCode AgentxDatagram) :=
  match agentxDatagramDecode buffer with
  | .ok (.ok (xdg, _)) => .ok (.ok xdg)
  | .ok (.error e) => .ok (.error e)
  | .crash => .crash
  | .fuel => .fuel

/-! ### Dispatch -/

/-- The functions that requests are passed to. -/
inductive AgentxHandler where
  | agentxGet
  | agentxGetnext
  | agentxSet
  | agentxResponse
  deriving DecidableEq

/-- `agentx_request_dispatch`, by the type of the PDU. -/
def agentxRequestDispatch (type : UInt8) : Option AgentxHandler :=
  if type = agentxPduGet then some .agentxGet
  else if type = agentxPduGetnext ∨ type = agentxPduGetbulk then some .agentxGetnext
  else if type = agentxPduTestset then some .agentxSet
  else if type = agentxPduCommitset ∨ type = agentxPduUndoset ∨ type = agentxPduCleanupset then
    some .agentxResponse
  else none

/-- `agentx_recv` up to the dispatch, on a buffer of which `len` bytes were received; `none` where it
stops at its assertion or reads past the buffer. -/
def agentxRecv (buffer : List UInt8) (len : Int) : Option (Except AgentxErrCode AgentxDatagram) :=
  if 0 < len then
    match agentxDecode buffer with
    | .ok ret => some ret
    | .crash => none
    | .fuel => none
  else none

end SmartSnmp
