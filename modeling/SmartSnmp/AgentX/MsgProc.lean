import SmartSnmp.AgentX.MsgOut
import SmartSnmp.Snmp.MsgProc

/-!
# Processing an AgentX request

`core/agentx_msg_proc.c` and `core/agentx_encoder.c`, with `agentx_request_dispatch`. All requests are
answered from the part of the tree below `1.3.6.1`, and there is no access control. As in SNMP, one
result structure is used for all the elements of a request.
-/

namespace SmartSnmp

/-! ### Values -/

/-- `agentx_value_enc_try`. The number of elements stems from 16 bits, so the length fits 32. -/
def agentxValueEncTry (len : Nat) (type : UInt8) : Nat :=
  if isWordType type then 4
  else if type = asn1TagCnt64 then 8
  else if type = asn1TagObjid then len * 4
  else if isStringType type then len
  else 0

/-- The first `n` bytes in memory, if there are as many. -/
def bytesAt (mem : List UInt8) (n : Nat) : Option (List UInt8) :=
  if n ≤ mem.length then some (mem.take n) else none

/-- `agentx_value_enc`; `none` where it reads past the value. -/
def agentxValueEnc (mem : List UInt8) (len : Nat) (type : UInt8) : Option (List UInt8) :=
  if isWordType type then bytesAt mem 4
  else if type = asn1TagCnt64 then bytesAt mem 8
  else if type = asn1TagObjid then bytesAt mem (len * 4)
  else if isStringType type then bytesAt mem len
  else some []

/-! ### Searches -/

/-- `agentx_dummy_view`. -/
def agentxDummyView : Oid := [1, 3, 6, 1]

/-- The buffer of an OID has room for 1024 sub-identifiers, and `inst_id` points into it. In
`mib_tree_search` a handler that is called for GETNEXT has its OID written there, while `id_len` stays. -/
def OidSearchRes.overwrite (ret : OidSearchRes) : Option OidSearchRes :=
  if ret.instPos + ret.instId.length ≤ mibValueMaxLen then
    some { ret with oid := (ret.oid.take ret.instPos ++ ret.instId ++
      ret.oid.drop (ret.instPos + ret.instId.length)).take ret.oid.length }
  else none

namespace AgentX

section Search

variable (handlers : Handlers) (root : MibNode)

def mibGet (srIn : XSearchRange) (ret : OidSearchRes) : Traced Call OidSearchRes :=
  searchAt handlers root srIn.start agentxDummyView ret

/-- `ret_oid->err_stat || !MIB_TAG_VALID(tag(&ret_oid->var))`. -/
def failed (ret : OidSearchRes) : Bool := ret.errStat ≠ 0 || !mibTagValid ret.var.tag

/-- The OID that was found exceeds the end of the range. -/
def exceeds (srIn : XSearchRange) (oid : Oid) : Bool :=
  srIn.endInclude ≠ 0 && decide (0 < oidCmp oid srIn.stop) ||
    srIn.endInclude = 0 && decide (0 ≤ oidCmp oid srIn.stop)

/-- The search for the OID next to the start, whose result is compared with the end of the range. -/
def mibGetBehind (srIn : XSearchRange) (ret : OidSearchRes) : Traced Call OidSearchRes := do
  let ret ← mibTreeSearchNext handlers agentxDummyView srIn.start root ret
  if !failed ret && exceeds srIn ret.oid then
    pure ({ ret with oid := srIn.start, instPos := 0, instId := [] }.setTag asn1TagEndOfMibView)
  else pure ret

/-- `mib_getnext`. The search at the start has the request of a GETNEXT. -/
def mibGetnext (srIn : XSearchRange) (ret : OidSearchRes) : Traced Call OidSearchRes :=
  if srIn.startInclude ≠ 0 then do
    let ret ← searchAt handlers root srIn.start agentxDummyView ret
    if failed ret then mibGetBehind handlers root srIn ret
    else match ret.overwrite with
      | some ret => pure ret
      | none => Traced.crash
  else mibGetBehind handlers root srIn ret

def mibSet (vbIn : XVarBind) (ret : OidSearchRes) : Traced Call OidSearchRes :=
  searchAt handlers root vbIn.oid agentxDummyView ret

end Search

/-! ### Varbinds -/

/-- Copy the value of a request to the variable. The number of its elements is cut to 16 bits. -/
def decodeValue (vbIn : XVarBind) (ret : OidSearchRes) : Option OidSearchRes :=
  let tag := vbIn.valType.toUInt8
  let len := vbIn.valLen % 65536
  (bytesAt vbIn.value (agentxValueEncTry len tag)).bind fun bytes =>
    (ret.var.write bytes).map fun value => { ret with var := ⟨tag, len, value⟩ }

/-- Encode `len` elements of the variable to the end of a varbind, which is allocated with `valLen` bytes
behind the structure. -/
def encodeValue (var : Variable) (valLen len : Nat) : Option (List UInt8) :=
  (agentxValueEnc var.value len var.tag).filter fun value => value.length ≤ xVarBindTail + valLen

/-- `vb_out` of `agentx_get` and `agentx_getnext`, whose structure ends with the word `tail`. -/
def getVarBind (tail : UInt32) (ret : OidSearchRes) : Option XVarBind :=
  let valLen := agentxValueEncTry ret.var.len ret.var.tag
  (encodeValue ret.var valLen ret.var.len).map fun value =>
    ⟨ret.oid, ret.var.tag.toUInt16, value.length, value, bytes32 tail⟩

/-- `vb_out` of `agentx_set`, which has the type of the request. The number of elements that is passed
to the encoder is the number of bytes. -/
def setVarBind (tail : UInt32) (vbIn : XVarBind) (ret : OidSearchRes) : Option XVarBind :=
  let valLen := agentxValueEncTry ret.var.len ret.var.tag
  (encodeValue ret.var valLen valLen).map fun value =>
    ⟨ret.oid, vbIn.valType, value.length, value, bytes32 tail⟩

/-- Mark the first element with an error, in fields of 16 bits. -/
def mark (xdg : AgentxDatagram) (errStat : Int32) (cnt : UInt32) : AgentxDatagram :=
  if errStat ≠ 0 ∧ xdg.error = 0 then
    { xdg with error := errStat.toUInt32.toUInt16, index := cnt.toUInt16 }
  else xdg

/-- The variables of a request function, and what the search of each element returned. -/
structure ProcState where
  xdg : AgentxDatagram
  ret : OidSearchRes
  cnt : UInt32
  reports : List (OidSearchRes × XVarBind)

def ProcState.init (request : MibReq) (xdg : AgentxDatagram) : ProcState :=
  ⟨xdg, .init request, 0, []⟩

/-- What an iteration does with the result of its search and the new varbind. -/
def ProcState.add (s : ProcState) (ret : OidSearchRes) (vbOut : XVarBind) : ProcState where
  xdg := { mark s.xdg ret.errStat (s.cnt + 1) with vbOutList := s.xdg.vbOutList ++ [vbOut] }
  ret := ret
  cnt := s.cnt + 1
  reports := s.reports ++ [(ret, vbOut)]

end AgentX

/-! ### Requests -/

section Requests

open AgentX

/- The tail of each new varbind is what was in the memory that `xmalloc` returns for it. -/
variable (handlers : Handlers) (root : MibNode) (tail : UInt32 → UInt32)

def xGetStep (s : AgentX.ProcState) (srIn : XSearchRange) : Traced Call AgentX.ProcState := do
  let ret ← AgentX.mibGet handlers root srIn s.ret
  match AgentX.getVarBind (tail s.cnt) ret with
  | some vbOut => pure (s.add ret vbOut)
  | none => Traced.crash

def xGetnextStep (s : AgentX.ProcState) (srIn : XSearchRange) : Traced Call AgentX.ProcState := do
  let ret ← AgentX.mibGetnext handlers root srIn s.ret
  match AgentX.getVarBind (tail s.cnt) ret with
  | some vbOut => pure (s.add ret vbOut)
  | none => Traced.crash

/-- The search of a SET starts from the value of its varbind. An invalid tag becomes an error. -/
def xSetStep (s : AgentX.ProcState) (vbIn : XVarBind) : Traced Call AgentX.ProcState :=
  match AgentX.decodeValue vbIn s.ret with
  | none => Traced.crash
  | some ret => do
    let ret ← AgentX.mibSet handlers root vbIn ret
    match AgentX.setVarBind (tail s.cnt) vbIn ret with
    | some vbOut => pure (s.add (setStatus ret) vbOut)
    | none => Traced.crash

/-- `agentx_response`. -/
def agentxResponse (s : AgentX.ProcState) : Traced Call (AgentX.ProcState × XPduBuf) :=
  match agentxResponsePdu s.xdg with
  | some pdu => pure (s, pdu)
  | none => Traced.crash

def agentxGet (xdg : AgentxDatagram) : Traced Call (AgentX.ProcState × XPduBuf) := do
  let s ← xdg.srInList.foldlM (xGetStep handlers root tail) (.init .get xdg)
  agentxResponse s

def agentxGetnext (xdg : AgentxDatagram) : Traced Call (AgentX.ProcState × XPduBuf) := do
  let s ← xdg.srInList.foldlM (xGetnextStep handlers root tail) (.init .getNext xdg)
  agentxResponse s

def agentxSet (xdg : AgentxDatagram) : Traced Call (AgentX.ProcState × XPduBuf) := do
  let s ← xdg.vbInList.foldlM (xSetStep handlers root tail) (.init .set xdg)
  agentxResponse s

/-- The function that a request is passed to, if there is one. -/
def agentxRequest (xdg : AgentxDatagram) : Traced Call (Option (AgentX.ProcState × XPduBuf)) :=
  match agentxRequestDispatch xdg.pduHdr.type with
  | some .agentxGet => some <$> agentxGet handlers root tail xdg
  | some .agentxGetnext => some <$> agentxGetnext handlers root tail xdg
  | some .agentxSet => some <$> agentxSet handlers root tail xdg
  | some .agentxResponse => some <$> agentxResponse (.init .get xdg)
  | none => pure none

end Requests

end SmartSnmp
