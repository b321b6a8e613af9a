import SmartSnmp.Mib.Search.Basic
import SmartSnmp.Mib.View.Basic
import SmartSnmp.Snmp.MsgIn
import SmartSnmp.Snmp.MsgOut

/-!
# Processing a request

`core/snmp_msg_proc.c`, with the dispatch and `snmpd_recv` of `core/snmp_msg_in.c`. A request is
processed against the tree of the MIB and the lists of views, which it does not change. One result
structure is used for all the varbinds of a request.
-/

namespace SmartSnmp

/-! ### Requesters -/

/-- What a string function sees of a character array. -/
def cString (s : List UInt8) : List UInt8 := s.takeWhile (· ≠ 0)

/-- The user of a datagram from version 3 on, else its community. -/
def requester (mv : MibViews) (sdg : SnmpDatagram) : Option ViewEntry :=
  if 3 ≤ sdg.version then mibUserSearch mv (cString sdg.userName)
  else mibCommunitySearch mv (cString sdg.contextName)

def requesterNextView (sdg : SnmpDatagram) : Option ViewEntry → MibAcesAttr → Option Oid → Option Oid :=
  if 3 ≤ sdg.version then mibUserNextView else mibCommunityNextView

def requesterViewCover (sdg : SnmpDatagram) : Option ViewEntry → MibAcesAttr → Oid → Bool :=
  if 3 ≤ sdg.version then mibUserViewCover else mibCommunityViewCover

/-- `SNMP_ERR_STAT_NO_ACCESS`. -/
abbrev snmpErrStatNoAccess : Int32 := 6

/-- `SNMP_ERR_STAT_NOT_WRITABLE`. -/
abbrev snmpErrStatNotWritable : Int32 := 17

/-- The error status if there is nobody to access the views. -/
def checkAccess (e : Option ViewEntry) (ret : OidSearchRes) : OidSearchRes :=
  if e.isNone then { ret with errStat := snmpErrStatNoAccess } else ret

/-! ### Searches over the views -/

/-- The loop over the views of `mib_get`, `mib_getnext` and `mib_set`: search in one view after the
other until the result is final. -/
def viewLoop (next : Option Oid → Option Oid) (search : Oid → OidSearchRes → Traced Call OidSearchRes)
    (final : Oid → OidSearchRes → Bool) (oid : Oid) :
    Nat → Option Oid → OidSearchRes → Traced Call OidSearchRes
  | 0, _, _ => Traced.outOfFuel
  | fuel + 1, view, ret =>
    match next view with
    | none => pure { ret with oid := oid }
    | some view => do
      let ret ← search view ret
      if final view ret then pure ret else viewLoop next search final oid fuel (some view) ret

/-- Enough iterations for the views of an entry. -/
def viewFuel (e : Option ViewEntry) (attr : MibAcesAttr) : Nat :=
  (e.map fun e => (e.views attr).length).getD 0 + 1

/-- A result is final if it is an instance, or if the OID is ahead of the view. -/
def getFinal (oid view : Oid) (ret : OidSearchRes) : Bool :=
  ret.errStat = 0 && mibTagValid ret.var.tag || oidCmp oid view < 0

section Search

variable (handlers : Handlers) (root : MibNode) (mv : MibViews)

/-- `mib_tree_search`, of which only the result is used. -/
def searchAt (oid view : Oid) (ret : OidSearchRes) : Traced Call OidSearchRes := do
  let (_, ret) ← mibTreeSearch handlers root view oid ret
  pure ret

def mibGet (sdg : SnmpDatagram) (vbIn : VarBind) (ret : OidSearchRes) : Traced Call OidSearchRes :=
  let e := requester mv sdg
  viewLoop (requesterNextView sdg e .read) (searchAt handlers root vbIn.oid) (getFinal vbIn.oid)
    vbIn.oid (viewFuel e .read) none (checkAccess e ret)

def mibGetnext (sdg : SnmpDatagram) (vbIn : VarBind) (ret : OidSearchRes) :
    Traced Call OidSearchRes :=
  let e := requester mv sdg
  viewLoop (requesterNextView sdg e .read)
    (fun view ret => mibTreeSearchNext handlers view vbIn.oid root ret)
    (fun _ ret => ret.var.tag ≠ asn1TagEndOfMibView) vbIn.oid (viewFuel e .read) none
    (checkAccess e ret)

/-- `mib_set`. A requester whose write views do not cover the OID counts as none. -/
def mibSet (sdg : SnmpDatagram) (vbIn : VarBind) (ret : OidSearchRes) : Traced Call OidSearchRes :=
  let e := (requester mv sdg).filter fun e => requesterViewCover sdg (some e) .write vbIn.oid
  viewLoop (requesterNextView sdg e .write) (searchAt handlers root vbIn.oid) (getFinal vbIn.oid)
    vbIn.oid (viewFuel e .write) none (checkAccess e ret)

end Search

/-! ### Varbinds -/

/-- Decode the value of a request to the variable. An element takes a byte or more, so if the value
fits then its count fits `length(var)`. -/
def decodeValue (vbIn : VarBind) (ret : OidSearchRes) : Option OidSearchRes :=
  (berValueDec vbIn.value vbIn.valueType).bind fun (len, bytes) =>
    (ret.var.write bytes).map fun value => { ret with var := ⟨vbIn.valueType, len, value⟩ }

/-- The bytes of `struct var_bind` behind the start of `value`: it lies behind a byte, and the size of
the structure is a multiple of four. -/
abbrev varBindTail : Nat := 3

/-- Encode `len` elements of the variable to the end of a varbind, which is allocated with `valLen` bytes
behind the structure. -/
def encodeValue (var : Variable) (valLen len : Nat) : Option (List UInt8) :=
  (berValueEnc var.value len var.tag).filter fun value => value.length ≤ varBindTail + valLen

/-- A varbind of a response with its length. -/
def responseVarBind (oid : Oid) (valueType : UInt8) (value : List UInt8) : Option VarBind :=
  (berOidEncTry oid).map fun oidLen => ⟨oid, responseVbLen oidLen value.length, valueType, value⟩

/-- `vb_out` of `snmp_get`, `snmp_getnext` and `snmp_bulkget`. -/
def getVarBind (ret : OidSearchRes) : Option VarBind :=
  (berValueEncTry ret.var.value ret.var.len ret.var.tag).bind fun valLen =>
    (encodeValue ret.var valLen ret.var.len).bind fun value =>
      responseVarBind ret.oid ret.var.tag value

/-- `vb_out` of `snmp_set`, which has the type of the request. The number of elements that is passed
to the encoder is the number of bytes. -/
def setVarBind (vbIn : VarBind) (ret : OidSearchRes) : Option VarBind :=
  (berValueEncTry ret.var.value ret.var.len ret.var.tag).bind fun valLen =>
    (encodeValue ret.var valLen valLen).bind fun value =>
      responseVarBind ret.oid vbIn.valueType value

/-- In `snmp_set` a tag that is not valid becomes an error. -/
def setStatus (ret : OidSearchRes) : OidSearchRes :=
  if ret.errStat = 0 ∧ mibTagValid ret.var.tag = false then
    { ret with errStat := snmpErrStatNotWritable }
  else ret

/-- Mark the first varbind with an error. -/
def PduHdr.mark (ph : PduHdr) (errStat : Int32) (vbInCnt : UInt32) : PduHdr :=
  if errStat ≠ 0 ∧ ph.errStat = 0 then { ph with errStat := errStat, errIdx := vbInCnt.toInt32 }
  else ph

/-- Add a varbind to `vb_out_list`. -/
def SnmpDatagram.addVarBind (sdg : SnmpDatagram) (vb : VarBind) : SnmpDatagram :=
  { sdg with
    vbListLen := addVarBindLen sdg.vbListLen vb.vbLen
    vbOutList := sdg.vbOutList ++ [vb]
    vbOutCnt := sdg.vbOutCnt + 1 }

/-- The variables of a request function. The reports are not one of them: they keep what the search
of each varbind returned, as it was marked, with the varbind of the response. -/
structure ProcState where
  sdg : SnmpDatagram
  ret : OidSearchRes
  vbInCnt : UInt32
  reports : List (OidSearchRes × VarBind)

def ProcState.init (request : MibReq) (sdg : SnmpDatagram) : ProcState :=
  ⟨sdg, .init request, 0, []⟩

/-- What an iteration does with the result of its search and the new varbind. -/
def ProcState.add (s : ProcState) (ret : OidSearchRes) (vbOut : VarBind) : ProcState where
  sdg := { s.sdg with pduHdr := s.sdg.pduHdr.mark ret.errStat (s.vbInCnt + 1) }.addVarBind vbOut
  ret := ret
  vbInCnt := s.vbInCnt + 1
  reports := s.reports ++ [(ret, vbOut)]

/-- One iteration of the loops over `vb_in_list`. It does not return from undefined behaviour, nor
if the length of an OID is not found. -/
def processVarBind (search : SnmpDatagram → VarBind → OidSearchRes → Traced Call OidSearchRes)
    (encode : VarBind → OidSearchRes → Option VarBind) (status : OidSearchRes → OidSearchRes)
    (s : ProcState) (vbIn : VarBind) : Traced Call ProcState :=
  match decodeValue vbIn s.ret with
  | none => Traced.crash
  | some ret => do
    let ret ← search s.sdg vbIn ret
    match encode vbIn ret with
    | none => Traced.crash
    | some vbOut => pure (s.add (status ret) vbOut)

/-! ### Requests -/

section Requests

variable (handlers : Handlers) (root : MibNode) (mv : MibViews)

/-- A datagram ready for `snmp_response`, and the response. -/
def respond (s : ProcState) : Traced Call (ProcState × Response) :=
  match snmpResponse s.sdg with
  | some r => pure (s, r)
  | none => Traced.crash

def getStep : ProcState → VarBind → Traced Call ProcState :=
  processVarBind (mibGet handlers root mv) (fun _ => getVarBind) id

def getnextStep : ProcState → VarBind → Traced Call ProcState :=
  processVarBind (mibGetnext handlers root mv) (fun _ => getVarBind) id

def setStep : ProcState → VarBind → Traced Call ProcState :=
  processVarBind (mibSet handlers root mv) setVarBind setStatus

def snmpGet (sdg : SnmpDatagram) : Traced Call (ProcState × Response) := do
  let s ← sdg.vbInList.foldlM (getStep handlers root mv) (.init .get sdg)
  respond s

def snmpGetnext (sdg : SnmpDatagram) : Traced Call (ProcState × Response) := do
  let s ← sdg.vbInList.foldlM (getnextStep handlers root mv) (.init .getNext sdg)
  respond s

def snmpSet (sdg : SnmpDatagram) : Traced Call (ProcState × Response) := do
  let s ← sdg.vbInList.foldlM (setStep handlers root mv) (.init .set sdg)
  respond s

/-- One round of `snmp_bulkget`. The OID that is returned is that of the next query. -/
def bulkRound : List VarBind → ProcState → Traced Call (List VarBind × ProcState)
  | [], s => pure ([], s)
  | vbIn :: vbs, s => do
    let s ← getnextStep handlers root mv s vbIn
    let vbIn := { vbIn with oid := s.ret.oid }
    let (vbs, s) ← bulkRound vbs s
    pure (vbIn :: vbs, s)

/-- The loop of `snmp_bulkget` on `repeat`. -/
def bulkRounds : Nat → ProcState → Traced Call ProcState
  | 0, s => pure s
  | rep + 1, s => do
    let (vbInList, s) ← bulkRound handlers root mv s.sdg.vbInList s
    bulkRounds rep { s with sdg := { s.sdg with vbInList := vbInList } }

/-- `snmp_bulkget`. The repetitions stand in the field of the error index, which is cleared. -/
def snmpBulkget (sdg : SnmpDatagram) : Traced Call (ProcState × Response) := do
  let rep := sdg.pduHdr.errIdx.toUInt32.toNat
  let s ← bulkRounds handlers root mv rep
    (.init .getNext { sdg with pduHdr := { sdg.pduHdr with errIdx := 0 } })
  respond s

/-! ### Dispatch -/

abbrev mibReqGet : UInt8 := 0xa0
abbrev mibReqGetnext : UInt8 := 0xa1
abbrev mibResp : UInt8 := 0xa2
abbrev mibReqSet : UInt8 := 0xa3
abbrev mibReqBulkget : UInt8 := 0xa5
abbrev mibRepo : UInt8 := 0xa8

/-- The type of the response. -/
def SnmpDatagram.setResponse (sdg : SnmpDatagram) : SnmpDatagram :=
  { sdg with
    pduHdr := { sdg.pduHdr with pduType := if sdg.vbInCnt = 0 then mibRepo else mibResp } }

/-- The function for a type of PDU; the other types are ignored. -/
def requestFunction (pduType : UInt8) : Option (SnmpDatagram → Traced Call (ProcState × Response)) :=
  if pduType = mibReqGet then some (snmpGet handlers root mv)
  else if pduType = mibReqGetnext then some (snmpGetnext handlers root mv)
  else if pduType = mibReqSet then some (snmpSet handlers root mv)
  else if pduType = mibReqBulkget then some (snmpBulkget handlers root mv)
  else none

/-- `snmp_request_dispatch`. -/
def snmpRequestDispatch (sdg : SnmpDatagram) : Traced Call (Option (ProcState × Response)) :=
  match requestFunction handlers root mv sdg.pduHdr.pduType with
  | some request => do
    let r ← request sdg.setResponse
    pure (some r)
  | none => pure none

/-- `snmpd_recv`. -/
def snmpdRecv (buffer : List UInt8) : Traced Call (Option (ProcState × Response)) :=
  match recvCheck buffer.length buffer, snmpDecode buffer with
  | .ok (.ok _), .ok sdg => snmpRequestDispatch handlers root mv sdg
  | .ok (.ok _), .crash => Traced.crash
  | .ok (.ok _), .fuel => Traced.outOfFuel
  | .ok (.error _), _ => pure none
  | .crash, _ => Traced.crash
  | .fuel, _ => Traced.outOfFuel

end Requests

end SmartSnmp
