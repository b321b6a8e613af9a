import SmartSnmp.Mib.Instance

/-!
# The datagram of AgentX

`struct agentx_datagram` of `core/agentx.h` and what belongs to it.
-/

namespace SmartSnmp

abbrev asn1TagCnt64 : UInt8 := 0x46

/-! ### Headers -/

/-- `NON_DEFAULT_CONTEXT`. -/
abbrev nonDefaultContext : UInt8 := 0x8

/-- `NETWORD_BYTE_ORDER`. -/
abbrev networkByteOrder : UInt8 := 0x10

/-- `INSTANCE_REGISTRATION`. -/
abbrev instanceRegistration : UInt8 := 0x1

/-- `flags & flag`. -/
def hasFlag (flags flag : UInt8) : Bool := flags &&& flag != 0

abbrev agentxPduClose : UInt8 := 2
abbrev agentxPduReg : UInt8 := 3
abbrev agentxPduUnreg : UInt8 := 4
abbrev agentxPduGet : UInt8 := 5
abbrev agentxPduGetnext : UInt8 := 6
abbrev agentxPduGetbulk : UInt8 := 7
abbrev agentxPduTestset : UInt8 := 8
abbrev agentxPduCommitset : UInt8 := 9
abbrev agentxPduUndoset : UInt8 := 10
abbrev agentxPduCleanupset : UInt8 := 11
abbrev agentxPduResponse : UInt8 := 18

/-- `struct x_pdu_hdr`. -/
structure XPduHdr where
  version : UInt8
  type : UInt8
  flags : UInt8
  reserved : UInt8
  sessionId : UInt32
  transactionId : UInt32
  packetId : UInt32
  payloadLength : UInt32
  deriving DecidableEq

/-! ### Varbinds and search ranges -/

/-- The bytes of `struct x_var_bind` behind the start of `value`: the size of the structure is a multiple
of that of a pointer, of eight bytes. -/
abbrev xVarBindTail : Nat := 4

/-- `struct x_var_bind`: `oid` spans `oid_len`. `val_len` counts elements in a request and bytes in a
response; `value` is what was written to the memory of the value, and `tail` is what lies behind it in
the structure and was not written. -/
structure XVarBind where
  oid : Oid
  valType : UInt16
  valLen : Nat
  value : List UInt8
  tail : List UInt8
  deriving DecidableEq

/-- `struct x_search_range`. -/
structure XSearchRange where
  start : Oid
  stop : Oid
  startInclude : UInt8
  endInclude : UInt8
  deriving DecidableEq

/-- `struct agentx_datagram` without its socket and buffers. The union `u` has a field for each of its
members, as no function reads one after it has written another in the same place. -/
structure AgentxDatagram where
  context : List UInt8
  pduHdr : XPduHdr
  reason : UInt8
  nonRep : UInt16
  maxRep : UInt16
  sysUpTime : UInt32
  error : UInt16
  index : UInt16
  vbInList : List XVarBind
  vbOutList : List XVarBind
  srInList : List XSearchRange
  deriving DecidableEq

/-- `agentx_datagram_clear`, which keeps the header. -/
def AgentxDatagram.clear (pduHdr : XPduHdr) : AgentxDatagram where
  context := []
  pduHdr := pduHdr
  reason := 0
  nonRep := 0
  maxRep := 0
  sysUpTime := 0
  error := 0
  index := 0
  vbInList := []
  vbOutList := []
  srInList := []

/-- `AGENTX_ERR_CODE_E`, as far as a function of the decoder returns it. -/
inductive AgentxErrCode where
  | pduCtxLen
  | vbValueLen
  | vbOidLen
  | srOidLen
  deriving DecidableEq

end SmartSnmp
