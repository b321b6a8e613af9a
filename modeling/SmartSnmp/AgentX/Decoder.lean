import SmartSnmp.AgentX.Datagram
import SmartSnmp.Lib.Reader

/-!
# The AgentX decoder

`core/agentx_decoder.c`, on a little-endian host. A value of a datagram is read in the byte order of
the host, whatever the flags say: the functions take the flags and do not look at them.
-/

namespace SmartSnmp

open Bytes Reader

variable {ε : Type}

/-! ### Words -/

def uint16 : Reader ε UInt16 := do
  let bs ← bytes 2
  pure (UInt16.ofNat (leNat bs))

def uint32 : Reader ε UInt32 := do
  let bs ← bytes 4
  pure (UInt32.ofNat (leNat bs))

/-- `NTOH16`. -/
def ntoh16 (x : UInt16) : UInt16 := UInt16.ofNat (swap 2 x.toNat)

/-- `NTOH32`. -/
def ntoh32 (x : UInt32) : UInt32 := UInt32.ofNat (swap 4 x.toNat)

/-- A field of 16 bits in the byte order of the flags. -/
def field16 (flags : UInt8) : Reader ε UInt16 := do
  let x ← uint16
  pure (if hasFlag flags networkByteOrder then ntoh16 x else x)

/-- A field of 32 bits in the byte order of the flags. -/
def field32 (flags : UInt8) : Reader ε UInt32 := do
  let x ← uint32
  pure (if hasFlag flags networkByteOrder then ntoh32 x else x)

/-- `uint_sizeof`: round up to words. -/
def uintSizeof (n : Nat) : Nat := (n + 3) / 4 * 4

/-! ### Values -/

/-- The types of the values that take a word. -/
def isWordType (type : UInt8) : Bool :=
  type = asn1TagInt || type = asn1TagCnt || type = asn1TagGau || type = asn1TagTimeticks

def isStringType (type : UInt8) : Bool := type = asn1TagOctstr || type = asn1TagIpaddr

/-- `agentx_value_dec_try`: how many bytes the value takes in memory. The case of a word runs into
that of 64 bits. -/
def agentxValueDecTry (_flag type : UInt8) : Reader ε Nat :=
  if isWordType type || type = asn1TagCnt64 then pure 8
  else if isStringType type then do
    let len ← uint32
    pure len.toNat
  else if type = asn1TagObjid then do
    let nSubid ← byte
    let pre ← byte
    pure (if nSubid = 0 ∧ pre = 0 then 0 else (nSubid.toNat + 5) * 4)
  else pure 0

/-- What `agentx_value_dec` returns, what it writes to the memory of the value, and how far it moves
the buffer. -/
structure DecodedValue where
  count : Nat
  value : List UInt8
  used : Nat
  deriving DecidableEq

/-- The sub-identifiers in front of the prefix, and the prefix. -/
def expandedPrefix (pre : UInt8) : List UInt8 := [1, 3, 6, 1, pre].flatMap fun b => [b, 0, 0, 0]

/-- The case `ASN1_TAG_OBJID` of `agentx_value_dec`. -/
def agentxOidDec : Reader ε DecodedValue := do
  let nSubid ← byte
  let pre ← byte
  skip 2
  if nSubid = 0 ∧ pre = 0 then pure ⟨0, [], 4⟩
  else
    let subIds ← bytes (4 * nSubid.toNat)
    pure ⟨nSubid.toNat + 5, expandedPrefix pre ++ subIds, 4 + 4 * nSubid.toNat⟩

def agentxValueDec (_flag type : UInt8) : Reader ε DecodedValue :=
  if isWordType type then do
    let value ← bytes 4
    pure ⟨1, value, 4⟩
  else if type = asn1TagCnt64 then do
    let value ← bytes 8
    pure ⟨1, value, 8⟩
  else if isStringType type then do
    let len ← uint32
    let value ← bytes len.toNat
    skip (uintSizeof len.toNat - len.toNat)
    pure ⟨len.toNat, value, 4 + uintSizeof len.toNat⟩
  else if type = asn1TagObjid then agentxOidDec
  else pure ⟨0, [], 0⟩

end SmartSnmp
