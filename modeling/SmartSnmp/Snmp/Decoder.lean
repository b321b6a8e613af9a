import SmartSnmp.Lib.Reader
import SmartSnmp.Snmp.Encoder

/-!
# The BER decoder

`core/snmp_decoder.c`. The values are decoded from their content bytes; the length octets are read
from the cursor. `none` stands for undefined behaviour.
-/

namespace SmartSnmp

open Bytes

/-! ### Integers -/

/-- `ber_int_dec` on non-empty content. For a negative number of more than four bytes
`sizeof(int) - len` wraps, and the counter of the sign extension overflows. -/
def berIntDec (buf : List UInt8) : Option Int32 :=
  if highBit (buf.headD 0) then
    if buf.length ≤ 4 then
      some (shiftIn (shiftIn 0 (List.replicate (4 - buf.length) 0xff)) buf).toInt32
    else none
  else some (shiftIn 0 (if buf.headD 0 = 0 then buf.tail else buf)).toInt32

/-- `ber_uint_dec` on non-empty content. -/
def berUintDec (buf : List UInt8) : UInt32 :=
  shiftIn 0 (if buf.headD 0 = 0 then buf.tail else buf)

/-! ### Object identifiers -/

/-- The loop of `ber_oid_dec`: the sub-identifiers that end in the bytes, `id` being collected. -/
def berOidDecLoop (id : UInt32) : List UInt8 → Oid
  | [] => []
  | b :: buf =>
    let id := id <<< 7 ||| (b &&& 0x7f).toUInt32
    if highBit b then berOidDecLoop id buf else id :: berOidDecLoop 0 buf

/-- `ber_oid_dec` on non-empty content. -/
def berOidDec (buf : List UInt8) : Oid :=
  (buf.headD 0 / 40).toUInt32 :: (buf.headD 0 % 40).toUInt32 :: berOidDecLoop 0 buf.tail

/-- `ber_oid_dec_try` on non-empty content. -/
def berOidDecTry (buf : List UInt8) : Nat :=
  2 + buf.tail.countP fun b => !highBit b

/-! ### Values -/

/-- `ber_value_dec_try`. -/
def berValueDecTry (buf : List UInt8) (type : UInt8) : Nat :=
  if buf = [] then 0
  else if type = asn1TagInt ∨ type = asn1TagCnt ∨ type = asn1TagGau ∨ type = asn1TagTimeticks then 1
  else if type = asn1TagObjid then berOidDecTry buf
  else if type = asn1TagOctstr ∨ type = asn1TagIpaddr then buf.length
  else 0

/-- `ber_value_dec`: the number of elements and the bytes written to memory. -/
def berValueDec (buf : List UInt8) (type : UInt8) : Option (Nat × List UInt8) :=
  if buf = [] then some (0, [])
  else if type = asn1TagInt ∨ type = asn1TagCnt then
    (berIntDec buf).map fun value => (1, wordBytes value.toUInt32)
  else if type = asn1TagGau ∨ type = asn1TagTimeticks then some (1, wordBytes (berUintDec buf))
  else if type = asn1TagObjid then
    some ((berOidDec buf).length, (berOidDec buf).flatMap wordBytes)
  else if type = asn1TagOctstr ∨ type = asn1TagIpaddr then some (buf.length, buf)
  else some (0, [])

/-! ### Lengths -/

/-- `ber_length_dec`: the number of length octets and the length, which has 32 bits. -/
def berLengthDec {ε : Type} : Reader ε (Nat × Nat) := do
  let b ← Reader.byte
  if highBit b then
    let octets ← Reader.bytes (b &&& 0x7f).toNat
    pure (1 + (b &&& 0x7f).toNat, (shiftIn 0 octets).toNat)
  else pure (1, b.toNat)

end SmartSnmp
