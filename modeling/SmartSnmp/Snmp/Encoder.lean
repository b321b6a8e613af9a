import SmartSnmp.Mib.Instance

/-!
# The BER encoder

`core/snmp_encoder.c`, in its `LITTLE_ENDIAN` build. Each encoder gives the bytes that it writes;
the `_try` functions give the length they announce for them. A value is read from the memory it
stands in, as `Variable` keeps it.
-/

namespace SmartSnmp

open Bytes

/-- `b & 0x80`. -/
def highBit (b : UInt8) : Bool := b &&& 0x80 ≠ 0

/-! ### Integers -/

/-- The union `a`: a word and its bytes in memory. -/
def wordBytes (w : UInt32) : List UInt8 := leBytes 4 w.toNat

/-- `while (i > 0 && a.buf[i] == pad) i--`. -/
def trimIndex (pad : UInt8) (buf : List UInt8) : Nat → Nat
  | 0 => 0
  | i + 1 => if buf.getD (i + 1) 0 = pad then trimIndex pad buf i else i + 1

/-- `while (i >= 0) buf[j++] = a.buf[i--]`. -/
def bytesDown (buf : List UInt8) (i : Nat) : List UInt8 := (buf.take (i + 1)).reverse

def berIntEncTry (value : Int32) : Nat :=
  let buf := wordBytes value.toUInt32
  if 0 ≤ value then
    let i := trimIndex 0 buf 3
    (if highBit (buf.getD i 0) then 1 else 0) + (i + 1)
  else
    let i := trimIndex 0xff buf 3
    (if highBit (buf.getD i 0) then 0 else 1) + (i + 1)

def berIntEnc (value : Int32) : List UInt8 :=
  let buf := wordBytes value.toUInt32
  if 0 ≤ value then
    let i := trimIndex 0 buf 3
    (if highBit (buf.getD i 0) then [0] else []) ++ bytesDown buf i
  else
    let i := trimIndex 0xff buf 3
    (if highBit (buf.getD i 0) then [] else [0xff]) ++ bytesDown buf i

def berUintEncTry (value : UInt32) : Nat :=
  let buf := wordBytes value
  let i := trimIndex 0 buf 3
  (if highBit (buf.getD i 0) then 1 else 0) + (i + 1)

def berUintEnc (value : UInt32) : List UInt8 :=
  let buf := wordBytes value
  let i := trimIndex 0 buf 3
  (if highBit (buf.getD i 0) then [0] else []) ++ bytesDown buf i

/-! ### Object identifiers -/

/-- `do { tmp[k++] = (id & 0x7f) | 0x80; id /= 128; } while (id)`, the array `tmp` being filled
from its start. -/
def subIdTmp : Nat → UInt32 → List UInt8
  | 0, _ => []
  | size + 1, id =>
    ((id &&& 0x7f) ||| 0x80).toUInt8 :: if id / 128 = 0 then [] else subIdTmp size (id / 128)

/-- The bytes of one sub-identifier: `tmp[0] &= 0x7f`, then `tmp` from its end. -/
def subIdEnc (id : UInt32) : List UInt8 :=
  match subIdTmp 10 id with
  | [] => []
  | t :: tmp => ((t &&& 0x7f) :: tmp).reverse

/-- `ber_oid_enc_try`. Its counters have 8 bits: the byte count wraps, and from 256 elements on
the loop does not end. -/
def berOidEncTry (oid : Oid) : Option Nat :=
  if oid.length < 2 then some oid.length
  else if oid.length < 256 then
    some ((1 + ((oid.drop 2).map fun id => (subIdTmp 10 id).length).sum) % 256)
  else none

def berOidEnc : Oid → List UInt8
  | [] => []
  | [a] => [a.toUInt8]
  | a :: b :: oid => (a * 40 + b).toUInt8 :: oid.flatMap subIdEnc

/-! ### Values -/

/-- The first `len` words in memory, if there are as many. -/
def oidAt (mem : List UInt8) (len : Nat) : Option Oid :=
  if 4 * len ≤ mem.length then
    some ((List.range len).map fun i => UInt32.ofNat (leNat ((mem.drop (4 * i)).take 4)))
  else none

/-- The word at the start of the memory. -/
def wordAt (mem : List UInt8) : UInt32 := UInt32.ofNat (leNat (mem.take 4))

/-- `ber_value_enc_try`; `none` where it reads past the value or does not end. -/
def berValueEncTry (mem : List UInt8) (len : Nat) (type : UInt8) : Option Nat :=
  if type = asn1TagInt ∨ type = asn1TagCnt then some (berIntEncTry (wordAt mem).toInt32)
  else if type = asn1TagGau ∨ type = asn1TagTimeticks then some (berUintEncTry (wordAt mem))
  else if type = asn1TagObjid then (oidAt mem len).bind berOidEncTry
  else if type = asn1TagOctstr ∨ type = asn1TagIpaddr then some len
  else some 0

/-- `ber_value_enc`; `none` where it reads past the value. -/
def berValueEnc (mem : List UInt8) (len : Nat) (type : UInt8) : Option (List UInt8) :=
  if type = asn1TagInt ∨ type = asn1TagCnt then some (berIntEnc (wordAt mem).toInt32)
  else if type = asn1TagGau ∨ type = asn1TagTimeticks then some (berUintEnc (wordAt mem))
  else if type = asn1TagObjid then (oidAt mem len).map berOidEnc
  else if type = asn1TagOctstr ∨ type = asn1TagIpaddr then
    if len ≤ mem.length then some (mem.take len) else none
  else some []

/-! ### Lengths -/

def berLengthEncTry (value : UInt32) : Nat :=
  let i := trimIndex 0 (wordBytes value) 3
  (if 127 < value then 1 else 0) + (i + 1)

def berLengthEnc (value : UInt32) : List UInt8 :=
  let buf := wordBytes value
  let i := trimIndex 0 buf 3
  (if 127 < value then [0x80 ||| UInt8.ofNat (i + 1)] else []) ++ bytesDown buf i

end SmartSnmp
