import SmartSnmp.Lib.Bytes
import SmartSnmp.Lib.Numeral
import SmartSnmp.Lib.Traced
import SmartSnmp.Mib.Oid

/-!
# Variables and the calls of the Lua handlers

`Variable` of `core/asn1.h` and `mib_instance_search` of `core/mib_tree.c`. A handler is outside
of the C code: what it returns may depend on every call made before, so the handlers are the
environment of a `Traced Call` program and each search appends its calls to the history.
-/

namespace SmartSnmp

open Bytes

/-! ### Tags -/

abbrev asn1TagInt : UInt8 := 0x02
abbrev asn1TagOctstr : UInt8 := 0x04
abbrev asn1TagNul : UInt8 := 0x05
abbrev asn1TagObjid : UInt8 := 0x06
abbrev asn1TagSeq : UInt8 := 0x30
abbrev asn1TagIpaddr : UInt8 := 0x40
abbrev asn1TagCnt : UInt8 := 0x41
abbrev asn1TagGau : UInt8 := 0x42
abbrev asn1TagTimeticks : UInt8 := 0x43
abbrev asn1TagNoSuchObj : UInt8 := 0x80
abbrev asn1TagNoSuchInst : UInt8 := 0x81
abbrev asn1TagEndOfMibView : UInt8 := 0x82

/-- `MIB_VALUE_MAX_LEN`. -/
abbrev mibValueMaxLen : Nat := 1024

/-- `MIB_TAG_VALID`. -/
def mibTagValid (tag : UInt8) : Bool := tag < asn1TagNoSuchObj

/-! ### Variables -/

/-- `Variable`: `value` is the memory of the union, `len` counts elements by tag. -/
structure Variable where
  tag : UInt8
  len : Nat
  value : List UInt8
  deriving DecidableEq

namespace Variable

/-- A variable cleared by `memset`. -/
def zero : Variable := ⟨0, 0, List.replicate mibValueMaxLen 0⟩

/-- Copy bytes to the start of the union; `none` if they do not fit. -/
def write (var : Variable) (bytes : List UInt8) : Option (List UInt8) :=
  if bytes.length ≤ mibValueMaxLen then some (bytes ++ var.value.drop bytes.length) else none

/-- The 32-bit word at the start of the union. -/
def word (var : Variable) : UInt32 := UInt32.ofNat (leNat (var.value.take 4))

/-- The first `len` bytes of the union. -/
def bytes (var : Variable) : List UInt8 := var.value.take var.len

/-- The first `len` elements of the union read as an OID. -/
def oid (var : Variable) : Oid :=
  (List.range var.len).map fun i => UInt32.ofNat (leNat ((var.value.drop (4 * i)).take 4))

end Variable

/-! ### Lua values -/

/-- The Lua values a handler takes and returns. -/
inductive LuaValue where
  | nil
  | num (n : Int)
  | str (bytes : List UInt8)
  | table (elems : List Int)
  deriving DecidableEq

namespace LuaValue

/-- `lua_tointeger` and `lua_tonumber`: the text of a number is converted, and what is no number reads
as zero. -/
def toNumber : LuaValue → Int
  | .num n => n
  | .str s => Numeral.read s
  | _ => 0

/-- `lua_objlen`, which converts a number to its text. -/
def objLen : LuaValue → Nat
  | .nil => 0
  | .num n => (Numeral.format n).length
  | .str s => s.length
  | .table xs => xs.length

/-- The first `len` bytes at `lua_tostring`; a table has none. -/
def octets (len : Nat) : LuaValue → Option (List UInt8)
  | .num n => some ((Numeral.format n).take len)
  | .str s => some (s.take len)
  | _ => if len = 0 then some [] else none

/-- The first `len` elements, which only a table has. -/
def elements (len : Nat) : LuaValue → Option (List Int)
  | .table xs => some (xs.take len)
  | _ => if len = 0 then some [] else none

lemma length_octets {val : LuaValue} {len : Nat} {s : List UInt8} (hlen : len ≤ val.objLen)
    (h : val.octets len = some s) : s.length = len := by
  cases val with
  | nil =>
    obtain ⟨hzero, rfl⟩ : len = 0 ∧ [] = s := by simpa [octets] using h
    exact hzero.symm
  | num n =>
    obtain rfl := Option.some.inj h
    exact List.length_take_of_le hlen
  | str t =>
    obtain rfl := Option.some.inj h
    exact List.length_take_of_le hlen
  | table xs =>
    obtain ⟨hzero, rfl⟩ : len = 0 ∧ [] = s := by simpa [octets] using h
    exact hzero.symm

lemma length_elements {val : LuaValue} {len : Nat} {xs : List Int} (hlen : len ≤ val.objLen)
    (h : val.elements len = some xs) : xs.length = len := by
  cases val with
  | table ys =>
    obtain rfl := Option.some.inj h
    exact List.length_take_of_le hlen
  | nil =>
    obtain ⟨hzero, rfl⟩ : len = 0 ∧ [] = xs := by simpa [elements] using h
    exact hzero.symm
  | num n =>
    obtain ⟨hzero, rfl⟩ : len = 0 ∧ [] = xs := by simpa [elements] using h
    exact hzero.symm
  | str t =>
    obtain ⟨hzero, rfl⟩ : len = 0 ∧ [] = xs := by simpa [elements] using h
    exact hzero.symm

/-- What `mib_instance_search` stores for a returned value of this tag: the element count, which has
16 bits, and the bytes written. `none` where the code runs into an assertion or reads what is not
there. -/
def toVariable (tag : UInt8) (val : LuaValue) : Option (Nat × List UInt8) :=
  let len := val.objLen % 65536
  if tag = asn1TagInt ∨ tag = asn1TagCnt ∨ tag = asn1TagGau ∨ tag = asn1TagTimeticks then
    some (1, leBytes 4 (val.toNumber % 2 ^ 32).toNat)
  else if tag = asn1TagOctstr then
    (val.octets len).map fun s => (len, s)
  else if tag = asn1TagIpaddr then
    (val.elements len).map fun xs => (len, xs.map fun x => UInt8.ofNat (x % 256).toNat)
  else if tag = asn1TagObjid then
    (val.elements len).map fun xs => (len, xs.flatMap fun x => leBytes 4 (x % 2 ^ 32).toNat)
  else none

/-- The `req_val` argument of a SET. -/
def ofVariable (var : Variable) : LuaValue :=
  if var.tag = asn1TagInt then .num var.word.toInt32.toInt
  else if var.tag = asn1TagCnt ∨ var.tag = asn1TagGau ∨ var.tag = asn1TagTimeticks then
    .num var.word.toNat
  else if var.tag = asn1TagOctstr ∨ var.tag = asn1TagIpaddr then .str var.bytes
  else if var.tag = asn1TagObjid then .table (var.oid.map fun x => (x.toNat : Int))
  else .nil

end LuaValue

/-- Store a returned value of this tag. -/
def Variable.store (var : Variable) (tag : UInt8) (val : LuaValue) : Option Variable :=
  (val.toVariable tag).bind fun (len, bytes) =>
    (var.write bytes).map fun value => ⟨tag, len, value⟩

/-! ### Handler calls -/

/-- The operations a handler is called with. -/
inductive MibReq where
  | get
  | getNext
  | set
  deriving DecidableEq

/-- One call of a handler: the callback and its four arguments. -/
structure Call where
  callback : Int
  op : MibReq
  subOid : Oid
  val : LuaValue
  valType : Option UInt8
  deriving DecidableEq

/-- What comes back from `lua_pcall`: an error, or the four results as the C API reads them. -/
inductive Reply where
  | error
  | results (errStat : Int32) (subOid : Oid) (val : LuaValue) (tag : UInt8)
  deriving DecidableEq

/-- The handlers: the reply to a call, given all the calls made before it. -/
abbrev Handlers := List Call → Call → Reply

/-- `struct oid_search_res`. `oid` spans `id_len`, `instId` spans `inst_id_len`, and `instPos` is
`inst_id - oid`. -/
structure OidSearchRes where
  oid : Oid
  instPos : Nat
  instId : Oid
  callback : Int
  request : MibReq
  errStat : Int32
  var : Variable
  deriving DecidableEq

/-- A result structure cleared by `memset`, for a request. -/
def OidSearchRes.init (request : MibReq) : OidSearchRes :=
  ⟨[], 0, [], 0, request, 0, Variable.zero⟩

/-- The arguments `mib_instance_search` pushes. -/
def OidSearchRes.call (ret : OidSearchRes) : Call :=
  if ret.request = .set then
    ⟨ret.callback, .set, ret.instId, LuaValue.ofVariable ret.var, some ret.var.tag⟩
  else
    ⟨ret.callback, ret.request, ret.instId, .nil, none⟩

/-- What `mib_instance_search` does with the reply; `none` where it crashes. The return value of
the source is the error status left in the result. -/
def OidSearchRes.receive (ret : OidSearchRes) : Reply → Option OidSearchRes
  | .error => some { ret with errStat := 0, var := { ret.var with tag := asn1TagNoSuchObj } }
  | .results errStat subOid val tag =>
    if errStat = 0 ∧ mibTagValid tag then
      if ret.request = .set then
        some { ret with errStat := 0, var := { ret.var with tag := tag } }
      else
        (ret.var.store tag val).map fun var => { ret with
          errStat := 0
          var := var
          -- for GETNEXT the handler returns the new OID
          instId := if ret.request = .getNext then subOid else ret.instId }
    else some { ret with errStat := errStat, var := { ret.var with tag := tag } }

/-- `mib_instance_search`, with its result assigned to `ret_oid->err_stat` as every caller
does. -/
def mibInstanceSearch (handlers : Handlers) (ret : OidSearchRes) : Traced Call OidSearchRes := do
  let reply ← Traced.query handlers ret.call
  match ret.receive reply with
  | some ret' => pure ret'
  | none => Traced.crash

lemma mibInstanceSearch_apply (handlers : Handlers) (ret : OidSearchRes) (l : List Call) :
    mibInstanceSearch handlers ret l =
      (match ret.receive (handlers l ret.call) with
        | some ret' => .ok ret'
        | none => .crash, l ++ [ret.call]) := by
  simp only [mibInstanceSearch, Traced.bind_apply_ok (Traced.query_apply handlers ret.call l)]
  cases ret.receive (handlers l ret.call) <;> rfl

/-- A reply whose value, if it has one, has a known type and fits. -/
def Reply.storable : Reply → Bool
  | .error => true
  | .results errStat _ val tag =>
    !(errStat = 0 && mibTagValid tag) ||
      (val.toVariable tag).any fun v => v.2.length ≤ mibValueMaxLen

lemma OidSearchRes.receive_ne_none (ret : OidSearchRes) {reply : Reply} (h : reply.storable = true) :
    ret.receive reply ≠ none := by
  cases reply with
  | error => simp [receive]
  | results errStat subOid val tag =>
    simp only [receive]
    by_cases hok : errStat = 0 ∧ mibTagValid tag = true
    · rw [if_pos hok]
      by_cases hset : ret.request = .set
      · simp [hset]
      · simp only [Reply.storable, hok.1, hok.2, decide_true, Bool.and_self, Bool.not_true,
          Bool.false_or, Option.any_eq_true, decide_eq_true_eq] at h
        obtain ⟨v, hv, hlen⟩ := h
        simp [hset, Variable.store, hv, Variable.write, hlen]
    · simp [hok]

/-- A reply with no error status and the tag of a value. -/
def Reply.Succeeds : Reply → Prop
  | .error => False
  | .results errStat _ _ tag => errStat = 0 ∧ mibTagValid tag = true

/-- The result is that of a reply that succeeds. -/
def OidSearchRes.Succeeded (ret : OidSearchRes) : Prop :=
  ret.errStat = 0 ∧ mibTagValid ret.var.tag = true

lemma OidSearchRes.succeeded_of_receive {ret ret' : OidSearchRes} (hset : ret.request = .set)
    {reply : Reply} (h : ret.receive reply = some ret') (hreply : reply.Succeeds) :
    ret'.Succeeded := by
  cases reply with
  | error => exact hreply.elim
  | results errStat subOid val tag =>
    have hok : errStat = 0 ∧ mibTagValid tag = true := hreply
    rw [receive, if_pos hok, if_pos hset] at h
    obtain rfl := Option.some.inj h
    exact ⟨rfl, hok.2⟩

/-- A reply leaves alone where the search stands. -/
lemma OidSearchRes.receive_frame {ret ret' : OidSearchRes} {reply : Reply}
    (h : ret.receive reply = some ret') :
    ret'.request = ret.request ∧ ret'.oid = ret.oid ∧ ret'.instPos = ret.instPos ∧
      ret'.callback = ret.callback := by
  cases reply with
  | error =>
    obtain rfl := Option.some.inj h
    exact ⟨rfl, rfl, rfl, rfl⟩
  | results errStat subOid val tag =>
    simp only [receive] at h
    by_cases hok : errStat = 0 ∧ mibTagValid tag = true
    · rw [if_pos hok] at h
      by_cases hset : ret.request = .set
      · rw [if_pos hset] at h
        obtain rfl := Option.some.inj h
        exact ⟨rfl, rfl, rfl, rfl⟩
      · rw [if_neg hset] at h
        obtain ⟨var, _, rfl⟩ := Option.map_eq_some_iff.mp h
        exact ⟨rfl, rfl, rfl, rfl⟩
    · rw [if_neg hok] at h
      obtain rfl := Option.some.inj h
      exact ⟨rfl, rfl, rfl, rfl⟩

end SmartSnmp
