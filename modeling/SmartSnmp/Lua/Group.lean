import Mathlib.Data.List.AList
import Mathlib.Data.List.Sort
import SmartSnmp.Mib.Instance

/-!
# Groups of variables and their index tables

The data a MIB group is declared with and `group_index_table_generator` of
`lualib/smartsnmp/init.lua`. A Lua table with number keys is an `AList`, whose order is the one in
which `pairs` enumerates it.
-/

namespace SmartSnmp

namespace Lua

/-! ### Programs -/

/-- Why a Lua program stops: a call of `error`, an operation on a value that does not support it, or
a loop of the model without fuel. -/
inductive LuaError where
  | message (text : String)
  | runtime
  | outOfFuel
  deriving DecidableEq

/-- A Lua program. What it did to the state stays if it ends with an error. -/
abbrev LuaM (σ : Type) := EStateM LuaError σ

/-! ### Variables -/

/-- `MIB_ACES_UNA`, `MIB_ACES_RO` and `MIB_ACES_RW`. -/
inductive MibAces where
  | una
  | ro
  | rw
  deriving DecidableEq

/-- `inst_no`: a number if the instance has one index component, else a table of them. -/
inductive InstNo where
  | num (id : Int)
  | table (ids : List Int)
  deriving DecidableEq

/-- A variable of a group. The methods of a scalar are called without an instance number. `get_f`
returns a value and an error status, `set_f` an error status. -/
structure Variable (σ : Type) where
  tag : Option UInt8
  access : MibAces
  getF : Option InstNo → LuaM σ (LuaValue × Option Int)
  setF : Option (Option InstNo → LuaValue → LuaM σ (Option Int))

section Generators

variable {σ : Type} (g : Option InstNo → LuaM σ (LuaValue × Option Int))
  (s : Option InstNo → LuaValue → LuaM σ (Option Int))

/-- A read-only variable. -/
def const (tag : UInt8) : Variable σ := ⟨some tag, .ro, g, none⟩

/-- A read-write variable. -/
def readWrite (tag : UInt8) : Variable σ := ⟨some tag, .rw, g, some s⟩

abbrev asn1TagBool : UInt8 := 0x01
abbrev asn1TagBitstr : UInt8 := 0x03
abbrev asn1TagOpaq : UInt8 := 0x44

def constBitString : Variable σ := const g asn1TagBitstr
def bitString : Variable σ := readWrite g s asn1TagBitstr
def constOctString : Variable σ := const g asn1TagOctstr
def octString : Variable σ := readWrite g s asn1TagOctstr
def constInt : Variable σ := const g asn1TagInt
def int : Variable σ := readWrite g s asn1TagInt
def constCount : Variable σ := const g asn1TagCnt
def count : Variable σ := readWrite g s asn1TagCnt
def constIpaddr : Variable σ := const g asn1TagIpaddr
def ipaddr : Variable σ := readWrite g s asn1TagIpaddr
def constOid : Variable σ := const g asn1TagObjid
def oid : Variable σ := readWrite g s asn1TagObjid
def constTimeticks : Variable σ := const g asn1TagTimeticks
def timeticks : Variable σ := readWrite g s asn1TagTimeticks
def constGauge : Variable σ := const g asn1TagGau
def gauge : Variable σ := readWrite g s asn1TagGau

end Generators

/-! ### Groups -/

/-- A key of `entry.indexes`. -/
inductive IndexKey where
  | num (id : Int)
  | str (chars : List Char)
  deriving DecidableEq

/-- `entry.indexes`: nothing, something else than a table, a table whose `cascade` is neither nil
nor true, a table of keys in the order of `pairs`, or a cascade of lists. -/
inductive Indexes where
  | missing
  | notTable
  | notCascade
  | keys (ks : List IndexKey)
  | cascade (lists : List (List Int))

structure Entry (σ : Type) where
  columns : AList fun _ : Int => Variable σ
  indexes : Indexes

/-- An object of a group: a scalar has a method `get_f`, a table at most one entry. -/
inductive Object (σ : Type) where
  | scalar (v : Variable σ)
  | table (entry : Option (Int × Entry σ))

abbrev Group (σ : Type) := AList fun _ : Int => Object σ

/-! ### Index tables -/

/-- An element of a dimension of an index table. -/
inductive IndexElem where
  | num (id : Int)
  | oid (ids : List Int)
  deriving DecidableEq

abbrev Dim := List IndexElem

/-- An index table. Its first dimension has the object numbers. -/
structure IndexTable where
  objNos : List Int
  dims : List Dim
  deriving DecidableEq

namespace IndexTable

/-- All the dimensions. -/
def all (it : IndexTable) : List Dim := it.objNos.map .num :: it.dims

/-- `it[1][1]`. -/
def no (it : IndexTable) : Int := it.objNos.headD 0

/-- A run of scalars. -/
def scalars (objNos : List Int) : IndexTable := ⟨objNos, [[.num 0]]⟩

end IndexTable

/-- The numbers `string.gmatch(key, "%d+")` finds. The accumulator is the number being read. -/
def digitRuns : Option Nat → List Char → List Int
  | none, [] => []
  | some n, [] => [(n : Int)]
  | acc, c :: cs =>
    if c.isDigit then digitRuns (some (acc.getD 0 * 10 + (c.toNat - '0'.toNat))) cs
    else (acc.map Int.ofNat).toList ++ digitRuns none cs

def IndexKey.elem : IndexKey → IndexElem
  | .num id => .num id
  | .str chars => .oid (digitRuns none chars)

/-- `table.sort` of numbers. -/
def sortNums (xs : List Int) : List Int := xs.insertionSort (· ≤ ·)

/-- The numbers, if all elements are. -/
def elemNums (es : Dim) : Option (List Int) :=
  es.mapM fun
    | .num id => some id
    | .oid _ => none

/-- The sequences, if all elements are. -/
def elemOids (es : Dim) : Option (List (List Int)) :=
  es.mapM fun
    | .num _ => none
    | .oid ids => some ids

/-- `table.sort` with `oid_cmp`. Sorting two elements or more compares elements of different types
if there are any. -/
def sortElems (name : String) (es : Dim) : Except LuaError Dim :=
  match elemNums es, elemOids es with
  | some ids, _ => .ok ((sortNums ids).map .num)
  | none, some oids => .ok ((oids.insertionSort (· ≤ ·)).map .oid)
  | none, none =>
    .error (.message ("Group '" ++ name ++ "': Invalid element type in comparision"))

/-- The dimensions of the indexes of an entry. `path` is the entry in the texts of errors. -/
def indexDims (name path : String) : Indexes → Except LuaError (List Dim)
  | .missing => .error (.message (path ++ ": What is the entry.indexes?"))
  | .notTable => .error (.message (path ++ ": Entry indexes must be table"))
  | .notCascade => .error (.message (path ++ ": No need to write 'cascade == false' if indexes " ++
      "not cascaded, just wipe it out!"))
  | .keys ks => (sortElems name (ks.map IndexKey.elem)).map ([·])
  | .cascade lists => .ok (lists.map fun xs => (sortNums xs).map .num)

/-- `table_indexes` of a table. -/
def tableIndexes {σ : Type} (name : String) (objNo : Int) :
    Option (Int × Entry σ) → Except LuaError IndexTable
  | none => .ok ⟨[objNo], []⟩
  | some (entryNo, entry) =>
    let path := name ++ "[" ++ toString objNo ++ "][" ++ toString entryNo ++ "]"
    (indexDims name path entry.indexes).map fun dims =>
      ⟨[objNo], [.num entryNo] :: (sortNums entry.columns.keys).map .num :: dims⟩

/-- The insertion sort by the number of the table. -/
def insertTable (it : IndexTable) : List IndexTable → List IndexTable
  | [] => [it]
  | v :: vs => if it.no < v.no then it :: v :: vs else v :: insertTable it vs

/-- One object of the group: a table is inserted, the number of a scalar is collected. -/
def collect {σ : Type} (name : String) (acc : List IndexTable × List Int)
    (obj : (_ : Int) × Object σ) : Except LuaError (List IndexTable × List Int) :=
  match obj.2 with
  | .scalar _ => .ok (acc.1, acc.2 ++ [obj.1])
  | .table entry => (tableIndexes name obj.1 entry).map fun it => (insertTable it acc.1, acc.2)

/-- The loop that separates the scalars. `ipairs` goes on with its counter `n` as long as the list
has an element there, but the loop works at `i`: the run of scalars up to the table at `i` goes in
front of it. The fuel is the number of tables, of which each iteration takes one. -/
def separateScalars : Nat → Nat → Nat → List IndexTable → List Int → List IndexTable × List Int
  | 0, _, _, groupIndexes, scalars => (groupIndexes, scalars)
  | fuel + 1, n, i, groupIndexes, scalars =>
    if groupIndexes.length ≤ n then (groupIndexes, scalars)
    else
      match groupIndexes[i]? with
      | none => (groupIndexes, scalars)
      | some it =>
        let tmp := scalars.takeWhile (· ≤ it.no)
        if 0 < tmp.length then
          separateScalars fuel (n + 1) (i + 2) (groupIndexes.insertIdx i (.scalars tmp))
            (scalars.drop tmp.length)
        else separateScalars fuel (n + 1) (i + 1) groupIndexes scalars

/-- `group_index_table_generator`. -/
def groupIndexTableGenerator {σ : Type} (group : Group σ) (name : String) :
    Except LuaError (List IndexTable) := do
  let (groupIndexes, scalars) ← group.entries.foldlM (collect name) ([], [])
  let (groupIndexes, scalars) :=
    separateScalars groupIndexes.length 0 0 groupIndexes (sortNums scalars)
  pure (if scalars = [] then groupIndexes else groupIndexes ++ [.scalars scalars])

end Lua

end SmartSnmp
