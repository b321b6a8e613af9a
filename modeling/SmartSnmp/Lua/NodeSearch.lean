import SmartSnmp.Lua.Getnext

/-!
# The search in a group

`mib_node_search` of `lualib/smartsnmp/init.lua`: the index tables of the group are generated, and
then the handler of the operation runs. A handler returns an error status, an OID below the group, a
value and its tag.
-/

namespace SmartSnmp

/-! ### Types of values -/

/-- What `type` tells of a value. -/
inductive LuaType where
  | nil
  | number
  | string
  | table
  deriving DecidableEq

namespace LuaType

/-- The text `type` returns. -/
def text : LuaType → String
  | nil => "nil"
  | number => "number"
  | string => "string"
  | table => "table"

end LuaType

namespace LuaValue

/-- `type`. -/
def type : LuaValue → LuaType
  | nil => .nil
  | num _ => .number
  | str _ => .string
  | table _ => .table

end LuaValue

namespace Lua

/-! ### Programs -/

section Programs

variable {σ α β : Type}

lemma bind_ok {x : LuaM σ α} {s s' : σ} {a : α} (h : x s = .ok a s') (f : α → LuaM σ β) :
    (x >>= f) s = f a s' := by
  simp only [bind, EStateM.bind, h]

lemma ofExcept_ok_bind (a : α) (f : α → LuaM σ β) :
    (MonadExcept.ofExcept (Except.ok a : Except LuaError α) >>= f) = f a := rfl

end Programs

/-! ### The check of values -/

/-- `ber_tag_match`: the name of a tag and the type of its values. -/
def berTagMatch (tag : UInt8) : Option (String × LuaType) :=
  if tag = asn1TagBool then some ("ASN1_TAG_BOOL", .number)
  else if tag = asn1TagInt then some ("ASN1_TAG_INT", .number)
  else if tag = asn1TagBitstr then some ("ASN1_TAG_BITSTR", .string)
  else if tag = asn1TagOctstr then some ("ASN1_TAG_OCTSTR", .string)
  else if tag = asn1TagNul then some ("ASN1_TAG_NUL", .nil)
  else if tag = asn1TagObjid then some ("ASN1_TAG_OBJID", .table)
  else if tag = asn1TagIpaddr then some ("ASN1_TAG_IPADDR", .table)
  else if tag = asn1TagCnt then some ("ASN1_TAG_CNT", .number)
  else if tag = asn1TagGau then some ("ASN1_TAG_GAU", .number)
  else if tag = asn1TagTimeticks then some ("ASN1_TAG_TIMETICKS", .number)
  else if tag = asn1TagOpaq then some ("ASN1_TAG_OPAQ", .number)
  else none

/-- `return_value_check`. Without a tag the text of the error cannot be made. -/
def returnValueCheck (name : String) (val : LuaValue) : Option UInt8 → Except LuaError Unit
  | none => .error .runtime
  | some tag =>
    match berTagMatch tag with
    | some (t, m) =>
      if m = val.type then .ok ()
      else .error (.message
        ("Group '" ++ name ++ "' Tag '" ++ t ++ "' but value is not '" ++ m.text ++ "'"))
    | none => .error (.message ("Group '" ++ name ++ "' unknown tag: " ++ toString tag))

/-- The value has the type that goes with its tag. -/
def HasTagType (val : LuaValue) (valType : Option UInt8) : Prop :=
  ∃ tag text, valType = some tag ∧ berTagMatch tag = some (text, val.type)

lemma returnValueCheck_ok {name : String} {val : LuaValue} {valType : Option UInt8}
    (h : HasTagType val valType) : returnValueCheck name val valType = .ok () := by
  obtain ⟨tag, text, rfl, hmatch⟩ := h
  rw [returnValueCheck, hmatch]
  exact if_pos rfl

/-- A tag with a type is one of a value. -/
lemma mibTagValid_of_berTagMatch {tag : UInt8} {m : String × LuaType}
    (h : berTagMatch tag = some m) : mibTagValid tag = true := by
  by_contra hnot
  have hlt : ¬ tag < asn1TagNoSuchObj := by simpa [mibTagValid] using hnot
  have hne : ∀ t : UInt8, t < asn1TagNoSuchObj → tag ≠ t := by
    rintro t ht rfl
    exact hlt ht
  simp only [berTagMatch, hne _ (by decide : asn1TagBool < asn1TagNoSuchObj),
    hne _ (by decide : asn1TagInt < asn1TagNoSuchObj),
    hne _ (by decide : asn1TagBitstr < asn1TagNoSuchObj),
    hne _ (by decide : asn1TagOctstr < asn1TagNoSuchObj),
    hne _ (by decide : asn1TagNul < asn1TagNoSuchObj),
    hne _ (by decide : asn1TagObjid < asn1TagNoSuchObj),
    hne _ (by decide : asn1TagIpaddr < asn1TagNoSuchObj),
    hne _ (by decide : asn1TagCnt < asn1TagNoSuchObj),
    hne _ (by decide : asn1TagGau < asn1TagNoSuchObj),
    hne _ (by decide : asn1TagTimeticks < asn1TagNoSuchObj),
    hne _ (by decide : asn1TagOpaq < asn1TagNoSuchObj), if_false] at h
  cases h

lemma HasTagType.tag_ne_noSuchObj {val : LuaValue} {valType : Option UInt8}
    (h : HasTagType val valType) : valType ≠ some asn1TagNoSuchObj := by
  obtain ⟨tag, text, rfl, hmatch⟩ := h
  intro htag
  have hvalid := mibTagValid_of_berTagMatch hmatch
  rw [Option.some.inj htag] at hvalid
  exact absurd hvalid (by decide)

/-! ### Error status -/

abbrev errStatNoErr : Int := 0
abbrev errStatUnaccess : Int := 6
abbrev errStatWrongType : Int := 7
abbrev errStatNotWritable : Int := 17

/-- What `mib_node_search` returns. -/
structure Result where
  errStat : Int
  subOid : List Int
  val : LuaValue
  valType : Option UInt8
  deriving DecidableEq

/-! ### The objects of a group -/

section Objects

variable {σ : Type} (group : Group σ)

/-- `effective_object_index`: the number of dimensions of the index table that has the object. -/
def effectiveObjectIndex (tab : List IndexTable) (id : Int) : Option Nat :=
  (tab.find? (id ∈ ·.objNos)).map (·.all.length)

/-- `group[obj_no]`, used as a scalar. -/
def scalarAt (objNo : Int) : Option (Variable σ) :=
  match group.lookup objNo with
  | some (.scalar v) => some v
  | _ => none

/-- `group[table_no][entry_no][var_no]`, for an OID that starts with the three numbers. -/
def variableAt : List Int → Option (Variable σ)
  | tableNo :: entryNo :: varNo :: _ =>
    match group.lookup tableNo with
    | some (.table (some (no, entry))) =>
      if entryNo = no then entry.columns.lookup varNo else none
    | _ => none
  | _ => none

/-- `inst_no` of the components of an instance. -/
def InstNo.ofIds : List Int → InstNo
  | [id] => .num id
  | ids => .table ids

/-- `inst_no`: the components from the fourth on. -/
def instNo (oid : List Int) : InstNo := .ofIds (oid.drop 3)

end Objects

/-! ### Handlers -/

section Handlers

variable {σ : Type} (group : Group σ) (name : String)

/-- The end of a handler: the check of the value, and the error status of the method. -/
def answer (subOid : List Int) (val : LuaValue) (valType : Option UInt8) (errStat : Option Int) :
    LuaM σ Result := do
  MonadExcept.ofExcept (returnValueCheck name val valType)
  pure ⟨errStat.getD errStatNoErr, subOid, val, valType⟩

/-- `set_f`, which a variable may lack. -/
def callSet (v : Variable σ) (inst : Option InstNo) (val : LuaValue) : LuaM σ (Option Int) :=
  match v.setF with
  | some setF => setF inst val
  | none => throw .runtime

/-- What the handler of SET finds: the variable to set and the instance, or an error status. -/
def setTarget (tab : List IndexTable) (oid : List Int) (valType : Option UInt8) :
    Except LuaError (Except Int (Variable σ × Option InstNo)) :=
  match oid.head?.bind (effectiveObjectIndex tab) with
  | some 2 =>
    match oid.head?.bind (scalarAt group) with
    | none => .error .runtime
    | some v =>
      if v.access = .una ∨ ¬ (oid.length = 2 ∧ oid[1]? = some 0) then .ok (.error errStatUnaccess)
      else if valType ≠ v.tag then .ok (.error errStatWrongType)
      else .ok (.ok (v, none))
  | some (_ + 4) =>
    match variableAt group oid with
    | none => .ok (.error errStatUnaccess)
    | some v =>
      if v.access = .una ∨ instNo oid = .table [] then .ok (.error errStatUnaccess)
      else if valType ≠ v.tag then .ok (.error errStatWrongType)
      else .ok (.ok (v, some (instNo oid)))
  | _ => .ok (.error errStatNotWritable)

/-- `handlers[SNMP_REQ_SET]`. -/
def handleSet (tab : List IndexTable) (oid : List Int) (val : LuaValue) (valType : Option UInt8) :
    LuaM σ Result := do
  match ← MonadExcept.ofExcept (setTarget group tab oid valType) with
  | .error errStat => pure ⟨errStat, oid, val, valType⟩
  | .ok (v, inst) =>
    let errStat ← callSet v inst val
    answer name oid val valType errStat

/-- What the handler of GET finds: the variable to get and the instance, or the tag of an
exception. -/
def getTarget (tab : List IndexTable) (oid : List Int) :
    Except LuaError (Except UInt8 (Variable σ × Option InstNo)) :=
  match oid.head?.bind (effectiveObjectIndex tab) with
  | some 2 =>
    match oid.head?.bind (scalarAt group) with
    | none => .error .runtime
    | some v =>
      if v.access = .una then .ok (.error asn1TagNoSuchObj)
      else if ¬ (oid.length = 2 ∧ oid[1]? = some 0) then .ok (.error asn1TagNoSuchInst)
      else .ok (.ok (v, none))
  | some (_ + 4) =>
    match variableAt group oid with
    | none => .ok (.error asn1TagNoSuchObj)
    | some v =>
      if v.access = .una then .ok (.error asn1TagNoSuchObj)
      else if instNo oid = .table [] then .ok (.error asn1TagNoSuchInst)
      else .ok (.ok (v, some (instNo oid)))
  | _ => .ok (.error asn1TagNoSuchObj)

/-- `handlers[SNMP_REQ_GET]`. -/
def handleGet (tab : List IndexTable) (oid : List Int) : LuaM σ Result := do
  match ← MonadExcept.ofExcept (getTarget group tab oid) with
  | .error tag => pure ⟨errStatNoErr, oid, .nil, some tag⟩
  | .ok (v, inst) =>
    let (val, errStat) ← v.getF inst
    if val = .nil ∨ v.tag = none then pure ⟨errStatNoErr, oid, .nil, some asn1TagNoSuchInst⟩
    else answer name oid val v.tag errStat

/-- The search of GETNEXT through the index tables. What a search leaves of the request is the
request of the next one. With the OID come the tables from the one on that has it. -/
def searchTables : List IndexTable → List Int →
    Except LuaError (Option (List Int × List IndexTable))
  | [], _ => .ok none
  | it :: tab, oid => do
    let (rsp, oid) ← groupIndexTableGetnext oid it.all
    if rsp = [] then searchTables tab oid else .ok (some (rsp, it :: tab))

/-- The loop of GETNEXT. An instance without a value and one that cannot be accessed are left out;
in a table the search then goes on behind the next column. -/
def getnextLoop : Nat → List IndexTable → List Int →
    LuaM σ (Option (List Int × Variable σ × LuaValue × Option Int))
  | 0, _, _ => throw .outOfFuel
  | fuel + 1, tab, oid => do
    match ← MonadExcept.ofExcept (searchTables tab oid) with
    | none => pure none
    | some (rsp, tab) =>
      if rsp.length = 2 then
        match rsp.head?.bind (scalarAt group) with
        | none => throw .runtime
        | some v =>
          let (val, errStat) ← v.getF none
          if val = .nil ∨ v.tag = none ∨ v.access = .una then getnextLoop fuel tab rsp
          else pure (some (rsp, v, val, errStat))
      else if 4 ≤ rsp.length then
        match variableAt group rsp with
        | none => throw .runtime
        | some v =>
          let (val, errStat) ← v.getF (some (instNo rsp))
          if val = .nil ∨ v.tag = none ∨ v.access = .una then
            getnextLoop fuel tab ((rsp.modify 2 (· + 1)).set 3 0)
          else pure (some (rsp, v, val, errStat))
      else throw (.message ("Group '" ++ name ++ "' Neither a scalar variable nor a table"))

/-- `handlers[SNMP_REQ_GETNEXT]`. -/
def handleGetnext (fuel : Nat) (tab : List IndexTable) (oid : List Int) : LuaM σ Result := do
  match ← getnextLoop group name fuel tab oid with
  | none => pure ⟨errStatNoErr, [], .nil, some asn1TagNoSuchObj⟩
  | some (rsp, v, val, errStat) => answer name rsp val v.tag errStat

/-- `mib_node_search`. The fuel bounds the instances that GETNEXT leaves out. -/
def mibNodeSearch (fuel : Nat) (op : MibReq) (oid : List Int) (val : LuaValue)
    (valType : Option UInt8) : LuaM σ Result := do
  let tab ← MonadExcept.ofExcept (groupIndexTableGenerator group name)
  match op with
  | .set => handleSet group name tab oid val valType
  | .get => handleGet group name tab oid
  | .getNext => handleGetnext group name fuel tab oid

end Handlers

end Lua

end SmartSnmp
