import SmartSnmp.Mib.Tree.Basic
import SmartSnmp.Mib.Instance

/-!
# The searches of the MIB tree

`mib_tree_search` and `mib_tree_search_next` of `core/mib_tree.c`. A view is given by its OID.

The buffer `ret_oid->oid` that the GETNEXT search reads and writes at its cursor is kept as a
zipper: `path` is what stands before the cursor and `rest` the `id_len` sub-identifiers from it on.
In the immediate mode `id_len` is not maintained and not read, and neither is `rest`.
-/

namespace SmartSnmp

/-- Assign the tag of the variable of a result. -/
def OidSearchRes.setTag (ret : OidSearchRes) (tag : UInt8) : OidSearchRes :=
  { ret with var := { ret.var with tag := tag } }

/-! ### GET and SET -/

section Get

variable (handlers : Handlers)

/-- The loop of `mib_tree_search` at `node`, `pos` sub-identifiers into the OID. -/
def mibTreeSearchLoop (ret : OidSearchRes) (pos : Nat) :
    MibNode → Oid → Traced Call (MibNode × OidSearchRes)
  | .inst callback, [] =>
    pure (.inst callback, { ret with instPos := pos, instId := [] }.setTag asn1TagNoSuchInst)
  | node, [] => pure (node, { ret with instPos := pos, instId := [] }.setTag asn1TagNoSuchObj)
  | .null, x :: xs =>
    pure (.null, { ret with instPos := pos, instId := x :: xs }.setTag asn1TagNoSuchObj)
  | .group cap cnt subId subPtr, x :: xs =>
    let i := oidBinarySearch subId cnt x
    if 0 ≤ i then
      match subPtr[i.toNat]? with
      | some child => mibTreeSearchLoop ret (pos + 1) child xs
      | none => Traced.crash
    else
      pure (.group cap cnt subId subPtr,
        { ret with instPos := pos, instId := x :: xs }.setTag asn1TagNoSuchObj)
  | .inst callback, x :: xs => do
    let ret' ← mibInstanceSearch handlers
      { ret with instPos := pos, instId := x :: xs, callback := callback }
    pure (.inst callback, ret')

/-- `mib_tree_search`: the node the search ends at and the result. -/
def mibTreeSearch (root : MibNode) (view orig : Oid) (ret : OidSearchRes) :
    Traced Call (MibNode × OidSearchRes) :=
  let ret := { ret with oid := orig, errStat := 0 }
  if oidCover view orig ≤ 0 then pure (.null, ret.setTag asn1TagNoSuchObj)
  else mibTreeSearchLoop handlers ret 0 root orig

end Get

/-! ### GETNEXT -/

/-- The variables of the loop of `mib_tree_search_next`. -/
structure SearchNextState where
  path : Oid
  rest : Oid
  immediate : Bool
  pNbl : Option NodeBacklog
  stk : List NodeBacklog
  node : MibNode
  ret : OidSearchRes

section GetNext

variable (handlers : Handlers) (view orig : Oid)

/-- What the search returns at the end of the traversal. -/
def endOfMibView (ret : OidSearchRes) : OidSearchRes :=
  { ret with oid := orig, instPos := 0, instId := [], errStat := 0 }.setTag asn1TagEndOfMibView

/-- `nbl_pop` and what follows it. -/
def searchNextBacktrack (s : SearchNextState) (ret : OidSearchRes) :
    SearchNextState ⊕ OidSearchRes :=
  match s.stk with
  | [] => .inr (endOfMibView orig ret)
  | nbl :: stk => .inl { s with
      path := s.path.dropLast
      immediate := true
      pNbl := some nbl
      stk := stk
      node := nbl.node
      ret := ret }

/-- The backlog entry for what is left of a group after slot `i`. -/
def backlogAfter (node : MibNode) (cnt i : Nat) : NodeBacklog :=
  if i + 1 ≥ cnt then ⟨.null, -1⟩ else ⟨node, (i + 1 : Nat)⟩

/-- Move into slot `i` of a group, with the current node backlogged. -/
def searchNextDescend (s : SearchNextState) (cnt : Nat) (subId : List UInt32)
    (subPtr : List MibNode) (i : Nat) : Option SearchNextState :=
  match subId[i]?, subPtr[i]? with
  | some k, some child => some { s with
      path := s.path ++ [k]
      pNbl := none
      stk := nblPush (backlogAfter s.node cnt i) s.stk
      node := child }
  | _, _ => none

/-- After a move in the matching mode: `--id_len == 0 && node->type == MIB_OBJ_GROUP`. -/
def searchNextAdvance (s : SearchNextState) : Option SearchNextState :=
  match s.node with
  | .null => none
  | .inst _ => some { s with rest := s.rest.tail }
  | .group _ _ _ _ =>
    some { s with rest := s.rest.tail, immediate := s.immediate || s.rest.tail.isEmpty }

/-- The instance case: ask the handler of the instance at `path` for `suffix`. The result is the
answer (`inr`), or what is left in the result structure when the search goes on (`inl`). -/
def searchNextInstance (path suffix : Oid) (callback : Int) (ret : OidSearchRes) :
    Traced Call (OidSearchRes ⊕ OidSearchRes) := do
  let ret ← mibInstanceSearch handlers
    { ret with instPos := path.length, instId := suffix, callback := callback }
  if mibTagValid ret.var.tag then
    let ret := { ret with oid := path ++ ret.instId }
    if ret.oid.length ≤ mibOidMaxLen then
      if oidCover view ret.oid = 0 then pure (.inl ret) else pure (.inr ret)
    else Traced.crash
  else pure (.inl ret)

/-- One iteration of the loop of `mib_tree_search_next`. -/
def searchNextStep (s : SearchNextState) : Traced Call (SearchNextState ⊕ OidSearchRes) :=
  match s.node with
  | .null => pure (searchNextBacktrack orig s s.ret)
  | .group _ cnt subId subPtr =>
    if s.immediate then
      let i := (s.pNbl.map NodeBacklog.nIdx).getD 0
      match searchNextDescend s cnt subId subPtr i.toNat with
      | some s' => pure (.inl s')
      | none => Traced.crash
    else
      match s.rest with
      -- reads past the given OID; the mode has changed before
      | [] => Traced.crash
      | x :: _ =>
        let index := oidBinarySearch subId cnt x
        if 0 ≤ index then
          match (searchNextDescend s cnt subId subPtr index.toNat).bind searchNextAdvance with
          | some s' => pure (.inl s')
          | none => Traced.crash
        else
          let i := (-index - 1).toNat
          if i = cnt then pure (searchNextBacktrack orig s s.ret)
          else if i = 0 then pure (.inl { s with immediate := true })
          else
            match (searchNextDescend { s with immediate := true } cnt subId subPtr i).bind
              searchNextAdvance with
            | some s' => pure (.inl s')
            | none => Traced.crash
  | .inst callback => do
    let suffix := if s.immediate || s.rest.isEmpty then [] else s.rest
    match ← searchNextInstance handlers view s.path suffix callback s.ret with
    | .inl ret => pure (searchNextBacktrack orig s ret)
    | .inr ret => pure (.inr ret)

/-- The loop of `mib_tree_search_next`. -/
def searchNextLoop : Nat → SearchNextState → Traced Call OidSearchRes
  | 0, _ => Traced.outOfFuel
  | fuel + 1, s => do
    match ← searchNextStep handlers view orig s with
    | .inl s' => searchNextLoop fuel s'
    | .inr ret => pure ret

/-- Search the node at the OID of the view, which is asserted to exist, and start from it. -/
def startAtView (root : MibNode) (ret : OidSearchRes)
    (start : MibNode → OidSearchRes → SearchNextState) : Traced Call SearchNextState := do
  let (node, ret) ← mibTreeSearch handlers root view view { ret with request := .get }
  match node with
  | .null => Traced.crash
  | node => pure (start node { ret with request := .getNext, errStat := 0 })

/-- What precedes the loop of `mib_tree_search_next`: where the search starts, by the position of
the given OID relative to the view. -/
def searchNextStart (root : MibNode) (ret : OidSearchRes) : Traced Call SearchNextState :=
  if 0 < oidCover view orig then
    startAtView handlers view root ret fun node ret => {
      path := orig.take ret.instPos
      rest := orig.drop ret.instPos
      immediate := !(orig.length > ret.instPos)
      pNbl := none
      stk := []
      node := node
      ret := { ret with oid := orig } }
  else if oidCmp orig view < 0 then
    startAtView handlers view root ret fun node ret => {
      path := view.take ret.instPos
      rest := view.drop ret.instPos
      immediate := node.isGroup
      pNbl := none
      stk := []
      node := node
      ret := ret }
  else
    -- `inst_id` is left as the caller passed it, and the cursor with it; neither is used
    pure {
      path := []
      rest := []
      immediate := false
      pNbl := none
      stk := []
      node := .null
      ret := { ret with oid := view, errStat := 0 } }

/-- `mib_tree_search_next`. The fuel of the loop is a bound on its iterations from the node the
search starts at. -/
def mibTreeSearchNext (root : MibNode) (ret : OidSearchRes) : Traced Call OidSearchRes := do
  let s ← searchNextStart handlers view orig root ret
  searchNextLoop handlers view orig (s.node.cost + 1) s

end GetNext

end SmartSnmp
