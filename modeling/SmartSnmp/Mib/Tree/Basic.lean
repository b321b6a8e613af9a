import SmartSnmp.Lib.ArrayShift
import SmartSnmp.Lib.Traced
import SmartSnmp.Mib.Oid

/-!
# The MIB tree

The tree of `core/mib_tree.c` with the operations that change it. A node pointer is a `MibNode`,
with `null` for `NULL`; the two arrays of a group are lists of all their allocated slots, of which
the first `cnt` are in use. `sub_id_cap` and `sub_id_cnt` are not bounded here.

The tree is a value: where the source follows a pointer and writes through it, the functions
below return the changed node, and a pointer that is kept for later (`node_pair`) is a position,
the slot indices that lead to the node from the root.
-/

namespace SmartSnmp

open ArrayShift PrefixOrder

/-- `struct mib_node *`. -/
inductive MibNode where
  | null
  | group (cap cnt : Nat) (subId : List UInt32) (subPtr : List MibNode)
  | inst (callback : Int)

/-! ### What a node stands for -/

namespace MibNode

/-- `node->type == MIB_OBJ_GROUP`. -/
def isGroup : MibNode → Bool
  | .group _ _ _ _ => true
  | _ => false

@[simp] lemma isGroup_null : isGroup .null = false := rfl

@[simp] lemma isGroup_inst (callback : Int) : isGroup (.inst callback) = false := rfl

@[simp] lemma isGroup_group (cap cnt : Nat) (subId : List UInt32) (subPtr : List MibNode) :
    isGroup (.group cap cnt subId subPtr) = true := rfl

mutual

/-- The instances below a node, with the sub-identifiers that lead to them, in array order. -/
def leaves : MibNode → List (Oid × Int)
  | .null => []
  | .inst callback => [([], callback)]
  | .group _ cnt subId subPtr => leavesList subPtr cnt subId

def leavesList : List MibNode → Nat → List UInt32 → List (Oid × Int)
  | c :: cs, n + 1, k :: ks => under k c.leaves ++ leavesList cs n ks
  | _, _, _ => []

end

mutual

/-- A bound on the iterations of a depth-first walk of a node. -/
def cost : MibNode → Nat
  | .null => 1
  | .inst _ => 1
  | .group _ _ _ subPtr => costList subPtr + 3

def costList : List MibNode → Nat
  | [] => 0
  | c :: cs => 1 + c.cost + costList cs

end

/-- `node` sits below `root` at the end of the sub-identifiers `path`. -/
inductive Occurs : MibNode → Oid → MibNode → Prop where
  | here (node : MibNode) : Occurs node [] node
  | child {cap cnt : Nat} {subId : List UInt32} {subPtr : List MibNode} {i : Nat} {k : UInt32}
      {c : MibNode} {path : Oid} {node : MibNode} (hi : i < cnt) (hk : subId[i]? = some k)
      (hc : subPtr[i]? = some c) (h : Occurs c path node) :
      Occurs (.group cap cnt subId subPtr) (k :: path) node

end MibNode

/-! ### Group nodes -/

/-- `alloc_nr`. -/
def allocNr (x : Nat) : Nat := (x + 2) * 3 / 2

/-- `is_raw_group`: a newly allocated node. -/
def isRawGroup (cnt : Nat) (subId : List UInt32) : Bool := subId[0]? == some 0 && cnt == 0

/-- `group_node_expand`: make room at `index`, in place or in arrays of a larger capacity. -/
def groupNodeExpand (cap cnt : Nat) (subId : List UInt32) (subPtr : List MibNode) (index : Nat) :
    Nat × List UInt32 × List MibNode :=
  if cnt + 1 > cap then
    (allocNr cap, copyGap subId index cnt (List.replicate (allocNr cap) 0),
      copyGap subPtr index cnt (List.replicate (allocNr cap) .null))
  else
    (cap, shiftUp index cnt subId, shiftUp index cnt subPtr)

/-- `group_node_shrink`: remove the slot `index`; the last one leaves a raw group. -/
def groupNodeShrink (index : Nat) : MibNode → MibNode
  | .group cap cnt subId subPtr =>
    if cnt > 1 then
      .group cap (cnt - 1) (shiftDown index (cnt - 1 - index) subId)
        (shiftDown index (cnt - 1 - index) subPtr)
    else
      .group cap 0 (subId.set 0 0) (subPtr.set 0 .null)
  | node => node

/-- `mib_group_node_new`. -/
def mibGroupNodeNew : MibNode := .group 1 0 [0] [.null]

/-! ### Registration -/

/-- How `mib_tree_instance_insert` ends: at the new instance, at a bad traversal, or at a `NULL`
slot it would dereference. -/
inductive InsertResult where
  | inserted
  | badTraversal
  | fault
  deriving DecidableEq

/-- `mib_tree_instance_insert`, from the node reached with the sub-identifiers left. -/
def mibTreeInstanceInsert (callback : Int) : MibNode → Oid → MibNode × InsertResult
  | node, [] => (node, .badTraversal)
  | .null, _ :: _ => (.null, .fault)
  | .inst cb, _ :: _ => (.inst cb, .badTraversal)
  | .group cap cnt subId subPtr, x :: xs =>
    -- what goes into a slot that is new in this group
    let fresh := if xs.isEmpty then (.inst callback, .inserted)
      else mibTreeInstanceInsert callback mibGroupNodeNew xs
    if isRawGroup cnt subId then
      (.group cap (cnt + 1) (subId.set 0 x) (subPtr.set 0 fresh.1), fresh.2)
    else
      let i := oidBinarySearch subId cnt x
      if 0 ≤ i then
        let sub := mibTreeInstanceInsert callback (subPtr.getD i.toNat .null) xs
        (.group cap cnt subId (subPtr.set i.toNat sub.1), sub.2)
      else
        let i := (-i - 1).toNat
        let arrays := groupNodeExpand cap cnt subId subPtr i
        (.group arrays.1 (cnt + 1) (arrays.2.1.set i x) (arrays.2.2.set i fresh.1), fresh.2)

/-- `mib_node_reg`: the tree afterwards and the return code. -/
def mibNodeReg (root : MibNode) (oid : Oid) (callback : Int) : Outcome (MibNode × Int) :=
  if oid.length = 0 then .ok (root, -1)
  else if oid.length > mibOidMaxLen then .ok (root, -1)
  else
    match mibTreeInstanceInsert callback root oid with
    | (root', .inserted) => .ok (root', 0)
    | (root', .badTraversal) => .ok (root', -1)
    | (_, .fault) => .crash

/-! ### Unregistration -/

/-- `struct node_pair`. -/
structure NodePair where
  parent : List Nat
  childPos : List Nat
  child : MibNode
  subIdx : Nat

/-- The loop of `mib_tree_node_search` at `node`, which sits at `pos` in slot `subIdx` of
`parent`. -/
def mibTreeNodeSearchLoop (parent pos : List Nat) (subIdx : Nat) : MibNode → Oid → MibNode × NodePair
  | node, [] => (node, ⟨parent, pos, node, subIdx⟩)
  | .null, _ :: _ => (.null, ⟨parent, pos, .null, subIdx⟩)
  | .group cap cnt subId subPtr, x :: xs =>
    let i := oidBinarySearch subId cnt x
    if 0 ≤ i then
      mibTreeNodeSearchLoop pos (pos ++ [i.toNat]) i.toNat (subPtr.getD i.toNat .null) xs
    else (.null, ⟨parent, pos, .group cap cnt subId subPtr, subIdx⟩)
  | .inst cb, _ :: xs =>
    -- an instance is also returned for an OID that goes one sub-identifier past it
    (if xs.length + 1 ≠ 1 then .null else .inst cb, ⟨parent, pos, .inst cb, subIdx⟩)

/-- `mib_tree_node_search`. -/
def mibTreeNodeSearch (root : MibNode) (oid : Oid) : MibNode × NodePair :=
  mibTreeNodeSearchLoop [] [] 0 root oid

/-- `struct node_backlog`. -/
structure NodeBacklog where
  node : MibNode
  nIdx : Int

/-- `nbl_push`: a push on a full stack is dropped. -/
def nblPush (nbl : NodeBacklog) (stk : List NodeBacklog) : List NodeBacklog :=
  if stk.length < mibOidMaxLen then nbl :: stk else stk

/-- The loop of `__mib_tree_delete` at `node`; `freed` are the nodes deleted so far. -/
def mibTreeDeleteLoop : Nat → MibNode → Option NodeBacklog → List NodeBacklog → List MibNode →
    Outcome (List MibNode)
  | 0, _, _, _, _ => .fuel
  | fuel + 1, node, pNbl, stk, freed =>
    let backtrack (freed : List MibNode) : Outcome (List MibNode) :=
      match stk with
      | [] => .ok freed
      | nbl :: stk' => mibTreeDeleteLoop fuel nbl.node (some nbl) stk' freed
    match node with
    | .null => backtrack freed
    | .inst cb => backtrack (freed ++ [.inst cb])
    | .group cap cnt subId subPtr =>
      let i := (pNbl.map NodeBacklog.nIdx).getD 0
      if i = -1 then backtrack (freed ++ [.group cap cnt subId subPtr])
      else
        let nbl := ⟨.group cap cnt subId subPtr, if i + 1 ≥ cnt then -1 else i + 1⟩
        match subPtr[i.toNat]? with
        | some child => mibTreeDeleteLoop fuel child none (nblPush nbl stk) freed
        | none => .crash

/-- Write through the pointer to the node at a position. -/
def MibNode.updateAt (f : MibNode → MibNode) : List Nat → MibNode → MibNode
  | [], node => f node
  | i :: pos, .group cap cnt subId subPtr =>
    .group cap cnt subId (subPtr.set i (updateAt f pos (subPtr.getD i .null)))
  | _ :: _, node => node

/-- `__mib_tree_delete`: the dummy root node cannot be deleted. -/
def mibTreeDeletePair (root : MibNode) (pair : NodePair) : Outcome MibNode :=
  if pair.childPos = [] then .ok root
  else
    match mibTreeDeleteLoop pair.child.cost pair.child none [] [] with
    | .ok _ => .ok (root.updateAt (groupNodeShrink pair.subIdx) pair.parent)
    | .crash => .crash
    | .fuel => .fuel

/-- `mib_tree_delete`. -/
def mibTreeDelete (root : MibNode) (oid : Oid) : Outcome MibNode :=
  match mibTreeNodeSearch root oid with
  | (.null, _) => .ok root
  | (_, pair) => mibTreeDeletePair root pair

/-- `mib_node_unreg`. -/
def mibNodeUnreg (root : MibNode) (oid : Oid) : Outcome MibNode := mibTreeDelete root oid

/-! ### Runs -/

/-- `mib_init`: the dummy root node. -/
def mibInit : MibNode := .group 1 0 [0] [.null]

/-- A call that changes the tree. -/
inductive TreeOp where
  | reg (oid : Oid) (callback : Int)
  | unreg (oid : Oid)

def TreeOp.apply (root : MibNode) : TreeOp → Outcome MibNode
  | .reg oid callback =>
    match mibNodeReg root oid callback with
    | .ok (root', _) => .ok root'
    | .crash => .crash
    | .fuel => .fuel
  | .unreg oid => mibNodeUnreg root oid

/-- The tree after a sequence of calls. -/
def runTree (root : MibNode) : List TreeOp → Outcome MibNode
  | [] => .ok root
  | op :: ops =>
    match op.apply root with
    | .ok root' => runTree root' ops
    | .crash => .crash
    | .fuel => .fuel

/-- The trees a sequence of calls leads to from `mib_init`. -/
def Reachable (root : MibNode) : Prop := ∃ ops, runTree mibInit ops = .ok root

end SmartSnmp
