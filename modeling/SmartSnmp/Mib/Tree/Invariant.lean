import SmartSnmp.Mib.Tree.Basic

/-!
# The representation invariant of the MIB tree

`WellFormed d node` says that a node and everything below it is represented as the searches
expect, with at most `d` levels below it. The depth bound is also what the proofs recurse on:
every child of a group that is well formed for `d + 1` is well formed for `d`.
-/

namespace SmartSnmp

open ArrayShift

/-- The two arrays of a group. -/
structure GroupShape (cap cnt : Nat) (subId : List UInt32) (subPtr : List MibNode) : Prop where
  cap_pos : 0 < cap
  subId_length : subId.length = cap
  subPtr_length : subPtr.length = cap
  cnt_le : cnt ≤ cap
  ascending : (subId.take cnt).Pairwise (· < ·)
  raw : cnt = 0 → subId[0]? = some 0 ∧ subPtr[0]? = some .null

namespace MibNode

def WellFormed : Nat → MibNode → Prop
  | _, .null => False
  | _, .inst _ => True
  | 0, .group _ _ _ _ => False
  | d + 1, .group cap cnt subId subPtr =>
    GroupShape cap cnt subId subPtr ∧ ∀ c ∈ subPtr.take cnt, WellFormed d c

@[simp] lemma not_wellFormed_null (d : Nat) : ¬ WellFormed d .null := by cases d <;> simp [WellFormed]

@[simp] lemma wellFormed_inst (d : Nat) (cb : Int) : WellFormed d (.inst cb) := by
  cases d <;> simp [WellFormed]

@[simp] lemma not_wellFormed_zero_group (cap cnt : Nat) (subId : List UInt32)
    (subPtr : List MibNode) : ¬ WellFormed 0 (.group cap cnt subId subPtr) := by simp [WellFormed]

lemma WellFormed.exists_eq_succ {d cap cnt : Nat} {subId : List UInt32} {subPtr : List MibNode}
    (h : WellFormed d (.group cap cnt subId subPtr)) : ∃ e, d = e + 1 := by
  cases d with
  | zero => exact absurd h (not_wellFormed_zero_group _ _ _ _)
  | succ e => exact ⟨e, rfl⟩

lemma wellFormed_group {d cap cnt : Nat} {subId : List UInt32} {subPtr : List MibNode} :
    WellFormed (d + 1) (.group cap cnt subId subPtr) ↔
      GroupShape cap cnt subId subPtr ∧ ∀ c ∈ subPtr.take cnt, WellFormed d c := by
  rw [WellFormed]

lemma WellFormed.ne_null {d : Nat} {node : MibNode} (h : WellFormed d node) : node ≠ .null := by
  rintro rfl
  exact not_wellFormed_null d h

lemma wellFormed_groupNodeNew (d : Nat) : WellFormed (d + 1) mibGroupNodeNew := by
  refine wellFormed_group.mpr ⟨⟨by simp, rfl, rfl, by simp, by simp, by simp⟩, by simp⟩

/-- A child in use, by its slot. -/
lemma WellFormed.child {d cap cnt i : Nat} {subId : List UInt32} {subPtr : List MibNode} {c : MibNode}
    (h : WellFormed (d + 1) (.group cap cnt subId subPtr)) (hi : i < cnt)
    (hc : subPtr[i]? = some c) : WellFormed d c := by
  refine (wellFormed_group.mp h).2 c (List.mem_of_getElem? (i := i) ?_)
  rw [List.getElem?_take, if_pos hi, hc]

end MibNode

namespace GroupShape

variable {cap cnt : Nat} {subId : List UInt32} {subPtr : List MibNode}

lemma exists_sub (h : GroupShape cap cnt subId subPtr) {i : Nat} (hi : i < cnt) :
    ∃ k c, subId[i]? = some k ∧ subPtr[i]? = some c := by
  have := h.cnt_le
  have h₁ : i < subId.length := by rw [h.subId_length]; omega
  have h₂ : i < subPtr.length := by rw [h.subPtr_length]; omega
  exact ⟨_, _, List.getElem?_eq_getElem h₁, List.getElem?_eq_getElem h₂⟩

lemma cnt_le_subId (h : GroupShape cap cnt subId subPtr) : cnt ≤ subId.length :=
  h.subId_length ▸ h.cnt_le

lemma cnt_le_subPtr (h : GroupShape cap cnt subId subPtr) : cnt ≤ subPtr.length :=
  h.subPtr_length ▸ h.cnt_le

/-- The binary search of a group: a slot in use, or the place a new one belongs at. -/
lemma binarySearch_cases (h : GroupShape cap cnt subId subPtr) (x : UInt32) :
    (∃ i, i < cnt ∧ subId[i]? = some x ∧ oidBinarySearch subId cnt x = i) ∨
    (∃ i, i ≤ cnt ∧ (∀ j k, j < i → subId[j]? = some k → k < x) ∧
      (∀ j k, i ≤ j → j < cnt → subId[j]? = some k → x < k) ∧
      oidBinarySearch subId cnt x = -(i : Int) - 1) :=
  oidBinarySearch_cases h.cnt_le_subId h.ascending x

lemma subId_lt (h : GroupShape cap cnt subId subPtr) {i j : Nat} {k l : UInt32} (hij : i < j)
    (hj : j < cnt) (hk : subId[i]? = some k) (hl : subId[j]? = some l) : k < l := by
  have hlen := h.cnt_le_subId
  have hlt := List.pairwise_iff_getElem.mp h.ascending i j (by simp; omega) (by simp; omega) hij
  obtain ⟨_, rfl⟩ := List.getElem?_eq_some_iff.mp hk
  obtain ⟨_, rfl⟩ := List.getElem?_eq_some_iff.mp hl
  simpa using hlt

lemma index_inj (h : GroupShape cap cnt subId subPtr) {i j : Nat} {k : UInt32} (hi : i < cnt)
    (hj : j < cnt) (hik : subId[i]? = some k) (hjk : subId[j]? = some k) : i = j := by
  rcases Nat.lt_trichotomy i j with hij | hij | hij
  · exact absurd (h.subId_lt hij hj hik hjk) (lt_irrefl k)
  · exact hij
  · exact absurd (h.subId_lt hij hi hjk hik) (lt_irrefl k)

/-- Another child in a slot in use. -/
lemma set_child (h : GroupShape cap cnt subId subPtr) {i : Nat} (hi : i < cnt) (c : MibNode) :
    GroupShape cap cnt subId (subPtr.set i c) :=
  ⟨h.cap_pos, h.subId_length, by rw [List.length_set, h.subPtr_length], h.cnt_le, h.ascending,
    fun h0 => by omega⟩

/-- A group is raw exactly when it is empty. -/
lemma isRawGroup_iff (h : GroupShape cap cnt subId subPtr) : isRawGroup cnt subId = true ↔ cnt = 0 := by
  constructor
  · intro hraw
    simp only [isRawGroup, Bool.and_eq_true, beq_iff_eq] at hraw
    exact hraw.2
  · intro h0
    simp [isRawGroup, (h.raw h0).1, h0]

/-- The first slot of a raw group is filled. -/
lemma fill_raw (h : GroupShape cap cnt subId subPtr) (h0 : cnt = 0) (x : UInt32) (c : MibNode) :
    GroupShape cap (cnt + 1) (subId.set 0 x) (subPtr.set 0 c) := by
  subst h0
  have hcap := h.cap_pos
  have hlen := h.subId_length
  refine ⟨hcap, by simp [hlen], by simp [h.subPtr_length], hcap, ?_, by simp⟩
  cases subId with
  | nil => simp at hlen; omega
  | cons a as => simp

lemma take_fill_raw (h : GroupShape cap cnt subId subPtr) (h0 : cnt = 0) (c : MibNode) :
    (subPtr.set 0 c).take (cnt + 1) = [c] := by
  subst h0
  have hcap := h.cap_pos
  have hlen := h.subPtr_length
  cases subPtr with
  | nil => simp at hlen; omega
  | cons a as => simp

end GroupShape

/-! ### Insertion -/

lemma lt_allocNr (cap : Nat) : cap < allocNr cap := by
  simp only [allocNr]
  omega

section Expand

variable {cap cnt i : Nat} {subId : List UInt32} {subPtr : List MibNode}

/-- What `group_node_expand` and the two writes after it leave in the slots in use. -/
lemma take_groupNodeExpand (h : GroupShape cap cnt subId subPtr) (hi : i ≤ cnt) (x : UInt32)
    (c : MibNode) :
    (((groupNodeExpand cap cnt subId subPtr i).2.1.set i x).take (cnt + 1) =
        (subId.take cnt).insertIdx i x) ∧
      ((groupNodeExpand cap cnt subId subPtr i).2.2.set i c).take (cnt + 1) =
        (subPtr.take cnt).insertIdx i c := by
  have hcap := lt_allocNr cap
  have hcnt := h.cnt_le
  simp only [groupNodeExpand]
  split_ifs with hfull
  · exact ⟨take_set_copyGap hi h.cnt_le_subId (by simp; omega) x,
      take_set_copyGap hi h.cnt_le_subPtr (by simp; omega) c⟩
  · exact ⟨take_set_shiftUp hi (by rw [h.subId_length]; omega) x,
      take_set_shiftUp hi (by rw [h.subPtr_length]; omega) c⟩

/-- A new slot where the binary search places it keeps the shape of a group. -/
lemma GroupShape.expand (h : GroupShape cap cnt subId subPtr) (hi : i ≤ cnt) {x : UInt32}
    (hbelow : ∀ j k, j < i → subId[j]? = some k → k < x)
    (habove : ∀ j k, i ≤ j → j < cnt → subId[j]? = some k → x < k) (c : MibNode) :
    GroupShape (groupNodeExpand cap cnt subId subPtr i).1 (cnt + 1)
      ((groupNodeExpand cap cnt subId subPtr i).2.1.set i x)
      ((groupNodeExpand cap cnt subId subPtr i).2.2.set i c) := by
  have hcap := lt_allocNr cap
  have hcnt := h.cnt_le
  have hasc : ((subId.take cnt).insertIdx i x).Pairwise (· < ·) := by
    refine pairwise_insertIdx h.ascending (fun j a hj hja => ?_) fun j a hj hja => ?_
    · rw [List.getElem?_take, if_pos (by omega)] at hja
      exact hbelow j a hj hja
    · rw [List.getElem?_take] at hja
      split_ifs at hja with hjc
      exact habove j a hj hjc hja
  refine ⟨?_, ?_, ?_, ?_, by rw [(take_groupNodeExpand h hi x c).1]; exact hasc, by simp⟩ <;>
    simp only [groupNodeExpand] <;> split_ifs with hfull
  · omega
  · exact h.cap_pos
  · simp
  · simp [h.subId_length]
  · simp
  · simp [h.subPtr_length]
  · omega
  · omega

end Expand

namespace MibNode

/-- Insertion keeps a node well formed and meets no `NULL` slot, as long as the sub-identifiers
left fit the depth. -/
theorem WellFormed.instanceInsert (callback : Int) (oid : Oid) {d : Nat} {node : MibNode}
    (h : WellFormed d node) (hlen : oid.length ≤ d) :
    WellFormed d (mibTreeInstanceInsert callback node oid).1 ∧
      (mibTreeInstanceInsert callback node oid).2 ≠ .fault := by
  induction oid generalizing d node with
  | nil => simpa [mibTreeInstanceInsert] using h
  | cons x xs ih =>
    cases node with
    | null => exact absurd h (not_wellFormed_null _)
    | inst cb => simp [mibTreeInstanceInsert]
    | group cap cnt subId subPtr =>
      obtain ⟨d, rfl⟩ := h.exists_eq_succ
      simp only [List.length_cons, Nat.add_le_add_iff_right] at hlen
      obtain ⟨hshape, hkids⟩ := wellFormed_group.mp h
      -- the child that goes into a new slot
      have hfresh : ∀ fresh, fresh = (if xs.isEmpty then (.inst callback, .inserted)
          else mibTreeInstanceInsert callback mibGroupNodeNew xs) →
          WellFormed d fresh.1 ∧ fresh.2 ≠ .fault := by
        rintro _ rfl
        cases xs with
        | nil => simp
        | cons y ys =>
          obtain ⟨d, rfl⟩ : ∃ e, d = e + 1 := ⟨d - 1, by simp at hlen; omega⟩
          exact ih (wellFormed_groupNodeNew d) hlen
      simp only [mibTreeInstanceInsert]
      generalize hf : (if xs.isEmpty = true then (.inst callback, InsertResult.inserted)
        else mibTreeInstanceInsert callback mibGroupNodeNew xs) = fresh
      obtain ⟨hfw, hff⟩ := hfresh fresh hf.symm
      by_cases hraw : isRawGroup cnt subId = true
      · rw [if_pos hraw]
        have h0 := hshape.isRawGroup_iff.mp hraw
        refine ⟨wellFormed_group.mpr ⟨hshape.fill_raw h0 x _, ?_⟩, hff⟩
        rw [hshape.take_fill_raw h0]
        simpa using hfw
      · rw [if_neg hraw]
        rcases hshape.binarySearch_cases x with ⟨i, hi, _, heq⟩ | ⟨i, hi, hb, ha, heq⟩
        · obtain ⟨_, c, _, hc⟩ := hshape.exists_sub hi
          rw [heq, if_pos (by omega)]
          simp only [Int.toNat_natCast, List.getD_eq_getElem?_getD, hc, Option.getD_some]
          obtain ⟨hw, hnf⟩ := ih (h.child hi hc) hlen
          refine ⟨wellFormed_group.mpr ⟨hshape.set_child hi _, fun e he => ?_⟩, hnf⟩
          rw [List.take_set] at he
          rcases List.mem_or_eq_of_mem_set he with he | rfl
          · exact hkids e he
          · exact hw
        · rw [heq, if_neg (by omega)]
          have hidx : (-(-(i : Int) - 1) - 1).toNat = i := by omega
          rw [hidx]
          refine ⟨wellFormed_group.mpr ⟨hshape.expand hi hb ha _, fun e he => ?_⟩, hff⟩
          rw [(take_groupNodeExpand hshape hi x _).2] at he
          rcases List.eq_or_mem_of_mem_insertIdx he with rfl | he
          · exact hfw
          · exact hkids e he

/-! ### Positions -/

/-- `node` sits below `root` at the slot position `pos`. -/
inductive At : MibNode → List Nat → MibNode → Prop where
  | here (node : MibNode) : At node [] node
  | child {cap cnt : Nat} {subId : List UInt32} {subPtr : List MibNode} {i : Nat} {c : MibNode}
      {pos : List Nat} {node : MibNode} (hi : i < cnt) (hc : subPtr[i]? = some c)
      (h : At c pos node) : At (.group cap cnt subId subPtr) (i :: pos) node

lemma At.snoc {root : MibNode} {pos : List Nat} {cap cnt i : Nat} {subId : List UInt32}
    {subPtr : List MibNode} {c : MibNode} (h : At root pos (.group cap cnt subId subPtr))
    (hi : i < cnt) (hc : subPtr[i]? = some c) : At root (pos ++ [i]) c := by
  generalize hn : MibNode.group cap cnt subId subPtr = node at h
  induction h with
  | here node => exact hn ▸ .child hi hc (.here c)
  | child hi' hc' _ ih => exact .child hi' hc' (ih hn)

/-- The last step of a position leaves a slot in use of a group. -/
lemma At.of_snoc {root : MibNode} {pos : List Nat} {i : Nat} {c : MibNode}
    (h : At root (pos ++ [i]) c) :
    ∃ cap cnt subId subPtr, At root pos (.group cap cnt subId subPtr) ∧ i < cnt := by
  induction pos generalizing root with
  | nil =>
    cases h with
    | child hi hc h => exact ⟨_, _, _, _, .here _, hi⟩
  | cons j pos ih =>
    cases h with
    | child hj hc h =>
      obtain ⟨cap, cnt, subId, subPtr, hat, hi⟩ := ih h
      exact ⟨cap, cnt, subId, subPtr, .child hj hc hat, hi⟩

/-- Writing through a pointer into a well-formed tree. -/
lemma WellFormed.updateAt {f : MibNode → MibNode} {root node : MibNode} {pos : List Nat} {d : Nat}
    (hat : At root pos node) (hf : ∀ e, WellFormed e node → WellFormed e (f node))
    (h : WellFormed d root) : WellFormed d (root.updateAt f pos) := by
  induction hat generalizing d with
  | here node => exact hf d h
  | @child cap cnt subId subPtr i c pos node hi hc hat ih =>
    obtain ⟨d, rfl⟩ := h.exists_eq_succ
    obtain ⟨hshape, hkids⟩ := wellFormed_group.mp h
    simp only [MibNode.updateAt, List.getD_eq_getElem?_getD, hc, Option.getD_some]
    refine wellFormed_group.mpr ⟨hshape.set_child hi _, fun e he => ?_⟩
    rw [List.take_set] at he
    rcases List.mem_or_eq_of_mem_set he with he | rfl
    · exact hkids e he
    · exact ih hf (h.child hi hc)

/-! ### Deletion -/

/-- `group_node_shrink` on a slot in use. -/
lemma WellFormed.shrink {d cap cnt index : Nat} {subId : List UInt32} {subPtr : List MibNode}
    (h : WellFormed d (.group cap cnt subId subPtr)) (hi : index < cnt) :
    WellFormed d (groupNodeShrink index (.group cap cnt subId subPtr)) := by
  obtain ⟨d, rfl⟩ := h.exists_eq_succ
  obtain ⟨hshape, hkids⟩ := wellFormed_group.mp h
  have hcap := hshape.cap_pos
  simp only [groupNodeShrink]
  split_ifs with hcnt
  · refine wellFormed_group.mpr ⟨⟨hcap, by simp [hshape.subId_length],
      by simp [hshape.subPtr_length], by have := hshape.cnt_le; omega, ?_, fun h0 => by omega⟩,
      fun e he => ?_⟩
    · rw [take_shiftDown hi hshape.cnt_le_subId]
      exact hshape.ascending.eraseIdx index
    · rw [take_shiftDown hi hshape.cnt_le_subPtr] at he
      exact hkids e (List.mem_of_mem_eraseIdx he)
  · refine wellFormed_group.mpr ⟨⟨hcap, by simp [hshape.subId_length],
      by simp [hshape.subPtr_length], Nat.zero_le _, by simp, fun _ => ⟨?_, ?_⟩⟩, by simp⟩
    · rw [List.getElem?_set_self (by rw [hshape.subId_length]; exact hcap)]
    · rw [List.getElem?_set_self (by rw [hshape.subPtr_length]; exact hcap)]

/-- `mib_tree_node_search` ends at a node of the tree, and the pair names the slot it sits in. -/
lemma nodeSearch_pair {root : MibNode} (oid : Oid) {d : Nat} {node : MibNode}
    {parent pos : List Nat} {subIdx : Nat} (h : WellFormed d node) (hat : At root pos node)
    (hpos : pos = [] ∨ pos = parent ++ [subIdx]) (pair : NodePair)
    (hpair : (mibTreeNodeSearchLoop parent pos subIdx node oid).2 = pair) :
    At root pair.childPos pair.child ∧ (∃ e, WellFormed e pair.child) ∧
      (pair.childPos = [] ∨ pair.childPos = pair.parent ++ [pair.subIdx]) := by
  induction oid generalizing d node parent pos subIdx with
  | nil =>
    subst hpair
    exact ⟨hat, ⟨d, h⟩, hpos⟩
  | cons x xs ih =>
    cases node with
    | null => exact absurd h (not_wellFormed_null _)
    | inst cb =>
      subst hpair
      exact ⟨hat, ⟨_, h⟩, hpos⟩
    | group cap cnt subId subPtr =>
      obtain ⟨d, rfl⟩ := h.exists_eq_succ
      obtain ⟨hshape, _⟩ := wellFormed_group.mp h
      simp only [mibTreeNodeSearchLoop] at hpair
      rcases hshape.binarySearch_cases x with ⟨i, hi, _, heq⟩ | ⟨i, _, _, _, heq⟩
      · obtain ⟨_, c, _, hc⟩ := hshape.exists_sub hi
        rw [heq, if_pos (by omega)] at hpair
        simp only [Int.toNat_natCast, List.getD_eq_getElem?_getD, hc, Option.getD_some] at hpair
        exact ih (h.child hi hc) (hat.snoc hi hc) (Or.inr rfl) hpair
      · rw [heq, if_neg (by omega)] at hpair
        subst hpair
        exact ⟨hat, ⟨_, h⟩, hpos⟩

lemma costList_drop {subPtr : List MibNode} {i : Nat} {c : MibNode} (hc : subPtr[i]? = some c) :
    costList (subPtr.drop i) = 1 + c.cost + costList (subPtr.drop (i + 1)) := by
  induction subPtr generalizing i with
  | nil => simp at hc
  | cons a as ih =>
    cases i with
    | zero =>
      obtain rfl : a = c := by simpa using hc
      simp [costList]
    | succ i => simpa using ih (by simpa using hc)

end MibNode

open MibNode

namespace NodeBacklog

/-- The iterations a backlogged group still takes. -/
def cost (nbl : NodeBacklog) : Nat :=
  match nbl.node with
  | .group _ _ _ subPtr => if nbl.nIdx = -1 then 1 else costList (subPtr.drop nbl.nIdx.toNat) + 1
  | _ => 1

/-- An entry of the stack of `__mib_tree_delete`: a group with its next slot, or `-1` after the
last one. -/
def DeleteOk (nbl : NodeBacklog) : Prop :=
  ∃ d cap cnt subId subPtr, nbl.node = .group cap cnt subId subPtr ∧
    WellFormed d nbl.node ∧ (nbl.nIdx = -1 ∨ ∃ j : Nat, nbl.nIdx = j ∧ j < cnt)

def stackCost (stk : List NodeBacklog) : Nat := (stk.map cost).sum

lemma stackCost_nblPush (nbl : NodeBacklog) (stk : List NodeBacklog) :
    stackCost (nblPush nbl stk) ≤ nbl.cost + stackCost stk := by
  simp only [nblPush]
  split_ifs <;> simp [stackCost]

lemma mem_nblPush {nbl e : NodeBacklog} {stk : List NodeBacklog} (h : e ∈ nblPush nbl stk) :
    e = nbl ∨ e ∈ stk := by
  simp only [nblPush] at h
  split_ifs at h
  · simpa using h
  · exact Or.inr h

end NodeBacklog

open NodeBacklog

section Entry

variable {d cap cnt i : Nat} {subId : List UInt32} {subPtr : List MibNode}

/-- What the walk enters next: a child, or the empty first slot of a group without children. -/
lemma MibNode.WellFormed.exists_entered (h : WellFormed d (.group cap cnt subId subPtr))
    (hi : i < cnt ∨ i = 0) : ∃ c, subPtr[i]? = some c ∧ (c = .null ∨ ∃ e, WellFormed e c) := by
  obtain ⟨d, rfl⟩ := h.exists_eq_succ
  have hshape := (wellFormed_group.mp h).1
  by_cases hic : i < cnt
  · obtain ⟨_, c, _, hc⟩ := hshape.exists_sub hic
    exact ⟨c, hc, .inr ⟨d, h.child hic hc⟩⟩
  · -- only an empty group is entered past its slots
    obtain rfl : i = 0 := by omega
    exact ⟨.null, (hshape.raw (by omega)).2, .inl rfl⟩

lemma cost_backlogged (cap cnt i : Nat) (subId : List UInt32) (subPtr : List MibNode) : (NodeBacklog.mk (.group cap cnt subId subPtr)
    (if (i : Int) + 1 ≥ cnt then -1 else i + 1)).cost ≤ costList (subPtr.drop (i + 1)) + 1 := by
  have hnext : ((i : Int) + 1).toNat = i + 1 := by omega
  simp only [NodeBacklog.cost]
  split_ifs
  · omega
  · omega
  · omega
  · rw [hnext]

lemma deleteOk_nblPush (h : WellFormed d (.group cap cnt subId subPtr)) {stk : List NodeBacklog}
    (hstk : ∀ e ∈ stk, e.DeleteOk) : ∀ e ∈ nblPush ⟨.group cap cnt subId subPtr,
      if (i : Int) + 1 ≥ cnt then -1 else i + 1⟩ stk, e.DeleteOk := by
  intro e he
  rcases mem_nblPush he with rfl | he
  · refine ⟨d, cap, cnt, subId, subPtr, rfl, h, ?_⟩
    by_cases hlast : (i : Int) + 1 ≥ cnt
    · exact .inl (if_pos hlast)
    · exact .inr ⟨i + 1, by simp [hlast], by omega⟩
  · exact hstk e he

end Entry

/-- The walk that deletes a subtree returns. The fuel covers what the current node and the stack
still cost. -/
theorem deleteLoop_returns (fuel : Nat) (node : MibNode) (pNbl : Option NodeBacklog)
    (stk : List NodeBacklog) (freed : List MibNode) (hstk : ∀ e ∈ stk, e.DeleteOk)
    (hnode : (pNbl = none ∧ (node = .null ∨ ∃ d, WellFormed d node) ∧
        node.cost + stackCost stk ≤ fuel) ∨
      ∃ nbl, pNbl = some nbl ∧ nbl.node = node ∧ nbl.DeleteOk ∧
        nbl.cost + stackCost stk ≤ fuel) :
    ∃ freed', mibTreeDeleteLoop fuel node pNbl stk freed = .ok freed' := by
  induction fuel generalizing node pNbl stk freed with
  | zero =>
    exfalso
    rcases hnode with ⟨_, _, h⟩ | ⟨nbl, _, rfl, ⟨_, _, _, _, _, hn, _⟩, h⟩
    · cases node <;> simp [MibNode.cost] at h
    · simp only [NodeBacklog.cost, hn] at h
      split_ifs at h <;> omega
  | succ fuel ih =>
    -- popping the next entry, if there is one, as the walk does at an empty slot
    have hback : ∀ freed, stackCost stk ≤ fuel →
        ∃ freed', mibTreeDeleteLoop (fuel + 1) .null none stk freed = .ok freed' := by
      intro freed hfuel
      cases stk with
      | nil => exact ⟨freed, rfl⟩
      | cons nbl stk' =>
        refine ih nbl.node (some nbl) stk' freed (fun e he => hstk e (List.mem_cons_of_mem _ he)) ?_
        exact Or.inr ⟨nbl, rfl, rfl, hstk nbl List.mem_cons_self, by simpa [stackCost] using hfuel⟩
    -- descending into slot `i`, with the rest of the group backlogged
    have hdown : ∀ d cap cnt subId subPtr i, WellFormed d (.group cap cnt subId subPtr) →
        (i < cnt ∨ i = 0) → costList (subPtr.drop i) + 1 + stackCost stk ≤ fuel + 1 →
        ∃ child freed', subPtr[i]? = some child ∧ mibTreeDeleteLoop fuel child none
          (nblPush ⟨.group cap cnt subId subPtr, if (i : Int) + 1 ≥ cnt then -1 else i + 1⟩ stk)
          freed = .ok freed' := by
      intro d cap cnt subId subPtr i hw hi hfuel
      obtain ⟨c, hc, hcw⟩ := hw.exists_entered hi
      have hnext := cost_backlogged cap cnt i subId subPtr
      have hpush := stackCost_nblPush
        ⟨.group cap cnt subId subPtr, if (i : Int) + 1 ≥ cnt then -1 else i + 1⟩ stk
      have hcost := costList_drop hc
      obtain ⟨freed', hrun⟩ := ih c none _ freed (deleteOk_nblPush (i := i) hw hstk)
        (Or.inl ⟨rfl, hcw, by omega⟩)
      exact ⟨c, freed', hc, hrun⟩
    rcases hnode with ⟨rfl, hnode, hfuel⟩ | ⟨nbl, rfl, rfl, ⟨d, cap, cnt, subId, subPtr, hn, hw, hidx⟩, hfuel⟩
    · cases node with
      | null => exact hback freed (by simp only [MibNode.cost] at hfuel; omega)
      | inst cb => exact hback _ (by simp only [MibNode.cost] at hfuel; omega)
      | group cap cnt subId subPtr =>
        obtain ⟨d, hw⟩ := hnode.resolve_left (by simp)
        simp only [MibNode.cost] at hfuel
        obtain ⟨c, freed', hc, hrun⟩ :=
          hdown d cap cnt subId subPtr 0 hw (Or.inr rfl) (by simp; omega)
        refine ⟨freed', ?_⟩
        rw [mibTreeDeleteLoop]
        simpa [hc] using hrun
    · rw [hn] at hw
      simp only [NodeBacklog.cost, hn] at hfuel
      rcases hidx with hidx | ⟨j, hidx, hj⟩
      · simp only [hidx, if_true] at hfuel
        simp only [mibTreeDeleteLoop, hn, Option.map_some, Option.getD_some, hidx, if_true]
        exact hback _ (by omega)
      · have hne : nbl.nIdx ≠ -1 := by omega
        simp only [hidx, show ¬ ((j : Int) = -1) by omega, if_false, Int.toNat_natCast] at hfuel
        simp only [mibTreeDeleteLoop, hn, Option.map_some, Option.getD_some, hidx,
          show ¬ ((j : Int) = -1) by omega, if_false, Int.toNat_natCast]
        obtain ⟨c, freed', hc, hrun⟩ := hdown d cap cnt subId subPtr j hw (Or.inl hj) hfuel
        rw [hc]
        exact ⟨freed', hrun⟩

/-! ### Runs -/

/-- The root is a group, well formed for the longest OID. -/
def RootOk (root : MibNode) : Prop :=
  WellFormed mibOidMaxLen root ∧ ∃ cap cnt subId subPtr, root = .group cap cnt subId subPtr

lemma rootOk_mibInit : RootOk mibInit := ⟨wellFormed_groupNodeNew 63, _, _, _, _, rfl⟩

lemma RootOk.reg {root : MibNode} (h : RootOk root) (oid : Oid) (callback : Int) :
    ∃ root' code, mibNodeReg root oid callback = .ok (root', code) ∧ RootOk root' := by
  simp only [mibNodeReg]
  split_ifs with h0 hmax
  · exact ⟨root, -1, rfl, h⟩
  · exact ⟨root, -1, rfl, h⟩
  · obtain ⟨hw, hnf⟩ := h.1.instanceInsert callback oid (by omega)
    obtain ⟨cap, cnt, subId, subPtr, rfl⟩ := h.2
    have hroot : RootOk (mibTreeInstanceInsert callback (.group cap cnt subId subPtr) oid).1 := by
      refine ⟨hw, ?_⟩
      cases oid with
      | nil => exact ⟨_, _, _, _, rfl⟩
      | cons x xs =>
        simp only [mibTreeInstanceInsert]
        split_ifs <;> exact ⟨_, _, _, _, rfl⟩
    rcases hins : mibTreeInstanceInsert callback (.group cap cnt subId subPtr) oid with ⟨root', r⟩
    rw [hins] at hroot hnf
    cases r with
    | inserted => exact ⟨root', 0, rfl, hroot⟩
    | badTraversal => exact ⟨root', -1, rfl, hroot⟩
    | fault => exact absurd rfl hnf

lemma RootOk.unreg {root : MibNode} (h : RootOk root) (oid : Oid) :
    ∃ root', mibNodeUnreg root oid = .ok root' ∧ RootOk root' := by
  obtain ⟨hat, ⟨e, hchild⟩, hpos⟩ := nodeSearch_pair oid h.1 (.here root) (Or.inl rfl) _ rfl
  change At root (mibTreeNodeSearch root oid).2.childPos _ at hat
  simp only [mibNodeUnreg, mibTreeDelete]
  rcases hsearch : mibTreeNodeSearch root oid with ⟨node, pair⟩
  have hpair : pair = (mibTreeNodeSearchLoop [] [] 0 root oid).2 := by
    rw [← mibTreeNodeSearch, hsearch]
  rw [hsearch] at hat
  rw [← hpair] at hchild hpos hat
  have hdel : ∃ root', mibTreeDeletePair root pair = .ok root' ∧ RootOk root' := by
    simp only [mibTreeDeletePair]
    split_ifs with hroot
    · exact ⟨root, rfl, h⟩
    · obtain ⟨freed, hfreed⟩ := deleteLoop_returns pair.child.cost pair.child none [] []
        (by simp) (Or.inl ⟨rfl, Or.inr ⟨e, hchild⟩, by simp [stackCost]⟩)
      rw [hfreed]
      refine ⟨_, rfl, ?_⟩
      rw [hpos.resolve_left hroot] at hat
      obtain ⟨cap, cnt, subId, subPtr, hparent, hi⟩ := hat.of_snoc
      refine ⟨h.1.updateAt hparent fun d hd => hd.shrink hi, ?_⟩
      obtain ⟨_, _, _, _, rfl⟩ := h.2
      cases pair.parent with
      | nil =>
        simp only [MibNode.updateAt, groupNodeShrink]
        split_ifs <;> exact ⟨_, _, _, _, rfl⟩
      | cons j pos => exact ⟨_, _, _, _, rfl⟩
  cases node with
  | null => exact ⟨root, rfl, h⟩
  | group => exact hdel
  | inst => exact hdel

lemma RootOk.apply {root : MibNode} (h : RootOk root) (op : TreeOp) :
    ∃ root', op.apply root = .ok root' ∧ RootOk root' := by
  cases op with
  | reg oid callback =>
    obtain ⟨root', code, heq, hroot⟩ := h.reg oid callback
    exact ⟨root', by simp [TreeOp.apply, heq], hroot⟩
  | unreg oid => exact h.unreg oid

/-- Every sequence of calls returns and leads to a well-formed tree. -/
theorem runTree_rootOk {root : MibNode} (h : RootOk root) (ops : List TreeOp) :
    ∃ root', runTree root ops = .ok root' ∧ RootOk root' := by
  induction ops generalizing root with
  | nil => exact ⟨root, rfl, h⟩
  | cons op ops ih =>
    obtain ⟨root', heq, hroot⟩ := h.apply op
    obtain ⟨root'', heq', hroot'⟩ := ih hroot
    exact ⟨root'', by simp [runTree, heq, heq'], hroot'⟩

lemma Reachable.rootOk {root : MibNode} (h : Reachable root) : RootOk root := by
  obtain ⟨ops, hops⟩ := h
  obtain ⟨root', heq, hroot⟩ := runTree_rootOk rootOk_mibInit ops
  rw [hops] at heq
  exact Outcome.ok.inj heq ▸ hroot

/-! ### What the invariant says of the nodes of a tree -/

namespace MibNode

lemma WellFormed.occurs {d : Nat} {root node : MibNode} {path : Oid} (h : WellFormed d root)
    (hocc : Occurs root path node) : path.length ≤ d ∧ WellFormed (d - path.length) node := by
  induction hocc generalizing d with
  | here node => simpa using h
  | @child cap cnt subId subPtr i k c path node hi hk hc _ ih =>
    obtain ⟨d, rfl⟩ := h.exists_eq_succ
    obtain ⟨hlen, hw⟩ := ih (h.child hi hc)
    simp only [List.length_cons]
    exact ⟨by omega, by rwa [show d + 1 - (path.length + 1) = d - path.length by omega]⟩

/-- Nothing sits below an instance, and nothing else at its OID. -/
lemma WellFormed.occurs_inst_unique {d : Nat} {root node : MibNode} {p t : Oid} {cb : Int}
    (h : WellFormed d root) (hp : Occurs root p (.inst cb)) (hq : Occurs root (p ++ t) node) :
    t = [] ∧ node = .inst cb := by
  generalize hn : MibNode.inst cb = n at hp
  induction hp generalizing d with
  | here n =>
    subst hn
    cases hq with
    | here => exact ⟨rfl, rfl⟩
  | @child cap cnt subId subPtr i k c p n hi hk hc _ ih =>
    obtain ⟨d, rfl⟩ := h.exists_eq_succ
    rw [List.cons_append] at hq
    cases hq with
    | @child _ _ _ _ j _ c' _ _ hj hk' hc' hq =>
      obtain rfl := (wellFormed_group.mp h).1.index_inj hi hj hk hk'
      obtain rfl : c = c' := Option.some.inj (hc.symm.trans hc')
      exact ih (h.child hi hc) hq hn

end MibNode

/-- The representation invariant holds after every sequence of registrations and
unregistrations: in every group the sub-identifiers in use ascend, their slots hold children, and
an empty group is raw; no node lies deeper than the longest OID; and no instance OID is a prefix
of another. -/
theorem runTree_representation (ops : List TreeOp) :
    ∃ root, runTree mibInit ops = .ok root ∧
      (∀ path node, Occurs root path node → path.length ≤ mibOidMaxLen ∧ node ≠ .null ∧
        ∀ cap cnt subId subPtr, node = .group cap cnt subId subPtr →
          cnt ≤ subId.length ∧ (subId.take cnt).Pairwise (· < ·) ∧
          (∀ i, i < cnt → ∃ c, subPtr[i]? = some c ∧ c ≠ .null) ∧
          (cnt = 0 → subId[0]? = some 0 ∧ subPtr[0]? = some .null) ∧
          (isRawGroup cnt subId = true ↔ cnt = 0)) ∧
      (∀ p q cb cb', Occurs root p (.inst cb) → Occurs root q (.inst cb') → p <+: q →
        p = q ∧ cb = cb') := by
  obtain ⟨root, hrun, hroot⟩ := runTree_rootOk rootOk_mibInit ops
  refine ⟨root, hrun, fun path node hocc => ?_, fun p q cb cb' hp hq hpq => ?_⟩
  · obtain ⟨hlen, hw⟩ := hroot.1.occurs hocc
    refine ⟨hlen, hw.ne_null, ?_⟩
    rintro cap cnt subId subPtr rfl
    obtain ⟨d, hd⟩ := hw.exists_eq_succ
    rw [hd] at hw
    obtain ⟨hshape, _⟩ := wellFormed_group.mp hw
    refine ⟨hshape.cnt_le_subId, hshape.ascending, fun i hi => ?_, hshape.raw,
      hshape.isRawGroup_iff⟩
    obtain ⟨_, c, _, hc⟩ := hshape.exists_sub hi
    exact ⟨c, hc, (hw.child hi hc).ne_null⟩
  · obtain ⟨t, rfl⟩ := hpq
    obtain ⟨rfl, hcb⟩ := hroot.1.occurs_inst_unique hp hq
    exact ⟨by simp, (MibNode.inst.inj hcb).symm⟩

end SmartSnmp
