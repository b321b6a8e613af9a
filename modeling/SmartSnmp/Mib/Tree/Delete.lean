import SmartSnmp.Mib.Tree.Registry

/-!
# What the deletion of a subtree visits

The walk of `__mib_tree_delete` with the places of its nodes. It deletes the nodes of a subtree in
post-order, each at its own place, and then takes the slot of the subtree out of the parent.
-/

namespace SmartSnmp

open ArrayShift PrefixOrder MibNode

/-! ### The walk -/

/-- A `node_backlog` whose node sits at `pos`. -/
structure PlacedBacklog extends NodeBacklog where
  pos : List Nat

/-- `nbl_push`. -/
def placedPush (nbl : PlacedBacklog) (stk : List PlacedBacklog) : List PlacedBacklog :=
  if stk.length < mibOidMaxLen then nbl :: stk else stk

/-- A node that is deleted, with its place. -/
abbrev Deletion := List Nat × MibNode

/-- The loop of `__mib_tree_delete` at the node at `pos`. -/
def mibTreeDeleteWalk : Nat → List Nat → MibNode → Option PlacedBacklog → List PlacedBacklog →
    List Deletion → Outcome (List Deletion)
  | 0, _, _, _, _, _ => .fuel
  | fuel + 1, pos, node, pNbl, stk, deleted =>
    let backtrack (deleted : List Deletion) : Outcome (List Deletion) :=
      match stk with
      | [] => .ok deleted
      | nbl :: stk' => mibTreeDeleteWalk fuel nbl.pos nbl.node (some nbl) stk' deleted
    match node with
    | .null => backtrack deleted
    | .inst cb => backtrack (deleted ++ [(pos, .inst cb)])
    | .group cap cnt subId subPtr =>
      let i := (pNbl.map fun nbl => nbl.nIdx).getD 0
      if i = -1 then backtrack (deleted ++ [(pos, .group cap cnt subId subPtr)])
      else
        let nbl := ⟨⟨.group cap cnt subId subPtr, if i + 1 ≥ cnt then -1 else i + 1⟩, pos⟩
        match subPtr[i.toNat]? with
        | some child =>
          mibTreeDeleteWalk fuel (pos ++ [i.toNat]) child none (placedPush nbl stk) deleted
        | none => .crash

/-- The callbacks that `mib_instance_node_delete` releases. -/
def releasedCallbacks (deleted : List Deletion) : List Int :=
  deleted.filterMap fun e => match e.2 with
    | .inst cb => some cb
    | _ => none

lemma releasedCallbacks_append (as bs : List Deletion) :
    releasedCallbacks (as ++ bs) = releasedCallbacks as ++ releasedCallbacks bs := List.filterMap_append

lemma map_placedPush (nbl : PlacedBacklog) (stk : List PlacedBacklog) :
    (placedPush nbl stk).map (·.toNodeBacklog) = nblPush nbl.toNodeBacklog (stk.map (·.toNodeBacklog)) := by
  simp only [placedPush, nblPush, List.length_map]
  split_ifs <;> rfl

section Backtracking

variable {fuel : Nat} {pos : List Nat} {pNbl : Option PlacedBacklog} {stk : List PlacedBacklog}
  {deleted : List Deletion}

/-- Backtracking to the entry on top of the stack, or the end of the walk. -/
def walkBack (fuel : Nat) (stk : List PlacedBacklog) (deleted : List Deletion) :
    Outcome (List Deletion) :=
  match stk with
  | [] => .ok deleted
  | nbl :: stk' => mibTreeDeleteWalk fuel nbl.pos nbl.node (some nbl) stk' deleted

lemma deleteWalk_null :
    mibTreeDeleteWalk (fuel + 1) pos .null pNbl stk deleted = walkBack fuel stk deleted := rfl

lemma deleteWalk_inst (cb : Int) : mibTreeDeleteWalk (fuel + 1) pos (.inst cb) pNbl stk deleted =
    walkBack fuel stk (deleted ++ [(pos, .inst cb)]) := rfl

lemma deleteWalk_group (cap cnt : Nat) (subId : List UInt32) (subPtr : List MibNode) {i : Int}
    (hi : (pNbl.map fun nbl => nbl.nIdx).getD 0 = i) :
    mibTreeDeleteWalk (fuel + 1) pos (.group cap cnt subId subPtr) pNbl stk deleted =
      if i = -1 then walkBack fuel stk (deleted ++ [(pos, .group cap cnt subId subPtr)])
      else
        match subPtr[i.toNat]? with
        | some child => mibTreeDeleteWalk fuel (pos ++ [i.toNat]) child none
            (placedPush ⟨⟨.group cap cnt subId subPtr, if i + 1 ≥ cnt then -1 else i + 1⟩, pos⟩ stk)
            deleted
        | none => .crash := by
  subst hi
  rfl

/-- A group that is not taken up is entered at its first slot. -/
lemma deleteWalk_none (cap cnt : Nat) (subId : List UInt32) (subPtr : List MibNode) :
    mibTreeDeleteWalk fuel pos (.group cap cnt subId subPtr) none stk deleted =
      mibTreeDeleteWalk fuel pos (.group cap cnt subId subPtr)
        (some ⟨⟨.group cap cnt subId subPtr, 0⟩, pos⟩) stk deleted := by
  cases fuel <;> rfl

end Backtracking

/-- Without the places it is the loop of the model. -/
lemma deleteLoop_eq_walk (fuel : Nat) (pos : List Nat) (node : MibNode) (pNbl : Option PlacedBacklog)
    (stk : List PlacedBacklog) (deleted : List Deletion) :
    mibTreeDeleteLoop fuel node (pNbl.map (·.toNodeBacklog)) (stk.map (·.toNodeBacklog))
        (deleted.map Prod.snd) =
      (mibTreeDeleteWalk fuel pos node pNbl stk deleted).map (List.map Prod.snd) := by
  induction fuel generalizing pos node pNbl stk deleted with
  | zero => rfl
  | succ fuel ih =>
    -- what is on the stack is walked over in the same way
    have hback : ∀ deleted : List Deletion,
        mibTreeDeleteLoop (fuel + 1) .null none (stk.map (·.toNodeBacklog)) (deleted.map Prod.snd) =
          (walkBack fuel stk deleted).map (List.map Prod.snd) := by
      intro deleted
      cases stk with
      | nil => rfl
      | cons nbl stk' => exact ih nbl.pos nbl.node (some nbl) stk' deleted
    cases node with
    | null => exact hback deleted
    | inst cb =>
      rw [deleteWalk_inst, ← hback, List.map_append]
      rfl
    | group cap cnt subId subPtr =>
      obtain ⟨i, hi⟩ : ∃ i, (pNbl.map fun nbl => nbl.nIdx).getD 0 = i := ⟨_, rfl⟩
      have hloop : ((pNbl.map (·.toNodeBacklog)).map NodeBacklog.nIdx).getD 0 = i := by
        rw [← hi]
        cases pNbl <;> rfl
      rw [deleteWalk_group cap cnt subId subPtr hi, mibTreeDeleteLoop]
      simp only [hloop]
      by_cases hend : i = -1
      · rw [if_pos hend, if_pos hend, ← hback, List.map_append]
        rfl
      · rw [if_neg hend, if_neg hend]
        cases subPtr[i.toNat]? with
        | none => rfl
        | some child =>
          have hchild := ih (pos ++ [i.toNat]) child none
            (placedPush ⟨⟨.group cap cnt subId subPtr, if i + 1 ≥ cnt then -1 else i + 1⟩, pos⟩ stk) deleted
          rw [map_placedPush] at hchild
          exact hchild

/-! ### Post-order -/

mutual

/-- The nodes below the node at `pos`, a group behind its children. -/
def postOrder (pos : List Nat) : MibNode → List Deletion
  | .null => []
  | .inst cb => [(pos, .inst cb)]
  | .group cap cnt subId subPtr =>
    postOrderFrom pos 0 subPtr cnt ++ [(pos, .group cap cnt subId subPtr)]

/-- The nodes below the next `n` slots of the group at `pos`, from slot `i`. -/
def postOrderFrom (pos : List Nat) (i : Nat) : List MibNode → Nat → List Deletion
  | c :: cs, n + 1 => postOrder (pos ++ [i]) c ++ postOrderFrom pos (i + 1) cs n
  | _, _ => []

end

lemma postOrderFrom_zero (pos : List Nat) (i : Nat) (cs : List MibNode) : postOrderFrom pos i cs 0 = [] := by
  cases cs <;> rfl

lemma mem_postOrderFrom {pos : List Nat} {i n : Nat} {cs : List MibNode} {e : Deletion} :
    e ∈ postOrderFrom pos i cs n ↔
      ∃ j c, j < n ∧ cs[j]? = some c ∧ e ∈ postOrder (pos ++ [i + j]) c := by
  induction cs generalizing i n with
  | nil => cases n <;> simp [postOrderFrom]
  | cons c cs ih =>
    cases n with
    | zero => simp [postOrderFrom]
    | succ n =>
      rw [postOrderFrom, List.mem_append, ih]
      constructor
      · rintro (h | ⟨j, c', hj, hc', h⟩)
        · exact ⟨0, c, Nat.succ_pos n, rfl, h⟩
        · exact ⟨j + 1, c', by omega, hc', by rwa [show i + (j + 1) = i + 1 + j by omega]⟩
      · rintro ⟨j, c', hj, hc', h⟩
        cases j with
        | zero =>
          obtain rfl : c = c' := by simpa using hc'
          exact .inl h
        | succ j => exact .inr ⟨j, c', by omega, hc', by rwa [show i + 1 + j = i + (j + 1) by omega]⟩

lemma drop_eq_cons {cs : List MibNode} {i : Nat} {c : MibNode} (hc : cs[i]? = some c) :
    cs.drop i = c :: cs.drop (i + 1) := by
  obtain ⟨hi, rfl⟩ := List.getElem?_eq_some_iff.mp hc
  exact List.drop_eq_getElem_cons hi

section PostOrder

variable {d : Nat} {node : MibNode}

/-- Exactly the nodes below are in post-order, at their places. -/
lemma mem_postOrder (h : WellFormed d node) (pos p : List Nat) (n : MibNode) :
    (p, n) ∈ postOrder pos node ↔ ∃ rel, p = pos ++ rel ∧ At node rel n := by
  induction d using Nat.strong_induction_on generalizing node pos with
  | _ d ih =>
    cases node with
    | null => exact absurd h (not_wellFormed_null _)
    | inst cb =>
      rw [postOrder, List.mem_singleton, Prod.mk.injEq]
      constructor
      · rintro ⟨rfl, rfl⟩
        exact ⟨[], (List.append_nil p).symm, .here _⟩
      · rintro ⟨rel, rfl, hat⟩
        cases hat
        exact ⟨List.append_nil pos, rfl⟩
    | group cap cnt subId subPtr =>
      obtain ⟨d, rfl⟩ := h.exists_eq_succ
      rw [postOrder, List.mem_append, mem_postOrderFrom, List.mem_singleton, Prod.mk.injEq]
      constructor
      · rintro (⟨j, c, hj, hc, hmem⟩ | ⟨rfl, rfl⟩)
        · obtain ⟨rel, rfl, hat⟩ := (ih d (Nat.lt_succ_self d) (h.child hj hc) _).mp hmem
          exact ⟨j :: rel, by simp, .child hj hc hat⟩
        · exact ⟨[], (List.append_nil p).symm, .here _⟩
      · rintro ⟨rel, rfl, hat⟩
        cases hat with
        | here => exact .inr ⟨List.append_nil pos, rfl⟩
        | @child _ _ _ _ j c rel _ hj hc hat =>
          refine .inl ⟨j, c, hj, hc, (ih d (Nat.lt_succ_self d) (h.child hj hc) _).mpr ⟨rel, ?_, hat⟩⟩
          simp

lemma isPrefix_of_mem_postOrder (h : WellFormed d node) {pos : List Nat} {e : Deletion}
    (he : e ∈ postOrder pos node) : pos <+: e.1 := by
  obtain ⟨rel, hrel, -⟩ := (mem_postOrder h pos e.1 e.2).mp he
  exact ⟨rel, hrel.symm⟩

/-- What lies below different slots leads to nothing in common. -/
lemma pairwise_postOrderFrom {pos : List Nat} {i n : Nat} {cs : List MibNode}
    (hwf : ∀ j c, j < n → cs[j]? = some c → WellFormed d c)
    (hcs : ∀ j c, j < n → cs[j]? = some c →
      (postOrder (pos ++ [i + j]) c).Pairwise fun a b => ¬ a.1 <+: b.1) :
    (postOrderFrom pos i cs n).Pairwise fun a b => ¬ a.1 <+: b.1 := by
  induction cs generalizing i n with
  | nil => cases n <;> exact .nil
  | cons c cs ih =>
    cases n with
    | zero => exact .nil
    | succ n =>
      have hc := hwf 0 c (Nat.succ_pos n) rfl
      rw [postOrderFrom, List.pairwise_append]
      refine ⟨hcs 0 c (Nat.succ_pos n) rfl, ih (fun j c' hj hc' => hwf (j + 1) c' (by omega) hc') ?_, ?_⟩
      · intro j c' hj hc'
        rw [show i + 1 + j = i + (j + 1) by omega]
        exact hcs (j + 1) c' (by omega) hc'
      · intro a ha b hb hab
        obtain ⟨j, c', hj, hc', hb⟩ := mem_postOrderFrom.mp hb
        have ha' := (isPrefix_of_mem_postOrder hc ha).trans hab
        have hb' := isPrefix_of_mem_postOrder (hwf (j + 1) c' (by omega) hc') hb
        have heq := (List.prefix_of_prefix_length_le ha' hb' (by simp)).eq_of_length (by simp)
        have hslot : i = i + 1 + j := by simpa using heq
        omega

/-- A node that comes earlier is none that leads to a later one. -/
lemma pairwise_postOrder (h : WellFormed d node) (pos : List Nat) :
    (postOrder pos node).Pairwise fun a b => ¬ a.1 <+: b.1 := by
  induction d using Nat.strong_induction_on generalizing node pos with
  | _ d ih =>
    cases node with
    | null => exact absurd h (not_wellFormed_null _)
    | inst cb => exact List.pairwise_singleton _ _
    | group cap cnt subId subPtr =>
      obtain ⟨d, rfl⟩ := h.exists_eq_succ
      have hwf : ∀ j c, j < cnt → subPtr[j]? = some c → WellFormed d c := fun j c hj hc => h.child hj hc
      rw [postOrder, List.pairwise_append]
      refine ⟨pairwise_postOrderFrom hwf fun j c hj hc => ih d (Nat.lt_succ_self d) (hwf j c hj hc) _,
        List.pairwise_singleton _ _, ?_⟩
      intro a ha b hb hab
      obtain ⟨j, c, hj, hc, ha⟩ := mem_postOrderFrom.mp ha
      have hlen := ((isPrefix_of_mem_postOrder (hwf j c hj hc) ha).trans hab).length_le
      rw [List.mem_singleton.mp hb, List.length_append, List.length_singleton] at hlen
      exact absurd hlen (Nat.not_succ_le_self _)

lemma released_postOrderFrom {pos : List Nat} {i n : Nat} {cs : List MibNode} {ks : List UInt32}
    (hn : n ≤ ks.length) (hcs : ∀ j c, j < n → cs[j]? = some c →
      releasedCallbacks (postOrder (pos ++ [i + j]) c) = c.leaves.map Prod.snd) :
    releasedCallbacks (postOrderFrom pos i cs n) = (leavesList cs n ks).map Prod.snd := by
  induction cs generalizing i n ks with
  | nil => cases n <;> rfl
  | cons c cs ih =>
    cases n with
    | zero => rfl
    | succ n =>
      obtain ⟨k, ks, rfl⟩ := List.exists_cons_of_length_pos (Nat.lt_of_lt_of_le (Nat.succ_pos n) hn)
      have hrest := ih (i := i + 1) (Nat.le_of_succ_le_succ hn) fun j c' hj hc' => by
        rw [show i + 1 + j = i + (j + 1) by omega]
        exact hcs (j + 1) c' (by omega) hc'
      have hc : releasedCallbacks (postOrder (pos ++ [i]) c) = c.leaves.map Prod.snd :=
        hcs 0 c (Nat.succ_pos n) rfl
      rw [postOrderFrom, leavesList, releasedCallbacks_append, hrest, hc, List.map_append, under,
        List.map_map]
      rfl

/-- The callbacks that are released are those of the instances below. -/
lemma released_postOrder (h : WellFormed d node) (pos : List Nat) :
    releasedCallbacks (postOrder pos node) = node.leaves.map Prod.snd := by
  induction d using Nat.strong_induction_on generalizing node pos with
  | _ d ih =>
    cases node with
    | null => exact absurd h (not_wellFormed_null _)
    | inst cb => rfl
    | group cap cnt subId subPtr =>
      obtain ⟨d, rfl⟩ := h.exists_eq_succ
      have hall := released_postOrderFrom (wellFormed_group.mp h).1.cnt_le_subId
        fun j c hj hc => ih d (Nat.lt_succ_self d) (h.child hj hc) (pos ++ [0 + j])
      rw [postOrder, releasedCallbacks_append, leaves, ← hall]
      exact List.append_nil _

end PostOrder

/-! ### What the walk deletes -/

/-- The `n_idx` of a group whose first `i` slots are done. -/
def nextIdx (cnt i : Nat) : Int := if cnt ≤ i then -1 else i

lemma nextIdx_succ (cnt i : Nat) :
    (if (i : Int) + 1 ≥ cnt then -1 else (i : Int) + 1) = nextIdx cnt (i + 1) := by
  rw [nextIdx]
  split_ifs <;> omega

section Walk

variable {d : Nat} {node : MibNode}

/-- Some number of iterations, at most `bound`, leads from a state of the walk to backtracking with the
given nodes deleted. -/
def WalksTo (bound : Nat) (pos : List Nat) (node : MibNode) (pNbl : Option PlacedBacklog)
    (stk : List PlacedBacklog) (before after : List Deletion) : Prop :=
  ∃ k ≤ bound, ∀ fuel, mibTreeDeleteWalk (k + fuel) pos node pNbl stk before = walkBack fuel stk after

/-- One iteration at a slot in use: the child is walked over, and the group is taken up again. -/
lemma WalksTo.child {bound bound' cap cnt i : Nat} {subId : List UInt32} {subPtr : List MibNode}
    {c : MibNode} {pos : List Nat} (pNbl : Option PlacedBacklog) {stk : List PlacedBacklog}
    {before between after : List Deletion} (hidx : (pNbl.map fun nbl => nbl.nIdx).getD 0 = (i : Int))
    (hc : subPtr[i]? = some c) (hstk : stk.length < mibOidMaxLen)
    (hchild : WalksTo bound (pos ++ [i]) c none
      (⟨⟨.group cap cnt subId subPtr, nextIdx cnt (i + 1)⟩, pos⟩ :: stk) before between)
    (hrest : WalksTo bound' pos (.group cap cnt subId subPtr)
      (some ⟨⟨.group cap cnt subId subPtr, nextIdx cnt (i + 1)⟩, pos⟩) stk between after) :
    WalksTo (1 + bound + bound') pos (.group cap cnt subId subPtr) pNbl stk before after := by
  obtain ⟨k, hk, hchild⟩ := hchild
  obtain ⟨k', hk', hrest⟩ := hrest
  refine ⟨1 + k + k', by omega, fun fuel => ?_⟩
  rw [show 1 + k + k' + fuel = (k + (k' + fuel)) + 1 by omega, deleteWalk_group cap cnt subId subPtr hidx,
    if_neg (by omega), Int.toNat_natCast, hc, nextIdx_succ, placedPush, if_pos hstk]
  exact (hchild (k' + fuel)).trans (hrest fuel)

/-- The slots of a group from `i` on, the group being taken up with its next slot. -/
lemma walksTo_slots {cap cnt : Nat} {subId : List UInt32} {subPtr : List MibNode}
    (hshape : GroupShape cap cnt subId subPtr) (pos : List Nat) {stk : List PlacedBacklog}
    (hstk : stk.length < mibOidMaxLen)
    (hkids : ∀ i c nbl before, i < cnt → subPtr[i]? = some c →
      WalksTo c.cost (pos ++ [i]) c none (nbl :: stk) before (before ++ postOrder (pos ++ [i]) c))
    (n i : Nat) (before : List Deletion) (hi : i + n = cnt) :
    WalksTo (costList (subPtr.drop i) + 1) pos (.group cap cnt subId subPtr)
      (some ⟨⟨.group cap cnt subId subPtr, nextIdx cnt i⟩, pos⟩) stk before
      (before ++ postOrderFrom pos i (subPtr.drop i) n ++ [(pos, .group cap cnt subId subPtr)]) := by
  induction n generalizing i before with
  | zero =>
    have hend : nextIdx cnt i = -1 := if_pos (by omega)
    refine ⟨1, by omega, fun fuel => ?_⟩
    rw [Nat.add_comm, deleteWalk_group cap cnt subId subPtr rfl, postOrderFrom_zero, List.append_nil]
    exact if_pos hend
  | succ n ih =>
    obtain ⟨_, c, _, hc⟩ := hshape.exists_sub (i := i) (by omega)
    have hslot : nextIdx cnt i = i := if_neg (by omega)
    have hwalk := WalksTo.child (some ⟨⟨.group cap cnt subId subPtr, nextIdx cnt i⟩, pos⟩) hslot hc hstk
      (hkids i c _ before (by omega) hc) (ih (i + 1) _ (by omega))
    rw [costList_drop hc, drop_eq_cons hc, postOrderFrom]
    simpa only [List.append_assoc, Nat.add_assoc] using hwalk

/-- The walk over a node deletes what is below it in post-order, if the stack has room for its levels. -/
lemma walksTo_postOrder (h : WellFormed d node) (pos : List Nat) (stk : List PlacedBacklog)
    (before : List Deletion) (hstk : stk.length + d ≤ mibOidMaxLen) :
    WalksTo node.cost pos node none stk before (before ++ postOrder pos node) := by
  induction d using Nat.strong_induction_on generalizing node pos stk before with
  | _ d ih =>
    cases node with
    | null => exact absurd h (not_wellFormed_null _)
    | inst cb => exact ⟨1, le_refl 1, fun fuel => by rw [Nat.add_comm, deleteWalk_inst, postOrder]⟩
    | group cap cnt subId subPtr =>
      obtain ⟨d, rfl⟩ := h.exists_eq_succ
      have hshape := (wellFormed_group.mp h).1
      have hroom : stk.length < mibOidMaxLen := by omega
      have hall := walksTo_slots hshape pos hroom (fun i c nbl before hi hc =>
        ih d (Nat.lt_succ_self d) (h.child hi hc) _ (nbl :: stk) before
          (by rw [List.length_cons]; omega)) cnt 0 before (Nat.zero_add cnt)
      rw [List.drop_zero, List.append_assoc] at hall
      by_cases hempty : cnt = 0
      · -- the walk goes to the first slot, which is `NULL`, and comes back
        subst hempty
        have hnull : WalksTo 1 (pos ++ [0]) .null none
            (⟨⟨.group cap 0 subId subPtr, nextIdx 0 1⟩, pos⟩ :: stk) before before :=
          ⟨1, le_refl 1, fun fuel => by rw [Nat.add_comm, deleteWalk_null]⟩
        have hwalk := WalksTo.child none rfl (hshape.raw rfl).2 hroom hnull hall
        rwa [show 1 + 1 + (costList subPtr + 1) = costList subPtr + 3 by omega] at hwalk
      · obtain ⟨k, hk, hrun⟩ := hall
        refine ⟨k, hk.trans (Nat.add_le_add_left (by decide) _), fun fuel => ?_⟩
        have hzero : nextIdx cnt 0 = 0 := if_neg (by omega)
        rw [hzero] at hrun
        exact (deleteWalk_none cap cnt subId subPtr).trans (hrun fuel)

end Walk

/-! ### The slot of the child -/

section Frame

variable {f : MibNode → MibNode} {root node : MibNode} {pos : List Nat}

lemma at_updateAt (h : At root pos node) : At (root.updateAt f pos) pos (f node) := by
  induction h with
  | here node => exact .here _
  | @child cap cnt subId subPtr i c pos node hi hc _ ih =>
    simp only [MibNode.updateAt, List.getD_eq_getElem?_getD, hc, Option.getD_some]
    refine .child hi ?_ ih
    rw [List.getElem?_set_self (List.getElem?_eq_some_iff.mp hc).1]

/-- Writing through the pointer to a node changes no node that is not above or below it. -/
lemma at_updateAt_iff (h : At root pos node) {q : List Nat} (n : MibNode) (hbelow : ¬ pos <+: q)
    (habove : ¬ q <+: pos) : At (root.updateAt f pos) q n ↔ At root q n := by
  induction h generalizing q with
  | here node => exact absurd (List.nil_prefix) hbelow
  | @child cap cnt subId subPtr i c pos node hi hc _ ih =>
    cases q with
    | nil => exact absurd (List.nil_prefix) habove
    | cons j q =>
      simp only [MibNode.updateAt, List.getD_eq_getElem?_getD, hc, Option.getD_some]
      have hlt := (List.getElem?_eq_some_iff.mp hc).1
      by_cases hij : i = j
      · subst hij
        rw [List.cons_prefix_cons] at hbelow habove
        have hq := ih (fun h => hbelow ⟨rfl, h⟩) (fun h => habove ⟨rfl, h⟩)
        constructor
        · intro hat
          cases hat with
          | child hj hc' hat =>
            rw [List.getElem?_set_self hlt, Option.some.injEq] at hc'
            subst hc'
            exact .child hj hc (hq.mp hat)
        · intro hat
          cases hat with
          | child hj hc' hat =>
            obtain rfl := Option.some.inj (hc.symm.trans hc')
            exact .child hj (List.getElem?_set_self hlt) (hq.mpr hat)
      · constructor
        · intro hat
          cases hat with
          | child hj hc' hat =>
            rw [List.getElem?_set_ne hij] at hc'
            exact .child hj hc' hat
        · intro hat
          cases hat with
          | child hj hc' hat =>
            exact .child hj (by rwa [List.getElem?_set_ne hij]) hat

/-- A group above the node keeps everything but the pointer on the way to it. -/
lemma at_updateAt_above (h : At root pos node) {q : List Nat} {j cap cnt : Nat} {subId : List UInt32}
    {subPtr : List MibNode} (hq : q ++ [j] <+: pos) (hat : At root q (.group cap cnt subId subPtr)) :
    ∃ c, At (root.updateAt f pos) q (.group cap cnt subId (subPtr.set j c)) := by
  induction q generalizing root pos with
  | nil =>
    cases h with
    | here => exact absurd hq.length_le (by simp)
    | child hi hc h =>
      obtain ⟨rfl, -⟩ := List.cons_prefix_cons.mp hq
      cases hat
      exact ⟨_, .here _⟩
  | cons k q ih =>
    cases h with
    | here => exact absurd hq.length_le (by simp)
    | child hi hc h =>
      rw [List.cons_append, List.cons_prefix_cons] at hq
      obtain ⟨rfl, hq⟩ := hq
      cases hat with
      | child hk hc' hat =>
        obtain rfl := Option.some.inj (hc.symm.trans hc')
        obtain ⟨c, hat'⟩ := ih h hq hat
        simp only [MibNode.updateAt, List.getD_eq_getElem?_getD, hc, Option.getD_some]
        exact ⟨c, .child hk (List.getElem?_set_self (List.getElem?_eq_some_iff.mp hc).1) hat'⟩

end Frame

/-- What `group_node_shrink` leaves in the slots in use. -/
lemma groupNodeShrink_slots {cap cnt i : Nat} {subId : List UInt32} {subPtr : List MibNode}
    (hshape : GroupShape cap cnt subId subPtr) (hi : i < cnt) : ∃ subId' subPtr',
      groupNodeShrink i (.group cap cnt subId subPtr) = .group cap (cnt - 1) subId' subPtr' ∧
      subId'.take (cnt - 1) = (subId.take cnt).eraseIdx i ∧
      subPtr'.take (cnt - 1) = (subPtr.take cnt).eraseIdx i := by
  simp only [groupNodeShrink]
  by_cases hcnt : cnt > 1
  · rw [if_pos hcnt]
    exact ⟨_, _, rfl, take_shiftDown hi hshape.cnt_le_subId, take_shiftDown hi hshape.cnt_le_subPtr⟩
  · obtain rfl : cnt = 1 := by omega
    obtain rfl : i = 0 := by omega
    rw [if_neg hcnt]
    refine ⟨_, _, rfl, ?_, ?_⟩
    · cases subId <;> rfl
    · cases subPtr <;> rfl

/-! ### Deletion -/

/-- The nodes below the node at `pos` are deleted once each, a group after what is below it, and the
callbacks of the instances among them are released. -/
structure DeletesBelow (pos : List Nat) (node : MibNode) (deleted : List Deletion) : Prop where
  mem_iff : ∀ p n, (p, n) ∈ deleted ↔ ∃ rel, p = pos ++ rel ∧ At node rel n
  nodup : (deleted.map Prod.fst).Nodup
  childrenFirst : deleted.Pairwise fun a b => ¬ a.1 <+: b.1
  released : releasedCallbacks deleted = node.leaves.map Prod.snd

/-- The slot `i` of the group at `parent` is taken out of both of its arrays. Nothing else changes but the
value of the pointers that lead to the group. -/
structure TakesSlot (root root' : MibNode) (parent : List Nat) (i : Nat) : Prop where
  slots : ∃ cap cnt subId subPtr subId' subPtr', At root parent (.group cap cnt subId subPtr) ∧ i < cnt ∧
    At root' parent (.group cap (cnt - 1) subId' subPtr') ∧
    subId'.take (cnt - 1) = (subId.take cnt).eraseIdx i ∧
    subPtr'.take (cnt - 1) = (subPtr.take cnt).eraseIdx i
  above : ∀ q j cap cnt subId subPtr, q ++ [j] <+: parent → At root q (.group cap cnt subId subPtr) →
    ∃ c, At root' q (.group cap cnt subId (subPtr.set j c))
  frame : ∀ q n, ¬ parent <+: q → ¬ q <+: parent → (At root' q n ↔ At root q n)

lemma MibNode.WellFormed.deletesBelow {d : Nat} {node : MibNode} (h : WellFormed d node) (pos : List Nat) :
    DeletesBelow pos node (postOrder pos node) where
  mem_iff := mem_postOrder h pos
  nodup := by
    refine List.pairwise_map.mpr ((pairwise_postOrder h pos).imp fun hab heq => hab ?_)
    exact heq ▸ List.prefix_rfl
  childrenFirst := pairwise_postOrder h pos
  released := released_postOrder h pos

/-- A node of a well-formed tree is well formed, for as many levels as are left at its place. -/
lemma MibNode.WellFormed.of_at {root node : MibNode} {pos : List Nat} {d : Nat} (h : WellFormed d root)
    (hat : At root pos node) : WellFormed (d - pos.length) node := by
  induction hat generalizing d with
  | here node => exact h
  | @child cap cnt subId subPtr i c pos node hi hc _ ih =>
    obtain ⟨d, rfl⟩ := h.exists_eq_succ
    have hw := ih (h.child hi hc)
    rwa [List.length_cons, Nat.add_sub_add_right]

/-- `__mib_tree_delete` on a node of a reachable tree that is not the root. -/
theorem mibTreeDeletePair_deletesBelow {root : MibNode} (hreach : Reachable root) {parent : List Nat}
    {i : Nat} {node : MibNode} (hat : At root (parent ++ [i]) node) : ∃ deleted root',
      (∀ fuel ≥ node.cost, mibTreeDeleteWalk fuel (parent ++ [i]) node none [] [] = .ok deleted) ∧
      DeletesBelow (parent ++ [i]) node deleted ∧
      mibTreeDeleteLoop node.cost node none [] [] = .ok (deleted.map Prod.snd) ∧
      mibTreeDeletePair root ⟨parent, parent ++ [i], node, i⟩ = .ok root' ∧
      TakesSlot root root' parent i := by
  have hroot := hreach.rootOk.1
  have hw := hroot.of_at hat
  obtain ⟨k, hk, hrun⟩ := walksTo_postOrder hw (parent ++ [i]) [] [] (by simp)
  have hwalk : ∀ fuel ≥ node.cost, mibTreeDeleteWalk fuel (parent ++ [i]) node none [] [] =
      .ok (postOrder (parent ++ [i]) node) := by
    intro fuel hfuel
    rw [show fuel = k + (fuel - k) by omega]
    exact hrun _
  have hloop : mibTreeDeleteLoop node.cost node none [] [] =
      .ok ((postOrder (parent ++ [i]) node).map Prod.snd) := by
    have hplaced := deleteLoop_eq_walk node.cost (parent ++ [i]) node none [] []
    rw [hwalk _ (le_refl _)] at hplaced
    exact hplaced
  refine ⟨_, root.updateAt (groupNodeShrink i) parent, hwalk, hw.deletesBelow _, hloop, ?_, ?_⟩
  · rw [mibTreeDeletePair, if_neg (by simp), hloop]
  · obtain ⟨cap, cnt, subId, subPtr, hparent, hi⟩ := hat.of_snoc
    have hpw := hroot.of_at hparent
    obtain ⟨e, he⟩ := hpw.exists_eq_succ
    rw [he] at hpw
    obtain ⟨subId', subPtr', heq, hid, hptr⟩ := groupNodeShrink_slots (wellFormed_group.mp hpw).1 hi
    refine ⟨⟨cap, cnt, subId, subPtr, subId', subPtr', hparent, hi, ?_, hid, hptr⟩, ?_, ?_⟩
    · rw [← heq]
      exact at_updateAt hparent
    · exact fun q j _ _ _ _ hq hat => at_updateAt_above hparent hq hat
    · exact fun q n hbelow habove => at_updateAt_iff hparent n hbelow habove

/-- A tree with a group that holds an instance and a group left empty. -/
def partlyEmptied : MibNode :=
  .group 1 1 [1] [.group 4 2 [2, 3, 0, 0] [.inst 10, .group 1 0 [0] [.null], .null, .null]]

theorem mibTreeDeletePair_deletesBelow_partlyEmptied : ∃ deleted root',
    DeletesBelow [0] (.group 4 2 [2, 3, 0, 0] [.inst 10, .group 1 0 [0] [.null], .null, .null]) deleted ∧
      TakesSlot partlyEmptied root' [] 0 := by
  have hreach : Reachable partlyEmptied := ⟨[.reg [1, 2] 10, .reg [1, 3, 4] 11, .unreg [1, 3, 4]], rfl⟩
  have hat : At partlyEmptied ([] ++ [0])
      (.group 4 2 [2, 3, 0, 0] [.inst 10, .group 1 0 [0] [.null], .null, .null]) :=
    .child (by decide) rfl (.here _)
  obtain ⟨deleted, root', -, hdel, -, -, htakes⟩ := mibTreeDeletePair_deletesBelow hreach hat
  exact ⟨deleted, root', hdel, htakes⟩

end SmartSnmp
