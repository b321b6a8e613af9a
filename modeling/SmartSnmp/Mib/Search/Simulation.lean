import SmartSnmp.Mib.Tree.Leaves
import SmartSnmp.Mib.Search.Basic

/-!
# The GETNEXT search asks a list of probes

The loop of `mib_tree_search_next` is a depth-first walk with an explicit stack. What it still has
to do in a state is a list of probes: an instance, its handler and the suffix the handler is asked
for. `tryProbes` asks such a list one after another, and the loop does the same: a move into a
group or back out of it leaves the pending probes as they are.
-/

namespace SmartSnmp

open PrefixOrder MibNode NodeBacklog

/-- The OID of an instance, its handler, and the suffix it is asked for. -/
abbrev Probe := Oid × Int × Oid

/-- Ask the probes in order until one answers. -/
def tryProbes (handlers : Handlers) (view orig : Oid) :
    List Probe → OidSearchRes → Traced Call OidSearchRes
  | [], ret => pure (endOfMibView orig ret)
  | (p, callback, suffix) :: probes, ret => do
    match ← searchNextInstance handlers view p suffix callback ret with
    | .inl ret => tryProbes handlers view orig probes ret
    | .inr ret => pure ret

/-! ### Costs -/

lemma costList_drop_le (subPtr : List MibNode) (i : Nat) :
    costList (subPtr.drop i) ≤ costList subPtr := by
  induction subPtr generalizing i with
  | nil => simp
  | cons c cs ih =>
    cases i with
    | zero => simp
    | succ i =>
      have := ih i
      simp only [List.drop_succ_cons, costList]
      omega

/-! ### Pending probes -/

/-- What a backlog entry still has to visit. -/
def NodeBacklog.leaves (nbl : NodeBacklog) : List (Oid × Int) :=
  match nbl.node with
  | .group _ cnt subId subPtr => leavesFrom subPtr cnt subId nbl.nIdx.toNat
  | _ => []

/-- The entry on top of the stack belongs one level above the cursor. -/
def stackProbes : Oid → List NodeBacklog → List Probe
  | _, [] => []
  | path, nbl :: stk =>
    beneath path.dropLast (nbl.leaves.map first) ++ stackProbes path.dropLast stk

namespace SearchNextState

/-- The probes below the current node, relative to the cursor. -/
def nodeProbes (s : SearchNextState) : List Probe :=
  match s.pNbl with
  | some nbl => nbl.leaves.map first
  | none => if s.immediate then s.node.leaves.map first else probes s.rest s.node.leaves

/-- All that a state still asks. -/
def pending (s : SearchNextState) : List Probe :=
  beneath s.path s.nodeProbes ++ stackProbes s.path s.stk

/-- The state after a move into the child `c` under `k`, with `nbl` pushed. -/
def move (s : SearchNextState) (k : UInt32) (nbl : NodeBacklog) (c : MibNode) : SearchNextState :=
  { s with path := s.path ++ [k], pNbl := none, stk := nbl :: s.stk, node := c }

/-- The iterations a state still takes; one of them may only change the mode. -/
def cost (s : SearchNextState) : Nat :=
  (match s.pNbl with
    | some nbl => nbl.cost
    | none => s.node.cost + (!s.immediate).toNat) + stackCost s.stk

end SearchNextState

lemma MibNode.cost_pos (node : MibNode) : 0 < node.cost := by
  cases node <;> simp [MibNode.cost]

lemma NodeBacklog.cost_pos (nbl : NodeBacklog) : 0 < nbl.cost := by
  simp only [NodeBacklog.cost]
  cases nbl.node with
  | group cap cnt subId subPtr => split_ifs <;> simp
  | _ => simp

namespace SearchNextState

lemma stackCost_lt (s : SearchNextState) : stackCost s.stk < s.cost := by
  simp only [cost]
  cases s.pNbl with
  | some nbl => simpa using nbl.cost_pos
  | none => have := s.node.cost_pos; simp; omega

lemma cost_pos (s : SearchNextState) : 0 < s.cost := lt_of_le_of_lt (Nat.zero_le _) s.stackCost_lt

end SearchNextState

/-! ### The invariant of the loop -/

/-- An entry of the stack of the search, for a group with `d` levels below it: the next slot of
the group, or the mark for a group that is done. -/
def NodeBacklog.SearchOk (d : Nat) (nbl : NodeBacklog) : Prop :=
  nbl.node = .null ∨ ∃ (cap cnt : Nat) (subId : List UInt32) (subPtr : List MibNode) (j : Nat),
    nbl = ⟨.group cap cnt subId subPtr, j⟩ ∧ WellFormed d nbl.node ∧ j < cnt

/-- Each entry of the stack sits one level above the one pushed after it. -/
def StackOk : Nat → List NodeBacklog → Prop
  | _, [] => True
  | n, nbl :: stk => ∃ m, n = m + 1 ∧ nbl.SearchOk (mibOidMaxLen - m) ∧ StackOk m stk

lemma StackOk.length_le {n : Nat} {stk : List NodeBacklog} (h : StackOk n stk) : stk.length ≤ n := by
  induction stk generalizing n with
  | nil => simp
  | cons nbl stk ih =>
    obtain ⟨m, rfl, _, hstk⟩ := h
    simpa using ih hstk

structure SearchInv (s : SearchNextState) : Prop where
  depth : s.path.length ≤ mibOidMaxLen
  fresh : s.pNbl = none → s.node = .null ∨ WellFormed (mibOidMaxLen - s.path.length) s.node
  popped : ∀ nbl, s.pNbl = some nbl → s.node = nbl.node ∧ s.immediate = true ∧
    nbl.SearchOk (mibOidMaxLen - s.path.length)
  stack : StackOk s.path.length s.stk
  mode : s.immediate = false → s.node.isGroup → s.rest ≠ []

namespace SearchInv

variable {s : SearchNextState} {cap cnt i : Nat} {subId : List UInt32} {subPtr : List MibNode}

lemma nodeProbes_null (h : SearchInv s) (hn : s.node = .null) : s.nodeProbes = [] := by
  cases hp : s.pNbl with
  | none => cases himm : s.immediate <;> simp [SearchNextState.nodeProbes, hp, himm, hn, MibNode.leaves]
  | some nbl =>
    have heq := (h.popped nbl hp).1
    simp [SearchNextState.nodeProbes, hp, NodeBacklog.leaves, ← heq, hn]

lemma nodeProbes_inst {callback : Int} (h : SearchInv s) (hn : s.node = .inst callback) :
    s.nodeProbes = [([], callback, if s.immediate || s.rest.isEmpty then [] else s.rest)] := by
  cases hp : s.pNbl with
  | none =>
    cases himm : s.immediate with
    | true => simp [SearchNextState.nodeProbes, hp, himm, hn, MibNode.leaves, first]
    | false =>
      rw [SearchNextState.nodeProbes, hp]
      simp only [himm, hn, MibNode.leaves, probes_singleton]
      cases s.rest <;> simp
  | some nbl =>
    obtain ⟨heq, _, hok⟩ := h.popped nbl hp
    rcases hok with hnull | ⟨_, _, _, _, _, rfl, _⟩
    · simp [heq, hnull] at hn
    · simp [heq] at hn

/-- A group the search stands at is well formed, freshly reached or popped. -/
lemma wellFormed_group (h : SearchInv s) (hn : s.node = .group cap cnt subId subPtr) :
    WellFormed (mibOidMaxLen - s.path.length) s.node := by
  cases hp : s.pNbl with
  | none => exact (h.fresh hp).resolve_left (by simp [hn])
  | some nbl =>
    obtain ⟨heq, _, hok⟩ := h.popped nbl hp
    rcases hok with hnull | ⟨_, _, _, _, _, _, hw, _⟩
    · simp [heq, hnull] at hn
    · exact heq ▸ hw

/-- At a group there is room on the stack, since it is no higher than the cursor is deep. -/
lemma stk_length_lt (h : SearchInv s) (hn : s.node = .group cap cnt subId subPtr) :
    s.path.length < mibOidMaxLen ∧ s.stk.length < mibOidMaxLen := by
  have hw := h.wellFormed_group hn
  have hlen := h.stack.length_le
  have hpos : mibOidMaxLen - s.path.length ≠ 0 := by
    intro h0
    rw [h0, hn] at hw
    exact not_wellFormed_zero_group _ _ _ _ hw
  omega

/-- Moving into slot `i` of a group: the child reached and the entry pushed share out the leaves
of the slots from `i` on. An empty group is entered at its `NULL` slot. -/
lemma descend (h : SearchInv s) (hn : s.node = .group cap cnt subId subPtr)
    (hi : i < cnt ∨ cnt = 0 ∧ i = 0) :
    ∃ k c nbl, subId[i]? = some k ∧ subPtr[i]? = some c ∧
      searchNextDescend s cnt subId subPtr i = some (s.move k nbl c) ∧
      (s.path ++ [k]).length ≤ mibOidMaxLen ∧
      (c = .null ∧ cnt = 0 ∨ WellFormed (mibOidMaxLen - (s.path ++ [k]).length) c) ∧
      StackOk (s.path ++ [k]).length (nbl :: s.stk) ∧
      leavesFrom subPtr cnt subId i = under k c.leaves ++ nbl.leaves ∧
      nbl.leaves = leavesFrom subPtr cnt subId (i + 1) ∧
      c.cost + nbl.cost ≤ costList (subPtr.drop i) := by
  obtain ⟨hpath, hstk⟩ := h.stk_length_lt hn
  have hw := h.wellFormed_group hn
  rw [show mibOidMaxLen - s.path.length = mibOidMaxLen - (s.path.length + 1) + 1 by omega, hn] at hw
  obtain ⟨hshape, _⟩ := MibNode.wellFormed_group.mp hw
  -- the slot, in use or the `NULL` one
  obtain ⟨k, c, hk, hc, hcw⟩ : ∃ k c, subId[i]? = some k ∧ subPtr[i]? = some c ∧
      (c = .null ∧ cnt = 0 ∨ WellFormed (mibOidMaxLen - (s.path.length + 1)) c) := by
    rcases hi with hi | ⟨h0, rfl⟩
    · obtain ⟨k, c, hk, hc⟩ := hshape.exists_sub hi
      exact ⟨k, c, hk, hc, Or.inr (hw.child hi hc)⟩
    · exact ⟨0, .null, (hshape.raw h0).1, (hshape.raw h0).2, Or.inl ⟨rfl, h0⟩⟩
  have hleaves : (backlogAfter s.node cnt i).leaves = leavesFrom subPtr cnt subId (i + 1) := by
    simp only [backlogAfter]
    split_ifs with hlast
    · rw [leavesFrom_of_le hlast]
      rfl
    · simp [NodeBacklog.leaves, hn]
  have hok : (backlogAfter s.node cnt i).SearchOk (mibOidMaxLen - s.path.length) := by
    simp only [backlogAfter]
    split_ifs with hlast
    · exact Or.inl rfl
    · exact Or.inr ⟨cap, cnt, subId, subPtr, i + 1, by rw [hn], h.wellFormed_group hn, by omega⟩
  have hcost : (backlogAfter s.node cnt i).cost ≤ costList (subPtr.drop (i + 1)) + 1 := by
    simp only [backlogAfter]
    split_ifs with hlast
    · simp [NodeBacklog.cost]
    · simp [NodeBacklog.cost, hn, show ¬ ((i : Int) + 1 = -1) by omega,
        show ((i : Int) + 1).toNat = i + 1 by omega]
  refine ⟨k, c, backlogAfter s.node cnt i, hk, hc, ?_, by simp; omega, by simpa using hcw,
    ⟨s.path.length, by simp, hok, h.stack⟩, ?_, hleaves, ?_⟩
  · simp [searchNextDescend, SearchNextState.move, hk, hc, nblPush, hstk]
  · rw [hleaves]
    rcases hi with hi | ⟨h0, rfl⟩
    · exact leavesFrom_eq hi hk hc
    · obtain ⟨rfl, _⟩ | hcw := hcw
      · rw [leavesFrom_of_le (by omega), leavesFrom_of_le (by omega)]
        rfl
      · have := (hshape.raw h0).2.symm.trans hc
        exact absurd rfl (Option.some.inj this ▸ hcw).ne_null
  · have := costList_drop hc
    omega

end SearchInv

/-- The probes of a state that has moved into a child. -/
lemma pending_of_move {s t : SearchNextState} {k : UInt32} {nbl : NodeBacklog}
    (hpath : t.path = s.path ++ [k]) (hstk : t.stk = nbl :: s.stk) :
    t.pending = beneath s.path (beneath [k] t.nodeProbes ++ nbl.leaves.map first) ++
      stackProbes s.path s.stk := by
  simp [SearchNextState.pending, hpath, hstk, stackProbes, beneath_beneath]

/-! ### One iteration -/

section Step

variable (handlers : Handlers) (view orig : Oid)

/-- What an iteration that asks nothing does: the same is pending, and it costs less. -/
structure QuietStep (s s' : SearchNextState) : Prop where
  inv : SearchInv s'
  pending_eq : s'.pending = s.pending
  ret_eq : s'.ret = s.ret
  cost_lt : s'.cost < s.cost

/-- Backtracking drops what is left below the current node. -/
lemma SearchInv.backtrack {s : SearchNextState} (h : SearchInv s) (ret : OidSearchRes) :
    (s.stk = [] ∧ searchNextBacktrack orig s ret = .inr (endOfMibView orig ret)) ∨
    ∃ s', searchNextBacktrack orig s ret = .inl s' ∧ SearchInv s' ∧
      s'.pending = stackProbes s.path s.stk ∧ s'.ret = ret ∧ s'.cost = stackCost s.stk := by
  cases hstk : s.stk with
  | nil => exact Or.inl ⟨rfl, by simp [searchNextBacktrack, hstk]⟩
  | cons nbl stk =>
    obtain ⟨m, hm, hok, hrest⟩ := hstk ▸ h.stack
    have hlen : s.path.dropLast.length = m := by simp [hm]
    have hdepth := h.depth
    refine Or.inr ⟨⟨s.path.dropLast, s.rest, true, some nbl, stk, nbl.node, ret⟩,
      by simp only [searchNextBacktrack, hstk], ?_, rfl, rfl,
      by simp [SearchNextState.cost, stackCost]⟩
    refine ⟨by simp only [hlen]; omega, by simp, ?_, by simpa [hlen] using hrest, by simp⟩
    rintro _ ⟨⟩
    exact ⟨rfl, rfl, by simpa [hlen] using hok⟩

/-- A group in the immediate mode: move into the next slot. -/
lemma SearchInv.step_immediate {s : SearchNextState} {cap cnt : Nat} {subId : List UInt32}
    {subPtr : List MibNode} (h : SearchInv s) (hn : s.node = .group cap cnt subId subPtr)
    (himm : s.immediate = true) :
    ∃ s', searchNextStep handlers view orig s = pure (.inl s') ∧ QuietStep s s' := by
  -- the slot to go on at, fresh or from the entry just popped
  obtain ⟨i, hidx, hi, hprobes, hcost⟩ : ∃ i : Nat,
      ((s.pNbl.map NodeBacklog.nIdx).getD 0).toNat = i ∧ (i < cnt ∨ cnt = 0 ∧ i = 0) ∧
      s.nodeProbes = (leavesFrom subPtr cnt subId i).map first ∧
      costList (subPtr.drop i) + stackCost s.stk < s.cost := by
    cases hp : s.pNbl with
    | none =>
      refine ⟨0, rfl, by omega, ?_, ?_⟩
      · simp [SearchNextState.nodeProbes, hp, himm, hn, MibNode.leaves]
      · simp only [SearchNextState.cost, hp, hn, MibNode.cost, List.drop_zero]
        omega
    | some nbl =>
      obtain ⟨heq, _, hok⟩ := h.popped nbl hp
      rcases hok with hnull | ⟨cap', cnt', subId', subPtr', j, rfl, _, hj⟩
      · simp [heq, hnull] at hn
      · obtain ⟨rfl, rfl, rfl, rfl⟩ := by simpa [hn] using heq
        refine ⟨j, rfl, Or.inl hj, ?_, ?_⟩
        · simp [SearchNextState.nodeProbes, hp, NodeBacklog.leaves]
        · simp only [SearchNextState.cost, hp, NodeBacklog.cost, Int.toNat_natCast,
            show ¬ ((j : Int) = -1) by omega, if_false]
          omega
  obtain ⟨k, c, nbl, _, _, hdesc, hdepth, hcw, hstack, hleaves, _, hcc⟩ := h.descend hn hi
  refine ⟨s.move k nbl c, by simp only [searchNextStep, hn, himm, if_true, hidx, hdesc],
    ⟨?_, ?_, rfl, ?_⟩⟩
  · exact ⟨hdepth, fun _ => hcw.imp_left And.left, by simp [SearchNextState.move], hstack,
      by simp [SearchNextState.move, himm]⟩
  · rw [pending_of_move (s := s) (t := s.move k nbl c) rfl rfl, SearchNextState.pending, hprobes,
      hleaves]
    simp [SearchNextState.nodeProbes, SearchNextState.move, himm, map_first_under]
  · have hmove : (s.move k nbl c).cost = c.cost + (nbl.cost + stackCost s.stk) := by
      simp [SearchNextState.cost, SearchNextState.move, stackCost, himm]
    omega

/-- The state after a move in the matching mode. -/
def SearchNextState.advance (s : SearchNextState) : SearchNextState :=
  { s with
    rest := s.rest.tail
    immediate := s.immediate || (s.node.isGroup && s.rest.tail.isEmpty) }

lemma searchNextAdvance_eq {s : SearchNextState} (h : s.node ≠ .null) :
    searchNextAdvance s = some s.advance := by
  cases hn : s.node with
  | null => exact absurd hn h
  | inst callback => simp [searchNextAdvance, SearchNextState.advance, hn]
  | group cap cnt subId subPtr => simp [searchNextAdvance, SearchNextState.advance, hn]

/-- A move by a matched sub-identifier leaves the rest of the request for the child. -/
lemma nodeProbes_advance_match {s : SearchNextState} {x : UInt32} {xs : Oid} {k : UInt32}
    {nbl : NodeBacklog} {c : MibNode} (himm : s.immediate = false) (hrest : s.rest = x :: xs) :
    (s.move k nbl c).advance.nodeProbes = probes xs c.leaves := by
  cases c with
  | null => simp [SearchNextState.nodeProbes, SearchNextState.advance, SearchNextState.move, himm, hrest]
  | inst cb => simp [SearchNextState.nodeProbes, SearchNextState.advance, SearchNextState.move, himm, hrest]
  | group cap cnt subId subPtr =>
    cases xs with
    | nil =>
      have hne : ∀ e ∈ (MibNode.group cap cnt subId subPtr).leaves, e.1 ≠ [] := fun e he =>
        ne_nil_of_mem_leavesList (by simpa [MibNode.leaves] using he)
      simp [SearchNextState.nodeProbes, SearchNextState.advance, SearchNextState.move, hrest,
        probes_of_nil hne]
    | cons y ys =>
      simp [SearchNextState.nodeProbes, SearchNextState.advance, SearchNextState.move, himm, hrest]

lemma nodeProbes_advance_immediate {s : SearchNextState} {k : UInt32} {nbl : NodeBacklog}
    {c : MibNode} (himm : s.immediate = true) :
    (s.move k nbl c).advance.nodeProbes = c.leaves.map first := by
  simp [SearchNextState.nodeProbes, SearchNextState.advance, SearchNextState.move, himm]

/-- A move into a slot in use that shares out the probes of the current node. -/
lemma quietStep_advance {s : SearchNextState} {cap cnt i : Nat} {subId : List UInt32}
    {subPtr : List MibNode} {k : UInt32} {nbl : NodeBacklog} {c : MibNode}
    (hn : s.node = .group cap cnt subId subPtr) (hp : s.pNbl = none) (imm : Bool)
    (hdepth : (s.path ++ [k]).length ≤ mibOidMaxLen)
    (hcw : WellFormed (mibOidMaxLen - (s.path ++ [k]).length) c)
    (hstack : StackOk (s.path ++ [k]).length (nbl :: s.stk))
    (hcost : c.cost + nbl.cost ≤ costList (subPtr.drop i))
    (hprobes : s.nodeProbes = beneath [k] ({ s with immediate := imm }.move k nbl c).advance.nodeProbes
      ++ nbl.leaves.map first) :
    QuietStep s ({ s with immediate := imm }.move k nbl c).advance := by
  refine ⟨⟨hdepth, fun _ => Or.inr hcw, by simp [SearchNextState.advance, SearchNextState.move],
    hstack, ?_⟩, ?_, rfl, ?_⟩
  · -- still matching at a group means that some of the request is left
    intro himm hgroup
    simp only [SearchNextState.advance, SearchNextState.move] at himm hgroup ⊢
    simp only [hgroup, Bool.true_and, Bool.or_eq_false_iff, List.isEmpty_eq_false_iff] at himm
    exact himm.2
  · apply (pending_of_move (s := s) (k := k) rfl rfl).trans
    rw [SearchNextState.pending, hprobes]
  · have hdrop : costList (subPtr.drop i) ≤ costList subPtr := costList_drop_le subPtr i
    have hmode := Bool.toNat_le (!({ s with immediate := imm }.move k nbl c).advance.immediate)
    have hadv : ({ s with immediate := imm }.move k nbl c).advance.cost =
        c.cost + (!({ s with immediate := imm }.move k nbl c).advance.immediate).toNat +
          (nbl.cost + stackCost s.stk) := by
      simp [SearchNextState.cost, SearchNextState.advance, SearchNextState.move, stackCost]
    have hs : s.cost = costList subPtr + 3 + (!s.immediate).toNat + stackCost s.stk := by
      simp [SearchNextState.cost, hp, hn, MibNode.cost]
    omega

/-- The mode may change to the immediate one at any time. -/
lemma SearchInv.immediate {s : SearchNextState} (h : SearchInv s) :
    SearchInv { s with immediate := true } :=
  ⟨h.depth, h.fresh, fun nbl hp => ⟨(h.popped nbl hp).1, rfl, (h.popped nbl hp).2.2⟩, h.stack,
    by simp⟩

/-- An iteration in the matching mode, with the cases of the binary search. -/
lemma searchNextStep_match {s : SearchNextState} {cap cnt : Nat} {subId : List UInt32}
    {subPtr : List MibNode} {x : UInt32} {xs : Oid} (hn : s.node = .group cap cnt subId subPtr)
    (himm : s.immediate = false) (hrest : s.rest = x :: xs) :
    searchNextStep handlers view orig s =
      if 0 ≤ oidBinarySearch subId cnt x then
        match (searchNextDescend s cnt subId subPtr (oidBinarySearch subId cnt x).toNat).bind
          searchNextAdvance with
        | some s' => pure (.inl s')
        | none => Traced.crash
      else if (-oidBinarySearch subId cnt x - 1).toNat = cnt then
        pure (searchNextBacktrack orig s s.ret)
      else if (-oidBinarySearch subId cnt x - 1).toNat = 0 then
        pure (.inl { s with immediate := true })
      else
        match (searchNextDescend { s with immediate := true } cnt subId subPtr
          (-oidBinarySearch subId cnt x - 1).toNat).bind searchNextAdvance with
        | some s' => pure (.inl s')
        | none => Traced.crash := by
  obtain ⟨path, rest, immediate, pNbl, stk, node, ret⟩ := s
  simp only at hn himm hrest
  subst hn himm hrest
  rfl

section StepMatch

variable {s : SearchNextState} {cap cnt : Nat} {subId : List UInt32} {subPtr : List MibNode} {x : UInt32}
  {xs : Oid} {i : Nat}

lemma SearchInv.pNbl_eq_none (h : SearchInv s) (himm : s.immediate = false) : s.pNbl = none := by
  cases hp : s.pNbl with
  | none => rfl
  | some nbl => simp [(h.popped nbl hp).2.1] at himm

lemma SearchInv.groupShape (h : SearchInv s) (hn : s.node = .group cap cnt subId subPtr) :
    GroupShape cap cnt subId subPtr := by
  have hw := h.wellFormed_group hn
  have := (h.stk_length_lt hn).1
  rw [show mibOidMaxLen - s.path.length = mibOidMaxLen - (s.path.length + 1) + 1 by omega, hn] at hw
  exact (MibNode.wellFormed_group.mp hw).1

/-- The slot of the target: its leaves get the rest of the request. -/
lemma SearchInv.step_slot (h : SearchInv s) (hn : s.node = .group cap cnt subId subPtr)
    (himm : s.immediate = false) (hrest : s.rest = x :: xs)
    (hprobes : s.nodeProbes = probes (x :: xs) (leavesList subPtr cnt subId)) (hi : i < cnt)
    (hk : subId[i]? = some x) (heq : oidBinarySearch subId cnt x = i) :
    ∃ s', searchNextStep handlers view orig s = pure (.inl s') ∧ QuietStep s s' := by
  have hshape := h.groupShape hn
  obtain ⟨k, c, nbl, hk', _, hdesc, hdepth, hcw, hstack, hleaves, hnext, hcost⟩ :=
    h.descend hn (Or.inl hi)
  obtain rfl : x = k := Option.some.inj (hk.symm.trans hk')
  replace hcw := hcw.resolve_left fun h0 => by omega
  refine ⟨(s.move x nbl c).advance, ?_, quietStep_advance hn (h.pNbl_eq_none himm) s.immediate hdepth hcw
    hstack hcost ?_⟩
  · rw [searchNextStep_match handlers view orig hn himm hrest, heq, if_pos (by omega),
      Int.toNat_natCast, hdesc, Option.bind_some,
      searchNextAdvance_eq (s := s.move x nbl c) hcw.ne_null]
  · have habove : HeadsAbove x nbl.leaves := by
      rw [hnext]
      exact headsAbove_leavesFrom fun j k hj hjc hjk => hshape.subId_lt (by omega) hjc hk hjk
    have hbelow : ∀ j k, j < i → subId[j]? = some k → k < x := fun j k hj hjk =>
      hshape.subId_lt hj hi hjk hk
    rw [hprobes, probes_leavesList_skip xs hshape hi.le hbelow, hleaves,
      probes_under_self x xs _ habove]
    congr 2
    exact (nodeProbes_advance_match himm hrest).symm

/-- The first slot above the target: the mode changes, and the walk goes there unless it is the first one
of all. -/
lemma SearchInv.step_above (h : SearchInv s) (hn : s.node = .group cap cnt subId subPtr)
    (himm : s.immediate = false) (hrest : s.rest = x :: xs)
    (hprobes : s.nodeProbes = (leavesFrom subPtr cnt subId i).map first) (hi : i < cnt)
    (heq : oidBinarySearch subId cnt x = -(i : Int) - 1) :
    ∃ s', searchNextStep handlers view orig s = pure (.inl s') ∧ QuietStep s s' := by
  have hp := h.pNbl_eq_none himm
  have hidx : (-(-(i : Int) - 1) - 1).toNat = i := by omega
  rcases Nat.eq_zero_or_pos i with rfl | hpos
  · -- every slot is above the target: only the mode changes
    refine ⟨{ s with immediate := true }, ?_, ⟨h.immediate, ?_, rfl, ?_⟩⟩
    · rw [searchNextStep_match handlers view orig hn himm hrest, heq, if_neg (by omega), hidx,
        if_neg (by omega), if_pos rfl]
    · rw [SearchNextState.pending, SearchNextState.pending, hprobes]
      simp [SearchNextState.nodeProbes, hp, hn, MibNode.leaves]
    · simp [SearchNextState.cost, hp, himm]
  · obtain ⟨k, c, nbl, _, _, hdesc, hdepth, hcw, hstack, hleaves, _, hcost⟩ :=
      (h.immediate).descend (s := { s with immediate := true }) hn (Or.inl hi)
    replace hcw := hcw.resolve_left fun h0 => by omega
    refine ⟨({ s with immediate := true }.move k nbl c).advance, ?_,
      quietStep_advance hn hp true hdepth hcw hstack hcost ?_⟩
    · rw [searchNextStep_match handlers view orig hn himm hrest, heq, if_neg (by omega), hidx,
        if_neg (by omega), if_neg (by omega), hdesc, Option.bind_some, searchNextAdvance_eq]
      exact hcw.ne_null
    · rw [hprobes, hleaves, nodeProbes_advance_immediate rfl]
      simp [map_first_under]

/-- A group in the matching mode: the binary search decides between a matched slot, the first slot
above the target, and nothing left in this group. -/
lemma SearchInv.step_match (h : SearchInv s) (hn : s.node = .group cap cnt subId subPtr)
    (himm : s.immediate = false) :
    (searchNextStep handlers view orig s = pure (searchNextBacktrack orig s s.ret) ∧
      s.nodeProbes = []) ∨
    ∃ s', searchNextStep handlers view orig s = pure (.inl s') ∧ QuietStep s s' := by
  obtain ⟨x, xs, hrest⟩ := List.exists_cons_of_ne_nil (h.mode himm (by simp [hn]))
  have hshape := h.groupShape hn
  have hprobes : s.nodeProbes = probes (x :: xs) (leavesList subPtr cnt subId) := by
    simp [SearchNextState.nodeProbes, h.pNbl_eq_none himm, himm, hrest, hn, MibNode.leaves]
  rcases hshape.binarySearch_cases x with ⟨i, hi, hk, heq⟩ | ⟨i, hi, hbelow, habove, heq⟩
  · exact .inr (h.step_slot handlers view orig hn himm hrest hprobes hi hk heq)
  · rw [probes_leavesList_skip xs hshape hi hbelow] at hprobes
    rcases Nat.lt_or_ge i cnt with hic | hic
    · rw [probes_of_headsAbove xs (headsAbove_leavesFrom habove)] at hprobes
      exact .inr (h.step_above handlers view orig hn himm hrest hprobes hic heq)
    · obtain rfl : i = cnt := by omega
      refine .inl ⟨?_, by rw [hprobes, leavesFrom_of_le (le_refl _), probes_nil]⟩
      rw [searchNextStep_match handlers view orig hn himm hrest, heq, if_neg (by omega),
        show (-(-(i : Int) - 1) - 1).toNat = i by omega, if_pos rfl]

end StepMatch

/-! ### The whole loop -/

/-- An iteration keeps the invariant. -/
theorem SearchInv.step {s s' : SearchNextState} {l l' : List Call} (h : SearchInv s)
    (hstep : searchNextStep handlers view orig s l = (.ok (.inl s'), l')) : SearchInv s' := by
  have hback : ∀ ret, searchNextBacktrack orig s ret = .inl s' → SearchInv s' := by
    intro ret heq
    rcases h.backtrack orig ret with ⟨_, hend⟩ | ⟨t, heq', hinv, _⟩
    · simp [hend] at heq
    · rw [heq', Sum.inl.injEq] at heq
      exact heq ▸ hinv
  cases hn : s.node with
  | null =>
    rw [searchNextStep, hn] at hstep
    simp only [Traced.pure_apply, Prod.mk.injEq, Outcome.ok.injEq] at hstep
    exact hback s.ret hstep.1
  | group cap cnt subId subPtr =>
    cases himm : s.immediate with
    | true =>
      obtain ⟨t, heq, hq⟩ := h.step_immediate handlers view orig hn himm
      simp only [heq, Traced.pure_apply, Prod.mk.injEq, Outcome.ok.injEq, Sum.inl.injEq] at hstep
      exact hstep.1 ▸ hq.inv
    | false =>
      rcases h.step_match handlers view orig hn himm with ⟨heq, _⟩ | ⟨t, heq, hq⟩
      · simp only [heq, Traced.pure_apply, Prod.mk.injEq, Outcome.ok.injEq] at hstep
        exact hback s.ret hstep.1
      · simp only [heq, Traced.pure_apply, Prod.mk.injEq, Outcome.ok.injEq, Sum.inl.injEq] at hstep
        exact hstep.1 ▸ hq.inv
  | inst callback =>
    rw [searchNextStep, hn] at hstep
    obtain ⟨answer, l₁, _, hrest⟩ := Traced.bind_eq_ok hstep
    cases answer with
    | inl ret =>
      simp only [Traced.pure_apply, Prod.mk.injEq, Outcome.ok.injEq] at hrest
      exact hback ret hrest.1
    | inr ret => simp at hrest

/-- The loop asks the pending probes in order, and it ends. -/
theorem searchNextLoop_eq_tryProbes (fuel : Nat) {s : SearchNextState} (h : SearchInv s)
    (hfuel : s.cost ≤ fuel) :
    searchNextLoop handlers view orig fuel s = tryProbes handlers view orig s.pending s.ret := by
  induction fuel generalizing s with
  | zero =>
    exfalso
    have : 0 < s.cost := s.cost_pos
    omega
  | succ fuel ih =>
    -- after the node is done, as at an empty slot, the stack is what is left
    have hback : ∀ ret, stackCost s.stk ≤ fuel →
        searchNextLoop handlers view orig (fuel + 1) { s with node := .null, ret := ret } =
          tryProbes handlers view orig (stackProbes s.path s.stk) ret := by
      intro ret hcost
      show (pure (searchNextBacktrack orig s ret) >>= _) = _
      rcases h.backtrack orig ret with ⟨hstk, heq⟩ | ⟨s', heq, hinv, hpend, hret, hc⟩
      · rw [heq, hstk]
        rfl
      · rw [heq]
        exact (ih hinv (by omega)).trans (by rw [hpend, hret])
    have hquiet : ∀ s', searchNextStep handlers view orig s = pure (.inl s') → QuietStep s s' →
        searchNextLoop handlers view orig (fuel + 1) s =
          tryProbes handlers view orig s.pending s.ret := by
      intro s' hstep hq
      have hlt := hq.cost_lt
      rw [searchNextLoop, hstep]
      exact (ih hq.inv (by omega)).trans (by rw [hq.pending_eq, hq.ret_eq])
    have hstk : stackCost s.stk < s.cost := s.stackCost_lt
    cases hn : s.node with
    | null =>
      have hprobes : s.nodeProbes = [] := h.nodeProbes_null hn
      rw [SearchNextState.pending, hprobes, searchNextLoop, searchNextStep, hn]
      exact hback s.ret (by omega)
    | group cap cnt subId subPtr =>
      cases himm : s.immediate with
      | true =>
        obtain ⟨s', hstep, hq⟩ := h.step_immediate handlers view orig hn himm
        exact hquiet s' hstep hq
      | false =>
        rcases h.step_match handlers view orig hn himm with ⟨hstep, hprobes⟩ | ⟨s', hstep, hq⟩
        · rw [SearchNextState.pending, hprobes, searchNextLoop, hstep]
          exact hback s.ret (by omega)
        · exact hquiet s' hstep hq
    | inst callback =>
      have hprobes := h.nodeProbes_inst hn
      rw [SearchNextState.pending, hprobes, searchNextLoop, searchNextStep, hn]
      simp only [Traced.bind_assoc, beneath, List.map_cons, List.map_nil, List.append_nil,
        List.singleton_append, tryProbes]
      congr 1
      funext answer
      cases answer with
      | inl ret => exact hback ret (by omega)
      | inr ret => rfl

/-- From a start state the cost of its node is enough. -/
theorem searchNextLoop_start {s : SearchNextState} (h : SearchInv s) (hp : s.pNbl = none)
    (hstk : s.stk = []) :
    searchNextLoop handlers view orig (s.node.cost + 1) s =
      tryProbes handlers view orig s.pending s.ret := by
  apply searchNextLoop_eq_tryProbes handlers view orig _ h
  have hmode := Bool.toNat_le (!s.immediate)
  simp only [SearchNextState.cost, hp, hstk, stackCost, List.map_nil, List.sum_nil]
  omega

end Step

end SmartSnmp
