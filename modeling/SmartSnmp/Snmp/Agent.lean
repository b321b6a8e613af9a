import SmartSnmp.Lib.Run
import SmartSnmp.Snmp.Views

/-!
# The agent between its requests

The tree of the MIB and the lists of views, as the calls of the Lua side change them one after the
other. Whatever their order, the tree keeps its invariant and the views stay in canonical form.
-/

namespace SmartSnmp

open Run

/-- The tree and the views of a running agent. -/
structure Agent where
  root : MibNode
  mv : MibViews

/-- After `mib_init`. -/
def Agent.init : Agent := ⟨mibInit, .empty⟩

/-- A call that changes the tree or the views. -/
inductive AgentOp where
  | node (op : TreeOp)
  | view (op : ViewOp)

/-- A call on the views. The loop of an unregistration stays at an entry that it cannot empty: then
it does not return. -/
def MibViews.apply (mv : MibViews) : ViewOp → Option MibViews
  | .reg .community oid name attr => some (mibCommunityReg mv oid name attr)
  | .reg .user oid name attr => some (mibUserReg mv oid name attr)
  | .unreg holder name attr =>
    match mv.unreg holder name attr ((mv.entries holder).length + 1) with
    | .ok mv' => some mv'
    | _ => none

/-- A call; a call that does not return ends the agent. -/
def Agent.apply (a : Agent) : AgentOp → Option Agent
  | .node op =>
    match op.apply a.root with
    | .ok root => some { a with root }
    | _ => none
  | .view op => (a.mv.apply op).map fun mv => { a with mv }

/-- The sub-identifiers of an OID are below `2 ^ 31`. -/
def SmallOid (oid : Oid) : Prop := ∀ x ∈ oid, x.toNat < 2 ^ 31

/-- The OID of a view that is registered is small. -/
def AgentOp.Small : AgentOp → Prop
  | .view (.reg _ oid _ _) => SmallOid oid
  | _ => True

lemma MibViews.viewStep_of_apply {mv mv' : MibViews} {op : ViewOp} (h : mv.apply op = some mv') :
    ViewStep mv op mv' := by
  cases op with
  | reg holder oid name attr =>
    cases holder with
    | community =>
      obtain rfl := Option.some.inj h
      exact .communityReg mv oid name attr
    | user =>
      obtain rfl := Option.some.inj h
      exact .userReg mv oid name attr
  | unreg holder name attr =>
    simp only [apply] at h
    split at h
    next mv₁ hrun =>
      obtain rfl := Option.some.inj h
      cases holder with
      | community => exact .communityUnreg hrun
      | user => exact .userUnreg hrun
    next => cases h

/-! ### What every call keeps -/

/-- The tree is reachable, and the views come from registrations of small OIDs. -/
structure Agent.Ok (a : Agent) : Prop where
  reachable : Reachable a.root
  viewRun : ∃ ops, ViewRun ops a.mv ∧ SmallOps ops

lemma Agent.ok_init : Agent.init.Ok := ⟨⟨[], rfl⟩, [], .nil, by simp [SmallOps]⟩

lemma runTree_append {root root' : MibNode} {ops : List TreeOp} (h : runTree root ops = .ok root')
    (op : TreeOp) : runTree root (ops ++ [op]) = op.apply root' := by
  induction ops generalizing root with
  | nil =>
    obtain rfl := Outcome.ok.inj h
    simp only [List.nil_append, runTree]
    cases op.apply root <;> rfl
  | cons o ops ih =>
    simp only [List.cons_append, runTree] at h ⊢
    cases ho : o.apply root with
    | ok root₁ =>
      rw [ho] at h
      exact ih h
    | crash =>
      rw [ho] at h
      cases h
    | fuel =>
      rw [ho] at h
      cases h

lemma Reachable.apply {root root' : MibNode} (h : Reachable root) {op : TreeOp}
    (hop : op.apply root = .ok root') : Reachable root' := by
  obtain ⟨ops, hrun⟩ := h
  exact ⟨ops ++ [op], (runTree_append hrun op).trans hop⟩

lemma SmallOps.cons {ops : List ViewOp} (h : SmallOps ops) {op : ViewOp}
    (hop : (AgentOp.view op).Small) : SmallOps (op :: ops) := by
  intro holder oid name attr hmem
  rcases List.mem_cons.mp hmem with rfl | hmem
  · exact hop
  · exact h holder oid name attr hmem

/-- A call that returns keeps the invariant, and a call on the tree returns. -/
lemma Agent.Ok.apply {a a' : Agent} (h : a.Ok) {op : AgentOp} (hop : op.Small)
    (hrun : a.apply op = some a') : a'.Ok := by
  cases op with
  | node op =>
    obtain ⟨root, hroot, -⟩ := h.reachable.rootOk.apply op
    simp only [Agent.apply, hroot] at hrun
    obtain rfl := Option.some.inj hrun
    exact ⟨h.reachable.apply hroot, h.viewRun⟩
  | view op =>
    obtain ⟨mv, hmv, rfl⟩ := Option.map_eq_some_iff.mp hrun
    obtain ⟨ops, hviews, hsmall⟩ := h.viewRun
    exact ⟨h.reachable, op :: ops, hviews.snoc (MibViews.viewStep_of_apply hmv), hsmall.cons hop⟩

lemma Agent.apply_node_ne_none {a : Agent} (h : a.Ok) (op : TreeOp) : a.apply (.node op) ≠ none := by
  obtain ⟨root, hroot, -⟩ := h.reachable.rootOk.apply op
  simp [Agent.apply, hroot]

/-- The views of a requester are small. -/
lemma Agent.Ok.small_views {a : Agent} (h : a.Ok) {sdg : SnmpDatagram} {e : ViewEntry}
    (he : requester a.mv sdg = some e) (attr : MibAcesAttr) : ∀ v ∈ e.views attr, SmallOid v := by
  obtain ⟨ops, hrun, hsmall⟩ := h.viewRun
  have hregs : ∀ holder, e ∈ a.mv.entries holder → ∀ v ∈ e.views attr, SmallOid v := by
    intro holder hmem v hv
    have hcan := (hrun.entriesOk hsmall holder).canonical e hmem attr
    have hmin := ((hcan.mem_iff v).mp hv).1
    cases attr with
    | read => exact readRegs_small hsmall v hmin
    | write => exact readRegs_small hsmall v (writeRegs_subset holder e.name ops hmin)
  simp only [requester] at he
  split_ifs at he
  · exact hregs .user (List.mem_of_find?_eq_some he)
  · exact hregs .community (List.mem_of_find?_eq_some he)

end SmartSnmp
