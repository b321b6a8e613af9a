import Mathlib.Data.List.Nodup
import SmartSnmp.Mib.Tree.Delete

/-!
# The callbacks that an unregistration releases

`mib_node_unreg` calls `mib_handler_unref` for each instance that it deletes. The callbacks that are
released are those of the leaves that the tree loses.
-/

namespace SmartSnmp

open PrefixOrder MibNode

/-- The callbacks of the instances among deleted nodes. -/
def callbacksOf (freed : List MibNode) : List Int :=
  freed.filterMap fun
    | .inst cb => some cb
    | _ => none

/-- `__mib_tree_delete`, with the calls of `mib_handler_unref` in their order. -/
def mibTreeDeletePairReleasing (root : MibNode) (pair : NodePair) : Outcome (MibNode × List Int) :=
  if pair.childPos = [] then .ok (root, [])
  else
    match mibTreeDeleteLoop pair.child.cost pair.child none [] [] with
    | .ok freed => .ok (root.updateAt (groupNodeShrink pair.subIdx) pair.parent, callbacksOf freed)
    | .crash => .crash
    | .fuel => .fuel

/-- `mib_node_unreg`, with the calls of `mib_handler_unref` in their order. -/
def mibNodeUnregReleasing (root : MibNode) (oid : Oid) : Outcome (MibNode × List Int) :=
  match mibTreeNodeSearch root oid with
  | (.null, _) => .ok (root, [])
  | (_, pair) => mibTreeDeletePairReleasing root pair

/-- Without the callbacks it is the unregistration of the tree. -/
lemma map_mibNodeUnregReleasing (root : MibNode) (oid : Oid) :
    (mibNodeUnregReleasing root oid).map Prod.fst = mibNodeUnreg root oid := by
  have hpair : ∀ pair, (mibTreeDeletePairReleasing root pair).map Prod.fst =
      mibTreeDeletePair root pair := by
    intro pair
    rw [mibTreeDeletePairReleasing, mibTreeDeletePair]
    split_ifs
    · rfl
    · cases mibTreeDeleteLoop pair.child.cost pair.child none [] [] <;> rfl
  rw [mibNodeUnregReleasing, mibNodeUnreg, mibTreeDelete]
  rcases mibTreeNodeSearch root oid with ⟨node, pair⟩
  cases node with
  | null => rfl
  | inst cb => exact hpair pair
  | group cap cnt subId subPtr => exact hpair pair

/-! ### What is released -/

lemma callbacksOf_map_snd (deleted : List Deletion) :
    callbacksOf (deleted.map Prod.snd) = releasedCallbacks deleted := by
  rw [callbacksOf, List.filterMap_map, releasedCallbacks]
  rfl

/-- The loop releases the callbacks of the leaves below its node. -/
lemma MibNode.WellFormed.deleteLoop_callbacks {d : Nat} {node : MibNode} (h : WellFormed d node)
    (hd : d ≤ mibOidMaxLen) : ∃ freed, mibTreeDeleteLoop node.cost node none [] [] = .ok freed ∧
      callbacksOf freed = node.leaves.map Prod.snd := by
  obtain ⟨k, hk, hrun⟩ := walksTo_postOrder h [] [] [] (by simpa using hd)
  have hwalk : mibTreeDeleteWalk node.cost [] node none [] [] = .ok (postOrder [] node) := by
    rw [show node.cost = k + (node.cost - k) by omega]
    exact hrun _
  have hplaced := deleteLoop_eq_walk node.cost [] node none [] []
  rw [hwalk] at hplaced
  exact ⟨_, hplaced, by rw [callbacksOf_map_snd, released_postOrder h]⟩

lemma MibNode.WellFormed.leaves_nodup {d : Nat} {node : MibNode} (h : WellFormed d node) :
    node.leaves.Nodup :=
  h.leaves_pairwise.imp fun hab heq => (heq ▸ hab).lt.ne rfl

/-- What an unregistration removes: what is at or below the OID, and what is one sub-identifier above. -/
def Unregisters (oid p : Oid) : Prop := oid ≠ [] ∧ (oid <+: p ∨ oid.dropLast = p)

instance (oid p : Oid) : Decidable (Unregisters oid p) :=
  inferInstanceAs (Decidable (oid ≠ [] ∧ (oid <+: p ∨ oid.dropLast = p)))

section Unreg

variable {root : MibNode} (h : RootOk root) {oid : Oid}
include h

/-- A deletion releases the callbacks below the child of the pair. -/
lemma RootOk.deletePair_releasing {pair : NodePair} {path : Oid}
    (hloc : Located root pair.childPos path pair.child) (hpath : path ≠ [])
    (hpos : pair.childPos = [] ∨ pair.childPos = pair.parent ++ [pair.subIdx]) :
    ∃ root', mibTreeDeletePairReleasing root pair = .ok (root', pair.child.leaves.map Prod.snd) ∧
      ∀ p cb, Occurs root' p (.inst cb) ↔ Occurs root p (.inst cb) ∧ ¬ path <+: p := by
  have hne : pair.childPos ≠ [] := by
    intro hnil
    have hlen := hloc.length_eq
    rw [hnil] at hlen
    exact hpath (List.length_eq_zero_iff.mp hlen.symm)
  have hw := (h.1.occurs hloc.occurs).2
  obtain ⟨freed, hfreed, hcb⟩ := hw.deleteLoop_callbacks (Nat.sub_le _ _)
  refine ⟨root.updateAt (groupNodeShrink pair.subIdx) pair.parent, ?_, fun p cb => ?_⟩
  · rw [mibTreeDeletePairReleasing, if_neg hne, hfreed, ← hcb]
  rw [hpos.resolve_left hne] at hloc
  exact hloc.occurs_shrink h.1 p cb

/-- An unregistration deletes nothing, or what is below a node. -/
lemma RootOk.unregReleasing_cases (hoid : oid ≠ []) :
    mibNodeUnregReleasing root oid = .ok (root, []) ∨
    ∃ path node root', Occurs root path node ∧
      mibNodeUnregReleasing root oid = .ok (root', node.leaves.map Prod.snd) ∧
      ∀ p cb, Occurs root' p (.inst cb) ↔ Occurs root p (.inst cb) ∧ ¬ path <+: p := by
  obtain ⟨-, -, hpos⟩ := nodeSearch_pair oid h.1 (.here root) (Or.inl rfl) _ rfl
  have hfound := nodeSearch_found oid h.1 (.here root) [] 0
  rw [mibNodeUnregReleasing, mibTreeNodeSearch]
  generalize mibTreeNodeSearchLoop [] [] 0 root oid = res at hfound hpos
  cases hfound with
  | exact n pair hn hnull hloc hchild =>
    subst hchild
    obtain ⟨root', heq, hocc⟩ := h.deletePair_releasing hloc hoid hpos
    refine .inr ⟨oid, pair.child, root', hn, ?_, hocc⟩
    rw [← heq]
    cases hc : pair.child with
    | null => exact absurd hc hnull
    | inst cb => rfl
    | group cap cnt subId subPtr => rfl
  | past p x cb pair hx hp hloc hchild =>
    have hpne : p ≠ [] := by
      rintro rfl
      obtain ⟨_, _, _, _, rfl⟩ := h.2
      cases hp
    rw [← hchild] at hloc
    obtain ⟨root', heq, hocc⟩ := h.deletePair_releasing hloc hpne hpos
    exact .inr ⟨p, pair.child, root', hchild ▸ hp, heq, hocc⟩
  | none pair hn hp => exact .inl rfl

/-- The leaves of the tree before an unregistration are those after it and those whose callbacks are
released. -/
lemma RootOk.perm_unregReleasing (oid : Oid) : ∃ root' released,
    mibNodeUnregReleasing root oid = .ok (root', released) ∧ RootOk root' ∧
    (root.leaves.map Prod.snd).Perm (root'.leaves.map Prod.snd ++ released) := by
  obtain ⟨root₁, hunreg, hroot₁⟩ := h.unreg oid
  have hmap := map_mibNodeUnregReleasing root oid
  rw [hunreg] at hmap
  by_cases hoid : oid = []
  · subst hoid
    have hnil : mibNodeUnregReleasing root [] = .ok (root, []) := by
      obtain ⟨_, _, _, _, rfl⟩ := h.2
      rfl
    exact ⟨root, [], hnil, h, by simp⟩
  rcases h.unregReleasing_cases hoid with heq | ⟨path, node, root', hnode, heq, hocc⟩
  · exact ⟨root, [], heq, h, by simp⟩
  · rw [heq] at hmap
    obtain rfl : root' = root₁ := Outcome.ok.inj hmap
    refine ⟨root', _, heq, hroot₁, ?_⟩
    have hw := (h.1.occurs hnode).2
    have hnodup : (root'.leaves ++ atop path node.leaves).Nodup := by
      refine List.nodup_append.mpr ⟨hroot₁.1.leaves_nodup, ?_, ?_⟩
      · refine List.Nodup.map (fun a b hab => ?_) hw.leaves_nodup
        obtain ⟨hp, hcb⟩ := Prod.mk.inj hab
        exact Prod.ext (List.append_cancel_left hp) hcb
      · rintro ⟨p, cb⟩ hleft _ hright rfl
        obtain ⟨e, -, he⟩ := List.mem_map.mp hright
        have hp := ((hocc p cb).mp ((hroot₁.1.mem_leaves_iff p cb).mp hleft)).2
        exact hp ((Prod.mk.inj he).1 ▸ List.prefix_append path e.1)
    have hperm : root.leaves.Perm (root'.leaves ++ atop path node.leaves) := by
      refine (List.perm_ext_iff_of_nodup h.1.leaves_nodup hnodup).mpr ?_
      rintro ⟨p, cb⟩
      rw [List.mem_append, h.1.mem_leaves_iff, hroot₁.1.mem_leaves_iff, hocc]
      constructor
      · intro hp
        by_cases hpre : path <+: p
        · obtain ⟨q, rfl⟩ := hpre
          obtain ⟨c, hc, hq⟩ := Occurs.of_append hp
          rw [h.1.occurs_unique hc hnode] at hq
          exact .inr (List.mem_map.mpr ⟨(q, cb), (hw.mem_leaves_iff q cb).mpr hq, rfl⟩)
        · exact .inl ⟨hp, hpre⟩
      · rintro (⟨hp, -⟩ | hp)
        · exact hp
        · obtain ⟨⟨q, cb'⟩, hq, he⟩ := List.mem_map.mp hp
          cases he
          exact hnode.append ((hw.mem_leaves_iff q cb').mp hq)
    have hcb := hperm.map Prod.snd
    rwa [List.map_append, atop, List.map_map] at hcb

/-- The leaves after an unregistration. -/
lemma RootOk.mem_leaves_unregReleasing {root' : MibNode} {released : List Int}
    (hrun : mibNodeUnregReleasing root oid = .ok (root', released)) (p : Oid) (cb : Int) :
    (p, cb) ∈ root'.leaves ↔ (p, cb) ∈ root.leaves ∧ ¬ Unregisters oid p := by
  have hmap := map_mibNodeUnregReleasing root oid
  rw [hrun] at hmap
  by_cases hoid : oid = []
  · subst hoid
    have hnil : mibNodeUnregReleasing root [] = .ok (root, []) := by
      obtain ⟨_, _, _, _, rfl⟩ := h.2
      rfl
    obtain ⟨rfl, -⟩ := Prod.mk.inj (Outcome.ok.inj (hrun.symm.trans hnil))
    exact (and_iff_left fun hun => hun.1 rfl).symm
  obtain ⟨root₁, hunreg, hocc⟩ := mibNodeUnreg_occurs h hoid
  obtain ⟨root₂, hunreg', hroot'⟩ := h.unreg oid
  obtain rfl := Outcome.ok.inj (hmap.trans hunreg)
  obtain rfl := Outcome.ok.inj (hunreg.symm.trans hunreg')
  rw [hroot'.1.mem_leaves_iff, h.1.mem_leaves_iff, hocc]
  refine and_congr_right fun _ => ?_
  rw [Unregisters, not_and_or, not_or]
  have hlast : (∀ x, oid ≠ p ++ [x]) ↔ oid.dropLast ≠ p := by
    constructor
    · rintro hno rfl
      exact hno (oid.getLast hoid) (List.dropLast_append_getLast hoid).symm
    · rintro hne x rfl
      exact hne (List.dropLast_concat)
  rw [hlast]
  tauto

end Unreg

end SmartSnmp
