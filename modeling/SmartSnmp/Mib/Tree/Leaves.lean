import SmartSnmp.Mib.Tree.Invariant

/-!
# The instances of a tree

The leaves of a well-formed node are its instances, in ascending order and none of them below
another.
-/

namespace SmartSnmp

open PrefixOrder MibNode

/-! ### The leaves of a group -/

variable {cnt : Nat} {subId : List UInt32} {subPtr : List MibNode}

/-- The instances in the slots of a group from `i` on. -/
def leavesFrom (subPtr : List MibNode) (cnt : Nat) (subId : List UInt32) (i : Nat) :
    List (Oid × Int) := leavesList (subPtr.drop i) (cnt - i) (subId.drop i)

@[simp] lemma leavesFrom_zero : leavesFrom subPtr cnt subId 0 = leavesList subPtr cnt subId := rfl

lemma leavesFrom_of_le {i : Nat} (h : cnt ≤ i) : leavesFrom subPtr cnt subId i = [] := by
  rw [leavesFrom, Nat.sub_eq_zero_of_le h]
  cases subPtr.drop i <;> rfl

lemma leavesFrom_eq {i : Nat} {k : UInt32} {c : MibNode} (hi : i < cnt) (hk : subId[i]? = some k)
    (hc : subPtr[i]? = some c) :
    leavesFrom subPtr cnt subId i = under k c.leaves ++ leavesFrom subPtr cnt subId (i + 1) := by
  obtain ⟨hk', rfl⟩ := List.getElem?_eq_some_iff.mp hk
  obtain ⟨hc', rfl⟩ := List.getElem?_eq_some_iff.mp hc
  rw [leavesFrom, List.drop_eq_getElem_cons hc', List.drop_eq_getElem_cons hk',
    show cnt - i = cnt - (i + 1) + 1 by omega]
  rfl

/-- The leaves of a group have a first sub-identifier, that of the slot. -/
lemma mem_leavesFrom {i : Nat} {e : Oid × Int} (he : e ∈ leavesFrom subPtr cnt subId i) :
    ∃ j k c m, i ≤ j ∧ j < cnt ∧ subId[j]? = some k ∧ subPtr[j]? = some c ∧ m ∈ c.leaves ∧
      e = (k :: m.1, m.2) := by
  induction hn : cnt - i generalizing i with
  | zero => rw [leavesFrom_of_le (by omega)] at he; simp at he
  | succ n ih =>
    by_cases hlen : i < subId.length ∧ i < subPtr.length
    · rw [leavesFrom_eq (by omega) (List.getElem?_eq_getElem hlen.1)
        (List.getElem?_eq_getElem hlen.2), List.mem_append] at he
      rcases he with he | he
      · obtain ⟨m, hm, rfl⟩ := List.mem_map.mp he
        exact ⟨i, _, _, m, le_refl i, by omega, List.getElem?_eq_getElem hlen.1,
          List.getElem?_eq_getElem hlen.2, hm, rfl⟩
      · obtain ⟨j, k, c, m, hj, hrest⟩ := ih he (by omega)
        exact ⟨j, k, c, m, by omega, hrest⟩
    · exfalso
      have : leavesFrom subPtr cnt subId i = [] := by
        simp only [leavesFrom]
        rcases Nat.lt_or_ge i subPtr.length with hp | hp
        · have hs : subId.drop i = [] := List.drop_eq_nil_of_le (by omega)
          rw [hs]
          cases subPtr.drop i <;> cases cnt - i <;> rfl
        · rw [List.drop_eq_nil_of_le hp]
          rfl
      simp [this] at he

lemma mem_leavesFrom_of_slot {cap i j : Nat} {k : UInt32} {c : MibNode} {m : Oid × Int}
    (h : GroupShape cap cnt subId subPtr) (hij : i ≤ j) (hj : j < cnt) (hk : subId[j]? = some k)
    (hc : subPtr[j]? = some c) (hm : m ∈ c.leaves) :
    (k :: m.1, m.2) ∈ leavesFrom subPtr cnt subId i := by
  induction hn : j - i generalizing i with
  | zero =>
    obtain rfl : i = j := by omega
    rw [leavesFrom_eq hj hk hc, List.mem_append]
    exact Or.inl (List.mem_map.mpr ⟨m, hm, rfl⟩)
  | succ n ih =>
    obtain ⟨k', c', hk', hc'⟩ := h.exists_sub (i := i) (by omega)
    rw [leavesFrom_eq (by omega) hk' hc', List.mem_append]
    exact Or.inr (ih (by omega) (by omega))

lemma ne_nil_of_mem_leavesList {e : Oid × Int} (he : e ∈ leavesList subPtr cnt subId) :
    e.1 ≠ [] := by
  obtain ⟨_, _, _, _, _, _, _, _, _, rfl⟩ := mem_leavesFrom (i := 0) he
  simp

/-- Slots below the target are not asked. -/
lemma probes_leavesList_skip {cap i : Nat} {x : UInt32} (xs : Oid)
    (h : GroupShape cap cnt subId subPtr) (hi : i ≤ cnt)
    (hbelow : ∀ j k, j < i → subId[j]? = some k → k < x) :
    probes (x :: xs) (leavesList subPtr cnt subId) =
      probes (x :: xs) (leavesFrom subPtr cnt subId i) := by
  induction i with
  | zero => rfl
  | succ i ih =>
    obtain ⟨k, c, hk, hc⟩ := h.exists_sub (i := i) (by omega)
    rw [ih (by omega) fun j k hj => hbelow j k (by omega), leavesFrom_eq (by omega) hk hc,
      probes_under_of_lt xs (hbelow i k (by omega) hk)]

lemma headsAbove_leavesFrom {i : Nat} {x : UInt32}
    (habove : ∀ j k, i ≤ j → j < cnt → subId[j]? = some k → x < k) :
    HeadsAbove x (leavesFrom subPtr cnt subId i) := by
  intro e he
  obtain ⟨j, k, _, m, hij, hj, hk, _, _, rfl⟩ := mem_leavesFrom he
  exact ⟨k, m.1, rfl, habove j k hij hj hk⟩

/-! ### The leaves of a tree -/

namespace MibNode

/-- The leaves of a well-formed node are exactly its instances. -/
lemma WellFormed.mem_leaves_iff {d : Nat} {node : MibNode} (h : WellFormed d node) (p : Oid)
    (cb : Int) : (p, cb) ∈ node.leaves ↔ Occurs node p (.inst cb) := by
  induction p generalizing d node with
  | nil =>
    constructor
    · intro hmem
      match node with
      | .null => simp [leaves] at hmem
      | .inst cb' =>
        obtain rfl : cb = cb' := by simpa [leaves] using hmem
        exact .here _
      | .group cap cnt subId subPtr =>
        rw [leaves] at hmem
        exact absurd rfl (ne_nil_of_mem_leavesList hmem)
    · intro hocc
      cases hocc
      simp [leaves]
  | cons k p ih =>
    constructor
    · intro hmem
      cases node with
      | null => simp [leaves] at hmem
      | inst cb' => simp [leaves] at hmem
      | group cap cnt subId subPtr =>
        obtain ⟨d, rfl⟩ := h.exists_eq_succ
        rw [leaves] at hmem
        obtain ⟨j, k', c, m, _, hj, hk, hc, hm, heq⟩ := mem_leavesFrom (i := 0) hmem
        simp only [Prod.mk.injEq, List.cons.injEq] at heq
        obtain ⟨⟨rfl, rfl⟩, rfl⟩ := heq
        exact .child hj hk hc ((ih (h.child hj hc)).mp hm)
    · intro hocc
      cases hocc with
      | child hi hk hc hocc =>
        obtain ⟨d, rfl⟩ := h.exists_eq_succ
        rw [leaves]
        exact mem_leavesFrom_of_slot (i := 0) (m := (p, cb)) (wellFormed_group.mp h).1
          (Nat.zero_le _) hi hk hc ((ih (h.child hi hc)).mpr hocc)

/-- The leaves of a well-formed node branch off one another in ascending order. -/
lemma WellFormed.leaves_pairwise {d : Nat} {node : MibNode} (h : WellFormed d node) :
    node.leaves.Pairwise fun a b => Before a.1 b.1 := by
  induction d generalizing node with
  | zero =>
    match node with
    | .null => exact absurd h (not_wellFormed_null _)
    | .inst cb => simp [leaves]
    | .group cap cnt subId subPtr => exact absurd h (not_wellFormed_zero_group _ _ _ _)
  | succ d ih =>
    match node with
    | .null => exact absurd h (not_wellFormed_null _)
    | .inst cb => simp [leaves]
    | .group cap cnt subId subPtr =>
      obtain ⟨hshape, _⟩ := wellFormed_group.mp h
      rw [leaves, ← leavesFrom_zero]
      -- the slots from the last one down to the first
      suffices hfrom : ∀ n i, cnt - i = n →
          (leavesFrom subPtr cnt subId i).Pairwise fun a b => Before a.1 b.1 from hfrom _ 0 rfl
      intro n
      induction n with
      | zero =>
        intro i hi
        simp [leavesFrom_of_le (show cnt ≤ i by omega)]
      | succ n ihn =>
        intro i hi
        obtain ⟨k, c, hk, hc⟩ := hshape.exists_sub (i := i) (by omega)
        rw [leavesFrom_eq (by omega) hk hc, List.pairwise_append]
        refine ⟨?_, ihn (i + 1) (by omega), fun a ha b hb => ?_⟩
        · rw [under, List.pairwise_map]
          exact (ih (h.child (by omega) hc)).imp fun hab => Or.inr ⟨rfl, hab⟩
        · obtain ⟨m, _, rfl⟩ := List.mem_map.mp ha
          obtain ⟨j, k', _, m', hj, hjc, hk', _, _, rfl⟩ := mem_leavesFrom hb
          exact Or.inl (hshape.subId_lt (by omega) hjc hk hk')

end MibNode

end SmartSnmp
