import SmartSnmp.Mib.Tree.Leaves

/-!
# What registration and unregistration do to the instances

The tree is a map from OIDs to callbacks: an OID resolves to the instance at one of its prefixes.
Registration adds one binding or nothing, and unregistration removes the bindings at and below an
OID. A group is seen here as the list of its children in use.
-/

namespace SmartSnmp

open ArrayShift MibNode

/-! ### Children -/

section Zip

variable {α β : Type*}

lemma mem_zip_insertIdx {as : List α} {bs : List β} (hlen : as.length = bs.length) {i : Nat}
    (hi : i ≤ as.length) (a : α) (b : β) (p : α × β) :
    p ∈ (as.insertIdx i a).zip (bs.insertIdx i b) ↔ p = (a, b) ∨ p ∈ as.zip bs := by
  induction i generalizing as bs with
  | zero => simp
  | succ i ih =>
    cases as with
    | nil => simp at hi
    | cons a' as =>
      cases bs with
      | nil => simp at hlen
      | cons b' bs =>
        rw [List.insertIdx_succ_cons, List.insertIdx_succ_cons, List.zip_cons_cons, List.zip_cons_cons,
          List.mem_cons, List.mem_cons, ih (by simpa using hlen) (by simpa using hi)]
        exact or_left_comm

lemma zip_eraseIdx (as : List α) (bs : List β) (i : Nat) :
    (as.eraseIdx i).zip (bs.eraseIdx i) = (as.zip bs).eraseIdx i := by
  induction i generalizing as bs with
  | zero => cases as <;> cases bs <;> simp
  | succ i ih =>
    cases as with
    | nil => simp
    | cons a as =>
      cases bs with
      | nil => simp
      | cons b bs => simp [ih]

end Zip

/-- The children of a group that are in use, with their sub-identifiers. -/
def children (cnt : Nat) (subId : List UInt32) (subPtr : List MibNode) : List (UInt32 × MibNode) :=
  (subId.take cnt).zip (subPtr.take cnt)

section Children

variable {cap cnt : Nat} {subId : List UInt32} {subPtr : List MibNode}

lemma getElem?_children {i : Nat} {k : UInt32} {c : MibNode} :
    (children cnt subId subPtr)[i]? = some (k, c) ↔
      i < cnt ∧ subId[i]? = some k ∧ subPtr[i]? = some c := by
  simp only [children, List.getElem?_zip_eq_some, List.getElem?_take]
  by_cases hi : i < cnt <;> simp [hi]

lemma mem_children {k : UInt32} {c : MibNode} :
    (k, c) ∈ children cnt subId subPtr ↔
      ∃ i, i < cnt ∧ subId[i]? = some k ∧ subPtr[i]? = some c := by
  simp only [List.mem_iff_getElem?, getElem?_children]

lemma occurs_group_iff {p : Oid} {n : MibNode} :
    Occurs (.group cap cnt subId subPtr) p n ↔
      (p = [] ∧ n = .group cap cnt subId subPtr) ∨
        ∃ k c t, (k, c) ∈ children cnt subId subPtr ∧ p = k :: t ∧ Occurs c t n := by
  constructor
  · intro h
    cases h with
    | here => exact .inl ⟨rfl, rfl⟩
    | child hi hk hc h => exact .inr ⟨_, _, _, mem_children.mpr ⟨_, hi, hk, hc⟩, rfl, h⟩
  · rintro (⟨rfl, rfl⟩ | ⟨k, c, t, hkc, rfl, h⟩)
    · exact .here _
    · obtain ⟨i, hi, hk, hc⟩ := mem_children.mp hkc
      exact .child hi hk hc h

lemma occurs_cons_iff {x : UInt32} {t : Oid} {n : MibNode} :
    Occurs (.group cap cnt subId subPtr) (x :: t) n ↔
      ∃ c, (x, c) ∈ children cnt subId subPtr ∧ Occurs c t n := by
  rw [occurs_group_iff]
  constructor
  · rintro (⟨h, -⟩ | ⟨k, c, t', hkc, h, hocc⟩)
    · simp at h
    · obtain ⟨rfl, rfl⟩ := List.cons_eq_cons.mp h
      exact ⟨c, hkc, hocc⟩
  · rintro ⟨c, hkc, hocc⟩
    exact .inr ⟨x, c, t, hkc, rfl, hocc⟩

/-- No node at an OID, seen from the group above it. -/
lemma noNode_cons_iff {x : UInt32} {xs : Oid} :
    (∀ n, ¬ Occurs (.group cap cnt subId subPtr) (x :: xs) n) ↔
      ∀ c, (x, c) ∈ children cnt subId subPtr → ∀ n, ¬ Occurs c xs n := by
  simp only [occurs_cons_iff]
  constructor
  · intro hno c hc n hocc
    exact hno n ⟨c, hc, hocc⟩
  · rintro hno n ⟨c, hc, hocc⟩
    exact hno c hc n hocc

/-- No instance on the way to an OID, seen from the group above it. -/
lemma noInst_cons_iff {x : UInt32} {xs : Oid} :
    (∀ p cb, p <+: x :: xs → ¬ Occurs (.group cap cnt subId subPtr) p (.inst cb)) ↔
      ∀ c, (x, c) ∈ children cnt subId subPtr → ∀ p cb, p <+: xs → ¬ Occurs c p (.inst cb) := by
  constructor
  · intro hno c hc p cb hp hocc
    exact hno (x :: p) cb (List.cons_prefix_cons.mpr ⟨rfl, hp⟩) (occurs_cons_iff.mpr ⟨c, hc, hocc⟩)
  · intro hno p cb hp hocc
    cases p with
    | nil => simp [occurs_group_iff] at hocc
    | cons k t =>
      obtain ⟨rfl, ht⟩ := List.cons_prefix_cons.mp hp
      obtain ⟨c, hc, hocc⟩ := occurs_cons_iff.mp hocc
      exact hno c hc t cb ht hocc

lemma GroupShape.children_inj (h : GroupShape cap cnt subId subPtr) {k : UInt32} {c c' : MibNode}
    (hc : (k, c) ∈ children cnt subId subPtr) (hc' : (k, c') ∈ children cnt subId subPtr) :
    c = c' := by
  obtain ⟨i, hi, hik, hic⟩ := mem_children.mp hc
  obtain ⟨j, hj, hjk, hjc⟩ := mem_children.mp hc'
  obtain rfl := h.index_inj hi hj hik hjk
  exact Option.some.inj (hic.symm.trans hjc)

/-- Another child in a slot in use. -/
lemma GroupShape.mem_children_set (h : GroupShape cap cnt subId subPtr) {i : Nat} (hi : i < cnt)
    {x : UInt32} (hx : subId[i]? = some x) {new : MibNode} {k : UInt32} {c : MibNode} :
    (k, c) ∈ children cnt subId (subPtr.set i new) ↔
      k ≠ x ∧ (k, c) ∈ children cnt subId subPtr ∨ k = x ∧ c = new := by
  have hlen : i < subPtr.length := by
    have := h.cnt_le_subPtr
    omega
  constructor
  · intro hc
    obtain ⟨j, hj, hjk, hjc⟩ := mem_children.mp hc
    by_cases hji : j = i
    · subst hji
      rw [List.getElem?_set_self hlen] at hjc
      exact .inr ⟨Option.some.inj (hjk.symm.trans hx), (Option.some.inj hjc).symm⟩
    · rw [List.getElem?_set_ne (Ne.symm hji)] at hjc
      refine .inl ⟨?_, mem_children.mpr ⟨j, hj, hjk, hjc⟩⟩
      rintro rfl
      exact hji (h.index_inj hj hi hjk hx)
  · rintro (⟨hk, hc⟩ | ⟨rfl, rfl⟩)
    · obtain ⟨j, hj, hjk, hjc⟩ := mem_children.mp hc
      have hji : i ≠ j := by
        rintro rfl
        exact hk (Option.some.inj (hjk.symm.trans hx))
      exact mem_children.mpr ⟨j, hj, hjk, by rw [List.getElem?_set_ne hji, hjc]⟩
    · exact mem_children.mpr ⟨i, hi, hx, by rw [List.getElem?_set_self hlen]⟩

lemma MibNode.WellFormed.of_mem_children {d : Nat} (h : WellFormed (d + 1) (.group cap cnt subId subPtr))
    {k : UInt32} {c : MibNode} (hc : (k, c) ∈ children cnt subId subPtr) : WellFormed d c := by
  obtain ⟨i, hi, -, hic⟩ := mem_children.mp hc
  exact h.child hi hic

end Children

/-! ### Insertion -/

/-- What goes into a slot that is new in a group, for the sub-identifiers after it. -/
def freshNode (callback : Int) (xs : Oid) : MibNode × InsertResult :=
  if xs.isEmpty then (.inst callback, .inserted)
  else mibTreeInstanceInsert callback mibGroupNodeNew xs

/-- Below a new group nothing is in the way. -/
lemma freshNode_inserted (callback : Int) (xs : Oid) : (freshNode callback xs).2 = .inserted := by
  induction xs with
  | nil => rfl
  | cons x xs ih => exact ih

section InsertGroup

variable {cap cnt : Nat} {subId : List UInt32} {subPtr : List MibNode}

/-- The first child of an empty group. -/
lemma instanceInsert_raw (hshape : GroupShape cap cnt subId subPtr) (hraw : isRawGroup cnt subId = true)
    (callback : Int) (x : UInt32) (xs : Oid) :
    mibTreeInstanceInsert callback (.group cap cnt subId subPtr) (x :: xs) =
      (.group cap (cnt + 1) (subId.set 0 x) (subPtr.set 0 (freshNode callback xs).1),
        (freshNode callback xs).2) ∧
    (∀ k c, (k, c) ∉ children cnt subId subPtr) ∧
    ∀ k c, (k, c) ∈ children (cnt + 1) (subId.set 0 x) (subPtr.set 0 (freshNode callback xs).1) ↔
      k = x ∧ c = (freshNode callback xs).1 := by
  have h0 := hshape.isRawGroup_iff.mp hraw
  refine ⟨?_, fun k c hc => ?_, fun k c => ?_⟩
  · rw [mibTreeInstanceInsert]
    simp only [hraw, if_true]
    rfl
  · obtain ⟨i, hi, -⟩ := mem_children.mp hc
    omega
  · have hids : (subId.set 0 x).take (cnt + 1) = [x] := by
      have := hshape.cap_pos
      have hlen := hshape.subId_length
      cases subId with
      | nil => simp at hlen; omega
      | cons a as => simp [h0]
    rw [children, hids, hshape.take_fill_raw h0]
    simp

/-- The insertion goes on below the child that is there. -/
lemma instanceInsert_child (hshape : GroupShape cap cnt subId subPtr)
    (hraw : isRawGroup cnt subId = false) {i : Nat} (hi : i < cnt) {x : UInt32}
    (hx : subId[i]? = some x) (heq : oidBinarySearch subId cnt x = i) (callback : Int) (xs : Oid) :
    ∃ c, (x, c) ∈ children cnt subId subPtr ∧
      mibTreeInstanceInsert callback (.group cap cnt subId subPtr) (x :: xs) =
        (.group cap cnt subId (subPtr.set i (mibTreeInstanceInsert callback c xs).1),
          (mibTreeInstanceInsert callback c xs).2) ∧
      subPtr.set i c = subPtr := by
  obtain ⟨_, c, _, hc⟩ := hshape.exists_sub hi
  refine ⟨c, mem_children.mpr ⟨i, hi, hx, hc⟩, ?_, ?_⟩
  · rw [mibTreeInstanceInsert]
    simp only [hraw, Bool.false_eq_true, if_false, heq, Int.natCast_nonneg, Int.toNat_natCast, if_true,
      List.getD_eq_getElem?_getD, hc, Option.getD_some]
  · obtain ⟨_, hci⟩ := List.getElem?_eq_some_iff.mp hc
    rw [← hci, List.set_getElem_self]

/-- A sub-identifier that the search places at slot `i`. -/
lemma instanceInsert_absent (hraw : isRawGroup cnt subId = false) {i : Nat} {x : UInt32}
    (heq : oidBinarySearch subId cnt x = -(i : Int) - 1) (callback : Int) (xs : Oid) :
    mibTreeInstanceInsert callback (.group cap cnt subId subPtr) (x :: xs) =
      (.group (groupNodeExpand cap cnt subId subPtr i).1 (cnt + 1)
        ((groupNodeExpand cap cnt subId subPtr i).2.1.set i x)
        ((groupNodeExpand cap cnt subId subPtr i).2.2.set i (freshNode callback xs).1),
      (freshNode callback xs).2) := by
  have hidx : (-(-(i : Int) - 1) - 1).toNat = i := by omega
  rw [mibTreeInstanceInsert]
  simp only [hraw, Bool.false_eq_true, if_false, heq, hidx,
    if_neg (show ¬ (0 : Int) ≤ -(i : Int) - 1 by omega)]
  rfl

/-- A new child goes in front of slot `i`. -/
lemma instanceInsert_fresh (hshape : GroupShape cap cnt subId subPtr)
    (hraw : isRawGroup cnt subId = false) {i : Nat} (hi : i ≤ cnt) {x : UInt32}
    (hno : ∀ c, (x, c) ∉ children cnt subId subPtr)
    (heq : oidBinarySearch subId cnt x = -(i : Int) - 1) (callback : Int) (xs : Oid) :
    ∃ cap' subId' subPtr', mibTreeInstanceInsert callback (.group cap cnt subId subPtr) (x :: xs) =
        (.group cap' (cnt + 1) subId' subPtr', (freshNode callback xs).2) ∧
      ∀ k c, (k, c) ∈ children (cnt + 1) subId' subPtr' ↔
        k ≠ x ∧ (k, c) ∈ children cnt subId subPtr ∨ k = x ∧ c = (freshNode callback xs).1 := by
  refine ⟨(groupNodeExpand cap cnt subId subPtr i).1,
    (groupNodeExpand cap cnt subId subPtr i).2.1.set i x,
    (groupNodeExpand cap cnt subId subPtr i).2.2.set i (freshNode callback xs).1,
    instanceInsert_absent hraw heq callback xs, fun k e => ?_⟩
  obtain ⟨hids, hptrs⟩ := take_groupNodeExpand hshape hi x (freshNode callback xs).1
  have hlen : (subId.take cnt).length = cnt := by simp [hshape.cnt_le_subId]
  have hlen' : (subPtr.take cnt).length = cnt := by simp [hshape.cnt_le_subPtr]
  rw [children, hids, hptrs, mem_zip_insertIdx (by rw [hlen, hlen']) (by omega)]
  constructor
  · rintro (he | he)
    · exact .inr (Prod.mk.injEq .. ▸ he)
    · refine .inl ⟨?_, he⟩
      rintro rfl
      exact hno e he
  · rintro (⟨-, he⟩ | ⟨rfl, rfl⟩)
    · exact .inr he
    · exact .inl rfl

/-- One step of the insertion: the child at `x` is the only one that changes, if there is one, and
one is added if there is none. -/
lemma instanceInsert_group (hshape : GroupShape cap cnt subId subPtr) (callback : Int) (x : UInt32)
    (xs : Oid) :
    ∃ cap' cnt' subId' subPtr' new r,
      mibTreeInstanceInsert callback (.group cap cnt subId subPtr) (x :: xs) =
        (.group cap' cnt' subId' subPtr', r) ∧
      (∀ k c, (k, c) ∈ children cnt' subId' subPtr' ↔
        k ≠ x ∧ (k, c) ∈ children cnt subId subPtr ∨ k = x ∧ c = new) ∧
      ((∃ c, (x, c) ∈ children cnt subId subPtr ∧
          mibTreeInstanceInsert callback c xs = (new, r) ∧
          (new = c → MibNode.group cap' cnt' subId' subPtr' = .group cap cnt subId subPtr)) ∨
        (∀ c, (x, c) ∉ children cnt subId subPtr) ∧ freshNode callback xs = (new, r)) := by
  cases hraw : isRawGroup cnt subId with
  | true =>
    obtain ⟨hins, hno, hkids⟩ := instanceInsert_raw hshape hraw callback x xs
    exact ⟨cap, cnt + 1, _, _, (freshNode callback xs).1, (freshNode callback xs).2, hins,
      fun k c => by simp [hkids, hno], .inr ⟨hno x, rfl⟩⟩
  | false =>
    rcases hshape.binarySearch_cases x with ⟨i, hi, hx, heq⟩ | ⟨i, hi, hb, ha, heq⟩
    · obtain ⟨c, hxc, hins, hset⟩ := instanceInsert_child hshape hraw hi hx heq callback xs
      refine ⟨cap, cnt, subId, _, (mibTreeInstanceInsert callback c xs).1,
        (mibTreeInstanceInsert callback c xs).2, hins, fun k e => hshape.mem_children_set hi hx,
        .inl ⟨c, hxc, rfl, fun hnew => ?_⟩⟩
      rw [hnew, hset]
    · have hno : ∀ c, (x, c) ∉ children cnt subId subPtr := by
        intro c hc
        obtain ⟨j, hj, hjx, -⟩ := mem_children.mp hc
        exact getElem?_ne_of_split hb ha hj hjx
      obtain ⟨cap', subId', subPtr', hins, hkids⟩ :=
        instanceInsert_fresh hshape hraw hi hno heq callback xs
      exact ⟨cap', cnt + 1, subId', subPtr', (freshNode callback xs).1, (freshNode callback xs).2, hins,
        hkids, .inr ⟨hno, rfl⟩⟩

end InsertGroup

lemma occurs_inst_iff {callback cb : Int} {p : Oid} :
    Occurs (.inst callback) p (.inst cb) ↔ p = [] ∧ cb = callback := by
  constructor
  · intro h
    cases h with
    | here => exact ⟨rfl, rfl⟩
  · rintro ⟨rfl, rfl⟩
    exact .here _

/-- A new group below which the sub-identifiers that are left go on. -/
lemma freshNode_cons (callback : Int) (y : UInt32) (ys : Oid) :
    (freshNode callback (y :: ys)).1 = .group 1 1 [y] [(freshNode callback ys).1] := rfl

/-- The only instance of a new node. -/
lemma freshNode_occurs (callback : Int) (xs p : Oid) (cb : Int) :
    Occurs (freshNode callback xs).1 p (.inst cb) ↔ p = xs ∧ cb = callback := by
  induction xs generalizing p with
  | nil => exact occurs_inst_iff
  | cons y ys ih =>
    rw [freshNode_cons]
    cases p with
    | nil => simp [occurs_group_iff]
    | cons k t =>
      simp only [occurs_cons_iff, children, List.take_succ_cons, List.take_zero, List.zip_cons_cons,
        List.zip_nil_right, List.mem_singleton, Prod.mk.injEq, List.cons.injEq]
      constructor
      · rintro ⟨c, ⟨rfl, rfl⟩, hocc⟩
        obtain ⟨rfl, rfl⟩ := (ih t).mp hocc
        exact ⟨⟨rfl, rfl⟩, rfl⟩
      · rintro ⟨⟨rfl, rfl⟩, rfl⟩
        exact ⟨_, ⟨rfl, rfl⟩, (ih t).mpr ⟨rfl, rfl⟩⟩

section Insert

variable (callback : Int)

/-- A failed insertion changes nothing. -/
lemma instanceInsert_unchanged (oid : Oid) {d : Nat} {node : MibNode} (h : WellFormed d node)
    (hbad : (mibTreeInstanceInsert callback node oid).2 = .badTraversal) :
    (mibTreeInstanceInsert callback node oid).1 = node := by
  induction oid generalizing d node with
  | nil => rfl
  | cons x xs ih =>
    cases node with
    | null => exact absurd h (not_wellFormed_null _)
    | inst cb => rfl
    | group cap cnt subId subPtr =>
      obtain ⟨d, rfl⟩ := h.exists_eq_succ
      obtain ⟨cap', cnt', subId', subPtr', new, r, heq, -, hcases⟩ :=
        instanceInsert_group (wellFormed_group.mp h).1 callback x xs
      rw [heq] at hbad ⊢
      obtain rfl : r = .badTraversal := hbad
      rcases hcases with ⟨c, hc, hnew, hsame⟩ | ⟨-, hnew⟩
      · have hc' := ih (h.of_mem_children hc) (by rw [hnew])
        rw [hnew] at hc'
        exact hsame hc'
      · have hr := freshNode_inserted callback xs
        rw [hnew] at hr
        simp at hr

/-- The instances after an insertion. -/
lemma instanceInsert_occurs (oid : Oid) {d : Nat} {node : MibNode} (h : WellFormed d node)
    (hins : (mibTreeInstanceInsert callback node oid).2 = .inserted) (p : Oid) (cb : Int) :
    Occurs (mibTreeInstanceInsert callback node oid).1 p (.inst cb) ↔
      Occurs node p (.inst cb) ∨ p = oid ∧ cb = callback := by
  induction oid generalizing d node p with
  | nil => simp [mibTreeInstanceInsert] at hins
  | cons x xs ih =>
    cases node with
    | null => exact absurd h (not_wellFormed_null _)
    | inst cb => simp [mibTreeInstanceInsert] at hins
    | group cap cnt subId subPtr =>
      obtain ⟨d, rfl⟩ := h.exists_eq_succ
      obtain ⟨cap', cnt', subId', subPtr', new, r, heq, hkids, hcases⟩ :=
        instanceInsert_group (wellFormed_group.mp h).1 callback x xs
      rw [heq] at hins ⊢
      obtain rfl : r = .inserted := hins
      -- the instances below the child at `x`
      have hnew : ∀ t, Occurs new t (.inst cb) ↔
          Occurs (.group cap cnt subId subPtr) (x :: t) (.inst cb) ∨ t = xs ∧ cb = callback := by
        intro t
        rw [occurs_cons_iff]
        rcases hcases with ⟨c, hc, hnew, -⟩ | ⟨hno, hnew⟩
        · have hc' := ih (h.of_mem_children hc) (by rw [hnew]) t
          rw [hnew] at hc'
          rw [hc']
          refine or_congr_left ⟨fun ht => ⟨c, hc, ht⟩, ?_⟩
          rintro ⟨c', hc', ht⟩
          rwa [(wellFormed_group.mp h).1.children_inj hc hc']
        · have hnone : ¬ ∃ c, (x, c) ∈ children cnt subId subPtr ∧ Occurs c t (.inst cb) := by
            rintro ⟨c, hc, _⟩
            exact hno c hc
          obtain rfl : (freshNode callback xs).1 = new := congrArg Prod.fst hnew
          rw [or_iff_right hnone, freshNode_occurs]
      cases p with
      | nil =>
        simp [occurs_group_iff]
      | cons k t =>
        rw [occurs_cons_iff]
        by_cases hk : k = x
        · subst hk
          simp [hkids, hnew t]
        · simp [hkids, hk, occurs_cons_iff]

/-- An insertion succeeds if there is no node at the OID, and no instance on the way to it. -/
lemma instanceInsert_inserted_iff (oid : Oid) {d : Nat} {node : MibNode} (h : WellFormed d node) :
    (mibTreeInstanceInsert callback node oid).2 = .inserted ↔
      (∀ n, ¬ Occurs node oid n) ∧ ∀ p cb, p <+: oid → ¬ Occurs node p (.inst cb) := by
  induction oid generalizing d node with
  | nil =>
    simp only [mibTreeInstanceInsert, reduceCtorEq, false_iff]
    intro hno
    exact hno.1 node (.here node)
  | cons x xs ih =>
    cases node with
    | null => exact absurd h (not_wellFormed_null _)
    | inst cb =>
      simp only [mibTreeInstanceInsert, reduceCtorEq, false_iff]
      intro hno
      exact hno.2 [] cb List.nil_prefix (.here _)
    | group cap cnt subId subPtr =>
      obtain ⟨d, rfl⟩ := h.exists_eq_succ
      obtain ⟨cap', cnt', subId', subPtr', new, r, heq, -, hcases⟩ :=
        instanceInsert_group (wellFormed_group.mp h).1 callback x xs
      rw [heq]
      rw [noInst_cons_iff, noNode_cons_iff]
      rcases hcases with ⟨c, hc, hnew, -⟩ | ⟨hno, hnew⟩
      · have hc' := ih (h.of_mem_children hc)
        rw [hnew] at hc'
        rw [hc']
        constructor
        · rintro ⟨h₁, h₂⟩
          refine ⟨fun c' hc' => ?_, fun c' hc' => ?_⟩ <;>
            rw [(wellFormed_group.mp h).1.children_inj hc' hc]
          · exact h₁
          · exact h₂
        · rintro ⟨h₁, h₂⟩
          exact ⟨h₁ c hc, h₂ c hc⟩
      · have hr := freshNode_inserted callback xs
        rw [hnew] at hr
        exact iff_of_true hr ⟨fun c hc => absurd hc (hno c), fun c hc => absurd hc (hno c)⟩

end Insert

/-! ### Registration -/

/-- An OID resolves to the instance at a prefix of it, with the sub-identifiers after that. -/
def ResolvesTo (root : MibNode) (oid : Oid) (cb : Int) (suffix : Oid) : Prop :=
  ∃ p, oid = p ++ suffix ∧ Occurs root p (.inst cb)

/-- How `mib_node_reg` ends, by the result of the insertion. -/
lemma RootOk.reg_cases {root : MibNode} (h : RootOk root) (oid : Oid) (callback : Int) :
    (mibNodeReg root oid callback = .ok (root, -1) ∧
      (oid.length = 0 ∨ mibOidMaxLen < oid.length ∨
        (mibTreeInstanceInsert callback root oid).2 = .badTraversal)) ∨
    (mibNodeReg root oid callback = .ok ((mibTreeInstanceInsert callback root oid).1, 0) ∧
      0 < oid.length ∧ oid.length ≤ mibOidMaxLen ∧
      (mibTreeInstanceInsert callback root oid).2 = .inserted) := by
  simp only [mibNodeReg]
  split_ifs with h0 hmax
  · exact .inl ⟨rfl, .inl h0⟩
  · exact .inl ⟨rfl, .inr (.inl hmax)⟩
  · obtain ⟨-, hnf⟩ := h.1.instanceInsert callback oid (by omega)
    have hsame := instanceInsert_unchanged callback oid h.1
    rcases hins : mibTreeInstanceInsert callback root oid with ⟨root', r⟩
    rw [hins] at hnf hsame
    cases r with
    | inserted => exact .inr ⟨rfl, by omega, by omega, rfl⟩
    | badTraversal =>
      obtain rfl : root' = root := hsame rfl
      exact .inl ⟨rfl, .inr (.inr rfl)⟩
    | fault => exact absurd rfl hnf

/-- Registration adds exactly one binding or nothing. -/
theorem mibNodeReg_binds {root : MibNode} (hreach : Reachable root) (oid : Oid) (callback : Int) :
    ∃ root' code, mibNodeReg root oid callback = .ok (root', code) ∧ (code = 0 ∨ code = -1) ∧
      (code = 0 →
        (∀ o, oid <+: o → ∀ cb s, ResolvesTo root' o cb s ↔ cb = callback ∧ o = oid ++ s) ∧
        ∀ o, ¬ oid <+: o → ∀ cb s, ResolvesTo root' o cb s ↔ ResolvesTo root o cb s) ∧
      (code = -1 → root' = root) := by
  have h := hreach.rootOk
  rcases h.reg_cases oid callback with ⟨heq, -⟩ | ⟨heq, -, hmax, hins⟩
  · exact ⟨root, -1, heq, .inr rfl, by simp, fun _ => rfl⟩
  · have hocc := instanceInsert_occurs callback oid h.1 hins
    have hw := (h.1.instanceInsert callback oid hmax).1
    refine ⟨_, 0, heq, .inl rfl, fun _ => ⟨fun o ho cb s => ?_, fun o ho cb s => ?_⟩, by simp⟩
    · have hnew : Occurs (mibTreeInstanceInsert callback root oid).1 oid (.inst callback) :=
        (hocc oid callback).mpr (.inr ⟨rfl, rfl⟩)
      constructor
      · rintro ⟨p, rfl, hp⟩
        -- two prefixes of one OID, of which neither can be longer
        rcases List.prefix_or_prefix_of_prefix ho (List.prefix_append p s) with ⟨t, rfl⟩ | ⟨t, rfl⟩
        · obtain ⟨rfl, hcb⟩ := hw.occurs_inst_unique hnew hp
          exact ⟨MibNode.inst.inj hcb, by simp⟩
        · obtain ⟨rfl, hcb⟩ := hw.occurs_inst_unique hp hnew
          exact ⟨(MibNode.inst.inj hcb).symm, by simp⟩
      · rintro ⟨rfl, rfl⟩
        exact ⟨oid, rfl, hnew⟩
    · constructor
      · rintro ⟨p, rfl, hp⟩
        rcases (hocc p cb).mp hp with hp | ⟨rfl, -⟩
        · exact ⟨p, rfl, hp⟩
        · exact absurd (List.prefix_append p s) ho
      · rintro ⟨p, rfl, hp⟩
        exact ⟨p, rfl, (hocc p cb).mpr (.inl hp)⟩

theorem mibNodeReg_binds_second :
    ∃ root root', Reachable root ∧ mibNodeReg root [1, 3] 7 = .ok (root', 0) ∧
      ResolvesTo root' [1, 3, 0] 7 [0] ∧ (ResolvesTo root' [1, 2] 5 [] ↔ ResolvesTo root [1, 2] 5 []) := by
  have hreach : Reachable _ := ⟨[.reg [1, 2] 5], rfl⟩
  obtain ⟨root', code, heq, -, hbinds, -⟩ := mibNodeReg_binds hreach [1, 3] 7
  obtain rfl : (0 : Int) = code := (Prod.mk.inj (Outcome.ok.inj heq)).2
  obtain ⟨hnew, hold⟩ := hbinds rfl
  exact ⟨_, root', hreach, heq, (hnew [1, 3, 0] (by decide) 7 [0]).mpr ⟨rfl, rfl⟩,
    hold [1, 2] (by decide) 5 []⟩

/-! ### Conflicts -/

/-- A registered OID is equal to the OID, a prefix of it or an extension of it. -/
def Conflicts (root : MibNode) (oid : Oid) : Prop :=
  ∃ p cb, Occurs root p (.inst cb) ∧ (p <+: oid ∨ oid <+: p)

/-- A node without instances is at the OID: a group that unregistrations have left empty. -/
def EmptyAt (root : MibNode) (oid : Oid) : Prop := ∃ node, Occurs root oid node ∧ node.leaves = []

namespace MibNode

lemma Occurs.append {root c node : MibNode} {p q : Oid} (hp : Occurs root p c)
    (hq : Occurs c q node) : Occurs root (p ++ q) node := by
  induction hp with
  | here => exact hq
  | child hi hk hc _ ih => exact .child hi hk hc (ih hq)

lemma Occurs.of_append {root node : MibNode} {p q : Oid} (h : Occurs root (p ++ q) node) :
    ∃ c, Occurs root p c ∧ Occurs c q node := by
  induction p generalizing root with
  | nil => exact ⟨root, .here root, h⟩
  | cons k p ih =>
    cases h with
    | child hi hk hc h =>
      obtain ⟨c, hp, hq⟩ := ih h
      exact ⟨c, .child hi hk hc hp, hq⟩

/-- An OID leads to one node. -/
lemma WellFormed.occurs_unique {d : Nat} {root a b : MibNode} {p : Oid} (h : WellFormed d root)
    (ha : Occurs root p a) (hb : Occurs root p b) : a = b := by
  induction ha generalizing d with
  | here =>
    cases hb with
    | here => rfl
  | @child cap cnt subId subPtr i k c path node hi hk hc _ ih =>
    obtain ⟨d, rfl⟩ := h.exists_eq_succ
    cases hb with
    | @child _ _ _ _ j _ c' _ _ hj hk' hc' hb =>
      obtain rfl := (wellFormed_group.mp h).1.index_inj hi hj hk hk'
      obtain rfl : c = c' := Option.some.inj (hc.symm.trans hc')
      exact ih (h.child hi hc) hb

end MibNode

/-- A registration succeeds if there is no node at the OID and no instance ahead of it. -/
lemma mibNodeReg_succeeds_iff {root : MibNode} (h : RootOk root) {oid : Oid} (hpos : 1 ≤ oid.length)
    (hmax : oid.length ≤ 64) (callback : Int) :
    (∃ root', mibNodeReg root oid callback = .ok (root', 0)) ↔
      (∀ n, ¬ Occurs root oid n) ∧ ∀ p cb, p <+: oid → ¬ Occurs root p (.inst cb) := by
  rw [← instanceInsert_inserted_iff callback oid h.1]
  rcases h.reg_cases oid callback with ⟨heq, h0 | h0 | hbad⟩ | ⟨heq, -, -, hins⟩
  · omega
  · exact absurd hmax (Nat.not_le.mpr h0)
  · simp [heq, hbad]
  · simp [heq, hins]

/-- Registration succeeds exactly when there is no conflict, unless an empty group is at the OID. -/
theorem mibNodeReg_iff_conflictFree (ops : List TreeOp) {root : MibNode}
    (hrun : runTree mibInit ops = .ok root) {oid : Oid} (hpos : 1 ≤ oid.length)
    (hmax : oid.length ≤ 64) (callback : Int) :
    ((∃ root', mibNodeReg root oid callback = .ok (root', 0)) ↔ ¬ Conflicts root oid) ↔
      ¬ EmptyAt root oid := by
  have h : RootOk root := Reachable.rootOk ⟨ops, hrun⟩
  rw [mibNodeReg_succeeds_iff h hpos hmax]
  constructor
  · -- an empty group is no conflict, but in the way
    rintro hiff ⟨node, hnode, hleaves⟩
    have hfree : ¬ Conflicts root oid := by
      rintro ⟨p, cb, hp, ⟨t, rfl⟩ | ⟨t, rfl⟩⟩
      · obtain ⟨rfl, rfl⟩ := h.1.occurs_inst_unique hp hnode
        simp [leaves] at hleaves
      · obtain ⟨c, hc, ht⟩ := Occurs.of_append hp
        obtain rfl := h.1.occurs_unique hnode hc
        have hmem := ((h.1.occurs hnode).2.mem_leaves_iff t cb).mpr ht
        simp [hleaves] at hmem
    exact (hiff.mpr hfree).1 node hnode
  · intro hempty
    constructor
    · rintro ⟨hno, hpre⟩ ⟨p, cb, hp, hpo | ⟨t, rfl⟩⟩
      · exact hpre p cb hpo hp
      · obtain ⟨c, hc, -⟩ := Occurs.of_append hp
        exact hno c hc
    · intro hfree
      refine ⟨fun n hn => ?_, fun p cb hp hocc => hfree ⟨p, cb, hocc, .inl hp⟩⟩
      have hleaves : n.leaves ≠ [] := fun hnil => hempty ⟨n, hn, hnil⟩
      obtain ⟨⟨t, cb⟩, ht⟩ := List.exists_mem_of_ne_nil _ hleaves
      have hocc := hn.append (((h.1.occurs hn).2.mem_leaves_iff t cb).mp ht)
      exact hfree ⟨oid ++ t, cb, hocc, .inr (List.prefix_append oid t)⟩

/-- Registrations, of which two are removed again: the second removal leaves a group empty. -/
def removals : List TreeOp :=
  [.reg [1, 2, 3] 5, .reg [1, 2, 4] 6, .reg [1, 3, 1] 8, .unreg [1, 2, 3], .unreg [1, 3, 1]]

/-- The tree after them. -/
def afterRemovals : MibNode :=
  .group 1 1 [1] [.group 4 2 [2, 3, 0, 0]
    [.group 4 1 [4, 4, 0, 0] [.inst 6, .inst 6, .null, .null], .group 1 0 [0] [.null], .null, .null]]

lemma runTree_removals : runTree mibInit removals = .ok afterRemovals := rfl

/-- The OID of the first instance that was removed is free again. That of the group which was left
empty is in conflict with nothing either, but refused. -/
theorem mibNodeReg_iff_conflictFree_removals :
    runTree mibInit removals = .ok afterRemovals ∧
      (∃ root', mibNodeReg afterRemovals [1, 2, 3] 7 = .ok (root', 0)) ∧
      ¬ Conflicts afterRemovals [1, 2, 3] ∧ EmptyAt afterRemovals [1, 3] ∧
      ¬ ((∃ root', mibNodeReg afterRemovals [1, 3] 7 = .ok (root', 0)) ↔
        ¬ Conflicts afterRemovals [1, 3]) := by
  have hfree : ¬ EmptyAt afterRemovals [1, 2, 3] := by
    rintro ⟨node, hnode, -⟩
    exact ((mibNodeReg_succeeds_iff (Reachable.rootOk ⟨removals, runTree_removals⟩) (by decide)
      (by decide) 7).mp ⟨_, rfl⟩).1 node hnode
  have hempty : EmptyAt afterRemovals [1, 3] :=
    ⟨.group 1 0 [0] [.null], .child (i := 0) (by decide) rfl rfl
      (.child (i := 1) (by decide) rfl rfl (.here _)), rfl⟩
  refine ⟨runTree_removals, ⟨_, rfl⟩, ?_, hempty, fun hiff => ?_⟩
  · exact ((mibNodeReg_iff_conflictFree removals runTree_removals (by decide) (by decide) 7).mpr
      hfree).mp ⟨_, rfl⟩
  · exact (mibNodeReg_iff_conflictFree removals runTree_removals (by decide) (by decide) 7).mp hiff
      hempty

/-- A group that was left empty refuses an OID that is in conflict with nothing. -/
theorem emptied_group_refuses :
    ∃ root, runTree mibInit [.reg [1, 2, 3] 5, .unreg [1, 2, 3]] = .ok root ∧
      mibNodeReg root [1, 2] 7 = .ok (root, -1) ∧
      ¬ ((∃ root', mibNodeReg root [1, 2] 7 = .ok (root', 0)) ↔ ¬ Conflicts root [1, 2]) := by
  refine ⟨_, rfl, rfl, ?_⟩
  intro hiff
  have hfree := hiff.mpr fun ⟨p, cb, hp, _⟩ => by
    have hroot := Reachable.rootOk ⟨[.reg [1, 2, 3] 5, .unreg [1, 2, 3]], rfl⟩
    have hmem := (hroot.1.mem_leaves_iff p cb).mpr hp
    change (p, cb) ∈ [] at hmem
    simp at hmem
  obtain ⟨root', hreg⟩ := hfree
  have hcode : (-1 : Int) = 0 := (Prod.mk.inj (Outcome.ok.inj hreg)).2
  omega

/-! ### Unregistration -/

section Shrink

variable {cap cnt : Nat} {subId : List UInt32} {subPtr : List MibNode}

/-- `group_node_shrink` takes away the child at the slot. -/
lemma groupNodeShrink_group (hshape : GroupShape cap cnt subId subPtr) {index : Nat} {x : UInt32}
    (hi : index < cnt) (hx : subId[index]? = some x) :
    ∃ cap' cnt' subId' subPtr', groupNodeShrink index (.group cap cnt subId subPtr) =
        .group cap' cnt' subId' subPtr' ∧
      ∀ k c, (k, c) ∈ children cnt' subId' subPtr' ↔ (k, c) ∈ children cnt subId subPtr ∧ k ≠ x := by
  have hmem : ∀ k c, (k, c) ∈ (children cnt subId subPtr).eraseIdx index ↔
      (k, c) ∈ children cnt subId subPtr ∧ k ≠ x := by
    intro k c
    simp only [List.mem_eraseIdx_iff_getElem?, getElem?_children, mem_children]
    constructor
    · rintro ⟨j, hji, hj, hk, hc⟩
      refine ⟨⟨j, hj, hk, hc⟩, ?_⟩
      rintro rfl
      exact hji (hshape.index_inj hj hi hk hx)
    · rintro ⟨⟨j, hj, hk, hc⟩, hkx⟩
      refine ⟨j, ?_, hj, hk, hc⟩
      rintro rfl
      exact hkx (Option.some.inj (hk.symm.trans hx))
  simp only [groupNodeShrink]
  split_ifs with hcnt
  · refine ⟨_, _, _, _, rfl, ?_⟩
    intro k c
    rw [← hmem, children, take_shiftDown hi hshape.cnt_le_subId,
      take_shiftDown hi hshape.cnt_le_subPtr, zip_eraseIdx]
    rfl
  · refine ⟨_, _, _, _, rfl, ?_⟩
    intro k c
    obtain rfl : index = 0 := by omega
    obtain rfl : cnt = 1 := by omega
    rw [← hmem]
    cases subId <;> simp [children]

end Shrink

/-- `node` sits below `root` at the slots `pos` and the sub-identifiers `path`. -/
inductive Located : MibNode → List Nat → Oid → MibNode → Prop where
  | here (node : MibNode) : Located node [] [] node
  | child {cap cnt : Nat} {subId : List UInt32} {subPtr : List MibNode} {i : Nat} {k : UInt32}
      {c : MibNode} {pos : List Nat} {path : Oid} {node : MibNode} (hi : i < cnt)
      (hk : subId[i]? = some k) (hc : subPtr[i]? = some c) (h : Located c pos path node) :
      Located (.group cap cnt subId subPtr) (i :: pos) (k :: path) node

namespace Located

lemma snoc {root : MibNode} {pos : List Nat} {path : Oid} {cap cnt i : Nat} {subId : List UInt32}
    {subPtr : List MibNode} {k : UInt32} {c : MibNode}
    (h : Located root pos path (.group cap cnt subId subPtr)) (hi : i < cnt)
    (hk : subId[i]? = some k) (hc : subPtr[i]? = some c) :
    Located root (pos ++ [i]) (path ++ [k]) c := by
  generalize hn : MibNode.group cap cnt subId subPtr = node at h
  induction h with
  | here node => exact hn ▸ .child hi hk hc (.here c)
  | child hi' hk' hc' _ ih => exact .child hi' hk' hc' (ih hn)

lemma length_eq {root node : MibNode} {pos : List Nat} {path : Oid}
    (h : Located root pos path node) : pos.length = path.length := by
  induction h with
  | here => rfl
  | child _ _ _ _ ih => simp [ih]

lemma occurs {root node : MibNode} {pos : List Nat} {path : Oid}
    (h : Located root pos path node) : Occurs root path node := by
  induction h with
  | here => exact .here _
  | child hi hk hc _ ih => exact .child hi hk hc ih

/-- The instances after the child in a slot is taken away. -/
lemma occurs_shrink {root c : MibNode} {pos : List Nat} {i d : Nat} {path : Oid}
    (h : WellFormed d root) (hloc : Located root (pos ++ [i]) path c) (p : Oid) (cb : Int) :
    Occurs (root.updateAt (groupNodeShrink i) pos) p (.inst cb) ↔
      Occurs root p (.inst cb) ∧ ¬ path <+: p := by
  induction pos generalizing root path d p with
  | nil =>
    cases hloc with
    | @child cap cnt subId subPtr _ k c pos path node hi hk hc hloc =>
      cases hloc
      obtain ⟨d, rfl⟩ := h.exists_eq_succ
      obtain ⟨cap', cnt', subId', subPtr', heq, hkids⟩ :=
        groupNodeShrink_group (wellFormed_group.mp h).1 hi hk
      rw [MibNode.updateAt, heq]
      cases p with
      | nil => simp [occurs_group_iff]
      | cons k' t =>
        simp only [occurs_cons_iff, hkids, List.cons_prefix_cons, List.nil_prefix, and_true]
        constructor
        · rintro ⟨c', ⟨hc', hne⟩, hocc⟩
          exact ⟨⟨c', hc', hocc⟩, fun hkk => hne hkk.symm⟩
        · rintro ⟨⟨c', hc', hocc⟩, hne⟩
          exact ⟨c', ⟨hc', fun hkk => hne hkk.symm⟩, hocc⟩
  | cons j pos ih =>
    cases hloc with
    | @child cap cnt subId subPtr _ k cj _ path node hj hk hcj hloc =>
      obtain ⟨d, rfl⟩ := h.exists_eq_succ
      have hshape := (wellFormed_group.mp h).1
      have hkj : (k, cj) ∈ children cnt subId subPtr := mem_children.mpr ⟨j, hj, hk, hcj⟩
      simp only [MibNode.updateAt, List.getD_eq_getElem?_getD, hcj, Option.getD_some]
      cases p with
      | nil => simp [occurs_group_iff]
      | cons k' t =>
        have hcj' := ih (h.child hj hcj) hloc t
        simp only [occurs_cons_iff, hshape.mem_children_set hj hk, List.cons_prefix_cons]
        by_cases hkk : k' = k
        · subst hkk
          simp only [ne_eq, not_true, false_and, true_and, false_or, exists_eq_left, hcj']
          refine and_congr_left fun _ => ⟨fun hocc => ⟨cj, hkj, hocc⟩, ?_⟩
          rintro ⟨c', hc', hocc⟩
          rwa [hshape.children_inj hkj hc']
        · simp [hkk, Ne.symm hkk]

end Located

/-- Where `mib_tree_node_search` ends for an OID: at the node there, at an instance that is one
sub-identifier shorter, or at none. -/
inductive Found (root node : MibNode) (path oid : Oid) : MibNode × NodePair → Prop where
  | exact (n : MibNode) (pair : NodePair) (hn : Occurs node oid n) (hnull : n ≠ .null)
      (hloc : Located root pair.childPos (path ++ oid) n) (hchild : pair.child = n) :
      Found root node path oid (n, pair)
  | past (p : Oid) (x : UInt32) (cb : Int) (pair : NodePair) (hoid : oid = p ++ [x])
      (hp : Occurs node p (.inst cb)) (hloc : Located root pair.childPos (path ++ p) (.inst cb))
      (hchild : pair.child = .inst cb) : Found root node path oid (.inst cb, pair)
  | none (pair : NodePair) (hn : ∀ n, ¬ Occurs node oid n)
      (hp : ¬ ∃ p x cb, oid = p ++ [x] ∧ Occurs node p (.inst cb)) :
      Found root node path oid (.null, pair)

/-- What is found below a child is found below the group. -/
lemma Found.child {root c : MibNode} {path xs : Oid} {cap cnt : Nat} {subId : List UInt32}
    {subPtr : List MibNode} {x : UInt32} {res : MibNode × NodePair}
    (hshape : GroupShape cap cnt subId subPtr) (hxc : (x, c) ∈ children cnt subId subPtr)
    (h : Found root c (path ++ [x]) xs res) :
    Found root (.group cap cnt subId subPtr) path (x :: xs) res := by
  have hdown : ∀ {t : Oid} {n}, Occurs (.group cap cnt subId subPtr) (x :: t) n → Occurs c t n := by
    intro t n hocc
    obtain ⟨c', hc', hocc⟩ := occurs_cons_iff.mp hocc
    rwa [hshape.children_inj hxc hc']
  cases h with
  | exact n pair hn hnull hl hchild =>
    exact .exact n pair (occurs_cons_iff.mpr ⟨c, hxc, hn⟩) hnull (by simpa using hl) hchild
  | past p y cb pair hoid hp hl hchild =>
    exact .past (x :: p) y cb pair (by simp [hoid]) (occurs_cons_iff.mpr ⟨c, hxc, hp⟩)
      (by simpa using hl) hchild
  | none pair hn hp =>
    refine .none pair (fun n hocc => hn n (hdown hocc)) ?_
    rintro ⟨p, y, cb, hoid, hocc⟩
    cases p with
    | nil => simp [occurs_group_iff] at hocc
    | cons k p =>
      obtain ⟨rfl, hxs⟩ := List.cons_eq_cons.mp hoid
      exact hp ⟨p, y, cb, hxs, hdown hocc⟩

lemma nodeSearch_found {root : MibNode} (oid : Oid) {d : Nat} {node : MibNode} {path : Oid}
    {pos : List Nat} (h : WellFormed d node) (hloc : Located root pos path node)
    (parent : List Nat) (subIdx : Nat) :
    Found root node path oid (mibTreeNodeSearchLoop parent pos subIdx node oid) := by
  induction oid generalizing d node path pos parent subIdx with
  | nil =>
    rw [mibTreeNodeSearchLoop]
    exact .exact node _ (.here node) h.ne_null (by simpa using hloc) rfl
  | cons x xs ih =>
    cases node with
    | null => exact absurd h (not_wellFormed_null _)
    | inst cb =>
      rw [mibTreeNodeSearchLoop]
      have hno : ∀ {p : Oid} {n}, Occurs (.inst cb) p n → p = [] := by
        intro p n hocc
        cases hocc
        rfl
      cases xs with
      | nil => exact .past [] x cb _ rfl (.here _) (by simpa using hloc) rfl
      | cons y ys =>
        refine .none _ (fun n hocc => by simpa using hno hocc) ?_
        rintro ⟨p, z, cb', hoid, hocc⟩
        rw [hno hocc] at hoid
        simp at hoid
    | group cap cnt subId subPtr =>
      obtain ⟨d, rfl⟩ := h.exists_eq_succ
      have hshape := (wellFormed_group.mp h).1
      rw [mibTreeNodeSearchLoop]
      rcases hshape.binarySearch_cases x with ⟨i, hi, hx, heq⟩ | ⟨i, _, hb, ha, heq⟩
      · obtain ⟨_, c, _, hc⟩ := hshape.exists_sub hi
        have hxc : (x, c) ∈ children cnt subId subPtr := mem_children.mpr ⟨i, hi, hx, hc⟩
        have hrec := ih (h.child hi hc) (hloc.snoc hi hx hc) pos i
        simp only [heq, Int.natCast_nonneg, if_true, Int.toNat_natCast,
          List.getD_eq_getElem?_getD, hc, Option.getD_some]
        exact hrec.child hshape hxc
      · have hno : ∀ {t : Oid} {n}, ¬ Occurs (.group cap cnt subId subPtr) (x :: t) n := by
          intro t n hocc
          obtain ⟨c, hc, -⟩ := occurs_cons_iff.mp hocc
          obtain ⟨j, hj, hjx, -⟩ := mem_children.mp hc
          exact getElem?_ne_of_split hb ha hj hjx
        rw [if_neg (by omega)]
        refine .none _ (fun n => hno) ?_
        rintro ⟨p, y, cb, hoid, hocc⟩
        cases p with
        | nil => simp [occurs_group_iff] at hocc
        | cons k p =>
          obtain ⟨rfl, -⟩ := List.cons_eq_cons.mp hoid
          exact hno hocc

/-- `__mib_tree_delete` takes away the instances below the child of the pair. -/
lemma mibTreeDeletePair_occurs {root : MibNode} (h : RootOk root) {pair : NodePair} {path : Oid}
    (hloc : Located root pair.childPos path pair.child) (hpath : path ≠ [])
    (hpos : pair.childPos = [] ∨ pair.childPos = pair.parent ++ [pair.subIdx]) :
    ∃ root', mibTreeDeletePair root pair = .ok root' ∧ ∀ p cb,
      Occurs root' p (.inst cb) ↔ Occurs root p (.inst cb) ∧ ¬ path <+: p := by
  have hne : pair.childPos ≠ [] := by
    intro hnil
    have hlen := hloc.length_eq
    rw [hnil] at hlen
    exact hpath (List.length_eq_zero_iff.mp hlen.symm)
  obtain ⟨freed, hfreed⟩ := deleteLoop_returns pair.child.cost pair.child none [] [] (by simp)
    (Or.inl ⟨rfl, Or.inr ⟨_, (h.1.occurs hloc.occurs).2⟩, by simp [NodeBacklog.stackCost]⟩)
  refine ⟨_, by rw [mibTreeDeletePair, if_neg hne, hfreed], ?_⟩
  intro p cb
  rw [hpos.resolve_left hne] at hloc
  exact hloc.occurs_shrink h.1 p cb

/-- The instances after an unregistration. -/
lemma mibNodeUnreg_occurs {root : MibNode} (h : RootOk root) {oid : Oid} (hoid : oid ≠ []) :
    ∃ root', mibNodeUnreg root oid = .ok root' ∧ ∀ p cb,
      Occurs root' p (.inst cb) ↔ Occurs root p (.inst cb) ∧ ¬ oid <+: p ∧
        ∀ x, oid ≠ p ++ [x] := by
  obtain ⟨-, -, hpos⟩ := nodeSearch_pair oid h.1 (.here root) (Or.inl rfl) _ rfl
  have hfound := nodeSearch_found oid h.1 (.here root) [] 0
  rw [mibNodeUnreg, mibTreeDelete, mibTreeNodeSearch]
  generalize mibTreeNodeSearchLoop [] [] 0 root oid = res at hfound hpos
  cases hfound with
  | exact n pair hn hnull hloc hchild =>
    subst hchild
    obtain ⟨root', heq, hocc⟩ := mibTreeDeletePair_occurs h hloc hoid hpos
    refine ⟨root', ?_, fun p cb => ?_⟩
    · cases hc : pair.child with
      | null => exact absurd hc hnull
      | group => exact heq
      | inst => exact heq
    · rw [hocc]
      refine and_congr_right fun hp => ⟨fun hpre => ⟨hpre, ?_⟩, And.left⟩
      -- no node is below an instance
      rintro x rfl
      have hx := (h.1.occurs_inst_unique hp hn).1
      simp at hx
  | past p x cb pair hx hp hloc hchild =>
    have hpne : p ≠ [] := by
      rintro rfl
      obtain ⟨_, _, _, _, rfl⟩ := h.2
      cases hp
    rw [← hchild] at hloc
    obtain ⟨root', heq, hocc⟩ := mibTreeDeletePair_occurs h hloc hpne hpos
    refine ⟨root', heq, ?_⟩
    intro q cb'
    rw [hocc]
    apply and_congr_right
    intro hq
    have hpre : p <+: q ↔ q = p := by
      constructor
      · rintro ⟨t, rfl⟩
        rw [(h.1.occurs_inst_unique hp hq).1, List.append_nil]
      · rintro rfl
        exact List.prefix_rfl
    simp only [List.nil_append, hpre, hx]
    constructor
    · intro hqp
      refine ⟨fun hlong => hqp ?_, fun y hy => hqp ?_⟩
      · exact hpre.mp ((List.prefix_append p [x]).trans hlong)
      · exact (List.append_inj_left' hy (by simp)).symm
    · rintro ⟨-, hno⟩ rfl
      exact hno x rfl
  | none pair hn hp =>
    refine ⟨root, rfl, fun p cb => ⟨fun hocc => ⟨hocc, ?_, ?_⟩, And.left⟩⟩
    · rintro ⟨t, rfl⟩
      obtain ⟨c, hc, -⟩ := Occurs.of_append hocc
      exact hn c hc
    · rintro x rfl
      exact hp ⟨p, x, cb, rfl, hocc⟩

/-- Unregistration removes exactly the instances at and below the OID, unless the OID is that of an
instance and one sub-identifier more. -/
theorem mibNodeUnreg_exact_iff {root : MibNode} (hreach : Reachable root) {oid : Oid}
    (hoid : oid ≠ []) :
    ∃ root', mibNodeUnreg root oid = .ok root' ∧
      ((∀ p cb, Occurs root' p (.inst cb) ↔ Occurs root p (.inst cb) ∧ ¬ oid <+: p) ↔
        ¬ ∃ p x cb, oid = p ++ [x] ∧ Occurs root p (.inst cb)) := by
  obtain ⟨root', heq, hocc⟩ := mibNodeUnreg_occurs hreach.rootOk hoid
  refine ⟨root', heq, ?_⟩
  constructor
  · rintro hexact ⟨p, x, cb, rfl, hp⟩
    have hlong : ¬ p ++ [x] <+: p := fun hpre => by
      have hlen := hpre.length_le
      rw [List.length_append, List.length_singleton] at hlen
      omega
    exact ((hocc p cb).mp ((hexact p cb).mpr ⟨hp, hlong⟩)).2.2 x rfl
  · intro hno p cb
    rw [hocc]
    refine and_congr_right fun hp => and_iff_left fun x hx => hno ⟨p, x, cb, hx, hp⟩

theorem mibNodeUnreg_exact_sibling :
    ∃ root root', Reachable root ∧ mibNodeUnreg root [1, 2] = .ok root' ∧
      ∀ p cb, Occurs root' p (.inst cb) ↔ Occurs root p (.inst cb) ∧ ¬ [1, 2] <+: p := by
  have hreach : Reachable _ := ⟨[.reg [1, 2, 4] 5, .reg [1, 3] 7], rfl⟩
  obtain ⟨root', heq, hiff⟩ := mibNodeUnreg_exact_iff hreach (show ([1, 2] : Oid) ≠ [] by simp)
  refine ⟨_, root', hreach, heq, hiff.mpr ?_⟩
  rintro ⟨p, x, cb, hoid, hp⟩
  have hmem := (hreach.rootOk.1.mem_leaves_iff p cb).mpr hp
  change (p, cb) ∈ [([1, 2, 4], 5), ([1, 3], 7)] at hmem
  have hlen := congrArg List.length hoid
  simp only [List.mem_cons, Prod.mk.injEq, List.not_mem_nil, or_false] at hmem
  rcases hmem with ⟨rfl, -⟩ | ⟨rfl, -⟩ <;> simp at hlen

/-- Unregistering an OID below an instance removes the instance. -/
theorem unreg_below_removes :
    ∃ root root', runTree mibInit [.reg [1, 2] 5] = .ok root ∧
      mibNodeUnreg root [1, 2, 0] = .ok root' ∧ Occurs root [1, 2] (.inst 5) ∧
      ¬ [1, 2, 0] <+: [1, 2] ∧ ¬ Occurs root' [1, 2] (.inst 5) := by
  have hroot := Reachable.rootOk ⟨[.reg [1, 2] 5], rfl⟩
  have hroot' := Reachable.rootOk ⟨[.reg [1, 2] 5, .unreg [1, 2, 0]], rfl⟩
  refine ⟨_, _, rfl, rfl, (hroot.1.mem_leaves_iff _ _).mp ?_, by decide, fun hocc => ?_⟩
  · change ([1, 2], 5) ∈ [([1, 2], 5)]
    exact List.mem_cons_self
  · have hmem := (hroot'.1.mem_leaves_iff _ _).mpr hocc
    change ([1, 2], 5) ∈ [] at hmem
    simp at hmem

end SmartSnmp
