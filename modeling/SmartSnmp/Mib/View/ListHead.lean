import SmartSnmp.Lib.Links

/-!
# Intrusive lists

`core/list.h`, as far as `mib_view.c` uses it. A call that follows a null pointer, or a link of a node
that is not allocated, returns `none`.
-/

namespace SmartSnmp

open Links

variable {κ : Type*}

/-- The same nodes are allocated. -/
def SameAlloc (L L' : Links κ) : Prop := ∀ z, L' z ≠ none ↔ L z ≠ none

lemma SameAlloc.trans {L₁ L₂ L₃ : Links κ} (h : SameAlloc L₁ L₂) (h' : SameAlloc L₂ L₃) :
    SameAlloc L₁ L₃ := fun z => (h' z).trans (h z)

variable [DecidableEq κ]

/-- `INIT_LIST_HEAD`. -/
def initListHead (L : Links κ) (list : κ) : Option (Links κ) := do
  let L ← L.setPrev list (some list)
  L.setNext list (some list)

def listEmpty (L : Links κ) (head : κ) : Option Bool := (L.nextOf head).map fun next => next = head

def listIsLast (L : Links κ) (list head : κ) : Option Bool :=
  (L.nextOf list).map fun next => next = head

/-- `_list_add`. -/
def listAddBetween (L : Links κ) (new prev next : κ) : Option (Links κ) := do
  let L ← L.setPrev next (some new)
  let L ← L.setNext new (some next)
  let L ← L.setPrev new (some prev)
  L.setNext prev (some new)

def listAdd (L : Links κ) (new head : κ) : Option (Links κ) := do
  let next ← L.nextOf head
  listAddBetween L new head next

def listAddTail (L : Links κ) (new head : κ) : Option (Links κ) := do
  let prev ← L.prevOf head
  listAddBetween L new prev head

/-- `_list_del`. The links of the entry are read again after the first write. -/
def listUnlink (L : Links κ) (entry : κ) : Option (Links κ) := do
  let next ← L.nextOf entry
  let prev ← L.prevOf entry
  let L ← L.setPrev next (some prev)
  let prev ← L.prevOf entry
  let next ← L.nextOf entry
  L.setNext prev (some next)

def listDel (L : Links κ) (entry : κ) : Option (Links κ) := do
  let L ← listUnlink L entry
  let L ← L.setPrev entry none
  L.setNext entry none

/-! ### What they do to rings -/

section Rings

variable {L : Links κ} {R : κ → Option (List κ)} {head x : κ} {xs us vs : List κ}

/-- A node that is loose becomes the head of an empty ring. -/
lemma rings_initListHead (h : L.Rings R) (hx : Loose R x) (halloc : L x ≠ none) :
    ∃ L', initListHead L x = some L' ∧ L'.Rings (Function.update R x (some [])) ∧ SameAlloc L L' := by
  obtain ⟨L₁, h₁, hnext₁, hprev₁, halloc₁, hframe₁⟩ := exists_setPrev halloc (some x)
  obtain ⟨L₂, h₂, hnext₂, hprev₂, halloc₂, hframe₂⟩ := exists_setNext ((halloc₁ x).mpr halloc) (some x)
  refine ⟨L₂, by simp [initListHead, h₁, h₂], ?_, SameAlloc.trans halloc₁ halloc₂⟩
  have hring : L₂.IsRing x [] := by
    refine ⟨List.nodup_singleton x, ?_⟩
    have hlink : L₂.Linked x x := by
      rw [Linked, hnext₂, if_pos rfl, hprev₂, hprev₁, if_pos rfl]
      exact ⟨rfl, rfl⟩
    simpa using hlink
  refine h.update hring (fun y hy => .inr ?_) fun g ys _ hys y hy => ?_
  · rwa [List.mem_singleton.mp hy]
  · have hne : y ≠ x := fun heq => hx g ys hys (heq ▸ hy)
    rw [hframe₂ y hne, hframe₁ y hne]

/-- Two nodes that are not allocated become the heads of empty rings. -/
lemma rings_initHeads {y : κ} (h : L.Rings R) (hne : x ≠ y) (hx : L x = none) (hy : L y = none)
    (l : Link κ) :
    ∃ L₁ L₂, initListHead ((L.alloc x l).alloc y l) x = some L₁ ∧ initListHead L₁ y = some L₂ ∧
      L₂.Rings (Function.update (Function.update R x (some [])) y (some [])) ∧
      ∀ z, L₂ z ≠ none ↔ L z ≠ none ∨ z = x ∨ z = y := by
  have hy' : (L.alloc x l) y = none := by rw [Links.alloc, Function.update_of_ne hne.symm, hy]
  have hraw := (h.alloc hx l).alloc hy' l
  have hnodes : ∀ z, ((L.alloc x l).alloc y l) z ≠ none ↔ L z ≠ none ∨ z = x ∨ z = y := by
    intro z
    simp only [Links.alloc, Function.update_apply]
    split_ifs with h₁ h₂ <;> simp_all
  obtain ⟨L₁, h₁, hrings₁, halloc₁⟩ := rings_initListHead hraw (h.loose hx) ((hnodes x).mpr (by simp))
  have hloose : Loose (Function.update R x (some [])) y :=
    (h.loose hy).update (by simpa using hne.symm)
  obtain ⟨L₂, h₂, hrings₂, halloc₂⟩ :=
    rings_initListHead hrings₁ hloose ((halloc₁ y).mpr ((hnodes y).mpr (by simp)))
  exact ⟨L₁, L₂, h₁, h₂, hrings₂, fun z => (halloc₂ z).trans ((halloc₁ z).trans (hnodes z))⟩

/-- A loose node is put between two neighbours. -/
lemma rings_listAddBetween (h : L.Rings R) (hR : R head = some (us ++ vs)) (hx : Loose R x)
    (halloc : L x ≠ none) :
    ∃ L', listAddBetween L x (us.getLastD head) (vs.headD head) = some L' ∧
      L'.Rings (Function.update R head (some (us ++ x :: vs))) ∧ SameAlloc L L' := by
  have hnodes := (h.ring hR).ne_none
  obtain ⟨L₁, h₁, hnext₁, hprev₁, halloc₁, hframe₁⟩ :=
    exists_setPrev (hnodes _ headD_mem_cons) (some x)
  obtain ⟨L₂, h₂, hnext₂, hprev₂, halloc₂, hframe₂⟩ :=
    exists_setNext ((halloc₁ x).mpr halloc) (some (vs.headD head))
  obtain ⟨L₃, h₃, hnext₃, hprev₃, halloc₃, hframe₃⟩ :=
    exists_setPrev ((halloc₂ x).mpr ((halloc₁ x).mpr halloc)) (some (us.getLastD head))
  have hlast := (halloc₃ _).mpr ((halloc₂ _).mpr ((halloc₁ _).mpr
    (hnodes (us.getLastD head) getLastD_mem)))
  obtain ⟨L₄, h₄, hnext₄, hprev₄, halloc₄, hframe₄⟩ := exists_setNext hlast (some x)
  refine ⟨L₄, ?_, h.insert hR hx (fun z => ?_) (fun z => ?_) (fun z hp hq hzx => ?_),
    ((SameAlloc.trans halloc₁ halloc₂).trans halloc₃).trans halloc₄⟩
  · simp only [listAddBetween, Option.bind_eq_bind, h₁, h₂, h₃, h₄, Option.bind_some]
  · rw [hnext₄, hnext₃, hnext₂, hnext₁]
  · rw [hprev₄, hprev₃, hprev₂, hprev₁]
  · rw [hframe₄ z hp, hframe₃ z hzx, hframe₂ z hzx, hframe₁ z hq]

/-- `list_add` at the head of a ring. -/
lemma rings_listAdd (h : L.Rings R) (hR : R head = some xs) (hx : Loose R x) (halloc : L x ≠ none) :
    ∃ L', listAdd L x head = some L' ∧ L'.Rings (Function.update R head (some (x :: xs))) ∧
      SameAlloc L L' := by
  obtain ⟨L', hadd, hrings⟩ := rings_listAddBetween h (show R head = some ([] ++ xs) from hR) hx halloc
  refine ⟨L', ?_, hrings⟩
  rw [listAdd, (h.ring hR).nextOf_head]
  exact hadd

/-- `list_add_tail` at a node of a ring or at its head puts the new node before it. -/
lemma rings_listAddTail (h : L.Rings R) (hR : R head = some (us ++ vs)) (hx : Loose R x)
    (halloc : L x ≠ none) :
    ∃ L', listAddTail L x (vs.headD head) = some L' ∧
      L'.Rings (Function.update R head (some (us ++ x :: vs))) ∧ SameAlloc L L' := by
  obtain ⟨L', hadd, hrings⟩ := rings_listAddBetween h hR hx halloc
  refine ⟨L', ?_, hrings⟩
  rw [listAddTail, (isRing_append.mp (h.ring hR)).2.2.2.2]
  exact hadd

/-- `list_del` takes a node out of its ring. -/
lemma rings_listDel (h : L.Rings R) (hR : R head = some (us ++ x :: vs)) :
    ∃ L', listDel L x = some L' ∧ L'.Rings (Function.update R head (some (us ++ vs))) ∧
      Loose (Function.update R head (some (us ++ vs))) x ∧ SameAlloc L L' := by
  have hring := h.ring hR
  obtain ⟨hnotmem, hnodup⟩ := nodup_insert.mp hring.nodup
  have hnodes : ∀ z ∈ head :: (us ++ vs), L z ≠ none := by
    intro z hz
    apply hring.ne_none
    simp_all
    tauto
  have hp : us.getLastD head ∈ head :: (us ++ vs) := getLastD_mem
  have hq : vs.headD head ∈ head :: (us ++ vs) := headD_mem_cons
  have hxq : x ≠ vs.headD head := fun heq => hnotmem (heq ▸ hq)
  obtain ⟨L₁, h₁, hnext₁, hprev₁, halloc₁, hframe₁⟩ :=
    exists_setPrev (hnodes _ hq) (some (us.getLastD head))
  obtain ⟨L₂, h₂, hnext₂, hprev₂, halloc₂, hframe₂⟩ :=
    exists_setNext ((halloc₁ _).mpr (hnodes _ hp)) (some (vs.headD head))
  have hx : L₂ x ≠ none := (halloc₂ x).mpr ((halloc₁ x).mpr (hring.ne_none x (by simp)))
  obtain ⟨L₃, h₃, hnext₃, hprev₃, halloc₃, hframe₃⟩ := exists_setPrev hx none
  obtain ⟨L₄, h₄, hnext₄, hprev₄, halloc₄, hframe₄⟩ := exists_setNext ((halloc₃ x).mpr hx) none
  have hunlink : listUnlink L x = some L₂ := by
    have hprev : L₁.prevOf x = some (us.getLastD head) := by
      rw [hprev₁, if_neg hxq, hring.prevOf_node]
    have hnext : L₁.nextOf x = some (vs.headD head) := by rw [hnext₁, hring.nextOf_node]
    simp only [listUnlink, Option.bind_eq_bind, hring.nextOf_node, hring.prevOf_node, h₁, hprev, hnext,
      h₂, Option.bind_some]
  have hremove := h.remove L₄ hR
    (fun z hz => by rw [hnext₄, if_neg hz, hnext₃, hnext₂, hnext₁])
    (fun z hz => by rw [hprev₄, hprev₃, if_neg hz, hprev₂, hprev₁])
    (fun z hzp hzq hzx => by rw [hframe₄ z hzx, hframe₃ z hzx, hframe₂ z hzp, hframe₁ z hzq])
  refine ⟨L₄, ?_, hremove.1, hremove.2,
    ((SameAlloc.trans halloc₁ halloc₂).trans halloc₃).trans halloc₄⟩
  simp only [listDel, Option.bind_eq_bind, hunlink, h₃, h₄, Option.bind_some]

/-- Two nodes are taken out of two rings. -/
lemma rings_listDel₂ {g y : κ} {ws zs : List κ} (h : L.Rings R) (hne : g ≠ head)
    (hR : R head = some (us ++ x :: vs)) (hR' : R g = some (ws ++ y :: zs)) :
    let R' := Function.update (Function.update R head (some (us ++ vs))) g (some (ws ++ zs))
    ∃ L', ((listDel L x).bind fun L => listDel L y) = some L' ∧ L'.Rings R' ∧ Loose R' x ∧
      Loose R' y ∧ SameAlloc L L' := by
  obtain ⟨L₁, h₁, hrings₁, hx, halloc₁⟩ := rings_listDel h hR
  have hg : Function.update R head (some (us ++ vs)) g = some (ws ++ y :: zs) := by
    rw [Function.update_of_ne hne, hR']
  obtain ⟨L₂, h₂, hrings₂, hy, halloc₂⟩ := rings_listDel hrings₁ hg
  refine ⟨L₂, by rw [h₁, Option.bind_some, h₂], hrings₂, fun k zs hk hmem => ?_, hy,
    halloc₁.trans halloc₂⟩
  by_cases hkg : k = g
  · subst hkg
    rw [Function.update_self, Option.some.injEq] at hk
    subst hk
    refine hx k _ hg ?_
    simp_all
    tauto
  · rw [Function.update_of_ne hkg] at hk
    exact hx k zs hk hmem

lemma listEmpty_eq (h : L.Rings R) (hR : R head = some xs) :
    listEmpty L head = some (decide (xs = [])) := by
  have hring := h.ring hR
  rw [listEmpty, hring.nextOf_head, Option.map_some, Option.some.injEq, decide_eq_decide]
  cases xs with
  | nil => simp
  | cons x xs =>
    have hne := (List.nodup_cons.mp hring.nodup).1
    simp only [List.headD_cons, reduceCtorEq, iff_false]
    rintro rfl
    simp at hne

lemma listIsLast_eq (h : L.Rings R) (hR : R head = some (us ++ x :: vs)) :
    listIsLast L x head = some (decide (vs = [])) := by
  have hring := h.ring hR
  rw [listIsLast, hring.nextOf_node, Option.map_some, Option.some.injEq, decide_eq_decide]
  cases vs with
  | nil => simp
  | cons y vs =>
    have hne := (List.nodup_cons.mp hring.nodup).1
    simp only [List.headD_cons, reduceCtorEq, iff_false]
    rintro rfl
    simp at hne

end Rings

end SmartSnmp
