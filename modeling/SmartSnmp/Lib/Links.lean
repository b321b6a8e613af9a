import Mathlib.Data.List.Chain
import Mathlib.Data.List.Nodup
import Mathlib.Logic.Function.Basic
import Mathlib.Tactic.Common

/-!
# Circular doubly linked lists

Nodes of a heap with a link in either direction. A ring is a head and the nodes that are linked from
it and back to it; `Rings` is a heap of rings that share no node. A node is put into a ring and taken
out of it by writing the links of its neighbours, and the other rings stay as they are.
-/

/-- The links of a node; `none` is the null pointer. -/
structure Link (κ : Type*) where
  next : Option κ
  prev : Option κ

/-- The links of the nodes that are allocated. -/
abbrev Links (κ : Type*) := κ → Option (Link κ)

namespace Links

variable {κ : Type*}

/-! ### Reads and writes -/

/-- The node after a node. It fails if there is no such node or the link is null. -/
def nextOf (L : Links κ) (x : κ) : Option κ := (L x).bind Link.next

def prevOf (L : Links κ) (x : κ) : Option κ := (L x).bind Link.prev

section Write

variable [DecidableEq κ]

/-- Write the links of a node that is allocated. -/
def write (L : Links κ) (x : κ) (f : Link κ → Link κ) : Option (Links κ) :=
  (L x).map fun l => Function.update L x (some (f l))

def setNext (L : Links κ) (x : κ) (y : Option κ) : Option (Links κ) :=
  L.write x fun l => { l with next := y }

def setPrev (L : Links κ) (x : κ) (y : Option κ) : Option (Links κ) :=
  L.write x fun l => { l with prev := y }

/-- A node that is allocated, with links that nobody has set. -/
def alloc (L : Links κ) (x : κ) (l : Link κ) : Links κ := Function.update L x (some l)

def free (L : Links κ) (x : κ) : Links κ := Function.update L x none

variable {L : Links κ} {x : κ}

lemma exists_write (h : L x ≠ none) (f : Link κ → Link κ) :
    ∃ l, L x = some l ∧ L.write x f = some (Function.update L x (some (f l))) := by
  obtain ⟨l, hl⟩ := Option.ne_none_iff_exists'.mp h
  exact ⟨l, hl, by rw [write, hl, Option.map_some]⟩

/-- A write to `next` is seen at that node alone. -/
lemma exists_setNext (h : L x ≠ none) (y : Option κ) : ∃ L', L.setNext x y = some L' ∧
    (∀ z, L'.nextOf z = if z = x then y else L.nextOf z) ∧ (∀ z, L'.prevOf z = L.prevOf z) ∧
    (∀ z, L' z ≠ none ↔ L z ≠ none) ∧ ∀ z, z ≠ x → L' z = L z := by
  obtain ⟨l, hl, hwrite⟩ := exists_write h fun l => { l with next := y }
  refine ⟨_, hwrite, fun z => ?_, fun z => ?_, fun z => ?_, fun z hz => Function.update_of_ne hz _ _⟩
  · by_cases hz : z = x
    · subst hz
      simp [nextOf, Function.update_self]
    · simp [nextOf, hz]
  · by_cases hz : z = x
    · subst hz
      simp [prevOf, Function.update_self, hl]
    · simp [prevOf, Function.update_of_ne hz]
  · by_cases hz : z = x
    · subst hz
      simp [hl]
    · rw [Function.update_of_ne hz]

lemma exists_setPrev (h : L x ≠ none) (y : Option κ) : ∃ L', L.setPrev x y = some L' ∧
    (∀ z, L'.nextOf z = L.nextOf z) ∧ (∀ z, L'.prevOf z = if z = x then y else L.prevOf z) ∧
    (∀ z, L' z ≠ none ↔ L z ≠ none) ∧ ∀ z, z ≠ x → L' z = L z := by
  obtain ⟨l, hl, hwrite⟩ := exists_write h fun l => { l with prev := y }
  refine ⟨_, hwrite, fun z => ?_, fun z => ?_, fun z => ?_, fun z hz => Function.update_of_ne hz _ _⟩
  · by_cases hz : z = x
    · subst hz
      simp [nextOf, Function.update_self, hl]
    · simp [nextOf, Function.update_of_ne hz]
  · by_cases hz : z = x
    · subst hz
      simp [prevOf, Function.update_self]
    · simp [prevOf, hz]
  · by_cases hz : z = x
    · subst hz
      simp [hl]
    · rw [Function.update_of_ne hz]

end Write

/-! ### Rings -/

/-- The nodes are linked to each other. -/
def Linked (L : Links κ) (x y : κ) : Prop := L.nextOf x = some y ∧ L.prevOf y = some x

/-- From the head the links go through the nodes and back to the head, and the same backwards. -/
structure IsRing (L : Links κ) (head : κ) (xs : List κ) : Prop where
  nodup : (head :: xs).Nodup
  chain : (head :: xs ++ [head]).IsChain L.Linked

section Ring

variable {L L' : Links κ} {head x : κ} {xs us vs : List κ}

lemma isChain_congr (hnext : ∀ x ∈ xs.dropLast, L'.nextOf x = L.nextOf x)
    (hprev : ∀ x ∈ xs.tail, L'.prevOf x = L.prevOf x) (h : xs.IsChain L.Linked) :
    xs.IsChain L'.Linked := by
  induction xs with
  | nil => exact .nil
  | cons x xs ih =>
    cases xs with
    | nil => exact .singleton x
    | cons y xs =>
      rw [List.isChain_cons_cons] at h ⊢
      refine ⟨⟨?_, ?_⟩, ih (fun z hz => hnext z (by simp [hz])) (fun z hz => hprev z (by simp_all)) h.2⟩
      · rw [hnext x (by simp), h.1.1]
      · rw [hprev y (by simp), h.1.2]

/-- A ring depends on the links of its nodes only. -/
lemma IsRing.congr (h : L.IsRing head xs) (heq : ∀ x ∈ head :: xs, L' x = L x) :
    L'.IsRing head xs := by
  have hmem : ∀ x ∈ head :: xs ++ [head], L' x = L x := by
    intro x hx
    apply heq
    rcases List.mem_append.mp hx with hx | hx
    · exact hx
    · rw [List.mem_singleton.mp hx]
      exact List.mem_cons_self
  refine ⟨h.nodup, isChain_congr (fun x hx => ?_) (fun x hx => ?_) h.chain⟩
  · rw [nextOf, hmem x (List.dropLast_subset _ hx), nextOf]
  · rw [prevOf, hmem x (List.mem_of_mem_tail hx), prevOf]

/-- The two parts of a ring around a place in it. -/
lemma isRing_append : L.IsRing head (us ++ vs) ↔ (head :: (us ++ vs)).Nodup ∧
    (head :: us).IsChain L.Linked ∧ (vs ++ [head]).IsChain L.Linked ∧
    L.Linked (us.getLastD head) (vs.headD head) := by
  have hsplit : head :: (us ++ vs) ++ [head] = (head :: us) ++ (vs ++ [head]) := by simp
  have hlast : (head :: us).getLast? = some (us.getLastD head) := by
    rw [List.getLast?_cons, List.getLastD_eq_getLast?]
  have hhead : (vs ++ [head]).head? = some (vs.headD head) := by cases vs <;> rfl
  constructor
  · rintro ⟨hnodup, hchain⟩
    rw [hsplit, List.isChain_append, hlast, hhead] at hchain
    exact ⟨hnodup, hchain.1, hchain.2.1, hchain.2.2 _ rfl _ rfl⟩
  · rintro ⟨hnodup, hleft, hright, hlink⟩
    refine ⟨hnodup, ?_⟩
    rw [hsplit, List.isChain_append, hlast, hhead]
    refine ⟨hleft, hright, ?_⟩
    rintro _ ⟨⟩ _ ⟨⟩
    exact hlink

lemma IsRing.nextOf_head (h : L.IsRing head xs) : L.nextOf head = some (xs.headD head) :=
  (isRing_append.mp (show L.IsRing head ([] ++ xs) from h)).2.2.2.1

lemma IsRing.nextOf_node (h : L.IsRing head (us ++ x :: vs)) :
    L.nextOf x = some (vs.headD head) := by
  have h' : L.IsRing head ((us ++ [x]) ++ vs) := by simpa using h
  simpa using (isRing_append.mp h').2.2.2.1

lemma IsRing.prevOf_node (h : L.IsRing head (us ++ x :: vs)) :
    L.prevOf x = some (us.getLastD head) := (isRing_append.mp h).2.2.2.2

/-- The nodes of a ring are allocated. -/
lemma IsRing.ne_none (h : L.IsRing head xs) : ∀ x ∈ head :: xs, L x ≠ none := by
  intro x hx hnone
  have hnext : ∃ y, L.nextOf x = some y := by
    rcases List.mem_cons.mp hx with rfl | hx
    · exact ⟨_, h.nextOf_head⟩
    · obtain ⟨us, vs, rfl⟩ := List.append_of_mem hx
      exact ⟨_, h.nextOf_node⟩
  obtain ⟨y, hy⟩ := hnext
  rw [nextOf, hnone] at hy
  cases hy

lemma getLastD_notMem_dropLast (h : (head :: us).Nodup) :
    us.getLastD head ∉ (head :: us).dropLast := by
  rcases List.eq_nil_or_concat us with rfl | ⟨us, x, rfl⟩
  · simp
  · rw [List.concat_eq_append, List.getLastD_concat, ← List.cons_append, List.dropLast_concat]
    rw [List.concat_eq_append, ← List.cons_append, List.nodup_append] at h
    exact fun hx => h.2.2 x hx x (List.mem_singleton_self x) rfl

lemma headD_notMem_tail (h : (vs ++ [head]).Nodup) : vs.headD head ∉ (vs ++ [head]).tail := by
  cases vs with
  | nil => simp
  | cons x vs => exact (List.nodup_cons.mp h).1

/-- The two parts of a ring share no node. -/
lemma apart_of_nodup (h : (head :: (us ++ vs)).Nodup) : (head :: us).Nodup ∧ (vs ++ [head]).Nodup ∧
    (∀ y ∈ vs, y ∉ head :: us) ∧ ∀ y ∈ us, y ∉ vs ++ [head] := by
  have h' := h
  rw [← List.cons_append, List.nodup_append] at h
  obtain ⟨hleft, hvs, hapart⟩ := h
  rw [List.nodup_cons] at h' hleft
  refine ⟨List.nodup_cons.mpr hleft, ?_, fun y hy hy' => hapart y hy' y hy rfl, fun y hy hy' => ?_⟩
  · rw [List.nodup_append]
    refine ⟨hvs, List.nodup_singleton head, ?_⟩
    rintro y hy z hz rfl
    obtain rfl := List.mem_singleton.mp hz
    exact hapart y List.mem_cons_self y hy rfl
  · rcases List.mem_append.mp hy' with hy' | hy'
    · exact hapart y (List.mem_cons_of_mem _ hy) y hy' rfl
    · rw [List.mem_singleton.mp hy'] at hy
      exact hleft.1 hy

lemma headD_mem : vs.headD head ∈ vs ++ [head] := by cases vs <;> simp

/-- The two parts of a ring stay as they are when the links at the place between them change. -/
lemma isChain_parts_congr (L' : Links κ) (hnodup : (head :: (us ++ vs)).Nodup)
    (hleft : (head :: us).IsChain L.Linked) (hright : (vs ++ [head]).IsChain L.Linked)
    (hnext : ∀ z ∈ head :: (us ++ vs), z ≠ us.getLastD head → L'.nextOf z = L.nextOf z)
    (hprev : ∀ z ∈ head :: (us ++ vs), z ≠ vs.headD head → L'.prevOf z = L.prevOf z) :
    (head :: us).IsChain L'.Linked ∧ (vs ++ [head]).IsChain L'.Linked := by
  obtain ⟨hnodupL, hnodupR, hvs, hus⟩ := apart_of_nodup hnodup
  constructor
  · refine isChain_congr (fun z hz => ?_) (fun z hz => ?_) hleft
    · have hmem : z ∈ head :: us := List.dropLast_subset _ hz
      refine hnext z (List.cons_subset_cons head (List.subset_append_left us vs) hmem) ?_
      exact fun heq => getLastD_notMem_dropLast hnodupL (heq ▸ hz)
    · have hmem : z ∈ us := hz
      refine hprev z (List.mem_cons_of_mem _ (List.mem_append_left _ hmem)) ?_
      exact fun heq => hus z hmem (heq ▸ headD_mem)
  · refine isChain_congr (fun z hz => ?_) (fun z hz => ?_) hright
    · have hmem : z ∈ vs := by simpa using hz
      refine hnext z (List.mem_cons_of_mem _ (List.mem_append_right _ hmem)) ?_
      exact fun heq => hvs z hmem (heq ▸ List.getLastD_mem_cons)
    · have hmem : z ∈ head :: (us ++ vs) := by
        have := List.mem_of_mem_tail hz
        simp_all
        tauto
      exact hprev z hmem fun heq => headD_notMem_tail hnodupR (heq ▸ hz)

lemma nodup_insert : (head :: (us ++ x :: vs)).Nodup ↔
    x ∉ head :: (us ++ vs) ∧ (head :: (us ++ vs)).Nodup := by
  have hperm : (head :: (us ++ x :: vs)).Perm (x :: head :: (us ++ vs)) :=
    (List.perm_middle.cons head).trans (.swap x head _)
  rw [hperm.nodup_iff, List.nodup_cons]

lemma getLastD_mem : us.getLastD head ∈ head :: (us ++ vs) :=
  List.cons_subset_cons head (List.subset_append_left us vs) List.getLastD_mem_cons

lemma headD_mem_cons : vs.headD head ∈ head :: (us ++ vs) := by cases vs <;> simp

variable [DecidableEq κ]

/-- A node is put between two neighbours of a ring. -/
lemma IsRing.insert (h : L.IsRing head (us ++ vs)) (hx : x ∉ head :: (us ++ vs))
    (hnext : ∀ z, L'.nextOf z = if z = us.getLastD head then some x
      else if z = x then some (vs.headD head) else L.nextOf z)
    (hprev : ∀ z, L'.prevOf z = if z = x then some (us.getLastD head)
      else if z = vs.headD head then some x else L.prevOf z) : L'.IsRing head (us ++ x :: vs) := by
  obtain ⟨hnodup, hleft, hright, -⟩ := isRing_append.mp h
  have hne : ∀ z ∈ head :: (us ++ vs), z ≠ x := fun z hz heq => hx (heq ▸ hz)
  obtain ⟨hleft', hright'⟩ := isChain_parts_congr L' hnodup hleft hright
    (fun z hz hzp => by rw [hnext, if_neg hzp, if_neg (hne z hz)])
    (fun z hz hzq => by rw [hprev, if_neg (hne z hz), if_neg hzq])
  have hbefore : L'.Linked (us.getLastD head) x := by
    rw [Linked, hnext, if_pos rfl, hprev, if_pos rfl]
    exact ⟨rfl, rfl⟩
  have hafter : L'.Linked x (vs.headD head) := by
    rw [Linked, hnext, if_neg (hne _ getLastD_mem).symm, if_pos rfl, hprev,
      if_neg (hne _ headD_mem_cons), if_pos rfl]
    exact ⟨rfl, rfl⟩
  refine isRing_append.mpr ⟨nodup_insert.mpr ⟨hx, hnodup⟩, hleft', hright'.cons fun y hy => ?_, hbefore⟩
  obtain rfl : y = vs.headD head := by cases vs <;> simpa using hy.symm
  exact hafter

/-- A node is taken out of a ring. -/
lemma IsRing.remove (h : L.IsRing head (us ++ x :: vs))
    (hnext : ∀ z, z ≠ x → L'.nextOf z = if z = us.getLastD head then some (vs.headD head)
      else L.nextOf z)
    (hprev : ∀ z, z ≠ x → L'.prevOf z = if z = vs.headD head then some (us.getLastD head)
      else L.prevOf z) : L'.IsRing head (us ++ vs) := by
  obtain ⟨hnodup, hleft, hright, -⟩ := isRing_append.mp h
  obtain ⟨hx, hnodup⟩ := nodup_insert.mp hnodup
  have hne : ∀ z ∈ head :: (us ++ vs), z ≠ x := fun z hz heq => hx (heq ▸ hz)
  obtain ⟨hleft', hright'⟩ := isChain_parts_congr L' hnodup hleft hright.tail
    (fun z hz hzp => by rw [hnext z (hne z hz), if_neg hzp])
    (fun z hz hzq => by rw [hprev z (hne z hz), if_neg hzq])
  refine isRing_append.mpr ⟨hnodup, hleft', hright', ?_, ?_⟩
  · rw [hnext _ (hne _ getLastD_mem), if_pos rfl]
  · rw [hprev _ (hne _ headD_mem_cons), if_pos rfl]

end Ring

/-! ### Rings that share no node -/

/-- A heap of rings: those of the heads that have a list, and no node is in two of them. -/
structure Rings (L : Links κ) (R : κ → Option (List κ)) : Prop where
  ring : ∀ {head xs}, R head = some xs → L.IsRing head xs
  apart : ∀ {g xs h ys x}, R g = some xs → R h = some ys → x ∈ g :: xs → x ∈ h :: ys → g = h

/-- A node is in none of the rings. -/
def Loose (R : κ → Option (List κ)) (x : κ) : Prop := ∀ head xs, R head = some xs → x ∉ head :: xs

section Rings

variable {L L' : Links κ} {R : κ → Option (List κ)} {head x : κ} {xs us vs : List κ}

/-- A node that is not allocated is in no ring. -/
lemma Rings.loose (h : L.Rings R) (hx : L x = none) : Loose R x :=
  fun _ _ hhead hmem => (h.ring hhead).ne_none x hmem hx

/-- What is in no ring may change. -/
lemma Rings.congr (h : L.Rings R) (heq : ∀ y, ¬ Loose R y → L' y = L y) : L'.Rings R :=
  ⟨fun hhead => (h.ring hhead).congr fun y hy => heq y fun hl => hl _ _ hhead hy, h.apart⟩

/-- Some of the rings. -/
lemma Rings.mono {R' : κ → Option (List κ)} (h : L.Rings R)
    (hle : ∀ k ys, R' k = some ys → R k = some ys) : L.Rings R' :=
  ⟨fun hk => h.ring (hle _ _ hk), fun hk hk' => h.apart (hle _ _ hk) (hle _ _ hk')⟩

variable [DecidableEq κ]

/-- A node that a ring does not get stays loose. -/
lemma Loose.update (h : Loose R x) (hx : x ∉ head :: xs) :
    Loose (Function.update R head (some xs)) x := by
  intro g ys hg hmem
  by_cases heq : g = head
  · subst heq
    rw [Function.update_self, Option.some.injEq] at hg
    exact hx (hg ▸ hmem)
  · rw [Function.update_of_ne heq] at hg
    exact h g ys hg hmem

/-- One ring changes, and what it gets was in none. -/
lemma Rings.update (h : L.Rings R) (hring : L'.IsRing head xs)
    (hloose : ∀ y ∈ head :: xs, (∃ ys, R head = some ys ∧ y ∈ head :: ys) ∨ Loose R y)
    (hframe : ∀ g ys, g ≠ head → R g = some ys → ∀ y ∈ g :: ys, L' y = L y) :
    L'.Rings (Function.update R head (some xs)) := by
  have hcases : ∀ {g ys}, Function.update R head (some xs) g = some ys →
      g = head ∧ ys = xs ∨ g ≠ head ∧ R g = some ys := by
    intro g ys hg
    by_cases heq : g = head
    · subst heq
      exact .inl ⟨rfl, by simpa using hg.symm⟩
    · exact .inr ⟨heq, by simpa [heq] using hg⟩
  have hother : ∀ {g ys y}, g ≠ head → R g = some ys → y ∈ g :: ys → y ∉ head :: xs := by
    intro g ys y hne hg hy hy'
    rcases hloose y hy' with ⟨zs, hz, hyz⟩ | hl
    · exact hne (h.apart hg hz hy hyz)
    · exact hl g ys hg hy
  refine ⟨fun hg => ?_, fun hg hg' hx hx' => ?_⟩
  · rcases hcases hg with ⟨rfl, rfl⟩ | ⟨hne, hg⟩
    · exact hring
    · exact (h.ring hg).congr (hframe _ _ hne hg)
  · rcases hcases hg with ⟨rfl, rfl⟩ | ⟨hne, hr⟩ <;>
      rcases hcases hg' with ⟨rfl, rfl⟩ | ⟨hne', hr'⟩
    · rfl
    · exact absurd hx (hother hne' hr' hx')
    · exact absurd hx' (hother hne hr hx)
    · exact h.apart hr hr' hx hx'

lemma Rings.alloc (h : L.Rings R) (hx : L x = none) (l : Link κ) : (L.alloc x l).Rings R := by
  refine h.congr fun y hy => Function.update_of_ne ?_ _ _
  rintro rfl
  exact hy (h.loose hx)

lemma Rings.free (h : L.Rings R) (hx : Loose R x) : (L.free x).Rings R := by
  refine h.congr fun y hy => Function.update_of_ne ?_ _ _
  rintro rfl
  exact hy hx

/-- A node between two neighbours of one of the rings. -/
lemma Rings.insert (h : L.Rings R) (hR : R head = some (us ++ vs)) (hx : Loose R x)
    (hnext : ∀ z, L'.nextOf z = if z = us.getLastD head then some x
      else if z = x then some (vs.headD head) else L.nextOf z)
    (hprev : ∀ z, L'.prevOf z = if z = x then some (us.getLastD head)
      else if z = vs.headD head then some x else L.prevOf z)
    (hframe : ∀ z, z ≠ us.getLastD head → z ≠ vs.headD head → z ≠ x → L' z = L z) :
    L'.Rings (Function.update R head (some (us ++ x :: vs))) := by
  refine h.update ((h.ring hR).insert (hx _ _ hR) hnext hprev) (fun y hy => ?_) fun g ys hg hys y hy => ?_
  · by_cases hyx : y = x
    · exact .inr (hyx ▸ hx)
    · exact .inl ⟨_, hR, by simp_all⟩
  · have hother : ∀ z ∈ head :: (us ++ vs), y ≠ z := by
      rintro z hz rfl
      exact hg (h.apart hys hR hy hz)
    exact hframe y (hother _ getLastD_mem) (hother _ headD_mem_cons) fun heq => hx g ys hys (heq ▸ hy)

/-- A node out of one of the rings; then it is in none. -/
lemma Rings.remove (h : L.Rings R) (L' : Links κ) (hR : R head = some (us ++ x :: vs))
    (hnext : ∀ z, z ≠ x → L'.nextOf z = if z = us.getLastD head then some (vs.headD head)
      else L.nextOf z)
    (hprev : ∀ z, z ≠ x → L'.prevOf z = if z = vs.headD head then some (us.getLastD head)
      else L.prevOf z)
    (hframe : ∀ z, z ≠ us.getLastD head → z ≠ vs.headD head → z ≠ x → L' z = L z) :
    L'.Rings (Function.update R head (some (us ++ vs))) ∧
      Loose (Function.update R head (some (us ++ vs))) x := by
  obtain ⟨hx, hnodup⟩ := nodup_insert.mp (h.ring hR).nodup
  have hsub : ∀ {y}, y ∈ head :: (us ++ vs) → y ∈ head :: (us ++ x :: vs) := by
    intro y hy
    simp_all
    tauto
  refine ⟨h.update ((h.ring hR).remove hnext hprev) (fun y hy => .inl ⟨_, hR, hsub hy⟩)
    fun g ys hg hys y hy => ?_, fun g ys hg hmem => ?_⟩
  · have hother : ∀ z ∈ head :: (us ++ x :: vs), y ≠ z := by
      rintro z hz rfl
      exact hg (h.apart hys hR hy hz)
    exact hframe y (hother _ (hsub getLastD_mem)) (hother _ (hsub headD_mem_cons))
      (hother x (by simp))
  · by_cases heq : g = head
    · subst heq
      rw [Function.update_self, Option.some.injEq] at hg
      exact hx (hg ▸ hmem)
    · rw [Function.update_of_ne heq] at hg
      exact heq (h.apart hg hR hmem (by simp))

end Rings

end Links
