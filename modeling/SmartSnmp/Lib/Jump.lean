import Mathlib.Data.Set.Card
import Mathlib.Order.Bounds.Basic

/-!
# Searches that jump

A search for the least wanted element above a bound. Each round takes the least element of a set
above the bound; if that is not wanted, the search goes on above the point it jumps to from there.
It finds the least wanted element exactly if none of its jumps passes over a wanted one.
-/

namespace Jump

variable {α : Type*} [LinearOrder α]

/-- The elements above a bound. -/
def above (S : Set α) (q : α) : Set α := {x | x ∈ S ∧ q < x}

/-- The outcome is the least element, or that there is none. -/
def Finds (S : Set α) : Option α → Prop
  | none => S = ∅
  | some w => IsLeast S w

lemma above_subset (S : Set α) {q q' : α} (h : q ≤ q') : above S q' ⊆ above S q :=
  fun _ hx => ⟨hx.1, h.trans_lt hx.2⟩

lemma ncard_above_lt {S : Set α} (hS : S.Finite) {q q' x : α} (hx : x ∈ above S q) (hle : x ≤ q') :
    (above S q').ncard < (above S q).ncard := by
  apply Set.ncard_lt_ncard
  · refine ⟨above_subset S (hx.2.le.trans hle), fun hsub => ?_⟩
    exact absurd hle (not_le.mpr (hsub hx).2)
  · exact hS.subset fun _ hy => hy.1

section Search

variable (S P : Set α) (jump : α → α)

/-- How the search from a bound ends. -/
inductive Reaches : α → Option α → Prop
  | exhausted {q : α} : above S q = ∅ → Reaches q none
  | wanted {q x : α} : IsLeast (above S q) x → x ∈ P → Reaches q (some x)
  | jumps {q x : α} {r : Option α} : IsLeast (above S q) x → x ∉ P → Reaches (jump x) r → Reaches q r

/-- The elements that the search from a bound takes. -/
inductive Met : α → α → Prop
  | first {q x : α} : IsLeast (above S q) x → Met q x
  | later {q x y : α} : IsLeast (above S q) x → x ∉ P → Met (jump x) y → Met q y

/-- No jump from an element that the search takes passes over a wanted one. -/
def NothingSkipped (q : α) : Prop :=
  ∀ x, Met S P jump q x → x ∉ P → ∀ y ∈ S ∩ P, ¬ (x < y ∧ y ≤ jump x)

end Search

variable {S P : Set α} {jump : α → α} (hjump : ∀ x ∈ S, x ≤ jump x)
include hjump

lemma Reaches.lt {q : α} {r : Option α} (h : Reaches S P jump q r) : ∀ w ∈ r, q < w := by
  induction h with
  | exhausted _ => simp
  | @wanted q x hx _ =>
    intro w hw
    rw [← Option.some.inj hw]
    exact hx.1.2
  | @jumps q x r hx _ _ ih =>
    intro w hw
    exact hx.1.2.trans ((hjump x hx.1.1).trans_lt (ih w hw))

/-- A jump that passes over nothing wanted does not change what is searched for. -/
lemma above_jump_eq {q x : α} (hx : IsLeast (above S q) x) (hxP : x ∉ P)
    (hskip : ∀ y ∈ S ∩ P, ¬ (x < y ∧ y ≤ jump x)) : above (S ∩ P) (jump x) = above (S ∩ P) q := by
  apply Set.Subset.antisymm (above_subset _ (hx.1.2.le.trans (hjump x hx.1.1)))
  rintro y ⟨hy, hlt⟩
  refine ⟨hy, not_le.mp fun hle => hskip y hy ⟨?_, hle⟩⟩
  refine lt_of_le_of_ne (hx.2 ⟨hy.1, hlt⟩) fun heq => hxP ?_
  rw [heq]
  exact hy.2

omit hjump in
lemma nothingSkipped_jumps {q x : α} (hx : IsLeast (above S q) x) (hxP : x ∉ P) :
    NothingSkipped S P jump q ↔
      (∀ y ∈ S ∩ P, ¬ (x < y ∧ y ≤ jump x)) ∧ NothingSkipped S P jump (jump x) := by
  constructor
  · exact fun h => ⟨h x (.first hx) hxP, fun y hy => h y (.later hx hxP hy)⟩
  · rintro ⟨hskip, hrest⟩ y hy hyP
    cases hy with
    | first hy =>
      rw [hy.unique hx]
      exact hskip
    | later hy hyP' hlater =>
      rw [hy.unique hx] at hlater
      exact hrest y hlater hyP

omit hjump in
lemma nothingSkipped_of_wanted {q x : α} (hx : IsLeast (above S q) x) (hxP : x ∈ P) :
    NothingSkipped S P jump q := by
  intro y hy hyP
  cases hy with
  | first hy => exact absurd (hy.unique hx ▸ hxP) hyP
  | later hy hyP' _ => exact absurd (hy.unique hx ▸ hxP) hyP'

/-- The search finds the least wanted element exactly if it skips none. -/
theorem Reaches.finds_iff {q : α} {r : Option α} (h : Reaches S P jump q r) :
    Finds (above (S ∩ P) q) r ↔ NothingSkipped S P jump q := by
  induction h with
  | @exhausted q hempty =>
    have hsub : above (S ∩ P) q ⊆ above S q := fun y hy => ⟨hy.1.1, hy.2⟩
    refine iff_of_true (Set.subset_eq_empty hsub hempty) ?_
    intro x hx
    cases hx with
    | first hx => exact absurd hx.1 (hempty ▸ Set.notMem_empty x)
    | @later _ x' _ hx _ _ => exact absurd hx.1 (hempty ▸ Set.notMem_empty x')
  | @wanted q x hx hxP =>
    refine iff_of_true ⟨⟨⟨hx.1.1, hxP⟩, hx.1.2⟩, ?_⟩ (nothingSkipped_of_wanted hx hxP)
    exact fun y hy => hx.2 ⟨hy.1.1, hy.2⟩
  | @jumps q x r hx hxP hrest ih =>
    rw [nothingSkipped_jumps hx hxP]
    by_cases hskip : ∀ y ∈ S ∩ P, ¬ (x < y ∧ y ≤ jump x)
    · rw [← above_jump_eq hjump hx hxP hskip, ih]
      exact (and_iff_right hskip).symm
    · -- a wanted element is passed over, and the search ends behind it
      refine iff_of_false ?_ fun h => hskip h.1
      push Not at hskip
      obtain ⟨y, hy, hxy, hyx⟩ := hskip
      have hmem : y ∈ above (S ∩ P) q := ⟨hy, hx.1.2.trans hxy⟩
      cases r with
      | none => exact fun hempty => Set.notMem_empty y (hempty ▸ hmem)
      | some w =>
        intro hleast
        have hlt : jump x < w := hrest.lt hjump w rfl
        exact absurd (hleast.2 hmem) (not_le.mpr (hyx.trans_lt hlt))

omit hjump in
/-- No search skips anything if no element that is not wanted has a wanted one in reach. -/
theorem forall_nothingSkipped_iff (hbound : ∀ x ∈ S, ∃ q, IsLeast (above S q) x) :
    (∀ q, NothingSkipped S P jump q) ↔
      ∀ x ∈ S, x ∉ P → ∀ y ∈ S ∩ P, ¬ (x < y ∧ y ≤ jump x) := by
  constructor
  · intro h x hx hxP
    obtain ⟨q, hq⟩ := hbound x hx
    exact h q x (.first hq) hxP
  · intro h q x hx hxP
    have hxS : x ∈ S := by
      induction hx with
      | first hx => exact hx.1.1
      | later _ _ _ ih => exact ih hxP
    exact h x hxS hxP

end Jump
