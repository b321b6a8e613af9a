import Mathlib.Data.List.Nodup
import SmartSnmp.Lib.PrefixOrder

/-!
# Prefix-minimal lists

The members of `L` that no other member of `L` is a prefix of, in ascending order, are a canonical
form of `L` as a set of prefixes: it covers what `L` covers and depends only on the members of `L`.
-/

namespace PrefixOrder

variable {K : Type*}

/-- No other member of `L` is a prefix of `x`. -/
def PrefixMinimal (L : List (List K)) (x : List K) : Prop := x ∈ L ∧ ∀ y ∈ L, y <+: x → y = x

/-- Every member has a minimal one above it. -/
lemma exists_prefixMinimal {L : List (List K)} {x : List K} (hx : x ∈ L) :
    ∃ v, PrefixMinimal L v ∧ v <+: x := by
  induction hn : x.length using Nat.strong_induction_on generalizing x with
  | _ n ih =>
    by_cases hmin : ∀ y ∈ L, y <+: x → y = x
    · exact ⟨x, ⟨hx, hmin⟩, List.prefix_refl x⟩
    · push Not at hmin
      obtain ⟨y, hy, hyx, hne⟩ := hmin
      have hlen : y.length < n := by
        rcases hyx.length_le.lt_or_eq with h | h
        · omega
        · exact absurd (hyx.eq_of_length h) hne
      obtain ⟨v, hv, hvy⟩ := ih y.length hlen hy rfl
      exact ⟨v, hv, hvy.trans hyx⟩

/-- No member is a prefix of another. -/
def PrefixFree (views : List (List K)) : Prop := views.Pairwise fun a b => ¬ a <+: b ∧ ¬ b <+: a

lemma PrefixFree.nodup {views : List (List K)} (h : PrefixFree views) : views.Nodup :=
  List.Pairwise.imp (fun {a b} hab (heq : a = b) => hab.1 (heq ▸ List.prefix_refl a)) h

variable [LinearOrder K]

/-- `views` lists the prefix-minimal members of `L` in ascending order. -/
structure IsCanonical (views L : List (List K)) : Prop where
  ascending : views.Pairwise (· < ·)
  mem_iff : ∀ x, x ∈ views ↔ PrefixMinimal L x

namespace IsCanonical

variable {views L : List (List K)}

lemma nil : IsCanonical ([] : List (List K)) [] := ⟨.nil, by simp [PrefixMinimal]⟩

lemma eq_of_isPrefix (h : IsCanonical views L) {u v : List K} (hu : u ∈ views) (hv : v ∈ views)
    (huv : u <+: v) : u = v := ((h.mem_iff v).mp hv).2 u ((h.mem_iff u).mp hu).1 huv

lemma prefixFree (h : IsCanonical views L) : PrefixFree views := by
  apply (List.Pairwise.and_mem.mp h.ascending).imp
  rintro a b ⟨ha, hb, hlt⟩
  exact ⟨fun hab => hlt.ne (h.eq_of_isPrefix ha hb hab), fun hba => hlt.ne (h.eq_of_isPrefix hb ha hba).symm⟩

/-- The canonical form covers what the list covers. -/
lemma covers_iff (h : IsCanonical views L) (x : List K) :
    (∃ v ∈ views, v <+: x) ↔ ∃ r ∈ L, r <+: x := by
  constructor
  · rintro ⟨v, hv, hvx⟩
    exact ⟨v, ((h.mem_iff v).mp hv).1, hvx⟩
  · rintro ⟨r, hr, hrx⟩
    obtain ⟨v, hv, hvr⟩ := exists_prefixMinimal hr
    exact ⟨v, (h.mem_iff v).mpr hv, hvr.trans hrx⟩

/-- The canonical form depends only on the members of the list. -/
lemma unique {views' L' : List (List K)} (h : IsCanonical views L) (h' : IsCanonical views' L')
    (hmem : ∀ x, x ∈ L ↔ x ∈ L') : views = views' := by
  have hmem' : ∀ x, x ∈ views ↔ x ∈ views' := by
    intro x
    simp only [h.mem_iff, h'.mem_iff, PrefixMinimal, hmem]
  have hperm : views.Perm views' :=
    (List.perm_ext_iff_of_nodup (h.ascending.imp ne_of_lt) (h'.ascending.imp ne_of_lt)).mpr hmem'
  exact hperm.eq_of_pairwise (fun a b _ _ hab hba => absurd hab hba.not_gt) h.ascending h'.ascending

/-- A list that covers `oid` stays as it is when `oid` is added. -/
lemma cons_covered (h : IsCanonical views L) {oid v : List K} (hv : v ∈ views) (hcov : v <+: oid) :
    IsCanonical views (oid :: L) := by
  refine ⟨h.ascending, ?_⟩
  intro x
  rw [h.mem_iff]
  constructor
  · rintro ⟨hx, hmin⟩
    refine ⟨List.mem_cons_of_mem _ hx, ?_⟩
    intro y hy hyx
    rcases List.mem_cons.mp hy with rfl | hy
    · obtain rfl := hmin v ((h.mem_iff v).mp hv).1 (hcov.trans hyx)
      exact hyx.eq_of_length (Nat.le_antisymm hyx.length_le hcov.length_le)
    · exact hmin y hy hyx
  · rintro ⟨hx, hmin⟩
    have hmin' : ∀ y ∈ L, y <+: x → y = x := fun y hy => hmin y (List.mem_cons_of_mem _ hy)
    rcases List.mem_cons.mp hx with rfl | hx
    · have hvL := ((h.mem_iff v).mp hv).1
      exact ⟨hmin' v hvL hcov ▸ hvL, hmin'⟩
    · exact ⟨hx, hmin'⟩

/-- Adding an `oid` that is not covered replaces what it covers. -/
lemma cons_insert {views' : List (List K)} (h : IsCanonical views L) {oid : List K}
    (hcov : ∀ v ∈ views, ¬ v <+: oid) (hasc : views'.Pairwise (· < ·))
    (hmem : ∀ x, x ∈ views' ↔ x = oid ∨ x ∈ views ∧ ¬ oid <+: x) :
    IsCanonical views' (oid :: L) := by
  refine ⟨hasc, ?_⟩
  intro x
  have hcov' : ∀ r ∈ L, ¬ r <+: oid := by
    intro r hr hro
    obtain ⟨v, hv, hvo⟩ := (h.covers_iff oid).mpr ⟨r, hr, hro⟩
    exact hcov v hv hvo
  rw [hmem, h.mem_iff]
  constructor
  · rintro (rfl | ⟨⟨hx, hmin⟩, hno⟩)
    · refine ⟨List.mem_cons_self, ?_⟩
      intro y hy hyx
      rcases List.mem_cons.mp hy with rfl | hy
      · rfl
      · exact absurd hyx (hcov' y hy)
    · refine ⟨List.mem_cons_of_mem _ hx, ?_⟩
      intro y hy hyx
      rcases List.mem_cons.mp hy with rfl | hy
      · exact absurd hyx hno
      · exact hmin y hy hyx
  · rintro ⟨hx, hmin⟩
    by_cases hxo : x = oid
    · exact Or.inl hxo
    · right
      refine ⟨⟨(List.mem_cons.mp hx).resolve_left hxo, fun y hy => hmin y (List.mem_cons_of_mem _ hy)⟩,
        fun hox => hxo (hmin oid List.mem_cons_self hox).symm⟩

end IsCanonical

end PrefixOrder
