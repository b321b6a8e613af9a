import Mathlib.Data.List.Lex
import Mathlib.Order.Bounds.Basic
import Mathlib.Data.List.Basic
import Mathlib.Tactic.Common

/-!
# Lists ordered lexicographically and by prefix

Two lists over a linear order are either comparable as prefixes or they branch at a first
position; `Before a b` says that they branch and that `a` takes the smaller branch there.

`probes r L` is the reference order of a successor search in a table `L` of keyed entries: first
the entries whose key is a prefix of `r`, each with what is left of `r`, then the entries with a
key above `r`, each with the empty rest.
-/

namespace PrefixOrder

variable {K V : Type*}

/-! ### Keyed tables -/

/-- An entry asked for its first element. -/
def first (e : List K × V) : List K × V × List K := (e.1, e.2, [])

/-- Put `k` in front of every key. -/
def under (k : K) (M : List (List K × V)) : List (List K × V) := M.map fun e => (k :: e.1, e.2)

/-- Put `p` in front of the key of every probe. -/
def beneath (p : List K) (M : List (List K × V × List K)) : List (List K × V × List K) :=
  M.map fun e => (p ++ e.1, e.2)

@[simp] lemma beneath_nil_left (M : List (List K × V × List K)) : beneath [] M = M := by
  simp [beneath]

@[simp] lemma beneath_nil (p : List K) : beneath p ([] : List (List K × V × List K)) = [] := rfl

@[simp] lemma beneath_append (p : List K) (M N : List (List K × V × List K)) :
    beneath p (M ++ N) = beneath p M ++ beneath p N := by simp [beneath]

lemma beneath_beneath (p q : List K) (M : List (List K × V × List K)) :
    beneath p (beneath q M) = beneath (p ++ q) M := by simp [beneath, Function.comp_def]

lemma map_first_under (k : K) (M : List (List K × V)) :
    (under k M).map first = beneath [k] (M.map first) := by
  simp [under, beneath, first, Function.comp_def]

/-- Put `p` in front of every key of a table. -/
def atop (p : List K) (M : List (List K × V)) : List (List K × V) := M.map fun e => (p ++ e.1, e.2)

lemma beneath_map_first (p : List K) (M : List (List K × V)) :
    beneath p (M.map first) = (atop p M).map first := by
  simp [beneath, atop, first, Function.comp_def]

variable [LinearOrder K]

/-! ### Branching below -/

/-- `a` and `b` branch at a first position, and `a` takes the smaller branch there. -/
def Before : List K → List K → Prop
  | x :: xs, y :: ys => x < y ∨ (x = y ∧ Before xs ys)
  | _, _ => False

@[simp] lemma before_cons {x y : K} {xs ys : List K} :
    Before (x :: xs) (y :: ys) ↔ x < y ∨ (x = y ∧ Before xs ys) := Iff.rfl

@[simp] lemma not_before_nil_left (b : List K) : ¬ Before [] b := by simp [Before]

@[simp] lemma not_before_nil_right (a : List K) : ¬ Before a [] := by cases a <;> simp [Before]

lemma before_iff (a b : List K) : Before a b ↔ a < b ∧ ¬ a <+: b := by
  induction a generalizing b with
  | nil => simp
  | cons x xs ih =>
    cases b with
    | nil => simp
    | cons y ys =>
      rw [before_cons, ih, List.cons_lt_cons_iff, List.cons_prefix_cons]
      constructor
      · rintro (h | ⟨rfl, hlt, hp⟩)
        · exact ⟨Or.inl h, fun hp => h.ne hp.1⟩
        · exact ⟨Or.inr ⟨rfl, hlt⟩, fun h => hp h.2⟩
      · rintro ⟨h | ⟨rfl, hlt⟩, hp⟩
        · exact Or.inl h
        · exact Or.inr ⟨rfl, hlt, fun h => hp ⟨rfl, h⟩⟩

lemma Before.lt {a b : List K} (h : Before a b) : a < b := ((before_iff a b).mp h).1

lemma le_of_isPrefix {a b : List K} (h : a <+: b) : a ≤ b := by
  obtain ⟨t, rfl⟩ := h
  induction a with
  | nil => exact not_lt.mp (List.not_lt_nil _)
  | cons x xs ih => simpa using List.cons_le_cons x ih

/-- Branching is stable under extending either side. -/
lemma Before.append {a b : List K} (h : Before a b) (s t : List K) : Before (a ++ s) (b ++ t) := by
  induction a generalizing b with
  | nil => simp at h
  | cons x xs ih =>
    cases b with
    | nil => simp at h
    | cons y ys =>
      rcases before_cons.mp h with hlt | ⟨rfl, hb⟩
      · exact Or.inl hlt
      · exact Or.inr ⟨rfl, ih hb⟩

lemma before_append_left (p : List K) {a b : List K} :
    Before (p ++ a) (p ++ b) ↔ Before a b := by
  induction p with
  | nil => simp
  | cons x xs ih => simpa using ih

/-- Two lists are prefixes of one another or branch. -/
lemma prefix_or_before (a b : List K) : a <+: b ∨ b <+: a ∨ Before a b ∨ Before b a := by
  induction a generalizing b with
  | nil => simp
  | cons x xs ih =>
    cases b with
    | nil => simp
    | cons y ys =>
      rcases lt_trichotomy x y with h | rfl | h
      · exact Or.inr (Or.inr (Or.inl (Or.inl h)))
      · rcases ih ys with h | h | h | h
        · exact Or.inl (List.cons_prefix_cons.mpr ⟨rfl, h⟩)
        · exact Or.inr (Or.inl (List.cons_prefix_cons.mpr ⟨rfl, h⟩))
        · exact Or.inr (Or.inr (Or.inl (Or.inr ⟨rfl, h⟩)))
        · exact Or.inr (Or.inr (Or.inr (Or.inr ⟨rfl, h⟩)))
      · exact Or.inr (Or.inr (Or.inr (Or.inl h)))

lemma append_lt_append_left (p : List K) {a b : List K} : p ++ a < p ++ b ↔ a < b := by
  induction p with
  | nil => simp
  | cons x xs ih => simpa [List.cons_lt_cons_iff] using ih

/-! ### The probes of a successor search -/

/-- The entries of `L` in the order a successor search for `r` asks them, with the rest of `r`
each of them is asked for. -/
def probes (r : List K) (L : List (List K × V)) : List (List K × V × List K) :=
  (L.filter fun e => e.1 <+: r).map (fun e => (e.1, e.2, r.drop e.1.length)) ++
    (L.filter fun e => r < e.1).map (fun e => (e.1, e.2, []))

/-- Every key of `L` starts with something above `x`. -/
def HeadsAbove (x : K) (L : List (List K × V)) : Prop := ∀ e ∈ L, ∃ k t, e.1 = k :: t ∧ x < k

@[simp] lemma probes_nil (r : List K) : probes r ([] : List (List K × V)) = [] := rfl

/-- A single entry with the empty key is asked for all of `r`. -/
lemma probes_singleton (r : List K) (v : V) : probes r [(([] : List K), v)] = [([], v, r)] := by
  simp [probes]

/-- Asked for the empty list, a table without the empty key yields its first elements. -/
lemma probes_of_nil {L : List (List K × V)} (h : ∀ e ∈ L, e.1 ≠ []) :
    probes [] L = L.map first := by
  have h₁ : (L.filter fun e => e.1 <+: ([] : List K)) = [] := by
    simpa [List.filter_eq_nil_iff] using fun a b he => h (a, b) he
  have h₂ : (L.filter fun e => ([] : List K) < e.1) = L := by
    rw [List.filter_eq_self]
    intro e he
    obtain ⟨k, t, hk⟩ := List.exists_cons_of_ne_nil (h e he)
    simp [hk]
  simp only [probes, h₁, h₂, List.map_nil, List.nil_append]
  rfl

/-- Entries that branch off below the request are not asked. -/
lemma probes_under_of_lt {x k : K} (xs : List K) (h : k < x) (M L : List (List K × V)) :
    probes (x :: xs) (under k M ++ L) = probes (x :: xs) L := by
  have h₁ : ((under k M).filter fun e => e.1 <+: x :: xs) = [] := by
    rw [List.filter_eq_nil_iff]
    intro e he
    obtain ⟨m, _, rfl⟩ := List.mem_map.mp he
    simp [h.ne]
  have h₂ : ((under k M).filter fun e => x :: xs < e.1) = [] := by
    rw [List.filter_eq_nil_iff]
    intro e he
    obtain ⟨m, _, rfl⟩ := List.mem_map.mp he
    simp [List.cons_lt_cons_iff, h.not_gt, h.ne', -not_lt]
  simp [probes, h₁, h₂]

/-- Entries that branch off above the request are asked for their first elements. -/
lemma probes_of_headsAbove {x : K} (xs : List K) {L : List (List K × V)} (h : HeadsAbove x L) :
    probes (x :: xs) L = L.map first := by
  have h₁ : (L.filter fun e => e.1 <+: x :: xs) = [] := by
    rw [List.filter_eq_nil_iff]
    intro e he
    obtain ⟨k, t, hk, hlt⟩ := h e he
    simp [hk, hlt.ne']
  have h₂ : (L.filter fun e => x :: xs < e.1) = L := by
    rw [List.filter_eq_self]
    intro e he
    obtain ⟨k, t, hk, hlt⟩ := h e he
    simp [hk, List.cons_lt_cons_iff, hlt]
  simp only [probes, h₁, h₂, List.map_nil, List.nil_append]
  rfl

/-- The entries under the request's first element are asked for the rest of the request, and then
come the entries above. -/
lemma probes_under_self (x : K) (xs : List K) (M : List (List K × V)) {L : List (List K × V)}
    (h : HeadsAbove x L) :
    probes (x :: xs) (under x M ++ L) = beneath [x] (probes xs M) ++ L.map first := by
  have hL := probes_of_headsAbove xs h
  have hp : (L.filter fun e => e.1 <+: x :: xs) = [] := by
    rw [List.filter_eq_nil_iff]
    intro e he
    obtain ⟨k, t, hk, hlt⟩ := h e he
    simp [hk, hlt.ne']
  simp only [probes, hp, List.map_nil, List.nil_append] at hL
  simp only [probes, List.filter_append, hp, List.append_nil, List.map_append, hL, ← List.append_assoc]
  congr 1
  simp [under, beneath, List.filter_map, Function.comp_def]

/-! ### Tables below a key -/

/-- A search below `p` is a search in the table of whole keys. -/
lemma beneath_probes (p r : List K) (M : List (List K × V)) :
    beneath p (probes r M) = probes (p ++ r) (atop p M) := by
  simp [probes, beneath, atop, List.filter_map, Function.comp_def, List.prefix_append_right_inj,
    append_lt_append_left, List.drop_append]

lemma pairwise_atop (p : List K) {M : List (List K × V)}
    (h : M.Pairwise fun a b => Before a.1 b.1) : (atop p M).Pairwise fun a b => Before a.1 b.1 := by
  rw [atop, List.pairwise_map]
  exact h.imp fun hab => (before_append_left p).mpr hab

/-- What lies between a list and an extension of it extends it too. -/
lemma prefix_of_between {v a b : List K} (hva : v ≤ a) (hab : a ≤ b) (hvb : v <+: b) : v <+: a := by
  rcases prefix_or_before v a with h | h | h | h
  · exact h
  · exact (le_antisymm hva (le_of_isPrefix h)) ▸ List.prefix_refl v
  · obtain ⟨t, rfl⟩ := hvb
    have hlt := (h.append t []).lt
    rw [List.append_nil] at hlt
    exact absurd hlt (not_lt.mpr hab)
  · exact absurd h.lt (not_lt.mpr hva)

/-- A function that keeps the order keeps it on lists. -/
lemma map_lt_map_iff {L : Type*} [LinearOrder L] {f : K → L} (hf : StrictMono f) {xs ys : List K} :
    xs.map f < ys.map f ↔ xs < ys := by
  induction xs generalizing ys with
  | nil => cases ys <;> simp
  | cons x xs ih =>
    cases ys with
    | nil => simp
    | cons y ys =>
      simp only [List.map_cons, List.cons_lt_cons_iff, hf.lt_iff_lt, hf.injective.eq_iff, ih]

/-! ### Successors -/

section Successor

variable {W : Type*} (next : V → List K → Option W) (key : W → List K) (S : V → Set (List K))

/-- `next` answers with the least member of a set above what it is asked for. -/
def AnswersLeast : Prop := ∀ v s, match next v s with
  | none => ∀ a ∈ S v, ¬ s < a
  | some w => IsLeast {a | a ∈ S v ∧ s < a} (key w)

/-- The answers to a list of probes, with their whole keys. -/
def answers (es : List (List K × V × List K)) : List (List K × W) :=
  es.filterMap fun e => (next e.2.1 e.2.2).map fun w => (e.1 ++ key w, w)

/-- The members of a table, with their whole keys. -/
def members (L : List (List K × V)) : Set (List K) := {x | ∃ e ∈ L, ∃ a ∈ S e.2, x = e.1 ++ a}

omit [LinearOrder K] in
lemma mem_answers {es : List (List K × V × List K)} {h : List K × W} :
    h ∈ answers next key es ↔
      ∃ e ∈ es, next e.2.1 e.2.2 = some h.2 ∧ h.1 = e.1 ++ key h.2 := by
  simp only [answers, List.mem_filterMap, Option.map_eq_some_iff]
  constructor
  · rintro ⟨e, he, w, hw, rfl⟩
    exact ⟨e, he, hw, rfl⟩
  · rintro ⟨e, he, hw, heq⟩
    exact ⟨e, he, h.2, hw, by rw [← heq]⟩

lemma mem_probes {r : List K} {L : List (List K × V)} {e : List K × V × List K} :
    e ∈ probes r L ↔ (e.1, e.2.1) ∈ L ∧ (r = e.1 ++ e.2.2 ∨ r < e.1 ∧ e.2.2 = []) := by
  obtain ⟨p, v, s⟩ := e
  simp only [probes, List.mem_append, List.mem_map, List.mem_filter, decide_eq_true_eq,
    Prod.exists, Prod.mk.injEq]
  constructor
  · rintro (⟨p', v', ⟨hmem, t, rfl⟩, rfl, rfl, rfl⟩ | ⟨p', v', ⟨hmem, hlt⟩, rfl, rfl, rfl⟩)
    · exact ⟨hmem, Or.inl (by simp)⟩
    · exact ⟨hmem, Or.inr ⟨hlt, rfl⟩⟩
  · rintro ⟨hmem, rfl | ⟨hlt, rfl⟩⟩
    · exact Or.inl ⟨p, v, ⟨hmem, List.prefix_append _ _⟩, rfl, rfl, by simp⟩
    · exact Or.inr ⟨p, v, ⟨hmem, hlt⟩, rfl, rfl, rfl⟩

/-- The keys of the probes of a table that branches upwards do the same. -/
lemma pairwise_probes (r : List K) {L : List (List K × V)}
    (hL : L.Pairwise fun a b => Before a.1 b.1) :
    (probes r L).Pairwise fun a b => Before a.1 b.1 := by
  rw [probes, List.pairwise_append, List.pairwise_map, List.pairwise_map]
  refine ⟨hL.filter _, hL.filter _, ?_⟩
  intro a ha b hb
  simp only [List.mem_map, List.mem_filter, decide_eq_true_eq] at ha hb
  obtain ⟨e, ⟨he, her⟩, rfl⟩ := ha
  obtain ⟨f, ⟨hf, hrf⟩, rfl⟩ := hb
  -- an entry at or above the request and one above it cannot be the other way round
  have hlt : e.1 < f.1 := lt_of_le_of_lt (le_of_isPrefix her) hrf
  have htotal : e = f ∨ Before e.1 f.1 ∨ Before f.1 e.1 := by
    exact List.Pairwise.forall_of_forall_of_flip
      (R := fun e f => e = f ∨ Before e.1 f.1 ∨ Before f.1 e.1) (fun x _ => Or.inl rfl)
      (hL.imp fun hab => Or.inr (Or.inl hab)) (hL.imp fun hab => Or.inr (Or.inr hab)) he hf
  rcases htotal with rfl | h | h
  · exact absurd hlt (lt_irrefl _)
  · exact h
  · exact absurd h.lt hlt.not_gt

lemma pairwise_answers {L : List (List K × V)} (r : List K)
    (hL : L.Pairwise fun a b => Before a.1 b.1) :
    (answers next key (probes r L)).Pairwise fun a b => a.1 < b.1 := by
  apply (pairwise_probes r hL).filterMap _
  intro e f hef x hx y hy
  simp only [Option.map_eq_some_iff] at hx hy
  obtain ⟨w, _, rfl⟩ := hx
  obtain ⟨w', _, rfl⟩ := hy
  exact (hef.append _ _).lt

variable {next key S} {L : List (List K × V)} {r : List K}

/-- Every answer is a member above the request. -/
lemma lt_of_mem_answers (hnext : AnswersLeast next key S) {h : List K × W}
    (hh : h ∈ answers next key (probes r L)) : h.1 ∈ members S L ∧ r < h.1 := by
  obtain ⟨⟨p, v, s⟩, he, hw, heq⟩ := (mem_answers next key).mp hh
  obtain ⟨hmem, hr⟩ := mem_probes.mp he
  have hleast := hnext v s
  simp only at hw
  rw [hw] at hleast
  refine ⟨⟨(p, v), hmem, key h.2, hleast.1.1, heq⟩, ?_⟩
  rw [heq]
  rcases hr with rfl | ⟨hlt, _⟩
  · exact (append_lt_append_left p).mpr hleast.1.2
  · exact lt_of_lt_of_le hlt (le_of_isPrefix (List.prefix_append _ _))

/-- Every member above the request has an answer at or below it. -/
lemma exists_answer_le (hnext : AnswersLeast next key S) (hne : ∀ v, [] ∉ S v) {x : List K}
    (hx : x ∈ members S L) (hr : r < x) : ∃ h ∈ answers next key (probes r L), h.1 ≤ x := by
  obtain ⟨⟨p, v⟩, hmem, a, ha, rfl⟩ := hx
  -- the probe of this entry, and that its suffix is below the member
  obtain ⟨s, hs, hlt⟩ : ∃ s, (p, v, s) ∈ probes r L ∧ s < a := by
    rcases prefix_or_before p r with ⟨t, rfl⟩ | h | h | h
    · exact ⟨t, mem_probes.mpr ⟨hmem, Or.inl rfl⟩, (append_lt_append_left p).mp hr⟩
    · rcases (le_of_isPrefix h).lt_or_eq with h | rfl
      · exact ⟨[], mem_probes.mpr ⟨hmem, Or.inr ⟨h, rfl⟩⟩, by
          cases a with
          | nil => exact absurd ha (hne v)
          | cons x xs => simp⟩
      · exact ⟨[], mem_probes.mpr ⟨hmem, Or.inl (by simp)⟩,
          (append_lt_append_left _).mp (by simpa using hr)⟩
    · have hpa := (h.append a []).lt
      rw [List.append_nil] at hpa
      exact absurd hr hpa.not_gt
    · refine ⟨[], mem_probes.mpr ⟨hmem, Or.inr ⟨h.lt, rfl⟩⟩, ?_⟩
      cases a with
      | nil => exact absurd ha (hne v)
      | cons x xs => simp
  have hleast := hnext v s
  cases hw : next v s with
  | none =>
    rw [hw] at hleast
    exact absurd hlt (hleast a ha)
  | some w =>
    rw [hw] at hleast
    refine ⟨(p ++ key w, w), (mem_answers next key).mpr ⟨_, hs, hw, rfl⟩, ?_⟩
    rcases (hleast.2 ⟨ha, hlt⟩).lt_or_eq with h | h
    · exact ((append_lt_append_left p).mpr h).le
    · simp [h]

/-- The first answer below `v` is the least member above the request and below `v`, if the request
is below `v` itself. -/
theorem find_answers_least (hL : L.Pairwise fun a b => Before a.1 b.1)
    (hnext : AnswersLeast next key S) (hne : ∀ v, [] ∉ S v) {v : List K} (hv : v <+: r) :
    match (answers next key (probes r L)).find? fun h => v <+: h.1 with
    | none => ∀ x ∈ members S L, r < x → ¬ v <+: x
    | some h => IsLeast {x | x ∈ members S L ∧ r < x ∧ v <+: x} h.1 := by
  -- the answer of a member below `v` is below `v`
  have hbelow : ∀ x ∈ members S L, r < x → v <+: x →
      ∃ h ∈ answers next key (probes r L), h.1 ≤ x ∧ v <+: h.1 := by
    intro x hx hr hvx
    obtain ⟨h, hh, hle⟩ := exists_answer_le hnext hne hx hr
    have hlt := (lt_of_mem_answers hnext hh).2
    exact ⟨h, hh, hle, prefix_of_between ((le_of_isPrefix hv).trans hlt.le) hle hvx⟩
  split
  next hfind =>
    intro x hx hr hvx
    obtain ⟨h, hh, _, hvh⟩ := hbelow x hx hr hvx
    exact absurd hvh (by simpa using List.find?_eq_none.mp hfind h hh)
  next h hfind =>
    obtain ⟨hvh, as, bs, hsplit, has⟩ := List.find?_eq_some_iff_append.mp hfind
    obtain ⟨hmem, hr⟩ := lt_of_mem_answers hnext (List.mem_of_find?_eq_some hfind)
    refine ⟨⟨hmem, hr, by simpa using hvh⟩, ?_⟩
    rintro x ⟨hx, hrx, hvx⟩
    obtain ⟨h', hh', hle, hvh'⟩ := hbelow x hx hrx hvx
    refine le_trans ?_ hle
    have hsorted := pairwise_answers next key r hL
    rw [hsplit] at hh' hsorted
    rcases List.mem_append.mp hh' with hin | hin
    · simpa [hvh'] using has h' hin
    · rcases List.mem_cons.mp hin with rfl | hin
      · exact le_refl _
      · exact ((List.pairwise_cons.mp (List.pairwise_append.mp hsorted).2.1).1 h' hin).le

end Successor

end PrefixOrder
