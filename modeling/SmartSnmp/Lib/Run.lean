import Mathlib.Tactic.Common

/-!
# Runs of a step function

A machine reads inputs one after the other; a step may end it. `Always` says that a property holds
of every state that a run reaches, and `EachStep` that a condition holds at every step it takes, of
the state before the step and of the input.
-/

namespace Run

variable {σ ι : Type*} (step : σ → ι → Option σ)

/-- The state after the inputs. -/
def run (s : σ) (inputs : List ι) : Option σ := inputs.foldlM step s

@[simp] lemma run_nil (s : σ) : run step s [] = some s := rfl

@[simp] lemma run_cons (s : σ) (i : ι) (is : List ι) :
    run step s (i :: is) = (step s i).bind fun s' => run step s' is := rfl

lemma run_append (s : σ) (is js : List ι) :
    run step s (is ++ js) = (run step s is).bind fun s' => run step s' js := by
  simp only [run, List.foldlM_append, Option.bind_eq_bind]

/-- The property holds before each input and at the end. -/
def Always (P : σ → Prop) : σ → List ι → Prop
  | s, [] => P s
  | s, i :: is => P s ∧ ∀ s', step s i = some s' → Always P s' is

/-- The condition holds at each input. -/
def EachStep (C : σ → ι → Prop) : σ → List ι → Prop
  | _, [] => True
  | s, i :: is => C s i ∧ ∀ s', step s i = some s' → EachStep C s' is

variable {step}

instance EachStep.decidable {C : σ → ι → Prop} [∀ s i, Decidable (C s i)] :
    ∀ s is, Decidable (EachStep step C s is)
  | _, [] => inferInstanceAs (Decidable True)
  | s, i :: is =>
    match h : step s i with
    | none => decidable_of_iff (C s i) ⟨fun hC => ⟨hC, by simp [h]⟩, fun hall => hall.1⟩
    | some s' =>
      have := EachStep.decidable (C := C) s' is
      decidable_of_iff (C s i ∧ EachStep step C s' is)
        ⟨fun hall => ⟨hall.1, by simpa [h] using hall.2⟩, fun hall => ⟨hall.1, hall.2 s' h⟩⟩

lemma Always.head {P : σ → Prop} {s : σ} {is : List ι} (h : Always step P s is) : P s := by
  cases is with
  | nil => exact h
  | cons i is => exact h.1

lemma EachStep.mono {C D : σ → ι → Prop} {s : σ} {is : List ι} (h : EachStep step C s is)
    (hCD : ∀ s i, C s i → D s i) : EachStep step D s is := by
  induction is generalizing s with
  | nil => trivial
  | cons i is ih => exact ⟨hCD s i h.1, fun s' hs' => ih (h.2 s' hs')⟩

/-- A property of every state holds of the state after any number of inputs. -/
lemma Always.of_run {P : σ → Prop} {s s' : σ} {is js : List ι} (h : Always step P s (is ++ js))
    (hrun : run step s is = some s') : P s' := by
  induction is generalizing s with
  | nil =>
    obtain rfl := Option.some.inj hrun
    exact h.head
  | cons i is ih =>
    obtain ⟨s₁, hstep, hrun⟩ := Option.bind_eq_some_iff.mp hrun
    exact ih (h.2 s₁ hstep) hrun

/-- If under an invariant every step keeps it, and keeps the property exactly if the condition holds,
then the property holds of a whole run exactly if the condition holds at each of its steps. -/
theorem always_iff_eachStep (Inv : σ → Prop) {P : σ → Prop} {C : σ → ι → Prop}
    (hstep : ∀ s i, Inv s → (∃ s', step s i = some s' ∧ Inv s' ∧ (P s → (P s' ↔ C s i))) ∨
      (step s i = none ∧ C s i))
    {s : σ} (hs : Inv s) (hP : P s) (is : List ι) :
    Always step P s is ↔ EachStep step C s is := by
  induction is generalizing s with
  | nil => exact ⟨fun _ => trivial, fun _ => hP⟩
  | cons i is ih =>
    rcases hstep s i hs with ⟨s', hs', hinv, hiff⟩ | ⟨hnone, hC⟩
    · have heq : ∀ s₁, step s i = some s₁ → s₁ = s' := fun s₁ h₁ =>
        Option.some.inj (h₁.symm.trans hs')
      constructor
      · rintro ⟨-, h⟩
        have hP' : P s' := (h s' hs').head
        refine ⟨(hiff hP).mp hP', ?_⟩
        intro s₁ h₁
        obtain rfl := heq s₁ h₁
        exact (ih hinv hP').mp (h s₁ h₁)
      · rintro ⟨hC, h⟩
        refine ⟨hP, ?_⟩
        intro s₁ h₁
        obtain rfl := heq s₁ h₁
        exact (ih hinv ((hiff hP).mpr hC)).mpr (h s₁ h₁)
    · constructor
      · rintro -
        exact ⟨hC, fun s₁ h₁ => by rw [hnone] at h₁; cases h₁⟩
      · rintro -
        exact ⟨hP, fun s₁ h₁ => by rw [hnone] at h₁; cases h₁⟩

/-- What every step that meets the condition keeps, a run keeps. -/
theorem run_keeps {Inv : σ → Prop} {C : σ → ι → Prop}
    (hstep : ∀ s i s', Inv s → C s i → step s i = some s' → Inv s') {s s' : σ} {inputs : List ι}
    (hs : Inv s) (h : EachStep step C s inputs) (hrun : run step s inputs = some s') : Inv s' := by
  induction inputs generalizing s with
  | nil =>
    obtain rfl := Option.some.inj hrun
    exact hs
  | cons i inputs ih =>
    obtain ⟨s₁, hs₁, hrest⟩ := Option.bind_eq_some_iff.mp hrun
    exact ih (hstep s i s₁ hs h.1 hs₁) (h.2 s₁ hs₁) hrest

/-- If each step that meets the condition returns and lowers the measure until it is zero, then a run
of as many steps comes to rest. -/
theorem run_exhausts {Inv : σ → Prop} {C : σ → ι → Prop} {μ : σ → Nat}
    (hstep : ∀ s i, Inv s → C s i → ∃ s', step s i = some s' ∧ Inv s' ∧ μ s' ≤ μ s - 1)
    {s : σ} {inputs : List ι} (hs : Inv s) (h : EachStep step C s inputs) (hμ : μ s ≤ inputs.length) :
    ∃ s', run step s inputs = some s' ∧ Inv s' ∧ μ s' = 0 := by
  induction inputs generalizing s with
  | nil => exact ⟨s, rfl, hs, Nat.le_zero.mp hμ⟩
  | cons i inputs ih =>
    obtain ⟨s₁, hs₁, hinv, hle⟩ := hstep s i hs h.1
    rw [List.length_cons] at hμ
    obtain ⟨s', hrun, hinv', hzero⟩ := ih hinv (h.2 s₁ hs₁) (by omega)
    exact ⟨s', by simp [hs₁, hrun], hinv', hzero⟩

/-- If each step that meets the condition is matched by a step of another machine that meets the other's
condition, then so is a whole run. -/
theorem run_simulates {τ κ : Type*} {step' : τ → κ → Option τ} {R : σ → τ → Prop} {C : σ → ι → Prop}
    {D : τ → κ → Prop} (f : ι → κ)
    (hstep : ∀ s t i, R s t → C s i → D t (f i) ∧ ∃ s' t', step s i = some s' ∧
      step' t (f i) = some t' ∧ R s' t')
    {s : σ} {t : τ} {inputs : List ι} (hR : R s t) (h : EachStep step C s inputs) :
    EachStep step' D t (inputs.map f) ∧ ∃ s' t', run step s inputs = some s' ∧
      run step' t (inputs.map f) = some t' ∧ R s' t' := by
  induction inputs generalizing s t with
  | nil => exact ⟨trivial, s, t, rfl, rfl, hR⟩
  | cons i inputs ih =>
    obtain ⟨hD, s₁, t₁, hs₁, ht₁, hR₁⟩ := hstep s t i hR h.1
    obtain ⟨heach, s', t', hs', ht', hR'⟩ := ih hR₁ (h.2 s₁ hs₁)
    refine ⟨⟨hD, fun t₂ ht₂ => ?_⟩, s', t', by simp [hs₁, hs'], by simp [ht₁, ht'], hR'⟩
    obtain rfl := Option.some.inj (ht₁.symm.trans ht₂)
    exact heach

/-- If the inputs that are left out do not change what an observer sees, and the others change it alike,
then the observer sees the run of the others. -/
theorem run_filter {R : σ → σ → Prop} {p : ι → Bool}
    (hskip : ∀ s t i s', R s t → p i = false → step s i = some s' → R s' t)
    (hkeep : ∀ s t i s', R s t → p i = true → step s i = some s' → ∃ t', step t i = some t' ∧ R s' t')
    {s t s' : σ} {inputs : List ι} (hR : R s t) (hrun : run step s inputs = some s') :
    ∃ t', run step t (inputs.filter p) = some t' ∧ R s' t' := by
  induction inputs generalizing s t with
  | nil =>
    obtain rfl := Option.some.inj hrun
    exact ⟨t, rfl, hR⟩
  | cons i inputs ih =>
    obtain ⟨s₁, hs₁, hrest⟩ := Option.bind_eq_some_iff.mp hrun
    cases hp : p i with
    | false =>
      rw [List.filter_cons_of_neg (by simp [hp])]
      exact ih (hskip s t i s₁ hR hp hs₁) hrest
    | true =>
      obtain ⟨t₁, ht₁, hR₁⟩ := hkeep s t i s₁ hR hp hs₁
      obtain ⟨t', ht', hR'⟩ := ih hR₁ hrest
      refine ⟨t', ?_, hR'⟩
      rw [List.filter_cons_of_pos hp, run_cons, ht₁]
      exact ht'

end Run
