import Mathlib.Tactic.Common

/-!
# Programs that query their environment

A `Traced ε α` program asks its environment questions of type `ε`. The environment may answer by
everything it has been asked before, so a program is a function of the questions asked so far; it
returns the list with its own questions appended, and a value unless it stopped at a failed
assertion or an invalid access (`crash`) or a loop of it used up its fuel (`fuel`).

`Spec m l Q` is the postcondition of `m` run after the questions `l`: `Q` holds of the outcome and
of the questions `m` itself asked, whatever way it ended.
-/

/-- How a program ended. -/
inductive Outcome (α : Type) where
  | ok (a : α)
  | crash
  | fuel
  deriving DecidableEq

def Outcome.map {α β : Type} (f : α → β) : Outcome α → Outcome β
  | .ok a => .ok (f a)
  | .crash => .crash
  | .fuel => .fuel

def Traced (ε α : Type) := List ε → Outcome α × List ε

namespace Traced

variable {ε α β γ ρ : Type}

def bind (m : Traced ε α) (f : α → Traced ε β) : Traced ε β := fun l =>
  match m l with
  | (.ok a, l') => f a l'
  | (.crash, l') => (.crash, l')
  | (.fuel, l') => (.fuel, l')

instance : Monad (Traced ε) where
  pure a := fun l => (.ok a, l)
  bind := bind

/-- Stop at a failed assertion or an invalid access. -/
def crash : Traced ε α := fun l => (.crash, l)

/-- Give up a loop that has used its fuel. -/
def outOfFuel : Traced ε α := fun l => (.fuel, l)

/-- Ask the environment `e`; `env` is its answer to `e` after the questions before. -/
def query (env : List ε → ε → ρ) (e : ε) : Traced ε ρ := fun l => (.ok (env l e), l ++ [e])

@[simp] lemma pure_apply (a : α) (l : List ε) : (pure a : Traced ε α) l = (.ok a, l) := rfl

@[simp] lemma crash_apply (l : List ε) : (crash : Traced ε α) l = (.crash, l) := rfl

@[simp] lemma outOfFuel_apply (l : List ε) : (outOfFuel : Traced ε α) l = (.fuel, l) := rfl

@[simp] lemma query_apply (env : List ε → ε → ρ) (e : ε) (l : List ε) :
    query env e l = (.ok (env l e), l ++ [e]) := rfl

lemma bind_apply (m : Traced ε α) (f : α → Traced ε β) (l : List ε) :
    (m >>= f) l = match m l with
      | (.ok a, l') => f a l'
      | (.crash, l') => (.crash, l')
      | (.fuel, l') => (.fuel, l') := rfl

lemma bind_apply_ok {m : Traced ε α} {l l' : List ε} {a : α} (h : m l = (.ok a, l'))
    (f : α → Traced ε β) : (m >>= f) l = f a l' := by rw [bind_apply, h]

/-- A sequence that returns has a first part that does. -/
lemma bind_eq_ok {m : Traced ε α} {f : α → Traced ε β} {l l' : List ε} {b : β}
    (h : (m >>= f) l = (.ok b, l')) : ∃ a l₁, m l = (.ok a, l₁) ∧ f a l₁ = (.ok b, l') := by
  rw [bind_apply] at h
  rcases hm : m l with ⟨_ | _ | _, l₁⟩ <;> rw [hm] at h
  · exact ⟨_, _, rfl, h⟩
  · simp at h
  · simp at h

@[simp] lemma pure_bind (a : α) (f : α → Traced ε β) : (pure a >>= f : Traced ε β) = f a := rfl

@[simp] lemma bind_pure (m : Traced ε α) : (m >>= fun a => pure a) = m := by
  funext l
  rw [bind_apply]
  rcases m l with ⟨_ | _ | _, l'⟩ <;> rfl

@[simp] lemma crash_bind (f : α → Traced ε β) : (crash >>= f : Traced ε β) = crash := rfl

@[simp] lemma bind_assoc (m : Traced ε α) (f : α → Traced ε β) (g : β → Traced ε γ) :
    (m >>= f) >>= g = m >>= fun a => f a >>= g := by
  funext l
  simp only [bind_apply]
  rcases m l with ⟨_ | _ | _, l'⟩ <;> rfl

/-- What follows a computation may be replaced by what is the same on the values that it returns. -/
lemma bind_eq_bind {m : Traced ε α} {f g : α → Traced ε β}
    (h : ∀ a l l', m l = (.ok a, l') → f a = g a) : m >>= f = m >>= g := by
  funext l
  rw [bind_apply, bind_apply]
  rcases hm : m l with ⟨_ | _ | _, l'⟩
  · simp only [h _ l l' hm]
  · rfl
  · rfl

/-- A step that asks nothing: it returns or stops. -/
def ofOption : Option α → Traced ε α
  | some a => pure a
  | none => crash

@[simp] lemma ofOption_some (a : α) : (ofOption (some a) : Traced ε α) = pure a := rfl

@[simp] lemma ofOption_none : (ofOption none : Traced ε α) = crash := rfl

lemma ofOption_eq_ok {o : Option α} {l l' : List ε} {a : α} :
    (ofOption o : Traced ε α) l = (.ok a, l') ↔ o = some a ∧ l = l' := by
  cases o <;> simp

/-- A list of such steps returns if each of them does. -/
lemma exists_mapM_eq_some {f : α → Option β} {as : List α} (h : ∀ a ∈ as, ∃ b, f a = some b) :
    ∃ bs, as.mapM f = some bs := by
  induction as with
  | nil => exact ⟨[], rfl⟩
  | cons a as ih =>
    obtain ⟨⟨b, hb⟩, has⟩ := List.forall_mem_cons.mp h
    obtain ⟨bs, hbs⟩ := ih has
    rw [List.mapM_cons, hb, hbs]
    exact ⟨_, rfl⟩

/-- The body of a loop may be replaced by what is the same under an invariant of the loop. -/
lemma foldlM_eq_foldlM {I : β → Prop} {f g : β → α → Traced ε β} (hfg : ∀ b a, I b → f b a = g b a)
    (hI : ∀ b a l b' l', I b → f b a l = (.ok b', l') → I b') (as : List α) {b : β} (hb : I b) :
    as.foldlM f b = as.foldlM g b := by
  induction as generalizing b with
  | nil => rfl
  | cons a as ih =>
    rw [List.foldlM_cons, List.foldlM_cons, ← hfg b a hb]
    exact bind_eq_bind fun b' l l' hrun => ih (hI b a l b' l' hb hrun)

/-! ### Postconditions -/

/-- After the questions `l`, `m` ends with an outcome and own questions satisfying `Q`. -/
def Spec (m : Traced ε α) (l : List ε) (Q : Outcome α → List ε → Prop) : Prop :=
  ∃ new, (m l).2 = l ++ new ∧ Q (m l).1 new

lemma Spec.mono {m : Traced ε α} {l : List ε} {Q R : Outcome α → List ε → Prop}
    (h : Spec m l Q) (hQR : ∀ o new, Q o new → R o new) : Spec m l R := by
  obtain ⟨new, hl, hQ⟩ := h
  exact ⟨new, hl, hQR _ _ hQ⟩

lemma spec_pure {a : α} {l : List ε} {Q : Outcome α → List ε → Prop} (h : Q (.ok a) []) :
    Spec (pure a) l Q := ⟨[], by simp, h⟩

lemma spec_crash {l : List ε} {Q : Outcome α → List ε → Prop} (h : Q .crash []) :
    Spec crash l Q := ⟨[], by simp, h⟩

lemma spec_outOfFuel {l : List ε} {Q : Outcome α → List ε → Prop} (h : Q .fuel []) :
    Spec outOfFuel l Q := ⟨[], by simp, h⟩

/-- Sequencing: the questions of the two parts are appended, and a first part that does not
return ends the whole. -/
lemma spec_bind {m : Traced ε α} {f : α → Traced ε β} {l : List ε}
    {R : Outcome α → List ε → Prop} {Q : Outcome β → List ε → Prop} (hm : Spec m l R)
    (hok : ∀ a new, R (.ok a) new → Spec (f a) (l ++ new) fun o new' => Q o (new ++ new'))
    (hcrash : ∀ new, R .crash new → Q .crash new) (hfuel : ∀ new, R .fuel new → Q .fuel new) :
    Spec (m >>= f) l Q := by
  obtain ⟨new, hl, hR⟩ := hm
  rcases hml : m l with ⟨o, l'⟩
  rw [hml] at hl hR
  obtain rfl : l' = l ++ new := hl
  cases o with
  | ok a =>
    obtain ⟨new', hl', hQ⟩ := hok a new hR
    exact ⟨new ++ new', by rw [bind_apply_ok hml, hl', List.append_assoc],
      by rwa [bind_apply_ok hml]⟩
  | crash => exact ⟨new, by rw [bind_apply, hml], by rw [bind_apply, hml]; exact hcrash new hR⟩
  | fuel => exact ⟨new, by rw [bind_apply, hml], by rw [bind_apply, hml]; exact hfuel new hR⟩

/-- A postcondition read off a run that returned. -/
lemma Spec.of_ok {m : Traced ε α} {l l' : List ε} {a : α} {Q : Outcome α → List ε → Prop}
    (h : Spec m l Q) (hrun : m l = (.ok a, l')) : ∃ new, l' = l ++ new ∧ Q (.ok a) new := by
  obtain ⟨new, hl, hQ⟩ := h
  rw [hrun] at hl hQ
  exact ⟨new, hl, hQ⟩

/-- The questions of a loop over a list: those of its iterations in order, up to one that does not
return. -/
inductive Turns (C : α → List ε → Prop) : List α → List ε → Prop where
  | stop (as : List α) : Turns C as []
  | turn {a : α} {as : List α} {new news : List ε} (hnew : C a new) (hnews : Turns C as news) :
      Turns C (a :: as) (new ++ news)

/-- A loop under an invariant that grows with the elements it has done. -/
lemma spec_foldlM {C : α → List ε → Prop} {I : List α → β → Prop} {step : β → α → Traced ε β}
    (as : List α) (hstep : ∀ done b l, ∀ a ∈ as, I done b → Spec (step b a) l fun out new =>
      C a new ∧ ∀ b', out = .ok b' → I (done ++ [a]) b') {done : List α} {b : β} (hb : I done b)
    (l : List ε) :
    Spec (as.foldlM step b) l fun out new =>
      Turns C as new ∧ ∀ b', out = .ok b' → I (done ++ as) b' := by
  induction as generalizing done b l with
  | nil =>
    refine spec_pure ⟨.stop [], ?_⟩
    rintro b' ⟨⟩
    rwa [List.append_nil]
  | cons a as ih =>
    rw [List.foldlM_cons]
    refine spec_bind (hstep done b l a List.mem_cons_self hb) ?_ ?_ ?_
    · rintro b' new ⟨hnew, hb'⟩
      refine (ih (fun done b l a ha => hstep done b l a (List.mem_cons_of_mem _ ha)) (hb' b' rfl) _).mono ?_
      rintro out new' ⟨hturns, hI⟩
      exact ⟨.turn hnew hturns, by simpa using hI⟩
    · intro new h
      exact ⟨by simpa using Turns.turn h.1 (.stop as), by simp⟩
    · intro new h
      exact ⟨by simpa using Turns.turn h.1 (.stop as), by simp⟩

/-- Whatever was asked before, `m` asks only questions of `P`, and a value it returns is of `Q`. -/
def Safe (P : ε → Prop) (Q : α → Prop) (m : Traced ε α) : Prop :=
  ∀ l, Spec m l fun out new => (∀ e ∈ new, P e) ∧ ∀ a, out = .ok a → Q a

section Safe

variable {P : ε → Prop} {Q : α → Prop} {R : β → Prop}

lemma safe_pure {a : α} (h : Q a) : Safe P Q (pure a) := by
  refine fun l => spec_pure ⟨by simp, fun b hb => ?_⟩
  obtain rfl := Outcome.ok.inj hb
  exact h

lemma safe_crash : Safe P Q crash := fun _ => spec_crash ⟨by simp, by simp⟩

lemma Safe.bind {m : Traced ε α} {f : α → Traced ε β} (hm : Safe P Q m)
    (hf : ∀ a, Q a → Safe P R (f a)) : Safe P R (m >>= f) := by
  refine fun l => spec_bind (hm l) ?_ ?_ ?_
  · rintro a new ⟨hP, hQ⟩
    refine (hf a (hQ a rfl) _).mono fun out new' h => ⟨fun e he => ?_, h.2⟩
    exact (List.mem_append.mp he).elim (hP e) (h.1 e)
  · intro new h
    exact ⟨h.1, by simp⟩
  · intro new h
    exact ⟨h.1, by simp⟩

lemma Safe.mono {Q' : α → Prop} {m : Traced ε α} (hm : Safe P Q m) (h : ∀ a, Q a → Q' a) :
    Safe P Q' m := fun l => (hm l).mono fun _ _ hl => ⟨hl.1, fun a ha => h a (hl.2 a ha)⟩

/-- A loop keeps what each of its iterations keeps. -/
lemma safe_foldlM {I : β → Prop} {step : β → α → Traced ε β} (as : List α)
    (hstep : ∀ b, ∀ a ∈ as, I b → Safe P I (step b a)) {b : β} (hb : I b) :
    Safe P I (as.foldlM step b) := by
  induction as generalizing b with
  | nil => exact safe_pure hb
  | cons a as ih =>
    rw [List.foldlM_cons]
    apply (hstep b a List.mem_cons_self hb).bind
    intro b' hb'
    exact ih (fun b a ha => hstep b a (List.mem_cons_of_mem _ ha)) hb'

end Safe

/-- Every value that `m` returns is of `Q`, whatever was and is asked. -/
def Returns (Q : α → Prop) (m : Traced ε α) : Prop := ∀ l a l', m l = (.ok a, l') → Q a

section Returns

variable {Q : α → Prop} {R : β → Prop}

lemma returns_true (m : Traced ε α) : Returns (fun _ => True) m := fun _ _ _ _ => trivial

lemma returns_pure {a : α} (h : Q a) : Returns Q (pure a : Traced ε α) := by
  rintro l b l' hrun
  obtain ⟨rfl, _⟩ : a = b ∧ l = l' := by simpa using hrun
  exact h

lemma returns_crash : Returns Q (crash : Traced ε α) := by
  rintro l a l' hrun
  simp at hrun

lemma Returns.bind {m : Traced ε α} {f : α → Traced ε β} (hm : Returns Q m)
    (hf : ∀ a, Q a → Returns R (f a)) : Returns R (m >>= f) := by
  intro l b l' hrun
  obtain ⟨a, l₁, ha, hb⟩ := bind_eq_ok hrun
  exact hf a (hm l a l₁ ha) l₁ b l' hb

lemma Returns.mono {R' : α → Prop} {m : Traced ε α} (hm : Returns Q m) (h : ∀ a, Q a → R' a) : Returns R' m :=
  fun l a l' hrun => h a (hm l a l' hrun)

lemma returns_foldlM {I : β → Prop} {step : β → α → Traced ε β}
    (hstep : ∀ b a, I b → Returns I (step b a)) (as : List α) {b : β} (hb : I b) :
    Returns I (as.foldlM step b) := by
  induction as generalizing b with
  | nil => exact returns_pure hb
  | cons a as ih =>
    rw [List.foldlM_cons]
    exact (hstep b a hb).bind fun b' hb' => ih hb'

lemma Safe.and_returns {P : ε → Prop} {R : α → Prop} {m : Traced ε α} (hm : Safe P Q m)
    (hR : Returns R m) : Safe P (fun a => Q a ∧ R a) m := by
  intro l
  obtain ⟨new, hl, hP, hQ⟩ := hm l
  exact ⟨new, hl, hP, fun a ha => ⟨hQ a ha, hR l a _ (Prod.ext ha rfl)⟩⟩

end Returns

/-- `m` returns `a`, whatever was asked before. -/
def Gives (m : Traced ε α) (a : α) : Prop := ∀ l, ∃ l', m l = (.ok a, l')

lemma gives_pure (a : α) : Gives (pure a : Traced ε α) a := fun l => ⟨l, rfl⟩

lemma Gives.bind {m : Traced ε α} {f : α → Traced ε β} {a : α} {b : β} (hm : Gives m a)
    (hf : Gives (f a) b) : Gives (m >>= f) b := by
  intro l
  obtain ⟨l₁, h₁⟩ := hm l
  obtain ⟨l₂, h₂⟩ := hf l₁
  exact ⟨l₂, by rw [bind_apply_ok h₁, h₂]⟩

lemma Gives.unique {m : Traced ε α} {a b : α} (ha : Gives m a) (hb : Gives m b) : a = b := by
  obtain ⟨l₁, h₁⟩ := ha []
  obtain ⟨l₂, h₂⟩ := hb []
  simpa using (Prod.ext_iff.mp (h₁.symm.trans h₂)).1

/-- `m` returns a value of `Q`, whatever was asked before. -/
def Attains (Q : α → Prop) (m : Traced ε α) : Prop := ∀ l, ∃ a l', m l = (.ok a, l') ∧ Q a

section Attains

variable {Q : α → Prop} {R : β → Prop}

lemma attains_pure {a : α} (h : Q a) : Attains Q (pure a : Traced ε α) := fun l => ⟨a, l, rfl, h⟩

lemma Attains.bind {m : Traced ε α} {f : α → Traced ε β} (hm : Attains Q m)
    (hf : ∀ a, Q a → Attains R (f a)) : Attains R (m >>= f) := by
  intro l
  obtain ⟨a, l₁, ha, hQ⟩ := hm l
  obtain ⟨b, l₂, hb, hR⟩ := hf a hQ l₁
  exact ⟨b, l₂, by rw [bind_apply_ok ha, hb], hR⟩

/-- A loop returns if its iterations do, under an invariant that grows with the elements it has done. -/
lemma attains_foldlM {I : List α → β → Prop} {step : β → α → Traced ε β} (as : List α)
    (hstep : ∀ done b, ∀ a ∈ as, I done b → Attains (I (done ++ [a])) (step b a)) {done : List α} {b : β}
    (hb : I done b) : Attains (I (done ++ as)) (as.foldlM step b) := by
  induction as generalizing done b with
  | nil =>
    rw [List.append_nil]
    exact attains_pure hb
  | cons a as ih =>
    rw [List.foldlM_cons]
    apply (hstep done b a List.mem_cons_self hb).bind
    intro b' hb'
    rw [List.append_cons]
    exact ih (fun done b a ha => hstep done b a (List.mem_cons_of_mem _ ha)) hb'

end Attains

/-! ### Two runs -/

/-- Two programs ended the same way, with values of `R`. -/
inductive Same (R : α → β → Prop) : Outcome α → Outcome β → Prop where
  | ok {a : α} {b : β} (h : R a b) : Same R (.ok a) (.ok b)
  | crash : Same R .crash .crash
  | fuel : Same R .fuel .fuel

lemma Same.mono {R S : α → β → Prop} {m : Outcome α} {n : Outcome β} (h : Same R m n)
    (hRS : ∀ a b, R a b → S a b) : Same S m n := by
  cases h with
  | ok h => exact .ok (hRS _ _ h)
  | crash => exact .crash
  | fuel => exact .fuel

/-- Whatever was asked before them, the two programs end the same way, with values of `R`. -/
def Related (R : α → β → Prop) (m : Traced ε α) (n : Traced ε β) : Prop :=
  ∀ l l', Same R (m l).1 (n l').1

section Related

variable {α' β' : Type} {R : α → β → Prop} {S : α' → β' → Prop} {m : Traced ε α} {n : Traced ε β}

lemma related_pure {a : α} {b : β} (h : R a b) :
    Related R (pure a : Traced ε α) (pure b : Traced ε β) := fun _ _ => .ok h

lemma Related.bind {f : α → Traced ε α'} {g : β → Traced ε β'} (hm : Related R m n)
    (hf : ∀ a b, R a b → Related S (f a) (g b)) : Related S (m >>= f) (n >>= g) := by
  intro l l'
  have h := hm l l'
  rw [bind_apply, bind_apply]
  generalize m l = r at h ⊢
  generalize n l' = r' at h ⊢
  obtain ⟨o, l₁⟩ := r
  obtain ⟨o', l₂⟩ := r'
  cases h with
  | ok h => exact hf _ _ h l₁ l₂
  | crash => exact .crash
  | fuel => exact .fuel

lemma Related.mono {R' : α → β → Prop} (hm : Related R m n) (h : ∀ a b, R a b → R' a b) :
    Related R' m n := by
  intro l l'
  have hl := hm l l'
  generalize (m l).1 = o at hl ⊢
  generalize (n l').1 = o' at hl ⊢
  cases hl with
  | ok hl => exact .ok (h _ _ hl)
  | crash => exact .crash
  | fuel => exact .fuel

/-- A program goes on and returns. -/
lemma Related.map_right {R' : α → β' → Prop} (hm : Related R m n) (f : β → β')
    (h : ∀ a b, R a b → R' a (f b)) : Related R' m (n >>= fun b => pure (f b)) := by
  intro l l'
  have hl := hm l l'
  rw [bind_apply]
  generalize m l = r at hl ⊢
  generalize n l' = r' at hl ⊢
  obtain ⟨o, l₁⟩ := r
  obtain ⟨o', l₂⟩ := r'
  cases hl with
  | ok hl => exact .ok (h _ _ hl)
  | crash => exact .crash
  | fuel => exact .fuel

/-- Where the first program returns, so does the second. -/
lemma Related.of_ok (hm : Related R m n) {l l₁ : List ε} {a : α} (hrun : m l = (.ok a, l₁))
    (l' : List ε) : ∃ b l₂, n l' = (.ok b, l₂) ∧ R a b := by
  have hl := hm l l'
  rw [hrun] at hl
  rcases hn : n l' with ⟨o, l₂⟩
  rw [hn] at hl
  cases hl with
  | ok h => exact ⟨_, l₂, rfl, h⟩

lemma Related.of_ok_right (hm : Related R m n) {l' l₂ : List ε} {b : β} (hrun : n l' = (.ok b, l₂))
    (l : List ε) : ∃ a l₁, m l = (.ok a, l₁) ∧ R a b := by
  have hl := hm l l'
  rw [hrun] at hl
  rcases hn : m l with ⟨o, l₁⟩
  rw [hn] at hl
  cases hl with
  | ok h => exact ⟨_, l₁, rfl, h⟩

/-- A program whose values are determined by those of another one forgets what was asked. -/
lemma Related.self_right (hm : Related R m n) (hR : ∀ a b b', R a b → R a b' → b = b') :
    Related Eq n n := by
  intro l l'
  have h := hm [] l
  have h' := hm [] l'
  generalize (m []).1 = o at h h'
  generalize (n l).1 = o₁ at h ⊢
  generalize (n l').1 = o₂ at h' ⊢
  cases h with
  | ok h =>
    cases h' with
    | ok h' => exact .ok (hR _ _ _ h h')
  | crash =>
    cases h'
    exact .crash
  | fuel =>
    cases h'
    exact .fuel

/-- One run is enough for a program that forgets what was asked. -/
lemma Related.gives (hm : Related Eq n n) {l l₁ : List ε} {b : β} (hrun : n l = (.ok b, l₁)) :
    Gives n b := by
  intro l'
  obtain ⟨b', l₂, hl₂, rfl⟩ := hm.of_ok hrun l'
  exact ⟨l₂, hl₂⟩

end Related

/-- An outcome of a program that a relation describes: a value for the one `b` that `P` allows, or a
stop where it allows none. -/
inductive Described (R : α → β → Prop) (P : β → Prop) : Outcome α → Prop where
  | ok {a : α} {b : β} (hP : P b) (huniq : ∀ b', P b' → b' = b) (hR : R a b) : Described R P (.ok a)
  | crash (h : ∀ b, ¬ P b) : Described R P .crash

/-- Whatever was asked before, `m` returns what `R` relates to the one `b` that `P` allows, and stops
if there is none. -/
def Denotes (R : α → β → Prop) (P : β → Prop) (m : Traced ε α) : Prop := ∀ l, Described R P (m l).1

section Denotes

variable {α' β' : Type} {R : α → β → Prop} {S : α' → β' → Prop} {P : β → Prop} {m : Traced ε α}

lemma denotes_pure {a : α} {b : β} (h : R a b) : Denotes R (fun b' => b' = b) (pure a : Traced ε α) :=
  fun _ => .ok rfl (fun _ h => h) h

lemma denotes_crash (h : ∀ b, ¬ P b) : Denotes R P (crash : Traced ε α) := fun _ => .crash h

lemma Denotes.mono {R' : α → β → Prop} {P' : β → Prop} (hm : Denotes R P m)
    (hP : ∀ b, P b ↔ P' b) (hR : ∀ a b, P b → R a b → R' a b) : Denotes R' P' m := by
  intro l
  have h := hm l
  generalize (m l).1 = o at h ⊢
  cases h with
  | ok hb huniq hab =>
    exact .ok ((hP _).mp hb) (fun b' hb' => huniq b' ((hP b').mpr hb')) (hR _ _ hb hab)
  | crash hnone => exact .crash fun b hb => hnone b ((hP b).mpr hb)

lemma Denotes.and_returns {Q : α → Prop} (hm : Denotes R P m) (hQ : Returns Q m) :
    Denotes (fun a b => R a b ∧ Q a) P m := by
  intro l
  have h := hm l
  have hret : ∀ a, (m l).1 = .ok a → Q a := fun a ha => hQ l a (m l).2 (Prod.ext ha rfl)
  generalize (m l).1 = o at h hret ⊢
  cases h with
  | ok hb huniq hab => exact .ok hb huniq ⟨hab, hret _ rfl⟩
  | crash hnone => exact .crash hnone

/-- Relations are composed as the programs are. -/
lemma Denotes.bind {Q : β → β' → Prop} {f : α → Traced ε α'} (hm : Denotes R P m)
    (hf : ∀ a b, P b → R a b → Denotes S (Q b) (f a)) :
    Denotes S (fun c => ∃ b, P b ∧ Q b c) (m >>= f) := by
  intro l
  have h := hm l
  rw [bind_apply]
  generalize m l = r at h ⊢
  obtain ⟨out, l'⟩ := r
  cases h with
  | @ok a b hb huniq hab =>
    have h' := hf a b hb hab l'
    show Described S _ (f a l').1
    generalize (f a l').1 = out' at h' ⊢
    cases h' with
    | @ok a' c hc huniq' hac =>
      refine .ok ⟨b, hb, hc⟩ ?_ hac
      rintro c' ⟨b', hb', hc'⟩
      obtain rfl := huniq b' hb'
      exact huniq' c' hc'
    | crash hnone =>
      refine .crash ?_
      rintro c ⟨b', hb', hc⟩
      obtain rfl := huniq b' hb'
      exact hnone c hc
  | crash hnone =>
    refine .crash ?_
    rintro c ⟨b, hb, _⟩
    exact hnone b hb

/-- What is related may be told by something else. -/
lemma Denotes.comap {f : γ → β} (hf : Function.Injective f) {P' : γ → Prop} (hm : Denotes R P m)
    (hP : ∀ b, P b ↔ ∃ c, P' c ∧ b = f c) : Denotes (fun a c => R a (f c)) P' m := by
  intro l
  have h := hm l
  generalize (m l).1 = o at h ⊢
  cases h with
  | ok hb huniq hab =>
    obtain ⟨c, hc, rfl⟩ := (hP _).mp hb
    refine .ok hc (fun c' hc' => hf (huniq _ ?_)) hab
    exact (hP _).mpr ⟨c', hc', rfl⟩
  | crash hnone => exact .crash fun c hc => hnone _ ((hP _).mpr ⟨c, hc, rfl⟩)

/-- Two programs for one relation. -/
lemma Denotes.related {R' : α' → β → Prop} {n : Traced ε α'} (hm : Denotes R P m)
    (hn : Denotes R' P n) : Related (fun a a' => ∃ b, P b ∧ R a b ∧ R' a' b) m n := by
  intro l l'
  have h := hm l
  have h' := hn l'
  generalize (m l).1 = out at h ⊢
  generalize (n l').1 = out' at h' ⊢
  cases h with
  | ok hb huniq hab =>
    cases h' with
    | ok hb' _ hab' =>
      obtain rfl := huniq _ hb'
      exact .ok ⟨_, hb', hab, hab'⟩
    | crash hnone => exact absurd hb (hnone _)
  | crash hnone =>
    cases h' with
    | ok hb' _ _ => exact absurd hb' (hnone _)
    | crash => exact .crash

lemma Denotes.unique (hm : Denotes R P m) {b b' : β} (hb : P b) (hb' : P b') : b = b' := by
  have h := hm []
  generalize (m []).1 = out at h
  cases h with
  | ok _ huniq _ => exact (huniq b hb).trans (huniq b' hb').symm
  | crash hnone => exact absurd hb (hnone b)

/-- Where the relation allows something, the program returns it. -/
lemma Denotes.returns (hm : Denotes R P m) {b : β} (hb : P b) (l : List ε) :
    ∃ a l', m l = (.ok a, l') ∧ R a b := by
  have h := hm l
  rcases hml : m l with ⟨out, l'⟩
  rw [hml] at h
  cases h with
  | @ok a b' _ huniq hab =>
    obtain rfl := huniq b hb
    exact ⟨a, l', rfl, hab⟩
  | crash hnone => exact absurd hb (hnone b)

/-- Two programs whose values tell what the relations allow are related if the relations are the
same. -/
lemma Denotes.related_iff {P' : β → Prop} {R' : α' → β → Prop} {n : Traced ε α'} {T : α → α' → Prop}
    (hm : Denotes R P m) (hn : Denotes R' P' n)
    (hT : ∀ a a' b b', R a b → R' a' b' → (T a a' ↔ b = b')) :
    Related T m n ↔ ∀ b, P b ↔ P' b := by
  constructor
  · intro hrel b
    constructor
    · intro hb
      obtain ⟨a, l, hrun, hab⟩ := hm.returns hb []
      obtain ⟨a', l', hrun', haa'⟩ := hrel.of_ok hrun []
      have h := hn []
      rw [hrun'] at h
      cases h with
      | ok hb' _ hab' =>
        obtain rfl := (hT _ _ _ _ hab hab').mp haa'
        exact hb'
    · intro hb'
      obtain ⟨a', l', hrun', hab'⟩ := hn.returns hb' []
      obtain ⟨a, l, hrun, haa'⟩ := hrel.of_ok_right hrun' []
      have h := hm []
      rw [hrun] at h
      cases h with
      | ok hb _ hab =>
        obtain rfl := (hT _ _ _ _ hab hab').mp haa'
        exact hb
  · intro hP
    refine (hm.related (hn.mono (fun b => (hP b).symm) fun _ _ _ h => h)).mono ?_
    rintro a a' ⟨b, _, hab, hab'⟩
    exact (hT _ _ _ _ hab hab').mpr rfl

end Denotes

/-- After questions of `P`, the two programs do the same. Both ask questions of `P`, and what they
return is of `Q`. -/
def Agree (P : ε → Prop) (Q : α → Prop) (m n : Traced ε α) : Prop :=
  ∀ l, (∀ e ∈ l, P e) → m l = n l ∧
    Spec m l fun out new => (∀ e ∈ new, P e) ∧ ∀ a, out = .ok a → Q a

section Agree

variable {P : ε → Prop} {Q : α → Prop} {R : β → Prop} {m n : Traced ε α}

lemma agree_of_safe (h : Safe P Q m) : Agree P Q m m := fun l _ => ⟨rfl, h l⟩

lemma agree_pure {a : α} (h : Q a) : Agree P Q (pure a) (pure a) := agree_of_safe (safe_pure h)

lemma agree_crash : Agree P Q crash crash := agree_of_safe safe_crash

lemma agree_outOfFuel : Agree P Q outOfFuel outOfFuel :=
  agree_of_safe fun _ => spec_outOfFuel ⟨by simp, by simp⟩

/-- Environments that answer questions of `P` alike, as long as there were no others. -/
lemma agree_query {env env' : List ε → ε → ρ}
    (henv : ∀ l e, (∀ x ∈ l, P x) → P e → env l e = env' l e) {e : ε} (he : P e) :
    Agree P (fun _ => True) (query env e) (query env' e) := by
  intro l hl
  refine ⟨by simp only [query_apply, henv l e hl he], [e], rfl, ?_, fun _ _ => trivial⟩
  intro x hx
  rwa [List.mem_singleton.mp hx]

lemma Agree.bind (hm : Agree P Q m n) {f g : α → Traced ε β}
    (hf : ∀ a, Q a → Agree P R (f a) (g a)) : Agree P R (m >>= f) (n >>= g) := by
  intro l hl
  obtain ⟨heq, new, hnew, hP, hQ⟩ := hm l hl
  rcases hml : m l with ⟨out, l'⟩
  rw [hml] at heq hnew hQ
  obtain rfl : l' = l ++ new := hnew
  cases out with
  | ok a =>
    have hall : ∀ e ∈ l ++ new, P e := fun e he => (List.mem_append.mp he).elim (hl e) (hP e)
    obtain ⟨heq', new', hnew', hP', hR⟩ := hf a (hQ a rfl) (l ++ new) hall
    refine ⟨?_, new ++ new', ?_, ?_, ?_⟩
    · rw [bind_apply_ok hml, bind_apply_ok heq.symm, heq']
    · rw [bind_apply_ok hml, hnew', List.append_assoc]
    · exact fun e he => (List.mem_append.mp he).elim (hP e) (hP' e)
    · rwa [bind_apply_ok hml]
  | crash =>
    refine ⟨by rw [bind_apply, bind_apply, hml, ← heq], new, by rw [bind_apply, hml], hP, ?_⟩
    rw [bind_apply, hml]
    simp
  | fuel =>
    refine ⟨by rw [bind_apply, bind_apply, hml, ← heq], new, by rw [bind_apply, hml], hP, ?_⟩
    rw [bind_apply, hml]
    simp

lemma Agree.mono {Q' : α → Prop} (hm : Agree P Q m n) (h : ∀ a, Q a → Q' a) : Agree P Q' m n := by
  intro l hl
  obtain ⟨heq, hspec⟩ := hm l hl
  exact ⟨heq, hspec.mono fun _ _ hnew => ⟨hnew.1, fun a ha => h a (hnew.2 a ha)⟩⟩

lemma agree_foldlM {I : β → Prop} {f g : β → α → Traced ε β} (as : List α)
    (hstep : ∀ b a, I b → Agree P I (f b a) (g b a)) {b : β} (hb : I b) :
    Agree P I (as.foldlM f b) (as.foldlM g b) := by
  induction as generalizing b with
  | nil => exact agree_pure hb
  | cons a as ih =>
    rw [List.foldlM_cons, List.foldlM_cons]
    exact (hstep b a hb).bind fun b' hb' => ih hb'

end Agree

end Traced
