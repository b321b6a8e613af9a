import Mathlib.Data.Finset.Sort
import SmartSnmp.Lib.Jump
import SmartSnmp.Lib.Run

/-!
# Walks

A walk asks for the least element above its last answer, until there is none. The set it asks may be
another one at each question: then the answers are still ascending, and an element that is in the set
at each question is not missed. A walk through one finite set enumerates what is above the start.
-/

namespace Walk

open Jump

variable {α : Type*}

/-- A walk: where it started, its answers, and whether it has come to the end. -/
structure State (α : Type*) where
  start : α
  answers : List α
  ended : Bool

namespace State

/-- The last answer. -/
def position (w : State α) : α := w.answers.getLastD w.start

/-- Take an answer; none is the end. -/
def answer (w : State α) : Option α → State α
  | none => { w with ended := true }
  | some x => { w with answers := w.answers ++ [x] }

@[simp] lemma answer_none (w : State α) : w.answer none = { w with ended := true } := rfl

@[simp] lemma start_answer (w : State α) (r : Option α) : (w.answer r).start = w.start := by
  cases r <;> rfl

@[simp] lemma position_answer_some (w : State α) (x : α) : (w.answer (some x)).position = x := by
  simp [position, answer]

/-- A walk that has not asked yet. -/
def begin (q : α) : State α := ⟨q, [], false⟩

@[simp] lemma position_begin (q : α) : (begin q).position = q := rfl

variable [LinearOrder α]

/-- The answers ascend from the start. -/
def Ascending (w : State α) : Prop := (w.start :: w.answers).Pairwise (· < ·)

lemma ascending_begin (q : α) : (begin q).Ascending := List.pairwise_singleton _ q

/-- The last answer is the greatest. -/
lemma Ascending.le_position {w : State α} (h : w.Ascending) : ∀ x ∈ w.start :: w.answers,
    x ≤ w.position := by
  intro x hx
  rcases List.eq_nil_or_concat' w.answers with hnil | ⟨init, last, heq⟩
  · rw [hnil] at hx
    rw [position, hnil, List.mem_singleton.mp hx]
    exact le_rfl
  · rw [Ascending, heq] at h
    rw [heq] at hx
    have hpos : w.position = last := by simp [position, heq]
    rw [hpos]
    rcases List.mem_append.mp (List.cons_append ▸ hx : x ∈ (w.start :: init) ++ [last]) with hx | hx
    · exact ((List.pairwise_append.mp (List.cons_append ▸ h)).2.2 x hx last (by simp)).le
    · exact (List.mem_singleton.mp hx).le

/-- An answer that is found above the position keeps the order. -/
lemma Ascending.answer {w : State α} (h : w.Ascending) {S : Set α} {r : Option α}
    (hr : Finds (above S w.position) r) : (w.answer r).Ascending := by
  cases r with
  | none => exact h
  | some x =>
    change ((w.start :: w.answers) ++ [x]).Pairwise (· < ·)
    refine List.pairwise_append.mpr ⟨h, List.pairwise_singleton _ x, ?_⟩
    intro y hy z hz
    rw [List.mem_singleton.mp hz]
    exact (h.le_position y hy).trans_lt hr.1.2

/-- The walk has not missed the element: it is an answer, or it is still ahead. -/
def Meets (w : State α) (y : α) : Prop := y ∈ w.answers ∨ (w.ended = false ∧ w.position < y)

lemma meets_begin {q y : α} (h : q < y) : (begin q).Meets y := .inr ⟨rfl, h⟩

/-- An element that is in the set at the time of the question is not missed. -/
lemma Meets.answer {w : State α} {y : α} (h : w.Meets y) {S : Set α} {r : Option α}
    (hr : Finds (above S w.position) r) (hy : y ∈ S) : (w.answer r).Meets y := by
  rcases h with h | ⟨hnot, hlt⟩
  · cases r with
    | none => exact .inl h
    | some x => exact .inl (List.mem_append_left [x] h)
  · cases r with
    | none => exact absurd ⟨hy, hlt⟩ (Set.eq_empty_iff_forall_notMem.mp hr y)
    | some x =>
      rcases (hr.2 ⟨hy, hlt⟩).eq_or_lt with rfl | hxy
      · exact .inl (List.mem_append_right w.answers (List.mem_singleton_self x))
      · exact .inr ⟨hnot, by simpa using hxy⟩

end State

/-! ### One finite set -/

variable [LinearOrder α] {S : Set α} {q : α} {xs : List α}

/-- The elements above a bound, in their order. -/
structure Enumerates (S : Set α) (q : α) (xs : List α) : Prop where
  ascending : (q :: xs).Pairwise (· < ·)
  mem_iff : ∀ x, x ∈ xs ↔ x ∈ above S q

lemma exists_enumerates (hS : (above S q).Finite) : ∃ xs, Enumerates S q xs := by
  refine ⟨hS.toFinset.sort (· ≤ ·), List.pairwise_cons.mpr ⟨fun x hx => ?_, ?_⟩, fun x => by simp⟩
  · rw [Finset.mem_sort, Set.Finite.mem_toFinset] at hx
    exact hx.2
  · exact (Finset.sortedLT_sort _).pairwise

/-- After `m` elements of the enumeration the next one is the least element that is left. -/
lemma Enumerates.finds (h : Enumerates S q xs) (m : Nat) :
    Finds (above S ((xs.take m).getLastD q)) xs[m]? := by
  have hsplit : q :: xs = (q :: xs.take m) ++ xs.drop m := by simp
  have hasc : ((q :: xs.take m) ++ xs.drop m).Pairwise (· < ·) := hsplit ▸ h.ascending
  have hbegin : State.Ascending ⟨q, xs.take m, false⟩ := (List.pairwise_append.mp hasc).1
  -- what is left is above the last element taken, and what was taken is not
  have hleft : ∀ x, x ∈ above S ((xs.take m).getLastD q) ↔ x ∈ xs.drop m := by
    intro x
    constructor
    · rintro ⟨hx, hlt⟩
      have hq : q ≤ (xs.take m).getLastD q := hbegin.le_position q List.mem_cons_self
      have hmem := (h.mem_iff x).mpr ⟨hx, hq.trans_lt hlt⟩
      rw [← List.take_append_drop m xs, List.mem_append] at hmem
      refine hmem.resolve_left fun htaken => absurd hlt (not_lt.mpr ?_)
      exact hbegin.le_position x (List.mem_cons_of_mem q htaken)
    · intro hx
      refine ⟨((h.mem_iff x).mp (List.mem_of_mem_drop hx)).1, ?_⟩
      refine (List.pairwise_append.mp hasc).2.2 _ ?_ x hx
      rw [List.getLastD_eq_getLast?]
      cases hlast : (xs.take m).getLast? with
      | none => exact List.mem_cons_self
      | some z => exact List.mem_cons_of_mem q (List.mem_of_getLast? hlast)
  rcases lt_or_ge m xs.length with hlt | hle
  · rw [List.getElem?_eq_getElem hlt]
    have hdrop := List.drop_eq_getElem_cons hlt
    refine ⟨(hleft _).mpr (by rw [hdrop]; exact List.mem_cons_self), fun x hx => ?_⟩
    have hx' := (hleft x).mp hx
    rw [hdrop] at hx' hasc
    rcases List.mem_cons.mp hx' with rfl | hx'
    · exact le_rfl
    · exact ((List.pairwise_cons.mp (List.pairwise_append.mp hasc).2.1).1 x hx').le
  · rw [List.getElem?_eq_none hle]
    refine Set.eq_empty_iff_forall_notMem.mpr fun x hx => ?_
    simpa [List.drop_eq_nil_of_le hle] using (hleft x).mp hx

lemma Finds.unique {T : Set α} {r r' : Option α} (h : Finds T r) (h' : Finds T r') : r = r' := by
  cases r with
  | none =>
    cases r' with
    | none => rfl
    | some y => exact absurd h'.1 (Set.eq_empty_iff_forall_notMem.mp h y)
  | some x =>
    cases r' with
    | none => exact absurd h.1 (Set.eq_empty_iff_forall_notMem.mp h' x)
    | some y => exact congrArg some (h.unique h')

namespace State

/-- A walk after `m` questions: as many elements of the enumeration, and the end once there are no
more. -/
def after (q : α) (xs : List α) (m : Nat) : State α := ⟨q, xs.take m, decide (xs.length < m)⟩

omit [LinearOrder α]

lemma after_zero (q : α) (xs : List α) : after q xs 0 = begin q := by simp [after, begin]

/-- An answer takes the walk one element further; at the end it stays as it is. -/
lemma after_succ (q : α) (xs : List α) (m : Nat) :
    (if (after q xs m).ended then after q xs m else (after q xs m).answer xs[m]?) =
      after q xs (m + 1) := by
  rcases lt_trichotomy m xs.length with hlt | rfl | hlt
  · have hgo : ¬ xs.length < m := by omega
    have hgo' : ¬ xs.length < m + 1 := by omega
    simp [after, answer, hgo, hgo', List.getElem?_eq_getElem hlt]
  · simp [after, List.take_of_length_le]
  · have hlt' : xs.length < m + 1 := by omega
    simp [after, hlt, hlt', List.take_of_length_le hlt.le, List.take_of_length_le hlt'.le]

/-- Take one answer after the other, up to the end. -/
def answerAll (w : State α) (rs : List (Option α)) : State α :=
  rs.foldl (fun w r => if w.ended then w else w.answer r) w

/-- Answers that follow the enumeration take the walk as many elements further. -/
lemma answerAll_after {q : α} {xs : List α} {m : Nat} {rs : List (Option α)}
    (h : ∀ i r, rs[i]? = some r → r = xs[m + i]?) :
    (after q xs m).answerAll rs = after q xs (m + rs.length) := by
  induction rs generalizing m with
  | nil => rfl
  | cons r rs ih =>
    obtain rfl : r = xs[m]? := h 0 r rfl
    have hrest : (after q xs (m + 1)).answerAll rs = after q xs (m + 1 + rs.length) :=
      ih fun i r hr => by
        rw [Nat.add_assoc, Nat.add_comm 1]
        exact h (i + 1) r hr
    rw [answerAll, List.foldl_cons, after_succ]
    refine hrest.trans ?_
    rw [List.length_cons, Nat.add_assoc, Nat.add_comm 1]

/-- A walk that has come to the end stays there. -/
lemma after_of_ended {q : α} {xs : List α} {m : Nat} (h : (after q xs m).ended = true) (n : Nat) :
    after q xs (m + n) = after q xs m := by
  have hlt : xs.length < m := of_decide_eq_true h
  have hlt' : xs.length < m + n := by omega
  simp [after, hlt, hlt', List.take_of_length_le hlt.le, List.take_of_length_le hlt'.le]

/-- The position moves to the element that is taken. -/
lemma position_after_succ (q : α) (xs : List α) (m : Nat) :
    (after q xs (m + 1)).position = xs[m]?.getD (after q xs m).position := by
  rcases lt_or_ge m xs.length with hlt | hle
  · rw [List.getElem?_eq_getElem hlt, Option.getD_some, position, after]
    simp only [← List.take_concat_get' xs m hlt, List.getLastD_concat]
  · simp [after, position, List.getElem?_eq_none hle, List.take_of_length_le hle,
      List.take_of_length_le (Nat.le_succ_of_le hle)]

end State

/-- A question finds the next element of the enumeration. -/
theorem Enumerates.finds_iff (h : Enumerates S q xs) (m : Nat) {r : Option α} :
    Finds (above S (State.after q xs m).position) r ↔ r = xs[m]? := by
  constructor
  · exact fun hr => Finds.unique hr (h.finds m)
  · rintro rfl
    exact h.finds m

/-! ### Runs -/

section Runs

open Run

variable {σ ι : Type*} (step : σ → ι → Option σ) (asked : σ → ι → Option (Set α))
  (walk : σ → State α)

/-- What a step does to a walk: nothing if it asks nothing or the walk has ended, else it takes what it
finds above the position. -/
inductive Goes (w : State α) : Option (Set α) → State α → Prop
  | rests : Goes w none w
  | ended {S : Set α} : w.ended = true → Goes w (some S) w
  | takes {S : Set α} {r : Option α} : Finds (above S w.position) r → Goes w (some S) (w.answer r)

/-- What a run does to a walk: its answers ascend, each was in the set that it was asked from, and an
element that is in the set at each question is not missed. -/
structure Walked (s : σ) (inputs : List ι) (s' : σ) : Prop where
  start : (walk s').start = (walk s).start
  ascending : (walk s').Ascending
  sound : ∀ x ∈ (walk s').answers, x ∈ (walk s).answers ∨
    ∃ before i after s₁ S, inputs = before ++ i :: after ∧ run step s before = some s₁ ∧
      asked s₁ i = some S ∧ x ∈ S
  meets : ∀ y, (walk s).Meets y → EachStep step (fun s i => ∀ S, asked s i = some S → y ∈ S) s inputs →
    (walk s').Meets y

variable {step asked walk} {s s' : σ} {i : ι}

lemma Goes.start_eq {w w' : State α} {S : Option (Set α)} (h : Goes w S w') : w'.start = w.start := by
  cases h with
  | rests => rfl
  | ended _ => rfl
  | takes _ => exact State.start_answer w _

lemma Goes.ascending {w w' : State α} {S : Option (Set α)} (h : Goes w S w') (hw : w.Ascending) :
    w'.Ascending := by
  cases h with
  | rests => exact hw
  | ended _ => exact hw
  | takes hr => exact hw.answer hr

/-- What an answer is, that was not one before. -/
lemma Goes.sound {w w' : State α} {S : Option (Set α)} (h : Goes w S w') {x : α}
    (hx : x ∈ w'.answers) : x ∈ w.answers ∨ ∃ T, S = some T ∧ x ∈ T := by
  cases h with
  | rests => exact .inl hx
  | ended _ => exact .inl hx
  | @takes T r hr =>
    cases r with
    | none => exact .inl hx
    | some z =>
      rcases List.mem_append.mp hx with hx | hx
      · exact .inl hx
      · obtain rfl := List.mem_singleton.mp hx
        exact .inr ⟨T, rfl, hr.1.1⟩

lemma Goes.meets {w w' : State α} {S : Option (Set α)} (h : Goes w S w') {y : α} (hy : w.Meets y)
    (hin : ∀ T, S = some T → y ∈ T) : w'.Meets y := by
  cases h with
  | rests => exact hy
  | ended _ => exact hy
  | takes hr => exact hy.answer hr (hin _ rfl)

variable (asked walk) in
/-- Steps that go on with a walk under an invariant make a run that does. -/
theorem run_walked {Inv : σ → Prop} {C : σ → ι → Prop}
    (hstep : ∀ s i, Inv s → C s i →
      ∃ s', step s i = some s' ∧ Inv s' ∧ Goes (walk s) (asked s i) (walk s'))
    {inputs : List ι} (hs : Inv s) (hasc : (walk s).Ascending) (h : EachStep step C s inputs) :
    ∃ s', run step s inputs = some s' ∧ Inv s' ∧ Walked step asked walk s inputs s' := by
  induction inputs generalizing s with
  | nil => exact ⟨s, rfl, hs, rfl, hasc, fun x hx => .inl hx, fun y hy _ => hy⟩
  | cons i inputs ih =>
    obtain ⟨s₁, hs₁, hinv, hgoes⟩ := hstep s i hs h.1
    obtain ⟨s', hrun, hinv', hrest⟩ := ih hinv (hgoes.ascending hasc) (h.2 s₁ hs₁)
    refine ⟨s', by simp [hs₁, hrun], hinv', hrest.start.trans hgoes.start_eq, hrest.ascending, ?_, ?_⟩
    · intro x hx
      rcases hrest.sound x hx with hx | ⟨before, j, after, s₂, S, rfl, hrun₂, hasked, hxS⟩
      · rcases hgoes.sound hx with hx | ⟨S, hasked, hxS⟩
        · exact .inl hx
        · exact .inr ⟨[], i, inputs, s, S, rfl, rfl, hasked, hxS⟩
      · exact .inr ⟨i :: before, j, after, s₂, S, rfl, by simp [hs₁, hrun₂], hasked, hxS⟩
    · intro y hy hin
      exact hrest.meets y (hgoes.meets hy hin.1) (hin.2 s₁ hs₁)

end Runs

end Walk
