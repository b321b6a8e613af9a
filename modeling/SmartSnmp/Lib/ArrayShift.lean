import Mathlib.Data.List.InsertIdx
import Mathlib.Data.List.Basic
import Mathlib.Tactic.Common

/-!
# Shifting loops over arrays

The three loops that open and close a gap in an array whose first `cnt` slots are in use, written
slot by slot, and what they leave in the slots in use: `List.insertIdx` and `List.eraseIdx`. The two
that open a gap are also run with every access checked against the bounds of the array.
-/

namespace ArrayShift

variable {α : Type*}

/-! ### Opening a gap in place -/

/-- `for (i = cnt - 1; i >= index; i--) a[i + 1] = a[i];` -/
def shiftUp (index : Nat) : Nat → List α → List α
  | 0, a => a
  | i + 1, a =>
    if index ≤ i then
      match a[i]? with
      | some v => shiftUp index i (a.set (i + 1) v)
      | none => shiftUp index i a
    else a

@[simp] lemma length_shiftUp (index cnt : Nat) (a : List α) :
    (shiftUp index cnt a).length = a.length := by
  induction cnt generalizing a with
  | zero => rfl
  | succ i ih =>
    simp only [shiftUp]
    split_ifs
    · split <;> simp [ih]
    · rfl

lemma getElem?_shiftUp {index cnt : Nat} {a : List α} (hcnt : cnt < a.length) (j : Nat) :
    (shiftUp index cnt a)[j]? = if index < j ∧ j ≤ cnt then a[j - 1]? else a[j]? := by
  induction cnt generalizing a with
  | zero => simp [shiftUp]; omega
  | succ i ih =>
    have hi : a[i]? = some a[i] := List.getElem?_eq_getElem (by omega)
    simp only [shiftUp, hi]
    by_cases h : index ≤ i
    · rw [if_pos h, ih (by simp only [List.length_set]; omega)]
      simp only [List.getElem?_set]
      grind
    · rw [if_neg h, if_neg (by omega)]

/-- The gap opened in place, with `v` written into it. -/
lemma take_set_shiftUp {index cnt : Nat} {a : List α} (hindex : index ≤ cnt)
    (hcnt : cnt < a.length) (v : α) :
    ((shiftUp index cnt a).set index v).take (cnt + 1) = (a.take cnt).insertIdx index v := by
  apply List.ext_getElem?
  intro j
  rw [List.getElem?_take, List.getElem?_insertIdx, List.getElem?_set, getElem?_shiftUp hcnt]
  simp only [length_shiftUp, List.getElem?_take, List.length_take]
  grind

/-- Inserting between what is related to `x` and what `x` is related to keeps a list pairwise
related. -/
lemma pairwise_insertIdx {R : α → α → Prop} {l : List α} (h : l.Pairwise R) {i : Nat} {x : α}
    (hbelow : ∀ j a, j < i → l[j]? = some a → R a x)
    (habove : ∀ j a, i ≤ j → l[j]? = some a → R x a) : (l.insertIdx i x).Pairwise R := by
  induction l generalizing i with
  | nil => cases i <;> simp
  | cons b l ih =>
    cases i with
    | zero =>
      refine List.pairwise_cons.mpr ⟨fun a ha => ?_, h⟩
      obtain ⟨j, hj⟩ := List.mem_iff_getElem?.mp ha
      exact habove j a (Nat.zero_le j) hj
    | succ i =>
      obtain ⟨hb, hl⟩ := List.pairwise_cons.mp h
      rw [List.insertIdx_succ_cons]
      refine List.pairwise_cons.mpr ⟨fun a ha => ?_, ih hl (fun j a hj hja => ?_) fun j a hj hja => ?_⟩
      · rcases List.eq_or_mem_of_mem_insertIdx ha with rfl | ha
        · exact hbelow 0 b (Nat.succ_pos i) rfl
        · exact hb a ha
      · exact hbelow (j + 1) a (by omega) hja
      · exact habove (j + 1) a (by omega) hja

/-! ### Opening a gap while copying -/

/-- `for (i = 0; i < cnt; i++) if (i < index) new[i] = old[i]; else new[i + 1] = old[i];` -/
def copyGap (old : List α) (index : Nat) : Nat → List α → List α
  | 0, new => new
  | i + 1, new =>
    match old[i]? with
    | some v => (copyGap old index i new).set (if i < index then i else i + 1) v
    | none => copyGap old index i new

@[simp] lemma length_copyGap (old : List α) (index cnt : Nat) (new : List α) :
    (copyGap old index cnt new).length = new.length := by
  induction cnt with
  | zero => rfl
  | succ i ih => simp only [copyGap]; split <;> simp [ih]

lemma getElem?_copyGap {old new : List α} {index cnt : Nat} (hold : cnt ≤ old.length)
    (hnew : cnt < new.length) (j : Nat) :
    (copyGap old index cnt new)[j]? =
      if j < index ∧ j < cnt then old[j]? else if index < j ∧ j ≤ cnt then old[j - 1]?
        else new[j]? := by
  induction cnt with
  | zero => simp [copyGap]; omega
  | succ i ih =>
    have hi : old[i]? = some old[i] := List.getElem?_eq_getElem (by omega)
    simp only [copyGap, hi, List.getElem?_set, length_copyGap]
    rw [ih (by omega) (by omega)]
    grind

/-- The gap opened while copying, with `v` written into it. -/
lemma take_set_copyGap {old new : List α} {index cnt : Nat} (hindex : index ≤ cnt)
    (hold : cnt ≤ old.length) (hnew : cnt < new.length) (v : α) :
    ((copyGap old index cnt new).set index v).take (cnt + 1) = (old.take cnt).insertIdx index v := by
  apply List.ext_getElem?
  intro j
  rw [List.getElem?_take, List.getElem?_insertIdx, List.getElem?_set, getElem?_copyGap hold hnew]
  simp only [length_copyGap, List.getElem?_take, List.length_take]
  grind

/-! ### Closing a gap -/

/-- `for (i = index; i < index + n; i++) a[i] = a[i + 1];` -/
def shiftDown (index : Nat) : Nat → List α → List α
  | 0, a => a
  | k + 1, a =>
    match (shiftDown index k a)[index + k + 1]? with
    | some v => (shiftDown index k a).set (index + k) v
    | none => shiftDown index k a

@[simp] lemma length_shiftDown (index n : Nat) (a : List α) :
    (shiftDown index n a).length = a.length := by
  induction n with
  | zero => rfl
  | succ k ih => simp only [shiftDown]; split <;> simp [ih]

lemma getElem?_shiftDown {index n : Nat} {a : List α} (h : index + n < a.length) (j : Nat) :
    (shiftDown index n a)[j]? = if index ≤ j ∧ j < index + n then a[j + 1]? else a[j]? := by
  induction n generalizing j with
  | zero =>
    rw [if_neg (by omega)]
    rfl
  | succ k ih =>
    have hk : (shiftDown index k a)[index + k + 1]? = some a[index + k + 1] := by
      rw [ih (by omega), if_neg (by omega), List.getElem?_eq_getElem]
    simp only [shiftDown, hk, List.getElem?_set, length_shiftDown]
    rw [ih (by omega)]
    grind

/-- Closing the gap at `index` removes that slot from the slots in use. -/
lemma take_shiftDown {index cnt : Nat} {a : List α} (hindex : index < cnt) (hcnt : cnt ≤ a.length) :
    (shiftDown index (cnt - 1 - index) a).take (cnt - 1) = (a.take cnt).eraseIdx index := by
  apply List.ext_getElem?
  intro j
  rw [List.getElem?_take, List.getElem?_eraseIdx, getElem?_shiftDown (by omega)]
  simp only [List.getElem?_take]
  grind

/-! ### Inside of the arrays -/

/-- `a[i] = v;` -/
def write (a : List α) (i : Nat) (v : α) : Option (List α) :=
  if i < a.length then some (a.set i v) else none

lemma write_of_lt {a : List α} {i : Nat} (h : i < a.length) (v : α) :
    write a i v = some (a.set i v) := if_pos h

lemma write_of_le {a : List α} {i : Nat} (h : a.length ≤ i) (v : α) : write a i v = none :=
  if_neg (Nat.not_lt.mpr h)

lemma length_of_write {a b : List α} {i : Nat} {v : α} (h : write a i v = some b) :
    b.length = a.length := by
  simp only [write, Option.ite_none_right_eq_some, Option.some.injEq] at h
  simp [← h.2]

/-- `shiftUp`, up to the first access outside of the array. -/
def shiftUpChecked (index : Nat) : Nat → List α → Option (List α)
  | 0, a => some a
  | i + 1, a =>
    if index ≤ i then do
      let v ← a[i]?
      let a ← write a (i + 1) v
      shiftUpChecked index i a
    else some a

/-- `copyGap`, up to the first access outside of an array. -/
def copyGapChecked (old : List α) (index : Nat) : Nat → List α → Option (List α)
  | 0, new => some new
  | i + 1, new => do
    let new ← copyGapChecked old index i new
    let v ← old[i]?
    write new (if i < index then i else i + 1) v

/-- With a slot that is not in use there is room to shift. -/
lemma shiftUpChecked_eq {index cnt : Nat} {a : List α} (hcnt : cnt < a.length) :
    shiftUpChecked index cnt a = some (shiftUp index cnt a) := by
  induction cnt generalizing a with
  | zero => rfl
  | succ i ih =>
    have hi : a[i]? = some a[i] := List.getElem?_eq_getElem (by omega)
    simp only [shiftUpChecked, shiftUp, hi]
    split_ifs
    · rw [Option.bind_eq_bind, Option.bind_some, write_of_lt (by omega), Option.bind_eq_bind,
        Option.bind_some, ih (by simp only [List.length_set]; omega)]
    · rfl

/-- With more slots than are in use there is room to copy. -/
lemma copyGapChecked_eq {old new : List α} {index cnt : Nat} (hold : cnt ≤ old.length)
    (hnew : cnt < new.length) :
    copyGapChecked old index cnt new = some (copyGap old index cnt new) := by
  induction cnt with
  | zero => rfl
  | succ i ih =>
    have hi : old[i]? = some old[i] := List.getElem?_eq_getElem (by omega)
    have hslot : (if i < index then i else i + 1) < (copyGap old index i new).length := by
      rw [length_copyGap]
      split_ifs <;> omega
    simp only [copyGapChecked, copyGap, hi, ih (by omega) (by omega), Option.bind_eq_bind,
      Option.bind_some, write_of_lt hslot]

lemma length_of_copyGapChecked {old new out : List α} {index cnt : Nat}
    (h : copyGapChecked old index cnt new = some out) : out.length = new.length := by
  induction cnt generalizing out with
  | zero =>
    obtain rfl : new = out := Option.some.inj h
    rfl
  | succ i ih =>
    simp only [copyGapChecked, Option.bind_eq_bind, Option.bind_eq_some_iff] at h
    obtain ⟨mid, hmid, v, -, hout⟩ := h
    rw [length_of_write hout, ih hmid]

/-- Into fewer slots than are in use the last one is copied past the end. -/
lemma copyGapChecked_eq_none {old new : List α} {index cnt : Nat} (hnew : new.length < cnt) :
    copyGapChecked old index cnt new = none := by
  obtain ⟨i, rfl⟩ : ∃ i, cnt = i + 1 := ⟨cnt - 1, by omega⟩
  rw [Option.eq_none_iff_forall_ne_some]
  intro out h
  simp only [copyGapChecked, Option.bind_eq_bind, Option.bind_eq_some_iff] at h
  obtain ⟨mid, hmid, v, -, hout⟩ := h
  have hlen := length_of_copyGapChecked hmid
  rw [write_of_le (by split_ifs <;> omega)] at hout
  simp at hout

end ArrayShift
