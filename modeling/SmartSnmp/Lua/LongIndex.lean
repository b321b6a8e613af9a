import SmartSnmp.Lua.ReadBack

/-!
# GETNEXT over long indexes

The indexes of a table may be strings of numbers, which are sequences in the last dimension of its
index table. `compare` reads as many components of the request as the index has, so the search ends
with an error if the request ends inside an index.
-/

namespace SmartSnmp

namespace Lua

open Product

/-! ### The last dimension -/

/-- The request ends inside the index. -/
def Inside (r o : List Int) : Prop := r <+: o ∧ r ≠ o

lemma compareIds_spec (r o : List Int) :
    Inside r o ∧ compareIds r o = .error .runtime ∨
      ¬ Inside r o ∧ ∃ d, compareIds r o = .ok d ∧ (d < 0 ↔ r < o) := by
  induction r generalizing o with
  | nil =>
    cases o with
    | nil => exact .inr ⟨fun h => h.2 rfl, 0, rfl, by simp⟩
    | cons e es => exact .inl ⟨⟨List.nil_prefix, by simp⟩, rfl⟩
  | cons x r ih =>
    cases o with
    | nil =>
      refine .inr ⟨fun h => h.2 (List.prefix_nil.mp h.1), _, rfl, iff_of_false ?_ ?_⟩
      · rw [List.length_cons]
        omega
      · exact List.not_lt_nil _
    | cons e es =>
      rw [compareIds]
      by_cases hxe : x - e = 0
      · obtain rfl : x = e := by omega
        have hinside : Inside (x :: r) (x :: es) ↔ Inside r es := by simp [Inside]
        have hlt : x :: r < x :: es ↔ r < es := by simp
        rw [if_pos hxe, hinside, hlt]
        exact ih es
      · rw [if_neg hxe]
        refine .inr ⟨fun h => hxe ?_, _, rfl, ?_⟩
        · rw [(List.cons_prefix_cons.mp h.1).1]
          omega
        · rw [List.cons_lt_cons_iff]
          omega

section Scan

variable {O : List (List Int)} {r : List Int}

lemma compare_oid (r o : List Int) : compare r (.oid o) = compareIds r o := by
  cases r <;> rfl

/-- The scan compares with an index that the request ends inside of before it finds one above. -/
lemma scan_inside (hO : O.Pairwise (· < ·)) (h : ∃ o ∈ O, Inside r o) (i : Nat) :
    scan r true i (O.map .oid) = .error .runtime := by
  induction O generalizing i with
  | nil => simp at h
  | cons o O ih =>
    obtain ⟨ho, hO⟩ := List.pairwise_cons.mp hO
    rw [List.map_cons, scan, compare_oid]
    rcases compareIds_spec r o with ⟨-, herr⟩ | ⟨hnot, d, hd, hlt⟩
    · rw [herr]
      rfl
    · obtain ⟨o', ho', hinside⟩ := h
      have ho'O : o' ∈ O := by
        rcases List.mem_cons.mp ho' with rfl | ho'
        · exact absurd hinside hnot
        · exact ho'
      have hge : ¬ d < 0 := by
        intro hneg
        have hro : r < o := hlt.mp hneg
        exact hnot ⟨PrefixOrder.prefix_of_between hro.le (ho o' ho'O).le hinside.1, hro.ne⟩
      rw [hd]
      simp only [bind, Except.bind, if_neg hge, reduceCtorEq, and_false, if_false]
      exact ih hO ⟨o', ho'O, hinside⟩ (i + 1)

/-- Otherwise it finds the first index above the request. -/
lemma scan_outside (h : ∀ o ∈ O, ¬ Inside r o) (i : Nat) :
    match O.find? (r < ·) with
    | some o => ∃ j, scan r true i (O.map .oid) = .ok (some (.above j (.oid o)))
    | none => scan r true i (O.map .oid) = .ok none := by
  induction O generalizing i with
  | nil => rfl
  | cons o O ih =>
    obtain ⟨hnot, hO⟩ := List.forall_mem_cons.mp h
    rcases compareIds_spec r o with ⟨hinside, -⟩ | ⟨-, d, hd, hlt⟩
    · exact absurd hinside hnot
    · by_cases hro : r < o
      · rw [List.find?_cons_of_pos (by simpa using hro)]
        refine ⟨i, ?_⟩
        rw [List.map_cons, scan, compare_oid, hd]
        simp [bind, Except.bind, hlt.mpr hro]
      · rw [List.find?_cons_of_neg (by simpa using hro)]
        have hrest := ih hO (i + 1)
        have hscan : scan r true i ((o :: O).map .oid) = scan r true (i + 1) (O.map .oid) := by
          have hge : ¬ d < 0 := fun hneg => hro (hlt.mp hneg)
          rw [List.map_cons, scan, compare_oid, hd]
          simp [bind, Except.bind, hge]
        rw [hscan]
        exact hrest

end Scan

/-! ### The search in the table -/

/-- What a search returns: an OID, which is what the request is then, or nothing. -/
def Returns (res : Except LuaError (List Int × List Int)) : Option (List Int) → Prop
  | some w => res = .ok (w, w)
  | none => ∃ left, res = .ok ([], left)

/-- The components of the first elements. -/
def firstFlat : List Dim → Option (List Int)
  | [] => some []
  | d :: D => d.head?.bind fun e => (firstFlat D).map (e.ids ++ ·)

/-- From the end of the request on, the search takes the first elements. -/
lemma getnext_ended (before : List Dim) {it R : List Dim} (hit : it = before ++ R) (hR : R ≠ [])
    {record : List Pos} (hrecord : record.length = before.length) {fuel : Nat}
    (hfuel : R.length ≤ fuel) (a : List Int) :
    Returns (getnext it fuel a a.length record) ((firstFlat R).map (a ++ ·)) := by
  induction R generalizing before record fuel a with
  | nil => exact absurd rfl hR
  | cons d D ih =>
    obtain ⟨fuel, rfl⟩ : ∃ n, fuel = n + 1 := ⟨fuel - 1, by simp at hfuel; omega⟩
    have hdim : it[record.length]? = some d := by simp [hit, hrecord]
    cases d with
    | nil => exact ⟨a, getnext_step_nil hdim fuel a a.length⟩
    | cons e es =>
      have hlast : record.length + 1 = it.length ↔ D = [] := by
        rw [← List.length_eq_zero_iff]
        simp [hit, hrecord]
      rw [getnext_step_end hdim]
      by_cases hD : D = []
      · rw [if_pos (hlast.mpr hD), hD]
        simp [Returns, firstFlat]
      · rw [if_neg (hlast.not.mpr hD), ← List.length_append]
        have hrecord' : (⟨a.length, 0⟩ :: record).length = (before ++ [e :: es]).length := by
          simp [hrecord]
        have h := ih (before ++ [e :: es]) (by simp [hit]) hD hrecord' (by simpa using hfuel)
          (a ++ e.ids)
        rw [firstFlat, List.head?_cons, Option.bind_some, Option.map_map]
        simpa [Function.comp_def] using h

section Table

variable (t e : Int) {cols : List Int} (hcols : cols.Pairwise (· < ·)) {O : List (List Int)}

/-- The dimensions of a table with long indexes. -/
def longDims (cols : List Int) (O : List (List Int)) : List Dim :=
  [nums [t], nums [e], nums cols, O.map .oid]

/-- The least index above what the request has of one. -/
def nextIndex (O : List (List Int)) (r : List Int) : Option (List Int) := O.find? (r < ·)

@[simp] lemma firstFlat_oids (O : List (List Int)) : firstFlat [O.map .oid] = O.head? := by
  cases O <;> simp [firstFlat, IndexElem.ids]

@[simp] lemma firstFlat_nums (d : List Int) (D : List Dim) :
    firstFlat (nums d :: D) = d.head?.bind fun y => (firstFlat D).map (y :: ·) := by
  cases d <;> simp [firstFlat, nums, IndexElem.ids]

omit hcols in
/-- A column has been taken: the search takes the first index. -/
lemma getnext_column_taken (c : Int) (j fuel : Nat) :
    Returns (getnext (longDims t e cols O) (fuel + 1) [t, e, c] 3 [⟨2, j⟩, ⟨1, 0⟩, ⟨0, 0⟩])
      (O.head?.map (t :: e :: c :: ·)) := by
  have h : Returns (getnext (longDims t e cols O) (fuel + 1) [t, e, c] 3 [⟨2, j⟩, ⟨1, 0⟩, ⟨0, 0⟩])
      ((firstFlat [O.map .oid]).map ([t, e, c] ++ ·)) :=
    getnext_ended [nums [t], nums [e], nums cols] rfl (by simp) rfl (by simp) [t, e, c]
  rw [firstFlat_oids] at h
  exact h

include hcols

/-- The search has gone back to a column. -/
lemma getnext_column_back {c : Int} (hc : c ∈ cols) (fuel : Nat) :
    Returns (getnext (longDims t e cols O) (fuel + 2) [t, e, c] 2 [⟨1, 0⟩, ⟨0, 0⟩])
      (O.head?.map (t :: e :: c :: ·)) := by
  have hne : nums cols ≠ [] := by simpa [nums] using List.ne_nil_of_mem hc
  obtain ⟨j, -, hscan⟩ := scan_same hcols c [] hc 0
  have hstep : getnext (longDims t e cols O) (fuel + 2) [t, e, c] 2 [⟨1, 0⟩, ⟨0, 0⟩] = _ :=
    getnext_step_scan rfl hne (fuel + 1) [t, e] c []
  rw [hstep, decide_eq_false (by simp [longDims]), hscan]
  exact getnext_column_taken t e c (0 + j) fuel

/-- The request goes on in a column. -/
lemma getnext_index {c : Int} {j : Nat} (hj : cols[j]? = some c) {r : List Int} (hr : r ≠ [])
    (hr' : ∀ o ∈ O, ¬ Inside r o) (fuel : Nat) :
    Returns (getnext (longDims t e cols O) (fuel + 3) (t :: e :: c :: r) 3
        [⟨2, j⟩, ⟨1, 0⟩, ⟨0, 0⟩])
      (((nextIndex O r).map (t :: e :: c :: ·)).or
        ((cols.find? (c < ·)).bind fun y => O.head?.map (t :: e :: y :: ·))) := by
  obtain ⟨x, xs, rfl⟩ := List.exists_cons_of_ne_nil hr
  cases hO : O with
  | nil =>
    have hdim : (longDims t e cols [])[3]? = some [] := rfl
    have hnone : ((cols.find? (c < ·)).bind fun y =>
        ([] : List (List Int)).head?.map (t :: e :: y :: ·)) = none := by
      cases cols.find? (c < ·) <;> rfl
    rw [hnone]
    exact ⟨_, getnext_step_nil hdim (fuel + 2) (t :: e :: c :: x :: xs) 3⟩
  | cons o O' =>
    rw [← hO]
    have hne : O.map IndexElem.oid ≠ [] := by simp [hO]
    have hstep : getnext (longDims t e cols O) (fuel + 3) (t :: e :: c :: x :: xs) 3
        [⟨2, j⟩, ⟨1, 0⟩, ⟨0, 0⟩] = _ := getnext_step_scan rfl hne (fuel + 2) [t, e, c] x xs
    have hscan := scan_outside hr' 0
    rw [hstep, decide_eq_true (by simp [longDims])]
    rw [nextIndex]
    cases hfind : O.find? (x :: xs < ·) with
    | some o' =>
      rw [hfind] at hscan
      obtain ⟨i, hscan⟩ := hscan
      rw [hscan]
      simp [Returns, longDims, IndexElem.ids]
    | none =>
      -- the indexes of the column are used up
      rw [hfind] at hscan
      rw [hscan, find?_eq_getElem? hcols hj]
      have hback : backtrack (longDims t e cols O) [⟨2, j⟩, ⟨1, 0⟩, ⟨0, 0⟩] =
          (cols[j + 1]?).map fun y => (2, .num y, [⟨1, 0⟩, ⟨0, 0⟩]) := by
        have hnext : ((longDims t e cols O)[([⟨1, 0⟩, ⟨0, 0⟩] : List Pos).length]?).bind
            (·[j + 1]?) = (cols[j + 1]?).map .num := List.getElem?_map
        rw [backtrack]
        simp only [hnext]
        cases cols[j + 1]? <;> rfl
      simp only [hback]
      cases hy : cols[j + 1]? with
      | none => exact ⟨_, rfl⟩
      | some y => exact getnext_column_back t e hcols (List.mem_of_getElem? hy) fuel

omit hcols in
/-- What may follow a column in the request: it does not end inside an index, and if it ends at the
column then no index is empty. -/
def Whole (O : List (List Int)) (r : List Int) : Prop :=
  if r = [] then [] ∉ O else ∀ o ∈ O, ¬ Inside r o

omit hcols in
lemma nextIndex_nil (h : [] ∉ O) : nextIndex O [] = O.head? := by
  cases O with
  | nil => rfl
  | cons o O =>
    cases o with
    | nil => simp at h
    | cons x o => exact List.find?_cons_of_pos (by simp)

omit hcols in
lemma map_cons_or_bind (a : Option (List Int)) (x : Int) (b : Option Int) :
    (a.map (x :: ·)).or (b.bind fun y => a.map (y :: ·)) = a.map (x :: ·) := by
  cases a <;> cases b <;> rfl

/-- The request goes on at the columns. -/
lemma getnext_columns {ys : List Int} (hys : ∀ c ∈ cols, ∀ r, ys = c :: r → Whole O r)
    (fuel : Nat) :
    Returns (getnext (longDims t e cols O) (fuel + 4) (t :: e :: ys) 2 [⟨1, 0⟩, ⟨0, 0⟩])
      ((consNext cols O.head? (nextIndex O) ys).map (t :: e :: ·)) := by
  cases ys with
  | nil =>
    have h : Returns (getnext (longDims t e cols O) (fuel + 4) [t, e] 2 [⟨1, 0⟩, ⟨0, 0⟩])
        ((firstFlat [nums cols, O.map .oid]).map ([t, e] ++ ·)) :=
      getnext_ended [nums [t], nums [e]] rfl (by simp) rfl (by simp) [t, e]
    rw [firstFlat_nums, firstFlat_oids] at h
    exact h
  | cons x xs =>
    by_cases hnil : cols = []
    · subst hnil
      have hdim : (longDims t e [] O)[2]? = some [] := rfl
      exact ⟨_, getnext_step_nil hdim (fuel + 3) (t :: e :: x :: xs) 2⟩
    have hne : nums cols ≠ [] := by simpa [nums] using hnil
    have hstep : getnext (longDims t e cols O) (fuel + 4) (t :: e :: x :: xs) 2
        [⟨1, 0⟩, ⟨0, 0⟩] = _ := getnext_step_scan rfl hne (fuel + 3) [t, e] x xs
    rw [hstep, decide_eq_false (by simp [longDims]), consNext]
    by_cases hx : x ∈ cols
    · obtain ⟨j, hj, hscan⟩ := scan_same hcols x xs hx 0
      have hwhole := hys x hx xs rfl
      rw [hscan, if_pos hx]
      by_cases hxs : xs = []
      · rw [Whole, if_pos hxs] at hwhole
        rw [hxs, nextIndex_nil hwhole, map_cons_or_bind, Option.map_map]
        exact getnext_column_taken t e x (0 + j) (fuel + 2)
      · rw [Whole, if_neg hxs] at hwhole
        have h := getnext_index t e hcols hj hxs hwhole fuel
        rw [Nat.zero_add, Option.map_or, Option.map_map, Option.map_bind]
        simp only [Function.comp_def, Option.map_map]
        exact h
    · have hscan := scan_find? hcols x xs false (.inr hx) 0
      rw [if_neg hx, Option.none_or]
      cases hfind : cols.find? (x < ·) with
      | none =>
        rw [hfind] at hscan
        rw [hscan]
        exact ⟨_, rfl⟩
      | some y =>
        rw [hfind] at hscan
        obtain ⟨j, -, hscan⟩ := hscan
        rw [hscan, Option.bind_some, Option.map_map]
        exact getnext_column_taken t e y (0 + j) (fuel + 2)

omit hcols in
/-- The request at a dimension with one number, from which the search cannot go back. -/
lemma getnext_single {it : List Dim} {record : List Pos} {k : Int}
    (hdim : it[record.length]? = some (nums [k])) (hlast : record.length + 1 ≠ it.length)
    (hback : backtrack it record = none) {fuel : Nat} (a : List Int) {ys : List Int}
    {firstT : Option (List Int)} {nextT : List Int → Option (List Int)}
    (hsame : ∀ xs, ys = k :: xs → Returns (getnext it fuel (a ++ k :: xs) (a.length + 1)
      (⟨a.length, 0⟩ :: record)) ((nextT xs).map (a ++ k :: ·)))
    (hfirst : Returns (getnext it fuel (a ++ [k]) (a.length + 1) (⟨a.length, 0⟩ :: record))
      (firstT.map (a ++ k :: ·))) :
    Returns (getnext it (fuel + 1) (a ++ ys) a.length record)
      ((consNext [k] firstT nextT ys).map (a ++ ·)) := by
  cases ys with
  | nil =>
    rw [List.append_nil, getnext_step_end hdim, if_neg hlast]
    simpa [consNext, IndexElem.ids, Function.comp_def] using hfirst
  | cons x xs =>
    rw [getnext_step_scan hdim (by simp [nums]), decide_eq_false hlast, consNext]
    rcases lt_trichotomy x k with hlt | rfl | hgt
    · rw [scan_cons_of_gt x xs hlt]
      simpa [hlt, hlt.ne, hlast, IndexElem.ids, Function.comp_def] using hfirst
    · rw [scan_cons_self]
      simpa [IndexElem.ids, Function.comp_def] using hsame xs rfl
    · rw [scan_cons_of_lt x xs hgt]
      simp [hback, hgt.ne', hgt.le, nums, scan, Returns]

/-- What the search in the table returns, unless the request ends inside an index. -/
def longNext (cols : List Int) (O : List (List Int)) : List Int → Option (List Int) :=
  consNext [t] ((firstFlat [nums cols, O.map .oid]).map (e :: ·))
    (consNext [e] (firstFlat [nums cols, O.map .oid]) (consNext cols O.head? (nextIndex O)))

lemma getnext_longDims {req : List Int}
    (hreq : ∀ c ∈ cols, ∀ r, req = t :: e :: c :: r → Whole O r) :
    Returns (groupIndexTableGetnext req (longDims t e cols O)) (longNext t e cols O req) := by
  have hcolumns : ∀ ys, req = t :: e :: ys →
      Returns (getnext (longDims t e cols O) 7 (t :: e :: ys) 2 [⟨1, 0⟩, ⟨0, 0⟩])
        ((consNext cols O.head? (nextIndex O) ys).map (t :: e :: ·)) := by
    intro ys hys
    refine getnext_columns t e hcols (fun c hc r hr => hreq c hc r ?_) 3
    rw [hys, hr]
  have hentry : ∀ xs, req = t :: xs →
      Returns (getnext (longDims t e cols O) 8 (t :: xs) 1 [⟨0, 0⟩])
        ((consNext [e] (firstFlat [nums cols, O.map .oid])
          (consNext cols O.head? (nextIndex O)) xs).map (t :: ·)) := by
    intro xs hxs
    have hfirst : Returns (getnext (longDims t e cols O) 7 [t, e] 2 [⟨1, 0⟩, ⟨0, 0⟩])
        ((firstFlat [nums cols, O.map .oid]).map ([t, e] ++ ·)) :=
      getnext_ended [nums [t], nums [e]] rfl (by simp) rfl (by simp) [t, e]
    have hcolumns' : ∀ ys, xs = e :: ys → _ := fun ys hys => hcolumns ys (by rw [hxs, hys])
    exact getnext_single rfl (by simp [longDims]) rfl [t] hcolumns' hfirst
  have hfirst : Returns (getnext (longDims t e cols O) 8 [t] 1 [⟨0, 0⟩])
      ((firstFlat [nums [e], nums cols, O.map .oid]).map ([t] ++ ·)) :=
    getnext_ended [nums [t]] rfl (by simp) rfl (by simp) [t]
  rw [firstFlat_nums] at hfirst
  have h : Returns (getnext (longDims t e cols O) 9 ([] ++ req) ([] : List Int).length [])
      ((longNext t e cols O req).map ([] ++ ·)) :=
    getnext_single rfl (by simp [longDims]) rfl [] hentry hfirst
  show Returns (getnext (longDims t e cols O) 9 req 0 []) _
  simpa only [List.nil_append, List.length_nil, Option.map_id'] using h

end Table

/-! ### What the search finds -/

/-- The instances of a table with these columns and indexes. -/
def longInstances (t e : Int) (cols : List Int) (O : List (List Int)) : Set (List Int) :=
  {oid | ∃ c ∈ cols, ∃ o ∈ O, oid = t :: e :: c :: o}

/-- The search returns the least element of a set above the request, or nothing if and only if there
is none. -/
def FindsNext (S : Set (List Int)) (it : List Dim) (req : List Int) : Prop :=
  ∃ rsp left, groupIndexTableGetnext req it = .ok (rsp, left) ∧
    (rsp = [] ↔ {oid | oid ∈ S ∧ req < oid} = ∅) ∧
      ({oid | oid ∈ S ∧ req < oid}.Nonempty → IsLeast {oid | oid ∈ S ∧ req < oid} rsp)

lemma findsNext_of_returns {S : Set (List Int)} {it : List Dim} {req : List Int}
    {out : Option (List Int)} (h : Returns (groupIndexTableGetnext req it) out)
    (hleast : Least {oid | oid ∈ S ∧ req < oid} out) : FindsNext S it req := by
  cases out with
  | none =>
    obtain ⟨left, hres⟩ := h
    have hempty : {oid | oid ∈ S ∧ req < oid} = ∅ := hleast
    refine ⟨[], left, hres, iff_of_true rfl hempty, fun hne => ?_⟩
    rw [hempty] at hne
    exact absurd hne Set.not_nonempty_empty
  | some w =>
    have hw : IsLeast {oid | oid ∈ S ∧ req < oid} w := hleast
    have hne : w ≠ [] := by
      rintro rfl
      exact List.not_lt_nil req hw.1.2
    exact ⟨w, w, h, iff_of_false hne (Set.nonempty_iff_ne_empty.mp ⟨w, hw.1⟩), fun _ => hw⟩

section Least

variable (t e : Int) {cols : List Int} (hcols : cols.Pairwise (· < ·)) {O : List (List Int)}
  (hO : O.Pairwise (· < ·))

lemma longInstances_eq : longInstances t e cols O =
    consSet [t] (consSet [e] (consSet cols {o | o ∈ O})) := by
  ext oid
  simp [longInstances, consSet, and_assoc]

include hO

lemma head?_indexes_least : Least {o | o ∈ O} O.head? := by
  have h := head?_least hO
  cases hhead : O.head? with
  | none =>
    rw [hhead] at h
    exact h
  | some o =>
    rw [hhead] at h
    exact h

lemma nextIndex_least (r : List Int) : Least {o | o ∈ {o | o ∈ O} ∧ r < o} (nextIndex O r) := by
  have h := find?_least hO r
  rw [nextIndex]
  split at h
  next hfind =>
    have hnone : O.find? (r < ·) = none := by convert hfind
    rw [hnone]
    exact h
  next o hfind =>
    have hsome : O.find? (r < ·) = some o := by convert hfind
    rw [hsome]
    exact h

include hcols

lemma longNext_least (req : List Int) :
    Least {oid | oid ∈ longInstances t e cols O ∧ req < oid} (longNext t e cols O req) := by
  have hcolumns : Least (consSet cols {o | o ∈ O}) (firstFlat [nums cols, O.map .oid]) := by
    rw [firstFlat_nums, firstFlat_oids]
    exact consSet_least hcols (head?_indexes_least hO)
  have hentry : Least (consSet [e] (consSet cols {o | o ∈ O}))
      ((firstFlat [nums cols, O.map .oid]).map (e :: ·)) :=
    consSet_least (List.pairwise_singleton _ e) hcolumns
  rw [longInstances_eq]
  exact consNext_least (List.pairwise_singleton _ t) hentry
    (consNext_least (List.pairwise_singleton _ e) hcolumns
      (consNext_least hcols (head?_indexes_least hO) (nextIndex_least hO))) req

end Least

section Breaks

variable (t e : Int) {cols : List Int} (hcols : cols.Pairwise (· < ·)) {O : List (List Int)}
  {c : Int} (hc : c ∈ cols)
include hcols hc

/-- The request goes down to an index of a column. -/
lemma getnext_to_index (r : List Int) : ∃ j,
    groupIndexTableGetnext (t :: e :: c :: r) (longDims t e cols O) =
      getnext (longDims t e cols O) 6 (t :: e :: c :: r) 3 [⟨2, j⟩, ⟨1, 0⟩, ⟨0, 0⟩] := by
  have hne : nums cols ≠ [] := by simpa [nums] using List.ne_nil_of_mem hc
  obtain ⟨j, -, hscan⟩ := scan_same hcols c r hc 0
  have hfirst : getnext (longDims t e cols O) 9 (t :: e :: c :: r) 0 [] = _ :=
    getnext_step_scan rfl (by simp [nums]) 8 [] t (e :: c :: r)
  have hsecond : getnext (longDims t e cols O) 8 (t :: e :: c :: r) 1 [⟨0, 0⟩] = _ :=
    getnext_step_scan rfl (by simp [nums]) 7 [t] e (c :: r)
  have hthird : getnext (longDims t e cols O) 7 (t :: e :: c :: r) 2 [⟨1, 0⟩, ⟨0, 0⟩] = _ :=
    getnext_step_scan rfl hne 6 [t, e] c r
  rw [decide_eq_false (by simp [longDims]), scan_cons_self] at hfirst hsecond
  rw [decide_eq_false (by simp [longDims]), hscan] at hthird
  exact ⟨0 + j, hfirst.trans (hsecond.trans hthird)⟩

/-- A request that ends inside an index ends with an error, and one that ends at a column with an
empty index returns itself. -/
lemma not_findsNext (hO : O.Pairwise (· < ·)) {r : List Int} (hr : ¬ Whole O r)
    (S : Set (List Int)) : ¬ FindsNext S (longDims t e cols O) (t :: e :: c :: r) := by
  obtain ⟨j, hrun⟩ := getnext_to_index t e hcols hc (O := O) r
  rintro ⟨rsp, left, hres, hempty, hleast⟩
  rw [hrun] at hres
  rw [Whole] at hr
  cases r with
  | nil =>
    have hmem : [] ∈ O := by simpa using hr
    have hhead : O.head? = some [] := by
      obtain ⟨o, O', rfl⟩ := List.exists_cons_of_ne_nil (List.ne_nil_of_mem hmem)
      rcases List.mem_cons.mp hmem with rfl | hmem
      · rfl
      · exact absurd ((List.pairwise_cons.mp hO).1 [] hmem) (List.not_lt_nil o)
    have htaken : Returns (getnext (longDims t e cols O) 6 [t, e, c] 3
        [⟨2, j⟩, ⟨1, 0⟩, ⟨0, 0⟩]) (O.head?.map (t :: e :: c :: ·)) :=
      getnext_column_taken t e c j 5
    rw [hhead] at htaken
    have htaken' : getnext (longDims t e cols O) 6 [t, e, c] 3 [⟨2, j⟩, ⟨1, 0⟩, ⟨0, 0⟩] =
      .ok ([t, e, c], [t, e, c]) := htaken
    rw [htaken'] at hres
    cases hres
    by_cases hne : {oid | oid ∈ S ∧ [t, e, c] < oid} = ∅
    · exact absurd (hempty.mpr hne) (by simp)
    · exact absurd (hleast (Set.nonempty_iff_ne_empty.mpr hne)).1.2 (lt_irrefl _)
  | cons x xs =>
    have hinside : ∃ o ∈ O, Inside (x :: xs) o := by
      simpa only [if_neg (List.cons_ne_nil x xs), not_forall, not_not, exists_prop] using hr
    have hne : O.map IndexElem.oid ≠ [] := by
      obtain ⟨o, ho, -⟩ := hinside
      simpa using List.ne_nil_of_mem ho
    have hstep : getnext (longDims t e cols O) 6 (t :: e :: c :: x :: xs) 3
        [⟨2, j⟩, ⟨1, 0⟩, ⟨0, 0⟩] = _ := getnext_step_scan rfl hne 5 [t, e, c] x xs
    rw [hstep, decide_eq_true (by simp [longDims]), scan_inside hO hinside] at hres
    cases hres

end Breaks

/-! ### Tables with long indexes -/

/-- A table whose indexes are strings of different numbers. -/
structure LongTable (σ : Type) where
  objNo : Int
  entryNo : Int
  entry : Entry σ
  keys : List (List Char)
  indexes_eq : entry.indexes = .keys (keys.map .str)
  distinct : (keys.map (digitRuns none)).Nodup

namespace LongTable

variable {σ : Type} (x : LongTable σ)

/-- The numbers of its indexes. -/
def indexes : List (List Int) := x.keys.map (digitRuns none)

/-- Its instances. -/
def instances : Set (List Int) :=
  longInstances x.objNo x.entryNo x.entry.columns.keys x.indexes

/-- The indexes in order. -/
def sorted : List (List Int) := x.indexes.insertionSort (· ≤ ·)

lemma mem_sorted {o : List Int} : o ∈ x.sorted ↔ o ∈ x.indexes := List.mem_insertionSort _

lemma sorted_pairwise : x.sorted.Pairwise (· < ·) := by
  have hle : x.sorted.Pairwise (· ≤ ·) := List.pairwise_insertionSort _ x.indexes
  have hne : x.sorted.Pairwise (· ≠ ·) :=
    (List.perm_insertionSort _ x.indexes).nodup_iff.mpr x.distinct
  exact (hle.and hne).imp fun h => lt_of_le_of_ne h.1 h.2

lemma whole_sorted {r : List Int} : Whole x.sorted r ↔ Whole x.indexes r := by
  simp only [Whole, x.mem_sorted]

lemma elemOids_oids (os : List (List Int)) : elemOids (os.map .oid) = some os := by
  induction os with
  | nil => rfl
  | cons o os ih =>
    simp only [elemOids, List.map_cons, List.mapM_cons] at ih ⊢
    rw [ih]
    rfl

lemma sortElems_oids (name : String) (os : List (List Int)) :
    sortElems name (os.map .oid) = .ok ((os.insertionSort (· ≤ ·)).map .oid) := by
  cases os with
  | nil => rfl
  | cons o os =>
    have hnums : elemNums ((o :: os).map .oid) = none := rfl
    rw [sortElems, hnums, elemOids_oids]

/-- Its index table. -/
lemma tableIndexes_eq (name : String) :
    ∃ it, tableIndexes name x.objNo (some (x.entryNo, x.entry)) = .ok it ∧
      it.all = longDims x.objNo x.entryNo (sortNums x.entry.columns.keys) x.sorted := by
  have helems : (x.keys.map IndexKey.str).map IndexKey.elem = x.indexes.map .oid := by
    rw [indexes, List.map_map, List.map_map]
    rfl
  refine ⟨⟨[x.objNo], [.num x.entryNo] :: (sortNums x.entry.columns.keys).map .num ::
    [x.sorted.map .oid]⟩, ?_, rfl⟩
  rw [tableIndexes, x.indexes_eq, indexDims, helems, sortElems_oids]
  rfl

lemma instances_sorted : x.instances =
    longInstances x.objNo x.entryNo (sortNums x.entry.columns.keys) x.sorted := by
  ext oid
  simp only [instances, longInstances, Set.mem_ofPred_eq, mem_sortNums, x.mem_sorted]

/-- The search in the table returns the least instance above the request, exactly if the request does
not end inside an index of a column. -/
theorem findsNext_iff (name : String) (req : List Int) :
    ∃ it, tableIndexes name x.objNo (some (x.entryNo, x.entry)) = .ok it ∧
      (FindsNext x.instances it.all req ↔
        ∀ c ∈ x.entry.columns.keys, ∀ r, req = x.objNo :: x.entryNo :: c :: r →
          Whole x.indexes r) := by
  obtain ⟨it, hit, hall⟩ := x.tableIndexes_eq name
  have hcols := sortNums_pairwise x.entry.columns.keys_nodup
  refine ⟨it, hit, ?_⟩
  rw [hall]
  constructor
  · rintro h c hc r rfl
    rw [← x.whole_sorted]
    by_contra hr
    exact not_findsNext x.objNo x.entryNo hcols (mem_sortNums.mpr hc) x.sorted_pairwise hr _ h
  · intro h
    rw [x.instances_sorted]
    apply findsNext_of_returns
    · apply getnext_longDims x.objNo x.entryNo hcols
      intro c hc r hr
      exact x.whole_sorted.mpr (h c (mem_sortNums.mp hc) r hr)
    · exact longNext_least x.objNo x.entryNo hcols x.sorted_pairwise req

end LongTable

/-- A table with the index `7.1`. -/
def longTable : LongTable Unit where
  objNo := 1
  entryNo := 1
  entry := longEntry
  keys := [['7', '.', '1']]
  indexes_eq := rfl
  distinct := by decide

/-- The search for what is behind `1.1.1.7` ends with an error. -/
theorem findsNext_insideIndex : ¬ ∀ it,
    tableIndexes "long" longTable.objNo (some (longTable.entryNo, longTable.entry)) = .ok it →
      FindsNext longTable.instances it.all [1, 1, 1, 7] := by
  intro h
  obtain ⟨rsp, left, hres, -⟩ := h ⟨[1], [nums [1], nums [1], [.oid [7, 1]]]⟩ rfl
  cases hres

end Lua

end SmartSnmp
