import SmartSnmp.Lib.Product
import SmartSnmp.Lua.Group

/-!
# The search in an index table

`getnext` and `group_index_table_getnext` of `lualib/smartsnmp/init.lua`. The search goes through
the dimensions of the table from the first to the last, along the request, and edits the request in
place. For dimensions of ascending numbers it is `Product.next`.
-/

namespace SmartSnmp

namespace Lua

/-! ### Elements -/

namespace IndexElem

/-- The components of an element. -/
def ids : IndexElem → List Int
  | .num id => [id]
  | .oid ids => ids

end IndexElem

/-- The loop of `compare` over a sequence. It ends with an error where the OID has no component. -/
def compareIds : List Int → List Int → Except LuaError Int
  | oid, [] => .ok oid.length
  | [], _ :: _ => .error .runtime
  | x :: oid, e :: es => if x - e = 0 then compareIds oid es else .ok (x - e)

/-- `compare`, for the components of the OID from the offset on. If a sequence matches, the result
is the number of components that are left. -/
def compare : List Int → IndexElem → Except LuaError Int
  | [], .num _ => .error .runtime
  | x :: _, .num e => .ok (x - e)
  | oid, .oid es => compareIds oid es

/-- `concat`. -/
def concat (oid : List Int) (offset : Nat) (e : IndexElem) : List Int := oid.take offset ++ e.ids

/-! ### The search -/

/-- What the scan of a dimension finds: an element that matches, or one above the request. -/
inductive Hit where
  | same (pos : Nat) (e : IndexElem)
  | above (pos : Nat) (e : IndexElem)

/-- The scan of a dimension from the position `i` on. In the last one a match is not enough. -/
def scan (oid : List Int) (last : Bool) : Nat → Dim → Except LuaError (Option Hit)
  | _, [] => .ok none
  | i, e :: es => do
    let cmp ← compare oid e
    if cmp = 0 ∧ last = false then .ok (some (.same i e))
    else if cmp < 0 then .ok (some (.above i e))
    else scan oid last (i + 1) es

/-- `record[dim]`. -/
structure Pos where
  offset : Nat
  pos : Nat
  deriving DecidableEq

/-- Back to the last dimension that has a next element: its offset, the element, and the record of
the dimensions before it. -/
def backtrack (it : List Dim) : List Pos → Option (Nat × IndexElem × List Pos)
  | [] => none
  | r :: record =>
    match (it[record.length]?).bind (·[r.pos + 1]?) with
    | some e => some (r.offset, e, record)
    | none => backtrack it record

/-- `getnext`: the OID returned, which is empty if there is none, and what the request is then. The
record is that of the dimensions before the current one, the last on top, so its length tells the
dimension; the search sets the others before it reads them. -/
def getnext (it : List Dim) :
    Nat → List Int → Nat → List Pos → Except LuaError (List Int × List Int)
  | 0, _, _, _ => .error .outOfFuel
  | fuel + 1, oid, offset, record =>
    let last := record.length + 1 = it.length
    match it[record.length]? with
    | none => .error .runtime
    | some [] => .ok ([], oid)
    | some (e :: es) =>
      if oid.length ≤ offset then
        let oid := concat oid oid.length e
        if last then .ok (oid, oid)
        else getnext it fuel oid (offset + e.ids.length) (⟨offset, 0⟩ :: record)
      else do
        match ← scan (oid.drop offset) last 0 (e :: es) with
        | some (.same i e) =>
          getnext it fuel oid (offset + e.ids.length) (⟨offset, i⟩ :: record)
        | some (.above i e) =>
          let oid := concat oid offset e
          if last then .ok (oid, oid)
          else getnext it fuel oid (offset + e.ids.length) (⟨offset, i⟩ :: record)
        | none =>
          match backtrack it record with
          | none => .ok ([], oid)
          | some (offset, e, record) => getnext it fuel (concat oid offset e) offset record

/-- `group_index_table_getnext`. A search goes down the dimensions, back once, and down again. -/
def groupIndexTableGetnext (oid : List Int) (it : List Dim) :
    Except LuaError (List Int × List Int) :=
  getnext it (2 * it.length + 1) oid 0 []

section Step

variable {it : List Dim} {record : List Pos}

lemma getnext_step_nil (hdim : it[record.length]? = some []) (fuel : Nat) (oid : List Int)
    (offset : Nat) : getnext it (fuel + 1) oid offset record = .ok ([], oid) := by
  rw [getnext, hdim]

/-- The request ends at the dimension: its first element is taken. -/
lemma getnext_step_end {e : IndexElem} {es : Dim} (hdim : it[record.length]? = some (e :: es))
    (fuel : Nat) (a : List Int) :
    getnext it (fuel + 1) a a.length record =
      if record.length + 1 = it.length then .ok (a ++ e.ids, a ++ e.ids)
      else getnext it fuel (a ++ e.ids) (a.length + e.ids.length) (⟨a.length, 0⟩ :: record) := by
  rw [getnext, hdim]
  simp only [le_refl, if_true, concat, List.take_length]

/-- The request goes on: the scan decides. -/
lemma getnext_step_scan {d : Dim} (hdim : it[record.length]? = some d) (hd : d ≠ []) (fuel : Nat)
    (a : List Int) (x : Int) (xs : List Int) :
    getnext it (fuel + 1) (a ++ x :: xs) a.length record =
      match scan (x :: xs) (decide (record.length + 1 = it.length)) 0 d with
      | .error err => .error err
      | .ok (some (.same i e)) =>
        getnext it fuel (a ++ x :: xs) (a.length + e.ids.length) (⟨a.length, i⟩ :: record)
      | .ok (some (.above i e)) =>
        if record.length + 1 = it.length then .ok (a ++ e.ids, a ++ e.ids)
        else getnext it fuel (a ++ e.ids) (a.length + e.ids.length) (⟨a.length, i⟩ :: record)
      | .ok none =>
        match backtrack it record with
        | none => .ok ([], a ++ x :: xs)
        | some (offset, e, record) =>
          getnext it fuel (concat (a ++ x :: xs) offset e) offset record := by
  obtain ⟨e, es, rfl⟩ := List.exists_cons_of_ne_nil hd
  have hlen : ¬ (a ++ x :: xs).length ≤ a.length := by simp
  rw [getnext, hdim]
  simp only [if_neg hlen, concat, List.take_left, List.drop_left]
  cases scan (x :: xs) (decide (record.length + 1 = it.length)) 0 (e :: es) with
  | error err => rfl
  | ok hit => rcases hit with _ | ⟨i, e⟩ | ⟨i, e⟩ <;> rfl

end Step

/-! ### Dimensions of numbers -/

/-- A dimension of numbers. -/
def nums (d : List Int) : Dim := d.map .num

section Scan

variable {d : List Int} (hd : d.Pairwise (· < ·)) (x : Int) (xs : List Int)

lemma scan_cons_of_lt {e : Int} (h : e < x) (last : Bool) (i : Nat) :
    scan (x :: xs) last i (nums (e :: d)) = scan (x :: xs) last (i + 1) (nums d) := by
  have h0 : ¬ (x - e = 0 ∧ last = false) := fun h' => by omega
  have h1 : ¬ x - e < 0 := by omega
  show (if x - e = 0 ∧ last = false then _ else if x - e < 0 then _ else _) = _
  rw [if_neg h0, if_neg h1]
  rfl

lemma scan_cons_self (i : Nat) :
    scan (x :: xs) false i (nums (x :: d)) = .ok (some (.same i (.num x))) := by
  show (if x - x = 0 ∧ false = false then _ else _) = _
  rw [if_pos ⟨by omega, rfl⟩]

lemma scan_cons_self_last (i : Nat) :
    scan (x :: xs) true i (nums (x :: d)) = scan (x :: xs) true (i + 1) (nums d) := by
  show (if x - x = 0 ∧ true = false then _ else if x - x < 0 then _ else _) = _
  rw [if_neg (by simp), if_neg (by omega)]
  rfl

lemma scan_cons_of_gt {e : Int} (h : x < e) (last : Bool) (i : Nat) :
    scan (x :: xs) last i (nums (e :: d)) = .ok (some (.above i (.num e))) := by
  show (if x - e = 0 ∧ last = false then _ else if x - e < 0 then _ else _) = _
  rw [if_neg (by omega), if_pos (by omega)]

include hd

/-- An element that matches is found, except in the last dimension. -/
lemma scan_same (hx : x ∈ d) (i : Nat) :
    ∃ j, d[j]? = some x ∧ scan (x :: xs) false i (nums d) = .ok (some (.same (i + j) (.num x))) := by
  induction d generalizing i with
  | nil => simp at hx
  | cons e d ih =>
    obtain ⟨he, hd⟩ := List.pairwise_cons.mp hd
    rcases List.mem_cons.mp hx with rfl | hx
    · exact ⟨0, rfl, scan_cons_self x xs i⟩
    · obtain ⟨j, hj, hscan⟩ := ih hd hx (i + 1)
      refine ⟨j + 1, by simpa using hj, ?_⟩
      rw [scan_cons_of_lt x xs (he x hx), hscan, Nat.add_right_comm, Nat.add_assoc]

/-- Without a match the scan finds the first element above the request. -/
lemma scan_find? (last : Bool) (hx : last = true ∨ x ∉ d) (i : Nat) :
    match d.find? (x < ·) with
    | some y => ∃ j, d[j]? = some y ∧
        scan (x :: xs) last i (nums d) = .ok (some (.above (i + j) (.num y)))
    | none => scan (x :: xs) last i (nums d) = .ok none := by
  induction d generalizing i with
  | nil => rfl
  | cons e d ih =>
    obtain ⟨he, hd'⟩ := List.pairwise_cons.mp hd
    rcases lt_trichotomy x e with hlt | rfl | hgt
    · rw [List.find?_cons_of_pos (by simpa using hlt)]
      exact ⟨0, rfl, scan_cons_of_gt x xs hlt last i⟩
    · -- the match is passed over
      obtain rfl : last = true := hx.resolve_right (by simp)
      rw [List.find?_cons_of_neg (by simp), scan_cons_self_last]
      have h := ih hd' (.inl rfl) (i + 1)
      split at h
      · obtain ⟨j, hj, hscan⟩ := h
        exact ⟨j + 1, by simpa using hj, by rw [hscan, Nat.add_right_comm, Nat.add_assoc]⟩
      · exact h
    · rw [List.find?_cons_of_neg (by simpa using hgt.le), scan_cons_of_lt x xs hgt]
      have h := ih hd' (hx.imp_right fun h hxd => h (List.mem_cons_of_mem e hxd)) (i + 1)
      split at h
      · obtain ⟨j, hj, hscan⟩ := h
        exact ⟨j + 1, by simpa using hj, by rw [hscan, Nat.add_right_comm, Nat.add_assoc]⟩
      · exact h

end Scan

/-! ### The search is the next member -/

section Spec

open Product

/-- The record of a path. -/
inductive Recorded : Path Int → List Pos → Prop
  | nil : Recorded [] []
  | cons {p : Path Int} {record : List Pos} {d : List Int} {x : Int} {pos : Nat} :
      Recorded p record → d[pos]? = some x → Recorded ((d, x) :: p) (⟨p.length, pos⟩ :: record)

lemma Recorded.length_eq {p : Path Int} {record : List Pos} (h : Recorded p record) :
    record.length = p.length := by
  induction h with
  | nil => rfl
  | cons _ _ ih => simp [ih]

lemma Recorded.mem {p : Path Int} {record : List Pos} (h : Recorded p record) :
    ∀ f ∈ p, f.2 ∈ f.1 := by
  induction h with
  | nil => simp
  | cons _ hx ih =>
    intro f hf
    rcases List.mem_cons.mp hf with rfl | hf
    · exact List.mem_of_getElem? hx
    · exact ih f hf

/-- What a search may leave of a request `r` in a table: the request, or an OID that starts with an
element of the first dimension, and not below the request. -/
def Later (D : List (List Int)) (r c : List Int) : Prop :=
  c = r ∨ ∃ h ∈ D.headD [], c.head? = some h ∧ ∀ x ∈ r.head?, x ≤ h

lemma Later.trans {D : List (List Int)} {r a b : List Int} (hra : Later D r a)
    (hab : Later D a b) : Later D r b := by
  rcases hab with rfl | ⟨h, hD, hb, ha⟩
  · exact hra
  · rcases hra with rfl | ⟨h', -, ha', hr⟩
    · exact .inr ⟨h, hD, hb, ha⟩
    · exact .inr ⟨h, hD, hb, fun x hx => (hr x hx).trans (ha h' ha')⟩

/-- An element is put where the request has none, or a lower one. -/
lemma later_concat {p : Path Int} (hp : ∀ f ∈ p, f.2 ∈ f.1) {d : List Int} {y : Int} (hy : y ∈ d)
    (D : List (List Int)) (xs ys : List Int) (hxs : ∀ x ∈ xs.head?, x ≤ y) :
    Later (p.lists ++ d :: D) (p.elems ++ xs) (p.elems ++ y :: ys) := by
  rcases p.eq_nil_or_concat with rfl | ⟨p, ⟨d₀, x₀⟩, rfl⟩
  · exact .inr ⟨y, by simpa [Path.lists] using hy, by simp [Path.elems],
      by simpa [Path.elems] using hxs⟩
  · have hx₀ : x₀ ∈ d₀ := hp (d₀, x₀) (by simp)
    exact .inr ⟨x₀, by simpa [Path.lists] using hx₀, by simp [Path.elems], by simp [Path.elems]⟩

/-- How a search for the next member ends. -/
def Ends (D : List (List Int)) (r : List Int) (res : Except LuaError (List Int × List Int)) :
    Option (List Int) → Prop
  | some w => res = .ok (w, w)
  | none => ∃ c, res = .ok ([], c) ∧ Later D r c

lemma Ends.trans {D : List (List Int)} {r a : List Int} (hra : Later D r a)
    {res : Except LuaError (List Int × List Int)} {w : Option (List Int)} (h : Ends D a res w) :
    Ends D r res w := by
  cases w with
  | some w => exact h
  | none =>
    obtain ⟨c, hc, hac⟩ := h
    exact ⟨c, hc, hra.trans hac⟩

variable {p : Path Int} {record : List Pos} (hr : Recorded p record)
include hr

lemma getElem?_record (d : List Int) (D : List (List Int)) :
    ((p.lists ++ d :: D).map nums)[record.length]? = some (nums d) := by
  rw [List.map_append, List.getElem?_append_right (by simp [hr.length_eq])]
  simp [hr.length_eq]

lemma isLast_iff (d : List Int) (D : List (List Int)) :
    record.length + 1 = ((p.lists ++ d :: D).map nums).length ↔ D = [] := by
  rw [← List.length_eq_zero_iff]
  simp [hr.length_eq]

lemma getnext_nil (D : List (List Int)) (fuel : Nat) (oid : List Int) (offset : Nat) :
    getnext ((p.lists ++ [] :: D).map nums) (fuel + 1) oid offset record = .ok ([], oid) :=
  getnext_step_nil (getElem?_record hr [] D) fuel oid offset

/-- The request ends at the dimension. -/
lemma getnext_end (e : Int) (d : List Int) (D : List (List Int)) (fuel : Nat) :
    getnext ((p.lists ++ (e :: d) :: D).map nums) (fuel + 1) p.elems p.length record =
      if D = [] then .ok (p.elems ++ [e], p.elems ++ [e])
      else getnext ((p.lists ++ (e :: d) :: D).map nums) fuel (p.elems ++ [e]) (p.length + 1)
        (⟨p.length, 0⟩ :: record) := by
  have h := getnext_step_end (getElem?_record hr (e :: d) D) fuel p.elems
  simpa only [isLast_iff hr, Path.length_elems, IndexElem.ids, List.length_singleton] using h

/-- The request goes on. -/
lemma getnext_scan {d : List Int} (hd : d ≠ []) (D : List (List Int)) (fuel : Nat) (x : Int)
    (xs : List Int) :
    getnext ((p.lists ++ d :: D).map nums) (fuel + 1) (p.elems ++ x :: xs) p.length record =
      match scan (x :: xs) (decide (D = [])) 0 (nums d) with
      | .error err => .error err
      | .ok (some (.same i e)) =>
        getnext ((p.lists ++ d :: D).map nums) fuel (p.elems ++ x :: xs) (p.length + e.ids.length)
          (⟨p.length, i⟩ :: record)
      | .ok (some (.above i e)) =>
        if D = [] then .ok (p.elems ++ e.ids, p.elems ++ e.ids)
        else getnext ((p.lists ++ d :: D).map nums) fuel (p.elems ++ e.ids)
          (p.length + e.ids.length) (⟨p.length, i⟩ :: record)
      | .ok none =>
        match backtrack ((p.lists ++ d :: D).map nums) record with
        | none => .ok ([], p.elems ++ x :: xs)
        | some (offset, e, record) =>
          getnext ((p.lists ++ d :: D).map nums) fuel (concat (p.elems ++ x :: xs) offset e) offset
            record := by
  have hne : nums d ≠ [] := by simpa [nums] using hd
  have h := getnext_step_scan (getElem?_record hr d D) hne fuel p.elems x xs
  simpa only [isLast_iff hr, Path.length_elems] using h

omit hr in
/-- From the end of the request on, the search takes the first member. -/
lemma getnext_first (hr : Recorded p record) {D : List (List Int)} (hD : D ≠ []) {fuel : Nat}
    (hfuel : D.length ≤ fuel) :
    Ends (p.lists ++ D) p.elems (getnext ((p.lists ++ D).map nums) fuel p.elems p.length record)
      ((first D).map (p.elems ++ ·)) := by
  induction D generalizing p record fuel with
  | nil => exact absurd rfl hD
  | cons d D ih =>
    obtain ⟨fuel, rfl⟩ : ∃ n, fuel = n + 1 := ⟨fuel - 1, by simp at hfuel; omega⟩
    cases d with
    | nil => exact ⟨p.elems, getnext_nil hr D fuel p.elems p.length, .inl rfl⟩
    | cons e d =>
      rw [getnext_end hr]
      by_cases hnil : D = []
      · subst hnil
        simp [first, Ends]
      · rw [if_neg hnil]
        -- the path goes on with the first element
        have hr' : Recorded ((e :: d, e) :: p) (⟨p.length, 0⟩ :: record) := .cons hr rfl
        have h := ih hr' hnil (by simpa using hfuel)
        simp only [Path.lists_cons, Path.elems_cons, List.append_assoc, List.singleton_append,
          List.length_cons] at h
        have hlater := later_concat hr.mem (List.mem_cons_self (a := e) (l := d)) D [] [] (by simp)
        rw [List.append_nil] at hlater
        have h' := Ends.trans hlater h
        rw [first, List.head?_cons, Option.bind_some, Option.map_map]
        exact h'

omit hr in
/-- The search has taken the element `y` in place of what the request has from there on. -/
lemma taken_first {d : List Int} {y : Int} {r : Pos} (hr : Recorded ((d, y) :: p) (r :: record))
    {D : List (List Int)} (hD : D ≠ []) {fuel : Nat} (hfuel : D.length ≤ fuel) (xs : List Int)
    (hxs : ∀ x ∈ xs.head?, x ≤ y) :
    Ends (p.lists ++ d :: D) (p.elems ++ xs)
      (getnext ((p.lists ++ d :: D).map nums) fuel (p.elems ++ [y]) (p.length + 1) (r :: record))
      ((first D).map (Path.elems ((d, y) :: p) ++ ·)) := by
  have h := getnext_first hr hD hfuel
  have hmem := hr.mem
  have hlater := later_concat (fun f hf => hmem f (List.mem_cons_of_mem _ hf))
    (hmem (d, y) List.mem_cons_self) D xs [] hxs
  simp only [Path.lists_cons, Path.elems_cons, List.append_assoc, List.singleton_append,
    List.length_cons] at h ⊢
  exact Ends.trans hlater h

omit hr in
/-- After the scan has found nothing, the search takes the first member that leaves the path. -/
lemma getnext_branch (hr : Recorded p record) (hp : Ascending p.lists) {D : List (List Int)}
    (hD : D ≠ []) {fuel : Nat} (hfuel : p.length + D.length ≤ fuel) (xs : List Int) :
    Ends (p.lists ++ D) (p.elems ++ xs)
      (match backtrack ((p.lists ++ D).map nums) record with
        | none => .ok ([], p.elems ++ xs)
        | some (offset, e, record) => getnext ((p.lists ++ D).map nums) fuel
            (concat (p.elems ++ xs) offset e) offset record)
      (p.branch D) := by
  induction hr generalizing D fuel xs with
  | nil => exact ⟨_, rfl, .inl rfl⟩
  | @cons p record d x pos hr hx ih =>
    have hd : d.Pairwise (· < ·) := hp d (by simp)
    have hp' : Ascending p.lists := fun e he => hp e (by simp [he])
    have hlists : Path.lists ((d, x) :: p) ++ D = p.lists ++ d :: D := by simp
    have helems : Path.elems ((d, x) :: p) ++ xs = p.elems ++ x :: xs := by simp
    have hnums : (nums d)[pos + 1]? = (d.find? (x < ·)).map .num := by
      rw [find?_eq_getElem? hd hx, nums, List.getElem?_map]
    rw [hlists, helems, backtrack, getElem?_record hr, Option.bind_some, hnums, Path.branch]
    cases hy : d.find? (x < ·) with
    | none =>
      -- the elements of this dimension are used up
      exact ih hp' (by simp) (by simp at hfuel ⊢; omega) (x :: xs)
    | some y =>
      obtain ⟨fuel, rfl⟩ : ∃ n, fuel = n + 1 := ⟨fuel - 1, by simp at hfuel; omega⟩
      have hyd : y ∈ d := List.mem_of_find?_eq_some hy
      have hxy : x < y := by simpa using List.find?_some hy
      have hconcat : concat (p.elems ++ x :: xs) p.length (.num y) = p.elems ++ [y] := by
        simp [concat, IndexElem.ids]
      obtain ⟨j, hj, hscan⟩ := scan_same hd y [] hyd 0
      have hr' : Recorded ((d, y) :: p) (⟨p.length, 0 + j⟩ :: record) :=
        .cons hr (by simpa using hj)
      have hfuel' : D.length ≤ fuel := by simp at hfuel; omega
      simp only [Option.map_some]
      rw [hconcat, getnext_scan hr (List.ne_nil_of_mem hyd), decide_eq_false hD, hscan,
        Option.bind_some, Path.first_or_branch]
      exact taken_first hr' hD hfuel' (x :: xs) (by simpa using hxy.le)

omit hr in
/-- The search from a dimension on is the next member. -/
lemma getnext_nextFrom (hr : Recorded p record) {D : List (List Int)}
    (hasc : Ascending (p.lists ++ D)) (hD : D ≠ []) {fuel : Nat}
    (hfuel : D.length + (p.length + D.length) ≤ fuel) (xs : List Int) :
    Ends (p.lists ++ D) (p.elems ++ xs)
      (getnext ((p.lists ++ D).map nums) fuel (p.elems ++ xs) p.length record)
      (p.nextFrom D xs) := by
  induction D generalizing p record fuel xs with
  | nil => exact absurd rfl hD
  | cons d D ih =>
    obtain ⟨fuel, rfl⟩ : ∃ n, fuel = n + 1 := ⟨fuel - 1, by simp at hfuel; omega⟩
    simp only [List.length_cons] at hfuel
    have hd : d.Pairwise (· < ·) := hasc d (by simp)
    cases xs with
    | nil =>
      rw [Path.nextFrom_nil_right p hD, List.append_nil]
      exact getnext_first hr hD (by simp; omega)
    | cons x xs =>
      by_cases hempty : d = []
      · subst hempty
        rw [Path.nextFrom_cons_of_notMem p (.inr (by simp)), Path.branch_eq_none p rfl]
        exact ⟨_, getnext_nil hr D fuel _ p.length, .inl rfl⟩
      rw [getnext_scan hr hempty]
      by_cases hx : D = [] ∨ x ∉ d
      · have hscan := scan_find? hd x xs (decide (D = []))
          (hx.imp_left fun h => decide_eq_true h) 0
        rw [Path.nextFrom_cons_of_notMem p hx]
        cases hy : d.find? (x < ·) with
        | none =>
          rw [hy] at hscan
          rw [hscan]
          exact getnext_branch hr (fun e he => hasc e (by simp [he])) hD
            (by simp; omega) (x :: xs)
        | some y =>
          rw [hy] at hscan
          obtain ⟨j, hj, hscan⟩ := hscan
          have hxy : x < y := by simpa using List.find?_some hy
          rw [hscan, Option.bind_some, Path.first_or_branch]
          by_cases hnil : D = []
          · subst hnil
            simp [first, Ends, IndexElem.ids]
          · have hr' : Recorded ((d, y) :: p) (⟨p.length, 0 + j⟩ :: record) :=
              .cons hr (by simpa using hj)
            simp only [if_neg hnil]
            exact taken_first hr' hnil (by omega) (x :: xs) (by simpa using hxy.le)
      · -- the request goes on along the dimension
        push Not at hx
        obtain ⟨j, hj, hscan⟩ := scan_same hd x xs hx.2 0
        have hr' : Recorded ((d, x) :: p) (⟨p.length, 0 + j⟩ :: record) :=
          .cons hr (by simpa using hj)
        have hfuel' : D.length + (p.length + 1 + D.length) ≤ fuel := by omega
        have h := ih hr' (by simpa using hasc) hx.1 hfuel' xs
        rw [decide_eq_false hx.1, hscan, Path.nextFrom_cons_of_mem p D hx.2]
        simpa [IndexElem.ids] using h

omit hr in
/-- The search in a table of ascending dimensions is the next member. -/
theorem groupIndexTableGetnext_next {D : List (List Int)} (hasc : Ascending D) (hD : D ≠ [])
    (oid : List Int) :
    Ends D oid (groupIndexTableGetnext oid (D.map nums)) (next D oid) := by
  have hfuel : D.length + (0 + D.length) ≤ 2 * D.length + 1 := by omega
  have h := getnext_nextFrom .nil (by simpa [Path.lists] using hasc) hD hfuel oid
  rw [Path.nextFrom_nil] at h
  simpa [groupIndexTableGetnext, Path.lists, Path.elems] using h

end Spec

end Lua

end SmartSnmp
