import Mathlib.Data.List.Forall2
import Mathlib.Order.Bounds.Basic
import SmartSnmp.Lib.PrefixOrder

/-!
# Products of ascending lists

The lists that take their elements from given lists, one from each, in the lexicographic order. For
ascending lists, `first` is the least of them and `next` the least above a list of any length.
-/

namespace Product

variable {α : Type*} [LinearOrder α]

/-- The lists with one element from each of the given ones. -/
def members (D : List (List α)) : Set (List α) := {x | List.Forall₂ (· ∈ ·) x D}

omit [LinearOrder α] in
@[simp] lemma mem_members_nil {x : List α} : x ∈ members [] ↔ x = [] := by
  simp [members]

omit [LinearOrder α] in
lemma mem_members_cons {d : List α} {D : List (List α)} {x : List α} :
    x ∈ members (d :: D) ↔ ∃ y ∈ d, ∃ ys ∈ members D, x = y :: ys := by
  constructor
  · intro h
    obtain ⟨y, ys, hy, hys, rfl⟩ := List.forall₂_cons_right_iff.mp h
    exact ⟨y, hy, ys, hys, rfl⟩
  · rintro ⟨y, hy, ys, hys, rfl⟩
    exact .cons hy hys

/-- Each of the lists is ascending. -/
def Ascending (D : List (List α)) : Prop := ∀ d ∈ D, d.Pairwise (· < ·)

/-- The least member, if there is one. -/
def first : List (List α) → Option (List α)
  | [] => some []
  | d :: D => d.head?.bind fun y => (first D).map (y :: ·)

/-- The least member above a list, if there is one. -/
def next : List (List α) → List α → Option (List α)
  | [], _ => none
  | d :: D, [] => first (d :: D)
  | d :: D, x :: xs =>
    (if x ∈ d then (next D xs).map (x :: ·) else none).or
      ((d.find? (x < ·)).bind fun y => (first D).map (y :: ·))

/-- The outcome of a search for the least element of a set. -/
def Least (S : Set (List α)) : Option (List α) → Prop
  | none => S = ∅
  | some w => IsLeast S w

lemma head?_le {d : List α} (hd : d.Pairwise (· < ·)) {y z : α} (hy : d.head? = some y)
    (hz : z ∈ d) : y ≤ z := by
  obtain ⟨t, rfl⟩ := List.head?_eq_some_iff.mp hy
  rcases List.mem_cons.mp hz with rfl | hz
  · exact le_rfl
  · exact ((List.pairwise_cons.mp hd).1 z hz).le

lemma cons_le_cons_of_le {x y : α} {xs ys : List α} (h : x ≤ y) (hs : xs ≤ ys) :
    x :: xs ≤ y :: ys := by
  rcases h.eq_or_lt with rfl | h
  · exact List.cons_le_cons x hs
  · exact (List.cons_lt_cons_iff.mpr (.inl h)).le

/-- The least head in front of the least tail. -/
lemma least_cons {Y : Set α} {T : Set (List α)} {y : Option α} {t : Option (List α)}
    (hy : match y with
      | none => Y = ∅
      | some y => IsLeast Y y) (ht : Least T t) :
    Least {a | ∃ z ∈ Y, ∃ zs ∈ T, a = z :: zs} (y.bind fun y => t.map (y :: ·)) := by
  cases y with
  | none =>
    obtain rfl : Y = ∅ := hy
    simp [Least]
  | some y =>
    cases t with
    | none =>
      obtain rfl : T = ∅ := ht
      simp [Least]
    | some t =>
      refine ⟨⟨y, hy.1, t, ht.1, rfl⟩, ?_⟩
      rintro _ ⟨z, hz, zs, hzs, rfl⟩
      exact cons_le_cons_of_le (hy.2 hz) (ht.2 hzs)

lemma head?_least {d : List α} (hd : d.Pairwise (· < ·)) :
    match d.head? with
    | none => {z | z ∈ d} = ∅
    | some y => IsLeast {z | z ∈ d} y := by
  cases d with
  | nil => simp
  | cons y d => exact ⟨List.mem_cons_self, fun z hz => head?_le hd rfl hz⟩

lemma find?_least {d : List α} (hd : d.Pairwise (· < ·)) (x : α) :
    match d.find? (x < ·) with
    | none => {z | z ∈ d ∧ x < z} = ∅
    | some y => IsLeast {z | z ∈ d ∧ x < z} y := by
  induction d with
  | nil => simp
  | cons y d ih =>
    obtain ⟨hy, hd⟩ := List.pairwise_cons.mp hd
    by_cases hxy : x < y
    · rw [List.find?_cons_of_pos (by simpa using hxy)]
      refine ⟨⟨List.mem_cons_self, hxy⟩, ?_⟩
      rintro z ⟨hz, -⟩
      rcases List.mem_cons.mp hz with rfl | hz
      · exact le_rfl
      · exact (hy z hz).le
    · have hset : {z | z ∈ y :: d ∧ x < z} = {z | z ∈ d ∧ x < z} := by
        ext z
        simp only [Set.mem_ofPred_eq, List.mem_cons]
        constructor
        · rintro ⟨rfl | hz, hxz⟩
          · exact absurd hxz hxy
          · exact ⟨hz, hxz⟩
        · rintro ⟨hz, hxz⟩
          exact ⟨.inr hz, hxz⟩
      rw [List.find?_cons_of_neg (by simpa using hxy), hset]
      exact ih hd

/-- In an ascending list the first element above one is the one after it. -/
lemma find?_eq_getElem? {d : List α} (hd : d.Pairwise (· < ·)) {i : Nat} {x : α}
    (hx : d[i]? = some x) : d.find? (x < ·) = d[i + 1]? := by
  induction d generalizing i with
  | nil => simp at hx
  | cons y d ih =>
    obtain ⟨hy, hd⟩ := List.pairwise_cons.mp hd
    cases i with
    | zero =>
      obtain rfl : y = x := by simpa using hx
      rw [List.find?_cons_of_neg (by simp)]
      cases d with
      | nil => rfl
      | cons z d => simp [hy z List.mem_cons_self]
    | succ i =>
      have hyx : y < x := hy x (List.mem_of_getElem? (by simpa using hx))
      rw [List.find?_cons_of_neg (by simpa using hyx.le)]
      simpa using ih hd (by simpa using hx)

/-- The elements of a list in front of those of a set. -/
def consSet (d : List α) (T : Set (List α)) : Set (List α) :=
  {a | ∃ z ∈ {z | z ∈ d}, ∃ zs ∈ T, a = z :: zs}

omit [LinearOrder α] in
lemma members_cons (d : List α) (D : List (List α)) :
    members (d :: D) = consSet d (members D) := by
  ext a
  exact mem_members_cons

lemma consSet_least {d : List α} (hd : d.Pairwise (· < ·)) {T : Set (List α)}
    {firstT : Option (List α)} (hfirst : Least T firstT) :
    Least (consSet d T) (d.head?.bind fun y => firstT.map (y :: ·)) :=
  least_cons (head?_least hd) hfirst

/-- `first` is the least member. -/
lemma first_least {D : List (List α)} (hD : Ascending D) : Least (members D) (first D) := by
  induction D with
  | nil =>
    refine ⟨by simp, ?_⟩
    intro x hx
    rw [mem_members_nil.mp hx]
  | cons d D ih =>
    rw [members_cons, first]
    exact consSet_least (hD d List.mem_cons_self) (ih fun e he => hD e (List.mem_cons_of_mem d he))

/-- The least of two sets, of which the first is below the second. -/
lemma least_or {S T : Set (List α)} {s t : Option (List α)} (hs : Least S s) (ht : Least T t)
    (hbelow : ∀ a ∈ S, ∀ b ∈ T, a ≤ b) : Least (S ∪ T) (s.or t) := by
  cases s with
  | none =>
    obtain rfl : S = ∅ := hs
    simpa using ht
  | some a =>
    refine ⟨.inl hs.1, ?_⟩
    rintro b (hb | hb)
    · exact hs.2 hb
    · exact hbelow a hs.1 b hb

/-- The least list of `consSet` above a list, from the least of the set and the least of the set above a
list. -/
def consNext (d : List α) (firstT : Option (List α)) (nextT : List α → Option (List α)) :
    List α → Option (List α)
  | [] => d.head?.bind fun y => firstT.map (y :: ·)
  | x :: xs =>
    (if x ∈ d then (nextT xs).map (x :: ·) else none).or
      ((d.find? (x < ·)).bind fun y => firstT.map (y :: ·))

lemma consNext_least {d : List α} (hd : d.Pairwise (· < ·)) {T : Set (List α)}
    {firstT : Option (List α)} {nextT : List α → Option (List α)} (hfirst : Least T firstT)
    (hnext : ∀ r, Least {a | a ∈ T ∧ r < a} (nextT r)) (r : List α) :
    Least {a | a ∈ consSet d T ∧ r < a} (consNext d firstT nextT r) := by
  cases r with
  | nil =>
    have hset : {a | a ∈ consSet d T ∧ [] < a} = consSet d T := by
      ext a
      simp only [Set.mem_ofPred_eq, and_iff_left_iff_imp]
      rintro ⟨y, _, ys, _, rfl⟩
      exact List.nil_lt_cons y ys
    rw [hset]
    exact consSet_least hd hfirst
  | cons x xs =>
    -- the lists that go on with `x`, and those that branch off above it
    have hset : {a | a ∈ consSet d T ∧ x :: xs < a} =
        {a | ∃ z ∈ {z | z ∈ d ∧ z = x}, ∃ zs ∈ {zs | zs ∈ T ∧ xs < zs}, a = z :: zs} ∪
        {a | ∃ z ∈ {z | z ∈ d ∧ x < z}, ∃ zs ∈ T, a = z :: zs} := by
      ext a
      simp only [consSet, Set.mem_ofPred_eq, Set.mem_union]
      constructor
      · rintro ⟨⟨z, hz, zs, hzs, rfl⟩, hlt⟩
        rcases List.cons_lt_cons_iff.mp hlt with hxz | ⟨rfl, htail⟩
        · exact .inr ⟨z, ⟨hz, hxz⟩, zs, hzs, rfl⟩
        · exact .inl ⟨x, ⟨hz, rfl⟩, zs, ⟨hzs, htail⟩, rfl⟩
      · rintro (⟨z, ⟨hz, rfl⟩, zs, ⟨hzs, hlt⟩, rfl⟩ | ⟨z, ⟨hz, hxz⟩, zs, hzs, rfl⟩)
        · exact ⟨⟨z, hz, zs, hzs, rfl⟩, List.cons_lt_cons_iff.mpr (.inr ⟨rfl, hlt⟩)⟩
        · exact ⟨⟨z, hz, zs, hzs, rfl⟩, List.cons_lt_cons_iff.mpr (.inl hxz)⟩
    have hgo : Least {a | ∃ z ∈ {z | z ∈ d ∧ z = x}, ∃ zs ∈ {zs | zs ∈ T ∧ xs < zs},
        a = z :: zs} (if x ∈ d then (nextT xs).map (x :: ·) else none) := by
      by_cases hx : x ∈ d
      · rw [if_pos hx]
        exact least_cons (y := some x) ⟨⟨hx, rfl⟩, fun z hz => hz.2.ge⟩ (hnext xs)
      · rw [if_neg hx]
        ext a
        simp only [Set.mem_ofPred_eq, Set.mem_empty_iff_false, iff_false]
        rintro ⟨z, ⟨hz, rfl⟩, -⟩
        exact hx hz
    rw [hset, consNext]
    refine least_or hgo (least_cons (find?_least hd x) hfirst) ?_
    rintro _ ⟨z, ⟨-, rfl⟩, zs, -, rfl⟩ _ ⟨y, ⟨-, hzy⟩, ys, -, rfl⟩
    exact (List.cons_lt_cons_iff.mpr (.inl hzy)).le

/-- `next` is the least member above a list. -/
theorem next_least {D : List (List α)} (hD : Ascending D) (r : List α) :
    Least {a | a ∈ members D ∧ r < a} (next D r) := by
  induction D generalizing r with
  | nil =>
    ext a
    simp only [Set.mem_ofPred_eq, Set.mem_empty_iff_false, iff_false]
    rintro ⟨ha, hr⟩
    rw [mem_members_nil.mp ha] at hr
    exact List.not_lt_nil r hr
  | cons d D ih =>
    have hD' : Ascending D := fun e he => hD e (List.mem_cons_of_mem d he)
    have hcons : next (d :: D) r = consNext d (first D) (next D) r := by
      cases r with
      | nil => rfl
      | cons x xs => rfl
    rw [hcons, members_cons]
    exact consNext_least (hD d List.mem_cons_self) (first_least hD') (ih hD') r

/-! ### Paths -/

/-- The lists a search has gone through, the last on top, each with the element taken from it. -/
abbrev Path (α : Type*) := List (List α × α)

namespace Path

/-- The lists, the first in front. -/
def lists (p : Path α) : List (List α) := (p.map Prod.fst).reverse

/-- The elements, the first in front. -/
def elems (p : Path α) : List α := (p.map Prod.snd).reverse

omit [LinearOrder α] in
@[simp] lemma lists_cons (d : List α) (x : α) (p : Path α) :
    lists ((d, x) :: p) = lists p ++ [d] := by simp [lists]

omit [LinearOrder α] in
@[simp] lemma elems_cons (d : List α) (x : α) (p : Path α) :
    elems ((d, x) :: p) = elems p ++ [x] := by simp [elems]

omit [LinearOrder α] in
@[simp] lemma length_lists (p : Path α) : p.lists.length = p.length := by simp [lists]

omit [LinearOrder α] in
@[simp] lemma length_elems (p : Path α) : p.elems.length = p.length := by simp [elems]

omit [LinearOrder α] in
@[simp] lemma take_elems_append (p : Path α) (xs : List α) :
    (p.elems ++ xs).take p.length = p.elems := List.take_left' p.length_elems

omit [LinearOrder α] in
@[simp] lemma drop_elems_append (p : Path α) (xs : List α) :
    (p.elems ++ xs).drop p.length = xs := List.drop_left' p.length_elems

/-- The least member that leaves the path for a greater element, in the last list where there is
one. -/
def branch : Path α → List (List α) → Option (List α)
  | [], _ => none
  | (d, x) :: p, D =>
    (((d.find? (x < ·)).bind fun y => (first D).map (y :: ·)).map (elems p ++ ·)).or
      (branch p (d :: D))

/-- The least member above a list that goes on from the path with `xs`. -/
def nextFrom (p : Path α) (D : List (List α)) (xs : List α) : Option (List α) :=
  ((next D xs).map (elems p ++ ·)).or (branch p D)

/-- Without a member of the rest there is none that leaves the path. -/
lemma branch_eq_none (p : Path α) {D : List (List α)} (h : first D = none) : branch p D = none := by
  induction p generalizing D with
  | nil => rfl
  | cons f p ih =>
    obtain ⟨d, x⟩ := f
    have hd : first (d :: D) = none := by simp [first, h]
    simp [branch, h, ih hd]

/-- Once an element is taken from a list, only the first member of the rest is left. -/
lemma first_or_branch (p : Path α) (d : List α) (D : List (List α)) (y : α) :
    (((first D).map (y :: ·)).map (elems p ++ ·)).or (branch p (d :: D)) =
      (first D).map (elems ((d, y) :: p) ++ ·) := by
  cases h : first D with
  | none =>
    have hd : first (d :: D) = none := by simp [first, h]
    simp [branch_eq_none p hd]
  | some w => simp

lemma nextFrom_nil (D : List (List α)) (xs : List α) : nextFrom [] D xs = next D xs := by
  simp [nextFrom, branch, elems]

/-- The path goes on with an element of the next list. -/
lemma nextFrom_cons_of_mem (p : Path α) {d : List α} (D : List (List α)) {x : α} (hx : x ∈ d)
    (xs : List α) : nextFrom p (d :: D) (x :: xs) = nextFrom ((d, x) :: p) D xs := by
  simp only [nextFrom, next, if_pos hx, branch, elems_cons]
  cases next D xs <;> cases List.find? (x < ·) d <;> simp

/-- The path stops at the last list, or at an element that the next list does not have. -/
lemma nextFrom_cons_of_notMem (p : Path α) {d : List α} {D : List (List α)} {x : α}
    (hx : D = [] ∨ x ∉ d) (xs : List α) : nextFrom p (d :: D) (x :: xs) =
      (((d.find? (x < ·)).bind fun y => (first D).map (y :: ·)).map (elems p ++ ·)).or
        (branch p (d :: D)) := by
  rcases hx with rfl | hx
  · simp [nextFrom, next]
  · simp [nextFrom, next, hx]

/-- The least member above the end of the path. -/
lemma nextFrom_nil_right (p : Path α) {D : List (List α)} (hD : D ≠ []) :
    nextFrom p D [] = (first D).map (elems p ++ ·) := by
  obtain ⟨d, D, rfl⟩ := List.exists_cons_of_ne_nil hD
  rw [nextFrom, next]
  cases h : first (d :: D) with
  | none => simp [branch_eq_none p h]
  | some w => simp

end Path

end Product
