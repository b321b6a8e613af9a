import SmartSnmp.Lua.GroupIndex

/-!
# The objects of any group

What the index tables say of the objects, for a group with indexes of any kind: an object number
leads to the table of its object, and GETNEXT finds OIDs with one element from each dimension.
-/

namespace SmartSnmp

namespace Lua

open Product

/-! ### The tables of the objects -/

section Group

variable {σ : Type} {group : Group σ} {name : String}

/-- The index table is a run of scalars, or that of a table. -/
inductive Describes (group : Group σ) (name : String) : IndexTable → Prop
  | scalars {objNos : List Int} : (∀ n ∈ objNos, ∃ v, group.lookup n = some (.scalar v)) →
      Describes group name (.scalars objNos)
  | table {objNo : Int} {entry : Option (Int × Entry σ)} {it : IndexTable} :
      group.lookup objNo = some (.table entry) → tableIndexes name objNo entry = .ok it →
      Describes group name it

lemma tableIndexes_objNos {objNo : Int} {entry : Option (Int × Entry σ)} {it : IndexTable}
    (h : tableIndexes name objNo entry = .ok it) : it.objNos = [objNo] := by
  rcases entry with _ | ⟨entryNo, e⟩
  · cases h
    rfl
  · rw [tableIndexes] at h
    cases hdims : indexDims name (name ++ "[" ++ toString objNo ++ "][" ++ toString entryNo ++ "]")
        e.indexes with
    | error err =>
      rw [hdims] at h
      cases h
    | ok dims =>
      rw [hdims] at h
      cases h
      rfl

/-- The table of a scalar is a run of scalars. -/
lemma Describes.of_scalar {it : IndexTable} (h : Describes group name it) {n : Int} {v : Variable σ}
    (hn : n ∈ it.objNos) (hv : group.lookup n = some (.scalar v)) : it = .scalars it.objNos := by
  cases h with
  | scalars _ => rfl
  | @table objNo entry _ hobj hit =>
    rw [tableIndexes_objNos hit, List.mem_singleton] at hn
    rw [hn, hobj] at hv
    cases hv

/-- The table of a table is the one of its entry. -/
lemma Describes.of_table {it : IndexTable} (h : Describes group name it) {n : Int}
    {entry : Option (Int × Entry σ)} (hn : n ∈ it.objNos)
    (hobj : group.lookup n = some (.table entry)) : tableIndexes name n entry = .ok it := by
  cases h with
  | scalars hscalar =>
    obtain ⟨v, hv⟩ := hscalar n hn
    rw [hobj] at hv
    cases hv
  | @table objNo entry' _ hobj' hit =>
    rw [tableIndexes_objNos hit, List.mem_singleton] at hn
    rw [← hn, hobj] at hobj'
    cases hobj'
    rw [hn]
    exact hit

/-- The index tables say of each object what it is. -/
structure Described (group : Group σ) (name : String) (tab : List IndexTable) : Prop where
  describes : ∀ it ∈ tab, Describes group name it
  perm : (tab.flatMap (·.objNos)).Perm group.keys

/-- What is collected of the objects with these numbers. -/
structure Gathered (group : Group σ) (name : String) (objNos : List Int) (tab : List IndexTable)
    (scalars : List Int) : Prop where
  describes : ∀ it ∈ tab, Describes group name it
  scalar : ∀ n ∈ scalars, ∃ v, group.lookup n = some (.scalar v)
  perm : (tab.flatMap (·.objNos) ++ scalars).Perm objNos

lemma collect_gathered {objNos : List Int} {tab tab' : List IndexTable} {scalars scalars' : List Int}
    (h : Gathered group name objNos tab scalars) {objNo : Int} {obj : Object σ}
    (hobj : group.lookup objNo = some obj)
    (hcollect : collect name (tab, scalars) ⟨objNo, obj⟩ = .ok (tab', scalars')) :
    Gathered group name (objNo :: objNos) tab' scalars' := by
  cases obj with
  | scalar v =>
    cases hcollect
    refine ⟨h.describes, scalar_of_mem_concat h.scalar hobj, ?_⟩
    rw [← List.append_assoc]
    exact (List.perm_append_singleton _ _).trans (h.perm.cons objNo)
  | table entry =>
    cases hit : tableIndexes name objNo entry with
    | error err =>
      simp only [collect, hit] at hcollect
      cases hcollect
    | ok it =>
      simp only [collect, hit] at hcollect
      cases hcollect
      refine ⟨?_, h.scalar, ?_⟩
      · intro w hw
        rcases List.mem_cons.mp ((insertTable_perm it tab).mem_iff.mp hw) with rfl | hw
        · exact .table hobj hit
        · exact h.describes w hw
      · have hperm := ((insertTable_perm it tab).flatMap_right (·.objNos)).append_right scalars
        rw [List.flatMap_cons, tableIndexes_objNos hit, List.append_assoc] at hperm
        exact hperm.trans (h.perm.cons objNo)

lemma foldlM_gathered (objs : List ((_ : Int) × Object σ))
    (hobjs : ∀ obj ∈ objs, group.lookup obj.1 = some obj.2) {objNos : List Int}
    {tab tab' : List IndexTable} {scalars scalars' : List Int}
    (h : Gathered group name objNos tab scalars)
    (hfold : objs.foldlM (collect name) (tab, scalars) = .ok (tab', scalars')) :
    Gathered group name (objs.map Sigma.fst ++ objNos) tab' scalars' := by
  induction objs generalizing objNos tab scalars with
  | nil =>
    cases hfold
    exact h
  | cons obj objs ih =>
    rw [List.foldlM_cons] at hfold
    cases hcollect : collect name (tab, scalars) obj with
    | error err =>
      rw [hcollect] at hfold
      cases hfold
    | ok acc =>
      obtain ⟨tab₁, scalars₁⟩ := acc
      rw [hcollect] at hfold
      have h₁ := collect_gathered h (hobjs obj List.mem_cons_self) hcollect
      have h' := ih (fun o ho => hobjs o (List.mem_cons_of_mem obj ho)) h₁ hfold
      exact ⟨h'.describes, h'.scalar, h'.perm.trans List.perm_middle⟩

/-- The index tables that the generator returns, for any group. -/
theorem groupIndexTableGenerator_described {tab : List IndexTable}
    (h : groupIndexTableGenerator group name = .ok tab) : Described group name tab := by
  have hempty : Gathered group name [] [] [] := ⟨by simp, by simp, .nil⟩
  rw [groupIndexTableGenerator] at h
  cases hfold : group.entries.foldlM (collect name) ([], []) with
  | error err =>
    rw [hfold] at h
    cases h
  | ok acc =>
    obtain ⟨gathered, scalars⟩ := acc
    rw [hfold] at h
    have hg := foldlM_gathered group.entries (fun obj hobj => AList.mem_lookup_iff.mpr hobj)
      hempty hfold
    rw [List.append_nil] at hg
    obtain ⟨tab', scalars', hsep, heq⟩ :=
      separateScalars_withScalars [] (sortNums scalars) (le_refl gathered.length) (Nat.zero_le 0)
    rw [List.nil_append] at hsep heq
    rw [List.length_nil] at hsep
    have htab : tab = withScalars gathered (sortNums scalars) := by
      simp only [bind, Except.bind, pure, Except.pure, hsep] at h
      rw [← heq, scalarRun]
      by_cases hnil : scalars' = []
      · simpa [hnil] using h.symm
      · simpa [hnil] using h.symm
    subst htab
    constructor
    · apply forall_mem_withScalars hg.describes
      intro xs hxs
      exact .scalars fun n hn => hg.scalar n (mem_sortNums.mp (hxs.subset hn))
    · apply (flatMap_withScalars_perm _ _).trans
      exact (List.Perm.append_left _ (List.perm_insertionSort _ _)).trans hg.perm

/-! ### Where an object number leads -/

section Described

variable {tab : List IndexTable} (h : Described group name tab) {n : Int}
include h

lemma Described.find? {obj : Object σ} (hobj : group.lookup n = some obj) :
    ∃ it ∈ tab, n ∈ it.objNos ∧ effectiveObjectIndex tab n = some it.all.length := by
  have hkey : n ∈ group.keys :=
    AList.mem_keys.mp (AList.lookup_isSome.mp (by rw [hobj]; rfl))
  obtain ⟨it, hit, hn⟩ := List.mem_flatMap.mp (h.perm.mem_iff.mpr hkey)
  cases hfind : tab.find? (n ∈ ·.objNos) with
  | none =>
    have hnot := List.find?_eq_none.mp hfind it hit
    exact absurd hn (by simpa using hnot)
  | some w =>
    refine ⟨w, List.mem_of_find?_eq_some hfind, by simpa using List.find?_some hfind, ?_⟩
    rw [effectiveObjectIndex, hfind]
    rfl

/-- A scalar has two dimensions. -/
lemma Described.effectiveObjectIndex_scalar {v : Variable σ}
    (hv : group.lookup n = some (.scalar v)) : effectiveObjectIndex tab n = some 2 := by
  obtain ⟨it, hit, hn, hindex⟩ := h.find? hv
  rw [hindex, (h.describes it hit).of_scalar hn hv]
  rfl

/-- A table has those of its index table. -/
lemma Described.effectiveObjectIndex_table {entry : Option (Int × Entry σ)}
    (hobj : group.lookup n = some (.table entry)) {it : IndexTable} (hit : it ∈ tab)
    (hn : n ∈ it.objNos) : effectiveObjectIndex tab n = some it.all.length := by
  obtain ⟨w, hw, hnw, hindex⟩ := h.find? hobj
  have hitw := (h.describes it hit).of_table hn hobj
  rw [(h.describes w hw).of_table hnw hobj] at hitw
  rw [hindex, Except.ok.inj hitw]

end Described

end Group

/-! ### What the search finds -/

/-- The components of a list of elements. -/
def flat (es : List IndexElem) : List Int := es.flatMap IndexElem.ids

@[simp] lemma flat_nil : flat [] = [] := rfl

@[simp] lemma flat_append (es es' : List IndexElem) : flat (es ++ es') = flat es ++ flat es' :=
  List.flatMap_append

@[simp] lemma flat_singleton (e : IndexElem) : flat [e] = e.ids := by simp [flat]

/-- The record of a path through the dimensions. -/
inductive Selected : Path IndexElem → List Pos → Prop
  | nil : Selected [] []
  | cons {p : Path IndexElem} {record : List Pos} {d : Dim} {e : IndexElem} {pos : Nat} :
      Selected p record → e ∈ d → Selected ((d, e) :: p) (⟨(flat p.elems).length, pos⟩ :: record)

lemma Selected.length_eq {p : Path IndexElem} {record : List Pos} (h : Selected p record) :
    record.length = p.length := by
  induction h with
  | nil => rfl
  | cons _ _ ih => simp [ih]

lemma Selected.members {p : Path IndexElem} {record : List Pos} (h : Selected p record) :
    p.elems ∈ members p.lists := by
  induction h with
  | nil => exact .nil
  | @cons p record d e pos _ he ih =>
    rw [Path.elems_cons, Path.lists_cons]
    exact List.rel_append ih (.cons he .nil)

lemma getElem?_selected {p : Path IndexElem} {record : List Pos} (h : Selected p record)
    (D : List Dim) : (p.lists ++ D)[record.length]? = D.head? := by
  rw [List.getElem?_append_right (by simp [h.length_eq])]
  cases D <;> simp [h.length_eq]

/-- A sequence that matches is all that is left of the OID. -/
lemma eq_of_compareIds {oid es : List Int} (h : compareIds oid es = .ok 0) : oid = es := by
  induction oid generalizing es with
  | nil =>
    cases es with
    | nil => rfl
    | cons e es => cases h
  | cons x oid ih =>
    cases es with
    | nil =>
      have hlen : (((x :: oid).length : Nat) : Int) = 0 := Except.ok.inj h
      simp only [List.length_cons] at hlen
      omega
    | cons e es =>
      rw [compareIds] at h
      by_cases hxe : x - e = 0
      · rw [if_pos hxe] at h
        rw [ih h, show x = e by omega]
      · rw [if_neg hxe] at h
        exact absurd (Except.ok.inj h) hxe

/-- The OID goes on with the components of an element that matches. -/
lemma prefix_of_compare {oid : List Int} {e : IndexElem} (h : compare oid e = .ok 0) :
    e.ids <+: oid := by
  cases e with
  | num id =>
    cases oid with
    | nil => cases h
    | cons x oid =>
      have hx : x - id = 0 := Except.ok.inj h
      rw [show x = id by omega]
      exact ⟨oid, rfl⟩
  | oid es =>
    have h' : compareIds oid es = .ok 0 := by
      cases oid <;> exact h
    rw [eq_of_compareIds h']
    exact List.prefix_rfl

/-- An element that the scan finds is one of the dimension. -/
lemma scan_sound {oid : List Int} {last : Bool} {es : Dim} {i : Nat} {hit : Hit}
    (h : scan oid last i es = .ok (some hit)) :
    match hit with
    | .same _ e => e ∈ es ∧ e.ids <+: oid ∧ last = false
    | .above _ e => e ∈ es := by
  induction es generalizing i with
  | nil => cases h
  | cons e es ih =>
    rw [scan] at h
    cases hcmp : compare oid e with
    | error err =>
      rw [hcmp] at h
      cases h
    | ok cmp =>
      simp only [hcmp, bind, Except.bind] at h
      by_cases hsame : cmp = 0 ∧ last = false
      · rw [if_pos hsame] at h
        cases h
        refine ⟨List.mem_cons_self, prefix_of_compare ?_, hsame.2⟩
        rw [hcmp, hsame.1]
      · rw [if_neg hsame] at h
        by_cases habove : cmp < 0
        · rw [if_pos habove] at h
          cases h
          exact List.mem_cons_self
        · rw [if_neg habove] at h
          have h' := ih h
          cases hit with
          | same _ _ => exact ⟨List.mem_cons_of_mem e h'.1, h'.2⟩
          | above _ _ => exact List.mem_cons_of_mem e h'

/-- The search goes back along the path. -/
lemma backtrack_selected {it : List Dim} {p : Path IndexElem} {record : List Pos}
    (h : Selected p record) {oid rest : List Int} (hoid : oid = flat p.elems ++ rest)
    {D : List Dim} (hit : it = p.lists ++ D) {offset : Nat} {e : IndexElem} {record' : List Pos}
    (hback : backtrack it record = some (offset, e, record')) :
    ∃ p' D' rest', Selected p' record' ∧ it = p'.lists ++ D' ∧ oid = flat p'.elems ++ rest' ∧
      offset = (flat p'.elems).length := by
  induction h generalizing rest D with
  | nil => cases hback
  | @cons p record d x pos h hx ih =>
    rw [Path.elems_cons, flat_append, List.append_assoc] at hoid
    rw [Path.lists_cons, List.append_assoc] at hit
    rw [backtrack] at hback
    cases hnext : (it[record.length]?).bind (·[pos + 1]?) with
    | none =>
      rw [hnext] at hback
      exact ih hoid hit hback
    | some e' =>
      rw [hnext] at hback
      cases hback
      exact ⟨p, _, _, h, hit, hoid, rfl⟩

/-- What a round of `getnext` has come to: a result with one element from each dimension, or the next
round, again behind a path. -/
inductive Round (it : List Dim) (fuel : Nat) (rsp left : List Int) : Prop
  | found {es : List IndexElem} : es ∈ members it → rsp = flat es → Round it fuel rsp left
  | again {p : Path IndexElem} {record : List Pos} {D : List Dim} {oid rest : List Int} :
      Selected p record → it = p.lists ++ D → oid = flat p.elems ++ rest →
      getnext it fuel oid (flat p.elems).length record = .ok (rsp, left) → Round it fuel rsp left

section Round

variable {it : List Dim} {fuel : Nat} {p : Path IndexElem} {record : List Pos} {d : Dim}
  {D : List Dim} {rsp left : List Int}

/-- An element is put behind the path. -/
lemma Selected.round_take (h : Selected p record) (hit : it = p.lists ++ d :: D) {e : IndexElem}
    (he : e ∈ d) (pos : Nat)
    (hres : (if record.length + 1 = it.length then .ok (flat p.elems ++ e.ids, flat p.elems ++ e.ids)
      else getnext it fuel (flat p.elems ++ e.ids) ((flat p.elems).length + e.ids.length)
        (⟨(flat p.elems).length, pos⟩ :: record)) = .ok (rsp, left)) :
    Round it fuel rsp left := by
  have h' : Selected ((d, e) :: p) (⟨(flat p.elems).length, pos⟩ :: record) := .cons h he
  have hflat : flat (Path.elems ((d, e) :: p)) = flat p.elems ++ e.ids := by simp
  by_cases hlast : record.length + 1 = it.length
  · rw [if_pos hlast] at hres
    cases hres
    have hnil : D = [] := by
      rw [hit, List.length_append, List.length_cons, Path.length_lists, h.length_eq] at hlast
      exact List.length_eq_zero_iff.mp (by omega)
    refine .found ?_ hflat.symm
    rw [hit, hnil, ← Path.lists_cons]
    exact h'.members
  · rw [if_neg hlast, ← List.length_append, ← hflat] at hres
    exact .again (D := D) h' (by simp [hit]) (List.append_nil _).symm hres

/-- The request goes on with an element, which is put behind the path. -/
lemma Selected.round_same (h : Selected p record) (hit : it = p.lists ++ d :: D) {e : IndexElem}
    (he : e ∈ d) {rest : List Int} (hrest : e.ids <+: rest) (pos : Nat)
    (hget : getnext it fuel (flat p.elems ++ rest) ((flat p.elems).length + e.ids.length)
      (⟨(flat p.elems).length, pos⟩ :: record) = .ok (rsp, left)) : Round it fuel rsp left := by
  obtain ⟨rest', rfl⟩ := hrest
  have hflat : flat (Path.elems ((d, e) :: p)) = flat p.elems ++ e.ids := by simp
  rw [← List.length_append, ← List.append_assoc, ← hflat] at hget
  exact .again (D := D) (.cons h he) (by simp [hit]) rfl hget

/-- One round of `getnext` that ends in a result. -/
lemma Selected.round (h : Selected p record) (hit : it = p.lists ++ D) {rest : List Int}
    (hget : getnext it (fuel + 1) (flat p.elems ++ rest) (flat p.elems).length record =
      .ok (rsp, left)) (hrsp : rsp ≠ []) : Round it fuel rsp left := by
  have hdim : it[record.length]? = D.head? := by rw [hit, getElem?_selected h]
  rcases D with _ | ⟨d, D⟩
  · rw [getnext, hdim] at hget
    cases hget
  rcases d with _ | ⟨e, es⟩
  · rw [getnext_step_nil hdim] at hget
    cases hget
    exact absurd rfl hrsp
  rcases rest with _ | ⟨x, xs⟩
  · rw [List.append_nil, getnext_step_end hdim] at hget
    exact h.round_take hit List.mem_cons_self 0 hget
  · rw [getnext_step_scan hdim (by simp)] at hget
    cases hscan : scan (x :: xs) (decide (record.length + 1 = it.length)) 0 (e :: es) with
    | error err =>
      rw [hscan] at hget
      cases hget
    | ok hit' =>
      rw [hscan] at hget
      rcases hit' with _ | ⟨i, e'⟩ | ⟨i, e'⟩
      · -- back along the path
        cases hback : backtrack it record with
        | none =>
          rw [hback] at hget
          cases hget
          exact absurd rfl hrsp
        | some back =>
          obtain ⟨offset, e', record'⟩ := back
          obtain ⟨p', D', rest', h', hit', hoid', rfl⟩ := backtrack_selected h rfl hit hback
          simp only [hback] at hget
          rw [concat, hoid', List.take_left] at hget
          exact .again h' hit' rfl hget
      · exact h.round_same hit (scan_sound hscan).1 (scan_sound hscan).2.1 i hget
      · exact h.round_take hit (scan_sound hscan) i hget

end Round

/-- What `getnext` finds has one element from each dimension. -/
lemma getnext_members {it : List Dim} {fuel : Nat} {p : Path IndexElem} {record : List Pos}
    (h : Selected p record) {D : List Dim} (hit : it = p.lists ++ D) {oid rest : List Int}
    (hoid : oid = flat p.elems ++ rest) {rsp left : List Int}
    (hget : getnext it fuel oid (flat p.elems).length record = .ok (rsp, left)) (hrsp : rsp ≠ []) :
    ∃ es ∈ members it, rsp = flat es := by
  induction fuel generalizing p record D oid rest with
  | zero => cases hget
  | succ fuel ih =>
    subst hoid
    cases h.round hit hget hrsp with
    | found hes hrsp' => exact ⟨_, hes, hrsp'⟩
    | again h' hit' hoid' hget' => exact ih h' hit' hoid' hget'

/-- What a search in an index table finds has one element from each dimension. -/
theorem groupIndexTableGetnext_members {it : List Dim} {oid rsp left : List Int}
    (h : groupIndexTableGetnext oid it = .ok (rsp, left)) (hrsp : rsp ≠ []) :
    ∃ es ∈ members it, rsp = flat es := by
  have hoid : oid = flat (Path.elems []) ++ oid := rfl
  exact getnext_members .nil (D := it) rfl hoid h hrsp

/-- What the search through the index tables finds comes from the first of those that are left. -/
lemma searchTables_members {tab : List IndexTable} {oid rsp : List Int} {rest : List IndexTable}
    (h : searchTables tab oid = .ok (some (rsp, rest))) :
    ∃ before it after, tab = before ++ rest ∧ rest = it :: after ∧
      ∃ es ∈ members it.all, rsp = flat es := by
  induction tab generalizing oid with
  | nil => cases h
  | cons it tab ih =>
    rw [searchTables] at h
    cases hget : groupIndexTableGetnext oid it.all with
    | error err =>
      rw [hget] at h
      cases h
    | ok res =>
      obtain ⟨rsp', left⟩ := res
      simp only [hget, bind, Except.bind] at h
      by_cases hnil : rsp' = []
      · rw [if_pos hnil] at h
        obtain ⟨before, w, after, rfl, hrest, hes⟩ := ih h
        exact ⟨it :: before, w, after, rfl, hrest, hes⟩
      · rw [if_neg hnil] at h
        cases h
        exact ⟨[], it, tab, rfl, rfl, groupIndexTableGetnext_members hget hnil⟩

/-- A dimension of numbers gives one component. -/
lemma flat_cons_nums {ns : List Int} {D : List Dim} {es : List IndexElem}
    (h : es ∈ members (nums ns :: D)) : ∃ n ∈ ns, ∃ rest ∈ members D, flat es = n :: flat rest := by
  obtain ⟨e, he, rest, hrest, rfl⟩ := mem_members_cons.mp h
  obtain ⟨n, hn, rfl⟩ := List.mem_map.mp he
  exact ⟨n, hn, rest, hrest, rfl⟩

end Lua

end SmartSnmp
