import Mathlib.Data.List.TakeWhile
import SmartSnmp.Lua.NodeSearch

/-!
# The index tables of a well-formed group

A group is well formed if every table has an entry whose indexes are a set of numbers or cascaded
lists of distinct numbers. `group_index_table_generator` covers its instances: each index table is
a product of ascending lists, its members are the instances of its objects, and the objects of all
the tables are the objects of the group, in ascending order.
-/

namespace SmartSnmp

namespace Lua

open Product

/-! ### Well-formed groups -/

/-- The lists the indexes of a well-formed entry come from. -/
inductive Indexes.Lists : Indexes → List (List Int) → Prop
  | keys {ks : List Int} : ks.Nodup → Lists (.keys (ks.map .num)) [ks]
  | cascade {lists : List (List Int)} : lists ≠ [] → (∀ ks ∈ lists, ks.Nodup) →
      Lists (.cascade lists) lists

section Group

variable {σ : Type} (group : Group σ)

/-- Every object that is a table has an entry with indexes. -/
def Group.WellFormed : Prop :=
  ∀ objNo entry, group.lookup objNo = some (.table entry) →
    ∃ no e lists, entry = some (no, e) ∧ e.indexes.Lists lists

/-- The instances of a group: the OID, the variable, and what its methods are called with. -/
inductive InstanceAt : List Int → Variable σ → Option InstNo → Prop
  | scalar {objNo : Int} {v : Variable σ} : group.lookup objNo = some (.scalar v) →
      InstanceAt [objNo, 0] v none
  | column {objNo entryNo varNo : Int} {e : Entry σ} {v : Variable σ} {lists : List (List Int)}
      {ids : List Int} : group.lookup objNo = some (.table (some (entryNo, e))) →
      e.columns.lookup varNo = some v → e.indexes.Lists lists → ids ∈ members lists →
      InstanceAt (objNo :: entryNo :: varNo :: ids) v (some (.ofIds ids))

/-- The OIDs of the instances. -/
def instances : Set (List Int) := {oid | ∃ v inst, InstanceAt group oid v inst}

end Group

lemma Indexes.Lists.ne_nil {indexes : Indexes} {lists : List (List Int)}
    (h : indexes.Lists lists) : lists ≠ [] := by
  cases h with
  | keys _ => simp
  | cascade hne _ => exact hne

lemma Indexes.Lists.nodup {indexes : Indexes} {lists : List (List Int)}
    (h : indexes.Lists lists) : ∀ ks ∈ lists, ks.Nodup := by
  cases h with
  | keys hks => simpa using hks
  | cascade _ hks => exact hks

lemma Indexes.Lists.unique {indexes : Indexes} {lists lists' : List (List Int)}
    (h : indexes.Lists lists) (h' : indexes.Lists lists') : lists = lists' := by
  cases h with
  | @keys ks _ =>
    generalize hi : Indexes.keys (ks.map .num) = indexes at h'
    cases h' with
    | @keys ks' _ =>
      have hmap : ks.map IndexKey.num = ks'.map IndexKey.num := Indexes.keys.inj hi
      have hinj : Function.Injective IndexKey.num := fun _ _ h => IndexKey.num.inj h
      rw [List.map_injective_iff.mpr hinj hmap]
    | cascade _ _ => cases hi
  | cascade _ _ =>
    cases h' with
    | cascade _ _ => rfl

/-! ### Sorted numbers -/

@[simp] lemma mem_sortNums {xs : List Int} {x : Int} : x ∈ sortNums xs ↔ x ∈ xs :=
  List.mem_insertionSort _

lemma sortNums_pairwise {xs : List Int} (h : xs.Nodup) : (sortNums xs).Pairwise (· < ·) := by
  have hle : (sortNums xs).Pairwise (· ≤ ·) := List.pairwise_insertionSort _ xs
  have hne : (sortNums xs).Pairwise (· ≠ ·) := (List.perm_insertionSort _ xs).nodup_iff.mpr h
  exact (hle.and hne).imp fun ⟨hxy, hne⟩ => lt_of_le_of_ne hxy hne

lemma members_map_sortNums (lists : List (List Int)) :
    members (lists.map sortNums) = members lists := by
  ext ids
  simp only [members, Set.mem_ofPred_eq, List.forall₂_map_right_iff, mem_sortNums]

lemma elemNums_map_num (ks : List Int) : elemNums (nums ks) = some ks := by
  induction ks with
  | nil => rfl
  | cons k ks ih =>
    simp only [elemNums, nums, List.map_cons, List.mapM_cons] at ih ⊢
    rw [ih]
    rfl

lemma indexDims_lists (name path : String) {indexes : Indexes} {lists : List (List Int)}
    (h : indexes.Lists lists) :
    indexDims name path indexes = .ok ((lists.map sortNums).map nums) := by
  cases h with
  | @keys ks _ =>
    have helem : (ks.map IndexKey.num).map IndexKey.elem = nums ks := by
      rw [List.map_map]
      rfl
    rw [indexDims, helem, sortElems, elemNums_map_num]
    rfl
  | cascade _ _ =>
    rw [indexDims, List.map_map]
    rfl

/-! ### Tables that cover their objects -/

section Covers

variable {σ : Type} {group : Group σ}

/-- The index table is a product of ascending lists, of which the first has its objects, and its
members are the instances of these objects. -/
def Covers (group : Group σ) (it : IndexTable) : Prop :=
  ∃ D, it.all = (it.objNos :: D).map nums ∧ Ascending (it.objNos :: D) ∧
    ∀ oid, oid ∈ members (it.objNos :: D) ↔
      oid ∈ instances group ∧ ∃ n ∈ it.objNos, oid.head? = some n

/-- A run of scalars. -/
lemma covers_scalars {objNos : List Int} (hasc : objNos.Pairwise (· < ·))
    (h : ∀ n ∈ objNos, ∃ v, group.lookup n = some (.scalar v)) :
    Covers group (.scalars objNos) := by
  refine ⟨[[0]], rfl, by simpa [Ascending, IndexTable.scalars] using hasc, ?_⟩
  intro oid
  simp only [IndexTable.scalars, mem_members_cons, mem_members_nil]
  constructor
  · rintro ⟨n, hn, _, ⟨z, hz, _, rfl, rfl⟩, rfl⟩
    obtain rfl : z = 0 := by simpa using hz
    obtain ⟨v, hv⟩ := h n hn
    exact ⟨⟨v, none, .scalar hv⟩, n, hn, rfl⟩
  · rintro ⟨⟨v, inst, hinst⟩, n, hn, hhead⟩
    obtain ⟨v', hv'⟩ := h n hn
    cases hinst with
    | @scalar objNo v _ =>
      obtain rfl : objNo = n := by simpa using hhead
      exact ⟨objNo, hn, [0], ⟨0, by simp, [], rfl, rfl⟩, rfl⟩
    | @column objNo _ _ _ _ _ _ hobj _ _ _ =>
      obtain rfl : objNo = n := by simpa using hhead
      rw [hv'] at hobj
      cases hobj

/-- The index table of a well-formed table. -/
lemma covers_tableIndexes (name : String) {objNo entryNo : Int} {e : Entry σ}
    {lists : List (List Int)} (hobj : group.lookup objNo = some (.table (some (entryNo, e))))
    (hlists : e.indexes.Lists lists) :
    ∃ it, tableIndexes name objNo (some (entryNo, e)) = .ok it ∧ it.objNos = [objNo] ∧
      Covers group it := by
  refine ⟨_, by rw [tableIndexes, indexDims_lists _ _ hlists]; rfl, rfl,
    [entryNo] :: sortNums e.columns.keys :: lists.map sortNums, rfl, ?_, fun oid => ?_⟩
  · intro d hd
    simp only [List.mem_cons, List.mem_map] at hd
    rcases hd with rfl | rfl | rfl | ⟨ks, hks, rfl⟩
    · exact List.pairwise_singleton _ _
    · exact List.pairwise_singleton _ _
    · exact sortNums_pairwise e.columns.keys_nodup
    · exact sortNums_pairwise (hlists.nodup ks hks)
  · simp only [mem_members_cons, members_map_sortNums, List.mem_singleton, mem_sortNums]
    constructor
    · rintro ⟨_, rfl, _, ⟨_, rfl, _, ⟨varNo, hvar, ids, hids, rfl⟩, rfl⟩, rfl⟩
      obtain ⟨v, hv⟩ := Option.isSome_iff_exists.mp
        (AList.lookup_isSome.mpr (AList.mem_keys.mpr hvar))
      exact ⟨⟨v, _, .column hobj hv hlists hids⟩, _, rfl, rfl⟩
    · rintro ⟨⟨v, inst, hinst⟩, m, hm, hhead⟩
      obtain rfl : objNo = m := hm.symm
      cases hinst with
      | @scalar n v hn =>
        obtain rfl : n = objNo := by simpa using hhead
        rw [hobj] at hn
        cases hn
      | @column n entryNo' varNo e' v lists' ids hn hv hlists' hids =>
        obtain rfl : n = objNo := by simpa using hhead
        rw [hobj] at hn
        cases hn
        obtain rfl := hlists.unique hlists'
        have hvar : varNo ∈ e.columns.keys :=
          AList.mem_keys.mp (AList.lookup_isSome.mp (by rw [hv]; rfl))
        exact ⟨n, rfl, _, ⟨entryNo, rfl, _, ⟨varNo, hvar, ids, hids, rfl⟩, rfl⟩, rfl⟩

/-! ### The tables in order -/

lemma insertTable_perm (it : IndexTable) (tab : List IndexTable) :
    (insertTable it tab).Perm (it :: tab) := by
  induction tab with
  | nil => exact List.Perm.refl _
  | cons v tab ih =>
    rw [insertTable]
    by_cases hlt : it.no < v.no
    · rw [if_pos hlt]
    · rw [if_neg hlt]
      exact (ih.cons v).trans (List.Perm.swap it v tab)

lemma insertTable_pairwise (it : IndexTable) {tab : List IndexTable}
    (h : tab.Pairwise (·.no ≤ ·.no)) : (insertTable it tab).Pairwise (·.no ≤ ·.no) := by
  induction tab with
  | nil => exact List.pairwise_singleton _ _
  | cons v tab ih =>
    obtain ⟨hv, htab⟩ := List.pairwise_cons.mp h
    rw [insertTable]
    by_cases hlt : it.no < v.no
    · rw [if_pos hlt]
      refine List.pairwise_cons.mpr ⟨fun w hw => ?_, h⟩
      rcases List.mem_cons.mp hw with rfl | hw
      · exact hlt.le
      · exact hlt.le.trans (hv w hw)
    · rw [if_neg hlt]
      refine List.pairwise_cons.mpr ⟨fun w hw => ?_, ih htab⟩
      rcases List.mem_cons.mp ((insertTable_perm it tab).mem_iff.mp hw) with rfl | hw
      · exact not_lt.mp hlt
      · exact hv w hw

/-- One more scalar is collected. -/
lemma scalar_of_mem_concat {scalars : List Int} {objNo : Int} {v : Variable σ}
    (h : ∀ n ∈ scalars, ∃ v, group.lookup n = some (.scalar v))
    (hobj : group.lookup objNo = some (.scalar v)) :
    ∀ n ∈ scalars ++ [objNo], ∃ v, group.lookup n = some (.scalar v) := by
  intro n hn
  rcases List.mem_append.mp hn with hn | hn
  · exact h n hn
  · rw [List.mem_singleton.mp hn]
    exact ⟨v, hobj⟩

/-- What is collected of the objects with these numbers. -/
structure Collected (group : Group σ) (objNos : List Int) (tab : List IndexTable)
    (scalars : List Int) : Prop where
  covers : ∀ it ∈ tab, Covers group it
  single : ∀ it ∈ tab, it.objNos = [it.no]
  scalar : ∀ n ∈ scalars, ∃ v, group.lookup n = some (.scalar v)
  sorted : tab.Pairwise (·.no ≤ ·.no)
  perm : (tab.map (·.no) ++ scalars).Perm objNos

lemma collect_collected (hg : group.WellFormed) (name : String) {objNos : List Int}
    {tab : List IndexTable} {scalars : List Int} (h : Collected group objNos tab scalars)
    {objNo : Int} {obj : Object σ} (hobj : group.lookup objNo = some obj) :
    ∃ tab' scalars', collect name (tab, scalars) ⟨objNo, obj⟩ = .ok (tab', scalars') ∧
      Collected group (objNo :: objNos) tab' scalars' := by
  cases obj with
  | scalar v =>
    refine ⟨tab, scalars ++ [objNo], rfl, h.covers, h.single, scalar_of_mem_concat h.scalar hobj,
      h.sorted, ?_⟩
    rw [← List.append_assoc]
    exact (List.perm_append_singleton _ _).trans (h.perm.cons objNo)
  | table entry =>
    obtain ⟨entryNo, e, lists, rfl, hlists⟩ := hg objNo entry hobj
    obtain ⟨it, hit, hno, hcovers⟩ := covers_tableIndexes name hobj hlists
    have hmem : ∀ w, w ∈ insertTable it tab ↔ w = it ∨ w ∈ tab := fun w =>
      (insertTable_perm it tab).mem_iff.trans List.mem_cons
    have hitNo : it.no = objNo := by simp [IndexTable.no, hno]
    refine ⟨insertTable it tab, scalars, by simp [collect, hit, Except.map], ?_, ?_, h.scalar,
      insertTable_pairwise it h.sorted, ?_⟩
    · intro w hw
      rcases (hmem w).mp hw with rfl | hw
      · exact hcovers
      · exact h.covers w hw
    · intro w hw
      rcases (hmem w).mp hw with rfl | hw
      · rw [hno, hitNo]
      · exact h.single w hw
    · have hperm := ((insertTable_perm it tab).map (·.no)).append_right scalars
      rw [List.map_cons, hitNo, List.cons_append] at hperm
      exact hperm.trans (h.perm.cons objNo)

lemma foldlM_collect (hg : group.WellFormed) (name : String) (objs : List ((_ : Int) × Object σ))
    (hobjs : ∀ obj ∈ objs, group.lookup obj.1 = some obj.2) {objNos : List Int}
    {tab : List IndexTable} {scalars : List Int} (h : Collected group objNos tab scalars) :
    ∃ tab' scalars', objs.foldlM (collect name) (tab, scalars) = .ok (tab', scalars') ∧
      Collected group (objs.map Sigma.fst ++ objNos) tab' scalars' := by
  induction objs generalizing objNos tab scalars with
  | nil => exact ⟨tab, scalars, rfl, h⟩
  | cons obj objs ih =>
    obtain ⟨tab₁, scalars₁, hcollect, h₁⟩ :=
      collect_collected hg name h (hobjs obj List.mem_cons_self)
    obtain ⟨tab', scalars', hfold, h'⟩ :=
      ih (fun o ho => hobjs o (List.mem_cons_of_mem obj ho)) h₁
    refine ⟨tab', scalars', ?_, h'.covers, h'.single, h'.scalar, h'.sorted,
      h'.perm.trans List.perm_middle⟩
    rw [List.foldlM_cons, hcollect]
    exact hfold

/-! ### The scalars between the tables -/

/-- A run of scalars, if there are any. -/
def scalarRun (scalars : List Int) : List IndexTable :=
  if scalars = [] then [] else [.scalars scalars]

/-- The tables with the runs of scalars in front of them and behind them. -/
def withScalars : List IndexTable → List Int → List IndexTable
  | [], scalars => scalarRun scalars
  | it :: tab, scalars =>
    scalarRun (scalars.takeWhile (· ≤ it.no)) ++
      it :: withScalars tab (scalars.dropWhile (· ≤ it.no))

lemma insertIdx_append_length (before tab : List IndexTable) (it : IndexTable) :
    (before ++ tab).insertIdx before.length it = before ++ it :: tab := by
  induction before with
  | nil => rfl
  | cons b before ih => simp [ih]

lemma drop_length_takeWhile (p : Int → Bool) (xs : List Int) :
    xs.drop (xs.takeWhile p).length = xs.dropWhile p := by
  have happ := List.takeWhile_append_dropWhile (p := p) (l := xs)
  calc xs.drop (xs.takeWhile p).length
      = (xs.takeWhile p ++ xs.dropWhile p).drop (xs.takeWhile p).length := by rw [happ]
    _ = xs.dropWhile p := List.drop_left

/-- The loop puts the runs of scalars between the tables. Its counter `n` stays behind its position,
so it does not end before the tables do. -/
lemma separateScalars_withScalars {tab : List IndexTable} (before : List IndexTable)
    (scalars : List Int) {fuel n : Nat} (hfuel : tab.length ≤ fuel) (hn : n ≤ before.length) :
    ∃ tab' scalars',
      separateScalars fuel n before.length (before ++ tab) scalars = (tab', scalars') ∧
        tab' ++ scalarRun scalars' = before ++ withScalars tab scalars := by
  induction tab generalizing before scalars fuel n with
  | nil =>
    refine ⟨before, scalars, ?_, rfl⟩
    cases fuel with
    | zero => rw [separateScalars, List.append_nil]
    | succ fuel => simp [separateScalars]
  | cons it tab ih =>
    obtain ⟨fuel, rfl⟩ : ∃ m, fuel = m + 1 := ⟨fuel - 1, by simp at hfuel; omega⟩
    have hfuel' : tab.length ≤ fuel := by simpa using hfuel
    have hget : (before ++ it :: tab)[before.length]? = some it := by simp
    have hlen : ¬ (before ++ it :: tab).length ≤ n := by
      rw [List.length_append, List.length_cons]
      omega
    have hdrop := drop_length_takeWhile (· ≤ it.no) scalars
    simp only [separateScalars, if_neg hlen, hget, hdrop]
    by_cases hrun : scalars.takeWhile (· ≤ it.no) = []
    · -- the table stays where it is
      obtain ⟨tab', scalars', hsep, heq⟩ := ih (before ++ [it]) (scalars.dropWhile (· ≤ it.no))
        hfuel' (n := n + 1) (by simpa using hn)
      have hdropWhile : scalars.dropWhile (· ≤ it.no) = scalars := by
        rw [← hdrop, hrun]
        rfl
      refine ⟨tab', scalars', ?_, ?_⟩
      · rw [hrun, List.length_nil, if_neg (lt_irrefl 0)]
        rw [hdropWhile] at hsep
        simpa using hsep
      · rw [heq, withScalars, scalarRun, if_pos hrun]
        simp
    · -- the run goes in front of the table
      have hpos : 0 < (scalars.takeWhile (· ≤ it.no)).length := List.length_pos_iff.mpr hrun
      obtain ⟨tab', scalars', hsep, heq⟩ :=
        ih (before ++ [.scalars (scalars.takeWhile (· ≤ it.no)), it])
          (scalars.dropWhile (· ≤ it.no)) hfuel' (n := n + 1) (by simp; omega)
      refine ⟨tab', scalars', ?_, ?_⟩
      · rw [if_pos hpos, insertIdx_append_length]
        simpa using hsep
      · rw [heq, withScalars, scalarRun, if_neg hrun]
        simp

/-- Each table is one of the given ones or a run of the scalars. -/
lemma forall_mem_withScalars {P : IndexTable → Prop} {tab : List IndexTable} {scalars : List Int}
    (htab : ∀ it ∈ tab, P it)
    (hrun : ∀ xs, xs.Sublist scalars → P (.scalars xs)) :
    ∀ it ∈ withScalars tab scalars, P it := by
  have hscalarRun : ∀ {xs : List Int}, xs.Sublist scalars → ∀ it ∈ scalarRun xs, P it := by
    intro xs hxs it hit
    rw [scalarRun] at hit
    by_cases hnil : xs = []
    · simp [hnil] at hit
    · obtain rfl : it = .scalars xs := by simpa [hnil] using hit
      exact hrun xs hxs
  induction tab generalizing scalars with
  | nil => exact hscalarRun (List.Sublist.refl _)
  | cons t tab ih =>
    have hdropWhile := List.dropWhile_sublist (l := scalars) (· ≤ t.no)
    intro it hit
    rcases List.mem_append.mp hit with hit | hit
    · exact hscalarRun (List.takeWhile_sublist _) it hit
    · rcases List.mem_cons.mp hit with rfl | hit
      · exact htab it List.mem_cons_self
      · exact ih (fun w hw => htab w (List.mem_cons_of_mem t hw))
          (fun xs hxs => hrun xs (hxs.trans hdropWhile))
          (fun hxs => hscalarRun (hxs.trans hdropWhile)) it hit

@[simp] lemma flatMap_scalarRun (scalars : List Int) :
    (scalarRun scalars).flatMap (·.objNos) = scalars := by
  by_cases h : scalars = []
  · simp [scalarRun, h]
  · simp [scalarRun, h, IndexTable.scalars]

lemma flatMap_withScalars_cons (it : IndexTable) (tab : List IndexTable) (scalars : List Int) :
    (withScalars (it :: tab) scalars).flatMap (·.objNos) =
      scalars.takeWhile (· ≤ it.no) ++ (it.objNos ++
        (withScalars tab (scalars.dropWhile (· ≤ it.no))).flatMap (·.objNos)) := by
  rw [withScalars, List.flatMap_append, flatMap_scalarRun, List.flatMap_cons]

lemma flatMap_withScalars_perm (tab : List IndexTable) (scalars : List Int) :
    ((withScalars tab scalars).flatMap (·.objNos)).Perm (tab.flatMap (·.objNos) ++ scalars) := by
  induction tab generalizing scalars with
  | nil =>
    rw [withScalars, flatMap_scalarRun]
    exact List.Perm.refl _
  | cons it tab ih =>
    rw [flatMap_withScalars_cons, List.flatMap_cons, List.append_assoc]
    apply List.perm_append_comm.trans
    rw [List.append_assoc]
    refine List.Perm.append_left _ (((ih _).append_right _).trans ?_)
    rw [List.append_assoc]
    refine List.Perm.append_left _ (List.perm_append_comm.trans ?_)
    rw [List.takeWhile_append_dropWhile]

lemma lt_of_mem_dropWhile {xs : List Int} (h : xs.Pairwise (· ≤ ·)) {m y : Int}
    (hy : y ∈ xs.dropWhile (· ≤ m)) : m < y := by
  induction xs with
  | nil => simp at hy
  | cons x xs ih =>
    obtain ⟨hx, hxs⟩ := List.pairwise_cons.mp h
    by_cases hxm : x ≤ m
    · rw [List.dropWhile_cons_of_pos (by simpa using hxm)] at hy
      exact ih hxs hy
    · rw [List.dropWhile_cons_of_neg (by simpa using hxm)] at hy
      rcases List.mem_cons.mp hy with rfl | hy
      · exact not_le.mp hxm
      · exact (not_le.mp hxm).trans_le (hx y hy)

/-- The objects are in order. -/
lemma withScalars_pairwise {tab : List IndexTable} {scalars : List Int}
    (hsingle : ∀ it ∈ tab, it.objNos = [it.no]) (htab : tab.Pairwise (·.no ≤ ·.no))
    (hscalars : scalars.Pairwise (· ≤ ·)) :
    ((withScalars tab scalars).flatMap (·.objNos)).Pairwise (· ≤ ·) := by
  induction tab generalizing scalars with
  | nil => rwa [withScalars, flatMap_scalarRun]
  | cons it tab ih =>
    obtain ⟨hit, htab⟩ := List.pairwise_cons.mp htab
    have hsingle' : ∀ w ∈ tab, w.objNos = [w.no] := fun w hw =>
      hsingle w (List.mem_cons_of_mem it hw)
    have hrest := ih hsingle' htab (hscalars.sublist (List.dropWhile_sublist (· ≤ it.no)))
    have habove : ∀ y ∈ (withScalars tab (scalars.dropWhile (· ≤ it.no))).flatMap (·.objNos),
        it.no ≤ y := by
      intro y hy
      rcases List.mem_append.mp ((flatMap_withScalars_perm _ _).mem_iff.mp hy) with hy | hy
      · obtain ⟨w, hw, hyw⟩ := List.mem_flatMap.mp hy
        rw [hsingle' w hw, List.mem_singleton] at hyw
        exact hyw ▸ hit w hw
      · exact (lt_of_mem_dropWhile hscalars hy).le
    rw [flatMap_withScalars_cons, hsingle it List.mem_cons_self]
    refine List.pairwise_append.mpr ⟨hscalars.sublist (List.takeWhile_sublist _),
      List.pairwise_cons.mpr ⟨habove, hrest⟩, fun x hx y hy => ?_⟩
    have hxit : x ≤ it.no := by simpa using List.mem_takeWhile_imp hx
    rcases List.mem_cons.mp hy with rfl | hy
    · exact hxit
    · exact hxit.trans (habove y hy)

/-! ### The generator -/

/-- The index tables cover the instances of the group, their objects are in ascending order. -/
structure Covering (group : Group σ) (tab : List IndexTable) : Prop where
  covers : ∀ it ∈ tab, Covers group it
  ascending : (tab.flatMap (·.objNos)).Pairwise (· < ·)
  all : ∀ oid ∈ instances group, ∃ n ∈ tab.flatMap (·.objNos), oid.head? = some n

lemma Collected.covering {tab : List IndexTable} {scalars : List Int}
    (h : Collected group group.keys tab scalars) :
    Covering group (withScalars tab (sortNums scalars)) := by
  have hflat : tab.flatMap (·.objNos) = tab.map (·.no) := by
    rw [List.flatMap_congr h.single, List.map_eq_flatMap]
  have hperm : ((withScalars tab (sortNums scalars)).flatMap (·.objNos)).Perm group.keys := by
    apply (flatMap_withScalars_perm _ _).trans
    rw [hflat]
    exact (List.Perm.append_left _ (List.perm_insertionSort _ _)).trans h.perm
  have hle := withScalars_pairwise h.single h.sorted (List.pairwise_insertionSort _ scalars)
  have hne : ((withScalars tab (sortNums scalars)).flatMap (·.objNos)).Pairwise (· ≠ ·) :=
    hperm.nodup_iff.mpr group.keys_nodup
  refine ⟨?_, (hle.and hne).imp fun ⟨hxy, hne⟩ => lt_of_le_of_ne hxy hne, ?_⟩
  · have hnodup : scalars.Nodup :=
      ((List.nodup_append.mp (h.perm.nodup_iff.mpr group.keys_nodup)).2).1
    apply forall_mem_withScalars h.covers
    intro xs hxs
    exact covers_scalars ((sortNums_pairwise hnodup).sublist hxs) fun n hn =>
      h.scalar n (mem_sortNums.mp (hxs.subset hn))
  · rintro oid ⟨v, inst, hinst⟩
    have hkey : ∀ {n obj}, group.lookup n = some obj →
        n ∈ (withScalars tab (sortNums scalars)).flatMap (·.objNos) := fun hn =>
      hperm.mem_iff.mpr (AList.mem_keys.mp (AList.lookup_isSome.mp (by rw [hn]; rfl)))
    cases hinst with
    | scalar hobj => exact ⟨_, hkey hobj, rfl⟩
    | column hobj _ _ _ => exact ⟨_, hkey hobj, rfl⟩

/-- The generator of a well-formed group. -/
theorem groupIndexTableGenerator_covering (hg : group.WellFormed) (name : String) :
    ∃ tab, groupIndexTableGenerator group name = .ok tab ∧ Covering group tab := by
  have hempty : Collected group [] [] [] := ⟨by simp, by simp, by simp, .nil, .nil⟩
  obtain ⟨tab, scalars, hfold, h⟩ := foldlM_collect hg name group.entries
    (fun obj hobj => AList.mem_lookup_iff.mpr hobj) hempty
  rw [List.append_nil] at h
  obtain ⟨tab', scalars', hsep, heq⟩ :=
    separateScalars_withScalars [] (sortNums scalars) (le_refl tab.length) (Nat.zero_le 0)
  refine ⟨withScalars tab (sortNums scalars), ?_, h.covering⟩
  rw [groupIndexTableGenerator, hfold]
  rw [List.nil_append] at hsep
  simp only [List.length_nil] at hsep
  rw [← List.nil_append (withScalars tab _), ← heq, scalarRun]
  by_cases hnil : scalars' = []
  · simp [hsep, hnil]
  · simp [hsep, hnil]

end Covers

end Lua

end SmartSnmp
