import SmartSnmp.Lua.GroupIndex

/-!
# GETNEXT is a successor function

In a well-formed group whose instances can all be read, the handler of GETNEXT returns the least
instance above the request, for a request of any length and any order in which `pairs` enumerates.
-/

namespace SmartSnmp

namespace Lua

open Product

section Successor

variable {σ : Type} {group : Group σ}

/-- The instances above a request. -/
def above (group : Group σ) (req : List Int) : Set (List Int) :=
  {oid | oid ∈ instances group ∧ req < oid}

/-- The variable is accessible, and its `get_f` returns a value of the type of its tag. -/
structure Readable (v : Variable σ) (inst : Option InstNo) : Prop where
  accessible : v.access ≠ .una
  value : ∀ s, ∃ val errStat s', v.getF inst s = .ok (val, errStat) s' ∧ val ≠ .nil ∧
    HasTagType val v.tag

/-- Every instance of the group can be read. -/
def AllReadable (group : Group σ) : Prop :=
  ∀ oid v inst, InstanceAt group oid v inst → Readable v inst

/-! ### The search through the tables -/

/-- The instances above a request among the objects of these tables. -/
def aboveIn (group : Group σ) (tab : List IndexTable) (req : List Int) : Set (List Int) :=
  {oid | (oid ∈ instances group ∧ ∃ n ∈ tab.flatMap (·.objNos), oid.head? = some n) ∧ req < oid}

lemma Covering.aboveIn_eq {tab : List IndexTable} (h : Covering group tab) (req : List Int) :
    aboveIn group tab req = above group req := by
  ext oid
  constructor
  · rintro ⟨⟨hoid, -⟩, hlt⟩
    exact ⟨hoid, hlt⟩
  · rintro ⟨hoid, hlt⟩
    exact ⟨⟨hoid, h.all oid hoid⟩, hlt⟩

lemma lt_of_head_lt {req oid : List Int} {n : Int} (hoid : oid.head? = some n)
    (h : ∀ x ∈ req.head?, x < n) : req < oid := by
  obtain ⟨ys, rfl⟩ := List.head?_eq_some_iff.mp hoid
  cases req with
  | nil => exact List.nil_lt_cons n ys
  | cons x xs => exact List.cons_lt_cons_iff.mpr (.inl (h x rfl))

/-- What a search leaves of the request has the same instances above it in the later tables. -/
lemma aboveIn_later {objNos : List Int} {tab : List IndexTable} {D : List (List Int)}
    (hlt : ∀ m ∈ objNos, ∀ n ∈ tab.flatMap (·.objNos), m < n) {req rest : List Int}
    (h : Later (objNos :: D) req rest) : aboveIn group tab rest = aboveIn group tab req := by
  rcases h with rfl | ⟨m, hm, hrest, hreq⟩
  · rfl
  ext oid
  apply and_congr_right
  rintro ⟨_, n, hn, hoid⟩
  have hmn : m < n := hlt m hm n hn
  constructor
  · intro _
    exact lt_of_head_lt hoid fun x hx => (hreq x hx).trans_lt hmn
  · intro _
    apply lt_of_head_lt hoid
    intro x hx
    rw [hrest] at hx
    obtain rfl : m = x := Option.some.inj hx
    exact hmn

/-- The instances of the first table and those of the others. -/
lemma aboveIn_cons {it : IndexTable} {D : List (List Int)}
    (hmembers : ∀ oid, oid ∈ members (it.objNos :: D) ↔
      oid ∈ instances group ∧ ∃ n ∈ it.objNos, oid.head? = some n)
    (tab : List IndexTable) (req : List Int) : aboveIn group (it :: tab) req =
      {oid | oid ∈ members (it.objNos :: D) ∧ req < oid} ∪ aboveIn group tab req := by
  ext oid
  simp only [aboveIn, Set.mem_ofPred_eq, Set.mem_union, hmembers, List.flatMap_cons,
    List.mem_append, or_and_right, exists_or, and_or_left]

/-- The search returns the least instance above the request. -/
lemma searchTables_least {tab : List IndexTable} (hcovers : ∀ it ∈ tab, Covers group it)
    (hasc : (tab.flatMap (·.objNos)).Pairwise (· < ·)) (req : List Int) :
    ∃ found, searchTables tab req = .ok found ∧
      Least (aboveIn group tab req) (found.map Prod.fst) := by
  induction tab generalizing req with
  | nil =>
    refine ⟨none, rfl, ?_⟩
    simp [Least, aboveIn]
  | cons it tab ih =>
    obtain ⟨D, hall, hD, hmembers⟩ := hcovers it List.mem_cons_self
    rw [List.flatMap_cons] at hasc
    obtain ⟨-, hrest, hlt⟩ := List.pairwise_append.mp hasc
    have hsplit := aboveIn_cons hmembers tab req
    have hends := groupIndexTableGetnext_next hD (by simp) req
    rw [← hall] at hends
    have hleast := next_least hD req
    cases hnext : next (it.objNos :: D) req with
    | none =>
      rw [hnext] at hends hleast
      obtain ⟨left, hsearch, hlater⟩ := hends
      have hempty : {oid | oid ∈ members (it.objNos :: D) ∧ req < oid} = ∅ := hleast
      obtain ⟨found, hfound, h⟩ :=
        ih (fun w hw => hcovers w (List.mem_cons_of_mem it hw)) hrest left
      refine ⟨found, ?_, ?_⟩
      · rw [searchTables, hsearch]
        exact hfound
      · rw [hsplit, hempty, Set.empty_union, ← aboveIn_later hlt hlater]
        exact h
    | some w =>
      rw [hnext] at hends hleast
      have hw : w ≠ [] := by
        rintro rfl
        exact List.not_lt_nil req hleast.1.2
      refine ⟨some (w, it :: tab), ?_, ?_⟩
      · rw [searchTables, show groupIndexTableGetnext req it.all = .ok (w, w) from hends]
        exact if_neg hw
      · rw [hsplit]
        refine ⟨.inl hleast.1, ?_⟩
        rintro oid (hoid | ⟨⟨-, n, hn, hhead⟩, -⟩)
        · exact hleast.2 hoid
        · -- the objects of the later tables are behind those of this one
          obtain ⟨-, m, hm, hwm⟩ := (hmembers w).mp hleast.1.1
          refine (lt_of_head_lt hhead fun x hx => ?_).le
          rw [hwm] at hx
          obtain rfl : m = x := Option.some.inj hx
          exact hlt m hm n hn

/-! ### The handler -/

lemma instNo_cons {objNo entryNo varNo : Int} (ids : List Int) :
    instNo (objNo :: entryNo :: varNo :: ids) = .ofIds ids := rfl

/-- A round of the loop that finds an instance: it is returned with its value, or left out. -/
lemma getnextLoop_instance (name : String) (fuel : Nat) {tab rest : List IndexTable}
    {req oid : List Int} (hfound : searchTables tab req = .ok (some (oid, rest)))
    {v : Variable σ} {inst : Option InstNo} (hinst : InstanceAt group oid v inst)
    {s s' : σ} {val : LuaValue} {errStat : Option Int}
    (hget : v.getF inst s = .ok (val, errStat) s') :
    getnextLoop group name (fuel + 1) tab req s =
      if val = .nil ∨ v.tag = none ∨ v.access = .una then
        getnextLoop group name fuel rest
          (if oid.length = 2 then oid else (oid.modify 2 (· + 1)).set 3 0) s'
      else .ok (some (oid, v, val, errStat)) s' := by
  rw [getnextLoop, hfound, ofExcept_ok_bind]
  cases hinst with
  | @scalar objNo v hobj =>
    have hscalar : scalarAt group objNo = some v := by rw [scalarAt, hobj]
    simp only [List.length_cons, List.length_nil, Nat.reduceAdd, if_true, List.head?_cons,
      Option.bind_some, hscalar, bind_ok hget]
    split_ifs <;> rfl
  | @column objNo entryNo varNo e v lists ids hobj hvar hlists hids =>
    have hvariable : variableAt group (objNo :: entryNo :: varNo :: ids) = some v := by
      rw [variableAt, hobj]
      simpa using hvar
    have hids : 0 < ids.length := by
      rw [List.Forall₂.length_eq hids]
      exact List.length_pos_iff.mpr hlists.ne_nil
    have htwo : ¬ (objNo :: entryNo :: varNo :: ids).length = 2 := by simp
    have hfour : 4 ≤ (objNo :: entryNo :: varNo :: ids).length := by
      rw [List.length_cons, List.length_cons, List.length_cons]
      omega
    simp only [if_neg htwo, if_pos hfour, hvariable]
    rw [instNo_cons, bind_ok hget]
    split_ifs <;> rfl

/-- An instance that is found is read. -/
lemma getnextLoop_found (name : String) (fuel : Nat) {tab rest : List IndexTable}
    {req oid : List Int} (hfound : searchTables tab req = .ok (some (oid, rest)))
    {v : Variable σ} {inst : Option InstNo} (hinst : InstanceAt group oid v inst)
    {s s' : σ} {val : LuaValue} {errStat : Option Int} (hacc : v.access ≠ .una)
    (hget : v.getF inst s = .ok (val, errStat) s') (hval : val ≠ .nil) (htag : v.tag ≠ none) :
    getnextLoop group name (fuel + 1) tab req s = .ok (some (oid, v, val, errStat)) s' := by
  have hleft : ¬ (val = .nil ∨ v.tag = none ∨ v.access = .una) := by
    rintro (h | h | h)
    · exact hval h
    · exact htag h
    · exact hacc h
  rw [getnextLoop_instance name fuel hfound hinst hget, if_neg hleft]

/-- What GETNEXT answers: the least instance above the request with its value, or
`NO_SUCH_OBJ`. -/
structure IsSuccessor (group : Group σ) (req : List Int) (s : σ) (result : Result) (s' : σ) :
    Prop where
  noSuchObj : result.valType = some asn1TagNoSuchObj ↔ above group req = ∅
  exhausted : above group req = ∅ → result = ⟨errStatNoErr, [], .nil, some asn1TagNoSuchObj⟩ ∧ s' = s
  least : (above group req).Nonempty → IsLeast (above group req) result.subOid
  value : (above group req).Nonempty → ∃ v inst errStat, InstanceAt group result.subOid v inst ∧
    v.getF inst s = .ok (result.val, errStat) s' ∧ result.errStat = errStat.getD errStatNoErr ∧
      result.valType = v.tag

/-- The handler of GETNEXT is a successor function. It leaves out nothing, so fuel for one round of
its loop is enough. -/
theorem mibNodeSearch_getNext_successor (hg : group.WellFormed) (hr : AllReadable group)
    (name : String) (fuel : Nat) (req : List Int) (val : LuaValue) (valType : Option UInt8)
    (s : σ) :
    ∃ result s', mibNodeSearch group name (fuel + 1) .getNext req val valType s = .ok result s' ∧
      IsSuccessor group req s result s' := by
  obtain ⟨tab, hgen, htab⟩ := groupIndexTableGenerator_covering hg name
  obtain ⟨found, hfound, hleast⟩ := searchTables_least htab.covers htab.ascending req
  rw [htab.aboveIn_eq] at hleast
  have hrun : mibNodeSearch group name (fuel + 1) .getNext req val valType s =
      handleGetnext group name (fuel + 1) tab req s := by
    rw [mibNodeSearch, hgen, ofExcept_ok_bind]
  rw [hrun, handleGetnext]
  cases found with
  | none =>
    have hempty : above group req = ∅ := hleast
    have hloop : getnextLoop group name (fuel + 1) tab req s = .ok none s := by
      rw [getnextLoop, hfound]
      rfl
    rw [bind_ok hloop]
    have hne : ¬ (above group req).Nonempty := by
      rw [hempty]
      exact Set.not_nonempty_empty
    exact ⟨_, s, rfl, ⟨fun _ => hempty, fun _ => rfl⟩, fun _ => ⟨rfl, rfl⟩,
      fun h => absurd h hne, fun h => absurd h hne⟩
  | some found =>
    obtain ⟨oid, rest⟩ := found
    have hoid : IsLeast (above group req) oid := hleast
    obtain ⟨v, inst, hinst⟩ := hoid.1.1
    have hv := hr oid v inst hinst
    obtain ⟨val, errStat, s', hget, hval, htype⟩ := hv.value s
    have htagNe : v.tag ≠ some asn1TagNoSuchObj := htype.tag_ne_noSuchObj
    obtain ⟨tag, text, htag, hmatch⟩ := htype
    have hloop := getnextLoop_found name fuel hfound hinst hv.accessible hget hval
      (by rw [htag]; exact Option.some_ne_none tag)
    rw [bind_ok hloop]
    have hne : above group req ≠ ∅ := Set.nonempty_iff_ne_empty.mp ⟨oid, hoid.1⟩
    refine ⟨⟨errStat.getD errStatNoErr, oid, val, v.tag⟩, s', ?_, ⟨fun h => absurd h htagNe,
      fun h => absurd h hne⟩, fun h => absurd h hne, fun _ => hoid, fun _ =>
      ⟨v, inst, errStat, hinst, hget, rfl, rfl⟩⟩
    show answer name oid val v.tag errStat s' = _
    rw [answer, returnValueCheck_ok ⟨tag, text, htag, hmatch⟩, ofExcept_ok_bind]
    rfl

end Successor

/-! ### A group with a scalar behind a table -/

/-- The number seven. -/
def sampleGet : Option InstNo → LuaM Unit (LuaValue × Option Int) := fun _ => pure (.num 7, none)

def sampleEntry : Entry Unit where
  columns := AList.singleton 1 (constInt sampleGet)
  indexes := .keys ([3, 1].map .num)

def sampleGroup : Group Unit :=
  (AList.singleton 1 (.table (some (1, sampleEntry)))).insert 2 (.scalar (constInt sampleGet))

lemma eq_of_lookup_singleton {α : Type} {k n : Int} {a b : α}
    (h : (AList.singleton k a : AList fun _ : Int => α).lookup n = some b) : b = a := by
  have hmem := AList.mem_lookup_iff.mp h
  rw [AList.singleton_entries, List.mem_singleton] at hmem
  cases hmem
  rfl

lemma sampleGroup_lookup {objNo : Int} {obj : Object Unit}
    (h : sampleGroup.lookup objNo = some obj) :
    obj = .scalar (constInt sampleGet) ∨ obj = .table (some (1, sampleEntry)) := by
  by_cases h2 : objNo = 2
  · subst h2
    rw [sampleGroup, AList.lookup_insert] at h
    exact .inl (Option.some.inj h).symm
  · rw [sampleGroup, AList.lookup_insert_ne h2] at h
    exact .inr (eq_of_lookup_singleton h)

lemma sampleGroup_wellFormed : sampleGroup.WellFormed := by
  intro objNo entry h
  rcases sampleGroup_lookup h with h | h
  · cases h
  · cases h
    exact ⟨1, sampleEntry, [[3, 1]], rfl, .keys (by decide)⟩

lemma sampleGroup_readable : AllReadable sampleGroup := by
  have hread : ∀ inst, Readable (constInt sampleGet) inst := fun inst =>
    ⟨by decide, fun s => ⟨.num 7, none, s, rfl, by decide, ⟨asn1TagInt, _, rfl, rfl⟩⟩⟩
  intro oid v inst hinst
  cases hinst with
  | scalar hobj =>
    rcases sampleGroup_lookup hobj with h | h
    · cases h
      exact hread none
    · cases h
  | @column _ _ varNo e _ _ ids hobj hvar _ _ =>
    rcases sampleGroup_lookup hobj with h | h
    · cases h
    · cases h
      rw [eq_of_lookup_singleton hvar]
      exact hread _

/-- Behind the last instance of the table comes the scalar. -/
theorem mibNodeSearch_getNext_successor_sample :
    ∃ result s', mibNodeSearch sampleGroup "sample" 1 .getNext [1, 1, 1, 3] .nil none () =
        .ok result s' ∧ IsSuccessor sampleGroup [1, 1, 1, 3] () result s' :=
  mibNodeSearch_getNext_successor sampleGroup_wellFormed sampleGroup_readable "sample" 0
    [1, 1, 1, 3] .nil none ()

example : mibNodeSearch sampleGroup "sample" 1 .getNext [1, 1, 1, 3] .nil none () =
    .ok ⟨0, [2, 0], .num 7, some asn1TagInt⟩ () := by rfl

end Lua

end SmartSnmp
