import Mathlib.Data.Set.Finite.Lattice
import SmartSnmp.Lib.Jump
import SmartSnmp.Lua.Objects
import SmartSnmp.Lua.Successor

/-!
# GETNEXT over absent instances

An instance is absent if its `get_f` returns nil or its variable cannot be accessed. Behind an
absent instance of a table the handler of GETNEXT adds one to the number of the column, sets the
first index component to zero and searches again: so it leaves out the rest of the column, and in
the next one whatever is not above that OID.
-/

namespace SmartSnmp

namespace Lua

open Product Jump

section Sparse

variable {σ : Type} {group : Group σ} {name : String}

/-- `get_f` of each instance returns, and with a value exactly for those that are present. -/
structure Presence (group : Group σ) (present : Set (List Int)) : Prop where
  readable : ∀ oid v inst, InstanceAt group oid v inst → oid ∈ present → Readable v inst
  absent : ∀ oid v inst, InstanceAt group oid v inst → oid ∉ present →
    ∀ s, ∃ val errStat s', v.getF inst s = .ok (val, errStat) s' ∧
      (val = .nil ∨ v.tag = none ∨ v.access = .una)

/-- Where the search goes on behind an absent instance. -/
def behind (oid : List Int) : List Int :=
  if oid.length = 2 then oid else (oid.modify 2 (· + 1)).set 3 0

lemma behind_column (objNo entryNo varNo : Int) (ids : List Int) (hids : ids ≠ []) :
    behind (objNo :: entryNo :: varNo :: ids) = objNo :: entryNo :: (varNo + 1) :: ids.set 0 0 := by
  cases ids with
  | nil => exact absurd rfl hids
  | cons id ids => simp [behind]

lemma InstanceAt.le_behind {oid : List Int} {v : Variable σ} {inst : Option InstNo}
    (h : InstanceAt group oid v inst) : oid ≤ behind oid := by
  cases h with
  | scalar _ => exact le_rfl
  | @column objNo entryNo varNo e v lists ids _ _ hlists hids =>
    have hne : ids ≠ [] := by
      rw [← List.length_pos_iff, List.Forall₂.length_eq hids]
      exact List.length_pos_iff.mpr hlists.ne_nil
    rw [behind_column objNo entryNo varNo ids hne]
    apply List.cons_le_cons
    apply List.cons_le_cons
    exact (List.cons_lt_cons_iff.mpr (.inl (by omega))).le

lemma le_behind : ∀ oid ∈ instances group, oid ≤ behind oid := by
  rintro oid ⟨v, inst, h⟩
  exact h.le_behind

/-! ### The instances are finite -/

lemma members_finite (D : List (List Int)) : (members D).Finite := by
  induction D with
  | nil =>
    refine (Set.finite_singleton []).subset fun oid hoid => ?_
    exact mem_members_nil.mp hoid
  | cons d D ih =>
    have hd : {y | y ∈ d}.Finite := d.finite_toSet
    refine (hd.biUnion fun y _ => ih.image (y :: ·)).subset fun oid hoid => ?_
    obtain ⟨y, hy, ys, hys, rfl⟩ := mem_members_cons.mp hoid
    exact Set.mem_biUnion hy ⟨ys, hys, rfl⟩

lemma Covering.finite {tab : List IndexTable} (h : Covering group tab) :
    (instances group).Finite := by
  have htable : ∀ it ∈ tab,
      {oid | oid ∈ instances group ∧ ∃ n ∈ it.objNos, oid.head? = some n}.Finite := by
    intro it hit
    obtain ⟨D, -, -, hmembers⟩ := h.covers it hit
    refine (members_finite (it.objNos :: D)).subset fun oid hoid => ?_
    exact (hmembers oid).mpr hoid
  have htab : {it | it ∈ tab}.Finite := tab.finite_toSet
  refine (htab.biUnion htable).subset fun oid hoid => ?_
  obtain ⟨n, hn, hhead⟩ := h.all oid hoid
  obtain ⟨it, hit, hn⟩ := List.mem_flatMap.mp hn
  exact Set.mem_biUnion hit ⟨hoid, n, hn, hhead⟩

/-! ### The loop -/

/-- Above an OID that is found in a table nothing is in the tables before. -/
lemma aboveIn_rest {before rest : List IndexTable}
    (hasc : ((before ++ rest).flatMap (·.objNos)).Pairwise (· < ·)) {oid q : List Int} {n : Int}
    (hn : n ∈ rest.flatMap (·.objNos)) (hoid : oid.head? = some n) (hle : oid ≤ q) :
    aboveIn group rest q = aboveIn group (before ++ rest) q := by
  rw [List.flatMap_append] at hasc
  obtain ⟨-, -, hlt⟩ := List.pairwise_append.mp hasc
  ext y
  constructor
  · rintro ⟨⟨hy, m, hm, hhead⟩, hq⟩
    refine ⟨⟨hy, m, ?_, hhead⟩, hq⟩
    rw [List.flatMap_append]
    exact List.mem_append_right _ hm
  · rintro ⟨⟨hy, m, hm, hhead⟩, hq⟩
    rw [List.flatMap_append] at hm
    rcases List.mem_append.mp hm with hm | hm
    · have hyo : y < oid := lt_of_head_lt hoid fun x hx => by
        rw [hhead] at hx
        obtain rfl : m = x := Option.some.inj hx
        exact hlt m hm n hn
      exact absurd (hq.trans hyo) (not_lt.mpr hle)
    · exact ⟨⟨hy, m, hm, hhead⟩, hq⟩

lemma aboveIn_of_le {tab : List IndexTable} {req q : List Int}
    (hall : aboveIn group tab req = Lua.above group req) (hle : req ≤ q) :
    aboveIn group tab q = Lua.above group q := by
  ext y
  constructor
  · rintro ⟨⟨hy, -⟩, hq⟩
    exact ⟨hy, hq⟩
  · rintro ⟨hy, hq⟩
    have hmem : y ∈ aboveIn group tab req := hall ▸ ⟨hy, hle.trans_lt hq⟩
    exact ⟨hmem.1, hq⟩

/-- An absent instance is left out. -/
lemma getnextLoop_absent (fuel : Nat) {tab rest : List IndexTable} {req oid : List Int}
    (hfound : searchTables tab req = .ok (some (oid, rest))) {v : Variable σ}
    {inst : Option InstNo} (hinst : InstanceAt group oid v inst) {s s' : σ} {val : LuaValue}
    {errStat : Option Int} (hget : v.getF inst s = .ok (val, errStat) s')
    (hleft : val = .nil ∨ v.tag = none ∨ v.access = .una) :
    getnextLoop group name (fuel + 1) tab req s = getnextLoop group name fuel rest (behind oid) s' := by
  rw [getnextLoop_instance name fuel hfound hinst hget, if_pos hleft]
  rfl

/-- The loop searches with jumps behind the absent instances. It ends, as each of its rounds has
fewer instances above it. -/
lemma getnextLoop_reaches (name : String) {present : Set (List Int)}
    (hp : Presence group present) (hfin : (instances group).Finite) {fuel : Nat} {tab : List IndexTable}
    (hcovers : ∀ it ∈ tab, Covers group it) (hasc : (tab.flatMap (·.objNos)).Pairwise (· < ·))
    {req : List Int} (hall : aboveIn group tab req = Lua.above group req)
    (hfuel : (Jump.above (instances group) req).ncard < fuel) (s : σ) :
    ∃ found s', getnextLoop group name fuel tab req s = .ok found s' ∧
      Reaches (instances group) present behind req (found.map Prod.fst) ∧
      ∀ f ∈ found, HasTagType f.2.2.1 f.2.1.tag := by
  induction fuel generalizing tab req s with
  | zero => exact absurd hfuel (Nat.not_lt_zero _)
  | succ fuel ih =>
    obtain ⟨found, hfound, hleast⟩ := searchTables_least hcovers hasc req
    rw [hall] at hleast
    cases found with
    | none =>
      refine ⟨none, s, ?_, .exhausted hleast, by simp⟩
      rw [getnextLoop, hfound]
      rfl
    | some found =>
      obtain ⟨oid, rest⟩ := found
      have hoid : IsLeast (Jump.above (instances group) req) oid := hleast
      obtain ⟨v, inst, hinst⟩ := hoid.1.1
      by_cases hpresent : oid ∈ present
      · have hv := hp.readable oid v inst hinst hpresent
        obtain ⟨val, errStat, s', hget, hval, htype⟩ := hv.value s
        have htag : v.tag ≠ none := by
          obtain ⟨tag, text, htag, -⟩ := htype
          rw [htag]
          exact Option.some_ne_none tag
        refine ⟨_, s', getnextLoop_found name fuel hfound hinst hv.accessible hget hval htag,
          .wanted hoid hpresent, ?_⟩
        intro f hf
        rw [← Option.some.inj hf]
        exact htype
      · obtain ⟨val, errStat, s', hget, hleft⟩ := hp.absent oid v inst hinst hpresent s
        obtain ⟨before, it, after, rfl, rfl, es, hes, hflat⟩ := searchTables_members hfound
        obtain ⟨n, hn, ids, -, hcons⟩ := flat_cons_nums hes
        have hle : oid ≤ behind oid := hinst.le_behind
        have hhead : oid.head? = some n := by rw [hflat, hcons]; rfl
        have hnrest : n ∈ (it :: after).flatMap (·.objNos) :=
          List.mem_flatMap.mpr ⟨it, List.mem_cons_self, hn⟩
        have hrest : aboveIn group (it :: after) (behind oid) = Lua.above group (behind oid) := by
          rw [aboveIn_rest hasc hnrest hhead hle]
          exact aboveIn_of_le hall (hoid.1.2.le.trans hle)
        have hasc' : ((it :: after).flatMap (·.objNos)).Pairwise (· < ·) := by
          rw [List.flatMap_append] at hasc
          exact (List.pairwise_append.mp hasc).2.1
        have hfewer := ncard_above_lt hfin hoid.1 hle
        obtain ⟨found, s'', hloop, hreaches, htype⟩ :=
          ih (fun w hw => hcovers w (List.mem_append_right before hw)) hasc' hrest (by omega) s'
        refine ⟨found, s'', ?_, .jumps hoid hpresent hreaches, htype⟩
        rw [getnextLoop_absent fuel hfound hinst hget hleft, hloop]

/-! ### The handler -/

/-- The present instances above a request. -/
def presentAbove (group : Group σ) (present : Set (List Int)) (req : List Int) : Set (List Int) :=
  Jump.above (instances group ∩ present) req

/-- The handler returns the least present instance above the request, and `NO_SUCH_OBJ` if and only
if there is none. -/
structure AnswersPresent (group : Group σ) (present : Set (List Int)) (req : List Int)
    (result : Result) : Prop where
  noSuchObj : result.valType = some asn1TagNoSuchObj ↔ presentAbove group present req = ∅
  least : (presentAbove group present req).Nonempty →
    IsLeast (presentAbove group present req) result.subOid

lemma answersPresent_iff_none {present : Set (List Int)} {req : List Int} {result : Result}
    (h : result.valType = some asn1TagNoSuchObj) :
    AnswersPresent group present req result ↔ Finds (presentAbove group present req) none := by
  constructor
  · exact fun hanswer => hanswer.noSuchObj.mp h
  · intro hempty
    have hnone : presentAbove group present req = ∅ := hempty
    refine ⟨iff_of_true h hnone, fun hne => ?_⟩
    rw [hnone] at hne
    exact absurd hne Set.not_nonempty_empty

lemma answersPresent_iff_some {present : Set (List Int)} {req : List Int} {result : Result}
    (h : result.valType ≠ some asn1TagNoSuchObj) :
    AnswersPresent group present req result ↔
      Finds (presentAbove group present req) (some result.subOid) := by
  constructor
  · intro hanswer
    apply hanswer.least
    rw [Set.nonempty_iff_ne_empty]
    exact fun hempty => h (hanswer.noSuchObj.mpr hempty)
  · intro hleast
    have hleast' : IsLeast (presentAbove group present req) result.subOid := hleast
    have hne : presentAbove group present req ≠ ∅ :=
      Set.nonempty_iff_ne_empty.mp ⟨_, hleast'.1⟩
    exact ⟨iff_of_false h hne, fun _ => hleast'⟩

/-- The handler of GETNEXT ends, and its answer is right exactly if no jump from an absent instance
that it meets passes over a present one. -/
lemma mibNodeSearch_getNext_present_iff (hg : group.WellFormed) {present : Set (List Int)}
    (hp : Presence group present) (name : String) (req : List Int) :
    ∃ rounds, ∀ fuel ≥ rounds, ∀ val valType s, ∃ result s',
      mibNodeSearch group name fuel .getNext req val valType s = .ok result s' ∧
        (AnswersPresent group present req result ↔
          NothingSkipped (instances group) present behind req) := by
  obtain ⟨tab, hgen, htab⟩ := groupIndexTableGenerator_covering hg name
  refine ⟨(Jump.above (instances group) req).ncard + 1, fun fuel hfuel val valType s => ?_⟩
  obtain ⟨found, s', hloop, hreaches, htype⟩ := getnextLoop_reaches name hp htab.finite htab.covers
    htab.ascending (htab.aboveIn_eq req) hfuel s
  have hiff := hreaches.finds_iff le_behind
  have hrun : mibNodeSearch group name fuel .getNext req val valType s =
      handleGetnext group name fuel tab req s := by
    rw [mibNodeSearch, hgen, ofExcept_ok_bind]
  rw [hrun, handleGetnext, bind_ok hloop]
  rcases found with _ | ⟨rsp, v, val, errStat⟩
  · refine ⟨⟨errStatNoErr, [], .nil, some asn1TagNoSuchObj⟩, s', rfl, ?_⟩
    rw [answersPresent_iff_none rfl]
    exact hiff
  · have hval : HasTagType val v.tag := htype _ rfl
    have htag : v.tag ≠ some asn1TagNoSuchObj := hval.tag_ne_noSuchObj
    refine ⟨⟨errStat.getD errStatNoErr, rsp, val, v.tag⟩, s', ?_, ?_⟩
    · show answer name rsp val v.tag errStat s' = _
      rw [answer, returnValueCheck_ok hval, ofExcept_ok_bind]
      rfl
    · rw [answersPresent_iff_some htag]
      exact hiff

/-! ### All requests -/

/-- Between a number and the one before it there is no other one of their length. -/
lemma length_ne_of_between {a y : List Int} {k : Int} (hlow : a ++ [k - 1] < y)
    (hhigh : y < a ++ [k]) : y.length ≠ a.length + 1 := by
  induction a generalizing y with
  | nil =>
    intro hlen
    obtain ⟨z, rfl⟩ := List.length_eq_one_iff.mp hlen
    rw [List.nil_append, List.cons_lt_cons_iff] at hlow hhigh
    have hnil : ¬ ([] : List Int) < [] := List.not_lt_nil []
    have hlow' := hlow.resolve_right fun h => hnil h.2
    have hhigh' := hhigh.resolve_right fun h => hnil h.2
    omega
  | cons b a ih =>
    intro hlen
    obtain ⟨c, y, rfl⟩ := List.exists_cons_of_length_eq_add_one hlen
    rw [List.cons_append, List.cons_lt_cons_iff] at hlow hhigh
    rcases hlow with hlow | ⟨rfl, hlow⟩
    · rcases hhigh with hhigh | ⟨rfl, -⟩
      · omega
      · omega
    · have hhigh' := hhigh.resolve_left (lt_irrefl b)
      exact ih hlow hhigh'.2 (by simpa using hlen)

/-- The instances of an object have OIDs of one length. -/
lemma InstanceAt.length_eq {a b : List Int} {v w : Variable σ} {i j : Option InstNo}
    (ha : InstanceAt group a v i) (hb : InstanceAt group b w j) (hhead : a.head? = b.head?) :
    a.length = b.length := by
  cases ha with
  | scalar hobj =>
    cases hb with
    | scalar _ => rfl
    | column hobj' _ _ _ =>
      obtain rfl := Option.some.inj hhead
      rw [hobj] at hobj'
      cases hobj'
  | column hobj _ hlists hids =>
    cases hb with
    | scalar hobj' =>
      obtain rfl := Option.some.inj hhead
      rw [hobj] at hobj'
      cases hobj'
    | column hobj' _ hlists' hids' =>
      obtain rfl := Option.some.inj hhead
      rw [hobj] at hobj'
      cases hobj'
      obtain rfl := hlists.unique hlists'
      simp [List.Forall₂.length_eq hids, List.Forall₂.length_eq hids']

lemma InstanceAt.two_le_length {oid : List Int} {v : Variable σ} {inst : Option InstNo}
    (h : InstanceAt group oid v inst) : 2 ≤ oid.length := by
  cases h with
  | scalar _ => exact le_rfl
  | column _ _ _ _ => simp

/-- Each instance is the least one above some request. -/
lemma exists_isLeast_above {x : List Int} (hx : x ∈ instances group) :
    ∃ q, IsLeast (Jump.above (instances group) q) x := by
  obtain ⟨v, inst, hinst⟩ := hx
  have hlen := hinst.two_le_length
  rcases x.eq_nil_or_concat' with rfl | ⟨a, k, rfl⟩
  · simp at hlen
  cases a with
  | nil => simp at hlen
  | cons b a =>
    have hbelow : b :: a ++ [k - 1] < b :: a ++ [k] :=
      List.append_left_lt (List.cons_lt_cons_iff.mpr (.inl (by omega)))
    refine ⟨b :: a ++ [k - 1], ⟨⟨v, inst, hinst⟩, hbelow⟩, fun y hy => ?_⟩
    obtain ⟨⟨w, j, hw⟩, hlow⟩ := hy
    by_contra hle
    have hhigh : y < b :: a ++ [k] := not_le.mp hle
    have hhead : y.head? = some b := by
      cases y with
      | nil => exact absurd hlow (List.not_lt_nil _)
      | cons c y =>
        rw [List.cons_append, List.cons_lt_cons_iff] at hlow hhigh
        have hcb : c = b := by omega
        rw [hcb]
        rfl
    exact length_ne_of_between hlow hhigh (by simpa using hw.length_eq hinst hhead)

/-- The handler of GETNEXT ends for every request, and its answer is right exactly if no jump from an
absent instance that it meets passes over a present one. It is right for all requests exactly if no
present instance lies between an absent one and the OID behind it. -/
theorem mibNodeSearch_getNext_sparse_iff (hg : group.WellFormed) {present : Set (List Int)}
    (hp : Presence group present) (name : String) :
    (∀ req, ∃ rounds, ∀ fuel ≥ rounds, ∀ val valType s, ∃ result s',
      mibNodeSearch group name fuel .getNext req val valType s = .ok result s' ∧
        (AnswersPresent group present req result ↔
          NothingSkipped (instances group) present behind req)) ∧
    ((∀ req, NothingSkipped (instances group) present behind req) ↔
      ∀ x ∈ instances group, x ∉ present → ∀ y ∈ instances group ∩ present,
        ¬ (x < y ∧ y ≤ behind x)) :=
  ⟨mibNodeSearch_getNext_present_iff hg hp name,
    forall_nothingSkipped_iff fun _ hx => exists_isLeast_above hx⟩

end Sparse

/-! ### A table whose first instance is absent -/

/-- Nothing for the index one, seven for the others. -/
def sparseGet : Option InstNo → LuaM Unit (LuaValue × Option Int) := fun inst =>
  pure (if inst = some (.num 1) then .nil else .num 7, none)

def sparseEntry : Entry Unit where
  columns := AList.singleton 1 (constInt sparseGet)
  indexes := .keys ([1, 2].map .num)

def sparseGroup : Group Unit := AList.singleton 1 (.table (some (1, sparseEntry)))

lemma sparseEntry_lists : sparseEntry.indexes.Lists [[1, 2]] := .keys (by decide)

lemma sparseGroup_wellFormed : sparseGroup.WellFormed := by
  intro objNo entry h
  cases eq_of_lookup_singleton h
  exact ⟨1, sparseEntry, [[1, 2]], rfl, sparseEntry_lists⟩

lemma key_of_lookup_singleton {α : Type} {k n : Int} {a b : α}
    (h : (AList.singleton k a : AList fun _ : Int => α).lookup n = some b) : n = k := by
  have hmem := AList.mem_lookup_iff.mp h
  rw [AList.singleton_entries, List.mem_singleton] at hmem
  cases hmem
  rfl

/-- Its instances. -/
lemma sparseGroup_instanceAt {oid : List Int} {v : Variable Unit} {inst : Option InstNo}
    (h : InstanceAt sparseGroup oid v inst) : v = constInt sparseGet ∧
      (oid = [1, 1, 1, 1] ∧ inst = some (.num 1) ∨ oid = [1, 1, 1, 2] ∧ inst = some (.num 2)) := by
  cases h with
  | scalar hobj => cases eq_of_lookup_singleton hobj
  | column hobj hvar hlists hids =>
    cases key_of_lookup_singleton hobj
    cases eq_of_lookup_singleton hobj
    cases key_of_lookup_singleton hvar
    cases hlists.unique sparseEntry_lists
    refine ⟨eq_of_lookup_singleton hvar, ?_⟩
    obtain ⟨y, hy, ys, hys, rfl⟩ := mem_members_cons.mp hids
    cases mem_members_nil.mp hys
    rcases List.mem_cons.mp hy with rfl | hy
    · exact .inl ⟨rfl, rfl⟩
    · cases List.mem_singleton.mp hy
      exact .inr ⟨rfl, rfl⟩

lemma sparseGroup_presence : Presence sparseGroup {[1, 1, 1, 2]} := by
  constructor
  · intro oid v inst hinst hoid
    obtain ⟨rfl, ⟨rfl, -⟩ | ⟨rfl, rfl⟩⟩ := sparseGroup_instanceAt hinst
    · exact absurd hoid (by simp)
    · exact ⟨by decide, fun s => ⟨.num 7, none, s, rfl, by decide, ⟨asn1TagInt, _, rfl, rfl⟩⟩⟩
  · intro oid v inst hinst hoid s
    obtain ⟨rfl, ⟨rfl, rfl⟩ | ⟨rfl, -⟩⟩ := sparseGroup_instanceAt hinst
    · exact ⟨.nil, none, s, rfl, .inl rfl⟩
    · exact absurd rfl hoid

theorem mibNodeSearch_getNext_sparse_iff_first :
    (∀ req, ∃ rounds, ∀ fuel ≥ rounds, ∀ val valType s, ∃ result s',
      mibNodeSearch sparseGroup "sparse" fuel .getNext req val valType s = .ok result s' ∧
        (AnswersPresent sparseGroup {[1, 1, 1, 2]} req result ↔
          NothingSkipped (instances sparseGroup) {[1, 1, 1, 2]} behind req)) ∧
    ((∀ req, NothingSkipped (instances sparseGroup) {[1, 1, 1, 2]} behind req) ↔
      ∀ x ∈ instances sparseGroup, x ∉ ({[1, 1, 1, 2]} : Set (List Int)) →
        ∀ y ∈ instances sparseGroup ∩ {[1, 1, 1, 2]}, ¬ (x < y ∧ y ≤ behind x)) :=
  mibNodeSearch_getNext_sparse_iff sparseGroup_wellFormed sparseGroup_presence "sparse"

/-- From the start of the group GETNEXT finds nothing, as it goes from the first instance to the next
column. -/
theorem mibNodeSearch_getNext_skips : Presence sparseGroup {[1, 1, 1, 2]} ∧
    ∃ result, (∀ fuel, mibNodeSearch sparseGroup "sparse" (fuel + 2) .getNext [] .nil none () =
      .ok result ()) ∧ ¬ AnswersPresent sparseGroup {[1, 1, 1, 2]} [] result := by
  refine ⟨sparseGroup_presence, ⟨0, [], .nil, some asn1TagNoSuchObj⟩, fun fuel => rfl, fun h => ?_⟩
  have hempty := h.noSuchObj.mp rfl
  have hids : ([2] : List Int) ∈ members [[1, 2]] :=
    mem_members_cons.mpr ⟨2, by decide, [], mem_members_nil.mpr rfl, rfl⟩
  have hinst : InstanceAt sparseGroup [1, 1, 1, 2] (constInt sparseGet) (some (.ofIds [2])) :=
    .column rfl rfl sparseEntry_lists hids
  have hmem : [1, 1, 1, 2] ∈ presentAbove sparseGroup {[1, 1, 1, 2]} [] :=
    ⟨⟨⟨_, _, hinst⟩, rfl⟩, List.nil_lt_cons _ _⟩
  rw [hempty] at hmem
  exact Set.notMem_empty _ hmem

end Lua

end SmartSnmp
