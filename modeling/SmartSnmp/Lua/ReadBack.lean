import SmartSnmp.Lua.Callbacks
import SmartSnmp.Lua.Objects
import SmartSnmp.Lua.Successor

/-!
# GET reads back what GETNEXT answers

GET looks an instance up in the group, GETNEXT takes it from the index tables. In a group with
indexes of any kind whose methods `get_f` have no side effects, GET answers the OIDs that GETNEXT
returns as GETNEXT did.
-/

namespace SmartSnmp

namespace Lua

open Product

section ReadBack

variable {σ : Type} {group : Group σ} {name : String}

/-- The variables of a group. -/
inductive VariableIn (group : Group σ) : Variable σ → Prop
  | scalar {objNo : Int} {v : Variable σ} : group.lookup objNo = some (.scalar v) →
      VariableIn group v
  | column {objNo entryNo varNo : Int} {e : Entry σ} {v : Variable σ} :
      group.lookup objNo = some (.table (some (entryNo, e))) →
      e.columns.lookup varNo = some v → VariableIn group v

/-- The methods `get_f` leave the state alone, however they end. -/
def SideEffectFree (group : Group σ) : Prop :=
  ∀ v, VariableIn group v → ∀ inst s, finalState (v.getF inst s) = s

lemma scalarAt_eq_some {objNo : Int} {v : Variable σ} (h : scalarAt group objNo = some v) :
    group.lookup objNo = some (.scalar v) := by
  rw [scalarAt] at h
  cases hobj : group.lookup objNo with
  | none =>
    rw [hobj] at h
    cases h
  | some obj =>
    rw [hobj] at h
    cases obj with
    | scalar w =>
      cases h
      rfl
    | table entry => cases h

lemma variableAt_eq_some {oid : List Int} {v : Variable σ} (h : variableAt group oid = some v) :
    ∃ objNo entryNo varNo ids e, oid = objNo :: entryNo :: varNo :: ids ∧
      group.lookup objNo = some (.table (some (entryNo, e))) ∧
        e.columns.lookup varNo = some v := by
  rcases oid with _ | ⟨objNo, _ | ⟨entryNo, _ | ⟨varNo, ids⟩⟩⟩
  · cases h
  · cases h
  · cases h
  rw [variableAt] at h
  cases hobj : group.lookup objNo with
  | none =>
    rw [hobj] at h
    cases h
  | some obj =>
    rw [hobj] at h
    rcases obj with w | _ | ⟨no, e⟩
    · cases h
    · cases h
    · by_cases hno : entryNo = no
      · subst hno
        simp only [if_true] at h
        exact ⟨objNo, entryNo, varNo, ids, e, rfl, hobj, h⟩
      · simp only [if_neg hno] at h
        cases h

/-! ### What the loop of GETNEXT finds -/

/-- The instance with this OID, as the handlers look it up. -/
inductive LooksUp (group : Group σ) (oid : List Int) : Variable σ → Option InstNo → Prop
  | scalar {v : Variable σ} : oid.length = 2 → oid.head?.bind (scalarAt group) = some v →
      LooksUp group oid v none
  | column {v : Variable σ} : 4 ≤ oid.length → variableAt group oid = some v →
      LooksUp group oid v (some (instNo oid))

lemma LooksUp.variableIn {oid : List Int} {v : Variable σ} {inst : Option InstNo}
    (h : LooksUp group oid v inst) : VariableIn group v := by
  cases h with
  | scalar _ hv =>
    obtain ⟨objNo, -, hv⟩ := Option.bind_eq_some_iff.mp hv
    exact .scalar (scalarAt_eq_some hv)
  | column _ hv =>
    obtain ⟨_, _, _, _, e, -, hobj, hvar⟩ := variableAt_eq_some hv
    exact .column hobj hvar

/-- What the loop returns: an instance with its value, in the state of the call. -/
structure Answered (group : Group σ) (tab : List IndexTable) (s : σ) (rsp : List Int)
    (v : Variable σ) (val : LuaValue) (errStat : Option Int) : Prop where
  member : ∃ it ∈ tab, ∃ es ∈ members it.all, rsp = flat es
  value : ∃ inst, LooksUp group rsp v inst ∧ v.getF inst s = .ok (val, errStat) s
  present : ¬ (val = .nil ∨ v.tag = none ∨ v.access = .una)

lemma getF_state (hfree : SideEffectFree group) {v : Variable σ} (hv : VariableIn group v)
    {inst : Option InstNo} {s s' : σ} {r : LuaValue × Option Int}
    (h : v.getF inst s = .ok r s') : s' = s := by
  have hstate := hfree v hv inst s
  rwa [h] at hstate

/-- A step that calls `get_f`, and goes on if there is no value. -/
lemma getF_step (hfree : SideEffectFree group) {v : Variable σ} {inst : Option InstNo}
    (hv : VariableIn group v) {α : Type} {s s' : σ} {r : α}
    {f : LuaValue × Option Int → LuaM σ α} (h : (v.getF inst >>= f) s = .ok r s') :
    ∃ res, v.getF inst s = .ok res s ∧ f res s = .ok r s' := by
  cases hget : v.getF inst s with
  | error err s₁ =>
    simp only [bind, EStateM.bind, hget] at h
    cases h
  | ok res s₁ =>
    obtain rfl := getF_state hfree hv hget
    rw [bind_ok hget] at h
    exact ⟨res, rfl, h⟩

/-- What the loop does with an instance it looks up: with a value it ends, without one it goes on. -/
lemma getnextLoop_value (hfree : SideEffectFree group) {fuel : Nat} {rest : List IndexTable}
    {oid next rsp : List Int} {v w : Variable σ} {inst : Option InstNo} {val : LuaValue}
    {errStat : Option Int} {s s' : σ} (hlooks : LooksUp group oid w inst)
    (h : (do
      let (val, errStat) ← w.getF inst
      if val = .nil ∨ w.tag = none ∨ w.access = .una then getnextLoop group name fuel rest next
      else pure (some (oid, w, val, errStat)) :
        LuaM σ (Option (List Int × Variable σ × LuaValue × Option Int))) s =
      .ok (some (rsp, v, val, errStat)) s') :
    getnextLoop group name fuel rest next s = .ok (some (rsp, v, val, errStat)) s' ∨
      s' = s ∧ rsp = oid ∧ (∃ inst, LooksUp group oid v inst ∧ v.getF inst s = .ok (val, errStat) s) ∧
        ¬ (val = .nil ∨ v.tag = none ∨ v.access = .una) := by
  obtain ⟨⟨val', errStat'⟩, hget, h⟩ := getF_step hfree hlooks.variableIn h
  by_cases hleft : val' = .nil ∨ w.tag = none ∨ w.access = .una
  · simp only [if_pos hleft] at h
    exact .inl h
  · simp only [if_neg hleft] at h
    cases h
    exact .inr ⟨rfl, rfl, ⟨inst, hlooks, hget⟩, hleft⟩

lemma getnextLoop_answered (hfree : SideEffectFree group) {fuel : Nat} {all tab : List IndexTable}
    (hsub : tab ⊆ all) {oid rsp : List Int} {v : Variable σ} {val : LuaValue}
    {errStat : Option Int} {s s' : σ}
    (h : getnextLoop group name fuel tab oid s = .ok (some (rsp, v, val, errStat)) s') :
    s' = s ∧ Answered group all s rsp v val errStat := by
  induction fuel generalizing tab oid with
  | zero => cases h
  | succ fuel ih =>
    rw [getnextLoop] at h
    cases hsearch : searchTables tab oid with
    | error err =>
      rw [hsearch] at h
      cases h
    | ok found =>
      rw [hsearch, ofExcept_ok_bind] at h
      rcases found with _ | ⟨oid', rest⟩
      · cases h
      obtain ⟨before, it, after, rfl, hcons, hes⟩ := searchTables_members hsearch
      have hrest' : rest ⊆ all := fun w hw => hsub (List.mem_append_right before hw)
      have hmember : ∃ it ∈ all, ∃ es ∈ members it.all, oid' = flat es :=
        ⟨it, hrest' (hcons ▸ List.mem_cons_self), hes⟩
      by_cases htwo : oid'.length = 2
      · simp only [if_pos htwo] at h
        cases hv : oid'.head?.bind (scalarAt group) with
        | none =>
          rw [hv] at h
          cases h
        | some w =>
          simp only [hv] at h
          rcases getnextLoop_value hfree (.scalar htwo hv) h with h | ⟨rfl, rfl, hvalue, hpresent⟩
          · exact ih hrest' h
          · exact ⟨rfl, hmember, hvalue, hpresent⟩
      · simp only [if_neg htwo] at h
        by_cases hfour : 4 ≤ oid'.length
        · simp only [if_pos hfour] at h
          cases hv : variableAt group oid' with
          | none =>
            rw [hv] at h
            cases h
          | some w =>
            simp only [hv] at h
            rcases getnextLoop_value hfree (.column hfour hv) h with h | ⟨rfl, rfl, hvalue, hpresent⟩
            · exact ih hrest' h
            · exact ⟨rfl, hmember, hvalue, hpresent⟩
        · simp only [if_neg hfour] at h
          cases h

/-! ### The lookup of GET -/

lemma tableIndexes_dims {objNo entryNo : Int} {e : Entry σ} {it : IndexTable}
    (h : tableIndexes name objNo (some (entryNo, e)) = .ok it) :
    ∃ dims, it.dims = nums [entryNo] :: nums (sortNums e.columns.keys) :: dims := by
  rw [tableIndexes] at h
  cases hdims : indexDims name (name ++ "[" ++ toString objNo ++ "][" ++ toString entryNo ++ "]")
      e.indexes with
  | error err =>
    rw [hdims] at h
    cases h
  | ok dims =>
    rw [hdims] at h
    cases h
    exact ⟨dims, rfl⟩

/-- An instance has index components, so its table has four dimensions at least. -/
lemma length_all_of_member {objNo entryNo : Int} {e : Entry σ} {it : IndexTable}
    (h : tableIndexes name objNo (some (entryNo, e)) = .ok it) {es : List IndexElem}
    (hes : es ∈ members it.dims) (hlen : 3 ≤ (flat es).length) :
    ∃ m, it.all.length = m + 4 := by
  obtain ⟨dims, hdims⟩ := tableIndexes_dims h
  rw [hdims] at hes
  obtain ⟨_, -, es, hes, hflat⟩ := flat_cons_nums hes
  rw [hflat] at hlen
  obtain ⟨_, -, es, hes, hflat⟩ := flat_cons_nums hes
  rw [hflat] at hlen
  cases dims with
  | nil =>
    rw [mem_members_nil.mp hes] at hlen
    simp at hlen
  | cons d dims => exact ⟨dims.length, by simp [IndexTable.all, hdims]⟩

lemma ofIds_ne {ids : List Int} (h : ids ≠ []) : InstNo.ofIds ids ≠ .table [] := by
  rcases ids with _ | ⟨id, _ | ⟨id', ids⟩⟩
  · exact absurd rfl h
  · simp [InstNo.ofIds]
  · simp [InstNo.ofIds]

/-- GET finds the instances that GETNEXT returns. -/
lemma getTarget_answered {tab : List IndexTable} (htab : Described group name tab) {s : σ}
    {rsp : List Int} {v : Variable σ} {val : LuaValue} {errStat : Option Int}
    (h : Answered group tab s rsp v val errStat) :
    ∃ inst, getTarget group tab rsp = .ok (.ok (v, inst)) ∧
      v.getF inst s = .ok (val, errStat) s := by
  obtain ⟨it, hit, es, hes, rfl⟩ := h.member
  obtain ⟨n, hn, rest, hrest, hflat⟩ := flat_cons_nums hes
  obtain ⟨inst, hlooks, hget⟩ := h.value
  have haccess : v.access ≠ .una := fun hacc => h.present (.inr (.inr hacc))
  refine ⟨inst, ?_, hget⟩
  rw [hflat] at hlooks ⊢
  cases hlooks with
  | scalar hlen hv =>
    rw [List.head?_cons, Option.bind_some] at hv
    have hlookup := scalarAt_eq_some hv
    -- the table is a run of scalars, of which the second dimension is zero
    have hdims : it.dims = [[.num 0]] := by
      rw [(htab.describes it hit).of_scalar hn hlookup]
      rfl
    have hzero : flat rest = [0] := by
      rw [hdims] at hrest
      obtain ⟨z, hz, zs, hzs, rfl⟩ := mem_members_cons.mp hrest
      rw [mem_members_nil.mp hzs, List.mem_singleton.mp hz]
      rfl
    simp only [getTarget, List.head?_cons, Option.bind_some,
      htab.effectiveObjectIndex_scalar hlookup, hv, if_neg haccess, hzero]
    rfl
  | column hlen hv =>
    obtain ⟨_, entryNo, varNo, ids, e, hcons, hobj, hvar⟩ := variableAt_eq_some hv
    obtain ⟨rfl, hids⟩ := List.cons.inj hcons
    have hit' := (htab.describes it hit).of_table hn hobj
    have hlen' : 3 ≤ (flat rest).length := by simpa using hlen
    obtain ⟨m, hm⟩ := length_all_of_member hit' hrest hlen'
    have hinst : instNo (n :: flat rest) ≠ .table [] := by
      apply ofIds_ne
      rw [← List.length_pos_iff, List.length_drop, List.length_cons]
      omega
    simp only [getTarget, List.head?_cons, Option.bind_some,
      htab.effectiveObjectIndex_table hobj hit hn, hm, hv, if_neg haccess, if_neg hinst]

/-- GET answers as GETNEXT did, with the tags of values that are missing out of the way. -/
lemma handleGet_answered {tab : List IndexTable} (htab : Described group name tab) {s : σ}
    {rsp : List Int} {v : Variable σ} {val : LuaValue} {errStat : Option Int}
    (h : Answered group tab s rsp v val errStat) :
    handleGet group name tab rsp s = answer name rsp val v.tag errStat s := by
  obtain ⟨inst, htarget, hget⟩ := getTarget_answered htab h
  have hleft : ¬ (val = .nil ∨ v.tag = none) := fun hleft =>
    h.present (hleft.imp_right .inl)
  rw [handleGet, htarget, ofExcept_ok_bind]
  simp only [bind_ok hget, if_neg hleft]

lemma answer_ok {subOid : List Int} {val : LuaValue} {valType : Option UInt8}
    {errStat : Option Int} {s s' : σ} {result : Result}
    (h : answer name subOid val valType errStat s = .ok result s') :
    result.subOid = subOid ∧ s' = s := by
  rw [answer] at h
  cases hcheck : returnValueCheck name val valType with
  | error err =>
    rw [hcheck] at h
    cases h
  | ok _ =>
    rw [hcheck] at h
    cases h
    exact ⟨rfl, rfl⟩

/-- What GETNEXT answers with an OID, GET answers for that OID. -/
theorem mibNodeSearch_get_of_getNext (hfree : SideEffectFree group) {fuel : Nat} {req : List Int}
    {val : LuaValue} {valType : Option UInt8} {s s' : σ} {result : Result}
    (h : mibNodeSearch group name fuel .getNext req val valType s = .ok result s')
    (hne : result.subOid ≠ []) (fuel' : Nat) (val' : LuaValue) (valType' : Option UInt8) :
    mibNodeSearch group name fuel' .get result.subOid val' valType' s' = .ok result s' := by
  rw [mibNodeSearch] at h ⊢
  cases hgen : groupIndexTableGenerator group name with
  | error err =>
    rw [hgen] at h
    cases h
  | ok tab =>
    rw [hgen, ofExcept_ok_bind] at h
    simp only [handleGetnext] at h
    rw [ofExcept_ok_bind]
    cases hloop : getnextLoop group name fuel tab req s with
    | error err s₁ =>
      simp only [bind, EStateM.bind, hloop] at h
      cases h
    | ok found s₁ =>
      rw [bind_ok hloop] at h
      rcases found with _ | ⟨rsp, v, val₁, errStat⟩
      · cases h
        exact absurd rfl hne
      · obtain ⟨rfl, hanswered⟩ := getnextLoop_answered hfree (List.Subset.refl tab) hloop
        obtain ⟨hoid, rfl⟩ := answer_ok h
        rw [hoid]
        exact (handleGet_answered (groupIndexTableGenerator_described hgen) hanswered).trans h

end ReadBack

/-! ### A table with a long index -/

def longEntry : Entry Unit where
  columns := AList.singleton 1 (constInt sampleGet)
  indexes := .keys [.str ['7', '.', '1']]

def longGroup : Group Unit := AList.singleton 1 (.table (some (1, longEntry)))

lemma longGroup_sideEffectFree : SideEffectFree longGroup := by
  intro v hv inst s
  cases hv with
  | scalar hobj => cases eq_of_lookup_singleton hobj
  | column hobj hvar =>
    cases eq_of_lookup_singleton hobj
    rw [eq_of_lookup_singleton hvar]

theorem mibNodeSearch_get_of_getNext_long :
    mibNodeSearch longGroup "sample" 0 .get [1, 1, 1, 7, 1] .nil none () =
      .ok ⟨0, [1, 1, 1, 7, 1], .num 7, some asn1TagInt⟩ () :=
  mibNodeSearch_get_of_getNext longGroup_sideEffectFree
    (show mibNodeSearch longGroup "sample" 1 .getNext [1, 1, 1] .nil none () =
      .ok ⟨0, [1, 1, 1, 7, 1], .num 7, some asn1TagInt⟩ () by rfl) (by decide) 0 .nil none

end Lua

end SmartSnmp
