import SmartSnmp.Lua.ReadBack
import SmartSnmp.Lua.SetGet
import SmartSnmp.Lua.References
import SmartSnmp.Snmp.Readers
import SmartSnmp.Snmp.Walk

/-!
# Groups that serve a walk

The groups of a program are the handlers of the tree. If their methods `get_f` leave the state alone,
a request that does not set finds them in one state. Then GETNEXT is answered with the least instance
of a group above the suffix.
-/

namespace SmartSnmp

namespace Lua

open Product PrefixOrder MibNode

/-! ### Programs that leave the state alone -/

section Still

variable {σ α β : Type}

/-- The program leaves the state alone, however it ends. -/
def Still (m : LuaM σ α) : Prop := ∀ s, finalState (m s) = s

lemma still_pure (a : α) : Still (pure a : LuaM σ α) := fun _ => rfl

lemma still_throw (e : LuaError) : Still (throw e : LuaM σ α) := fun _ => rfl

lemma still_ofExcept (x : Except LuaError α) : Still (MonadExcept.ofExcept x : LuaM σ α) := by
  cases x with
  | error e => exact still_throw e
  | ok a => exact still_pure a

lemma bind_error {x : LuaM σ α} {s s' : σ} {e : LuaError} (h : x s = .error e s')
    (f : α → LuaM σ β) : (x >>= f) s = .error e s' := by
  simp only [bind, EStateM.bind, h]

lemma Still.bind {m : LuaM σ α} {f : α → LuaM σ β} (hm : Still m) (hf : ∀ a, Still (f a)) :
    Still (m >>= f) := by
  intro s
  have hs := hm s
  cases hrun : m s with
  | ok a s' =>
    rw [hrun] at hs
    obtain rfl : s' = s := hs
    rw [bind_ok hrun]
    exact hf a s'
  | error e s' =>
    rw [hrun] at hs
    rw [bind_error hrun]
    exact hs

variable {group : Group σ} (hfree : SideEffectFree group) (name : String)
include hfree

lemma still_getF {v : Variable σ} (hv : VariableIn group v) (inst : Option InstNo) :
    Still (v.getF inst) := hfree v hv inst

lemma still_getnextLoop (fuel : Nat) (tab : List IndexTable) (oid : List Int) :
    Still (getnextLoop group name fuel tab oid) := by
  induction fuel generalizing tab oid with
  | zero => exact still_throw _
  | succ fuel ih =>
    rw [getnextLoop]
    refine (still_ofExcept _).bind fun found => ?_
    rcases found with _ | ⟨rsp, rest⟩
    · exact still_pure none
    simp only
    split_ifs with htwo hfour
    · cases hv : rsp.head?.bind (scalarAt group) with
      | none => exact still_throw _
      | some v =>
        refine (still_getF hfree (LooksUp.scalar htwo hv).variableIn none).bind fun r => ?_
        split_ifs
        · exact ih rest rsp
        · exact still_pure _
    · cases hv : variableAt group rsp with
      | none => exact still_throw _
      | some v =>
        refine (still_getF hfree (LooksUp.column hfour hv).variableIn _).bind fun r => ?_
        split_ifs
        · exact ih rest _
        · exact still_pure _
    · exact still_throw _

omit hfree in
/-- What GET finds is a variable of the group, or the tag of an exception. -/
lemma getTarget_cases {tab : List IndexTable} {oid : List Int}
    {target : Except UInt8 (Variable σ × Option InstNo)} (h : getTarget group tab oid = .ok target) :
    (∃ v inst, target = .ok (v, inst) ∧ VariableIn group v) ∨
      ∃ tag, target = .error tag ∧ mibTagValid tag = false := by
  rw [getTarget] at h
  split at h
  · cases hv : oid.head?.bind (scalarAt group) with
    | none =>
      rw [hv] at h
      cases h
    | some v =>
      obtain ⟨objNo, -, hobj⟩ := Option.bind_eq_some_iff.mp hv
      simp only [hv] at h
      split_ifs at h <;> cases h
      · exact .inr ⟨_, rfl, rfl⟩
      · exact .inl ⟨v, none, rfl, .scalar (scalarAt_eq_some hobj)⟩
      · exact .inr ⟨_, rfl, rfl⟩
  · cases hv : variableAt group oid with
    | none =>
      rw [hv] at h
      cases h
      exact .inr ⟨_, rfl, rfl⟩
    | some v =>
      obtain ⟨objNo, entryNo, varNo, ids, e, -, hobj, hvar⟩ := variableAt_eq_some hv
      simp only [hv] at h
      split_ifs at h <;> cases h
      · exact .inr ⟨_, rfl, rfl⟩
      · exact .inr ⟨_, rfl, rfl⟩
      · exact .inl ⟨v, _, rfl, .column hobj hvar⟩
  · cases h
    exact .inr ⟨_, rfl, rfl⟩

lemma still_mibNodeSearch (fuel : Nat) {op : MibReq} (hop : op ≠ .set) (oid : List Int)
    (val : LuaValue) (valType : Option UInt8) :
    Still (mibNodeSearch group name fuel op oid val valType) := by
  have hanswer : ∀ subOid val valType errStat,
      Still (answer name subOid val valType errStat : LuaM σ Result) := by
    intro subOid val valType errStat
    exact (still_ofExcept _).bind fun _ => still_pure _
  refine (still_ofExcept _).bind fun tab => ?_
  cases op with
  | set => exact absurd rfl hop
  | get =>
    simp only [handleGet]
    cases htarget : getTarget group tab oid with
    | error e => exact still_throw e
    | ok target =>
      rw [ofExcept_ok_bind]
      obtain ⟨v, inst, rfl, hv⟩ | ⟨tag, rfl, -⟩ := getTarget_cases htarget
      · refine (still_getF hfree hv inst).bind fun r => ?_
        split_ifs
        · exact still_pure _
        · exact hanswer _ _ _ _
      · exact still_pure _
  | getNext =>
    refine (still_getnextLoop hfree name fuel tab oid).bind fun found => ?_
    rcases found with _ | ⟨rsp, v, val, errStat⟩
    · exact still_pure _
    · exact hanswer _ _ _ _

end Still

/-! ### Groups that can be served -/

/-- The value can be stored in the variable of a search, and a value that is an OID can be encoded. -/
def Storable (tag : UInt8) (val : LuaValue) : Prop :=
  ∃ len bytes, val.toVariable tag = some (len, bytes) ∧ bytes.length ≤ mibValueMaxLen ∧
    (tag = asn1TagObjid → ∀ oid, oidAt bytes len = some oid → EncodableOid oid)

section Groups

variable {σ : Type}

/-- What a group needs to be walked: its indexes and its numbers are in order, its methods `get_f` leave
the state alone, every instance can be read without an error, and the values of a variable that go with
its tag can be stored. -/
structure Group.Served (group : Group σ) : Prop where
  wellFormed : group.WellFormed
  sideEffectFree : SideEffectFree group
  readable : AllReadable group
  noError : ∀ oid v inst, InstanceAt group oid v inst → ∀ s val errStat s',
    v.getF inst s = .ok (val, errStat) s' → errStat.getD errStatNoErr = errStatNoErr
  storable : ∀ v, VariableIn group v → ∀ inst s val errStat s' tag,
    v.getF inst s = .ok (val, errStat) s' → v.tag = some tag → val ≠ .nil →
    HasTagType val (some tag) → Storable tag val
  numbers : ∀ oid ∈ instances group, ∀ id ∈ oid, 0 ≤ id ∧ id < 2 ^ 31

variable {group : Group σ}

lemma InstanceAt.variableIn {oid : List Int} {v : Variable σ} {inst : Option InstNo}
    (h : InstanceAt group oid v inst) : VariableIn group v := by
  cases h with
  | scalar hobj => exact .scalar hobj
  | column hobj hvar _ _ => exact .column hobj hvar

/-- The handler of GETNEXT answers with the least instance above the request, or with no instance. It
reads what it finds, so fuel for one round of its loop is enough. -/
lemma Group.Served.getNext (hg : group.Served) (name : String) (fuel : Nat) (req : List Int)
    (val : LuaValue) (valType : Option UInt8) (s : σ) :
    (above group req = ∅ ∧ mibNodeSearch group name (fuel + 1) .getNext req val valType s =
      .ok ⟨errStatNoErr, [], .nil, some asn1TagNoSuchObj⟩ s) ∨
    ∃ oid tag val', IsLeast (above group req) oid ∧ mibTagValid tag = true ∧ Storable tag val' ∧
      mibNodeSearch group name (fuel + 1) .getNext req val valType s =
        .ok ⟨errStatNoErr, oid, val', some tag⟩ s := by
  obtain ⟨tab, hgen, htab⟩ := groupIndexTableGenerator_covering hg.wellFormed name
  obtain ⟨found, hfound, hleast⟩ := searchTables_least htab.covers htab.ascending req
  rw [htab.aboveIn_eq] at hleast
  have hrun : mibNodeSearch group name (fuel + 1) .getNext req val valType s =
      handleGetnext group name (fuel + 1) tab req s := by
    rw [mibNodeSearch, hgen, ofExcept_ok_bind]
  rw [hrun, handleGetnext]
  rcases found with _ | ⟨oid, rest⟩
  · have hloop : getnextLoop group name (fuel + 1) tab req s = .ok none s := by
      rw [getnextLoop, hfound]
      rfl
    rw [bind_ok hloop]
    exact .inl ⟨hleast, rfl⟩
  · have hoid : IsLeast (above group req) oid := hleast
    obtain ⟨v, inst, hinst⟩ := hoid.1.1
    have hv := hg.readable oid v inst hinst
    obtain ⟨val', errStat, s', hget, hval, htype⟩ := hv.value s
    obtain rfl := getF_state hg.sideEffectFree hinst.variableIn hget
    have herr := hg.noError oid v inst hinst s' val' errStat s' hget
    obtain ⟨tag, text, htag, hmatch⟩ := id htype
    have hloop := getnextLoop_found name fuel hfound hinst hv.accessible hget hval
      (by rw [htag]; exact Option.some_ne_none tag)
    rw [bind_ok hloop]
    refine .inr ⟨oid, tag, val', hoid, mibTagValid_of_berTagMatch hmatch, ?_, ?_⟩
    · exact hg.storable v hinst.variableIn inst s' val' errStat s' tag hget htag hval (htag ▸ htype)
    · show answer name oid val' v.tag errStat s' = _
      rw [answer, returnValueCheck_ok htype, ofExcept_ok_bind, herr, htag]
      rfl

/-- A result without a value, or with one that can be stored. -/
lemma storable_replyOf {r : Result} {tag : UInt8} (htag : r.valType = some tag)
    (h : mibTagValid tag = true → Storable tag r.val) (s : σ) :
    (replyOf (.ok r s)).storable = true := by
  by_cases hvalid : mibTagValid tag = true
  · obtain ⟨len, bytes, hvar, hlen, -⟩ := h hvalid
    simp [replyOf, Reply.storable, htag, hvar, hlen]
  · simp [replyOf, Reply.storable, htag, hvalid]

/-- The reply to a call of GET can be stored, if it has a value. -/
lemma Group.Served.handleGet_storable (hg : group.Served) (name : String) (tab : List IndexTable)
    (oid : List Int) (s : σ) : (replyOf (handleGet group name tab oid s)).storable = true := by
  rw [handleGet]
  cases htarget : getTarget group tab oid with
  | error e => rfl
  | ok target =>
    rw [ofExcept_ok_bind]
    obtain ⟨v, inst, rfl, hv⟩ | ⟨tag, rfl, htag⟩ := getTarget_cases htarget
    · simp only
      cases hget : v.getF inst s with
      | error e s' =>
        rw [bind_error hget]
        rfl
      | ok r s' =>
        obtain ⟨val', errStat⟩ := r
        rw [bind_ok hget]
        by_cases hleft : val' = .nil ∨ v.tag = none
        · simp only [if_pos hleft]
          rfl
        · simp only [if_neg hleft]
          obtain ⟨hval, htag⟩ := not_or.mp hleft
          obtain ⟨tag, htag⟩ := Option.ne_none_iff_exists'.mp htag
          rw [answer, htag]
          by_cases htype : HasTagType val' (some tag)
          · rw [returnValueCheck_ok htype, ofExcept_ok_bind]
            exact storable_replyOf rfl
              (fun _ => hg.storable v hv inst s val' errStat s' tag hget htag hval htype) s'
          · obtain ⟨e, he⟩ := returnValueCheck_error name htype
            rw [he]
            rfl
    · refine storable_replyOf rfl (fun hvalid => ?_) s
      rw [htag] at hvalid
      cases hvalid

lemma Group.Served.get_storable (hg : group.Served) (name : String) (fuel : Nat) (oid : List Int)
    (val : LuaValue) (valType : Option UInt8) (s : σ) :
    (replyOf (mibNodeSearch group name fuel .get oid val valType s)).storable = true := by
  rw [mibNodeSearch]
  cases hgen : groupIndexTableGenerator group name with
  | error e => rfl
  | ok tab =>
    rw [ofExcept_ok_bind]
    exact hg.handleGet_storable name tab oid s

end Groups

/-! ### Their handlers -/

lemma idNumbers_lt_iff {x y : Oid} : idNumbers x < idNumbers y ↔ x < y := by
  refine map_lt_map_iff fun i j hij => ?_
  have hlt : i.toNat < j.toNat := UInt32.lt_iff_toNat_lt.mp hij
  simpa using hlt

lemma idNumbers_injective : Function.Injective idNumbers := by
  refine List.map_injective_iff.mpr fun i j hij => UInt32.toNat_inj.mp ?_
  simpa using hij

lemma idNumbers_toOid {ids : List Int} (h : ∀ id ∈ ids, 0 ≤ id ∧ id < 2 ^ 31) :
    idNumbers (toOid ids) = ids := by
  rw [idNumbers, toOid, List.map_map]
  conv_rhs => rw [← List.map_id ids]
  refine List.map_congr_left fun id hid => ?_
  obtain ⟨hpos, hlt⟩ := h id hid
  have hmod : id % 2 ^ 32 = id := Int.emod_eq_of_lt hpos (by omega)
  simp only [Function.comp_apply, hmod, id_eq]
  rw [UInt32.toNat_ofNat_of_lt' (by simp only [UInt32.size]; omega)]
  exact Int.toNat_of_nonneg hpos

section Registered

variable {σ : Type} (groups : Registered σ) (fuel : Nat)

/-- Each group that is registered can be served. -/
def Registered.Served : Prop := ∀ cb p, groups cb = some p → p.1.Served

/-- The instances of the groups, below the OIDs where they are registered. -/
def luaInstances (cb : Int) : Set Oid := {x | ∃ p, groups cb = some p ∧ idNumbers x ∈ instances p.1}

/-- The handlers of the groups in a state that they do not change. -/
def readHandlers (s : σ) : Handlers := fun _ call => replyOf (mibSearchHandler groups fuel call s)

/-- The instance that a reply returns. -/
def replyAnswer : Reply → Option Answer
  | .error => none
  | .results errStat subOid val tag =>
    if h : errStat = 0 ∧ mibTagValid tag = true then some ⟨subOid, val, tag, h.2⟩ else none

/-- The instances that GETNEXT finds in a state. -/
def luaFamily (s : σ) : HandlerFamily := fun cb suffix =>
  replyAnswer (readHandlers groups fuel s [] (getNextCall cb suffix))

variable {groups} (hg : Registered.Served groups)
include hg

/-- A history of calls that do not set leaves the state alone. -/
lemma stateAfter_reads (s : σ) {history : List Call} (h : ∀ c ∈ history, c.op ≠ .set) :
    stateAfter groups fuel s history = s := by
  induction history with
  | nil => rfl
  | cons c history ih =>
    obtain ⟨hc, hhistory⟩ := List.forall_mem_cons.mp h
    have hstill : finalState (mibSearchHandler groups fuel c s) = s := by
      rw [mibSearchHandler]
      cases hgroup : groups c.callback with
      | none => rfl
      | some p =>
        exact still_mibNodeSearch (hg c.callback p hgroup).sideEffectFree p.2 fuel hc _ _ _ s
    rw [stateAfter_cons, hstill]
    exact ih hhistory

/-- A request that does not set finds the groups in one state. -/
lemma sameReads_luaHandlers (s : σ) : SameReads (luaHandlers groups fuel s) (readHandlers groups fuel s) := by
  intro l c hl _
  rw [luaHandlers, readHandlers, stateAfter_reads fuel hg s hl]

/-- What the handlers reply to GETNEXT: no instance, or the least one above the suffix. -/
inductive NextReply (groups : Registered σ) (cb : Int) (suffix : Oid) : Reply → Prop
  | none {reply : Reply} : (∀ x ∈ luaInstances groups cb, ¬ suffix < x) →
      reply = .error ∨ reply = .results 0 [] .nil asn1TagNoSuchObj → NextReply groups cb suffix reply
  | some {a : Answer} : IsLeast {x | x ∈ luaInstances groups cb ∧ suffix < x} a.subOid →
      Storable a.tag a.val → NextReply groups cb suffix (.results 0 a.subOid a.val a.tag)

lemma nextReply_readHandlers (s : σ) (l : List Call) (cb : Int) (suffix : Oid) :
    NextReply groups cb suffix (readHandlers groups (fuel + 1) s l (getNextCall cb suffix)) := by
  rw [readHandlers, mibSearchHandler]
  cases hgroup : groups cb with
  | none =>
    simp only [getNextCall, hgroup]
    refine .none ?_ (.inl rfl)
    rintro x ⟨p, hp, -⟩
    rw [hgroup] at hp
    cases hp
  | some p =>
    have hp := hg cb p hgroup
    simp only [getNextCall, hgroup]
    rcases hp.getNext p.2 fuel (idNumbers suffix) .nil none s with
      ⟨hempty, hrun⟩ | ⟨oid, tag, val, hleast, hvalid, hstore, hrun⟩
    · rw [hrun]
      refine .none ?_ (.inr rfl)
      rintro x ⟨p', hp', hx⟩ hlt
      obtain rfl := Option.some.inj (hgroup.symm.trans hp')
      exact Set.eq_empty_iff_forall_notMem.mp hempty _ ⟨hx, idNumbers_lt_iff.mpr hlt⟩
    · rw [hrun]
      have hback := idNumbers_toOid (hp.numbers oid hleast.1.1)
      refine NextReply.some (a := ⟨toOid oid, val, tag, hvalid⟩) ⟨⟨⟨p, hgroup, ?_⟩, ?_⟩, ?_⟩ hstore
      · rw [hback]
        exact hleast.1.1
      · rw [← idNumbers_lt_iff, hback]
        exact hleast.1.2
      · rintro x ⟨⟨p', hp', hx⟩, hlt⟩
        obtain rfl := Option.some.inj (hgroup.symm.trans hp')
        rw [← not_lt, ← idNumbers_lt_iff, hback, not_lt]
        exact hleast.2 ⟨hx, idNumbers_lt_iff.mpr hlt⟩

/-- The family of a state answers with least instances. -/
lemma luaFamily_cases (s : σ) (cb : Int) (suffix : Oid) :
    luaFamily groups (fuel + 1) s cb suffix = none ∧ (∀ x ∈ luaInstances groups cb, ¬ suffix < x) ∨
    ∃ a, luaFamily groups (fuel + 1) s cb suffix = some a ∧
      IsLeast {x | x ∈ luaInstances groups cb ∧ suffix < x} a.subOid ∧ Storable a.tag a.val := by
  rw [luaFamily]
  have hreply := nextReply_readHandlers fuel hg s [] cb suffix
  generalize readHandlers groups (fuel + 1) s [] (getNextCall cb suffix) = reply at hreply ⊢
  cases hreply with
  | none hnone h => exact .inl ⟨by rcases h with rfl | rfl <;> rfl, hnone⟩
  | @some a hleast hstore => exact .inr ⟨a, by simp [replyAnswer, a.valid], hleast, hstore⟩

lemma realizes_luaFamily (s : σ) :
    Realizes (readHandlers groups (fuel + 1) s) (luaFamily groups (fuel + 1) s) := by
  intro l cb suffix
  rw [luaFamily]
  have hreply := nextReply_readHandlers fuel hg s l cb suffix
  have hsame : readHandlers groups (fuel + 1) s [] (getNextCall cb suffix) =
      readHandlers groups (fuel + 1) s l (getNextCall cb suffix) := rfl
  rw [hsame]
  generalize readHandlers groups (fuel + 1) s l (getNextCall cb suffix) = reply at hreply ⊢
  cases hreply with
  | none hnone h =>
    rcases h with rfl | rfl
    · exact .inl rfl
    · exact .inr ⟨0, [], .nil, asn1TagNoSuchObj, rfl, rfl⟩
  | @some a hleast hstore => simp [replyAnswer, a.valid]

lemma getStorable_readHandlers (s : σ) (l : List Call) (c : Call) (hget : c.op = .get) :
    (readHandlers groups fuel s l c).storable = true := by
  rw [readHandlers, mibSearchHandler]
  cases hgroup : groups c.callback with
  | none => rfl
  | some p =>
    simp only [hget]
    exact (hg c.callback p hgroup).get_storable p.2 fuel _ _ _ s

/-- The OIDs of the instances below the registered OIDs fit a search. -/
def InstancesFit (root : MibNode) (groups : Registered σ) : Prop :=
  ∀ x, Existing root (luaInstances groups) x → SmallOid x ∧ x.length ≤ mibOidMaxLen

/-- The groups are handlers that answer with least instances, of which the values can be encoded. -/
lemma leastHandlers_lua {root : MibNode} (hfit : InstancesFit root groups) (s : σ) :
    LeastHandlers root (readHandlers groups (fuel + 1) s) (luaFamily groups (fuel + 1) s)
      (luaInstances groups) ∧
    ∀ p cb suffix a, Occurs root p (.inst cb) → luaFamily groups (fuel + 1) s cb suffix = some a →
      a.Encodable := by
  have hfam := luaFamily_cases fuel hg s
  have hstored : ∀ {a : Answer}, Storable a.tag a.val → ∃ v, a.stored = some v ∧ a.Encodable := by
    rintro a ⟨len, bytes, hvar, hlen, hobj⟩
    have hst : a.stored = some (len, bytes) := by simp [Answer.stored, hvar, Option.filter, hlen]
    refine ⟨_, hst, fun htag len' bytes' oid hst' hat => ?_⟩
    obtain ⟨rfl, rfl⟩ : len = len' ∧ bytes = bytes' := by simpa using hst.symm.trans hst'
    exact hobj htag oid hat
  refine ⟨⟨realizes_luaFamily fuel hg s, ?_, ?_, getStorable_readHandlers (fuel + 1) hg s, ?_⟩, ?_⟩
  · intro cb suffix
    rcases hfam cb suffix with ⟨hnone, habove⟩ | ⟨a, hsome, hleast, -⟩
    · rw [hnone]
      exact habove
    · rw [hsome]
      exact hleast
  · rintro cb ⟨p, -, v, inst, hinst⟩
    have hnil : InstanceAt p.1 [] v inst := hinst
    cases hnil
  · intro p cb suffix a hocc hsome
    rcases hfam cb suffix with ⟨hnone, -⟩ | ⟨a', hsome', hleast, hstore⟩
    · rw [hnone] at hsome
      cases hsome
    · obtain rfl := Option.some.inj (hsome'.symm.trans hsome)
      obtain ⟨v, hst, -⟩ := hstored hstore
      have hlen := (hfit (p ++ a'.subOid) ⟨p, cb, a'.subOid, hocc, hleast.1.1, rfl⟩).2
      simp only [fits, hst, Option.isSome_some, Bool.true_and, decide_eq_true_eq]
      exact hlen
  · intro p cb suffix a hocc hsome
    rcases hfam cb suffix with ⟨hnone, -⟩ | ⟨a', hsome', -, hstore⟩
    · rw [hnone] at hsome
      cases hsome
    · obtain rfl := Option.some.inj (hsome'.symm.trans hsome)
      exact (hstored hstore).choose_spec.2

end Registered

end Lua

end SmartSnmp
