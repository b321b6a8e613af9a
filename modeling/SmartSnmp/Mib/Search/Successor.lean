import SmartSnmp.Mib.Search.Simulation

/-!
# GETNEXT is the lexicographic successor

A family of handlers says for each callback and suffix whether there is an instance. Under the
root view the search returns what a reference search over the list of registered OIDs returns.
-/

namespace SmartSnmp

open Bytes PrefixOrder MibNode

/-! ### Handler families -/

/-- An instance a handler returns. -/
structure Answer where
  subOid : Oid
  val : LuaValue
  tag : UInt8
  valid : mibTagValid tag = true

lemma mibTagValid_int : mibTagValid asn1TagInt = true := rfl

/-- For each callback the function from a suffix to no instance or an instance. -/
abbrev HandlerFamily := Int → Oid → Option Answer

/-- The call of a GETNEXT handler. -/
def getNextCall (callback : Int) (suffix : Oid) : Call := ⟨callback, .getNext, suffix, .nil, none⟩

/-- The handlers behave as a family does, whatever was called before: no instance is an error or
a tag that is not valid. -/
def Realizes (handlers : Handlers) (fam : HandlerFamily) : Prop :=
  ∀ l callback suffix, match fam callback suffix with
    | none => handlers l (getNextCall callback suffix) = .error ∨
        ∃ errStat subOid val tag, mibTagValid tag = false ∧
          handlers l (getNextCall callback suffix) = .results errStat subOid val tag
    | some a => handlers l (getNextCall callback suffix) = .results 0 a.subOid a.val a.tag

/-- What `mib_instance_search` stores of an answer, if its value has a known type and fits. -/
def Answer.stored (a : Answer) : Option (Nat × List UInt8) :=
  (a.val.toVariable a.tag).filter fun v => v.2.length ≤ mibValueMaxLen

lemma Answer.store_eq (a : Answer) (var : Variable) :
    var.store a.tag a.val =
      a.stored.map fun v => ⟨a.tag, v.1, v.2 ++ var.value.drop v.2.length⟩ := by
  simp only [Variable.store, Answer.stored, Variable.write]
  cases a.val.toVariable a.tag with
  | none => rfl
  | some v =>
    by_cases h : v.2.length ≤ mibValueMaxLen
    · simp [Option.filter, h]
    · simp [Option.filter, h]

/-- An instance OID and its answer that the search can return. -/
def fits (hit : Oid × Answer) : Bool :=
  hit.2.stored.isSome && decide (hit.1.length ≤ mibOidMaxLen)

/-- The value types of `mib_instance_search`; it runs into an assertion at any other one. -/
def valueTag (tag : UInt8) : Bool :=
  tag = asn1TagInt || tag = asn1TagOctstr || tag = asn1TagCnt || tag = asn1TagIpaddr ||
    tag = asn1TagObjid || tag = asn1TagGau || tag = asn1TagTimeticks

/-- The bytes that the value takes in the union. -/
def Answer.size (a : Answer) : Nat :=
  if a.tag = asn1TagObjid then 4 * a.val.objLen
  else if a.tag = asn1TagOctstr ∨ a.tag = asn1TagIpaddr then a.val.objLen
  else 4

/-- A value of one of the types can be read as such, and takes no more than the union. -/
structure Answer.Readable (a : Answer) : Prop where
  read : valueTag a.tag = true → a.val.toVariable a.tag ≠ none
  size : a.size ≤ mibValueMaxLen

lemma toVariable_eq_none {tag : UInt8} (h : valueTag tag = false) (val : LuaValue) :
    val.toVariable tag = none := by
  simp only [valueTag, Bool.or_eq_false_iff, decide_eq_false_iff_not] at h
  simp [LuaValue.toVariable, h]

lemma Answer.length_toVariable {a : Answer} {len : Nat} {bytes : List UInt8}
    (h : a.val.toVariable a.tag = some (len, bytes)) : bytes.length ≤ a.size := by
  rw [LuaValue.toVariable] at h
  have hlen : a.val.objLen % 65536 ≤ a.val.objLen := Nat.mod_le _ _
  split_ifs at h with hword hoct hip hobj
  · obtain ⟨rfl, rfl⟩ : 1 = len ∧ _ = bytes := by simpa using h
    have hsize : a.size = 4 := by
      rcases hword with hw | hw | hw | hw <;> rw [Answer.size, hw] <;> rfl
    rw [hsize, length_leBytes]
  · obtain ⟨s, hs, heq⟩ := Option.map_eq_some_iff.mp h
    obtain ⟨rfl, rfl⟩ := Prod.mk.inj heq
    have hsize : a.size = a.val.objLen := by rw [Answer.size, hoct]; rfl
    rw [hsize, LuaValue.length_octets hlen hs]
    exact hlen
  · obtain ⟨xs, hxs, heq⟩ := Option.map_eq_some_iff.mp h
    obtain ⟨rfl, rfl⟩ := Prod.mk.inj heq
    have hsize : a.size = a.val.objLen := by rw [Answer.size, hip]; rfl
    rw [hsize, List.length_map, LuaValue.length_elements hlen hxs]
    exact hlen
  · obtain ⟨xs, hxs, heq⟩ := Option.map_eq_some_iff.mp h
    obtain ⟨rfl, rfl⟩ := Prod.mk.inj heq
    rw [Answer.size, if_pos hobj, length_flatMap_word _ fun x => length_leBytes 4 _,
      LuaValue.length_elements hlen hxs]
    exact Nat.mul_le_mul_left 4 hlen

/-- A readable answer is returned unless one of the two assertions fails: that on its type or that on
the length of the OID. -/
lemma Answer.Readable.fits_iff {a : Answer} (h : a.Readable) (oid : Oid) :
    fits (oid, a) = true ↔ valueTag a.tag = true ∧ oid.length ≤ mibOidMaxLen := by
  have hstored : a.stored.isSome = true ↔ valueTag a.tag = true := by
    rw [Answer.stored]
    cases htag : valueTag a.tag with
    | false => simp [toVariable_eq_none htag]
    | true =>
      obtain ⟨⟨len, bytes⟩, hv⟩ := Option.ne_none_iff_exists'.mp (h.read htag)
      simp [hv, Option.filter, (Answer.length_toVariable hv).trans h.size]
  rw [fits, Bool.and_eq_true, hstored, decide_eq_true_eq]

/-- Ask a probe: the OID of the instance found and the answer. -/
def ask (fam : HandlerFamily) (e : Probe) : Option (Oid × Answer) :=
  (fam e.2.1 e.2.2).map fun a => (e.1 ++ a.subOid, a)

/-- The result structure carries an instance and its value. -/
def Returned (res : OidSearchRes) (hit : Oid × Answer) : Prop :=
  res.oid = hit.1 ∧ res.errStat = 0 ∧ res.var.tag = hit.2.tag ∧
    ∃ len bytes, hit.2.stored = some (len, bytes) ∧ res.var.len = len ∧ bytes <+: res.var.value

/-- How a GETNEXT search ends whose first hit is given: with the end of the view and the request
echoed, with the hit, or at an assertion if the hit cannot be returned. -/
def SearchEnds (orig : Oid) (out : Outcome OidSearchRes) : Option (Oid × Answer) → Prop
  | none => ∃ res, out = .ok res ∧ res.oid = orig ∧ res.errStat = 0 ∧
      res.var.tag = asn1TagEndOfMibView
  | some hit => if fits hit then ∃ res, out = .ok res ∧ Returned res hit else out = .crash

section Family

variable {handlers : Handlers} {fam : HandlerFamily} (view orig : Oid)

/-- The instance case of the search, by the reply of the handler. -/
lemma searchNextInstance_apply (handlers : Handlers) (view : Oid) {p suffix : Oid} {callback : Int}
    {ret : OidSearchRes} (hreq : ret.request = .getNext) (l : List Call) :
    searchNextInstance handlers view p suffix callback ret l =
      (match { ret with instPos := p.length, instId := suffix, callback := callback }.receive
          (handlers l (getNextCall callback suffix)) with
        | none => .crash
        | some res =>
          if mibTagValid res.var.tag then
            if (p ++ res.instId).length ≤ mibOidMaxLen then
              if oidCover view (p ++ res.instId) = 0 then .ok (.inl { res with oid := p ++ res.instId })
              else .ok (.inr { res with oid := p ++ res.instId })
            else .crash
          else .ok (.inl res), l ++ [getNextCall callback suffix]) := by
  have hcall : { ret with instPos := p.length, instId := suffix, callback := callback }.call =
      getNextCall callback suffix := by
    simp [OidSearchRes.call, hreq, getNextCall]
  simp only [searchNextInstance, Traced.bind_apply, mibInstanceSearch_apply, hcall]
  cases OidSearchRes.receive _ (handlers l (getNextCall callback suffix)) with
  | none => rfl
  | some res =>
    simp only
    split_ifs <;> rfl

/-- A probe without an instance: the search goes on. -/
lemma searchNextInstance_none (hfam : Realizes handlers fam) {p suffix : Oid} {callback : Int}
    (hnone : fam callback suffix = none) {ret : OidSearchRes} (hreq : ret.request = .getNext)
    (l : List Call) :
    ∃ res, res.request = .getNext ∧ searchNextInstance handlers view p suffix callback ret l =
      (.ok (.inl res), l ++ [getNextCall callback suffix]) := by
  have h := hfam l callback suffix
  simp only [hnone] at h
  rw [searchNextInstance_apply handlers view hreq]
  rcases h with h | ⟨errStat, subOid, val, tag, htag, h⟩
  · refine ⟨{ ret with
      instPos := p.length
      instId := suffix
      callback := callback
      errStat := 0
      var := { ret.var with tag := asn1TagNoSuchObj } }, hreq, ?_⟩
    simp [h, OidSearchRes.receive, mibTagValid]
  · refine ⟨{ ret with
      instPos := p.length
      instId := suffix
      callback := callback
      errStat := errStat
      var := { ret.var with tag := tag } }, hreq, ?_⟩
    simp [h, OidSearchRes.receive, htag]

/-- A probe with an instance: outside of the view the search goes on, else it returns. -/
lemma searchNextInstance_some (hfam : Realizes handlers fam) {p suffix : Oid} {callback : Int}
    {a : Answer} (hsome : fam callback suffix = some a) {ret : OidSearchRes}
    (hreq : ret.request = .getNext) (l : List Call) :
    if fits (p ++ a.subOid, a) then
      ∃ res, res.request = .getNext ∧ Returned res (p ++ a.subOid, a) ∧
        searchNextInstance handlers view p suffix callback ret l =
          (.ok (if oidCover view (p ++ a.subOid) = 0 then .inl res else .inr res),
            l ++ [getNextCall callback suffix])
    else searchNextInstance handlers view p suffix callback ret l =
      (.crash, l ++ [getNextCall callback suffix]) := by
  have h := hfam l callback suffix
  simp only [hsome] at h
  rw [searchNextInstance_apply handlers view hreq, h]
  simp only [OidSearchRes.receive, a.valid, and_self, if_true, hreq, reduceCtorEq, if_false]
  rw [a.store_eq]
  cases hstored : a.stored with
  | none => simp [fits, hstored]
  | some v =>
    by_cases hlen : (p ++ a.subOid).length ≤ mibOidMaxLen
    · simp only [fits, hstored, hlen, Option.isSome_some, decide_true, Bool.and_self, if_true,
        Option.map_some, a.valid]
      refine ⟨⟨p ++ a.subOid, p.length, a.subOid, callback, .getNext, 0,
        ⟨a.tag, v.1, v.2 ++ ret.var.value.drop v.2.length⟩⟩, rfl, ?_, ?_⟩
      · exact ⟨rfl, rfl, rfl, v.1, v.2, hstored, rfl, List.prefix_append _ _⟩
      · split_ifs <;> rfl
    · simp only [fits, hstored, hlen, decide_false, Bool.and_false, Bool.false_eq_true, if_false,
        Option.map_some, a.valid, if_true]

/-- The first hit that the search stops at: it cannot be returned, or it is not off the view. -/
def firstHit (fam : HandlerFamily) (view : Oid) (es : List Probe) : Option (Oid × Answer) :=
  (es.filterMap (ask fam)).find? fun hit => !fits hit || oidCover view hit.1 != 0

/-- Asking a list of probes ends at its first hit. -/
theorem tryProbes_ends (hfam : Realizes handlers fam) (es : List Probe) {ret : OidSearchRes}
    (hreq : ret.request = .getNext) (l : List Call) :
    SearchEnds orig (tryProbes handlers view orig es ret l).1 (firstHit fam view es) := by
  induction es generalizing ret l with
  | nil => exact ⟨endOfMibView orig ret, rfl, rfl, rfl, rfl⟩
  | cons e es ih =>
    obtain ⟨p, callback, suffix⟩ := e
    simp only [tryProbes]
    cases hf : fam callback suffix with
    | none =>
      obtain ⟨res, hres, hrun⟩ := searchNextInstance_none view hfam (p := p) hf hreq l
      rw [Traced.bind_apply_ok hrun]
      have hask : firstHit fam view ((p, callback, suffix) :: es) = firstHit fam view es := by
        simp [firstHit, ask, hf]
      rw [hask]
      exact ih hres _
    | some a =>
      have hinst := searchNextInstance_some view hfam (p := p) hf hreq l
      have hask : firstHit fam view ((p, callback, suffix) :: es) =
          if !fits (p ++ a.subOid, a) || oidCover view (p ++ a.subOid) != 0 then
            some (p ++ a.subOid, a) else firstHit fam view es := by
        simp only [firstHit, List.filterMap_cons, ask, hf, Option.map_some, List.find?_cons]
        split <;> simp_all
      rw [hask]
      by_cases hfit : fits (p ++ a.subOid, a) = true
      · simp only [hfit, if_true] at hinst
        obtain ⟨res, hres, hret, hrun⟩ := hinst
        rw [Traced.bind_apply_ok hrun]
        by_cases hcover : oidCover view (p ++ a.subOid) = 0
        · simp only [hfit, hcover, Bool.not_true, bne_self_eq_false, Bool.or_self,
            Bool.false_eq_true, if_false, if_true]
          exact ih hres _
        · simp only [hfit, hcover, bne_iff_ne, Bool.or_eq_true, ne_eq, not_false_eq_true, or_true,
            if_true, if_false]
          simp only [SearchEnds, hfit, if_true]
          exact ⟨res, rfl, hret⟩
      · simp only [hfit] at hinst
        have hcrash : searchNextInstance handlers view p suffix callback ret l =
          (.crash, l ++ [getNextCall callback suffix]) := by simpa using hinst
        simp only [Traced.bind_apply, hcrash, hfit]
        simp [SearchEnds, hfit]

end Family

/-! ### The root view -/

/-- The states of the loop that a search runs through, with the calls made so far. -/
inductive Visited (handlers : Handlers) (view orig : Oid) (root : MibNode) (ret : OidSearchRes)
    (l : List Call) : SearchNextState → List Call → Prop where
  | start {s : SearchNextState} {l' : List Call}
      (h : searchNextStart handlers view orig root ret l = (.ok s, l')) :
      Visited handlers view orig root ret l s l'
  | step {s s' : SearchNextState} {l' l'' : List Call}
      (hs : Visited handlers view orig root ret l s l')
      (h : searchNextStep handlers view orig s l' = (.ok (.inl s'), l'')) :
      Visited handlers view orig root ret l s' l''

/-- The reference search over the registered OIDs. -/
def successor (fam : HandlerFamily) (registered : List (Oid × Int)) (req : Oid) :
    Option (Oid × Answer) := (probes req registered).findSome? (ask fam)

/-- Under the root view the search starts at the root with the whole request. -/
def rootStart (root : MibNode) (orig : Oid) (ret : OidSearchRes) : SearchNextState where
  path := []
  rest := orig
  immediate := orig.isEmpty
  pNbl := none
  stk := []
  node := root
  ret := { ret with request := .getNext, oid := orig, instPos := 0, instId := [], errStat := 0,
                    var := { ret.var with tag := asn1TagNoSuchObj } }

lemma searchNextStart_root {root : MibNode} (hroot : RootOk root) (handlers : Handlers) (orig : Oid)
    (ret : OidSearchRes) : searchNextStart handlers [] orig root ret = pure (rootStart root orig ret) := by
  obtain ⟨_, cap, cnt, subId, subPtr, rfl⟩ := hroot
  have hcover : ∀ oid, oidCover [] oid = 1 := fun oid => (oidCover_eq_one_iff _ _).mpr oid.nil_prefix
  cases orig <;> simp [searchNextStart, startAtView, mibTreeSearch, hcover, mibTreeSearchLoop, rootStart,
    OidSearchRes.setTag]

lemma searchInv_rootStart {root : MibNode} (hroot : RootOk root) (orig : Oid) (ret : OidSearchRes) :
    SearchInv (rootStart root orig ret) := by
  refine ⟨by simp [rootStart], fun _ => Or.inr hroot.1, by simp [rootStart], trivial, ?_⟩
  intro himm _
  simpa [rootStart] using himm

lemma pending_rootStart {root : MibNode} (hroot : RootOk root) (orig : Oid) (ret : OidSearchRes) :
    (rootStart root orig ret).pending = probes orig root.leaves := by
  obtain ⟨_, cap, cnt, subId, subPtr, rfl⟩ := hroot
  cases orig with
  | nil =>
    have hne : ∀ e ∈ (MibNode.group cap cnt subId subPtr).leaves, e.1 ≠ [] := fun e he =>
      ne_nil_of_mem_leavesList (by simpa [MibNode.leaves] using he)
    simp [SearchNextState.pending, SearchNextState.nodeProbes, rootStart, stackProbes,
      probes_of_nil hne]
  | cons x xs =>
    simp [SearchNextState.pending, SearchNextState.nodeProbes, rootStart, stackProbes]

/-- The search under the root view ends as the reference does. -/
lemma mibTreeSearchNext_root_ends {root : MibNode} (hroot : RootOk root) {handlers : Handlers}
    {fam : HandlerFamily} (hfam : Realizes handlers fam) (orig : Oid) (ret : OidSearchRes)
    (l : List Call) :
    SearchEnds orig (mibTreeSearchNext handlers [] orig root ret l).1
      (successor fam root.leaves orig) := by
  have hfirst : firstHit fam [] (probes orig root.leaves) = successor fam root.leaves orig := by
    have hcover : ∀ oid, oidCover [] oid = 1 := fun oid =>
      (oidCover_eq_one_iff _ _).mpr oid.nil_prefix
    simp only [firstHit, hcover, successor, ← List.head?_filterMap]
    cases (probes orig root.leaves).filterMap (ask fam) <;> simp
  have hreq : (rootStart root orig ret).ret.request = .getNext := rfl
  have hends := tryProbes_ends [] orig hfam (probes orig root.leaves) hreq l
  rw [hfirst, ← pending_rootStart hroot orig ret,
    ← searchNextLoop_start handlers [] orig (searchInv_rootStart hroot orig ret) rfl rfl] at hends
  rw [mibTreeSearchNext, searchNextStart_root hroot, Traced.pure_bind]
  exact hends

/-- In the states a search under the root view runs through the invariant holds. -/
lemma Visited.inv {root : MibNode} (hroot : RootOk root) {handlers : Handlers} {orig : Oid}
    {ret : OidSearchRes} {l l' : List Call} {s : SearchNextState}
    (h : Visited handlers [] orig root ret l s l') : SearchInv s := by
  induction h with
  | start h =>
    rw [searchNextStart_root hroot] at h
    simp only [Traced.pure_apply, Prod.mk.injEq, Outcome.ok.injEq] at h
    exact h.1 ▸ searchInv_rootStart hroot orig ret
  | step _ h ih => exact ih.step handlers [] orig h

/-- A tree with one instance. -/
def oneInstance : MibNode := .group 1 1 [1] [.inst 7]

lemma reachable_oneInstance : Reachable oneInstance := ⟨[.reg [1] 7], rfl⟩

/-- Handlers that answer everything with one suffix and the integer zero. -/
def constHandlers (subOid : Oid) : Handlers := fun _ _ => .results 0 subOid (.num 0) asn1TagInt

def constFamily (subOid : Oid) : HandlerFamily := fun _ _ =>
  some ⟨subOid, .num 0, asn1TagInt, mibTagValid_int⟩

lemma realizes_const (subOid : Oid) : Realizes (constHandlers subOid) (constFamily subOid) :=
  fun _ _ _ => rfl

/-- An instance the reference finds, with 65 sub-identifiers: the search stops at the assertion on
the length. -/
theorem mibTreeSearchNext_overlong :
    Reachable oneInstance ∧
    Realizes (constHandlers (List.replicate 64 0)) (constFamily (List.replicate 64 0)) ∧
    (∃ a, successor (constFamily (List.replicate 64 0)) oneInstance.leaves [1] =
      some (1 :: List.replicate 64 0, a)) ∧
    (mibTreeSearchNext (constHandlers (List.replicate 64 0)) [] [1] oneInstance
      (OidSearchRes.init .getNext) []).1 = .crash := by
  have hends := mibTreeSearchNext_root_ends reachable_oneInstance.rootOk
    (realizes_const (List.replicate 64 0)) [1] (OidSearchRes.init .getNext) []
  exact ⟨reachable_oneInstance, realizes_const _, ⟨_, rfl⟩, hends⟩

/-- GETNEXT under the root view is the lexicographic successor. In every reachable tree the leaves
are the registered instances in ascending order, and the search ends with the first hit of the
reference over them: with the instance and its value if the OID has at most 64 sub-identifiers and
the value is of one of the types, at an assertion if not, and with the end of the view and the request
echoed if there is no hit. The hit must not outgrow the memory that is there for it. No push on the
backlog stack is dropped. -/
theorem mibTreeSearchNext_successor {root : MibNode} (hroot : Reachable root) {handlers : Handlers}
    {fam : HandlerFamily} (hfam : Realizes handlers fam) (orig : Oid) (ret : OidSearchRes)
    (l : List Call)
    (hread : ∀ oid a, successor fam root.leaves orig = some (oid, a) →
      a.Readable ∧ oid.length ≤ mibValueMaxLen) :
    (root.leaves.Pairwise fun a b => a.1 < b.1) ∧
    (∀ p cb, (p, cb) ∈ root.leaves ↔ Occurs root p (.inst cb)) ∧
    SearchEnds orig (mibTreeSearchNext handlers [] orig root ret l).1
      (successor fam root.leaves orig) ∧
    (∀ oid a, successor fam root.leaves orig = some (oid, a) →
      (fits (oid, a) = true ↔ valueTag a.tag = true ∧ oid.length ≤ mibOidMaxLen)) ∧
    ∀ s l', Visited handlers [] orig root ret l s l' → s.node.isGroup →
      s.stk.length < mibOidMaxLen := by
  have hok := hroot.rootOk
  refine ⟨hok.1.leaves_pairwise.imp Before.lt, hok.1.mem_leaves_iff,
    mibTreeSearchNext_root_ends hok hfam orig ret l, fun oid a hhit => ?_, fun s l' hs hgroup => ?_⟩
  · exact (hread oid a hhit).1.fits_iff oid
  · cases hn : s.node with
    | group cap cnt subId subPtr => exact ((Visited.inv hok hs).stk_length_lt hn).2
    | null => simp [hn] at hgroup
    | inst cb => simp [hn] at hgroup

/-- A tree with two instances, and between them a group that a removal has left empty. -/
def emptiedBetween : MibNode :=
  .group 4 3 [1, 2, 3, 0] [.inst 7, .group 1 0 [0] [.null], .inst 8, .null]

lemma reachable_emptiedBetween : Reachable emptiedBetween :=
  ⟨[.reg [1] 7, .reg [2, 5] 9, .reg [3] 8, .unreg [2, 5]], rfl⟩

/-- Only the handler 8 has an instance. -/
def lastFamily : HandlerFamily := fun callback suffix =>
  if callback = 8 then constFamily [0] callback suffix else none

def lastHandlers : Handlers := fun l call =>
  if call.callback = 8 then constHandlers [0] l call else .error

lemma realizes_last : Realizes lastHandlers lastFamily := by
  intro l callback suffix
  by_cases h : callback = 8
  · subst h
    exact realizes_const [0] l 8 suffix
  · have herror : lastHandlers l (getNextCall callback suffix) = .error := if_neg h
    simp only [lastFamily, if_neg h]
    exact .inl herror

/-- The first instance has nothing behind the request, and the second one is found. -/
theorem mibTreeSearchNext_successor_emptiedBetween :
    Reachable emptiedBetween ∧ Realizes lastHandlers lastFamily ∧
    ∃ res, (mibTreeSearchNext lastHandlers [] [1, 4] emptiedBetween
      (OidSearchRes.init .getNext) []).1 = .ok res ∧ res.oid = [3, 0] := by
  refine ⟨reachable_emptiedBetween, realizes_last, ?_⟩
  have hhit : successor lastFamily emptiedBetween.leaves [1, 4] =
      some ([3, 0], ⟨[0], .num 0, asn1TagInt, mibTagValid_int⟩) := rfl
  obtain ⟨_, _, hends, _⟩ := mibTreeSearchNext_successor reachable_emptiedBetween realizes_last
    [1, 4] (OidSearchRes.init .getNext) [] (by
      intro oid a h
      obtain ⟨rfl, rfl⟩ := Prod.mk.inj (Option.some.inj (hhit.symm.trans h))
      exact ⟨⟨fun _ hnone => Option.some_ne_none _ hnone, by decide⟩, by decide⟩)
  obtain ⟨res, hres, hret⟩ : ∃ res, _ ∧ Returned res ([3, 0], _) := hends
  exact ⟨res, hres, hret.1⟩

end SmartSnmp
