import SmartSnmp.Mib.Search.Lookup
import SmartSnmp.Snmp.Access

/-!
# Searches over several views

GETNEXT goes through the read views of a requester in order. They are ascending and disjoint, so the
first one that answers has the least instance of all. GET and SET go through the views as well, and
go on after the view that covers the OID unless the search in it was successful.
-/

namespace SmartSnmp

open PrefixOrder MibNode

/-! ### GETNEXT -/

/-- The existing instances above the request that one of the views covers. -/
def TargetsIn (root : MibNode) (S : Int → Set Oid) (views : List Oid) (orig : Oid) : Set Oid :=
  {x | Existing root S x ∧ orig < x ∧ ∃ v ∈ views, v <+: x}

/-- The least existing instance above the request and covered by one of the views, or the end of the
view with the request echoed if there is none. -/
def NextInViews (root : MibNode) (S : Int → Set Oid) (views : List Oid) (orig : Oid)
    (out : Outcome OidSearchRes) : Prop :=
  (∃ x res, IsLeast (TargetsIn root S views orig) x ∧ out = .ok res ∧ res.oid = x ∧
    res.errStat = 0 ∧ mibTagValid res.var.tag = true) ∨
  (TargetsIn root S views orig = ∅ ∧ ∃ res, out = .ok res ∧ res.oid = orig ∧ res.errStat = 0 ∧
    res.var.tag = asn1TagEndOfMibView)

lemma targetsIn_cons (root : MibNode) (S : Int → Set Oid) (v : Oid) (views : List Oid) (orig : Oid) :
    TargetsIn root S (v :: views) orig = Targets root S v orig ∪ TargetsIn root S views orig := by
  ext x
  simp only [TargetsIn, Targets, Set.mem_union, Set.mem_ofPred_eq, List.exists_mem_cons_iff]
  constructor
  · rintro ⟨hx, hlt, hv | hviews⟩
    · exact .inl ⟨hx, hlt, hv⟩
    · exact .inr ⟨hx, hlt, hviews⟩
  · rintro (⟨hx, hlt, hv⟩ | ⟨hx, hlt, hviews⟩)
    · exact ⟨hx, hlt, .inl hv⟩
    · exact ⟨hx, hlt, .inr hviews⟩

/-- The views of a canonical list branch off one another in ascending order. -/
lemma pairwise_before_of_canonical {views L : List Oid} (h : IsCanonical views L) :
    views.Pairwise Before := by
  refine (h.ascending.and h.prefixFree).imp fun hab => ?_
  exact (before_iff _ _).mpr ⟨hab.1, hab.2.1⟩

/-- The first view that answers has the least instance of all. -/
lemma walkViews_next {root : MibNode} {S : Int → Set Oid} {orig : Oid}
    {search : Oid → OidSearchRes → Traced Call OidSearchRes} {views : List Oid}
    (hbefore : views.Pairwise Before)
    (hsearch : ∀ v ∈ views, ∀ ret l, NextInView root S v orig (search v ret l).1)
    {ret : OidSearchRes}
    (hret : views = [] → ret.errStat = 0 ∧ ret.var.tag = asn1TagEndOfMibView) (l : List Call) :
    NextInViews root S views orig
      (walkViews search (fun _ ret => ret.var.tag ≠ asn1TagEndOfMibView) orig views ret l).1 := by
  induction views generalizing ret l with
  | nil =>
    obtain ⟨herr, htag⟩ := hret rfl
    refine .inr ⟨?_, _, rfl, rfl, herr, htag⟩
    simp [TargetsIn]
  | cons v views ih =>
    obtain ⟨hv, hviews⟩ := List.pairwise_cons.mp hbefore
    have hrest := fun u hu => hsearch u (List.mem_cons_of_mem v hu)
    rw [walkViews, Traced.bind_apply]
    rcases hout : search v ret l with ⟨out, l'⟩
    have hnext := hsearch v List.mem_cons_self ret l
    rw [hout] at hnext
    rcases hnext with ⟨x, res, hx, rfl, hoid, herr, htag⟩ | ⟨hempty, res, rfl, -, herr, htag⟩
    · have hfinal : res.var.tag ≠ asn1TagEndOfMibView := by
        intro h
        rw [h] at htag
        exact absurd htag (by decide)
      refine .inl ⟨x, res, ?_, by simp [hfinal], hoid, herr, htag⟩
      rw [targetsIn_cons]
      refine ⟨.inl hx.1, ?_⟩
      rintro y (hy | ⟨_, _, u, hu, hy⟩)
      · exact hx.2 hy
      · -- an instance in a later view
        obtain ⟨s, rfl⟩ := hx.1.2.2
        obtain ⟨t, rfl⟩ := hy
        exact ((hv u hu).append s t).lt.le
    · have h := ih hviews hrest (fun _ => ⟨herr, htag⟩) l'
      simp only [NextInViews, targetsIn_cons, hempty, Set.empty_union]
      simpa [NextInViews, htag] using h

/-- The views of a requester are in canonical form. -/
lemma ViewRun.requester_canonical {ops : List ViewOp} {mv : MibViews} (hrun : ViewRun ops mv)
    (hsmall : SmallOps ops) {sdg : SnmpDatagram} {e : ViewEntry} (he : requester mv sdg = some e)
    (attr : MibAcesAttr) : ∃ L, IsCanonical (e.views attr) L := by
  simp only [requester] at he
  split_ifs at he
  · exact ⟨_, (hrun.entriesOk hsmall .user).canonical e (List.mem_of_find?_eq_some he) attr⟩
  · exact ⟨_, (hrun.entriesOk hsmall .community).canonical e (List.mem_of_find?_eq_some he) attr⟩

/-- GETNEXT over the read views of a requester: the loop goes once through the list at most, and
returns the global successor if each search returns that of its view. -/
theorem mibGetnext_nextInViews {ops : List ViewOp} {mv : MibViews} (hrun : ViewRun ops mv)
    (hsmall : SmallOps ops) {root : MibNode} {S : Int → Set Oid} (handlers : Handlers)
    {sdg : SnmpDatagram} {e : ViewEntry} (he : requester mv sdg = some e) (vb : VarBind)
    (hsearch : ∀ v ∈ e.views .read, ∀ ret l,
      NextInView root S v vb.oid (mibTreeSearchNext handlers v vb.oid root ret l).1)
    (ret : OidSearchRes) (l : List Call) :
    (e.views .read).Nodup ∧
      mibGetnext handlers root mv sdg vb ret =
        walkViews (fun view ret => mibTreeSearchNext handlers view vb.oid root ret)
          (fun _ ret => ret.var.tag ≠ asn1TagEndOfMibView) vb.oid (e.views .read) ret ∧
      NextInViews root S (e.views .read) vb.oid (mibGetnext handlers root mv sdg vb ret l).1 := by
  have hok := hrun.requester_ok he
  obtain ⟨L, hcan⟩ := hrun.requester_canonical hsmall he .read
  have hnd := (hok.prefixFree .read).nodup
  have hloop : mibGetnext handlers root mv sdg vb ret =
      walkViews (fun view ret => mibTreeSearchNext handlers view vb.oid root ret)
        (fun _ ret => ret.var.tag ≠ asn1TagEndOfMibView) vb.oid (e.views .read) ret := by
    simp only [mibGetnext, he]
    exact viewLoop_requester sdg (some e) (show (viewsOf (some e) .read).Nodup from hnd) ret
  refine ⟨hnd, hloop, ?_⟩
  rw [hloop]
  exact walkViews_next (pairwise_before_of_canonical hcan) hsearch (fun hnil => absurd hnil hok.readable) l

/-- The views of a community, registered in any order: the instance is in the second one. -/
def threeViews : List ViewOp :=
  [.reg .community [1] [112] .read, .reg .community [2] [112] .read, .reg .community [0] [112] .read]

lemma viewRun_threeViews : ∃ mv, ViewRun threeViews mv ∧
    requester mv { SnmpDatagram.clear with contextName := [112] } =
      some ⟨[112], [[0], [1], [2]], []⟩ :=
  ⟨_, .snoc (.snoc (.snoc .nil (.communityReg .empty [0] [112] .read)) (.communityReg _ [2] [112] .read))
    (.communityReg _ [1] [112] .read), by decide⟩

lemma smallOps_threeViews : SmallOps threeViews := by
  intro holder oid name attr hmem
  simp only [threeViews, List.mem_cons, ViewOp.reg.injEq, List.not_mem_nil, or_false] at hmem
  rcases hmem with ⟨-, rfl, -⟩ | ⟨-, rfl, -⟩ | ⟨-, rfl, -⟩ <;> simp

lemma not_existing_singleton (x : UInt32) : ¬ Existing oneInstance scalarInstances [x] := by
  rintro ⟨p, cb, a, hocc, rfl, heq⟩
  cases p with
  | nil => cases hocc
  | cons y ys => simp at heq

/-- The request is in the first view, where nothing is left to find, and the second one answers. -/
theorem mibGetnext_nextInViews_threeViews :
    ∃ mv e, ViewRun threeViews mv ∧
      requester mv { SnmpDatagram.clear with contextName := [112] } = some e ∧
      e.views .read = [[0], [1], [2]] ∧
      NextInViews oneInstance scalarInstances [[0], [1], [2]] [0, 5]
        (mibGetnext scalarHandlers oneInstance mv { SnmpDatagram.clear with contextName := [112] }
          ⟨[0, 5], 0, asn1TagNul, []⟩ (.init .getNext) []).1 := by
  obtain ⟨mv, hrun, he⟩ := viewRun_threeViews
  have hsearch : ∀ v ∈ [[(0 : UInt32)], [1], [2]], ∀ ret l, NextInView oneInstance scalarInstances v
      [0, 5] (mibTreeSearchNext scalarHandlers v [0, 5] oneInstance ret l).1 := by
    intro v hv ret l
    obtain ⟨hit, hends, hfrom, hnext⟩ := mibTreeSearchNext_hit v [0, 5]
      reachable_oneInstance.rootOk leastHandlers_scalar (fun _ => oidCmp_neg_iff (by simp)) ret l
    refine (nextInView_iff (fun x hx => (hfrom x hx).fits leastHandlers_scalar) hends).mpr
      (hnext.mpr ?_)
    simp only [List.mem_cons, List.not_mem_nil, or_false] at hv
    rcases hv with rfl | rfl | rfl
    · exact .inl (by decide)
    · exact .inr (.inr (.inr ⟨not_existing_singleton 1, by simp [NearBelow]⟩))
    · exact .inr (.inr (.inr ⟨not_existing_singleton 2, by simp [NearBelow]⟩))
  exact ⟨mv, _, hrun, he, rfl, (mibGetnext_nextInViews hrun smallOps_threeViews scalarHandlers he
    ⟨[0, 5], 0, asn1TagNul, []⟩ hsearch (.init .getNext) []).2.2⟩

/-! ### GET and SET -/

/-- The function for a varbind of a GET and that of a SET, by the views they go through. -/
def mibAccess (handlers : Handlers) (root : MibNode) (mv : MibViews) :
    MibAcesAttr → SnmpDatagram → VarBind → OidSearchRes → Traced Call OidSearchRes
  | .read => mibGet handlers root mv
  | .write => mibSet handlers root mv

def accessRequest : MibAcesAttr → MibReq
  | .read => .get
  | .write => .set

/-- An error status and a tag. -/
abbrev Report := Int32 × UInt8

def noSuchObj : Report := (0, asn1TagNoSuchObj)

def Report.Success (o : Report) : Prop := o.1 = 0 ∧ mibTagValid o.2 = true

instance (o : Report) : Decidable o.Success := inferInstanceAs (Decidable (_ ∧ _))

def OidSearchRes.report (ret : OidSearchRes) : Report := (ret.errStat, ret.var.tag)

/-- What a reply says, whatever the value. -/
def Reply.report : Reply → Report
  | .error => noSuchObj
  | .results errStat _ _ tag => (errStat, tag)

/-- What is reported for an OID: the reply of the handler above it to its call, after the calls `l`,
or that there is no such instance or object. For SET the call has the value and the tag of the
variable. -/
inductive Reports (handlers : Handlers) (root : MibNode) (l : List Call) (attr : MibAcesAttr)
    (oid : Oid) (var : Variable) : Report → Prop
  | reply {p s : Oid} {cb : Int} (ask : OidSearchRes) (hp : Occurs root p (.inst cb))
      (hoid : oid = p ++ s) (hs : s ≠ []) (hcb : ask.callback = cb) (hid : ask.instId = s)
      (hreq : ask.request = accessRequest attr) (hvar : ask.var = var) :
      Reports handlers root l attr oid var (handlers l ask.call).report
  | noInst {cb : Int} (hp : Occurs root oid (.inst cb)) :
      Reports handlers root l attr oid var (0, asn1TagNoSuchInst)
  | noObj (hno : ∀ p cb, p <+: oid → ¬ Occurs root p (.inst cb)) :
      Reports handlers root l attr oid var noSuchObj

/-- The view that covers an OID is not disturbed by those before and after it. `o₁` is reported for
the varbind, `o₂` for what the views before have made of it. Either both are the same, no view
before is taken to be ahead of the OID, and there is no view after or no need for one; or the
report is the same as that of a view that does not cover the OID. -/
def AloneInViews (before after : List Oid) (oid : Oid) (o₁ o₂ : Report) : Prop :=
  (o₁ = o₂ ∧ (∀ u ∈ before, 0 ≤ oidCmp oid u) ∧ (after = [] ∨ o₂.Success)) ∨
  (o₁ = noSuchObj ∧ ((∃ u ∈ before, oidCmp oid u < 0) ∨ after ≠ [] ∧ ¬ o₂.Success))

lemma OidSearchRes.report_of_receive {ask res : OidSearchRes} {reply : Reply}
    (h : ask.receive reply = some res) : res.report = reply.report := by
  cases reply with
  | error =>
    obtain rfl := Option.some.inj h
    rfl
  | results errStat subOid val tag =>
    simp only [receive] at h
    by_cases hok : errStat = 0 ∧ mibTagValid tag = true
    · rw [if_pos hok] at h
      by_cases hset : ask.request = .set
      · rw [if_pos hset] at h
        obtain rfl := Option.some.inj h
        simp [report, Reply.report, hok.1]
      · rw [if_neg hset] at h
        obtain ⟨var, hvar, rfl⟩ := Option.map_eq_some_iff.mp h
        obtain ⟨_, -, hstore⟩ := Option.bind_eq_some_iff.mp hvar
        obtain ⟨_, -, rfl⟩ := Option.map_eq_some_iff.mp hstore
        simp [report, Reply.report, hok.1]
    · rw [if_neg hok] at h
      obtain rfl := Option.some.inj h
      rfl

/-- Nothing is stored for SET. -/
lemma OidSearchRes.receive_set_ne_none {ask : OidSearchRes} (h : ask.request = .set) (reply : Reply) :
    ask.receive reply ≠ none := by
  cases reply with
  | error => simp [receive]
  | results errStat subOid val tag =>
    rw [receive, if_pos h]
    split_ifs <;> simp

section Access

variable {handlers : Handlers} {root : MibNode} {oid : Oid} {attr : MibAcesAttr}

/-- The call of a search depends on where it asks and on the variable. -/
lemma OidSearchRes.call_eq {a b : OidSearchRes} (hcb : a.callback = b.callback)
    (hid : a.instId = b.instId) (hreq : a.request = b.request) (hvar : a.var = b.var) :
    a.call = b.call := by
  simp only [call, hcb, hid, hreq, hvar]

/-- One thing is reported for an OID. -/
lemma Reports.unique (h : RootOk root) {l : List Call} {var : Variable} {o₁ o₂ : Report}
    (h₁ : Reports handlers root l attr oid var o₁) (h₂ : Reports handlers root l attr oid var o₂) :
    o₁ = o₂ := by
  cases h₁ with
  | @reply p s cb ask hp hoid hs hcb hid hreq hvar =>
    cases h₂ with
    | @reply p' s' cb' ask' hp' hoid' hs' hcb' hid' hreq' hvar' =>
      obtain ⟨hss, hcc⟩ := h.1.occurs_inst_eq hp hp' (hoid.symm.trans hoid')
      have hcall : ask.call = ask'.call :=
        OidSearchRes.call_eq (hcb.trans (hcc.trans hcb'.symm)) (hid.trans (hss.trans hid'.symm))
          (hreq.trans hreq'.symm) (hvar.trans hvar'.symm)
      rw [hcall]
    | noInst hp' =>
      exact absurd (h.1.occurs_inst_eq hp hp' (by rw [← hoid, List.append_nil])).1 hs
    | noObj hno => exact absurd hp (hno p cb (hoid ▸ List.prefix_append p s))
  | noInst hp =>
    cases h₂ with
    | @reply p' s' cb' ask' hp' hoid' hs' _ _ _ _ =>
      exact absurd (h.1.occurs_inst_eq hp' hp (by rw [← hoid', List.append_nil])).1 hs'
    | noInst => rfl
    | noObj hno => exact absurd hp (hno oid _ List.prefix_rfl)
  | noObj hno =>
    cases h₂ with
    | @reply p' s' cb' ask' hp' hoid' hs' _ _ _ _ =>
      exact absurd hp' (hno p' cb' (hoid' ▸ List.prefix_append p' s'))
    | noInst hp => exact absurd hp (hno oid _ List.prefix_rfl)
    | noObj => rfl

/-- The search in a view that covers the OID. -/
lemma mibTreeSearch_reports (h : RootOk root)
    (hst : attr = .read → ∀ l c, (handlers l c).storable = true)
    {view : Oid} (hcover : view <+: oid) {ret : OidSearchRes}
    (hreq : ret.request = accessRequest attr) (l : List Call) :
    ∃ n res l', mibTreeSearch handlers root view oid ret l = (.ok (n, res), l') ∧
      Reports handlers root l attr oid ret.var res.report := by
  by_cases hno : ∀ p cb, p <+: oid → ¬ Occurs root p (.inst cb)
  · obtain ⟨-, n, res, hout, -, herr, htag⟩ := mibTreeSearch_unknown handlers ret h hcover hno l
    refine ⟨n, res, _, Prod.ext hout rfl, ?_⟩
    rw [OidSearchRes.report, herr, htag]
    exact .noObj hno
  · push Not at hno
    obtain ⟨p, cb, ⟨s, rfl⟩, hp⟩ := hno
    by_cases hs : s = []
    · subst hs
      rw [List.append_nil] at hcover ⊢
      obtain ⟨-, n, res, hout, -, herr, htag⟩ := mibTreeSearch_exact handlers ret h hcover hp l
      refine ⟨n, res, _, Prod.ext hout rfl, ?_⟩
      rw [OidSearchRes.report, herr, htag]
      exact .noInst hp
    · obtain ⟨ask, hcb, hid, hask, -, hvar, -, heq⟩ :=
        mibTreeSearch_calls handlers ret h hcover rfl hs hp
      rw [heq, Traced.bind_apply, mibInstanceSearch_apply]
      cases hrec : ask.receive (handlers l ask.call) with
      | none =>
        cases attr with
        | read => exact absurd hrec (ask.receive_ne_none (hst rfl l ask.call))
        | write => exact absurd hrec (ask.receive_set_ne_none (hask.trans hreq) _)
      | some res =>
        refine ⟨_, res, _, rfl, ?_⟩
        rw [OidSearchRes.report_of_receive hrec]
        exact .reply ask hp rfl hs hcb hid (hask.trans hreq) hvar

/-- What a view that does not cover the OID leaves. -/
def missed (oid : Oid) (ret : OidSearchRes) : OidSearchRes :=
  { ret with oid := oid, errStat := 0 }.setTag asn1TagNoSuchObj

lemma searchAt_missed {view : Oid} (hcover : ¬ view <+: oid) (ret : OidSearchRes) :
    searchAt handlers root oid view ret = pure (missed oid ret) := by
  rw [searchAt, mibTreeSearch, if_pos (not_lt.mp fun h => hcover ((oidCover_pos_iff _ _).mp h))]
  rfl

lemma getFinal_missed (view : Oid) (ret : OidSearchRes) :
    getFinal oid view (missed oid ret) = decide (oidCmp oid view < 0) := by
  simp [getFinal, missed, OidSearchRes.setTag, mibTagValid]

lemma not_oidCmp_neg_of_isPrefix {view : Oid} (h : view <+: oid) : ¬ oidCmp oid view < 0 := by
  obtain ⟨t, rfl⟩ := h
  induction view with
  | nil =>
    have hlen : oidCmp ([] ++ t) [] = t.length := by cases t <;> simp [oidCmp]
    omega
  | cons x xs ih => simpa [oidCmp_cons] using ih

lemma getFinal_covered {view : Oid} (h : view <+: oid) (ret : OidSearchRes) :
    getFinal oid view ret = true ↔ ret.report.Success := by
  simp [getFinal, not_oidCmp_neg_of_isPrefix h, Report.Success, OidSearchRes.report]

variable (handlers root) in
/-- A list of views that do not cover the OID. -/
lemma walkViews_missed {views : List Oid} (hno : ∀ u ∈ views, ¬ u <+: oid) (ret : OidSearchRes)
    (l : List Call) :
    ∃ res, walkViews (searchAt handlers root oid) (getFinal oid) oid views ret l = (.ok res, l) ∧
      res.report = if views = [] then ret.report else noSuchObj := by
  induction views generalizing ret with
  | nil => exact ⟨_, rfl, rfl⟩
  | cons u views ih =>
    obtain ⟨hu, hviews⟩ := List.forall_mem_cons.mp hno
    rw [walkViews, searchAt_missed hu, Traced.pure_bind, getFinal_missed]
    by_cases hahead : oidCmp oid u < 0
    · exact ⟨missed oid ret, by simp [hahead], rfl⟩
    · obtain ⟨res, hres, hrep⟩ := ih hviews (missed oid ret)
      refine ⟨res, by simpa [hahead] using hres, ?_⟩
      rw [hrep, if_neg (List.cons_ne_nil u views)]
      split_ifs <;> rfl

variable (handlers root) in
/-- The views before the one that covers the OID. -/
lemma walkViews_before {before : List Oid} (hno : ∀ u ∈ before, ¬ u <+: oid) (rest : List Oid)
    (ret : OidSearchRes) :
    ((∀ u ∈ before, 0 ≤ oidCmp oid u) ∧
      walkViews (searchAt handlers root oid) (getFinal oid) oid (before ++ rest) ret =
        walkViews (searchAt handlers root oid) (getFinal oid) oid rest
          (if before = [] then ret else missed oid ret)) ∨
    ((∃ u ∈ before, oidCmp oid u < 0) ∧
      walkViews (searchAt handlers root oid) (getFinal oid) oid (before ++ rest) ret =
        pure (missed oid ret)) := by
  induction before generalizing ret with
  | nil => exact .inl ⟨by simp, rfl⟩
  | cons u before ih =>
    obtain ⟨hu, hbefore⟩ := List.forall_mem_cons.mp hno
    rw [List.cons_append, walkViews, searchAt_missed hu, Traced.pure_bind, getFinal_missed]
    by_cases hahead : oidCmp oid u < 0
    · exact .inr ⟨⟨u, List.mem_cons_self, hahead⟩, by simp [hahead]⟩
    · have hagain : missed oid (missed oid ret) = missed oid ret := rfl
      rw [decide_eq_false hahead]
      rcases ih hbefore (missed oid ret) with ⟨hall, heq⟩ | ⟨⟨w, hw, hneg⟩, heq⟩
      · refine .inl ⟨List.forall_mem_cons.mpr ⟨not_lt.mp hahead, hall⟩, ?_⟩
        rw [hagain, ite_self] at heq
        simpa using heq
      · exact .inr ⟨⟨w, List.mem_cons_of_mem u hw, hneg⟩, by simpa [hagain] using heq⟩

/-- What the loop over the views reports. -/
lemma walkViews_report (h : RootOk root)
    (hst : attr = .read → ∀ l c, (handlers l c).storable = true)
    {before after : List Oid} {view : Oid} (hfree : PrefixFree (before ++ view :: after))
    (hcover : view <+: oid) {ret : OidSearchRes} (hreq : ret.request = accessRequest attr)
    (l : List Call) {o : Report} (ho : Reports handlers root l attr oid
      (if before = [] then ret.var else { ret.var with tag := asn1TagNoSuchObj }) o) :
    ∃ res l', walkViews (searchAt handlers root oid) (getFinal oid) oid (before ++ view :: after) ret
        l = (.ok res, l') ∧
      res.report = if (∃ u ∈ before, oidCmp oid u < 0) ∨ after ≠ [] ∧ ¬ o.Success then noSuchObj
        else o := by
  obtain ⟨-, hview, hcross⟩ := List.pairwise_append.mp hfree
  have hbefore : ∀ u ∈ before, ¬ u <+: oid := fun u hu huo =>
    (List.prefix_or_prefix_of_prefix huo hcover).elim (hcross u hu view List.mem_cons_self).1
      (hcross u hu view List.mem_cons_self).2
  have hafter : ∀ u ∈ after, ¬ u <+: oid := fun u hu huo =>
    (List.prefix_or_prefix_of_prefix hcover huo).elim ((List.pairwise_cons.mp hview).1 u hu).1
      ((List.pairwise_cons.mp hview).1 u hu).2
  rcases walkViews_before handlers root hbefore (view :: after) ret with
    ⟨hall, heq⟩ | ⟨hahead, heq⟩
  · have hnone : ¬ ∃ u ∈ before, oidCmp oid u < 0 := fun ⟨u, hu, hneg⟩ =>
      absurd (hall u hu) (not_le.mpr hneg)
    generalize hstart : (if before = [] then ret else missed oid ret) = start at heq
    have hvar : start.var = if before = [] then ret.var else { ret.var with tag := asn1TagNoSuchObj } := by
      rw [← hstart]
      split_ifs <;> rfl
    have hreq' : start.request = accessRequest attr := by
      rw [← hstart]
      split_ifs <;> exact hreq
    obtain ⟨n, res, l', hsearch, hrep⟩ := mibTreeSearch_reports h hst hcover hreq' l
    rw [hvar] at hrep
    obtain rfl := ho.unique h hrep
    have hat : searchAt handlers root oid view start l = (.ok res, l') := by
      rw [searchAt, Traced.bind_apply_ok hsearch]
      rfl
    rw [heq, walkViews, Traced.bind_apply_ok hat]
    by_cases hfinal : res.report.Success
    · rw [if_pos ((getFinal_covered hcover res).mpr hfinal), if_neg (by simp [hnone, hfinal])]
      exact ⟨res, l', rfl, rfl⟩
    · rw [if_neg fun hf => hfinal ((getFinal_covered hcover res).mp hf)]
      obtain ⟨res', hres', hrep'⟩ := walkViews_missed handlers root hafter res l'
      refine ⟨res', l', hres', ?_⟩
      rw [hrep']
      by_cases hnil : after = []
      · simp [hnil, hnone]
      · simp [hnil, hfinal]
  · rw [heq, if_pos (.inl hahead)]
    exact ⟨_, l, rfl, rfl⟩

lemma undisturbed_iff (before after : List Oid) (o₁ o₂ : Report) :
    AloneInViews before after oid o₁ o₂ ↔
      (if (∃ u ∈ before, oidCmp oid u < 0) ∨ after ≠ [] ∧ ¬ o₂.Success then noSuchObj else o₂) =
        o₁ := by
  have hall : (∀ u ∈ before, 0 ≤ oidCmp oid u) ↔ ¬ ∃ u ∈ before, oidCmp oid u < 0 := by
    push Not
    rfl
  rw [AloneInViews, hall]
  by_cases hahead : ∃ u ∈ before, oidCmp oid u < 0
  · simp [hahead, eq_comm]
  · by_cases hnil : after = []
    · simp [hahead, hnil, eq_comm]
    · by_cases hok : o₂.Success
      · simp [hahead, hok, eq_comm]
      · simp [hahead, hnil, hok, eq_comm]

lemma mibAccess_eq_walkViews {ops : List ViewOp} {mv : MibViews} (hrun : ViewRun ops mv)
    {sdg : SnmpDatagram} {e : ViewEntry} (he : requester mv sdg = some e) {vb : VarBind}
    (hcover : ∃ v ∈ e.views attr, v <+: vb.oid) (ret : OidSearchRes) :
    mibAccess handlers root mv attr sdg vb ret =
      walkViews (searchAt handlers root vb.oid) (getFinal vb.oid) vb.oid (e.views attr) ret := by
  have hnd : (viewsOf (some e) attr).Nodup := ((hrun.requester_ok he).prefixFree attr).nodup
  cases attr with
  | read =>
    simp only [mibAccess, mibGet, he]
    exact viewLoop_requester sdg (some e) hnd ret
  | write =>
    obtain ⟨v, hv, hvo⟩ := hcover
    have hfilter : (requester mv sdg).filter (fun e => requesterViewCover sdg (some e) .write vb.oid)
        = some e := by
      refine Option.filter_eq_some_iff.mpr ⟨he, ?_⟩
      have hany : (e.views .write).any (fun v => 0 < oidCover v vb.oid) = true :=
        List.any_eq_true.mpr ⟨v, hv, decide_eq_true ((oidCover_pos_iff _ _).mpr hvo)⟩
      simp only [requesterViewCover]
      split_ifs <;> exact hany
    simp only [mibAccess, mibSet, hfilter]
    exact viewLoop_requester sdg (some e) hnd ret

variable (handlers attr) in
/-- Other views do not change what GET and SET report for an OID, exactly when the view that covers
it is not disturbed by them. -/
theorem mibAccess_report_iff {ops : List ViewOp} {mv : MibViews} (hrun : ViewRun ops mv)
    (hreach : Reachable root) (hst : ∀ l c, (handlers l c).storable = true) {sdg : SnmpDatagram}
    {e : ViewEntry} (he : requester mv sdg = some e) {before after : List Oid} {view : Oid}
    (hviews : e.views attr = before ++ view :: after) {vb : VarBind} (hcover : view <+: vb.oid)
    (ret : OidSearchRes) (hreq : ret.request = accessRequest attr) (l : List Call) :
    ∃ ret' l' n res l'', mibAccess handlers root mv attr sdg vb ret l = (.ok ret', l') ∧
      mibTreeSearch handlers root view vb.oid ret l = (.ok (n, res), l'') ∧
      ((ret'.var.tag = res.var.tag ∧ ret'.errStat = res.errStat) ↔
        ∀ o₁ o₂, Reports handlers root l attr vb.oid ret.var o₁ →
          Reports handlers root l attr vb.oid
            (if before = [] then ret.var else { ret.var with tag := asn1TagNoSuchObj }) o₂ →
          AloneInViews before after vb.oid o₁ o₂) := by
  have h := hreach.rootOk
  have hfree := (hrun.requester_ok he).prefixFree attr
  rw [hviews] at hfree
  obtain ⟨n, res, l'', hsingle, h₁⟩ := mibTreeSearch_reports h (fun _ => hst) hcover hreq l
  obtain ⟨_, res₂, _, -, h₂⟩ := mibTreeSearch_reports h (fun _ => hst) hcover
    (show OidSearchRes.request { ret with
      var := if before = [] then ret.var else { ret.var with tag := asn1TagNoSuchObj } } = _ from hreq) l
  obtain ⟨ret', l', hloop, hrep⟩ := walkViews_report h (fun _ => hst) hfree hcover hreq l h₂
  rw [mibAccess_eq_walkViews hrun he ⟨view, by simp [hviews], hcover⟩, hviews]
  refine ⟨ret', l', n, res, l'', hloop, hsingle, ?_⟩
  have hsame : (ret'.var.tag = res.var.tag ∧ ret'.errStat = res.errStat) ↔
      ret'.report = res.report := by
    simp only [OidSearchRes.report, Prod.mk.injEq]
    exact and_comm
  rw [hsame, hrep, ← undisturbed_iff]
  constructor
  · rintro hundisturbed o₁ o₂ ho₁ ho₂
    rwa [ho₁.unique h h₁, ho₂.unique h h₂]
  · intro hall
    exact hall _ _ h₁ h₂

lemma storable_scalarHandlers (l : List Call) (c : Call) : (scalarHandlers l c).storable = true := by
  rw [scalarHandlers]
  split_ifs <;> rfl

/-- The handler of the instance answers a GET. -/
lemma reports_scalar (var : Variable) :
    Reports scalarHandlers oneInstance [] .read [1, 0] var (0, asn1TagInt) :=
  .reply { OidSearchRes.init .get with instId := [0], callback := 7, var := var }
    (.child (i := 0) (by decide) rfl rfl (.here _)) rfl (by decide) rfl rfl rfl rfl

/-- A GET of the instance in the second of three views, which its handler answers. -/
theorem mibAccess_report_iff_threeViews :
    ∃ mv e, ViewRun threeViews mv ∧
      requester mv { SnmpDatagram.clear with contextName := [112] } = some e ∧
      e.views .read = [[0]] ++ [1] :: [[2]] ∧
      ∃ ret' l' n res l'', mibAccess scalarHandlers oneInstance mv .read
          { SnmpDatagram.clear with contextName := [112] } ⟨[1, 0], 0, asn1TagNul, []⟩ (.init .get) [] =
            (.ok ret', l') ∧
        mibTreeSearch scalarHandlers oneInstance [1] [1, 0] (.init .get) [] = (.ok (n, res), l'') ∧
        ret'.var.tag = res.var.tag ∧ ret'.errStat = res.errStat := by
  obtain ⟨mv, hrun, he⟩ := viewRun_threeViews
  have hviews : ViewEntry.views ⟨[112], [[0], [1], [2]], []⟩ .read = [[0]] ++ [1] :: [[2]] := rfl
  have hcover : ([1] : Oid) <+: VarBind.oid ⟨[1, 0], 0, asn1TagNul, []⟩ := by decide
  obtain ⟨ret', l', n, res, l'', hloop, hsingle, hiff⟩ := mibAccess_report_iff scalarHandlers .read hrun
    reachable_oneInstance storable_scalarHandlers he hviews hcover (.init .get) rfl []
  refine ⟨mv, _, hrun, he, hviews, ret', l', n, res, l'', hloop, hsingle,
    hiff.mpr fun o₁ o₂ ho₁ ho₂ => ?_⟩
  obtain rfl := ho₁.unique reachable_oneInstance.rootOk (reports_scalar _)
  obtain rfl := ho₂.unique reachable_oneInstance.rootOk (reports_scalar _)
  exact .inl ⟨rfl, by decide, .inr (by decide)⟩

/-- The error of a handler is lost when another view follows. -/
theorem view_after_hides_error :
    ∃ mv ret' l' n res l'',
      ViewRun [.reg .community [2] [112] .read, .reg .community [1] [112] .read] mv ∧
      mv.viewsOf .community [112] .read = [[1], [2]] ∧
      mibAccess (fun _ _ => .results 5 [0] .nil asn1TagNul) oneInstance mv .read
        { SnmpDatagram.clear with contextName := [112] } ⟨[1, 0], 0, asn1TagNul, []⟩ (.init .get) [] =
          (.ok ret', l') ∧
      mibTreeSearch (fun _ _ => .results 5 [0] .nil asn1TagNul) oneInstance [1] [1, 0] (.init .get) [] =
        (.ok (n, res), l'') ∧
      res.errStat = 5 ∧ ret'.errStat = 0 ∧
      ¬ (ret'.var.tag = res.var.tag ∧ ret'.errStat = res.errStat) := by
  refine ⟨_, _, _, _, _, _, ViewRun.snoc (ViewRun.snoc .nil (.communityReg _ [1] [112] .read))
    (.communityReg _ [2] [112] .read), by decide, rfl, rfl, by decide, by decide, by decide⟩

end Access

end SmartSnmp
