import SmartSnmp.Mib.Search.Sound
import SmartSnmp.Mib.View.Unreg
import SmartSnmp.Snmp.MsgProc

/-!
# Access control

A requester reads only what its read views cover, and a handler is called for SET only for what its
write views cover. The loops over the views rest on two facts about every entry of a community or a
user: no view of a list covers another one, and there is a view to read.
-/

namespace SmartSnmp

open PrefixOrder MibNode

/-! ### Entries -/

lemma ViewRun.requester_ok {ops : List ViewOp} {mv : MibViews} (h : ViewRun ops mv)
    {sdg : SnmpDatagram} {e : ViewEntry} (he : requester mv sdg = some e) : e.Ok := by
  simp only [requester] at he
  split_ifs at he
  · exact (h.entriesFree .user).ok e (List.mem_of_find?_eq_some he)
  · exact (h.entriesFree .community).ok e (List.mem_of_find?_eq_some he)

/-! ### The loop over the views -/

/-- The views of an entry, if there is one. -/
def viewsOf (e : Option ViewEntry) (attr : MibAcesAttr) : List Oid :=
  (e.map fun e => e.views attr).getD []

/-- The loop over the views as a recursion on their list. -/
def walkViews (search : Oid → OidSearchRes → Traced Call OidSearchRes)
    (final : Oid → OidSearchRes → Bool) (oid : Oid) :
    List Oid → OidSearchRes → Traced Call OidSearchRes
  | [], ret => pure { ret with oid := oid }
  | view :: views, ret => do
    let ret ← search view ret
    if final view ret then pure ret else walkViews search final oid views ret

section Loop

variable {search : Oid → OidSearchRes → Traced Call OidSearchRes} {final : Oid → OidSearchRes → Bool}
  {oid : Oid}

lemma viewAfter_append {before after : List Oid} {v : Oid} (hnd : (before ++ v :: after).Nodup) :
    viewAfter v (before ++ v :: after) = after.head? := by
  induction before with
  | nil => cases after <;> simp [viewAfter]
  | cons a before ih =>
    have hne : a ≠ v := by
      rintro rfl
      simp at hnd
    rw [List.cons_append] at hnd ⊢
    rw [← ih (List.nodup_cons.mp hnd).2]
    cases before <;> simp [viewAfter, hne]

/-- A loop whose next view is the head of what is left walks over it. -/
lemma viewLoop_eq_walkViews {next : Option Oid → Option Oid} {views : List Oid}
    (hnext : ∀ before v after, views = before ++ v :: after → next (some v) = after.head?)
    (before : List Oid) {after : List Oid} (hviews : views = before ++ after) {view : Option Oid}
    (hview : next view = after.head?) (ret : OidSearchRes) :
    viewLoop next search final oid (after.length + 1) view ret = walkViews search final oid after ret := by
  induction after generalizing before view ret with
  | nil => simp [viewLoop, hview, walkViews]
  | cons v after ih =>
    have hrest : ∀ ret, viewLoop next search final oid (after.length + 1) (some v) ret =
        walkViews search final oid after ret :=
      ih (before ++ [v]) (by simpa using hviews) (hnext before v after hviews)
    rw [List.length_cons, viewLoop, hview]
    simp only [List.head?_cons, walkViews, hrest]

lemma viewLoop_requester (sdg : SnmpDatagram) (e : Option ViewEntry) {attr : MibAcesAttr}
    (hnd : (viewsOf e attr).Nodup) (ret : OidSearchRes) :
    viewLoop (requesterNextView sdg e attr) search final oid (viewFuel e attr) none ret =
      walkViews search final oid (viewsOf e attr) ret := by
  have hnext : requesterNextView sdg e attr = entryNextView e attr := by
    simp only [requesterNextView]
    split_ifs <;> rfl
  rw [hnext]
  cases e with
  | none => rfl
  | some e =>
    refine viewLoop_eq_walkViews ?_ [] (List.nil_append (e.views attr)).symm rfl ret
    rintro before v after heq
    rw [entryNextView, heq, viewAfter_append (heq ▸ hnd)]

end Loop

/-- A view of the requester covers the OID. -/
def Covered (mv : MibViews) (sdg : SnmpDatagram) (attr : MibAcesAttr) (oid : Oid) : Prop :=
  ∃ e, requester mv sdg = some e ∧ ∃ v ∈ e.views attr, v <+: oid

/-! ### Reading -/

section Read

variable {P : Call → Prop} {I : MibReq → Prop}

/-- If a search finds only what its view covers, the loop finds only what a view covers. What the
loop starts with must not look like a result if there is no view. -/
lemma safe_walkViews {search : Oid → OidSearchRes → Traced Call OidSearchRes}
    {final : Oid → OidSearchRes → Bool} {oid : Oid} {views : List Oid}
    (hsearch : ∀ v ret, I ret.request →
      Traced.Safe P (fun res => I res.request ∧ (res.Found → v <+: res.oid)) (search v ret))
    (hfinal : ∀ v res, final v res = false → ¬ res.Found) {ret : OidSearchRes} (hI : I ret.request)
    (hne : views = [] → ¬ ret.Found) :
    Traced.Safe P (fun res => I res.request ∧ (res.Found → ∃ v ∈ views, v <+: res.oid))
      (walkViews search final oid views ret) := by
  induction views generalizing ret with
  | nil => exact Traced.safe_pure ⟨hI, fun hfound => absurd hfound (hne rfl)⟩
  | cons v views ih =>
    apply (hsearch v ret hI).bind
    intro res hres
    cases hfin : final v res with
    | true =>
      rw [if_pos rfl]
      exact Traced.safe_pure ⟨hres.1, fun hfound => ⟨v, List.mem_cons_self, hres.2 hfound⟩⟩
    | false =>
      rw [if_neg (by simp)]
      refine (ih hres.1 fun _ => hfinal v res hfin).mono fun res' h => ⟨h.1, fun hfound => ?_⟩
      obtain ⟨w, hw, hcov⟩ := h.2 hfound
      exact ⟨w, List.mem_cons_of_mem _ hw, hcov⟩

/-- A requester who is not known gets an error, and one who is known has a view to read. -/
lemma not_found_checkAccess {e : Option ViewEntry} (he : ∀ x ∈ e, x.Ok) (ret : OidSearchRes)
    (hnil : viewsOf e .read = []) : ¬ (checkAccess e ret).Found := by
  cases e with
  | none => exact fun hfound => absurd hfound.1 (show snmpErrStatNoAccess ≠ 0 by decide)
  | some e => exact absurd hnil (he e rfl).readable

lemma request_checkAccess (e : Option ViewEntry) (ret : OidSearchRes) :
    (checkAccess e ret).request = ret.request := by
  simp only [checkAccess]
  split_ifs <;> rfl

lemma covered_of_mem_viewsOf {mv : MibViews} {sdg : SnmpDatagram} {attr : MibAcesAttr} {v oid : Oid}
    (hv : v ∈ viewsOf (requester mv sdg) attr) (hcov : v <+: oid) : Covered mv sdg attr oid := by
  cases he : requester mv sdg with
  | none => simp [he, viewsOf] at hv
  | some e => exact ⟨e, he, v, by simpa [he, viewsOf] using hv, hcov⟩

lemma viewsOf_nodup {e : Option ViewEntry} (he : ∀ x ∈ e, x.Ok) (attr : MibAcesAttr) :
    (viewsOf e attr).Nodup := by
  cases e with
  | none => exact List.nodup_nil
  | some e => exact ((he e rfl).prefixFree attr).nodup

variable {handlers : Handlers} {root : MibNode} {ops : List ViewOp} {mv : MibViews}

/-- `mib_get` and `mib_getnext`: what is found is covered by a view of the requester. -/
lemma safe_viewLoop (hrun : ViewRun ops mv)
    {search : Oid → OidSearchRes → Traced Call OidSearchRes} {final : Oid → OidSearchRes → Bool}
    {oid : Oid} (hsearch : ∀ v ret, I ret.request →
      Traced.Safe P (fun res => I res.request ∧ (res.Found → v <+: res.oid)) (search v ret))
    (hfinal : ∀ v res, final v res = false → ¬ res.Found) (sdg : SnmpDatagram) {ret : OidSearchRes}
    (hI : I ret.request) :
    Traced.Safe P (fun res => I res.request ∧ (res.Found → Covered mv sdg .read res.oid))
      (viewLoop (requesterNextView sdg (requester mv sdg) .read) search final oid
        (viewFuel (requester mv sdg) .read) none (checkAccess (requester mv sdg) ret)) := by
  have hok : ∀ e ∈ requester mv sdg, e.Ok := fun e he => hrun.requester_ok he
  rw [viewLoop_requester sdg _ (viewsOf_nodup hok .read)]
  refine (safe_walkViews hsearch hfinal (by rwa [request_checkAccess])
    (not_found_checkAccess hok ret)).mono fun res h => ⟨h.1, fun hfound => ?_⟩
  obtain ⟨v, hv, hcov⟩ := h.2 hfound
  exact covered_of_mem_viewsOf hv hcov

lemma searchAt_spec (hroot : RootOk root) (oid view : Oid) (ret : OidSearchRes) (l : List Call) :
    Traced.Spec (searchAt handlers root oid view ret) l fun out new =>
      (new = [] ∨ view <+: oid ∧ ∃ c, new = [c] ∧ c.op = ret.request ∧ c.IsFor root oid) ∧
      ∀ res, out = .ok res → res.oid = oid ∧ res.request = ret.request ∧
        (res.Found → view <+: oid) := by
  refine Traced.spec_bind (mibTreeSearch_spec handlers hroot view oid ret l) ?_ ?_ ?_
  · rintro ⟨n, res⟩ new ⟨hnew, hres⟩
    refine Traced.spec_pure ⟨by simpa using hnew, fun res' heq => ?_⟩
    obtain rfl := Outcome.ok.inj heq
    exact hres n res rfl
  · intro new h
    exact ⟨h.1, by simp⟩
  · intro new h
    exact ⟨h.1, by simp⟩

lemma safe_mibGet (hroot : RootOk root) (hrun : ViewRun ops mv) (sdg : SnmpDatagram) (vbIn : VarBind)
    {ret : OidSearchRes} (hreq : ret.request = .get) :
    Traced.Safe (·.op ≠ .set)
      (fun res => res.request = .get ∧ (res.Found → Covered mv sdg .read res.oid))
      (mibGet handlers root mv sdg vbIn ret) := by
  refine safe_viewLoop (I := (· = .get)) hrun (fun v ret hget l => ?_) (fun v res hfin => ?_) sdg hreq
  · apply (searchAt_spec hroot vbIn.oid v ret l).mono
    rintro out new ⟨hnew, hres⟩
    constructor
    · rcases hnew with rfl | ⟨_, c, rfl, hop, _⟩
      · simp
      · simp [hop, hget]
    · intro res hout
      obtain ⟨hoid, hrequest, hfound⟩ := hres res hout
      exact ⟨hrequest.trans hget, fun hf => hoid ▸ hfound hf⟩
  · rintro ⟨herr, htag⟩
    simp [getFinal, herr, htag] at hfin

lemma safe_mibGetnext (hinc : Increasing handlers) (hroot : RootOk root) (hrun : ViewRun ops mv)
    (sdg : SnmpDatagram) (vbIn : VarBind) (ret : OidSearchRes) :
    Traced.Safe (·.op ≠ .set) (fun res => True ∧ (res.Found → Covered mv sdg .read res.oid))
      (mibGetnext handlers root mv sdg vbIn ret) := by
  refine safe_viewLoop (I := fun _ => True) hrun (fun v ret _ => ?_) (fun v res hfin => ?_) sdg trivial
  · exact (safe_mibTreeSearchNext hinc hroot v vbIn.oid ret).mono fun res h => ⟨trivial, h⟩
  · apply OidSearchRes.not_found
    have htag : res.var.tag = asn1TagEndOfMibView := by simpa using hfin
    rw [htag]
    rfl

/-- What the iterations of a reading request keep, from the datagram `sdg` on: each varbind of the
response has the report of its search, and what was found is covered. -/
structure ReadInv (I : MibReq → Prop) (mv : MibViews) (sdg : SnmpDatagram) (s : ProcState) : Prop where
  request : I s.ret.request
  requester_eq : requester mv s.sdg = requester mv sdg
  out : s.sdg.vbOutList = sdg.vbOutList ++ s.reports.map Prod.snd
  reports : ∀ e ∈ s.reports, e.1.Found → Covered mv sdg .read e.2.oid

lemma readInv_init {request : MibReq} (h : I request) (mv : MibViews) (sdg : SnmpDatagram) :
    ReadInv I mv sdg (.init request sdg) := ⟨h, rfl, by simp [ProcState.init], by simp [ProcState.init]⟩

lemma decodeValue_request {vbIn : VarBind} {ret ret' : OidSearchRes}
    (h : decodeValue vbIn ret = some ret') : ret'.request = ret.request := by
  obtain ⟨x, _, h⟩ := Option.bind_eq_some_iff.mp h
  obtain ⟨value, _, rfl⟩ := Option.map_eq_some_iff.mp h
  rfl

lemma getVarBind_oid {vbOut : VarBind} {ret : OidSearchRes}
    (h : getVarBind ret = some vbOut) : vbOut.oid = ret.oid := by
  obtain ⟨valLen, _, h⟩ := Option.bind_eq_some_iff.mp h
  obtain ⟨value, _, h⟩ := Option.bind_eq_some_iff.mp h
  obtain ⟨oidLen, _, rfl⟩ := Option.map_eq_some_iff.mp h
  rfl

lemma ReadInv.processVarBind {sdg : SnmpDatagram} {s : ProcState} (h : ReadInv I mv sdg s)
    {search : SnmpDatagram → VarBind → OidSearchRes → Traced Call OidSearchRes} (vbIn : VarBind)
    (hsearch : ∀ ret, I ret.request → Traced.Safe P
      (fun res => I res.request ∧ (res.Found → Covered mv s.sdg .read res.oid))
      (search s.sdg vbIn ret)) :
    Traced.Safe P (ReadInv I mv sdg) (processVarBind search (fun _ => getVarBind) id s vbIn) := by
  simp only [SmartSnmp.processVarBind]
  cases hdec : decodeValue vbIn s.ret with
  | none => exact Traced.safe_crash
  | some ret =>
    have hI : I ret.request := decodeValue_request hdec ▸ h.request
    apply (hsearch ret hI).bind
    intro res hres
    cases henc : getVarBind res with
    | none => exact Traced.safe_crash
    | some vbOut =>
      refine Traced.safe_pure ⟨hres.1, h.requester_eq, ?_, ?_⟩
      · simp [ProcState.add, SnmpDatagram.addVarBind, h.out]
      · intro e he hfound
        rcases List.mem_append.mp he with he | he
        · exact h.reports e he hfound
        · obtain rfl := List.mem_singleton.mp he
          obtain ⟨x, hx, hcov⟩ := hres.2 hfound
          exact ⟨x, h.requester_eq ▸ hx, getVarBind_oid henc ▸ hcov⟩

section Steps

variable {sdg : SnmpDatagram} {s : ProcState} (hroot : RootOk root) (hrun : ViewRun ops mv)

include hroot hrun

lemma ReadInv.getStep (h : ReadInv (· = .get) mv sdg s) (vbIn : VarBind) :
    Traced.Safe (·.op ≠ .set) (ReadInv (· = .get) mv sdg) (getStep handlers root mv s vbIn) :=
  h.processVarBind vbIn fun _ hreq => safe_mibGet hroot hrun s.sdg vbIn hreq

lemma ReadInv.getnextStep (hinc : Increasing handlers) (h : ReadInv (fun _ => True) mv sdg s)
    (vbIn : VarBind) :
    Traced.Safe (·.op ≠ .set) (ReadInv (fun _ => True) mv sdg) (getnextStep handlers root mv s vbIn) :=
  h.processVarBind vbIn fun ret _ => safe_mibGetnext hinc hroot hrun s.sdg vbIn ret

lemma ReadInv.bulkRound (hinc : Increasing handlers) (h : ReadInv (fun _ => True) mv sdg s)
    (vbs : List VarBind) :
    Traced.Safe (·.op ≠ .set) (fun x => ReadInv (fun _ => True) mv sdg x.2)
      (bulkRound handlers root mv vbs s) := by
  induction vbs generalizing s with
  | nil => exact Traced.safe_pure h
  | cons vbIn vbs ih =>
    apply (ReadInv.getnextStep hroot hrun hinc h vbIn).bind
    intro s' hs'
    exact (ih hs').bind fun x hx => Traced.safe_pure hx

lemma ReadInv.bulkRounds (hinc : Increasing handlers) (h : ReadInv (fun _ => True) mv sdg s)
    (rep : Nat) :
    Traced.Safe (·.op ≠ .set) (ReadInv (fun _ => True) mv sdg) (bulkRounds handlers root mv rep s) := by
  induction rep generalizing s with
  | zero => exact Traced.safe_pure h
  | succ rep ih =>
    apply (ReadInv.bulkRound hroot hrun hinc h s.sdg.vbInList).bind
    intro x hx
    exact ih ⟨trivial, hx.requester_eq, hx.out, hx.reports⟩

end Steps

lemma safe_respond {Q : ProcState → Prop} {s : ProcState} (h : Q s) :
    Traced.Safe P (fun x => Q x.1) (respond s) := by
  simp only [respond]
  cases snmpResponse s.sdg with
  | none => exact Traced.safe_crash
  | some r => exact Traced.safe_pure h

end Read

/-! ### Writing -/

/-- A handler is called for SET at the OID of a varbind that the write views cover. -/
def Call.SetFor (root : MibNode) (mv : MibViews) (sdg : SnmpDatagram) (c : Call) (vbIn : VarBind) :
    Prop := c.op = .set ∧ c.IsFor root vbIn.oid ∧ Covered mv sdg .write vbIn.oid

section Write

variable {handlers : Handlers} {root : MibNode} {ops : List ViewOp} {mv : MibViews}

/-- No handler is called in views that do not cover the OID. -/
lemma walkViews_quiet (hroot : RootOk root) {oid : Oid} {final : Oid → OidSearchRes → Bool}
    {views : List Oid} (hcov : ∀ v ∈ views, ¬ v <+: oid) {ret : OidSearchRes} (l : List Call) :
    Traced.Spec (walkViews (searchAt handlers root oid) final oid views ret) l fun out new =>
      new = [] ∧ ∀ res, out = .ok res → res.request = ret.request := by
  induction views generalizing ret l with
  | nil =>
    refine Traced.spec_pure ⟨rfl, fun res h => ?_⟩
    obtain rfl := Outcome.ok.inj h
    rfl
  | cons v views ih =>
    obtain ⟨hv, hcov⟩ := List.forall_mem_cons.mp hcov
    refine Traced.spec_bind (searchAt_spec hroot oid v ret l) ?_ ?_ ?_
    · rintro res new ⟨hnew, hres⟩
      obtain rfl := hnew.resolve_right fun h => hv h.1
      obtain ⟨_, hreq, _⟩ := hres res rfl
      cases final v res with
      | true =>
        refine Traced.spec_pure ⟨rfl, fun res' h => ?_⟩
        obtain rfl := Outcome.ok.inj h
        exact hreq
      | false => exact (ih hcov _).mono fun out new h => ⟨by simpa using h.1, hreq ▸ h.2⟩
    · intro new h
      exact ⟨h.1.resolve_right fun h => hv h.1, by simp⟩
    · intro new h
      exact ⟨h.1.resolve_right fun h => hv h.1, by simp⟩

/-- At most one view of a list covers the OID, so at most one handler is called. -/
lemma walkViews_set (hroot : RootOk root) {oid : Oid} {final : Oid → OidSearchRes → Bool}
    {views : List Oid} (hfree : PrefixFree views) {ret : OidSearchRes} (l : List Call) :
    Traced.Spec (walkViews (searchAt handlers root oid) final oid views ret) l fun out new =>
      (new = [] ∨ ∃ v ∈ views, v <+: oid ∧ ∃ c, new = [c] ∧ c.op = ret.request ∧ c.IsFor root oid) ∧
      ∀ res, out = .ok res → res.request = ret.request := by
  induction views generalizing ret l with
  | nil =>
    refine (walkViews_quiet hroot (by simp) l).mono fun out new h => ⟨Or.inl h.1, h.2⟩
  | cons v views ih =>
    obtain ⟨hv, hfree⟩ := List.pairwise_cons.mp hfree
    by_cases hcov : v <+: oid
    · have hrest : ∀ w ∈ views, ¬ w <+: oid := fun w hw hwo =>
        (List.prefix_or_prefix_of_prefix hcov hwo).elim (hv w hw).1 (hv w hw).2
      refine Traced.spec_bind (searchAt_spec hroot oid v ret l) ?_ ?_ ?_
      · rintro res new ⟨hnew, hres⟩
        obtain ⟨_, hreq, _⟩ := hres res rfl
        have hcall : new = [] ∨ ∃ w ∈ v :: views, w <+: oid ∧
            ∃ c, new = [c] ∧ c.op = ret.request ∧ c.IsFor root oid :=
          hnew.imp_right fun h => ⟨v, List.mem_cons_self, h⟩
        cases final v res with
        | true =>
          refine Traced.spec_pure ⟨by simpa using hcall, fun res' h => ?_⟩
          obtain rfl := Outcome.ok.inj h
          exact hreq
        | false =>
          apply (walkViews_quiet hroot hrest _).mono
          rintro out new' ⟨rfl, hres'⟩
          exact ⟨by simpa using hcall, fun res' h => (hres' res' h).trans hreq⟩
      · intro new h
        exact ⟨h.1.imp_right fun h => ⟨v, List.mem_cons_self, h⟩, by simp⟩
      · intro new h
        exact ⟨h.1.imp_right fun h => ⟨v, List.mem_cons_self, h⟩, by simp⟩
    · refine Traced.spec_bind (searchAt_spec hroot oid v ret l) ?_ ?_ ?_
      · rintro res new ⟨hnew, hres⟩
        obtain rfl := hnew.resolve_right fun h => hcov h.1
        obtain ⟨_, hreq, _⟩ := hres res rfl
        cases final v res with
        | true =>
          refine Traced.spec_pure ⟨Or.inl rfl, fun res' h => ?_⟩
          obtain rfl := Outcome.ok.inj h
          exact hreq
        | false =>
          refine (ih hfree _).mono fun out new' h => ⟨?_, fun res' h' => (h.2 res' h').trans hreq⟩
          rw [List.nil_append, ← hreq]
          exact h.1.imp_right fun ⟨w, hw, hwo⟩ => ⟨w, List.mem_cons_of_mem _ hw, hwo⟩
      · intro new h
        exact ⟨Or.inl (h.1.resolve_right fun h => hcov h.1), by simp⟩
      · intro new h
        exact ⟨Or.inl (h.1.resolve_right fun h => hcov h.1), by simp⟩

lemma mibSet_spec (hroot : RootOk root) (hrun : ViewRun ops mv) (sdg : SnmpDatagram)
    (vbIn : VarBind) {ret : OidSearchRes} (hreq : ret.request = .set) (l : List Call) :
    Traced.Spec (mibSet handlers root mv sdg vbIn ret) l fun out new =>
      (new = [] ∨ ∃ c, new = [c] ∧ c.SetFor root mv sdg vbIn) ∧
      ∀ res, out = .ok res → res.request = .set := by
  simp only [mibSet]
  generalize he : (requester mv sdg).filter (fun e => requesterViewCover sdg (some e) .write vbIn.oid) = e
  have hmem : ∀ x ∈ e, requester mv sdg = some x := fun x hx =>
    (Option.filter_eq_some_iff.mp (he.trans hx)).1
  have hok : ∀ x ∈ e, x.Ok := fun x hx => hrun.requester_ok (hmem x hx)
  have hfree : PrefixFree (viewsOf e .write) := by
    cases e with
    | none => exact .nil
    | some x => exact (hok x rfl).prefixFree .write
  rw [viewLoop_requester sdg e (viewsOf_nodup hok .write)]
  apply (walkViews_set hroot hfree l).mono
  rintro out new ⟨hnew, hres⟩
  rw [request_checkAccess, hreq] at hnew hres
  refine ⟨hnew.imp_right ?_, hres⟩
  rintro ⟨v, hv, hcov, c, rfl, hop, hfor⟩
  refine ⟨c, rfl, hop, hfor, ?_⟩
  cases e with
  | none => simp [viewsOf] at hv
  | some x => exact ⟨x, hmem x rfl, v, by simpa [viewsOf] using hv, hcov⟩

lemma setStatus_request (ret : OidSearchRes) : (setStatus ret).request = ret.request := by
  simp only [setStatus]
  split_ifs <;> rfl

/-- What the iterations of `snmp_set` keep, from the datagram `sdg` on. -/
structure SetInv (mv : MibViews) (sdg : SnmpDatagram) (s : ProcState) : Prop where
  request : s.ret.request = .set
  requester_eq : requester mv s.sdg = requester mv sdg

lemma SetInv.setStep (hroot : RootOk root) (hrun : ViewRun ops mv) {sdg : SnmpDatagram}
    {s : ProcState} (h : SetInv mv sdg s) (vbIn : VarBind) (l : List Call) :
    Traced.Spec (setStep handlers root mv s vbIn) l fun out new =>
      (new = [] ∨ ∃ c, new = [c] ∧ c.SetFor root mv sdg vbIn) ∧ ∀ s', out = .ok s' → SetInv mv sdg s' := by
  simp only [SmartSnmp.setStep, processVarBind]
  cases hdec : decodeValue vbIn s.ret with
  | none => exact Traced.spec_crash ⟨Or.inl rfl, by simp⟩
  | some ret =>
    have hcall : ∀ new : List Call, (new = [] ∨ ∃ c, new = [c] ∧ c.SetFor root mv s.sdg vbIn) →
        new = [] ∨ ∃ c, new = [c] ∧ c.SetFor root mv sdg vbIn := by
      intro new hnew
      apply hnew.imp_right
      rintro ⟨c, hc, hop, hfor, x, hx, hcov⟩
      exact ⟨c, hc, hop, hfor, x, h.requester_eq ▸ hx, hcov⟩
    have hreq : ret.request = .set := (decodeValue_request hdec).trans h.request
    refine Traced.spec_bind (mibSet_spec hroot hrun s.sdg vbIn hreq l) ?_ ?_ ?_
    · rintro res new ⟨hnew, hres⟩
      cases setVarBind vbIn res with
      | none => exact Traced.spec_crash ⟨by simpa using hcall new hnew, by simp⟩
      | some vbOut =>
        refine Traced.spec_pure ⟨by simpa using hcall new hnew, fun s' hs' => ?_⟩
        obtain rfl := Outcome.ok.inj hs'
        exact ⟨(setStatus_request res).trans (hres res rfl), h.requester_eq⟩
    · intro new hnew
      exact ⟨hcall new hnew.1, by simp⟩
    · intro new hnew
      exact ⟨hcall new hnew.1, by simp⟩

/-- The calls of a request are made for different varbinds of it. -/
def SetCalls (root : MibNode) (mv : MibViews) (sdg : SnmpDatagram) (vbs : List VarBind)
    (calls : List Call) : Prop :=
  ∃ called, List.Sublist called vbs ∧ List.Forall₂ (Call.SetFor root mv sdg) calls called

lemma SetCalls.append {sdg : SnmpDatagram} {vbIn : VarBind} {vbs : List VarBind}
    {new calls : List Call} (hnew : new = [] ∨ ∃ c, new = [c] ∧ c.SetFor root mv sdg vbIn)
    (h : SetCalls root mv sdg vbs calls) : SetCalls root mv sdg (vbIn :: vbs) (new ++ calls) := by
  obtain ⟨called, hsub, hall⟩ := h
  rcases hnew with rfl | ⟨c, rfl, hc⟩
  · exact ⟨called, hsub.cons vbIn, hall⟩
  · exact ⟨vbIn :: called, hsub.cons_cons vbIn, .cons hc hall⟩

lemma SetCalls.nil (sdg : SnmpDatagram) (vbs : List VarBind) : SetCalls root mv sdg vbs [] :=
  ⟨[], List.nil_sublist vbs, .nil⟩

lemma SetInv.foldlM (hroot : RootOk root) (hrun : ViewRun ops mv) {sdg : SnmpDatagram}
    {s : ProcState} (h : SetInv mv sdg s) (vbs : List VarBind) (l : List Call) :
    Traced.Spec (vbs.foldlM (SmartSnmp.setStep handlers root mv) s) l fun _ new =>
      SetCalls root mv sdg vbs new := by
  induction vbs generalizing s l with
  | nil => exact Traced.spec_pure (.nil sdg [])
  | cons vbIn vbs ih =>
    rw [List.foldlM_cons]
    refine Traced.spec_bind (h.setStep hroot hrun vbIn l) ?_ ?_ ?_
    · rintro s' new ⟨hnew, hs'⟩
      exact (ih (hs' s' rfl) _).mono fun out new' hcalls => hcalls.append hnew
    · intro new hnew
      exact by simpa using SetCalls.append hnew.1 (.nil sdg vbs)
    · intro new hnew
      exact by simpa using SetCalls.append hnew.1 (.nil sdg vbs)

/-- No SET call is left of calls that are all for another operation. -/
lemma SetCalls.of_read {sdg : SnmpDatagram} {vbs : List VarBind} {new : List Call}
    (h : ∀ c ∈ new, c.op ≠ .set) :
    SetCalls root mv sdg vbs (new.filter fun c => c.op = .set) := by
  have hnil : new.filter (fun c => c.op = .set) = [] :=
    List.filter_eq_nil_iff.mpr fun c hc => by simpa using h c hc
  rw [hnil]
  exact .nil sdg vbs

lemma SetCalls.filter {sdg : SnmpDatagram} {vbs : List VarBind} {new : List Call}
    (h : SetCalls root mv sdg vbs new) :
    SetCalls root mv sdg vbs (new.filter fun c => c.op = .set) := by
  obtain ⟨called, hsub, hall⟩ := h
  have hset : ∀ c ∈ new, c.op = .set := by
    clear hsub
    induction hall with
    | nil => simp
    | cons hc _ ih => exact List.forall_mem_cons.mpr ⟨hc.1, ih⟩
  rw [List.filter_eq_self.mpr fun c hc => by simpa using hset c hc]
  exact ⟨called, hsub, hall⟩

end Write

/-! ### Requests -/

section Requests

variable {handlers : Handlers} {root : MibNode} {ops : List ViewOp} {mv : MibViews}
  (hroot : RootOk root) (hrun : ViewRun ops mv)

include hroot hrun

lemma safe_snmpGet (sdg : SnmpDatagram) :
    Traced.Safe (·.op ≠ .set) (fun x => ReadInv (· = .get) mv sdg x.1)
      (snmpGet handlers root mv sdg) := by
  have hinit : ReadInv (· = .get) mv sdg (.init .get sdg) :=
    readInv_init (I := (· = .get)) rfl mv sdg
  refine (Traced.safe_foldlM sdg.vbInList ?_ hinit).bind fun s hs => safe_respond hs
  intro s vbIn _ hs
  exact ReadInv.getStep hroot hrun hs vbIn

lemma safe_snmpGetnext (hinc : Increasing handlers) (sdg : SnmpDatagram) :
    Traced.Safe (·.op ≠ .set) (fun x => ReadInv (fun _ => True) mv sdg x.1)
      (snmpGetnext handlers root mv sdg) := by
  have hinit : ReadInv (fun _ => True) mv sdg (.init .getNext sdg) := readInv_init trivial mv sdg
  refine (Traced.safe_foldlM sdg.vbInList ?_ hinit).bind fun s hs => safe_respond hs
  intro s vbIn _ hs
  exact ReadInv.getnextStep hroot hrun hinc hs vbIn

lemma safe_snmpBulkget (hinc : Increasing handlers) (sdg : SnmpDatagram) :
    Traced.Safe (·.op ≠ .set) (fun x => ReadInv (fun _ => True) mv sdg x.1)
      (snmpBulkget handlers root mv sdg) := by
  have hinit : ReadInv (fun _ => True) mv sdg
      (.init .getNext { sdg with pduHdr := { sdg.pduHdr with errIdx := 0 } }) :=
    ⟨trivial, rfl, by simp [ProcState.init], by simp [ProcState.init]⟩
  exact (ReadInv.bulkRounds hroot hrun hinc hinit _).bind fun s hs => safe_respond hs

lemma snmpSet_calls (sdg : SnmpDatagram) (l : List Call) :
    Traced.Spec (snmpSet handlers root mv sdg) l fun _ new =>
      SetCalls root mv sdg sdg.vbInList (new.filter fun c => c.op = .set) := by
  have hinit : SetInv mv sdg (.init .set sdg) := ⟨rfl, rfl⟩
  refine Traced.spec_bind (hinit.foldlM hroot hrun sdg.vbInList l) ?_ ?_ ?_
  · intro s new hnew
    simp only [respond]
    cases snmpResponse s.sdg with
    | none => exact Traced.spec_crash (by simpa using hnew.filter)
    | some r => exact Traced.spec_pure (by simpa using hnew.filter)
  · intro new hnew
    exact hnew.filter
  · intro new hnew
    exact hnew.filter

end Requests

/-- How a request may end and what it may call. A handler is called for SET only at the OID of a
varbind that a write view of the requester covers, and for each varbind at most once. Of a GET,
GETNEXT or GETBULK request, each varbind of the response comes with the report of its search, and if
the search reported no error and an instance then a read view of the requester covers the OID. -/
structure AccessSound (root : MibNode) (mv : MibViews) (sdg : SnmpDatagram)
    (out : Outcome (Option (ProcState × Response))) (calls : List Call) : Prop where
  writes : SetCalls root mv sdg sdg.vbInList (calls.filter fun c => c.op = .set)
  reported : ∀ s r, out = .ok (some (s, r)) → sdg.pduHdr.pduType ≠ mibReqSet →
    s.sdg.vbOutList = sdg.vbOutList ++ s.reports.map Prod.snd
  reads : ∀ s r, out = .ok (some (s, r)) → sdg.pduHdr.pduType ≠ mibReqSet →
    ∀ ret vbOut, (ret, vbOut) ∈ s.reports → ret.errStat = 0 → mibTagValid ret.var.tag = true →
      Covered mv sdg .read vbOut.oid

/-- A reading request calls no handler for SET. -/
lemma accessSound_of_read {root : MibNode} {mv : MibViews} {sdg : SnmpDatagram} {I : MibReq → Prop}
    {request : Traced Call (ProcState × Response)}
    (h : Traced.Safe (·.op ≠ .set) (fun x => ReadInv I mv sdg.setResponse x.1) request) (l : List Call) :
    Traced.Spec (request >>= fun r => pure (some r)) l (AccessSound root mv sdg) := by
  have hsome : Traced.Safe (·.op ≠ .set)
      (fun x => ∀ s r, x = some (s, r) → ReadInv I mv sdg.setResponse s)
      (request >>= fun r => pure (some r)) := by
    refine h.bind fun x hx => Traced.safe_pure fun s r heq => ?_
    obtain rfl := Option.some.inj heq
    exact hx
  refine (hsome l).mono fun out new hout => ⟨.of_read hout.1, fun s r hs _ => ?_, fun s r hs _ => ?_⟩
  · exact (hout.2 (some (s, r)) hs s r rfl).out
  · intro ret vbOut hmem herr htag
    exact (hout.2 (some (s, r)) hs s r rfl).reports (ret, vbOut) hmem ⟨herr, htag⟩

/-- Access control is sound for every tree and all lists of views that registrations lead to, and
for every request. -/
theorem snmpRequestDispatch_access {root : MibNode} (hroot : Reachable root) {ops : List ViewOp}
    {mv : MibViews} (hrun : ViewRun ops mv) {handlers : Handlers} (hinc : Increasing handlers)
    (sdg : SnmpDatagram) (l : List Call) :
    Traced.Spec (snmpRequestDispatch handlers root mv sdg) l (AccessSound root mv sdg) := by
  have hok := hroot.rootOk
  simp only [snmpRequestDispatch, requestFunction]
  split_ifs with hget hnext hset hbulk
  · exact accessSound_of_read (safe_snmpGet hok hrun sdg.setResponse) l
  · exact accessSound_of_read (safe_snmpGetnext hok hrun hinc sdg.setResponse) l
  · have hset' : ¬ sdg.pduHdr.pduType ≠ mibReqSet := not_not.mpr hset
    refine Traced.spec_bind (snmpSet_calls hok hrun sdg.setResponse l) ?_ ?_ ?_
    · intro x new hnew
      refine Traced.spec_pure ⟨?_, fun _ _ _ h => absurd h hset', fun _ _ _ h => absurd h hset'⟩
      rw [List.append_nil]
      exact hnew
    · intro new hnew
      exact ⟨hnew, by simp, by simp⟩
    · intro new hnew
      exact ⟨hnew, by simp, by simp⟩
  · exact accessSound_of_read (safe_snmpBulkget hok hrun hinc sdg.setResponse) l
  · exact Traced.spec_pure ⟨.of_read (by simp), by simp, by simp⟩

/-- A community that may read and write below `1`, and a GETNEXT request of it. -/
def sampleViews : MibViews := mibCommunityReg .empty [1] [112] .write

lemma viewRun_sampleViews : ViewRun [.reg .community [1] [112] .write] sampleViews :=
  .snoc .nil (.communityReg _ _ _ _)

def sampleGetnext : SnmpDatagram := { SnmpDatagram.clear with
  version := 1
  contextName := [112]
  pduHdr := ⟨mibReqGetnext, 0, 1, 7, 1, 0, 1, 0⟩
  vbInList := [⟨[1], 0, asn1TagNul, []⟩]
  vbInCnt := 1 }

lemma increasing_scalarHandlers : Increasing scalarHandlers := by
  intro l cb suffix subOid val tag _ _ h
  by_cases hlt : suffix < [0]
  · simp only [scalarHandlers, getNextCall, hlt, not_true_eq_false, and_false, if_false,
      Reply.results.injEq] at h
    exact h.2.1 ▸ hlt
  · simp [scalarHandlers, getNextCall, hlt] at h

theorem snmpRequestDispatch_access_sampleGetnext :
    Reachable oneInstance ∧ ViewRun [.reg .community [1] [112] .write] sampleViews ∧
    Increasing scalarHandlers ∧
    ∃ s r, (snmpRequestDispatch scalarHandlers oneInstance sampleViews sampleGetnext []).1 =
        .ok (some (s, r)) ∧
      s.reports.map (fun e => (e.1.errStat, e.1.var.tag, e.2.oid)) = [(0, asn1TagInt, [1, 0])] ∧
      Covered sampleViews sampleGetnext .read [1, 0] := by
  have hviews : ViewRun [.reg .community [1] [112] .write] sampleViews :=
    .snoc .nil (.communityReg _ _ _ _)
  obtain ⟨s, r, hok, hreports⟩ : ∃ s r,
      (snmpRequestDispatch scalarHandlers oneInstance sampleViews sampleGetnext []).1 =
        .ok (some (s, r)) ∧
      s.reports.map (fun e => (e.1.errStat, e.1.var.tag, e.2.oid)) = [(0, asn1TagInt, [1, 0])] :=
    ⟨_, _, rfl, rfl⟩
  obtain ⟨_, _, hsound⟩ := snmpRequestDispatch_access reachable_oneInstance hviews
    increasing_scalarHandlers sampleGetnext []
  refine ⟨reachable_oneInstance, hviews, increasing_scalarHandlers, s, r, hok, hreports, ?_⟩
  obtain ⟨⟨ret, vbOut⟩, hmem, heq⟩ : ∃ e ∈ s.reports,
      (e.1.errStat, e.1.var.tag, e.2.oid) = (0, asn1TagInt, [1, 0]) := by
    rw [← List.mem_map, hreports]
    exact List.mem_singleton.mpr rfl
  simp only [Prod.mk.injEq] at heq
  have := hsound.reads s r hok (by decide) ret vbOut hmem heq.1 (by rw [heq.2.1]; rfl)
  rwa [heq.2.2] at this

end SmartSnmp
