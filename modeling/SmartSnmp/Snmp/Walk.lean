import Mathlib.Data.Set.Finite.List
import SmartSnmp.Lib.Walk
import SmartSnmp.Snmp.Agent
import SmartSnmp.Snmp.Independent

/-!
# Walks by GETNEXT

A manager walks over what it may read with GETNEXT requests of one varbind, each for the OID of the
answer before, until the end of the view. Between two requests the tree and the views may change, and
so may the instances of the handlers.
-/

namespace SmartSnmp

open PrefixOrder MibNode Jump Run

/-! ### Responses that can be sent -/

/-- An OID that is encoded in no more bytes than its dry run counts. -/
def EncodableOid (oid : Oid) : Prop := oid.length < 256 ∧ ((oid.drop 2).map subIdLen).sum ≤ 254

lemma EncodableOid.length_le {oid : Oid} (h : EncodableOid oid) : (berOidEnc oid).length ≤ 255 := by
  match oid with
  | [] => simp [berOidEnc]
  | [_] => simp [berOidEnc]
  | a :: b :: ids =>
    have hsum := h.2
    rw [berOidEnc, List.length_cons, length_flatMap_subIdEnc]
    exact Nat.succ_le_succ hsum

lemma berUintEncTry_le (value : UInt32) : berUintEncTry value ≤ 5 := by
  have := trimIndex_le 0 (wordBytes value) 3
  simp only [berUintEncTry]
  split_ifs <;> omega

/-- A variable is encoded if its elements are there, and its OID is encodable. -/
lemma encodeValue_of_extent {var : Variable} (hext : extent var.tag var.len ≤ var.value.length)
    (hobj : var.tag = asn1TagObjid → ∀ oid, oidAt var.value var.len = some oid → EncodableOid oid) :
    ∃ valLen value, berValueEncTry var.value var.len var.tag = some valLen ∧
      encodeValue var valLen var.len = some value ∧
        value.length ≤ max 255 (extent var.tag var.len) := by
  simp only [berValueEncTry, encodeValue, berValueEnc]
  split_ifs with hint huint hobjid hstr hlen
  · refine ⟨_, _, rfl, Option.filter_eq_some_iff.mpr ⟨rfl, by rw [length_berIntEnc_eq_try]; simp⟩, ?_⟩
    have := (berIntEnc_spec (wordAt var.value).toInt32).2.1
    omega
  · refine ⟨_, _, rfl, Option.filter_eq_some_iff.mpr ⟨rfl, by rw [length_berUintEnc]; simp⟩, ?_⟩
    have := berUintEncTry_le (wordAt var.value)
    rw [length_berUintEnc]
    omega
  · rw [hobjid, extent_objid] at hext
    have hat : oidAt var.value var.len ≠ none := by simp [oidAt, hext]
    obtain ⟨oid, hoid⟩ := Option.ne_none_iff_exists'.mp hat
    obtain ⟨hlen, hsum⟩ := hobj hobjid oid hoid
    have htry := (berOidEncTry_eq_iff hlen).mpr hsum
    rw [hoid, Option.bind_some]
    refine ⟨_, _, htry, Option.filter_eq_some_iff.mpr ⟨rfl, by simp⟩, ?_⟩
    exact (EncodableOid.length_le ⟨hlen, hsum⟩).trans (le_max_left _ _)
  · refine ⟨_, _, rfl, Option.filter_eq_some_iff.mpr ⟨rfl, by simp⟩, ?_⟩
    rw [extent_octstr _ hstr]
    exact (List.length_take_le _ _).trans (le_max_right _ _)
  · rw [extent_octstr _ hstr] at hext
    exact absurd hext hlen
  · exact ⟨_, _, rfl, Option.filter_eq_some_iff.mpr ⟨rfl, by simp⟩, by simp⟩

lemma getVarBind_of_extent (ret : OidSearchRes)
    (hext : extent ret.var.tag ret.var.len ≤ ret.var.value.length)
    (hobj : ret.var.tag = asn1TagObjid →
      ∀ oid, oidAt ret.var.value ret.var.len = some oid → EncodableOid oid)
    (hlen : ret.oid.length ≤ mibOidMaxLen) :
    ∃ vbOut, getVarBind ret = some vbOut ∧ vbOut.oid = ret.oid ∧
      vbOut.valueType = ret.var.tag ∧ vbOut.value.length ≤ max 255 (extent ret.var.tag ret.var.len) := by
  obtain ⟨valLen, value, htry, henc, hle⟩ := encodeValue_of_extent hext hobj
  obtain ⟨oidLen, hoid⟩ := Option.ne_none_iff_exists'.mp (berOidEncTry_ne_none hlen)
  exact ⟨⟨ret.oid, responseVbLen oidLen value.length, ret.var.tag, value⟩,
    by simp [getVarBind, htry, henc, responseVarBind, hoid], rfl, rfl, hle⟩

/-- An answer whose value, if it is an OID, is encodable. -/
def Answer.Encodable (a : Answer) : Prop :=
  a.tag = asn1TagObjid → ∀ len bytes oid, a.stored = some (len, bytes) →
    oidAt bytes len = some oid → EncodableOid oid

lemma Answer.extent_stored {a : Answer} {len : Nat} {bytes : List UInt8}
    (h : a.stored = some (len, bytes)) : extent a.tag len = bytes.length := by
  obtain ⟨hval, -⟩ := Option.filter_eq_some_iff.mp h
  exact (extent_toVariable hval).2

/-- What is returned for an encodable answer can be sent. -/
lemma Returned.getVarBind {res : OidSearchRes} {hit : Oid × Answer} (h : Returned res hit)
    (henc : hit.2.Encodable) (hlen : hit.1.length ≤ mibOidMaxLen) :
    ∃ vbOut, SmartSnmp.getVarBind res = some vbOut ∧ vbOut.oid = res.oid ∧
      vbOut.valueType = res.var.tag ∧ vbOut.value.length ≤ mibValueMaxLen := by
  obtain ⟨hoid, -, htag, len, bytes, hstored, hreslen, hpre⟩ := h
  have hext := Answer.extent_stored hstored
  have hbytes : bytes.length ≤ mibValueMaxLen := by
    simpa using (Option.filter_eq_some_iff.mp hstored).2
  have hthere : extent res.var.tag res.var.len ≤ res.var.value.length := by
    rw [htag, hreslen, hext]
    exact hpre.length_le
  have hobjid : res.var.tag = asn1TagObjid →
      ∀ oid, oidAt res.var.value res.var.len = some oid → EncodableOid oid := by
    intro hobj oid hat
    rw [htag] at hobj
    rw [hobj, extent_objid] at hext
    apply henc hobj len bytes oid hstored
    have htake : bytes = res.var.value.take (4 * len) := by
      rw [hext]
      exact List.prefix_iff_eq_take.mp hpre
    rw [hreslen, ← oidAt_take _ _ (by rw [hext]; exact hpre.length_le), ← htake] at hat
    exact hat
  obtain ⟨vbOut, hvb, hvbOid, hvbTag, hvalue⟩ :=
    getVarBind_of_extent res hthere hobjid (hoid ▸ hlen)
  rw [htag, hreslen, hext] at hvalue
  exact ⟨vbOut, hvb, hvbOid, hvbTag, hvalue.trans (max_le (by decide) hbytes)⟩

/-! ### One question -/

/-- What the handlers and the views are at a question of the walk: the requester is known, GETNEXT is
answered with the least instance above a suffix, the sub-identifiers of the instances are below
`2 ^ 31`, no view is an instance, and OID values are encodable. -/
structure Moment (a : Agent) (sdg : SnmpDatagram) (handlers : Handlers) (S : Int → Set Oid) : Prop where
  known : ∃ e, requester a.mv sdg = some e ∧ ∀ v ∈ e.views .read, ¬ Existing a.root S v
  handled : ∃ fam, LeastHandlers a.root handlers fam S ∧
    ∀ p cb s ans, Occurs a.root p (.inst cb) → fam cb s = some ans → ans.Encodable
  small : ∀ x, Existing a.root S x → SmallOid x

/-- The instances that the requester may read. -/
def Readable (a : Agent) (sdg : SnmpDatagram) (S : Int → Set Oid) : Set Oid :=
  {x | Existing a.root S x ∧ Covered a.mv sdg .read x}

/-- A loop over views in which each search ends with the answer of a handler or with none. -/
lemma walkViews_returned {P : Oid × Answer → Prop} {orig : Oid}
    {search : Oid → OidSearchRes → Traced Call OidSearchRes} {views : List Oid}
    (hsearch : ∀ v ∈ views, ∀ ret l, ∃ hit, SearchEnds orig (search v ret l).1 hit ∧
      ∀ x ∈ hit, fits x = true ∧ P x)
    {ret : OidSearchRes} (hret : ret.var.tag = asn1TagEndOfMibView ∨ views ≠ []) (l : List Call) :
    ∃ res, (walkViews search (fun _ ret => ret.var.tag ≠ asn1TagEndOfMibView) orig views ret l).1 =
        .ok res ∧
      (res.var.tag = asn1TagEndOfMibView ∧ res.oid = orig ∨ ∃ x, P x ∧ fits x = true ∧ Returned res x) := by
  induction views generalizing ret l with
  | nil => exact ⟨_, rfl, .inl ⟨hret.resolve_right (by simp), rfl⟩⟩
  | cons v views ih =>
    rw [walkViews, Traced.bind_apply]
    rcases hout : search v ret l with ⟨out, l'⟩
    obtain ⟨hit, hends, hhit⟩ := hsearch v List.mem_cons_self ret l
    rw [hout] at hends
    cases hit with
    | none =>
      obtain ⟨res, rfl, -, -, htag⟩ := hends
      have hrest := ih (fun u hu => hsearch u (List.mem_cons_of_mem v hu)) (.inl htag) l'
      simpa [htag] using hrest
    | some x =>
      obtain ⟨hfit, hP⟩ := hhit x rfl
      simp only [SearchEnds, hfit, if_true] at hends
      obtain ⟨res, rfl, hres⟩ := hends
      have hfinal : res.var.tag ≠ asn1TagEndOfMibView := by
        rw [hres.2.2.1]
        intro h
        have := x.2.valid
        rw [h] at this
        exact absurd this (by decide)
      exact ⟨res, by simp [hfinal], .inr ⟨x, hP, hfit, hres⟩⟩

/-- What a varbind of a response says about the next instance. -/
def VarBind.next (vbOut : VarBind) : Option Oid :=
  if vbOut.valueType = asn1TagEndOfMibView then none else some vbOut.oid

/-- A varbind that fits the arrays that a varbind is read into. -/
structure VarBind.Fits (vb : VarBind) : Prop where
  oid : vb.oid.length ≤ mibOidMaxLen
  value : vb.value.length ≤ mibValueMaxLen

/-- GETNEXT goes once through the read views of the requester. -/
lemma mibGetnext_eq_walkViews (handlers : Handlers) (root : MibNode) {ops : List ViewOp}
    {mv : MibViews} (hrun : ViewRun ops mv) {sdg : SnmpDatagram} {e : ViewEntry}
    (he : requester mv sdg = some e) (vb : VarBind) (ret : OidSearchRes) :
    mibGetnext handlers root mv sdg vb ret =
      walkViews (fun view ret => mibTreeSearchNext handlers view vb.oid root ret)
        (fun _ ret => ret.var.tag ≠ asn1TagEndOfMibView) vb.oid (e.views .read) ret := by
  have hnd : (viewsOf (some e) .read).Nodup := ((hrun.requester_ok he).prefixFree .read).nodup
  simp only [mibGetnext, he]
  exact viewLoop_requester sdg (some e) hnd ret

section Question

variable {a : Agent} {sdg : SnmpDatagram} {handlers : Handlers} {S : Int → Set Oid}

/-- GETNEXT finds the next instance that the requester may read, and what it returns can be sent. -/
lemma Moment.mibGetnext (ha : a.Ok) (h : Moment a sdg handlers S) (vb : VarBind)
    (hsmall : SmallOid vb.oid) (hlen : vb.oid.length ≤ mibOidMaxLen) (ret : OidSearchRes)
    (l : List Call) :
    ∃ res vbOut, (SmartSnmp.mibGetnext handlers a.root a.mv sdg vb ret l).1 = .ok res ∧
      getVarBind res = some vbOut ∧ res.errStat = 0 ∧ vbOut.Fits ∧
      vbOut.oid = vbOut.next.getD vb.oid ∧ Finds (above (Readable a sdg S) vb.oid) vbOut.next := by
  obtain ⟨e, he, hviews⟩ := h.known
  obtain ⟨fam, hleast, henc⟩ := h.handled
  obtain ⟨ops, hrun, hops⟩ := ha.viewRun
  have hroot := ha.reachable.rootOk
  -- each search of a view
  have hhit := fun v ret l => mibTreeSearchNext_hit v vb.oid hroot hleast
    (fun _ => oidCmp_neg_iff hsmall) ret l
  have hsearch : ∀ v ∈ e.views .read, ∀ ret l,
      NextInView a.root S v vb.oid (mibTreeSearchNext handlers v vb.oid a.root ret l).1 := by
    intro v hv ret l
    obtain ⟨hit, hends, hfrom, hnext⟩ := hhit v ret l
    refine (nextInView_iff (fun x hx => (hfrom x hx).fits hleast) hends).mpr (hnext.mpr ?_)
    by_cases hin : v <+: vb.oid
    · exact .inl hin
    rcases lt_trichotomy v vb.oid with hlt | heq | hlt
    · exact .inr (.inl hlt)
    · exact absurd (heq ▸ List.prefix_refl v) hin
    · exact .inr (.inr (.inr ⟨hviews v hv, nearBelow_of_small vb.oid
        (ha.small_views he .read v hv)⟩))
  have hloop := mibGetnext_eq_walkViews handlers a.root hrun he vb ret
  have hread : e.views .read ≠ [] := (hrun.requester_ok he).readable
  obtain ⟨L, hcan⟩ := hrun.requester_canonical hops he .read
  have hnext : NextInViews a.root S (e.views .read) vb.oid
      (SmartSnmp.mibGetnext handlers a.root a.mv sdg vb ret l).1 := by
    rw [hloop]
    exact walkViews_next (pairwise_before_of_canonical hcan) hsearch (fun hnil => absurd hnil hread) l
  -- what is returned
  obtain ⟨res, hres, hcases⟩ := walkViews_returned (P := FromHandler a.root fam)
    (fun v _ ret l => by
      obtain ⟨hit, hends, hfrom, -⟩ := hhit v ret l
      exact ⟨hit, hends, fun x hx => ⟨(hfrom x hx).fits hleast, hfrom x hx⟩⟩)
    (.inr hread) l
  rw [← hloop] at hres
  have hset : above (Readable a sdg S) vb.oid = TargetsIn a.root S (e.views .read) vb.oid := by
    ext x
    simp only [above, Readable, TargetsIn, Covered, he, Option.some.injEq, Set.mem_ofPred_eq,
      exists_eq_left']
    tauto
  rw [hset]
  have hvb : ∃ vbOut, getVarBind res = some vbOut ∧ vbOut.oid = res.oid ∧
      vbOut.valueType = res.var.tag ∧ vbOut.Fits := by
    rcases hcases with ⟨htag, hoid⟩ | ⟨x, ⟨p, cb, s, hocc, ha, -⟩, hfit, hret⟩
    · have hlen' : res.oid.length ≤ mibOidMaxLen := hoid ▸ hlen
      have hext : extent res.var.tag res.var.len = 0 := by rw [htag]; rfl
      obtain ⟨vbOut, h1, h2, h3, h4⟩ := getVarBind_of_extent res (by rw [hext]; exact Nat.zero_le _)
        (fun hobj => by rw [htag] at hobj; exact absurd hobj (by decide)) hlen'
      rw [hext] at h4
      exact ⟨vbOut, h1, h2, h3, h2 ▸ hlen', h4.trans (by decide)⟩
    · have hlen' : x.1.length ≤ mibOidMaxLen := by
        simp only [fits, Bool.and_eq_true, decide_eq_true_eq] at hfit
        exact hfit.2
      obtain ⟨vbOut, h1, h2, h3, h4⟩ := hret.getVarBind (henc p cb s x.2 hocc ha) hlen'
      have hoid : vbOut.oid = x.1 := h2.trans hret.1
      exact ⟨vbOut, h1, h2, h3, hoid ▸ hlen', h4⟩
  obtain ⟨vbOut, hout, hoid, htype, hfits⟩ := hvb
  refine ⟨res, vbOut, hres, hout, ?_⟩
  rw [VarBind.next, htype, hoid]
  rcases hnext with ⟨x, res', hx, heq, rfl, herr, hvalid⟩ | ⟨hempty, res', heq, horig, herr, htag⟩
  · obtain rfl := Outcome.ok.inj (hres.symm.trans heq)
    have hne : res.var.tag ≠ asn1TagEndOfMibView := by
      intro htag
      rw [htag] at hvalid
      exact absurd hvalid (by decide)
    rw [if_neg hne]
    exact ⟨herr, hfits, rfl, hx⟩
  · obtain rfl := Outcome.ok.inj (hres.symm.trans heq)
    rw [if_pos htag]
    exact ⟨herr, hfits, horig, hempty⟩

/-- The varbind of a GETNEXT request. -/
def askVarBind (oid : Oid) : VarBind := ⟨oid, 0, asn1TagNul, []⟩

/-- A GETNEXT request is answered, with one varbind. -/
lemma Moment.request (ha : a.Ok) (h : Moment a sdg handlers S)
    (hsdg : sdg.pduHdr.pduType = mibReqGetnext) (hout : sdg.vbOutList = []) {oid : Oid}
    (hsmall : SmallOid oid) (hlen : oid.length ≤ mibOidMaxLen) (l : List Call) :
    ∃ s r l', ∃ vbOut : VarBind, snmpRequestDispatch handlers a.root a.mv (sdg.only (askVarBind oid)) l =
        (.ok (some (s, r)), l') ∧
      s.sdg.vbOutList = [vbOut] ∧ (s.reports.map fun e => e.1.errStat) = [0] ∧ vbOut.Fits ∧
      vbOut.oid = vbOut.next.getD oid ∧ Finds (above (Readable a sdg S) oid) vbOut.next := by
  have hask : Moment a (sdg.only (askVarBind oid)).setResponse handlers S := ⟨h.known, h.handled, h.small⟩
  obtain ⟨ret, hdec⟩ : ∃ ret, decodeValue (askVarBind oid) (.init .getNext) = some ret := ⟨_, rfl⟩
  obtain ⟨res, vbOut, hres, hvb, herr, hfits, hoid, hnext⟩ :=
    hask.mibGetnext ha (askVarBind oid) hsmall hlen ret l
  rcases hrun : SmartSnmp.mibGetnext handlers a.root a.mv (sdg.only (askVarBind oid)).setResponse
    (askVarBind oid) ret l with ⟨out, l'⟩
  rw [hrun] at hres
  obtain rfl : out = .ok res := hres
  have hinit : Reading .getNext (sdg.only (askVarBind oid)).setResponse
      (.init .getNext (sdg.only (askVarBind oid)).setResponse) := .init .getNext hout
  let s := (ProcState.init .getNext (sdg.only (askVarBind oid)).setResponse).add res vbOut
  have hstep : getnextStep handlers a.root a.mv
      (.init .getNext (sdg.only (askVarBind oid)).setResponse) (askVarBind oid) l = (.ok s, l') := by
    have hd : decodeValue (askVarBind oid)
        (ProcState.init .getNext (sdg.only (askVarBind oid)).setResponse).ret = some ret := hdec
    rw [getnextStep, processVarBind, hd]
    refine (Traced.bind_apply_ok hrun _).trans ?_
    rw [hvb]
    rfl
  have hsend : ∀ vb ∈ s.sdg.vbOutList, berOidEncTry vb.oid ≠ none := by
    intro vb hmem
    have hlist : s.sdg.vbOutList = sdg.vbOutList ++ [vbOut] := rfl
    rw [hlist, hout, List.nil_append, List.mem_singleton] at hmem
    rw [hmem]
    exact getVarBind_sendable hvb
  obtain ⟨parts, hparts⟩ := mapM_varBindEncode_ne_none hsend
  have houts : (asn1Lengths s.sdg).vbOutList = s.sdg.vbOutList := by
    rw [asn1Lengths]
    split_ifs <;> rfl
  obtain ⟨r, hr⟩ : ∃ r, SmartSnmp.respond s = pure (s, r) := by
    rw [SmartSnmp.respond, snmpResponse, houts, hparts]
    exact ⟨_, rfl⟩
  refine ⟨s, r, l', vbOut, ?_, ?_, ?_, hfits, hoid, hnext⟩
  · have htype : (sdg.only (askVarBind oid)).pduHdr.pduType = mibReqGetnext := hsdg
    rw [snmpRequestDispatch_getnext htype, readRequest]
    have hvbs : (sdg.only (askVarBind oid)).setResponse.vbInList = [askVarBind oid] := rfl
    rw [hvbs, List.foldlM_cons]
    simp only [List.foldlM_nil, Traced.bind_pure, Traced.bind_assoc]
    rw [Traced.bind_apply_ok hstep, hr]
    rfl
  · change sdg.vbOutList ++ [vbOut] = [vbOut]
    rw [hout, List.nil_append]
  · change [res.errStat] = [0]
    rw [herr]

end Question

/-! ### Runs -/

/-- The agent and a walk over it. -/
structure ManagedWalk where
  agent : Agent
  walk : Walk.State Oid

/-- What happens next: a call on the agent, or a question of the manager. The instances that the
handlers have at the time of a question are not the program's. -/
inductive WalkInput where
  | change (op : AgentOp)
  | ask (handlers : Handlers) (instances : Int → Set Oid)

/-- A question asks for the OID of the answer before; a walk that has ended asks no more. -/
def walkStep (sdg : SnmpDatagram) (w : ManagedWalk) : WalkInput → Option ManagedWalk
  | .change op => (w.agent.apply op).map fun agent => { w with agent }
  | .ask handlers _ =>
    if w.walk.ended then some w
    else
      match snmpRequestDispatch handlers w.agent.root w.agent.mv
        (sdg.only (askVarBind w.walk.position)) [] with
      | (.ok r, _) =>
        match answers r with
        | [vbOut] => some { w with walk := w.walk.answer vbOut.next }
        | _ => none
      | _ => none

/-- The calls return and register small views, and the questions find the handlers and the views as
`Moment` says. -/
def Fair (sdg : SnmpDatagram) (w : ManagedWalk) : WalkInput → Prop
  | .change op => op.Small ∧ w.agent.apply op ≠ none
  | .ask handlers instances => Moment w.agent sdg handlers instances

/-- The requester may read the instance at the time of a question. -/
def Present (sdg : SnmpDatagram) (y : Oid) (w : ManagedWalk) : WalkInput → Prop
  | .change _ => True
  | .ask _ instances => y ∈ Readable w.agent sdg instances

/-- What a question asks from. -/
def WalkInput.asked (sdg : SnmpDatagram) (w : ManagedWalk) : WalkInput → Option (Set Oid)
  | .change _ => none
  | .ask _ instances => some (Readable w.agent sdg instances)

/-- The agent keeps its invariant, and the manager asks for small OIDs that fit a varbind. -/
structure ManagedWalk.Ok (w : ManagedWalk) : Prop where
  agent : w.agent.Ok
  small : SmallOid w.walk.position
  length : w.walk.position.length ≤ mibOidMaxLen

section Runs

variable {sdg : SnmpDatagram} (hsdg : sdg.pduHdr.pduType = mibReqGetnext)
  (hout : sdg.vbOutList = [])

/-- A call leaves the walk where it is. -/
lemma walkStep_change {w : ManagedWalk} (hw : w.Ok) {op : AgentOp} (h : Fair sdg w (.change op)) :
    ∃ w', walkStep sdg w (.change op) = some w' ∧ w'.Ok ∧ w'.walk = w.walk := by
  obtain ⟨hsmall, hne⟩ := h
  obtain ⟨agent, hagent⟩ := Option.ne_none_iff_exists'.mp hne
  refine ⟨{ w with agent }, by simp [walkStep, hagent], ?_, rfl⟩
  exact ⟨hw.agent.apply hsmall hagent, hw.small, hw.length⟩

include hsdg hout

/-- A question takes the next instance that the requester may read. -/
lemma walkStep_ask {w : ManagedWalk} (hw : w.Ok) {handlers : Handlers} {S : Int → Set Oid}
    (h : Moment w.agent sdg handlers S) (hgo : w.walk.ended = false) :
    ∃ r, walkStep sdg w (.ask handlers S) = some { w with walk := w.walk.answer r } ∧
      Finds (above (Readable w.agent sdg S) w.walk.position) r ∧
      ManagedWalk.Ok { w with walk := w.walk.answer r } := by
  obtain ⟨s, resp, l', vbOut, hrun, hans, -, hfits, hoid, hnext⟩ :=
    h.request hw.agent hsdg hout hw.small hw.length []
  have hone : answers (some (s, resp)) = [vbOut] := hans
  refine ⟨vbOut.next, ?_, hnext, hw.agent, ?_, ?_⟩
  · simp only [walkStep, hgo, hrun, hone]
    rfl
  · cases hn : vbOut.next with
    | none => exact hw.small
    | some x =>
      rw [hn] at hnext
      simpa using h.small x hnext.1.1.1
  · cases hn : vbOut.next with
    | none => exact hw.length
    | some x =>
      rw [hn, Option.getD_some] at hoid
      simpa [hoid] using hfits.oid

omit hsdg hout in
lemma walkStep_ended {w : ManagedWalk} (hended : w.walk.ended = true) (handlers : Handlers)
    (S : Int → Set Oid) : walkStep sdg w (.ask handlers S) = some w := by
  simp [walkStep, hended]

/-- A step goes on with the walk. -/
lemma walkStep_goes {w : ManagedWalk} (hw : w.Ok) {i : WalkInput} (h : Fair sdg w i) :
    ∃ w', walkStep sdg w i = some w' ∧ w'.Ok ∧ Walk.Goes w.walk (i.asked sdg w) w'.walk := by
  cases i with
  | change op =>
    obtain ⟨w', hstep, hok, hwalk⟩ := walkStep_change hw h
    exact ⟨w', hstep, hok, hwalk ▸ .rests⟩
  | ask handlers S =>
    cases hgo : w.walk.ended with
    | true => exact ⟨w, walkStep_ended hgo handlers S, hw, .ended hgo⟩
    | false =>
      obtain ⟨r, hstep, hfinds, hok⟩ := walkStep_ask hsdg hout hw h hgo
      exact ⟨_, hstep, hok, .takes hfinds⟩

end Runs

/-- A walk of a manager over a running agent. Whatever calls on the tree and on the views come between
its questions: every question is answered, the answers ascend from the start, each is an instance that
the requester could read when it was asked for, and an instance that it can read at every question is
an answer or still ahead. -/
theorem getnextWalk_changes {sdg : SnmpDatagram} (hsdg : sdg.pduHdr.pduType = mibReqGetnext)
    (hout : sdg.vbOutList = []) {start : Oid} (hsmall : SmallOid start)
    (hlen : start.length ≤ mibOidMaxLen) {inputs : List WalkInput}
    (hfair : EachStep (walkStep sdg) (Fair sdg) ⟨.init, .begin start⟩ inputs) :
    ∃ w, run (walkStep sdg) ⟨.init, .begin start⟩ inputs = some w ∧
      (start :: w.walk.answers).Pairwise (· < ·) ∧
      (∀ x ∈ w.walk.answers, ∃ before handlers S after w₁,
        inputs = before ++ .ask handlers S :: after ∧
        run (walkStep sdg) ⟨.init, .begin start⟩ before = some w₁ ∧ x ∈ Readable w₁.agent sdg S) ∧
      ∀ y, start < y → EachStep (walkStep sdg) (Present sdg y) ⟨.init, .begin start⟩ inputs →
        y ∈ w.walk.answers ∨ w.walk.ended = false ∧ w.walk.position < y := by
  have hok : ManagedWalk.Ok ⟨.init, .begin start⟩ := ⟨Agent.ok_init, hsmall, hlen⟩
  obtain ⟨w, hrun, -, hwalked⟩ := Walk.run_walked (fun w i => WalkInput.asked sdg w i)
    ManagedWalk.walk (fun w i hw hi => walkStep_goes hsdg hout hw hi) hok
    (Walk.State.ascending_begin start) hfair
  refine ⟨w, hrun, ?_, ?_, fun y hlt hpresent => ?_⟩
  · have hasc := hwalked.ascending
    rwa [Walk.State.Ascending, hwalked.start] at hasc
  · intro x hx
    obtain ⟨before, i, after, w₁, S, hinputs, hrun₁, hasked, hxS⟩ :=
      (hwalked.sound x hx).resolve_left (by simp [Walk.State.begin])
    cases i with
    | change op => cases hasked
    | ask handlers S' =>
      obtain rfl := Option.some.inj hasked
      exact ⟨before, handlers, S', after, w₁, hinputs, hrun₁, hxS⟩
  · refine hwalked.meets y (Walk.State.meets_begin hlt) (hpresent.mono fun w i hi S hasked => ?_)
    cases i with
    | change op => cases hasked
    | ask handlers S' =>
      obtain rfl := Option.some.inj hasked
      exact hi

/-! ### One scalar -/

lemma existing_scalar {x : Oid} : Existing oneInstance scalarInstances x ↔ x = [1, 0] := by
  constructor
  · rintro ⟨p, cb, a, hocc, rfl, rfl⟩
    have hmem := (reachable_oneInstance.rootOk.1.mem_leaves_iff p cb).mpr hocc
    obtain ⟨rfl, -⟩ : p = [1] ∧ cb = 7 := by
      simpa [oneInstance, MibNode.leaves, MibNode.leavesList, under] using hmem
    rfl
  · rintro rfl
    exact ⟨[1], 7, [0], .child Nat.zero_lt_one rfl rfl (.here _), rfl, rfl⟩

/-- An agent with one scalar, that the community of the sample views may read. -/
def scalarAgent : Agent := ⟨oneInstance, sampleViews⟩

lemma moment_scalar : Moment scalarAgent sampleGetnext scalarHandlers scalarInstances where
  known := by
    refine ⟨⟨[112], [[1]], [[1]]⟩, by decide, ?_⟩
    intro v hv
    obtain rfl : v = [1] := by simpa [ViewEntry.views] using hv
    exact fun h => absurd (existing_scalar.mp h) (by decide)
  handled := by
    refine ⟨scalarFamily, leastHandlers_scalar, ?_⟩
    intro p cb s ans _ hans hobj
    simp only [scalarFamily] at hans
    split_ifs at hans
    obtain rfl := Option.some.inj hans
    exact absurd hobj (by decide)
  small := by
    rintro x hx
    rw [existing_scalar.mp hx]
    simp [SmallOid]

/-- The scalar is registered, then the community, and a walk from the root of the tree begins. -/
def sampleWalk : List WalkInput :=
  [.change (.node (.reg [1] 7)), .change (.view (.reg .community [1] [112] .write)),
    .ask scalarHandlers scalarInstances]

theorem getnextWalk_changes_sampleWalk :
    ∃ w, run (walkStep sampleGetnext) ⟨.init, .begin []⟩ sampleWalk = some w ∧
      ([1, 0] ∈ w.walk.answers ∨ w.walk.ended = false ∧ w.walk.position < [1, 0]) := by
  have hsteps : ∀ C : ManagedWalk → WalkInput → Prop,
      C ⟨.init, .begin []⟩ (.change (.node (.reg [1] 7))) →
      C ⟨⟨oneInstance, .empty⟩, .begin []⟩ (.change (.view (.reg .community [1] [112] .write))) →
      C ⟨scalarAgent, .begin []⟩ (.ask scalarHandlers scalarInstances) →
      EachStep (walkStep sampleGetnext) C ⟨.init, .begin []⟩ sampleWalk := by
    intro C h₁ h₂ h₃
    refine ⟨h₁, fun w hw => ?_⟩
    obtain rfl := Option.some.inj hw
    refine ⟨h₂, fun w hw => ?_⟩
    obtain rfl := Option.some.inj hw
    exact ⟨h₃, fun _ _ => trivial⟩
  have hreg : (AgentOp.view (.reg .community [1] [112] .write)).Small := by
    simp [AgentOp.Small, SmallOid]
  have htype : sampleGetnext.pduHdr.pduType = mibReqGetnext := rfl
  have hsmall : SmallOid [] := by simp [SmallOid]
  obtain ⟨w, hrun, -, -, hmeets⟩ := getnextWalk_changes htype rfl hsmall (by decide)
    (hsteps (Fair sampleGetnext) ⟨trivial, Agent.apply_node_ne_none Agent.ok_init _⟩
      ⟨hreg, by simp [Agent.apply, MibViews.apply]⟩ moment_scalar)
  refine ⟨w, hrun, hmeets [1, 0] (by decide) (hsteps (Present sampleGetnext [1, 0]) trivial trivial ?_)⟩
  exact ⟨existing_scalar.mpr rfl, ⟨[112], [[1]], [[1]]⟩, by decide, [1], by decide, by decide⟩

end SmartSnmp
