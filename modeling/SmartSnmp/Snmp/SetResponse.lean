import SmartSnmp.Snmp.Lengths
import SmartSnmp.Snmp.Reencode
import SmartSnmp.Snmp.Views

/-!
# The response to a SET request

The variable of a request goes through the search with its value: only the tag may change. The
response has the type of the request, and its value is what is encoded of the variable under the
tag the search has left.
-/

namespace SmartSnmp

/-! ### Searches -/

/-- A result of a SET request whose variable is `var` but for the tag. -/
structure OidSearchRes.Carries (ret : OidSearchRes) (var : Variable) : Prop where
  request : ret.request = .set
  len : ret.var.len = var.len
  value : ret.var.value = var.value

namespace OidSearchRes.Carries

variable {handlers : Handlers} {root : MibNode} {mv : MibViews} {var : Variable}
  {ret : OidSearchRes}

lemma setTag (h : ret.Carries var) (tag : UInt8) : (ret.setTag tag).Carries var :=
  ⟨h.request, h.len, h.value⟩

lemma checkAccess (h : ret.Carries var) (e : Option ViewEntry) :
    (SmartSnmp.checkAccess e ret).Carries var := by
  rw [SmartSnmp.checkAccess]
  split_ifs
  · exact ⟨h.request, h.len, h.value⟩
  · exact h

lemma receive (h : ret.Carries var) {reply : Reply} {ret' : OidSearchRes}
    (hrec : ret.receive reply = some ret') : ret'.Carries var := by
  cases reply with
  | error =>
    obtain rfl := Option.some.inj hrec
    exact ⟨h.request, h.len, h.value⟩
  | results errStat subOid val tag =>
    simp only [OidSearchRes.receive, h.request, if_true] at hrec
    split_ifs at hrec
    · obtain rfl := Option.some.inj hrec
      exact ⟨rfl, h.len, h.value⟩
    · obtain rfl := Option.some.inj hrec
      exact ⟨rfl, h.len, h.value⟩

lemma mibInstanceSearch (h : ret.Carries var) : Traced.Returns
    (fun ret' => ret'.Carries var ∧ ret'.oid = ret.oid) (mibInstanceSearch handlers ret) := by
  intro l ret' l' hrun
  rw [mibInstanceSearch_apply] at hrun
  cases hrec : ret.receive (handlers l ret.call) with
  | none => simp [hrec] at hrun
  | some res =>
    simp only [hrec, Prod.mk.injEq, Outcome.ok.injEq] at hrun
    obtain ⟨rfl, -⟩ := hrun
    exact ⟨h.receive hrec, (receive_frame hrec).2.1⟩

lemma mibTreeSearchLoop (h : ret.Carries var) (pos : Nat) (node : MibNode) (oid : Oid) :
    Traced.Returns (fun r => r.2.Carries var ∧ r.2.oid = ret.oid)
      (mibTreeSearchLoop handlers ret pos node oid) := by
  have hend : ∀ (n : MibNode) pos instId tag, Traced.Returns (ε := Call)
      (fun r : MibNode × OidSearchRes => r.2.Carries var ∧ r.2.oid = ret.oid)
      (pure (n, { ret with instPos := pos, instId := instId }.setTag tag)) :=
    fun n pos instId tag => Traced.returns_pure ⟨⟨h.request, h.len, h.value⟩, rfl⟩
  induction oid generalizing pos node with
  | nil => cases node <;> exact hend _ _ _ _
  | cons x xs ih =>
    cases node with
    | null => exact hend _ _ _ _
    | inst cb =>
      have hask : ({ ret with instPos := pos, instId := x :: xs, callback := cb } :
          OidSearchRes).Carries var := ⟨h.request, h.len, h.value⟩
      exact hask.mibInstanceSearch.bind fun ret' hret' => Traced.returns_pure hret'
    | group cap cnt subId subPtr =>
      rw [SmartSnmp.mibTreeSearchLoop]
      by_cases hi : 0 ≤ oidBinarySearch subId cnt x
      · rw [if_pos hi]
        cases subPtr[(oidBinarySearch subId cnt x).toNat]? with
        | none => exact Traced.returns_crash
        | some child => exact ih (pos + 1) child
      · rw [if_neg hi]
        exact hend _ _ _ _

lemma searchAt (h : ret.Carries var) (oid view : Oid) : Traced.Returns
    (fun ret' => ret'.Carries var ∧ ret'.oid = oid) (searchAt handlers root oid view ret) := by
  have hstart : ({ ret with oid := oid, errStat := 0 } : OidSearchRes).Carries var :=
    ⟨h.request, h.len, h.value⟩
  refine Traced.Returns.bind (Q := fun r => r.2.Carries var ∧ r.2.oid = oid) ?_
    fun r hr => Traced.returns_pure hr
  rw [mibTreeSearch]
  by_cases hcover : oidCover view oid ≤ 0
  · rw [if_pos hcover]
    exact Traced.returns_pure ⟨hstart.setTag _, rfl⟩
  · rw [if_neg hcover]
    exact hstart.mibTreeSearchLoop 0 root oid

/-- The search of a SET request keeps the value and the OID of the varbind. -/
lemma mibSet (h : ret.Carries var) (sdg : SnmpDatagram) (vbIn : VarBind) : Traced.Returns
    (fun ret' => ret'.Carries var ∧ ret'.oid = vbIn.oid) (mibSet handlers root mv sdg vbIn ret) := by
  simp only [SmartSnmp.mibSet]
  generalize (requester mv sdg).filter _ = e
  generalize viewFuel e .write = fuel
  have hstart := h.checkAccess e
  generalize SmartSnmp.checkAccess e ret = ret' at hstart
  generalize (none : Option Oid) = view
  induction fuel generalizing view ret' with
  | zero => exact fun l a l' hrun => by simp [viewLoop] at hrun
  | succ fuel ih =>
    rw [viewLoop]
    cases requesterNextView sdg e .write view with
    | none => exact Traced.returns_pure ⟨⟨hstart.request, hstart.len, hstart.value⟩, rfl⟩
    | some v =>
      refine (hstart.searchAt vbIn.oid v).bind fun res hres => ?_
      cases getFinal vbIn.oid v res with
      | true => exact Traced.returns_pure hres
      | false => exact ih res hres.1 (some v)

end OidSearchRes.Carries

/-! ### Responses -/

/-- A varbind of a response repeats that of the request. -/
structure VarBind.Repeats (vbOut vbIn : VarBind) : Prop where
  oid : vbOut.oid = vbIn.oid
  valueType : vbOut.valueType = vbIn.valueType
  value : vbOut.value = vbIn.value

/-- The varbind of a response repeats that of the request if the value keeps its bytes under the tag that
the search has left. -/
lemma setVarBind_repeats_iff {vb vbOut : VarBind} {ret₀ ret₁ ret : OidSearchRes}
    (hcan : Canonical vb.valueType vb.value) (hdec : decodeValue vb ret₀ = some ret₁)
    (hcarries : ret.Carries ret₁.var) (hoid : ret.oid = vb.oid) (hout : setVarBind vb ret = some vbOut) :
    vbOut.Repeats vb ↔ KeepsBytes vb.valueType vb.value ret₀.var.value ret.var.tag := by
  obtain ⟨valLen, htry, hout⟩ := Option.bind_eq_some_iff.mp hout
  obtain ⟨value, henc, hout⟩ := Option.bind_eq_some_iff.mp hout
  obtain ⟨oidLen, -, rfl⟩ := Option.map_eq_some_iff.mp hout
  obtain ⟨henc, hfit⟩ := Option.filter_eq_some_iff.mp henc
  have hrepeats : VarBind.Repeats ⟨ret.oid, responseVbLen oidLen value.length, vb.valueType, value⟩ vb ↔
      value = vb.value := ⟨fun h => h.value, fun h => ⟨hoid, rfl, h⟩⟩
  -- what the variable holds
  obtain ⟨⟨len, bytes⟩, hvb, hmem⟩ := Option.bind_eq_some_iff.mp hdec
  obtain ⟨mem, hwrite, rfl⟩ := Option.map_eq_some_iff.mp hmem
  rw [Variable.write] at hwrite
  split_ifs at hwrite
  obtain rfl := Option.some.inj hwrite
  rw [hcarries.len, hcarries.value] at htry
  rw [hcarries.value] at henc
  rw [hrepeats]
  exact reencode_iff hcan hvb htry henc (by simpa using hfit)

/-- The tag that the search of a SET request leaves for a varbind, `var` being the variable with its value.
It is kept where the write views of the requester do not cover the OID. Else it is what the handler above
the OID returns after the calls `l`, or that of a missing instance or object, unless a view before the
one that covers the OID is taken to be ahead of it, or no success is lost to a view after it. -/
inductive LeavesTag (handlers : Handlers) (root : MibNode) (who : Option ViewEntry) (l : List Call)
    (vb : VarBind) (var : Variable) : UInt8 → Prop
  | noAccess (h : ∀ e, who = some e → ∀ v ∈ e.views .write, ¬ v <+: vb.oid) :
      LeavesTag handlers root who l vb var var.tag
  | access {e : ViewEntry} {before after : List Oid} {view : Oid} {o : Report} (he : who = some e)
      (hviews : e.views .write = before ++ view :: after) (hcover : view <+: vb.oid)
      (ho : Reports handlers root l .write vb.oid
        (if before = [] then var else { var with tag := asn1TagNoSuchObj }) o) :
      LeavesTag handlers root who l vb var
        (if (∃ u ∈ before, oidCmp vb.oid u < 0) ∨ after ≠ [] ∧ ¬ o.Success then asn1TagNoSuchObj
          else o.2)

section Runs

variable {handlers : Handlers} {root : MibNode} {mv : MibViews} {ops : List ViewOp} {sdg : SnmpDatagram}
  {vb : VarBind} {l l' : List Call}

/-- The write views that cover the OID. -/
lemma mibSet_access (hviews : ViewRun ops mv) (h : RootOk root) {ret ret' : OidSearchRes}
    (hreq : ret.request = .set) (hrun : mibSet handlers root mv sdg vb ret l = (.ok ret', l'))
    {e : ViewEntry} {before after : List Oid} {view : Oid} {o : Report}
    (he : requester mv sdg = some e) (hsplit : e.views .write = before ++ view :: after)
    (hcover : view <+: vb.oid) (ho : Reports handlers root l .write vb.oid
      (if before = [] then ret.var else { ret.var with tag := asn1TagNoSuchObj }) o) :
    ret'.var.tag = if (∃ u ∈ before, oidCmp vb.oid u < 0) ∨ after ≠ [] ∧ ¬ o.Success then
      asn1TagNoSuchObj else o.2 := by
  have hwalk : mibAccess handlers root mv .write sdg vb ret =
      walkViews (searchAt handlers root vb.oid) (getFinal vb.oid) vb.oid (e.views .write) ret :=
    mibAccess_eq_walkViews hviews he ⟨view, by simp [hsplit], hcover⟩ ret
  have hfree := (hviews.requester_ok he).prefixFree .write
  rw [hsplit] at hwalk hfree
  obtain ⟨res, l'', hloop, hrep⟩ := walkViews_report h (by simp) hfree hcover hreq l ho
  rw [← hwalk] at hloop
  obtain ⟨hres, -⟩ := Prod.mk.inj (hrun.symm.trans hloop)
  obtain rfl := Outcome.ok.inj hres
  have htag := congrArg Prod.snd hrep
  rw [apply_ite Prod.snd] at htag
  exact htag

/-- No write view covers the OID. -/
lemma mibSet_noAccess (hno : ∀ e, requester mv sdg = some e → ∀ v ∈ e.views .write, ¬ v <+: vb.oid)
    {ret ret' : OidSearchRes} (hrun : mibSet handlers root mv sdg vb ret l = (.ok ret', l')) :
    ret'.var.tag = ret.var.tag := by
  have hfilter : (requester mv sdg).filter (fun e => requesterViewCover sdg (some e) .write vb.oid) =
      none := by
    refine Option.filter_eq_none_iff.mpr fun e he hcover => ?_
    have hany : (e.views .write).any (fun v => 0 < oidCover v vb.oid) = true := by
      simp only [requesterViewCover] at hcover
      split_ifs at hcover <;> exact hcover
    obtain ⟨v, hv, hpos⟩ := List.any_eq_true.mp hany
    exact hno e he v hv ((oidCover_pos_iff _ _).mp (of_decide_eq_true hpos))
  have hloop : viewLoop (requesterNextView sdg none .write) (searchAt handlers root vb.oid)
      (getFinal vb.oid) vb.oid (viewFuel none .write) none (checkAccess none ret) =
      walkViews (searchAt handlers root vb.oid) (getFinal vb.oid) vb.oid [] (checkAccess none ret) :=
    viewLoop_requester sdg none List.nodup_nil _
  simp only [mibSet, hfilter, hloop] at hrun
  obtain ⟨hret, -⟩ := Prod.mk.inj hrun
  obtain rfl := Outcome.ok.inj hret
  rfl

/-- The search of a SET request leaves the one tag that it may leave. -/
lemma mibSet_leavesTag_iff (hviews : ViewRun ops mv) (h : RootOk root) {ret ret' : OidSearchRes}
    (hreq : ret.request = .set) (hrun : mibSet handlers root mv sdg vb ret l = (.ok ret', l'))
    (tag : UInt8) : LeavesTag handlers root (requester mv sdg) l vb ret.var tag ↔ tag = ret'.var.tag := by
  constructor
  · rintro (hno | ⟨he, hsplit, hcover, ho⟩)
    · exact (mibSet_noAccess hno hrun).symm
    · exact (mibSet_access hviews h hreq hrun he hsplit hcover ho).symm
  · rintro rfl
    by_cases hno : ∀ e, requester mv sdg = some e → ∀ v ∈ e.views .write, ¬ v <+: vb.oid
    · rw [mibSet_noAccess hno hrun]
      exact .noAccess hno
    · push Not at hno
      obtain ⟨e, he, view, hview, hcover⟩ := hno
      obtain ⟨before, after, hsplit⟩ := List.append_of_mem hview
      generalize hvar : (if before = [] then ret.var else { ret.var with tag := asn1TagNoSuchObj }) = var
      obtain ⟨o, ho⟩ : ∃ o, Reports handlers root l .write vb.oid var o := by
        have hset : OidSearchRes.request { ret with var := var } = accessRequest .write := hreq
        obtain ⟨_, res, _, -, ho⟩ := mibTreeSearch_reports h (by simp) hcover hset l
        exact ⟨res.report, ho⟩
      subst hvar
      rw [mibSet_access hviews h hreq hrun he hsplit hcover ho]
      exact .access he hsplit hcover ho

/-- An iteration of `snmp_set` adds a varbind that repeats its own if the value keeps its bytes under the
tag that the search leaves. -/
lemma setStep_repeats (hviews : ViewRun ops mv) (h : RootOk root) {s s' : ProcState}
    (hreq : s.ret.request = .set) (hsame : s.sdg.SameRequester sdg)
    (hcan : Canonical vb.valueType vb.value)
    (hrun : setStep handlers root mv s vb l = (.ok s', l')) :
    s'.ret.request = .set ∧ s'.sdg.SameRequester sdg ∧ ∃ ret vbOut, decodeValue vb s.ret = some ret ∧
      s'.sdg.vbOutList = s.sdg.vbOutList ++ [vbOut] ∧
      (vbOut.Repeats vb ↔ ∃ tag, LeavesTag handlers root (requester mv sdg) l vb ret.var tag ∧
        KeepsBytes vb.valueType vb.value s.ret.var.value tag) := by
  rw [setStep, processVarBind] at hrun
  cases hdec : decodeValue vb s.ret with
  | none => simp [hdec] at hrun
  | some ret₁ =>
    simp only [hdec] at hrun
    have hcarries : ret₁.Carries ret₁.var := ⟨(decodeValue_request hdec).trans hreq, rfl, rfl⟩
    obtain ⟨ret, l₁, hset, hrun⟩ := Traced.bind_eq_ok hrun
    obtain ⟨hret, hoid⟩ := hcarries.mibSet s.sdg vb l ret l₁ hset
    cases hout : setVarBind vb ret with
    | none => simp [hout] at hrun
    | some vbOut =>
      simp only [hout, Traced.pure_apply, Prod.mk.injEq, Outcome.ok.injEq] at hrun
      obtain ⟨rfl, -⟩ := hrun
      refine ⟨(setStatus_request ret).trans hret.request, ⟨hsame.version, hsame.userName, hsame.contextName⟩,
        ret₁, vbOut, rfl, rfl, ?_⟩
      rw [setVarBind_repeats_iff hcan hdec hret hoid hout, ← hsame.requester mv]
      simp only [mibSet_leavesTag_iff hviews h hcarries.request hset, exists_eq_left]

/-- The varbinds that a loop over the varbinds of a SET request adds. -/
lemma foldlM_setStep_repeats (hviews : ViewRun ops mv) (h : RootOk root) {vbs : List VarBind}
    (hcan : ∀ vb ∈ vbs, Canonical vb.valueType vb.value) {s s' : ProcState} (hreq : s.ret.request = .set)
    (hsame : s.sdg.SameRequester sdg)
    (hrun : vbs.foldlM (setStep handlers root mv) s l = (.ok s', l')) :
    ∃ outs, s'.sdg.vbOutList = s.sdg.vbOutList ++ outs ∧ outs.length = vbs.length ∧
      ∀ before vb after, vbs = before ++ vb :: after → ∃ s₁ l₁ ret vbOut,
        before.foldlM (setStep handlers root mv) s l = (.ok s₁, l₁) ∧
        decodeValue vb s₁.ret = some ret ∧ outs[before.length]? = some vbOut ∧
        (vbOut.Repeats vb ↔ ∃ tag, LeavesTag handlers root (requester mv sdg) l₁ vb ret.var tag ∧
          KeepsBytes vb.valueType vb.value s₁.ret.var.value tag) := by
  induction vbs generalizing s l with
  | nil =>
    obtain ⟨hs, -⟩ := Prod.mk.inj hrun
    obtain rfl := Outcome.ok.inj hs
    exact ⟨[], by simp, rfl, by simp⟩
  | cons v vbs ih =>
    obtain ⟨hv, hvbs⟩ := List.forall_mem_cons.mp hcan
    rw [List.foldlM_cons] at hrun
    obtain ⟨s₁, l₁, hstep, hrun⟩ := Traced.bind_eq_ok hrun
    obtain ⟨hreq₁, hsame₁, ret, vbOut, hdec, hout, hrepeats⟩ :=
      setStep_repeats hviews h hreq hsame hv hstep
    obtain ⟨outs, houts, hlen, hall⟩ := ih hvbs hreq₁ hsame₁ hrun
    refine ⟨vbOut :: outs, by simp [houts, hout], by simp [hlen], fun before vb after hsplit => ?_⟩
    cases before with
    | nil =>
      obtain ⟨rfl, -⟩ := List.cons.inj hsplit
      exact ⟨s, l, ret, vbOut, rfl, hdec, rfl, hrepeats⟩
    | cons v' before =>
      obtain ⟨rfl, hrest⟩ := List.cons.inj hsplit
      obtain ⟨s₂, l₂, ret₂, vbOut₂, hfold, h₂⟩ := hall before vb after hrest
      exact ⟨s₂, l₂, ret₂, vbOut₂, by rw [List.foldlM_cons, Traced.bind_apply_ok hstep, hfold], h₂⟩

/-- Each varbind of the response to a SET request with canonical values repeats that of the request if and
only if its value keeps its bytes under the tag that its search leaves: `before` are the varbinds before
it, `s₁` the state and `l₁` the calls after them. -/
theorem snmpSet_repeats_iff (hviews : ViewRun ops mv) (hroot : Reachable root)
    (hset : sdg.pduHdr.pduType = mibReqSet)
    (hcan : ∀ vb ∈ sdg.vbInList, Canonical vb.valueType vb.value) {s : ProcState} {r : Response}
    (hrun : snmpRequestDispatch handlers root mv sdg l = (.ok (some (s, r)), l')) :
    snmpResponse s.sdg = some r ∧ ∃ outs, s.sdg.vbOutList = sdg.vbOutList ++ outs ∧
      outs.length = sdg.vbInList.length ∧
      ∀ before vb after, sdg.vbInList = before ++ vb :: after → ∃ s₁ l₁ ret vbOut,
        before.foldlM (setStep handlers root mv) (.init .set sdg.setResponse) l = (.ok s₁, l₁) ∧
        decodeValue vb s₁.ret = some ret ∧ outs[before.length]? = some vbOut ∧
        (vbOut.Repeats vb ↔ ∃ tag, LeavesTag handlers root (requester mv sdg) l₁ vb ret.var tag ∧
          KeepsBytes vb.valueType vb.value s₁.ret.var.value tag) := by
  obtain ⟨hfold, hresponse⟩ := snmpRequestDispatch_set hset hrun
  exact ⟨hresponse, foldlM_setStep_repeats hviews hroot.rootOk hcan rfl ⟨rfl, rfl, rfl⟩ hfold⟩

end Runs

/-- A SET request of the community of `sampleViews`. -/
def sampleSet (vbs : List VarBind) : SnmpDatagram := { sampleGetnext with
  pduHdr := { sampleGetnext.pduHdr with pduType := mibReqSet }
  vbInList := vbs }

/-- Handlers that set whatever they are asked to. -/
def settingHandlers : Handlers := fun _ call => .results 0 call.subOid call.val (call.valType.getD 0)

/-- An integer of the instance at `1`. -/
def sampleInteger : VarBind := ⟨[1, 0], 0, asn1TagInt, [5]⟩

/-- A string at an OID that the views do not cover. -/
def sampleString : VarBind := ⟨[2], 0, asn1TagOctstr, [97]⟩

lemma decodeValue_tag {vb : VarBind} {ret ret' : OidSearchRes} (h : decodeValue vb ret = some ret') :
    ret'.var.tag = vb.valueType := by
  obtain ⟨x, -, hmem⟩ := Option.bind_eq_some_iff.mp h
  obtain ⟨mem, -, rfl⟩ := Option.map_eq_some_iff.mp hmem
  rfl

/-- The handler of the instance returns the type that it is asked to set. -/
lemma leavesTag_sampleInteger (l : List Call) (var : Variable) :
    LeavesTag settingHandlers oneInstance (some ⟨[112], [[1]], [[1]]⟩) l sampleInteger var var.tag := by
  have hreports : Reports settingHandlers oneInstance l .write sampleInteger.oid var (0, var.tag) :=
    .reply { OidSearchRes.init .set with instId := [0], callback := 7, var := var }
      (.child (i := 0) (by decide) rfl rfl (.here _)) rfl (by decide) rfl rfl rfl rfl
  have hviews : ViewEntry.views ⟨[112], [[1]], [[1]]⟩ .write = [] ++ [1] :: [] := rfl
  simpa using LeavesTag.access rfl hviews (by decide) hreports

/-- The varbinds of a response: name, type and value. -/
def responseVarBinds (out : Outcome (Option (ProcState × Response))) :
    Option (List (Oid × UInt8 × List UInt8)) :=
  match out with
  | .ok (some (s, _)) => some (s.sdg.vbOutList.map fun vb => (vb.oid, vb.valueType, vb.value))
  | _ => none

lemma exists_of_responseVarBinds {out : Outcome (Option (ProcState × Response))}
    {vbs : List (Oid × UInt8 × List UInt8)} (h : responseVarBinds out = some vbs) :
    ∃ s r, out = .ok (some (s, r)) ∧ s.sdg.vbOutList.length = vbs.length := by
  match out, h with
  | .ok (some (s, r)), h =>
    refine ⟨s, r, rfl, ?_⟩
    rw [← Option.some.inj h, List.length_map]

/-- An integer is set and a string is refused: both are repeated. -/
theorem snmpSet_repeats_iff_sampleSet : ∃ s r l' out₁ out₂,
    snmpRequestDispatch settingHandlers oneInstance sampleViews
      (sampleSet [sampleInteger, sampleString]) [] = (.ok (some (s, r)), l') ∧
    s.sdg.vbOutList = [out₁, out₂] ∧ out₁.Repeats sampleInteger ∧ out₂.Repeats sampleString := by
  have hsummary : responseVarBinds (snmpRequestDispatch settingHandlers oneInstance sampleViews
      (sampleSet [sampleInteger, sampleString]) []).1 =
        some [([1, 0], asn1TagInt, [5]), ([2], asn1TagOctstr, [97])] := by decide +kernel
  rcases hrun : snmpRequestDispatch settingHandlers oneInstance sampleViews
      (sampleSet [sampleInteger, sampleString]) [] with ⟨out, l'⟩
  rw [hrun] at hsummary
  obtain ⟨s, r, rfl, hlen⟩ := exists_of_responseVarBinds hsummary
  have hcan : ∀ vb ∈ (sampleSet [sampleInteger, sampleString]).vbInList,
      Canonical vb.valueType vb.value := by
    intro vb hvb
    rcases List.mem_pair.mp hvb with rfl | rfl
    · exact .int (Bytes.shortest_singleton 5) (by decide) (by decide)
    · exact .string (.inl rfl) _
  obtain ⟨-, outs, houts, -, hall⟩ :=
    snmpSet_repeats_iff viewRun_sampleViews reachable_oneInstance rfl hcan hrun
  obtain ⟨s₁, l₁, ret₁, out₁, -, hdec₁, hout₁, hiff₁⟩ := hall [] sampleInteger [sampleString] rfl
  obtain ⟨s₂, l₂, ret₂, out₂, -, hdec₂, hout₂, hiff₂⟩ := hall [sampleInteger] sampleString [] rfl
  obtain rfl : s.sdg.vbOutList = outs := houts
  obtain ⟨o₁, o₂, hpair⟩ := List.length_eq_two.mp hlen
  rw [hpair] at hout₁ hout₂
  obtain rfl := Option.some.inj hout₁
  obtain rfl := Option.some.inj hout₂
  refine ⟨s, r, l', o₁, o₂, rfl, hpair, hiff₁.mpr ⟨_, leavesTag_sampleInteger l₁ ret₁.var, ?_⟩,
    hiff₂.mpr ⟨_, .noAccess fun e he v hv => ?_, ?_⟩⟩
  · rw [decodeValue_tag hdec₁]
    exact (by decide : sampleInteger.value.length ≤ 4)
  · obtain rfl := Option.some.inj he
    obtain rfl := List.mem_singleton.mp hv
    decide
  · rw [decodeValue_tag hdec₂]
    exact trivial

/-- What has been set is not repeated if it is an OID with short sub-identifiers, and no value is
repeated if the handler fails. -/
theorem snmpSet_not_repeated :
    responseVarBinds (snmpRequestDispatch settingHandlers oneInstance sampleViews
      (sampleSet [⟨[1, 0], 0, asn1TagObjid, [0x2b, 0x06, 0x01]⟩]) []).1 =
        some [([1, 0], asn1TagObjid, [0x2b, 0x06])] ∧
    responseVarBinds (snmpRequestDispatch (fun _ _ => .error) oneInstance sampleViews
      (sampleSet [sampleInteger]) []).1 = some [([1, 0], asn1TagInt, [])] := by
  constructor <;> decide +kernel

end SmartSnmp
