import SmartSnmp.Mib.Search.View

/-!
# What a search may return and call

Every search is made for a view. Whatever the handlers are, `mib_tree_search` calls one only for an
OID covered by the view. `mib_tree_search_next` returns an instance only if the view covers it,
provided that a handler answers with more than it was asked for.
-/

namespace SmartSnmp

open PrefixOrder MibNode

/-- The search reported no error, and an instance. -/
def OidSearchRes.Found (ret : OidSearchRes) : Prop := ret.errStat = 0 ∧ mibTagValid ret.var.tag = true

lemma OidSearchRes.not_found {ret : OidSearchRes} (h : mibTagValid ret.var.tag = false) :
    ¬ ret.Found := fun hfound => Bool.false_ne_true (h.symm.trans hfound.2)

/-- A GETNEXT answer is greater than the suffix asked for, if that is not empty. -/
def Increasing (handlers : Handlers) : Prop :=
  ∀ l callback suffix subOid val tag, suffix ≠ [] → mibTagValid tag = true →
    handlers l (getNextCall callback suffix) = .results 0 subOid val tag → suffix < subOid

/-! ### GET and SET -/

/-- The call is made for the OID: it names the handler of an instance above it and what is left. -/
def Call.IsFor (c : Call) (root : MibNode) (oid : Oid) : Prop :=
  ∃ p, Occurs root p (.inst c.callback) ∧ oid = p ++ c.subOid

lemma mibTreeSearch_spec (handlers : Handlers) {root : MibNode} (hroot : RootOk root)
    (view oid : Oid) (ret : OidSearchRes) (l : List Call) :
    Traced.Spec (mibTreeSearch handlers root view oid ret) l fun out new =>
      (new = [] ∨ view <+: oid ∧ ∃ c, new = [c] ∧ c.op = ret.request ∧ c.IsFor root oid) ∧
      ∀ n res, out = .ok (n, res) → res.oid = oid ∧ res.request = ret.request ∧
        (res.Found → view <+: oid) := by
  rw [mibTreeSearch]
  by_cases hv : view <+: oid
  · have hcover : ¬ oidCover view oid ≤ 0 := not_le.mpr ((oidCover_pos_iff _ _).mpr hv)
    rw [if_neg hcover]
    apply (mibTreeSearchLoop_spec handlers _ oid 0 hroot.1 l).mono
    rintro out new ⟨q, t, n, hres, ⟨rfl, res, rfl, hmiss⟩ | ⟨cb, ask, rfl, _, hask, rfl, rfl⟩⟩
    · refine ⟨Or.inl rfl, ?_⟩
      intro n' res' heq
      obtain ⟨rfl, rfl⟩ : n = n' ∧ res = res' := by simpa using heq
      exact ⟨hmiss.oid_eq, hmiss.request_eq, fun _ => hv⟩
    · have hcall : ask.call.op = ret.request ∧ ask.call.callback = cb ∧ ask.call.subOid = t := by
        rw [hask, OidSearchRes.call]
        split_ifs with hset
        · exact ⟨hset.symm, rfl, rfl⟩
        · exact ⟨rfl, rfl, rfl⟩
      refine ⟨Or.inr ⟨hv, _, rfl, hcall.1, q, hcall.2.1 ▸ hres.occurs, hcall.2.2 ▸ hres.oid_eq⟩, ?_⟩
      intro n' res' heq
      cases hrec : ask.receive (handlers l ask.call) with
      | none => simp [hrec] at heq
      | some res =>
        obtain ⟨rfl, rfl⟩ : MibNode.inst cb = n' ∧ res = res' := by simpa [hrec] using heq
        obtain ⟨hreq, hoid, _, _⟩ := OidSearchRes.receive_frame hrec
        exact ⟨by rw [hoid, hask], by rw [hreq, hask], fun _ => hv⟩
  · rw [if_pos (not_lt.mp fun h => hv ((oidCover_pos_iff _ _).mp h))]
    refine Traced.spec_pure ⟨Or.inl rfl, fun n res heq => ?_⟩
    obtain ⟨rfl, rfl⟩ : MibNode.null = n ∧ _ = res := by simpa using heq
    exact ⟨rfl, rfl, fun hfound => absurd hfound (OidSearchRes.not_found rfl)⟩

/-! ### GETNEXT -/

/-- What answers a probe is not strictly above the view. -/
def Probe.Under (view : Oid) (e : Probe) : Prop :=
  ∀ a, (e.2.2 ≠ [] → e.2.2 < a) → e.1 ++ a <+: view → view <+: e.1 ++ a

/-- The probes for an OID in the view. -/
lemma probes_under {view r : Oid} (hv : view <+: r) {L : List (Oid × Int)} {e : Probe}
    (he : e ∈ probes r L) : e.Under view := by
  intro a ha hle
  have hler : e.1 ++ a ≤ r := (le_of_isPrefix hle).trans (le_of_isPrefix hv)
  rcases (mem_probes.mp he).2 with hr | ⟨hlt, _⟩
  · by_cases hnil : e.2.2 = []
    · rw [hnil, List.append_nil] at hr
      exact hr ▸ hv.trans (hr ▸ List.prefix_append _ _)
    · rw [hr] at hler
      exact absurd ((append_lt_append_left e.1).mpr (ha hnil)) hler.not_gt
  · exact absurd (hlt.trans_le (le_of_isPrefix (List.prefix_append _ _))) hler.not_gt

lemma StartProbes.under {root : MibNode} (hroot : RootOk root) {view orig : Oid} {es : List Probe}
    (h : StartProbes root view orig es) : ∀ e ∈ es, e.Under view := by
  cases h with
  | inside hv hr => exact fun e => probes_under hv
  | aheadInst hv hcmp hr => exact fun e => probes_under (List.prefix_refl view)
  | @aheadGroup q t n hv hcmp hr hn =>
    intro e he a _ hle
    obtain ⟨m, hm, rfl⟩ := List.mem_map.mp he
    by_cases ht : t = []
    · obtain ⟨m', _, rfl⟩ := List.mem_map.mp hm
      rw [hr.oid_eq, ht, List.append_nil, first, List.append_assoc]
      exact List.prefix_append _ _
    · exact absurd hle (hr.not_comparable hroot hn ht hm a).2
  | past hv hcmp => simp

/-- Where the OID of a found instance comes from. -/
lemma OidSearchRes.receive_found {ret res : OidSearchRes} {reply : Reply}
    (hreq : ret.request = .getNext) (h : ret.receive reply = some res) (hfound : res.Found) :
    ∃ val tag, mibTagValid tag = true ∧ reply = .results 0 res.instId val tag := by
  cases reply with
  | error =>
    obtain rfl := Option.some.inj h
    exact absurd hfound (not_found rfl)
  | results errStat subOid val tag =>
    simp only [receive] at h
    by_cases hok : errStat = 0 ∧ mibTagValid tag = true
    · rw [if_pos hok, if_neg (by simp [hreq])] at h
      obtain ⟨var, _, rfl⟩ := Option.map_eq_some_iff.mp h
      exact ⟨val, tag, hok.2, by simp [hok.1, hreq]⟩
    · rw [if_neg hok] at h
      obtain rfl := Option.some.inj h
      exact absurd hfound hok

section Next

variable {handlers : Handlers} {view : Oid}

/-- The instance case of the search: what it returns is covered by the view. -/
lemma safe_searchNextInstance (hinc : Increasing handlers) {e : Probe} (he : e.Under view)
    {ret : OidSearchRes} (hreq : ret.request = .getNext) :
    Traced.Safe (·.op = .getNext)
      (fun out => (∀ res, out = .inl res → res.request = .getNext) ∧
        ∀ res, out = .inr res → res.Found → view <+: res.oid)
      (searchNextInstance handlers view e.1 e.2.2 e.2.1 ret) := by
  intro l
  refine ⟨[getNextCall e.2.1 e.2.2], by rw [searchNextInstance_apply handlers view hreq],
    by simp [getNextCall], fun out hout => ?_⟩
  rw [searchNextInstance_apply handlers view hreq] at hout
  cases hrec : { ret with instPos := e.1.length, instId := e.2.2, callback := e.2.1 }.receive
      (handlers l (getNextCall e.2.1 e.2.2)) with
  | none => simp [hrec] at hout
  | some res =>
    have hreq' : res.request = .getNext := (OidSearchRes.receive_frame hrec).1.trans hreq
    simp only [hrec] at hout
    split_ifs at hout with hvalid hlen hcover
    · obtain rfl := Outcome.ok.inj hout
      exact ⟨by rintro _ ⟨⟩; exact hreq', by simp⟩
    · obtain rfl := Outcome.ok.inj hout
      refine ⟨by simp, ?_⟩
      rintro _ ⟨⟩ hfound
      obtain ⟨val, tag, htag, hreply⟩ := OidSearchRes.receive_found
        (by exact hreq) hrec (show res.Found from hfound)
      have hle := he res.instId fun hne => hinc l e.2.1 e.2.2 _ val tag hne htag hreply
      by_contra hnot
      exact hcover ((oidCover_eq_zero_iff _ _).mpr ⟨hnot, fun h => hnot (hle h)⟩)
    · obtain rfl := Outcome.ok.inj hout
      exact ⟨by rintro _ ⟨⟩; exact hreq', by simp⟩

lemma safe_tryProbes (hinc : Increasing handlers) (orig : Oid) {es : List Probe}
    (hes : ∀ e ∈ es, e.Under view) {ret : OidSearchRes} (hreq : ret.request = .getNext) :
    Traced.Safe (·.op = .getNext) (fun res => res.Found → view <+: res.oid)
      (tryProbes handlers view orig es ret) := by
  induction es generalizing ret with
  | nil => exact Traced.safe_pure fun hfound => absurd hfound (OidSearchRes.not_found rfl)
  | cons e es ih =>
    obtain ⟨he, hes⟩ := List.forall_mem_cons.mp hes
    apply (safe_searchNextInstance hinc he hreq).bind
    intro out hout
    cases out with
    | inl res => exact ih hes (hout.1 res rfl)
    | inr res => exact Traced.safe_pure (hout.2 res rfl)

lemma safe_searchNextStart {root : MibNode} (hroot : RootOk root) (view orig : Oid)
    (ret : OidSearchRes) : Traced.Safe (·.op ≠ .set) (StartOk root view orig)
      (searchNextStart handlers view orig root ret) := by
  intro l
  apply (searchNextStart_spec handlers hroot view orig ret l).mono
  rintro out new ⟨hget, ⟨s, rfl, hs⟩ | ⟨rfl, _⟩⟩
  · exact ⟨fun c hc => by simp [hget c hc], fun a ha => Outcome.ok.inj ha ▸ hs⟩
  · exact ⟨fun c hc => by simp [hget c hc], by simp⟩

/-- A GETNEXT search calls no handler for SET, and an instance that it returns is covered by the
view. -/
theorem safe_mibTreeSearchNext (hinc : Increasing handlers) {root : MibNode} (hroot : RootOk root)
    (view orig : Oid) (ret : OidSearchRes) :
    Traced.Safe (·.op ≠ .set) (fun res => res.Found → view <+: res.oid)
      (mibTreeSearchNext handlers view orig root ret) := by
  apply (safe_searchNextStart hroot view orig ret).bind
  intro s hs
  rw [searchNextLoop_start handlers view orig hs.inv hs.pNbl hs.stk]
  rcases hs.request with hreq | hnone
  · refine fun l => (safe_tryProbes hinc orig (hs.probes.under hroot) hreq l).mono ?_
    intro out new h
    exact ⟨fun c hc => by simp [h.1 c hc], h.2⟩
  · rw [hnone]
    exact Traced.safe_pure fun hfound => absurd hfound (OidSearchRes.not_found rfl)

/-! ### The request of a search -/

lemma returns_searchNextStart {root : MibNode} (orig : Oid) {ret : OidSearchRes}
    (hreq : ret.request = .getNext) :
    Traced.Returns (·.ret.request = .getNext) (searchNextStart handlers view orig root ret) := by
  have hview : ∀ start : MibNode → OidSearchRes → SearchNextState,
      (∀ n res, (start n res).ret.request = res.request) →
      Traced.Returns (·.ret.request = .getNext) (startAtView handlers view root ret start) := by
    intro start hstart
    refine (Traced.returns_true _).bind ?_
    rintro ⟨n, res⟩ -
    cases n with
    | null => exact Traced.returns_crash
    | inst cb => exact Traced.returns_pure (hstart _ _)
    | group cap cnt subId subPtr => exact Traced.returns_pure (hstart _ _)
  rw [searchNextStart]
  split_ifs
  · exact hview _ fun _ _ => rfl
  · exact hview _ fun _ _ => rfl
  · exact Traced.returns_pure hreq

lemma safe_tryProbes_request (orig : Oid) (es : List Probe) {ret : OidSearchRes}
    (hreq : ret.request = .getNext) :
    Traced.Safe (·.op = .getNext) (·.request = .getNext) (tryProbes handlers view orig es ret) := by
  induction es generalizing ret with
  | nil => exact Traced.safe_pure hreq
  | cons e es ih =>
    have hinst : Traced.Safe (·.op = .getNext)
        (fun out => (∀ res, out = .inl res → res.request = .getNext) ∧
          ∀ res, out = .inr res → res.request = .getNext)
        (searchNextInstance handlers view e.1 e.2.2 e.2.1 ret) := by
      intro l
      refine ⟨[getNextCall e.2.1 e.2.2], by rw [searchNextInstance_apply handlers view hreq],
        by simp [getNextCall], fun out hout => ?_⟩
      rw [searchNextInstance_apply handlers view hreq] at hout
      cases hrec : { ret with instPos := e.1.length, instId := e.2.2, callback := e.2.1 }.receive
          (handlers l (getNextCall e.2.1 e.2.2)) with
      | none => simp [hrec] at hout
      | some res =>
        have hres : res.request = .getNext := (OidSearchRes.receive_frame hrec).1.trans hreq
        simp only [hrec] at hout
        split_ifs at hout
        all_goals
          obtain rfl := Outcome.ok.inj hout
          simpa using hres
    apply hinst.bind
    intro out hout
    cases out with
    | inl res => exact ih (hout.1 res rfl)
    | inr res => exact Traced.safe_pure (hout.2 res rfl)

/-- Whatever the handlers return, a GETNEXT search calls none of them for SET, and its result can be
used for the next one. -/
lemma safe_mibTreeSearchNext_request {root : MibNode} (hroot : RootOk root) (view orig : Oid)
    {ret : OidSearchRes} (hreq : ret.request = .getNext) :
    Traced.Safe (·.op ≠ .set) (·.request = .getNext)
      (mibTreeSearchNext handlers view orig root ret) := by
  apply ((safe_searchNextStart hroot view orig ret).and_returns
    (returns_searchNextStart orig hreq)).bind
  rintro s ⟨hs, hnext⟩
  rw [searchNextLoop_start handlers view orig hs.inv hs.pNbl hs.stk]
  refine fun l => (safe_tryProbes_request orig s.pending hnext l).mono ?_
  rintro out new ⟨hnew, hres⟩
  exact ⟨fun c hc => by simp [hnew c hc], hres⟩

end Next

end SmartSnmp
