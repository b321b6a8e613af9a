import SmartSnmp.Mib.Search.Sound
import SmartSnmp.Mib.Tree.Registry

/-!
# GET and SET look up the registered prefix

`mib_tree_search` against the map from OIDs to callbacks that the tree stands for: it calls the
handler of the one instance above the OID, or reports that there is no such instance or object.
-/

namespace SmartSnmp

open PrefixOrder MibNode

/-- One instance at most is above an OID or at it. -/
lemma MibNode.WellFormed.occurs_inst_eq {d : Nat} {root : MibNode} (h : WellFormed d root)
    {p q s t : Oid} {a b : Int} (hp : Occurs root p (.inst a)) (hq : Occurs root q (.inst b))
    (heq : p ++ s = q ++ t) : s = t ∧ a = b := by
  rcases List.prefix_or_prefix_of_prefix (List.prefix_append p s) (heq ▸ List.prefix_append q t) with
    ⟨u, rfl⟩ | ⟨u, rfl⟩
  · obtain ⟨rfl, hab⟩ := h.occurs_inst_unique hp hq
    exact ⟨by simpa using heq, (MibNode.inst.inj hab).symm⟩
  · obtain ⟨rfl, hab⟩ := h.occurs_inst_unique hq hp
    exact ⟨by simpa using heq, MibNode.inst.inj hab⟩

/-- Two instances are the same or branch. -/
lemma MibNode.WellFormed.inst_eq_or_before {d : Nat} {root : MibNode} (h : WellFormed d root)
    {p q : Oid} {a b : Int} (hp : Occurs root p (.inst a)) (hq : Occurs root q (.inst b)) :
    (p = q ∧ a = b) ∨ Before p q ∨ Before q p := by
  rcases prefix_or_before p q with ⟨t, rfl⟩ | ⟨t, rfl⟩ | hbefore | hbefore
  · obtain ⟨rfl, hab⟩ := h.occurs_inst_unique hp hq
    exact .inl ⟨by simp, (MibNode.inst.inj hab).symm⟩
  · obtain ⟨rfl, hab⟩ := h.occurs_inst_unique hq hp
    exact .inl ⟨by simp, MibNode.inst.inj hab⟩
  · exact .inr (.inl hbefore)
  · exact .inr (.inr hbefore)

/-- A lookup ends at one node. -/
lemma Resolves.unique {d : Nat} {root : MibNode} (h : WellFormed d root) {oid q t q' t' : Oid}
    {n n' : MibNode} (h₁ : Resolves root oid q t n) (h₂ : Resolves root oid q' t' n') :
    q = q' ∧ n = n' := by
  have hle : ∀ {q t q' t' : Oid} {n n' : MibNode}, Resolves root oid q t n →
      Resolves root oid q' t' n' → q <+: q' → q = q' ∧ n = n' := by
    rintro q t q' t' n n' h₁ h₂ ⟨u, rfl⟩
    obtain ⟨m, hm, hu⟩ := Occurs.of_append h₂.occurs
    obtain rfl := h.occurs_unique h₁.occurs hm
    cases u with
    | nil =>
      obtain rfl := h.occurs_unique (by simpa using h₂.occurs) h₁.occurs
      simp
    | cons x u =>
      -- the first lookup would not have stopped there
      obtain rfl : t = x :: u ++ t' := List.append_cancel_left
        (by rw [← h₁.oid_eq, h₂.oid_eq, List.append_assoc])
      rcases h₁.stops with hnil | ⟨cb, rfl⟩ | ⟨-, hno⟩
      · simp at hnil
      · cases hu
      · obtain ⟨m, hm, -⟩ := Occurs.of_append (p := [x]) (q := u) hu
        exact absurd hm (hno x rfl m)
  have hq : q <+: oid := h₁.oid_eq ▸ List.prefix_append q t
  have hq' : q' <+: oid := h₂.oid_eq ▸ List.prefix_append q' t'
  rcases List.prefix_or_prefix_of_prefix hq hq' with hpre | hpre
  · exact hle h₁ h₂ hpre
  · obtain ⟨rfl, rfl⟩ := hle h₂ h₁ hpre
    exact ⟨rfl, rfl⟩

lemma StartProbes.unique {root : MibNode} (hroot : RootOk root) {view orig : Oid} {es es' : List Probe}
    (h₁ : StartProbes root view orig es) (h₂ : StartProbes root view orig es') : es = es' := by
  cases h₁ with
  | inside hv hr =>
    cases h₂ with
    | inside _ hr' =>
      obtain ⟨rfl, rfl⟩ := hr.unique hroot.1 hr'
      rfl
    | aheadInst hv' => exact absurd hv hv'
    | aheadGroup hv' => exact absurd hv hv'
    | past hv' => exact absurd hv hv'
  | aheadInst hv hcmp hr =>
    cases h₂ with
    | inside hv' => exact absurd hv' hv
    | aheadInst _ _ hr' =>
      obtain ⟨rfl, hn⟩ := hr.unique hroot.1 hr'
      rw [hn]
    | aheadGroup _ _ hr' hn' =>
      obtain ⟨rfl, rfl⟩ := hr.unique hroot.1 hr'
      cases hn'
    | past _ hcmp' => exact absurd hcmp hcmp'
  | aheadGroup hv hcmp hr hn =>
    cases h₂ with
    | inside hv' => exact absurd hv' hv
    | aheadInst _ _ hr' =>
      obtain ⟨rfl, rfl⟩ := hr.unique hroot.1 hr'
      cases hn
    | aheadGroup _ _ hr' =>
      obtain ⟨rfl, rfl⟩ := hr.unique hroot.1 hr'
      rfl
    | past _ hcmp' => exact absurd hcmp hcmp'
  | past hv hcmp =>
    cases h₂ with
    | inside hv' => exact absurd hv' hv
    | aheadInst _ hcmp' => exact absurd hcmp' hcmp
    | aheadGroup _ hcmp' => exact absurd hcmp' hcmp
    | past => rfl

lemma StartProbes.exists {root : MibNode} (hroot : RootOk root) (view orig : Oid) :
    ∃ es, StartProbes root view orig es := by
  obtain ⟨q, t, n, hr, -⟩ := mibTreeSearchLoop_resolves (fun _ _ => .error) (.init .get) view 0 hroot.1
  by_cases hv : view <+: orig
  · exact ⟨_, .inside hv hr⟩
  · by_cases hcmp : oidCmp orig view < 0
    · cases n with
      | null => exact absurd rfl (hr.wellFormed hroot).2.ne_null
      | inst cb => exact ⟨_, .aheadInst hv hcmp hr⟩
      | group => exact ⟨_, .aheadGroup hv hcmp hr rfl⟩
    · exact ⟨_, .past hv hcmp⟩

/-- The report of a search that calls no handler. -/
def Misses (oid : Oid) (tag : UInt8) (out : Outcome (MibNode × OidSearchRes)) : Prop :=
  ∃ n res, out = .ok (n, res) ∧ res.oid = oid ∧ res.errStat = 0 ∧ res.var.tag = tag

section Lookup

variable (handlers : Handlers) {root : MibNode} {view oid : Oid} (ret : OidSearchRes)

/-- The search in a view that covers the OID. -/
lemma mibTreeSearch_covered (hcover : view <+: oid) :
    mibTreeSearch handlers root view oid ret =
      mibTreeSearchLoop handlers { ret with oid := oid, errStat := 0 } 0 root oid := by
  rw [mibTreeSearch, if_neg (not_le.mpr ((oidCover_pos_iff _ _).mpr hcover))]

lemma mibTreeSearch_not_covered (hcover : ¬ view <+: oid) (l : List Call) :
    (mibTreeSearch handlers root view oid ret l).2 = l ∧
      Misses oid asn1TagNoSuchObj (mibTreeSearch handlers root view oid ret l).1 := by
  rw [mibTreeSearch, if_pos (not_lt.mp fun h => hcover ((oidCover_pos_iff _ _).mp h))]
  exact ⟨rfl, _, _, rfl, rfl, rfl, rfl⟩

omit handlers ret in
/-- The lookup ends at the instance above the OID, if there is one. -/
lemma Resolves.eq_inst {d : Nat} (h : WellFormed d root) {q t : Oid} {n : MibNode}
    (hres : Resolves root oid q t n) {p s : Oid} {cb : Int} (hoid : oid = p ++ s)
    (hp : Occurs root p (.inst cb)) : q = p ∧ t = s ∧ n = .inst cb := by
  have hq : q ++ t = p ++ s := hres.oid_eq.symm.trans hoid
  have hpq : p <+: q := by
    rcases List.prefix_or_prefix_of_prefix (List.prefix_append p s) (hq ▸ List.prefix_append q t) with
      hpq | ⟨u, rfl⟩
    · exact hpq
    · obtain ⟨m, hm, hu⟩ := Occurs.of_append hp
      obtain rfl := h.occurs_unique hres.occurs hm
      obtain rfl : t = u ++ s := List.append_cancel_left (by rw [hq, List.append_assoc])
      cases u with
      | nil => simp
      | cons x u =>
        -- the lookup would not have stopped above the instance
        rcases hres.stops with hnil | ⟨cb', rfl⟩ | ⟨-, hno⟩
        · simp at hnil
        · cases hu
        · obtain ⟨m, hm, -⟩ := Occurs.of_append (p := [x]) (q := u) hu
          exact absurd hm (hno x rfl m)
  obtain ⟨u, rfl⟩ := hpq
  obtain ⟨rfl, hn⟩ := h.occurs_inst_unique hp hres.occurs
  rw [List.append_nil] at hq
  exact ⟨List.append_nil p, List.append_cancel_left hq, hn⟩

/-- An instance above the OID: its handler is called for what is left. -/
lemma mibTreeSearch_calls (h : RootOk root) (hcover : view <+: oid) {p s : Oid} {cb : Int}
    (hoid : oid = p ++ s) (hs : s ≠ []) (hp : Occurs root p (.inst cb)) :
    ∃ ask : OidSearchRes, ask.callback = cb ∧ ask.instId = s ∧ ask.request = ret.request ∧
      ask.oid = oid ∧ ask.var = ret.var ∧ ask.instPos = p.length ∧
      mibTreeSearch handlers root view oid ret =
        (mibInstanceSearch handlers ask >>= fun res => pure (.inst cb, res)) := by
  obtain ⟨q, t, n, hres, hloop⟩ := mibTreeSearchLoop_resolves handlers
    { ret with oid := oid, errStat := 0 } oid 0 h.1
  obtain ⟨rfl, rfl, rfl⟩ := hres.eq_inst h.1 hoid hp
  rw [mibTreeSearch_covered handlers ret hcover, hloop]
  cases t with
  | nil => exact absurd rfl hs
  | cons x xs =>
    exact ⟨{ ret with
      oid := oid, errStat := 0, instPos := 0 + q.length, instId := x :: xs, callback := cb },
      rfl, rfl, rfl, rfl, rfl, Nat.zero_add _, rfl⟩

/-- The OID is that of an instance. -/
lemma mibTreeSearch_exact (h : RootOk root) (hcover : view <+: oid) {cb : Int}
    (hp : Occurs root oid (.inst cb)) (l : List Call) :
    (mibTreeSearch handlers root view oid ret l).2 = l ∧
      Misses oid asn1TagNoSuchInst (mibTreeSearch handlers root view oid ret l).1 := by
  obtain ⟨q, t, n, hres, hloop⟩ := mibTreeSearchLoop_resolves handlers
    { ret with oid := oid, errStat := 0 } oid 0 h.1
  obtain ⟨rfl, rfl, rfl⟩ := hres.eq_inst h.1 (List.append_nil oid).symm hp
  rw [mibTreeSearch_covered handlers ret hcover, hloop]
  exact ⟨rfl, _, _, rfl, rfl, rfl, rfl⟩

/-- No instance is above the OID or at it. -/
lemma mibTreeSearch_unknown (h : RootOk root) (hcover : view <+: oid)
    (hno : ∀ p cb, p <+: oid → ¬ Occurs root p (.inst cb)) (l : List Call) :
    (mibTreeSearch handlers root view oid ret l).2 = l ∧
      Misses oid asn1TagNoSuchObj (mibTreeSearch handlers root view oid ret l).1 := by
  obtain ⟨q, t, n, hres, hloop⟩ := mibTreeSearchLoop_resolves handlers
    { ret with oid := oid, errStat := 0 } oid 0 h.1
  rw [mibTreeSearch_covered handlers ret hcover, hloop]
  have hq : q <+: oid := hres.oid_eq ▸ List.prefix_append q t
  cases n with
  | inst cb => exact absurd hres.occurs (hno q cb hq)
  | null => exact ⟨rfl, _, _, rfl, rfl, rfl, rfl⟩
  | group => exact ⟨rfl, _, _, rfl, rfl, rfl, rfl⟩

/-- GET and SET resolve the one registered prefix of the OID. -/
theorem mibTreeSearch_prefix_resolved (hreach : Reachable root) (view oid : Oid)
    (_hreq : ret.request = .get ∨ ret.request = .set) (l : List Call) :
    (view <+: oid → ∀ p cb s, Occurs root p (.inst cb) → oid = p ++ s → s ≠ [] →
      ∃ c : Call, (mibTreeSearch handlers root view oid ret l).2 = l ++ [c] ∧ c.callback = cb ∧
        c.op = ret.request ∧ c.subOid = s ∧
        ((handlers l c).storable = true →
          ∃ n res, (mibTreeSearch handlers root view oid ret l).1 = .ok (n, res))) ∧
    (view <+: oid → ∀ cb, Occurs root oid (.inst cb) →
      (mibTreeSearch handlers root view oid ret l).2 = l ∧
        Misses oid asn1TagNoSuchInst (mibTreeSearch handlers root view oid ret l).1) ∧
    (¬ view <+: oid ∨ (∀ p cb, p <+: oid → ¬ Occurs root p (.inst cb)) →
      (mibTreeSearch handlers root view oid ret l).2 = l ∧
        Misses oid asn1TagNoSuchObj (mibTreeSearch handlers root view oid ret l).1) ∧
    ∀ n res, (mibTreeSearch handlers root view oid ret l).1 = .ok (n, res) → res.oid = oid := by
  have h := hreach.rootOk
  refine ⟨fun hcover p cb s hp hoid hs => ?_, fun hcover cb hp => ?_, fun hno => ?_, ?_⟩
  · obtain ⟨ask, hcb, hid, hask, -, -, -, heq⟩ :=
      mibTreeSearch_calls handlers ret h hcover hoid hs hp
    have hcall : ask.call.callback = cb ∧ ask.call.op = ret.request ∧ ask.call.subOid = s := by
      rw [OidSearchRes.call]
      split_ifs with hset
      · exact ⟨hcb, hset.symm.trans hask, hid⟩
      · exact ⟨hcb, hask, hid⟩
    rw [heq, Traced.bind_apply, mibInstanceSearch_apply]
    refine ⟨ask.call, ?_, hcall.1, hcall.2.1, hcall.2.2, fun hst => ?_⟩
    · cases ask.receive (handlers l ask.call) <;> rfl
    · have hne := ask.receive_ne_none hst
      cases hrec : ask.receive (handlers l ask.call) with
      | none => exact absurd hrec hne
      | some res => exact ⟨_, _, rfl⟩
  · exact mibTreeSearch_exact handlers ret h hcover hp l
  · by_cases hcover : view <+: oid
    · exact mibTreeSearch_unknown handlers ret h hcover (hno.resolve_left (not_not.mpr hcover)) l
    · exact mibTreeSearch_not_covered handlers ret hcover l
  · intro n res hout
    obtain ⟨_, _, -, hend⟩ := mibTreeSearch_spec handlers h view oid ret l
    exact (hend n res hout).1

theorem mibTreeSearch_prefix_resolved_sample :
    ∃ root, Reachable root ∧ Occurs root [1, 3] (.inst 5) ∧
      ∃ c : Call, (mibTreeSearch (fun _ _ => .error) root [1] [1, 3, 0] (.init .get) []).2 = [c] ∧
        c.callback = 5 ∧ c.op = .get ∧ c.subOid = [0] := by
  have hreach : Reachable _ := ⟨[.reg [1, 3] 5], rfl⟩
  have hocc : Occurs _ [1, 3] (.inst 5) := (hreach.rootOk.1.mem_leaves_iff _ _).mp List.mem_cons_self
  obtain ⟨c, hc, hcb, hop, hsub, -⟩ := (mibTreeSearch_prefix_resolved (fun _ _ => .error)
    (.init .get) hreach [1] [1, 3, 0] (.inl rfl) []).1 (by decide) [1, 3] 5 [0] hocc rfl (by simp)
  exact ⟨_, hreach, hocc, c, hc, hcb, hop, hsub⟩

end Lookup

end SmartSnmp
