import SmartSnmp.Mib.Search.Simulation

/-!
# Where a GETNEXT search starts

`mib_tree_search_next` first looks up the OID of its view with `mib_tree_search`. The lookup follows
the view down to a node `n` at a prefix `q` of it and leaves the rest `t`: it is used up, it ends in
an instance, or it ends in a group without a child to follow.
-/

namespace SmartSnmp

open PrefixOrder MibNode

/-- `mib_tree_search` for `oid` ends at the node `n` below `q`, with `t` left. -/
structure Resolves (root : MibNode) (oid q t : Oid) (n : MibNode) : Prop where
  oid_eq : oid = q ++ t
  occurs : Occurs root q n
  stops : t = [] ∨ (∃ cb, n = .inst cb) ∨
    (n.isGroup ∧ ∀ x ∈ t.head?, ∀ m, ¬ Occurs n [x] m)

section Get

variable (handlers : Handlers)

/-- The loop of `mib_tree_search` is the lookup followed by its last iteration. -/
lemma mibTreeSearchLoop_resolves (ret : OidSearchRes) (oid : Oid) (pos : Nat) {d : Nat}
    {node : MibNode} (h : WellFormed d node) :
    ∃ q t n, Resolves node oid q t n ∧ mibTreeSearchLoop handlers ret pos node oid =
      match n, t with
      | .inst cb, x :: xs => do
        let res ← mibInstanceSearch handlers
          { ret with instPos := pos + q.length, instId := x :: xs, callback := cb }
        pure (.inst cb, res)
      | .inst cb, [] => pure (.inst cb,
          { ret with instPos := pos + q.length, instId := [] }.setTag asn1TagNoSuchInst)
      | n, t => pure (n, { ret with instPos := pos + q.length, instId := t }.setTag asn1TagNoSuchObj) := by
  induction oid generalizing d pos node with
  | nil =>
    refine ⟨[], [], node, ⟨rfl, .here _, Or.inl rfl⟩, ?_⟩
    cases node <;> rfl
  | cons x xs ih =>
    cases node with
    | null => exact absurd h (not_wellFormed_null _)
    | inst cb => exact ⟨[], x :: xs, .inst cb, ⟨rfl, .here _, Or.inr (Or.inl ⟨cb, rfl⟩)⟩, rfl⟩
    | group cap cnt subId subPtr =>
      obtain ⟨d, rfl⟩ := h.exists_eq_succ
      obtain ⟨hshape, _⟩ := wellFormed_group.mp h
      rcases hshape.binarySearch_cases x with ⟨i, hi, hk, heq⟩ | ⟨i, hi, hbelow, habove, heq⟩
      · obtain ⟨_, c, _, hc⟩ := hshape.exists_sub hi
        obtain ⟨q, t, n, hres, hloop⟩ := ih (pos + 1) (h.child hi hc)
        refine ⟨x :: q, t, n, ⟨by rw [hres.oid_eq]; rfl, .child hi hk hc hres.occurs, hres.stops⟩, ?_⟩
        rw [mibTreeSearchLoop, heq]
        simp only [Int.toNat_natCast, hc, show (0 : Int) ≤ i by omega, if_true, hloop,
          List.length_cons, show pos + 1 + q.length = pos + (q.length + 1) by omega]
      · refine ⟨[], x :: xs, _, ⟨rfl, .here _, Or.inr (Or.inr ⟨rfl, ?_⟩)⟩, ?_⟩
        · -- no slot of the group holds the sub-identifier
          rintro _ ⟨⟩ m hocc
          cases hocc with
          | @child _ _ _ _ j _ c _ _ hj hk hc _ =>
            exact getElem?_ne_of_split hbelow habove hj hk
        · rw [mibTreeSearchLoop, heq]
          simp only [show ¬ (0 : Int) ≤ -(i : Int) - 1 by omega, if_false, List.length_nil,
            Nat.add_zero]

/-- What `mib_tree_search` leaves when no handler is called. -/
structure Missed (ret res : OidSearchRes) (pos : Nat) : Prop where
  oid_eq : res.oid = ret.oid
  instPos_eq : res.instPos = pos
  request_eq : res.request = ret.request
  errStat_eq : res.errStat = ret.errStat
  tag : mibTagValid res.var.tag = false

/-- `mib_tree_search` asks the handler of the instance it ends in, once and for what is left of the
OID, and nothing else. -/
lemma mibTreeSearchLoop_spec (ret : OidSearchRes) (oid : Oid) (pos : Nat) {d : Nat} {node : MibNode}
    (h : WellFormed d node) (l : List Call) :
    Traced.Spec (mibTreeSearchLoop handlers ret pos node oid) l fun out new =>
      ∃ q t n, Resolves node oid q t n ∧
        ((new = [] ∧ ∃ res, out = .ok (n, res) ∧ Missed ret res (pos + q.length)) ∨
        ∃ cb ask, n = .inst cb ∧ t ≠ [] ∧
          ask = { ret with instPos := pos + q.length, instId := t, callback := cb } ∧
          new = [ask.call] ∧ out = match ask.receive (handlers l ask.call) with
            | some res => .ok (n, res)
            | none => .crash) := by
  obtain ⟨q, t, n, hres, hloop⟩ := mibTreeSearchLoop_resolves handlers ret oid pos h
  rw [hloop]
  match n, t, hres with
  | .inst cb, x :: xs, hres =>
    refine ⟨[_], by simp only [Traced.bind_apply, mibInstanceSearch_apply]; split <;> simp_all, q, x :: xs,
      .inst cb, hres, Or.inr ⟨cb, _, rfl, by simp, rfl, rfl, ?_⟩⟩
    simp only [Traced.bind_apply, mibInstanceSearch_apply]
    cases OidSearchRes.receive _ (handlers l _) <;> rfl
  | .inst cb, [], hres =>
    exact Traced.spec_pure ⟨q, [], .inst cb, hres, Or.inl ⟨rfl, _, rfl, rfl, rfl, rfl, rfl, rfl⟩⟩
  | .null, t, hres =>
    exact Traced.spec_pure ⟨q, t, .null, hres, Or.inl ⟨rfl, _, rfl, rfl, rfl, rfl, rfl, rfl⟩⟩
  | .group cap cnt subId subPtr, t, hres =>
    exact Traced.spec_pure ⟨q, t, _, hres, Or.inl ⟨rfl, _, rfl, rfl, rfl, rfl, rfl, rfl⟩⟩

/-- The lookup of the view ends at a node of the tree, unless a handler it asks replies with what
cannot be stored. -/
lemma mibTreeSearch_view_spec {root : MibNode} (hroot : RootOk root) (view : Oid)
    (ret : OidSearchRes) (l : List Call) :
    Traced.Spec (mibTreeSearch handlers root view view { ret with request := .get }) l fun out new =>
      (∀ c ∈ new, c.op = .get) ∧ ∃ q t n, Resolves root view q t n ∧
        ((∃ res, out = .ok (n, res) ∧ res.instPos = q.length ∧ res.oid = view) ∨
        (out = .crash ∧ ∃ ask : OidSearchRes, ask.request = .get ∧
          ask.receive (handlers l ask.call) = none)) := by
  have hcover : ¬ oidCover view view ≤ 0 := by
    rw [(oidCover_eq_one_iff _ _).mpr (List.prefix_refl view)]
    decide
  rw [mibTreeSearch, if_neg hcover]
  apply (mibTreeSearchLoop_spec handlers _ view 0 hroot.1 l).mono
  rintro out new ⟨q, t, n, hres, ⟨rfl, res, rfl, hmiss⟩ | ⟨cb, ask, hn, _, hask, rfl, rfl⟩⟩
  · refine ⟨by simp, q, t, n, hres, Or.inl ⟨res, rfl, ?_, hmiss.oid_eq⟩⟩
    rw [hmiss.instPos_eq, Nat.zero_add]
  · have hreq : ask.request = .get := by rw [hask]
    refine ⟨?_, q, t, n, hres, ?_⟩
    · intro c hc
      rw [List.mem_singleton.mp hc, OidSearchRes.call, hreq]
      rfl
    · cases hrec : ask.receive (handlers l ask.call) with
      | none => exact Or.inr ⟨rfl, ask, hreq, hrec⟩
      | some res =>
        obtain ⟨_, hoid, hpos, _⟩ := OidSearchRes.receive_frame hrec
        exact Or.inl ⟨res, rfl, by rw [hpos, hask, Nat.zero_add], by rw [hoid, hask]⟩

end Get

/-! ### GETNEXT -/

/-- What a search asks: the probes of the request below the node of the view, those of the view
itself if the request is ahead of it, or nothing. -/
inductive StartProbes (root : MibNode) (view orig : Oid) : List Probe → Prop where
  | inside {q t : Oid} {n : MibNode} (hv : view <+: orig) (hr : Resolves root view q t n) :
      StartProbes root view orig (probes orig (atop q n.leaves))
  | aheadInst {q t : Oid} {cb : Int} (hv : ¬ view <+: orig) (hcmp : oidCmp orig view < 0)
      (hr : Resolves root view q t (.inst cb)) :
      StartProbes root view orig (probes view (atop q (MibNode.inst cb).leaves))
  | aheadGroup {q t : Oid} {n : MibNode} (hv : ¬ view <+: orig) (hcmp : oidCmp orig view < 0)
      (hr : Resolves root view q t n) (hn : n.isGroup) :
      StartProbes root view orig ((atop q n.leaves).map first)
  | past (hv : ¬ view <+: orig) (hcmp : ¬ oidCmp orig view < 0) : StartProbes root view orig []

/-- A state the loop can start in. -/
structure StartOk (root : MibNode) (view orig : Oid) (s : SearchNextState) : Prop where
  inv : SearchInv s
  pNbl : s.pNbl = none
  stk : s.stk = []
  probes : StartProbes root view orig s.pending
  request : s.ret.request = .getNext ∨ s.pending = []

/-- A node asked for nothing is asked for its first instances. -/
lemma probes_nil_leaves (n : MibNode) : probes [] n.leaves = n.leaves.map first := by
  cases n with
  | null => rfl
  | inst cb => simp [MibNode.leaves, probes_singleton, first]
  | group cap cnt subId subPtr =>
    exact probes_of_nil fun e he => ne_nil_of_mem_leavesList (by simpa [MibNode.leaves] using he)

section Starts

variable {root n : MibNode} {view orig q t : Oid}

lemma Resolves.wellFormed (hroot : RootOk root) (hr : Resolves root view q t n) :
    q.length ≤ mibOidMaxLen ∧ WellFormed (mibOidMaxLen - q.length) n := hroot.1.occurs hr.occurs

lemma Resolves.startInside (hroot : RootOk root) (hr : Resolves root view q t n)
    (hv : view <+: orig) (ret : OidSearchRes) (hreq : ret.request = .getNext) :
    StartOk root view orig ⟨orig.take q.length, orig.drop q.length, !(orig.length > q.length), none,
      [], n, ret⟩ := by
  obtain ⟨r, rfl⟩ : q <+: orig := (hr.oid_eq ▸ List.prefix_append q t).trans hv
  obtain ⟨hlen, hw⟩ := hr.wellFormed hroot
  have hpend : SearchNextState.pending ⟨(q ++ r).take q.length, (q ++ r).drop q.length,
      !((q ++ r).length > q.length), none, [], n, ret⟩ = probes (q ++ r) (atop q n.leaves) := by
    cases r with
    | nil =>
      simp [SearchNextState.pending, SearchNextState.nodeProbes, stackProbes, ← probes_nil_leaves,
        beneath_probes]
    | cons x xs =>
      simp [SearchNextState.pending, SearchNextState.nodeProbes, stackProbes, beneath_probes]
  refine ⟨⟨by simpa using hlen, fun _ => Or.inr (by simpa using hw), by simp, trivial, ?_⟩, rfl, rfl,
    hpend ▸ .inside hv hr, Or.inl hreq⟩
  intro himm _
  cases r <;> simp at himm ⊢

lemma Resolves.startAhead (hroot : RootOk root) (hr : Resolves root view q t n)
    (hv : ¬ view <+: orig) (hcmp : oidCmp orig view < 0) (ret : OidSearchRes)
    (hreq : ret.request = .getNext) :
    StartOk root view orig ⟨view.take q.length, view.drop q.length, n.isGroup, none, [], n, ret⟩ := by
  obtain ⟨hlen, hw⟩ := hr.wellFormed hroot
  obtain rfl := hr.oid_eq
  refine ⟨⟨by simpa using hlen, fun _ => Or.inr (by simpa using hw), by simp, trivial, ?_⟩, rfl, rfl,
    ?_, Or.inl hreq⟩
  · intro himm hgroup
    exact absurd (himm.symm.trans hgroup) (by decide)
  · match n, hr with
    | .null, hr => exact absurd rfl hw.ne_null
    | .inst cb, hr =>
      have := StartProbes.aheadInst hv hcmp hr
      simpa [SearchNextState.pending, SearchNextState.nodeProbes, stackProbes, beneath_probes] using this
    | .group cap cnt subId subPtr, hr =>
      have := StartProbes.aheadGroup hv hcmp hr rfl
      simpa [SearchNextState.pending, SearchNextState.nodeProbes, stackProbes, beneath_map_first] using this

end Starts

/-- The lookup of the view followed by the choice of a start state. -/
lemma startAtView_spec (handlers : Handlers) {root : MibNode} (hroot : RootOk root)
    {view orig : Oid} (ret : OidSearchRes) (l : List Call)
    {start : MibNode → OidSearchRes → SearchNextState}
    (hstart : ∀ q t n res, Resolves root view q t n → res.instPos = q.length →
      res.request = .getNext → StartOk root view orig (start n res)) :
    Traced.Spec (startAtView handlers view root ret start) l fun out new =>
      (∀ c ∈ new, c.op = .get) ∧ ((∃ s, out = .ok s ∧ StartOk root view orig s) ∨
        (out = .crash ∧ ∃ ask : OidSearchRes, ask.request = .get ∧
          ask.receive (handlers l ask.call) = none)) := by
  refine Traced.spec_bind (mibTreeSearch_view_spec handlers hroot view ret l) ?_ ?_ ?_
  · rintro ⟨n, res⟩ new ⟨hget, q, t, n', hr, ⟨res', heq, hpos, _⟩ | ⟨hc, _⟩⟩
    · simp only [Outcome.ok.injEq, Prod.mk.injEq] at heq
      obtain ⟨rfl, rfl⟩ := heq
      cases n with
      | null => exact absurd rfl (hr.wellFormed hroot).2.ne_null
      | _ =>
        exact Traced.spec_pure ⟨by simpa using hget, Or.inl ⟨_, rfl, hstart q t _ _ hr hpos rfl⟩⟩
    · simp at hc
  · rintro new ⟨hget, q, t, n, _, ⟨res, heq, _⟩ | ⟨_, hask⟩⟩
    · simp at heq
    · exact ⟨hget, Or.inr ⟨rfl, hask⟩⟩
  · rintro new ⟨_, q, t, n, _, ⟨res, heq, _⟩ | ⟨heq, _⟩⟩ <;> simp at heq

/-- Every search starts in such a state, unless the lookup of the view crashes. -/
theorem searchNextStart_spec (handlers : Handlers) {root : MibNode} (hroot : RootOk root)
    (view orig : Oid) (ret : OidSearchRes) (l : List Call) :
    Traced.Spec (searchNextStart handlers view orig root ret) l fun out new =>
      (∀ c ∈ new, c.op = .get) ∧ ((∃ s, out = .ok s ∧ StartOk root view orig s) ∨
        (out = .crash ∧ ∃ ask : OidSearchRes, ask.request = .get ∧
          ask.receive (handlers l ask.call) = none)) := by
  rw [searchNextStart]
  by_cases hv : view <+: orig
  · rw [if_pos ((oidCover_pos_iff _ _).mpr hv)]
    apply startAtView_spec handlers hroot ret l
    intro q t n res hr hpos hreq
    rw [hpos]
    exact hr.startInside hroot hv _ hreq
  · rw [if_neg (by rw [oidCover_pos_iff]; exact hv)]
    by_cases hcmp : oidCmp orig view < 0
    · rw [if_pos hcmp]
      apply startAtView_spec handlers hroot ret l
      intro q t n res hr hpos hreq
      rw [hpos]
      exact hr.startAhead hroot hv hcmp _ hreq
    · rw [if_neg hcmp]
      refine Traced.spec_pure ⟨by simp, Or.inl ⟨_, rfl, ?_⟩⟩
      have hpend : ∀ ret : OidSearchRes,
          SearchNextState.pending ⟨[], [], false, none, [], .null, ret⟩ = [] := fun _ => rfl
      exact ⟨⟨by simp, fun _ => Or.inl rfl, by simp, trivial, by simp⟩, rfl, rfl,
        hpend _ ▸ .past hv hcmp, Or.inr (hpend _)⟩

end SmartSnmp
