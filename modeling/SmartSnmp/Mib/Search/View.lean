import Mathlib.Data.List.Find
import SmartSnmp.Mib.Search.Start
import SmartSnmp.Mib.Search.Successor

/-!
# GETNEXT restricted to a view

With handlers that answer with their least instance above a suffix, the search is compared with the
least existing instance above the request and covered by the view.
-/

namespace SmartSnmp

open PrefixOrder MibNode

/-! ### Nodes of a tree by their OID -/

namespace MibNode

lemma Occurs.trans {root n m : MibNode} {p q : Oid} (hq : Occurs root q n) (hp : Occurs n p m) :
    Occurs root (q ++ p) m := by
  induction hq with
  | here n => exact hp
  | child hi hk hc _ ih => exact .child hi hk hc (ih hp)

/-- What sits below `q` sits below the node at `q`. -/
lemma WellFormed.occurs_below {d : Nat} {root n m : MibNode} {p q : Oid} (h : WellFormed d root)
    (hq : Occurs root q n) (hm : Occurs root (q ++ p) m) : Occurs n p m := by
  induction hq generalizing d with
  | here n => exact hm
  | @child cap cnt subId subPtr i k c q n hi hk hc _ ih =>
    obtain ⟨d, rfl⟩ := h.exists_eq_succ
    rw [List.cons_append] at hm
    cases hm with
    | @child _ _ _ _ j _ c' _ _ hj hk' hc' hm =>
      obtain rfl := (wellFormed_group.mp h).1.index_inj hi hj hk hk'
      obtain rfl : c = c' := Option.some.inj (hc.symm.trans hc')
      exact ih (h.child hi hc) hm

/-- A node on the way to another one. -/
lemma Occurs.split {root m : MibNode} {q p : Oid} (h : Occurs root (q ++ p) m) :
    ∃ n, Occurs root q n ∧ Occurs n p m := by
  induction q generalizing root with
  | nil => exact ⟨root, .here _, h⟩
  | cons x q ih =>
    rw [List.cons_append] at h
    cases h with
    | child hi hk hc h =>
      obtain ⟨n, hq, hp⟩ := ih h
      exact ⟨n, .child hi hk hc hq, hp⟩

end MibNode

/-! ### Instances and views -/

/-- The instances that exist: a registered OID followed by a suffix its handler has. -/
def Existing (root : MibNode) (S : Int → Set Oid) (oid : Oid) : Prop :=
  ∃ p cb a, Occurs root p (.inst cb) ∧ a ∈ S cb ∧ oid = p ++ a

section Resolved

variable {root n : MibNode} {view q t : Oid} {S : Int → Set Oid}

lemma Resolves.mem_atop (hroot : RootOk root) (hr : Resolves root view q t n) {p : Oid} {cb : Int} :
    (p, cb) ∈ atop q n.leaves ↔ q <+: p ∧ Occurs root p (.inst cb) := by
  have hw := (hr.wellFormed hroot).2
  simp only [atop, List.mem_map, Prod.mk.injEq, Prod.exists]
  constructor
  · rintro ⟨p', cb', hmem, rfl, rfl⟩
    exact ⟨List.prefix_append _ _, hr.occurs.trans ((hw.mem_leaves_iff _ _).mp hmem)⟩
  · rintro ⟨⟨p', rfl⟩, hocc⟩
    exact ⟨p', cb, (hw.mem_leaves_iff _ _).mpr (hroot.1.occurs_below hr.occurs hocc), rfl, rfl⟩

/-- What exists below the view sits below the node of the view. -/
lemma Resolves.existing_iff (hroot : RootOk root) (hr : Resolves root view q t n) {x : Oid}
    (hx : view <+: x) : Existing root S x ↔ x ∈ members S (atop q n.leaves) := by
  constructor
  · rintro ⟨p, cb, a, hocc, ha, rfl⟩
    refine ⟨(p, cb), (hr.mem_atop hroot).mpr ⟨?_, hocc⟩, a, ha, rfl⟩
    have hq : q <+: p ++ a := (hr.oid_eq ▸ List.prefix_append q t).trans hx
    -- otherwise the instance sits above the node of the view
    rcases List.prefix_or_prefix_of_prefix hq (List.prefix_append p a) with h | ⟨s, rfl⟩
    · exact h
    · obtain ⟨rfl, rfl⟩ := hroot.1.occurs_inst_unique hocc hr.occurs
      simp
  · rintro ⟨e, he, a, ha, rfl⟩
    obtain ⟨_, hocc⟩ := (hr.mem_atop hroot).mp he
    exact ⟨e.1, e.2, a, hocc, ha, rfl⟩

/-- Nothing below a group without a child to follow has to do with the view. -/
lemma Resolves.not_comparable (hroot : RootOk root) (hr : Resolves root view q t n)
    (hn : n.isGroup) (ht : t ≠ []) {e : Oid × Int} (he : e ∈ atop q n.leaves) (s : Oid) :
    ¬ view <+: e.1 ++ s ∧ ¬ e.1 ++ s <+: view := by
  obtain ⟨⟨p, cb⟩, hmem, rfl⟩ := List.mem_map.mp he
  have hocc := ((hr.wellFormed hroot).2.mem_leaves_iff _ _).mp hmem
  obtain ⟨x, xs, rfl⟩ := List.exists_cons_of_ne_nil ht
  have hnone : ∀ m, ¬ Occurs n [x] m := by
    rcases hr.stops with h | ⟨cb, rfl⟩ | ⟨_, h⟩
    · simp at h
    · simp at hn
    · exact h x rfl
  cases p with
  | nil =>
    cases hocc
    simp at hn
  | cons k p =>
    -- the leaf branches off the view right below the group
    obtain ⟨m, hk, _⟩ := Occurs.split (q := [k]) (p := p) hocc
    have hne : k ≠ x := by
      rintro rfl
      exact hnone m hk
    rw [hr.oid_eq]
    simp [List.prefix_append_right_inj, hne, hne.symm]

lemma Resolves.not_existing (hroot : RootOk root) (hr : Resolves root view q t n) (hn : n.isGroup)
    (ht : t ≠ []) {x : Oid} (hx : view <+: x) : ¬ Existing root S x := by
  rw [hr.existing_iff hroot hx]
  rintro ⟨e, he, a, _, rfl⟩
  exact (hr.not_comparable hroot hn ht he a).1 hx

end Resolved

/-! ### Handlers that answer with their least instance -/

/-- The handlers of a tree have the instances `S`: GETNEXT is answered with the least one above the
suffix, no instance has the empty suffix, and what is returned can be stored. -/
structure LeastHandlers (root : MibNode) (handlers : Handlers) (fam : HandlerFamily)
    (S : Int → Set Oid) : Prop where
  realizes : Realizes handlers fam
  least : AnswersLeast fam Answer.subOid S
  suffix : ∀ cb, [] ∉ S cb
  get : ∀ l c, c.op = .get → (handlers l c).storable = true
  returns : ∀ p cb s a, Occurs root p (.inst cb) → fam cb s = some a → fits (p ++ a.subOid, a) = true

/-- The existing instances above the request and covered by the view. -/
def Targets (root : MibNode) (S : Int → Set Oid) (view orig : Oid) : Set Oid :=
  {x | Existing root S x ∧ orig < x ∧ view <+: x}

/-- The search returns the least existing instance above the request and covered by the view, or the
end of the view with the request echoed if there is none. -/
def NextInView (root : MibNode) (S : Int → Set Oid) (view orig : Oid) (out : Outcome OidSearchRes) :
    Prop :=
  (∃ x res, IsLeast (Targets root S view orig) x ∧ out = .ok res ∧ res.oid = x ∧ res.errStat = 0 ∧
    mibTagValid res.var.tag = true) ∨
  (Targets root S view orig = ∅ ∧ ∃ res, out = .ok res ∧ res.oid = orig ∧ res.errStat = 0 ∧
    res.var.tag = asn1TagEndOfMibView)

/-- A hit is the least member of a set, and no hit says that the set is empty. -/
def IsNext (T : Set Oid) : Option (Oid × Answer) → Prop
  | none => T = ∅
  | some x => IsLeast T x.1

section Search

variable {root : MibNode} {handlers : Handlers} {fam : HandlerFamily} {S : Int → Set Oid}
  {view orig : Oid}

/-- A search runs to the first hit among its probes. -/
lemma mibTreeSearchNext_ends (hroot : RootOk root) (h : LeastHandlers root handlers fam S)
    (view orig : Oid) (ret : OidSearchRes) (l : List Call) :
    ∃ pend, StartProbes root view orig pend ∧
      SearchEnds orig (mibTreeSearchNext handlers view orig root ret l).1 (firstHit fam view pend) := by
  obtain ⟨new, hl, _, ⟨s, hok, hs⟩ | ⟨_, ask, hreq, hcrash⟩⟩ :=
    searchNextStart_spec handlers hroot view orig ret l
  · refine ⟨s.pending, hs.probes, ?_⟩
    have hrun : searchNextStart handlers view orig root ret l = (.ok s, l ++ new) := by
      rw [← hl, ← hok]
    rw [mibTreeSearchNext, Traced.bind_apply_ok hrun,
      searchNextLoop_start handlers view orig hs.inv hs.pNbl hs.stk]
    rcases hs.request with hreq | hnil
    · exact tryProbes_ends view orig h.realizes _ hreq _
    · rw [hnil]
      exact ⟨endOfMibView orig s.ret, rfl, rfl, rfl, rfl⟩
  · refine absurd hcrash (ask.receive_ne_none (h.get l _ ?_))
    simp [OidSearchRes.call, hreq]

/-- Among hits that can be returned and none above the view, the first one covered by the view. -/
lemma firstHit_eq_find {pend : List Probe}
    (hfit : ∀ hit ∈ answers fam Answer.subOid pend, fits hit = true)
    (habove : ∀ hit ∈ answers fam Answer.subOid pend, hit.1 <+: view → view <+: hit.1) :
    firstHit fam view pend = (answers fam Answer.subOid pend).find? fun hit => view <+: hit.1 := by
  refine List.find?_congr fun hit hhit => ?_
  have hzero := oidCover_eq_zero_iff view hit.1
  by_cases hv : view <+: hit.1
  · have : oidCover view hit.1 ≠ 0 := fun h0 => (hzero.mp h0).1 hv
    simp [hv, this]
  · have : oidCover view hit.1 = 0 := hzero.mpr ⟨hv, fun h => hv (habove hit hhit h)⟩
    simp [hv, this, hfit hit hhit]

/-- How the search ended decides whether it returned what it should. -/
lemma nextInView_iff {out : Outcome OidSearchRes} {hit : Option (Oid × Answer)}
    (hfit : ∀ x ∈ hit, fits x = true) (hends : SearchEnds orig out hit) :
    NextInView root S view orig out ↔ IsNext (Targets root S view orig) hit := by
  cases hit with
  | none =>
    obtain ⟨res, rfl, hoid, herr, htag⟩ := hends
    constructor
    · rintro (⟨x, res', _, heq, _, _, hvalid⟩ | ⟨hempty, _⟩)
      · obtain rfl := Outcome.ok.inj heq
        rw [htag] at hvalid
        exact absurd hvalid (by decide)
      · exact hempty
    · intro hempty
      exact Or.inr ⟨hempty, res, rfl, hoid, herr, htag⟩
  | some x =>
    simp only [SearchEnds, hfit x rfl, if_true] at hends
    obtain ⟨res, rfl, hoid, herr, htag, _⟩ := hends
    constructor
    · rintro (⟨y, res', hleast, heq, hoid', _⟩ | ⟨_, res', heq, _, _, hend⟩)
      · obtain rfl := Outcome.ok.inj heq
        rwa [← hoid', hoid] at hleast
      · obtain rfl := Outcome.ok.inj heq
        have := x.2.valid
        rw [← htag, hend] at this
        exact absurd this (by decide)
    · intro hleast
      exact Or.inl ⟨x.1, res, hleast, rfl, hoid, herr, by rw [htag]; exact x.2.valid⟩

/-- The hits of probes below the node of the view can be returned. -/
lemma LeastHandlers.fits_of_mem (hroot : RootOk root) (h : LeastHandlers root handlers fam S)
    {q t : Oid} {n : MibNode} (hr : Resolves root view q t n) {pend : List Probe}
    (hpend : ∀ e ∈ pend, (e.1, e.2.1) ∈ atop q n.leaves) {hit : Oid × Answer}
    (hhit : hit ∈ answers fam Answer.subOid pend) : fits hit = true := by
  obtain ⟨e, he, hask, heq⟩ := (mem_answers fam Answer.subOid).mp hhit
  have hocc := ((hr.mem_atop hroot).mp (hpend e he)).2
  have := h.returns e.1 e.2.1 e.2.2 hit.2 hocc hask
  rwa [← heq] at this

/-- A search for an OID below the view, from the node of the view: the first hit is the least
existing instance above that OID and covered by the view. -/
lemma LeastHandlers.isNext_probes (hroot : RootOk root) (h : LeastHandlers root handlers fam S)
    {q t r : Oid} {n : MibNode} (hr : Resolves root view q t n) (hv : view <+: r) :
    (∀ x ∈ firstHit fam view (probes r (atop q n.leaves)), fits x = true) ∧
      IsNext (Targets root S view r) (firstHit fam view (probes r (atop q n.leaves))) := by
  have hfit : ∀ hit ∈ answers fam Answer.subOid (probes r (atop q n.leaves)), fits hit = true :=
    fun hit => h.fits_of_mem hroot hr fun e he => (mem_probes.mp he).1
  rw [firstHit_eq_find hfit ?_]
  · refine ⟨fun x hx => hfit x (List.mem_of_find?_eq_some hx), ?_⟩
    have hleast := find_answers_least (pairwise_atop q (hr.wellFormed hroot).2.leaves_pairwise)
      h.least h.suffix hv
    have hset : Targets root S view r =
        {x | x ∈ members S (atop q n.leaves) ∧ r < x ∧ view <+: x} := by
      ext x
      constructor
      · rintro ⟨hx, hlt, hvx⟩
        exact ⟨(hr.existing_iff hroot hvx).mp hx, hlt, hvx⟩
      · rintro ⟨hx, hlt, hvx⟩
        exact ⟨(hr.existing_iff hroot hvx).mpr hx, hlt, hvx⟩
    rw [hset]
    split at hleast
    next hnone =>
      rw [hnone]
      exact Set.eq_empty_iff_forall_notMem.mpr fun x hx => hleast x hx.1 hx.2.1 hx.2.2
    next x hsome =>
      rw [hsome]
      exact hleast
  · -- a hit is above the OID asked for, which extends the view
    intro hit hhit hle
    have hlt := (lt_of_mem_answers h.least hhit).2
    exact absurd (le_of_isPrefix hle) (not_le.mpr (lt_of_le_of_lt (le_of_isPrefix hv) hlt))

/-- Above the view nothing of the view is left. -/
lemma targets_eq_empty_of_lt (hlt : view < orig) (hv : ¬ view <+: orig) :
    Targets root S view orig = ∅ := by
  apply Set.eq_empty_iff_forall_notMem.mpr
  intro x hx
  obtain ⟨s, rfl⟩ := hx.2.2
  have hbefore := ((before_iff view orig).mpr ⟨hlt, hv⟩).append s []
  rw [List.append_nil] at hbefore
  exact absurd hx.2.1 hbefore.lt.not_gt

/-- Ahead of the view everything of the view is left. -/
lemma targets_of_lt (hlt : orig < view) :
    Targets root S view orig = {x | Existing root S x ∧ view <+: x} := by
  ext x
  refine ⟨fun hx => ⟨hx.1, hx.2.2⟩, fun hx => ⟨hx.1, ?_, hx.2⟩⟩
  exact lt_of_lt_of_le hlt (le_of_isPrefix hx.2)

/-- A search that starts ahead of the view asks for what is above the OID of the view. -/
lemma IsNext.ahead_iff {hit : Option (Oid × Answer)} (hlt : orig < view)
    (hnext : IsNext (Targets root S view view) hit) :
    IsNext (Targets root S view orig) hit ↔ ¬ Existing root S view := by
  rw [targets_of_lt hlt]
  constructor
  · intro h hview
    cases hit with
    | none => exact Set.eq_empty_iff_forall_notMem.mp h view ⟨hview, List.prefix_refl _⟩
    | some x => exact absurd (h.2 ⟨hview, List.prefix_refl _⟩) (not_le.mpr hnext.1.2.1)
  · intro hview
    have hset : {x | Existing root S x ∧ view <+: x} = Targets root S view view := by
      ext x
      refine ⟨fun hx => ⟨hx.1, ?_, hx.2⟩, fun hx => ⟨hx.1, hx.2.2⟩⟩
      apply lt_of_le_of_ne (le_of_isPrefix hx.2)
      rintro rfl
      exact hview hx.1
    rwa [hset]

/-- A view that is a group is no instance. -/
lemma Resolves.not_existing_group (hok : RootOk root) {q : Oid} {n : MibNode}
    (hr : Resolves root view q [] n) (hn : n.isGroup) : ¬ Existing root S view := by
  rw [hr.existing_iff hok (List.prefix_refl view)]
  rintro ⟨e, he, a, _, heq⟩
  obtain ⟨m, hm, rfl⟩ := List.mem_map.mp he
  rw [hr.oid_eq, List.append_nil, List.append_assoc] at heq
  have hnil := List.append_eq_nil_iff.mp (List.self_eq_append_right.mp heq)
  have hocc := ((hr.wellFormed hok).2.mem_leaves_iff m.1 m.2).mp hm
  rw [hnil.1] at hocc
  cases hocc
  simp at hn

/-- In a view that is not in the tree nothing is found. -/
lemma Resolves.firstHit_eq_none (hok : RootOk root) (h : LeastHandlers root handlers fam S) {q t : Oid}
    {n : MibNode} (hr : Resolves root view q t n) (hn : n.isGroup) (ht : t ≠ []) :
    firstHit fam view ((atop q n.leaves).map first) = none := by
  have hmem : ∀ e ∈ (atop q n.leaves).map first, (e.1, e.2.1) ∈ atop q n.leaves := by
    intro e he
    obtain ⟨m, hm, rfl⟩ := List.mem_map.mp he
    exact hm
  have hoff : ∀ hit ∈ answers fam Answer.subOid ((atop q n.leaves).map first),
      ¬ view <+: hit.1 ∧ ¬ hit.1 <+: view := by
    intro hit hhit
    obtain ⟨e, he, _, heq⟩ := (mem_answers fam Answer.subOid).mp hhit
    have := hr.not_comparable hok hn ht (hmem e he) hit.2.subOid
    rwa [← heq] at this
  rw [firstHit_eq_find (fun hit => h.fits_of_mem hok hr hmem)
    fun hit hhit hle => absurd hle (hoff hit hhit).2]
  exact List.find?_eq_none.mpr fun hit hhit => by simpa using (hoff hit hhit).1

/-- A search of a view, from the probes it starts with. -/
lemma StartProbes.isNext_iff (hok : RootOk root) (h : LeastHandlers root handlers fam S)
    (hcmp : ¬ view <+: orig → (oidCmp orig view < 0 ↔ orig < view ∧ NearBelow orig view))
    {pend : List Probe} (hp : StartProbes root view orig pend) :
    IsNext (Targets root S view orig) (firstHit fam view pend) ↔
      view <+: orig ∨ view < orig ∨ (∀ x, Existing root S x → ¬ view <+: x) ∨
        (¬ Existing root S view ∧ NearBelow orig view) := by
  cases hp with
  | inside hv hr => exact iff_of_true (h.isNext_probes hok hr hv).2 (Or.inl hv)
  | @aheadInst q t cb hv hneg hr =>
    obtain ⟨hlt, hnear⟩ := (hcmp hv).mp hneg
    rw [(h.isNext_probes hok hr (List.prefix_refl view)).2.ahead_iff hlt]
    constructor
    · intro hview
      exact Or.inr (Or.inr (Or.inr ⟨hview, hnear⟩))
    · rintro (hin | hgt | hnone | ⟨hview, _⟩)
      · exact absurd hin hv
      · exact absurd hgt hlt.not_gt
      · intro hview
        exact hnone view hview (List.prefix_refl view)
      · exact hview
  | @aheadGroup q t n hv hneg hr hn =>
    obtain ⟨hlt, hnear⟩ := (hcmp hv).mp hneg
    by_cases ht : t = []
    · -- the group of the view: all of its instances are covered, none is the view itself
      subst ht
      have hpend : (atop q n.leaves).map first = probes view (atop q n.leaves) := by
        rw [← beneath_map_first, ← probes_nil_leaves, beneath_probes, hr.oid_eq]
      have hview : ¬ Existing root S view := hr.not_existing_group hok hn
      rw [hpend, (h.isNext_probes hok hr (List.prefix_refl view)).2.ahead_iff hlt]
      exact iff_of_true hview (Or.inr (Or.inr (Or.inr ⟨hview, hnear⟩)))
    · -- the view is not in the tree: nothing exists in it and no hit is covered
      have hnone : ∀ x, Existing root S x → ¬ view <+: x := fun x hx hvx =>
        hr.not_existing hok hn ht hvx hx
      rw [hr.firstHit_eq_none hok h hn ht]
      refine iff_of_true ?_ (Or.inr (Or.inr (Or.inl hnone)))
      exact Set.eq_empty_iff_forall_notMem.mpr fun x hx => hnone x hx.1 hx.2.2
  | past hv hnn =>
    have hnil : firstHit fam view ([] : List Probe) = none := rfl
    rw [hnil]
    rcases lt_trichotomy view orig with hgt | rfl | hlt
    · exact iff_of_true (targets_eq_empty_of_lt hgt hv) (Or.inr (Or.inl hgt))
    · exact absurd (List.prefix_refl _) hv
    · rw [IsNext, targets_of_lt hlt, Set.eq_empty_iff_forall_notMem]
      constructor
      · intro hnone
        exact Or.inr (Or.inr (Or.inl fun x hx hvx => hnone x ⟨hx, hvx⟩))
      · rintro (hin | hgt | hnone | ⟨_, hnear⟩)
        · exact absurd hin hv
        · exact absurd hgt hlt.not_gt
        · intro x hx
          exact hnone x hx.1 hx.2
        · exact absurd ((hcmp hv).mpr ⟨hlt, hnear⟩) hnn

/-- An OID with the answer of the handler of an instance above it. -/
def FromHandler (root : MibNode) (fam : HandlerFamily) (hit : Oid × Answer) : Prop :=
  ∃ p cb s, Occurs root p (.inst cb) ∧ fam cb s = some hit.2 ∧ hit.1 = p ++ hit.2.subOid

lemma StartProbes.occurs (hok : RootOk root) {pend : List Probe} (hp : StartProbes root view orig pend)
    {e : Probe} (he : e ∈ pend) : Occurs root e.1 (.inst e.2.1) := by
  cases hp with
  | inside hv hr => exact ((hr.mem_atop hok).mp (mem_probes.mp he).1).2
  | aheadInst hv hneg hr => exact ((hr.mem_atop hok).mp (mem_probes.mp he).1).2
  | aheadGroup hv hneg hr hn =>
    obtain ⟨m, hm, rfl⟩ := List.mem_map.mp he
    exact ((hr.mem_atop hok).mp hm).2
  | past hv hnn => cases he

lemma StartProbes.fromHandler (hok : RootOk root) {pend : List Probe}
    (hp : StartProbes root view orig pend) {hit : Oid × Answer} (hhit : hit ∈ firstHit fam view pend) :
    FromHandler root fam hit := by
  obtain ⟨e, he, hask⟩ := List.mem_filterMap.mp (List.mem_of_find?_eq_some hhit)
  obtain ⟨a, ha, rfl⟩ := Option.map_eq_some_iff.mp hask
  exact ⟨e.1, e.2.1, e.2.2, hp.occurs hok he, ha, rfl⟩

lemma FromHandler.fits (h : LeastHandlers root handlers fam S) {hit : Oid × Answer}
    (hhit : FromHandler root fam hit) : fits hit = true := by
  obtain ⟨p, cb, s, hocc, ha, heq⟩ := hhit
  have := h.returns p cb s hit.2 hocc ha
  rwa [← heq] at this

variable (view orig) in
/-- How a search of a view ends: with the answer of an instance or with none, and when this is the
least one. -/
lemma mibTreeSearchNext_hit (hok : RootOk root) (h : LeastHandlers root handlers fam S)
    (hcmp : ¬ view <+: orig → (oidCmp orig view < 0 ↔ orig < view ∧ NearBelow orig view))
    (ret : OidSearchRes) (l : List Call) :
    ∃ hit, SearchEnds orig (mibTreeSearchNext handlers view orig root ret l).1 hit ∧
      (∀ x ∈ hit, FromHandler root fam x) ∧
      (IsNext (Targets root S view orig) hit ↔
        view <+: orig ∨ view < orig ∨ (∀ x, Existing root S x → ¬ view <+: x) ∨
          (¬ Existing root S view ∧ NearBelow orig view)) := by
  obtain ⟨pend, hp, hends⟩ := mibTreeSearchNext_ends hok h view orig ret l
  exact ⟨_, hends, fun x hx => hp.fromHandler hok hx, hp.isNext_iff hok h hcmp⟩

end Search

/-! ### A view that is an instance -/

/-- Handlers of scalars: the one instance of each has the suffix `0`. -/
def scalarFamily : HandlerFamily := fun _ suffix =>
  if suffix < [0] then some ⟨[0], .num 0, asn1TagInt, mibTagValid_int⟩ else none

def scalarHandlers : Handlers := fun _ call =>
  if call.op = .getNext ∧ ¬ call.subOid < [0] then .error else .results 0 [0] (.num 0) asn1TagInt

def scalarInstances : Int → Set Oid := fun _ => {[0]}

lemma leastHandlers_scalar :
    LeastHandlers oneInstance scalarHandlers scalarFamily scalarInstances where
  realizes := by
    intro l cb s
    by_cases hs : s < [0]
    · simp [scalarFamily, scalarHandlers, getNextCall, hs]
    · simp [scalarFamily, scalarHandlers, getNextCall, hs]
  least := by
    intro cb s
    by_cases hs : s < [0]
    · simp only [scalarFamily, hs, if_true]
      exact ⟨⟨rfl, hs⟩, fun a ha => le_of_eq ha.1.symm⟩
    · simp only [scalarFamily, hs, if_false]
      rintro a rfl
      exact hs
  suffix := by simp [scalarInstances]
  get := by
    intro l c hc
    simp only [scalarHandlers, hc, reduceCtorEq, false_and, if_false]
    decide
  returns := by
    intro p cb s a hocc ha
    have hmem := (reachable_oneInstance.rootOk.1.mem_leaves_iff p cb).mpr hocc
    obtain ⟨rfl, rfl⟩ : p = [1] ∧ cb = 7 := by
      simpa [oneInstance, MibNode.leaves, MibNode.leavesList, under] using hmem
    by_cases hs : s < [0]
    · simp only [scalarFamily, hs, if_true, Option.some.injEq] at ha
      rw [← ha]
      decide
    · simp [scalarFamily, hs] at ha

/-- The view is the instance `1.0` and the request is ahead of it: the search skips the instance. -/
theorem mibTreeSearchNext_skips_view :
    Reachable oneInstance ∧
    LeastHandlers oneInstance scalarHandlers scalarFamily scalarInstances ∧
    Existing oneInstance scalarInstances [1, 0] ∧
    ¬ NextInView oneInstance scalarInstances [1, 0] [0]
      (mibTreeSearchNext scalarHandlers [1, 0] [0] oneInstance (OidSearchRes.init .getNext) []).1 := by
  have hexists : Existing oneInstance scalarInstances [1, 0] :=
    ⟨[1], 7, [0], .child Nat.zero_lt_one rfl rfl (.here _), rfl, rfl⟩
  refine ⟨reachable_oneInstance, leastHandlers_scalar, hexists, ?_⟩
  have hend : ∃ res, (mibTreeSearchNext scalarHandlers [1, 0] [0] oneInstance
      (OidSearchRes.init .getNext) []).1 = .ok res ∧ res.var.tag = asn1TagEndOfMibView := ⟨_, rfl, rfl⟩
  obtain ⟨res, hout, htag⟩ := hend
  rw [hout]
  rintro (⟨x, res', _, heq, _, _, hvalid⟩ | ⟨hempty, _⟩)
  · obtain rfl := Outcome.ok.inj heq
    rw [htag] at hvalid
    exact absurd hvalid (by decide)
  · exact Set.eq_empty_iff_forall_notMem.mp hempty [1, 0] ⟨hexists, by decide, List.prefix_refl _⟩

/-- GETNEXT restricted to a view, for handlers that answer with their least instance. The search
returns the least existing instance above the request and covered by the view exactly when the
request lies in the view or after it, or nothing exists in the view, or the request is ahead of a
view that is not itself an existing instance and the first differing sub-identifiers are at most
`2 ^ 31` apart. -/
theorem mibTreeSearchNext_view {root : MibNode} (hroot : Reachable root) {handlers : Handlers}
    {fam : HandlerFamily} {S : Int → Set Oid} (h : LeastHandlers root handlers fam S) (view : Oid)
    {orig : Oid} (horig : ∀ x ∈ orig, x.toNat < 2 ^ 31) (ret : OidSearchRes) (l : List Call) :
    NextInView root S view orig (mibTreeSearchNext handlers view orig root ret l).1 ↔
      view <+: orig ∨ view < orig ∨ (∀ x, Existing root S x → ¬ view <+: x) ∨
        (¬ Existing root S view ∧ NearBelow orig view) := by
  obtain ⟨hit, hends, hfrom, hnext⟩ :=
    mibTreeSearchNext_hit view orig hroot.rootOk h (fun _ => oidCmp_neg_iff horig) ret l
  rw [nextInView_iff (fun x hx => (hfrom x hx).fits h) hends, hnext]

theorem mibTreeSearchNext_view_scalar :
    Reachable oneInstance ∧
    LeastHandlers oneInstance scalarHandlers scalarFamily scalarInstances ∧
    NextInView oneInstance scalarInstances [1] [0]
      (mibTreeSearchNext scalarHandlers [1] [0] oneInstance (OidSearchRes.init .getNext) []).1 := by
  refine ⟨reachable_oneInstance, leastHandlers_scalar, ?_⟩
  refine (mibTreeSearchNext_view reachable_oneInstance leastHandlers_scalar [1] (by simp)
    (OidSearchRes.init .getNext) []).mpr (Or.inr (Or.inr (Or.inr ⟨?_, by simp [NearBelow]⟩)))
  rintro ⟨p, cb, a, hocc, rfl, heq⟩
  cases p with
  | nil => simp at heq
  | cons x xs => simp at heq

end SmartSnmp
