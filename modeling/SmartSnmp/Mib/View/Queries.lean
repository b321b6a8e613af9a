import SmartSnmp.Mib.View.Refine

/-!
# What the records answer

The search, the cover test and the next view of a community or user, on the records of any run. They
follow no pointer that is null or goes to a record that is not there, and they answer as on the list
level.
-/

namespace SmartSnmp

open Links

lemma viewAfter_cons_ne {a v : Oid} (hne : a ≠ v) (views : List Oid) :
    viewAfter v (a :: views) = viewAfter v views := by
  cases views with
  | nil => rfl
  | cons b views => rw [viewAfter, if_neg hne]

namespace Shape

variable {H : ViewHeap} {G : Ghost} {holder : Holder} {attr : MibAcesAttr} {c v b : Addr} {oid : Oid}
  {us vs : List Addr}

/-! ### Cover -/

/-- The loop of `mib_community_view_cover` and `mib_user_view_cover` from a binding on. -/
lemma viewCoverLoop (h : Shape H G) (hc : c ∈ H.holders holder)
    (hbs : G.bound (holder, attr, c) = us ++ vs) (oid : Oid) {fuel : Nat} (hfuel : vs.length < fuel) :
    H.viewCoverLoop holder oid (.views holder attr c) fuel (nodeOf holder attr c vs) =
      some ((vs.map (H.oidOf holder)).any fun v => 0 < oidCover v oid) := by
  induction vs generalizing us fuel with
  | nil =>
    obtain ⟨fuel, rfl⟩ := Nat.exists_eq_succ_of_ne_zero (Nat.ne_of_gt hfuel)
    simp [ViewHeap.viewCoverLoop, nodeOf]
  | cons b tl ih =>
    obtain ⟨fuel, rfl⟩ := Nat.exists_eq_succ_of_ne_zero (Nat.ne_of_gt (Nat.zero_lt_of_lt hfuel))
    have hcurr : nodeOf holder attr c (b :: tl) = .link holder b := rfl
    have hentry := h.entryOid_link hc (show b ∈ G.bound (holder, attr, c) by simp [hbs])
    obtain ⟨next, hnextOf, hnext⟩ := nextOf_nodeOf (hbs ▸ h.ring_bound hc attr)
    rw [hcurr] at hnextOf
    have hbs' : G.bound (holder, attr, c) = (us ++ [b]) ++ tl := by simp [hbs]
    rw [hcurr, ViewHeap.viewCoverLoop, if_neg (by simp)]
    simp only [Option.bind_eq_bind, hentry, Option.bind_some, List.map_cons, List.any_cons]
    by_cases hcover : 0 < oidCover (H.oidOf holder b) oid
    · simp [hcover]
    · rw [if_neg hcover, hnextOf, Option.bind_some, hnext b tl rfl,
        ih hbs' (Nat.lt_of_succ_lt_succ hfuel)]
      simp [hcover]

/-- `mib_community_view_cover` and `mib_user_view_cover`. -/
lemma viewCover (h : Shape H G) (hc : c ∈ H.holders holder) (attr : MibAcesAttr) (oid : Oid) :
    H.viewCover holder attr oid (some c) =
      some (entryViewCover (some (H.entryOf G holder c)) attr oid) := by
  have hviews : (H.entryOf G holder c).views attr = H.oidsOf G (holder, attr, c) := by
    cases attr <;> rfl
  rw [ViewHeap.viewCover, (h.ring_bound hc attr).nextOf_head, entryViewCover, hviews]
  exact h.viewCoverLoop hc (show G.bound (holder, attr, c) = [] ++ _ from rfl) oid
    (Nat.lt_succ_of_le (h.length_bound hc attr))

/-! ### The next view -/

/-- The view of a binding of a list. -/
lemma entryView_link (h : Shape H G) (hc : c ∈ H.holders holder)
    (hb : b ∈ G.bound (holder, attr, c)) :
    ∃ v, H.entryView holder (.link holder b) = some v ∧ H.oid v = some (H.oidOf holder b) := by
  obtain ⟨v, hv, hbind, -⟩ := h.bound hc hb
  obtain ⟨o, ho⟩ := Option.ne_none_iff_exists'.mp ((h.oid v).mpr hv)
  exact ⟨v, by simp [ViewHeap.entryView, ViewHeap.linkEntry, hbind],
    by simp [ViewHeap.oidOf, hbind, ho]⟩

/-- The loop of `mib_community_next_view` and `mib_user_next_view` from a binding on, after a view. -/
lemma nextViewLoop (h : Shape H G) (hc : c ∈ H.holders holder)
    (hbs : G.bound (holder, attr, c) = us ++ vs) (hv : H.oid v = some oid) {fuel : Nat}
    (hfuel : vs.length < fuel) :
    ∃ next, H.nextViewLoop holder (.views holder attr c) (some v) fuel (nodeOf holder attr c vs) =
        some next ∧ next.bind H.oid = viewAfter oid (vs.map (H.oidOf holder)) ∧
      ∀ v' ∈ next, H.oid v' ≠ none := by
  induction vs generalizing us fuel with
  | nil =>
    obtain ⟨fuel, rfl⟩ := Nat.exists_eq_succ_of_ne_zero (Nat.ne_of_gt hfuel)
    exact ⟨none, by simp [ViewHeap.nextViewLoop, nodeOf], rfl, by simp⟩
  | cons b tl ih =>
    obtain ⟨fuel, rfl⟩ := Nat.exists_eq_succ_of_ne_zero (Nat.ne_of_gt (Nat.zero_lt_of_lt hfuel))
    have hcurr : nodeOf holder attr c (b :: tl) = .link holder b := rfl
    obtain ⟨vb, hentry, hvb⟩ := h.entryView_link hc (show b ∈ G.bound (holder, attr, c) by simp [hbs])
    obtain ⟨next, hnextOf, hnext⟩ := nextOf_nodeOf (hbs ▸ h.ring_bound hc attr)
    rw [hcurr] at hnextOf
    have hbs' : G.bound (holder, attr, c) = (us ++ [b]) ++ tl := by simp [hbs]
    obtain ⟨r, hloop, hafter, hr⟩ := ih hbs' (Nat.lt_of_succ_lt_succ hfuel)
    rw [hcurr, ViewHeap.nextViewLoop, if_neg (by simp)]
    simp only [Option.bind_eq_bind, hentry, Option.bind_some, List.map_cons]
    by_cases heq : v = vb
    · subst heq
      have hoid : H.oidOf holder b = oid := by simpa [hv] using hvb.symm
      have hring := h.rings
      have hR := ringsOf_views hc G attr
      rw [hbs, List.map_append, List.map_cons] at hR
      rw [if_pos rfl, listIsLast_eq hring hR, Option.bind_some]
      cases tl with
      | nil =>
        refine ⟨r, ?_, hafter, hr⟩
        simp [hnextOf, hnext b [] rfl, hloop]
      | cons b' tl =>
        obtain ⟨v', hentry', hv'⟩ :=
          h.entryView_link hc (show b' ∈ G.bound (holder, attr, c) by simp [hbs])
        have hnext' : next = .link holder b' := hnext b _ rfl
        refine ⟨some v', ?_, ?_, by simp [hv']⟩
        · simp [hnextOf, hnext', hentry']
        · simp [viewAfter, hoid, hv']
    · have hne : H.oidOf holder b ≠ oid := by
        rintro rfl
        exact heq (h.oid_inj hv hvb)
      refine ⟨r, ?_, by rw [viewAfter_cons_ne hne, hafter], hr⟩
      rw [if_neg heq, hnextOf, Option.bind_some, hnext b tl rfl, hloop]

/-- `mib_community_next_view` and `mib_user_next_view`. -/
lemma nextView (h : Shape H G) (hc : c ∈ H.holders holder) (attr : MibAcesAttr) {v : Option Addr}
    (hv : ∀ v' ∈ v, H.oid v' ≠ none) :
    ∃ next, H.nextView holder attr v (some c) = some next ∧
      next.bind H.oid = entryNextView (some (H.entryOf G holder c)) attr (v.bind H.oid) ∧
      ∀ v' ∈ next, H.oid v' ≠ none := by
  have hviews : (H.entryOf G holder c).views attr = H.oidsOf G (holder, attr, c) := by
    cases attr <;> rfl
  have hring := h.ring_bound hc attr
  rw [ViewHeap.nextView, hring.nextOf_head, Option.bind_eq_bind, Option.bind_some]
  cases v with
  | some v =>
    obtain ⟨oid, hoid⟩ := Option.ne_none_iff_exists'.mp (hv v rfl)
    rw [Option.bind_some, hoid, entryNextView, hviews]
    exact h.nextViewLoop hc (show G.bound (holder, attr, c) = [] ++ _ from rfl) hoid
      (Nat.lt_succ_of_le (h.length_bound hc attr))
  | none =>
    rw [Option.bind_none, entryNextView, hviews, ViewHeap.oidsOf]
    cases hbs : G.bound (holder, attr, c) with
    | nil => exact ⟨none, by simp [ViewHeap.nextViewLoop], rfl, by simp⟩
    | cons b tl =>
      obtain ⟨vb, hentry, hvb⟩ := h.entryView_link hc (show b ∈ G.bound (holder, attr, c) by simp [hbs])
      have hfirst := hring.nextOf_head
      rw [hbs, List.map_cons, List.headD_cons] at hfirst
      exact ⟨some vb, by simp [ViewHeap.nextViewLoop, hentry, hfirst], by simp [hvb], by simp [hvb]⟩

end Shape

/-- In the records of any run the search, the cover test and the next view answer as on the list
level. -/
theorem viewHeap_queries {malloc : Nat → List Addr → Addr} (hmalloc : ∀ n live, malloc n live ∉ live) {fuel : Nat}
    {ops : List ViewOp} {H : ViewHeap} (hrun : ViewHeap.run malloc fuel ops = .ok H) :
    ∃ s, MibViews.run fuel ops = .ok s ∧ ∀ holder name, ∃ c,
      H.holderSearch holder name (H.holders holder) = some c ∧
      ∀ attr, (∀ oid, H.viewCover holder attr oid c =
          some (entryViewCover (entrySearch name (s.entries holder)) attr oid)) ∧
        ∀ v : Option Addr, (∀ v' ∈ v, H.oid v' ≠ none) → ∃ next,
          H.nextView holder attr v c = some next ∧
          next.bind H.oid =
            entryNextView (entrySearch name (s.entries holder)) attr (v.bind H.oid) ∧
          ∀ v' ∈ next, H.oid v' ≠ none := by
  have hsame := ViewHeap.run_same hmalloc fuel ops
  rw [hrun] at hsame
  generalize hs : MibViews.run fuel ops = o at hsame
  cases hsame with
  | ok hok =>
    obtain ⟨G, h, rfl, -⟩ := hok
    refine ⟨_, rfl, fun holder name => ?_⟩
    obtain ⟨c, hsearch, hfound⟩ := h.holderSearch name fun c hc => hc
    refine ⟨c, hsearch, fun attr => ?_⟩
    rw [H.views_entries]
    cases c with
    | some c =>
      have hc : c ∈ H.holders holder := by
        obtain ⟨pre, post, hholders, -, -⟩ := hfound
        simp [hholders]
      rw [h.entrySearch_of_first hfound]
      exact ⟨h.viewCover hc attr, fun v hv => h.nextView hc attr hv⟩
    | none =>
      rw [h.entrySearch_of_none hfound]
      refine ⟨fun oid => rfl, fun v _ => ⟨none, rfl, ?_, by simp⟩⟩
      cases v <;> rfl

theorem viewHeap_queries_sample : ∃ s, MibViews.run 4 sampleViewOps = .ok s ∧ ∀ holder name, ∃ c,
    sampleViewHeap.holderSearch holder name (sampleViewHeap.holders holder) = some c ∧
    ∀ attr, (∀ oid, sampleViewHeap.viewCover holder attr oid c =
        some (entryViewCover (entrySearch name (s.entries holder)) attr oid)) ∧
      ∀ v : Option Addr, (∀ v' ∈ v, sampleViewHeap.oid v' ≠ none) → ∃ next,
        sampleViewHeap.nextView holder attr v c = some next ∧
        next.bind sampleViewHeap.oid =
          entryNextView (entrySearch name (s.entries holder)) attr (v.bind sampleViewHeap.oid) ∧
        ∀ v' ∈ next, sampleViewHeap.oid v' ≠ none :=
  viewHeap_queries bumpMalloc_notMem sampleViewHeap_run

end SmartSnmp
