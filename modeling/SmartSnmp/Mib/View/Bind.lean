import SmartSnmp.Mib.View.Records

/-!
# A view is bound

A new binding goes to the front of the list of its view and to its place in the list of its community
or user. The list of OIDs becomes that of the list level.
-/

namespace SmartSnmp

open Links

namespace Shape

variable {H : ViewHeap} {G : Ghost} {holder : Holder} {attr : MibAcesAttr} {c v b : Addr} {oid : Oid}

/-! ### A new binding -/

/-- The heap with a new binding. -/
def withBinding (H : ViewHeap) (holder : Holder) (b : Addr) (cv : ViewBinding) (L : Links ViewNode) :
    ViewHeap := { H with
  mallocs := H.mallocs + 1
  live := b :: H.live
  links := L
  binding := Function.update H.binding (holder, b) (some cv) }

lemma binding_withBinding (h : Shape H G) (hlive : b ∉ H.live) {k : Holder × Addr}
    (hk : H.binding k ≠ none) (cv : ViewBinding) (L : Links ViewNode) :
    (withBinding H holder b cv L).binding k = H.binding k := by
  refine Function.update_of_ne ?_ _ _
  rintro rfl
  exact h.fresh hlive (.binding holder) hk

/-- The list of the view gets the new binding. -/
lemma rings_newBinding (h : Shape H G) (holder : Holder) (hlive : b ∉ H.live) (hv : v ∈ H.mibViews) :
    let R := Function.update (H.ringsOf G) (.members holder v)
      (some (.vlink holder b :: (G.seen (holder, v)).map (.vlink holder)))
    ∃ L₁ L₂ L₃, initListHead (ViewHeap.rawNode (ViewHeap.rawNode H.links (.vlink holder b))
        (.link holder b)) (.vlink holder b) = some L₁ ∧
      initListHead L₁ (.link holder b) = some L₂ ∧
      listAdd L₂ (.vlink holder b) (.members holder v) = some L₃ ∧ L₃.Rings R ∧
      Loose R (.link holder b) ∧
      ∀ n, L₃ n ≠ none ↔ H.links n ≠ none ∨ n = .vlink holder b ∨ n = .link holder b := by
  obtain ⟨L₁, L₂, h₁, h₂, hrings₂, halloc₂⟩ := rings_initHeads h.rings
    (show ViewNode.vlink holder b ≠ .link holder b by simp)
    (h.links_fresh hlive rfl) (h.links_fresh hlive rfl) ⟨none, none⟩
  have hrings₂ : L₂.Rings (H.ringsOf G) := hrings₂.mono fun k ys hk => by
    cases k with
    | views _ _ _ => rwa [Function.update_of_ne (by simp), Function.update_of_ne (by simp)]
    | members _ _ => rwa [Function.update_of_ne (by simp), Function.update_of_ne (by simp)]
    | vlink _ _ => cases hk
    | link _ _ => cases hk
  have hvlink : Loose (H.ringsOf G) (.vlink holder b) := h.rings.loose (h.links_fresh hlive rfl)
  have hlink : Loose (H.ringsOf G) (.link holder b) := h.rings.loose (h.links_fresh hlive rfl)
  obtain ⟨L₃, h₃, hrings₃, halloc₃⟩ := rings_listAdd hrings₂ (ringsOf_members hv G holder) hvlink
    ((halloc₂ _).mpr (by simp))
  exact ⟨L₁, L₂, L₃, h₁, h₂, h₃, hrings₃, hlink.update (by simp),
    fun n => (halloc₃ n).trans (halloc₂ n)⟩

/-- The loop of `community_view_add` and `user_view_add` from a binding on: the new node is put before
the first greater view. -/
lemma viewAddLoop (oid : Oid) (new : ViewNode) {R : ViewNode → Option (List ViewNode)} (hrings : H.links.Rings R)
    {us vs : List Addr} (hR : R (.views holder attr c) = some ((us ++ vs).map (.link holder)))
    {f : Addr → Oid} (hentry : ∀ b ∈ vs, H.entryOid holder (.link holder b) = some (f b))
    {fuel : Nat} (hfuel : vs.length < fuel) :
    ∃ ws zs, vs = ws ++ zs ∧ SmartSnmp.viewAdd oid (vs.map f) = ws.map f ++ oid :: zs.map f ∧
      H.viewAddLoop holder oid (.views holder attr c) new fuel (nodeOf holder attr c vs) =
        listAddTail H.links new (nodeOf holder attr c zs) := by
  induction vs generalizing us fuel with
  | nil =>
    obtain ⟨fuel, rfl⟩ := Nat.exists_eq_succ_of_ne_zero (Nat.ne_of_gt hfuel)
    exact ⟨[], [], rfl, rfl, by simp [ViewHeap.viewAddLoop, nodeOf]⟩
  | cons b tl ih =>
    obtain ⟨fuel, rfl⟩ := Nat.exists_eq_succ_of_ne_zero (Nat.ne_of_gt (Nat.zero_lt_of_lt hfuel))
    have hcurr : nodeOf holder attr c (b :: tl) = .link holder b := rfl
    rw [hcurr, ViewHeap.viewAddLoop, if_neg (by simp)]
    simp only [Option.bind_eq_bind, hentry b List.mem_cons_self, Option.bind_some, List.map_cons,
      SmartSnmp.viewAdd]
    by_cases hcmp : 0 < oidCmp (f b) oid
    · exact ⟨[], b :: tl, rfl, by simp [hcmp], by simp [hcmp, hcurr]⟩
    · have hR' : R (.views holder attr c) = some (((us ++ [b]) ++ tl).map (.link holder)) := by
        rw [hR, List.append_assoc, List.singleton_append]
      obtain ⟨next, hnextOf, hnext⟩ := nextOf_nodeOf (show H.links.IsRing (.views holder attr c)
        ((us ++ b :: tl).map (.link holder)) from hrings.ring hR)
      obtain ⟨ws, zs, rfl, hadd, hloop⟩ := ih hR' (fun b hb => hentry b (List.mem_cons_of_mem _ hb))
        (Nat.lt_of_succ_lt_succ hfuel)
      refine ⟨b :: ws, zs, rfl, by rw [if_neg hcmp, hadd, List.map_cons, List.cons_append], ?_⟩
      rw [hcurr] at hnextOf
      rw [if_neg hcmp, hnextOf, Option.bind_some, hnext b _ rfl, hloop]

section Rebind

variable {us vs : List Addr} (h : Shape H G) (hc : c ∈ H.holders holder) (hv : v ∈ H.mibViews)
  (hbs : G.bound (holder, attr, c) = us ++ vs)

include hbs in
lemma mem_bound_insert {k : ListKey} {b' : Addr} (m : Holder × Addr) (cs : List Addr) :
    b' ∈ (G.rebind (holder, attr, c) (us ++ b :: vs) m cs).bound k ↔
      b' ∈ G.bound k ∨ k = (holder, attr, c) ∧ b' = b := by
  by_cases heq : k = (holder, attr, c)
  · subst heq
    simp only [Ghost.rebind, Function.update_self, hbs, true_and]
    simp
    tauto
  · simp [Ghost.rebind, heq]

lemma mem_seen_insert {m : Holder × Addr} {b' : Addr} (k : ListKey) (bs : List Addr) :
    b' ∈ (G.rebind k bs (holder, v) (b :: G.seen (holder, v))).seen m ↔
      b' ∈ G.seen m ∨ m = (holder, v) ∧ b' = b := by
  by_cases heq : m = (holder, v)
  · subst heq
    simp [Ghost.rebind, or_comm]
  · simp [Ghost.rebind, heq]

include h hc hv hbs

lemma bindNew (hlive : b ∉ H.live) {L : Links ViewNode}
    (hrings : L.Rings (H.ringsOf
      (G.rebind (holder, attr, c) (us ++ b :: vs) (holder, v) (b :: G.seen (holder, v)))))
    (halloc : ∀ n, L n ≠ none ↔ H.links n ≠ none ∨ n = .vlink holder b ∨ n = .link holder b) :
    Shape (withBinding H holder b ⟨v, c⟩ L)
      (G.rebind (holder, attr, c) (us ++ b :: vs) (holder, v) (b :: G.seen (holder, v))) := by
  have hself : (withBinding H holder b ⟨v, c⟩ L).binding (holder, b) = some ⟨v, c⟩ :=
    Function.update_self _ _ _
  have hbinding : ∀ {k cv}, H.binding k = some cv →
      (withBinding H holder b ⟨v, c⟩ L).binding k = some cv := by
    intro k cv hk
    rw [h.binding_withBinding hlive (by simp [hk]), hk]
  have hhas : ∀ kind a, (withBinding H holder b ⟨v, c⟩ L).Has kind a ↔
      H.Has kind a ∨ kind = .binding holder ∧ a = b := by
    intro kind a
    cases kind with
    | view => simp [ViewHeap.Has, withBinding]
    | holder _ => simp [ViewHeap.Has, withBinding]
    | binding holder' =>
      by_cases heq : (holder', a) = (holder, b)
      · simp only [Prod.mk.injEq] at heq
        obtain ⟨rfl, rfl⟩ := heq
        simp [ViewHeap.Has, hself]
      · have hne : ¬ (holder' = holder ∧ a = b) := by simpa using heq
        have hold : (withBinding H holder b ⟨v, c⟩ L).binding (holder', a) = H.binding (holder', a) :=
          Function.update_of_ne heq _ _
        simp [ViewHeap.Has, hold, hne]
  constructor
  · refine h.toRecords.alloc hlive hhas rfl fun n hn => ((halloc n).mp hn).imp_right ?_
    rintro (rfl | rfl) <;> exact ⟨rfl, rfl⟩
  · exact hrings
  · intro holder' attr' c' b' hc' hb'
    rcases (mem_bound_insert hbs _ _).mp hb' with hb' | ⟨heq, rfl⟩
    · obtain ⟨v', hv', hbind, hmem⟩ := h.bound hc' hb'
      exact ⟨v', hv', hbinding hbind, (mem_seen_insert _ _).mpr (.inl hmem)⟩
    · simp only [Prod.mk.injEq] at heq
      obtain ⟨rfl, rfl, rfl⟩ := heq
      exact ⟨v, hv, hself, (mem_seen_insert _ _).mpr (.inr ⟨rfl, rfl⟩)⟩
  · intro holder' v' b' hv' hb'
    rcases (mem_seen_insert _ _).mp hb' with hb' | ⟨heq, rfl⟩
    · obtain ⟨c', hbind⟩ := h.seen hv' hb'
      exact ⟨c', hbinding hbind⟩
    · simp only [Prod.mk.injEq] at heq
      obtain ⟨rfl, rfl⟩ := heq
      exact ⟨c, hself⟩
  · intro holder' b' cv hbind
    by_cases heq : (holder', b') = (holder, b)
    · rw [heq, hself, Option.some.injEq] at hbind
      simp only [Prod.mk.injEq] at heq
      obtain ⟨rfl, rfl⟩ := heq
      subst hbind
      exact ⟨hc, attr, (mem_bound_insert hbs _ _).mpr (.inr ⟨rfl, rfl⟩)⟩
    · have hold : (withBinding H holder b ⟨v, c⟩ L).binding (holder', b') = H.binding (holder', b') :=
        Function.update_of_ne heq _ _
      rw [hold] at hbind
      obtain ⟨hc', attr', hb'⟩ := h.binding hbind
      exact ⟨hc', attr', (mem_bound_insert hbs _ _).mpr (.inl hb')⟩
  · exact h.oid
  · exact h.oid_inj
  · exact h.name
  · exact h.nodup_mibViews
  · exact h.nodup_holders

end Rebind

/-- `community_view_add` and `user_view_add`. -/
lemma viewAdd (h : Shape H G) {malloc : Nat → List Addr → Addr} (hmalloc : ∀ n live, malloc n live ∉ live)
    (hc : c ∈ H.holders holder) (hv : v ∈ H.mibViews) (hoid : H.oid v = some oid) (attr : MibAcesAttr) :
    ∃ H' G', H.viewAdd malloc holder oid c v (.views holder attr c) = some H' ∧ Shape H' G' ∧
      Frame H G H' G' (· = (holder, attr, c)) ∧ H'.viewOids = H.viewOids ∧
      H'.oidsOf G' (holder, attr, c) = SmartSnmp.viewAdd oid (H.oidsOf G (holder, attr, c)) := by
  obtain ⟨b, hb⟩ : ∃ b, b = malloc H.mallocs H.live := ⟨_, rfl⟩
  have hlive : b ∉ H.live := hb ▸ hmalloc H.mallocs H.live
  obtain ⟨L₁, L₂, L₃, h₁, h₂, h₃, hrings₃, hlink, halloc₃⟩ := h.rings_newBinding holder hlive hv
  have hR : Function.update (H.ringsOf G) (.members holder v)
      (some (.vlink holder b :: (G.seen (holder, v)).map (.vlink holder))) (.views holder attr c) =
        some (([] ++ G.bound (holder, attr, c)).map (.link holder)) := by
    rw [Function.update_of_ne (by simp)]
    exact ringsOf_views hc G attr
  have hentry : ∀ b' ∈ G.bound (holder, attr, c), (withBinding H holder b ⟨v, c⟩ L₃).entryOid holder
      (.link holder b') = some (H.oidOf holder b') := by
    intro b' hb'
    obtain ⟨v', -, hbind, -⟩ := h.bound hc hb'
    rw [← h.entryOid_link hc hb', ViewHeap.entryOid, ViewHeap.entryOid, ViewHeap.linkEntry, if_pos rfl,
      Option.bind_eq_bind, Option.bind_some, h.binding_withBinding hlive (by simp [hbind])]
    rfl
  obtain ⟨ws, zs, hbs, hadd, hloop⟩ := viewAddLoop (H := withBinding H holder b ⟨v, c⟩ L₃) oid
    (.link holder b) hrings₃ hR hentry
    (Nat.lt_succ_of_le ((h.length_bound hc attr).trans (Nat.le_succ _)))
  rw [List.nil_append, hbs, List.map_append] at hR
  obtain ⟨L₄, h₄, hrings₄, halloc₄⟩ := rings_listAddTail hrings₃ hR hlink ((halloc₃ _).mpr (by simp))
  rw [Function.update_comm (by simp), ← List.map_cons, ← List.map_cons, ← List.map_append,
    ← ringsOf_rebind hc hv] at hrings₄
  have hnext : L₃.nextOf (.views holder attr c) = some (nodeOf holder attr c (ws ++ zs)) := by
    rw [(hrings₃.ring hR).nextOf_head, ← List.map_append]
    rfl
  have hself : (withBinding H holder b ⟨v, c⟩ L₄).oidOf holder b = oid := by
    simp [ViewHeap.oidOf, withBinding, hoid]
  have hold : ∀ {holder' b'}, H.binding (holder', b') ≠ none →
      (withBinding H holder b ⟨v, c⟩ L₄).oidOf holder' b' = H.oidOf holder' b' := by
    intro holder' b' hb'
    rw [ViewHeap.oidOf, h.binding_withBinding hlive hb']
    rfl
  refine ⟨withBinding H holder b ⟨v, c⟩ L₄, _, ?_, h.bindNew hc hv hbs hlive hrings₄
    fun n => (halloc₄ n).trans (halloc₃ n), ⟨rfl, rfl, ?_⟩, rfl, ?_⟩
  · have hloop' := hloop.trans h₄
    simp only [ViewHeap.viewAdd, ← hb, Option.bind_eq_bind, h₁, h₂, h₃, hnext, Option.bind_some]
    rw [hbs] at hloop'
    exact (congrArg (Option.bind · _) hloop').trans rfl
  · rintro ⟨holder', attr', c'⟩ hne hc'
    refine h.oidsOf_congr (withBinding H holder b ⟨v, c⟩ L₄) _ hc'
      (fun _ hb' => h.binding_withBinding hlive hb' _ _) (fun _ _ => rfl) ?_
    exact Function.update_of_ne hne _ _
  · have hmem : ∀ b' ∈ ws ++ zs, (withBinding H holder b ⟨v, c⟩ L₄).oidOf holder b' = H.oidOf holder b' := by
      intro b' hb'
      obtain ⟨v', -, hbind, -⟩ := h.bound hc (hbs ▸ hb')
      exact hold (by simp [hbind])
    have hself' : (G.rebind (holder, attr, c) (ws ++ b :: zs) (holder, v) (b :: G.seen (holder, v))).bound
        (holder, attr, c) = ws ++ b :: zs := Function.update_self _ _ _
    rw [ViewHeap.oidsOf, hself', List.map_append, List.map_cons, hself, ViewHeap.oidsOf]
    refine Eq.trans ?_ hadd.symm
    refine congrArg₂ (· ++ oid :: ·) (List.map_congr_left ?_) (List.map_congr_left ?_)
    · exact fun b' hb' => hmem b' (List.mem_append_left _ hb')
    · exact fun b' hb' => hmem b' (List.mem_append_right _ hb')

end Shape

end SmartSnmp
