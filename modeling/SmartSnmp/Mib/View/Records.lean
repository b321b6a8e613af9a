import SmartSnmp.Mib.View.Shape

/-!
# Records that come and go

A record is created at an address that is not in use, with empty lists; a community or user whose lists
are empty is freed. The shape is kept.
-/

namespace SmartSnmp

open Links

/-- Empty lists for a new view. -/
def Ghost.newView (G : Ghost) (v : Addr) : Ghost :=
  ⟨G.bound, Function.update (Function.update G.seen (.community, v) []) (.user, v) []⟩

lemma Ghost.newView_seen (G : Ghost) (holder : Holder) (v v' : Addr) :
    (G.newView v).seen (holder, v') = if v' = v then [] else G.seen (holder, v') := by
  by_cases heq : v' = v
  · subst heq
    cases holder <;> simp [Ghost.newView]
  · simp [Ghost.newView, heq]

/-- Empty lists for a new community or user. -/
def Ghost.newHolder (G : Ghost) (holder : Holder) (c : Addr) : Ghost :=
  ⟨Function.update (Function.update G.bound (holder, .read, c) []) (holder, .write, c) [], G.seen⟩

lemma Ghost.newHolder_bound (G : Ghost) (holder holder' : Holder) (attr : MibAcesAttr) (c c' : Addr) :
    (G.newHolder holder c).bound (holder', attr, c') =
      if holder' = holder ∧ c' = c then [] else G.bound (holder', attr, c') := by
  simp only [Ghost.newHolder, Function.update_apply, Prod.mk.injEq]
  cases attr <;> simp

namespace Shape

variable {H : ViewHeap} {G : Ghost} {holder : Holder} {attr : MibAcesAttr} {a c v b : Addr}

/-! ### Addresses that are not in use -/

lemma fresh (h : Shape H G) (ha : a ∉ H.live) (kind : RecordKind) : ¬ H.Has kind a :=
  fun hk => ha ((h.live a).mpr ⟨kind, hk⟩)

lemma links_fresh (h : Shape H G) (ha : a ∉ H.live) {n : ViewNode} (hn : n.record = a) :
    H.links n = none := by
  by_contra hne
  exact h.fresh ha n.kind (hn ▸ h.links n hne)

/-- The OIDs of the lists depend on the bindings and the views that are there. -/
lemma oidsOf_congr (h : Shape H G) (H' : ViewHeap) (G' : Ghost) (hc : c ∈ H.holders holder)
    (hbinding : ∀ b, H.binding (holder, b) ≠ none → H'.binding (holder, b) = H.binding (holder, b))
    (hoid : ∀ v ∈ H.mibViews, H'.oid v = H.oid v)
    (hG : G'.bound (holder, attr, c) = G.bound (holder, attr, c)) :
    H'.oidsOf G' (holder, attr, c) = H.oidsOf G (holder, attr, c) := by
  rw [ViewHeap.oidsOf, hG, ViewHeap.oidsOf]
  refine List.map_congr_left fun b hb => ?_
  obtain ⟨v, hv, hbind, -⟩ := h.bound hc hb
  rw [ViewHeap.oidOf, ViewHeap.oidOf, hbinding b (by simp [hbind]), hbind, Option.bind_some,
    Option.bind_some, hoid v hv]

/-! ### Views -/

lemma mibViewSearch (h : Shape H G) (oid : Oid) {views : List Addr} (hsub : ∀ v ∈ views, v ∈ H.mibViews) :
    ∃ r, H.mibViewSearch oid views = some r ∧
      match r with
      | some v => v ∈ views ∧ H.oid v = some oid
      | none => ∀ v ∈ views, H.oid v ≠ some oid := by
  induction views with
  | nil => exact ⟨none, rfl, by simp⟩
  | cons v views ih =>
    obtain ⟨o, ho⟩ := Option.ne_none_iff_exists'.mp ((h.oid v).mpr (hsub v List.mem_cons_self))
    obtain ⟨r, hr, hfound⟩ := ih fun v' hv' => hsub v' (List.mem_cons_of_mem v hv')
    by_cases heq : oidCmp o oid = 0
    · obtain rfl := (oidCmp_eq_zero_iff o oid).mp heq
      exact ⟨some v, by simp [ViewHeap.mibViewSearch, ho, heq], List.mem_cons_self, ho⟩
    · refine ⟨r, by simp [ViewHeap.mibViewSearch, ho, heq, hr], ?_⟩
      cases r with
      | some v' => exact ⟨List.mem_cons_of_mem v hfound.1, hfound.2⟩
      | none =>
        refine List.forall_mem_cons.mpr ⟨?_, hfound⟩
        rw [ho, ne_eq, Option.some.injEq]
        exact fun hoid => heq ((oidCmp_eq_zero_iff o oid).mpr hoid)

/-- The heap with a new view. -/
def withView (H : ViewHeap) (v : Addr) (oid : Oid) (L : Links ViewNode) : ViewHeap := { H with
  mallocs := H.mallocs + 1
  live := v :: H.live
  links := L
  oid := Function.update H.oid v (some oid)
  mibViews := v :: H.mibViews }

lemma ringsOf_newView (hv : v ∉ H.mibViews) (oid : Oid) (L : Links ViewNode) :
    (withView H v oid L).ringsOf (G.newView v) =
      Function.update (Function.update (H.ringsOf G) (.members .community v) (some []))
        (.members .user v) (some []) := by
  funext n
  cases n with
  | views holder attr c =>
    rw [Function.update_of_ne (by simp), Function.update_of_ne (by simp)]
    rfl
  | members holder v' =>
    by_cases heq : v' = v
    · subst heq
      cases holder <;> simp [ViewHeap.ringsOf, Ghost.newView, withView]
    · simp [ViewHeap.ringsOf, Ghost.newView, withView, heq]
  | vlink _ _ => simp [ViewHeap.ringsOf]
  | link _ _ => simp [ViewHeap.ringsOf]

/-- A new view with two empty lists. -/
lemma newView (h : Shape H G) (hlive : v ∉ H.live) {oid : Oid}
    (hoid : ∀ v ∈ H.mibViews, H.oid v ≠ some oid) {L : Links ViewNode}
    (hrings : L.Rings ((withView H v oid L).ringsOf (G.newView v)))
    (halloc : ∀ n, L n ≠ none ↔ H.links n ≠ none ∨ n = .members .community v ∨ n = .members .user v) :
    Shape (withView H v oid L) (G.newView v) := by
  have hnew : v ∉ H.mibViews := fun hv => h.fresh hlive .view ((h.oid _).mpr hv)
  have hoid' : ∀ {v'}, v' ≠ v → (withView H v oid L).oid v' = H.oid v' :=
    fun hne => Function.update_of_ne hne _ _
  have hself : (withView H v oid L).oid v = some oid := Function.update_self _ _ _
  have hhas : ∀ kind a, (withView H v oid L).Has kind a ↔ H.Has kind a ∨ kind = .view ∧ a = v := by
    intro kind a
    cases kind with
    | view =>
      by_cases heq : a = v
      · simp [ViewHeap.Has, heq, hself]
      · simp [ViewHeap.Has, heq, hoid' heq]
    | holder _ => simp [ViewHeap.Has, withView]
    | binding _ => simp [ViewHeap.Has, withView]
  constructor
  · refine h.toRecords.alloc hlive hhas rfl fun n hn => ((halloc n).mp hn).imp_right ?_
    rintro (rfl | rfl) <;> exact ⟨rfl, rfl⟩
  · exact hrings
  · intro holder attr c b hc hb
    obtain ⟨v', hv', hbind, hmem⟩ := h.bound hc hb
    refine ⟨v', List.mem_cons_of_mem v hv', hbind, ?_⟩
    rw [Ghost.newView_seen, if_neg]
    · exact hmem
    · rintro rfl
      exact hnew hv'
  · intro holder v' b hv' hb
    rw [Ghost.newView_seen] at hb
    split_ifs at hb with heq
    · cases hb
    · exact h.seen (List.mem_of_ne_of_mem heq hv') hb
  · exact h.binding
  · intro v'
    by_cases heq : v' = v
    · simp [heq, withView]
    · simp [h.oid, heq, withView]
  · intro v₁ v₂ o h₁ h₂
    by_cases heq₁ : v₁ = v <;> by_cases heq₂ : v₂ = v
    · rw [heq₁, heq₂]
    · rw [heq₁, hself] at h₁
      rw [hoid' heq₂, ← h₁] at h₂
      exact absurd h₂ (hoid v₂ ((h.oid v₂).mp (by simp [h₂])))
    · rw [heq₂, hself] at h₂
      rw [hoid' heq₁, ← h₂] at h₁
      exact absurd h₁ (hoid v₁ ((h.oid v₁).mp (by simp [h₁])))
    · rw [hoid' heq₁] at h₁
      rw [hoid' heq₂] at h₂
      exact h.oid_inj h₁ h₂
  · exact h.name
  · exact List.nodup_cons.mpr ⟨hnew, h.nodup_mibViews⟩
  · exact h.nodup_holders

/-- The view is there, or a record is created for it. -/
lemma viewCreate (h : Shape H G) {malloc : Nat → List Addr → Addr} (hmalloc : ∀ n live, malloc n live ∉ live)
    (oid : Oid) : ∃ v H' G', H.viewCreate malloc oid = some (v, H') ∧ Shape H' G' ∧
      Frame H G H' G' (fun _ => False) ∧ v ∈ H'.mibViews ∧ H'.oid v = some oid ∧
      H'.viewOids = SmartSnmp.viewCreate oid H.viewOids := by
  obtain ⟨r, hsearch, hfound⟩ := h.mibViewSearch oid fun v hv => hv
  cases r with
  | some v =>
    refine ⟨v, H, G, by simp [ViewHeap.viewCreate, hsearch], h, .refl H G _, hfound.1, hfound.2, ?_⟩
    have hany : H.viewOids.any (fun o => oidCmp o oid = 0) = true := by
      rw [List.any_eq_true]
      exact ⟨oid, List.mem_map.mpr ⟨v, hfound.1, by simp [hfound.2]⟩,
        by simp [(oidCmp_eq_zero_iff oid oid).mpr rfl]⟩
    rw [SmartSnmp.viewCreate, if_pos hany]
  | none =>
    obtain ⟨v, hv⟩ : ∃ v, v = malloc H.mallocs H.live := ⟨_, rfl⟩
    have hlive : v ∉ H.live := hv ▸ hmalloc H.mallocs H.live
    have hnew : v ∉ H.mibViews := fun hv => h.fresh hlive .view ((h.oid _).mpr hv)
    obtain ⟨L₁, L₂, h₁, h₂, hrings, halloc⟩ := rings_initHeads h.rings
      (show ViewNode.members .community v ≠ .members .user v by simp)
      (h.links_fresh hlive rfl) (h.links_fresh hlive rfl) ⟨none, none⟩
    rw [← ringsOf_newView hnew oid L₂] at hrings
    have hold : ∀ v' ∈ H.mibViews, (withView H v oid L₂).oid v' = H.oid v' := fun v' hv' =>
      Function.update_of_ne (fun heq => hnew (by rwa [← heq])) _ _
    refine ⟨v, withView H v oid L₂, G.newView v, ?_, h.newView hlive hfound hrings halloc, ?_,
      List.mem_cons_self, Function.update_self _ _ _, ?_⟩
    · simp [ViewHeap.viewCreate, hsearch, ViewHeap.rawNode, ← hv, h₁, h₂, withView]
    · refine ⟨rfl, rfl, ?_⟩
      rintro ⟨holder, attr, c⟩ - hc
      exact h.oidsOf_congr (withView H v oid L₂) _ hc (fun _ _ => rfl) hold rfl
    · have hany : ¬ H.viewOids.any (fun o => oidCmp o oid = 0) = true := by
        rw [List.any_eq_true]
        rintro ⟨o, ho, hcmp⟩
        obtain ⟨v', hv', rfl⟩ := List.mem_map.mp ho
        obtain ⟨o, ho⟩ := Option.ne_none_iff_exists'.mp ((h.oid v').mpr hv')
        simp only [ho, Option.getD_some, decide_eq_true_eq, oidCmp_eq_zero_iff] at hcmp
        exact hfound v' hv' (by rw [ho, hcmp])
      rw [SmartSnmp.viewCreate, if_neg hany, ViewHeap.viewOids, withView, List.map_cons]
      refine congrArg₂ _ (by simp) (List.map_congr_left fun v' hv' => ?_)
      exact congrArg (Option.getD · []) (hold v' hv')

/-! ### Communities and users -/

/-- The first community or user of a name in a part of the list. -/
def FirstNamed (H : ViewHeap) (holder : Holder) (name : List UInt8) (c : Addr) (holders : List Addr) :
    Prop :=
  ∃ pre post, holders = pre ++ c :: post ∧ (∀ c' ∈ pre, H.name (holder, c') ≠ some name) ∧
    H.name (holder, c) = some name

lemma holderSearch (h : Shape H G) (name : List UInt8) {holders : List Addr}
    (hsub : ∀ c ∈ holders, c ∈ H.holders holder) :
    ∃ r, H.holderSearch holder name holders = some r ∧
      match r with
      | some c => FirstNamed H holder name c holders
      | none => ∀ c ∈ holders, H.name (holder, c) ≠ some name := by
  induction holders with
  | nil => exact ⟨none, rfl, by simp⟩
  | cons c holders ih =>
    obtain ⟨n, hn⟩ := Option.ne_none_iff_exists'.mp ((h.name holder c).mpr (hsub c List.mem_cons_self))
    obtain ⟨r, hr, hfound⟩ := ih fun c' hc' => hsub c' (List.mem_cons_of_mem c hc')
    by_cases heq : n = name
    · subst heq
      exact ⟨some c, by simp [ViewHeap.holderSearch, hn], [], holders, rfl, by simp, hn⟩
    · have hne : H.name (holder, c) ≠ some name := by simpa [hn] using heq
      refine ⟨r, by simp [ViewHeap.holderSearch, hn, heq, hr], ?_⟩
      cases r with
      | some c' =>
        obtain ⟨pre, post, rfl, hpre, hc'⟩ := hfound
        exact ⟨c :: pre, post, rfl, List.forall_mem_cons.mpr ⟨hne, hpre⟩, hc'⟩
      | none => exact List.forall_mem_cons.mpr ⟨hne, hfound⟩

/-- An entry has the name of its community or user. -/
lemma entryOf_name_eq_iff (h : Shape H G) (hc : c ∈ H.holders holder) {name : List UInt8} :
    (H.entryOf G holder c).name = name ↔ H.name (holder, c) = some name := by
  obtain ⟨n, hn⟩ := Option.ne_none_iff_exists'.mp ((h.name holder c).mpr hc)
  simp [ViewHeap.entryOf, hn]

/-- The search of the list level finds the entry of the first community or user of the name. -/
lemma entrySearch_of_first (h : Shape H G) {name : List UInt8}
    (hfirst : FirstNamed H holder name c (H.holders holder)) :
    entrySearch name (H.entriesOf G holder) = some (H.entryOf G holder c) := by
  obtain ⟨pre, post, hholders, hpre, hc⟩ := hfirst
  have hmem : ∀ c' ∈ pre ++ c :: post, c' ∈ H.holders holder := fun c' hc' => hholders ▸ hc'
  have hnone : (pre.map (H.entryOf G holder)).find? (fun e => e.name = name) = none := by
    simp only [List.find?_eq_none, List.forall_mem_map, decide_eq_true_eq]
    intro c' hc'
    rw [h.entryOf_name_eq_iff (hmem c' (by simp [hc']))]
    exact hpre c' hc'
  rw [entrySearch, ViewHeap.entriesOf, hholders, List.map_append, List.find?_append, hnone, List.map_cons,
    List.find?_cons_of_pos (by simpa using (h.entryOf_name_eq_iff (hmem c (by simp))).mpr hc)]
  rfl

lemma entrySearch_of_none (h : Shape H G) {name : List UInt8}
    (hnone : ∀ c ∈ H.holders holder, H.name (holder, c) ≠ some name) :
    entrySearch name (H.entriesOf G holder) = none := by
  simp only [entrySearch, ViewHeap.entriesOf, List.find?_eq_none, List.forall_mem_map, decide_eq_true_eq]
  intro c hc
  rw [h.entryOf_name_eq_iff hc]
  exact hnone c hc

/-- The heap with a new community or user. -/
def withHolder (H : ViewHeap) (holder : Holder) (c : Addr) (name : List UInt8) (L : Links ViewNode) :
    ViewHeap := { H with
  mallocs := H.mallocs + 1
  live := c :: H.live
  links := L
  name := Function.update H.name (holder, c) (some name)
  holders := Function.update H.holders holder (c :: H.holders holder) }

lemma mem_withHolder {name : List UInt8} {L : Links ViewNode} {holder' : Holder} {c' : Addr} :
    c' ∈ (withHolder H holder c name L).holders holder' ↔
      (holder' = holder ∧ c' = c) ∨ c' ∈ H.holders holder' := by
  by_cases heq : holder' = holder
  · subst heq
    simp [withHolder]
  · simp [withHolder, heq]

lemma ringsOf_newHolder (name : List UInt8) (L : Links ViewNode) :
    (withHolder H holder c name L).ringsOf (G.newHolder holder c) =
      Function.update (Function.update (H.ringsOf G) (.views holder .read c) (some []))
        (.views holder .write c) (some []) := by
  funext n
  cases n with
  | views holder' attr c' =>
    simp only [ViewHeap.ringsOf, mem_withHolder, Ghost.newHolder_bound, Function.update_apply,
      ViewNode.views.injEq]
    by_cases heq : holder' = holder ∧ c' = c
    · cases attr <;> simp [heq]
    · have hne : ∀ attr', ¬ (holder' = holder ∧ attr = attr' ∧ c' = c) := by tauto
      rw [if_neg (hne .write), if_neg (hne .read), if_neg heq]
      exact if_congr (or_iff_right heq) rfl rfl
  | members _ _ =>
    rw [Function.update_of_ne (by simp), Function.update_of_ne (by simp)]
    rfl
  | vlink _ _ => simp [ViewHeap.ringsOf]
  | link _ _ => simp [ViewHeap.ringsOf]

/-- A new community or user with two empty lists. -/
lemma newHolder (h : Shape H G) (hlive : c ∉ H.live) (name : List UInt8) {L : Links ViewNode}
    (hrings : L.Rings ((withHolder H holder c name L).ringsOf (G.newHolder holder c)))
    (halloc : ∀ n, L n ≠ none ↔
      H.links n ≠ none ∨ n = .views holder .read c ∨ n = .views holder .write c) :
    Shape (withHolder H holder c name L) (G.newHolder holder c) := by
  have hnew : c ∉ H.holders holder := fun hc => h.fresh hlive (.holder holder) ((h.name _ _).mpr hc)
  have hself : (withHolder H holder c name L).name (holder, c) = some name := Function.update_self _ _ _
  have hname : ∀ {k}, k ≠ (holder, c) → (withHolder H holder c name L).name k = H.name k :=
    fun hne => Function.update_of_ne hne _ _
  have hhas : ∀ kind a, (withHolder H holder c name L).Has kind a ↔
      H.Has kind a ∨ kind = .holder holder ∧ a = c := by
    intro kind a
    cases kind with
    | view => simp [ViewHeap.Has, withHolder]
    | holder holder' =>
      by_cases heq : (holder', a) = (holder, c)
      · simp only [Prod.mk.injEq] at heq
        obtain ⟨rfl, rfl⟩ := heq
        simp [ViewHeap.Has, hself]
      · have hne : ¬ (holder' = holder ∧ a = c) := by simpa using heq
        simp [ViewHeap.Has, hname heq, hne]
    | binding _ => simp [ViewHeap.Has, withHolder]
  constructor
  · refine h.toRecords.alloc hlive hhas rfl fun n hn => ((halloc n).mp hn).imp_right ?_
    rintro (rfl | rfl) <;> exact ⟨rfl, rfl⟩
  · exact hrings
  · intro holder' attr c' b hc hb
    rw [Ghost.newHolder_bound] at hb
    split_ifs at hb with heq
    · cases hb
    · exact h.bound ((mem_withHolder.mp hc).resolve_left heq) hb
  · exact h.seen
  · intro holder' b cv hbind
    obtain ⟨hc, attr, hb⟩ := h.binding hbind
    refine ⟨mem_withHolder.mpr (.inr hc), attr, ?_⟩
    rw [Ghost.newHolder_bound, if_neg]
    · exact hb
    · rintro ⟨rfl, rfl⟩
      exact hnew hc
  · exact h.oid
  · exact h.oid_inj
  · intro holder' c'
    rw [mem_withHolder]
    by_cases heq : (holder', c') = (holder, c)
    · simp only [Prod.mk.injEq] at heq
      obtain ⟨rfl, rfl⟩ := heq
      simp [hself]
    · rw [hname heq, h.name, or_iff_right (by simpa using heq)]
  · exact h.nodup_mibViews
  · intro holder'
    by_cases heq : holder' = holder
    · subst heq
      simpa [withHolder] using ⟨hnew, h.nodup_holders holder'⟩
    · simpa [withHolder, heq] using h.nodup_holders holder'

/-- The community or user is there, or a record is created for it. -/
lemma holderCreate (h : Shape H G) {malloc : Nat → List Addr → Addr} (hmalloc : ∀ n live, malloc n live ∉ live)
    (holder : Holder) (name : List UInt8) : ∃ c H' G',
      H.holderCreate malloc holder name = some (c, H') ∧ Shape H' G' ∧
      FirstNamed H' holder name c (H'.holders holder) ∧
      H'.entriesOf G' holder = entryCreate name (H.entriesOf G holder) ∧
      (∀ holder', holder' ≠ holder → H'.entriesOf G' holder' = H.entriesOf G holder') ∧
      H'.viewOids = H.viewOids := by
  obtain ⟨r, hsearch, hfound⟩ := h.holderSearch name fun c hc => hc
  cases r with
  | some c =>
    refine ⟨c, H, G, by simp [ViewHeap.holderCreate, hsearch], h, hfound, ?_, fun _ _ => rfl, rfl⟩
    rw [entryCreate, h.entrySearch_of_first hfound]
  | none =>
    obtain ⟨c, hc⟩ : ∃ c, c = malloc H.mallocs H.live := ⟨_, rfl⟩
    have hlive : c ∉ H.live := hc ▸ hmalloc H.mallocs H.live
    have hnew : c ∉ H.holders holder := fun hc => h.fresh hlive (.holder holder) ((h.name _ _).mpr hc)
    obtain ⟨L₁, L₂, h₁, h₂, hrings, halloc⟩ := rings_initHeads h.rings
      (show ViewNode.views holder .read c ≠ .views holder .write c by simp)
      (h.links_fresh hlive rfl) (h.links_fresh hlive rfl) ⟨none, none⟩
    rw [← ringsOf_newHolder name L₂] at hrings
    refine ⟨c, withHolder H holder c name L₂, G.newHolder holder c, ?_, h.newHolder hlive name hrings halloc, ?_⟩
    · simp [ViewHeap.holderCreate, hsearch, ViewHeap.rawNode, ← hc, h₁, h₂, withHolder]
    have hne : ∀ {holder' c'}, c' ∈ H.holders holder' → ¬ (holder' = holder ∧ c' = c) := by
      rintro holder' c' hc' ⟨rfl, rfl⟩
      exact hnew hc'
    have hold : ∀ {holder' c'}, c' ∈ H.holders holder' →
        (withHolder H holder c name L₂).entryOf (G.newHolder holder c) holder' c' =
          H.entryOf G holder' c' := by
      intro holder' c' hc'
      have hname : (withHolder H holder c name L₂).name (holder', c') = H.name (holder', c') :=
        Function.update_of_ne (by simpa using hne hc') _ _
      have hoids : ∀ attr, (withHolder H holder c name L₂).oidsOf (G.newHolder holder c)
          (holder', attr, c') = H.oidsOf G (holder', attr, c') := fun attr =>
        h.oidsOf_congr (withHolder H holder c name L₂) _ hc' (fun _ _ => rfl) (fun _ _ => rfl)
          (by rw [Ghost.newHolder_bound, if_neg (hne hc')])
      rw [ViewHeap.entryOf, hname, hoids, hoids, ViewHeap.entryOf]
    have hentry' : (withHolder H holder c name L₂).entryOf (G.newHolder holder c) holder c =
        ⟨name, [], []⟩ := by
      simp [ViewHeap.entryOf, ViewHeap.oidsOf, Ghost.newHolder_bound, withHolder]
    have hcreate : (withHolder H holder c name L₂).entriesOf (G.newHolder holder c) holder =
        ⟨name, [], []⟩ :: H.entriesOf G holder := by
      have hholders : (withHolder H holder c name L₂).holders holder = c :: H.holders holder :=
        Function.update_self _ _ _
      rw [ViewHeap.entriesOf, hholders, List.map_cons]
      exact congrArg₂ _ hentry' (List.map_congr_left fun c' hc' => hold hc')
    refine ⟨⟨[], H.holders holder, Function.update_self _ _ _, by simp, Function.update_self _ _ _⟩, ?_,
      fun holder' hne' => ?_, rfl⟩
    · rw [hcreate, entryCreate, h.entrySearch_of_none hfound]
    · have hholders : (withHolder H holder c name L₂).holders holder' = H.holders holder' :=
        Function.update_of_ne hne' _ _
      rw [ViewHeap.entriesOf, hholders]
      exact List.map_congr_left fun c' hc' => hold hc'

/-- The heap after a community or user has been taken out of its list and freed. -/
def dropped (H : ViewHeap) (holder : Holder) (c : Addr) : ViewHeap :=
  ViewHeap.freeHolder { H with
    holders := Function.update H.holders holder ((H.holders holder).erase c) } holder c

lemma mem_dropped (h : Shape H G) {holder' : Holder} {c' : Addr} :
    c' ∈ (dropped H holder c).holders holder' ↔
      ¬ (holder' = holder ∧ c' = c) ∧ c' ∈ H.holders holder' := by
  by_cases heq : holder' = holder
  · subst heq
    simp [dropped, ViewHeap.freeHolder, (h.nodup_holders holder').mem_erase_iff]
  · simp [dropped, ViewHeap.freeHolder, heq]

/-- A community or user without views goes. -/
lemma drop (h : Shape H G) (hc : c ∈ H.holders holder) (hempty : ∀ attr, G.bound (holder, attr, c) = []) :
    Shape (dropped H holder c) G := by
  have hname : ∀ {k}, k ≠ (holder, c) → (dropped H holder c).name k = H.name k :=
    fun hne => Function.update_of_ne hne _ _
  have hfreed : (dropped H holder c).name (holder, c) = none := Function.update_self _ _ _
  have hhas : ∀ kind a, (dropped H holder c).Has kind a ↔
      H.Has kind a ∧ ¬ (kind = .holder holder ∧ a = c) := by
    intro kind a
    cases kind with
    | view => simp [ViewHeap.Has, dropped, ViewHeap.freeHolder]
    | holder holder' =>
      by_cases heq : (holder', a) = (holder, c)
      · simp only [Prod.mk.injEq] at heq
        obtain ⟨rfl, rfl⟩ := heq
        simp [ViewHeap.Has, hfreed]
      · have hne : ¬ (holder' = holder ∧ a = c) := by simpa using heq
        simp [ViewHeap.Has, hname heq, hne]
    | binding _ => simp [ViewHeap.Has, dropped, ViewHeap.freeHolder]
  have hle : ∀ k ys, (dropped H holder c).ringsOf G k = some ys → H.ringsOf G k = some ys := by
    intro k ys hk
    cases k with
    | views holder' attr c' =>
      simp only [ViewHeap.ringsOf, h.mem_dropped] at hk ⊢
      split_ifs at hk with hmem
      rw [if_pos hmem.2, hk]
    | members _ _ => exact hk
    | vlink _ _ => exact hk
    | link _ _ => exact hk
  have hloose : ∀ attr, Loose ((dropped H holder c).ringsOf G) (.views holder attr c) := by
    intro attr head xs hhead hmem
    cases head with
    | views holder' attr' c' =>
      simp only [ViewHeap.ringsOf, h.mem_dropped] at hhead
      split_ifs at hhead with hc'
      obtain rfl := Option.some.inj hhead
      simp_all
    | members holder' v' =>
      simp only [ViewHeap.ringsOf] at hhead
      split_ifs at hhead with hv'
      obtain rfl := Option.some.inj hhead
      simp_all
    | vlink _ _ => cases hhead
    | link _ _ => cases hhead
  constructor
  · refine h.toRecords.free (show H.Has (.holder holder) c from (h.name _ _).mpr hc) hhas rfl fun n hn => ?_
    have hne : n ≠ .views holder .write c ∧ n ≠ .views holder .read c ∧ H.links n ≠ none := by
      simp only [dropped, ViewHeap.freeHolder, Links.free, Function.update_apply] at hn
      split_ifs at hn with hw hr
      · exact absurd rfl hn
      · exact absurd rfl hn
      · exact ⟨hw, hr, hn⟩
    refine ⟨hne.2.2, ?_⟩
    rintro ⟨hkind, hrec⟩
    cases n with
    | views holder' attr c' => cases attr <;> simp_all [ViewNode.kind, ViewNode.record]
    | members _ _ => cases hkind
    | vlink _ _ => cases hkind
    | link _ _ => cases hkind
  · exact ((h.rings.mono hle).free (hloose .read)).free (hloose .write)
  · intro holder' attr c' b hc' hb
    exact h.bound (h.mem_dropped.mp hc').2 hb
  · exact h.seen
  · intro holder' b cv hbind
    obtain ⟨hc', attr, hb⟩ := h.binding hbind
    refine ⟨h.mem_dropped.mpr ⟨?_, hc'⟩, attr, hb⟩
    rintro ⟨rfl, heq⟩
    rw [heq, hempty] at hb
    cases hb
  · exact h.oid
  · exact h.oid_inj
  · intro holder' c'
    rw [h.mem_dropped]
    by_cases heq : (holder', c') = (holder, c)
    · simp only [Prod.mk.injEq] at heq
      obtain ⟨rfl, rfl⟩ := heq
      simp [hfreed]
    · rw [hname heq, h.name, and_iff_right (by simpa using heq)]
  · exact h.nodup_mibViews
  · intro holder'
    by_cases heq : holder' = holder
    · subst heq
      simpa [dropped, ViewHeap.freeHolder] using (h.nodup_holders holder').erase c
    · simpa [dropped, ViewHeap.freeHolder, heq] using h.nodup_holders holder'

end Shape

end SmartSnmp
