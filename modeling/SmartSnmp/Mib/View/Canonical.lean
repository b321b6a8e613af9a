import SmartSnmp.Lib.PrefixMin
import SmartSnmp.Mib.View.Basic

/-!
# View lists are kept in canonical form

Whatever the order of the registrations, the view list of a name is the ascending list of the
prefix-minimal OIDs among those registered for it.
-/

namespace SmartSnmp

open PrefixOrder

/-! ### One binding -/

/-- The list a binding leaves. -/
def viewInsert (oid : Oid) (views : List Oid) : List Oid :=
  if (viewFilter oid views).1 then (viewFilter oid views).2 else viewAdd oid (viewFilter oid views).2

/-- In a prefix-free list the filter finds a view that covers the OID before it deletes any. -/
lemma viewFilter_of_covered {oid v : Oid} {views : List Oid} (hfree : PrefixFree views)
    (hv : v ∈ views) (hcov : v <+: oid) : viewFilter oid views = (true, views) := by
  induction views with
  | nil => simp at hv
  | cons a views ih =>
    obtain ⟨ha, hfree'⟩ := List.pairwise_cons.mp hfree
    simp only [viewFilter]
    by_cases hao : a <+: oid
    · rw [if_pos ((oidCover_pos_iff a oid).mpr hao)]
    · have hv' : v ∈ views := (List.mem_cons.mp hv).resolve_left (by rintro rfl; exact hao hcov)
      -- `oid` is no prefix of `a`, else `v` would be one
      have hoa : ¬ oid <+: a := fun h => (ha v hv').2 (hcov.trans h)
      have hzero := (oidCover_eq_zero_iff a oid).mpr ⟨hao, hoa⟩
      simp [hzero, ih hfree' hv']

lemma viewFilter_of_not_covered {oid : Oid} {views : List Oid} (hcov : ∀ v ∈ views, ¬ v <+: oid) :
    viewFilter oid views = (false, views.filter fun v => ¬ oid <+: v) := by
  induction views with
  | nil => rfl
  | cons a views ih =>
    have ha := hcov a List.mem_cons_self
    simp only [viewFilter, ih fun v hv => hcov v (List.mem_cons_of_mem _ hv)]
    rw [if_neg (by rw [oidCover_pos_iff]; exact ha)]
    by_cases hoa : oid <+: a
    · have hneg := (oidCover_eq_neg_one_iff a oid).mpr ⟨hoa, by rintro rfl; exact ha (List.prefix_refl _)⟩
      simp [hneg, hoa]
    · have hzero := (oidCover_eq_zero_iff a oid).mpr ⟨ha, hoa⟩
      simp [hzero, hoa]

lemma viewAdd_perm (oid : Oid) (views : List Oid) : (viewAdd oid views).Perm (oid :: views) := by
  induction views with
  | nil => exact .refl _
  | cons v views ih =>
    simp only [viewAdd]
    split_ifs
    · exact .refl _
    · exact (ih.cons v).trans (.swap oid v views)

/-- The OIDs of a list have sub-identifiers below `2 ^ 31`. -/
def Small (views : List Oid) : Prop := ∀ v ∈ views, ∀ x ∈ v, x.toNat < 2 ^ 31

lemma viewAdd_ascending {oid : Oid} {views : List Oid} (hsmall : Small (oid :: views))
    (hasc : views.Pairwise (· < ·)) (hne : oid ∉ views) : (viewAdd oid views).Pairwise (· < ·) := by
  induction views with
  | nil => simp [viewAdd]
  | cons v views ih =>
    obtain ⟨hv, hasc'⟩ := List.pairwise_cons.mp hasc
    have hcmp := oidCmp_pos_iff (hsmall v (by simp)) (hsmall oid List.mem_cons_self)
    simp only [viewAdd]
    split_ifs with h
    · refine List.pairwise_cons.mpr ⟨fun u hu => ?_, hasc⟩
      rcases List.mem_cons.mp hu with rfl | hu
      · exact hcmp.mp h
      · exact lt_trans (hcmp.mp h) (hv u hu)
    · have hlt : v < oid := by
        refine lt_of_le_of_ne (not_lt.mp fun hlt => h (hcmp.mpr hlt)) ?_
        rintro rfl
        simp at hne
      refine List.pairwise_cons.mpr ⟨fun u hu => ?_, ih (fun u hu => hsmall u ?_) hasc'
        fun hmem => hne (List.mem_cons_of_mem _ hmem)⟩
      · rcases List.mem_cons.mp ((viewAdd_perm oid views).mem_iff.mp hu) with rfl | hu
        · exact hlt
        · exact hv u hu
      · rcases List.mem_cons.mp hu with rfl | hu
        · exact List.mem_cons_self
        · exact List.mem_cons_of_mem _ (List.mem_cons_of_mem _ hu)

/-- A binding keeps a list prefix free, whatever the sub-identifiers. -/
lemma viewInsert_prefixFree {oid : Oid} {views : List Oid} (hfree : PrefixFree views) :
    PrefixFree (viewInsert oid views) := by
  by_cases hcov : ∃ v ∈ views, v <+: oid
  · obtain ⟨v, hv, hvo⟩ := hcov
    simpa [viewInsert, viewFilter_of_covered hfree hv hvo] using hfree
  · push Not at hcov
    simp only [viewInsert, viewFilter_of_not_covered hcov, Bool.false_eq_true, if_false]
    refine (viewAdd_perm _ _).symm.pairwise (List.pairwise_cons.mpr ⟨fun v hv => ?_, hfree.filter _⟩)
      fun hab => ⟨hab.2, hab.1⟩
    obtain ⟨hv, hov⟩ := List.mem_filter.mp hv
    exact ⟨by simpa using hov, hcov v hv⟩

/-- A binding adds an OID to what the list is the canonical form of. -/
theorem viewInsert_canonical {oid : Oid} {views L : List Oid} (h : IsCanonical views L)
    (hsmall : Small (oid :: L)) : IsCanonical (viewInsert oid views) (oid :: L) := by
  by_cases hcov : ∃ v ∈ views, v <+: oid
  · obtain ⟨v, hv, hvo⟩ := hcov
    simpa [viewInsert, viewFilter_of_covered h.prefixFree hv hvo] using h.cons_covered hv hvo
  · push Not at hcov
    simp only [viewInsert, viewFilter_of_not_covered hcov, Bool.false_eq_true, if_false]
    refine h.cons_insert hcov (viewAdd_ascending ?_ (h.ascending.filter _) ?_) fun x => ?_
    · intro v hv
      apply hsmall v
      rcases List.mem_cons.mp hv with rfl | hv
      · exact List.mem_cons_self
      · exact List.mem_cons_of_mem _ ((h.mem_iff v).mp (List.mem_of_mem_filter hv)).1
    · simp
    · simp [(viewAdd_perm _ _).mem_iff, List.mem_filter]

/-! ### The entry of a name -/

lemma viewBind_snd (oid : Oid) (attr : MibAcesAttr) (mibViews : List Oid) (e : ViewEntry) :
    (viewBind oid attr mibViews e).2 = e.setViews (viewInsert oid (e.views attr)) attr := by
  simp only [viewBind, viewInsert]
  split_ifs <;> rfl

lemma entryBind_snd (oid : Oid) (attr : MibAcesAttr) (mibViews : List Oid) (e : ViewEntry) :
    (entryBind oid attr mibViews e).2 = ⟨e.name, viewInsert oid e.roViews,
      if attr = .write then viewInsert oid e.rwViews else e.rwViews⟩ := by
  simp only [entryBind, viewBind_snd]
  split_ifs <;> simp [viewBind_snd, ViewEntry.views, ViewEntry.setViews]

lemma entryUpdate_eq_map {name : List UInt8} {f : ViewEntry → ViewEntry} {entries : List ViewEntry}
    (hnd : (entries.map ViewEntry.name).Nodup) :
    entryUpdate name f entries = entries.map fun e => if e.name = name then f e else e := by
  induction entries with
  | nil => rfl
  | cons e entries ih =>
    obtain ⟨hnot, hnd'⟩ := List.nodup_cons.mp hnd
    simp only [entryUpdate, List.map_cons]
    split_ifs with h
    · -- no later entry has the name
      have hrest : ∀ e' ∈ entries, (if e'.name = name then f e' else e') = e' := by
        intro e' he'
        rw [if_neg]
        rintro rfl
        exact hnot (h ▸ List.mem_map.mpr ⟨e', he', rfl⟩)
      rw [List.map_congr_left hrest, List.map_id']
    · rw [ih hnd']

lemma entrySearch_eq_some_iff {name : List UInt8} {entries : List ViewEntry}
    (hnd : (entries.map ViewEntry.name).Nodup) {e : ViewEntry} :
    entrySearch name entries = some e ↔ e ∈ entries ∧ e.name = name := by
  constructor
  · intro h
    exact ⟨List.mem_of_find?_eq_some h, by simpa using List.find?_some h⟩
  · rintro ⟨he, rfl⟩
    induction entries with
    | nil => simp at he
    | cons a entries ih =>
      obtain ⟨hnot, hnd'⟩ := List.nodup_cons.mp hnd
      rcases List.mem_cons.mp he with rfl | he
      · simp [entrySearch]
      · have hne : a.name ≠ e.name := fun h => hnot (h ▸ List.mem_map.mpr ⟨e, he, rfl⟩)
        rw [entrySearch, List.find?_cons_of_neg (by simpa using hne)]
        exact ih hnd' he

lemma entrySearch_eq_none_iff {name : List UInt8} {entries : List ViewEntry} :
    entrySearch name entries = none ↔ ∀ e ∈ entries, e.name ≠ name := by
  simp [entrySearch]

/-- A registration gives the name an entry and leaves the other entries alone. -/
lemma entryReg_snd (oid : Oid) (name : List UInt8) (attr : MibAcesAttr) (mibViews : List Oid)
    {entries : List ViewEntry} (hnd : (entries.map ViewEntry.name).Nodup) :
    ∃ old : ViewEntry, old.name = name ∧
      (old ∈ entries ∨ (∀ e ∈ entries, e.name ≠ name) ∧ old = ⟨name, [], []⟩) ∧
      ((entryReg oid name attr mibViews entries).2.map ViewEntry.name).Nodup ∧
      ∀ e, e ∈ (entryReg oid name attr mibViews entries).2 ↔
        e = (entryBind oid attr mibViews old).2 ∨ e ∈ entries ∧ e.name ≠ name := by
  cases hsearch : entrySearch name entries with
  | some old =>
    obtain ⟨hmem, hname⟩ := (entrySearch_eq_some_iff hnd).mp hsearch
    have hbind : (entryBind oid attr mibViews old).2.name = name := by rw [entryBind_snd, hname]
    have hreg : (entryReg oid name attr mibViews entries).2 = entries.map fun e =>
        if e.name = name then (entryBind oid attr mibViews old).2 else e := by
      simp only [entryReg, entryCreate, hsearch]
      exact entryUpdate_eq_map hnd
    refine ⟨old, hname, Or.inl hmem, ?_, fun e => ?_⟩
    · have hnames : (entries.map fun e =>
          if e.name = name then (entryBind oid attr mibViews old).2 else e).map ViewEntry.name =
            entries.map ViewEntry.name := by
        rw [List.map_map]
        apply List.map_congr_left
        intro e _
        simp only [Function.comp_apply]
        split_ifs with h
        · rw [hbind, h]
        · rfl
      rw [hreg, hnames]
      exact hnd
    · rw [hreg, List.mem_map]
      constructor
      · rintro ⟨a, ha, rfl⟩
        split_ifs with h
        · exact Or.inl rfl
        · exact Or.inr ⟨ha, h⟩
      · rintro (rfl | ⟨he, hne⟩)
        · exact ⟨old, hmem, if_pos hname⟩
        · exact ⟨e, he, if_neg hne⟩
  | none =>
    have hnone := entrySearch_eq_none_iff.mp hsearch
    have hreg : (entryReg oid name attr mibViews entries).2 =
        (entryBind oid attr mibViews ⟨name, [], []⟩).2 :: entries := by
      have hfound : entrySearch name (⟨name, [], []⟩ :: entries) = some ⟨name, [], []⟩ := by
        simp [entrySearch]
      simp only [entryReg, entryCreate, hsearch, hfound, entryUpdate, if_true]
    refine ⟨⟨name, [], []⟩, rfl, Or.inr ⟨hnone, rfl⟩, ?_, fun e => ?_⟩
    · rw [hreg, List.map_cons, List.nodup_cons, entryBind_snd]
      refine ⟨fun h => ?_, hnd⟩
      obtain ⟨e, he, hname⟩ := List.mem_map.mp h
      exact hnone e he hname
    · rw [hreg, List.mem_cons]
      exact or_congr Iff.rfl ⟨fun he => ⟨he, hnone e he⟩, And.left⟩

/-- An unregistration that returns has deleted the entries of the name, and it returns only if they
could be emptied. -/
lemma entryUnregLoop_ok {name : List UInt8} {attr : MibAcesAttr} {fuel : Nat}
    {entries entries' : List ViewEntry} (h : entryUnregLoop name attr fuel entries = .ok entries') :
    entries' = entries.filter (fun e => e.name ≠ name) ∧
      ∀ e ∈ entries, e.name = name → attr = .read ∨ e.roViews = [] := by
  induction fuel generalizing entries entries' with
  | zero => simp [entryUnregLoop] at h
  | succ fuel ih =>
    cases entries with
    | nil =>
      obtain rfl := Outcome.ok.inj h
      simp
    | cons a entries =>
      by_cases hname : a.name = name
      · -- the entry is deleted at once, or the loop stays at it with the same read views
        have hread : (a.clear attr).roViews = [] → attr = .read ∨ a.roViews = [] := by
          simp only [ViewEntry.clear]
          split_ifs with hattr
          · intro _
            exact Or.inl hattr
          · exact Or.inr
        simp only [entryUnregLoop, if_pos hname] at h
        by_cases hempty : (a.clear attr).roViews = [] ∧ (a.clear attr).rwViews = []
        · rw [if_pos hempty] at h
          obtain ⟨heq, hall⟩ := ih h
          refine ⟨by simp [heq, hname], ?_⟩
          intro e he hn
          rcases List.mem_cons.mp he with rfl | he
          · exact hread hempty.1
          · exact hall e he hn
        · rw [if_neg hempty] at h
          obtain ⟨heq, hall⟩ := ih h
          refine ⟨by simp [heq, hname, ViewEntry.clear], ?_⟩
          intro e he hn
          rcases List.mem_cons.mp he with rfl | he
          · rcases hall _ List.mem_cons_self hn with hattr | hro
            · exact Or.inl hattr
            · exact hread hro
          · exact hall e (List.mem_cons_of_mem _ he) hn
      · simp only [entryUnregLoop, if_neg hname] at h
        split at h
        next entries₁ hloop =>
          obtain rfl := Outcome.ok.inj h
          obtain ⟨rfl, hall⟩ := ih hloop
          refine ⟨by simp [hname], ?_⟩
          intro e he hn
          rcases List.mem_cons.mp he with rfl | he
          · exact absurd hn hname
          · exact hall e he hn
        all_goals simp at h

lemma mibCommunityUnreg_ok {s s' : MibViews} {name : List UInt8} {attr : MibAcesAttr} {fuel : Nat}
    (h : mibCommunityUnreg s name attr fuel = .ok s') :
    ∃ communities, entryUnregLoop name attr fuel s.mibCommunities = .ok communities ∧
      s' = { s with mibCommunities := communities } := by
  rw [mibCommunityUnreg] at h
  cases hloop : entryUnregLoop name attr fuel s.mibCommunities with
  | ok communities =>
    rw [hloop] at h
    exact ⟨communities, rfl, (Outcome.ok.inj h).symm⟩
  | crash => rw [hloop] at h; cases h
  | fuel => rw [hloop] at h; cases h

lemma mibUserUnreg_ok {s s' : MibViews} {name : List UInt8} {attr : MibAcesAttr} {fuel : Nat}
    (h : mibUserUnreg s name attr fuel = .ok s') :
    ∃ users, entryUnregLoop name attr fuel s.mibUsers = .ok users ∧
      s' = { s with mibUsers := users } := by
  rw [mibUserUnreg] at h
  cases hloop : entryUnregLoop name attr fuel s.mibUsers with
  | ok users =>
    rw [hloop] at h
    exact ⟨users, rfl, (Outcome.ok.inj h).symm⟩
  | crash => rw [hloop] at h; cases h
  | fuel => rw [hloop] at h; cases h

/-! ### All views -/

lemma viewCreate_nodup {oid : Oid} {mibViews : List Oid} (h : mibViews.Nodup) :
    (viewCreate oid mibViews).Nodup := by
  simp only [viewCreate]
  split_ifs with hany
  · exact h
  · refine List.nodup_cons.mpr ⟨fun hmem => hany ?_, h⟩
    exact List.any_eq_true.mpr ⟨oid, hmem, by simpa using (oidCmp_eq_zero_iff oid oid).mpr rfl⟩

lemma viewBind_fst_nodup {oid : Oid} {attr : MibAcesAttr} {mibViews : List Oid} {e : ViewEntry}
    (h : mibViews.Nodup) : (viewBind oid attr mibViews e).1.Nodup := by
  simp only [viewBind]
  split_ifs
  · exact h
  · exact viewCreate_nodup h

lemma entryReg_fst_nodup {oid : Oid} {name : List UInt8} {attr : MibAcesAttr} {mibViews : List Oid}
    {entries : List ViewEntry} (h : mibViews.Nodup) :
    (entryReg oid name attr mibViews entries).1.Nodup := by
  simp only [entryReg]
  split
  · simp only [entryBind]
    split_ifs
    · exact viewBind_fst_nodup (viewBind_fst_nodup h)
    · exact viewBind_fst_nodup h
  · exact h

/-- There is one view for an OID: two pointers to views are equal exactly when the OIDs are. -/
theorem ViewRun.mibViews_nodup {ops : List ViewOp} {s : MibViews} (h : ViewRun ops s) :
    s.mibViews.Nodup := by
  induction h with
  | nil => exact List.nodup_nil
  | snoc _ hop ih =>
    cases hop with
    | communityReg oid name attr => exact entryReg_fst_nodup ih
    | userReg oid name attr => exact entryReg_fst_nodup ih
    | communityUnreg hrun =>
      obtain ⟨communities, -, rfl⟩ := mibCommunityUnreg_ok hrun
      exact ih
    | userUnreg hrun =>
      obtain ⟨users, -, rfl⟩ := mibUserUnreg_ok hrun
      exact ih

/-! ### Histories -/

/-- The OIDs registered for a name, for read or write, since it was last unregistered for read. The
history has the last call first. -/
def readRegs (holder : Holder) (name : List UInt8) : List ViewOp → List Oid
  | [] => []
  | .reg h oid n _ :: ops =>
    if h = holder ∧ n = name then oid :: readRegs holder name ops else readRegs holder name ops
  | .unreg h n attr :: ops =>
    if h = holder ∧ n = name ∧ attr = .read then [] else readRegs holder name ops

/-- The OIDs registered for a name with the write attribute since its last unregistration. -/
def writeRegs (holder : Holder) (name : List UInt8) : List ViewOp → List Oid
  | [] => []
  | .reg h oid n attr :: ops =>
    if h = holder ∧ n = name ∧ attr = .write then oid :: writeRegs holder name ops
    else writeRegs holder name ops
  | .unreg h n _ :: ops => if h = holder ∧ n = name then [] else writeRegs holder name ops

def regs (holder : Holder) (name : List UInt8) (ops : List ViewOp) : MibAcesAttr → List Oid
  | .read => readRegs holder name ops
  | .write => writeRegs holder name ops

/-- All registrations of a history have sub-identifiers below `2 ^ 31`. -/
def SmallOps (ops : List ViewOp) : Prop :=
  ∀ holder oid name attr, .reg holder oid name attr ∈ ops → ∀ x ∈ oid, x.toNat < 2 ^ 31

lemma SmallOps.of_cons {op : ViewOp} {ops : List ViewOp} (h : SmallOps (op :: ops)) : SmallOps ops :=
  fun holder oid name attr hmem => h holder oid name attr (List.mem_cons_of_mem _ hmem)

/-- What counts for write counts for read. -/
lemma writeRegs_subset (holder : Holder) (name : List UInt8) (ops : List ViewOp) :
    writeRegs holder name ops ⊆ readRegs holder name ops := by
  induction ops with
  | nil => simp [writeRegs]
  | cons op ops ih =>
    cases op with
    | reg h oid n attr =>
      simp only [writeRegs, readRegs]
      by_cases hn : h = holder ∧ n = name
      · rw [if_pos hn]
        split_ifs
        · exact List.cons_subset_cons oid ih
        · exact List.subset_cons_of_subset oid ih
      · rw [if_neg fun hh => hn ⟨hh.1, hh.2.1⟩, if_neg hn]
        exact ih
    | unreg h n attr =>
      simp only [writeRegs, readRegs]
      by_cases hn : h = holder ∧ n = name
      · simp [hn]
      · rw [if_neg hn, if_neg fun hh => hn ⟨hh.1, hh.2.1⟩]
        exact ih

lemma readRegs_small {holder : Holder} {name : List UInt8} {ops : List ViewOp} (h : SmallOps ops) :
    Small (readRegs holder name ops) := by
  induction ops with
  | nil => simp [readRegs, Small]
  | cons op ops ih =>
    cases op with
    | reg hd oid n attr =>
      simp only [readRegs]
      split_ifs
      · intro v hv
        rcases List.mem_cons.mp hv with rfl | hv
        · exact h hd v n attr List.mem_cons_self
        · exact ih h.of_cons v hv
      · exact ih h.of_cons
    | unreg hd n attr =>
      simp only [readRegs]
      split_ifs
      · simp [Small]
      · exact ih h.of_cons

/-! ### The invariant of a run -/

/-- The entries of communities or users after a history: one for each name that has registrations,
with both lists in canonical form. -/
structure EntriesOk (ops : List ViewOp) (holder : Holder) (entries : List ViewEntry) : Prop where
  nodup : (entries.map ViewEntry.name).Nodup
  present : ∀ name, readRegs holder name ops ≠ [] → ∃ e ∈ entries, e.name = name
  registered : ∀ e ∈ entries, readRegs holder e.name ops ≠ []
  canonical : ∀ e ∈ entries, ∀ attr, IsCanonical (e.views attr) (regs holder e.name ops attr)

lemma EntriesOk.nil (holder : Holder) : EntriesOk [] holder [] :=
  ⟨by simp, by simp [readRegs], by simp, by simp⟩

namespace EntriesOk

variable {ops : List ViewOp} {holder : Holder} {entries : List ViewEntry}

/-- A call for the other kind of entries changes nothing here. -/
lemma frame (h : EntriesOk ops holder entries) {op : ViewOp}
    (hr : ∀ name, readRegs holder name (op :: ops) = readRegs holder name ops)
    (hw : ∀ name, writeRegs holder name (op :: ops) = writeRegs holder name ops) :
    EntriesOk (op :: ops) holder entries := by
  refine ⟨h.nodup, fun name => hr name ▸ h.present name, fun e he => hr e.name ▸ h.registered e he,
    fun e he attr => ?_⟩
  have hregs : regs holder e.name (op :: ops) attr = regs holder e.name ops attr := by
    cases attr
    · exact hr e.name
    · exact hw e.name
  rw [hregs]
  exact h.canonical e he attr

lemma unreg (h : EntriesOk ops holder entries) {name : List UInt8} {attr : MibAcesAttr} {fuel : Nat}
    {entries' : List ViewEntry} (hloop : entryUnregLoop name attr fuel entries = .ok entries') :
    EntriesOk (.unreg holder name attr :: ops) holder entries' := by
  obtain ⟨rfl, hall⟩ := entryUnregLoop_ok hloop
  -- an entry has read views, so it is only emptied by an unregistration for read
  have hread : ∀ e ∈ entries, e.name = name → attr = .read := by
    intro e he hn
    apply (hall e he hn).resolve_right
    intro hnil
    obtain ⟨r, hr⟩ := List.exists_mem_of_ne_nil _ (h.registered e he)
    obtain ⟨v, hv, _⟩ := ((h.canonical e he .read).covers_iff r).mpr ⟨r, hr, List.prefix_refl r⟩
    exact absurd hv (by simp [ViewEntry.views, hnil])
  have hrr : ∀ n, n ≠ name → readRegs holder n (.unreg holder name attr :: ops) =
      readRegs holder n ops := fun n hn => by simp [readRegs, hn.symm]
  have hwr : ∀ n, n ≠ name → writeRegs holder n (.unreg holder name attr :: ops) =
      writeRegs holder n ops := fun n hn => by simp [writeRegs, hn.symm]
  refine ⟨h.nodup.sublist (List.filter_sublist.map _), fun n hne => ?_, fun e he => ?_,
    fun e he a => ?_⟩
  · by_cases hn : n = name
    · subst hn
      by_cases hattr : attr = .read
      · simp [readRegs, hattr] at hne
      · obtain ⟨e, he, hen⟩ := h.present n (by simpa [readRegs, hattr] using hne)
        exact absurd (hread e he hen) hattr
    · rw [hrr n hn] at hne
      obtain ⟨e, he, rfl⟩ := h.present n hne
      exact ⟨e, List.mem_filter.mpr ⟨he, by simpa using hn⟩, rfl⟩
  · obtain ⟨he, hn⟩ := List.mem_filter.mp he
    rw [hrr e.name (by simpa using hn)]
    exact h.registered e he
  · obtain ⟨he, hn⟩ := List.mem_filter.mp he
    have hcan := h.canonical e he a
    cases a
    · simpa only [regs, hrr e.name (by simpa using hn)] using hcan
    · simpa only [regs, hwr e.name (by simpa using hn)] using hcan

lemma reg (h : EntriesOk ops holder entries) (oid : Oid) (name : List UInt8) (attr : MibAcesAttr)
    (hsmall : SmallOps (.reg holder oid name attr :: ops)) (mibViews : List Oid) :
    EntriesOk (.reg holder oid name attr :: ops) holder
      (entryReg oid name attr mibViews entries).2 := by
  obtain ⟨old, hname, hold, hnd, hmem⟩ := entryReg_snd oid name attr mibViews h.nodup
  have hcan : ∀ a, IsCanonical (old.views a) (regs holder name ops a) := by
    rcases hold with hold | ⟨hnone, rfl⟩
    · exact hname ▸ h.canonical old hold
    · -- a new entry: nothing is registered for the name
      have hr : readRegs holder name ops = [] := by
        by_contra hne
        obtain ⟨e, he, hen⟩ := h.present name hne
        exact hnone e he hen
      have hw : writeRegs holder name ops = [] :=
        List.subset_nil.mp (hr ▸ writeRegs_subset holder name ops)
      intro a
      cases a
      · simpa [ViewEntry.views, regs, hr] using IsCanonical.nil
      · simpa [ViewEntry.views, regs, hw] using IsCanonical.nil
  have hsame : readRegs holder name (.reg holder oid name attr :: ops) =
      oid :: readRegs holder name ops := by simp [readRegs]
  have hrr : ∀ n, n ≠ name → readRegs holder n (.reg holder oid name attr :: ops) =
      readRegs holder n ops := fun n hn => by simp [readRegs, hn.symm]
  have hwr : ∀ n, n ≠ name → writeRegs holder n (.reg holder oid name attr :: ops) =
      writeRegs holder n ops := fun n hn => by simp [writeRegs, hn.symm]
  have hsm : Small (oid :: readRegs holder name ops) := hsame ▸ readRegs_small hsmall
  have hbind := entryBind_snd oid attr mibViews old
  refine ⟨hnd, fun n hne => ?_, fun e he => ?_, fun e he a => ?_⟩
  · by_cases hn : n = name
    · exact ⟨_, (hmem _).mpr (Or.inl rfl), by rw [hbind, hname, hn]⟩
    · obtain ⟨e, he, rfl⟩ := h.present n (hrr n hn ▸ hne)
      exact ⟨e, (hmem e).mpr (Or.inr ⟨he, hn⟩), rfl⟩
  · rcases (hmem e).mp he with rfl | ⟨he, hn⟩
    · simp [hbind, hname, hsame]
    · rw [hrr e.name hn]
      exact h.registered e he
  · rcases (hmem e).mp he with rfl | ⟨he, hn⟩
    · rw [hbind, hname]
      cases a with
      | read =>
        simp only [ViewEntry.views, regs, hsame]
        exact viewInsert_canonical (hcan .read) hsm
      | write =>
        simp only [ViewEntry.views, regs, writeRegs, true_and]
        split_ifs
        · refine viewInsert_canonical (hcan .write) fun v hv => hsm v ?_
          exact List.cons_subset_cons oid (writeRegs_subset holder name ops) hv
        · exact hcan .write
    · have hcan := h.canonical e he a
      cases a
      · simpa only [regs, hrr e.name hn] using hcan
      · simpa only [regs, hwr e.name hn] using hcan

end EntriesOk

/-- The invariant of both kinds of entries along a run. -/
theorem ViewRun.entriesOk {ops : List ViewOp} {s : MibViews} (h : ViewRun ops s)
    (hsmall : SmallOps ops) (holder : Holder) : EntriesOk ops holder (s.entries holder) := by
  induction h with
  | nil => cases holder <;> exact .nil _
  | @snoc ops s s' op _ hop ih =>
    have hok := ih hsmall.of_cons
    cases hop with
    | communityReg oid name attr =>
      cases holder with
      | community => exact hok.reg oid name attr hsmall s.mibViews
      | user => exact hok.frame (by simp [readRegs]) (by simp [writeRegs])
    | userReg oid name attr =>
      cases holder with
      | community => exact hok.frame (by simp [readRegs]) (by simp [writeRegs])
      | user => exact hok.reg oid name attr hsmall s.mibViews
    | @communityUnreg _ name attr fuel hrun =>
      obtain ⟨communities, hloop, rfl⟩ := mibCommunityUnreg_ok hrun
      cases holder with
      | community => exact hok.unreg hloop
      | user => exact hok.frame (by simp [readRegs]) (by simp [writeRegs])
    | @userUnreg _ name attr fuel hrun =>
      obtain ⟨users, hloop, rfl⟩ := mibUserUnreg_ok hrun
      cases holder with
      | community => exact hok.frame (by simp [readRegs]) (by simp [writeRegs])
      | user => exact hok.unreg hloop

/-- The views of a name; a name without an entry has none. -/
def MibViews.viewsOf (s : MibViews) (holder : Holder) (name : List UInt8) (attr : MibAcesAttr) :
    List Oid :=
  match entrySearch name (s.entries holder) with
  | some e => e.views attr
  | none => []

lemma ViewRun.viewsOf_canonical {ops : List ViewOp} {s : MibViews} (h : ViewRun ops s)
    (hsmall : SmallOps ops) (holder : Holder) (name : List UInt8) (attr : MibAcesAttr) :
    IsCanonical (s.viewsOf holder name attr) (regs holder name ops attr) := by
  have hok := h.entriesOk hsmall holder
  simp only [MibViews.viewsOf]
  cases hsearch : entrySearch name (s.entries holder) with
  | some e =>
    obtain ⟨he, rfl⟩ := (entrySearch_eq_some_iff hok.nodup).mp hsearch
    exact hok.canonical e he attr
  | none =>
    have hr : readRegs holder name ops = [] := by
      by_contra hne
      obtain ⟨e, he, hn⟩ := hok.present name hne
      exact entrySearch_eq_none_iff.mp hsearch e he hn
    have hw : writeRegs holder name ops = [] :=
      List.subset_nil.mp (hr ▸ writeRegs_subset holder name ops)
    cases attr
    · simpa only [regs, hr] using IsCanonical.nil
    · simpa only [regs, hw] using IsCanonical.nil

/-- View lists are kept in canonical form, for communities and for users. After every sequence of
registrations and of unregistrations that return, a name has at most one entry, and each of its two
lists is the ascending list of the prefix-minimal OIDs among those registered for it since it was
last unregistered. So no view of a list covers another, the list covers what the registrations
cover, what is covered for write is covered for read, and another history with the same
registrations leaves the same list. -/
theorem viewRun_canonical {ops : List ViewOp} {s : MibViews} (h : ViewRun ops s)
    (hsmall : SmallOps ops) (holder : Holder) :
    ((s.entries holder).map ViewEntry.name).Nodup ∧
    ∀ name attr,
      IsCanonical (s.viewsOf holder name attr) (regs holder name ops attr) ∧
      (∀ u ∈ s.viewsOf holder name attr, ∀ v ∈ s.viewsOf holder name attr, u <+: v → u = v) ∧
      (∀ oid, (∃ v ∈ s.viewsOf holder name attr, v <+: oid) ↔
        ∃ r ∈ regs holder name ops attr, r <+: oid) ∧
      (∀ oid, (∃ v ∈ s.viewsOf holder name .write, v <+: oid) →
        ∃ v ∈ s.viewsOf holder name .read, v <+: oid) ∧
      ∀ ops' s', ViewRun ops' s' → SmallOps ops' →
        (∀ r, r ∈ regs holder name ops' attr ↔ r ∈ regs holder name ops attr) →
        s'.viewsOf holder name attr = s.viewsOf holder name attr := by
  refine ⟨(h.entriesOk hsmall holder).nodup, ?_⟩
  intro name attr
  have hcan := h.viewsOf_canonical hsmall holder name
  refine ⟨hcan attr, fun u hu v hv => (hcan attr).eq_of_isPrefix hu hv, (hcan attr).covers_iff,
    fun oid hw => ?_, fun ops' s' h' hsmall' hmem => ?_⟩
  · obtain ⟨r, hr, hro⟩ := ((hcan .write).covers_iff oid).mp hw
    exact ((hcan .read).covers_iff oid).mpr ⟨r, writeRegs_subset holder name ops hr, hro⟩
  · exact (h'.viewsOf_canonical hsmall' holder name attr).unique (hcan attr) hmem

theorem viewRun_canonical_absorbs :
    ∃ s, ViewRun [.reg .community [1] [112] .read, .reg .community [1, 3] [112] .write] s ∧
      s.viewsOf .community [112] .read = [[1]] ∧ s.viewsOf .community [112] .write = [[1, 3]] ∧
      ∃ v ∈ s.viewsOf .community [112] .read, v <+: [1, 3] := by
  have hrun := ViewRun.snoc (ViewRun.snoc .nil (.communityReg _ [1, 3] [112] .write))
    (.communityReg _ [1] [112] .read)
  have hsmall : SmallOps [.reg .community [1] [112] .read, .reg .community [1, 3] [112] .write] := by
    intro holder oid name attr hmem
    simp only [List.mem_cons, ViewOp.reg.injEq, List.not_mem_nil, or_false] at hmem
    rcases hmem with ⟨_, rfl, _⟩ | ⟨_, rfl, _⟩ <;> simp
  refine ⟨_, hrun, by decide, by decide, ?_⟩
  exact (((viewRun_canonical hrun hsmall .community).2 [112] .read).2.2.2.1 [1, 3])
    ⟨[1, 3], by decide, List.prefix_refl _⟩

end SmartSnmp
