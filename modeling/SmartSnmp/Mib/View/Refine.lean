import SmartSnmp.Mib.View.Bind
import SmartSnmp.Mib.View.Unreg

/-!
# The records refine the lists

Whatever is registered and unregistered in whatever order, no call follows a null pointer or a pointer
to a record that is not there, and the lists of OIDs are those of the list level.
-/

namespace SmartSnmp

open Links

/-- The communities and users that a heap stands for. -/
def ViewHeap.views (H : ViewHeap) (G : Ghost) : MibViews :=
  ⟨H.viewOids, H.entriesOf G .community, H.entriesOf G .user⟩

lemma ViewHeap.views_entries (H : ViewHeap) (G : Ghost) (holder : Holder) :
    (H.views G).entries holder = H.entriesOf G holder := by
  cases holder <;> rfl

namespace Shape

variable {H : ViewHeap} {G : Ghost} {holder : Holder} {attr : MibAcesAttr} {c : Addr} {oid : Oid}
  {malloc : Nat → List Addr → Addr}

/-- Before any registration there is no record. -/
lemma empty : Shape .empty ⟨fun _ => [], fun _ => []⟩ := by
  have hnone : ∀ kind a, ¬ ViewHeap.empty.Has kind a := by
    intro kind a
    cases kind <;> simp [ViewHeap.empty, ViewHeap.Has]
  have hrings : ∀ n, ViewHeap.empty.ringsOf ⟨fun _ => [], fun _ => []⟩ n = none := by
    intro n
    cases n <;> simp [ViewHeap.empty, ViewHeap.ringsOf]
  constructor
  · refine ⟨fun n hn => absurd rfl hn, fun a => ?_, fun hk => absurd hk (hnone _ _), List.nodup_nil⟩
    simp only [hnone, exists_false, iff_false]
    exact List.not_mem_nil
  · refine ⟨fun hR => ?_, fun hR => ?_⟩ <;> rw [hrings] at hR <;> cases hR
  all_goals simp [ViewHeap.empty]

/-! ### Registration -/

/-- The entry of the community or user whose list has changed. -/
lemma entryOf_setViews {H' : ViewHeap} {G' : Ghost} (hframe : Frame H G H' G' (· = (holder, attr, c)))
    (hc : c ∈ H.holders holder) : H'.entryOf G' holder c =
      (H.entryOf G holder c).setViews (H'.oidsOf G' (holder, attr, c)) attr := by
  have hother : ∀ attr', attr' ≠ attr →
      H'.oidsOf G' (holder, attr', c) = H.oidsOf G (holder, attr', c) :=
    fun attr' hne => hframe.oids _ (by simpa using hne) hc
  cases attr with
  | read => rw [ViewHeap.entryOf, hframe.name, hother .write (by simp)]; rfl
  | write => rw [ViewHeap.entryOf, hframe.name, hother .read (by simp)]; rfl

/-- `community_view_bind` and `user_view_bind`. -/
lemma viewBind (h : Shape H G) (hmalloc : ∀ n live, malloc n live ∉ live) (hc : c ∈ H.holders holder)
    (attr : MibAcesAttr) (oid : Oid) :
    ∃ H' G', H.viewBind malloc holder oid c attr = some H' ∧ Shape H' G' ∧
      Frame H G H' G' (· = (holder, attr, c)) ∧
      (H'.viewOids, H'.entryOf G' holder c) =
        SmartSnmp.viewBind oid attr H.viewOids (H.entryOf G holder c) := by
  have hviews : (H.entryOf G holder c).views attr = H.oidsOf G (holder, attr, c) := by
    cases attr <;> rfl
  obtain ⟨H₁, G₁, hfilter, h₁, hframe₁, hoids₁, hlist₁⟩ := h.viewFilter hc attr oid
  rw [SmartSnmp.viewBind, hviews]
  by_cases hfiltered : (SmartSnmp.viewFilter oid (H.oidsOf G (holder, attr, c))).1
  · refine ⟨H₁, G₁, by simp [ViewHeap.viewBind, hfilter, hfiltered], h₁, hframe₁, ?_⟩
    rw [entryOf_setViews hframe₁ hc, hoids₁, hlist₁]
    exact (if_pos hfiltered).symm
  · have hc₁ : c ∈ H₁.holders holder := by rwa [hframe₁.holders]
    obtain ⟨v, H₂, G₂, hcreate, h₂, hframe₂, hv, hvoid, hoids₂⟩ := h₁.viewCreate hmalloc oid
    have hc₂ : c ∈ H₂.holders holder := by rwa [hframe₂.holders]
    obtain ⟨H₃, G₃, hadd, h₃, hframe₃, hoids₃, hlist₃⟩ := h₂.viewAdd hmalloc hc₂ hv hvoid attr
    have hframe := ((hframe₁.trans hframe₂).trans hframe₃).mono (Q := (· = (holder, attr, c))) (by tauto)
    refine ⟨H₃, G₃, by simp [ViewHeap.viewBind, hfilter, hfiltered, hcreate, hadd], h₃, hframe, ?_⟩
    rw [entryOf_setViews hframe hc, hoids₃, hoids₂, hoids₁, hlist₃, hframe₂.oids _ (by simp) hc₁, hlist₁]
    exact (if_neg hfiltered).symm

/-- The bindings of `mib_community_reg` and `mib_user_reg`. -/
lemma entryBind (h : Shape H G) (hmalloc : ∀ n live, malloc n live ∉ live) (hc : c ∈ H.holders holder)
    (attr : MibAcesAttr) (oid : Oid) :
    ∃ H₁ H₂ G₂, (if attr = .write then H.viewBind malloc holder oid c .write else some H) = some H₁ ∧
      H₁.viewBind malloc holder oid c .read = some H₂ ∧ Shape H₂ G₂ ∧
      Frame H G H₂ G₂ (fun k => k.1 = holder ∧ k.2.2 = c) ∧
      (H₂.viewOids, H₂.entryOf G₂ holder c) =
        SmartSnmp.entryBind oid attr H.viewOids (H.entryOf G holder c) := by
  by_cases hattr : attr = .write
  · obtain ⟨H₁, G₁, hbind₁, h₁, hframe₁, hentry₁⟩ := h.viewBind hmalloc hc .write oid
    have hc₁ : c ∈ H₁.holders holder := by rwa [hframe₁.holders]
    obtain ⟨H₂, G₂, hbind₂, h₂, hframe₂, hentry₂⟩ := h₁.viewBind hmalloc hc₁ .read oid
    refine ⟨H₁, H₂, G₂, by rw [if_pos hattr, hbind₁], hbind₂, h₂, (hframe₁.trans hframe₂).mono ?_, ?_⟩
    · rintro k (rfl | rfl) <;> exact ⟨rfl, rfl⟩
    · simp only [SmartSnmp.entryBind, if_pos hattr, ← hentry₁, hentry₂]
  · obtain ⟨H₂, G₂, hbind₂, h₂, hframe₂, hentry₂⟩ := h.viewBind hmalloc hc .read oid
    refine ⟨H, H₂, G₂, by rw [if_neg hattr], hbind₂, h₂, hframe₂.mono ?_, ?_⟩
    · rintro k rfl
      exact ⟨rfl, rfl⟩
    · simp only [SmartSnmp.entryBind, if_neg hattr, hentry₂]

/-- The other entries stay. -/
lemma entryOf_frame {H' : ViewHeap} {G' : Ghost} {P : ListKey → Prop} (hframe : Frame H G H' G' P)
    (hP : ∀ attr, ¬ P (holder, attr, c)) (hc : c ∈ H.holders holder) :
    H'.entryOf G' holder c = H.entryOf G holder c := by
  rw [ViewHeap.entryOf, hframe.name, hframe.oids _ (hP _) hc, hframe.oids _ (hP _) hc, ViewHeap.entryOf]

/-- What is written to the first community or user of a name is written to its entry. -/
lemma entriesOf_update (h : Shape H G) {name : List UInt8} (hfirst : FirstNamed H holder name c (H.holders holder))
    {H' : ViewHeap} {G' : Ghost} (hframe : Frame H G H' G' (fun k => k.1 = holder ∧ k.2.2 = c)) :
    H'.entriesOf G' holder =
      entryUpdate name (fun _ => H'.entryOf G' holder c) (H.entriesOf G holder) := by
  obtain ⟨pre, post, hholders, hpre, hc⟩ := hfirst
  have hmem : ∀ c' ∈ pre ++ c :: post, c' ∈ H.holders holder := fun c' hc' => hholders ▸ hc'
  have hnodup := List.nodup_middle.mp (hholders ▸ h.nodup_holders holder)
  have hother : ∀ c' ∈ pre ++ post, H'.entryOf G' holder c' = H.entryOf G holder c' := by
    intro c' hc'
    refine entryOf_frame hframe (fun attr hk => ?_) (hmem c' (by simp_all; tauto))
    exact (List.nodup_cons.mp hnodup).1 (hk.2 ▸ hc')
  have hskip : ∀ es, entryUpdate name (fun _ => H'.entryOf G' holder c)
      (pre.map (H.entryOf G holder) ++ es) =
        pre.map (H.entryOf G holder) ++ entryUpdate name (fun _ => H'.entryOf G' holder c) es := by
    intro es
    clear hholders hnodup hother
    induction pre with
    | nil => rfl
    | cons a pre ih =>
      have ha : (H.entryOf G holder a).name ≠ name := by
        rw [ne_eq, h.entryOf_name_eq_iff (hmem a (by simp))]
        exact hpre a List.mem_cons_self
      rw [List.map_cons, List.cons_append, entryUpdate, if_neg ha, ih (fun c' hc' => hpre c' (by simp [hc']))
        (fun c' hc' => hmem c' (by simp_all)), List.cons_append]
  have hname : (H.entryOf G holder c).name = name := (h.entryOf_name_eq_iff (hmem c (by simp))).mpr hc
  rw [ViewHeap.entriesOf, hframe.holders, hholders, ViewHeap.entriesOf, hholders, List.map_append,
    List.map_append, hskip, List.map_cons, List.map_cons, entryUpdate, if_pos hname]
  refine congrArg₂ (· ++ _ :: ·) (List.map_congr_left ?_) (List.map_congr_left ?_)
  · exact fun c' hc' => hother c' (List.mem_append_left _ hc')
  · exact fun c' hc' => hother c' (List.mem_append_right _ hc')

/-- `mib_community_reg` and `mib_user_reg`. -/
lemma reg (h : Shape H G) (hmalloc : ∀ n live, malloc n live ∉ live) (holder : Holder) (oid : Oid)
    (name : List UInt8) (attr : MibAcesAttr) :
    ∃ H' G', H.reg malloc holder oid name attr = some H' ∧ Shape H' G' ∧
      (H'.viewOids, H'.entriesOf G' holder) =
        entryReg oid name attr H.viewOids (H.entriesOf G holder) ∧
      ∀ holder', holder' ≠ holder → H'.entriesOf G' holder' = H.entriesOf G holder' := by
  obtain ⟨c, H₁, G₁, hcreate, h₁, hfirst, hentries₁, hothers₁, hoids₁⟩ := h.holderCreate hmalloc holder name
  have hc₁ : c ∈ H₁.holders holder := by
    obtain ⟨pre, post, hholders, -, -⟩ := hfirst
    simp [hholders]
  obtain ⟨H₂, H₃, G₃, hbind₂, hbind₃, h₃, hframe, hentry⟩ := h₁.entryBind hmalloc hc₁ attr oid
  refine ⟨H₃, G₃, ?_, h₃, ?_, fun holder' hne => ?_⟩
  · by_cases hattr : attr = .write
    · rw [if_pos hattr] at hbind₂
      simp [ViewHeap.reg, hcreate, hattr, hbind₂, hbind₃]
    · rw [if_neg hattr, Option.some.injEq] at hbind₂
      subst hbind₂
      simp [ViewHeap.reg, hcreate, hattr, hbind₃]
  · rw [h₁.entriesOf_update hfirst hframe, entryReg, ← hentries₁, ← hoids₁]
    simp only [h₁.entrySearch_of_first hfirst, ← hentry]
  · rw [← hothers₁ holder' hne, ViewHeap.entriesOf, hframe.holders]
    exact List.map_congr_left fun c' hc' => entryOf_frame hframe (fun _ hk => hne hk.1) hc'

/-! ### Unregistration -/

lemma listEmpty_views (h : Shape H G) (hc : c ∈ H.holders holder) (attr : MibAcesAttr) :
    listEmpty H.links (.views holder attr c) = some (decide (H.oidsOf G (holder, attr, c) = [])) := by
  rw [listEmpty_eq h.rings (ringsOf_views hc G attr)]
  simp [ViewHeap.oidsOf]

/-- The removals of `mib_community_unreg` and `mib_user_unreg`. -/
lemma unregViews (h : Shape H G) (hc : c ∈ H.holders holder) (attr : MibAcesAttr) :
    ∃ empty H' G', H.unregViews holder attr c = some (empty, H') ∧ Shape H' G' ∧
      Frame H G H' G' (fun k => k.1 = holder ∧ k.2.2 = c) ∧ H'.viewOids = H.viewOids ∧
      H'.entryOf G' holder c = (H.entryOf G holder c).clear attr ∧
      (empty = true ↔ (H'.entryOf G' holder c).roViews = [] ∧ (H'.entryOf G' holder c).rwViews = []) := by
  have hread : ∃ H₁ G₁, (if attr = .read then H.viewRemove holder (.views holder .read c) else some H) =
      some H₁ ∧ Shape H₁ G₁ ∧ Frame H G H₁ G₁ (· = (holder, .read, c)) ∧ H₁.viewOids = H.viewOids ∧
      H₁.oidsOf G₁ (holder, .read, c) =
        if attr = .read then [] else H.oidsOf G (holder, .read, c) := by
    by_cases hattr : attr = .read
    · obtain ⟨H₁, G₁, hremove, h₁, hframe, hoids, hbound⟩ := h.viewRemove hc .read
      exact ⟨H₁, G₁, by rw [if_pos hattr, hremove], h₁, hframe, hoids,
        by rw [if_pos hattr, ViewHeap.oidsOf, hbound, List.map_nil]⟩
    · exact ⟨H, G, if_neg hattr, h, .refl H G _, rfl, (if_neg hattr).symm⟩
  obtain ⟨H₁, G₁, hremove₁, h₁, hframe₁, hoids₁, hro⟩ := hread
  have hc₁ : c ∈ H₁.holders holder := by rwa [hframe₁.holders]
  obtain ⟨H₂, G₂, hremove₂, h₂, hframe₂, hoids₂, hbound⟩ := h₁.viewRemove hc₁ .write
  have hc₂ : c ∈ H₂.holders holder := by rwa [hframe₂.holders]
  have hrw : H₂.oidsOf G₂ (holder, .write, c) = [] := by rw [ViewHeap.oidsOf, hbound, List.map_nil]
  have hempty := h₂.listEmpty_views hc₂
  refine ⟨decide (H₂.oidsOf G₂ (holder, .read, c) = []) && decide (H₂.oidsOf G₂ (holder, .write, c) = []),
    H₂, G₂, ?_, h₂, (hframe₁.trans hframe₂).mono ?_, hoids₂.trans hoids₁, ?_, ?_⟩
  · by_cases hattr : attr = .read
    · rw [if_pos hattr] at hremove₁
      simp only [ViewHeap.unregViews, hattr, if_true, hremove₁, hremove₂, hempty, Option.bind_eq_bind,
        Option.bind_some]
    · rw [if_neg hattr, Option.some.injEq] at hremove₁
      subst hremove₁
      simp only [ViewHeap.unregViews, hattr, if_false, hremove₂, hempty, Option.bind_eq_bind,
        Option.bind_some]
  · rintro k (rfl | rfl) <;> exact ⟨rfl, rfl⟩
  · rw [entryOf_setViews hframe₂ hc₁, entryOf_setViews hframe₁ hc, hro, hrw]
    rfl
  · rw [Bool.and_eq_true, decide_eq_true_iff, decide_eq_true_iff]
    rfl

/-- The entries of other communities and users in a part of the list. -/
lemma map_entryOf_frame {H' : ViewHeap} {G' : Ghost}
    (hframe : Frame H G H' G' (fun k => k.1 = holder ∧ k.2.2 = c)) {cs : List Addr}
    (hcs : ∀ c' ∈ cs, c' ∈ H.holders holder) (hc : c ∉ cs) :
    cs.map (H'.entryOf G' holder) = cs.map (H.entryOf G holder) := by
  refine List.map_congr_left fun c' hc' => entryOf_frame hframe (fun attr hk => ?_) (hcs c' hc')
  exact hc (hk.2 ▸ hc')

/-- The other communities and users keep their entries when one goes. -/
lemma entryOf_dropped {holder' : Holder} {c' : Addr} (hne : ¬ (holder' = holder ∧ c' = c)) :
    (dropped H holder c).entryOf G holder' c' = H.entryOf G holder' c' := by
  have hname : (dropped H holder c).name (holder', c') = H.name (holder', c') :=
    Function.update_of_ne (by simpa using hne) _ _
  rw [ViewHeap.entryOf, hname]
  rfl

/-- The loop of `mib_community_unreg` and `mib_user_unreg` ends as on the list level. -/
lemma unregLoop (h : Shape H G) {pre rest : List Addr} (hholders : H.holders holder = pre ++ rest)
    (name : List UInt8) (attr : MibAcesAttr) (fuel : Nat) :
    Traced.Same (fun H' entries => ∃ G', Shape H' G' ∧ H'.viewOids = H.viewOids ∧
        H'.entriesOf G' holder = pre.map (H.entryOf G holder) ++ entries ∧
        ∀ holder', holder' ≠ holder → H'.entriesOf G' holder' = H.entriesOf G holder')
      (ViewHeap.unregLoop holder name attr fuel rest H)
      (entryUnregLoop name attr fuel (rest.map (H.entryOf G holder))) := by
  induction fuel generalizing H G pre rest with
  | zero => exact .fuel
  | succ fuel ih =>
    cases rest with
    | nil =>
      refine .ok ⟨G, h, rfl, ?_, fun _ _ => rfl⟩
      rw [ViewHeap.entriesOf, hholders, List.map_append, List.map_nil]
    | cons c rest =>
      have hmem : ∀ c' ∈ pre ++ c :: rest, c' ∈ H.holders holder := fun c' hc' => hholders ▸ hc'
      have hc : c ∈ H.holders holder := hmem c (by simp)
      obtain ⟨n, hn⟩ := Option.ne_none_iff_exists'.mp ((h.name holder c).mpr hc)
      have hname : (H.entryOf G holder c).name = n := (h.entryOf_name_eq_iff hc).mpr hn
      simp only [ViewHeap.unregLoop, hn, List.map_cons, entryUnregLoop, hname]
      by_cases heq : n = name
      · obtain ⟨empty, H₁, G₁, hviews, h₁, hframe, hoids, hentry, hempty⟩ := h.unregViews hc attr
        simp only [if_pos heq, hviews, ← hentry, ← hempty]
        have hholders₁ : H₁.holders holder = pre ++ c :: rest := by rw [hframe.holders, hholders]
        have hnodup := List.nodup_middle.mp (hholders ▸ h.nodup_holders holder)
        have hnot := (List.nodup_cons.mp hnodup).1
        have hpre : pre.map (H₁.entryOf G₁ holder) = pre.map (H.entryOf G holder) :=
          map_entryOf_frame hframe (fun c' hc' => hmem c' (by simp [hc'])) fun hc' => hnot (by simp [hc'])
        have hrest : rest.map (H₁.entryOf G₁ holder) = rest.map (H.entryOf G holder) :=
          map_entryOf_frame hframe (fun c' hc' => hmem c' (by simp [hc'])) fun hc' => hnot (by simp [hc'])
        have hothers : ∀ holder', holder' ≠ holder → H₁.entriesOf G₁ holder' = H.entriesOf G holder' := by
          intro holder' hne
          rw [ViewHeap.entriesOf, hframe.holders]
          exact List.map_congr_left fun c' hc' => entryOf_frame hframe (fun _ hk => hne hk.1) hc'
        cases empty with
        | true =>
          -- the community or user goes
          have hbound : ∀ attr', G₁.bound (holder, attr', c) = [] := by
            obtain ⟨hro, hrw⟩ := hempty.mp rfl
            rintro (_ | _)
            · exact List.map_eq_nil_iff.mp hro
            · exact List.map_eq_nil_iff.mp hrw
          have hdrop : (dropped H₁ holder c).holders holder = pre ++ rest := by
            have herase : (H₁.holders holder).erase c = pre ++ rest := by
              rw [hholders₁, List.erase_append_right _ fun hc' => hnot (by simp [hc']), List.erase_cons_head]
            exact (Function.update_self _ _ _).trans herase
          have hkept : ∀ c' ∈ pre ++ rest, (dropped H₁ holder c).entryOf G₁ holder c' =
              H₁.entryOf G₁ holder c' := fun c' hc' => entryOf_dropped fun heq => hnot (heq.2 ▸ hc')
          have hih := ih (h₁.drop (by simp [hholders₁]) hbound) hdrop
          rw [List.map_congr_left fun c' hc' => hkept c' (List.mem_append_right _ hc'), hrest] at hih
          refine hih.mono ?_
          rintro H' entries ⟨G', h', hoids', hentries, hothers'⟩
          refine ⟨G', h', hoids'.trans hoids, ?_, fun holder' hne => ?_⟩
          · rw [hentries, List.map_congr_left fun c' hc' => hkept c' (List.mem_append_left _ hc'), hpre]
          · have hsame : (dropped H₁ holder c).holders holder' = H₁.holders holder' :=
              Function.update_of_ne hne _ _
            rw [hothers' holder' hne, ← hothers holder' hne, ViewHeap.entriesOf, hsame]
            exact List.map_congr_left fun c' _ => entryOf_dropped fun heq => hne heq.1
        | false =>
          -- the loop stays
          have hih := ih h₁ hholders₁
          rw [List.map_cons, hrest] at hih
          refine hih.mono ?_
          rintro H' entries ⟨G', h', hoids', hentries, hothers'⟩
          exact ⟨G', h', hoids'.trans hoids, by rw [hentries, hpre],
            fun holder' hne => (hothers' holder' hne).trans (hothers holder' hne)⟩
      · simp only [if_neg heq]
        have hih := ih h (show H.holders holder = (pre ++ [c]) ++ rest by simp [hholders])
        generalize ViewHeap.unregLoop holder name attr fuel rest H = o at hih ⊢
        generalize entryUnregLoop name attr fuel (rest.map (H.entryOf G holder)) = o' at hih ⊢
        cases hih with
        | ok hok =>
          obtain ⟨G', h', hoids, hentries, hothers⟩ := hok
          exact .ok ⟨G', h', hoids, by simp [hentries], hothers⟩
        | crash => exact .crash
        | fuel => exact .fuel

end Shape

/-! ### Runs -/

/-- A call on the list level. -/
def MibViews.call (fuel : Nat) (op : ViewOp) (s : MibViews) : Outcome MibViews :=
  match op with
  | .reg .community oid name attr => .ok (mibCommunityReg s oid name attr)
  | .reg .user oid name attr => .ok (mibUserReg s oid name attr)
  | .unreg holder name attr => s.unreg holder name attr fuel

/-- The calls, the last one first. -/
def MibViews.run (fuel : Nat) : List ViewOp → Outcome MibViews
  | [] => .ok .empty
  | op :: ops =>
    match run fuel ops with
    | .ok s => s.call fuel op
    | .crash => .crash
    | .fuel => .fuel

lemma entryUnregLoop_ne_crash (name : List UInt8) (attr : MibAcesAttr) (fuel : Nat)
    (entries : List ViewEntry) : entryUnregLoop name attr fuel entries ≠ .crash := by
  induction fuel generalizing entries with
  | zero => simp [entryUnregLoop]
  | succ fuel ih =>
    cases entries with
    | nil => simp [entryUnregLoop]
    | cons e entries =>
      simp only [entryUnregLoop]
      split_ifs
      · exact ih entries
      · exact ih _
      · have hrest := ih entries
        generalize entryUnregLoop name attr fuel entries = o at hrest ⊢
        cases o with
        | ok _ => simp
        | crash => exact absurd rfl hrest
        | fuel => simp

/-- A call that returns is a step. -/
lemma MibViews.call_ok {fuel : Nat} {op : ViewOp} {s s' : MibViews} (h : s.call fuel op = .ok s') :
    ViewStep s op s' := by
  cases op with
  | reg holder oid name attr =>
    cases holder with
    | community =>
      obtain rfl := Outcome.ok.inj h
      exact .communityReg s oid name attr
    | user =>
      obtain rfl := Outcome.ok.inj h
      exact .userReg s oid name attr
  | unreg holder name attr =>
    cases holder with
    | community => exact .communityUnreg h
    | user => exact .userUnreg h

lemma MibViews.call_ne_crash (fuel : Nat) (op : ViewOp) (s : MibViews) : s.call fuel op ≠ .crash := by
  cases op with
  | reg holder oid name attr => cases holder <;> simp [MibViews.call]
  | unreg holder name attr =>
    have hloop := entryUnregLoop_ne_crash name attr fuel (s.entries holder)
    cases holder with
    | community =>
      simp only [MibViews.call, MibViews.unreg, mibCommunityUnreg]
      split <;> simp_all [MibViews.entries]
    | user =>
      simp only [MibViews.call, MibViews.unreg, mibUserUnreg]
      split <;> simp_all [MibViews.entries]

/-- A call on the records ends as on the list level. -/
lemma Shape.call {H : ViewHeap} {G : Ghost} (h : Shape H G) {malloc : Nat → List Addr → Addr}
    (hmalloc : ∀ n live, malloc n live ∉ live) (fuel : Nat) (op : ViewOp) :
    Traced.Same (fun H' s' => ∃ G', Shape H' G' ∧ H'.views G' = s') (H.call malloc fuel op)
      ((H.views G).call fuel op) := by
  cases op with
  | reg holder oid name attr =>
    obtain ⟨H', G', hreg, h', hentries, hothers⟩ := h.reg hmalloc holder oid name attr
    rw [ViewHeap.call, hreg]
    cases holder with
    | community =>
      refine .ok ⟨G', h', ?_⟩
      simp only [ViewHeap.views, mibCommunityReg, ← hentries, hothers .user (by simp)]
    | user =>
      refine .ok ⟨G', h', ?_⟩
      simp only [ViewHeap.views, mibUserReg, ← hentries, hothers .community (by simp)]
  | unreg holder name attr =>
    have hloop := h.unregLoop (show H.holders holder = [] ++ H.holders holder from rfl) name attr fuel
    rw [← ViewHeap.entriesOf, ← ViewHeap.views_entries] at hloop
    rw [ViewHeap.call, ViewHeap.unreg, MibViews.call]
    generalize ViewHeap.unregLoop holder name attr fuel (H.holders holder) H = o at hloop ⊢
    cases holder with
    | community =>
      rw [MibViews.unreg, mibCommunityUnreg]
      rw [MibViews.entries] at hloop
      generalize entryUnregLoop name attr fuel (H.views G).mibCommunities = o' at hloop ⊢
      cases hloop with
      | ok hok =>
        obtain ⟨G', h', hoids, hentries, hothers⟩ := hok
        refine .ok ⟨G', h', ?_⟩
        simp only [ViewHeap.views, hoids, hentries, hothers .user (by simp), List.map_nil, List.nil_append]
      | crash => exact .crash
      | fuel => exact .fuel
    | user =>
      rw [MibViews.unreg, mibUserUnreg]
      rw [MibViews.entries] at hloop
      generalize entryUnregLoop name attr fuel (H.views G).mibUsers = o' at hloop ⊢
      cases hloop with
      | ok hok =>
        obtain ⟨G', h', hoids, hentries, hothers⟩ := hok
        refine .ok ⟨G', h', ?_⟩
        simp only [ViewHeap.views, hoids, hentries, hothers .community (by simp), List.map_nil,
          List.nil_append]
      | crash => exact .crash
      | fuel => exact .fuel

/-- The calls on the records end as on the list level. -/
lemma ViewHeap.run_same {malloc : Nat → List Addr → Addr} (hmalloc : ∀ n live, malloc n live ∉ live) (fuel : Nat)
    (ops : List ViewOp) :
    Traced.Same (fun H s => ∃ G, Shape H G ∧ H.views G = s ∧ ViewRun ops s)
      (ViewHeap.run malloc fuel ops) (MibViews.run fuel ops) := by
  induction ops with
  | nil => exact .ok ⟨_, Shape.empty, rfl, .nil⟩
  | cons op ops ih =>
    rw [ViewHeap.run, MibViews.run]
    generalize ViewHeap.run malloc fuel ops = o at ih ⊢
    generalize MibViews.run fuel ops = o' at ih ⊢
    cases ih with
    | ok hok =>
      obtain ⟨G, h, rfl, hrun⟩ := hok
      have hcall := h.call hmalloc fuel op
      have hstep : ∀ s', MibViews.call fuel op _ = .ok s' → ViewRun (op :: ops) s' :=
        fun s' hs => hrun.snoc (MibViews.call_ok hs)
      simp only
      generalize MibViews.call fuel op _ = o' at hcall hstep ⊢
      generalize ViewHeap.call _ fuel op _ = o at hcall ⊢
      cases hcall with
      | ok hok =>
        obtain ⟨G', h', heq⟩ := hok
        exact .ok ⟨G', h', heq, hstep _ rfl⟩
      | crash => exact .crash
      | fuel => exact .fuel
    | crash => exact .crash
    | fuel => exact .fuel

lemma MibViews.run_ne_crash (fuel : Nat) (ops : List ViewOp) : MibViews.run fuel ops ≠ .crash := by
  induction ops with
  | nil => simp [MibViews.run]
  | cons op ops ih =>
    rw [MibViews.run]
    generalize MibViews.run fuel ops = o at ih ⊢
    cases o with
    | ok s => exact s.call_ne_crash fuel op
    | crash => exact absurd rfl ih
    | fuel => simp

/-- Whatever is registered and unregistered, the calls on the records follow no pointer that is null or
goes to a record that is not there; they return exactly if those of the list level do, with the records
in shape and the lists of OIDs of the list level. -/
theorem viewHeap_refines {malloc : Nat → List Addr → Addr} (hmalloc : ∀ n live, malloc n live ∉ live) (fuel : Nat)
    (ops : List ViewOp) :
    ViewHeap.run malloc fuel ops ≠ .crash ∧
      Traced.Same (fun H s => ∃ G, Shape H G ∧ H.views G = s ∧ ViewRun ops s)
        (ViewHeap.run malloc fuel ops) (MibViews.run fuel ops) := by
  have hsame := ViewHeap.run_same hmalloc fuel ops
  refine ⟨fun hcrash => ?_, hsame⟩
  have hne := MibViews.run_ne_crash fuel ops
  rw [hcrash] at hsame
  generalize MibViews.run fuel ops = o at hsame hne
  cases hsame
  exact hne rfl

/-- An allocator that takes the address after the greatest one in use. -/
def bumpMalloc (_ : Nat) (live : List Addr) : Addr := live.foldr max 0 + 1

lemma bumpMalloc_notMem (n : Nat) (live : List Addr) : bumpMalloc n live ∉ live := by
  have hle : ∀ a ∈ live, a ≤ live.foldr max 0 := by
    intro a ha
    induction live with
    | nil => cases ha
    | cons b live ih =>
      rw [List.foldr_cons]
      rcases List.mem_cons.mp ha with rfl | ha
      · exact le_max_left _ _
      · exact (ih ha).trans (le_max_right _ _)
  intro hmem
  exact absurd (hle _ hmem) (Nat.not_succ_le_self _)

/-- A community for two views and for one that covers them, a user, and the community unregistered. -/
def sampleViewOps : List ViewOp :=
  [.unreg .community [112] .read, .reg .community [1, 3] [112] .write, .reg .user [1, 3, 6] [117] .read,
    .reg .community [1, 3, 7] [112] .read, .reg .community [1, 3, 6] [112] .write]

def sampleViewHeap : ViewHeap :=
  match ViewHeap.run bumpMalloc 4 sampleViewOps with
  | .ok H => H
  | _ => .empty

lemma sampleViewHeap_run : ViewHeap.run bumpMalloc 4 sampleViewOps = .ok sampleViewHeap := by
  rfl

theorem viewHeap_refines_sample : ViewHeap.run bumpMalloc 4 sampleViewOps ≠ .crash ∧
    Traced.Same (fun H s => ∃ G, Shape H G ∧ H.views G = s ∧ ViewRun sampleViewOps s)
      (ViewHeap.run bumpMalloc 4 sampleViewOps) (MibViews.run 4 sampleViewOps) :=
  viewHeap_refines bumpMalloc_notMem 4 sampleViewOps

end SmartSnmp
