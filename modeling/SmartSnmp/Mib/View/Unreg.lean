import SmartSnmp.Mib.View.Canonical

/-!
# Unregistration

`mib_community_unreg` and `mib_user_unreg` on every state that a run reaches, whatever the
sub-identifiers of the registrations. An entry keeps a read view as long as it exists, and the loop
does not leave an entry of the name before both of its lists are empty: so an unregistration for
write returns only if the name has no entry.
-/

namespace SmartSnmp

open PrefixOrder

/-! ### The loop -/

section Loop

variable {name : List UInt8} {attr : MibAcesAttr}

/-- The loop returns if it empties every entry of the name. -/
lemma entryUnregLoop_returns {entries : List ViewEntry}
    (h : ∀ e ∈ entries, e.name = name → attr = .read ∨ e.roViews = []) {fuel : Nat}
    (hfuel : entries.length < fuel) :
    entryUnregLoop name attr fuel entries = .ok (entries.filter fun e => e.name ≠ name) := by
  induction entries generalizing fuel with
  | nil =>
    obtain ⟨fuel, rfl⟩ : ∃ n, fuel = n + 1 := ⟨fuel - 1, by simp at hfuel; omega⟩
    rfl
  | cons e entries ih =>
    obtain ⟨fuel, rfl⟩ : ∃ n, fuel = n + 1 := ⟨fuel - 1, by simp at hfuel; omega⟩
    have hrest := ih (fun e' he' => h e' (List.mem_cons_of_mem e he')) (Nat.lt_of_succ_lt_succ hfuel)
    rw [entryUnregLoop]
    by_cases hname : e.name = name
    · have hempty : (e.clear attr).roViews = [] ∧ (e.clear attr).rwViews = [] := by
        rcases h e List.mem_cons_self hname with rfl | hro
        · exact ⟨rfl, rfl⟩
        · exact ⟨by simp [ViewEntry.clear, hro], rfl⟩
      simp only [if_pos hname, if_pos hempty]
      rw [hrest]
      simp [hname]
    · rw [if_neg hname, hrest]
      simp [hname]

/-- An entry of the name that keeps a read view holds the loop forever. -/
lemma entryUnregLoop_stays {entries : List ViewEntry} {e : ViewEntry} (he : e ∈ entries)
    (hname : e.name = name) (hattr : attr ≠ .read) (hro : e.roViews ≠ []) (fuel : Nat) :
    entryUnregLoop name attr fuel entries = .fuel := by
  cases hrun : entryUnregLoop name attr fuel entries with
  | fuel => rfl
  | ok entries' =>
    rcases (entryUnregLoop_ok hrun).2 e he hname with h | h
    · exact absurd h hattr
    · exact absurd h hro
  | crash =>
    exfalso
    clear he
    induction fuel generalizing entries with
    | zero => cases hrun
    | succ fuel ih =>
      cases entries with
      | nil => cases hrun
      | cons a entries =>
        simp only [entryUnregLoop] at hrun
        split_ifs at hrun
        · exact ih hrun
        · exact ih hrun
        · cases hrest : entryUnregLoop name attr fuel entries with
          | ok entries' => rw [hrest] at hrun; cases hrun
          | crash => exact ih hrest
          | fuel => rw [hrest] at hrun; cases hrun

end Loop

/-! ### The states of a run -/

/-- What the registrations keep of an entry. -/
structure ViewEntry.Ok (e : ViewEntry) : Prop where
  prefixFree : ∀ attr, PrefixFree (e.views attr)
  readable : e.roViews ≠ []

structure EntriesFree (entries : List ViewEntry) : Prop where
  nodup : (entries.map ViewEntry.name).Nodup
  ok : ∀ e ∈ entries, e.Ok

lemma viewInsert_ne_nil (oid : Oid) {views : List Oid} (hfree : PrefixFree views) :
    viewInsert oid views ≠ [] := by
  by_cases hcov : ∃ v ∈ views, v <+: oid
  · obtain ⟨v, hv, hvo⟩ := hcov
    simpa [viewInsert, viewFilter_of_covered hfree hv hvo] using List.ne_nil_of_mem hv
  · push Not at hcov
    simp only [viewInsert, viewFilter_of_not_covered hcov, Bool.false_eq_true, if_false]
    exact List.ne_nil_of_mem ((viewAdd_perm oid _).mem_iff.mpr List.mem_cons_self)

namespace EntriesFree

variable {entries : List ViewEntry}

lemma reg (h : EntriesFree entries) (oid : Oid) (name : List UInt8) (attr : MibAcesAttr)
    (mibViews : List Oid) : EntriesFree (entryReg oid name attr mibViews entries).2 := by
  obtain ⟨old, _, hold, hnd, hmem⟩ := entryReg_snd oid name attr mibViews h.nodup
  have hfree : ∀ a, PrefixFree (old.views a) := by
    rcases hold with hold | ⟨_, rfl⟩
    · exact (h.ok old hold).prefixFree
    · intro a
      cases a <;> exact .nil
  refine ⟨hnd, ?_⟩
  intro e he
  rcases (hmem e).mp he with rfl | ⟨he, _⟩
  · rw [entryBind_snd]
    refine ⟨fun a => ?_, viewInsert_ne_nil oid (hfree .read)⟩
    cases a with
    | read => exact viewInsert_prefixFree (hfree .read)
    | write =>
      show PrefixFree (if attr = .write then viewInsert oid old.rwViews else old.rwViews)
      split_ifs
      · exact viewInsert_prefixFree (hfree .write)
      · exact hfree .write
  · exact h.ok e he

lemma unreg (h : EntriesFree entries) {name : List UInt8} {attr : MibAcesAttr} {fuel : Nat}
    {entries' : List ViewEntry} (hloop : entryUnregLoop name attr fuel entries = .ok entries') :
    EntriesFree entries' := by
  obtain ⟨rfl, _⟩ := entryUnregLoop_ok hloop
  refine ⟨h.nodup.sublist (List.filter_sublist.map _), ?_⟩
  intro e he
  exact h.ok e (List.mem_of_mem_filter he)

end EntriesFree

/-- What a call does to the entries of one kind: a registration, an unregistration that returns, or
nothing. -/
lemma ViewStep.entries_cases {s s' : MibViews} {op : ViewOp} (h : ViewStep s op s')
    (holder : Holder) :
    s'.entries holder = s.entries holder ∨
      (∃ oid name attr, s'.entries holder =
        (entryReg oid name attr s.mibViews (s.entries holder)).2) ∨
      ∃ name attr fuel, entryUnregLoop name attr fuel (s.entries holder) =
        .ok (s'.entries holder) := by
  cases h with
  | communityReg oid name attr =>
    cases holder with
    | community => exact .inr (.inl ⟨oid, name, attr, rfl⟩)
    | user => exact .inl rfl
  | userReg oid name attr =>
    cases holder with
    | community => exact .inl rfl
    | user => exact .inr (.inl ⟨oid, name, attr, rfl⟩)
  | communityUnreg hrun =>
    obtain ⟨communities, hloop, rfl⟩ := mibCommunityUnreg_ok hrun
    cases holder with
    | community => exact .inr (.inr ⟨_, _, _, hloop⟩)
    | user => exact .inl rfl
  | userUnreg hrun =>
    obtain ⟨users, hloop, rfl⟩ := mibUserUnreg_ok hrun
    cases holder with
    | community => exact .inl rfl
    | user => exact .inr (.inr ⟨_, _, _, hloop⟩)

/-- The entries of communities or of users along a run. -/
lemma ViewRun.entriesFree {ops : List ViewOp} {s : MibViews} (h : ViewRun ops s)
    (holder : Holder) : EntriesFree (s.entries holder) := by
  induction h with
  | nil => cases holder <;> exact ⟨List.nodup_nil, by simp [MibViews.entries, MibViews.empty]⟩
  | snoc _ hop ih =>
    rcases hop.entries_cases holder with heq | ⟨oid, name, attr, heq⟩ | ⟨name, attr, fuel, hloop⟩
    · rwa [heq]
    · rw [heq]
      exact ih.reg oid name attr _
    · exact ih.unreg hloop

/-! ### Unregistrations -/

/-- `mib_community_unreg` or `mib_user_unreg`. -/
def MibViews.unreg (s : MibViews) : Holder → List UInt8 → MibAcesAttr → Nat → Outcome MibViews
  | .community => mibCommunityUnreg s
  | .user => mibUserUnreg s

/-- What an unregistration is to leave of a state: the entry of the name has no write views, and no
read views if the attribute is read; it is gone exactly if both of its lists are empty; everything
else stays. -/
structure Unregistered (s : MibViews) (holder : Holder) (name : List UInt8) (attr : MibAcesAttr)
    (s' : MibViews) : Prop where
  write : ∀ e ∈ s'.entries holder, e.name = name → e.rwViews = []
  read : attr = .read → ∀ e ∈ s'.entries holder, e.name = name → e.roViews = []
  gone : ∀ e ∈ s.entries holder, e.name = name →
    ((∀ e' ∈ s'.entries holder, e'.name ≠ name) ↔ attr = .read ∨ e.roViews = [])
  others : (s'.entries holder).filter (fun e => e.name ≠ name) =
    (s.entries holder).filter fun e => e.name ≠ name
  views : s'.mibViews = s.mibViews
  frame : ∀ other ≠ holder, s'.entries other = s.entries other

lemma MibViews.unreg_eq (s : MibViews) (holder : Holder) (name : List UInt8) (attr : MibAcesAttr)
    (fuel : Nat) {entries : List ViewEntry}
    (h : entryUnregLoop name attr fuel (s.entries holder) = .ok entries) :
    ∃ s', s.unreg holder name attr fuel = .ok s' ∧ s'.entries holder = entries ∧
      s'.mibViews = s.mibViews ∧ ∀ other ≠ holder, s'.entries other = s.entries other := by
  cases holder with
  | community =>
    refine ⟨{ s with mibCommunities := entries }, ?_, rfl, rfl, ?_⟩
    · have hloop : entryUnregLoop name attr fuel s.mibCommunities = .ok entries := h
      simp only [MibViews.unreg, mibCommunityUnreg, hloop]
    · rintro (_ | _) hne
      · exact absurd rfl hne
      · rfl
  | user =>
    refine ⟨{ s with mibUsers := entries }, ?_, rfl, rfl, ?_⟩
    · have hloop : entryUnregLoop name attr fuel s.mibUsers = .ok entries := h
      simp only [MibViews.unreg, mibUserUnreg, hloop]
    · rintro (_ | _) hne
      · rfl
      · exact absurd rfl hne

lemma MibViews.unreg_ok {s s' : MibViews} {holder : Holder} {name : List UInt8} {attr : MibAcesAttr}
    {fuel : Nat} (h : s.unreg holder name attr fuel = .ok s') :
    entryUnregLoop name attr fuel (s.entries holder) = .ok (s'.entries holder) := by
  cases holder with
  | community =>
    obtain ⟨communities, hloop, rfl⟩ := mibCommunityUnreg_ok h
    exact hloop
  | user =>
    obtain ⟨users, hloop, rfl⟩ := mibUserUnreg_ok h
    exact hloop

/-- In every state of a run an unregistration returns, with the effect it is to have, exactly if it
is for read or the name has no entry. -/
theorem unreg_returns_iff {ops : List ViewOp} {s : MibViews} (h : ViewRun ops s) (holder : Holder)
    (name : List UInt8) (attr : MibAcesAttr) :
    (∃ fuel s', s.unreg holder name attr fuel = .ok s' ∧ Unregistered s holder name attr s') ↔
      attr = .read ∨ ∀ e ∈ s.entries holder, e.name ≠ name := by
  constructor
  · rintro ⟨fuel, s', hrun, -⟩
    by_contra hnot
    push Not at hnot
    obtain ⟨hattr, e, he, hname⟩ := hnot
    rcases (entryUnregLoop_ok (MibViews.unreg_ok hrun)).2 e he hname with hread | hro
    · exact hattr hread
    · exact ((h.entriesFree holder).ok e he).readable hro
  · intro hcond
    have hempty : ∀ e ∈ s.entries holder, e.name = name → attr = .read ∨ e.roViews = [] :=
      fun e he hname => hcond.imp_right fun hno => absurd hname (hno e he)
    have hloop := entryUnregLoop_returns hempty (Nat.lt_succ_self (s.entries holder).length)
    obtain ⟨s', hrun, hentries, hviews, hframe⟩ := s.unreg_eq holder name attr _ hloop
    have hgone : ∀ e ∈ s'.entries holder, e.name ≠ name := by
      intro e he
      rw [hentries] at he
      simpa using (List.mem_filter.mp he).2
    refine ⟨_, s', hrun, ?_, ?_, ?_, ?_, hviews, hframe⟩
    · exact fun e he hname => absurd hname (hgone e he)
    · exact fun _ e he hname => absurd hname (hgone e he)
    · exact fun e he hname => iff_of_true hgone (hempty e he hname)
    · rw [hentries, List.filter_filter]
      simp

/-- A community that may write, another one, and a user of the name of the first, the last one first. -/
def threeEntries : List ViewOp :=
  [.reg .user [3] [112] .read, .reg .community [2] [113] .read, .reg .community [1] [112] .write]

/-- The first community is unregistered for read, and the other entries stay. -/
theorem unreg_returns_iff_threeEntries : ∃ s, ViewRun threeEntries s ∧
    s.entries .community = [⟨[113], [[2]], []⟩, ⟨[112], [[1]], [[1]]⟩] ∧
    ∃ fuel s', s.unreg .community [112] .read fuel = .ok s' ∧
      Unregistered s .community [112] .read s' ∧
      s'.entries .community = [⟨[113], [[2]], []⟩] ∧ s'.entries .user = [⟨[112], [[3]], []⟩] := by
  have hrun : ViewRun threeEntries _ := .snoc (.snoc (.snoc .nil (.communityReg .empty [1] [112] .write))
    (.communityReg _ [2] [113] .read)) (.userReg _ [3] [112] .read)
  refine ⟨_, hrun, by decide, ?_⟩
  obtain ⟨fuel, s', hunreg, hs'⟩ := (unreg_returns_iff hrun .community [112] .read).mpr (.inl rfl)
  refine ⟨fuel, s', hunreg, hs', ?_, (hs'.frame .user (by decide)).trans (by decide)⟩
  have hgone := (hs'.gone ⟨[112], [[1]], [[1]]⟩ (by decide) rfl).mpr (.inl rfl)
  have hall : (s'.entries .community).filter (fun e => e.name ≠ [112]) = s'.entries .community :=
    List.filter_eq_self.mpr fun e he => decide_eq_true (hgone e he)
  rw [← hall, hs'.others]
  decide

lemma MibViews.unreg_fuel {s : MibViews} {holder : Holder} {name : List UInt8} {attr : MibAcesAttr}
    {fuel : Nat} (h : entryUnregLoop name attr fuel (s.entries holder) = .fuel) :
    s.unreg holder name attr fuel = .fuel := by
  cases holder with
  | community =>
    have hloop : entryUnregLoop name attr fuel s.mibCommunities = .fuel := h
    simp only [MibViews.unreg, mibCommunityUnreg, hloop]
  | user =>
    have hloop : entryUnregLoop name attr fuel s.mibUsers = .fuel := h
    simp only [MibViews.unreg, mibUserUnreg, hloop]

/-- A community that is registered for a view is never unregistered for write. -/
theorem unreg_hangs : ∃ ops s, ViewRun ops s ∧
    ∀ fuel, s.unreg .community [112] .write fuel = .fuel := by
  refine ⟨_, _, .snoc .nil (.communityReg .empty [1] [112] .write), fun fuel => ?_⟩
  have hmem : ViewEntry.mk [112] [[1]] [[1]] ∈
      (mibCommunityReg .empty [1] [112] .write).entries .community := by decide
  exact MibViews.unreg_fuel (entryUnregLoop_stays hmem rfl (by decide) (by decide) fuel)

end SmartSnmp
