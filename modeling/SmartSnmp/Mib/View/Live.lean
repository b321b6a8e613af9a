import SmartSnmp.Mib.View.Refine

/-!
# The records in use

Every record that is allocated is a view, a community or user, or a binding of one of its lists, and
each is counted once. So the number of records follows from the lists of OIDs.
-/

namespace SmartSnmp

open Links

/-- The records of a community or user. -/
def ViewEntry.records (e : ViewEntry) : Nat := 1 + e.roViews.length + e.rwViews.length

/-- The records of the views, and of the communities and users. -/
def MibViews.records (s : MibViews) : Nat :=
  s.mibViews.length + ((s.mibCommunities ++ s.mibUsers).map ViewEntry.records).sum

namespace Shape

variable {H : ViewHeap} {G : Ghost} {holder : Holder} {a c : Addr}

/-- A community or user and the bindings of its lists. -/
def recordsOf (G : Ghost) (holder : Holder) (c : Addr) : List Addr :=
  c :: (G.bound (holder, .read, c) ++ G.bound (holder, .write, c))

/-- What is reached from the list of the communities or users. -/
def reached (H : ViewHeap) (G : Ghost) (holder : Holder) : List Addr :=
  (H.holders holder).flatMap (recordsOf G holder)

lemma mem_recordsOf : a ∈ recordsOf G holder c ↔ a = c ∨ ∃ attr, a ∈ G.bound (holder, attr, c) := by
  rw [recordsOf, List.mem_cons, List.mem_append]
  refine or_congr Iff.rfl ⟨?_, ?_⟩
  · rintro (ha | ha)
    · exact ⟨_, ha⟩
    · exact ⟨_, ha⟩
  · rintro ⟨_ | _, ha⟩
    · exact .inl ha
    · exact .inr ha

lemma has_binding (h : Shape H G) (hc : c ∈ H.holders holder) {attr : MibAcesAttr}
    (ha : a ∈ G.bound (holder, attr, c)) : H.Has (.binding holder) a := by
  obtain ⟨v, -, hbind, -⟩ := h.bound hc ha
  simp [ViewHeap.Has, hbind]

lemma has_holder (h : Shape H G) (hc : c ∈ H.holders holder) : H.Has (.holder holder) c :=
  (h.name holder c).mpr hc

lemma nodup_recordsOf (h : Shape H G) (hc : c ∈ H.holders holder) : (recordsOf G holder c).Nodup := by
  rw [recordsOf, List.nodup_cons, List.nodup_append]
  refine ⟨fun hmem => ?_, h.nodup_bound hc .read, h.nodup_bound hc .write, ?_⟩
  · obtain ⟨attr, hb⟩ : ∃ attr, c ∈ G.bound (holder, attr, c) :=
      (List.mem_append.mp hmem).elim (fun hb => ⟨_, hb⟩) fun hb => ⟨_, hb⟩
    cases h.one (h.has_holder hc) (h.has_binding hc hb)
  · rintro b hb b' hb' rfl
    cases (h.bound_unique hc hb hc hb').1

lemma nodup_reached (h : Shape H G) (holder : Holder) : (reached H G holder).Nodup := by
  refine List.nodup_flatMap.mpr ⟨fun c hc => h.nodup_recordsOf hc, ?_⟩
  refine (h.nodup_holders holder).imp_of_mem fun {c c'} hc hc' hne a ha ha' => ?_
  -- a record of two of them would be of two kinds, or a binding of two lists
  rcases mem_recordsOf.mp ha with rfl | ⟨attr, hb⟩ <;> rcases mem_recordsOf.mp ha' with rfl | ⟨attr', hb'⟩
  · exact hne rfl
  · cases h.one (h.has_holder hc) (h.has_binding hc' hb')
  · cases h.one (h.has_holder hc') (h.has_binding hc hb)
  · exact hne (h.bound_unique hc hb hc' hb').2

lemma mem_reached (h : Shape H G) :
    a ∈ reached H G holder ↔ H.Has (.holder holder) a ∨ H.Has (.binding holder) a := by
  rw [reached, List.mem_flatMap]
  constructor
  · rintro ⟨c, hc, ha⟩
    rcases mem_recordsOf.mp ha with rfl | ⟨attr, hb⟩
    · exact .inl (h.has_holder hc)
    · exact .inr (h.has_binding hc hb)
  · rintro (ha | ha)
    · exact ⟨a, (h.name holder a).mp ha, mem_recordsOf.mpr (.inl rfl)⟩
    · obtain ⟨cv, hbind⟩ := Option.ne_none_iff_exists'.mp ha
      obtain ⟨hc, attr, hb⟩ := h.binding hbind
      exact ⟨_, hc, mem_recordsOf.mpr (.inr ⟨attr, hb⟩)⟩

/-- Nothing is allocated but what the lists reach. -/
lemma live_perm (h : Shape H G) :
    H.live.Perm (H.mibViews ++ (reached H G .community ++ reached H G .user)) := by
  refine (List.perm_ext_iff_of_nodup h.nodup_live ?_).mpr fun a => ?_
  · rw [List.nodup_append, List.nodup_append]
    refine ⟨h.nodup_mibViews, ⟨h.nodup_reached .community, h.nodup_reached .user, ?_⟩, ?_⟩
    · rintro a ha _ ha' rfl
      rcases h.mem_reached.mp ha with hk | hk <;> rcases h.mem_reached.mp ha' with hk' | hk' <;>
        cases h.one hk hk'
    · rintro v hv _ ha rfl
      have hview : H.Has .view v := (h.oid v).mpr hv
      rcases List.mem_append.mp ha with ha | ha <;> rcases h.mem_reached.mp ha with hk | hk <;>
        cases h.one hview hk
  · rw [h.live, List.mem_append, List.mem_append, h.mem_reached, h.mem_reached, ← h.oid]
    constructor
    · rintro ⟨_ | (_ | _) | (_ | _), ha⟩
      · exact .inl ha
      · exact .inr (.inl (.inl ha))
      · exact .inr (.inr (.inl ha))
      · exact .inr (.inl (.inr ha))
      · exact .inr (.inr (.inr ha))
    · rintro (ha | (ha | ha) | ha | ha)
      · exact ⟨.view, ha⟩
      · exact ⟨_, ha⟩
      · exact ⟨_, ha⟩
      · exact ⟨_, ha⟩
      · exact ⟨_, ha⟩

lemma length_reached (H : ViewHeap) (G : Ghost) (holder : Holder) :
    (reached H G holder).length = ((H.entriesOf G holder).map ViewEntry.records).sum := by
  rw [reached, List.length_flatMap, ViewHeap.entriesOf, List.map_map]
  refine congrArg List.sum (List.map_congr_left fun c _ => ?_)
  simp [recordsOf, ViewEntry.records, ViewHeap.entryOf, ViewHeap.oidsOf]
  omega

lemma length_live (h : Shape H G) : H.live.length = (H.views G).records := by
  rw [h.live_perm.length_eq, List.length_append, List.length_append, length_reached, length_reached,
    MibViews.records, List.map_append, List.sum_append]
  simp [ViewHeap.views, ViewHeap.viewOids]

end Shape

/-- After any calls that return, the records in use are one for each view, one for each community and
user and one for each member of their lists: none is lost and none is freed twice. -/
theorem viewHeap_live {malloc : Nat → List Addr → Addr} (hmalloc : ∀ n live, malloc n live ∉ live) {fuel : Nat}
    {ops : List ViewOp} {H : ViewHeap} (hrun : ViewHeap.run malloc fuel ops = .ok H) :
    ∃ s, MibViews.run fuel ops = .ok s ∧ H.live.Nodup ∧ H.live.length = s.records := by
  have hsame := ViewHeap.run_same hmalloc fuel ops
  rw [hrun] at hsame
  generalize hs : MibViews.run fuel ops = o at hsame
  cases hsame with
  | ok hok =>
    obtain ⟨G, h, rfl, -⟩ := hok
    exact ⟨_, rfl, h.nodup_live, h.length_live⟩

theorem viewHeap_live_sample : ∃ s, MibViews.run 4 sampleViewOps = .ok s ∧
    sampleViewHeap.live.Nodup ∧ sampleViewHeap.live.length = s.records :=
  viewHeap_live bumpMalloc_notMem sampleViewHeap_run

end SmartSnmp
