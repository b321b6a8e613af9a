import Mathlib.Data.List.Perm.Basic
import SmartSnmp.Mib.View.Heap

/-!
# The shape of the records

Which bindings are in which lists of a heap of views, and what that says about its pointers. The
communities and users with their lists of OIDs are read off the shape.
-/

namespace SmartSnmp

open Links

/-- A list of a community or a user. -/
abbrev ListKey := Holder × MibAcesAttr × Addr

/-- The bindings in the order of the lists of the communities and users, and of the lists of the
views. -/
structure Ghost where
  bound : ListKey → List Addr
  seen : Holder × Addr → List Addr

/-- Other bindings in one list of each sort. -/
def Ghost.rebind (G : Ghost) (k : ListKey) (bs : List Addr) (m : Holder × Addr) (cs : List Addr) :
    Ghost := ⟨Function.update G.bound k bs, Function.update G.seen m cs⟩

/-- The kinds of records. -/
inductive RecordKind where
  | view
  | holder (holder : Holder)
  | binding (holder : Holder)

/-- The kind of the record that a node is a member of. -/
def ViewNode.kind : ViewNode → RecordKind
  | .members _ _ => .view
  | .views holder _ _ => .holder holder
  | .vlink holder _ => .binding holder
  | .link holder _ => .binding holder

def ViewNode.record : ViewNode → Addr
  | .members _ v => v
  | .views _ _ c => c
  | .vlink _ b => b
  | .link _ b => b

namespace ViewHeap

/-- There is a record of the kind at the address. -/
def Has (H : ViewHeap) : RecordKind → Addr → Prop
  | .view, a => H.oid a ≠ none
  | .holder holder, a => H.name (holder, a) ≠ none
  | .binding holder, a => H.binding (holder, a) ≠ none

/-- The rings of a heap. -/
def ringsOf (H : ViewHeap) (G : Ghost) : ViewNode → Option (List ViewNode)
  | .views holder attr c =>
    if c ∈ H.holders holder then some ((G.bound (holder, attr, c)).map (.link holder)) else none
  | .members holder v => if v ∈ H.mibViews then some ((G.seen (holder, v)).map (.vlink holder)) else none
  | .vlink _ _ => none
  | .link _ _ => none

/-- The OID of the view of a binding. -/
def oidOf (H : ViewHeap) (holder : Holder) (b : Addr) : Oid :=
  ((H.binding (holder, b)).bind fun cv => H.oid cv.view).getD []

/-- The OIDs of a list of a community or a user. -/
def oidsOf (H : ViewHeap) (G : Ghost) (k : ListKey) : List Oid := (G.bound k).map (H.oidOf k.1)

def entryOf (H : ViewHeap) (G : Ghost) (holder : Holder) (c : Addr) : ViewEntry :=
  ⟨(H.name (holder, c)).getD [], H.oidsOf G (holder, .read, c), H.oidsOf G (holder, .write, c)⟩

/-- The communities or the users that a heap stands for. -/
def entriesOf (H : ViewHeap) (G : Ghost) (holder : Holder) : List ViewEntry :=
  (H.holders holder).map (H.entryOf G holder)

/-- The OIDs of all views. -/
def viewOids (H : ViewHeap) : List Oid := H.mibViews.map fun v => (H.oid v).getD []

end ViewHeap

/-- The lists of OIDs that may have changed meet a condition. -/
structure Frame (H : ViewHeap) (G : Ghost) (H' : ViewHeap) (G' : Ghost) (P : ListKey → Prop) :
    Prop where
  holders : H'.holders = H.holders
  name : H'.name = H.name
  oids : ∀ k, ¬ P k → k.2.2 ∈ H.holders k.1 → H'.oidsOf G' k = H.oidsOf G k

lemma Frame.refl (H : ViewHeap) (G : Ghost) (P : ListKey → Prop) : Frame H G H G P :=
  ⟨rfl, rfl, fun _ _ _ => rfl⟩

lemma Frame.trans {H₁ H₂ H₃ : ViewHeap} {G₁ G₂ G₃ : Ghost} {P Q : ListKey → Prop}
    (h : Frame H₁ G₁ H₂ G₂ P) (h' : Frame H₂ G₂ H₃ G₃ Q) :
    Frame H₁ G₁ H₃ G₃ fun k => P k ∨ Q k := by
  refine ⟨h'.holders.trans h.holders, h'.name.trans h.name, fun k hk hmem => ?_⟩
  rw [not_or] at hk
  rw [h'.oids k hk.2 (by rw [h.holders]; exact hmem), h.oids k hk.1 hmem]

lemma Frame.mono {H H' : ViewHeap} {G G' : Ghost} {P Q : ListKey → Prop} (h : Frame H G H' G' P)
    (hPQ : ∀ k, P k → Q k) : Frame H G H' G' Q :=
  ⟨h.holders, h.name, fun k hk hmem => h.oids k (fun hp => hk (hPQ k hp)) hmem⟩

/-- A record that is allocated is of one kind, and every node is a member of a record. -/
structure Records (H : ViewHeap) : Prop where
  links : ∀ n, H.links n ≠ none → H.Has n.kind n.record
  live : ∀ a, a ∈ H.live ↔ ∃ kind, H.Has kind a
  one : ∀ {kind kind' a}, H.Has kind a → H.Has kind' a → kind = kind'
  nodup_live : H.live.Nodup

namespace Records

variable {H H' : ViewHeap} {kind : RecordKind} {a : Addr}

/-- A record is created at an address that is not in use. -/
lemma alloc (h : Records H) (ha : a ∉ H.live)
    (hhas : ∀ kind' a', H'.Has kind' a' ↔ H.Has kind' a' ∨ kind' = kind ∧ a' = a)
    (hlive : H'.live = a :: H.live)
    (hlinks : ∀ n, H'.links n ≠ none → H.links n ≠ none ∨ n.kind = kind ∧ n.record = a) :
    Records H' := by
  have hfresh : ∀ kind', ¬ H.Has kind' a := fun kind' hk => ha ((h.live a).mpr ⟨kind', hk⟩)
  refine ⟨fun n hn => (hhas _ _).mpr ((hlinks n hn).imp_left (h.links n)), fun a' => ?_, ?_, ?_⟩
  · simp only [hlive, List.mem_cons, hhas, h.live, exists_or, exists_and_right, exists_eq, true_and]
    exact or_comm
  · intro kind₁ kind₂ a' h₁ h₂
    rcases (hhas _ _).mp h₁ with h₁ | ⟨rfl, rfl⟩ <;> rcases (hhas _ _).mp h₂ with h₂ | ⟨rfl, h₂⟩
    · exact h.one h₁ h₂
    · exact absurd (h₂ ▸ h₁) (hfresh _)
    · exact absurd h₂ (hfresh _)
    · rfl
  · rw [hlive]
    exact List.nodup_cons.mpr ⟨ha, h.nodup_live⟩

/-- A record is freed. -/
lemma free (h : Records H) (ha : H.Has kind a)
    (hhas : ∀ kind' a', H'.Has kind' a' ↔ H.Has kind' a' ∧ ¬ (kind' = kind ∧ a' = a))
    (hlive : H'.live = H.live.erase a)
    (hlinks : ∀ n, H'.links n ≠ none → H.links n ≠ none ∧ ¬ (n.kind = kind ∧ n.record = a)) :
    Records H' := by
  refine ⟨fun n hn => (hhas _ _).mpr ((hlinks n hn).imp_left (h.links n)), fun a' => ?_, ?_, ?_⟩
  · rw [hlive, h.nodup_live.mem_erase_iff, h.live]
    constructor
    · rintro ⟨hne, kind', hk⟩
      exact ⟨kind', (hhas _ _).mpr ⟨hk, fun heq => hne heq.2⟩⟩
    · rintro ⟨kind', hk⟩
      obtain ⟨hk, hnot⟩ := (hhas _ _).mp hk
      refine ⟨?_, kind', hk⟩
      rintro rfl
      exact hnot ⟨h.one hk ha, rfl⟩
  · intro kind₁ kind₂ a' h₁ h₂
    exact h.one ((hhas _ _).mp h₁).1 ((hhas _ _).mp h₂).1
  · rw [hlive]
    exact h.nodup_live.erase a

end Records

/-- Every pointer goes to a record that is there, each binding is in one list of its community or user
and in the list of its view, and there are no other records. -/
structure Shape (H : ViewHeap) (G : Ghost) : Prop extends Records H where
  rings : H.links.Rings (H.ringsOf G)
  bound : ∀ {holder attr c b}, c ∈ H.holders holder → b ∈ G.bound (holder, attr, c) →
    ∃ v ∈ H.mibViews, H.binding (holder, b) = some ⟨v, c⟩ ∧ b ∈ G.seen (holder, v)
  seen : ∀ {holder v b}, v ∈ H.mibViews → b ∈ G.seen (holder, v) →
    ∃ c, H.binding (holder, b) = some ⟨v, c⟩
  binding : ∀ {holder b cv}, H.binding (holder, b) = some cv →
    cv.holder ∈ H.holders holder ∧ ∃ attr, b ∈ G.bound (holder, attr, cv.holder)
  oid : ∀ v, H.oid v ≠ none ↔ v ∈ H.mibViews
  oid_inj : ∀ {v v' o}, H.oid v = some o → H.oid v' = some o → v = v'
  name : ∀ holder c, H.name (holder, c) ≠ none ↔ c ∈ H.holders holder
  nodup_mibViews : H.mibViews.Nodup
  nodup_holders : ∀ holder, (H.holders holder).Nodup

namespace Shape

variable {H : ViewHeap} {G : Ghost} {holder : Holder} {attr : MibAcesAttr} {c v b : Addr}
  {us vs : List Addr}

lemma ringsOf_views (hc : c ∈ H.holders holder) (G : Ghost) (attr : MibAcesAttr) :
    H.ringsOf G (.views holder attr c) = some ((G.bound (holder, attr, c)).map (.link holder)) :=
  if_pos hc

lemma ringsOf_members (hv : v ∈ H.mibViews) (G : Ghost) (holder : Holder) :
    H.ringsOf G (.members holder v) = some ((G.seen (holder, v)).map (.vlink holder)) := if_pos hv

/-- A binding is in one list. -/
lemma bound_unique (h : Shape H G) (hc : c ∈ H.holders holder)
    (hb : b ∈ G.bound (holder, attr, c)) {attr' : MibAcesAttr} {c' : Addr}
    (hc' : c' ∈ H.holders holder) (hb' : b ∈ G.bound (holder, attr', c')) : attr = attr' ∧ c = c' := by
  have heq := h.rings.apart (ringsOf_views hc G attr) (ringsOf_views hc' G attr')
    (List.mem_cons_of_mem _ (List.mem_map_of_mem hb)) (List.mem_cons_of_mem _ (List.mem_map_of_mem hb'))
  simpa using heq

lemma nodup_bound (h : Shape H G) (hc : c ∈ H.holders holder) (attr : MibAcesAttr) :
    (G.bound (holder, attr, c)).Nodup :=
  (List.nodup_cons.mp (h.rings.ring (ringsOf_views hc G attr)).nodup).2.of_map _

lemma nodup_seen (h : Shape H G) (hv : v ∈ H.mibViews) (holder : Holder) :
    (G.seen (holder, v)).Nodup :=
  (List.nodup_cons.mp (h.rings.ring (ringsOf_members hv G holder)).nodup).2.of_map _

/-- The bindings of a list are records. -/
lemma length_bound (h : Shape H G) (hc : c ∈ H.holders holder) (attr : MibAcesAttr) :
    (G.bound (holder, attr, c)).length ≤ H.live.length := by
  refine (List.subperm_of_subset (h.nodup_bound hc attr) fun b hb => ?_).length_le
  obtain ⟨v, -, hbinding, -⟩ := h.bound hc hb
  exact (h.live b).mpr ⟨.binding holder, by simp [ViewHeap.Has, hbinding]⟩

/-! ### A binding is removed -/

/-- The heap after the links of a binding have been deleted and the binding is freed. -/
def unbound (H : ViewHeap) (holder : Holder) (b : Addr) (L : Links ViewNode) : ViewHeap :=
  ViewHeap.freeBinding { H with links := L } holder b

lemma ringsOf_rebind (hc : c ∈ H.holders holder) (hv : v ∈ H.mibViews) (bs cs : List Addr) :
    H.ringsOf (G.rebind (holder, attr, c) bs (holder, v) cs) =
      Function.update (Function.update (H.ringsOf G) (.views holder attr c)
        (some (bs.map (.link holder)))) (.members holder v) (some (cs.map (.vlink holder))) := by
  funext n
  cases n with
  | views holder' attr' c' =>
    rw [Function.update_of_ne (by simp)]
    by_cases heq : (holder', attr', c') = (holder, attr, c)
    · simp only [Prod.mk.injEq] at heq
      obtain ⟨rfl, rfl, rfl⟩ := heq
      simp [ViewHeap.ringsOf, Ghost.rebind, hc]
    · have hne : ViewNode.views holder' attr' c' ≠ .views holder attr c := by simpa using heq
      simp [ViewHeap.ringsOf, Ghost.rebind, Function.update_of_ne heq, Function.update_of_ne hne]
  | members holder' v' =>
    by_cases heq : (holder', v') = (holder, v)
    · simp only [Prod.mk.injEq] at heq
      obtain ⟨rfl, rfl⟩ := heq
      simp [ViewHeap.ringsOf, Ghost.rebind, hv]
    · have hne : ViewNode.members holder' v' ≠ .members holder v := by simpa using heq
      simp [ViewHeap.ringsOf, Ghost.rebind, Function.update_of_ne heq, Function.update_of_ne hne]
  | vlink _ _ => simp [ViewHeap.ringsOf]
  | link _ _ => simp [ViewHeap.ringsOf]

section Unbind

variable {ws zs : List Addr} (h : Shape H G) (hc : c ∈ H.holders holder)
  (hbs : G.bound (holder, attr, c) = us ++ b :: vs) (hb : H.binding (holder, b) = some ⟨v, c⟩)
  (hv : v ∈ H.mibViews) (hseen : G.seen (holder, v) = ws ++ b :: zs)

include h hc hbs

/-- The lists of the communities and users have the other bindings. -/
lemma mem_bound_rebind {holder' : Holder} {attr' : MibAcesAttr} {c' b' : Addr}
    (hc' : c' ∈ H.holders holder') (m : Holder × Addr) (cs : List Addr) :
    b' ∈ (G.rebind (holder, attr, c) (us ++ vs) m cs).bound (holder', attr', c') ↔
      b' ∈ G.bound (holder', attr', c') ∧ (holder', b') ≠ (holder, b) := by
  by_cases heq : (holder', attr', c') = (holder, attr, c)
  · simp only [Prod.mk.injEq] at heq
    obtain ⟨rfl, rfl, rfl⟩ := heq
    have hnodup := hbs ▸ h.nodup_bound hc attr'
    have hnot := (List.nodup_cons.mp (List.nodup_middle.mp hnodup)).1
    simp only [Ghost.rebind, Function.update_self, hbs, ne_eq, Prod.mk.injEq, true_and]
    constructor
    · intro hb'
      exact ⟨by simp_all; tauto, fun hbb => hnot (hbb ▸ hb')⟩
    · rintro ⟨hb', hne⟩
      simp_all
  · simp only [Ghost.rebind, Function.update_of_ne heq]
    refine ⟨fun hb' => ⟨hb', fun hbb => ?_⟩, And.left⟩
    simp only [Prod.mk.injEq] at hbb
    obtain ⟨rfl, rfl⟩ := hbb
    have hmem : b' ∈ G.bound (holder', attr, c) := by simp [hbs]
    obtain ⟨rfl, rfl⟩ := h.bound_unique hc' hb' hc hmem
    exact heq rfl

omit hc hbs

include hb hv hseen

/-- The lists of the views have the other bindings. -/
lemma mem_seen_rebind {holder' : Holder} {v' b' : Addr} (hv' : v' ∈ H.mibViews) (k : ListKey)
    (bs : List Addr) :
    b' ∈ (G.rebind k bs (holder, v) (ws ++ zs)).seen (holder', v') ↔
      b' ∈ G.seen (holder', v') ∧ (holder', b') ≠ (holder, b) := by
  by_cases heq : (holder', v') = (holder, v)
  · simp only [Prod.mk.injEq] at heq
    obtain ⟨rfl, rfl⟩ := heq
    have hnodup := hseen ▸ h.nodup_seen hv holder'
    have hnot := (List.nodup_cons.mp (List.nodup_middle.mp hnodup)).1
    simp only [Ghost.rebind, Function.update_self, hseen, ne_eq, Prod.mk.injEq, true_and]
    constructor
    · intro hb'
      exact ⟨by simp_all; tauto, fun hbb => hnot (hbb ▸ hb')⟩
    · rintro ⟨hb', hne⟩
      simp_all
  · simp only [Ghost.rebind, Function.update_of_ne heq]
    refine ⟨fun hb' => ⟨hb', fun hbb => ?_⟩, And.left⟩
    simp only [Prod.mk.injEq] at hbb
    obtain ⟨rfl, rfl⟩ := hbb
    obtain ⟨c', hb''⟩ := h.seen hv' hb'
    rw [hb] at hb''
    simp only [Option.some.injEq, ViewBinding.mk.injEq] at hb''
    exact heq (by rw [hb''.1])

include hc hbs

/-- A binding whose links are in no ring any more is freed. -/
lemma unbind {L : Links ViewNode} (hrings : L.Rings
      (H.ringsOf (G.rebind (holder, attr, c) (us ++ vs) (holder, v) (ws ++ zs))))
    (hlink : Loose (H.ringsOf (G.rebind (holder, attr, c) (us ++ vs) (holder, v) (ws ++ zs)))
      (.link holder b))
    (hvlink : Loose (H.ringsOf (G.rebind (holder, attr, c) (us ++ vs) (holder, v) (ws ++ zs)))
      (.vlink holder b))
    (halloc : SameAlloc H.links L) :
    Shape (unbound H holder b L) (G.rebind (holder, attr, c) (us ++ vs) (holder, v) (ws ++ zs)) := by
  have hbound : ∀ {holder' attr' c' b'}, c' ∈ H.holders holder' →
      (b' ∈ (G.rebind (holder, attr, c) (us ++ vs) (holder, v) (ws ++ zs)).bound (holder', attr', c') ↔
        b' ∈ G.bound (holder', attr', c') ∧ (holder', b') ≠ (holder, b)) :=
    fun hc' => mem_bound_rebind h hc hbs hc' (holder, v) (ws ++ zs)
  have hsees : ∀ {holder' v' b'}, v' ∈ H.mibViews →
      (b' ∈ (G.rebind (holder, attr, c) (us ++ vs) (holder, v) (ws ++ zs)).seen (holder', v') ↔
        b' ∈ G.seen (holder', v') ∧ (holder', b') ≠ (holder, b)) :=
    fun hv' => mem_seen_rebind h hb hv hseen hv' (holder, attr, c) (us ++ vs)
  have hbinding : ∀ {k}, k ≠ (holder, b) → (unbound H holder b L).binding k = H.binding k :=
    fun hne => Function.update_of_ne hne _ _
  have hfreed : (unbound H holder b L).binding (holder, b) = none := Function.update_self _ _ _
  have hhas : ∀ kind a, (unbound H holder b L).Has kind a ↔
      H.Has kind a ∧ ¬ (kind = .binding holder ∧ a = b) := by
    intro kind a
    cases kind with
    | view => simp [ViewHeap.Has, unbound, ViewHeap.freeBinding]
    | holder _ => simp [ViewHeap.Has, unbound, ViewHeap.freeBinding]
    | binding holder' =>
      by_cases heq : (holder', a) = (holder, b)
      · simp only [Prod.mk.injEq] at heq
        obtain ⟨rfl, rfl⟩ := heq
        simp [ViewHeap.Has, hfreed]
      · have hne : ¬ (holder' = holder ∧ a = b) := by simpa using heq
        simp [ViewHeap.Has, hbinding heq, hne]
  constructor
  · refine h.toRecords.free (show H.Has (.binding holder) b by simp [ViewHeap.Has, hb]) hhas rfl fun n hn => ?_
    have hne : n ≠ .vlink holder b ∧ n ≠ .link holder b ∧ L n ≠ none := by
      simp only [unbound, ViewHeap.freeBinding, Links.free, Function.update_apply] at hn
      split_ifs at hn with hv' hl
      · exact absurd rfl hn
      · exact absurd rfl hn
      · exact ⟨hv', hl, hn⟩
    refine ⟨(halloc n).mp hne.2.2, ?_⟩
    rintro ⟨hkind, hrec⟩
    cases n <;> simp_all [ViewNode.kind, ViewNode.record]
  · exact (hrings.free hlink).free hvlink
  · intro holder' attr' c' b' hc' hb'
    obtain ⟨hb', hne⟩ := (hbound hc').mp hb'
    obtain ⟨v', hv', hbind, hmem⟩ := h.bound hc' hb'
    exact ⟨v', hv', by rw [hbinding hne, hbind], (hsees hv').mpr ⟨hmem, hne⟩⟩
  · intro holder' v' b' hv' hb'
    obtain ⟨hb', hne⟩ := (hsees hv').mp hb'
    obtain ⟨c', hbind⟩ := h.seen hv' hb'
    exact ⟨c', by rw [hbinding hne, hbind]⟩
  · intro holder' b' cv hbind
    have hne : (holder', b') ≠ (holder, b) := by
      intro heq
      rw [heq, hfreed] at hbind
      cases hbind
    rw [hbinding hne] at hbind
    obtain ⟨hc', attr', hmem⟩ := h.binding hbind
    exact ⟨hc', attr', (hbound hc').mpr ⟨hmem, hne⟩⟩
  · exact h.oid
  · exact h.oid_inj
  · exact h.name
  · exact h.nodup_mibViews
  · exact h.nodup_holders

omit hb hv hseen

/-- A binding of a list is in the list of its view. -/
lemma exists_seen : ∃ v ws zs, v ∈ H.mibViews ∧ H.binding (holder, b) = some ⟨v, c⟩ ∧
    G.seen (holder, v) = ws ++ b :: zs := by
  have hmem : b ∈ G.bound (holder, attr, c) := by simp [hbs]
  obtain ⟨v, hv, hb, hseen⟩ := h.bound hc hmem
  obtain ⟨ws, zs, hseen⟩ := List.append_of_mem hseen
  exact ⟨v, ws, zs, hv, hb, hseen⟩

/-- `clink` or `ulink` is deleted, then `vlink`, and the binding is freed. -/
lemma exists_unbind : ∃ L G', ((listDel H.links (.link holder b)).bind fun L =>
      listDel L (.vlink holder b)) = some L ∧ Shape (unbound H holder b L) G' ∧
    G'.bound = Function.update G.bound (holder, attr, c) (us ++ vs) := by
  obtain ⟨v, ws, zs, hv, hb, hseen⟩ := h.exists_seen hc hbs
  have hviews := ringsOf_views hc G attr
  have hmembers := ringsOf_members hv G holder
  rw [hbs, List.map_append, List.map_cons] at hviews
  rw [hseen, List.map_append, List.map_cons] at hmembers
  obtain ⟨L, hdel, hrings, hlink, hvlink, halloc⟩ :=
    rings_listDel₂ h.rings (by simp) hviews hmembers
  rw [← List.map_append, ← List.map_append, ← ringsOf_rebind hc hv] at hrings hlink hvlink
  exact ⟨L, _, hdel, h.unbind hc hbs hb hv hseen hrings hlink hvlink halloc, rfl⟩

/-- The same with `vlink` first. -/
lemma exists_unbind_vlink : ∃ L G', ((listDel H.links (.vlink holder b)).bind fun L =>
      listDel L (.link holder b)) = some L ∧ Shape (unbound H holder b L) G' ∧
    G'.bound = Function.update G.bound (holder, attr, c) (us ++ vs) := by
  obtain ⟨v, ws, zs, hv, hb, hseen⟩ := h.exists_seen hc hbs
  have hviews := ringsOf_views hc G attr
  have hmembers := ringsOf_members hv G holder
  rw [hbs, List.map_append, List.map_cons] at hviews
  rw [hseen, List.map_append, List.map_cons] at hmembers
  obtain ⟨L, hdel, hrings, hvlink, hlink, halloc⟩ :=
    rings_listDel₂ h.rings (by simp) hmembers hviews
  rw [Function.update_comm (by simp), ← List.map_append, ← List.map_append,
    ← ringsOf_rebind hc hv] at hrings hlink hvlink
  exact ⟨L, _, hdel, h.unbind hc hbs hb hv hseen hrings hlink hvlink halloc, rfl⟩

omit h hc hbs in
lemma oidOf_unbound {holder' : Holder} {b' : Addr} (hne : (holder', b') ≠ (holder, b))
    (L : Links ViewNode) : (unbound H holder b L).oidOf holder' b' = H.oidOf holder' b' := by
  have hbinding : (unbound H holder b L).binding (holder', b') = H.binding (holder', b') :=
    Function.update_of_ne hne _ _
  rw [ViewHeap.oidOf, hbinding]
  rfl

lemma frame_unbound {G' : Ghost} (hG : G'.bound = Function.update G.bound (holder, attr, c) (us ++ vs))
    (L : Links ViewNode) : Frame H G (unbound H holder b L) G' (· = (holder, attr, c)) := by
  refine ⟨rfl, rfl, ?_⟩
  rintro ⟨holder', attr', c'⟩ hne hmem
  rw [ViewHeap.oidsOf, hG, Function.update_of_ne hne, ViewHeap.oidsOf]
  refine List.map_congr_left fun b' hb' => oidOf_unbound (fun heq => hne ?_) L
  simp only [Prod.mk.injEq] at heq
  obtain ⟨rfl, rfl⟩ := heq
  have hb : b' ∈ G.bound (holder', attr, c) := by simp [hbs]
  obtain ⟨rfl, rfl⟩ := h.bound_unique hmem hb' hc hb
  rfl

/-- The other bindings of the list keep their OIDs. -/
lemma map_oidOf_unbound (L : Links ViewNode) {bs : List Addr} (hsub : ∀ b' ∈ bs, b' ∈ us ++ vs) :
    bs.map ((unbound H holder b L).oidOf holder) = bs.map (H.oidOf holder) := by
  refine List.map_congr_left fun b' hb' => oidOf_unbound (fun heq => ?_) L
  simp only [Prod.mk.injEq, true_and] at heq
  obtain rfl := heq
  exact (List.nodup_cons.mp (List.nodup_middle.mp (hbs ▸ h.nodup_bound hc attr))).1 (hsub b' hb')

end Unbind

/-! ### Loops over a list -/

/-- The nodes of a list from one of its bindings on. -/
def nodeOf (holder : Holder) (attr : MibAcesAttr) (c : Addr) (bs : List Addr) : ViewNode :=
  (bs.map (.link holder)).headD (.views holder attr c)

/-- The link of a node of a list goes to the next one. -/
lemma nextOf_nodeOf {L : Links ViewNode}
    (hring : L.IsRing (.views holder attr c) ((us ++ vs).map (.link holder))) :
    ∃ y, L.nextOf (nodeOf holder attr c vs) = some y ∧
      ∀ b tl, vs = b :: tl → y = nodeOf holder attr c tl := by
  cases vs with
  | nil => exact ⟨_, hring.nextOf_head, by simp⟩
  | cons b tl =>
    rw [List.map_append, List.map_cons] at hring
    refine ⟨_, hring.nextOf_node, ?_⟩
    rintro _ _ ⟨⟩
    rfl

/-- The ring of a list of bindings. -/
lemma ring_bound (h : Shape H G) (hc : c ∈ H.holders holder) (attr : MibAcesAttr) :
    H.links.IsRing (.views holder attr c) ((G.bound (holder, attr, c)).map (.link holder)) :=
  h.rings.ring (ringsOf_views hc G attr)

lemma entryOid_link (h : Shape H G) (hc : c ∈ H.holders holder) (hb : b ∈ G.bound (holder, attr, c)) :
    H.entryOid holder (.link holder b) = some (H.oidOf holder b) := by
  obtain ⟨v, hv, hbind, -⟩ := h.bound hc hb
  obtain ⟨o, ho⟩ := Option.ne_none_iff_exists'.mp ((h.oid v).mpr hv)
  simp [ViewHeap.entryOid, ViewHeap.linkEntry, ViewHeap.oidOf, hbind, ho]

/-- `community_view_filter` and `user_view_filter` from a binding on. -/
lemma viewFilterLoop (h : Shape H G) (hc : c ∈ H.holders holder)
    (hbs : G.bound (holder, attr, c) = us ++ vs) (oid : Oid) {fuel : Nat} (hfuel : vs.length < fuel)
    {next : ViewNode} (hnext : ∀ b tl, vs = b :: tl → next = nodeOf holder attr c tl) :
    ∃ H' G' vs', ViewHeap.viewFilterLoop holder oid (.views holder attr c) fuel
        (nodeOf holder attr c vs) next H =
          some ((SmartSnmp.viewFilter oid (vs.map (H.oidOf holder))).1, H') ∧
      Shape H' G' ∧ Frame H G H' G' (· = (holder, attr, c)) ∧ H'.viewOids = H.viewOids ∧
      G'.bound (holder, attr, c) = us ++ vs' ∧ us.map (H'.oidOf holder) = us.map (H.oidOf holder) ∧
      vs'.map (H'.oidOf holder) = (SmartSnmp.viewFilter oid (vs.map (H.oidOf holder))).2 := by
  induction vs generalizing H G us fuel next with
  | nil =>
    obtain ⟨fuel, rfl⟩ := Nat.exists_eq_succ_of_ne_zero (Nat.ne_of_gt hfuel)
    exact ⟨H, G, [], by simp [ViewHeap.viewFilterLoop, nodeOf, SmartSnmp.viewFilter], h, .refl H G _,
      rfl, hbs, rfl, rfl⟩
  | cons b tl ih =>
    obtain ⟨fuel, rfl⟩ := Nat.exists_eq_succ_of_ne_zero (Nat.ne_of_gt (Nat.zero_lt_of_lt hfuel))
    have hmem : b ∈ G.bound (holder, attr, c) := by simp [hbs]
    have hentry := h.entryOid_link hc hmem
    obtain rfl := hnext b tl rfl
    have hcurr : nodeOf holder attr c (b :: tl) = .link holder b := rfl
    rw [hcurr, ViewHeap.viewFilterLoop, if_neg (by simp)]
    simp only [Option.bind_eq_bind, hentry, Option.bind_some, List.map_cons, SmartSnmp.viewFilter]
    by_cases hpos : 0 < oidCover (H.oidOf holder b) oid
    · exact ⟨H, G, b :: tl, by simp [hpos], h, .refl H G _, rfl, hbs, rfl, by simp [hpos]⟩
    simp only [hpos, if_false]
    by_cases hneg : oidCover (H.oidOf holder b) oid < 0
    · -- the binding goes
      obtain ⟨L, G₁, hdel, h₁, hG₁⟩ := h.exists_unbind hc hbs
      have hbs₁ : G₁.bound (holder, attr, c) = us ++ tl := by rw [hG₁, Function.update_self]
      obtain ⟨next', hnextOf, hnext'⟩ := nextOf_nodeOf (hbs₁ ▸ h₁.ring_bound hc attr)
      obtain ⟨H', G', vs', hloop, hshape, hframe, hviews, hbs', hus, hvs⟩ :=
        ih h₁ hc hbs₁ (Nat.lt_of_succ_lt_succ hfuel) hnext'
      have hkept : ∀ bs : List Addr, (∀ b' ∈ bs, b' ∈ us ++ tl) →
          bs.map ((unbound H holder b L).oidOf holder) = bs.map (H.oidOf holder) :=
        fun _ => h.map_oidOf_unbound hc hbs L
      rw [hkept tl fun _ => List.mem_append_right us] at hloop hvs
      obtain ⟨L₁, hL₁, hL₂⟩ := Option.bind_eq_some_iff.mp hdel
      have hframe' := ((h.frame_unbound hc hbs hG₁ L).trans hframe).mono fun _ => or_self_iff.mp
      refine ⟨H', G', vs', ?_, hshape, hframe', hviews, hbs',
        hus.trans (hkept us fun _ => List.mem_append_left tl), by simpa [hneg] using hvs⟩
      simp only [hneg, if_true, ViewHeap.linkEntry, Option.bind_some, hL₁, hL₂]
      exact (congrArg (Option.bind · _) hnextOf).trans hloop
    · have hbs₁ : G.bound (holder, attr, c) = (us ++ [b]) ++ tl := by simp [hbs]
      obtain ⟨next', hnextOf, hnext'⟩ := nextOf_nodeOf (hbs₁ ▸ h.ring_bound hc attr)
      obtain ⟨H', G', vs', hloop, hshape, hframe, hviews, hbs', hus, hvs⟩ :=
        ih h hc hbs₁ (Nat.lt_of_succ_lt_succ hfuel) hnext'
      rw [List.map_append, List.map_append, List.map_singleton, List.map_singleton] at hus
      obtain ⟨hus, hb⟩ := List.append_inj' hus rfl
      refine ⟨H', G', b :: vs', ?_, hshape, hframe, hviews, by simp [hbs'], hus, ?_⟩
      · simp only [hneg, if_false, hnextOf, Option.bind_some]
        exact hloop
      · simp [hneg, hvs, List.singleton_inj.mp hb]

lemma viewFilter (h : Shape H G) (hc : c ∈ H.holders holder) (attr : MibAcesAttr) (oid : Oid) :
    ∃ H' G', H.viewFilter holder oid (.views holder attr c) =
        some ((SmartSnmp.viewFilter oid (H.oidsOf G (holder, attr, c))).1, H') ∧
      Shape H' G' ∧ Frame H G H' G' (· = (holder, attr, c)) ∧ H'.viewOids = H.viewOids ∧
      H'.oidsOf G' (holder, attr, c) =
        (SmartSnmp.viewFilter oid (H.oidsOf G (holder, attr, c))).2 := by
  have hring := h.ring_bound hc attr
  have hbs : G.bound (holder, attr, c) = [] ++ G.bound (holder, attr, c) := rfl
  obtain ⟨next, hnextOf, hnext⟩ := nextOf_nodeOf (hbs ▸ hring)
  obtain ⟨H', G', vs, hloop, hshape, hframe, hviews, hbs', -, hvs⟩ :=
    h.viewFilterLoop hc hbs oid (Nat.lt_succ_of_le (h.length_bound hc attr)) hnext
  refine ⟨H', G', ?_, hshape, hframe, hviews, by rw [ViewHeap.oidsOf, hbs']; exact hvs⟩
  rw [ViewHeap.viewFilter, hring.nextOf_head]
  simp only [Option.bind_eq_bind, Option.bind_some]
  exact (congrArg (Option.bind · _) hnextOf).trans hloop

/-- `community_view_remove` and `user_view_remove` from a binding on. -/
lemma viewRemoveLoop (h : Shape H G) (hc : c ∈ H.holders holder)
    (hbs : G.bound (holder, attr, c) = vs) {fuel : Nat} (hfuel : vs.length < fuel)
    {next : ViewNode} (hnext : ∀ b tl, vs = b :: tl → next = nodeOf holder attr c tl) :
    ∃ H' G', ViewHeap.viewRemoveLoop holder (.views holder attr c) fuel (nodeOf holder attr c vs) next
        H = some H' ∧ Shape H' G' ∧ Frame H G H' G' (· = (holder, attr, c)) ∧ H'.viewOids = H.viewOids ∧
      G'.bound (holder, attr, c) = [] := by
  induction vs generalizing H G fuel next with
  | nil =>
    obtain ⟨fuel, rfl⟩ := Nat.exists_eq_succ_of_ne_zero (Nat.ne_of_gt hfuel)
    exact ⟨H, G, by simp [ViewHeap.viewRemoveLoop, nodeOf], h, .refl H G _, rfl, hbs⟩
  | cons b tl ih =>
    obtain ⟨fuel, rfl⟩ := Nat.exists_eq_succ_of_ne_zero (Nat.ne_of_gt (Nat.zero_lt_of_lt hfuel))
    obtain rfl := hnext b tl rfl
    have hbs₀ : G.bound (holder, attr, c) = [] ++ b :: tl := hbs
    obtain ⟨L, G₁, hdel, h₁, hG₁⟩ := h.exists_unbind_vlink hc hbs₀
    have hbs₁ : G₁.bound (holder, attr, c) = tl := by rw [hG₁, Function.update_self, List.nil_append]
    obtain ⟨next', hnextOf, hnext'⟩ :=
      nextOf_nodeOf ((show _ = [] ++ tl from hbs₁) ▸ h₁.ring_bound hc attr)
    obtain ⟨H', G', hloop, hshape, hframe, hviews, hbs'⟩ :=
      ih h₁ hc hbs₁ (Nat.lt_of_succ_lt_succ hfuel) hnext'
    obtain ⟨L₁, hL₁, hL₂⟩ := Option.bind_eq_some_iff.mp hdel
    have hframe' := ((h.frame_unbound hc hbs₀ hG₁ L).trans hframe).mono fun _ => or_self_iff.mp
    refine ⟨H', G', ?_, hshape, hframe', hviews, hbs'⟩
    have hcurr : nodeOf holder attr c (b :: tl) = .link holder b := rfl
    rw [hcurr, ViewHeap.viewRemoveLoop, if_neg (by simp)]
    simp only [Option.bind_eq_bind, ViewHeap.linkEntry, if_true, Option.bind_some, hL₁, hL₂]
    exact (congrArg (Option.bind · _) hnextOf).trans hloop

lemma viewRemove (h : Shape H G) (hc : c ∈ H.holders holder) (attr : MibAcesAttr) :
    ∃ H' G', H.viewRemove holder (.views holder attr c) = some H' ∧ Shape H' G' ∧
      Frame H G H' G' (· = (holder, attr, c)) ∧ H'.viewOids = H.viewOids ∧
      G'.bound (holder, attr, c) = [] := by
  have hring := h.ring_bound hc attr
  have hbs : G.bound (holder, attr, c) = [] ++ G.bound (holder, attr, c) := rfl
  obtain ⟨next, hnextOf, hnext⟩ := nextOf_nodeOf (hbs ▸ hring)
  obtain ⟨H', G', hloop, hrest⟩ :=
    h.viewRemoveLoop hc rfl (Nat.lt_succ_of_le (h.length_bound hc attr)) hnext
  refine ⟨H', G', ?_, hrest⟩
  rw [ViewHeap.viewRemove, hring.nextOf_head]
  simp only [Option.bind_eq_bind, Option.bind_some]
  exact (congrArg (Option.bind · _) hnextOf).trans hloop

end Shape

end SmartSnmp
