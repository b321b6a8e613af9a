import SmartSnmp.Mib.Tree.Registry
import Mathlib.Data.Finset.Card
import Mathlib.Data.Finset.Insert

/-!
# The capacity of a group in 16 bits

A group with `sub_id_cap` and `sub_id_cnt` as they are declared, 16-bit unsigned integers, and the
loops of `group_node_expand` checked against the arrays. The size of new arrays is computed as an
`int` and used before it is stored, so it is the stored capacity that wraps around: the 23rd
capacity is 47421, the next one is 71134 and is stored as 5598.
-/

namespace SmartSnmp

open ArrayShift MibNode

/-- `struct mib_group_node`. The arrays are lists of all the slots that are allocated. -/
structure MibGroupNode where
  subIdCap : UInt16
  subIdCnt : UInt16
  subId : List UInt32
  subPtr : List MibNode

namespace MibGroupNode

/-- `mib_group_node_new`. -/
def new : MibGroupNode := ⟨1, 0, [0], [.null]⟩

/-- `is_raw_group`. -/
def isRaw (gn : MibGroupNode) : Bool := isRawGroup gn.subIdCnt.toNat gn.subId

/-- `group_node_expand`. There is no node afterwards if the assertion fails or an access is outside
of an array. -/
def expand (gn : MibGroupNode) (index : Nat) : Option MibGroupNode :=
  if gn.isRaw then none
  else if gn.subIdCnt.toNat + 1 > gn.subIdCap.toNat then do
    let slots := allocNr gn.subIdCap.toNat
    let subId ← copyGapChecked gn.subId index gn.subIdCnt.toNat (List.replicate slots 0)
    let subPtr ← copyGapChecked gn.subPtr index gn.subIdCnt.toNat (List.replicate slots .null)
    -- all of `slots` are allocated, 16 bits of it are kept
    some ⟨UInt16.ofNat slots, gn.subIdCnt, subId, subPtr⟩
  else do
    let subId ← shiftUpChecked index gn.subIdCnt.toNat gn.subId
    let subPtr ← shiftUpChecked index gn.subIdCnt.toNat gn.subPtr
    some ⟨gn.subIdCap, gn.subIdCnt, subId, subPtr⟩

/-- A sub-identifier and its node are written into slot `i`, which is one more in use. -/
def fill (gn : MibGroupNode) (i : Nat) (x : UInt32) (child : MibNode) : Option MibGroupNode := do
  let subId ← write gn.subId i x
  let subPtr ← write gn.subPtr i child
  some ⟨gn.subIdCap, gn.subIdCnt + 1, subId, subPtr⟩

/-- Where the search says that a sub-identifier belongs that is not there. -/
def newIndex (gn : MibGroupNode) (x : UInt32) : Option Nat :=
  let i := oidBinarySearch gn.subId gn.subIdCnt.toNat x
  if 0 ≤ i then none else some (-i - 1).toNat

/-- The group case of `mib_tree_instance_insert`, with the node that goes into a new slot. Below a
sub-identifier that is there the traversal goes on. -/
def instanceInsert (gn : MibGroupNode) (x : UInt32) (child : MibNode) : Option MibGroupNode :=
  if gn.isRaw then gn.fill 0 x child
  else
    match gn.newIndex x with
    | none => some gn
    | some i => (gn.expand i).bind fun gn => gn.fill i x child

/-- A new group after a sequence of registrations under it. -/
def instanceInsertAll (regs : List (UInt32 × MibNode)) : Option MibGroupNode :=
  regs.foldlM (fun gn reg => gn.instanceInsert reg.1 reg.2) new

lemma instanceInsertAll_concat (regs : List (UInt32 × MibNode)) (x : UInt32) (child : MibNode) :
    instanceInsertAll (regs ++ [(x, child)]) =
      (instanceInsertAll regs).bind fun gn => gn.instanceInsert x child := by
  simp [instanceInsertAll, List.foldlM_append]

end MibGroupNode

/-- The sub-identifiers of a sequence of registrations. -/
def distinctIds (regs : List (UInt32 × MibNode)) : Finset UInt32 := (regs.map Prod.fst).toFinset

lemma distinctIds_concat (regs : List (UInt32 × MibNode)) (x : UInt32) (child : MibNode) :
    distinctIds (regs ++ [(x, child)]) = insert x (distinctIds regs) := by
  ext y
  simp [distinctIds]

lemma card_distinctIds_le_concat (regs : List (UInt32 × MibNode)) (x : UInt32) (child : MibNode) :
    (distinctIds regs).card ≤ (distinctIds (regs ++ [(x, child)])).card := by
  rw [distinctIds_concat]
  exact Finset.card_le_card (Finset.subset_insert x _)

/-! ### The property -/

/-- The capacity is the number of allocated slots, and the children fit into it. -/
structure MibGroupNode.CapacityOk (gn : MibGroupNode) (children : Nat) : Prop where
  subId_length : gn.subId.length = gn.subIdCap.toNat
  subPtr_length : gn.subPtr.length = gn.subIdCap.toNat
  cnt_eq : gn.subIdCnt.toNat = children
  cnt_le : gn.subIdCnt ≤ gn.subIdCap

/-- One registration after others: the arrays are as they should be after `group_node_expand`, if it
is called, and after the insertion. -/
def InsertKept (before : List (UInt32 × MibNode)) (x : UInt32) (child : MibNode) : Prop :=
  ∃ gn, MibGroupNode.instanceInsertAll before = some gn ∧
    (gn.isRaw = false → ∀ i, gn.newIndex x = some i →
      ∃ gn', gn.expand i = some gn' ∧ gn'.CapacityOk (distinctIds before).card) ∧
    ∃ gn', gn.instanceInsert x child = some gn' ∧
      gn'.CapacityOk (distinctIds (before ++ [(x, child)])).card

/-- Every registration of a sequence is in order. -/
def CapacityKept (regs : List (UInt32 × MibNode)) : Prop :=
  ∀ before x child, before ++ [(x, child)] <+: regs → InsertKept before x child

lemma capacityKept_nil : CapacityKept [] := by
  intro before x child h
  simp at h

lemma capacityKept_concat {regs : List (UInt32 × MibNode)} {x : UInt32} {child : MibNode} :
    CapacityKept (regs ++ [(x, child)]) ↔ CapacityKept regs ∧ InsertKept regs x child := by
  constructor
  · intro h
    exact ⟨fun before y c hpre => h before y c (hpre.trans (List.prefix_append _ _)),
      h regs x child (List.prefix_refl _)⟩
  · rintro ⟨h, hlast⟩ before y c hpre
    rcases List.prefix_concat_iff.mp hpre with heq | hpre
    · obtain ⟨rfl, hyx⟩ := List.append_inj' heq rfl
      simp only [List.cons.injEq, Prod.mk.injEq, and_true] at hyx
      obtain ⟨rfl, rfl⟩ := hyx
      exact hlast
    · exact h before y c hpre

/-! ### The sequence of capacities -/

/-- The capacities that fit into 16 bits, from that of a new group on. -/
def capacities : List Nat := List.iterate allocNr 1 23

/-- The last of them. -/
def lastCapacity : Nat := 47421

lemma mem_capacities_one : 1 ∈ capacities := by decide

lemma le_lastCapacity : ∀ c ∈ capacities, c ≤ lastCapacity := by decide

lemma allocNr_mem_capacities :
    ∀ c ∈ capacities, c ≠ lastCapacity → allocNr c ∈ capacities := by decide

/-- What is stored for the 71134 slots after the last capacity. -/
lemma toNat_allocNr_lastCapacity : (UInt16.ofNat (allocNr lastCapacity)).toNat = 5598 := by decide

lemma toNat_ofNat_of_mem {c : Nat} (h : c ∈ capacities) : (UInt16.ofNat c).toNat = c := by
  have hle := le_lastCapacity c h
  rw [lastCapacity] at hle
  rw [UInt16.toNat_ofNat', Nat.mod_eq_of_lt (by omega)]

/-! ### What a group holds -/

namespace MibGroupNode

/-- A group with `slots` slots whose sub-identifiers in use are `ids`. -/
structure Holds (gn : MibGroupNode) (slots : Nat) (ids : Finset UInt32) : Prop where
  shape : GroupShape slots gn.subIdCnt.toNat gn.subId gn.subPtr
  mem_iff : ∀ x, x ∈ gn.subId.take gn.subIdCnt.toNat ↔ x ∈ ids

namespace Holds

variable {gn : MibGroupNode} {slots : Nat} {ids : Finset UInt32} {x : UInt32}

lemma cnt_eq (h : gn.Holds slots ids) : gn.subIdCnt.toNat = ids.card := by
  have hnodup : (gn.subId.take gn.subIdCnt.toNat).Nodup := h.shape.ascending.imp ne_of_lt
  have hids : (gn.subId.take gn.subIdCnt.toNat).toFinset = ids := by
    ext x
    rw [List.mem_toFinset, h.mem_iff]
  rw [← hids, List.toFinset_card_of_nodup hnodup, List.length_take,
    Nat.min_eq_left h.shape.cnt_le_subId]

lemma card_le (h : gn.Holds slots ids) : ids.card ≤ slots := h.cnt_eq ▸ h.shape.cnt_le

lemma isRaw_iff (h : gn.Holds slots ids) : gn.isRaw = true ↔ ids = ∅ := by
  rw [isRaw, h.shape.isRawGroup_iff, h.cnt_eq, Finset.card_eq_zero]

lemma isRaw_eq_false (h : gn.Holds slots ids) (h0 : ids.Nonempty) : gn.isRaw = false := by
  rw [← Bool.not_eq_true, h.isRaw_iff]
  exact h0.ne_empty

lemma mem_slot (h : gn.Holds slots ids) : x ∈ ids ↔ ∃ i < gn.subIdCnt.toNat, gn.subId[i]? = some x := by
  simp only [← h.mem_iff, List.mem_iff_getElem?, List.getElem?_take, Option.ite_none_right_eq_some]

/-- Nothing changes in a group at a sub-identifier that is there. -/
lemma insert_mem (h : gn.Holds slots ids) (hx : x ∈ ids) (child : MibNode) :
    gn.newIndex x = none ∧ gn.instanceInsert x child = some gn := by
  have hindex : gn.newIndex x = none := by
    rcases h.shape.binarySearch_cases x with ⟨i, -, -, heq⟩ | ⟨i, -, hb, ha, -⟩
    · rw [newIndex, heq]
      exact if_pos (Int.natCast_nonneg i)
    · obtain ⟨j, hj, hjx⟩ := h.mem_slot.mp hx
      exact absurd hjx (getElem?_ne_of_split hb ha hj)
  exact ⟨hindex, by simp [instanceInsert, h.isRaw_eq_false ⟨x, hx⟩, hindex]⟩

/-- Where the search places a sub-identifier that is not there. -/
lemma newIndex_of_notMem (h : gn.Holds slots ids) (hx : x ∉ ids) :
    ∃ i ≤ gn.subIdCnt.toNat, (∀ j k, j < i → gn.subId[j]? = some k → k < x) ∧
      (∀ j k, i ≤ j → j < gn.subIdCnt.toNat → gn.subId[j]? = some k → x < k) ∧
      gn.newIndex x = some i ∧ oidBinarySearch gn.subId gn.subIdCnt.toNat x = -(i : Int) - 1 := by
  rcases h.shape.binarySearch_cases x with ⟨i, hi, hix, -⟩ | ⟨i, hi, hb, ha, heq⟩
  · exact absurd (h.mem_slot.mpr ⟨i, hi, hix⟩) hx
  · refine ⟨i, hi, hb, ha, ?_, heq⟩
    rw [newIndex, heq, if_neg (by omega), Option.some.injEq]
    omega

end Holds

/-! ### One more sub-identifier -/

lemma toNat_succ {n : UInt16} (h : n.toNat < 65535) : (n + 1).toNat = n.toNat + 1 := by
  rw [UInt16.toNat_add, UInt16.toNat_one, Nat.mod_eq_of_lt (by omega)]

/-- The number of slots after `group_node_expand`. -/
def slotsAfter (gn : MibGroupNode) : Nat :=
  if gn.subIdCnt.toNat + 1 > gn.subIdCap.toNat then allocNr gn.subIdCap.toNat
  else gn.subIdCap.toNat

lemma groupNodeExpand_fst (gn : MibGroupNode) (i : Nat) :
    (groupNodeExpand gn.subIdCap.toNat gn.subIdCnt.toNat gn.subId gn.subPtr i).1 = gn.slotsAfter := by
  rw [groupNodeExpand, slotsAfter]
  split_ifs <;> rfl

/-- What `expand` leaves if it stays inside of the arrays. -/
def expanded (gn : MibGroupNode) (i : Nat) : MibGroupNode :=
  ⟨UInt16.ofNat gn.slotsAfter, gn.subIdCnt,
    (groupNodeExpand gn.subIdCap.toNat gn.subIdCnt.toNat gn.subId gn.subPtr i).2.1,
    (groupNodeExpand gn.subIdCap.toNat gn.subIdCnt.toNat gn.subId gn.subPtr i).2.2⟩

/-- What `fill` leaves if it stays inside of the arrays. -/
def filled (gn : MibGroupNode) (i : Nat) (x : UInt32) (child : MibNode) : MibGroupNode :=
  ⟨gn.subIdCap, gn.subIdCnt + 1, gn.subId.set i x, gn.subPtr.set i child⟩

section Grow

variable {gn : MibGroupNode} {slots : Nat} {ids : Finset UInt32}

lemma fill_eq {i : Nat} (hid : i < gn.subId.length) (hptr : i < gn.subPtr.length) (x : UInt32)
    (child : MibNode) : gn.fill i x child = some (gn.filled i x child) := by
  simp [fill, filled, write_of_lt hid, write_of_lt hptr]

/-- The first one goes into the slot of the new group. -/
lemma Holds.instanceInsert_raw (h : gn.Holds slots ∅) (x : UInt32) (child : MibNode) :
    gn.instanceInsert x child = some (gn.filled 0 x child) ∧
      (gn.filled 0 x child).Holds slots {x} := by
  have hcap := h.shape.cap_pos
  have hcnt : gn.subIdCnt.toNat = 0 := by rw [h.cnt_eq, Finset.card_empty]
  have hsucc : (gn.filled 0 x child).subIdCnt.toNat = gn.subIdCnt.toNat + 1 := toNat_succ (by omega)
  have hid : 0 < gn.subId.length := h.shape.subId_length ▸ hcap
  refine ⟨?_, ⟨?_, fun y => ?_⟩⟩
  · rw [MibGroupNode.instanceInsert, if_pos (h.isRaw_iff.mpr rfl)]
    exact fill_eq hid (h.shape.subPtr_length ▸ hcap) x child
  · rw [hsucc]
    exact h.shape.fill_raw hcnt x child
  · obtain ⟨a, as, hgn⟩ := List.exists_cons_of_length_pos hid
    rw [hsucc, hcnt]
    simp [filled, hgn]

/-- `group_node_expand` on arrays as large as the capacity says. -/
lemma Holds.expand_eq (h : gn.Holds gn.subIdCap.toNat ids) (h0 : ids.Nonempty) (i : Nat) :
    gn.expand i = some (gn.expanded i) := by
  have hlt := lt_allocNr gn.subIdCap.toNat
  have hle := h.shape.cnt_le
  rw [expand, h.isRaw_eq_false h0, if_neg Bool.false_ne_true, expanded, groupNodeExpand, slotsAfter]
  split_ifs with hfull
  · have hroom : ∀ {α : Type} (v : α),
        gn.subIdCnt.toNat < (List.replicate (allocNr gn.subIdCap.toNat) v).length := by
      intro α v
      rw [List.length_replicate]
      omega
    simp only [copyGapChecked_eq h.shape.cnt_le_subId (hroom _),
      copyGapChecked_eq h.shape.cnt_le_subPtr (hroom _), Option.bind_eq_bind, Option.bind_some]
  · have hid : gn.subIdCnt.toNat < gn.subId.length := by
      rw [h.shape.subId_length]
      omega
    have hptr : gn.subIdCnt.toNat < gn.subPtr.length := by
      rw [h.shape.subPtr_length]
      omega
    simp only [shiftUpChecked_eq hid, shiftUpChecked_eq hptr, Option.bind_eq_bind, Option.bind_some,
      UInt16.ofNat_toNat]

/-- Too few slots for what is in use: the copy leaves the new array. -/
lemma expand_eq_none (i : Nat) (hcnt : allocNr gn.subIdCap.toNat < gn.subIdCnt.toNat) :
    gn.expand i = none := by
  have hlt := lt_allocNr gn.subIdCap.toNat
  have hid : copyGapChecked gn.subId i gn.subIdCnt.toNat
      (List.replicate (allocNr gn.subIdCap.toNat) 0) = none :=
    copyGapChecked_eq_none (by rw [List.length_replicate]; exact hcnt)
  rw [expand, if_pos (show gn.subIdCnt.toNat + 1 > gn.subIdCap.toNat by omega)]
  simp only [hid, Option.bind_eq_bind, Option.bind_none, ite_self]

/-- A sub-identifier in the place that `group_node_expand` has made for it. -/
lemma Holds.expanded_filled (h : gn.Holds gn.subIdCap.toNat ids) {i : Nat} {x : UInt32}
    (hi : i ≤ gn.subIdCnt.toNat) (hb : ∀ j k, j < i → gn.subId[j]? = some k → k < x)
    (ha : ∀ j k, i ≤ j → j < gn.subIdCnt.toNat → gn.subId[j]? = some k → x < k)
    (hcnt : gn.subIdCnt.toNat < 65535) (child : MibNode) :
    ((gn.expanded i).filled i x child).Holds gn.slotsAfter (insert x ids) := by
  have hsucc : ((gn.expanded i).filled i x child).subIdCnt.toNat = gn.subIdCnt.toNat + 1 :=
    toNat_succ hcnt
  refine ⟨?_, fun y => ?_⟩
  · have hshape := h.shape.expand hi hb ha child
    rw [groupNodeExpand_fst] at hshape
    rw [hsucc]
    exact hshape
  · have hi' : i ≤ (gn.subId.take gn.subIdCnt.toNat).length := by
      rw [List.length_take]
      exact le_min hi (hi.trans h.shape.cnt_le_subId)
    have htake := (take_groupNodeExpand h.shape hi x child).1
    rw [hsucc, filled, expanded, htake, List.mem_insertIdx hi', h.mem_iff, Finset.mem_insert]

/-- Every other one goes where the search places it, after `group_node_expand`. -/
lemma Holds.instanceInsert_new (h : gn.Holds gn.subIdCap.toNat ids) (h0 : ids.Nonempty) {x : UInt32}
    (hx : x ∉ ids) (hcnt : gn.subIdCnt.toNat < 65535) (child : MibNode) :
    ∃ i, gn.newIndex x = some i ∧ oidBinarySearch gn.subId gn.subIdCnt.toNat x = -(i : Int) - 1 ∧
      gn.instanceInsert x child = some ((gn.expanded i).filled i x child) ∧
      ((gn.expanded i).filled i x child).Holds gn.slotsAfter (insert x ids) := by
  obtain ⟨i, hi, hb, ha, hindex, heq⟩ := h.newIndex_of_notMem hx
  have hholds := h.expanded_filled hi hb ha hcnt child
  have hid := hholds.shape.subId_length
  have hptr := hholds.shape.subPtr_length
  simp only [filled, List.length_set] at hid hptr
  have hslot : i < gn.slotsAfter := by
    have hle := hholds.card_le
    rw [Finset.card_insert_of_notMem hx, ← h.cnt_eq] at hle
    omega
  refine ⟨i, hindex, heq, ?_, hholds⟩
  rw [MibGroupNode.instanceInsert, h.isRaw_eq_false h0, if_neg Bool.false_ne_true, hindex]
  simp only [h.expand_eq h0, Option.bind_some]
  exact fill_eq (hslot.trans_eq hid.symm) (hslot.trans_eq hptr.symm) x child

end Grow

/-! ### Runs -/

/-- The slots are what the capacity says, and it is one of the sequence. -/
structure Fits (gn : MibGroupNode) (ids : Finset UInt32) : Prop where
  holds : gn.Holds gn.subIdCap.toNat ids
  cap_mem : gn.subIdCap.toNat ∈ capacities

/-- There is one child more than the last capacity, and the capacity that is stored is too small. -/
structure Wrapped (gn : MibGroupNode) (ids : Finset UInt32) : Prop where
  holds : gn.Holds (allocNr lastCapacity) ids
  cap_eq : gn.subIdCap = UInt16.ofNat (allocNr lastCapacity)
  card_eq : ids.card = lastCapacity + 1

lemma fits_new : new.Fits ∅ := by
  refine ⟨⟨⟨by decide, rfl, rfl, by decide, by simp [new], fun _ => ⟨rfl, rfl⟩⟩, fun x => ?_⟩,
    mem_capacities_one⟩
  simp [new]

section Step

variable {gn : MibGroupNode} {ids : Finset UInt32}

lemma Fits.card_le (h : gn.Fits ids) : ids.card ≤ lastCapacity :=
  h.holds.card_le.trans (le_lastCapacity _ h.cap_mem)

lemma Fits.cnt_lt (h : gn.Fits ids) : gn.subIdCnt.toNat < 65535 := by
  have hle := h.card_le
  rw [← h.holds.cnt_eq, lastCapacity] at hle
  omega

lemma Fits.capacityOk (h : gn.Fits ids) : gn.CapacityOk ids.card :=
  ⟨h.holds.shape.subId_length, h.holds.shape.subPtr_length, h.holds.cnt_eq,
    UInt16.le_iff_toNat_le.mpr h.holds.shape.cnt_le⟩

lemma Wrapped.not_capacityOk (h : gn.Wrapped ids) (children : Nat) : ¬ gn.CapacityOk children := by
  intro hok
  have hlen := h.holds.shape.subId_length
  rw [hok.subId_length, h.cap_eq, toNat_allocNr_lastCapacity] at hlen
  simp [allocNr, lastCapacity] at hlen

/-- The slots after `group_node_expand`, as long as there is no child more than the last capacity. -/
lemma Fits.slotsAfter_mem (h : gn.Fits ids) (hlt : ids.card < lastCapacity) :
    gn.slotsAfter ∈ capacities := by
  have hcnt := h.holds.cnt_eq
  rw [slotsAfter]
  split_ifs with hfull
  · exact allocNr_mem_capacities _ h.cap_mem (by omega)
  · exact h.cap_mem

lemma Fits.slotsAfter_last (h : gn.Fits ids) (heq : ids.card = lastCapacity) :
    gn.slotsAfter = allocNr lastCapacity := by
  have hcnt := h.holds.cnt_eq
  have hcap := h.holds.shape.cnt_le
  have hle := le_lastCapacity _ h.cap_mem
  have hlast : gn.subIdCap.toNat = lastCapacity := by omega
  rw [slotsAfter, if_pos (by omega), hlast]

/-- If the group is in order after the insertion, it was so after `group_node_expand`. -/
lemma Fits.capacityOk_expanded {i : Nat} {x : UInt32} {child : MibNode}
    (h : ((gn.expanded i).filled i x child).Fits (insert x ids)) (hx : x ∉ ids)
    (hcnt : gn.subIdCnt.toNat = ids.card) : (gn.expanded i).CapacityOk ids.card := by
  have hok := h.capacityOk
  have hid := hok.subId_length
  have hptr := hok.subPtr_length
  have hle := h.holds.shape.cnt_le
  rw [h.holds.cnt_eq, Finset.card_insert_of_notMem hx, ← hcnt] at hle
  simp only [filled, List.length_set] at hid hptr hle
  exact ⟨hid, hptr, hcnt, UInt16.le_iff_toNat_le.mpr (Nat.le_of_succ_le hle)⟩

/-- A sub-identifier that is not there yet, up to the last capacity. -/
lemma Fits.insert_lt (h : gn.Fits ids) {x : UInt32} (hx : x ∉ ids) (hlt : ids.card < lastCapacity)
    (child : MibNode) :
    (gn.isRaw = false → ∀ i, gn.newIndex x = some i →
      ∃ gn', gn.expand i = some gn' ∧ gn'.CapacityOk ids.card) ∧
    ∃ gn', gn.instanceInsert x child = some gn' ∧ gn'.Fits (insert x ids) := by
  rcases ids.eq_empty_or_nonempty with rfl | h0
  · obtain ⟨hins, hholds⟩ := h.holds.instanceInsert_raw x child
    refine ⟨fun hraw => ?_, _, hins, ⟨hholds, h.cap_mem⟩⟩
    simp [h.holds.isRaw_iff.mpr rfl] at hraw
  · have hmem := h.slotsAfter_mem hlt
    have hslots := toNat_ofNat_of_mem hmem
    have hcnt := h.holds.cnt_eq
    obtain ⟨i, hi, -, hins, hholds⟩ := h.holds.instanceInsert_new h0 hx h.cnt_lt child
    have hfits : ((gn.expanded i).filled i x child).Fits (insert x ids) :=
      ⟨hslots.symm ▸ hholds, hslots.symm ▸ hmem⟩
    refine ⟨fun _ j hj => ?_, _, hins, hfits⟩
    obtain rfl : i = j := Option.some.inj (hi.symm.trans hj)
    exact ⟨_, h.holds.expand_eq h0 i, hfits.capacityOk_expanded hx hcnt⟩

/-- The one after the last capacity. -/
lemma Fits.insert_last (h : gn.Fits ids) {x : UInt32} (hx : x ∉ ids)
    (heq : ids.card = lastCapacity) (child : MibNode) :
    ∃ gn', gn.instanceInsert x child = some gn' ∧ gn'.Wrapped (insert x ids) := by
  have h0 : ids.Nonempty := Finset.card_pos.mp (by rw [heq]; decide)
  have hcnt := h.holds.cnt_eq
  obtain ⟨i, -, -, hins, hholds⟩ := h.holds.instanceInsert_new h0 hx h.cnt_lt child
  have hslots := h.slotsAfter_last heq
  exact ⟨_, hins, ⟨hslots ▸ hholds, congrArg UInt16.ofNat hslots,
    by rw [Finset.card_insert_of_notMem hx, heq]⟩⟩

/-- And the one after that is written past the end of the new arrays. -/
lemma Wrapped.insert_eq_none (h : gn.Wrapped ids) {x : UInt32} (hx : x ∉ ids) (child : MibNode) :
    gn.instanceInsert x child = none := by
  have h0 : ids.Nonempty := Finset.card_pos.mp (by rw [h.card_eq]; decide)
  obtain ⟨i, -, -, -, hindex, -⟩ := h.holds.newIndex_of_notMem hx
  have hsmall : allocNr gn.subIdCap.toNat < gn.subIdCnt.toNat := by
    rw [h.cap_eq, toNat_allocNr_lastCapacity, h.holds.cnt_eq, h.card_eq]
    decide
  rw [instanceInsert, h.holds.isRaw_eq_false h0, if_neg Bool.false_ne_true, hindex]
  simp only [expand_eq_none i hsmall, Option.bind_none]

end Step

/-- What a run of registrations has come to: the arrays are in order, or they are larger than the
capacity says, or an access was outside of them. -/
inductive RunState : Finset UInt32 → Option MibGroupNode → Prop where
  | fits {gn : MibGroupNode} {ids : Finset UInt32} (h : gn.Fits ids) : RunState ids (some gn)
  | wrapped {gn : MibGroupNode} {ids : Finset UInt32} (h : gn.Wrapped ids) : RunState ids (some gn)
  | overrun {ids : Finset UInt32} (h : lastCapacity + 1 < ids.card) : RunState ids none

lemma RunState.step {ids : Finset UInt32} {run : Option MibGroupNode} (h : RunState ids run)
    (x : UInt32) (child : MibNode) :
    RunState (insert x ids) (run.bind fun gn => gn.instanceInsert x child) := by
  cases h with
  | fits h =>
    rw [Option.bind_some]
    by_cases hx : x ∈ ids
    · rw [(h.holds.insert_mem hx child).2, Finset.insert_eq_of_mem hx]
      exact .fits h
    · rcases h.card_le.lt_or_eq with hlt | heq
      · obtain ⟨-, gn', hins, hfits⟩ := h.insert_lt hx hlt child
        exact hins ▸ .fits hfits
      · obtain ⟨gn', hins, hwrapped⟩ := h.insert_last hx heq child
        exact hins ▸ .wrapped hwrapped
  | wrapped h =>
    rw [Option.bind_some]
    by_cases hx : x ∈ ids
    · rw [(h.holds.insert_mem hx child).2, Finset.insert_eq_of_mem hx]
      exact .wrapped h
    · rw [h.insert_eq_none hx child]
      have hcard := h.card_eq
      exact .overrun (by rw [Finset.card_insert_of_notMem hx]; omega)
  | overrun h =>
    exact .overrun (h.trans_le (Finset.card_le_card (Finset.subset_insert x ids)))

/-- Every run of registrations under a new group. -/
theorem runState (regs : List (UInt32 × MibNode)) :
    RunState (distinctIds regs) (instanceInsertAll regs) := by
  induction regs using List.reverseRecOn with
  | nil => exact .fits fits_new
  | append_singleton regs reg ih =>
    obtain ⟨x, child⟩ := reg
    rw [distinctIds_concat, instanceInsertAll_concat]
    exact ih.step x child

/-- Up to the last capacity the arrays are in order. -/
theorem instanceInsertAll_fits {regs : List (UInt32 × MibNode)}
    (hle : (distinctIds regs).card ≤ lastCapacity) :
    ∃ gn, instanceInsertAll regs = some gn ∧ gn.Fits (distinctIds regs) := by
  have h := runState regs
  generalize instanceInsertAll regs = run at h
  cases h with
  | fits h => exact ⟨_, rfl, h⟩
  | wrapped h => exact absurd h.card_eq (by omega)
  | overrun h => omega

/-- Two children more than the last capacity are written past the end of an array. -/
theorem instanceInsertAll_eq_none_iff (regs : List (UInt32 × MibNode)) :
    instanceInsertAll regs = none ↔ lastCapacity + 1 < (distinctIds regs).card := by
  have h := runState regs
  generalize instanceInsertAll regs = run at h
  cases h with
  | fits h => simpa using h.card_le.trans (Nat.le_succ _)
  | wrapped h => simp [h.card_eq]
  | overrun h => simpa using h

/-! ### The group in the tree -/

/-- A node of the tree whose counts are not bounded, with the counts and the sub-identifiers of `gn`.
The nodes below it may have changed since they were written into their slots. -/
def SameIds (gn : MibGroupNode) (node : MibNode) : Prop :=
  ∃ subPtr, node = .group gn.subIdCap.toNat gn.subIdCnt.toNat gn.subId subPtr ∧
    GroupShape gn.subIdCap.toNat gn.subIdCnt.toNat gn.subId subPtr

section Tree

variable {gn : MibGroupNode} {ids : Finset UInt32} {node : MibNode} {x : UInt32}

lemma SameIds.insert_mem (hsame : SameIds gn node) (h : gn.Fits ids) (hx : x ∈ ids) (callback : Int)
    (xs : Oid) : SameIds gn (mibTreeInstanceInsert callback node (x :: xs)).1 := by
  obtain ⟨subPtr, rfl, hshape⟩ := hsame
  have hraw : isRawGroup gn.subIdCnt.toNat gn.subId = false := h.holds.isRaw_eq_false ⟨x, hx⟩
  obtain ⟨j, hj, hjx⟩ := h.holds.mem_slot.mp hx
  rcases hshape.binarySearch_cases x with ⟨i, hi, hix, heq⟩ | ⟨i, -, hb, ha, -⟩
  · obtain ⟨c, -, hins, -⟩ := instanceInsert_child hshape hraw hi hix heq callback xs
    rw [hins]
    exact ⟨_, rfl, hshape.set_child hi _⟩
  · exact absurd hjx (getElem?_ne_of_split hb ha hj)

lemma SameIds.insert_raw (hsame : SameIds gn node) (h : gn.Fits ∅) (callback : Int) (xs : Oid)
    (child : MibNode) :
    SameIds (gn.filled 0 x child) (mibTreeInstanceInsert callback node (x :: xs)).1 := by
  obtain ⟨subPtr, rfl, hshape⟩ := hsame
  have hraw : isRawGroup gn.subIdCnt.toNat gn.subId = true := h.holds.isRaw_iff.mpr rfl
  have hcnt : gn.subIdCnt.toNat = 0 := hshape.isRawGroup_iff.mp hraw
  have hsucc : (gn.filled 0 x child).subIdCnt.toNat = gn.subIdCnt.toNat + 1 := toNat_succ h.cnt_lt
  obtain ⟨hins, -⟩ := SmartSnmp.instanceInsert_raw hshape hraw callback x xs
  rw [hins]
  refine ⟨subPtr.set 0 (freshNode callback xs).1, ?_, ?_⟩ <;> rw [hsucc]
  · rfl
  · exact hshape.fill_raw hcnt x _

/-- The capacity and the sub-identifiers after `group_node_expand` do not depend on the nodes. -/
lemma groupNodeExpand_subId (cap cnt i : Nat) (subId : List UInt32) (subPtr subPtr' : List MibNode) :
    (groupNodeExpand cap cnt subId subPtr i).1 = (groupNodeExpand cap cnt subId subPtr' i).1 ∧
      (groupNodeExpand cap cnt subId subPtr i).2.1 = (groupNodeExpand cap cnt subId subPtr' i).2.1 := by
  rw [groupNodeExpand, groupNodeExpand]
  split_ifs <;> exact ⟨rfl, rfl⟩

lemma SameIds.insert_new (hsame : SameIds gn node) (h : gn.Fits ids) (h0 : ids.Nonempty)
    (hlt : ids.card < lastCapacity) {i : Nat}
    (hsearch : oidBinarySearch gn.subId gn.subIdCnt.toNat x = -(i : Int) - 1) (callback : Int)
    (xs : Oid) (child : MibNode) :
    SameIds ((gn.expanded i).filled i x child) (mibTreeInstanceInsert callback node (x :: xs)).1 := by
  obtain ⟨subPtr, rfl, hshape⟩ := hsame
  have hraw : isRawGroup gn.subIdCnt.toNat gn.subId = false := h.holds.isRaw_eq_false h0
  have hcap : (UInt16.ofNat gn.slotsAfter).toNat = gn.slotsAfter :=
    toNat_ofNat_of_mem (h.slotsAfter_mem hlt)
  have hsucc : ((gn.expanded i).filled i x child).subIdCnt.toNat = gn.subIdCnt.toNat + 1 :=
    toNat_succ h.cnt_lt
  have hslots := gn.groupNodeExpand_fst i
  obtain ⟨hfst, hids⟩ := groupNodeExpand_subId gn.subIdCap.toNat gn.subIdCnt.toNat i gn.subId gn.subPtr
    subPtr
  rcases hshape.binarySearch_cases x with ⟨j, -, -, heq⟩ | ⟨j, hj, hb, ha, heq⟩
  · omega
  · obtain rfl : i = j := by omega
    have hkept := hshape.expand hj hb ha (freshNode callback xs).1
    rw [← hfst, hslots, ← hids] at hkept
    rw [instanceInsert_absent hraw heq, ← hfst, hslots, ← hids]
    refine ⟨(groupNodeExpand gn.subIdCap.toNat gn.subIdCnt.toNat gn.subId subPtr i).2.2.set i
      (freshNode callback xs).1, ?_, ?_⟩ <;> rw [hsucc, filled, expanded, hcap]
    exact hkept

/-- One registration in the tree and in 16 bits. -/
lemma SameIds.step (hsame : SameIds gn node) (h : gn.Fits ids)
    (hle : (insert x ids).card ≤ lastCapacity) (callback : Int) (xs : Oid) (child : MibNode) :
    ∃ gn', gn.instanceInsert x child = some gn' ∧ gn'.Fits (insert x ids) ∧
      SameIds gn' (mibTreeInstanceInsert callback node (x :: xs)).1 := by
  by_cases hx : x ∈ ids
  · rw [Finset.insert_eq_of_mem hx]
    exact ⟨gn, (h.holds.insert_mem hx child).2, h, hsame.insert_mem h hx callback xs⟩
  · rw [Finset.card_insert_of_notMem hx] at hle
    obtain ⟨-, gn', hins, hfits⟩ := h.insert_lt hx hle child
    refine ⟨gn', hins, hfits, ?_⟩
    rcases ids.eq_empty_or_nonempty with rfl | h0
    · obtain rfl := Option.some.inj ((h.holds.instanceInsert_raw x child).1.symm.trans hins)
      exact hsame.insert_raw h callback xs child
    · obtain ⟨i, -, hsearch, hins', -⟩ := h.holds.instanceInsert_new h0 hx h.cnt_lt child
      obtain rfl := Option.some.inj (hins'.symm.trans hins)
      exact hsame.insert_new h h0 hle hsearch callback xs child

end Tree

/-- A registration below the group: the sub-identifier in it, those after it and the callback. -/
structure GroupReg where
  x : UInt32
  xs : Oid
  callback : Int

/-- What it is in the group. -/
def GroupReg.reg (r : GroupReg) : UInt32 × MibNode := (r.x, (freshNode r.callback r.xs).1)

/-- What it does to the node in the tree. -/
def GroupReg.apply (node : MibNode) (r : GroupReg) : MibNode :=
  (mibTreeInstanceInsert r.callback node (r.x :: r.xs)).1

/-- Up to the last capacity the counts of the tree are those of the program, on every run. -/
theorem sameIds_run (regs : List GroupReg)
    (hle : (distinctIds (regs.map GroupReg.reg)).card ≤ lastCapacity) :
    ∃ gn, instanceInsertAll (regs.map GroupReg.reg) = some gn ∧
      gn.Fits (distinctIds (regs.map GroupReg.reg)) ∧
      SameIds gn (regs.foldl GroupReg.apply mibGroupNodeNew) := by
  induction regs using List.reverseRecOn with
  | nil => exact ⟨new, rfl, fits_new, [.null], rfl, fits_new.holds.shape⟩
  | append_singleton regs r ih =>
    have hreg : (regs ++ [r]).map GroupReg.reg =
        regs.map GroupReg.reg ++ [(r.x, (freshNode r.callback r.xs).1)] := by
      rw [List.map_append]
      rfl
    rw [hreg] at hle
    obtain ⟨gn, hrun, hfits, hsame⟩ := ih ((card_distinctIds_le_concat _ _ _).trans hle)
    rw [distinctIds_concat] at hle
    obtain ⟨gn', hins, hfits', hsame'⟩ := hsame.step hfits hle r.callback r.xs _
    rw [hreg, instanceInsertAll_concat, hrun, distinctIds_concat, List.foldl_append]
    exact ⟨gn', hins, hfits', hsame'⟩

end MibGroupNode

/-! ### The number of children a group has room for -/

section Children

variable {regs : List (UInt32 × MibNode)} {x : UInt32} {child : MibNode}

/-- A registration is in order exactly if it leaves no child more than the last capacity. -/
lemma insertKept_iff (hle : (distinctIds regs).card ≤ lastCapacity) :
    InsertKept regs x child ↔
      (distinctIds (regs ++ [(x, child)])).card ≤ lastCapacity := by
  obtain ⟨gn, hrun, hfits⟩ := MibGroupNode.instanceInsertAll_fits hle
  rw [InsertKept, distinctIds_concat]
  by_cases hx : x ∈ distinctIds regs
  · obtain ⟨hindex, hins⟩ := hfits.holds.insert_mem hx child
    rw [Finset.insert_eq_of_mem hx]
    refine iff_of_true ⟨gn, hrun, fun _ i hi => ?_, gn, hins, hfits.capacityOk⟩ hle
    simp [hindex] at hi
  · rw [Finset.card_insert_of_notMem hx]
    rcases hle.lt_or_eq with hlt | heq
    · obtain ⟨hexp, gn', hins, hfits'⟩ := hfits.insert_lt hx hlt child
      have hok := hfits'.capacityOk
      rw [Finset.card_insert_of_notMem hx] at hok
      exact iff_of_true ⟨gn, hrun, hexp, gn', hins, hok⟩ hlt
    · obtain ⟨gn', hins, hwrapped⟩ := hfits.insert_last hx heq child
      refine iff_of_false ?_ (by omega)
      rintro ⟨_, hrun', -, _, hins', hok⟩
      obtain rfl := Option.some.inj (hrun.symm.trans hrun')
      obtain rfl := Option.some.inj (hins.symm.trans hins')
      exact hwrapped.not_capacityOk _ hok

end Children

lemma card_le_of_capacityKept {regs : List (UInt32 × MibNode)} (h : CapacityKept regs) :
    (distinctIds regs).card ≤ lastCapacity := by
  induction regs using List.reverseRecOn with
  | nil => exact Nat.zero_le _
  | append_singleton regs reg ih =>
    obtain ⟨hregs, hlast⟩ := capacityKept_concat.mp h
    exact (insertKept_iff (ih hregs)).mp hlast

/-- The capacity of a group is kept through a sequence of registrations, in any order, exactly if there
are no more than 47421 distinct sub-identifiers. -/
theorem capacityKept_iff (regs : List (UInt32 × MibNode)) :
    CapacityKept regs ↔ (distinctIds regs).card ≤ lastCapacity := by
  refine ⟨card_le_of_capacityKept, fun h => ?_⟩
  induction regs using List.reverseRecOn with
  | nil => exact capacityKept_nil
  | append_singleton regs reg ih =>
    have hle := (card_distinctIds_le_concat regs reg.1 reg.2).trans h
    exact capacityKept_concat.mpr ⟨ih hle, (insertKept_iff hle).mpr h⟩

/-- The sub-identifiers from 0 to `n - 1`, one after the other. -/
def ascendingRegs (n : Nat) : List (UInt32 × MibNode) :=
  (List.range n).map fun k => (UInt32.ofNat k, .inst 1)

lemma card_distinctIds_ascendingRegs {n : Nat} (h : n ≤ 2 ^ 32) :
    (distinctIds (ascendingRegs n)).card = n := by
  have hnodup : ((ascendingRegs n).map Prod.fst).Nodup := by
    rw [ascendingRegs, List.map_map]
    refine List.nodup_range.map_on fun j hj k hk heq => ?_
    have hj' : j < 2 ^ 32 := (List.mem_range.mp hj).trans_le h
    have hk' : k < 2 ^ 32 := (List.mem_range.mp hk).trans_le h
    have htoNat : (UInt32.ofNat j).toNat = (UInt32.ofNat k).toNat := congrArg UInt32.toNat heq
    rwa [UInt32.toNat_ofNat_of_lt' hj', UInt32.toNat_ofNat_of_lt' hk'] at htoNat
  rw [distinctIds, List.toFinset_card_of_nodup hnodup]
  simp [ascendingRegs]

/-- With one child more the capacity that is stored is not the number of slots. -/
theorem not_capacityKept_ascendingRegs : ¬ CapacityKept (ascendingRegs 47422) := by
  intro h
  have hle := card_le_of_capacityKept h
  rw [card_distinctIds_ascendingRegs (by decide), lastCapacity] at hle
  omega

end SmartSnmp
