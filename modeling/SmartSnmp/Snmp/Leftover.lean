import SmartSnmp.Snmp.Access
import SmartSnmp.Snmp.Codec

/-!
# What an earlier varbind leaves behind

The loops over the varbinds of a request share one result structure, which is cleared once. Two
variables are compared here that differ in what is left of earlier varbinds: they are encoded alike
unless the encoder reads more than was stored for the last one.
-/

namespace SmartSnmp

open Bytes PrefixOrder

/-- Handlers without side effects: a reply does not depend on the calls made before. -/
def Stateless (handlers : Handlers) : Prop := ∀ l l' c, handlers l c = handlers l' c

/-! ### Variables -/

/-- The tags of the values that take a word. -/
def wordTag (tag : UInt8) : Bool :=
  tag = asn1TagInt || tag = asn1TagCnt || tag = asn1TagGau || tag = asn1TagTimeticks

/-- How many bytes of the union the encoder reads. -/
def extent (tag : UInt8) (len : Nat) : Nat :=
  if wordTag tag then 4
  else if tag = asn1TagObjid then 4 * len
  else if tag = asn1TagOctstr ∨ tag = asn1TagIpaddr then len
  else 0

namespace Variable

/-- The union has its size. -/
def Whole (var : Variable) : Prop := var.value.length = mibValueMaxLen

/-- Two variables that may differ after their first `len` bytes. -/
structure Alike (a b : Variable) : Prop where
  tag : a.tag = b.tag
  len : a.len = b.len
  left : a.Whole
  right : b.Whole
  elems : a.value.take a.len = b.value.take a.len

lemma Alike.size {a b : Variable} (h : a.Alike b) : a.value.length = b.value.length :=
  Eq.trans h.left (Eq.symm h.right)

/-- Two variables do not differ in what the encoder reads. -/
def Solid (a b : Variable) : Prop :=
  a.value.take (extent a.tag a.len) = b.value.take (extent a.tag a.len)

/-- A tag whose values are no words and no OIDs has nothing left of an earlier value. -/
lemma Alike.solid {a b : Variable} (h : a.Alike b) (hword : wordTag a.tag = false)
    (hobjid : a.tag ≠ asn1TagObjid) : a.Solid b := by
  rw [Solid, extent, hword, if_neg (by simp), if_neg hobjid]
  split_ifs
  · exact h.elems
  · simp

end Variable

lemma extent_of_wordTag {tag : UInt8} (len : Nat) (h : wordTag tag = true) : extent tag len = 4 := by
  simp [extent, h]

lemma extent_objid (len : Nat) : extent asn1TagObjid len = 4 * len := rfl

lemma extent_octstr {tag : UInt8} (len : Nat) (h : tag = asn1TagOctstr ∨ tag = asn1TagIpaddr) :
    extent tag len = len := by
  rcases h with rfl | rfl <;> rfl

/-- What is stored for a value is as long as what is encoded of it. -/
lemma extent_toVariable {tag : UInt8} {val : LuaValue} {len : Nat} {bytes : List UInt8}
    (h : val.toVariable tag = some (len, bytes)) :
    len ≤ bytes.length ∧ extent tag len = bytes.length := by
  rw [LuaValue.toVariable] at h
  have hlen : val.objLen % 65536 ≤ val.objLen := Nat.mod_le _ _
  split_ifs at h with hword hoct hip hobj
  · have hw : wordTag tag = true := by
      rcases hword with rfl | rfl | rfl | rfl <;> rfl
    obtain ⟨rfl, rfl⟩ : 1 = len ∧ _ = bytes := by simpa using h
    rw [extent_of_wordTag _ hw, length_leBytes]
    exact ⟨by omega, rfl⟩
  · obtain ⟨s, hs, heq⟩ := Option.map_eq_some_iff.mp h
    obtain ⟨rfl, rfl⟩ := Prod.mk.inj heq
    rw [extent_octstr _ (.inl hoct), LuaValue.length_octets hlen hs]
    exact ⟨le_rfl, rfl⟩
  · obtain ⟨xs, hxs, heq⟩ := Option.map_eq_some_iff.mp h
    obtain ⟨rfl, rfl⟩ := Prod.mk.inj heq
    rw [extent_octstr _ (.inr hip), List.length_map, LuaValue.length_elements hlen hxs]
    exact ⟨le_rfl, rfl⟩
  · obtain ⟨xs, hxs, heq⟩ := Option.map_eq_some_iff.mp h
    obtain ⟨rfl, rfl⟩ := Prod.mk.inj heq
    subst hobj
    rw [extent_objid, length_flatMap_word _ fun x => length_leBytes 4 _,
      LuaValue.length_elements hlen hxs]
    exact ⟨by omega, rfl⟩

/-- What is decoded from a value is as long as what is encoded of it, but for an empty number. -/
lemma extent_berValueDec {buf : List UInt8} {type : UInt8} {len : Nat} {bytes : List UInt8}
    (h : berValueDec buf type = some (len, bytes)) :
    len ≤ bytes.length ∧ (¬ (wordTag type = true ∧ buf = []) → extent type len ≤ bytes.length) := by
  cases berValueDec_decoded h with
  | empty hnil =>
    refine ⟨le_rfl, fun hnot => ?_⟩
    have hw : ¬ wordTag type = true := fun hw => hnot ⟨hw, hnil⟩
    simp [extent, hw]
  | int _ htype =>
    rw [extent_of_wordTag 1 (by rcases htype with rfl | rfl <;> rfl), length_wordBytes]
    exact ⟨by omega, fun _ => le_rfl⟩
  | uint _ htype =>
    rw [extent_of_wordTag 1 (by rcases htype with rfl | rfl <;> rfl), length_wordBytes]
    exact ⟨by omega, fun _ => le_rfl⟩
  | objid _ htype =>
    rw [length_flatMap_word _ length_wordBytes, htype, extent_objid]
    exact ⟨by omega, fun _ => le_rfl⟩
  | str _ htype => exact ⟨le_rfl, fun _ => (extent_octstr _ htype).le⟩
  | other _ hint huint hobj =>
    have hw : wordTag type = false := by
      push Not at hint huint
      simp [wordTag, hint.1, hint.2, huint.1, huint.2]
    simp [extent, hw, hobj]

/-! ### Results -/

/-- An error status with the tag of a number or an OID: the value is not stored, but it is encoded. -/
def Reply.Hollow : Reply → Prop
  | .error => False
  | .results errStat _ _ tag => errStat ≠ 0 ∧ (wordTag tag = true ∨ tag = asn1TagObjid)

/-- The call of a GET search. -/
def getCall (callback : Int) (suffix : Oid) : Call := ⟨callback, .get, suffix, .nil, none⟩

/-! ### Varbinds -/

lemma oidAt_take (mem : List UInt8) (len : Nat) (h : 4 * len ≤ mem.length) :
    oidAt (mem.take (4 * len)) len = oidAt mem len := by
  rw [oidAt, oidAt, if_pos h, if_pos (by simp [h])]
  refine congrArg some (List.map_congr_left fun i hi => ?_)
  have hi : i < len := List.mem_range.mp hi
  rw [List.drop_take, List.take_take, min_eq_left (by omega)]

namespace Variable.Alike

variable {a b : Variable}

lemma oidAt (h : a.Alike b) (hs : a.value.take (4 * a.len) = b.value.take (4 * a.len)) :
    SmartSnmp.oidAt a.value a.len = SmartSnmp.oidAt b.value b.len := by
  rw [← h.len]
  by_cases hlen : 4 * a.len ≤ a.value.length
  · have hlen' : 4 * a.len ≤ b.value.length := h.size ▸ hlen
    rw [← oidAt_take a.value _ hlen, hs, oidAt_take b.value _ hlen']
  · rw [SmartSnmp.oidAt, SmartSnmp.oidAt, if_neg hlen, if_neg (h.size ▸ hlen)]

/-- What is encoded of two variables that do not differ there is the same. -/
lemma encoded (h : a.Alike b) (hs : a.Solid b) :
    berValueEncTry a.value a.len a.tag = berValueEncTry b.value b.len b.tag ∧
      berValueEnc a.value a.len a.tag = berValueEnc b.value b.len b.tag := by
  rw [← h.tag]
  rw [Solid, extent] at hs
  have hstring : (if a.len ≤ a.value.length then some (a.value.take a.len) else none) =
      if b.len ≤ b.value.length then some (b.value.take b.len) else none := by
    rw [← h.len, h.elems, h.size]
  simp only [berValueEncTry, berValueEnc, hstring]
  by_cases hint : a.tag = asn1TagInt ∨ a.tag = asn1TagCnt
  · have hw : wordTag a.tag = true := by rcases hint with h | h <;> rw [h] <;> rfl
    rw [if_pos hw] at hs
    simp only [if_pos hint, wordAt, hs, and_self]
  by_cases huint : a.tag = asn1TagGau ∨ a.tag = asn1TagTimeticks
  · have hw : wordTag a.tag = true := by rcases huint with h | h <;> rw [h] <;> rfl
    rw [if_pos hw] at hs
    simp only [if_neg hint, if_pos huint, wordAt, hs, and_self]
  by_cases hobj : a.tag = asn1TagObjid
  · rw [if_neg (by rw [hobj]; decide), if_pos hobj] at hs
    simp only [if_neg hint, if_neg huint, if_pos hobj, h.oidAt hs, and_self]
  · simp only [if_neg hint, if_neg huint, if_neg hobj, h.len, and_self]

end Variable.Alike

/-- The varbind is a number without content. -/
def VarBind.EmptyNumber (vb : VarBind) : Prop := wordTag vb.valueType = true ∧ vb.value = []

/-! ### Requesters -/

lemma var_checkAccess (e : Option ViewEntry) (ret : OidSearchRes) :
    (checkAccess e ret).var = ret.var := by
  rw [checkAccess]
  split_ifs <;> rfl

/-- Two datagrams of the same requester. -/
structure SnmpDatagram.SameRequester (sdg₁ sdg₂ : SnmpDatagram) : Prop where
  version : sdg₁.version = sdg₂.version
  userName : sdg₁.userName = sdg₂.userName
  contextName : sdg₁.contextName = sdg₂.contextName

lemma SnmpDatagram.SameRequester.requester {sdg₁ sdg₂ : SnmpDatagram}
    (h : sdg₁.SameRequester sdg₂) (mv : MibViews) : requester mv sdg₁ = requester mv sdg₂ := by
  simp only [SmartSnmp.requester, h.version, h.userName, h.contextName]

/-- The search can be answered from the varbind alone: its requester has a view, or it has content
to echo. -/
def Answerable (mv : MibViews) (sdg : SnmpDatagram) (vb : VarBind) : Prop :=
  requester mv sdg ≠ none ∨ ¬ vb.EmptyNumber

end SmartSnmp
