import SmartSnmp.AgentX.MsgOut

/-!
# The wire format of AgentX

What stands in the payload of a PDU, in either byte order, and what a little-endian host reads from
it. The decoder turns the fields of the headers and the types of varbinds, but not what is inside of
OIDs and values.
-/

namespace SmartSnmp

open Bytes Reader

variable {ε α : Type}

/-! ### Words -/

@[simp] lemma length_bytes16 (x : UInt16) : (bytes16 x).length = 2 := length_leBytes 2 _

@[simp] lemma length_bytes32 (x : UInt32) : (bytes32 x).length = 4 := length_leBytes 4 _

lemma parses_uint16 (x : UInt16) : Parses (uint16 : Reader ε UInt16) (bytes16 x) x := by
  apply (parses_bytes (length_bytes16 x)).bind_nil
  have h : UInt16.ofNat (leNat (bytes16 x)) = x := by
    have hx : x.toNat < 256 ^ 2 := x.toNat_lt
    rw [bytes16, leNat_leBytes, Nat.mod_eq_of_lt hx]
    exact UInt16.ofNat_toNat
  rw [h]
  exact parses_pure x

lemma parses_uint32 (x : UInt32) : Parses (uint32 : Reader ε UInt32) (bytes32 x) x := by
  apply (parses_bytes (length_bytes32 x)).bind_nil
  have h : UInt32.ofNat (leNat (bytes32 x)) = x := by
    have hx : x.toNat < 256 ^ 4 := x.toNat_lt
    rw [bytes32, leNat_leBytes, Nat.mod_eq_of_lt hx]
    exact UInt32.ofNat_toNat
  rw [h]
  exact parses_pure x

/-- The bytes of a number, which are given as in the memory of the host. -/
def ordered (nbo : Bool) (bs : List UInt8) : List UInt8 := if nbo then bs.reverse else bs

@[simp] lemma length_ordered (nbo : Bool) (bs : List UInt8) : (ordered nbo bs).length = bs.length := by
  cases nbo <;> simp [ordered]

@[simp] lemma ordered_false (bs : List UInt8) : ordered false bs = bs := rfl

@[simp] lemma ordered_true (bs : List UInt8) : ordered true bs = bs.reverse := rfl

/-- The word that a host reads which does not turn it. -/
def seen16 (nbo : Bool) (x : UInt16) : UInt16 := if nbo then ntoh16 x else x

def seen32 (nbo : Bool) (x : UInt32) : UInt32 := if nbo then ntoh32 x else x

lemma toNat_ntoh16 (x : UInt16) : (ntoh16 x).toNat = swap 2 x.toNat := by
  rw [ntoh16, UInt16.toNat_ofNat']
  exact Nat.mod_eq_of_lt (swap_lt 2 x.toNat)

lemma toNat_ntoh32 (x : UInt32) : (ntoh32 x).toNat = swap 4 x.toNat := by
  rw [ntoh32, UInt32.toNat_ofNat']
  exact Nat.mod_eq_of_lt (swap_lt 4 x.toNat)

@[simp] lemma ntoh16_ntoh16 (x : UInt16) : ntoh16 (ntoh16 x) = x := by
  apply UInt16.toNat_inj.mp
  rw [toNat_ntoh16, toNat_ntoh16, swap_swap x.toNat_lt]

@[simp] lemma ntoh32_ntoh32 (x : UInt32) : ntoh32 (ntoh32 x) = x := by
  apply UInt32.toNat_inj.mp
  rw [toNat_ntoh32, toNat_ntoh32, swap_swap x.toNat_lt]

lemma ordered_bytes16 (nbo : Bool) (x : UInt16) : ordered nbo (bytes16 x) = bytes16 (seen16 nbo x) := by
  cases nbo with
  | false => rfl
  | true => rw [seen16, if_pos rfl, bytes16, bytes16, toNat_ntoh16, leBytes_swap]; rfl

lemma ordered_bytes32 (nbo : Bool) (x : UInt32) : ordered nbo (bytes32 x) = bytes32 (seen32 nbo x) := by
  cases nbo with
  | false => rfl
  | true => rw [seen32, if_pos rfl, bytes32, bytes32, toNat_ntoh32, leBytes_swap]; rfl

lemma parses_field16 {flags : UInt8} {nbo : Bool} (h : hasFlag flags networkByteOrder = nbo)
    (x : UInt16) : Parses (field16 flags : Reader ε UInt16) (ordered nbo (bytes16 x)) x := by
  rw [ordered_bytes16]
  apply (parses_uint16 _).bind_nil
  rw [h]
  cases nbo with
  | false => exact parses_pure x
  | true =>
    simp only [seen16, if_true, ntoh16_ntoh16]
    exact parses_pure x

lemma parses_field32 {flags : UInt8} {nbo : Bool} (h : hasFlag flags networkByteOrder = nbo)
    (x : UInt32) : Parses (field32 flags : Reader ε UInt32) (ordered nbo (bytes32 x)) x := by
  rw [ordered_bytes32]
  apply (parses_uint32 _).bind_nil
  rw [h]
  cases nbo with
  | false => exact parses_pure x
  | true =>
    simp only [seen32, if_true, ntoh32_ntoh32]
    exact parses_pure x

lemma wordsOf_append (a : UInt32) (rest : List UInt8) :
    wordsOf (bytes32 a ++ rest) = a :: wordsOf rest := by
  have h : ∀ bs : List UInt8, bs.length = 4 →
      wordsOf (bs ++ rest) = UInt32.ofNat (leNat bs) :: wordsOf rest := by
    intro bs hbs
    obtain ⟨a, b, c, d, rfl⟩ := List.length_eq_four.mp hbs
    rfl
  have ha : a.toNat < 256 ^ 4 := a.toNat_lt
  rw [h _ (length_bytes32 a), bytes32, leNat_leBytes, Nat.mod_eq_of_lt ha]
  simp

lemma wordsOf_flatMap (oid : Oid) : wordsOf (oid.flatMap bytes32) = oid := by
  induction oid with
  | nil => rfl
  | cons a oid ih => rw [List.flatMap_cons, wordsOf_append, ih]

@[simp] lemma length_flatMap_bytes32 (oid : Oid) : (oid.flatMap bytes32).length = 4 * oid.length := by
  induction oid with
  | nil => rfl
  | cons a oid ih =>
    rw [List.flatMap_cons, List.length_append, ih, length_bytes32, List.length_cons]
    omega

/-! ### OIDs -/

/-- An OID on the wire, short enough for the decoder. It is empty where it has neither a prefix nor
sub-identifiers. -/
structure WireOid where
  pre : UInt8
  incl : UInt8
  subIds : Oid
  short : subIds.length + 5 ≤ mibOidMaxLen

namespace WireOid

def bytes (nbo : Bool) (o : WireOid) : List UInt8 :=
  [UInt8.ofNat o.subIds.length, o.pre, o.incl, 0] ++
    o.subIds.flatMap fun x => ordered nbo (bytes32 x)

/-- The OID that the decoder makes of it. -/
def read (nbo : Bool) (o : WireOid) : Oid :=
  if o.subIds = [] ∧ o.pre = 0 then []
  else 1 :: 3 :: 6 :: 1 :: o.pre.toUInt32 :: o.subIds.map (seen32 nbo)

variable (nbo : Bool) (o : WireOid)

lemma bytes_eq : o.bytes nbo =
    [UInt8.ofNat o.subIds.length, o.pre, o.incl, 0] ++ (o.subIds.map (seen32 nbo)).flatMap bytes32 := by
  simp only [bytes, ordered_bytes32, List.flatMap_map]

@[simp] lemma length_bytes : (o.bytes nbo).length = 4 + 4 * o.subIds.length := by
  rw [bytes_eq, List.length_append, length_flatMap_bytes32, List.length_map]
  rfl

lemma toNat_length : (UInt8.ofNat o.subIds.length).toNat = o.subIds.length := by
  have h := o.short
  simp only [mibOidMaxLen] at h
  simp
  omega

lemma isEmpty_iff : (UInt8.ofNat o.subIds.length = 0 ∧ o.pre = 0) ↔ o.subIds = [] ∧ o.pre = 0 := by
  apply and_congr_left
  intro _
  rw [← UInt8.toNat_inj, toNat_length]
  exact List.length_eq_zero_iff

lemma length_read_le : (o.read nbo).length ≤ mibOidMaxLen := by
  rw [read]
  split_ifs
  · simp
  · have h := o.short
    simp only [List.length_cons, List.length_map]
    omega

lemma oidAdvance_eq : oidAdvance (4 * (o.read nbo).length) = (o.bytes nbo).length := by
  rw [length_bytes, read]
  split_ifs with h
  · rw [h.1]
    rfl
  · simp only [oidAdvance, List.length_cons, List.length_map]
    split_ifs <;> omega

lemma expandedPrefix_eq (pre : UInt8) :
    expandedPrefix pre = [1, 3, 6, 1, pre.toUInt32].flatMap bytes32 := by
  have h : [pre, 0, 0, 0] = bytes32 pre.toUInt32 := by
    have hpre : pre.toNat < 256 := pre.toNat_lt
    simp only [bytes32, leBytes, UInt8.toNat_toUInt32, Nat.div_eq_of_lt hpre]
    simp
  rw [List.flatMap_cons, List.flatMap_cons, List.flatMap_cons, List.flatMap_cons, List.flatMap_cons,
    ← h]
  rfl

/-- The sub-identifiers are read as they stand in memory. -/
lemma parses_oidDec : Parses (agentxOidDec : Reader ε DecodedValue) (o.bytes nbo)
    ⟨(o.read nbo).length, (o.read nbo).flatMap bytes32, (o.bytes nbo).length⟩ := by
  rw [length_bytes, bytes_eq]
  refine (parses_byte _).bind ((parses_byte o.pre).bind
    ((parses_skip (rfl : [o.incl, (0 : UInt8)].length = 2)).bind ?_))
  simp only [isEmpty_iff, read]
  split_ifs with h
  · rw [h.1]
    exact parses_pure _
  · rw [toNat_length]
    apply (parses_bytes (by rw [length_flatMap_bytes32, List.length_map])).bind_nil
    rw [expandedPrefix_eq, ← List.flatMap_append]
    simp only [List.length_cons, List.length_map, List.cons_append, List.nil_append]
    exact parses_pure _

/-- The dry run finds the length of an OID in memory. -/
lemma looks_decTry (flag : UInt8) :
    Looks (agentxValueDecTry flag asn1TagObjid : Reader ε Nat) (o.bytes nbo)
      (4 * (o.read nbo).length) := by
  have hdec : Looks (agentxValueDecTry flag asn1TagObjid : Reader ε Nat)
      ([UInt8.ofNat o.subIds.length] ++ ([o.pre] ++ [])) (4 * (o.read nbo).length) := by
    refine (parses_byte _).looks_bind ((parses_byte o.pre).looks_bind ?_)
    simp only [isEmpty_iff, read]
    split_ifs with h
    · exact (parses_pure _).looks
    · rw [toNat_length, Nat.mul_comm, List.length_cons, List.length_cons, List.length_cons,
        List.length_cons, List.length_cons, List.length_map]
      exact (parses_pure _).looks
  exact hdec.append ([o.incl, 0] ++ o.subIds.flatMap fun x => ordered nbo (bytes32 x))

/-- The third byte is found where it stands. -/
lemma looks_incl : Looks (do skip 2; byte : Reader ε UInt8) (o.bytes nbo) o.incl :=
  fun _ => ⟨_, rfl⟩

end WireOid

/-! ### Values -/

/-- The types whose values take bytes. -/
def carriesValue (type : UInt8) : Bool :=
  isWordType type || type = asn1TagCnt64 || isStringType type || type = asn1TagObjid

/-- A value on the wire, short enough for the decoder. Numbers are given as in the memory of the
host. -/
inductive WireValue where
  | word (type : UInt8) (value : List UInt8) : isWordType type → value.length = 4 → WireValue
  | cnt64 (value : List UInt8) : value.length = 8 → WireValue
  | str (type : UInt8) (value : List UInt8) : isStringType type → value.length ≤ mibValueMaxLen →
      WireValue
  | objid (o : WireOid)
  | none (type : UInt16) : ¬ carriesValue type.toUInt8 → WireValue

namespace WireValue

def type : WireValue → UInt16
  | word type _ _ _ => type.toUInt16
  | cnt64 _ _ => asn1TagCnt64.toUInt16
  | str type _ _ _ => type.toUInt16
  | objid _ => asn1TagObjid.toUInt16
  | none type _ => type

/-- A string is preceded by its length and padded to words. -/
def bytes (nbo : Bool) : WireValue → List UInt8
  | word _ value _ _ => ordered nbo value
  | cnt64 value _ => ordered nbo value
  | str _ value _ _ => ordered nbo (bytes32 (UInt32.ofNat value.length)) ++
      (value ++ List.replicate (uintSizeof value.length - value.length) 0)
  | objid o => o.bytes nbo
  | none _ _ => []

/-- The number of elements of a value, as the decoder counts them. -/
def count (nbo : Bool) : WireValue → Nat
  | word .. => 1
  | cnt64 .. => 1
  | str _ value _ _ => value.length
  | objid o => (o.read nbo).length
  | none .. => 0

/-- The value that the decoder writes to memory. -/
def read (nbo : Bool) : WireValue → List UInt8
  | word _ value _ _ => ordered nbo value
  | cnt64 value _ => ordered nbo value
  | str _ value _ _ => value
  | objid o => (o.read nbo).flatMap bytes32
  | none _ _ => []

/-- The length of a string in network byte order is taken for a large one. -/
def Readable (nbo : Bool) : WireValue → Prop
  | str _ value _ _ => nbo = false ∨ value = []
  | _ => True

/-- The classes of types do not overlap. -/
lemma isWordType_cases {type : UInt8} (h : isWordType type) :
    ¬ isStringType type ∧ type ≠ asn1TagObjid ∧ carriesValue type := by
  simp only [isWordType, Bool.or_eq_true, decide_eq_true_eq] at h
  obtain ((rfl | rfl) | rfl) | rfl := h <;> decide

lemma isStringType_cases {type : UInt8} (h : isStringType type) :
    ¬ isWordType type ∧ type ≠ asn1TagCnt64 := by
  simp only [isStringType, Bool.or_eq_true, decide_eq_true_eq] at h
  obtain rfl | rfl := h <;> decide

lemma carriesValue_cases {type : UInt8} (h : ¬ carriesValue type) :
    ¬ isWordType type ∧ type ≠ asn1TagCnt64 ∧ ¬ isStringType type ∧ type ≠ asn1TagObjid := by
  simp only [carriesValue, Bool.or_eq_true, decide_eq_true_eq, not_or] at h
  exact ⟨h.1.1.1, h.1.1.2, h.1.2, h.2⟩

lemma le_uintSizeof (n : Nat) : n ≤ uintSizeof n := by
  simp only [uintSizeof]
  omega

/-- The decoder on a string. -/
lemma valueDec_str {flag type : UInt8} (ht : isStringType type) :
    (agentxValueDec flag type : Reader ε DecodedValue) = (do
      let len ← uint32
      let value ← Reader.bytes len.toNat
      skip (uintSizeof len.toNat - len.toNat)
      pure ⟨len.toNat, value, 4 + uintSizeof len.toNat⟩) := by
  obtain ⟨hword, hcnt⟩ := isStringType_cases ht
  simp [agentxValueDec, ht, hword, hcnt]

lemma valueDecTry_str {flag type : UInt8} (ht : isStringType type) :
    (agentxValueDecTry flag type : Reader ε Nat) = (do
      let len ← uint32
      pure len.toNat) := by
  obtain ⟨hword, hcnt⟩ := isStringType_cases ht
  simp [agentxValueDecTry, ht, hword, hcnt]

/-- The length of a string, if it is read in the right order. -/
lemma toNat_length {value : List UInt8} (h : value.length ≤ mibValueMaxLen) :
    (UInt32.ofNat value.length).toNat = value.length := by
  rw [UInt32.toNat_ofNat']
  exact Nat.mod_eq_of_lt (h.trans_lt (by decide))

lemma ordered_length {nbo : Bool} {value : List UInt8} (h : nbo = false ∨ value = []) :
    ordered nbo (bytes32 (UInt32.ofNat value.length)) = bytes32 (UInt32.ofNat value.length) := by
  obtain rfl | rfl := h
  · rfl
  · cases nbo <;> rfl

lemma parses_valueDec {nbo : Bool} {v : WireValue} (h : v.Readable nbo) (flag : UInt8) :
    Parses (agentxValueDec flag v.type.toUInt8 : Reader ε DecodedValue) (v.bytes nbo)
      ⟨v.count nbo, v.read nbo, (v.bytes nbo).length⟩ := by
  cases v with
  | word type value ht hv =>
    obtain ⟨hstr, hobj, hval⟩ := isWordType_cases ht
    simp only [agentxValueDec, WireValue.type, UInt8.toUInt8_toUInt16, ht, if_true, bytes, count, read,
      length_ordered, hv]
    exact (parses_bytes (by simpa using hv)).bind_nil (parses_pure _)
  | cnt64 value hv =>
    simp only [bytes, length_ordered, hv]
    exact (parses_bytes (by simpa using hv)).bind_nil (parses_pure _)
  | str type value ht hv =>
    have hpad := le_uintSizeof value.length
    have hlen : (bytes nbo (str type value ht hv)).length = 4 + uintSizeof value.length := by
      simp [bytes]
      omega
    rw [hlen, WireValue.type, UInt8.toUInt8_toUInt16, valueDec_str ht, bytes, ordered_length h]
    apply (parses_uint32 _).bind
    rw [toNat_length hv]
    exact (parses_bytes rfl).bind ((parses_skip List.length_replicate).bind_nil (parses_pure _))
  | objid o => exact o.parses_oidDec nbo
  | none type ht =>
    obtain ⟨hword, hcnt, hstr, hobj⟩ := carriesValue_cases ht
    simp only [agentxValueDec, WireValue.type, hword, hcnt, hstr, hobj, if_false, Bool.false_eq_true]
    exact parses_pure _

lemma looks_decTry {nbo : Bool} {v : WireValue} (h : v.Readable nbo) (flag : UInt8) :
    ∃ n ≤ mibValueMaxLen,
      Looks (agentxValueDecTry flag v.type.toUInt8 : Reader ε Nat) (v.bytes nbo) n := by
  cases v with
  | word type value ht hv =>
    refine ⟨8, by decide, ?_⟩
    simp only [agentxValueDecTry, WireValue.type, UInt8.toUInt8_toUInt16, ht, Bool.true_or, if_true]
    exact (parses_pure 8).looks.append _
  | cnt64 value hv => exact ⟨8, by decide, (parses_pure 8).looks.append _⟩
  | str type value ht hv =>
    refine ⟨value.length, hv, ?_⟩
    rw [WireValue.type, UInt8.toUInt8_toUInt16, valueDecTry_str ht, bytes, ordered_length h]
    refine Looks.append ?_ _
    refine ((parses_uint32 _).bind_nil ?_).looks
    rw [toNat_length hv]
    exact parses_pure _
  | objid o =>
    refine ⟨_, ?_, o.looks_decTry nbo flag⟩
    exact (Nat.mul_le_mul_left 4 (o.length_read_le nbo)).trans (by decide)
  | none type ht =>
    obtain ⟨hword, hcnt, hstr, hobj⟩ := carriesValue_cases ht
    refine ⟨0, by decide, ?_⟩
    simp only [agentxValueDecTry, WireValue.type, hword, hcnt, hstr, hobj, if_false,
      Bool.false_eq_true, decide_false, Bool.or_self]
    exact (parses_pure _).looks

/-- A short length that is turned around is a long one. -/
lemma lt_swap {n : Nat} (hpos : 0 < n) (hle : n ≤ mibValueMaxLen) : mibValueMaxLen < swap 4 n := by
  simp only [mibValueMaxLen] at hle ⊢
  simp only [swap, beBytes, leBytes, leNat, List.reverse_cons, List.reverse_nil, List.nil_append,
    List.cons_append, UInt8.toNat_ofNat']
  omega

lemma looks_decTry_of_not_readable {nbo : Bool} {v : WireValue} (h : ¬ v.Readable nbo) (flag : UInt8) :
    ∃ n, mibValueMaxLen < n ∧
      Looks (agentxValueDecTry flag v.type.toUInt8 : Reader ε Nat) (v.bytes nbo) n := by
  cases v with
  | str type value ht hv =>
    obtain ⟨hnbo, hne⟩ := not_or.mp h
    rw [Bool.not_eq_false] at hnbo
    subst hnbo
    refine ⟨swap 4 value.length, lt_swap (List.length_pos_iff.mpr hne) hv, ?_⟩
    rw [WireValue.type, UInt8.toUInt8_toUInt16, valueDecTry_str ht, bytes, ordered_bytes32]
    refine Looks.append ?_ _
    refine ((parses_uint32 _).bind_nil ?_).looks
    rw [seen32, if_pos rfl, toNat_ntoh32, toNat_length hv]
    exact parses_pure _
  | word _ _ _ _ => exact absurd trivial h
  | cnt64 _ _ => exact absurd trivial h
  | objid _ => exact absurd trivial h
  | none _ _ => exact absurd trivial h

end WireValue

/-! ### Varbinds and search ranges -/

structure WireVarBind where
  name : WireOid
  value : WireValue

namespace WireVarBind

def bytes (nbo : Bool) (vb : WireVarBind) : List UInt8 :=
  ordered nbo (bytes16 vb.value.type) ++ ([0, 0] ++ (vb.name.bytes nbo ++ vb.value.bytes nbo))

/-- The varbind that the decoder makes of it. -/
def read (nbo : Bool) (vb : WireVarBind) : XVarBind :=
  ⟨vb.name.read nbo, vb.value.type, vb.value.count nbo, vb.value.read nbo, []⟩

variable {flag : UInt8} {nbo : Bool}

lemma length_bytes_pos (vb : WireVarBind) : 0 < (vb.bytes nbo).length := by
  simp [bytes]

lemma parses_alloc (hflag : hasFlag flag networkByteOrder = nbo) {vb : WireVarBind}
    (h : vb.value.Readable nbo) :
    Parses (xVarBindAlloc flag) (vb.bytes nbo) (vb.read nbo, (vb.bytes nbo).length) := by
  refine (parses_field16 hflag vb.value.type).bind
    ((parses_skip (rfl : [(0 : UInt8), 0].length = 2)).bind ?_)
  apply ((vb.name.looks_decTry nbo flag).append _).peek_bind
  refine (parses_failIf ?_ _).nil_bind ?_
  · have := vb.name.length_read_le nbo
    omega
  rw [vb.name.oidAdvance_eq]
  obtain ⟨n, hn, hlooks⟩ := WireValue.looks_decTry h flag
  apply ((parses_skip rfl).looks_bind hlooks).peek_bind
  apply (parses_failIf (Nat.not_lt.mpr hn) _).nil_bind
  apply ((vb.name.parses_oidDec nbo).looks.append _).peek_bind
  refine (parses_skip rfl).bind ((WireValue.parses_valueDec h flag).bind_nil ?_)
  have hlen : 4 + (vb.name.bytes nbo).length + (vb.value.bytes nbo).length = (vb.bytes nbo).length := by
    simp only [bytes, List.length_append, length_ordered, length_bytes16, List.length_cons,
      List.length_nil]
    omega
  simp only [wordsOf_flatMap, hlen]
  exact parses_pure _

lemma rejects_alloc (hflag : hasFlag flag networkByteOrder = nbo) {vb : WireVarBind}
    (h : ¬ vb.value.Readable nbo) : Rejects (xVarBindAlloc flag) (vb.bytes nbo) .vbValueLen := by
  refine (parses_field16 hflag vb.value.type).bind_rejects
    ((parses_skip (rfl : [(0 : UInt8), 0].length = 2)).bind_rejects ?_)
  apply ((vb.name.looks_decTry nbo flag).append _).peek_rejects
  refine (parses_failIf ?_ _).nil_bind_rejects ?_
  · have := vb.name.length_read_le nbo
    omega
  rw [vb.name.oidAdvance_eq]
  obtain ⟨n, hn, hlooks⟩ := WireValue.looks_decTry_of_not_readable h flag
  apply ((parses_skip rfl).looks_bind hlooks).peek_rejects
  exact rejects_failIf_bind hn _ _

end WireVarBind

structure WireRange where
  start : WireOid
  stop : WireOid

namespace WireRange

def bytes (nbo : Bool) (sr : WireRange) : List UInt8 := sr.start.bytes nbo ++ sr.stop.bytes nbo

/-- The search range that the decoder makes of it. -/
def read (nbo : Bool) (sr : WireRange) : XSearchRange :=
  ⟨sr.start.read nbo, sr.stop.read nbo, sr.start.incl, sr.stop.incl⟩

lemma parses_alloc (flag : UInt8) (nbo : Bool) (sr : WireRange) :
    Parses (searchRangeAlloc flag) (sr.bytes nbo) (sr.read nbo, (sr.bytes nbo).length) := by
  have hshort : ∀ o : WireOid, ¬ mibOidMaxLen < 4 * (o.read nbo).length / 4 := by
    intro o
    have := o.length_read_le nbo
    omega
  apply ((sr.start.looks_decTry nbo flag).append _).peek_bind
  apply (parses_failIf (hshort sr.start) _).nil_bind
  apply ((sr.start.looks_incl nbo).append _).peek_bind
  apply ((sr.start.parses_oidDec nbo).looks.append _).peek_bind
  rw [sr.start.oidAdvance_eq]
  refine (parses_skip rfl).bind ((sr.stop.looks_decTry nbo flag).peek_bind ?_)
  apply (parses_failIf (hshort sr.stop) _).nil_bind
  refine (sr.stop.looks_incl nbo).peek_bind ((sr.stop.parses_oidDec nbo).bind_nil ?_)
  simp only [wordsOf_flatMap, bytes, List.length_append]
  exact parses_pure _

lemma length_bytes_pos (nbo : Bool) (sr : WireRange) : 0 < (sr.bytes nbo).length := by
  simp [bytes]

end WireRange

/-! ### Payloads -/

section Payload

variable {ι : Type} {alloc : Reader AgentxErrCode (α × Nat)} {enc : ι → List UInt8} {dec : ι → α}

lemma ofNat_add_sub (n m : Nat) : UInt32.ofNat (n + m) - UInt32.ofNat n = UInt32.ofNat m := by
  rw [UInt32.ofNat_add, UInt32.add_comm, UInt32.add_sub_cancel]

/-- The loop goes on while there is a payload. -/
lemma payloadLoop_succ {n m : Nat} (hn : 0 < n) (hlen : n + m < 2 ^ 32) (fuel : Nat) :
    payloadLoop alloc (fuel + 1) (UInt32.ofNat (n + m)) = (do
      let (elem, used) ← alloc
      let (elems, left) ← payloadLoop alloc fuel (UInt32.ofNat (n + m) - UInt32.ofNat used)
      pure (elem :: elems, left)) := by
  have hne : UInt32.ofNat (n + m) ≠ 0 := by
    intro h
    have hzero : n + m = 0 := by
      have := congrArg UInt32.toNat h
      rwa [UInt32.toNat_ofNat', Nat.mod_eq_of_lt hlen] at this
    omega
  rw [payloadLoop, if_neg hne]

/-- The loop over a payload reads one element after the other and ends with the payload. -/
lemma payloadLoop_parses {items : List ι} (hpos : ∀ i ∈ items, 0 < (enc i).length)
    (halloc : ∀ i ∈ items, Parses alloc (enc i) (dec i, (enc i).length)) {fuel : Nat}
    (hfuel : items.length < fuel) (hlen : (items.flatMap enc).length < 2 ^ 32) :
    Parses (payloadLoop alloc fuel (UInt32.ofNat (items.flatMap enc).length)) (items.flatMap enc)
      (items.map dec, 0) := by
  induction items generalizing fuel with
  | nil =>
    obtain ⟨fuel, rfl⟩ : ∃ f, fuel = f + 1 := ⟨fuel - 1, by simp at hfuel; omega⟩
    exact parses_pure _
  | cons i items ih =>
    obtain ⟨fuel, rfl⟩ : ∃ f, fuel = f + 1 := ⟨fuel - 1, by simp at hfuel; omega⟩
    have hi := hpos i List.mem_cons_self
    rw [List.flatMap_cons, List.length_append] at hlen ⊢
    rw [payloadLoop_succ hi hlen]
    apply (halloc i List.mem_cons_self).bind
    simp only [ofNat_add_sub]
    refine (ih (fun j hj => hpos j (List.mem_cons_of_mem i hj))
      (fun j hj => halloc j (List.mem_cons_of_mem i hj)) (by simpa using hfuel)
      (by omega)).bind_nil ?_
    exact parses_pure _

lemma length_le_length_flatMap {items : List ι} (hpos : ∀ i ∈ items, 0 < (enc i).length) :
    items.length ≤ (items.flatMap enc).length := by
  induction items with
  | nil => simp
  | cons i items ih =>
    have hi := hpos i List.mem_cons_self
    have hrest := ih fun j hj => hpos j (List.mem_cons_of_mem i hj)
    simp only [List.flatMap_cons, List.length_append, List.length_cons]
    omega

lemma payloadParse_parses {items : List ι} (hpos : ∀ i ∈ items, 0 < (enc i).length)
    (halloc : ∀ i ∈ items, Parses alloc (enc i) (dec i, (enc i).length))
    (hlen : (items.flatMap enc).length < 2 ^ 32) :
    Parses (payloadParse alloc (UInt32.ofNat (items.flatMap enc).length)) (items.flatMap enc)
      (items.map dec, 0) := by
  intro rest
  have hfuel : items.length < (items.flatMap enc ++ rest).length + 1 := by
    have := length_le_length_flatMap hpos
    rw [List.length_append]
    omega
  exact payloadLoop_parses hpos halloc hfuel hlen rest

/-- The loop over a payload fails at the first element that cannot be read. -/
lemma payloadLoop_rejects {P : ι → Prop} {e : AgentxErrCode} {items : List ι}
    (hpos : ∀ i ∈ items, 0 < (enc i).length)
    (halloc : ∀ i ∈ items, (P i → Parses alloc (enc i) (dec i, (enc i).length)) ∧
      (¬ P i → Rejects alloc (enc i) e)) (hbad : ¬ ∀ i ∈ items, P i) {fuel : Nat}
    (hfuel : items.length < fuel) (hlen : (items.flatMap enc).length < 2 ^ 32) :
    Rejects (payloadLoop alloc fuel (UInt32.ofNat (items.flatMap enc).length)) (items.flatMap enc)
      e := by
  induction items generalizing fuel with
  | nil => simp at hbad
  | cons i items ih =>
    obtain ⟨fuel, rfl⟩ : ∃ f, fuel = f + 1 := ⟨fuel - 1, by simp at hfuel; omega⟩
    rw [List.flatMap_cons, List.length_append] at hlen ⊢
    rw [payloadLoop_succ (hpos i List.mem_cons_self) hlen]
    obtain ⟨hparses, hrejects⟩ := halloc i List.mem_cons_self
    by_cases hi : P i
    · have hbad' : ¬ ∀ j ∈ items, P j := fun h => hbad (List.forall_mem_cons.mpr ⟨hi, h⟩)
      apply (hparses hi).bind_rejects
      simp only [ofNat_add_sub]
      exact (ih (fun j hj => hpos j (List.mem_cons_of_mem i hj))
        (fun j hj => halloc j (List.mem_cons_of_mem i hj)) hbad' (by simpa using hfuel)
        (by omega)).bind
    · exact (hrejects hi).bind.append _

lemma payloadParse_rejects {P : ι → Prop} {e : AgentxErrCode} {items : List ι}
    (hpos : ∀ i ∈ items, 0 < (enc i).length)
    (halloc : ∀ i ∈ items, (P i → Parses alloc (enc i) (dec i, (enc i).length)) ∧
      (¬ P i → Rejects alloc (enc i) e)) (hbad : ¬ ∀ i ∈ items, P i)
    (hlen : (items.flatMap enc).length < 2 ^ 32) :
    Rejects (payloadParse alloc (UInt32.ofNat (items.flatMap enc).length)) (items.flatMap enc) e := by
  intro rest
  have hfuel : items.length < (items.flatMap enc ++ rest).length + 1 := by
    have := length_le_length_flatMap hpos
    rw [List.length_append]
    omega
  exact payloadLoop_rejects hpos halloc hbad hfuel hlen rest

end Payload

end SmartSnmp
