import SmartSnmp.Snmp.Canonical

/-!
# Round trips of an OID

`ber_oid_enc` packs the first two sub-identifiers into one byte and writes the others in groups of
seven bits; `ber_oid_dec` unpacks the byte again and counts the elements in 32 bits.
-/

namespace SmartSnmp

/-- What `ber_oid_dec` returns on non-empty content: the elements are counted in 32 bits. -/
def berOidDecCount (buf : List UInt8) : UInt32 := UInt32.ofNat (berOidDec buf).length

/-! ### Encoding and decoding -/

/-- An OID that ASN.1 allows. -/
structure LegalOid (oid : Oid) : Prop where
  two_le : 2 ≤ oid.length
  le_max : oid.length ≤ mibOidMaxLen
  first : oid.getD 0 0 ≤ 2
  second : oid.getD 0 0 < 2 → oid.getD 1 0 < 40

/-- `ber_oid_dec` returns the OID and its length of what `ber_oid_enc` writes. -/
def OidSurvives (oid : Oid) : Prop :=
  berOidDec (berOidEnc oid) = oid ∧ (berOidDecCount (berOidEnc oid)).toNat = oid.length

lemma berOidDec_berOidEnc (a b : UInt32) (ids : Oid) :
    berOidDec (berOidEnc (a :: b :: ids)) =
      ((a * 40 + b).toUInt8 / 40).toUInt32 :: ((a * 40 + b).toUInt8 % 40).toUInt32 :: ids := by
  rw [berOidEnc, berOidDec, List.headD_cons, List.tail_cons, (isOidTail_flatMap ids).berOidDecLoop]

/-- The byte of the first two sub-identifiers gives them back if the second is below 40. -/
lemma unpack_iff {a b : UInt32} (ha : a ≤ 2) :
    ((a * 40 + b).toUInt8 / 40).toUInt32 = a ∧ ((a * 40 + b).toUInt8 % 40).toUInt32 = b ↔ b < 40 := by
  rw [UInt32.le_iff_toNat_le] at ha
  simp only [UInt32.lt_iff_toNat_lt, ← UInt32.toNat_inj, UInt8.toNat_toUInt32, UInt8.toNat_div,
    UInt8.toNat_mod, UInt32.toNat_toUInt8, UInt32.toNat_add, UInt32.toNat_mul, UInt32.reduceToNat,
    UInt8.reduceToNat] at ha ⊢
  have hbyte : a.toNat * 40 + b.toNat < 256 →
      (a.toNat * 40 % 2 ^ 32 + b.toNat) % 2 ^ 32 % 2 ^ 8 = a.toNat * 40 + b.toNat := by
    omega
  constructor
  · rintro ⟨-, hsecond⟩
    omega
  · intro hb
    rw [hbyte (by omega)]
    omega

/-- An OID survives the encoding exactly if its second sub-identifier is below 40. -/
theorem oidSurvives_iff {oid : Oid} (h : LegalOid oid) : OidSurvives oid ↔ oid.getD 1 0 < 40 := by
  match oid, h with
  | a :: b :: ids, h =>
    rw [OidSurvives, berOidDecCount, berOidDec_berOidEnc]
    constructor
    · rintro ⟨hoid, -⟩
      obtain ⟨hfirst, hoid⟩ := List.cons_eq_cons.mp hoid
      exact (unpack_iff h.first).mp ⟨hfirst, (List.cons_eq_cons.mp hoid).1⟩
    · intro hsecond
      have hmax := h.le_max
      obtain ⟨hfirst, hsecond⟩ := (unpack_iff (a := a) (b := b) h.first).mpr hsecond
      rw [hfirst, hsecond, UInt32.toNat_ofNat', Nat.mod_eq_of_lt (hmax.trans_lt (by decide))]
      exact ⟨rfl, rfl⟩

theorem oidSurvives_iff_sysDescr :
    OidSurvives [1, 3, 6, 1, 2, 1, 1, 1, 0] ↔ ([1, 3, 6, 1, 2, 1, 1, 1, 0] : Oid).getD 1 0 < 40 :=
  oidSurvives_iff ⟨by decide, by decide, by decide, by decide⟩

/-- The OID 2.40 is written as 3.0 is. -/
theorem joint_not_oidSurvives :
    LegalOid [2, 40] ∧ berOidDec (berOidEnc [2, 40]) = [3, 0] ∧ ¬ OidSurvives [2, 40] := by
  refine ⟨⟨by decide, by decide, by decide, by decide⟩, by decide, ?_⟩
  rintro ⟨hoid, -⟩
  exact absurd hoid (by decide)

/-! ### Decoding and encoding -/

/-- `ber_oid_enc` on what `ber_oid_dec` has stored and counted. -/
def berOidRecode (buf : List UInt8) : List UInt8 :=
  berOidEnc ((berOidDec buf).take (berOidDecCount buf).toNat)

section Recode

variable {groups : List (List UInt8)}
  (h : ∀ g ∈ groups, Base128.Minimal g ∧ Base128.value g < 2 ^ 32)

include h

lemma length_berOidDec_groups (first : UInt8) :
    (berOidDec (first :: groups.flatten)).length = groups.length + 2 := by
  rw [berOidDec, List.tail_cons, berOidDecLoop_flatten h]
  simp [groupIds]

/-- The elements can be counted. -/
lemma berOidRecode_of_lt (first : UInt8) (hlt : groups.length + 2 < 2 ^ 32) :
    berOidRecode (first :: groups.flatten) = first :: groups.flatten := by
  have hcount : (berOidDecCount (first :: groups.flatten)).toNat = groups.length + 2 := by
    rw [berOidDecCount, length_berOidDec_groups h, UInt32.toNat_ofNat', Nat.mod_eq_of_lt hlt]
  rw [berOidRecode, List.take_of_length_le (by rw [hcount, length_berOidDec_groups h]),
    berOidEnc_berOidDec h]

/-- The count of the elements is 0. -/
lemma berOidRecode_of_eq (first : UInt8) (heq : groups.length + 2 = 2 ^ 32) :
    berOidRecode (first :: groups.flatten) = [] := by
  have hcount : (berOidDecCount (first :: groups.flatten)).toNat = 0 := by
    rw [berOidDecCount, length_berOidDec_groups h, UInt32.toNat_ofNat', heq, Nat.mod_self]
  rw [berOidRecode, hcount]
  rfl

end Recode

/-- There are as many groups as bytes only if each is a single byte. -/
lemma length_flatten_eq_iff {groups : List (List UInt8)} (h : ∀ g ∈ groups, g ≠ []) :
    groups.length ≤ groups.flatten.length ∧
      (groups.flatten.length = groups.length ↔ ∀ g ∈ groups, g.length = 1) := by
  induction groups with
  | nil => simp
  | cons g groups ih =>
    rw [List.forall_mem_cons] at h
    obtain ⟨hle, hiff⟩ := ih h.2
    have hpos := List.length_pos_of_ne_nil h.1
    rw [List.flatten_cons, List.length_append, List.length_cons, List.forall_mem_cons, ← hiff]
    omega

/-- Canonical content is reproduced, unless it consists of `2 ^ 32 - 1` bytes with a sub-identifier in
each of them from the second on. -/
theorem berOidRecode_iff {first : UInt8} {groups : List (List UInt8)}
    (h : ∀ g ∈ groups, Base128.Minimal g ∧ Base128.value g < 2 ^ 32)
    (hlen : (first :: groups.flatten).length < 2 ^ 32) :
    berOidRecode (first :: groups.flatten) = first :: groups.flatten ↔
      ¬ ((first :: groups.flatten).length = 2 ^ 32 - 1 ∧ ∀ g ∈ groups, g.length = 1) := by
  obtain ⟨hle, hiff⟩ := length_flatten_eq_iff fun g hg => (h g hg).1.1.ne_nil
  rw [List.length_cons] at hlen
  rw [List.length_cons, ← hiff]
  by_cases hlt : groups.length + 2 < 2 ^ 32
  · refine iff_of_true (berOidRecode_of_lt h first hlt) ?_
    omega
  · rw [berOidRecode_of_eq h first (by omega)]
    refine iff_of_false (List.cons_ne_nil _ _).symm ?_
    omega

theorem berOidRecode_iff_enterprises :
    berOidRecode (0x2b :: [[6], [1], [4], [1], [0x82, 0x37]].flatten) =
        0x2b :: [[6], [1], [4], [1], [0x82, 0x37]].flatten ↔
      ¬ ((0x2b :: [[6], [1], [4], [1], [0x82, 0x37]].flatten : List UInt8).length = 2 ^ 32 - 1 ∧
        ∀ g ∈ ([[6], [1], [4], [1], [0x82, 0x37]] : List (List UInt8)), g.length = 1) := by
  refine berOidRecode_iff (fun g hg => ?_) (by decide)
  simp only [List.mem_cons, List.not_mem_nil, or_false] at hg
  rcases hg with rfl | rfl | rfl | rfl | rfl
  · exact ⟨⟨.last (by decide), by decide⟩, by decide⟩
  · exact ⟨⟨.last (by decide), by decide⟩, by decide⟩
  · exact ⟨⟨.last (by decide), by decide⟩, by decide⟩
  · exact ⟨⟨.last (by decide), by decide⟩, by decide⟩
  · exact ⟨⟨.more (by decide) (.last (by decide)), by decide⟩, by decide⟩

/-- The first byte of an OID and `n` sub-identifiers that are 0 after it. -/
def zeroGroups (n : Nat) : List (List UInt8) := List.replicate n [0]

lemma minimal_zeroGroups (n : Nat) :
    ∀ g ∈ zeroGroups n, Base128.Minimal g ∧ Base128.value g < 2 ^ 32 := by
  intro g hg
  obtain rfl := List.eq_of_mem_replicate hg
  exact ⟨⟨.last (by decide), by decide⟩, by decide⟩

/-- `2 ^ 32` elements are counted as none. -/
theorem zeroGroups_not_recoded :
    ¬ ∀ (first : UInt8) (groups : List (List UInt8)),
      (∀ g ∈ groups, Base128.Minimal g ∧ Base128.value g < 2 ^ 32) →
      (first :: groups.flatten).length < 2 ^ 32 →
      berOidRecode (first :: groups.flatten) = first :: groups.flatten := by
  intro h
  have hminimal := minimal_zeroGroups (2 ^ 32 - 2)
  have hlen : (zeroGroups (2 ^ 32 - 2)).length = 2 ^ 32 - 2 := List.length_replicate
  have hflat : (zeroGroups (2 ^ 32 - 2)).flatten.length = (zeroGroups (2 ^ 32 - 2)).length := by
    refine (length_flatten_eq_iff fun g hg => (hminimal g hg).1.1.ne_nil).2.mpr fun g hg => ?_
    rw [List.eq_of_mem_replicate hg]
    rfl
  generalize zeroGroups (2 ^ 32 - 2) = groups at hminimal hlen hflat
  have hrecode := h 0x2b groups hminimal (by rw [List.length_cons]; omega)
  rw [berOidRecode_of_eq hminimal 0x2b (by omega)] at hrecode
  exact List.cons_ne_nil _ _ hrecode.symm

end SmartSnmp
