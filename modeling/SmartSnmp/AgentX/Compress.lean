import SmartSnmp.AgentX.RoundTrip

/-!
# OID compression

`agentx_response_pdu` writes an OID as the number of its sub-identifiers behind the fifth, the fifth
in one byte, and those sub-identifiers; `agentx_value_dec` puts `1.3.6.1` in front again. So the four
sub-identifiers in front are lost, and what the byte cannot hold of the fifth.
-/

namespace SmartSnmp

open Bytes Reader

/-- An OID that a handler may return as a value. -/
abbrev ValueOid := { oid : Oid // oid.length ≤ mibOidMaxLen }

/-- A varbind of a response with an OID for its value. -/
def objidVarBind (name : Oid) (val : ValueOid) : XVarBind :=
  ⟨name, asn1TagObjid.toUInt16, 4 * val.1.length, val.1.flatMap bytes32, []⟩

/-- The byte that the fifth sub-identifier is stored in. -/
def prefixByte (oid : Oid) : UInt8 := (oid[4]?.getD 0).toUInt8

/-- The compressed form as an OID on the wire. -/
def ValueOid.wire (val : ValueOid) : WireOid where
  pre := prefixByte val.1
  incl := 0
  subIds := val.1.drop 5
  short := by
    have h := val.2
    simp only [List.length_drop, mibOidMaxLen] at h ⊢
    omega

lemma ValueOid.objidEncode_eq (val : ValueOid) : objidEncode val.1 = val.wire.bytes false := by
  rw [objidEncode, WireOid.bytes, ValueOid.wire, List.length_drop]
  rfl

/-- The decoder reads an OID below `1.3.6.1`, or the empty one. -/
lemma ValueOid.parses_valueDec {ε : Type} (val : ValueOid) (flag : UInt8) :
    Parses (agentxValueDec flag asn1TagObjid : Reader ε DecodedValue) (objidEncode val.1)
      ⟨(val.wire.read false).length, (val.wire.read false).flatMap bytes32,
        (objidEncode val.1).length⟩ := by
  rw [ValueOid.objidEncode_eq]
  exact val.wire.parses_oidDec false

/-- What the response has for the OID is decoded to the OID. -/
def ValueOid.Kept (val : ValueOid) : Prop :=
  ∀ name flag, ∃ enc used, valueEncode (objidVarBind name val) = some enc ∧
    Parses (agentxValueDec flag asn1TagObjid : Reader AgentxErrCode DecodedValue) enc
      ⟨val.1.length, val.1.flatMap bytes32, used⟩

/-- The OIDs that compression keeps: the empty one, and those below `1.3.6.1` whose fifth
sub-identifier fits a byte and is not a `0` at the end. -/
inductive Compressible : Oid → Prop
  | empty : Compressible []
  | internet {p : UInt32} {rest : Oid} : p ≤ 255 → p ≠ 0 ∨ rest ≠ [] →
      Compressible (1 :: 3 :: 6 :: 1 :: p :: rest)

lemma flatMap_bytes32_injective : Function.Injective (List.flatMap bytes32) := by
  intro a b h
  rw [← wordsOf_flatMap a, h, wordsOf_flatMap]

lemma ValueOid.read_wire_iff (val : ValueOid) :
    val.wire.read false = val.1 ↔ Compressible val.1 := by
  obtain ⟨oid, hlen⟩ := val
  constructor
  · intro h
    rw [WireOid.read, map_seen32_false] at h
    split_ifs at h with hempty
    · obtain rfl : [] = oid := h
      exact .empty
    · rw [← h]
      apply Compressible.internet
      · rw [UInt32.le_iff_toNat_le, UInt8.toNat_toUInt32]
        exact Nat.le_of_lt_succ (UInt8.toNat_lt _)
      · by_contra hnot
        push Not at hnot
        apply hempty
        refine ⟨hnot.2, ?_⟩
        rw [← UInt8.toNat_inj, ← UInt8.toNat_toUInt32, hnot.1]
        rfl
  · intro h
    cases h with
    | empty => rfl
    | @internet p rest hp hne =>
      have hpre : (prefixByte (1 :: 3 :: 6 :: 1 :: p :: rest)).toUInt32 = p :=
        toUInt8_toUInt32 hp
      have hempty : ¬ (rest = [] ∧ prefixByte (1 :: 3 :: 6 :: 1 :: p :: rest) = 0) := by
        rintro ⟨hrest, hzero⟩
        rw [hzero] at hpre
        exact (hne.resolve_right (by simp [hrest])) hpre.symm
      have hdrop : (1 :: 3 :: 6 :: 1 :: p :: rest).drop 5 = rest := rfl
      rw [WireOid.read, map_seen32_false]
      simp only [ValueOid.wire, hdrop]
      rw [if_neg hempty, hpre]

/-- The compressed forms of two OIDs are the same if the OIDs are so behind the fifth sub-identifier
and in the byte of the fifth. -/
lemma objidEncode_eq_iff (a b : ValueOid) :
    objidEncode a.1 = objidEncode b.1 ↔ a.1.drop 5 = b.1.drop 5 ∧ prefixByte a.1 = prefixByte b.1 := by
  constructor
  · intro h
    rw [objidEncode, objidEncode] at h
    simp only [List.cons_append, List.nil_append, List.cons.injEq, true_and] at h
    exact ⟨flatMap_bytes32_injective h.2.2, h.2.1⟩
  · rintro ⟨hdrop, hpre⟩
    have hlen : a.1.length - 5 = b.1.length - 5 := by
      simpa only [List.length_drop] using congrArg List.length hdrop
    simp only [objidEncode, hlen, hdrop]
    rw [← prefixByte, ← prefixByte, hpre]

lemma ValueOid.kept_iff (val : ValueOid) : val.Kept ↔ Compressible val.1 := by
  rw [← ValueOid.read_wire_iff]
  constructor
  · intro h
    obtain ⟨enc, used, henc, hparse⟩ := h [] 0
    obtain rfl : objidEncode val.1 = enc :=
      Option.some.inj ((valueEncode_objid [] val.1 []).symm.trans henc)
    have hread := val.parses_valueDec (ε := AgentxErrCode) 0
    have heq := (hread []).symm.trans (hparse [])
    simp only [Outcome.ok.injEq, Except.ok.injEq, Prod.mk.injEq, DecodedValue.mk.injEq] at heq
    exact flatMap_bytes32_injective heq.1.2.1
  · intro h name flag
    refine ⟨objidEncode val.1, (objidEncode val.1).length, valueEncode_objid name val.1 [], ?_⟩
    have hread := val.parses_valueDec (ε := AgentxErrCode) flag
    rwa [h] at hread

/-- Compression keeps an OID exactly if it is compressible, and it keeps two different OIDs apart
exactly if they differ behind the fifth sub-identifier or in the byte of the fifth. -/
theorem objidEncode_lossless_iff (a : ValueOid) :
    (a.Kept ↔ Compressible a.1) ∧
      ∀ b : ValueOid, a ≠ b → (objidEncode a.1 ≠ objidEncode b.1 ↔
        a.1.drop 5 ≠ b.1.drop 5 ∨ prefixByte a.1 ≠ prefixByte b.1) := by
  refine ⟨a.kept_iff, fun b _ => ?_⟩
  rw [Ne, objidEncode_eq_iff, not_and_or]

/-- The OID `0.0` is decoded as the empty one, and it has the same compressed form. -/
theorem objidEncode_nullOid : ¬ (∀ val : ValueOid, val.Kept) ∧
    objidEncode [0, 0] = objidEncode [] := by
  refine ⟨fun h => ?_, rfl⟩
  have hnull := (ValueOid.kept_iff ⟨[0, 0], by decide⟩).mp (h _)
  cases hnull

end SmartSnmp
