import SmartSnmp.Snmp.Canonical

/-!
# Numbers on the wire

The integer and the length encoders write the shortest form of a number, and the decoders take it
back. Of the three unsigned types, `ber_value_enc` sends Counter32 through the encoder of signed
numbers.
-/

namespace SmartSnmp

open Bytes

/-! ### Integers -/

/-- The bytes are the shortest spelling of a number, at most `limit` of them. -/
structure Spells (n : Int) (limit : Nat) (bs : List UInt8) : Prop where
  value : beInt bs = n
  shortest : Shortest bs
  pos : 1 ≤ bs.length
  le : bs.length ≤ limit

lemma spells_berIntEnc (value : Int32) : Spells value.toInt 4 (berIntEnc value) := by
  obtain ⟨hpos, hle, hval⟩ := berIntEnc_spec value
  exact ⟨hval, shortest_berIntEnc value, hpos, hle⟩

lemma spells_berUintEnc (value : UInt32) : Spells value.toNat 5 (berUintEnc value) := by
  obtain ⟨hshort, hval⟩ := berUintEnc_spec value
  refine ⟨hval, hshort, List.length_pos_iff.mpr hshort.1, ?_⟩
  have hle := trimIndex_le 0 (wordBytes value) 3
  rw [length_berUintEnc, berUintEncTry]
  split_ifs <;> omega

/-- The integer encoders write the shortest encoding of every number and announce its length, and the
decoders recover the number. -/
theorem berIntegers_minimal_invertible :
    (∀ value : Int32, Spells value.toInt 4 (berIntEnc value) ∧
      berIntEncTry value = (berIntEnc value).length ∧ berIntDec (berIntEnc value) = some value) ∧
    ∀ value : UInt32, Spells value.toNat 5 (berUintEnc value) ∧
      berUintEncTry value = (berUintEnc value).length ∧ berUintDec (berUintEnc value) = value := by
  constructor
  · intro value
    exact ⟨spells_berIntEnc value, (length_berIntEnc_eq_try value).symm, berIntDec_berIntEnc value⟩
  · intro value
    exact ⟨spells_berUintEnc value, (length_berUintEnc value).symm, berUintDec_berUintEnc value⟩

/-! ### Unsigned values -/

/-- What is written of a value with this type is the shortest encoding of the unsigned number. -/
def UnsignedOnWire (type : UInt8) (value : UInt32) (mem : List UInt8) (len : Nat) : Prop :=
  ∃ content, berValueEnc (wordBytes value ++ mem) len type = some content ∧
    Spells value.toNat 5 content

/-- The bytes of a signed number are those of the unsigned one below `2 ^ 31` only. -/
lemma spells_berIntEnc_toInt32_iff (value : UInt32) :
    Spells value.toNat 5 (berIntEnc value.toInt32) ↔ value.toNat < 2 ^ 31 := by
  have hspells := spells_berIntEnc value.toInt32
  have hint := toInt_toInt32 value
  constructor
  · intro h
    have hval := hspells.value.symm.trans h.value
    by_contra hbig
    rw [if_neg hbig] at hint
    omega
  · intro h
    rw [if_pos h] at hint
    exact ⟨hspells.value.trans hint, hspells.shortest, hspells.pos, hspells.le.trans (by omega)⟩

/-- Unsigned values go on the wire as non-negative integers, except for a Counter32 from `2 ^ 31` on. -/
theorem unsignedOnWire_iff {type : UInt8}
    (htype : type = asn1TagCnt ∨ type = asn1TagGau ∨ type = asn1TagTimeticks) (value : UInt32)
    (mem : List UInt8) (len : Nat) :
    UnsignedOnWire type value mem len ↔ (type = asn1TagCnt → value.toNat < 2 ^ 31) := by
  rw [UnsignedOnWire, berValueEnc, wordAt_wordBytes]
  rcases htype with rfl | htype
  · rw [if_pos (.inr rfl)]
    simp [spells_berIntEnc_toInt32_iff]
  · have hint : ¬ (type = asn1TagInt ∨ type = asn1TagCnt) := by
      rcases htype with rfl | rfl <;> decide
    rw [if_neg hint, if_pos htype]
    refine iff_of_true ⟨_, rfl, spells_berUintEnc value⟩ fun h => absurd (.inr h) hint

theorem unsignedOnWire_iff_timeticks :
    UnsignedOnWire asn1TagTimeticks 0x80000000 [] 1 ↔
      (asn1TagTimeticks = asn1TagCnt → (0x80000000 : UInt32).toNat < 2 ^ 31) :=
  unsignedOnWire_iff (by decide) 0x80000000 [] 1

/-- A Counter32 of `2 ^ 31` goes on the wire as `-2 ^ 31`. -/
theorem counter_not_unsignedOnWire :
    berValueEnc (wordBytes 0x80000000) 1 asn1TagCnt = some [0x80, 0, 0, 0] ∧
      beInt [0x80, 0, 0, 0] = -2 ^ 31 ∧ ¬ UnsignedOnWire asn1TagCnt 0x80000000 [] 1 := by
  refine ⟨by decide, by decide, ?_⟩
  rintro ⟨content, henc, hspells⟩
  have hrun : berValueEnc (wordBytes 0x80000000 ++ []) 1 asn1TagCnt = some [0x80, 0, 0, 0] := by decide
  obtain rfl := Option.some.inj (hrun.symm.trans henc)
  exact absurd hspells.value (by decide)

/-! ### Lengths -/

/-- No form of a length is shorter than what `ber_length_enc` writes. -/
lemma length_berLengthEnc_le {value : UInt32} {octets : List UInt8}
    (h : IsLength value.toNat octets) : (berLengthEnc value).length ≤ octets.length := by
  rw [length_berLengthEnc, berLengthEncTry]
  simp only [UInt32.lt_iff_toNat_lt, UInt32.reduceToNat]
  rcases h with ⟨hsmall, rfl⟩ | ⟨digits, hne, -, hval, rfl⟩
  · rw [trimIndex_eq_zero (by omega), if_neg (by omega)]
    simp
  · have hpos := List.length_pos_of_ne_nil hne
    rw [List.length_cons]
    by_cases hzero : trimIndex 0 (wordBytes value) 3 = 0
    · rw [hzero]
      split_ifs <;> omega
    · have hlt : 256 ^ trimIndex 0 (wordBytes value) 3 < 256 ^ digits.length := by
        calc 256 ^ trimIndex 0 (wordBytes value) 3 ≤ value.toNat := pow_trimIndex_le hzero
          _ = beNat digits := hval.symm
          _ < 256 ^ digits.length := beNat_lt digits
      have := (Nat.pow_lt_pow_iff_right (by omega)).mp hlt
      split_ifs <;> omega

/-- Length octets are read back, with their number, whatever follows them, and there are no fewer in
any other form of the length. -/
theorem berLength_roundTrip {ε : Type} (value : UInt32) (rest : List UInt8) :
    (berLengthDec : Reader ε (Nat × Nat)) (berLengthEnc value ++ rest) =
        .ok (.ok (((berLengthEnc value).length, value.toNat), rest)) ∧
      (berLengthEnc value).length = berLengthEncTry value ∧
      IsLength value.toNat (berLengthEnc value) ∧
      ∀ octets, IsLength value.toNat octets → (berLengthEnc value).length ≤ octets.length := by
  have hform := isLength_berLengthEnc value
  exact ⟨parses_berLengthDec hform value.toNat_lt rest, length_berLengthEnc value, hform,
    fun _ => length_berLengthEnc_le⟩

end SmartSnmp
