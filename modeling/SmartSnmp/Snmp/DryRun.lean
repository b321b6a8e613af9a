import SmartSnmp.AgentX.Payload
import SmartSnmp.Snmp.Limits
import SmartSnmp.Snmp.SignExtension

/-!
# Dry runs of the decoders

The memory of a value is allocated by what the dry run of its decoder announces: elements in BER, bytes
in AgentX. A BER decoder that returns writes as many elements, as long as 32 bits can count them; an
AgentX decoder that stays inside of its buffer writes at most as many bytes.
-/

namespace SmartSnmp

open Bytes Reader

/-! ### BER -/

/-- `ber_value_dec_try`: the elements are counted in 32 bits. -/
def berValueDecTryCount (buf : List UInt8) (type : UInt8) : UInt32 :=
  UInt32.ofNat (berValueDecTry buf type)

/-- `ber_value_dec` with the counters of its loops: the number of elements, and the bytes written to
memory. -/
def berValueDecLoop (buf : List UInt8) (type : UInt8) : Outcome (UInt32 × List UInt8) :=
  if buf = [] then .ok (0, [])
  else if type = asn1TagInt ∨ type = asn1TagCnt then
    match berIntDecRounds buf with
    | .ok (_, value) => .ok (1, wordBytes value.toUInt32)
    | .crash => .crash
    | .fuel => .fuel
  else if type = asn1TagGau ∨ type = asn1TagTimeticks then
    match shiftContent 0 buf with
    | some value => .ok (1, wordBytes value)
    | none => .crash
  else if type = asn1TagObjid then
    .ok (UInt32.ofNat (berOidDec buf).length, (berOidDec buf).flatMap wordBytes)
  else if type = asn1TagOctstr ∨ type = asn1TagIpaddr then .ok (UInt32.ofNat buf.length, buf)
  else .ok (0, [])

/-- The decoder returns, and it writes and counts the elements that the dry run announces. -/
def DecodesAnnounced (buf : List UInt8) (type : UInt8) : Prop :=
  ∃ bytes, berValueDecLoop buf type = .ok (berValueDecTryCount buf type, bytes) ∧
    bytes.length = (berValueDecTryCount buf type).toNat * elementSize type

/-- Where an index of the type `int` can run over a number, `ber_value_dec` is the function without
counters. -/
lemma berValueDecLoop_eq {buf : List UInt8} {type : UInt8}
    (hlen : wordTag type = true → buf.length < 2 ^ 31) :
    berValueDecLoop buf type = match berValueDec buf type with
      | some (count, bytes) => .ok (UInt32.ofNat count, bytes)
      | none => .crash := by
  rw [berValueDecLoop, berValueDec]
  by_cases hnil : buf = []
  · rw [if_pos hnil, if_pos hnil]
    rfl
  rw [if_neg hnil, if_neg hnil]
  split_ifs with hint huint
  · rw [berIntDecRounds_eq hnil (hlen (by rcases hint with rfl | rfl <;> rfl))]
    cases berIntDec buf <;> rfl
  · rw [shiftContent_eq 0 hnil, if_pos (hlen (by rcases huint with rfl | rfl <;> rfl))]
    rfl
  all_goals rfl

/-- A number that an index of the type `int` cannot run over is not decoded. -/
lemma berValueDecLoop_crash {buf : List UInt8} {type : UInt8} (hword : wordTag type = true)
    (hle : 2 ^ 31 ≤ buf.length) (hlen : buf.length < 2 ^ 32) : berValueDecLoop buf type = .crash := by
  have hnil : buf ≠ [] := List.ne_nil_of_length_pos (by omega)
  rw [berValueDecLoop, if_neg hnil]
  by_cases hint : type = asn1TagInt ∨ type = asn1TagCnt
  · rw [if_pos hint, berIntDecRounds_of_le hle hlen]
  · have huint : type = asn1TagGau ∨ type = asn1TagTimeticks := by
      simp only [wordTag, Bool.or_eq_true, decide_eq_true_eq] at hword
      tauto
    rw [if_neg hint, if_pos huint, shiftContent_eq 0 hnil, if_neg (not_lt.mpr hle)]

/-- Only a negative number can be too long. -/
lemma berValueDec_eq_none_iff {buf : List UInt8} {type : UInt8} : berValueDec buf type = none ↔
    (type = asn1TagInt ∨ type = asn1TagCnt) ∧ negative buf = true ∧ 4 < buf.length := by
  rw [berValueDec]
  split_ifs with hnil hint
  · simp [hnil]
  · rw [Option.map_eq_none_iff, berIntDec_eq_none_iff]
    tauto
  all_goals simp [hint]

/-- The dry run counts the elements of the decoder. -/
lemma berValueDecTry_eq {buf : List UInt8} {type : UInt8} {count : Nat} {bytes : List UInt8}
    (h : berValueDec buf type = some (count, bytes)) : berValueDecTry buf type = count := by
  rw [berValueDecTry]
  cases berValueDec_decoded h with
  | empty hnil => exact if_pos hnil
  | int hnil htype => rw [if_neg hnil, if_pos (by tauto)]
  | uint hnil htype => rw [if_neg hnil, if_pos (by tauto)]
  | objid hnil htype =>
    subst htype
    rw [if_neg hnil, if_neg (by decide), if_pos rfl, berOidDecTry, length_berOidDec, add_comm]
  | str hnil htype =>
    rw [if_neg hnil]
    rcases htype with rfl | rfl <;> rfl
  | other hnil hint huint hobj hstr =>
    rw [if_neg hnil, if_neg (by tauto), if_neg hobj, if_neg hstr]

/-- 32 bits can count the elements, unless every byte of the longest OID but the first is one. -/
lemma berValueDecTry_lt_iff {buf : List UInt8} {type : UInt8} (hlen : buf.length < 2 ^ 32) :
    berValueDecTry buf type < 2 ^ 32 ↔ (type = asn1TagObjid →
      ¬ (buf.length = 2 ^ 32 - 1 ∧ ∀ b ∈ buf.tail, highBit b = false)) := by
  rw [berValueDecTry]
  split_ifs with hnil hword hobj hstr
  · simp [hnil]
  · have hne : type ≠ asn1TagObjid := by rcases hword with rfl | rfl | rfl | rfl <;> decide
    simp [hne]
  · have hle := List.countP_le_length (p := fun b => !highBit b) (l := buf.tail)
    have hall := List.countP_eq_length (p := fun b => !highBit b) (l := buf.tail)
    have hpos := List.length_pos_of_ne_nil hnil
    rw [List.length_tail] at hle hall
    simp only [Bool.not_eq_eq_eq_not, Bool.not_true] at hall
    rw [← hall, berOidDecTry, forall_prop_of_true hobj]
    omega
  · exact ⟨fun _ h => absurd h hobj, fun _ => hlen⟩
  · simp [hobj]

/-- The decoder does as announced if and only if its counters are in range. -/
lemma decodesAnnounced_iff {buf : List UInt8} {type : UInt8} (hlen : buf.length < 2 ^ 32) :
    DecodesAnnounced buf type ↔ (wordTag type = true → buf.length < 2 ^ 31) ∧
      (type = asn1TagInt ∨ type = asn1TagCnt → negative buf = true → buf.length ≤ 4) ∧
      (type = asn1TagObjid → ¬ (buf.length = 2 ^ 32 - 1 ∧ ∀ b ∈ buf.tail, highBit b = false)) := by
  by_cases hword : wordTag type = true → buf.length < 2 ^ 31
  · rw [DecodesAnnounced, berValueDecLoop_eq hword, ← berValueDecTry_lt_iff hlen]
    cases hdec : berValueDec buf type with
    | none =>
      obtain ⟨htype, hneg, h4⟩ := berValueDec_eq_none_iff.mp hdec
      constructor
      · rintro ⟨bytes, hrun, -⟩
        cases hrun
      · rintro ⟨-, hshort, -⟩
        exact absurd (hshort htype hneg) (not_le.mpr h4)
    | some dec =>
      obtain ⟨count, bytes⟩ := dec
      have htry := berValueDecTry_eq hdec
      have hbytes := length_berValueDec hdec
      have hsize : 0 < elementSize type := by
        rw [elementSize]
        split_ifs <;> decide
      have hshort : type = asn1TagInt ∨ type = asn1TagCnt → negative buf = true → buf.length ≤ 4 := by
        intro htype hneg
        by_contra h4
        rw [berValueDec_eq_none_iff.mpr ⟨htype, hneg, not_le.mp h4⟩] at hdec
        cases hdec
      rw [berValueDecTryCount, htry]
      constructor
      · rintro ⟨bytes', hrun, hwritten⟩
        obtain rfl : bytes = bytes' := by simpa using hrun
        have hcount := Nat.eq_of_mul_eq_mul_right hsize (hbytes.symm.trans hwritten)
        exact ⟨hword, hshort, hcount ▸ (UInt32.ofNat count).toNat_lt⟩
      · rintro ⟨-, -, hcount⟩
        exact ⟨bytes, rfl, by rw [hbytes, UInt32.toNat_ofNat_of_lt' hcount]⟩
  · obtain ⟨htype, hle⟩ := Classical.not_imp.mp hword
    constructor
    · rintro ⟨bytes, hrun, -⟩
      rw [berValueDecLoop_crash htype (not_lt.mp hle) hlen] at hrun
      cases hrun
    · rintro ⟨hlt, -⟩
      exact absurd hlt hword

/-! ### AgentX -/

/-- How many bytes of the buffer the decoder reads. -/
def agentxValueSize (type : UInt8) (bs : List UInt8) : Nat :=
  if isWordType type then 4
  else if type = asn1TagCnt64 then 8
  else if isStringType type then 4 + numberAt false bs
  else if type = asn1TagObjid then
    if bs.headD 0 = 0 then 2 else 4 + 4 * (bs.headD 0).toNat
  else 0

/-- The dry run and the decoder return, and the decoder writes at most as many bytes as the dry run
announces. -/
def XDecodesAnnounced (flag type : UInt8) (bs : List UInt8) : Prop :=
  ∃ l d rest rest', (agentxValueDecTry flag type : Reader AgentxErrCode Nat) bs = .ok (.ok (l, rest)) ∧
    (agentxValueDec flag type : Reader AgentxErrCode DecodedValue) bs = .ok (.ok (d, rest')) ∧
    d.value.length ≤ l

section XDecodesAnnounced

variable {flag type : UInt8} {bs : List UInt8}

/-- A value of `n` bytes is decoded as announced if it is there, and not decoded otherwise. -/
def XDecodesFrom (n : Nat) (flag type : UInt8) (bs : List UInt8) : Prop :=
  if n ≤ bs.length then XDecodesAnnounced flag type bs
  else (agentxValueDec flag type : Reader AgentxErrCode DecodedValue) bs = .crash

lemma xDecodesFrom_number {n : Nat} (hn : n ≤ 8)
    (htry : (agentxValueDecTry flag type : Reader AgentxErrCode Nat) = pure 8)
    (hdec : (agentxValueDec flag type : Reader AgentxErrCode DecodedValue) = (do
      let value ← bytes n
      pure ⟨1, value, n⟩)) : XDecodesFrom n flag type bs := by
  rw [XDecodesFrom]
  split_ifs with h
  · have hbytes : (bytes n : Reader AgentxErrCode _) bs = .ok (.ok (bs.take n, bs.drop n)) := if_pos h
    exact ⟨8, _, bs, _, by rw [htry]; rfl, by rw [hdec, bind_apply_ok hbytes]; rfl,
      (List.length_take_le n bs).trans hn⟩
  · have hbytes : (bytes n : Reader AgentxErrCode _) bs = .crash := if_neg h
    rw [hdec, bind_apply_crash hbytes]

/-- A string is as long as announced. -/
lemma xDecodesFrom_string (ht : isStringType type) :
    XDecodesFrom (4 + numberAt false bs) flag type bs := by
  have hspans := spans_uint32 (ε := AgentxErrCode) bs
  rw [XDecodesFrom]
  by_cases h4 : 4 ≤ bs.length
  · rw [Extent.ofLength, if_pos h4] at hspans
    obtain ⟨x, ⟨hx, -⟩, hread⟩ := hspans
    by_cases h : numberAt false bs ≤ (bs.drop 4).length
    · have hbytes : (bytes (numberAt false bs) : Reader AgentxErrCode _) (bs.drop 4) =
          .ok (.ok ((bs.drop 4).take (numberAt false bs), (bs.drop 4).drop (numberAt false bs))) :=
        if_pos h
      rw [if_pos (by rw [List.length_drop] at h; omega)]
      refine ⟨numberAt false bs, ⟨numberAt false bs, (bs.drop 4).take (numberAt false bs),
        4 + uintSizeof (numberAt false bs)⟩, bs.drop 4,
        ((bs.drop 4).drop (numberAt false bs)).drop (uintSizeof (numberAt false bs) - numberAt false bs),
        ?_, ?_, List.length_take_le _ _⟩
      · rw [WireValue.valueDecTry_str ht, bind_apply_ok hread, hx]
        rfl
      · rw [WireValue.valueDec_str ht, bind_apply_ok hread, hx, bind_apply_ok hbytes]
        rfl
    · have hbytes : (bytes (numberAt false bs) : Reader AgentxErrCode _) (bs.drop 4) = .crash := if_neg h
      rw [if_neg (by rw [List.length_drop] at h; omega), WireValue.valueDec_str ht, bind_apply_ok hread,
        hx, bind_apply_crash hbytes]
  · rw [Extent.ofLength, if_neg h4] at hspans
    rw [if_neg (by omega), WireValue.valueDec_str ht]
    exact bind_apply_crash hspans _

/-- What an OID has in memory is the words of its prefix and of its sub-identifiers. -/
lemma length_value_oidDec {n pre : UInt8} {rest rest' : List UInt8} {d : DecodedValue}
    (h : (agentxOidDec : Reader AgentxErrCode DecodedValue) (n :: pre :: rest) = .ok (.ok (d, rest'))) :
    d.value.length = 4 * oidWords n pre := by
  rw [oidDec_cons] at h
  rw [oidWords]
  split_ifs at h ⊢ with hnull
  · obtain rfl := Yields.of_pure ⟨_, _, h⟩
    rfl
  · obtain ⟨subIds, mid, hsubIds, h⟩ := bind_eq_ok h
    obtain rfl := Yields.of_pure ⟨_, _, h⟩
    have hlen : subIds.length = 4 * n.toNat := Yields.length_of_bytes ⟨_, _, hsubIds⟩
    rw [List.length_append, hlen, expandedPrefix, Nat.mul_add, add_comm]
    rfl

lemma xDecodesFrom_objid :
    XDecodesFrom (if bs.headD 0 = 0 then 2 else 4 + 4 * (bs.headD 0).toNat) flag asn1TagObjid bs := by
  rw [XDecodesFrom]
  rcases bs with _ | ⟨n, _ | ⟨pre, rest⟩⟩
  · rw [if_neg (by decide)]
    rfl
  · have hshort : ¬ (if n = 0 then 2 else 4 + 4 * n.toNat) ≤ 1 := by split_ifs <;> omega
    rw [List.headD_cons, List.length_singleton, if_neg hshort]
    rfl
  · have htry := decTry_cons (ε := AgentxErrCode) flag n pre rest
    have hdec := spans_oidDec (ε := AgentxErrCode) (n :: pre :: rest)
    rw [oidExtent_cons, if_neg (not_lt_full n)] at hdec
    by_cases hsize : (if n = 0 then 2 else 4 + 4 * n.toNat) ≤ rest.length + 2
    · rw [if_pos hsize] at hdec
      obtain ⟨d, -, hread⟩ := hdec
      rw [List.headD_cons, List.length_cons, List.length_cons, if_pos hsize]
      exact ⟨_, d, rest, _, htry, hread, (length_value_oidDec hread).le⟩
    · rw [if_neg hsize] at hdec
      rw [List.headD_cons, List.length_cons, List.length_cons, if_neg hsize]
      exact hdec

lemma xDecodesFrom_size (flag type : UInt8) (bs : List UInt8) :
    XDecodesFrom (agentxValueSize type bs) flag type bs := by
  rw [agentxValueSize]
  by_cases hword : isWordType type
  · rw [if_pos hword]
    apply xDecodesFrom_number (by decide)
    · rw [agentxValueDecTry, hword]
      rfl
    · rw [agentxValueDec, if_pos hword]
  rw [if_neg hword]
  by_cases hcnt : type = asn1TagCnt64
  · subst hcnt
    exact xDecodesFrom_number (le_refl 8) rfl rfl
  rw [if_neg hcnt]
  by_cases hstr : isStringType type
  · rw [if_pos hstr]
    exact xDecodesFrom_string hstr
  rw [if_neg hstr]
  by_cases hobj : type = asn1TagObjid
  · subst hobj
    exact xDecodesFrom_objid
  rw [if_neg hobj, XDecodesFrom, if_pos (Nat.zero_le _)]
  refine ⟨0, ⟨0, [], 0⟩, bs, bs, ?_, ?_, le_refl 0⟩
  · simp only [agentxValueDecTry, hword, hcnt, hstr, hobj, if_false, Bool.false_eq_true,
      decide_false, Bool.or_self]
    rfl
  · rw [agentxValueDec, if_neg hword, if_neg hcnt, if_neg hstr, if_neg hobj]
    rfl

/-- An AgentX value is decoded as announced if and only if it is there. -/
lemma xDecodesAnnounced_iff :
    XDecodesAnnounced flag type bs ↔ agentxValueSize type bs ≤ bs.length := by
  have hfrom := xDecodesFrom_size flag type bs
  rw [XDecodesFrom] at hfrom
  split_ifs at hfrom with h
  · exact iff_of_true hfrom h
  · refine iff_of_false ?_ h
    rintro ⟨l, d, rest, rest', -, hdec, -⟩
    rw [hfrom] at hdec
    cases hdec

/-- What is decoded has been announced. -/
lemma xDecodesAnnounced_of_dec {d : DecodedValue} {rest : List UInt8}
    (h : (agentxValueDec flag type : Reader AgentxErrCode DecodedValue) bs = .ok (.ok (d, rest))) :
    XDecodesAnnounced flag type bs := by
  have hfrom := xDecodesFrom_size flag type bs
  rw [XDecodesFrom, h] at hfrom
  split_ifs at hfrom with hsize
  exact hfrom

/-- What is decoded is not longer than announced. -/
lemma length_value_le {l : Nat} {d : DecodedValue} {rest rest' : List UInt8}
    (htry : (agentxValueDecTry flag type : Reader AgentxErrCode Nat) bs = .ok (.ok (l, rest)))
    (hdec : (agentxValueDec flag type : Reader AgentxErrCode DecodedValue) bs = .ok (.ok (d, rest'))) :
    d.value.length ≤ l := by
  obtain ⟨l', d', r, r', htry', hdec', hle⟩ := xDecodesAnnounced_of_dec hdec
  rw [htry] at htry'
  rw [hdec] at hdec'
  obtain ⟨rfl, -⟩ : l = l' ∧ rest = r := by simpa using htry'
  obtain ⟨rfl, -⟩ : d = d' ∧ rest' = r' := by simpa using hdec'
  exact hle

end XDecodesAnnounced

/-! ### Varbinds and search ranges -/

/-- The memory that `vb_new` is asked for takes the varbind. -/
def XVarBindFits (flag : UInt8) (bs : List UInt8) (vb : XVarBind) : Prop :=
  ∃ oidLen valLen rest rest',
    (agentxValueDecTry flag asn1TagObjid : Reader AgentxErrCode Nat) (bs.drop 4) =
      .ok (.ok (oidLen, rest)) ∧
    (agentxValueDecTry flag vb.valType.toUInt8 : Reader AgentxErrCode Nat)
      ((bs.drop 4).drop (oidAdvance oidLen)) = .ok (.ok (valLen, rest')) ∧
    4 * vb.oid.length ≤ oidLen ∧ vb.value.length ≤ valLen

/-- The memory that `sr_new` is asked for takes the search range. -/
def XSearchRangeFits (flag : UInt8) (bs : List UInt8) (sr : XSearchRange) : Prop :=
  ∃ startLen endLen rest rest',
    (agentxValueDecTry flag asn1TagObjid : Reader AgentxErrCode Nat) bs = .ok (.ok (startLen, rest)) ∧
    (agentxValueDecTry flag asn1TagObjid : Reader AgentxErrCode Nat) (bs.drop (oidAdvance startLen)) =
      .ok (.ok (endLen, rest')) ∧
    4 * sr.start.length ≤ startLen ∧ 4 * sr.stop.length ≤ endLen

lemma length_wordsOf_le (bs : List UInt8) : 4 * (wordsOf bs).length ≤ bs.length := by
  fun_induction wordsOf bs with
  | case1 a b c d rest ih =>
    simp only [List.length_cons]
    omega
  | case2 bs h => exact Nat.zero_le _

lemma field16_rest {flag : UInt8} {bs rest : List UInt8} {type : UInt16}
    (h : (field16 flag : Reader AgentxErrCode UInt16) bs = .ok (.ok (type, rest))) : rest = bs.drop 2 := by
  have hspans := spans_field16 flag bs
  rw [Extent.ofLength] at hspans
  split_ifs at hspans with h2
  · obtain ⟨type', -, hread⟩ := hspans
    obtain ⟨-, rfl⟩ : type = type' ∧ rest = bs.drop 2 := by simpa using h.symm.trans hread
    rfl
  · cases h.symm.trans hspans

lemma xVarBindFits {flag : UInt8} {bs rest : List UInt8} {vb : XVarBind} {used : Nat}
    (h : xVarBindAlloc flag bs = .ok (.ok ((vb, used), rest))) : XVarBindFits flag bs vb := by
  obtain ⟨type, mid, htype, h⟩ := bind_eq_ok h
  obtain rfl := field16_rest htype
  have h : (do
      let oidLen ← peek (agentxValueDecTry flag asn1TagObjid)
      failIf (mibOidMaxLen < oidLen / 4) .vbOidLen
      let valLen ← peek (do skip (oidAdvance oidLen); agentxValueDecTry flag type.toUInt8)
      failIf (mibValueMaxLen < valLen) .vbValueLen
      let oid ← peek (agentxValueDec flag asn1TagObjid)
      skip (oidAdvance oidLen)
      let val ← agentxValueDec flag type.toUInt8
      pure (⟨wordsOf oid.value, type, val.count, val.value, []⟩, 4 + oidAdvance oidLen + val.used) :
        Reader AgentxErrCode (XVarBind × Nat)) ((bs.drop 2).drop 2) = .ok (.ok ((vb, used), rest)) := h
  rw [List.drop_drop] at h
  obtain ⟨oidLen, r, htryOid, h⟩ := peek_bind_eq_ok h
  obtain ⟨-, h⟩ := failIf_bind_eq_ok h
  obtain ⟨valLen, r', htryVal, h⟩ := peek_bind_eq_ok h
  obtain ⟨-, h⟩ := failIf_bind_eq_ok h
  obtain ⟨oid, r'', hoid, h⟩ := peek_bind_eq_ok h
  obtain ⟨val, mid', hval, h⟩ := bind_eq_ok (p := agentxValueDec flag type.toUInt8) h
  obtain ⟨rfl, -⟩ := Prod.mk.inj (Yields.of_pure ⟨_, _, h⟩)
  exact ⟨oidLen, valLen, r, r', htryOid, htryVal,
    (length_wordsOf_le _).trans (length_value_le htryOid hoid), length_value_le htryVal hval⟩

lemma xSearchRangeFits {flag : UInt8} {bs rest : List UInt8} {sr : XSearchRange} {used : Nat}
    (h : searchRangeAlloc flag bs = .ok (.ok ((sr, used), rest))) : XSearchRangeFits flag bs sr := by
  obtain ⟨startLen, r, htryStart, h⟩ := peek_bind_eq_ok h
  obtain ⟨-, h⟩ := failIf_bind_eq_ok h
  obtain ⟨startInclude, _, -, h⟩ := peek_bind_eq_ok h
  obtain ⟨start, r', hstart, h⟩ := peek_bind_eq_ok h
  obtain ⟨endLen, r'', htryEnd, h⟩ := peek_bind_eq_ok (p := agentxValueDecTry flag asn1TagObjid) h
  obtain ⟨-, h⟩ := failIf_bind_eq_ok h
  obtain ⟨endInclude, _, -, h⟩ := peek_bind_eq_ok h
  obtain ⟨stop, mid, hstop, h⟩ := bind_eq_ok h
  obtain ⟨rfl, -⟩ := Prod.mk.inj (Yields.of_pure ⟨_, _, h⟩)
  exact ⟨startLen, endLen, r, r'', htryStart, htryEnd,
    (length_wordsOf_le _).trans (length_value_le htryStart hstart),
    (length_wordsOf_le _).trans (length_value_le htryEnd hstop)⟩

/-- BER values are decoded as announced exactly if the counters of the decoder stay in range, and AgentX
values exactly if they are there; what is allocated in AgentX takes what is written. -/
theorem dryRuns_cover_iff (buf bs : List UInt8) (type flag : UInt8) (hlen : buf.length < 2 ^ 32) :
    (DecodesAnnounced buf type ↔ (wordTag type = true → buf.length < 2 ^ 31) ∧
      (type = asn1TagInt ∨ type = asn1TagCnt → negative buf = true → buf.length ≤ 4) ∧
      (type = asn1TagObjid → ¬ (buf.length = 2 ^ 32 - 1 ∧ ∀ b ∈ buf.tail, highBit b = false))) ∧
    (XDecodesAnnounced flag type bs ↔ agentxValueSize type bs ≤ bs.length) ∧
    (∀ vb used rest, xVarBindAlloc flag bs = .ok (.ok ((vb, used), rest)) → XVarBindFits flag bs vb) ∧
    (∀ sr used rest, searchRangeAlloc flag bs = .ok (.ok ((sr, used), rest)) →
      XSearchRangeFits flag bs sr) :=
  ⟨decodesAnnounced_iff hlen, xDecodesAnnounced_iff, fun _ _ _ h => xVarBindFits h,
    fun _ _ _ h => xSearchRangeFits h⟩

/-- An OID whose last group is not finished, and a search range from 1.3.6.1.2 without an end. -/
theorem dryRuns_cover_iff_unfinished :
    DecodesAnnounced [0x2b, 0x06, 0x81] asn1TagObjid ∧
      ∃ sr, XSearchRangeFits 0 [0x00, 0x02, 0x01, 0x00, 0x00, 0x00, 0x00, 0x00] sr := by
  obtain ⟨hber, -, -, hrange⟩ := dryRuns_cover_iff [0x2b, 0x06, 0x81]
    [0x00, 0x02, 0x01, 0x00, 0x00, 0x00, 0x00, 0x00] asn1TagObjid 0 (by decide)
  exact ⟨hber.mpr ⟨by decide, by decide, by decide⟩, _, hrange ⟨[1, 3, 6, 1, 2], [], 1, 0⟩ 8 [] rfl⟩

/-- A negative number of five bytes is announced, and the decoder does not return. -/
theorem longInteger_not_decodesAnnounced :
    berValueDecTryCount [0x80, 0x00, 0x00, 0x00, 0x00] asn1TagInt = 1 ∧
      berValueDecLoop [0x80, 0x00, 0x00, 0x00, 0x00] asn1TagInt = .crash ∧
      ¬ DecodesAnnounced [0x80, 0x00, 0x00, 0x00, 0x00] asn1TagInt := by
  have hcrash : berValueDecLoop [0x80, 0x00, 0x00, 0x00, 0x00] asn1TagInt = .crash :=
    berValueDecLoop_eq fun _ => by decide
  refine ⟨by decide, hcrash, ?_⟩
  rintro ⟨bytes, hrun, -⟩
  cases hcrash.symm.trans hrun

end SmartSnmp
