import SmartSnmp.AgentX.ByteOrder
import SmartSnmp.Lib.Extent

/-!
# The payload counter of AgentX

`payload_length` counts down what is left of a PDU, and the loops over varbinds and search ranges end
where it is zero. It is compared with zero only, so it has to be met exactly.
-/

namespace SmartSnmp

open Bytes Reader Extent

variable {ε : Type}

/-! ### Words -/

lemma ordered_ordered (nbo : Bool) (bs : List UInt8) : ordered nbo (ordered nbo bs) = bs := by
  cases nbo with
  | false => rfl
  | true => simp

lemma bytes16_leNat {bs : List UInt8} (h : bs.length = 2) : bytes16 (UInt16.ofNat (leNat bs)) = bs := by
  have hlt := leNat_lt bs
  rw [h] at hlt
  have hnat : (UInt16.ofNat (leNat bs)).toNat = leNat bs := by
    rw [UInt16.toNat_ofNat']
    exact Nat.mod_eq_of_lt hlt
  rw [bytes16, hnat, ← h, leBytes_leNat]

lemma toNat_leNat {bs : List UInt8} (h : bs.length = 4) : (UInt32.ofNat (leNat bs)).toNat = leNat bs := by
  have hlt := leNat_lt bs
  rw [h] at hlt
  rw [UInt32.toNat_ofNat']
  exact Nat.mod_eq_of_lt hlt

lemma bytes32_leNat {bs : List UInt8} (h : bs.length = 4) : bytes32 (UInt32.ofNat (leNat bs)) = bs := by
  rw [bytes32, toNat_leNat h, ← h, leBytes_leNat]

/-- The number in the first four bytes. -/
def numberAt (nbo : Bool) (bs : List UInt8) : Nat := leNat (ordered nbo (bs.take 4))

lemma spans_field32 (flags : UInt8) (bs : List UInt8) :
    Spans (field32 flags : Reader ε UInt32) bs
      (fun x n => x.toNat = numberAt (hasFlag flags networkByteOrder) bs ∧ n = 4) (.ofLength 4 bs) := by
  by_cases h : 4 ≤ bs.length
  · have hlen : (ordered (hasFlag flags networkByteOrder) (bs.take 4)).length = 4 := by
      rw [length_ordered, List.length_take_of_le h]
    have hread := @parses_field32 ε flags _ rfl
      (UInt32.ofNat (numberAt (hasFlag flags networkByteOrder) bs)) (bs.drop 4)
    rw [numberAt, bytes32_leNat hlen, ordered_ordered, List.take_append_drop] at hread
    rw [Extent.ofLength, if_pos h]
    exact ⟨_, ⟨toNat_leNat hlen, rfl⟩, hread⟩
  · rw [Extent.ofLength, if_neg h]
    have hbytes : (bytes 4 : Reader ε _) bs = .crash := if_neg h
    have huint : (uint32 : Reader ε UInt32) bs = .crash := bind_apply_crash hbytes _
    exact bind_apply_crash huint _

lemma spans_uint32 (bs : List UInt8) :
    Spans (uint32 : Reader ε UInt32) bs (fun x n => x.toNat = numberAt false bs ∧ n = 4)
      (.ofLength 4 bs) := by
  have h : (field32 0 : Reader ε UInt32) bs = uint32 bs := by
    rw [field32, bind_apply]
    rcases (uint32 : Reader ε UInt32) bs with (e | ⟨x, rest⟩) | _ | _ <;> rfl
  exact (spans_field32 0 bs).congr h.symm

/-! ### OIDs -/

/-- The OID at the front of a payload, where the reader looks at the first `low` bytes anyway and
takes `limit` sub-identifiers. -/
def oidExtent (low limit : Nat) : List UInt8 → Extent
  | n :: pre :: rest =>
    if limit < n.toNat + 5 then .refused
    else if (if n = 0 then low else 4 + 4 * n.toNat) ≤ (n :: pre :: rest).length then
      .size (4 + 4 * n.toNat)
    else .missing
  | _ => .missing

/-- The sub-identifiers of an OID in memory. -/
def oidWords (n pre : UInt8) : Nat := if n = 0 ∧ pre = 0 then 0 else n.toNat + 5

lemma decTry_cons (flag n pre : UInt8) (rest : List UInt8) :
    (agentxValueDecTry flag asn1TagObjid : Reader ε Nat) (n :: pre :: rest) =
      .ok (.ok (4 * oidWords n pre, rest)) := by
  have h : (agentxValueDecTry flag asn1TagObjid : Reader ε Nat) (n :: pre :: rest) =
      .ok (.ok (if n = 0 ∧ pre = 0 then 0 else (n.toNat + 5) * 4, rest)) := rfl
  rw [h, oidWords, mul_ite, Nat.mul_zero, Nat.mul_comm]

lemma decTry_short {flag : UInt8} {bs : List UInt8} (h : bs.length < 2) :
    (agentxValueDecTry flag asn1TagObjid : Reader ε Nat) bs = .crash := by
  rcases bs with _ | ⟨n, _ | ⟨pre, rest⟩⟩
  · rfl
  · rfl
  · simp only [List.length_cons] at h
    omega

lemma oidAdvance_oidWords (n pre : UInt8) : oidAdvance (4 * oidWords n pre) = 4 + 4 * n.toNat := by
  rw [oidWords]
  split_ifs with h
  · rw [h.1]
    rfl
  · rw [oidAdvance, if_pos (by omega)]
    omega

lemma lt_oidWords_iff {limit : Nat} (h : 5 ≤ limit) (n pre : UInt8) :
    limit < oidWords n pre ↔ limit < n.toNat + 5 := by
  rw [oidWords]
  split_ifs with hempty
  · rw [hempty.1]
    simpa using h
  · rfl

lemma oidExtent_cons (low limit : Nat) (n pre : UInt8) (rest : List UInt8) :
    oidExtent low limit (n :: pre :: rest) =
      if limit < n.toNat + 5 then .refused
      else if (if n = 0 then low else 4 + 4 * n.toNat) ≤ rest.length + 2 then .size (4 + 4 * n.toNat)
      else .missing := rfl

/-- No byte is too large where 260 sub-identifiers are taken. -/
lemma not_lt_full (n : UInt8) : ¬ 260 < n.toNat + 5 := by
  have := n.toNat_lt
  omega

lemma oidDec_cons (n pre : UInt8) (rest : List UInt8) :
    (agentxOidDec : Reader ε DecodedValue) (n :: pre :: rest) =
      (if n = 0 ∧ pre = 0 then pure ⟨0, [], 4⟩ else do
        let subIds ← bytes (4 * n.toNat)
        pure ⟨n.toNat + 5, expandedPrefix pre ++ subIds, 4 + 4 * n.toNat⟩ :
          Reader ε DecodedValue) (rest.drop 2) := rfl

/-- An OID is read where its sub-identifiers are there. -/
lemma spans_oidDec (bs : List UInt8) :
    Spans (agentxOidDec : Reader ε DecodedValue) bs (fun d k => d.used = k) (oidExtent 2 260 bs) := by
  rcases bs with _ | ⟨n, _ | ⟨pre, rest⟩⟩
  · rfl
  · rfl
  · have hread := oidDec_cons (ε := ε) n pre rest
    rw [oidExtent_cons, if_neg (not_lt_full n)]
    by_cases hn : n = 0
    · subst hn
      rw [if_pos rfl, if_pos (by omega)]
      by_cases hpre : pre = 0
      · exact ⟨⟨0, [], 4⟩, rfl, by rw [hread, if_pos ⟨rfl, hpre⟩]; rfl⟩
      · exact ⟨⟨5, expandedPrefix pre ++ [], 4⟩, rfl, by rw [hread, if_neg (fun h => hpre h.2)]; rfl⟩
    · rw [if_neg (fun h => hn h.1)] at hread
      rw [if_neg hn]
      split_ifs with hlen
      · have hbytes : (bytes (4 * n.toNat) : Reader ε _) (rest.drop 2) =
            .ok (.ok ((rest.drop 2).take (4 * n.toNat), (rest.drop 2).drop (4 * n.toNat))) := by
          rw [bytes, if_pos (by rw [List.length_drop]; omega)]
        have hdrop : (n :: pre :: rest).drop (4 + 4 * n.toNat) =
            (rest.drop 2).drop (4 * n.toNat) := by
          rw [List.drop_drop, show 4 + 4 * n.toNat = 2 + 4 * n.toNat + 2 from by omega]
          rfl
        refine ⟨⟨n.toNat + 5, expandedPrefix pre ++ (rest.drop 2).take (4 * n.toNat),
          4 + 4 * n.toNat⟩, rfl, ?_⟩
        rw [hread, bind_apply_ok hbytes, hdrop]
        rfl
      · have hpos : n.toNat ≠ 0 := fun h => hn (UInt8.toNat_inj.mp h)
        have hbytes : (bytes (4 * n.toNat) : Reader ε _) (rest.drop 2) = .crash := by
          rw [bytes, if_neg (by rw [List.length_drop]; omega)]
        exact hread.trans (bind_apply_crash hbytes _)

section OidExtent

variable {low limit k : Nat} {bs : List UInt8}

/-- An OID that is taken. -/
lemma oidExtent_size (hlow : 2 ≤ low ∧ low ≤ 8) (hmin : 5 ≤ limit) (h : oidExtent low limit bs = .size k)
    (flag : UInt8) : low ≤ bs.length ∧ oidExtent 2 260 bs = .size k ∧
      ∃ w r, (agentxValueDecTry flag asn1TagObjid : Reader ε Nat) bs = .ok (.ok (4 * w, r)) ∧
        ¬ limit < w ∧ oidAdvance (4 * w) = k := by
  rcases bs with _ | ⟨n, _ | ⟨pre, rest⟩⟩
  · simp [oidExtent] at h
  · simp [oidExtent] at h
  · rw [oidExtent_cons] at h ⊢
    rw [List.length_cons, List.length_cons, if_neg (not_lt_full n)]
    split_ifs at h with hlimit hn hlen hlen
    · obtain rfl := Extent.size.inj h
      exact ⟨hlen, by rw [if_pos hn, if_pos (hlow.1.trans hlen)], _, rest, decTry_cons flag n pre rest,
        by rwa [lt_oidWords_iff hmin], oidAdvance_oidWords n pre⟩
    · obtain rfl := Extent.size.inj h
      have hpos : n.toNat ≠ 0 := fun h => hn (UInt8.toNat_inj.mp h)
      exact ⟨by omega, by rw [if_neg hn, if_pos hlen], _, rest, decTry_cons flag n pre rest,
        by rwa [lt_oidWords_iff hmin], oidAdvance_oidWords n pre⟩

lemma oidExtent_refused (hmin : 5 ≤ limit) (h : oidExtent low limit bs = .refused) (flag : UInt8) :
    ∃ w r, (agentxValueDecTry flag asn1TagObjid : Reader ε Nat) bs = .ok (.ok (4 * w, r)) ∧
      limit < w := by
  rcases bs with _ | ⟨n, _ | ⟨pre, rest⟩⟩
  · simp [oidExtent] at h
  · simp [oidExtent] at h
  · rw [oidExtent_cons] at h
    split_ifs at h with hlimit hlen
    exact ⟨_, rest, decTry_cons flag n pre rest, (lt_oidWords_iff hmin n pre).mpr hlimit⟩

/-- An OID that is not there as a whole. -/
lemma oidExtent_missing (hmin : 5 ≤ limit) (h : oidExtent low limit bs = .missing) (flag : UInt8) :
    bs.length < 2 ∨
      ∃ w r, (agentxValueDecTry flag asn1TagObjid : Reader ε Nat) bs = .ok (.ok (4 * w, r)) ∧
        ¬ limit < w ∧
          (bs.length < low ∨ oidExtent 2 260 bs = .missing ∧ bs.length ≤ oidAdvance (4 * w)) := by
  rcases bs with _ | ⟨n, _ | ⟨pre, rest⟩⟩
  · exact .inl (by decide)
  · exact .inl (by simp)
  · rw [oidExtent_cons] at h
    split_ifs at h with hlimit hn hlen hlen
    · refine .inr ⟨_, rest, decTry_cons flag n pre rest, by rwa [lt_oidWords_iff hmin], .inl ?_⟩
      simp only [List.length_cons]
      omega
    · refine .inr ⟨_, rest, decTry_cons flag n pre rest, by rwa [lt_oidWords_iff hmin], .inr ⟨?_, ?_⟩⟩
      · rw [oidExtent_cons, if_neg (not_lt_full n), if_neg hn,
          if_neg hlen]
      · rw [oidAdvance_oidWords]
        simp only [List.length_cons]
        omega

end OidExtent

/-! ### Search ranges -/

/-- The search range at the front of a payload. -/
def searchRangeExtent (bs : List UInt8) : Extent :=
  (oidExtent 3 mibOidMaxLen bs).followedBy fun k => oidExtent 3 mibOidMaxLen (bs.drop k)

lemma include_apply (bs : List UInt8) : (do skip 2; byte : Reader ε UInt8) bs = byte (bs.drop 2) := rfl

/-- What `search_range_alloc` does with each of its OIDs before it reads it. -/
lemma spans_rangeOid {α : Type} {flag : UInt8} {bs : List UInt8} {K : α → Nat → Prop}
    {f : Nat → UInt8 → Reader AgentxErrCode α} {g : Nat → Extent}
    (hread : ∀ l incl k, oidExtent 2 260 bs = .size k → oidAdvance l = k →
      Spans (f l incl) bs K ((Extent.size k).followedBy g))
    (hcrash : ∀ l incl, oidExtent 2 260 bs = .missing → f l incl bs = .crash) :
    Spans (do
      let l ← peek (agentxValueDecTry flag asn1TagObjid)
      failIf (mibOidMaxLen < l / 4) .srOidLen
      let incl ← peek (do skip 2; byte)
      f l incl) bs K ((oidExtent 3 mibOidMaxLen bs).followedBy g) := by
  have hincl : 3 ≤ bs.length → ∃ b r, (do skip 2; byte : Reader AgentxErrCode UInt8) bs =
      .ok (.ok (b, r)) := by
    intro h
    obtain ⟨b, r, hb⟩ := List.exists_cons_of_length_pos (l := bs.drop 2)
      (by rw [List.length_drop]; omega)
    exact ⟨b, r, by rw [include_apply, hb, byte_cons]⟩
  cases h : oidExtent 3 mibOidMaxLen bs with
  | missing =>
    obtain hshort | ⟨w, r, htry, hlimit, hmiss⟩ := oidExtent_missing (by decide) h flag
    · exact spans_peek_crash (decTry_short hshort)
    · apply spans_peek_bind htry
      apply spans_failIf_bind (by rwa [Nat.mul_div_cancel_left w (by decide)])
      by_cases hlow : bs.length < 3
      · apply spans_peek_crash
        rw [include_apply, List.drop_eq_nil_of_le (by omega), byte_nil]
      · obtain ⟨b, r', hb⟩ := hincl (Nat.le_of_not_lt hlow)
        exact spans_peek_bind hb (hcrash (4 * w) b (hmiss.resolve_left hlow).1)
  | refused =>
    obtain ⟨w, r, htry, hlimit⟩ := oidExtent_refused (by decide) h flag
    apply spans_peek_bind htry
    exact spans_failIf (by rwa [Nat.mul_div_cancel_left w (by decide)])
  | size k =>
    obtain ⟨hlow, hfull, w, r, htry, hlimit, hadv⟩ := oidExtent_size (by decide) (by decide) h flag
    obtain ⟨b, r', hb⟩ := hincl hlow
    apply spans_peek_bind htry
    apply spans_failIf_bind (by rwa [Nat.mul_div_cancel_left w (by decide)])
    exact spans_peek_bind hb (hread (4 * w) b k hfull hadv)

lemma spans_searchRangeAlloc (flag : UInt8) (bs : List UInt8) :
    Spans (searchRangeAlloc flag) bs (fun sr n => sr.2 = n) (searchRangeExtent bs) := by
  apply spans_rangeOid
  · intro l incl k hk hadv
    have hdec := spans_oidDec (ε := AgentxErrCode) bs
    rw [hk] at hdec
    obtain ⟨start, hused, hdec⟩ := hdec
    apply spans_peek_bind hdec
    rw [hadv]
    apply spans_skip_bind
    rw [← Extent.followedBy_nothing (oidExtent 3 mibOidMaxLen (bs.drop k))]
    apply spans_rangeOid
    · intro l' incl' k' hk' hadv'
      have hdec' := spans_oidDec (ε := AgentxErrCode) (bs.drop k)
      rw [hk'] at hdec'
      apply hdec'.bind
      intro stop m hm
      exact spans_pure (by rw [hm, Nat.add_zero])
    · intro l' incl' hk'
      have hdec' := spans_oidDec (ε := AgentxErrCode) (bs.drop k)
      rw [hk'] at hdec'
      exact bind_apply_crash hdec' _
  · intro l incl hk
    have hdec := spans_oidDec (ε := AgentxErrCode) bs
    rw [hk] at hdec
    have hpeek : peek (agentxValueDec flag asn1TagObjid : Reader AgentxErrCode DecodedValue) bs =
        .crash := by
      have hdec' : (agentxValueDec flag asn1TagObjid : Reader AgentxErrCode DecodedValue) bs =
        .crash := hdec
      rw [peek, hdec']
    exact bind_apply_crash hpeek _

/-! ### Varbinds -/

/-- A string, which stands behind its length and is padded to words. -/
def stringExtent (bs : List UInt8) : Extent :=
  if 4 ≤ bs.length then
    if mibValueMaxLen < numberAt false bs then .refused
    else if numberAt false bs ≤ (bs.drop 4).length then .size (4 + uintSizeof (numberAt false bs))
    else .missing
  else .missing

/-- The value at the front of `bs`. -/
def valueExtent (type : UInt8) (bs : List UInt8) : Extent :=
  if isWordType type then .ofLength 4 bs
  else if type = asn1TagCnt64 then .ofLength 8 bs
  else if isStringType type then stringExtent bs
  else if type = asn1TagObjid then oidExtent 2 (mibValueMaxLen / 4) bs
  else .size 0

/-- The varbind at the front of a payload. The byte of its type that counts is the lower one. -/
def varBindExtent (flag : UInt8) : List UInt8 → Extent
  | a :: b :: rest => (Extent.size 2).followedBy fun _ => (Extent.size 2).followedBy fun _ =>
      (oidExtent 2 mibOidMaxLen (rest.drop 2)).followedBy fun k =>
        valueExtent (if hasFlag flag networkByteOrder then b else a) ((rest.drop 2).drop k)
  | _ => .missing

/-- What the dry run and the decoder make of a value. -/
def ValueSeen (flag type : UInt8) (bs : List UInt8) : Extent → Prop
  | .missing => (agentxValueDecTry flag type : Reader AgentxErrCode Nat) bs = .crash ∨
      (∃ l r, (agentxValueDecTry flag type : Reader AgentxErrCode Nat) bs = .ok (.ok (l, r)) ∧
        ¬ mibValueMaxLen < l) ∧
      (agentxValueDec flag type : Reader AgentxErrCode DecodedValue) bs = .crash
  | .refused => ∃ l r, (agentxValueDecTry flag type : Reader AgentxErrCode Nat) bs =
      .ok (.ok (l, r)) ∧ mibValueMaxLen < l
  | .size n => (∃ l r, (agentxValueDecTry flag type : Reader AgentxErrCode Nat) bs =
      .ok (.ok (l, r)) ∧ ¬ mibValueMaxLen < l) ∧
      ∃ d, (agentxValueDec flag type : Reader AgentxErrCode DecodedValue) bs =
        .ok (.ok (d, bs.drop n)) ∧ d.used = n

/-- A value that is not refused is found to be short, if its length can be read. -/
lemma ValueSeen.try_of_ne {flag type : UInt8} {bs : List UInt8} {e : Extent}
    (h : ValueSeen flag type bs e) (hne : e ≠ .refused) :
    (agentxValueDecTry flag type : Reader AgentxErrCode Nat) bs = .crash ∨
      ∃ l r, (agentxValueDecTry flag type : Reader AgentxErrCode Nat) bs = .ok (.ok (l, r)) ∧
        ¬ mibValueMaxLen < l := by
  cases e with
  | missing => exact h.imp_right And.left
  | refused => exact absurd rfl hne
  | size n => exact .inr h.1

lemma valueSeen_number {flag type : UInt8} {n : Nat} (bs : List UInt8)
    (htry : (agentxValueDecTry flag type : Reader AgentxErrCode Nat) = pure 8)
    (hdec : (agentxValueDec flag type : Reader AgentxErrCode DecodedValue) = (do
      let value ← bytes n
      pure ⟨1, value, n⟩)) : ValueSeen flag type bs (.ofLength n bs) := by
  have hlen : ∃ l r, (agentxValueDecTry flag type : Reader AgentxErrCode Nat) bs = .ok (.ok (l, r)) ∧
      ¬ mibValueMaxLen < l := ⟨8, bs, by rw [htry]; rfl, by decide⟩
  by_cases h : n ≤ bs.length
  · have hbytes : (bytes n : Reader AgentxErrCode _) bs = .ok (.ok (bs.take n, bs.drop n)) := by
      rw [bytes, if_pos h]
    rw [Extent.ofLength, if_pos h]
    exact ⟨hlen, _, by rw [hdec, bind_apply_ok hbytes]; rfl, rfl⟩
  · have hbytes : (bytes n : Reader AgentxErrCode _) bs = .crash := if_neg h
    rw [Extent.ofLength, if_neg h]
    exact .inr ⟨hlen, by rw [hdec, bind_apply_crash hbytes]⟩

lemma valueSeen_string {flag type : UInt8} (bs : List UInt8) (ht : isStringType type) :
    ValueSeen flag type bs (stringExtent bs) := by
  have hspans := spans_uint32 (ε := AgentxErrCode) bs
  rw [stringExtent]
  by_cases h : 4 ≤ bs.length
  · rw [Extent.ofLength, if_pos h] at hspans
    obtain ⟨x, ⟨hx, _⟩, hread⟩ := hspans
    have htry : (agentxValueDecTry flag type : Reader AgentxErrCode Nat) bs =
        .ok (.ok (numberAt false bs, bs.drop 4)) := by
      rw [WireValue.valueDecTry_str ht, bind_apply_ok hread, hx]
      rfl
    rw [if_pos h]
    split_ifs with hlimit hlen
    · exact ⟨_, _, htry, hlimit⟩
    · have hbytes : (bytes (numberAt false bs) : Reader AgentxErrCode _) (bs.drop 4) =
          .ok (.ok ((bs.drop 4).take (numberAt false bs), (bs.drop 4).drop (numberAt false bs))) := by
        rw [bytes, if_pos hlen]
      have hpad := WireValue.le_uintSizeof (numberAt false bs)
      have hdrop : bs.drop (4 + uintSizeof (numberAt false bs)) =
          ((bs.drop 4).drop (numberAt false bs)).drop
            (uintSizeof (numberAt false bs) - numberAt false bs) := by
        rw [List.drop_drop, List.drop_drop, Nat.add_sub_cancel' hpad]
      refine ⟨⟨_, _, htry, hlimit⟩, ⟨numberAt false bs, (bs.drop 4).take (numberAt false bs),
        4 + uintSizeof (numberAt false bs)⟩, ?_, rfl⟩
      rw [WireValue.valueDec_str ht, bind_apply_ok hread, hx, bind_apply_ok hbytes, hdrop]
      rfl
    · have hbytes : (bytes (numberAt false bs) : Reader AgentxErrCode _) (bs.drop 4) = .crash :=
        if_neg hlen
      refine .inr ⟨⟨_, _, htry, hlimit⟩, ?_⟩
      rw [WireValue.valueDec_str ht, bind_apply_ok hread, hx, bind_apply_crash hbytes]
  · rw [Extent.ofLength, if_neg h] at hspans
    rw [if_neg h]
    refine .inl ?_
    rw [WireValue.valueDecTry_str ht]
    exact bind_apply_crash hspans _

lemma valueSeen_objid (flag : UInt8) (bs : List UInt8) :
    ValueSeen flag asn1TagObjid bs (oidExtent 2 (mibValueMaxLen / 4) bs) := by
  have hdec := spans_oidDec (ε := AgentxErrCode) bs
  have hmax : mibValueMaxLen = 4 * (mibValueMaxLen / 4) := rfl
  cases h : oidExtent 2 (mibValueMaxLen / 4) bs with
  | missing =>
    obtain hshort | ⟨w, r, htry, hlimit, hmiss⟩ := oidExtent_missing (by decide) h flag
    · exact .inl (decTry_short hshort)
    · by_cases hshort : bs.length < 2
      · exact .inl (decTry_short hshort)
      · rw [(hmiss.resolve_left hshort).1] at hdec
        exact .inr ⟨⟨4 * w, r, htry, by omega⟩, hdec⟩
  | refused =>
    obtain ⟨w, r, htry, hlimit⟩ := oidExtent_refused (by decide) h flag
    exact ⟨4 * w, r, htry, by omega⟩
  | size k =>
    obtain ⟨_, hfull, w, r, htry, hlimit, _⟩ := oidExtent_size (by decide) (by decide) h flag
    rw [hfull] at hdec
    obtain ⟨d, hused, hdec⟩ := hdec
    exact ⟨⟨4 * w, r, htry, by omega⟩, d, hdec, hused⟩

lemma valueSeen (flag type : UInt8) (bs : List UInt8) :
    ValueSeen flag type bs (valueExtent type bs) := by
  rw [valueExtent]
  split_ifs with hword hcnt hstr hobj
  · apply valueSeen_number bs
    · rw [agentxValueDecTry, hword]
      rfl
    · rw [agentxValueDec, if_pos hword]
  · subst hcnt
    exact valueSeen_number bs rfl rfl
  · exact valueSeen_string bs hstr
  · subst hobj
    exact valueSeen_objid flag bs
  · refine ⟨⟨0, bs, ?_, by decide⟩, ⟨0, [], 0⟩, ?_, rfl⟩
    · simp only [agentxValueDecTry, hword, hcnt, hstr, hobj, if_false, Bool.false_eq_true,
        decide_false, Bool.or_self]
      rfl
    · rw [agentxValueDec, if_neg hword, if_neg hcnt, if_neg hstr, if_neg hobj]
      rfl

lemma valueExtent_nil_ne (type : UInt8) : valueExtent type [] ≠ .refused := by
  rw [valueExtent]
  split_ifs <;> simp [Extent.ofLength, stringExtent, oidExtent]

/-- The type of a varbind. -/
lemma field16_cons (flag a b : UInt8) (rest : List UInt8) :
    ∃ type : UInt16, (field16 flag : Reader AgentxErrCode UInt16) (a :: b :: rest) =
      .ok (.ok (type, rest)) ∧
      type.toUInt8 = if hasFlag flag networkByteOrder then b else a := by
  have hlen : ∀ nbo, (ordered nbo [a, b]).length = 2 := fun nbo => length_ordered nbo [a, b]
  have hread := @parses_field16 AgentxErrCode flag _ rfl
    (UInt16.ofNat (leNat (ordered (hasFlag flag networkByteOrder) [a, b]))) rest
  rw [bytes16_leNat (hlen _), ordered_ordered] at hread
  refine ⟨_, hread, ?_⟩
  have hlow : ∀ c d : UInt8, (UInt16.ofNat (leNat [c, d])).toUInt8 = c := by
    intro c d
    apply UInt8.toNat_inj.mp
    have hc := c.toNat_lt
    simp only [leNat, UInt16.toNat_toUInt8, UInt16.toNat_ofNat']
    omega
  cases hasFlag flag networkByteOrder with
  | false => exact hlow a b
  | true => exact hlow b a

/-- The value of a varbind, where its name is read. -/
lemma spans_varBindValue (flag : UInt8) (type : UInt16) {cs : List UInt8} {name : DecodedValue} {k : Nat}
    (hname : (agentxOidDec : Reader AgentxErrCode DecodedValue) cs = .ok (.ok (name, cs.drop k))) :
    Spans (do
      let valLen ← peek (do skip k; agentxValueDecTry flag type.toUInt8)
      failIf (mibValueMaxLen < valLen) .vbValueLen
      let oid ← peek (agentxValueDec flag asn1TagObjid)
      skip k
      let val ← agentxValueDec flag type.toUInt8
      pure (⟨wordsOf oid.value, type, val.count, val.value, []⟩, 4 + k + val.used) :
        Reader AgentxErrCode (XVarBind × Nat)) cs (fun vb m => vb.2 = 2 + (2 + m))
      ((Extent.size k).followedBy fun k => valueExtent type.toUInt8 (cs.drop k)) := by
  have hval := valueSeen flag type.toUInt8 (cs.drop k)
  have hskip : ∀ {o}, (agentxValueDecTry flag type.toUInt8 : Reader AgentxErrCode Nat) (cs.drop k) = o →
      (do skip k; agentxValueDecTry flag type.toUInt8 : Reader AgentxErrCode Nat) cs = o := id
  cases hext : valueExtent type.toUInt8 (cs.drop k) with
  | missing =>
    rw [hext] at hval
    simp only [Extent.followedBy, hext]
    obtain hcrash | ⟨⟨l, r', hl, hsmall⟩, hcrash⟩ := hval
    · exact spans_peek_crash (hskip hcrash)
    · apply spans_peek_bind (hskip hl)
      apply spans_failIf_bind hsmall
      apply spans_peek_bind hname
      exact (bind_apply_ok (skip_apply k cs) _).trans (bind_apply_crash hcrash _)
  | refused =>
    rw [hext] at hval
    obtain ⟨l, r', hl, hlarge⟩ := hval
    simp only [Extent.followedBy, hext]
    exact spans_peek_bind (hskip hl) (spans_failIf hlarge)
  | size m =>
    rw [hext] at hval
    obtain ⟨⟨l, r', hl, hsmall⟩, val, hdec, hused⟩ := hval
    apply spans_peek_bind (hskip hl)
    apply spans_failIf_bind hsmall
    apply spans_peek_bind hname
    apply spans_skip_bind
    rw [hext, ← Extent.followedBy_nothing (Extent.size m)]
    refine Spans.ok_bind (spans_pure ?_) hdec
    rw [hused]
    omega

lemma spans_varBindAlloc (flag : UInt8) (bs : List UInt8) :
    Spans (xVarBindAlloc flag) bs (fun vb n => vb.2 = n) (varBindExtent flag bs) := by
  rcases bs with _ | ⟨a, _ | ⟨b, rest⟩⟩
  · rfl
  · rfl
  · obtain ⟨type, hread, htype⟩ := field16_cons flag a b rest
    simp only [varBindExtent, ← htype]
    refine Spans.ok_bind ?_ hread
    apply spans_skip_bind
    change Spans _ (rest.drop 2) _ _
    generalize rest.drop 2 = cs
    have hdec := spans_oidDec (ε := AgentxErrCode) cs
    cases h : oidExtent 2 mibOidMaxLen cs with
    | missing =>
      obtain hshort | ⟨w, r, htry, hlimit, hmiss⟩ :=
        oidExtent_missing (ε := AgentxErrCode) (by decide) h flag
      · exact spans_peek_crash (decTry_short hshort)
      · by_cases hshort : cs.length < 2
        · exact spans_peek_crash (decTry_short hshort)
        · obtain ⟨hfull, hend⟩ := hmiss.resolve_left hshort
          rw [hfull] at hdec
          apply spans_peek_bind htry
          apply spans_failIf_bind (by rwa [Nat.mul_div_cancel_left w (by decide)])
          -- the value starts behind the end of the bytes
          have hval := valueSeen flag type.toUInt8 (cs.drop (oidAdvance (4 * w)))
          rw [List.drop_eq_nil_of_le hend] at hval
          obtain hcrash | ⟨l, r', hl, hsmall⟩ := hval.try_of_ne (valueExtent_nil_ne _)
          · apply spans_peek_crash
            rw [bind_apply_ok (skip_apply _ _), List.drop_eq_nil_of_le hend, hcrash]
          · refine spans_peek_bind (r := r') (b := l) ?_ ?_
            · rw [bind_apply_ok (skip_apply _ _), List.drop_eq_nil_of_le hend, hl]
            · exact spans_failIf_bind hsmall (spans_peek_crash hdec)
    | refused =>
      obtain ⟨w, r, htry, hlimit⟩ := oidExtent_refused (by decide) h flag
      apply spans_peek_bind htry
      exact spans_failIf (by rwa [Nat.mul_div_cancel_left w (by decide)])
    | size k =>
      obtain ⟨_, hfull, w, r, htry, hlimit, hadv⟩ := oidExtent_size (by decide) (by decide) h flag
      rw [hfull] at hdec
      obtain ⟨name, hused, hname⟩ := hdec
      apply spans_peek_bind htry
      apply spans_failIf_bind (by rwa [Nat.mul_div_cancel_left w (by decide)])
      rw [hadv]
      exact spans_varBindValue flag type hname

/-! ### Headers -/

/-- `payload_length` as it is announced. -/
def announced (buf : List UInt8) : Nat :=
  numberAt (hasFlag (buf.getD 2 0) networkByteOrder) (buf.drop 16)

lemma spans_fixedHdr (buf : List UInt8) : Spans fixedHdrParse buf
    (fun hdr n => (hdr.type = buf.getD 1 0 ∧ hdr.flags = buf.getD 2 0 ∧
      hdr.payloadLength.toNat = announced buf) ∧ n = 20) (.ofLength 20 buf) := by
  apply spans_byte.bind_ofLength (n := 1) (m := 19)
  intro version _
  apply spans_byte.bind_ofLength (n := 1) (m := 18)
  intro type htype
  apply spans_byte.bind_ofLength (n := 1) (m := 17)
  intro flags hflags
  apply spans_byte.bind_ofLength (n := 1) (m := 16)
  intro reserved _
  apply (spans_field32 flags _).bind_ofLength (n := 4) (m := 12)
  intro sessionId _
  apply (spans_field32 flags _).bind_ofLength (n := 4) (m := 8)
  intro transactionId _
  apply (spans_field32 flags _).bind_ofLength (n := 4) (m := 4)
  intro packetId _
  apply (spans_field32 flags _).bind_ofLength (n := 4) (m := 0)
  intro payloadLength hlen
  rw [Extent.ofLength, if_pos (Nat.zero_le _)]
  simp only [List.drop_drop, List.getD_eq_getElem?_getD, List.getElem?_drop] at htype hflags hlen
  refine spans_pure ⟨⟨htype, hflags, ?_⟩, rfl⟩
  rw [hlen, hflags, announced, List.getD_eq_getElem?_getD]

/-- The optional context, which is padded to words. The check of its length is made in 32 bits. -/
def contextExtent (flags : UInt8) (bs : List UInt8) : Extent :=
  if hasFlag flags nonDefaultContext then
    (Extent.ofLength 4 bs).followedBy fun _ =>
      if 41 < (numberAt (hasFlag flags networkByteOrder) bs + 1) % 2 ^ 32 then .refused
      else (Extent.ofLength (numberAt (hasFlag flags networkByteOrder) bs) (bs.drop 4)).followedBy
        fun n => .size (uintSizeof n - n)
  else .size 0

/-- The fields that belong to a type of PDU. Of those of a Close, only the reason is read. -/
def additionalExtent (type : UInt8) (bs : List UInt8) : Extent :=
  if type = agentxPduClose then if bs = [] then .missing else .size 4
  else if type = agentxPduGetbulk then .ofLength 4 bs
  else if type = agentxPduResponse then .ofLength 8 bs
  else .size 0

/-- What a part of the header leaves of the counter. -/
def CountedDown (xdg xdg' : AgentxDatagram) (n : Nat) : Prop :=
  xdg'.pduHdr = { xdg.pduHdr with payloadLength := xdg.pduHdr.payloadLength - UInt32.ofNat n }

lemma CountedDown.refl (xdg : AgentxDatagram) : CountedDown xdg xdg 0 := by
  simp [CountedDown]

/-- What is subtracted for the context of a datagram. -/
def contextSubtraction (xdg : AgentxDatagram) : Nat :=
  if hasFlag xdg.pduHdr.flags nonDefaultContext then 4 + uintSizeof xdg.context.length else 0

/-- What is subtracted for the fields that belong to a type of PDU. -/
def additionalSubtraction (type : UInt8) : Nat :=
  if type = agentxPduClose then 4
  else if type = agentxPduGetbulk then 4
  else if type = agentxPduResponse then 8
  else 0

lemma spans_context (xdg : AgentxDatagram) (bs : List UInt8) :
    Spans (contextParse xdg) bs
      (fun xdg' n => CountedDown xdg xdg' n ∧ contextSubtraction xdg' = n)
      (contextExtent xdg.pduHdr.flags bs) := by
  rw [contextParse, contextExtent]
  by_cases hctx : hasFlag xdg.pduHdr.flags nonDefaultContext
  · rw [if_pos hctx, if_pos hctx]
    apply (spans_field32 xdg.pduHdr.flags bs).bind
    rintro ctxLen _ ⟨hlen, rfl⟩
    have hnat : (ctxLen + 1).toNat =
        (numberAt (hasFlag xdg.pduHdr.flags networkByteOrder) bs + 1) % 2 ^ 32 := by
      rw [UInt32.toNat_add, hlen]
      rfl
    rw [← hnat, ← hlen]
    by_cases hlimit : 41 < (ctxLen + 1).toNat
    · rw [if_pos hlimit]
      exact spans_failIf hlimit
    · rw [if_neg hlimit]
      apply spans_failIf_bind hlimit
      have hbytes : Spans (bytes ctxLen.toNat : Reader AgentxErrCode _) (bs.drop 4)
          (fun cs k => cs.length = ctxLen.toNat ∧ k = ctxLen.toNat) (.ofLength ctxLen.toNat (bs.drop 4)) :=
        spans_bytes ctxLen.toNat fun h => ⟨List.length_take_of_le h, rfl⟩
      apply hbytes.bind
      rintro context _ ⟨hcontext, rfl⟩
      have hpad := WireValue.le_uintSizeof ctxLen.toNat
      rw [← Extent.followedBy_nothing (Extent.size (uintSizeof ctxLen.toNat - ctxLen.toNat))]
      apply spans_skip_bind
      have hall : 4 + (ctxLen.toNat + (uintSizeof ctxLen.toNat - ctxLen.toNat + 0)) =
          4 + uintSizeof ctxLen.toNat := by omega
      refine spans_pure ⟨?_, ?_⟩
      · rw [hall]
        rfl
      · rw [hall, contextSubtraction]
        change (if hasFlag xdg.pduHdr.flags nonDefaultContext then _ else _) = _
        rw [if_pos hctx, ← hcontext]
  · rw [if_neg hctx, if_neg hctx]
    exact spans_pure ⟨.refl xdg, by rw [contextSubtraction, if_neg hctx]⟩

lemma spans_field16 (flags : UInt8) (bs : List UInt8) :
    Spans (field16 flags : Reader AgentxErrCode UInt16) bs (fun _ n => True ∧ n = 2)
      (.ofLength 2 bs) := by
  rcases bs with _ | ⟨a, _ | ⟨b, rest⟩⟩
  · rfl
  · rfl
  · obtain ⟨type, hread, _⟩ := field16_cons flags a b rest
    exact ⟨type, ⟨trivial, rfl⟩, hread⟩

lemma spans_additional (xdg : AgentxDatagram) (bs : List UInt8) :
    Spans (additionalParse xdg) bs
      (fun xdg' n => CountedDown xdg xdg' n ∧ additionalSubtraction xdg.pduHdr.type = n)
      (additionalExtent xdg.pduHdr.type bs) := by
  rw [additionalParse, additionalExtent, additionalSubtraction]
  split_ifs with hclose hnil hbulk hresp
  · subst hnil
    exact spans_peek_crash rfl
  · obtain ⟨b, rest, hbs⟩ := List.exists_cons_of_ne_nil hnil
    refine spans_peek_bind (b := b) (r := rest) (by rw [hbs, byte_cons]) ?_
    rw [← Extent.followedBy_nothing (Extent.size 4)]
    apply spans_skip_bind
    exact spans_pure ⟨rfl, rfl⟩
  · apply (spans_field16 xdg.pduHdr.flags bs).bind_ofLength (n := 2) (m := 2)
    intro nonRep _
    apply (spans_field16 xdg.pduHdr.flags _).bind_ofLength (n := 2) (m := 0)
    intro maxRep _
    rw [Extent.ofLength, if_pos (Nat.zero_le _)]
    exact spans_pure ⟨rfl, rfl⟩
  · have hword : Spans (field32 xdg.pduHdr.flags : Reader AgentxErrCode UInt32) bs
        (fun _ n => True ∧ n = 4) (.ofLength 4 bs) :=
      (spans_field32 xdg.pduHdr.flags bs).mono fun _ _ h => ⟨trivial, h.2⟩
    apply hword.bind_ofLength (n := 4) (m := 4)
    intro sysUpTime _
    apply (spans_field16 xdg.pduHdr.flags _).bind_ofLength (n := 2) (m := 2)
    intro error _
    apply (spans_field16 xdg.pduHdr.flags _).bind_ofLength (n := 2) (m := 0)
    intro index _
    rw [Extent.ofLength, if_pos (Nat.zero_le _)]
    exact spans_pure ⟨rfl, rfl⟩
  · exact spans_pure ⟨.refl xdg, rfl⟩

/-! ### Counting -/

/-- A run ends without reading past its bytes, and if it does not fail then with the counter at zero
and with the cursor at `stop`. None of the subtractions, each given with the counter before, takes the
counter below zero. -/
structure Counted {β : Type} (run : Outcome (Except AgentxErrCode (β × List UInt8)))
    (left : β → UInt32) (subtractions : List (UInt32 × Nat)) (stop : List UInt8) : Prop where
  ends : ∃ r, run = .ok r
  counted : ∀ s ∈ subtractions, s.2 ≤ s.1.toNat
  exact : ∀ b rest, run = .ok (.ok (b, rest)) → left b = 0 ∧ rest = stop

section Counted

variable {β γ : Type} {left : β → UInt32} {subs : List (UInt32 × Nat)} {stop : List UInt8}

lemma not_counted_crash : ¬ Counted .crash left subs stop := by
  rintro ⟨⟨r, hr⟩, _, _⟩
  simp at hr

lemma counted_error (e : AgentxErrCode) : Counted (.ok (.error e)) left [] stop :=
  ⟨⟨_, rfl⟩, by simp, by simp⟩

lemma counted_ok_iff {b : β} {rest : List UInt8} :
    Counted (.ok (.ok (b, rest))) left [] stop ↔ left b = 0 ∧ rest = stop := by
  constructor
  · intro h
    exact h.exact b rest rfl
  · intro h
    refine ⟨⟨_, rfl⟩, by simp, ?_⟩
    intro b' rest' h'
    obtain ⟨rfl, rfl⟩ : b = b' ∧ rest = rest' := by simpa using h'
    exact h

lemma counted_cons_iff {run : Outcome (Except AgentxErrCode (β × List UInt8))} {c : UInt32}
    {k : Nat} : Counted run left ((c, k) :: subs) stop ↔ k ≤ c.toNat ∧ Counted run left subs stop := by
  constructor
  · rintro ⟨hends, hcounted, hexact⟩
    rw [List.forall_mem_cons] at hcounted
    exact ⟨hcounted.1, hends, hcounted.2, hexact⟩
  · rintro ⟨hle, hends, hcounted, hexact⟩
    exact ⟨hends, List.forall_mem_cons.mpr ⟨hle, hcounted⟩, hexact⟩

/-- The value is changed behind the run. -/
lemma counted_map_iff {p : Reader AgentxErrCode γ} {g : γ → β} {bs : List UInt8} :
    Counted ((p >>= fun x => pure (g x)) bs) left subs stop ↔
      Counted (p bs) (fun x => left (g x)) subs stop := by
  rcases hp : p bs with (e | ⟨x, rest⟩) | _ | _
  · have hrun : (p >>= fun x => pure (g x)) bs = .ok (.error e) := by rw [bind_apply, hp]
    rw [hrun]
    exact ⟨fun h => ⟨⟨_, rfl⟩, h.counted, by simp⟩, fun h => ⟨⟨_, rfl⟩, h.counted, by simp⟩⟩
  · have hrun : (p >>= fun x => pure (g x)) bs = .ok (.ok (g x, rest)) := by
      rw [bind_apply_ok hp, pure_apply]
    rw [hrun]
    constructor
    · intro h
      refine ⟨⟨_, rfl⟩, h.counted, ?_⟩
      intro x' rest' h'
      obtain ⟨rfl, rfl⟩ : x = x' ∧ rest = rest' := by simpa using h'
      exact h.exact (g x) rest rfl
    · intro h
      refine ⟨⟨_, rfl⟩, h.counted, ?_⟩
      intro b rest' h'
      obtain ⟨rfl, rfl⟩ : g x = b ∧ rest = rest' := by simpa using h'
      exact h.exact x rest rfl
  · have hrun : (p >>= fun x => pure (g x)) bs = .crash := by rw [bind_apply, hp]
    rw [hrun]
    exact iff_of_false not_counted_crash not_counted_crash
  · have hrun : (p >>= fun x => pure (g x)) bs = .fuel := by rw [bind_apply, hp]
    rw [hrun]
    exact iff_of_false (fun h => by simpa using h.ends) (fun h => by simpa using h.ends)

end Counted

/-! ### Elements -/

section Loop

variable {α : Type} {alloc : Reader AgentxErrCode (α × Nat)} {elem : List UInt8 → Extent}

/-- What the loop subtracts from the counter, with the counter before. -/
def loopSubtractions (alloc : Reader AgentxErrCode (α × Nat)) :
    Nat → UInt32 → List UInt8 → List (UInt32 × Nat)
  | 0, _, _ => []
  | fuel + 1, payloadLength, bs =>
    if payloadLength = 0 then []
    else match alloc bs with
      | .ok (.ok ((_, used), rest)) =>
        (payloadLength, used) :: loopSubtractions alloc fuel (payloadLength - UInt32.ofNat used) rest
      | _ => []

/-- The loop takes the counter to zero. -/
def LoopCounted (alloc : Reader AgentxErrCode (α × Nat)) (fuel : Nat) (payloadLength : UInt32)
    (bs : List UInt8) : Prop :=
  Counted (payloadLoop alloc fuel payloadLength bs) Prod.snd
    (loopSubtractions alloc fuel payloadLength bs) (bs.drop payloadLength.toNat)

/-- A reader of elements, none of which is empty. -/
structure Measures (alloc : Reader AgentxErrCode (α × Nat)) (elem : List UInt8 → Extent) : Prop where
  spans : ∀ bs, Spans alloc bs (fun a n => a.2 = n) (elem bs)
  pos : ∀ bs, elem bs ≠ .size 0
  nil : elem [] = .missing

variable {fuel : Nat} {c : UInt32} {bs : List UInt8}

lemma loopCounted_zero : LoopCounted alloc (fuel + 1) 0 bs :=
  counted_ok_iff.mpr ⟨rfl, rfl⟩

lemma payloadLoop_of_ne_zero (hc : c ≠ 0) : payloadLoop alloc (fuel + 1) c bs = (do
    let (elem, used) ← alloc
    let (elems, left) ← payloadLoop alloc fuel (c - UInt32.ofNat used)
    pure (elem :: elems, left)) bs := by
  rw [payloadLoop, if_neg hc]

lemma toNat_sub_ofNat {k : Nat} (h : k ≤ c.toNat) : (c - UInt32.ofNat k).toNat = c.toNat - k := by
  have hlt := c.toNat_lt
  have hk : (UInt32.ofNat k).toNat = k := by
    rw [UInt32.toNat_ofNat']
    exact Nat.mod_eq_of_lt (h.trans_lt hlt)
  rw [UInt32.toNat_sub_of_le _ _ (UInt32.le_iff_toNat_le.mpr (by rwa [hk])), hk]

/-- One element of the loop. -/
lemma loopCounted_succ {a : α} {k : Nat} (hc : c ≠ 0) (h : alloc bs = .ok (.ok ((a, k), bs.drop k))) :
    LoopCounted alloc (fuel + 1) c bs ↔
      k ≤ c.toNat ∧ LoopCounted alloc fuel (c - UInt32.ofNat k) (bs.drop k) := by
  have hloop : payloadLoop alloc (fuel + 1) c bs =
      (payloadLoop alloc fuel (c - UInt32.ofNat k) >>= fun x => pure (a :: x.1, x.2)) (bs.drop k) :=
    (payloadLoop_of_ne_zero hc).trans (bind_apply_ok h _)
  have hsub : loopSubtractions alloc (fuel + 1) c bs =
      (c, k) :: loopSubtractions alloc fuel (c - UInt32.ofNat k) (bs.drop k) := by
    simp only [loopSubtractions, if_neg hc, h]
  rw [LoopCounted, hloop, hsub, counted_cons_iff, counted_map_iff]
  apply and_congr_right
  intro hle
  rw [LoopCounted, List.drop_drop, toNat_sub_ofNat hle, Nat.add_sub_cancel' hle]

/-- The loop takes the counter to zero where the elements add up to it. -/
lemma loopCounted_iff (hm : Measures alloc elem) (hfuel : bs.length < fuel) :
    LoopCounted alloc fuel c bs ↔ AddsUp elem bs c.toNat := by
  induction fuel generalizing c bs with
  | zero => omega
  | succ fuel ih =>
    by_cases hc : c = 0
    · subst hc
      exact iff_of_true loopCounted_zero .done
    · have hn : c.toNat ≠ 0 := fun h => hc (UInt32.toNat_inj.mp h)
      have hspans := hm.spans bs
      cases h : elem bs with
      | missing =>
        rw [h] at hspans
        apply iff_of_false _ (not_addsUp_of_missing hn h)
        rw [LoopCounted, payloadLoop_of_ne_zero hc, bind_apply_crash hspans]
        exact not_counted_crash
      | refused =>
        rw [h] at hspans
        obtain ⟨err, hspans⟩ := hspans
        apply iff_of_true _ (.refused hn h)
        rw [LoopCounted, payloadLoop_of_ne_zero hc, bind_apply, hspans, loopSubtractions, if_neg hc,
          hspans]
        exact counted_error err
      | size k =>
        rw [h] at hspans
        obtain ⟨⟨a, used⟩, hused, hread⟩ := hspans
        obtain rfl : k = used := hused.symm
        rw [loopCounted_succ hc hread, addsUp_iff_of_size hn h]
        apply and_congr_right
        intro hle
        rw [ih, toNat_sub_ofNat hle]
        have hk : k ≠ 0 := by
          intro hzero
          rw [hzero] at h
          exact hm.pos bs h
        have hbs : bs.length ≠ 0 := by
          intro hnil
          rw [List.length_eq_zero_iff.mp hnil, hm.nil] at h
          simp at h
        rw [List.length_drop]
        omega

end Loop

lemma four_le_of_oidExtent {low limit k : Nat} {bs : List UInt8}
    (h : oidExtent low limit bs = .size k) : 4 ≤ k := by
  rcases bs with _ | ⟨n, _ | ⟨pre, rest⟩⟩
  · simp [oidExtent] at h
  · simp [oidExtent] at h
  · rw [oidExtent_cons] at h
    split_ifs at h
    all_goals
      have := Extent.size.inj h
      omega

lemma measures_searchRangeAlloc (flag : UInt8) :
    Measures (searchRangeAlloc flag) searchRangeExtent := by
  refine ⟨spans_searchRangeAlloc flag, ?_, rfl⟩
  intro bs h
  obtain ⟨k, m, hk, _, hsum⟩ := Extent.followedBy_eq_size h
  have := four_le_of_oidExtent hk
  omega

lemma measures_xVarBindAlloc (flag : UInt8) :
    Measures (xVarBindAlloc flag) (varBindExtent flag) := by
  refine ⟨spans_varBindAlloc flag, ?_, rfl⟩
  intro bs h
  rcases bs with _ | ⟨a, _ | ⟨b, rest⟩⟩
  · simp [varBindExtent] at h
  · simp [varBindExtent] at h
  · rw [varBindExtent] at h
    obtain ⟨k, m, hk, _, hsum⟩ := Extent.followedBy_eq_size h
    have := Extent.size.inj hk
    omega

/-! ### Datagrams -/

/-- What is subtracted behind the header. -/
def payloadSubtractions (xdg : AgentxDatagram) (bs : List UInt8) : List (UInt32 × Nat) :=
  if isSearchPdu xdg.pduHdr.type then
    loopSubtractions (searchRangeAlloc xdg.pduHdr.flags) (bs.length + 1) xdg.pduHdr.payloadLength bs
  else if isVarBindPdu xdg.pduHdr.type then
    loopSubtractions (xVarBindAlloc xdg.pduHdr.flags) (bs.length + 1) xdg.pduHdr.payloadLength bs
  else []

/-- What is subtracted from `payload_length` while a PDU is decoded, with the counter before. -/
def subtractions (buf : List UInt8) : List (UInt32 × Nat) :=
  match fixedHdrParse buf with
  | .ok (.ok (hdr, bs)) =>
    match contextParse (.clear hdr) bs with
    | .ok (.ok (xdg, bs')) => (hdr.payloadLength, contextSubtraction xdg) ::
      match additionalParse xdg bs' with
      | .ok (.ok (xdg', bs'')) =>
        (xdg.pduHdr.payloadLength, additionalSubtraction xdg.pduHdr.type) :: payloadSubtractions xdg' bs''
      | _ => []
    | _ => []
  | _ => []

/-- The decoder ends on a PDU without reading past it, with an error or with the counter at zero and
the announced payload consumed, and the counter never drops below zero. -/
def PayloadCounted (buf : List UInt8) : Prop :=
  Counted (agentxDatagramDecode buf) (fun xdg => xdg.pduHdr.payloadLength) (subtractions buf)
    (buf.drop (20 + announced buf))

/-- The elements behind the header, of which there are none in most PDUs. -/
def ElementsAddUp (type flags : UInt8) (bs : List UInt8) (n : Nat) : Prop :=
  if isSearchPdu type then AddsUp searchRangeExtent bs n
  else if isVarBindPdu type then AddsUp (varBindExtent flags) bs n
  else n = 0

/-- The context and the fields that belong to a type of PDU. -/
def optionsExtent (type flags : UInt8) (bs : List UInt8) : Extent :=
  (contextExtent flags bs).followedBy fun k => additionalExtent type (bs.drop k)

/-- The parts of a PDU add up to the payload that it announces, or one that starts before is refused. -/
def PayloadAddsUp (buf : List UInt8) : Prop :=
  20 ≤ buf.length ∧ (optionsExtent (buf.getD 1 0) (buf.getD 2 0) (buf.drop 20) = .refused ∨
    ∃ k ≤ announced buf, optionsExtent (buf.getD 1 0) (buf.getD 2 0) (buf.drop 20) = .size k ∧
      ElementsAddUp (buf.getD 1 0) (buf.getD 2 0) (buf.drop (20 + k)) (announced buf - k))

section Counted

variable {xdg xdg' : AgentxDatagram} {bs : List UInt8} {n : Nat}

lemma CountedDown.type (h : CountedDown xdg xdg' n) : xdg'.pduHdr.type = xdg.pduHdr.type := by
  rw [h]

lemma CountedDown.flags (h : CountedDown xdg xdg' n) : xdg'.pduHdr.flags = xdg.pduHdr.flags := by
  rw [h]

lemma CountedDown.toNat (h : CountedDown xdg xdg' n) (hle : n ≤ xdg.pduHdr.payloadLength.toNat) :
    xdg'.pduHdr.payloadLength.toNat = xdg.pduHdr.payloadLength.toNat - n := by
  rw [h]
  exact toNat_sub_ofNat hle

lemma additionalExtent_ne (type : UInt8) (bs : List UInt8) : additionalExtent type bs ≠ .refused := by
  rw [additionalExtent]
  split_ifs <;> simp only [Extent.ofLength, ne_eq, reduceCtorEq, not_false_eq_true]
  all_goals split_ifs <;> simp

/-- What follows the header takes the counter to zero where it adds up to it. -/
lemma payloadDecode_counted_iff (xdg : AgentxDatagram) (bs : List UInt8) :
    Counted (payloadDecode xdg bs) (fun xdg => xdg.pduHdr.payloadLength) (payloadSubtractions xdg bs)
        (bs.drop xdg.pduHdr.payloadLength.toNat) ↔
      ElementsAddUp xdg.pduHdr.type xdg.pduHdr.flags bs xdg.pduHdr.payloadLength.toNat := by
  rw [payloadDecode, payloadSubtractions, ElementsAddUp]
  split_ifs with hsearch hvb
  · rw [← loopCounted_iff (measures_searchRangeAlloc xdg.pduHdr.flags) (Nat.lt_succ_self _)]
    exact counted_map_iff
  · rw [← loopCounted_iff (measures_xVarBindAlloc xdg.pduHdr.flags) (Nat.lt_succ_self _)]
    exact counted_map_iff
  · rw [pure_apply, counted_ok_iff, ← UInt32.toNat_inj]
    constructor
    · exact fun h => h.1
    · intro h
      exact ⟨h, by rw [h, List.drop_zero]⟩

/-- Two subtractions are made in front of the elements. -/
lemma counted_options_iff {hdr : XPduHdr} {buf : List UInt8} {k m : Nat}
    (hdown : CountedDown (.clear hdr) xdg k) (hdown' : CountedDown xdg xdg' m) :
    (k ≤ hdr.payloadLength.toNat ∧ Counted (payloadDecode xdg' (buf.drop (20 + (k + m))))
        (fun xdg => xdg.pduHdr.payloadLength)
        ((xdg.pduHdr.payloadLength, m) :: payloadSubtractions xdg' (buf.drop (20 + (k + m))))
        (buf.drop (20 + hdr.payloadLength.toNat))) ↔
      k + m ≤ hdr.payloadLength.toNat ∧ ElementsAddUp hdr.type hdr.flags (buf.drop (20 + (k + m)))
        (hdr.payloadLength.toNat - (k + m)) := by
  rw [counted_cons_iff]
  by_cases hk : k ≤ hdr.payloadLength.toNat
  · have hxdg : xdg.pduHdr.payloadLength.toNat = hdr.payloadLength.toNat - k := hdown.toNat hk
    by_cases hle : k + m ≤ hdr.payloadLength.toNat
    · have hm : m ≤ xdg.pduHdr.payloadLength.toNat := by omega
      have hxdg' : xdg'.pduHdr.payloadLength.toNat = hdr.payloadLength.toNat - (k + m) := by
        rw [hdown'.toNat hm, hxdg, Nat.sub_sub]
      have htype : xdg'.pduHdr.type = hdr.type := hdown'.type.trans hdown.type
      have hflags : xdg'.pduHdr.flags = hdr.flags := hdown'.flags.trans hdown.flags
      have hiff := payloadDecode_counted_iff xdg' (buf.drop (20 + (k + m)))
      rw [htype, hflags, hxdg', List.drop_drop, Nat.add_assoc, Nat.add_sub_cancel' hle] at hiff
      exact ⟨fun h => ⟨hle, hiff.mp h.2.2⟩, fun h => ⟨hk, hm, hiff.mpr h.2⟩⟩
    · apply iff_of_false
      · rintro ⟨_, hm, _⟩
        omega
      · exact fun h => hle h.1
  · apply iff_of_false (fun h => hk h.1)
    intro h
    omega

end Counted

/-- The counter is met exactly where the parts of the payload add up to it. -/
theorem payloadCounted_iff (buf : List UInt8) : PayloadCounted buf ↔ PayloadAddsUp buf := by
  have hfixed := spans_fixedHdr buf
  rw [PayloadCounted, PayloadAddsUp, agentxDatagramDecode_eq]
  by_cases hlen : 20 ≤ buf.length
  · rw [Extent.ofLength, if_pos hlen] at hfixed
    obtain ⟨hdr, ⟨⟨htype, hflags, hann⟩, _⟩, hread⟩ := hfixed
    rw [bind_apply_ok hread, ← htype, ← hflags, ← hann]
    simp only [subtractions, hread, optionsExtent, hlen, true_and]
    have hcontext := spans_context (.clear hdr) (buf.drop 20)
    change Spans _ _ _ (contextExtent hdr.flags (buf.drop 20)) at hcontext
    cases hctx : contextExtent hdr.flags (buf.drop 20) with
    | missing =>
      rw [hctx] at hcontext
      rw [bind_apply_crash hcontext]
      apply iff_of_false not_counted_crash
      simp
    | refused =>
      rw [hctx] at hcontext
      obtain ⟨err, hcontext⟩ := hcontext
      simp only [bind_apply, hcontext]
      exact iff_of_true (counted_error err) (.inl rfl)
    | size k =>
      rw [hctx] at hcontext
      obtain ⟨xdg, ⟨hdown, hsub⟩, hcontext⟩ := hcontext
      have hadditional := spans_additional xdg ((buf.drop 20).drop k)
      rw [hdown.type] at hadditional
      change Spans _ _ _ (additionalExtent hdr.type _) at hadditional
      rw [bind_apply_ok hcontext]
      simp only [hcontext, hsub, counted_cons_iff, Extent.followedBy]
      cases hadd : additionalExtent hdr.type ((buf.drop 20).drop k) with
      | missing =>
        rw [hadd] at hadditional
        rw [bind_apply_crash hadditional]
        apply iff_of_false (fun h => not_counted_crash h.2)
        simp
      | refused => exact absurd hadd (additionalExtent_ne _ _)
      | size m =>
        rw [hadd] at hadditional
        obtain ⟨xdg', ⟨hdown', hsub'⟩, hadditional⟩ := hadditional
        rw [bind_apply_ok hadditional]
        simp only [hadditional]
        have hright : (Extent.size (k + m) = .refused ∨ ∃ k' ≤ hdr.payloadLength.toNat,
            Extent.size (k + m) = .size k' ∧ ElementsAddUp hdr.type hdr.flags (buf.drop (20 + k'))
              (hdr.payloadLength.toNat - k')) ↔
            k + m ≤ hdr.payloadLength.toNat ∧ ElementsAddUp hdr.type hdr.flags
              (buf.drop (20 + (k + m))) (hdr.payloadLength.toNat - (k + m)) := by
          simp
        rw [hright, List.drop_drop, List.drop_drop]
        rw [← hdown.type] at hsub'
        rw [hsub']
        exact counted_options_iff hdown hdown'
  · rw [Extent.ofLength, if_neg hlen] at hfixed
    rw [bind_apply_crash hfixed]
    exact iff_of_false not_counted_crash fun h => hlen h.1

/-- A Get that announces four bytes and has a search range of eight. -/
def shortGet : List UInt8 :=
  [1, 5, 0, 0] ++ [0, 0, 0, 0] ++ [0, 0, 0, 0] ++ [0, 0, 0, 0] ++ [4, 0, 0, 0] ++
    [0, 0, 0, 0] ++ [0, 0, 0, 0]

/-- The counter of a payload that ends inside of a search range drops below zero. -/
theorem shortGet_not_payloadCounted : ¬ ∀ buf, PayloadCounted buf := by
  intro h
  have hsub : ((4 : UInt32), 8) ∈ subtractions shortGet := by decide
  have hle : 8 ≤ 4 := (h shortGet).counted _ hsub
  omega

end SmartSnmp
