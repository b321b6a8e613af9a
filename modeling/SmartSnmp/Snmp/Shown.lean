import SmartSnmp.Snmp.Canonical
import SmartSnmp.Snmp.Stored

/-!
# What shows of an earlier value

A variable is encoded from the start of the union. Where nothing was stored for its varbind the encoder
reads what an earlier one has left: in the word of a number, or in the words of an OID. It is said here
when this cannot be told from a union that was cleared.
-/

namespace SmartSnmp

open Bytes

/-! ### Numbers -/

/-- The content of a number. -/
def numberEnc (tag : UInt8) (w : UInt32) : List UInt8 :=
  if tag = asn1TagInt ∨ tag = asn1TagCnt then berIntEnc w.toInt32 else berUintEnc w

lemma beNat_berUintEnc (w : UInt32) : beNat (berUintEnc w) = w.toNat := by
  rw [berUintEnc]
  split_ifs
  · rw [List.singleton_append, beNat_cons, beNat_bytesDown_trimIndex]
    simp
  · exact beNat_bytesDown_trimIndex w

/-- Different words have different contents. -/
lemma numberEnc_injective (tag : UInt8) : Function.Injective (numberEnc tag) := by
  intro v w h
  simp only [numberEnc] at h
  split_ifs at h
  · have hdec := congrArg berIntDec h
    rw [berIntDec_berIntEnc, berIntDec_berIntEnc] at hdec
    exact congrArg Int32.toUInt32 (Option.some.inj hdec)
  · have hnat := congrArg beNat h
    rw [beNat_berUintEnc, beNat_berUintEnc] at hnat
    exact UInt32.toNat_inj.mp hnat

/-- A number is encoded from the word in the union. -/
lemma berValueEnc_number {tag : UInt8} (h : wordTag tag = true) (len : Nat) (mem : List UInt8) :
    berValueEncTry mem len tag = some (numberEnc tag (wordAt mem)).length ∧
      berValueEnc mem len tag = some (numberEnc tag (wordAt mem)) := by
  rw [berValueEncTry, berValueEnc, numberEnc]
  by_cases hint : tag = asn1TagInt ∨ tag = asn1TagCnt
  · rw [if_pos hint, if_pos hint, if_pos hint, length_berIntEnc_eq_try]
    exact ⟨rfl, rfl⟩
  · have huint : tag = asn1TagGau ∨ tag = asn1TagTimeticks := by
      simp only [wordTag, Bool.or_eq_true, decide_eq_true_eq] at h
      tauto
    rw [if_neg hint, if_neg hint, if_neg hint, if_pos huint, if_pos huint, length_berUintEnc]
    exact ⟨rfl, rfl⟩

/-- The word at the start determines four bytes. -/
lemma wordAt_eq_iff {a b : List UInt8} (ha : 4 ≤ a.length) (hb : 4 ≤ b.length) :
    wordAt a = wordAt b ↔ a.take 4 = b.take 4 := by
  have hla : (a.take 4).length = 4 := List.length_take_of_le ha
  have hlb : (b.take 4).length = 4 := List.length_take_of_le hb
  have hlt : ∀ bs : List UInt8, bs.length = 4 → leNat bs < 2 ^ 32 := by
    intro bs hbs
    have := leNat_lt bs
    rwa [hbs] at this
  constructor
  · intro h
    have hnat : leNat (a.take 4) = leNat (b.take 4) := by
      have hword := congrArg UInt32.toNat h
      simpa only [wordAt, UInt32.toNat_ofNat', Nat.mod_eq_of_lt (hlt _ hla),
        Nat.mod_eq_of_lt (hlt _ hlb)] using hword
    rw [← leBytes_leNat (a.take 4), ← leBytes_leNat (b.take 4), hla, hlb, hnat]
  · intro h
    rw [wordAt, wordAt, h]

/-! ### OIDs -/

/-- The encoder, whose counters have eight bits, does not get to the end of the OID or of its varbind. -/
def TooLong (ids : Oid) : Prop := 256 ≤ ids.length ∨ 256 ≤ (berOidEnc ids).length

/-- Two OIDs of two elements or more cannot be told apart from their contents: the first two elements
share a byte. -/
def SameContent (ids ids' : Oid) : Prop :=
  (TooLong ids ∧ TooLong ids') ∨
    ((ids.getD 0 0 * 40 + ids.getD 1 0).toUInt8 = (ids'.getD 0 0 * 40 + ids'.getD 1 0).toUInt8 ∧
      ids.drop 2 = ids'.drop 2)

/-- The content of an OID that is encoded to the end of a varbind. -/
def oidContent (ids : Oid) : Option (List UInt8) :=
  (berOidEncTry ids).bind fun valLen =>
    (some (berOidEnc ids)).filter fun value => value.length ≤ varBindTail + valLen

lemma oidContent_of_tooLong {ids : Oid} (h : TooLong ids) : oidContent ids = none := by
  rw [oidContent, berOidEncTry_eq_mod]
  split_ifs with hlen
  · rcases h with h | h
    · omega
    · rw [Option.bind_some, Option.filter_some, if_neg]
      rw [decide_eq_true_iff, varBindTail]
      omega
  · rfl

lemma oidContent_of_not_tooLong {ids : Oid} (h : ¬ TooLong ids) : oidContent ids = some (berOidEnc ids) := by
  rw [TooLong, not_or, not_le, not_le] at h
  rw [oidContent, berOidEncTry_eq_mod, if_pos h.1, Option.bind_some, Option.filter_some, if_pos]
  rw [decide_eq_true_iff, varBindTail]
  omega

lemma oidContent_singleton (b : UInt8) (bs : List UInt8) :
    oidContent [UInt32.ofNat (leNat ((b :: bs).take 4))] = some [b] := by
  have hlow : (UInt32.ofNat (leNat ((b :: bs).take 4))).toUInt8 = b := by
    apply UInt8.toNat_inj.mp
    have hb := b.toNat_lt
    rw [List.take_succ_cons, leNat, UInt32.toNat_toUInt8, UInt32.toNat_ofNat']
    omega
  rw [oidContent_of_not_tooLong (by simp [TooLong, berOidEnc]), berOidEnc, hlow]

lemma berOidEnc_eq_berOidEnc_iff {ids ids' : Oid} (h : 2 ≤ ids.length) (h' : 2 ≤ ids'.length) :
    berOidEnc ids = berOidEnc ids' ↔
      (ids.getD 0 0 * 40 + ids.getD 1 0).toUInt8 = (ids'.getD 0 0 * 40 + ids'.getD 1 0).toUInt8 ∧
        ids.drop 2 = ids'.drop 2 := by
  obtain ⟨a, b, ids, rfl⟩ : ∃ a b t, ids = a :: b :: t := by
    match ids, h with
    | a :: b :: t, _ => exact ⟨a, b, t, rfl⟩
  obtain ⟨a', b', ids', rfl⟩ : ∃ a b t, ids' = a :: b :: t := by
    match ids', h' with
    | a :: b :: t, _ => exact ⟨a, b, t, rfl⟩
  have hflat : ids.flatMap subIdEnc = ids'.flatMap subIdEnc ↔ ids = ids' := by
    refine ⟨fun heq => ?_, fun heq => by rw [heq]⟩
    rw [← (isOidTail_flatMap ids).berOidDecLoop, heq, (isOidTail_flatMap ids').berOidDecLoop]
  rw [berOidEnc, berOidEnc, List.cons.injEq, hflat]
  rfl

lemma sameContent_iff {ids ids' : Oid} (htwo : 2 ≤ ids.length) (hlen : ids'.length = ids.length) :
    SameContent ids ids' ↔ oidContent ids = oidContent ids' := by
  have henc := berOidEnc_eq_berOidEnc_iff htwo (hlen ▸ htwo)
  rw [SameContent, ← henc]
  by_cases h : TooLong ids
  · by_cases h' : TooLong ids'
    · simp [h, h', oidContent_of_tooLong]
    · rw [oidContent_of_tooLong h, oidContent_of_not_tooLong h']
      simp only [h', and_false, false_or, reduceCtorEq, iff_false]
      intro heq
      exact h' (by rwa [TooLong, hlen, ← heq])
  · by_cases h' : TooLong ids'
    · rw [oidContent_of_tooLong h', oidContent_of_not_tooLong h]
      simp only [h, false_and, false_or, reduceCtorEq, iff_false]
      intro heq
      exact h (by rwa [TooLong, ← hlen, heq])
    · rw [oidContent_of_not_tooLong h, oidContent_of_not_tooLong h', Option.some_inj]
      simp [h]

/-! ### Variables -/

namespace Variable

/-- What the union held in these places does not show when the variable is encoded: it is zero in the
word of a number, and with what was stored it gives the content of an OID that zeros give. -/
structure Unshown (o : Variable) (mem : List UInt8) : Prop where
  number : wordTag o.tag = true → ∀ i, o.value.length ≤ i → i < 4 → mem[i]? = some 0
  oid : o.tag = asn1TagObjid → 2 ≤ o.len → ∀ ids ids', oidAt (o.over mem).value o.len = some ids →
    oidAt (o.over zero.value).value o.len = some ids' → SameContent ids ids'

/-- The encoder gets to the end. -/
def Encodable (o : Variable) (mem : List UInt8) : Prop :=
  o.tag = asn1TagObjid → ∃ ids, oidAt (o.over mem).value o.len = some ids ∧ ¬ TooLong ids

/-- The content of the varbind for a variable. -/
def content (var : Variable) : Option (List UInt8) :=
  (berValueEncTry var.value var.len var.tag).bind fun valLen => encodeValue var valLen var.len

lemma content_number {var : Variable} (h : wordTag var.tag = true) :
    var.content = some (numberEnc var.tag (wordAt var.value)) := by
  obtain ⟨htry, henc⟩ := berValueEnc_number h var.len var.value
  rw [content, htry, Option.bind_some, encodeValue, henc, Option.filter_some,
    if_pos (decide_eq_true (Nat.le_add_left _ _))]

lemma content_objid {var : Variable} (h : var.tag = asn1TagObjid) :
    var.content = (oidAt var.value var.len).bind oidContent := by
  rw [content, h, berValueEncTry_objid]
  cases hids : oidAt var.value var.len with
  | none => rfl
  | some ids => simp only [Option.bind_some, encodeValue, h, berValueEnc_objid, hids, Option.map_some, oidContent]

lemma Alike.content {a b : Variable} (h : a.Alike b) (hs : a.Solid b) : a.content = b.content := by
  obtain ⟨htry, henc⟩ := h.encoded hs
  rw [Variable.content, Variable.content, htry]
  refine congrArg _ (funext fun valLen => ?_)
  rw [encodeValue, encodeValue, henc]

section Over

variable {o : Variable} {mem mem' : List UInt8}

lemma getElem?_over (o : Variable) (mem : List UInt8) (i : Nat) :
    (o.over mem).value[i]? = if i < o.value.length then o.value[i]? else mem[i]? := by
  rw [Variable.over, List.getElem?_append]
  split_ifs
  · rfl
  · rw [List.getElem?_drop]
    congr 1
    omega

variable (ho : o.Fits) (hmem : mem.length = mibValueMaxLen) (hmem' : mem'.length = mibValueMaxLen)

include ho hmem in
lemma whole_over : (o.over mem).Whole := by
  have := ho.size
  rw [Whole, Variable.over, List.length_append, List.length_drop, hmem]
  omega

include ho hmem hmem'

lemma over_alike : (o.over mem).Alike (o.over mem') where
  tag := rfl
  len := rfl
  left := whole_over ho hmem
  right := whole_over ho hmem'
  elems := by
    have htake : ∀ bs : List UInt8, (o.value ++ bs).take o.len = o.value.take o.len :=
      fun bs => List.take_append_of_le_length ho.len
    exact (htake _).trans (htake _).symm

lemma wordAt_over : wordAt (o.over mem).value = wordAt (o.over mem').value ↔
    ∀ i, o.value.length ≤ i → i < 4 → mem[i]? = mem'[i]? := by
  have hsize : 4 ≤ (o.over mem).value.length := (whole_over ho hmem).symm ▸ by decide
  have hsize' : 4 ≤ (o.over mem').value.length := (whole_over ho hmem').symm ▸ by decide
  rw [wordAt_eq_iff hsize hsize']
  constructor
  · intro h i hle hi
    have hget := congrArg (fun bs : List UInt8 => bs[i]?) h
    simpa [List.getElem?_take, hi, getElem?_over, not_lt.mpr hle] using hget
  · intro h
    refine List.ext_getElem? fun i => ?_
    simp only [List.getElem?_take, getElem?_over]
    split_ifs with hi hlt
    · rfl
    · exact h i (not_lt.mp hlt) hi
    · rfl

omit hmem hmem' in
/-- The content of one element is its first byte, which is stored. -/
lemma oidContent_over (hlen : o.len < 2) {ids ids' : Oid} (h : oidAt (o.over mem).value o.len = some ids)
    (h' : oidAt (o.over mem').value o.len = some ids') : oidContent ids = oidContent ids' := by
  have hnil : ∀ bs ids, oidAt bs 0 = some ids → ids = [] := by
    intro bs ids hat
    exact List.eq_nil_of_length_eq_zero (length_oidAt hat)
  have hfit := ho.len
  match hk : o.len, hlen with
  | 0, _ =>
    rw [hk] at h h'
    rw [hnil _ _ h, hnil _ _ h']
  | 1, _ =>
    rw [hk] at h h' hfit
    obtain ⟨b, bs, hvalue⟩ := List.exists_cons_of_length_pos hfit
    have hbyte : ∀ mem ids, oidAt (o.over mem).value 1 = some ids → oidContent ids = some [b] := by
      intro mem ids hat
      rw [Variable.over, hvalue, List.cons_append] at hat
      rw [oidAt] at hat
      split_ifs at hat
      obtain rfl := Option.some.inj hat
      exact oidContent_singleton b _
    rw [hbyte mem ids h, hbyte mem' ids' h']

/-- The content is the same as in a union that was cleared, exactly if nothing shows. -/
lemma content_over_iff (hzero : mem' = zero.value) :
    (o.over mem).content = (o.over mem').content ↔ o.Unshown mem := by
  have halike := over_alike ho hmem hmem'
  by_cases hword : wordTag o.tag = true
  · have hobj : o.tag ≠ asn1TagObjid := by
      intro h
      rw [h] at hword
      cases hword
    have hnum : ∀ m, (o.over m).content = some (numberEnc o.tag (wordAt (o.over m).value)) :=
      fun m => content_number hword
    have hget : ∀ i < 4, mem'[i]? = some 0 := by
      intro i hi
      rw [hzero, zero, List.getElem?_replicate, if_pos (lt_trans hi (by decide))]
    rw [hnum, hnum, Option.some_inj, (numberEnc_injective o.tag).eq_iff, wordAt_over ho hmem hmem']
    constructor
    · intro h
      exact ⟨fun _ i hle hi => (h i hle hi).trans (hget i hi), fun hid => absurd hid hobj⟩
    · intro h i hle hi
      exact (h.number hword i hle hi).trans (hget i hi).symm
  · by_cases hobj : o.tag = asn1TagObjid
    · have hoid : ∀ m, (o.over m).content = (oidAt (o.over m).value o.len).bind oidContent :=
        fun m => content_objid hobj
      have hsome : (oidAt (o.over mem).value o.len).isSome = (oidAt (o.over mem').value o.len).isSome := by
        rw [oidAt, oidAt, halike.size]
        split_ifs <;> rfl
      rw [hoid, hoid]
      cases hids : oidAt (o.over mem).value o.len with
      | none =>
        rw [hids] at hsome
        have hids' : oidAt (o.over mem').value o.len = none := Option.isNone_iff_eq_none.mp (by simpa using hsome.symm)
        rw [hids']
        refine iff_of_true rfl ⟨fun h => absurd h hword, fun _ _ ids ids' h => ?_⟩
        rw [hids] at h
        cases h
      | some ids =>
        rw [hids] at hsome
        obtain ⟨ids', hids'⟩ := Option.isSome_iff_exists.mp hsome.symm
        rw [hids', Option.bind_some, Option.bind_some]
        by_cases htwo : 2 ≤ o.len
        · have hlen : ids.length = o.len := length_oidAt hids
          have hlen' : ids'.length = o.len := length_oidAt hids'
          rw [← sameContent_iff (hlen.symm ▸ htwo) (hlen'.trans hlen.symm)]
          constructor
          · refine fun h => ⟨fun h => absurd h hword, fun _ _ is is' his his' => ?_⟩
            obtain rfl := Option.some.inj (hids.symm.trans his)
            obtain rfl := Option.some.inj (hids'.symm.trans (hzero ▸ his'))
            exact h
          · exact fun h => h.oid hobj htwo ids ids' hids (hzero ▸ hids')
        · exact iff_of_true (oidContent_over ho (not_le.mp htwo) hids hids')
            ⟨fun h => absurd h hword, fun _ h => absurd h htwo⟩
    · have hsolid : (o.over mem).Solid (o.over mem') := by
        have hfalse : wordTag o.tag = false := by simpa using hword
        exact halike.solid hfalse hobj
      exact iff_of_true (halike.content hsolid) ⟨fun h => absurd h hword, fun h => absurd h hobj⟩

omit hmem hmem' in
lemma content_over_ne_none_iff : (o.over mem).content ≠ none ↔ o.Encodable mem := by
  by_cases hobj : o.tag = asn1TagObjid
  · have hoid : (o.over mem).content = (oidAt (o.over mem).value o.len).bind oidContent :=
      content_objid hobj
    rw [hoid, Encodable, ne_eq, Option.bind_eq_none_iff]
    simp only [hobj, true_imp_iff, not_forall]
    refine exists_congr fun ids => ?_
    by_cases hlong : TooLong ids
    · simp [hlong, oidContent_of_tooLong]
    · simp [hlong, oidContent_of_not_tooLong]
  · refine iff_of_true ?_ fun h => absurd h hobj
    by_cases hword : wordTag o.tag = true
    · have hnum : (o.over mem).content = some _ := content_number hword
      rw [hnum]
      exact Option.some_ne_none _
    · have hint : ¬ (o.tag = asn1TagInt ∨ o.tag = asn1TagCnt) := by
        rintro (h | h) <;> exact hword (by rw [h]; rfl)
      have huint : ¬ (o.tag = asn1TagGau ∨ o.tag = asn1TagTimeticks) := by
        rintro (h | h) <;> exact hword (by rw [h]; rfl)
      have hlen : o.len ≤ (o.over mem).value.length := by
        have hfit := ho.len
        rw [Variable.over, List.length_append]
        omega
      have htag : (o.over mem).tag = o.tag := rfl
      have hcount : (o.over mem).len = o.len := rfl
      simp only [content, encodeValue, berValueEncTry, berValueEnc, htag, hcount, if_neg hint,
        if_neg huint, if_neg hobj, if_pos hlen]
      split_ifs
      · simp [varBindTail]
      · simp

end Over

end Variable

/-! ### Varbinds -/

/-- The varbind that is sent for what one leaves in a union that held `mem`. -/
def sent (r : Variable × Oid) (mem : List UInt8) : Option VarBind :=
  (r.1.over mem).content.bind fun value => responseVarBind r.2 r.1.tag value

lemma getVarBind_eq_sent {req : MibReq} {mem : List UInt8} {res : OidSearchRes} {r : Variable × Oid}
    (h : LeftAs req mem res r) : getVarBind res = sent r mem := by
  rw [getVarBind, sent, Variable.content, Option.bind_assoc, h.var, h.oid]
  rfl

lemma berOidEncTry_ne_none {oid : Oid} (h : oid.length ≤ mibOidMaxLen) : berOidEncTry oid ≠ none := by
  have hlt : oid.length < 256 := by
    rw [mibOidMaxLen] at h
    omega
  rw [berOidEncTry]
  split_ifs <;> simp

section Sent

variable {r : Variable × Oid} (hr : Sendable r) {mem : List UInt8} (hmem : mem.length = mibValueMaxLen)

include hr

lemma exists_sent_eq : ∃ oidLen, ∀ mem, sent r mem = (r.1.over mem).content.map fun value =>
    ⟨r.2, responseVbLen oidLen value.length, r.1.tag, value⟩ := by
  obtain ⟨oidLen, hlen⟩ := Option.ne_none_iff_exists'.mp (berOidEncTry_ne_none hr.oid)
  refine ⟨oidLen, fun mem => ?_⟩
  rw [sent]
  cases (r.1.over mem).content with
  | none => rfl
  | some value => rw [Option.bind_some, responseVarBind, hlen, Option.map_some, Option.map_some]

lemma sent_ne_none_iff : sent r mem ≠ none ↔ r.1.Encodable mem := by
  obtain ⟨oidLen, hsent⟩ := exists_sent_eq hr
  rw [hsent, ne_eq, Option.map_eq_none_iff]
  exact Variable.content_over_ne_none_iff hr.fits

include hmem in
/-- What is sent does not tell what the union held, exactly if nothing shows. -/
lemma sent_eq_iff : sent r mem = sent r Variable.zero.value ↔ r.1.Unshown mem := by
  obtain ⟨oidLen, hsent⟩ := exists_sent_eq hr
  rw [hsent, hsent, ← Variable.content_over_iff hr.fits hmem List.length_replicate rfl]
  refine (Option.map_injective ?_).eq_iff
  intro value value' h
  exact congrArg VarBind.value h

end Sent

end SmartSnmp
