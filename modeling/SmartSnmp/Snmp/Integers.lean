import SmartSnmp.Snmp.Memory

/-!
# The integers of a message as a peer reads them

A peer walks over the fields of a response to the error status and the error index. What it reads of an
integer is the number that its content spells, with as many bytes as were announced; where these are not
the bytes that were written, it reads another number or finds another tag.
-/

namespace SmartSnmp

open Bytes Reader

/-! ### Readers -/

/-- An integer, of any size. -/
def wideInt : Reader SnmpErrCode Int := do
  let len ← header asn1TagInt .pduType
  let content ← bytes len
  failIf (content = []) .pduLen
  pure (beInt content)

/-- A string, of which nothing is kept. -/
def skipString : Reader SnmpErrCode Unit := do
  let len ← header asn1TagOctstr .pduType
  let _ ← bytes len
  pure ()

/-- The integers between the version and the context name from version 3 on. -/
def v3Integers : Reader SnmpErrCode (List Int) := do
  let _ ← header asn1TagSeq .pduType
  let msgId ← wideInt
  let msgMaxSize ← wideInt
  skipString
  let msgSecurityModel ← wideInt
  let _ ← header asn1TagOctstr .pduType
  let _ ← header asn1TagSeq .pduType
  skipString
  let engineBoots ← wideInt
  let engineTime ← wideInt
  skipString
  skipString
  skipString
  let _ ← header asn1TagSeq .pduType
  skipString
  pure [msgId, msgMaxSize, msgSecurityModel, engineBoots, engineTime]

/-- The integers that a version has between its number and the context name. -/
def headerIntegers (version : Int) : Reader SnmpErrCode (List Int) :=
  if 3 ≤ version then v3Integers else pure []

/-- The context name and the integers of a PDU of a type. -/
def pduIntegers (pduType : UInt8) : Reader SnmpErrCode (List Int) := do
  skipString
  let _ ← header pduType .pduType
  let reqId ← wideInt
  let errStat ← wideInt
  let errIdx ← wideInt
  pure [reqId, errStat, errIdx]

/-- The integers of a message: its version, those of the header of version 3, and those of the PDU. -/
def messageIntegers (pduType : UInt8) : Reader SnmpErrCode (Int × List Int × List Int) := do
  let _ ← header asn1TagSeq .pduType
  let version ← wideInt
  let v3 ← headerIntegers version
  let pdu ← pduIntegers pduType
  pure (version, v3, pdu)

/-- The integers of the datagram that a response is made of. -/
def SnmpDatagram.integers (sdg : SnmpDatagram) : Int × List Int × List Int :=
  (sdg.version.toInt,
    if 3 ≤ sdg.version then [sdg.msgId.toInt, sdg.msgMaxSize.toInt, sdg.msgSecurityModel.toInt,
      sdg.engineBoots.toInt, sdg.engineTime.toInt] else [],
    [sdg.pduHdr.reqId.toInt, sdg.pduHdr.errStat.toInt, sdg.pduHdr.errIdx.toInt])

/-! ### Fields -/

section Fields

variable {tag : UInt8} {len : Nat} {tail rest : List UInt8}

lemma header_headerEnc (err : SnmpErrCode) (hlen : len < 2 ^ 32) (tail : List UInt8) :
    header tag err (headerEnc tag len ++ tail) = .ok (.ok (len, tail)) := by
  have hlength := isLength_berLengthEnc (UInt32.ofNat len)
  rw [UInt32.toNat_ofNat', Nat.mod_eq_of_lt hlen] at hlength
  have h : Parses (header tag err) ([tag] ++ berLengthEnc (UInt32.ofNat len)) len :=
    (parses_expectTag err tag).bind ((parses_berLengthDec hlength hlen).bind_nil (parses_pure len))
  exact h tail

lemma skipString_strFieldEnc {value : List UInt8} (hlen : value.length < 2 ^ 32)
    (tail : List UInt8) : skipString (strFieldEnc value ++ tail) = .ok (.ok ((), tail)) := by
  rw [skipString, strFieldEnc, List.append_assoc, bind_apply_ok (header_headerEnc .pduType hlen _),
    bind_apply_ok (bytes_append rfl tail)]
  rfl

/-- What stands behind an integer does not begin like more bytes of it. -/
def TagAhead (tail : List UInt8) : Prop := ∀ b rest, tail = b :: rest → b ≠ 0 ∧ b ≠ 0xff

lemma tagAhead_headerEnc (htag : tag ≠ 0 ∧ tag ≠ 0xff) (len : Nat) (tail : List UInt8) :
    TagAhead (headerEnc tag len ++ tail) := by
  rintro b rest h
  obtain ⟨rfl, -⟩ := List.cons.inj h
  exact htag

lemma tagAhead_intFieldEnc (len : Nat) (value : Int32) (tail : List UInt8) :
    TagAhead (intFieldEnc len value ++ tail) := by
  rw [intFieldEnc, List.append_assoc]
  exact tagAhead_headerEnc (by decide) len _

lemma tagAhead_strFieldEnc (value tail : List UInt8) : TagAhead (strFieldEnc value ++ tail) := by
  rw [strFieldEnc, List.append_assoc]
  exact tagAhead_headerEnc (by decide) _ _

/-- An integer is read as it was written, with what stands behind it, if and only if its length was
stored for it. -/
lemma wideInt_intFieldEnc_iff {value : Int32} (hlen : len < 2 ^ 32) (htail : TagAhead tail) :
    wideInt (intFieldEnc len value ++ tail) = .ok (.ok (value.toInt, rest)) ↔
      len = (berIntEnc value).length ∧ tail = rest := by
  obtain ⟨hpos, -, hval⟩ := berIntEnc_spec value
  have hshort := shortest_berIntEnc value
  have hread : ∀ content, content ≠ [] → ∀ rest', (do
      failIf (content = []) SnmpErrCode.pduLen
      pure (beInt content) : Reader SnmpErrCode Int) rest' = .ok (.ok (beInt content, rest')) := by
    intro content hne rest'
    simp [failIf, hne, bind_apply]
  rw [wideInt, intFieldEnc, List.append_assoc, bind_apply_ok (header_headerEnc .pduType hlen _)]
  constructor
  · intro h
    obtain ⟨content, mid, hbytes, h⟩ := bind_eq_ok h
    obtain ⟨hne, h⟩ := failIf_bind_eq_ok h
    obtain ⟨hint, rfl⟩ : beInt content = value.toInt ∧ mid = rest := by simpa using h
    rw [bytes] at hbytes
    split_ifs at hbytes with hle
    obtain ⟨rfl, rfl⟩ : (berIntEnc value ++ tail).take len = content ∧
      (berIntEnc value ++ tail).drop len = mid := by simpa using hbytes
    have hge := hshort.2 _ hne (hint.trans hval.symm)
    rw [List.length_take_of_le hle] at hge
    rcases hge.eq_or_lt with heq | hlt
    · exact ⟨heq.symm, by rw [← heq, List.drop_left]⟩
    · -- the content goes on into what stands behind
      exfalso
      rw [List.take_append, List.take_of_length_le hge] at hint
      rw [List.length_append] at hle
      obtain ⟨b, tail', rfl⟩ : ∃ b tail', tail = b :: tail' :=
        List.exists_cons_of_length_pos (by omega)
      obtain ⟨k, hk⟩ : ∃ k, len - (berIntEnc value).length = k + 1 :=
        ⟨len - (berIntEnc value).length - 1, by omega⟩
      obtain ⟨h0, hff⟩ := htail b tail' rfl
      rw [hk, List.take_succ_cons] at hint
      exact beInt_append_ne hshort.1 h0 hff _ (hint.trans hval.symm)
  · rintro ⟨rfl, rfl⟩
    rw [bind_apply_ok (bytes_append rfl tail), hread _ hshort.1, hval]

/-- The same, in front of a reader that keeps the number in what it returns. -/
lemma wideInt_bind_iff {α : Type} {f : Int → Reader SnmpErrCode α} {a : α} {value : Int32}
    (hlen : len < 2 ^ 32) (htail : TagAhead tail) (hkeeps : ∀ x, Yields (f x) a → x = value.toInt) :
    (wideInt >>= f) (intFieldEnc len value ++ tail) = .ok (.ok (a, rest)) ↔
      len = (berIntEnc value).length ∧ f value.toInt tail = .ok (.ok (a, rest)) := by
  simp only [bind_eq_ok_iff hkeeps, wideInt_intFieldEnc_iff hlen htail]
  constructor
  · rintro ⟨mid, ⟨hlength, rfl⟩, h⟩
    exact ⟨hlength, h⟩
  · rintro ⟨hlength, h⟩
    exact ⟨tail, ⟨hlength, rfl⟩, h⟩

end Fields

/-! ### Messages -/

/-- The lengths that a datagram stores have 32 bits, and its strings are as short. -/
structure SnmpDatagram.Stored (sdg : SnmpDatagram) : Prop where
  lens : sdg.storedLens < 2 ^ 32
  msgFlags : sdg.msgFlags.length < 2 ^ 32
  userName : sdg.userName.length < 2 ^ 32
  authPara : sdg.authPara.length < 2 ^ 32
  privPara : sdg.privPara.length < 2 ^ 32
  contextName : sdg.contextName.length < 2 ^ 32

section Message

variable {sdg : SnmpDatagram} (h : sdg.Stored) {tail rest vbs : List UInt8}

include h

/-- The integers of the PDU. -/
lemma pduIntegers_iff {pduType : UInt8} {pduLen : Nat} (hlen : pduLen < 2 ^ 32)
    (htail : TagAhead tail) :
    pduIntegers pduType (strFieldEnc sdg.contextName ++ (headerEnc pduType pduLen ++
      (intFieldEnc sdg.pduHdr.reqIdLen sdg.pduHdr.reqId ++
        (intFieldEnc sdg.pduHdr.errStatLen sdg.pduHdr.errStat ++
          (intFieldEnc sdg.pduHdr.errIdxLen sdg.pduHdr.errIdx ++ tail))))) =
      .ok (.ok (sdg.integers.2.2, rest)) ↔
    (sdg.pduHdr.reqIdLen = (berIntEnc sdg.pduHdr.reqId).length ∧
      sdg.pduHdr.errStatLen = (berIntEnc sdg.pduHdr.errStat).length ∧
      sdg.pduHdr.errIdxLen = (berIntEnc sdg.pduHdr.errIdx).length) ∧ tail = rest := by
  have hlens := h.lens
  rw [SnmpDatagram.storedLens] at hlens
  rw [pduIntegers, bind_apply_ok (skipString_strFieldEnc h.contextName _),
    bind_apply_ok (header_headerEnc .pduType hlen _),
    wideInt_bind_iff (by omega) (tagAhead_intFieldEnc _ _ _),
    wideInt_bind_iff (by omega) (tagAhead_intFieldEnc _ _ _), wideInt_bind_iff (by omega) htail]
  · simp [SnmpDatagram.integers, and_assoc]
  all_goals
    intro x hx
    repeat obtain ⟨_, _, hx⟩ := hx.of_bind
    have := hx.of_pure
    simp_all [SnmpDatagram.integers]

/-- The integers of the header of version 3, in front of the context name. -/
lemma v3Integers_iff (h3 : 3 ≤ sdg.version) {scopeLen : Nat} (hscope : scopeLen < 2 ^ 32) :
    v3Integers ((headerEnc asn1TagSeq (globalDataEncodeTry sdg) ++ globalContent sdg) ++
      ((headerEnc asn1TagOctstr (tlvLen (securityParameterEncodeTry sdg)) ++
        (headerEnc asn1TagSeq (securityParameterEncodeTry sdg) ++ securityContent sdg)) ++
      (headerEnc asn1TagSeq scopeLen ++ (strFieldEnc snmpv3EngineId ++ tail)))) =
      .ok (.ok (sdg.integers.2.1, rest)) ↔
    (sdg.msgIdLen = (berIntEnc sdg.msgId).length ∧
      sdg.msgSizeLen = (berIntEnc sdg.msgMaxSize).length ∧
      sdg.msgModelLen = (berIntEnc sdg.msgSecurityModel).length ∧
      sdg.engineBootsLen = (berIntEnc sdg.engineBoots).length ∧
      sdg.engineTimeLen = (berIntEnc sdg.engineTime).length) ∧ tail = rest := by
  have hlens := h.lens
  rw [SnmpDatagram.storedLens, if_pos h3] at hlens
  have hglobal : globalDataEncodeTry sdg < 2 ^ 32 := Nat.mod_lt _ (by norm_num)
  have hsecurity : securityParameterEncodeTry sdg < 2 ^ 32 := Nat.mod_lt _ (by norm_num)
  have hstr : tlvLen (securityParameterEncodeTry sdg) < 2 ^ 32 := Nat.mod_lt _ (by norm_num)
  have hflags : (clearFlags sdg.msgFlags).length < 2 ^ 32 := by
    have hlength : (clearFlags sdg.msgFlags).length = sdg.msgFlags.length := by
      cases sdg.msgFlags <;> rfl
    exact hlength ▸ h.msgFlags
  simp only [globalContent, securityContent, List.append_assoc]
  rw [v3Integers, bind_apply_ok (header_headerEnc .pduType hglobal _),
    wideInt_bind_iff (by omega) (tagAhead_intFieldEnc _ _ _),
    wideInt_bind_iff (by omega) (tagAhead_strFieldEnc _ _),
    bind_apply_ok (skipString_strFieldEnc hflags _),
    wideInt_bind_iff (by omega) (tagAhead_headerEnc (by decide) _ _),
    bind_apply_ok (header_headerEnc .pduType hstr _),
    bind_apply_ok (header_headerEnc .pduType hsecurity _),
    bind_apply_ok (skipString_strFieldEnc (by decide) _),
    wideInt_bind_iff (by omega) (tagAhead_intFieldEnc _ _ _),
    wideInt_bind_iff (by omega) (tagAhead_strFieldEnc _ _),
    bind_apply_ok (skipString_strFieldEnc h.userName _),
    bind_apply_ok (skipString_strFieldEnc h.authPara _),
    bind_apply_ok (skipString_strFieldEnc h.privPara _),
    bind_apply_ok (header_headerEnc .pduType hscope _),
    bind_apply_ok (skipString_strFieldEnc (by decide) _)]
  · simp [SnmpDatagram.integers, h3, and_assoc]
  all_goals
    intro x hx
    repeat obtain ⟨_, _, hx⟩ := hx.of_bind
    have := hx.of_pure
    simp_all [SnmpDatagram.integers]

/-- The PDU, which is what a message ends with. -/
lemma pduIntegers_pure_iff (version : Int) (v3 : List Int) :
    (pduIntegers sdg.pduHdr.pduType >>= fun pdu => pure (version, v3, pdu)) (scopeContent sdg vbs) =
      .ok (.ok ((version, v3, sdg.integers.2.2), rest)) ↔
    (sdg.pduHdr.reqIdLen = (berIntEnc sdg.pduHdr.reqId).length ∧
      sdg.pduHdr.errStatLen = (berIntEnc sdg.pduHdr.errStat).length ∧
      sdg.pduHdr.errIdxLen = (berIntEnc sdg.pduHdr.errIdx).length) ∧
      headerEnc asn1TagSeq sdg.vbListLen ++ vbs = rest := by
  have hpdu : pduEncodeTry sdg < 2 ^ 32 := Nat.mod_lt _ (by norm_num)
  have hseq : asn1TagSeq ≠ 0 ∧ asn1TagSeq ≠ 0xff := by decide
  rw [bind_eq_ok_iff (a := sdg.integers.2.2) fun x hx => (by simpa using hx.of_pure), scopeContent,
    pduContent]
  simp only [pduIntegers_iff h hpdu (tagAhead_headerEnc hseq _ _)]
  constructor
  · rintro ⟨mid, ⟨hlens, rfl⟩, hmid⟩
    exact ⟨hlens, by simpa using hmid⟩
  · rintro ⟨hlens, rfl⟩
    exact ⟨_, ⟨hlens, rfl⟩, rfl⟩

/-- A peer reads from what `asn1_encode` writes the integers of the datagram if and only if their lengths
are those that are stored. -/
lemma messageIntegers_iff : (∃ rest, messageIntegers sdg.pduHdr.pduType
      (asn1Encode (asn1Lengths sdg) ++ vbs) = .ok (.ok (sdg.integers, rest))) ↔
    LengthsInSync sdg := by
  have hlens := h.lens
  rw [SnmpDatagram.storedLens] at hlens
  have hdata : (asn1Lengths sdg).dataLen < 2 ^ 32 := by
    simp only [asn1Lengths]
    split_ifs <;> exact Nat.mod_lt _ (by norm_num)
  have hversion : (3 : Int) ≤ sdg.version.toInt ↔ 3 ≤ sdg.version := by
    rw [Int32.le_iff_toInt_le]
    rfl
  have hkeeps : ∀ x : Int, Yields (do
      let v3 ← headerIntegers x
      let pdu ← pduIntegers sdg.pduHdr.pduType
      pure (x, v3, pdu) : Reader SnmpErrCode _) sdg.integers → x = sdg.version.toInt := by
    intro x hx
    repeat obtain ⟨_, _, hx⟩ := hx.of_bind
    exact congrArg Prod.fst hx.of_pure
  rw [asn1Encode_append, messageIntegers, bind_apply_ok (header_headerEnc .pduType hdata _), dataContent]
  by_cases h3 : 3 ≤ sdg.version
  · have hscope : (asn1Lengths sdg).scopeLen < 2 ^ 32 := by
      simp only [asn1Lengths, if_pos h3]
      exact Nat.mod_lt _ (by norm_num)
    rw [if_pos h3]
    have htail : TagAhead (v3Content sdg vbs) := by
      simp only [v3Content, List.append_assoc]
      exact tagAhead_headerEnc (by decide) _ _
    have hheader : headerIntegers sdg.version.toInt = v3Integers := if_pos (hversion.mpr h3)
    have hkeeps' : ∀ x, Yields (pduIntegers sdg.pduHdr.pduType >>= fun pdu =>
        pure (sdg.version.toInt, x, pdu) : Reader SnmpErrCode _) sdg.integers → x = sdg.integers.2.1 := by
      intro x hx
      obtain ⟨_, _, hx⟩ := hx.of_bind
      exact congrArg (fun y => y.2.1) hx.of_pure
    refine (exists_congr fun rest => wideInt_bind_iff (by omega) htail hkeeps).trans ?_
    rw [hheader, v3Content]
    constructor
    · rintro ⟨rest, hver, hrest⟩
      obtain ⟨mid, hmid, hrest⟩ := (bind_eq_ok_iff hkeeps').mp hrest
      obtain ⟨⟨hid, hsize, hmodel, hboots, htime⟩, rfl⟩ := (v3Integers_iff h h3 hscope).mp hmid
      obtain ⟨⟨hreqId, herrStat, herrIdx⟩, -⟩ := (pduIntegers_pure_iff h _ _).mp hrest
      exact ⟨hver, hreqId, herrStat, herrIdx, fun _ => hid, fun _ => hsize, fun _ => hmodel,
        fun _ => hboots, fun _ => htime⟩
    · intro hsync
      refine ⟨headerEnc asn1TagSeq sdg.vbListLen ++ vbs, hsync.verLen, (bind_eq_ok_iff hkeeps').mpr ⟨_, (v3Integers_iff h h3 hscope).mpr
        ⟨⟨hsync.msgIdLen h3, hsync.msgSizeLen h3, hsync.msgModelLen h3, hsync.engineBootsLen h3,
          hsync.engineTimeLen h3⟩, rfl⟩, ?_⟩⟩
      exact (pduIntegers_pure_iff h _ _).mpr ⟨⟨hsync.reqIdLen, hsync.errStatLen, hsync.errIdxLen⟩, rfl⟩
  · rw [if_neg h3]
    have htail : TagAhead (scopeContent sdg vbs) := tagAhead_strFieldEnc _ _
    have hheader : headerIntegers sdg.version.toInt = pure [] := if_neg (mt hversion.mp h3)
    have hempty : sdg.integers = (sdg.version.toInt, [], sdg.integers.2.2) := by
      simp [SnmpDatagram.integers, h3]
    refine (exists_congr fun rest => wideInt_bind_iff (by omega) htail hkeeps).trans ?_
    rw [hheader]
    constructor
    · rintro ⟨rest, hver, hrest⟩
      rw [hempty] at hrest
      obtain ⟨⟨hreqId, herrStat, herrIdx⟩, -⟩ := (pduIntegers_pure_iff h _ _).mp hrest
      exact ⟨hver, hreqId, herrStat, herrIdx, fun hle => absurd hle h3, fun hle => absurd hle h3,
        fun hle => absurd hle h3, fun hle => absurd hle h3, fun hle => absurd hle h3⟩
    · intro hsync
      refine ⟨headerEnc asn1TagSeq sdg.vbListLen ++ vbs, hsync.verLen, ?_⟩
      rw [hempty]
      exact (pduIntegers_pure_iff h _ _).mpr ⟨⟨hsync.reqIdLen, hsync.errStatLen, hsync.errIdxLen⟩, rfl⟩

end Message

/-! ### What is stored -/

lemma length_of_strField {size : Nat} {err errLen : SnmpErrCode} {content : List UInt8}
    (h : Yields (strField size err errLen) content) : content.length ≤ size := by
  obtain ⟨len, _, h⟩ := h.of_bind
  obtain ⟨_, _, h⟩ := h.of_bind
  split_ifs at h with hlt
  · obtain ⟨bs, rest, h⟩ := h
    simp at h
  · rw [h.length_of_bytes]
    omega

lemma length_of_flagsField {err : SnmpErrCode} {content : List UInt8}
    (h : Yields (flagsField err) content) : content.length ≤ 4 := by
  obtain ⟨len, _, h⟩ := h.of_bind
  split_ifs at h with hlt
  · obtain ⟨bs, rest, h⟩ := h
    simp at h
  · rw [h.length_of_bytes]
    omega

/-- The strings that have been read fit their arrays. -/
structure SnmpDatagram.StringsFit (sdg : SnmpDatagram) : Prop where
  msgFlags : sdg.msgFlags.length ≤ 4
  userName : sdg.userName.length ≤ 41
  authPara : sdg.authPara.length ≤ 41
  privPara : sdg.privPara.length ≤ 41
  contextName : sdg.contextName.length ≤ 41

lemma stringsFit_v3Decode {sdg sdg' : SnmpDatagram} (h : Yields (v3Decode sdg) sdg')
    (hsdg : sdg.StringsFit) : sdg'.StringsFit := by
  rw [v3Decode] at h
  split_ifs at h with h3
  · obtain ⟨_, _, h⟩ := h.of_bind
    obtain ⟨sdg₁, h₁, h⟩ := h.of_bind
    obtain ⟨sdg₂, h₂, h⟩ := h.of_bind
    obtain ⟨_, _, h⟩ := h.of_bind
    obtain ⟨_, _, h⟩ := h.of_bind
    obtain rfl := h.of_pure
    obtain ⟨_, _, h₁⟩ := h₁.of_bind
    obtain ⟨_, _, h₁⟩ := h₁.of_bind
    obtain ⟨flags, hflags, h₁⟩ := h₁.of_bind
    obtain ⟨_, _, h₁⟩ := h₁.of_bind
    obtain rfl := h₁.of_pure
    obtain ⟨_, _, h₂⟩ := h₂.of_bind
    obtain ⟨_, _, h₂⟩ := h₂.of_bind
    obtain ⟨_, _, h₂⟩ := h₂.of_bind
    obtain ⟨_, _, h₂⟩ := h₂.of_bind
    obtain ⟨_, _, h₂⟩ := h₂.of_bind
    obtain ⟨user, huser, h₂⟩ := h₂.of_bind
    obtain ⟨auth, hauth, h₂⟩ := h₂.of_bind
    obtain ⟨priv, hpriv, h₂⟩ := h₂.of_bind
    obtain rfl := h₂.of_pure
    exact ⟨length_of_flagsField hflags, length_of_strField huser, length_of_strField hauth,
      length_of_strField hpriv, hsdg.contextName⟩
  · obtain rfl := h.of_pure
    exact hsdg

lemma stringsFit_datagramDecode {buffer rest : List UInt8} {sdg : SnmpDatagram}
    (h : datagramDecode buffer = .ok (.ok (sdg, rest))) : sdg.StringsFit := by
  obtain ⟨sdg₁, h₁, h₂⟩ := Yields.of_bind ⟨buffer, rest, h⟩
  have hmessage : sdg₁.StringsFit := by
    obtain ⟨_, _, h⟩ := h₁.of_bind
    obtain ⟨_, _, h⟩ := h.of_bind
    obtain ⟨_, _, h⟩ := h.of_bind
    obtain ⟨sdg₀, h₀, h⟩ := h.of_bind
    have hclear : SnmpDatagram.clear.StringsFit := ⟨by decide, by decide, by decide, by decide, by decide⟩
    have hv3 := stringsFit_v3Decode h₀ ⟨hclear.msgFlags, hclear.userName, hclear.authPara,
      hclear.privPara, hclear.contextName⟩
    obtain ⟨name, hname, h⟩ := h.of_bind
    obtain ⟨_, _, h⟩ := h.of_bind
    obtain ⟨_, _, h⟩ := h.of_bind
    obtain ⟨_, _, h⟩ := h.of_bind
    obtain ⟨_, _, h⟩ := h.of_bind
    obtain ⟨_, _, h⟩ := h.of_bind
    obtain rfl := h.of_pure
    exact ⟨hv3.msgFlags, hv3.userName, hv3.authPara, hv3.privPara, length_of_strField hname⟩
  obtain ⟨_, _, h⟩ := h₂.of_bind
  obtain ⟨_, _, h⟩ := h.of_bind
  obtain rfl := h.of_pure
  exact ⟨hmessage.msgFlags, hmessage.userName, hmessage.authPara, hmessage.privPara,
    hmessage.contextName⟩

/-- A request that is answered was received, and its response is made of what was stored. -/
lemma stored_of_answered {handlers : Handlers} {root : MibNode} {mv : MibViews} {buffer : List UInt8}
    {r : Unit × List UInt8} (hcheck : recvCheck buffer.length buffer = .ok (.ok r)) {sdg : SnmpDatagram}
    (hdecode : snmpDecode buffer = .ok sdg) {l l' : List Call} {s : ProcState} {response : Response}
    (hrun : snmpRequestDispatch handlers root mv sdg l = (.ok (some (s, response)), l')) :
    s.sdg.Stored := by
  have hstored := (snmpDecode_lengths hcheck hdecode).1
  have hstrings : sdg.StringsFit := by
    rw [snmpDecode] at hdecode
    rcases hmsg : datagramDecode buffer with (e | ⟨sdg', rest⟩) | _ | _ <;> rw [hmsg] at hdecode
    · obtain rfl : SnmpDatagram.clear = sdg := by simpa using hdecode
      exact ⟨by decide, by decide, by decide, by decide, by decide⟩
    · obtain rfl : sdg' = sdg := by simpa using hdecode
      exact stringsFit_datagramDecode hmsg
    · simp at hdecode
    · simp at hdecode
  obtain ⟨hprogress, -⟩ := returns_snmpRequestDispatch sdg l _ l' hrun s response rfl
  have heq := answered_eq hrun
  rw [hprogress.pduHdr_eq] at heq
  rw [heq]
  have h1 := hstrings.msgFlags
  have h2 := hstrings.userName
  have h3 := hstrings.authPara
  have h4 := hstrings.privPara
  have h5 := hstrings.contextName
  exact ⟨hstored, by dsimp only; omega, by dsimp only; omega, by dsimp only; omega,
    by dsimp only; omega, by dsimp only; omega⟩

end SmartSnmp
