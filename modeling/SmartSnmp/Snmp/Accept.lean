import SmartSnmp.Snmp.Message

/-!
# The decoder accepts every message

Each part of the decoder reads every serialisation of its part of a message; so does the whole.
-/

namespace SmartSnmp

open Bytes Reader

/-! ### Fields -/

section Fields

variable {tag : UInt8} {content bs : List UInt8} (err errLen : SnmpErrCode)

lemma parses_expectTag (tag : UInt8) : Parses (expectTag tag err) [tag] () :=
  (parses_byte tag).bind (parses_failIf (by simp) err)

lemma Tlv.length_lt (h : Tlv tag content bs) : content.length < bs.length := by
  obtain ⟨octets, _, rfl⟩ := h
  rw [List.length_cons, List.length_append]
  omega

/-- The header of a TLV, and then its content. -/
lemma Tlv.parses_header (h : Tlv tag content bs) (hbs : bs.length < 2 ^ 32) :
    ∃ hdr, bs = hdr ++ content ∧ Parses (header tag err) hdr content.length := by
  have hlt := h.length_lt
  obtain ⟨octets, hoctets, rfl⟩ := h
  refine ⟨tag :: octets, rfl, ?_⟩
  unfold header
  rw [← List.singleton_append]
  exact (parses_expectTag err tag).bind
    ((parses_berLengthDec hoctets (by omega)).bind_nil (parses_pure _))

lemma IntTlv.parses {value : Int32} (h : IntTlv value bs) (hbs : bs.length < 2 ^ 32) :
    ∃ len, Parses (intField err) bs (len, value) := by
  obtain ⟨content, h1, h4, hval, htlv⟩ := h
  obtain ⟨hdr, rfl, hhdr⟩ := htlv.parses_header err hbs
  have hne := List.ne_nil_of_length_pos h1
  obtain ⟨v, hdec, hv⟩ := berIntDec_eq hne h4
  obtain rfl : v = value := Int32.toInt_inj.mp (hv.trans hval)
  refine ⟨content.length, hhdr.bind ((parses_bytes rfl).bind_nil ?_)⟩
  simp only [hne, if_false, hdec]
  exact parses_pure _

lemma Tlv.parses_strField (h : Tlv asn1TagOctstr content bs) (hbs : bs.length < 2 ^ 32)
    {size : Nat} (hsize : content.length < size) :
    Parses (strField size err errLen) bs content := by
  obtain ⟨hdr, rfl, hhdr⟩ := h.parses_header err hbs
  refine hhdr.bind ((parses_failIf ?_ errLen).nil_bind ?_)
  · have := Nat.mod_le (content.length + 1) (2 ^ 32)
    omega
  · rw [if_neg (by omega)]
    exact parses_bytes rfl

lemma Tlv.parses_flagsField (h : Tlv asn1TagOctstr content bs) (hbs : bs.length < 2 ^ 32)
    (hsize : content.length ≤ 4) : Parses (flagsField err) bs content := by
  obtain ⟨hdr, rfl, hhdr⟩ := h.parses_header err hbs
  apply hhdr.bind
  rw [if_neg (by omega)]
  exact parses_bytes rfl

end Fields

/-! ### The version 3 header -/

section V3

variable {h : V3Header} {bs : List UInt8} (sdg : SnmpDatagram)

lemma GlobalDataTlv.parses (htlv : GlobalDataTlv h bs) (hbs : bs.length < 2 ^ 32) :
    ∃ msgLen msgIdLen msgSizeLen msgModelLen hdr content, bs = hdr ++ content ∧
      Parses (header asn1TagSeq .globalDataLen) hdr msgLen ∧
      Parses (globalDataDecode { sdg with msgLen }) content { sdg with
        msgLen, msgIdLen, msgSizeLen, msgModelLen
        msgId := h.msgId
        msgMaxSize := h.msgMaxSize
        msgFlags := [h.msgFlags]
        msgSecurityModel := h.msgSecurityModel } := by
  obtain ⟨a, b, c, d, ha, hb, hc, hd, htlv⟩ := htlv
  have hlt := htlv.length_lt
  simp only [List.length_append] at hlt
  obtain ⟨hdr, rfl, hhdr⟩ := htlv.parses_header .globalDataLen hbs
  obtain ⟨la, ha⟩ := ha.parses .globalId (by omega)
  obtain ⟨lb, hb⟩ := hb.parses .globalSize (by omega)
  have hc := hc.parses_flagsField .globalFlags (by omega) (by simp)
  obtain ⟨ld, hd⟩ := hd.parses .globalModel (by omega)
  exact ⟨_, la, lb, ld, hdr, _, rfl, hhdr, ha.bind (hb.bind (hc.bind (hd.bind_nil (parses_pure _))))⟩

lemma SecurityTlv.parses (htlv : SecurityTlv h bs) (hbs : bs.length < 2 ^ 32) :
    ∃ securStrLen securParaLen engineBootsLen engineTimeLen,
      Parses (securityParameterDecode sdg) bs { sdg with
        securStrLen, securParaLen, engineBootsLen, engineTimeLen
        engineId := h.engineId.val
        engineBoots := h.engineBoots
        engineTime := h.engineTime
        userName := h.userName.val
        authPara := h.authPara.val
        privPara := h.privPara.val } := by
  obtain ⟨a, b, c, d, e, f, seq, ha, hb, hc, hd, he, hf, hseq, hstr⟩ := htlv
  have hlt := hseq.length_lt
  have hlt' := hstr.length_lt
  simp only [List.length_append] at hlt
  obtain ⟨hdr, rfl, hhdr⟩ := hstr.parses_header .securityStr hbs
  obtain ⟨hdr', rfl, hhdr'⟩ := hseq.parses_header .securitySeq (by omega)
  have ha := ha.parses_strField .securityEngineId .securityEngineIdLen (by omega)
    (Nat.lt_succ_of_le h.engineId.property)
  obtain ⟨lb, hb⟩ := hb.parses .securityEngineBoots (by omega)
  obtain ⟨lc, hc⟩ := hc.parses .securityEngineTime (by omega)
  have hd := hd.parses_strField .securityUserName .securityUserNameLen (by omega)
    (Nat.lt_succ_of_le h.userName.property)
  have he := he.parses_strField .securityAuthPara .securityAuthParaLen (by omega)
    (Nat.lt_succ_of_le h.authPara.property)
  have hf := hf.parses_strField .securityEngineTime .securityPrivParaLen (by omega)
    (Nat.lt_succ_of_le h.privPara.property)
  exact ⟨_, _, lb, lc, hhdr.bind (hhdr'.bind (ha.bind (hb.bind (hc.bind (hd.bind (he.bind
    (hf.bind_nil (parses_pure _))))))))⟩

end V3

/-! ### Varbinds -/

/-- The varbind the decoder makes of a variable. -/
def Binding.varBind (binding : Binding) : VarBind :=
  ⟨binding.oid, 0, binding.valueType, binding.value.val⟩

lemma IsOid.ne_nil {oid : Oid} {content : List UInt8} (h : IsOid oid content) : content ≠ [] := by
  obtain ⟨a, b, ids, tail, _, _, rfl⟩ := h
  simp

lemma IsOid.berOidDec {oid : Oid} {content : List UInt8} (h : IsOid oid content)
    (hsecond : (oid.getD 1 0).toNat < 40)
    (hpacked : 40 * (oid.getD 0 0).toNat + (oid.getD 1 0).toNat < 256) :
    berOidDec content = oid := by
  obtain ⟨a, b, ids, tail, rfl, htail, rfl⟩ := h
  have hb : b.toNat < 40 := by simpa using hsecond
  have hab : 40 * a.toNat + b.toNat < 256 := by simpa using hpacked
  have hbyte : (UInt8.ofNat (40 * a.toNat + b.toNat)).toNat = 40 * a.toNat + b.toNat := by
    simp
    omega
  simp only [SmartSnmp.berOidDec, List.headD_cons, List.tail_cons, htail.berOidDecLoop,
    List.cons.injEq, and_true]
  constructor
  · apply UInt32.toNat_inj.mp
    rw [UInt8.toNat_toUInt32, UInt8.toNat_div, hbyte]
    simp
    omega
  · apply UInt32.toNat_inj.mp
    rw [UInt8.toNat_toUInt32, UInt8.toNat_mod, hbyte]
    simp
    omega

/-- The dry run counts the sub-identifiers. -/
lemma berOidDecLoop_length (id : UInt32) (buf : List UInt8) :
    (berOidDecLoop id buf).length = buf.countP fun b => !highBit b := by
  induction buf generalizing id with
  | nil => rfl
  | cons b buf ih =>
    rw [berOidDecLoop, List.countP_cons]
    cases highBit b <;> simp [ih]

lemma berValueDecTry_objid {buf : List UInt8} (h : buf ≠ []) :
    berValueDecTry buf asn1TagObjid = (berOidDec buf).length := by
  have htag : ¬ (asn1TagObjid = asn1TagInt ∨ asn1TagObjid = asn1TagCnt ∨
      asn1TagObjid = asn1TagGau ∨ asn1TagObjid = asn1TagTimeticks) := by decide
  simp only [berValueDecTry, if_neg h, if_neg htag, if_true, berOidDecTry, berOidDec,
    List.length_cons, berOidDecLoop_length]
  omega

lemma BindingTlv.parses {binding : Binding} {bs : List UInt8} (h : BindingTlv binding bs)
    (hbs : bs.length < 2 ^ 32) : Parses varBindStep bs (binding.varBind, bs.length) := by
  obtain ⟨content, name, value, hoid, hname, hvalue, hseq⟩ := h
  have hlt := hseq.length_lt
  have hname' := hname.length_lt
  have hvalue' := hvalue.length_lt
  simp only [List.length_append] at hlt
  have hdec := hoid.berOidDec binding.second_lt binding.packed_lt
  have hne := hoid.ne_nil
  obtain ⟨octets, hoctets, rfl⟩ := hseq
  obtain ⟨octets', hoctets', rfl⟩ := hvalue
  obtain ⟨hdr, rfl, hhdr⟩ := hname.parses_header .vbOidType (by omega)
  have halloc : Parses varBindAlloc ((hdr ++ content) ++ (binding.valueType ::
      (octets' ++ binding.value.val))) binding.varBind := by
    rw [List.append_assoc]
    refine hhdr.bind ((parses_bytes rfl).bind ((parses_failIf ?_ _).nil_bind ?_))
    · rw [berValueDecTry_objid hne, hdec, not_lt]
      exact binding.length_le
    · rw [← List.singleton_append]
      refine (parses_byte _).bind ((parses_berLengthDec hoctets' (by omega)).bind
        ((parses_failIf (not_lt.mpr binding.value.property) _).nil_bind
          ((parses_bytes rfl).bind_nil ?_)))
      rw [if_neg hne, hdec]
      exact parses_pure _
  have hused : (1 + octets.length + (hdr ++ content ++ binding.valueType ::
      (octets' ++ binding.value.val)).length) % 2 ^ 32 = (asn1TagSeq :: (octets ++
      (hdr ++ content ++ binding.valueType :: (octets' ++ binding.value.val)))).length := by
    simp only [List.length_cons, List.length_append] at hbs ⊢
    omega
  unfold varBindStep
  rw [← hused, ← List.singleton_append]
  refine (parses_expectTag .vbSeq asn1TagSeq).bind ((parses_berLengthDec hoctets (by
    simp only [List.length_cons, List.length_append] at hbs ⊢
    omega)).bind ?_)
  exact halloc.peek_skip_nil rfl (parses_pure _)

/-- The loop reads the varbinds of a list and counts down to zero. -/
lemma parses_varBindLoop {bindings : List Binding} {parts : List (List UInt8)}
    (h : List.Forall₂ BindingTlv bindings parts) (hbs : parts.flatten.length < 2 ^ 32)
    {fuel : Nat} (hfuel : parts.flatten.length < fuel) :
    Parses (varBindLoop fuel parts.flatten.length) parts.flatten
      (bindings.map Binding.varBind, 0) := by
  induction h generalizing fuel with
  | nil => 
    cases fuel <;> exact parses_pure _
  | @cons binding part bindings parts hpart _ ih =>
    simp only [List.flatten_cons, List.length_append] at hbs hfuel ⊢
    obtain ⟨fuel, rfl⟩ := Nat.exists_eq_succ_of_ne_zero (by omega : fuel ≠ 0)
    have hpos : 0 < part.length := by
      obtain ⟨_, _, _, _, _, _, hseq⟩ := hpart
      exact Nat.zero_lt_of_lt hseq.length_lt
    obtain ⟨n, hn⟩ := Nat.exists_eq_succ_of_ne_zero (by omega : part.length + parts.flatten.length ≠ 0)
    have hdown : countDown (n + 1) part.length = parts.flatten.length := by
      unfold countDown
      omega
    rw [hn]
    unfold varBindLoop
    apply (hpart.parses (by omega)).bind
    show Parses (varBindLoop fuel (countDown (n + 1) part.length) >>= _) _ _
    rw [hdown]
    exact (ih (by omega) (by omega)).bind_nil (parses_pure _)

lemma parses_varBindParse {bindings : List Binding} {parts : List (List UInt8)} {bs : List UInt8}
    (h : List.Forall₂ BindingTlv bindings parts) (hlist : Tlv asn1TagSeq parts.flatten bs)
    (hbs : bs.length < 2 ^ 32) (sdg : SnmpDatagram) :
    Parses (varBindParse sdg) bs { sdg with
      vbListLen := 0
      vbInList := bindings.map Binding.varBind
      vbInCnt := (bindings.map Binding.varBind).length } := by
  have hlt := hlist.length_lt
  obtain ⟨hdr, rfl, hhdr⟩ := hlist.parses_header .vbListSeq hbs
  have hloop : Parses (withRemaining fun n => varBindLoop (n + 1) parts.flatten.length)
      parts.flatten (bindings.map Binding.varBind, 0) := fun rest =>
    parses_varBindLoop h (by omega) (by simp only [List.length_append]; omega) rest
  exact hhdr.bind (hloop.bind_nil (parses_pure _))

/-! ### Messages -/

/-- The datagram holds what the version 3 header says. -/
structure CarriesV3 (sdg : SnmpDatagram) (h : V3Header) : Prop where
  msgId : sdg.msgId = h.msgId
  msgMaxSize : sdg.msgMaxSize = h.msgMaxSize
  msgFlags : sdg.msgFlags = [h.msgFlags]
  msgSecurityModel : sdg.msgSecurityModel = h.msgSecurityModel
  engineId : sdg.engineId = h.engineId.val
  engineBoots : sdg.engineBoots = h.engineBoots
  engineTime : sdg.engineTime = h.engineTime
  userName : sdg.userName = h.userName.val
  authPara : sdg.authPara = h.authPara.val
  privPara : sdg.privPara = h.privPara.val
  contextId : sdg.contextId = h.contextId.val

/-- The datagram holds what the message says. -/
structure Carries (sdg : SnmpDatagram) (m : SnmpMessage) : Prop where
  version : sdg.version = m.version
  v3 : ∀ h ∈ m.v3, CarriesV3 sdg h
  contextName : sdg.contextName = m.contextName.val
  pduType : sdg.pduHdr.pduType = m.pduType
  reqId : sdg.pduHdr.reqId = m.reqId
  errStat : sdg.pduHdr.errStat = m.errStat
  errIdx : sdg.pduHdr.errIdx = m.errIdx
  vbInList : sdg.vbInList = m.bindings.map Binding.varBind
  vbInCnt : sdg.vbInCnt = m.bindings.length
  vbListLen : sdg.vbListLen = 0

/-- The PDU: its header, and then the varbinds. -/
lemma PduTlv.parses {m : SnmpMessage} {bs : List UInt8} (h : PduTlv m bs) (hbs : bs.length < 2 ^ 32)
    (sdg : SnmpDatagram) : ∃ pduLen reqIdLen errStatLen errIdxLen hdr list, bs = hdr ++ list ∧
      Parses (pduHdrParse sdg) hdr { sdg with
        pduHdr := ⟨m.pduType, pduLen, reqIdLen, m.reqId, errStatLen, m.errStat, errIdxLen,
          m.errIdx⟩ } ∧
      ∀ sdg', Parses (varBindParse sdg') list { sdg' with
        vbListLen := 0
        vbInList := m.bindings.map Binding.varBind
        vbInCnt := (m.bindings.map Binding.varBind).length } := by
  obtain ⟨a, b, c, parts, list, ha, hb, hc, hparts, hlist, htlv⟩ := h
  have hlt := htlv.length_lt
  simp only [List.length_append] at hlt
  obtain ⟨octets, hoctets, rfl⟩ := htlv
  obtain ⟨la, ha⟩ := ha.parses .pduReqid (by omega)
  obtain ⟨lb, hb⟩ := hb.parses .pduErrstat (by omega)
  obtain ⟨lc, hc⟩ := hc.parses .pduErridx (by omega)
  refine ⟨(a ++ (b ++ (c ++ list))).length, la, lb, lc, m.pduType :: (octets ++ (a ++ (b ++ c))), list, by simp, ?_,
    parses_varBindParse hparts hlist (by omega)⟩
  rw [← List.singleton_append]
  exact (parses_byte _).bind ((parses_berLengthDec hoctets (by simp; omega)).bind (ha.bind
    (hb.bind (hc.bind_nil (parses_pure _)))))

/-- The part of a version 3 message up to the context name. -/
lemma parses_v3HeaderDecode {h : V3Header} {globalData security contextId : List UInt8}
    (hglobal : GlobalDataTlv h globalData) (hsecur : SecurityTlv h security)
    (hcontext : Tlv asn1TagOctstr h.contextId.val contextId) {scope more : List UInt8}
    (hscope : Tlv asn1TagSeq (contextId ++ more) scope)
    (hbs : (globalData ++ (security ++ scope)).length < 2 ^ 32) (sdg : SnmpDatagram) :
    ∃ part sdg', globalData ++ (security ++ scope) = part ++ more ∧
      Parses (v3HeaderDecode sdg) part sdg' ∧ sdg'.version = sdg.version ∧ CarriesV3 sdg' h := by
  simp only [List.length_append] at hbs
  have hlt := hscope.length_lt
  simp only [List.length_append] at hlt
  obtain ⟨_, _, _, _, hdr, content, rfl, hhdr, hglobal⟩ := hglobal.parses sdg (by omega)
  obtain ⟨_, _, _, _, hsecur⟩ := hsecur.parses _ (by omega)
  obtain ⟨hdr', rfl, hhdr'⟩ := hscope.parses_header .scopePduSeq (by omega)
  have hcontext := hcontext.parses_strField .contextId .contextIdLen (by omega)
    (Nat.lt_succ_of_le h.contextId.property)
  refine ⟨hdr ++ (content ++ (security ++ (hdr' ++ contextId))), _, by simp, hhdr.bind (hglobal.bind
    (hsecur.bind (hhdr'.bind (hcontext.bind_nil (parses_pure _))))), rfl, ?_⟩
  exact ⟨rfl, rfl, rfl, rfl, rfl, rfl, rfl, rfl, rfl, rfl, rfl⟩

/-- A message whose version is followed by a part that the version decides on. -/
lemma datagramDecode_of_parts {m : SnmpMessage} {bs version part contextName pdu : List UInt8}
    (htlv : Tlv asn1TagSeq (version ++ (part ++ (contextName ++ pdu))) bs)
    (hversion : IntTlv m.version version)
    (hcontext : Tlv asn1TagOctstr m.contextName.val contextName) (hpdu : PduTlv m pdu)
    (hbs : bs.length < 2 ^ 32)
    (hpart : ∀ sdg : SnmpDatagram, sdg.version = m.version → ∃ sdg',
      Parses (v3Decode sdg) part sdg' ∧ sdg'.version = m.version ∧ ∀ h ∈ m.v3, CarriesV3 sdg' h) :
    ∃ sdg, datagramDecode bs = .ok (.ok (sdg, [])) ∧ Carries sdg m := by
  have hdata := htlv.length_lt.trans hbs
  have hlt := htlv.length_lt
  simp only [List.length_append] at hlt
  obtain ⟨octets, hoctets, rfl⟩ := htlv
  obtain ⟨verLen, hver⟩ := hversion.parses .version (by omega)
  obtain ⟨sdg, hpart, hversion', hv3⟩ := hpart { SnmpDatagram.clear with
    dataLen := (version ++ (part ++ (contextName ++ pdu))).length, verLen, version := m.version } rfl
  have hname := hcontext.parses_strField .contextName .contextNameLen (by omega)
    (Nat.lt_succ_of_le m.contextName.property)
  obtain ⟨_, _, _, _, hdr, list, rfl, hhdr, hlist⟩ :=
    hpdu.parses (by omega) { sdg with contextName := m.contextName.val }
  have hmessage : Parses messageDecode
      ([asn1TagSeq] ++ (octets ++ (version ++ (part ++ (contextName ++ hdr))))) _ :=
    (parses_skip (show [asn1TagSeq].length = 1 from rfl)).bind
      ((parses_berLengthDec hoctets hdata).bind (hver.bind (hpart.bind (hname.bind hhdr))))
  have hall := (hmessage.bind (hlist _)) []
  have hsplit : [asn1TagSeq] ++ (octets ++ (version ++ (part ++ (contextName ++ hdr)))) ++ list ++ [] =
      asn1TagSeq :: (octets ++ (version ++ (part ++ (contextName ++ (hdr ++ list))))) := by simp
  rw [hsplit] at hall
  refine ⟨_, hall, hversion', fun h hh => ?_, rfl, rfl, rfl, rfl, rfl, rfl, List.length_map _, rfl⟩
  obtain ⟨h1, h2, h3, h4, h5, h6, h7, h8, h9, h10, h11⟩ := hv3 h hh
  exact ⟨h1, h2, h3, h4, h5, h6, h7, h8, h9, h10, h11⟩

/-- `snmp_decode` reads every serialisation. -/
lemma Serialises.datagramDecode {m : SnmpMessage} {bs : List UInt8} (h : Serialises m bs)
    (hbs : bs.length < 2 ^ 32) : ∃ sdg, datagramDecode bs = .ok (.ok (sdg, [])) ∧ Carries sdg m := by
  obtain ⟨version, contextName, pdu, hversion, hcontext, hpdu, htlv⟩ := h
  rcases hm : m.v3 with _ | v3
  · rw [hm] at htlv
    have hold : ¬ 3 ≤ m.version := by simp [← m.v3_isSome, hm]
    have htlv : Tlv asn1TagSeq (version ++ ([] ++ (contextName ++ pdu))) bs := htlv
    apply datagramDecode_of_parts htlv hversion hcontext hpdu hbs
    intro sdg hsdg
    rw [v3Decode, hsdg, if_neg hold]
    exact ⟨sdg, parses_pure sdg, hsdg, by simp [hm]⟩
  · rw [hm] at htlv
    obtain ⟨globalData, security, contextId, scope, hglobal, hsecur, hid, hscope, htlv⟩ := htlv
    have hnew : 3 ≤ m.version := by simp [← m.v3_isSome, hm]
    have hlt := htlv.length_lt
    rw [List.length_append] at hlt
    obtain ⟨part, _, hsplit, _⟩ := parses_v3HeaderDecode hglobal hsecur hid hscope (by omega) .clear
    rw [hsplit] at htlv
    apply datagramDecode_of_parts htlv hversion hcontext hpdu hbs
    intro sdg hsdg
    rw [v3Decode, hsdg, if_pos hnew]
    obtain ⟨part', sdg', hsplit', hparses, hver, hcarries⟩ :=
      parses_v3HeaderDecode hglobal hsecur hid hscope (by omega) sdg
    obtain rfl : part' = part := List.append_cancel_right (hsplit'.symm.trans hsplit)
    refine ⟨sdg', hparses, hver.trans hsdg, ?_⟩
    intro h hh
    obtain rfl : v3 = h := by simpa [hm] using hh
    exact hcarries

lemma Serialises.tlv {m : SnmpMessage} {bs : List UInt8} (h : Serialises m bs) :
    ∃ content, Tlv asn1TagSeq content bs := by
  obtain ⟨version, contextName, pdu, _, _, _, h⟩ := h
  split at h
  · exact ⟨_, h⟩
  · obtain ⟨_, _, _, _, _, _, _, _, h⟩ := h
    exact ⟨_, h⟩

/-- `snmpd_recv` lets every TLV of a sequence pass. -/
lemma Tlv.recvCheck {content bs : List UInt8} (h : Tlv asn1TagSeq content bs)
    (hbs : bs.length < 2 ^ 32) : recvCheck bs.length bs = .ok (.ok ((), content)) := by
  have hdata := h.length_lt.trans hbs
  obtain ⟨octets, hoctets, rfl⟩ := h
  have hcheck : ¬ (1 + octets.length + content.length) % 2 ^ 32 ≠
      (asn1TagSeq :: (octets ++ content)).length := by
    simp only [List.length_cons, List.length_append, not_not] at hbs ⊢
    omega
  have hparses : Parses (SmartSnmp.recvCheck (asn1TagSeq :: (octets ++ content)).length)
      ([asn1TagSeq] ++ octets) () :=
    (parses_expectTag .pduType asn1TagSeq).bind ((parses_berLengthDec hoctets hdata).bind_nil
      (parses_failIf hcheck SnmpErrCode.pduLen))
  simpa using hparses content

/-- Every serialisation of every message that fits a buffer of `int` length is received: it passes
the checks of `snmpd_recv`, and `snmp_decode` succeeds with what the message says. -/
theorem snmpdRecv_accepts (m : SnmpMessage) (buffer : List UInt8) (h : Serialises m buffer)
    (hlen : buffer.length < 2 ^ 31) :
    (∃ rest, recvCheck buffer.length buffer = .ok (.ok ((), rest))) ∧
      ∃ sdg, datagramDecode buffer = .ok (.ok (sdg, [])) ∧ snmpDecode buffer = .ok sdg ∧
        Carries sdg m := by
  obtain ⟨content, htlv⟩ := h.tlv
  obtain ⟨sdg, hdecode, hcarries⟩ := h.datagramDecode (by omega)
  exact ⟨⟨content, htlv.recvCheck (by omega)⟩, sdg, hdecode, by rw [snmpDecode, hdecode], hcarries⟩

/-- A GET of 1.3.6 with version 2c. -/
def sampleGet : SnmpMessage where
  version := 1
  v3 := none
  contextName := ⟨[0x70, 0x75], by decide⟩
  pduType := 0xa0
  reqId := -2
  errStat := 0
  errIdx := 0
  bindings := [⟨[1, 3, 6], 5, ⟨[], by decide⟩, by decide, by decide, by decide, by decide⟩]
  v3_isSome := by decide

/-- Its bytes, with an overlong length of the message and a padded request id. -/
def sampleGetBytes : List UInt8 :=
  [0x30, 0x82, 0, 30] ++ ([2, 1, 1] ++ ([4, 2, 0x70, 0x75] ++
    ([0xa0, 21] ++ ([2, 2, 0xff, 0xfe] ++ ([2, 1, 0] ++ ([2, 1, 0] ++
      ([0x30, 9] ++ ([0x30, 0x81, 6] ++ ([6, 2, 43, 6] ++ [5, 0])))))))))

lemma isLength_short {n : Nat} (h : n < 128) : IsLength n [UInt8.ofNat n] := .inl ⟨h, rfl⟩

lemma sampleGet_serialises : Serialises sampleGet sampleGetBytes := by
  refine ⟨[2, 1, 1], [4, 2, 0x70, 0x75], [0xa0, 21] ++ ([2, 2, 0xff, 0xfe] ++ ([2, 1, 0] ++
    ([2, 1, 0] ++ ([0x30, 9] ++ ([0x30, 0x81, 6] ++ ([6, 2, 43, 6] ++ [5, 0])))))), ?_, ?_, ?_, ?_⟩
  · exact ⟨[1], by decide, by decide, by decide, [1], isLength_short (by decide), rfl⟩
  · exact ⟨[2], isLength_short (by decide), rfl⟩
  · refine ⟨[2, 2, 0xff, 0xfe], [2, 1, 0], [2, 1, 0], [[0x30, 0x81, 6] ++ ([6, 2, 43, 6] ++ [5, 0])],
      [0x30, 9] ++ ([0x30, 0x81, 6] ++ ([6, 2, 43, 6] ++ [5, 0])), ?_, ?_, ?_, ?_, ?_, ?_⟩
    · exact ⟨[0xff, 0xfe], by decide, by decide, by decide, [2], isLength_short (by decide), rfl⟩
    · exact ⟨[0], by decide, by decide, by decide, [1], isLength_short (by decide), rfl⟩
    · exact ⟨[0], by decide, by decide, by decide, [1], isLength_short (by decide), rfl⟩
    · refine .cons ⟨[43, 6], [6, 2, 43, 6], [5, 0], ?_, ?_, ?_, ?_⟩ .nil
      · exact ⟨1, 3, [6], [6], rfl, .cons (.last (by decide)) (by decide) .nil, rfl⟩
      · exact ⟨[2], isLength_short (by decide), rfl⟩
      · exact ⟨[0], isLength_short (by decide), rfl⟩
      · exact ⟨[0x81, 6], .inr ⟨[6], by decide, by decide, by decide, rfl⟩, rfl⟩
    · exact ⟨[9], isLength_short (by decide), rfl⟩
    · exact ⟨[21], isLength_short (by decide), rfl⟩
  · exact ⟨[0x82, 0, 30], .inr ⟨[0, 30], by decide, by decide, by decide, rfl⟩, rfl⟩

theorem snmpdRecv_accepts_sampleGet :
    Serialises sampleGet sampleGetBytes ∧ ∃ sdg, snmpDecode sampleGetBytes = .ok sdg ∧
      sdg.pduHdr.reqId = -2 ∧ sdg.vbInList = [⟨[1, 3, 6], 0, 5, []⟩] := by
  obtain ⟨_, sdg, _, hdecode, hcarries⟩ :=
    snmpdRecv_accepts sampleGet sampleGetBytes sampleGet_serialises (by decide)
  exact ⟨sampleGet_serialises, sdg, hdecode, hcarries.reqId, hcarries.vbInList⟩

end SmartSnmp
