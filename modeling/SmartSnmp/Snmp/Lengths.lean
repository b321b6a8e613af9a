import SmartSnmp.Snmp.Access
import SmartSnmp.Snmp.RoundTrip

/-!
# The lengths of a response

The length of an integer field is the one found in the request, and it is not updated when the
field is. So a response announces the right lengths exactly if the request has, for each field, as
many content bytes as the value of the response needs. Of the values only the error status and the
error index may differ from those of the request.
-/

namespace SmartSnmp

/-! ### The error fields of a response -/

/-- `PduHdr.mark` for a list of statuses, after `cnt` varbinds. -/
def PduHdr.markAll (ph : PduHdr) (cnt : UInt32) : List Int32 → PduHdr
  | [] => ph
  | e :: es => (ph.mark e (cnt + 1)).markAll (cnt + 1) es

/-- The first error of a list of statuses and the index of its varbind, after `cnt` varbinds. -/
def firstError (cnt : UInt32) : List Int32 → Option (Int32 × UInt32)
  | [] => none
  | e :: es => if e = 0 then firstError (cnt + 1) es else some (e, cnt + 1)

lemma PduHdr.markAll_append (ph : PduHdr) (cnt : UInt32) (es : List Int32) (e : Int32) :
    ph.markAll cnt (es ++ [e]) = (ph.markAll cnt es).mark e (cnt + UInt32.ofNat es.length + 1) := by
  induction es generalizing ph cnt with
  | nil => simp [markAll]
  | cons a es ih =>
    have hcnt : cnt + 1 + UInt32.ofNat es.length = cnt + UInt32.ofNat (a :: es).length := by
      rw [List.length_cons, UInt32.ofNat_add, UInt32.add_assoc, UInt32.add_comm 1]
      rfl
    rw [List.cons_append, markAll, markAll, ih, hcnt]

/-- Only the first error counts, and only if the request has none. -/
lemma PduHdr.markAll_eq (ph : PduHdr) (cnt : UInt32) (es : List Int32) :
    ph.markAll cnt es = match firstError cnt es with
      | none => ph
      | some (e, n) =>
        if ph.errStat = 0 then { ph with errStat := e, errIdx := n.toInt32 } else ph := by
  induction es generalizing ph cnt with
  | nil => rfl
  | cons a es ih =>
    rw [markAll, ih, firstError]
    by_cases ha : a = 0
    · simp [mark, ha]
    · by_cases hph : ph.errStat = 0
      · cases firstError (cnt + 1) es <;> simp [mark, ha, hph]
      · cases firstError (cnt + 1) es <;> simp [mark, ha, hph]

/-! ### Runs -/

/-- What a request function has changed of the datagram `sdg` it started with. -/
structure Progress (sdg : SnmpDatagram) (s : ProcState) : Prop where
  sdg_eq : s.sdg = { sdg with
    pduHdr := s.sdg.pduHdr
    vbListLen := s.sdg.vbListLen
    vbInList := s.sdg.vbInList
    vbOutCnt := s.sdg.vbOutCnt
    vbOutList := s.sdg.vbOutList }
  vbInCnt : s.vbInCnt = UInt32.ofNat s.reports.length
  pduHdr : s.sdg.pduHdr = sdg.pduHdr.markAll 0 (s.reports.map fun e => e.1.errStat)

lemma progress_init (request : MibReq) (sdg : SnmpDatagram) : Progress sdg (.init request sdg) :=
  ⟨rfl, rfl, rfl⟩

section Runs

variable {handlers : Handlers} {root : MibNode} {mv : MibViews} {sdg : SnmpDatagram} {s : ProcState}

lemma Progress.add (h : Progress sdg s) (ret : OidSearchRes) (vbOut : VarBind) :
    Progress sdg (s.add ret vbOut) := by
  refine ⟨?_, ?_, ?_⟩
  · simp only [ProcState.add, SnmpDatagram.addVarBind]
    rw [h.sdg_eq]
  · simp [ProcState.add, h.vbInCnt, UInt32.ofNat_add]
  · simp only [ProcState.add, SnmpDatagram.addVarBind, List.map_append, List.map_cons, List.map_nil,
      PduHdr.markAll_append, h.pduHdr, h.vbInCnt, List.length_map, UInt32.zero_add]

lemma Progress.processVarBind (h : Progress sdg s)
    (search : SnmpDatagram → VarBind → OidSearchRes → Traced Call OidSearchRes)
    (encode : VarBind → OidSearchRes → Option VarBind) (status : OidSearchRes → OidSearchRes)
    (vbIn : VarBind) : Traced.Returns (Progress sdg) (processVarBind search encode status s vbIn) := by
  simp only [SmartSnmp.processVarBind]
  cases decodeValue vbIn s.ret with
  | none => exact Traced.returns_crash
  | some ret =>
    refine (Traced.returns_true _).bind fun res _ => ?_
    cases encode vbIn res with
    | none => exact Traced.returns_crash
    | some vbOut => exact Traced.returns_pure (h.add (status res) vbOut)

lemma Progress.bulkRound (h : Progress sdg s) (vbs : List VarBind) :
    Traced.Returns (fun x => Progress sdg x.2) (bulkRound handlers root mv vbs s) := by
  induction vbs generalizing s with
  | nil => exact Traced.returns_pure h
  | cons vbIn vbs ih =>
    refine (h.processVarBind _ _ _ vbIn).bind fun s' hs' => ?_
    exact (ih hs').bind fun x hx => Traced.returns_pure hx

lemma Progress.bulkRounds (h : Progress sdg s) (rep : Nat) :
    Traced.Returns (Progress sdg) (bulkRounds handlers root mv rep s) := by
  induction rep generalizing s with
  | zero => exact Traced.returns_pure h
  | succ rep ih =>
    refine (h.bulkRound s.sdg.vbInList).bind fun x hx => ih ⟨?_, hx.vbInCnt, hx.pduHdr⟩
    rw [hx.sdg_eq]

lemma returns_respond {Q : ProcState → Prop} (h : Q s) :
    Traced.Returns (fun x => Q x.1 ∧ snmpResponse x.1.sdg = some x.2) (respond s) := by
  simp only [respond]
  cases hr : snmpResponse s.sdg with
  | none => exact Traced.returns_crash
  | some r => exact Traced.returns_pure ⟨h, hr⟩

lemma respond_eq_ok {l l' : List Call} {r : ProcState × Response}
    (hrun : respond s l = (.ok r, l')) : r.1 = s ∧ l' = l ∧ snmpResponse s.sdg = some r.2 := by
  rw [respond] at hrun
  cases hr : snmpResponse s.sdg with
  | none => simp [hr] at hrun
  | some response =>
    obtain ⟨rfl, rfl⟩ : (s, response) = r ∧ l = l' := by simpa [hr] using hrun
    exact ⟨rfl, rfl, rfl⟩

/-- A SET request that returns has gone through its varbinds. -/
lemma snmpRequestDispatch_eq_snmpSet {sdg : SnmpDatagram} (hset : sdg.pduHdr.pduType = mibReqSet) :
    snmpRequestDispatch handlers root mv sdg =
      snmpSet handlers root mv sdg.setResponse >>= fun r => pure (some r) := by
  have hget : sdg.pduHdr.pduType ≠ mibReqGet := by rw [hset]; decide
  have hnext : sdg.pduHdr.pduType ≠ mibReqGetnext := by rw [hset]; decide
  rw [snmpRequestDispatch, requestFunction, if_neg hget, if_neg hnext, if_pos hset]

lemma snmpRequestDispatch_set {sdg : SnmpDatagram} (hset : sdg.pduHdr.pduType = mibReqSet)
    {l l' : List Call} {r : Response}
    (hrun : snmpRequestDispatch handlers root mv sdg l = (.ok (some (s, r)), l')) :
    sdg.vbInList.foldlM (setStep handlers root mv) (.init .set sdg.setResponse) l = (.ok s, l') ∧
      snmpResponse s.sdg = some r := by
  rw [snmpRequestDispatch_eq_snmpSet hset] at hrun
  obtain ⟨x, l₁, hrequest, hpure⟩ := Traced.bind_eq_ok hrun
  obtain ⟨rfl, rfl⟩ : x = (s, r) ∧ l₁ = l' := by simpa using hpure
  obtain ⟨s₁, l₂, hfold, hrespond⟩ := Traced.bind_eq_ok hrequest
  obtain ⟨rfl, rfl, hresponse⟩ := respond_eq_ok hrespond
  exact ⟨hfold, hresponse⟩

/-- The datagram a request function starts its loop with. -/
def SnmpDatagram.start (sdg : SnmpDatagram) : SnmpDatagram :=
  if sdg.pduHdr.pduType = mibReqBulkget then
    { sdg.setResponse with pduHdr := { sdg.setResponse.pduHdr with errIdx := 0 } }
  else sdg.setResponse

/-- A request that is answered: how far its datagram has changed when `snmp_response` runs. -/
lemma returns_snmpRequestDispatch (sdg : SnmpDatagram) :
    Traced.Returns (fun x => ∀ s r, x = some (s, r) → Progress sdg.start s ∧
      snmpResponse s.sdg = some r) (snmpRequestDispatch handlers root mv sdg) := by
  have hsome : ∀ {request : Traced Call (ProcState × Response)},
      Traced.Returns (fun x => Progress sdg.start x.1 ∧ snmpResponse x.1.sdg = some x.2) request →
      Traced.Returns (fun x => ∀ s r, x = some (s, r) → Progress sdg.start s ∧
        snmpResponse s.sdg = some r) (request >>= fun r => pure (some r)) := by
    refine fun h => h.bind fun x hx => Traced.returns_pure fun s r heq => ?_
    obtain rfl := Option.some.inj heq
    exact hx
  have hfold : ∀ (step : ProcState → VarBind → Traced Call ProcState) (request : MibReq),
      (∀ s vbIn, Progress sdg.start s → Traced.Returns (Progress sdg.start) (step s vbIn)) →
      sdg.pduHdr.pduType ≠ mibReqBulkget →
      Traced.Returns (fun x => Progress sdg.start x.1 ∧ snmpResponse x.1.sdg = some x.2)
        (sdg.setResponse.vbInList.foldlM step (.init request sdg.setResponse) >>= respond) := by
    intro step request hstep hbulk
    refine (Traced.returns_foldlM hstep _ ?_).bind fun s hs => returns_respond hs
    rw [SnmpDatagram.start, if_neg hbulk]
    exact progress_init request _
  simp only [snmpRequestDispatch, requestFunction]
  split_ifs with hget hnext hset hbulk
  · exact hsome (hfold _ .get (fun s vbIn hs => hs.processVarBind _ _ _ vbIn) (by rw [hget]; decide))
  · exact hsome (hfold _ .getNext (fun s vbIn hs => hs.processVarBind _ _ _ vbIn) (by rw [hnext]; decide))
  · exact hsome (hfold _ .set (fun s vbIn hs => hs.processVarBind _ _ _ vbIn) (by rw [hset]; decide))
  · refine hsome (Traced.Returns.bind (Progress.bulkRounds ?_ _) fun s hs => returns_respond hs)
    rw [SnmpDatagram.start, if_pos hbulk]
    exact progress_init .getNext _
  · exact Traced.returns_pure (by simp)

end Runs

/-! ### Lengths and values -/

lemma minimalLength_iff {value : Int32} {len : Nat} :
    MinimalLength value len ↔ len = (berIntEnc value).length :=
  ⟨MinimalLength.eq, fun h => h ▸ minimalLength_berIntEnc value⟩

/-- The error status and the error index of the response to a request whose searches end with the
given statuses. -/
def SnmpDatagram.responseErrors (sdg : SnmpDatagram) (statuses : List Int32) : Int32 × Int32 :=
  let errIdx := if sdg.pduHdr.pduType = mibReqBulkget then 0 else sdg.pduHdr.errIdx
  match firstError 0 statuses with
  | none => (sdg.pduHdr.errStat, errIdx)
  | some (e, n) =>
    if sdg.pduHdr.errStat = 0 then (e, n.toInt32) else (sdg.pduHdr.errStat, errIdx)

/-- The integers of the request have as many content bytes as their values need; for the error
status and the error index these are the values of the response. -/
structure RequestFits (sdg : SnmpDatagram) (statuses : List Int32) : Prop where
  version : MinimalLength sdg.version sdg.verLen
  reqId : MinimalLength sdg.pduHdr.reqId sdg.pduHdr.reqIdLen
  errStat : MinimalLength (sdg.responseErrors statuses).1 sdg.pduHdr.errStatLen
  errIdx : MinimalLength (sdg.responseErrors statuses).2 sdg.pduHdr.errIdxLen
  msgId : 3 ≤ sdg.version → MinimalLength sdg.msgId sdg.msgIdLen
  msgMaxSize : 3 ≤ sdg.version → MinimalLength sdg.msgMaxSize sdg.msgSizeLen
  msgSecurityModel : 3 ≤ sdg.version → MinimalLength sdg.msgSecurityModel sdg.msgModelLen
  engineBoots : 3 ≤ sdg.version → MinimalLength sdg.engineBoots sdg.engineBootsLen
  engineTime : 3 ≤ sdg.version → MinimalLength sdg.engineTime sdg.engineTimeLen

section Sync

variable {sdg : SnmpDatagram} {s : ProcState}

/-- The header of the PDU when `snmp_response` runs. -/
lemma Progress.pduHdr_eq (h : Progress sdg.start s) :
    s.sdg.pduHdr = { sdg.setResponse.pduHdr with
      errStat := (sdg.responseErrors (s.reports.map fun e => e.1.errStat)).1
      errIdx := (sdg.responseErrors (s.reports.map fun e => e.1.errStat)).2 } := by
  rw [h.pduHdr, PduHdr.markAll_eq, SnmpDatagram.responseErrors, SnmpDatagram.start]
  cases firstError 0 (s.reports.map fun e => e.1.errStat) with
  | none => split_ifs <;> rfl
  | some en =>
    by_cases hstat : sdg.pduHdr.errStat = 0
    · split_ifs <;> simp_all [SnmpDatagram.setResponse]
    · split_ifs <;> simp_all [SnmpDatagram.setResponse]

lemma Progress.inSync_iff (h : Progress sdg.start s) :
    LengthsInSync s.sdg ↔ RequestFits sdg (s.reports.map fun e => e.1.errStat) := by
  have hph := h.pduHdr_eq
  generalize s.reports.map (fun e => e.1.errStat) = statuses at hph
  have hstart : sdg.start = { sdg with pduHdr := sdg.start.pduHdr } := by
    simp only [SnmpDatagram.start, SnmpDatagram.setResponse]
    split_ifs <;> rfl
  rw [h.sdg_eq, hph, hstart]
  constructor
  · rintro ⟨h1, h2, h3, h4, h5, h6, h7, h8, h9⟩
    exact ⟨minimalLength_iff.mpr h1, minimalLength_iff.mpr h2, minimalLength_iff.mpr h3,
      minimalLength_iff.mpr h4, fun hv => minimalLength_iff.mpr (h5 hv),
      fun hv => minimalLength_iff.mpr (h6 hv), fun hv => minimalLength_iff.mpr (h7 hv),
      fun hv => minimalLength_iff.mpr (h8 hv), fun hv => minimalLength_iff.mpr (h9 hv)⟩
  · rintro ⟨h1, h2, h3, h4, h5, h6, h7, h8, h9⟩
    exact ⟨h1.eq, h2.eq, h3.eq, h4.eq, fun hv => (h5 hv).eq, fun hv => (h6 hv).eq,
      fun hv => (h7 hv).eq, fun hv => (h8 hv).eq, fun hv => (h9 hv).eq⟩

end Sync

/-- When `snmp_response` runs, the stored lengths are those of the values if and only if the request
fits the response. The response then has the size that is allocated for it, as far as the length of
its varbinds is right. -/
theorem snmpRequestDispatch_lengths_iff {handlers : Handlers} {root : MibNode} {mv : MibViews}
    {sdg : SnmpDatagram} {l l' : List Call} {s : ProcState} {r : Response}
    (hrun : snmpRequestDispatch handlers root mv sdg l = (.ok (some (s, r)), l')) :
    (LengthsInSync s.sdg ↔ RequestFits sdg (s.reports.map fun e => e.1.errStat)) ∧
    (LengthsInSync s.sdg → ∀ parts, s.sdg.vbOutList.mapM varBindEncode = some parts →
      s.sdg.vbListLen = parts.flatten.length → r.written.length < 2 ^ 32 →
      r.written.length = r.alloc ∧ r.len = r.alloc) := by
  obtain ⟨hprogress, hresponse⟩ := returns_snmpRequestDispatch sdg l _ l' hrun s r rfl
  refine ⟨hprogress.inSync_iff, ?_⟩
  intro hsync parts hparts hlist hlt
  have hout : (asn1Lengths s.sdg).vbOutList = s.sdg.vbOutList := by
    simp only [asn1Lengths]
    split_ifs <;> rfl
  simp only [snmpResponse, hout, hparts, Option.map_some, Option.some.injEq] at hresponse
  subst hresponse
  exact ⟨hsync.length_asn1Encode hlist hlt, rfl⟩

theorem snmpRequestDispatch_lengths_iff_sampleGetnext : ∃ s r l',
    snmpRequestDispatch scalarHandlers oneInstance sampleViews { sampleGetnext with verLen := 1 } [] =
      (.ok (some (s, r)), l') ∧ LengthsInSync s.sdg := by
  obtain ⟨s, r, l', hrun, hstatuses⟩ : ∃ s r l', snmpRequestDispatch scalarHandlers oneInstance
      sampleViews { sampleGetnext with verLen := 1 } [] = (.ok (some (s, r)), l') ∧
      s.reports.map (fun e => e.1.errStat) = [0] := ⟨_, _, _, rfl, rfl⟩
  refine ⟨s, r, l', hrun, (snmpRequestDispatch_lengths_iff hrun).1.mpr ?_⟩
  have hold : ¬ 3 ≤ sampleGetnext.version := by decide
  rw [hstatuses]
  exact ⟨minimalLength_iff.mpr (by decide), minimalLength_iff.mpr (by decide),
    minimalLength_iff.mpr (by decide), minimalLength_iff.mpr (by decide), fun h3 => absurd h3 hold,
    fun h3 => absurd h3 hold, fun h3 => absurd h3 hold, fun h3 => absurd h3 hold,
    fun h3 => absurd h3 hold⟩

/-- A GETBULK request of version 2c for 1.3.6.1 with 128 repetitions, which take two bytes. -/
def sampleBulkget : List UInt8 :=
  [0x30, 0x1d, 0x02, 0x01, 0x01, 0x04, 0x01, 0x70, 0xa5, 0x15, 0x02, 0x01, 0x07, 0x02, 0x01, 0x00,
    0x02, 0x02, 0x00, 0x80, 0x30, 0x09, 0x30, 0x07, 0x06, 0x03, 0x2b, 0x06, 0x01, 0x05, 0x00]

/-- The stored length and the value of the error index, and the sizes of the response. -/
def errIdxAndSizes (out : Outcome (Option (ProcState × Response))) : Option (Nat × Int32 × Nat × Nat) :=
  match out with
  | .ok (some (s, r)) => some (s.sdg.pduHdr.errIdxLen, s.sdg.pduHdr.errIdx, r.written.length, r.alloc)
  | _ => none

lemma errIdxAndSizes_eq_some {out : Outcome (Option (ProcState × Response))} {len written alloc : Nat}
    {value : Int32} (h : errIdxAndSizes out = some (len, value, written, alloc)) :
    ∃ s r, out = .ok (some (s, r)) ∧ s.sdg.pduHdr.errIdxLen = len ∧ s.sdg.pduHdr.errIdx = value ∧
      r.written.length = written ∧ r.alloc = alloc := by
  match out, h with
  | .ok (some (s, r)), h =>
    simp only [errIdxAndSizes, Option.some.injEq, Prod.mk.injEq] at h
    exact ⟨s, r, rfl, h⟩

/-- The error index of the response is zero, with a stored length of two bytes; the response is
shorter than announced. -/
theorem snmpdRecv_lengths_sampleBulkget : ∃ s r,
    (snmpdRecv scalarHandlers oneInstance sampleViews sampleBulkget []).1 = .ok (some (s, r)) ∧
    ¬ LengthsInSync s.sdg ∧ r.written.length < r.alloc := by
  have hrun : errIdxAndSizes (snmpdRecv scalarHandlers oneInstance sampleViews sampleBulkget []).1 =
      some (2, 0, 1179, 1180) := by
    decide +kernel
  obtain ⟨s, r, hout, hlen, hidx, hwritten, halloc⟩ := errIdxAndSizes_eq_some hrun
  refine ⟨s, r, hout, fun hsync => ?_, by omega⟩
  have := hsync.errIdxLen
  rw [hlen, hidx] at this
  exact absurd this (by decide)

end SmartSnmp
