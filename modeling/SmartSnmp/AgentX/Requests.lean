import SmartSnmp.AgentX.Range
import SmartSnmp.Snmp.Access
import SmartSnmp.Snmp.ErrorStatus

/-!
# Requests of a master agent

The loops of `agentx_get`, `agentx_getnext` and `agentx_set`, whatever the handlers do. Each element of
a request becomes a varbind of the response. The first one with an error is marked in two fields of 16
bits, which an error status or a position need not fit.
-/

namespace SmartSnmp

open MibNode

/-! ### The datagram that is dispatched -/

/-- Nothing is left in a datagram of what was received or sent before, and its ranges start where a
decoded OID can lie. -/
structure AgentxDatagram.Fresh (xdg : AgentxDatagram) : Prop where
  out : xdg.vbOutList = []
  error : xdg.pduHdr.type ≠ agentxPduResponse → xdg.error = 0
  index : xdg.pduHdr.type ≠ agentxPduResponse → xdg.index = 0
  placed : ∀ sr ∈ xdg.srInList, Placed sr.start

lemma fresh_of_contextParse {ph : XPduHdr} {xdg : AgentxDatagram}
    (h : Reader.Yields (contextParse (.clear ph)) xdg) :
    xdg.Fresh ∧ xdg.error = 0 ∧ xdg.index = 0 := by
  have hclear : (AgentxDatagram.clear ph).Fresh := ⟨rfl, fun _ => rfl, fun _ => rfl, by simp [AgentxDatagram.clear]⟩
  rw [contextParse] at h
  split_ifs at h
  · obtain ⟨ctxLen, -, h⟩ := h.of_bind
    obtain ⟨-, -, h⟩ := h.of_bind
    obtain ⟨context, -, h⟩ := h.of_bind
    obtain ⟨-, -, h⟩ := h.of_bind
    obtain rfl := h.of_pure
    exact ⟨⟨rfl, fun _ => rfl, fun _ => rfl, hclear.placed⟩, rfl, rfl⟩
  · obtain rfl := h.of_pure
    exact ⟨hclear, rfl, rfl⟩

lemma fresh_of_xPduHdrParse {xdg : AgentxDatagram} (h : Reader.Yields xPduHdrParse xdg) : xdg.Fresh := by
  obtain ⟨ph, -, h⟩ := h.of_bind
  obtain ⟨xdg', hcontext, h⟩ := h.of_bind
  obtain ⟨hfresh, herror, hindex⟩ := fresh_of_contextParse hcontext
  rw [additionalParse] at h
  split_ifs at h with hclose hbulk hresponse
  · obtain ⟨reason, -, h⟩ := h.of_bind
    obtain ⟨-, -, h⟩ := h.of_bind
    obtain rfl := h.of_pure
    exact ⟨hfresh.out, fun _ => herror, fun _ => hindex, hfresh.placed⟩
  · obtain ⟨nonRep, -, h⟩ := h.of_bind
    obtain ⟨maxRep, -, h⟩ := h.of_bind
    obtain rfl := h.of_pure
    exact ⟨hfresh.out, fun _ => herror, fun _ => hindex, hfresh.placed⟩
  · obtain ⟨sysUpTime, -, h⟩ := h.of_bind
    obtain ⟨error, -, h⟩ := h.of_bind
    obtain ⟨index, -, h⟩ := h.of_bind
    obtain rfl := h.of_pure
    exact ⟨hfresh.out, fun h => absurd hresponse h, fun h => absurd hresponse h, hfresh.placed⟩
  · obtain rfl := h.of_pure
    exact hfresh

lemma yields_of_payloadLoop {α : Type} {alloc : Reader AgentxErrCode (α × Nat)} {fuel : Nat} {n left : UInt32}
    {elems : List α} (h : Reader.Yields (payloadLoop alloc fuel n) (elems, left)) :
    ∀ x ∈ elems, ∃ used, Reader.Yields alloc (x, used) := by
  induction fuel generalizing n left elems with
  | zero =>
    obtain ⟨bs, rest, h⟩ := h
    cases h
  | succ fuel ih =>
    rw [payloadLoop] at h
    split_ifs at h
    · obtain ⟨rfl, -⟩ := Prod.mk.inj h.of_pure
      simp
    · obtain ⟨⟨x, used⟩, hx, h⟩ := h.of_bind
      obtain ⟨⟨elems', left'⟩, hrest, h⟩ := h.of_bind
      obtain ⟨rfl, -⟩ := Prod.mk.inj h.of_pure
      exact List.forall_mem_cons.mpr ⟨⟨used, hx⟩, ih hrest⟩

/-- What `agentx_recv` dispatches. -/
lemma fresh_of_agentxRecv {buffer : List UInt8} {len : Int} {xdg : AgentxDatagram}
    (h : agentxRecv buffer len = some (.ok xdg)) : xdg.Fresh := by
  have hyields : Reader.Yields agentxDatagramDecode xdg := by
    rw [agentxRecv, agentxDecode] at h
    split_ifs at h
    rcases hdec : agentxDatagramDecode buffer with (e | ⟨xdg', rest⟩) | _ | _ <;> rw [hdec] at h
    · cases h
    · obtain rfl : xdg' = xdg := by simpa using h
      exact ⟨buffer, rest, hdec⟩
    · cases h
    · cases h
  obtain ⟨xdg', hhdr, h⟩ := hyields.of_bind
  have hfresh := fresh_of_xPduHdrParse hhdr
  split_ifs at h
  · obtain ⟨⟨srs, left⟩, hsrs, h⟩ := h.of_bind
    obtain rfl := h.of_pure
    refine ⟨hfresh.out, hfresh.error, hfresh.index, fun sr hsr => ?_⟩
    obtain ⟨bs, rest, hsrs⟩ := hsrs
    obtain ⟨used, hused⟩ := yields_of_payloadLoop ⟨bs, rest, hsrs⟩ sr hsr
    exact placed_of_searchRangeAlloc hused
  · obtain ⟨⟨vbs, left⟩, -, h⟩ := h.of_bind
    obtain rfl := h.of_pure
    exact ⟨hfresh.out, hfresh.error, hfresh.index, hfresh.placed⟩
  · obtain rfl := h.of_pure
    exact hfresh

/-! ### Marking the first error -/

namespace AgentX

/-- The marks for the statuses of some elements in order, the first of which is the one behind `cnt`. -/
def markAll (xdg : AgentxDatagram) (cnt : UInt32) : List Int32 → AgentxDatagram
  | [] => xdg
  | e :: statuses => markAll (mark xdg e (cnt + 1)) (cnt + 1) statuses

lemma markAll_append (xdg : AgentxDatagram) (cnt : UInt32) (before after : List Int32) :
    markAll xdg cnt (before ++ after) =
      markAll (markAll xdg cnt before) (cnt + UInt32.ofNat before.length) after := by
  induction before generalizing xdg cnt with
  | nil => simp [markAll]
  | cons e before ih =>
    rw [List.cons_append, markAll, ih, markAll, List.length_cons, UInt32.add_assoc,
      UInt32.ofNat_add before.length 1, UInt32.add_comm 1]
    rfl

lemma mark_zero (xdg : AgentxDatagram) (cnt : UInt32) : mark xdg 0 cnt = xdg := if_neg (by simp)

lemma mark_of_marked {xdg : AgentxDatagram} (h : xdg.error ≠ 0) (e : Int32) (cnt : UInt32) :
    mark xdg e cnt = xdg := if_neg (by simp [h])

lemma markAll_zero {statuses : List Int32} (hall : ∀ e ∈ statuses, e = 0) (xdg : AgentxDatagram)
    (cnt : UInt32) : markAll xdg cnt statuses = xdg := by
  induction statuses generalizing cnt with
  | nil => rfl
  | cons e statuses ih =>
    obtain ⟨rfl, hrest⟩ := List.forall_mem_cons.mp hall
    rw [markAll, mark_zero, ih hrest]

/-- A mark stays. -/
lemma markAll_of_marked {xdg : AgentxDatagram} (h : xdg.error ≠ 0) (statuses : List Int32)
    (cnt : UInt32) : markAll xdg cnt statuses = xdg := by
  induction statuses generalizing cnt with
  | nil => rfl
  | cons e statuses ih => rw [markAll, mark_of_marked h, ih]

/-- Only the two fields are marked. -/
lemma markAll_frame (xdg : AgentxDatagram) (cnt : UInt32) (statuses : List Int32) :
    markAll xdg cnt statuses = { xdg with
      error := (markAll xdg cnt statuses).error
      index := (markAll xdg cnt statuses).index } := by
  induction statuses generalizing xdg cnt with
  | nil => rfl
  | cons e statuses ih =>
    rw [markAll, ih]
    rw [mark]
    split_ifs <;> rfl

end AgentX

/-- The first error fits the two fields: its status and its position are positive in 16 bits. -/
def FitsFields (statuses : List Int32) : Prop :=
  ∀ before e after, statuses = before ++ e :: after → (∀ x ∈ before, x = 0) → e ≠ 0 →
    (0 ≤ e.toInt ∧ e.toInt < 2 ^ 16) ∧ before.length + 1 < 2 ^ 16

/-- A field, as an integer, is an error status if and only if the status is in its range and was stored
in it. -/
lemma toInt32_eq_iff (n : UInt16) (e : Int32) :
    n.toUInt32.toInt32 = e ↔ (0 ≤ e.toInt ∧ e.toInt < 2 ^ 16) ∧ e.toUInt32.toUInt16 = n := by
  have hn : n.toUInt32.toInt32.toInt = n.toNat := by
    have hlt := n.toNat_lt
    rw [toInt_toInt32, UInt16.toNat_toUInt32, if_pos (by omega)]
  constructor
  · rintro rfl
    rw [hn]
    exact ⟨⟨Int.natCast_nonneg _, by exact_mod_cast n.toNat_lt⟩, by simp⟩
  · rintro ⟨⟨hle, hlt⟩, rfl⟩
    have he := toInt_toInt32 e.toUInt32
    have hself : e.toUInt32.toInt32 = e := by simp
    rw [hself] at he
    apply Int32.toInt_inj.mp
    rw [hn, UInt32.toNat_toUInt16]
    have := e.toUInt32.toNat_lt
    split_ifs at he <;> omega

/-- A position is exact in its field as long as it is positive in 16 bits. -/
lemma toInt_position (n : Nat) :
    (UInt32.ofNat n).toUInt16.toUInt32.toInt32.toInt = n ↔ n < 2 ^ 16 := by
  have hlt := (UInt32.ofNat n).toUInt16.toNat_lt
  rw [toInt_toInt32, UInt16.toNat_toUInt32, if_pos (by omega), UInt32.toNat_toUInt16,
    UInt32.toNat_ofNat', Nat.mod_mod_of_dvd _ (by decide)]
  exact_mod_cast Nat.mod_eq_iff_lt (by decide)

/-- The marks name the first error if and only if it fits the fields. -/
lemma namesFirst_markAll_iff {xdg : AgentxDatagram} (herror : xdg.error = 0) (hindex : xdg.index = 0)
    (statuses : List Int32) :
    NamesFirst statuses (AgentX.markAll xdg 0 statuses).error.toUInt32.toInt32
      (AgentX.markAll xdg 0 statuses).index.toUInt32.toInt32 ↔ FitsFields statuses := by
  obtain hall | ⟨before, e, after, rfl, hbefore, he⟩ := split_first_error statuses
  · rw [AgentX.markAll_zero hall, namesFirst_of_clear hall, herror, hindex]
    refine iff_of_true ⟨rfl, rfl⟩ ?_
    rintro before e after rfl - he
    exact absurd (hall e (by simp)) he
  · have hfits : FitsFields (before ++ e :: after) ↔
        (0 ≤ e.toInt ∧ e.toInt < 2 ^ 16) ∧ before.length + 1 < 2 ^ 16 := by
      refine ⟨fun h => h before e after rfl hbefore he, fun h before' e' after' heq hbefore' he' => ?_⟩
      obtain ⟨rfl, rfl⟩ := first_error_unique hbefore he hbefore' he' heq
      exact h
    have hmarked : AgentX.markAll xdg 0 (before ++ e :: after) =
        AgentX.markAll (AgentX.mark xdg e (UInt32.ofNat (before.length + 1)))
          (UInt32.ofNat (before.length + 1)) after := by
      rw [AgentX.markAll_append, AgentX.markAll_zero hbefore, AgentX.markAll, UInt32.zero_add,
        UInt32.ofNat_add]
      rfl
    have hmark : AgentX.mark xdg e (UInt32.ofNat (before.length + 1)) = { xdg with
        error := e.toUInt32.toUInt16
        index := (UInt32.ofNat (before.length + 1)).toUInt16 } := if_pos ⟨he, herror⟩
    rw [namesFirst_of_error hbefore he, hfits, hmarked]
    by_cases hlost : e.toUInt32.toUInt16 = 0
    · -- the status is lost in its field
      have hnot : ¬ (0 ≤ e.toInt ∧ e.toInt < 2 ^ 16) := by
        intro hrange
        have hzero := (toInt32_eq_iff 0 e).mpr ⟨hrange, hlost⟩
        exact he hzero.symm
      exact iff_of_false (fun h => hnot ((toInt32_eq_iff _ e).mp h.1).1) fun h => hnot h.1
    · rw [hmark, AgentX.markAll_of_marked hlost]
      have hpos := toInt_position (before.length + 1)
      push_cast at hpos
      exact and_congr ((toInt32_eq_iff _ e).trans (and_iff_left rfl)) hpos

/-! ### The loops -/

namespace AgentX

/-- The statuses that the searches have reported. -/
def ProcState.statuses (s : ProcState) : List Int32 := s.reports.map fun e => e.1.errStat

/-- What the iterations for the elements `done` have made of the datagram `xdg`. -/
structure Progress {γ : Type} (req : MibReq) (Named : γ → XVarBind → Prop) (xdg : AgentxDatagram)
    (done : List γ) (s : ProcState) : Prop where
  request : s.ret.request = req
  cnt : s.cnt = UInt32.ofNat done.length
  named : List.Forall₂ Named done (s.reports.map Prod.snd)
  xdg : s.xdg = { markAll xdg 0 s.statuses with
    vbOutList := xdg.vbOutList ++ s.reports.map Prod.snd }

section Progress

variable {γ : Type} {req : MibReq} {Named : γ → XVarBind → Prop} {xdg : AgentxDatagram} {done : List γ}
  {s : ProcState}

lemma progress_init (req : MibReq) (Named : γ → XVarBind → Prop) (xdg : AgentxDatagram) :
    Progress req Named xdg [] (.init req xdg) where
  request := rfl
  cnt := rfl
  named := .nil
  xdg := by simp [ProcState.init, ProcState.statuses, markAll]

lemma Progress.add (h : Progress req Named xdg done s) {ret : OidSearchRes} (hreq : ret.request = req)
    {a : γ} {vbOut : XVarBind} (hvb : Named a vbOut) :
    Progress req Named xdg (done ++ [a]) (s.add ret vbOut) where
  request := hreq
  cnt := by
    rw [ProcState.add, h.cnt, List.length_append, UInt32.ofNat_add]
    rfl
  named := by
    rw [ProcState.add, List.map_append]
    exact List.rel_append h.named (.cons hvb .nil)
  xdg := by
    have hlen : s.statuses.length = done.length := by
      rw [h.named.length_eq, ProcState.statuses, List.length_map, List.length_map]
    have hstatuses : (s.add ret vbOut).statuses = s.statuses ++ [ret.errStat] := by
      simp [ProcState.statuses, ProcState.add]
    have hmark : ∀ (m : AgentxDatagram) (vbs vbs' : List XVarBind) (cnt : UInt32),
        { mark { m with vbOutList := vbs } ret.errStat cnt with vbOutList := vbs' } =
          { mark m ret.errStat cnt with vbOutList := vbs' } := by
      intro m vbs vbs' cnt
      simp only [mark]
      split_ifs <;> rfl
    have hadd : (s.add ret vbOut).xdg = { mark s.xdg ret.errStat (s.cnt + 1) with
        vbOutList := s.xdg.vbOutList ++ [vbOut] } := rfl
    have hreports : (s.add ret vbOut).reports.map Prod.snd = s.reports.map Prod.snd ++ [vbOut] := by
      simp [ProcState.add]
    rw [hstatuses, markAll_append, markAll, markAll, UInt32.zero_add, hlen, hadd, hreports, h.cnt, h.xdg,
      hmark, List.append_assoc]

/-- An iteration: a search, and the varbind of what it returns. -/
lemma Progress.step (h : Progress req Named xdg done s) {a : γ} {C : List Call → Prop}
    {search : Traced Call OidSearchRes} {varBind : OidSearchRes → Option XVarBind}
    (status : OidSearchRes → OidSearchRes) (hstatus : ∀ res, (status res).request = res.request)
    {l : List Call} (hsearch : Traced.Spec search l fun out new => C new ∧ ∀ res, out = .ok res →
      res.request = req ∧ ∀ vbOut, varBind res = some vbOut → Named a vbOut) :
    Traced.Spec (search >>= fun res => match varBind res with
      | some vbOut => pure (s.add (status res) vbOut)
      | none => Traced.crash) l fun out new =>
        C new ∧ ∀ s', out = .ok s' → Progress req Named xdg (done ++ [a]) s' := by
  refine Traced.spec_bind hsearch ?_ ?_ ?_
  · rintro res new ⟨hnew, hres⟩
    obtain ⟨hreq, hnamed⟩ := hres res rfl
    cases hvb : varBind res with
    | none => exact Traced.spec_crash ⟨by simpa using hnew, by simp⟩
    | some vbOut =>
      refine Traced.spec_pure ⟨by simpa using hnew, ?_⟩
      rintro s' ⟨⟩
      exact h.add ((hstatus res).trans hreq) (hnamed vbOut hvb)
  · intro new hnew
    exact ⟨hnew.1, by simp⟩
  · intro new hnew
    exact ⟨hnew.1, by simp⟩

end Progress

/-! ### Calls -/

/-- What is called for an OID: nothing, or in the part of the tree that is served the handler of the
instance that the OID lies in. -/
def CallsFor (root : MibNode) (req : MibReq) (oid : Oid) (calls : List Call) : Prop :=
  calls = [] ∨ agentxDummyView <+: oid ∧ ∃ c, calls = [c] ∧ c.op = req ∧ c.IsFor root oid

section Steps

variable {handlers : Handlers} {root : MibNode} (hroot : RootOk root) {tail : UInt32 → UInt32}
  {xdg : AgentxDatagram} {s : ProcState}

lemma getVarBind_oid {tail : UInt32} {ret : OidSearchRes} {vbOut : XVarBind}
    (h : getVarBind tail ret = some vbOut) : vbOut.oid = ret.oid := by
  obtain ⟨value, -, rfl⟩ := Option.map_eq_some_iff.mp h
  rfl

/-- The varbind of a SET has the type of the one that is set. -/
lemma setVarBind_named {tail : UInt32} {vbIn : XVarBind} {ret : OidSearchRes} {vbOut : XVarBind}
    (h : setVarBind tail vbIn ret = some vbOut) : vbOut.oid = ret.oid ∧ vbOut.valType = vbIn.valType := by
  obtain ⟨value, -, rfl⟩ := Option.map_eq_some_iff.mp h
  exact ⟨rfl, rfl⟩

lemma decodeValue_request {vbIn : XVarBind} {ret ret' : OidSearchRes}
    (h : decodeValue vbIn ret = some ret') : ret'.request = ret.request := by
  obtain ⟨bytes, -, h⟩ := Option.bind_eq_some_iff.mp h
  obtain ⟨value, -, rfl⟩ := Option.map_eq_some_iff.mp h
  rfl

include hroot

/-- A search in a range calls no handler for SET. -/
lemma safe_mibGetnext (sr : XSearchRange) {ret : OidSearchRes} (hreq : ret.request = .getNext) :
    Traced.Safe (·.op ≠ .set) (·.request = .getNext) (mibGetnext handlers root sr ret) := by
  have hbehind : ∀ ret : OidSearchRes, ret.request = .getNext →
      Traced.Safe (·.op ≠ .set) (·.request = .getNext) (mibGetBehind handlers root sr ret) := by
    intro ret hreq
    refine (safe_mibTreeSearchNext_request hroot agentxDummyView sr.start hreq).bind fun res hres => ?_
    split_ifs
    · exact Traced.safe_pure hres
    · exact Traced.safe_pure hres
  rw [mibGetnext]
  split_ifs
  · have hstart : Traced.Safe (·.op ≠ .set) (·.request = .getNext)
        (searchAt handlers root sr.start agentxDummyView ret) := by
      intro l
      apply (searchAt_spec hroot sr.start agentxDummyView ret l).mono
      rintro out new ⟨hnew, hres⟩
      refine ⟨?_, fun res hout => (hres res hout).2.1.trans hreq⟩
      rcases hnew with rfl | ⟨-, c, rfl, hop, -⟩
      · simp
      · simp [hop, hreq]
    refine hstart.bind fun res hres => ?_
    split_ifs
    · exact hbehind res hres
    · cases hover : res.overwrite with
      | none => exact Traced.safe_crash
      | some res' =>
        rw [OidSearchRes.overwrite] at hover
        split_ifs at hover
        obtain rfl := Option.some.inj hover
        exact Traced.safe_pure hres
  · exact hbehind ret hreq

lemma xGetStep_spec {done : List XSearchRange}
    (h : Progress .get (fun (sr : XSearchRange) vbOut => vbOut.oid = sr.start) xdg done s) (sr : XSearchRange)
    (l : List Call) :
    Traced.Spec (xGetStep handlers root tail s sr) l fun out new => CallsFor root .get sr.start new ∧
      ∀ s', out = .ok s' →
        Progress .get (fun (sr : XSearchRange) vbOut => vbOut.oid = sr.start) xdg (done ++ [sr]) s' := by
  refine h.step id (fun _ => rfl) ?_
  apply (searchAt_spec hroot sr.start agentxDummyView s.ret l).mono
  rintro out new ⟨hnew, hres⟩
  refine ⟨h.request ▸ hnew, fun res hout => ?_⟩
  obtain ⟨hoid, hreq, -⟩ := hres res hout
  exact ⟨hreq.trans h.request, fun vbOut hvb => (getVarBind_oid hvb).trans hoid⟩

lemma xGetnextStep_spec {done : List XSearchRange}
    (h : Progress .getNext (fun _ _ => True) xdg done s) (sr : XSearchRange) (l : List Call) :
    Traced.Spec (xGetnextStep handlers root tail s sr) l fun out new => (∀ c ∈ new, c.op ≠ .set) ∧
      ∀ s', out = .ok s' → Progress .getNext (fun _ _ => True) xdg (done ++ [sr]) s' := by
  refine h.step id (fun _ => rfl) ?_
  apply (safe_mibGetnext hroot sr h.request l).mono
  rintro out new ⟨hnew, hres⟩
  exact ⟨hnew, fun res hout => ⟨hres res hout, fun _ _ => trivial⟩⟩

lemma xSetStep_spec {done : List XVarBind}
    (h : Progress .set (fun (vbIn : XVarBind) vbOut => vbOut.oid = vbIn.oid ∧ vbOut.valType = vbIn.valType) xdg
      done s) (vbIn : XVarBind) (l : List Call) :
    Traced.Spec (xSetStep handlers root tail s vbIn) l fun out new => CallsFor root .set vbIn.oid new ∧
      ∀ s', out = .ok s' → Progress .set (fun (vbIn : XVarBind) vbOut => vbOut.oid = vbIn.oid ∧
        vbOut.valType = vbIn.valType) xdg (done ++ [vbIn]) s' := by
  rw [xSetStep]
  cases hdec : decodeValue vbIn s.ret with
  | none => exact Traced.spec_crash ⟨.inl rfl, by simp⟩
  | some ret =>
    have hset : ret.request = .set := (decodeValue_request hdec).trans h.request
    refine h.step setStatus setStatus_request ?_
    apply (searchAt_spec hroot vbIn.oid agentxDummyView ret l).mono
    rintro out new ⟨hnew, hres⟩
    refine ⟨hset ▸ hnew, fun res hout => ?_⟩
    obtain ⟨hoid, hreq, -⟩ := hres res hout
    refine ⟨hreq.trans hset, fun vbOut hvb => ?_⟩
    obtain ⟨hvboid, htype⟩ := setVarBind_named hvb
    exact ⟨hvboid.trans hoid, htype⟩

end Steps

/-! ### Requests -/

/-- A response to the elements of the datagram `xdg`: a varbind for each of them in order, and in the
header the first error, if it fits. -/
structure Answered {γ : Type} (Named : γ → XVarBind → Prop) (xdg : AgentxDatagram) (elems : List γ)
    (s : ProcState) (pdu : XPduBuf) : Prop where
  reported : s.xdg.vbOutList = s.reports.map Prod.snd
  named : List.Forall₂ Named elems s.xdg.vbOutList
  errors : NamesFirst s.statuses s.xdg.error.toUInt32.toInt32 s.xdg.index.toUInt32.toInt32 ↔
    FitsFields s.statuses
  kept : s.xdg = { xdg with
    error := s.xdg.error
    index := s.xdg.index
    vbOutList := s.xdg.vbOutList }
  response : agentxResponsePdu s.xdg = some pdu

/-- What a function for requests asks and answers. -/
structure Serves {γ : Type} (Calls : γ → List Call → Prop) (Named : γ → XVarBind → Prop)
    (xdg : AgentxDatagram) (elems : List γ) (out : Outcome (Option (ProcState × XPduBuf)))
    (calls : List Call) : Prop where
  calls : Traced.Turns Calls elems calls
  answered : ∀ s pdu, out = .ok (some (s, pdu)) → Answered Named xdg elems s pdu

end AgentX

namespace AgentX

section Requests

variable {γ : Type} {req : MibReq} {Calls : γ → List Call → Prop} {Named : γ → XVarBind → Prop}
  {xdg : AgentxDatagram}

lemma Progress.answered {elems : List γ} {s : ProcState} {pdu : XPduBuf} (hfresh : xdg.Fresh)
    (htype : xdg.pduHdr.type ≠ agentxPduResponse) (h : Progress req Named xdg elems s)
    (hpdu : agentxResponsePdu s.xdg = some pdu) : Answered Named xdg elems s pdu := by
  have hout : s.xdg.vbOutList = s.reports.map Prod.snd := by rw [h.xdg, hfresh.out, List.nil_append]
  refine ⟨hout, hout ▸ h.named, ?_, ?_, hpdu⟩
  · rw [h.xdg]
    exact namesFirst_markAll_iff (hfresh.error htype) (hfresh.index htype) s.statuses
  · conv_lhs => rw [h.xdg, markAll_frame]
    rw [h.xdg]

/-- A function whose iterations are described serves its requests. -/
lemma serves_of_step {step : ProcState → γ → Traced Call ProcState} (hfresh : xdg.Fresh)
    (htype : xdg.pduHdr.type ≠ agentxPduResponse)
    (elems : List γ) (hstep : ∀ done s l, ∀ a ∈ elems, Progress req Named xdg done s →
      Traced.Spec (step s a) l fun out new =>
        Calls a new ∧ ∀ s', out = .ok s' → Progress req Named xdg (done ++ [a]) s') (l : List Call) :
    Traced.Spec (some <$> (elems.foldlM step (.init req xdg) >>= agentxResponse)) l
      (Serves Calls Named xdg elems) := by
  change Traced.Spec ((elems.foldlM step (.init req xdg) >>= agentxResponse) >>= fun r => pure (some r)) l _
  rw [Traced.bind_assoc]
  refine Traced.spec_bind (Traced.spec_foldlM elems hstep (progress_init req Named xdg) l) ?_ ?_ ?_
  · rintro s new ⟨hturns, hs⟩
    have hturns' : Traced.Turns Calls elems (new ++ []) := by rwa [List.append_nil]
    rw [agentxResponse]
    cases hpdu : agentxResponsePdu s.xdg with
    | none => exact Traced.spec_crash ⟨hturns', by simp⟩
    | some pdu =>
      refine Traced.spec_pure ⟨hturns', ?_⟩
      rintro s' pdu' ⟨⟩
      exact Progress.answered hfresh htype (hs s rfl) hpdu
  · intro new h
    exact ⟨h.1, by simp⟩
  · intro new h
    exact ⟨h.1, by simp⟩

end Requests

/-- How the requests of a master agent are served, by the function that they are passed to. -/
structure RequestServed (root : MibNode) (xdg : AgentxDatagram)
    (out : Outcome (Option (ProcState × XPduBuf))) (calls : List Call) : Prop where
  get : agentxRequestDispatch xdg.pduHdr.type = some .agentxGet →
    Serves (fun sr => CallsFor root .get sr.start) (fun sr vbOut => vbOut.oid = sr.start) xdg
      xdg.srInList out calls
  getnext : agentxRequestDispatch xdg.pduHdr.type = some .agentxGetnext →
    Serves (fun _ new => ∀ c ∈ new, c.op ≠ .set) (fun _ _ => True) xdg xdg.srInList out calls
  set : agentxRequestDispatch xdg.pduHdr.type = some .agentxSet →
    Serves (fun vbIn => CallsFor root .set vbIn.oid) (fun vbIn vbOut => vbOut.oid = vbIn.oid ∧
      vbOut.valType = vbIn.valType) xdg xdg.vbInList out calls
  response : agentxRequestDispatch xdg.pduHdr.type = some .agentxResponse →
    Serves (fun (_ : XVarBind) _ => False) (fun _ _ => False) xdg [] out calls
  none : agentxRequestDispatch xdg.pduHdr.type = none → out = .ok none ∧ calls = []

end AgentX

/-- Every request of a master agent is served like that, whatever the handlers do. -/
theorem agentxRequest_serves {root : MibNode} (hreach : Reachable root) (handlers : Handlers)
    (tail : UInt32 → UInt32) {buffer : List UInt8} {len : Int} {xdg : AgentxDatagram}
    (hrecv : agentxRecv buffer len = some (.ok xdg)) (l : List Call) :
    Traced.Spec (agentxRequest handlers root tail xdg) l (AgentX.RequestServed root xdg) := by
  have hfresh := fresh_of_agentxRecv hrecv
  have hroot := hreach.rootOk
  have htype : ∀ f, agentxRequestDispatch xdg.pduHdr.type = some f →
      xdg.pduHdr.type ≠ agentxPduResponse := by
    rintro f hf heq
    rw [heq] at hf
    cases hf
  rw [agentxRequest]
  rcases hf : agentxRequestDispatch xdg.pduHdr.type with _ | f
  · exact Traced.spec_pure ⟨by simp [hf], by simp [hf], by simp [hf], by simp [hf], fun _ => ⟨rfl, rfl⟩⟩
  · have hne := htype f hf
    cases f with
    | agentxGet =>
      refine (AgentX.serves_of_step hfresh hne xdg.srInList
        (fun done s l sr _ h => AgentX.xGetStep_spec hroot h sr l) l).mono fun out new h => ?_
      exact ⟨fun _ => h, by simp [hf], by simp [hf], by simp [hf], by simp [hf]⟩
    | agentxGetnext =>
      refine (AgentX.serves_of_step hfresh hne xdg.srInList
        (fun done s l sr _ h => AgentX.xGetnextStep_spec hroot h sr l) l).mono fun out new h => ?_
      exact ⟨by simp [hf], fun _ => h, by simp [hf], by simp [hf], by simp [hf]⟩
    | agentxSet =>
      refine (AgentX.serves_of_step hfresh hne xdg.vbInList
        (fun done s l vbIn _ h => AgentX.xSetStep_spec hroot h vbIn l) l).mono fun out new h => ?_
      exact ⟨by simp [hf], by simp [hf], fun _ => h, by simp [hf], by simp [hf]⟩
    | agentxResponse =>
      have hloop : Traced.Spec
          (some <$> (([] : List XVarBind).foldlM (fun s _ => pure s) (.init .get xdg) >>= agentxResponse))
          l (AgentX.Serves (fun _ _ => False) (fun _ _ => False) xdg []) :=
        AgentX.serves_of_step hfresh hne [] (by simp) l
      refine hloop.mono fun out new h => ?_
      exact ⟨by simp [hf], by simp [hf], by simp [hf], fun _ => h, by simp [hf]⟩

/-- A TestSet for `1.3.6.1.5.0`, an instance, and for `1.3.6.1.6.0`, which is none. -/
def sampleXSets : List UInt8 :=
  [1, 8, 0, 0] ++ bytes32 1 ++ bytes32 2 ++ bytes32 3 ++ bytes32 32 ++
    ([2, 0, 0, 0] ++ ([1, 5, 0, 0] ++ bytes32 0) ++ bytes32 7) ++
    ([2, 0, 0, 0] ++ ([1, 6, 0, 0] ++ bytes32 0) ++ bytes32 7)

def sampleXSetsReceived : AgentxDatagram :=
  { AgentxDatagram.clear ⟨1, agentxPduTestset, 0, 0, 1, 2, 3, 0⟩ with
    vbInList :=
      [⟨[1, 3, 6, 1, 5, 0], asn1TagInt.toUInt16, 1, bytes32 7, []⟩,
        ⟨[1, 3, 6, 1, 6, 0], asn1TagInt.toUInt16, 1, bytes32 7, []⟩] }

/-- The statuses that were reported, and the marks. -/
def AgentX.errorFields (out : Outcome (Option (AgentX.ProcState × XPduBuf))) :
    Option (List Int32 × UInt16 × UInt16) :=
  match out with
  | .ok (some (s, _)) => some (s.statuses, s.xdg.error, s.xdg.index)
  | _ => none

theorem agentxRequest_serves_sampleXSets :
    Traced.Spec (agentxRequest exactHandlers internetTree (fun _ => 0) sampleXSetsReceived) []
      (AgentX.RequestServed internetTree sampleXSetsReceived) ∧
    AgentX.errorFields (agentxRequest exactHandlers internetTree (fun _ => 0) sampleXSetsReceived []).1 =
      some ([0, 17], 17, 2) := by
  have hrecv : agentxRecv sampleXSets 52 = some (.ok sampleXSetsReceived) := by rfl
  exact ⟨agentxRequest_serves reachable_internetTree exactHandlers (fun _ => 0) hrecv [],
    by decide +kernel⟩

/-! ### Reading -/

/-- A varbind carries an answer at an OID. -/
structure XVarBind.Carries (vb : XVarBind) (oid : Oid) (a : Answer) : Prop where
  oid : vb.oid = oid
  type : vb.valType = a.tag.toUInt16
  value : a.stored.map Prod.snd = some vb.value

/-- A varbind says that a range has no instance. -/
structure XVarBind.EndsRange (vb : XVarBind) (sr : XSearchRange) : Prop where
  oid : vb.oid = sr.start
  type : vb.valType = asn1TagEndOfMibView.toUInt16
  value : vb.value = []

/-- A varbind as the loops create it: no counter of 64 bits, and all of its value and its tail. -/
structure XVarBind.Created (vb : XVarBind) : Prop where
  type : vb.valType ≠ asn1TagCnt64.toUInt16
  len : vb.valLen = vb.value.length
  tail : vb.tail.length = 4

lemma XVarBind.Created.encode {vb : XVarBind} (h : vb.Created) : ∃ bs, xVarBindEncode vb = some bs := by
  have hbytes : ∀ n ≤ vb.value.length + 4, ∃ bs, valueBytes vb n = some bs := by
    intro n hn
    exact ⟨_, if_pos (by rwa [List.length_append, h.tail])⟩
  have hvalue : ∃ bs, valueEncode vb = some bs := by
    rw [valueEncode]
    split_ifs with hword hcnt hstr hobj
    · exact hbytes 4 (Nat.le_add_left 4 _)
    · exact absurd hcnt h.type
    · obtain ⟨bs, hbs⟩ := hbytes vb.valLen (by rw [h.len]; exact Nat.le_add_right _ 4)
      rw [hbs]
      exact ⟨_, rfl⟩
    · obtain ⟨bs, hbs⟩ := hbytes (vb.valLen / 4 * 4)
        ((Nat.div_mul_le_self _ 4).trans (by rw [h.len]; exact Nat.le_add_right _ 4))
      rw [hbs]
      exact ⟨_, rfl⟩
    · exact ⟨[], rfl⟩
  obtain ⟨bs, hbs⟩ := hvalue
  rw [xVarBindEncode, hbs]
  exact ⟨_, rfl⟩

lemma agentxResponsePdu_of_created {xdg : AgentxDatagram} (h : ∀ vb ∈ xdg.vbOutList, vb.Created) :
    ∃ pdu, agentxResponsePdu xdg = some pdu := by
  obtain ⟨parts, hparts⟩ := Traced.exists_mapM_eq_some fun vb hvb => (h vb hvb).encode
  rw [agentxResponsePdu, hparts]
  exact ⟨_, rfl⟩

/-- What is encoded for a type with values are the bytes of its extent. -/
lemma agentxValueEnc_of_valueTag {tag : UInt8} (htag : valueTag tag = true) (mem : List UInt8)
    (len : Nat) : agentxValueEncTry len tag = extent tag len ∧
      agentxValueEnc mem len tag = bytesAt mem (extent tag len) := by
  simp only [valueTag, Bool.or_eq_true, decide_eq_true_eq] at htag
  rcases htag with (((((rfl | rfl) | rfl) | rfl) | rfl) | rfl) | rfl
  all_goals first
    | exact ⟨rfl, rfl⟩
    | exact ⟨Nat.mul_comm len 4, congrArg (bytesAt mem) (Nat.mul_comm len 4)⟩

/-- An answer that was returned is carried by the varbind. -/
lemma Returned.xGetVarBind {res : OidSearchRes} {oid : Oid} {a : Answer} (h : Returned res (oid, a))
    (tail : UInt32) : ∃ vb, AgentX.getVarBind tail res = some vb ∧ vb.Carries oid a ∧ vb.Created := by
  obtain ⟨hoid, -, htag, len, bytes, hstored, hlen, hprefix⟩ := h
  have hext : extent a.tag len = bytes.length := length_of_stored hstored
  have hvalue : valueTag a.tag = true := by
    by_contra hnot
    have hnone := toVariable_eq_none (Bool.not_eq_true _ ▸ hnot) a.val
    rw [Answer.stored, hnone] at hstored
    cases hstored
  obtain ⟨htry, henc⟩ := agentxValueEnc_of_valueTag hvalue res.var.value len
  have hbytes : bytesAt res.var.value bytes.length = some bytes := by
    rw [bytesAt, if_pos hprefix.length_le, ← List.prefix_iff_eq_take.mp hprefix]
  refine ⟨⟨res.oid, a.tag.toUInt16, bytes.length, bytes, bytes32 tail⟩, ?_, ⟨hoid, rfl, ?_⟩, ?_, rfl, rfl⟩
  · rw [AgentX.getVarBind, AgentX.encodeValue]
    simp only [htag, hlen, htry, henc, hext, hbytes]
    rw [Option.filter_some, if_pos (by simp)]
    rfl
  · rw [hstored]
    rfl
  · intro heq
    rw [UInt8.toUInt16_inj.mp heq] at hvalue
    exact absurd hvalue (by decide)

section Reading

variable {root : MibNode} {handlers : Handlers} {fam : HandlerFamily} {own : Int → Oid → Answer}
  {S : Int → Set Oid}

/-- The ranges whose instance a request is sure to read. A GET reads at their start. -/
def RangeReadable (root : MibNode) (fam : HandlerFamily) (own : Int → Oid → Answer) (S : Int → Set Oid)
    (f : AgentxHandler) (sr : XSearchRange) : Prop :=
  if f = .agentxGet then Existing root S sr.start else RangeHonoured root fam own S sr

/-- The varbind for a range carries the own value of the instance at its start, in a GET, or of its
least instance, if it has one. -/
def RangeRead (root : MibNode) (own : Int → Oid → Answer) (S : Int → Set Oid) (f : AgentxHandler)
    (sr : XSearchRange) (vb : XVarBind) : Prop :=
  (∃ p cb a, Occurs root p (.inst cb) ∧ a ∈ S cb ∧
    (if f = .agentxGet then p ++ a = sr.start else IsLeast (RangeTargets root S sr) (p ++ a)) ∧
    vb.Carries (p ++ a) (own cb a)) ∨
  (f ≠ .agentxGet ∧ RangeTargets root S sr = ∅ ∧ vb.EndsRange sr)

/-- The search of a GET at an instance. -/
lemma attains_mibGet (hok : RootOk root) (hmib : InternetMib root S)
    (h : OwnHandlers root handlers fam own S) {sr : XSearchRange} {p a : Oid} {cb : Int}
    (hocc : Occurs root p (.inst cb)) (ha : a ∈ S cb) (hstart : p ++ a = sr.start) {ret : OidSearchRes}
    (hreq : ret.request = .get) :
    Traced.Attains (fun res => res.request = .get ∧ Returned res (p ++ a, own cb a))
      (AgentX.mibGet handlers root sr ret) := by
  intro l
  have hne : a ≠ [] := fun hnil => h.suffix cb (hnil ▸ ha)
  have hcover : agentxDummyView <+: sr.start := (hmib.under p cb hocc).trans ⟨a, hstart⟩
  obtain ⟨ask, hcb, hid, hask, hoid, -, -, heq⟩ :=
    mibTreeSearch_calls handlers ret hok hcover hstart.symm hne hocc
  have hget : ask.request = .get := hask.trans hreq
  have hcall : ask.call = ⟨cb, .get, a, .nil, none⟩ := by
    simp [OidSearchRes.call, hget, hcb, hid]
  obtain ⟨subOid, hreply⟩ := h.getSome l cb a ha
  have hstorable := h.get l ⟨cb, .get, a, .nil, none⟩ rfl
  simp only [hreply, Reply.storable, (own cb a).valid, decide_true, Bool.and_self, Bool.not_true,
    Bool.false_or, Option.any_eq_true] at hstorable
  obtain ⟨⟨len, bytes⟩, hval, hfit⟩ := hstorable
  have hstored : (own cb a).stored = some (len, bytes) := Option.filter_eq_some_iff.mpr ⟨hval, hfit⟩
  have hreceive : ask.receive (handlers l ⟨cb, .get, a, .nil, none⟩) = some { ask with
      errStat := 0
      var := ⟨(own cb a).tag, len, bytes ++ ask.var.value.drop bytes.length⟩ } := by
    rw [hreply, OidSearchRes.receive, if_pos ⟨rfl, (own cb a).valid⟩, if_neg (by simp [hget]),
      (own cb a).store_eq, hstored, hget]
    rfl
  have hrun : AgentX.mibGet handlers root sr ret l = (.ok { ask with
      errStat := 0
      var := ⟨(own cb a).tag, len, bytes ++ ask.var.value.drop bytes.length⟩ },
      l ++ [⟨cb, .get, a, .nil, none⟩]) := by
    rw [AgentX.mibGet, searchAt, heq, Traced.bind_assoc, Traced.bind_apply, mibInstanceSearch_apply, hcall,
      hreceive]
    rfl
  exact ⟨_, _, hrun, hget, hoid.trans hstart.symm, rfl, rfl, len, bytes, hstored, rfl,
    List.prefix_append _ _⟩

/-- The search of a GETNEXT in a range that is honoured. -/
lemma attains_mibGetnext (hok : RootOk root) (hmib : InternetMib root S)
    (h : OwnHandlers root handlers fam own S) {sr : XSearchRange} (hstart : Placed sr.start)
    (hsr : RangeHonoured root fam own S sr) {ret : OidSearchRes} (hreq : ret.request = .getNext) :
    Traced.Attains (fun res => res.request = .getNext ∧
      HonoursRange root own S sr (.ok res)) (AgentX.mibGetnext handlers root sr ret) := by
  intro l
  have hhonours := hsr.honours hok hmib h hstart hreq l
  obtain ⟨res, l', hrun⟩ : ∃ res l', AgentX.mibGetnext handlers root sr ret l = (.ok res, l') := by
    rcases hhonours with ⟨p, cb, a, res, -, -, -, hout, -⟩ | ⟨-, res, hout, -⟩
    · exact ⟨res, _, Prod.ext hout rfl⟩
    · exact ⟨res, _, Prod.ext hout rfl⟩
  rw [hrun] at hhonours
  obtain ⟨_, -, -, hnext⟩ := (AgentX.safe_mibGetnext hok sr hreq l).of_ok hrun
  exact ⟨res, l', hrun, hnext res rfl, hhonours⟩

/-- The varbind of a search whose result has the right value, and no error status. -/
lemma HonoursRange.xGetVarBind {sr : XSearchRange} {res : OidSearchRes}
    (h : HonoursRange root own S sr (.ok res)) (tail : UInt32) :
    res.errStat = 0 ∧ ∃ vb, AgentX.getVarBind tail res = some vb ∧
      RangeRead root own S .agentxGetnext sr vb ∧ vb.Created := by
  rcases h with ⟨p, cb, a, _, hocc, ha, hleast, ⟨⟩, hret⟩ | ⟨hempty, _, ⟨⟩, hoid, herr, htag⟩
  · obtain ⟨vb, hvb, hcarries, hcreated⟩ := hret.xGetVarBind tail
    exact ⟨hret.2.1, vb, hvb, .inl ⟨p, cb, a, hocc, ha, hleast, hcarries⟩, hcreated⟩
  · have hcnt : asn1TagEndOfMibView.toUInt16 ≠ asn1TagCnt64.toUInt16 := by decide
    refine ⟨herr, ⟨res.oid, asn1TagEndOfMibView.toUInt16, 0, [], bytes32 tail⟩, ?_, ?_, hcnt, rfl, rfl⟩
    · rw [AgentX.getVarBind, AgentX.encodeValue, htag]
      rfl
    · exact .inr ⟨by decide, hempty, hoid, rfl, rfl⟩

/-- What the iterations for the ranges `done` keep: every varbind carries the right value. -/
structure ReadProgress (root : MibNode) (own : Int → Oid → Answer) (S : Int → Set Oid)
    (f : AgentxHandler) (req : MibReq) (xdg : AgentxDatagram) (done : List XSearchRange)
    (s : AgentX.ProcState) : Prop where
  progress : AgentX.Progress req (fun sr vb => RangeRead root own S f sr vb ∧ vb.Created) xdg done s
  clear : ∀ e ∈ s.statuses, e = 0

lemma ReadProgress.add {f : AgentxHandler} {req : MibReq} {xdg : AgentxDatagram}
    {done : List XSearchRange} {s : AgentX.ProcState} (h : ReadProgress root own S f req xdg done s)
    {res : OidSearchRes} (hreq : res.request = req) (herr : res.errStat = 0) {sr : XSearchRange}
    {vb : XVarBind} (hread : RangeRead root own S f sr vb) (hvb : vb.Created) :
    ReadProgress root own S f req xdg (done ++ [sr]) (s.add res vb) where
  progress := h.progress.add hreq ⟨hread, hvb⟩
  clear := by
    have hstatuses : (s.add res vb).statuses = s.statuses ++ [res.errStat] := by
      simp [AgentX.ProcState.statuses, AgentX.ProcState.add]
    rw [hstatuses, herr, List.forall_mem_append]
    exact ⟨h.clear, by simp⟩

lemma attains_xGetStep (hok : RootOk root) (hmib : InternetMib root S)
    (h : OwnHandlers root handlers fam own S) (tail : UInt32 → UInt32) {xdg : AgentxDatagram}
    {done : List XSearchRange} {s : AgentX.ProcState}
    (hs : ReadProgress root own S .agentxGet .get xdg done s) {sr : XSearchRange}
    (hsr : Existing root S sr.start) :
    Traced.Attains (ReadProgress root own S .agentxGet .get xdg (done ++ [sr]))
      (xGetStep handlers root tail s sr) := by
  obtain ⟨p, cb, a, hocc, ha, hstart⟩ := hsr
  rw [xGetStep]
  apply (attains_mibGet hok hmib h hocc ha hstart.symm hs.progress.request).bind
  rintro res ⟨hreq, hret⟩
  obtain ⟨vb, hvb, hcarries, hcreated⟩ := hret.xGetVarBind (tail s.cnt)
  rw [hvb]
  exact Traced.attains_pure (hs.add hreq hret.2.1 (.inl ⟨p, cb, a, hocc, ha, hstart.symm, hcarries⟩) hcreated)

lemma attains_xGetnextStep (hok : RootOk root) (hmib : InternetMib root S)
    (h : OwnHandlers root handlers fam own S) (tail : UInt32 → UInt32) {xdg : AgentxDatagram}
    {done : List XSearchRange} {s : AgentX.ProcState}
    (hs : ReadProgress root own S .agentxGetnext .getNext xdg done s) {sr : XSearchRange}
    (hstart : Placed sr.start) (hsr : RangeHonoured root fam own S sr) :
    Traced.Attains (ReadProgress root own S .agentxGetnext .getNext xdg (done ++ [sr]))
      (xGetnextStep handlers root tail s sr) := by
  rw [xGetnextStep]
  apply (attains_mibGetnext hok hmib h hstart hsr hs.progress.request).bind
  rintro res ⟨hreq, hhonours⟩
  obtain ⟨herr, vb, hvb, hread, hcreated⟩ := hhonours.xGetVarBind (tail s.cnt)
  rw [hvb]
  exact Traced.attains_pure (hs.add hreq herr hread hcreated)

/-- A response whose varbinds carry the right values. -/
structure ReadAnswered (root : MibNode) (own : Int → Oid → Answer) (S : Int → Set Oid)
    (f : AgentxHandler) (xdg : AgentxDatagram) (s : AgentX.ProcState) (pdu : XPduBuf) : Prop where
  values : List.Forall₂ (RangeRead root own S f) xdg.srInList s.xdg.vbOutList
  error : s.xdg.error = 0
  index : s.xdg.index = 0
  response : agentxResponsePdu s.xdg = some pdu

/-- The loop over the ranges ends in a response. -/
lemma ReadProgress.respond {f : AgentxHandler} {req : MibReq} {xdg : AgentxDatagram}
    {s : AgentX.ProcState} (hfresh : xdg.Fresh) (htype : xdg.pduHdr.type ≠ agentxPduResponse)
    (h : ReadProgress root own S f req xdg xdg.srInList s) :
    Traced.Attains (fun r : AgentX.ProcState × XPduBuf => ReadAnswered root own S f xdg r.1 r.2)
      (agentxResponse s) := by
  have hout : s.xdg.vbOutList = s.reports.map Prod.snd := by
    rw [h.progress.xdg, hfresh.out, List.nil_append]
  have hnamed := hout ▸ h.progress.named
  have hcreated : ∀ vb ∈ s.xdg.vbOutList, vb.Created := by
    have hflip : List.Forall₂ (fun vb sr => vb.Created ∧ RangeRead root own S f sr vb) s.xdg.vbOutList
        xdg.srInList := (hnamed.imp fun sr vb h => h.symm).flip
    exact ((List.forall₂_and_left _ _).mp hflip).1
  obtain ⟨pdu, hpdu⟩ := agentxResponsePdu_of_created hcreated
  have hclear : s.xdg = { xdg with vbOutList := s.reports.map Prod.snd } := by
    rw [h.progress.xdg, AgentX.markAll_zero h.clear, hfresh.out, List.nil_append]
  rw [agentxResponse, hpdu]
  refine Traced.attains_pure ⟨hnamed.imp fun sr vb h => h.1, ?_, ?_, hpdu⟩
  · rw [hclear]
    exact hfresh.error htype
  · rw [hclear]
    exact hfresh.index htype

end Reading

/-- A reading request of a master agent whose ranges can be read is answered with the own values of the
instances that it asks for. -/
theorem agentxRequest_reads {root : MibNode} (hreach : Reachable root) {S : Int → Set Oid}
    (hmib : InternetMib root S) {handlers : Handlers} {fam : HandlerFamily} {own : Int → Oid → Answer}
    (h : OwnHandlers root handlers fam own S) (tail : UInt32 → UInt32) {buffer : List UInt8} {len : Int}
    {xdg : AgentxDatagram} (hrecv : agentxRecv buffer len = some (.ok xdg)) {f : AgentxHandler}
    (hdispatch : agentxRequestDispatch xdg.pduHdr.type = some f) (hf : f = .agentxGet ∨ f = .agentxGetnext)
    (hread : ∀ sr ∈ xdg.srInList, RangeReadable root fam own S f sr) (l : List Call) :
    ∃ s pdu l', agentxRequest handlers root tail xdg l = (.ok (some (s, pdu)), l') ∧
      ReadAnswered root own S f xdg s pdu := by
  have hfresh := fresh_of_agentxRecv hrecv
  have htype : xdg.pduHdr.type ≠ agentxPduResponse := by
    intro heq
    rw [heq] at hdispatch
    cases hdispatch
  have hattains : ∀ {req : MibReq} {step : AgentX.ProcState → XSearchRange → Traced Call AgentX.ProcState},
      (∀ done s, ∀ sr ∈ xdg.srInList, ReadProgress root own S f req xdg done s →
        Traced.Attains (ReadProgress root own S f req xdg (done ++ [sr])) (step s sr)) →
      Traced.Attains (fun r => ∃ s pdu, r = some (s, pdu) ∧ ReadAnswered root own S f xdg s pdu)
        (some <$> (xdg.srInList.foldlM step (.init req xdg) >>= agentxResponse)) := by
    intro req step hstep
    have hinit : ReadProgress root own S f req xdg [] (.init req xdg) :=
      ⟨AgentX.progress_init req _ xdg, by simp [AgentX.ProcState.statuses, AgentX.ProcState.init]⟩
    have hloop := Traced.attains_foldlM xdg.srInList hstep hinit
    refine (hloop.bind fun s hs => ReadProgress.respond hfresh htype hs).bind ?_
    rintro ⟨s, pdu⟩ hs
    exact Traced.attains_pure ⟨s, pdu, rfl, hs⟩
  have hrun : Traced.Attains (fun r => ∃ s pdu, r = some (s, pdu) ∧ ReadAnswered root own S f xdg s pdu)
      (agentxRequest handlers root tail xdg) := by
    rw [agentxRequest, hdispatch]
    rcases hf with rfl | rfl
    · refine hattains fun done s sr hsr hs => ?_
      exact attains_xGetStep hreach.rootOk hmib h tail hs (hread sr hsr)
    · refine hattains fun done s sr hsr hs => ?_
      exact attains_xGetnextStep hreach.rootOk hmib h tail hs (hfresh.placed sr hsr) (hread sr hsr)
  obtain ⟨_, l', heq, s, pdu, rfl, hs⟩ := hrun l
  exact ⟨s, pdu, l', heq, hs⟩

/-- A GetNext for the range behind `1.3.6.1.5` and the one behind its instance, both ahead of
`1.3.6.1.6`. -/
def sampleXGetnexts : List UInt8 :=
  [1, 6, 0, 0] ++ bytes32 1 ++ bytes32 2 ++ bytes32 3 ++ bytes32 20 ++
    ([0, 5, 0, 0] ++ [0, 6, 0, 0]) ++ (([1, 5, 0, 0] ++ bytes32 0) ++ [0, 6, 0, 0])

def sampleXGetnextsReceived : AgentxDatagram :=
  { AgentxDatagram.clear ⟨1, agentxPduGetnext, 0, 0, 1, 2, 3, 0⟩ with
    srInList := [⟨[1, 3, 6, 1, 5], [1, 3, 6, 1, 6], 0, 0⟩, ⟨[1, 3, 6, 1, 5, 0], [1, 3, 6, 1, 6], 0, 0⟩] }

theorem agentxRequest_reads_sampleXGetnexts :
    ∃ s pdu l', agentxRequest exactHandlers internetTree (fun _ => 0) sampleXGetnextsReceived [] =
      (.ok (some (s, pdu)), l') ∧
      ReadAnswered internetTree scalarAnswer scalarInstances .agentxGetnext sampleXGetnextsReceived s pdu := by
  have hrecv : agentxRecv sampleXGetnexts 40 = some (.ok sampleXGetnextsReceived) := by rfl
  refine agentxRequest_reads reachable_internetTree internetMib_internetTree ownHandlers_exact (fun _ => 0)
    hrecv rfl (.inr rfl) ?_ []
  have hhonoured : ∀ start : Oid, RangeHonoured internetTree scalarFamily scalarAnswer scalarInstances
      ⟨start, [1, 3, 6, 1, 6], 0, 0⟩ := by
    intro start
    refine ⟨fun p cb s a hans => absurd rfl hans.incl, fun p cb s a hans => absurd rfl hans.incl, ?_⟩
    rintro -
    refine ⟨fun h => absurd rfl h.1, fun x _ _ => ⟨by simp, fun _ => ?_⟩⟩
    exact nearBelow_of_small x (by simp)
  intro sr hsr
  simp only [sampleXGetnextsReceived, List.mem_cons, List.not_mem_nil, or_false] at hsr
  rcases hsr with rfl | rfl
  · exact hhonoured _
  · exact hhonoured _

end SmartSnmp
