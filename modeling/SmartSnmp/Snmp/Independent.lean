import SmartSnmp.Snmp.Shown

/-!
# The varbinds of a reading request

A GET or GETNEXT request with several varbinds is compared with the requests that contain one of
them each. The loop over the varbinds is described by what each of them leaves, so the answers are the
same exactly if nothing shows of what the earlier ones have left.
-/

namespace SmartSnmp

/-! ### Loops -/

/-- The requester of a datagram is the same throughout a loop over its varbinds, and what it
appends can be sent. -/
structure Reading (req : MibReq) (sdg : SnmpDatagram) (s : ProcState) : Prop where
  request : s.ret.request = req
  whole : s.ret.var.Whole
  same : s.sdg.SameRequester sdg
  sendable : ∀ vb ∈ s.sdg.vbOutList, berOidEncTry vb.oid ≠ none

lemma Reading.init (req : MibReq) {sdg : SnmpDatagram} (hout : sdg.vbOutList = []) :
    Reading req sdg (.init req sdg) where
  request := rfl
  whole := List.length_replicate
  same := ⟨rfl, rfl, rfl⟩
  sendable := by simp [ProcState.init, hout]

lemma SnmpDatagram.SameRequester.trans {sdg₁ sdg₂ sdg₃ : SnmpDatagram} (h : sdg₁.SameRequester sdg₂)
    (h' : sdg₂.SameRequester sdg₃) : sdg₁.SameRequester sdg₃ :=
  ⟨h.version.trans h'.version, h.userName.trans h'.userName, h.contextName.trans h'.contextName⟩

lemma SnmpDatagram.SameRequester.symm {sdg₁ sdg₂ : SnmpDatagram} (h : sdg₁.SameRequester sdg₂) :
    sdg₂.SameRequester sdg₁ := ⟨h.version.symm, h.userName.symm, h.contextName.symm⟩

lemma getVarBind_sendable {vbOut : VarBind} {ret : OidSearchRes}
    (h : getVarBind ret = some vbOut) : berOidEncTry vbOut.oid ≠ none := by
  simp only [getVarBind, responseVarBind, Option.bind_eq_some_iff, Option.map_eq_some_iff] at h
  obtain ⟨_, _, _, _, oidLen, hlen, rfl⟩ := h
  simp [hlen]

lemma Reading.add {req : MibReq} {sdg : SnmpDatagram} {s : ProcState} (h : Reading req sdg s)
    {ret : OidSearchRes} {vbOut : VarBind} (hreq : ret.request = req) (hwhole : ret.var.Whole)
    (hvb : berOidEncTry vbOut.oid ≠ none) : Reading req sdg (s.add ret vbOut) where
  request := hreq
  whole := hwhole
  same := ⟨h.same.version, h.same.userName, h.same.contextName⟩
  sendable := by
    intro vb hmem
    rcases List.mem_append.mp hmem with hmem | hmem
    · exact h.sendable vb hmem
    · exact List.mem_singleton.mp hmem ▸ hvb

lemma mapM_varBindEncode_ne_none {vbs : List VarBind} (h : ∀ vb ∈ vbs, berOidEncTry vb.oid ≠ none) :
    ∃ parts, vbs.mapM varBindEncode = some parts := by
  refine Traced.exists_mapM_eq_some fun vb hvb => ?_
  obtain ⟨oidLen, hlen⟩ := Option.ne_none_iff_exists'.mp (h vb hvb)
  rw [varBindEncode, hlen]
  exact ⟨_, rfl⟩

/-- What a loop over varbinds appended is sent. -/
lemma Reading.respond {req : MibReq} {sdg : SnmpDatagram} {s : ProcState} (h : Reading req sdg s) :
    ∃ r, SmartSnmp.respond s = pure (s, r) := by
  obtain ⟨parts, hparts⟩ := mapM_varBindEncode_ne_none h.sendable
  have hout : (asn1Lengths s.sdg).vbOutList = s.sdg.vbOutList := by
    rw [asn1Lengths]
    split_ifs <;> rfl
  rw [SmartSnmp.respond, snmpResponse, hout, hparts]
  exact ⟨_, rfl⟩

/-! ### Requests -/

/-- The varbinds of a response. -/
def answers (r : Option (ProcState × Response)) : List VarBind :=
  (r.map fun x => x.1.sdg.vbOutList).getD []

/-- The request that contains one varbind alone. -/
def SnmpDatagram.only (sdg : SnmpDatagram) (vb : VarBind) : SnmpDatagram :=
  { sdg with vbInList := [vb], vbInCnt := 1 }

/-- A GET or GETNEXT request as it comes from the decoder. -/
structure ReadRequest (sdg : SnmpDatagram) : Prop where
  pduType : sdg.pduHdr.pduType = mibReqGet ∨ sdg.pduHdr.pduType = mibReqGetnext
  vbOutList : sdg.vbOutList = []
  oid : ∀ vb ∈ sdg.vbInList, vb.oid.length ≤ mibOidMaxLen

section Independent

variable (handlers : Handlers) (root : MibNode) (mv : MibViews) (sdg : SnmpDatagram)

/-- One request for each varbind. -/
def requestEach : List VarBind → Traced Call (List (Option (ProcState × Response)))
  | [] => pure []
  | vb :: vbs => do
    let r ← snmpRequestDispatch handlers root mv (sdg.only vb)
    let rs ← requestEach vbs
    pure (r :: rs)

/-- The request is answered if and only if the requests for its varbinds are, and its varbinds are
one by one those of their responses. -/
def Independent : Prop :=
  Traced.Related (fun r rs => List.Forall₂ (fun vb r' => answers r' = [vb]) (answers r) rs)
    (snmpRequestDispatch handlers root mv sdg) (requestEach handlers root mv sdg sdg.vbInList)

/-- What these varbinds make of a union, as long as all are answered. -/
inductive LeftBy : List VarBind → List UInt8 → List UInt8 → Prop where
  | nil (mem : List UInt8) : LeftBy [] mem mem
  | cons {vb : VarBind} {vbs : List VarBind} {r : Variable × Oid} {mem mem' : List UInt8}
      (hr : Leaves handlers root mv sdg vb r) (henc : r.1.Encodable mem)
      (hrest : LeftBy vbs (r.1.over mem).value mem') : LeftBy (vb :: vbs) mem mem'

/-- The varbind is answered in a union that holds `mem`. -/
def Answered (vb : VarBind) (mem : List UInt8) : Prop :=
  ∃ r, Leaves handlers root mv sdg vb r ∧ r.1.Encodable mem

/-- From a union that is cleared, nothing shows of what the varbinds before have left. -/
def NothingShown : Prop :=
  ∀ before vb after mem, sdg.vbInList = before ++ vb :: after →
    LeftBy handlers root mv sdg before Variable.zero.value mem →
    ∀ r, Leaves handlers root mv sdg vb r → r.1.Unshown mem

/-- Neither the request is answered, nor is the one for some varbind of it. -/
structure Unanswered : Prop where
  alone : ∃ vb ∈ sdg.vbInList, ¬ Answered handlers root mv sdg vb Variable.zero.value
  joint : ∃ before vb after mem, sdg.vbInList = before ++ vb :: after ∧
    LeftBy handlers root mv sdg before Variable.zero.value mem ∧ ¬ Answered handlers root mv sdg vb mem

/-- A reading request, by what its varbinds leave: the varbinds that are appended. -/
inductive Appends : List VarBind → List UInt8 → List VarBind → Prop where
  | nil (mem : List UInt8) : Appends [] mem []
  | cons {vb vbOut : VarBind} {vbs outs : List VarBind} {r : Variable × Oid} {mem : List UInt8}
      (hr : Leaves handlers root mv sdg vb r) (hout : sent r mem = some vbOut)
      (hrest : Appends vbs (r.1.over mem).value outs) : Appends (vb :: vbs) mem (vbOut :: outs)

/-- The varbind that a request for one of them appends. -/
def AppendsAlone (vb vbOut : VarBind) : Prop :=
  ∃ r, Leaves handlers root mv sdg vb r ∧ sent r Variable.zero.value = some vbOut

end Independent

section Requests

variable {handlers : Handlers} {root : MibNode} {mv : MibViews}

/-- `snmp_get` and `snmp_getnext`, by what they do with a varbind. -/
def readRequest (step : ProcState → VarBind → Traced Call ProcState) (req : MibReq)
    (sdg : SnmpDatagram) : Traced Call (ProcState × Response) := do
  let s ← sdg.vbInList.foldlM step (.init req sdg)
  respond s

lemma snmpRequestDispatch_get {sdg : SnmpDatagram} (h : sdg.pduHdr.pduType = mibReqGet) :
    snmpRequestDispatch handlers root mv sdg =
      readRequest (getStep handlers root mv) .get sdg.setResponse >>= fun r => pure (some r) := by
  rw [snmpRequestDispatch, requestFunction, if_pos h]
  rfl

lemma snmpRequestDispatch_getnext {sdg : SnmpDatagram} (h : sdg.pduHdr.pduType = mibReqGetnext) :
    snmpRequestDispatch handlers root mv sdg =
      readRequest (getnextStep handlers root mv) .getNext sdg.setResponse >>=
        fun r => pure (some r) := by
  rw [snmpRequestDispatch, requestFunction, if_neg (by rw [h]; decide), if_pos h]
  rfl

end Requests

/-! ### What a reading request appends -/

/-- The step and the request of a reading request. -/
def readStep (handlers : Handlers) (root : MibNode) (mv : MibViews) (sdg : SnmpDatagram) :
    ProcState → VarBind → Traced Call ProcState :=
  if sdg.pduHdr.pduType = mibReqGet then getStep handlers root mv else getnextStep handlers root mv

def SnmpDatagram.readReq (sdg : SnmpDatagram) : MibReq :=
  if sdg.pduHdr.pduType = mibReqGet then .get else .getNext

lemma ReadRequest.dispatch {handlers : Handlers} {root : MibNode} {mv : MibViews} {sdg sdg' : SnmpDatagram}
    (h : ReadRequest sdg) (htype : sdg'.pduHdr.pduType = sdg.pduHdr.pduType) :
    snmpRequestDispatch handlers root mv sdg' =
      readRequest (readStep handlers root mv sdg) sdg.readReq sdg'.setResponse >>=
        fun r => pure (some r) := by
  rw [readStep, SnmpDatagram.readReq]
  rcases h.pduType with hget | hnext
  · rw [if_pos hget, if_pos hget, snmpRequestDispatch_get (htype.trans hget)]
  · have hne : sdg.pduHdr.pduType ≠ mibReqGet := by
      rw [hnext]
      decide
    rw [if_neg hne, if_neg hne, snmpRequestDispatch_getnext (htype.trans hnext)]

lemma SnmpDatagram.fits_reads {handlers : Handlers} {root : MibNode} {sdg : SnmpDatagram}
    {oid view : Oid} {o : Variable} {r : (Variable × Oid) × Bool}
    (h : sdg.reads handlers root oid view o r) (ho : o.Fits) : r.1.1.Fits := by
  rw [SnmpDatagram.reads] at h
  split_ifs at h
  · exact GetReads.fits h ho
  · exact NextReads.fits h ho

lemma SnmpDatagram.length_oid_reads {handlers : Handlers} {root : MibNode} {sdg : SnmpDatagram}
    {oid view : Oid} {o : Variable} {r : (Variable × Oid) × Bool}
    (h : sdg.reads handlers root oid view o r) (hoid : oid.length ≤ mibOidMaxLen) :
    r.1.2.length ≤ mibOidMaxLen := by
  rw [SnmpDatagram.reads] at h
  split_ifs at h
  · rwa [GetReads.oid_eq h]
  · exact NextReads.length_oid h hoid

lemma Leaves.sendable {handlers : Handlers} {root : MibNode} {mv : MibViews} {sdg : SnmpDatagram}
    {vb : VarBind} {r : Variable × Oid} (h : Leaves handlers root mv sdg vb r)
    (hoid : vb.oid.length ≤ mibOidMaxLen) : Sendable r := by
  obtain ⟨o, hdec, hviews⟩ := h
  constructor
  · exact hviews.fits (fun _ _ _ => SnmpDatagram.fits_reads) (VarBind.fits_decoded hdec)
  · exact hviews.length_oid (fun _ _ _ hr => SnmpDatagram.length_oid_reads hr hoid) hoid

/-- What an iteration does for a varbind that leaves `r`. -/
structure Stepped (req : MibReq) (sdg : SnmpDatagram) (s s' : ProcState) (r : Variable × Oid)
    (vbOut : VarBind) : Prop where
  reading : Reading req sdg s'
  value : s'.ret.var.value = (r.1.over s.ret.var.value).value
  oid : s'.ret.oid = r.2
  out : s'.sdg.vbOutList = s.sdg.vbOutList ++ [vbOut]

section Steps

variable {handlers : Handlers} (hst : Stateless handlers) {root : MibNode} (hroot : RootOk root)
  {ops : List ViewOp} {mv : MibViews} (hrun : ViewRun ops mv) {sdg : SnmpDatagram} {s : ProcState}
  {vb : VarBind}

/-- An iteration, by its search. -/
lemma denotes_processVarBind {req : MibReq} {reads : Reads}
    {search : SnmpDatagram → VarBind → OidSearchRes → Traced Call OidSearchRes}
    (hsearch : ∀ o ret, ret.request = req → ret.var = o.over s.ret.var.value →
      Traced.Denotes (LeftAs req s.ret.var.value)
        (ViewsLeave reads vb.oid (viewsOf (requester mv s.sdg) .read) o) (search s.sdg vb ret))
    (hfits : ∀ view o r, reads view o r → o.Fits → r.1.1.Fits)
    (hs : Reading req sdg s) :
    Traced.Denotes (fun s' (q : (Variable × Oid) × VarBind) => Stepped req sdg s s' q.1 q.2)
      (fun (q : (Variable × Oid) × VarBind) => (∃ o, vb.decoded = some o ∧
        ViewsLeave reads vb.oid (viewsOf (requester mv s.sdg) .read) o q.1) ∧
        sent q.1 s.ret.var.value = some q.2)
      (processVarBind search (fun _ => getVarBind) id s vb) := by
  rw [processVarBind, decodeValue_decoded]
  cases hdec : vb.decoded with
  | none => exact Traced.denotes_crash (by simp)
  | some o =>
    simp only [Option.map_some]
    refine ((hsearch o { s.ret with var := o.over s.ret.var.value } hs.request rfl).bind
      (Q := fun r q => q.1 = r ∧ sent r s.ret.var.value = some q.2) ?_).mono ?_ fun _ _ _ h => h
    · intro res r hr hres
      have hsmall : r.1.Fits := hr.fits hfits (VarBind.fits_decoded hdec)
      rw [getVarBind_eq_sent hres]
      cases hout : sent r s.ret.var.value with
      | none => exact Traced.denotes_crash (by simp)
      | some vbOut =>
        have hstep : Stepped req sdg s (s.add (id res) vbOut) r vbOut := by
          refine ⟨hs.add hres.request ?_ ?_, ?_, hres.oid, rfl⟩
          · rw [id, hres.var]
            exact Variable.whole_over hsmall hs.whole
          · exact getVarBind_sendable ((getVarBind_eq_sent hres).trans hout)
          · simp only [ProcState.add, id, hres.var]
        intro l
        refine .ok (b := (r, vbOut)) ⟨rfl, rfl⟩ ?_ hstep
        rintro ⟨r', vbOut'⟩ ⟨rfl, hout'⟩
        exact Prod.ext rfl (Option.some.inj hout').symm
    · rintro ⟨r, vbOut⟩
      simp only [Option.some.injEq, exists_eq_left']
      constructor
      · rintro ⟨r', hr', rfl, hout⟩
        exact ⟨hr', hout⟩
      · rintro ⟨hr, hout⟩
        exact ⟨r, hr, rfl, hout⟩

include hst hroot hrun

lemma denotes_readStep (hs : Reading sdg.readReq sdg s) :
    Traced.Denotes (fun s' (q : (Variable × Oid) × VarBind) => Stepped sdg.readReq sdg s s' q.1 q.2)
      (fun (q : (Variable × Oid) × VarBind) => Leaves handlers root mv sdg vb q.1 ∧ sent q.1 s.ret.var.value = some q.2)
      (readStep handlers root mv sdg s vb) := by
  have hsame := hs.same.requester mv
  simp only [Leaves, ← hsame]
  rw [readStep]
  rw [SnmpDatagram.readReq] at hs ⊢
  simp only [SnmpDatagram.reads]
  split_ifs at hs ⊢
  · apply denotes_processVarBind _ (fun _ _ _ => GetReads.fits) hs
    exact fun o ret hreq hvar => denotes_mibGet hst hroot ret hrun s.sdg vb hreq hvar
  · apply denotes_processVarBind _ (fun _ _ _ => NextReads.fits) hs
    exact fun o ret hreq hvar => denotes_mibGetnext hst hroot ret hrun s.sdg vb hreq hvar

/-- A varbind leaves one thing. -/
lemma Leaves.unique {r r' : Variable × Oid} (h : Leaves handlers root mv sdg vb r)
    (h' : Leaves handlers root mv sdg vb r') : r = r' := by
  obtain ⟨o, hdec, hr⟩ := h
  obtain ⟨o', hdec', hr'⟩ := h'
  obtain rfl := Option.some.inj (hdec.symm.trans hdec')
  rw [SnmpDatagram.reads] at hr hr'
  split_ifs at hr hr'
  · exact (denotes_mibGet hst hroot { OidSearchRes.init .get with var := o.over [] } hrun sdg vb rfl
      rfl).unique hr hr'
  · exact (denotes_mibGetnext hst hroot { OidSearchRes.init .getNext with var := o.over [] } hrun sdg vb
      rfl rfl).unique hr hr'

omit hst hroot hrun in
lemma appends_nil {mem : List UInt8} {outs : List VarBind} :
    Appends handlers root mv sdg [] mem outs ↔ outs = [] := by
  constructor
  · rintro ⟨⟩
    rfl
  · rintro rfl
    exact .nil mem

omit hst hroot hrun in
lemma appends_cons {vbs : List VarBind} {mem : List UInt8} {outs : List VarBind} :
    Appends handlers root mv sdg (vb :: vbs) mem outs ↔ ∃ q : (Variable × Oid) × VarBind,
      (Leaves handlers root mv sdg vb q.1 ∧ sent q.1 mem = some q.2) ∧ ∃ outs',
        Appends handlers root mv sdg vbs (q.1.1.over mem).value outs' ∧ outs = q.2 :: outs' := by
  constructor
  · intro h
    cases h with
    | cons hr hout hrest => exact ⟨(_, _), ⟨hr, hout⟩, _, hrest, rfl⟩
  · rintro ⟨⟨r, vbOut⟩, ⟨hr, hout⟩, outs', hrest, rfl⟩
    exact .cons hr hout hrest

/-- The loop over the varbinds. -/
lemma denotes_foldlM_readStep (vbs : List VarBind) (hs : Reading sdg.readReq sdg s) :
    Traced.Denotes (fun s' outs => Reading sdg.readReq sdg s' ∧
        s'.sdg.vbOutList = s.sdg.vbOutList ++ outs)
      (Appends handlers root mv sdg vbs s.ret.var.value)
      (vbs.foldlM (readStep handlers root mv sdg) s) := by
  induction vbs generalizing s with
  | nil =>
    intro l
    exact .ok (.nil _) (fun outs h => appends_nil.mp h) ⟨hs, by simp⟩
  | cons vb vbs ih =>
    rw [List.foldlM_cons]
    refine ((denotes_readStep hst hroot hrun hs).bind ?_).mono (fun _ => appends_cons.symm)
      fun _ _ _ h => h
    rintro s₁ ⟨r, vbOut⟩ - hstep
    have hrest := ih hstep.reading
    rw [hstep.value] at hrest
    rw [← Traced.bind_pure (vbs.foldlM _ s₁)]
    refine hrest.bind ?_
    rintro s₂ outs - ⟨hread, hout⟩
    refine Traced.denotes_pure ⟨hread, ?_⟩
    rw [hout, hstep.out, List.append_assoc, List.singleton_append]

/-- A request, by its loop. -/
lemma denotes_dispatch (hsdg : ReadRequest sdg) (sdg' : SnmpDatagram)
    (htype : sdg'.pduHdr.pduType = sdg.pduHdr.pduType) (hsame : sdg'.SameRequester sdg)
    (hout : sdg'.vbOutList = []) :
    Traced.Denotes (fun r outs => answers r = outs)
      (Appends handlers root mv sdg sdg'.vbInList Variable.zero.value)
      (snmpRequestDispatch handlers root mv sdg') := by
  have hinit : Reading sdg.readReq sdg (.init sdg.readReq sdg'.setResponse) :=
    ⟨rfl, List.length_replicate, ⟨hsame.version, hsame.userName, hsame.contextName⟩,
      by simp [ProcState.init, SnmpDatagram.setResponse, hout]⟩
  have hloop := denotes_foldlM_readStep hst hroot hrun sdg'.vbInList hinit
  have hzero : (ProcState.init sdg.readReq sdg'.setResponse).ret.var.value = Variable.zero.value := rfl
  rw [hzero] at hloop
  rw [hsdg.dispatch htype, readRequest, Traced.bind_assoc]
  refine (hloop.bind (Q := fun outs outs' => outs' = outs) ?_).mono (by simp) fun _ _ _ h => h
  rintro s outs - ⟨hread, houts⟩
  obtain ⟨r, hr⟩ := hread.respond
  rw [hr]
  refine Traced.denotes_pure ?_
  simp [answers, houts, ProcState.init, SnmpDatagram.setResponse, hout]

lemma denotes_only (hsdg : ReadRequest sdg) :
    Traced.Denotes (fun r vbOut => answers r = [vbOut]) (AppendsAlone handlers root mv sdg vb)
      (snmpRequestDispatch handlers root mv (sdg.only vb)) := by
  have hinj : Function.Injective fun vbOut : VarBind => [vbOut] := fun a b h => by simpa using h
  refine (denotes_dispatch hst hroot hrun hsdg (sdg.only vb) rfl ⟨rfl, rfl, rfl⟩
    hsdg.vbOutList).comap hinj ?_
  intro outs
  show Appends handlers root mv sdg [vb] _ outs ↔ _
  rw [appends_cons]
  simp only [appends_nil, exists_eq_left, AppendsAlone]
  constructor
  · rintro ⟨⟨r, vbOut⟩, ⟨hr, hout⟩, rfl⟩
    exact ⟨vbOut, ⟨r, hr, hout⟩, rfl⟩
  · rintro ⟨vbOut, ⟨r, hr, hout⟩, rfl⟩
    exact ⟨(r, vbOut), ⟨hr, hout⟩, rfl⟩

/-- The requests for the varbinds, one after the other. -/
lemma denotes_requestEach (hsdg : ReadRequest sdg) (vbs : List VarBind) :
    Traced.Denotes (fun rs outs => List.Forall₂ (fun vbOut r => answers r = [vbOut]) outs rs)
      (List.Forall₂ (AppendsAlone handlers root mv sdg) vbs)
      (requestEach handlers root mv sdg vbs) := by
  induction vbs with
  | nil =>
    exact (Traced.denotes_pure (b := []) .nil).mono (by simp) fun _ _ _ h => h
  | cons vb vbs ih =>
    rw [requestEach]
    refine ((denotes_only hst hroot hrun hsdg).bind (Q := fun vbOut outs => ∃ outs',
      List.Forall₂ (AppendsAlone handlers root mv sdg) vbs outs' ∧ outs = vbOut :: outs') ?_).mono
      (fun outs => by simp only [List.forall₂_cons_left_iff, exists_and_left]) fun _ _ _ h => h
    rintro r vbOut - hr
    refine ih.bind ?_
    rintro rs outs - hrs
    exact Traced.denotes_pure (.cons hr hrs)

/-- The responses are the same if the loops over the varbinds append the same. -/
lemma independent_iff_appends (hsdg : ReadRequest sdg) :
    Independent handlers root mv sdg ↔ ∀ outs,
      Appends handlers root mv sdg sdg.vbInList Variable.zero.value outs ↔
        List.Forall₂ (AppendsAlone handlers root mv sdg) sdg.vbInList outs := by
  refine (denotes_dispatch hst hroot hrun hsdg sdg rfl ⟨rfl, rfl, rfl⟩ hsdg.vbOutList).related_iff
    (denotes_requestEach hst hroot hrun hsdg _) ?_
  rintro r rs _ outs rfl hrs
  constructor
  · intro hall
    generalize answers r = outs' at hall
    induction hall generalizing outs with
    | nil =>
      cases hrs
      rfl
    | cons ha _ ih =>
      cases hrs with
      | cons hb hrs => rw [List.singleton_injective (ha.symm.trans hb), ih _ hrs]
  · rintro rfl
    exact hrs

end Steps

/-! ### What is left -/

section Left

variable {handlers : Handlers} {root : MibNode} {mv : MibViews} {sdg : SnmpDatagram}
  {vbs : List VarBind} (hoid : ∀ vb ∈ vbs, vb.oid.length ≤ mibOidMaxLen) {mem : List UInt8}
  (hmem : mem.length = mibValueMaxLen)

lemma exists_appendsAlone_iff {vb : VarBind} (hoid : vb.oid.length ≤ mibOidMaxLen) :
    (∃ vbOut, AppendsAlone handlers root mv sdg vb vbOut) ↔
      Answered handlers root mv sdg vb Variable.zero.value := by
  constructor
  · rintro ⟨vbOut, r, hr, hout⟩
    exact ⟨r, hr, (sent_ne_none_iff (hr.sendable hoid)).mp (by simp [hout])⟩
  · rintro ⟨r, hr, henc⟩
    obtain ⟨vbOut, hout⟩ := Option.ne_none_iff_exists'.mp
      ((sent_ne_none_iff (hr.sendable hoid)).mpr henc)
    exact ⟨vbOut, r, hr, hout⟩

include hoid

/-- Some request for a varbind is not answered. -/
lemma forall_not_appendsAlone_iff :
    (∀ outs, ¬ List.Forall₂ (AppendsAlone handlers root mv sdg) vbs outs) ↔
      ∃ vb ∈ vbs, ¬ Answered handlers root mv sdg vb Variable.zero.value := by
  induction vbs with
  | nil => simp
  | cons vb vbs ih =>
    obtain ⟨hvb, hvbs⟩ := List.forall_mem_cons.mp hoid
    rw [List.exists_mem_cons_iff, ← ih hvbs, ← exists_appendsAlone_iff hvb, ← not_exists, ← not_exists,
      ← not_and_or, not_iff_not]
    constructor
    · rintro ⟨_, _ | ⟨h, hrest⟩⟩
      exact ⟨⟨_, h⟩, _, hrest⟩
    · rintro ⟨⟨vbOut, h⟩, outs, hrest⟩
      exact ⟨vbOut :: outs, .cons h hrest⟩

include hmem

/-- Where nothing shows, the varbinds are appended as alone. -/
lemma appends_iff_of_unshown (h : ∀ before vb after mem', vbs = before ++ vb :: after →
      LeftBy handlers root mv sdg before mem mem' → ∀ r, Leaves handlers root mv sdg vb r →
        r.1.Unshown mem') (outs : List VarBind) :
    Appends handlers root mv sdg vbs mem outs ↔
      List.Forall₂ (AppendsAlone handlers root mv sdg) vbs outs := by
  induction vbs generalizing mem outs with
  | nil => rw [appends_nil, List.forall₂_nil_left_iff]
  | cons vb vbs ih =>
    obtain ⟨hvb, hvbs⟩ := List.forall_mem_cons.mp hoid
    have hsent : ∀ r, Leaves handlers root mv sdg vb r → sent r mem = sent r Variable.zero.value :=
      fun r hr => (sent_eq_iff (hr.sendable hvb) hmem).mpr (h [] vb vbs mem rfl (.nil mem) r hr)
    have hrest : ∀ r vbOut, Leaves handlers root mv sdg vb r → sent r mem = some vbOut → ∀ outs,
        Appends handlers root mv sdg vbs (r.1.over mem).value outs ↔
          List.Forall₂ (AppendsAlone handlers root mv sdg) vbs outs := by
      intro r vbOut hr hout outs
      have hsmall := hr.sendable hvb
      have henc : r.1.Encodable mem := (sent_ne_none_iff hsmall).mp (by simp [hout])
      refine ih hvbs (Variable.whole_over hsmall.fits hmem) ?_ outs
      rintro before u after mem' rfl hleft
      exact h (vb :: before) u after mem' rfl (.cons hr henc hleft)
    constructor
    · intro happ
      cases happ with
      | cons hr hout happ => exact .cons ⟨_, hr, (hsent _ hr).symm.trans hout⟩ ((hrest _ _ hr hout _).mp happ)
    · intro hall
      cases hall with
      | cons halone hall =>
        obtain ⟨r, hr, hout⟩ := halone
        have hout' := (hsent r hr).trans hout
        exact .cons hr hout' ((hrest r _ hr hout' _).mpr hall)

end Left

section Main

variable {handlers : Handlers} (hst : Stateless handlers) {root : MibNode} (hroot : RootOk root)
  {ops : List ViewOp} {mv : MibViews} (hrun : ViewRun ops mv) {sdg : SnmpDatagram}

include hst hroot hrun

/-- If the varbinds are appended as alone, nothing shows. -/
lemma unshown_of_appends {vbs : List VarBind} (hoid : ∀ vb ∈ vbs, vb.oid.length ≤ mibOidMaxLen)
    {mem : List UInt8} (hmem : mem.length = mibValueMaxLen) {outs : List VarBind}
    (happ : Appends handlers root mv sdg vbs mem outs)
    (hall : List.Forall₂ (AppendsAlone handlers root mv sdg) vbs outs)
    {before after : List VarBind} {vb : VarBind} {mem' : List UInt8} (hvbs : vbs = before ++ vb :: after)
    (hleft : LeftBy handlers root mv sdg before mem mem') {r : Variable × Oid}
    (hr : Leaves handlers root mv sdg vb r) : r.1.Unshown mem' := by
  induction hleft generalizing vbs outs with
  | nil mem =>
    subst hvbs
    cases happ with
    | cons hr₁ hout _ =>
      cases hall with
      | cons halone _ =>
        obtain ⟨r₂, hr₂, hout₂⟩ := halone
        obtain rfl := hr₁.unique hst hroot hrun hr
        obtain rfl := hr₂.unique hst hroot hrun hr
        have hvb := hoid vb (by simp)
        exact (sent_eq_iff (hr.sendable hvb) hmem).mp (hout.trans hout₂.symm)
  | cons hr₁ henc hrest ih =>
    subst hvbs
    obtain ⟨hvb, hrestoid⟩ := List.forall_mem_cons.mp hoid
    cases happ with
    | cons hr₂ hout happ =>
      cases hall with
      | cons _ hall =>
        obtain rfl := hr₁.unique hst hroot hrun hr₂
        exact ih hrestoid (Variable.whole_over (hr₁.sendable hvb).fits hmem) happ hall rfl

/-- The loop comes to a varbind that is not answered. -/
lemma forall_not_appends_iff {vbs : List VarBind} (hoid : ∀ vb ∈ vbs, vb.oid.length ≤ mibOidMaxLen)
    {mem : List UInt8} : (∀ outs, ¬ Appends handlers root mv sdg vbs mem outs) ↔
      ∃ before vb after mem', vbs = before ++ vb :: after ∧
        LeftBy handlers root mv sdg before mem mem' ∧ ¬ Answered handlers root mv sdg vb mem' := by
  constructor
  · intro hno
    induction vbs generalizing mem with
    | nil => exact absurd (.nil mem) (hno [])
    | cons vb vbs ih =>
      obtain ⟨hvb, hvbs⟩ := List.forall_mem_cons.mp hoid
      by_cases hans : Answered handlers root mv sdg vb mem
      · obtain ⟨r, hr, henc⟩ := hans
        obtain ⟨vbOut, hout⟩ := Option.ne_none_iff_exists'.mp
          ((sent_ne_none_iff (hr.sendable hvb)).mpr henc)
        obtain ⟨before, u, after, mem', rfl, hleft, hnot⟩ :=
          ih hvbs fun outs happ => hno (vbOut :: outs) (.cons hr hout happ)
        exact ⟨vb :: before, u, after, mem', rfl, .cons hr henc hleft, hnot⟩
      · exact ⟨[], vb, vbs, mem, rfl, .nil mem, hans⟩
  · rintro ⟨before, vb, after, mem', rfl, hleft, hnot⟩ outs happ
    induction hleft generalizing outs with
    | nil mem =>
      cases happ with
      | cons hr hout _ =>
        have hvb := hoid vb (by simp)
        exact hnot ⟨_, hr, (sent_ne_none_iff (hr.sendable hvb)).mp (by simp [hout])⟩
    | cons hr henc hrest ih =>
      cases happ with
      | cons hr' _ happ =>
        obtain rfl := hr.unique hst hroot hrun hr'
        exact ih (fun u hu => hoid u (List.mem_cons_of_mem _ hu)) hnot _ happ

end Main

/-- For handlers without side effects, the varbinds of a GET or GETNEXT are answered independently
exactly if in the answer to each of them nothing shows of what those before it have left in the union,
or if the request is not answered, and neither is the one for some varbind of it. -/
theorem independent_iff_nothingShown {handlers : Handlers} (hst : Stateless handlers) {root : MibNode}
    (hroot : Reachable root) {ops : List ViewOp} {mv : MibViews} (hrun : ViewRun ops mv)
    {sdg : SnmpDatagram} (hsdg : ReadRequest sdg) :
    Independent handlers root mv sdg ↔
      NothingShown handlers root mv sdg ∨ Unanswered handlers root mv sdg := by
  have hzero : Variable.zero.value.length = mibValueMaxLen := List.length_replicate
  rw [independent_iff_appends hst hroot.rootOk hrun hsdg]
  constructor
  · intro h
    by_cases hno : ∀ outs, ¬ Appends handlers root mv sdg sdg.vbInList Variable.zero.value outs
    · refine .inr ⟨?_, (forall_not_appends_iff hst hroot.rootOk hrun hsdg.oid).mp hno⟩
      exact (forall_not_appendsAlone_iff hsdg.oid).mp fun outs hall => hno outs ((h outs).mpr hall)
    · push Not at hno
      obtain ⟨outs, happ⟩ := hno
      refine .inl fun before vb after mem hvbs hleft r hr => ?_
      exact unshown_of_appends hst hroot.rootOk hrun hsdg.oid hzero happ ((h outs).mp happ) hvbs hleft hr
  · rintro (hshown | ⟨halone, hjoint⟩) outs
    · exact appends_iff_of_unshown hsdg.oid hzero hshown outs
    · exact iff_of_false ((forall_not_appends_iff hst hroot.rootOk hrun hsdg.oid).mpr hjoint outs)
        ((forall_not_appendsAlone_iff hsdg.oid).mpr halone outs)

/-! ### Handlers whose replies have a value -/

/-- The encoder reads no more than what was stored. -/
def Variable.Covered (o : Variable) : Prop := extent o.tag o.len ≤ o.value.length

lemma Variable.Covered.unshown {o : Variable} (h : o.Covered) (mem : List UInt8) : o.Unshown mem where
  number := by
    intro hword i hle hi
    rw [Covered, extent_of_wordTag _ hword] at h
    omega
  oid := by
    intro hobj _ ids ids' hids hids'
    rw [Covered, hobj, extent_objid] at h
    have htake : ∀ bs, oidAt (o.value ++ bs) o.len = oidAt o.value o.len := by
      intro bs
      rw [← oidAt_take (o.value ++ bs) _ (by rw [List.length_append]; omega),
        List.take_append_of_le_length h, oidAt_take _ _ h]
    rw [Variable.over, htake] at hids hids'
    obtain rfl := Option.some.inj (hids.symm.trans hids')
    exact .inr ⟨rfl, rfl⟩

/-- What is stored is sent the same, whatever the union held. -/
lemma sent_eq_of_covered {r : Variable × Oid} (h : r.1.Covered) (hr : r.1.Fits) {mem mem' : List UInt8}
    (hmem : mem.length = mibValueMaxLen) (hmem' : mem'.length = mibValueMaxLen) :
    sent r mem = sent r mem' := by
  have hsolid : (r.1.over mem).Solid (r.1.over mem') := by
    have htake : ∀ bs : List UInt8, (r.1.value ++ bs).take (extent r.1.tag r.1.len) =
        r.1.value.take (extent r.1.tag r.1.len) := fun bs => List.take_append_of_le_length h
    exact (htake _).trans (htake _).symm
  rw [sent, sent, (Variable.over_alike hr hmem hmem').content hsolid]

/-- What is not a number and not an OID has as many bytes as elements, or none. -/
lemma Variable.Fits.covered {o : Variable} (ho : o.Fits) (hword : wordTag o.tag = false)
    (hobj : o.tag ≠ asn1TagObjid) : o.Covered := by
  have hlen := ho.len
  rw [Covered, extent, hword, if_neg (by simp), if_neg hobj]
  split_ifs
  · exact hlen
  · exact Nat.zero_le _

lemma Variable.Fits.covered_of_invalid {o : Variable} (ho : o.Fits) (h : mibTagValid o.tag = false) :
    o.Covered := by
  have hne : ∀ t : UInt8, mibTagValid t = true → o.tag ≠ t := by
    rintro t ht rfl
    rw [h] at ht
    cases ht
  refine ho.covered ?_ (hne _ rfl)
  simp [wordTag, hne asn1TagInt rfl, hne asn1TagCnt rfl, hne asn1TagGau rfl, hne asn1TagTimeticks rfl]

lemma Variable.Fits.covered_of_receive {o o' : Variable} (ho : o.Fits) {reply : Reply}
    (hreply : ¬ reply.Hollow) (hrec : o.receive reply = some o') : o'.Covered := by
  have ho' := ho.receive hrec
  cases reply with
  | error =>
    obtain rfl := Option.some.inj hrec
    exact ho'.covered_of_invalid rfl
  | results errStat subOid val tag =>
    rw [Variable.receive] at hrec
    split_ifs at hrec with hok
    · obtain ⟨v, hv, hstore⟩ := Option.bind_eq_some_iff.mp hrec
      obtain ⟨value, hwrite, rfl⟩ := Option.map_eq_some_iff.mp hstore
      rw [Variable.write] at hwrite
      split_ifs at hwrite
      obtain rfl := Option.some.inj hwrite
      rw [Covered, (extent_toVariable hv).2, List.length_append]
      omega
    · obtain rfl := Option.some.inj hrec
      by_cases hvalid : mibTagValid tag = true
      · have hstat : errStat ≠ 0 := fun h0 => hok ⟨h0, hvalid⟩
        rw [Reply.Hollow, not_and_or, not_or] at hreply
        obtain ⟨hword, hobj⟩ := hreply.resolve_left (not_not.mpr hstat)
        exact ho'.covered (by simpa using hword) hobj
      · exact ho'.covered_of_invalid (by simpa using hvalid)

lemma VarBind.covered_decoded {vb : VarBind} {o : Variable} (h : vb.decoded = some o)
    (hcontent : ¬ vb.EmptyNumber) : o.Covered := by
  obtain ⟨v, hv, hdec⟩ := Option.bind_eq_some_iff.mp h
  obtain ⟨value, hwrite, rfl⟩ := Option.map_eq_some_iff.mp hdec
  rw [Variable.write] at hwrite
  split_ifs at hwrite
  obtain rfl := Option.some.inj hwrite
  have hext := (extent_berValueDec hv).2 hcontent
  rw [Variable.Covered, List.length_append]
  exact hext.trans (Nat.le_add_right _ _)

section Covered

variable {handlers : Handlers} (hreply : ∀ c, ¬ (handlers [] c).Hollow) {root : MibNode}

include hreply

lemma Told.not_hollow {view oid : Oid} {reply : Reply} (h : Told handlers root view oid reply) :
    ¬ reply.Hollow := by
  cases h with
  | outside => exact id
  | reply => exact hreply _
  | noInst => exact fun h => h.1 rfl
  | noObj => exact id

lemma Probed.covered {view oid : Oid} {es : List Probe} {o : Variable} {r : Variable × Oid}
    (h : Probed handlers view oid es o r) (ho : o.Fits) : r.1.Covered := by
  induction h with
  | nil o => exact Variable.Fits.covered_of_invalid ⟨ho.len, ho.size⟩ rfl
  | invalid hrec _ _ ih => exact ih (ho.receive hrec)
  | outside hrec _ _ _ _ _ ih => exact ih (ho.receive hrec)
  | found hrec => exact ho.covered_of_receive (hreply _) hrec

lemma NextReads.covered {oid view : Oid} {o : Variable} {r : (Variable × Oid) × Bool}
    (h : NextReads handlers root oid view o r) (ho : o.Fits) : r.1.1.Covered := by
  cases h with
  | past => exact Variable.Fits.covered_of_invalid ⟨ho.len, ho.size⟩ rfl
  | search _ _ hrec _ hr => exact hr.covered hreply (ho.receive hrec)

/-- A view leaves a variable that is stored. -/
lemma SnmpDatagram.covered_reads {sdg : SnmpDatagram} {oid view : Oid} {o : Variable}
    {r : (Variable × Oid) × Bool} (h : sdg.reads handlers root oid view o r) (ho : o.Fits) :
    r.1.1.Covered := by
  rw [SnmpDatagram.reads] at h
  split_ifs at h
  · obtain ⟨reply, htold, o', hrec, rfl⟩ := h
    exact ho.covered_of_receive (htold.not_hollow hreply) hrec
  · exact NextReads.covered hreply h ho

section Views

variable {reads : Reads} (hfits : ∀ view o r, reads view o r → o.Fits → r.1.1.Fits)
  (hcovered : ∀ view o r, reads view o r → o.Fits → r.1.1.Covered)

omit hreply

include hfits hcovered

lemma ViewsLeave.covered {oid : Oid} {views : List Oid} {o : Variable} {r : Variable × Oid}
    (h : ViewsLeave reads oid views o r) (ho : o.Fits) (hcase : views ≠ [] ∨ o.Covered) :
    r.1.Covered := by
  induction h with
  | nil => exact hcase.resolve_left (by simp)
  | final h => exact hcovered _ _ _ h ho
  | next h _ ih => exact ih (hfits _ _ _ h ho) (.inr (hcovered _ _ _ h ho))

/-- A varbind leaves a variable that is stored: there is a view, or its value is. -/
lemma ViewsLeave.covered_of_answerable {ops : List ViewOp} {mv : MibViews} (hrun : ViewRun ops mv)
    {sdg : SnmpDatagram} {vb : VarBind} (hans : Answerable mv sdg vb) {o : Variable}
    (hdec : vb.decoded = some o) {r : Variable × Oid}
    (h : ViewsLeave reads vb.oid (viewsOf (requester mv sdg) .read) o r) : r.1.Covered := by
  apply h.covered hfits hcovered (VarBind.fits_decoded hdec)
  rcases hans with hknown | hcontent
  · obtain ⟨e, he⟩ := Option.ne_none_iff_exists'.mp hknown
    rw [he]
    exact .inl (hrun.requester_ok he).readable
  · exact .inr (VarBind.covered_decoded hdec hcontent)

end Views

/-- Nothing shows if every reply with the tag of a number or an OID has a value, and the requester is
known or there is no number without content. -/
lemma nothingShown_of_not_hollow {ops : List ViewOp} {mv : MibViews} (hrun : ViewRun ops mv)
    {sdg : SnmpDatagram} (hans : ∀ vb ∈ sdg.vbInList, Answerable mv sdg vb) :
    NothingShown handlers root mv sdg := by
  intro before vb after mem hvbs _ r ⟨o, hdec, hr⟩
  have hmem : vb ∈ sdg.vbInList := by simp [hvbs]
  have hcovered := hr.covered_of_answerable (fun _ _ _ => SnmpDatagram.fits_reads)
    (fun _ _ _ => SnmpDatagram.covered_reads hreply) hrun (hans vb hmem) hdec
  exact hcovered.unshown mem

end Covered

/-- A request of the community of `sampleViews`. -/
def sampleRead (pduType : UInt8) (vbs : List VarBind) : SnmpDatagram :=
  { sampleGetnext with
    pduHdr := { sampleGetnext.pduHdr with pduType := pduType }
    vbInList := vbs
    vbInCnt := vbs.length }

/-- A string that is left in the union, as far as later values do not cover it. -/
def staleVarBind : VarBind := ⟨[2], 0, asn1TagOctstr, [0, 0, 1, 0, 1, 0, 0, 0]⟩

/-- A string of two zeros, which leaves the rest of the union. -/
def zerosVarBind (oid : Oid) : VarBind := ⟨oid, 0, asn1TagOctstr, [0, 0]⟩

lemma stateless_scalarHandlers : Stateless scalarHandlers := fun _ _ _ => rfl

lemma not_hollow_scalarHandlers (c : Call) : ¬ (scalarHandlers [] c).Hollow := by
  rw [scalarHandlers]
  split_ifs
  · exact id
  · exact fun h => h.1 rfl

/-- Handlers that refuse every call, with the tag of an integer. -/
def refusingHandlers : Handlers := fun _ _ => .results 5 [] .nil asn1TagInt

/-- What a string of zeros leaves whose call is refused. -/
def refusedLeft : Variable × Oid := (⟨asn1TagInt, 2, [0, 0]⟩, [1, 0])

section Refusing

variable (vbs : List VarBind)

lemma viewsOf_sampleRead (pduType : UInt8) :
    viewsOf (requester sampleViews (sampleRead pduType vbs)) .read = [[1]] := rfl

/-- No view covers the varbind. -/
lemma leaves_outside (vb : VarBind) (hoid : vb.oid = [2]) {o : Variable} (hdec : vb.decoded = some o) :
    Leaves refusingHandlers oneInstance sampleViews (sampleRead mibReqGet vbs) vb
      ({ o with tag := asn1TagNoSuchObj }, [2]) := by
  refine ⟨o, hdec, ?_⟩
  rw [viewsOf_sampleRead, hoid]
  have hfinal : decide (Reply.error.report.Success ∨ oidCmp [2] [1] < 0) = false := by decide
  exact .next (r := ({ o with tag := asn1TagNoSuchObj }, [2]))
    ⟨.error, .outside (by decide), _, rfl, by rw [hfinal]⟩ (.nil _)

lemma leaves_refused :
    Leaves refusingHandlers oneInstance sampleViews (sampleRead mibReqGet vbs) (zerosVarBind [1, 0])
      refusedLeft := by
  refine ⟨⟨asn1TagOctstr, 2, [0, 0]⟩, by decide, ?_⟩
  rw [viewsOf_sampleRead]
  have hocc : MibNode.Occurs oneInstance [1] (.inst 7) :=
    (reachable_oneInstance.rootOk.1.mem_leaves_iff _ _).mp (by decide)
  exact .next (r := refusedLeft) ⟨_, .reply (by decide) hocc rfl (by simp), _, rfl, by decide⟩ (.nil _)

end Refusing

lemma Variable.unshown_zero (o : Variable) : o.Unshown zero.value where
  number := by
    intro _ i _ hi
    rw [zero, List.getElem?_replicate, if_pos (lt_trans hi (by decide))]
  oid := by
    intro _ _ ids ids' hids hids'
    obtain rfl := Option.some.inj (hids.symm.trans hids')
    exact .inr ⟨rfl, rfl⟩

/-- Zeros are left before a refused call. -/
lemma nothingShown_zeros : NothingShown refusingHandlers oneInstance sampleViews
    (sampleRead mibReqGet [zerosVarBind [2], zerosVarBind [1, 0]]) := by
  intro before vb after mem hvbs hleft r _
  cases before with
  | nil =>
    cases hleft
    exact r.1.unshown_zero
  | cons u before =>
    obtain ⟨rfl, hrest⟩ : zerosVarBind [2] = u ∧ [zerosVarBind [1, 0]] = before ++ vb :: after := by
      simpa [sampleRead] using hvbs
    obtain rfl : before = [] := by
      cases before with
      | nil => rfl
      | cons v before => simp at hrest
    cases hleft with
    | cons hr _ hnil =>
      obtain rfl := hr.unique (fun _ _ _ => rfl) reachable_oneInstance.rootOk viewRun_sampleViews
        (leaves_outside _ _ rfl rfl)
      cases hnil
      have hzero : (Variable.over ⟨asn1TagNoSuchObj, 2, [0, 0]⟩ Variable.zero.value).value =
          Variable.zero.value := by decide +kernel
      exact hzero ▸ r.1.unshown_zero

/-- The handler of the instance answers; or it refuses the call and zeros were left. -/
theorem independent_iff_nothingShown_scalarHandlers :
    Independent scalarHandlers oneInstance sampleViews
      (sampleRead mibReqGet [staleVarBind, zerosVarBind [1, 0], zerosVarBind [1]]) ∧
    Independent refusingHandlers oneInstance sampleViews
      (sampleRead mibReqGet [zerosVarBind [2], zerosVarBind [1, 0]]) := by
  have hscalar : ReadRequest (sampleRead mibReqGet [staleVarBind, zerosVarBind [1, 0], zerosVarBind [1]]) :=
    ⟨.inl rfl, rfl, by decide⟩
  refine ⟨?_, ?_⟩
  · refine (independent_iff_nothingShown stateless_scalarHandlers reachable_oneInstance
      viewRun_sampleViews hscalar).mpr (.inl ?_)
    refine nothingShown_of_not_hollow not_hollow_scalarHandlers viewRun_sampleViews ?_
    exact fun _ _ => .inl (by decide)
  · exact (independent_iff_nothingShown (fun _ _ _ => rfl) reachable_oneInstance viewRun_sampleViews
      ⟨.inl rfl, rfl, by decide⟩).mpr (.inl nothingShown_zeros)

/-- A GET of an OID that no view covers, with a string that leaves a one behind two zeros, and of an
instance whose handler returns an error status with the tag of an integer. -/
theorem not_independent_refusingHandlers :
    Stateless refusingHandlers ∧ Reachable oneInstance ∧
      ViewRun [.reg .community [1] [112] .write] sampleViews ∧
      ReadRequest (sampleRead mibReqGet [staleVarBind, zerosVarBind [1, 0]]) ∧
      ¬ Independent refusingHandlers oneInstance sampleViews
        (sampleRead mibReqGet [staleVarBind, zerosVarBind [1, 0]]) := by
  have hst : Stateless refusingHandlers := fun _ _ _ => rfl
  have hroot := reachable_oneInstance.rootOk
  have hread : ReadRequest (sampleRead mibReqGet [staleVarBind, zerosVarBind [1, 0]]) :=
    ⟨.inl rfl, rfl, by decide⟩
  refine ⟨hst, reachable_oneInstance, viewRun_sampleViews, hread, fun hind => ?_⟩
  have hstale := leaves_outside [staleVarBind, zerosVarBind [1, 0]] staleVarBind rfl rfl
  have hrefused := leaves_refused [staleVarBind, zerosVarBind [1, 0]]
  have henc : ∀ {r : Variable × Oid} {vb : VarBind} {vbs : List VarBind},
      Leaves refusingHandlers oneInstance sampleViews (sampleRead mibReqGet vbs) vb r →
      vb.oid.length ≤ mibOidMaxLen → r.1.tag ≠ asn1TagObjid → ∀ mem, ∃ vbOut, sent r mem = some vbOut :=
    fun hr hoid htag mem => Option.ne_none_iff_exists'.mp
      ((sent_ne_none_iff (hr.sendable hoid)).mpr fun h => absurd h htag)
  obtain ⟨o₁, ho₁⟩ := henc hstale (by decide) (by decide) Variable.zero.value
  obtain ⟨o₂, ho₂⟩ := henc hrefused (by decide) (by decide)
    (Variable.over ⟨asn1TagNoSuchObj, 8, [0, 0, 1, 0, 1, 0, 0, 0]⟩ Variable.zero.value).value
  -- both varbinds are appended, and what the string left shows in the second one
  have happ := (independent_iff_appends hst hroot viewRun_sampleViews hread).mp hind [o₁, o₂]
  have hshown := unshown_of_appends hst hroot viewRun_sampleViews hread.oid List.length_replicate
    (.cons hstale ho₁ (.cons hrefused ho₂ (.nil _))) (happ.mp (.cons hstale ho₁ (.cons hrefused ho₂ (.nil _))))
    rfl (.cons hstale (fun h => absurd h (by decide)) (.nil _)) hrefused
  exact absurd (hshown.number rfl 2 (by decide) (by decide)) (by decide)

end SmartSnmp
