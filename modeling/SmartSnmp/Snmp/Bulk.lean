import SmartSnmp.Snmp.Echo

/-!
# GETBULK

`snmp_bulkget` compared with the single GETNEXT step: the varbind of a round is the one that the
step gives for the varbind of the round before, asked with the OID that was returned there.
-/

namespace SmartSnmp

section Bulk

variable (handlers : Handlers) (root : MibNode) (mv : MibViews) (sdg : SnmpDatagram)

/-- The single GETNEXT step on a cleared result: the OID that is returned, and the varbind of the
response. -/
def getnextOnce (vb : VarBind) : Traced Call (Oid × VarBind) :=
  match decodeValue vb (.init .getNext) with
  | none => Traced.crash
  | some ret => do
    let ret ← mibGetnext handlers root mv sdg vb ret
    match getVarBind ret with
    | none => Traced.crash
    | some vbOut => pure (ret.oid, vbOut)

/-- The varbind after `r` more steps, each with the OID that the one before returned. -/
def getnextIter : Nat → VarBind → Traced Call VarBind
  | 0, vb => do
    let (_, vbOut) ← getnextOnce handlers root mv sdg vb
    pure vbOut
  | r + 1, vb => do
    let (oid, _) ← getnextOnce handlers root mv sdg vb
    getnextIter r { vb with oid := oid }

/-- The repetitions of a GETBULK request. -/
def SnmpDatagram.repetitions (sdg : SnmpDatagram) : Nat := sdg.pduHdr.errIdx.toUInt32.toNat

/-- A GETBULK request appends a varbind for each repetition and each of its varbinds. -/
structure Iterated (s : ProcState) : Prop where
  length : s.sdg.vbOutList.length =
    sdg.vbOutList.length + sdg.repetitions * sdg.vbInList.length
  varbind : ∀ r < sdg.repetitions, ∀ i vb, sdg.vbInList[i]? = some vb → ∃ vbOut,
    s.sdg.vbOutList[sdg.vbOutList.length + (r * sdg.vbInList.length + i)]? = some vbOut ∧
      Traced.Gives (getnextIter handlers root mv sdg r vb) vbOut
  ended : ∀ r < sdg.repetitions, ∀ i < sdg.vbInList.length, ∀ vbOut,
    s.sdg.vbOutList[sdg.vbOutList.length + (r * sdg.vbInList.length + i)]? = some vbOut →
      vbOut.valueType = asn1TagEndOfMibView → ∀ r' < sdg.repetitions, r ≤ r' →
        s.sdg.vbOutList[sdg.vbOutList.length + (r' * sdg.vbInList.length + i)]? = some vbOut

/-- GETBULK is iterated GETNEXT: it returns if and only if the steps do, and then with the varbinds
of the steps. -/
structure BulkIterates : Prop where
  returns : ∀ l, (∃ r l', snmpBulkget handlers root mv sdg l = (.ok r, l')) ↔
    ∀ r < sdg.repetitions, ∀ vb ∈ sdg.vbInList, ∃ vbOut,
      Traced.Gives (getnextIter handlers root mv sdg r vb) vbOut
  iterated : ∀ l s r l', snmpBulkget handlers root mv sdg l = (.ok (s, r), l') →
    Iterated handlers root mv sdg s

end Bulk

/-! ### Iterations -/

section Iterations

variable {handlers : Handlers} (hst : Stateless handlers)
  (hreply : ∀ c, ¬ (handlers [] c).Hollow) {root : MibNode} (hroot : RootOk root) {ops : List ViewOp}
  {mv : MibViews} (hrun : ViewRun ops mv) {sdg : SnmpDatagram} {vb : VarBind}
  (hans : Answerable mv sdg vb)

include hst hreply hroot hrun hans

/-- An iteration does not depend on the earlier ones: what it sends is what it stores, as in a union
that was cleared. -/
lemma denotes_getnextStep {s : ProcState} (hs : Reading .getNext sdg s) :
    Traced.Denotes (fun s' (q : (Variable × Oid) × VarBind) => Stepped .getNext sdg s s' q.1 q.2)
      (fun (q : (Variable × Oid) × VarBind) => (∃ o, vb.decoded = some o ∧
        ViewsLeave (NextReads handlers root vb.oid) vb.oid (viewsOf (requester mv sdg) .read) o q.1) ∧
        sent q.1 Variable.zero.value = some q.2)
      (getnextStep handlers root mv s vb) := by
  have hfits : ∀ view o r, NextReads handlers root vb.oid view o r → o.Fits → r.1.1.Fits :=
    fun _ _ _ => NextReads.fits
  have hcovered : ∀ view o r, NextReads handlers root vb.oid view o r → o.Fits → r.1.1.Covered :=
    fun _ _ _ => NextReads.covered hreply
  have hstep := denotes_processVarBind (fun o ret hreq hvar =>
    denotes_mibGetnext hst hroot ret hrun s.sdg vb hreq hvar) hfits hs
  rw [hs.same.requester mv] at hstep
  refine hstep.mono ?_ fun _ _ _ h => h
  rintro ⟨r, vbOut⟩
  refine and_congr_right ?_
  rintro ⟨o, hdec, hr⟩
  have hzero : Variable.zero.value.length = mibValueMaxLen := List.length_replicate
  have hr' := hr.covered_of_answerable hfits hcovered hrun hans hdec
  rw [sent_eq_of_covered hr' (hr.fits hfits (VarBind.fits_decoded hdec)) hs.whole hzero]

lemma related_getnextStep {s₁ s₂ : ProcState} (h₁ : Reading .getNext sdg s₁)
    (h₂ : Reading .getNext sdg s₂) :
    Traced.Related (fun s₁' s₂' => ∃ r vbOut, Stepped .getNext sdg s₁ s₁' r vbOut ∧
        Stepped .getNext sdg s₂ s₂' r vbOut)
      (getnextStep handlers root mv s₁ vb) (getnextStep handlers root mv s₂ vb) := by
  refine ((denotes_getnextStep hst hreply hroot hrun hans h₁).related
    (denotes_getnextStep hst hreply hroot hrun hans h₂)).mono ?_
  rintro s₁' s₂' ⟨⟨r, vbOut⟩, _, hleft, hright⟩
  exact ⟨r, vbOut, hleft, hright⟩

end Iterations

/-! ### Single steps -/

section Once

variable {handlers : Handlers} {root : MibNode} {mv : MibViews} {sdg : SnmpDatagram}

/-- A step that reaches the end of the view returns the OID it was asked with. -/
lemma returns_walkViews_end {search : Oid → OidSearchRes → Traced Call OidSearchRes} (oid : Oid)
    (views : List Oid) (ret : OidSearchRes) :
    Traced.Returns (fun r => r.var.tag = asn1TagEndOfMibView → r.oid = oid)
      (walkViews search (fun _ ret => ret.var.tag ≠ asn1TagEndOfMibView) oid views ret) := by
  induction views generalizing ret with
  | nil => exact Traced.returns_pure fun _ => rfl
  | cons view views ih =>
    refine (Traced.returns_true (search view ret)).bind fun r _ => ?_
    split_ifs with hfinal
    · exact Traced.returns_pure fun hend => absurd hend (by simpa using hfinal)
    · exact ih r

lemma getVarBind_valueType {vbOut : VarBind} {ret : OidSearchRes}
    (h : getVarBind ret = some vbOut) : vbOut.valueType = ret.var.tag := by
  simp only [getVarBind, responseVarBind, Option.bind_eq_some_iff, Option.map_eq_some_iff] at h
  obtain ⟨_, _, _, _, _, _, rfl⟩ := h
  rfl

lemma returns_getnextOnce {ops : List ViewOp} (hrun : ViewRun ops mv) (vb : VarBind) :
    Traced.Returns (fun p => p.2.valueType = asn1TagEndOfMibView → p.1 = vb.oid)
      (getnextOnce handlers root mv sdg vb) := by
  rw [getnextOnce]
  cases decodeValue vb (.init .getNext) with
  | none => exact Traced.returns_crash
  | some ret =>
    have hok : ∀ x ∈ requester mv sdg, x.Ok := fun x hx => hrun.requester_ok hx
    simp only [mibGetnext]
    rw [viewLoop_requester sdg _ (viewsOf_nodup hok .read)]
    refine (returns_walkViews_end vb.oid _ _).bind fun ret' hend => ?_
    cases hout : getVarBind ret' with
    | none => exact Traced.returns_crash
    | some vbOut =>
      refine Traced.returns_pure fun htype => hend ?_
      rw [← getVarBind_valueType hout, htype]

/-- The step on a cleared result, by the iteration. -/
lemma getnextOnce_eq (vb : VarBind) :
    getnextOnce handlers root mv sdg vb =
      getnextStep handlers root mv (.init .getNext sdg) vb >>= fun s =>
        pure (s.ret.oid, s.sdg.vbOutList.getLast?.getD vb) := by
  rw [getnextOnce, getnextStep, processVarBind]
  have hinit : (ProcState.init .getNext sdg).ret = .init .getNext := rfl
  rw [hinit]
  cases decodeValue vb (.init .getNext) with
  | none => rfl
  | some ret =>
    simp only [Traced.bind_assoc]
    congr 1
    funext ret'
    cases getVarBind ret' with
    | none => rfl
    | some vbOut => simp [ProcState.add, SnmpDatagram.addVarBind]

end Once

section Steps

variable {handlers : Handlers} (hst : Stateless handlers) (hreply : ∀ c, ¬ (handlers [] c).Hollow)
  {root : MibNode} (hroot : RootOk root) {ops : List ViewOp} {mv : MibViews} (hrun : ViewRun ops mv)
  {sdg : SnmpDatagram} (hsdg : sdg.vbOutList = [])

include hst hreply hroot hrun hsdg

/-- An iteration of GETBULK does what the single step does. -/
lemma related_getnextOnce {s : ProcState} (hs : Reading .getNext sdg s) {vb : VarBind}
    (hans : Answerable mv sdg vb) :
    Traced.Related (fun s' p => Reading .getNext sdg s' ∧
        s'.sdg.vbOutList = s.sdg.vbOutList ++ [p.2] ∧ s'.ret.oid = p.1)
      (getnextStep handlers root mv s vb) (getnextOnce handlers root mv sdg vb) := by
  rw [getnextOnce_eq]
  refine Traced.Related.map_right
    (related_getnextStep hst hreply hroot hrun hans hs (.init .getNext hsdg)) _ ?_
  rintro s₁ s₂ ⟨r, vbOut, hleft, hright⟩
  refine ⟨hleft.reading, ?_, hleft.oid.trans hright.oid.symm⟩
  rw [hleft.out, hright.out]
  simp

lemma related_getnextOnce_self {vb : VarBind} (hans : Answerable mv sdg vb) :
    Traced.Related Eq (getnextOnce handlers root mv sdg vb) (getnextOnce handlers root mv sdg vb) := by
  apply (related_getnextOnce hst hreply hroot hrun hsdg (.init .getNext hsdg) hans).self_right
  rintro s ⟨oid, vbOut⟩ ⟨oid', vbOut'⟩ ⟨_, hout, hoid⟩ ⟨_, hout', hoid'⟩
  rw [hout] at hout'
  exact Prod.ext (hoid.symm.trans hoid') (by simpa using hout')

/-- An iteration that returns. -/
lemma getnextStep_ok {s s' : ProcState} (hs : Reading .getNext sdg s) {vb : VarBind}
    (hans : Answerable mv sdg vb) {l l' : List Call}
    (hstep : getnextStep handlers root mv s vb l = (.ok s', l')) :
    ∃ vbOut, Traced.Gives (getnextOnce handlers root mv sdg vb) (s'.ret.oid, vbOut) ∧
      Reading .getNext sdg s' ∧ s'.sdg.vbOutList = s.sdg.vbOutList ++ [vbOut] := by
  obtain ⟨⟨oid, vbOut⟩, _, honce, hread, hout, hoid⟩ :=
    (related_getnextOnce hst hreply hroot hrun hsdg hs hans).of_ok hstep []
  refine ⟨vbOut, ?_, hread, hout⟩
  rw [hoid]
  exact (related_getnextOnce_self hst hreply hroot hrun hsdg hans).gives honce

/-- An iteration returns if the step does. -/
lemma getnextStep_of_gives {s : ProcState} (hs : Reading .getNext sdg s) {vb : VarBind}
    (hans : Answerable mv sdg vb) {p : Oid × VarBind}
    (hp : Traced.Gives (getnextOnce handlers root mv sdg vb) p) (l : List Call) :
    ∃ s' l', getnextStep handlers root mv s vb l = (.ok s', l') := by
  obtain ⟨l₁, hl₁⟩ := hp []
  have hrel := related_getnextOnce hst hreply hroot hrun hsdg hs hans
  obtain ⟨s', l', hs', _⟩ := hrel.of_ok_right hl₁ l
  exact ⟨s', l', hs'⟩

/-- The varbind of a later round does not depend on what was asked. -/
lemma related_getnextIter_self (r : Nat) {vb : VarBind} (hans : Answerable mv sdg vb) :
    Traced.Related Eq (getnextIter handlers root mv sdg r vb)
      (getnextIter handlers root mv sdg r vb) := by
  induction r generalizing vb with
  | zero =>
    apply (related_getnextOnce_self hst hreply hroot hrun hsdg hans).bind
    rintro p _ rfl
    exact Traced.related_pure rfl
  | succ r ih =>
    apply (related_getnextOnce_self hst hreply hroot hrun hsdg hans).bind
    rintro p _ rfl
    exact ih hans

end Steps

/-! ### Rounds -/

/-- The varbind of the next round and that of the response. -/
structure Advances (handlers : Handlers) (root : MibNode) (mv : MibViews) (sdg : SnmpDatagram)
    (vb : VarBind) (p : VarBind × VarBind) : Prop where
  next : p.1 = { vb with oid := p.1.oid }
  gives : Traced.Gives (getnextOnce handlers root mv sdg vb) (p.1.oid, p.2)

lemma Advances.answerable {handlers : Handlers} {root : MibNode} {mv : MibViews} {sdg : SnmpDatagram}
    {vb : VarBind} {p : VarBind × VarBind} (h : Advances handlers root mv sdg vb p)
    (hans : Answerable mv sdg vb) : Answerable mv sdg p.1 := by
  rw [h.next]
  exact hans

/-- What carries over from the varbinds of a round to those of the next one. -/
lemma Advances.forall_next {handlers : Handlers} {root : MibNode} {mv : MibViews}
    {sdg : SnmpDatagram} {P Q : VarBind → Prop}
    (hPQ : ∀ vb p, Advances handlers root mv sdg vb p → P vb → Q p.1) {vbs : List VarBind}
    {ps : List (VarBind × VarBind)} (h : List.Forall₂ (Advances handlers root mv sdg) vbs ps)
    (hvbs : ∀ vb ∈ vbs, P vb) : ∀ vb ∈ ps.map Prod.fst, Q vb := by
  induction h with
  | nil => simp
  | cons hp _ ih =>
    obtain ⟨hvb, hvbs⟩ := List.forall_mem_cons.mp hvbs
    exact List.forall_mem_cons.mpr ⟨hPQ _ _ hp hvb, ih hvbs⟩

section Rounds

variable {handlers : Handlers} {root : MibNode} {mv : MibViews} {sdg : SnmpDatagram}

/-- One step, and then the others from where it led. -/
lemma Advances.run {vb : VarBind} {p : VarBind × VarBind} (h : Advances handlers root mv sdg vb p)
    (r : Nat) (l : List Call) : ∃ l', getnextIter handlers root mv sdg (r + 1) vb l =
      getnextIter handlers root mv sdg r p.1 l' := by
  obtain ⟨l', hl'⟩ := h.gives l
  refine ⟨l', (Traced.bind_apply_ok hl' _).trans ?_⟩
  conv_rhs => rw [h.next]

lemma Advances.iter_zero {vb : VarBind} {p : VarBind × VarBind}
    (h : Advances handlers root mv sdg vb p) :
    Traced.Gives (getnextIter handlers root mv sdg 0 vb) p.2 :=
  h.gives.bind (Traced.gives_pure _)

lemma Advances.iter_succ {vb vbOut : VarBind} {p : VarBind × VarBind}
    (h : Advances handlers root mv sdg vb p) {r : Nat}
    (hr : Traced.Gives (getnextIter handlers root mv sdg r p.1) vbOut) :
    Traced.Gives (getnextIter handlers root mv sdg (r + 1) vb) vbOut := by
  intro l
  obtain ⟨l', hl'⟩ := h.run r l
  rw [hl']
  exact hr l'

variable (hst : Stateless handlers) (hreply : ∀ c, ¬ (handlers [] c).Hollow) (hroot : RootOk root)
  {ops : List ViewOp} (hrun : ViewRun ops mv) (hsdg : sdg.vbOutList = [])

include hst hreply hroot hrun hsdg

/-- Each varbind of a round that returns has advanced. -/
lemma bulkRound_ok {vbs vbs' : List VarBind} (hans : ∀ vb ∈ vbs, Answerable mv sdg vb)
    {s s' : ProcState} (hs : Reading .getNext sdg s) {l l' : List Call}
    (hround : bulkRound handlers root mv vbs s l = (.ok (vbs', s'), l')) :
    ∃ ps, List.Forall₂ (Advances handlers root mv sdg) vbs ps ∧ vbs' = ps.map Prod.fst ∧
      Reading .getNext sdg s' ∧ s'.sdg.vbOutList = s.sdg.vbOutList ++ ps.map Prod.snd := by
  induction vbs generalizing s vbs' l l' with
  | nil =>
    obtain ⟨⟨rfl, rfl⟩, _⟩ : (_ ∧ _) ∧ l = l' := by simpa [bulkRound] using hround
    exact ⟨[], .nil, rfl, hs, by simp⟩
  | cons vb vbs ih =>
    obtain ⟨hvb, hvbs⟩ := List.forall_mem_cons.mp hans
    obtain ⟨s₁, l₁, hstep, hround⟩ := Traced.bind_eq_ok hround
    obtain ⟨⟨vbs₁, s₂⟩, l₂, hrest, hround⟩ := Traced.bind_eq_ok hround
    obtain ⟨⟨rfl, rfl⟩, rfl⟩ : (_ ∧ _) ∧ l₂ = l' := by simpa using hround
    obtain ⟨vbOut, hgives, hread, hout⟩ := getnextStep_ok hst hreply hroot hrun hsdg hs hvb hstep
    obtain ⟨ps, hps, rfl, hread', hout'⟩ := ih hvbs hread hrest
    refine ⟨({ vb with oid := s₁.ret.oid }, vbOut) :: ps, .cons ⟨rfl, hgives⟩ hps, rfl, hread', ?_⟩
    rw [hout', hout, List.append_assoc]
    rfl

/-- A round returns if the steps of its varbinds do. -/
lemma bulkRound_of_gives {vbs : List VarBind} (hans : ∀ vb ∈ vbs, Answerable mv sdg vb)
    (hgives : ∀ vb ∈ vbs, ∃ vbOut, Traced.Gives (getnextIter handlers root mv sdg 0 vb) vbOut)
    {s : ProcState} (hs : Reading .getNext sdg s) (l : List Call) :
    ∃ r l', bulkRound handlers root mv vbs s l = (.ok r, l') := by
  induction vbs generalizing s l with
  | nil => exact ⟨_, _, rfl⟩
  | cons vb vbs ih =>
    obtain ⟨hvb, hvbs⟩ := List.forall_mem_cons.mp hans
    obtain ⟨⟨vbOut, honce⟩, hgives⟩ := List.forall_mem_cons.mp hgives
    obtain ⟨l₁, hl₁⟩ := honce []
    obtain ⟨p, l₂, hp, _⟩ := Traced.bind_eq_ok hl₁
    have hp' := (related_getnextOnce_self hst hreply hroot hrun hsdg hvb).gives hp
    obtain ⟨s₁, l₃, hstep⟩ := getnextStep_of_gives hst hreply hroot hrun hsdg hs hvb hp' l
    obtain ⟨_, _, hread, _⟩ := getnextStep_ok hst hreply hroot hrun hsdg hs hvb hstep
    obtain ⟨⟨vbs', s'⟩, l₄, hrest⟩ := ih hvbs hgives hread l₃
    refine ⟨({ vb with oid := s₁.ret.oid } :: vbs', s'), l₄, ?_⟩
    rw [bulkRound, Traced.bind_apply_ok hstep, Traced.bind_apply_ok hrest]
    rfl

lemma bulkRounds_ok (n : Nat) {s s' : ProcState} (hs : Reading .getNext sdg s)
    (hans : ∀ vb ∈ s.sdg.vbInList, Answerable mv sdg vb) {l l' : List Call}
    (hrounds : bulkRounds handlers root mv n s l = (.ok s', l')) :
    Reading .getNext sdg s' ∧ ∃ outs, s'.sdg.vbOutList = s.sdg.vbOutList ++ outs ∧
      outs.length = n * s.sdg.vbInList.length ∧
      ∀ r < n, ∀ i vb, s.sdg.vbInList[i]? = some vb → ∃ vbOut,
        outs[r * s.sdg.vbInList.length + i]? = some vbOut ∧
          Traced.Gives (getnextIter handlers root mv sdg r vb) vbOut := by
  induction n generalizing s l with
  | zero =>
    obtain ⟨rfl, _⟩ : s = s' ∧ l = l' := by simpa [bulkRounds] using hrounds
    exact ⟨hs, [], by simp, by simp, by simp⟩
  | succ n ih =>
    obtain ⟨⟨vbs', s₁⟩, l₁, hround, hrounds⟩ := Traced.bind_eq_ok hrounds
    obtain ⟨ps, hps, rfl, hread, hout⟩ :=
      bulkRound_ok hst hreply hroot hrun hsdg hans hs hround
    have hlen : ps.length = s.sdg.vbInList.length := hps.length_eq.symm
    have hadv : ∀ (i : Nat) vb, s.sdg.vbInList[i]? = some vb → ∃ p, ps[i]? = some p ∧
        Advances handlers root mv sdg vb p := by
      intro i vb hvb
      obtain ⟨hi, rfl⟩ := List.getElem?_eq_some_iff.mp hvb
      exact ⟨ps.get ⟨i, hlen ▸ hi⟩, List.getElem?_eq_getElem _, hps.get hi (hlen ▸ hi)⟩
    have hread₁ : Reading .getNext sdg
        { s₁ with sdg := { s₁.sdg with vbInList := ps.map Prod.fst } } :=
      ⟨hread.request, hread.whole, ⟨hread.same.version, hread.same.userName, hread.same.contextName⟩,
        hread.sendable⟩
    obtain ⟨hread', outs, hout', hlen', hvarbind⟩ := ih hread₁
      (Advances.forall_next (fun _ _ => Advances.answerable) hps hans) hrounds
    refine ⟨hread', ps.map Prod.snd ++ outs, ?_, ?_, fun r hr i vb hvb => ?_⟩
    · rw [hout', hout, List.append_assoc]
    · simp only [List.length_map] at hlen'
      rw [List.length_append, hlen', List.length_map, hlen]
      ring
    · obtain ⟨p, hp, hstep⟩ := hadv i vb hvb
      have hlt : i < s.sdg.vbInList.length := (List.getElem?_eq_some_iff.mp hvb).1
      cases r with
      | zero =>
        refine ⟨p.2, ?_, hstep.iter_zero⟩
        rw [Nat.zero_mul, Nat.zero_add, List.getElem?_append_left (by simpa [hlen] using hlt),
          List.getElem?_map, hp, Option.map_some]
      | succ r =>
        obtain ⟨vbOut, hvbOut, hgives⟩ := hvarbind r (Nat.lt_of_succ_lt_succ hr) i p.1
          (by rw [List.getElem?_map, hp, Option.map_some])
        refine ⟨vbOut, ?_, hstep.iter_succ hgives⟩
        simp only [List.length_map, hlen] at hvbOut
        have hidx : (r + 1) * s.sdg.vbInList.length + i - (ps.map Prod.snd).length =
            r * s.sdg.vbInList.length + i := by
          rw [List.length_map, hlen, Nat.succ_mul]
          omega
        rw [List.getElem?_append_right, hidx, hvbOut]
        rw [List.length_map, hlen, Nat.succ_mul]
        omega

/-- What the first of several steps leads to. -/
lemma advances_of_gives {vb vbOut : VarBind} (hans : Answerable mv sdg vb) {r : Nat}
    (h : Traced.Gives (getnextIter handlers root mv sdg r vb) vbOut) :
    ∃ p, Advances handlers root mv sdg vb p := by
  obtain ⟨l, hl⟩ := h []
  have honce : ∃ q l', getnextOnce handlers root mv sdg vb [] = (.ok q, l') := by
    cases r with
    | zero =>
      obtain ⟨q, l', hq, _⟩ := Traced.bind_eq_ok hl
      exact ⟨q, l', hq⟩
    | succ r =>
      obtain ⟨q, l', hq, _⟩ := Traced.bind_eq_ok hl
      exact ⟨q, l', hq⟩
  obtain ⟨⟨oid, vbOut'⟩, l', hq⟩ := honce
  exact ⟨({ vb with oid := oid }, vbOut'), rfl,
    (related_getnextOnce_self hst hreply hroot hrun hsdg hans).gives hq⟩

lemma Advances.iter_of_succ {vb vbOut : VarBind} {p : VarBind × VarBind}
    (h : Advances handlers root mv sdg vb p) (hans : Answerable mv sdg vb) {r : Nat}
    (hr : Traced.Gives (getnextIter handlers root mv sdg (r + 1) vb) vbOut) :
    Traced.Gives (getnextIter handlers root mv sdg r p.1) vbOut := by
  obtain ⟨l, hl⟩ := hr []
  obtain ⟨l', hl'⟩ := h.run r []
  rw [hl'] at hl
  exact (related_getnextIter_self hst hreply hroot hrun hsdg r (h.answerable hans)).gives hl

/-- The rounds return if the steps of all of them do. -/
lemma bulkRounds_of_gives (n : Nat) {s : ProcState} (hs : Reading .getNext sdg s)
    (hans : ∀ vb ∈ s.sdg.vbInList, Answerable mv sdg vb)
    (hgives : ∀ r < n, ∀ vb ∈ s.sdg.vbInList, ∃ vbOut,
      Traced.Gives (getnextIter handlers root mv sdg r vb) vbOut) (l : List Call) :
    ∃ s' l', bulkRounds handlers root mv n s l = (.ok s', l') := by
  induction n generalizing s l with
  | zero => exact ⟨s, l, rfl⟩
  | succ n ih =>
    obtain ⟨⟨vbs', s₁⟩, l₁, hround⟩ := bulkRound_of_gives hst hreply hroot hrun hsdg hans
      (hgives 0 (Nat.succ_pos n)) hs l
    obtain ⟨ps, hps, rfl, hread, _⟩ := bulkRound_ok hst hreply hroot hrun hsdg hans hs hround
    have hread₁ : Reading .getNext sdg
        { s₁ with sdg := { s₁.sdg with vbInList := ps.map Prod.fst } } :=
      ⟨hread.request, hread.whole, ⟨hread.same.version, hread.same.userName, hread.same.contextName⟩,
        hread.sendable⟩
    have hnext : ∀ r < n, ∀ vb ∈ ps.map Prod.fst, ∃ vbOut,
        Traced.Gives (getnextIter handlers root mv sdg r vb) vbOut := by
      intro r hr
      refine Advances.forall_next (P := fun vb => Answerable mv sdg vb ∧ ∃ vbOut,
        Traced.Gives (getnextIter handlers root mv sdg (r + 1) vb) vbOut) ?_ hps fun vb hvb =>
          ⟨hans vb hvb, hgives (r + 1) (Nat.succ_lt_succ hr) vb hvb⟩
      rintro vb p hp ⟨hvb, vbOut, hvbOut⟩
      exact ⟨vbOut, hp.iter_of_succ hst hreply hroot hrun hsdg hvb hvbOut⟩
    obtain ⟨s', l', hs'⟩ := ih hread₁
      (Advances.forall_next (fun _ _ => Advances.answerable) hps hans) hnext l₁
    exact ⟨s', l', by rw [bulkRounds, Traced.bind_apply_ok hround]; exact hs'⟩

/-- At the end of the view a step repeats itself. -/
lemma iter_of_end {vb vbOut : VarBind} (hans : Answerable mv sdg vb) {r r' : Nat} (hle : r ≤ r')
    (h : Traced.Gives (getnextIter handlers root mv sdg r vb) vbOut)
    (hend : vbOut.valueType = asn1TagEndOfMibView) :
    Traced.Gives (getnextIter handlers root mv sdg r' vb) vbOut := by
  have hsucc : ∀ r, ∀ vb, Answerable mv sdg vb →
      Traced.Gives (getnextIter handlers root mv sdg r vb) vbOut →
      Traced.Gives (getnextIter handlers root mv sdg (r + 1) vb) vbOut := by
    intro r
    induction r with
    | zero =>
      intro vb hans h
      obtain ⟨p, hp⟩ := advances_of_gives hst hreply hroot hrun hsdg hans h
      obtain rfl : p.2 = vbOut := hp.iter_zero.unique h
      obtain ⟨l, hl⟩ := hp.gives []
      -- the OID that is returned is the one that was asked with
      have hoid : p.1.oid = vb.oid := returns_getnextOnce hrun vb _ _ _ hl hend
      have hsame : p.1 = vb := by
        rw [hp.next, hoid]
      exact hp.iter_succ (hsame ▸ h)
    | succ r ih =>
      intro vb hans h
      obtain ⟨p, hp⟩ := advances_of_gives hst hreply hroot hrun hsdg hans h
      exact hp.iter_succ (ih p.1 (hp.answerable hans)
        (hp.iter_of_succ hst hreply hroot hrun hsdg hans h))
  induction hle with
  | refl => exact h
  | step _ ih => exact hsucc _ vb hans ih

/-- GETBULK on varbinds that can be answered by themselves. -/
lemma bulkIterates_of_answerable (hans : ∀ vb ∈ sdg.vbInList, Answerable mv sdg vb) :
    BulkIterates handlers root mv sdg := by
  have hinit : Reading .getNext sdg
      (.init .getNext { sdg with pduHdr := { sdg.pduHdr with errIdx := 0 } }) :=
    ⟨rfl, List.length_replicate, ⟨rfl, rfl, rfl⟩, by simp [ProcState.init, hsdg]⟩
  constructor
  · intro l
    constructor
    · rintro ⟨r, l', hbulk⟩ k hk vb hvb
      obtain ⟨s, l₁, hrounds, _⟩ := Traced.bind_eq_ok hbulk
      obtain ⟨_, outs, _, _, hvarbind⟩ :=
        bulkRounds_ok hst hreply hroot hrun hsdg sdg.repetitions hinit hans hrounds
      obtain ⟨i, hi⟩ := List.mem_iff_getElem?.mp hvb
      obtain ⟨vbOut, _, hgives⟩ := hvarbind k hk i vb hi
      exact ⟨vbOut, hgives⟩
    · intro hgives
      obtain ⟨s, l₁, hrounds⟩ :=
        bulkRounds_of_gives hst hreply hroot hrun hsdg sdg.repetitions hinit hans hgives l
      obtain ⟨hread, _⟩ :=
        bulkRounds_ok hst hreply hroot hrun hsdg sdg.repetitions hinit hans hrounds
      obtain ⟨r, hr⟩ := hread.respond
      refine ⟨(s, r), l₁, ?_⟩
      rw [SnmpDatagram.repetitions] at hrounds
      rw [snmpBulkget, Traced.bind_apply_ok hrounds, hr]
      rfl
  · intro l s r l' hbulk
    obtain ⟨s₁, l₁, hrounds, hresp⟩ := Traced.bind_eq_ok hbulk
    obtain ⟨hread, outs, hout, hlen, hvarbind⟩ :=
      bulkRounds_ok hst hreply hroot hrun hsdg sdg.repetitions hinit hans hrounds
    obtain ⟨r', hr'⟩ := hread.respond
    obtain ⟨⟨rfl, _⟩, _⟩ : (s₁ = s ∧ r' = r) ∧ l₁ = l' := by simpa [hr'] using hresp
    have hnil : (ProcState.init .getNext
        { sdg with pduHdr := { sdg.pduHdr with errIdx := 0 } }).sdg.vbOutList = [] := hsdg
    rw [hnil, List.nil_append] at hout
    have hvarbind' : ∀ r < sdg.repetitions, ∀ (i : Nat) vb, sdg.vbInList[i]? = some vb → ∃ vbOut,
        s₁.sdg.vbOutList[sdg.vbOutList.length + (r * sdg.vbInList.length + i)]? = some vbOut ∧
          Traced.Gives (getnextIter handlers root mv sdg r vb) vbOut := by
      intro r hr i vb hvb
      rw [hout, hsdg, List.length_nil, Nat.zero_add]
      exact hvarbind r hr i vb hvb
    refine ⟨?_, hvarbind', ?_⟩
    · rw [hout, hlen, hsdg, List.length_nil, Nat.zero_add]
      rfl
    · intro r hr i hi vbOut hvbOut hend r' hr' hle
      obtain ⟨x, hx, hgives⟩ := hvarbind' r hr i _ (List.getElem?_eq_getElem hi)
      obtain ⟨y, hy, hgives'⟩ := hvarbind' r' hr' i _ (List.getElem?_eq_getElem hi)
      obtain rfl : x = vbOut := by simpa [hx] using hvbOut
      have hx' := iter_of_end hst hreply hroot hrun hsdg (hans _ (List.getElem_mem hi)) hle hgives hend
      rw [hy, hgives'.unique hx']

end Rounds

/-! ### GETBULK and GETNEXT -/

/-- No handler reports an error status. -/
def Errorless (handlers : Handlers) : Prop :=
  ∀ l c errStat subOid val tag, handlers l c = .results errStat subOid val tag → errStat = 0

lemma Errorless.not_hollow {handlers : Handlers} (h : Errorless handlers) (l : List Call) (c : Call) :
    ¬ (handlers l c).Hollow := by
  cases hreply : handlers l c with
  | error => exact id
  | results errStat subOid val tag =>
    intro hhollow
    exact hhollow.1 (h l c errStat subOid val tag hreply)

/-- The request with other varbinds. -/
def SnmpDatagram.asking (sdg : SnmpDatagram) (vbs : List VarBind) : SnmpDatagram :=
  { sdg with vbInList := vbs, vbInCnt := vbs.length }

/-- A GETBULK request with these varbinds and repetitions. -/
def SnmpDatagram.bulk (sdg : SnmpDatagram) (n : Int32) (vbs : List VarBind) : SnmpDatagram :=
  { sdg.asking vbs with pduHdr := { sdg.pduHdr with errIdx := n } }

/-! ### Requests of nobody -/

section Unknown

variable {handlers : Handlers} {root : MibNode} {mv : MibViews} {sdg : SnmpDatagram}

/-- The varbinds of a GETBULK request of nobody, in the order in which they are echoed. -/
def repeated (n : Nat) (vbs : List VarBind) : List VarBind := (List.replicate n vbs).flatten

lemma mem_repeated {n : Nat} {vbs : List VarBind} {vb : VarBind} :
    vb ∈ repeated n vbs ↔ 0 < n ∧ vb ∈ vbs := by
  simp only [repeated, List.mem_flatten, List.mem_replicate]
  constructor
  · rintro ⟨_, ⟨hn, rfl⟩, hvb⟩
    exact ⟨Nat.pos_of_ne_zero hn, hvb⟩
  · rintro ⟨hn, hvb⟩
    exact ⟨vbs, ⟨hn.ne', rfl⟩, hvb⟩

lemma length_repeated (n : Nat) (vbs : List VarBind) :
    (repeated n vbs).length = n * vbs.length := by
  simp [repeated]

lemma repeated_succ (n : Nat) (vbs : List VarBind) :
    repeated (n + 1) vbs = vbs ++ repeated n vbs := by
  rw [repeated, List.replicate_succ, List.flatten_cons]
  rfl

lemma getElem?_repeated {n : Nat} {vbs : List VarBind} {r i : Nat} (hr : r < n) (hi : i < vbs.length) :
    (repeated n vbs)[r * vbs.length + i]? = vbs[i]? := by
  induction n generalizing r with
  | zero => omega
  | succ n ih =>
    rw [repeated_succ]
    cases r with
    | zero => rw [Nat.zero_mul, Nat.zero_add, List.getElem?_append_left hi]
    | succ r =>
      have hidx : (r + 1) * vbs.length + i - vbs.length = r * vbs.length + i := by
        rw [Nat.succ_mul]
        omega
      rw [List.getElem?_append_right (by rw [Nat.succ_mul]; omega), hidx, ih (by omega)]

/-- A round echoes the varbinds, and leaves them for the next one. -/
lemma bulkRound_unknown (vbs : List VarBind) {s : ProcState} (hnone : requester mv s.sdg = none) :
    bulkRound handlers root mv vbs s =
      Traced.ofOption ((vbs.foldlM echoStep s).map fun s' => (vbs, s')) := by
  induction vbs generalizing s with
  | nil => rfl
  | cons vb vbs ih =>
    rw [bulkRound, getnextStep_unknown hnone, List.foldlM_cons]
    rcases echoStep_cases s vb with ⟨hstep, _⟩ | ⟨s₁, vbOut, hstep, hechoed⟩
    · rw [hstep]
      rfl
    · have hnone₁ : requester mv s₁.sdg = none := (hechoed.same.requester mv).trans hnone
      have hsame : { vb with oid := s₁.ret.oid } = vb := by rw [hechoed.oid]
      rw [hstep, Traced.ofOption_some, Traced.pure_bind, ih hnone₁]
      simp only [hsame, Option.bind_eq_bind, Option.bind_some]
      cases vbs.foldlM echoStep s₁ <;> rfl

lemma bulkRounds_unknown {n : Nat} {s : ProcState} (hnone : requester mv s.sdg = none)
    (hs : s.ret.var.Whole) (hoid : ∀ vb ∈ s.sdg.vbInList, vb.oid.length ≤ mibOidMaxLen) :
    bulkRounds handlers root mv n s =
      Traced.ofOption ((repeated n s.sdg.vbInList).foldlM echoStep s) := by
  induction n generalizing s with
  | zero => rfl
  | succ n ih =>
    rw [bulkRounds, bulkRound_unknown _ hnone, repeated_succ, List.foldlM_append]
    rcases foldlM_echoStep s.sdg.vbInList hoid hs with ⟨hnot, _⟩ | ⟨s₁, outs, hrun, hall, _⟩
    · rw [hnot]
      rfl
    · have hsame : ({ s₁ with sdg := { s₁.sdg with vbInList := s.sdg.vbInList } } : ProcState) = s₁ := by
        rw [← hall.vbs]
      have hnone₁ : requester mv s₁.sdg = none := (hall.same.requester mv).trans hnone
      rw [hrun, Option.map_some, Traced.ofOption_some, Traced.pure_bind]
      simp only [hsame]
      rw [ih hnone₁ hall.whole (by rwa [hall.vbs]), hall.vbs]
      rfl

lemma getnextOnce_unknown (hnone : requester mv sdg = none) (vb : VarBind) :
    getnextOnce handlers root mv sdg vb =
      Traced.ofOption ((vb.echo Variable.zero.value).map fun vbOut => (vb.oid, vbOut)) := by
  have hecho : vb.echo Variable.zero.value = _ := echo_eq vb (.init .getNext)
  rw [getnextOnce, hecho]
  cases decodeValue vb (.init .getNext) with
  | none => rfl
  | some ret =>
    simp only [mibGetnext_unknown hnone, Traced.pure_bind, Option.bind_some]
    cases getVarBind (ret.unread vb.oid) <;> rfl

/-- The steps for nobody all do the same. -/
lemma getnextIter_unknown (hnone : requester mv sdg = none) (r : Nat) (vb : VarBind) :
    getnextIter handlers root mv sdg r vb = Traced.ofOption (vb.echo Variable.zero.value) := by
  induction r with
  | zero =>
    rw [getnextIter, getnextOnce_unknown hnone]
    cases vb.echo Variable.zero.value <;> rfl
  | succ r ih =>
    rw [getnextIter, getnextOnce_unknown hnone]
    cases hecho : vb.echo Variable.zero.value with
    | none => rfl
    | some vbOut =>
      rw [Option.map_some, Traced.ofOption_some, Traced.pure_bind]
      exact ih.trans (by rw [hecho])

lemma gives_getnextIter_unknown (hnone : requester mv sdg = none) (r : Nat) (vb vbOut : VarBind) :
    Traced.Gives (getnextIter handlers root mv sdg r vb) vbOut ↔
      vb.echo Variable.zero.value = some vbOut := by
  rw [getnextIter_unknown hnone]
  constructor
  · intro h
    obtain ⟨l', hl'⟩ := h []
    exact (Traced.ofOption_eq_ok.mp hl').1
  · intro h
    rw [h]
    exact Traced.gives_pure vbOut

/-- The request of nobody is answered if the values of all varbinds can be echoed, as the steps are. -/
lemma bulkget_unknown (hnone : requester mv sdg = none) (hout : sdg.vbOutList = [])
    (hoid : ∀ vb ∈ sdg.vbInList, vb.oid.length ≤ mibOidMaxLen) :
    ((∀ l, (snmpBulkget handlers root mv sdg l).1 = .crash) ∧
      0 < sdg.repetitions ∧ ∃ vb ∈ sdg.vbInList, ¬ vb.Echoes) ∨
    ∃ s r outs, Traced.Gives (snmpBulkget handlers root mv sdg) (s, r) ∧
      s.sdg.vbOutList = outs ∧ outs.length = sdg.repetitions * sdg.vbInList.length ∧
      (∀ (j : Nat) vb, (repeated sdg.repetitions sdg.vbInList)[j]? = some vb → ∃ mem,
        leftBy ((repeated sdg.repetitions sdg.vbInList).take j) Variable.zero.value = some mem ∧
          mem.length = mibValueMaxLen ∧ outs[j]? = vb.echo mem) ∧
      (0 < sdg.repetitions → ∀ vb ∈ sdg.vbInList, vb.Echoes) := by
  let s₀ : ProcState := .init .getNext { sdg with pduHdr := { sdg.pduHdr with errIdx := 0 } }
  have hnone₀ : requester mv s₀.sdg = none := hnone
  have hwhole : s₀.ret.var.Whole := List.length_replicate
  have hrounds : bulkRounds handlers root mv sdg.repetitions s₀ =
      Traced.ofOption ((repeated sdg.repetitions sdg.vbInList).foldlM echoStep s₀) :=
    bulkRounds_unknown hnone₀ hwhole hoid
  have hbulk : snmpBulkget handlers root mv sdg =
      Traced.ofOption ((repeated sdg.repetitions sdg.vbInList).foldlM echoStep s₀) >>= respond := by
    rw [← hrounds]
    rfl
  have hread : Reading .getNext sdg s₀ :=
    ⟨rfl, hwhole, ⟨rfl, rfl, rfl⟩, by simp [s₀, ProcState.init, hout]⟩
  have hoids : ∀ vb ∈ repeated sdg.repetitions sdg.vbInList, vb.oid.length ≤ mibOidMaxLen :=
    fun vb hvb => hoid vb (mem_repeated.mp hvb).2
  rcases foldlM_echoStep _ hoids hwhole with ⟨hnot, vb, hvb, hechoes⟩ | ⟨s, outs, hrun, hall, hechoes⟩
  · obtain ⟨hpos, hmem⟩ := mem_repeated.mp hvb
    refine .inl ⟨fun l => ?_, hpos, vb, hmem, hechoes⟩
    rw [hbulk, hnot]
    rfl
  · obtain ⟨r, hr⟩ := (hall.reading hread).respond
    refine .inr ⟨s, r, outs, ?_, ?_, ?_, hall.echo, ?_⟩
    · rw [hbulk, hrun, Traced.ofOption_some, Traced.pure_bind, hr]
      exact Traced.gives_pure _
    · have hnil : s₀.sdg.vbOutList = [] := hout
      rw [hall.out, hnil, List.nil_append]
    · rw [hall.length, length_repeated]
    · exact fun hpos vb hvb => hechoes vb (mem_repeated.mpr ⟨hpos, hvb⟩)

/-- GETBULK of nobody is iterated GETNEXT exactly if no number without content shows what an earlier
varbind left. -/
lemma bulkIterates_unknown (hnone : requester mv sdg = none) (hout : sdg.vbOutList = [])
    (hoid : ∀ vb ∈ sdg.vbInList, vb.oid.length ≤ mibOidMaxLen) :
    BulkIterates handlers root mv sdg ↔ (∃ vb ∈ sdg.vbInList, ¬ vb.Echoes) ∨
      NothingLeft (repeated sdg.repetitions sdg.vbInList) := by
  have hgives : ∀ r (vb : VarBind), vb.Echoes → ∃ vbOut,
      Traced.Gives (getnextIter handlers root mv sdg r vb) vbOut := by
    intro r vb hechoes
    obtain ⟨vbOut, hecho⟩ := Option.ne_none_iff_exists'.mp hechoes
    exact ⟨vbOut, (gives_getnextIter_unknown hnone r vb vbOut).mpr hecho⟩
  rcases bulkget_unknown hnone hout hoid with ⟨hcrash, hpos, vb, hvb, hnot⟩ |
    ⟨s, r, outs, hrun, rfl, hlen, hecho, hall⟩
  · -- neither the request nor the steps of this varbind are answered
    refine iff_of_true ⟨fun l => iff_of_false ?_ ?_, fun l s r l' hok => ?_⟩ (.inl ⟨vb, hvb, hnot⟩)
    · rintro ⟨r, l', hok⟩
      have hout := hcrash l
      rw [hok] at hout
      cases hout
    · intro hsteps
      obtain ⟨vbOut, hstep⟩ := hsteps 0 hpos vb hvb
      rw [gives_getnextIter_unknown hnone] at hstep
      exact hnot (by rw [VarBind.Echoes, hstep]; exact Option.some_ne_none vbOut)
    · have hout := hcrash l
      rw [hok] at hout
      cases hout
  have hdet : ∀ l s' r' l', snmpBulkget handlers root mv sdg l = (.ok (s', r'), l') → s' = s := by
    intro l s' r' l' hok
    obtain ⟨l₁, h₁⟩ := hrun l
    rw [hok] at h₁
    exact congrArg Prod.fst (Outcome.ok.inj (Prod.mk.inj h₁).1)
  have hidx : ∀ r < sdg.repetitions, ∀ (i : Nat) vb, sdg.vbInList[i]? = some vb →
      (repeated sdg.repetitions sdg.vbInList)[r * sdg.vbInList.length + i]? = some vb := by
    intro r hr i vb hvb
    rw [getElem?_repeated hr (List.getElem?_eq_some_iff.mp hvb).1, hvb]
  constructor
  · intro hbulk
    refine .inr fun j vb mem hvb hempty hmem => ?_
    have hmem' := mem_repeated.mp (List.mem_of_getElem? hvb)
    -- the round of the varbind and its place
    have hlt : j < sdg.repetitions * sdg.vbInList.length := by
      rw [← length_repeated]
      exact (List.getElem?_eq_some_iff.mp hvb).1
    have hk : 0 < sdg.vbInList.length := List.length_pos_of_mem hmem'.2
    have hi : j % sdg.vbInList.length < sdg.vbInList.length := Nat.mod_lt _ hk
    have hr : j / sdg.vbInList.length < sdg.repetitions := Nat.div_lt_of_lt_mul (by rwa [Nat.mul_comm])
    have hj : j / sdg.vbInList.length * sdg.vbInList.length + j % sdg.vbInList.length = j :=
      Nat.div_add_mod' j _
    have hvb' : sdg.vbInList[j % sdg.vbInList.length]? = some vb := by
      rw [← hvb, ← getElem?_repeated hr hi, hj]
    obtain ⟨l₁, h₁⟩ := hrun []
    obtain ⟨vbOut, hout₁, hstep⟩ := (hbulk.iterated [] s r l₁ h₁).varbind _ hr _ vb hvb'
    rw [hout, List.length_nil, Nat.zero_add, hj] at hout₁
    rw [gives_getnextIter_unknown hnone] at hstep
    obtain ⟨mem', hmem₁, _, hout₂⟩ := hecho j vb hvb
    obtain rfl : mem' = mem := Option.some.inj (hmem₁.symm.trans hmem)
    by_contra hne
    exact echo_ne_zero hempty (hoid vb hmem'.2) hne (hout₂.symm.trans (hout₁.trans hstep.symm))
  · intro hcond
    have hsame : ∀ r < sdg.repetitions, ∀ (i : Nat) vb, sdg.vbInList[i]? = some vb →
        s.sdg.vbOutList[r * sdg.vbInList.length + i]? = vb.echo Variable.zero.value := by
      intro r hr i vb hvb
      obtain ⟨mem, hmem, hwhole, hout⟩ := hecho _ vb (hidx r hr i vb hvb)
      rw [hout]
      refine echo_eq_zero hwhole fun hempty => ?_
      rcases hcond with ⟨u, hu, hnot⟩ | hleft
      · exact absurd (hall (by omega) u hu) hnot
      · exact hleft _ vb mem (hidx r hr i vb hvb) hempty hmem
    constructor
    · intro l
      refine iff_of_true ?_ fun r hr vb hvb => hgives r vb (hall (by omega) vb hvb)
      obtain ⟨l₁, h₁⟩ := hrun l
      exact ⟨_, l₁, h₁⟩
    · intro l s' r' l' hok
      obtain rfl := hdet l s' r' l' hok
      refine ⟨by rw [hlen, hout, List.length_nil, Nat.zero_add], fun r hr i vb hvb => ?_, ?_⟩
      · obtain ⟨vbOut, hecho₁⟩ := Option.ne_none_iff_exists'.mp (hall (by omega) vb
          (List.mem_of_getElem? hvb))
        refine ⟨vbOut, ?_, (gives_getnextIter_unknown hnone r vb vbOut).mpr hecho₁⟩
        rw [hout, List.length_nil, Nat.zero_add, hsame r hr i vb hvb, hecho₁]
      · intro r hr i hi vbOut hvbOut _ r' hr' _
        rw [hout, List.length_nil, Nat.zero_add] at hvbOut ⊢
        rw [hsame r' hr' i _ (List.getElem?_eq_getElem hi), ← hvbOut,
          hsame r hr i _ (List.getElem?_eq_getElem hi)]

end Unknown

lemma errorless_scalarHandlers : Errorless scalarHandlers := by
  intro l c errStat subOid val tag h
  simp only [scalarHandlers] at h
  split_ifs at h
  exact (Reply.results.inj h).1.symm

/-- An integer without content. -/
def emptyVarBind : VarBind := ⟨[1], 0, asn1TagInt, []⟩

lemma nothingLeft_zeros (n : Nat) : NothingLeft (repeated n [zerosVarBind [2], emptyVarBind]) := by
  have hfixed : ∀ vb ∈ repeated n [zerosVarBind [2], emptyVarBind],
      vb.leaves Variable.zero.value = some Variable.zero.value := by
    intro vb hvb
    have hmem := (mem_repeated.mp hvb).2
    simp only [List.mem_cons, List.not_mem_nil, or_false] at hmem
    rcases hmem with rfl | rfl <;> decide +kernel
  intro j vb mem _ _ hleft
  have hzero := leftBy_of_fixed fun vb hvb => hfixed vb (List.mem_of_mem_take (i := j) hvb)
  obtain rfl := Option.some.inj (hzero.symm.trans hleft)
  decide +kernel

/-- The union after the string. -/
def stale : List UInt8 := [0, 0, 1, 0, 1, 0, 0, 0] ++ List.replicate 1016 0

end SmartSnmp
