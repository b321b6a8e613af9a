import SmartSnmp.Snmp.Agent
import SmartSnmp.Snmp.Global
import SmartSnmp.Snmp.Independent

/-!
# Requesters do not disturb each other

The communities and users share the lists of `core/mib_view.c`. What is registered and unregistered for
one of them has no effect on the requests of another: their entry is what the calls about them have made
of it, and a request depends on the views through this entry alone.
-/

namespace SmartSnmp

open Run

/-! ### The entry of a requester -/

/-- The entry of a community or a user. -/
def MibViews.entry (mv : MibViews) (holder : Holder) (name : List UInt8) : Option ViewEntry :=
  entrySearch name (mv.entries holder)

/-- The call is about this community or user. -/
def ViewOp.isFor (holder : Holder) (name : List UInt8) : ViewOp → Bool
  | .reg h _ n _ => h = holder ∧ n = name
  | .unreg h n _ => h = holder ∧ n = name

/-- The call is on the tree, or about this community or user. -/
def AgentOp.isFor (holder : Holder) (name : List UInt8) : AgentOp → Bool
  | .node _ => true
  | .view op => op.isFor holder name

/-- What a call that returns makes of the entry. -/
def ViewOp.entryAfter (holder : Holder) (name : List UInt8) (e : Option ViewEntry) :
    ViewOp → Option ViewEntry
  | .reg h oid n attr =>
    if h = holder ∧ n = name then some (entryBind oid attr [] (e.getD ⟨name, [], []⟩)).2 else e
  | .unreg h n _ => if h = holder ∧ n = name then none else e

/-- A call about somebody else leaves the entry alone. -/
lemma ViewOp.entryAfter_other (op : ViewOp) {holder : Holder} {name : List UInt8}
    (hop : op.isFor holder name = false) (e : Option ViewEntry) :
    op.entryAfter holder name e = e := by
  cases op with
  | reg kind oid other attr => exact if_neg (of_decide_eq_false hop)
  | unreg kind other attr => exact if_neg (of_decide_eq_false hop)

section Entries

variable {entries : List ViewEntry} (h : EntriesFree entries)
include h

lemma entrySearch_reg_self (oid : Oid) (name : List UInt8) (attr : MibAcesAttr) (mibViews : List Oid) :
    entrySearch name (entryReg oid name attr mibViews entries).2 =
      some (entryBind oid attr [] ((entrySearch name entries).getD ⟨name, [], []⟩)).2 := by
  obtain ⟨old, hname, hold, hnd, hmem⟩ := entryReg_snd oid name attr mibViews h.nodup
  have hget : (entrySearch name entries).getD ⟨name, [], []⟩ = old := by
    rcases hold with hold | ⟨hnone, rfl⟩
    · rw [(entrySearch_eq_some_iff h.nodup).mpr ⟨hold, hname⟩]
      rfl
    · rw [entrySearch_eq_none_iff.mpr hnone]
      rfl
  rw [hget, entrySearch_eq_some_iff hnd, hmem, entryBind_snd, entryBind_snd]
  exact ⟨.inl rfl, hname⟩

lemma entrySearch_reg_of_ne (oid : Oid) {name other : List UInt8} (hne : other ≠ name)
    (attr : MibAcesAttr) (mibViews : List Oid) :
    entrySearch name (entryReg oid other attr mibViews entries).2 = entrySearch name entries := by
  obtain ⟨old, hname, -, hnd, hmem⟩ := entryReg_snd oid other attr mibViews h.nodup
  refine Option.ext fun e => ?_
  rw [entrySearch_eq_some_iff hnd, entrySearch_eq_some_iff h.nodup, hmem, entryBind_snd]
  constructor
  · rintro ⟨rfl | ⟨he, -⟩, hen⟩
    · exact absurd (hname.symm.trans hen) hne
    · exact ⟨he, hen⟩
  · rintro ⟨he, hen⟩
    exact ⟨.inr ⟨he, fun hother => hne (hother.symm.trans hen)⟩, hen⟩

omit h

lemma entrySearch_filter (name other : List UInt8) :
    entrySearch name (entries.filter fun e => e.name ≠ other) =
      if other = name then none else entrySearch name entries := by
  induction entries with
  | nil => simp [entrySearch]
  | cons e entries ih =>
    rw [List.filter_cons]
    by_cases hother : e.name = other
    · rw [if_neg (by simp [hother]), ih]
      by_cases hne : other = name
      · simp [hne]
      · simp [hne, entrySearch, hother]
    · rw [if_pos (by simp [hother])]
      by_cases hname : e.name = name
      · have hne : other ≠ name := fun hon => hother (hname.trans hon.symm)
        simp [entrySearch, hname, hne]
      · simp only [entrySearch, List.find?_cons, hname, decide_false] at ih ⊢
        exact ih

end Entries

section Views

variable {mv mv' : MibViews}

/-- A registration is about the entries of one kind. -/
lemma MibViews.entries_reg {kind : Holder} {oid : Oid} {name : List UInt8} {attr : MibAcesAttr}
    (hop : mv.apply (.reg kind oid name attr) = some mv') :
    mv'.entries kind = (entryReg oid name attr mv.mibViews (mv.entries kind)).2 ∧
      ∀ other ≠ kind, mv'.entries other = mv.entries other := by
  cases kind with
  | community =>
    obtain rfl := Option.some.inj hop
    refine ⟨rfl, ?_⟩
    rintro (_ | _) hne
    · exact absurd rfl hne
    · rfl
  | user =>
    obtain rfl := Option.some.inj hop
    refine ⟨rfl, ?_⟩
    rintro (_ | _) hne
    · rfl
    · exact absurd rfl hne

/-- An unregistration that returns removes the entries of the name, which it could empty. -/
lemma MibViews.entries_unreg {kind : Holder} {name : List UInt8} {attr : MibAcesAttr}
    (hop : mv.apply (.unreg kind name attr) = some mv') :
    mv'.entries kind = (mv.entries kind).filter (fun e => e.name ≠ name) ∧
      (∀ other ≠ kind, mv'.entries other = mv.entries other) ∧
      ∀ e ∈ mv.entries kind, e.name = name → attr = .read ∨ e.roViews = [] := by
  simp only [MibViews.apply] at hop
  cases hrun : mv.unreg kind name attr ((mv.entries kind).length + 1) with
  | ok mv₁ =>
    rw [hrun] at hop
    obtain rfl := Option.some.inj hop
    have hloop := MibViews.unreg_ok hrun
    obtain ⟨mv₂, hrun₂, -, -, hframe⟩ := mv.unreg_eq kind name attr _ hloop
    obtain rfl := Outcome.ok.inj (hrun.symm.trans hrun₂)
    exact ⟨(entryUnregLoop_ok hloop).1, hframe, (entryUnregLoop_ok hloop).2⟩
  | crash => simp [hrun] at hop
  | fuel => simp [hrun] at hop

/-- A call makes of an entry what it makes of it alone. -/
lemma MibViews.entry_apply (hfree : ∀ holder, EntriesFree (mv.entries holder)) {op : ViewOp}
    (hop : mv.apply op = some mv') (holder : Holder) (name : List UInt8) :
    mv'.entry holder name = op.entryAfter holder name (mv.entry holder name) := by
  simp only [MibViews.entry]
  cases op with
  | reg kind oid other attr =>
    obtain ⟨hself, hframe⟩ := MibViews.entries_reg hop
    simp only [ViewOp.entryAfter]
    by_cases hkind : kind = holder
    · subst hkind
      rw [hself]
      by_cases hname : other = name
      · subst hname
        rw [if_pos ⟨rfl, rfl⟩]
        exact entrySearch_reg_self (hfree kind) oid other attr mv.mibViews
      · rw [if_neg fun h => hname h.2]
        exact entrySearch_reg_of_ne (hfree kind) oid hname attr mv.mibViews
    · rw [if_neg fun h => hkind h.1, hframe holder (Ne.symm hkind)]
  | unreg kind other attr =>
    obtain ⟨hself, hframe, -⟩ := MibViews.entries_unreg hop
    simp only [ViewOp.entryAfter]
    by_cases hkind : kind = holder
    · subst hkind
      rw [hself, entrySearch_filter]
      by_cases hname : other = name <;> simp [hname]
    · rw [if_neg fun h => hkind h.1, hframe holder (Ne.symm hkind)]

/-- Whether a call returns depends on the entry that it is about. -/
lemma MibViews.apply_of_entry {mv₁ : MibViews} {op : ViewOp} {holder : Holder} {name : List UInt8}
    (hop : mv.apply op = some mv₁) (hfor : op.isFor holder name = true)
    (hfree : EntriesFree (mv.entries holder)) (hfree' : EntriesFree (mv'.entries holder))
    (heq : mv.entry holder name = mv'.entry holder name) : ∃ mv₁', mv'.apply op = some mv₁' := by
  cases op with
  | reg kind oid other attr => cases kind <;> exact ⟨_, rfl⟩
  | unreg kind other attr =>
    obtain ⟨rfl, rfl⟩ : kind = holder ∧ other = name := by simpa [ViewOp.isFor] using hfor
    obtain ⟨-, -, hempty⟩ := MibViews.entries_unreg hop
    have hempty' : ∀ e ∈ mv'.entries kind, e.name = other → attr = .read ∨ e.roViews = [] := by
      intro e he hname
      have hsearch : mv.entry kind other = some e :=
        heq.trans ((entrySearch_eq_some_iff hfree'.nodup).mpr ⟨he, hname⟩)
      obtain ⟨he', hname'⟩ := (entrySearch_eq_some_iff hfree.nodup).mp hsearch
      exact hempty e he' hname'
    have hloop := entryUnregLoop_returns hempty' (Nat.lt_succ_self _)
    obtain ⟨mv₂, hrun, -⟩ := mv'.unreg_eq kind other attr _ hloop
    exact ⟨mv₂, by simp only [MibViews.apply, hrun]⟩

end Views

/-- The entries keep what unregistrations need. -/
lemma EntriesFree.apply {mv mv' : MibViews} (hfree : ∀ holder, EntriesFree (mv.entries holder))
    {op : ViewOp} (hop : mv.apply op = some mv') (holder : Holder) :
    EntriesFree (mv'.entries holder) := by
  rcases (MibViews.viewStep_of_apply hop).entries_cases holder with
    heq | ⟨oid, name, attr, heq⟩ | ⟨name, attr, fuel, hloop⟩
  · exact heq ▸ hfree holder
  · exact heq ▸ (hfree holder).reg oid name attr mv.mibViews
  · exact (hfree holder).unreg hloop

/-! ### Runs -/

/-- Two agents with one tree, in which a requester has one entry. -/
structure SameFor (holder : Holder) (name : List UInt8) (a a' : Agent) : Prop where
  root : a.root = a'.root
  entry : a.mv.entry holder name = a'.mv.entry holder name
  left : ∀ h, EntriesFree (a.mv.entries h)
  right : ∀ h, EntriesFree (a'.mv.entries h)

lemma entriesFree_empty (holder : Holder) : EntriesFree (MibViews.empty.entries holder) :=
  ViewRun.nil.entriesFree holder

section Steps

variable {holder : Holder} {name : List UInt8} {a a' a₁ : Agent} (h : SameFor holder name a a')
include h

/-- A call about somebody else changes nothing for the requester. -/
lemma SameFor.skip {op : AgentOp} (hop : op.isFor holder name = false) (hrun : a.apply op = some a₁) :
    SameFor holder name a₁ a' := by
  cases op with
  | node op => cases hop
  | view op =>
    obtain ⟨mv, hmv, rfl⟩ := Option.map_eq_some_iff.mp hrun
    refine ⟨h.root, ?_, EntriesFree.apply h.left hmv, h.right⟩
    rw [← h.entry, MibViews.entry_apply h.left hmv, op.entryAfter_other hop]

/-- A call about the requester, or on the tree, returns for both and changes the same. -/
lemma SameFor.keep {op : AgentOp} (hop : op.isFor holder name = true) (hrun : a.apply op = some a₁) :
    ∃ a₁', a'.apply op = some a₁' ∧ SameFor holder name a₁ a₁' := by
  cases op with
  | node op =>
    simp only [Agent.apply, h.root] at hrun ⊢
    cases hroot : op.apply a'.root with
    | ok root =>
      rw [hroot] at hrun
      obtain rfl := Option.some.inj hrun
      exact ⟨_, rfl, rfl, h.entry, h.left, h.right⟩
    | crash => simp [hroot] at hrun
    | fuel => simp [hroot] at hrun
  | view op =>
    obtain ⟨mv, hmv, rfl⟩ := Option.map_eq_some_iff.mp hrun
    obtain ⟨mv', hmv'⟩ := MibViews.apply_of_entry hmv hop (h.left holder) (h.right holder) h.entry
    refine ⟨⟨a'.root, mv'⟩, by simp [Agent.apply, hmv'], h.root, ?_, EntriesFree.apply h.left hmv,
      EntriesFree.apply h.right hmv'⟩
    rw [MibViews.entry_apply h.left hmv, MibViews.entry_apply h.right hmv', h.entry]

end Steps

/-! ### Requests -/

/-- Who sends the datagram. -/
def SnmpDatagram.IsFrom (sdg : SnmpDatagram) (holder : Holder) (name : List UInt8) : Prop :=
  if 3 ≤ sdg.version then holder = .user ∧ cString sdg.userName = name
  else holder = .community ∧ cString sdg.contextName = name

lemma SnmpDatagram.IsFrom.requester {sdg : SnmpDatagram} {holder : Holder} {name : List UInt8}
    (h : sdg.IsFrom holder name) (mv : MibViews) : requester mv sdg = mv.entry holder name := by
  rw [SnmpDatagram.IsFrom] at h
  rw [SmartSnmp.requester]
  split_ifs at h ⊢
  · obtain ⟨rfl, rfl⟩ := h
    rfl
  · obtain ⟨rfl, rfl⟩ := h
    rfl

lemma processVarBind_sameRequester
    {search : SnmpDatagram → VarBind → OidSearchRes → Traced Call OidSearchRes}
    {encode : VarBind → OidSearchRes → Option VarBind} {status : OidSearchRes → OidSearchRes}
    {s s' : ProcState} {vbIn : VarBind} {l l' : List Call}
    (hrun : processVarBind search encode status s vbIn l = (.ok s', l')) :
    s'.sdg.SameRequester s.sdg := by
  rw [processVarBind] at hrun
  cases hdec : decodeValue vbIn s.ret with
  | none =>
    rw [hdec] at hrun
    cases hrun
  | some ret =>
    rw [hdec] at hrun
    obtain ⟨res, l₁, -, hrest⟩ := Traced.bind_eq_ok hrun
    cases henc : encode vbIn res with
    | none =>
      rw [henc] at hrest
      cases hrest
    | some vbOut =>
      rw [henc] at hrest
      cases hrest
      exact ⟨rfl, rfl, rfl⟩

section Requests

variable (handlers : Handlers) (root : MibNode) {mv mv' : MibViews} {sdg₀ : SnmpDatagram}
  (h : requester mv sdg₀ = requester mv' sdg₀)
include h

lemma requester_eq_of_same {sdg : SnmpDatagram} (hs : sdg.SameRequester sdg₀) :
    requester mv sdg = requester mv' sdg := by
  rw [hs.requester, hs.requester, h]

lemma getStep_eq {s : ProcState} (hs : s.sdg.SameRequester sdg₀) (vbIn : VarBind) :
    getStep handlers root mv s vbIn = getStep handlers root mv' s vbIn := by
  simp only [getStep, processVarBind, mibGet, requester_eq_of_same h hs]

lemma getnextStep_eq {s : ProcState} (hs : s.sdg.SameRequester sdg₀) (vbIn : VarBind) :
    getnextStep handlers root mv s vbIn = getnextStep handlers root mv' s vbIn := by
  simp only [getnextStep, processVarBind, mibGetnext, requester_eq_of_same h hs]

lemma setStep_eq {s : ProcState} (hs : s.sdg.SameRequester sdg₀) (vbIn : VarBind) :
    setStep handlers root mv s vbIn = setStep handlers root mv' s vbIn := by
  simp only [setStep, processVarBind, mibSet, requester_eq_of_same h hs]

lemma snmpGet_eq {sdg : SnmpDatagram} (hs : sdg.SameRequester sdg₀) :
    snmpGet handlers root mv sdg = snmpGet handlers root mv' sdg := by
  rw [snmpGet, snmpGet, Traced.foldlM_eq_foldlM (fun s vbIn hs => getStep_eq handlers root h hs vbIn)
    (fun _ _ _ _ _ hs hrun => (processVarBind_sameRequester hrun).trans hs) _ hs]

lemma snmpGetnext_eq {sdg : SnmpDatagram} (hs : sdg.SameRequester sdg₀) :
    snmpGetnext handlers root mv sdg = snmpGetnext handlers root mv' sdg := by
  rw [snmpGetnext, snmpGetnext,
    Traced.foldlM_eq_foldlM (fun s vbIn hs => getnextStep_eq handlers root h hs vbIn)
      (fun _ _ _ _ _ hs hrun => (processVarBind_sameRequester hrun).trans hs) _ hs]

lemma snmpSet_eq {sdg : SnmpDatagram} (hs : sdg.SameRequester sdg₀) :
    snmpSet handlers root mv sdg = snmpSet handlers root mv' sdg := by
  rw [snmpSet, snmpSet, Traced.foldlM_eq_foldlM (fun s vbIn hs => setStep_eq handlers root h hs vbIn)
    (fun _ _ _ _ _ hs hrun => (processVarBind_sameRequester hrun).trans hs) _ hs]

omit h in
lemma bulkRound_sameRequester {vbs vbs' : List VarBind} {s s' : ProcState} {l l' : List Call}
    (hrun : bulkRound handlers root mv vbs s l = (.ok (vbs', s'), l')) :
    s'.sdg.SameRequester s.sdg := by
  induction vbs generalizing vbs' s l with
  | nil =>
    cases hrun
    exact ⟨rfl, rfl, rfl⟩
  | cons vbIn vbs ih =>
    obtain ⟨s₁, l₁, hstep, hrest⟩ := Traced.bind_eq_ok hrun
    obtain ⟨⟨vbs₂, s₂⟩, l₂, hround, hend⟩ := Traced.bind_eq_ok hrest
    cases hend
    exact (ih hround).trans (processVarBind_sameRequester hstep)

lemma bulkRound_eq (vbs : List VarBind) {s : ProcState} (hs : s.sdg.SameRequester sdg₀) :
    bulkRound handlers root mv vbs s = bulkRound handlers root mv' vbs s := by
  induction vbs generalizing s with
  | nil => rfl
  | cons vbIn vbs ih =>
    rw [bulkRound, bulkRound, getnextStep_eq handlers root h hs]
    refine Traced.bind_eq_bind fun s₁ l l' hrun => ?_
    rw [ih ((processVarBind_sameRequester hrun).trans hs)]

lemma bulkRounds_eq (rep : Nat) {s : ProcState} (hs : s.sdg.SameRequester sdg₀) :
    bulkRounds handlers root mv rep s = bulkRounds handlers root mv' rep s := by
  induction rep generalizing s with
  | zero => rfl
  | succ rep ih =>
    rw [bulkRounds, bulkRounds, bulkRound_eq handlers root h s.sdg.vbInList hs]
    refine Traced.bind_eq_bind fun r l l' hrun => ?_
    obtain ⟨vbInList, s'⟩ := r
    have hsame := (bulkRound_sameRequester handlers root hrun).trans hs
    exact ih ⟨hsame.version, hsame.userName, hsame.contextName⟩

lemma snmpBulkget_eq {sdg : SnmpDatagram} (hs : sdg.SameRequester sdg₀) :
    snmpBulkget handlers root mv sdg = snmpBulkget handlers root mv' sdg := by
  rw [snmpBulkget, snmpBulkget]
  rw [bulkRounds_eq handlers root h _ ⟨hs.version, hs.userName, hs.contextName⟩]

/-- A request depends on the views through the entry of its requester. -/
lemma snmpRequestDispatch_eq :
    snmpRequestDispatch handlers root mv sdg₀ = snmpRequestDispatch handlers root mv' sdg₀ := by
  have hs : sdg₀.setResponse.SameRequester sdg₀ := ⟨rfl, rfl, rfl⟩
  rw [snmpRequestDispatch, snmpRequestDispatch, requestFunction, requestFunction]
  split_ifs
  · simp only [snmpGet_eq handlers root h hs]
  · simp only [snmpGetnext_eq handlers root h hs]
  · simp only [snmpSet_eq handlers root h hs]
  · simp only [snmpBulkget_eq handlers root h hs]
  · rfl

end Requests

/-- A datagram of the requester is received in the same way. -/
lemma snmpdRecv_sameFor {holder : Holder} {name : List UInt8} {a a' : Agent}
    (hsame : SameFor holder name a a') (handlers : Handlers) {buffer : List UInt8}
    (hfrom : ∀ sdg, snmpDecode buffer = .ok sdg → sdg.IsFrom holder name) :
    snmpdRecv handlers a.root a.mv buffer = snmpdRecv handlers a'.root a'.mv buffer := by
  rw [snmpdRecv, snmpdRecv, hsame.root]
  rcases recvCheck buffer.length buffer with (_ | _) | _ | _
  · rfl
  · cases hdec : snmpDecode buffer with
    | ok sdg =>
      refine snmpRequestDispatch_eq handlers a'.root ?_
      rw [(hfrom sdg hdec).requester, (hfrom sdg hdec).requester, hsame.entry]
    | crash => rfl
    | fuel => rfl
  · rfl
  · rfl

/-- Two communities are registered, and the second one is removed. -/
def sampleAgentOps : List AgentOp :=
  [.node (.reg [1] 7), .view (.reg .community [1] [112] .write), .view (.reg .community [] [113] .read),
    .view (.unreg .community [113] .read)]

/-- The agent after these calls: the view of the second community stays in the list of all views. -/
def sampleAgentAfter : Agent := ⟨oneInstance, { sampleViews with mibViews := [[], [1]] }⟩

end SmartSnmp
