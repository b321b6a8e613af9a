import SmartSnmp.Snmp.Access

/-!
# Requests that do not set

A request that is not a SET calls the handlers for GET and GETNEXT only, whatever the tree, the views
and the handlers are. So it is processed alike by handlers that answer these calls alike.
-/

namespace SmartSnmp

open Traced

/-- The handlers answer alike as long as they are not called for SET. -/
def SameReads (handlers handlers' : Handlers) : Prop :=
  ∀ l c, (∀ x ∈ l, x.op ≠ .set) → c.op ≠ .set → handlers l c = handlers' l c

lemma OidSearchRes.call_op (ret : OidSearchRes) : ret.call.op = ret.request := by
  rw [call]
  split_ifs with h
  · exact h.symm
  · rfl

section Search

variable {handlers handlers' : Handlers} (h : SameReads handlers handlers')
include h

lemma agree_mibInstanceSearch (ret : OidSearchRes) (hreq : ret.request ≠ .set) :
    Agree (·.op ≠ .set) (·.request = ret.request) (mibInstanceSearch handlers ret)
      (mibInstanceSearch handlers' ret) := by
  refine (agree_query h (by rwa [OidSearchRes.call_op])).bind fun reply _ => ?_
  cases hrec : ret.receive reply with
  | none => exact agree_crash
  | some res => exact agree_pure (OidSearchRes.receive_frame hrec).1

/-! ### GET -/

lemma agree_mibTreeSearchLoop (ret : OidSearchRes) (hreq : ret.request ≠ .set) (pos : Nat)
    (node : MibNode) (oid : Oid) :
    Agree (·.op ≠ .set) (·.2.request = ret.request) (mibTreeSearchLoop handlers ret pos node oid)
      (mibTreeSearchLoop handlers' ret pos node oid) := by
  induction oid generalizing pos node with
  | nil => cases node <;> exact agree_pure rfl
  | cons x xs ih =>
    cases node with
    | null => exact agree_pure rfl
    | inst callback =>
      rw [mibTreeSearchLoop, mibTreeSearchLoop]
      refine (agree_mibInstanceSearch h { ret with
        instPos := pos, instId := x :: xs, callback := callback } hreq).bind fun res hres => ?_
      exact agree_pure hres
    | group cap cnt subId subPtr =>
      simp only [mibTreeSearchLoop]
      by_cases hi : 0 ≤ oidBinarySearch subId cnt x
      · simp only [if_pos hi]
        cases subPtr[(oidBinarySearch subId cnt x).toNat]? with
        | none => exact agree_crash
        | some child => exact ih (pos + 1) child
      · simp only [if_neg hi]
        exact agree_pure rfl

lemma agree_mibTreeSearch (root : MibNode) (view orig : Oid) (ret : OidSearchRes)
    (hreq : ret.request ≠ .set) :
    Agree (·.op ≠ .set) (·.2.request = ret.request) (mibTreeSearch handlers root view orig ret)
      (mibTreeSearch handlers' root view orig ret) := by
  rw [mibTreeSearch, mibTreeSearch]
  by_cases hcover : oidCover view orig ≤ 0
  · simp only [if_pos hcover]
    exact agree_pure rfl
  · simp only [if_neg hcover]
    exact agree_mibTreeSearchLoop h { ret with oid := orig, errStat := 0 } hreq 0 root orig

lemma agree_searchAt (root : MibNode) (oid view : Oid) {ret : OidSearchRes}
    (hreq : ret.request ≠ .set) :
    Agree (·.op ≠ .set) (·.request = ret.request) (searchAt handlers root oid view ret)
      (searchAt handlers' root oid view ret) := by
  refine (agree_mibTreeSearch h root view oid ret hreq).bind fun out hout => ?_
  exact agree_pure hout

/-! ### GETNEXT -/

/-- The search reads, or it has nothing left to search. -/
def SearchNextState.Reads (s : SearchNextState) : Prop :=
  s.ret.request = .getNext ∨ s.node = .null ∧ s.stk = []

omit h in
lemma reads_searchNextBacktrack (orig : Oid) {s s' : SearchNextState} {ret : OidSearchRes}
    (hs : ret.request = .getNext ∨ s.stk = []) (hback : searchNextBacktrack orig s ret = .inl s') :
    s'.Reads := by
  rw [searchNextBacktrack] at hback
  cases hstk : s.stk with
  | nil =>
    rw [hstk] at hback
    cases hback
  | cons nbl stk =>
    rw [hstk] at hback
    cases hback
    exact .inl (hs.resolve_right (by simp [hstk]))

omit h in
lemma ret_searchNextDescend {s s' : SearchNextState} {cnt i : Nat} {subId : List UInt32}
    {subPtr : List MibNode} (hdesc : searchNextDescend s cnt subId subPtr i = some s') :
    s'.ret = s.ret := by
  rw [searchNextDescend] at hdesc
  cases hk : subId[i]? with
  | none =>
    rw [hk] at hdesc
    cases hdesc
  | some k =>
    cases hc : subPtr[i]? with
    | none =>
      rw [hk, hc] at hdesc
      cases hdesc
    | some child =>
      rw [hk, hc] at hdesc
      cases hdesc
      rfl

omit h in
lemma ret_searchNextAdvance {s s' : SearchNextState} (hadv : searchNextAdvance s = some s') :
    s'.ret = s.ret := by
  rw [searchNextAdvance] at hadv
  cases hn : s.node with
  | null =>
    rw [hn] at hadv
    cases hadv
  | inst callback =>
    rw [hn] at hadv
    cases hadv
    rfl
  | group cap cnt subId subPtr =>
    rw [hn] at hadv
    cases hadv
    rfl

lemma agree_searchNextInstance (view path suffix : Oid) (callback : Int) {ret : OidSearchRes}
    (hreq : ret.request = .getNext) :
    Agree (·.op ≠ .set) (fun out => ∀ res, out = .inl res → res.request = .getNext)
      (searchNextInstance handlers view path suffix callback ret)
      (searchNextInstance handlers' view path suffix callback ret) := by
  have hne : ret.request ≠ .set := by simp [hreq]
  refine (agree_mibInstanceSearch h { ret with
    instPos := path.length, instId := suffix, callback := callback } hne).bind fun res hres => ?_
  have hget : res.request = .getNext := hres.trans hreq
  have hinl : ∀ res' : OidSearchRes, res'.request = .getNext →
      Agree (·.op ≠ .set) (fun out => ∀ res, out = .inl res → res.request = .getNext)
        (pure (.inl res')) (pure (.inl res') : Traced Call (OidSearchRes ⊕ OidSearchRes)) := by
    refine fun res' hres' => agree_pure fun res₁ heq => ?_
    cases heq
    exact hres'
  simp only
  split_ifs
  · exact hinl _ hget
  · exact agree_pure (by simp)
  · exact agree_crash
  · exact hinl res hget

lemma agree_searchNextStep (view orig : Oid) {s : SearchNextState} (hs : s.Reads) :
    Agree (·.op ≠ .set) (fun out => ∀ s', out = .inl s' → s'.Reads)
      (searchNextStep handlers view orig s) (searchNextStep handlers' view orig s) := by
  rw [searchNextStep, searchNextStep]
  cases hn : s.node with
  | null =>
    simp only
    exact agree_pure fun s' heq => reads_searchNextBacktrack orig (hs.imp_right And.right) heq
  | inst callback =>
    have hreq : s.ret.request = .getNext := hs.resolve_right (by simp [hn])
    refine (agree_searchNextInstance h view s.path _ callback hreq).bind fun out hout => ?_
    cases out with
    | inl ret =>
      exact agree_pure fun s' heq => reads_searchNextBacktrack orig (.inl (hout ret rfl)) heq
    | inr ret => exact agree_pure fun s' heq => by cases heq
  | group cap cnt subId subPtr =>
    have hreq : s.ret.request = .getNext := hs.resolve_right (by simp [hn])
    -- no handler is called on the way down
    apply agree_of_safe
    simp only
    have hpure : ∀ s₁ : SearchNextState, s₁.ret = s.ret → Safe (·.op ≠ .set)
        (fun out => ∀ s', out = .inl s' → s'.Reads)
        (pure (.inl s₁) : Traced Call (SearchNextState ⊕ OidSearchRes)) := by
      refine fun s₁ hs₁ => safe_pure fun s' heq => ?_
      cases heq
      exact .inl ((congrArg OidSearchRes.request hs₁).trans hreq)
    have hbind : ∀ (o : Option SearchNextState) (s' : SearchNextState),
        (∀ s₁, o = some s₁ → s₁.ret = s.ret) → o.bind searchNextAdvance = some s' →
        s'.ret = s.ret := by
      intro o s' ho hs'
      obtain ⟨s₁, hs₁, hadv⟩ := Option.bind_eq_some_iff.mp hs'
      exact (ret_searchNextAdvance hadv).trans (ho s₁ hs₁)
    split_ifs
    · generalize ho : searchNextDescend s cnt subId subPtr _ = o
      cases o with
      | none => exact safe_crash
      | some s₁ => exact hpure s₁ (ret_searchNextDescend ho)
    · cases s.rest with
      | nil => exact safe_crash
      | cons x rest =>
        simp only
        split_ifs
        · generalize ho : (searchNextDescend s cnt subId subPtr _).bind searchNextAdvance = o
          cases o with
          | none => exact safe_crash
          | some s₁ => exact hpure s₁ (hbind _ s₁ (fun _ h₁ => ret_searchNextDescend h₁) ho)
        · exact safe_pure fun s' heq => reads_searchNextBacktrack orig (.inl hreq) heq
        · exact hpure _ rfl
        · generalize ho : (searchNextDescend _ cnt subId subPtr _).bind searchNextAdvance = o
          cases o with
          | none => exact safe_crash
          | some s₁ =>
            refine hpure s₁ (hbind _ s₁ (fun s₂ h₁ => ?_) ho)
            rw [ret_searchNextDescend h₁]

lemma agree_searchNextLoop (view orig : Oid) (fuel : Nat) {s : SearchNextState} (hs : s.Reads) :
    Agree (·.op ≠ .set) (fun _ => True) (searchNextLoop handlers view orig fuel s)
      (searchNextLoop handlers' view orig fuel s) := by
  induction fuel generalizing s with
  | zero => exact agree_outOfFuel
  | succ fuel ih =>
    refine (agree_searchNextStep h view orig hs).bind fun out hout => ?_
    cases out with
    | inl s' => exact ih (hout s' rfl)
    | inr ret => exact agree_pure trivial

lemma agree_startAtView (view : Oid) (root : MibNode) (ret : OidSearchRes)
    {start : MibNode → OidSearchRes → SearchNextState}
    (hstart : ∀ node ret, (start node ret).ret.request = ret.request) :
    Agree (·.op ≠ .set) SearchNextState.Reads (startAtView handlers view root ret start)
      (startAtView handlers' view root ret start) := by
  refine (agree_mibTreeSearch h root view view { ret with request := .get }
    (by simp)).bind fun out _ => ?_
  obtain ⟨node, res⟩ := out
  cases node with
  | null => exact agree_crash
  | inst callback => exact agree_pure (.inl (hstart _ _))
  | group cap cnt subId subPtr => exact agree_pure (.inl (hstart _ _))

lemma agree_mibTreeSearchNext (view orig : Oid) (root : MibNode) (ret : OidSearchRes) :
    Agree (·.op ≠ .set) (fun _ => True) (mibTreeSearchNext handlers view orig root ret)
      (mibTreeSearchNext handlers' view orig root ret) := by
  have hstart : Agree (·.op ≠ .set) SearchNextState.Reads
      (searchNextStart handlers view orig root ret) (searchNextStart handlers' view orig root ret) := by
    rw [searchNextStart, searchNextStart]
    split_ifs
    · exact agree_startAtView h view root ret fun _ _ => rfl
    · exact agree_startAtView h view root ret fun _ _ => rfl
    · exact agree_pure (.inr ⟨rfl, rfl⟩)
  exact hstart.bind fun s hs => agree_searchNextLoop h view orig (s.node.cost + 1) hs

/-! ### Requests -/

omit h in
/-- The loop over the views, for searches that keep the request. -/
lemma agree_viewLoop {I : MibReq → Prop} {next : Option Oid → Option Oid}
    {search search' : Oid → OidSearchRes → Traced Call OidSearchRes}
    {final : Oid → OidSearchRes → Bool} {oid : Oid}
    (hsearch : ∀ view ret, I ret.request →
      Agree (·.op ≠ .set) (I ·.request) (search view ret) (search' view ret))
    (fuel : Nat) (view : Option Oid) {ret : OidSearchRes} (hI : I ret.request) :
    Agree (·.op ≠ .set) (I ·.request) (viewLoop next search final oid fuel view ret)
      (viewLoop next search' final oid fuel view ret) := by
  induction fuel generalizing view ret with
  | zero => exact agree_outOfFuel
  | succ fuel ih =>
    rw [viewLoop, viewLoop]
    cases next view with
    | none => exact agree_pure hI
    | some v =>
      refine (hsearch v ret hI).bind fun res hres => ?_
      cases final v res with
      | true => exact agree_pure hres
      | false => exact ih (some v) hres

lemma agree_mibGet (root : MibNode) (mv : MibViews) (sdg : SnmpDatagram) (vbIn : VarBind)
    {ret : OidSearchRes} (hreq : ret.request = .get) :
    Agree (·.op ≠ .set) (·.request = .get) (mibGet handlers root mv sdg vbIn ret)
      (mibGet handlers' root mv sdg vbIn ret) := by
  refine agree_viewLoop (I := (· = .get)) (fun view res hres => ?_) _ none
    ((request_checkAccess _ ret).trans hreq)
  exact (agree_searchAt h root vbIn.oid view (by simp [hres])).mono fun _ hres' => hres'.trans hres

lemma agree_mibGetnext (root : MibNode) (mv : MibViews) (sdg : SnmpDatagram) (vbIn : VarBind)
    (ret : OidSearchRes) :
    Agree (·.op ≠ .set) (fun _ => True) (mibGetnext handlers root mv sdg vbIn ret)
      (mibGetnext handlers' root mv sdg vbIn ret) :=
  agree_viewLoop (I := fun _ => True)
    (fun view res _ => agree_mibTreeSearchNext h view vbIn.oid root res) _ none trivial

omit h in
lemma agree_processVarBind {I : MibReq → Prop}
    {search search' : SnmpDatagram → VarBind → OidSearchRes → Traced Call OidSearchRes}
    (hsearch : ∀ sdg vbIn ret, I ret.request →
      Agree (·.op ≠ .set) (I ·.request) (search sdg vbIn ret) (search' sdg vbIn ret))
    {s : ProcState} (hs : I s.ret.request) (vbIn : VarBind) :
    Agree (·.op ≠ .set) (I ·.ret.request) (processVarBind search (fun _ => getVarBind) id s vbIn)
      (processVarBind search' (fun _ => getVarBind) id s vbIn) := by
  rw [processVarBind, processVarBind]
  cases hdec : decodeValue vbIn s.ret with
  | none => exact agree_crash
  | some ret =>
    refine (hsearch s.sdg vbIn ret ((decodeValue_request hdec).symm ▸ hs)).bind fun res hres => ?_
    cases getVarBind res with
    | none => exact agree_crash
    | some vbOut => exact agree_pure hres

lemma agree_getStep (root : MibNode) (mv : MibViews) {s : ProcState} (hs : s.ret.request = .get)
    (vbIn : VarBind) :
    Agree (·.op ≠ .set) (·.ret.request = .get) (getStep handlers root mv s vbIn)
      (getStep handlers' root mv s vbIn) :=
  agree_processVarBind (I := (· = .get))
    (fun sdg vbIn _ => agree_mibGet h root mv sdg vbIn) hs vbIn

lemma agree_getnextStep (root : MibNode) (mv : MibViews) (s : ProcState) (vbIn : VarBind) :
    Agree (·.op ≠ .set) (fun _ => True) (getnextStep handlers root mv s vbIn)
      (getnextStep handlers' root mv s vbIn) :=
  agree_processVarBind (I := fun _ => True)
    (fun sdg vbIn ret _ => agree_mibGetnext h root mv sdg vbIn ret) trivial vbIn

lemma agree_bulkRound (root : MibNode) (mv : MibViews) (vbs : List VarBind) (s : ProcState) :
    Agree (·.op ≠ .set) (fun _ => True) (bulkRound handlers root mv vbs s)
      (bulkRound handlers' root mv vbs s) := by
  induction vbs generalizing s with
  | nil => exact agree_pure trivial
  | cons vbIn vbs ih =>
    refine (agree_getnextStep h root mv s vbIn).bind fun s' _ => ?_
    exact (ih s').bind fun _ _ => agree_pure trivial

lemma agree_bulkRounds (root : MibNode) (mv : MibViews) (rep : Nat) (s : ProcState) :
    Agree (·.op ≠ .set) (fun _ => True) (bulkRounds handlers root mv rep s)
      (bulkRounds handlers' root mv rep s) := by
  induction rep generalizing s with
  | zero => exact agree_pure trivial
  | succ rep ih => exact (agree_bulkRound h root mv s.sdg.vbInList s).bind fun _ _ => ih _

omit h in
lemma agree_respond (s : ProcState) :
    Agree (·.op ≠ .set) (fun _ => True) (respond s) (respond s) := by
  rw [respond]
  cases snmpResponse s.sdg with
  | none => exact agree_crash
  | some r => exact agree_pure trivial

lemma agree_snmpGet (root : MibNode) (mv : MibViews) (sdg : SnmpDatagram) :
    Agree (·.op ≠ .set) (fun _ => True) (snmpGet handlers root mv sdg) (snmpGet handlers' root mv sdg) :=
  (agree_foldlM sdg.vbInList (fun _ vbIn hs => agree_getStep h root mv hs vbIn) rfl).bind
    fun s _ => agree_respond s

lemma agree_snmpGetnext (root : MibNode) (mv : MibViews) (sdg : SnmpDatagram) :
    Agree (·.op ≠ .set) (fun _ => True) (snmpGetnext handlers root mv sdg)
      (snmpGetnext handlers' root mv sdg) :=
  (agree_foldlM sdg.vbInList (fun s vbIn _ => agree_getnextStep h root mv s vbIn) trivial).bind
    fun s _ => agree_respond s

lemma agree_snmpBulkget (root : MibNode) (mv : MibViews) (sdg : SnmpDatagram) :
    Agree (·.op ≠ .set) (fun _ => True) (snmpBulkget handlers root mv sdg)
      (snmpBulkget handlers' root mv sdg) :=
  (agree_bulkRounds h root mv _ _).bind fun s _ => agree_respond s

/-- A request that is not a SET. -/
lemma agree_snmpRequestDispatch (root : MibNode) (mv : MibViews) {sdg : SnmpDatagram}
    (hset : sdg.pduHdr.pduType ≠ mibReqSet) :
    Agree (·.op ≠ .set) (fun _ => True) (snmpRequestDispatch handlers root mv sdg)
      (snmpRequestDispatch handlers' root mv sdg) := by
  rw [snmpRequestDispatch, snmpRequestDispatch, requestFunction, requestFunction]
  split_ifs
  · exact (agree_snmpGet h root mv sdg.setResponse).bind fun _ _ => agree_pure trivial
  · exact (agree_snmpGetnext h root mv sdg.setResponse).bind fun _ _ => agree_pure trivial
  · exact (agree_snmpBulkget h root mv sdg.setResponse).bind fun _ _ => agree_pure trivial
  · exact agree_pure trivial

/-- The bytes of a request that is not a SET. -/
lemma agree_snmpdRecv (root : MibNode) (mv : MibViews) {buffer : List UInt8}
    (hset : ∀ sdg, snmpDecode buffer = .ok sdg → sdg.pduHdr.pduType ≠ mibReqSet) :
    Agree (·.op ≠ .set) (fun _ => True) (snmpdRecv handlers root mv buffer)
      (snmpdRecv handlers' root mv buffer) := by
  rw [snmpdRecv, snmpdRecv]
  rcases recvCheck buffer.length buffer with (_ | _) | _ | _
  · exact agree_pure trivial
  · cases hdec : snmpDecode buffer with
    | ok sdg => exact agree_snmpRequestDispatch h root mv (hset sdg hdec)
    | crash => exact agree_crash
    | fuel => exact agree_outOfFuel
  · exact agree_crash
  · exact agree_outOfFuel

end Search

end SmartSnmp
