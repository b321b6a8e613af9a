import SmartSnmp.Snmp.Bulk
import SmartSnmp.Snmp.Walk

/-!
# Walks through an agent that does not change

Over a tree, views and handlers that stay as they are a walk by GETNEXT enumerates the instances that
the requester may read. A walk by GETBULK takes as many questions at once as it asks for repetitions,
and comes by the same instances.
-/

namespace SmartSnmp

open PrefixOrder MibNode Jump Run Walk

/-! ### Finitely many instances -/

lemma finite_existing {root : MibNode} (hroot : RootOk root) {S : Int → Set Oid}
    (hS : ∀ cb, (S cb).Finite) : {x | Existing root S x}.Finite := by
  have hfin : (⋃ e ∈ {e | e ∈ root.leaves}, (e.1 ++ ·) '' S e.2).Finite :=
    root.leaves.finite_toSet.biUnion fun e _ => (hS e.2).image _
  refine hfin.subset ?_
  rintro x ⟨p, cb, s, hocc, hs, rfl⟩
  exact Set.mem_biUnion (x := (p, cb)) ((hroot.1.mem_leaves_iff p cb).mpr hocc) ⟨s, hs, rfl⟩

lemma finite_readable {a : Agent} (ha : a.Ok) (sdg : SnmpDatagram) {S : Int → Set Oid}
    (hS : ∀ cb, (S cb).Finite) : (Readable a sdg S).Finite :=
  (finite_existing ha.reachable.rootOk hS).subset fun _ h => h.1

/-! ### Positions -/

section Still

variable {a : Agent} (ha : a.Ok) {sdg : SnmpDatagram} {handlers : Handlers} {S : Int → Set Oid}
  (h : Moment a sdg handlers S) {start : Oid} (hsmall : SmallOid start)
  (hlen : start.length ≤ mibOidMaxLen) {xs : List Oid}
  (hxs : Enumerates (Readable a sdg S) start xs)

include ha h hsmall hlen hxs

omit hsmall hlen hxs in
/-- A single step finds the next instance, and goes on from there; at the end of the view it stays. -/
lemma Moment.getnextOnce {oid : Oid} (hsmall : SmallOid oid) (hlen : oid.length ≤ mibOidMaxLen)
    (l : List Call) :
    ∃ vbOut l', SmartSnmp.getnextOnce handlers a.root a.mv sdg (askVarBind oid) l =
        (.ok (vbOut.next.getD oid, vbOut), l') ∧
      Finds (above (Readable a sdg S) oid) vbOut.next ∧
      (vbOut.next.getD oid).length ≤ mibOidMaxLen := by
  obtain ⟨ret, hdec⟩ : ∃ ret, decodeValue (askVarBind oid) (.init .getNext) = some ret := ⟨_, rfl⟩
  obtain ⟨res, vbOut, hres, hvb, -, hfits, hoid, hnext⟩ :=
    h.mibGetnext ha (askVarBind oid) hsmall hlen ret l
  rcases hsearch : SmartSnmp.mibGetnext handlers a.root a.mv sdg (askVarBind oid) ret l with ⟨out, l'⟩
  rw [hsearch] at hres
  obtain rfl : out = .ok res := hres
  have honce : SmartSnmp.getnextOnce handlers a.root a.mv sdg (askVarBind oid) l =
      (.ok (res.oid, vbOut), l') := by
    rw [SmartSnmp.getnextOnce, hdec]
    refine (Traced.bind_apply_ok hsearch _).trans ?_
    rw [hvb]
    rfl
  change vbOut.oid = vbOut.next.getD oid at hoid
  exact ⟨vbOut, l', by rw [honce, ← hoid, getVarBind_oid hvb], hnext, hoid ▸ hfits.oid⟩

/-- The positions of the walk can be asked for. -/
lemma ok_after (m : Nat) : ManagedWalk.Ok ⟨a, .after start xs m⟩ := by
  induction m with
  | zero => exact ⟨ha, by simpa [State.after_zero] using hsmall, by simpa [State.after_zero] using hlen⟩
  | succ m ih =>
    obtain ⟨vbOut, -, -, hfinds, hlen'⟩ := h.getnextOnce ha ih.small ih.length []
    rw [(hxs.finds_iff m).mp hfinds, ← State.position_after_succ] at hlen'
    refine ⟨ha, ?_, hlen'⟩
    change SmallOid (State.after start xs (m + 1)).position
    rw [State.position_after_succ]
    cases hx : xs[m]? with
    | none => exact ih.small
    | some x => exact h.small x ((hxs.mem_iff x).mp (List.mem_of_getElem? hx)).1.1

/-- A single step from a position of the walk goes to the position after it. -/
lemma getnextOnce_position (m : Nat) (l : List Call) :
    ∃ vbOut l', getnextOnce handlers a.root a.mv sdg (askVarBind (State.after start xs m).position) l =
        (.ok ((State.after start xs (m + 1)).position, vbOut), l') ∧ vbOut.next = xs[m]? := by
  have hok := ok_after ha h hsmall hlen hxs m
  obtain ⟨vbOut, l', honce, hfinds, -⟩ := h.getnextOnce ha hok.small hok.length l
  have hnext := (hxs.finds_iff m).mp hfinds
  exact ⟨vbOut, l', by rw [honce, State.position_after_succ, hnext], hnext⟩

/-- The varbind after `r` more steps says what is `r` further in the enumeration. -/
lemma getnextIter_position (r m : Nat) (l : List Call) :
    ∃ vbOut l', getnextIter handlers a.root a.mv sdg r
        (askVarBind (State.after start xs m).position) l = (.ok vbOut, l') ∧
      vbOut.next = xs[m + r]? := by
  induction r generalizing m l with
  | zero =>
    obtain ⟨vbOut, l', honce, hnext⟩ := getnextOnce_position ha h hsmall hlen hxs m l
    exact ⟨vbOut, l', Traced.bind_apply_ok honce _, hnext⟩
  | succ r ih =>
    obtain ⟨vbOut, l', honce, -⟩ := getnextOnce_position ha h hsmall hlen hxs m l
    obtain ⟨vbOut', l'', hiter, hnext⟩ := ih (m + 1) l'
    exact ⟨vbOut', l'', (Traced.bind_apply_ok honce _).trans hiter,
      by rw [hnext, Nat.add_right_comm, Nat.add_assoc]⟩

/-! ### GETNEXT -/

/-- After any number of questions the walk is as far in the enumeration. -/
lemma run_walkStep_replicate (hsdg : sdg.pduHdr.pduType = mibReqGetnext) (hout : sdg.vbOutList = [])
    (m : Nat) :
    run (walkStep sdg) ⟨a, .begin start⟩ (List.replicate m (.ask handlers S)) =
      some ⟨a, .after start xs m⟩ := by
  induction m with
  | zero => simp [State.after_zero]
  | succ m ih =>
    rw [List.replicate_succ', run_append, ih, Option.bind_some, run_cons]
    have hstep := State.after_succ start xs m
    have hok := ok_after ha h hsmall hlen hxs m
    cases hgo : (State.after start xs m).ended with
    | true =>
      rw [hgo, if_pos rfl] at hstep
      rw [walkStep_ended hgo, ← hstep]
      rfl
    | false =>
      rw [hgo, if_neg (by simp)] at hstep
      obtain ⟨r, hask, hfinds, -⟩ := walkStep_ask hsdg hout hok h hgo
      obtain rfl := (hxs.finds_iff m).mp hfinds
      rw [hask, ← hstep]
      rfl

end Still

/-- A walk by GETNEXT over an agent that does not change answers with the instances that the requester
may read, in their order, one at each question, and then with the end of the view. -/
theorem getnextWalk_enumerates {a : Agent} (ha : a.Ok) {sdg : SnmpDatagram}
    (hsdg : sdg.pduHdr.pduType = mibReqGetnext) (hout : sdg.vbOutList = []) {handlers : Handlers}
    {S : Int → Set Oid} (h : Moment a sdg handlers S) (hS : ∀ cb, (S cb).Finite) {start : Oid}
    (hsmall : SmallOid start) (hlen : start.length ≤ mibOidMaxLen) :
    ∃ xs, Enumerates (Readable a sdg S) start xs ∧ ∀ m,
      run (walkStep sdg) ⟨a, .begin start⟩ (List.replicate m (.ask handlers S)) =
        some ⟨a, .after start xs m⟩ := by
  obtain ⟨xs, hxs⟩ := exists_enumerates (q := start)
    ((finite_readable ha sdg hS).subset fun _ hx => hx.1)
  exact ⟨xs, hxs, run_walkStep_replicate ha h hsmall hlen hxs hsdg hout⟩

lemma ok_scalarAgent : scalarAgent.Ok := by
  have hnode : Agent.Ok ⟨oneInstance, .empty⟩ :=
    Agent.ok_init.apply (show (AgentOp.node (.reg [1] 7)).Small from trivial) rfl
  have hview : (AgentOp.view (.reg .community [1] [112] .write)).Small := by
    simp [AgentOp.Small, SmallOid]
  exact hnode.apply hview rfl

lemma finite_scalarInstances (cb : Int) : (scalarInstances cb).Finite := Set.finite_singleton [0]

theorem getnextWalk_enumerates_scalarAgent :
    ∃ xs, Enumerates (Readable scalarAgent sampleGetnext scalarInstances) [] xs ∧
      run (walkStep sampleGetnext) ⟨scalarAgent, .begin []⟩
        [.ask scalarHandlers scalarInstances, .ask scalarHandlers scalarInstances] =
          some ⟨scalarAgent, .after [] xs 2⟩ := by
  have hsmall : SmallOid [] := by simp [SmallOid]
  obtain ⟨xs, hxs, hrun⟩ := getnextWalk_enumerates ok_scalarAgent rfl rfl moment_scalar
    finite_scalarInstances hsmall (by decide)
  exact ⟨xs, hxs, hrun 2⟩

/-! ### GETBULK -/

/-- A question of a walk by GETBULK: its varbind has the OID of the answer before, and the answers
count up to the end of the view. -/
def bulkWalkStep (sdg : SnmpDatagram) (handlers : Handlers) (w : ManagedWalk) (n : Int32) :
    Option ManagedWalk :=
  if w.walk.ended then some w
  else
    match snmpRequestDispatch handlers w.agent.root w.agent.mv
      (sdg.bulk n [askVarBind w.walk.position]) [] with
    | (.ok r, _) => some { w with walk := w.walk.answerAll ((answers r).map VarBind.next) }
    | _ => none

section Bulk

variable {a : Agent} (ha : a.Ok) {sdg : SnmpDatagram} {handlers : Handlers} {S : Int → Set Oid}
  (h : Moment a sdg handlers S) (hst : Stateless handlers) (herr : Errorless handlers)
  (hsdg : sdg.pduHdr.pduType = mibReqBulkget) (hout : sdg.vbOutList = []) {start : Oid}
  (hsmall : SmallOid start) (hlen : start.length ≤ mibOidMaxLen) {xs : List Oid}
  (hxs : Enumerates (Readable a sdg S) start xs)

include ha h hst herr hsdg hout hsmall hlen hxs

/-- A GETBULK request is answered with as many varbinds as it asks for repetitions, and they follow
the enumeration. -/
lemma bulk_request (m : Nat) (n : Int32) :
    ∃ r l', snmpRequestDispatch handlers a.root a.mv
        (sdg.bulk n [askVarBind (State.after start xs m).position]) [] = (.ok r, l') ∧
      (answers r).length = n.toUInt32.toNat ∧
      ∀ (i : Nat) vbOut, (answers r)[i]? = some vbOut → vbOut.next = xs[m + i]? := by
  obtain ⟨ops, hrun, -⟩ := ha.viewRun
  let req := (sdg.bulk n [askVarBind (State.after start xs m).position]).setResponse
  have hmoment : Moment a req handlers S := ⟨h.known, h.handled, h.small⟩
  have hans : ∀ vb ∈ req.vbInList, Answerable a.mv req vb := by
    obtain ⟨e, he, -⟩ := hmoment.known
    exact fun vb _ => .inl (by rw [he]; exact Option.some_ne_none e)
  have hroot := ha.reachable.rootOk
  have hnil : req.vbOutList = [] := hout
  have hiter : ∀ i, ∃ vbOut, Traced.Gives (getnextIter handlers a.root a.mv req i
      (askVarBind (State.after start xs m).position)) vbOut ∧ vbOut.next = xs[m + i]? := by
    intro i
    obtain ⟨vbOut, l', hi, hnext⟩ := getnextIter_position ha hmoment hsmall hlen hxs i m []
    exact ⟨vbOut, (related_getnextIter_self hst (herr.not_hollow []) hroot hrun hnil i
      (hans _ (List.mem_singleton_self _))).gives hi, hnext⟩
  have hbulk : BulkIterates handlers a.root a.mv req :=
    bulkIterates_of_answerable hst (herr.not_hollow []) hroot hrun hnil hans
  obtain ⟨⟨s, resp⟩, l', hreq⟩ := (hbulk.returns []).mpr fun i _ vb hvb => by
    obtain rfl := List.mem_singleton.mp hvb
    exact ⟨_, (hiter i).choose_spec.1⟩
  have hiterated := hbulk.iterated [] s resp l' hreq
  have hlength : s.sdg.vbOutList.length = n.toUInt32.toNat := by
    have := hiterated.length
    rw [hnil] at this
    simpa [req, SnmpDatagram.repetitions, SnmpDatagram.bulk, SnmpDatagram.asking,
      SnmpDatagram.setResponse] using this
  refine ⟨some (s, resp), l', ?_, hlength, ?_⟩
  · have htype : (sdg.bulk n [askVarBind (State.after start xs m).position]).pduHdr.pduType =
        mibReqBulkget := hsdg
    have hfun : requestFunction handlers a.root a.mv mibReqBulkget =
        some (snmpBulkget handlers a.root a.mv) := rfl
    rw [snmpRequestDispatch, htype, hfun]
    exact Traced.bind_apply_ok hreq _
  · intro i vbOut hi
    have hlt : i < req.repetitions := by
      have hi' : i < s.sdg.vbOutList.length := (List.getElem?_eq_some_iff.mp hi).1
      rwa [hlength] at hi'
    obtain ⟨vbOut', hi', hgives⟩ := hiterated.varbind i hlt 0 _ rfl
    have heq : vbOut' = vbOut := by
      have hone : req.vbInList.length = 1 := rfl
      rw [hnil, hone, List.length_nil, Nat.zero_add, Nat.mul_one, Nat.add_zero] at hi'
      exact Option.some.inj (hi'.symm.trans hi)
    obtain ⟨vbOut'', hgives', hnext⟩ := hiter i
    rw [← heq, hgives.unique hgives', hnext]

/-- A question takes the walk as many elements further as it asks for repetitions. -/
lemma bulkWalkStep_after (m : Nat) (n : Int32) :
    bulkWalkStep sdg handlers ⟨a, .after start xs m⟩ n =
      some ⟨a, .after start xs (m + n.toUInt32.toNat)⟩ := by
  rw [bulkWalkStep]
  split_ifs with hgo
  · rw [State.after_of_ended hgo]
  · obtain ⟨r, l', hreq, hlength, hnext⟩ :=
      bulk_request ha h hst herr hsdg hout hsmall hlen hxs m n
    simp only [hreq]
    have hrs : ∀ (i : Nat) o, ((answers r).map VarBind.next)[i]? = some o → o = xs[m + i]? := by
      intro i o ho
      obtain ⟨vbOut, hi, rfl⟩ := Option.map_eq_some_iff.mp (List.getElem?_map ▸ ho)
      exact hnext i vbOut hi
    rw [State.answerAll_after hrs, List.length_map, hlength]

lemma run_bulkWalkStep (m : Nat) (ns : List Int32) :
    run (bulkWalkStep sdg handlers) ⟨a, .after start xs m⟩ ns =
      some ⟨a, .after start xs (m + (ns.map fun n => n.toUInt32.toNat).sum)⟩ := by
  induction ns generalizing m with
  | nil => rfl
  | cons n ns ih =>
    rw [run_cons, bulkWalkStep_after ha h hst herr hsdg hout hsmall hlen hxs, Option.bind_some, ih,
      List.map_cons, List.sum_cons, Nat.add_assoc]

end Bulk

/-- The same request as one for GETNEXT. -/
def SnmpDatagram.asGetnext (sdg : SnmpDatagram) : SnmpDatagram :=
  { sdg with pduHdr := { sdg.pduHdr with pduType := mibReqGetnext } }

/-- The sample request as one for GETBULK. -/
def sampleGetbulk : SnmpDatagram :=
  { sampleGetnext with pduHdr := { sampleGetnext.pduHdr with pduType := mibReqBulkget } }

/-- A walk by GETBULK does what a walk by GETNEXT does: whatever the repetitions of its questions are,
it comes as far as with a GETNEXT request for each of them. -/
theorem bulkWalk_eq_getnextWalk {a : Agent} (ha : a.Ok) {sdg : SnmpDatagram}
    (hsdg : sdg.pduHdr.pduType = mibReqBulkget) (hout : sdg.vbOutList = []) {handlers : Handlers}
    (hst : Stateless handlers) (herr : Errorless handlers) {S : Int → Set Oid}
    (h : Moment a sdg handlers S) (hS : ∀ cb, (S cb).Finite) {start : Oid} (hsmall : SmallOid start)
    (hlen : start.length ≤ mibOidMaxLen) (ns : List Int32) :
    ∃ w, run (bulkWalkStep sdg handlers) ⟨a, .begin start⟩ ns = some w ∧
      run (walkStep sdg.asGetnext) ⟨a, .begin start⟩
        (List.replicate (ns.map fun n => n.toUInt32.toNat).sum (.ask handlers S)) = some w := by
  obtain ⟨xs, hxs⟩ := exists_enumerates (q := start)
    ((finite_readable ha sdg hS).subset fun _ hx => hx.1)
  have hgetnext : Moment a sdg.asGetnext handlers S := ⟨h.known, h.handled, h.small⟩
  refine ⟨_, ?_, run_walkStep_replicate ha hgetnext hsmall hlen hxs rfl hout _⟩
  have hrun := run_bulkWalkStep ha h hst herr hsdg hout hsmall hlen hxs 0 ns
  rwa [State.after_zero, Nat.zero_add] at hrun

theorem bulkWalk_eq_getnextWalk_scalarAgent :
    ∃ w, run (bulkWalkStep sampleGetbulk scalarHandlers) ⟨scalarAgent, .begin []⟩ [10] = some w ∧
      run (walkStep sampleGetbulk.asGetnext) ⟨scalarAgent, .begin []⟩
        (List.replicate 10 (.ask scalarHandlers scalarInstances)) = some w := by
  have hmoment : Moment scalarAgent sampleGetbulk scalarHandlers scalarInstances :=
    ⟨moment_scalar.known, moment_scalar.handled, moment_scalar.small⟩
  have hsmall : SmallOid [] := by simp [SmallOid]
  exact bulkWalk_eq_getnextWalk ok_scalarAgent rfl rfl stateless_scalarHandlers errorless_scalarHandlers
    hmoment finite_scalarInstances hsmall (by decide) [10]

end SmartSnmp
