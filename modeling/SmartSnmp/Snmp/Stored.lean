import SmartSnmp.Snmp.Leftover
import SmartSnmp.Snmp.Views

/-!
# What a varbind stores

The value of a varbind and the values of the replies to its searches are written one over the other
into the union that all varbinds share. What they make of a variable is described here from the
replies, whatever the union held before: `o.over mem` is the variable `o` in a union that held `mem`.
-/

namespace SmartSnmp

open Bytes PrefixOrder MibNode

/-! ### Variables -/

/-- The variable in a union that held `mem` before. -/
def Variable.over (o : Variable) (mem : List UInt8) : Variable :=
  { o with value := o.value ++ mem.drop o.value.length }

lemma Variable.write_over (o : Variable) (mem bytes : List UInt8) :
    (o.over mem).write bytes = (o.write bytes).map fun value => value ++ mem.drop value.length := by
  rw [write, write]
  split_ifs
  · have hlen : o.value.length + (bytes.length - o.value.length) =
        bytes.length + (o.value.length - bytes.length) := by omega
    simp only [Variable.over, Option.map_some, List.drop_append, List.drop_drop, List.length_append,
      List.length_drop, List.append_assoc, hlen]
  · rfl

lemma Variable.store_over (o : Variable) (mem : List UInt8) (tag : UInt8) (val : LuaValue) :
    (o.over mem).store tag val = (o.store tag val).map fun o' => o'.over mem := by
  rw [store, store]
  cases val.toVariable tag with
  | none => rfl
  | some v =>
    simp only [Option.bind_some, write_over]
    cases o.write v.2 <;> rfl

/-- What the reply to a call that reads makes of the variable. -/
def Variable.receive (o : Variable) : Reply → Option Variable
  | .error => some { o with tag := asn1TagNoSuchObj }
  | .results errStat _ val tag =>
    if errStat = 0 ∧ mibTagValid tag then o.store tag val else some { o with tag := tag }

lemma Variable.receive_over (o : Variable) (mem : List UInt8) (reply : Reply) :
    (o.over mem).receive reply = (o.receive reply).map fun o' => o'.over mem := by
  cases reply with
  | error => rfl
  | results errStat subOid val tag =>
    rw [receive, receive]
    split_ifs
    · exact o.store_over mem tag val
    · rfl

lemma Variable.tag_receive {o o' : Variable} {reply : Reply} (h : o.receive reply = some o') :
    o'.tag = reply.report.2 := by
  cases reply with
  | error =>
    obtain rfl := Option.some.inj h
    rfl
  | results errStat subOid val tag =>
    rw [receive] at h
    split_ifs at h
    · obtain ⟨v, _, hstore⟩ := Option.bind_eq_some_iff.mp h
      obtain ⟨_, _, rfl⟩ := Option.map_eq_some_iff.mp hstore
      rfl
    · obtain rfl := Option.some.inj h
      rfl

/-- What a reply makes of the suffix it was asked for by GETNEXT. -/
def Reply.instId (suffix : Oid) : Reply → Oid
  | .error => suffix
  | .results errStat subOid _ tag => if errStat = 0 ∧ mibTagValid tag then subOid else suffix

lemma OidSearchRes.receive_eq {ret : OidSearchRes} (hset : ret.request ≠ .set) (reply : Reply) :
    ret.receive reply = (ret.var.receive reply).map fun var => { ret with
      errStat := reply.report.1
      var := var
      instId := if ret.request = .getNext then reply.instId ret.instId else ret.instId } := by
  cases reply with
  | error => simp [receive, Variable.receive, Reply.report, Reply.instId, noSuchObj]
  | results errStat subOid val tag =>
    simp only [receive, Variable.receive, Reply.report, Reply.instId]
    by_cases hok : errStat = 0 ∧ mibTagValid tag = true
    · simp only [if_pos hok, if_neg hset]
      rw [hok.1]
    · simp [if_neg hok]

/-- The variable of a value that is decoded. -/
def VarBind.decoded (vb : VarBind) : Option Variable :=
  (berValueDec vb.value vb.valueType).bind fun (len, bytes) =>
    ((⟨0, 0, []⟩ : Variable).write bytes).map fun value => ⟨vb.valueType, len, value⟩

lemma decodeValue_decoded (vb : VarBind) (ret : OidSearchRes) :
    decodeValue vb ret = vb.decoded.map fun o => { ret with var := o.over ret.var.value } := by
  rw [decodeValue, VarBind.decoded]
  cases berValueDec vb.value vb.valueType with
  | none => rfl
  | some v =>
    have hwrite : ret.var.write v.2 = _ := Variable.write_over ⟨0, 0, []⟩ ret.var.value v.2
    simp only [Option.bind_some, hwrite]
    cases Variable.write ⟨0, 0, []⟩ v.2 <;> rfl

/-- What is stored is no shorter than its elements, and fits the union. -/
structure Variable.Fits (o : Variable) : Prop where
  len : o.len ≤ o.value.length
  size : o.value.length ≤ mibValueMaxLen

/-- Bytes that are written over others. -/
lemma Variable.fits_of_write {o : Variable} {bytes value : List UInt8} (h : o.write bytes = some value)
    (ho : o.value.length ≤ mibValueMaxLen) {len : Nat} (hlen : len ≤ bytes.length) (tag : UInt8) :
    Fits ⟨tag, len, value⟩ := by
  rw [write] at h
  split_ifs at h with hbytes
  obtain rfl := Option.some.inj h
  constructor
  · simp only [List.length_append]
    omega
  · simp only [List.length_append, List.length_drop]
    omega

lemma Variable.Fits.receive {o o' : Variable} (h : o.Fits) {reply : Reply}
    (hrec : o.receive reply = some o') : o'.Fits := by
  cases reply with
  | error =>
    obtain rfl := Option.some.inj hrec
    exact ⟨h.len, h.size⟩
  | results errStat subOid val tag =>
    rw [Variable.receive] at hrec
    split_ifs at hrec
    · obtain ⟨v, hv, hstore⟩ := Option.bind_eq_some_iff.mp hrec
      obtain ⟨value, hwrite, rfl⟩ := Option.map_eq_some_iff.mp hstore
      exact fits_of_write hwrite h.size (extent_toVariable hv).1 tag
    · obtain rfl := Option.some.inj hrec
      exact ⟨h.len, h.size⟩

lemma VarBind.fits_decoded {vb : VarBind} {o : Variable} (h : vb.decoded = some o) : o.Fits := by
  obtain ⟨v, hv, hdec⟩ := Option.bind_eq_some_iff.mp h
  obtain ⟨value, hwrite, rfl⟩ := Option.map_eq_some_iff.mp hdec
  exact Variable.fits_of_write hwrite (Nat.zero_le _) (extent_berValueDec hv).1 vb.valueType

/-! ### Replies -/

/-- What a search for an OID is told in a view: the reply of the handler above the OID, or that there
is no such instance or object. -/
inductive Told (handlers : Handlers) (root : MibNode) (view oid : Oid) : Reply → Prop where
  | outside (hv : ¬ view <+: oid) : Told handlers root view oid .error
  | reply {p s : Oid} {cb : Int} (hv : view <+: oid) (hp : Occurs root p (.inst cb))
      (hoid : oid = p ++ s) (hs : s ≠ []) : Told handlers root view oid (handlers [] (getCall cb s))
  | noInst {cb : Int} (hv : view <+: oid) (hp : Occurs root oid (.inst cb)) :
      Told handlers root view oid (.results 0 [] .nil asn1TagNoSuchInst)
  | noObj (hv : view <+: oid) (hno : ∀ p cb, p <+: oid → ¬ Occurs root p (.inst cb)) :
      Told handlers root view oid .error

section Told

variable {handlers : Handlers} {root : MibNode} {view oid : Oid}

lemma Told.exists (handlers : Handlers) (root : MibNode) (view oid : Oid) :
    ∃ reply, Told handlers root view oid reply := by
  by_cases hv : view <+: oid
  · by_cases hno : ∀ p cb, p <+: oid → ¬ Occurs root p (.inst cb)
    · exact ⟨_, .noObj hv hno⟩
    · push Not at hno
      obtain ⟨p, cb, ⟨s, rfl⟩, hp⟩ := hno
      by_cases hs : s = []
      · subst hs
        rw [List.append_nil] at hv ⊢
        exact ⟨_, .noInst hv hp⟩
      · exact ⟨_, .reply hv hp rfl hs⟩
  · exact ⟨_, .outside hv⟩

lemma Told.unique (h : RootOk root) {r₁ r₂ : Reply} (h₁ : Told handlers root view oid r₁)
    (h₂ : Told handlers root view oid r₂) : r₁ = r₂ := by
  cases h₁ with
  | outside hv =>
    cases h₂ with
    | outside => rfl
    | reply hv' => exact absurd hv' hv
    | noInst hv' => exact absurd hv' hv
    | noObj hv' => rfl
  | reply hv hp hoid hs =>
    cases h₂ with
    | outside hv' => exact absurd hv hv'
    | reply _ hp' hoid' _ =>
      obtain ⟨rfl, rfl⟩ := h.1.occurs_inst_eq hp hp' (hoid.symm.trans hoid')
      rfl
    | noInst _ hp' =>
      exact absurd (h.1.occurs_inst_eq hp hp' (by rw [← hoid, List.append_nil])).1 hs
    | noObj _ hno => exact absurd hp (hno _ _ (hoid ▸ List.prefix_append _ _))
  | noInst hv hp =>
    cases h₂ with
    | outside hv' => exact absurd hv hv'
    | reply _ hp' hoid' hs' =>
      exact absurd (h.1.occurs_inst_eq hp' hp (by rw [← hoid', List.append_nil])).1 hs'
    | noInst => rfl
    | noObj _ hno => exact absurd hp (hno oid _ List.prefix_rfl)
  | noObj hv hno =>
    cases h₂ with
    | outside hv' => rfl
    | reply _ hp' hoid' _ => exact absurd hp' (hno _ _ (hoid' ▸ List.prefix_append _ _))
    | noInst _ hp' => exact absurd hp' (hno oid _ List.prefix_rfl)
    | noObj => rfl

end Told

/-- What a view makes of a variable: the variable and the OID of the result, and whether the loop over
the views ends with it. -/
abbrev Reads := Oid → Variable → (Variable × Oid) × Bool → Prop

/-- A view in a GET. -/
def GetReads (handlers : Handlers) (root : MibNode) (oid : Oid) : Reads := fun view o r =>
  ∃ reply, Told handlers root view oid reply ∧ ∃ o', o.receive reply = some o' ∧
    r = ((o', oid), decide (reply.report.Success ∨ oidCmp oid view < 0))

/-- The probes of a GETNEXT search are asked in order, until a reply names an OID in the view or ahead of
it. -/
inductive Probed (handlers : Handlers) (view orig : Oid) :
    List Probe → Variable → Variable × Oid → Prop where
  | nil (o : Variable) : Probed handlers view orig [] o ({ o with tag := asn1TagEndOfMibView }, orig)
  | invalid {p suffix : Oid} {cb : Int} {es : List Probe} {o o' : Variable} {r : Variable × Oid}
      (hrec : o.receive (handlers [] (getNextCall cb suffix)) = some o')
      (htag : mibTagValid o'.tag = false) (hr : Probed handlers view orig es o' r) :
      Probed handlers view orig ((p, cb, suffix) :: es) o r
  | outside {p suffix : Oid} {cb : Int} {es : List Probe} {o o' : Variable} {r : Variable × Oid} {x : Oid}
      (hrec : o.receive (handlers [] (getNextCall cb suffix)) = some o')
      (htag : mibTagValid o'.tag = true)
      (hx : x = p ++ (handlers [] (getNextCall cb suffix)).instId suffix)
      (hlen : x.length ≤ mibOidMaxLen) (hcover : oidCover view x = 0)
      (hr : Probed handlers view orig es o' r) : Probed handlers view orig ((p, cb, suffix) :: es) o r
  | found {p suffix : Oid} {cb : Int} {es : List Probe} {o o' : Variable} {x : Oid}
      (hrec : o.receive (handlers [] (getNextCall cb suffix)) = some o')
      (htag : mibTagValid o'.tag = true)
      (hx : x = p ++ (handlers [] (getNextCall cb suffix)).instId suffix)
      (hlen : x.length ≤ mibOidMaxLen) (hcover : oidCover view x ≠ 0) :
      Probed handlers view orig ((p, cb, suffix) :: es) o (o', x)

/-- A view in a GETNEXT: if the OID is in it or ahead of it, it is looked up itself, and the probes for
the OID are asked. -/
inductive NextReads (handlers : Handlers) (root : MibNode) (orig : Oid) : Reads where
  | past {view : Oid} (o : Variable) (hv : ¬ view <+: orig) (hcmp : ¬ oidCmp orig view < 0) :
      NextReads handlers root orig view o (({ o with tag := asn1TagEndOfMibView }, orig), false)
  | search {view : Oid} {o o₁ : Variable} {reply : Reply} {es : List Probe} {r : Variable × Oid}
      (hstart : view <+: orig ∨ oidCmp orig view < 0) (hlook : Told handlers root view view reply)
      (hrec : o.receive reply = some o₁) (hes : StartProbes root view orig es)
      (hr : Probed handlers view orig es o₁ r) :
      NextReads handlers root orig view o (r, decide (r.1.tag ≠ asn1TagEndOfMibView))

/-- The views, one after the other. -/
inductive ViewsLeave (reads : Reads) (oid : Oid) : List Oid → Variable → Variable × Oid → Prop where
  | nil (o : Variable) : ViewsLeave reads oid [] o (o, oid)
  | final {view : Oid} {views : List Oid} {o : Variable} {r : Variable × Oid}
      (h : reads view o (r, true)) : ViewsLeave reads oid (view :: views) o r
  | next {view : Oid} {views : List Oid} {o : Variable} {r r' : Variable × Oid}
      (h : reads view o (r, false)) (hrest : ViewsLeave reads oid views r.1 r') :
      ViewsLeave reads oid (view :: views) o r'

/-- What a view makes of a variable in a reading request. -/
def SnmpDatagram.reads (handlers : Handlers) (root : MibNode) (sdg : SnmpDatagram) (oid : Oid) : Reads :=
  if sdg.pduHdr.pduType = mibReqGet then GetReads handlers root oid else NextReads handlers root oid

/-- The variable and the OID that a varbind of a reading request leaves: its value is decoded, and the
views are read in order. -/
def Leaves (handlers : Handlers) (root : MibNode) (mv : MibViews) (sdg : SnmpDatagram) (vb : VarBind)
    (r : Variable × Oid) : Prop :=
  ∃ o, vb.decoded = some o ∧
    ViewsLeave (sdg.reads handlers root vb.oid) vb.oid (viewsOf (requester mv sdg) .read) o r

/-! ### Searches -/

lemma viewsLeave_nil {reads : Reads} {oid : Oid} {o : Variable} {r : Variable × Oid} :
    ViewsLeave reads oid [] o r ↔ r = (o, oid) := by
  constructor
  · rintro ⟨⟩
    rfl
  · rintro rfl
    exact .nil o

lemma viewsLeave_cons {reads : Reads} {oid view : Oid} {views : List Oid} {o : Variable}
    {r' : Variable × Oid} : ViewsLeave reads oid (view :: views) o r' ↔ ∃ r, reads view o r ∧
      if r.2 = true then r' = r.1 else ViewsLeave reads oid views r.1.1 r' := by
  constructor
  · intro h
    cases h with
    | final h => exact ⟨_, h, rfl⟩
    | next h hrest => exact ⟨_, h, hrest⟩
  · rintro ⟨⟨r, _ | _⟩, h, hrest⟩
    · exact .next h hrest
    · obtain rfl : r' = r := hrest
      exact .final h

lemma probed_nil {handlers : Handlers} {view orig : Oid} {o : Variable} {r : Variable × Oid} :
    Probed handlers view orig [] o r ↔ r = ({ o with tag := asn1TagEndOfMibView }, orig) := by
  constructor
  · rintro ⟨⟩
    rfl
  · rintro rfl
    exact .nil o

lemma probed_cons {handlers : Handlers} {view orig p suffix : Oid} {cb : Int} {es : List Probe}
    {o : Variable} {r : Variable × Oid} :
    Probed handlers view orig ((p, cb, suffix) :: es) o r ↔
      ∃ o', o.receive (handlers [] (getNextCall cb suffix)) = some o' ∧
        if mibTagValid o'.tag = true then
          (p ++ (handlers [] (getNextCall cb suffix)).instId suffix).length ≤ mibOidMaxLen ∧
            if oidCover view (p ++ (handlers [] (getNextCall cb suffix)).instId suffix) = 0 then
              Probed handlers view orig es o' r
            else r = (o', p ++ (handlers [] (getNextCall cb suffix)).instId suffix)
        else Probed handlers view orig es o' r := by
  constructor
  · intro h
    cases h with
    | invalid hrec htag hr => exact ⟨_, hrec, by rwa [if_neg (by rw [htag]; decide)]⟩
    | outside hrec htag hx hlen hcover hr =>
      subst hx
      exact ⟨_, hrec, by rw [if_pos htag, if_pos hcover]; exact ⟨hlen, hr⟩⟩
    | found hrec htag hx hlen hcover =>
      subst hx
      exact ⟨_, hrec, by rw [if_pos htag, if_neg hcover]; exact ⟨hlen, rfl⟩⟩
  · rintro ⟨o', hrec, h⟩
    split_ifs at h with htag hcover
    · exact .outside hrec htag rfl h.1 hcover h.2
    · obtain ⟨hlen, rfl⟩ := h
      exact .found hrec htag rfl hlen hcover
    · exact .invalid hrec (by simpa using htag) h

/-- What the lookup of an OID in a view has received. -/
structure Received (mem : List UInt8) (reply : Reply) (oid : Oid) (res : OidSearchRes)
    (o : Variable) : Prop where
  var : res.var = o.over mem
  report : res.report = reply.report
  request : res.request = .get
  oid : res.oid = oid

/-- The result of a search, by the variable and the OID that it leaves. -/
structure LeftAs (req : MibReq) (mem : List UInt8) (res : OidSearchRes) (r : Variable × Oid) :
    Prop where
  var : res.var = r.1.over mem
  oid : res.oid = r.2
  request : res.request = req

section Search

variable {handlers : Handlers} (hst : Stateless handlers) {root : MibNode} (hroot : RootOk root)
  {o : Variable} {mem : List UInt8} (ret : OidSearchRes)

include hst in
lemma denotes_mibInstanceSearch (hset : ret.request ≠ .set) (hvar : ret.var = o.over mem) :
    Traced.Denotes (fun res o' => res = { ret with
        errStat := (handlers [] ret.call).report.1
        var := o'.over mem
        instId := if ret.request = .getNext then (handlers [] ret.call).instId ret.instId
          else ret.instId })
      (fun o' => o.receive (handlers [] ret.call) = some o') (mibInstanceSearch handlers ret) := by
  intro l
  rw [mibInstanceSearch_apply, hst l [] ret.call, OidSearchRes.receive_eq hset, hvar,
    Variable.receive_over]
  cases hrec : o.receive (handlers [] ret.call) with
  | none => exact .crash (by simp)
  | some o' => exact .ok rfl (fun _ h => (Option.some.inj h).symm) rfl

/-- A lookup that ends without a call. -/
lemma denotes_setTag {reply : Reply} {tag : UInt8} {oid : Oid}
    (hrec : o.receive reply = some { o with tag := tag }) (hrep : reply.report = (0, tag))
    (n : MibNode) (hvar : ret.var = o.over mem) (hreq : ret.request = .get) (herr : ret.errStat = 0)
    (hoid : ret.oid = oid) :
    Traced.Denotes (fun r o' => Received mem reply oid r.2 o') (fun o' => o.receive reply = some o')
      (pure (n, ret.setTag tag) : Traced Call (MibNode × OidSearchRes)) := by
  have hres : Received mem reply oid (ret.setTag tag) { o with tag := tag } := by
    refine ⟨?_, ?_, hreq, hoid⟩
    · simp only [OidSearchRes.setTag, hvar, Variable.over]
    · rw [hrep, OidSearchRes.report]
      exact Prod.ext herr rfl
  intro l
  refine .ok hrec ?_ hres
  intro o' ho'
  exact Option.some.inj (ho'.symm.trans hrec)

include hst hroot

lemma denotes_mibTreeSearch {view oid : Oid} {reply : Reply} (ht : Told handlers root view oid reply)
    (hreq : ret.request = .get) (hvar : ret.var = o.over mem) :
    Traced.Denotes (fun r o' => Received mem reply oid r.2 o') (fun o' => o.receive reply = some o')
      (mibTreeSearch handlers root view oid ret) := by
  cases ht with
  | outside hv =>
    rw [mibTreeSearch, if_pos (not_lt.mp fun h => hv ((oidCover_pos_iff _ _).mp h))]
    exact denotes_setTag _ rfl rfl _ hvar hreq rfl rfl
  | @reply p s cb hv hp hoid hs =>
    obtain ⟨ask, hcb, hid, hask, hoid', hvar', -, heq⟩ :=
      mibTreeSearch_calls handlers ret hroot hv hoid hs hp
    have hget : ask.request = .get := hask.trans hreq
    have hcall : ask.call = getCall cb s := by
      simp only [OidSearchRes.call, hget, hcb, hid, getCall, reduceCtorEq, if_false]
    have hsearch := denotes_mibInstanceSearch hst ask (by simp [hget]) (hvar'.trans hvar)
    rw [hcall] at hsearch
    rw [heq]
    refine (hsearch.bind (Q := fun o' o'' => o'' = o') ?_).mono ?_ fun _ _ _ h => h
    · rintro res o' hrec rfl
      refine Traced.denotes_pure ⟨rfl, ?_, hget, hoid'⟩
      have htag : o'.tag = _ := Variable.tag_receive hrec
      exact Prod.ext rfl htag
    · simp
  | noInst hv hp =>
    obtain ⟨q, t, n, hres, hloop⟩ := mibTreeSearchLoop_resolves handlers
      { ret with oid := oid, errStat := 0 } oid 0 hroot.1
    obtain ⟨rfl, rfl, rfl⟩ := hres.eq_inst hroot.1 (List.append_nil oid).symm hp
    rw [mibTreeSearch_covered handlers ret hv, hloop]
    exact denotes_setTag _ rfl rfl _ hvar hreq rfl rfl
  | noObj hv hno =>
    obtain ⟨q, t, n, hres, hloop⟩ := mibTreeSearchLoop_resolves handlers
      { ret with oid := oid, errStat := 0 } oid 0 hroot.1
    rw [mibTreeSearch_covered handlers ret hv, hloop]
    have hq : q <+: oid := hres.oid_eq ▸ List.prefix_append q t
    cases n with
    | inst cb => exact absurd hres.occurs (hno q cb hq)
    | null => exact denotes_setTag _ rfl rfl _ hvar hreq rfl rfl
    | group => exact denotes_setTag _ rfl rfl _ hvar hreq rfl rfl

lemma denotes_searchAt {view oid : Oid} (hreq : ret.request = .get) (hvar : ret.var = o.over mem) :
    Traced.Denotes (fun res r => LeftAs .get mem res r.1 ∧ getFinal oid view res = r.2)
      (GetReads handlers root oid view o) (searchAt handlers root oid view ret) := by
  obtain ⟨reply, ht⟩ := Told.exists handlers root view oid
  rw [searchAt]
  refine ((denotes_mibTreeSearch hst hroot ret ht hreq hvar).bind
    (Q := fun o' r => r = ((o', oid), decide (reply.report.Success ∨ oidCmp oid view < 0)))
    ?_).mono ?_ fun _ _ _ h => h
  · rintro ⟨n, res⟩ o' hrec hres
    refine Traced.denotes_pure ⟨⟨hres.var, hres.oid, hres.request⟩, ?_⟩
    simp only [← hres.report, getFinal, OidSearchRes.report, Report.Success, Bool.decide_or,
      Bool.decide_and, Bool.decide_eq_true]
  · intro r
    refine ⟨fun h => ⟨reply, ht, h⟩, ?_⟩
    rintro ⟨reply', ht', h⟩
    obtain rfl := ht.unique hroot ht'
    exact h

omit hst hroot in
/-- The loop over the views. -/
lemma denotes_walkViews {reads : Reads} {search : Oid → OidSearchRes → Traced Call OidSearchRes}
    {final : Oid → OidSearchRes → Bool} {req : MibReq} {oid : Oid}
    (hsearch : ∀ view o ret, ret.request = req → ret.var = o.over mem →
      Traced.Denotes (fun res r => LeftAs req mem res r.1 ∧ final view res = r.2) (reads view o)
        (search view ret))
    (views : List Oid) (hreq : ret.request = req) (hvar : ret.var = o.over mem) :
    Traced.Denotes (LeftAs req mem) (ViewsLeave reads oid views o)
      (walkViews search final oid views ret) := by
  induction views generalizing o ret with
  | nil =>
    have hres : LeftAs req mem { ret with oid := oid } (o, oid) := ⟨hvar, rfl, hreq⟩
    exact (Traced.denotes_pure hres).mono (fun _ => viewsLeave_nil.symm) fun _ _ _ h => h
  | cons view views ih =>
    rw [walkViews]
    refine ((hsearch view o ret hreq hvar).bind (Q := fun r r' => if r.2 = true then r' = r.1
      else ViewsLeave reads oid views r.1.1 r') ?_).mono (fun _ => viewsLeave_cons.symm)
      fun _ _ _ h => h
    rintro res ⟨r, final'⟩ - ⟨hres, rfl⟩
    split_ifs
    · exact Traced.denotes_pure hres
    · exact ih _ hres.request hres.var

omit hroot in
/-- The probes are asked in order. -/
lemma denotes_tryProbes {view orig : Oid} (es : List Probe) (hreq : ret.request = .getNext)
    (hvar : ret.var = o.over mem) :
    Traced.Denotes (LeftAs .getNext mem) (Probed handlers view orig es o)
      (tryProbes handlers view orig es ret) := by
  induction es generalizing o ret with
  | nil =>
    have hres : LeftAs .getNext mem (endOfMibView orig ret)
        ({ o with tag := asn1TagEndOfMibView }, orig) := by
      refine ⟨?_, rfl, hreq⟩
      simp only [endOfMibView, OidSearchRes.setTag, hvar, Variable.over]
    exact (Traced.denotes_pure hres).mono (fun _ => probed_nil.symm) fun _ _ _ h => h
  | cons e es ih =>
    obtain ⟨p, cb, suffix⟩ := e
    have hsearch := denotes_mibInstanceSearch hst
      { ret with instPos := p.length, instId := suffix, callback := cb } (by simp [hreq]) hvar
    have hcall : OidSearchRes.call { ret with instPos := p.length, instId := suffix, callback := cb } =
        getNextCall cb suffix := by
      simp only [OidSearchRes.call, hreq, getNextCall, reduceCtorEq, if_false]
    rw [hcall] at hsearch
    rw [tryProbes, searchNextInstance, Traced.bind_assoc]
    refine (hsearch.bind ?_).mono (fun _ => probed_cons.symm) fun _ _ _ h => h
    rintro res o' hrec rfl
    simp only [if_pos hreq]
    by_cases htag : mibTagValid o'.tag = true
    · have htag' : mibTagValid (o'.over mem).tag = true := htag
      simp only [if_pos htag, if_pos htag']
      by_cases hlen : (p ++ (handlers [] (getNextCall cb suffix)).instId suffix).length ≤ mibOidMaxLen
      · simp only [hlen, if_true, true_and]
        split_ifs
        · exact ih _ hreq rfl
        · exact Traced.denotes_pure ⟨rfl, rfl, hreq⟩
      · simp only [hlen, if_false, false_and]
        exact Traced.denotes_crash fun _ h => h
    · have htag' : ¬ mibTagValid (o'.over mem).tag = true := htag
      simp only [if_neg htag, if_neg htag']
      exact ih _ hreq rfl

/-- The lookup of the OID of a view. -/
lemma denotes_startAtView {view : Oid} {start : MibNode → OidSearchRes → SearchNextState}
    (hstart : ∀ n res, (start n res).ret.var = res.var ∧ (start n res).ret.request = res.request)
    {reply : Reply} (ht : Told handlers root view view reply) (hvar : ret.var = o.over mem) :
    Traced.Denotes (fun s o' => s.ret.var = o'.over mem ∧ s.ret.request = .getNext)
      (fun o' => o.receive reply = some o') (startAtView handlers view root ret start) := by
  have hnode : Traced.Returns (fun r => r.1 ≠ .null)
      (mibTreeSearch handlers root view view { ret with request := .get }) := by
    rintro l ⟨n, res⟩ l' hrun
    obtain ⟨_, _, _, q, t, n', hr, hout⟩ := (mibTreeSearch_view_spec handlers hroot view ret l).of_ok hrun
    rcases hout with ⟨res', heq, _⟩ | ⟨hcrash, _⟩
    · obtain ⟨rfl, rfl⟩ := Prod.mk.inj (Outcome.ok.inj heq)
      exact (hr.wellFormed hroot).2.ne_null
    · cases hcrash
  have hsearch := denotes_mibTreeSearch hst hroot { ret with request := .get } ht rfl hvar
  refine ((hsearch.and_returns hnode).bind (Q := fun o' o'' => o'' = o') ?_).mono (by simp)
    fun _ _ _ h => h
  rintro ⟨n, res⟩ o' - ⟨hres, hn⟩
  have hleft : ∀ n, (start n { res with request := .getNext, errStat := 0 }).ret.var = o'.over mem ∧
      (start n { res with request := .getNext, errStat := 0 }).ret.request = .getNext :=
    fun n => ⟨(hstart n _).1.trans hres.var, (hstart n _).2⟩
  cases n with
  | null => exact absurd rfl hn
  | inst cb => exact Traced.denotes_pure (hleft _)
  | group cap cnt subId subPtr => exact Traced.denotes_pure (hleft _)

lemma denotes_searchNextStart {view orig : Oid} (hreq : ret.request = .getNext)
    (hvar : ret.var = o.over mem) {reply : Reply} (ht : Told handlers root view view reply) :
    Traced.Denotes (fun s o' => s.ret.var = o'.over mem ∧ s.ret.request = .getNext)
      (fun o' => if view <+: orig ∨ oidCmp orig view < 0 then o.receive reply = some o' else o' = o)
      (searchNextStart handlers view orig root ret) := by
  rw [searchNextStart]
  by_cases hv : view <+: orig
  · rw [if_pos ((oidCover_pos_iff _ _).mpr hv)]
    simp only [hv, true_or, if_true]
    exact denotes_startAtView hst hroot ret (fun n res => ⟨rfl, rfl⟩) ht hvar
  · rw [if_neg (by rw [oidCover_pos_iff]; exact hv)]
    by_cases hcmp : oidCmp orig view < 0
    · simp only [hcmp, or_true, if_true]
      exact denotes_startAtView hst hroot ret (fun n res => ⟨rfl, rfl⟩) ht hvar
    · simp only [hv, hcmp, or_self, if_false]
      exact Traced.denotes_pure ⟨hvar, hreq⟩

omit hst in
lemma nextReads_iff {view orig : Oid} {reply : Reply} (ht : Told handlers root view view reply)
    {es : List Probe} (hes : StartProbes root view orig es) {r : (Variable × Oid) × Bool} :
    NextReads handlers root orig view o r ↔ ∃ o₁,
      (if view <+: orig ∨ oidCmp orig view < 0 then o.receive reply = some o₁ else o₁ = o) ∧
        ∃ r', Probed handlers view orig es o₁ r' ∧
          r = (r', decide (r'.1.tag ≠ asn1TagEndOfMibView)) := by
  constructor
  · intro h
    cases h with
    | past _ hv hcmp =>
      obtain rfl := hes.unique hroot (.past hv hcmp)
      refine ⟨o, ?_, _, .nil o, by simp⟩
      rw [if_neg (not_or.mpr ⟨hv, hcmp⟩)]
    | search hstart hlook hrec hes' hr =>
      obtain rfl := ht.unique hroot hlook
      obtain rfl := hes.unique hroot hes'
      exact ⟨_, by rwa [if_pos hstart], _, hr, rfl⟩
  · rintro ⟨o₁, hlook, r', hr, rfl⟩
    split_ifs at hlook with hstart
    · exact .search hstart ht hlook hes hr
    · obtain ⟨hv, hcmp⟩ := not_or.mp hstart
      obtain rfl := hlook
      obtain rfl := hes.unique hroot (.past hv hcmp)
      obtain rfl := probed_nil.mp hr
      have hpast : NextReads handlers root orig view o₁ _ := .past o₁ hv hcmp
      simpa using hpast

lemma denotes_mibTreeSearchNext {view orig : Oid} (hreq : ret.request = .getNext)
    (hvar : ret.var = o.over mem) :
    Traced.Denotes (fun res r => LeftAs .getNext mem res r.1 ∧
        decide (res.var.tag ≠ asn1TagEndOfMibView) = r.2)
      (NextReads handlers root orig view o) (mibTreeSearchNext handlers view orig root ret) := by
  obtain ⟨reply, ht⟩ := Told.exists handlers root view view
  have hok : Traced.Returns (StartOk root view orig) (searchNextStart handlers view orig root ret) := by
    intro l s l' hrun
    obtain ⟨_, _, _, hs⟩ := (searchNextStart_spec handlers hroot view orig ret l).of_ok hrun
    rcases hs with ⟨s', hs', hok⟩ | ⟨hcrash, _⟩
    · obtain rfl := Outcome.ok.inj hs'
      exact hok
    · cases hcrash
  obtain ⟨es, hes⟩ := StartProbes.exists hroot view orig
  rw [mibTreeSearchNext]
  refine (((denotes_searchNextStart hst hroot ret hreq hvar ht).and_returns hok).bind
    (Q := fun o₁ r => ∃ r', Probed handlers view orig es o₁ r' ∧
      r = (r', decide (r'.1.tag ≠ asn1TagEndOfMibView))) ?_).mono
    (fun _ => (nextReads_iff hroot ht hes).symm) fun _ _ _ h => h
  rintro s o₁ - ⟨⟨hleft, hnext⟩, hs⟩
  rw [searchNextLoop_start handlers view orig hs.inv hs.pNbl hs.stk,
    hs.probes.unique hroot hes]
  rw [← Traced.bind_pure (tryProbes handlers view orig es s.ret)]
  refine (denotes_tryProbes hst s.ret es hnext hleft).bind ?_
  rintro res r' - hres
  refine Traced.denotes_pure ⟨hres, ?_⟩
  rw [hres.var]
  rfl

section Views

variable {ops : List ViewOp} {mv : MibViews} (hrun : ViewRun ops mv)

omit hst hroot in
include hrun in
lemma denotes_viewLoop {reads : Reads} {search : Oid → OidSearchRes → Traced Call OidSearchRes}
    {final : Oid → OidSearchRes → Bool} {req : MibReq}
    (hsearch : ∀ view o ret, ret.request = req → ret.var = o.over mem →
      Traced.Denotes (fun res r => LeftAs req mem res r.1 ∧ final view res = r.2) (reads view o)
        (search view ret))
    (sdg : SnmpDatagram) (oid : Oid) (hreq : ret.request = req) (hvar : ret.var = o.over mem) :
    Traced.Denotes (LeftAs req mem) (ViewsLeave reads oid (viewsOf (requester mv sdg) .read) o)
      (viewLoop (requesterNextView sdg (requester mv sdg) .read) search final oid
        (viewFuel (requester mv sdg) .read) none (checkAccess (requester mv sdg) ret)) := by
  have hok : ∀ x ∈ requester mv sdg, x.Ok := fun x hx => hrun.requester_ok hx
  rw [viewLoop_requester sdg _ (viewsOf_nodup hok .read)]
  apply denotes_walkViews _ hsearch
  · rw [request_checkAccess, hreq]
  · rw [var_checkAccess, hvar]

include hrun

lemma denotes_mibGet (sdg : SnmpDatagram) (vb : VarBind) (hreq : ret.request = .get)
    (hvar : ret.var = o.over mem) :
    Traced.Denotes (LeftAs .get mem) (ViewsLeave (GetReads handlers root vb.oid) vb.oid
      (viewsOf (requester mv sdg) .read) o) (mibGet handlers root mv sdg vb ret) := by
  refine denotes_viewLoop ret hrun ?_ sdg vb.oid hreq hvar
  intro view o ret hreq hvar
  exact denotes_searchAt hst hroot ret hreq hvar

lemma denotes_mibGetnext (sdg : SnmpDatagram) (vb : VarBind) (hreq : ret.request = .getNext)
    (hvar : ret.var = o.over mem) :
    Traced.Denotes (LeftAs .getNext mem) (ViewsLeave (NextReads handlers root vb.oid) vb.oid
      (viewsOf (requester mv sdg) .read) o) (mibGetnext handlers root mv sdg vb ret) := by
  refine denotes_viewLoop ret hrun ?_ sdg vb.oid hreq hvar
  intro view o ret hreq hvar
  exact denotes_mibTreeSearchNext hst hroot ret hreq hvar

end Views

end Search

/-! ### Bounds -/

/-- What is left fits the union, and its OID can be sent. -/
structure Sendable (r : Variable × Oid) : Prop where
  fits : r.1.Fits
  oid : r.2.length ≤ mibOidMaxLen

section Bounds

variable {handlers : Handlers} {root : MibNode} {view oid : Oid} {o : Variable}

lemma GetReads.fits {r : (Variable × Oid) × Bool} (h : GetReads handlers root oid view o r)
    (ho : o.Fits) : r.1.1.Fits := by
  obtain ⟨reply, _, o', hrec, rfl⟩ := h
  exact ho.receive hrec

lemma Probed.fits {es : List Probe} {r : Variable × Oid} (h : Probed handlers view oid es o r)
    (ho : o.Fits) : r.1.Fits := by
  induction h with
  | nil => exact ⟨ho.len, ho.size⟩
  | invalid hrec _ _ ih => exact ih (ho.receive hrec)
  | outside hrec _ _ _ _ _ ih => exact ih (ho.receive hrec)
  | found hrec => exact ho.receive hrec

lemma NextReads.fits {r : (Variable × Oid) × Bool} (h : NextReads handlers root oid view o r)
    (ho : o.Fits) : r.1.1.Fits := by
  cases h with
  | past => exact ⟨ho.len, ho.size⟩
  | search _ _ hrec _ hr => exact hr.fits (ho.receive hrec)

lemma ViewsLeave.fits {reads : Reads} (hreads : ∀ view o r, reads view o r → o.Fits → r.1.1.Fits)
    {views : List Oid} {r : Variable × Oid} (h : ViewsLeave reads oid views o r) (ho : o.Fits) :
    r.1.Fits := by
  induction h with
  | nil => exact ho
  | final h => exact hreads _ _ _ h ho
  | next h _ ih => exact ih (hreads _ _ _ h ho)

lemma GetReads.oid_eq {r : (Variable × Oid) × Bool} (h : GetReads handlers root oid view o r) :
    r.1.2 = oid := by
  obtain ⟨reply, _, o', _, rfl⟩ := h
  rfl

lemma Probed.length_oid {es : List Probe} {r : Variable × Oid} (h : Probed handlers view oid es o r)
    (hoid : oid.length ≤ mibOidMaxLen) : r.2.length ≤ mibOidMaxLen := by
  induction h with
  | nil => exact hoid
  | invalid _ _ _ ih => exact ih
  | outside _ _ _ _ _ _ ih => exact ih
  | found _ _ _ hlen => exact hlen

lemma NextReads.length_oid {r : (Variable × Oid) × Bool} (h : NextReads handlers root oid view o r)
    (hoid : oid.length ≤ mibOidMaxLen) : r.1.2.length ≤ mibOidMaxLen := by
  cases h with
  | past => exact hoid
  | search _ _ _ _ hr => exact hr.length_oid hoid

lemma ViewsLeave.length_oid {reads : Reads}
    (hreads : ∀ view o r, reads view o r → r.1.2.length ≤ mibOidMaxLen) {views : List Oid}
    {r : Variable × Oid} (h : ViewsLeave reads oid views o r) (hoid : oid.length ≤ mibOidMaxLen) :
    r.2.length ≤ mibOidMaxLen := by
  induction h with
  | nil => exact hoid
  | final h => exact hreads _ _ _ h
  | next _ _ ih => exact ih

end Bounds

end SmartSnmp
