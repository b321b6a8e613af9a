import SmartSnmp.Lua.Callbacks
import SmartSnmp.Lua.Objects
import SmartSnmp.Snmp.SetResponse

/-!
# SET and GET of one scalar

A scalar that stores what it is set to. `mib_instance_search` turns the value of a SET into a Lua
value and the Lua value of a GET back into one, and the handlers check its type in between.
-/

namespace SmartSnmp

open Bytes Lua

/-! ### Values -/

/-- The values of the types that can be set, as they fit a variable. -/
inductive SetValue where
  | int (n : Int32)
  | cnt (n : UInt32)
  | gau (n : UInt32)
  | timeticks (n : UInt32)
  | octstr (bytes : List UInt8) (fits : bytes.length ≤ mibValueMaxLen)
  | ipaddr (bytes : List UInt8) (fits : bytes.length ≤ mibValueMaxLen)
  | objid (oid : Oid) (fits : 4 * oid.length ≤ mibValueMaxLen)

namespace SetValue

def tag : SetValue → UInt8
  | int _ => asn1TagInt
  | cnt _ => asn1TagCnt
  | gau _ => asn1TagGau
  | timeticks _ => asn1TagTimeticks
  | octstr _ _ => asn1TagOctstr
  | ipaddr _ _ => asn1TagIpaddr
  | objid _ _ => asn1TagObjid

/-- `length(var)`. -/
def len : SetValue → Nat
  | int _ | cnt _ | gau _ | timeticks _ => 1
  | octstr bytes _ | ipaddr bytes _ => bytes.length
  | objid oid _ => oid.length

/-- The bytes of the union that the value takes. -/
def bytes : SetValue → List UInt8
  | int n => wordBytes n.toUInt32
  | cnt n | gau n | timeticks n => wordBytes n
  | octstr bytes _ | ipaddr bytes _ => bytes
  | objid oid _ => oid.flatMap wordBytes

/-- What is pushed for the value. -/
def pushed : SetValue → LuaValue
  | int n => .num n.toInt
  | cnt n | gau n | timeticks n => .num n.toNat
  | octstr bytes _ | ipaddr bytes _ => .str bytes
  | objid oid _ => .table (oid.map fun x => (x.toNat : Int))

end SetValue

lemma SetValue.mibTagValid_tag (val : SetValue) : mibTagValid val.tag = true := by
  cases val <;> rfl

/-- The variable has the value. -/
structure Variable.Holds (var : Variable) (val : SetValue) : Prop where
  tag : var.tag = val.tag
  len : var.len = val.len
  bytes : val.bytes <+: var.value

lemma SetValue.length_bytes_le (val : SetValue) : val.bytes.length ≤ mibValueMaxLen := by
  have hword : ∀ w : UInt32, (wordBytes w).length ≤ mibValueMaxLen := by
    intro w
    rw [length_wordBytes]
    decide
  cases val with
  | int n => exact hword _
  | cnt n => exact hword n
  | gau n => exact hword n
  | timeticks n => exact hword n
  | octstr bytes fits => exact fits
  | ipaddr bytes fits => exact fits
  | objid oid fits =>
    rw [bytes, length_flatMap_word _ length_wordBytes]
    exact fits

lemma Variable.word_of_prefix {var : Variable} {w : UInt32} (h : wordBytes w <+: var.value) :
    var.word = w := by
  obtain ⟨rest, hrest⟩ := h
  rw [Variable.word, ← hrest]
  exact wordAt_wordBytes w rest

lemma Variable.oid_of_prefix {var : Variable} {oid : Oid} (hlen : var.len = oid.length)
    (h : oid.flatMap wordBytes <+: var.value) : var.oid = oid := by
  obtain ⟨rest, hrest⟩ := h
  have hat := oidAt_flatMap_append oid rest oid.length
  rw [if_pos le_rfl, List.take_length, oidAt, hrest] at hat
  split_ifs at hat
  rw [Variable.oid, hlen]
  exact Option.some.inj hat

lemma Variable.bytes_of_prefix {var : Variable} {bytes : List UInt8} (hlen : var.len = bytes.length)
    (h : bytes <+: var.value) : var.bytes = bytes := by
  obtain ⟨rest, hrest⟩ := h
  rw [Variable.bytes, hlen, ← hrest, List.take_left]

/-- What a SET of the value pushes. -/
lemma Variable.Holds.ofVariable {var : Variable} {val : SetValue} (h : var.Holds val) :
    LuaValue.ofVariable var = val.pushed := by
  obtain ⟨htag, hlen, hbytes⟩ := h
  rw [LuaValue.ofVariable, htag]
  cases val with
  | int n =>
    rw [Variable.word_of_prefix hbytes]
    rfl
  | cnt n =>
    rw [Variable.word_of_prefix hbytes]
    rfl
  | gau n =>
    rw [Variable.word_of_prefix hbytes]
    rfl
  | timeticks n =>
    rw [Variable.word_of_prefix hbytes]
    rfl
  | octstr bytes _ =>
    rw [Variable.bytes_of_prefix hlen hbytes]
    rfl
  | ipaddr bytes _ =>
    rw [Variable.bytes_of_prefix hlen hbytes]
    rfl
  | objid oid _ =>
    rw [Variable.oid_of_prefix hlen hbytes]
    rfl

/-- What a GET stores of the value, if it is no IP address. -/
lemma SetValue.toVariable_pushed {val : SetValue} (h : val.tag ≠ asn1TagIpaddr) :
    val.pushed.toVariable val.tag = some (val.len, val.bytes) := by
  have hlen : ∀ n, n ≤ mibValueMaxLen → n % 65536 = n := by
    intro n hn
    have hmax : mibValueMaxLen = 1024 := rfl
    omega
  have hword : ∀ w : UInt32, leBytes 4 ((w.toNat : Int) % 2 ^ 32).toNat = wordBytes w := by
    intro w
    have hw := w.toNat_lt
    have hmod : ((w.toNat : Int) % 2 ^ 32).toNat = w.toNat := by omega
    rw [hmod, wordBytes]
  cases val with
  | int n =>
    have hint : (n.toInt % 2 ^ 32).toNat = n.toUInt32.toNat := by
      have hn := n.toUInt32.toNat_lt
      have hmod : n.toInt % 2 ^ 32 = (n.toUInt32.toNat : Int) % 2 ^ 32 := by
        rw [← Int32.toInt_toBitVec, BitVec.toInt_eq_toNat_bmod, Int32.toNat_toBitVec]
        exact Int.bmod_emod
      rw [hmod]
      omega
    show some (1, leBytes 4 (n.toInt % 2 ^ 32).toNat) = _
    rw [hint]
    rfl
  | cnt n => exact congrArg (fun b => some (1, b)) (hword n)
  | gau n => exact congrArg (fun b => some (1, b)) (hword n)
  | timeticks n => exact congrArg (fun b => some (1, b)) (hword n)
  | octstr bytes fits =>
    show some (bytes.length % 65536, bytes.take (bytes.length % 65536)) = _
    rw [hlen _ fits, List.take_length]
    rfl
  | ipaddr bytes fits => exact absurd rfl h
  | objid oid fits =>
    have hmax : oid.length ≤ mibValueMaxLen := by omega
    have hobj : (SetValue.objid oid fits).pushed.objLen % 65536 = oid.length := by
      rw [← hlen _ hmax]
      exact congrArg (· % 65536) (List.length_map _)
    show some (_, List.flatMap _ ((oid.map _).take _)) = _
    rw [hobj, ← List.map_take, List.take_length, List.flatMap_map]
    simp only [hword]
    rfl

lemma Variable.holds_store (var : Variable) {val : SetValue} (h : val.tag ≠ asn1TagIpaddr) :
    ∃ var', var.store val.tag val.pushed = some var' ∧ var'.Holds val := by
  refine ⟨⟨val.tag, val.len, val.bytes ++ var.value.drop val.bytes.length⟩, ?_, rfl, rfl,
    List.prefix_append _ _⟩
  have hwrite : var.write val.bytes = some (val.bytes ++ var.value.drop val.bytes.length) :=
    if_pos val.length_bytes_le
  simp only [Variable.store, SetValue.toVariable_pushed h, Option.bind_some, hwrite,
    Option.map_some]

/-- The handlers take a string for every type but that of an IP address to be what it is. -/
lemma SetValue.hasTagType_pushed (val : SetValue) :
    HasTagType val.pushed (some val.tag) ↔ val.tag ≠ asn1TagIpaddr := by
  constructor
  · rintro ⟨tag, text, htag, hmatch⟩ hip
    cases val with
    | ipaddr bytes fits =>
      obtain rfl : asn1TagIpaddr = tag := Option.some.inj htag
      cases hmatch
    | int n => cases hip
    | cnt n => cases hip
    | gau n => cases hip
    | timeticks n => cases hip
    | octstr bytes fits => cases hip
    | objid oid fits => cases hip
  · intro h
    cases val with
    | int n => exact ⟨asn1TagInt, _, rfl, rfl⟩
    | cnt n => exact ⟨asn1TagCnt, _, rfl, rfl⟩
    | gau n => exact ⟨asn1TagGau, _, rfl, rfl⟩
    | timeticks n => exact ⟨asn1TagTimeticks, _, rfl, rfl⟩
    | octstr bytes fits => exact ⟨asn1TagOctstr, _, rfl, rfl⟩
    | ipaddr bytes fits => exact absurd rfl h
    | objid oid fits => exact ⟨asn1TagObjid, _, rfl, rfl⟩

/-! ### Scalars that store their value -/

/-- A read-write scalar of a group, whose `set_f` stores its argument and whose `get_f` returns the
stored value. -/
structure StoredScalar (σ : Type) where
  group : Lua.Group σ
  name : String
  tab : List IndexTable
  objNo : UInt32
  scalar : Lua.Variable σ
  tag : UInt8
  content : σ → LuaValue
  generated : groupIndexTableGenerator group name = .ok tab
  lookup : group.lookup (objNo.toNat : Int) = some (.scalar scalar)
  access : scalar.access = .rw
  hasTag : scalar.tag = some tag
  stores : ∀ val s, ∃ errStat s', callSet scalar none val s = .ok errStat s' ∧
    errStat.getD errStatNoErr = errStatNoErr ∧ content s' = val
  returns : ∀ s, ∃ errStat s', scalar.getF none s = .ok (content s, errStat) s' ∧
    errStat.getD errStatNoErr = errStatNoErr

/-- The search result asks for the instance of a scalar. -/
structure OidSearchRes.Asks (ret : OidSearchRes) (request : MibReq) (callback : Int)
    (objNo : UInt32) : Prop where
  request : ret.request = request
  callback : ret.callback = callback
  instId : ret.instId = [objNo, 0]

/-- A SET reports no error, and the GET after it returns the value with its tag. -/
def SetGetKept (handlers : Handlers) (set get : OidSearchRes) (val : SetValue) (l : List Call) :
    Prop :=
  ∃ ret l₁ ret' l₂, mibInstanceSearch handlers set l = (.ok ret, l₁) ∧ ret.Succeeded ∧
    mibInstanceSearch handlers get l₁ = (.ok ret', l₂) ∧ ret'.errStat = 0 ∧ ret'.var.Holds val

lemma returnValueCheck_error (name : String) {val : LuaValue} {tag : UInt8}
    (h : ¬ HasTagType val (some tag)) : ∃ e, returnValueCheck name val (some tag) = .error e := by
  rw [returnValueCheck]
  cases hmatch : berTagMatch tag with
  | none => exact ⟨_, rfl⟩
  | some m =>
    obtain ⟨text, type⟩ := m
    by_cases htype : type = val.type
    · rw [htype] at hmatch
      exact absurd ⟨tag, text, rfl, hmatch⟩ h
    · exact ⟨_, if_neg htype⟩

namespace StoredScalar

variable {σ : Type} (x : StoredScalar σ)

/-- The numbers of its instance. -/
def oid : List Int := idNumbers [x.objNo, 0]

lemma effectiveObjectIndex_oid :
    x.oid.head?.bind (effectiveObjectIndex x.tab) = some 2 :=
  (groupIndexTableGenerator_described x.generated).effectiveObjectIndex_scalar x.lookup

lemma scalarAt_oid : x.oid.head?.bind (scalarAt x.group) = some x.scalar := by
  show scalarAt x.group (x.objNo.toNat : Int) = _
  rw [scalarAt, x.lookup]

lemma accessible : x.scalar.access ≠ .una := by
  rw [x.access]
  decide

lemma setTarget_oid : setTarget x.group x.tab x.oid (some x.tag) = .ok (.ok (x.scalar, none)) := by
  have hzero : ¬ (x.scalar.access = .una ∨ ¬ (x.oid.length = 2 ∧ x.oid[1]? = some 0)) := by
    rintro (h | h)
    · exact x.accessible h
    · exact h ⟨rfl, rfl⟩
  have htag : ¬ some x.tag ≠ x.scalar.tag := by rw [x.hasTag]; simp
  simp only [setTarget, x.effectiveObjectIndex_oid, x.scalarAt_oid, if_neg hzero, if_neg htag]

lemma getTarget_oid : getTarget x.group x.tab x.oid = .ok (.ok (x.scalar, none)) := by
  have hzero : ¬ ¬ (x.oid.length = 2 ∧ x.oid[1]? = some 0) := fun h => h ⟨rfl, rfl⟩
  simp only [getTarget, x.effectiveObjectIndex_oid, x.scalarAt_oid, if_neg x.accessible,
    if_neg hzero]

variable (fuel : Nat) (s : σ)

/-- A SET stores the value, and fails after that if the value does not have the type of the tag. -/
lemma set_eq (val : LuaValue) : ∃ s', x.content s' = val ∧
    (HasTagType val (some x.tag) →
      mibNodeSearch x.group x.name fuel .set x.oid val (some x.tag) s =
        .ok ⟨errStatNoErr, x.oid, val, some x.tag⟩ s') ∧
    (¬ HasTagType val (some x.tag) →
      ∃ e, mibNodeSearch x.group x.name fuel .set x.oid val (some x.tag) s = .error e s') := by
  obtain ⟨errStat, s', hset, herr, hcontent⟩ := x.stores val s
  have hrun : mibNodeSearch x.group x.name fuel .set x.oid val (some x.tag) s =
      answer x.name x.oid val (some x.tag) errStat s' := by
    rw [mibNodeSearch, x.generated, ofExcept_ok_bind, handleSet, x.setTarget_oid, ofExcept_ok_bind]
    exact bind_ok hset _
  refine ⟨s', hcontent, fun htype => ?_, fun htype => ?_⟩
  · rw [hrun, answer, returnValueCheck_ok htype, ofExcept_ok_bind, herr]
    rfl
  · obtain ⟨e, he⟩ := returnValueCheck_error x.name htype
    rw [hrun, answer, he]
    exact ⟨e, rfl⟩

/-- A GET returns what is stored. -/
lemma get_eq (hnil : x.content s ≠ .nil) (htype : HasTagType (x.content s) (some x.tag)) :
    ∃ s', mibNodeSearch x.group x.name fuel .get x.oid .nil none s =
      .ok ⟨errStatNoErr, x.oid, x.content s, some x.tag⟩ s' := by
  obtain ⟨errStat, s', hget, herr⟩ := x.returns s
  refine ⟨s', ?_⟩
  have hleft : ¬ (x.content s = .nil ∨ some x.tag = none) := by simpa using hnil
  rw [mibNodeSearch, x.generated, ofExcept_ok_bind, handleGet, x.getTarget_oid, ofExcept_ok_bind]
  simp only [bind_ok hget, if_neg hleft, x.hasTag, answer, returnValueCheck_ok htype,
    ofExcept_ok_bind, herr]
  rfl

/-! ### SET and GET through the search -/

section Search

variable {groups : Registered σ} {callback : Int} (hreg : groups callback = some (x.group, x.name))
  {val : SetValue} (htag : x.tag = val.tag) (st : σ) {set get : OidSearchRes}
  (hset : set.Asks .set callback x.objNo) (hholds : set.var.Holds val)
  (hget : get.Asks .get callback x.objNo) (l : List Call)
include hreg htag hset hholds

/-- The reply to the SET, and the state after it. -/
lemma reply_set : ∃ s', x.content s' = val.pushed ∧
    stateAfter groups fuel st (l ++ [set.call]) = s' ∧
    (val.tag ≠ asn1TagIpaddr →
      ∃ subOid, luaHandlers groups fuel st l set.call = .results 0 subOid val.pushed val.tag) ∧
    (val.tag = asn1TagIpaddr → luaHandlers groups fuel st l set.call = .error) := by
  obtain ⟨s', hcontent, hkept, hfails⟩ :=
    x.set_eq fuel (stateAfter groups fuel st l) val.pushed
  have hcall : mibSearchHandler groups fuel set.call (stateAfter groups fuel st l) =
      mibNodeSearch x.group x.name fuel .set x.oid val.pushed (some x.tag)
        (stateAfter groups fuel st l) := by
    rw [OidSearchRes.call, if_pos hset.request, mibSearchHandler]
    simp only [hset.callback, hset.instId, hreg, hholds.ofVariable, hholds.tag, htag]
    rfl
  have htype := val.hasTagType_pushed
  rw [← htag] at htype
  refine ⟨s', hcontent, ?_, fun htagNe => ?_, fun htagEq => ?_⟩
  · rw [stateAfter_append, stateAfter_cons, stateAfter_nil, hcall]
    by_cases h : HasTagType val.pushed (some x.tag)
    · rw [hkept h]
      rfl
    · obtain ⟨e, he⟩ := hfails h
      rw [he]
      rfl
  · rw [← htag] at htagNe
    rw [luaHandlers, hcall, hkept (htype.mpr htagNe), htag]
    exact ⟨_, rfl⟩
  · rw [← htag] at htagEq
    obtain ⟨e, he⟩ := hfails fun h => htype.mp h htagEq
    rw [luaHandlers, hcall, he]
    rfl

omit hset hholds in
/-- The reply to the GET, in a state that has the value. -/
lemma reply_get (hget : get.Asks .get callback x.objNo) {s' : σ}
    (hcontent : x.content s' = val.pushed) (hne : val.tag ≠ asn1TagIpaddr) :
    ∃ subOid, replyOf (mibSearchHandler groups fuel get.call s') =
      .results 0 subOid val.pushed val.tag := by
  have hnil : x.content s' ≠ .nil := by
    rw [hcontent]
    cases val <;> simp [SetValue.pushed]
  have htype : HasTagType (x.content s') (some x.tag) := by
    rw [hcontent, htag]
    exact val.hasTagType_pushed.mpr hne
  obtain ⟨s'', hrun⟩ := x.get_eq fuel s' hnil htype
  have hget' : get.request ≠ .set := by rw [hget.request]; decide
  have hcall : mibSearchHandler groups fuel get.call s' =
      mibNodeSearch x.group x.name fuel .get x.oid .nil none s' := by
    rw [OidSearchRes.call, if_neg hget', mibSearchHandler]
    simp only [hget.callback, hget.instId, hget.request, hreg]
    rfl
  rw [hcall, hrun, hcontent, htag]
  exact ⟨_, rfl⟩

include hget

/-- A value of another type than IP address is kept. -/
lemma setGetKept (hne : val.tag ≠ asn1TagIpaddr) :
    SetGetKept (luaHandlers groups fuel st) set get val l := by
  obtain ⟨s', hcontent, hstate, hreply, -⟩ := x.reply_set fuel hreg htag st hset hholds l
  obtain ⟨subOid, hreply⟩ := hreply hne
  obtain ⟨subOid', hreply'⟩ := x.reply_get fuel hreg htag hget hcontent hne
  obtain ⟨var, hstore, hvar⟩ := Variable.holds_store get.var hne
  have hok : (0 : Int32) = 0 ∧ mibTagValid val.tag = true := ⟨rfl, val.mibTagValid_tag⟩
  refine ⟨{ set with errStat := 0, var := { set.var with tag := val.tag } }, l ++ [set.call],
    { get with errStat := 0, var := var }, l ++ [set.call] ++ [get.call], ?_,
    ⟨rfl, val.mibTagValid_tag⟩, ?_, rfl, hvar⟩
  · rw [mibInstanceSearch_apply, hreply, OidSearchRes.receive, if_pos hok, if_pos hset.request]
  · have hget' : get.request ≠ .set := by rw [hget.request]; decide
    have hnext : get.request ≠ .getNext := by rw [hget.request]; decide
    rw [mibInstanceSearch_apply, luaHandlers, hstate, hreply', OidSearchRes.receive, if_pos hok,
      if_neg hget', hstore]
    simp only [if_neg hnext, Option.map_some]

omit hget in
/-- For an IP address the SET reports an error. -/
lemma not_setGetKept (hip : val.tag = asn1TagIpaddr) :
    ¬ SetGetKept (luaHandlers groups fuel st) set get val l := by
  obtain ⟨s', -, -, -, hreply⟩ := x.reply_set fuel hreg htag st hset hholds l
  rintro ⟨ret, l₁, ret', l₂, hrun, hok, -⟩
  rw [mibInstanceSearch_apply, hreply hip] at hrun
  have hret := (Prod.mk.inj hrun).1
  rw [← Outcome.ok.inj hret] at hok
  have hvalid : mibTagValid asn1TagNoSuchObj = true := hok.2
  exact absurd hvalid (by decide)

/-- A value that is set is read back exactly if it is no IP address. -/
theorem setGetKept_iff :
    SetGetKept (luaHandlers groups fuel st) set get val l ↔ val.tag ≠ asn1TagIpaddr := by
  constructor
  · intro h hip
    exact x.not_setGetKept fuel hreg htag st hset hholds l hip h
  · exact x.setGetKept fuel hreg htag st hset hholds hget l

end Search

end StoredScalar

/-! ### A scalar with a number or an IP address -/

/-- A scalar for each tag. The state is its value. -/
def storedScalar (tag : UInt8) : StoredScalar LuaValue where
  group := AList.singleton 1 (.scalar (readWrite (fun _ => do pure (← get, none))
    (fun _ val => do set val; pure none) tag))
  name := "stored"
  tab := [.scalars [1]]
  objNo := 1
  scalar := readWrite (fun _ => do pure (← get, none)) (fun _ val => do set val; pure none) tag
  tag := tag
  content := id
  generated := rfl
  lookup := rfl
  access := rfl
  hasTag := rfl
  stores val _ := ⟨none, val, rfl, rfl, rfl⟩
  returns s := ⟨none, s, rfl, rfl⟩

/-- The group of the scalar, registered for one callback. -/
def storedGroups (tag : UInt8) : Registered LuaValue := fun callback =>
  if callback = 7 then some ((storedScalar tag).group, "stored") else none

/-- What a request for the scalar asks for. -/
def storedRequest (request : MibReq) (var : Variable) : OidSearchRes :=
  { OidSearchRes.init request with instId := [1, 0], callback := 7, var := var }

lemma storedRequest_asks (request : MibReq) (var : Variable) :
    (storedRequest request var).Asks request 7 1 := ⟨rfl, rfl, rfl⟩

lemma storedGroups_seven (tag : UInt8) :
    storedGroups tag 7 = some ((storedScalar tag).group, (storedScalar tag).name) := rfl

/-- An integer is read back. -/
theorem setGetKept_iff_int :
    SetGetKept (luaHandlers (storedGroups asn1TagInt) 0 .nil)
        (storedRequest .set ⟨asn1TagInt, 1, [5, 0, 0, 0]⟩) (storedRequest .get .zero) (.int 5) [] ↔
      (SetValue.int 5).tag ≠ asn1TagIpaddr :=
  (storedScalar asn1TagInt).setGetKept_iff 0 (storedGroups_seven asn1TagInt) rfl .nil
    (storedRequest_asks .set _) ⟨rfl, rfl, List.prefix_rfl⟩ (storedRequest_asks .get _) []

/-- The SET of an IP address reports an error. -/
theorem setGetKept_ipaddr :
    ¬ SetGetKept (luaHandlers (storedGroups asn1TagIpaddr) 0 .nil)
      (storedRequest .set ⟨asn1TagIpaddr, 4, [192, 168, 0, 1]⟩) (storedRequest .get .zero)
      (.ipaddr [192, 168, 0, 1] (by decide)) [] :=
  (storedScalar asn1TagIpaddr).not_setGetKept 0 (storedGroups_seven asn1TagIpaddr) rfl .nil
    (storedRequest_asks .set _) ⟨rfl, rfl, List.prefix_rfl⟩ [] rfl

end SmartSnmp
