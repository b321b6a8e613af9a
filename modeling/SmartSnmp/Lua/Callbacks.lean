import SmartSnmp.Lua.NodeSearch

/-!
# The groups as handlers

`register_mib_group` of `lualib/smartsnmp/init.lua` gives the C code a handler that calls
`mib_node_search` with the group. The variables of the groups share a state, which is what the calls
so far have made of it: so the groups are the handlers of the searches in the tree.
-/

namespace SmartSnmp

namespace Lua

/-- What was given to `register_mib_group` for a callback: the group and its name. -/
abbrev Registered (σ : Type) := Int → Option (Group σ × String)

/-- The state a program ends with. -/
def finalState {σ α : Type} : EStateM.Result LuaError σ α → σ
  | .ok _ s => s
  | .error _ s => s

/-- The reply to a call as the C API reads it. A missing tag reads as zero. -/
def replyOf {σ : Type} : EStateM.Result LuaError σ Result → Reply
  | .ok r _ => .results (Int32.ofInt r.errStat)
      (r.subOid.map fun id => UInt32.ofNat (id % 2 ^ 32).toNat) r.val (r.valType.getD 0)
  | .error _ _ => .error

section Registered

variable {σ : Type} (groups : Registered σ) (fuel : Nat)

/-- The numbers of an OID. -/
def idNumbers (oid : Oid) : List Int := oid.map fun id => (id.toNat : Int)

/-- `mib_search_handler`. Without a registered group nil is called. -/
def mibSearchHandler (call : Call) : LuaM σ Result :=
  match groups call.callback with
  | some (group, name) =>
    mibNodeSearch group name fuel call.op (idNumbers call.subOid) call.val call.valType
  | none => throw .runtime

/-- The state after a history of calls. -/
def stateAfter (s : σ) (history : List Call) : σ :=
  history.foldl (fun s call => finalState (mibSearchHandler groups fuel call s)) s

/-- The handlers of the groups. -/
def luaHandlers (s : σ) : Handlers := fun history call =>
  replyOf (mibSearchHandler groups fuel call (stateAfter groups fuel s history))

/-- What a SET on a group sets, if it passes the checks before `set_f`. -/
def groupTarget (group : Group σ) (name : String) (oid : List Int) (valType : Option UInt8) :
    Option (Variable σ × Option InstNo) :=
  match groupIndexTableGenerator group name with
  | .error _ => none
  | .ok tab =>
    match setTarget group tab oid valType with
    | .ok (.ok target) => some target
    | _ => none

/-- What a call of SET sets, if it passes the checks before `set_f`. -/
def setCallTarget (call : Call) : Option (Variable σ × Option InstNo) :=
  (groups call.callback).bind fun p =>
    groupTarget p.1 p.2 (idNumbers call.subOid) call.valType

@[simp] lemma stateAfter_nil (s : σ) : stateAfter groups fuel s [] = s := rfl

lemma stateAfter_append (s : σ) (history calls : List Call) :
    stateAfter groups fuel s (history ++ calls) =
      stateAfter groups fuel (stateAfter groups fuel s history) calls :=
  List.foldl_append

lemma stateAfter_cons (s : σ) (call : Call) (calls : List Call) :
    stateAfter groups fuel s (call :: calls) =
      stateAfter groups fuel (finalState (mibSearchHandler groups fuel call s)) calls := rfl

end Registered

/-! ### Calls of SET -/

/-- `set_f` fails if it ends with an error or returns an error status. -/
def SetFails {σ : Type} : EStateM.Result LuaError σ (Option Int) → Prop
  | .ok errStat _ => ∃ e, errStat = some e ∧ e ≠ 0
  | .error _ _ => True

section Set

variable {σ : Type}

/-- A SET that does not pass the checks before `set_f` leaves the state alone. -/
lemma mibNodeSearch_refused {group : Group σ} {name : String} {oid : List Int}
    {valType : Option UInt8} (h : groupTarget group name oid valType = none) (fuel : Nat)
    (val : LuaValue) (s : σ) :
    finalState (mibNodeSearch group name fuel .set oid val valType s) = s := by
  rw [groupTarget] at h
  rw [mibNodeSearch]
  cases hgen : groupIndexTableGenerator group name with
  | error e => rfl
  | ok tab =>
    simp only [hgen] at h
    rw [ofExcept_ok_bind, handleSet]
    rcases htarget : setTarget group tab oid valType with e | errStat | target
    · rfl
    · rfl
    · simp [htarget] at h

/-- A SET that passes them applies `set_f`. If the value has the type of its tag, the error status is
that which `set_f` returns. -/
lemma mibNodeSearch_applied {group : Group σ} {name : String} {oid : List Int}
    {valType : Option UInt8} {v : Variable σ} {inst : Option InstNo}
    (h : groupTarget group name oid valType = some (v, inst)) (fuel : Nat) {val : LuaValue}
    (htype : HasTagType val valType) (s : σ) :
    mibNodeSearch group name fuel .set oid val valType s =
      match callSet v inst val s with
      | .ok errStat s' => .ok ⟨errStat.getD errStatNoErr, oid, val, valType⟩ s'
      | .error e s' => .error e s' := by
  rw [groupTarget] at h
  rw [mibNodeSearch]
  cases hgen : groupIndexTableGenerator group name with
  | error e => simp [hgen] at h
  | ok tab =>
    simp only [hgen] at h
    rw [ofExcept_ok_bind, handleSet]
    rcases htarget : setTarget group tab oid valType with e | errStat | target
    · simp [htarget] at h
    · simp [htarget] at h
    · obtain rfl : target = (v, inst) := by simpa [htarget] using h
      rw [ofExcept_ok_bind]
      cases hrun : callSet v inst val s with
      | ok errStat s' =>
        simp only [bind_ok hrun, answer, returnValueCheck_ok htype, ofExcept_ok_bind]
        rfl
      | error e s' => simp only [bind, EStateM.bind, hrun]

section Calls

variable {groups : Registered σ} {call : Call} (hset : call.op = .set) (fuel : Nat) (s : σ)
include hset

lemma mibSearchHandler_refused (h : setCallTarget groups call = none) :
    finalState (mibSearchHandler groups fuel call s) = s := by
  rw [mibSearchHandler]
  cases hgroup : groups call.callback with
  | none => rfl
  | some p =>
    rw [setCallTarget, hgroup, Option.bind_some] at h
    simp only [hset]
    exact mibNodeSearch_refused h fuel call.val s

variable {v : Variable σ} {inst : Option InstNo} (h : setCallTarget groups call = some (v, inst))
  (htype : HasTagType call.val call.valType)
include h htype

lemma mibSearchHandler_applied : mibSearchHandler groups fuel call s =
    match callSet v inst call.val s with
    | .ok errStat s' =>
      .ok ⟨errStat.getD errStatNoErr, idNumbers call.subOid, call.val, call.valType⟩ s'
    | .error e s' => .error e s' := by
  obtain ⟨p, hgroup, h⟩ := Option.bind_eq_some_iff.mp h
  rw [mibSearchHandler, hgroup]
  simp only [hset]
  exact mibNodeSearch_applied h fuel htype s

lemma finalState_applied :
    finalState (mibSearchHandler groups fuel call s) = finalState (callSet v inst call.val s) := by
  rw [mibSearchHandler_applied hset fuel s h htype]
  cases callSet v inst call.val s <;> rfl

/-- If `set_f` does not fail, the reply is a success. -/
lemma setFails_of_not_succeeds
    (hnot : ¬ Reply.Succeeds (replyOf (mibSearchHandler groups fuel call s))) :
    SetFails (callSet v inst call.val s) := by
  rw [mibSearchHandler_applied hset fuel s h htype] at hnot
  cases hrun : callSet v inst call.val s with
  | error e s' => trivial
  | ok errStat s' =>
    rw [hrun] at hnot
    by_contra hok
    apply hnot
    obtain ⟨tag, text, htag, hmatch⟩ := htype
    have hzero : errStat.getD errStatNoErr = 0 := by
      cases errStat with
      | none => rfl
      | some e =>
        by_contra hne
        exact hok ⟨e, rfl, hne⟩
    constructor
    · rw [hzero]
      rfl
    · rw [htag]
      exact mibTagValid_of_berTagMatch hmatch

end Calls

end Set

end Lua

end SmartSnmp
