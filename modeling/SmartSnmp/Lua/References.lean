import Mathlib.Data.List.AList
import SmartSnmp.Mib.Tree.Release

/-!
# The references to handlers

`smartsnmp_mib_node_reg` and `smartsnmp_mib_node_unreg` of `core/smartsnmp.c`, with the operations of
`core/snmp.c`, which are those of the tree. A handler is kept in the environment table of the module,
and the tree has its reference for a callback. The callbacks of the tree always are references in use,
each to the handler that was registered for its OID.
-/

namespace SmartSnmp

namespace Lua

open MibNode

/-! ### The environment table -/

/-- A table of the Lua library: `ref` and `unref` stand for `luaL_ref` and `luaL_unref` on it, and `get` for
the functions at its references. Which reference is found may depend on all that was done to the table
before; it is not in use. -/
class RefTable (τ : Type) (φ : outParam Type) where
  empty : τ
  get : τ → Int → Option φ
  ref : τ → φ → τ × Int
  unref : τ → Int → τ
  get_empty : ∀ r, get empty r = none
  ref_new : ∀ t f, get t (ref t f).2 = none
  get_ref_self : ∀ t f, get (ref t f).1 (ref t f).2 = some f
  get_ref_ne : ∀ t f r, r ≠ (ref t f).2 → get (ref t f).1 r = get t r
  get_unref_self : ∀ t r, get t r ≠ none → get (unref t r) r = none
  get_unref_ne : ∀ t r r', get t r ≠ none → r' ≠ r → get (unref t r) r' = get t r'

section Environment

variable {τ φ : Type} [RefTable τ φ]

/-- `luaL_unref`. A reference that is not in use would break the list of free references. -/
def luaLUnref (env : τ) (ref : Int) : Outcome τ :=
  if (RefTable.get env ref).isSome then .ok (RefTable.unref env ref) else .crash

def luaLUnrefAll (env : τ) : List Int → Outcome τ
  | [] => .ok env
  | ref :: refs =>
    match luaLUnref env ref with
    | .ok env => luaLUnrefAll env refs
    | .crash => .crash
    | .fuel => .fuel

/-- The references in use, each once. -/
structure InUse (env : τ) (refs : List Int) : Prop where
  nodup : refs.Nodup
  mem : ∀ r, r ∈ refs ↔ RefTable.get env r ≠ none

lemma InUse.perm {env : τ} {refs refs' : List Int} (h : InUse env refs) (hperm : refs.Perm refs') :
    InUse env refs' :=
  ⟨hperm.nodup_iff.mp h.nodup, fun r => hperm.mem_iff.symm.trans (h.mem r)⟩

lemma inUse_empty : InUse (RefTable.empty : τ) [] :=
  ⟨List.nodup_nil, fun r => by simp [RefTable.get_empty]⟩

lemma InUse.ref {env : τ} {refs : List Int} (h : InUse env refs) (f : φ) :
    InUse (RefTable.ref env f).1 ((RefTable.ref env f).2 :: refs) where
  nodup := List.nodup_cons.mpr ⟨fun hmem => (h.mem _).mp hmem (RefTable.ref_new env f), h.nodup⟩
  mem := by
    intro r
    by_cases heq : r = (RefTable.ref env f).2
    · rw [heq, RefTable.get_ref_self]
      simp
    · rw [RefTable.get_ref_ne env f r heq, List.mem_cons, or_iff_right heq, h.mem]

/-- References in use are released, and the others are left alone. -/
lemma luaLUnrefAll_ok {refs rest : List Int} {env : τ} (h : InUse env (refs ++ rest)) :
    ∃ env', luaLUnrefAll env refs = .ok env' ∧ InUse env' rest ∧
      ∀ ref ∈ rest, RefTable.get env' ref = RefTable.get env ref := by
  induction refs generalizing env with
  | nil => exact ⟨env, rfl, h, fun _ _ => rfl⟩
  | cons ref refs ih =>
    have hused : RefTable.get env ref ≠ none := (h.mem ref).mp List.mem_cons_self
    have hne : ∀ r ∈ refs ++ rest, r ≠ ref := by
      rintro r hr rfl
      exact (List.nodup_cons.mp h.nodup).1 hr
    have herase : InUse (RefTable.unref env ref) (refs ++ rest) := by
      refine ⟨(List.nodup_cons.mp h.nodup).2, fun r => ?_⟩
      by_cases heq : r = ref
      · rw [heq, RefTable.get_unref_self env ref hused]
        exact iff_of_false (fun hmem => hne ref hmem rfl) (by simp)
      · rw [RefTable.get_unref_ne env ref r hused heq, ← h.mem, List.cons_append, List.mem_cons,
          or_iff_right heq]
    obtain ⟨env', hrun, hrest, hget⟩ := ih herase
    refine ⟨env', ?_, hrest, fun r hr => ?_⟩
    · rw [luaLUnrefAll, luaLUnref, if_pos (Option.isSome_iff_ne_none.mpr hused)]
      exact hrun
    · rw [hget r hr, RefTable.get_unref_ne env ref r hused (hne r (List.mem_append_right refs hr))]

end Environment

/-! ### The calls of a program -/

/-- The tree, and the environment table with the handlers. -/
structure LuaMib (τ : Type) where
  root : MibNode
  env : τ

/-- The OID of numbers, as the C API reads them. -/
def toOid (ids : List Int) : Oid := ids.map fun id => UInt32.ofNat (id % 2 ^ 32).toNat

section Calls

variable {τ φ : Type} [RefTable τ φ]

/-- After `mib_init`, with an empty environment table. -/
def LuaMib.init : LuaMib τ := ⟨mibInit, RefTable.empty⟩

/-- `smartsnmp_mib_node_reg`: the return value, or the error for a handler that is no function. The
reference is kept if the registration fails. -/
def smartsnmpMibNodeReg (m : LuaMib τ) (ids : List Int) :
    Option φ → Outcome (LuaMib τ × Except String Int)
  | none => .ok (m, .error "Handler is not a function!")
  | some f =>
    let (env, cb) := RefTable.ref m.env f
    match mibNodeReg m.root (toOid ids) cb with
    | .ok (root, code) => .ok (⟨root, env⟩, .ok code)
    | .crash => .crash
    | .fuel => .fuel

/-- `smartsnmp_mib_node_unreg`. -/
def smartsnmpMibNodeUnreg (m : LuaMib τ) (ids : List Int) : Outcome (LuaMib τ × Except String Int) :=
  match mibNodeUnregReleasing m.root (toOid ids) with
  | .ok (root, released) =>
    match luaLUnrefAll m.env released with
    | .ok env => .ok (⟨root, env⟩, .ok 0)
    | .crash => .crash
    | .fuel => .fuel
  | .crash => .crash
  | .fuel => .fuel

/-- A call on the nodes. A handler that is no function is `none`. -/
inductive NodeCall (φ : Type) where
  | reg (ids : List Int) (handler : Option φ)
  | unreg (ids : List Int)

def NodeCall.apply (m : LuaMib τ) : NodeCall φ → Outcome (LuaMib τ × Except String Int)
  | .reg ids handler => smartsnmpMibNodeReg m ids handler
  | .unreg ids => smartsnmpMibNodeUnreg m ids

/-- The calls of a program with what they return. -/
def nodeCalls (m : LuaMib τ) :
    List (NodeCall φ) → Outcome (LuaMib τ × List (NodeCall φ × Except String Int))
  | [] => .ok (m, [])
  | call :: calls =>
    match call.apply m with
    | .ok (m, result) => (nodeCalls m calls).map fun r => (r.1, (call, result) :: r.2)
    | .crash => .crash
    | .fuel => .fuel

end Calls

/-! ### What a call changes -/

section Changes

variable {τ φ : Type} [RefTable τ φ] {m m' : LuaMib τ} {result : Except String Int}

lemma get_of_luaLUnrefAll {env env' : τ} {refs : List Int} {r : Int} {f : φ}
    (h : luaLUnrefAll env refs = .ok env') (hr : RefTable.get env' r = some f) :
    RefTable.get env r = some f := by
  induction refs generalizing env with
  | nil =>
    obtain rfl := Outcome.ok.inj h
    exact hr
  | cons ref refs ih =>
    rw [luaLUnrefAll, luaLUnref] at h
    by_cases hused : (RefTable.get env ref).isSome
    · have hne := Option.isSome_iff_ne_none.mp hused
      rw [if_pos hused] at h
      have hold := ih h
      by_cases heq : r = ref
      · subst heq
        rw [RefTable.get_unref_self env r hne] at hold
        cases hold
      · rwa [RefTable.get_unref_ne env ref r hne heq] at hold
    · rw [if_neg hused] at h
      cases h

/-- What a call that returns does to the tree and the environment table. -/
inductive NodeCall.Effect (m : LuaMib τ) : NodeCall φ → LuaMib τ → Prop
  | refused (ids : List Int) : Effect m (.reg ids none) m
  | registered (ids : List Int) (f : φ) {root : MibNode} {code : Int} :
      mibNodeReg m.root (toOid ids) (RefTable.ref m.env f).2 = .ok (root, code) →
      Effect m (.reg ids (some f)) ⟨root, (RefTable.ref m.env f).1⟩
  | unregistered (ids : List Int) {root : MibNode} {released : List Int} {env : τ} :
      mibNodeUnregReleasing m.root (toOid ids) = .ok (root, released) →
      luaLUnrefAll m.env released = .ok env → Effect m (.unreg ids) ⟨root, env⟩

lemma NodeCall.effect_of_apply {call : NodeCall φ} (h : call.apply m = .ok (m', result)) :
    call.Effect m m' := by
  cases call with
  | reg ids handler =>
    cases handler with
    | none =>
      cases h
      exact .refused ids
    | some f =>
      simp only [NodeCall.apply, smartsnmpMibNodeReg] at h
      cases hreg : mibNodeReg m.root (toOid ids) (RefTable.ref m.env f).2 with
      | ok r =>
        rw [hreg] at h
        cases h
        exact .registered ids f hreg
      | crash => simp [hreg] at h
      | fuel => simp [hreg] at h
  | unreg ids =>
    simp only [NodeCall.apply, smartsnmpMibNodeUnreg] at h
    cases hunreg : mibNodeUnregReleasing m.root (toOid ids) with
    | ok r =>
      rw [hunreg] at h
      cases henv : luaLUnrefAll m.env r.2 with
      | ok env =>
        simp only [henv] at h
        cases h
        exact .unregistered ids hunreg henv
      | crash => simp [henv] at h
      | fuel => simp [henv] at h
    | crash => simp [hunreg] at h
    | fuel => simp [hunreg] at h

/-- The tree changes by a call on the tree, if at all. -/
lemma NodeCall.Effect.root {call : NodeCall φ} (h : call.Effect m m') :
    m'.root = m.root ∨ ∃ op : TreeOp, op.apply m.root = .ok m'.root := by
  cases h with
  | refused ids => exact .inl rfl
  | registered ids f hreg =>
    exact .inr ⟨.reg (toOid ids) (RefTable.ref m.env f).2, by rw [TreeOp.apply, hreg]⟩
  | unregistered ids hunreg henv =>
    have hmap := map_mibNodeUnregReleasing m.root (toOid ids)
    rw [hunreg] at hmap
    exact .inr ⟨.unreg (toOid ids), hmap.symm⟩

/-- A handler with a reference had it before, or it is registered. -/
lemma NodeCall.Effect.get {call : NodeCall φ} (h : call.Effect m m') {r : Int} {f : φ}
    (hr : RefTable.get m'.env r = some f) :
    RefTable.get m.env r = some f ∨ ∃ ids, call = .reg ids (some f) := by
  cases h with
  | refused ids => exact .inl hr
  | registered ids f' hreg =>
    by_cases heq : r = (RefTable.ref m.env f').2
    · subst heq
      rw [RefTable.get_ref_self] at hr
      cases hr
      exact .inr ⟨ids, rfl⟩
    · rw [RefTable.get_ref_ne m.env f' r heq] at hr
      exact .inl hr
  | unregistered ids hunreg henv => exact .inl (get_of_luaLUnrefAll henv hr)

end Changes

/-! ### What is registered -/

section Directory

variable {τ φ : Type}

/-- The handlers by OID after a call, by what it returned. -/
def directoryAfter (bound : Oid → Option φ) : NodeCall φ × Except String Int → Oid → Option φ
  | (.reg ids (some f), .ok 0) => Function.update bound (toOid ids) (some f)
  | (.unreg ids, _) => fun p => if Unregisters (toOid ids) p then none else bound p
  | _ => bound

/-- The handlers by OID after a history of calls. -/
def directory (history : List (NodeCall φ × Except String Int)) : Oid → Option φ :=
  history.foldl directoryAfter fun _ => none

/-- The registration of a function that failed. -/
def failed : NodeCall φ × Except String Int → Bool
  | (.reg _ (some _), .ok code) => code != 0
  | _ => false

/-- The tree and the environment table have these handlers. The references in use are the callbacks of
the tree, each once, and those that failed registrations have left. -/
structure LuaMib.Holds [RefTable τ φ] (m : LuaMib τ) (bound : Oid → Option φ) (lost : Nat) : Prop where
  rootOk : RootOk m.root
  refs : ∃ left : List Int, left.length = lost ∧ InUse m.env (m.root.leaves.map Prod.snd ++ left)
  get : ∀ p cb, (p, cb) ∈ m.root.leaves → RefTable.get m.env cb = bound p
  unbound : ∀ p, (∀ cb, (p, cb) ∉ m.root.leaves) → bound p = none

variable [RefTable τ φ]

lemma holds_init : (LuaMib.init : LuaMib τ).Holds (fun _ => none) 0 where
  rootOk := rootOk_mibInit
  refs := ⟨[], rfl, inUse_empty⟩
  get := by
    intro p cb h
    change (p, cb) ∈ [] at h
    cases h
  unbound := fun _ _ => rfl

/-! ### Steps -/

section Steps

variable {m : LuaMib τ} {bound : Oid → Option φ} {lost : Nat} (h : m.Holds bound lost)
include h

lemma LuaMib.Holds.get_ne_none {p : Oid} {cb : Int} (hmem : (p, cb) ∈ m.root.leaves) :
    RefTable.get m.env cb ≠ none := by
  obtain ⟨left, -, hrefs⟩ := h.refs
  exact (hrefs.mem cb).mp (List.mem_append_left left (List.mem_map.mpr ⟨(p, cb), hmem, rfl⟩))

/-- A registration binds the OID to the handler, or leaves its reference behind. -/
lemma LuaMib.Holds.reg (ids : List Int) (f : φ) : ∃ m' code,
    smartsnmpMibNodeReg m ids (some f) = .ok (m', .ok code) ∧
    m'.Holds (directoryAfter bound (.reg ids (some f), .ok code)) (lost + if code = 0 then 0 else 1) := by
  obtain ⟨left, hleft, hrefs⟩ := h.refs
  have hnew := hrefs.ref f
  have hself := RefTable.get_ref_self m.env f
  have hother := RefTable.get_ref_ne m.env f
  have hne : ∀ p cb, (p, cb) ∈ m.root.leaves → cb ≠ (RefTable.ref m.env f).2 := by
    rintro p cb hmem rfl
    exact h.get_ne_none hmem (RefTable.ref_new m.env f)
  simp only [smartsnmpMibNodeReg]
  generalize RefTable.ref m.env f = r at hnew hself hother hne
  obtain ⟨env, cb⟩ := r
  rcases h.rootOk.reg_cases (toOid ids) cb with ⟨heq, -⟩ | ⟨heq, -, hmax, hins⟩
  · rw [heq]
    refine ⟨_, -1, rfl, h.rootOk, ⟨cb :: left, by simp [hleft], hnew.perm List.perm_middle.symm⟩, ?_,
      h.unbound⟩
    intro p cb' hmem
    rw [hother cb' (hne p cb' hmem)]
    exact h.get p cb' hmem
  · rw [heq]
    have hroot : RootOk (mibTreeInstanceInsert cb m.root (toOid ids)).1 := by
      obtain ⟨root', code, heq', hroot'⟩ := h.rootOk.reg (toOid ids) cb
      obtain ⟨rfl, -⟩ := Prod.mk.inj (Outcome.ok.inj (heq.symm.trans heq'))
      exact hroot'
    have hocc := instanceInsert_occurs cb (toOid ids) h.rootOk.1 hins
    generalize (mibTreeInstanceInsert cb m.root (toOid ids)).1 = root' at hroot hocc
    have hleaf : ∀ p cb', (p, cb') ∈ root'.leaves ↔
        (p, cb') ∈ m.root.leaves ∨ p = toOid ids ∧ cb' = cb := by
      intro p cb'
      rw [hroot.1.mem_leaves_iff, h.rootOk.1.mem_leaves_iff, hocc]
    -- the OID had no instance before
    have hold : ∀ cb', (toOid ids, cb') ∉ m.root.leaves := by
      intro cb' hmem
      have h₁ := (hroot.1.mem_leaves_iff _ _).mp ((hleaf _ cb').mpr (.inl hmem))
      have h₂ := (hroot.1.mem_leaves_iff _ _).mp ((hleaf _ _).mpr (.inr ⟨rfl, rfl⟩))
      exact hne _ cb' hmem (MibNode.inst.inj (hroot.1.occurs_unique h₁ h₂))
    have hperm : root'.leaves.Perm ((toOid ids, cb) :: m.root.leaves) := by
      have hnodup := List.nodup_cons.mpr ⟨hold cb, h.rootOk.1.leaves_nodup⟩
      refine (List.perm_ext_iff_of_nodup hroot.1.leaves_nodup hnodup).mpr ?_
      rintro ⟨p, cb'⟩
      rw [hleaf, List.mem_cons, Prod.mk.injEq, or_comm]
    refine ⟨_, 0, rfl, hroot, ⟨left, by simpa using hleft, ?_⟩, ?_, ?_⟩
    · exact hnew.perm ((hperm.map Prod.snd).symm.append_right left)
    · intro p cb' hmem
      rcases (hleaf p cb').mp hmem with hmem | ⟨rfl, rfl⟩
      · have hp : p ≠ toOid ids := by
          rintro rfl
          exact hold cb' hmem
        rw [hother cb' (hne p cb' hmem), directoryAfter, Function.update_of_ne hp]
        exact h.get p cb' hmem
      · rw [directoryAfter, Function.update_self]
        exact hself
    · intro p hp
      have hpne : p ≠ toOid ids := by
        rintro rfl
        exact hp _ ((hleaf _ _).mpr (.inr ⟨rfl, rfl⟩))
      rw [directoryAfter, Function.update_of_ne hpne]
      exact h.unbound p fun cb' hmem => hp cb' ((hleaf p cb').mpr (.inl hmem))

/-- An unregistration releases the references of the handlers that it removes, and no others. -/
lemma LuaMib.Holds.unreg (ids : List Int) : ∃ m',
    smartsnmpMibNodeUnreg m ids = .ok (m', .ok 0) ∧
    m'.Holds (directoryAfter bound (.unreg ids, .ok 0)) lost := by
  obtain ⟨left, hleft, hrefs⟩ := h.refs
  obtain ⟨root', released, hrun, hroot, hperm⟩ := h.rootOk.perm_unregReleasing (toOid ids)
  have hall : InUse m.env (released ++ (root'.leaves.map Prod.snd ++ left)) := by
    refine hrefs.perm ((hperm.append_right left).trans ?_)
    rw [← List.append_assoc]
    exact List.perm_append_comm.append_right left
  obtain ⟨env', hunref, hrefs', hget⟩ := luaLUnrefAll_ok hall
  have hleaf := h.rootOk.mem_leaves_unregReleasing hrun
  rw [smartsnmpMibNodeUnreg, hrun]
  simp only [hunref]
  refine ⟨_, rfl, hroot, ⟨left, hleft, hrefs'⟩, ?_, ?_⟩
  · intro p cb hmem
    obtain ⟨hold, hnot⟩ := (hleaf p cb).mp hmem
    have hin : cb ∈ root'.leaves.map Prod.snd ++ left :=
      List.mem_append_left left (List.mem_map.mpr ⟨(p, cb), hmem, rfl⟩)
    simp only [directoryAfter, if_neg hnot]
    rw [hget cb hin]
    exact h.get p cb hold
  · intro p hp
    simp only [directoryAfter]
    split_ifs with hun
    · rfl
    · exact h.unbound p fun cb hmem => hp cb ((hleaf p cb).mpr ⟨hmem, hun⟩)

/-- A call returns, and the references are those of what it returned. -/
lemma LuaMib.Holds.apply (call : NodeCall φ) : ∃ m' result,
    call.apply m = .ok (m', result) ∧
    m'.Holds (directoryAfter bound (call, result)) (lost + if failed (call, result) then 1 else 0) := by
  cases call with
  | reg ids handler =>
    cases handler with
    | none => exact ⟨m, _, rfl, h⟩
    | some f =>
      obtain ⟨m', code, hrun, hm'⟩ := h.reg ids f
      refine ⟨m', .ok code, hrun, ?_⟩
      by_cases hcode : code = 0 <;> simpa [failed, hcode] using hm'
  | unreg ids =>
    obtain ⟨m', hrun, hm'⟩ := h.unreg ids
    exact ⟨m', .ok 0, hrun, hm'⟩

lemma LuaMib.Holds.calls (calls : List (NodeCall φ)) : ∃ m' history,
    nodeCalls m calls = .ok (m', history) ∧ history.map Prod.fst = calls ∧
    m'.Holds (history.foldl directoryAfter bound) (lost + history.countP failed) := by
  induction calls generalizing m bound lost with
  | nil => exact ⟨m, [], rfl, rfl, h⟩
  | cons call calls ih =>
    obtain ⟨m₁, result, hcall, hm₁⟩ := h.apply call
    obtain ⟨m', history, hrun, hcalls, hm'⟩ := ih hm₁
    refine ⟨m', (call, result) :: history, ?_, by rw [List.map_cons, hcalls], ?_⟩
    · rw [nodeCalls, hcall]
      simp only [hrun]
      rfl
    · rwa [List.foldl_cons, List.countP_cons, Nat.add_comm (List.countP _ _), ← Nat.add_assoc]

end Steps

/-! ### Programs -/

/-- The calls of any program on the nodes return: no reference is released that is not in use. Each
callback of the tree is a reference in use to the handler that was last registered for its OID, and the
references in use are these, each once, and one for each registration that failed. -/
theorem nodeCalls_references (calls : List (NodeCall φ)) : ∃ (m : LuaMib τ) (history : _),
    nodeCalls LuaMib.init calls = .ok (m, history) ∧ history.map Prod.fst = calls ∧
    m.Holds (directory history) (history.countP failed) := by
  obtain ⟨m, history, hrun, hcalls, hm⟩ := (holds_init (τ := τ)).calls calls
  refine ⟨m, history, hrun, hcalls, ?_⟩
  rwa [Nat.zero_add] at hm

end Directory

/-! ### The table of Lua 5.1 -/

/-- A table with a list of its free references, the last one first. The references up to a number are in
use or free. -/
structure FreeList (φ : Type) where
  env : AList fun _ : Int => φ
  free : List Int
  whole : (env.keys ++ free).Perm
    ((List.range (env.keys.length + free.length)).map fun i : Nat => (i : Int) + 1)

namespace FreeList

variable {φ : Type}

lemma nodup (t : FreeList φ) : (t.env.keys ++ t.free).Nodup := by
  refine t.whole.nodup_iff.mpr (List.nodup_range.map fun i j h => ?_)
  simpa using h

lemma keys_insert_new {env : AList fun _ : Int => φ} {ref : Int} (h : ref ∉ env.keys) (f : φ) :
    (env.insert ref f).keys = ref :: env.keys := by
  rw [AList.keys_insert, List.erase_of_not_mem h]

/-- The first free reference, which is taken off the list. -/
def reuse (env : AList fun _ : Int => φ) (ref : Int) (free : List Int)
    (whole : (env.keys ++ ref :: free).Perm
      ((List.range (env.keys.length + (ref :: free).length)).map fun i : Nat => (i : Int) + 1)) (f : φ) :
    FreeList φ where
  env := env.insert ref f
  free := free
  whole := by
    have hnew : ref ∉ env.keys := fun hmem =>
      (List.nodup_append.mp (nodup ⟨env, ref :: free, whole⟩)).2.2 ref hmem ref List.mem_cons_self rfl
    rw [keys_insert_new hnew, List.length_cons, Nat.add_right_comm]
    exact List.perm_middle.symm.trans whole

/-- The number behind those in use, if there is no free one. -/
def extend (env : AList fun _ : Int => φ)
    (whole : (env.keys ++ []).Perm
      ((List.range (env.keys.length + 0)).map fun i : Nat => (i : Int) + 1)) (f : φ) : FreeList φ where
  env := env.insert (env.keys.length + 1) f
  free := []
  whole := by
    rw [List.append_nil, Nat.add_zero] at whole
    have hnew : ((env.keys.length : Int) + 1) ∉ env.keys := by
      rw [whole.mem_iff]
      simp
    rw [keys_insert_new hnew, List.append_nil, List.length_nil, Nat.add_zero, List.length_cons,
      List.range_succ, List.map_append]
    exact (whole.cons _).trans (List.perm_append_singleton _ _).symm

/-- The reference comes to the front of the list of free ones. -/
def release (t : FreeList φ) (ref : Int) (h : ref ∈ t.env.keys) : FreeList φ where
  env := t.env.erase ref
  free := ref :: t.free
  whole := by
    have hpos := List.length_pos_of_mem h
    have hlen : (t.env.keys.erase ref).length + (ref :: t.free).length = t.env.keys.length + t.free.length := by
      rw [List.length_erase_of_mem h, List.length_cons]
      omega
    rw [AList.keys_erase, hlen]
    exact (List.perm_middle.trans ((List.perm_cons_erase h).symm.append_right _)).trans t.whole

/-- `luaL_ref`. -/
def ref : FreeList φ → φ → FreeList φ × Int
  | ⟨env, r :: free, whole⟩, f => (reuse env r free whole f, r)
  | ⟨env, [], whole⟩, f => (extend env whole f, env.keys.length + 1)

/-- The reference is found in the table, and the function is put there. -/
lemma ref_env (t : FreeList φ) (f : φ) :
    (t.ref f).2 ∉ t.env.keys ∧ (t.ref f).1.env = t.env.insert (t.ref f).2 f := by
  obtain ⟨env, free, whole⟩ := t
  cases free with
  | nil =>
    refine ⟨?_, rfl⟩
    have hperm := whole
    rw [List.append_nil, List.length_nil, Nat.add_zero] at hperm
    simp [ref, hperm.mem_iff]
  | cons r free =>
    refine ⟨fun hmem => ?_, rfl⟩
    exact (List.nodup_append.mp (nodup ⟨env, r :: free, whole⟩)).2.2 r hmem r List.mem_cons_self rfl

instance : RefTable (FreeList φ) φ where
  empty := ⟨∅, [], .refl _⟩
  get t r := t.env.lookup r
  ref := ref
  unref t r := if h : r ∈ t.env.keys then t.release r h else t
  get_empty := fun _ => rfl
  ref_new := fun t f => AList.lookup_eq_none.mpr (mt AList.mem_keys.mp (t.ref_env f).1)
  get_ref_self := fun t f => by rw [(t.ref_env f).2, AList.lookup_insert]
  get_ref_ne := fun t f r h => by rw [(t.ref_env f).2, AList.lookup_insert_ne h]
  get_unref_self := fun t r h => by
    have hmem : r ∈ t.env.keys := by
      rw [← AList.mem_keys]
      exact not_not.mp (mt AList.lookup_eq_none.mpr h)
    rw [dif_pos hmem]
    exact AList.lookup_erase r t.env
  get_unref_ne := fun t r r' _ hne => by
    split_ifs
    · exact AList.lookup_erase_ne hne
    · rfl

end FreeList

/-! ### A program that registers below a handler -/

/-- A group is registered, then one below it, something that is no function, and the group is removed. -/
def sampleNodeCalls : List (NodeCall String) :=
  [.reg [1, 3, 6] (some "system"), .reg [1, 3, 6, 1] (some "late"), .reg [1, 4] none, .unreg [1, 3, 6],
    .reg [1, 5] (some "interfaces")]

/-- The reference of the group is used again, the one of the failed registration is not. -/
theorem nodeCalls_references_sampleNodeCalls : ∃ (m : LuaMib (FreeList String)) (history : _),
    nodeCalls LuaMib.init sampleNodeCalls = .ok (m, history) ∧
    history.map Prod.fst = sampleNodeCalls ∧ m.root.leaves = [([1, 5], 1)] ∧
    m.Holds (directory history) (history.countP failed) := by
  obtain ⟨m, history, hrun, hcalls, hm⟩ := nodeCalls_references (τ := FreeList String) sampleNodeCalls
  have hleaves : ((nodeCalls (LuaMib.init : LuaMib (FreeList String)) sampleNodeCalls).map
      fun r => r.1.root.leaves) = .ok [([1, 5], 1)] := by
    decide +kernel
  rw [hrun] at hleaves
  exact ⟨m, history, hrun, hcalls, Outcome.ok.inj hleaves, hm⟩

end Lua

end SmartSnmp
