import SmartSnmp.Mib.View.Basic
import SmartSnmp.Mib.View.ListHead

/-!
# The records of the views

`core/mib_view.c` with its records and their intrusive lists. A view is a record that may be bound to
many communities and users, and a binding is in two lists: that of its view and that of its community
or user. A function returns `none` if it follows a null pointer or a pointer to a record that is not
there.
-/

namespace SmartSnmp

open Links

abbrev Addr := Nat

/-- The members of the records that are a `struct list_head`. -/
inductive ViewNode where
  /-- `communities` and `users` of a view. -/
  | members (holder : Holder) (v : Addr)
  /-- `ro_views` and `rw_views` of a community or a user. -/
  | views (holder : Holder) (attr : MibAcesAttr) (c : Addr)
  | vlink (holder : Holder) (b : Addr)
  /-- `clink` and `ulink`. -/
  | link (holder : Holder) (b : Addr)
  deriving DecidableEq

/-- `struct community_view` and `struct user_view`, without their links. -/
structure ViewBinding where
  view : Addr
  holder : Addr
  deriving DecidableEq

/-- The records that are allocated, how many have been so far, and the lists that start in static
variables. -/
structure ViewHeap where
  mallocs : Nat
  live : List Addr
  links : Links ViewNode
  oid : Addr → Option Oid
  name : Holder × Addr → Option (List UInt8)
  binding : Holder × Addr → Option ViewBinding
  mibViews : List Addr
  holders : Holder → List Addr

namespace ViewHeap

/-- Before any registration. -/
def empty : ViewHeap :=
  ⟨0, [], fun _ => none, fun _ => none, fun _ => none, fun _ => none, [], fun _ => []⟩

/-! ### Records -/

/-- A node of a record that has just been allocated. -/
def rawNode (L : Links ViewNode) (n : ViewNode) : Links ViewNode := L.alloc n ⟨none, none⟩

/-- `list_entry` for the list of a community or a user. -/
def linkEntry (holder : Holder) : ViewNode → Option Addr
  | .link h b => if h = holder then some b else none
  | _ => none

/-- The OID of the view of a binding that is found through its link. -/
def entryOid (H : ViewHeap) (holder : Holder) (curr : ViewNode) : Option Oid := do
  let b ← linkEntry holder curr
  let cv ← H.binding (holder, b)
  H.oid cv.view

def freeBinding (H : ViewHeap) (holder : Holder) (b : Addr) : ViewHeap := { H with
  live := H.live.erase b
  links := (H.links.free (.link holder b)).free (.vlink holder b)
  binding := Function.update H.binding (holder, b) none }

def freeHolder (H : ViewHeap) (holder : Holder) (c : Addr) : ViewHeap := { H with
  live := H.live.erase c
  links := (H.links.free (.views holder .read c)).free (.views holder .write c)
  name := Function.update H.name (holder, c) none }

/-- `mib_view_search`. -/
def mibViewSearch (H : ViewHeap) (oid : Oid) : List Addr → Option (Option Addr)
  | [] => some none
  | v :: views => do
    let o ← H.oid v
    if oidCmp o oid = 0 then some (some v) else H.mibViewSearch oid views

/-- `mib_community_search` and `mib_user_search`. -/
def holderSearch (H : ViewHeap) (holder : Holder) (name : List UInt8) :
    List Addr → Option (Option Addr)
  | [] => some none
  | c :: holders => do
    let n ← H.name (holder, c)
    if n = name then some (some c) else H.holderSearch holder name holders

/- Where `malloc` finds memory may depend on all that was allocated and freed before: it is given which
allocation of the run this is. -/
variable (malloc : Nat → List Addr → Addr)

def viewCreate (H : ViewHeap) (oid : Oid) : Option (Addr × ViewHeap) := do
  match ← H.mibViewSearch oid H.mibViews with
  | some v => some (v, H)
  | none =>
    let v := malloc H.mallocs H.live
    let links := rawNode (rawNode H.links (.members .community v)) (.members .user v)
    let links ← initListHead links (.members .community v)
    let links ← initListHead links (.members .user v)
    some (v, { H with
      mallocs := H.mallocs + 1
      live := v :: H.live
      links
      oid := Function.update H.oid v (some oid)
      mibViews := v :: H.mibViews })

/-- `community_create` and `user_create`. -/
def holderCreate (H : ViewHeap) (holder : Holder) (name : List UInt8) : Option (Addr × ViewHeap) := do
  match ← H.holderSearch holder name (H.holders holder) with
  | some c => some (c, H)
  | none =>
    let c := malloc H.mallocs H.live
    let links := rawNode (rawNode H.links (.views holder .read c)) (.views holder .write c)
    let links ← initListHead links (.views holder .read c)
    let links ← initListHead links (.views holder .write c)
    some (c, { H with
      mallocs := H.mallocs + 1
      live := c :: H.live
      links
      name := Function.update H.name (holder, c) (some name)
      holders := Function.update H.holders holder (c :: H.holders holder) })

/-! ### Bindings -/

/-- The loop of `community_view_filter` and `user_view_filter`. -/
def viewFilterLoop (holder : Holder) (oid : Oid) (views : ViewNode) :
    Nat → ViewNode → ViewNode → ViewHeap → Option (Bool × ViewHeap)
  | 0, _, _, _ => none
  | fuel + 1, curr, next, H =>
    if curr = views then some (false, H)
    else do
      let cover := oidCover (← H.entryOid holder curr) oid
      if 0 < cover then some (true, H)
      else if cover < 0 then
        let b ← linkEntry holder curr
        let links ← listDel H.links (.link holder b)
        let links ← listDel links (.vlink holder b)
        let H := freeBinding { H with links } holder b
        viewFilterLoop holder oid views fuel next (← H.links.nextOf next) H
      else viewFilterLoop holder oid views fuel next (← H.links.nextOf next) H

def viewFilter (H : ViewHeap) (holder : Holder) (oid : Oid) (views : ViewNode) :
    Option (Bool × ViewHeap) := do
  let curr ← H.links.nextOf views
  let next ← H.links.nextOf curr
  viewFilterLoop holder oid views (H.live.length + 1) curr next H

/-- The loop of `community_view_add` and `user_view_add`, with the list of the view for a new node. -/
def viewAddLoop (H : ViewHeap) (holder : Holder) (oid : Oid) (views new : ViewNode) :
    Nat → ViewNode → Option (Links ViewNode)
  | 0, _ => none
  | fuel + 1, curr =>
    if curr = views then listAddTail H.links new views
    else do
      if 0 < oidCmp (← H.entryOid holder curr) oid then listAddTail H.links new curr
      else viewAddLoop H holder oid views new fuel (← H.links.nextOf curr)

/-- `community_view_add` and `user_view_add`. -/
def viewAdd (H : ViewHeap) (holder : Holder) (oid : Oid) (c v : Addr) (views : ViewNode) :
    Option ViewHeap := do
  let b := malloc H.mallocs H.live
  let links := rawNode (rawNode H.links (.vlink holder b)) (.link holder b)
  let links ← initListHead links (.vlink holder b)
  let links ← initListHead links (.link holder b)
  let links ← listAdd links (.vlink holder b) (.members holder v)
  let H : ViewHeap := { H with
    mallocs := H.mallocs + 1
    live := b :: H.live
    links
    binding := Function.update H.binding (holder, b) (some ⟨v, c⟩) }
  let curr ← H.links.nextOf views
  let links ← viewAddLoop H holder oid views (.link holder b) (H.live.length + 1) curr
  some { H with links }

/-- The loop of `community_view_remove` and `user_view_remove`. -/
def viewRemoveLoop (holder : Holder) (views : ViewNode) :
    Nat → ViewNode → ViewNode → ViewHeap → Option ViewHeap
  | 0, _, _, _ => none
  | fuel + 1, curr, next, H =>
    if curr = views then some H
    else do
      let b ← linkEntry holder curr
      let links ← listDel H.links (.vlink holder b)
      let links ← listDel links (.link holder b)
      let H := freeBinding { H with links } holder b
      viewRemoveLoop holder views fuel next (← H.links.nextOf next) H

def viewRemove (H : ViewHeap) (holder : Holder) (views : ViewNode) : Option ViewHeap := do
  let curr ← H.links.nextOf views
  let next ← H.links.nextOf curr
  viewRemoveLoop holder views (H.live.length + 1) curr next H

/-- `community_view_bind` and `user_view_bind`. -/
def viewBind (H : ViewHeap) (holder : Holder) (oid : Oid) (c : Addr) (attr : MibAcesAttr) :
    Option ViewHeap := do
  let (filtered, H) ← H.viewFilter holder oid (.views holder attr c)
  if filtered then some H
  else do
    let (v, H) ← H.viewCreate malloc oid
    H.viewAdd malloc holder oid c v (.views holder attr c)

/-! ### Calls -/

/-- `mib_community_reg` and `mib_user_reg`. -/
def reg (H : ViewHeap) (holder : Holder) (oid : Oid) (name : List UInt8) (attr : MibAcesAttr) :
    Option ViewHeap := do
  let (c, H) ← H.holderCreate malloc holder name
  let H ← if attr = .write then H.viewBind malloc holder oid c .write else some H
  H.viewBind malloc holder oid c .read

/-- The removals of `mib_community_unreg` and `mib_user_unreg`, and whether both lists are empty. -/
def unregViews (H : ViewHeap) (holder : Holder) (attr : MibAcesAttr) (c : Addr) :
    Option (Bool × ViewHeap) := do
  let H ← if attr = .read then H.viewRemove holder (.views holder .read c) else some H
  let H ← H.viewRemove holder (.views holder .write c)
  let roEmpty ← listEmpty H.links (.views holder .read c)
  let rwEmpty ← listEmpty H.links (.views holder .write c)
  some (roEmpty && rwEmpty, H)

/-- The loop of `mib_community_unreg` and `mib_user_unreg`; `rest` is the list from `*cc` on. -/
def unregLoop (holder : Holder) (name : List UInt8) (attr : MibAcesAttr) :
    Nat → List Addr → ViewHeap → Outcome ViewHeap
  | 0, _, _ => .fuel
  | _ + 1, [], H => .ok H
  | fuel + 1, c :: rest, H =>
    match H.name (holder, c) with
    | none => .crash
    | some n =>
      if n = name then
        match H.unregViews holder attr c with
        | none => .crash
        | some (true, H) =>
          let H := { H with
            holders := Function.update H.holders holder ((H.holders holder).erase c) }
          unregLoop holder name attr fuel rest (H.freeHolder holder c)
        | some (false, H) => unregLoop holder name attr fuel (c :: rest) H
      else unregLoop holder name attr fuel rest H

/-- `mib_community_unreg` and `mib_user_unreg`. -/
def unreg (H : ViewHeap) (holder : Holder) (name : List UInt8) (attr : MibAcesAttr) (fuel : Nat) :
    Outcome ViewHeap :=
  unregLoop holder name attr fuel (H.holders holder) H

/-- The loop of `mib_community_view_cover` and `mib_user_view_cover`. -/
def viewCoverLoop (H : ViewHeap) (holder : Holder) (oid : Oid) (views : ViewNode) :
    Nat → ViewNode → Option Bool
  | 0, _ => none
  | fuel + 1, pos =>
    if pos = views then some false
    else do
      if 0 < oidCover (← H.entryOid holder pos) oid then some true
      else viewCoverLoop H holder oid views fuel (← H.links.nextOf pos)

/-- `mib_community_view_cover` and `mib_user_view_cover`. -/
def viewCover (H : ViewHeap) (holder : Holder) (attr : MibAcesAttr) (oid : Oid) :
    Option Addr → Option Bool
  | none => some false
  | some c => do
    let pos ← H.links.nextOf (.views holder attr c)
    viewCoverLoop H holder oid (.views holder attr c) (H.live.length + 1) pos

/-- The view of a binding that is found through its link. -/
def entryView (H : ViewHeap) (holder : Holder) (pos : ViewNode) : Option Addr := do
  let b ← linkEntry holder pos
  let cv ← H.binding (holder, b)
  some cv.view

/-- The loop of `mib_community_next_view` and `mib_user_next_view`. -/
def nextViewLoop (H : ViewHeap) (holder : Holder) (views : ViewNode) (v : Option Addr) :
    Nat → ViewNode → Option (Option Addr)
  | 0, _ => none
  | fuel + 1, pos =>
    if pos = views then some none
    else do
      let cv ← H.entryView holder pos
      match v with
      | none =>
        let first ← H.links.nextOf views
        (H.entryView holder first).map some
      | some v =>
        if v = cv then
          if ← listIsLast H.links pos views then
            nextViewLoop H holder views (some v) fuel (← H.links.nextOf pos)
          else
            let next ← H.links.nextOf pos
            (H.entryView holder next).map some
        else nextViewLoop H holder views (some v) fuel (← H.links.nextOf pos)

/-- `mib_community_next_view` and `mib_user_next_view`. -/
def nextView (H : ViewHeap) (holder : Holder) (attr : MibAcesAttr) (v : Option Addr) :
    Option Addr → Option (Option Addr)
  | none => some none
  | some c => do
    let pos ← H.links.nextOf (.views holder attr c)
    nextViewLoop H holder (.views holder attr c) v (H.live.length + 1) pos

/-! ### Runs -/

/-- A call that changes the view lists. -/
def call (fuel : Nat) (op : ViewOp) (H : ViewHeap) : Outcome ViewHeap :=
  match op with
  | .reg holder oid name attr =>
    match H.reg malloc holder oid name attr with
    | some H => .ok H
    | none => .crash
  | .unreg holder name attr => H.unreg holder name attr fuel

/-- The calls, the last one first, from the start of the program. -/
def run (fuel : Nat) : List ViewOp → Outcome ViewHeap
  | [] => .ok .empty
  | op :: ops =>
    match run fuel ops with
    | .ok H => H.call malloc fuel op
    | .crash => .crash
    | .fuel => .fuel

end ViewHeap

end SmartSnmp
