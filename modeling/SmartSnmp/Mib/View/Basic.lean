import SmartSnmp.Lib.Traced
import SmartSnmp.Mib.Oid

/-!
# Views, communities and users

`core/mib_view.c`. A community and a user are the same record with two lists of views, and each
function for communities has a twin for users; both are given as one definition applied to its own
list. A view is created once for an OID and never deleted, so a pointer to a view is its OID.
-/

namespace SmartSnmp

/-- `MIB_ACES_ATTR_E`. -/
inductive MibAcesAttr where
  | read
  | write
  deriving DecidableEq

/-- `struct mib_community` and `struct mib_user`: the name and the OIDs of the views, in the order
of the `clink` or `ulink` list. -/
structure ViewEntry where
  name : List UInt8
  roViews : List Oid
  rwViews : List Oid
  deriving DecidableEq

def ViewEntry.views (e : ViewEntry) : MibAcesAttr → List Oid
  | .read => e.roViews
  | .write => e.rwViews

def ViewEntry.setViews (e : ViewEntry) (views : List Oid) : MibAcesAttr → ViewEntry
  | .read => { e with roViews := views }
  | .write => { e with rwViews := views }

/-! ### Views -/

/-- `mib_view_search` and `view_create`: the list of all views with one for the OID. -/
def viewCreate (oid : Oid) (mibViews : List Oid) : List Oid :=
  if mibViews.any fun v => oidCmp v oid = 0 then mibViews else oid :: mibViews

/-! ### One definition for communities and users -/

/-- `community_view_filter` and `user_view_filter`: whether a view covers the OID, and the list
without the views it covers that were met before. -/
def viewFilter (oid : Oid) : List Oid → Bool × List Oid
  | [] => (false, [])
  | v :: views =>
    let cover := oidCover v oid
    if 0 < cover then (true, v :: views)
    else
      let (filtered, views) := viewFilter oid views
      if cover < 0 then (filtered, views) else (filtered, v :: views)

/-- `community_view_add` and `user_view_add`: insert before the first greater view. -/
def viewAdd (oid : Oid) : List Oid → List Oid
  | [] => [oid]
  | v :: views => if 0 < oidCmp v oid then oid :: v :: views else v :: viewAdd oid views

/-- `community_view_bind` and `user_view_bind`. -/
def viewBind (oid : Oid) (attr : MibAcesAttr) (mibViews : List Oid) (e : ViewEntry) :
    List Oid × ViewEntry :=
  let (filtered, views) := viewFilter oid (e.views attr)
  if filtered then (mibViews, e.setViews views attr)
  else (viewCreate oid mibViews, e.setViews (viewAdd oid views) attr)

/-- `mib_community_search` and `mib_user_search`. -/
def entrySearch (name : List UInt8) (entries : List ViewEntry) : Option ViewEntry :=
  entries.find? fun e => e.name = name

/-- `community_create` and `user_create`. -/
def entryCreate (name : List UInt8) (entries : List ViewEntry) : List ViewEntry :=
  match entrySearch name entries with
  | some _ => entries
  | none => ⟨name, [], []⟩ :: entries

/-- Apply what is written through the pointer to the entry of a name. -/
def entryUpdate (name : List UInt8) (f : ViewEntry → ViewEntry) : List ViewEntry → List ViewEntry
  | [] => []
  | e :: entries => if e.name = name then f e :: entries else e :: entryUpdate name f entries

/-- The bindings of a registration: for write, then for read. -/
def entryBind (oid : Oid) (attr : MibAcesAttr) (mibViews : List Oid) (e : ViewEntry) :
    List Oid × ViewEntry :=
  let (mibViews, e) :=
    if attr = .write then viewBind oid .write mibViews e else (mibViews, e)
  viewBind oid .read mibViews e

/-- `mib_community_reg` and `mib_user_reg`: all views and the entries afterwards. -/
def entryReg (oid : Oid) (name : List UInt8) (attr : MibAcesAttr) (mibViews : List Oid)
    (entries : List ViewEntry) : List Oid × List ViewEntry :=
  let entries := entryCreate name entries
  match entrySearch name entries with
  | some e =>
    let (mibViews, e') := entryBind oid attr mibViews e
    (mibViews, entryUpdate name (fun _ => e') entries)
  | none => (mibViews, entries)

/-- What `community_view_remove` and `user_view_remove` leave of an entry that is unregistered. -/
def ViewEntry.clear (attr : MibAcesAttr) (e : ViewEntry) : ViewEntry :=
  ⟨e.name, if attr = .read then [] else e.roViews, []⟩

/-- The loop of `mib_community_unreg` and `mib_user_unreg`. It stays at an entry of the name until
both of its lists are empty. -/
def entryUnregLoop (name : List UInt8) (attr : MibAcesAttr) :
    Nat → List ViewEntry → Outcome (List ViewEntry)
  | 0, _ => .fuel
  | _ + 1, [] => .ok []
  | fuel + 1, e :: entries =>
    if e.name = name then
      let e := e.clear attr
      if e.roViews = [] ∧ e.rwViews = [] then entryUnregLoop name attr fuel entries
      else entryUnregLoop name attr fuel (e :: entries)
    else
      match entryUnregLoop name attr fuel entries with
      | .ok entries => .ok (e :: entries)
      | .crash => .crash
      | .fuel => .fuel

/-- `mib_community_view_cover` and `mib_user_view_cover`. -/
def entryViewCover (e : Option ViewEntry) (attr : MibAcesAttr) (oid : Oid) : Bool :=
  match e with
  | some e => (e.views attr).any fun v => 0 < oidCover v oid
  | none => false

/-- The view after `v` in a list. -/
def viewAfter (v : Oid) : List Oid → Option Oid
  | a :: b :: views => if a = v then some b else viewAfter v (b :: views)
  | _ => none

/-- `mib_community_next_view` and `mib_user_next_view`. -/
def entryNextView (e : Option ViewEntry) (attr : MibAcesAttr) (v : Option Oid) : Option Oid :=
  match e, v with
  | none, _ => none
  | some e, none => (e.views attr).head?
  | some e, some v => viewAfter v (e.views attr)

/-! ### Communities and users -/

/-- The static lists of `mib_view.c`. -/
structure MibViews where
  mibViews : List Oid
  mibCommunities : List ViewEntry
  mibUsers : List ViewEntry
  deriving DecidableEq

/-- Before any registration. -/
def MibViews.empty : MibViews := ⟨[], [], []⟩

def mibCommunityReg (s : MibViews) (oid : Oid) (community : List UInt8) (attr : MibAcesAttr) :
    MibViews :=
  let (mibViews, communities) := entryReg oid community attr s.mibViews s.mibCommunities
  { s with mibViews := mibViews, mibCommunities := communities }

def mibUserReg (s : MibViews) (oid : Oid) (user : List UInt8) (attr : MibAcesAttr) : MibViews :=
  let (mibViews, users) := entryReg oid user attr s.mibViews s.mibUsers
  { s with mibViews := mibViews, mibUsers := users }

def mibCommunityUnreg (s : MibViews) (community : List UInt8) (attr : MibAcesAttr)
    (fuel : Nat) : Outcome MibViews :=
  match entryUnregLoop community attr fuel s.mibCommunities with
  | .ok communities => .ok { s with mibCommunities := communities }
  | .crash => .crash
  | .fuel => .fuel

def mibUserUnreg (s : MibViews) (user : List UInt8) (attr : MibAcesAttr) (fuel : Nat) :
    Outcome MibViews :=
  match entryUnregLoop user attr fuel s.mibUsers with
  | .ok users => .ok { s with mibUsers := users }
  | .crash => .crash
  | .fuel => .fuel

def mibCommunitySearch (s : MibViews) (community : List UInt8) : Option ViewEntry :=
  entrySearch community s.mibCommunities

def mibUserSearch (s : MibViews) (user : List UInt8) : Option ViewEntry :=
  entrySearch user s.mibUsers

def mibCommunityViewCover : Option ViewEntry → MibAcesAttr → Oid → Bool := entryViewCover

def mibUserViewCover : Option ViewEntry → MibAcesAttr → Oid → Bool := entryViewCover

def mibCommunityNextView : Option ViewEntry → MibAcesAttr → Option Oid → Option Oid := entryNextView

def mibUserNextView : Option ViewEntry → MibAcesAttr → Option Oid → Option Oid := entryNextView

/-! ### Runs -/

/-- Which of the two lists a call is about. -/
inductive Holder where
  | community
  | user
  deriving DecidableEq

/-- A call that changes the view lists. -/
inductive ViewOp where
  | reg (holder : Holder) (oid : Oid) (name : List UInt8) (attr : MibAcesAttr)
  | unreg (holder : Holder) (name : List UInt8) (attr : MibAcesAttr)

/-- A call and the state it returns with; an unregistration may not return. -/
inductive ViewStep : MibViews → ViewOp → MibViews → Prop where
  | communityReg (s : MibViews) (oid : Oid) (name : List UInt8) (attr : MibAcesAttr) :
      ViewStep s (.reg .community oid name attr) (mibCommunityReg s oid name attr)
  | userReg (s : MibViews) (oid : Oid) (name : List UInt8) (attr : MibAcesAttr) :
      ViewStep s (.reg .user oid name attr) (mibUserReg s oid name attr)
  | communityUnreg {s s' : MibViews} {name : List UInt8} {attr : MibAcesAttr} {fuel : Nat}
      (h : mibCommunityUnreg s name attr fuel = .ok s') :
      ViewStep s (.unreg .community name attr) s'
  | userUnreg {s s' : MibViews} {name : List UInt8} {attr : MibAcesAttr} {fuel : Nat}
      (h : mibUserUnreg s name attr fuel = .ok s') :
      ViewStep s (.unreg .user name attr) s'

/-- A sequence of returning calls, the last one first. -/
inductive ViewRun : List ViewOp → MibViews → Prop where
  | nil : ViewRun [] .empty
  | snoc {ops : List ViewOp} {s s' : MibViews} {op : ViewOp} (h : ViewRun ops s)
      (hop : ViewStep s op s') : ViewRun (op :: ops) s'

/-- The entries of communities or of users. -/
def MibViews.entries (s : MibViews) : Holder → List ViewEntry
  | .community => s.mibCommunities
  | .user => s.mibUsers

end SmartSnmp
