import Mathlib.Tactic.Common
import Mathlib.Logic.Function.Basic

/-!
# The event loop

`core/ev_loop.c` with the select backend of `core/ev_select.h`. The loop has a table of slots, one
for each file descriptor. The callbacks are the names of a type `κ`; what a callback does to the
loop and to the data of its transport is a parameter of `snmpEventPoll`. The user data that is
registered with a callback is not modelled: each handler is registered with one value.
-/

namespace SmartSnmp

/-- `SNMP_EV_READ` and `SNMP_EV_WRITE`. -/
inductive EvFlag where
  | read
  | write
  deriving DecidableEq

/-- `struct snmp_event`; the bits of its flag are two fields. -/
structure Event (κ : Type) where
  fd : Int
  rcb : Option κ
  wcb : Option κ
  flagRead : Bool
  flagWrite : Bool
  read : Bool
  write : Bool
  deriving DecidableEq

/-- `struct snmp_event_loop`, with the sets of descriptors of the select backend. -/
structure EventLoop (κ : Type) where
  start : Bool
  maxFd : Int
  event : List (Event κ)
  rfds : Int → Bool
  wfds : Int → Bool

abbrev snmpMaxEvents : Nat := 5

variable {κ τ : Type}

namespace Event

/-- A slot before any use. -/
def free : Event κ := ⟨-1, none, none, false, false, false, false⟩

/-- What `snmp_event_init` and `snmp_event_done` do to a slot. -/
def reset (ev : Event κ) : Event κ :=
  { ev with fd := -1, flagRead := false, flagWrite := false, read := false, write := false }

/-- `event->flag |= flag` with the callback for it. -/
def register (ev : Event κ) (flag : EvFlag) (cb : κ) : Event κ :=
  match flag with
  | .read => { ev with flagRead := true, rcb := some cb }
  | .write => { ev with flagWrite := true, wcb := some cb }

/-- `event->flag &= ~flag`; a slot without interests is given back. -/
def unregister (ev : Event κ) (flag : EvFlag) : Event κ :=
  let ev := match flag with
    | .read => { ev with flagRead := false, read := false }
    | .write => { ev with flagWrite := false, write := false }
  if ev.flagRead || ev.flagWrite then ev else { ev with fd := -1 }

/-- The callback to be called for a read. -/
def readCb (ev : Event κ) : Option κ := if ev.read then ev.rcb else none

/-- The callback to be called for a write. -/
def writeCb (ev : Event κ) : Option κ := if ev.write then ev.wcb else none

end Event

/-! ### Interests -/

/-- `__ev_add`. -/
def EventLoop.evAdd (loop : EventLoop κ) (fd : Int) : EvFlag → EventLoop κ
  | .read => { loop with rfds := Function.update loop.rfds fd true }
  | .write => { loop with wfds := Function.update loop.wfds fd true }

/-- `__ev_remove`. -/
def EventLoop.evRemove (loop : EventLoop κ) (fd : Int) : EvFlag → EventLoop κ
  | .read => { loop with rfds := Function.update loop.rfds fd false }
  | .write => { loop with wfds := Function.update loop.wfds fd false }

/-- The loop before any use, as static memory is. -/
def EventLoop.zero : EventLoop κ where
  start := false
  maxFd := 0
  event := List.replicate snmpMaxEvents { Event.free with fd := 0 }
  rfds := fun _ => false
  wfds := fun _ => false

def snmpEventInit (loop : EventLoop κ) : EventLoop κ where
  start := true
  maxFd := -1
  event := loop.event.map Event.reset
  rfds := fun _ => false
  wfds := fun _ => false

def snmpEventDone (loop : EventLoop κ) : EventLoop κ :=
  { loop with start := false, maxFd := -1, event := loop.event.map Event.reset }

/-- The loop of `snmp_event_add`: the first slot that has the descriptor or is free. The flag says
that the slot was free. -/
def addSlot (fd : Int) (flag : EvFlag) (cb : κ) : List (Event κ) → Option (List (Event κ) × Bool)
  | [] => none
  | ev :: evs =>
    if ev.fd = fd then some (ev.register flag cb :: evs, false)
    else if ev.fd = -1 then
      some ({ ev with fd := fd, flagRead := false, flagWrite := false }.register flag cb :: evs, true)
    else (addSlot fd flag cb evs).map fun (evs, new) => (ev :: evs, new)

/-- `snmp_event_add`; without a slot it changes nothing. -/
def snmpEventAdd (loop : EventLoop κ) (fd : Int) (flag : EvFlag) (cb : κ) : EventLoop κ :=
  match addSlot fd flag cb loop.event with
  | none => loop
  | some (event, new) =>
    { loop.evAdd fd flag with
      event := event
      maxFd := if new then max loop.maxFd fd else loop.maxFd }

/-- `snmp_event_remove`. -/
def snmpEventRemove (loop : EventLoop κ) (fd : Int) (flag : EvFlag) : EventLoop κ :=
  let maxFd := if fd = loop.maxFd then -1 else loop.maxFd
  let loop' := if loop.event.any (·.fd = fd) then loop.evRemove fd flag else loop
  { loop' with
    maxFd := max maxFd fd
    event := loop.event.map fun ev => if ev.fd = fd then ev.unregister flag else ev }

/-! ### Polling -/

/-- What select finds ready; it reports those of the registered interests. -/
structure Ready where
  readable : Int → Bool
  writable : Int → Bool

/-- What `__ev_poll` does to a slot. -/
def Event.mark (ev : Event κ) (loop : EventLoop κ) (ready : Ready) : Event κ :=
  { ev with
    read := ev.read || ev.flagRead && loop.rfds ev.fd && ev.fd ≤ loop.maxFd && ready.readable ev.fd
    write := ev.write ||
      ev.flagWrite && loop.wfds ev.fd && ev.fd ≤ loop.maxFd && ready.writable ev.fd }

/-- `__ev_poll`. -/
def evPoll (ready : Ready) (loop : EventLoop κ) : EventLoop κ :=
  { loop with event := loop.event.map fun ev => ev.mark loop ready }

/-- The loop and the data of the transport that runs on it. -/
structure EvWorld (κ τ : Type) where
  loop : EventLoop κ
  data : τ

def EvWorld.slot (w : EvWorld κ τ) (i : Nat) : Event κ := w.loop.event.getD i .free

def EvWorld.modifySlot (w : EvWorld κ τ) (i : Nat) (f : Event κ → Event κ) : EvWorld κ τ :=
  { w with loop := { w.loop with event := w.loop.event.modify i f } }

section Poll

variable (call : κ → Int → EvFlag → EvWorld κ τ → Option (EvWorld κ τ))

/-- The callback for a read in the slot, if it is due, and `event->read = 0`. -/
def pollRead (w : EvWorld κ τ) (i : Nat) : Option (EvWorld κ τ) :=
  match (w.slot i).readCb with
  | some cb =>
    (call cb (w.slot i).fd .read w).map fun w => w.modifySlot i fun ev => { ev with read := false }
  | none => some w

/-- The callback for a write in the slot, if it is due, and `event->write = 0`. -/
def pollWrite (w : EvWorld κ τ) (i : Nat) : Option (EvWorld κ τ) :=
  match (w.slot i).writeCb with
  | some cb =>
    (call cb (w.slot i).fd .write w).map fun w => w.modifySlot i fun ev => { ev with write := false }
  | none => some w

/-- An iteration of the loop of `snmp_event_poll`. -/
def pollSlot (w : EvWorld κ τ) (i : Nat) : Option (EvWorld κ τ) :=
  (pollRead call w i).bind fun w => pollWrite call w i

/-- `snmp_event_poll`, with what select finds ready. -/
def snmpEventPoll (ready : Ready) (w : EvWorld κ τ) : Option (EvWorld κ τ) :=
  (List.range snmpMaxEvents).foldlM (pollSlot call) { w with loop := evPoll ready w.loop }

/-- An iteration of `snmp_event_run`: a loop that was stopped is not polled. -/
def snmpEventRunStep (ready : Ready) (w : EvWorld κ τ) : Option (EvWorld κ τ) :=
  if w.loop.start then snmpEventPoll call ready w else some w

end Poll

/-! ### A loop with one descriptor -/

/-- The loop that serves one descriptor from its first slot: it is registered for reads, and for
writes if `pending`; `read` and `write` are the callbacks that are due. -/
def serving (fd : Int) (rcb : κ) (wcb : Option κ) (pending read write : Bool) : EventLoop κ where
  start := true
  maxFd := fd
  event := ⟨fd, some rcb, wcb, true, pending, read, write⟩ :: List.replicate 4 .free
  rfds := fun x => x = fd
  wfds := fun x => x = fd && pending

/-- No callback is due in a slot after the first. -/
def EvWorld.Idle (w : EvWorld κ τ) : Prop :=
  ∀ i, 1 ≤ i → (w.slot i).read = false ∧ (w.slot i).write = false

section Serving

variable {fd : Int} {rcb cb : κ} {wcb : Option κ} {pending read write : Bool} {data : τ}

lemma idle_serving : EvWorld.Idle ⟨serving fd rcb wcb pending read write, data⟩ := by
  intro i hi
  obtain ⟨i, rfl⟩ := Nat.exists_eq_add_of_le' hi
  have hfree : (List.replicate 4 (Event.free : Event κ)).getD i .free = .free := by
    rw [List.getD_eq_getElem?_getD, List.getElem?_replicate]
    split_ifs <;> rfl
  simp only [EvWorld.slot, serving, List.getD_cons_succ, hfree]
  exact ⟨rfl, rfl⟩

/-- A stopped loop has no interest and no callback that is due. -/
structure EventLoop.Stopped (loop : EventLoop κ) : Prop where
  start : loop.start = false
  event : ∀ ev ∈ loop.event, ev.flagWrite = false ∧ ev.read = false ∧ ev.write = false

lemma EventLoop.Stopped.idle {loop : EventLoop κ} (h : loop.Stopped) :
    EvWorld.Idle ⟨loop, data⟩ := by
  intro i _
  simp only [EvWorld.slot, List.getD_eq_getElem?_getD]
  cases hev : loop.event[i]? with
  | none => exact ⟨rfl, rfl⟩
  | some ev => exact (h.event ev (List.mem_of_getElem? hev)).2

/-- A handler that stops the loop and then gives up its interest leaves it stopped. -/
lemma stopped_snmpEventDone (loop : EventLoop κ) (fd : Int) (flag : EvFlag) :
    (snmpEventRemove (snmpEventDone loop) fd flag).Stopped := by
  refine ⟨?_, ?_⟩
  · simp only [snmpEventRemove]
    cases flag <;> split_ifs <;> rfl
  · simp only [snmpEventRemove, snmpEventDone, List.map_map, List.mem_map, Function.comp_apply]
    rintro ev ⟨ev₀, -, rfl⟩
    cases flag <;> simp only [Event.reset, Event.unregister] <;> split_ifs <;> simp

lemma EventLoop.Stopped.modifySlot {loop : EventLoop κ} (h : loop.Stopped) (data : τ) (i : Nat) :
    ((⟨loop, data⟩ : EvWorld κ τ).modifySlot i fun ev => { ev with write := false }).loop.Stopped := by
  refine ⟨h.start, ?_⟩
  intro ev hev
  obtain ⟨j, hj, rfl⟩ := List.getElem_of_mem hev
  simp only [EvWorld.modifySlot] at hj ⊢
  rw [List.getElem_modify]
  rw [List.length_modify] at hj
  have := h.event _ (List.getElem_mem hj)
  split_ifs
  · exact ⟨this.1, this.2.1, rfl⟩
  · exact this

lemma serving_of_init (hfd : 0 ≤ fd) :
    snmpEventAdd (snmpEventInit EventLoop.zero) fd .read rcb =
      serving fd rcb none false false false := by
  have hslot : addSlot fd .read rcb (snmpEventInit EventLoop.zero).event =
      some ((serving fd rcb none false false false).event, true) := by
    have hne : ¬ (-1 : Int) = fd := by omega
    change addSlot fd .read rcb (.free :: List.replicate 4 .free) = _
    simp only [addSlot, Event.free, hne, if_false, if_true]
    rfl
  have hmax : max (-1 : Int) fd = fd := by omega
  rw [snmpEventAdd, hslot]
  simp only [if_true, snmpEventInit, EventLoop.evAdd, hmax, serving]
  congr 1
  · funext x
    simp [Function.update_apply]
  · funext x
    simp

lemma snmpEventAdd_serving :
    snmpEventAdd (serving fd rcb wcb pending read write) fd .write cb =
      serving fd rcb (some cb) true read write := by
  simp only [snmpEventAdd, serving, addSlot, if_true, Event.register, EventLoop.evAdd]
  congr 1
  funext x
  by_cases hx : x = fd
  · simp [hx]
  · simp [hx]

lemma snmpEventRemove_serving (hfd : 0 ≤ fd) :
    snmpEventRemove (serving fd rcb wcb pending read write) fd .write =
      serving fd rcb wcb false read false := by
  have hne : ¬ (-1 : Int) = fd := by omega
  have hmax : max (-1 : Int) fd = fd := by omega
  simp only [snmpEventRemove, serving, if_true, hmax, List.any_cons, decide_true, Bool.true_or,
    EventLoop.evRemove, List.map_cons, Event.unregister, List.map_replicate, Event.free, hne,
    if_false]
  congr 1
  funext x
  by_cases hx : x = fd
  · simp [hx]
  · simp [hx]

lemma evPoll_serving (ready : Ready) :
    evPoll ready (serving fd rcb wcb pending false false) =
      serving fd rcb wcb pending (ready.readable fd) (pending && ready.writable fd) := by
  simp [evPoll, serving, Event.mark, Event.free]

variable (call : κ → Int → EvFlag → EvWorld κ τ → Option (EvWorld κ τ))

lemma pollSlot_of_idle {w : EvWorld κ τ} {i : Nat} (hr : (w.slot i).read = false)
    (hw : (w.slot i).write = false) : pollSlot call w i = some w := by
  have hread : (w.slot i).readCb = none := by simp [Event.readCb, hr]
  have hwrite : (w.slot i).writeCb = none := by simp [Event.writeCb, hw]
  simp [pollSlot, pollRead, pollWrite, hread, hwrite]

/-- Where the first slot leaves the others idle, they do nothing in the poll. -/
lemma snmpEventPoll_eq {ready : Ready} {w : EvWorld κ τ}
    (h : ∀ w', pollSlot call { w with loop := evPoll ready w.loop } 0 = some w' → w'.Idle) :
    snmpEventPoll call ready w = pollSlot call { w with loop := evPoll ready w.loop } 0 := by
  have hrest : ∀ (w' : EvWorld κ τ) (is : List Nat), w'.Idle → (∀ i ∈ is, 1 ≤ i) →
      is.foldlM (pollSlot call) w' = some w' := by
    intro w' is hidle his
    induction is with
    | nil => rfl
    | cons i is ih =>
      obtain ⟨hr, hw⟩ := hidle i (his i (by simp))
      rw [List.foldlM_cons, pollSlot_of_idle call hr hw]
      exact ih fun j hj => his j (by simp [hj])
  rw [snmpEventPoll, show List.range snmpMaxEvents = 0 :: [1, 2, 3, 4] from rfl, List.foldlM_cons]
  cases hslot : pollSlot call { w with loop := evPoll ready w.loop } 0 with
  | none => rfl
  | some w' => exact hrest w' _ (h w' hslot) (by simp)

end Serving

end SmartSnmp
