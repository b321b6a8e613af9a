import SmartSnmp.Lib.Serve
import SmartSnmp.Transport.Udp

/-!
# The UDP transport on epoll

`core/ev_epoll.h` behind `core/ev_loop.c`, with `core/snmp_udp_evloop_transport.c` on it. The two sets
of descriptors of the loop are the interests of the epoll instance: a descriptor is registered with
the kernel if it is in one of them. `__ev_add` replaces the interests of a descriptor that is
registered, so the socket is not read while a response waits.
-/

namespace SmartSnmp

open Run Serve

/-! ### Backends -/

variable {κ τ ε : Type}

/-- What a backend does to the interests: `__ev_add` on the slot, `__ev_remove` and `__ev_done`. -/
structure EvBackend (κ : Type) where
  evAdd : EventLoop κ → Event κ → Int → EvFlag → EventLoop κ
  evRemove : EventLoop κ → Int → EvFlag → EventLoop κ
  evDone : EventLoop κ → EventLoop κ

/-- The backend of `core/ev_select.h`. -/
def selectBackend : EvBackend κ := ⟨fun loop _ => loop.evAdd, EventLoop.evRemove, id⟩

/-- The interests of a descriptor. -/
def EventLoop.setInterest (loop : EventLoop κ) (fd : Int) (readable writable : Bool) : EventLoop κ :=
  { loop with
    rfds := Function.update loop.rfds fd readable
    wfds := Function.update loop.wfds fd writable }

/-- The descriptor is registered with the kernel. -/
def EventLoop.registered (loop : EventLoop κ) (fd : Int) : Bool := loop.rfds fd || loop.wfds fd

/-- `EPOLL_CTL_ADD`, which fails for a descriptor that is registered. -/
def EventLoop.epollCtlAdd (loop : EventLoop κ) (fd : Int) (readable writable : Bool) : EventLoop κ :=
  if loop.registered fd then loop else loop.setInterest fd readable writable

/-- `EPOLL_CTL_MOD`, which fails for a descriptor that is not registered. -/
def EventLoop.epollCtlMod (loop : EventLoop κ) (fd : Int) (readable writable : Bool) : EventLoop κ :=
  if loop.registered fd then loop.setInterest fd readable writable else loop

lemma EventLoop.start_epollCtlMod (loop : EventLoop κ) (fd : Int) (readable writable : Bool) :
    (loop.epollCtlMod fd readable writable).start = loop.start := by
  rw [epollCtlMod]
  split_ifs <;> rfl

/-- The backend of `core/ev_epoll.h`. A flag is one of the two, so `__ev_remove` keeps an interest in
the other and does not come to `EPOLL_CTL_DEL`. -/
def epollBackend : EvBackend κ where
  evAdd loop slot fd flag :=
    if slot.flagRead || slot.flagWrite then loop.epollCtlMod fd (flag = .read) (flag = .write)
    else loop.epollCtlAdd fd (flag = .read) (flag = .write)
  evRemove loop fd flag := loop.epollCtlMod fd (flag ≠ .read) (flag ≠ .write)
  evDone loop := { loop with rfds := fun _ => false, wfds := fun _ => false }

namespace EvBackend

variable (b : EvBackend κ)

/-- `snmp_event_add`. -/
def snmpEventAdd (loop : EventLoop κ) (fd : Int) (flag : EvFlag) (cb : κ) : EventLoop κ :=
  match loop.event.find? (fun ev => ev.fd = fd || ev.fd = -1), addSlot fd flag cb loop.event with
  | some slot, some (event, new) =>
    { b.evAdd loop slot fd flag with
      event := event
      maxFd := if new then max loop.maxFd fd else loop.maxFd }
  | _, _ => loop

/-- `snmp_event_remove`. -/
def snmpEventRemove (loop : EventLoop κ) (fd : Int) (flag : EvFlag) : EventLoop κ :=
  let maxFd := if fd = loop.maxFd then -1 else loop.maxFd
  let loop' := if loop.event.any (·.fd = fd) then b.evRemove loop fd flag else loop
  { loop' with
    maxFd := max maxFd fd
    event := loop.event.map fun ev => if ev.fd = fd then ev.unregister flag else ev }

/-- `snmp_event_done`. -/
def snmpEventDone (loop : EventLoop κ) : EventLoop κ :=
  b.evDone { loop with start := false, maxFd := -1, event := loop.event.map Event.reset }

end EvBackend

section Udp

variable {Addr ρ σ : Type} (b : EvBackend UdpHandler)

/-- `snmp_write_handler`. -/
def EvBackend.snmpWriteHandler (sendOk : Bool) (sock : Int) (flag : EvFlag) (w : UdpWorld Addr ρ σ) :
    Option (UdpWorld Addr ρ σ) :=
  match w.data.entry.clientSin, w.data.entry.buf with
  | some sin, some buf =>
    let loop := if sendOk then w.loop else b.snmpEventDone w.loop
    some {
      loop := b.snmpEventRemove loop sock flag
      data := w.data.afterWrite sin buf }
  | _, _ => none

/-- `transport_send`. -/
def EvBackend.transportSend (buf : ρ) (w : UdpWorld Addr ρ σ) : UdpWorld Addr ρ σ where
  loop := b.snmpEventAdd w.loop w.data.entry.sock .write .snmpWriteHandler
  data := { w.data with entry := { w.data.entry with buf := some buf } }

/-- `snmp_read_handler`. -/
def EvBackend.snmpReadHandler (receive : σ → List UInt8 → Option (Option ρ × σ)) (recvOk : Bool)
    (w : UdpWorld Addr ρ σ) : Option (UdpWorld Addr ρ σ) :=
  match w.data.queue, recvOk with
  | (client, datagram) :: queue, true =>
    (receive w.data.prot (datagram.take transBufSiz)).map fun (response, prot) =>
      let w := { w with data := { w.data with
        queue := queue
        prot := prot
        entry := { w.data.entry with clientSin := some client } } }
      match response with
      | none => w
      | some buf =>
        b.transportSend buf
          { w with data := { w.data with produced := w.data.produced ++ [(client, buf)] } }
  | _, _ => none

def EvBackend.udpCall (receive : σ → List UInt8 → Option (Option ρ × σ)) (recvOk sendOk : Bool) :
    UdpHandler → Int → EvFlag → UdpWorld Addr ρ σ → Option (UdpWorld Addr ρ σ)
  | .snmpReadHandler => fun _ _ => b.snmpReadHandler receive recvOk
  | .snmpWriteHandler => b.snmpWriteHandler sendOk

end Udp

/-! ### The select backend -/

lemma find?_addSlot (fd : Int) (flag : EvFlag) (cb : κ) (evs : List (Event κ)) :
    (evs.find? fun ev => ev.fd = fd || ev.fd = -1).isSome = (addSlot fd flag cb evs).isSome := by
  induction evs with
  | nil => rfl
  | cons ev evs ih =>
    simp only [List.find?_cons, addSlot]
    by_cases hfd : ev.fd = fd
    · simp [hfd]
    · by_cases hfree : ev.fd = -1
      · rw [if_neg hfd, if_pos hfree]
        simp [hfree]
      · simpa [hfd, hfree] using ih

lemma selectBackend_snmpEventAdd : (selectBackend (κ := κ)).snmpEventAdd = snmpEventAdd := by
  funext loop fd flag cb
  have hsome := find?_addSlot fd flag cb loop.event
  rw [EvBackend.snmpEventAdd, SmartSnmp.snmpEventAdd]
  cases hfind : loop.event.find? fun ev => ev.fd = fd || ev.fd = -1 with
  | none =>
    rw [hfind] at hsome
    rw [Option.isSome_eq_false_iff.mp hsome.symm |> Option.isNone_iff_eq_none.mp]
  | some slot =>
    cases addSlot fd flag cb loop.event <;> rfl

lemma selectBackend_transportSend {Addr ρ σ : Type} :
    (selectBackend.transportSend : ρ → UdpWorld Addr ρ σ → UdpWorld Addr ρ σ) = transportSend := by
  funext buf w
  rw [EvBackend.transportSend, selectBackend_snmpEventAdd, transportSend]

/-- On the select backend the handlers are those of the transport. -/
theorem selectBackend_udpCall {Addr ρ σ : Type} (receive : σ → List UInt8 → Option (Option ρ × σ))
    (recvOk sendOk : Bool) (handler : UdpHandler) (fd : Int) (flag : EvFlag) (w : UdpWorld Addr ρ σ) :
    selectBackend.udpCall receive recvOk sendOk handler fd flag w =
      udpCall receive recvOk sendOk handler fd flag w := by
  cases handler with
  | snmpReadHandler =>
    change selectBackend.snmpReadHandler receive recvOk w = snmpReadHandler receive recvOk w
    simp only [EvBackend.snmpReadHandler, selectBackend_transportSend]
    rfl
  | snmpWriteHandler => rfl

/-! ### Polling -/

/-- `struct epoll_event`: whether `EPOLLIN` and `EPOLLOUT` are set. -/
structure EpollEvent where
  fd : Int
  readable : Bool
  writable : Bool
  deriving DecidableEq

/-- The array `env.event`. -/
abbrev EpollEnv := List EpollEvent

/-- An event of static memory. -/
def EpollEvent.zero : EpollEvent := ⟨0, false, false⟩

/-- What epoll finds: the order in which it reports descriptors, those that are ready, and those with
an error or a hangup, which are reported whatever their interests are. -/
structure EpollReady extends Ready where
  fds : List Int
  nodup : fds.Nodup
  hangup : Int → Bool

/-- What epoll reports of a descriptor. -/
def epollReport (loop : EventLoop κ) (ready : EpollReady) (fd : Int) : Option EpollEvent :=
  let ee : EpollEvent :=
    ⟨fd, loop.rfds fd && ready.readable fd, loop.wfds fd && ready.writable fd⟩
  if ee.readable || ee.writable || loop.registered fd && ready.hangup fd then some ee else none

/-- `epoll_wait`; if it is interrupted it reports nothing. -/
def epollWait (loop : EventLoop κ) (ready : EpollReady) : List EpollEvent :=
  (ready.fds.filterMap (epollReport loop ready)).take snmpMaxEvents

/-- What `__ev_poll` does to a slot: the event of the same index, whatever its descriptor is. -/
def Event.markEpoll (ev : Event κ) (ee : EpollEvent) : Event κ :=
  { ev with read := ev.read || ee.readable, write := ev.write || ee.writable }

/-- `__ev_poll`. It looks at the whole array, which the kernel has filled from the front. -/
def evPollEpoll (ready : EpollReady) (w : EvWorld κ (EpollEnv × τ)) : EvWorld κ (EpollEnv × τ) :=
  let events := epollWait w.loop ready
  if events = [] then w
  else
    let env := events ++ w.data.1.drop events.length
    ⟨{ w.loop with event := List.zipWith Event.markEpoll w.loop.event env }, env, w.data.2⟩

/-- A callback, which does not touch the array. -/
def besideEnv (call : κ → Int → EvFlag → EvWorld κ τ → Option (EvWorld κ τ)) (cb : κ) (fd : Int)
    (flag : EvFlag) (w : EvWorld κ (ε × τ)) : Option (EvWorld κ (ε × τ)) :=
  (call cb fd flag ⟨w.loop, w.data.2⟩).map fun w' => ⟨w'.loop, w.data.1, w'.data⟩

/-! ### Steps -/

variable {Addr ρ σ : Type}

/-- The transport on epoll, with the array of the backend. -/
abbrev EpollUdp (Addr ρ σ : Type) := EvWorld UdpHandler (EpollEnv × Udp Addr ρ σ)

/-- The transport without the array. -/
def EpollUdp.udp (w : EpollUdp Addr ρ σ) : UdpWorld Addr ρ σ := ⟨w.loop, w.data.2⟩

inductive EpollInput (Addr : Type) where
  | arrive (client : Addr) (datagram : List UInt8)
  | poll (ready : EpollReady) (recvOk sendOk : Bool)

/-- A step; there is none where the process stops or blocks. -/
def epollStep (receive : σ → List UInt8 → Option (Option ρ × σ)) (w : EpollUdp Addr ρ σ) :
    EpollInput Addr → Option (EpollUdp Addr ρ σ)
  | .arrive client datagram =>
    some ⟨w.loop, w.data.1, { w.data.2 with queue := w.data.2.queue ++ [(client, datagram)] }⟩
  | .poll ready recvOk sendOk =>
    if w.loop.start then
      (List.range snmpMaxEvents).foldlM
        (pollSlot (besideEnv (epollBackend.udpCall receive recvOk sendOk))) (evPollEpoll ready w)
    else some w

/-- The state when `transport_running` enters its loop. -/
def epollRunning (sock : Int) (prot : σ) : EpollUdp Addr ρ σ where
  loop := epollBackend.snmpEventAdd (snmpEventInit .zero) sock .read .snmpReadHandler
  data := ⟨List.replicate snmpMaxEvents .zero, ⟨sock, none, none⟩, [], prot, [], []⟩

/-- The datagrams that arrive in a run. -/
def EpollInput.arrival : EpollInput Addr → Option (Addr × List UInt8)
  | .arrive client datagram => some (client, datagram)
  | .poll _ _ _ => none

/-! ### The serving transport -/

/-- The loop that serves one socket: the kernel watches it for reads, and while a response waits for
writes instead. -/
def epollServing (fd : Int) (wcb : Option UdpHandler) (p read write : Bool) : EventLoop UdpHandler :=
  { serving fd .snmpReadHandler wcb p read write with
    rfds := fun x => x = fd && !p
    wfds := fun x => x = fd && p }

section Loop

variable {fd : Int} {wcb : Option UdpHandler} {cb : UdpHandler} {p read write : Bool}

lemma EvBackend.snmpEventAdd_eq (b : EvBackend κ) {loop : EventLoop κ} {flag : EvFlag} {cb : κ}
    {slot : Event κ} {event : List (Event κ)} {new : Bool}
    (hfind : loop.event.find? (fun ev => ev.fd = fd || ev.fd = -1) = some slot)
    (hslot : addSlot fd flag cb loop.event = some (event, new)) :
    b.snmpEventAdd loop fd flag cb =
      { b.evAdd loop slot fd flag with
        event := event
        maxFd := if new then max loop.maxFd fd else loop.maxFd } := by
  simp only [EvBackend.snmpEventAdd, hfind, hslot]

lemma epollServing_of_init (hfd : 0 ≤ fd) :
    epollBackend.snmpEventAdd (snmpEventInit .zero) fd .read .snmpReadHandler =
      epollServing fd none false false false := by
  have hne : ¬ (-1 : Int) = fd := by omega
  have hmax : max (-1 : Int) fd = fd := by omega
  have hfind : (snmpEventInit (EventLoop.zero (κ := UdpHandler))).event.find?
      (fun ev => ev.fd = fd || ev.fd = -1) = some .free := by
    change List.find? _ (Event.free :: List.replicate 4 Event.free) = _
    simp [Event.free]
  have hslot : addSlot fd .read UdpHandler.snmpReadHandler (snmpEventInit EventLoop.zero).event =
      some ((epollServing fd none false false false).event, true) := by
    change addSlot fd .read UdpHandler.snmpReadHandler (Event.free :: List.replicate 4 .free) = _
    simp only [addSlot, Event.free, hne, if_false, if_true]
    rfl
  rw [EvBackend.snmpEventAdd_eq epollBackend hfind hslot]
  simp only [epollBackend, Event.free, Bool.or_self, EventLoop.epollCtlAdd, EventLoop.registered,
    snmpEventInit, EventLoop.setInterest, hmax, epollServing, serving]
  congr 1 <;>
  · funext x
    simp [Function.update_apply]

/-- A response replaces the interest in reads. -/
lemma snmpEventAdd_epollServing :
    epollBackend.snmpEventAdd (epollServing fd wcb false read write) fd .write cb =
      epollServing fd (some cb) true read write := by
  have hfind : (epollServing fd wcb false read write).event.find?
      (fun ev => ev.fd = fd || ev.fd = -1) =
        some ⟨fd, some .snmpReadHandler, wcb, true, false, read, write⟩ := by
    simp [epollServing, serving]
  have hslot : addSlot fd .write cb (epollServing fd wcb false read write).event =
      some ((epollServing fd (some cb) true read write).event, false) := by
    simp [epollServing, serving, addSlot, Event.register]
  rw [EvBackend.snmpEventAdd_eq epollBackend hfind hslot]
  simp only [epollBackend, Bool.or_false, if_true, EventLoop.epollCtlMod, EventLoop.registered,
    EventLoop.setInterest, epollServing, serving, Bool.not_false, decide_true, Bool.and_self,
    Bool.true_or]
  congr 1 <;>
  · funext x
    by_cases hx : x = fd <;> simp [hx]

/-- Once it is sent, the interest in reads is back. -/
lemma snmpEventRemove_epollServing (hfd : 0 ≤ fd) :
    epollBackend.snmpEventRemove (epollServing fd wcb true read write) fd .write =
      epollServing fd wcb false read false := by
  have hne : ¬ (-1 : Int) = fd := by omega
  have hmax : max (-1 : Int) fd = fd := by omega
  simp only [EvBackend.snmpEventRemove, epollServing, serving, if_true, hmax, List.any_cons,
    decide_true, Bool.true_or, epollBackend, EventLoop.epollCtlMod, EventLoop.registered,
    Bool.not_true, Bool.and_false, Bool.and_true, Bool.or_true, EventLoop.setInterest, List.map_cons,
    Event.unregister, List.map_replicate, Event.free, hne, if_false]
  congr 1 <;>
  · funext x
    by_cases hx : x = fd <;> simp [hx]

/-- A list without repetitions, of which one element counts. -/
lemma filterMap_of_nodup {α β : Type*} {f : α → Option β} {a : α} (h : ∀ x ≠ a, f x = none)
    {l : List α} (hl : l.Nodup) : a ∈ l ∧ l.filterMap f = (f a).toList ∨ a ∉ l ∧ l.filterMap f = [] := by
  induction l with
  | nil => simp
  | cons x l ih =>
    obtain ⟨hx, hl⟩ := List.nodup_cons.mp hl
    by_cases hxa : x = a
    · subst hxa
      have hnil : l.filterMap f = [] := (ih hl).elim (fun h => absurd h.1 hx) And.right
      exact .inl ⟨List.mem_cons_self, by cases hf : f x <;> simp [hf, hnil]⟩
    · rw [List.filterMap_cons_none (h x hxa), List.mem_cons, or_iff_right (Ne.symm hxa)]
      exact ih hl

/-- The kernel watches the socket alone. -/
lemma epollWait_epollServing (fd : Int) (wcb : Option UdpHandler) (p read write : Bool) (ready : EpollReady) :
    fd ∈ ready.fds ∧ epollWait (epollServing fd wcb p read write) ready =
        (epollReport (epollServing fd wcb p read write) ready fd).toList ∨
      fd ∉ ready.fds ∧ epollWait (epollServing fd wcb p read write) ready = [] := by
  have hone : ∀ x ≠ fd, epollReport (epollServing fd wcb p read write) ready x = none := by
    intro x hx
    simp [epollReport, epollServing, EventLoop.registered, hx]
  rcases filterMap_of_nodup hone ready.nodup with ⟨hmem, heq⟩ | ⟨hmem, heq⟩
  · refine .inl ⟨hmem, ?_⟩
    rw [epollWait, heq]
    cases epollReport (epollServing fd wcb p read write) ready fd <;> rfl
  · exact .inr ⟨hmem, by rw [epollWait, heq]; rfl⟩

/-- The array of the backend while it has had one descriptor: only the first event was filled. -/
def soleEnv (ee : EpollEvent) : EpollEnv := ee :: List.replicate 4 .zero

/-- What the socket is watched for is due if the kernel reports it. -/
def EpollReady.due (ready : EpollReady) (sock : Int) (p : Bool) : Bool :=
  ready.fds.contains sock && if p then ready.writable sock else ready.readable sock

/-- A poll marks the callback that is due. -/
lemma evPollEpoll_epollServing (fd : Int) (wcb : Option UdpHandler) (p : Bool) (ready : EpollReady)
    (ee : EpollEvent) (data : τ) :
    ∃ ee', evPollEpoll ready ⟨epollServing fd wcb p false false, soleEnv ee, data⟩ =
      ⟨epollServing fd wcb p (!p && ready.due fd p) (p && ready.due fd p), soleEnv ee', data⟩ := by
  rcases epollWait_epollServing fd wcb p false false ready with ⟨hmem, hwait⟩ | ⟨hmem, hwait⟩
  · have hread : (!p && ready.due fd p) = (!p && ready.readable fd) := by
      cases p <;> simp [EpollReady.due, hmem]
    have hwrite : (p && ready.due fd p) = (p && ready.writable fd) := by
      cases p <;> simp [EpollReady.due, hmem]
    rw [hread, hwrite]
    cases hrep : epollReport (epollServing fd wcb p false false) ready fd with
    | none =>
      rw [hrep] at hwait
      have hidle : (!p && ready.readable fd) = false ∧ (p && ready.writable fd) = false := by
        simp only [epollReport] at hrep
        split_ifs at hrep with hif
        simp only [epollServing, decide_true, Bool.true_and, Bool.or_eq_true, not_or,
          Bool.not_eq_true] at hif
        exact hif.1
      refine ⟨ee, ?_⟩
      rw [hidle.1, hidle.2]
      simp [evPollEpoll, hwait]
    | some ee' =>
      rw [hrep] at hwait
      have hee : ee' = ⟨fd, !p && ready.readable fd, p && ready.writable fd⟩ := by
        simp only [epollReport] at hrep
        split_ifs at hrep
        rw [← Option.some.inj hrep]
        simp [epollServing]
      refine ⟨ee', ?_⟩
      simp only [evPollEpoll, hwait, Option.toList_some, List.cons_ne_nil, if_false]
      rw [hee]
      simp [soleEnv, epollServing, serving, Event.markEpoll, EpollEvent.zero, Event.free]
  · refine ⟨ee, ?_⟩
    simp [evPollEpoll, hwait, EpollReady.due, hmem]

end Loop

/-! ### Slots -/

section Slots

variable (call : κ → Int → EvFlag → EvWorld κ τ → Option (EvWorld κ τ))

/-- A poll of the select backend that finds nothing ready changes nothing. -/
lemma evPoll_nothing (loop : EventLoop κ) : evPoll ⟨fun _ => false, fun _ => false⟩ loop = loop := by
  have hmark : ∀ ev : Event κ, ev.mark loop ⟨fun _ => false, fun _ => false⟩ = ev := by
    intro ev
    simp [Event.mark]
  simp [evPoll, hmark]

/-- Where the first slot leaves the others idle, they do nothing. -/
lemma foldlM_pollSlot_eq {w : EvWorld κ τ} (h : ∀ w', pollSlot call w 0 = some w' → w'.Idle) :
    (List.range snmpMaxEvents).foldlM (pollSlot call) w = pollSlot call w 0 := by
  let nothing : Ready := ⟨fun _ => false, fun _ => false⟩
  have hw : ({ w with loop := evPoll nothing w.loop } : EvWorld κ τ) = w := by rw [evPoll_nothing]
  have hpoll : snmpEventPoll call nothing w = pollSlot call { w with loop := evPoll nothing w.loop } 0 :=
    snmpEventPoll_eq call fun w' hw' => h w' (hw ▸ hw')
  rwa [snmpEventPoll, hw] at hpoll

/-- A slot is polled as without the array. -/
lemma pollSlot_besideEnv (loop : EventLoop κ) (env : ε) (data : τ) (i : Nat) :
    pollSlot (besideEnv call) ⟨loop, env, data⟩ i =
      (pollSlot call ⟨loop, data⟩ i).map fun w => ⟨w.loop, env, w.data⟩ := by
  have hwrite : ∀ loop data, pollWrite (besideEnv call) ⟨loop, env, data⟩ i =
      (pollWrite call ⟨loop, data⟩ i).map fun w => ⟨w.loop, env, w.data⟩ := by
    intro loop data
    simp only [pollWrite, EvWorld.slot]
    cases (loop.event.getD i .free).writeCb with
    | none => rfl
    | some cb =>
      simp only [besideEnv]
      cases call cb (loop.event.getD i .free).fd .write ⟨loop, data⟩ <;> rfl
  have hread : pollRead (besideEnv call) ⟨loop, env, data⟩ i =
      (pollRead call ⟨loop, data⟩ i).map fun w => ⟨w.loop, env, w.data⟩ := by
    simp only [pollRead, EvWorld.slot]
    cases (loop.event.getD i .free).readCb with
    | none => rfl
    | some cb =>
      simp only [besideEnv]
      cases call cb (loop.event.getD i .free).fd .read ⟨loop, data⟩ <;> rfl
  simp only [pollSlot, hread]
  cases pollRead call ⟨loop, data⟩ i with
  | none => rfl
  | some w => exact hwrite w.loop w.data

end Slots

/-! ### Handlers -/

/-- The transport while its loop runs. -/
def epollUdpServing (wcb : Option UdpHandler) (p read write : Bool) (d : Udp Addr ρ σ) :
    UdpWorld Addr ρ σ :=
  ⟨epollServing d.entry.sock wcb p read write, d⟩

section Handlers

variable {receive : σ → List UInt8 → Option (Option ρ × σ)} {recvOk sendOk : Bool}
  {wcb : Option UdpHandler} {p : Bool} {d : Udp Addr ρ σ}

lemma idle_epollUdpServing : (epollUdpServing wcb p false false d).Idle :=
  fun i hi => (idle_serving : (udpServing wcb p false false d).Idle) i hi

/-- With nothing due the slot does nothing. -/
lemma pollSlot_epollUdpServing_idle :
    pollSlot (epollBackend.udpCall receive recvOk sendOk) (epollUdpServing wcb p false false d) 0 =
      some (epollUdpServing wcb p false false d) :=
  pollSlot_of_idle _ rfl rfl

/-- A due read takes a datagram. Its response waits for a write, which is not due yet. -/
lemma pollSlot_epollUdpServing_read {client : Addr} {datagram : List UInt8}
    {queue : List (Addr × List UInt8)} {response : Option ρ} {prot : σ}
    (hqueue : d.queue = (client, datagram) :: queue)
    (hreceive : receive d.prot (datagram.take transBufSiz) = some (response, prot)) :
    pollSlot (epollBackend.udpCall receive true sendOk) (epollUdpServing wcb false true false d) 0 =
      some (epollUdpServing (writeCbAfter wcb response) response.isSome false false
        (d.afterRead client queue response prot)) := by
  have hcall : epollBackend.snmpReadHandler receive true (epollUdpServing wcb false true false d) =
      some (epollUdpServing (writeCbAfter wcb response) response.isSome true false
        (d.afterRead client queue response prot)) := by
    simp only [EvBackend.snmpReadHandler, epollUdpServing, hqueue, hreceive, Option.map_some,
      Option.some.injEq]
    cases response with
    | none => simp [writeCbAfter, Udp.afterRead]
    | some buf =>
      simp [writeCbAfter, Udp.afterRead, EvBackend.transportSend, snmpEventAdd_epollServing]
  have hread : pollRead (epollBackend.udpCall receive true sendOk)
      (epollUdpServing wcb false true false d) 0 =
        some (epollUdpServing (writeCbAfter wcb response) response.isSome false false
          (d.afterRead client queue response prot)) :=
    congrArg (Option.map fun w : UdpWorld Addr ρ σ =>
      w.modifySlot 0 fun ev => { ev with read := false }) hcall
  rw [pollSlot, hread]
  rfl

/-- A due read that takes no datagram does not return. -/
lemma pollSlot_epollUdpServing_eq_none
    (h : ∀ client datagram queue response prot, recvOk = true →
      d.queue = (client, datagram) :: queue →
      receive d.prot (datagram.take transBufSiz) ≠ some (response, prot)) :
    pollSlot (epollBackend.udpCall receive recvOk sendOk) (epollUdpServing wcb false true false d) 0 =
      none := by
  have hcall : epollBackend.snmpReadHandler receive recvOk (epollUdpServing wcb false true false d) =
      none := by
    simp only [EvBackend.snmpReadHandler, epollUdpServing]
    split
    · next client datagram queue hqueue =>
      rw [Option.map_eq_none_iff, Option.eq_none_iff_forall_ne_some]
      rintro ⟨response, prot⟩
      exact h client datagram queue response prot rfl hqueue
    · rfl
  have hread : pollRead (epollBackend.udpCall receive recvOk sendOk)
      (epollUdpServing wcb false true false d) 0 = none :=
    congrArg (Option.map fun w : UdpWorld Addr ρ σ =>
      w.modifySlot 0 fun ev => { ev with read := false }) hcall
  rw [pollSlot, hread]
  rfl

lemma stopped_epollBackend_snmpEventDone (loop : EventLoop UdpHandler) (fd : Int) (flag : EvFlag) :
    (epollBackend.snmpEventRemove (epollBackend.snmpEventDone loop) fd flag).Stopped := by
  refine ⟨?_, ?_⟩
  · simp only [EvBackend.snmpEventRemove]
    split_ifs
    · exact EventLoop.start_epollCtlMod _ _ _ _
    · rfl
  · simp only [EvBackend.snmpEventRemove, EvBackend.snmpEventDone, epollBackend, List.map_map,
      List.mem_map, Function.comp_apply]
    rintro ev ⟨ev₀, -, rfl⟩
    cases flag <;> simp only [Event.reset, Event.unregister] <;> split_ifs <;> simp

/-- A due write sends what waits; if that fails the loop is stopped. -/
lemma pollSlot_epollUdpServing_write (receive : σ → List UInt8 → Option (Option ρ × σ))
    (recvOk sendOk : Bool) (h : Waiting wcb true true d) :
    ∃ sin buf, d.entry.clientSin = some sin ∧ d.entry.buf = some buf ∧
      ∃ loop, pollSlot (epollBackend.udpCall receive recvOk sendOk)
          (epollUdpServing wcb true false true d) 0 = some ⟨loop, d.afterWrite sin buf⟩ ∧
        if sendOk then loop = epollServing d.entry.sock wcb false false false else loop.Stopped := by
  obtain ⟨rfl, sin, buf, hsin, hbuf⟩ := h.entry rfl
  set loop := epollServing d.entry.sock (some .snmpWriteHandler) true false true with hloop
  have hcall : epollBackend.snmpWriteHandler sendOk d.entry.sock .write ⟨loop, d⟩ =
      some ⟨epollBackend.snmpEventRemove (if sendOk then loop else epollBackend.snmpEventDone loop)
        d.entry.sock .write, d.afterWrite sin buf⟩ := by
    simp only [EvBackend.snmpWriteHandler, hsin, hbuf]
  have hpoll : pollSlot (epollBackend.udpCall receive recvOk sendOk) ⟨loop, d⟩ 0 = _ :=
    congrArg (Option.map fun w : UdpWorld Addr ρ σ =>
      w.modifySlot 0 fun ev => { ev with write := false }) hcall
  refine ⟨sin, buf, hsin, hbuf, _, hpoll, ?_⟩
  cases sendOk with
  | true =>
    rw [if_pos rfl, if_pos rfl, hloop, snmpEventRemove_epollServing h.sock]
    rfl
  | false =>
    rw [if_neg (by simp)]
    exact (stopped_epollBackend_snmpEventDone loop d.entry.sock .write).modifySlot
      (d.afterWrite sin buf) 0

end Handlers

/-! ### Polls of the transport -/

/-- What a poll does to a transport that serves its socket: nothing is due, or what is due is to take
a datagram, to stop at one, or to send what waits. -/
inductive Polled (receive : σ → List UInt8 → Option (Option ρ × σ)) (recvOk sendOk : Bool)
    (wcb : Option UdpHandler) (d : Udp Addr ρ σ) : Bool → Bool → Option (EpollUdp Addr ρ σ) → Prop
  | idle (p : Bool) (ee : EpollEvent) : Polled receive recvOk sendOk wcb d p false
      (some ⟨epollServing d.entry.sock wcb p false false, soleEnv ee, d⟩)
  | read {client : Addr} {datagram : List UInt8} {queue : List (Addr × List UInt8)}
      {response : Option ρ} {prot : σ} (hrecv : recvOk = true)
      (hqueue : d.queue = (client, datagram) :: queue)
      (hreceive : receive d.prot (datagram.take transBufSiz) = some (response, prot))
      (ee : EpollEvent) : Polled receive recvOk sendOk wcb d false true
        (some ⟨epollServing d.entry.sock (writeCbAfter wcb response) response.isSome false false,
          soleEnv ee, d.afterRead client queue response prot⟩)
  | stuck (h : ∀ client datagram queue response prot, recvOk = true →
      d.queue = (client, datagram) :: queue →
      receive d.prot (datagram.take transBufSiz) ≠ some (response, prot)) :
    Polled receive recvOk sendOk wcb d false true none
  | write {sin : Addr} {buf : ρ} (hsin : d.entry.clientSin = some sin) (hbuf : d.entry.buf = some buf)
      {loop : EventLoop UdpHandler}
      (hloop : if sendOk then loop = epollServing d.entry.sock wcb false false false else loop.Stopped)
      (ee : EpollEvent) : Polled receive recvOk sendOk wcb d true true
        (some ⟨loop, soleEnv ee, d.afterWrite sin buf⟩)

section Polls

variable {receive : σ → List UInt8 → Option (Option ρ × σ)} {ready : EpollReady} {recvOk sendOk : Bool}
  {wcb : Option UdpHandler} {p : Bool} {ee : EpollEvent} {d : Udp Addr ρ σ}

/-- A poll looks at the first slot. -/
lemma epollStep_poll_eq {w : EpollUdp Addr ρ σ} {loop : EventLoop UdpHandler} {env : EpollEnv}
    (hstart : w.loop.start = true) (hpoll : evPollEpoll ready w = ⟨loop, env, d⟩)
    {r : Option (UdpWorld Addr ρ σ)}
    (hslot : pollSlot (epollBackend.udpCall receive recvOk sendOk) ⟨loop, d⟩ 0 = r)
    (hidle : ∀ w' ∈ r, w'.Idle) :
    epollStep receive w (.poll ready recvOk sendOk) = r.map fun w' => ⟨w'.loop, env, w'.data⟩ := by
  have hfirst := pollSlot_besideEnv (epollBackend.udpCall receive recvOk sendOk) loop env d 0
  rw [hslot] at hfirst
  rw [epollStep, if_pos hstart, hpoll, foldlM_pollSlot_eq, hfirst]
  intro w' hw'
  obtain ⟨w₁, hw₁, rfl⟩ := Option.map_eq_some_iff.mp (hfirst.symm.trans hw')
  exact fun i hi => hidle w₁ hw₁ i hi

lemma epollStep_polled (receive : σ → List UInt8 → Option (Option ρ × σ)) (ready : EpollReady)
    (recvOk sendOk : Bool) (ee : EpollEvent) (h : Waiting wcb p false d) :
    Polled receive recvOk sendOk wcb d p (ready.due d.entry.sock p)
      (epollStep receive ⟨epollServing d.entry.sock wcb p false false, soleEnv ee, d⟩
        (.poll ready recvOk sendOk)) := by
  obtain ⟨ee', hpoll⟩ := evPollEpoll_epollServing d.entry.sock wcb p ready ee d
  cases hdue : ready.due d.entry.sock p with
  | false =>
    rw [hdue, Bool.and_false, Bool.and_false] at hpoll
    rw [epollStep_poll_eq rfl hpoll pollSlot_epollUdpServing_idle]
    · exact .idle p ee'
    · rintro w' hw'
      rw [← Option.some.inj hw']
      exact idle_epollUdpServing
  | true =>
    cases p with
    | false =>
      rw [hdue] at hpoll
      by_cases hread : ∃ client datagram queue response prot, recvOk = true ∧
          d.queue = (client, datagram) :: queue ∧
          receive d.prot (datagram.take transBufSiz) = some (response, prot)
      · obtain ⟨client, datagram, queue, response, prot, rfl, hqueue, hreceive⟩ := hread
        rw [epollStep_poll_eq rfl hpoll (pollSlot_epollUdpServing_read hqueue hreceive)]
        · exact .read rfl hqueue hreceive ee'
        · rintro w' hw'
          rw [← Option.some.inj hw']
          exact idle_epollUdpServing
      · push Not at hread
        rw [epollStep_poll_eq rfl hpoll (pollSlot_epollUdpServing_eq_none hread)]
        · exact .stuck hread
        · rintro w' hw'
          cases hw'
    | true =>
      rw [hdue] at hpoll
      obtain ⟨sin, buf, hsin, hbuf, loop, hslot, hloop⟩ :=
        pollSlot_epollUdpServing_write receive recvOk sendOk ⟨h.sock, fun _ => rfl, h.entry⟩
      rw [epollStep_poll_eq rfl hpoll hslot]
      · exact .write hsin hbuf hloop ee'
      · rintro w' hw'
        rw [← Option.some.inj hw']
        cases sendOk with
        | true =>
          rw [if_pos rfl] at hloop
          subst hloop
          exact fun i hi => (idle_epollUdpServing : (epollUdpServing wcb false false false d).Idle) i hi
        | false => exact EventLoop.Stopped.idle (by simpa using hloop)

end Polls

/-! ### Runs -/

/-- The transport between two polls: the loop was stopped, or it serves the socket. -/
inductive EpollInv : EpollUdp Addr ρ σ → Prop
  | stopped {loop : EventLoop UdpHandler} (env : EpollEnv) (d : Udp Addr ρ σ) (h : loop.Stopped) :
    EpollInv ⟨loop, env, d⟩
  | serving {wcb : Option UdpHandler} {p : Bool} (ee : EpollEvent) {d : Udp Addr ρ σ}
    (h : Waiting wcb p false d) :
    EpollInv ⟨epollServing d.entry.sock wcb p false false, soleEnv ee, d⟩

lemma epollInv_epollRunning {sock : Int} (hsock : 0 ≤ sock) (prot : σ) :
    EpollInv (epollRunning sock prot : EpollUdp Addr ρ σ) := by
  have hwait : Waiting none false false (⟨⟨sock, none, none⟩, [], prot, [], []⟩ : Udp Addr ρ σ) :=
    ⟨hsock, by simp, by simp⟩
  rw [epollRunning, epollServing_of_init hsock]
  exact .serving .zero hwait

/-- What waits in a transport that serves its socket. -/
lemma pending_epollServing {wcb : Option UdpHandler} {p : Bool} {d : Udp Addr ρ σ}
    (h : Waiting wcb p false d) : pending ⟨epollServing d.entry.sock wcb p false false, d⟩ =
      if p then d.entry.clientSin.bind fun sin => d.entry.buf.map fun buf => (sin, buf) else none := by
  have hreg : writeRegistered ⟨epollServing d.entry.sock wcb p false false, d⟩ = p :=
    writeRegistered_udpServing wcb p false false h.sock
  rw [pending, hreg]

lemma pending_of_stopped {loop : EventLoop UdpHandler} (h : loop.Stopped) (d : Udp Addr ρ σ) :
    pending ⟨loop, d⟩ = none := by
  have hreg : writeRegistered (⟨loop, d⟩ : UdpWorld Addr ρ σ) = false := writeRegistered_of_stopped h
  rw [pending, hreg]
  rfl

/-- The receiving function, of what `recvfrom` stores. -/
def receiveDatagram (receive : σ → List UInt8 → Option (Option ρ × σ)) (prot : σ)
    (datagram : List UInt8) : Option (Option ρ × σ) :=
  receive prot (datagram.take transBufSiz)

/-- The datagrams before the queue have been served, and their responses are sent or wait. -/
structure Accounts (receive : σ → List UInt8 → Option (Option ρ × σ)) (prot : σ)
    (arrived : List (Addr × List UInt8)) (w : EpollUdp Addr ρ σ) : Prop where
  served : Served (receiveDatagram receive) prot arrived w.data.2.queue w.data.2.produced w.data.2.prot
  delivered : Delivered w.udp

/-- A step keeps the invariant and the account. -/
lemma epollStep_accounts {receive : σ → List UInt8 → Option (Option ρ × σ)} {prot : σ}
    {arrived : List (Addr × List UInt8)} {w w' : EpollUdp Addr ρ σ} (hinv : EpollInv w)
    (hacc : Accounts receive prot arrived w) {i : EpollInput Addr}
    (hstep : epollStep receive w i = some w') :
    EpollInv w' ∧ Accounts receive prot (arrived ++ i.arrival.toList) w' := by
  cases i with
  | arrive client datagram =>
    obtain rfl := Option.some.inj hstep
    refine ⟨?_, hacc.served.arrive (client, datagram), ?_⟩
    · cases hinv with
      | stopped env d h => exact .stopped env _ h
      | @serving wcb p ee d h =>
        exact .serving (d := { d with queue := d.queue ++ [(client, datagram)] }) ee
          ⟨h.sock, h.due, h.entry⟩
    · exact hacc.delivered
  | poll ready recvOk sendOk =>
    rw [show (EpollInput.poll ready recvOk sendOk : EpollInput Addr).arrival.toList = [] from rfl,
      List.append_nil]
    cases hinv with
    | stopped env d h =>
      rw [epollStep, h.start] at hstep
      obtain rfl := Option.some.inj hstep
      exact ⟨.stopped env d h, hacc⟩
    | @serving wcb p ee d h =>
      have hdel : d.produced =
          d.sent ++ (pending ⟨epollServing d.entry.sock wcb p false false, d⟩).toList := hacc.delivered
      have hpolled := epollStep_polled receive ready recvOk sendOk ee h
      rw [hstep] at hpolled
      rw [pending_epollServing h] at hdel
      generalize ready.due d.entry.sock p = due at hpolled
      cases hpolled with
      | idle p ee' =>
        refine ⟨.serving ee' h, hacc.served, ?_⟩
        rw [Delivered, EpollUdp.udp, pending_epollServing h]
        exact hdel
      | @read client datagram queue response prot _ hqueue hreceive ee' =>
        have hwait := h.afterRead client queue response prot
        rw [Bool.false_or] at hwait
        have hserved := hacc.served
        rw [hqueue] at hserved
        refine ⟨.serving (d := d.afterRead client queue response prot) ee' hwait,
          hserved.take hreceive, ?_⟩
        have hpending := pending_epollServing hwait
        rw [Delivered, EpollUdp.udp]
        refine Eq.trans ?_ (congrArg (fun o => d.sent ++ Option.toList o) hpending.symm)
        cases response with
        | none => simpa [Udp.afterRead] using hdel
        | some buf => simpa [Udp.afterRead] using hdel
      | @write sin buf hsin hbuf loop hloop ee' =>
        have hsent : d.produced = d.sent ++ [(sin, buf)] := by simpa [hsin, hbuf] using hdel
        cases sendOk with
        | true =>
          rw [if_pos rfl] at hloop
          subst hloop
          have hwait : Waiting wcb false false (d.afterWrite sin buf) := ⟨h.sock, by simp, by simp⟩
          refine ⟨.serving (d := d.afterWrite sin buf) ee' hwait, hacc.served, ?_⟩
          have hpending := pending_epollServing hwait
          rw [Delivered, EpollUdp.udp]
          refine Eq.trans ?_
            (congrArg (fun o => (d.sent ++ [(sin, buf)]) ++ Option.toList o) hpending.symm)
          simpa [Udp.afterWrite] using hsent
        | false =>
          have hstop : loop.Stopped := by simpa using hloop
          refine ⟨.stopped _ _ hstop, hacc.served, ?_⟩
          rw [Delivered, EpollUdp.udp, pending_of_stopped hstop]
          simpa [Udp.afterWrite] using hsent

/-- The datagrams that arrive in a run. -/
def arrivals (inputs : List (EpollInput Addr)) : List (Addr × List UInt8) :=
  inputs.filterMap EpollInput.arrival

lemma run_epollStep_accounts {receive : σ → List UInt8 → Option (Option ρ × σ)} {prot : σ}
    {arrived : List (Addr × List UInt8)} {w w' : EpollUdp Addr ρ σ} (hinv : EpollInv w)
    (hacc : Accounts receive prot arrived w) {inputs : List (EpollInput Addr)}
    (hrun : run (epollStep receive) w inputs = some w') :
    EpollInv w' ∧ Accounts receive prot (arrived ++ arrivals inputs) w' := by
  induction inputs generalizing arrived w with
  | nil =>
    obtain rfl := Option.some.inj hrun
    exact ⟨hinv, by simpa [arrivals] using hacc⟩
  | cons i inputs ih =>
    obtain ⟨w₁, hstep, hrun⟩ := Option.bind_eq_some_iff.mp hrun
    obtain ⟨hinv₁, hacc₁⟩ := epollStep_accounts hinv hacc hstep
    have hrest := ih hinv₁ hacc₁ hrun
    rw [List.append_assoc] at hrest
    have harr : i.arrival.toList ++ arrivals inputs = arrivals (i :: inputs) := by
      rw [arrivals, arrivals, List.filterMap_cons]
      cases i.arrival <;> rfl
    rwa [harr] at hrest

lemma accounts_epollRunning {sock : Int} (hsock : 0 ≤ sock)
    (receive : σ → List UInt8 → Option (Option ρ × σ)) (prot : σ) :
    Accounts receive prot [] (epollRunning sock prot : EpollUdp Addr ρ σ) := by
  refine ⟨served_init prot, ?_⟩
  have hwait : Waiting none false false (⟨⟨sock, none, none⟩, [], prot, [], []⟩ : Udp Addr ρ σ) :=
    ⟨hsock, by simp, by simp⟩
  rw [epollRunning, epollServing_of_init hsock, Delivered, EpollUdp.udp, pending_epollServing hwait]
  rfl

/-- The transport on epoll is a sequential server, in every run: the datagrams that have been read are
served one after the other in the order of their arrival, and the responses are sent to the clients of
their datagrams, once and in order. At most the last one waits; the kernel then watches the socket for
writes alone, and else for reads alone. -/
theorem epoll_serves {receive : σ → List UInt8 → Option (Option ρ × σ)} {sock : Int} (hsock : 0 ≤ sock)
    {prot : σ} {inputs : List (EpollInput Addr)} {w : EpollUdp Addr ρ σ}
    (hrun : run (epollStep receive) (epollRunning sock prot) inputs = some w) :
    (∃ served, arrivals inputs = served ++ w.data.2.queue ∧
      serve (receiveDatagram receive) prot served = some (w.data.2.produced, w.data.2.prot)) ∧
    w.data.2.produced = w.data.2.sent ++ (pending w.udp).toList ∧
    (w.loop.start = true → w.loop.rfds w.data.2.entry.sock = (pending w.udp).isNone ∧
      w.loop.wfds w.data.2.entry.sock = (pending w.udp).isSome) := by
  obtain ⟨hinv, hacc⟩ := run_epollStep_accounts (epollInv_epollRunning hsock prot)
    (accounts_epollRunning hsock receive prot) hrun
  refine ⟨hacc.served, hacc.delivered, fun hstart => ?_⟩
  cases hinv with
  | stopped env d h =>
    rw [h.start] at hstart
    cases hstart
  | @serving wcb p ee d h =>
    rw [EpollUdp.udp, pending_epollServing h]
    cases p with
    | false => simp [epollServing]
    | true =>
      obtain ⟨-, sin, buf, hsin, hbuf⟩ := h.entry rfl
      simp [epollServing, hsin, hbuf]

/-- Epoll reports socket 3, readable or not. -/
def sampleEpollReady (readable : Bool) : EpollReady where
  readable := fun _ => readable
  writable := fun _ => true
  fds := [3]
  nodup := List.nodup_singleton 3
  hangup := fun _ => false

/-- The agent of the sample request on epoll. -/
def sampleEpollStep : EpollUdp Nat Response (List Call) → EpollInput Nat →
    Option (EpollUdp Nat Response (List Call)) :=
  epollStep (snmpdReceive scalarHandlers oneInstance sampleViews)

/-- The arrivals that a transport on select answers wrongly. -/
def sampleEpollArrivals : List (EpollInput Nat) :=
  [.arrive 1 sampleRequest, .arrive 2 [0x31], .poll (sampleEpollReady true) true true,
    .poll (sampleEpollReady true) true true, .poll (sampleEpollReady true) true true]

theorem epoll_serves_sampleEpollArrivals :
    ∃ w, run sampleEpollStep (epollRunning 3 []) sampleEpollArrivals = some w ∧
      w.data.2.produced = w.data.2.sent ++ (pending w.udp).toList ∧
      clients w.udp = ([1], [1]) := by
  have hrun : (run sampleEpollStep (epollRunning 3 []) sampleEpollArrivals).map
      (fun w => clients w.udp) = some ([1], [1]) := by
    decide +kernel
  obtain ⟨w, hw, hclients⟩ := Option.map_eq_some_iff.mp hrun
  exact ⟨w, hw, (epoll_serves (by decide) hw).2.1, hclients⟩

/-! ### Coming to rest -/

/-- What is still to be done: a read and a write for each datagram, and the write that waits. -/
def EpollUdp.work (w : EpollUdp Addr ρ σ) : Nat :=
  2 * w.data.2.queue.length + (pending w.udp).toList.length

lemma work_epollServing {wcb : Option UdpHandler} {p : Bool} {d : Udp Addr ρ σ}
    (h : Waiting wcb p false d) (ee : EpollEvent) :
    EpollUdp.work ⟨epollServing d.entry.sock wcb p false false, soleEnv ee, d⟩ =
      2 * d.queue.length + p.toNat := by
  rw [EpollUdp.work, EpollUdp.udp, pending_epollServing h]
  cases p with
  | false => rfl
  | true =>
    obtain ⟨-, sin, buf, hsin, hbuf⟩ := h.entry rfl
    simp [hsin, hbuf]

/-- A poll in which the calls on the socket succeed, and epoll reports the socket: it can be written
to, and read exactly if a datagram is there. -/
def Honest (w : EpollUdp Addr ρ σ) : EpollInput Addr → Prop
  | .arrive _ _ => False
  | .poll ready recvOk sendOk => recvOk = true ∧ sendOk = true ∧ w.data.2.entry.sock ∈ ready.fds ∧
    ready.readable w.data.2.entry.sock = !w.data.2.queue.isEmpty ∧
    ready.writable w.data.2.entry.sock = true

/-- Each such poll gets something done. -/
lemma epollStep_honest {receive : σ → List UInt8 → Option (Option ρ × σ)} {prot : σ}
    {arrived : List (Addr × List UInt8)} {w : EpollUdp Addr ρ σ} (hinv : EpollInv w)
    (hstart : w.loop.start = true) (hacc : Accounts receive prot arrived w)
    (hall : serve (receiveDatagram receive) prot arrived ≠ none) {i : EpollInput Addr}
    (hi : Honest w i) :
    ∃ w', epollStep receive w i = some w' ∧ w'.loop.start = true ∧ w'.work ≤ w.work - 1 := by
  cases i with
  | arrive client datagram => exact absurd hi id
  | poll ready recvOk sendOk =>
    obtain ⟨rfl, rfl, hmem, hreadable, hwritable⟩ := hi
    cases hinv with
    | stopped env d h =>
      rw [h.start] at hstart
      cases hstart
    | @serving wcb p ee d h =>
      have hpolled := epollStep_polled receive ready true true ee h
      have hdue : ready.due d.entry.sock p = (p || !d.queue.isEmpty) := by
        have hcontains : ready.fds.contains d.entry.sock = true := List.contains_iff_mem.mpr hmem
        rw [EpollReady.due, hcontains, Bool.true_and]
        cases p with
        | false => exact hreadable
        | true => exact hwritable
      rw [work_epollServing h]
      generalize hstep : epollStep receive
        ⟨epollServing d.entry.sock wcb p false false, soleEnv ee, d⟩ (.poll ready true true) = r at hpolled
      generalize ready.due d.entry.sock p = due at hpolled hdue
      cases hpolled with
      | idle p ee' =>
        obtain ⟨rfl, hempty⟩ := Bool.or_eq_false_iff.mp hdue.symm
        have hnil : d.queue = [] := by simpa using hempty
        refine ⟨_, rfl, rfl, ?_⟩
        rw [work_epollServing h, hnil]
        simp
      | @read client datagram queue response prot' _ hqueue hreceive ee' =>
        have hwait := h.afterRead client queue response prot'
        rw [Bool.false_or] at hwait
        have hlen : d.queue.length = queue.length + 1 := by rw [hqueue, List.length_cons]
        have hone : response.isSome.toNat ≤ 1 := Bool.toNat_le _
        refine ⟨_, rfl, rfl, (work_epollServing hwait ee').trans_le ?_⟩
        have hrest : (d.afterRead client queue response prot').queue.length = queue.length := rfl
        rw [hrest, hlen, Bool.toNat_false]
        omega
      | stuck hstuck =>
        -- the first datagram of the queue is served
        obtain ⟨⟨client, datagram⟩, queue, hqueue⟩ : ∃ x queue, d.queue = x :: queue := by
          rw [Bool.false_or] at hdue
          exact List.ne_nil_iff_exists_cons.mp (by simpa using hdue.symm)
        have hserved := hacc.served
        rw [hqueue] at hserved
        obtain ⟨⟨response, prot'⟩, hreceive⟩ :=
          Option.ne_none_iff_exists'.mp (hserved.next_ne_none hall)
        exact absurd hreceive (hstuck client datagram queue response prot' rfl hqueue)
      | @write sin buf _ _ loop hloop ee' =>
        rw [if_pos rfl] at hloop
        subst hloop
        have hwait : Waiting wcb false false (d.afterWrite sin buf) := ⟨h.sock, by simp, by simp⟩
        refine ⟨_, rfl, rfl, (work_epollServing hwait ee').trans_le ?_⟩
        have hrest : (d.afterWrite sin buf).queue.length = d.queue.length := rfl
        rw [hrest, Bool.toNat_false, Bool.toNat_true]
        omega

/-- A transport that runs on epoll answers everything: once enough polls have come, with the socket
reported as it is, there is a response sent for each datagram that arrived and has one. -/
theorem epoll_answers_all {receive : σ → List UInt8 → Option (Option ρ × σ)} {sock : Int}
    (hsock : 0 ≤ sock) {prot prot' : σ} {inputs polls : List (EpollInput Addr)} {w : EpollUdp Addr ρ σ}
    (hrun : run (epollStep receive) (epollRunning sock prot) inputs = some w)
    (hstart : w.loop.start = true) {replies : List (Addr × ρ)}
    (hserve : serve (receiveDatagram receive) prot (arrivals inputs) = some (replies, prot'))
    (hpolls : EachStep (epollStep receive) Honest w polls)
    (hlen : 2 * w.data.2.queue.length + 1 ≤ polls.length) :
    ∃ w', run (epollStep receive) w polls = some w' ∧ w'.data.2.queue = [] ∧
      w'.data.2.sent = replies ∧ w'.data.2.prot = prot' := by
  obtain ⟨hinv, hacc⟩ := run_epollStep_accounts (epollInv_epollRunning hsock prot)
    (accounts_epollRunning hsock receive prot) hrun
  rw [List.nil_append] at hacc
  have hall : serve (receiveDatagram receive) prot (arrivals inputs) ≠ none := by simp [hserve]
  let Inv := fun w : EpollUdp Addr ρ σ =>
    EpollInv w ∧ w.loop.start = true ∧ Accounts receive prot (arrivals inputs) w
  have hstep : ∀ w i, Inv w → Honest w i →
      ∃ w', epollStep receive w i = some w' ∧ Inv w' ∧ w'.work ≤ w.work - 1 := by
    rintro w i ⟨hinv, hstart, hacc⟩ hi
    obtain ⟨w', hw', hstart', hle⟩ := epollStep_honest hinv hstart hacc hall hi
    obtain ⟨hinv', hacc'⟩ := epollStep_accounts hinv hacc hw'
    have harrival : i.arrival = none := by
      cases i with
      | arrive client datagram => exact absurd hi id
      | poll ready recvOk sendOk => rfl
    rw [harrival, Option.toList_none, List.append_nil] at hacc'
    exact ⟨w', hw', ⟨hinv', hstart', hacc'⟩, hle⟩
  have hwork : w.work ≤ polls.length := by
    have hone : (pending w.udp).toList.length ≤ 1 := by cases pending w.udp <;> simp
    rw [EpollUdp.work]
    omega
  obtain ⟨w', hrun', ⟨-, -, hacc'⟩, hzero⟩ :=
    run_exhausts hstep ⟨hinv, hstart, hacc⟩ hpolls hwork
  rw [EpollUdp.work] at hzero
  have hqueue : w'.data.2.queue = [] := List.length_eq_zero_iff.mp (by omega)
  have hpending : (pending w'.udp).toList = [] := List.length_eq_zero_iff.mp (by omega)
  have hserved := hacc'.served
  rw [hqueue] at hserved
  obtain ⟨hreplies, hprot⟩ := Prod.mk.inj (Option.some.inj (hserved.all.symm.trans hserve))
  have hdel : w'.data.2.produced = w'.data.2.sent ++ (pending w'.udp).toList := hacc'.delivered
  rw [hpending, List.append_nil] at hdel
  exact ⟨w', hrun', hqueue, hdel.symm.trans hreplies, hprot⟩

/-- A poll that reads the sample request, one that sends the response, and one with nothing to do. -/
def samplePolls : List (EpollInput Nat) :=
  [.poll (sampleEpollReady true) true true, .poll (sampleEpollReady false) true true,
    .poll (sampleEpollReady false) true true]

/-- The queue and the socket. -/
def queued (w : EpollUdp Nat Response (List Call)) : List (Nat × List UInt8) × Int :=
  (w.data.2.queue, w.data.2.entry.sock)

theorem epoll_answers_all_samplePolls :
    ∃ w w', run sampleEpollStep (epollRunning 3 []) [.arrive 1 sampleRequest] = some w ∧
      run sampleEpollStep w samplePolls = some w' ∧ w'.data.2.sent.map Prod.fst = [1] := by
  obtain ⟨w, hw, hqueued⟩ : ∃ w, run sampleEpollStep (epollRunning 3 []) [.arrive 1 sampleRequest] =
      some w ∧ queued w = ([(1, sampleRequest)], 3) := ⟨_, rfl, by decide +kernel⟩
  have hstart : w.loop.start = true := by
    obtain rfl := Option.some.inj hw
    decide +kernel
  obtain ⟨⟨replies, prot'⟩, hserve, hreplies⟩ := Option.map_eq_some_iff.mp
    (show (serve (receiveDatagram (snmpdReceive scalarHandlers oneInstance sampleViews)) []
      (arrivals [.arrive 1 sampleRequest])).map (fun r => r.1.map Prod.fst) = some [1] by
        decide +kernel)
  -- the queue is empty once the request is read
  have hnext : ∀ polls w', (run sampleEpollStep w polls).map queued = some ([], 3) →
      run sampleEpollStep w polls = some w' → queued w' = ([], 3) := by
    intro polls w' hmap hw'
    rw [hw'] at hmap
    exact Option.some.inj hmap
  have hone : (run sampleEpollStep w (samplePolls.take 1)).map queued = some ([], 3) := by
    obtain rfl := Option.some.inj hw
    decide +kernel
  have htwo : (run sampleEpollStep w (samplePolls.take 2)).map queued = some ([], 3) := by
    obtain rfl := Option.some.inj hw
    decide +kernel
  have hhonest : ∀ w', queued w' = ([], 3) →
      Honest w' (.poll (sampleEpollReady false) true true) := by
    rintro w' hw'
    obtain ⟨hqueue, hsock⟩ := Prod.mk.inj hw'
    exact ⟨rfl, rfl, by simp [hsock, sampleEpollReady], by simp [hqueue, sampleEpollReady], rfl⟩
  have hpolls : EachStep sampleEpollStep Honest w samplePolls := by
    obtain ⟨hqueue, hsock⟩ := Prod.mk.inj hqueued
    refine ⟨⟨rfl, rfl, by simp [hsock, sampleEpollReady], by simp [hqueue, sampleEpollReady], rfl⟩,
      fun w₁ h₁ => ⟨hhonest w₁ (hnext _ w₁ hone (by simp [samplePolls, h₁])), fun w₂ h₂ =>
        ⟨hhonest w₂ (hnext _ w₂ htwo (by simp [samplePolls, h₁, h₂])), fun _ _ => trivial⟩⟩⟩
  obtain ⟨hqueue, -⟩ := Prod.mk.inj hqueued
  obtain ⟨w', hrun, -, hsent, -⟩ := epoll_answers_all (by decide) hw hstart hserve hpolls
    (by rw [hqueue]; decide)
  exact ⟨w, w', hw, hrun, by rw [hsent]; exact hreplies⟩

end SmartSnmp
