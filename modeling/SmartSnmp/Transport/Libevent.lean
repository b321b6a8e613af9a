import Mathlib.Data.Finset.Basic
import SmartSnmp.Lib.Serve
import SmartSnmp.Transport.Epoll

/-!
# The UDP transport on libevent

`core/snmp_udp_libevent_transport.c`. Each response is queued with the address of its client, and an
event for a write is added with it; the callback of such an event sends the first entry of the queue,
frees the event that was created last, and creates another one if entries are left. The events that are
pending may fire in any order. `event_loopbreak` acts on the base of `event_init`, which the transport
does not use.
-/

namespace SmartSnmp

open Run Serve

/-! ### The library -/

/-- An event library: a base with the events for writes that were created on it. `eventNew`, `eventAdd`
and `eventFree` stand for the functions of these names, without a timeout, and `fire` for what the loop
does to an event before it calls its callback. To free an event deletes it if it is pending, and its
memory may be used again; an event that does not persist is pending no more when it fires. The event for
reads persists and is never freed, it is left out. -/
class EventLib (β : Type) (ε : outParam Type) where
  eventBaseNew : β
  eventNew : β → β × ε
  eventAdd : β → ε → β
  eventFree : β → ε → β
  fire : β → ε → β
  live : β → ε → Bool
  pending : β → ε → Bool
  live_of_pending : ∀ b e, pending b e → live b e
  live_eventNew : ∀ b, live (eventNew b).1 (eventNew b).2
  pending_eventAdd : ∀ b e, live b e → pending (eventAdd b e) e
  live_fire : ∀ b e e', pending b e → live b e' → live (fire b e) e'

/-! ### The transport -/

/-- The static data of the transport, the queue of the socket, and the base with its events. The last
two fields record the responses, and the arguments of the calls of `sendto`. -/
structure Libevent (β ε Addr ρ σ : Type) where
  queue : List (Addr × List UInt8)
  prot : σ
  clientSin : Option Addr
  sendQueue : List (Addr × ρ)
  snmpSendEvent : Option ε
  eventBase : β
  produced : List (Addr × ρ)
  sent : List (Addr × ρ)

variable {β ε Addr ρ σ : Type} [EventLib β ε]

namespace Libevent

/-- An event for a write is created and added. -/
def addSendEvent (t : Libevent β ε Addr ρ σ) : Libevent β ε Addr ρ σ :=
  let (base, e) := EventLib.eventNew t.eventBase
  { t with snmpSendEvent := some e, eventBase := EventLib.eventAdd base e }

/-- `event_free`; it does not return for an event that is not allocated. -/
def freeSendEvent (t : Libevent β ε Addr ρ σ) (e : ε) : Option (Libevent β ε Addr ρ σ) :=
  if EventLib.live t.eventBase e then some { t with eventBase := EventLib.eventFree t.eventBase e }
  else none

/-- `transport_send`; before the first datagram there is no client. -/
def transportSend (buf : ρ) (t : Libevent β ε Addr ρ σ) : Option (Libevent β ε Addr ρ σ) :=
  t.clientSin.map fun sin => addSendEvent { t with sendQueue := t.sendQueue ++ [(sin, buf)] }

/-- `snmp_read_cb`. -/
def snmpReadCb (receive : σ → List UInt8 → Option (Option ρ × σ)) (recvOk : Bool)
    (t : Libevent β ε Addr ρ σ) : Option (Libevent β ε Addr ρ σ) :=
  match t.queue, recvOk with
  | (client, datagram) :: queue, true =>
    (receive t.prot (datagram.take transBufSiz)).bind fun (response, prot) =>
      let t := { t with queue := queue, prot := prot, clientSin := some client }
      match response with
      | none => some t
      | some buf => transportSend buf { t with produced := t.produced ++ [(client, buf)] }
  | _, _ => none

/-- `snmp_write_cb`. If `sendto` fails the entry is dropped as if it had been sent. -/
def snmpWriteCb (t : Libevent β ε Addr ρ σ) : Option (Libevent β ε Addr ρ σ) :=
  match t.sendQueue with
  | [] => some t
  | (sin, buf) :: entries =>
    t.snmpSendEvent.bind fun e =>
      (freeSendEvent { t with sendQueue := entries, sent := t.sent ++ [(sin, buf)] } e).map fun t =>
        if entries = [] then t else addSendEvent t

end Libevent

/-- What happens: a datagram arrives, the event for reads fires, or an event for a write. -/
inductive LibeventInput (ε Addr : Type) where
  | arrive (client : Addr) (datagram : List UInt8)
  | read (recvOk : Bool)
  | fire (e : ε)

/-- A step; there is none where the process stops or blocks, or uses an event that was freed. An event
that is not pending does not fire. -/
def libeventStep (receive : σ → List UInt8 → Option (Option ρ × σ)) (t : Libevent β ε Addr ρ σ) :
    LibeventInput ε Addr → Option (Libevent β ε Addr ρ σ)
  | .arrive client datagram => some { t with queue := t.queue ++ [(client, datagram)] }
  | .read recvOk => t.snmpReadCb receive recvOk
  | .fire e =>
    if EventLib.pending t.eventBase e then
      Libevent.snmpWriteCb { t with eventBase := EventLib.fire t.eventBase e }
    else some t

/-- The state when `transport_running` enters its loop. -/
def libeventRunning (prot : σ) : Libevent β ε Addr ρ σ :=
  ⟨[], prot, none, [], none, EventLib.eventBaseNew, [], []⟩

/-- The datagram that arrives in a step. -/
def LibeventInput.arrival : LibeventInput ε Addr → Option (Addr × List UInt8)
  | .arrive client datagram => some (client, datagram)
  | _ => none

/-! ### What a step does -/

/-- While entries are queued, the event that was created last is pending. -/
def LibeventInv (t : Libevent β ε Addr ρ σ) : Prop :=
  t.sendQueue ≠ [] → ∃ e, EventLib.pending t.eventBase e ∧ t.snmpSendEvent = some e

lemma libeventInv_of_nil {t : Libevent β ε Addr ρ σ} (h : t.sendQueue = []) : LibeventInv t :=
  fun hne => absurd h hne

lemma libeventInv_addSendEvent (t : Libevent β ε Addr ρ σ) : LibeventInv t.addSendEvent := fun _ =>
  ⟨_, EventLib.pending_eventAdd _ _ (EventLib.live_eventNew t.eventBase), rfl⟩

/-- What a callback for a write sends. -/
structure Sends (t t' : Libevent β ε Addr ρ σ) : Prop where
  queue : t'.queue = t.queue
  prot : t'.prot = t.prot
  produced : t'.produced = t.produced
  sent : t'.sent = t.sent ++ t.sendQueue.take 1
  sendQueue : t'.sendQueue = t.sendQueue.drop 1

lemma Libevent.snmpWriteCb_nil {t : Libevent β ε Addr ρ σ} (h : t.sendQueue = []) :
    t.snmpWriteCb = some t := by
  simp only [snmpWriteCb, h]

/-- The callback of an event that fires returns and sends the first entry. -/
lemma LibeventInv.fire {t : Libevent β ε Addr ρ σ} (h : LibeventInv t) {e : ε}
    (he : EventLib.pending t.eventBase e) :
    ∃ t', Libevent.snmpWriteCb { t with eventBase := EventLib.fire t.eventBase e } = some t' ∧
      LibeventInv t' ∧ Sends t t' := by
  have hcases : t.sendQueue = [] ∨ ∃ entry entries, t.sendQueue = entry :: entries := by
    cases t.sendQueue <;> simp
  rcases hcases with hqueue | ⟨entry, entries, hqueue⟩
  · refine ⟨_, Libevent.snmpWriteCb_nil hqueue, libeventInv_of_nil hqueue, ?_⟩
    exact ⟨rfl, rfl, rfl, by simp [hqueue], by simp [hqueue]⟩
  · obtain ⟨s, hs, hsend⟩ := h (by simp [hqueue])
    -- the event that is freed was pending, whichever one fires
    have hlive : EventLib.live (EventLib.fire t.eventBase e) s :=
      EventLib.live_fire _ _ _ he (EventLib.live_of_pending _ _ hs)
    let t₁ : Libevent β ε Addr ρ σ := { t with
      snmpSendEvent := some s
      sendQueue := entries
      sent := t.sent ++ [entry]
      eventBase := EventLib.eventFree (EventLib.fire t.eventBase e) s }
    have hcb : Libevent.snmpWriteCb { t with eventBase := EventLib.fire t.eventBase e } =
        some (if entries = [] then t₁ else t₁.addSendEvent) := by
      simp only [Libevent.snmpWriteCb, hqueue, hsend, Option.bind_some, Libevent.freeSendEvent, hlive,
        if_true, Option.map_some]
      rfl
    refine ⟨_, hcb, ?_⟩
    split_ifs with hempty
    · exact ⟨libeventInv_of_nil hempty, rfl, rfl, rfl, by simp [t₁, hqueue], by simp [t₁, hqueue]⟩
    · refine ⟨libeventInv_addSendEvent t₁, rfl, rfl, rfl, ?_, ?_⟩
      · simp [t₁, Libevent.addSendEvent, hqueue]
      · simp [t₁, Libevent.addSendEvent, hqueue]

/-- A datagram is read and its response, if any, is queued, or the callback does not return. -/
lemma LibeventInv.read {t t' : Libevent β ε Addr ρ σ} (h : LibeventInv t)
    {receive : σ → List UInt8 → Option (Option ρ × σ)} {recvOk : Bool}
    (hread : t.snmpReadCb receive recvOk = some t') : LibeventInv t' ∧ t'.sent = t.sent ∧
      ∃ client datagram response, t.queue = (client, datagram) :: t'.queue ∧
        receive t.prot (datagram.take transBufSiz) = some (response, t'.prot) ∧
        t'.produced = t.produced ++ (response.map fun buf => (client, buf)).toList ∧
        t'.sendQueue = t.sendQueue ++ (response.map fun buf => (client, buf)).toList := by
  simp only [Libevent.snmpReadCb] at hread
  split at hread
  · next client datagram queue hqueue =>
    obtain ⟨⟨response, prot⟩, hreceive, hread⟩ := Option.bind_eq_some_iff.mp hread
    cases response with
    | none =>
      obtain rfl := Option.some.inj hread
      exact ⟨h, rfl, client, datagram, none, hqueue, hreceive, by simp, by simp⟩
    | some buf =>
      obtain rfl := Option.some.inj hread
      exact ⟨libeventInv_addSendEvent _, rfl, client, datagram, some buf, hqueue, hreceive, rfl, rfl⟩
  · cases hread

/-! ### Runs -/

/-- The datagrams before the queue of the socket have been served, and their responses are sent or
queued. -/
structure LibeventAccounts (receive : σ → List UInt8 → Option (Option ρ × σ)) (prot : σ)
    (arrived : List (Addr × List UInt8)) (t : Libevent β ε Addr ρ σ) : Prop where
  served : Served (receiveDatagram receive) prot arrived t.queue t.produced t.prot
  delivered : t.produced = t.sent ++ t.sendQueue

variable {receive : σ → List UInt8 → Option (Option ρ × σ)} {prot : σ}
  {arrived : List (Addr × List UInt8)} {t t' : Libevent β ε Addr ρ σ}

omit [EventLib β ε] in
lemma LibeventAccounts.sends (h : LibeventAccounts receive prot arrived t) (hsends : Sends t t') :
    LibeventAccounts receive prot arrived t' := by
  constructor
  · rw [hsends.queue, hsends.prot, hsends.produced]
    exact h.served
  · rw [hsends.produced, hsends.sent, hsends.sendQueue, List.append_assoc, List.take_append_drop]
    exact h.delivered

/-- A step keeps the invariant and the account. -/
lemma libeventStep_accounts (hinv : LibeventInv t) (hacc : LibeventAccounts receive prot arrived t)
    {i : LibeventInput ε Addr} (hstep : libeventStep receive t i = some t') :
    LibeventInv t' ∧ LibeventAccounts receive prot (arrived ++ i.arrival.toList) t' := by
  cases i with
  | arrive client datagram =>
    obtain rfl := Option.some.inj hstep
    exact ⟨hinv, hacc.served.arrive (client, datagram), hacc.delivered⟩
  | read recvOk =>
    obtain ⟨hinv', hsent, client, datagram, response, hqueue, hreceive, hproduced, hsendQueue⟩ :=
      hinv.read hstep
    refine ⟨hinv', ?_, ?_⟩
    · have hserved := hacc.served
      rw [hqueue] at hserved
      rw [hproduced]
      simpa [LibeventInput.arrival] using hserved.take hreceive
    · rw [hproduced, hsent, hsendQueue, hacc.delivered, List.append_assoc]
  | fire e =>
    rw [libeventStep] at hstep
    have harrival : (LibeventInput.fire e : LibeventInput ε Addr).arrival.toList = [] := rfl
    rw [harrival, List.append_nil]
    split_ifs at hstep with he
    · obtain ⟨t₁, hcb, hinv₁, hsends⟩ := hinv.fire he
      obtain rfl := Option.some.inj (hcb.symm.trans hstep)
      exact ⟨hinv₁, hacc.sends hsends⟩
    · obtain rfl := Option.some.inj hstep
      exact ⟨hinv, hacc⟩

lemma run_libeventStep_accounts (hinv : LibeventInv t) (hacc : LibeventAccounts receive prot arrived t)
    {inputs : List (LibeventInput ε Addr)} (hrun : run (libeventStep receive) t inputs = some t') :
    LibeventInv t' ∧
      LibeventAccounts receive prot (arrived ++ inputs.filterMap LibeventInput.arrival) t' := by
  induction inputs generalizing arrived t with
  | nil =>
    obtain rfl := Option.some.inj hrun
    exact ⟨hinv, by simpa using hacc⟩
  | cons i inputs ih =>
    obtain ⟨t₁, hstep, hrun⟩ := Option.bind_eq_some_iff.mp hrun
    obtain ⟨hinv₁, hacc₁⟩ := libeventStep_accounts hinv hacc hstep
    have hrest := ih hinv₁ hacc₁ hrun
    rw [List.append_assoc] at hrest
    have harr : i.arrival.toList ++ inputs.filterMap LibeventInput.arrival =
        (i :: inputs).filterMap LibeventInput.arrival := by
      rw [List.filterMap_cons]
      cases i.arrival <;> rfl
    rwa [harr] at hrest

/-- The input is an event for a write that is pending. -/
def Fires (t : Libevent β ε Addr ρ σ) : LibeventInput ε Addr → Prop
  | .fire e => EventLib.pending t.eventBase e
  | _ => False

/-- The transport on libevent is a sequential server, whatever the order is in which its events fire:
the datagrams that have been read are served in the order of their arrival, and their responses are
sent to their clients or queued, once and in order. No event is freed twice or used after it was freed,
an event is pending while entries are queued, and as many events as there are entries send them all. -/
theorem libevent_serves {inputs : List (LibeventInput ε Addr)}
    (hrun : run (libeventStep receive) (libeventRunning prot) inputs = some t) :
    (∃ served, inputs.filterMap LibeventInput.arrival = served ++ t.queue ∧
      serve (receiveDatagram receive) prot served = some (t.produced, t.prot)) ∧
    t.produced = t.sent ++ t.sendQueue ∧
    (∀ e, libeventStep receive t (.fire e) ≠ none) ∧
    (t.sendQueue ≠ [] → ∃ e, EventLib.pending t.eventBase e) ∧
    ∀ fires, EachStep (libeventStep receive) Fires t fires → t.sendQueue.length ≤ fires.length →
      ∃ t', run (libeventStep receive) t fires = some t' ∧ t'.sent = t.produced := by
  obtain ⟨hinv, hacc⟩ := run_libeventStep_accounts (libeventInv_of_nil rfl)
    ⟨served_init prot, rfl⟩ hrun
  rw [List.nil_append] at hacc
  have hfire : ∀ t : Libevent β ε Addr ρ σ, LibeventInv t →
      ∀ e, EventLib.pending t.eventBase e →
      ∃ t', libeventStep receive t (.fire e) = some t' ∧ LibeventInv t' ∧ Sends t t' := by
    intro t ht e he
    obtain ⟨t', hcb, hinv', hsends⟩ := ht.fire he
    exact ⟨t', by rw [libeventStep, if_pos he, hcb], hinv', hsends⟩
  refine ⟨hacc.served, hacc.delivered, ?_, ?_, ?_⟩
  · intro e
    by_cases he : EventLib.pending t.eventBase e
    · obtain ⟨t', hstep, -⟩ := hfire t hinv e he
      simp [hstep]
    · simp [libeventStep, he]
  · intro hne
    obtain ⟨e, he, -⟩ := hinv hne
    exact ⟨e, he⟩
  · intro fires hfires hlen
    let Inv := fun u : Libevent β ε Addr ρ σ => LibeventInv u ∧ u.sent ++ u.sendQueue = t.produced
    have hstep : ∀ u i, Inv u → Fires u i → ∃ u', libeventStep receive u i = some u' ∧ Inv u' ∧
        u'.sendQueue.length ≤ u.sendQueue.length - 1 := by
      rintro u i ⟨hu, hsum⟩ hi
      cases i with
      | fire e =>
        obtain ⟨u', hu', hinv', hsends⟩ := hfire u hu e hi
        refine ⟨u', hu', ⟨hinv', ?_⟩, ?_⟩
        · rw [hsends.sent, hsends.sendQueue, List.append_assoc, List.take_append_drop, hsum]
        · rw [hsends.sendQueue, List.length_drop]
      | arrive client datagram => exact absurd hi id
      | read recvOk => exact absurd hi id
    obtain ⟨t', hrun', ⟨-, hsum⟩, hzero⟩ :=
      run_exhausts hstep ⟨hinv, hacc.delivered.symm⟩ hfires hlen
    rw [List.length_eq_zero_iff.mp hzero, List.append_nil] at hsum
    exact ⟨t', hrun', hsum⟩

/-! ### A table of events -/

/-- The events that are allocated and those that are pending. An event is a number that is not used
again. -/
structure EventTable where
  allocated : Finset Nat
  added : Finset Nat
  next : Nat
  subset : added ⊆ allocated

namespace EventTable

def new (b : EventTable) : EventTable where
  allocated := insert b.next b.allocated
  added := b.added
  next := b.next + 1
  subset := b.subset.trans (Finset.subset_insert _ _)

def add (b : EventTable) (e : Nat) (h : e ∈ b.allocated) : EventTable :=
  { b with added := insert e b.added, subset := Finset.insert_subset h b.subset }

/-- The event is pending no more. -/
def del (b : EventTable) (e : Nat) : EventTable :=
  { b with added := b.added.erase e, subset := (Finset.erase_subset e b.added).trans b.subset }

def free (b : EventTable) (e : Nat) : EventTable where
  allocated := b.allocated.erase e
  added := b.added.erase e
  next := b.next
  subset := Finset.erase_subset_erase e b.subset

instance : EventLib EventTable Nat where
  eventBaseNew := ⟨∅, ∅, 0, Finset.Subset.refl ∅⟩
  eventNew b := (b.new, b.next)
  eventAdd b e := if h : e ∈ b.allocated then b.add e h else b
  eventFree := free
  fire := del
  live b e := e ∈ b.allocated
  pending b e := e ∈ b.added
  live_of_pending := fun b e h => by simpa using b.subset (by simpa using h)
  live_eventNew := fun b => by simp [new]
  pending_eventAdd := fun b e h => by
    rw [dif_pos (by simpa using h)]
    simp [add]
  live_fire := fun b e e' _ h => h

end EventTable

/-- The requests of two clients are read before an event fires; then the first event fires. -/
def sampleFires : List (LibeventInput Nat Nat) :=
  [.arrive 1 sampleRequest, .arrive 2 sampleRequest, .read true, .read true, .fire 0]

theorem libevent_serves_sampleFires : ∃ t : Libevent EventTable Nat Nat _ _,
    run (libeventStep (snmpdReceive scalarHandlers oneInstance sampleViews)) (libeventRunning [])
      sampleFires = some t ∧
    (t.sent.map Prod.fst, t.sendQueue.map Prod.fst, t.eventBase.added) = ([1], [2], {2}) ∧
    t.produced = t.sent ++ t.sendQueue := by
  have hrun : (run (libeventStep (snmpdReceive scalarHandlers oneInstance sampleViews))
      (libeventRunning [] : Libevent EventTable Nat Nat _ _) sampleFires).map
        (fun t => (t.sent.map Prod.fst, t.sendQueue.map Prod.fst, t.eventBase.added)) =
      some ([1], [2], {2}) := by
    decide +kernel
  obtain ⟨t, ht, hsent⟩ := Option.map_eq_some_iff.mp hrun
  exact ⟨t, ht, hsent, (libevent_serves ht).2.1⟩

end SmartSnmp
