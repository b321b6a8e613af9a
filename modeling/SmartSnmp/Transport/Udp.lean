import SmartSnmp.Lib.Run
import SmartSnmp.Snmp.Access
import SmartSnmp.Transport.EvLoop

/-!
# The UDP transport

`core/snmp_udp_evloop_transport.c` on the event loop. `receive` stands for `snmp_prot_ops.receive`:
from the state of the protocol and a datagram it gives the response that it passes to
`transport_send`, if any. One entry keeps the response that waits for the socket and the address it
goes to; a read stores its sender there at once.
-/

namespace SmartSnmp

open Run

variable {Addr ρ σ : Type}

/-- `snmp_read_handler` and `snmp_write_handler`. -/
inductive UdpHandler where
  | snmpReadHandler
  | snmpWriteHandler
  deriving DecidableEq

/-- `struct snmp_data_entry`. The pointers are `none` before they are set and once they are freed;
`buf` is the buffer of a response with its length. -/
structure SnmpDataEntry (Addr ρ : Type) where
  sock : Int
  buf : Option ρ
  clientSin : Option Addr

/-- The transport. The queue is that of the socket. The last two fields are not the program's: they
record the responses of `receive`, each with the sender of its datagram, and the arguments of the
calls of `sendto`. -/
structure Udp (Addr ρ σ : Type) where
  entry : SnmpDataEntry Addr ρ
  queue : List (Addr × List UInt8)
  prot : σ
  produced : List (Addr × ρ)
  sent : List (Addr × ρ)

abbrev UdpWorld (Addr ρ σ : Type) := EvWorld UdpHandler (Udp Addr ρ σ)

abbrev transBufSiz : Nat := 65536

/-! ### Handlers -/

def snmpWriteHandler (sendOk : Bool) (sock : Int) (flag : EvFlag) (w : UdpWorld Addr ρ σ) :
    Option (UdpWorld Addr ρ σ) :=
  match w.data.entry.clientSin, w.data.entry.buf with
  | some sin, some buf =>
    let loop := if sendOk then w.loop else snmpEventDone w.loop
    some {
      loop := snmpEventRemove loop sock flag
      data := { w.data with
        entry := { w.data.entry with buf := none, clientSin := none }
        sent := w.data.sent ++ [(sin, buf)] } }
  | _, _ => none

/-- `transport_send`. -/
def transportSend (buf : ρ) (w : UdpWorld Addr ρ σ) : UdpWorld Addr ρ σ where
  loop := snmpEventAdd w.loop w.data.entry.sock .write .snmpWriteHandler
  data := { w.data with entry := { w.data.entry with buf := some buf } }

/-- `snmp_read_handler`. It blocks on an empty queue. If `recvfrom` fails, the receiving function
stops at its assertion on the length. -/
def snmpReadHandler (receive : σ → List UInt8 → Option (Option ρ × σ)) (recvOk : Bool)
    (w : UdpWorld Addr ρ σ) : Option (UdpWorld Addr ρ σ) :=
  match w.data.queue, recvOk with
  | (client, datagram) :: queue, true =>
    (receive w.data.prot (datagram.take transBufSiz)).map fun (response, prot) =>
      let w := { w with data := { w.data with
        queue := queue
        prot := prot
        entry := { w.data.entry with clientSin := some client } } }
      match response with
      | none => w
      | some buf =>
        transportSend buf
          { w with data := { w.data with produced := w.data.produced ++ [(client, buf)] } }
  | _, _ => none

/-! ### Steps -/

/-- What happens to the transport: a datagram arrives, or the loop makes an iteration, for which it
is given what is ready and whether the calls on the socket succeed. -/
inductive UdpInput (Addr : Type) where
  | arrive (client : Addr) (datagram : List UInt8)
  | poll (ready : Ready) (recvOk sendOk : Bool)

def udpCall (receive : σ → List UInt8 → Option (Option ρ × σ)) (recvOk sendOk : Bool) :
    UdpHandler → Int → EvFlag → UdpWorld Addr ρ σ → Option (UdpWorld Addr ρ σ)
  | .snmpReadHandler => fun _ _ => snmpReadHandler receive recvOk
  | .snmpWriteHandler => snmpWriteHandler sendOk

/-- A step; there is none where the process stops or blocks. -/
def udpStep (receive : σ → List UInt8 → Option (Option ρ × σ)) (w : UdpWorld Addr ρ σ) :
    UdpInput Addr → Option (UdpWorld Addr ρ σ)
  | .arrive client datagram =>
    some { w with data := { w.data with queue := w.data.queue ++ [(client, datagram)] } }
  | .poll ready recvOk sendOk => snmpEventRunStep (udpCall receive recvOk sendOk) ready w

/-- The state when `transport_running` enters its loop. -/
def transportRunning (sock : Int) (prot : σ) : UdpWorld Addr ρ σ where
  loop := snmpEventAdd (snmpEventInit .zero) sock .read .snmpReadHandler
  data := ⟨⟨sock, none, none⟩, [], prot, [], []⟩

/-! ### Responses -/

/-- The socket is registered for a write. -/
def writeRegistered (w : UdpWorld Addr ρ σ) : Bool :=
  w.loop.event.any fun ev => ev.fd = w.data.entry.sock && ev.flagWrite

/-- The response that waits to be sent, and the address it will be sent to. -/
def pending (w : UdpWorld Addr ρ σ) : Option (Addr × ρ) :=
  if writeRegistered w then
    w.data.entry.clientSin.bind fun sin => w.data.entry.buf.map fun buf => (sin, buf)
  else none

/-- Each response that was produced has been passed to `sendto` once, with the address of its
client, in order; the last may still wait, as it was produced, in the entry. -/
def Delivered (w : UdpWorld Addr ρ σ) : Prop :=
  w.data.produced = w.data.sent ++ (pending w).toList

/-- While a response waits, a datagram is read only if it comes from the same client and has no
response. -/
def Undisturbed (receive : σ → List UInt8 → Option (Option ρ × σ)) (w : UdpWorld Addr ρ σ) :
    UdpInput Addr → Prop
  | .arrive _ _ => True
  | .poll ready recvOk _ =>
    w.loop.start = true → ready.readable w.data.entry.sock = true → recvOk = true →
      ∀ waiting, pending w = some waiting →
        ∀ client datagram queue, w.data.queue = (client, datagram) :: queue →
          ∀ response prot, receive w.data.prot (datagram.take transBufSiz) = some (response, prot) →
            client = waiting.1 ∧ response = none

/-- Nothing is read while a response waits. -/
def Quiet (w : UdpWorld Addr ρ σ) : UdpInput Addr → Prop
  | .arrive _ _ => True
  | .poll ready _ _ => (pending w).isNone ∨ ready.readable w.data.entry.sock = false

instance (w : UdpWorld Addr ρ σ) : ∀ i, Decidable (Quiet w i)
  | .arrive _ _ => inferInstanceAs (Decidable True)
  | .poll _ _ _ => inferInstanceAs (Decidable (_ ∨ _))

lemma Quiet.undisturbed (receive : σ → List UInt8 → Option (Option ρ × σ)) {w : UdpWorld Addr ρ σ}
    {i : UdpInput Addr} (h : Quiet w i) : Undisturbed receive w i := by
  cases i with
  | arrive => trivial
  | poll ready recvOk sendOk =>
    intro _ hread _ waiting hwaiting
    rcases h with hnone | hfalse
    · rw [hwaiting] at hnone
      cases hnone
    · rw [hread] at hfalse
      cases hfalse

/-! ### The serving transport -/

/-- The transport while its loop runs: whether a response waits, and the callbacks that are due. -/
def udpServing (wcb : Option UdpHandler) (p read write : Bool) (d : Udp Addr ρ σ) :
    UdpWorld Addr ρ σ :=
  ⟨serving d.entry.sock .snmpReadHandler wcb p read write, d⟩

/-- What waits is there to be sent, and only what waits is due. -/
structure Waiting (wcb : Option UdpHandler) (p write : Bool) (d : Udp Addr ρ σ) : Prop where
  sock : 0 ≤ d.entry.sock
  due : write = true → p = true
  entry : p = true → wcb = some .snmpWriteHandler ∧
    ∃ sin buf, d.entry.clientSin = some sin ∧ d.entry.buf = some buf

/-- The loop was stopped, or it serves the socket and no callback is due. -/
def UdpInv (w : UdpWorld Addr ρ σ) : Prop :=
  (w.loop.start = false ∧ writeRegistered w = false) ∨
    ∃ wcb p, w = udpServing wcb p false false w.data ∧ Waiting wcb p false w.data

lemma writeRegistered_udpServing (wcb : Option UdpHandler) (p read write : Bool)
    {d : Udp Addr ρ σ} (hsock : 0 ≤ d.entry.sock) :
    writeRegistered (udpServing wcb p read write d) = p := by
  have hne : ¬ (-1 : Int) = d.entry.sock := by omega
  simp [writeRegistered, udpServing, serving, Event.free, hne]

lemma pending_udpServing_false (wcb : Option UdpHandler) (read write : Bool) {d : Udp Addr ρ σ}
    (hsock : 0 ≤ d.entry.sock) : pending (udpServing wcb false read write d) = none := by
  rw [pending, writeRegistered_udpServing wcb false read write hsock]
  rfl

lemma pending_udpServing_true (wcb : Option UdpHandler) (read write : Bool) {d : Udp Addr ρ σ}
    (hsock : 0 ≤ d.entry.sock) {sin : Addr} {buf : ρ} (hsin : d.entry.clientSin = some sin)
    (hbuf : d.entry.buf = some buf) :
    pending (udpServing wcb true read write d) = some (sin, buf) := by
  rw [pending, writeRegistered_udpServing wcb true read write hsock]
  simp [udpServing, hsin, hbuf]

lemma writeRegistered_of_stopped {w : UdpWorld Addr ρ σ} (h : w.loop.Stopped) :
    writeRegistered w = false := by
  rw [writeRegistered, List.any_eq_false]
  intro ev hev
  simp [(h.event ev hev).1]

/-- The data after what waits has been passed to `sendto`. -/
def Udp.afterWrite (d : Udp Addr ρ σ) (sin : Addr) (buf : ρ) : Udp Addr ρ σ := { d with
  entry := { d.entry with buf := none, clientSin := none }
  sent := d.sent ++ [(sin, buf)] }

/-- A due write passes what waits to `sendto`, so it delivers as much as before. -/
lemma pollWrite_udpServing (receive : σ → List UInt8 → Option (Option ρ × σ)) (recvOk sendOk : Bool)
    {wcb : Option UdpHandler} {p write : Bool} {d : Udp Addr ρ σ} (h : Waiting wcb p write d) :
    ∃ w', pollWrite (udpCall receive recvOk sendOk) (udpServing wcb p false write d) 0 = some w' ∧
      UdpInv w' ∧ w'.Idle ∧ (Delivered w' ↔ Delivered (udpServing wcb p false write d)) := by
  cases write with
  | false =>
    exact ⟨udpServing wcb p false false d, rfl, .inr ⟨wcb, p, rfl, h⟩, idle_serving, Iff.rfl⟩
  | true =>
    obtain rfl : p = true := h.due rfl
    obtain ⟨rfl, sin, buf, hsin, hbuf⟩ := h.entry rfl
    have hdelivered : ∀ w' : UdpWorld Addr ρ σ, w'.data = d.afterWrite sin buf → pending w' = none →
        (Delivered w' ↔ Delivered (udpServing (some .snmpWriteHandler) true false true d)) := by
      intro w' hdata hnone
      rw [Delivered, Delivered, hdata, hnone,
        pending_udpServing_true (some .snmpWriteHandler) false true h.sock hsin hbuf]
      simp [udpServing, Udp.afterWrite]
    set loop := serving d.entry.sock UdpHandler.snmpReadHandler (some .snmpWriteHandler) true false true
    have hcall : snmpWriteHandler sendOk d.entry.sock .write ⟨loop, d⟩ =
        some ⟨snmpEventRemove (if sendOk then loop else snmpEventDone loop) d.entry.sock .write,
          d.afterWrite sin buf⟩ := by
      simp only [snmpWriteHandler, hsin, hbuf]
      rfl
    have hpoll : pollWrite (udpCall receive recvOk sendOk) ⟨loop, d⟩ 0 = _ :=
      congrArg (Option.map fun w : UdpWorld Addr ρ σ =>
        w.modifySlot 0 fun ev => { ev with write := false }) hcall
    refine ⟨_, hpoll, ?_⟩
    cases sendOk with
    | true =>
      rw [if_pos rfl, snmpEventRemove_serving h.sock]
      refine ⟨.inr ⟨some .snmpWriteHandler, false, rfl, h.sock, by simp, by simp⟩, idle_serving, ?_⟩
      exact hdelivered _ rfl
        (pending_udpServing_false (d := d.afterWrite sin buf) _ false false h.sock)
    | false =>
      have hstop := (stopped_snmpEventDone loop d.entry.sock .write).modifySlot
        (d.afterWrite sin buf) 0
      have hnot := writeRegistered_of_stopped hstop
      refine ⟨.inl ⟨hstop.start, hnot⟩, hstop.idle, hdelivered _ rfl ?_⟩
      exact if_neg (by simpa using hnot)

/-- The data after a datagram has been read and its response, if any, put in the entry. -/
def Udp.afterRead (d : Udp Addr ρ σ) (client : Addr) (queue : List (Addr × List UInt8))
    (response : Option ρ) (prot : σ) : Udp Addr ρ σ := { d with
  entry := { d.entry with buf := response.or d.entry.buf, clientSin := some client }
  queue := queue
  prot := prot
  produced := d.produced ++ (response.map fun buf => (client, buf)).toList }

/-- The callback for writes, once a response has been produced. -/
def writeCbAfter (wcb : Option UdpHandler) (response : Option ρ) : Option UdpHandler :=
  if response.isSome then some .snmpWriteHandler else wcb

lemma pollRead_udpServing {receive : σ → List UInt8 → Option (Option ρ × σ)} (sendOk : Bool)
    (wcb : Option UdpHandler) (p write : Bool) {d : Udp Addr ρ σ} {client : Addr}
    {datagram : List UInt8} {queue : List (Addr × List UInt8)} {response : Option ρ} {prot : σ}
    (hqueue : d.queue = (client, datagram) :: queue)
    (hreceive : receive d.prot (datagram.take transBufSiz) = some (response, prot)) :
    pollRead (udpCall receive true sendOk) (udpServing wcb p true write d) 0 =
      some (udpServing (writeCbAfter wcb response) (p || response.isSome) false write
        (d.afterRead client queue response prot)) := by
  have hcall : snmpReadHandler receive true (udpServing wcb p true write d) =
      some (udpServing (writeCbAfter wcb response) (p || response.isSome) true write
        (d.afterRead client queue response prot)) := by
    simp only [snmpReadHandler, udpServing, hqueue, hreceive, Option.map_some, Option.some.injEq]
    cases response with
    | none => simp [writeCbAfter, Udp.afterRead]
    | some buf => simp [writeCbAfter, Udp.afterRead, transportSend, snmpEventAdd_serving]
  exact congrArg (Option.map fun w : UdpWorld Addr ρ σ =>
    w.modifySlot 0 fun ev => { ev with read := false }) hcall

lemma pollRead_udpServing_eq_none {receive : σ → List UInt8 → Option (Option ρ × σ)}
    {recvOk : Bool} (sendOk : Bool) (wcb : Option UdpHandler) (p write : Bool) {d : Udp Addr ρ σ}
    (h : ∀ client datagram queue response prot, recvOk = true →
      d.queue = (client, datagram) :: queue →
      receive d.prot (datagram.take transBufSiz) ≠ some (response, prot)) :
    pollRead (udpCall receive recvOk sendOk) (udpServing wcb p true write d) 0 = none := by
  have hcall : snmpReadHandler receive recvOk (udpServing wcb p true write d) = none := by
    simp only [snmpReadHandler, udpServing]
    split
    · next client datagram queue hqueue =>
      rw [Option.map_eq_none_iff, Option.eq_none_iff_forall_ne_some]
      rintro ⟨response, prot⟩
      exact h client datagram queue response prot rfl hqueue
    · rfl
  exact congrArg (Option.map fun w : UdpWorld Addr ρ σ =>
    w.modifySlot 0 fun ev => { ev with read := false }) hcall

lemma Waiting.afterRead {wcb : Option UdpHandler} {p write : Bool} {d : Udp Addr ρ σ}
    (h : Waiting wcb p write d) (client : Addr) (queue : List (Addr × List UInt8))
    (response : Option ρ) (prot : σ) :
    Waiting (writeCbAfter wcb response) (p || response.isSome) write
      (d.afterRead client queue response prot) where
  sock := h.sock
  due hwrite := by simp [h.due hwrite]
  entry hp := by
    cases response with
    | none =>
      obtain ⟨hwcb, sin, buf, hsin, hbuf⟩ := h.entry (by simpa using hp)
      exact ⟨hwcb, client, buf, rfl, hbuf⟩
    | some buf => exact ⟨rfl, client, buf, rfl, rfl⟩

/-- A read keeps what is delivered exactly if nothing waits that it disturbs. -/
lemma delivered_afterRead_iff {wcb : Option UdpHandler} {p write : Bool} {d : Udp Addr ρ σ}
    (h : Waiting wcb p write d) (client : Addr) (queue : List (Addr × List UInt8))
    (response : Option ρ) (prot : σ) (hd : Delivered (udpServing wcb p true write d)) :
    Delivered (udpServing (writeCbAfter wcb response) (p || response.isSome) false write
        (d.afterRead client queue response prot)) ↔
      ∀ waiting, pending (udpServing wcb p true write d) = some waiting →
        client = waiting.1 ∧ response = none := by
  have hsock : 0 ≤ (d.afterRead client queue response prot).entry.sock := h.sock
  rw [Delivered] at hd ⊢
  cases p with
  | false =>
    rw [pending_udpServing_false wcb true write h.sock] at hd ⊢
    simp only [udpServing, Option.toList_none, List.append_nil] at hd
    refine iff_of_true ?_ (by simp)
    cases response with
    | none =>
      rw [Option.isSome_none, Bool.false_or, pending_udpServing_false _ false write hsock]
      simpa [udpServing, Udp.afterRead] using hd
    | some buf =>
      rw [Option.isSome_some, Bool.false_or, pending_udpServing_true _ false write hsock rfl rfl]
      simp [udpServing, Udp.afterRead, hd]
  | true =>
    obtain ⟨rfl, sin, buf, hsin, hbuf⟩ := h.entry rfl
    rw [pending_udpServing_true _ true write h.sock hsin hbuf] at hd ⊢
    simp only [udpServing, Option.toList_some] at hd
    cases response with
    | none =>
      rw [Bool.true_or, pending_udpServing_true _ false write hsock rfl hbuf]
      simp [udpServing, Udp.afterRead, hd, eq_comm]
    | some resp =>
      rw [Bool.true_or, pending_udpServing_true _ false write hsock rfl rfl]
      simp [udpServing, Udp.afterRead, hd]

/-! ### Polls -/

section Polls

variable {receive : σ → List UInt8 → Option (Option ρ × σ)} {ready : Ready} {recvOk sendOk : Bool}
  {wcb : Option UdpHandler} {p : Bool} {d : Udp Addr ρ σ}

lemma evPoll_udpServing :
    ({ udpServing wcb p false false d with
      loop := evPoll ready (udpServing wcb p false false d).loop } : UdpWorld Addr ρ σ) =
    udpServing wcb p (ready.readable d.entry.sock) (p && ready.writable d.entry.sock) d := by
  simp [udpServing, evPoll_serving]

/-- After the read of an iteration comes its write. -/
lemma udpStep_poll_of_read {wcb' : Option UdpHandler} {p' write : Bool} {d' : Udp Addr ρ σ}
    (hread : pollRead (udpCall receive recvOk sendOk) (udpServing wcb p
      (ready.readable d.entry.sock) (p && ready.writable d.entry.sock) d) 0 =
        some (udpServing wcb' p' false write d'))
    (hwait : Waiting wcb' p' write d') :
    ∃ w', udpStep receive (udpServing wcb p false false d) (.poll ready recvOk sendOk) = some w' ∧
      UdpInv w' ∧ (Delivered w' ↔ Delivered (udpServing wcb' p' false write d')) := by
  obtain ⟨w', hwrite, hinv, hidle, hdelivered⟩ := pollWrite_udpServing receive recvOk sendOk hwait
  refine ⟨w', ?_, hinv, hdelivered⟩
  have hslot : pollSlot (udpCall receive recvOk sendOk) { udpServing wcb p false false d with
      loop := evPoll ready (udpServing wcb p false false d).loop } 0 = some w' := by
    rw [evPoll_udpServing, pollSlot, hread, Option.bind_some, hwrite]
  rw [← hslot]
  apply snmpEventPoll_eq _
  intro w hw
  obtain rfl : w' = w := Option.some.inj (hslot.symm.trans hw)
  exact hidle

lemma udpStep_poll_eq_none
    (hread : pollRead (udpCall receive recvOk sendOk) (udpServing wcb p
      (ready.readable d.entry.sock) (p && ready.writable d.entry.sock) d) 0 = none) :
    udpStep receive (udpServing wcb p false false d) (.poll ready recvOk sendOk) = none := by
  have hslot : pollSlot (udpCall receive recvOk sendOk) { udpServing wcb p false false d with
      loop := evPoll ready (udpServing wcb p false false d).loop } 0 = none := by
    rw [evPoll_udpServing, pollSlot, hread, Option.bind_none]
  rw [← hslot]
  apply snmpEventPoll_eq _
  intro w hw
  rw [hslot] at hw
  cases hw

/-- An iteration reads nothing, or it reads a datagram, or it does not return. In the first two
cases it keeps the invariant, and what it delivers is known. -/
lemma udpStep_poll_cases (receive : σ → List UInt8 → Option (Option ρ × σ)) (ready : Ready)
    (recvOk sendOk : Bool) (h : Waiting wcb p false d) :
    (ready.readable d.entry.sock = false ∧
      ∃ w', udpStep receive (udpServing wcb p false false d) (.poll ready recvOk sendOk) = some w' ∧
        UdpInv w' ∧ (Delivered w' ↔ Delivered (udpServing wcb p false false d))) ∨
    (ready.readable d.entry.sock = true ∧ recvOk = true ∧
      ∃ client datagram queue response prot, d.queue = (client, datagram) :: queue ∧
        receive d.prot (datagram.take transBufSiz) = some (response, prot) ∧
        ∃ w', udpStep receive (udpServing wcb p false false d) (.poll ready recvOk sendOk) =
            some w' ∧ UdpInv w' ∧
          (Delivered (udpServing wcb p false false d) → (Delivered w' ↔
            ∀ waiting, pending (udpServing wcb p false false d) = some waiting →
              client = waiting.1 ∧ response = none))) ∨
    (udpStep receive (udpServing wcb p false false d) (.poll ready recvOk sendOk) = none ∧
      ∀ client datagram queue response prot, recvOk = true → d.queue = (client, datagram) :: queue →
        receive d.prot (datagram.take transBufSiz) ≠ some (response, prot)) := by
  have hwait : Waiting wcb p (p && ready.writable d.entry.sock) d :=
    ⟨h.sock, fun hwrite => (Bool.and_eq_true_iff.mp hwrite).1, h.entry⟩
  cases hready : ready.readable d.entry.sock with
  | false =>
    have hpoll : pollRead (udpCall receive recvOk sendOk) (udpServing wcb p
        (ready.readable d.entry.sock) (p && ready.writable d.entry.sock) d) 0 =
          some (udpServing wcb p false (p && ready.writable d.entry.sock) d) := by
      rw [hready]
      rfl
    obtain ⟨w', hstep, hinv, hdelivered⟩ := udpStep_poll_of_read hpoll hwait
    exact .inl ⟨rfl, w', hstep, hinv, hdelivered⟩
  | true =>
    by_cases hread : ∃ client datagram queue response prot, recvOk = true ∧
        d.queue = (client, datagram) :: queue ∧
        receive d.prot (datagram.take transBufSiz) = some (response, prot)
    · obtain ⟨client, datagram, queue, response, prot, rfl, hqueue, hreceive⟩ := hread
      refine .inr (.inl ⟨rfl, rfl, client, datagram, queue, response, prot, hqueue, hreceive, ?_⟩)
      have hpoll : pollRead (udpCall receive true sendOk) (udpServing wcb p
          (ready.readable d.entry.sock) (p && ready.writable d.entry.sock) d) 0 =
            some (udpServing (writeCbAfter wcb response) (p || response.isSome) false
              (p && ready.writable d.entry.sock) (d.afterRead client queue response prot)) := by
        rw [hready]
        exact pollRead_udpServing sendOk wcb p _ hqueue hreceive
      obtain ⟨w', hstep, hinv, hdelivered⟩ := udpStep_poll_of_read hpoll
        (hwait.afterRead client queue response prot)
      refine ⟨w', hstep, hinv, fun hd => hdelivered.trans ?_⟩
      exact delivered_afterRead_iff hwait client queue response prot hd
    · push Not at hread
      refine .inr (.inr ⟨udpStep_poll_eq_none ?_, hread⟩)
      rw [hready]
      exact pollRead_udpServing_eq_none sendOk wcb p _ hread

end Polls

lemma udpInv_transportRunning {sock : Int} (hsock : 0 ≤ sock) (prot : σ) :
    UdpInv (transportRunning sock prot : UdpWorld Addr ρ σ) := by
  refine .inr ⟨none, false, ?_, hsock, by simp, by simp⟩
  simp only [transportRunning, serving_of_init hsock]
  rfl

/-- The steps of the transport: the invariant is kept, and what is delivered stays so exactly if
what waits is not disturbed. -/
lemma udpStep_spec (receive : σ → List UInt8 → Option (Option ρ × σ)) {w : UdpWorld Addr ρ σ}
    (h : UdpInv w) (i : UdpInput Addr) :
    (∃ w', udpStep receive w i = some w' ∧ UdpInv w' ∧
      (Delivered w → (Delivered w' ↔ Undisturbed receive w i))) ∨
    (udpStep receive w i = none ∧ Undisturbed receive w i) := by
  cases i with
  | arrive client datagram =>
    refine .inl ⟨_, rfl, ?_, fun hd => iff_of_true hd trivial⟩
    rcases h with hstop | ⟨wcb, p, hw, hwait⟩
    · exact .inl hstop
    · refine .inr ⟨wcb, p, ?_, hwait.sock, hwait.due, hwait.entry⟩
      rw [hw]
      rfl
  | poll ready recvOk sendOk =>
    rcases h with hstop | ⟨wcb, p, hw, hwait⟩
    · refine .inl ⟨w, ?_, .inl hstop, fun hd => iff_of_true hd fun hstart => ?_⟩
      · simp [udpStep, snmpEventRunStep, hstop.1]
      · rw [hstop.1] at hstart
        cases hstart
    · generalize w.data = d at hw hwait
      subst hw
      rcases udpStep_poll_cases receive ready recvOk sendOk hwait with ⟨hready, w', hstep, hinv, hd⟩ |
        ⟨hready, rfl, client, datagram, queue, response, prot, hqueue, hreceive, w', hstep, hinv,
          hd⟩ | ⟨hnone, hfail⟩
      · refine .inl ⟨w', hstep, hinv, fun hdel => iff_of_true (hd.mpr hdel) fun _ hread => ?_⟩
        rw [show (udpServing wcb p false false d).data = d from rfl, hready] at hread
        cases hread
      · refine .inl ⟨w', hstep, hinv, fun hdel => (hd hdel).trans ⟨fun hall => ?_, fun hall => ?_⟩⟩
        · intro _ _ _ waiting hwaiting client' datagram' queue' hqueue' response' prot' hreceive'
          obtain ⟨⟨rfl, rfl⟩, rfl⟩ := by simpa using hqueue.symm.trans hqueue'
          obtain ⟨rfl, rfl⟩ := by simpa using hreceive.symm.trans hreceive'
          exact hall waiting hwaiting
        · intro waiting hwaiting
          exact hall rfl hready rfl waiting hwaiting client datagram queue hqueue response prot hreceive
      · refine .inr ⟨hnone, ?_⟩
        intro _ _ hrecv _ _ client datagram queue hqueue response prot hreceive
        exact absurd hreceive (hfail client datagram queue response prot hrecv hqueue)

/-- In every run of the transport, each response is delivered in all the states reached exactly if
no datagram is read that disturbs a response which waits. -/
theorem udp_delivered_iff (receive : σ → List UInt8 → Option (Option ρ × σ)) {sock : Int}
    (hsock : 0 ≤ sock) (prot : σ) (inputs : List (UdpInput Addr)) :
    Always (udpStep receive) Delivered (transportRunning sock prot : UdpWorld Addr ρ σ) inputs ↔
      EachStep (udpStep receive) (Undisturbed receive) (transportRunning sock prot) inputs := by
  refine always_iff_eachStep UdpInv (fun w i hinv => udpStep_spec receive hinv i)
    (udpInv_transportRunning hsock prot) ?_ inputs
  have hpending : pending (transportRunning sock prot : UdpWorld Addr ρ σ) = none := by
    simp only [transportRunning, serving_of_init hsock]
    exact pending_udpServing_false (d := ⟨⟨sock, none, none⟩, [], prot, [], []⟩) none false false
      hsock
  rw [Delivered, hpending]
  rfl

/-! ### The agent on the transport -/

/-- `snmpd_recv` as the receiving function; its state are the calls of handlers so far. -/
def snmpdReceive (handlers : Handlers) (root : MibNode) (mv : MibViews) (calls : List Call)
    (buffer : List UInt8) : Option (Option Response × List Call) :=
  match snmpdRecv handlers root mv buffer calls with
  | (.ok response, calls) => some (response.map Prod.snd, calls)
  | _ => none

/-- A GET request of version 2c for 1.0 of the community of `sampleViews`. -/
def sampleRequest : List UInt8 :=
  [0x30, 0x1a, 0x02, 0x01, 0x01, 0x04, 0x01, 0x70, 0xa0, 0x12, 0x02, 0x01, 0x07, 0x02, 0x01, 0x00,
    0x02, 0x01, 0x00, 0x30, 0x07, 0x30, 0x05, 0x06, 0x01, 0x28, 0x05, 0x00]

/-- The socket is found readable, and writable or not. -/
def sampleReady (writable : Bool) : Ready := ⟨fun _ => true, fun _ => writable⟩

/-- A request of client 1 and a datagram of client 2 that is no message; both are read before the
socket is written to. -/
def sampleArrivals : List (UdpInput Nat) :=
  [.arrive 1 sampleRequest, .arrive 2 [0x31], .poll (sampleReady false) true true,
    .poll (sampleReady true) true true]

/-- The clients that responses were produced for, and those they were sent to. -/
def clients (w : UdpWorld Nat Response (List Call)) : List Nat × List Nat :=
  (w.data.produced.map Prod.fst, w.data.sent.map Prod.fst)

/-- The response to client 1 is sent to client 2. -/
theorem udp_misdirected :
    (run (udpStep (snmpdReceive scalarHandlers oneInstance sampleViews)) (transportRunning 3 [])
      sampleArrivals).map clients = some ([1], [2]) ∧
    ¬ Always (udpStep (snmpdReceive scalarHandlers oneInstance sampleViews)) Delivered
      (transportRunning 3 []) sampleArrivals := by
  have hrun : (run (udpStep (snmpdReceive scalarHandlers oneInstance sampleViews))
      (transportRunning 3 []) sampleArrivals).map clients = some ([1], [2]) := by
    decide +kernel
  refine ⟨hrun, ?_⟩
  intro h
  obtain ⟨w, hw, hclients⟩ := Option.map_eq_some_iff.mp hrun
  rw [← List.append_nil sampleArrivals] at h
  have hd : Delivered w := h.of_run hw
  have hfst := congrArg (List.map Prod.fst) hd
  simp only [clients, Prod.mk.injEq] at hclients
  rw [List.map_append, hclients.1, hclients.2] at hfst
  cases hfst

/-- The socket is found writable only. -/
def sampleDrain : UdpInput Nat := .poll ⟨fun _ => false, fun _ => true⟩ true true

/-- Requests of two clients, each of which is answered before the next datagram is read. -/
def sampleTurns : List (UdpInput Nat) :=
  [.arrive 1 sampleRequest, .arrive 2 sampleRequest, .poll (sampleReady false) true true, sampleDrain,
    .poll (sampleReady false) true true, sampleDrain]

/-- Each client is sent its response. -/
theorem udp_delivered_iff_sampleTurns : (0 : Int) ≤ 3 ∧
    Always (udpStep (snmpdReceive scalarHandlers oneInstance sampleViews)) Delivered
      (transportRunning 3 []) sampleTurns ∧
    (run (udpStep (snmpdReceive scalarHandlers oneInstance sampleViews)) (transportRunning 3 [])
      sampleTurns).map clients = some ([1, 2], [1, 2]) := by
  have hquiet : EachStep (udpStep (snmpdReceive scalarHandlers oneInstance sampleViews)) Quiet
      (transportRunning 3 []) sampleTurns := by decide +kernel
  refine ⟨by decide, (udp_delivered_iff _ (by decide) _ _).mpr ?_, by decide +kernel⟩
  exact hquiet.mono fun _ _ h => h.undisturbed _

end SmartSnmp
