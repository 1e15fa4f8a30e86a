import Rustee.VirtHal

/-!
# Whose bytes are in the buffer of the accepted connection

`push_rw` compares the CIDs and the guest's port of a packet with those of the connection, but not
the port of the sender, and `accept_connect` replaces the old connection by a new one. So the
buffer holds the bytes of its own connection exactly as long as no other connection of the host is
heard.
-/

namespace Rustee.Virt

open List VirtHal VsockConn

open Os (HalError)

/-! ### What is accepted -/

/-- The requests `accept` answers. -/
def VsockListener.Accepts (l : VsockListener) (req : VirtioVsockHdr) : Prop :=
  l.listening = true ∧ req.op = VIRTIO_VSOCK_OP_REQUEST ∧ req.ty = VIRTIO_VSOCK_TYPE_STREAM ∧
    req.dstCid = l.cid.toUInt64 ∧ req.dstPort = l.port

instance (l : VsockListener) (req : VirtioVsockHdr) : Decidable (l.Accepts req) :=
  inferInstanceAs (Decidable (_ ∧ _))

theorem acceptConnect_of_accepts {h : VirtHal} {req : VirtioVsockHdr}
    (haccepts : h.listener.Accepts req) :
    ∃ resp, acceptConnect req h =
      (.ok resp, { h with conn := some (fromAccept req h.listener) }) := by
  obtain ⟨hlistening, hop, hty, hcid, hport⟩ := haccepts
  have haccept : ∃ resp, h.listener.accept req = .ok resp := by
    simp [VsockListener.accept, hlistening, hop, hty, hcid, hport]
  obtain ⟨resp, hresp⟩ := haccept
  refine ⟨resp, ?_⟩
  rw [acceptConnect, hresp]

theorem acceptConnect_of_not {h : VirtHal} {req : VirtioVsockHdr}
    (hrefuses : ¬ h.listener.Accepts req) : ∃ e, acceptConnect req h = (.err e, h) := by
  have haccept : ∃ e, h.listener.accept req = .error e := by
    rw [VsockListener.accept]
    split
    · exact ⟨_, rfl⟩
    · rename_i hlistening
      split
      · exact ⟨_, rfl⟩
      · rename_i hreq
        exfalso
        apply hrefuses
        simpa [VsockListener.Accepts, not_or] using And.intro hlistening hreq
  obtain ⟨e, he⟩ := haccept
  refine ⟨e, ?_⟩
  rw [acceptConnect, he]

/-- `take_pdu` takes bytes from the front only. -/
theorem takeRx_drop (rx : Bytes) : ∃ n, (takeRx rx).2 = rx.drop n := by
  have hsame : ∃ n, rx = rx.drop n := ⟨0, rfl⟩
  rw [takeRx]
  split
  · exact hsame
  · split
    · exact hsame
    · split
      · exact hsame
      · dsimp only
        split
        · exact hsame
        · split
          · exact ⟨_, rfl⟩
          · exact ⟨_, rfl⟩

/-! ### Packets of several connections -/

/-- A packet arrives, or the guest tries to take a PDU. -/
inductive HalStep where
  | packet (hdr : VirtioVsockHdr) (payload : Bytes)
  | take
deriving Repr, DecidableEq

/-- The HAL and the bytes `take_pdu` has drained so far. -/
structure Flow where
  hal : VirtHal
  drained : Bytes

/-- A packet goes to `accept_connect` or `push_host_rw` by its op. -/
def VirtHal.receive (hdr : VirtioVsockHdr) (payload : Bytes) (h : VirtHal) : VirtHal :=
  if hdr.op = VIRTIO_VSOCK_OP_REQUEST then (acceptConnect hdr h).2
  else if hdr.op = VIRTIO_VSOCK_OP_RW then (pushHostRw hdr payload h).2
  else h

namespace Flow

def step (f : Flow) : HalStep → Flow
  | .packet hdr payload => { f with hal := f.hal.receive hdr payload }
  | .take => match f.hal.conn with
    | none => f
    | some c =>
      let c' := (takePdu c).2
      ⟨{ f.hal with conn := some c' }, f.drained ++ c.rx.take (c.rx.length - c'.rx.length)⟩

def run (f : Flow) : List HalStep → Flow
  | [] => f
  | s :: steps => (f.step s).run steps

theorem run_concat (f : Flow) (steps : List HalStep) (s : HalStep) :
    f.run (steps ++ [s]) = (f.run steps).step s := by
  induction steps generalizing f with
  | nil => rfl
  | cons s' steps ih => exact ih (f.step s')

end Flow

/-- The guest has taken an ENTER and not yet sent its COMPLETE. -/
def VirtHal.Outstanding (h : VirtHal) : Prop := h.gate.yielding = true

/-- Since `h` the listener is the same, a call is outstanding if one was, the connection is still
the accepted one, and the bytes drained and buffered are the given ones. -/
def Carries (h : VirtHal) (c : VsockConn) (stream : Bytes) (f : Flow) : Prop :=
  f.hal.listener = h.listener ∧ (f.hal.Outstanding ↔ h.Outstanding) ∧
    ∃ c', f.hal.conn = some c' ∧ c.SameEnds c' ∧ f.drained ++ c'.rx = stream

def Own (c : VsockConn) (hdr : VirtioVsockHdr) (payload : Bytes) : Prop :=
  hdr.srcPort = c.hostPort ∧ c.Takes hdr payload

def Foreign (c : VsockConn) (hdr : VirtioVsockHdr) : Prop :=
  hdr.srcPort ≠ c.hostPort ∧ (hdr.op = VIRTIO_VSOCK_OP_REQUEST ∨ hdr.op = VIRTIO_VSOCK_OP_RW)

/-- The packet is a REQUEST the listener answers, or an RW packet with bytes from the CID
of the connection. -/
def Intrudes (l : VsockListener) (c : VsockConn) (hdr : VirtioVsockHdr) (payload : Bytes) :
    Prop :=
  l.Accepts hdr ∨ (c.Takes hdr payload ∧ payload ≠ [])

def sentOn (c : VsockConn) : List HalStep → Bytes
  | [] => []
  | .packet hdr payload :: steps =>
    (if hdr.srcPort = c.hostPort then payload else []) ++ sentOn c steps
  | .take :: steps => sentOn c steps

theorem sentOn_concat (c : VsockConn) (steps : List HalStep) (s : HalStep) :
    sentOn c (steps ++ [s]) = sentOn c steps ++ sentOn c [s] := by
  induction steps with
  | nil => rfl
  | cons s' steps ih =>
    cases s' with
    | packet => rw [cons_append, sentOn, ih, sentOn, append_assoc]
    | take => exact ih

section Steps

variable {h0 : VirtHal} {c : VsockConn} {stream : Bytes} {f : Flow}

theorem Carries.take (h : Carries h0 c stream f) : Carries h0 c stream (f.step .take) := by
  obtain ⟨hl, hcall, c', hconn, hends, hstream⟩ := h
  obtain ⟨n, hn⟩ := takeRx_drop c'.rx
  have hafter : (takePdu c').2 = { c' with rx := c'.rx.drop n } := by
    rw [takePdu, hn]
  have hdrained : c'.rx.take (c'.rx.length - (c'.rx.drop n).length) ++ c'.rx.drop n = c'.rx := by
    rw [length_drop]
    by_cases hle : n ≤ c'.rx.length
    · rw [Nat.sub_sub_self hle, take_append_drop]
    · rw [drop_eq_nil_of_le (by omega), append_nil]
      exact take_of_length_le (by omega)
  simp only [Flow.step, hconn, hafter]
  refine ⟨hl, hcall, _, rfl, hends, ?_⟩
  simp only
  rw [append_assoc, hdrained, hstream]

variable {hdr : VirtioVsockHdr}

variable {payload : Bytes}

theorem Carries.takes (h : Carries h0 c stream f) (htakes : c.Takes hdr payload) :
    Carries h0 c (stream ++ payload) (f.step (.packet hdr payload)) := by
  obtain ⟨hl, hcall, c', hconn, hends, hstream⟩ := h
  have hop : hdr.op = VIRTIO_VSOCK_OP_RW := htakes.1
  have hpush : pushHostRw hdr payload f.hal = (.ok (), { f.hal with
      conn := some { c' with rx := c'.rx ++ payload, fwdCnt := c'.fwdCnt + hdr.len } }) := by
    rw [pushHostRw, onConn, hconn]
    simp only [pushRw, if_pos (hends.takes.mpr htakes)]
  have hne : ¬ hdr.op = VIRTIO_VSOCK_OP_REQUEST := by
    rw [hop]
    decide
  simp only [Flow.step, receive, if_neg hne, if_pos hop, hpush]
  refine ⟨hl, hcall, _, rfl, hends, ?_⟩
  simp only
  rw [← append_assoc, hstream]

theorem Carries.ignored (h : Carries h0 c stream f)
    (hquiet : ¬ Intrudes h0.listener c hdr payload) :
    Carries h0 c stream (f.step (.packet hdr payload)) := by
  have hrequest : ¬ h0.listener.Accepts hdr := fun haccepts => hquiet (.inl haccepts)
  by_cases htakes : c.Takes hdr payload
  · have hempty : payload = [] := by
      by_contra hne
      exact hquiet (.inr ⟨htakes, hne⟩)
    subst hempty
    simpa using h.takes htakes
  · obtain ⟨hl, hcall, c', hconn, hends, hstream⟩ := h
    have hsame : f.hal.receive hdr payload = f.hal := by
      rw [receive]
      split
      · rw [← hl] at hrequest
        obtain ⟨e, he⟩ := acceptConnect_of_not hrequest
        rw [he]
      · split
        · rw [pushHostRw, onConn, hconn]
          simp only [pushRw, if_neg (hends.takes.not.mpr htakes)]
          rw [← hconn]
        · rfl
    simp only [Flow.step, hsame]
    exact ⟨hl, hcall, c', hconn, hends, hstream⟩

end Steps

def Merged (c : VsockConn) (steps : List HalStep) : Prop :=
  ∀ hdr payload, .packet hdr payload ∈ steps → Own c hdr payload ∨ Foreign c hdr

def Undisturbed (l : VsockListener) (c : VsockConn) (steps : List HalStep) : Prop :=
  ∀ hdr payload, .packet hdr payload ∈ steps → hdr.srcPort ≠ c.hostPort → ¬ Intrudes l c hdr payload

theorem run_carries {h0 : VirtHal} {c : VsockConn} {steps : List HalStep}
    (hmerged : Merged c steps) (hquiet : Undisturbed h0.listener c steps) {stream : Bytes}
    {f : Flow} (h : Carries h0 c stream f) :
    Carries h0 c (stream ++ sentOn c steps) (f.run steps) := by
  induction steps generalizing stream f with
  | nil =>
    rw [sentOn, append_nil]
    exact h
  | cons s steps ih =>
    have hmerged' : Merged c steps := fun hdr payload hmem =>
      hmerged hdr payload (mem_cons_of_mem _ hmem)
    have hquiet' : Undisturbed h0.listener c steps := fun hdr payload hmem =>
      hquiet hdr payload (mem_cons_of_mem _ hmem)
    rw [Flow.run]
    cases s with
    | take => exact ih hmerged' hquiet' h.take
    | packet hdr payload =>
      rw [sentOn]
      rcases hmerged hdr payload mem_cons_self with ⟨hport, htakes⟩ | ⟨hport, -⟩
      · rw [if_pos hport, ← append_assoc]
        exact ih hmerged' hquiet' (h.takes htakes)
      · rw [if_neg hport, nil_append]
        exact ih hmerged' hquiet' (h.ignored (hquiet hdr payload mem_cons_self hport))

theorem not_carries_of_intrudes {h0 : VirtHal} {c : VsockConn} {stream : Bytes} {f : Flow}
    (h : Carries h0 c stream f)
    (hport : hdr.srcPort ≠ c.hostPort) (hintrudes : Intrudes h0.listener c hdr payload) :
    ¬ Carries h0 c stream (f.step (.packet hdr payload)) := by
  intro hafter
  rcases hintrudes with haccepts | ⟨htakes, hne⟩
  · obtain ⟨hl, -⟩ := h
    rw [← hl] at haccepts
    obtain ⟨resp, hresp⟩ := acceptConnect_of_accepts haccepts
    obtain ⟨-, -, c', hconn, ⟨-, -, -, hsame⟩, -⟩ := hafter
    simp only [Flow.step, receive, if_pos haccepts.2.1, hresp] at hconn
    cases hconn
    exact hport hsame
  · obtain ⟨-, -, c1, hconn1, -, hstream1⟩ := h.takes htakes
    obtain ⟨-, -, c2, hconn2, -, hstream2⟩ := hafter
    cases hconn1.symm.trans hconn2
    rw [hstream2] at hstream1
    exact hne (append_right_eq_self.mp hstream1.symm)

/-- A connection with a call outstanding. -/
def sampleHal : VirtHal :=
  { init with conn := some sampleConn, gate := { init.gate with yielding := true } }

end Rustee.Virt
