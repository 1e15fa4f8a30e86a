import Mathlib.Algebra.GroupWithZero.Nat
import Rustee.GuestCalls

/-!
# What the guest sends, against the credit of the host

The loop never looks at `buf_alloc` and `fwd_cnt` of the packets it receives
(`onPacket_ignores_credit`): an answer goes out at once, as one RW packet. A packet draws at most
one answer, of a size known before it is handled (`answerBound`). So the credit is kept in the
runs in which the host leaves room for it.
-/

namespace Rustee.Guest

open Os Virt Attempt Fallible VirtHal Prod GuestState List

variable {κ : Type}

/-! ### One answer at most -/

/-- Nothing was sent, or one PDU of at most `n` bytes. -/
def Adds (n : Nat) (g g' : GuestState κ) : Prop :=
  emitted g' = emitted g ∨ ∃ pdu, emitted g' = emitted g ++ [pdu] ∧ pdu.length ≤ n

variable {g g' : GuestState κ} {n : Nat} (K : GuestKernel κ)

theorem Adds.mono {n' : Nat} (h : Adds n g g') (hle : n ≤ n') : Adds n' g g' := by
  rcases h with hsame | ⟨pdu, hpdu, hlen⟩
  · exact .inl hsame
  · exact .inr ⟨pdu, hpdu, Nat.le_trans hlen hle⟩

section
variable {g1 g2 : GuestState κ}

theorem Adds.of_eq (heq : emitted g2 = emitted g1) (h : Adds n g2 g') : Adds n g1 g' := by
  rw [Adds, heq] at h
  exact h

theorem Adds.to_eq (h : Adds n g g1) (heq : emitted g2 = emitted g1) : Adds n g g2 := by
  rw [Adds, heq]
  exact h

end

def untouched : Frame (GuestState κ) where
  rel g g' := g'.hal.gate = g.hal.gate ∧ emitted g' = emitted g
  refl _ := ⟨rfl, rfl⟩
  trans h h' := ⟨h'.1.trans h.1, h'.2.trans h.2⟩

section Answer

variable {build : Build} {α : Type} {g : GuestState κ}

section
variable (x : Attempt VirtHal HalError α) (g : GuestState κ)

theorem onHal_eq : (onHal x g).2 = { g with hal := (x g.hal).2 } := by
  rw [onHal]
  obtain ⟨r, h, hx⟩ : ∃ r h, x g.hal = (r, h) := ⟨_, _, rfl⟩
  rw [hx]
  cases r with
  | ok | err | panic => rfl

theorem emitted_onHal : emitted (onHal x g).2 = emitted g := by
  rw [onHal_eq]
  rfl

end

/-- The rule for a program that first does something that sends nothing. -/
theorem adds_bind {n : Nat} {β : Type} {x : GM κ α} {f : α → GM κ β}
    (hx : emitted (x g).2 = emitted g)
    (hf : ∀ a g', x g = (.ok a, g') → Adds n g' (f a g').2) : Adds n g ((x >>= f) g).2 := by
  obtain ⟨r, g', hrun⟩ : ∃ r g', x g = (r, g') := ⟨_, _, rfl⟩
  rw [hrun] at hx
  cases r with
  | ok a =>
    rw [bind_of_ok hrun]
    exact (hf a g' hrun).of_eq hx
  | err =>
    rw [bind_of_err hrun]
    exact .inl hx
  | panic =>
    rw [bind_of_panic hrun]
    exact .inl hx

theorem adds_then {n : Nat} {x : GM κ Unit} {f : Unit → GM κ Unit}
    (hx : Adds n g (x g).2) (hf : ∀ g', emitted (f () g').2 = emitted g') :
    Adds n g ((x >>= f) g).2 := by
  obtain ⟨r, g', hrun⟩ : ∃ r g', x g = (r, g') := ⟨_, _, rfl⟩
  rw [hrun] at hx
  cases r with
  | ok =>
    rw [bind_of_ok hrun]
    exact hx.to_eq (hf g')
  | err =>
    rw [bind_of_err hrun]
    exact hx
  | panic =>
    rw [bind_of_panic hrun]
    exact hx

variable {bounce : Bytes}

theorem txBounce_length {pool : Pool} {cookie : UInt64} {len : UInt32}
    (h : txBounce build pool cookie len = .ok bounce) : bounce.length ≤ len.toNat := by
  rw [txBounce] at h
  cases hstop : (usizeAdd build cookie len.toUInt64 : Fallible HalError UInt64) with
  | ok =>
    rw [hstop, ok_bind] at h
    split_ifs at h
    · have hbounce := ok.inj h
      subst hbounce
      exact Nat.le_of_eq (Pool.length_get _ _ _)
    · have hbounce := ok.inj h
      subst hbounce
      exact Nat.zero_le _
  | err | panic =>
    rw [hstop] at h
    cases h

variable {frame : CallFrame} {hdr : PduHeader} {h h' : VirtHal}

theorem takeTx_length {hdr' : PduHeader} {frame' : CallFrame} (htx : h.gate.tx = some (hdr, frame))
    (htake : takeTx build h = (.ok (some (hdr', frame', bounce)), h')) :
    bounce.length ≤ hdr.bounceLen.toNat := by
  rw [takeTx, htx] at htake
  dsimp only at htake
  have hresult := (mk.inj htake).1
  cases hbounce : txBounce build h.mem.pool h.gate.lastCookie hdr.bounceLen with
  | ok b =>
    rw [hbounce, ok_bind] at hresult
    have hparts := Option.some.inj (ok.inj hresult)
    have hb : b = bounce := (mk.inj (mk.inj hparts).2).2
    rw [← hb]
    exact txBounce_length hbounce
  | err | panic =>
    rw [hbounce] at hresult
    cases hresult

theorem onHal_eq_ok {x : Attempt VirtHal HalError α} {a : α} {g' : GuestState κ}
    (h : onHal x g = (.ok (.ok a), g')) :
    ∃ h', x g.hal = (.ok a, h') ∧ g' = { g with hal := h' } := by
  rw [onHal] at h
  obtain ⟨r, h', hx⟩ : ∃ r h', x g.hal = (r, h') := ⟨_, _, rfl⟩
  rw [hx] at h
  cases r with
  | ok b =>
    have hb : b = a := Except.ok.inj (ok.inj (mk.inj h).1)
    rw [hb] at hx
    exact ⟨h', hx, (mk.inj h).2.symm⟩
  | err | panic => cases (mk.inj h).1

theorem wrapOutgoing_op {payload : Bytes} {vh : VirtioVsockHdr}
    (hwrap : wrapOutgoing payload h = (.ok vh, h')) : vh.op = VIRTIO_VSOCK_OP_RW := by
  rw [wrapOutgoing, onConn] at hwrap
  cases hconn : h.conn with
  | none =>
    rw [hconn] at hwrap
    cases (mk.inj hwrap).1
  | some =>
    rw [hconn] at hwrap
    have hvh := ok.inj (mk.inj hwrap).1
    rw [← hvh]
    rfl

theorem completeStream_sent {vh : VirtioVsockHdr}
    {pdu : Bytes} (hstream : completeStream build frame h = (.ok (vh, pdu), h')) :
    vh.op = VIRTIO_VSOCK_OP_RW ∧
      pdu.length ≤ PDU_HDR_LEN + CALL_FRAME_LEN + h.gate.lastBounceLen.toNat := by
  rw [completeStream] at hstream
  obtain ⟨_, h1, hgate, hstream⟩ := bind_eq_ok hstream
  have hh1 := (mk.inj hgate).2
  obtain ⟨tx, h2, htake, hstream⟩ := bind_eq_ok hstream
  cases tx with
  | none => cases (mk.inj hstream).1
  | some parts =>
    obtain ⟨hdr, out, bounce⟩ := parts
    have htx : h1.gate.tx = some (⟨KIND_COMPLETE, h.gate.seq, UInt32.ofNat CALL_FRAME_LEN,
        h.gate.lastBounceLen⟩, frame) := by
      rw [← hh1]
      rfl
    have hbounce := takeTx_length htx htake
    obtain ⟨vh', h3, hwrap, hstream⟩ := bind_eq_ok hstream
    have hsent := mk.inj (ok.inj (mk.inj hstream).1)
    rw [← hsent.1, ← hsent.2, length_encodePdu]
    exact ⟨wrapOutgoing_op hwrap, Nat.add_le_add_left hbounce _⟩

theorem completeCall_adds (frame : CallFrame) (g : GuestState κ) :
    Adds (PDU_HDR_LEN + CALL_FRAME_LEN + g.hal.gate.lastBounceLen.toNat) g
      (completeCall build frame g).2 := by
  rw [completeCall]
  apply adds_bind (emitted_onHal _ g)
  intro r g' hrun
  cases r with
  | error => exact .inl rfl
  | ok sent =>
    obtain ⟨vh, pdu⟩ := sent
    obtain ⟨h', hstream, -⟩ := onHal_eq_ok hrun
    obtain ⟨hop, hlen⟩ := completeStream_sent hstream
    exact .inr ⟨pdu, emitted_rw hop rfl, hlen⟩

theorem sendTx_adds (htx : g.hal.gate.tx = some (hdr, frame)) :
    Adds (PDU_HDR_LEN + CALL_FRAME_LEN + hdr.bounceLen.toNat) g (sendTx build g).2 := by
  rw [sendTx]
  apply adds_bind (emitted_onHal _ g)
  intro r g1 hrun
  rcases r with e | (none | ⟨hdr', frame', bounce⟩)
  · exact .inl rfl
  · exact .inl rfl
  · obtain ⟨h1, htake, -⟩ := onHal_eq_ok hrun
    have hbounce := takeTx_length htx htake
    dsimp only
    apply adds_bind (emitted_onHal _ g1)
    intro r2 g2 hrun2
    cases r2 with
    | error => exact .inl rfl
    | ok =>
      obtain ⟨h2, hwrap, -⟩ := onHal_eq_ok hrun2
      refine .inr ⟨_, emitted_rw (wrapOutgoing_op hwrap) rfl, ?_⟩
      rw [length_encodePdu]
      exact Nat.add_le_add_left hbounce _

/-- Whatever `rpc_yield` finds, the RPC is in the transmit slot. -/
theorem rpcYield_tx (out : CallFrame) (gate : VirtCallGate) :
    (VirtCallGate.rpcYield out gate).2.tx =
      some (⟨KIND_RPC, gate.seq, UInt32.ofNat CALL_FRAME_LEN, gate.lastBounceLen⟩, out) := by
  rw [VirtCallGate.rpcYield]
  dsimp only
  split
  · split_ifs <;> rfl
  · rfl

theorem sendLoadTa_adds (build : Build) (uuid : Uuid) (g : GuestState κ) :
    Adds (PDU_HDR_LEN + CALL_FRAME_LEN + 96) g (sendLoadTa build uuid g).2 := by
  obtain ⟨pool, hpack⟩ := packLoadTa_eq_ok g.pool uuid
  rw [sendLoadTa, bind_of_ok (gets_apply GuestState.pool g), hpack]
  dsimp only
  rw [bind_of_ok (modify_apply _ g), bind_of_ok (modify_apply _ (g.withPool pool))]
  have hsame : emitted { g.withPool pool with
      hal := (g.withPool pool).hal.setRpcWindow RPC_COOKIE 96 } = emitted g := rfl
  apply Adds.of_eq hsame
  apply adds_bind (emitted_onHal _ _)
  intro r g' hrun
  have hstate : _ = g' := (onHal_eq _ _).symm.trans (congrArg snd hrun)
  have htx : g'.hal.gate.tx = some (⟨KIND_RPC, g.hal.gate.seq, UInt32.ofNat CALL_FRAME_LEN, 96⟩,
      rpcFrame RPC_COOKIE) := by
    rw [← hstate]
    exact rpcYield_tx _ _
  exact sendTx_adds htx

section
variable (window : UInt32)

/-- The answer to a command: COMPLETE with the gate's window, or an RPC of 96 bytes. -/
def answerSize : Nat := PDU_HDR_LEN + CALL_FRAME_LEN + max 96 window.toNat

theorem complete_le_answerSize : PDU_HDR_LEN + CALL_FRAME_LEN + window.toNat ≤ answerSize window :=
  Nat.add_le_add_left (Nat.le_max_right _ _) _

theorem rpc_le_answerSize : PDU_HDR_LEN + CALL_FRAME_LEN + 96 ≤ answerSize window :=
  Nat.add_le_add_left (Nat.le_max_left _ _) _

end

theorem writeResult_keeps (build : Build) (frame : CallFrame) (ret origin session : UInt32)
    (produced : Params) :
    Keeps untouched (writeResult build frame ret origin session produced (κ := κ)) := by
  intro g
  rw [writeResult]
  split
  · exact ⟨rfl, rfl⟩
  · exact ⟨rfl, rfl⟩
  · exact ⟨rfl, rfl⟩

theorem writeAndComplete_adds (frame : CallFrame) (ret origin session : UInt32)
    (produced : Params) (g : GuestState κ) :
    Adds (answerSize g.hal.gate.lastBounceLen) g
      ((writeResult build frame ret origin session produced >>= fun _ =>
        completeCall build frame) g).2 := by
  have hkeeps := writeResult_keeps build frame ret origin session produced g
  apply adds_bind hkeeps.2
  intro _ g' hrun
  rw [hrun] at hkeeps
  have hgate : g'.hal.gate = g.hal.gate := hkeeps.1
  apply (completeCall_adds frame g').mono
  rw [hgate]
  exact complete_le_answerSize _

theorem dispatchOut_adds (frame : CallFrame) (out : KernelOut) (g : GuestState κ) :
    Adds (answerSize g.hal.gate.lastBounceLen) g (dispatchOut build frame out g).2 := by
  match out with
  | .done result session produced => exact writeAndComplete_adds frame _ _ _ produced g
  | .rpc (.loadTa uuid) =>
    have hsend := (sendLoadTa_adds build uuid g).mono (rpc_le_answerSize g.hal.gate.lastBounceLen)
    rw [dispatchOut]
    apply adds_then hsend
    intro g'
    rfl
  | .rpc .getTime | .rpc .fs | .rpc .shmAlloc | .rpc .shmFree => exact .inl rfl

/-! ### Commands -/

theorem onHal_keeps {x : Attempt VirtHal HalError α}
    (hgate : ∀ h : VirtHal, (x h).2.gate = h.gate) :
    Keeps untouched (onHal x (κ := κ)) := by
  intro g
  rw [onHal_eq]
  exact ⟨hgate g.hal, rfl⟩

theorem importShm_gate (build : Build) (offset len : UInt64) (perms : Perms) (h : VirtHal) :
    (importShm build offset len perms h).2.gate = h.gate := by
  obtain ⟨r, mem, himport, -⟩ := importShm_eq build offset len perms h
  rw [himport]

theorem importMemref_keeps (param : Param) :
    Keeps untouched (importMemref build param (κ := κ)) := by
  rw [importMemref.eq_def]
  split
  · apply Keeps.bind (keeps_lift _)
    intro start
    apply Keeps.bind (onHal_keeps (importShm_gate build _ _ _))
    intro _
    exact keeps_pure _
  · exact keeps_pure _

theorem kernelHandle_keeps (cmd : KernelCmd) : Keeps untouched (kernelHandle K cmd) := by
  intro g
  rw [kernelHandle]
  split
  · exact ⟨rfl, rfl⟩
  · exact ⟨rfl, rfl⟩

theorem adds_after_keeps {β : Type} {x : GM κ α} {f : α → GM κ β} (hx : Keeps untouched x)
    (hf : ∀ a g', Adds (answerSize g'.hal.gate.lastBounceLen) g' (f a g').2) (g : GuestState κ) :
    Adds (answerSize g.hal.gate.lastBounceLen) g ((x >>= f) g).2 := by
  have hkeeps := hx g
  apply adds_bind hkeeps.2
  intro a g' hrun
  rw [hrun] at hkeeps
  have hgate : g'.hal.gate = g.hal.gate := hkeeps.1
  rw [← hgate]
  exact hf a g'

section
variable (K : GuestKernel κ) (frame : CallFrame) (g : GuestState κ)

theorem handleEnter_adds :
    Adds (answerSize g.hal.gate.lastBounceLen) g (handleEnter K build frame g).2 := by
  rw [handleEnter, bind_of_ok (gets_apply pool g)]
  cases decodeCmd build g.pool frame.cookieA1a2 with
  | panic => exact .inl rfl
  | err => exact writeAndComplete_adds frame _ _ _ noParams g
  | ok cmd =>
    apply adds_after_keeps (importAll_keeps fun param _ => importMemref_keeps param)
    intro _ g1
    apply adds_after_keeps (kernelHandle_keeps K cmd)
    intro out g2
    exact dispatchOut_adds frame out g2

theorem handleRpcReply_adds :
    Adds (answerSize g.hal.gate.lastBounceLen) g (handleRpcReply K build frame g).2 := by
  rw [handleRpcReply, bind_of_ok (gets_apply pool g)]
  apply adds_after_keeps (keeps_lift _)
  intro resp g1
  apply adds_after_keeps (kernelHandle_keeps K _)
  intro out g2
  exact dispatchOut_adds frame out g2

end

/-! ### Packets -/

section
variable (g : GuestState κ)

/-- The window of the call that a PDU in the buffer leads to: that of the ENTER which waits,
or that of the PDU itself. -/
def windowOf (hdr : PduHeader) : UInt32 :=
  match g.waiting with
  | some _ => g.hal.enterBounceLen
  | none => hdr.bounceLen

/-- How much the guest may send when it has the bytes `rx` on its stream. -/
def receiveBound (rx : Bytes) : Nat :=
  match (VsockConn.takeRx rx).1 with
  | .ok (hdr, _, _) => answerSize (windowOf g hdr)
  | _ => 0

def answerBound (pk : Packet) : Nat :=
  match g.hal.conn with
  | some c => if c.Takes pk.hdr pk.payload then receiveBound g (c.rx ++ pk.payload) else 0
  | none => 0

end

theorem feedPdu_window (hfeed : feedPdu hdr frame bounce h = (.ok (), h')) :
    h'.gate.rx = some (hdr, frame) ∧ h'.enterBounceLen = h.enterBounceLen := by
  rw [feedPdu] at hfeed
  split_ifs at hfeed
  · cases (mk.inj hfeed).1
  · cases (mk.inj hfeed).1
  · obtain ⟨_, h1, hcopy, hmodify⟩ := bind_eq_ok hfeed
    have hsame : h1.enterBounceLen = h.enterBounceLen := by
      rw [copyBounceIn] at hcopy
      split_ifs at hcopy
      · cases (mk.inj hcopy).1
      · rw [← (mk.inj hcopy).2]
    rw [← (mk.inj hmodify).2]
    exact ⟨rfl, hsame⟩

variable {c : VsockConn}

theorem takePdu_ok (hconn : h.conn = some c) {parts : PduHeader × CallFrame × Bytes}
    (htake : onConn VsockConn.takePdu h = (.ok parts, h')) :
    (VsockConn.takeRx c.rx).1 = .ok parts ∧ h'.enterBounceLen = h.enterBounceLen := by
  rw [onConn_eq hconn] at htake
  have hpair := mk.inj htake
  refine ⟨hpair.1, ?_⟩
  rw [← hpair.2]

theorem recvEnter_window (hconn : h.conn = some c) (hrecv : recvEnter h = (.ok frame, h')) :
    ∃ hdr out bounce, (VsockConn.takeRx c.rx).1 = .ok (hdr, out, bounce) ∧
      h'.gate.lastBounceLen = hdr.bounceLen := by
  rw [recvEnter] at hrecv
  obtain ⟨⟨hdr, out, bounce⟩, h1, htake, hrecv⟩ := bind_eq_ok hrecv
  obtain ⟨_, h2, hfeed, hgate⟩ := bind_eq_ok hrecv
  refine ⟨hdr, out, bounce, (takePdu_ok hconn htake).1, ?_⟩
  have hrx := (feedPdu_window hfeed).1
  rw [onGate, zoom, VirtCallGate.recv, hrx] at hgate
  dsimp only at hgate
  split_ifs at hgate
  · cases (mk.inj hgate).1
  · rw [← (mk.inj hgate).2]
  · cases (mk.inj hgate).1

theorem recvRpcReply_window (hconn : h.conn = some c) (hrecv : recvRpcReply h = (.ok frame, h')) :
    ∃ parts, (VsockConn.takeRx c.rx).1 = .ok parts ∧ h'.gate.lastBounceLen = h.enterBounceLen := by
  rw [recvRpcReply] at hrecv
  obtain ⟨⟨hdr, out, bounce⟩, h1, htake, hrecv⟩ := bind_eq_ok hrecv
  obtain ⟨hparts, hsame1⟩ := takePdu_ok hconn htake
  refine ⟨_, hparts, ?_⟩
  dsimp only at hrecv
  split_ifs at hrecv
  · cases (mk.inj hrecv).1
  · obtain ⟨_, h2, hfeed, hrest⟩ := bind_eq_ok hrecv
    obtain ⟨_, h3, hmodify, hpure⟩ := bind_eq_ok hrest
    rw [← (mk.inj hpure).2, ← (mk.inj hmodify).2]
    exact (feedPdu_window hfeed).2.trans hsame1

theorem receive_adds (build : Build) (K : GuestKernel κ) (hconn : g.hal.conn = some c) :
    Adds (receiveBound g c.rx) g (receive K build g).2 := by
  rw [receive, bind_of_ok (gets_apply waiting g)]
  cases hwaiting : g.waiting with
  | some enter =>
    apply adds_bind (emitted_onHal _ g)
    intro r g' hrun
    cases r with
    | error e =>
      cases e <;> exact .inl rfl
    | ok =>
      obtain ⟨h', hrecv, rfl⟩ := onHal_eq_ok hrun
      obtain ⟨⟨hdr, out, bounce⟩, htake, hwindow⟩ := recvRpcReply_window hconn hrecv
      rw [receiveBound, htake]
      dsimp only
      rw [windowOf, hwaiting, ← hwindow]
      exact handleRpcReply_adds K enter _
  | none =>
    apply adds_bind (emitted_onHal _ g)
    intro r g' hrun
    cases r with
    | error => exact .inl rfl
    | ok frame =>
      obtain ⟨h', hrecv, rfl⟩ := onHal_eq_ok hrun
      obtain ⟨hdr, out, bounce, htake, hwindow⟩ := recvEnter_window hconn hrecv
      rw [receiveBound, htake]
      dsimp only
      rw [windowOf, hwaiting, ← hwindow]
      exact handleEnter_adds K frame _

theorem emitted_sendCredit (g : GuestState κ) : emitted (sendCredit g).2 = emitted g := by
  cases hconn : g.hal.conn with
  | some c =>
    obtain ⟨g', hcredit, hstays, -⟩ :=
      sendCredit_eq (c := c) (g := g) ⟨c, hconn, ⟨rfl, rfl, rfl, rfl⟩, rfl⟩
    rw [hcredit]
    exact hstays.emitted
  | none =>
    have hcredit : creditUpdate g.hal = (.err .notFound, g.hal) := by
      rw [creditUpdate, onConn, hconn]
    rw [sendCredit, bind_of_ok (onHal_of_err hcredit)]
    rfl

theorem onRw_adds (pk : Packet) (g : GuestState κ) :
    Adds (answerBound g pk) g (onRw K build pk.hdr pk.payload g).2 := by
  rw [onRw]
  apply adds_bind (emitted_onHal _ g)
  intro r g' hrun
  cases r with
  | error => exact .inl rfl
  | ok =>
    obtain ⟨h', hpush, rfl⟩ := onHal_eq_ok hrun
    apply adds_then _ emitted_sendCredit
    rw [pushHostRw, onConn] at hpush
    cases hconn : g.hal.conn with
    | none =>
      rw [hconn] at hpush
      cases (mk.inj hpush).1
    | some c =>
      rw [hconn] at hpush
      dsimp only at hpush
      rw [VsockConn.pushRw] at hpush
      by_cases htakes : c.Takes pk.hdr pk.payload
      · rw [if_pos htakes] at hpush
        have hbound : answerBound g pk = receiveBound g (c.rx ++ pk.payload) := by
          rw [answerBound, hconn]
          exact if_pos htakes
        have hconn' : h'.conn = some { c with
            rx := c.rx ++ pk.payload, fwdCnt := c.fwdCnt + pk.hdr.len } := by
          rw [← (mk.inj hpush).2]
        have hsaved : h'.enterBounceLen = g.hal.enterBounceLen := by
          rw [← (mk.inj hpush).2]
        have hadds := receive_adds build (g := { g with hal := h' }) K hconn'
        have hsame : receiveBound { g with hal := h' } (c.rx ++ pk.payload) =
            receiveBound g (c.rx ++ pk.payload) := by
          simp only [receiveBound, windowOf, hsaved]
        rw [hbound, ← hsame]
        exact hadds
      · rw [if_neg htakes] at hpush
        cases (mk.inj hpush).1

theorem onRequest_adds (hdr : VirtioVsockHdr) (g : GuestState κ) :
    Adds 0 g (onRequest hdr g).2 := by
  rw [onRequest]
  apply adds_bind (emitted_onHal _ g)
  intro r g' hrun
  cases r with
  | error => exact .inl rfl
  | ok resp =>
    obtain ⟨h', haccept, -⟩ := onHal_eq_ok hrun
    have hop : resp.op ≠ VIRTIO_VSOCK_OP_RW := by
      rw [acceptConnect_op haccept]
      decide
    have hresp : Adds 0 g' (addOut resp [] g').2 := .inl (emitted_other hop rfl)
    exact adds_then hresp emitted_sendCredit

theorem onPacket_adds (pk : Packet) (g : GuestState κ) :
    Adds (answerBound g pk) g (onPacket K build pk.hdr pk.payload g).2 := by
  rw [onPacket]
  split_ifs
  · exact (onRequest_adds pk.hdr g).mono (Nat.zero_le _)
  · exact onRw_adds K pk g
  · exact .inl (emitted_sendCredit g)
  · exact .inl rfl

end Answer

/-! ### The account -/

/-- The credit the host advertised last, and the bytes sent on the connection. -/
structure Credit where
  bufAlloc : UInt32
  fwdCnt : UInt32
  sent : Nat
deriving Repr, DecidableEq

namespace Credit

/-- What a header of the host says about the credit; a REQUEST begins a new connection. -/
def hear (cr : Credit) (hdr : VirtioVsockHdr) : Credit :=
  if hdr.op = VIRTIO_VSOCK_OP_REQUEST then ⟨hdr.bufAlloc, hdr.fwdCnt, 0⟩
  else if hdr.op = VIRTIO_VSOCK_OP_RW ∨ hdr.op = VIRTIO_VSOCK_OP_CREDIT_UPDATE then
    { cr with bufAlloc := hdr.bufAlloc, fwdCnt := hdr.fwdCnt }
  else cr

/-- There is room for `n` more bytes. -/
def Room (cr : Credit) (n : Nat) : Prop :=
  (cr.sent : Int) + n - cr.fwdCnt.toNat ≤ cr.bufAlloc.toNat

instance (cr : Credit) (n : Nat) : Decidable (cr.Room n) := inferInstanceAs (Decidable (_ ≤ _))

def Respected (cr : Credit) : Prop := (cr.sent : Int) - cr.fwdCnt.toNat ≤ cr.bufAlloc.toNat

instance (cr : Credit) : Decidable cr.Respected := inferInstanceAs (Decidable (_ ≤ _))

end Credit

def bytesSent (g g' : GuestState κ) : Nat :=
  (((emitted g').drop (emitted g).length).map length).sum

theorem bytesSent_le (h : Adds n g g') : bytesSent g g' ≤ n := by
  rcases h with hsame | ⟨pdu, hpdu, hlen⟩
  · rw [bytesSent, hsame, drop_length]
    exact Nat.zero_le n
  · rw [bytesSent, hpdu, drop_left]
    simpa using hlen

section Accounts

variable (K : GuestKernel κ) (build : Build)

def charge (g : GuestState κ) (cr : Credit) (pk : Packet) : Credit :=
  { cr.hear pk.hdr with
    sent := (cr.hear pk.hdr).sent + bytesSent g (onPacket K build pk.hdr pk.payload g).2 }

/-- The account at every moment of a run: when a header is heard and after its packet. -/
def accounts : List Packet → GuestState κ → Credit → List Credit
  | [], _, _ => []
  | pk :: pks, g, cr =>
    cr.hear pk.hdr :: charge K build g cr pk ::
      match onPacket K build pk.hdr pk.payload g with
      | (.ok _, g') => accounts pks g' (charge K build g cr pk)
      | _ => []

def LeavesRoom : List Packet → GuestState κ → Credit → Prop
  | [], _, _ => True
  | pk :: pks, g, cr =>
    (cr.hear pk.hdr).Room (answerBound g pk) ∧
      ∀ g', onPacket K build pk.hdr pk.payload g = (.ok (), g') →
        LeavesRoom pks g' (charge K build g cr pk)

instance decidableLeavesRoom :
    ∀ (pks : List Packet) (g : GuestState κ) (cr : Credit),
      Decidable (LeavesRoom K build pks g cr)
  | [], _, _ => isTrue trivial
  | pk :: pks, g, cr =>
    match hrun : onPacket K build pk.hdr pk.payload g with
    | (.ok (), g') =>
      have := decidableLeavesRoom pks g' (charge K build g cr pk)
      decidable_of_iff ((cr.hear pk.hdr).Room (answerBound g pk) ∧
          LeavesRoom K build pks g' (charge K build g cr pk)) <| by
        rw [LeavesRoom, hrun]
        simp
    | (.err _, _) => decidable_of_iff ((cr.hear pk.hdr).Room (answerBound g pk)) <| by
        rw [LeavesRoom, hrun]
        simp
    | (.panic, _) => decidable_of_iff ((cr.hear pk.hdr).Room (answerBound g pk)) <| by
        rw [LeavesRoom, hrun]
        simp

end Accounts

/-- One packet: with room for its answer the credit is respected before and after. -/
theorem charge_respected (build : Build) {cr : Credit}
    {pk : Packet} (hroom : (cr.hear pk.hdr).Room (answerBound g pk)) :
    (cr.hear pk.hdr).Respected ∧ (charge K build g cr pk).Respected := by
  have hbytes : bytesSent g (onPacket K build pk.hdr pk.payload g).2 ≤ answerBound g pk :=
    bytesSent_le (onPacket_adds K pk g)
  rw [Credit.Room] at hroom
  constructor
  · rw [Credit.Respected]
    omega
  · rw [Credit.Respected, charge]
    push_cast
    omega

/-- The guest handles packets alike whatever credit their headers carry. The credit is
respected at every moment of the runs in which the host leaves room for each answer. -/
theorem credit_respected_of_room (K : GuestKernel κ) (build : Build) :
    (∀ hdr payload bufAlloc fwdCnt,
        onPacket K build { hdr with bufAlloc := bufAlloc, fwdCnt := fwdCnt } payload =
          onPacket K build hdr payload) ∧
      ∀ (pks : List Packet) (g : GuestState κ) (cr : Credit), LeavesRoom K build pks g cr →
        ∀ x ∈ accounts K build pks g cr, x.Respected := by
  constructor
  · exact fun _ _ _ _ => rfl
  · intro pks
    induction pks with
    | nil =>
      intro g cr _ x hx
      cases hx
    | cons pk pks ih =>
      intro g cr hroom x hx
      obtain ⟨hfirst, hrest⟩ := hroom
      obtain ⟨hheard, hcharged⟩ := charge_respected K build hfirst
      rw [accounts, mem_cons, mem_cons] at hx
      rcases hx with rfl | rfl | hx
      · exact hheard
      · exact hcharged
      · obtain ⟨r, g', hrun⟩ : ∃ r g', onPacket K build pk.hdr pk.payload g = (r, g') := ⟨_, _, rfl⟩
        rw [hrun] at hx
        cases r with
        | ok => exact ih g' _ (hrest g' hrun) x hx
        | err | panic => cases hx

/-- The packets of a call with an RPC, from a host with a buffer of `n` bytes. -/
def creditPackets (n : UInt32) : List Packet :=
  [⟨{ hostHdr VIRTIO_VSOCK_OP_REQUEST 9 0 with bufAlloc := n }, []⟩,
    ⟨{ hostHdr VIRTIO_VSOCK_OP_RW 9 openEnter.encode.length with bufAlloc := n },
      openEnter.encode⟩]

theorem credit_respected_of_room_sample :
    ∀ x ∈ accounts (osKernel guestEnv).watched .debug (creditPackets 65536) booted ⟨0, 0, 0⟩,
      x.Respected :=
  (credit_respected_of_room (osKernel guestEnv).watched .debug).2 (creditPackets 65536) booted
    ⟨0, 0, 0⟩ (by decide +kernel)

/-- A host that advertises 64 bytes gets an RPC of 176. -/
theorem credit_exceeded :
    ∃ x ∈ accounts (osKernel guestEnv).watched .debug (creditPackets 64) booted ⟨0, 0, 0⟩,
      x = ⟨64, 0, 176⟩ ∧ ¬ x.Respected := by
  decide +kernel

end Rustee.Guest
