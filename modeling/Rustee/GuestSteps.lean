import Rustee.GuestLoop

/-!
# What one PDU does to the guest

Packets that do not complete a PDU only grow the stream (`loop_part`). The packet that completes an
ENTER makes the guest answer it: with COMPLETE, or with an RPC after which the call is parked
(`enter_ends`). The one that completes the RPC_REPLY makes it complete the parked call
(`reply_ends`).
-/

namespace Rustee.Guest

open Os Virt Attempt List VirtHal VsockConn Fallible GuestState VirtCallGate

variable {κ : Type}

/-! ### What was sent -/

def emitted (g : GuestState κ) : List Bytes :=
  (g.sent.filter fun x => x.1.op = VIRTIO_VSOCK_OP_RW).map Prod.snd

variable {g g' : GuestState κ}

theorem emitted_rw {hdr : VirtioVsockHdr} {payload : Bytes} (hop : hdr.op = VIRTIO_VSOCK_OP_RW)
    (hsent : g'.sent = g.sent ++ [(hdr, payload)]) : emitted g' = emitted g ++ [payload] := by
  rw [emitted, hsent, filter_append, map_append, emitted]
  simp [hop]

theorem emitted_other {hdr : VirtioVsockHdr} {payload : Bytes} (hop : hdr.op ≠ VIRTIO_VSOCK_OP_RW)
    (hsent : g'.sent = g.sent ++ [(hdr, payload)]) : emitted g' = emitted g := by
  rw [emitted, hsent, filter_append, map_append, emitted]
  simp [hop]

def asked (g : GuestState κ) : Bool :=
  match (emitted g).getLast? with
  | some pdu => u32At pdu 0 == KIND_RPC
  | none => false

theorem asked_of_emitted {hdr : PduHeader} {frame : CallFrame}
    {bounce : Bytes} (h : emitted g' = emitted g ++ [encodePdu hdr frame bounce]) :
    asked g' = (hdr.kind == KIND_RPC) := by
  have hkind : u32At (encodePdu hdr frame bounce) 0 = hdr.kind := u32At_of_field rfl
  rw [asked, h, getLast?_concat]
  simp only [hkind]

/-! ### What a packet leaves alone -/

/-- Nothing but the stream has changed, and no PDU was sent. -/
structure Stays (g g' : GuestState κ) : Prop where
  gate : g'.hal.gate = g.hal.gate
  mem : g'.hal.mem = g.hal.mem
  listener : g'.hal.listener = g.hal.listener
  enterCookie : g'.hal.enterCookie = g.hal.enterCookie
  enterBounceLen : g'.hal.enterBounceLen = g.hal.enterBounceLen
  waiting : g'.waiting = g.waiting
  kernel : g'.kernel = g.kernel
  emitted : emitted g' = emitted g

theorem Stays.refl (g : GuestState κ) : Stays g g := ⟨rfl, rfl, rfl, rfl, rfl, rfl, rfl, rfl⟩

theorem Stays.trans {g1 g2 g3 : GuestState κ} (h : Stays g1 g2) (h' : Stays g2 g3) : Stays g1 g3 :=
  ⟨h'.gate.trans h.gate, h'.mem.trans h.mem, h'.listener.trans h.listener,
    h'.enterCookie.trans h.enterCookie, h'.enterBounceLen.trans h.enterBounceLen,
    h'.waiting.trans h.waiting, h'.kernel.trans h.kernel, h'.emitted.trans h.emitted⟩

/-- The accepted connection has the ends of `c` and buffers `rx`. -/
def OnConn (c : VsockConn) (rx : Bytes) (g : GuestState κ) : Prop :=
  ∃ c', g.hal.conn = some c' ∧ c.SameEnds c' ∧ c'.rx = rx

variable {α : Type} {h : VirtHal} {x : Attempt VirtHal HalError α}

theorem onHal_of_ok {a : α} (hx : x g.hal = (.ok a, h)) :
    onHal x g = (.ok (.ok a), { g with hal := h }) := by
  rw [onHal, hx]

theorem onHal_of_err {e : HalError} (hx : x g.hal = (.err e, h)) :
    onHal x g = (.ok (.error e), { g with hal := h }) := by
  rw [onHal, hx]

variable {c : VsockConn} {p : Pdu}

theorem onConn_eq {x : Attempt VsockConn HalError α} (hconn : h.conn = some c) :
    onConn x h = ((x c).1, { h with conn := some (x c).2 }) := by
  rw [onConn, hconn]

section Credit

variable {c : VsockConn} {rx : Bytes} {g : GuestState κ}

theorem sendCredit_eq (hconn : OnConn c rx g) :
    ∃ g', sendCredit g = (.ok (), g') ∧ Stays g g' ∧ OnConn c rx g' := by
  obtain ⟨c', hc', hends, hrx⟩ := hconn
  have hcredit : creditUpdate g.hal = (.ok c'.creditUpdate, g.hal) := by
    rw [VirtHal.creditUpdate, onConn_eq hc']
    exact congrArg (fun conn => (ok c'.creditUpdate, { g.hal with conn := conn })) hc'.symm
  refine ⟨{ g with sent := g.sent ++ [(c'.creditUpdate, [])] }, ?_, ?_, c', hc', hends, hrx⟩
  · rw [sendCredit, bind_of_ok (onHal_of_ok hcredit)]
    rfl
  · have hop : c'.creditUpdate.op ≠ VIRTIO_VSOCK_OP_RW := by
      change VIRTIO_VSOCK_OP_CREDIT_UPDATE ≠ VIRTIO_VSOCK_OP_RW
      decide
    exact ⟨rfl, rfl, rfl, rfl, rfl, rfl, rfl, emitted_other hop rfl⟩

end Credit

/-! ### Packets that complete nothing -/

section Part

variable {K : GuestKernel κ} {build : Build} {c : VsockConn} {rx : Bytes} {g : GuestState κ}
  {payload : Bytes} {hdr : VirtioVsockHdr}

theorem onPacket_other (hconn : OnConn c rx g)
    (hrequest : hdr.op ≠ VIRTIO_VSOCK_OP_REQUEST) (hrw : hdr.op ≠ VIRTIO_VSOCK_OP_RW) :
    ∃ g', onPacket K build hdr payload g = (.ok (), g') ∧ Stays g g' ∧ OnConn c rx g' := by
  rw [onPacket, if_neg hrequest, if_neg hrw]
  split
  · exact sendCredit_eq hconn
  · exact ⟨g, rfl, Stays.refl g, hconn⟩

theorem push_eq (hconn : OnConn c rx g) (htakes : c.Takes hdr payload) :
    ∃ g1, onHal (pushHostRw hdr payload) g = (.ok (.ok ()), g1) ∧ Stays g g1 ∧
      OnConn c (rx ++ payload) g1 := by
  obtain ⟨c', hc', hends, hrx⟩ := hconn
  have hpush : pushHostRw hdr payload g.hal = (.ok (), { g.hal with
      conn := some { c' with rx := c'.rx ++ payload, fwdCnt := c'.fwdCnt + hdr.len } }) := by
    rw [pushHostRw, onConn_eq hc', pushRw, if_pos (hends.takes.mpr htakes)]
  refine ⟨_, onHal_of_ok hpush, ⟨rfl, rfl, rfl, rfl, rfl, rfl, rfl, rfl⟩, _, rfl, hends, ?_⟩
  rw [hrx]

/-- With part of a PDU in the buffer, whatever the loop waits for is not there. -/
theorem receive_part (hconn : OnConn c rx g) (hpart : rx <+: p.encode)
    (hne : rx ≠ p.encode) : receive K build g = (.ok (), g) := by
  obtain ⟨c', hc', -, hrx⟩ := hconn
  have htake : onConn takePdu g.hal = (.err .notFound, g.hal) := by
    have hpdu : takePdu c' = (.err .notFound, c') := by
      apply takePdu_of_takeRx
      rw [hrx]
      exact takeRx_part hpart hne
    rw [onConn_eq hc', hpdu, ← hc']
  rw [receive, bind_of_ok (gets_apply waiting g)]
  cases g.waiting with
  | some =>
    have hreply : recvRpcReply g.hal = (.err .notFound, g.hal) := bind_of_err htake
    simp only
    rw [bind_of_ok (onHal_of_err hreply)]
    rfl
  | none =>
    have henter : recvEnter g.hal = (.err .notFound, g.hal) := bind_of_err htake
    simp only
    rw [bind_of_ok (onHal_of_err henter)]
    rfl

/-- A packet of the connection with more of a PDU that is still not whole. -/
theorem onRw_part (hconn : OnConn c rx g)
    (htakes : c.Takes hdr payload) (hpart : rx ++ payload <+: p.encode)
    (hne : rx ++ payload ≠ p.encode) :
    ∃ g', onPacket K build hdr payload g = (.ok (), g') ∧ Stays g g' ∧
      OnConn c (rx ++ payload) g' := by
  have hop : hdr.op = VIRTIO_VSOCK_OP_RW := htakes.1
  have hrequest : hdr.op ≠ VIRTIO_VSOCK_OP_REQUEST := by
    rw [hop]
    decide
  obtain ⟨g1, hpush, hstays1, hconn1⟩ := push_eq hconn htakes
  obtain ⟨g', hcredit, hstays', hconn'⟩ := sendCredit_eq hconn1
  refine ⟨g', ?_, hstays1.trans hstays', hconn'⟩
  rw [onPacket, if_neg hrequest, if_pos hop, onRw, bind_of_ok hpush]
  simp only
  rw [bind_of_ok (receive_part hconn1 hpart hne)]
  exact hcredit

end Part

/-! ### The packets of one PDU -/

def rwPayloads : List Packet → Bytes
  | [] => []
  | pk :: pks =>
    (if pk.hdr.op = VIRTIO_VSOCK_OP_RW then pk.payload else []) ++ rwPayloads pks

/-- Packets of the connection: RW packets it takes, and packets of the credit protocol or
of other ops, but no request. -/
def OfConn (c : VsockConn) (pks : List Packet) : Prop :=
  ∀ pk ∈ pks, pk.hdr.op ≠ VIRTIO_VSOCK_OP_REQUEST ∧
    (pk.hdr.op = VIRTIO_VSOCK_OP_RW → c.Takes pk.hdr pk.payload)

instance (c : VsockConn) (pks : List Packet) : Decidable (OfConn c pks) :=
  inferInstanceAs (Decidable (∀ pk ∈ pks, _ ∧ _))

theorem OfConn.append {pks pks' : List Packet} (h : OfConn c (pks ++ pks')) :
    OfConn c pks ∧ OfConn c pks' :=
  ⟨fun pk hpk => h pk (mem_append_left _ hpk),
    fun pk hpk => h pk (mem_append_right _ hpk)⟩

/-- The packet that completes a PDU, those before it and those after it. -/
theorem split_whole {pdu : Bytes} :
    ∀ {pks : List Packet} {rx : Bytes}, rx ≠ pdu → rx ++ rwPayloads pks = pdu →
      ∃ before pk after, pks = before ++ pk :: after ∧ pk.hdr.op = VIRTIO_VSOCK_OP_RW ∧
        rx ++ rwPayloads before ≠ pdu ∧ rx ++ rwPayloads before ++ pk.payload = pdu ∧
        rwPayloads after = [] := by
  intro pks
  induction pks with
  | nil =>
    intro rx hne hwhole
    rw [rwPayloads, append_nil] at hwhole
    exact absurd hwhole hne
  | cons pk pks ih =>
    intro rx hne hwhole
    rw [rwPayloads, ← append_assoc] at hwhole
    by_cases hdone : rx ++ (if pk.hdr.op = VIRTIO_VSOCK_OP_RW then pk.payload else []) = pdu
    · have hop : pk.hdr.op = VIRTIO_VSOCK_OP_RW := by
        by_contra hop
        rw [if_neg hop, append_nil] at hdone
        exact hne hdone
      have hafter : rwPayloads pks = [] := by
        rw [hdone] at hwhole
        exact append_right_eq_self.mp hwhole
      rw [if_pos hop] at hdone
      refine ⟨[], pk, pks, rfl, hop, ?_, ?_, hafter⟩
      · rw [rwPayloads, append_nil]
        exact hne
      · rw [rwPayloads, append_nil]
        exact hdone
    · obtain ⟨before, last, after, rfl, hop, hbefore, hlast, hafter⟩ := ih hdone hwhole
      refine ⟨pk :: before, last, after, rfl, hop, ?_, ?_, hafter⟩
      · rw [rwPayloads, ← append_assoc]
        exact hbefore
      · rw [rwPayloads, ← append_assoc rx]
        exact hlast

section Loop

variable {K : GuestKernel κ} {build : Build} {c : VsockConn}

theorem loop_part :
    ∀ {pks : List Packet} {rx : Bytes} {g : GuestState κ}, OfConn c pks → OnConn c rx g →
      rx ++ rwPayloads pks <+: p.encode → rx ++ rwPayloads pks ≠ p.encode →
      ∃ g', vsockLoop K build pks g = (.ok (), g') ∧ Stays g g' ∧
        OnConn c (rx ++ rwPayloads pks) g' := by
  intro pks
  induction pks with
  | nil =>
    intro rx g _ hconn _ _
    rw [rwPayloads, append_nil]
    exact ⟨g, rfl, Stays.refl g, hconn⟩
  | cons pk pks ih =>
    intro rx g hof hconn hpart hne
    obtain ⟨hrequest, htakes⟩ := hof pk mem_cons_self
    have hof' : OfConn c pks := fun q hq => hof q (mem_cons_of_mem _ hq)
    rw [rwPayloads, ← append_assoc] at hpart hne ⊢
    rw [vsockLoop_cons]
    by_cases hop : pk.hdr.op = VIRTIO_VSOCK_OP_RW
    · rw [if_pos hop] at hpart hne ⊢
      have hpart1 : rx ++ pk.payload <+: p.encode := (prefix_append _ _).trans hpart
      have hne1 : rx ++ pk.payload ≠ p.encode := by
        intro heq
        rw [heq] at hpart hne
        have hnil := prefix_append_right_inj p.encode |>.mp
          (by rw [append_nil]; exact hpart : p.encode ++ rwPayloads pks <+: p.encode ++ [])
        rw [prefix_nil.mp hnil, append_nil] at hne
        exact hne rfl
      obtain ⟨g1, hstep, hstays1, hconn1⟩ := onRw_part (K := K) hconn (htakes hop) hpart1 hne1
      obtain ⟨g', hloop, hstays', hconn'⟩ := ih hof' hconn1 hpart hne
      refine ⟨g', ?_, hstays1.trans hstays', hconn'⟩
      rw [bind_of_ok hstep]
      exact hloop
    · rw [if_neg hop, append_nil] at hpart hne ⊢
      obtain ⟨g1, hstep, hstays1, hconn1⟩ := onPacket_other (K := K) hconn hrequest hop
      obtain ⟨g', hloop, hstays', hconn'⟩ := ih hof' hconn1 hpart hne
      refine ⟨g', ?_, hstays1.trans hstays', hconn'⟩
      rw [bind_of_ok hstep]
      exact hloop

end Loop

/-! ### A call in progress -/

def InPool (p : Pdu) : Prop :=
  p.frame.cookieA1a2.toNat + p.hdr.bounceLen.toNat ≤ BOUNCE_POOL_SIZE

instance (p : Pdu) : Decidable (InPool p) := inferInstanceAs (Decidable (_ ≤ _))

variable {p : Pdu}

theorem InPool.cookie (h : InPool p) : p.frame.cookieA1a2.toNat ≤ BOUNCE_POOL_SIZE :=
  Nat.le_trans (Nat.le_add_right _ _) h

def completePdu (p : Pdu) (pool : Pool) : Bytes :=
  encodePdu ⟨KIND_COMPLETE, p.hdr.seq, UInt32.ofNat CALL_FRAME_LEN, p.hdr.bounceLen⟩ p.frame
    (pool.get p.frame.cookieA1a2.toNat p.hdr.bounceLen.toNat)

def rpcPdu (p : Pdu) (pool : Pool) : Bytes :=
  encodePdu ⟨KIND_RPC, p.hdr.seq, UInt32.ofNat CALL_FRAME_LEN, 96⟩ (rpcFrame RPC_COOKIE)
    (pool.get RPC_COOKIE.toNat 96)

/-- The kernel works for the ENTER `p`: the gate has its number and its window. -/
structure Serving (c : VsockConn) (p : Pdu) (g : GuestState κ) : Prop where
  conn : OnConn c [] g
  seq : g.hal.gate.seq = p.hdr.seq
  cookie : g.hal.gate.lastCookie = p.frame.cookieA1a2
  bounceLen : g.hal.gate.lastBounceLen = p.hdr.bounceLen
  rx : g.hal.gate.rx = none
  yielding : g.hal.gate.yielding = false
  waiting : g.waiting = none
  inPool : InPool p

/-- No call is outstanding. -/
structure Idle (g : GuestState κ) : Prop where
  yielding : g.hal.gate.yielding = false
  waiting : g.waiting = none
  asked : asked g = false

/-- The ENTER `p` waits for the answer to its RPC; its window is saved. -/
structure Parked (p : Pdu) (g : GuestState κ) : Prop where
  waiting : g.waiting = some p.frame
  seq : g.hal.gate.seq = p.hdr.seq
  cookie : g.hal.enterCookie = p.frame.cookieA1a2
  bounceLen : g.hal.enterBounceLen = p.hdr.bounceLen
  inPool : InPool p
  asked : asked g = true

theorem asked_eq_of_emitted (h : emitted g' = emitted g) : asked g' = asked g := by
  rw [asked, asked, h]

theorem Stays.idle (h : Stays g g') (hidle : Idle g) : Idle g' where
  yielding := by
    rw [h.gate]
    exact hidle.yielding
  waiting := h.waiting.trans hidle.waiting
  asked := (asked_eq_of_emitted h.emitted).trans hidle.asked

theorem Stays.parked (h : Stays g g') (hparked : Parked p g) : Parked p g' where
  waiting := h.waiting.trans hparked.waiting
  seq := by
    rw [h.gate]
    exact hparked.seq
  cookie := h.enterCookie.trans hparked.cookie
  bounceLen := h.enterBounceLen.trans hparked.bounceLen
  inPool := hparked.inPool
  asked := (asked_eq_of_emitted h.emitted).trans hparked.asked

/-- Whatever happens to the pool, the shared memories and the kernel, the call goes on. -/
theorem Serving.withMem (h : Serving c p g) (mem : HalMem) (k : κ) :
    Serving c p { g with hal := { g.hal with mem := mem }, kernel := k } :=
  ⟨h.conn, h.seq, h.cookie, h.bounceLen, h.rx, h.yielding, h.waiting, h.inPool⟩

/-! ### Taking a PDU -/

section Take

variable {c : VsockConn} {p : Pdu} {g : GuestState κ}

theorem takePdu_whole (hconn : OnConn c p.encode g) :
    ∃ c', onConn VsockConn.takePdu g.hal =
        (.ok (p.hdr, p.frame, p.bounce), { g.hal with conn := some c' }) ∧ c.SameEnds c' ∧
      c'.rx = [] := by
  obtain ⟨c', hc', hends, hrx⟩ := hconn
  have htake : takeRx c'.rx = (.ok p.parts, []) := by
    have hwhole := takeRx_whole p []
    rw [append_nil] at hwhole
    rw [hrx]
    exact hwhole
  refine ⟨{ c' with rx := [] }, ?_, hends, rfl⟩
  rw [onConn_eq hc', takePdu_of_takeRx htake]
  rfl

theorem feedPdu_whole (hin : InPool p) (h : VirtHal) :
    feedPdu p.hdr p.frame p.bounce h = (.ok (), { h with
      mem := { h.mem with pool := h.mem.pool.put p.frame.cookieA1a2.toNat p.bounce }
      gate := { h.gate with rx := some (p.hdr, p.frame) } }) := by
  have hfits : ¬ p.frame.cookieA1a2.toNat + p.bounce.length > BOUNCE_POOL_SIZE := by
    rw [p.bounceLen]
    exact Nat.not_lt.mpr hin
  have hcopy : copyBounceIn p.frame.cookieA1a2 p.bounce h = (.ok (), { h with
      mem := { h.mem with pool := h.mem.pool.put p.frame.cookieA1a2.toNat p.bounce } }) := by
    rw [copyBounceIn, if_neg hfits]
  rw [feedPdu, if_neg (not_not.mpr p.argLen), if_neg (not_not.mpr p.bounceLen), bind_of_ok hcopy]
  rfl

def poolWith (p : Pdu) (g : GuestState κ) : Pool :=
  g.pool.put p.frame.cookieA1a2.toNat p.bounce

theorem recvEnter_whole (hconn : OnConn c p.encode g) (hidle : Idle g)
    (hkind : p.hdr.kind = KIND_ENTER) (hin : InPool p) :
    ∃ g', onHal recvEnter g = (.ok (.ok p.frame), g') ∧ Serving c p g' ∧
      g'.hal.mem = ⟨poolWith p g, g.hal.mem.shms⟩ ∧ g'.kernel = g.kernel ∧
      emitted g' = emitted g := by
  obtain ⟨c', htake, hends, hrx⟩ := takePdu_whole hconn
  have hrecv : recvEnter g.hal = (.ok p.frame, { g.hal with
      conn := some c'
      mem := { g.hal.mem with pool := poolWith p g }
      gate := { g.hal.gate with
        rx := none, seq := p.hdr.seq, lastCookie := p.frame.cookieA1a2
        lastBounceLen := p.hdr.bounceLen } }) := by
    rw [recvEnter, bind_of_ok htake]
    dsimp only
    rw [bind_of_ok (feedPdu_whole hin _), onGate, zoom, recv]
    simp only [hidle.yielding, hkind, p.argLen, and_self, if_true, Bool.false_eq_true, if_false]
    rfl
  refine ⟨_, onHal_of_ok hrecv, ?_, rfl, rfl, rfl⟩
  exact ⟨⟨c', rfl, hends, hrx⟩, rfl, rfl, rfl, rfl, hidle.yielding, hidle.waiting, hin⟩

/-- RPC_REPLY is taken from the stream, and the gate has the window of the parked ENTER
again, whatever the window of the reply was. -/
theorem recvRpcReply_whole {q : Pdu} (hconn : OnConn c q.encode g) (hparked : Parked p g)
    (hkind : q.hdr.kind = KIND_RPC_REPLY) (hin : InPool q) :
    ∃ g', onHal recvRpcReply g = (.ok (.ok q.frame), g') ∧
      Serving c p { g' with waiting := none } ∧
      g'.hal.mem = ⟨poolWith q g, g.hal.mem.shms⟩ ∧ g'.kernel = g.kernel ∧
      emitted g' = emitted g := by
  obtain ⟨c', htake, hends, hrx⟩ := takePdu_whole hconn
  have hreply : ¬ (q.hdr.kind ≠ KIND_RPC_REPLY ∨ q.hdr.argLen ≠ UInt32.ofNat CALL_FRAME_LEN) := by
    rintro (h | h)
    · exact h hkind
    · exact h q.argLen
  have hrecv : recvRpcReply g.hal = (.ok q.frame, { g.hal with
      conn := some c'
      mem := { g.hal.mem with pool := poolWith q g }
      gate := { g.hal.gate with
        rx := none, yielding := false, lastCookie := g.hal.enterCookie
        lastBounceLen := g.hal.enterBounceLen } }) := by
    rw [recvRpcReply, bind_of_ok htake]
    dsimp only
    rw [if_neg hreply, bind_of_ok (feedPdu_whole hin _)]
    rfl
  refine ⟨_, onHal_of_ok hrecv, ?_, rfl, rfl, rfl⟩
  exact ⟨⟨c', rfl, hends, hrx⟩, hparked.seq, hparked.cookie, hparked.bounceLen, rfl, rfl, rfl,
    hparked.inPool⟩

end Take

/-! ### Answering -/

section Answer

variable {build : Build} {c : VsockConn} {p : Pdu} {g : GuestState κ}

theorem txBounce_eq {pool : Pool} {cookie : UInt64} {len : UInt32}
    (hin : cookie.toNat + len.toNat ≤ BOUNCE_POOL_SIZE) :
    txBounce build pool cookie len = .ok (pool.get cookie.toNat len.toNat) := by
  have hpool : BOUNCE_POOL_SIZE < 2 ^ 64 := by decide
  have hword : len.toUInt64.toNat = len.toNat := UInt32.toNat_toUInt64 len
  have hsum : cookie.toNat + len.toUInt64.toNat < 2 ^ 64 := by
    rw [hword]
    exact Nat.lt_of_le_of_lt hin hpool
  have hstop : (UInt64.ofNat (cookie.toNat + len.toNat)).toNat = cookie.toNat + len.toNat := by
    rw [UInt64.toNat_ofNat']
    exact Nat.mod_eq_of_lt (Nat.lt_of_le_of_lt hin hpool)
  rw [txBounce, usizeAdd_of_lt build hsum, ok_bind, hword, hstop, if_pos hin,
    if_pos (Nat.le_add_right _ _)]

variable {frame : CallFrame} {hdr : PduHeader} {h : VirtHal}

theorem takeTx_eq (htx : h.gate.tx = some (hdr, frame))
    (hin : h.gate.lastCookie.toNat + hdr.bounceLen.toNat ≤ BOUNCE_POOL_SIZE) :
    takeTx build h =
      (.ok (some (hdr, frame, h.mem.pool.get h.gate.lastCookie.toNat hdr.bounceLen.toNat)),
        { h with gate := { h.gate with tx := none } }) := by
  rw [takeTx, htx]
  dsimp only
  rw [txBounce_eq hin, ok_bind]

variable {c' : VsockConn}

theorem wrapOutgoing_eq (hconn : h.conn = some c')
    (payload : Bytes) : wrapOutgoing payload h = (.ok (c'.wrapRw payload), h) := by
  rw [wrapOutgoing, onConn_eq hconn]
  exact congrArg (fun conn => (ok (c'.wrapRw payload), { h with conn := conn })) hconn.symm

def queuedPdu (h : VirtHal) (hdr : PduHeader) (frame : CallFrame) : Bytes :=
  encodePdu hdr frame (h.mem.pool.get h.gate.lastCookie.toNat hdr.bounceLen.toNat)

theorem sendTx_eq (htx : g.hal.gate.tx = some (hdr, frame))
    (hin : g.hal.gate.lastCookie.toNat + hdr.bounceLen.toNat ≤ BOUNCE_POOL_SIZE)
    (hconn : g.hal.conn = some c') :
    sendTx build g = (.ok (), { g with
      hal := { g.hal with gate := { g.hal.gate with tx := none } }
      sent := g.sent ++
        [(c'.wrapRw (queuedPdu g.hal hdr frame), queuedPdu g.hal hdr frame)] }) := by
  have hwrap := wrapOutgoing_eq (h := { g.hal with gate := { g.hal.gate with tx := none } }) hconn
    (queuedPdu g.hal hdr frame)
  rw [sendTx, bind_of_ok (onHal_of_ok (takeTx_eq htx hin))]
  dsimp only
  have hout := onHal_of_ok (κ := κ)
    (g := { g with hal := { g.hal with gate := { g.hal.gate with tx := none } } }) hwrap
  exact bind_of_ok hout

theorem completeCall_eq (build : Build) {h1 : VirtHal} {out : CallFrame}
    (hgate : onGate (complete out) g.hal = (.ok (), h1)) (htx : h1.gate.tx = some (hdr, frame))
    (hin : h1.gate.lastCookie.toNat + hdr.bounceLen.toNat ≤ BOUNCE_POOL_SIZE)
    (hconn : h1.conn = some c') :
    completeCall build out g = (.ok (), { g with
      hal := { h1 with gate := { h1.gate with tx := none } }
      sent := g.sent ++ [(c'.wrapRw (queuedPdu h1 hdr frame), queuedPdu h1 hdr frame)] }) := by
  have hwrap := wrapOutgoing_eq (h := { h1 with gate := { h1.gate with tx := none } }) hconn
    (queuedPdu h1 hdr frame)
  have hstream : completeStream build out g.hal = _ :=
    (bind_of_ok hgate).trans ((bind_of_ok (takeTx_eq htx hin)).trans (bind_of_ok hwrap))
  rw [completeCall, bind_of_ok (onHal_of_ok hstream)]
  rfl

theorem completeCall_serving (build : Build) (h : Serving c p g) :
    ∃ g', completeCall build p.frame g = (.ok (), g') ∧ Idle g' ∧ OnConn c [] g' ∧
      g'.hal.mem = g.hal.mem ∧ g'.kernel = g.kernel ∧
      emitted g' = emitted g ++ [completePdu p g'.pool] := by
  obtain ⟨c', hc', hends, hrx⟩ := h.conn
  have hgate : onGate (complete p.frame) g.hal = (.ok (), { g.hal with
      gate := { g.hal.gate with
        tx := some (⟨KIND_COMPLETE, g.hal.gate.seq, UInt32.ofNat CALL_FRAME_LEN,
          g.hal.gate.lastBounceLen⟩, p.frame)
        yielding := false, rx := none } }) := rfl
  have hin : g.hal.gate.lastCookie.toNat + g.hal.gate.lastBounceLen.toNat ≤ BOUNCE_POOL_SIZE := by
    rw [h.cookie, h.bounceLen]
    exact h.inPool
  have hpdu : encodePdu ⟨KIND_COMPLETE, g.hal.gate.seq, UInt32.ofNat CALL_FRAME_LEN,
      g.hal.gate.lastBounceLen⟩ p.frame
        (g.pool.get g.hal.gate.lastCookie.toNat g.hal.gate.lastBounceLen.toNat) =
      completePdu p g.pool := by
    rw [completePdu, h.seq, h.cookie, h.bounceLen]
  have hrun := completeCall_eq build hgate rfl hin hc'
  generalize hg' : GuestState.mk _ _ _ _ = g' at hrun
  have hemitted : emitted g' = emitted g ++ [completePdu p g.pool] := by
    rw [← hpdu, ← hg']
    exact emitted_rw rfl rfl
  have hpool : g'.pool = g.pool := by
    rw [← hg']
    rfl
  refine ⟨g', hrun, ⟨?_, ?_, asked_of_emitted hemitted⟩, ?_, ?_, ?_, ?_⟩
  · rw [← hg']
  · rw [← hg']
    exact h.waiting
  · rw [← hg']
    exact ⟨c', hc', hends, hrx⟩
  · rw [← hg']
  · rw [← hg']
  · rw [hpool]
    exact hemitted

theorem writeResult_serving (build : Build) (h : Serving c p g) (ret origin session : UInt32)
    (produced : Params) :
    ∃ pool, writeDone build g.pool p.frame.cookieA1a2 ret origin session produced = .ok pool ∧
      writeResult build p.frame ret origin session produced g = (.ok (), g.withPool pool) ∧
      Serving c p (g.withPool pool) := by
  have hdone : ∃ pool, writeDone build g.pool p.frame.cookieA1a2 ret origin session produced =
      .ok pool := writeDone_eq_ok h.inPool.cookie ret origin session produced
  obtain ⟨pool, hpool⟩ := hdone
  refine ⟨pool, hpool, ?_, h.withMem _ g.kernel⟩
  rw [writeResult, hpool]

/-- The RPC is queued: the gate has the window of the RPC, that of the ENTER is saved. -/
def loadTaQueued (g : GuestState κ) (pool : Pool) : GuestState κ :=
  { g with hal := { g.hal with
    mem := { g.hal.mem with pool := pool }
    enterCookie := g.hal.gate.lastCookie
    enterBounceLen := g.hal.gate.lastBounceLen
    gate := { g.hal.gate with
      lastCookie := RPC_COOKIE, lastBounceLen := 96, yielding := true
      tx := some (⟨KIND_RPC, g.hal.gate.seq, UInt32.ofNat CALL_FRAME_LEN, 96⟩,
        rpcFrame RPC_COOKIE) } } }

/-- Nothing is in the gate's receive slot, so `rpc_yield` ends in `NotFound` with the RPC in
the transmit slot. -/
theorem sendLoadTa_queued (build : Build) (hrx : g.hal.gate.rx = none) (uuid : Uuid) :
    ∃ pool, packLoadTa g.pool uuid = .ok (RPC_COOKIE, 96, pool) ∧
      sendLoadTa build uuid g = sendTx build (loadTaQueued g pool) := by
  obtain ⟨pool, hpack⟩ := packLoadTa_eq_ok g.pool uuid
  have hyield : onHal (onGate (rpcYield (rpcFrame RPC_COOKIE)))
      { g.withPool pool with hal := (g.withPool pool).hal.setRpcWindow RPC_COOKIE 96 } =
      (.ok (.error .notFound), loadTaQueued g pool) := by
    apply onHal_of_err
    rw [onGate, zoom, rpcYield]
    simp only [setRpcWindow, GuestState.withPool, hrx]
  refine ⟨pool, hpack, ?_⟩
  rw [sendLoadTa, bind_of_ok (gets_apply GuestState.pool g), hpack]
  dsimp only
  rw [bind_of_ok (modify_apply _ g),
    bind_of_ok (modify_apply _ (g.withPool pool)), bind_of_ok hyield]

/-- The RPC goes out with its own window, and the window of the ENTER is saved. -/
theorem sendLoadTa_serving (build : Build) (h : Serving c p g) (uuid : Uuid) :
    ∃ g', sendLoadTa build uuid g = (.ok (), g') ∧
      Parked p { g' with waiting := some p.frame } ∧ OnConn c [] g' ∧
      packLoadTa g.pool uuid = .ok (RPC_COOKIE, 96, g'.pool) ∧ g'.kernel = g.kernel ∧
      emitted g' = emitted g ++ [rpcPdu p g'.pool] := by
  obtain ⟨c', hc', hends, hrx⟩ := h.conn
  obtain ⟨pool, hpack, hqueued⟩ := sendLoadTa_queued build h.rx uuid
  have hconn : (loadTaQueued g pool).hal.conn = some c' := hc'
  have hin : RPC_COOKIE.toNat + (96 : UInt32).toNat ≤ BOUNCE_POOL_SIZE := by decide
  have hrun := hqueued.trans (sendTx_eq rfl hin hconn)
  generalize hg' : GuestState.mk _ _ _ _ = g' at hrun
  have hemitted : emitted g' = emitted g ++ [rpcPdu p pool] := by
    rw [rpcPdu, ← h.seq, ← hg']
    exact emitted_rw rfl rfl
  have hasked : asked { g' with waiting := some p.frame } = true :=
    asked_of_emitted (g := g) hemitted
  have hpool : g'.pool = pool := by
    rw [← hg']
    rfl
  refine ⟨g', hrun, ⟨rfl, ?_, ?_, ?_, h.inPool, hasked⟩, ?_, ?_, ?_, ?_⟩
  · rw [← hg']
    exact h.seq
  · rw [← hg']
    exact h.cookie
  · rw [← hg']
    exact h.bounceLen
  · rw [← hg']
    exact ⟨c', hc', hends, hrx⟩
  · rw [hpool]
    exact hpack
  · rw [← hg']
    rfl
  · rw [hpool]
    exact hemitted

end Answer

/-! ### Importing memrefs -/

section Import

variable {c : VsockConn} {p : Pdu}

def MemrefInside : Param → Prop
  | .memref (.ree cookie offs) size _ =>
    cookie.toNat + offs.toNat + size.toNat ≤ BOUNCE_POOL_SIZE
  | _ => True

instance (param : Param) : Decidable (MemrefInside param) :=
  match param with
  | .memref (.ree _ _) _ _ => inferInstanceAs (Decidable (_ ≤ _))
  | .memref (.ta _) _ _ => isTrue trivial
  | .value _ _ _ => isTrue trivial
  | .none => isTrue trivial

/-- The import may fail and touches the memory only; it panics only when the end of the
memref overflows. -/
theorem importShm_eq (build : Build) (offset len : UInt64) (perms : Perms) (h : VirtHal) :
    ∃ r mem, importShm build offset len perms h = (r, { h with mem := mem }) ∧
      (offset.toNat + len.toNat < 2 ^ 64 → r ≠ .panic) := by
  rw [importShm]
  split
  · exact ⟨.err .permDenied, h.mem, rfl, by simp⟩
  · rw [bind_apply, lift_apply]
    cases hstop : (usizeAdd build offset len : Fallible HalError UInt64) with
    | err e => exact ⟨.err e, h.mem, rfl, by simp⟩
    | panic =>
      refine ⟨.panic, h.mem, rfl, ?_⟩
      intro hin
      rw [usizeAdd_of_lt build hin] at hstop
      cases hstop
    | ok =>
      dsimp only
      split
      · exact ⟨.err .invalidParam, h.mem, rfl, by simp⟩
      · by_cases halign : offset.toNat % MSG_ARG_ALIGN ≠ 0
        · erw [if_pos halign]
          exact ⟨.err .badAlignment, h.mem, rfl, by simp⟩
        · erw [if_neg halign]
          cases updateShm offset len perms h.mem.shms with
          | some => exact ⟨.ok (), _, rfl, by simp⟩
          | none =>
            cases insertShm ⟨offset, len, perms⟩ h.mem.shms with
            | some => exact ⟨.ok (), _, rfl, by simp⟩
            | none => exact ⟨.err .noMemory, h.mem, rfl, by simp⟩

theorem importMemref_serving (build : Build) {g : GuestState κ} (h : Serving c p g) {param : Param}
    (hin : MemrefInside param) :
    ∃ g', importMemref build param g = (.ok (), g') ∧ Serving c p g' ∧ g'.kernel = g.kernel ∧
      emitted g' = emitted g := by
  have hpool : BOUNCE_POOL_SIZE + 1 < 2 ^ 64 := by decide
  rw [importMemref.eq_def]
  split
  · rename_i cookie offs size dir
    have hstart : cookie.toNat + offs.toNat < 2 ^ 64 := by
      rw [MemrefInside] at hin
      omega
    have hlen : (UInt64.ofNat (cookie.toNat + offs.toNat)).toNat +
        (if size = 0 then 1 else size).toNat < 2 ^ 64 := by
      rw [MemrefInside] at hin
      rw [UInt64.toNat_ofNat', Nat.mod_eq_of_lt hstart]
      split
      · rw [show (1 : UInt64).toNat = 1 from rfl]
        omega
      · omega
    obtain ⟨r, mem, himport, hr⟩ := importShm_eq build _ _ (permsOf dir) g.hal
    refine ⟨{ g with hal := { g.hal with mem := mem } }, ?_, h.withMem mem g.kernel, rfl, rfl⟩
    rw [usizeAdd_of_lt build hstart, lift_ok_bind]
    cases r with
    | ok => exact bind_of_ok (onHal_of_ok himport)
    | err => exact bind_of_ok (onHal_of_err himport)
    | panic => exact absurd rfl (hr hlen)
  · exact ⟨g, rfl, h, rfl, rfl⟩

theorem importAll_keeps {build : Build} {F : Frame (GuestState κ)} {params : List Param}
    (himport : ∀ param ∈ params, Keeps F (importMemref build param)) :
    Keeps F (importAll build params) := by
  induction params with
  | nil => exact keeps_pure _
  | cons param params ih =>
    obtain ⟨hparam, hrest⟩ := forall_mem_cons.mp himport
    exact hparam.bind fun _ => ih hrest

theorem importAll_serving (build : Build) :
    ∀ {params : List Param} {g : GuestState κ}, Serving c p g → (∀ x ∈ params, MemrefInside x) →
      ∃ g', importAll build params g = (.ok (), g') ∧ Serving c p g' ∧ g'.kernel = g.kernel ∧
        emitted g' = emitted g := by
  intro params
  induction params with
  | nil =>
    intro g h _
    exact ⟨g, rfl, h, rfl, rfl⟩
  | cons x params ih =>
    intro g h hin
    obtain ⟨g1, hx, h1, hkernel1, hemitted1⟩ := importMemref_serving build h (hin x mem_cons_self)
    obtain ⟨g', hrest, h', hkernel', hemitted'⟩ := ih h1 fun y hy => hin y (mem_cons_of_mem _ hy)
    refine ⟨g', ?_, h', hkernel'.trans hkernel1, hemitted'.trans hemitted1⟩
    rw [importAll, bind_of_ok hx]
    exact hrest

end Import

/-! ### Serving a call -/

section Serve

variable {K : GuestKernel κ} {build : Build} {Stuck : κ → Prop} {c : VsockConn} {p : Pdu}

/-- `Stuck` holds of the kernel whenever `handle` has not returned. -/
def Detects (K : GuestKernel κ) (Stuck : κ → Prop) : Prop :=
  ∀ cmd mem k, (∀ out, (K.handle cmd mem k).1 ≠ .value out) → Stuck (K.handle cmd mem k).2.2

/-- The kernel got stuck, or the program returned in a state with `Q`. -/
def Ends (Stuck : κ → Prop) (Q : GuestState κ → Prop) (r : Fallible FailHalt Unit × GuestState κ) :
    Prop :=
  (r.1 = .panic ∧ Stuck r.2.kernel) ∨ (r.1 = .ok () ∧ Q r.2)

variable {Q R : GuestState κ → Prop}

theorem Ends.mono {r : Fallible FailHalt Unit × GuestState κ}
    (h : Ends Stuck Q r) (himp : ∀ g, Q g → R g) : Ends Stuck R r := by
  rcases h with hstuck | ⟨hok, hq⟩
  · exact .inl hstuck
  · exact .inr ⟨hok, himp _ hq⟩

variable {g : GuestState κ}

theorem Ends.bind {x : GM κ Unit} {f : Unit → GM κ Unit} (h : Ends Stuck Q (x g))
    (hf : ∀ g', Q g' → Ends Stuck R (f () g')) : Ends Stuck R ((x >>= f) g) := by
  obtain ⟨r, g', hx⟩ : ∃ r g', x g = (r, g') := ⟨_, _, rfl⟩
  rw [hx] at h
  rcases h with ⟨hpanic, hstuck⟩ | ⟨hok, hq⟩
  · dsimp only at hpanic hstuck
    rw [hpanic] at hx
    rw [bind_of_panic hx]
    exact .inl ⟨rfl, hstuck⟩
  · dsimp only at hok hq
    rw [hok] at hx
    rw [bind_of_ok hx]
    exact hf g' hq

def Completed (c : VsockConn) (p : Pdu) (before : List Bytes) (g : GuestState κ) : Prop :=
  OnConn c [] g ∧ Idle g ∧ emitted g = before ++ [completePdu p g.pool]

def Asking (c : VsockConn) (p : Pdu) (before : List Bytes) (g : GuestState κ) : Prop :=
  OnConn c [] g ∧ Parked p g ∧ emitted g = before ++ [rpcPdu p g.pool]

theorem writeAndComplete (build : Build) (h : Serving c p g)
    (ret origin session : UInt32) (produced : Params) :
    ∃ g' pool, (writeResult build p.frame ret origin session produced >>= fun _ =>
      completeCall build p.frame) g = (.ok (), g') ∧ Completed c p (emitted g) g' ∧
      writeDone build g.pool p.frame.cookieA1a2 ret origin session produced = .ok pool ∧
      g'.hal.mem = ⟨pool, g.hal.mem.shms⟩ ∧ g'.kernel = g.kernel := by
  obtain ⟨pool, hdone, hwrite, h1⟩ := writeResult_serving build h ret origin session produced
  obtain ⟨g', hcomplete, hidle, hconn, hmem, hkernel, hemitted⟩ := completeCall_serving build h1
  refine ⟨g', pool, ?_, ⟨hconn, hidle, hemitted⟩, hdone, hmem, hkernel⟩
  rw [bind_of_ok hwrite]
  exact hcomplete

theorem dispatch_done (build : Build) (h : Serving c p g) (result : TeeResult)
    (session : Option SessionId) (produced : Params) :
    ∃ g' pool, dispatchOut build p.frame (.done result session produced) g = (.ok (), g') ∧
      Completed c p (emitted g) g' ∧
      writeDone build g.pool p.frame.cookieA1a2 result.code (asGp result.origin)
        (session.getD 0) produced = .ok pool ∧
      g'.hal.mem = ⟨pool, g.hal.mem.shms⟩ ∧ g'.kernel = g.kernel :=
  writeAndComplete build h _ _ _ produced

theorem dispatch_rpc (build : Build) (h : Serving c p g) (uuid : Uuid) :
    ∃ g', dispatchOut build p.frame (.rpc (.loadTa uuid)) g = (.ok (), g') ∧
      Asking c p (emitted g) g' ∧ packLoadTa g.pool uuid = .ok (RPC_COOKIE, 96, g'.pool) ∧
      g'.kernel = g.kernel := by
  obtain ⟨g1, hsend, hparked, hconn, hpack, hkernel, hemitted⟩ := sendLoadTa_serving build h uuid
  refine ⟨{ g1 with waiting := some p.frame }, ?_, ⟨hconn, hparked, hemitted⟩, hpack, hkernel⟩
  rw [dispatchOut, bind_of_ok hsend]
  rfl

/-- A command of the call: the kernel does not return, or the call goes on. -/
theorem kernelHandle_serving (hdetects : Detects K Stuck) (h : Serving c p g) (cmd : KernelCmd) :
    (∃ g', kernelHandle K cmd g = (.panic, g') ∧ Stuck g'.kernel) ∨
      ∃ out mem k, K.handle cmd g.hal.mem g.kernel = (.value out, mem, k) ∧
        ∃ g', kernelHandle K cmd g = (.ok out, g') ∧ Serving c p g' ∧ emitted g' = emitted g := by
  have hstuck := hdetects cmd g.hal.mem g.kernel
  obtain ⟨exit, mem, k, hhandle⟩ : ∃ e mem k, K.handle cmd g.hal.mem g.kernel = (e, mem, k) :=
    ⟨_, _, _, rfl⟩
  rw [hhandle] at hstuck
  cases exit with
  | value out =>
    refine .inr ⟨out, mem, k, hhandle, _, ?_, h.withMem mem k, rfl⟩
    rw [kernelHandle, hhandle]
  | unwind | abort =>
    refine .inl ⟨{ g with hal := { g.hal with mem := mem }, kernel := k }, ?_, hstuck (by simp)⟩
    rw [kernelHandle, hhandle]

def MemrefsInside (build : Build) (p : Pdu) (pool : Pool) : Prop :=
  ∀ cmd, decodeCmd build pool p.frame.cookieA1a2 = .ok cmd →
    ∀ param ∈ cmdParams cmd, MemrefInside param

instance (build : Build) (p : Pdu) (pool : Pool) : Decidable (MemrefsInside build p pool) :=
  match hcmd : decodeCmd build pool p.frame.cookieA1a2 with
  | .ok cmd => decidable_of_iff (∀ param ∈ cmdParams cmd, MemrefInside param)
      ⟨fun h cmd' hcmd' => ok.inj (hcmd.symm.trans hcmd') ▸ h, fun h => h cmd hcmd⟩
  | .err _ => isTrue fun _ hok => by
      rw [hcmd] at hok
      cases hok
  | .panic => isTrue fun _ hok => by
      rw [hcmd] at hok
      cases hok

theorem handleEnter_ends (build : Build) (hasks : AsksOnce K)
    (hdetects : Detects K Stuck) (h : Serving c p g) (hmemrefs : MemrefsInside build p g.pool) :
    Ends Stuck (fun g' => Completed c p (emitted g) g' ∨ Asking c p (emitted g) g')
      (handleEnter K build p.frame g) := by
  rw [handleEnter, bind_of_ok (gets_apply pool g)]
  cases hcmd : decodeCmd build g.pool p.frame.cookieA1a2 with
  | panic => exact absurd hcmd (decodeCmd_ne_panic h.inPool.cookie)
  | err =>
    obtain ⟨g', -, hrun, hdone, -⟩ := writeAndComplete build h 0xFFFF0006 4 0 noParams
    dsimp only
    rw [hrun]
    exact .inr ⟨rfl, .inl hdone⟩
  | ok cmd =>
    obtain ⟨g1, himport, h1, -, hemitted1⟩ := importAll_serving build h (hmemrefs cmd hcmd)
    dsimp only
    rw [importMemrefs, bind_of_ok himport]
    rcases kernelHandle_serving hdetects h1 cmd with
      ⟨g', hpanic, hstuck⟩ | ⟨out, mem, k, hhandle, g2, hrun, h2, hemitted2⟩
    · rw [bind_of_panic hpanic]
      exact .inl ⟨rfl, hstuck⟩
    · rw [bind_of_ok hrun, ← hemitted1, ← hemitted2]
      cases out with
      | done result session produced =>
        obtain ⟨g', -, hout, hdone, -⟩ := dispatch_done build h2 result session produced
        rw [hout]
        exact .inr ⟨rfl, .inl hdone⟩
      | rpc =>
        obtain ⟨⟨uuid, rfl⟩, -⟩ := hasks hhandle
        obtain ⟨g', hout, hasking, -⟩ := dispatch_rpc build h2 uuid
        rw [hout]
        exact .inr ⟨rfl, .inr hasking⟩

theorem handleRpcReply_ends (build : Build) (hasks : AsksOnce K)
    (hdetects : Detects K Stuck) (h : Serving c p g) :
    Ends Stuck (Completed c p (emitted g)) (handleRpcReply K build p.frame g) := by
  have hresp : ∃ resp, loadTaResponse build g.pool = .ok resp := by
    rw [loadTaResponse]
    cases htake : takeLoadTa build g.pool with
    | ok bytes => exact ⟨.loadTa bytes, rfl⟩
    | err code => exact ⟨.error code, rfl⟩
    | panic => exact absurd htake takeLoadTa_ne_panic
  obtain ⟨resp, hresp⟩ := hresp
  rw [handleRpcReply, bind_of_ok (gets_apply pool g), hresp, lift_ok_bind]
  rcases kernelHandle_serving hdetects h (.rpcComplete resp) with
    ⟨g', hpanic, hstuck⟩ | ⟨out, mem, k, hhandle, g1, hrun, h1, hemitted1⟩
  · rw [bind_of_panic hpanic]
    exact .inl ⟨rfl, hstuck⟩
  · rw [bind_of_ok hrun, ← hemitted1]
    cases out with
    | done result session produced =>
      obtain ⟨g', -, hout, hdone, -⟩ := dispatch_done build h1 result session produced
      rw [hout]
      exact .inr ⟨rfl, hdone⟩
    | rpc => exact absurd rfl ((hasks hhandle).2 resp)

/-! ### The packets of a whole PDU -/

/-- A property of a state between two PDUs that the stream does not change. -/
structure Settled (c : VsockConn) (Q : GuestState κ → Prop) : Prop where
  conn : ∀ {g}, Q g → OnConn c [] g
  stays : ∀ {g g'}, Stays g g' → OnConn c [] g' → Q g → Q g'

theorem pool_of_stays {g' : GuestState κ} (h : Stays g g') : g'.pool = g.pool := by
  rw [pool, h.mem]
  rfl

variable (before : List Bytes)

theorem settled_completed : Settled (κ := κ) c (Completed c p before) where
  conn := fun h => h.1
  stays := by
    rintro g g' hstays hconn ⟨-, hidle, hemitted⟩
    refine ⟨hconn, hstays.idle hidle, ?_⟩
    rw [hstays.emitted, pool_of_stays hstays]
    exact hemitted

theorem settled_asking : Settled (κ := κ) c (Asking c p before) where
  conn := fun h => h.1
  stays := by
    rintro g g' hstays hconn ⟨-, hparked, hemitted⟩
    refine ⟨hconn, hstays.parked hparked, ?_⟩
    rw [hstays.emitted, pool_of_stays hstays]
    exact hemitted

theorem Settled.or (hq : Settled c Q) (hr : Settled c R) : Settled c fun g => Q g ∨ R g where
  conn := by
    rintro g (h | h)
    · exact hq.conn h
    · exact hr.conn h
  stays := by
    rintro g g' hstays hconn (h | h)
    · exact .inl (hq.stays hstays hconn h)
    · exact .inr (hr.stays hstays hconn h)

theorem encode_ne_nil (p : Pdu) : p.encode ≠ [] := by
  intro h
  have hlen := p.length_encode
  rw [h, length_nil, PDU_HDR_LEN] at hlen
  omega

variable {rx : Bytes} {pks : List Packet}

/-- The packets of a PDU, however it is cut: those before the last piece only grow the
stream, the last piece makes the loop take the PDU, and those after it change nothing. -/
theorem whole_ends (hsettled : Settled c Q) (hconn : OnConn c rx g) (hof : OfConn c pks)
    (hne : rx ≠ p.encode) (hbytes : rx ++ rwPayloads pks = p.encode)
    (hreceive : ∀ g1, Stays g g1 → OnConn c p.encode g1 → Ends Stuck Q (receive K build g1)) :
    Ends Stuck Q (vsockLoop K build pks g) := by
  obtain ⟨before, pk, after, rfl, hop, hpart, hlast, hafter⟩ := split_whole hne hbytes
  obtain ⟨hofBefore, hofRest⟩ := hof.append
  have htakes : c.Takes pk.hdr pk.payload := (hofRest pk mem_cons_self).2 hop
  have hofAfter : OfConn c after := fun q hq => hofRest q (mem_cons_of_mem _ hq)
  have hfront : rx ++ rwPayloads before <+: p.encode := ⟨pk.payload, hlast⟩
  obtain ⟨g1, hbefore, hstays1, hconn1⟩ := loop_part (K := K) hofBefore hconn hfront hpart
  obtain ⟨g2, hpush, hstays2, hconn2⟩ := push_eq hconn1 htakes
  rw [hlast] at hconn2
  have hrequest : pk.hdr.op ≠ VIRTIO_VSOCK_OP_REQUEST := (hofRest pk mem_cons_self).1
  have hpacket : Ends Stuck Q (onPacket K build pk.hdr pk.payload g1) := by
    rw [onPacket, if_neg hrequest, if_pos hop, onRw, bind_of_ok hpush]
    apply Ends.bind (hreceive g2 (hstays1.trans hstays2) hconn2)
    intro g' hq
    obtain ⟨g'', hcredit, hstays, hconn'⟩ := sendCredit_eq (hsettled.conn hq)
    rw [hcredit]
    exact .inr ⟨rfl, hsettled.stays hstays hconn' hq⟩
  rw [vsockLoop_append, bind_of_ok hbefore, vsockLoop_cons]
  apply Ends.bind hpacket
  intro g' hq
  have hnil : [] ++ rwPayloads after = [] := hafter
  obtain ⟨g'', hloop, hstays, hconn'⟩ := loop_part (K := K) (p := p) hofAfter (hsettled.conn hq)
    (by rw [hnil]; exact nil_prefix) (by rw [hnil]; exact (encode_ne_nil p).symm)
  rw [hnil] at hconn'
  rw [hloop]
  exact .inr ⟨rfl, hsettled.stays hstays hconn' hq⟩

theorem enter_ends (hasks : AsksOnce K) (hdetects : Detects K Stuck) (hconn : OnConn c rx g)
    (hidle : Idle g)
    (hof : OfConn c pks) (hne : rx ≠ p.encode) (hbytes : rx ++ rwPayloads pks = p.encode)
    (hkind : p.hdr.kind = KIND_ENTER) (hin : InPool p)
    (hmemrefs : MemrefsInside build p (poolWith p g)) :
    Ends Stuck (fun g' => Completed c p (emitted g) g' ∨ Asking c p (emitted g) g')
      (vsockLoop K build pks g) := by
  apply whole_ends ((settled_completed _).or (settled_asking _)) hconn hof hne hbytes
  intro g1 hstays hconn1
  have hidle1 := hstays.idle hidle
  obtain ⟨g2, hrecv, hserving, hmem, -, hemitted⟩ := recvEnter_whole hconn1 hidle1 hkind hin
  have hpool2 : g2.pool = poolWith p g := by
    rw [pool, hmem]
    show poolWith p g1 = poolWith p g
    rw [poolWith, pool_of_stays hstays]
    rfl
  have hends := handleEnter_ends build hasks hdetects hserving (by rw [hpool2]; exact hmemrefs)
  rw [hemitted, hstays.emitted] at hends
  rw [receive, bind_of_ok (gets_apply waiting g1), hidle1.waiting]
  dsimp only
  rw [bind_of_ok hrecv]
  exact hends

/-- The RPC_REPLY for the parked ENTER `p`. -/
theorem reply_ends (hasks : AsksOnce K) (hdetects : Detects K Stuck) {q : Pdu}
    (hconn : OnConn c rx g) (hparked : Parked p g)
    (hof : OfConn c pks) (hne : rx ≠ q.encode) (hbytes : rx ++ rwPayloads pks = q.encode)
    (hkind : q.hdr.kind = KIND_RPC_REPLY) (hin : InPool q) :
    Ends Stuck (Completed c p (emitted g)) (vsockLoop K build pks g) := by
  apply whole_ends (settled_completed _) hconn hof hne hbytes
  intro g1 hstays hconn1
  have hparked1 := hstays.parked hparked
  obtain ⟨g2, hrecv, hserving, -, -, hemitted⟩ := recvRpcReply_whole hconn1 hparked1 hkind hin
  have hends := handleRpcReply_ends build hasks hdetects hserving
  have hbefore : emitted { g2 with waiting := none } = emitted g := hemitted.trans hstays.emitted
  rw [hbefore] at hends
  rw [receive, bind_of_ok (gets_apply waiting g1), hparked1.waiting]
  dsimp only
  rw [bind_of_ok hrecv]
  exact hends

end Serve

end Rustee.Guest
