import Rustee.GuestMsg
import Rustee.OsLoadProtocol

/-!
# The guest's vsock loop (`guest/rustee-guest/src/main.rs`)

One used receive buffer after the other: a REQUEST is accepted, the payload of an RW packet goes to
the stream and, when a PDU is complete, an ENTER to the kernel or an RPC_REPLY to the call that
waits for it. The loop ends only in `fail_halt` or a panic. Packets for the transmit queue are
collected in order; the queue takes every packet, and UART output is left out. Allocation is taken
to succeed, although the guest's allocator (`heap.rs`) never frees what it has given out.
-/

namespace Rustee.Guest

open Os Virt Attempt VirtHal List

/-! ### State -/

/-- Where the loop calls `fail_halt`. The halts on a pool that cannot be borrowed whole
are left out: the pool has that size. -/
inductive FailHalt where
  /-- "vsock REQUEST reject" -/
  | requestReject
  /-- "rpc reply" -/
  | rpcReply
  /-- "rpc not LoadTa" -/
  | rpcNotLoadTa
  /-- "pack LOAD_TA" -/
  | packLoadTa
  /-- "rpc tx" -/
  | rpcTx
deriving Repr, DecidableEq

/-- The kernel as the loop sees it: a command may change what it reaches of the HAL and
the kernel's own state `κ`, and may fail to return. -/
structure GuestKernel (κ : Type) where
  handle : KernelCmd → HalMem → κ → Exit KernelOut × HalMem × κ

structure GuestState (κ : Type) where
  hal : VirtHal
  kernel : κ
  /-- The frame of the ENTER that waits for an RPC_REPLY. -/
  waiting : Option CallFrame
  /-- The packets sent, header and payload. -/
  sent : List (VirtioVsockHdr × Bytes)

abbrev GM (κ α : Type) := Attempt (GuestState κ) FailHalt α

variable {κ : Type} (K : GuestKernel κ) (build : Build)

namespace GuestState

def pool (g : GuestState κ) : Pool := g.hal.mem.pool

def withPool (g : GuestState κ) (pool : Pool) : GuestState κ :=
  { g with hal := { g.hal with mem := { g.hal.mem with pool := pool } } }

end GuestState

/-- `k.hal_mut().f(..)`: the caller looks at the result. -/
def onHal {α : Type} (x : Attempt VirtHal HalError α) : GM κ (Except HalError α) := fun g =>
  match x g.hal with
  | (.ok a, h) => (.ok (.ok a), { g with hal := h })
  | (.err e, h) => (.ok (.error e), { g with hal := h })
  | (.panic, h) => (.panic, { g with hal := h })

/-- `tx.add_out_owned` of header and payload; `send_rw`. -/
def addOut (hdr : VirtioVsockHdr) (payload : Bytes) : GM κ Unit :=
  modify fun g => { g with sent := g.sent ++ [(hdr, payload)] }

/-- `if let Ok(cu) = k.hal_mut().credit_update() { .. }` -/
def sendCredit : GM κ Unit := do
  match ← onHal creditUpdate with
  | .ok cu => addOut cu []
  | .error _ => pure ()

/-! ### Commands -/

section Commands

variable (K : GuestKernel κ) (build : Build)

/-- `k.handle(cmd)` -/
def kernelHandle (cmd : KernelCmd) : GM κ KernelOut := fun g =>
  match K.handle cmd g.hal.mem g.kernel with
  | (.value out, mem, k) => (.ok out, { g with hal := { g.hal with mem := mem }, kernel := k })
  | (_, mem, k) => (.panic, { g with hal := { g.hal with mem := mem }, kernel := k })

def permsOf : Dir → Perms
  | .input => Perms.READ
  | .output => Perms.WRITE
  | .inout => Perms.RW

def importMemref : Param → GM κ Unit
  | .memref (.ree cookie offs) size dir => do
    let start ← lift (usizeAdd build cookie offs)
    let _ ← onHal (importShm build start (if size = 0 then 1 else size) (permsOf dir))
    pure ()
  | _ => pure ()

def importAll : List Param → GM κ Unit
  | [] => pure ()
  | p :: ps => do
    importMemref build p
    importAll ps

def cmdParams : KernelCmd → List Param
  | .openSession _ _ params _ _ => params.toList
  | .invoke _ _ params _ _ => params.toList
  | _ => []

def importMemrefs (cmd : KernelCmd) : GM κ Unit := importAll build (cmdParams cmd)

/-- `Origin::as_gp` -/
def asGp : Origin → UInt32
  | .tee => 3
  | .trustedApp => 4

/-- `write_done` at the cookie of the call. -/
def writeResult (frame : CallFrame) (ret origin session : UInt32) (produced : Params) :
    GM κ Unit := fun g =>
  match writeDone build g.pool frame.cookieA1a2 ret origin session produced with
  | .ok pool => (.ok (), g.withPool pool)
  | .err _ => (.ok (), g)
  | .panic => (.panic, g)

/-- `if let Ok((vh, pdu)) = k.hal_mut().complete_stream(frame) { send_rw(..) }` -/
def completeCall (frame : CallFrame) : GM κ Unit := do
  match ← onHal (completeStream build frame) with
  | .ok (vh, pdu) => addOut vh pdu
  | .error _ => pure ()

def sendTx : GM κ Unit := do
  match ← onHal (takeTx build) with
  | .ok (some (hdr, frame, bounce)) => do
    let pdu := encodePdu hdr frame bounce
    match ← onHal (wrapOutgoing pdu) with
    | .ok vh => addOut vh pdu
    | .error _ => pure ()
  | _ => raise .rpcTx

def rpcFrame (cookie : UInt64) : CallFrame := CallFrame.setCookieA1a2 ⟨Vector.replicate 8 0⟩ cookie

def sendLoadTa (uuid : Uuid) : GM κ Unit := do
  match packLoadTa (← gets GuestState.pool) uuid with
  | .error _ => raise .packLoadTa
  | .ok (cookie, bounceLen, pool) => do
    modify fun g => g.withPool pool
    modify fun g => { g with hal := g.hal.setRpcWindow cookie bounceLen }
    -- the reply is not there yet: the result is `NotFound` and is not looked at
    let _ ← onHal (onGate (VirtCallGate.rpcYield (rpcFrame cookie)))
    sendTx build

def dispatchOut (frame : CallFrame) : KernelOut → GM κ Unit
  | .done result session produced => do
    writeResult build frame result.code (asGp result.origin) (session.getD 0) produced
    completeCall build frame
  | .rpc (.loadTa uuid) => do
    sendLoadTa build uuid
    modify fun g => { g with waiting := some frame }
  | .rpc _ => raise .rpcNotLoadTa

def handleEnter (frame : CallFrame) : GM κ Unit := do
  match decodeCmd build (← gets GuestState.pool) frame.cookieA1a2 with
  | .panic => lift .panic
  | .err _ => do
    writeResult build frame 0xFFFF0006 4 0 noParams
    completeCall build frame
  | .ok cmd => do
    importMemrefs build cmd
    let out ← kernelHandle K cmd
    dispatchOut build frame out

def loadTaResponse (pool : Pool) : Fallible FailHalt RpcResponse :=
  match takeLoadTa build pool with
  | .ok bytes => .ok (.loadTa bytes)
  | .err code => .ok (.error code)
  | .panic => .panic

def handleRpcReply (enter : CallFrame) : GM κ Unit := do
  let resp ← lift (loadTaResponse build (← gets GuestState.pool))
  let out ← kernelHandle K (.rpcComplete resp)
  dispatchOut build enter out

/-! ### Packets -/

def onRequest (hdr : VirtioVsockHdr) : GM κ Unit := do
  match ← onHal (acceptConnect hdr) with
  | .ok resp => do
    addOut resp []
    sendCredit
  | .error _ => raise .requestReject

def receive : GM κ Unit := do
  match ← gets GuestState.waiting with
  | some enter => do
    match ← onHal recvRpcReply with
    | .ok _ => do
      modify fun g => { g with waiting := none }
      handleRpcReply K build enter
    | .error .notFound => pure ()
    | .error _ => raise .rpcReply
  | none => do
    match ← onHal recvEnter with
    | .ok frame => handleEnter K build frame
    | .error _ => pure ()

def onRw (hdr : VirtioVsockHdr) (payload : Bytes) : GM κ Unit := do
  match ← onHal (pushHostRw hdr payload) with
  | .ok _ => do
    receive K build
    sendCredit
  | .error _ => pure ()

def onPacket (hdr : VirtioVsockHdr) (payload : Bytes) : GM κ Unit :=
  if hdr.op = VIRTIO_VSOCK_OP_REQUEST then onRequest hdr
  else if hdr.op = VIRTIO_VSOCK_OP_RW then onRw K build hdr payload
  else if hdr.op = VIRTIO_VSOCK_OP_CREDIT_REQUEST then sendCredit
  else pure ()

def onRx (bytes : Bytes) : GM κ Unit :=
  if bytes.length < VIRTIO_VSOCK_HDR_LEN then pure ()
  else
    match VirtioVsockHdr.decode (bytes.take VIRTIO_VSOCK_HDR_LEN) with
    | .ok hdr => onPacket K build hdr (bytes.drop VIRTIO_VSOCK_HDR_LEN)
    | .error _ => pure ()

end Commands

/-! ### Runs -/

/-- A packet of the host. -/
structure Packet where
  hdr : VirtioVsockHdr
  payload : Bytes
deriving Repr, DecidableEq

def Packet.bytes (p : Packet) : Bytes := p.hdr.encode ++ p.payload

/-- `vsock_loop` over the packets that arrive. -/
def vsockLoop (K : GuestKernel κ) (build : Build) : List Packet → GM κ Unit
  | [] => pure ()
  | p :: ps => do
    onRx K build p.bytes
    vsockLoop K build ps

theorem onRx_bytes (p : Packet) : onRx K build p.bytes = onPacket K build p.hdr p.payload := by
  have hlong : ¬ p.bytes.length < VIRTIO_VSOCK_HDR_LEN := by
    rw [Packet.bytes, length_append, VirtioVsockHdr.length_encode]
    omega
  have htake : p.bytes.take VIRTIO_VSOCK_HDR_LEN = p.hdr.encode :=
    take_left' (VirtioVsockHdr.length_encode p.hdr)
  have hdrop : p.bytes.drop VIRTIO_VSOCK_HDR_LEN = p.payload :=
    drop_left' (VirtioVsockHdr.length_encode p.hdr)
  rw [onRx, if_neg hlong, htake, hdrop, VirtioVsockHdr.decode_encode]

theorem vsockLoop_cons (p : Packet) (ps : List Packet) : vsockLoop K build (p :: ps) =
      (onPacket K build p.hdr p.payload >>= fun _ => vsockLoop K build ps) := by
  rw [vsockLoop, onRx_bytes]

theorem vsockLoop_append (ps qs : List Packet) :
    vsockLoop K build (ps ++ qs) = (vsockLoop K build ps >>= fun _ => vsockLoop K build qs) := by
  induction ps with
  | nil => rfl
  | cons p ps ih =>
    rw [cons_append, vsockLoop, ih, vsockLoop, bind_assoc]

/-! ### The kernel -/

/-- The modelled kernel under the loop. Its world is what a command reaches of the HAL
and the rest of the machine. -/
def osKernel {τ A S : Type} (env : Env (HalMem × τ) A S) :
    GuestKernel (Machine (HalMem × τ) A) where
  handle := fun cmd mem m =>
    let r := Os.handle env cmd { m with world := (mem, m.world.2) }
    (r.1, r.2.world.1, r.2)

def AsksOnce (K : GuestKernel κ) : Prop :=
  ∀ {cmd mem k request mem' k'}, K.handle cmd mem k = (.value (.rpc request), mem', k') →
    (∃ uuid, request = .loadTa uuid) ∧ ∀ resp, cmd ≠ .rpcComplete resp

theorem osKernel_asksOnce {τ A S : Type} (env : Env (HalMem × τ) A S) :
    AsksOnce (osKernel env) := by
  intro cmd mem k request mem' k' h
  have hexit : Os.handle env cmd { k with world := (mem, k.world.2) } =
      (.value (.rpc request), k') := by
    have hpair := Prod.mk.inj h
    have hstate := (Prod.mk.inj hpair.2).2
    exact Prod.ext hpair.1 hstate
  obtain ⟨y, ⟨hcmd, hout⟩, -⟩ := handle_asks hexit
  constructor
  · cases hout
    exact ⟨y.uuid, rfl⟩
  · intro resp hresp
    dsimp only at hcmd
    rw [hresp] at hcmd
    cases hcmd

end Rustee.Guest
