import Rustee.VirtStream

/-!
# The virt HAL (`rustee-hal-virt/src/lib.rs`)

The bounce pool, the call gate and the accepted connection.

One gate record holds the sequence number and the window of the call in progress. ENTER sets it,
an RPC points it at its own window and the reply points it back. The pool and the table of shared
memories stand apart (`HalMem`): they are what the kernel and the TAs can reach while a command
runs.
-/

namespace Rustee.Virt

open Attempt VsockConn

open Os (HalError Perms)

def BOUNCE_POOL_SIZE : Nat := 16 * 1024 * 1024
def MSG_ARG_ALIGN : Nat := 8

/-! ### The bounce pool -/

/-- `bounce_mem`: the byte at each offset below `BOUNCE_POOL_SIZE`. -/
structure Pool where
  byte : Nat → UInt8

namespace Pool

/-- `bounce_mem[start..start + len]` -/
def get (p : Pool) (start len : Nat) : Bytes := (List.range len).map fun i => p.byte (start + i)

/-- `bounce_mem[start..start + bytes.len()].copy_from_slice(bytes)` -/
def put (p : Pool) (start : Nat) (bytes : Bytes) : Pool :=
  ⟨fun i => if start ≤ i ∧ i < start + bytes.length then bytes.getD (i - start) 0 else p.byte i⟩

@[simp] theorem length_get (p : Pool) (start len : Nat) : (p.get start len).length = len := by
  simp [get]

end Pool

structure VirtShm where
  cookie : UInt64
  len : UInt64
  perms : Perms
deriving Repr, DecidableEq

/-- What a command can reach of the HAL. -/
structure HalMem where
  pool : Pool
  shms : List (Option VirtShm)

/-! ### The call gate -/

structure VirtCallGate where
  yielding : Bool
  rx : Option (PduHeader × CallFrame)
  tx : Option (PduHeader × CallFrame)
  seq : UInt32
  lastCookie : UInt64
  lastBounceLen : UInt32
deriving Repr, DecidableEq

namespace VirtCallGate

def recv : Attempt VirtCallGate HalError CallFrame := fun g =>
  if g.yielding then (.err .busy, g)
  else
    match g.rx with
    | some (hdr, frame) =>
      if hdr.kind = KIND_ENTER ∧ hdr.argLen = UInt32.ofNat CALL_FRAME_LEN then
        (.ok frame, { g with
          rx := none, seq := hdr.seq, lastCookie := frame.cookieA1a2
          lastBounceLen := hdr.bounceLen })
      else (.err .invalidParam, { g with rx := none })
    | none => (.err .notFound, g)

/-- Always `Ok`; the cookie of the frame is not looked at. -/
def complete (out : CallFrame) : Attempt VirtCallGate HalError Unit :=
  modify fun g => { g with
    tx := some (⟨KIND_COMPLETE, g.seq, UInt32.ofNat CALL_FRAME_LEN, g.lastBounceLen⟩, out)
    yielding := false
    rx := none }

def rpcYield (out : CallFrame) : Attempt VirtCallGate HalError CallFrame := fun g =>
  let g := { g with
    yielding := true
    tx := some (⟨KIND_RPC, g.seq, UInt32.ofNat CALL_FRAME_LEN, g.lastBounceLen⟩, out) }
  match g.rx with
  | some (hdr, frame) =>
    if hdr.kind = KIND_RPC_REPLY ∧ hdr.argLen = UInt32.ofNat CALL_FRAME_LEN then
      (.ok frame, { g with
        rx := none, yielding := false, lastCookie := frame.cookieA1a2
        lastBounceLen := hdr.bounceLen })
    else (.err .invalidParam, { g with rx := none })
  | none => (.err .notFound, g)

end VirtCallGate

/-! ### The HAL -/

structure VirtHal where
  gate : VirtCallGate
  mem : HalMem
  listener : VsockListener
  conn : Option VsockConn
  enterCookie : UInt64
  enterBounceLen : UInt32

namespace VirtHal

/-- `Hal::init`: listening, no connection, a zeroed pool. -/
def init : VirtHal where
  gate := ⟨false, none, none, 0, 0, 0⟩
  mem := ⟨⟨fun _ => 0⟩, List.replicate 32 none⟩
  listener := VsockListener.new.listen
  conn := none
  enterCookie := 0
  enterBounceLen := 0

def onGate {α : Type} (x : Attempt VirtCallGate HalError α) : Attempt VirtHal HalError α :=
  zoom VirtHal.gate (fun h g => { h with gate := g }) x

/-- `self.conn.as_mut().ok_or(HalError::NotFound)?` -/
def onConn {α : Type} (x : Attempt VsockConn HalError α) : Attempt VirtHal HalError α := fun h =>
  match h.conn with
  | some c => ((x c).1, { h with conn := some (x c).2 })
  | none => (.err .notFound, h)

def acceptConnect (req : VirtioVsockHdr) : Attempt VirtHal HalError VirtioVsockHdr := fun h =>
  match h.listener.accept req with
  | .ok resp => (.ok resp, { h with conn := some (fromAccept req h.listener) })
  | .error e => (.err e, h)

def pushHostRw (hdr : VirtioVsockHdr) (payload : Bytes) : Attempt VirtHal HalError Unit :=
  onConn (pushRw hdr payload)

/-- The window is inside the pool. A sum that overflows is refused as well, being
greater than the pool. -/
def copyBounceIn (cookie : UInt64) (bounce : Bytes) : Attempt VirtHal HalError Unit := fun h =>
  if cookie.toNat + bounce.length > BOUNCE_POOL_SIZE then (.err .invalidParam, h)
  else (.ok (), { h with mem := { h.mem with pool := h.mem.pool.put cookie.toNat bounce } })

def feedPdu (hdr : PduHeader) (frame : CallFrame) (bounce : Bytes) :
    Attempt VirtHal HalError Unit := do
  if hdr.argLen ≠ UInt32.ofNat CALL_FRAME_LEN then raise .invalidParam
  else if bounce.length ≠ hdr.bounceLen.toNat then raise .invalidParam
  else do
    copyBounceIn frame.cookieA1a2 bounce
    modify fun h => { h with gate := { h.gate with rx := some (hdr, frame) } }

variable (build : Build)

/-- The bytes behind the queued PDU: the gate's window if it is inside the pool, and
nothing otherwise. `start + len` is a `usize` sum, and the slice panics when it
wrapped. -/
def txBounce (pool : Pool) (cookie : UInt64) (len : UInt32) :
    Fallible HalError Bytes := do
  let stop ← usizeAdd build cookie len.toUInt64
  if stop.toNat ≤ BOUNCE_POOL_SIZE then
    if cookie.toNat ≤ stop.toNat then .ok (pool.get cookie.toNat len.toNat) else .panic
  else .ok []

def takeTx :
    Attempt VirtHal HalError (Option (PduHeader × CallFrame × Bytes)) := fun h =>
  match h.gate.tx with
  | none => (.ok none, h)
  | some (hdr, frame) =>
    (do
      let bounce ← txBounce build h.mem.pool h.gate.lastCookie hdr.bounceLen
      .ok (some (hdr, frame, bounce)), { h with gate := { h.gate with tx := none } })

def recvEnter : Attempt VirtHal HalError CallFrame := do
  let (hdr, frame, bounce) ← onConn takePdu
  feedPdu hdr frame bounce
  onGate VirtCallGate.recv

/-- Point the gate at the window of an RPC; the window of the ENTER is saved. -/
def setRpcWindow (cookie : UInt64) (bounceLen : UInt32) (h : VirtHal) : VirtHal :=
  { h with
    enterCookie := h.gate.lastCookie
    enterBounceLen := h.gate.lastBounceLen
    gate := { h.gate with lastCookie := cookie, lastBounceLen := bounceLen } }

/-- Read RPC_REPLY from the accepted stream and restore the window of the ENTER. -/
def recvRpcReply : Attempt VirtHal HalError CallFrame := do
  let (hdr, frame, bounce) ← onConn takePdu
  if hdr.kind ≠ KIND_RPC_REPLY ∨ hdr.argLen ≠ UInt32.ofNat CALL_FRAME_LEN then
    raise .invalidParam
  else do
    feedPdu hdr frame bounce
    modify fun h => { h with gate := { h.gate with
      rx := none, yielding := false, lastCookie := h.enterCookie
      lastBounceLen := h.enterBounceLen } }
    pure frame

def wrapOutgoing (payload : Bytes) : Attempt VirtHal HalError VirtioVsockHdr :=
  onConn (transform fun c => (c.wrapRw payload, c))

def creditUpdate : Attempt VirtHal HalError VirtioVsockHdr :=
  onConn (transform fun c => (c.creditUpdate, c))

def completeStream (out : CallFrame) :
    Attempt VirtHal HalError (VirtioVsockHdr × Bytes) := do
  onGate (VirtCallGate.complete out)
  match ← takeTx build with
  | none => raise .fault
  | some (hdr, frame, bounce) =>
    let pdu := encodePdu hdr frame bounce
    let vh ← wrapOutgoing pdu
    pure (vh, pdu)

/-- `iter_mut().flatten().find(|s| s.cookie() == offset)` -/
def updateShm (offset len : UInt64) (perms : Perms) :
    List (Option VirtShm) → Option (List (Option VirtShm))
  | [] => none
  | some s :: shms =>
    if s.cookie = offset then some (some ⟨offset, len, perms⟩ :: shms)
    else (updateShm offset len perms shms).map (some s :: ·)
  | none :: shms => (updateShm offset len perms shms).map (none :: ·)

/-- `iter_mut().find(|s| s.is_none())` -/
def insertShm (shm : VirtShm) : List (Option VirtShm) → Option (List (Option VirtShm))
  | [] => none
  | none :: shms => some (some shm :: shms)
  | some s :: shms => (insertShm shm shms).map (some s :: ·)

/-- `offset + len` is a `usize` sum. -/
def importShm (offset len : UInt64) (perms : Perms) :
    Attempt VirtHal HalError Unit := do
  if perms.exec then raise .permDenied
  else do
    let stop ← lift (usizeAdd build offset len)
    if stop.toNat > BOUNCE_POOL_SIZE then raise .invalidParam
    else if offset.toNat % MSG_ARG_ALIGN ≠ 0 then raise .badAlignment
    else fun h =>
      match updateShm offset len perms h.mem.shms with
      | some shms => (.ok (), { h with mem := { h.mem with shms := shms } })
      | none =>
        match insertShm ⟨offset, len, perms⟩ h.mem.shms with
        | some shms => (.ok (), { h with mem := { h.mem with shms := shms } })
        | none => (.err .noMemory, h)

/-- The offset of a message that lies in the pool; the alignment is looked at first. -/
def importArg (offset len : UInt64) : Attempt VirtHal HalError UInt64 := do
  if offset.toNat % MSG_ARG_ALIGN ≠ 0 then raise .badAlignment
  else do
    let stop ← lift (usizeAdd build offset len)
    if stop.toNat > BOUNCE_POOL_SIZE then raise .invalidParam
    else pure offset

end VirtHal

end Rustee.Virt
