import Rustee.HostUuid

/-!
# The client's context (`crates/gp-client/src/lib.rs`)

A bounce pool of its own, a bump pointer that only grows, and the client API over a transport.
Messages and buffers lie wherever the bump pointer has got to. What an operation takes from the
pool and what it transmits is logged.
-/

namespace Rustee.Virt.Proto

def SMC_CALL_WITH_ARG : UInt32 := 0x32000004

theorem join_halves (w : UInt64) :
    ((w >>> 32) <<< 32) ||| ((w &&& 0xffffffff) &&& 0xffffffff) = w := by
  have hmask : ∀ v : UInt64, (v &&& 0xffffffff).toNat = v.toNat % 2 ^ 32 := by
    intro v
    rw [UInt64.toNat_and]
    exact Nat.and_two_pow_sub_one_eq_mod v.toNat 32
  have hby : (32 : UInt64).toNat % 64 = 32 := rfl
  have hlow : w.toNat % 2 ^ 32 < 2 ^ 32 := Nat.mod_lt _ (by decide)
  have hhigh : (w.toNat >>> 32) <<< 32 % 2 ^ 64 = (w.toNat >>> 32) <<< 32 := by
    apply Nat.mod_eq_of_lt
    have := w.toNat_lt
    rw [Nat.shiftLeft_eq, Nat.shiftRight_eq_div_pow]
    omega
  apply UInt64.toNat_inj.mp
  rw [UInt64.toNat_or, hmask, hmask, Nat.mod_mod, UInt64.toNat_shiftLeft, UInt64.toNat_shiftRight,
    hby, hhigh, ← Nat.shiftLeft_add_eq_or_of_lt hlow, Nat.shiftLeft_eq,
    Nat.shiftRight_eq_div_pow]
  omega

namespace CallFrame

def setCookie (f : CallFrame) (cookie : UInt64) : CallFrame :=
  ⟨(f.r.setIfInBounds 1 (cookie >>> 32)).setIfInBounds 2 (cookie &&& 0xffffffff)⟩

def yieldingEnter (cookie : UInt64) : CallFrame :=
  setCookie ⟨(Vector.replicate 8 0).setIfInBounds 0 SMC_CALL_WITH_ARG.toUInt64⟩ cookie

@[simp] theorem cookie_setCookie (f : CallFrame) (cookie : UInt64) :
    (f.setCookie cookie).cookie = cookie := by
  have hhi : (f.setCookie cookie).r[1] = cookie >>> 32 := by simp [setCookie]
  have hlo : (f.setCookie cookie).r[2] = cookie &&& 0xffffffff := by simp [setCookie]
  rw [CallFrame.cookie, hhi, hlo, join_halves]

@[simp] theorem cookie_yieldingEnter (cookie : UInt64) : (yieldingEnter cookie).cookie = cookie :=
  cookie_setCookie _ cookie

end CallFrame

end Rustee.Virt.Proto

namespace Rustee.Client

open Virt Guest Attempt

/-! ### Constants -/

def PAGE_SIZE : Nat := 4096
def TEEC_CONFIG_SHAREDMEM_MAX_SIZE : Nat := 0x80000
def TEEC_SUCCESS : UInt32 := 0
def TEEC_ERROR_BAD_PARAMETERS : UInt32 := 0xFFFF0006
def TEEC_ERROR_OUT_OF_MEMORY : UInt32 := 0xFFFF000C
def TEEC_ERROR_COMMUNICATION : UInt32 := Proto.TEEC_ERROR_COMMUNICATION
def MSG_CMD_REGISTER_SHM : UInt32 := 4
def MSG_CMD_UNREGISTER_SHM : UInt32 := 5
def ATTR_TYPE_RMEM_INPUT : UInt64 := 0x5

/-! ### The context -/

/-- The trait `Transport`: one yielding call. The pool is lent to it. -/
structure Transport (τ : Type) where
  enter : Proto.CallFrame → Pool → UInt32 → τ → Fallible UInt32 Proto.CallFrame × Pool × τ

/-- Bytes of the pool from `start` up to `stop`. -/
structure Range where
  start : Nat
  stop : Nat
deriving Repr, DecidableEq

/-- The log of ranges allocated and transmitted is not in the source. -/
structure Context (τ : Type) where
  transport : τ
  bounce : Pool
  bump : Nat
  used : List Range

abbrev CM (τ α : Type) := Attempt (Context τ) UInt32 α

variable {τ : Type}

namespace Context

def new (transport : τ) : Context τ := ⟨transport, ⟨fun _ => 0⟩, PAGE_SIZE, []⟩

def allocated (c : Context τ) (start stop : Nat) : Context τ :=
  { c with bump := stop, used := c.used ++ [⟨start, stop⟩] }

def sending (c : Context τ) (start stop : Nat) : Context τ :=
  { c with used := c.used ++ [⟨start, stop⟩] }

end Context

/-- `bump.div_ceil(align) * align` -/
def roundUp (bump align : Nat) : Nat := (bump + align - 1) / align * align

/-- `bump` is below the length of the pool, so only the sum with `len` can overflow, and
then it is past the pool as well. -/
def alloc (len align : Nat) : CM τ UInt64 := fun c =>
  let a := roundUp c.bump align
  if a + len > BOUNCE_POOL_SIZE then (.err TEEC_ERROR_OUT_OF_MEMORY, c)
  else (.ok (UInt64.ofNat a), c.allocated a (a + len))

/-- `write_msg(&mut self.bounce, ..).map_err(|_| TEEC_ERROR_BAD_PARAMETERS)` -/
def putMsg (cookie : UInt64) (hdr : MsgArgHdr) (params : List MsgParam) : CM τ Nat := fun c =>
  match writeMsg c.bounce cookie hdr params with
  | .ok (n, pool) => (.ok n, { c with bounce := pool })
  | .error _ => (.err TEEC_ERROR_BAD_PARAMETERS, c)

/-- `decode_msg(&self.bounce, cookie).map_err(|_| TEEC_ERROR_COMMUNICATION)` -/
def getMsg (build : Build) (cookie : UInt64) : CM τ (MsgArgHdr × List MsgParam) := fun c =>
  match decodeMsg build c.bounce cookie with
  | .ok msg => (.ok msg, c)
  | .err _ => (.err TEEC_ERROR_COMMUNICATION, c)
  | .panic => (.panic, c)

/-- `self.bounce[start..start + bytes.len()].copy_from_slice(bytes)` -/
def copyIn (start : UInt64) (bytes : Bytes) : CM τ Unit :=
  Attempt.modify fun c => { c with bounce := c.bounce.put start.toNat bytes }

section Operations

variable (T : Transport τ) (build : Build)

/-- `self.transport.enter(CallFrame::yielding_enter(cookie), &mut self.bounce, len)` -/
def enter (cookie : UInt64) (len : UInt32) : CM τ Unit := fun c =>
  let c := c.sending cookie.toNat (cookie.toNat + len.toNat)
  match T.enter (Proto.CallFrame.yieldingEnter cookie) c.bounce len c.transport with
  | (.ok _, pool, t) => (.ok (), { c with bounce := pool, transport := t })
  | (.err e, pool, t) => (.err e, { c with bounce := pool, transport := t })
  | (.panic, pool, t) => (.panic, { c with bounce := pool, transport := t })

/-- The message is written at `cookie` and a window of `len` bytes is sent. -/
def exchange (cookie : UInt64) (hdr : MsgArgHdr) (params : List MsgParam) (len : Nat → UInt32) :
    CM τ Unit := do
  let n ← putMsg cookie hdr params
  enter T cookie (len n)

def openSession (dest : Client.Uuid) (login : UInt32) : CM τ UInt32 := do
  -- 64 bytes are taken, and the message is 96 bytes long
  let cookie ← alloc (MSG_ARG_ALIGN * 8) MSG_ARG_ALIGN
  let words := dest.words
  exchange T cookie ⟨MSG_CMD_OPEN_SESSION, 0, 0, 0, 0, 0, 0, 2⟩
    [⟨ATTR_TYPE_VALUE_INPUT ||| ATTR_META, words.1, words.2, 0⟩,
      ⟨ATTR_TYPE_VALUE_INPUT ||| ATTR_META, 0, 0, login.toUInt64⟩] UInt32.ofNat
  let (out, _) ← getMsg build cookie
  if out.ret ≠ TEEC_SUCCESS then raise out.ret else pure out.session

/-- `invoke` and `close_session`: a header without parameters. -/
def callPlain (hdr : MsgArgHdr) : CM τ Unit := do
  let cookie ← alloc (MSG_ARG_ALIGN * 4) MSG_ARG_ALIGN
  exchange T cookie hdr [] UInt32.ofNat

def invoke (session cmd : UInt32) : CM τ Unit :=
  callPlain T ⟨MSG_CMD_INVOKE_COMMAND, cmd, session, 0, 0, 0, 0, 0⟩

def closeSession (session : UInt32) : CM τ Unit :=
  callPlain T ⟨MSG_CMD_CLOSE_SESSION, 0, session, 0, 0, 0, 0, 0⟩

/-- The message of `invoke_shm`: the input and the output as memrefs. -/
def shmHdr (session cmd : UInt32) : MsgArgHdr :=
  ⟨MSG_CMD_INVOKE_COMMAND, cmd, session, 0, 0, 0, 0, 2⟩

def shmParams (inOff outOff : UInt64) (src dst : Bytes) : List MsgParam :=
  [⟨ATTR_TYPE_TMEM_INPUT, inOff, UInt64.ofNat src.length, inOff⟩,
    ⟨ATTR_TYPE_TMEM_OUTPUT, outOff, UInt64.ofNat dst.length, outOff⟩]

/-- The end of `invoke_shm`: `dst` takes what came back. -/
def takeShm (cookie outOff : UInt64) (dst : Bytes) : CM τ (Nat × Bytes) := do
  let (out, params) ← getMsg build cookie
  if out.ret ≠ TEEC_SUCCESS then raise out.ret
  else do
    -- a message with fewer parameters reads as one with zeroes
    let wrote := ((params[1]?).map MsgParam.b).getD 0
    let n := min wrote.toNat dst.length
    let pool ← gets Context.bounce
    pure (n, pool.get outOff.toNat n ++ dst.drop n)

/-- The part of `invoke_shm` behind the allocations. -/
def sendShm (session cmd : UInt32) (src dst : Bytes) (cookie inOff outOff : UInt64) :
    CM τ (Nat × Bytes) := do
  copyIn inOff src
  exchange T cookie (shmHdr session cmd) (shmParams inOff outOff src dst) fun n =>
    UInt32.ofNat (max (outOff.toNat + dst.length) (cookie.toNat + n) - cookie.toNat)
  takeShm build cookie outOff dst

/-- Returns the number of bytes written and the buffer `dst` they were written to. -/
def invokeShm (session cmd : UInt32) (src dst : Bytes) : CM τ (Nat × Bytes) := do
  if src.length > TEEC_CONFIG_SHAREDMEM_MAX_SIZE ∨ dst.length > TEEC_CONFIG_SHAREDMEM_MAX_SIZE then
    raise TEEC_ERROR_BAD_PARAMETERS
  else do
    let cookie ← alloc (MSG_ARG_HDR_SIZE + MSG_PARAM_SIZE * 2) MSG_ARG_ALIGN
    let inOff ← alloc (max src.length 1) MSG_ARG_ALIGN
    let outOff ← alloc (max dst.length 1) MSG_ARG_ALIGN
    sendShm T build session cmd src dst cookie inOff outOff

def registerShm (size : Nat) : CM τ UInt64 := do
  if size > TEEC_CONFIG_SHAREDMEM_MAX_SIZE then raise TEEC_ERROR_BAD_PARAMETERS
  else do
    let cookie ← alloc (max size PAGE_SIZE) PAGE_SIZE
    exchange T 32 ⟨MSG_CMD_REGISTER_SHM, 0, 0, 0, 0, 0, 0, 1⟩
      [⟨ATTR_TYPE_TMEM_INPUT, cookie, UInt64.ofNat size, cookie⟩] fun _ => 32
    pure cookie

def unregisterShm (cookie : UInt64) : CM τ Unit :=
  exchange T 32 ⟨MSG_CMD_UNREGISTER_SHM, 0, 0, 0, 0, 0, 0, 1⟩
    [⟨ATTR_TYPE_RMEM_INPUT, 0, 0, cookie⟩] fun _ => 32

end Operations

/-! ### Runs -/

inductive ContextOp where
  | openSession (dest : Client.Uuid) (login : UInt32)
  | invoke (session cmd : UInt32)
  | invokeShm (session cmd : UInt32) (src dst : Bytes)
  | closeSession (session : UInt32)
  | registerShm (size : Nat)
  | unregisterShm (cookie : UInt64)

def perform (T : Transport τ) (build : Build) : ContextOp → Context τ → Context τ
  | .openSession dest login, c => (openSession T build dest login c).2
  | .invoke session cmd, c => (invoke T session cmd c).2
  | .invokeShm session cmd src dst, c => (invokeShm T build session cmd src dst c).2
  | .closeSession session, c => (closeSession T session c).2
  | .registerShm size, c => (registerShm T size c).2
  | .unregisterShm cookie, c => (unregisterShm T cookie c).2

/-- A run of operations on one context; errors go to the caller, who goes on. -/
def run (T : Transport τ) (build : Build) : List ContextOp → Context τ → Context τ
  | [], c => c
  | op :: ops, c => run T build ops (perform T build op c)

/-! ### What an operation needs -/

namespace ContextOp

/-- The operation takes space from the pool: its sizes are accepted, and it is not
`unregister_shm`. -/
def Accepted : ContextOp → Prop
  | .invokeShm _ _ src dst =>
    src.length ≤ TEEC_CONFIG_SHAREDMEM_MAX_SIZE ∧ dst.length ≤ TEEC_CONFIG_SHAREDMEM_MAX_SIZE
  | .registerShm size => size ≤ TEEC_CONFIG_SHAREDMEM_MAX_SIZE
  | .unregisterShm _ => False
  | _ => True

def align : ContextOp → Nat
  | .registerShm _ => PAGE_SIZE
  | _ => MSG_ARG_ALIGN

/-- Where the input and the output of `invoke_shm` lie behind a message at `cookie`. -/
def shmIn (cookie : Nat) : Nat :=
  roundUp (cookie + (MSG_ARG_HDR_SIZE + MSG_PARAM_SIZE * 2)) MSG_ARG_ALIGN

def shmOut (cookie srcLen : Nat) : Nat := roundUp (shmIn cookie + max srcLen 1) MSG_ARG_ALIGN

/-- The end of what the operation needs from `start` on. -/
def stop (start : Nat) : ContextOp → Nat
  | .openSession _ _ => start + (MSG_ARG_HDR_SIZE + MSG_PARAM_SIZE * 2)
  | .invoke _ _ => start + MSG_ARG_HDR_SIZE
  | .closeSession _ => start + MSG_ARG_HDR_SIZE
  | .invokeShm _ _ src dst => shmOut start src.length + max dst.length 1
  | .registerShm size => start + max size PAGE_SIZE
  | .unregisterShm _ => start

end ContextOp

/-! ### Allocation -/

theorem le_roundUp (bump : Nat) {align : Nat} (halign : 0 < align) : bump ≤ roundUp bump align := by
  have hdiv := Nat.div_add_mod (bump + align - 1) align
  have hmod := Nat.mod_lt (bump + align - 1) halign
  rw [mul_comm] at hdiv
  rw [roundUp]
  omega

theorem roundUp_lt (bump : Nat) {align : Nat} (halign : 0 < align) :
    roundUp bump align < bump + align := by
  have hdiv := Nat.div_mul_le_self (bump + align - 1) align
  rw [roundUp]
  omega

theorem roundUp_mod (bump align : Nat) : roundUp bump align % align = 0 := Nat.mul_mod_left _ _

section Alloc

variable {c : Context τ} {len align : Nat}

theorem alloc_of_fits (h : roundUp c.bump align + len ≤ BOUNCE_POOL_SIZE) :
    alloc len align c = (.ok (UInt64.ofNat (roundUp c.bump align)),
      c.allocated (roundUp c.bump align) (roundUp c.bump align + len)) := by
  rw [alloc]
  exact if_neg (Nat.not_lt.mpr h)

theorem alloc_of_full (h : BOUNCE_POOL_SIZE < roundUp c.bump align + len) :
    alloc len align c = (.err TEEC_ERROR_OUT_OF_MEMORY, c) := by
  rw [alloc]
  exact if_pos h

theorem toNat_ofNat_of_pool {n : Nat} (h : n ≤ BOUNCE_POOL_SIZE) : (UInt64.ofNat n).toNat = n := by
  have hpool : BOUNCE_POOL_SIZE < 2 ^ 64 := by decide
  exact UInt64.toNat_ofNat_of_lt' (Nat.lt_of_le_of_lt h hpool)

end Alloc

/-- Whatever the transport does, the window sent is logged and nothing else. -/
theorem enter_used (T : Transport τ) (cookie : UInt64) (len : UInt32) (c : Context τ) :
    (enter T cookie len c).2.used = c.used ++ [⟨cookie.toNat, cookie.toNat + len.toNat⟩] := by
  rw [enter]
  split <;> rfl

/-! ### An operation that fits -/

open ContextOp

def Context.withMsg (c : Context τ) (cookie : UInt64) (hdr : MsgArgHdr) (params : List MsgParam) :
    Context τ :=
  { c with bounce := c.bounce.put cookie.toNat (hdr.encode ++ params.flatMap MsgParam.encode) }

/-- Where the next message goes. -/
abbrev Context.msgAt (c : Context τ) : Nat := roundUp c.bump MSG_ARG_ALIGN

/-- The three allocations of `invoke_shm`. -/
def Context.shmAllocated (c : Context τ) (srcLen dstLen : Nat) : Context τ :=
  let cookie := c.msgAt
  let inOff := shmIn cookie
  let outOff := shmOut cookie srcLen
  ((c.allocated cookie (cookie + (MSG_ARG_HDR_SIZE + MSG_PARAM_SIZE * 2))).allocated inOff
    (inOff + max srcLen 1)).allocated outOff (outOff + max dstLen 1)

section Fits

variable (T : Transport τ) (build : Build) {c : Context τ}

theorem exchange_of_fits {cookie : UInt64} {hdr : MsgArgHdr} {params : List MsgParam}
    (hmod : cookie.toNat % MSG_ARG_ALIGN = 0) (hcount : params.length = hdr.numParams.toNat)
    (hfit : cookie.toNat + hdr.byteSize ≤ BOUNCE_POOL_SIZE) (len : Nat → UInt32) :
    exchange T cookie hdr params len c =
      enter T cookie (len hdr.byteSize) (c.withMsg cookie hdr params) := by
  have hput : putMsg cookie hdr params c = (.ok hdr.byteSize, c.withMsg cookie hdr params) := by
    rw [putMsg, writeMsg, if_neg (not_not.mpr hmod), if_neg (not_not.mpr hcount),
      if_neg (Nat.not_lt.mpr hfit)]
    rfl
  rw [exchange, bind_of_ok hput]

variable {src dst : Bytes} (cookie : Nat)

theorem shm_bounds (srcLen : Nat) :
    (cookie + (MSG_ARG_HDR_SIZE + MSG_PARAM_SIZE * 2) ≤ shmIn cookie ∧
      shmIn cookie < cookie + (MSG_ARG_HDR_SIZE + MSG_PARAM_SIZE * 2) + MSG_ARG_ALIGN) ∧
    shmIn cookie + max srcLen 1 ≤ shmOut cookie srcLen ∧
      shmOut cookie srcLen < shmIn cookie + max srcLen 1 + MSG_ARG_ALIGN :=
  ⟨⟨le_roundUp _ (by decide), roundUp_lt _ (by decide)⟩,
    le_roundUp _ (by decide), roundUp_lt _ (by decide)⟩

/-- The window `invoke_shm` sends: from the message to the end of the output. -/
def shmLen (cookie srcLen dstLen : Nat) : Nat :=
  max (shmOut cookie srcLen + dstLen) (cookie + (MSG_ARG_HDR_SIZE + MSG_PARAM_SIZE * 2)) - cookie

theorem shmLen_eq (srcLen dstLen : Nat) :
    cookie + shmLen cookie srcLen dstLen = shmOut cookie srcLen + dstLen := by
  have hbounds := shm_bounds cookie srcLen
  rw [shmLen]
  omega

def Context.shmFilled (c : Context τ) (session cmd : UInt32) (src dst : Bytes) (cookie : Nat) :
    Context τ :=
  let inOff := UInt64.ofNat (shmIn cookie)
  let outOff := UInt64.ofNat (shmOut cookie src.length)
  { c with bounce := c.bounce.put inOff.toNat src }.withMsg (UInt64.ofNat cookie)
    (shmHdr session cmd) (shmParams inOff outOff src dst)

theorem sendShm_of_fits (c : Context τ) (session cmd : UInt32) {cookie : Nat}
    (hmod : cookie % MSG_ARG_ALIGN = 0)
    (hfit : shmOut cookie src.length + max dst.length 1 ≤ BOUNCE_POOL_SIZE) :
    sendShm T build session cmd src dst (UInt64.ofNat cookie) (UInt64.ofNat (shmIn cookie))
        (UInt64.ofNat (shmOut cookie src.length)) c =
      (enter T (UInt64.ofNat cookie) (UInt32.ofNat (shmLen cookie src.length dst.length)) >>=
        fun _ => takeShm build (UInt64.ofNat cookie)
          (UInt64.ofNat (shmOut cookie src.length)) dst)
        (c.shmFilled session cmd src dst cookie) := by
  have hbounds := shm_bounds cookie src.length
  have hcookie : (UInt64.ofNat cookie).toNat = cookie := toNat_ofNat_of_pool (by omega)
  have houtOff : (UInt64.ofNat (shmOut cookie src.length)).toNat =
      shmOut cookie src.length := toNat_ofNat_of_pool (by omega)
  have haligned : (UInt64.ofNat cookie).toNat % MSG_ARG_ALIGN = 0 := by
    rw [hcookie]
    exact hmod
  have hroom : (UInt64.ofNat cookie).toNat + (shmHdr session cmd).byteSize ≤ BOUNCE_POOL_SIZE := by
    have hsize : (shmHdr session cmd).byteSize = MSG_ARG_HDR_SIZE + MSG_PARAM_SIZE * 2 := rfl
    rw [hcookie, hsize]
    omega
  have hlen : max ((UInt64.ofNat (shmOut cookie src.length)).toNat + dst.length)
      ((UInt64.ofNat cookie).toNat + (shmHdr session cmd).byteSize) -
      (UInt64.ofNat cookie).toNat = shmLen cookie src.length dst.length := by
    rw [hcookie, houtOff]
    rfl
  refine (bind_of_ok rfl).trans ?_
  rw [bind_apply, exchange_of_fits T haligned rfl hroom, ← hlen, bind_apply]
  rfl

theorem invokeShm_of_fits (session cmd : UInt32)
    (hsrc : src.length ≤ TEEC_CONFIG_SHAREDMEM_MAX_SIZE)
    (hdst : dst.length ≤ TEEC_CONFIG_SHAREDMEM_MAX_SIZE)
    (hfit : shmOut c.msgAt src.length + max dst.length 1 ≤ BOUNCE_POOL_SIZE) :
    invokeShm T build session cmd src dst c =
      sendShm T build session cmd src dst (UInt64.ofNat c.msgAt)
        (UInt64.ofNat (shmIn c.msgAt))
        (UInt64.ofNat (shmOut c.msgAt src.length))
        (c.shmAllocated src.length dst.length) := by
  have hsizes : ¬ (src.length > TEEC_CONFIG_SHAREDMEM_MAX_SIZE ∨
      dst.length > TEEC_CONFIG_SHAREDMEM_MAX_SIZE) := by
    omega
  have hbounds := shm_bounds c.msgAt src.length
  have hmsg : c.msgAt + (MSG_ARG_HDR_SIZE + MSG_PARAM_SIZE * 2) ≤ BOUNCE_POOL_SIZE := by
    omega
  have hinput : shmIn c.msgAt + max src.length 1 ≤ BOUNCE_POOL_SIZE := by
    omega
  rw [invokeShm, if_neg hsizes, bind_of_ok (alloc_of_fits hmsg),
    bind_of_ok (alloc_of_fits hinput), bind_of_ok (alloc_of_fits hfit)]
  rfl

end Fits

end Rustee.Client
