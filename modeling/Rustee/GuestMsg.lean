import Rustee.VirtHal

/-!
# Messages in the bounce pool (`rustee-proto`'s MSG and the guest's `proto_cmd.rs`)

The MSG of a call lies in the pool at its cookie: a 32-byte header and up to six 32-byte
parameters. The guest decodes it to a kernel command, writes the result back into it, and packs
the request for a TA image the same way at a cookie of its own.
-/

namespace Rustee.Guest

open Os Virt Fallible

/-! ### Constants -/

def MSG_ARG_HDR_SIZE : Nat := 32
def MSG_PARAM_SIZE : Nat := 32

def MSG_CMD_OPEN_SESSION : UInt32 := 0
def MSG_CMD_INVOKE_COMMAND : UInt32 := 1
def MSG_CMD_CLOSE_SESSION : UInt32 := 2
def MSG_CMD_CANCEL : UInt32 := 3
def RPC_CMD_LOAD_TA : UInt32 := 0

def ATTR_TYPE_NONE : UInt64 := 0x0
def ATTR_TYPE_VALUE_INPUT : UInt64 := 0x1
def ATTR_TYPE_VALUE_OUTPUT : UInt64 := 0x2
def ATTR_TYPE_VALUE_INOUT : UInt64 := 0x3
def ATTR_TYPE_TMEM_INPUT : UInt64 := 0x9
def ATTR_TYPE_TMEM_OUTPUT : UInt64 := 0xa
def ATTR_TYPE_TMEM_INOUT : UInt64 := 0xb
def ATTR_TYPE_MASK : UInt64 := 0xff
def ATTR_META : UInt64 := 0x100

def TEE_TIMEOUT_INFINITE : UInt32 := 0xFFFFFFFF

inductive ProtoError where
  | truncated
  | badKind
  | badAlign
  | badCmd
  | bounceOob
deriving Repr, DecidableEq

/-! ### The MSG -/

structure MsgArgHdr where
  cmd : UInt32
  func : UInt32
  session : UInt32
  cancelId : UInt32
  pad : UInt32
  ret : UInt32
  retOrigin : UInt32
  numParams : UInt32
deriving Repr, DecidableEq

structure MsgParam where
  attr : UInt64
  a : UInt64
  b : UInt64
  c : UInt64
deriving Repr, DecidableEq

namespace MsgArgHdr

def encode (h : MsgArgHdr) : Bytes :=
  [h.cmd, h.func, h.session, h.cancelId, h.pad, h.ret, h.retOrigin, h.numParams].flatMap le32

def decode (b : Bytes) : MsgArgHdr :=
  ⟨u32At b 0, u32At b 4, u32At b 8, u32At b 12, u32At b 16, u32At b 20, u32At b 24, u32At b 28⟩

def byteSize (h : MsgArgHdr) : Nat := MSG_ARG_HDR_SIZE + MSG_PARAM_SIZE * h.numParams.toNat

end MsgArgHdr

namespace MsgParam

def encode (p : MsgParam) : Bytes := [p.attr, p.a, p.b, p.c].flatMap le64

def decode (b : Bytes) : MsgParam := ⟨u64At b 0, u64At b 8, u64At b 16, u64At b 24⟩

end MsgParam

/-- The sum `off + n > pool.len()` of `decode_msg`, in `usize`. -/
def pastPool (build : Build) (off : UInt64) (n : Nat) : Fallible ProtoError Bool := do
  let stop ← usizeAdd build off (UInt64.ofNat n)
  .ok (stop.toNat > BOUNCE_POOL_SIZE)

/-- The header and the parameters it counts. A sum that wraps passes the first check, and
the slice `&pool[off..]` panics then. -/
def decodeMsg (build : Build) (pool : Pool) (cookie : UInt64) :
    Fallible ProtoError (MsgArgHdr × List MsgParam) := do
  if cookie.toNat % MSG_ARG_ALIGN ≠ 0 then .err .badAlign
  else if ← pastPool build cookie MSG_ARG_HDR_SIZE then .err .bounceOob
  else if cookie.toNat > BOUNCE_POOL_SIZE then .panic
  else
    let hdr := MsgArgHdr.decode (pool.get cookie.toNat MSG_ARG_HDR_SIZE)
    if hdr.numParams.toNat > 6 then .err .badCmd
    else if ← pastPool build cookie hdr.byteSize then .err .bounceOob
    else .ok (hdr, (List.range hdr.numParams.toNat).map fun i =>
      MsgParam.decode (pool.get (cookie.toNat + MSG_ARG_HDR_SIZE + i * MSG_PARAM_SIZE)
        MSG_PARAM_SIZE))

/-- Header and parameters are written one after the other; the size is returned. -/
def writeMsg (pool : Pool) (cookie : UInt64) (hdr : MsgArgHdr) (params : List MsgParam) :
    Except ProtoError (Nat × Pool) :=
  if cookie.toNat % MSG_ARG_ALIGN ≠ 0 then .error .badAlign
  else if params.length ≠ hdr.numParams.toNat then .error .badCmd
  else if cookie.toNat + hdr.byteSize > BOUNCE_POOL_SIZE then .error .bounceOob
  else .ok (hdr.byteSize,
    pool.put cookie.toNat (hdr.encode ++ params.flatMap MsgParam.encode))

/-! ### From a MSG to a command -/

def ty (p : MsgParam) : UInt64 := p.attr &&& ATTR_TYPE_MASK

def dirOf (t : UInt64) : Dir :=
  if t = ATTR_TYPE_TMEM_INPUT ∨ t = ATTR_TYPE_VALUE_INPUT then .input
  else if t = ATTR_TYPE_TMEM_OUTPUT ∨ t = ATTR_TYPE_VALUE_OUTPUT then .output
  else .inout

def param (p : MsgParam) : Param :=
  if ty p = ATTR_TYPE_NONE then .none
  else if ty p = ATTR_TYPE_VALUE_INPUT ∨ ty p = ATTR_TYPE_VALUE_OUTPUT ∨
      ty p = ATTR_TYPE_VALUE_INOUT then
    .value p.a.toUInt32 p.b.toUInt32 (dirOf (ty p))
  else if ty p = ATTR_TYPE_TMEM_INPUT ∨ ty p = ATTR_TYPE_TMEM_OUTPUT ∨
      ty p = ATTR_TYPE_TMEM_INOUT then
    .memref (.ree p.a 0) p.b (dirOf (ty p))
  else .none

def MsgParam.isMeta (p : MsgParam) : Bool := p.attr &&& ATTR_META != 0

/-- The loop that collects the parameters which are not meta; `ui` is the next free
place. -/
def userParams : List MsgParam → Nat → Params → Params
  | [], _, user => user
  | p :: ps, ui, user =>
    if p.isMeta then userParams ps ui user
    else if h : ui < PARAM_COUNT then userParams ps (ui + 1) (user.set ui (param p) h)
    else userParams ps ui user

/-- The `i`-th byte of a word, the most significant first. -/
def beByte (w : UInt64) (i : Nat) : UInt8 := (w >>> UInt64.ofNat (8 * (7 - i))).toUInt8

def uuidFromWords (hi lo : UInt64) : Uuid :=
  ⟨Vector.ofFn fun i => if i.val < 8 then beByte hi i.val else beByte lo (i.val - 8)⟩

/-- The words `uuid_from_words` takes. -/
def uuidToWords (u : Uuid) : UInt64 × UInt64 :=
  (UInt64.ofNat (leNat ((u.bytes.toList.take 8).reverse)),
    UInt64.ofNat (leNat ((u.bytes.toList.drop 8).reverse)))

/-- Only a first parameter that is a meta value names the TA. The other meta parameter
can only set the login to public, which it is. -/
def openUuid : List MsgParam → Uuid
  | p :: _ => if p.isMeta ∧ ty p = ATTR_TYPE_VALUE_INPUT then uuidFromWords p.a p.b
    else ⟨Vector.replicate 16 0⟩
  | [] => ⟨Vector.replicate 16 0⟩

def decodeCmd (build : Build) (pool : Pool) (cookie : UInt64) : Fallible Unit KernelCmd := do
  match decodeMsg build pool cookie with
  | .err _ => .err ()
  | .panic => .panic
  | .ok (hdr, params) =>
    if hdr.cmd = MSG_CMD_OPEN_SESSION then
      .ok (.openSession (openUuid params) .public (userParams params 0 noParams) hdr.cancelId
        TEE_TIMEOUT_INFINITE)
    else if hdr.cmd = MSG_CMD_INVOKE_COMMAND then
      .ok (.invoke hdr.session hdr.func (userParams params 0 noParams) hdr.cancelId
        TEE_TIMEOUT_INFINITE)
    else if hdr.cmd = MSG_CMD_CLOSE_SESSION then .ok (.closeSession hdr.session)
    else if hdr.cmd = MSG_CMD_CANCEL then .ok (.cancel hdr.cancelId)
    else .err ()

/-! ### The result -/

/-- The sizes of the output memrefs, put into the parameters that are not meta. -/
def producedSizes (produced : Params) : List MsgParam → Nat → List MsgParam
  | [], _ => []
  | p :: ps, ui =>
    if p.isMeta then p :: producedSizes produced ps ui
    else if h : ui < PARAM_COUNT then
      (match produced.get ⟨ui, h⟩ with
        | .memref _ size dir => if dir = .input then p else { p with b := size }
        | _ => p) :: producedSizes produced ps (ui + 1)
    else p :: producedSizes produced ps ui

def writeDone (build : Build) (pool : Pool) (cookie : UInt64) (ret origin session : UInt32)
    (produced : Params) : Fallible ProtoError Pool :=
  match decodeMsg build pool cookie with
  | .panic => .panic
  | .err _ => .ok pool
  | .ok (hdr, params) =>
    let hdr := { hdr with ret := ret, retOrigin := origin, session := session }
    match writeMsg pool cookie hdr (producedSizes produced params 0) with
    | .ok (_, pool') => .ok pool'
    | .error _ => .ok pool

/-! ### Asking for a TA -/

def RPC_COOKIE : UInt64 := 0x800000
def LOAD_TA_CAP : UInt64 := 2 * 1024 * 1024

/-- The request: the UUID in a value, the place for the image in a memref behind it. -/
def packLoadTa (pool : Pool) (uuid : Uuid) : Except Unit (UInt64 × UInt32 × Pool) :=
  let words := uuidToWords uuid
  let dest := RPC_COOKIE + UInt64.ofNat (MSG_ARG_HDR_SIZE + 2 * MSG_PARAM_SIZE)
  if dest.toNat % 8 ≠ 0 ∨ dest < RPC_COOKIE then .error ()
  else
    match writeMsg pool RPC_COOKIE ⟨RPC_CMD_LOAD_TA, 0, 0, 0, 0, 0, 0, 2⟩
        [⟨ATTR_TYPE_VALUE_INPUT, words.1, words.2, 0⟩,
          ⟨ATTR_TYPE_TMEM_OUTPUT, dest, LOAD_TA_CAP, 0⟩] with
    | .ok (n, pool') => .ok (RPC_COOKIE, UInt32.ofNat n, pool')
    | .error _ => .error ()

def takeLoadTa (build : Build) (pool : Pool) : Fallible UInt32 Bytes :=
  match decodeMsg build pool RPC_COOKIE with
  | .panic => .panic
  | .err _ => .err TEE_ERROR_BAD_PARAMETERS
  | .ok (hdr, params) =>
    if hdr.ret ≠ 0 then .err hdr.ret
    else
      match params[1]? with
      | none => .err TEE_ERROR_BAD_PARAMETERS
      | some p =>
        let stop := p.a.toNat + p.b.toNat
        if 2 ^ 64 ≤ stop then .err TEE_ERROR_BAD_PARAMETERS
        else if p.a < RPC_COOKIE ∨ stop > BOUNCE_POOL_SIZE then .err TEE_ERROR_ITEM_NOT_FOUND
        else .ok (pool.get p.a.toNat p.b.toNat)

/-! ### Inside the pool nothing panics -/

section NoPanic

variable {build : Build} {pool : Pool} {cookie : UInt64}

section

variable (hcookie : cookie.toNat ≤ BOUNCE_POOL_SIZE)
include hcookie

theorem pastPool_eq {n : Nat} (hn : n < 2 ^ 32) :
    pastPool build cookie n = .ok (decide (cookie.toNat + n > BOUNCE_POOL_SIZE)) := by
  have hword : (UInt64.ofNat n).toNat = n := by
    rw [UInt64.toNat_ofNat']
    omega
  have hsum : cookie.toNat + (UInt64.ofNat n).toNat < 2 ^ 64 := by
    rw [BOUNCE_POOL_SIZE] at hcookie
    omega
  have hstop : (UInt64.ofNat (cookie.toNat + n)).toNat = cookie.toNat + n := by
    rw [UInt64.toNat_ofNat']
    omega
  rw [pastPool, usizeAdd_of_lt build hsum, ok_bind, hword, hstop]

theorem decodeMsg_ne_panic : decodeMsg build pool cookie ≠ .panic := by
  rw [decodeMsg]
  split
  · intro h
    cases h
  · rw [pastPool_eq hcookie (by decide), ok_bind]
    split
    · intro h
      cases h
    · rw [if_neg (Nat.not_lt.mpr hcookie)]
      simp only
      split
      · intro h
        cases h
      · rename_i hcount
        have hsize : (MsgArgHdr.decode (pool.get cookie.toNat MSG_ARG_HDR_SIZE)).byteSize <
            2 ^ 32 := by
          rw [MsgArgHdr.byteSize, MSG_ARG_HDR_SIZE, MSG_PARAM_SIZE]
          rw [MSG_ARG_HDR_SIZE] at hcount
          omega
        rw [pastPool_eq hcookie hsize, ok_bind]
        split
        · intro h
          cases h
        · intro h
          cases h

theorem decodeCmd_ne_panic : decodeCmd build pool cookie ≠ .panic := by
  rw [decodeCmd]
  split
  · intro h
    cases h
  · rename_i hpanic
    exact absurd hpanic (decodeMsg_ne_panic hcookie)
  · split_ifs <;> intro h <;> cases h

theorem writeDone_eq_ok (ret origin session : UInt32) (produced : Params) :
    ∃ pool', writeDone build pool cookie ret origin session produced = .ok pool' := by
  rw [writeDone]
  split
  · rename_i hpanic
    exact absurd hpanic (decodeMsg_ne_panic hcookie)
  · exact ⟨pool, rfl⟩
  · dsimp only
    split
    · exact ⟨_, rfl⟩
    · exact ⟨pool, rfl⟩

end

theorem takeLoadTa_ne_panic : takeLoadTa build pool ≠ .panic := by
  rw [takeLoadTa]
  split
  · rename_i hpanic
    exact absurd hpanic (decodeMsg_ne_panic (by decide))
  · intro h
    cases h
  · split
    · intro h
      cases h
    · split
      · intro h
        cases h
      · dsimp only
        split_ifs <;> intro h <;> cases h

theorem packLoadTa_eq_ok (pool : Pool) (uuid : Uuid) :
    ∃ pool', packLoadTa pool uuid = .ok (RPC_COOKIE, 96, pool') := by
  exact ⟨_, rfl⟩

end NoPanic

end Rustee.Guest
