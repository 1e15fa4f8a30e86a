import Mathlib.Data.Vector.Defs

/-!
# The kernel syscall ABI (`crates/rustee-os/src/abi.rs`)

Result codes, parameters, commands and outputs, and the raw parameter words a TA entry point sees.

`u32` is `UInt32`, `u64` and the 64-bit `usize` are `UInt64`, `[Param; 4]` is a `Vector Param 4`.
`ParamRaw` is a C union of 16 bytes, modelled by its two 64-bit words, so that reading `value`
after a TA wrote `memref` (or the other way round) gives what the overlay gives.
-/

namespace Rustee.Os

/-! ### Constants -/

abbrev PARAM_COUNT : Nat := 4

def TEE_SUCCESS : UInt32 := 0x00000000
def TEE_ERROR_CANCEL : UInt32 := 0xFFFF0002
def TEE_ERROR_BAD_PARAMETERS : UInt32 := 0xFFFF0006
def TEE_ERROR_ITEM_NOT_FOUND : UInt32 := 0xFFFF0008
def TEE_ERROR_NOT_SUPPORTED : UInt32 := 0xFFFF000A
def TEE_ERROR_OUT_OF_MEMORY : UInt32 := 0xFFFF000C
def TEE_ERROR_BUSY : UInt32 := 0xFFFF000D
def TEE_ERROR_SECURITY : UInt32 := 0xFFFF000F
def TEE_ERROR_TARGET_DEAD : UInt32 := 0xFFFF3024

def TEE_PARAM_TYPE_VALUE_INPUT : UInt32 := 1
def TEE_PARAM_TYPE_VALUE_OUTPUT : UInt32 := 2
def TEE_PARAM_TYPE_VALUE_INOUT : UInt32 := 3
def TEE_PARAM_TYPE_MEMREF_INPUT : UInt32 := 5
def TEE_PARAM_TYPE_MEMREF_OUTPUT : UInt32 := 6
def TEE_PARAM_TYPE_MEMREF_INOUT : UInt32 := 7

/-! ### Identifiers, results, parameters -/

structure Uuid where
  bytes : Vector UInt8 16
deriving Repr, DecidableEq

abbrev SessionId := UInt32
abbrev InstanceId := UInt32

inductive Origin where
  | tee
  | trustedApp
deriving Repr, DecidableEq

structure TeeResult where
  code : UInt32
  origin : Origin
deriving Repr, DecidableEq

def TeeResult.ok : TeeResult := ⟨TEE_SUCCESS, .tee⟩
def TeeResult.tee (code : UInt32) : TeeResult := ⟨code, .tee⟩
def TeeResult.ta (code : UInt32) : TeeResult := ⟨code, .trustedApp⟩

/-- Parameter direction (`In`, `Out`, `InOut` in the source). -/
inductive Dir where
  | input
  | output
  | inout
deriving Repr, DecidableEq

inductive Login where
  | «public»
  | user
  | group (gid : UInt32)
  | application
  | userApplication
  | groupApplication (gid : UInt32)
  | trustedApp (uuid : Uuid)
deriving Repr, DecidableEq

inductive MemrefSrc where
  /-- CA path. The cookie is a bounce-pool offset, never a physical address. -/
  | ree (cookie offs : UInt64)
  /-- TA-to-TA: a buffer address in the caller's address space. -/
  | ta (va : UInt64)
deriving Repr, DecidableEq

inductive Param where
  | none
  | value (a b : UInt32) (dir : Dir)
  | memref (src : MemrefSrc) (size : UInt64) (dir : Dir)
deriving Repr, DecidableEq

abbrev Params := Vector Param PARAM_COUNT

/-- `[Param::None; PARAM_COUNT]` -/
def noParams : Params := Vector.replicate PARAM_COUNT .none

/-! ### Commands and outputs -/

inductive HalRpc where
  | loadTa (uuid : Uuid)
  | getTime
  | fs
  | shmAlloc
  | shmFree
deriving Repr, DecidableEq

inductive RpcResponse where
  | loadTa (bytes : List UInt8)
  | time (seconds millis : UInt32)
  | fs (result : UInt32)
  | shm (cookie : UInt64)
  | error (code : UInt32)
deriving Repr, DecidableEq

inductive KernelCmd where
  | openSession (uuid : Uuid) (login : Login) (params : Params) (cancelId timeoutMs : UInt32)
  | invoke (session : SessionId) (cmdId : UInt32) (params : Params)
      (cancelId timeoutMs : UInt32)
  | closeSession (session : SessionId)
  | cancel (cancelId : UInt32)
  | rpcComplete (resp : RpcResponse)
deriving Repr, DecidableEq

inductive KernelOut where
  | done (result : TeeResult) (session : Option SessionId) (params : Params)
  | rpc (request : HalRpc)
deriving Repr, DecidableEq

/-- An error raised by the kernel itself: origin TEE, no session, no parameters. -/
def KernelOut.doneErr (code : UInt32) : KernelOut := .done (.tee code) none noParams

/-! ### Raw parameters -/

/-- The 16 bytes of the C union: `memref.buffer` and `value.{a,b}` share the first
word, `memref.size` is the second. -/
structure ParamRaw where
  lo : UInt64
  hi : UInt64
deriving Repr, DecidableEq

namespace ParamRaw

def none : ParamRaw := ⟨0, 0⟩

def ofValue (a b : UInt32) : ParamRaw := ⟨a.toUInt64 ||| (b.toUInt64 <<< 32), 0⟩

def ofMemref (buffer size : UInt64) : ParamRaw := ⟨buffer, size⟩

def valueA (r : ParamRaw) : UInt32 := r.lo.toUInt32
def valueB (r : ParamRaw) : UInt32 := (r.lo >>> 32).toUInt32
def memrefSize (r : ParamRaw) : UInt64 := r.hi

end ParamRaw

abbrev RawParams := Vector ParamRaw PARAM_COUNT

/-- GP TA entry points, as code addresses. -/
structure TaEntryPoints where
  create : UInt64
  destroy : UInt64
  openSession : UInt64
  closeSession : UInt64
  invoke : UInt64
deriving Repr, DecidableEq

def paramType : Param → UInt32
  | .none => 0
  | .value _ _ .input => TEE_PARAM_TYPE_VALUE_INPUT
  | .value _ _ .output => TEE_PARAM_TYPE_VALUE_OUTPUT
  | .value _ _ .inout => TEE_PARAM_TYPE_VALUE_INOUT
  | .memref _ _ .input => TEE_PARAM_TYPE_MEMREF_INPUT
  | .memref _ _ .output => TEE_PARAM_TYPE_MEMREF_OUTPUT
  | .memref _ _ .inout => TEE_PARAM_TYPE_MEMREF_INOUT

def paramTypesOf (params : Params) : UInt32 :=
  (List.finRange PARAM_COUNT).foldl
    (fun t i => t ||| (paramType (params.get i) <<< UInt32.ofNat (4 * i.val))) 0

def paramToRaw : Param → ParamRaw
  | .none => .none
  | .value a b _ => .ofValue a b
  | .memref (.ta va) size _ => .ofMemref va size
  | .memref (.ree _ _) size _ => .ofMemref 0 size

def paramsToRaw (params : Params) : RawParams := params.map paramToRaw

def paramFromRaw (p : Param) (raw : ParamRaw) : Param :=
  match p with
  | .value _ _ .output => .value raw.valueA raw.valueB .output
  | .value _ _ .inout => .value raw.valueA raw.valueB .inout
  | .memref src _ .output => .memref src raw.memrefSize .output
  | .memref src _ .inout => .memref src raw.memrefSize .inout
  | p => p

def paramsFromRaw (params : Params) (raw : RawParams) : Params :=
  params.zipWith paramFromRaw raw

end Rustee.Os
