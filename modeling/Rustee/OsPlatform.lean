import Rustee.OsAbi
import Rustee.RustBytes

/-!
# What the kernel is built on

The isolation HAL (`crates/rustee-hal`), the crypto provider, and the code the kernel calls into (TA
entry points and pseudo-TAs).

The kernel is generic over all of these, and so is the model. One type `σ` stands for the whole
outside world: the HAL with its shared memories, the memory of the TAs, the state of the
pseudo-TAs. Every call may read and change it, so nothing is assumed about what a TA or the HAL
answers. Address spaces (`A`) are values of their own because the instance table stores them.
-/

namespace Rustee.Os

/-! ### HAL types -/

structure Perms where
  read : Bool
  write : Bool
  exec : Bool
deriving Repr, DecidableEq

def Perms.READ : Perms := ⟨true, false, false⟩
def Perms.WRITE : Perms := ⟨false, true, false⟩
def Perms.RW : Perms := ⟨true, true, false⟩
def Perms.RX : Perms := ⟨true, false, true⟩

inductive HalError where
  | unsupported
  | invalidParam
  | noMemory
  | badAlignment
  | permDenied
  | busy
  | fault
  | notFound
deriving Repr, DecidableEq

abbrev VirtAddr := UInt64

inductive EntropyOrigin where
  | isolated
  | reeHost
deriving Repr, DecidableEq

/-- The traits `Hal`, `SharedMem` (`S`) and `AddressSpace` (`A`), as far as the
kernel uses them. A `&mut` borrow out of the HAL is its current value and the
way to write a changed value back. -/
structure Hal (σ A S : Type) where
  entropyOrigin : σ → EntropyOrigin
  newAddressSpace : σ → A × σ
  lookupShm : σ → UInt64 → Option S
  lookupShmMut : σ → UInt64 → Option (S × (S → σ))
  shmLen : S → UInt64
  syncIn : S → Except HalError Unit × S
  syncOut : S → Except HalError Unit × S
  mapInto : S → A → Perms → Except HalError VirtAddr × A
  mapImage : A → VirtAddr → List UInt8 → Perms → Except HalError VirtAddr × A
  unmap : A → VirtAddr → A
  /-- The address space is dropped right after; what is left is the effect outside. -/
  dropAll : A → σ → σ

/-! ### Called code -/

/-- A call into a TA or a pseudo-TA comes back, or it panics. -/
inductive CallExit (α : Type) where
  | returns (a : α)
  | panics
deriving Repr, DecidableEq

/-- What the code at an entry-point address does to the world. `openSession`
returns the raw parameters and the session context it leaves behind together
with its code; the context starts at 0. -/
structure TaCode (σ : Type) where
  create : UInt64 → σ → CallExit UInt32 × σ
  destroy : UInt64 → σ → CallExit Unit × σ
  openSession : UInt64 → UInt32 → RawParams → UInt64 → σ →
    CallExit (UInt32 × RawParams × UInt64) × σ
  closeSession : UInt64 → UInt64 → σ → CallExit Unit × σ
  invoke : UInt64 → UInt64 → UInt32 → UInt32 → RawParams → σ → CallExit (UInt32 × RawParams) × σ

/-- A registered pseudo-TA: the UUID it answers to and the object behind it. -/
structure Pta where
  uuid : Uuid
  object : Nat
deriving Repr, DecidableEq

/-- The methods of the trait `Pta`. -/
structure PtaCode (σ : Type) where
  open_ : Pta → Params → σ → CallExit (Except TeeResult UInt64 × Params) × σ
  invoke : Pta → UInt64 → UInt32 → Params → σ → CallExit (TeeResult × Params) × σ
  close : Pta → UInt64 → σ → CallExit Unit × σ

/-- The part of `CryptoProvider` the image loader calls. -/
structure CryptoProvider where
  sha256 : List UInt8 → List UInt8
  rsaPkcs1Verify : List UInt8 → List UInt8 → List UInt8 → Bool

/-! ### Build target -/

structure Target where
  build : Build
  /-- `cfg(target_arch = "aarch64")` -/
  aarch64 : Bool
deriving Repr, DecidableEq

structure Env (σ A S : Type) where
  hal : Hal σ A S
  ta : TaCode σ
  pta : PtaCode σ
  crypto : CryptoProvider
  target : Target

end Rustee.Os
