import Rustee.SlotTable
import Rustee.OsElf

/-!
# The image loader and the tables (`loader.rs`, `session.rs`, `instance.rs`, `pta.rs`)

`load_image` verifies an RTSG envelope when the bytes start with its magic and takes them as a bare
image otherwise. Sessions and instances are two uses of `SlotTable`; pseudo-TAs and early TAs are
in registries.
-/

namespace Rustee.Os

/-! ### Images -/

/-- A TA linked into the kernel. Its `image` field is read by nothing and is left
out. -/
structure EarlyTa where
  uuid : Uuid
  props : TaProperties
  entries : Option TaEntryPoints
deriving Repr, DecidableEq

structure Loaded where
  props : TaProperties
  symbols : Option TaSymbols
deriving Repr, DecidableEq

def hasRtsgMagic (bytes : List UInt8) : Bool :=
  4 ≤ bytes.length && leNat (bytes.take 4) == RTSG_MAGIC

def signedBytes (img : SignedImage) : List UInt8 :=
  img.uuid.bytes.toList ++ leBytes 4 img.taVersion.toNat ++ img.elf

/-- The check of `load_image` on a parsed envelope: the stored hash is the digest,
and the signature verifies against the built-in key. -/
def envelopeVerified (crypto : CryptoProvider) (img : SignedImage) : Bool :=
  let digest := crypto.sha256 (signedBytes img)
  img.hash == digest && crypto.rsaPkcs1Verify V0_DEV_PUBKEY digest img.sig

def loadImage (crypto : CryptoProvider) (build : Build) (bytes : List UInt8) :
    Fallible UInt32 Loaded := do
  let elf ←
    if hasRtsgMagic bytes then do
      let img ← parseRtsg bytes
      if envelopeVerified crypto img then .ok img.elf else .err TEE_ERROR_SECURITY
    else .ok bytes
  let parsed ← parseElf build elf
  pure ⟨parsed.props, parsed.symbols⟩

/-! ### Sessions -/

inductive SessionKind where
  | userTa
  | pta
deriving Repr, DecidableEq

inductive SessionState where
  | opening
  | ready
  | busy
  | closing
  | dead
deriving Repr, DecidableEq

structure Session where
  id : SessionId
  uuid : Uuid
  kind : SessionKind
  inst : Option InstanceId
  taSessCtx : UInt64
  state : SessionState
  client : Login
deriving Repr, DecidableEq

instance : Keyed Session where
  key s := s.id
  rekey i s := { s with id := i }
  key_rekey _ _ := rfl

abbrev SessionTable := SlotTable Session

namespace SessionTable

def poisonInstance (t : SessionTable) (iid : InstanceId) : SessionTable :=
  t.mapEntries fun s => if s.inst = some iid then { s with state := .dead } else s

end SessionTable

/-! ### Instances -/

inductive InstanceState where
  | creating
  | live
  | dying
  | dead
deriving Repr, DecidableEq

structure Instance (A : Type) where
  id : InstanceId
  uuid : Uuid
  props : TaProperties
  aspace : Option A
  sessionCount : UInt16
  state : InstanceState
  entries : Option TaEntryPoints
  busy : Bool
deriving Repr, DecidableEq

instance {A : Type} : Keyed (Instance A) where
  key i := i.id
  rekey n i := { i with id := n }
  key_rekey _ _ := rfl

abbrev InstanceTable (A : Type) := SlotTable (Instance A)

namespace InstanceTable

variable {A : Type}

def isLiveSingle (uuid : Uuid) (i : Instance A) : Bool :=
  i.uuid == uuid && i.props.singleInstance && i.state == .live

def liveSingle (t : InstanceTable A) (uuid : Uuid) : Option InstanceId :=
  (t.entries.find? (isLiveSingle uuid)).map (·.id)

def dropId (t : InstanceTable A) (iid : InstanceId) : Option (Instance A) × InstanceTable A :=
  t.take iid

end InstanceTable

/-! ### Registries -/

abbrev PtaRegistry := List Pta

def PtaRegistry.getMut (r : PtaRegistry) (uuid : Uuid) : Option Pta :=
  r.find? fun p => p.uuid == uuid

abbrev EarlyTas := List EarlyTa

def EarlyTas.get (r : EarlyTas) (uuid : Uuid) : Option EarlyTa :=
  r.find? fun t => t.uuid == uuid

end Rustee.Os
