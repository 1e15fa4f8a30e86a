import Rustee.OsPlatform

/-!
# Image headers (`crates/rustee-os/src/header.rs`)

The 40-byte `.rustee.ta_head` record, the RTSG signed envelope, and the section lookup that
finds the record in an ELF file.
-/

namespace Rustee.Os

def RTAH_MAGIC : Nat := 0x48415452
def RTAH_ABI : Nat := 0
def RTAH_SIZE : Nat := 40
def RTSG_MAGIC : Nat := 0x47535452
def RTSG_ABI : Nat := 0
def SECTION_NAME : List UInt8 := ascii ".rustee.ta_head"
def ELF_MAGIC : List UInt8 := [0x7f, 0x45, 0x4c, 0x46]

/-- Compiled-in v0 development public key (`dev-keys/v0-dev.spki.der`). -/
def V0_DEV_PUBKEY : List UInt8 :=
  [48, 130, 1, 34, 48, 13, 6, 9, 42, 134, 72, 134, 247, 13, 1, 1, 1, 5,
    0, 3, 130, 1, 15, 0, 48, 130, 1, 10, 2, 130, 1, 1, 0, 223, 69, 13,
    233, 103, 19, 246, 201, 203, 242, 166, 75, 151, 84, 93, 80, 227, 178, 208, 208, 175,
    210, 252, 134, 47, 224, 177, 0, 130, 253, 79, 132, 47, 150, 209, 112, 166, 33, 168,
    244, 206, 157, 156, 83, 171, 45, 226, 230, 248, 6, 183, 208, 77, 248, 29, 197, 53,
    176, 64, 5, 67, 162, 225, 233, 252, 209, 233, 12, 74, 165, 243, 84, 10, 72, 193,
    5, 62, 189, 15, 161, 100, 126, 87, 125, 230, 137, 22, 234, 79, 32, 5, 129, 71,
    110, 11, 205, 31, 246, 160, 230, 254, 87, 20, 166, 102, 134, 219, 131, 47, 88, 14,
    168, 186, 115, 76, 132, 63, 87, 116, 149, 123, 82, 49, 170, 236, 220, 123, 197, 255,
    144, 24, 178, 165, 91, 34, 209, 223, 224, 129, 113, 223, 223, 188, 213, 170, 165, 227,
    122, 195, 10, 85, 100, 80, 78, 40, 27, 33, 47, 61, 33, 244, 219, 181, 177, 214,
    127, 86, 39, 146, 35, 182, 194, 152, 153, 249, 92, 159, 226, 47, 138, 48, 59, 217,
    30, 211, 35, 216, 5, 200, 160, 76, 39, 137, 217, 172, 241, 206, 234, 117, 51, 126,
    159, 168, 23, 115, 172, 226, 246, 133, 146, 58, 194, 36, 47, 54, 42, 142, 19, 165,
    160, 238, 31, 9, 84, 73, 166, 225, 158, 160, 199, 251, 77, 130, 247, 99, 68, 239,
    91, 11, 102, 69, 143, 123, 76, 45, 0, 56, 188, 115, 98, 244, 204, 95, 234, 171,
    185, 2, 3, 1, 0, 1]

structure TaProperties where
  uuid : Uuid
  stackSize : UInt32
  dataSize : UInt32
  singleInstance : Bool
  multiSession : Bool
  instanceKeepAlive : Bool
  endian : UInt8
  taVersion : UInt32
deriving Repr, DecidableEq

def TaProperties.validate (p : TaProperties) : Fallible UInt32 Unit :=
  if p.endian ≠ 0 then .err TEE_ERROR_BAD_PARAMETERS
  else if p.stackSize = 0 ∨ p.dataSize = 0 then .err TEE_ERROR_BAD_PARAMETERS
  else if !p.singleInstance && (p.multiSession || p.instanceKeepAlive) then
    .err TEE_ERROR_BAD_PARAMETERS
  else .ok ()

/-- `uuid.copy_from_slice(&bytes[8..24])` -/
def uuidOf (s : List UInt8) : Uuid := ⟨Vector.ofFn fun i => s.getD i.val 0⟩

def parseTaHead (bytes : List UInt8) : Fallible UInt32 TaProperties := do
  if bytes.length < RTAH_SIZE then
    .err TEE_ERROR_BAD_PARAMETERS
  else
    let magic ← readLe bytes 0 4
    let abi ← readLe bytes 4 6
    let size ← readLe bytes 6 8
    if magic ≠ RTAH_MAGIC ∨ abi ≠ RTAH_ABI ∨ size ≠ RTAH_SIZE then
      .err TEE_ERROR_BAD_PARAMETERS
    else
      let uuid ← slice bytes 8 24
      let stackSize ← readLe bytes 24 28
      let dataSize ← readLe bytes 28 32
      let singleInstance ← readLe bytes 32 33
      let multiSession ← readLe bytes 33 34
      let instanceKeepAlive ← readLe bytes 34 35
      let endian ← readLe bytes 35 36
      let taVersion ← readLe bytes 36 40
      let props : TaProperties :=
        { uuid := uuidOf uuid
          stackSize := UInt32.ofNat stackSize
          dataSize := UInt32.ofNat dataSize
          singleInstance := singleInstance != 0
          multiSession := multiSession != 0
          instanceKeepAlive := instanceKeepAlive != 0
          endian := UInt8.ofNat endian
          taVersion := UInt32.ofNat taVersion }
      props.validate
      pure props

def encodeTaHead (p : TaProperties) : List UInt8 :=
  leBytes 4 RTAH_MAGIC ++ leBytes 2 RTAH_ABI ++ leBytes 2 RTAH_SIZE ++ p.uuid.bytes.toList ++
    leBytes 4 p.stackSize.toNat ++ leBytes 4 p.dataSize.toNat ++
    [p.singleInstance.toUInt8, p.multiSession.toUInt8, p.instanceKeepAlive.toUInt8, p.endian] ++
    leBytes 4 p.taVersion.toNat

/-! ### The signed envelope -/

/-- RTSG envelope: magic, abi, img_type, uuid, ta_version, img_size, hash_size,
sig_size, then hash, signature, ELF. -/
structure SignedImage where
  uuid : Uuid
  taVersion : UInt32
  hash : List UInt8
  sig : List UInt8
  elf : List UInt8
deriving Repr, DecidableEq

def parseRtsg (bytes : List UInt8) : Fallible UInt32 SignedImage := do
  if bytes.length < 40 then
    .err TEE_ERROR_BAD_PARAMETERS
  else
    let magic ← readLe bytes 0 4
    let abi ← readLe bytes 4 6
    if magic ≠ RTSG_MAGIC ∨ abi ≠ RTSG_ABI then
      .err TEE_ERROR_SECURITY
    else
      let uuid ← slice bytes 8 24
      let taVersion ← readLe bytes 24 28
      let imgSize ← readLe bytes 28 32
      let hashSize ← readLe bytes 32 34
      let sigSize ← readLe bytes 34 36
      -- a 32-bit and two 16-bit sizes: the sums below stay far from 2^64
      let hashEnd := 36 + hashSize
      let sigEnd := hashEnd + sigSize
      let elfEnd := sigEnd + imgSize
      if bytes.length < elfEnd then
        .err TEE_ERROR_BAD_PARAMETERS
      else
        let hash ← slice bytes 36 (UInt64.ofNat hashEnd)
        let sig ← slice bytes (UInt64.ofNat hashEnd) (UInt64.ofNat sigEnd)
        let elf ← slice bytes (UInt64.ofNat sigEnd) (UInt64.ofNat elfEnd)
        pure ⟨uuidOf uuid, UInt32.ofNat taVersion, hash, sig, elf⟩

/-! ### Finding the header in an ELF file -/

def isElf (image : List UInt8) : Bool := image.take 4 == ELF_MAGIC

/-- The loop over the section headers `i, i + 1, …`; `count` of them are left. -/
def elf64SectionLoop (build : Build) (image strtab name : List UInt8)
    (shoff shentsize : UInt64) : Nat → Nat → Fallible UInt32 (List UInt8)
  | 0, _ => .err TEE_ERROR_BAD_PARAMETERS
  | count + 1, i => do
    let rel ← usizeMul build (UInt64.ofNat i) shentsize
    let off ← usizeAdd build shoff rel
    let hdrEnd ← usizeAdd build off 64
    if image.length < hdrEnd.toNat then
      .err TEE_ERROR_BAD_PARAMETERS
    else
      let nameOff ← readLeAt build image off 0 4
      let secOff ← readLeAt build image off 24 8
      let secSize ← readLeAt build image off 32 8
      if cStr strtab (UInt64.ofNat nameOff) = some name then
        .ofOption TEE_ERROR_BAD_PARAMETERS
          (getRange image (UInt64.ofNat secOff)
            (saturatingAdd (UInt64.ofNat secOff) (UInt64.ofNat secSize)))
      else elf64SectionLoop build image strtab name shoff shentsize count (i + 1)

def elf64Section (build : Build) (image name : List UInt8) : Fallible UInt32 (List UInt8) := do
  if image.length < 64 ∨ isElf image = false ∨ image.getD 4 0 ≠ 2 ∨ image.getD 5 0 ≠ 1 then
    .err TEE_ERROR_BAD_PARAMETERS
  else
    let shoff ← readLe image 40 48
    let shentsize ← readLe image 58 60
    let shnum ← readLe image 60 62
    let shstrndx ← readLe image 62 64
    if shentsize < 64 ∨ shoff = 0 then
      .err TEE_ERROR_BAD_PARAMETERS
    else
      let rel ← usizeMul build (UInt64.ofNat shstrndx) (UInt64.ofNat shentsize)
      let shstr ← usizeAdd build (UInt64.ofNat shoff) rel
      let shstrEnd ← usizeAdd build shstr 64
      if image.length < shstrEnd.toNat then
        .err TEE_ERROR_BAD_PARAMETERS
      else
        let strOff ← readLeAt build image shstr 24 8
        let strSize ← readLeAt build image shstr 32 8
        let strtab ← .ofOption TEE_ERROR_BAD_PARAMETERS
          (getRange image (UInt64.ofNat strOff)
            (saturatingAdd (UInt64.ofNat strOff) (UInt64.ofNat strSize)))
        elf64SectionLoop build image strtab name (UInt64.ofNat shoff) (UInt64.ofNat shentsize)
          shnum 0

/-- Lookup of `.rustee.ta_head`. An image may also be a raw 40-byte header. -/
def findTaHead (build : Build) (image : List UInt8) : Fallible UInt32 (List UInt8) :=
  if 40 ≤ image.length ∧ leNat (image.take 4) = RTAH_MAGIC then .ok (image.take 40)
  else elf64Section build image SECTION_NAME

end Rustee.Os
