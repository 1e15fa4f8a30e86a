import Rustee.OsHeader

/-!
# ELF64 images (`crates/rustee-os/src/elf.rs`)

PT_LOAD segments, the GP `TA_*` symbols, and mapping an image into a TA address space.
-/

namespace Rustee.Os

def TA_CREATE : List UInt8 := ascii "TA_CreateEntryPoint"
def TA_DESTROY : List UInt8 := ascii "TA_DestroyEntryPoint"
def TA_OPEN : List UInt8 := ascii "TA_OpenSessionEntryPoint"
def TA_CLOSE : List UInt8 := ascii "TA_CloseSessionEntryPoint"
def TA_INVOKE : List UInt8 := ascii "TA_InvokeCommandEntryPoint"

/-- `exec` is set by the source and read by nothing; it is left out. -/
structure LoadSeg where
  va : UInt64
  fileOff : UInt64
  fileSize : UInt64
  memSize : UInt64
deriving Repr, DecidableEq

structure TaSymbols where
  create : UInt64
  destroy : UInt64
  openSession : UInt64
  closeSession : UInt64
  invoke : UInt64
deriving Repr, DecidableEq

structure ElfImage where
  props : TaProperties
  segs : List LoadSeg
  symbols : Option TaSymbols
deriving Repr, DecidableEq

/-! ### Segments -/

def ptLoadLoop (build : Build) (bytes : List UInt8) (phoff phentsize : UInt64) :
    Nat → Nat → List LoadSeg → Fallible UInt32 (List LoadSeg)
  | 0, _, segs => .ok segs
  | count + 1, i, segs => do
    let rel ← usizeMul build (UInt64.ofNat i) phentsize
    let o ← usizeAdd build phoff rel
    let hdrEnd ← usizeAdd build o 56
    if bytes.length < hdrEnd.toNat then
      .err TEE_ERROR_BAD_PARAMETERS
    else
      let pType ← readLeAt build bytes o 0 4
      if pType ≠ 1 then
        ptLoadLoop build bytes phoff phentsize count (i + 1) segs
      else
        let off ← readLeAt build bytes o 8 8
        let va ← readLeAt build bytes o 16 8
        let filesz ← readLeAt build bytes o 32 8
        let memsz ← readLeAt build bytes o 40 8
        ptLoadLoop build bytes phoff phentsize count (i + 1)
          (segs ++ [⟨UInt64.ofNat va, UInt64.ofNat off, UInt64.ofNat filesz,
            UInt64.ofNat memsz⟩])

variable (build : Build)

def ptLoad (bytes : List UInt8) : Fallible UInt32 (List LoadSeg) := do
  let phoff ← readLe bytes 32 40
  let phentsize ← readLe bytes 54 56
  let phnum ← readLe bytes 56 58
  ptLoadLoop build bytes (UInt64.ofNat phoff) (UInt64.ofNat phentsize) phnum 0 []

/-! ### Symbols -/

abbrev SymbolSlots := List (List UInt8 × UInt64)

def symbolSlots : SymbolSlots :=
  [(TA_CREATE, 0), (TA_DESTROY, 0), (TA_OPEN, 0), (TA_CLOSE, 0), (TA_INVOKE, 0)]

def recordSymbol (names : SymbolSlots) (name : List UInt8) (value : UInt64) : SymbolSlots :=
  names.map fun slot => if name = slot.1 then (slot.1, value) else slot

/-- The symbols `s, s + 1, …` of one table; `count` of them are left. The loop ends
early when a symbol lies past the end of the file. -/
def symbolLoop (build : Build) (bytes strtab : List UInt8) (symOff ent : UInt64) :
    Nat → Nat → SymbolSlots → Fallible UInt32 SymbolSlots
  | 0, _, names => .ok names
  | count + 1, s, names => do
    let rel ← usizeMul build (UInt64.ofNat s) ent
    let so ← usizeAdd build symOff rel
    let symEnd ← usizeAdd build so 24
    if bytes.length < symEnd.toNat then
      .ok names
    else
      let nameOff ← readLeAt build bytes so 0 4
      let value ← readLeAt build bytes so 8 8
      let name := (cStr strtab (UInt64.ofNat nameOff)).getD []
      symbolLoop build bytes strtab symOff ent count (s + 1)
        (recordSymbol names name (UInt64.ofNat value))

/-- The section headers `i, i + 1, …`; only SHT_SYMTAB (2) and SHT_DYNSYM (11) are
scanned. -/
def symbolSectionLoop (build : Build) (bytes : List UInt8) (shoff shentsize : UInt64) :
    Nat → Nat → SymbolSlots → Fallible UInt32 SymbolSlots
  | 0, _, names => .ok names
  | count + 1, i, names => do
    let rel ← usizeMul build (UInt64.ofNat i) shentsize
    let o ← usizeAdd build shoff rel
    let hdrEnd ← usizeAdd build o 64
    if bytes.length < hdrEnd.toNat then
      .err TEE_ERROR_BAD_PARAMETERS
    else
      let shType ← readLeAt build bytes o 4 4
      if shType ≠ 2 ∧ shType ≠ 11 then
        symbolSectionLoop build bytes shoff shentsize count (i + 1) names
      else
        let shLink ← readLeAt build bytes o 40 4
        let symOff ← readLeAt build bytes o 24 8
        let symSize ← readLeAt build bytes o 32 8
        let ent ← readLeAt build bytes o 56 8
        if ent = 0 then
          symbolSectionLoop build bytes shoff shentsize count (i + 1) names
        else
          let strRel ← usizeMul build (UInt64.ofNat shLink) shentsize
          let strHdr ← usizeAdd build shoff strRel
          let strHdrEnd ← usizeAdd build strHdr 40
          if bytes.length < strHdrEnd.toNat then
            symbolSectionLoop build bytes shoff shentsize count (i + 1) names
          else
            let strOff ← readLeAt build bytes strHdr 24 8
            let strSize ← readLeAt build bytes strHdr 32 8
            let strEnd ← usizeAdd build (UInt64.ofNat strOff) (UInt64.ofNat strSize)
            let strtab ← .ofOption TEE_ERROR_BAD_PARAMETERS
              (getRange bytes (UInt64.ofNat strOff) strEnd)
            let names' ← symbolLoop build bytes strtab (UInt64.ofNat symOff) (UInt64.ofNat ent)
              (symSize / ent) 0 names
            symbolSectionLoop build bytes shoff shentsize count (i + 1) names'

def taSymbols (bytes : List UInt8) : Fallible UInt32 TaSymbols := do
  let shoff ← readLe bytes 40 48
  let shentsize ← readLe bytes 58 60
  let shnum ← readLe bytes 60 62
  let names ← symbolSectionLoop build bytes (UInt64.ofNat shoff) (UInt64.ofNat shentsize)
    shnum 0 symbolSlots
  if names.any (fun slot => slot.2 == 0) then
    .err TEE_ERROR_BAD_PARAMETERS
  else
    match names.map Prod.snd with
    | [create, destroy, openSession, closeSession, invoke] =>
      .ok ⟨create, destroy, openSession, closeSession, invoke⟩
    | _ => .err TEE_ERROR_BAD_PARAMETERS

/-! ### Parsing and mapping -/

def parseElf (bytes : List UInt8) : Fallible UInt32 ElfImage := do
  let head ← findTaHead build bytes
  let props ← parseTaHead head
  if bytes.length < 64 ∨ isElf bytes = false then
    .ok ⟨props, [], none⟩
  else
    let segs ← ptLoad build bytes
    let symbols ← (taSymbols build bytes).toOption
    .ok ⟨props, segs, symbols⟩

/-- On aarch64 the symbols become callable addresses; elsewhere nothing is bound. -/
def bindSymbols (aarch64 : Bool) (symbols : Option TaSymbols) (slide : UInt64) :
    Option TaEntryPoints :=
  match symbols with
  | none => none
  | some s =>
    if aarch64 then
      some
        { create := s.create + slide
          destroy := s.destroy + slide
          openSession := s.openSession + slide
          closeSession := s.closeSession + slide
          invoke := s.invoke + slide }
    else none

def MAX_TA_SPAN : Nat := 16 * 1024 * 1024

/-- `blob[off..off + src.len()].copy_from_slice(src)` -/
def splice (blob : List UInt8) (off : Nat) (src : List UInt8) : List UInt8 :=
  blob.take off ++ src ++ blob.drop (off + src.length)

def copySegs (bytes : List UInt8) (minVa : UInt64) :
    List LoadSeg → List UInt8 → Fallible UInt32 (List UInt8)
  | [], blob => .ok blob
  | seg :: segs, blob =>
    let off := seg.va - minVa
    let n := min seg.fileSize seg.memSize
    match getRange bytes seg.fileOff (saturatingAdd seg.fileOff n) with
    | none => .err TEE_ERROR_BAD_PARAMETERS
    | some src =>
      -- `off.checked_add(n)`, then the bound on the blob
      if 2 ^ 64 ≤ off.toNat + n.toNat ∨ blob.length < off.toNat + n.toNat then
        .err TEE_ERROR_BAD_PARAMETERS
      else copySegs bytes minVa segs (splice blob off.toNat src)

def minVa (segs : List LoadSeg) (first : LoadSeg) : UInt64 :=
  segs.foldl (fun m s => min m s.va) first.va

def segEnd (s : LoadSeg) : UInt64 := saturatingAdd s.va (max s.memSize s.fileSize)

def maxEnd (segs : List LoadSeg) (first : LoadSeg) : UInt64 :=
  segs.foldl (fun m s => max m (segEnd s)) (segEnd first)

/-- Map the PT_LOAD segments as one contiguous blob, so that text and data keep a
single slide, and bind the symbols to it. -/
def mapElf {σ A S : Type} (env : Env σ A S) (aspace : A) (bytes : List UInt8) :
    Fallible UInt32 (Option TaEntryPoints × A) := do
  let img ← parseElf env.target.build bytes
  match img.segs with
  | [] => .ok (bindSymbols env.target.aarch64 img.symbols 0, aspace)
  | first :: rest =>
    let lo := minVa rest first
    let hi := maxEnd rest first
    -- `max_end.checked_sub(min_va)`
    if hi.toNat < lo.toNat then
      .err TEE_ERROR_BAD_PARAMETERS
    else
      let span := hi.toNat - lo.toNat
      if span = 0 ∨ MAX_TA_SPAN < span then
        .err TEE_ERROR_BAD_PARAMETERS
      else
        let blob ← copySegs bytes lo (first :: rest) (List.replicate span 0)
        match env.hal.mapImage aspace lo blob Perms.RX with
        | (.error _, _) => .err TEE_ERROR_BAD_PARAMETERS
        | (.ok mapped, aspace') =>
          .ok (bindSymbols env.target.aarch64 img.symbols (mapped - lo), aspace')

end Rustee.Os
