import Rustee.Attempt
import Rustee.StorageFormat

/-!
# `ree-fs`: encrypted objects on a file system the REE owns

`ReeFs` draws file ids, keys and nonces from the platform's entropy, derives its keys from the
hardware key, and reaches the disk through `FsRpc`. File system and cryptography are parameters.
The state also carries a log of what was encrypted, decrypted and handed to the file system; no
operation looks at it.
-/

namespace Rustee.Storage

open Attempt List

/-! ### What the store is built on -/

/-- `trait FsRpc` over a file system with states in `φ`. -/
structure FsRpc (φ : Type) where
  create : Path → Bytes → Attempt φ StorageError Unit
  read : Path → Attempt φ StorageError Bytes
  write : Path → Bytes → Attempt φ StorageError Unit
  delete : Path → Attempt φ StorageError Unit
  mkdir : Path → Attempt φ StorageError Unit

/-- `MemFs`: a map from paths to contents. -/
structure MemFs where
  files : Path → Option Bytes

namespace MemFs

def insert (m : MemFs) (path : Path) (data : Bytes) : MemFs :=
  ⟨fun p => if p = path then some data else m.files p⟩

def remove (m : MemFs) (path : Path) : MemFs :=
  ⟨fun p => if p = path then none else m.files p⟩

@[simp] theorem files_insert (m : MemFs) (path p : Path) (data : Bytes) :
    (m.insert path data).files p = if p = path then some data else m.files p := rfl

@[simp] theorem files_remove (m : MemFs) (path p : Path) :
    (m.remove path).files p = if p = path then none else m.files p := rfl

end MemFs

/-- `impl FsRpc for MemFs` -/
def memFs : FsRpc MemFs where
  create := fun path data m => (.ok (), m.insert path data)
  read := fun path m => (.ofOption .notFound (m.files path), m)
  write := fun path data m => (.ok (), m.insert path data)
  delete := fun path m => (.ok (), m.remove path)
  mkdir := fun _ m => (.ok (), m)

/-- `trait Entropy` with states in `ε`. -/
structure Entropy (ε : Type) where
  fill : (n : Nat) → ε → Block n × ε

/-- `SoftwareProvider` and `hkdf_sha256`. A ciphertext is as long as its plaintext,
since the caller passes a buffer of that length. -/
structure Provider where
  hkdf : (ikm info : Bytes) → Block 32
  hmac : (key : Block 32) → (data : Bytes) → Block 32
  encrypt : (key : Block 32) → (nonce : Block 12) → (aad pt : Bytes) → Bytes × Block 16
  decrypt : (key : Block 32) → (nonce : Block 12) → (aad ct : Bytes) → (tag : Block 16) →
    Option Bytes
  length_encrypt : ∀ key nonce aad pt, (encrypt key nonce aad pt).1.length = pt.length
  length_decrypt : ∀ {key nonce aad ct tag pt}, decrypt key nonce aad ct tag = some pt →
    pt.length = ct.length

def Provider.Inverts (V : Provider) : Prop :=
  ∀ key nonce aad pt,
    V.decrypt key nonce aad (V.encrypt key nonce aad pt).1 (V.encrypt key nonce aad pt).2 = some pt

/-- The parts of `ReeFs<E, H, F>` that do not change. -/
structure Platform (ε φ : Type) where
  build : Build
  provider : Provider
  huk : Bytes
  entropy : Entropy ε
  fs : FsRpc φ

/-- One authenticated encryption. -/
structure Sealed where
  key : Block 32
  nonce : Block 12
  aad : Bytes
  pt : Bytes
  ct : Bytes
  tag : Block 16
deriving Repr, DecidableEq

inductive Event where
  /-- `write_object` encrypts the object of a handle under a new key. -/
  | wroteObject (h : ObjectHandle) (fek : Block 32)
  /-- `store_dir_full` encrypts a directory. -/
  | wroteDir (ta : TaId) (entries : List (ObjectMeta × FileRef))
  | encrypted (x : Sealed)
  | decrypted (x : Sealed)
deriving Repr, DecidableEq

/-- The changing parts of `ReeFs<E, H, F>`, with the log. -/
structure ReeFs (ε φ : Type) where
  entropy : ε
  fs : φ
  log : List Event

abbrev StoreM (ε φ α : Type) := Attempt (ReeFs ε φ) StorageError α

abbrev CipherM (α : Type) := Attempt (List Event) StorageError α

section Primitives

variable {ε φ α : Type}

def onFs (x : Attempt φ StorageError α) : StoreM ε φ α :=
  zoom (fun s => s.fs) (fun s fs => { s with fs := fs }) x

def onLog (x : CipherM α) : StoreM ε φ α :=
  zoom (fun s => s.log) (fun s log => { s with log := log }) x

/-- `self.entropy.fill(&mut buf)` -/
def fill (P : Platform ε φ) (n : Nat) : StoreM ε φ (Block n) :=
  transform fun s =>
    ((P.entropy.fill n s.entropy).1, { s with entropy := (P.entropy.fill n s.entropy).2 })

def note (e : Event) : CipherM Unit := modify (e :: ·)

def aesGcmEncrypt (V : Provider) (key : Block 32) (nonce : Block 12) (aad pt : Bytes) :
    CipherM (Bytes × Block 16) := do
  let out := V.encrypt key nonce aad pt
  note (.encrypted ⟨key, nonce, aad, pt, out.1, out.2⟩)
  pure out

def aesGcmDecrypt (V : Provider) (key : Block 32) (nonce : Block 12) (aad ct : Bytes)
    (tag : Block 16) : CipherM Bytes :=
  match V.decrypt key nonce aad ct tag with
  | some pt => do
    note (.decrypted ⟨key, nonce, aad, pt, ct, tag⟩)
    pure pt
  | none => raise .crypto

/-- `self.fs.write(&path, &blob).or_else(|_| self.fs.create(&path, &blob))` -/
def putFile (P : Platform ε φ) (path : Path) (blob : Bytes) : StoreM ε φ Unit :=
  orElse (onFs (P.fs.write path blob)) (onFs (P.fs.create path blob))

/-- `v[i]` -/
def index (v : List α) (i : Nat) : Fallible StorageError α :=
  match v[i]? with
  | some a => .ok a
  | none => .panic

variable {v : List α} {i : Nat} {a : α}

theorem index_eq_ok (h : v[i]? = some a) : index v i = .ok a := by
  rw [index, h]

theorem getElem?_of_index (h : index v i = .ok a) : v[i]? = some a := by
  rw [index] at h
  cases hget : v[i]? with
  | none =>
    rw [hget] at h
    cases h
  | some =>
    rw [hget] at h
    cases h
    rfl

theorem mem_of_index (h : index v i = .ok a) : a ∈ v :=
  mem_of_getElem? (getElem?_of_index h)

/-- `position` finds an entry with the id. -/
theorem objectId_of_findIdx {entries : List ObjectMeta} {objectId : Bytes}
    {e : ObjectMeta} (h : entries.findIdx? (fun e => e.objectId = objectId) = some i)
    (he : entries[i]? = some e) : e.objectId = objectId := by
  obtain ⟨hi, hspec, -⟩ := findIdx?_eq_some_iff_getElem.mp h
  rw [getElem?_eq_getElem hi] at he
  cases he
  exact of_decide_eq_true hspec

/-- `v[i] = a` -/
def assign (v : List α) (i : Nat) (a : α) : Fallible StorageError (List α) :=
  if i < v.length then .ok (v.set i a) else .panic

theorem mem_of_assign {v' : List α} (h : assign v i a = .ok v') : ∀ b ∈ v', b = a ∨ b ∈ v := by
  rw [assign] at h
  split at h
  · cases h
    intro b hb
    exact (mem_or_eq_of_mem_set hb).symm
  · cases h

/-- `v.remove(i)` -/
def remove (v : List α) (i : Nat) : Fallible StorageError (List α) :=
  if i < v.length then .ok (v.eraseIdx i) else .panic

theorem mem_of_remove {v' : List α} (h : remove v i = .ok v') : ∀ b ∈ v', b ∈ v := by
  rw [remove] at h
  split at h
  · cases h
    intro b hb
    exact mem_of_mem_eraseIdx hb
  · cases h

end Primitives

/-! ### Keys -/

/-- The label a key is derived for. -/
inductive Label where
  | wrap
  | dir
  | mac
deriving Repr, DecidableEq

def Label.info : Label → Bytes
  | .wrap => ascii "rustee.storage.wrap.v1"
  | .dir => ascii "rustee.storage.dir.v1"
  | .mac => ascii "rustee.storage.mac.v1"

namespace Platform

variable {ε φ : Type} (P : Platform ε φ)

def tsk (ta : TaId) : Block 32 :=
  let ssk := P.provider.hkdf P.huk (ascii "rustee.storage.ssk.v1")
  P.provider.hkdf ssk.bytes (ascii "rustee.storage.ta.v1" ++ ta.bytes)

/-- `Self::derive(&self.tsk(&ta)?, info)?` -/
def derive (ta : TaId) (label : Label) : Block 32 := P.provider.hkdf (P.tsk ta).bytes label.info

end Platform

section Operations

variable {ε φ : Type} (P : Platform ε φ)

/-! ### Object files -/

def writeObject (h : ObjectHandle) : StoreM ε φ Unit := do
  let kWrap := P.derive h.ta .wrap
  let fek ← fill P 32
  let wrapNonce ← fill P 12
  let bodyNonce ← fill P 12
  let aad := objectAad h.ta h.fileId h.objVersion
  onLog (note (.wroteObject h fek))
  let (wrapped, wrapTag) ← onLog (aesGcmEncrypt P.provider kWrap wrapNonce aad fek.bytes)
  let pt := objectPlaintext h.objectId h.data
  let (ct, bodyTag) ←
    onLog (aesGcmEncrypt P.provider fek bodyNonce (bodyAad aad pt.length) pt)
  let parts : ObjectParts :=
    ⟨wrapNonce, bodyNonce, wrapped, wrapTag, UInt64.ofNat pt.length, ct, bodyTag⟩
  putFile P (objPath h.ta h.fileId) (objectBlob h.ta h.fileId h.objVersion parts)

def decryptObject (ta : TaId) (fileId : FileId) (objectId : Bytes) (flags : UInt32)
    (objVersion : UInt64) (blob : Bytes) : CipherM ObjectHandle := do
  let x ← lift (splitBlob P.build blob)
  let kWrap := P.derive ta .wrap
  let aad := objectAad ta fileId objVersion
  let fekBytes ← mapErr .corrupt
    (aesGcmDecrypt P.provider kWrap x.wrapNonce aad x.wrapped x.wrapTag)
  let fek ← lift (arrayAt fekBytes 0 32)
  let pt ← mapErr .corrupt
    (aesGcmDecrypt P.provider fek x.bodyNonce (bodyAad aad x.ptLen.toNat) x.ct x.bodyTag)
  match splitPlaintext pt with
  | none => raise .corrupt
  | some (oid, data) =>
    if oid ≠ objectId then raise .corrupt
    else pure ⟨ta, fileId, oid, flags, data, objVersion⟩

/-! ### The directory -/

/-- `load_dir_full` after the read. -/
def openDir (ta : TaId) (blob : Bytes) : CipherM (List ObjectMeta × List FileRef) :=
  if blob.length < 12 + 16 + 32 then raise .corrupt
  else do
    let kDir := P.derive ta .dir
    let kMac := P.derive ta .mac
    let nonce ← lift (arrayAt blob 0 12)
    let rest := blob.drop 12
    if rest.length < 16 + 32 then raise .corrupt
    else
      let ctAndTag := rest.take (rest.length - 32)
      let mac := rest.drop (rest.length - 32)
      if (P.provider.hmac kMac ctAndTag).bytes ≠ mac then raise .corrupt
      else if ctAndTag.length < 16 then raise .corrupt
      else
        let ct := ctAndTag.take (ctAndTag.length - 16)
        let tag ← lift (arrayAt ctAndTag (ctAndTag.length - 16) 16)
        let pt ← mapErr .corrupt (aesGcmDecrypt P.provider kDir nonce (dirAad ta) ct tag)
        lift (parseDir pt)

def loadDirFull (ta : TaId) : StoreM ε φ (List ObjectMeta × List FileRef) := do
  let blob ← mapErr .notFound (onFs (P.fs.read (dirPath ta)))
  onLog (openDir P ta blob)

def loadDir (ta : TaId) : StoreM ε φ (List ObjectMeta) := do
  let dir ← loadDirFull P ta
  pure dir.1

/-- `dir.v1`: nonce, ciphertext, tag, HMAC of ciphertext and tag. -/
def dirBlob (nonce : Block 12) (ct : Bytes) (tag : Block 16) (mac : Block 32) : Bytes :=
  nonce.bytes ++ ((ct ++ tag.bytes) ++ mac.bytes)

def storeDirFull (ta : TaId) (entries : List ObjectMeta) (files : List FileRef) :
    StoreM ε φ Unit := do
  let pt := encodeDir (listing entries files)
  let kDir := P.derive ta .dir
  let kMac := P.derive ta .mac
  let nonce ← fill P 12
  onLog (note (.wroteDir ta (listing entries files)))
  let (ct, tag) ← onLog (aesGcmEncrypt P.provider kDir nonce (dirAad ta) pt)
  let mac := P.provider.hmac kMac (ct ++ tag.bytes)
  putFile P (dirPath ta) (dirBlob nonce ct tag mac)

/-- The loop of `store_dir`: the `i`-th of the extra pairs replaces the `i`-th pair
there is. -/
def mergeExtra (files extra : List FileRef) : List FileRef :=
  extra.zipIdx.foldl (fun files (e, i) => if i < files.length then files.set i e else files ++ [e])
    files

def storeDir (ta : TaId) (entries : List ObjectMeta) (extra : List FileRef) :
    StoreM ε φ Unit := do
  let existing ← toOption (loadDirFull P ta)
  let files := match existing with
    | some (_, existing) => existing
    | none => []
  storeDirFull P ta entries (mergeExtra files extra)

def upsertDir (h : ObjectHandle) : StoreM ε φ Unit := do
  let dir ← toOption (loadDirFull P h.ta)
  let (entries, files) := dir.getD ([], [])
  match entries.findIdx? (fun e => e.objectId = h.objectId) with
  | some i => do
    let e ← lift (index entries i)
    let entries ← lift
      (assign entries i { e with dataSize := UInt64.ofNat h.data.length, flags := h.flags })
    let files ← lift (assign files i (h.fileId, h.objVersion))
    storeDirFull P h.ta entries files
  | none =>
    storeDirFull P h.ta (entries ++ [⟨h.objectId, h.flags, UInt64.ofNat h.data.length⟩])
      (files ++ [(h.fileId, h.objVersion)])

/-! ### The operations -/

def create (ta : TaId) (objectId : Bytes) (flags : UInt32) (data : Bytes) :
    StoreM ε φ ObjectHandle :=
  if data.length > MAX_OBJECT then raise .tooBig
  else do
    let _ ← toOption (onFs (P.fs.mkdir (taHex ta)))
    let _ ← toOption (onFs (P.fs.mkdir (taHex ta ++ ascii "/obj")))
    let dir ← toOption (loadDir P ta)
    let entries := dir.getD []
    if entries.any (fun e => e.objectId = objectId) then raise .fs
    else do
      let fileId ← fill P 16
      let handle : ObjectHandle := ⟨ta, fileId, objectId, flags, data, 1⟩
      writeObject P handle
      storeDir P ta (entries ++ [⟨objectId, flags, UInt64.ofNat data.length⟩])
        [(fileId, handle.objVersion)]
      pure handle

def list (ta : TaId) : StoreM ε φ (List ObjectMeta) := loadDir P ta

def open_ (ta : TaId) (objectId : Bytes) : StoreM ε φ ObjectHandle := do
  let (entries, files) ← loadDirFull P ta
  let idx ← lift (Fallible.ofOption .notFound (entries.findIdx? (fun e => e.objectId = objectId)))
  let file ← lift (index files idx)
  let blob ← mapErr .corrupt (onFs (P.fs.read (objPath ta file.1)))
  let e ← lift (index entries idx)
  onLog (decryptObject P ta file.1 objectId e.flags file.2 blob)

/-- What `write` does to the handle before it stores it. `off as usize` is the
identity on 64 bits. -/
def writeEdit (h : ObjectHandle) (off : UInt64) (buf : Bytes) :
    Fallible StorageError ObjectHandle := do
  let stop ← fit P.build (off.toNat + buf.length)
  if stop.toNat > MAX_OBJECT then .err .tooBig
  else
    let data := if stop.toNat > h.data.length then resize h.data stop.toNat else h.data
    let data ← copyInto data off stop buf
    pure { h with data := data, objVersion := h.objVersion + 1 }

/-- What `truncate` does to the handle before it stores it. -/
def truncateEdit (h : ObjectHandle) (size : UInt64) : Fallible StorageError ObjectHandle :=
  if size.toNat > MAX_OBJECT then .err .tooBig
  else .ok { h with data := resize h.data size.toNat, objVersion := h.objVersion + 1 }

/-- `self.write_object(h)?; self.upsert_dir(h)?` -/
def storeHandle (h : ObjectHandle) : StoreM ε φ Unit := do
  writeObject P h
  upsertDir P h

/-- An operation through `&mut ObjectHandle`: the edited handle stays with the caller
also when storing it fails. -/
def through (h : ObjectHandle) (edit : Fallible StorageError ObjectHandle) (s : ReeFs ε φ) :
    Fallible StorageError Unit × ObjectHandle × ReeFs ε φ :=
  match edit with
  | .ok h' => ((storeHandle P h' s).1, h', (storeHandle P h' s).2)
  | .err e => (.err e, h, s)
  | .panic => (.panic, h, s)

def write (h : ObjectHandle) (off : UInt64) (buf : Bytes) (s : ReeFs ε φ) :
    Fallible StorageError Nat × ObjectHandle × ReeFs ε φ :=
  let r := through P h (writeEdit P h off buf) s
  (r.1 >>= fun _ => .ok buf.length, r.2)

def truncate (h : ObjectHandle) (size : UInt64) (s : ReeFs ε φ) :
    Fallible StorageError Unit × ObjectHandle × ReeFs ε φ :=
  through P h (truncateEdit h size) s

def delete (ta : TaId) (objectId : Bytes) : StoreM ε φ Unit := do
  let (entries, files) ← loadDirFull P ta
  let idx ← lift (Fallible.ofOption .notFound (entries.findIdx? (fun e => e.objectId = objectId)))
  let file ← lift (index files idx)
  let _ ← toOption (onFs (P.fs.delete (objPath ta file.1)))
  let entries ← lift (remove entries idx)
  let files ← lift (remove files idx)
  storeDirFull P ta entries files

def rename (ta : TaId) (old new : Bytes) : StoreM ε φ Unit := do
  let h ← open_ P ta old
  let h := { h with objectId := new, objVersion := h.objVersion + 1 }
  writeObject P h
  delete P ta old
  let dir ← toOption (loadDir P ta)
  let entries := dir.getD []
  storeDir P ta (entries ++ [⟨new, h.flags, UInt64.ofNat h.data.length⟩]) [(h.fileId, h.objVersion)]

end Operations

/-- `ReeFs::read`: the bytes of the handle's copy that the buffer receives. -/
def read (h : ObjectHandle) (off : UInt64) (len : Nat) : Bytes :=
  if off.toNat > h.data.length then []
  else (h.data.drop off.toNat).take (min len (h.data.length - off.toNat))

/-! ### A client and its handles -/

/-- The store together with the handles its callers hold. -/
structure Client (ε φ : Type) where
  store : ReeFs ε φ
  handles : List ObjectHandle

/-- A call of the store; `write` and `truncate` name the handle they go through by its
place in the list. -/
inductive Request where
  | create (ta : TaId) (objectId : Bytes) (flags : UInt32) (data : Bytes)
  | list (ta : TaId)
  | open_ (ta : TaId) (objectId : Bytes)
  | write (i : Nat) (off : UInt64) (buf : Bytes)
  | truncate (i : Nat) (size : UInt64)
  | delete (ta : TaId) (objectId : Bytes)
  | rename (ta : TaId) (old new : Bytes)
deriving Repr, DecidableEq

inductive Answer where
  | handle (h : ObjectHandle)
  | listing (entries : List ObjectMeta)
  | count (n : Nat)
  | done
deriving Repr, DecidableEq

section Serving

variable {ε φ : Type} (P : Platform ε φ)

namespace Client

def grant (c : Client ε φ) (x : StoreM ε φ ObjectHandle) :
    Fallible StorageError Answer × Client ε φ :=
  match x c.store with
  | (.ok h, s) => (.ok (.handle h), ⟨s, c.handles ++ [h]⟩)
  | (.err e, s) => (.err e, ⟨s, c.handles⟩)
  | (.panic, s) => (.panic, ⟨s, c.handles⟩)

def call {α : Type} (c : Client ε φ) (x : StoreM ε φ α) (answer : α → Answer) :
    Fallible StorageError Answer × Client ε φ :=
  ((x c.store).1 >>= fun a => .ok (answer a), ⟨(x c.store).2, c.handles⟩)

/-- A call through the `i`-th handle; without such a handle nothing is called. -/
def edit {α : Type} (c : Client ε φ) (i : Nat)
    (x : ObjectHandle → ReeFs ε φ → Fallible StorageError α × ObjectHandle × ReeFs ε φ)
    (answer : α → Answer) : Fallible StorageError Answer × Client ε φ :=
  match c.handles[i]? with
  | some h =>
    let r := x h c.store
    (r.1 >>= fun a => .ok (answer a), ⟨r.2.2, c.handles.set i r.2.1⟩)
  | none => (.ok .done, c)

def serve (c : Client ε φ) : Request → Fallible StorageError Answer × Client ε φ
  | .create ta objectId flags data => c.grant (Storage.create P ta objectId flags data)
  | .list ta => c.call (Storage.list P ta) .listing
  | .open_ ta objectId => c.grant (Storage.open_ P ta objectId)
  | .write i off buf => c.edit i (fun h => Storage.write P h off buf) .count
  | .truncate i size => c.edit i (fun h => Storage.truncate P h size) fun _ => .done
  | .delete ta objectId => c.call (Storage.delete P ta objectId) fun _ => .done
  | .rename ta old new => c.call (Storage.rename P ta old new) fun _ => .done

/-- The state after a list of requests. A panic ends the caller; the requests after
one are those of other callers. -/
def run (c : Client ε φ) : List Request → Client ε φ
  | [] => c
  | r :: rs => run (c.serve P r).2 rs

end Client

end Serving

end Rustee.Storage
