import Rustee.Storage

/-!
# What the parts of the store do to a file system that keeps its files

The results of the two decoders depend on the bytes alone, not on the log. On a file system whose
reads and refused writes change nothing, a load is a function of the files, and storing an object
or a directory is one write whose bytes decode to what was stored.
-/

namespace Rustee.Storage

open Attempt Fallible List

/-! ### Decoding does not depend on the log -/

section Decoders

variable {ε φ : Type} (P : Platform ε φ)

/-- What `load_dir_full` makes of the bytes of `dir.v1`. -/
def dirOf (ta : TaId) (blob : Bytes) : Fallible StorageError (List ObjectMeta × List FileRef) :=
  (openDir P ta blob []).1

/-- What `decrypt_object` makes of the bytes of an object file. -/
def objectOf (ta : TaId) (fileId : FileId) (objectId : Bytes) (flags : UInt32)
    (objVersion : UInt64) (blob : Bytes) : Fallible StorageError ObjectHandle :=
  (decryptObject P ta fileId objectId flags objVersion blob []).1

theorem aesGcmDecrypt_oblivious (V : Provider) (key : Block 32) (nonce : Block 12) (aad ct : Bytes)
    (tag : Block 16) : (aesGcmDecrypt V key nonce aad ct tag).Oblivious := by
  intro log log'
  rw [aesGcmDecrypt]
  cases V.decrypt key nonce aad ct tag with
  | some | none => rfl

/-- A judgement on the parts of the two decoders, closed under sequencing. -/
structure Decoding (P : Platform ε φ) (G : ∀ α : Type, CipherM α → Prop) : Prop where
  lift : ∀ {α : Type} (r : Fallible StorageError α), G α (lift r)
  bind : ∀ {α β : Type} {x : CipherM α} {f : α → CipherM β}, G α x → (∀ a, G β (f a)) →
    G β (x >>= f)
  decrypt : ∀ key nonce aad ct tag,
    G _ (mapErr .corrupt (aesGcmDecrypt P.provider key nonce aad ct tag))

section Decoding

variable {P} {G : ∀ α : Type, CipherM α → Prop} (hG : Decoding P G)
include hG

theorem Decoding.openDir (ta : TaId) (blob : Bytes) : G _ (openDir P ta blob) := by
  rw [Storage.openDir]
  split
  · exact hG.lift _
  · apply hG.bind (hG.lift _)
    intro nonce
    simp only
    split
    · exact hG.lift _
    · split
      · exact hG.lift _
      · split
        · exact hG.lift _
        · apply hG.bind (hG.lift _)
          intro tag
          apply hG.bind (hG.decrypt _ _ _ _ _)
          intro pt
          exact hG.lift _

theorem Decoding.decryptObject (ta : TaId) (fileId : FileId) (objectId : Bytes) (flags : UInt32)
    (objVersion : UInt64) (blob : Bytes) :
    G _ (decryptObject P ta fileId objectId flags objVersion blob) := by
  apply hG.bind (hG.lift _)
  intro x
  apply hG.bind (hG.decrypt _ _ _ _ _)
  intro fekBytes
  apply hG.bind (hG.lift _)
  intro fek
  apply hG.bind (hG.decrypt _ _ _ _ _)
  intro pt
  cases splitPlaintext pt with
  | none => exact hG.lift _
  | some =>
    simp only
    split
    · exact hG.lift _
    · exact hG.lift _

end Decoding

theorem oblivious_decoding : Decoding P fun _ x => Oblivious x where
  lift := oblivious_lift
  bind := Oblivious.bind
  decrypt := fun _ _ _ _ _ => (aesGcmDecrypt_oblivious _ _ _ _ _ _).mapErr

theorem onLog_openDir (ta : TaId) (blob : Bytes) (s : ReeFs ε φ) :
    ∃ log, onLog (openDir P ta blob) s = (dirOf P ta blob, { s with log := log }) := by
  refine ⟨(openDir P ta blob s.log).2, ?_⟩
  rw [dirOf, (oblivious_decoding P).openDir ta blob [] s.log]
  rfl

variable {P}

/-! ### What a successful decoding says -/

variable {nonce : Block 12} {tag : Block 16} {ct pt : Bytes} {log log' : List Event} {V : Provider}
  {key : Block 32} {aad : Bytes}

theorem aesGcmDecrypt_eq_ok
    (h : aesGcmDecrypt V key nonce aad ct tag log = (.ok pt, log')) :
    V.decrypt key nonce aad ct tag = some pt ∧
      log' = .decrypted ⟨key, nonce, aad, pt, ct, tag⟩ :: log := by
  rw [aesGcmDecrypt] at h
  cases hdec : V.decrypt key nonce aad ct tag with
  | none =>
    rw [hdec] at h
    cases h
  | some =>
    rw [hdec] at h
    cases h
    exact ⟨rfl, rfl⟩

variable {blob : Bytes} {ta : TaId} {dir : List ObjectMeta × List FileRef}

/-- A directory is refused before anything is decrypted, or it is the parsed plaintext of one
decryption under the directory key of its trusted application. -/
theorem openDir_cases (ta : TaId) (blob : Bytes) (log : List Event) :
    (∃ e, openDir P ta blob log = (.err e, log)) ∨ ∃ nonce ct tag pt, pt.length ≤ blob.length ∧
      openDir P ta blob log =
        (parseDir pt, .decrypted ⟨P.derive ta .dir, nonce, dirAad ta, pt, ct, tag⟩ :: log) := by
  rw [openDir]
  split
  · exact .inl ⟨_, rfl⟩
  · rename_i hlen
    obtain ⟨nonce, hnonce, -⟩ : ∃ b, (arrayAt blob 0 12 : Fallible StorageError _) = .ok b ∧ _ :=
      arrayAt_of_le (by omega)
    rw [hnonce, lift_ok_bind]
    simp only
    split
    · exact .inl ⟨_, rfl⟩
    · split
      · exact .inl ⟨_, rfl⟩
      · split
        · exact .inl ⟨_, rfl⟩
        · rename_i htag
          obtain ⟨tag, htag', -⟩ : ∃ b, (arrayAt _ _ 16 : Fallible StorageError _) = .ok b ∧ _ :=
            arrayAt_of_le (Nat.le_of_eq (Nat.sub_add_cancel (Nat.le_of_not_lt htag)))
          rw [htag', lift_ok_bind, aesGcmDecrypt]
          cases hdec : P.provider.decrypt _ nonce (dirAad ta) _ tag with
          | none => exact .inl ⟨_, rfl⟩
          | some pt =>
            refine .inr ⟨nonce, _, tag, pt, ?_, rfl⟩
            rw [P.provider.length_decrypt hdec]
            simp only [length_take, length_drop]
            omega

theorem openDir_eq_ok
    (h : openDir P ta blob log = (.ok dir, log')) :
    ∃ nonce ct tag pt, parseDir pt = .ok dir ∧
      log' = .decrypted ⟨P.derive ta .dir, nonce, dirAad ta, pt, ct, tag⟩ :: log := by
  rcases openDir_cases (P := P) ta blob log with ⟨e, herr⟩ | ⟨nonce, ct, tag, pt, -, hrun⟩
  · rw [herr] at h
    cases h
  · obtain ⟨hparse, hlog⟩ := Prod.mk.inj (hrun.symm.trans h)
    exact ⟨nonce, ct, tag, pt, hparse, hlog.symm⟩

theorem dirOf_eq_ok (h : dirOf P ta blob = .ok dir) : ∃ pt, parseDir pt = .ok dir := by
  have hrun : openDir P ta blob [] = (.ok dir, (openDir P ta blob []).2) := Prod.ext h rfl
  obtain ⟨-, -, -, pt, hparse, -⟩ := openDir_eq_ok hrun
  exact ⟨pt, hparse⟩

theorem dirOf_ne_panic (ta : TaId) (blob : Bytes) : dirOf P ta blob ≠ .panic := by
  rw [dirOf]
  rcases openDir_cases (P := P) ta blob [] with ⟨e, herr⟩ | ⟨_, _, _, pt, -, hrun⟩
  · rw [herr]
    simp
  · rw [hrun]
    exact parseDir_ne_panic pt

variable {fileId : FileId}

/-- An object that decrypts: two decryptions, the key from the first used in the
second. -/
theorem decryptObject_eq_ok {objectId : Bytes} {flags : UInt32}
    {objVersion : UInt64} {h : ObjectHandle}
    (hrun : decryptObject P ta fileId objectId flags objVersion blob log = (.ok h, log')) :
    ∃ wrap body, log' = .decrypted body :: .decrypted wrap :: log ∧
      wrap.key = P.derive ta .wrap ∧ wrap.aad = objectAad ta fileId objVersion ∧
      wrap.pt = body.key.bytes ∧ splitPlaintext body.pt = some (objectId, h.data) ∧
      144 + body.pt.length < 2 ^ 64 ∧ h = ⟨ta, fileId, objectId, flags, h.data, objVersion⟩ := by
  obtain ⟨x, log1, hsplit, hrun⟩ := bind_eq_ok hrun
  obtain ⟨hparts, rfl⟩ := Prod.mk.inj hsplit
  obtain ⟨fekBytes, log2, hfek, hrun⟩ := bind_eq_ok hrun
  obtain ⟨hdec, rfl⟩ := aesGcmDecrypt_eq_ok (mapErr_eq_ok hfek)
  obtain ⟨fek, log3, harray, hrun⟩ := bind_eq_ok hrun
  obtain ⟨hkey, rfl⟩ := Prod.mk.inj harray
  obtain ⟨pt, log4, hpt, hrun⟩ := bind_eq_ok hrun
  obtain ⟨hbody, rfl⟩ := aesGcmDecrypt_eq_ok (mapErr_eq_ok hpt)
  obtain ⟨hwrapped, hct, hsmall, -⟩ := splitBlob_eq_ok hparts
  have hlen : fekBytes.length = 32 := by
    rw [P.provider.length_decrypt hdec, hwrapped]
  have hptLen : 144 + pt.length < 2 ^ 64 := by
    rw [P.provider.length_decrypt hbody, hct]
    exact hsmall
  have hfekBytes : fekBytes = fek.bytes := by
    obtain ⟨b, hb, hbytes⟩ : ∃ b, (arrayAt fekBytes 0 32 : Fallible StorageError _) = .ok b ∧ _ :=
      arrayAt_of_le (Nat.le_of_eq (by rw [hlen]))
    rw [hkey] at hb
    cases hb
    rw [hbytes, drop_zero, take_of_length_le (Nat.le_of_eq hlen)]
  cases hplain : splitPlaintext pt with
  | none =>
    rw [hplain] at hrun
    cases hrun
  | some y =>
    obtain ⟨oid, data⟩ := y
    rw [hplain] at hrun
    simp only at hrun
    split at hrun
    · cases hrun
    · rename_i hoid
      cases not_not.mp hoid
      cases hrun
      exact ⟨_, _, rfl, rfl, rfl, hfekBytes, hplain, hptLen, rfl⟩

/-! ### Decoding what was encoded -/

theorem aesGcmDecrypt_of_some
    (h : V.decrypt key nonce aad ct tag = some pt) (log : List Event) :
    aesGcmDecrypt V key nonce aad ct tag log =
      (.ok pt, .decrypted ⟨key, nonce, aad, pt, ct, tag⟩ :: log) := by
  rw [aesGcmDecrypt, h]
  rfl

theorem dirOf_dirBlob
    (h : P.provider.decrypt (P.derive ta .dir) nonce (dirAad ta) ct tag = some pt) :
    dirOf P ta (dirBlob nonce ct tag (P.provider.hmac (P.derive ta .mac) (ct ++ tag.bytes))) =
      parseDir pt := by
  let mac := P.provider.hmac (P.derive ta .mac) (ct ++ tag.bytes)
  have hnonce : (arrayAt (dirBlob nonce ct tag mac) 0 12 : Fallible StorageError _) = .ok nonce :=
    arrayAt_append [] nonce _ rfl rfl
  have hrest : (dirBlob nonce ct tag mac).drop 12 = (ct ++ tag.bytes) ++ mac.bytes :=
    drop_left' nonce.length_bytes
  have hlen : ((ct ++ tag.bytes) ++ mac.bytes).length - 32 = (ct ++ tag.bytes).length := by simp
  have hctLen : (ct ++ tag.bytes).length - 16 = ct.length := by simp
  have htag : (arrayAt (ct ++ tag.bytes) ct.length 16 : Fallible StorageError _) = .ok tag :=
    arrayAt_append ct tag [] (by simp) rfl
  have hguard : ¬ (dirBlob nonce ct tag mac).length < 12 + 16 + 32 := by
    simp [dirBlob]
    omega
  have hguard' : ¬ ((ct ++ tag.bytes) ++ mac.bytes).length < 16 + 32 := by
    simp
  have hguard'' : ¬ (ct ++ tag.bytes).length < 16 := by simp
  rw [dirOf, openDir, if_neg hguard, hnonce]
  simp only [hrest, if_neg hguard', hlen, take_left, drop_left, hctLen, htag,
    if_neg hguard'', mac, ne_eq, not_true_eq_false, if_false]
  rw [lift_ok_bind, lift_ok_bind, bind_of_ok (mapErr_of_ok (aesGcmDecrypt_of_some h []))]
  rfl

/-- An object file whose two layers decrypt is the object it was made from, for the
reader who asks for its id. -/
theorem objectOf_objectBlob {objVersion : UInt64} {x : ObjectParts}
    {fek : Block 32} {oid data : Bytes} (hwrapped : x.wrapped.length = 32)
    (hct : x.ct.length = x.ptLen.toNat) (hsmall : 144 + x.ptLen.toNat < 2 ^ 64)
    (hwrap : P.provider.decrypt (P.derive ta .wrap) x.wrapNonce (objectAad ta fileId objVersion)
      x.wrapped x.wrapTag = some fek.bytes) (hbody : P.provider.decrypt fek x.bodyNonce
      (bodyAad (objectAad ta fileId objVersion) x.ptLen.toNat) x.ct x.bodyTag =
        some (objectPlaintext oid data))
    (hoid : oid.length ≤ 255) (objectId : Bytes) (flags : UInt32) :
    objectOf P ta fileId objectId flags objVersion (objectBlob ta fileId objVersion x) =
      if oid = objectId then .ok ⟨ta, fileId, oid, flags, data, objVersion⟩ else .err .corrupt := by
  have hfek : (arrayAt fek.bytes 0 32 : Fallible StorageError _) = .ok fek :=
    arrayAt_append [] fek [] (by simp) rfl
  rw [objectOf, decryptObject, splitBlob_objectBlob P.build hwrapped hct hsmall, lift_ok_bind,
    bind_of_ok (mapErr_of_ok (aesGcmDecrypt_of_some hwrap [])), hfek,
    lift_ok_bind,
    bind_of_ok (mapErr_of_ok (aesGcmDecrypt_of_some hbody _)),
    splitPlaintext_objectPlaintext data hoid]
  by_cases heq : oid = objectId
  · simp [heq]
  · simp [heq]

end Decoders

/-! ### File systems that keep their files -/

/-- A view of a file system in which a read changes nothing, and a write or a creation
either puts the file or is refused and changes nothing. -/
structure Disk {φ : Type} (F : FsRpc φ) where
  get : φ → Path → Except StorageError Bytes
  put : φ → Path → Bytes → Option φ
  read_eq : ∀ path fs, F.read path fs = (.ofExcept (get fs path), fs)
  write_eq : ∀ path blob fs, F.write path blob fs =
    match put fs path blob with
    | some fs' => (.ok (), fs')
    | none => (.err .fs, fs)
  create_eq : ∀ path blob fs, F.create path blob fs = F.write path blob fs
  mkdir_eq : ∀ path fs, F.mkdir path fs = (.ok (), fs)

/-- `MemFs` keeps its files and never refuses a write. -/
def memDisk {F : FsRpc MemFs} (hF : F = memFs) : Disk F where
  get := fun m path => match m.files path with
    | some blob => .ok blob
    | none => .error .notFound
  put := fun m path blob => some (m.insert path blob)
  read_eq := by
    intro path m
    subst hF
    simp only [memFs]
    cases m.files path with
    | some => rfl
    | none => rfl
  write_eq := by
    intro path blob m
    subst hF
    rfl
  create_eq := by
    intro path blob m
    subst hF
    rfl
  mkdir_eq := by
    intro path m
    subst hF
    rfl

section Effects

variable {ε φ : Type} {P : Platform ε φ} (D : Disk P.fs)

/-- What the directory of a trusted application says, or why it cannot be had. -/
def Disk.dir (P : Platform ε φ) (D : Disk P.fs) (ta : TaId) (fs : φ) :
    Fallible StorageError (List ObjectMeta × List FileRef) :=
  match D.get fs (dirPath ta) with
  | .ok blob => dirOf P ta blob
  | .error _ => .err .notFound

def Disk.outcome (s : ReeFs ε φ) (path : Path) (blob : Bytes) :
    Fallible StorageError Unit × ReeFs ε φ :=
  match D.put s.fs path blob with
  | some fs => (.ok (), { s with fs := fs })
  | none => (.err .fs, s)

variable (ta : TaId) (s : ReeFs ε φ)

theorem loadDirFull_eq : ∃ log, loadDirFull P ta s = (D.dir P ta s.fs, { s with log := log }) := by
  have hread : onFs (P.fs.read (dirPath ta)) s = (.ofExcept (D.get s.fs (dirPath ta)), s) := by
    simp only [onFs, zoom, D.read_eq]
  cases hget : D.get s.fs (dirPath ta) with
  | ok blob =>
    rw [hget] at hread
    obtain ⟨log, hlog⟩ := onLog_openDir P ta blob s
    refine ⟨log, ?_⟩
    rw [loadDirFull, bind_of_ok (mapErr_of_ok hread), hlog, Disk.dir, hget]
  | error =>
    rw [hget] at hread
    refine ⟨s.log, ?_⟩
    rw [loadDirFull, bind_of_err (mapErr_of_err hread), Disk.dir, hget]

theorem loadDir_eq :
    ∃ log, loadDir P ta s = (D.dir P ta s.fs >>= fun dir => .ok dir.1, { s with log := log }) := by
  obtain ⟨log, hlog⟩ := loadDirFull_eq D ta s
  refine ⟨log, ?_⟩
  rw [loadDir, bind_apply, hlog]
  cases D.dir P ta s.fs with
  | ok | err | panic => rfl

/-- What `open` returns, as a function of the files. -/
def Disk.opened (P : Platform ε φ) (D : Disk P.fs) (ta : TaId) (objectId : Bytes) (fs : φ) :
    Fallible StorageError ObjectHandle := do
  let (entries, files) ← D.dir P ta fs
  let idx ← ofOption .notFound (entries.findIdx? (fun e => e.objectId = objectId))
  let file ← index files idx
  let blob ← .mapErr .corrupt (.ofExcept (D.get fs (objPath ta file.1)))
  let e ← index entries idx
  objectOf P ta file.1 objectId e.flags file.2 blob

theorem open_eq (objectId : Bytes) (s : ReeFs ε φ) :
    ∃ log, open_ P ta objectId s = (D.opened P ta objectId s.fs, { s with log := log }) := by
  obtain ⟨log, hlog⟩ := loadDirFull_eq D ta s
  rw [open_, bind_apply, hlog, Disk.opened]
  cases D.dir P ta s.fs with
  | err | panic => exact ⟨log, rfl⟩
  | ok dir =>
    obtain ⟨entries, files⟩ := dir
    simp only [ok_bind]
    cases entries.findIdx? (fun e => e.objectId = objectId) with
    | none => exact ⟨log, rfl⟩
    | some idx =>
      simp only [ofOption, ok_bind, lift_ok_bind]
      cases index files idx with
      | err | panic => exact ⟨log, rfl⟩
      | ok file =>
        have hread : onFs (P.fs.read (objPath ta file.1)) { s with log := log } =
            (.ofExcept (D.get s.fs (objPath ta file.1)), { s with log := log }) := by
          simp only [onFs, zoom, D.read_eq]
        simp only [ok_bind, lift_ok_bind]
        cases hget : D.get s.fs (objPath ta file.1) with
        | error =>
          rw [hget] at hread
          rw [bind_of_err (mapErr_of_err hread)]
          exact ⟨log, rfl⟩
        | ok blob =>
          rw [hget] at hread
          rw [bind_of_ok (mapErr_of_ok hread)]
          simp only [Fallible.ofExcept, Fallible.mapErr, ok_bind]
          cases index entries idx with
          | err | panic => exact ⟨log, rfl⟩
          | ok e =>
            refine ⟨(decryptObject P ta file.1 objectId e.flags file.2 blob log).2, ?_⟩
            rw [ok_bind, objectOf, (oblivious_decoding P).decryptObject ta file.1 objectId e.flags
              file.2 blob [] log]
            rfl

theorem putFile_eq (path : Path) (blob : Bytes) (s : ReeFs ε φ) :
    putFile P path blob s = D.outcome s path blob := by
  have hwrite : onFs (P.fs.write path blob) s = D.outcome s path blob := by
    simp only [onFs, zoom, D.write_eq, Disk.outcome]
    cases D.put s.fs path blob with
    | some | none => rfl
  have hcreate : onFs (ε := ε) (P.fs.create path blob) = onFs (P.fs.write path blob) := by
    funext s
    simp only [onFs, zoom, D.create_eq]
  rw [putFile, hcreate]
  cases hput : D.put s.fs path blob with
  | some =>
    rw [Disk.outcome, hput] at hwrite
    rw [orElse_of_ok hwrite, Disk.outcome, hput]
  | none =>
    rw [Disk.outcome, hput] at hwrite
    rw [orElse_of_err hwrite, hwrite, Disk.outcome, hput]

/-- An id that fits its length byte and a plaintext whose length fits the arithmetic of
the reader. -/
def ObjectHandle.Storable (h : ObjectHandle) : Prop :=
  h.objectId.length ≤ 255 ∧ 145 + h.objectId.length + h.data.length < 2 ^ 64

theorem writeObject_eq (h : ObjectHandle) (s : ReeFs ε φ) :
    ∃ blob entropy log,
      writeObject P h s = D.outcome ⟨entropy, s.fs, log⟩ (objPath h.ta h.fileId) blob ∧
      (P.provider.Inverts → h.Storable → ∀ objectId flags,
        objectOf P h.ta h.fileId objectId flags h.objVersion blob =
          if h.objectId = objectId then .ok { h with flags := flags } else .err .corrupt) := by
  refine ⟨_, _, _, putFile_eq D _ _ _, ?_⟩
  intro hinv hstore objectId flags
  have hlen : (UInt64.ofNat (objectPlaintext h.objectId h.data).length).toNat =
      (objectPlaintext h.objectId h.data).length := by
    rw [UInt64.toNat_ofNat', length_objectPlaintext]
    have := hstore.2
    omega
  apply objectOf_objectBlob
  · rw [P.provider.length_encrypt, Block.length_bytes]
  · rw [P.provider.length_encrypt, hlen]
  · rw [hlen, length_objectPlaintext]
    have := hstore.2
    omega
  · exact hinv _ _ _ _
  · rw [hlen]
    exact hinv _ _ _ _
  · exact hstore.1

variable (entries : List ObjectMeta)

/-- Storing a directory is one write, of bytes that decode to the entries it was given,
up to the 32 bits of the count. -/
theorem storeDirFull_eq (files : List FileRef)
    (s : ReeFs ε φ) :
    ∃ blob entropy log,
      storeDirFull P ta entries files s = D.outcome ⟨entropy, s.fs, log⟩ (dirPath ta) blob ∧
      (P.provider.Inverts → (∀ e ∈ entries, e.objectId.length ≤ 255) →
        dirOf P ta blob = .ok ((listing entries files).take (entries.length % 2 ^ 32)).unzip) := by
  refine ⟨_, _, _, putFile_eq D _ _ _, ?_⟩
  intro hinv hids
  rw [dirOf_dirBlob (hinv _ _ _ _), parseDir_encodeDir, length_listing]
  intro e he
  apply hids
  rw [← map_fst_listing entries files]
  exact mem_map_of_mem he

/-! ### The programs built from these -/

def Disk.loaded (P : Platform ε φ) (D : Disk P.fs) (ta : TaId) (fs : φ) :
    Option (List ObjectMeta × List FileRef) :=
  match D.dir P ta fs with
  | .ok dir => some dir
  | .err _ => none
  | .panic => none

theorem toOption_dir (fs : φ) : (D.dir P ta fs).toOption = .ok (D.loaded P ta fs) := by
  have hpanic : D.dir P ta fs ≠ .panic := by
    rw [Disk.dir]
    cases D.get fs (dirPath ta) with
    | ok blob => exact dirOf_ne_panic ta blob
    | error =>
      intro h
      cases h
  rw [Disk.loaded]
  cases hdir : D.dir P ta fs with
  | ok | err => rfl
  | panic => exact absurd hdir hpanic

theorem toOption_loadDirFull :
    ∃ log, Attempt.toOption (loadDirFull P ta) s =
      (.ok (D.loaded P ta s.fs), { s with log := log }) := by
  obtain ⟨log, hlog⟩ := loadDirFull_eq D ta s
  refine ⟨log, ?_⟩
  rw [Attempt.toOption, hlog, toOption_dir D]

theorem toOption_loadDir :
    ∃ log, Attempt.toOption (loadDir P ta) s =
      (.ok ((D.loaded P ta s.fs).map Prod.fst), { s with log := log }) := by
  obtain ⟨log, hlog⟩ := loadDir_eq D ta s
  refine ⟨log, ?_⟩
  have hdir := toOption_dir D ta s.fs
  rw [Attempt.toOption, hlog, Disk.loaded]
  cases hload : D.dir P ta s.fs with
  | ok | err => rfl
  | panic =>
    rw [hload] at hdir
    cases hdir

/-- What `load_dir_full(..).unwrap_or_default()` gives. -/
def Disk.dirOrEmpty (P : Platform ε φ) (D : Disk P.fs) (ta : TaId) (fs : φ) :
    List ObjectMeta × List FileRef :=
  (D.loaded P ta fs).getD ([], [])

theorem storeDir_eq (extra : List FileRef) (s : ReeFs ε φ) :
    ∃ log, storeDir P ta entries extra s =
      storeDirFull P ta entries (mergeExtra (D.dirOrEmpty P ta s.fs).2 extra)
        { s with log := log } := by
  obtain ⟨log, hlog⟩ := toOption_loadDirFull D ta s
  refine ⟨log, ?_⟩
  rw [storeDir, bind_of_ok hlog, Disk.dirOrEmpty]
  cases D.loaded P ta s.fs with
  | none | some => rfl

/-- The rest of `create`, once the handle is made. -/
def createAs (P : Platform ε φ) (h : ObjectHandle) (entries : List ObjectMeta) :
    StoreM ε φ ObjectHandle := do
  writeObject P h
  storeDir P h.ta (entries ++ [⟨h.objectId, h.flags, UInt64.ofNat h.data.length⟩])
    [(h.fileId, h.objVersion)]
  pure h

theorem create_eq {ta : TaId} {objectId : Bytes} {data : Bytes} (flags : UInt32)
    (hdata : data.length ≤ MAX_OBJECT) (s : ReeFs ε φ)
    (hnew : ∀ e ∈ (D.dirOrEmpty P ta s.fs).1, e.objectId ≠ objectId) :
    ∃ log, create P ta objectId flags data s =
      createAs P ⟨ta, (P.entropy.fill 16 s.entropy).1, objectId, flags, data, 1⟩
        (D.dirOrEmpty P ta s.fs).1 ⟨(P.entropy.fill 16 s.entropy).2, s.fs, log⟩ := by
  have hmkdir : ∀ path, toOption (onFs (P.fs.mkdir path)) s = (.ok (some ()), s) := by
    intro path
    apply toOption_of_ok
    simp only [onFs, zoom, D.mkdir_eq]
  obtain ⟨log, hlog⟩ := toOption_loadDir D ta s
  refine ⟨log, ?_⟩
  have hentries : ((D.loaded P ta s.fs).map Prod.fst).getD [] = (D.dirOrEmpty P ta s.fs).1 := by
    rw [Disk.dirOrEmpty]
    cases D.loaded P ta s.fs with
    | none | some => rfl
  have hdup : ¬ (D.dirOrEmpty P ta s.fs).1.any (fun e => e.objectId = objectId) = true := by
    simp only [any_eq_true, decide_eq_true_eq, not_exists, not_and]
    exact hnew
  rw [create, if_neg (Nat.not_lt.mpr hdata), bind_of_ok (hmkdir _),
    bind_of_ok (hmkdir _), bind_of_ok hlog]
  simp only [hentries]
  rw [if_neg hdup]
  rfl

end Effects

/-! ### What `write` does to a handle -/

/-- The data with `buf` written over it at `off`, grown with zeros where it is too short. -/
def splice (data : Bytes) (off : Nat) (buf : Bytes) : Bytes :=
  let grown := if off + buf.length > data.length then resize data (off + buf.length) else data
  grown.take off ++ buf ++ grown.drop (off + buf.length)

/-- `write` refuses a range that ends past the maximum; an end that overflows is refused
only by a release build, when it wraps to a number that is too big itself. -/
def WriteTooBig (build : Build) (stop : Nat) : Prop :=
  MAX_OBJECT < stop ∧ (stop < 2 ^ 64 ∨ build = .release ∧ MAX_OBJECT < stop % 2 ^ 64)

section Edits

variable {ε φ : Type} (P : Platform ε φ) (h : ObjectHandle) {off : UInt64} {buf : Bytes}

theorem writeEdit_of_le (hle : off.toNat + buf.length ≤ MAX_OBJECT) :
    writeEdit P h off buf = .ok { h with
      data := splice h.data off.toNat buf, objVersion := h.objVersion + 1 } := by
  have hmax : off.toNat + buf.length < 2 ^ 64 := by
    rw [MAX_OBJECT] at hle
    omega
  have hstop : (UInt64.ofNat (off.toNat + buf.length)).toNat = off.toNat + buf.length := by
    rw [UInt64.toNat_ofNat']
    omega
  let grown := if off.toNat + buf.length > h.data.length then
    resize h.data (off.toNat + buf.length) else h.data
  have hgrown : off.toNat + buf.length ≤ grown.length := by
    simp only [grown]
    split
    · simp
    · omega
  have hslice : (slice grown off (UInt64.ofNat (off.toNat + buf.length)) :
      Fallible StorageError _) = .ok ((grown.take (off.toNat + buf.length)).drop off.toNat) := by
    rw [slice_of_le (by omega) (by omega), hstop]
  have hlen : ((grown.take (off.toNat + buf.length)).drop off.toNat).length = buf.length := by
    simp only [length_drop, length_take]
    omega
  have hcopy : (copyInto grown off (UInt64.ofNat (off.toNat + buf.length)) buf :
      Fallible StorageError _) = .ok (splice h.data off.toNat buf) := by
    rw [copyInto, hslice, ok_bind, if_pos hlen, hstop]
    rfl
  rw [writeEdit, fit_of_lt P.build hmax, ok_bind, hstop, if_neg (Nat.not_lt.mpr hle)]
  show (copyInto grown off (UInt64.ofNat (off.toNat + buf.length)) buf >>= _) = _
  rw [hcopy, ok_bind]
  rfl

theorem writeEdit_of_gt (hgt : MAX_OBJECT < off.toNat + buf.length) :
    (WriteTooBig P.build (off.toNat + buf.length) ∧ writeEdit P h off buf = .err .tooBig) ∨
      (¬ WriteTooBig P.build (off.toNat + buf.length) ∧ writeEdit P h off buf = .panic) := by
  by_cases hfits : off.toNat + buf.length < 2 ^ 64
  · left
    have hstop : (UInt64.ofNat (off.toNat + buf.length)).toNat = off.toNat + buf.length := by
      rw [UInt64.toNat_ofNat']
      omega
    refine ⟨⟨hgt, Or.inl hfits⟩, ?_⟩
    rw [writeEdit, fit_of_lt P.build hfits, ok_bind, hstop, if_pos hgt]
  · have hover : 2 ^ 64 ≤ off.toNat + buf.length := Nat.le_of_not_lt hfits
    cases hbuild : P.build with
    | debug =>
      right
      refine ⟨?_, ?_⟩
      · rintro ⟨-, hlt | ⟨hrel, -⟩⟩
        · exact hfits hlt
        · cases hrel
      · rw [writeEdit, hbuild, fit_debug hover, panic_bind]
    | release =>
      have hstop : (UInt64.ofNat (off.toNat + buf.length)).toNat =
          (off.toNat + buf.length) % 2 ^ 64 := by
        rw [UInt64.toNat_ofNat']
      rw [writeEdit, hbuild, fit_release, ok_bind, hstop]
      by_cases hbig : MAX_OBJECT < (off.toNat + buf.length) % 2 ^ 64
      · left
        exact ⟨⟨hgt, Or.inr ⟨rfl, hbig⟩⟩, by rw [if_pos hbig]⟩
      · right
        refine ⟨?_, ?_⟩
        · rintro ⟨-, hlt | ⟨-, hrel⟩⟩
          · exact hfits hlt
          · exact hbig hrel
        · rw [if_neg hbig]
          -- the wrapped end lies below the start, or the slice has another length
          have hcopy : ∀ bytes : Bytes, (copyInto bytes off
              (UInt64.ofNat (off.toNat + buf.length)) buf : Fallible StorageError _) = .panic := by
            intro bytes
            rw [copyInto, slice, getRange, hstop]
            by_cases hrange : off.toNat ≤ (off.toNat + buf.length) % 2 ^ 64 ∧
                (off.toNat + buf.length) % 2 ^ 64 ≤ bytes.length
            · rw [if_pos hrange]
              have hlen : ((bytes.take ((off.toNat + buf.length) % 2 ^ 64)).drop
                  off.toNat).length ≠ buf.length := by
                simp only [length_drop, length_take]
                omega
              simp only [ok_bind, if_neg hlen]
            · rw [if_neg hrange]
              rfl
          simp only [hcopy, panic_bind]

def Edited (h h' : ObjectHandle) : Prop :=
  ∃ data, h' = { h with data := data, objVersion := h.objVersion + 1 }

theorem writeEdit_eq_ok {h' : ObjectHandle} (hedit : writeEdit P h off buf = .ok h') :
    Edited h h' := by
  obtain ⟨stop, -, hedit⟩ := bind_eq_ok.mp hedit
  split at hedit
  · cases hedit
  · obtain ⟨data, -, hedit⟩ := bind_eq_ok.mp hedit
    cases hedit
    exact ⟨data, rfl⟩

omit P in
theorem truncateEdit_eq_ok {size : UInt64} {h' : ObjectHandle}
    (hedit : truncateEdit h size = .ok h') : Edited h h' := by
  rw [truncateEdit] at hedit
  split at hedit
  · cases hedit
  · cases hedit
    exact ⟨_, rfl⟩

end Edits

/-! ### A platform to evaluate on -/

/-- The first `n` bytes, padded with zeros. -/
def padTo (n : Nat) (bytes : Bytes) : Block n :=
  ⟨(bytes ++ replicate n 0).take n, by simp⟩

/-- A provider that hides nothing: the ciphertext is the plaintext, every tag is
accepted, and a derived key spells out what it is derived from. -/
def plainProvider : Provider where
  hkdf := fun ikm info => padTo 32 (info.drop 15 ++ ikm)
  hmac := fun _ _ => Block.zero 32
  encrypt := fun _ _ _ pt => (pt, Block.zero 16)
  decrypt := fun _ _ _ ct _ => some ct
  length_encrypt := fun _ _ _ _ => rfl
  length_decrypt := by
    intro key nonce aad ct tag pt h
    cases h
    rfl

def counter : Entropy UInt8 where
  fill := fun n c => (⟨(range n).map fun i => c + UInt8.ofNat i, by simp⟩, c + UInt8.ofNat n)

def samplePlatform {φ : Type} (fs : FsRpc φ) : Platform UInt8 φ :=
  ⟨.debug, plainProvider, ascii "0123456789abcdef0123456789abcdef", counter, fs⟩

def sampleTa : TaId := padTo 16 [9]

/-- A store on an empty `MemFs`. -/
def emptyStore : ReeFs UInt8 MemFs := ⟨1, ⟨fun _ => none⟩, []⟩

theorem plainProvider_inverts : plainProvider.Inverts := fun _ _ _ _ => rfl

end Rustee.Storage
