import Rustee.StorageWalk

/-!
# Files the REE made up

The directory's plaintext is parsed at offsets, with every slice checked before it is taken. The
length in the header of an object file is added to before anything is checked: close to 2^64 it
ends in a panic, of the addition in a debug build and of the slice behind it in a release build.
Nothing else in a file does. A directory entry takes 37 bytes and its id in the file and 40 bytes
in memory, so many entries with short ids take more memory than the file has bytes.
-/

namespace Rustee.Storage

open Attempt Fallible List

/-! ### `parse_dir` at its offsets -/

/-- One round of the loop. A slice is at most 2^63 bytes long, so the offsets do not
overflow. -/
def parseEntryAt (pt : Bytes) (off : Nat) :
    Fallible StorageError ((ObjectMeta × FileRef) × Nat) :=
  if off + 16 + 1 > pt.length then .err .corrupt
  else do
    let fid ← arrayAt pt off 16
    let off := off + 16
    let oidLen ← index pt off
    let off := off + 1
    if off + oidLen.toNat + 4 + 8 + 8 > pt.length then .err .corrupt
    else do
      let oid ← arrayAt pt off oidLen.toNat
      let off := off + oidLen.toNat
      let flags ← arrayAt pt off 4
      let off := off + 4
      let dataSize ← arrayAt pt off 8
      let off := off + 8
      let ver ← arrayAt pt off 8
      let off := off + 8
      pure ((⟨oid.bytes, UInt32.ofNat (leNat flags.bytes), UInt64.ofNat (leNat dataSize.bytes)⟩,
        (fid, UInt64.ofNat (leNat ver.bytes))), off)

def parseEntriesAt (pt : Bytes) : Nat → Nat → Fallible StorageError (List ObjectMeta × List FileRef)
  | 0, _ => .ok ([], [])
  | count + 1, off => do
    let ((e, f), off) ← parseEntryAt pt off
    let (entries, files) ← parseEntriesAt pt count off
    pure (e :: entries, f :: files)

/-- `parse_dir` -/
def parseDirAt (pt : Bytes) : Fallible StorageError (List ObjectMeta × List FileRef) :=
  if pt.length < 20 ∨ pt.take 4 ≠ ascii "RSTD" then .err .corrupt
  else do
    let count ← arrayAt pt 16 4
    parseEntriesAt pt (leNat count.bytes) 20

variable (pt : Bytes)

/-- At an offset, the round of the loop does what it does on the rest of the bytes. -/
theorem parseEntryAt_cases (off : Nat) :
    (parseEntryAt pt off = .err .corrupt ∧ parseEntry (pt.drop off) = .err .corrupt) ∨
      ∃ e off', parseEntryAt pt off = .ok (e, off') ∧
        parseEntry (pt.drop off) = .ok (e, pt.drop off') := by
  have hat : ∀ lo n : Nat, lo + n ≤ pt.length → ∃ b, (arrayAt pt lo n :
      Fallible StorageError (Block n)) = .ok b ∧ b.bytes = (pt.drop lo).take n :=
    fun _ _ h => arrayAt_of_le h
  have hlen : (pt.drop off).length = pt.length - off := length_drop
  rw [parseEntryAt, parseEntry]
  by_cases hshort : off + 16 + 1 > pt.length
  · rw [if_pos hshort, if_pos (by omega)]
    exact .inl ⟨rfl, rfl⟩
  · obtain ⟨fid, hfid, hbytes⟩ := hat off 16 (by omega)
    obtain ⟨fid', hfid', hbytes'⟩ : ∃ b, (arrayAt (pt.drop off) 0 16 :
        Fallible StorageError (Block 16)) = .ok b ∧ _ := arrayAt_of_le (by omega)
    have hsame : fid' = fid := Block.eq_of_bytes (by rw [hbytes, hbytes', drop_zero])
    have hi : off + 16 < pt.length := by omega
    have hdrop : (pt.drop off).drop 16 = pt.get ⟨off + 16, hi⟩ :: pt.drop (off + 16 + 1) := by
      rw [drop_drop]
      exact drop_eq_getElem_cons hi
    have hidx : index pt (off + 16) = .ok (pt.get ⟨off + 16, hi⟩) :=
      index_eq_ok (getElem?_eq_getElem hi)
    rw [if_neg hshort, if_neg (by omega), hfid, hfid', hsame, hdrop]
    simp only [ok_bind, hidx]
    generalize pt.get ⟨off + 16, hi⟩ = oidLen
    have hrest : (pt.drop (off + 16 + 1)).length = pt.length - (off + 16 + 1) := length_drop
    by_cases hroom : off + 16 + 1 + oidLen.toNat + 4 + 8 + 8 > pt.length
    · rw [if_pos hroom, if_pos (by omega)]
      exact .inl ⟨rfl, rfl⟩
    · obtain ⟨oid, hoid, hoidB⟩ := hat (off + 16 + 1) oidLen.toNat (by omega)
      obtain ⟨flags, hflags, hflagsB⟩ := hat (off + 16 + 1 + oidLen.toNat) 4 (by omega)
      obtain ⟨size, hsize, hsizeB⟩ := hat (off + 16 + 1 + oidLen.toNat + 4) 8 (by omega)
      obtain ⟨ver, hver, hverB⟩ := hat (off + 16 + 1 + oidLen.toNat + 4 + 8) 8 (by omega)
      rw [if_neg hroom, if_neg (by omega), hoid, ok_bind, hflags, ok_bind,
        hsize, ok_bind, hver, ok_bind]
      refine .inr ⟨_, _, rfl, ?_⟩
      simp only [pure_eq, hoidB, hflagsB, hsizeB, hverB, drop_drop, Nat.add_assoc]

theorem parseEntriesAt_eq (count off : Nat) :
    parseEntriesAt pt count off = parseEntries count (pt.drop off) := by
  induction count generalizing off with
  | zero => rfl
  | succ count ih =>
    rw [parseEntriesAt, parseEntries]
    rcases parseEntryAt_cases pt off with ⟨hat, hrest⟩ | ⟨e, off', hat, hrest⟩
    · rw [hat, hrest]
      rfl
    · rw [hat, hrest]
      simp only [ok_bind, ih off']

theorem parseDirAt_eq : parseDirAt pt = parseDir pt := by
  rw [parseDirAt, parseDir]
  split
  · rfl
  · rename_i hguard
    obtain ⟨count, hcount, hbytes⟩ : ∃ b, (arrayAt pt 16 4 : Fallible StorageError _) = .ok b ∧ _ :=
      arrayAt_of_le (by omega)
    rw [hcount, ok_bind, hbytes, parseEntriesAt_eq]

/-- **The directory codec.**  What is stored is read back, and any other bytes are
refused or give two parallel vectors. -/
theorem dir_codec_round_trip :
    (∀ (entries : List ObjectMeta) (files : List FileRef), entries.length = files.length →
      entries.length < 2 ^ 32 → (∀ e ∈ entries, e.objectId.length ≤ 255) →
      parseDirAt (encodeDir (listing entries files)) = .ok (entries, files)) ∧
    ∀ pt, parseDirAt pt = .err .corrupt ∨ ∃ entries files,
      parseDirAt pt = .ok (entries, files) ∧ entries.length = files.length := by
  constructor
  · intro entries files hlen hcount hids
    have hlisted : ∀ e ∈ listing entries files, e.1.objectId.length ≤ 255 := by
      intro e he
      apply hids
      rw [← map_fst_listing entries files]
      exact mem_map_of_mem he
    have hlength : (listing entries files).length = entries.length := length_listing _ _
    rw [parseDirAt_eq, parseDir_encodeDir hlisted, hlength, Nat.mod_eq_of_lt hcount,
      take_of_length_le (Nat.le_of_eq hlength), listing_eq_zip hlen, unzip_zip hlen]
  · intro pt
    rw [parseDirAt_eq]
    rcases parseDir_cases pt with herr | ⟨entries, files, hok, hlen, -⟩
    · exact .inl herr
    · exact .inr ⟨entries, files, hok, hlen⟩

/-- Two entries. -/
theorem dir_codec_round_trip_sample :
    parseDirAt (encodeDir (listing [⟨ascii "a", 1, 5⟩, ⟨[], 0, 0⟩]
      [(Block.zero 16, 3), (Block.zero 16, 4)])) =
    .ok ([⟨ascii "a", 1, 5⟩, ⟨[], 0, 0⟩], [(Block.zero 16, 3), (Block.zero 16, 4)]) :=
  dir_codec_round_trip.1 _ _ rfl (by decide) (by simp [ascii])

/-! ### The length in an object file -/

/-- An object file whose length field is so close to 2^64 that the end of the body, or
of its tag, does not fit 64 bits. -/
def Overlong (blob : Bytes) : Prop :=
  128 ≤ blob.length ∧ blob.take 4 = ascii "RSTO" ∧ 2 ^ 64 ≤ 144 + leAt blob 120 8

variable {blob : Bytes}

theorem arrayAt_ne_panic {lo n : Nat} (h : lo + n ≤ blob.length) :
    (arrayAt blob lo n : Fallible StorageError (Block n)) ≠ .panic := by
  obtain ⟨b, hb, -⟩ : ∃ b, (arrayAt blob lo n : Fallible StorageError _) = .ok b ∧ _ :=
    arrayAt_of_le h
  simp [hb]

theorem splitBlob_ne_panic (build : Build) (h : ¬ Overlong blob) :
    splitBlob build blob ≠ .panic := by
  by_cases hguard : blob.length < 128 ∨ blob.take 4 ≠ ascii "RSTO"
  · simp [splitBlob, if_pos hguard]
  · simp only [not_or, Nat.not_lt, not_not] at hguard
    have hfits : 144 + leAt blob 120 8 < 2 ^ 64 := by
      by_contra hover
      exact h ⟨hguard.1, hguard.2, Nat.le_of_not_lt hover⟩
    rcases splitBlob_of_fits build hguard.1 hguard.2 hfits with ⟨-, herr⟩ | ⟨x, hx, -⟩
    · simp [herr]
    · simp [hx]

theorem splitBlob_overlong (h : Overlong blob) : splitBlob .debug blob = .panic := by
  obtain ⟨hlen, hmagic, hpt⟩ := h
  obtain ⟨_, _, _, -, -, -, hsplit⟩ := splitBlob_header .debug hlen hmagic
  rw [hsplit]
  by_cases hbody : 128 + leAt blob 120 8 < 2 ^ 64
  · rw [usizeAdd_ofNat .debug hbody, ok_bind, usizeAdd_overflow]
    · rfl
    · rw [toNat_ofNat_of_lt hbody]
      show 2 ^ 64 ≤ 128 + leAt blob 120 8 + 16
      omega
  · have hp : (UInt64.ofNat (leAt blob 120 8)).toNat = leAt blob 120 8 :=
      toNat_ofNat_of_lt (leAt_lt blob 120 8)
    have h128 : (UInt64.ofNat 128).toNat = 128 := rfl
    rw [usizeAdd_overflow (by rw [hp, h128]; omega)]
    rfl

/-! ### The operations on made-up files -/

variable {ε φ : Type}

/-- The file system answers every call, somehow. -/
structure FsRpc.Answers (F : FsRpc φ) : Prop where
  create : ∀ path data fs, (F.create path data fs).1 ≠ .panic
  read : ∀ path fs, (F.read path fs).1 ≠ .panic
  write : ∀ path data fs, (F.write path data fs).1 ≠ .panic
  delete : ∀ path fs, (F.delete path fs).1 ≠ .panic
  mkdir : ∀ path fs, (F.mkdir path fs).1 ≠ .panic

def Platform.inBuild (P : Platform ε φ) (build : Build) : Platform ε φ := { P with build := build }

/-- A call of the file system, with its answer. -/
inductive FsCall where
  | create (path : Path) (answer : Fallible StorageError Unit)
  | read (path : Path) (answer : Fallible StorageError Bytes)
  | write (path : Path) (answer : Fallible StorageError Unit)
  | delete (path : Path) (answer : Fallible StorageError Unit)
  | mkdir (path : Path) (answer : Fallible StorageError Unit)
deriving DecidableEq

def noting {α : Type} (call : Fallible StorageError α → FsCall) (x : Attempt φ StorageError α) :
    Attempt (φ × List FsCall) StorageError α := fun s =>
  ((x s.1).1, (x s.1).2, s.2 ++ [call (x s.1).1])

/-- The file system `F`, with a list of its calls. -/
def FsRpc.noted (F : FsRpc φ) : FsRpc (φ × List FsCall) where
  create := fun path data => noting (.create path) (F.create path data)
  read := fun path => noting (.read path) (F.read path)
  write := fun path data => noting (.write path) (F.write path data)
  delete := fun path => noting (.delete path) (F.delete path)
  mkdir := fun path => noting (.mkdir path) (F.mkdir path)

theorem FsRpc.Answers.noted {F : FsRpc φ} (h : F.Answers) : F.noted.Answers where
  create := fun path data s => h.create path data s.1
  read := fun path s => h.read path s.1
  write := fun path data s => h.write path data s.1
  delete := fun path s => h.delete path s.1
  mkdir := fun path s => h.mkdir path s.1

def Platform.noted (P : Platform ε φ) : Platform ε (φ × List FsCall) :=
  ⟨P.build, P.provider, P.huk, P.entropy, P.fs.noted⟩

def ReeFs.noted (s : ReeFs ε φ) : ReeFs ε (φ × List FsCall) := ⟨s.entropy, (s.fs, []), s.log⟩

/-- The object file that `open` reads. -/
def openedFile (P : Platform ε φ) (ta : TaId) (objectId : Bytes) : StoreM ε φ Bytes := do
  let (entries, files) ← loadDirFull P ta
  let idx ← lift (ofOption .notFound (entries.findIdx? (fun e => e.objectId = objectId)))
  let file ← lift (index files idx)
  mapErr .corrupt (onFs (P.fs.read (objPath ta file.1)))

def quietly : Judgement ε φ := fun _ x => ∀ s, (x s).1 ≠ .panic

section Quiet

variable {P : Platform ε φ} (hfs : P.fs.Answers) {α : Type}

theorem quietly_bind {β : Type} {Q : α → Prop} {x : StoreM ε φ α} {f : α → StoreM ε φ β}
    (hx : quietly α x) (hr : Returns Q x) (hf : ∀ a, Q a → quietly β (f a)) :
    quietly β (x >>= f) := by
  intro s
  exact bind_ne_panic (hx s) fun a s' hrun => hf a (hr s a s' hrun) s'

include hfs

theorem quietly_putFile (path : Path) (blob : Bytes) : quietly _ (putFile P path blob) := by
  intro s
  have hwrite := hfs.write path blob s.fs
  rw [putFile, orElse]
  rcases hrun : onFs (P.fs.write path blob) s with ⟨r, s'⟩
  have hr : r = (P.fs.write path blob s.fs).1 := by
    cases hrun
    rfl
  rw [← hr] at hwrite
  cases r with
  | ok => simp
  | err => exact hfs.create path blob s'.fs
  | panic => exact absurd rfl hwrite

variable (ta : TaId)

theorem quietly_load : quietly _ (loadDirFull P ta) := by
  apply quietly_bind (Q := fun _ => True) (fun s => mapErr_ne_panic (hfs.read _ s.fs))
  · intro s a s' _
    trivial
  · intro blob _ s
    obtain ⟨log, hopen⟩ := onLog_openDir P ta blob s
    rw [hopen]
    exact dirOf_ne_panic ta blob

theorem quiet_walk : Walk P quietly ta fun _ => True where
  loads := fun _ _ => trivial
  lift := fun hr _ => hr
  bind := quietly_bind
  toOption := fun hx s => toOption_ne_panic_iff.mpr (hx s)
  remove := fun f s => hfs.delete (objPath ta f) s.fs
  load := quietly_load hfs ta
  store := fun entries files _ s => quietly_putFile hfs _ _ _
  fill := by
    intro s
    simp [fill, transform]
  mkdir := fun path _ s => hfs.mkdir path s.fs
  object := fun h _ _ s => quietly_putFile hfs _ _ _

/-- `open` reads the object file and decrypts it, or fails before that. -/
theorem open_cases (objectId : Bytes) (s : ReeFs ε φ) :
    (∃ blob s1 fileId flags objVersion, openedFile P ta objectId s = (.ok blob, s1) ∧
      open_ P ta objectId s = onLog (decryptObject P ta fileId objectId flags objVersion blob) s1) ∨
    ∃ e s1, openedFile P ta objectId s = (.err e, s1) ∧ open_ P ta objectId s = (.err e, s1) := by
  rcases hload : loadDirFull P ta s with ⟨r, s1⟩
  have hreturns := loadDirFull_returns (P := P) ta s
  have hquiet := quietly_load hfs ta s
  rw [hload] at hquiet
  rw [openedFile, open_]
  cases r with
  | panic => exact absurd rfl hquiet
  | err e =>
    rw [bind_of_err hload, bind_of_err hload]
    exact .inr ⟨e, s1, rfl, rfl⟩
  | ok dir =>
    obtain ⟨entries, files⟩ := dir
    obtain ⟨hlen, -⟩ := hreturns _ s1 hload
    rw [bind_of_ok hload, bind_of_ok hload]
    cases hidx : entries.findIdx? (fun e => e.objectId = objectId) with
    | none =>
      simp only [hidx]
      exact .inr ⟨_, s1, rfl, rfl⟩
    | some i =>
      obtain ⟨hi, -⟩ := findIdx?_eq_some_iff_getElem.mp hidx
      have hfile := index_eq_ok (getElem?_eq_getElem (hlen ▸ hi : i < files.length))
      have hentry := index_eq_ok (getElem?_eq_getElem hi)
      simp only [hidx, ofOption, hfile, hentry, lift_ok_bind]
      generalize files[i] = file
      have hread := mapErr_ne_panic (e := .corrupt)
        (x := (onFs (P.fs.read (objPath ta file.1)) : StoreM ε φ Bytes)) (hfs.read _ s1.fs)
      rcases hrun : mapErr .corrupt (onFs (P.fs.read (objPath ta file.1))) s1 with ⟨r, s2⟩
      rw [hrun] at hread
      cases r with
      | panic => exact absurd rfl hread
      | err e => exact .inr ⟨e, s2, hrun, bind_of_err hrun⟩
      | ok blob => exact .inl ⟨blob, s2, _, _, _, hrun, bind_of_ok hrun⟩

end Quiet

variable {P : Platform ε φ} {ta : TaId}

/-- A file that can be taken apart is decrypted, or refused, without a panic. -/
theorem decryptObject_ne_panic (ta : TaId) (fileId : FileId) (objectId : Bytes)
    (flags : UInt32) (objVersion : UInt64) (h : splitBlob P.build blob ≠ .panic)
    (log : List Event) :
    (decryptObject P ta fileId objectId flags objVersion blob log).1 ≠ .panic := by
  have hdecrypt : ∀ key nonce aad ct tag (log : List Event), (mapErr .corrupt
      (aesGcmDecrypt P.provider key nonce aad ct tag) log).1 ≠ .panic := by
    intro key nonce aad ct tag log
    apply mapErr_ne_panic
    rw [aesGcmDecrypt]
    cases P.provider.decrypt key nonce aad ct tag with
    | some => simp [note, bind_apply]
    | none => simp
  refine bind_ne_panic h fun x log1 hx => ?_
  obtain ⟨hwrapped, -⟩ := splitBlob_eq_ok (Prod.mk.inj hx).1
  refine bind_ne_panic (hdecrypt _ _ _ _ _ _) fun fekBytes log2 hfek => ?_
  obtain ⟨hdec, -⟩ := aesGcmDecrypt_eq_ok (mapErr_eq_ok hfek)
  have hlen : fekBytes.length = 32 := by rw [P.provider.length_decrypt hdec, hwrapped]
  refine bind_ne_panic (arrayAt_ne_panic (by omega)) fun fek log3 _ => ?_
  refine bind_ne_panic (hdecrypt _ _ _ _ _ _) fun pt log4 _ => ?_
  cases splitPlaintext pt with
  | none => simp
  | some =>
    simp only
    split
    · simp
    · simp

theorem open_ne_panic (hfs : P.fs.Answers) {objectId : Bytes}
    {s : ReeFs ε φ} (h : ∀ blob s', openedFile P ta objectId s = (.ok blob, s') →
      splitBlob P.build blob ≠ .panic) : (open_ P ta objectId s).1 ≠ .panic := by
  rcases open_cases hfs ta objectId s with
    ⟨blob, s1, fileId, flags, objVersion, hfile, hopen⟩ | ⟨e, s1, -, hopen⟩
  · rw [hopen]
    exact decryptObject_ne_panic ta fileId objectId flags objVersion (h blob s1 hfile) s1.log
  · rw [hopen]
    simp

theorem open_panic (hfs : P.fs.Answers) {objectId : Bytes}
    {s s' : ReeFs ε φ} (hfile : openedFile P ta objectId s = (.ok blob, s'))
    (hsplit : splitBlob P.build blob = .panic) : (open_ P ta objectId s).1 = .panic := by
  rcases open_cases hfs ta objectId s with
    ⟨blob', s1, fileId, flags, objVersion, hfile', hopen⟩ | ⟨e, s1, hfile', -⟩
  · cases hfile.symm.trans hfile'
    have hdecrypt : decryptObject P ta fileId objectId flags objVersion blob s'.log =
        (.panic, s'.log) := by
      apply bind_of_panic
      rw [lift_apply, hsplit]
    rw [hopen]
    simp only [onLog, zoom, hdecrypt]
  · cases hfile.symm.trans hfile'

/-! ### What is allocated for a file -/

/-- The plaintext of a directory that decrypts, from the log of its decryption. -/
def dirPlaintext (P : Platform ε φ) (ta : TaId) (blob : Bytes) : Option Bytes :=
  match (openDir P ta blob []).2 with
  | [.decrypted x] => some x.pt
  | _ => none

/-- The entries the loop of `parse_dir` has pushed when it ends, in an error or not. -/
def pushedEntries : Nat → Bytes → List ObjectMeta
  | 0, _ => []
  | count + 1, rest =>
    match parseEntry rest with
    | .ok ((e, _), rest) => e :: pushedEntries count rest
    | _ => []

def pushed (pt : Bytes) : List ObjectMeta :=
  if pt.length < 20 ∨ pt.take 4 ≠ ascii "RSTD" then []
  else pushedEntries (leNat ((pt.drop 16).take 4)) (pt.drop 20)

/-- `size_of::<ObjectMeta>()` -/
def OBJECT_META_SIZE : Nat := 40

/-- `size_of::<([u8; 16], u64)>()` -/
def FILE_REF_SIZE : Nat := 24

/-- What is allocated for a file that was read, in bytes: the buffer of the plaintext, and of a
directory the elements of its two vectors and the ids. The room that `push` keeps for more
elements is not counted. -/
def allocated (P : Platform ε φ) (ta : TaId) (path : Path) (blob : Bytes) : List Nat :=
  if path = dirPath ta then
    (blob.length - (12 + 16 + 32)) ::
      match dirPlaintext P ta blob with
      | some pt =>
        OBJECT_META_SIZE * (pushed pt).length :: FILE_REF_SIZE * (pushed pt).length ::
          (pushed pt).map fun e => e.objectId.length
      | none => []
  else
    match splitBlob P.build blob with
    | .ok x => [x.ptLen.toNat]
    | _ => []

/-- A directory with so many short ids that its entries take more memory than the file. -/
def Crowded (P : Platform ε φ) (ta : TaId) (blob : Bytes) : Prop :=
  ∃ pt ∈ dirPlaintext P ta blob, blob.length < OBJECT_META_SIZE * (pushed pt).length

instance (P : Platform ε φ) (ta : TaId) (blob : Bytes) : Decidable (Crowded P ta blob) :=
  Option.decidableExistsMem _

variable {pt}

theorem length_dirPlaintext (h : dirPlaintext P ta blob = some pt) : pt.length ≤ blob.length := by
  rw [dirPlaintext] at h
  rcases openDir_cases (P := P) ta blob [] with ⟨e, hrun⟩ | ⟨nonce, ct, tag, pt', hlen, hrun⟩
  · rw [hrun] at h
    cases h
  · rw [hrun] at h
    cases h
    exact hlen

theorem pushedEntries_fit (count : Nat) (rest : Bytes) :
    37 * (pushedEntries count rest).length ≤ rest.length ∧
      ∀ e ∈ pushedEntries count rest, e.objectId.length ≤ rest.length := by
  induction count generalizing rest with
  | zero => simp [pushedEntries]
  | succ count ih =>
    rw [pushedEntries]
    rcases parseEntry_cases rest with herr | ⟨e, rest', hentry, -, hlen⟩
    · simp [herr]
    · obtain ⟨hfit, hids⟩ := ih rest'
      simp only [hentry, length_cons, forall_mem_cons]
      refine ⟨by omega, by omega, fun e' he' => ?_⟩
      have hid := hids e' he'
      omega

theorem pushed_fit : 37 * (pushed pt).length ≤ pt.length ∧
    ∀ e ∈ pushed pt, e.objectId.length ≤ pt.length := by
  rw [pushed]
  split
  · simp
  · obtain ⟨hfit, hids⟩ := pushedEntries_fit (leNat ((pt.drop 16).take 4)) (pt.drop 20)
    have hdrop : (pt.drop 20).length ≤ pt.length := by simp
    exact ⟨Nat.le_trans hfit hdrop, fun e he => Nat.le_trans (hids e he) hdrop⟩

/-- Only the entries of a crowded directory take more than the file. -/
theorem allocated_fit {path : Path} (h : path = dirPath ta → ¬ Crowded P ta blob) :
    ∀ n ∈ allocated P ta path blob, n ≤ blob.length := by
  rw [allocated]
  split
  · rename_i hdir
    refine forall_mem_cons.mpr ⟨Nat.sub_le _ _, ?_⟩
    cases hplain : dirPlaintext P ta blob with
    | none => simp
    | some pt =>
      have hlen := length_dirPlaintext hplain
      obtain ⟨hfit, hids⟩ := @pushed_fit pt
      have hfiles : FILE_REF_SIZE = 24 := rfl
      have hentries : OBJECT_META_SIZE * (pushed pt).length ≤ blob.length := by
        by_contra hmore
        exact h hdir ⟨pt, hplain, Nat.lt_of_not_le hmore⟩
      simp only [forall_mem_cons, forall_mem_map]
      refine ⟨hentries, by rw [hfiles]; omega, fun e he => Nat.le_trans (hids e he) hlen⟩
  · cases hsplit : splitBlob P.build blob with
    | err | panic => simp
    | ok x => simpa using (splitBlob_eq_ok hsplit).2.2.2

/-! ### The four operations -/

def fileOps (P : Platform ε φ) (ta : TaId) (objectId new : Bytes) : List (StoreM ε φ Unit) :=
  [open_ P ta objectId >>= fun _ => pure (), list P ta >>= fun _ => pure (), delete P ta objectId,
    rename P ta objectId new]

/-- The file system answers a read of `x` with a file. -/
def ReadsFile (x : StoreM ε (φ × List FsCall) Unit) (s : ReeFs ε φ) (path : Path) (blob : Bytes) :
    Prop := .read path (.ok blob) ∈ (x s.noted).2.fs.2

/-- The four operations return `Ok` or an error in every build, those that check their
arithmetic included, and no allocation for a file they read is larger than the file. -/
def HandlesFiles (P : Platform ε φ) (ta : TaId) (objectId new : Bytes) (s : ReeFs ε φ) : Prop :=
  ∀ build, ∀ op ∈ fileOps (P.noted.inBuild build) ta objectId new, (op s.noted).1 ≠ .panic ∧
    ∀ path blob, ReadsFile op s path blob →
      ∀ n ∈ allocated (P.inBuild build) ta path blob, n ≤ blob.length

theorem fileOps_ne_panic (hfs : P.fs.Answers) {objectId new : Bytes} {s : ReeFs ε φ}
    (h : ∀ blob s', openedFile P ta objectId s = (.ok blob, s') → splitBlob P.build blob ≠ .panic) :
    ∀ op ∈ fileOps P ta objectId new, (op s).1 ≠ .panic := by
  have W := quiet_walk hfs ta
  have hopen := open_ne_panic hfs h
  simp only [fileOps, forall_mem_cons, not_mem_nil, false_implies, implies_true, and_true]
  refine ⟨bind_ne_panic hopen fun _ _ _ => by simp,
    bind_ne_panic (W.loadDir s) fun _ _ _ => by simp, W.delete objectId s, ?_⟩
  rw [rename_eq]
  refine bind_ne_panic hopen fun h s₁ hrun => ?_
  exact W.renameAs objectId trivial (open_returns ta objectId s h s₁ hrun).1 s₁

instance (blob : Bytes) : Decidable (Overlong blob) := inferInstanceAs (Decidable (_ ∧ _ ∧ _))

theorem memFs_answers : memFs.Answers where
  create := fun _ _ _ => by simp [memFs]
  read := fun path m => ofOption_ne_panic _ (m.files path)
  write := fun _ _ _ => by simp [memFs]
  delete := fun _ _ => by simp [memFs]
  mkdir := fun _ _ => by simp [memFs]

/-- A store with one object, whose file is the one given, or the one that was written. -/
def storeWithFile (file : Option Bytes) : ReeFs UInt8 MemFs :=
  let s := (create (samplePlatform memFs) sampleTa (ascii "a") 0 [1, 2] emptyStore).2
  match file with
  | some blob => { s with fs := s.fs.insert (objPath sampleTa (counter.fill 16 1).1) blob }
  | none => s

/-- A store with 41 objects whose ids have one byte. -/
def crowdedStore : ReeFs UInt8 MemFs :=
  (storeDirFull (samplePlatform memFs) sampleTa ((range 41).map fun i => ⟨[UInt8.ofNat i], 0, 0⟩)
    (replicate 41 (Block.zero 16, 1)) emptyStore).2

end Rustee.Storage
