import Rustee.StorageCreate

/-!
# Handles are private copies; a write publishes the whole copy

`open` loads the whole object into the handle, `write` edits that copy and stores it whole. Handles
on one object are not kept in step: the object is what the handle last written through holds, and
a write through an old handle also lists an object that was deleted. The abstract object below
says exactly this, and the store refines it.
-/

namespace Rustee.Storage

open Attempt Fallible List Client Disk

/-! ### The abstract object -/

/-- What an object is to the callers that opened it. -/
structure SharedObject where
  stored : Option Bytes
  copies : List Bytes
deriving Repr, DecidableEq

/-- A call on the object; `write` and `truncate` name the handle by the order of the
opens. -/
inductive Use where
  | open_
  | write (i : Nat) (off : UInt64) (buf : Bytes)
  | truncate (i : Nat) (size : UInt64)
  | delete
deriving Repr, DecidableEq

def writeCopy (off : UInt64) (buf data : Bytes) : Option Bytes :=
  if off.toNat + buf.length ≤ MAX_OBJECT then some (splice data off.toNat buf) else none

def truncateCopy (size : UInt64) (data : Bytes) : Option Bytes :=
  if size.toNat ≤ MAX_OBJECT then some (resize data size.toNat) else none

namespace SharedObject

def edit (a : SharedObject) (i : Nat) (f : Bytes → Option Bytes) : SharedObject :=
  match a.copies[i]? with
  | some data => match f data with
    | some data' => ⟨some data', a.copies.set i data'⟩
    | none => a
  | none => a

def use (a : SharedObject) : Use → SharedObject
  | .open_ => match a.stored with
    | some data => { a with copies := a.copies ++ [data] }
    | none => a
  | .write i off buf => a.edit i (writeCopy off buf)
  | .truncate i size => a.edit i (truncateCopy size)
  | .delete => { a with stored := none }

def run (a : SharedObject) : List Use → SharedObject
  | [] => a
  | u :: us => run (a.use u) us

end SharedObject

def Use.request (ta : TaId) (objectId : Bytes) : Use → Request
  | .open_ => .open_ ta objectId
  | .write i off buf => .write i off buf
  | .truncate i size => .truncate i size
  | .delete => .delete ta objectId

/-! ### Entries with distinct ids -/

section Entries

variable {entries : List ObjectMeta} {objectId : Bytes} {i : Nat} {e e' : ObjectMeta}

/-- Where the ids are distinct, `position` finds the one entry with the id. -/
theorem findIdx_of_nodup (hids : (entries.map fun e => e.objectId).Nodup)
    (he : entries[i]? = some e) (hid : e.objectId = objectId) :
    entries.findIdx? (fun e => e.objectId = objectId) = some i := by
  obtain ⟨hi, hget⟩ := List.getElem?_eq_some_iff.mp he
  rw [findIdx?_eq_some_iff_getElem]
  refine ⟨hi, by simp [hget, hid], ?_⟩
  intro j hji hj
  have hlen : j < (entries.map fun e => e.objectId).length := by
    rw [length_map]
    omega
  have hsame : j = i := by
    rw [← getElem?_inj hlen hids, getElem?_map, getElem?_map, he,
      getElem?_eq_getElem (by omega)]
    simpa [hid] using hj
  omega

theorem findIdx_of_absent (h : ∀ e ∈ entries, e.objectId ≠ objectId) :
    entries.findIdx? (fun e => e.objectId = objectId) = none := by
  rw [findIdx?_eq_none_iff]
  intro e he
  simp [h e he]

theorem ids_set (he : entries[i]? = some e) (hid : e'.objectId = e.objectId) :
    (entries.set i e').map (fun e => e.objectId) = entries.map fun e => e.objectId := by
  obtain ⟨hi, hget⟩ := List.getElem?_eq_some_iff.mp he
  have hsame : e'.objectId = (entries.map fun e => e.objectId).get ⟨i, by simpa using hi⟩ := by
    simp [hget, hid]
  rw [map_set, hsame]
  exact set_getElem_self _

theorem absent_of_eraseIdx (hids : (entries.map fun e => e.objectId).Nodup)
    (he : entries[i]? = some e) (hid : e.objectId = objectId) :
    ∀ e' ∈ entries.eraseIdx i, e'.objectId ≠ objectId := by
  intro e' he' heq
  obtain ⟨j, hji, hj⟩ := mem_eraseIdx_iff_getElem?.mp he'
  have hlen : j < (entries.map fun e => e.objectId).length := by
    rw [length_map]
    exact (List.getElem?_eq_some_iff.mp hj).1
  apply hji
  rw [← getElem?_inj hlen hids, getElem?_map, getElem?_map, he, hj]
  simp [hid, heq]

end Entries

/-! ### Storing on `MemFs` -/

variable {ε : Type} {P : Platform ε MemFs} {objectId : Bytes} {ta : TaId}
  {entries : List ObjectMeta} {h : ObjectHandle} {stored : Option Bytes} {files : List FileRef}
  {blob : Bytes} {ta : TaId} {i : Nat}

theorem storable_of_objectOf {fileId : FileId} {flags : UInt32}
    {objVersion : UInt64} (hrun : objectOf P ta fileId objectId flags objVersion blob = .ok h) :
    h.Storable ∧ h = ⟨ta, fileId, objectId, flags, h.data, objVersion⟩ := by
  rcases hdec : decryptObject P ta fileId objectId flags objVersion blob [] with ⟨r, log⟩
  rw [objectOf, hdec] at hrun
  cases hrun
  obtain ⟨wrap, body, -, -, -, -, hplain, hsmall, hh⟩ := decryptObject_eq_ok hdec
  obtain ⟨hid, hlen⟩ := splitPlaintext_eq_some hplain
  have hsame : h.objectId = objectId := by rw [hh]
  refine ⟨⟨?_, ?_⟩, hh⟩
  · rw [hsame]
    exact hid
  · rw [hsame]
    omega

section Mem

variable (hfs : P.fs = memFs)
include hfs

variable {files : List FileRef} {entries : List ObjectMeta}

theorem storeDirFull_mem (hinv : P.provider.Inverts) (ta : TaId)
    (hlen : entries.length = files.length) (hcount : entries.length < 2 ^ 32)
    (hids : ∀ e ∈ entries, e.objectId.length ≤ 255) (s : ReeFs ε MemFs) :
    ∃ s' blob, storeDirFull P ta entries files s = (.ok (), s') ∧
      s'.fs = s.fs.insert (dirPath ta) blob ∧ dirOf P ta blob = .ok (entries, files) := by
  obtain ⟨blob, entropy, log, hstore, hdecode⟩ := storeDirFull_eq (memDisk hfs) ta entries files s
  have hzip : (entries.zip files).length ≤ entries.length := by
    rw [length_zip]
    exact Nat.min_le_left _ _
  refine ⟨⟨entropy, s.fs.insert (dirPath ta) blob, log⟩, blob, hstore, rfl, ?_⟩
  rw [hdecode hinv hids, listing_eq_zip hlen, Nat.mod_eq_of_lt hcount,
    take_of_length_le hzip, unzip_zip hlen]

variable {s : ReeFs ε MemFs} {h : ObjectHandle}

theorem upsertDir_found {e : ObjectMeta}
    (hdir : (memDisk hfs).dir P h.ta s.fs = .ok (entries, files))
    (hidx : entries.findIdx? (fun e => e.objectId = h.objectId) = some i)
    (he : entries[i]? = some e) (hi : i < files.length) :
    ∃ log, upsertDir P h s = storeDirFull P h.ta
      (entries.set i { e with dataSize := UInt64.ofNat h.data.length, flags := h.flags })
      (files.set i (h.fileId, h.objVersion)) { s with log := log } := by
  obtain ⟨log, hload⟩ := toOption_loadDirFull (memDisk hfs) h.ta s
  have hsome : (memDisk hfs).loaded P h.ta s.fs = some (entries, files) := by
    simp only [loaded, hdir]
  have hei : i < entries.length := (List.getElem?_eq_some_iff.mp he).1
  rw [hsome] at hload
  refine ⟨log, ?_⟩
  rw [upsertDir, bind_of_ok hload]
  simp only [Option.getD_some, hidx, index_eq_ok he, assign, if_pos hei, if_pos hi, lift_ok_bind]

theorem upsertDir_missing
    (hdir : (memDisk hfs).dir P h.ta s.fs = .ok (entries, files))
    (hidx : entries.findIdx? (fun e => e.objectId = h.objectId) = none) :
    ∃ log, upsertDir P h s = storeDirFull P h.ta
      (entries ++ [⟨h.objectId, h.flags, UInt64.ofNat h.data.length⟩])
      (files ++ [(h.fileId, h.objVersion)]) { s with log := log } := by
  obtain ⟨log, hload⟩ := toOption_loadDirFull (memDisk hfs) h.ta s
  have hsome : (memDisk hfs).loaded P h.ta s.fs = some (entries, files) := by
    simp only [loaded, hdir]
  rw [hsome] at hload
  refine ⟨log, ?_⟩
  rw [upsertDir, bind_of_ok hload]
  simp only [Option.getD_some, hidx]

theorem delete_found {objectId : Bytes} {f : FileRef}
    (hdir : (memDisk hfs).dir P ta s.fs = .ok (entries, files))
    (hidx : entries.findIdx? (fun e => e.objectId = objectId) = some i)
    (hi : i < entries.length) (hf : files[i]? = some f) :
    ∃ log, delete P ta objectId s = storeDirFull P ta (entries.eraseIdx i) (files.eraseIdx i)
      ⟨s.entropy, s.fs.remove (objPath ta f.1), log⟩ := by
  obtain ⟨log, hload⟩ := loadDirFull_eq (memDisk hfs) ta s
  rw [hdir] at hload
  have hfi : i < files.length := (List.getElem?_eq_some_iff.mp hf).1
  have hdelete : Attempt.toOption (onFs (P.fs.delete (objPath ta f.1))) { s with log := log } =
      (.ok (some ()), ⟨s.entropy, s.fs.remove (objPath ta f.1), log⟩) := by
    rw [hfs]
    rfl
  refine ⟨log, ?_⟩
  rw [delete, bind_of_ok hload]
  simp only [hidx, ofOption, index_eq_ok hf, lift_ok_bind]
  rw [bind_of_ok hdelete]
  simp only [remove, if_pos hi, if_pos hfi, lift_ok_bind]

theorem delete_missing {objectId : Bytes}
    (hdir : (memDisk hfs).dir P ta s.fs = .ok (entries, files))
    (hidx : entries.findIdx? (fun e => e.objectId = objectId) = none) :
    ∃ log, delete P ta objectId s = (.err .notFound, { s with log := log }) := by
  obtain ⟨log, hload⟩ := loadDirFull_eq (memDisk hfs) ta s
  rw [hdir] at hload
  refine ⟨log, ?_⟩
  rw [delete, bind_of_ok hload]
  simp only [hidx, ofOption]
  rfl

end Mem

/-- A directory that is stored comes back through encryption and MAC when it is loaded, and no
object of another trusted application opens differently. -/
theorem dir_stored_and_loaded {files : List FileRef} {entries : List ObjectMeta}
    (hfs : P.fs = memFs) (hinv : P.provider.Inverts) (hlen : entries.length = files.length)
    (hcount : entries.length < 2 ^ 32) (hids : ∀ e ∈ entries, e.objectId.length ≤ 255)
    (s : ReeFs ε MemFs) :
    ∃ s', storeDirFull P ta entries files s = (.ok (), s') ∧
      (loadDirFull P ta s').1 = .ok (entries, files) ∧
      ∀ u ≠ ta, (open_ P u objectId s').1 = (open_ P u objectId s).1 := by
  obtain ⟨s', blob, hstore, hfiles, hdir⟩ := storeDirFull_mem hfs hinv ta hlen hcount hids s
  obtain ⟨log, hload⟩ := loadDirFull_eq (memDisk hfs) ta s'
  refine ⟨s', hstore, ?_, fun u hu => ?_⟩
  · rw [hload, dir_of_file hfs (by rw [hfiles, MemFs.files_insert, if_pos rfl]), hdir]
  · obtain ⟨_, hafter⟩ := open_eq (memDisk hfs) u objectId s'
    obtain ⟨_, hbefore⟩ := open_eq (memDisk hfs) u objectId s
    have hne : dirPath u ≠ dirPath ta := fun h => hu (hex32_injective (append_cancel_right h))
    simp only [hafter, hbefore, Disk.opened, Disk.dir, memDisk, hfiles, MemFs.files_insert,
      if_neg hne, if_neg (objPath_ne_dirPath u ta _)]

theorem dir_stored_and_loaded_sample : ∃ s', storeDirFull (samplePlatform memFs) sampleTa
    [⟨ascii "a", 0, 0⟩] [(Block.zero 16, 1)] emptyStore = (.ok (), s') ∧
      (loadDirFull (samplePlatform memFs) sampleTa s').1 =
        .ok ([⟨ascii "a", 0, 0⟩], [(Block.zero 16, 1)]) ∧
      ∀ u ≠ sampleTa, (open_ (samplePlatform memFs) u [] s').1 =
        (open_ (samplePlatform memFs) u [] emptyStore).1 :=
  dir_stored_and_loaded rfl plainProvider_inverts rfl (by decide) (by decide) _

/-! ### The store refines the abstract object -/

/-- The files hold the object as the abstract one has it: listed under the file id with
a version its file decrypts under, or not listed. -/
def HoldsObject (P : Platform ε MemFs) (ta : TaId) (objectId : Bytes) (fileId : FileId)
    (flags : UInt32) (m : MemFs) : Option Bytes → Prop
  | some data => ∃ entries files dirBlob blob, ∃ i : Nat, ∃ e : ObjectMeta, ∃ v,
      m.files (dirPath ta) = some dirBlob ∧ dirOf P ta dirBlob = .ok (entries, files) ∧
      (entries.map fun e => e.objectId).Nodup ∧ entries[i]? = some e ∧ e.objectId = objectId ∧
      e.flags = flags ∧ files[i]? = some (fileId, v) ∧
      m.files (objPath ta fileId) = some blob ∧
      objectOf P ta fileId objectId flags v blob = .ok ⟨ta, fileId, objectId, flags, data, v⟩
  | none => ∃ entries files dirBlob,
      m.files (dirPath ta) = some dirBlob ∧ dirOf P ta dirBlob = .ok (entries, files) ∧
      (entries.map fun e => e.objectId).Nodup ∧ (∀ e ∈ entries, e.objectId ≠ objectId) ∧
      entries.length + 1 < 2 ^ 32

/-- The client and the abstract object: the files hold the object, and each handle holds
its copy. -/
structure Refines (P : Platform ε MemFs) (ta : TaId) (objectId : Bytes) (fileId : FileId)
    (flags : UInt32) (c : Client ε MemFs) (a : SharedObject) : Prop where
  object : HoldsObject P ta objectId fileId flags c.store.fs a.stored
  copies : c.handles.map (fun h => h.data) = a.copies
  handles : ∀ h ∈ c.handles, h.ta = ta ∧ h.fileId = fileId ∧ h.objectId = objectId ∧
    h.flags = flags ∧ h.Storable

/-- A directory that comes back when it is stored, with each object listed once. -/
structure DirFits (entries : List ObjectMeta) (files : List FileRef) : Prop where
  length : entries.length = files.length
  count : entries.length < 2 ^ 32
  ids : ∀ e ∈ entries, e.objectId.length ≤ 255
  nodup : (entries.map fun e => e.objectId).Nodup

namespace DirFits

variable {entries : List ObjectMeta} {files : List FileRef} {e e' : ObjectMeta} {i : Nat}

theorem of_dirOf (hdir : dirOf P ta blob = .ok (entries, files))
    (hnodup : (entries.map fun e => e.objectId).Nodup) : DirFits entries files := by
  obtain ⟨pt, hparse⟩ := dirOf_eq_ok hdir
  obtain ⟨hlen, hcount, -, hids⟩ := parseDir_ok hparse
  exact ⟨hlen, hlen ▸ hcount, hids, hnodup⟩

theorem set (h : DirFits entries files) (he : entries[i]? = some e)
    (hid : e'.objectId = e.objectId) (f : FileRef) :
    DirFits (entries.set i e') (files.set i f) where
  length := by rw [length_set, length_set, h.length]
  count := by
    rw [length_set]
    exact h.count
  ids x hx := by
    rcases mem_or_eq_of_mem_set hx with hold | rfl
    · exact h.ids x hold
    · rw [hid]
      exact h.ids e (mem_of_getElem? he)
  nodup := by
    rw [ids_set he hid]
    exact h.nodup

theorem concat (h : DirFits entries files) (habsent : ∀ x ∈ entries, x.objectId ≠ e.objectId)
    (hcount : entries.length + 1 < 2 ^ 32) (hid : e.objectId.length ≤ 255) (f : FileRef) :
    DirFits (entries ++ [e]) (files ++ [f]) where
  length := by rw [length_append, length_append, h.length, length_singleton, length_singleton]
  count := by
    rw [length_append]
    exact hcount
  ids x hx := by
    rcases mem_append.mp hx with hold | hnew
    · exact h.ids x hold
    · rw [mem_singleton.mp hnew]
      exact hid
  nodup := by
    rw [map_append, nodup_append]
    refine ⟨h.nodup, by simp, ?_⟩
    intro id hmem id' hmem' heq
    obtain ⟨x, hx, rfl⟩ := mem_map.mp hmem
    rw [map_singleton, mem_singleton] at hmem'
    exact habsent x hx (heq.trans hmem')

theorem eraseIdx (h : DirFits entries files) (i : Nat) :
    DirFits (entries.eraseIdx i) (files.eraseIdx i) where
  length := by rw [length_eraseIdx, length_eraseIdx, h.length]
  count := Nat.lt_of_le_of_lt (length_eraseIdx_le entries i) h.count
  ids x hx := h.ids x (mem_of_mem_eraseIdx hx)
  nodup := h.nodup.sublist ((eraseIdx_sublist entries i).map _)

end DirFits

section Steps

variable (hfs : P.fs = memFs) (hinv : P.provider.Inverts) {ta : TaId} {objectId : Bytes}
  {fileId : FileId} {flags : UInt32}
include hfs

variable {s : ReeFs ε MemFs}

theorem open_holds {data : Bytes} (h : HoldsObject P ta objectId fileId flags s.fs (some data)) :
    ∃ v log, open_ P ta objectId s =
        (.ok ⟨ta, fileId, objectId, flags, data, v⟩, { s with log := log }) ∧
      ObjectHandle.Storable ⟨ta, fileId, objectId, flags, data, v⟩ := by
  obtain ⟨entries, files, dirBlob, blob, i, e, v, hdirFile, hdir, hids, he, heid, hflags, hf,
    hblob, hobject⟩ := h
  obtain ⟨log, hopen⟩ := open_eq (memDisk hfs) ta objectId s
  have hload : (memDisk hfs).dir P ta s.fs = .ok (entries, files) := by
    rw [dir_of_file hfs hdirFile, hdir]
  have hresult := open_mem hfs hload (findIdx_of_nodup hids he heid) he hf hblob
  rw [hflags, hobject, hopen] at hresult
  refine ⟨v, log, ?_, (storable_of_objectOf hobject).1⟩
  rw [hopen]
  exact Prod.ext hresult rfl

theorem open_holds_none (h : HoldsObject P ta objectId fileId flags s.fs none) :
    ∃ log, open_ P ta objectId s = (.err .notFound, { s with log := log }) := by
  obtain ⟨entries, files, dirBlob, hdirFile, hdir, hids, habsent, hcount⟩ := h
  obtain ⟨log, hopen⟩ := open_eq (memDisk hfs) ta objectId s
  have hload : (memDisk hfs).dir P ta s.fs = .ok (entries, files) := by
    rw [dir_of_file hfs hdirFile, hdir]
  have hresult := open_mem_missing hfs hload (findIdx_of_absent habsent)
  rw [hopen] at hresult
  refine ⟨log, ?_⟩
  rw [hopen]
  exact Prod.ext hresult rfl

include hinv

/-- Once the file of the object and a directory that lists it are written, the object is held. -/
theorem storeHandle_listed {s1 : ReeFs ε MemFs} (hwrite : writeObject P h s = (.ok (), s1))
    (hs1 : s1.fs = s.fs.insert (objPath h.ta h.fileId) blob)
    (hobject : objectOf P h.ta h.fileId h.objectId h.flags h.objVersion blob = .ok h)
    {log : List Event}
    (hupsert : upsertDir P h s1 = storeDirFull P h.ta entries files { s1 with log := log })
    (hfits : DirFits entries files) {e : ObjectMeta} (he : entries[i]? = some e)
    (heid : e.objectId = h.objectId) (heflags : e.flags = h.flags)
    (hf : files[i]? = some (h.fileId, h.objVersion)) :
    ∃ s', storeHandle P h s = (.ok (), s') ∧
      HoldsObject P h.ta h.objectId h.fileId h.flags s'.fs (some h.data) := by
  have hne : objPath h.ta h.fileId ≠ dirPath h.ta := objPath_ne_dirPath _ _ _
  obtain ⟨s', dirBlob, hput, hs', hdir⟩ := storeDirFull_mem hfs hinv h.ta hfits.length hfits.count
    hfits.ids { s1 with log := log }
  refine ⟨s', ?_, entries, files, dirBlob, blob, i, e, h.objVersion, ?_, hdir, hfits.nodup, he,
    heid, heflags, hf, ?_, hobject⟩
  · rw [storeHandle, bind_of_ok hwrite, hupsert, hput]
  · simp only [hs', MemFs.files_insert, if_true]
  · simp only [hs', hs1, MemFs.files_insert, if_neg hne, if_true]

theorem storeHandle_holds (hta : h.ta = ta) (hid : h.objectId = objectId)
    (hfile : h.fileId = fileId) (hflags : h.flags = flags) (hstore : h.Storable)
    (hobj : HoldsObject P ta objectId fileId flags s.fs stored) :
    ∃ s', storeHandle P h s = (.ok (), s') ∧
      HoldsObject P ta objectId fileId flags s'.fs (some h.data) := by
  subst hta hid hfile hflags
  obtain ⟨blob, entropy, log, hwrite, hdecode⟩ := writeObject_eq (memDisk hfs) h s
  let s1 : ReeFs ε MemFs := ⟨entropy, s.fs.insert (objPath h.ta h.fileId) blob, log⟩
  have hwrite1 : writeObject P h s = (.ok (), s1) := hwrite
  have hobject : objectOf P h.ta h.fileId h.objectId h.flags h.objVersion blob = .ok h := by
    rw [hdecode hinv hstore, if_pos rfl]
  -- the directory the object is listed in, as `upsert_dir` finds it
  have hdir1 : ∀ {entries files dirBlob}, s.fs.files (dirPath h.ta) = some dirBlob →
      dirOf P h.ta dirBlob = .ok (entries, files) →
      (memDisk hfs).dir P h.ta s1.fs = .ok (entries, files) := by
    intro entries files dirBlob hfile hdir
    have hne : dirPath h.ta ≠ objPath h.ta h.fileId := (objPath_ne_dirPath _ _ _).symm
    have hfile1 : s1.fs.files (dirPath h.ta) = some dirBlob := by
      simp only [s1, MemFs.files_insert, if_neg hne, hfile]
    rw [dir_of_file hfs hfile1, hdir]
  cases stored with
  | some =>
    obtain ⟨entries, files, dirBlob, -, i, e, v, hdirFile, hdir, hnodup, he, heid, -, hf, -, -⟩ :=
      hobj
    obtain ⟨hei, -⟩ := List.getElem?_eq_some_iff.mp he
    obtain ⟨hfi, -⟩ := List.getElem?_eq_some_iff.mp hf
    obtain ⟨log1, hupsert⟩ := upsertDir_found hfs (hdir1 hdirFile hdir)
      (findIdx_of_nodup hnodup he heid) he hfi
    refine storeHandle_listed hfs hinv hwrite1 rfl hobject hupsert ?_ (getElem?_set_self hei) heid
      rfl (getElem?_set_self hfi)
    refine (DirFits.of_dirOf hdir hnodup).set he ?_ _
    rfl
  | none =>
    obtain ⟨entries, files, dirBlob, hdirFile, hdir, hnodup, habsent, hcount⟩ := hobj
    obtain ⟨log1, hupsert⟩ := upsertDir_missing hfs (hdir1 hdirFile hdir)
      (findIdx_of_absent habsent)
    have hfits := DirFits.of_dirOf hdir hnodup
    refine storeHandle_listed hfs hinv hwrite1 rfl hobject hupsert
      (hfits.concat habsent hcount hstore.1 _) getElem?_concat_length rfl rfl ?_
    rw [hfits.length]
    exact getElem?_concat_length

/-- After `delete` the object is not listed. -/
theorem delete_holds (hobj : HoldsObject P ta objectId fileId flags s.fs stored) :
    HoldsObject P ta objectId fileId flags (delete P ta objectId s).2.fs none := by
  cases stored with
  | some =>
    obtain ⟨entries, files, dirBlob, -, i, e, v, hdirFile, hdir, hnodup, he, heid, -, hf, -, -⟩ :=
      hobj
    have hfits := DirFits.of_dirOf hdir hnodup
    have hcount := hfits.count
    obtain ⟨hei, -⟩ := List.getElem?_eq_some_iff.mp he
    have hload : (memDisk hfs).dir P ta s.fs = .ok (entries, files) := by
      rw [dir_of_file hfs hdirFile, hdir]
    obtain ⟨log, hdelete⟩ := delete_found hfs hload (findIdx_of_nodup hnodup he heid) hei hf
    have herase : (entries.eraseIdx i).length + 1 = entries.length := by
      rw [length_eraseIdx_of_lt hei]
      omega
    have hfits' := hfits.eraseIdx i
    obtain ⟨s', dirBlob', hput, hs', hdir'⟩ := storeDirFull_mem hfs hinv ta hfits'.length
      hfits'.count hfits'.ids ⟨s.entropy, s.fs.remove (objPath ta fileId), log⟩
    refine ⟨entries.eraseIdx i, files.eraseIdx i, dirBlob', ?_, hdir', hfits'.nodup,
      absent_of_eraseIdx hnodup he heid, by omega⟩
    rw [hdelete, hput]
    simp only [hs', MemFs.files_insert, if_true]
  | none =>
    obtain ⟨entries, files, dirBlob, hdirFile, hdir, hnodup, habsent, hcount⟩ := hobj
    have hload : (memDisk hfs).dir P ta s.fs = .ok (entries, files) := by
      rw [dir_of_file hfs hdirFile, hdir]
    obtain ⟨log, hdelete⟩ := delete_missing hfs hload (findIdx_of_absent habsent)
    rw [hdelete]
    exact ⟨entries, files, dirBlob, hdirFile, hdir, hnodup, habsent, hcount⟩

omit hfs hinv in
theorem length_splice (data : Bytes) (off : Nat) (buf : Bytes) :
    (splice data off buf).length = max data.length (off + buf.length) := by
  simp only [splice, length_append, length_take, length_drop]
  split
  · rw [length_resize]
    omega
  · omega

variable {c : Client ε MemFs} {a : SharedObject}

section

variable (href : Refines P ta objectId fileId flags c a)
include href

/-- An edit through a handle that the abstract object makes, too, on the copy. -/
theorem edit_refines {α : Type}
    {x : ObjectHandle → ReeFs ε MemFs → Fallible StorageError α × ObjectHandle × ReeFs ε MemFs}
    (edit : ObjectHandle → Fallible StorageError ObjectHandle) {f : Bytes → Option Bytes}
    (hx : ∀ h s, (x h s).2 = (through P h (edit h) s).2)
    (hsome : ∀ h data, f h.data = some data →
      edit h = .ok { h with data := data, objVersion := h.objVersion + 1 })
    (hnone : ∀ h, f h.data = none → ∀ h', edit h ≠ .ok h')
    (hsize : ∀ data data', f data = some data' → data'.length ≤ max data.length MAX_OBJECT)
    (i : Nat) (answer : α → Answer) :
    Refines P ta objectId fileId flags (c.edit i x answer).2 (a.edit i f) := by
  have hcopy : a.copies[i]? = c.handles[i]?.map fun h => h.data := by
    rw [← href.copies, getElem?_map]
  cases hget : c.handles[i]? with
  | none =>
    rw [hget, Option.map_none] at hcopy
    simp only [Client.edit, hget, SharedObject.edit, hcopy]
    exact href
  | some h =>
    rw [hget, Option.map_some] at hcopy
    obtain ⟨hta, hfile, hid, hflags, hstore⟩ := href.handles h (mem_of_getElem? hget)
    simp only [Client.edit, hget, SharedObject.edit, hcopy, hx]
    cases hf : f h.data with
    | none =>
      have hkeep : (through P h (edit h) c.store).2 = (h, c.store) := by
        cases hedit : edit h with
        | ok h' => exact absurd hedit (hnone h hf h')
        | err | panic => rfl
      have hset : c.handles.set i h = c.handles := by
        obtain ⟨hi, hgeti⟩ := List.getElem?_eq_some_iff.mp hget
        rw [← hgeti]
        exact set_getElem_self hi
      rw [hkeep, hset]
      exact href
    | some data =>
      have hfits : ObjectHandle.Storable
          { h with data := data, objVersion := h.objVersion + 1 } := by
        refine ⟨hstore.1, ?_⟩
        have hlen := hsize _ _ hf
        have hold := hstore.2
        have hidLen := hstore.1
        simp only [MAX_OBJECT] at hlen ⊢
        omega
      obtain ⟨s', hput, hobj⟩ := storeHandle_holds hfs hinv (h := { h with
        data := data, objVersion := h.objVersion + 1 }) hta hid hfile hflags hfits href.object
      have hthrough : (through P h (edit h) c.store).2 =
          ({ h with data := data, objVersion := h.objVersion + 1 }, s') := by
        rw [hsome h data hf]
        simp only [through, hput]
      rw [hthrough]
      refine ⟨hobj, ?_, ?_⟩
      · rw [map_set, href.copies]
      · intro h' hh'
        rcases mem_or_eq_of_mem_set hh' with hold | rfl
        · exact href.handles h' hold
        · exact ⟨hta, hfile, hid, hflags, hfits⟩

theorem serve_refines (u : Use) :
    Refines P ta objectId fileId flags (c.serve P (u.request ta objectId)).2 (a.use u) := by
  obtain ⟨stored, copies⟩ := a
  cases u with
  | open_ =>
    cases stored with
    | some =>
      obtain ⟨v, log, hopen, hfits⟩ := open_holds hfs href.object
      simp only [Use.request, serve, grant, hopen, SharedObject.use]
      refine ⟨href.object, ?_, ?_⟩
      · rw [map_append, href.copies]
        rfl
      · intro h hh
        rcases mem_append.mp hh with hold | hnew
        · exact href.handles h hold
        · rw [mem_singleton.mp hnew]
          exact ⟨rfl, rfl, rfl, rfl, hfits⟩
    | none =>
      obtain ⟨log, hopen⟩ := open_holds_none hfs href.object
      simp only [Use.request, serve, grant, hopen, SharedObject.use]
      exact ⟨href.object, href.copies, href.handles⟩
  | write i off buf =>
    apply edit_refines hfs hinv href (fun h => writeEdit P h off buf)
    · intro h s
      rfl
    · intro h data hf
      rw [writeCopy] at hf
      split at hf
      · rename_i hle
        cases hf
        exact writeEdit_of_le P h hle
      · cases hf
    · intro h hf h' hedit
      rw [writeCopy] at hf
      split at hf
      · cases hf
      · rename_i hgt
        rcases writeEdit_of_gt P h (Nat.lt_of_not_le hgt) with ⟨-, hbig⟩ | ⟨-, hpanic⟩
        · cases hbig.symm.trans hedit
        · cases hpanic.symm.trans hedit
    · intro data data' hf
      rw [writeCopy] at hf
      split at hf
      · cases hf
        rw [length_splice]
        omega
      · cases hf
  | truncate i size =>
    apply edit_refines hfs hinv href (fun h => truncateEdit h size)
    · intro h s
      rfl
    · intro h data hf
      rw [truncateCopy] at hf
      split at hf
      · rename_i hle
        cases hf
        exact if_neg (Nat.not_lt_of_le hle)
      · cases hf
    · intro h hf h' hedit
      rw [truncateCopy] at hf
      split at hf
      · cases hf
      · rename_i hgt
        rw [truncateEdit, if_pos (Nat.lt_of_not_le hgt)] at hedit
        cases hedit
    · intro data data' hf
      rw [truncateCopy] at hf
      split at hf
      · cases hf
        rw [length_resize]
        omega
      · cases hf
  | delete =>
    exact ⟨delete_holds hfs hinv href.object, href.copies, href.handles⟩

theorem run_refines (us : List Use) :
    Refines P ta objectId fileId flags (c.run P (us.map (Use.request ta objectId))) (a.run us) := by
  induction us generalizing c a with
  | nil => exact href
  | cons u us ih =>
    rw [map_cons, run, SharedObject.run]
    exact ih (serve_refines hfs hinv href u)

end

end Steps

theorem holds_of_open (hfs : P.fs = memFs) {s : ReeFs ε MemFs}
    (hdir : (memDisk hfs).dir P ta s.fs = .ok (entries, files))
    (hids : (entries.map fun e => e.objectId).Nodup) (hopen : (open_ P ta objectId s).1 = .ok h) :
    HoldsObject P ta objectId h.fileId h.flags s.fs (some h.data) := by
  obtain ⟨log, hrun⟩ := open_eq (memDisk hfs) ta objectId s
  obtain ⟨dirBlob, hdirFile, hdirOf⟩ : ∃ dirBlob, s.fs.files (dirPath ta) = some dirBlob ∧
      dirOf P ta dirBlob = .ok (entries, files) := by
    cases hfile : s.fs.files (dirPath ta) with
    | none =>
      simp only [dir, memDisk, hfile] at hdir
      cases hdir
    | some dirBlob =>
      rw [dir_of_file hfs hfile] at hdir
      exact ⟨dirBlob, rfl, hdir⟩
  rw [hrun, opened, hdir, ok_bind] at hopen
  cases hidx : entries.findIdx? (fun e => e.objectId = objectId) with
  | none =>
    simp only [hidx] at hopen
    cases hopen
  | some i =>
    simp only [hidx, ofOption, ok_bind] at hopen
    obtain ⟨f, hf, hopen⟩ := bind_eq_ok.mp hopen
    obtain ⟨blob, hblob, hopen⟩ := bind_eq_ok.mp hopen
    obtain ⟨e, he, hobject⟩ := bind_eq_ok.mp hopen
    have hfile : s.fs.files (objPath ta f.1) = some blob := by
      cases hget : s.fs.files (objPath ta f.1) with
      | none =>
        simp only [memDisk, hget] at hblob
        cases hblob
      | some =>
        simp only [memDisk, hget] at hblob
        cases hblob
        rfl
    obtain ⟨-, hh⟩ := storable_of_objectOf hobject
    have heid : e.objectId = objectId := objectId_of_findIdx hidx (getElem?_of_index he)
    rw [hh] at hobject ⊢
    exact ⟨entries, files, dirBlob, blob, i, e, f.2, hdirFile, hdirOf, hids, getElem?_of_index he,
      heid, rfl, getElem?_of_index hf, hfile, hobject⟩

theorem list_holds (hfs : P.fs = memFs) {fileId : FileId}
    {flags : UInt32} {s : ReeFs ε MemFs} (h : HoldsObject P ta objectId fileId flags s.fs stored) :
    ∃ listed, (list P ta s).1 = .ok listed ∧
      (objectId ∈ listed.map (fun e => e.objectId) ↔ stored ≠ none) := by
  obtain ⟨log, hlist⟩ := loadDir_eq (memDisk hfs) ta s
  rw [list, hlist]
  cases stored with
  | some =>
    obtain ⟨entries, files, dirBlob, -, i, e, v, hdirFile, hdir, -, he, heid, -⟩ := h
    rw [dir_of_file hfs hdirFile, hdir]
    refine ⟨entries, rfl, ?_⟩
    constructor
    · intro _ hnone
      cases hnone
    · intro _
      exact mem_map.mpr ⟨e, mem_of_getElem? he, heid⟩
  | none =>
    obtain ⟨entries, files, dirBlob, hdirFile, hdir, -, habsent, -⟩ := h
    rw [dir_of_file hfs hdirFile, hdir]
    refine ⟨entries, rfl, ?_⟩
    constructor
    · intro hmem
      obtain ⟨e, he, heid⟩ := mem_map.mp hmem
      exact absurd heid (habsent e he)
    · intro hsome
      exact absurd rfl hsome

/-- **Handles are private copies.**  Take any object that opens and any opens, writes,
truncations and deletes on it, through any handles. The handles hold the copies of
the abstract object; a later `open` returns what the last write published, and the
object is listed exactly when a write followed the last delete. -/
theorem handles_are_copies (hfs : P.fs = memFs) (hinv : P.provider.Inverts) {ta : TaId}
    {objectId : Bytes} {s : ReeFs ε MemFs} {entries : List ObjectMeta} {files : List FileRef}
    (hdir : (memDisk hfs).dir P ta s.fs = .ok (entries, files))
    (hids : (entries.map fun e => e.objectId).Nodup) {h : ObjectHandle}
    (hopen : (open_ P ta objectId s).1 = .ok h) (us : List Use) :
    let c := run P ⟨s, []⟩ (us.map (Use.request ta objectId))
    let a := SharedObject.run ⟨some h.data, []⟩ us
    c.handles.map (fun h => h.data) = a.copies ∧
      (∀ data, a.stored = some data →
        ∃ h', (open_ P ta objectId c.store).1 = .ok h' ∧ h'.data = data) ∧
      (a.stored = none → (open_ P ta objectId c.store).1 = .err .notFound) ∧
      ∃ listed, (list P ta c.store).1 = .ok listed ∧
        (objectId ∈ listed.map (fun e => e.objectId) ↔ a.stored ≠ none) := by
  intro c a
  have hstart : Refines P ta objectId h.fileId h.flags (⟨s, []⟩ : Client ε MemFs)
      ⟨some h.data, []⟩ := by
    refine ⟨holds_of_open hfs hdir hids hopen, rfl, ?_⟩
    intro h' hmem
    cases hmem
  have hend : Refines P ta objectId h.fileId h.flags c a := run_refines hfs hinv hstart us
  refine ⟨hend.copies, ?_, ?_, list_holds hfs hend.object⟩
  · intro data hstored
    have hobject := hend.object
    rw [hstored] at hobject
    obtain ⟨v, log, hlater, -⟩ := open_holds hfs hobject
    exact ⟨⟨ta, h.fileId, objectId, h.flags, data, v⟩, by rw [hlater], rfl⟩
  · intro hstored
    have hobject := hend.object
    rw [hstored] at hobject
    obtain ⟨log, hlater⟩ := open_holds_none hfs hobject
    rw [hlater]

def sampleStore : ReeFs UInt8 MemFs :=
  (create (samplePlatform memFs) sampleTa (ascii "a") 0 [0, 0] emptyStore).2

def sampleHandle : ObjectHandle :=
  ⟨sampleTa, (counter.fill 16 1).1, ascii "a", 0, [0, 0], 1⟩

/-- Two handles with a write through the first, then a delete and a write through the
second. -/
theorem handles_are_copies_sample :
    let c := run (samplePlatform memFs) ⟨sampleStore, []⟩
      (([.open_, .open_, .write 0 0 [1], .delete, .write 1 1 [2]] : List Use).map
        (Use.request sampleTa (ascii "a")))
    c.handles.map (fun h => h.data) = [[1, 0], [0, 2]] ∧
      (∃ h, (open_ (samplePlatform memFs) sampleTa (ascii "a") c.store).1 = .ok h ∧
        h.data = [0, 2]) := by
  have hopen : (open_ (samplePlatform memFs) sampleTa (ascii "a") sampleStore).1 =
      .ok sampleHandle := by
    decide +kernel
  have hdir : (memDisk (F := memFs) rfl).dir (samplePlatform memFs) sampleTa sampleStore.fs =
      .ok ([⟨ascii "a", 0, 2⟩], [((counter.fill 16 1).1, 1)]) := by
    decide +kernel
  have hcopies := handles_are_copies (P := samplePlatform memFs) rfl plainProvider_inverts hdir
    (by decide) hopen [.open_, .open_, .write 0 0 [1], .delete, .write 1 1 [2]]
  exact ⟨hcopies.1, hcopies.2.1 [0, 2] rfl⟩

/-- Two handles and a write through each, to different bytes: the first write is gone.
And an object that was deleted is listed again by a write through an old handle. -/
theorem second_handle_undoes_first :
    let after := fun us : List Use => (run (samplePlatform memFs) ⟨sampleStore, []⟩
      (us.map (Use.request sampleTa (ascii "a")))).store
    (open_ (samplePlatform memFs) sampleTa (ascii "a")
        (after [.open_, .open_, .write 0 0 [1], .write 1 1 [2]])).1 =
      .ok { sampleHandle with data := [0, 2], objVersion := 2 } ∧
    (list (samplePlatform memFs) sampleTa (after [.open_, .delete])).1 = .ok [] ∧
    (list (samplePlatform memFs) sampleTa (after [.open_, .delete, .write 0 0 [1]])).1 =
      .ok [⟨ascii "a", 0, 2⟩] := by
  decide +kernel

end Rustee.Storage
