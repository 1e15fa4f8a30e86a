import Rustee.StorageEffects

/-!
# Creating an object, and what it does to the objects there are

The directory keeps the metadata and the pairs of file id and version in two vectors. `create`
appends to the first and lets `store_dir` merge the new pair into the second *from the front*, so
it lands on the first object there is.
-/

namespace Rustee.Storage

open List

variable {ε : Type} {P : Platform ε MemFs}

/-- A consistent store: the directory authenticates, its ids and its file ids are
pairwise distinct, and the object file of each entry decrypts under the listed file
id and version to the listed id. -/
structure Consistent (P : Platform ε MemFs) (ta : TaId) (m : MemFs) (entries : List ObjectMeta)
    (files : List FileRef) : Prop where
  directory : ∃ blob, m.files (dirPath ta) = some blob ∧ dirOf P ta blob = .ok (entries, files)
  distinctIds : (entries.map fun e => e.objectId).Nodup
  shortIds : ∀ e ∈ entries, e.objectId.length ≤ 255
  distinctFiles : (files.map Prod.fst).Nodup
  objects : ∀ (i : Nat) (e : ObjectMeta) (f : FileRef), entries[i]? = some e → files[i]? = some f →
    ∃ blob h, m.files (objPath ta f.1) = some blob ∧
      objectOf P ta f.1 e.objectId e.flags f.2 blob = .ok h

/-- `create` did no harm: it returned a handle, the store is consistent again, the new
id opens to the data and the flags given, and every object listed before opens to
what it opened to before. -/
def CreatesSafely (P : Platform ε MemFs) (ta : TaId) (objectId : Bytes) (flags : UInt32)
    (data : Bytes) (listed : List ObjectMeta) (s : ReeFs ε MemFs) : Prop :=
  ∃ h s', create P ta objectId flags data s = (.ok h, s') ∧
    (∃ entries files, Consistent P ta s'.fs entries files) ∧
    (∃ h', (open_ P ta objectId s').1 = .ok h' ∧ h'.data = data ∧ h'.flags = flags) ∧
    ∀ e ∈ listed, (open_ P ta e.objectId s').1 = (open_ P ta e.objectId s).1

theorem findIdx_head (e : ObjectMeta) (entries : List ObjectMeta) :
    (e :: entries).findIdx? (fun e' => e'.objectId = e.objectId) = some 0 := by
  simp [findIdx?_cons]

section Create

variable (hfs : P.fs = memFs)
include hfs

variable {m : MemFs} {ta : TaId}

theorem dir_of_file {blob : Bytes}
    (h : m.files (dirPath ta) = some blob) : (memDisk hfs).dir P ta m = dirOf P ta blob := by
  simp only [Disk.dir, memDisk, h]

variable {files : List FileRef} {entries : List ObjectMeta}

theorem dir_of_consistent (h : Consistent P ta m entries files) :
    (memDisk hfs).dir P ta m = .ok (entries, files) := by
  obtain ⟨blob, hblob, hdir⟩ := h.directory
  rw [dir_of_file hfs hblob, hdir]

theorem dirOrEmpty_insert (ta : TaId) (f : FileId) (m : MemFs) (blob : Bytes) :
    (memDisk hfs).dirOrEmpty P ta (m.insert (objPath ta f) blob) =
      (memDisk hfs).dirOrEmpty P ta m := by
  have hne : dirPath ta ≠ objPath ta f := (objPath_ne_dirPath ta ta f).symm
  simp only [Disk.dirOrEmpty, Disk.loaded, Disk.dir, memDisk, MemFs.files_insert, if_neg hne]

variable {data objectId : Bytes}

/-- `create` on `MemFs`: two files are written. The object file decodes to the object,
the directory to the old entries and the new one, with the new pair merged into the
old pairs. -/
theorem create_mem (flags : UInt32) (hinv : P.provider.Inverts)
    (hid : objectId.length ≤ 64) (hdata : data.length ≤ MAX_OBJECT) (s : ReeFs ε MemFs)
    (hdir : (memDisk hfs).dirOrEmpty P ta s.fs = (entries, files))
    (hshort : ∀ e ∈ entries, e.objectId.length ≤ 255)
    (hnew : ∀ e ∈ entries, e.objectId ≠ objectId) :
    ∃ fileId s' blob dirBlob,
      create P ta objectId flags data s = (.ok ⟨ta, fileId, objectId, flags, data, 1⟩, s') ∧
      s'.fs = (s.fs.insert (objPath ta fileId) blob).insert (dirPath ta) dirBlob ∧
      (∀ objectId' flags', objectOf P ta fileId objectId' flags' 1 blob =
        if objectId = objectId' then .ok ⟨ta, fileId, objectId, flags', data, 1⟩
        else .err .corrupt) ∧
      dirOf P ta dirBlob = .ok ((listing (entries ++ [⟨objectId, flags, UInt64.ofNat data.length⟩])
        (mergeExtra files [(fileId, 1)])).take ((entries.length + 1) % 2 ^ 32)).unzip := by
  obtain ⟨log, hcreate⟩ := create_eq (memDisk hfs) flags hdata s (by rw [hdir]; exact hnew)
  let h : ObjectHandle := ⟨ta, (P.entropy.fill 16 s.entropy).1, objectId, flags, data, 1⟩
  obtain ⟨blob, entropy1, log1, hobject, hdecode⟩ := writeObject_eq (memDisk hfs) h
    ⟨(P.entropy.fill 16 s.entropy).2, s.fs, log⟩
  let s1 : ReeFs ε MemFs := ⟨entropy1, s.fs.insert (objPath ta h.fileId) blob, log1⟩
  obtain ⟨log2, hstore⟩ := storeDir_eq (memDisk hfs) ta
    (entries ++ [⟨objectId, flags, UInt64.ofNat data.length⟩]) [(h.fileId, 1)] s1
  obtain ⟨dirBlob, entropy3, log3, hdirectory, hdecodeDir⟩ := storeDirFull_eq (memDisk hfs) ta
    (entries ++ [⟨objectId, flags, UInt64.ofNat data.length⟩])
    (mergeExtra ((memDisk hfs).dirOrEmpty P ta s1.fs).2 [(h.fileId, 1)]) { s1 with log := log2 }
  refine ⟨h.fileId, ⟨entropy3, s1.fs.insert (dirPath ta) dirBlob, log3⟩, blob, dirBlob, ?_, rfl,
    ?_, ?_⟩
  · rw [hcreate, createAs, Attempt.bind_of_ok hobject, hdir]
    rw [Attempt.bind_of_ok (hstore.trans hdirectory)]
    rfl
  · apply hdecode hinv
    constructor
    · show objectId.length ≤ 255
      omega
    · show 145 + objectId.length + data.length < 2 ^ 64
      rw [MAX_OBJECT] at hdata
      omega
  · have hids : ∀ e ∈ entries ++ [⟨objectId, flags, UInt64.ofNat data.length⟩],
        e.objectId.length ≤ 255 := by
      intro e he
      rcases mem_append.mp he with he | he
      · exact hshort e he
      · cases mem_singleton.mp he
        show objectId.length ≤ 255
        omega
    have hsame : ((memDisk hfs).dirOrEmpty P ta s1.fs).2 = files := by
      rw [dirOrEmpty_insert hfs, hdir]
    rw [hdecodeDir hinv hids, hsame, length_append]
    rfl

/-- `open` on `MemFs`, for an id that the directory lists at place `i`. -/
theorem open_mem {blob : Bytes} {i : Nat} {e : ObjectMeta} {f : FileRef} {s : ReeFs ε MemFs}
    (hdir : (memDisk hfs).dir P ta s.fs = .ok (entries, files))
    (hidx : entries.findIdx? (fun e => e.objectId = objectId) = some i)
    (he : entries[i]? = some e) (hf : files[i]? = some f)
    (hblob : s.fs.files (objPath ta f.1) = some blob) :
    (open_ P ta objectId s).1 = objectOf P ta f.1 objectId e.flags f.2 blob := by
  obtain ⟨log, hopen⟩ := open_eq (memDisk hfs) ta objectId s
  have hget : (memDisk hfs).get s.fs (objPath ta f.1) = .ok blob := by
    simp only [memDisk, hblob]
  rw [hopen, Disk.opened, hdir]
  simp only [Fallible.ok_bind, hidx, Fallible.ofOption, index_eq_ok he, index_eq_ok hf, hget,
    Fallible.ofExcept, Fallible.mapErr]

theorem open_mem_missing {s : ReeFs ε MemFs}
    (hdir : (memDisk hfs).dir P ta s.fs = .ok (entries, files))
    (hidx : entries.findIdx? (fun e => e.objectId = objectId) = none) :
    (open_ P ta objectId s).1 = .err .notFound := by
  obtain ⟨log, hopen⟩ := open_eq (memDisk hfs) ta objectId s
  rw [hopen, Disk.opened, hdir]
  simp only [Fallible.ok_bind, hidx, Fallible.ofOption, Fallible.err_bind]

section

variable (flags : UInt32) (hinv : P.provider.Inverts) (hid : objectId.length ≤ 64)
  (hdata : data.length ≤ MAX_OBJECT) (s : ReeFs ε MemFs)
include flags hinv hid hdata s

theorem createsSafely_first (hdir : (memDisk hfs).dirOrEmpty P ta s.fs = ([], [])) :
    CreatesSafely P ta objectId flags data [] s := by
  obtain ⟨fileId, s', blob, dirBlob, hcreate, hfiles, hobject, hdirOf⟩ :=
    create_mem hfs flags hinv hid hdata s hdir (by simp) (by simp)
  let e : ObjectMeta := ⟨objectId, flags, UInt64.ofNat data.length⟩
  replace hdirOf : dirOf P ta dirBlob = .ok ([e], [(fileId, 1)]) := hdirOf
  have hdirFile : s'.fs.files (dirPath ta) = some dirBlob := by simp [hfiles]
  have hobjFile : s'.fs.files (objPath ta fileId) = some blob := by
    simp [hfiles, objPath_ne_dirPath]
  have hload : (memDisk hfs).dir P ta s'.fs = .ok ([e], [(fileId, 1)]) := by
    rw [dir_of_file hfs hdirFile, hdirOf]
  have hidx : [e].findIdx? (fun e => e.objectId = objectId) = some 0 := by simp [e]
  refine ⟨_, s', hcreate, ⟨[e], [(fileId, 1)], ?_⟩, ?_, by simp⟩
  · constructor
    · exact ⟨dirBlob, hdirFile, hdirOf⟩
    · simp
    · intro e' he'
      cases mem_singleton.mp he'
      show objectId.length ≤ 255
      omega
    · simp
    · intro i e' f he' hf
      cases i with
      | zero =>
        cases he'
        cases hf
        exact ⟨blob, ⟨ta, fileId, objectId, flags, data, 1⟩, hobjFile, by rw [hobject, if_pos rfl]⟩
      | succ => simp at he'
  · refine ⟨⟨ta, fileId, objectId, flags, data, 1⟩, ?_, rfl, rfl⟩
    rw [open_mem hfs hload hidx rfl rfl hobjFile, hobject, if_pos rfl]

theorem first_lost_of_create {e : ObjectMeta} {f : FileRef}
    (hcons : Consistent P ta s.fs (e :: entries) (f :: files))
    (hnew : ∀ e' ∈ e :: entries, e'.objectId ≠ objectId) {h : ObjectHandle} {s' : ReeFs ε MemFs}
    (hcreate : create P ta objectId flags data s = (.ok h, s')) (h' : ObjectHandle) :
    (open_ P ta e.objectId s').1 ≠ .ok h' := by
  have hdir : (memDisk hfs).dirOrEmpty P ta s.fs = (e :: entries, f :: files) := by
    simp only [Disk.dirOrEmpty, Disk.loaded, dir_of_consistent hfs hcons, Option.getD_some]
  obtain ⟨fileId, s1, blob, dirBlob, hcreate', hfiles, hobject, hdirOf⟩ :=
    create_mem hfs flags hinv hid hdata s hdir hcons.shortIds hnew
  obtain ⟨-, rfl⟩ := Prod.mk.inj (hcreate.symm.trans hcreate')
  have hdirFile : s'.fs.files (dirPath ta) = some dirBlob := by simp [hfiles]
  have hobjFile : s'.fs.files (objPath ta fileId) = some blob := by
    simp [hfiles, objPath_ne_dirPath]
  -- the new pair took the place of the pair of `e`
  obtain ⟨tail, hlisting⟩ : ∃ tail,
      listing ((e :: entries) ++ [⟨objectId, flags, UInt64.ofNat data.length⟩])
        (mergeExtra (f :: files) [(fileId, 1)]) = (e, (fileId, 1)) :: tail := ⟨_, rfl⟩
  rw [hlisting] at hdirOf
  rw [← dir_of_file hfs hdirFile] at hdirOf
  cases hcount : ((e :: entries).length + 1) % 2 ^ 32 with
  | zero =>
    rw [hcount] at hdirOf
    rw [open_mem_missing hfs hdirOf rfl]
    intro heq
    cases heq
  | succ n =>
    rw [hcount, take_succ_cons, unzip_cons] at hdirOf
    have hidx := findIdx_head e (tail.take n).unzip.1
    rw [open_mem hfs hdirOf hidx rfl rfl hobjFile, hobject, if_neg (hnew e mem_cons_self).symm]
    intro heq
    cases heq

end

/-- The directory of a consistent store, or the empty one where there is none. -/
theorem dirOrEmpty_of_store (h : Consistent P ta m entries files ∨
      (m.files (dirPath ta) = none ∧ entries = [] ∧ files = [])) :
    (memDisk hfs).dirOrEmpty P ta m = (entries, files) := by
  rcases h with h | ⟨habsent, rfl, rfl⟩
  · simp only [Disk.dirOrEmpty, Disk.loaded, dir_of_consistent hfs h, Option.getD_some]
  · simp only [Disk.dirOrEmpty, Disk.loaded, Disk.dir, memDisk, habsent, Option.getD_none]

end Create

theorem Consistent.parallel {ta : TaId} {m : MemFs} {entries : List ObjectMeta}
    {files : List FileRef} (h : Consistent P ta m entries files) :
    entries.length = files.length := by
  obtain ⟨blob, -, hdir⟩ := h.directory
  obtain ⟨pt, hparse⟩ := dirOf_eq_ok hdir
  exact (parseDir_ok hparse).1

/-- **Creating an object harms no other exactly when there is no other.** -/
theorem create_safe_iff_first (hfs : P.fs = memFs) (hinv : P.provider.Inverts) {ta : TaId}
    {entries : List ObjectMeta} {files : List FileRef} {s : ReeFs ε MemFs}
    (hstore : Consistent P ta s.fs entries files ∨
      (s.fs.files (dirPath ta) = none ∧ entries = [] ∧ files = []))
    {objectId : Bytes} (hnew : ∀ e ∈ entries, e.objectId ≠ objectId)
    (hid : objectId.length ≤ 64) (flags : UInt32) {data : Bytes}
    (hdata : data.length ≤ MAX_OBJECT) :
    CreatesSafely P ta objectId flags data entries s ↔ entries = [] := by
  constructor
  · rintro ⟨h, s', hcreate, -, -, hothers⟩
    rcases hstore with hcons | ⟨-, hempty, -⟩
    · cases hentries : entries with
      | nil => rfl
      | cons e entries' =>
        exfalso
        subst hentries
        have hparallel := hcons.parallel
        cases hfiles : files with
        | nil => simp [hfiles] at hparallel
        | cons f =>
          subst hfiles
          -- before, `e` opened; after, it does not
          obtain ⟨blob, h₀, hblob, hobject⟩ := hcons.objects 0 e f rfl rfl
          have hidx := findIdx_head e entries'
          have hbefore : (open_ P ta e.objectId s).1 = .ok h₀ := by
            rw [open_mem hfs (dir_of_consistent hfs hcons) hidx rfl rfl hblob, hobject]
          have hafter := hothers e mem_cons_self
          rw [hbefore] at hafter
          exact first_lost_of_create hfs flags hinv hid hdata s hcons hnew hcreate h₀ hafter
    · exact hempty
  · rintro rfl
    have hdir := dirOrEmpty_of_store hfs hstore
    have hfiles : files = [] := by
      rcases hstore with hcons | ⟨-, -, hfiles⟩
      · exact length_eq_zero_iff.mp hcons.parallel.symm
      · exact hfiles
    subst hfiles
    exact createsSafely_first hfs flags hinv hid hdata s hdir

/-- The first object of an empty store. -/
theorem create_safe_empty_store :
    CreatesSafely (samplePlatform memFs) sampleTa (ascii "a") 0 [1, 2, 3] [] emptyStore :=
  (create_safe_iff_first rfl plainProvider_inverts (Or.inr ⟨rfl, rfl, rfl⟩) (by simp)
    (by decide) 0 (by decide)).mpr rfl

/-- A second object is created, and the first is corrupt from then on. -/
theorem second_create_corrupts_first :
    let s := (create (samplePlatform memFs) sampleTa (ascii "a") 0 [1, 2, 3] emptyStore).2
    let r := create (samplePlatform memFs) sampleTa (ascii "b") 0 [4] s
    (∃ entries files, Consistent (samplePlatform memFs) sampleTa s.fs entries files) ∧
    (open_ (samplePlatform memFs) sampleTa (ascii "a") s).1 =
      .ok ⟨sampleTa, (counter.fill 16 1).1, ascii "a", 0, [1, 2, 3], 1⟩ ∧
    r.1 = .ok ⟨sampleTa, (counter.fill 16 85).1, ascii "b", 0, [4], 1⟩ ∧
    (open_ (samplePlatform memFs) sampleTa (ascii "a") r.2).1 = .err .corrupt := by
  have hfirst : CreatesSafely (samplePlatform memFs) sampleTa (ascii "a") 0 [1, 2, 3] []
      emptyStore :=
    createsSafely_first rfl 0 plainProvider_inverts (by decide) (by decide) emptyStore rfl
  obtain ⟨h, s, hcreate, hcons, -⟩ := hfirst
  refine ⟨by rw [hcreate]; exact hcons, ?_, ?_, ?_⟩
  · decide +kernel
  · decide +kernel
  · decide +kernel

end Rustee.Storage
