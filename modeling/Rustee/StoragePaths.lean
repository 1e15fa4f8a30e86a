import Rustee.HostSupplicant
import Rustee.StorageWalk

/-!
# Which files of the REE a trusted application's store touches

Every path `ReeFs` hands to the file system is built from the 32 hex digits of the uuid. The file
system below keeps the paths it is given and is otherwise any file system. The supplicant filters
the names before it joins them to its root; those of the store pass, and stay below the root.
-/

namespace Rustee

open List

/-! ### The supplicant's filter -/

namespace Supplicant

open Storage (Path)

/-- `'/'` -/
def SLASH : UInt8 := 47

/-- `name.contains("..")` -/
def containsDots : Path → Bool
  | [] => false
  | a :: rest => (a == 46 && rest.head? == some 46) || containsDots rest

/-- `Path::join`: an absolute name replaces the root. -/
def joinPath (root name : Path) : Path :=
  if name.head? = some SLASH then name
  else if root = [] ∨ root.getLast? = some SLASH then root ++ name
  else root ++ SLASH :: name

def safe (root name : Path) : Except SuppError Path :=
  if containsDots name ∨ name.head? = some SLASH then .error .badCmd
  else .ok (joinPath root name)

/-- A name of a file or a directory: no separator, and none of the names that mean the
directory itself or its parent. -/
def Plain (name : Path) : Prop :=
  name ≠ [] ∧ name ≠ ascii "." ∧ name ≠ ascii ".." ∧ SLASH ∉ name

instance (name : Path) : Decidable (Plain name) :=
  inferInstanceAs (Decidable (_ ∧ _ ∧ _ ∧ _))

def Below (root path : Path) : Prop :=
  ∃ names : List Path, names ≠ [] ∧ (∀ name ∈ names, Plain name) ∧ path = names.foldl joinPath root

theorem Plain.head {name : Path} (h : Plain name) : name.head? ≠ some SLASH := by
  intro hhead
  exact h.2.2.2 (mem_of_mem_head? hhead)

theorem Plain.getLast {name : Path} (h : Plain name) : name.getLast? ≠ some SLASH := by
  intro hlast
  exact h.2.2.2 (mem_of_mem_getLast? hlast)

theorem joinPath_append (root : Path) {a b : Path} (ha : Plain a) (hb : b.head? ≠ some SLASH) :
    joinPath root (a ++ SLASH :: b) = joinPath (joinPath root a) b := by
  have hane := ha.1
  have hlast : ∀ front : Path, (front ++ a).getLast? ≠ some SLASH := by
    intro front
    rw [getLast?_append_of_ne_nil _ hane]
    exact ha.getLast
  have hhead : (a ++ SLASH :: b).head? ≠ some SLASH := by
    rw [head?_append_of_ne_nil _ hane]
    exact ha.head
  have hjoin : ∀ front : Path, joinPath (front ++ a) b = front ++ a ++ SLASH :: b := by
    intro front
    rw [joinPath, if_neg hb, if_neg]
    rintro (hnil | hslash)
    · exact hane (append_eq_nil_iff.mp hnil).2
    · exact hlast front hslash
  simp only [joinPath.eq_1 root, if_neg hhead, if_neg ha.head]
  split
  · rw [hjoin, append_assoc]
  · rw [append_cons root SLASH a, hjoin]
    simp

theorem containsDots_append {a : Path} (ha : (46 : UInt8) ∉ a) (b : Path) :
    containsDots (a ++ b) = containsDots b := by
  induction a with
  | nil => rfl
  | cons x a ih =>
    have hx : (x == 46) = false := by
      rw [beq_eq_false_iff_ne]
      rintro rfl
      exact ha mem_cons_self
    rw [cons_append, containsDots, hx, Bool.false_and, Bool.false_or]
    exact ih fun hmem => ha (mem_cons_of_mem _ hmem)

end Supplicant

namespace Storage

open Supplicant

/-! ### The paths of a trusted application -/

def InDir (ta : TaId) (path : Path) : Prop :=
  path = taHex ta ∨ ∃ rest, path = taHex ta ++ SLASH :: rest

/-- The paths `ReeFs` builds. -/
inductive TaPath (ta : TaId) : Path → Prop
  | root : TaPath ta (taHex ta)
  | objects : TaPath ta (taHex ta ++ ascii "/obj")
  | directory : TaPath ta (dirPath ta)
  | object (fileId : FileId) : TaPath ta (objPath ta fileId)

variable {path : Path} {ta : TaId}

theorem TaPath.inDir (h : TaPath ta path) : InDir ta path := by
  cases h with
  | root => exact .inl rfl
  | objects => exact .inr ⟨ascii "obj", rfl⟩
  | directory => exact .inr ⟨ascii "dir.v1", rfl⟩
  | object fileId =>
    refine .inr ⟨ascii "obj/" ++ hex32 fileId, ?_⟩
    rw [objPath, append_assoc]
    rfl

theorem InDir.unique {t u : TaId} (ht : InDir t path) (hu : InDir u path) : t = u := by
  obtain ⟨rest, hrest⟩ : ∃ rest, path = taHex t ++ rest := by
    rcases ht with rfl | ⟨rest, rfl⟩
    · exact ⟨[], by simp⟩
    · exact ⟨_, rfl⟩
  obtain ⟨rest', hrest'⟩ : ∃ rest, path = taHex u ++ rest := by
    rcases hu with rfl | ⟨rest, rfl⟩
    · exact ⟨[], by simp⟩
    · exact ⟨_, rfl⟩
  have hsame : taHex t = taHex u := (append_inj (hrest.symm.trans hrest') (by simp [taHex])).1
  exact hex32_injective hsame

theorem hexDigit_mem {n : UInt8} (h : n.toNat < 16) : hexDigit n ∈ ascii "0123456789abcdef" := by
  have hlen : n.toNat < (ascii "0123456789abcdef").length := h
  rw [hexDigit, getD_eq_getElem?_getD, getElem?_eq_getElem hlen]
  exact getElem_mem hlen

theorem mem_hex32 {b : Block 16} {x : UInt8} (h : x ∈ hex32 b) : x ∈ ascii "0123456789abcdef" := by
  obtain ⟨y, -, hy⟩ := mem_flatMap.mp h
  have hhigh : (y >>> 4).toNat < 16 := by
    rw [UInt8.toNat_shiftRight, Nat.shiftRight_eq_div_pow]
    exact Nat.div_lt_of_lt_mul y.toNat_lt
  have hlow : (y &&& 0xf).toNat < 16 := by
    rw [UInt8.toNat_and]
    exact Nat.lt_succ_of_le Nat.and_le_right
  rcases mem_pair.mp hy with rfl | rfl
  · exact hexDigit_mem hhigh
  · exact hexDigit_mem hlow

theorem plain_hex32 (b : Block 16) : Plain (hex32 b) := by
  have hlen := length_hex32 b
  refine ⟨?_, ?_, ?_, ?_⟩
  · intro h
    rw [h] at hlen
    cases hlen
  · intro h
    rw [h] at hlen
    cases hlen
  · intro h
    rw [h] at hlen
    cases hlen
  · intro h
    exact absurd (mem_hex32 h) (by decide)

theorem dot_not_mem_hex32 (b : Block 16) : (46 : UInt8) ∉ hex32 b := by
  intro h
  exact absurd (mem_hex32 h) (by decide)

theorem TaPath.names (h : TaPath ta path) :
    ∃ names, names ≠ [] ∧ (∀ name ∈ names, Plain name) ∧
      (∀ root, joinPath root path = names.foldl joinPath root) ∧ containsDots path = false := by
  have hta : Plain (taHex ta) := plain_hex32 ta
  have hdots : ∀ rest, containsDots (taHex ta ++ rest) = containsDots rest :=
    containsDots_append (dot_not_mem_hex32 ta)
  have hobj : Plain (ascii "obj") := by decide
  cases h with
  | root =>
    refine ⟨[taHex ta], by simp, by simpa using hta, fun _ => rfl, ?_⟩
    have hnone := hdots []
    rw [append_nil] at hnone
    exact hnone
  | objects =>
    refine ⟨[taHex ta, ascii "obj"], by simp, ?_, ?_, hdots _⟩
    · simp [hta, hobj]
    · intro root
      exact joinPath_append root hta hobj.head
  | directory =>
    have hdir : Plain (ascii "dir.v1") := by decide
    refine ⟨[taHex ta, ascii "dir.v1"], by simp, ?_, ?_, hdots _⟩
    · simp [hta, hdir]
    · intro root
      exact joinPath_append root hta hdir.head
  | object fileId =>
    have hfile := plain_hex32 fileId
    have hpath : objPath ta fileId =
        taHex ta ++ SLASH :: (ascii "obj" ++ SLASH :: hex32 fileId) := by
      rw [objPath, append_assoc]
      rfl
    rw [hpath]
    refine ⟨[taHex ta, ascii "obj", hex32 fileId], by simp, ?_, ?_, ?_⟩
    · simp [hta, hobj, hfile]
    · intro root
      rw [joinPath_append root hta (by simp [ascii, SLASH]), joinPath_append _ hobj hfile.head]
      rfl
    · have hnone := containsDots_append (dot_not_mem_hex32 fileId) []
      rw [append_nil] at hnone
      refine (hdots _).trans ?_
      rw [← cons_append, containsDots_append (by decide)]
      exact hnone

/-- The supplicant takes the names of the store, and they stay below its root. -/
theorem TaPath.safe (h : TaPath ta path) (root : Path) :
    ∃ full, Supplicant.safe root path = .ok full ∧ Below root full := by
  obtain ⟨names, hne, hplain, hjoin, hdots⟩ := h.names
  have hrel : path.head? ≠ some SLASH := by
    intro hhead
    have hta : Plain (taHex ta) := plain_hex32 ta
    rcases h.inDir with rfl | ⟨rest, rfl⟩
    · exact hta.head hhead
    · rw [head?_append_of_ne_nil _ hta.1] at hhead
      exact hta.head hhead
  refine ⟨joinPath root path, ?_, names, hne, hplain, hjoin root⟩
  rw [Supplicant.safe, if_neg]
  rintro (hbad | hbad)
  · rw [hdots] at hbad
    cases hbad
  · exact hrel hbad

/-! ### A file system that keeps the paths it is given -/

variable {ε φ α : Type}

def recording (path : Path) (x : Attempt φ StorageError α) :
    Attempt (φ × List Path) StorageError α := fun s =>
  ((x s.1).1, (x s.1).2, path :: s.2)

def watching (F : FsRpc φ) : FsRpc (φ × List Path) where
  create := fun path data => recording path (F.create path data)
  read := fun path => recording path (F.read path)
  write := fun path data => recording path (F.write path data)
  delete := fun path => recording path (F.delete path)
  mkdir := fun path => recording path (F.mkdir path)

def Platform.watched (P : Platform ε φ) : Platform ε (φ × List Path) :=
  ⟨P.build, P.provider, P.huk, P.entropy, watching P.fs⟩

def pathsFrame (ta : TaId) : Frame (ReeFs ε (φ × List Path)) where
  rel := fun s s' => (∀ path ∈ s.fs.2, TaPath ta path) → ∀ path ∈ s'.fs.2, TaPath ta path
  refl := fun _ h => h
  trans := fun h h' hs => h' (h hs)

section Walk

variable {ta : TaId} {P : Platform ε φ}

theorem keeps_recording {path : Path} (hpath : TaPath ta path) (x : Attempt φ StorageError α) :
    Attempt.Keeps (pathsFrame ta) (onFs (recording path x) : StoreM ε (φ × List Path) α) := by
  intro s hs p hp
  rcases mem_cons.mp hp with rfl | hold
  · exact hpath
  · exact hs p hold

theorem keeps_putFile {path : Path} (hpath : TaPath ta path) (blob : Bytes) :
    Attempt.Keeps (pathsFrame ta) (putFile P.watched path blob) :=
  (keeps_recording hpath _).orElse (keeps_recording hpath _)

theorem keeps_drawing (n : Nat) : Attempt.Keeps (pathsFrame ta) (fill P.watched n) := fun _ h => h

theorem keeps_computing (x : CipherM α) :
    Attempt.Keeps (pathsFrame ta) (onLog x : StoreM ε (φ × List Path) α) := fun _ h => h

theorem keeps_writeObject {h : ObjectHandle} (hta : h.ta = ta) :
    Attempt.Keeps (pathsFrame ta) (writeObject P.watched h) := by
  subst hta
  apply (keeps_drawing 32).bind
  intro fek
  apply (keeps_drawing 12).bind
  intro wrapNonce
  apply (keeps_drawing 12).bind
  intro bodyNonce
  apply (keeps_computing _).bind
  intro _
  apply (keeps_computing _).bind
  intro wrapped
  apply (keeps_computing _).bind
  intro body
  exact keeps_putFile (.object h.fileId) _

theorem keeps_storeDirFull (entries : List ObjectMeta) (files : List FileRef) :
    Attempt.Keeps (pathsFrame ta) (storeDirFull P.watched ta entries files) := by
  apply (keeps_drawing 12).bind
  intro nonce
  apply (keeps_computing _).bind
  intro _
  apply (keeps_computing _).bind
  intro sealed
  exact keeps_putFile .directory _

theorem paths_walk : Walk P.watched (keepsOf (pathsFrame ta)) ta fun _ => True where
  toParts := by
    apply parts_of_keeps (fun _ _ => trivial) (fun f => keeps_recording (.object f) _)
    · apply (keeps_recording .directory _).mapErr.bind
      intro blob
      exact keeps_computing _
    · intro entries files _
      exact keeps_storeDirFull entries files
  fill := keeps_drawing 16
  mkdir := by
    rintro path (rfl | rfl)
    · exact keeps_recording .root _
    · exact keeps_recording .objects _
  object := fun h hta _ => keeps_writeObject hta

theorem paths_open (objectId : Bytes) :
    Attempt.Keeps (pathsFrame ta) (open_ P.watched ta objectId) :=
  paths_walk.open_ (fun f => (keeps_recording (.object f) _).mapErr)
    (fun _ _ _ _ _ => keeps_computing _) objectId

end Walk

/-- **The store of a trusted application stays in its directory.**  Over any file system,
whatever it answers, after any requests on `t`. -/
theorem store_stays_in_directory (P : Platform ε φ) {t u : TaId} (htu : t ≠ u)
    {c : Client ε (φ × List Path)} (hpaths : c.store.fs.2 = [])
    (hhandles : ∀ h ∈ c.handles, h.ta = t) {rs : List Request}
    (hrs : ∀ r ∈ rs, r.Within (· = t) fun _ => True) (root : Path) :
    (∀ path ∈ (c.run P.watched rs).store.fs.2, InDir t path ∧ ¬ InDir u path ∧
      ∃ full, Supplicant.safe root path = .ok full ∧ Below root full) ∧
    ∀ f, objPath t f ≠ dirPath t ∧ ∀ g, f ≠ g → objPath t f ≠ objPath t g := by
  have hwalk : ∀ ta, ta = t → Walk P.watched (keepsOf (pathsFrame t)) ta fun _ => True := by
    rintro ta rfl
    exact paths_walk
  have hopen : ∀ ta, ta = t → ∀ objectId,
      Attempt.Keeps (pathsFrame t) (open_ P.watched ta objectId) := by
    rintro ta rfl objectId
    exact paths_open objectId
  obtain ⟨hrun, -⟩ := run_keeps hwalk hopen (fun h hh => ⟨hhandles h hh, trivial⟩) hrs
  refine ⟨?_, ?_⟩
  · intro path hpath
    have hta : TaPath t path := hrun (by simp [hpaths]) path hpath
    exact ⟨hta.inDir, fun hu => htu (hta.inDir.unique hu), hta.safe root⟩
  · intro f
    refine ⟨objPath_ne_dirPath t t f, ?_⟩
    intro g hne heq
    exact hne (objPath_injective heq)

/-- Two objects are created, the second opened and the first deleted. -/
theorem store_stays_in_directory_sample :
    let c := Client.run (samplePlatform memFs).watched ⟨⟨1, (emptyStore.fs, []), []⟩, []⟩
      [.create sampleTa (ascii "a") 0 [1], .create sampleTa (ascii "b") 0 [2],
        .open_ sampleTa (ascii "b"), .delete sampleTa (ascii "a")]
    c.store.fs.2.length = 17 ∧
    ∀ path ∈ c.store.fs.2, InDir sampleTa path ∧ ¬ InDir (Block.zero 16) path ∧ ∃ full,
      Supplicant.safe (ascii "/var/ree") path = .ok full ∧ Below (ascii "/var/ree") full := by
  refine ⟨by decide +kernel, ?_⟩
  exact (store_stays_in_directory (samplePlatform memFs) (by decide) rfl (by simp)
    (by simp [Request.Within]) (ascii "/var/ree")).1

end Storage

end Rustee
