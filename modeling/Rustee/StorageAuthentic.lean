import Rustee.StorageWalk

/-!
# What an object that opens must have been

The file system is the adversary: it answers every read as it likes. The cipher is ideal: a
decryption under an honest key succeeds only on what was encrypted under it before. An opened
object is then one that was written, and listed in a directory that was written, for the same
trusted application; which of its versions, the adversary chooses.
-/

namespace Rustee.Storage

open Attempt List

variable {ε φ : Type}

/-! ### What the operations of the store add to the log

Loading adds decryptions; storing a directory or an object adds its own events. A relation on
logs that tolerates the first two is kept by everything that stores no object. -/

def onStore (G : Frame (List Event)) : Frame (ReeFs ε φ) where
  rel := fun s s' => G.rel s.log s'.log
  refl := fun s => G.refl s.log
  trans := fun h h' => G.trans h h'

/-- The frame survives decryptions and directories whose ids are `ok`; every id that
can be loaded is. -/
structure Tolerates (P : Platform ε φ) (G : Frame (List Event)) (ok : Bytes → Prop) : Prop where
  loads : ∀ id, id.length ≤ 255 → ok id
  decrypts : ∀ log x, G.rel log (.decrypted x :: log)
  stores : ∀ ta entries files, (∀ e ∈ entries, ok e.objectId) →
    Keeps (onStore G) (storeDirFull P ta entries files)

/-! ### Parts that leave the log alone -/

section Parts

variable {α : Type} {P : Platform ε φ} {G : Frame (List Event)} {ok : Bytes → Prop}

theorem keeps_onFs (x : Attempt φ StorageError α) :
    Keeps (onStore G) (onFs x : StoreM ε φ α) := fun s => G.refl s.log

theorem keeps_fill (n : Nat) : Keeps (onStore G) (fill P n) := fun s => G.refl s.log

theorem keeps_onLog {x : CipherM α} (h : Keeps G x) :
    Keeps (onStore G) (onLog x : StoreM ε φ α) := fun s => h s.log

/-! ### Loading -/

variable (hG : Tolerates P G ok)
include hG

theorem Tolerates.decrypt (V : Provider) (key : Block 32) (nonce : Block 12) (aad ct : Bytes)
    (tag : Block 16) : Keeps G (aesGcmDecrypt V key nonce aad ct tag) := by
  intro log
  rw [aesGcmDecrypt]
  cases V.decrypt key nonce aad ct tag with
  | some => exact hG.decrypts log _
  | none => exact G.refl log

theorem Tolerates.decoding : Decoding P fun _ x => Keeps G x where
  lift := keeps_lift
  bind := Keeps.bind
  decrypt := fun _ _ _ _ _ => (hG.decrypt _ _ _ _ _ _).mapErr

variable (ta : TaId)

theorem Tolerates.loadDirFull : Keeps (onStore G) (loadDirFull P ta) := by
  apply (keeps_onFs _).mapErr.bind
  intro blob
  exact keeps_onLog (hG.decoding.openDir ta blob)

theorem Tolerates.parts : Parts P (keepsOf (onStore G)) ta ok :=
  parts_of_keeps hG.loads (fun _ => keeps_onFs _) (hG.loadDirFull ta) (hG.stores ta)

theorem Tolerates.open_ (objectId : Bytes) : Keeps (onStore G) (open_ P ta objectId) := by
  apply (hG.parts ta).open_ (fun _ => (keeps_onFs _).mapErr)
  intro fileId objectId flags objVersion blob
  exact keeps_onLog (hG.decoding.decryptObject _ _ _ _ _ _)

theorem Tolerates.walk (hobject : ∀ h : ObjectHandle, ok h.objectId →
      Keeps (onStore G) (writeObject P h)) (ta : TaId) :
    Walk P (keepsOf (onStore G)) ta ok where
  toParts := hG.parts ta
  fill := keeps_fill 16
  mkdir := fun _ _ => keeps_onFs _
  object := fun h _ => hobject h

end Parts

/-! ### The events of storing -/

section Events

variable (P : Platform ε φ)

theorem putFile_log (path : Path) (blob : Bytes) (s : ReeFs ε φ) :
    (putFile P path blob s).2.log = s.log := by
  rw [putFile, orElse]
  rcases hwrite : onFs (P.fs.write path blob) s with ⟨r, s'⟩
  have hlog : s'.log = s.log := by
    cases hwrite
    rfl
  cases r with
  | ok | err | panic => exact hlog

/-- Storing an object wraps a new key and encrypts the plaintext under it. -/
theorem writeObject_log (h : ObjectHandle) (s : ReeFs ε φ) :
    ∃ fek wrap body, (writeObject P h s).2.log =
        .encrypted body :: .encrypted wrap :: .wroteObject h fek :: s.log ∧
      wrap.key = P.derive h.ta .wrap ∧ wrap.aad = objectAad h.ta h.fileId h.objVersion ∧
      wrap.pt = fek.bytes ∧ body.key = fek ∧ body.pt = objectPlaintext h.objectId h.data :=
  ⟨_, _, _, putFile_log P _ _ _, rfl, rfl, rfl, rfl, rfl⟩

theorem storeDirFull_log (ta : TaId) (entries : List ObjectMeta) (files : List FileRef)
    (s : ReeFs ε φ) :
    ∃ x, (storeDirFull P ta entries files s).2.log =
        .encrypted x :: .wroteDir ta (listing entries files) :: s.log ∧
      x.key = P.derive ta .dir ∧ x.pt = encodeDir (listing entries files) :=
  ⟨_, putFile_log P _ _ _, rfl, rfl⟩

end Events

variable {P : Platform ε φ}

/-! ### The assumptions -/

def SeparateKeys (P : Platform ε φ) : Prop :=
  ∀ ta ta' label label', P.derive ta label = P.derive ta' label' → ta = ta' ∧ label = label'

def HonestKey (P : Platform ε φ) (log : List Event) (key : Block 32) : Prop :=
  (∃ ta label, key = P.derive ta label) ∨ ∃ h, .wroteObject h key ∈ log

/-- Every decryption under an honest key was of an earlier encryption under it. -/
def Unforgeable (P : Platform ε φ) (log : List Event) : Prop :=
  ∀ x older, (.decrypted x :: older) <:+ log → HonestKey P older x.key → .encrypted x ∈ older

def FreshKeys (P : Platform ε φ) (log : List Event) : Prop :=
  ∀ h fek older, (.wroteObject h fek :: older) <:+ log →
    (∀ h', .wroteObject h' fek ∉ older) ∧ ∀ ta label, fek ≠ P.derive ta label

variable {log : List Event}

theorem FreshKeys.tail {e : Event} (h : FreshKeys P (e :: log)) : FreshKeys P log := by
  intro h' fek older hsuffix
  exact h h' fek older (hsuffix.trans (suffix_cons e log))

variable {h : ObjectHandle} {h : ObjectHandle}

theorem FreshKeys.underived {fek : Block 32}
    (hfresh : FreshKeys P log) (hmem : .wroteObject h fek ∈ log) (ta : TaId) (label : Label) :
    fek ≠ P.derive ta label := by
  obtain ⟨newer, older, rfl⟩ := append_of_mem hmem
  exact (hfresh h fek older (suffix_append newer _)).2 ta label

theorem FreshKeys.unique {h' : ObjectHandle} {fek : Block 32}
    (hfresh : FreshKeys P log) (hmem : .wroteObject h fek ∈ log)
    (hmem' : .wroteObject h' fek ∈ log) : h = h' := by
  induction log with
  | nil => cases hmem
  | cons e log ih =>
    rcases mem_cons.mp hmem with heq | hold
    · cases heq
      rcases mem_cons.mp hmem' with heq' | hold'
      · cases heq'
        rfl
      · exact absurd hold' ((hfresh h fek log suffix_rfl).1 h')
    · rcases mem_cons.mp hmem' with heq' | hold'
      · cases heq'
        exact absurd hold ((hfresh h' fek log suffix_rfl).1 h)
      · exact ih hfresh.tail hold hold'

/-! ### Where an encryption comes from -/

/-- The three uses of the cipher. -/
inductive Origin (P : Platform ε φ) (log : List Event) (x : Sealed) : Prop
  | wrap (h : ObjectHandle) (fek : Block 32) (wrote : .wroteObject h fek ∈ log)
      (key : x.key = P.derive h.ta .wrap) (aad : x.aad = objectAad h.ta h.fileId h.objVersion)
      (pt : x.pt = fek.bytes)
  | body (h : ObjectHandle) (fek : Block 32) (wrote : .wroteObject h fek ∈ log)
      (key : x.key = fek) (pt : x.pt = objectPlaintext h.objectId h.data)
  | dir (ta : TaId) (entries : List (ObjectMeta × FileRef)) (wrote : .wroteDir ta entries ∈ log)
      (key : x.key = P.derive ta .dir) (pt : x.pt = encodeDir entries)

theorem Origin.mono {log' : List Event} {x : Sealed} (h : Origin P log x)
    (hsub : ∀ e ∈ log, e ∈ log') : Origin P log' x := by
  cases h with
  | wrap h fek wrote key aad pt => exact .wrap h fek (hsub _ wrote) key aad pt
  | body h fek wrote key pt => exact .body h fek (hsub _ wrote) key pt
  | dir ta entries wrote key pt => exact .dir ta entries (hsub _ wrote) key pt

/-- Every encryption in the log has its origin there, and every id written fits its
length byte. -/
structure Sound (P : Platform ε φ) (log : List Event) : Prop where
  origin : ∀ x, .encrypted x ∈ log → Origin P log x
  objectIds : ∀ h fek, .wroteObject h fek ∈ log → h.objectId.length ≤ 255
  dirIds : ∀ ta entries, .wroteDir ta entries ∈ log → ∀ e ∈ entries, e.1.objectId.length ≤ 255

theorem sound_nil : Sound P [] := by
  constructor
  · intro x hx
    cases hx
  · intro h fek hmem
    cases hmem
  · intro ta entries hmem
    cases hmem

def soundFrame (P : Platform ε φ) : Frame (List Event) where
  rel := fun log log' => Sound P log → Sound P log'
  refl := fun _ h => h
  trans := fun h h' hs => h' (h hs)

namespace Sound

variable {log : List Event}

theorem decrypted (h : Sound P log) (x : Sealed) : Sound P (.decrypted x :: log) := by
  constructor
  · intro y hy
    apply Origin.mono (h.origin y (by simpa using hy))
    intro e he
    exact mem_cons_of_mem _ he
  · intro h' fek hmem
    exact h.objectIds h' fek (by simpa using hmem)
  · intro ta entries hmem
    exact h.dirIds ta entries (by simpa using hmem)

theorem encrypted (h : Sound P log) {x : Sealed} (ho : Origin P log x) :
    Sound P (.encrypted x :: log) := by
  constructor
  · intro y hy
    have hy' : Origin P log y := by
      rcases mem_cons.mp hy with heq | hy
      · cases heq
        exact ho
      · exact h.origin y hy
    apply hy'.mono
    intro e he
    exact mem_cons_of_mem _ he
  · intro h' fek hmem
    exact h.objectIds h' fek (by simpa using hmem)
  · intro ta entries hmem
    exact h.dirIds ta entries (by simpa using hmem)

theorem wroteDir (h : Sound P log) (ta : TaId) {entries : List (ObjectMeta × FileRef)}
    (hids : ∀ e ∈ entries, e.1.objectId.length ≤ 255) : Sound P (.wroteDir ta entries :: log) := by
  constructor
  · intro y hy
    apply Origin.mono (h.origin y (by simpa using hy))
    intro e he
    exact mem_cons_of_mem _ he
  · intro h' fek hmem
    exact h.objectIds h' fek (by simpa using hmem)
  · intro ta' entries' hmem
    rcases mem_cons.mp hmem with heq | hmem
    · cases heq
      exact hids
    · exact h.dirIds ta' entries' hmem

theorem wroteObject (hs : Sound P log) (fek : Block 32)
    (hid : h.objectId.length ≤ 255) : Sound P (.wroteObject h fek :: log) := by
  constructor
  · intro y hy
    apply Origin.mono (hs.origin y (by simpa using hy))
    intro e he
    exact mem_cons_of_mem _ he
  · intro h' fek' hmem
    rcases mem_cons.mp hmem with heq | hmem
    · cases heq
      exact hid
    · exact hs.objectIds h' fek' hmem
  · intro ta entries hmem
    exact hs.dirIds ta entries (by simpa using hmem)

end Sound

/-! ### Every operation keeps the log sound -/

theorem sound_storeDirFull (ta : TaId) (entries : List ObjectMeta) (files : List FileRef)
    (hids : ∀ e ∈ entries, e.objectId.length ≤ 255) :
    Keeps (onStore (soundFrame P)) (storeDirFull P ta entries files) := by
  intro s hs
  obtain ⟨x, hlog, hkey, hpt⟩ := storeDirFull_log P ta entries files s
  rw [hlog]
  have hlisted : ∀ e ∈ listing entries files, e.1.objectId.length ≤ 255 := by
    intro e he
    apply hids
    rw [← map_fst_listing entries files]
    exact mem_map_of_mem he
  apply (Sound.wroteDir hs ta hlisted).encrypted
  exact .dir ta _ mem_cons_self hkey hpt

theorem sound_writeObject (h : ObjectHandle) (hid : h.objectId.length ≤ 255) :
    Keeps (onStore (soundFrame P)) (writeObject P h) := by
  intro s hs
  obtain ⟨fek, wrap, body, hlog, hwkey, hwaad, hwpt, hbkey, hbpt⟩ := writeObject_log P h s
  rw [hlog]
  apply ((Sound.wroteObject hs fek hid).encrypted _).encrypted
  · exact .body h fek (by simp) hbkey hbpt
  · exact .wrap h fek mem_cons_self hwkey hwaad hwpt

theorem soundFrame_tolerates : Tolerates P (soundFrame P) (fun id => id.length ≤ 255) where
  loads := fun _ h => h
  decrypts := fun _ x h => h.decrypted x
  stores := sound_storeDirFull

def Request.Short : Request → Prop
  | .create _ objectId _ _ => objectId.length ≤ 64
  | .list _ => True
  | .open_ _ objectId => objectId.length ≤ 64
  | .write _ _ _ => True
  | .truncate _ _ => True
  | .delete _ objectId => objectId.length ≤ 64
  | .rename _ old new => old.length ≤ 64 ∧ new.length ≤ 64

/-- An object that opens: the directory decrypts and lists the id, and the file of the
entry decrypts. -/
theorem open_eq_ok {ta : TaId} {objectId : Bytes} {s s' : ReeFs ε φ}
    (hrun : open_ P ta objectId s = (.ok h, s')) :
    ∃ dir entries files blob, ∃ i : Nat, ∃ e : ObjectMeta,
      dir.key = P.derive ta .dir ∧ parseDir dir.pt = .ok (entries, files) ∧
      entries[i]? = some e ∧ e.objectId = objectId ∧ e.flags = h.flags ∧
      files[i]? = some (h.fileId, h.objVersion) ∧ h.objectId = objectId ∧
      decryptObject P ta h.fileId objectId h.flags h.objVersion blob
        (.decrypted dir :: s.log) = (.ok h, s'.log) := by
  obtain ⟨⟨entries, files⟩, s1, hload, hrun⟩ := bind_eq_ok hrun
  obtain ⟨dir, hdirLog, hdirKey, hparse⟩ := loadDirFull_eq_ok hload
  obtain ⟨i, s2, hidx, hrun⟩ := bind_eq_ok hrun
  obtain ⟨hfind, rfl⟩ := Prod.mk.inj hidx
  obtain ⟨file, s3, hfile, hrun⟩ := bind_eq_ok hrun
  obtain ⟨hfile', rfl⟩ := Prod.mk.inj hfile
  obtain ⟨blob, s4, hread, hrun⟩ := bind_eq_ok hrun
  have hreadLog := onFs_eq_ok (mapErr_eq_ok hread)
  obtain ⟨e, s5, he, hrun⟩ := bind_eq_ok hrun
  obtain ⟨he', rfl⟩ := Prod.mk.inj he
  replace hrun := onLog_eq_ok hrun
  rw [hreadLog, hdirLog] at hrun
  obtain ⟨-, -, -, -, -, -, -, -, hh⟩ := decryptObject_eq_ok hrun
  have hfind' : entries.findIdx? (fun e => e.objectId = objectId) = some i := by
    cases hidx' : entries.findIdx? (fun e => e.objectId = objectId) with
    | none =>
      simp only [hidx'] at hfind
      cases hfind
    | some =>
      simp only [hidx'] at hfind
      cases hfind
      rfl
  have hentry := getElem?_of_index he'
  have hfileRef := getElem?_of_index hfile'
  have hflags : h.flags = e.flags := by rw [hh]
  have hfileId : h.fileId = file.1 := by rw [hh]
  have hversion : h.objVersion = file.2 := by rw [hh]
  have hid : h.objectId = objectId := by rw [hh]
  refine ⟨dir, entries, files, blob, i, e, hdirKey, hparse, hentry,
    objectId_of_findIdx hfind' hentry, hflags.symm, ?_, hid, ?_⟩
  · rw [hfileId, hversion]
    exact hfileRef
  · rw [hflags, hfileId, hversion]
    exact hrun

/-! ### Runs -/

/-- The log is sound and the ids of the handles fit their length byte. -/
structure Client.Sound (P : Platform ε φ) (c : Client ε φ) : Prop where
  log : Storage.Sound P c.store.log
  handles : ∀ h ∈ c.handles, h.objectId.length ≤ 255

theorem Request.Short.within {r : Request} (h : r.Short) :
    r.Within (fun _ => True) fun id => id.length ≤ 255 := by
  cases r with
  | create | open_ => exact ⟨trivial, Nat.le_trans h (by omega)⟩
  | list | write | truncate | delete => trivial
  | rename => exact ⟨trivial, Nat.le_trans h.2 (by omega)⟩

theorem run_sound {c : Client ε φ} (hc : c.Sound P) {rs : List Request}
    (hrs : ∀ r ∈ rs, r.Short) : (c.run P rs).Sound P := by
  obtain ⟨hlog, hhandles⟩ := run_keeps (T := fun _ => True)
    (fun ta _ => soundFrame_tolerates.walk sound_writeObject ta)
    (fun ta _ => soundFrame_tolerates.open_ ta) (fun h hh => ⟨trivial, hc.handles h hh⟩)
    fun r hr => (hrs r hr).within
  exact ⟨hlog hc.log, fun h hh => (hhandles h hh).2⟩

/-! ### The theorem -/

section Ideal

variable {log : List Event} (hkeys : SeparateKeys P) (hsound : Sound P log)
  (hfresh : FreshKeys P log)
include hkeys hsound hfresh

variable {x : Sealed} {ta : TaId}

theorem wrote_of_dirKey (hmem : .encrypted x ∈ log) (hkey : x.key = P.derive ta .dir) :
    ∃ entries, .wroteDir ta entries ∈ log ∧ x.pt = encodeDir entries := by
  cases hsound.origin x hmem with
  | wrap h fek wrote key =>
    have hlabel := (hkeys _ _ _ _ (hkey.symm.trans key)).2
    cases hlabel
  | body h fek wrote key =>
    exact absurd (key.symm.trans hkey) (hfresh.underived wrote ta .dir)
  | dir ta' entries wrote key pt =>
    obtain ⟨rfl, -⟩ := hkeys _ _ _ _ (hkey.symm.trans key)
    exact ⟨entries, wrote, pt⟩

theorem wrote_of_wrapKey (hmem : .encrypted x ∈ log) (hkey : x.key = P.derive ta .wrap) :
    ∃ h fek, .wroteObject h fek ∈ log ∧ h.ta = ta ∧
      x.aad = objectAad h.ta h.fileId h.objVersion ∧ x.pt = fek.bytes := by
  cases hsound.origin x hmem with
  | wrap h fek wrote key aad pt =>
    obtain ⟨hta, -⟩ := hkeys _ _ _ _ (hkey.symm.trans key)
    exact ⟨h, fek, wrote, hta.symm, aad, pt⟩
  | body h fek wrote key =>
    exact absurd (key.symm.trans hkey) (hfresh.underived wrote ta .wrap)
  | dir ta' entries wrote key =>
    have hlabel := (hkeys _ _ _ _ (hkey.symm.trans key)).2
    cases hlabel

omit hkeys in
/-- What decrypts under the key of an object file is the body of that file. -/
theorem wrote_of_fileKey (hmem : .encrypted x ∈ log)
    (hwrote : .wroteObject h x.key ∈ log) : x.pt = objectPlaintext h.objectId h.data := by
  cases hsound.origin x hmem with
  | wrap h' fek wrote key | dir ta' entries wrote key =>
    exact absurd key (hfresh.underived hwrote _ _)
  | body h' fek wrote key pt =>
    rw [key] at hwrote
    rw [pt, hfresh.unique hwrote wrote]

/-- An object file that decrypts holds an object that was written, under the file id and
the version it was decrypted under. -/
theorem object_authentic {fileId : FileId} {objectId : Bytes} {flags : UInt32}
    {objVersion : UInt64} {blob : Bytes} {log' : List Event}
    (hrun : decryptObject P ta fileId objectId flags objVersion blob log = (.ok h, log'))
    (hideal : Unforgeable P log') :
    ∃ h0 fek, .wroteObject h0 fek ∈ log ∧ h0.ta = ta ∧ h0.objectId = objectId ∧
      h0.data = h.data ∧ h0.fileId = fileId ∧ h0.objVersion = objVersion := by
  obtain ⟨wrap, body, rfl, hwrapKey, hwrapAad, hwrapPt, hplain, -, -⟩ := decryptObject_eq_ok hrun
  have hwrapMem : .encrypted wrap ∈ log :=
    hideal wrap log ⟨[.decrypted body], rfl⟩ (.inl ⟨ta, .wrap, hwrapKey⟩)
  obtain ⟨h0, fek, hwrote, hta, haad, hfek⟩ :=
    wrote_of_wrapKey hkeys hsound hfresh hwrapMem hwrapKey
  have hkeyEq : fek = body.key := Block.eq_of_bytes (hfek.symm.trans hwrapPt)
  rw [hkeyEq] at hwrote
  have hbodyMem : .encrypted body ∈ log := by
    have hmem := hideal body (.decrypted wrap :: log) suffix_rfl (.inr ⟨h0, by simp [hwrote]⟩)
    simpa using hmem
  have hbodyPt := wrote_of_fileKey hsound hfresh hbodyMem hwrote
  rw [hbodyPt, splitPlaintext_objectPlaintext _ (hsound.objectIds h0 _ hwrote)] at hplain
  obtain ⟨hid, hdata⟩ := Prod.mk.inj (Option.some.inj hplain)
  obtain ⟨-, hfileId, hversion⟩ := objectAad_injective (haad.symm.trans hwrapAad)
  exact ⟨h0, body.key, hwrote, hta, hid, hdata, hfileId, hversion⟩

end Ideal

/-- **An object that opens was written and listed.**  After any requests of any trusted
applications, on a file system that answers as it likes. -/
theorem open_authentic (hkeys : SeparateKeys P) {c : Client ε φ} (hlog : c.store.log = [])
    (hhandles : c.handles = []) {rs : List Request} (hrs : ∀ r ∈ rs, r.Short) {ta : TaId}
    {objectId : Bytes} {h : ObjectHandle} {s' : ReeFs ε φ}
    (hopen : open_ P ta objectId (c.run P rs).store = (.ok h, s'))
    (hideal : Unforgeable P s'.log) (hfresh : FreshKeys P s'.log) :
    (∃ h₀ fek, .wroteObject h₀ fek ∈ (c.run P rs).store.log ∧ h₀.ta = ta ∧
      h₀.objectId = objectId ∧ h₀.data = h.data ∧ h₀.fileId = h.fileId ∧
      h₀.objVersion = h.objVersion) ∧
    ∃ entries e, .wroteDir ta entries ∈ (c.run P rs).store.log ∧ e ∈ entries ∧
      e.1.objectId = objectId ∧ e.1.flags = h.flags ∧ e.2 = (h.fileId, h.objVersion) := by
  have hstart : c.Sound P := by
    constructor
    · rw [hlog]
      exact sound_nil
    · rw [hhandles]
      simp
  have hsound := (run_sound hstart hrs).log
  generalize (c.run P rs).store = s at hopen hsound ⊢
  obtain ⟨dir, entries, files, blob, i, e, hdirKey, hparse, he, heid, heflags, hf, -, hobject⟩ :=
    open_eq_ok hopen
  have hsound₁ : Sound P (.decrypted dir :: s.log) := hsound.decrypted dir
  obtain ⟨wrap, body, hlog', -⟩ := decryptObject_eq_ok hobject
  have hfresh₁ : FreshKeys P (.decrypted dir :: s.log) := by
    rw [hlog'] at hfresh
    exact hfresh.tail.tail
  obtain ⟨h₀, fek, hwrote, hwritten⟩ := object_authentic hkeys hsound₁ hfresh₁ hobject hideal
  have hdirMem : .encrypted dir ∈ s.log := by
    rw [hlog'] at hideal
    exact hideal dir s.log ⟨[.decrypted body, .decrypted wrap], rfl⟩ (.inl ⟨ta, .dir, hdirKey⟩)
  obtain ⟨l, hdirWrote, hdirPt⟩ := wrote_of_dirKey hkeys hsound hfresh₁.tail hdirMem hdirKey
  rw [hdirPt, parseDir_encodeDir (hsound.dirIds ta l hdirWrote)] at hparse
  have hpair := getElem?_of_unzip (Fallible.ok.inj hparse) he hf
  refine ⟨⟨h₀, fek, by simpa using hwrote, hwritten⟩, l, (e, _), hdirWrote, ?_, heid, heflags, rfl⟩
  exact mem_of_mem_take (mem_of_getElem? hpair)

/-! ### A run with a plain cipher -/

theorem padTo_append {n : Nat} {a : Bytes} (b : Bytes) (h : a.length ≤ n) :
    ∃ rest, (padTo n (a ++ b)).bytes = a ++ rest := by
  refine ⟨(b ++ replicate n 0).take (n - a.length), ?_⟩
  simp only [padTo, append_assoc]
  rw [take_append, take_of_length_le h]

theorem derive_bytes (fs : FsRpc φ) (ta : TaId) (label : Label) :
    ∃ rest, ((samplePlatform fs).derive ta label).bytes =
      label.info.drop 15 ++ (ascii "ta.v1" ++ (ta.bytes ++ rest)) := by
  have hinfo : (ascii "rustee.storage.ta.v1" ++ ta.bytes).drop 15 = ascii "ta.v1" ++ ta.bytes := rfl
  have hlabel : (label.info.drop 15).length ≤ 7 := by
    cases label with
    | wrap | dir | mac => decide
  have htag : (ascii "ta.v1").length = 5 := by decide
  simp only [Platform.derive, Platform.tsk, samplePlatform, plainProvider, hinfo]
  obtain ⟨rest, hrest⟩ := padTo_append (n := 32) (a := ascii "ta.v1" ++ ta.bytes)
    (padTo 32 (drop 15 (ascii "rustee.storage.ssk.v1") ++
      ascii "0123456789abcdef0123456789abcdef")).bytes (by simp [htag])
  have hshort : (label.info.drop 15 ++ (ascii "ta.v1" ++ ta.bytes)).length ≤ 32 := by
    rw [length_append, length_append, htag, ta.length_bytes]
    omega
  obtain ⟨rest', hrest'⟩ := padTo_append rest hshort
  refine ⟨rest', ?_⟩
  rw [hrest, ← append_assoc, hrest']
  simp only [append_assoc]

theorem samplePlatform_separateKeys (fs : FsRpc φ) : SeparateKeys (samplePlatform fs) := by
  intro ta ta' label label' h
  obtain ⟨rest, hrest⟩ := derive_bytes fs ta label
  obtain ⟨rest', hrest'⟩ := derive_bytes fs ta' label'
  rw [h, hrest'] at hrest
  have hlabel : label = label' := by
    have hhead := congrArg head? hrest
    cases label with
    | wrap | dir | mac =>
      cases label' <;> first | rfl | (exact absurd hhead (by simp [Label.info, ascii]))
  subst hlabel
  have hrest1 := append_cancel_left (append_cancel_left hrest)
  have hta := (append_inj hrest1 (by simp)).1
  exact ⟨(Block.eq_of_bytes hta).symm, rfl⟩

def opensSealed : List Event → Bool
  | [] => true
  | .decrypted x :: older => older.contains (.encrypted x) && opensSealed older
  | _ :: older => opensSealed older

theorem unforgeable_of_opensSealed (h : opensSealed log = true) : Unforgeable P log := by
  induction log with
  | nil =>
    intro x older hsuffix
    cases suffix_nil.mp hsuffix
  | cons e log ih =>
    have hrest : opensSealed log = true := by
      cases e with
      | decrypted => exact (Bool.and_eq_true_iff.mp h).2
      | encrypted | wroteObject | wroteDir => exact h
    intro x older hsuffix hkey
    rcases suffix_cons_iff.mp hsuffix with heq | hsuffix
    · cases heq
      have hmem := (Bool.and_eq_true_iff.mp h).1
      simpa using hmem
    · exact ih hrest x older hsuffix hkey

/-- Every key drawn is new and starts with a byte no derived key starts with. -/
def drawsFresh : List Event → Bool
  | [] => true
  | .wroteObject _ fek :: older =>
    (older.all fun e => match e with
      | .wroteObject _ fek' => decide (fek' ≠ fek)
      | _ => true) &&
    decide (fek.bytes.head? ∉ [some 119, some 100, some 109]) && drawsFresh older
  | _ :: older => drawsFresh older

theorem freshKeys_of_drawsFresh {fs : FsRpc φ} (h : drawsFresh log = true) :
    FreshKeys (samplePlatform fs) log := by
  induction log with
  | nil =>
    intro h' fek older hsuffix
    cases suffix_nil.mp hsuffix
  | cons e log ih =>
    have hrest : drawsFresh log = true := by
      cases e with
      | wroteObject => exact (Bool.and_eq_true_iff.mp h).2
      | decrypted | encrypted | wroteDir => exact h
    intro h' fek older hsuffix
    rcases suffix_cons_iff.mp hsuffix with heq | hsuffix
    · cases heq
      obtain ⟨hnew, hhead⟩ := Bool.and_eq_true_iff.mp (Bool.and_eq_true_iff.mp h).1
      refine ⟨?_, ?_⟩
      · intro h'' hmem
        have hne := all_eq_true.mp hnew _ hmem
        simp at hne
      · intro ta label heq
        obtain ⟨rest, hrest'⟩ := derive_bytes fs ta label
        apply of_decide_eq_true hhead
        rw [heq, hrest']
        cases label with
        | wrap | dir | mac => simp [Label.info, ascii]
    · exact ih hrest h' fek older hsuffix

def sampleClient : Client UInt8 MemFs :=
  Client.run (samplePlatform memFs) ⟨emptyStore, []⟩ [.create sampleTa (ascii "a") 7 [1, 2, 3]]

def sampleOpen : Fallible StorageError ObjectHandle × ReeFs UInt8 MemFs :=
  open_ (samplePlatform memFs) sampleTa (ascii "a") sampleClient.store

/-- The object that was created is the one that opens. -/
theorem open_authentic_sample :
    ∃ h, sampleOpen.1 = .ok h ∧ h.data = [1, 2, 3] ∧
    (∃ h₀ fek, .wroteObject h₀ fek ∈ sampleClient.store.log ∧ h₀.ta = sampleTa ∧
      h₀.objectId = ascii "a" ∧ h₀.data = h.data ∧ h₀.fileId = h.fileId ∧
      h₀.objVersion = h.objVersion) ∧
    ∃ entries e, .wroteDir sampleTa entries ∈ sampleClient.store.log ∧ e ∈ entries ∧
      e.1.objectId = ascii "a" ∧ e.1.flags = h.flags ∧ e.2 = (h.fileId, h.objVersion) := by
  have hopen : sampleOpen.1 =
      .ok ⟨sampleTa, (counter.fill 16 1).1, ascii "a", 7, [1, 2, 3], 1⟩ := by
    decide +kernel
  have hrun : open_ (samplePlatform memFs) sampleTa (ascii "a") (Client.run (samplePlatform memFs)
      ⟨emptyStore, []⟩ [.create sampleTa (ascii "a") 7 [1, 2, 3]]).store =
      (.ok ⟨sampleTa, (counter.fill 16 1).1, ascii "a", 7, [1, 2, 3], 1⟩, sampleOpen.2) := by
    show sampleOpen = _
    rw [← hopen]
  refine ⟨_, hopen, rfl, ?_⟩
  exact open_authentic (samplePlatform_separateKeys memFs) rfl rfl (by simp [Request.Short, ascii])
    hrun (unforgeable_of_opensSealed (by decide +kernel))
    (freshKeys_of_drawsFresh (by decide +kernel))

end Rustee.Storage
