import Rustee.StorageAuthentic

/-!
# Which contents are encrypted under a file id and a version

A handle carries its own copy of the version and counts on from it. Two handles on one object count
from the same version, so their first writes encrypt two plaintexts under one pair of file id and
version. Where every handle written through carries the last version of its file, each pair is
used once.
-/

namespace Rustee.Storage

open Attempt List

variable {ε φ : Type} {P : Platform ε φ}

/-! ### The objects written -/

/-- The handles `write_object` encrypted, the latest first. -/
def objectsWritten : List Event → List ObjectHandle
  | [] => []
  | .wroteObject h _ :: log => h :: objectsWritten log
  | .wroteDir _ _ :: log => objectsWritten log
  | .encrypted _ :: log => objectsWritten log
  | .decrypted _ :: log => objectsWritten log

variable {log : List Event} (h : ObjectHandle)

theorem mem_objectsWritten {h : ObjectHandle} {fek : Block 32}
    (hmem : .wroteObject h fek ∈ log) : h ∈ objectsWritten log := by
  induction log with
  | nil => cases hmem
  | cons e log ih =>
    rcases mem_cons.mp hmem with heq | hold
    · cases heq
      exact mem_cons_self
    · cases e with
      | wroteObject => exact mem_cons_of_mem _ (ih hold)
      | wroteDir | encrypted | decrypted => exact ih hold

/-- No two plaintexts are encrypted for one trusted application under one file id and
version. -/
def OneContent (log : List Event) : Prop :=
  ∀ h ∈ objectsWritten log, ∀ h' ∈ objectsWritten log,
    h.ta = h'.ta → h.fileId = h'.fileId → h.objVersion = h'.objVersion →
      h.objectId = h'.objectId ∧ h.data = h'.data

def writtenFrame : Frame (List Event) where
  rel := fun log log' => objectsWritten log' = objectsWritten log
  refl := fun _ => rfl
  trans := fun h h' => h'.trans h

theorem writtenFrame_tolerates : Tolerates P writtenFrame (fun _ => True) where
  loads := fun _ _ => trivial
  decrypts := fun _ _ => rfl
  stores := by
    intro ta entries files _ s
    obtain ⟨x, hlog, -⟩ := storeDirFull_log P ta entries files s
    show objectsWritten _ = _
    rw [hlog]
    rfl

theorem objectsWritten_writeObject (s : ReeFs ε φ) :
    objectsWritten (writeObject P h s).2.log = h :: objectsWritten s.log := by
  obtain ⟨fek, wrap, body, hlog, -⟩ := writeObject_log P h s
  rw [hlog]
  rfl

variable {α : Type}

theorem objectsWritten_bind {f : Unit → StoreM ε φ α}
    (hf : ∀ a, Keeps (onStore writtenFrame) (f a)) (s : ReeFs ε φ) :
    objectsWritten ((writeObject P h >>= f) s).2.log = h :: objectsWritten s.log := by
  have hwrite := objectsWritten_writeObject (P := P) h s
  rw [bind_apply]
  rcases hrun : writeObject P h s with ⟨r, s'⟩
  rw [hrun] at hwrite
  cases r with
  | ok a => exact (hf a s').trans hwrite
  | err | panic => exact hwrite

/-- What a step may add to the objects written: nothing, or one that satisfies `Q`. -/
def Adds (Q : ObjectHandle → Prop) (s s' : ReeFs ε φ) : Prop :=
  objectsWritten s'.log = objectsWritten s.log ∨
    ∃ h, Q h ∧ objectsWritten s'.log = h :: objectsWritten s.log

theorem Adds.bind {β : Type} {Q : ObjectHandle → Prop} {x : StoreM ε φ α} {f : α → StoreM ε φ β}
    {s : ReeFs ε φ} (hx : Keeps (onStore writtenFrame) x)
    (hf : ∀ a s', x s = (.ok a, s') → Adds Q s' (f a s').2) : Adds Q s ((x >>= f) s).2 := by
  have hquiet := hx s
  rw [bind_apply]
  rcases hrun : x s with ⟨r, s'⟩
  rw [hrun] at hquiet
  cases r with
  | ok a =>
    have hrest := hf a s' hrun
    rw [Adds, hquiet] at hrest
    exact hrest
  | err | panic => exact .inl hquiet

def entropyFrame : Frame (ReeFs ε φ) where
  rel := fun s s' => s'.entropy = s.entropy
  refl := fun _ => rfl
  trans := fun h h' => h'.trans h

variable (ta : TaId)

theorem loadDir_draws_nothing : Keeps entropyFrame (loadDir P ta) := by
  have honFs : ∀ (α : Type) (x : Attempt φ StorageError α),
      Keeps entropyFrame (onFs x : StoreM ε φ α) := fun _ _ _ => rfl
  have honLog : ∀ (α : Type) (x : CipherM α),
      Keeps entropyFrame (onLog x : StoreM ε φ α) := fun _ _ _ => rfl
  apply Keeps.bind _ fun dir => keeps_pure _
  apply (honFs _ _).mapErr.bind
  intro blob
  exact honLog _ _

/-! ### The three operations that store an object -/

theorem create_adds (objectId : Bytes) (flags : UInt32) (data : Bytes) (s : ReeFs ε φ) :
    Adds (fun h => h.ta = ta ∧ h.fileId = (P.entropy.fill 16 s.entropy).1) s
      (create P ta objectId flags data s).2 := by
  have hparts := writtenFrame_tolerates (P := P) |>.parts ta
  rw [create]
  split
  · exact .inl rfl
  · apply Adds.bind (keeps_onFs _).toOption
    intro _ s1 hmkdir
    have h1 : s1.entropy = s.entropy := by
      have hrun : (toOption (onFs (P.fs.mkdir (taHex ta))) s).2.entropy = s.entropy := rfl
      rw [← hrun, hmkdir]
    apply Adds.bind (keeps_onFs _).toOption
    intro _ s2 hmkdir2
    have h2 : s2.entropy = s1.entropy := by
      have hrun : (toOption (onFs (P.fs.mkdir (taHex ta ++ ascii "/obj"))) s1).2.entropy =
        s1.entropy := rfl
      rw [← hrun, hmkdir2]
    apply Adds.bind (hparts.toOption hparts.loadDir)
    intro dir s3 hload
    have h3 : s3.entropy = s2.entropy := by
      have hrun := (loadDir_draws_nothing (P := P) ta).toOption s2
      rw [hload] at hrun
      exact hrun
    simp only
    split
    · exact .inl rfl
    · right
      refine ⟨⟨ta, (P.entropy.fill 16 s3.entropy).1, objectId, flags, data, 1⟩, ⟨rfl, ?_⟩, ?_⟩
      · show (P.entropy.fill 16 s3.entropy).1 = _
        rw [h3, h2, h1]
      · apply objectsWritten_bind
        intro _
        apply hparts.seq (hparts.storeDir _ fun _ _ => trivial)
        intro _
        exact hparts.pure _

theorem storeHandle_adds (s : ReeFs ε φ) :
    objectsWritten (storeHandle P h s).2.log = h :: objectsWritten s.log :=
  objectsWritten_bind h (fun _ => (writtenFrame_tolerates.parts h.ta).upsertDir rfl trivial) s

theorem rename_adds (old new : Bytes) (s : ReeFs ε φ) :
    Adds (fun h' => ∃ h s', open_ P ta old s = (.ok h, s') ∧ h'.ta = h.ta ∧
      h'.fileId = h.fileId ∧ h'.objVersion = h.objVersion + 1) s (rename P ta old new s).2 := by
  apply Adds.bind (writtenFrame_tolerates.open_ ta old)
  intro h s1 hopen
  right
  refine ⟨{ h with objectId := new, objVersion := h.objVersion + 1 },
    ⟨h, s1, hopen, rfl, rfl, rfl⟩, ?_⟩
  have hparts := writtenFrame_tolerates (P := P) |>.parts ta
  apply objectsWritten_bind
  intro _
  apply hparts.seq (hparts.delete old)
  intro _
  apply hparts.seq (hparts.toOption hparts.loadDir)
  intro dir
  exact hparts.storeDir _ fun _ _ => trivial

/-! ### Careful runs -/

/-- The handle carries the last version used for its file, and there is a next one. -/
def Current (log : List Event) (h : ObjectHandle) : Prop :=
  h.objVersion.toNat < 2 ^ 64 - 1 ∧ ∀ h' ∈ objectsWritten log, h'.ta = h.ta →
    h'.fileId = h.fileId → h'.objVersion.toNat ≤ h.objVersion.toNat

/-- A file id that is drawn is new, and what is written through, or renamed, is current. -/
def Careful (P : Platform ε φ) (c : Client ε φ) : Request → Prop
  | .create ta _ _ _ => ∀ h ∈ objectsWritten c.store.log, h.ta = ta →
      h.fileId ≠ (P.entropy.fill 16 c.store.entropy).1
  | .list _ => True
  | .open_ _ _ => True
  | .write i _ _ => ∀ h, c.handles[i]? = some h → Current c.store.log h
  | .truncate i _ => ∀ h, c.handles[i]? = some h → Current c.store.log h
  | .delete _ _ => True
  | .rename ta old _ => ∀ h s', open_ P ta old c.store = (.ok h, s') → Current c.store.log h

def CarefulRun (P : Platform ε φ) (c : Client ε φ) : List Request → Prop
  | [] => True
  | r :: rs => Careful P c r ∧ CarefulRun P (c.serve P r).2 rs

def Unused (log : List Event) (h : ObjectHandle) : Prop :=
  ∀ h' ∈ objectsWritten log, h'.ta = h.ta → h'.fileId = h.fileId → h'.objVersion ≠ h.objVersion

theorem unused_of_current {h h' : ObjectHandle} (hcur : Current log h)
    (hta : h'.ta = h.ta) (hfile : h'.fileId = h.fileId)
    (hversion : h'.objVersion = h.objVersion + 1) : Unused log h' := by
  intro h'' hmem hta' hfile' heq
  have hle := hcur.2 h'' hmem (hta'.trans hta) (hfile'.trans hfile)
  rw [heq, hversion, UInt64.toNat_add] at hle
  have hlt := hcur.1
  have hone : (1 : UInt64).toNat = 1 := rfl
  rw [hone] at hle
  omega

theorem grant_store (c : Client ε φ) (x : StoreM ε φ ObjectHandle) :
    (c.grant x).2.store = (x c.store).2 := by
  rw [Client.grant]
  rcases x c.store with ⟨r, s⟩
  cases r with
  | ok | err | panic => rfl

variable {c : Client ε φ}

theorem edit_adds {i : Nat} (hcur : ∀ h, c.handles[i]? = some h → Current c.store.log h)
    (edit : ObjectHandle → Fallible StorageError ObjectHandle)
    (hedit : ∀ h h', edit h = .ok h' → Edited h h')
    {x : ObjectHandle → ReeFs ε φ → Fallible StorageError α × ObjectHandle × ReeFs ε φ}
    (hx : ∀ h, (x h c.store).2 = (through P h (edit h) c.store).2) {answer : α → Answer} :
    Adds (Unused c.store.log) c.store (c.edit i x answer).2.store := by
  rw [Client.edit]
  cases hi : c.handles[i]? with
  | none => exact .inl rfl
  | some h =>
    simp only [hx]
    cases hh : edit h with
    | err | panic => exact .inl rfl
    | ok h' =>
      refine .inr ⟨h', ?_, storeHandle_adds h' c.store⟩
      obtain ⟨data, rfl⟩ := hedit h h' hh
      exact unused_of_current (hcur h hi) rfl rfl rfl

theorem serve_adds {r : Request} (hr : Careful P c r) :
    Adds (Unused c.store.log) c.store (c.serve P r).2.store := by
  have hquiet : ∀ {α : Type} {x : StoreM ε φ α}, Keeps (onStore writtenFrame) x →
      Adds (Unused c.store.log) c.store (x c.store).2 := fun hx => .inl (hx c.store)
  cases r with
  | create ta objectId flags data =>
    rw [Client.serve, grant_store]
    rcases create_adds ta objectId flags data c.store with hsame | ⟨h, ⟨hta, hfile⟩, hnew⟩
    · exact .inl hsame
    · refine .inr ⟨h, ?_, hnew⟩
      intro h' hmem hta' hfile'
      exact absurd (hfile'.trans hfile) (hr h' hmem (hta'.trans hta))
  | list ta => exact hquiet (writtenFrame_tolerates.parts ta).loadDir
  | open_ ta objectId =>
    rw [Client.serve, grant_store]
    exact hquiet (writtenFrame_tolerates.open_ ta objectId)
  | write i off buf =>
    apply edit_adds (P := P) hr (fun h => writeEdit P h off buf) fun h _ => writeEdit_eq_ok P h
    intro h
    rfl
  | truncate i size =>
    apply edit_adds (P := P) hr (fun h => truncateEdit h size) fun h _ => truncateEdit_eq_ok h
    intro h
    rfl
  | delete ta objectId => exact hquiet ((writtenFrame_tolerates.parts ta).delete objectId)
  | rename ta old new =>
    rcases rename_adds (P := P) ta old new c.store with
      hsame | ⟨h', ⟨h, s', hopen, hta, hfile, hversion⟩, hnew⟩
    · exact .inl hsame
    · exact .inr ⟨h', unused_of_current (hr h s' hopen) hta hfile hversion, hnew⟩

theorem run_one_content {rs : List Request} (hrs : CarefulRun P c rs)
    (hc : OneContent c.store.log) : OneContent (c.run P rs).store.log := by
  induction rs generalizing c with
  | nil => exact hc
  | cons r rs ih =>
    apply ih hrs.2
    rcases serve_adds hrs.1 with hsame | ⟨h, hunused, hnew⟩
    · rw [OneContent, hsame]
      exact hc
    · rw [OneContent, hnew]
      intro h1 hmem1 h2 hmem2 hta hfile hversion
      rcases mem_cons.mp hmem1 with rfl | hold1
      · rcases mem_cons.mp hmem2 with rfl | hold2
        · exact ⟨rfl, rfl⟩
        · exact absurd hversion.symm (hunused h2 hold2 hta.symm hfile.symm)
      · rcases mem_cons.mp hmem2 with rfl | hold2
        · exact absurd hversion (hunused h1 hold1 hta hfile)
        · exact hc h1 hold1 h2 hold2 hta hfile hversion

/-- Two files that decrypt under one file id and version hold the same object, so the
REE has nothing to choose between. -/
def Unambiguous (P : Platform ε φ) (log : List Event) : Prop :=
  ∀ ta fileId objVersion objectId objectId' flags flags' blob blob' h h' log₁ log₂,
    decryptObject P ta fileId objectId flags objVersion blob log = (.ok h, log₁) →
    decryptObject P ta fileId objectId' flags' objVersion blob' log = (.ok h', log₂) →
    Unforgeable P log₁ → Unforgeable P log₂ → h.objectId = h'.objectId ∧ h.data = h'.data

theorem unambiguous_of_oneContent (hkeys : SeparateKeys P)
    (hsound : Sound P log) (hfresh : FreshKeys P log) (hone : OneContent log) :
    Unambiguous P log := by
  intro ta fileId objVersion objectId objectId' flags flags' blob blob' h h' log1 log2 hrun hrun'
    hideal hideal'
  obtain ⟨h0, fek, hwrote, hta, hid, hdata, hfile, hversion⟩ :=
    object_authentic hkeys hsound hfresh hrun hideal
  obtain ⟨h0', fek', hwrote', hta', hid', hdata', hfile', hversion'⟩ :=
    object_authentic hkeys hsound hfresh hrun' hideal'
  obtain ⟨-, -, -, -, -, -, -, -, hh⟩ := decryptObject_eq_ok hrun
  obtain ⟨-, -, -, -, -, -, -, -, hh'⟩ := decryptObject_eq_ok hrun'
  obtain ⟨hsameId, hsameData⟩ := hone h0 (mem_objectsWritten hwrote) h0'
    (mem_objectsWritten hwrote') (hta.trans hta'.symm) (hfile.trans hfile'.symm)
    (hversion.trans hversion'.symm)
  constructor
  · rw [hh, hh']
    exact hid.symm.trans (hsameId.trans hid')
  · exact hdata.symm.trans (hsameData.trans hdata')

/-- **One content per version, in every careful run.**  With an ideal cipher the REE then
cannot choose between two object files. -/
theorem one_content_per_version {c : Client ε φ} (hlog : c.store.log = [])
    (hhandles : c.handles = []) {rs : List Request} (hrs : CarefulRun P c rs) :
    OneContent (c.run P rs).store.log ∧
      (SeparateKeys P → (∀ r ∈ rs, r.Short) → FreshKeys P (c.run P rs).store.log →
        Unambiguous P (c.run P rs).store.log) := by
  have hstart : OneContent c.store.log := by
    rw [hlog]
    intro h hmem
    cases hmem
  have hone := run_one_content hrs hstart
  refine ⟨hone, ?_⟩
  intro hkeys hshort hfresh
  have hsound : c.Sound P := by
    constructor
    · rw [hlog]
      exact sound_nil
    · rw [hhandles]
      simp
  exact unambiguous_of_oneContent hkeys (run_sound hsound hshort).log hfresh hone

/-- A client on an empty `MemFs`. -/
def emptyClient : Client UInt8 MemFs := ⟨emptyStore, []⟩

/-- One handle, written through twice. -/
theorem one_content_one_handle :
    OneContent (emptyClient.run (samplePlatform memFs)
      [.create sampleTa (ascii "a") 0 [0, 0], .write 0 0 [1], .write 0 1 [2]]).store.log := by
  let c₁ := (emptyClient.serve (samplePlatform memFs) (.create sampleTa (ascii "a") 0 [0, 0])).2
  let c₂ := (c₁.serve (samplePlatform memFs) (.write 0 0 [1])).2
  have hcreate : Careful (samplePlatform memFs) emptyClient
      (.create sampleTa (ascii "a") 0 [0, 0]) := by
    intro h hmem
    cases hmem
  have h₁ : c₁.handles[0]? = some ⟨sampleTa, (counter.fill 16 1).1, ascii "a", 0, [0, 0], 1⟩ := by
    decide +kernel
  have h₂ : c₂.handles[0]? = some ⟨sampleTa, (counter.fill 16 1).1, ascii "a", 0, [1, 0], 2⟩ := by
    decide +kernel
  have hwrite : Careful (samplePlatform memFs) c₁ (.write 0 0 [1]) := by
    intro h hh
    cases h₁.symm.trans hh
    rw [Current]
    decide +kernel
  have hwrite' : Careful (samplePlatform memFs) c₂ (.write 0 1 [2]) := by
    intro h hh
    cases h₂.symm.trans hh
    rw [Current]
    decide +kernel
  have hrs : CarefulRun (samplePlatform memFs) emptyClient
      [.create sampleTa (ascii "a") 0 [0, 0], .write 0 0 [1], .write 0 1 [2]] :=
    ⟨hcreate, hwrite, hwrite', trivial⟩
  exact (one_content_per_version rfl rfl hrs).1

/-- Two handles opened on one object, each written through once: two contents under
version 2. -/
theorem two_handles_two_contents :
    ¬ OneContent (emptyClient.run (samplePlatform memFs)
      [.create sampleTa (ascii "a") 0 [0, 0], .open_ sampleTa (ascii "a"),
        .open_ sampleTa (ascii "a"), .write 1 0 [1], .write 2 1 [2]]).store.log := by
  rw [OneContent]
  decide +kernel

end Rustee.Storage
