import Rustee.StorageEffects

/-!
# One walk over the operations of the store

Every operation is put together from the same parts: a directory is loaded, an object file or a
directory is stored, and the file system is called inside the directory of the trusted
application. What holds of the parts, and of sequences, holds of every operation.
-/

namespace Rustee.Storage

open Attempt List Fallible

variable {ε φ : Type} {h : ObjectHandle}

abbrev Judgement (ε φ : Type) := ∀ α : Type, StoreM ε φ α → Prop

/-- A judgement on the parts that store no object, where the ids written are `ok`. A
sequence may use what its first part returns. -/
structure Parts (P : Platform ε φ) (G : Judgement ε φ) (ta : TaId) (ok : Bytes → Prop) : Prop where
  loads : ∀ id, id.length ≤ 255 → ok id
  lift : ∀ {α : Type} {r : Fallible StorageError α}, r ≠ .panic → G α (lift r)
  bind : ∀ {α β : Type} {Q : α → Prop} {x : StoreM ε φ α} {f : α → StoreM ε φ β},
    G α x → Returns Q x → (∀ a, Q a → G β (f a)) → G β (x >>= f)
  toOption : ∀ {α : Type} {x : StoreM ε φ α}, G α x → G (Option α) (toOption x)
  remove : ∀ fileId, G _ (onFs (P.fs.delete (objPath ta fileId)))
  load : G _ (loadDirFull P ta)
  store : ∀ entries files, (∀ e ∈ entries, ok e.objectId) → G _ (storeDirFull P ta entries files)

/-- A judgement on all parts of the operations on `ta`. -/
structure Walk (P : Platform ε φ) (G : Judgement ε φ) (ta : TaId) (ok : Bytes → Prop) : Prop
    extends Parts P G ta ok where
  fill : G _ (fill P 16)
  mkdir : ∀ path, path = taHex ta ∨ path = taHex ta ++ ascii "/obj" → G _ (onFs (P.fs.mkdir path))
  object : ∀ h : ObjectHandle, h.ta = ta → ok h.objectId → G _ (writeObject P h)

/-! ### Places that are there -/

section Places

variable {α : Type} {v : List α} {i : Nat}

theorem index_ne_panic (h : i < v.length) : index v i ≠ .panic := by
  rw [index_eq_ok (getElem?_eq_getElem h)]
  simp

theorem assign_ne_panic (h : i < v.length) {a : α} : assign v i a ≠ .panic := by
  rw [assign, if_pos h]
  simp

theorem remove_ne_panic (h : i < v.length) : remove v i ≠ .panic := by
  rw [remove, if_pos h]
  simp

theorem ofOption_ne_panic (e : StorageError) (o : Option α) : ofOption e o ≠ .panic := by
  cases o with
  | none | some => simp [ofOption]

/-- `position` finds a place that is there. -/
theorem lt_of_position {entries : List ObjectMeta} {p : ObjectMeta → Bool} {e : StorageError}
    (h : ofOption e (entries.findIdx? p) = .ok i) : i < entries.length := by
  obtain ⟨hi, -⟩ := findIdx?_eq_some_iff_getElem.mp (ofOption_eq_ok.mp h)
  exact hi

end Places

/-! ### What a load returns -/

section Loads

variable {α : Type} {P : Platform ε φ} {s s' : ReeFs ε φ}

theorem onFs_eq_ok {x : Attempt φ StorageError α} {a : α}
    (h : onFs x s = (.ok a, s')) : s'.log = s.log := by
  have hlog : (onFs x s).2.log = s.log := rfl
  rw [← hlog, h]

theorem onLog_eq_ok {x : CipherM α} {a : α} (h : onLog x s = (.ok a, s')) :
    x s.log = (.ok a, s'.log) := by
  have hresult : ((onLog x s).1, (onLog x s).2.log) = x s.log := rfl
  rw [← hresult, h]

theorem loadDirFull_eq_ok {ta : TaId} {dir : List ObjectMeta × List FileRef}
    (h : loadDirFull P ta s = (.ok dir, s')) :
    ∃ x, s'.log = .decrypted x :: s.log ∧ x.key = P.derive ta .dir ∧ parseDir x.pt = .ok dir := by
  obtain ⟨blob, s1, hread, hopen⟩ := bind_eq_ok h
  have hlog := onFs_eq_ok (mapErr_eq_ok hread)
  obtain ⟨nonce, ct, tag, pt, hparse, hlog'⟩ := openDir_eq_ok (onLog_eq_ok hopen)
  rw [hlog] at hlog'
  exact ⟨_, hlog', rfl, hparse⟩

variable (ta : TaId)

/-- The vectors of a loaded directory are parallel, and its ids fit their length byte. -/
theorem loadDirFull_returns :
    Returns (fun dir => dir.1.length = dir.2.length ∧
      ∀ e ∈ dir.1, e.objectId.length ≤ 255) (loadDirFull P ta) := by
  intro s dir s' hrun
  obtain ⟨x, -, -, hparse⟩ := loadDirFull_eq_ok hrun
  obtain ⟨hlen, -, -, hids⟩ := parseDir_ok hparse
  exact ⟨hlen, hids⟩

theorem open_returns (objectId : Bytes) :
    Returns (fun h => h.ta = ta ∧ h.objectId = objectId) (open_ P ta objectId) := by
  intro s h s' hrun
  obtain ⟨dir, s1, -, hrun⟩ := bind_eq_ok hrun
  obtain ⟨i, s2, -, hrun⟩ := bind_eq_ok hrun
  obtain ⟨file, s3, -, hrun⟩ := bind_eq_ok hrun
  obtain ⟨blob, s4, -, hrun⟩ := bind_eq_ok hrun
  obtain ⟨e, s5, -, hrun⟩ := bind_eq_ok hrun
  obtain ⟨wrap, body, -, -, -, -, -, -, hh⟩ := decryptObject_eq_ok (onLog_eq_ok hrun)
  rw [hh]
  exact ⟨rfl, rfl⟩

theorem create_returns (objectId : Bytes) (flags : UInt32) (data : Bytes) :
    Returns (fun h => h.ta = ta ∧ h.objectId = objectId) (create P ta objectId flags data) := by
  intro s h s' hrun
  rw [create] at hrun
  split at hrun
  · cases hrun
  · obtain ⟨_, s1, -, hrun⟩ := bind_eq_ok hrun
    obtain ⟨_, s2, -, hrun⟩ := bind_eq_ok hrun
    obtain ⟨dir, s3, -, hrun⟩ := bind_eq_ok hrun
    simp only at hrun
    split at hrun
    · cases hrun
    · obtain ⟨fileId, s4, -, hrun⟩ := bind_eq_ok hrun
      obtain ⟨_, s5, -, hrun⟩ := bind_eq_ok hrun
      obtain ⟨_, s6, -, hrun⟩ := bind_eq_ok hrun
      cases hrun
      exact ⟨rfl, rfl⟩

theorem loadDir_returns :
    Returns (fun entries => ∀ e ∈ entries, e.objectId.length ≤ 255) (loadDir P ta) := by
  refine (loadDirFull_returns ta).bind fun dir hdir => ?_
  exact returns_pure hdir.2

end Loads

/-- The rest of `rename`, once the object is open under its old id. -/
def renameAs (P : Platform ε φ) (ta : TaId) (old new : Bytes) (h : ObjectHandle) :
    StoreM ε φ Unit := do
  let h := { h with objectId := new, objVersion := h.objVersion + 1 }
  writeObject P h
  delete P ta old
  let dir ← toOption (loadDir P ta)
  let entries := dir.getD []
  storeDir P ta (entries ++ [⟨new, h.flags, UInt64.ofNat h.data.length⟩]) [(h.fileId, h.objVersion)]

theorem rename_eq (P : Platform ε φ) (ta : TaId) (old new : Bytes) :
    rename P ta old new = open_ P ta old >>= renameAs P ta old new := rfl

/-! ### The operations -/

namespace Parts

variable {P : Platform ε φ} {G : Judgement ε φ} {ta : TaId} {ok : Bytes → Prop}
  (W : Parts P G ta ok)
include W

variable {α : Type}

/-- A sequence whose second part does not depend on what the first returns. -/
theorem seq {β : Type} {x : StoreM ε φ α} {f : α → StoreM ε φ β} (hx : G α x)
    (hf : ∀ a, G β (f a)) : G β (x >>= f) := by
  apply W.bind (Q := fun _ => True) hx
  · intro s a s' _
    trivial
  · intro a _
    exact hf a

theorem pure (a : α) : G α (Pure.pure a) := W.lift (r := .ok a) (by simp)

theorem raise (e : StorageError) : G α (raise e) := W.lift (by simp)

theorem lift_ok {Q : α → Prop} {β : Type} {r : Fallible StorageError α}
    {f : α → StoreM ε φ β} (hr : r ≠ .panic) (hq : ∀ a, r = .ok a → Q a)
    (hf : ∀ a, Q a → G β (f a)) : G β (Attempt.lift r >>= f) :=
  W.bind (W.lift hr) (returns_lift hq) hf

theorem loadDir : G _ (loadDir P ta) := by
  apply W.seq W.load
  intro dir
  exact W.pure _

theorem storeDir {entries : List ObjectMeta} (extra : List FileRef)
    (h : ∀ e ∈ entries, ok e.objectId) : G _ (storeDir P ta entries extra) := by
  apply W.seq (W.toOption W.load)
  intro existing
  exact W.store entries _ h

theorem ok_append {dir : Option (List ObjectMeta)} {e : ObjectMeta}
    (hdir : ∀ entries, dir = some entries → ∀ e ∈ entries, e.objectId.length ≤ 255)
    (he : ok e.objectId) : ∀ e' ∈ dir.getD [] ++ [e], ok e'.objectId := by
  intro e' he'
  rcases mem_append.mp he' with hold | hnew
  · cases dir with
    | none => cases hold
    | some entries => exact W.loads _ (hdir entries rfl e' hold)
  · rw [mem_singleton.mp hnew]
    exact he

theorem upsertDir (hta : h.ta = ta) (hid : ok h.objectId) : G _ (upsertDir P h) := by
  subst hta
  apply W.bind (W.toOption W.load) (loadDirFull_returns h.ta).toOption
  intro dir hdir
  obtain ⟨hlen, hids⟩ : (dir.getD ([], [])).1.length = (dir.getD ([], [])).2.length ∧
      ∀ e ∈ (dir.getD ([], [])).1, ok e.objectId := by
    cases dir with
    | none => simp
    | some dir => exact ⟨(hdir dir rfl).1, fun e he => W.loads _ ((hdir dir rfl).2 e he)⟩
  simp only
  cases hidx : (dir.getD ([], [])).1.findIdx? (fun e => e.objectId = h.objectId) with
  | none =>
    apply W.store
    intro e he
    rcases mem_append.mp he with hold | hnew
    · exact hids e hold
    · rw [mem_singleton.mp hnew]
      exact hid
  | some =>
    obtain ⟨hi, -⟩ := findIdx?_eq_some_iff_getElem.mp hidx
    apply W.lift_ok (index_ne_panic hi) (fun e he => mem_of_index he)
    intro e he
    apply W.lift_ok (assign_ne_panic hi) (fun v hv => mem_of_assign hv)
    intro entries hentries
    apply W.seq (W.lift (assign_ne_panic (hlen ▸ hi)))
    intro files
    apply W.store
    intro e' he'
    rcases hentries e' he' with rfl | hold
    · exact hids e he
    · exact hids e' hold

/-- `open` also reads and decrypts an object file. -/
theorem open_ (hread : ∀ fileId, G _ (mapErr .corrupt (onFs (P.fs.read (objPath ta fileId)))))
    (hdecrypt : ∀ fileId objectId flags objVersion blob,
      G _ (onLog (decryptObject P ta fileId objectId flags objVersion blob)))
    (objectId : Bytes) : G _ (open_ P ta objectId) := by
  apply W.bind W.load (loadDirFull_returns ta)
  rintro ⟨entries, files⟩ ⟨hlen, -⟩
  apply W.lift_ok (ofOption_ne_panic _ _) (fun i hi => lt_of_position hi)
  intro i hi
  apply W.seq (W.lift (index_ne_panic (hlen ▸ hi)))
  intro file
  apply W.seq (hread file.1)
  intro blob
  apply W.seq (W.lift (index_ne_panic hi))
  intro e
  exact hdecrypt _ _ _ _ _

theorem delete (objectId : Bytes) : G _ (delete P ta objectId) := by
  apply W.bind W.load (loadDirFull_returns ta)
  rintro ⟨entries, files⟩ ⟨hlen, hids⟩
  apply W.lift_ok (ofOption_ne_panic _ _) (fun i hi => lt_of_position hi)
  intro i hi
  apply W.seq (W.lift (index_ne_panic (hlen ▸ hi)))
  intro file
  apply W.seq (W.toOption (W.remove file.1))
  intro _
  apply W.lift_ok (remove_ne_panic hi) (fun v hv => mem_of_remove hv)
  intro entries' hentries
  apply W.seq (W.lift (remove_ne_panic (hlen ▸ hi)))
  intro files'
  apply W.store
  intro e he
  exact W.loads _ (hids e (hentries e he))

end Parts

namespace Walk

variable {P : Platform ε φ} {G : Judgement ε φ} {ta : TaId} {ok : Bytes → Prop}
  (W : Walk P G ta ok)
include W

theorem storeHandle (hta : h.ta = ta) (hid : ok h.objectId) : G _ (storeHandle P h) := by
  apply W.seq (W.object h hta hid)
  intro _
  exact W.upsertDir hta hid

theorem create {objectId : Bytes} (hid : ok objectId) (flags : UInt32) (data : Bytes) :
    G _ (create P ta objectId flags data) := by
  rw [Storage.create]
  split
  · exact W.raise _
  · apply W.seq (W.toOption (W.mkdir _ (Or.inl rfl)))
    intro _
    apply W.seq (W.toOption (W.mkdir _ (Or.inr rfl)))
    intro _
    apply W.bind (W.toOption W.loadDir) (loadDir_returns ta).toOption
    intro dir hdir
    simp only
    split
    · exact W.raise _
    · apply W.seq W.fill
      intro fileId
      apply W.seq (W.object _ rfl hid)
      intro _
      apply W.seq (W.storeDir _ (W.ok_append hdir hid))
      intro _
      exact W.pure _

/-- The rest of `rename`, for an object of the trusted application. -/
theorem renameAs (old : Bytes) {new : Bytes} (hid : ok new) (hta : h.ta = ta) :
    G _ (renameAs P ta old new h) := by
  apply W.seq (W.object { h with objectId := new, objVersion := h.objVersion + 1 } hta hid)
  intro _
  apply W.seq (W.delete old)
  intro _
  apply W.bind (W.toOption W.loadDir) (loadDir_returns ta).toOption
  intro dir hdir
  exact W.storeDir _ (W.ok_append hdir hid)

theorem rename (old : Bytes) {new : Bytes} (hid : ok new) (hopen : G _ (Storage.open_ P ta old)) :
    G _ (rename P ta old new) := by
  rw [rename_eq]
  apply W.bind hopen (open_returns ta old)
  intro h hh
  exact W.renameAs old hid hh.1

end Walk

/-! ### Frames -/

def keepsOf (F : Frame (ReeFs ε φ)) : Judgement ε φ := fun _ x => Keeps F x

section Frames

variable {P : Platform ε φ} {F : Frame (ReeFs ε φ)} {ok : Bytes → Prop}

theorem parts_of_keeps {ta : TaId} (loads : ∀ id, id.length ≤ 255 → ok id)
    (remove : ∀ fileId, Keeps F (onFs (P.fs.delete (objPath ta fileId)) : StoreM ε φ Unit))
    (load : Keeps F (loadDirFull P ta))
    (store : ∀ entries files, (∀ e ∈ entries, ok e.objectId) →
      Keeps F (storeDirFull P ta entries files)) : Parts P (keepsOf F) ta ok where
  loads := loads
  lift := fun _ => keeps_lift _
  bind := fun hx hr hf s => rel_bind (hx s) fun a s' hrun => hf a (hr s a s' hrun) s'
  toOption := fun hx => Keeps.toOption hx
  remove := remove
  load := load
  store := store

/-- The request is about trusted applications in `T` and writes ids that are `ok`. -/
def Request.Within (T : TaId → Prop) (ok : Bytes → Prop) : Request → Prop
  | .create ta objectId _ _ => T ta ∧ ok objectId
  | .list ta => T ta
  | .open_ ta objectId => T ta ∧ ok objectId
  | .write _ _ _ => True
  | .truncate _ _ => True
  | .delete ta _ => T ta
  | .rename ta _ new => T ta ∧ ok new

/-- The handles are on objects of `T` with ids that are `ok`. -/
def HandlesOn (T : TaId → Prop) (ok : Bytes → Prop) (c : Client ε φ) : Prop :=
  ∀ h ∈ c.handles, T h.ta ∧ ok h.objectId

variable {T : TaId → Prop} {c : Client ε φ}

theorem grant_keeps {x : StoreM ε φ ObjectHandle} (hx : Keeps F x)
    (hr : Returns (fun h => T h.ta ∧ ok h.objectId) x) (hc : HandlesOn T ok c) :
    F.rel c.store (c.grant x).2.store ∧ HandlesOn T ok (c.grant x).2 := by
  have hstore := hx c.store
  rw [Client.grant]
  rcases hrun : x c.store with ⟨r, s⟩
  rw [hrun] at hstore
  cases r with
  | ok h =>
    refine ⟨hstore, ?_⟩
    intro h' hh'
    rcases mem_append.mp hh' with hold | hnew
    · exact hc h' hold
    · rw [mem_singleton.mp hnew]
      exact hr c.store h s hrun
  | err | panic => exact ⟨hstore, hc⟩

theorem edit_keeps {α : Type} (edit : ObjectHandle → Fallible StorageError ObjectHandle)
    {x : ObjectHandle → ReeFs ε φ → Fallible StorageError α × ObjectHandle × ReeFs ε φ}
    (hx : ∀ h s, (x h s).2 = (through P h (edit h) s).2)
    (hedit : ∀ h h', edit h = .ok h' → Edited h h')
    (hstore : ∀ h : ObjectHandle, T h.ta → ok h.objectId → Keeps F (storeHandle P h))
    (hc : HandlesOn T ok c) (i : Nat) (answer : α → Answer) :
    F.rel c.store (c.edit i x answer).2.store ∧ HandlesOn T ok (c.edit i x answer).2 := by
  rw [Client.edit]
  cases hi : c.handles[i]? with
  | none => exact ⟨F.refl _, hc⟩
  | some h =>
    obtain ⟨hta, hid⟩ := hc h (mem_of_getElem? hi)
    obtain ⟨hrel, hkept⟩ : F.rel c.store (through P h (edit h) c.store).2.2 ∧
        T (through P h (edit h) c.store).2.1.ta ∧
        ok (through P h (edit h) c.store).2.1.objectId := by
      cases hh : edit h with
      | err | panic => exact ⟨F.refl _, hta, hid⟩
      | ok h' =>
        obtain ⟨data, rfl⟩ := hedit h h' hh
        exact ⟨hstore { h with data := data, objVersion := h.objVersion + 1 } hta hid c.store,
          hta, hid⟩
    simp only [hx]
    refine ⟨hrel, ?_⟩
    intro h' hh'
    rcases mem_or_eq_of_mem_set hh' with hold | rfl
    · exact hc h' hold
    · exact hkept

section

variable (W : ∀ ta, T ta → Walk P (keepsOf F) ta ok)
  (hopen : ∀ ta, T ta → ∀ objectId, Keeps F (open_ P ta objectId)) (hc : HandlesOn T ok c)
include W hopen hc

theorem serve_keeps {r : Request} (hr : r.Within T ok) :
    F.rel c.store (c.serve P r).2.store ∧ HandlesOn T ok (c.serve P r).2 := by
  have hstore : ∀ h : ObjectHandle, T h.ta → ok h.objectId → Keeps F (storeHandle P h) :=
    fun h hta hid => (W h.ta hta).storeHandle rfl hid
  cases r with
  | create ta objectId flags data =>
    apply grant_keeps ((W ta hr.1).create hr.2 flags data) _ hc
    intro s h s' hrun
    obtain ⟨hta, hid⟩ := create_returns ta objectId flags data s h s' hrun
    rw [hta, hid]
    exact hr
  | list ta => exact ⟨(W ta hr).loadDir c.store, hc⟩
  | open_ ta objectId =>
    apply grant_keeps (hopen ta hr.1 objectId) _ hc
    intro s h s' hrun
    obtain ⟨hta, hid⟩ := open_returns ta objectId s h s' hrun
    rw [hta, hid]
    exact hr
  | write i off buf =>
    apply edit_keeps (fun h => writeEdit P h off buf) _ (fun h _ => writeEdit_eq_ok P h) hstore hc
    intro h s
    rfl
  | truncate i size =>
    apply edit_keeps (fun h => truncateEdit h size) _ (fun h _ => truncateEdit_eq_ok h) hstore hc
    intro h s
    rfl
  | delete ta objectId => exact ⟨(W ta hr).delete objectId c.store, hc⟩
  | rename ta old =>
    exact ⟨(W ta hr.1).rename old hr.2 (hopen ta hr.1 old) c.store, hc⟩

theorem run_keeps {rs : List Request} (hrs : ∀ r ∈ rs, r.Within T ok) :
    F.rel c.store (c.run P rs).store ∧ HandlesOn T ok (c.run P rs) := by
  induction rs generalizing c with
  | nil => exact ⟨F.refl _, hc⟩
  | cons r rs ih =>
    obtain ⟨hrel, hkept⟩ := serve_keeps W hopen hc (hrs r mem_cons_self)
    obtain ⟨hrest, hend⟩ := ih hkept fun r' hr' => hrs r' (mem_cons_of_mem _ hr')
    exact ⟨F.trans hrel hrest, hend⟩

end

end Frames

end Rustee.Storage
