import Rustee.StorageHostile

/-!
# A directory that exists and cannot be loaded

The file system is any that answers, and it may answer each read in its own way. `open`, `list`
and `delete` pass the failure of a load on. `create`, `write`, `truncate`, and `rename` once it has
deleted the old id, take an empty directory instead and write a new one over the old, unless
something else makes them fail first.
-/

namespace Rustee.Storage

open Attempt Client List

/-! ### What happens to `dir.v1` -/

inductive DirEvent where
  /-- It was read and loads. -/
  | loaded
  /-- The file system has no such file. -/
  | absent
  /-- It cannot be read, its HMAC or its tag does not check, or it does not parse. -/
  | failed
  /-- It was written or deleted. -/
  | changed
  /-- The file system refused to write it. -/
  | refused
  /-- The file system refused to write an object file. -/
  | objectRefused
deriving DecidableEq

abbrev Noted (ε φ α : Type) := StoreM ε (φ × List FsCall) α

abbrev Outcome (α : Type) := Fallible StorageError α → List DirEvent → Prop

variable {ε φ α β : Type} (P : Platform ε φ) (ta : TaId) {done : List DirEvent}

def loadEvent : Fallible StorageError Bytes → DirEvent
  | .ok blob =>
    match dirOf P ta blob with
    | .ok _ => .loaded
    | _ => .failed
  | .err .notFound => .absent
  | _ => .failed

/-- A refused `write` is followed by a `create`, which says how it ends. -/
def dirEvent : FsCall → Option DirEvent
  | .read path answer => if path = dirPath ta then some (loadEvent P ta answer) else none
  | .create path answer =>
    if path = dirPath ta then some (if answer = .ok () then .changed else .refused)
    else if answer = .ok () then none else some .objectRefused
  | .write path answer | .delete path answer =>
    if path = dirPath ta ∧ answer = .ok () then some .changed else none
  | .mkdir _ _ => none

/-- However `x` ends, its result and what it has done about the directory are in `Q`. -/
def Traces (x : Noted ε φ α) (Q : Outcome α) : Prop :=
  ∀ s, ∃ calls, (x s).2.fs.2 = s.fs.2 ++ calls ∧ Q (x s).1 (calls.filterMap (dirEvent P ta))

section Rules

variable {P ta} {x : Noted ε φ α} {f : α → Noted ε φ β} {Q : Outcome α} {R : Outcome β}

theorem Traces.bind (hx : Traces P ta x Q)
    (hok : ∀ a t, Q (.ok a) t → Traces P ta (f a) fun r t' => R r (t ++ t'))
    (herr : ∀ e t, Q (.err e) t → R (.err e) t) (hpanic : ∀ t, Q .panic t → R .panic t) :
    Traces P ta (x >>= f) R := by
  intro s
  obtain ⟨calls, hcalls, hQ⟩ := hx s
  rcases hrun : x s with ⟨r, s'⟩
  rw [hrun] at hcalls hQ
  cases r with
  | ok a =>
    obtain ⟨calls', hcalls', hR⟩ := hok a _ hQ s'
    rw [bind_of_ok hrun]
    refine ⟨calls ++ calls', ?_, ?_⟩
    · rw [hcalls', hcalls, append_assoc]
    · rw [filterMap_append]
      exact hR
  | err e =>
    rw [bind_of_err hrun]
    exact ⟨calls, hcalls, herr e _ hQ⟩
  | panic =>
    rw [bind_of_panic hrun]
    exact ⟨calls, hcalls, hpanic _ hQ⟩

/-- A first part that always succeeds. -/
theorem Traces.bind_ok {Q : α → List DirEvent → Prop}
    (hx : Traces P ta x fun r t => ∃ a, r = .ok a ∧ Q a t)
    (hf : ∀ a t, Q a t → Traces P ta (f a) fun r t' => R r (t ++ t')) :
    Traces P ta (x >>= f) R := by
  refine hx.bind ?_ ?_ ?_
  · rintro _ t ⟨_, ⟨⟩, hQ⟩
    exact hf _ t hQ
  · simp
  · simp

theorem Traces.after (hx : Traces P ta x fun r t => ∃ a, r = .ok a ∧ t = [])
    (hf : ∀ a, Traces P ta (f a) R) : Traces P ta (x >>= f) R :=
  hx.bind_ok fun a _ h => h ▸ hf a

theorem Traces.mono {R : Outcome α} (hx : Traces P ta x Q) (h : ∀ {r t}, Q r t → R r t) :
    Traces P ta x R := by
  intro s
  obtain ⟨calls, hcalls, hQ⟩ := hx s
  exact ⟨calls, hcalls, h hQ⟩

theorem traces_lift {r : Fallible StorageError α} (h : Q r []) : Traces P ta (lift r) Q :=
  fun _ => ⟨[], (append_nil _).symm, h⟩

end Rules

/-! ### The parts -/

/-- What is taken for the directory after a load. -/
inductive LoadsTo : Option (List ObjectMeta × List FileRef) → DirEvent → Prop
  | loaded {dir} : dir.1.length = dir.2.length → LoadsTo (some dir) .loaded
  | absent : LoadsTo none .absent
  | failed : LoadsTo none .failed

/-- A file is put, with the events `change`, or refused. -/
inductive Puts (change : List DirEvent) (refusal : DirEvent) : Outcome Unit
  | ok : Puts change refusal (.ok ()) change
  | refused (e) : Puts change refusal (.err e) [refusal]

/-- A file is put, and the directory on top of what a load gave, whatever that was. -/
inductive Stores : Outcome α
  | stored (a) {dir l} : LoadsTo dir l → Stores (.ok a) [l, .changed]
  | refused (e) {dir l} : LoadsTo dir l → Stores (.err e) [l, .refused]
  | objectRefused (e) : Stores (.err e) [.objectRefused]

theorem toOption_loadDir_bind {f : Option (List ObjectMeta) → StoreM ε φ β} :
    (toOption (loadDir P ta) >>= f) =
      (toOption (loadDirFull P ta) >>= fun dir => f (dir.map Prod.fst)) := by
  funext s
  rw [bind_apply, bind_apply, toOption, toOption, loadDir, bind_apply]
  rcases loadDirFull P ta s with ⟨r, s'⟩
  cases r with
  | ok | err | panic => rfl

section Parts

variable {P ta} (hfs : P.fs.Answers)
include hfs

theorem traces_load : Traces P ta (loadDirFull P.noted ta) fun r t =>
    ∃ dir l, r.toOption = .ok dir ∧ t = [l] ∧ LoadsTo dir l := by
  intro s
  have hanswers := hfs.read (dirPath ta) s.fs.1
  have hread : onFs (P.noted.fs.read (dirPath ta)) s = ((P.fs.read (dirPath ta) s.fs.1).1,
      { s with fs := ((P.fs.read (dirPath ta) s.fs.1).2,
        s.fs.2 ++ [.read (dirPath ta) (P.fs.read (dirPath ta) s.fs.1).1]) }) := rfl
  generalize P.fs.read (dirPath ta) s.fs.1 = run at hanswers hread
  obtain ⟨answer, fs⟩ := run
  refine ⟨[.read (dirPath ta) answer], ?_⟩
  simp only [filterMap_cons, dirEvent, if_true, filterMap_nil]
  rw [loadDirFull]
  cases answer with
  | panic => exact absurd rfl hanswers
  | err e =>
    rw [bind_of_err (mapErr_of_err hread)]
    refine ⟨rfl, none, _, rfl, rfl, ?_⟩
    cases e <;> constructor
  | ok blob =>
    rw [bind_of_ok (mapErr_of_ok hread)]
    obtain ⟨log, hopen⟩ := onLog_openDir P.noted ta blob _
    rw [hopen, show dirOf P.noted ta blob = dirOf P ta blob from rfl]
    refine ⟨rfl, ?_⟩
    rw [loadEvent]
    cases hdir : dirOf P ta blob with
    | ok dir =>
      obtain ⟨pt, hparse⟩ := dirOf_eq_ok hdir
      exact ⟨some dir, _, rfl, rfl, .loaded (parseDir_ok hparse).1⟩
    | err => exact ⟨none, _, rfl, rfl, .failed⟩
    | panic => exact absurd hdir (dirOf_ne_panic ta blob)

theorem traces_default : Traces P ta (toOption (loadDirFull P.noted ta)) fun r t =>
    ∃ dir, r = .ok dir ∧ ∃ l, t = [l] ∧ LoadsTo dir l := by
  intro s
  obtain ⟨calls, hcalls, dir, l, hdir, ht, hl⟩ := traces_load hfs s
  exact ⟨calls, hcalls, dir, hdir, l, ht, hl⟩

/-- One `write`, and one `create` if it is refused. -/
theorem traces_putFile (ta : TaId) (path : Path) (blob : Bytes) :
    Traces P ta (putFile P.noted path blob) (Puts (if path = dirPath ta then [.changed] else [])
      (if path = dirPath ta then .refused else .objectRefused)) := by
  intro s
  have hwrite := hfs.write path blob s.fs.1
  have hrun : onFs (P.noted.fs.write path blob) s = ((P.fs.write path blob s.fs.1).1,
      { s with fs := ((P.fs.write path blob s.fs.1).2,
        s.fs.2 ++ [.write path (P.fs.write path blob s.fs.1).1]) }) := rfl
  rw [putFile]
  generalize P.fs.write path blob s.fs.1 = run at hwrite hrun
  obtain ⟨answer, fs⟩ := run
  cases answer with
  | panic => exact absurd rfl hwrite
  | ok =>
    rw [orElse_of_ok hrun]
    refine ⟨[.write path (.ok ())], rfl, ?_⟩
    split <;> simp [dirEvent, *] <;> constructor
  | err e =>
    have hcreate := hfs.create path blob fs
    rw [orElse_of_err hrun]
    refine ⟨[.write path (.err e), .create path (P.fs.create path blob fs).1], ?_, ?_⟩
    · exact append_assoc _ _ _
    · show Puts _ _ (P.fs.create path blob fs).1 _
      cases hcreated : (P.fs.create path blob fs).1 with
      | panic => exact absurd hcreated hcreate
      | ok | err => split <;> simp [dirEvent, *] <;> constructor

theorem traces_object (h : ObjectHandle) :
    Traces P ta (writeObject P.noted h) (Puts [] .objectRefused) := by
  intro s
  have hput := traces_putFile hfs ta (objPath h.ta h.fileId)
  rw [if_neg (objPath_ne_dirPath _ _ _), if_neg (objPath_ne_dirPath _ _ _)] at hput
  exact hput _ ⟨_, s.fs, _⟩

theorem traces_store (entries : List ObjectMeta) (files : List FileRef) :
    Traces P ta (storeDirFull P.noted ta entries files) (Puts [.changed] .refused) := by
  intro s
  have hput := traces_putFile hfs ta (dirPath ta)
  rw [if_pos rfl, if_pos rfl] at hput
  exact hput _ ⟨_, s.fs, _⟩

/-! ### The operations that store -/

theorem traces_rewrite {dir} {l : DirEvent} (hl : LoadsTo dir l) (entries : List ObjectMeta)
    (files : List FileRef) : Traces P ta (storeDirFull P.noted ta entries files)
      fun r t => Stores r ([l] ++ t) := by
  refine (traces_store hfs entries files).mono fun h => ?_
  cases h with
  | ok => exact .stored () hl
  | refused e => exact .refused e hl

theorem traces_storeDir (entries : List ObjectMeta) (extra : List FileRef) :
    Traces P ta (storeDir P.noted ta entries extra) Stores := by
  refine (traces_default hfs).bind_ok ?_
  rintro dir _ ⟨l, rfl, hl⟩
  exact traces_rewrite hfs hl _ _

theorem traces_upsertDir (h : ObjectHandle) : Traces P h.ta (upsertDir P.noted h) Stores := by
  refine (traces_default hfs).bind_ok ?_
  rintro dir _ ⟨l, rfl, hl⟩
  have hlen : (dir.getD ([], [])).1.length = (dir.getD ([], [])).2.length := by
    cases hl with
    | loaded hlen => exact hlen
    | absent | failed => rfl
  simp only
  cases hidx : (dir.getD ([], [])).1.findIdx? (fun e => e.objectId = h.objectId) with
  | none => exact traces_rewrite hfs hl _ _
  | some i =>
    obtain ⟨hi, -⟩ := findIdx?_eq_some_iff_getElem.mp hidx
    simp only [index_eq_ok (getElem?_eq_getElem hi), assign, if_pos hi, if_pos (hlen ▸ hi),
      lift_ok_bind]
    exact traces_rewrite hfs hl _ _

/-- A program that puts an object file first. -/
theorem traces_object_first (h : ObjectHandle) {f : Unit → Noted ε φ α}
    (hf : Traces P ta (f ()) Stores) : Traces P ta (writeObject P.noted h >>= f) Stores := by
  refine (traces_object hfs h).bind ?_ ?_ nofun
  · rintro _ _ ⟨⟩
    exact hf
  · rintro e _ ⟨⟩
    exact .objectRefused e

theorem traces_storeHandle (h : ObjectHandle) : Traces P h.ta (storeHandle P.noted h) Stores :=
  traces_object_first hfs h (traces_upsertDir hfs h)

theorem traces_mkdir (path : Path) :
    Traces P ta (toOption (onFs (P.noted.fs.mkdir path))) fun r t => ∃ a, r = .ok a ∧ t = [] := by
  intro s
  have hmkdir := hfs.mkdir path s.fs.1
  refine ⟨[.mkdir path (P.fs.mkdir path s.fs.1).1], rfl, ?_⟩
  show ∃ a, (P.fs.mkdir path s.fs.1).1.toOption = .ok a ∧ _
  cases h : (P.fs.mkdir path s.fs.1).1 with
  | ok | err => exact ⟨_, rfl, rfl⟩
  | panic => exact absurd h hmkdir

/-- There is an object with the id, or a directory is created or added to. -/
inductive Creates : Outcome ObjectHandle
  | taken (e) : Creates (.err e) [.loaded]
  | stores {dir l r t} : LoadsTo dir l → Stores r t → Creates r (l :: t)

theorem traces_create {objectId : Bytes} (flags : UInt32) {data : Bytes}
    (hdata : ¬ MAX_OBJECT < data.length) :
    Traces P ta (create P.noted ta objectId flags data) Creates := by
  rw [create, if_neg hdata]
  refine (traces_mkdir hfs _).after fun _ => (traces_mkdir hfs _).after fun _ => ?_
  rw [toOption_loadDir_bind]
  refine (traces_default hfs).bind_ok ?_
  rintro dir _ ⟨l, rfl, hl⟩
  simp only
  split
  · cases hl with
    | loaded => exact traces_lift (.taken _)
    | absent | failed => contradiction
  · refine Traces.after (fun _ => ⟨[], (append_nil _).symm, _, rfl, rfl⟩) fun fileId => ?_
    refine (traces_object_first hfs _ ?_).mono fun hr => .stores hl hr
    refine (traces_storeDir hfs _ _).bind ?_ ?_ (by rintro _ ⟨⟩)
    · rintro _ _ ⟨_, hl⟩
      exact traces_lift (.stored _ hl)
    · intro e _ hr
      cases hr with
      | refused _ hl => exact .refused e hl
      | objectRefused => exact .objectRefused e

/-! ### The operations that only load -/

/-- The failure of a load is passed on; after one that succeeds no other fails, and a call that
returns `Ok` has done `done`. -/
inductive Passes (done : List DirEvent) : Outcome α
  | ok (a) : Passes done (.ok a) (.loaded :: done)
  | failed (e) : Passes done (.err e) [.failed]
  | fine {r t} : (∀ a, r ≠ .ok a) → .failed ∉ t → .loaded ∈ t ∨ .absent ∈ t → Passes done r t

/-- What may follow a load for that. -/
def Ends (done : List DirEvent) : Outcome α := fun r t =>
  (∃ a, r = .ok a ∧ t = done) ∨ (∀ a, r ≠ .ok a) ∧ .failed ∉ t

theorem traces_strict {f : List ObjectMeta × List FileRef → Noted ε φ α}
    (hf : ∀ dir, Traces P ta (f dir) (Ends done)) :
    Traces P ta (loadDirFull P.noted ta >>= f) (Passes done) := by
  refine (traces_load hfs).bind ?_ ?_ nofun
  · rintro dir _ ⟨_, l, ⟨⟩, rfl, ⟨⟩⟩
    refine (hf dir).mono fun h => ?_
    rcases h with ⟨a, rfl, rfl⟩ | ⟨hne, hnone⟩
    · exact .ok a
    · exact .fine hne (by simpa using hnone) (by simp)
  · rintro e _ ⟨_, l, ⟨⟩, rfl, hl⟩
    cases hl with
    | absent => exact .fine (by simp) (by simp) (by simp)
    | failed => exact .failed e

section Silent

omit hfs

variable {x : Noted ε φ α} (hx : Traces P ta x fun _ t => t = [])
include hx

theorem Traces.then {f : α → Noted ε φ β}
    (hf : ∀ a, Traces P ta (f a) (Ends done)) : Traces P ta (x >>= f) (Ends done) := by
  refine hx.bind ?_ ?_ ?_
  · rintro a _ rfl
    exact hf a
  · rintro e _ rfl
    exact .inr (by simp)
  · rintro _ rfl
    exact .inr (by simp)

theorem Traces.last : Traces P ta x (Ends []) := by
  refine hx.mono fun {r t} h => ?_
  rw [h]
  cases r with
  | ok a => exact .inl ⟨a, rfl, rfl⟩
  | err | panic => exact .inr (by simp)

end Silent

omit hfs in
theorem traces_silent (r : Fallible StorageError α) : Traces P ta (lift r) fun _ t => t = [] :=
  traces_lift rfl

theorem traces_open (objectId : Bytes) : Traces P ta (open_ P.noted ta objectId) (Passes []) := by
  have hread : ∀ fileId, Traces P ta (mapErr .corrupt (onFs (P.noted.fs.read (objPath ta fileId))))
      fun _ t => t = [] := by
    intro fileId s
    refine ⟨[.read (objPath ta fileId) (P.fs.read (objPath ta fileId) s.fs.1).1], ?_, ?_⟩
    · rw [mapErr]
      rcases h : onFs (P.noted.fs.read (objPath ta fileId)) s with ⟨r, s'⟩
      have hs : s'.fs.2 = _ := congrArg (·.2.fs.2) h.symm
      cases r <;> exact hs
    · simp [dirEvent, objPath_ne_dirPath]
  refine traces_strict hfs fun dir => (traces_silent _).then fun i => (traces_silent _).then
    fun file => (hread file.1).then fun blob => (traces_silent _).then fun e => ?_
  exact Traces.last fun _ => ⟨[], (append_nil _).symm, rfl⟩

theorem traces_list : Traces P ta (list P.noted ta) (Passes []) :=
  traces_strict hfs fun _ => (traces_silent _).last

theorem traces_delete (objectId : Bytes) :
    Traces P ta (delete P.noted ta objectId) (Passes [.changed]) := by
  have hdelete : ∀ fileId, Traces P ta (toOption (onFs (P.noted.fs.delete (objPath ta fileId))))
      fun _ t => t = [] := fun fileId s =>
    ⟨[.delete (objPath ta fileId) (P.fs.delete (objPath ta fileId) s.fs.1).1], rfl,
      by simp [dirEvent, objPath_ne_dirPath]⟩
  refine traces_strict hfs fun dir => (traces_silent _).then fun i => (traces_silent _).then
    fun file => (hdelete file.1).then fun _ => (traces_silent _).then fun entries =>
      (traces_silent _).then fun files => ?_
  refine (traces_store hfs entries files).mono fun h => ?_
  cases h with
  | ok => exact .inl ⟨(), rfl, rfl⟩
  | refused => exact .inr (by simp)

/-- `rename`: up to the delete the failure of a load is passed on, and then it counts as an
empty directory. -/
inductive Renames : Outcome Unit
  | fine {r t} : .failed ∉ t → .loaded ∈ t ∨ .absent ∈ t → Renames r t
  | failed (e) : Renames (.err e) [.failed]
  | failedAgain (e) : Renames (.err e) [.loaded, .failed]
  | stores {dir l r t} : LoadsTo dir l → Stores r t →
      Renames r ([.loaded, .loaded, .changed, l] ++ t)

theorem traces_rename (old new : Bytes) : Traces P ta (rename P.noted ta old new) Renames := by
  refine (traces_open hfs old).bind (fun h t hopen => ?_) (fun e t hopen => ?_) (fun t hopen => ?_)
  · cases hopen with
    | fine hne => exact absurd rfl (hne h)
    | ok =>
      refine (traces_object hfs _).bind ?_ ?_ nofun
      · rintro _ _ ⟨⟩
        refine (traces_delete hfs old).bind (fun _ t hdel => ?_) (fun e t hdel => ?_)
          (fun t hdel => ?_)
        · cases hdel with
          | fine hne => exact absurd rfl (hne ())
          | ok =>
            rw [toOption_loadDir_bind]
            refine (traces_default hfs).bind_ok ?_
            rintro dir _ ⟨l, rfl, hl⟩
            exact (traces_storeDir hfs _ _).mono fun hr => .stores hl hr
        · cases hdel with
          | failed => exact .failedAgain e
          | fine _ hnone => exact .fine (by simpa using hnone) (by simp)
        · cases hdel with
          | fine _ hnone => exact .fine (by simpa using hnone) (by simp)
      · rintro e _ ⟨⟩
        exact .fine (by simp) (by simp)
  · cases hopen with
    | failed => exact .failed e
    | fine _ hnone hload => exact .fine hnone hload
  · cases hopen with
    | fine _ hnone hload => exact .fine hnone hload

end Parts

/-! ### Every request -/

/-- The request is an operation of the store on the objects of `ta`. -/
def Request.On (c : Client ε φ) (ta : TaId) : Request → Prop
  | .create ta' _ _ _ => ta' = ta
  | .list ta' => ta' = ta
  | .open_ ta' _ => ta' = ta
  | .write i _ _ => ∃ h, c.handles[i]? = some h ∧ h.ta = ta
  | .truncate i _ => ∃ h, c.handles[i]? = some h ∧ h.ta = ta
  | .delete ta' _ => ta' = ta
  | .rename ta' _ _ => ta' = ta

def Client.noted (c : Client ε φ) : Client ε (φ × List FsCall) := ⟨c.store.noted, c.handles⟩

/-- What the request does about the directory. -/
def dirTrace (c : Client ε φ) (r : Request) : List DirEvent :=
  (c.noted.serve P.noted r).2.store.fs.2.filterMap (dirEvent P ta)

/-- A load of the request fails; or it ends before any, and one would have failed where it
started (`bad`). -/
def Meets (bad : Prop) (t : List DirEvent) : Prop :=
  .failed ∈ t ∨ .loaded ∉ t ∧ .absent ∉ t ∧ bad

def MeetsBadDirectory (c : Client ε φ) (r : Request) : Prop :=
  Meets (loadEvent P ta (P.fs.read (dirPath ta) c.store.fs).1 = .failed) (dirTrace P ta c r)

/-- Somewhere `a` comes before `b`. -/
def Precedes (a b : DirEvent) : List DirEvent → Prop
  | [] => False
  | x :: t => x = a ∧ b ∈ t ∨ Precedes a b t

/-- An error is returned, and after a load that failed the directory is as it was: `torn` says
that a write may have changed the file also when the file system refuses it. -/
def Kept (torn : Bool) : Outcome α := fun r t =>
  (∃ e, r = .err e) ∧ ¬ Precedes .failed .changed t ∧ (torn = true → ¬ Precedes .failed .refused t)

def KeepsDirectory (torn : Bool) (c : Client ε φ) (r : Request) : Prop :=
  Kept torn (c.noted.serve P.noted r).1 (dirTrace P ta c r)

/-- The file system refuses the object file, or the directory with nothing changed. -/
def Refused (torn : Bool) (t : List DirEvent) : Prop :=
  .objectRefused ∈ t ∨ torn = false ∧ .refused ∈ t

/-- Something else than the directory makes the request fail: the object is too big, or the
file system refuses a file. The requests that only load with `?` need nothing else, nor does
`rename` when no load fails after its own delete. -/
def StopsFirst (torn : Bool) (c : Client ε φ) (r : Request) : Prop :=
  match r with
  | .create _ _ _ data => MAX_OBJECT < data.length ∨ Refused torn (dirTrace P ta c r)
  | .write _ off buf =>
    WriteTooBig P.build (off.toNat + buf.length) ∨ Refused torn (dirTrace P ta c r)
  | .truncate _ size => MAX_OBJECT < size.toNat ∨ Refused torn (dirTrace P ta c r)
  | .rename _ _ _ =>
    ¬ Precedes .changed .failed (dirTrace P ta c r) ∨ Refused torn (dirTrace P ta c r)
  | .list _ => True
  | .open_ _ _ => True
  | .delete _ _ => True

section Outcomes

variable {bad : Prop} {torn : Bool} {r : Fallible StorageError α} {t : List DirEvent}

theorem Stores.kept_iff (h : Stores r t) (hmeets : Meets bad t) :
    Kept torn r t ↔ Refused torn t := by
  cases h with
  | stored _ hl => cases hl <;> simp [Kept, Refused]
  | refused _ hl => cases hl <;> cases torn <;> simp_all [Kept, Refused, Precedes, Meets]
  | objectRefused => simp [Kept, Refused, Precedes]

theorem Creates.kept_iff {r : Fallible StorageError ObjectHandle} (h : Creates r t)
    (hmeets : Meets bad t) : Kept torn r t ↔ Refused torn t := by
  cases h with
  | taken => simp [Meets] at hmeets
  | stores hl h =>
    cases h with
    | stored _ hl' => cases hl <;> cases hl' <;> simp [Kept, Refused]
    | refused _ hl' =>
      cases hl <;> cases hl' <;> cases torn <;> simp_all [Kept, Refused, Precedes, Meets]
    | objectRefused => cases hl <;> simp_all [Kept, Refused, Precedes, Meets]

theorem Renames.kept_iff {r : Fallible StorageError Unit} (h : Renames r t)
    (hmeets : Meets bad t) :
    Kept torn r t ↔ ¬ Precedes .changed .failed t ∨ Refused torn t := by
  cases h with
  | fine hnone hload => simp_all [Meets]
  | failed | failedAgain => simp [Kept, Precedes]
  | stores hl h =>
    cases h with
    | stored _ hl' => cases hl <;> cases hl' <;> simp_all [Kept, Refused, Precedes, Meets]
    | refused _ hl' =>
      cases hl <;> cases hl' <;> cases torn <;> simp_all [Kept, Refused, Precedes, Meets]
    | objectRefused => cases hl <;> simp_all [Kept, Refused, Precedes, Meets]

theorem Passes.kept_iff (h : Passes done r t) (hdone : .failed ∉ done)
    (hmeets : Meets bad t) : Kept torn r t ↔ True := by
  cases h with
  | ok => simp_all [Meets]
  | failed => simp [Kept, Precedes]
  | fine _ hnone hload => simp_all [Meets]

end Outcomes

section Serve

variable {P ta} {c : Client ε φ} {torn : Bool} {r : Request} {R : Prop}

/-- The request runs `x` and answers with what it returns. -/
theorem keeps_iff {x : Noted ε φ α} {Q : Outcome α} (hx : Traces P ta x Q) (answer : α → Answer)
    (hserve : (c.noted.serve P.noted r).1 = (x c.store.noted).1 >>= fun a => .ok (answer a))
    (hstore : (c.noted.serve P.noted r).2.store = (x c.store.noted).2)
    (h : ∀ y, Q y (dirTrace P ta c r) → (Kept torn y (dirTrace P ta c r) ↔ R)) :
    KeepsDirectory P ta torn c r ↔ R := by
  obtain ⟨calls, hcalls, hQ⟩ := hx c.store.noted
  have htrace : dirTrace P ta c r = calls.filterMap (dirEvent P ta) := by
    rw [dirTrace, hstore, hcalls]
    rfl
  rw [← htrace] at hQ
  rw [← h _ hQ, KeepsDirectory, hserve]
  cases (x c.store.noted).1 <;> simp [Kept]

/-- A request that fails before it does anything. -/
theorem dirTrace_of_idle (hstore : (c.noted.serve P.noted r).2.store = c.store.noted) :
    dirTrace P ta c r = [] := by
  rw [dirTrace, hstore]
  rfl

theorem keeps_of_idle {o : Fallible StorageError Answer}
    (hserve : (c.noted.serve P.noted r).1 = o)
    (hstore : (c.noted.serve P.noted r).2.store = c.store.noted) :
    KeepsDirectory P ta torn c r ↔ ∃ e, o = .err e := by
  rw [KeepsDirectory, dirTrace_of_idle hstore, hserve]
  simp [Kept, Precedes]

theorem grant_eq (c : Client ε φ) (x : StoreM ε φ ObjectHandle) :
    (c.grant x).1 = ((x c.store).1 >>= fun h => .ok (.handle h)) ∧
      (c.grant x).2.store = (x c.store).2 := by
  rw [grant]
  rcases x c.store with ⟨y, s⟩
  cases y with
  | ok | err | panic => exact ⟨rfl, rfl⟩

theorem edit_eq {c : Client ε φ} {i : Nat} {h : ObjectHandle} (hi : c.handles[i]? = some h)
    (x : ObjectHandle → ReeFs ε φ → Fallible StorageError α × ObjectHandle × ReeFs ε φ)
    (answer : α → Answer) : c.edit i x answer = ((x h c.store).1 >>= fun a => .ok (answer a),
      ⟨(x h c.store).2.2, c.handles.set i (x h c.store).2.1⟩) := by
  rw [edit, hi]

/-- An edit of the handle of `write` or `truncate`, which is then stored. -/
theorem keeps_of_edit (hfs : P.fs.Answers) {h : ObjectHandle}
    {edit : Fallible StorageError ObjectHandle} (answer : Unit → Answer)
    (hserve : (c.noted.serve P.noted r).1 =
      (through P.noted h edit c.store.noted).1 >>= fun a => .ok (answer a))
    (hstore : (c.noted.serve P.noted r).2.store = (through P.noted h edit c.store.noted).2.2)
    {big bad : Prop} (hedit : (big ∧ edit = .err .tooBig) ∨ (¬ big ∧ edit = .panic) ∨
      ¬ big ∧ ∃ h' : ObjectHandle, edit = .ok h' ∧ h'.ta = ta)
    (hmeets : Meets bad (dirTrace P ta c r)) :
    KeepsDirectory P ta torn c r ↔ big ∨ Refused torn (dirTrace P ta c r) := by
  rcases hedit with ⟨hbig, rfl⟩ | ⟨hbig, rfl⟩ | ⟨hbig, h', rfl, rfl⟩
  · rw [keeps_of_idle hserve hstore]
    simp [hbig, through]
  · rw [keeps_of_idle hserve hstore, dirTrace_of_idle hstore]
    simp [hbig, Refused, through]
  · rw [or_iff_right hbig]
    exact keeps_iff (traces_storeHandle hfs h') answer hserve hstore fun _ hy => hy.kept_iff hmeets

end Serve

variable {P ta}

/-- **A bad directory is reported and kept exactly when something else stops the request**,
over any file system that answers. -/
theorem bad_directory_kept_iff (hfs : P.fs.Answers) (torn : Bool) {c : Client ε φ} {r : Request}
    (hon : r.On c ta) (hmeets : MeetsBadDirectory P ta c r) :
    KeepsDirectory P ta torn c r ↔ StopsFirst P ta torn c r := by
  rw [MeetsBadDirectory] at hmeets
  cases r with
  | create _ objectId flags data =>
    cases hon
    obtain ⟨hserve, hstore⟩ := grant_eq c.noted (create P.noted ta objectId flags data)
    by_cases hbig : MAX_OBJECT < data.length
    · have hbig' : create P.noted ta objectId flags data = raise .tooBig := if_pos hbig
      have hidle : c.noted.serve P.noted (.create ta objectId flags data) =
          (.err .tooBig, c.noted) := by
        rw [serve, hbig']
        rfl
      rw [StopsFirst, keeps_of_idle (congrArg (·.1) hidle) (congrArg (·.2.store) hidle)]
      simp [hbig]
    · rw [StopsFirst, or_iff_right hbig]
      exact keeps_iff (traces_create hfs flags hbig) _ hserve hstore fun _ hy => hy.kept_iff hmeets
  | list =>
    cases hon
    exact keeps_iff (traces_list hfs) _ rfl rfl fun _ hy => hy.kept_iff (by simp) hmeets
  | open_ _ objectId =>
    cases hon
    obtain ⟨hserve, hstore⟩ := grant_eq c.noted (open_ P.noted ta objectId)
    exact keeps_iff (traces_open hfs objectId) _ hserve hstore fun _ hy =>
      hy.kept_iff (by simp) hmeets
  | write i off buf =>
    obtain ⟨h, hi, rfl⟩ := hon
    have hserve := edit_eq (c := c.noted) hi (fun h => write P.noted h off buf) .count
    refine keeps_of_edit hfs (fun _ => .count buf.length)
      ((congrArg (·.1) hserve).trans (Fallible.bind_assoc _ _ _)) (congrArg (·.2.store) hserve)
      ?_ hmeets
    by_cases hle : off.toNat + buf.length ≤ MAX_OBJECT
    · refine .inr (.inr ⟨fun hbig => Nat.not_lt.mpr hle hbig.1, ?_⟩)
      exact ⟨_, writeEdit_of_le P.noted h hle, rfl⟩
    · rcases writeEdit_of_gt P.noted h (Nat.lt_of_not_le hle) with hedit | hedit
      · exact .inl hedit
      · exact .inr (.inl hedit)
  | truncate i size =>
    obtain ⟨h, hi, rfl⟩ := hon
    have hserve := edit_eq (c := c.noted) hi (fun h => truncate P.noted h size) fun _ => .done
    refine keeps_of_edit hfs _ (congrArg (·.1) hserve) (congrArg (·.2.store) hserve) ?_ hmeets
    by_cases hbig : MAX_OBJECT < size.toNat
    · exact .inl ⟨hbig, if_pos hbig⟩
    · exact .inr (.inr ⟨hbig, _, if_neg hbig, rfl⟩)
  | delete _ objectId =>
    cases hon
    exact keeps_iff (traces_delete hfs objectId) _ rfl rfl fun _ hy => hy.kept_iff (by simp) hmeets
  | rename _ old new =>
    cases hon
    exact keeps_iff (traces_rename hfs old new) _ rfl rfl fun _ hy => hy.kept_iff hmeets

/-- `MemFs` behind a connection that fails after the given number of reads. -/
def flakyFs : FsRpc (MemFs × Nat) where
  create := fun path data => zoom Prod.fst (fun s m => (m, s.2)) (memFs.create path data)
  read := fun path s =>
    match s.2 with
    | 0 => (.err .fs, s)
    | n + 1 => ((memFs.read path s.1).1, s.1, n)
  write := fun path data => zoom Prod.fst (fun s m => (m, s.2)) (memFs.write path data)
  delete := fun path => zoom Prod.fst (fun s m => (m, s.2)) (memFs.delete path)
  mkdir := fun path => zoom Prod.fst (fun s m => (m, s.2)) (memFs.mkdir path)

theorem flakyFs_answers : flakyFs.Answers where
  create := fun path data s => memFs_answers.create path data s.1
  read := by
    rintro path ⟨m, n⟩
    cases n with
    | zero => simp [flakyFs]
    | succ => exact memFs_answers.read path m
  write := fun path data s => memFs_answers.write path data s.1
  delete := fun path s => memFs_answers.delete path s.1
  mkdir := fun path s => memFs_answers.mkdir path s.1

/-- A store with one object, and so many more reads. -/
def flakyClient (reads : Nat) : Client UInt8 (MemFs × Nat) :=
  ⟨{ storeWithFile none with fs := ((storeWithFile none).fs, reads) }, []⟩

/-- The load of the delete in `rename` fails: an error, and the directory is kept. -/
theorem flaky_rename_kept : KeepsDirectory (samplePlatform flakyFs) sampleTa true (flakyClient 2)
    (.rename sampleTa (ascii "a") (ascii "b")) := by
  have htrace : dirTrace (samplePlatform flakyFs) sampleTa (flakyClient 2)
      (.rename sampleTa (ascii "a") (ascii "b")) = [.loaded, .failed] := by
    decide +kernel
  apply (bad_directory_kept_iff flakyFs_answers true (by rfl) _).mpr
  · rw [StopsFirst, htrace]
    simp [Precedes]
  · rw [MeetsBadDirectory, htrace]
    simp [Meets]

/-- With one byte for a directory, `create` succeeds and replaces it; and `rename` does when the
connection fails after its delete. -/
theorem tampered_create_replaces :
    let tampered : Client UInt8 MemFs :=
      ⟨{ emptyStore with fs := emptyStore.fs.insert (dirPath sampleTa) [0] }, []⟩
    let r := Request.create sampleTa (ascii "a") 0 []
    let r' := Request.rename sampleTa (ascii "a") (ascii "b")
    dirTrace (samplePlatform memFs) sampleTa tampered r = [.failed, .failed, .changed] ∧
    (tampered.serve (samplePlatform memFs) r).1 =
      .ok (.handle ⟨sampleTa, (counter.fill 16 1).1, ascii "a", 0, [], 1⟩) ∧
    (tampered.serve (samplePlatform memFs) r).2.store.fs.files (dirPath sampleTa) ≠ some [0] ∧
    dirTrace (samplePlatform flakyFs) sampleTa (flakyClient 3) r' =
      [.loaded, .loaded, .changed, .failed, .failed, .changed] ∧
    ((flakyClient 3).serve (samplePlatform flakyFs) r').1 = .ok .done := by
  decide +kernel

end Rustee.Storage
