import Rustee.StorageEffects

/-!
# `RpcFs`: whole files over the supplicant's fd operations

The supplicant offers open, create, read and write at an offset, truncate, close and remove. `RpcFs`
builds whole-file reads and writes from them, in chunks of 4096 bytes. Over any client whose fd
operations do what their names say, it cannot be told from `MemFs`, as long as files stay below
2^32 bytes.
-/

namespace Rustee.Storage

open Attempt Fallible List MemFs

def RPC_FS_OPEN : UInt32 := 0
def RPC_FS_CREATE : UInt32 := 1
def RPC_FS_CLOSE : UInt32 := 2
def RPC_FS_READ : UInt32 := 3
def RPC_FS_WRITE : UInt32 := 4
def RPC_FS_TRUNCATE : UInt32 := 5
def RPC_FS_REMOVE : UInt32 := 6

def CHUNK : Nat := 4096

/-- `trait FsClient` with states in `γ`: the operation, a name, an fd, an offset and
data to a number and bytes. -/
structure FsClient (γ : Type) where
  rpcFs : UInt32 → Path → UInt32 → UInt32 → Bytes → Attempt γ StorageError (UInt32 × Bytes)

/-! ### `RpcFs` -/

namespace RpcFs

variable {γ α : Type} (C : FsClient γ)

/-- `let r = f(..); let _ = rpc_fs(CLOSE); r`. Only a body that does not return leaves
the fd open. -/
def closing (fd : UInt32) (body : Attempt γ StorageError α) : Attempt γ StorageError α := fun g =>
  match body g with
  | (.panic, g') => (.panic, g')
  | (r, g') =>
    (toOption (C.rpcFs RPC_FS_CLOSE [] fd 0 []) >>= fun _ => lift r) g'

def withFd (path : Path) (create : Bool) (f : UInt32 → Attempt γ StorageError α) :
    Attempt γ StorageError α := do
  let (fd, _) ← C.rpcFs (if create then RPC_FS_CREATE else RPC_FS_OPEN) path 0 0 []
  closing C fd (f fd)

/-- The `while` of `put`. A loop that has not ended after `fuel` rounds gives its caller
no result; it is modelled as a panic is. -/
def putLoop (fd : UInt32) (data : Bytes) : Nat → UInt32 → Attempt γ StorageError Unit
  | 0, _ => lift .panic
  | fuel + 1, off =>
    if off.toNat < data.length then do
      let stop := min (off.toNat + CHUNK) data.length
      let _ ← C.rpcFs RPC_FS_WRITE [] fd off ((data.take stop).drop off.toNat)
      putLoop fd data fuel (UInt32.ofNat stop)
    else pure ()

def put (fuel : Nat) (fd : UInt32) (data : Bytes) : Attempt γ StorageError Unit := do
  putLoop C fd data fuel 0
  let _ ← C.rpcFs RPC_FS_TRUNCATE [] fd (UInt32.ofNat data.length) []
  pure ()

/-- The `loop` of `read`. -/
def readLoop (fd : UInt32) : Nat → Bytes → Attempt γ StorageError Bytes
  | 0, _ => lift .panic
  | fuel + 1, out => do
    let (n, chunk) ← C.rpcFs RPC_FS_READ [] fd (UInt32.ofNat out.length) (replicate CHUNK 0)
    if n.toNat < CHUNK then pure (out ++ chunk)
    else readLoop fd fuel (out ++ chunk)

def create (fuel : Nat) (path : Path) (data : Bytes) : Attempt γ StorageError Unit :=
  withFd C path true fun fd => put C fuel fd data

def read (fuel : Nat) (path : Path) : Attempt γ StorageError Bytes :=
  withFd C path false fun fd => readLoop C fd fuel []

def write (fuel : Nat) (path : Path) (data : Bytes) : Attempt γ StorageError Unit := fun g =>
  match withFd C path false (fun fd => put C fuel fd data) g with
  | (.err .notFound, g') => withFd C path true (fun fd => put C fuel fd data) g'
  | r => r

def delete (path : Path) : Attempt γ StorageError Unit := do
  let _ ← C.rpcFs RPC_FS_REMOVE path 0 0 []
  pure ()

end RpcFs

/-- `impl FsRpc for RpcFs` -/
def rpcFs {γ : Type} (C : FsClient γ) (fuel : Nat) : FsRpc γ where
  create := RpcFs.create C fuel
  read := RpcFs.read C fuel
  write := RpcFs.write C fuel
  delete := RpcFs.delete C
  mkdir := fun _ => pure ()

/-! ### Faithful clients -/

/-- A client whose fd operations do what their names say. `files` and `fds` are what it
keeps; the laws are asked for only where `RpcFs` calls. -/
structure FaithfulClient {γ : Type} (C : FsClient γ) where
  files : γ → MemFs
  fds : γ → UInt32 → Option Path
  open_missing : ∀ {name g}, (files g).files name = none →
    ∃ g', C.rpcFs RPC_FS_OPEN name 0 0 [] g = (.err .notFound, g') ∧ files g' = files g
  open_found : ∀ {name g bytes}, (files g).files name = some bytes →
    ∃ fd reply g', C.rpcFs RPC_FS_OPEN name 0 0 [] g = (.ok (fd, reply), g') ∧
      fds g' fd = some name ∧ files g' = files g
  create : ∀ name g, ∃ fd reply g', C.rpcFs RPC_FS_CREATE name 0 0 [] g = (.ok (fd, reply), g') ∧
    fds g' fd = some name ∧
    files g' = (files g).insert name (((files g).files name).getD [])
  close : ∀ fd g, ∃ r g', C.rpcFs RPC_FS_CLOSE [] fd 0 [] g = (r, g') ∧ r ≠ .panic ∧
    files g' = files g
  read : ∀ {fd hint name bytes g} (off : UInt32), fds g fd = some name →
    (files g).files name = some bytes → hint ≠ [] → ∃ g', C.rpcFs RPC_FS_READ [] fd off hint g =
        (.ok (UInt32.ofNat ((bytes.drop off.toNat).take hint.length).length,
          (bytes.drop off.toNat).take hint.length), g') ∧
      fds g' fd = some name ∧ files g' = files g
  write : ∀ {fd off data name bytes g}, fds g fd = some name →
    (files g).files name = some bytes → off.toNat + data.length < 2 ^ 32 →
    ∃ reply g', C.rpcFs RPC_FS_WRITE [] fd off data g = (.ok reply, g') ∧
      fds g' fd = some name ∧ files g' = (files g).insert name (splice bytes off.toNat data)
  truncate : ∀ {fd name bytes g} (size : UInt32), fds g fd = some name →
    (files g).files name = some bytes →
    ∃ reply g', C.rpcFs RPC_FS_TRUNCATE [] fd size [] g = (.ok reply, g') ∧
      files g' = (files g).insert name (resize bytes size.toNat)
  remove : ∀ name g, ∃ reply g', C.rpcFs RPC_FS_REMOVE name 0 0 [] g = (.ok reply, g') ∧
    files g' = (files g).remove name

theorem MemFs.insert_insert (m : MemFs) (path : Path) (data data' : Bytes) :
    (m.insert path data).insert path data' = m.insert path data' := by
  simp only [insert, mk.injEq]
  funext p
  split
  · rfl
  · rfl

variable {data : Bytes} {m : MemFs} {bytes : Bytes} {path : Path}

theorem MemFs.insert_self (h : m.files path = some data) : m.insert path data = m := by
  obtain ⟨files⟩ := m
  simp only [insert, mk.injEq]
  funext p
  split
  · rename_i hp
    rw [hp]
    exact h.symm
  · rfl

/-! ### The two loops -/

/-- Writing the next chunk of `data` over a file that starts with what was written so
far. -/
theorem splice_next (data old : Bytes) {off stop : Nat} (hoff : off ≤ stop)
    (hstop : stop ≤ data.length) :
    splice (data.take off ++ old.drop off) off ((data.take stop).drop off) =
      data.take stop ++ old.drop stop := by
  have htake : (data.take off).length = off := by
    rw [length_take]
    omega
  have hchunk : off + ((data.take stop).drop off).length = stop := by
    rw [length_drop, length_take]
    omega
  have hjoin : data.take off ++ (data.take stop).drop off = data.take stop := by
    have hfront : (data.take stop).take off = data.take off := by
      rw [take_take, Nat.min_eq_left hoff]
    rw [← hfront, take_append_drop]
  have hlen : (data.take off ++ old.drop off).length = off + (old.length - off) := by
    rw [length_append, htake, length_drop]
  simp only [splice, hchunk, hlen]
  split
  · rename_i hgrow
    -- the file ends inside the chunk: it is padded up to the chunk's end
    have hkept : (resize (data.take off ++ old.drop off) stop).take off = data.take off := by
      rw [resize, take_append_of_le_length, take_take, Nat.min_eq_left hoff,
        take_append_of_le_length (by omega), take_of_length_le (by omega)]
      rw [length_take, hlen]
      omega
    rw [hkept, hjoin, drop_eq_nil_of_le (by simp), drop_eq_nil_of_le (by omega)]
  · rename_i hfits
    rw [take_append_of_le_length (by omega), take_of_length_le (by omega), hjoin,
      drop_append, htake, drop_drop, drop_eq_nil_of_le (by omega), nil_append]
    congr 2
    omega

section Loops

variable {γ : Type} {C : FsClient γ} (L : FaithfulClient C) {fd : UInt32} {name : Path}

include L in
/-- The loop of `put` overwrites the file from the front. -/
theorem putLoop_eq {data old : Bytes} (hdata : data.length < 2 ^ 32) :
    ∀ (fuel : Nat) {off : UInt32} {g : γ}, L.fds g fd = some name →
      (L.files g).files name = some (data.take off.toNat ++ old.drop off.toNat) →
      off.toNat ≤ data.length → data.length + CHUNK ≤ off.toNat + CHUNK * fuel →
      ∃ g', RpcFs.putLoop C fd data fuel off g = (.ok (), g') ∧ L.fds g' fd = some name ∧
        L.files g' = (L.files g).insert name (data ++ old.drop data.length) := by
  intro fuel
  induction fuel with
  | zero =>
    intro off g hfd hfile hoff hfuel
    simp only [CHUNK] at hfuel
    omega
  | succ fuel ih =>
    intro off g hfd hfile hoff hfuel
    rw [RpcFs.putLoop]
    split
    · rename_i hlt
      let stop := min (off.toNat + CHUNK) data.length
      have hstop : off.toNat ≤ stop ∧ stop ≤ data.length := by
        simp only [stop, CHUNK]
        omega
      have hchunk : ((data.take stop).drop off.toNat).length = stop - off.toNat := by
        rw [length_drop, length_take]
        omega
      have hend : off.toNat + ((data.take stop).drop off.toNat).length < 2 ^ 32 := by omega
      obtain ⟨reply, g1, hwrite, hfd1, hfiles1⟩ := L.write hfd hfile hend
      rw [splice_next data old hstop.1 hstop.2] at hfiles1
      have hnext : (UInt32.ofNat stop).toNat = stop := by
        rw [UInt32.toNat_ofNat']
        omega
      have hfile1 : (L.files g1).files name =
          some (data.take (UInt32.ofNat stop).toNat ++ old.drop (UInt32.ofNat stop).toNat) := by
        rw [hfiles1, hnext, files_insert, if_pos rfl]
      have hfuel1 : data.length + CHUNK ≤ (UInt32.ofNat stop).toNat + CHUNK * fuel := by
        rw [hnext]
        simp only [stop, CHUNK] at hfuel ⊢
        omega
      obtain ⟨g', hrest, hfd', hfiles'⟩ := ih hfd1 hfile1 (by omega) hfuel1
      refine ⟨g', ?_, hfd', ?_⟩
      · rw [bind_of_ok hwrite]
        exact hrest
      · rw [hfiles', hfiles1, insert_insert]
    · rename_i hge
      have heq : off.toNat = data.length := by omega
      refine ⟨g, rfl, hfd, ?_⟩
      rw [heq, take_length] at hfile
      exact (insert_self hfile).symm

include L in
/-- `put` makes the file what it was given, whatever it held. -/
theorem put_eq {data old : Bytes} (hdata : data.length < 2 ^ 32) {fuel : Nat}
    (hfuel : 2 ^ 20 < fuel) {g : γ} (hfd : L.fds g fd = some name)
    (hfile : (L.files g).files name = some old) :
    ∃ g', RpcFs.put C fuel fd data g = (.ok (), g') ∧
      L.files g' = (L.files g).insert name data := by
  have hstart : (L.files g).files name =
      some (data.take (0 : UInt32).toNat ++ old.drop (0 : UInt32).toNat) := hfile
  have hrounds : data.length + CHUNK ≤ (0 : UInt32).toNat + CHUNK * fuel := by
    simp only [CHUNK]
    omega
  obtain ⟨g1, hloop, hfd1, hfiles1⟩ := putLoop_eq L hdata fuel hfd hstart (Nat.zero_le _) hrounds
  have hfile1 : (L.files g1).files name = some (data ++ old.drop data.length) := by
    rw [hfiles1, files_insert, if_pos rfl]
  obtain ⟨reply, g', htruncate, hfiles'⟩ := L.truncate (UInt32.ofNat data.length) hfd1 hfile1
  refine ⟨g', ?_, ?_⟩
  · rw [RpcFs.put, bind_of_ok hloop, bind_of_ok htruncate]
    rfl
  · have hsize : (UInt32.ofNat data.length).toNat = data.length := by
      rw [UInt32.toNat_ofNat']
      omega
    have hcut : resize (data ++ old.drop data.length) data.length = data := by
      rw [resize, take_left, length_append, Nat.sub_eq_zero_of_le (by omega)]
      exact append_nil _
    rw [hfiles', hfiles1, insert_insert, hsize, hcut]

include L in
/-- The loop of `read` collects the file from the front. -/
theorem readLoop_eq (hbytes : bytes.length < 2 ^ 32) :
    ∀ (fuel off : Nat) {g : γ}, L.fds g fd = some name →
      (L.files g).files name = some bytes → off ≤ bytes.length →
      bytes.length < off + CHUNK * fuel →
      ∃ g', RpcFs.readLoop C fd fuel (bytes.take off) g = (.ok bytes, g') ∧
        L.files g' = L.files g := by
  intro fuel
  induction fuel with
  | zero =>
    intro off g hfd hfile hoff hfuel
    omega
  | succ fuel ih =>
    intro off g hfd hfile hoff hfuel
    have hlen : (bytes.take off).length = off := by
      rw [length_take]
      omega
    have hoff32 : (UInt32.ofNat off).toNat = off := by
      rw [UInt32.toNat_ofNat']
      omega
    have hhint : replicate CHUNK (0 : UInt8) ≠ [] := by
      intro hnil
      have hzero := congrArg length hnil
      rw [length_replicate] at hzero
      exact absurd hzero (by decide)
    obtain ⟨g1, hread, hfd1, hfiles1⟩ := L.read (UInt32.ofNat off) hfd hfile hhint
    rw [hoff32, length_replicate] at hread
    have hcount : (UInt32.ofNat ((bytes.drop off).take CHUNK).length).toNat =
        min CHUNK (bytes.length - off) := by
      rw [length_take, length_drop, UInt32.toNat_ofNat']
      simp only [CHUNK]
      omega
    have hjoin : bytes.take off ++ (bytes.drop off).take CHUNK = bytes.take (off + CHUNK) :=
      take_add.symm
    rw [RpcFs.readLoop, hlen, bind_of_ok hread]
    simp only [hcount, hjoin]
    split
    · rename_i hshort
      refine ⟨g1, ?_, hfiles1⟩
      rw [take_of_length_le (by omega)]
      rfl
    · rename_i hfull
      rw [← hfiles1] at hfile
      obtain ⟨g', hrest, hfiles'⟩ := ih (off + CHUNK) hfd1 hfile (by omega)
        (by simp only [CHUNK] at hfuel ⊢; omega)
      exact ⟨g', hrest, hfiles'.trans hfiles1⟩

include L in
theorem closing_eq {α : Type} (fd : UInt32) {r : Fallible StorageError α} (hr : r ≠ .panic)
    {body : Attempt γ StorageError α} {g g1 : γ} (hbody : body g = (r, g1)) :
    ∃ g', RpcFs.closing C fd body g = (r, g') ∧ L.files g' = L.files g1 := by
  obtain ⟨reply, g', hclose, hreply, hfiles⟩ := L.close fd g1
  refine ⟨g', ?_, hfiles⟩
  have hignored : (toOption (C.rpcFs RPC_FS_CLOSE [] fd 0 []) >>=
      fun _ => lift r) g1 = (r, g') := by
    cases reply with
    | ok =>
      rw [bind_of_ok (toOption_of_ok hclose)]
      rfl
    | err =>
      rw [bind_of_ok (toOption_of_err hclose)]
      rfl
    | panic => exact absurd rfl hreply
  rw [RpcFs.closing, hbody]
  cases r with
  | ok | err => exact hignored
  | panic => exact absurd rfl hr

end Loops

/-! ### `RpcFs` is `MemFs` -/

/-- An operation of `FsRpc`. -/
inductive FsOp where
  | create (path : Path) (data : Bytes)
  | read (path : Path)
  | write (path : Path) (data : Bytes)
  | delete (path : Path)
  | mkdir (path : Path)
deriving Repr, DecidableEq

def FsOp.Small : FsOp → Prop
  | .create _ data => data.length < 2 ^ 32
  | .write _ data => data.length < 2 ^ 32
  | _ => True

namespace FsRpc

variable {φ : Type} (F : FsRpc φ)

/-- One operation and its result: the bytes of a read, nothing of the others. -/
def apply (op : FsOp) (fs : φ) : Fallible StorageError (Option Bytes) × φ :=
  match op with
  | .create path data => (do F.create path data; pure none : Attempt φ _ _) fs
  | .read path => (do let bytes ← F.read path; pure (some bytes) : Attempt φ _ _) fs
  | .write path data => (do F.write path data; pure none : Attempt φ _ _) fs
  | .delete path => (do F.delete path; pure none : Attempt φ _ _) fs
  | .mkdir path => (do F.mkdir path; pure none : Attempt φ _ _) fs

def applyAll : List FsOp → φ → List (Fallible StorageError (Option Bytes)) × φ
  | [], fs => ([], fs)
  | op :: ops, fs =>
    let r := F.apply op fs
    let rest := applyAll ops r.2
    (r.1 :: rest.1, rest.2)

end FsRpc

def MemFs.Small (m : MemFs) : Prop :=
  ∀ path bytes, m.files path = some bytes → bytes.length < 2 ^ 32

theorem MemFs.Small.insert (hm : m.Small)
    (hdata : data.length < 2 ^ 32) : (m.insert path data).Small := by
  intro p bytes hbytes
  rw [files_insert] at hbytes
  split at hbytes
  · cases hbytes
    exact hdata
  · exact hm p bytes hbytes

theorem MemFs.Small.remove (hm : m.Small) (path : Path) : (m.remove path).Small := by
  intro p bytes hbytes
  rw [files_remove] at hbytes
  split at hbytes
  · cases hbytes
  · exact hm p bytes hbytes

section Operations

variable {γ : Type} {C : FsClient γ} (L : FaithfulClient C) {fuel : Nat} (hfuel : 2 ^ 20 < fuel)
include L hfuel

variable {data : Bytes}

theorem putOpened_eq (hdata : data.length < 2 ^ 32) {g : γ}
    (hfile : (L.files g).files path = some bytes) :
    ∃ g', RpcFs.withFd C path false (fun fd => RpcFs.put C fuel fd data) g = (.ok (), g') ∧
      L.files g' = (L.files g).insert path data := by
  obtain ⟨fd, reply, g1, hopen, hfd, hfiles1⟩ := L.open_found hfile
  rw [← hfiles1] at hfile
  obtain ⟨g2, hput, hfiles2⟩ := put_eq L hdata hfuel hfd hfile
  obtain ⟨g', hclose, hfiles'⟩ := closing_eq L fd (by simp) hput
  refine ⟨g', ?_, ?_⟩
  · rw [RpcFs.withFd]
    exact (bind_of_ok hopen).trans hclose
  · rw [hfiles', hfiles2, hfiles1]

variable (path : Path)

theorem create_rpc (hdata : data.length < 2 ^ 32) (g : γ) :
    ∃ g', RpcFs.create C fuel path data g = (.ok (), g') ∧
      L.files g' = (L.files g).insert path data := by
  obtain ⟨fd, reply, g1, hcreate, hfd, hfiles1⟩ := L.create path g
  have hfile : (L.files g1).files path = some (((L.files g).files path).getD []) := by
    rw [hfiles1, files_insert, if_pos rfl]
  obtain ⟨g2, hput, hfiles2⟩ := put_eq L hdata hfuel hfd hfile
  obtain ⟨g', hclose, hfiles'⟩ := closing_eq L fd (by simp) hput
  refine ⟨g', ?_, ?_⟩
  · rw [RpcFs.create, RpcFs.withFd]
    exact (bind_of_ok hcreate).trans hclose
  · rw [hfiles', hfiles2, hfiles1, insert_insert]

theorem read_rpc (g : γ) (hsmall : (L.files g).Small) :
    ∃ g', RpcFs.read C fuel path g =
        (ofOption .notFound ((L.files g).files path), g') ∧ L.files g' = L.files g := by
  cases hfile : (L.files g).files path with
  | none =>
    obtain ⟨g', hopen, hfiles⟩ := L.open_missing hfile
    refine ⟨g', ?_, hfiles⟩
    rw [RpcFs.read, RpcFs.withFd]
    exact bind_of_err hopen
  | some bytes =>
    have hbytes := hsmall path bytes hfile
    obtain ⟨fd, reply, g1, hopen, hfd, hfiles1⟩ := L.open_found hfile
    rw [← hfiles1] at hfile
    obtain ⟨g2, hread, hfiles2⟩ := readLoop_eq L hbytes fuel 0 hfd hfile (Nat.zero_le _)
      (by simp only [CHUNK]; omega)
    obtain ⟨g', hclose, hfiles'⟩ := closing_eq L fd (by simp) hread
    refine ⟨g', ?_, ?_⟩
    · rw [RpcFs.read, RpcFs.withFd]
      exact (bind_of_ok hopen).trans hclose
    · rw [hfiles', hfiles2, hfiles1]

theorem write_rpc (hdata : data.length < 2 ^ 32) (g : γ) :
    ∃ g', RpcFs.write C fuel path data g = (.ok (), g') ∧
      L.files g' = (L.files g).insert path data := by
  rw [RpcFs.write]
  cases hfile : (L.files g).files path with
  | none =>
    obtain ⟨g1, hopen, hfiles1⟩ := L.open_missing hfile
    have hmissing : RpcFs.withFd C path false (fun fd => RpcFs.put C fuel fd data) g =
        (.err .notFound, g1) := bind_of_err hopen
    obtain ⟨g', hcreate, hfiles'⟩ := create_rpc L hfuel path hdata g1
    refine ⟨g', ?_, ?_⟩
    · rw [hmissing]
      exact hcreate
    · rw [hfiles', hfiles1]
  | some =>
    obtain ⟨g', hput, hfiles'⟩ := putOpened_eq L hfuel hdata hfile
    refine ⟨g', ?_, hfiles'⟩
    rw [hput]

omit hfuel in
theorem delete_rpc (g : γ) :
    ∃ g', RpcFs.delete C path g = (.ok (), g') ∧ L.files g' = (L.files g).remove path := by
  obtain ⟨reply, g', hremove, hfiles⟩ := L.remove path g
  refine ⟨g', ?_, hfiles⟩
  rw [RpcFs.delete, bind_of_ok hremove]
  rfl

theorem apply_rpc (op : FsOp) (hop : op.Small) (g : γ) (hsmall : (L.files g).Small) :
    ∃ g', (rpcFs C fuel).apply op g = ((memFs.apply op (L.files g)).1, g') ∧
      L.files g' = (memFs.apply op (L.files g)).2 ∧ (L.files g').Small := by
  cases op with
  | create path =>
    obtain ⟨g', hrun, hfiles⟩ := create_rpc L hfuel path hop g
    refine ⟨g', bind_of_ok hrun, hfiles, ?_⟩
    rw [hfiles]
    exact hsmall.insert hop
  | read path =>
    obtain ⟨g', hrun, hfiles⟩ := read_rpc L hfuel path g hsmall
    have hmem : memFs.read path (L.files g) =
        (ofOption .notFound ((L.files g).files path), L.files g) := rfl
    have hboth : ∀ {ψ : Type} {F : FsRpc ψ} {fs fs' : ψ} {file : Option Bytes},
        F.read path fs = (ofOption .notFound file, fs') →
        F.apply (.read path) fs = (ofOption .notFound (file.map some), fs') := by
      intro ψ F fs fs' file hread
      cases file with
      | none => exact bind_of_err hread
      | some => exact bind_of_ok hread
    refine ⟨g', ?_, ?_, ?_⟩
    · rw [hboth hmem]
      exact hboth hrun
    · rw [hfiles, hboth hmem]
    · rw [hfiles]
      exact hsmall
  | write path =>
    obtain ⟨g', hrun, hfiles⟩ := write_rpc L hfuel path hop g
    refine ⟨g', bind_of_ok hrun, hfiles, ?_⟩
    rw [hfiles]
    exact hsmall.insert hop
  | delete path =>
    obtain ⟨g', hrun, hfiles⟩ := delete_rpc L path g
    refine ⟨g', bind_of_ok hrun, hfiles, ?_⟩
    rw [hfiles]
    exact hsmall.remove path
  | mkdir => exact ⟨g, rfl, rfl, hsmall⟩

/-- **`RpcFs` refines `MemFs`.**  Over a faithful client and files below 2^32 bytes,
every sequence of operations returns the results of `MemFs` and leaves the files of
`MemFs`. -/
theorem rpcFs_refines_memFs {ops : List FsOp} (hops : ∀ op ∈ ops, op.Small) {g : γ}
    (hsmall : (L.files g).Small) :
    ((rpcFs C fuel).applyAll ops g).1 = (memFs.applyAll ops (L.files g)).1 ∧
      L.files ((rpcFs C fuel).applyAll ops g).2 = (memFs.applyAll ops (L.files g)).2 := by
  induction ops generalizing g with
  | nil => exact ⟨rfl, rfl⟩
  | cons op ops ih =>
    obtain ⟨g', hrun, hfiles, hsmall'⟩ := apply_rpc L hfuel op (hops op mem_cons_self) g hsmall
    obtain ⟨hresults, hend⟩ := ih (fun op hop => hops op (mem_cons_of_mem _ hop)) hsmall'
    simp only [FsRpc.applyAll, hrun]
    rw [← hfiles]
    refine ⟨?_, hend⟩
    rw [hresults]

end Operations

/-! ### `FdMem` -/

/-- `FdMem`, the client of the tests; the fd counter wraps. -/
structure FdMem where
  files : MemFs
  fds : UInt32 → Option Path
  next : UInt32

namespace FdMem

/-- `self.next` as the fd of `name`. -/
def bindFd (g : FdMem) (name : Path) : FdMem :=
  { g with fds := fun fd => if fd = g.next then some name else g.fds fd, next := g.next + 1 }

def readAt (g : FdMem) (fd off : UInt32) (hint : Bytes) :
    Fallible StorageError (UInt32 × Bytes) := do
  let path ← ofOption .notFound (g.fds fd)
  let file ← ofOption .notFound (g.files.files path)
  if off.toNat ≥ file.length then .ok (0, [])
  else
    let n := min (max hint.length 1) (file.length - off.toNat)
    .ok (UInt32.ofNat n, (file.drop off.toNat).take n)

def edit (g : FdMem) (fd : UInt32) (change : Bytes → Bytes) (reply : UInt32) :
    Fallible StorageError (UInt32 × Bytes) × FdMem :=
  match g.fds fd with
  | none => (.err .notFound, g)
  | some path =>
    (.ok (reply, []),
      { g with files := g.files.insert path (change ((g.files.files path).getD [])) })

theorem edit_eq {g : FdMem} {fd : UInt32} {name : Path}
    (change : Bytes → Bytes) (reply : UInt32) (hfd : g.fds fd = some name)
    (hfile : g.files.files name = some bytes) :
    g.edit fd change reply =
      (.ok (reply, []), { g with files := g.files.insert name (change bytes) }) := by
  simp only [edit, hfd, hfile, Option.getD_some]

def rpcFs (op : UInt32) (name : Path) (fd off : UInt32) (data : Bytes) :
    Attempt FdMem StorageError (UInt32 × Bytes) := fun g =>
  if op = RPC_FS_CREATE then
    (.ok (g.next, []),
      ({ g with files := g.files.insert name ((g.files.files name).getD []) }).bindFd name)
  else if op = RPC_FS_OPEN then
    match g.files.files name with
    | none => (.err .notFound, g)
    | some _ => (.ok (g.next, []), g.bindFd name)
  else if op = RPC_FS_CLOSE then
    (.ok (0, []), { g with fds := fun fd' => if fd' = fd then none else g.fds fd' })
  else if op = RPC_FS_READ then (g.readAt fd off data, g)
  else if op = RPC_FS_WRITE then
    g.edit fd (fun file => splice file off.toNat data) (UInt32.ofNat data.length)
  else if op = RPC_FS_TRUNCATE then g.edit fd (fun file => resize file off.toNat) 0
  else if op = RPC_FS_REMOVE then (.ok (0, []), { g with files := g.files.remove name })
  else (.err .fs, g)

end FdMem

def fdMem : FsClient FdMem := ⟨FdMem.rpcFs⟩

theorem fdMem_open (name : Path) (g : FdMem) :
    fdMem.rpcFs RPC_FS_OPEN name 0 0 [] g = match g.files.files name with
      | none => (.err .notFound, g)
      | some _ => (.ok (g.next, []), g.bindFd name) := rfl

/-- The helper serves `max(hint, 1)` bytes at most; for the client's non-empty hints that
is the window asked for. -/
theorem fdMem_read {g : FdMem} {fd : UInt32} {name : Path} {bytes hint : Bytes} (off : UInt32)
    (hfd : g.fds fd = some name) (hfile : g.files.files name = some bytes) (hhint : hint ≠ []) :
    ∃ g', fdMem.rpcFs RPC_FS_READ [] fd off hint g =
        (.ok (UInt32.ofNat ((bytes.drop off.toNat).take hint.length).length,
          (bytes.drop off.toNat).take hint.length), g') ∧
      g'.fds fd = some name ∧ g'.files = g.files := by
  refine ⟨g, ?_, hfd, rfl⟩
  have hpos : 1 ≤ hint.length := length_pos_of_ne_nil hhint
  have hrun : fdMem.rpcFs RPC_FS_READ [] fd off hint g = (g.readAt fd off hint, g) := rfl
  rw [hrun, FdMem.readAt, hfd, ofOption, ok_bind, hfile, ofOption, ok_bind]
  split
  · rename_i hend
    rw [drop_eq_nil_of_le hend, take_nil]
    rfl
  · rename_i hin
    have hcount : min (max hint.length 1) (bytes.length - off.toNat) =
        ((bytes.drop off.toNat).take hint.length).length := by
      rw [length_take, length_drop]
      omega
    have hchunk : (bytes.drop off.toNat).take (min (max hint.length 1) (bytes.length - off.toNat)) =
        (bytes.drop off.toNat).take hint.length := by
      rw [take_eq_take_iff, length_drop]
      omega
    simp only [hchunk]
    rw [hcount]

/-- `FdMem` is a faithful client. -/
def fdMemFaithful : FaithfulClient fdMem where
  files := FdMem.files
  fds := FdMem.fds
  open_missing := fun {name g} hfile => ⟨g, by rw [fdMem_open, hfile], rfl⟩
  open_found := fun {name g bytes} hfile =>
    ⟨g.next, [], g.bindFd name, by rw [fdMem_open, hfile], if_pos rfl, rfl⟩
  create := fun name g => ⟨g.next, [], _, rfl, if_pos rfl, rfl⟩
  close := fun fd g => ⟨_, _, rfl, by simp, rfl⟩
  read := fdMem_read
  write := fun {_ off data _ _ _} hfd hfile _ =>
    ⟨_, _, FdMem.edit_eq (splice · off.toNat data) _ hfd hfile, hfd, rfl⟩
  truncate := fun size hfd hfile =>
    ⟨_, _, FdMem.edit_eq (resize · size.toNat) 0 hfd hfile, rfl⟩
  remove := fun name g => ⟨_, _, rfl, rfl⟩

/-- A file created, rewritten shorter, read, removed and read again, over `FdMem`. -/
theorem rpcFs_refines_memFs_fdMem :
    ((rpcFs fdMem (2 ^ 20 + 1)).applyAll
      [.create (ascii "a") [1, 2, 3], .write (ascii "a") [4], .read (ascii "a"),
        .delete (ascii "a"), .read (ascii "a"), .write (ascii "b") [], .read (ascii "b")]
      ⟨⟨fun _ => none⟩, fun _ => none, 1⟩).1 =
    [.ok none, .ok none, .ok (some [4]), .ok none, .err .notFound, .ok none, .ok (some [])] := by
  have hops : ∀ op ∈ ([.create (ascii "a") [1, 2, 3], .write (ascii "a") [4], .read (ascii "a"),
      .delete (ascii "a"), .read (ascii "a"), .write (ascii "b") [], .read (ascii "b")] :
      List FsOp), op.Small := by
    simp [FsOp.Small]
  have hempty : (⟨fun _ => none⟩ : MemFs).Small := by
    intro path bytes hfile
    cases hfile
  have hfuel : 2 ^ 20 < 2 ^ 20 + 1 := by omega
  exact (rpcFs_refines_memFs fdMemFaithful hfuel hops
    (g := ⟨⟨fun _ => none⟩, fun _ => none, 1⟩) hempty).1

end Rustee.Storage
