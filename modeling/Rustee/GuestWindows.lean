import Rustee.GuestBuffers

/-!
# Which windows are taken into the pool (`import_shm` and `import_arg` of the virt HAL)

Both compare `offset + len` with the size of the pool and add without a check, where the other
functions that make a range of an offset and a length use `checked_add`. Offset and length come
from the message as they are. The comparison is that of the natural numbers exactly when the sum
fits 64 bits; otherwise a debug build panics, and a release build compares what is left of the sum
and may put a window of almost 2^64 bytes into the table.
-/

namespace Rustee.Virt

open Os Guest List VirtHal

/-! ### Imports -/

/-- A call of `import_shm` or `import_arg`. -/
inductive Import where
  | shm (offset len : UInt64) (perms : Perms)
  | arg (offset len : UInt64)
deriving Repr, DecidableEq

namespace Import

def offset : Import → UInt64
  | shm offset _ _ => offset
  | arg offset _ => offset

def len : Import → UInt64
  | shm _ len _ => len
  | arg _ len => len

def run (build : Build) : Import → Attempt VirtHal HalError Unit
  | shm offset len perms => importShm build offset len perms
  | arg offset len => do
    let _ ← importArg build offset len
    pure ()

def stop (i : Import) : Nat := i.offset.toNat + i.len.toNat

def Adds : Import → Prop
  | shm _ _ perms => perms.exec = false
  | arg offset _ => offset.toNat % MSG_ARG_ALIGN = 0

def Fits (i : Import) : Prop := i.Adds → i.stop < 2 ^ 64

instance : (i : Import) → Decidable i.Adds
  | shm _ _ perms => inferInstanceAs (Decidable (perms.exec = false))
  | arg _ _ => inferInstanceAs (Decidable (_ = _))

instance (i : Import) : Decidable i.Fits := inferInstanceAs (Decidable (_ → _))

/-- The call does not panic, its sum is not wrapped, and it succeeds only for a window
inside the pool. -/
structure Exact (build : Build) (i : Import) (h : VirtHal) : Prop where
  noPanic : (i.run build h).1 ≠ .panic
  noWrap : i.Adds → ∀ n, (usizeAdd build i.offset i.len : Fallible HalError UInt64) = .ok n →
    n.toNat = i.stop
  inPool : (i.run build h).1 = .ok () → i.stop ≤ BOUNCE_POOL_SIZE

end Import

def WindowsInside (shms : List (Option VirtShm)) : Prop :=
  ∀ s, some s ∈ shms → s.cookie.toNat + s.len.toNat ≤ BOUNCE_POOL_SIZE

instance (shms : List (Option VirtShm)) : Decidable (WindowsInside shms) :=
  decidable_of_iff (∀ s ∈ shms.filterMap id, s.cookie.toNat + s.len.toNat ≤ BOUNCE_POOL_SIZE) (by
    simp [WindowsInside])

/-- Imports one after the other. `import_memrefs` does not look at their errors; a panic
ends them. -/
def importSeq (build : Build) : List Import → Attempt VirtHal HalError Unit
  | [] => pure ()
  | i :: is => fun h =>
    match i.run build h with
    | (.panic, h') => (.panic, h')
    | (_, h') => importSeq build is h'

/-! ### One import -/

section One

variable {build : Build} {offset len : UInt64} {perms : Perms} {h : VirtHal}

/-- The call was refused, or its window is inside the pool and the only one that is new. -/
inductive Imported (i : Import) (h : VirtHal) : Fallible HalError Unit × VirtHal → Prop
  | refused (e : HalError) : Imported i h (.err e, h)
  | accepted (hin : i.stop ≤ BOUNCE_POOL_SIZE) (shms : List (Option VirtShm))
      (hnew : ∀ s, some s ∈ shms → s.cookie = i.offset ∧ s.len = i.len ∨ some s ∈ h.mem.shms) :
      Imported i h (.ok (), { h with mem := { h.mem with shms := shms } })

theorem importShm_imported (hfits : (Import.shm offset len perms).Fits) :
    Imported (.shm offset len perms) h (importShm build offset len perms h) := by
  by_cases hexec : perms.exec
  · rw [importShm, if_pos hexec]
    exact .refused _
  have hread : perms.exec = false := Bool.eq_false_iff.mpr hexec
  have hsum : offset.toNat + len.toNat < 2 ^ 64 := hfits hread
  rw [importShm_of_fits build hread hsum]
  split
  · exact .refused _
  rename_i hin
  have hstop : (Import.shm offset len perms).stop ≤ BOUNCE_POOL_SIZE := not_lt.mp hin
  split
  · exact .refused _
  split
  · rename_i shms hupdate
    refine .accepted hstop shms fun s hs => ((placed_of_updateShm hupdate).mem hs).imp ?_ id
    rintro rfl
    exact ⟨rfl, rfl⟩
  rename_i hnew
  split
  · rename_i shms hinsert
    refine .accepted hstop shms fun s hs =>
      ((placed_of_insertShm (updateShm_eq_none_iff.mp hnew) hinsert).mem hs).imp ?_ id
    rintro rfl
    exact ⟨rfl, rfl⟩
  · exact .refused _

theorem importArg_imported (hfits : (Import.arg offset len).Fits) :
    Imported (.arg offset len) h ((Import.arg offset len).run build h) := by
  rw [Import.run, importArg]
  by_cases halign : offset.toNat % MSG_ARG_ALIGN ≠ 0
  · rw [if_pos halign]
    exact .refused _
  have hsum : offset.toNat + len.toNat < 2 ^ 64 := hfits (not_not.mp halign)
  rw [if_neg halign, usizeAdd_of_lt build hsum, Attempt.lift_ok_bind,
    UInt64.toNat_ofNat_of_lt' hsum]
  split
  · exact .refused _
  · rename_i hin
    have hstop : (Import.arg offset len).stop ≤ BOUNCE_POOL_SIZE := not_lt.mp hin
    exact .accepted hstop h.mem.shms fun s hs => Or.inr hs

variable {i : Import}

theorem run_imported (hfits : i.Fits) : Imported i h (i.run build h) := by
  cases i with
  | shm => exact importShm_imported hfits
  | arg => exact importArg_imported hfits

theorem run_panics (hadds : i.Adds) (hover : 2 ^ 64 ≤ i.stop) : (i.run .debug h).1 = .panic := by
  have hpanic : (usizeAdd .debug i.offset i.len : Fallible HalError UInt64) = .panic :=
    usizeAdd_overflow hover
  cases i with
  | shm offset len perms =>
    have hexec : ¬ perms.exec := Bool.eq_false_iff.mp hadds
    simp only [Import.offset, Import.len] at hpanic
    rw [Import.run, importShm, if_neg hexec, hpanic]
    rfl
  | arg offset =>
    have halign : ¬ offset.toNat % MSG_ARG_ALIGN ≠ 0 := not_not.mpr hadds
    simp only [Import.offset, Import.len] at hpanic
    rw [Import.run, importArg, if_neg halign, hpanic]
    rfl

variable {r : Fallible HalError Unit × VirtHal}

theorem Imported.ne_panic
    (himported : Imported i h r) : r.1 ≠ .panic := by
  rcases himported with _ | _ <;> simp

theorem Imported.inside
    (himported : Imported i h r) (hinside : WindowsInside h.mem.shms) :
    WindowsInside r.2.mem.shms := by
  rcases himported with _ | ⟨hin, shms, hnew⟩
  · exact hinside
  · intro s hs
    rcases hnew s hs with ⟨hcookie, hlen⟩ | hold
    · rw [hcookie, hlen]
      exact hin
    · exact hinside s hold

theorem import_exact_iff (build : Build) (i : Import) (h : VirtHal) : i.Exact build h ↔ i.Fits := by
  constructor
  · intro hexact hadds
    by_contra hsum
    have hover : 2 ^ 64 ≤ i.stop := not_lt.mp hsum
    cases build with
    | debug => exact hexact.noPanic (run_panics hadds hover)
    | release =>
      have hwrapped := hexact.noWrap hadds _ (usizeAdd_overflow hover)
      rw [← hwrapped] at hover
      exact absurd (UInt64.toNat_lt _) (not_lt.mpr hover)
  · intro hfits
    have himported : Imported i h (i.run build h) := run_imported hfits
    refine ⟨himported.ne_panic, ?_, ?_⟩
    · intro hadds n hn
      rw [usizeAdd_eq_ok hn]
      exact Nat.mod_eq_of_lt (hfits hadds)
    · intro hok
      generalize hrun : i.run build h = r at himported hok
      rcases himported with _ | ⟨hin, -, -⟩
      · cases hok
      · exact hin

end One

/-! ### Imports in sequence -/

theorem importSeq_inside (build : Build) {is : List Import} (hfits : ∀ i ∈ is, i.Fits)
    {h : VirtHal} (hinside : WindowsInside h.mem.shms) :
    (importSeq build is h).1 ≠ .panic ∧ WindowsInside (importSeq build is h).2.mem.shms := by
  induction is generalizing h with
  | nil =>
    constructor
    · simp [importSeq]
    · exact hinside
  | cons i is ih =>
    obtain ⟨hi, his⟩ := forall_mem_cons.mp hfits
    have himported : Imported i h (i.run build h) := run_imported hi
    have hnext := himported.inside hinside
    have hpanic := himported.ne_panic
    rw [importSeq]
    dsimp only
    rcases hrun : i.run build h with ⟨r, h'⟩
    rw [hrun] at hnext hpanic
    cases r with
    | panic => exact absurd rfl hpanic
    | ok | err => exact ih his hnext

end Rustee.Virt

namespace Rustee.Guest

open Os Virt Attempt

variable {κ τ : Type}

/-! ### The imports of messages -/

/-- The end of the window that `import_memrefs` asks for fits 64 bits. -/
def MemrefFits : Param → Prop
  | .memref (.ree cookie offs) size _ =>
    cookie.toNat + offs.toNat + max size.toNat 1 < 2 ^ 64
  | _ => True

instance (param : Param) : Decidable (MemrefFits param) :=
  match param with
  | .memref (.ree _ _) _ _ => inferInstanceAs (Decidable (_ < _))
  | .memref (.ta _) _ _ => isTrue trivial
  | .value _ _ _ => isTrue trivial
  | .none => isTrue trivial

def insideFrame (κ : Type) : Frame (GuestState κ) where
  rel g g' := WindowsInside g.hal.mem.shms → WindowsInside g'.hal.mem.shms
  refl _ h := h
  trans h h' hg := h' (h hg)

theorem insideFrame_of_same {g g' : GuestState κ} (h : g'.hal.mem.shms = g.hal.mem.shms) :
    (insideFrame κ).rel g g' := by
  intro hg
  rw [h]
  exact hg

theorem onHal_inside {α : Type} {x : Attempt VirtHal HalError α}
    (hx : ∀ h, WindowsInside h.mem.shms → WindowsInside (x h).2.mem.shms) :
    Keeps (insideFrame κ) (onHal x) := by
  intro g hg
  have hnext := hx g.hal hg
  rw [onHal]
  rcases hrun : x g.hal with ⟨r, h⟩
  rw [hrun] at hnext
  cases r <;> exact hnext

theorem importMemref_inside (build : Build) {param : Param} (hfits : MemrefFits param) :
    Keeps (insideFrame κ) (importMemref build param) := by
  rw [importMemref.eq_def]
  split
  · rename_i cookie offs size dir
    have hsum : cookie.toNat + offs.toNat + max size.toNat 1 < 2 ^ 64 := hfits
    have hstart : cookie.toNat + offs.toNat < 2 ^ 64 := by omega
    have hlen : (if size = 0 then 1 else size).toNat = max size.toNat 1 := by
      split
      · simp_all
      · rename_i hsize
        have hpos : size.toNat ≠ 0 := fun h => hsize (UInt64.toNat_inj.mp h)
        omega
    rw [usizeAdd_of_lt build hstart, lift_ok_bind]
    refine (onHal_inside fun h hinside => ?_).bind fun _ => keeps_pure _
    refine (importShm_imported fun _ => ?_).inside hinside
    rw [Import.stop, Import.offset, Import.len, UInt64.toNat_ofNat_of_lt' hstart, hlen]
    exact hsum
  · exact keeps_pure _

variable {K : GuestKernel κ}

theorem enterMsg_inside (hK : KeepsShms K) {build : Build} {e : EnterMsg}
    (hfits : ∀ param ∈ e.params build, MemrefFits param) :
    Keeps (insideFrame κ) (enterMsg K build e) := by
  refine enterMsg_keeps (fun h => insideFrame_of_same h.2) ?_ ?_
  · intro cmd hdecode
    have hparams : e.params build = cmdParams cmd := by
      rw [EnterMsg.params, EnterMsg.cmd?, hdecode]
      rfl
    rw [hparams] at hfits
    exact importAll_keeps fun param hparam => importMemref_inside build (hfits param hparam)
  · intro cmd _ g
    exact insideFrame_of_same (kernelHandle_sameShms hK cmd g)

theorem handleEvent_inside (hK : KeepsShms K) {build : Build} {ev : GuestEvent}
    (hfits : ∀ e, ev = .enter e → ∀ param ∈ e.params build, MemrefFits param) :
    Keeps (insideFrame κ) (handleEvent K build ev) := by
  cases ev with
  | enter e => exact enterMsg_inside hK (hfits e rfl)
  | reply pool frame =>
    refine Keeps.bind (fun g => insideFrame_of_same rfl) fun _ => ?_
    refine handleRpcReply_keeps (fun h => insideFrame_of_same h.2) frame fun resp g => ?_
    exact insideFrame_of_same (kernelHandle_sameShms hK _ g)

/-- An import is exact exactly when the sum it makes fits 64 bits. Imports that are leave
the windows of the table inside the pool, called one after the other or by the messages
of a run. -/
theorem window_imports_exact_iff (p : Platform τ) (build : Build) :
    (∀ (i : Import) (h : VirtHal), i.Exact build h ↔ i.Fits) ∧
    (∀ (is : List Import) (h : VirtHal), WindowsInside h.mem.shms → (∀ i ∈ is, i.Fits) →
      (importSeq build is h).1 ≠ .panic ∧ WindowsInside (importSeq build is h).2.mem.shms) ∧
    ∀ (events : List GuestEvent) (g : GuestState (Machine (HalMem × τ) (VirtAs p.base))),
      WindowsInside g.hal.mem.shms →
      (∀ e, .enter e ∈ events → ∀ param ∈ e.params build, MemrefFits param) →
      WindowsInside (handleEvents (osKernel (virtEnv p)) build events g).2.hal.mem.shms := by
  refine ⟨import_exact_iff build, ?_, ?_⟩
  · intro is h hinside hfits
    exact importSeq_inside build hfits hinside
  intro events g hinside hfits
  have hstep : ∀ ev ∈ events, Keeps (insideFrame _)
      (handleEvent (osKernel (virtEnv p)) build ev) := by
    intro ev hev
    apply handleEvent_inside (osKernel_shms p)
    rintro e rfl
    exact hfits e hev
  exact handleEvents_keeps hstep g hinside

/-! ### A window of almost 2^64 bytes -/

def smallImports : List Import := [.shm 0x2000 8 Perms.READ, .arg 0x1000 64]

theorem window_imports_exact_iff_sample :
    (∀ i ∈ smallImports, i.Exact .release VirtHal.init) ∧
    WindowsInside (importSeq .release smallImports VirtHal.init).2.mem.shms ∧
    WindowsInside (handleEvents (osKernel (virtEnv quietPlatform)) .release
      [.enter (windowMsg 0x2000)] quietGuest).2.hal.mem.shms := by
  obtain ⟨hone, hseq, hrun⟩ := window_imports_exact_iff quietPlatform .release
  have hfits : ∀ i ∈ smallImports, i.Fits := by decide
  refine ⟨fun i hi => (hone i VirtHal.init).mpr (hfits i hi), ?_, ?_⟩
  · exact (hseq smallImports VirtHal.init (by decide) hfits).2
  · refine hrun _ quietGuest (by decide) ?_
    intro e he
    cases List.mem_singleton.mp he
    decide +kernel

def oversizedMsg : EnterMsg where
  pool := (⟨fun _ => 0⟩ : Pool).put 0x1000
    ((⟨MSG_CMD_INVOKE_COMMAND, 0, 1, 0, 0, 0, 0, 1⟩ : MsgArgHdr).encode ++
      (⟨ATTR_TYPE_TMEM_INPUT, 0x2000, 0xFFFFFFFFFFFFFFFF, 0x2000⟩ : MsgParam).encode)
  frame := rpcFrame 0x1000

/-- The window is taken by a release build, directly or from a message, and stops a debug
build. -/
theorem oversized_window_taken :
    (VirtHal.importShm .release 0x2000 0xFFFFFFFFFFFFFFFF Perms.READ VirtHal.init).1 = .ok () ∧
    (VirtHal.importArg .release 0x2000 0xFFFFFFFFFFFFFFFF VirtHal.init).1 = .ok 0x2000 ∧
    (VirtHal.importShm .debug 0x2000 0xFFFFFFFFFFFFFFFF Perms.READ VirtHal.init).1 = .panic ∧
    (VirtHal.importArg .debug 0x2000 0xFFFFFFFFFFFFFFFF VirtHal.init).1 = .panic ∧
    WindowsInside quietGuest.hal.mem.shms ∧
    ¬ WindowsInside (handleEvents (osKernel (virtEnv quietPlatform)) .release
      [.enter oversizedMsg] quietGuest).2.hal.mem.shms ∧
    (handleEvents (osKernel (virtEnv quietPlatform)) .debug
      [.enter oversizedMsg] quietGuest).1 = .panic := by
  decide +kernel

end Rustee.Guest
