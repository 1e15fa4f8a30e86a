import Rustee.GuestLoop

/-!
# The virt HAL as the kernel sees it

(`VirtShm`, `VirtAs` and the `Hal` instance of `rustee-hal-virt/src/lib.rs`).

A shared memory is an offset and a length in the bounce pool, registered in a table of 32 slots
and found by its offset. Mapping one costs nothing: its address is that of the pool plus the
offset. A TA runs in the same memory, so it can reach the pool, but not the table.
-/

namespace Rustee.Virt

open Os List Option VirtHal

/-! ### Address spaces -/

/-- The pool lies at `base` and every address space has that address from the HAL. -/
structure VirtAs (base : UInt64) where
  mapped : Nat
  poolVa : UInt64
  images : List Bytes
  poolVa_eq : poolVa = base

namespace VirtAs

variable {base : UInt64}

def new (base : UInt64) : VirtAs base := ⟨0, base, [], rfl⟩

def mapImage (imageAt : List Bytes → VirtAddr) (a : VirtAs base) (src : Bytes) (perms : Perms) :
    Except HalError VirtAddr × VirtAs base :=
  if perms.exec ∧ src = [] then (.error .invalidParam, a)
  else
    (.ok (imageAt (a.images ++ [src])),
      { a with images := a.images ++ [src], mapped := a.mapped + 1 })

def mapShm (a : VirtAs base) (shm : VirtShm) (perms : Perms) :
    Except HalError VirtAddr × VirtAs base :=
  if perms.exec ∨ shm.perms.exec then (.error .permDenied, a)
  else if shm.len = 0 then (.error .invalidParam, a)
  else if shm.cookie.toNat + shm.len.toNat > BOUNCE_POOL_SIZE then (.error .invalidParam, a)
  else (.ok (a.poolVa + shm.cookie), { a with mapped := a.mapped + 1 })

def unmap (a : VirtAs base) (_ : VirtAddr) : VirtAs base := { a with mapped := a.mapped - 1 }

end VirtAs

/-! ### The table of shared memories -/

def lookupShm (shms : List (Option VirtShm)) (cookie : UInt64) : Option VirtShm :=
  (shms.filterMap id).find? fun s => s.cookie == cookie

/-- Write through the reference that `lookup_shm_mut` returns. -/
def writeShm (cookie : UInt64) (shm : VirtShm) : List (Option VirtShm) → List (Option VirtShm)
  | [] => []
  | some s :: shms =>
    if s.cookie = cookie then some shm :: shms else some s :: writeShm cookie shm shms
  | none :: shms => none :: writeShm cookie shm shms

def HalMem.lookupShmMut (mem : HalMem) (cookie : UInt64) : Option (VirtShm × (VirtShm → HalMem)) :=
  (lookupShm mem.shms cookie).map fun s =>
    (s, fun s' => { mem with shms := writeShm cookie s' mem.shms })

theorem lookupShm_some (s : VirtShm) (shms : List (Option VirtShm)) (cookie : UInt64) :
    lookupShm (some s :: shms) cookie =
      if s.cookie = cookie then some s else lookupShm shms cookie := by
  have hcons : (some s :: shms).filterMap id = s :: shms.filterMap id := rfl
  rw [lookupShm, hcons, find?_cons]
  by_cases h : s.cookie = cookie
  · rw [if_pos h, h, beq_self_eq_true]
  · rw [if_neg h, beq_false_of_ne h]
    rfl

variable {cookie : UInt64} {s : VirtShm}

theorem cookie_of_lookupShm {shms : List (Option VirtShm)}
    (h : lookupShm shms cookie = some s) : s.cookie = cookie := by
  have hfound := find?_some h
  exact eq_of_beq hfound

theorem writeShm_lookup {shms : List (Option VirtShm)}
    (h : lookupShm shms cookie = some s) : writeShm cookie s shms = shms := by
  induction shms with
  | nil => rfl
  | cons x shms ih =>
    cases x with
    | none => rw [writeShm, ih h]
    | some =>
      rw [lookupShm_some] at h
      rw [writeShm]
      split at h
      · rename_i hx
        rw [if_pos hx, h]
      · rename_i hx
        rw [if_neg hx, ih h]

/-! ### Registering -/

def shmCookies (shms : List (Option VirtShm)) : List UInt64 :=
  (shms.filterMap id).map VirtShm.cookie

section Register

variable {offset len : UInt64} {perms : Perms} {shms shms' : List (Option VirtShm)}

/-- The window is in the table under its offset, and the other entries are as they were. -/
structure Registered (shm : VirtShm) (shms shms' : List (Option VirtShm)) : Prop where
  length : shms'.length = shms.length
  nodup : (shmCookies shms).Nodup → (shmCookies shms').Nodup
  mem : ∀ cookie, cookie ∈ shmCookies shms' ↔ cookie = shm.cookie ∨ cookie ∈ shmCookies shms
  found : lookupShm shms' shm.cookie = some shm
  others : ∀ cookie, cookie ≠ shm.cookie → lookupShm shms' cookie = lookupShm shms cookie

theorem shmCookies_some (s : VirtShm) (shms : List (Option VirtShm)) :
    shmCookies (some s :: shms) = s.cookie :: shmCookies shms := rfl

theorem updateShm_eq_none_iff :
    updateShm offset len perms shms = none ↔ offset ∉ shmCookies shms := by
  induction shms with
  | nil => simp [updateShm, shmCookies]
  | cons x shms ih =>
    cases x with
    | none =>
      rw [updateShm, map_eq_none_iff, ih]
      rfl
    | some s =>
      rw [updateShm, shmCookies_some, mem_cons, not_or]
      by_cases hs : s.cookie = offset
      · rw [if_pos hs]
        constructor
        · intro h
          cases h
        · intro h
          exact absurd hs.symm h.1
      · rw [if_neg hs, map_eq_none_iff, ih]
        exact ⟨fun h => ⟨fun heq => hs heq.symm, h⟩, fun h => h.2⟩

variable {shm : VirtShm}

/-- The window goes to the slot of its old entry, or to a free slot if it has none. -/
inductive Placed (shm : VirtShm) : List (Option VirtShm) → List (Option VirtShm) → Prop
  | old {t ts} (ht : t.cookie = shm.cookie) : Placed shm (some t :: ts) (some shm :: ts)
  | free {ts} (hnew : shm.cookie ∉ shmCookies ts) : Placed shm (none :: ts) (some shm :: ts)
  | skip {ts ts'} (h : Placed shm ts ts') : Placed shm (none :: ts) (none :: ts')
  | other {t ts ts'} (ht : t.cookie ≠ shm.cookie) (h : Placed shm ts ts') :
      Placed shm (some t :: ts) (some t :: ts')

theorem placed_of_updateShm (h : updateShm offset len perms shms = some shms') :
    Placed ⟨offset, len, perms⟩ shms shms' := by
  induction shms generalizing shms' with
  | nil => cases h
  | cons x shms ih =>
    cases x with
    | none =>
      obtain ⟨rest, hrest, rfl⟩ := map_eq_some_iff.mp h
      exact .skip (ih hrest)
    | some s =>
      rw [updateShm] at h
      split at h
      · rename_i hs
        cases h
        exact .old hs
      · rename_i hs
        obtain ⟨rest, hrest, rfl⟩ := map_eq_some_iff.mp h
        exact .other hs (ih hrest)

theorem placed_of_insertShm (hnew : shm.cookie ∉ shmCookies shms)
    (h : insertShm shm shms = some shms') : Placed shm shms shms' := by
  induction shms generalizing shms' with
  | nil => cases h
  | cons x shms ih =>
    cases x with
    | none =>
      cases h
      exact .free hnew
    | some s =>
      obtain ⟨rest, hrest, rfl⟩ := map_eq_some_iff.mp h
      obtain ⟨hne, hrestNew⟩ := not_or.mp (mt mem_cons.mpr hnew)
      exact .other (Ne.symm hne) (ih hrestNew hrest)

theorem Placed.mem {s : VirtShm} (h : Placed shm shms shms') (hs : some s ∈ shms') :
    s = shm ∨ some s ∈ shms := by
  induction h with
  | old | free =>
    rcases mem_cons.mp hs with heq | hs
    · exact .inl (some.inj heq)
    · exact .inr (mem_cons_of_mem _ hs)
  | skip _ ih | other _ _ ih =>
    rcases mem_cons.mp hs with heq | hs
    · exact .inr (mem_cons.mpr (.inl heq))
    · exact (ih hs).imp id (mem_cons_of_mem _)

theorem Placed.registered (h : Placed shm shms shms') : Registered shm shms shms' := by
  induction h with
  | skip _ ih => exact ⟨congrArg Nat.succ ih.length, ih.nodup, ih.mem, ih.found, ih.others⟩
  | old hs =>
    refine ⟨rfl, ?_, ?_, by rw [lookupShm_some, if_pos rfl], ?_⟩
    · rw [shmCookies_some, shmCookies_some, hs]
      exact id
    · intro cookie
      rw [shmCookies_some, shmCookies_some, hs, mem_cons, or_self_left]
    · intro cookie hcookie
      rw [lookupShm_some, lookupShm_some, hs]
      simp only [if_neg hcookie.symm]
  | free hnew =>
    refine ⟨rfl, fun hnodup => nodup_cons.mpr ⟨hnew, hnodup⟩, fun _ => mem_cons, ?_, ?_⟩
    · rw [lookupShm_some, if_pos rfl]
    · intro cookie hcookie
      rw [lookupShm_some, if_neg hcookie.symm]
      rfl
  | other hs _ ih =>
    refine ⟨congrArg Nat.succ ih.length, ?_, ?_, ?_, ?_⟩
    · intro hnodup
      obtain ⟨hold, hrest⟩ := nodup_cons.mp hnodup
      exact nodup_cons.mpr ⟨fun hmem => ((ih.mem _).mp hmem).elim hs hold, ih.nodup hrest⟩
    · intro cookie
      rw [shmCookies_some, shmCookies_some, mem_cons, mem_cons, ih.mem, or_left_comm]
    · rw [lookupShm_some, if_neg hs, ih.found]
    · intro cookie hcookie
      rw [lookupShm_some, lookupShm_some, ih.others cookie hcookie]

theorem length_shmCookies_le (shms : List (Option VirtShm)) :
    (shmCookies shms).length ≤ shms.length := by
  rw [shmCookies, length_map]
  exact length_filterMap_le _ _

theorem insertShm_eq_none_iff :
    insertShm shm shms = none ↔ shms.length ≤ (shmCookies shms).length := by
  induction shms with
  | nil => simp [insertShm]
  | cons x shms ih =>
    cases x with
    | none =>
      have hle := length_shmCookies_le shms
      have hcookies : shmCookies (none :: shms) = shmCookies shms := rfl
      rw [insertShm, hcookies, length_cons]
      constructor
      · intro h
        cases h
      · intro h
        omega
    | some s =>
      rw [insertShm, map_eq_none_iff, ih, shmCookies_some, length_cons, length_cons,
        Nat.succ_le_succ_iff]

/-- There is room for the window: its offset is in the table, or a slot is free. -/
def HasRoom (shms : List (Option VirtShm)) (offset : UInt64) : Prop :=
  offset ∈ shmCookies shms ∨ (shmCookies shms).length < shms.length

/-- The import of a window whose end fits 64 bits: it goes to its old slot, or else to a free
one. -/
theorem importShm_of_fits (build : Build) (hexec : perms.exec = false)
    (hfits : offset.toNat + len.toNat < 2 ^ 64) (h : VirtHal) :
    importShm build offset len perms h =
      if offset.toNat + len.toNat > BOUNCE_POOL_SIZE then (.err .invalidParam, h)
      else if offset.toNat % MSG_ARG_ALIGN ≠ 0 then (.err .badAlignment, h)
      else
        match updateShm offset len perms h.mem.shms with
        | some shms => (.ok (), { h with mem := { h.mem with shms := shms } })
        | none =>
          match insertShm ⟨offset, len, perms⟩ h.mem.shms with
          | some shms => (.ok (), { h with mem := { h.mem with shms := shms } })
          | none => (.err .noMemory, h) := by
  rw [importShm, hexec, if_neg Bool.false_ne_true, usizeAdd_of_lt build hfits,
    Attempt.lift_ok_bind, UInt64.toNat_ofNat_of_lt' hfits]
  split
  · rfl
  · by_cases halign : offset.toNat % MSG_ARG_ALIGN ≠ 0
    · rw [if_pos halign]
      exact congrFun (if_pos halign) h
    · rw [if_neg halign]
      exact congrFun (if_neg halign) h

theorem importShm_cases (build : Build) (hexec : perms.exec = false)
    (hin : offset.toNat + len.toNat ≤ BOUNCE_POOL_SIZE) (halign : offset.toNat % MSG_ARG_ALIGN = 0)
    (h : VirtHal) :
    (HasRoom h.mem.shms offset ∧ ∃ shms, Registered ⟨offset, len, perms⟩ h.mem.shms shms ∧
      importShm build offset len perms h =
        (.ok (), { h with mem := { h.mem with shms := shms } })) ∨
    (¬ HasRoom h.mem.shms offset ∧ importShm build offset len perms h = (.err .noMemory, h)) := by
  have hpool : BOUNCE_POOL_SIZE < 2 ^ 64 := by decide
  rw [importShm_of_fits build hexec (Nat.lt_of_le_of_lt hin hpool), if_neg (Nat.not_lt.mpr hin),
    if_neg (not_not.mpr halign)]
  cases hupdate : updateShm offset len perms h.mem.shms with
  | some shms =>
    have hmem : offset ∈ shmCookies h.mem.shms := by
      by_contra hnot
      rw [updateShm_eq_none_iff.mpr hnot] at hupdate
      cases hupdate
    exact .inl ⟨.inl hmem, shms, (placed_of_updateShm hupdate).registered, rfl⟩
  | none =>
    have hnew := updateShm_eq_none_iff.mp hupdate
    cases hinsert : insertShm ⟨offset, len, perms⟩ h.mem.shms with
    | some shms =>
      have hfree : ¬ h.mem.shms.length ≤ (shmCookies h.mem.shms).length := by
        intro hfull
        rw [insertShm_eq_none_iff.mpr hfull] at hinsert
        cases hinsert
      exact .inl ⟨.inr (Nat.lt_of_not_le hfree), shms,
        (placed_of_insertShm hnew hinsert).registered, rfl⟩
    | none =>
      refine .inr ⟨?_, rfl⟩
      rintro (hold | hfree)
      · exact hnew hold
      · exact absurd hfree (Nat.not_lt.mpr (insertShm_eq_none_iff.mp hinsert))

end Register

/-! ### The HAL of the kernel -/

variable {τ : Type}

/-- `impl Hal for VirtHal`; the rest of the machine is `τ`. -/
def virtHal (base : UInt64) (imageAt : List Bytes → VirtAddr) :
    Hal (HalMem × τ) (VirtAs base) VirtShm where
  entropyOrigin := fun _ => .reeHost
  newAddressSpace := fun w => (VirtAs.new base, w)
  lookupShm := fun w cookie => lookupShm w.1.shms cookie
  lookupShmMut := fun w cookie =>
    (w.1.lookupShmMut cookie).map fun found => (found.1, fun s => (found.2 s, w.2))
  shmLen := VirtShm.len
  syncIn := fun s => (.ok (), s)
  syncOut := fun s => (.ok (), s)
  mapInto := fun s a perms => a.mapShm s perms
  mapImage := fun a _ src perms => a.mapImage imageAt src perms
  unmap := VirtAs.unmap
  dropAll := fun _ w => w

def overPool {α : Type} (code : Pool × τ → CallExit α × (Pool × τ)) (w : HalMem × τ) :
    CallExit α × (HalMem × τ) :=
  let r := code (w.1.pool, w.2)
  (r.1, ({ w.1 with pool := r.2.1 }, r.2.2))

def taOverPool (ta : TaCode (Pool × τ)) : TaCode (HalMem × τ) where
  create := fun addr => overPool (ta.create addr)
  destroy := fun addr => overPool (ta.destroy addr)
  openSession := fun addr types raw ctx => overPool (ta.openSession addr types raw ctx)
  closeSession := fun addr ctx => overPool (ta.closeSession addr ctx)
  invoke := fun addr ctx cmdId types raw => overPool (ta.invoke addr ctx cmdId types raw)

/-- A pseudo-TA is part of the kernel's image and has no pointer to the pool. -/
def besideHal {α : Type} (code : τ → CallExit α × τ) (w : HalMem × τ) :
    CallExit α × (HalMem × τ) :=
  let r := code w.2
  (r.1, (w.1, r.2))

def ptaBesideHal (pta : PtaCode τ) : PtaCode (HalMem × τ) where
  open_ := fun p params => besideHal (pta.open_ p params)
  invoke := fun p ctx cmd params => besideHal (pta.invoke p ctx cmd params)
  close := fun p ctx => besideHal (pta.close p ctx)

/-- What a guest is built from besides the kernel. -/
structure Platform (τ : Type) where
  /-- The address of the pool. -/
  base : UInt64
  imageAt : List Bytes → VirtAddr
  ta : TaCode (Pool × τ)
  pta : PtaCode τ
  crypto : CryptoProvider
  target : Target

def virtEnv (p : Platform τ) : Env (HalMem × τ) (VirtAs p.base) VirtShm where
  hal := virtHal p.base p.imageAt
  ta := taOverPool p.ta
  pta := ptaBesideHal p.pta
  crypto := p.crypto
  target := p.target

/-! ### The kernel and the table -/

theorem lookupShmMut_virt {p : Platform τ} {w : HalMem × τ}
    (h : lookupShm w.1.shms cookie = some s) :
    ∃ put, (virtEnv p).hal.lookupShmMut w cookie = some (s, put) ∧ put s = w := by
  refine ⟨fun s => ({ w.1 with shms := writeShm cookie s w.1.shms }, w.2), ?_, ?_⟩
  · show ((lookupShm w.1.shms cookie).map _).map _ = _
    rw [h]
    rfl
  · show ({ w.1 with shms := writeShm cookie s w.1.shms }, w.2) = w
    rw [writeShm_lookup h]

theorem lookupShmMut_virt_none {p : Platform τ} {w : HalMem × τ}
    (h : lookupShm w.1.shms cookie = none) : (virtEnv p).hal.lookupShmMut w cookie = none := by
  show ((lookupShm w.1.shms cookie).map _).map _ = _
  rw [h]
  rfl

variable (p : Platform τ)

/-- `sync_in` has nothing to do; an input that is not registered is noticed here. -/
theorem syncInParam_virt (cookie : UInt64) (dir : Dir) (w : HalMem × τ) :
    syncInParam (virtEnv p) cookie dir w =
      (decide (dir = .output ∨ (lookupShm w.1.shms cookie).isSome), w) := by
  rw [syncInParam]
  by_cases hdir : dir = .output
  · simp [hdir]
  · rw [if_neg hdir]
    cases hfound : lookupShm w.1.shms cookie with
    | none =>
      rw [lookupShmMut_virt_none hfound]
      simp [hdir]
    | some s =>
      obtain ⟨put, hlookup, hput⟩ := lookupShmMut_virt (p := p) hfound
      rw [hlookup]
      have hsync : (virtEnv p).hal.syncIn s = (.ok (), s) := rfl
      simp [hsync, hput]

theorem syncOutParam_virt (cookie : UInt64) (dir : Dir) (w : HalMem × τ) :
    syncOutParam (virtEnv p) cookie dir w = w := by
  rw [syncOutParam]
  split
  · rfl
  · cases hfound : lookupShm w.1.shms cookie with
    | none => rw [lookupShmMut_virt_none hfound]
    | some =>
      obtain ⟨put, hlookup, hput⟩ := lookupShmMut_virt (p := p) hfound
      rw [hlookup]
      exact hput

def shmsFrame (τ : Type) : Frame (HalMem × τ) where
  rel w w' := w'.1.shms = w.1.shms
  refl _ := rfl
  trans h h' := h'.trans h

theorem reaches_shmsFrame : Reaches (virtEnv p) (shmsFrame τ) (fun _ => True) fun _ => True where
  newSpace _ := rfl
  syncIn cookie dir w := by
    rw [syncInParam_virt]
    rfl
  syncOut cookie dir w := by
    rw [syncOutParam_virt]
    rfl
  dropAll _ _ := rfl
  create _ _ _ := rfl
  destroy _ _ _ := rfl
  openSession _ _ _ _ _ := rfl
  closeSession _ _ _ _ := rfl
  invoke _ _ _ _ _ _ _ := rfl
  ptaOpen _ _ _ := rfl
  ptaInvoke _ _ _ _ _ := rfl
  ptaClose _ _ _ := rfl

theorem osKernel_shms (cmd : KernelCmd) (mem : HalMem)
    (m : Machine (HalMem × τ) (VirtAs p.base)) :
    ((Guest.osKernel (virtEnv p)).handle cmd mem m).2.1.shms = mem.shms :=
  (reaches_shmsFrame p).world (m := { m with world := (mem, m.world.2) }) fun _ _ => trivial

end Rustee.Virt
