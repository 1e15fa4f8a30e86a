import Mathlib.Data.Finset.Card
import Rustee.GuestSteps
import Rustee.VirtSpaces

/-!
# Do finished calls leave room for the next? (`import_memrefs` of the guest's `main.rs`)

Before a command goes to the kernel, every memory reference of its message is registered in the
HAL's table under its offset. A slot is never freed: the kernel unmaps what it mapped and leaves
the table alone. So a run goes well as long as its windows have no more different offsets than the
table has slots.
-/

namespace Rustee.Guest

open Os Virt Attempt List VirtHal

variable {κ τ : Type}

/-! ### ENTERs -/

/-- An ENTER as `handle_enter` finds it: its frame, and the pool that has the message. -/
structure EnterMsg where
  pool : Pool
  frame : CallFrame

namespace EnterMsg

def cmd? (build : Build) (e : EnterMsg) : Option KernelCmd :=
  match decodeCmd build e.pool e.frame.cookieA1a2 with
  | .ok cmd => some cmd
  | _ => none

def params (build : Build) (e : EnterMsg) : List Param := ((e.cmd? build).map cmdParams).getD []

end EnterMsg

section Runs

variable (K : GuestKernel κ) (build : Build)

def enterMsg (e : EnterMsg) : GM κ Unit := do
  modify fun g => g.withPool e.pool
  handleEnter K build e.frame

/-- What `import_shm` returns for a parameter; `import_memrefs` does not look at it. -/
def importResult (h : VirtHal) : Param → List (Fallible HalError Unit)
  | .memref (.ree cookie offs) size dir =>
    [((lift (usizeAdd build cookie offs) >>= fun start =>
      importShm build start (if size = 0 then 1 else size) (permsOf dir)) h).1]
  | _ => []

def importResults : List Param → GuestState κ → List (Fallible HalError Unit)
  | [], _ => []
  | p :: ps, g =>
    importResult build g.hal p ++ importResults ps (importMemref build p g).2

def runImports : List EnterMsg → GuestState κ → List (Fallible HalError Unit)
  | [], _ => []
  | e :: es, g =>
    importResults build (e.params build) (g.withPool e.pool) ++
      runImports es (enterMsg K build e g).2

end Runs

/-! ### Windows -/

def WindowOk : Param → Prop
  | .memref (.ree cookie offs) size _ =>
    (cookie.toNat + offs.toNat) % MSG_ARG_ALIGN = 0 ∧
      cookie.toNat + offs.toNat + size.toNat ≤ BOUNCE_POOL_SIZE
  | _ => True

instance (p : Param) : Decidable (WindowOk p) :=
  match p with
  | .memref (.ree _ _) _ _ => inferInstanceAs (Decidable (_ ∧ _))
  | .memref (.ta _) _ _ => isTrue trivial
  | .value _ _ _ => isTrue trivial
  | .none => isTrue trivial

def windowStart : Param → Option UInt64
  | .memref (.ree cookie offs) _ _ => some (cookie + offs)
  | _ => none

def isInvoke : KernelCmd → Bool
  | .invoke .. => true
  | _ => false

def ValidInvoke (build : Build) (e : EnterMsg) : Prop :=
  (e.cmd? build).any isInvoke ∧ ∀ p ∈ e.params build, WindowOk p

instance (build : Build) (e : EnterMsg) : Decidable (ValidInvoke build e) :=
  inferInstanceAs (Decidable (_ ∧ _))

def windows (build : Build) (e : EnterMsg) : List UInt64 := (e.params build).filterMap windowStart

/-- The windows start inside the pool, and together with what is registered they have no
more different offsets than the table has slots. -/
def RoomFor (shms : List (Option VirtShm)) (starts : List UInt64) : Prop :=
  (∀ w ∈ starts, w.toNat < BOUNCE_POOL_SIZE) ∧
    (shmCookies shms ++ starts).toFinset.card ≤ shms.length

/-- The table has distinct offsets in its 32 slots. -/
structure ShmTableOk (shms : List (Option VirtShm)) : Prop where
  length : shms.length = 32
  nodup : (shmCookies shms).Nodup

/-! ### One message -/

def GuestState.withShms (g : GuestState κ) (shms : List (Option VirtShm)) : GuestState κ :=
  { g with hal := { g.hal with mem := { g.hal.mem with shms := shms } } }

theorem permsOf_exec (dir : Dir) : (permsOf dir).exec = false := by
  cases dir <;> rfl

section Import

variable {build : Build} {g : GuestState κ} {cookie offs size : UInt64} {dir : Dir}

theorem toNat_windowStart (h : WindowOk (.memref (.ree cookie offs) size dir)) :
    (cookie + offs).toNat = cookie.toNat + offs.toNat := by
  have hpool : BOUNCE_POOL_SIZE < 2 ^ 64 := by decide
  have hin := h.2
  rw [UInt64.toNat_add]
  omega

/-- A window that starts inside the pool is registered if there is room, and refused for
want of memory otherwise. -/
theorem import_cases (build : Build) (g : GuestState κ)
    (h : WindowOk (.memref (.ree cookie offs) size dir))
    (hstart : (cookie + offs).toNat < BOUNCE_POOL_SIZE) :
    (HasRoom g.hal.mem.shms (cookie + offs) ∧ ∃ shms,
      Registered ⟨cookie + offs, if size = 0 then 1 else size, permsOf dir⟩ g.hal.mem.shms shms ∧
      importResult build g.hal (.memref (.ree cookie offs) size dir) = [.ok ()] ∧
      importMemref build (.memref (.ree cookie offs) size dir) g = (.ok (), g.withShms shms)) ∨
    (¬ HasRoom g.hal.mem.shms (cookie + offs) ∧
      importResult build g.hal (.memref (.ree cookie offs) size dir) = [.err .noMemory]) := by
  have hpool : BOUNCE_POOL_SIZE < 2 ^ 64 := by decide
  have hnat := toNat_windowStart h
  have hsum : cookie.toNat + offs.toNat < 2 ^ 64 := by
    have hin := h.2
    omega
  have hadd : UInt64.ofNat (cookie.toNat + offs.toNat) = cookie + offs := by
    rw [← hnat, UInt64.ofNat_toNat]
  have hlen : (cookie + offs).toNat + (if size = 0 then 1 else size).toNat ≤ BOUNCE_POOL_SIZE := by
    split
    · exact hstart
    · rw [hnat]
      exact h.2
  have halign : (cookie + offs).toNat % MSG_ARG_ALIGN = 0 := by
    rw [hnat]
    exact h.1
  rw [importResult, importMemref, usizeAdd_of_lt build hsum, usizeAdd_of_lt build hsum, hadd,
    lift_ok_bind, lift_ok_bind]
  rcases importShm_cases build (permsOf_exec dir) hlen halign g.hal with
    ⟨hroom, shms, hshms, hrun⟩ | ⟨hfull, hrun⟩
  · refine Or.inl ⟨hroom, shms, hshms, ?_, ?_⟩
    · rw [hrun]
    · rw [bind_of_ok (onHal_of_ok hrun)]
      rfl
  · refine Or.inr ⟨hfull, ?_⟩
    rw [hrun]

/-- An empty window at the end of the pool is refused: it is taken for one of one byte. -/
theorem import_at_end (h : WindowOk (.memref (.ree cookie offs) size dir))
    (hstart : ¬ (cookie + offs).toNat < BOUNCE_POOL_SIZE) :
    importResult build g.hal (.memref (.ree cookie offs) size dir) = [.err .invalidParam] := by
  have hpool : BOUNCE_POOL_SIZE + 1 < 2 ^ 64 := by decide
  have hnat := toNat_windowStart h
  have hin := h.2
  have hsum : cookie.toNat + offs.toNat < 2 ^ 64 := by omega
  have hadd : UInt64.ofNat (cookie.toNat + offs.toNat) = cookie + offs := by
    rw [← hnat, UInt64.ofNat_toNat]
  have hempty : size = 0 := by
    apply UInt64.toNat_inj.mp
    show size.toNat = 0
    omega
  have hone : (1 : UInt64).toNat = 1 := rfl
  have hend : (cookie + offs).toNat + (1 : UInt64).toNat < 2 ^ 64 := by omega
  have hpast : (UInt64.ofNat ((cookie + offs).toNat + (1 : UInt64).toNat)).toNat >
      BOUNCE_POOL_SIZE := by
    rw [UInt64.toNat_ofNat_of_lt' hend]
    omega
  rw [importResult, usizeAdd_of_lt build hsum, hadd, lift_ok_bind, if_pos hempty,
    importShm, permsOf_exec, if_neg Bool.false_ne_true, usizeAdd_of_lt build hend,
    lift_ok_bind, if_pos hpast]
  rfl

end Import

variable {build : Build} {p : Param}

theorem importResult_of_other {h : VirtHal}
    (hp : windowStart p = none) : importResult build h p = [] := by
  cases p with
  | none | value => rfl
  | memref src =>
    cases src with
    | ree => cases hp
    | ta => rfl

variable {g : GuestState κ}

theorem importMemref_of_other
    (hp : windowStart p = none) : importMemref build p g = (.ok (), g) := by
  cases p with
  | none | value => rfl
  | memref src =>
    cases src with
    | ree => cases hp
    | ta => rfl

/-- The table after windows at `starts` have been registered. -/
structure Extended (starts : List UInt64) (shms shms' : List (Option VirtShm)) : Prop where
  length : shms'.length = shms.length
  nodup : (shmCookies shms).Nodup → (shmCookies shms').Nodup
  cookies : (shmCookies shms').toFinset = (shmCookies shms ++ starts).toFinset

variable {shms shms' : List (Option VirtShm)} {shm : VirtShm}

theorem toFinset_registered (h : Registered shm shms shms') (starts : List UInt64) :
    (shmCookies shms' ++ starts).toFinset = (shmCookies shms ++ shm.cookie :: starts).toFinset := by
  ext cookie
  simp only [mem_toFinset, mem_append, mem_cons, h.mem]
  tauto

theorem roomFor_registered
    (h : Registered shm shms shms') (hin : shm.cookie.toNat < BOUNCE_POOL_SIZE)
    (starts : List UInt64) : RoomFor shms' starts ↔ RoomFor shms (shm.cookie :: starts) := by
  rw [RoomFor, RoomFor, toFinset_registered h, h.length, forall_mem_cons]
  exact ⟨fun hr => ⟨⟨hin, hr.1⟩, hr.2⟩, fun hr => ⟨hr.1.2, hr.2⟩⟩

theorem not_roomFor_of_full (hnodup : (shmCookies shms).Nodup)
    {w : UInt64} (hfull : ¬ HasRoom shms w) (starts : List UInt64) :
    ¬ RoomFor shms (w :: starts) := by
  rintro ⟨-, hcard⟩
  obtain ⟨hnew, hslots⟩ := not_or.mp hfull
  have hsub : insert w (shmCookies shms).toFinset ⊆ (shmCookies shms ++ w :: starts).toFinset := by
    intro cookie hcookie
    simp only [Finset.mem_insert, mem_toFinset, mem_append, mem_cons] at hcookie ⊢
    tauto
  have hfresh : w ∉ (shmCookies shms).toFinset := by
    rw [mem_toFinset]
    exact hnew
  have hle := Finset.card_le_card hsub
  rw [Finset.card_insert_of_notMem hfresh, toFinset_card_of_nodup hnodup] at hle
  omega

theorem windowStart_eq_some {w : UInt64} (h : windowStart p = some w) :
    ∃ cookie offs size dir, p = .memref (.ree cookie offs) size dir ∧ w = cookie + offs := by
  cases p with
  | none | value => cases h
  | memref src size dir =>
    cases src with
    | ree cookie offs =>
      cases h
      exact ⟨cookie, offs, size, dir, rfl, rfl⟩
    | ta => cases h

/-- All imports of a message succeed exactly when there is room for its windows. -/
theorem importResults_ok_iff (build : Build) {ps : List Param} (hok : ∀ p ∈ ps, WindowOk p)
    (g : GuestState κ) (hnodup : (shmCookies g.hal.mem.shms).Nodup) :
    (∀ r ∈ importResults build ps g, r = .ok ()) ↔
      RoomFor g.hal.mem.shms (ps.filterMap windowStart) := by
  induction ps generalizing g with
  | nil =>
    have hcard : (shmCookies g.hal.mem.shms ++ []).toFinset.card ≤ g.hal.mem.shms.length := by
      rw [append_nil, toFinset_card_of_nodup hnodup]
      exact length_shmCookies_le _
    constructor
    · intro _
      exact ⟨fun w hw => absurd hw not_mem_nil, hcard⟩
    · intro _ r hr
      cases hr
  | cons p ps ih =>
    obtain ⟨hp, hps⟩ := forall_mem_cons.mp hok
    rw [importResults, forall_mem_append]
    cases hw : windowStart p with
    | none =>
      rw [importResult_of_other hw, importMemref_of_other hw, filterMap_cons_none hw,
        ih hps g hnodup]
      exact ⟨fun h => h.2, fun h => ⟨fun r hr => (not_mem_nil hr).elim, h⟩⟩
    | some =>
      rw [filterMap_cons_some hw]
      obtain ⟨cookie, offs, size, dir, rfl, rfl⟩ := windowStart_eq_some hw
      by_cases hstart : (cookie + offs).toNat < BOUNCE_POOL_SIZE
      · rcases import_cases build g hp hstart with
          ⟨-, shms, hshms, hresult, hrun⟩ | ⟨hfull, hresult⟩
        · rw [hresult, hrun, forall_mem_singleton, ih hps _ (hshms.nodup hnodup)]
          rw [← roomFor_registered hshms hstart]
          exact ⟨fun h => h.2, fun h => ⟨rfl, h⟩⟩
        · rw [hresult, forall_mem_singleton]
          constructor
          · rintro ⟨h, -⟩
            cases h
          · intro h
            exact absurd h (not_roomFor_of_full hnodup hfull _)
      · rw [import_at_end hp hstart, forall_mem_singleton]
        constructor
        · rintro ⟨h, -⟩
          cases h
        · intro h
          exact absurd (h.1 _ mem_cons_self) hstart

/-- With room for them, the windows of a message are registered and nothing else changes. -/
theorem importAll_of_room (build : Build) {ps : List Param} (hok : ∀ p ∈ ps, WindowOk p)
    (g : GuestState κ) (hnodup : (shmCookies g.hal.mem.shms).Nodup)
    (hroom : RoomFor g.hal.mem.shms (ps.filterMap windowStart)) :
    ∃ shms, importAll build ps g = (.ok (), g.withShms shms) ∧
      Extended (ps.filterMap windowStart) g.hal.mem.shms shms := by
  induction ps generalizing g with
  | nil => exact ⟨g.hal.mem.shms, rfl, rfl, id, by rw [filterMap_nil, append_nil]⟩
  | cons p ps ih =>
    obtain ⟨hp, hps⟩ := forall_mem_cons.mp hok
    cases hw : windowStart p with
    | none =>
      rw [filterMap_cons_none hw] at hroom ⊢
      rw [importAll, bind_of_ok (importMemref_of_other hw)]
      exact ih hps g hnodup hroom
    | some =>
      rw [filterMap_cons_some hw] at hroom ⊢
      obtain ⟨cookie, offs, size, dir, rfl, rfl⟩ := windowStart_eq_some hw
      have hstart := hroom.1 _ mem_cons_self
      rcases import_cases build g hp hstart with
        ⟨-, shms, hshms, -, hrun⟩ | ⟨hfull, -⟩
      · obtain ⟨shms', hrest, hext⟩ := ih hps (g.withShms shms) (hshms.nodup hnodup)
          ((roomFor_registered hshms hstart _).mpr hroom)
        refine ⟨shms', ?_, hext.length.trans hshms.length, fun h => hext.nodup (hshms.nodup h), ?_⟩
        · rw [importAll, bind_of_ok hrun, hrest]
          rfl
        · rw [hext.cookies]
          exact toFinset_registered hshms _
      · exact absurd hroom (not_roomFor_of_full hnodup hfull _)

theorem RoomFor.first {starts rest : List UInt64}
    (h : RoomFor shms (starts ++ rest)) : RoomFor shms starts := by
  refine ⟨fun w hw => h.1 w (mem_append_left _ hw), le_trans ?_ h.2⟩
  apply Finset.card_le_card
  intro cookie hcookie
  simp only [mem_toFinset, mem_append] at hcookie ⊢
  tauto

/-- Once windows are registered, there is room for more exactly if there was for both. -/
theorem Extended.roomFor {starts : List UInt64}
    (h : Extended starts shms shms') (hfirst : RoomFor shms starts) (rest : List UInt64) :
    RoomFor shms' rest ↔ RoomFor shms (starts ++ rest) := by
  have hcookies : (shmCookies shms' ++ rest).toFinset =
      (shmCookies shms ++ (starts ++ rest)).toFinset := by
    rw [toFinset_append, h.cookies, ← toFinset_append, append_assoc]
  rw [RoomFor, RoomFor, hcookies, h.length, forall_mem_append]
  exact ⟨fun hr => ⟨⟨hfirst.1, hr.1⟩, hr.2⟩, fun hr => ⟨hr.1.2, hr.2⟩⟩

/-! ### A whole run -/

def KeepsShms (K : GuestKernel κ) : Prop :=
  ∀ cmd mem k, (K.handle cmd mem k).2.1.shms = mem.shms

def sameMem : Frame VirtHal where
  rel h h' := h'.mem = h.mem
  refl _ := rfl
  trans h h' := h'.trans h

variable {α : Type}

theorem onGate_sameMem (x : Attempt VirtCallGate HalError α) :
    Keeps sameMem (onGate x) := fun _ => rfl

theorem onConn_sameMem (x : Attempt VsockConn HalError α) : Keeps sameMem (onConn x) := by
  intro h
  rw [onConn]
  split <;> rfl

theorem takeTx_sameMem (build : Build) : Keeps sameMem (takeTx build) := by
  intro h
  rw [takeTx]
  split <;> rfl

theorem completeStream_sameMem (build : Build) (out : CallFrame) :
    Keeps sameMem (completeStream build out) := by
  refine (onGate_sameMem _).bind fun _ => (takeTx_sameMem build).bind fun tx => ?_
  rcases tx with _ | ⟨hdr, frame, bounce⟩
  · exact keeps_raise _
  · exact (onConn_sameMem _).bind fun _ => keeps_pure _

def besideKernel (κ : Type) : Frame (GuestState κ) where
  rel g g' := g'.kernel = g.kernel ∧ g'.hal.mem.shms = g.hal.mem.shms
  refl _ := ⟨rfl, rfl⟩
  trans h h' := ⟨h'.1.trans h.1, h'.2.trans h.2⟩

theorem onHal_beside {x : Attempt VirtHal HalError α}
    (hx : Keeps sameMem x) : Keeps (besideKernel κ) (onHal x) := by
  intro g
  have hmem : (x g.hal).2.mem = g.hal.mem := hx g.hal
  rw [onHal]
  rcases hrun : x g.hal with ⟨r, h⟩
  rw [hrun] at hmem
  cases r with
  | ok | err | panic => exact ⟨rfl, congrArg HalMem.shms hmem⟩

theorem modify_beside {f : GuestState κ → GuestState κ}
    (hf : ∀ g, (f g).kernel = g.kernel ∧ (f g).hal.mem.shms = g.hal.mem.shms) :
    Keeps (besideKernel κ) (modify f : GM κ Unit) := hf

theorem completeCall_beside (build : Build) (frame : CallFrame) :
    Keeps (besideKernel κ) (completeCall build frame) := by
  refine (onHal_beside (completeStream_sameMem build frame)).bind fun r => ?_
  rcases r with e | ⟨vh, pdu⟩
  · exact keeps_pure _
  · exact modify_beside fun _ => ⟨rfl, rfl⟩

theorem writeResult_beside (build : Build) (frame : CallFrame) (ret origin session : UInt32)
    (produced : Params) :
    Keeps (besideKernel κ) (writeResult build frame ret origin session produced) := by
  intro g
  rw [writeResult]
  split <;> exact ⟨rfl, rfl⟩

theorem sendTx_beside (build : Build) : Keeps (besideKernel κ) (sendTx build) := by
  refine (onHal_beside (takeTx_sameMem build)).bind fun r => ?_
  rcases r with e | tx
  · exact keeps_raise _
  rcases tx with _ | ⟨hdr, frame, bounce⟩
  · exact keeps_raise _
  · refine (onHal_beside (onConn_sameMem _)).bind fun r => ?_
    rcases r with e | vh
    · exact keeps_pure _
    · exact modify_beside fun _ => ⟨rfl, rfl⟩

theorem sendLoadTa_beside (build : Build) (uuid : Uuid) :
    Keeps (besideKernel κ) (sendLoadTa build uuid) := by
  refine Keeps.bind (fun g => (besideKernel κ).refl g) fun pool => ?_
  rcases packLoadTa pool uuid with _ | ⟨cookie, bounceLen, pool'⟩
  · exact keeps_raise _
  · refine Keeps.bind ?_ fun _ => Keeps.bind ?_ fun _ =>
      (onHal_beside (onGate_sameMem _)).bind fun _ => sendTx_beside build
    · exact modify_beside fun _ => ⟨rfl, rfl⟩
    · exact modify_beside fun _ => ⟨rfl, rfl⟩

/-- What the loop does with the kernel's answer touches neither the kernel nor the table. -/
theorem dispatchOut_beside (build : Build) (frame : CallFrame) (out : KernelOut) :
    Keeps (besideKernel κ) (dispatchOut build frame out) := by
  cases out with
  | done =>
    exact (writeResult_beside build frame _ _ _ _).bind fun _ => completeCall_beside build frame
  | rpc request =>
    cases request with
    | loadTa uuid =>
      exact (sendLoadTa_beside build uuid).bind fun _ => modify_beside fun _ => ⟨rfl, rfl⟩
    | _ => exact keeps_raise _

def sameShms (κ : Type) : Frame (GuestState κ) where
  rel g g' := g'.hal.mem.shms = g.hal.mem.shms
  refl _ := rfl
  trans h h' := h'.trans h

variable {K : GuestKernel κ}

theorem kernelHandle_sameShms (hK : KeepsShms K) (cmd : KernelCmd) :
    Keeps (sameShms κ) (kernelHandle K cmd) := by
  intro g
  have hshms := hK cmd g.hal.mem g.kernel
  rw [kernelHandle]
  rcases hrun : K.handle cmd g.hal.mem g.kernel with ⟨exit, mem, k⟩
  rw [hrun] at hshms
  cases exit with
  | value | unwind | abort => exact hshms

theorem enterMsg_eq {e : EnterMsg} {cmd : KernelCmd}
    (hcmd : e.cmd? build = some cmd) (g : GuestState κ) :
    enterMsg K build e g =
      (importAll build (e.params build) >>= fun _ => kernelHandle K cmd >>= fun out =>
        dispatchOut build e.frame out) (g.withPool e.pool) := by
  have hdecode : decodeCmd build e.pool e.frame.cookieA1a2 = .ok cmd := by
    rw [EnterMsg.cmd?] at hcmd
    split at hcmd
    · rename_i cmd' hdecode
      cases hcmd
      exact hdecode
    · cases hcmd
  have hparams : e.params build = cmdParams cmd := by
    rw [EnterMsg.params, hcmd]
    rfl
  have hpool : (g.withPool e.pool).pool = e.pool := rfl
  rw [enterMsg, bind_of_ok (modify_apply _ _), handleEnter,
    bind_of_ok (gets_apply _ _), hpool, hdecode, hparams]
  rfl

/-- A message of a run: its windows are registered, and the kernel adds nothing. -/
theorem enterMsg_of_room (hK : KeepsShms K) {e : EnterMsg} (hvalid : ValidInvoke build e)
    (hnodup : (shmCookies g.hal.mem.shms).Nodup)
    (hroom : RoomFor g.hal.mem.shms (windows build e)) :
    Extended (windows build e) g.hal.mem.shms (enterMsg K build e g).2.hal.mem.shms := by
  obtain ⟨hinvoke, hwindows⟩ := hvalid
  obtain ⟨cmd, hcmd⟩ : ∃ cmd, e.cmd? build = some cmd := by
    cases hcmd : e.cmd? build with
    | none =>
      rw [hcmd] at hinvoke
      cases hinvoke
    | some cmd => exact ⟨cmd, rfl⟩
  obtain ⟨shms, hrun, hext⟩ := importAll_of_room build hwindows (g.withPool e.pool) hnodup hroom
  have hkept := (kernelHandle_sameShms hK cmd).bind
    (fun out g' => (dispatchOut_beside build e.frame out g').2) ((g.withPool e.pool).withShms shms)
  rw [enterMsg_eq hcmd, bind_of_ok hrun]
  exact Eq.subst (motive := fun t => Extended (windows build e) g.hal.mem.shms t) hkept.symm hext

/-- Every import of a run succeeds exactly when there is room for all its windows. -/
theorem runImports_ok_iff (hK : KeepsShms K)
    {es : List EnterMsg} (hvalid : ∀ e ∈ es, ValidInvoke build e)
    (hnodup : (shmCookies g.hal.mem.shms).Nodup) :
    (∀ r ∈ runImports K build es g, r = .ok ()) ↔
      RoomFor g.hal.mem.shms (es.flatMap (windows build)) := by
  induction es generalizing g with
  | nil =>
    have hnone := importResults_ok_iff build (fun p hp => (not_mem_nil hp).elim) g hnodup
    exact hnone
  | cons e es ih =>
    obtain ⟨he, hes⟩ := forall_mem_cons.mp hvalid
    rw [runImports, forall_mem_append, flatMap_cons,
      importResults_ok_iff build he.2 (g.withPool e.pool) hnodup]
    constructor
    · rintro ⟨hfirst, hrest⟩
      have hext := enterMsg_of_room hK he hnodup hfirst
      exact (hext.roomFor hfirst _).mp ((ih hes (hext.nodup hnodup)).mp hrest)
    · intro hroom
      have hfirst := hroom.first
      have hext := enterMsg_of_room hK he hnodup hfirst
      exact ⟨hfirst, (ih hes (hext.nodup hnodup)).mpr ((hext.roomFor hfirst _).mpr hroom)⟩

/-- On the virt platform, `import_shm` succeeds for every memory reference of every message
of a run exactly when the windows named have at most 32 different offsets, those already
registered included, and none is the empty window at the end of the pool. -/
theorem imports_succeed_iff (p : Platform τ) (build : Build) {es : List EnterMsg}
    (hvalid : ∀ e ∈ es, ValidInvoke build e) {g : GuestState (Machine (HalMem × τ) (VirtAs p.base))}
    (htable : ShmTableOk g.hal.mem.shms) :
    (∀ r ∈ runImports (osKernel (virtEnv p)) build es g, r = .ok ()) ↔
      (∀ w ∈ es.flatMap (windows build), w.toNat < BOUNCE_POOL_SIZE) ∧
        (shmCookies g.hal.mem.shms ++ es.flatMap (windows build)).toFinset.card ≤ 32 := by
  rw [runImports_ok_iff (osKernel_shms p) hvalid htable.nodup, RoomFor, htable.length]

/-! ### Thirty-three windows -/

def quietTa : TaCode (Pool × Unit) where
  create := fun _ w => (.returns 0, w)
  destroy := fun _ w => (.returns (), w)
  openSession := fun _ _ raw ctx w => (.returns (0, raw, ctx), w)
  closeSession := fun _ _ w => (.returns (), w)
  invoke := fun _ _ _ _ raw w => (.returns (0, raw), w)

def quietPlatform : Platform Unit where
  base := 0x40000000
  imageAt := fun _ => 0x50000000
  ta := quietTa
  pta := sampleEnv.pta
  crypto := sampleEnv.crypto
  target := ⟨.release, true⟩

def quietGuest : GuestState (Machine (HalMem × Unit) (VirtAs quietPlatform.base)) where
  hal := init
  kernel := emitReeNotices true (Machine.new (virtEnv quietPlatform) (init.mem, ()))
  waiting := none
  sent := []

/-- An Invoke with eight bytes of input at `offset`. -/
def windowMsg (offset : UInt64) : EnterMsg where
  pool := (⟨fun _ => 0⟩ : Pool).put 0x1000
    ((⟨MSG_CMD_INVOKE_COMMAND, 0, 1, 0, 0, 0, 0, 1⟩ : MsgArgHdr).encode ++
      (⟨ATTR_TYPE_TMEM_INPUT, offset, 8, offset⟩ : MsgParam).encode)
  frame := rpcFrame 0x1000

def manyWindows : List EnterMsg :=
  (range 33).map fun i => windowMsg (UInt64.ofNat (0x2000 + 8 * i))

/-- Three messages with a window each. -/
theorem imports_succeed_iff_sample :
    ShmTableOk quietGuest.hal.mem.shms ∧
    ∀ r ∈ runImports (osKernel (virtEnv quietPlatform)) .release (manyWindows.take 3) quietGuest,
      r = .ok () := by
  have htable : ShmTableOk quietGuest.hal.mem.shms := ⟨by decide, by decide⟩
  refine ⟨htable, (imports_succeed_iff quietPlatform .release ?_ htable).mpr ?_⟩
  · decide +kernel
  · have hwindows : (manyWindows.take 3).flatMap (windows .release) = [0x2000, 0x2008, 0x2010] := by
      decide +kernel
    rw [hwindows, forall_mem_cons, forall_mem_cons, forall_mem_singleton]
    decide +kernel

/-- Of thirty-three valid messages with a window each, the last one's is refused, though it
is taken when it comes first. -/
theorem thirty_third_window_refused :
    (∀ e ∈ manyWindows, ValidInvoke .release e) ∧
    (∀ r ∈ runImports (osKernel (virtEnv quietPlatform)) .release (manyWindows.drop 32) quietGuest,
      r = .ok ()) ∧
    ¬ ∀ r ∈ runImports (osKernel (virtEnv quietPlatform)) .release manyWindows quietGuest,
      r = .ok () := by
  decide +kernel

end Rustee.Guest
