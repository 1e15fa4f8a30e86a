import Rustee.OsAddressSpaces
import Rustee.OsFrames

/-!
# When address spaces are kept

A command keeps the address space of its target, with the mappings it held, if the target still has
one and the memory references of the command fit. In a run in which all references fit no Live
instance ever loses its address space, so there those of the next command alone decide.
-/

namespace Rustee.Os

open SlotTable Prog List

variable {σ A S α : Type} {env : Env σ A S} {m m₀ m' : Machine σ A} {iid : InstanceId}
  {params : Params} {cmd : KernelCmd}

/-! ### When the address spaces are kept -/

/-- A target that is still there and Live has its address space, with exactly the
mappings it held before the command. -/
def SpacesKept (acct : HeldMappings env.hal) (m : Machine σ A) (cmd : KernelCmd)
    (m' : Machine σ A) : Prop :=
  ∀ iid i, TargetOf env m cmd iid i → ∀ i', m'.instances.get iid = some i' →
    i'.state = .live →
    ∃ a a', i.aspace = some a ∧ i'.aspace = some a' ∧ acct.held a' = acct.held a

def SpacesReady (env : Env σ A S) (m : Machine σ A) (cmd : KernelCmd) : Prop :=
  ∀ iid i, TargetOf env m cmd iid i → i.state = .live → i.aspace.isSome

def MemrefsFit (env : Env σ A S) (m : Machine σ A) (cmd : KernelCmd) : Prop :=
  ∀ iid i w params, Maps env m cmd iid i w params → i.state = .live → ∀ a, i.aspace = some a →
    memrefsFit env params (finRange PARAM_COUNT) w a true = true

/-- A command that returns keeps the address space of its target, mappings included, if
and only if the target has one and the memory references fit. -/
theorem spacesKept_iff (acct : HeldMappings env.hal) (hf : FreshIds m)
    {out : KernelOut} (hrun : handle env cmd m = (.value out, m')) :
    SpacesKept acct m cmd m' ↔ SpacesReady env m cmd ∧ MemrefsFit env m cmd := by
  constructor
  · intro hkept
    constructor
    · intro iid i ht hlive
      by_cases hmaps : ∃ w params, Maps env m cmd iid i w params
      · obtain ⟨w, params, h⟩ := hmaps
        obtain ⟨i', hi', hstate, -⟩ := h.found hf hrun
        obtain ⟨a, a', ha, -⟩ := hkept iid i ht i' hi' (hstate.trans hlive)
        rw [ha]
        rfl
      · rcases ht.untouched hf (fun w params h => hmaps ⟨w, params, h⟩) hrun with
          hview | ⟨-, hsome⟩
        · obtain ⟨i', hi', heq⟩ := view_eq_some hview
          have hstate : i'.state = i.state := congrArg View.state heq
          obtain ⟨a, a', ha, -⟩ := hkept iid i ht i' hi' (hstate.trans hlive)
          rw [ha]
          rfl
        · exact hsome
    · intro iid i w params h hlive a ha
      obtain ⟨i', hi', hstate, hspace⟩ := h.found hf hrun
      obtain ⟨a0, a', ha0, ha', hheld⟩ := hkept iid i h.target i' hi' (hstate.trans hlive)
      cases ha0.symm.trans ha
      rw [ha] at hspace
      exact (hspace.kept_iff acct).mp ⟨a', ha', hheld⟩
  · rintro ⟨hready, hfit⟩ iid i ht i' hi' hlive
    by_cases hmaps : ∃ w params, Maps env m cmd iid i w params
    · obtain ⟨w, params, h⟩ := hmaps
      obtain ⟨i1, hi1, hstate, hspace⟩ := h.found hf hrun
      cases hi1.symm.trans hi'
      have hlive0 : i.state = .live := hstate.symm.trans hlive
      obtain ⟨a, ha⟩ := Option.isSome_iff_exists.mp (hready iid i ht hlive0)
      rw [ha] at hspace
      obtain ⟨a', ha', hheld⟩ := (hspace.kept_iff acct).mpr (hfit iid i w params h hlive0 a ha)
      exact ⟨a, a', ha, ha', hheld⟩
    · have hview' : m'.view iid = some i'.view := congrArg (Option.map Instance.view) hi'
      rcases ht.untouched hf (fun w params h => hmaps ⟨w, params, h⟩) hrun with
        hview | ⟨hview, -⟩
      · have heq : i'.view = i.view := Option.some.inj (hview'.symm.trans hview)
        have hstate : i'.state = i.state := congrArg View.state heq
        have haspace : i'.aspace = i.aspace := congrArg View.aspace heq
        obtain ⟨a, ha⟩ := Option.isSome_iff_exists.mp (hready iid i ht (hstate.symm.trans hlive))
        exact ⟨a, a, ha, haspace.trans ha, rfl⟩
      · cases hview'.symm.trans hview

/-! ### No Live instance loses its address space -/

def AllSpaces (m : Machine σ A) : Prop :=
  ∀ i ∈ m.instances.entries, i.state = .live → i.aspace.isSome

def spacesFrame (σ A : Type) : Frame (Machine σ A) where
  rel m m' := AllSpaces m → AllSpaces m'
  refl _ h := h
  trans h₁ h₂ h := h₂ (h₁ h)

theorem spaces_of_instances_eq (h : m'.instances = m.instances) : (spacesFrame σ A).rel m m' := by
  intro hall
  unfold AllSpaces
  rw [h]
  exact hall

theorem spaces_update {f : Instance A → Instance A}
    (hf : ∀ i, (i.state = .live → i.aspace.isSome) → (f i).state = .live →
      (f i).aspace.isSome) (j : InstanceId) : Keeps (spacesFrame σ A) (updateInstance j f) := by
  refine keeps_modify fun m hall i' hi' => ?_
  rcases mem_of_mem_update hi' with hold | ⟨i, hi, rfl⟩
  · exact hall i' hold
  · exact hf i (hall i (get_some hi).1)

theorem isSome_unmapParamsLoop (env : Env σ A S) (params : Params) (vas : MappedVas)
    (is : List (Fin PARAM_COUNT)) (w : σ) (aspace : Option A) :
    (unmapParamsLoop env params vas is w aspace).2.isSome = aspace.isSome := by
  induction is generalizing w aspace with
  | nil => rfl
  | cons i is ih =>
    unfold unmapParamsLoop
    split
    · rw [ih]
      cases vas.get i with
      | none => rfl
      | some => exact Option.isSome_map
    · exact ih w aspace

theorem spaces_call (code : σ → CallExit α × σ) (returned : α → Event) (panicked : Event) :
    Keeps (spacesFrame σ A) (call code returned panicked) := by
  intro m
  apply spaces_of_instances_eq
  unfold call
  rcases code m.world with ⟨exit, w⟩
  cases exit with
  | returns | panics => rfl

theorem spaces_killInstance (env : Env σ A S) (j : InstanceId) (h : m'.instances = m.instances) :
    (spacesFrame σ A).rel m (killInstance env j m') := by
  intro hall i' hi' hlive
  rcases mem_of_mem_update hi' with hold | ⟨i, hi, rfl⟩
  · exact hall i' (h ▸ hold) hlive
  · cases hlive

theorem spaces_allocInstance (props : TaProperties) (uuid : Uuid) (a : A)
    (entries : Option TaEntryPoints) :
    Keeps (spacesFrame σ A) (allocInstance (newInstance uuid props a entries)) := by
  intro m hall i hi hlive
  change i ∈ (m.instances.alloc _).2.entries at hi
  by_cases hroom : m.instances.HasRoom
  · rcases (mem_alloc hroom _ i).mp hi with rfl | hold
    · rfl
    · exact hall i hold hlive
  · rw [alloc_of_full hroom] at hi
    exact hall i hi hlive

section Fitting

variable (acct : HeldMappings env.hal)

/-- Mapping into this instance, as it is now, does not lose its address space. -/
def FitsAt (env : Env σ A S) (m : Machine σ A) (iid : InstanceId) (params : Params) : Prop :=
  ∀ i, m.instances.get iid = some i → i.state = .live → ∀ a, i.aspace = some a →
    memrefsFit env params (finRange PARAM_COUNT) m.world a true = true

include acct

theorem isSome_mapAll {w : σ} {a : A}
    (h : memrefsFit env params (finRange PARAM_COUNT) w a true = true) :
    (mapAll env params w a).1.aspace.isSome := by
  have hends := mapAll_ends acct params w a
  rw [h] at hends
  generalize (mapAll env params w a).1 = exit at hends
  cases hends with
  | mapped | restored => rfl

theorem spaces_mapParams (hfit : FitsAt env m iid params) :
    (spacesFrame σ A).rel m (mapParams env iid params m).2 := by
  cases hi : m.instances.get iid with
  | none =>
    have hrun : mapParams env iid params m = (.value (.error TEE_ERROR_TARGET_DEAD), m) := by
      simp [mapParams, getInstance, Prog.bind_apply, hi]
    rw [hrun]
    exact (spacesFrame σ A).refl m
  | some i =>
    cases ha : i.aspace with
    | none =>
      rw [mapParams_of_none hi ha]
      exact (spacesFrame σ A).refl m
    | some a =>
      rw [mapParams_of_some hi ha]
      intro hall i' hi' hlive
      rcases mem_of_mem_update hi' with hold | ⟨i1, hi1, rfl⟩
      · exact hall i' hold hlive
      · cases hi1.symm.trans hi
        exact isSome_mapAll acct (hfit i hi hlive a ha)

/-- Only mapping can lose an address space, and it does not if the references fit. -/
theorem spaces_walk (hf : FreshIds m) (hfit : MemrefsFit env m cmd) :
    Walk env (frameJudgement (spacesFrame σ A)) m cmd where
  toSequential := frameJudgement_sequential _
  reads m _ := (spacesFrame σ A).refl m
  counts iid f m hf := by
    refine spaces_update (fun i hi => ?_) iid m
    rw [hf i]
    exact hi
  records _ _ _ := spaces_of_instances_eq rfl
  unmaps iid params vas m hall i' hi' hlive := by
    rcases mem_of_mem_update hi' with hold | ⟨i, hi, rfl⟩
    · exact hall i' hold hlive
    · dsimp only
      rw [isSome_unmapParamsLoop, hi]
      exact hall i (get_some hi).1 hlive
  entering := rel_entering fun _ _ => spaces_of_instances_eq rfl
  enters _ _ m _ _ := spaces_call _ _ _ m
  gate := (spacesFrame σ A).refl m
  cancelled _ _ := (spacesFrame σ A).refl _
  cancels _ := spaces_of_instances_eq rfl
  takes _ _ := spaces_of_instances_eq rfl
  maps hmaps := by
    obtain ⟨i, hm, hi⟩ := hmaps hf.2
    refine spaces_mapParams acct fun i' hi' hlive a ha => ?_
    cases hi'.symm.trans hi
    exact hfit _ i _ _ hm hlive a ha
  stores hi := by
    cases hi with
    | early | loaded => exact spaces_allocInstance _ _ _ _
  drops _ _ hall i hi := hall i (mem_of_mem_take hi)
  kills iid m := spaces_killInstance env iid rfl
  newSpace _ := spaces_of_instances_eq rfl
  pends _ := spaces_of_instances_eq rfl
  ptaOpen _ _ _ := spaces_call _ _ _
  ptaClose _ _ _ := spaces_call _ _ _
  ptaInvoke _ _ _ _ := keeps_ptaInvoke (fun _ _ => spaces_of_instances_eq rfl) (spaces_call _ _ _)

theorem spaces_dispatch (hf : FreshIds m) (hfit : MemrefsFit env m cmd) :
    (spacesFrame σ A).rel m (dispatch env cmd m).2 :=
  rel_dispatch (spaces_walk acct hf hfit).handle fun m' => rel_onPanic m' fun iid =>
    spaces_killInstance env iid rfl

/-- A run in which all memory references fit never takes the address space of a Live
instance away. -/
theorem Run.allSpaces {steps : List (Taken σ A)} (hb : Booted env m₀)
    (hrun : Run env (fun m cmd => FreshIds m ∧ MemrefsFit env m cmd) m₀ steps m) : AllSpaces m := by
  refine hrun.invariant (P := AllSpaces) ?_ (fun m w h => h) ?_
  · intro m cmd out m' hok hall hd
    have hkeep := spaces_dispatch acct hok.1 hok.2 hall
    rw [hd] at hkeep
    exact hkeep
  · intro i hi
    have hnew : m₀.instances = SlotTable.new MAX_INSTANCES :=
      congrArg Tables.instances hb.idle.tables
    rw [hnew, entries_new] at hi
    cases hi

end Fitting

theorem AllSpaces.ready (h : AllSpaces m) (env : Env σ A S) (cmd : KernelCmd) :
    SpacesReady env m cmd := by
  intro iid i ht hlive
  cases ht with
  | invoked hs hk hinst hi | reused hpta hsingle hi => exact h i (get_some hi).1 hlive
  | created | loaded => rfl

/-- In every run from a booted kernel in which all memory references fit, the next
command keeps the address space of its target, with the mappings it held, if and
only if its own references fit. -/
theorem spaces_kept_iff_memrefs_fit (acct : HeldMappings env.hal)
    {steps : List (Taken σ A)} (hb : Booted env m₀)
    (hrun : Run env (fun m cmd => FreshIds m ∧ MemrefsFit env m cmd) m₀ steps m)
    (hf : FreshIds m) {cmd : KernelCmd} {out : KernelOut}
    (hret : handle env cmd m = (.value out, m')) :
    SpacesKept acct m cmd m' ↔ MemrefsFit env m cmd := by
  rw [spacesKept_iff acct hf hret]
  constructor
  · intro h
    exact h.2
  · intro hfit
    exact ⟨(Run.allSpaces acct hb hrun).ready env cmd, hfit⟩

def sampleMappings : HeldMappings sampleEnv.hal where
  held _ := 0
  mapInto := by
    intro shm a perms va a' h
    cases h
  unmap _ _ := rfl

def strayParams : Params := noParams.set 0 (.memref (.ree 5 0) 16 .output)

def sampleStrayed : Machine Unit Nat :=
  (dispatch sampleEnv (.invoke 2 1 strayParams 0 0) sampleOpened).2

theorem memrefsFit_of_noRee {is : List (Fin PARAM_COUNT)}
    (h : ∀ i ∈ is, (params.get i).isRee = false) (w : σ) (a : A) (unmapped : Bool) :
    memrefsFit env params is w a unmapped = true := by
  induction is with
  | nil => rfl
  | cons i is ih =>
    have hrest := ih fun j hj => h j (mem_cons_of_mem _ hj)
    have hi := h i mem_cons_self
    unfold memrefsFit
    split
    · rename_i hp
      rw [hp] at hi
      cases hi
    · exact hrest

theorem memrefsFit_openCmd (env : Env σ A S) (m : Machine σ A) (uuid : Uuid) (login : Login) :
    MemrefsFit env m (openCmd uuid login) := by
  intro iid i w params h hlive a ha
  have hnone : ∀ j ∈ finRange PARAM_COUNT, (noParams.get j).isRee = false := by decide
  cases h with
  | reused | created => exact memrefsFit_of_noRee hnone _ _ _

theorem spaces_kept_iff_memrefs_fit_sample :
    ∃ steps, Run sampleEnv (fun m cmd => FreshIds m ∧ MemrefsFit sampleEnv m cmd) sampleStart
        steps sampleOpened ∧
      handle sampleEnv (.invoke 2 1 strayParams 0 0) sampleOpened =
        (.value (.doneErr TEE_ERROR_BAD_PARAMETERS), sampleStrayed) ∧
      (SpacesKept sampleMappings sampleOpened (.invoke 2 1 strayParams 0 0) sampleStrayed ↔
        MemrefsFit sampleEnv sampleOpened (.invoke 2 1 strayParams 0 0)) :=
  have ⟨steps, hrun⟩ := sampleOpened_run (fun m cmd => FreshIds m ∧ MemrefsFit sampleEnv m cmd)
    ⟨by decide +kernel, memrefsFit_openCmd _ _ _ _⟩ ⟨by decide +kernel, memrefsFit_openCmd _ _ _ _⟩
  have hret : handle sampleEnv (.invoke 2 1 strayParams 0 0) sampleOpened =
      (.value (.doneErr TEE_ERROR_BAD_PARAMETERS), sampleStrayed) := by decide +kernel
  ⟨steps, hrun, hret, spaces_kept_iff_memrefs_fit sampleMappings sampleStart_booted hrun
    (by decide +kernel) hret⟩

/-- One reference with an unknown cookie is enough: the instance stays Live without an
address space, and the next client of the TA is told that it is dead. -/
theorem stray_memref_loses_space :
    ∃ steps, Run sampleEnv (fun m _ => FreshIds m) sampleStart steps sampleOpened ∧
      handle sampleEnv (.invoke 2 1 strayParams 0 0) sampleOpened =
        (.value (.doneErr TEE_ERROR_BAD_PARAMETERS), sampleStrayed) ∧
      ¬ SpacesKept sampleMappings sampleOpened (.invoke 2 1 strayParams 0 0) sampleStrayed ∧
      (dispatch sampleEnv (.invoke 2 1 noParams 0 0) sampleStrayed).1 =
        .out (.doneErr TEE_ERROR_TARGET_DEAD) := by
  obtain ⟨steps, hrun⟩ := sampleOpened_run (fun m _ => FreshIds m) (by decide +kernel)
    (by decide +kernel)
  refine ⟨steps, hrun, by decide +kernel, ?_, by decide +kernel⟩
  intro hkept
  have hs : sampleOpened.sessions.get 2 =
      some { userSession 1 sampleTa.uuid .public 7 with id := 2 } := by decide +kernel
  have hi : sampleOpened.instances.get 1 =
      some { newInstance sampleTa.uuid sampleProps 0 sampleTa.entries with
        id := 1, sessionCount := 1 } := by decide +kernel
  have hi' : sampleStrayed.instances.get 1 =
      some { newInstance sampleTa.uuid sampleProps 0 sampleTa.entries with
        id := 1, sessionCount := 1, aspace := none } := by decide +kernel
  obtain ⟨a, a', -, hlost, -⟩ := hkept 1 _ (.invoked hs rfl rfl hi) _ hi' rfl
  cases hlost

end Rustee.Os
