import Rustee.OsKernel

/-!
# What each kernel function can do

One specification lemma per function of `OsKernel.lean`: what it does to the two tables and the
events it logs. The world and the address space of the TA it calls are left open here: they are
whatever the HAL and the TA make of them.
-/

namespace Rustee.Os

open Prog List SlotTable Machine MapExit

variable {σ A S : Type} {env : Env σ A S} {m : Machine σ A} {iid : InstanceId} {i : Instance A}

/-! ### Tables -/

/-- The part of the kernel state every command is about. -/
structure Tables (A : Type) where
  sessions : SessionTable
  instances : InstanceTable A

section
variable (m : Machine σ A)

def Machine.tables : Tables A := ⟨m.sessions, m.instances⟩

/-- The machine after an activity that changed the world and the tables and logged
some events. -/
def Machine.after (w : σ) (t : Tables A) (evs : List Event) : Machine σ A :=
  { m with world := w, sessions := t.sessions, instances := t.instances, log := m.log ++ evs }

theorem Machine.after_after (w w' : σ) (t t' : Tables A) (evs evs' : List Event) :
    (m.after w t evs).after w' t' evs' = m.after w' t' (evs ++ evs') := by
  simp [after]

theorem Machine.after_self (w : σ) : m.after w m.tables [] = { m with world := w } := by
  simp [after, tables]

@[simp] theorem Machine.tables_after (w : σ) (t : Tables A)
    (evs : List Event) : (m.after w t evs).tables = t := rfl

end

section
variable (t : Tables A) (iid : InstanceId)

def Tables.updateInstance (f : Instance A → Instance A) :
    Tables A :=
  { t with instances := t.instances.update iid f }

def Tables.touch (a : Option A) : Tables A :=
  t.updateInstance iid fun i => { i with aspace := a }

end

def Tables.withSessions (t : Tables A) (sessions : SessionTable) : Tables A :=
  { t with sessions }

/-- `session_count.saturating_add(1)` -/
def countUp (n : UInt16) : UInt16 := if n = 0xFFFF then n else n + 1

/-- `session_count.saturating_sub(1)` -/
def countDown (n : UInt16) : UInt16 := if n = 0 then 0 else n - 1

section
variable (t : Tables A) (iid : InstanceId)

def Tables.enroll (a : Option A) : Tables A :=
  t.updateInstance iid fun i => { i with aspace := a, sessionCount := countUp i.sessionCount }

def Tables.lock : Tables A :=
  t.updateInstance iid fun i => { i with busy := true }

def Tables.unlock : Tables A :=
  t.updateInstance iid fun i => { i with busy := false }

theorem Tables.updateInstance_updateInstance {f g : Instance A → Instance A}
    (hf : ∀ i, (f i).id = i.id) :
    (t.updateInstance iid f).updateInstance iid g = t.updateInstance iid fun i => g (f i) :=
  congrArg (Tables.mk t.sessions) (update_update hf)

end

variable {t : Tables A}

theorem Tables.unlock_lock (h : t.instances.get iid = some i)
    {f : Instance A → Instance A} (hf : ∀ i, (f i).id = i.id)
    (hlock : { f { i with busy := true } with busy := false } = f i) :
    ((t.lock iid).updateInstance iid f).unlock iid = t.updateInstance iid f := by
  have h1 : (t.lock iid).updateInstance iid f =
      t.updateInstance iid fun i => f { i with busy := true } :=
    t.updateInstance_updateInstance iid fun _ => rfl
  rw [h1, Tables.unlock, t.updateInstance_updateInstance iid (fun i => hf { i with busy := true })]
  exact congrArg (Tables.mk t.sessions) (update_congr h hlock)

/-! ### Locking -/

theorem lockInstance_of_free (h : m.instances.get iid = some i) (hb : i.busy = false) :
    lockInstance iid m = (.value (.ok ()), m.after m.world (m.tables.lock iid) []) := by
  simp [lockInstance, getInstance, updateInstance, bind_apply, h, hb, Machine.after,
    Machine.tables, Tables.lock, Tables.updateInstance]

theorem lockInstance_of_busy (h : m.instances.get iid = some i) (hb : i.busy = true) :
    lockInstance iid m = (.value (.error TEE_ERROR_BUSY), m) := by
  simp [lockInstance, getInstance, bind_apply, h, hb]

theorem unlockInstance_apply (iid : InstanceId) (m : Machine σ A) :
    unlockInstance iid m = (.value (), m.after m.world (m.tables.unlock iid) []) := by
  simp [unlockInstance, updateInstance, Machine.after, Machine.tables, Tables.unlock,
    Tables.updateInstance]

/-! ### Mapping parameters -/

def MapExit.aspace : MapExit A → Option A
  | .mapped a _ _ => some a
  | .restored a _ => some a
  | .lost _ => none

def MapExit.result : MapExit A → Except UInt32 (RawParams × MappedVas)
  | .mapped _ raw vas => .ok (raw, vas)
  | .restored _ code => .error code
  | .lost code => .error code

/-- The loop of `map_params` on an address space. -/
def mapAll (env : Env σ A S) (params : Params) (w : σ) (aspace : A) : MapExit A × σ :=
  mapParamsLoop env params (finRange PARAM_COUNT) w aspace (paramsToRaw params)
    (Vector.replicate PARAM_COUNT none)

theorem get_update_aspace {t : InstanceTable A} (h : t.get iid = some i) (a : Option A) :
    (t.update iid fun i => { i with aspace := a }).get iid = some { i with aspace := a } :=
  get_update_self (fun _ => rfl) h

/-- `map_params` on an instance without an address space. -/
theorem mapParams_of_none (h : m.instances.get iid = some i) (ha : i.aspace = none)
    (params : Params) :
    mapParams env iid params m = (.value (.error TEE_ERROR_TARGET_DEAD), m) := by
  simp [mapParams, getInstance, bind_apply, h, ha]

/-- `map_params` is its loop; only the address space of the instance changes. -/
theorem mapParams_of_some (h : m.instances.get iid = some i) {a : A} (ha : i.aspace = some a)
    (params : Params) :
    mapParams env iid params m =
      (.value (mapAll env params m.world a).1.result, m.after (mapAll env params m.world a).2
          (m.tables.touch iid (mapAll env params m.world a).1.aspace) []) := by
  have htouch : ∀ b : Option A,
      ((m.instances.update iid fun i => { i with aspace := none }).update iid
        fun i => { i with aspace := b }) =
      m.instances.update iid fun i => { i with aspace := b } := by
    intro b
    exact update_update fun _ => rfl
  have hget := get_update_aspace h none
  simp only [mapParams, getInstance, updateInstance, runMapLoop, bind_apply,
    gets_apply, h, Option.bind_some, ha, modify_apply, transform_apply]
  change _ = (Exit.value (mapAll env params m.world a).1.result, _)
  rw [show mapParamsLoop env params (finRange PARAM_COUNT) m.world a (paramsToRaw params)
    (Vector.replicate PARAM_COUNT none) = mapAll env params m.world a from rfl]
  rcases mapAll env params m.world a with ⟨exit, w⟩
  cases exit with
  | lost =>
    simp [result, aspace, Machine.after, Machine.tables, Tables.touch,
      Tables.updateInstance]
  | restored | mapped =>
    simp [bind_apply, restoreAspace, getInstance, updateInstance, hget, htouch,
      result, aspace, Machine.after, Machine.tables, Tables.touch,
      Tables.updateInstance]

theorem touch_self (h : t.instances.get iid = some i) : t.touch iid i.aspace = t := by
  simp only [Tables.touch, Tables.updateInstance, update_eq_self h]

/-- Whatever `map_params` returns, it changed the world and one address space. -/
theorem mapParams_outcome (env : Env σ A S) (h : m.instances.get iid = some i) (params : Params) :
    ∃ r w a, mapParams env iid params m = (.value r, m.after w (m.tables.touch iid a) []) := by
  cases ha : i.aspace with
  | none =>
    refine ⟨.error TEE_ERROR_TARGET_DEAD, m.world, i.aspace, ?_⟩
    rw [mapParams_of_none h ha params, touch_self (t := m.tables) h, after_self]
  | some => exact ⟨_, _, _, mapParams_of_some h ha params⟩

theorem code_mapParamsLoop (env : Env σ A S) (params : Params) (is : List (Fin PARAM_COUNT))
    (w : σ) (a : A) (raw : RawParams) (vas : MappedVas) (code : UInt32)
    (h : (mapParamsLoop env params is w a raw vas).1.result = .error code) :
    code = TEE_ERROR_BAD_PARAMETERS := by
  induction is generalizing w a raw vas with
  | nil => cases h
  | cons i is ih =>
    rw [mapParamsLoop] at h
    split at h
    · rcases hsync : syncInParam env _ _ w with ⟨_ | _, w'⟩
      · rw [hsync] at h
        cases h
        rfl
      · rw [hsync] at h
        dsimp only at h
        split at h
        · cases h
          rfl
        · split at h
          · cases h
            rfl
          · split at h
            · cases h
              rfl
            · exact ih _ _ _ _ h
    · exact ih _ _ _ _ h

variable {params : Params} {w : σ}

theorem code_mapAll {a : A} {code : UInt32}
    (h : (mapAll env params w a).1.result = .error code) : code ≠ TEE_SUCCESS := by
  rw [code_mapParamsLoop env params _ w a _ _ code h]
  decide

theorem mapParams_code {m' : Machine σ A} {code : UInt32} (h : m.instances.get iid = some i)
    (hrun : mapParams env iid params m = (.value (.error code), m')) : code ≠ TEE_SUCCESS := by
  cases ha : i.aspace with
  | none =>
    cases hrun.symm.trans (mapParams_of_none h ha params)
    decide
  | some a =>
    have hresult : Exit.value (mapAll env params m.world a).1.result = .value (.error code) :=
      congrArg Prod.fst ((mapParams_of_some h ha params).symm.trans hrun)
    exact code_mapAll (Exit.value.inj hresult)

/-- The loop of `unmap_params`. -/
def unmapAll (env : Env σ A S) (params : Params) (vas : MappedVas) (w : σ)
    (aspace : Option A) : σ × Option A :=
  unmapParamsLoop env params vas (finRange PARAM_COUNT) w aspace

theorem unmapParams_apply (env : Env σ A S) (iid : InstanceId) (params : Params)
    (vas : MappedVas) (m : Machine σ A) :
    unmapParams env iid params vas m =
      (.value (),
        m.after (unmapAll env params vas m.world ((m.instances.get iid).bind (·.aspace))).1
          (m.tables.touch iid
            (unmapAll env params vas m.world ((m.instances.get iid).bind (·.aspace))).2) []) := by
  simp only [unmapParams, unmapAll, modify_apply, Machine.after, Machine.tables,
    Tables.touch, Tables.updateInstance, append_nil]

theorem touch_touch (t : Tables A) (iid : InstanceId) (a b : Option A) :
    (t.touch iid a).touch iid b = t.touch iid b :=
  congrArg (Tables.mk t.sessions) (update_update fun _ => rfl)

/-! ### Calls -/

variable {α : Type} {t' : Tables A}

theorem call_of_returns {code : σ → CallExit α × σ} {r : α}
    (h : code m.world = (.returns r, w)) (returned : α → Event) (panicked : Event) :
    call code returned panicked m = (.value r, m.after w m.tables [returned r]) := by
  simp [call, h, Machine.after, Machine.tables]

theorem call_cases (code : σ → CallExit α × σ) (returned : α → Event)
    (panicked : Event) (m : Machine σ A) :
    (∃ a w, call code returned panicked m = (.value a, m.after w m.tables [returned a])) ∨
    (∃ w, call code returned panicked m = (.unwind, m.after w m.tables [panicked])) := by
  rcases hc : code m.world with ⟨exit, w⟩
  cases exit with
  | returns a => exact .inl ⟨a, w, call_of_returns hc returned panicked⟩
  | panics =>
    refine .inr ⟨w, ?_⟩
    simp [call, hc, Machine.after, Machine.tables]

/-- The machine at the moment an entry point of `iid` panics. -/
def Machine.unwound (m : Machine σ A) (w : σ) (t : Tables A) (iid : InstanceId)
    (evs : List Event) : Machine σ A :=
  { m.after w t evs with currentInstance := some iid }

theorem setCurrentInstance_after (iid : InstanceId) (w : σ) (t : Tables A) (evs : List Event) :
    setCurrentInstance (some iid) (m.after w t evs) =
      (.value (), after { m with currentInstance := some iid } w t evs) := rfl

/-- What runs with `current_instance` set returns with it cleared again. -/
theorem entering_of_value {entry : KM σ A α} {a : α} {w' : σ}
    {evs evs' : List Event} (hcur : m.currentInstance = none)
    (h : entry (Machine.after { m with currentInstance := some iid } w t evs) =
      (.value a, Machine.after { m with currentInstance := some iid } w' t' evs')) :
    entering iid entry (m.after w t evs) = (.value a, m.after w' t' evs') := by
  have hclear : setCurrentInstance none
      (Machine.after { m with currentInstance := some iid } w' t' evs') =
        (.value (), m.after w' t' evs') := by
    simp [setCurrentInstance, Machine.after, hcur]
  simp only [entering, bind_apply, setCurrentInstance_after, h, hclear, pure_apply]

/-! ### Outcomes -/

/-- How a kernel function started in `m` ends: with an output, after events and with
tables that satisfy `P`, or in a panic of the TA instance `iid`, which is locked at
that moment and has its entry in tables `t` with `Q evs iid t`. -/
inductive Outcome (m : Machine σ A) (P : List Event → KernelOut → Tables A → Prop)
    (Q : List Event → InstanceId → Tables A → Prop) : Exit KernelOut × Machine σ A → Prop
  | value (w : σ) (evs : List Event) (out : KernelOut) (t' : Tables A) (hp : P evs out t') :
      Outcome m P Q (.value out, m.after w t' evs)
  | unwind (w : σ) (evs : List Event) (iid : InstanceId) (t : Tables A) (a : Option A)
      (hq : Q evs iid t) :
      Outcome m P Q (.unwind, m.unwound w ((t.lock iid).touch iid a) iid evs)

theorem Outcome.continue {t1 : Tables A} {evs1 : List Event}
    {P : List Event → KernelOut → Tables A → Prop}
    {Q : List Event → InstanceId → Tables A → Prop} {r : Exit KernelOut × Machine σ A}
    (h : Outcome (m.after w t1 evs1) P Q r) :
    Outcome m (fun evs out t => ∃ evs2, evs = evs1 ++ evs2 ∧ P evs2 out t)
      (fun evs iid t => ∃ evs2, evs = evs1 ++ evs2 ∧ Q evs2 iid t) r := by
  cases h with
  | value w' evs out t' hp =>
    rw [after_after]
    exact .value w' _ out t' ⟨evs, rfl, hp⟩
  | unwind w' evs iid t a hq =>
    rw [unwound, after_after]
    exact .unwind w' (evs1 ++ evs) iid t a ⟨evs, rfl, hq⟩

theorem aspaceOrNew_outcome (env : Env σ A S) (aspace : Option A) (m : Machine σ A) :
    ∃ a w, aspaceOrNew env aspace m = (.value a, m.after w m.tables []) := by
  cases aspace with
  | some a => exact ⟨a, m.world, by rw [after_self]; rfl⟩
  | none => exact ⟨_, _, by rw [after_self]; rfl⟩

def Tables.issue (t : Tables A) (inst : Instance A) : Tables A :=
  { t with instances := (t.instances.alloc inst).2 }

/-! ### Sequences -/

section Does

variable {α β : Type} {t : Tables A} {evs : List Event} {p : KM σ A α} {f : α → KM σ A β}

/-- Started with the tables `t`, after the events `evs` and in whatever world, the program
ends with `V`, or in a panic of the TA `iid` with `U`. -/
def Does (m : Machine σ A) (iid : InstanceId) (evs : List Event) (t : Tables A) (p : KM σ A α)
    (V : List Event → α → Tables A → Prop) (U : List Event → Tables A → Prop) : Prop :=
  ∀ w, (∃ w' evs' a t', p (m.after w t evs) = (.value a, m.after w' t' evs') ∧ V evs' a t') ∨
    ∃ w' evs' t', p (m.after w t evs) = (.unwind, m.unwound w' t' iid evs') ∧ U evs' t'

variable {V' V'' : List Event → α → Tables A → Prop} {V : List Event → β → Tables A → Prop}
  {U U' : List Event → Tables A → Prop}

theorem Does.mono (hp : Does m iid evs t p V' U)
    (hV : ∀ evs a t, V' evs a t → V'' evs a t) (hU : ∀ evs t, U evs t → U' evs t) :
    Does m iid evs t p V'' U' := by
  intro w
  rcases hp w with ⟨w', evs', a, t', hrun, hv⟩ | ⟨w', evs', t', hrun, hu⟩
  · exact .inl ⟨w', evs', a, t', hrun, hV _ _ _ hv⟩
  · exact .inr ⟨w', evs', t', hrun, hU _ _ hu⟩

theorem Does.bind (hp : Does m iid evs t p V' U)
    (hf : ∀ evs' a t', V' evs' a t' → Does m iid evs' t' (f a) V U) :
    Does m iid evs t (p >>= f) V U := by
  intro w
  rw [bind_apply]
  rcases hp w with ⟨w', evs', a, t', hrun, hv⟩ | ⟨w', evs', t', hrun, hu⟩
  · rw [hrun]
    exact hf evs' a t' hv w'
  · rw [hrun]
    exact .inr ⟨w', evs', t', rfl, hu⟩

theorem Does.step {a : α} {evs' : List Event}
    (h : ∀ w, ∃ w', p (m.after w t evs) = (.value a, m.after w' t' evs'))
    (hf : Does m iid evs' t' (f a) V U) : Does m iid evs t (p >>= f) V U := by
  intro w
  obtain ⟨w', hrun⟩ := h w
  rw [bind_apply, hrun]
  exact hf w'

theorem does_pure {b : β} (h : V evs b t) : Does m iid evs t (pure b) V U :=
  fun w => .inl ⟨w, evs, b, t, rfl, h⟩

theorem does_getEntries {f : Option TaEntryPoints → KM σ A β}
    (h : t.instances.get iid = some i) (hf : Does m iid evs t (f i.entries) V U) :
    Does m iid evs t (getEntries iid >>= f) V U :=
  .step (fun w => ⟨w, by simp [getEntries, Machine.after, h]⟩) hf

theorem does_mapParams {f : Except UInt32 (RawParams × MappedVas) → KM σ A β} {params : Params}
    (h : t.instances.get iid = some i) (hf : ∀ r a, (∀ code, r = .error code → code ≠ TEE_SUCCESS) →
      Does m iid evs (t.touch iid a) (f r) V U) :
    Does m iid evs t (mapParams env iid params >>= f) V U := by
  intro w
  obtain ⟨r, w', a, hmap⟩ := mapParams_outcome (m := m.after w t evs) env h params
  have hcode : ∀ code, r = .error code → code ≠ TEE_SUCCESS := by
    rintro code rfl
    exact mapParams_code (m := m.after w t evs) h hmap
  rw [bind_apply, hmap, after_after, append_nil]
  exact hf r a hcode w'

theorem does_unmapParams {f : Unit → KM σ A β} {params : Params} {vas : MappedVas} {a : Option A}
    (hf : ∀ b, Does m iid evs (t.touch iid b) (f ()) V U) :
    Does m iid evs (t.touch iid a) (unmapParams env iid params vas >>= f) V U := by
  intro w
  rw [bind_apply, unmapParams_apply, after_after, tables_after, touch_touch,
    append_nil]
  exact hf _ _

theorem does_aspaceOrNew {f : A → KM σ A β} {aspace : Option A}
    (hf : ∀ a, Does m iid evs t (f a) V U) :
    Does m iid evs t (aspaceOrNew env aspace >>= f) V U := by
  intro w
  obtain ⟨a, w', hrun⟩ := aspaceOrNew_outcome env aspace (m.after w t evs)
  rw [bind_apply, hrun, after_after, append_nil]
  exact hf a w'

theorem does_allocInstance {f : Option InstanceId → KM σ A β} {inst : Instance A}
    {o : Option InstanceId} (ho : (t.instances.alloc inst).1 = o)
    (ht : t.issue inst = t') (hf : Does m iid (evs ++ [.instanceIssued o]) t' (f o) V U) :
    Does m iid evs t (allocInstance inst >>= f) V U := by
  subst ho ht
  exact .step (fun w => ⟨w, by simp [allocInstance, Machine.after, Tables.issue]⟩) hf

theorem does_lock {f : Except UInt32 Unit → KM σ A β} (h : t.instances.get iid = some i)
    (hb : i.busy = false) (hf : Does m iid evs (t.lock iid) (f (.ok ())) V U) :
    Does m iid evs t (lockInstance iid >>= f) V U := by
  refine .step (fun w => ⟨w, ?_⟩) hf
  rw [lockInstance_of_free (m := m.after w t evs) h hb, after_after, append_nil]
  rfl

theorem does_unlock {f : Unit → KM σ A β} (hf : Does m iid evs (t.unlock iid) (f ()) V U) :
    Does m iid evs t (unlockInstance iid >>= f) V U :=
  .step (fun w => ⟨w, by rw [unlockInstance_apply, after_after, append_nil]; rfl⟩) hf

variable (code : σ → CallExit α × σ) {returned : α → Event} {panicked : Event}

/-- A call made while `current_instance` is set. -/
theorem does_call
    (hcur : m.currentInstance = some iid) (hpanic : U (evs ++ [panicked]) t) :
    Does m iid evs t (call code returned panicked)
      (fun evs' a t' => evs' = evs ++ [returned a] ∧ t' = t) U := by
  intro w
  rcases call_cases code returned panicked (m.after w t evs) with ⟨a, w', hcall⟩ | ⟨w', hcall⟩
  · rw [hcall, after_after]
    exact .inl ⟨w', _, a, t, rfl, rfl, rfl⟩
  · rw [hcall, after_after]
    refine .inr ⟨w', _, t, ?_, hpanic⟩
    rw [unwound, ← hcur]
    rfl

theorem does_entering (hcur : m.currentInstance = none)
    (h : Does { m with currentInstance := some iid } iid evs t p V' U) :
    Does m iid evs t (entering iid p) V' U := by
  intro w
  rcases h w with ⟨w', evs', a, t', hrun, hv⟩ | ⟨w', evs', t', hrun, hu⟩
  · exact .inl ⟨w', evs', a, t', entering_of_value hcur hrun, hv⟩
  · refine .inr ⟨w', evs', t', ?_, hu⟩
    rw [entering, bind_apply, setCurrentInstance_after]
    dsimp only
    rw [bind_apply, hrun]
    rfl

theorem does_enter
    (hcur : m.currentInstance = none) (hpanic : U (evs ++ [panicked]) t) :
    Does m iid evs t (entering iid (call code returned panicked))
      (fun evs' a t' => evs' = evs ++ [returned a] ∧ t' = t) U :=
  does_entering hcur (does_call code rfl hpanic)

theorem Does.framed (w0 : σ) (t0 : Tables A) (h : Does (m.after w0 t0 evs) iid [] t p V' U) :
    Does m iid evs t p (fun evs' a t' => ∃ new, evs' = evs ++ new ∧ V' new a t')
      (fun evs' t' => ∃ new, evs' = evs ++ new ∧ U new t') := by
  intro w
  have h := h w
  rw [after_after, append_nil] at h
  rcases h with ⟨w', new, a, t', hrun, hv⟩ | ⟨w', new, t', hrun, hu⟩
  · rw [after_after] at hrun
    exact .inl ⟨w', _, a, t', hrun, new, rfl, hv⟩
  · rw [unwound, after_after] at hrun
    exact .inr ⟨w', _, t', hrun, new, rfl, hu⟩

/-- The TA `iid` is locked and has its entry in tables with `Q`. -/
def Locked (iid : InstanceId) (Q : List Event → InstanceId → Tables A → Prop)
    (evs : List Event) (t : Tables A) : Prop :=
  ∃ t₀ a, t = (t₀.lock iid).touch iid a ∧ Q evs iid t₀

theorem Does.outcome {p : KM σ A KernelOut} {P : List Event → KernelOut → Tables A → Prop}
    {Q : List Event → InstanceId → Tables A → Prop} (h : Does m iid evs t p P (Locked iid Q))
    (w : σ) : Outcome m P Q (p (m.after w t evs)) := by
  rcases h w with ⟨w', evs', out, t', hrun, hp⟩ | ⟨w', evs', t', hrun, t0, a, rfl, hq⟩
  · rw [hrun]
    exact .value w' evs' out t' hp
  · rw [hrun]
    exact .unwind w' evs' iid t0 a hq

/-- The TA `iid` panics in `entry`, with its entry in the tables `t`. -/
def PanicsIn (iid : InstanceId) (entry : EntryPoint) (t : Tables A) (evs : List Event)
    (n : InstanceId) (t' : Tables A) : Prop :=
  n = iid ∧ t' = t ∧ evs = [.ta iid (.panicked entry)]

end Does

/-! ### Binding a session -/

/-- The session `bind_session` stores. -/
def userSession (iid : InstanceId) (uuid : Uuid) (login : Login) (ctx : UInt64) : Session :=
  { id := 0, uuid, kind := .userTa, inst := some iid, taSessCtx := ctx, state := .ready,
    client := login }

/-- The call that made the TA accept a session; a TA without entry points is not
asked. -/
def acceptedBy (iid : InstanceId) (entries : Option TaEntryPoints) (ctx : UInt64) :
    List Event :=
  if entries.isSome then [.ta iid (.openSession ctx TEE_SUCCESS)] else []

/-- What binding a session to the instance `iid` (in its slot: `i`) does when no
call panics. -/
inductive Binds (iid : InstanceId) (i : Instance A) (uuid : Uuid) (login : Login)
    (t : Tables A) : List Event → KernelOut → Tables A → Prop
  | unmapped (a : Option A) (code : UInt32) (he : i.entries.isSome) :
      Binds iid i uuid login t [] (.doneErr code) (t.touch iid a)
  | refused (a : Option A) (ctx : UInt64) (code : UInt32) (params : Params)
      (he : i.entries.isSome) (hcode : code ≠ TEE_SUCCESS) :
      Binds iid i uuid login t [.ta iid (.openSession ctx code)]
        (.done (.ta code) none params) (t.touch iid a)
  | unrecorded (a : Option A) (ctx : UInt64) (hroom : ¬ t.sessions.HasRoom) :
      Binds iid i uuid login t (acceptedBy iid i.entries ctx ++ [.sessionIssued none])
        (.doneErr TEE_ERROR_OUT_OF_MEMORY)
        ((t.touch iid a).withSessions (t.sessions.alloc (userSession iid uuid login ctx)).2)
  | recorded (a : Option A) (ctx : UInt64) (params : Params) (hroom : t.sessions.HasRoom) :
      Binds iid i uuid login t
        (acceptedBy iid i.entries ctx ++ [.sessionIssued (some t.sessions.nextId)])
        (.done .ok (some t.sessions.nextId) params)
        ((t.enroll iid a).withSessions (t.sessions.alloc (userSession iid uuid login ctx)).2)

section
variable (iid : InstanceId) (uuid : Uuid) (login : Login) (ctx : UInt64) (params : Params)

theorem recordSession_of_room (h : m.sessions.HasRoom) :
    recordSession iid uuid login ctx params m =
      (.value (.done .ok (some m.sessions.nextId) params),
        m.after m.world
          ⟨(m.sessions.alloc (userSession iid uuid login ctx)).2,
            m.instances.update iid fun i =>
              { i with sessionCount := countUp i.sessionCount }⟩
          [.sessionIssued (some m.sessions.nextId)]) := by
  obtain ⟨t', halloc, -⟩ := alloc_of_room h (userSession iid uuid login ctx)
  have halloc' := halloc
  simp only [userSession] at halloc'
  simp [recordSession, allocSession, updateInstance, bind_apply, halloc, halloc',
    Machine.after, countUp]

theorem recordSession_of_full (h : ¬ m.sessions.HasRoom) :
    recordSession iid uuid login ctx params m =
      (.value (.doneErr TEE_ERROR_OUT_OF_MEMORY), m.after m.world
          ⟨(m.sessions.alloc (userSession iid uuid login ctx)).2, m.instances⟩
          [.sessionIssued none]) := by
  have halloc := alloc_of_full h (userSession iid uuid login ctx)
  have halloc' := halloc
  simp only [userSession] at halloc'
  simp [recordSession, allocSession, bind_apply, halloc, halloc', Machine.after]

end

section Bind

variable {t : Tables A} {U : List Event → Tables A → Prop} {uuid : Uuid} {login : Login}
  {params : Params}

/-- `record_session` where the TA has just accepted the session. -/
theorem does_recordSession {evs : List Event} {t1 : Tables A} (i : Instance A) (a : Option A)
    (ctx : UInt64) (ht : t1 = t.touch iid a) (hevs : evs = acceptedBy iid i.entries ctx) :
    Does m iid evs t1 (recordSession iid uuid login ctx params) (Binds iid i uuid login t) U := by
  intro w
  subst ht hevs
  by_cases hroom : t.sessions.HasRoom
  · have hinst : ((t.touch iid a).instances.update iid fun i =>
        { i with sessionCount := countUp i.sessionCount }) =
        t.instances.update iid fun i =>
          { i with aspace := a, sessionCount := countUp i.sessionCount } :=
      update_update fun _ => rfl
    refine .inl ⟨w, _, _, _, ?_, .recorded a ctx params hroom⟩
    rw [recordSession_of_room (m := m.after w (t.touch iid a) _) iid uuid login ctx params hroom,
      after_after]
    change (_, m.after w ⟨_, (t.touch iid a).instances.update iid _⟩ _) = _
    rw [hinst]
    rfl
  · refine .inl ⟨w, _, _, _, ?_, .unrecorded a ctx hroom⟩
    rw [recordSession_of_full (m := m.after w (t.touch iid a) _) iid uuid login ctx params hroom,
      after_after]
    rfl

/-- `bind_session` binds, or the TA panics in its open-session entry point. -/
theorem does_bindSession (h : t.instances.get iid = some i) (hcur : m.currentInstance = none)
    (hpanic : i.entries.isSome → ∀ a, U [.ta iid (.panicked .openSession)] (t.touch iid a)) :
    Does m iid [] t (bindSession env iid uuid login params) (Binds iid i uuid login t) U := by
  refine does_getEntries h ?_
  cases he : i.entries with
  | none => exact does_recordSession i i.aspace 0 (touch_self h).symm (by rw [acceptedBy, he]; rfl)
  | some =>
    have hsome : i.entries.isSome := by rw [he]; rfl
    refine does_mapParams h fun r a _ => ?_
    cases r with
    | error code => exact does_pure (.unmapped a code hsome)
    | ok =>
      refine (does_enter _ hcur (hpanic hsome a)).bind ?_
      rintro _ ⟨code, raw', ctx⟩ _ ⟨rfl, rfl⟩
      refine does_unmapParams fun b => ?_
      by_cases hcode : code = TEE_SUCCESS
      · rw [if_neg (not_not.mpr hcode)]
        exact does_recordSession i b ctx rfl (by rw [acceptedBy, he, hcode]; rfl)
      · rw [if_pos hcode]
        exact does_pure (.refused b ctx code _ hsome hcode)

end Bind

/-- Binding under the lock and unlocking is binding, as seen without the lock. -/
theorem Binds.unlock {uuid : Uuid} {login : Login} {evs : List Event}
    {out : KernelOut} (h : t.instances.get iid = some i) (hb : i.busy = false)
    (hbinds : Binds iid { i with busy := true } uuid login (t.lock iid) evs out t') :
    Binds iid i uuid login t evs out (t'.unlock iid) := by
  have htouch : ∀ a : Option A, (((t.lock iid).touch iid a).unlock iid) = t.touch iid a := by
    intro a
    exact Tables.unlock_lock h (fun _ => rfl) (by simp [hb])
  cases hbinds with
  | unmapped a code he =>
    rw [htouch]
    exact .unmapped a code he
  | refused a ctx code params he hcode =>
    rw [htouch]
    exact .refused a ctx code params he hcode
  | unrecorded a ctx hroom =>
    have hrun : Binds iid i uuid login t _ _ _ := .unrecorded a ctx hroom
    rw [← htouch] at hrun
    exact hrun
  | recorded a ctx params hroom =>
    have henroll : ((t.lock iid).enroll iid a).unlock iid = t.enroll iid a :=
      Tables.unlock_lock h (fun _ => rfl) (by simp [hb])
    have hrun : Binds iid i uuid login t _ _ _ := .recorded a ctx params hroom
    rw [← henroll] at hrun
    exact hrun

theorem get_lock (h : t.instances.get iid = some i) :
    (t.lock iid).instances.get iid = some { i with busy := true } :=
  get_update_self (fun _ => rfl) h

theorem does_bindAndUnlock {U : List Event → Tables A → Prop} {uuid : Uuid}
    {login : Login} (h : t.instances.get iid = some i) (hb : i.busy = false)
    (hcur : m.currentInstance = none) (hpanic : i.entries.isSome → ∀ a,
      U [.ta iid (.panicked .openSession)] ((t.lock iid).touch iid a)) :
    Does m iid [] (t.lock iid) (bindAndUnlock env iid uuid login params)
      (Binds iid i uuid login t) U := by
  refine (does_bindSession (get_lock h) hcur hpanic).bind ?_
  intro evs out t' hbinds
  exact does_unlock (does_pure (hbinds.unlock h hb))

theorem bindAndUnlock_outcome (env : Env σ A S) (uuid : Uuid) (login : Login)
    (params : Params) (h : m.instances.get iid = some i) (hb : i.busy = false)
    (hcur : m.currentInstance = none) :
    Outcome m (Binds iid i uuid login m.tables) (PanicsIn iid .openSession m.tables)
      (bindAndUnlock env iid uuid login params (m.after m.world (m.tables.lock iid) [])) :=
  (does_bindAndUnlock h hb hcur fun _ a => ⟨m.tables, a, rfl, rfl, rfl, rfl⟩).outcome m.world

/-! ### Creating an instance -/

/-- The instance `instantiate_and_bind` stores. -/
def newInstance (uuid : Uuid) (props : TaProperties) (aspace : A)
    (entries : Option TaEntryPoints) : Instance A :=
  { id := 0, uuid, props, aspace := some aspace, sessionCount := 0, state := .live, entries,
    busy := false }

def Tables.skipId (t : Tables A) : Tables A :=
  { t with instances := { t.instances with nextId := SlotTable.bump t.instances.nextId } }

def createdBy (iid : InstanceId) (entries : Option TaEntryPoints) : List Event :=
  if entries.isSome then [.ta iid (.create TEE_SUCCESS)] else []

/-- What `instantiate_and_bind` does when no call panics. -/
inductive Instantiates (props : TaProperties) (uuid : Uuid) (login : Login)
    (entries : Option TaEntryPoints) (t : Tables A) : List Event → KernelOut → Tables A → Prop
  | mismatch (hu : props.uuid ≠ uuid) :
      Instantiates props uuid login entries t [] (.doneErr TEE_ERROR_SECURITY) t
  | noSlot (hu : props.uuid = uuid) (hroom : ¬ t.instances.HasRoom) :
      Instantiates props uuid login entries t [.instanceIssued none]
        (.doneErr TEE_ERROR_OUT_OF_MEMORY) t.skipId
  | refused (hu : props.uuid = uuid) (hroom : t.instances.HasRoom) (he : entries.isSome)
      (code : UInt32) (hcode : code ≠ TEE_SUCCESS) (params : Params) :
      Instantiates props uuid login entries t
        [.instanceIssued (some t.instances.nextId), .ta t.instances.nextId (.create code)]
        (.done (.ta code) none params) t.skipId
  | bound (hu : props.uuid = uuid) (hroom : t.instances.HasRoom) (aspace : A)
      (evs : List Event) (out : KernelOut) (t' : Tables A)
      (hbinds : Binds t.instances.nextId
        { newInstance uuid props aspace entries with id := t.instances.nextId } uuid login
        (t.issue (newInstance uuid props aspace entries)) evs out t') :
      Instantiates props uuid login entries t
        (.instanceIssued (some t.instances.nextId) ::
          (createdBy t.instances.nextId entries ++ evs)) out t'

/-- Where `instantiate_and_bind` can be when the new TA panics. -/
inductive InstantiatePanics (props : TaProperties) (uuid : Uuid)
    (entries : Option TaEntryPoints) (t : Tables A) :
    List Event → InstanceId → Tables A → Prop
  | create (hu : props.uuid = uuid) (hroom : t.instances.HasRoom) (aspace : A) :
      InstantiatePanics props uuid entries t
        [.instanceIssued (some t.instances.nextId),
          .ta t.instances.nextId (.panicked .create)]
        t.instances.nextId (t.issue (newInstance uuid props aspace entries))
  | openSession (hu : props.uuid = uuid) (hroom : t.instances.HasRoom) (aspace : A) :
      InstantiatePanics props uuid entries t
        (.instanceIssued (some t.instances.nextId) ::
          (createdBy t.instances.nextId entries ++
            [.ta t.instances.nextId (.panicked .openSession)]))
        t.instances.nextId (t.issue (newInstance uuid props aspace entries))

theorem dropInstance_issue (hroom : m.instances.HasRoom)
    (hfresh : m.instances.Fresh m.instances.nextId) (inst : Instance A) (w : σ) (evs : List Event) :
    dropInstance m.instances.nextId
      (m.after w (((m.tables.issue inst).lock m.instances.nextId).unlock m.instances.nextId) evs) =
      (.value (), m.after w m.tables.skipId evs) := by
  have hunlock := (m.tables.issue inst).updateInstance_updateInstance m.instances.nextId
    (f := fun i => { i with busy := true }) (g := fun i => { i with busy := false })
    fun _ => rfl
  have htake := take_update_alloc hroom hfresh inst
    (f := fun i => { i with busy := false }) fun _ => rfl
  rw [Tables.unlock, Tables.lock, hunlock]
  simp only [dropInstance, modify_apply, InstanceTable.dropId, Machine.after,
    Machine.tables, Tables.issue, Tables.updateInstance, htake, Tables.skipId]

section Creation

variable {props : TaProperties} {uuid : Uuid} {entries : Option TaEntryPoints}

def Machine.stored (m : Machine σ A) (w : σ) (inst : Instance A) (evs : List Event) :
    Machine σ A :=
  m.after w (m.tables.issue inst) (.instanceIssued (some m.instances.nextId) :: evs)

section Stored

variable {aspace : A} {login : Login} {params : Params} {U : List Event → Tables A → Prop}
  (hu : props.uuid = uuid) (hroom : m.instances.HasRoom)
  (hfresh : m.instances.Fresh m.instances.nextId) (hcur : m.currentInstance = none)
  (hpanic : entries.isSome → ∀ evs t,
    Locked m.instances.nextId (InstantiatePanics props uuid entries m.tables) evs t → U evs t)

include hu hroom hfresh hcur hpanic

theorem does_bindNew :
    Does m m.instances.nextId (.instanceIssued (some m.instances.nextId) ::
        createdBy m.instances.nextId entries)
      ((m.tables.issue (newInstance uuid props aspace entries)).lock m.instances.nextId)
      (bindAndUnlock env m.instances.nextId uuid login params)
      (Instantiates props uuid login entries m.tables) U := by
  have hget := get_alloc hroom hfresh (newInstance uuid props aspace entries)
  refine (Does.framed m.world m.tables (does_bindAndUnlock (t := m.tables.issue _)
    (U := fun new t => U (.instanceIssued (some m.instances.nextId) ::
      (createdBy m.instances.nextId entries ++ new)) t) hget rfl hcur fun hsome a =>
        hpanic hsome _ _ ⟨_, a, rfl, .openSession hu hroom aspace⟩)).mono ?_ ?_
  · rintro evs out t ⟨new, rfl, hbinds⟩
    exact .bound hu hroom aspace new out t hbinds
  · rintro evs t ⟨new, rfl, hpanicked⟩
    exact hpanicked

/-- Creating and binding an instance that has just been stored under a fresh id. -/
theorem does_createAndBind :
    Does m m.instances.nextId [.instanceIssued (some m.instances.nextId)]
      (m.tables.issue (newInstance uuid props aspace entries))
      (createAndBind env m.instances.nextId uuid login params entries)
      (Instantiates props uuid login entries m.tables) U := by
  have hget := get_alloc hroom hfresh (newInstance uuid props aspace entries)
  refine does_lock hget rfl ?_
  cases entries with
  | none => exact does_bindNew hu hroom hfresh hcur hpanic
  | some =>
    refine (does_enter _ hcur (hpanic rfl _ _ ⟨_, _, (touch_self (get_lock hget)).symm,
      .create hu hroom aspace⟩)).bind ?_
    rintro _ code _ ⟨rfl, rfl⟩
    by_cases hcode : code = TEE_SUCCESS
    · subst hcode
      exact does_bindNew hu hroom hfresh hcur hpanic
    · rw [if_pos hcode]
      exact does_unlock (.step (fun w => ⟨w, dropInstance_issue hroom hfresh _ w _⟩)
        (does_pure (.refused hu hroom rfl code hcode params)))

end Stored

theorem instantiateAndBind_of_room {aspace : Option A} {a : A} {w : σ} (login : Login)
    (params : Params) (hu : props.uuid = uuid) (hroom : m.instances.HasRoom)
    (haspace : aspaceOrNew env aspace m = (.value a, m.after w m.tables [])) :
    instantiateAndBind env props uuid login params entries aspace m =
      createAndBind env m.instances.nextId uuid login params entries
        (m.stored w (newInstance uuid props a entries) []) := by
  obtain ⟨t', halloc, -⟩ := alloc_of_room hroom (newInstance uuid props a entries)
  simp only [newInstance] at halloc
  simp [instantiateAndBind, bind_apply, hu, haspace, allocInstance, Machine.after,
    Machine.tables, halloc, Machine.stored, Tables.issue, newInstance]

section
variable (env : Env σ A S) (props : TaProperties) (uuid : Uuid) (login : Login) (params : Params)
    (entries : Option TaEntryPoints) (aspace : Option A)

/-- `instantiate_and_bind`, as long as the next instance id is fresh. -/
theorem does_instantiateAndBind {U : List Event → Tables A → Prop}
    (hfresh : m.instances.Fresh m.instances.nextId) (hcur : m.currentInstance = none)
    (hpanic : entries.isSome → ∀ evs t,
      Locked m.instances.nextId (InstantiatePanics props uuid entries m.tables) evs t → U evs t) :
    Does m m.instances.nextId [] m.tables
      (instantiateAndBind env props uuid login params entries aspace)
      (Instantiates props uuid login entries m.tables) U := by
  rw [instantiateAndBind]
  by_cases hu : props.uuid = uuid
  · rw [if_neg (not_not.mpr hu)]
    refine does_aspaceOrNew fun a => ?_
    by_cases hroom : m.instances.HasRoom
    · obtain ⟨t', halloc, -⟩ := alloc_of_room hroom (newInstance uuid props a entries)
      exact does_allocInstance (congrArg Prod.fst halloc) rfl
        (does_createAndBind hu hroom hfresh hcur hpanic)
    · have halloc := alloc_of_full hroom (newInstance uuid props a entries)
      exact does_allocInstance (congrArg Prod.fst halloc)
        (congrArg (Tables.mk m.sessions ·.2) halloc) (does_pure (.noSlot hu hroom))
  · rw [if_pos hu]
    exact does_pure (.mismatch hu)

theorem instantiateAndBind_outcome (hfresh : m.instances.Fresh m.instances.nextId)
    (hcur : m.currentInstance = none) :
    Outcome m (Instantiates props uuid login entries m.tables)
      (InstantiatePanics props uuid entries m.tables)
      (instantiateAndBind env props uuid login params entries aspace m) := by
  have hout := (does_instantiateAndBind env props uuid login params entries aspace hfresh hcur
    fun _ _ _ hlocked => hlocked).outcome m.world
  rw [after_self] at hout
  exact hout

end

end Creation

end Rustee.Os
