import Mathlib.Data.Multiset.AddSub
import Rustee.OsRuns

/-!
# Address spaces and memory references

`map_params` takes the address space out of the instance, maps the memory references of the command
into it, and is meant to put it back. A failed lookup, sync or mapping loses the address space; a
reference that is too long puts it back together with the mappings made so far. This file says
exactly when it is back afterwards with the mappings it had.
-/

namespace Rustee.Os

open SlotTable Prog List Machine InstanceTable PtaRegistry Keeps

variable {σ A S α : Type} {env : Env σ A S} {m m1 m' : Machine σ A} {iid : InstanceId}
  {params : Params}

/-! ### Mappings -/

/-- What an address space holds, as far as `map_into` and `unmap` are concerned: the
addresses that have been mapped and not yet unmapped. -/
structure HeldMappings (hal : Hal σ A S) where
  held : A → Multiset VirtAddr
  mapInto : ∀ shm a perms va a', hal.mapInto shm a perms = (.ok va, a') → held a' = va ::ₘ held a
  unmap : ∀ a va, held (hal.unmap a va) = (held a).erase va

def Hal.journaled (hal : Hal σ A S) : Hal σ (A × Multiset VirtAddr) S :=
  { hal with
    newAddressSpace w := (((hal.newAddressSpace w).1, 0), (hal.newAddressSpace w).2)
    mapInto shm a perms :=
      match hal.mapInto shm a.1 perms with
      | (.ok va, a') => (.ok va, a', va ::ₘ a.2)
      | (.error e, a') => (.error e, a', a.2)
    mapImage a va bytes perms :=
      ((hal.mapImage a.1 va bytes perms).1, (hal.mapImage a.1 va bytes perms).2, a.2)
    unmap a va := (hal.unmap a.1 va, a.2.erase va)
    dropAll a w := hal.dropAll a.1 w }

/-- So nothing has to be assumed of a HAL to speak about the mappings it made. -/
def Hal.journal (hal : Hal σ A S) : HeldMappings hal.journaled where
  held a := a.2
  mapInto := by
    intro shm a perms va a' h
    simp only [Hal.journaled] at h
    rcases hmap : hal.mapInto shm a.1 perms with ⟨r, a₁⟩
    rw [hmap] at h
    cases r with
    | error => cases h
    | ok =>
      cases h
      rfl
  unmap _ _ := rfl

/-! ### The loops -/

def Param.isRee : Param → Bool
  | .memref (.ree _ _) _ _ => true
  | _ => false

theorem isRee_paramFromRaw (p : Param) (raw : ParamRaw) : (paramFromRaw p raw).isRee = p.isRee := by
  unfold paramFromRaw
  split
  · rfl
  · rfl
  · rename_i src size
    cases src <;> rfl
  · rename_i src size
    cases src <;> rfl
  · rfl

section
variable (params : Params) (raw : RawParams) (i : Fin PARAM_COUNT)

theorem get_paramsFromRaw :
    (paramsFromRaw params raw).get i = paramFromRaw (params.get i) (raw.get i) := by
  change (params.zipWith paramFromRaw raw)[i.val] = _
  rw [Vector.getElem_zipWith]
  rfl

theorem isRee_paramsFromRaw : ((paramsFromRaw params raw).get i).isRee = (params.get i).isRee := by
  rw [get_paramsFromRaw, isRee_paramFromRaw]

end

/-- No lookup, sync or mapping fails, and a reference is too long only while nothing has
been mapped yet (`unmapped`). -/
def memrefsFit (env : Env σ A S) (params : Params) :
    List (Fin PARAM_COUNT) → σ → A → Bool → Bool
  | [], _, _, _ => true
  | i :: is, w, a, unmapped =>
    match params.get i with
    | .memref (.ree cookie offs) size dir =>
      match syncInParam env cookie dir w with
      | (false, _) => false
      | (true, w') =>
        match env.hal.lookupShm w' cookie with
        | none => false
        | some shm =>
          if env.hal.shmLen shm < saturatingAdd offs size then unmapped
          else
            match env.hal.mapInto shm a (dirPerms dir) with
            | (.error _, _) => false
            | (.ok _, a') => memrefsFit env params is w' a' false
    | _ => memrefsFit env params is w a unmapped

theorem get_set_self (vas : MappedVas) (i : Fin PARAM_COUNT) (v : Option VirtAddr) :
    (vas.set i v i.isLt).get i = v :=
  Vector.getElem_set_self i.isLt

variable {vas : MappedVas} {i : Fin PARAM_COUNT}

theorem get_set_of_ne {i j : Fin PARAM_COUNT} (h : i ≠ j)
    (v : Option VirtAddr) : (vas.set i v i.isLt).get j = vas.get j :=
  Vector.getElem_set_ne i.isLt j.isLt fun heq => h (Fin.ext heq)

def vasOf (vas : MappedVas) (is : List (Fin PARAM_COUNT)) : Multiset VirtAddr :=
  ↑(is.filterMap fun i => vas.get i)

theorem vasOf_cons_some {va : VirtAddr} (h : vas.get i = some va) (is : List (Fin PARAM_COUNT)) :
    vasOf vas (i :: is) = va ::ₘ vasOf vas is := by
  simp [vasOf, h]

theorem vasOf_cons_none (h : vas.get i = none)
    (is : List (Fin PARAM_COUNT)) : vasOf vas (i :: is) = vasOf vas is := by
  simp [vasOf, h]

section Loops

variable (acct : HeldMappings env.hal)

/-- How the mapping loop ends, what the address space holds then, and whether the
references fit (`fits`). -/
inductive LoopEnds (params : Params) (is : List (Fin PARAM_COUNT)) (a : A) (vas : MappedVas)
    (unmapped : Bool) : Bool → MapExit A → Prop
  | mapped (a' : A) (raw : RawParams) (vas' : MappedVas)
      (hheld : acct.held a' = vasOf vas' is + acct.held a)
      (hsame : ∀ j, j ∉ is → vas'.get j = vas.get j)
      (hree : ∀ j ∈ is, (vas'.get j).isSome → (params.get j).isRee) :
      LoopEnds params is a vas unmapped true (.mapped a' raw vas')
  | restored (a' : A) (code : UInt32) (left : Multiset VirtAddr)
      (hheld : acct.held a' = left + acct.held a) (fits : Bool)
      (hfits : fits = true ↔ unmapped = true ∧ left = 0) :
      LoopEnds params is a vas unmapped fits (.restored a' code)
  | lost (code : UInt32) : LoopEnds params is a vas unmapped false (.lost code)

variable {a : A} {is : List (Fin PARAM_COUNT)}

theorem LoopEnds.skip {vas : MappedVas}
    {unmapped fits : Bool} {exit : MapExit A} (hi : i ∉ is)
    (hnone : vas.get i = none) (h : LoopEnds acct params is a vas unmapped fits exit) :
    LoopEnds acct params (i :: is) a vas unmapped fits exit := by
  cases h with
  | mapped a' raw vas' hheld hsame hree =>
    have hvas : vas'.get i = none := (hsame i hi).trans hnone
    refine .mapped a' raw vas' ?_ ?_ ?_
    · rw [vasOf_cons_none hvas]
      exact hheld
    · intro j hj
      exact hsame j fun hmem => hj (mem_cons_of_mem _ hmem)
    · intro j hj hsome
      rcases mem_cons.mp hj with rfl | hmem
      · rw [hvas] at hsome
        cases hsome
      · exact hree j hmem hsome
  | restored a' code left hheld fits hfits => exact .restored a' code left hheld fits hfits
  | lost code => exact .lost code

/-- A reference that was mapped at `va`: from here on the loop cannot go back to what
it started from. -/
theorem LoopEnds.cons {a1 : A} {vas : MappedVas}
    {unmapped fits : Bool} {exit : MapExit A} {va : VirtAddr}
    (hi : i ∉ is) (hree : (params.get i).isRee) (hheld1 : acct.held a1 = va ::ₘ acct.held a)
    (h : LoopEnds acct params is a1 (vas.set i (some va) i.isLt) false fits exit) :
    LoopEnds acct params (i :: is) a vas unmapped fits exit := by
  cases h with
  | mapped a' raw vas' hheld hsame hrees =>
    have hvas : vas'.get i = some va := by
      rw [hsame i hi, get_set_self]
    refine .mapped a' raw vas' ?_ ?_ ?_
    · rw [vasOf_cons_some hvas, hheld, hheld1, Multiset.add_cons, Multiset.cons_add]
    · intro j hj
      obtain ⟨hne, hmem⟩ := not_or.mp (mt mem_cons.mpr hj)
      rw [hsame j hmem, get_set_of_ne (Ne.symm hne)]
    · intro j hj hsome
      rcases mem_cons.mp hj with rfl | hmem
      · exact hree
      · exact hrees j hmem hsome
  | restored a' code left hheld fits hfits =>
    have hfalse : fits ≠ true := fun htrue => absurd (hfits.mp htrue).1 (by decide)
    refine .restored a' code (va ::ₘ left) ?_ fits ?_
    · rw [hheld, hheld1, Multiset.add_cons, Multiset.cons_add]
    · constructor
      · intro htrue
        exact absurd htrue hfalse
      · rintro ⟨-, hnil⟩
        exact absurd hnil (Multiset.cons_ne_zero)
  | lost code => exact .lost code

/-- What the mapping loop does, by induction on the parameters still to come. -/
theorem mapParamsLoop_ends (params : Params) (hnodup : is.Nodup)
    (w : σ) (a : A) (raw : RawParams) (vas : MappedVas) (hvas : ∀ i ∈ is, vas.get i = none)
    (unmapped : Bool) :
    LoopEnds acct params is a vas unmapped (memrefsFit env params is w a unmapped)
      (mapParamsLoop env params is w a raw vas).1 := by
  induction is generalizing w a raw vas unmapped with
  | nil => exact .mapped a raw vas (by simp [vasOf]) (fun _ _ => rfl) (by simp)
  | cons i is ih =>
    obtain ⟨hi, hnodup'⟩ := nodup_cons.mp hnodup
    have hvas' : ∀ j ∈ is, vas.get j = none := fun j hj => hvas j (mem_cons_of_mem _ hj)
    have hskip := (ih hnodup' w a raw vas hvas' unmapped).skip acct hi (hvas i mem_cons_self)
    rcases hp : params.get i with _ | ⟨x, y, dir⟩ | ⟨src, size, dir⟩
    · simp only [mapParamsLoop, memrefsFit, hp]
      exact hskip
    · simp only [mapParamsLoop, memrefsFit, hp]
      exact hskip
    · cases src with
      | ta =>
        simp only [mapParamsLoop, memrefsFit, hp]
        exact hskip
      | ree cookie offs =>
        have hree : (params.get i).isRee := by rw [hp]; rfl
        simp only [mapParamsLoop, memrefsFit, hp]
        rcases syncInParam env cookie dir w with ⟨synced, w'⟩
        cases synced with
        | false => exact .lost _
        | true =>
          dsimp only
          cases env.hal.lookupShm w' cookie with
          | none => exact .lost _
          | some shm =>
            dsimp only
            by_cases hlen : env.hal.shmLen shm < saturatingAdd offs size
            · rw [if_pos hlen, if_pos hlen]
              exact .restored a _ 0 (by simp) unmapped (by simp)
            · rw [if_neg hlen, if_neg hlen]
              rcases hmap : env.hal.mapInto shm a (dirPerms dir) with ⟨r, a1⟩
              cases r with
              | error => exact .lost _
              | ok =>
                refine LoopEnds.cons acct hi hree (acct.mapInto _ _ _ _ _ hmap) ?_
                refine ih hnodup' w' a1 _ _ (fun j hj => ?_) false
                have hne : i ≠ j := fun heq => hi (heq ▸ hj)
                rw [get_set_of_ne hne]
                exact hvas' j hj

theorem unmapParamsLoop_held (params : Params) (vas : MappedVas)
    (hree : ∀ j ∈ is, (vas.get j).isSome → (params.get j).isRee) (w : σ)
    {rest : Multiset VirtAddr} (hheld : acct.held a = vasOf vas is + rest) :
    ∃ w' a', unmapParamsLoop env params vas is w (some a) = (w', some a') ∧
      acct.held a' = rest := by
  induction is generalizing w a with
  | nil => exact ⟨w, a, rfl, by simpa [vasOf] using hheld⟩
  | cons i is ih =>
    have hree' : ∀ j ∈ is, (vas.get j).isSome → (params.get j).isRee :=
      fun j hj => hree j (mem_cons_of_mem _ hj)
    -- what is not a reference into REE memory was not mapped
    have hskip : (params.get i).isRee = false →
        ∃ w' a', unmapParamsLoop env params vas is w (some a) = (w', some a') ∧
          acct.held a' = rest := by
      intro hnot
      have hva : vas.get i = none := by
        cases hva : vas.get i with
        | none => rfl
        | some =>
          have htrue := hree i mem_cons_self (by rw [hva]; rfl)
          exact absurd (htrue.symm.trans hnot) (by decide)
      rw [vasOf_cons_none hva] at hheld
      exact ih hree' w hheld
    rcases hp : params.get i with _ | ⟨x, y, dir⟩ | ⟨src, size, dir⟩
    · simp only [unmapParamsLoop, hp]
      exact hskip (by rw [hp]; rfl)
    · simp only [unmapParamsLoop, hp]
      exact hskip (by rw [hp]; rfl)
    · cases src with
      | ta =>
        simp only [unmapParamsLoop, hp]
        exact hskip (by rw [hp]; rfl)
      | ree =>
        simp only [unmapParamsLoop, hp]
        cases hva : vas.get i with
        | none =>
          rw [vasOf_cons_none hva] at hheld
          exact ih hree' _ hheld
        | some =>
          rw [vasOf_cons_some hva, Multiset.cons_add] at hheld
          refine ih hree' _ ?_
          rw [acct.unmap, hheld, Multiset.erase_cons_head]

end Loops

/-! ### Mapping, calling, unmapping -/

/-- What can be left of an address space when the parameters are mapped, the TA is
called and the parameters it returned are unmapped again. -/
inductive SpaceAfter (env : Env σ A S) (params : Params) (w : σ) : Option A → Option A → Prop
  | absent : SpaceAfter env params w none none
  | failed (a : A) (code : UInt32) (h : (mapAll env params w a).1.result = .error code) :
      SpaceAfter env params w (some a) (mapAll env params w a).1.aspace
  | cycled (a a' : A) (raw raw' : RawParams) (vas : MappedVas) (w' : σ)
      (h : (mapAll env params w a).1 = .mapped a' raw vas) :
      SpaceAfter env params w (some a) (unmapAll env (paramsFromRaw params raw') vas w' (some a')).2

variable {w : σ}

theorem mapAll_ends (acct : HeldMappings env.hal) (params : Params) (w : σ) (a : A) :
    LoopEnds acct params (finRange PARAM_COUNT) a (Vector.replicate PARAM_COUNT none) true
      (memrefsFit env params (finRange PARAM_COUNT) w a true) (mapAll env params w a).1 :=
  mapParamsLoop_ends acct params (nodup_finRange PARAM_COUNT) w a _ _
    (fun i _ => Vector.getElem_replicate i.isLt) true

/-- It is there and holds what it held before exactly when the references fit. -/
theorem SpaceAfter.kept_iff (acct : HeldMappings env.hal) {a : A} {b : Option A}
    (h : SpaceAfter env params w (some a) b) :
    (∃ a', b = some a' ∧ acct.held a' = acct.held a) ↔
      memrefsFit env params (finRange PARAM_COUNT) w a true = true := by
  have hends := mapAll_ends acct params w a
  generalize memrefsFit env params (finRange PARAM_COUNT) w a true = fits at hends ⊢
  cases h with
  | failed a code hcode =>
    generalize (mapAll env params w a).1 = exit at hends hcode ⊢
    cases hends with
    | mapped => cases hcode
    | restored a' code' left hheld fits hfits =>
      rw [hfits]
      constructor
      · rintro ⟨a'', hsome, hkept⟩
        cases hsome
        rw [hheld] at hkept
        exact ⟨rfl, Multiset.add_left_inj.mp (hkept.trans (Multiset.zero_add _).symm)⟩
      · rintro ⟨-, rfl⟩
        exact ⟨a', rfl, by rw [hheld, Multiset.zero_add]⟩
    | lost => simp [MapExit.aspace]
  | cycled a a' raw raw' vas w' hmapped =>
    rw [hmapped] at hends
    cases hends with
    | mapped _ _ _ hheld hsame hree =>
      have hree' : ∀ j ∈ finRange PARAM_COUNT, (vas.get j).isSome →
          ((paramsFromRaw params raw').get j).isRee := by
        intro j hj hsome
        rw [isRee_paramsFromRaw]
        exact hree j hj hsome
      obtain ⟨w2, a2, hunmap, hkept⟩ :=
        unmapParamsLoop_held acct (paramsFromRaw params raw') vas hree' w' hheld
      simp [unmapAll, hunmap, hkept]

/-! ### The address space of one instance -/

/-- What a command can see of an instance besides its counters. -/
structure View (A : Type) where
  aspace : Option A
  entries : Option TaEntryPoints
  state : InstanceState

def Instance.view (i : Instance A) : View A := ⟨i.aspace, i.entries, i.state⟩

def Machine.view (m : Machine σ A) (iid : InstanceId) : Option (View A) :=
  (m.instances.get iid).map Instance.view

def viewFrame (σ A : Type) (iid : InstanceId) : Frame (Machine σ A) where
  rel m m' := m'.view iid = m.view iid
  refl _ := rfl
  trans h₁ h₂ := h₂.trans h₁

theorem view_update {f : Instance A → Instance A} (hid : ∀ i, (f i).id = i.id)
    (hview : ∀ i, (f i).view = i.view) (j : InstanceId) :
    Keeps (viewFrame σ A iid) (updateInstance j f) := by
  refine keeps_modify fun m => ?_
  change ((m.instances.update j f).get iid).map Instance.view = (m.instances.get iid).map _
  rw [get_update hid]
  by_cases hj : iid = j
  · subst hj
    rw [if_pos rfl]
    cases m.instances.get iid with
    | none => rfl
    | some i => exact congrArg some (hview i)
  · rw [if_neg hj]

variable (j : InstanceId)

theorem view_unlockInstance : Keeps (viewFrame σ A iid) (unlockInstance j : KM σ A Unit) := by
  apply view_update
  · exact fun _ => rfl
  · exact fun _ => rfl

theorem view_lockInstance :
    Keeps (viewFrame σ A iid) (lockInstance j : KM σ A (Except UInt32 Unit)) := by
  refine (keeps_gets _).bind fun inst => ?_
  cases inst with
  | none => exact keeps_pure _
  | some =>
    dsimp only
    split
    · exact keeps_pure _
    · refine bind (view_update ?_ ?_ j) fun _ => keeps_pure _
      · exact fun _ => rfl
      · exact fun _ => rfl

theorem view_call (code : σ → CallExit α × σ) (returned : α → Event) (panicked : Event) :
    Keeps (viewFrame σ A iid) (call code returned panicked) := by
  intro m
  unfold call
  rcases code m.world with ⟨exit, w⟩
  cases exit with
  | returns | panics => rfl

theorem view_entering {entry : KM σ A α} (j : InstanceId)
    (h : Keeps (viewFrame σ A iid) entry) : Keeps (viewFrame σ A iid) (entering j entry) := by
  have hset : ∀ c, Keeps (viewFrame σ A iid) (setCurrentInstance c : KM σ A Unit) :=
    fun c => keeps_modify fun _ => rfl
  exact (hset _).bind fun _ => h.bind fun _ => (hset _).bind fun _ => keeps_pure _

theorem view_recordSession (uuid : Uuid) (login : Login) (ctx : UInt64)
    (params : Params) :
    Keeps (viewFrame σ A iid) (recordSession j uuid login ctx params : KM σ A KernelOut) := by
  refine bind (keeps_transform fun _ => rfl) fun sid => ?_
  cases sid with
  | none => exact keeps_pure _
  | some =>
    refine bind (view_update ?_ ?_ j) fun _ => keeps_pure _
    · exact fun _ => rfl
    · exact fun _ => rfl

variable {v : View A}

section

variable (hv : m.view iid = some v)
include hv

theorem view_eq_some : ∃ i, m.instances.get iid = some i ∧ i.view = v :=
  Option.map_eq_some_iff.mp hv

theorem view_touch (w : σ) (b : Option A) (evs : List Event) :
    (m.after w (m.tables.touch iid b) evs).view iid = some { v with aspace := b } := by
  obtain ⟨i, hi, rfl⟩ := view_eq_some hv
  exact congrArg (Option.map Instance.view) (get_update_aspace hi b)

/-- `map_params` as it is seen on the instance. -/
theorem mapParams_view {r : Except UInt32 (RawParams × MappedVas)}
    (hrun : mapParams env iid params m = (.value r, m1)) :
    (∃ code b, r = .error code ∧ SpaceAfter env params m.world v.aspace b ∧
      m1.view iid = some { v with aspace := b }) ∨
    (∃ a a' raw vas, r = .ok (raw, vas) ∧ v.aspace = some a ∧
      (mapAll env params m.world a).1 = .mapped a' raw vas ∧
      m1.view iid = some { v with aspace := some a' }) := by
  obtain ⟨i, hi, rfl⟩ := view_eq_some hv
  cases ha : i.aspace with
  | none =>
    rw [mapParams_of_none hi ha] at hrun
    cases hrun
    refine .inl ⟨_, none, rfl, ?_, ?_⟩
    · rw [Instance.view, ha]
      exact .absent
    · rw [hv, Instance.view, ha]
  | some a =>
    rw [mapParams_of_some hi ha] at hrun
    cases hrun
    have hview := view_touch hv (mapAll env params m.world a).2
      (mapAll env params m.world a).1.aspace []
    have hfailed : ∀ code, (mapAll env params m.world a).1.result = .error code →
        SpaceAfter env params m.world i.view.aspace (mapAll env params m.world a).1.aspace := by
      intro code hcode
      rw [Instance.view, ha]
      exact .failed a code hcode
    cases hexit : (mapAll env params m.world a).1 with
    | lost code | restored a' code =>
      rw [hexit] at hview hfailed
      exact .inl ⟨code, _, rfl, hfailed code rfl, hview⟩
    | mapped a' raw vas =>
      rw [hexit] at hview
      exact .inr ⟨a, a', raw, vas, rfl, ha, hexit, hview⟩

theorem unmapParams_view (vas : MappedVas)
    (hrun : unmapParams env iid params vas m = (.value (), m1)) :
    m1.view iid = some { v with aspace := (unmapAll env params vas m.world v.aspace).2 } := by
  obtain ⟨i, hi, rfl⟩ := view_eq_some hv
  rw [unmapParams_apply] at hrun
  cases hrun
  have hspace : (m.instances.get iid).bind (·.aspace) = i.view.aspace := by rw [hi]; rfl
  rw [hspace]
  exact view_touch hv _ _ _

end

theorem Keeps.view {x : KM σ A α} (hx : Keeps (viewFrame σ A iid) x) {r : Exit α}
    (hrun : x m = (r, m1)) : m1.view iid = m.view iid := by
  have hrel := hx m
  rw [hrun] at hrel
  exact hrel

variable {out : KernelOut} {uuid : Uuid}

/-- `bind_session`: a TA without entry points is not asked, so nothing is mapped. -/
theorem bindSession_space (hv : m.view iid = some v) {login : Login}
    (hrun : bindSession env iid uuid login params m = (.value out, m')) :
    ∃ b, m'.view iid = some { v with aspace := b } ∧ (v.entries = none → b = v.aspace) ∧
      (v.entries.isSome → SpaceAfter env params m.world v.aspace b) := by
  obtain ⟨i, hi, rfl⟩ := view_eq_some hv
  cases he : i.entries with
  | none =>
    have hstart : bindSession env iid uuid login params m =
        recordSession iid uuid login 0 params m := by
      simp only [bindSession, getEntries, bind_apply, gets_apply, hi, Option.bind_some, he]
    rw [hstart] at hrun
    refine ⟨i.aspace, ?_, fun _ => rfl, ?_⟩
    · rw [Keeps.view (view_recordSession iid uuid login 0 params) hrun, hv]
      rfl
    · intro hsome
      rw [Instance.view, he] at hsome
      cases hsome
  | some =>
    have hent : i.view.entries ≠ none := by simp [Instance.view, he]
    simp only [bindSession, getEntries, bind_of_value (gets_apply _ m), hi, Option.bind_some,
      he] at hrun
    obtain ⟨r, m1, hmap, hrun⟩ := bind_eq_value hrun
    rcases mapParams_view hv hmap with ⟨code, b, rfl, hspace, hview⟩ |
      ⟨a, a', raw, vas, rfl, ha, hmapped, hview⟩
    · cases hrun
      exact ⟨b, hview, fun h => absurd h hent, fun _ => hspace⟩
    · obtain ⟨⟨code, raw', ctx⟩, m2, hcall, hrun⟩ := bind_eq_value hrun
      rw [← Keeps.view (view_entering iid (view_call _ _ _)) hcall] at hview
      obtain ⟨_, m3, hunmap, hrun⟩ := bind_eq_value hrun
      have hview3 := unmapParams_view hview vas hunmap
      have hkeeps : m'.view iid = m3.view iid := by
        split at hrun
        · cases hrun
          rfl
        · exact Keeps.view (view_recordSession iid uuid login ctx _) hrun
      refine ⟨_, hkeeps.trans hview3, fun h => absurd h hent, fun _ => ?_⟩
      rw [ha]
      exact .cycled a a' raw raw' vas m2.world hmapped

theorem bindAndUnlock_space (hv : m.view iid = some v) {login : Login}
    (hrun : bindAndUnlock env iid uuid login params m = (.value out, m')) :
    ∃ b, m'.view iid = some { v with aspace := b } ∧ (v.entries = none → b = v.aspace) ∧
      (v.entries.isSome → SpaceAfter env params m.world v.aspace b) := by
  obtain ⟨out', m1, hbind, hrun⟩ := bind_eq_value hrun
  obtain ⟨_, m2, hunlock, hrun⟩ := bind_eq_value hrun
  cases hrun
  rw [Keeps.view (view_unlockInstance iid) hunlock]
  exact bindSession_space hv hbind

/-- `invoke` on a locked instance maps also for a TA without entry points. -/
theorem invokeLocked_space (hv : m.view iid = some v) {session : SessionId}
    {sess : Session} {cmdId : UInt32}
    (hrun : invokeLocked env session sess iid cmdId params m = (.value out, m')) :
    ∃ b, m'.view iid = some { v with aspace := b } ∧ SpaceAfter env params m.world v.aspace b := by
  obtain ⟨out', m1, henter, hrun⟩ := bind_eq_value hrun
  obtain ⟨_, m2, hunlock, hrun⟩ := bind_eq_value hrun
  cases hrun
  rw [Keeps.view (view_unlockInstance iid) hunlock]
  obtain ⟨_, m3, hset, henter⟩ := bind_eq_value henter
  cases hset
  obtain ⟨out'', m3, hinv, henter⟩ := bind_eq_value henter
  obtain ⟨_, m4, hset, henter⟩ := bind_eq_value henter
  cases henter
  cases hset
  change ∃ b, m3.view iid = _ ∧ _
  obtain ⟨r, m1, hmap, hinv⟩ := bind_eq_value hinv
  have hv' : view { m with currentInstance := some iid } iid = some v := hv
  rcases mapParams_view hv' hmap with ⟨code, b, rfl, hspace, hview⟩ |
    ⟨a, a', raw, vas, rfl, ha, hmapped, hview⟩
  · cases hinv
    exact ⟨b, hview, hspace⟩
  · obtain ⟨⟨code, raw'⟩, m2, hcall, hinv⟩ := bind_eq_value hinv
    have hentry : Keeps (viewFrame σ A iid)
        (invokeEntry env iid sess.taSessCtx cmdId (paramTypesOf params) raw) := by
      refine (keeps_gets _).bind fun e => ?_
      cases e with
      | none => exact keeps_pure _
      | some => exact view_call _ _ _
    rw [← Keeps.view hentry hcall] at hview
    obtain ⟨_, m3, hunmap, hinv⟩ := bind_eq_value hinv
    cases hinv
    refine ⟨_, unmapParams_view hview vas hunmap, ?_⟩
    rw [ha]
    exact .cycled a a' raw raw' vas m2.world hmapped

/-! ### Creating an instance -/

/-- The TA agrees to be created in the world `w` and leaves `w'`; a TA without entry points
is not asked. -/
def CreatedIn (env : Env σ A S) (entries : Option TaEntryPoints) (w w' : σ) : Prop :=
  match entries with
  | none => w' = w
  | some ep => env.ta.create ep.create w = (.returns TEE_SUCCESS, w')

section Creation

variable {props : TaProperties} {uuid : Uuid} {login : Login} {ep : TaEntryPoints}
  {entries : Option TaEntryPoints} {a : A} {w w' : σ} {out : KernelOut}

section

variable (hroom : m.instances.HasRoom) (hfresh : m.instances.Fresh m.instances.nextId)
include hroom hfresh

/-- The instance is created in the world `w` and then bound; one whose TA refuses is dropped. -/
theorem createAndBind_cases
    (hrun : createAndBind env m.instances.nextId uuid login params entries
      (m.stored w (newInstance props.uuid props a entries) []) = (.value out, m')) :
    (∃ m1, CreatedIn env entries w m1.world ∧ m1.tables =
        (m.tables.issue (newInstance props.uuid props a entries)).lock m.instances.nextId ∧
      bindAndUnlock env m.instances.nextId uuid login params m1 = (.value out, m')) ∨
    (∀ w', ¬ CreatedIn env entries w w') ∧ m'.tables = m.tables.skipId := by
  obtain ⟨r, m1, hlock, hrun⟩ := bind_eq_value hrun
  rw [lockInstance_of_free (get_alloc hroom hfresh _) rfl] at hlock
  cases hlock
  cases entries with
  | none =>
    refine .inl ⟨_, ?_, ?_, hrun⟩
    · rfl
    · rfl
  | some ep =>
    obtain ⟨code, m2, hcall, hrun⟩ := bind_eq_value hrun
    obtain ⟨w', hcreate, rfl⟩ := entering_call_value hcall
    by_cases hcode : code = TEE_SUCCESS
    · subst hcode
      rw [if_neg (not_not.mpr rfl)] at hrun
      refine .inl ⟨_, ?_, ?_, hrun⟩
      · exact hcreate
      · rfl
    · rw [if_pos hcode] at hrun
      obtain ⟨_, m3, hunlock, hrun⟩ := bind_eq_value hrun
      obtain ⟨_, m4, hdrop, hrun⟩ := bind_eq_value hrun
      cases hrun
      cases hunlock
      cases hdrop
      refine .inr ⟨fun w1 hcreated => ?_, congrArg (fun r => tables r.2)
        (dropInstance_issue hroom hfresh (newInstance props.uuid props a (some ep)) w' [])⟩
      cases hcreate.symm.trans hcreated
      exact hcode rfl

theorem view_locked_issue {m1 : Machine σ A} (h : m1.tables =
      (m.tables.issue (newInstance props.uuid props a entries)).lock m.instances.nextId) :
    m1.view m.instances.nextId = some (storedInstance m props a entries).view := by
  have hget := get_lock (t := m.tables.issue (newInstance props.uuid props a entries))
    (get_alloc hroom hfresh _)
  rw [← h] at hget
  exact congrArg (Option.map Instance.view) hget

theorem createAndBind_lands (hcreate : env.ta.create ep.create w = (.returns TEE_SUCCESS, w'))
    (hrun : createAndBind env m.instances.nextId uuid login params (some ep)
      (m.stored w (newInstance props.uuid props a (some ep)) []) = (.value out, m')) :
    ∃ b, m'.view m.instances.nextId =
        some { (storedInstance m props a (some ep)).view with aspace := b } ∧
      SpaceAfter env params w' (some a) b := by
  rcases createAndBind_cases hroom hfresh hrun with ⟨m1, hcreated, htables, hrun⟩ | ⟨hnot, -⟩
  · obtain ⟨b, hview, -, hspace⟩ :=
      bindAndUnlock_space (view_locked_issue hroom hfresh htables) hrun
    cases hcreate.symm.trans hcreated
    exact ⟨b, hview, hspace rfl⟩
  · exact absurd hcreate (hnot w')

/-- A TA that has no entry points, or refuses to be created. -/
theorem createAndBind_untouched
    (hno : ∀ ep w', entries = some ep → env.ta.create ep.create w ≠ (.returns TEE_SUCCESS, w'))
    (hrun : createAndBind env m.instances.nextId uuid login params entries
      (m.stored w (newInstance props.uuid props a entries) []) = (.value out, m')) :
    m'.view m.instances.nextId = some (storedInstance m props a entries).view ∨
      m'.view m.instances.nextId = none := by
  rcases createAndBind_cases hroom hfresh hrun with ⟨m1, hcreated, htables, hrun⟩ | ⟨-, hgone⟩
  · obtain ⟨b, hview, hnone, -⟩ :=
      bindAndUnlock_space (view_locked_issue hroom hfresh htables) hrun
    cases entries with
    | none =>
      rw [hview, hnone rfl]
      exact .inl rfl
    | some ep => exact absurd hcreated (hno ep _ rfl)
  · right
    change (m'.tables.instances.get _).map Instance.view = none
    rw [hgone]
    exact congrArg (Option.map Instance.view) (get_eq_none.mpr hfresh)

end

end Creation

/-! ### Commands -/

/-- The instance a command is for, as it is before TA code runs on its behalf: the one
the session names, the Live single instance of the UUID, or a new one that is made
from an early TA or from the answer to a LOAD_TA request. -/
inductive TargetOf (env : Env σ A S) (m : Machine σ A) :
    KernelCmd → InstanceId → Instance A → Prop
  | invoked {session cmdId params cancelId timeoutMs sess iid i}
      (hs : m.sessions.get session = some sess) (hk : sess.kind = .userTa)
      (hinst : sess.inst = some iid) (hi : m.instances.get iid = some i) :
      TargetOf env m (.invoke session cmdId params cancelId timeoutMs) iid i
  | reused {uuid login params cancelId timeoutMs iid i} (hpta : getMut m.ptas uuid = none)
      (hsingle : liveSingle m.instances uuid = some iid) (hi : m.instances.get iid = some i) :
      TargetOf env m (.openSession uuid login params cancelId timeoutMs) iid i
  | created {login params cancelId timeoutMs ta} (hadm : Admitted m cancelId)
      (hpta : getMut m.ptas ta.props.uuid = none)
      (hsingle : liveSingle m.instances ta.props.uuid = none)
      (hearly : EarlyTas.get m.early ta.props.uuid = some ta) (hroom : m.instances.HasRoom) :
      TargetOf env m (.openSession ta.props.uuid login params cancelId timeoutMs)
        m.instances.nextId
        (storedInstance m ta.props (env.hal.newAddressSpace m.world).1 ta.entries)
  | loaded {bytes y image entries a} (hy : m.yielding = some y) (hadm : Admitted m y.cancelId)
      (hload : loadImage env.crypto env.target.build bytes = .ok image)
      (hu : image.props.uuid = y.uuid)
      (hmap : mapElf env (env.hal.newAddressSpace m.world).1 bytes = .ok (entries, a))
      (hroom : m.instances.HasRoom) :
      TargetOf env m (.rpcComplete (.loadTa bytes)) m.instances.nextId
        (storedInstance m image.props a entries)

variable {i : Instance A} {cmd : KernelCmd}

theorem Maps.target (h : Maps env m cmd iid i w params) : TargetOf env m cmd iid i := by
  cases h with
  | invoked hadm hs hstate hk hinst hi => exact .invoked hs hk hinst hi
  | reused hadm hpta hsingle hi => exact .reused hpta hsingle hi
  | created hadm hpta hsingle hearly hroom =>
    exact .created hadm hpta hsingle hearly hroom
  | loaded hy hadm hload hu hmap hroom => exact .loaded hy hadm hload hu hmap hroom

variable {cancelId : UInt32}

theorem view_locked (hi : m.instances.get iid = some i) (hb : i.busy = false) :
    (m.after m.world (m.tables.lock iid) []).view iid = some i.view := by
  rw [Keeps.view (view_lockInstance iid) (lockInstance_of_free hi hb)]
  exact congrArg (Option.map Instance.view) hi

section
variable (env : Env σ A S)

section

variable (hadm : Admitted m cancelId)
include hadm

theorem handle_invoked {session : SessionId} {sess : Session}
    (hs : m.sessions.get session = some sess) (hstate : sess.state ≠ .dead)
    (hk : sess.kind = .userTa) (hinst : sess.inst = some iid)
    (hi : m.instances.get iid = some i) (hb : i.busy = false) (cmdId : UInt32)
    (params : Params) (timeoutMs : UInt32) :
    handle env (.invoke session cmdId params cancelId timeoutMs) m =
      invokeLocked env session sess iid cmdId params (m.after m.world (m.tables.lock iid) []) := by
  rw [handle_of_gate env hadm.1]
  simp only [execute, invoke, cancelled, bind_apply, gets_apply, hadm.2,
    Bool.false_eq_true, if_false, hs, hstate, hk, hinst, lockInstance_of_free hi hb]

theorem handle_opened (hpta : getMut m.ptas uuid = none)
    (login : Login) (params : Params) (timeoutMs : UInt32) :
    handle env (.openSession uuid login params cancelId timeoutMs) m =
      openUserTa env uuid login params cancelId timeoutMs m := by
  rw [handle_of_gate env hadm.1]
  simp only [execute, open_, cancelled, bind_apply, gets_apply, hadm.2,
    Bool.false_eq_true, if_false, hpta]

theorem handle_reused (hpta : getMut m.ptas uuid = none)
    (hsingle : liveSingle m.instances uuid = some iid) (hi : m.instances.get iid = some i)
    (hcount : (!i.props.multiSession && decide (i.sessionCount > 0)) = false)
    (hb : i.busy = false) (login : Login) (params : Params) (timeoutMs : UInt32) :
    handle env (.openSession uuid login params cancelId timeoutMs) m =
      bindAndUnlock env iid uuid login params (m.after m.world (m.tables.lock iid) []) := by
  rw [handle_opened env hadm hpta]
  simp only [openUserTa, cancelled, getInstance, bind_apply, gets_apply, hadm.2,
    Bool.false_eq_true, if_false, hsingle, hi, hcount, lockInstance_of_free hi hb]

theorem handle_created {ta : EarlyTa} (hpta : getMut m.ptas ta.props.uuid = none)
    (hsingle : liveSingle m.instances ta.props.uuid = none)
    (hearly : EarlyTas.get m.early ta.props.uuid = some ta) (hroom : m.instances.HasRoom)
    (login : Login) (params : Params) (timeoutMs : UInt32) :
    handle env (.openSession ta.props.uuid login params cancelId timeoutMs) m =
      createAndBind env m.instances.nextId ta.props.uuid login params ta.entries
        (m.stored (env.hal.newAddressSpace m.world).2
          (newInstance ta.props.uuid ta.props (env.hal.newAddressSpace m.world).1 ta.entries)
          []) := by
  have haspace : aspaceOrNew env none m = (.value (env.hal.newAddressSpace m.world).1,
      m.after (env.hal.newAddressSpace m.world).2 m.tables []) := by
    rw [after_self]
    rfl
  rw [handle_opened env hadm hpta]
  simp only [openUserTa, cancelled, bind_apply, gets_apply, hadm.2,
    Bool.false_eq_true, if_false, hsingle, hearly]
  exact instantiateAndBind_of_room login params rfl hroom haspace

end

theorem handle_loaded {bytes : List UInt8} {y : Yielding} {image : Loaded}
    {entries : Option TaEntryPoints} {a : A} (hy : m.yielding = some y)
    (hadm : Admitted m y.cancelId) (hload : loadImage env.crypto env.target.build bytes = .ok image)
    (hu : image.props.uuid = y.uuid)
    (hmap : mapElf env (env.hal.newAddressSpace m.world).1 bytes = .ok (entries, a))
    (hroom : m.instances.HasRoom) :
    handle env (.rpcComplete (.loadTa bytes)) m =
      createAndBind env m.instances.nextId y.uuid y.login y.params entries
        (stored { m with yielding := none } (env.hal.newAddressSpace m.world).2
          (newInstance image.props.uuid image.props a entries) []) := by
  have hanswer : rpcComplete env (.loadTa bytes) m =
      loadTaAnswer env y bytes { m with yielding := none } := by
    simp only [rpcComplete, bind_apply, gets_apply, hy, modify_apply]
  have hcancel : ¬ (m.cancelledIds.any (· == y.cancelId)) = true := by
    rw [hadm.2]
    decide
  rw [handle_of_gate env hadm.1]
  change rpcComplete env (.loadTa bytes) m = _
  rw [hanswer, loadTaAnswer_apply, if_neg hcancel, hload]
  simp only [hu, ne_eq, not_true_eq_false, if_false, hmap]
  have haspace : ∀ m1 : Machine σ A,
      aspaceOrNew env (some a) m1 = (.value a, m1.after m1.world m1.tables []) := by
    intro m1
    rw [after_self]
    rfl
  refine (instantiateAndBind_of_room (m := after { m with yielding := none } _ m.tables [])
    y.login y.params hu hroom (haspace _)).trans ?_
  rw [stored, after_after, nil_append]
  rfl

end

/-- A command that maps leaves its target with what mapping, calling and unmapping leave
of its address space. -/
theorem Maps.lands (hf : FreshIds m) (h : Maps env m cmd iid i w params)
    (hrun : handle env cmd m = (.value out, m')) :
    ∃ b, m'.view iid = some { i.view with aspace := b } ∧ SpaceAfter env params w i.aspace b := by
  cases h with
  | invoked hadm hs hstate hk hinst hi hb =>
    rw [handle_invoked env hadm hs hstate hk hinst hi hb] at hrun
    obtain ⟨b, hview, hspace⟩ := invokeLocked_space (view_locked hi hb) hrun
    exact ⟨b, hview, hspace⟩
  | reused hadm hpta hsingle hi hcount hb he =>
    rw [handle_reused env hadm hpta hsingle hi hcount hb] at hrun
    obtain ⟨b, hview, -, hspace⟩ := bindAndUnlock_space (view_locked hi hb) hrun
    exact ⟨b, hview, hspace he⟩
  | @created login params cancelId timeoutMs ta ep w hadm hpta hsingle hearly hroom he hcreate =>
    rw [handle_created env hadm hpta hsingle hearly hroom, he] at hrun
    rw [he]
    exact createAndBind_lands hroom hf.2 hcreate hrun
  | loaded hy hadm hload hu hmap hroom hcreate =>
    rw [handle_loaded env hy hadm hload hu hmap hroom] at hrun
    exact createAndBind_lands (m := { m with yielding := none }) hroom hf.2 hcreate hrun

/-- A command that does not map leaves its target as it was; a new instance whose create
entry point refused is gone. -/
theorem TargetOf.untouched (hf : FreshIds m) (h : TargetOf env m cmd iid i)
    (hno : ∀ w params, ¬ Maps env m cmd iid i w params)
    (hrun : handle env cmd m = (.value out, m')) :
    m'.view iid = some i.view ∨ m'.view iid = none ∧ i.aspace.isSome := by
  cases h with
  | @invoked session cmdId params cancelId timeoutMs sess iid i hs hk hinst hi =>
    have hroute := handle_routes env (.invoke session cmdId params cancelId timeoutMs) m
    generalize handle env (.invoke session cmdId params cancelId timeoutMs) m = r at hroute hrun
    cases hroute with
    | refused =>
      cases hrun
      exact .inl (congrArg (Option.map Instance.view) hi)
    | ptaInvoked hs' hk' | ptaHalted hs' hk' =>
      cases hs.symm.trans hs'
      cases hk.symm.trans hk'
    | invoked hadm hs' hstate hk' hinst' hi' hb =>
      cases hs.symm.trans hs'
      cases hinst.symm.trans hinst'
      cases hi.symm.trans hi'
      exact absurd (.invoked hadm hs hstate hk hinst hi hb) (hno _ _)
  | @reused uuid login params cancelId timeoutMs iid i hpta hsingle hi =>
    have hroute := handle_routes env (.openSession uuid login params cancelId timeoutMs) m
    generalize handle env (.openSession uuid login params cancelId timeoutMs) m = r at hroute hrun
    cases hroute with
    | refused =>
      cases hrun
      exact .inl (congrArg (Option.map Instance.view) hi)
    | yielded hnone hsingle' | created hadm hpta' hsingle' => cases hsingle.symm.trans hsingle'
    | reused hadm hpta' hsingle' hi' hcount hb =>
      cases hsingle.symm.trans hsingle'
      cases hi.symm.trans hi'
      obtain ⟨b, hview, hnone, -⟩ := bindAndUnlock_space (view_locked hi hb) hrun
      cases he : i.entries with
      | none =>
        rw [hview, hnone he]
        exact .inl rfl
      | some =>
        have hmaps : Maps env m (.openSession uuid login params cancelId timeoutMs) iid i
            m.world params := .reused hadm hpta hsingle hi hcount hb (by rw [he]; rfl)
        exact absurd hmaps (hno _ _)
    | ptaRefused hreg | ptaPanicked hreg | ptaOpened hreg | ptaUnrecorded hreg =>
      rw [hpta] at hreg
      cases hreg
  | @created login params cancelId timeoutMs ta hadm hpta hsingle hearly hroom =>
    rw [handle_created env hadm hpta hsingle hearly hroom] at hrun
    refine (createAndBind_untouched hroom hf.2 (fun ep w he hcreate => ?_) hrun).imp_right
      fun hgone => ⟨hgone, rfl⟩
    exact hno _ _ (.created hadm hpta hsingle hearly hroom he hcreate)
  | @loaded bytes y image entries a hy hadm hload hu hmap hroom =>
    rw [handle_loaded env hy hadm hload hu hmap hroom] at hrun
    refine (createAndBind_untouched (m := { m with yielding := none }) hroom hf.2 ?_ hrun).imp_right
      fun hgone => ⟨hgone, rfl⟩
    rintro ep w rfl hcreate
    exact hno _ _ (.loaded hy hadm hload hu hmap hroom hcreate)

theorem Maps.found (hf : FreshIds m) (h : Maps env m cmd iid i w params)
    (hrun : handle env cmd m = (.value out, m')) :
    ∃ i', m'.instances.get iid = some i' ∧ i'.state = i.state ∧
      SpaceAfter env params w i.aspace i'.aspace := by
  obtain ⟨b, hview, hspace⟩ := h.lands hf hrun
  obtain ⟨i', hi', heq⟩ := view_eq_some hview
  refine ⟨i', hi', congrArg View.state heq, ?_⟩
  have haspace : i'.aspace = b := congrArg View.aspace heq
  rw [haspace]
  exact hspace

end Rustee.Os
