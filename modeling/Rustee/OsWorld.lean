import Rustee.OsFrames

/-!
# What a command does outside the kernel

The kernel reaches the outside world only through the HAL and the code it calls, so a relation
between worlds that each of these respects holds across every command. The two TA entries that
take memory references are told apart: they are called only with what `map_params` made of the
parameters of the command, or of the pending request. And TA code is only entered at the entry
points of an instance.
-/

namespace Rustee.Os

open Prog SlotTable

variable {σ A S α : Type} {F : Frame σ} {P : Params → Prop} {E : TaEntryPoints → Prop}
  {env : Env σ A S}

def worldFrame (A : Type) (F : Frame σ) : Frame (Machine σ A) where
  rel m m' := F.rel m.world m'.world
  refl m := F.refl m.world
  trans := F.trans

/-! ### Entry points -/

/-- The entry points of every instance in the table satisfy `E`. -/
def BoundTo (E : TaEntryPoints → Prop) (m : Machine σ A) : Prop :=
  ∀ i ∈ m.instances.entries, ∀ ep, i.entries = some ep → E ep

/-- The relation puts up with everything the kernel does to the world. Parameters of
memory references satisfy `P`, and TA code is only entered at entry points that satisfy `E`. -/
structure Reaches (env : Env σ A S) (F : Frame σ) (P : Params → Prop)
    (E : TaEntryPoints → Prop) : Prop where
  newSpace : ∀ w, F.rel w (env.hal.newAddressSpace w).2
  syncIn : ∀ cookie dir w, F.rel w (syncInParam env cookie dir w).2
  syncOut : ∀ cookie dir w, F.rel w (syncOutParam env cookie dir w)
  dropAll : ∀ aspace w, F.rel w (env.hal.dropAll aspace w)
  create : ∀ ep, E ep → ∀ w, F.rel w (env.ta.create ep.create w).2
  destroy : ∀ ep, E ep → ∀ w, F.rel w (env.ta.destroy ep.destroy w).2
  openSession : ∀ {params raw}, P params → MappedTo env params raw → ∀ ep, E ep → ∀ w,
    F.rel w (env.ta.openSession ep.openSession (paramTypesOf params) raw 0 w).2
  closeSession : ∀ ep, E ep → ∀ ctx w, F.rel w (env.ta.closeSession ep.closeSession ctx w).2
  invoke : ∀ {params raw}, P params → MappedTo env params raw → ∀ ep, E ep → ∀ ctx cmdId w,
    F.rel w (env.ta.invoke ep.invoke ctx cmdId (paramTypesOf params) raw w).2
  ptaOpen : ∀ pta params w, F.rel w (env.pta.open_ pta params w).2
  ptaInvoke : ∀ pta ctx cmd params w, F.rel w (env.pta.invoke pta ctx cmd params w).2
  ptaClose : ∀ pta ctx w, F.rel w (env.pta.close pta ctx w).2

def boundFrame (A : Type) (F : Frame σ) (E : TaEntryPoints → Prop) : Frame (Machine σ A) where
  rel m m' := BoundTo E m → (worldFrame A F).rel m m' ∧ BoundTo E m'
  refl m h := ⟨F.refl m.world, h⟩
  trans h h' hm := ⟨F.trans (h hm).1 (h' (h hm).2).1, (h' (h hm).2).2⟩

variable {m m' : Machine σ A}

theorem boundTo_of_same (h : m'.instances = m.instances) (hm : BoundTo E m) : BoundTo E m' := by
  intro i hi
  rw [h] at hi
  exact hm i hi

variable {iid : InstanceId}

theorem boundTo_update {f : Instance A → Instance A}
    (h : m'.instances = m.instances.update iid f) (hf : ∀ i, (f i).entries = i.entries)
    (hm : BoundTo E m) : BoundTo E m' := by
  intro i hi ep hep
  rw [h] at hi
  rcases mem_of_mem_update hi with hold | ⟨j, hget, rfl⟩
  · exact hm i hold ep hep
  · rw [hf] at hep
    exact hm j (get_some hget).1 ep hep

/-- An operation of the kernel's own that touches neither the world nor the instances. -/
theorem keeps_inside {x : KM σ A α} (hw : ∀ m, (x m).2.world = m.world)
    (hinst : ∀ m, (x m).2.instances = m.instances) : Keeps (boundFrame A F E) x := by
  intro m hm
  refine ⟨?_, boundTo_of_same (hinst m) hm⟩
  show F.rel m.world (x m).2.world
  rw [hw m]
  exact F.refl m.world

theorem bound_updateInstance (iid : InstanceId) {f : Instance A → Instance A}
    (hf : ∀ i, (f i).entries = i.entries) : Keeps (boundFrame A F E) (updateInstance iid f) :=
  fun m hm => ⟨F.refl m.world, boundTo_update rfl hf hm⟩

theorem bound_restoreAspace (iid : InstanceId) (a : A) :
    Keeps (boundFrame A F E) (restoreAspace iid a) := by
  refine (keeps_gets _).bind fun inst => ?_
  cases inst with
  | none => exact keeps_abort
  | some =>
    apply bound_updateInstance
    exact fun _ => rfl

theorem bound_allocInstance {i : Instance A} (hi : ∀ ep, i.entries = some ep → E ep) :
    Keeps (boundFrame A F E) (allocInstance i) := by
  intro m hm
  refine ⟨F.refl m.world, fun j hj => ?_⟩
  change j ∈ (m.instances.alloc i).2.entries at hj
  rcases alloc_cases m.instances i with ⟨-, t', ht, -, -, hperm⟩ | ⟨-, ht⟩
  · rw [ht, hperm.mem_iff, List.mem_cons] at hj
    rcases hj with rfl | hold
    · exact hi
    · exact hm j hold
  · rw [ht] at hj
    exact hm j hj

theorem bound_call {code : σ → CallExit α × σ} {returned : α → Event} {panicked : Event}
    (h : BoundTo E m → F.rel m.world (code m.world).2) :
    (boundFrame A F E).rel m (call code returned panicked m).2 := by
  intro hm
  have hcode := h hm
  unfold Os.call
  rcases hrun : code m.world with ⟨exit, w⟩
  rw [hrun] at hcode
  cases exit with
  | returns | panics => exact ⟨hcode, boundTo_of_same rfl hm⟩

section Walk

variable (h : Reaches env F P E)
include h

theorem Reaches.mapParamsLoop (params : Params) (is : List (Fin PARAM_COUNT)) (w : σ)
    (aspace : A) (raw : RawParams) (vas : MappedVas) :
    F.rel w (mapParamsLoop env params is w aspace raw vas).2 := by
  induction is generalizing w aspace raw vas with
  | nil => exact F.refl w
  | cons i is ih =>
    rw [Os.mapParamsLoop]
    split
    · rename_i cookie offs size dir hparam
      have hsync := h.syncIn cookie dir w
      rcases hrun : syncInParam env cookie dir w with ⟨synced, w'⟩
      rw [hrun] at hsync
      cases synced with
      | false => exact hsync
      | true =>
        dsimp only
        split
        · exact hsync
        · split
          · exact hsync
          · split
            · exact hsync
            · exact F.trans hsync (ih _ _ _ _)
    · exact ih _ _ _ _

theorem Reaches.unmapParamsLoop (params : Params) (vas : MappedVas)
    (is : List (Fin PARAM_COUNT)) (w : σ) (aspace : Option A) :
    F.rel w (unmapParamsLoop env params vas is w aspace).1 := by
  induction is generalizing w aspace with
  | nil => exact F.refl w
  | cons i is ih =>
    rw [Os.unmapParamsLoop]
    split
    · exact F.trans (h.syncOut _ _ w) (ih _ _)
    · exact ih _ _

theorem Reaches.mapParams (iid : InstanceId) (params : Params) :
    Keeps (boundFrame A F E) (mapParams env iid params) := by
  refine (keeps_gets _).bind fun inst => ?_
  split
  · exact keeps_pure _
  · refine Keeps.bind (bound_updateInstance iid ?_) fun _ => Keeps.bind (fun m hm => ?_)
      fun exit => ?_
    · exact fun _ => rfl
    · exact ⟨h.mapParamsLoop params _ m.world _ _ _, boundTo_of_same rfl hm⟩
    cases exit with
    | lost => exact keeps_pure _
    | restored a | mapped a => exact (bound_restoreAspace iid a).bind fun _ => keeps_pure _

theorem Reaches.killInstance (iid : InstanceId) {m m' : Machine σ A}
    (hw : m'.world = m.world) (hinst : m'.instances = m.instances) :
    (boundFrame A F E).rel m (killInstance env iid m') := by
  intro hm
  refine ⟨?_, boundTo_update rfl (fun _ => rfl) (boundTo_of_same hinst hm)⟩
  show F.rel m.world (Os.killInstance env iid m').world
  rw [← hw]
  unfold Os.killInstance
  split
  · exact h.dropAll _ _
  · exact F.refl _

/-- TA code is entered at entry points that satisfy `E`. -/
theorem Reaches.enters {cmd : KernelCmd} {m0 : Machine σ A} {entry : EntryPoint}
    {ep : TaEntryPoints} {code : σ → CallExit α × σ}
    (hP : ∀ params, WorksOn m0 cmd params → P params) (hcode : Enters env m0 cmd ep entry code)
    (hep : E ep) (w : σ) : F.rel w (code w).2 := by
  cases hcode with
  | create => exact h.create ep hep w
  | destroy => exact h.destroy ep hep w
  | openSession hworks hraw => exact h.openSession (hP _ hworks) hraw ep hep w
  | closeSession ctx => exact h.closeSession ep hep ctx w
  | invoke hworks hraw ctx cmdId => exact h.invoke (hP _ hworks) hraw ep hep ctx cmdId w

theorem Reaches.walk {cmd : KernelCmd} {m0 : Machine σ A}
    (hP : ∀ params, WorksOn m0 cmd params → P params)
    (hE : ∀ i, Creates env m0 cmd i → ∀ ep, i.entries = some ep → E ep) :
    Walk env (frameJudgement (boundFrame A F E)) m0 cmd where
  toSequential := frameJudgement_sequential _
  reads m _ := (boundFrame A F E).refl m
  counts iid f m hf := bound_updateInstance iid (fun i => by rw [hf i]) m
  records _ s m := keeps_inside (fun _ => rfl) (fun _ => rfl) m
  maps {_ iid params m} _ := h.mapParams iid params m
  unmaps iid params vas m hm :=
    ⟨h.unmapParamsLoop params vas _ m.world _, boundTo_update rfl (fun _ => rfl) hm⟩
  entering := rel_entering fun _ => keeps_inside (fun _ => rfl) fun _ => rfl
  enters hcode _ _ hin _ := bound_call fun hm => by
    obtain ⟨i, hi, hep | ⟨j, hj, hep⟩⟩ := hin
    · exact h.enters hP hcode (hm i (get_some hi).1 _ hep) _
    · exact h.enters hP hcode (hE j hj _ hep) _
  gate := (boundFrame A F E).refl _
  cancelled _ _ := (boundFrame A F E).refl _
  cancels _ := keeps_inside (fun _ => rfl) (fun _ => rfl) _
  takes _ := keeps_inside (fun _ => rfl) fun _ => rfl
  stores hi := bound_allocInstance (hE _ hi)
  drops _ m hm := ⟨F.refl m.world, fun i hi => hm i (mem_of_mem_take hi)⟩
  kills iid m := h.killInstance iid rfl rfl
  newSpace m hm := ⟨h.newSpace m.world, boundTo_of_same rfl hm⟩
  pends _ := keeps_inside (fun _ => rfl) (fun _ => rfl) _
  ptaOpen _ pta params _ := bound_call fun _ => h.ptaOpen pta params _
  ptaClose _ pta ctx _ := bound_call fun _ => h.ptaClose pta ctx _
  ptaInvoke pta ctx cmdId params := keeps_ptaInvoke
    (fun _ => keeps_inside (fun _ => rfl) fun _ => rfl)
    fun _ => bound_call fun _ => h.ptaInvoke pta ctx cmdId params _

end Walk

variable {cmd : KernelCmd}

section

variable (h : Reaches env F P E) (hP : ∀ params, WorksOn m cmd params → P params)
  (hE : ∀ i, Creates env m cmd i → ∀ ep, i.entries = some ep → E ep)
include h hP hE

/-- However a command ends, the world it leaves is related to the one it found, if the
instances it finds and those it stores have entry points that satisfy `E`. -/
theorem Reaches.handle : (boundFrame A F E).rel m (handle env cmd m).2 :=
  (h.walk hP hE).handle

theorem Reaches.dispatch : (boundFrame A F E).rel m (dispatch env cmd m).2 :=
  rel_dispatch (h.handle hP hE) fun m' => rel_onPanic m' fun iid => h.killInstance iid rfl rfl

end

/-- However a command ends, the world it leaves is related to the one it found. -/
theorem Reaches.world (h : Reaches env F P fun _ => True)
    (hP : ∀ params, WorksOn m cmd params → P params) :
    F.rel m.world (Os.handle env cmd m).2.world :=
  (h.handle hP (fun _ _ _ _ => trivial) fun _ _ _ _ => trivial).1

/-! ### The pending request -/

/-- The parameters of the pending request, if there is one, satisfy `P`. -/
def PendsOn (P : Params → Prop) (m : Machine σ A) : Prop := ∀ y, m.yielding = some y → P y.params

def pendsOnFrame (σ A : Type) (P : Params → Prop) : Frame (Machine σ A) where
  rel m m' := PendsOn P m → PendsOn P m'
  refl _ h := h
  trans h h' hm := h' (h hm)

theorem pendsOnFrame_of_same (h : m'.yielding = m.yielding) : (pendsOnFrame σ A P).rel m m' := by
  intro hpend y hy
  rw [h] at hy
  exact hpend y hy

theorem toleratesDrops_pendsOnFrame : ToleratesDrops (pendsOnFrame σ A P) fun _ => True where
  passes h _ _ := pendsOnFrame_of_same h.yielding
  logs _ h _ _ := pendsOnFrame_of_same h.yielding
  updates _ _ _ h _ _ := pendsOnFrame_of_same h.yielding
  drops _ h _ _ := pendsOnFrame_of_same h.yielding

/-- A request left pending has the parameters of this command or of one before it. -/
theorem pendsOn_handle (env : Env σ A S)
    (hP : ∀ params, WorksOn m cmd params → P params) (hpend : PendsOn P m) :
    PendsOn P (handle env cmd m).2 := by
  refine toleratesDrops_pendsOnFrame.handle ⟨fun _ _ => trivial, fun _ _ => trivial⟩ env cmd
    (fun _ _ => trivial) (fun _ _ _ => pendsOnFrame_of_same rfl) ?_ hpend
  intro y hy
  cases hy with
  | asks uuid login params cancelId timeoutMs _ =>
    rintro - y ⟨⟩
    exact hP _ (.openSession ..)
  | answers => rintro - y ⟨⟩

end Rustee.Os
