import Rustee.GuestDecode
import Rustee.GuestImports

/-!
# Where the buffers of a TA lie

A memory reference of a message reaches the TA as a pointer and a size. Between them are an import
whose errors are ignored, a table that keeps what earlier messages put into it, a lookup by
offset, and two checks: the length test of `map_params` and the bound of `map_shm`. The two checks
alone are enough: every call of a TA entry that takes memory references is recorded with what the
TA finds, and every record has buffers inside the pool, with the offset and size its message
names.
-/

namespace Rustee.Guest

open Os Virt Attempt List Prod

variable {τ : Type}

/-! ### Recording -/

/-- A call of `open_session` or `invoke` as the TA finds it. -/
structure TaEntry where
  types : UInt32
  raw : RawParams
  pool : Pool

/-- Run TA code beside the record and add `entries` to it. -/
def recordingCode {α : Type} (code : Pool × τ → CallExit α × (Pool × τ)) (entries : List TaEntry)
    (w : Pool × (τ × List TaEntry)) : CallExit α × (Pool × (τ × List TaEntry)) :=
  let r := code (w.1, w.2.1)
  (r.1, (r.2.1, (r.2.2, w.2.2 ++ entries)))

def recordingTa (ta : TaCode (Pool × τ)) : TaCode (Pool × (τ × List TaEntry)) where
  create := fun addr => recordingCode (ta.create addr) []
  destroy := fun addr => recordingCode (ta.destroy addr) []
  openSession := fun addr types raw ctx w =>
    recordingCode (ta.openSession addr types raw ctx) [⟨types, raw, w.1⟩] w
  closeSession := fun addr ctx => recordingCode (ta.closeSession addr ctx) []
  invoke := fun addr ctx cmdId types raw w =>
    recordingCode (ta.invoke addr ctx cmdId types raw) [⟨types, raw, w.1⟩] w

def recordingPta {α : Type} (code : τ → CallExit α × τ) (w : τ × List TaEntry) :
    CallExit α × (τ × List TaEntry) :=
  let r := code w.1
  (r.1, (r.2, w.2))

def recording (p : Platform τ) : Platform (τ × List TaEntry) :=
  { p with
    ta := recordingTa p.ta
    pta :=
      { open_ := fun pta params => recordingPta (p.pta.open_ pta params)
        invoke := fun pta ctx cmd params => recordingPta (p.pta.invoke pta ctx cmd params)
        close := fun pta ctx => recordingPta (p.pta.close pta ctx) } }

/-! ### Runs -/

/-- What the loop gives to the kernel: an ENTER, or an RPC_REPLY for the ENTER with
`frame`. The pool is what the host has made of it. -/
inductive GuestEvent where
  | enter (e : EnterMsg)
  | reply (pool : Pool) (frame : CallFrame)

section Events

variable {κ : Type} (K : GuestKernel κ) (build : Build)

def handleEvent : GuestEvent → GM κ Unit
  | .enter e => enterMsg K build e
  | .reply pool frame => do
    Attempt.modify fun g => g.withPool pool
    handleRpcReply K build frame

def handleEvents : List GuestEvent → GM κ Unit
  | [] => pure ()
  | ev :: evs => do
    handleEvent K build ev
    handleEvents evs

end Events

/-! ### Frames over events

Imports and the kernel are the only parts of an event that reach more than pool, gate and
connection: a frame that those two keep is kept by the event. -/

section Frames

variable {κ : Type} {K : GuestKernel κ} {build : Build} {F : Frame (GuestState κ)}

theorem enterMsg_keeps (hF : ∀ {g g'}, (besideKernel κ).rel g g' → F.rel g g') {e : EnterMsg}
    (himport : ∀ cmd, decodeCmd build e.pool e.frame.cookieA1a2 = .ok cmd →
      Keeps F (importAll build (cmdParams cmd)))
    (hkernel : ∀ cmd, decodeCmd build e.pool e.frame.cookieA1a2 = .ok cmd →
      Keeps F (kernelHandle K cmd)) : Keeps F (enterMsg K build e) := by
  intro g
  have hpool : F.rel g (g.withPool e.pool) := hF ⟨rfl, rfl⟩
  refine F.trans hpool ?_
  show F.rel (g.withPool e.pool) (handleEnter K build e.frame (g.withPool e.pool)).2
  have hread : (g.withPool e.pool).pool = e.pool := rfl
  rw [handleEnter, bind_of_ok (gets_apply _ _), hread]
  cases hdecode : decodeCmd build e.pool e.frame.cookieA1a2 with
  | panic => exact F.refl _
  | err _ =>
    apply hF
    exact ((writeResult_beside build e.frame _ _ _ _).bind fun _ =>
      completeCall_beside build e.frame) (g.withPool e.pool)
  | ok cmd =>
    refine (himport cmd hdecode).bind (fun _ => (hkernel cmd hdecode).bind fun out g' => ?_) _
    exact hF (dispatchOut_beside build e.frame out g')

theorem handleRpcReply_keeps (hF : ∀ {g g'}, (besideKernel κ).rel g g' → F.rel g g')
    (frame : CallFrame) (hkernel : ∀ resp, Keeps F (kernelHandle K (.rpcComplete resp))) :
    Keeps F (handleRpcReply K build frame) := by
  refine Keeps.bind (fun g => F.refl g) fun pool => (keeps_lift _).bind
    fun resp => (hkernel resp).bind fun out g => ?_
  exact hF (dispatchOut_beside build frame out g)

theorem handleEvents_keeps {events : List GuestEvent}
    (hstep : ∀ ev ∈ events, Keeps F (handleEvent K build ev)) :
    Keeps F (handleEvents K build events) := by
  induction events with
  | nil => exact keeps_pure _
  | cons ev evs ih =>
    obtain ⟨hev, hrest⟩ := forall_mem_cons.mp hstep
    exact hev.bind fun _ => ih hrest

end Frames

abbrev RecordingState (p : Platform τ) : Type :=
  GuestState (Machine (HalMem × (τ × List TaEntry)) (VirtAs (recording p).base))

def recorded {p : Platform τ} (g : RecordingState p) : List TaEntry := g.kernel.world.2.2

/-- The call has the parameters of the message, and its buffers are inside the pool at the
offsets and with the sizes the message names. -/
structure BuffersInPool (base : UInt64) (params : List MsgParam) (call : TaEntry) : Prop where
  types : call.types = paramTypesOf (userParams params 0 noParams)
  buffers : ∀ (i : Fin PARAM_COUNT) (p : MsgParam) (dir : Dir), (nonMeta params)[i.val]? = some p →
    ty p = tmemType dir →
    (call.raw.get i).memrefSize = p.b ∧
    base.toNat + p.a.toNat ≤ (call.raw.get i).lo.toNat ∧
    (call.raw.get i).lo.toNat + p.b.toNat ≤ base.toNat + BOUNCE_POOL_SIZE

/-! ### Mapping -/

theorem raw_get_set_self (raw : RawParams) (i : Fin PARAM_COUNT) (x : ParamRaw) :
    (raw.set i x i.isLt).get i = x := Vector.getElem_set_self i.isLt

/-- What the loop of `map_params` has made of a memory reference it is through with. -/
def MappedInPool (base : UInt64) (params : Params) (raw : RawParams) (i : Fin PARAM_COUNT) : Prop :=
  ∀ cookie offs size dir, params.get i = .memref (.ree cookie offs) size dir →
    raw.get i = .ofMemref (base + cookie + offs) size ∧
    cookie.toNat + offs.toNat + size.toNat ≤ BOUNCE_POOL_SIZE ∧ cookie.toNat < BOUNCE_POOL_SIZE

theorem mapShm_bounds {base : UInt64} {a a' : VirtAs base} {shm : VirtShm} {perms : Perms}
    {va : VirtAddr} (hmap : a.mapShm shm perms = (.ok va, a')) {offs size : UInt64}
    (hlong : ¬ shm.len < saturatingAdd offs size) :
    va = base + shm.cookie ∧ shm.cookie.toNat + offs.toNat + size.toNat ≤ BOUNCE_POOL_SIZE ∧
      shm.cookie.toNat < BOUNCE_POOL_SIZE := by
  have hpool : BOUNCE_POOL_SIZE < 2 ^ 64 - 1 := by decide
  rw [VirtAs.mapShm] at hmap
  split_ifs at hmap with hexec hempty hpast
  · cases (mk.inj hmap).1
  · cases (mk.inj hmap).1
  · cases (mk.inj hmap).1
  have hva : va = a.poolVa + shm.cookie := by
    cases (mk.inj hmap).1
    rfl
  have hlen : shm.len.toNat ≠ 0 := fun h => hempty (UInt64.toNat_inj.mp h)
  have hin : shm.cookie.toNat + shm.len.toNat ≤ BOUNCE_POOL_SIZE := le_of_not_gt hpast
  have hle : (saturatingAdd offs size).toNat ≤ shm.len.toNat := le_of_not_gt hlong
  rw [saturatingAdd] at hle
  refine ⟨by rw [hva, a.poolVa_eq], ?_, by omega⟩
  split at hle
  · rename_i hsum
    rw [UInt64.toNat_add, Nat.mod_eq_of_lt hsum] at hle
    omega
  · -- a sum that saturates is longer than any shared memory that can be mapped
    have hmax : (0xFFFFFFFFFFFFFFFF : UInt64).toNat = 2 ^ 64 - 1 := rfl
    rw [hmax] at hle
    omega

variable {p : Platform τ} {params : Params}

theorem mapParamsLoop_inPool {is : List (Fin PARAM_COUNT)}
    (hnodup : is.Nodup) {w w' : HalMem × τ} {a a' : VirtAs p.base} {raw raw' : RawParams}
    {vas vas' : MappedVas}
    (h : mapParamsLoop (virtEnv p) params is w a raw vas = (.mapped a' raw' vas', w')) :
    (∀ i ∈ is, MappedInPool p.base params raw' i) ∧ ∀ i ∉ is, raw'.get i = raw.get i := by
  induction is generalizing w a raw vas with
  | nil =>
    cases h
    exact ⟨fun i hi => (not_mem_nil hi).elim, fun i _ => rfl⟩
  | cons i is ih =>
    obtain ⟨hi, hrest⟩ := nodup_cons.mp hnodup
    rw [mapParamsLoop] at h
    split at h
    · rename_i cookie offs size dir hparam
      rw [syncInParam_virt] at h
      split at h
      · cases (mk.inj h).1
      · rename_i w1 hsync
        cases (mk.inj hsync).2
        split at h
        · cases (mk.inj h).1
        · rename_i shm hfound
          split at h
          · cases (mk.inj h).1
          · rename_i hlong
            split at h
            · cases (mk.inj h).1
            · rename_i va a1 hmap
              obtain ⟨hdone, hkept⟩ := ih hrest h
              obtain ⟨hva, hbounds⟩ := mapShm_bounds hmap hlong
              have hcookie : shm.cookie = cookie := cookie_of_lookupShm hfound
              have hraw : raw'.get i = .ofMemref (va + offs) size := by
                rw [hkept i hi]
                exact raw_get_set_self raw i _
              constructor
              · intro j hj
                rcases mem_cons.mp hj with rfl | hj
                · intro cookie' offs' size' dir' hparam'
                  rw [hparam] at hparam'
                  cases hparam'
                  rw [hraw, hva, ← hcookie]
                  exact ⟨rfl, hbounds⟩
                · exact hdone j hj
              · intro j hj
                rw [mem_cons, not_or] at hj
                rw [hkept j hj.2]
                exact Vector.getElem_set_ne _ _ fun heq => hj.1 (Fin.ext heq.symm)
    · rename_i hother
      obtain ⟨hdone, hkept⟩ := ih hrest h
      constructor
      · intro j hj
        rcases mem_cons.mp hj with rfl | hj
        · intro cookie offs size dir hparam
          exact absurd hparam (hother cookie offs size dir)
        · exact hdone j hj
      · intro j hj
        exact hkept j (fun hmem => hj (mem_cons_of_mem _ hmem))

/-- Every memory reference that `map_params` hands to a TA is inside the pool. -/
theorem mappedInPool {raw : RawParams}
    (h : MappedTo (virtEnv p) params raw) (i : Fin PARAM_COUNT) :
    MappedInPool p.base params raw i := by
  obtain ⟨w, a, a', vas, w', hmap⟩ := h
  exact (mapParamsLoop_inPool (nodup_finRange _) hmap).1 i (mem_finRange i)

/-! ### What is recorded -/

/-- The record grows by calls whose parameters satisfy `P`. -/
def recordFrame (p : Platform τ) (P : Params → Prop) : Frame (HalMem × (τ × List TaEntry)) where
  rel w w' := ∃ new, w'.2.2 = w.2.2 ++ new ∧ ∀ call ∈ new, ∃ params, P params ∧
    call.types = paramTypesOf params ∧ MappedTo (virtEnv (recording p)) params call.raw
  refl w := ⟨[], (append_nil _).symm, fun call hcall => (not_mem_nil hcall).elim⟩
  trans := by
    rintro a b c ⟨new, hnew, hok⟩ ⟨new', hnew', hok'⟩
    refine ⟨new ++ new', by rw [hnew', hnew, append_assoc], ?_⟩
    intro call hcall
    rcases mem_append.mp hcall with h | h
    · exact hok call h
    · exact hok' call h

theorem recordFrame_of_same {P : Params → Prop}
    {w w' : HalMem × (τ × List TaEntry)} (h : w'.2.2 = w.2.2) : (recordFrame p P).rel w w' :=
  ⟨[], by rw [h, append_nil], fun call hcall => (not_mem_nil hcall).elim⟩

theorem reaches_recordFrame (p : Platform τ) (P : Params → Prop) :
    Reaches (virtEnv (recording p)) (recordFrame p P) P fun _ => True where
  newSpace _ := recordFrame_of_same rfl
  syncIn cookie dir w := by
    rw [syncInParam_virt]
    exact recordFrame_of_same rfl
  syncOut cookie dir w := by
    rw [syncOutParam_virt]
    exact recordFrame_of_same rfl
  dropAll _ _ := recordFrame_of_same rfl
  create _ _ _ := recordFrame_of_same (append_nil _)
  destroy _ _ _ := recordFrame_of_same (append_nil _)
  openSession hP hmapped _ _ _ := ⟨[_], rfl, fun _ hcall => by
    rw [mem_singleton.mp hcall]
    exact ⟨_, hP, rfl, hmapped⟩⟩
  closeSession _ _ _ _ := recordFrame_of_same (append_nil _)
  invoke hP hmapped _ _ _ _ _ := ⟨[_], rfl, fun _ hcall => by
    rw [mem_singleton.mp hcall]
    exact ⟨_, hP, rfl, hmapped⟩⟩
  ptaOpen _ _ _ := recordFrame_of_same rfl
  ptaInvoke _ _ _ _ _ := recordFrame_of_same rfl
  ptaClose _ _ _ := recordFrame_of_same rfl

/-! ### Runs -/

def Named (build : Build) (events : List GuestEvent) (params : Params) : Prop :=
  ∃ e hdr ps, .enter e ∈ events ∧ decodeMsg build e.pool e.frame.cookieA1a2 = .ok (hdr, ps) ∧
    params = userParams ps 0 noParams

/-- As long as the pending request has parameters that satisfy `P`, so has the one after,
and so have the calls recorded between the two states. -/
def callsFrame (p : Platform τ) (P : Params → Prop) : Frame (RecordingState p) where
  rel g g' := PendsOn P g.kernel →
    PendsOn P g'.kernel ∧ (recordFrame p P).rel g.kernel.world g'.kernel.world
  refl g h := ⟨h, (recordFrame p P).refl g.kernel.world⟩
  trans h h' hg := ⟨(h' (h hg).1).1, (recordFrame p P).trans (h hg).2 (h' (h hg).1).2⟩

section Steps

variable {p : Platform τ} {P : Params → Prop} {g : RecordingState p} {g' : RecordingState p}

theorem callsFrame_of_same (h : g'.kernel = g.kernel) : (callsFrame p P).rel g g' := by
  intro hg
  rw [h]
  exact ⟨hg, (recordFrame p P).refl g.kernel.world⟩

theorem callsFrame_of_beside (h : (besideKernel _).rel g g') :
    (callsFrame p P).rel g g' := callsFrame_of_same h.1

theorem onHal_callsFrame {α : Type} (x : Attempt VirtHal HalError α) :
    Keeps (callsFrame p P) (onHal x) := by
  intro g
  apply callsFrame_of_same
  rw [onHal]
  rcases x g.hal with ⟨r, h⟩
  cases r <;> rfl

variable (build : Build)

theorem importAll_callsFrame (params : List Param) :
    Keeps (callsFrame p P) (importAll build params) := by
  apply importAll_keeps
  intro param _
  rw [importMemref.eq_def]
  split
  · exact (keeps_lift _).bind fun _ => (onHal_callsFrame _).bind fun _ =>
      keeps_pure _
  · exact keeps_pure _

/-- A command that works with parameters that satisfy `P`. -/
theorem kernelHandle_callsFrame {cmd : KernelCmd}
    (hP : PendsOn P g.kernel → ∀ params, WorksOn g.kernel cmd params → P params) :
    (callsFrame p P).rel g (kernelHandle (osKernel (virtEnv (recording p))) cmd g).2 := by
  intro hg
  let m : Machine _ _ := { g.kernel with world := (g.hal.mem, g.kernel.world.2) }
  have hworks : ∀ params, WorksOn m cmd params → P params := by
    intro params hparams
    apply hP hg params
    cases hparams with
    | openSession => exact .openSession ..
    | invoke => exact .invoke ..
    | pending resp y hy => exact .pending resp y hy
  have hpend : PendsOn P (Os.handle (virtEnv (recording p)) cmd m).2 :=
    pendsOn_handle (virtEnv (recording p)) hworks hg
  have hrecord := (reaches_recordFrame p P).world hworks
  rw [kernelHandle, osKernel]
  dsimp only
  rcases hrun : Os.handle (virtEnv (recording p)) cmd m with ⟨exit, m'⟩
  rw [hrun] at hpend hrecord
  cases exit with
  | value | unwind | abort => exact ⟨hpend, hrecord⟩

/-- The commands a message can be decoded to work with its parameters only. -/
theorem params_of_decodeCmd {build : Build} {pool : Pool} {cookie : UInt64} {cmd : KernelCmd}
    (hdecode : decodeCmd build pool cookie = .ok cmd) {σ A : Type} {m : Machine σ A}
    {params : Params} (hworks : WorksOn m cmd params) :
    ∃ hdr ps, decodeMsg build pool cookie = .ok (hdr, ps) ∧ params = userParams ps 0 noParams := by
  obtain ⟨hdr, ps, hmsg, hcmd⟩ := decodeMsg_of_decodeCmd hdecode
  refine ⟨hdr, ps, hmsg, ?_⟩
  rw [decoded] at hcmd
  split_ifs at hcmd
  · cases hcmd
    cases hworks
    rfl
  · cases hcmd
    cases hworks
    rfl
  · cases hcmd
    cases hworks
  · cases hcmd
    cases hworks

theorem enterMsg_callsFrame {e : EnterMsg}
    (hP : ∀ hdr ps, decodeMsg build e.pool e.frame.cookieA1a2 = .ok (hdr, ps) →
      P (userParams ps 0 noParams)) :
    Keeps (callsFrame p P) (enterMsg (osKernel (virtEnv (recording p))) build e) := by
  refine enterMsg_keeps callsFrame_of_beside (fun cmd _ => importAll_callsFrame build _) ?_
  intro cmd hdecode g
  refine kernelHandle_callsFrame fun _ params hworks => ?_
  obtain ⟨hdr, ps, hmsg, hparams⟩ := params_of_decodeCmd hdecode hworks
  rw [hparams]
  exact hP hdr ps hmsg

theorem handleRpcReply_callsFrame (frame : CallFrame) :
    Keeps (callsFrame p P) (handleRpcReply (osKernel (virtEnv (recording p))) build frame) := by
  refine handleRpcReply_keeps callsFrame_of_beside frame fun resp g => ?_
  refine kernelHandle_callsFrame fun hpend params hworks => ?_
  cases hworks with
  | pending _ y hy => exact hpend y hy

theorem handleEvent_callsFrame {build : Build} {events : List GuestEvent} {ev : GuestEvent}
    (hev : ev ∈ events) :
    Keeps (callsFrame p (Named build events))
      (handleEvent (osKernel (virtEnv (recording p))) build ev) := by
  cases ev with
  | enter e => exact enterMsg_callsFrame build fun hdr ps hmsg => ⟨e, hdr, ps, hev, hmsg, rfl⟩
  | reply pool frame =>
    refine Keeps.bind (fun g => ?_) fun _ => handleRpcReply_callsFrame build frame
    exact callsFrame_of_same rfl

end Steps

/-- What was mapped for the parameters of a message lies where the message says. -/
theorem buffersInPool (hbase : p.base.toNat + BOUNCE_POOL_SIZE ≤ 2 ^ 64)
    {ps : List MsgParam} {call : TaEntry}
    (htypes : call.types = paramTypesOf (userParams ps 0 noParams))
    (hmapped : MappedTo (virtEnv (recording p)) (userParams ps 0 noParams) call.raw) :
    BuffersInPool p.base ps call where
  types := htypes
  buffers := by
    intro i mp dir hget hty
    have hparam : (userParams ps 0 noParams).get i = .memref (.ree mp.a 0) mp.b dir := by
      rw [userParams_get_zero, hget]
      exact param_of_tmem hty
    obtain ⟨hraw, hin, hstart⟩ := mappedInPool hmapped i mp.a 0 mp.b dir hparam
    have hzero : (0 : UInt64).toNat = 0 := rfl
    have hbase' : (recording p).base = p.base := rfl
    have hlo : (call.raw.get i).lo.toNat = p.base.toNat + mp.a.toNat := by
      rw [hraw, ParamRaw.ofMemref, hbase', UInt64.add_zero, UInt64.toNat_add]
      exact Nat.mod_eq_of_lt (by omega)
    refine ⟨by rw [hraw]; rfl, by omega, by omega⟩

/-- In every run of the loop, whatever the host puts into the pool and whatever is in the
table: each call of `open_session` or `invoke` has the parameters of a message of the
run, and for each memory reference of that message a buffer inside the pool. The pool
is an object of the guest, so it ends inside the address space. -/
theorem ta_buffers_inside_pool (p : Platform τ)
    (hbase : p.base.toNat + BOUNCE_POOL_SIZE ≤ 2 ^ 64) (build : Build) (events : List GuestEvent)
    {g : RecordingState p} (hpending : g.kernel.yielding = none) (hempty : recorded g = []) :
    ∀ call ∈ recorded (handleEvents (osKernel (virtEnv (recording p))) build events g).2,
      ∃ e hdr ps, .enter e ∈ events ∧
        decodeMsg build e.pool e.frame.cookieA1a2 = .ok (hdr, ps) ∧
        BuffersInPool p.base ps call := by
  intro call hcall
  have hpend : PendsOn (Named build events) g.kernel := by
    intro y hy
    rw [hpending] at hy
    cases hy
  obtain ⟨-, new, hnew, hok⟩ := handleEvents_keeps (fun _ hev => handleEvent_callsFrame hev) g hpend
  have hrecord : recorded (handleEvents (osKernel (virtEnv (recording p))) build events g).2 =
      recorded g ++ new := hnew
  rw [hrecord, hempty, nil_append] at hcall
  obtain ⟨params, ⟨e, hdr, ps, hev, hmsg, rfl⟩, htypes, hmapped⟩ := hok call hcall
  exact ⟨e, hdr, ps, hev, hmsg, buffersInPool hbase htypes hmapped⟩

/-! ### A run with two calls -/

def recordingGuest : RecordingState quietPlatform where
  hal := VirtHal.init
  kernel := emitReeNotices true (registerEarlyTa sampleTa
    (Machine.new (virtEnv (recording quietPlatform)) (VirtHal.init.mem, ((), []))))
  waiting := none
  sent := []

/-- An OpenSession of the early TA with eight bytes of input at `offset`. -/
def openMsg (offset : UInt64) : EnterMsg where
  pool := (⟨fun _ => 0⟩ : Pool).put 0x1000
    ((⟨MSG_CMD_OPEN_SESSION, 0, 0, 0, 0, 0, 0, 2⟩ : MsgArgHdr).encode ++
      [⟨ATTR_TYPE_VALUE_INPUT ||| ATTR_META, (uuidToWords sampleTa.uuid).1,
          (uuidToWords sampleTa.uuid).2, 0⟩,
        ⟨ATTR_TYPE_TMEM_INPUT, offset, 8, offset⟩].flatMap MsgParam.encode)
  frame := rpcFrame 0x1000

def openThenInvoke : List GuestEvent := [.enter (openMsg 0x2000), .enter (windowMsg 0x3000)]

theorem ta_buffers_inside_pool_sample :
    ((recorded (handleEvents (osKernel (virtEnv (recording quietPlatform))) .release
      openThenInvoke recordingGuest).2).map fun call => (call.raw.get 0).lo) =
        [0x40002000, 0x40003000] ∧
    ∀ call ∈ recorded (handleEvents (osKernel (virtEnv (recording quietPlatform))) .release
      openThenInvoke recordingGuest).2, ∃ e hdr ps, .enter e ∈ openThenInvoke ∧
        decodeMsg .release e.pool e.frame.cookieA1a2 = .ok (hdr, ps) ∧
        BuffersInPool quietPlatform.base ps call := by
  constructor
  · decide +kernel
  · exact ta_buffers_inside_pool quietPlatform (by decide) .release openThenInvoke rfl rfl

end Rustee.Guest
