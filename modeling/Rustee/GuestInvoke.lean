import Rustee.GuestBuffers
import Rustee.GuestCodec
import Rustee.OsAddressSpaces

/-!
# A call with one input window and one output window

The guest takes an ENTER whose message invokes a TA with two temporary memories. Both windows are
registered and mapped, the TA is called once on the pool as the ENTER left it, and the call is
completed with its code and size.
-/

namespace Rustee.Guest

open Os Virt Attempt TeeResult List

variable {τ κ : Type}

/-! ### Windows -/

/-- Where a call has its input and its output. Both are aligned and inside the pool, the
output behind the input; an empty window takes one byte. -/
structure Windows where
  inOff : UInt64
  inLen : UInt64
  outOff : UInt64
  outLen : UInt64
  inAligned : inOff.toNat % MSG_ARG_ALIGN = 0
  outAligned : outOff.toNat % MSG_ARG_ALIGN = 0
  apart : inOff.toNat + max inLen.toNat 1 ≤ outOff.toNat
  inside : outOff.toNat + max outLen.toNat 1 ≤ BOUNCE_POOL_SIZE

namespace Windows

variable (v : Windows)

def msgParams : List MsgParam :=
  [⟨ATTR_TYPE_TMEM_INPUT, v.inOff, v.inLen, v.inOff⟩,
    ⟨ATTR_TYPE_TMEM_OUTPUT, v.outOff, v.outLen, v.outOff⟩]

def params : Params :=
  #v[.memref (.ree v.inOff 0) v.inLen .input, .memref (.ree v.outOff 0) v.outLen .output,
    .none, .none]

def raw (base : UInt64) : RawParams :=
  #v[.ofMemref (base + v.inOff) v.inLen, .ofMemref (base + v.outOff) v.outLen,
    .none, .none]

def inShm : VirtShm := ⟨v.inOff, if v.inLen = 0 then 1 else v.inLen, Perms.READ⟩

def outShm : VirtShm := ⟨v.outOff, if v.outLen = 0 then 1 else v.outLen, Perms.WRITE⟩

theorem userParams_msgParams : userParams v.msgParams 0 noParams = v.params := by
  have hinType : ATTR_TYPE_TMEM_INPUT &&& ATTR_TYPE_MASK = tmemType .input := by decide
  have houtType : ATTR_TYPE_TMEM_OUTPUT &&& ATTR_TYPE_MASK = tmemType .output := by decide
  have hin : param ⟨ATTR_TYPE_TMEM_INPUT, v.inOff, v.inLen, v.inOff⟩ =
      .memref (.ree v.inOff 0) v.inLen .input := param_of_tmem hinType
  have hout : param ⟨ATTR_TYPE_TMEM_OUTPUT, v.outOff, v.outLen, v.outOff⟩ =
      .memref (.ree v.outOff 0) v.outLen .output := param_of_tmem houtType
  have hinPlain : (ATTR_TYPE_TMEM_INPUT &&& ATTR_META != 0) = false := by decide
  have houtPlain : (ATTR_TYPE_TMEM_OUTPUT &&& ATTR_META != 0) = false := by decide
  simp only [msgParams, userParams, MsgParam.isMeta, hin, hout, hinPlain, houtPlain]
  rfl

theorem toList_params : v.params.toList =
    [.memref (.ree v.inOff 0) v.inLen .input, .memref (.ree v.outOff 0) v.outLen .output,
      .none, .none] := rfl

theorem types_params : paramTypesOf v.params =
    TEE_PARAM_TYPE_MEMREF_INPUT ||| (TEE_PARAM_TYPE_MEMREF_OUTPUT <<< 4) := by
  show (((0 ||| (TEE_PARAM_TYPE_MEMREF_INPUT <<< UInt32.ofNat 0)) |||
    (TEE_PARAM_TYPE_MEMREF_OUTPUT <<< UInt32.ofNat 4)) ||| ((0 : UInt32) <<< UInt32.ofNat 8)) |||
    ((0 : UInt32) <<< UInt32.ofNat 12) = _
  decide

theorem paramsToRaw_params : paramsToRaw v.params =
    #v[.ofMemref 0 v.inLen, .ofMemref 0 v.outLen, .none,
      .none] := by
  simp [paramsToRaw, params, paramToRaw]

theorem inOff_ne_outOff : v.inOff ≠ v.outOff := by
  intro h
  have happart := v.apart
  rw [h] at happart
  omega

theorem toNat_oneIfEmpty (n : UInt64) :
    (if n = 0 then 1 else n : UInt64).toNat = max n.toNat 1 := by
  by_cases h : n = 0
  · rw [if_pos h, h]
    rfl
  · have hpos : n.toNat ≠ 0 := fun hzero => h (UInt64.toNat_inj.mp hzero)
    rw [if_neg h]
    omega

theorem windowOk_params : ∀ p ∈ v.params.toList, WindowOk p := by
  have happart := v.apart
  have hinside := v.inside
  have hzero : (0 : UInt64).toNat = 0 := rfl
  rw [toList_params]
  intro p hp
  simp only [mem_cons, not_mem_nil, or_false] at hp
  rcases hp with rfl | rfl | rfl | rfl
  · exact ⟨v.inAligned, by rw [hzero]; omega⟩
  · exact ⟨v.outAligned, by rw [hzero]; omega⟩
  · trivial
  · trivial

end Windows

/-! ### Registering -/

section Register

variable {g : GuestState κ} {size : UInt64} {dir : Dir} {rest : List UInt64} (build : Build)

theorem importMemref_of_room (h : WindowOk (.memref (.ree cookie 0) size dir))
    (hnodup : (shmCookies g.hal.mem.shms).Nodup) (hroom : RoomFor g.hal.mem.shms (cookie :: rest)) :
    ∃ shms, importMemref build (.memref (.ree cookie 0) size dir) g = (.ok (), g.withShms shms) ∧
      Registered ⟨cookie, if size = 0 then 1 else size, permsOf dir⟩ g.hal.mem.shms shms ∧
      RoomFor shms rest := by
  have hzero : cookie + 0 = cookie := UInt64.add_zero cookie
  have hstart : cookie.toNat < BOUNCE_POOL_SIZE := hroom.1 cookie mem_cons_self
  rcases import_cases build g h (by rw [hzero]; exact hstart) with
    ⟨-, shms, hshms, -, hrun⟩ | ⟨hfull, -⟩
  · rw [hzero] at hshms
    exact ⟨shms, hrun, hshms, (roomFor_registered hshms hstart rest).mpr hroom⟩
  · rw [hzero] at hfull
    exact absurd hroom (not_roomFor_of_full hnodup hfull rest)

theorem importAll_windows (v : Windows) (g : GuestState κ)
    (hnodup : (shmCookies g.hal.mem.shms).Nodup)
    (hroom : RoomFor g.hal.mem.shms [v.inOff, v.outOff]) :
    ∃ shms, importAll build v.params.toList g = (.ok (), g.withShms shms) ∧
      lookupShm shms v.inOff = some v.inShm ∧ lookupShm shms v.outOff = some v.outShm ∧
      (shmCookies shms).Nodup ∧ shms.length = g.hal.mem.shms.length := by
  have hok := v.windowOk_params
  rw [v.toList_params] at hok ⊢
  obtain ⟨hin, hok⟩ := forall_mem_cons.mp hok
  obtain ⟨hout, -⟩ := forall_mem_cons.mp hok
  obtain ⟨shms1, hrun1, hreg1, hroom1⟩ := importMemref_of_room build hin hnodup hroom
  obtain ⟨shms2, hrun2, hreg2, -⟩ := importMemref_of_room (g := g.withShms shms1) build hout
    (hreg1.nodup hnodup) hroom1
  refine ⟨shms2, ?_, ?_, hreg2.found, hreg2.nodup (hreg1.nodup hnodup),
    hreg2.length.trans hreg1.length⟩
  · rw [importAll, bind_of_ok hrun1, importAll, bind_of_ok hrun2]
    rfl
  · rw [hreg2.others v.inOff v.inOff_ne_outOff]
    exact hreg1.found

end Register

/-! ### Mapping -/

section Map

variable {p : Platform τ} {params : Params} {is : List (Fin PARAM_COUNT)}
  {w : HalMem × τ} {a : VirtAs p.base} {raw : RawParams} {vas : MappedVas}

theorem mapParamsLoop_window {cookie size : UInt64} {dir : Dir} {shm : VirtShm}
    (hparam : params.get i = .memref (.ree cookie 0) size dir)
    (hfound : lookupShm w.1.shms cookie = some shm) (hcookie : shm.cookie = cookie)
    (hexec : shm.perms.exec = false) (hlen : shm.len.toNat = max size.toNat 1)
    (hinside : cookie.toNat + max size.toNat 1 ≤ BOUNCE_POOL_SIZE) :
    ∃ a' : VirtAs p.base, mapParamsLoop (virtEnv p) params (i :: is) w a raw vas =
      mapParamsLoop (virtEnv p) params is w a' (raw.set i (.ofMemref (p.base + cookie) size))
        (vas.set i (some (p.base + cookie))) := by
  have hsync : syncInParam (virtEnv p) cookie dir w = (true, w) := by
    rw [syncInParam_virt, hfound]
    simp
  have hlookup : (virtEnv p).hal.lookupShm w cookie = some shm := hfound
  have hsize : saturatingAdd 0 size = size := by
    have hzero : (0 : UInt64).toNat + size.toNat < 2 ^ 64 := by
      have hlt := size.toNat_lt
      have htoNat : (0 : UInt64).toNat = 0 := rfl
      omega
    rw [saturatingAdd, if_pos hzero, UInt64.zero_add]
  have hshort : ¬ (virtEnv p).hal.shmLen shm < saturatingAdd 0 size := by
    rw [hsize]
    show ¬ shm.len.toNat < size.toNat
    omega
  have hmap : (virtEnv p).hal.mapInto shm a (dirPerms dir) =
      (.ok (p.base + cookie), { a with mapped := a.mapped + 1 }) := by
    have hperms : ¬ ((dirPerms dir).exec ∨ shm.perms.exec) := by
      rw [hexec]
      cases dir <;> simp [dirPerms, Perms.READ, Perms.WRITE, Perms.RW]
    have hfull : shm.len ≠ 0 := by
      intro hzero
      rw [hzero] at hlen
      have htoNat : (0 : UInt64).toNat = 0 := rfl
      omega
    have hpool : ¬ shm.cookie.toNat + shm.len.toNat > BOUNCE_POOL_SIZE := by
      rw [hcookie, hlen]
      omega
    have hva : a.poolVa + shm.cookie = p.base + cookie := by rw [a.poolVa_eq, hcookie]
    show a.mapShm shm (dirPerms dir) = _
    rw [VirtAs.mapShm, if_neg hperms, if_neg hfull, if_neg hpool, hva]
  refine ⟨{ a with mapped := a.mapped + 1 }, ?_⟩
  rw [mapParamsLoop, hparam]
  dsimp only
  rw [hsync]
  dsimp only
  rw [hlookup]
  dsimp only
  rw [if_neg hshort, hmap]
  dsimp only
  rw [UInt64.add_zero]

theorem mapParamsLoop_other (hparam : windowStart (params.get i) = none) :
    mapParamsLoop (virtEnv p) params (i :: is) w a raw vas =
      mapParamsLoop (virtEnv p) params is w a raw vas := by
  rw [mapParamsLoop]
  split
  · rename_i hp
    rw [hp] at hparam
    cases hparam
  · rfl

theorem mapAll_windows (v : Windows) (hin : lookupShm w.1.shms v.inOff = some v.inShm)
    (hout : lookupShm w.1.shms v.outOff = some v.outShm) (a : VirtAs p.base) :
    ∃ (a' : VirtAs p.base) (vas : MappedVas),
      mapAll (virtEnv p) v.params w a = (.mapped a' (v.raw p.base) vas, w) := by
  have happart := v.apart
  have hinside := v.inside
  have hinParam : v.params.get 0 = .memref (.ree v.inOff 0) v.inLen .input := rfl
  have houtParam : v.params.get 1 = .memref (.ree v.outOff 0) v.outLen .output := rfl
  let raw1 := (paramsToRaw v.params).set 0 (.ofMemref (p.base + v.inOff) v.inLen)
  let vas1 : MappedVas := (Vector.replicate PARAM_COUNT none).set 0 (some (p.base + v.inOff))
  obtain ⟨a1, h1⟩ : ∃ a1 : VirtAs p.base, mapParamsLoop (virtEnv p) v.params [0, 1, 2, 3] w a
      (paramsToRaw v.params) (Vector.replicate PARAM_COUNT none) =
        mapParamsLoop (virtEnv p) v.params [1, 2, 3] w a1 raw1 vas1 :=
    mapParamsLoop_window hinParam hin rfl rfl (Windows.toNat_oneIfEmpty v.inLen) (by omega)
  obtain ⟨a2, h2⟩ : ∃ a2 : VirtAs p.base,
      mapParamsLoop (virtEnv p) v.params [1, 2, 3] w a1 raw1 vas1 =
        mapParamsLoop (virtEnv p) v.params [2, 3] w a2
          (raw1.set 1 (.ofMemref (p.base + v.outOff) v.outLen))
          (vas1.set 1 (some (p.base + v.outOff))) :=
    mapParamsLoop_window houtParam hout rfl rfl (Windows.toNat_oneIfEmpty v.outLen) (by omega)
  refine ⟨a2, vas1.set 1 (some (p.base + v.outOff)), ?_⟩
  rw [mapAll]
  refine h1.trans (h2.trans ?_)
  have hraw : raw1.set 1 (.ofMemref (p.base + v.outOff) v.outLen) = v.raw p.base := by
    show ((paramsToRaw v.params).set 0 _).set 1 _ = _
    rw [v.paramsToRaw_params]
    rfl
  rw [mapParamsLoop_other rfl, mapParamsLoop_other rfl, hraw]
  rfl

theorem unmapParamsLoop_virt (params : Params) (vas : MappedVas) (is : List (Fin PARAM_COUNT))
    (w : HalMem × τ) (a : VirtAs p.base) :
    ∃ a' : VirtAs p.base, unmapParamsLoop (virtEnv p) params vas is w (some a) = (w, some a') := by
  induction is generalizing a with
  | nil => exact ⟨a, rfl⟩
  | cons i is ih =>
    rw [unmapParamsLoop]
    split
    · rw [syncOutParam_virt]
      split
      · exact ih _
      · exact ih a
    · exact ih a

end Map

/-! ### The kernel -/

/-- The session `sid` is open to a TA that can be called: its instance is idle, has its
address space and entry points, and calls with cancel id 0 are not cancelled. -/
structure OpenTo {σ A : Type} (m : Machine σ A) (sid : SessionId) (sess : Session)
    (iid : InstanceId) (ep : TaEntryPoints) : Prop where
  admitted : Admitted m 0
  session : m.sessions.get sid = some sess
  alive : sess.state ≠ .dead
  userTa : sess.kind = .userTa
  inst : sess.inst = some iid
  current : m.currentInstance = none
  callable : ∃ i a, m.instances.get iid = some i ∧ i.busy = false ∧ i.entries = some ep ∧
    i.aspace = some a

section Kernel

variable {p : Platform τ} {m : Machine (HalMem × τ) (VirtAs p.base)} {sid : SessionId}
  {sess : Session} {iid : InstanceId} {ep : TaEntryPoints}

theorem OpenTo.withWorld (h : OpenTo m sid sess iid ep) (w : HalMem × τ) :
    OpenTo { m with world := w } sid sess iid ep := { h with }

theorem OpenTo.after (h : OpenTo m sid sess iid ep) (w : HalMem × τ) (a : VirtAs p.base)
    (evs : List Event) : OpenTo (m.after w (m.tables.touch iid (some a)) evs) sid sess iid ep := by
  obtain ⟨i, -, hi, hbusy, hentries, -⟩ := h.callable
  exact { h with
    callable := ⟨_, a, get_update_aspace hi (some a), hbusy, hentries, rfl⟩ }

theorem handle_windows (hopen : OpenTo m sid sess iid ep) (v : Windows)
    (hin : lookupShm m.world.1.shms v.inOff = some v.inShm)
    (hout : lookupShm m.world.1.shms v.outOff = some v.outShm) {cmd code : UInt32}
    {raw' : RawParams} {pool' : Pool} {t' : τ}
    (hcall : p.ta.invoke ep.invoke sess.taSessCtx cmd (paramTypesOf v.params) (v.raw p.base)
      (m.world.1.pool, m.world.2) = (.returns (code, raw'), (pool', t'))) (timeoutMs : UInt32) :
    ∃ a : VirtAs p.base, Os.handle (virtEnv p) (.invoke sid cmd v.params 0 timeoutMs) m =
      (.value (invokeAnswer sid v.params code raw'),
        m.after ({ m.world.1 with pool := pool' }, t') (m.tables.touch iid (some a))
          [.ta iid (.invoke sess.taSessCtx code)]) := by
  obtain ⟨i, a, hi, hbusy, hentries, haspace⟩ := hopen.callable
  obtain ⟨a1, vas, hmap⟩ := mapAll_windows v hin hout a
  have hrun : (virtEnv p).ta.invoke ep.invoke sess.taSessCtx cmd (paramTypesOf v.params)
      (v.raw p.base) m.world = (.returns (code, raw'), ({ m.world.1 with pool := pool' }, t')) := by
    show overPool (p.ta.invoke ep.invoke sess.taSessCtx cmd (paramTypesOf v.params)
      (v.raw p.base)) m.world = _
    rw [overPool, hcall]
  obtain ⟨a2, hunmap⟩ := unmapParamsLoop_virt (paramsFromRaw v.params raw') vas
    (finRange PARAM_COUNT) ({ m.world.1 with pool := pool' }, t') a1
  refine ⟨a2, ?_⟩
  rw [handle_invoked (virtEnv p) hopen.admitted hopen.session hopen.alive hopen.userTa hopen.inst
    hi hbusy]
  exact invokeLocked_of_mapped hi hentries haspace hmap hrun hunmap sid hbusy hopen.current

end Kernel

/-! ### The guest -/

theorem code_invokeResult (code : UInt32) :
    (if code = TEE_SUCCESS then ok else ta code).code = code := by
  split
  · rename_i hsuccess
    exact hsuccess.symm
  · rfl

/-- What a TA leaves when it returns. -/
structure TaReturn (τ : Type) where
  code : UInt32
  raw : RawParams
  pool : Pool
  rest : τ

section Enter

variable {p : Platform τ} {build : Build} {c : VsockConn} {q : Pdu} {v : Windows}
  {g : GuestState (Machine (HalMem × τ) (VirtAs p.base))} {sid : SessionId} {sess : Session}
  {iid : InstanceId} {ep : TaEntryPoints} {cmd : UInt32} {r : TaReturn τ}

/-- The call is completed with what the TA returned, and nothing else has happened. -/
structure Invoked (build : Build) (c : VsockConn) (q : Pdu) (v : Windows) (sid : SessionId)
    (sess : Session) (iid : InstanceId) (r : TaReturn τ)
    (g g' : GuestState (Machine (HalMem × τ) (VirtAs p.base))) : Prop where
  completed : Completed c q (emitted g) g'
  done : writeDone build r.pool q.frame.cookieA1a2 r.code
    (asGp (if r.code = TEE_SUCCESS then ok else ta r.code).origin) sid
    (paramsFromRaw v.params r.raw) = .ok g'.pool
  shms : (shmCookies g'.hal.mem.shms).Nodup ∧ g'.hal.mem.shms.length = g.hal.mem.shms.length
  kernel : ∃ shms a, g'.kernel = g.kernel.after (⟨r.pool, shms⟩, r.rest)
    (g.kernel.tables.touch iid (some a)) [.ta iid (.invoke sess.taSessCtx r.code)]

theorem settled_invoked : Settled c (Invoked build c q v sid sess iid r g) where
  conn h := h.completed.1
  stays := by
    intro g1 g2 hstays hconn h
    refine ⟨(settled_completed _).stays hstays hconn h.completed, ?_, ?_, ?_⟩
    · rw [pool_of_stays hstays]
      exact h.done
    · rw [hstays.mem]
      exact h.shms
    · rw [hstays.kernel]
      exact h.kernel

theorem handleEnter_windows (hserving : Serving c q g)
    (hcmd : decodeCmd build g.pool q.frame.cookieA1a2 =
      .ok (.invoke sid cmd v.params 0 TEE_TIMEOUT_INFINITE))
    (hnodup : (shmCookies g.hal.mem.shms).Nodup)
    (hroom : RoomFor g.hal.mem.shms [v.inOff, v.outOff]) (hopen : OpenTo g.kernel sid sess iid ep)
    (hcall : p.ta.invoke ep.invoke sess.taSessCtx cmd (paramTypesOf v.params) (v.raw p.base)
      (g.pool, g.kernel.world.2) = (.returns (r.code, r.raw), (r.pool, r.rest))) :
    ∃ g', handleEnter (osKernel (virtEnv p)) build q.frame g = (.ok (), g') ∧
      Invoked build c q v sid sess iid r g g' := by
  obtain ⟨shms, himport, hin, hout, hnodup', hlength⟩ := importAll_windows build v g hnodup hroom
  let w : HalMem × τ := (⟨g.pool, shms⟩, g.kernel.world.2)
  obtain ⟨a, hhandle⟩ := handle_windows (m := { g.kernel with world := w }) (hopen.withWorld w) v
    hin hout hcall TEE_TIMEOUT_INFINITE
  let k := g.kernel.after (⟨r.pool, shms⟩, r.rest) (g.kernel.tables.touch iid (some a))
    [.ta iid (.invoke sess.taSessCtx r.code)]
  have hkernel : (osKernel (virtEnv p)).handle
      (.invoke sid cmd v.params 0 TEE_TIMEOUT_INFINITE) (g.withShms shms).hal.mem
      (g.withShms shms).kernel =
        (.value (invokeAnswer sid v.params r.code r.raw), ⟨r.pool, shms⟩, k) := by
    rw [osKernel]
    show ((Os.handle (virtEnv p) _ { g.kernel with world := w }).1,
      (Os.handle (virtEnv p) _ { g.kernel with world := w }).2.world.1,
      (Os.handle (virtEnv p) _ { g.kernel with world := w }).2) = _
    rw [hhandle]
    rfl
  have hrun : kernelHandle (osKernel (virtEnv p)) (.invoke sid cmd v.params 0 TEE_TIMEOUT_INFINITE)
      (g.withShms shms) = (.ok (invokeAnswer sid v.params r.code r.raw),
        { g with hal := { g.hal with mem := ⟨r.pool, shms⟩ }, kernel := k }) := by
    rw [kernelHandle, hkernel]
    rfl
  obtain ⟨g', pool, hout', hcompleted, hdone, hmem', hkernel'⟩ := dispatch_done build
    (hserving.withMem ⟨r.pool, shms⟩ k)
    (if r.code = TEE_SUCCESS then .ok else .ta r.code) (some sid) (paramsFromRaw v.params r.raw)
  refine ⟨g', ?_, hcompleted, ?_, ?_, shms, a, hkernel'⟩
  · rw [handleEnter, bind_of_ok (gets_apply GuestState.pool g), hcmd]
    show (importAll build v.params.toList >>= fun _ => kernelHandle (osKernel (virtEnv p))
      (.invoke sid cmd v.params 0 TEE_TIMEOUT_INFINITE) >>= fun out =>
        dispatchOut build q.frame out) g = _
    rw [bind_of_ok himport, bind_of_ok hrun]
    exact hout'
  · have hpool : g'.pool = pool := congrArg HalMem.pool hmem'
    rw [hpool, ← hdone, code_invokeResult]
    rfl
  · rw [hmem']
    exact ⟨hnodup', hlength⟩

theorem enter_windows (hconn : OnConn c [] g) (hidle : Idle g) {pks : List Packet}
    (hof : OfConn c pks) (hbytes : rwPayloads pks = q.encode) (hkind : q.hdr.kind = KIND_ENTER)
    (hinPool : InPool q) (hcmd : decodeCmd build (poolWith q g) q.frame.cookieA1a2 =
      .ok (.invoke sid cmd v.params 0 TEE_TIMEOUT_INFINITE))
    (hnodup : (shmCookies g.hal.mem.shms).Nodup)
    (hroom : RoomFor g.hal.mem.shms [v.inOff, v.outOff]) (hopen : OpenTo g.kernel sid sess iid ep)
    (hcall : p.ta.invoke ep.invoke sess.taSessCtx cmd (paramTypesOf v.params) (v.raw p.base)
      (poolWith q g, g.kernel.world.2) = (.returns (r.code, r.raw), (r.pool, r.rest))) :
    ∃ g', vsockLoop (osKernel (virtEnv p)) build pks g = (.ok (), g') ∧
      Invoked build c q v sid sess iid r g g' := by
  have hends : Ends (fun _ => False) (Invoked build c q v sid sess iid r g)
      (vsockLoop (osKernel (virtEnv p)) build pks g) := by
    apply whole_ends settled_invoked hconn hof (encode_ne_nil q).symm hbytes
    intro g1 hstays hconn1
    have hidle1 := hstays.idle hidle
    obtain ⟨g2, hrecv, hserving, hmem, hkernel, hemitted⟩ :=
      recvEnter_whole hconn1 hidle1 hkind hinPool
    have hpool : poolWith q g1 = poolWith q g := by rw [poolWith, pool_of_stays hstays, poolWith]
    rw [hpool, hstays.mem] at hmem
    rw [hstays.kernel] at hkernel
    have hpool2 : g2.pool = poolWith q g := congrArg HalMem.pool hmem
    have hshms2 : g2.hal.mem.shms = g.hal.mem.shms := by rw [hmem]
    rw [← hpool2] at hcmd hcall
    rw [← hshms2] at hnodup hroom
    rw [← hkernel] at hopen hcall
    obtain ⟨g', hrun, hinvoked⟩ := handleEnter_windows hserving hcmd hnodup hroom hopen hcall
    rw [receive, bind_of_ok (gets_apply GuestState.waiting g1), hidle1.waiting]
    dsimp only
    rw [bind_of_ok hrecv]
    refine Or.inr ⟨congrArg Prod.fst hrun, ?_⟩
    show Invoked build c q v sid sess iid r g
      (handleEnter (osKernel (virtEnv p)) build q.frame g2).2
    rw [hrun]
    refine ⟨?_, hinvoked.done, ?_, ?_⟩
    · rw [← hstays.emitted, ← hemitted]
      exact hinvoked.completed
    · rw [← hshms2]
      exact hinvoked.shms
    · rw [← hkernel]
      exact hinvoked.kernel
  rcases hends with ⟨-, hstuck⟩ | ⟨hok, hinvoked⟩
  · exact absurd hstuck id
  · exact ⟨_, Prod.ext hok rfl, hinvoked⟩

end Enter

end Rustee.Guest
