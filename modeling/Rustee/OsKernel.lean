import Rustee.Unwinding
import Rustee.OsTables

/-!
# The kernel (`crates/rustee-os/src/lib.rs`)

A kernel function is a program over a `Machine`: the kernel's own fields, the outside world, and a
log of every id the kernel issues and every call it makes into a TA or a pseudo-TA. The log is the
only thing the source does not have. A panicking callee unwinds the program and leaves the machine
as it was at that moment; a panic of the kernel's own code (a failed `unwrap`, an index out of
bounds while parsing an image) aborts it.
-/

namespace Rustee.Os

open Prog InstanceTable PtaRegistry

def MAX_SESSIONS : Nat := 32
def MAX_INSTANCES : Nat := 16

/-! ### The log -/

inductive EntryPoint where
  | create
  | destroy
  | openSession
  | closeSession
  | invoke
deriving Repr, DecidableEq

/-- One call of a TA entry point and how it ended. -/
inductive TaCall where
  | create (code : UInt32)
  | openSession (ctx : UInt64) (code : UInt32)
  | invoke (ctx : UInt64) (code : UInt32)
  | closeSession (ctx : UInt64)
  | destroy
  | panicked (entry : EntryPoint)
deriving Repr, DecidableEq

inductive PtaMethod where
  | open_
  | invoke
  | close
deriving Repr, DecidableEq

/-- One call of a pseudo-TA method and how it ended. -/
inductive PtaCall where
  | opened (ctx : UInt64)
  | refused (result : TeeResult)
  | invoke (ctx : UInt64)
  | close (ctx : UInt64)
  | panicked (method : PtaMethod)
deriving Repr, DecidableEq

inductive Event where
  | sessionIssued (id : Option SessionId)
  | instanceIssued (id : Option InstanceId)
  | ta (iid : InstanceId) (call : TaCall)
  | pta (uuid : Uuid) (call : PtaCall)
deriving Repr, DecidableEq

/-! ### State -/

/-- The pending request; `LoadTa` is the only variant. -/
structure Yielding where
  uuid : Uuid
  login : Login
  params : Params
  cancelId : UInt32
  timeoutMs : UInt32
deriving Repr, DecidableEq

structure Kernel (A : Type) where
  entropyOrigin : EntropyOrigin
  sessions : SessionTable
  instances : InstanceTable A
  ptas : PtaRegistry
  early : EarlyTas
  yielding : Option Yielding
  currentInstance : Option InstanceId
  currentPta : Bool
  noticesOk : Bool
  cancelledIds : List UInt32
deriving Repr, DecidableEq

structure Machine (σ A : Type) extends Kernel A where
  world : σ
  log : List Event
deriving Repr, DecidableEq

abbrev KM (σ A α : Type) := Prog (Machine σ A) α

variable {σ A S α : Type}

/-! ### Calls out of the kernel -/

def call (code : σ → CallExit α × σ) (returned : α → Event) (panicked : Event) : KM σ A α :=
  fun m =>
    match code m.world with
    | (.returns a, w) => (.value a, { m with world := w, log := m.log ++ [returned a] })
    | (.panics, w) => (.unwind, { m with world := w, log := m.log ++ [panicked] })

variable (env : Env σ A S)

def callCreate (iid : InstanceId) (ep : TaEntryPoints) : KM σ A UInt32 :=
  call (env.ta.create ep.create) (fun code => .ta iid (.create code)) (.ta iid (.panicked .create))

def callDestroy (iid : InstanceId) (ep : TaEntryPoints) : KM σ A Unit :=
  call (env.ta.destroy ep.destroy) (fun _ => .ta iid .destroy) (.ta iid (.panicked .destroy))

def callOpenSession (iid : InstanceId) (ep : TaEntryPoints) (types : UInt32)
    (raw : RawParams) : KM σ A (UInt32 × RawParams × UInt64) :=
  call (env.ta.openSession ep.openSession types raw 0)
    (fun r => .ta iid (.openSession r.2.2 r.1)) (.ta iid (.panicked .openSession))

def callCloseSession (iid : InstanceId) (ep : TaEntryPoints) (ctx : UInt64) :
    KM σ A Unit :=
  call (env.ta.closeSession ep.closeSession ctx) (fun _ => .ta iid (.closeSession ctx))
    (.ta iid (.panicked .closeSession))

def callInvoke (iid : InstanceId) (ep : TaEntryPoints) (ctx : UInt64)
    (cmdId types : UInt32) (raw : RawParams) : KM σ A (UInt32 × RawParams) :=
  call (env.ta.invoke ep.invoke ctx cmdId types raw) (fun r => .ta iid (.invoke ctx r.1))
    (.ta iid (.panicked .invoke))

def ptaOpenCall : Except TeeResult UInt64 → PtaCall
  | .ok ctx => .opened ctx
  | .error e => .refused e

def callPtaOpen (pta : Pta) (params : Params) :
    KM σ A (Except TeeResult UInt64 × Params) :=
  call (env.pta.open_ pta params)
    (fun r => .pta pta.uuid (ptaOpenCall r.1)) (.pta pta.uuid (.panicked .open_))

def callPtaInvoke (pta : Pta) (ctx : UInt64) (cmd : UInt32)
    (params : Params) : KM σ A (TeeResult × Params) :=
  call (env.pta.invoke pta ctx cmd params) (fun _ => .pta pta.uuid (.invoke ctx))
    (.pta pta.uuid (.panicked .invoke))

def callPtaClose (pta : Pta) (ctx : UInt64) : KM σ A Unit :=
  call (env.pta.close pta ctx) (fun _ => .pta pta.uuid (.close ctx))
    (.pta pta.uuid (.panicked .close))

/-! ### Field access -/

def allocSession (s : Session) : KM σ A (Option SessionId) :=
  transform fun m =>
    ((m.sessions.alloc s).1,
      { m with
        sessions := (m.sessions.alloc s).2
        log := m.log ++ [.sessionIssued (m.sessions.alloc s).1] })

def takeSession (sid : SessionId) : KM σ A (Option Session) :=
  transform fun m =>
    ((m.sessions.take sid).1, { m with sessions := (m.sessions.take sid).2 })

def allocInstance (i : Instance A) : KM σ A (Option InstanceId) :=
  transform fun m =>
    ((m.instances.alloc i).1,
      { m with
        instances := (m.instances.alloc i).2
        log := m.log ++ [.instanceIssued (m.instances.alloc i).1] })

def getInstance (iid : InstanceId) : KM σ A (Option (Instance A)) :=
  gets fun m => m.instances.get iid

/-- `if let Some(inst) = self.instances.get_mut(iid) { … }` -/
def updateInstance (iid : InstanceId) (f : Instance A → Instance A) : KM σ A Unit :=
  modify fun m => { m with instances := m.instances.update iid f }

def dropInstance (iid : InstanceId) : KM σ A Unit :=
  modify fun m => { m with instances := (dropId m.instances iid).2 }

/-- `self.instances.get(iid).and_then(|i| i.entries)` -/
def getEntries (iid : InstanceId) : KM σ A (Option TaEntryPoints) :=
  gets fun m => (m.instances.get iid).bind (·.entries)

def setCurrentInstance (i : Option InstanceId) : KM σ A Unit :=
  modify fun m => { m with currentInstance := i }

/-- `self.current_instance = Some(iid)`, the call, `self.current_instance = None` -/
def entering (iid : InstanceId) (entry : KM σ A α) : KM σ A α := do
  setCurrentInstance (some iid)
  let a ← entry
  setCurrentInstance none
  pure a

def setCurrentPta (b : Bool) : KM σ A Unit :=
  modify fun m => { m with currentPta := b }

def newAddressSpace : KM σ A A :=
  transform fun m =>
    ((env.hal.newAddressSpace m.world).1, { m with world := (env.hal.newAddressSpace m.world).2 })

def cancelled (cancelId : UInt32) : KM σ A Bool :=
  gets fun m => m.cancelledIds.any (· == cancelId)

/-- `inst.state = Dead`, and `drop_all` on an address space that is still there. -/
def killInstance (iid : InstanceId) (m : Machine σ A) : Machine σ A :=
  { m with
    world := match (m.instances.get iid).bind (·.aspace) with
      | some aspace => env.hal.dropAll aspace m.world
      | none => m.world
    instances := m.instances.update iid fun i => { i with state := .dead, aspace := none } }

/-! ### Locking -/

def lockInstance (iid : InstanceId) : KM σ A (Except UInt32 Unit) := do
  match ← getInstance iid with
  | none => pure (.error TEE_ERROR_TARGET_DEAD)
  | some inst =>
    if inst.busy then pure (.error TEE_ERROR_BUSY)
    else do
      updateInstance iid fun i => { i with busy := true }
      pure (.ok ())

def unlockInstance (iid : InstanceId) : KM σ A Unit :=
  updateInstance iid fun i => { i with busy := false }

/-! ### Parameters -/

def dirPerms : Dir → Perms
  | .input => Perms.READ
  | .output => Perms.WRITE
  | .inout => Perms.RW

abbrev MappedVas := Vector (Option VirtAddr) PARAM_COUNT

/-- How the loop of `map_params` ends. A `?` drops the address space with the local
variable that holds it; the length check puts it back first. -/
inductive MapExit (A : Type) where
  | mapped (aspace : A) (raw : RawParams) (vas : MappedVas)
  | restored (aspace : A) (code : UInt32)
  | lost (code : UInt32)

/-- `lookup_shm_mut(cookie)` and `sync_in()`, skipped for output parameters. -/
def syncInParam (cookie : UInt64) (dir : Dir) (w : σ) : Bool × σ :=
  if dir = .output then (true, w)
  else
    match env.hal.lookupShmMut w cookie with
    | none => (false, w)
    | some (shm, put) =>
      match env.hal.syncIn shm with
      | (.ok _, shm') => (true, put shm')
      | (.error _, shm') => (false, put shm')

def mapParamsLoop (env : Env σ A S) (params : Params) :
    List (Fin PARAM_COUNT) → σ → A → RawParams → MappedVas → MapExit A × σ
  | [], w, aspace, raw, vas => (.mapped aspace raw vas, w)
  | i :: is, w, aspace, raw, vas =>
    match params.get i with
    | .memref (.ree cookie offs) size dir =>
      match syncInParam env cookie dir w with
      | (false, w') => (.lost TEE_ERROR_BAD_PARAMETERS, w')
      | (true, w') =>
        match env.hal.lookupShm w' cookie with
        | none => (.lost TEE_ERROR_BAD_PARAMETERS, w')
        | some shm =>
          if env.hal.shmLen shm < saturatingAdd offs size then
            (.restored aspace TEE_ERROR_BAD_PARAMETERS, w')
          else
            match env.hal.mapInto shm aspace (dirPerms dir) with
            | (.error _, _) => (.lost TEE_ERROR_BAD_PARAMETERS, w')
            | (.ok va, aspace') =>
              mapParamsLoop env params is w' aspace'
                (raw.set i (ParamRaw.ofMemref (va + offs) size)) (vas.set i (some va))
    | _ => mapParamsLoop env params is w aspace raw vas

/-- `self.instances.get_mut(iid).unwrap().aspace = Some(aspace)` -/
def restoreAspace (iid : InstanceId) (aspace : A) : KM σ A Unit := do
  match ← getInstance iid with
  | none => abort
  | some _ => updateInstance iid fun i => { i with aspace := some aspace }

def runMapLoop (params : Params) (aspace : A) : KM σ A (MapExit A) :=
  transform fun m =>
    let r := mapParamsLoop env params (List.finRange PARAM_COUNT) m.world aspace
      (paramsToRaw params) (Vector.replicate PARAM_COUNT none)
    (r.1, { m with world := r.2 })

def mapParams (iid : InstanceId) (params : Params) :
    KM σ A (Except UInt32 (RawParams × MappedVas)) := do
  match (← getInstance iid).bind (·.aspace) with
  | none => pure (.error TEE_ERROR_TARGET_DEAD)
  | some aspace => do
    -- `aspace.take()`
    updateInstance iid fun i => { i with aspace := none }
    match ← runMapLoop env params aspace with
    | .lost code => pure (.error code)
    | .restored aspace' code => do
      restoreAspace iid aspace'
      pure (.error code)
    | .mapped aspace' raw vas => do
      restoreAspace iid aspace'
      pure (.ok (raw, vas))

/-- `lookup_shm_mut(cookie)` and `sync_out()`, skipped for input parameters; the
result of `sync_out` is ignored. -/
def syncOutParam (cookie : UInt64) (dir : Dir) (w : σ) : σ :=
  if dir = .input then w
  else
    match env.hal.lookupShmMut w cookie with
    | none => w
    | some (shm, put) => put (env.hal.syncOut shm).2

def unmapParamsLoop (env : Env σ A S) (params : Params) (vas : MappedVas) :
    List (Fin PARAM_COUNT) → σ → Option A → σ × Option A
  | [], w, aspace => (w, aspace)
  | i :: is, w, aspace =>
    match params.get i with
    | .memref (.ree cookie _) _ dir =>
      let aspace' := match vas.get i with
        | some va => aspace.map fun a => env.hal.unmap a va
        | none => aspace
      unmapParamsLoop env params vas is (syncOutParam env cookie dir w) aspace'
    | _ => unmapParamsLoop env params vas is w aspace

def unmapParams (iid : InstanceId) (params : Params) (vas : MappedVas) :
    KM σ A Unit :=
  modify fun m =>
    let r := unmapParamsLoop env params vas (List.finRange PARAM_COUNT) m.world
      ((m.instances.get iid).bind (·.aspace))
    { m with
      world := r.1
      instances := m.instances.update iid fun i => { i with aspace := r.2 } }

/-! ### Opening a session -/

def recordSession (iid : InstanceId) (uuid : Uuid) (login : Login) (ctx : UInt64)
    (params : Params) : KM σ A KernelOut := do
  match ← allocSession
      { id := 0, uuid, kind := .userTa, inst := some iid, taSessCtx := ctx, state := .ready,
        client := login } with
  | some sid => do
    updateInstance iid fun i =>
      -- `saturating_add(1)`
      { i with sessionCount :=
          if i.sessionCount = 0xFFFF then i.sessionCount else i.sessionCount + 1 }
    pure (.done .ok (some sid) params)
  | none => pure (.doneErr TEE_ERROR_OUT_OF_MEMORY)

/-- What `bind_session` does once the TA has answered. -/
def finishOpen (iid : InstanceId) (uuid : Uuid) (login : Login)
    (params : Params) (vas : MappedVas) (code : UInt32) (ctx : UInt64) : KM σ A KernelOut := do
  unmapParams env iid params vas
  if code ≠ TEE_SUCCESS then pure (.done (.ta code) none params)
  else recordSession iid uuid login ctx params

def bindSession (iid : InstanceId) (uuid : Uuid) (login : Login)
    (params : Params) : KM σ A KernelOut := do
  match ← getEntries iid with
  | none => recordSession iid uuid login 0 params
  | some ep => do
    match ← mapParams env iid params with
    | .error e => pure (.doneErr e)
    | .ok (raw, vas) => do
      let (code, raw', ctx) ←
        entering iid (callOpenSession env iid ep (paramTypesOf params) raw)
      finishOpen env iid uuid login (paramsFromRaw params raw') vas code ctx

/-- `let out = self.bind_session(…); self.unlock_instance(iid); out` -/
def bindAndUnlock (iid : InstanceId) (uuid : Uuid) (login : Login)
    (params : Params) : KM σ A KernelOut := do
  let out ← bindSession env iid uuid login params
  unlockInstance iid
  pure out

/-- What `instantiate_and_bind` does with the instance it has just stored. -/
def createAndBind (iid : InstanceId) (uuid : Uuid) (login : Login)
    (params : Params) (entries : Option TaEntryPoints) : KM σ A KernelOut := do
  match ← lockInstance iid with
  | .error e => do
    dropInstance iid
    pure (.doneErr e)
  | .ok _ =>
    match entries with
    | none => bindAndUnlock env iid uuid login params
    | some ep => do
      let code ← entering iid (callCreate env iid ep)
      if code ≠ TEE_SUCCESS then do
        unlockInstance iid
        dropInstance iid
        pure (.done (.ta code) none params)
      else bindAndUnlock env iid uuid login params

/-- `aspace.unwrap_or_else(|| self.hal.new_address_space())` -/
def aspaceOrNew : Option A → KM σ A A
  | some a => pure a
  | none => newAddressSpace env

def instantiateAndBind (props : TaProperties) (uuid : Uuid) (login : Login)
    (params : Params) (entries : Option TaEntryPoints) (aspace : Option A) :
    KM σ A KernelOut := do
  if props.uuid ≠ uuid then pure (.doneErr TEE_ERROR_SECURITY)
  else do
    let aspace ← aspaceOrNew env aspace
    match ← allocInstance
        { id := 0, uuid, props, aspace := some aspace, sessionCount := 0, state := .live,
          entries, busy := false } with
    | none => pure (.doneErr TEE_ERROR_OUT_OF_MEMORY)
    | some iid => createAndBind env iid uuid login params entries

def openUserTa (uuid : Uuid) (login : Login) (params : Params)
    (cancelId timeoutMs : UInt32) : KM σ A KernelOut := do
  if ← cancelled cancelId then pure (.doneErr TEE_ERROR_CANCEL)
  else
    match ← gets fun m => liveSingle m.instances uuid with
    | some iid =>
      match ← getInstance iid with
      | none => abort
      | some inst =>
        if !inst.props.multiSession && inst.sessionCount > 0 then
          pure (.doneErr TEE_ERROR_BUSY)
        else
          match ← lockInstance iid with
          | .error e => pure (.doneErr e)
          | .ok _ => bindAndUnlock env iid uuid login params
    | none =>
      match ← gets fun m => EarlyTas.get m.early uuid with
      | some early =>
        instantiateAndBind env early.props uuid login params early.entries none
      | none =>
        if ← gets fun m => m.yielding.isSome then pure (.doneErr TEE_ERROR_BUSY)
        else do
          modify fun m =>
            { m with yielding := some ⟨uuid, login, params, cancelId, timeoutMs⟩ }
          pure (.rpc (.loadTa uuid))

/-- `Kernel::open` -/
def open_ (uuid : Uuid) (login : Login) (params : Params)
    (cancelId timeoutMs : UInt32) : KM σ A KernelOut := do
  if ← cancelled cancelId then pure (.doneErr TEE_ERROR_CANCEL)
  else
    match ← gets fun m => getMut m.ptas uuid with
    | none => openUserTa env uuid login params cancelId timeoutMs
    | some pta => do
      -- `current_pta` stays false here: only `invoke` sets it
      match ← callPtaOpen env pta params with
      | (.error e, params') => pure (.done e none params')
      | (.ok ctx, params') =>
        match ← allocSession
            { id := 0, uuid, kind := .pta, inst := none, taSessCtx := ctx, state := .ready,
              client := login } with
        | some sid => pure (.done .ok (some sid) params')
        | none => pure (.doneErr TEE_ERROR_OUT_OF_MEMORY)

/-! ### Invoke and close -/

/-- The code `invoke` gets from a TA: success when there are no entry points. -/
def invokeEntry (iid : InstanceId) (ctx : UInt64) (cmdId types : UInt32)
    (raw : RawParams) : KM σ A (UInt32 × RawParams) := do
  match ← getEntries iid with
  | some ep => callInvoke env iid ep ctx cmdId types raw
  | none => pure (TEE_SUCCESS, raw)

def invokeUserTa (session : SessionId) (sess : Session) (iid : InstanceId)
    (cmdId : UInt32) (params : Params) : KM σ A KernelOut := do
  match ← mapParams env iid params with
  | .error e => pure (.doneErr e)
  | .ok (raw, vas) => do
    let (code, raw') ← invokeEntry env iid sess.taSessCtx cmdId (paramTypesOf params) raw
    let params' := paramsFromRaw params raw'
    unmapParams env iid params' vas
    pure (.done (if code = TEE_SUCCESS then .ok else .ta code) (some session) params')

/-- The part of `invoke` that runs under the lock. -/
def invokeLocked (session : SessionId) (sess : Session) (iid : InstanceId)
    (cmdId : UInt32) (params : Params) : KM σ A KernelOut := do
  let out ← entering iid (invokeUserTa env session sess iid cmdId params)
  unlockInstance iid
  pure out

def invoke (session : SessionId) (cmdId : UInt32) (params : Params)
    (cancelId : UInt32) : KM σ A KernelOut := do
  if ← cancelled cancelId then pure (.doneErr TEE_ERROR_CANCEL)
  else
    match ← gets fun m => m.sessions.get session with
    | none => pure (.doneErr TEE_ERROR_BAD_PARAMETERS)
    | some sess =>
      if sess.state = .dead then pure (.doneErr TEE_ERROR_TARGET_DEAD)
      else
        match sess.kind with
        | .pta =>
          match ← gets fun m => getMut m.ptas sess.uuid with
          | none => pure (.doneErr TEE_ERROR_ITEM_NOT_FOUND)
          | some pta => do
            setCurrentPta true
            let (r, params') ← callPtaInvoke env pta sess.taSessCtx cmdId params
            setCurrentPta false
            pure (.done r (some session) params')
        | .userTa =>
          match sess.inst with
          | none => pure (.doneErr TEE_ERROR_TARGET_DEAD)
          | some iid =>
            match ← lockInstance iid with
            | .error e => pure (.doneErr e)
            | .ok _ => invokeLocked env session sess iid cmdId params

def closed : KernelOut := .done .ok none noParams

/-- `if let Some(ep) = self.instances.get(iid).and_then(|i| i.entries)`, and a call. -/
def enterIfBound (iid : InstanceId) (entry : TaEntryPoints → KM σ A Unit) : KM σ A Unit := do
  match ← getEntries iid with
  | some ep => entering iid (entry ep)
  | none => pure ()

/-- `session_count.saturating_sub(1)`; true when the instance has to go. -/
def releaseSession (iid : InstanceId) : KM σ A Bool := do
  updateInstance iid fun i =>
    { i with sessionCount := if i.sessionCount = 0 then 0 else i.sessionCount - 1 }
  match ← getInstance iid with
  | some inst => pure (inst.sessionCount == 0 && !inst.props.instanceKeepAlive)
  | none => pure false

/-- The part of `close` that runs under the lock. -/
def closeUserTa (iid : InstanceId) (ctx : UInt64) : KM σ A KernelOut := do
  enterIfBound iid fun ep => callCloseSession env iid ep ctx
  if ← releaseSession iid then do
    enterIfBound iid fun ep => callDestroy env iid ep
    modify (killInstance env iid)
    dropInstance iid
    pure closed
  else do
    unlockInstance iid
    pure closed

def close (session : SessionId) : KM σ A KernelOut := do
  match ← takeSession session with
  | none => pure (.doneErr TEE_ERROR_BAD_PARAMETERS)
  | some sess =>
    match sess.kind with
    | .pta =>
      match ← gets fun m => getMut m.ptas sess.uuid with
      | some pta => do
        callPtaClose env pta sess.taSessCtx
        pure closed
      | none => pure closed
    | .userTa =>
      match sess.inst with
      | none => pure closed
      | some iid =>
        match ← lockInstance iid with
        | .error e => pure (.doneErr e)
        | .ok _ => closeUserTa env iid sess.taSessCtx

/-! ### Resuming after an RPC -/

/-- A computation over untrusted bytes inside the kernel: its panic is the kernel's. -/
def parsing (x : Fallible UInt32 α) : KM σ A (Except UInt32 α) :=
  match x with
  | .ok a => pure (.ok a)
  | .err e => pure (.error e)
  | .panic => abort

def loadTaAnswer (y : Yielding) (bytes : List UInt8) : KM σ A KernelOut := do
  if ← cancelled y.cancelId then pure (.doneErr TEE_ERROR_CANCEL)
  else
    match ← parsing (loadImage env.crypto env.target.build bytes) with
    | .error code => pure (.doneErr code)
    | .ok loaded =>
      if loaded.props.uuid ≠ y.uuid then pure (.doneErr TEE_ERROR_SECURITY)
      else do
        let aspace ← newAddressSpace env
        -- the whole answer is mapped, envelope or not
        match ← parsing (mapElf env aspace bytes) with
        | .error code => pure (.doneErr code)
        | .ok (entries, aspace') =>
          instantiateAndBind env loaded.props y.uuid y.login y.params entries (some aspace')

def rpcComplete (resp : RpcResponse) : KM σ A KernelOut := do
  match ← gets fun m => m.yielding with
  | none => pure (.doneErr TEE_ERROR_BAD_PARAMETERS)
  | some y => do
    modify fun m => { m with yielding := none }
    match resp with
    | .loadTa bytes => loadTaAnswer env y bytes
    | .error code => pure (.doneErr code)
    | _ => pure (.doneErr TEE_ERROR_NOT_SUPPORTED)

/-! ### Commands -/

/-- The commands behind the notice gate of `handle`. -/
def execute : KernelCmd → KM σ A KernelOut
  | .openSession uuid login params cancelId timeoutMs =>
    open_ env uuid login params cancelId timeoutMs
  | .invoke session cmdId params cancelId _ => invoke env session cmdId params cancelId
  | .closeSession session => close env session
  | .cancel cancelId => do
    modify fun m => { m with cancelledIds := m.cancelledIds ++ [cancelId] }
    pure (.doneErr TEE_SUCCESS)
  | .rpcComplete resp => rpcComplete env resp

def handle (cmd : KernelCmd) : KM σ A KernelOut := do
  if !(← gets fun m => m.noticesOk) then pure (.doneErr TEE_ERROR_SECURITY)
  else execute env cmd

/-- What the caller of a command sees. -/
inductive Reply where
  | out (o : KernelOut)
  | halted
deriving Repr, DecidableEq

def onTaPanic (m : Machine σ A) : KernelOut × Machine σ A :=
  match m.currentInstance with
  | none => (.doneErr TEE_ERROR_TARGET_DEAD, m)
  | some iid =>
    let m' := killInstance env iid { m with currentInstance := none }
    (.doneErr TEE_ERROR_TARGET_DEAD,
      { m' with sessions := SessionTable.poisonInstance m'.sessions iid })

def onPanic (m : Machine σ A) : Reply × Machine σ A :=
  if m.currentPta then (.halted, m)
  else (.out (onTaPanic env m).1, (onTaPanic env m).2)

/-- One command, with `on_panic` ending it when a callee panics. -/
def dispatch (cmd : KernelCmd) (m : Machine σ A) : Reply × Machine σ A :=
  match handle env cmd m with
  | (.value out, m') => (.out out, m')
  | (.unwind, m') => onPanic env m'
  | (.abort, m') => (.halted, m')

/-! ### Start-up -/

/-- `Kernel::new` -/
def Machine.new (w : σ) : Machine σ A :=
  { entropyOrigin := env.hal.entropyOrigin w
    sessions := SlotTable.new MAX_SESSIONS
    instances := SlotTable.new MAX_INSTANCES
    ptas := []
    early := []
    yielding := none
    currentInstance := none
    currentPta := false
    noticesOk := env.hal.entropyOrigin w != .reeHost
    cancelledIds := []
    world := w
    log := [] }

def registerPta (pta : Pta) (m : Machine σ A) : Machine σ A := { m with ptas := m.ptas ++ [pta] }

def registerEarlyTa (ta : EarlyTa) (m : Machine σ A) : Machine σ A :=
  { m with early := m.early ++ [ta] }

/-- `emit_ree_notices`; `written` says whether both lines could be written. -/
def emitReeNotices (written : Bool) (m : Machine σ A) : Machine σ A :=
  if m.entropyOrigin ≠ .reeHost then { m with noticesOk := true }
  else if written then { m with noticesOk := true }
  else m

end Rustee.Os
