import Rustee.OsTableMachine

/-!
# One walk over the kernel

Many facts about a command are of one kind: a judgement on programs that can be shown of a sequence
part by part. `Walk` lists what has to be shown of the primitive operations, each with what the
kernel knows there; the lemmas below carry the judgement through every kernel function, whatever
the TAs and the HAL do and however the command ends. No invariant is needed, so the facts also
hold in states that reuse an id.
-/

namespace Rustee.Os

open SlotTable Prog Machine PtaRegistry EarlyTas InstanceTable

variable {σ A S α : Type} {i : Instance A}

/-! ### What a command may do -/

/-- The instances a command may store, and where their code comes from. -/
inductive Creates (env : Env σ A S) (m : Machine σ A) : KernelCmd → Instance A → Prop
  | early (uuid : Uuid) (login : Login) (params : Params) (cancelId timeoutMs : UInt32)
      (ta : EarlyTa) (a : A) (hta : get m.early uuid = some ta) (huuid : ta.props.uuid = uuid) :
      Creates env m (.openSession uuid login params cancelId timeoutMs)
        (newInstance uuid ta.props a ta.entries)
  | loaded (bytes : List UInt8) (y : Yielding) (loaded : Loaded) (a a' : A)
      (entries : Option TaEntryPoints) (hy : m.yielding = some y)
      (hload : loadImage env.crypto env.target.build bytes = .ok loaded)
      (huuid : loaded.props.uuid = y.uuid) (hmap : mapElf env a bytes = .ok (entries, a')) :
      Creates env m (.rpcComplete (.loadTa bytes)) (newInstance y.uuid loaded.props a' entries)

/-- What a command may make of the pending request. -/
inductive Pends (m : Machine σ A) : KernelCmd → Option Yielding → Prop
  | asks (uuid : Uuid) (login : Login) (params : Params) (cancelId timeoutMs : UInt32)
      (hnone : m.yielding = none) :
      Pends m (.openSession uuid login params cancelId timeoutMs)
        (some ⟨uuid, login, params, cancelId, timeoutMs⟩)
  | answers (resp : RpcResponse) : Pends m (.rpcComplete resp) none

def KernelCmd.mayOpen : KernelCmd → Bool
  | .openSession .. => true
  | .rpcComplete _ => true
  | _ => false

/-- The parameters a command works with: its own, or those of the pending request. -/
inductive WorksOn (m : Machine σ A) : KernelCmd → Params → Prop
  | openSession (uuid : Uuid) (login : Login) (params : Params) (cancelId timeoutMs : UInt32) :
    WorksOn m (.openSession uuid login params cancelId timeoutMs) params
  | invoke (session : SessionId) (cmdId : UInt32) (params : Params) (cancelId timeoutMs : UInt32) :
    WorksOn m (.invoke session cmdId params cancelId timeoutMs) params
  | pending (resp : RpcResponse) (y : Yielding) (hy : m.yielding = some y) :
    WorksOn m (.rpcComplete resp) y.params

/-- The raw parameters `map_params` hands to a TA for `params`. -/
def MappedTo (env : Env σ A S) (params : Params) (raw : RawParams) : Prop :=
  ∃ w aspace aspace' vas w', mapAll env params w aspace = (.mapped aspace' raw vas, w')

section
variable (m : Machine σ A)

def operationId : KernelCmd → Option UInt32
  | .openSession _ _ _ cancelId _ => some cancelId
  | .invoke _ _ _ cancelId _ => some cancelId
  | .rpcComplete _ => m.yielding.map (·.cancelId)
  | _ => none

def Admitted (cancelId : UInt32) : Prop :=
  m.noticesOk = true ∧ (m.cancelledIds.any (· == cancelId)) = false

def CallsPtaOpenOrClose : KernelCmd → Prop
  | .openSession uuid _ _ cancelId _ =>
    Admitted m cancelId ∧ (getMut m.ptas uuid).isSome
  | .closeSession session =>
    m.noticesOk = true ∧ ∃ s, m.sessions.get session = some s ∧ s.kind = .pta ∧
      (getMut m.ptas s.uuid).isSome
  | _ => False

def storedInstance (props : TaProperties) (a : A) (entries : Option TaEntryPoints) : Instance A :=
  { newInstance props.uuid props a entries with id := m.instances.nextId }

end

/-- The command gets as far as mapping its parameters into the address space of its
target, and the world is `w` then. -/
inductive Maps (env : Env σ A S) (m : Machine σ A) :
    KernelCmd → InstanceId → Instance A → σ → Params → Prop
  | invoked {session cmdId params cancelId timeoutMs sess iid i} (hadm : Admitted m cancelId)
      (hs : m.sessions.get session = some sess) (hstate : sess.state ≠ .dead)
      (hk : sess.kind = .userTa) (hinst : sess.inst = some iid) (hi : m.instances.get iid = some i)
      (hb : i.busy = false) :
      Maps env m (.invoke session cmdId params cancelId timeoutMs) iid i m.world params
  | reused {uuid login params cancelId timeoutMs iid i} (hadm : Admitted m cancelId)
      (hpta : getMut m.ptas uuid = none) (hsingle : liveSingle m.instances uuid = some iid)
      (hi : m.instances.get iid = some i)
      (hcount : (!i.props.multiSession && decide (i.sessionCount > 0)) = false)
      (hb : i.busy = false) (he : i.entries.isSome) :
      Maps env m (.openSession uuid login params cancelId timeoutMs) iid i m.world params
  | created {login : Login} {params : Params} {cancelId timeoutMs : UInt32} {ta : EarlyTa}
      {ep : TaEntryPoints} {w : σ} (hadm : Admitted m cancelId)
      (hpta : getMut m.ptas ta.props.uuid = none)
      (hsingle : liveSingle m.instances ta.props.uuid = none)
      (hearly : get m.early ta.props.uuid = some ta) (hroom : m.instances.HasRoom)
      (he : ta.entries = some ep)
      (hcreate : env.ta.create ep.create (env.hal.newAddressSpace m.world).2 =
        (.returns TEE_SUCCESS, w)) :
      Maps env m (.openSession ta.props.uuid login params cancelId timeoutMs)
        m.instances.nextId
        (storedInstance m ta.props (env.hal.newAddressSpace m.world).1 ta.entries) w params
  | loaded {bytes : List UInt8} {y : Yielding} {image : Loaded} {ep : TaEntryPoints} {a : A}
      {w : σ} (hy : m.yielding = some y) (hadm : Admitted m y.cancelId)
      (hload : loadImage env.crypto env.target.build bytes = .ok image)
      (hu : image.props.uuid = y.uuid)
      (hmap : mapElf env (env.hal.newAddressSpace m.world).1 bytes = .ok (some ep, a))
      (hroom : m.instances.HasRoom)
      (hcreate : env.ta.create ep.create (env.hal.newAddressSpace m.world).2 =
        (.returns TEE_SUCCESS, w)) :
      Maps env m (.rpcComplete (.loadTa bytes)) m.instances.nextId
        (storedInstance m image.props a (some ep)) w y.params

/-- The machine with another list of cancelled ids and another state of the notice gate. -/
def Machine.withGate (ids : List UInt32) (open_ : Bool) (m : Machine σ A) : Machine σ A :=
  { m with cancelledIds := ids, noticesOk := open_ }

/-! ### The judgement -/

/-- `G c α x m` is said of the program `x`, run from `m` for the instance `c`. -/
abbrev Judgement (σ A : Type) := Option InstanceId → ∀ α : Type, KM σ A α → Machine σ A → Prop

/-- It can be shown part by part. -/
structure Judgement.Sequential (G : Judgement σ A) : Prop where
  pure : ∀ {c α} (a : α) (m), G c α (Pure.pure a) m
  abort : ∀ {c α} (m), G c α abort m
  bind : ∀ {c α β} {x : KM σ A α} {f : α → KM σ A β} {m}, G c α x m →
    (∀ a m', x m = (.value a, m') → G c β (f a) m') → G c β (x >>= f) m

/-- The code of a TA that a command may call, and what it is called with. -/
inductive Enters (env : Env σ A S) (m₀ : Machine σ A) (cmd : KernelCmd) (ep : TaEntryPoints) :
    ∀ {α : Type}, EntryPoint → (σ → CallExit α × σ) → Prop
  | create : Enters env m₀ cmd ep .create (env.ta.create ep.create)
  | destroy : Enters env m₀ cmd ep .destroy (env.ta.destroy ep.destroy)
  | openSession {params : Params} {raw : RawParams} (hworks : WorksOn m₀ cmd params)
      (hraw : MappedTo env params raw) : Enters env m₀ cmd ep .openSession
        (env.ta.openSession ep.openSession (paramTypesOf params) raw 0)
  | closeSession (ctx : UInt64) :
      Enters env m₀ cmd ep .closeSession (env.ta.closeSession ep.closeSession ctx)
  | invoke {params raw} (hworks : WorksOn m₀ cmd params) (hraw : MappedTo env params raw)
      (ctx : UInt64) (cmdId : UInt32) :
      Enters env m₀ cmd ep .invoke (env.ta.invoke ep.invoke ctx cmdId (paramTypesOf params) raw)

section
variable (env : Env σ A S) (m₀ : Machine σ A) (cmd : KernelCmd)

/-- The instance is in the table, and the entry points are its own or those of an instance the
command stores. -/
def Enterable (m : Machine σ A) (iid : InstanceId) (ep : TaEntryPoints) : Prop :=
  ∃ i, m.instances.get iid = some i ∧
    (i.entries = some ep ∨ ∃ j, Creates env m₀ cmd j ∧ j.entries = some ep)

/-- While ids are fresh, parameters are only mapped as `Maps` says. -/
def MapsAt (iid : InstanceId) (params : Params) (m : Machine σ A) : Prop :=
  m₀.instances.Fresh m₀.instances.nextId → ∃ i, Maps env m₀ cmd iid i m.world params ∧
    m.instances.get iid = some { i with busy := true }

end

/-- What has to be shown of the parts in which the command `cmd`, run from `m₀`, enters a TA. -/
structure Steps (env : Env σ A S) (G : Judgement σ A) (m₀ : Machine σ A) (cmd : KernelCmd) : Prop
    extends G.Sequential where
  reads : ∀ {c α} {g : Machine σ A → α} (m), (∀ ids b m, g (m.withGate ids b) = g m) →
    G c α (gets g) m
  counts : ∀ {c} (iid) {f : Instance A → Instance A} (m),
    (∀ i, f i = { i with busy := (f i).busy, sessionCount := (f i).sessionCount }) →
    G c Unit (updateInstance iid f) m
  records : cmd.mayOpen = true → ∀ s m, G none _ (allocSession s) m
  unmaps : ∀ {c} (iid params vas m), G c Unit (unmapParams env iid params vas) m
  entering : ∀ {α iid} {entry : KM σ A α} {m},
    G (some iid) α entry { m with currentInstance := some iid } → G none α (entering iid entry) m
  enters : ∀ {α entry ep} {code : σ → CallExit α × σ}, Enters env m₀ cmd ep entry code →
    ∀ {iid m}, Enterable env m₀ cmd m iid ep → ∀ returned : α → TaCall,
    G (some iid) α (call code (fun a => .ta iid (returned a)) (.ta iid (.panicked entry))) m

/-- And of the others. -/
structure Walk (env : Env σ A S) (G : Judgement σ A) (m₀ : Machine σ A) (cmd : KernelCmd) : Prop
    extends Steps env G m₀ cmd where
  gate : G none Bool (gets fun m => m.noticesOk) m₀
  cancelled : ∀ {id m}, operationId m₀ cmd = some id → m.cancelledIds = m₀.cancelledIds →
    G none Bool (cancelled id) m
  cancels : ∀ {id}, cmd = .cancel id →
    G none Unit (modify fun m => { m with cancelledIds := m.cancelledIds ++ [id] }) m₀
  takes : ∀ sid m, G none _ (takeSession sid) m
  maps : ∀ {c iid params m}, MapsAt env m₀ cmd iid params m → G c _ (mapParams env iid params) m
  stores : ∀ {i}, Creates env m₀ cmd i → ∀ m, G none _ (allocInstance i) m
  drops : ∀ iid m, G none Unit (dropInstance iid) m
  kills : ∀ iid m, G none Unit (modify (killInstance env iid)) m
  newSpace : ∀ m, G none _ (newAddressSpace env) m
  pends : ∀ {y}, Pends m₀ cmd y → G none Unit (modify fun m => { m with yielding := y }) m₀
  ptaOpen : CallsPtaOpenOrClose m₀ cmd → ∀ pta params m, G none _ (callPtaOpen env pta params) m
  ptaClose : CallsPtaOpenOrClose m₀ cmd → ∀ pta ctx m, G none _ (callPtaClose env pta ctx) m
  ptaInvoke : ∀ pta ctx cmdId params (out : TeeResult × Params → KernelOut) m, G none _
    (setCurrentPta true >>= fun _ => callPtaInvoke env pta ctx cmdId params >>= fun r =>
      setCurrentPta false >>= fun _ => Pure.pure (out r)) m

/-! ### What the parts return -/

section Returned

variable {env : Env σ A S} {m m1 : Machine σ A} {iid : InstanceId}

theorem lockInstance_ok (h : lockInstance iid m = (.value (.ok ()), m1)) :
    ∃ i, m.instances.get iid = some i ∧ i.busy = false ∧
      m1 = m.after m.world (m.tables.lock iid) [] := by
  cases hi : m.instances.get iid with
  | none =>
    simp only [lockInstance, getInstance, bind_apply, gets_apply, hi, pure_apply] at h
    cases h
  | some i =>
    cases hb : i.busy with
    | true =>
      rw [lockInstance_of_busy hi hb] at h
      cases h
    | false =>
      rw [lockInstance_of_free hi hb] at h
      cases h
      exact ⟨i, rfl, hb, rfl⟩

/-- A call that returned, made with `current_instance` set. -/
theorem entering_call_value {code : σ → CallExit α × σ} {returned : α → Event}
    {panicked : Event} {r : α} (h : entering iid (call code returned panicked) m = (.value r, m1)) :
    ∃ w, code m.world = (.returns r, w) ∧
      m1 = { m.after w m.tables [returned r] with currentInstance := none } := by
  rcases hcode : code m.world with ⟨exit, w⟩
  cases exit with
  | returns =>
    simp only [entering, setCurrentInstance, call, bind_apply, modify_apply, hcode, pure_apply] at h
    cases h
    exact ⟨w, rfl, rfl⟩
  | panics =>
    simp only [entering, setCurrentInstance, call, bind_apply, modify_apply, hcode] at h
    cases h

/-- `map_params` leaves the instance in the table, and what it returns is what it has mapped. -/
theorem mapParams_value {params : Params}
    {r : Except UInt32 (RawParams × MappedVas)} (hi : m.instances.get iid = some i)
    (h : mapParams env iid params m = (.value r, m1)) :
    (∃ b, m1.instances.get iid = some { i with aspace := b }) ∧
      ∀ raw vas, r = .ok (raw, vas) → MappedTo env params raw := by
  cases ha : i.aspace with
  | none =>
    rw [mapParams_of_none hi ha] at h
    cases h
    exact ⟨⟨i.aspace, hi⟩, fun _ _ hr => nomatch hr⟩
  | some a =>
    rw [mapParams_of_some hi ha] at h
    cases h
    refine ⟨⟨_, get_update_aspace hi _⟩, fun raw vas hr => ?_⟩
    rcases hexit : mapAll env params m.world a with ⟨exit, w⟩
    rw [hexit] at hr
    cases exit with
    | lost | restored => cases hr
    | mapped a' =>
      cases hr
      exact ⟨m.world, a, a', vas, w, hexit⟩

theorem parsing_value {x : Fallible UInt32 α} {r : Except UInt32 α}
    (h : parsing x m = (.value r, m1)) : m1 = m ∧ ∀ a, r = .ok a → x = .ok a := by
  cases x with
  | ok =>
    cases h
    exact ⟨rfl, fun _ ha => congrArg Fallible.ok (Except.ok.inj ha)⟩
  | err =>
    cases h
    exact ⟨rfl, fun _ ha => nomatch ha⟩
  | panic => cases h

theorem takeSession_apply (sid : SessionId) (m : Machine σ A) :
    takeSession sid m = (.value (m.sessions.get sid),
      m.after m.world (m.tables.withSessions (m.sessions.take sid).2) []) := by
  simp [takeSession, take_fst, after, Tables.withSessions, tables]

theorem allocInstance_some (h : allocInstance i m = (.value (some iid), m1)) :
    m.instances.HasRoom ∧ iid = m.instances.nextId ∧ m1 = m.stored m.world i [] := by
  rcases alloc_cases m.instances i with ⟨hroom, t', ht, -⟩ | ⟨-, ht⟩
  · simp only [allocInstance, transform_apply, ht] at h
    cases h
    refine ⟨hroom, rfl, ?_⟩
    simp only [stored, after, Tables.issue, tables, ht]
  · simp only [allocInstance, transform_apply, ht] at h
    cases h

end Returned

/-! ### The functions -/

section Functions

variable {env : Env σ A S} {G : Judgement σ A} {m₀ m : Machine σ A} {cmd : KernelCmd}
  {c : Option InstanceId} {iid : InstanceId} {uuid : Uuid} {login : Login} {params : Params}

namespace Steps

variable (W : Steps env G m₀ cmd)
include W

theorem read_bind {β : Type} {g : Machine σ A → α} {k : α → KM σ A β}
    (hg : ∀ ids b m, g (m.withGate ids b) = g m) (h : G c β (k (g m)) m) :
    G c β (gets g >>= k) m := by
  refine W.bind (W.reads m hg) fun a m' hrun => ?_
  cases hrun
  exact h

section
variable (iid : InstanceId) (m : Machine σ A)

theorem unlockInstance : G c Unit (unlockInstance iid) m :=
  W.counts iid m fun _ => rfl

theorem lockInstance : G c _ (lockInstance iid) m := by
  refine W.read_bind (fun _ _ _ => rfl) ?_
  cases m.instances.get iid with
  | none => exact W.pure _ m
  | some =>
    dsimp only
    split
    · exact W.pure _ m
    · exact W.bind (W.counts iid m fun _ => rfl) fun _ m' _ => W.pure _ m'

end

theorem then_unlock {x : KM σ A α} (h : G none α x m) :
    G none α (x >>= fun a => Os.unlockInstance iid >>= fun _ => Pure.pure a) m :=
  W.bind h fun _ m1 _ => W.bind (W.unlockInstance iid m1) fun _ m2 _ => W.pure _ m2

theorem entering_call {entry : EntryPoint} {ep : TaEntryPoints} {code : σ → CallExit α × σ}
    (h : Enters env m₀ cmd ep entry code) (hin : Enterable env m₀ cmd m iid ep)
    (returned : α → TaCall) : G none α (Os.entering iid
      (call code (fun a => .ta iid (returned a)) (.ta iid (.panicked entry)))) m :=
  W.entering (W.enters h (m := { m with currentInstance := some iid }) hin returned)

theorem recordSession (hopen : cmd.mayOpen = true) (iid : InstanceId) (uuid : Uuid)
    (login : Login) (ctx : UInt64) (params : Params) (m : Machine σ A) :
    G none _ (recordSession iid uuid login ctx params) m := by
  refine W.bind (W.records hopen _ m) fun sid m1 _ => ?_
  cases sid with
  | none => exact W.pure _ m1
  | some => exact W.bind (W.counts iid m1 fun _ => rfl) fun _ m2 _ => W.pure _ m2

section

variable (hopen : cmd.mayOpen = true) (hworks : WorksOn m₀ cmd params)
  (hmap : ∀ i ep, m.instances.get iid = some i → i.entries = some ep →
    G none _ (mapParams env iid params) m)
include hopen hworks hmap

theorem bindSession : G none _ (bindSession env iid uuid login params) m := by
  refine W.read_bind (fun _ _ _ => rfl) ?_
  cases he : (m.instances.get iid).bind (·.entries) with
  | none => exact W.recordSession hopen iid uuid login 0 params m
  | some ep =>
    obtain ⟨i, hi, hep⟩ := Option.bind_eq_some_iff.mp he
    refine W.bind (hmap i ep hi hep) fun r m1 hrun => ?_
    obtain ⟨⟨b, hi1⟩, hraw⟩ := mapParams_value hi hrun
    cases r with
    | error => exact W.pure _ m1
    | ok v =>
      have hcall := W.entering_call (.openSession hworks (hraw v.1 v.2 rfl))
        ⟨_, hi1, .inl hep⟩ fun r => .openSession r.2.2 r.1
      refine W.bind hcall fun answer m2 _ => W.bind (W.unmaps iid _ _ m2) fun _ m3 _ => ?_
      split
      · exact W.pure _ m3
      · exact W.recordSession hopen iid uuid login _ _ m3

theorem bindAndUnlock : G none _ (bindAndUnlock env iid uuid login params) m :=
  W.then_unlock (W.bindSession hopen hworks hmap)

end

theorem invokeUserTa {session : SessionId} {sess : Session} {cmdId : UInt32}
    (hworks : WorksOn m₀ cmd params) (hi : m.instances.get iid = some i)
    (hmap : G (some iid) _ (mapParams env iid params) m) :
    G (some iid) _ (invokeUserTa env session sess iid cmdId params) m := by
  refine W.bind hmap fun r m1 hrun => ?_
  obtain ⟨⟨b, hi1⟩, hraw⟩ := mapParams_value hi hrun
  cases r with
  | error => exact W.pure _ m1
  | ok v =>
    have hentry : G (some iid) _
        (invokeEntry env iid sess.taSessCtx cmdId (paramTypesOf params) v.1) m1 := by
      refine W.read_bind (fun _ _ _ => rfl) ?_
      cases he : (m1.instances.get iid).bind (·.entries) with
      | none => exact W.pure _ m1
      | some =>
        obtain ⟨i', hi', hep⟩ := Option.bind_eq_some_iff.mp he
        exact W.enters (.invoke hworks (hraw v.1 v.2 rfl) sess.taSessCtx cmdId)
          ⟨i', hi', .inl hep⟩ fun r => .invoke sess.taSessCtx r.1
    exact W.bind hentry fun _ m2 _ => W.bind (W.unmaps iid _ _ m2) fun _ m3 _ => W.pure _ m3

end Steps

namespace Walk

variable (W : Walk env G m₀ cmd)
include W

theorem createAndBind (hopen : cmd.mayOpen = true) (hworks : WorksOn m₀ cmd params)
    {entries : Option TaEntryPoints}
    (hentries : ∀ ep, entries = some ep → ∃ j, Creates env m₀ cmd j ∧ j.entries = some ep)
    (hmap : ∀ s i ep', s.instances = (m.tables.lock iid).instances →
      s.instances.get iid = some i → i.entries = some ep' →
      (∀ ep, entries = some ep →
        env.ta.create ep.create m.world = (.returns TEE_SUCCESS, s.world)) →
      MapsAt env m₀ cmd iid params s) :
    G none _ (createAndBind env iid uuid login params entries) m := by
  refine W.bind (W.lockInstance iid m) fun r m1 hlock => ?_
  cases r with
  | error => exact W.bind (W.drops iid m1) fun _ m2 _ => W.pure _ m2
  | ok _ =>
    obtain ⟨i, hi, -, rfl⟩ := lockInstance_ok hlock
    cases entries with
    | none =>
      exact W.bindAndUnlock hopen hworks fun i ep hi hep =>
        W.maps (hmap _ i ep rfl hi hep (by simp))
    | some ep =>
      have hcall := W.entering_call (m := m.after m.world (m.tables.lock iid) []) .create
        ⟨_, get_lock (t := m.tables) hi, .inr (hentries ep rfl)⟩ .create
      refine W.bind hcall fun code m2 hrun => ?_
      obtain ⟨w', hcreate, rfl⟩ := entering_call_value hrun
      by_cases hcode : code = TEE_SUCCESS
      · subst hcode
        rw [if_neg (not_not.mpr rfl)]
        refine W.bindAndUnlock hopen hworks fun i ep' hi hep => W.maps (hmap _ i ep' rfl hi hep ?_)
        rintro _ ⟨⟩
        exact hcreate
      · rw [if_pos hcode]
        exact W.bind (W.unlockInstance iid _) fun _ m3 _ =>
          W.bind (W.drops iid m3) fun _ m4 _ => W.pure _ m4

theorem instantiateAndBind (hopen : cmd.mayOpen = true) (hworks : WorksOn m₀ cmd params)
    {props : TaProperties} {entries : Option TaEntryPoints} {aspace : Option A}
    (hinst : m.instances = m₀.instances)
    (hstore : props.uuid = uuid → ∀ a, (∀ b, aspace = some b → a = b) →
      Creates env m₀ cmd (newInstance uuid props a entries))
    (hmap : props.uuid = uuid → m.instances.HasRoom → ∀ a m1 ep w,
      aspaceOrNew env aspace m = (.value a, m1) → entries = some ep →
      env.ta.create ep.create m1.world = (.returns TEE_SUCCESS, w) →
      Maps env m₀ cmd m.instances.nextId (storedInstance m props a entries) w params) :
    G none _ (instantiateAndBind env props uuid login params entries aspace) m := by
  unfold Os.instantiateAndBind
  by_cases hu : props.uuid = uuid
  swap
  · rw [if_pos hu]
    exact W.pure _ m
  rw [if_neg (not_not_intro hu)]
  have hspace : G none _ (aspaceOrNew env aspace) m := by
    cases aspace with
    | some => exact W.pure _ m
    | none => exact W.newSpace m
  refine W.bind hspace fun a m1 ha => ?_
  have hm1 : m1.instances = m.instances ∧ ∀ b, aspace = some b → a = b := by
    cases aspace with
    | some =>
      cases ha
      exact ⟨rfl, fun _ h => Option.some.inj h⟩
    | none =>
      cases ha
      exact ⟨rfl, fun _ h => nomatch h⟩
  have hcreates := hstore hu a hm1.2
  refine W.bind (W.stores hcreates m1) fun id m2 halloc => ?_
  cases id with
  | none => exact W.pure _ m2
  | some =>
    obtain ⟨hroom, rfl, rfl⟩ := allocInstance_some halloc
    refine W.createAndBind hopen hworks (fun ep he => ⟨_, hcreates, he⟩) ?_
    intro s i ep' hs hi hep hcreate hfresh
    -- under a fresh id the table has the instance that was just stored
    have hlocked := get_lock (t := m1.tables.issue (newInstance uuid props a entries))
      (get_alloc hroom (by rw [hm1.1, hinst]; exact hfresh) _)
    rw [hs] at hi
    cases hi.symm.trans hlocked
    have he : entries = some ep' := hep
    subst hu
    rw [hm1.1] at hroom hs ⊢
    refine ⟨_, hmap rfl hroom a m1 ep' s.world ha he (hcreate ep' he), ?_⟩
    rw [hs, ← hm1.1]
    refine hlocked.trans ?_
    simp only [storedInstance, hm1.1]
    rfl

section
variable {cancelId timeoutMs : UInt32}

section

variable (hcmd : cmd = .openSession uuid login params cancelId timeoutMs)
  (hgate : m₀.noticesOk = true)
include hcmd hgate

theorem openUserTa (hpta : getMut m₀.ptas uuid = none) :
    G none _ (openUserTa env uuid login params cancelId timeoutMs) m₀ := by
  subst hcmd
  refine W.bind (W.cancelled rfl rfl) fun b m1 hrun => ?_
  cases hrun
  split
  · exact W.pure _ m₀
  rename_i hcancel
  have hadm : Admitted m₀ cancelId := ⟨hgate, (Bool.not_eq_true _).mp hcancel⟩
  refine W.read_bind (fun _ _ _ => rfl) ?_
  cases hsingle : liveSingle m₀.instances uuid with
  | some iid =>
    refine W.read_bind (fun _ _ _ => rfl) ?_
    cases hi : m₀.instances.get iid with
    | none => exact W.abort m₀
    | some inst =>
      dsimp only
      split
      · exact W.pure _ m₀
      rename_i hcount
      refine W.bind (W.lockInstance iid m₀) fun r m1 hlock => ?_
      cases r with
      | error => exact W.pure _ m1
      | ok _ =>
        obtain ⟨i, hi', hb, rfl⟩ := lockInstance_ok hlock
        cases hi'.symm.trans hi
        refine W.bindAndUnlock rfl (.openSession ..) fun i1 ep hi1 hep => W.maps fun _ => ?_
        have hlocked := get_lock (t := m₀.tables) hi
        cases hi1.symm.trans hlocked
        refine ⟨inst, .reused hadm hpta hsingle hi ((Bool.not_eq_true _).mp hcount) hb ?_, hlocked⟩
        exact Option.isSome_iff_exists.mpr ⟨ep, hep⟩
  | none =>
    refine W.read_bind (fun _ _ _ => rfl) ?_
    cases hearly : get m₀.early uuid with
    | some ta =>
      refine W.instantiateAndBind rfl (.openSession ..) rfl
        (fun hu a _ => .early uuid login params cancelId timeoutMs ta a hearly hu) ?_
      rintro rfl hroom a m1 ep w ha he hcreate
      cases ha
      exact .created hadm hpta hsingle hearly hroom he hcreate
    | none =>
      refine W.read_bind (fun _ _ _ => rfl) ?_
      cases hy : m₀.yielding with
      | some => exact W.pure _ m₀
      | none =>
        exact W.bind (W.pends (.asks uuid login params cancelId timeoutMs hy))
          fun _ m1 _ => W.pure _ m1

theorem open_ : G none _ (open_ env uuid login params cancelId timeoutMs) m₀ := by
  refine W.bind (W.cancelled (by rw [hcmd]; rfl) rfl) fun b m1 hrun => ?_
  cases hrun
  split
  · exact W.pure _ m₀
  rename_i hcancel
  refine W.read_bind (fun _ _ _ => rfl) ?_
  cases hpta : getMut m₀.ptas uuid with
  | none => exact W.openUserTa hcmd hgate hpta
  | some pta =>
    subst hcmd
    have hcalls : CallsPtaOpenOrClose m₀ (.openSession uuid login params cancelId timeoutMs) :=
      ⟨⟨hgate, (Bool.not_eq_true _).mp hcancel⟩, by rw [hpta]; rfl⟩
    refine W.bind (W.ptaOpen hcalls pta params m₀) fun answer m1 _ => ?_
    obtain ⟨r, params'⟩ := answer
    cases r with
    | error => exact W.pure _ m1
    | ok =>
      refine W.bind (W.records rfl _ m1) fun sid m2 _ => ?_
      cases sid with
      | none | some => exact W.pure _ m2

end

end

variable {session : SessionId}

theorem invoke {cmdId cancelId timeoutMs : UInt32}
    (hcmd : cmd = .invoke session cmdId params cancelId timeoutMs) (hgate : m₀.noticesOk = true) :
    G none _ (invoke env session cmdId params cancelId) m₀ := by
  subst hcmd
  refine W.bind (W.cancelled rfl rfl) fun b m1 hrun => ?_
  cases hrun
  split
  · exact W.pure _ m₀
  rename_i hcancel
  refine W.read_bind (fun _ _ _ => rfl) ?_
  cases hs : m₀.sessions.get session with
  | none => exact W.pure _ m₀
  | some sess =>
    dsimp only
    split
    · exact W.pure _ m₀
    rename_i hstate
    cases hk : sess.kind with
    | pta =>
      refine W.read_bind (fun _ _ _ => rfl) ?_
      cases getMut m₀.ptas sess.uuid with
      | none => exact W.pure _ m₀
      | some pta =>
        exact W.ptaInvoke pta _ cmdId params (fun r => .done r.1 (some session) r.2) m₀
    | userTa =>
      cases hinst : sess.inst with
      | none => exact W.pure _ m₀
      | some iid =>
        refine W.bind (W.lockInstance iid m₀) fun r m1 hlock => ?_
        cases r with
        | error => exact W.pure _ m1
        | ok _ =>
          obtain ⟨i, hi, hb, rfl⟩ := lockInstance_ok hlock
          have hadm : Admitted m₀ cancelId := ⟨hgate, (Bool.not_eq_true _).mp hcancel⟩
          have hlocked := get_lock (t := m₀.tables) hi
          refine W.then_unlock (W.entering (W.invokeUserTa (.invoke ..) hlocked
            (W.maps fun _ => ?_)))
          exact ⟨i, .invoked hadm hs hstate hk hinst hi hb, hlocked⟩

theorem enterIfBound {entry : EntryPoint} {code : TaEntryPoints → σ → CallExit Unit × σ}
    (h : ∀ ep, Enters env m₀ cmd ep entry (code ep)) (returned : TaCall) (m : Machine σ A) :
    G none Unit (enterIfBound iid fun ep =>
      call (code ep) (fun _ => .ta iid returned) (.ta iid (.panicked entry))) m := by
  refine W.read_bind (fun _ _ _ => rfl) ?_
  cases he : (m.instances.get iid).bind (·.entries) with
  | none => exact W.pure _ m
  | some ep =>
    obtain ⟨i, hi, hep⟩ := Option.bind_eq_some_iff.mp he
    exact W.entering_call (h ep) ⟨i, hi, .inl hep⟩ fun _ => returned

theorem closeUserTa (iid : InstanceId) (ctx : UInt64) (m : Machine σ A) :
    G none _ (closeUserTa env iid ctx) m := by
  refine W.bind (W.enterIfBound (fun _ => .closeSession ctx) (.closeSession ctx) m)
    fun _ m1 _ => ?_
  have hrelease : G none _ (releaseSession iid) m1 := by
    refine W.bind (W.counts iid m1 fun _ => rfl) fun _ m2 _ => W.read_bind (fun _ _ _ => rfl) ?_
    cases m2.instances.get iid with
    | none | some => exact W.pure _ m2
  refine W.bind hrelease fun last m2 _ => ?_
  split
  · exact W.bind (W.enterIfBound (fun _ => .destroy) .destroy m2) fun _ m3 _ =>
      W.bind (W.kills iid m3) fun _ m4 _ => W.bind (W.drops iid m4) fun _ m5 _ => W.pure _ m5
  · exact W.bind (W.unlockInstance iid m2) fun _ m3 _ => W.pure _ m3

theorem close (hcmd : cmd = .closeSession session)
    (hgate : m₀.noticesOk = true) : G none _ (close env session) m₀ := by
  subst hcmd
  refine W.bind (W.takes session m₀) fun r m1 hrun => ?_
  rw [takeSession_apply] at hrun
  cases hrun
  cases hs : m₀.sessions.get session with
  | none => exact W.pure _ _
  | some sess =>
    dsimp only
    cases hk : sess.kind with
    | pta =>
      refine W.read_bind (fun _ _ _ => rfl) ?_
      dsimp only [after]
      cases hpta : getMut m₀.ptas sess.uuid with
      | none => exact W.pure _ _
      | some pta =>
        have hcalls : CallsPtaOpenOrClose m₀ (.closeSession session) :=
          ⟨hgate, sess, hs, hk, by rw [hpta]; rfl⟩
        exact W.bind (W.ptaClose hcalls pta _ _) fun _ m2 _ => W.pure _ m2
    | userTa =>
      cases sess.inst with
      | none => exact W.pure _ _
      | some iid =>
        refine W.bind (W.lockInstance iid _) fun r m2 _ => ?_
        cases r with
        | error => exact W.pure _ m2
        | ok => exact W.closeUserTa iid sess.taSessCtx m2

theorem parsing (x : Fallible UInt32 α) (m : Machine σ A) : G none _ (parsing x) m := by
  cases x with
  | ok | err => exact W.pure _ m
  | panic => exact W.abort m

theorem loadTaAnswer {bytes : List UInt8} {y : Yielding}
    (hcmd : cmd = .rpcComplete (.loadTa bytes)) (hgate : m₀.noticesOk = true)
    (hy : m₀.yielding = some y) :
    G none _ (loadTaAnswer env y bytes) { m₀ with yielding := none } := by
  subst hcmd
  refine W.bind (W.cancelled (by rw [operationId, hy]; rfl) rfl) fun b m1 hrun => ?_
  cases hrun
  split
  · exact W.pure _ _
  rename_i hcancel
  have hadm : Admitted m₀ y.cancelId := ⟨hgate, (Bool.not_eq_true _).mp hcancel⟩
  refine W.bind (W.parsing _ _) fun loaded m1 hload => ?_
  cases loaded with
  | error => exact W.pure _ m1
  | ok image =>
    obtain ⟨rfl, hloaded⟩ := parsing_value hload
    dsimp only
    split
    · exact W.pure _ _
    rename_i hu
    refine W.bind (W.newSpace _) fun a m1 hnew => ?_
    cases hnew
    refine W.bind (W.parsing _ _) fun mapped m1 hmap => ?_
    cases mapped with
    | error => exact W.pure _ m1
    | ok v =>
      obtain ⟨rfl, hmapped⟩ := parsing_value hmap
      obtain ⟨entries, a⟩ := v
      have hload := hloaded image rfl
      have hmap := hmapped _ rfl
      refine W.instantiateAndBind rfl (.pending _ y hy) rfl (fun hu a' ha => ?_) ?_
      · cases ha a rfl
        exact .loaded bytes y image _ a entries hy hload hu hmap
      · rintro hu hroom a' m1 ep w ha rfl hcreate
        cases ha
        exact .loaded hy hadm hload hu hmap hroom hcreate

theorem rpcComplete {resp : RpcResponse} (hcmd : cmd = .rpcComplete resp)
    (hgate : m₀.noticesOk = true) : G none _ (rpcComplete env resp) m₀ := by
  refine W.read_bind (fun _ _ _ => rfl) ?_
  cases hy : m₀.yielding with
  | none => exact W.pure _ m₀
  | some =>
    refine W.bind (W.pends (hcmd ▸ .answers resp)) fun _ m1 hrun => ?_
    cases hrun
    cases resp with
    | loadTa => exact W.loadTaAnswer hcmd hgate hy
    | _ => exact W.pure _ _

theorem handle : G none _ (handle env cmd) m₀ := by
  refine W.bind W.gate fun b m1 hrun => ?_
  cases hrun
  split
  · exact W.pure _ m₀
  rename_i hclosed
  have hgate : m₀.noticesOk = true := by simpa using hclosed
  cases cmd with
  | openSession => exact W.open_ rfl hgate
  | invoke => exact W.invoke rfl hgate
  | closeSession => exact W.close rfl hgate
  | cancel => exact W.bind (W.cancels rfl) fun _ m1 _ => W.pure _ m1
  | rpcComplete => exact W.rpcComplete rfl hgate

end Walk

end Functions

end Rustee.Os
