import Rustee.OsRoutes

/-!
# The kernel refines the table machine

`dispatch_step` says once what a command can do: refuse, note a cancellation, yield a LOAD_TA
request, or perform acts of the table machine. It holds in every state that satisfies the kernel
invariant `KernelOk`, which every step keeps, and whose next ids are not in use (`FreshIds`).
-/

namespace Rustee.Os

open SlotTable Machine InstanceTable

variable {σ A S : Type} {env : Env σ A S} {m m' : Machine σ A} {iid : InstanceId}
  {i : Instance A} {u : Option Uuid}

/-! ### The invariant of the kernel -/

def FreshIds (m : Machine σ A) : Prop :=
  m.sessions.Fresh m.sessions.nextId ∧ m.instances.Fresh m.instances.nextId

instance (m : Machine σ A) : Decidable (FreshIds m) := by
  unfold FreshIds; infer_instance

structure KernelOk (m : Machine σ A) : Prop where
  tables : TablesOk m.tables
  current : m.currentInstance = none
  currentPta : m.currentPta = false
  /-- A TA that is being loaded has no Live single instance and is not an early TA. -/
  pending : ∀ y, m.yielding = some y →
    liveSingle m.instances y.uuid = none ∧ EarlyTas.get m.early y.uuid = none
  ptaSessions : ∀ s ∈ m.sessions.entries, s.kind = .pta → (PtaRegistry.getMut m.ptas s.uuid).isSome

/-! ### Steps -/

def Quiet (evs : List Event) : Prop := ∀ iid entry, .ta iid (.panicked entry) ∉ evs

def Event.isPanic : Event → Bool
  | .ta _ (.panicked _) => true
  | _ => false

theorem quiet_iff (evs : List Event) : (∀ ev ∈ evs, ev.isPanic = false) ↔ Quiet evs := by
  constructor
  · intro h iid entry hev
    exact absurd (h _ hev) (by simp [Event.isPanic])
  · intro h ev hev
    unfold Event.isPanic
    split
    · exact absurd hev (h _ _)
    · rfl

instance (evs : List Event) : Decidable (Quiet evs) := decidable_of_iff _ (quiet_iff evs)

/-- The session `sid` was opened for this request, on an instance of the requested TA. -/
def OpenedFor (y : Yielding) (t : Tables A) (sid : SessionId) : Prop :=
  ∃ s iid i, t.sessions.get sid = some s ∧ s.uuid = y.uuid ∧ s.client = y.login ∧
    s.inst = some iid ∧ t.instances.get iid = some i ∧ i.uuid = y.uuid ∧
    i.props.uuid = y.uuid

/-- A done answer of the request `y` whose session, if any, was opened for it. -/
def Answers (y : Yielding) (out : KernelOut) (t' : Tables A) : Prop :=
  ∃ result session params, out = .done result session params ∧
    ∀ sid, session = some sid → OpenedFor y t' sid

theorem answers_doneErr (y : Yielding) (code : UInt32) (t' : Tables A) :
    Answers y (.doneErr code) t' :=
  ⟨_, none, _, rfl, by simp⟩

/-- What a command can do. -/
inductive Step (m : Machine σ A) : KernelCmd → KernelOut → Machine σ A → Prop
  | refused (cmd : KernelCmd) (code : UInt32)
      (hrpc : ∀ resp, cmd = .rpcComplete resp → m.noticesOk = true → m.yielding = none) :
      Step m cmd (.doneErr code) m
  | cancelled (cancelId : UInt32) :
      Step m (.cancel cancelId) (.doneErr TEE_SUCCESS)
        { m with cancelledIds := m.cancelledIds ++ [cancelId] }
  | yielded (uuid : Uuid) (login : Login) (params : Params) (cancelId timeoutMs : UInt32)
      (hnone : m.yielding = none) (hsingle : liveSingle m.instances uuid = none)
      (hearly : EarlyTas.get m.early uuid = none) :
      Step m (.openSession uuid login params cancelId timeoutMs) (.rpc (.loadTa uuid))
        { m with yielding := some ⟨uuid, login, params, cancelId, timeoutMs⟩ }
  | acted {cmd out} (w : σ) (evs : List Event) (t' : Tables A) (u : Option Uuid)
      (hcmd : ∀ resp, cmd ≠ .rpcComplete resp) (hu : ∀ y, m.yielding = some y → u ≠ some y.uuid)
      (hacts : Acts m.ptas u m.tables evs t')
      (hpanic : Quiet evs ∨ out = .doneErr TEE_ERROR_TARGET_DEAD) :
      Step m cmd out (m.after w t' evs)
  | answered (resp : RpcResponse) (y : Yielding) (hy : m.yielding = some y) {out} (w : σ)
      (evs : List Event) (t' : Tables A) (hacts : Acts m.ptas (some y.uuid) m.tables evs t')
      (hpanic : Quiet evs ∨ out = .doneErr TEE_ERROR_TARGET_DEAD) (hdone : Answers y out t') :
      Step m (.rpcComplete resp) out { m.after w t' evs with yielding := none }

/-- How a function ends that runs inside a command. -/
inductive Runs (u : Option Uuid) (m : Machine σ A) : Exit KernelOut × Machine σ A → Prop
  | value (w : σ) (evs : List Event) (out : KernelOut) (t' : Tables A)
      (hacts : Acts m.ptas u m.tables evs t') (hquiet : Quiet evs) :
      Runs u m (.value out, m.after w t' evs)
  | taPanic (w : σ) (evs : List Event) (iid : InstanceId) (t : Tables A) (a : Option A)
      (hacts : Acts m.ptas u m.tables evs (t.kill iid)) :
      Runs u m (.unwind, m.unwound w ((t.lock iid).touch iid a) iid evs)
  | ptaPanic (w : σ) (evs : List Event) (t' : Tables A) (hacts : Acts m.ptas u m.tables evs t')
      (hquiet : Quiet evs) : Runs u m (.unwind, m.after w t' evs)
  | ptaHalt (w : σ) (evs : List Event) :
      Runs u m (.unwind, { m.after w m.tables evs with currentPta := true })

/-! ### Panics -/

theorem onPanic_unwound (env : Env σ A S) (iid : InstanceId) (hpta : m.currentPta = false)
    (hcur : m.currentInstance = none) (w : σ) (t : Tables A) (a : Option A) (evs : List Event) :
    ∃ w', onPanic env (m.unwound w ((t.lock iid).touch iid a) iid evs) =
      (.out (.doneErr TEE_ERROR_TARGET_DEAD), m.after w' (t.kill iid) evs) := by
  have hkill : (((t.instances.update iid fun i => { i with busy := true }).update iid fun i =>
      { i with aspace := a }).update iid fun i => { i with state := .dead, aspace := none }) =
      t.instances.update iid fun i =>
        { i with state := .dead, aspace := none, busy := true } := by
    have h1 : ((t.instances.update iid fun i => { i with busy := true }).update iid fun i =>
        { i with aspace := a }) =
        t.instances.update iid fun i => { i with busy := true, aspace := a } :=
      update_update fun _ => rfl
    rw [h1]
    exact update_update fun _ => rfl
  refine ⟨(onPanic env (m.unwound w ((t.lock iid).touch iid a) iid evs)).2.world, ?_⟩
  simp only [onPanic, onTaPanic, killInstance, unwound, after, hpta,
    Bool.false_eq_true, if_false, Tables.lock, Tables.touch, Tables.updateInstance, hkill,
    Tables.kill, hcur]

/-! ### From outcomes to acts -/

theorem Quiet.append {evs1 evs2 : List Event} (h1 : Quiet evs1) (h2 : Quiet evs2) :
    Quiet (evs1 ++ evs2) := by
  intro iid entry hmem
  rcases List.mem_append.mp hmem with h | h
  · exact h1 iid entry h
  · exact h2 iid entry h

theorem quiet_if {c : Prop} [Decidable c] {ev : Event}
    (h : ∀ iid entry, ev ≠ .ta iid (.panicked entry)) : Quiet (if c then [ev] else []) := by
  intro iid entry hmem
  by_cases hc : c
  · rw [if_pos hc, List.mem_singleton] at hmem
    exact h iid entry hmem.symm
  · rw [if_neg hc] at hmem
    exact absurd hmem (List.not_mem_nil)

variable {out : KernelOut} {evs : List Event} {t t' : Tables A}

theorem Binds.quiet {uuid : Uuid} {login : Login} (h : Binds iid i uuid login t evs out t') :
    Quiet evs := by
  cases h with
  | unmapped | refused => simp [Quiet]
  | unrecorded | recorded => exact (quiet_if (by simp)).append (by simp [Quiet])

variable {session : SessionId} {ctx : UInt64} {y : Yielding}

theorem Invokes.quiet (h : Invokes iid i session ctx t evs out t') : Quiet evs := by
  cases h with
  | unmapped => simp [Quiet]
  | answered => exact quiet_if (by simp)

theorem Closes.quiet (h : Closes iid i ctx t evs out t') : Quiet evs := by
  cases h with
  | kept => exact quiet_if (by simp)
  | destroyed => exact (quiet_if (by simp)).append (quiet_if (by simp))

theorem TablesOk.free (ok : TablesOk t) (hi : LiveAt t iid i) : i.busy = false := by
  cases (ok.getOk hi.get).2 with
  | live huuid hlive hbusy => exact hbusy
  | dead huuid hdead => exact absurd (hi.live.symm.trans hdead) (by decide)

theorem TablesOk.busy_of_dead (ok : TablesOk t) (hi : t.instances.get iid = some i)
    (hdead : i.state = .dead) : i.busy = true := by
  cases (ok.getOk hi).2 with
  | live huuid hlive => exact absurd (hlive.symm.trans hdead) (by decide)
  | dead huuid hd hbusy => exact hbusy

section Creation

variable {ptas : PtaRegistry} {props : TaProperties} {uuid : Uuid} {login : Login}
  {entries : Option TaEntryPoints} {t t' : Tables A} {evs : List Event} {out : KernelOut}

theorem liveAt_issue (hroom : t.instances.HasRoom)
    (hfresh : t.instances.Fresh t.instances.nextId) (aspace : A) :
    LiveAt (t.issue (newInstance uuid props aspace entries)) t.instances.nextId
      { newInstance uuid props aspace entries with id := t.instances.nextId } :=
  ⟨get_alloc hroom hfresh _, rfl⟩

theorem Binds.noInstance (h : Binds iid i uuid login t evs out t') (r : Option InstanceId) :
    .instanceIssued r ∉ evs := by
  cases h <;> cases i.entries <;> simp [acceptedBy]

theorem Instantiates.acts (h : Instantiates props uuid login entries t evs out t')
    (hs : t.sessions.Fresh t.sessions.nextId) (hi : t.instances.Fresh t.instances.nextId)
    (hsingle : liveSingle t.instances uuid = none) :
    Acts ptas (some uuid) t evs t' ∧ Quiet evs := by
  cases h with
  | mismatch => exact ⟨.one (.idle t), by simp [Quiet]⟩
  | noSlot hu hroom => exact ⟨.one (.noSlot t hroom), by simp [Quiet]⟩
  | refused hu hroom he code hcode =>
    exact ⟨.one (.createRefused t hroom hi code hcode), by simp [Quiet]⟩
  | bound hu hroom aspace evs out t' hbinds =>
    subst hu
    have hcreated : Act ptas (some props.uuid) t _ _ :=
      .created t props aspace entries rfl hroom hi hsingle
    refine ⟨.two hcreated (.bound _ _ login out (liveAt_issue hroom hi aspace) (.inr rfl) hs
      hbinds) hroom hi rfl rfl hbinds.noInstance hbinds.touches, ?_⟩
    have hcreate : Quiet (createdBy t.instances.nextId entries) := quiet_if (by simp)
    have hissue : Quiet [.instanceIssued (some t.instances.nextId)] := by simp [Quiet]
    exact hissue.append (hcreate.append hbinds.quiet)

theorem InstantiatePanics.acts (h : InstantiatePanics props uuid entries t evs iid t')
    (hi : t.instances.Fresh t.instances.nextId) (hsingle : liveSingle t.instances uuid = none) :
    Acts ptas (some uuid) t evs (t'.kill iid) := by
  cases h with
  | create hu hroom aspace =>
    subst hu
    exact .one (.createPanicked t props aspace entries rfl hroom hi hsingle)
  | openSession hu hroom aspace =>
    subst hu
    have hcreated : Act ptas (some props.uuid) t _ _ :=
      .created t props aspace entries rfl hroom hi hsingle
    exact .two hcreated (.panicked _ _ _ .openSession (liveAt_issue hroom hi aspace)) hroom hi
      rfl rfl (by simp) (touches_kill _ _ _)

theorem Instantiates.opened (h : Instantiates props y.uuid y.login entries t evs out t')
    (hs : t.sessions.Fresh t.sessions.nextId) (hi : t.instances.Fresh t.instances.nextId) :
    Answers y out t' := by
  cases h with
  | mismatch | noSlot | refused => exact ⟨_, none, _, rfl, by simp⟩
  | bound hu hroom aspace evs out t' hbinds =>
    cases hbinds with
    | unmapped | refused | unrecorded => exact ⟨_, none, _, rfl, by simp⟩
    | recorded a ctx params hsroom =>
      refine ⟨_, _, _, rfl, ?_⟩
      intro sid hsid
      rw [Option.some.injEq] at hsid
      subst hsid
      have hinst := get_update_self
        (f := fun i : Instance A =>
          { i with aspace := a, sessionCount := countUp i.sessionCount })
        (fun _ => rfl) (get_alloc hroom hi (newInstance y.uuid props aspace entries))
      exact ⟨_, _, _, get_alloc hsroom hs _, rfl, rfl, rfl, hinst, rfl, hu⟩

end Creation

/-! ### Opening -/

theorem liveAt_of_liveSingle (ok : TablesOk t) {uuid : Uuid}
    (h : liveSingle t.instances uuid = some iid) :
    ∃ i, LiveAt t iid i ∧ i.uuid = uuid := by
  obtain ⟨i, hfind, hid⟩ := Option.map_eq_some_iff.mp h
  have hprop := List.find?_some hfind
  simp only [isLiveSingle, Bool.and_eq_true, beq_iff_eq] at hprop
  refine ⟨i, ⟨?_, hprop.2⟩, hprop.1.1⟩
  exact ok.instances.distinct.get_eq_some.mpr ⟨List.mem_of_find?_eq_some hfind, hid⟩

theorem bindAndUnlock_runs (env : Env σ A S) (ok : KernelOk m) (hf : FreshIds m)
    (hi : LiveAt m.tables iid i)
    (hmulti : i.props.multiSession = true ∨ i.sessionCount = 0) (login : Login) (params : Params) :
    Runs none m (bindAndUnlock env iid i.uuid login params
      (m.after m.world (m.tables.lock iid) [])) := by
  have hout := bindAndUnlock_outcome env i.uuid login params hi.get (ok.tables.free hi)
    ok.current
  generalize bindAndUnlock env iid i.uuid login params
    (m.after m.world (m.tables.lock iid) []) = r at hout
  cases hout with
  | value w evs out t' hbinds =>
    exact .value w evs out t' (.one (.bound iid i login out hi hmulti hf.1 hbinds)) hbinds.quiet
  | unwind w evs n t a hq =>
    obtain ⟨rfl, rfl, rfl⟩ := hq
    exact .taPanic w _ _ _ a (.one (.panicked _ _ i .openSession hi))

/-- Creating an instance of a TA that has no Live single one, and binding to it. -/
theorem instantiateAndBind_runs (env : Env σ A S) (ok : KernelOk m) (hf : FreshIds m)
    (props : TaProperties) (uuid : Uuid) (login : Login) (params : Params)
    (entries : Option TaEntryPoints) (aspace : Option A)
    (hsingle : liveSingle m.instances uuid = none) :
    Runs (some uuid) m (instantiateAndBind env props uuid login params entries aspace m) := by
  have hout := instantiateAndBind_outcome env props uuid login params entries aspace hf.2
    ok.current
  generalize instantiateAndBind env props uuid login params entries aspace m = r at hout
  cases hout with
  | value w evs out t' hinst =>
    obtain ⟨hacts, hquiet⟩ := hinst.acts hf.1 hf.2 hsingle
    exact .value w evs out t' hacts hquiet
  | unwind w evs n t a hpanics => exact .taPanic w evs n t a (hpanics.acts hf.2 hsingle)

theorem TablesOk.sessionAt (ok : TablesOk t) {sid : SessionId} {s : Session}
    (hs : t.sessions.get sid = some s) (hk : s.kind = .userTa) :
    ∃ i, SessionAt t sid s i.id ∧ t.instances.get i.id = some i ∧ Serves i s := by
  rcases ok.session s (get_some hs).1 with ⟨hpta, -, -⟩ | ⟨i, hi, hserves⟩
  · exact absurd (hk.symm.trans hpta) (by decide)
  · exact ⟨i, ⟨hs, hk, hserves.inst⟩, ok.instances.distinct.get_eq_some.mpr ⟨hi, rfl⟩, hserves⟩

theorem invokeLocked_runs (env : Env σ A S) (ok : KernelOk m)
    {sess : Session} (hat : SessionAt m.tables session sess iid) (hi : LiveAt m.tables iid i)
    (cmdId : UInt32) (params : Params) :
    Runs none m (invokeLocked env session sess iid cmdId params
      (m.after m.world (m.tables.lock iid) [])) := by
  have hout : Outcome m _ _ (invokeLocked env session sess iid cmdId params _) :=
    (does_invokeLocked hi.get (ok.tables.free hi) ok.current).outcome m.world
  generalize invokeLocked env session sess iid cmdId params _ = r at hout ⊢
  cases hout with
  | value w evs out t' hinv =>
    exact .value w evs out t' (.one (.invoked session sess iid i out hat hi hinv.1)) hinv.1.quiet
  | unwind w evs n t a hq =>
    obtain ⟨rfl, rfl, rfl⟩ := hq
    exact .taPanic w _ _ _ a (.one (.panicked _ _ i .invoke hi))

theorem closeUserTa_runs (env : Env σ A S) (ok : KernelOk m)
    {sess : Session} (hat : SessionAt m.tables session sess iid) (hi : LiveAt m.tables iid i) :
    Runs none m (closeUserTa env iid sess.taSessCtx (m.after m.world
      ((m.tables.withSessions (m.sessions.take session).2).lock iid) [])) := by
  have hout := (closeUserTa_outcome (m := m.after m.world
    (m.tables.withSessions (m.sessions.take session).2) []) env sess.taSessCtx hi.get
    (ok.tables.free hi) ok.current).continue
  rw [after_after] at hout
  replace hout : Outcome m _ _ (closeUserTa env iid sess.taSessCtx (m.after m.world
    ((m.tables.withSessions (m.sessions.take session).2).lock iid) [])) := hout
  generalize closeUserTa env iid sess.taSessCtx _ = r at hout ⊢
  cases hout with
  | value w _ out t' hp =>
    obtain ⟨evs, rfl, hcloses⟩ := hp
    exact .value w _ out t' (.one (.closed session sess iid i out hat hi hcloses)) hcloses.quiet
  | unwind w _ n t a hp =>
    obtain ⟨evs, rfl, hpanics⟩ := hp
    have hn : n = iid := by cases hpanics <;> rfl
    subst hn
    exact .taPanic w _ _ t a (.one (.closePanicked session sess n i hat hi hpanics))

/-! ### Commands -/

variable {cmd : KernelCmd}

/-- A function that runs inside a command, with `on_panic` behind it. -/
theorem Runs.step {r : Exit KernelOut × Machine σ A} (hruns : Runs u m r) (ok : KernelOk m)
    (hcmd : ∀ resp, cmd ≠ .rpcComplete resp)
    (hu : ∀ y, m.yielding = some y → u ≠ some y.uuid) (hd : settle env r = (.out out, m')) :
    Step m cmd out m' := by
  cases hruns with
  | value w evs out' t' hacts hquiet =>
    cases hd
    exact .acted w evs t' u hcmd hu hacts (.inl hquiet)
  | taPanic w evs iid t a hacts =>
    obtain ⟨w', hpanic⟩ := onPanic_unwound env iid ok.currentPta ok.current w t a evs
    cases hpanic.symm.trans hd
    exact .acted w' evs _ u hcmd hu hacts (.inr rfl)
  | ptaPanic w evs t' hacts hquiet =>
    have hpanic : onPanic env (m.after w t' evs) =
        (.out (.doneErr TEE_ERROR_TARGET_DEAD), m.after w t' evs) := by
      simp [onPanic, onTaPanic, after, ok.currentPta, ok.current]
    cases hpanic.symm.trans hd
    exact .acted w evs t' u hcmd hu hacts (.inl hquiet)
  | ptaHalt =>
    simp only [settle, onPanic, if_true] at hd
    cases hd

theorem step_loaded {bytes : List UInt8} {w : σ}
    {props : TaProperties} {entries : Option TaEntryPoints} {aspace : Option A}
    (ok : KernelOk m) (hf : FreshIds m) (hy : m.yielding = some y)
    (hd : settle env (instantiateAndBind env props y.uuid y.login y.params entries aspace
      (after { m with yielding := none } w m.tables [])) = (.out out, m')) :
    Step m (.rpcComplete (.loadTa bytes)) out m' := by
  have hsingle := (ok.pending y hy).1
  have hout := (instantiateAndBind_outcome (m := after { m with yielding := none } w
    m.tables []) env props y.uuid y.login y.params entries aspace hf.2 ok.current).continue
  generalize instantiateAndBind env props y.uuid y.login y.params entries aspace _ = r at hout hd
  cases hout with
  | value w evs out' t' hp =>
    obtain ⟨evs, rfl, hinst⟩ := hp
    obtain ⟨hacts, hquiet⟩ : Acts m.ptas (some y.uuid) m.tables evs t' ∧ Quiet evs :=
      hinst.acts hf.1 hf.2 hsingle
    cases hd
    exact .answered _ y hy w _ t' hacts (.inl hquiet) (hinst.opened hf.1 hf.2)
  | unwind w evs iid t a hp =>
    obtain ⟨evs, rfl, hpanics⟩ := hp
    obtain ⟨w', hpanic⟩ := onPanic_unwound (m := { m with yielding := none }) env iid
      ok.currentPta ok.current w t a ([] ++ evs)
    cases hpanic.symm.trans hd
    exact .answered _ y hy w' _ _ (hpanics.acts hf.2 hsingle) (.inr rfl) (answers_doneErr y _ _)

/-- One act of a command that loads nothing, and its answer. -/
theorem step_of_act {evs : List Event} {t' : Tables A} {w : σ} {out' : KernelOut} (ok : KernelOk m)
    (hcmd : ∀ resp, cmd ≠ .rpcComplete resp) (hact : Act m.ptas none m.tables evs t')
    (hquiet : Quiet evs) (hd : settle env (.value out', m.after w t' evs) = (.out out, m')) :
    Step m cmd out m' :=
  (Runs.value w evs out' t' (.one hact) hquiet).step ok hcmd (by simp) hd

theorem multi_of_admitted {multi : Bool} {count : UInt16}
    (h : (!multi && decide (count > 0)) = false) : multi = true ∨ count = 0 := by
  rw [Bool.and_eq_false_iff, Bool.not_eq_false', decide_eq_false_iff_not] at h
  exact h.imp_right fun h => UInt16.le_zero_iff.mp (UInt16.not_lt.mp h)

section Served

variable {sess : Session}

theorem TablesOk.live_of_ready (ok : TablesOk t) (hs : t.sessions.get session = some sess)
    (hk : sess.kind = .userTa) (hinst : sess.inst = some iid) (hstate : sess.state ≠ .dead) :
    ∃ i, SessionAt t session sess iid ∧ LiveAt t iid i := by
  obtain ⟨j, hat, hget, hserves⟩ := ok.sessionAt hs hk
  cases hinst.symm.trans hserves.inst
  exact ⟨j, hat, hget, (hserves.state.resolve_right fun h => hstate h.2).1⟩

theorem TablesOk.live_of_unlocked (ok : TablesOk t) (hs : t.sessions.get session = some sess)
    (hk : sess.kind = .userTa) (hinst : sess.inst = some iid)
    (hi : t.instances.get iid = some i) (hb : i.busy = false) :
    SessionAt t session sess iid ∧ LiveAt t iid i := by
  obtain ⟨j, hat, hget, hserves⟩ := ok.sessionAt hs hk
  cases hinst.symm.trans hserves.inst
  cases hi.symm.trans hget
  refine ⟨hat, hget, hserves.state.elim And.left fun h => ?_⟩
  cases hb.symm.trans (ok.busy_of_dead hget h.1)

/-- A session whose instance stays locked is poisoned. -/
theorem TablesOk.dead_of_locked (ok : TablesOk t) (hs : t.sessions.get session = some sess)
    (hk : sess.kind = .userTa)
    (hbusy : ∀ iid i, sess.inst = some iid → t.instances.get iid = some i → i.busy = true) :
    ∃ i, SessionAt t session sess i.id ∧ t.instances.get i.id = some i ∧ i.state = .dead := by
  obtain ⟨j, hat, hget, hserves⟩ := ok.sessionAt hs hk
  refine ⟨j, hat, hget, hserves.state.elim (fun h => ?_) And.left⟩
  cases (ok.free ⟨hget, h.1⟩).symm.trans (hbusy j.id j hserves.inst hget)

end Served

theorem dispatch_step (env : Env σ A S) (ok : KernelOk m) (hf : FreshIds m)
    (hd : dispatch env cmd m = (.out out, m')) : Step m cmd out m' := by
  have hroute := handle_routes env cmd m
  rw [dispatch_eq] at hd
  generalize handle env cmd m = r at hroute hd
  cases hroute with
  | refused hcode hrpc =>
    cases hd
    exact .refused _ _ hrpc
  | cancelled cancelId =>
    cases hd
    exact .cancelled cancelId
  | yielded hnone hsingle hearly =>
    cases hd
    exact .yielded _ _ _ _ _ hnone hsingle hearly
  | @reused uuid login params cancelId timeoutMs iid i hadm hpta hsingle hi hcount hb =>
    obtain ⟨i', hat, rfl⟩ := liveAt_of_liveSingle ok.tables hsingle
    cases hi.symm.trans hat.get
    exact (bindAndUnlock_runs env ok hf hat (multi_of_admitted hcount) login params).step ok
      (by simp) (by simp) hd
  | created hadm hpta hsingle hearly =>
    refine (instantiateAndBind_runs env ok hf _ _ _ _ _ _ hsingle).step ok (by simp) ?_ hd
    -- a pending TA is not an early one
    intro y hy heq
    rw [Option.some.inj heq, (ok.pending y hy).2] at hearly
    cases hearly
  | ptaRefused hreg w e =>
    exact step_of_act ok (by simp) (.ptaCalled _ _ _ (.refused e)) (by simp [Quiet]) hd
  | ptaPanicked hreg w =>
    exact (Runs.ptaPanic (u := none) w _ _ (.one (.ptaCalled _ _ _ (.panicked .open_)))
      (by simp [Quiet])).step ok (by simp) (by simp) hd
  | ptaOpened hreg w ctx params' hroom =>
    exact step_of_act ok (by simp) (.ptaOpened m.tables _ _ ctx hreg hroom hf.1) (by simp [Quiet])
      hd
  | ptaUnrecorded hreg w ctx hroom =>
    exact step_of_act ok (by simp) (.ptaUnrecorded m.tables _ _ ctx hroom) (by simp [Quiet]) hd
  | @ptaInvoked session cmdId params cancelId timeoutMs sess hs hk w answer params' =>
    have hsame : { m.after w m.tables [.pta sess.uuid (.invoke sess.taSessCtx)] with
        currentPta := false } = m.after w m.tables [.pta sess.uuid (.invoke sess.taSessCtx)] := by
      simp only [after, ok.currentPta]
    rw [hsame] at hd
    exact step_of_act ok (by simp) (.ptaCalled _ _ _ (.invoke (get_some hs).1 hk rfl))
      (by simp [Quiet]) hd
  | ptaHalted hs hk w => exact (Runs.ptaHalt (u := none) w _).step ok (by simp) (by simp) hd
  | @invoked session cmdId params cancelId timeoutMs sess iid i hadm hs hstate hk hinst hi hb =>
    obtain ⟨j, hat, hlive⟩ := ok.tables.live_of_ready hs hk hinst hstate
    exact (invokeLocked_runs env ok hat hlive cmdId params).step ok (by simp) (by simp) hd
  | ptaClosed hs hk w =>
    exact step_of_act ok (by simp) (.ptaClosed m.tables _ _ hs hk _ .closed) (by simp [Quiet]) hd
  | ptaClosePanicked hs hk w =>
    exact (Runs.ptaPanic (u := none) w _ _ (.one (.ptaClosed m.tables _ _ hs hk _ .panicked))
      (by simp [Quiet])).step ok (by simp) (by simp) hd
  | @closed session sess iid i hs hk hinst hi hb =>
    obtain ⟨hat, hlive⟩ := ok.tables.live_of_unlocked hs hk hinst hi hb
    exact (closeUserTa_runs env ok hat hlive).step ok (by simp) (by simp) hd
  | @taken session sess out' hs hout hwhy =>
    rcases hwhy with ⟨hk, hnone⟩ | ⟨hk, hbusy⟩
    · have hreg := ok.ptaSessions sess (get_some hs).1 hk
      rw [hnone] at hreg
      cases hreg
    · obtain ⟨j, hat, hget, hdead⟩ := ok.tables.dead_of_locked hs hk hbusy
      exact step_of_act ok (by simp) (.closedDead m.tables _ _ _ j hat hget hdead)
        (by simp [Quiet]) hd
  | answered hy code w =>
    cases hd
    exact .answered _ _ hy w [] m.tables (.one (.idle _)) (.inl (by simp [Quiet]))
      (answers_doneErr _ code m.tables)
  | aborted => cases hd
  | loaded hy => exact step_loaded ok hf hy hd

theorem Step.acts (h : Step m cmd out m') :
    ∃ u evs, Acts m.ptas u m.tables evs m'.tables ∧ m'.log = m.log ++ evs ∧
      (Quiet evs ∨ out = .doneErr TEE_ERROR_TARGET_DEAD) ∧ m'.noticesOk = m.noticesOk := by
  have hidle : Acts m.ptas none m.tables [] m.tables := .one (.idle m.tables)
  have hquiet : Quiet [] := by simp [Quiet]
  cases h with
  | refused | cancelled | yielded =>
    exact ⟨none, [], hidle, (List.append_nil _).symm, .inl hquiet, rfl⟩
  | acted w evs t' u hcmd hu hacts hpanic => exact ⟨u, evs, hacts, rfl, hpanic, rfl⟩
  | answered resp y hy w evs t' hacts hpanic =>
    exact ⟨some y.uuid, evs, hacts, rfl, hpanic, rfl⟩

end Rustee.Os
