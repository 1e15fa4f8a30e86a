import Rustee.OsSignedImages
import Rustee.OsWorld

/-!
# The LOAD_TA protocol

An open that needs an image yields a request and remembers it; any commands may come before the
answer, which resumes the open. `LoadProtocol` says what holds over every interleaving,
`AnswersServed` what a session that comes out of it is worth. Only the second needs ids that are
not in use.
-/

namespace Rustee.Os

open Prog List Machine

variable {σ A S : Type} {env : Env σ A S} {m m₀ m' : Machine σ A}

/-! ### Which commands ask -/

def KernelOut.IsDone (out : KernelOut) : Prop :=
  ∃ result session params, out = .done result session params

theorem isDone_done (result : TeeResult) (session : Option SessionId) (params : Params) :
    (KernelOut.done result session params).IsDone :=
  ⟨result, session, params, rfl⟩

theorem isDone_doneErr (code : UInt32) : (KernelOut.doneErr code).IsDone := isDone_done _ _ _

theorem recordSession_done (iid : InstanceId) (uuid : Uuid) (login : Login) (ctx : UInt64)
    (params : Params) :
    Returns KernelOut.IsDone (recordSession iid uuid login ctx params : KM σ A KernelOut) := by
  refine returns_bind fun sid => ?_
  cases sid with
  | none => exact returns_pure (isDone_doneErr _)
  | some => exact returns_bind fun _ => returns_pure (isDone_done _ _ _)

theorem bindAndUnlock_done (env : Env σ A S) (iid : InstanceId) (uuid : Uuid) (login : Login)
    (params : Params) : Returns KernelOut.IsDone (bindAndUnlock env iid uuid login params) := by
  have hbind : Returns KernelOut.IsDone (bindSession env iid uuid login params) := by
    refine returns_bind fun entries => ?_
    cases entries with
    | none => exact recordSession_done iid uuid login 0 params
    | some =>
      refine returns_bind fun r => ?_
      cases r with
      | error => exact returns_pure (isDone_doneErr _)
      | ok =>
        refine returns_bind fun answer => ?_
        refine returns_bind fun _ => ?_
        split
        · exact returns_pure (isDone_done _ _ _)
        · exact recordSession_done _ _ _ _ _
  refine hbind.bind fun out hout => ?_
  exact returns_bind fun _ => returns_pure hout

theorem instantiateAndBind_done (env : Env σ A S) (props : TaProperties) (uuid : Uuid)
    (login : Login) (params : Params) (entries : Option TaEntryPoints) (aspace : Option A) :
    Returns KernelOut.IsDone (instantiateAndBind env props uuid login params entries aspace) := by
  unfold instantiateAndBind
  split
  · exact returns_pure (isDone_doneErr _)
  refine returns_bind fun a => ?_
  refine returns_bind fun iid => ?_
  cases iid with
  | none => exact returns_pure (isDone_doneErr _)
  | some iid =>
    refine returns_bind fun r => ?_
    cases r with
    | error => exact returns_bind fun _ => returns_pure (isDone_doneErr _)
    | ok _ =>
      cases entries with
      | none => exact bindAndUnlock_done env iid uuid login params
      | some =>
        refine returns_bind fun code => ?_
        split
        · exact returns_bind fun _ => returns_bind fun _ =>
            returns_pure (isDone_done _ _ _)
        · exact bindAndUnlock_done env iid uuid login params

theorem invokeLocked_done (env : Env σ A S) (session : SessionId) (sess : Session)
    (iid : InstanceId) (cmdId : UInt32) (params : Params) :
    Returns KernelOut.IsDone (invokeLocked env session sess iid cmdId params) := by
  refine Returns.bind (Q := KernelOut.IsDone) ?_ fun out hout =>
    returns_bind fun _ => returns_pure hout
  refine returns_bind fun _ => Returns.bind (Q := KernelOut.IsDone) ?_ fun out hout =>
    returns_bind fun _ => returns_pure hout
  refine returns_bind fun r => ?_
  cases r with
  | error => exact returns_pure (isDone_doneErr _)
  | ok => exact returns_bind fun _ => returns_bind fun _ => returns_pure (isDone_done _ _ _)

theorem closeUserTa_done (env : Env σ A S) (iid : InstanceId) (ctx : UInt64) :
    Returns KernelOut.IsDone (closeUserTa env iid ctx) := by
  have hclosed : closed.IsDone := isDone_done _ _ _
  refine returns_bind fun _ => returns_bind fun last => ?_
  split
  · exact returns_bind fun _ => returns_bind fun _ => returns_bind fun _ => returns_pure hclosed
  · exact returns_bind fun _ => returns_pure hclosed

variable {r : HalRpc}

theorem not_isDone_rpc : ¬ (KernelOut.rpc r).IsDone := by
  rintro ⟨result, session, params, h⟩
  cases h

/-- The step asked the REE for the image of a TA. -/
structure Asks (step : Taken σ A) (y : Yielding) : Prop where
  cmd : step.cmd = .openSession y.uuid y.login y.params y.cancelId y.timeoutMs
  out : step.out = .rpc (.loadTa y.uuid)

variable {cmd : KernelCmd}

theorem handle_asks (h : handle env cmd m = (.value (.rpc r), m')) :
    ∃ y, Asks ⟨m, cmd, .rpc r, m'⟩ y ∧ m.yielding = none ∧ m' = { m with yielding := some y } := by
  have hroute := handle_routes env cmd m
  generalize handle env cmd m = x at hroute h
  cases hroute with
  | yielded hnone =>
    cases h
    exact ⟨⟨_, _, _, _, _⟩, ⟨rfl, rfl⟩, hnone, rfl⟩
  | reused => exact absurd (bindAndUnlock_done env _ _ _ _ _ _ _ h) not_isDone_rpc
  | created | loaded =>
    exact absurd (instantiateAndBind_done env _ _ _ _ _ _ _ _ _ h) not_isDone_rpc
  | invoked => exact absurd (invokeLocked_done env _ _ _ _ _ _ _ _ h) not_isDone_rpc
  | closed => exact absurd (closeUserTa_done env _ _ _ _ _ h) not_isDone_rpc
  | taken hs hout =>
    cases h
    exact absurd rfl (hout r)
  | _ => cases h

theorem onPanic_done {out : KernelOut} (h : onPanic env m = (.out out, m')) : out.IsDone := by
  unfold onPanic at h
  split at h
  · cases h
  · cases h
    unfold onTaPanic
    split
    · exact isDone_doneErr _
    · exact isDone_doneErr _

theorem dispatch_asks (hd : dispatch env cmd m = (.out (.rpc r), m')) :
    ∃ y, Asks ⟨m, cmd, .rpc r, m'⟩ y ∧ m.yielding = none ∧ m' = { m with yielding := some y } := by
  rw [dispatch] at hd
  rcases hrun : handle env cmd m with ⟨exit, m1⟩
  rw [hrun] at hd
  cases exit with
  | value =>
    cases hd
    exact handle_asks hrun
  | unwind => exact absurd (onPanic_done hd) not_isDone_rpc
  | abort => cases hd

/-! ### What the other commands do meanwhile -/

def pendingFrame (σ A : Type) : Frame (Machine σ A) where
  rel m m' := m'.yielding = m.yielding
  refl _ := rfl
  trans h₁ h₂ := h₂.trans h₁

theorem pendingFrame_tolerates : ToleratesDrops (pendingFrame σ A) (fun _ => True) where
  passes hsame _ _ := hsame.yielding
  logs _ hsame _ _ := hsame.yielding
  updates _ _ _ hsame _ _ := hsame.yielding
  drops _ hsame _ _ := hsame.yielding

theorem pendingFrame_alloc (i : Instance A) : Keeps (pendingFrame σ A) (allocInstance i) :=
  keeps_transform fun _ => rfl

variable {y : Yielding}

/-- Only the answer takes a pending request away, and nothing replaces it. -/
theorem dispatch_waits (hy : m.yielding = some y)
    (hcmd : ∀ resp, cmd ≠ .rpcComplete resp) : (dispatch env cmd m).2.yielding = some y := by
  have hkept : (pendingFrame σ A).rel m (dispatch env cmd m).2 := by
    apply pendingFrame_tolerates.dispatch
    apply pendingFrame_tolerates.handle callsOk_true
    · intro _ _
      trivial
    · intro i _
      exact pendingFrame_alloc i
    · intro y' hpends
      cases hpends with
      | asks uuid login params cancelId timeoutMs hnone =>
        exact absurd (hnone.symm.trans hy) (by simp)
      | answers resp => exact absurd rfl (hcmd resp)
  exact hkept.trans hy

variable {login : Login} {params : Params} {cancelId timeoutMs : UInt32} {uuid : Uuid}

/-- An open of this TA gets as far as asking for its image. -/
structure NeedsLoad (m : Machine σ A) (uuid : Uuid) (cancelId : UInt32) : Prop where
  running : m.cancelledIds.any (· == cancelId) = false
  notPta : PtaRegistry.getMut m.ptas uuid = none
  notLive : InstanceTable.liveSingle m.instances uuid = none
  notEarly : EarlyTas.get m.early uuid = none

theorem dispatch_busy (hgate : m.noticesOk = true)
    (hy : m.yielding = some y) (hneeds : NeedsLoad m uuid cancelId) :
    dispatch env (.openSession uuid login params cancelId timeoutMs) m =
      (.out (.doneErr TEE_ERROR_BUSY), m) := by
  have hrun : handle env (.openSession uuid login params cancelId timeoutMs) m =
      (.value (.doneErr TEE_ERROR_BUSY), m) := by
    rw [handle_of_gate env hgate]
    simp only [execute, open_, openUserTa, cancelled, bind_apply, gets_apply,
      hneeds.running, hneeds.notPta, hneeds.notLive, hneeds.notEarly, hy, Bool.false_eq_true,
      if_false, Option.isSome_some, if_true, pure_apply]
  rw [dispatch, hrun]

/-! ### The answer -/

variable {resp : RpcResponse}

section

variable (hgate : m.noticesOk = true)
include hgate

theorem dispatch_unasked (hnone : m.yielding = none) :
    dispatch env (.rpcComplete resp) m = (.out (.doneErr TEE_ERROR_BAD_PARAMETERS), m) := by
  have hrun : handle env (.rpcComplete resp) m =
      (.value (.doneErr TEE_ERROR_BAD_PARAMETERS), m) := by
    rw [handle_of_gate env hgate]
    simp only [execute, rpcComplete, bind_apply, gets_apply, hnone, pure_apply]
  rw [dispatch, hrun]

theorem handle_error (hy : m.yielding = some y) (code : UInt32) :
    handle env (.rpcComplete (.error code)) m =
      (.value (.doneErr code), { m with yielding := none }) := by
  rw [handle_of_gate env hgate]
  simp only [execute, rpcComplete, bind_apply, gets_apply, hy, modify_apply, pure_apply]

theorem dispatch_notImage (hy : m.yielding = some y) (hresp : ∀ bytes, resp ≠ .loadTa bytes) :
    ∃ code, dispatch env (.rpcComplete resp) m =
      (.out (.doneErr code), { m with yielding := none }) := by
  have hrun : ∃ code, handle env (.rpcComplete resp) m =
      (.value (.doneErr code), { m with yielding := none }) := by
    rw [handle_of_gate env hgate]
    simp only [execute, rpcComplete, bind_apply, gets_apply, hy, modify_apply]
    cases resp with
    | loadTa bytes => exact absurd rfl (hresp bytes)
    | error code => exact ⟨code, rfl⟩
    | time | fs | shm => exact ⟨_, rfl⟩
  obtain ⟨code, hrun⟩ := hrun
  exact ⟨code, by rw [dispatch, hrun]⟩

theorem dispatch_cleared
    (hy : m.yielding = some y) : (dispatch env (.rpcComplete resp) m).2.yielding = none := by
  by_cases hresp : ∃ bytes, resp = .loadTa bytes
  · obtain ⟨bytes, rfl⟩ := hresp
    -- nothing is pending once the request is taken, and no later part makes a new one
    have hwalk : Walk env (frameJudgement (pendsOnFrame σ A fun _ => False)) m
        (.rpcComplete (.loadTa bytes)) := by
      refine toleratesDrops_pendsOnFrame.walk callsOk_true env _ (fun _ _ => trivial)
        (fun _ _ _ => pendsOnFrame_of_same rfl) ?_
      rintro _ ⟨⟩ _ _ ⟨⟩
    have hkept : (pendsOnFrame σ A fun _ => False).rel { m with yielding := none }
        (loadTaAnswer env y bytes { m with yielding := none }).2 := hwalk.loadTaAnswer rfl hgate hy
    have hidle : PendsOn (fun _ => False) (dispatch env (.rpcComplete (.loadTa bytes)) m).2 := by
      rw [dispatch_loadTa hgate hy]
      have hpends := hkept fun _ h => nomatch h
      generalize loadTaAnswer env y bytes { m with yielding := none } = r at hpends
      obtain ⟨exit, m'⟩ := r
      cases exit with
      | value | abort => exact hpends
      | unwind => exact toleratesDrops_pendsOnFrame.onPanic env m' hpends
    exact Option.eq_none_iff_forall_ne_some.mpr hidle
  · have hother : ∀ bytes, resp ≠ .loadTa bytes := fun bytes h => hresp ⟨bytes, h⟩
    obtain ⟨code, hrun⟩ : ∃ code, dispatch env (.rpcComplete resp) m =
        (.out (.doneErr code), { m with yielding := none }) := dispatch_notImage hgate hy hother
    rw [hrun]

end

theorem dispatch_answered {out : KernelOut}
    (hd : dispatch env (.rpcComplete resp) m = (.out out, m')) : out.IsDone := by
  by_cases hdone : ∃ r, out = .rpc r
  · obtain ⟨r, rfl⟩ := hdone
    obtain ⟨y, hasks, -⟩ := dispatch_asks hd
    cases hasks.cmd
  · cases out with
    | done => exact isDone_done _ _ _
    | rpc r => exact absurd ⟨r, rfl⟩ hdone

/-- The session was opened for the request, with an image that carries its UUID. -/
structure ServesRequest (env : Env σ A S) (y : Yielding) (resp : RpcResponse) (t : Tables A)
    (sid : SessionId) : Prop where
  opened : OpenedFor y t sid
  image : ∃ bytes loaded, resp = .loadTa bytes ∧
    loadImage env.crypto env.target.build bytes = .ok loaded ∧ loaded.props.uuid = y.uuid

variable {result : TeeResult} {sid : SessionId}

theorem dispatch_image (hy : m.yielding = some y)
    (hd : dispatch env (.rpcComplete resp) m = (.out (.done result (some sid) params), m')) :
    ∃ bytes loaded, resp = .loadTa bytes ∧
      loadImage env.crypto env.target.build bytes = .ok loaded ∧ loaded.props.uuid = y.uuid := by
  have hroute := handle_routes env (.rpcComplete resp) m
  rw [dispatch_eq] at hd
  generalize handle env (.rpcComplete resp) m = x at hroute hd
  cases hroute with
  | loaded hy' hadm hload hu =>
    cases hy.symm.trans hy'
    exact ⟨_, _, rfl, hload, hu⟩
  | _ => cases hd

theorem dispatch_serves
    (ok : KernelOk m) (hf : FreshIds m) (hy : m.yielding = some y)
    (hd : dispatch env (.rpcComplete resp) m = (.out (.done result (some sid) params), m')) :
    ServesRequest env y resp m'.tables sid := by
  refine ⟨?_, dispatch_image hy hd⟩
  cases dispatch_step env ok hf hd with
  | acted w evs t' u hcmd => exact absurd rfl (hcmd resp)
  | answered _ y' hy' w evs t' _ _ hdone =>
    cases hy.symm.trans hy'
    obtain ⟨_, session, _, hout, hopened⟩ := hdone
    cases hout
    exact hopened sid rfl

theorem dispatch_returns (ok : KernelOk m) (hf : FreshIds m)
    (hparse : ∀ bytes, resp = .loadTa bytes →
      loadImage env.crypto env.target.build bytes ≠ .panic) :
    ∃ out m', dispatch env (.rpcComplete resp) m = (.out out, m') := by
  have hroute := handle_routes env (.rpcComplete resp) m
  rw [dispatch_eq]
  generalize handle env (.rpcComplete resp) m = x at hroute ⊢
  cases hroute with
  | refused | answered => exact ⟨_, _, rfl⟩
  | aborted hbad =>
    rcases hbad with hpanic | ⟨image, hload, hpanic⟩
    · exact absurd hpanic (hparse _ rfl)
    · exact absurd hpanic (mapElf_ne_panic env _ hload)
  | @loaded bytes y image entries a hy hadm hload hu hmap =>
    have hout := instantiateAndBind_outcome (m := { m with yielding := none }.after
      (env.hal.newAddressSpace m.world).2 m.tables []) env
      image.props y.uuid y.login y.params entries (some a) hf.2 ok.current
    generalize instantiateAndBind env image.props y.uuid y.login y.params entries (some a)
      _ = r at hout
    cases hout with
    | value w evs out t' _ => exact ⟨_, _, rfl⟩
    | unwind w evs iid t a _ =>
      obtain ⟨w', hpanic⟩ := onPanic_unwound (m := { m with yielding := none }.after
        (env.hal.newAddressSpace m.world).2 m.tables []) env iid
        ok.currentPta ok.current w t a evs
      exact ⟨_, _, hpanic⟩

/-! ### Whole runs -/

def Unanswered (steps : List (Taken σ A)) : Prop :=
  ∀ step ∈ steps, ∀ resp, step.cmd ≠ .rpcComplete resp

/-- What holds of the requests of a run, whatever comes between a request and its
answer. -/
structure LoadProtocol (steps : List (Taken σ A)) : Prop where
  /-- A request is made by an open, and only when none is pending. -/
  asks : ∀ step ∈ steps, ∀ r, step.out = .rpc r →
    ∃ y, Asks step y ∧ step.before.yielding = none ∧ step.after.yielding = some y
  /-- Until it is answered it stays as it is, no other request is made, and an open that
      needs one is told BUSY. -/
  waits : ∀ before ask between after y, steps = before ++ ask :: (between ++ after) →
    Asks ask y → Unanswered between → ∀ step ∈ between,
      step.before.yielding = some y ∧ step.after.yielding = some y ∧
      (∀ r, step.out ≠ .rpc r) ∧
      ∀ uuid login params cancelId timeoutMs,
        step.cmd = .openSession uuid login params cancelId timeoutMs →
        NeedsLoad step.before uuid cancelId → step.out = .doneErr TEE_ERROR_BUSY
  /-- The next answer finds it, takes it away and is done. -/
  answers : ∀ before ask between answer after y resp,
    steps = before ++ ask :: (between ++ answer :: after) → Asks ask y → Unanswered between →
    answer.cmd = .rpcComplete resp →
      answer.before.yielding = some y ∧ answer.after.yielding = none ∧ answer.out.IsDone
  /-- An answer to nothing is refused and changes nothing. -/
  unasked : ∀ step ∈ steps, ∀ resp, step.cmd = .rpcComplete resp →
    step.before.yielding = none →
      step.out = .doneErr TEE_ERROR_BAD_PARAMETERS ∧ step.after = step.before

/-- What comes of the answers of a run that reached `m`. -/
structure AnswersServed (env : Env σ A S) (steps : List (Taken σ A)) (m : Machine σ A) :
    Prop where
  /-- A session that comes out of an answer is one of the TA and the client that asked. -/
  served : ∀ step ∈ steps, ∀ y resp result sid params, step.before.yielding = some y →
    step.cmd = .rpcComplete resp → step.out = .done result (some sid) params →
      ServesRequest env y resp step.after.tables sid
  /-- The next answer returns, if its image can be parsed without a panic. -/
  returns : FreshIds m → ∀ y resp, m.yielding = some y →
    (∀ bytes, resp = .loadTa bytes → loadImage env.crypto env.target.build bytes ≠ .panic) →
      ∃ out m', dispatch env (.rpcComplete resp) m = (.out out, m')

theorem Asks.unique {step : Taken σ A} {y' : Yielding} (h : Asks step y) (h' : Asks step y') :
    y = y' := by
  have hcmd := h.cmd.symm.trans h'.cmd
  cases y
  cases y'
  simpa using hcmd

variable {steps : List (Taken σ A)} {ok : Machine σ A → KernelCmd → Prop}

section

variable (hrun : Run env ok m₀ steps m)
include hrun

theorem Run.gate (hgate : m₀.noticesOk = true) : m.noticesOk = true := by
  refine hrun.invariant (P := fun m => m.noticesOk = true) ?_ (fun _ _ h => h) hgate
  intro m cmd out m' _ h hd
  have hgrows := dispatch_grows env cmd m
  rw [hd] at hgrows
  exact hgrows.noticesOk.trans h

theorem Run.waits (hy : m₀.yielding = some y) (hbetween : Unanswered steps) :
    (∀ step ∈ steps, step.before.yielding = some y ∧ step.after.yielding = some y) ∧
      m.yielding = some y := by
  induction hrun with
  | start => exact ⟨fun step hstep => absurd hstep not_mem_nil, hy⟩
  | outside _ w ih => exact ih hbetween
  | @command steps m m' _ cmd out _ hd ih =>
    obtain ⟨hsteps, hpending⟩ := ih fun step hstep =>
      hbetween step (mem_append_left _ hstep)
    have hcmd := hbetween _ (mem_append_right _ (mem_singleton_self _))
    have hkept : (dispatch env cmd m).2.yielding = some y := dispatch_waits hpending hcmd
    rw [hd] at hkept
    refine ⟨?_, hkept⟩
    intro step hstep
    rcases mem_append.mp hstep with h | h
    · exact hsteps step h
    · cases mem_singleton.mp h
      exact ⟨hpending, hkept⟩

theorem Run.loadProtocol (hgate : m₀.noticesOk = true) : LoadProtocol steps := by
  -- from a request to the end of the commands that follow it
  have hcut : ∀ before ask between after y, steps = before ++ ask :: (between ++ after) →
      Asks ask y → Unanswered between → ∃ m1, m1.yielding = some y ∧
        (∀ step ∈ between, step.before.yielding = some y ∧ step.after.yielding = some y) ∧
        Run env ok m1 after m := by
    intro before ask between after y hsteps hasks hbetween
    obtain ⟨m1, -, h1⟩ := hrun.split hsteps
    obtain ⟨_, -, -, hd, h2⟩ := h1.uncons
    obtain ⟨m3, h3, h4⟩ := h2.split rfl
    rw [hasks.out] at hd
    obtain ⟨y', hasks', -, hafter⟩ := dispatch_asks hd
    have hy : ask.after.yielding = some y := by
      rw [hafter, hasks.unique ⟨hasks'.cmd, hasks.out.trans hasks'.out⟩]
    obtain ⟨hsteps', hpending⟩ := h3.waits hy hbetween
    exact ⟨m3, hpending, hsteps', h4⟩
  constructor
  · intro step hstep r hout
    obtain ⟨_, -, -, hd⟩ := hrun.reached hstep
    rw [hout] at hd
    obtain ⟨y, hasks, hnone, hafter⟩ := dispatch_asks hd
    exact ⟨y, ⟨hasks.cmd, hout.trans hasks.out⟩, hnone, by rw [hafter]⟩
  · intro before ask between after y hsteps hasks hbetween step hstep
    obtain ⟨_, -, hpending, -⟩ := hcut before ask between after y hsteps hasks hbetween
    obtain ⟨hbefore, hafter⟩ := hpending step hstep
    have hmem : step ∈ steps := by
      rw [hsteps]
      exact mem_append_right _ (mem_cons_of_mem _ (mem_append_left _ hstep))
    obtain ⟨_, hreached, -, hd⟩ := hrun.reached hmem
    refine ⟨hbefore, hafter, ?_, ?_⟩
    · intro r hout
      rw [hout] at hd
      obtain ⟨_, -, hnone, -⟩ := dispatch_asks hd
      exact absurd (hnone.symm.trans hbefore) (by simp)
    · intro uuid login params cancelId timeoutMs hcmd hneeds
      rw [hcmd, dispatch_busy (hreached.gate hgate) hbefore hneeds, Prod.mk.injEq,
        Reply.out.injEq] at hd
      exact hd.1.symm
  · intro before ask between answer after y resp hsteps hasks hbetween hcmd
    obtain ⟨m1, hy, -, h1⟩ := hcut before ask between (answer :: after) y hsteps hasks hbetween
    obtain ⟨w, hbefore, -, hd, -⟩ := h1.uncons
    have hmem : answer ∈ steps := by
      rw [hsteps]
      exact mem_append_right _ (mem_cons_of_mem _ (mem_append_right _ mem_cons_self))
    obtain ⟨_, hreached, -, -⟩ := hrun.reached hmem
    have hpending : answer.before.yielding = some y := by
      rw [hbefore]
      exact hy
    rw [hcmd] at hd
    have hcleared : (dispatch env (.rpcComplete resp) answer.before).2.yielding = none :=
      dispatch_cleared (hreached.gate hgate) hpending
    rw [hd] at hcleared
    exact ⟨hpending, hcleared, dispatch_answered hd⟩
  · intro step hstep resp hcmd hnone
    obtain ⟨_, hreached, -, hd⟩ := hrun.reached hstep
    rw [hcmd, dispatch_unasked (hreached.gate hgate) hnone, Prod.mk.injEq, Reply.out.injEq] at hd
    exact ⟨hd.1.symm, hd.2.symm⟩

theorem Run.answersServed (h0 : KernelOk m₀)
    (hfresh : ∀ m cmd, ok m cmd → FreshIds m) : AnswersServed env steps m := by
  constructor
  · intro step hstep y resp result sid params hy hcmd hout
    obtain ⟨_, hreached, hok, hd⟩ := hrun.reached hstep
    rw [hcmd, hout] at hd
    exact dispatch_serves (hreached.kernelOk hfresh h0) (hfresh _ _ hok) hy hd
  · intro hf y resp hy hparse
    exact dispatch_returns (hrun.kernelOk hfresh h0) hf hparse

end

/-- **The LOAD_TA protocol** of every run behind the notice gate. -/
theorem load_protocol {ok : Machine σ A → KernelCmd → Prop} {steps : List (Taken σ A)}
    (hboot : Booted env m₀) (hgate : m₀.noticesOk = true) (hrun : Run env ok m₀ steps m) :
    LoadProtocol steps ∧ ((∀ m cmd, ok m cmd → FreshIds m) → AnswersServed env steps m) :=
  ⟨hrun.loadProtocol hgate, hrun.answersServed hboot.kernelOk⟩

theorem load_protocol_sample :
    LoadProtocol sampleLoading ∧ AnswersServed sampleEnv sampleLoading sampleLoaded := by
  have hrun := sampleLoading_run (fun m _ => FreshIds m) (by decide +kernel) (by decide +kernel)
  obtain ⟨hprotocol, hserved⟩ := load_protocol sampleStart_booted (by decide +kernel) hrun
  exact ⟨hprotocol, hserved fun _ _ h => h⟩

/-- A platform with entropy from the REE host, so the kernel owes the notices. -/
def hostEntropyEnv : Env Unit Nat Unit :=
  { sampleEnv with hal := { sampleEnv.hal with entropyOrigin := fun _ => .reeHost } }

/-- Before the notices even an answer to nothing is refused by the gate. -/
theorem unasked_answer_at_gate :
    Booted hostEntropyEnv (new hostEntropyEnv ()) ∧
      (new hostEntropyEnv ()).yielding = none ∧
      dispatch hostEntropyEnv (.rpcComplete (.error 0)) (new hostEntropyEnv ()) =
        (.out (.doneErr TEE_ERROR_SECURITY), new hostEntropyEnv ()) ∧
      TEE_ERROR_SECURITY ≠ TEE_ERROR_BAD_PARAMETERS :=
  ⟨.new (), rfl, by decide +kernel, by decide⟩

end Rustee.Os
