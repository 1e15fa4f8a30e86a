import Rustee.OsAddressSpaces

/-!
# Cancellation

`Cancel` adds an id to a list, and the commands that carry an id look it up before they do
anything. Nothing else looks at that list, so a cancelled id matters only to the operations with
that id.
-/

namespace Rustee.Os

open SlotTable Prog Machine List

variable {σ A S α : Type} {env : Env σ A S} {m m₀ m' : Machine σ A}

/-! ### What does not depend on the cancelled ids -/

section Ignored

variable {ids : List UInt32} {b : Bool}

theorem ignores_call (code : σ → CallExit α × σ) (returned : α → Event) (panicked : Event) :
    Ignores (withGate ids b) (call code returned panicked : KM σ A α) := by
  intro m
  unfold IgnoresAt call withGate
  dsimp only
  rcases code m.world with ⟨exit, w⟩
  cases exit with
  | returns | panics => rfl

theorem ignores_mapParams (env : Env σ A S) (j : InstanceId) (params : Params) :
    Ignores (withGate ids b) (mapParams env j params) := by
  have hget : Ignores (withGate ids b) (getInstance j : KM σ A (Option (Instance A))) :=
    ignores_gets fun _ => rfl
  have hupdate : ∀ f, Ignores (withGate ids b) (updateInstance j f : KM σ A Unit) :=
    fun f => ignores_modify fun _ => rfl
  refine hget.bind fun inst => ?_
  cases inst.bind (·.aspace) with
  | none => exact ignores_pure _
  | some a =>
    have hloop : Ignores (withGate ids b) (runMapLoop env params a) :=
      ignores_transform fun _ => rfl
    have hrestore : ∀ a', Ignores (withGate ids b) (restoreAspace j a' : KM σ A Unit) := by
      intro a'
      refine hget.bind fun inst => ?_
      cases inst with
      | none => exact ignores_abort
      | some => exact hupdate _
    refine (hupdate _).bind fun _ => hloop.bind fun exit => ?_
    cases exit with
    | lost => exact ignores_pure _
    | restored a' | mapped a' => exact (hrestore a').bind fun _ => ignores_pure _

def SameFor (ids : List UInt32) (m : Machine σ A) (c : UInt32) : Prop :=
  ids.any (· == c) = m.cancelledIds.any (· == c)

variable {cmd : KernelCmd}

theorem ignores_walk (hcmd : ∀ c, cmd ≠ .cancel c) (hgate : b = m.noticesOk)
    (h : ∀ c, operationId m cmd = some c → SameFor ids m c) :
    Walk env (fun _ _ x m => IgnoresAt (withGate ids b) x m) m cmd where
  pure a m := ignores_pure a m
  abort m := ignores_abort m
  bind hx hf := hx.bind_value hf
  reads m hg := ignores_gets (hg ids b) m
  counts _ _ _ _ := rfl
  records _ _ _ := rfl
  unmaps _ _ _ _ := rfl
  entering {_ iid entry m} hentry := by
    refine ignoresAt_modify_bind rfl (hentry.bind fun a => ?_)
    exact Ignores.bind (ignores_modify fun _ => rfl) fun _ => ignores_pure a
  enters _ _ m _ _ := ignores_call _ _ _ m
  gate := by
    unfold IgnoresAt
    rw [hgate]
    rfl
  cancelled {id m'} hid hsame := by
    have hlookup : ids.any (· == id) = m'.cancelledIds.any (· == id) := by
      rw [hsame]
      exact h id hid
    exact congrArg (fun r => (Exit.value r, m'.withGate ids b)) hlookup
  cancels hcancel := absurd hcancel (hcmd _)
  takes _ _ := rfl
  maps {_ iid params m} _ := ignores_mapParams env iid params m
  stores _ _ := rfl
  drops _ _ := rfl
  kills _ _ := rfl
  newSpace _ := rfl
  pends _ := rfl
  ptaOpen _ _ _ := ignores_call _ _ _
  ptaClose _ _ _ := ignores_call _ _ _
  ptaInvoke _ _ _ _ _ := Ignores.bind (ignores_modify fun _ => rfl) fun _ =>
    (ignores_call _ _ _).bind fun _ => Ignores.bind (ignores_modify fun _ => rfl) fun _ =>
      ignores_pure _

/-- No command but `Cancel` depends on more of the cancelled ids than its own. -/
theorem ignores_handle (hcmd : ∀ c, cmd ≠ .cancel c) (hgate : b = m.noticesOk)
    (h : ∀ c, operationId m cmd = some c → SameFor ids m c) :
    IgnoresAt (withGate ids b) (handle env cmd) m :=
  (ignores_walk hcmd hgate h).handle

end Ignored

/-! ### The list over a run -/

section
variable (env : Env σ A S) (m : Machine σ A) (cmd : KernelCmd)

theorem handle_gate :
    (handle env cmd m).2.noticesOk = m.noticesOk ∧
      ∀ c, c ∈ (handle env cmd m).2.cancelledIds ↔
        c ∈ m.cancelledIds ∨ m.noticesOk = true ∧ cmd = .cancel c := by
  by_cases hcmd : ∃ c, cmd = .cancel c
  · obtain ⟨c, rfl⟩ := hcmd
    cases hgate : m.noticesOk with
    | false =>
      rw [handle_of_closed_gate env hgate]
      refine ⟨hgate, fun c' => ?_⟩
      simp
    | true =>
      rw [handle_of_gate env hgate]
      refine ⟨hgate, fun c' => ?_⟩
      simp [execute, bind_apply, eq_comm]
  · have hself : IgnoresAt (withGate m.cancelledIds m.noticesOk) (handle env cmd) m :=
      ignores_handle (fun c hc => hcmd ⟨c, hc⟩) rfl fun c _ => rfl
    have hsame : m.withGate m.cancelledIds m.noticesOk = m := rfl
    unfold IgnoresAt at hself
    rw [hsame] at hself
    have hstate := congrArg Prod.snd hself
    rw [hstate]
    refine ⟨rfl, fun c => ?_⟩
    constructor
    · intro hc
      exact .inl hc
    · rintro (hc | ⟨-, hc⟩)
      · exact hc
      · exact absurd ⟨c, hc⟩ hcmd

theorem onPanic_gate :
    (onPanic env m).2.noticesOk = m.noticesOk ∧
      (onPanic env m).2.cancelledIds = m.cancelledIds := by
  unfold onPanic
  split
  · exact ⟨rfl, rfl⟩
  · unfold onTaPanic
    split
    · exact ⟨rfl, rfl⟩
    · exact ⟨rfl, rfl⟩

theorem dispatch_gate :
    (dispatch env cmd m).2.noticesOk = m.noticesOk ∧
      ∀ c, c ∈ (dispatch env cmd m).2.cancelledIds ↔
        c ∈ m.cancelledIds ∨ m.noticesOk = true ∧ cmd = .cancel c := by
  have hhandle := handle_gate env m cmd
  unfold dispatch
  rcases hrun : handle env cmd m with ⟨exit, m1⟩
  rw [hrun] at hhandle
  cases exit with
  | value | abort => exact hhandle
  | unwind =>
    obtain ⟨hgate, hids⟩ := onPanic_gate env m1
    dsimp only
    rw [hgate, hids]
    exact hhandle

end

/-- The ids on the list are those of the `Cancel` commands the kernel has received behind
its gate. -/
theorem Run.cancelledIds {ok : Machine σ A → KernelCmd → Prop} {steps : List (Taken σ A)}
    (hb : Booted env m₀) (hrun : Run env ok m₀ steps m) :
    m.noticesOk = m₀.noticesOk ∧
      ∀ c, c ∈ m.cancelledIds ↔ m₀.noticesOk = true ∧ ∃ step ∈ steps, step.cmd = .cancel c := by
  induction hrun with
  | start =>
    refine ⟨rfl, fun c => ?_⟩
    rw [hb.idle.cancelled]
    simp
  | @command steps m1 m2 h cmd out hok hd ih =>
    have hstep := dispatch_gate env m1 cmd
    rw [hd] at hstep
    refine ⟨hstep.1.trans ih.1, fun c => ?_⟩
    rw [hstep.2 c, ih.2 c, ih.1]
    simp only [mem_append, mem_singleton]
    constructor
    · rintro (⟨hgate, step, hmem, hcmd⟩ | ⟨hgate, hcmd⟩)
      · exact ⟨hgate, step, .inl hmem, hcmd⟩
      · exact ⟨hgate, _, .inr rfl, hcmd⟩
    · rintro ⟨hgate, step, hmem | rfl, hcmd⟩
      · exact .inl ⟨hgate, step, hmem, hcmd⟩
      · exact .inr ⟨hgate, hcmd⟩
  | outside h w ih => exact ih

/-! ### Operations -/

section
variable (env : Env σ A S) (m : Machine σ A) (cmd : KernelCmd)

/-- The command is answered, and leaves the machine, as if no `Cancel` had been received. -/
def AsIfUncancelled : Prop :=
  handle env cmd { m with cancelledIds := [] } =
    ((handle env cmd m).1, { (handle env cmd m).2 with cancelledIds := [] })

/-- The command is answered TEE_ERROR_CANCEL and does nothing but end a pending request. -/
def AnsweredCancel : Prop :=
  ∃ m', handle env cmd m = (.value (.doneErr TEE_ERROR_CANCEL), m') ∧
    m' = { m with yielding := m'.yielding }

end

def ResumesWithImage (cmd : KernelCmd) : Prop :=
  ∀ resp, cmd = .rpcComplete resp → ∃ bytes, resp = .loadTa bytes

section
variable {ids : List UInt32} {c : UInt32}

theorem any_eq_false_of_notMem (h : c ∉ ids) : ids.any (· == c) = false := by
  rw [any_eq_false]
  intro d hd hdc
  rw [beq_iff_eq] at hdc
  exact h (hdc ▸ hd)

theorem any_eq_true_of_mem (h : c ∈ ids) : ids.any (· == c) = true :=
  any_eq_true.mpr ⟨c, h, beq_self_eq_true c⟩

end

theorem asIfUncancelled_of_notMem {cmd : KernelCmd} (hcmd : ∀ c, cmd ≠ .cancel c)
    (h : ∀ c, operationId m cmd = some c → c ∉ m.cancelledIds) : AsIfUncancelled env m cmd := by
  have hignores : IgnoresAt (withGate [] m.noticesOk) (handle env cmd) m := by
    refine ignores_handle hcmd rfl fun c hc => ?_
    rw [SameFor, any_eq_false_of_notMem (h c hc)]
    rfl
  have hafter : (handle env cmd m).2.withGate [] m.noticesOk =
      { (handle env cmd m).2 with cancelledIds := [] } := by
    rw [← (handle_gate env m cmd).1]
    rfl
  unfold IgnoresAt at hignores
  rw [hafter] at hignores
  exact hignores

theorem answeredCancel_of_mem {cmd : KernelCmd} {c : UInt32} (hgate : m.noticesOk = true)
    (hop : operationId m cmd = some c) (hc : c ∈ m.cancelledIds) (himage : ResumesWithImage cmd) :
    AnsweredCancel env m cmd := by
  have hany := any_eq_true_of_mem hc
  unfold AnsweredCancel
  rw [handle_of_gate env hgate]
  cases cmd with
  | openSession =>
    cases hop
    refine ⟨m, ?_, rfl⟩
    simp only [execute, open_, cancelled, bind_apply, gets_apply, hany, if_true, pure_apply]
  | invoke =>
    cases hop
    refine ⟨m, ?_, rfl⟩
    simp only [execute, invoke, cancelled, bind_apply, gets_apply, hany, if_true, pure_apply]
  | rpcComplete resp =>
    obtain ⟨bytes, rfl⟩ := himage resp rfl
    obtain ⟨y, hy, rfl⟩ := Option.map_eq_some_iff.mp hop
    refine ⟨{ m with yielding := none }, ?_, rfl⟩
    simp only [execute, rpcComplete, loadTaAnswer, cancelled, bind_apply, gets_apply,
      hy, modify_apply, hany, if_true, pure_apply]
  | closeSession | cancel => cases hop

/-- In every run from a booted kernel: an operation whose id has not been cancelled is not
affected by any `Cancel` of the run, and a `Cancel` hits the next operation with its id,
be it pending or not yet started. -/
theorem cancel_applies_to_its_id {steps : List (Taken σ A)} (hb : Booted env m₀)
    (hrun : Run env (fun _ _ => True) m₀ steps m) {cmd : KernelCmd} {c : UInt32}
    (hop : operationId m cmd = some c) :
    ((∀ step ∈ steps, step.cmd ≠ .cancel c) → AsIfUncancelled env m cmd) ∧
      ∀ steps₁ step steps₂, steps = steps₁ ++ step :: steps₂ → step.cmd = .cancel c →
        (∀ later ∈ steps₂, operationId later.before later.cmd ≠ some c) →
        m.noticesOk = true → ResumesWithImage cmd → AnsweredCancel env m cmd := by
  obtain ⟨hgate, hids⟩ := hrun.cancelledIds hb
  constructor
  · intro hnone
    refine asIfUncancelled_of_notMem ?_ ?_
    · rintro c' rfl
      cases hop
    · intro c' hc' hmem
      cases hop.symm.trans hc'
      obtain ⟨-, step, hstep, hcmd⟩ := (hids c).mp hmem
      exact hnone step hstep hcmd
  · rintro steps₁ step steps₂ rfl hcmd - hopen himage
    have hmem : c ∈ m.cancelledIds := by
      refine (hids c).mpr ⟨hgate.symm.trans hopen, step, ?_, hcmd⟩
      exact mem_append_right _ mem_cons_self
    exact answeredCancel_of_mem hopen hop hmem himage

/-- The small platform after `Cancel` 0. -/
def sampleCancelled : Machine Unit Nat := (dispatch sampleEnv (.cancel 0) sampleStart).2

theorem cancel_applies_to_its_id_sample :
    operationId sampleCancelled (openCmd sampleTa.uuid .public) = some 0 ∧
      AnsweredCancel sampleEnv sampleCancelled (openCmd sampleTa.uuid .public) :=
  have hrun : Run sampleEnv (fun _ _ => True) sampleStart
      [⟨sampleStart, .cancel 0, .doneErr TEE_SUCCESS, sampleCancelled⟩] sampleCancelled :=
    .command .start _ _ trivial (by decide +kernel)
  have hop : operationId sampleCancelled (openCmd sampleTa.uuid .public) = some 0 := rfl
  ⟨hop, (cancel_applies_to_its_id sampleStart_booted hrun hop).2 [] _ [] rfl rfl
    (fun _ h => absurd h not_mem_nil) (by decide +kernel) (fun _ h => nomatch h)⟩

/-- One `Cancel` of the id 0, received while nothing is pending, and both operations with
that id that come after it are answered TEE_ERROR_CANCEL; without it the TA is opened. -/
theorem cancel_hits_every_operation :
    (runAll sampleEnv (fun _ _ => True)
        [.cancel 0, openCmd sampleTa.uuid .public, openCmd sampleTa.uuid .public]
        sampleStart).map (fun r => r.1.map (·.out)) =
      some [.doneErr TEE_SUCCESS, .doneErr TEE_ERROR_CANCEL, .doneErr TEE_ERROR_CANCEL] ∧
    (runAll sampleEnv (fun _ _ => True)
        [openCmd sampleTa.uuid .public] sampleStart).map (fun r => r.1.map (·.out)) =
      some [.done .ok (some 1) noParams] := by
  constructor <;> decide +kernel

end Rustee.Os
