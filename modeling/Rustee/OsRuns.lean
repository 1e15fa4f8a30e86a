import Rustee.OsRefinement

/-!
# Runs of the kernel

Start-up, then any sequence of commands, with the outside world free to change between two of them.
A run carries a guard, a condition that every command meets in the state it is given in. What one
step keeps, a run keeps (`Run.invariant`).
-/

namespace Rustee.Os

open SlotTable List PtaRegistry InstanceTable

variable {σ A S : Type} {env : Env σ A S} {m m₀ m' : Machine σ A}

/-! ### Start-up -/

/-- A kernel that has been set up and has not handled a command yet. -/
inductive Booted (env : Env σ A S) : Machine σ A → Prop
  | new (w : σ) : Booted env (Machine.new env w)
  | registerPta {m : Machine σ A} (h : Booted env m) (pta : Pta) : Booted env (registerPta pta m)
  | registerEarlyTa {m : Machine σ A} (h : Booted env m) (ta : EarlyTa) :
      Booted env (registerEarlyTa ta m)
  | emitReeNotices {m : Machine σ A} (h : Booted env m) (written : Bool) :
      Booted env (emitReeNotices written m)

/-- Nothing has happened yet. -/
structure Idle (m : Machine σ A) : Prop where
  tables : m.tables = ⟨new MAX_SESSIONS, new MAX_INSTANCES⟩
  yielding : m.yielding = none
  current : m.currentInstance = none
  currentPta : m.currentPta = false
  cancelled : m.cancelledIds = []
  log : m.log = []

theorem Booted.idle (h : Booted env m) : Idle m := by
  induction h with
  | new => exact ⟨rfl, rfl, rfl, rfl, rfl, rfl⟩
  | registerPta _ pta ih | registerEarlyTa _ ta ih => exact ⟨ih.1, ih.2, ih.3, ih.4, ih.5, ih.6⟩
  | emitReeNotices _ written ih =>
    unfold Rustee.Os.emitReeNotices
    split
    · exact ⟨ih.1, ih.2, ih.3, ih.4, ih.5, ih.6⟩
    · split
      · exact ⟨ih.1, ih.2, ih.3, ih.4, ih.5, ih.6⟩
      · exact ih

theorem Booted.kernelOk (h : Booted env m) : KernelOk m := by
  have hidle := h.idle
  refine ⟨?_, hidle.current, hidle.currentPta, ?_, ?_⟩
  · rw [hidle.tables]
    exact tablesOk_new
  · intro y hy
    rw [hidle.yielding] at hy
    exact absurd hy (by simp)
  · intro s hs
    have hnew : m.sessions = SlotTable.new MAX_SESSIONS := congrArg Tables.sessions hidle.tables
    rw [hnew, entries_new] at hs
    exact absurd hs not_mem_nil

/-! ### One step -/

variable {evs : List Event} {u : Option Uuid} {ptas : PtaRegistry} {t t' : Tables A}

theorem Acts.liveSingle_none (ok : TablesOk t) (h : Acts ptas u t evs t') {v : Uuid}
    (hu : u ≠ some v) (hnone : liveSingle t.instances v = none) :
    liveSingle t'.instances v = none := by
  cases h with
  | one h => exact h.liveSingle_none ok hu hnone
  | two h1 h2 => exact h2.liveSingle_none (ok.act h1) hu (h1.liveSingle_none ok hu hnone)

theorem Act.ptaSessions (ok : TablesOk t) (h : Act ptas u t evs t')
    (hreg : ∀ s ∈ t.sessions.entries, s.kind = .pta → (getMut ptas s.uuid).isSome) :
    ∀ s ∈ t'.sessions.entries, s.kind = .pta → (getMut ptas s.uuid).isSome := by
  intro s' hs' hk
  rcases h.sessionFrom ok hs' with ⟨s, hs, hsame⟩ | ⟨-, ⟨-, hnew⟩ | ⟨huser, -⟩⟩
  · rw [← hsame.uuid]
    exact hreg s hs (hsame.kind.trans hk)
  · exact hnew
  · exact absurd (huser.symm.trans hk) (by decide)

theorem Acts.ptaSessions (ok : TablesOk t) (h : Acts ptas u t evs t')
    (hreg : ∀ s ∈ t.sessions.entries, s.kind = .pta → (getMut ptas s.uuid).isSome) :
    ∀ s ∈ t'.sessions.entries, s.kind = .pta → (getMut ptas s.uuid).isSome := by
  cases h with
  | one h => exact h.ptaSessions ok hreg
  | two h1 h2 => exact h2.ptaSessions (ok.act h1) (h1.ptaSessions ok hreg)

theorem KernelOk.step (ok : KernelOk m) {cmd : KernelCmd} {out : KernelOut}
    (h : Step m cmd out m') : KernelOk m' := by
  cases h with
  | refused => exact ok
  | cancelled =>
    exact ⟨ok.tables, ok.current, ok.currentPta, ok.pending, ok.ptaSessions⟩
  | yielded uuid login params cancelId timeoutMs hnone hsingle hearly =>
    refine ⟨ok.tables, ok.current, ok.currentPta, ?_, ok.ptaSessions⟩
    intro y hy
    rw [Option.some.injEq] at hy
    subst hy
    exact ⟨hsingle, hearly⟩
  | acted w evs t' u hcmd hu hacts =>
    refine ⟨ok.tables.acts hacts, ok.current, ok.currentPta, ?_,
      hacts.ptaSessions ok.tables ok.ptaSessions⟩
    intro y hy
    obtain ⟨hsingle, hearly⟩ := ok.pending y hy
    exact ⟨hacts.liveSingle_none ok.tables (hu y hy) hsingle, hearly⟩
  | answered resp y hy w evs t' hacts =>
    exact ⟨ok.tables.acts hacts, ok.current, ok.currentPta, by simp,
      hacts.ptaSessions ok.tables ok.ptaSessions⟩

theorem KernelOk.outside (ok : KernelOk m) (w : σ) : KernelOk { m with world := w } :=
  ⟨ok.tables, ok.current, ok.currentPta, ok.pending, ok.ptaSessions⟩

/-! ### Runs -/

/-- One command of a run: the state it was given in, its output, the state after. -/
structure Taken (σ A : Type) where
  before : Machine σ A
  cmd : KernelCmd
  out : KernelOut
  after : Machine σ A

/-- Commands handled one after the other from `m₀`, each meeting the guard `ok`; a
command that halts the kernel ends the run before it. The list holds the
commands in order. -/
inductive Run (env : Env σ A S) (ok : Machine σ A → KernelCmd → Prop) (m₀ : Machine σ A) :
    List (Taken σ A) → Machine σ A → Prop
  | start : Run env ok m₀ [] m₀
  | command {steps : List (Taken σ A)} {m m' : Machine σ A} (h : Run env ok m₀ steps m)
      (cmd : KernelCmd) (out : KernelOut) (hok : ok m cmd)
      (hd : dispatch env cmd m = (.out out, m')) :
      Run env ok m₀ (steps ++ [⟨m, cmd, out, m'⟩]) m'
  | outside {steps : List (Taken σ A)} {m : Machine σ A} (h : Run env ok m₀ steps m) (w : σ) :
      Run env ok m₀ steps { m with world := w }

variable {steps : List (Taken σ A)} {ok : Machine σ A → KernelCmd → Prop}

/-- What holds at the start, is kept by every guarded command and does not depend on the
world, holds throughout a run. -/
theorem Run.invariant {P : Machine σ A → Prop}
    (hstep : ∀ m cmd out m', ok m cmd → P m → dispatch env cmd m = (.out out, m') → P m')
    (hworld : ∀ m w, P m → P { m with world := w })
    (hrun : Run env ok m₀ steps m) (h0 : P m₀) : P m := by
  induction hrun with
  | start => exact h0
  | command _ cmd out hok hd ih => exact hstep _ cmd out _ hok ih hd
  | outside _ w ih => exact hworld _ w ih

theorem Run.append {steps1 steps2 : List (Taken σ A)}
    {m1 : Machine σ A} (h1 : Run env ok m₀ steps1 m1) (h2 : Run env ok m1 steps2 m) :
    Run env ok m₀ (steps1 ++ steps2) m := by
  induction h2 with
  | start =>
    rw [append_nil]
    exact h1
  | command _ cmd out hok hd ih =>
    rw [← append_assoc]
    exact .command ih cmd out hok hd
  | outside _ w ih => exact .outside ih w

theorem Run.split {steps1 steps2 : List (Taken σ A)}
    (hrun : Run env ok m₀ steps m) (hsteps : steps = steps1 ++ steps2) :
    ∃ m1, Run env ok m₀ steps1 m1 ∧ Run env ok m1 steps2 m := by
  induction hrun generalizing steps2 with
  | start =>
    obtain ⟨rfl, rfl⟩ := append_eq_nil_iff.mp hsteps.symm
    exact ⟨m₀, .start, .start⟩
  | outside _ w ih =>
    obtain ⟨m1, h1, h2⟩ := ih hsteps
    exact ⟨m1, h1, .outside h2 w⟩
  | command h cmd out hok hd ih =>
    -- the last command is in the second part, unless that part is empty
    rcases eq_nil_or_concat steps2 with rfl | ⟨rest, last, rfl⟩
    · rw [append_nil] at hsteps
      subst hsteps
      exact ⟨_, .command h cmd out hok hd, .start⟩
    · rw [concat_eq_append, ← append_assoc] at hsteps
      obtain ⟨hrest, hlast⟩ := append_inj' hsteps rfl
      cases hlast
      obtain ⟨m1, h1, h2⟩ := ih hrest
      rw [concat_eq_append]
      exact ⟨m1, h1, .command h2 cmd out hok hd⟩

theorem Run.of_nil (hrun : Run env ok m₀ [] m) : ∃ w, m = { m₀ with world := w } := by
  generalize hsteps : ([] : List (Taken σ A)) = steps at hrun
  induction hrun with
  | start => exact ⟨m₀.world, rfl⟩
  | outside _ w ih =>
    obtain ⟨_, rfl⟩ := ih hsteps
    exact ⟨w, rfl⟩
  | command => exact absurd hsteps (by simp)

theorem Run.uncons {step : Taken σ A} (hrun : Run env ok m₀ (step :: steps) m) :
    ∃ w, step.before = { m₀ with world := w } ∧ ok step.before step.cmd ∧
      dispatch env step.cmd step.before = (.out step.out, step.after) ∧
      Run env ok step.after steps m := by
  generalize hsteps : step :: steps = all at hrun
  induction hrun generalizing steps with
  | start => cases hsteps
  | outside _ w ih =>
    obtain ⟨w0, hbefore, hok, hd, hrest⟩ := ih hsteps
    exact ⟨w0, hbefore, hok, hd, .outside hrest w⟩
  | @command prev m1 m2 h cmd out hok hd ih =>
    cases prev with
    | nil =>
      rw [nil_append, cons.injEq] at hsteps
      obtain ⟨rfl, rfl⟩ := hsteps
      obtain ⟨w, hw⟩ := h.of_nil
      exact ⟨w, hw, hok, hd, .start⟩
    | cons =>
      rw [cons_append, cons.injEq] at hsteps
      obtain ⟨rfl, rfl⟩ := hsteps
      obtain ⟨w0, hbefore, hok0, hd0, hrest⟩ := ih rfl
      exact ⟨w0, hbefore, hok0, hd0, .command hrest cmd out hok hd⟩

theorem Run.reached (hrun : Run env ok m₀ steps m) {step : Taken σ A} (hstep : step ∈ steps) :
    ∃ steps1, Run env ok m₀ steps1 step.before ∧ ok step.before step.cmd ∧
      dispatch env step.cmd step.before = (.out step.out, step.after) := by
  obtain ⟨steps1, steps2, hsplit⟩ := append_of_mem hstep
  obtain ⟨m1, h1, h2⟩ := hrun.split hsplit
  obtain ⟨w, hbefore, hok, hd, -⟩ := h2.uncons
  refine ⟨steps1, ?_, hok, hd⟩
  rw [hbefore]
  exact .outside h1 w

/-- The kernel invariant holds in every run that never issues an id in use. -/
theorem Run.kernelOk (hfresh : ∀ m cmd, ok m cmd → FreshIds m) (hrun : Run env ok m₀ steps m)
    (h0 : KernelOk m₀) : KernelOk m := by
  refine hrun.invariant ?_ (fun _ w h => h.outside w) h0
  intro m cmd out m' hok h hd
  exact h.step (dispatch_step env h (hfresh m cmd hok) hd)

/-! ### Running a list of commands -/

/-- Handle the commands one by one; `none` when one of them misses the guard or halts
the kernel. -/
def runAll (env : Env σ A S) (ok : Machine σ A → KernelCmd → Prop) [∀ m cmd, Decidable (ok m cmd)] :
    List KernelCmd → Machine σ A → Option (List (Taken σ A) × Machine σ A)
  | [], m => some ([], m)
  | cmd :: cmds, m =>
    if ok m cmd then
      match dispatch env cmd m with
      | (.out out, m') => (runAll env ok cmds m').map fun r => (⟨m, cmd, out, m'⟩ :: r.1, r.2)
      | (.halted, _) => none
    else none

theorem run_of_runAll [∀ m cmd, Decidable (ok m cmd)] {cmds : List KernelCmd}
    (h : runAll env ok cmds m₀ = some (steps, m)) : Run env ok m₀ steps m := by
  induction cmds generalizing m₀ steps with
  | nil =>
    cases h
    exact .start
  | cons cmd cmds ih =>
    unfold runAll at h
    by_cases hok : ok m₀ cmd
    · rw [if_pos hok] at h
      rcases hd : dispatch env cmd m₀ with ⟨reply, m1⟩
      rw [hd] at h
      cases reply with
      | halted => cases h
      | out out =>
        obtain ⟨⟨steps', m'⟩, hrest, heq⟩ := Option.map_eq_some_iff.mp h
        cases heq
        have hfirst : Run env ok m₀ [⟨m₀, cmd, out, m1⟩] m1 := .command .start cmd out hok hd
        exact hfirst.append (ih hrest)
    · rw [if_neg hok] at h
      cases h

theorem exists_run_of_runAll (env : Env σ A S) (ok : Machine σ A → KernelCmd → Prop)
    [∀ m cmd, Decidable (ok m cmd)] (cmds : List KernelCmd) (m : Machine σ A)
    (P : List (Taken σ A) × Machine σ A → Prop) [DecidablePred P]
    (h : (runAll env ok cmds m).any fun r => decide (P r)) : ∃ r, Run env ok m r.1 r.2 ∧ P r := by
  obtain ⟨r, hrun, hP⟩ := (Option.any_eq_true ..).mp h
  exact ⟨r, run_of_runAll hrun, of_decide_eq_true hP⟩

/-! ### A small platform

One pseudo-TA and one TA, both without state, to run commands on. The TA accepts
every session with the context 7 and panics on command 13. -/

def samplePta : Pta := ⟨⟨Vector.replicate 16 2⟩, 0⟩

def sampleProps : TaProperties where
  uuid := ⟨Vector.replicate 16 1⟩
  stackSize := 4096
  dataSize := 4096
  singleInstance := true
  multiSession := true
  instanceKeepAlive := false
  endian := 0
  taVersion := 1

def sampleTa : EarlyTa := ⟨sampleProps.uuid, sampleProps, some ⟨1, 2, 3, 4, 5⟩⟩

/-- A platform with no shared memory, whose TAs and pseudo-TAs take every call; command 13 makes
a TA panic. -/
def platformOn (σ : Type) : Env σ Nat Unit where
  hal :=
    { entropyOrigin := fun _ => .isolated
      newAddressSpace := fun w => (0, w)
      lookupShm := fun _ _ => none
      lookupShmMut := fun _ _ => none
      shmLen := fun _ => 0
      syncIn := fun s => (.ok (), s)
      syncOut := fun s => (.ok (), s)
      mapInto := fun _ a _ => (.error .unsupported, a)
      mapImage := fun a va _ _ => (.ok va, a)
      unmap := fun a _ => a
      dropAll := fun _ w => w }
  ta :=
    { create := fun _ w => (.returns TEE_SUCCESS, w)
      destroy := fun _ w => (.returns (), w)
      openSession := fun _ _ raw _ w => (.returns (TEE_SUCCESS, raw, 7), w)
      closeSession := fun _ _ w => (.returns (), w)
      invoke := fun _ _ cmdId _ raw w =>
        if cmdId = 13 then (.panics, w) else (.returns (TEE_SUCCESS, raw), w) }
  pta :=
    { open_ := fun _ params w => (.returns (.ok 9, params), w)
      invoke := fun _ _ _ params w => (.returns (.ok, params), w)
      close := fun _ _ w => (.returns (), w) }
  crypto :=
    { sha256 := fun _ => []
      rsaPkcs1Verify := fun _ _ _ => false }
  target := ⟨.debug, true⟩

def sampleEnv : Env Unit Nat Unit := platformOn Unit

def sampleStart : Machine Unit Nat :=
  registerEarlyTa sampleTa (registerPta samplePta (Machine.new sampleEnv ()))

theorem sampleStart_booted : Booted sampleEnv sampleStart :=
  ((Booted.new ()).registerPta samplePta).registerEarlyTa sampleTa

def openCmd (uuid : Uuid) (login : Login) : KernelCmd := .openSession uuid login noParams 0 0

def sampleCmds : List KernelCmd :=
  [openCmd samplePta.uuid .public, openCmd sampleTa.uuid .user, .invoke 2 1 noParams 0 0,
    .closeSession 1]

def sampleOpened : Machine Unit Nat :=
  (dispatch sampleEnv (openCmd sampleTa.uuid .public)
    (dispatch sampleEnv (openCmd samplePta.uuid .public) sampleStart).2).2

theorem sampleOpened_run (ok : Machine Unit Nat → KernelCmd → Prop)
    (h1 : ok sampleStart (openCmd samplePta.uuid .public))
    (h2 : ok (dispatch sampleEnv (openCmd samplePta.uuid .public) sampleStart).2
      (openCmd sampleTa.uuid .public)) :
    ∃ steps, Run sampleEnv ok sampleStart steps sampleOpened :=
  ⟨_, .command (.command .start _ (.done .ok (some 1) noParams) h1 (by decide +kernel)) _
    (.done .ok (some 2) noParams) h2 (by decide +kernel)⟩

end Rustee.Os
