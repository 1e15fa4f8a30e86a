import Rustee.OsFrames
import Rustee.OsIds

/-!
# The table invariant of panic-free runs

As long as no TA panics and neither table has issued 2³² − 1 ids, the two tables describe the same
sessions at every command boundary: each session of a user TA names a Live instance, each instance
counts its sessions, and no lock is held.
-/

namespace Rustee.Os

open SlotTable List InstanceTable SessionTable

variable {σ A S : Type} {env : Env σ A S} {m m₀ m' : Machine σ A}

/-- What the two tables look like between two commands. -/
structure TableInvariant (m : Machine σ A) : Prop where
  sessionsDistinct : m.sessions.Distinct
  sessionsNonzero : ∀ s ∈ m.sessions.entries, s.id ≠ 0
  instancesDistinct : m.instances.Distinct
  instancesNonzero : ∀ i ∈ m.instances.entries, i.id ≠ 0
  session : ∀ s ∈ m.sessions.entries, s.kind = .userTa →
    ∃ i ∈ m.instances.entries, s.inst = some i.id ∧ i.state = .live ∧
      s.uuid = i.uuid ∧ i.uuid = i.props.uuid
  count : ∀ i ∈ m.instances.entries,
    i.sessionCount.toNat = naming m.sessions i.id
  single : ∀ i ∈ m.instances.entries, ∀ j ∈ m.instances.entries,
    i.state = .live → j.state = .live → i.props.singleInstance = true →
      j.props.singleInstance = true → i.uuid = j.uuid → i = j
  multi : ∀ i ∈ m.instances.entries, i.props.multiSession = false → naming m.sessions i.id ≤ 1
  free : ∀ i ∈ m.instances.entries, i.busy = false
  current : m.currentInstance = none

def AllLive (t : Tables A) : Prop := ∀ i ∈ t.instances.entries, i.state = .live

theorem TableInvariant.of_allLive (ok : KernelOk m) (hlive : AllLive m.tables) :
    TableInvariant m := by
  have hinst : ∀ i ∈ m.instances.entries, i.props.uuid = i.uuid ∧ i.busy = false ∧
      i.sessionCount.toNat = naming m.sessions i.id ∧
      (i.props.multiSession = false → i.sessionCount.toNat ≤ 1) := by
    intro i hi
    cases ok.tables.inst i hi with
    | live huuid _ hbusy hcount hmulti => exact ⟨huuid, hbusy, hcount, hmulti⟩
    | dead _ hdead => exact absurd ((hlive i hi).symm.trans hdead) (by decide)
  refine
    { sessionsDistinct := ok.tables.sessions.distinct
      sessionsNonzero := ok.tables.sessions.nonzero
      instancesDistinct := ok.tables.instances.distinct
      instancesNonzero := ok.tables.instances.nonzero
      session := ?_, count := ?_, single := ?_, multi := ?_, free := ?_
      current := ok.current }
  · intro s hs hk
    rcases ok.tables.session s hs with ⟨hpta, -⟩ | ⟨i, hi, hserves⟩
    · exact absurd (hk.symm.trans hpta) (by decide)
    · exact ⟨i, hi, hserves.inst, hlive i hi, hserves.uuid, (hinst i hi).1.symm⟩
  · intro i hi
    exact (hinst i hi).2.2.1
  · intro i hi j hj hil hjl his hjs huuid
    apply ok.tables.single i hi j hj
    · simp [isLiveSingle, hil, his]
    · simp [isLiveSingle, hjl, hjs, huuid]
  · intro i hi hmulti
    obtain ⟨-, -, hcount, hone⟩ := hinst i hi
    rw [← hcount]
    exact hone hmulti
  · intro i hi
    exact (hinst i hi).2.1

theorem Quiet.of_append {evs1 evs2 : List Event} (h : Quiet (evs1 ++ evs2)) :
    Quiet evs1 ∧ Quiet evs2 :=
  ⟨fun iid entry hev => h iid entry (mem_append_left _ hev),
    fun iid entry hev => h iid entry (mem_append_right _ hev)⟩

theorem AllLive.acts {t t' : Tables A} {ptas : PtaRegistry} {u : Option Uuid} {evs : List Event}
    (hlive : AllLive t) (ok : TablesOk t) (h : Acts ptas u t evs t') (hquiet : Quiet evs) :
    AllLive t' := by
  cases h with
  | one h => exact h.allLive ok hquiet hlive
  | two h1 h2 =>
    obtain ⟨hq1, hq2⟩ := hquiet.of_append
    exact h2.allLive (ok.act h1) hq2 (h1.allLive ok hq1 hlive)

theorem AllLive.step {cmd : KernelCmd} {out : KernelOut} (hlive : AllLive m.tables)
    (ok : KernelOk m) (h : Step m cmd out m') (hquiet : Quiet m'.log) : AllLive m'.tables := by
  obtain ⟨u, evs, hacts, hlog, -⟩ := h.acts
  rw [hlog] at hquiet
  exact hlive.acts ok.tables hacts hquiet.of_append.2

/-- Fewer allocations than ids in each table, and no TA has panicked. -/
structure Calm (log : List Event) : Prop where
  sessions : (sessionIds log).length < idCount
  instances : (instanceIds log).length < idCount
  quiet : Quiet log

theorem Calm.of_append {log evs : List Event} (h : Calm (log ++ evs)) : Calm log := by
  have hs := h.sessions
  have hi := h.instances
  rw [sessionIds_append, length_append] at hs
  rw [instanceIds_append, length_append] at hi
  exact ⟨by omega, by omega, h.quiet.of_append.1⟩

theorem Calm.young (h : Calm m.log) (hn : IdsNumbered m.log m.tables) : YoungIds m :=
  ⟨hn.sessions.young h.sessions, hn.instances.young h.instances⟩

/-- **The table invariant.**  It holds in every state a booted kernel reaches without a
TA panic and with fewer than 2³² − 1 allocations in each table. -/
theorem table_invariant {steps : List (Taken σ A)} (hb : Booted env m₀)
    (hrun : Run env (fun _ _ => True) m₀ steps m)
    (hsessions : (sessionIds m.log).length < 2 ^ 32 - 1)
    (hinstances : (instanceIds m.log).length < 2 ^ 32 - 1)
    (hquiet : Quiet m.log) : TableInvariant m := by
  -- the log only grows, so a calm end has been calm all along
  have hinv : Calm m.log → KernelOk m ∧ IdsNumbered m.log m.tables ∧ AllLive m.tables := by
    refine hrun.invariant (P := fun m => Calm m.log →
      KernelOk m ∧ IdsNumbered m.log m.tables ∧ AllLive m.tables) ?_ (fun m w h hcalm => ?_) ?_
    · intro m cmd out m' _ ih hd hcalm
      have hgrows := dispatch_grows env cmd m
      rw [hd] at hgrows
      obtain ⟨evs, hlog, -⟩ := hgrows.log
      have hbefore : Calm m.log := Calm.of_append (hlog ▸ hcalm)
      obtain ⟨ok, hn, hlive⟩ := ih hbefore
      have hstep := dispatch_step env ok (hn.freshIds (hbefore.young hn)) hd
      exact ⟨ok.step hstep, hn.step hstep, hlive.step ok hstep hcalm.quiet⟩
    · obtain ⟨ok, hn, hlive⟩ := h hcalm
      exact ⟨ok.outside w, hn, hlive⟩
    · intro _
      refine ⟨hb.kernelOk, hb.idsNumbered, ?_⟩
      rw [hb.idle.tables]
      intro i hi
      exact absurd hi (by simp)
  obtain ⟨ok, -, hlive⟩ := hinv ⟨hsessions, hinstances, hquiet⟩
  exact .of_allLive ok hlive

theorem table_invariant_sample :
    ∃ steps m, Run sampleEnv (fun _ _ => True) sampleStart steps m ∧ steps.length = 4 ∧
      TableInvariant m := by
  obtain ⟨r, hrun, hlen, hsessions, hinstances, hquiet⟩ := exists_run_of_runAll sampleEnv
    (fun _ _ => True) sampleCmds sampleStart
    (fun r => r.1.length = 4 ∧ (sessionIds r.2.log).length < 2 ^ 32 - 1 ∧
      (instanceIds r.2.log).length < 2 ^ 32 - 1 ∧ Quiet r.2.log) (by decide +kernel)
  exact ⟨r.1, r.2, hrun, hlen, table_invariant sampleStart_booted hrun hsessions hinstances hquiet⟩

end Rustee.Os
