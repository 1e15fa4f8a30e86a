import Rustee.OsFrames
import Rustee.OsIds

/-!
# TA panics

What a panic takes down with it, and what becomes of the instance.

A panic kills one instance and poisons its sessions; the rest of the tables stays as it was, and
the instance is never entered again. It is also never given back: its lock stays taken and its
slot stays occupied.
-/

namespace Rustee.Os

open SlotTable List SessionTable

variable {σ A S : Type} {env : Env σ A S} {m m₀ m' m'' : Machine σ A} {t t' : Tables A}
  {evs : List Event} {ptas : PtaRegistry} {u : Option Uuid} {iid : InstanceId}
  {entry : EntryPoint} {cmd : KernelCmd} {out : KernelOut}

/-! ### Dead instances -/

def DeadAt (t : Tables A) (iid : InstanceId) : Prop :=
  ∃ i ∈ t.instances.entries, i.id = iid ∧ i.state = .dead

theorem deadAt_kill {i : Instance A} (h : t.instances.get iid = some i) :
    DeadAt (t.kill iid) iid := by
  have hget : (t.kill iid).instances.get iid =
      some { i with state := .dead, aspace := none, busy := true } :=
    get_update_self (fun _ => rfl) h
  exact ⟨_, (get_some hget).1, (get_some hget).2, rfl⟩

theorem DeadAt.not_target (h : DeadAt t iid) (ok : TablesOk t) :
    ¬ (t.instances.Fresh iid ∨ ∃ i, LiveAt t iid i) := by
  obtain ⟨i, hi, hid, hdead⟩ := h
  rintro (hfresh | ⟨j, hj⟩)
  · exact hfresh i hi hid
  · have hget : t.instances.get iid = some i := ok.instances.distinct.get_eq_some.mpr ⟨hi, hid⟩
    rw [hj.get, Option.some.injEq] at hget
    rw [← hget, hj.live] at hdead
    exact absurd hdead (by decide)

theorem DeadAt.acts (h : DeadAt t iid) (ok : TablesOk t) (hacts : Acts ptas u t evs t') :
    DeadAt t' iid ∧ ∀ call, .ta iid call ∉ evs := by
  obtain ⟨target, htouch, htarget⟩ := hacts.touches
  have hne : target ≠ some iid := fun heq => h.not_target ok (htarget iid heq)
  obtain ⟨i, hi, hid, hdead⟩ := h
  constructor
  · refine ⟨i, (htouch.others i ?_).mpr hi, hid, hdead⟩
    rw [hid]
    exact hne
  · intro call hev
    exact hne (htouch.events _ hev iid rfl)

variable {s' : Session}

theorem DeadAt.act_sessions (h : DeadAt t iid) (ok : TablesOk t) (hact : Act ptas u t evs t')
    (hs' : s' ∈ t'.sessions.entries) (hinst : s'.inst = some iid) :
    ∃ s ∈ t.sessions.entries, SameSession s s' := by
  rcases hact.sessionFrom ok hs' with hold | ⟨-, ⟨hpta, -⟩ | ⟨-, j, i, hlive, hj⟩⟩
  · exact hold
  · rcases (ok.act hact).session s' hs' with ⟨-, hnone, -⟩ | ⟨i, -, hserves⟩
    · exact absurd (hnone.symm.trans hinst) (by simp)
    · exact absurd (hpta.symm.trans hserves.kind) (by decide)
  · cases hinst.symm.trans hj
    exact absurd (.inr ⟨i, hlive⟩) (h.not_target ok)

theorem SameSession.trans {a b c : Session} (h1 : SameSession a b) (h2 : SameSession b c) :
    SameSession a c :=
  ⟨h1.id.trans h2.id, h1.uuid.trans h2.uuid, h1.kind.trans h2.kind, h1.inst.trans h2.inst,
    h1.ctx.trans h2.ctx, h1.client.trans h2.client⟩

theorem DeadAt.acts_sessions (h : DeadAt t iid) (ok : TablesOk t) (hacts : Acts ptas u t evs t')
    (hs' : s' ∈ t'.sessions.entries) (hinst : s'.inst = some iid) :
    ∃ s ∈ t.sessions.entries, SameSession s s' := by
  cases hacts with
  | one h1 => exact h.act_sessions ok h1 hs' hinst
  | two h1 h2 =>
    obtain ⟨s1, hs1, hsame1⟩ := (h.acts ok (.one h1)).1.act_sessions (ok.act h1) h2 hs' hinst
    obtain ⟨s, hs, hsame⟩ := h.act_sessions ok h1 hs1 (hsame1.inst.trans hinst)
    exact ⟨s, hs, hsame.trans hsame1⟩

/-! ### The command that panics -/

variable {s : Session}

theorem mem_poison_of_ne {sessions : SessionTable} (hs : s.inst ≠ some iid) :
    s ∈ (poisonInstance sessions iid).entries ↔ s ∈ sessions.entries := by
  rw [mem_poisonInstance]
  constructor
  · rintro (⟨s0, -, hinst, rfl⟩ | ⟨hmem, -⟩)
    · exact absurd hinst hs
    · exact hmem
  · intro hmem
    exact .inr ⟨hmem, hs⟩

theorem mem_takeSession_of_ne {sid : SessionId}
    (hs : SessionAt t sid s iid) (hs' : s'.inst ≠ some iid) :
    s' ∈ (t.sessions.take sid).2.entries ↔ s' ∈ t.sessions.entries := by
  have hne : s' ≠ s := by
    rintro rfl
    exact hs' hs.inst
  rw [(take_perm hs.get).mem_iff, mem_cons]
  exact ⟨.inr, fun h => h.resolve_left hne⟩

/-- After a panic of `iid` only that instance and its sessions have changed. -/
structure Contained (t t' : Tables A) (iid : InstanceId) : Prop where
  sessions : ∀ s : Session, s.inst ≠ some iid → (s ∈ t'.sessions.entries ↔ s ∈ t.sessions.entries)
  dead : DeadAt t' iid

theorem Act.contained (h : Act ptas u t evs t') (hev : .ta iid (.panicked entry) ∈ evs) :
    Contained t t' iid := by
  have hquiet : ¬ Quiet evs := fun hq => hq iid entry hev
  cases h with
  | idle | closedDead => exact absurd hev not_mem_nil
  | ptaCalled | ptaClosed | noSlot => cases mem_singleton.mp hev
  | ptaOpened | ptaUnrecorded | createRefused => exact absurd (by simp [Quiet]) hquiet
  | created props aspace entries =>
    have hcreate : Quiet (createdBy t.instances.nextId entries) := quiet_if (by simp)
    have hissue : Quiet [.instanceIssued (some t.instances.nextId)] := by simp [Quiet]
    exact absurd (hissue.append hcreate) hquiet
  | createPanicked props aspace entries hu hroom hfresh =>
    obtain rfl : iid = t.instances.nextId := by
      rcases mem_cons.mp hev with h | h
      · cases h
      · cases mem_singleton.mp h
        rfl
    exact ⟨fun s hs => mem_poison_of_ne hs, deadAt_kill (get_alloc hroom hfresh _)⟩
  | bound j i login out hi hmulti hfresh hbinds => exact absurd hbinds.quiet hquiet
  | invoked sid s j i out hs hi hinv => exact absurd hinv.quiet hquiet
  | panicked j i e hi =>
    cases mem_singleton.mp hev
    exact ⟨fun s hs => mem_poison_of_ne hs, deadAt_kill hi.get⟩
  | closed sid s j i out hs hi hcloses => exact absurd hcloses.quiet hquiet
  | closePanicked sid s j i hs hi hpanics =>
    cases hpanics with
    | closeSession =>
      cases mem_singleton.mp hev
      refine ⟨fun s' hs' => ?_, deadAt_kill (t := t.withSessions (t.sessions.take sid).2) hi.get⟩
      exact (mem_poison_of_ne hs').trans (mem_takeSession_of_ne hs hs')
    | destroy =>
      have hj : iid = j := by
        exact ((about_if j _).append (about_call j _)) _ hev iid rfl
      subst hj
      have hget : ((t.withSessions (t.sessions.take sid).2).release iid).instances.get iid =
          some { i with sessionCount := countDown i.sessionCount } :=
        get_update_self (fun _ => rfl) hi.get
      refine ⟨fun s' hs' => ?_, deadAt_kill hget⟩
      exact (mem_poison_of_ne hs').trans (mem_takeSession_of_ne hs hs')

theorem Acts.contained (h : Acts ptas u t evs t') (hev : .ta iid (.panicked entry) ∈ evs) :
    Contained t t' iid := by
  cases h with
  | one h => exact h.contained hev
  | two h1 h2 hroom hfresh hissue hcreated =>
    subst hissue hcreated
    rcases mem_append.mp hev with h | h
    · rcases mem_cons.mp h with h' | h'
      · cases h'
      · exact absurd h' ((quiet_if (by simp) : Quiet (createdBy _ _)) iid entry)
    · have hcont := h2.contained h
      exact ⟨hcont.sessions, hcont.dead⟩

/-! ### Everything after the panic -/

/-- Since `m'` the dead instance `iid` has not been entered and has got no session. -/
structure Buried (m' m'' : Machine σ A) (iid : InstanceId) : Prop where
  ok : KernelOk m''
  dead : DeadAt m''.tables iid
  calls : ∃ evs, m''.log = m'.log ++ evs ∧ ∀ call, .ta iid call ∉ evs
  sessions : ∀ s ∈ m''.sessions.entries, s.inst = some iid →
    ∃ s₀ ∈ m'.sessions.entries, SameSession s₀ s
  gate : m''.noticesOk = m'.noticesOk

theorem Buried.refl (ok : KernelOk m) (hdead : DeadAt m.tables iid) : Buried m m iid :=
  ⟨ok, hdead, ⟨[], (append_nil _).symm, by simp⟩, fun s hs _ => ⟨s, hs, .refl s⟩, rfl⟩

theorem Buried.step {m1 m2 : Machine σ A} (h : Buried m' m1 iid) (hstep : Step m1 cmd out m2) :
    Buried m' m2 iid := by
  obtain ⟨u, evs, hacts, hlog, -, hgate⟩ := hstep.acts
  obtain ⟨hdead, hcalls⟩ := h.dead.acts h.ok.tables hacts
  obtain ⟨evs1, hlog1, hcalls1⟩ := h.calls
  refine ⟨h.ok.step hstep, hdead, ⟨evs1 ++ evs, ?_, ?_⟩, ?_, hgate.trans h.gate⟩
  · rw [hlog, hlog1, append_assoc]
  · intro call hev
    rcases mem_append.mp hev with h' | h'
    · exact hcalls1 call h'
    · exact hcalls call h'
  · intro s hs hinst
    obtain ⟨s1, hs1, hsame1⟩ := h.dead.acts_sessions h.ok.tables hacts hs hinst
    obtain ⟨s0, hs0, hsame0⟩ := h.sessions s1 hs1 (hsame1.inst.trans hinst)
    exact ⟨s0, hs0, hsame0.trans hsame1⟩

variable {steps : List (Taken σ A)}

theorem Buried.run (h : Buried m' m' iid)
    (hrun : Run env (fun m _ => FreshIds m) m' steps m'') : Buried m' m'' iid := by
  refine hrun.invariant (P := fun m => Buried m' m iid) ?_ ?_ h
  · intro m1 cmd out m2 hfresh ih hd
    exact ih.step (dispatch_step env ih.ok hfresh hd)
  · intro m1 w ih
    exact ⟨ih.ok.outside w, ih.dead, ih.calls, ih.sessions, ih.gate⟩

theorem DeadAt.session_dead (h : DeadAt t iid) (ok : TablesOk t)
    (hs : s ∈ t.sessions.entries) (hinst : s.inst = some iid) : s.state = .dead := by
  rcases ok.session s hs with ⟨-, hnone, -⟩ | ⟨j, hj, hserves⟩
  · exact absurd (hnone.symm.trans hinst) (by simp)
  · rcases hserves.state with ⟨hlive, -⟩ | ⟨-, hdead⟩
    · have hjid : j.id = iid := Option.some.inj (hserves.inst.symm.trans hinst)
      have hget : t.instances.get iid = some j := ok.instances.distinct.get_eq_some.mpr ⟨hj, hjid⟩
      exact absurd (.inr ⟨j, hget, hlive⟩) (h.not_target ok)
    · exact hdead

theorem dispatch_invoke_dead (env : Env σ A S) (hgate : m.noticesOk = true)
    {sid : SessionId} (hget : m.sessions.get sid = some s) (hdead : s.state = .dead)
    (cmdId : UInt32) (params : Params) {cancelId : UInt32} (timeoutMs : UInt32)
    (hcancel : cancelId ∉ m.cancelledIds) :
    dispatch env (.invoke sid cmdId params cancelId timeoutMs) m =
      (.out (.doneErr TEE_ERROR_TARGET_DEAD), m) := by
  have hany : m.cancelledIds.any (· == cancelId) = false := by
    rw [any_eq_false]
    intro id hid heq
    exact hcancel (beq_iff_eq.mp heq ▸ hid)
  have hinvoke : execute env (.invoke sid cmdId params cancelId timeoutMs) m =
      (.value (.doneErr TEE_ERROR_TARGET_DEAD), m) := by
    simp [execute, invoke, cancelled, Prog.bind_apply, hany, hget, hdead]
  rw [dispatch, handle_of_gate env hgate, hinvoke]

/-! ### Containment -/

/-- A command in which `iid` panicked took `m` to `m'` with output `out`. -/
structure PanicContained (env : Env σ A S) (m : Machine σ A) (out : KernelOut)
    (m' : Machine σ A) (iid : InstanceId) : Prop where
  out : out = .doneErr TEE_ERROR_TARGET_DEAD
  sessions : ∀ s : Session, s.inst ≠ some iid → (s ∈ m'.sessions.entries ↔ s ∈ m.sessions.entries)
  instances : ∀ j : Instance A, j.id ≠ iid → (j ∈ m'.instances.entries ↔ j ∈ m.instances.entries)
  calls : ∀ steps m'', Run env (fun m _ => FreshIds m) m' steps m'' →
    ∃ evs, m''.log = m'.log ++ evs ∧ ∀ call, .ta iid call ∉ evs
  bound : ∀ steps m'', Run env (fun m _ => FreshIds m) m' steps m'' →
    ∀ s ∈ m''.sessions.entries, s.inst = some iid → ∃ s₀ ∈ m'.sessions.entries, SameSession s₀ s
  invoke : ∀ steps m'', Run env (fun m _ => FreshIds m) m' steps m'' →
    ∀ s ∈ m''.sessions.entries, s.inst = some iid →
      ∀ cmdId params cancelId timeoutMs, cancelId ∉ m''.cancelledIds →
        dispatch env (.invoke s.id cmdId params cancelId timeoutMs) m'' =
          (.out (.doneErr TEE_ERROR_TARGET_DEAD), m'')

theorem gate_of_logged (hd : dispatch env cmd m = (.out out, m')) (hlog : m'.log = m.log ++ evs)
    (hevs : evs ≠ []) : m.noticesOk = true := by
  cases hgate : m.noticesOk with
  | true => rfl
  | false =>
    rw [dispatch, handle_of_closed_gate env hgate] at hd
    cases hd
    exact absurd (self_eq_append_right.mp hlog) hevs

/-- **A TA panic is contained**, in every run in which no command finds the next id of
a table in use. -/
theorem ta_panic_contained {steps : List (Taken σ A)} (hb : Booted env m₀)
    (hrun : Run env (fun m _ => FreshIds m) m₀ steps m) (hfresh : FreshIds m)
    (hd : dispatch env cmd m = (.out out, m')) (hlog : m'.log = m.log ++ evs)
    (hpanic : .ta iid (.panicked entry) ∈ evs) : PanicContained env m out m' iid := by
  have ok := hrun.kernelOk (fun _ _ h => h) hb.kernelOk
  have hstep := dispatch_step env ok hfresh hd
  obtain ⟨u, evs', hacts, hlog', hout, hgate⟩ := hstep.acts
  obtain rfl : evs = evs' := append_cancel_left (hlog.symm.trans hlog')
  have hcont := hacts.contained hpanic
  obtain ⟨target, htouch, -⟩ := hacts.touches
  have htarget : target = some iid := htouch.events _ hpanic iid rfl
  have hopen : m'.noticesOk = true :=
    hgate.trans (gate_of_logged hd hlog (ne_nil_of_mem hpanic))
  have hburied : Buried m' m' iid := .refl (ok.step hstep) hcont.dead
  refine ⟨?_, hcont.sessions, ?_, ?_, ?_, ?_⟩
  · rcases hout with hquiet | hdead
    · exact absurd hpanic (hquiet iid entry)
    · exact hdead
  · intro j hj
    apply htouch.others
    rw [htarget]
    exact fun heq => hj (Option.some.inj heq).symm
  · intro steps' m'' hrun'
    exact (hburied.run hrun').calls
  · intro steps' m'' hrun'
    exact (hburied.run hrun').sessions
  · intro steps' m'' hrun' s hs hinst cmdId params cancelId timeoutMs hcancel
    have hend := hburied.run hrun'
    have hget : m''.sessions.get s.id = some s :=
      hend.ok.tables.sessions.distinct.get_eq_some.mpr ⟨hs, rfl⟩
    exact dispatch_invoke_dead env (hend.gate.trans hopen) hget
      (hend.dead.session_dead hend.ok.tables hs hinst) cmdId params timeoutMs hcancel

def samplePanicked : Machine Unit Nat :=
  (dispatch sampleEnv (.invoke 2 13 noParams 0 0) sampleOpened).2

theorem samplePanicked_reached :
    (FreshIds sampleStart ∧
      FreshIds (dispatch sampleEnv (openCmd samplePta.uuid .public) sampleStart).2 ∧
      FreshIds sampleOpened) ∧
    dispatch sampleEnv (.invoke 2 13 noParams 0 0) sampleOpened =
      (.out (.doneErr TEE_ERROR_TARGET_DEAD), samplePanicked) ∧
    samplePanicked.log = sampleOpened.log ++ [.ta 1 (.panicked .invoke)] := by
  decide +kernel

theorem ta_panic_contained_sample :
    PanicContained sampleEnv sampleOpened (.doneErr TEE_ERROR_TARGET_DEAD) samplePanicked 1 := by
  obtain ⟨⟨hstart, hnext, hopened⟩, hd, hlog⟩ := samplePanicked_reached
  obtain ⟨_, hrun⟩ := sampleOpened_run (fun m _ => FreshIds m) hstart hnext
  exact ta_panic_contained sampleStart_booted hrun hopened hd hlog mem_cons_self

def sampleFreed : Machine Unit Nat :=
  (dispatch sampleEnv (.closeSession 1) samplePanicked).2

def sampleAround : SessionTable := { sampleFreed.sessions with nextId := nthId 1 }

/-- When the counter has come round, a new session of a pseudo-TA gets the id of a
session of the dead instance, and an invoke on that id goes through. -/
theorem ta_panic_uncontained :
    ∃ steps, Run sampleEnv (fun _ _ => True) sampleStart steps sampleOpened ∧
      dispatch sampleEnv (.invoke 2 13 noParams 0 0) sampleOpened =
        (.out (.doneErr TEE_ERROR_TARGET_DEAD), samplePanicked) ∧
      samplePanicked.log = sampleOpened.log ++ [.ta 1 (.panicked .invoke)] ∧
      ∃ steps' m'' s, Run sampleEnv (fun _ _ => True) samplePanicked steps' m'' ∧
        s ∈ m''.sessions.entries ∧ s.inst = some 1 ∧ m''.cancelledIds = [] ∧
        (dispatch sampleEnv (.invoke s.id 0 noParams 0 0) m'').1 =
          .out (.done .ok (some s.id) noParams) := by
  obtain ⟨steps, hrun⟩ := sampleOpened_run (fun _ _ => True) trivial trivial
  refine ⟨steps, hrun, samplePanicked_reached.2.1, samplePanicked_reached.2.2, ?_⟩
  have hclose : dispatch sampleEnv (.closeSession 1) samplePanicked =
      (.out closed, sampleFreed) := by
    decide +kernel
  have hacc : Accepts sampleEnv sampleFreed samplePta 9 :=
    ⟨by decide +kernel, by decide +kernel, by decide +kernel, fun _ => rfl, fun _ => rfl⟩
  obtain ⟨steps', log, hcycles⟩ :=
    run_around (k := 1) hacc (by decide +kernel) (by decide +kernel) (by decide +kernel)
  -- the pseudo-TA is opened again: the lookup of session 2 finds its session in the first slot
  obtain ⟨hroom, hmem, hget⟩ : sampleAround.HasRoom ∧
      { userSession 1 sampleTa.uuid .public 7 with id := 2, state := .dead } ∈
        (sampleAround.alloc (ptaSession samplePta.uuid .public 9)).2.entries ∧
      (sampleAround.alloc (ptaSession samplePta.uuid .public 9)).2.get 2 =
        some { ptaSession samplePta.uuid .public 9 with id := 2 } := by
    decide +kernel
  have hopen := dispatch_open_accepts (hacc.of_sessions sampleAround log) hroom .public
  have hrun' := (Run.append (.command .start _ _ trivial hclose) hcycles).command _ _ trivial hopen
  refine ⟨_, _, _, hrun', hmem, rfl, hacc.uncancelled, ?_⟩
  exact dispatch_invoke_accepts ((hacc.of_sessions sampleAround log).of_sessions _ _) hget rfl
    rfl rfl rfl

/-! ### Reclaiming -/

/-- Some entry point of `iid` has panicked. -/
def Panicked (log : List Event) (iid : InstanceId) : Prop :=
  ∃ entry, .ta iid (.panicked entry) ∈ log

/-- In a run that has never issued an id in use, an instance that panicked is Dead and
still in the table. -/
theorem Run.panicked_deadAt (hb : Booted env m₀)
    (hrun : Run env (fun m _ => FreshIds m) m₀ steps m) (hpanic : Panicked m.log iid) :
    DeadAt m.tables iid := by
  have hinv : KernelOk m ∧ ∀ iid, Panicked m.log iid → DeadAt m.tables iid := by
    refine hrun.invariant (P := fun m => KernelOk m ∧ ∀ iid, Panicked m.log iid →
      DeadAt m.tables iid) ?_ ?_ ⟨hb.kernelOk, ?_⟩
    · rintro m cmd out m' hfresh ⟨ok, ih⟩ hd
      have hstep := dispatch_step env ok hfresh hd
      refine ⟨ok.step hstep, ?_⟩
      obtain ⟨u, evs, hacts, hlog, -⟩ := hstep.acts
      rintro iid ⟨entry, hev⟩
      rw [hlog] at hev
      rcases mem_append.mp hev with hold | hnew
      · exact ((ih iid ⟨entry, hold⟩).acts ok.tables hacts).1
      · exact (hacts.contained hnew).dead
    · rintro m w ⟨ok, ih⟩
      exact ⟨ok.outside w, ih⟩
    · rintro iid ⟨entry, hev⟩
      rw [hb.idle.log] at hev
      exact absurd hev not_mem_nil
  exact hinv.2 iid hpanic

/-- Once all sessions of a panicked instance are closed, those closes have succeeded and
the instance is out of the table. -/
def Reclaims (steps : List (Taken σ A)) (m : Machine σ A) : Prop :=
  ∀ iid, Panicked m.log iid → (∀ s ∈ m.sessions.entries, s.inst ≠ some iid) →
    (∀ st ∈ steps, ∀ sid s, st.cmd = .closeSession sid → st.before.sessions.get sid = some s →
      s.inst = some iid → Panicked st.before.log iid → st.out = closed) ∧
    m.instances.Fresh iid

/-- **Panicked instances are not reclaimed.**  The runs that reclaim them are those in
which every panicked instance still has a session in the table. -/
theorem reclaims_iff_sessions_left {steps : List (Taken σ A)} (hb : Booted env m₀)
    (hrun : Run env (fun m _ => FreshIds m) m₀ steps m) :
    Reclaims steps m ↔ ∀ iid, Panicked m.log iid → ∃ s ∈ m.sessions.entries, s.inst = some iid := by
  constructor
  · intro hreclaims iid hpanic
    by_contra hnone
    have hclosed : ∀ s ∈ m.sessions.entries, s.inst ≠ some iid :=
      fun s hs hinst => hnone ⟨s, hs, hinst⟩
    obtain ⟨i, hi, hid, -⟩ := hrun.panicked_deadAt hb hpanic
    exact (hreclaims iid hpanic hclosed).2 i hi hid
  · intro hleft iid hpanic hclosed
    obtain ⟨s, hs, hinst⟩ := hleft iid hpanic
    exact absurd hinst (hclosed s hs)

theorem reclaims_iff_sessions_left_sample :
    Panicked samplePanicked.log 1 ∧
      ∃ steps, Run sampleEnv (fun m _ => FreshIds m) sampleStart steps samplePanicked ∧
        (Reclaims steps samplePanicked ↔ ∀ iid, Panicked samplePanicked.log iid →
          ∃ s ∈ samplePanicked.sessions.entries, s.inst = some iid) := by
  obtain ⟨⟨hstart, hnext, hopened⟩, hd, hlog⟩ := samplePanicked_reached
  obtain ⟨steps, hsteps⟩ := sampleOpened_run (fun m _ => FreshIds m) hstart hnext
  have hrun := hsteps.command _ _ hopened hd
  have hpanic : .ta 1 (.panicked .invoke) ∈ samplePanicked.log := by
    rw [hlog]
    exact mem_append_right _ mem_cons_self
  exact ⟨⟨.invoke, hpanic⟩, _, hrun, reclaims_iff_sessions_left sampleStart_booted hrun⟩

/-- Sixteen times: open a session with the TA, make it panic, close the session. -/
def crashingCmds : List KernelCmd :=
  (range MAX_INSTANCES).flatMap fun k =>
    [openCmd sampleTa.uuid .public, .invoke (nthId k) 13 noParams 0 0, .closeSession (nthId k)]

/-- What is left after them: no session, every instance, and no room for another. -/
def CrashesLeft (r : List (Taken Unit Nat) × Machine Unit Nat) : Prop :=
  r.2.sessions.entries = [] ∧
    (∃ st ∈ r.1, st.cmd = .closeSession 1 ∧ st.out = .doneErr TEE_ERROR_BUSY) ∧
    (dispatch sampleEnv (openCmd sampleTa.uuid .public) r.2).1 =
      .out (.doneErr TEE_ERROR_OUT_OF_MEMORY) ∧
    .ta 1 (.panicked .invoke) ∈ r.2.log ∧ ∃ i ∈ r.2.instances.entries, i.id = 1

instance (r : List (Taken Unit Nat) × Machine Unit Nat) : Decidable (CrashesLeft r) :=
  inferInstanceAs (Decidable (_ ∧ _))

/-- The closes return BUSY, the instances stay, and the seventeenth open finds no slot. -/
theorem panicked_instances_leak :
    ∃ steps m, Run sampleEnv (fun m _ => FreshIds m) sampleStart steps m ∧
      ¬ Reclaims steps m ∧ m.sessions.entries = [] ∧
      (∃ st ∈ steps, st.cmd = .closeSession 1 ∧ st.out = .doneErr TEE_ERROR_BUSY) ∧
      (dispatch sampleEnv (openCmd sampleTa.uuid .public) m).1 =
        .out (.doneErr TEE_ERROR_OUT_OF_MEMORY) := by
  obtain ⟨r, hrun, hclosed, hbusy, hfull, hpanic, i, hi, hid⟩ := exists_run_of_runAll sampleEnv
    (fun m _ => FreshIds m) crashingCmds sampleStart CrashesLeft (by decide +kernel)
  refine ⟨r.1, r.2, hrun, ?_, hclosed, hbusy, hfull⟩
  intro hreclaims
  have hnone : ∀ s ∈ r.2.sessions.entries, s.inst ≠ some 1 := by
    rw [hclosed]
    exact fun s hs => (not_mem_nil hs).elim
  exact (hreclaims 1 ⟨.invoke, hpanic⟩ hnone).2 i hi hid

/-- One command of the table machine, on the tables and the log. -/
def TableStep (ptas : PtaRegistry) (s s' : Tables A × List Event) : Prop :=
  ∃ u evs, Acts ptas u s.1 evs s'.1 ∧ s'.2 = s.2 ++ evs

/-- A run of the kernel, whatever panics in it, is a run of the table machine on the same tables
with the same calls, and its tables agree. -/
theorem run_refines_table_machine {steps : List (Taken σ A)} (hb : Booted env m₀)
    (hrun : Run env (fun m _ => FreshIds m) m₀ steps m) : TablesOk m.tables ∧
      Relation.ReflTransGen (TableStep m₀.ptas) (m₀.tables, m₀.log) (m.tables, m.log) := by
  have hinv := hrun.invariant (P := fun m => KernelOk m ∧ m.ptas = m₀.ptas ∧
    Relation.ReflTransGen (TableStep m₀.ptas) (m₀.tables, m₀.log) (m.tables, m.log)) ?_
    (fun _ w h => ⟨h.1.outside w, h.2⟩) ⟨hb.kernelOk, rfl, .refl⟩
  · exact ⟨hinv.1.tables, hinv.2.2⟩
  · rintro m cmd out m' hf ⟨ok, hptas, hrefl⟩ hd
    have hstep := dispatch_step env ok hf hd
    obtain ⟨u, evs, hacts, hlog, -⟩ := hstep.acts
    refine ⟨ok.step hstep, ?_, hrefl.tail ⟨u, evs, hptas ▸ hacts, hlog⟩⟩
    cases hstep <;> exact hptas

theorem run_refines_table_machine_sample : Relation.ReflTransGen (TableStep [samplePta])
    (sampleStart.tables, []) (samplePanicked.tables, samplePanicked.log) := by
  obtain ⟨⟨hstart, hnext, hopened⟩, hd, -⟩ := samplePanicked_reached
  obtain ⟨_, hrun⟩ := sampleOpened_run (fun m _ => FreshIds m) hstart hnext
  exact (run_refines_table_machine sampleStart_booted (.command hrun _ _ hopened hd)).2

end Rustee.Os
