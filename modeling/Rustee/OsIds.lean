import Rustee.OsRuns

/-!
# Session and instance ids over whole runs

Each table numbers its allocations with a wrapping counter that skips 0, also those that find no
free slot, and never looks at the ids in use. The log lists every allocation, so an id can be
traced back to its own. As long as no entry is older than 2³² − 2 allocations, every issued id is
fresh; one session kept open for 2³² − 1 allocations is enough for the next one to share its id.
-/

namespace Rustee.Os

open SlotTable List Tables

variable {σ A S : Type} {env : Env σ A S} {m m₀ m' : Machine σ A} {t t' : Tables A}
  {evs : List Event} {ptas : PtaRegistry} {u : Option Uuid}

/-! ### Allocations in the log -/

def sessionIds (log : List Event) : List (Option SessionId) :=
  log.filterMap fun
    | .sessionIssued r => some r
    | _ => none

def instanceIds (log : List Event) : List (Option InstanceId) :=
  log.filterMap fun
    | .instanceIssued r => some r
    | _ => none

theorem sessionIds_append (evs evs' : List Event) :
    sessionIds (evs ++ evs') = sessionIds evs ++ sessionIds evs' := filterMap_append

theorem instanceIds_append (evs evs' : List Event) :
    instanceIds (evs ++ evs') = instanceIds evs ++ instanceIds evs' := filterMap_append

theorem mem_sessionIds {r : Option SessionId} : r ∈ sessionIds evs ↔ .sessionIssued r ∈ evs := by
  rw [sessionIds, mem_filterMap]
  constructor
  · rintro ⟨ev, hev, h⟩
    cases ev with
    | sessionIssued =>
      cases h
      exact hev
    | instanceIssued | ta | pta => cases h
  · intro h
    exact ⟨_, h, rfl⟩

theorem mem_instanceIds {r : Option InstanceId} :
    r ∈ instanceIds evs ↔ .instanceIssued r ∈ evs := by
  rw [instanceIds, mem_filterMap]
  constructor
  · rintro ⟨ev, hev, h⟩
    cases ev with
    | instanceIssued =>
      cases h
      exact hev
    | sessionIssued | ta | pta => cases h
  · intro h
    exact ⟨_, h, rfl⟩

/-! ### Acts allocate at most once -/

section
variable {c : Prop} [Decidable c] (iid : InstanceId) (call : TaCall)

theorem sessionIds_if : sessionIds (if c then [.ta iid call] else []) = [] := by
  split <;> rfl

theorem instanceIds_if : instanceIds (if c then [.ta iid call] else []) = [] := by
  split <;> rfl

end

theorem advances_poison {sessions sessions' : SessionTable} {ids : List (Option SessionId)}
    (h : Advances sessions ids sessions') (iid : InstanceId) :
    Advances sessions ids (SessionTable.poisonInstance sessions' iid) := by
  refine h.mapEntries fun s => ?_
  by_cases hs : s.inst = some iid
  · rw [if_pos hs]
    rfl
  · rw [if_neg hs]

section
variable {iid : InstanceId} {i : Instance A} {uuid : Uuid} {login : Login} {out : KernelOut}

theorem Binds.sessions_advance (h : Binds iid i uuid login t evs out t') :
    Advances t.sessions (sessionIds evs) t'.sessions := by
  cases h with
  | unmapped | refused => exact .refl _
  | unrecorded a ctx hroom =>
    have hadv := Advances.alloc t.sessions (userSession iid uuid login ctx)
    rw [sessionIds_append, acceptedBy, sessionIds_if]
    simp only [withSessions, alloc_of_full hroom] at hadv ⊢
    exact hadv
  | recorded a ctx params hroom =>
    have hadv := Advances.alloc t.sessions (userSession iid uuid login ctx)
    obtain ⟨t1, halloc, -⟩ := alloc_of_room hroom (userSession iid uuid login ctx)
    rw [sessionIds_append, acceptedBy, sessionIds_if]
    simp only [withSessions, halloc] at hadv ⊢
    exact hadv

theorem Binds.instances_advance (h : Binds iid i uuid login t evs out t') :
    Advances t.instances (instanceIds evs) t'.instances := by
  have hnone : instanceIds evs = [] := by
    rw [eq_nil_iff_forall_not_mem]
    intro r hr
    exact h.noInstance r (mem_instanceIds.mp hr)
  rw [hnone]
  cases h with
  | unmapped | refused | unrecorded | recorded => exact (Advances.refl _).update fun _ => rfl

end

theorem Act.sessions_advance (h : Act ptas u t evs t') :
    Advances t.sessions (sessionIds evs) t'.sessions := by
  cases h with
  | idle | ptaCalled | noSlot | createRefused => exact .refl _
  | ptaOpened uuid login ctx hreg hroom =>
    have hadv := Advances.alloc t.sessions (ptaSession uuid login ctx)
    obtain ⟨t1, halloc, -⟩ := alloc_of_room hroom (ptaSession uuid login ctx)
    rw [halloc] at hadv
    simp only [withSessions, halloc]
    exact hadv
  | ptaUnrecorded uuid login ctx hroom =>
    have hadv := Advances.alloc t.sessions (ptaSession uuid login ctx)
    simp only [withSessions, alloc_of_full hroom] at hadv ⊢
    exact hadv
  | ptaClosed sid | closedDead sid => exact .take _ sid
  | created props aspace entries =>
    change Advances t.sessions (sessionIds (createdBy t.instances.nextId entries)) t.sessions
    rw [createdBy, sessionIds_if]
    exact .refl _
  | createPanicked | panicked => exact advances_poison (.refl t.sessions) _
  | bound iid i login out hi hmulti hfresh hbinds => exact hbinds.sessions_advance
  | invoked sid s iid i out hs hi hinv =>
    cases hinv with
    | unmapped => exact .refl _
    | answered =>
      rw [invokedBy, sessionIds_if]
      exact .refl _
  | closed sid s iid i out hs hi hcloses =>
    cases hcloses with
    | kept =>
      rw [closedBy, sessionIds_if]
      exact .take _ sid
    | destroyed =>
      rw [sessionIds_append, closedBy, sessionIds_if, destroyedBy, sessionIds_if]
      exact .take _ sid
  | closePanicked sid s iid i hs hi hpanics =>
    cases hpanics with
    | closeSession => exact advances_poison (.take t.sessions sid) _
    | destroy =>
      rw [sessionIds_append, closedBy, sessionIds_if]
      exact advances_poison (.take t.sessions sid) _

theorem advances_issue (hroom : t.instances.HasRoom) (i : Instance A) :
    Advances t.instances [some t.instances.nextId] (t.issue i).instances := by
  have hadv := Advances.alloc t.instances i
  obtain ⟨t1, halloc, -⟩ := alloc_of_room hroom i
  rw [halloc] at hadv
  simp only [issue, halloc]
  exact hadv

theorem Act.instances_advance (h : Act ptas u t evs t') :
    Advances t.instances (instanceIds evs) t'.instances := by
  have hsame := Advances.refl t.instances
  cases h with
  | idle | ptaCalled | ptaOpened | ptaUnrecorded | ptaClosed | closedDead => exact hsame
  | noSlot => exact .issue none (by simp) rfl fun i hi => Or.inl ⟨i, hi, rfl⟩
  | createRefused =>
    exact .issue _ (fun _ hid => (Option.some.inj hid).symm) rfl
      fun i hi => Or.inl ⟨i, hi, rfl⟩
  | created props aspace entries hu hroom =>
    have hids : instanceIds (.instanceIssued (some t.instances.nextId) ::
        createdBy t.instances.nextId entries) = [some t.instances.nextId] := by
      change some t.instances.nextId :: instanceIds (createdBy t.instances.nextId entries) = _
      rw [createdBy, instanceIds_if]
    rw [hids]
    exact advances_issue hroom _
  | createPanicked props aspace entries hu hroom =>
    exact (advances_issue hroom _).update fun _ => rfl
  | bound iid i login out hi hmulti hfresh hbinds => exact hbinds.instances_advance
  | invoked sid s iid i out hs hi hinv =>
    cases hinv with
    | unmapped => exact hsame.update fun _ => rfl
    | answered =>
      rw [invokedBy, instanceIds_if]
      exact hsame.update fun _ => rfl
  | panicked => exact hsame.update fun _ => rfl
  | closed sid s iid i out hs hi hcloses =>
    cases hcloses with
    | kept =>
      rw [closedBy, instanceIds_if]
      exact hsame.update fun _ => rfl
    | destroyed =>
      rw [instanceIds_append, closedBy, instanceIds_if, destroyedBy, instanceIds_if]
      exact .take _ iid
  | closePanicked sid s iid i hs hi hpanics =>
    cases hpanics with
    | closeSession => exact hsame.update fun _ => rfl
    | destroy =>
      rw [instanceIds_append, closedBy, instanceIds_if]
      have hrelease : Advances t.instances [] (t.release iid).instances := hsame.update fun _ => rfl
      exact hrelease.update fun _ => rfl

/-! ### Numbering along a run -/

/-- Both tables number their allocations as the log has them. -/
structure IdsNumbered (log : List Event) (t : Tables A) : Prop where
  sessions : Numbered (sessionIds log) t.sessions
  instances : Numbered (instanceIds log) t.instances

variable {log : List Event}

theorem IdsNumbered.act (h : IdsNumbered log t) (hact : Act ptas u t evs t') :
    IdsNumbered (log ++ evs) t' := by
  constructor
  · rw [sessionIds_append]
    exact h.sessions.advance hact.sessions_advance
  · rw [instanceIds_append]
    exact h.instances.advance hact.instances_advance

theorem IdsNumbered.acts (h : IdsNumbered log t)
    (hacts : Acts ptas u t evs t') : IdsNumbered (log ++ evs) t' := by
  cases hacts with
  | one h1 => exact h.act h1
  | two h1 h2 =>
    rw [← append_assoc]
    exact (h.act h1).act h2

theorem IdsNumbered.step (h : IdsNumbered m.log m.tables) {cmd : KernelCmd} {out : KernelOut}
    (hstep : Step m cmd out m') : IdsNumbered m'.log m'.tables := by
  obtain ⟨u, evs, hacts, hlog, -⟩ := hstep.acts
  rw [hlog]
  exact h.acts hacts

theorem Booted.idsNumbered (h : Booted env m) : IdsNumbered m.log m.tables := by
  rw [h.idle.log, h.idle.tables]
  exact ⟨numbered_new _, numbered_new _⟩

/-- Every session and every instance was issued by one of the last 2³² − 2 allocations
of its table. -/
def YoungIds (m : Machine σ A) : Prop :=
  Young (sessionIds m.log) m.sessions ∧ Young (instanceIds m.log) m.instances

instance (m : Machine σ A) : Decidable (YoungIds m) := by
  unfold YoungIds; infer_instance

theorem IdsNumbered.freshIds (h : IdsNumbered m.log m.tables) (hy : YoungIds m) : FreshIds m :=
  ⟨h.sessions.fresh hy.1, h.instances.fresh hy.2⟩

theorem Run.kernelOk_of_young {steps : List (Taken σ A)} (hb : Booted env m₀)
    (hrun : Run env (fun m _ => YoungIds m) m₀ steps m) :
    KernelOk m ∧ IdsNumbered m.log m.tables := by
  refine hrun.invariant (P := fun m => KernelOk m ∧ IdsNumbered m.log m.tables) ?_ ?_
    ⟨hb.kernelOk, hb.idsNumbered⟩
  · rintro m cmd out m' hy ⟨ok, hn⟩ hd
    have hstep := dispatch_step env ok (hn.freshIds hy) hd
    exact ⟨ok.step hstep, hn.step hstep⟩
  · rintro m w ⟨ok, hn⟩
    exact ⟨ok.outside w, hn⟩

/-! ### Freshness -/

def IssuesFresh (m m' : Machine σ A) : Prop :=
  ∀ evs, m'.log = m.log ++ evs →
    (∀ id, .sessionIssued (some id) ∈ evs → m.sessions.Fresh id) ∧
    (∀ id, .instanceIssued (some id) ∈ evs → m.instances.Fresh id)

/-- No two entries of a table share an id, and looking up the id of an entry, or taking it
out by its id, finds that entry. -/
structure IdsIdentify (m : Machine σ A) : Prop where
  sessions : m.sessions.Distinct
  instances : m.instances.Distinct
  session : ∀ s ∈ m.sessions.entries,
    m.sessions.get s.id = some s ∧ (m.sessions.take s.id).1 = some s
  inst : ∀ i ∈ m.instances.entries,
    m.instances.get i.id = some i ∧ (InstanceTable.dropId m.instances i.id).1 = some i

theorem TablesOk.idsIdentify (ok : TablesOk m.tables) : IdsIdentify m := by
  refine ⟨ok.sessions.distinct, ok.instances.distinct, ?_, ?_⟩
  · intro s hs
    have hget : m.sessions.get s.id = some s := ok.sessions.distinct.get_eq_some.mpr ⟨hs, rfl⟩
    exact ⟨hget, (take_fst _ _).trans hget⟩
  · intro i hi
    have hget : m.instances.get i.id = some i := ok.instances.distinct.get_eq_some.mpr ⟨hi, rfl⟩
    exact ⟨hget, (take_fst _ _).trans hget⟩

theorem Acts.issued (h : Acts ptas u t evs t') :
    (∀ id, .sessionIssued (some id) ∈ evs → id = t.sessions.nextId) ∧
    (∀ id, .instanceIssued (some id) ∈ evs → id = t.instances.nextId) := by
  cases h with
  | one h =>
    exact ⟨fun id hid => h.sessions_advance.issued (mem_sessionIds.mpr hid),
      fun id hid => h.instances_advance.issued (mem_instanceIds.mpr hid)⟩
  | two h1 h2 hroom hfresh hissue hcreated hsecond =>
    subst hissue hcreated
    constructor
    · intro id hid
      rcases mem_append.mp hid with h | h
      · exact absurd h (by simp [createdBy])
      · exact h2.sessions_advance.issued (mem_sessionIds.mpr h)
    · intro id hid
      rcases mem_append.mp hid with h | h
      · exact h1.instances_advance.issued (mem_instanceIds.mpr h)
      · exact absurd h (hsecond _)

theorem Step.issuesFresh {cmd : KernelCmd} {out : KernelOut} (h : Step m cmd out m')
    (hf : FreshIds m) : IssuesFresh m m' := by
  obtain ⟨u, evs, hacts, hlog, -⟩ := h.acts
  obtain ⟨hs, hi⟩ := hacts.issued
  intro evs' hlog'
  obtain rfl : evs = evs' := append_cancel_left (hlog.symm.trans hlog')
  constructor
  · intro id hid
    rw [hs id hid]
    exact hf.1
  · intro id hid
    rw [hi id hid]
    exact hf.2

/-- **Ids are fresh while the tables are young.**  In every run whose commands all find
young ids, every issued id was free, and an id in the tables identifies its entry. -/
theorem ids_fresh_of_young {steps : List (Taken σ A)} (hb : Booted env m₀)
    (hrun : Run env (fun m _ => YoungIds m) m₀ steps m) :
    (∀ s ∈ steps, IssuesFresh s.before s.after) ∧ IdsIdentify m := by
  refine ⟨?_, (hrun.kernelOk_of_young hb).1.tables.idsIdentify⟩
  induction hrun with
  | start => exact fun s hs => absurd hs not_mem_nil
  | command hprev cmd out hy hd ih =>
    intro s hs
    rcases mem_append.mp hs with hold | hnew
    · exact ih s hold
    · obtain rfl := mem_singleton.mp hnew
      obtain ⟨ok, hn⟩ := hprev.kernelOk_of_young hb
      have hf := hn.freshIds hy
      exact (dispatch_step env ok hf hd).issuesFresh hf
  | outside _ w ih => exact ih

theorem ids_fresh_of_young_sample :
    ∃ steps m, Run sampleEnv (fun m _ => YoungIds m) sampleStart steps m ∧ steps.length = 4 ∧
      (∀ s ∈ steps, IssuesFresh s.before s.after) ∧ IdsIdentify m := by
  obtain ⟨r, hrun, hlen⟩ := exists_run_of_runAll sampleEnv (fun m _ => YoungIds m) sampleCmds
    sampleStart (fun r => r.1.length = 4) (by decide +kernel)
  exact ⟨r.1, r.2, hrun, hlen, ids_fresh_of_young sampleStart_booted hrun⟩

/-! ### Wrapping around -/

/-- A registered pseudo-TA that accepts every session with the context `ctx`. -/
structure Accepts (env : Env σ A S) (m : Machine σ A) (pta : Pta) (ctx : UInt64) : Prop where
  gate : m.noticesOk = true
  uncancelled : m.cancelledIds = []
  registered : PtaRegistry.getMut m.ptas pta.uuid = some pta
  opens : ∀ w, env.pta.open_ pta noParams w = (.returns (.ok ctx, noParams), w)
  closes : ∀ w, env.pta.close pta ctx w = (.returns (), w)

section
variable {pta : Pta} {ctx : UInt64}

section

variable (h : Accepts env m pta ctx)
include h

theorem Accepts.of_sessions (sessions : SessionTable) (log : List Event) :
    Accepts env { m with sessions := sessions, log := log } pta ctx :=
  ⟨h.gate, h.uncancelled, h.registered, h.opens, h.closes⟩

theorem dispatch_open_accepts (hroom : m.sessions.HasRoom) (login : Login) :
    dispatch env (openCmd pta.uuid login) m =
      (.out (.done .ok (some m.sessions.nextId) noParams),
        { m with
          sessions := (m.sessions.alloc (ptaSession pta.uuid login ctx)).2
          log := m.log ++ [.pta pta.uuid (.opened ctx),
            .sessionIssued (some m.sessions.nextId)] }) := by
  obtain ⟨t', halloc, -⟩ := alloc_of_room hroom (ptaSession pta.uuid login ctx)
  have hhandle := handle_of_gate env h.gate (openCmd pta.uuid login)
  have hopen : execute env (openCmd pta.uuid login) m =
      (.value (.done .ok (some m.sessions.nextId) noParams), { m with
          sessions := (m.sessions.alloc (ptaSession pta.uuid login ctx)).2
          log := m.log ++ [.pta pta.uuid (.opened ctx),
            .sessionIssued (some m.sessions.nextId)] }) := by
    simp only [ptaSession] at halloc ⊢
    simp [execute, openCmd, open_, cancelled, callPtaOpen, call, allocSession, ptaOpenCall,
      Prog.bind_apply, h.uncancelled, h.registered, h.opens, halloc]
  rw [dispatch, hhandle, hopen]

variable {sid : SessionId} {s : Session}

theorem dispatch_close_accepts (hs : m.sessions.get sid = some s) (hk : s.kind = .pta)
    (hu : s.uuid = pta.uuid) (hctx : s.taSessCtx = ctx) :
    dispatch env (.closeSession sid) m =
      (.out closed,
        { m with
          sessions := (m.sessions.take sid).2
          log := m.log ++ [.pta pta.uuid (.close ctx)] }) := by
  have hhandle := handle_of_gate env h.gate (.closeSession sid)
  have hclose : execute env (.closeSession sid) m =
      (.value closed, { m with
          sessions := (m.sessions.take sid).2
          log := m.log ++ [.pta pta.uuid (.close ctx)] }) := by
    simp [execute, close, takeSession, callPtaClose, call, Prog.bind_apply, take_fst, hs, hk, hu,
      hctx, h.registered, h.closes]
  rw [dispatch, hhandle, hclose]

theorem dispatch_invoke_accepts (hs : m.sessions.get sid = some s) (hk : s.kind = .pta)
    (hready : s.state = .ready) (hu : s.uuid = pta.uuid) {r : TeeResult}
    {params params' : Params} {cmdId : UInt32} {w : σ}
    (hanswer : env.pta.invoke pta s.taSessCtx cmdId params m.world = (.returns (r, params'), w)) :
    (dispatch env (.invoke sid cmdId params 0 0) m).1 = .out (.done r (some sid) params') := by
  have hinvoke : ∃ m', execute env (.invoke sid cmdId params 0 0) m =
      (.value (.done r (some sid) params'), m') := by
    simp [execute, invoke, cancelled, setCurrentPta, callPtaInvoke, call, Prog.bind_apply,
      h.uncancelled, hs, hk, hready, hu, h.registered, hanswer]
  obtain ⟨m', hinvoke⟩ := hinvoke
  rw [dispatch, handle_of_gate env h.gate, hinvoke]

end

/-- Opening a session and closing it again leaves the sessions as they were and the
counter one further. -/
theorem run_open_close (h : Accepts env m pta ctx)
    (hroom : m.sessions.HasRoom) (hfresh : m.sessions.Fresh m.sessions.nextId) :
    ∃ steps log, Run env (fun _ _ => True) m steps
      { m with
        sessions := { m.sessions with nextId := bump m.sessions.nextId }
        log := log } := by
  have hopen := dispatch_open_accepts h hroom .public
  have hget := get_alloc hroom hfresh (ptaSession pta.uuid .public ctx)
  have hclose := dispatch_close_accepts (h.of_sessions _ (m.log ++
    [.pta pta.uuid (.opened ctx), .sessionIssued (some m.sessions.nextId)])) hget rfl rfl rfl
  have htake : ((m.sessions.alloc (ptaSession pta.uuid .public ctx)).2.take
      m.sessions.nextId).2 = { m.sessions with nextId := bump m.sessions.nextId } := by
    rw [← take_update_alloc hroom hfresh _ fun _ => rfl, take_update fun _ => rfl]
  simp only [htake] at hclose
  exact ⟨_, _, .command (.command .start _ _ trivial hopen) _ _ trivial hclose⟩

/-- Any number of opens and closes in a row, while the ids they get are free. -/
theorem run_cycles {k : Nat} (n : Nat) (h : Accepts env m pta ctx)
    (hroom : m.sessions.HasRoom) (hnext : m.sessions.nextId = nthId k)
    (hfresh : ∀ j < n, m.sessions.Fresh (nthId (k + j))) :
    ∃ steps log, Run env (fun _ _ => True) m steps
      { m with sessions := { m.sessions with nextId := nthId (k + n) }, log := log } := by
  induction n with
  | zero =>
    refine ⟨[], m.log, ?_⟩
    rw [add_zero, ← hnext]
    exact .start
  | succ n ih =>
    obtain ⟨steps, log, hrun⟩ := ih fun j hj => hfresh j (by omega)
    obtain ⟨steps', log', hrun'⟩ := run_open_close
      (h.of_sessions { m.sessions with nextId := nthId (k + n) } log) hroom (hfresh n (by omega))
    rw [bump_nthId] at hrun'
    exact ⟨_, log', hrun.append hrun'⟩

/-- When all sessions in the table carry the id before the next one, opening and closing
2³² − 2 others brings the counter round to that id. -/
theorem run_around {k : Nat} (h : Accepts env m pta ctx)
    (hroom : m.sessions.HasRoom) (hnext : m.sessions.nextId = nthId (k + 1))
    (hheld : ∀ s ∈ m.sessions.entries, s.id = nthId k) :
    ∃ steps log, Run env (fun _ _ => True) m steps
      { m with sessions := { m.sessions with nextId := nthId k }, log := log } := by
  have hcount : idCount = 4294967295 := rfl
  have hcycles := run_cycles (k := k + 1) (idCount - 1) h hroom hnext ?_
  · have hwrap : nthId (k + 1 + (idCount - 1)) = nthId k := by
      rw [nthId_eq_iff, hcount]
      omega
    rw [hwrap] at hcycles
    exact hcycles
  · intro j hj s hs hid
    have hk : nthId k = nthId (k + 1 + j) := (hheld s hs).symm.trans hid
    rw [nthId_eq_iff] at hk
    rw [hcount] at hk hj
    omega

end

theorem sampleStart_accepts : Accepts sampleEnv sampleStart samplePta 9 :=
  ⟨rfl, rfl, by decide, fun _ => rfl, fun _ => rfl⟩

def wrappedSessions : SessionTable :=
  { (sampleStart.sessions.alloc (ptaSession samplePta.uuid .user 9)).2 with nextId := 1 }

/-- A client that keeps session 1 open, and opens and closes others until the counter
has run through all ids, is given a second session 1. -/
theorem session_id_reused :
    ∃ steps m, Run sampleEnv (fun _ _ => True) sampleStart steps m ∧
      (∃ s ∈ steps, s.before.sessions.get 1 ≠ none ∧
        s.out = .done .ok (some 1) noParams ∧ ¬ IssuesFresh s.before s.after) ∧
      ¬ IdsIdentify m := by
  have hfirst := dispatch_open_accepts sampleStart_accepts (by decide) .user
  have hacc₁ := sampleStart_accepts.of_sessions
    (sampleStart.sessions.alloc (ptaSession samplePta.uuid .user 9)).2
    (sampleStart.log ++ [.pta samplePta.uuid (.opened 9),
      .sessionIssued (some sampleStart.sessions.nextId)])
  obtain ⟨steps, log, hcycles⟩ := run_around (k := 0) hacc₁ (by decide) (by decide) (by decide)
  have hroom : wrappedSessions.HasRoom := by decide
  have hacc₂ := sampleStart_accepts.of_sessions wrappedSessions log
  have hlast := dispatch_open_accepts hacc₂ hroom .public
  have hrun := (Run.append (.command .start _ _ trivial hfirst) hcycles).command _ _ trivial hlast
  refine ⟨_, _, hrun, ⟨_, mem_append_right _ (mem_singleton.mpr rfl), ?_, rfl, ?_⟩, ?_⟩
  · have hheld : wrappedSessions.get 1 ≠ none := by decide
    exact hheld
  · intro hfresh
    have hone : wrappedSessions.Fresh 1 := (hfresh _ rfl).1 1 (by simp; rfl)
    exact absurd hone (by decide)
  · intro hids
    have htwice : ¬ ((wrappedSessions.alloc
        (ptaSession samplePta.uuid .public 9)).2.entries.map Keyed.key).Nodup := by decide
    exact htwice hids.sessions

end Rustee.Os
