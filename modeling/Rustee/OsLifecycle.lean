import Rustee.OsTableInvariant

/-!
# The life of a TA as GlobalPlatform has it

Create, then sessions that are opened, used and closed, then destroy.

A monitor reads the log and follows one instance; it stops at the first call out of order. It
accepts the log of every panic-free run in which a free session slot is there whenever a command
may need one, and the contexts it holds open are then those of the sessions in the table. The same
is shown for each pseudo-TA. With a full session table the kernel drops a session that the TA has
already accepted, and never closes it.
-/

namespace Rustee.Os

open SlotTable List Option

variable {σ A S : Type} {env : Env σ A S} {m m₀ m' : Machine σ A} {t t' : Tables A}
  {evs : List Event} {ptas : PtaRegistry} {u : Option Uuid} {iid : InstanceId}

/-! ### Monitors -/

/-- Where an instance is in its life. -/
inductive Phase where
  /-- No call is in order until the id is issued. -/
  | gone
  /-- The id is issued; only create is in order. -/
  | issued
  /-- Created, with these session contexts open. -/
  | running (opens : List UInt64)
deriving Repr, DecidableEq

/-- What a call of the instance leads to; `none` when it is out of order. -/
def callStep : Phase → TaCall → Option Phase
  | .issued, .create code => some (if code = TEE_SUCCESS then .running [] else .gone)
  | .running opens, .openSession ctx code =>
    some (.running (if code = TEE_SUCCESS then ctx :: opens else opens))
  | .running opens, .invoke ctx _ => if ctx ∈ opens then some (.running opens) else none
  | .running opens, .closeSession ctx =>
    if ctx ∈ opens then some (.running (opens.erase ctx)) else none
  | .running [], .destroy => some .gone
  | _, _ => none

section CallStep

variable (opens : List UInt64) (ctx : UInt64) (code : UInt32)

theorem callStep_create : callStep .issued (.create code) =
    some (if code = TEE_SUCCESS then .running [] else .gone) := rfl

theorem callStep_openSession : callStep (.running opens) (.openSession ctx code) =
    some (.running (if code = TEE_SUCCESS then ctx :: opens else opens)) := rfl

theorem callStep_invoke (cmdId : UInt32) : callStep (.running opens) (.invoke ctx cmdId) =
    if ctx ∈ opens then some (.running opens) else none := rfl

theorem callStep_closeSession : callStep (.running opens) (.closeSession ctx) =
    if ctx ∈ opens then some (.running (opens.erase ctx)) else none := rfl

theorem callStep_destroy : callStep (.running []) .destroy = some .gone := rfl

end CallStep

/-- An id may be issued again once its instance is gone, or if it was never created. -/
def issueStep : Phase → Option Phase
  | .running _ => none
  | _ => some .issued

def lifeStep (iid : InstanceId) (phase : Phase) : Event → Option Phase
  | .instanceIssued (some j) => if j = iid then issueStep phase else some phase
  | .ta j call => if j = iid then callStep phase call else some phase
  | _ => some phase

/-- Follow the instance `iid` through the log. -/
def life (iid : InstanceId) (log : List Event) : Option Phase :=
  log.foldlM (lifeStep iid) .gone

def ptaStep (uuid : Uuid) (opens : List UInt64) : Event → Option (List UInt64)
  | .pta v (.opened ctx) => if v = uuid then some (ctx :: opens) else some opens
  | .pta v (.close ctx) =>
    if v = uuid then if ctx ∈ opens then some (opens.erase ctx) else none else some opens
  | _ => some opens

def ptaOpens (uuid : Uuid) (log : List Event) : Option (List UInt64) :=
  log.foldlM (ptaStep uuid) []

/-! ### Contexts in the table -/

/-- The contexts of the sessions that satisfy `p`. -/
def ctxsOf (p : Session → Bool) (sessions : SessionTable) : List UInt64 :=
  (sessions.entries.filter p).map (·.taSessCtx)

/-- Sessions of the instance `iid`. -/
def names (iid : InstanceId) (s : Session) : Bool := s.inst == some iid

/-- Sessions of the pseudo-TA `uuid`. -/
def ofPta (uuid : Uuid) (s : Session) : Bool := s.kind == .pta && s.uuid == uuid

section Contexts

variable {p : Session → Bool} {sessions : SessionTable} {s : Session} {sid : SessionId}

theorem ctxsOf_cons {l : List Session} (s : Session) :
    ((s :: l).filter p).map (·.taSessCtx) =
      if p s then s.taSessCtx :: (l.filter p).map (·.taSessCtx)
      else (l.filter p).map (·.taSessCtx) := by
  by_cases h : p s <;> simp [h]

theorem ctxsOf_alloc (hroom : sessions.HasRoom) (hp : ∀ id, p { s with id := id } = p s) :
    (ctxsOf p (sessions.alloc s).2).Perm
      (if p s then s.taSessCtx :: ctxsOf p sessions else ctxsOf p sessions) := by
  obtain ⟨t', halloc, -, -, hperm⟩ := alloc_of_room hroom s
  have h := (hperm.filter p).map (·.taSessCtx)
  rw [ctxsOf_cons, show p (Keyed.rekey sessions.nextId s) = p s from hp _] at h
  rw [halloc]
  exact h

theorem ctxsOf_take (hs : sessions.get sid = some s) :
    (ctxsOf p sessions).Perm (if p s then s.taSessCtx :: ctxsOf p (sessions.take sid).2
      else ctxsOf p (sessions.take sid).2) := by
  have h := ((take_perm hs).filter p).map (·.taSessCtx)
  rw [ctxsOf_cons] at h
  exact h

theorem ctxsOf_alloc_of_not (hroom : sessions.HasRoom) (hp : ∀ id, p { s with id := id } = false) :
    (ctxsOf p (sessions.alloc s).2).Perm (ctxsOf p sessions) := by
  have h := ctxsOf_alloc hroom (p := p) (s := s) fun id => (hp id).trans (hp s.id).symm
  rw [if_neg (by simp [show p s = false from hp s.id])] at h
  exact h

theorem ctxsOf_take_of_not (hs : sessions.get sid = some s) (hp : p s = false) :
    (ctxsOf p (sessions.take sid).2).Perm (ctxsOf p sessions) := by
  have h := ctxsOf_take hs (p := p)
  rw [if_neg (by simp [hp])] at h
  exact h.symm

theorem ctxsOf_close (hs : sessions.get sid = some s) (hp : p s = true) {opens : List UInt64}
    (hopens : opens.Perm (ctxsOf p sessions)) :
    s.taSessCtx ∈ opens ∧ (opens.erase s.taSessCtx).Perm (ctxsOf p (sessions.take sid).2) := by
  have h := ctxsOf_take hs (p := p)
  rw [if_pos hp] at h
  have hcons := hopens.trans h
  refine ⟨hcons.mem_iff.mpr mem_cons_self, ?_⟩
  have herase := hcons.erase s.taSessCtx
  rwa [erase_cons_head] at herase

theorem mem_ctxsOf (hs : s ∈ sessions.entries) (hp : p s = true) :
    s.taSessCtx ∈ ctxsOf p sessions :=
  mem_map.mpr ⟨s, mem_filter.mpr ⟨hs, hp⟩, rfl⟩

end Contexts

/-! ### The monitor of a TA -/

theorem lifeStep_of_ne {ev : Event} (h : ev.subject ≠ some iid) (phase : Phase) :
    lifeStep iid phase ev = some phase := by
  cases ev with
  | sessionIssued | pta => rfl
  | instanceIssued r =>
    cases r with
    | none => rfl
    | some => exact if_neg fun hj => h (congrArg some hj)
  | ta => exact if_neg fun hj => h (congrArg some hj)

theorem life_of_ne (h : ∀ ev ∈ evs, ev.subject ≠ some iid) (phase : Phase) :
    evs.foldlM (lifeStep iid) phase = some phase := by
  induction evs with
  | nil => rfl
  | cons ev evs ih =>
    rw [foldlM_cons, lifeStep_of_ne (h ev mem_cons_self)]
    exact ih fun ev' hev' => h ev' (mem_cons_of_mem ev hev')

def HasEntries (t : Tables A) (iid : InstanceId) (e : Option TaEntryPoints) : Prop :=
  ∃ i ∈ t.instances.entries, i.id = iid ∧ i.entries = e

/-- The phase agrees with the tables. An instance without entry points is never called,
so its monitor stays at `issued`, also after the instance has gone. -/
inductive LifeAt (t : Tables A) (iid : InstanceId) : Phase → Prop
  | gone (h : t.instances.Fresh iid) : LifeAt t iid .gone
  | issued (h : t.instances.Fresh iid ∨ HasEntries t iid none) : LifeAt t iid .issued
  | running {opens : List UInt64} {ep : TaEntryPoints} (h : HasEntries t iid (some ep))
      (hopens : opens.Perm (ctxsOf (names iid) t.sessions)) : LifeAt t iid (.running opens)

/-- The monitor of `iid` accepts the events and agrees with the tables again. -/
def Follows (iid : InstanceId) (t t' : Tables A) (evs : List Event) : Prop :=
  ∀ phase, LifeAt t iid phase →
    ∃ phase', evs.foldlM (lifeStep iid) phase = some phase' ∧ LifeAt t' iid phase'

theorem Follows.trans {t1 t2 t3 : Tables A} {evs1 evs2 : List Event}
    (h1 : Follows iid t1 t2 evs1) (h2 : Follows iid t2 t3 evs2) :
    Follows iid t1 t3 (evs1 ++ evs2) := by
  intro phase hphase
  obtain ⟨phase1, hrun1, hphase1⟩ := h1 phase hphase
  obtain ⟨phase2, hrun2, hphase2⟩ := h2 phase1 hphase1
  refine ⟨phase2, ?_, hphase2⟩
  rw [foldlM_append, hrun1]
  exact hrun2

theorem follows_of_ne {target : Option InstanceId} (htouch : Touches t t' evs target)
    (hne : target ≠ some iid)
    (hctx : (ctxsOf (names iid) t'.sessions).Perm (ctxsOf (names iid) t.sessions)) :
    Follows iid t t' evs := by
  intro phase hphase
  refine ⟨phase, life_of_ne (fun ev hev hj => hne (htouch.events ev hev iid hj)) phase, ?_⟩
  have hmem : ∀ i : Instance A, i.id = iid →
      (i ∈ t'.instances.entries ↔ i ∈ t.instances.entries) := by
    rintro i rfl
    exact htouch.others i hne
  have hfresh : t.instances.Fresh iid → t'.instances.Fresh iid := by
    intro h i hi hid
    exact h i ((hmem i hid).mp hi) hid
  have hentries : ∀ {e}, HasEntries t iid e → HasEntries t' iid e := by
    rintro e ⟨i, hi, hid, he⟩
    exact ⟨i, (hmem i hid).mpr hi, hid, he⟩
  cases hphase with
  | gone h => exact .gone (hfresh h)
  | issued h => exact .issued (h.imp hfresh hentries)
  | running h hopens => exact .running (hentries h) (hopens.trans hctx.symm)

variable {i : Instance A} {phase : Phase}

theorem LifeAt.of_live (h : LifeAt t iid phase) (ok : TablesOk t)
    (hi : LiveAt t iid i) :
    (i.entries = none ∧ phase = .issued) ∨ (i.entries.isSome ∧ ∃ opens, phase = .running opens ∧
        opens.Perm (ctxsOf (names iid) t.sessions)) := by
  obtain ⟨himem, hiid⟩ := get_some hi.get
  have huniq : ∀ {e}, HasEntries t iid e → i.entries = e := by
    rintro e ⟨j, hj, hjid, he⟩
    have hget : t.instances.get iid = some j := ok.instances.distinct.get_eq_some.mpr ⟨hj, hjid⟩
    rw [hi.get, some.injEq] at hget
    rw [hget, he]
  cases h with
  | gone h => exact absurd hiid (h i himem)
  | issued h =>
    rcases h with hfresh | hnone
    · exact absurd hiid (hfresh i himem)
    · exact .inl ⟨huniq hnone, rfl⟩
  | running h hopens =>
    refine .inr ⟨?_, _, rfl, hopens⟩
    rw [huniq h]
    rfl

theorem hasEntries_update (hi : t.instances.get iid = some i)
    {f : Instance A → Instance A} (hupd : t'.instances = t.instances.update iid f)
    (hf : ∀ i, (f i).id = i.id) (he : (f i).entries = i.entries) : HasEntries t' iid i.entries := by
  have hget : t'.instances.get iid = some (f i) := by
    rw [hupd]
    exact get_update_self hf hi
  exact ⟨f i, (get_some hget).1, (get_some hget).2, he⟩

/-- An act on a Live instance: one that is never called, or one that is running. -/
theorem follows_live (ok : TablesOk t) (hi : LiveAt t iid i)
    (hsilent : i.entries = none → evs.foldlM (lifeStep iid) .issued = some .issued ∧
      (t'.instances.Fresh iid ∨ HasEntries t' iid none))
    (hrunning : i.entries.isSome → ∀ opens, opens.Perm (ctxsOf (names iid) t.sessions) →
      ∃ phase', evs.foldlM (lifeStep iid) (.running opens) = some phase' ∧
        LifeAt t' iid phase') : Follows iid t t' evs := by
  intro phase hphase
  rcases hphase.of_live ok hi with ⟨he, rfl⟩ | ⟨he, opens, rfl, hopens⟩
  · obtain ⟨hrun, hafter⟩ := hsilent he
    exact ⟨.issued, hrun, .issued hafter⟩
  · exact hrunning he opens hopens

/-- An act that changes a Live instance and leaves its entry points alone. -/
theorem follows_updated (ok : TablesOk t) (hi : LiveAt t iid i) {f : Instance A → Instance A}
    (hupd : t'.instances = t.instances.update iid f) (hf : ∀ i, (f i).id = i.id)
    (he : (f i).entries = i.entries)
    (hsilent : i.entries = none → evs.foldlM (lifeStep iid) .issued = some .issued)
    (hrunning : i.entries.isSome → ∀ opens, opens.Perm (ctxsOf (names iid) t.sessions) →
      ∃ opens', evs.foldlM (lifeStep iid) (.running opens) = some (.running opens') ∧
        opens'.Perm (ctxsOf (names iid) t'.sessions)) : Follows iid t t' evs := by
  have hkeep : HasEntries t' iid i.entries := hasEntries_update hi.get hupd hf he
  refine follows_live ok hi (fun hnone => ⟨hsilent hnone, .inr (hnone ▸ hkeep)⟩) ?_
  intro hsome opens hopens
  obtain ⟨ep, hep⟩ := isSome_iff_exists.mp hsome
  obtain ⟨opens', hrun, hopens'⟩ := hrunning hsome opens hopens
  exact ⟨_, hrun, .running (hep ▸ hkeep) hopens'⟩

theorem names_userSession (iid j : InstanceId) (uuid : Uuid) (login : Login) (ctx : UInt64)
    (id : SessionId) :
    names iid { userSession j uuid login ctx with id := id } = (j == iid) := by
  simp [names, userSession]

variable {j : InstanceId} {out : KernelOut} {uuid : Uuid}

theorem Binds.follows (ok : TablesOk t) (hi : LiveAt t j i) {login : Login}
    (h : Binds j i uuid login t evs out t')
    (hroom : t.sessions.HasRoom ∨ ∀ r, .sessionIssued r ∉ evs) (iid : InstanceId) :
    Follows iid t t' evs := by
  have htouch := h.touches
  by_cases hj : j = iid
  · subst hj
    cases h with
    | unmapped a =>
      exact follows_updated ok hi rfl (fun _ => rfl) rfl (fun _ => rfl) fun _ opens hopens =>
        ⟨opens, rfl, hopens⟩
    | refused a ctx code params he hcode =>
      refine follows_updated ok hi rfl (fun _ => rfl) rfl (fun hnone => ?_)
        fun _ opens hopens => ⟨opens, ?_, hopens⟩
      · exact absurd he (by simp [hnone])
      · simp [lifeStep, callStep_openSession, hcode]
    | unrecorded a ctx hfull =>
      rcases hroom with h | h
      · exact absurd h hfull
      · exact absurd (mem_append_right _ mem_cons_self) (h none)
    | recorded a ctx params hfree =>
      refine follows_updated ok hi rfl (fun _ => rfl) rfl (fun hnone => ?_)
        fun hsome opens hopens => ⟨ctx :: opens, ?_, ?_⟩
      · simp [acceptedBy, hnone, lifeStep]
      · simp [acceptedBy, hsome, lifeStep, callStep_openSession]
      · have halloc := ctxsOf_alloc (p := names j) (s := userSession j uuid login ctx) hfree
          fun id => (names_userSession j j uuid login ctx id).trans
            (names_userSession j j uuid login ctx 0).symm
        rw [if_pos (by simp [names, userSession])] at halloc
        exact (hopens.cons ctx).trans halloc.symm
  · refine follows_of_ne htouch (fun heq => hj (some.inj heq)) ?_
    cases h with
    | unmapped | refused => exact .refl _
    | unrecorded a ctx hfull =>
      rw [alloc_of_full hfull]
      exact .refl _
    | recorded a ctx params hfree =>
      refine ctxsOf_alloc_of_not hfree fun id => ?_
      rw [names_userSession]
      exact beq_eq_false_iff_ne.mpr hj

variable {s : Session} {sid : SessionId}

section

variable (ok : TablesOk t) (hi : LiveAt t j i) (hs : SessionAt t sid s j)
include ok hi hs

theorem Invokes.follows
    (h : Invokes j i sid s.taSessCtx t evs out t') (iid : InstanceId) : Follows iid t t' evs := by
  have hnames : names j s = true := by simp [names, hs.inst]
  by_cases hj : j = iid
  · subst hj
    cases h with
    | unmapped a =>
      exact follows_updated ok hi rfl (fun _ => rfl) rfl (fun _ => rfl) fun _ opens hopens =>
        ⟨opens, rfl, hopens⟩
    | answered a =>
      refine follows_updated ok hi rfl (fun _ => rfl) rfl (fun hnone => ?_)
        fun hsome opens hopens => ⟨opens, ?_, hopens⟩
      · simp [invokedBy, hnone]
      · have hctx : s.taSessCtx ∈ opens :=
          hopens.mem_iff.mpr (mem_ctxsOf (get_some hs.get).1 hnames)
        simp [invokedBy, hsome, lifeStep, callStep_invoke, hctx]
  · refine follows_of_ne h.touches (fun heq => hj (some.inj heq)) ?_
    cases h <;> exact .refl _

theorem ctxsOf_last (hlast : LastSession i) : ctxsOf (names j) (t.sessions.take sid).2 = [] := by
  rw [ctxsOf, map_eq_nil_iff, filter_eq_nil_iff]
  intro s' hs' hname
  exact ok.last_session hs hi hlast s' hs' (by simpa [names] using hname)

theorem Closes.follows
    (h : Closes j i s.taSessCtx (t.withSessions (t.sessions.take sid).2) evs out t')
    (iid : InstanceId) : Follows iid t t' evs := by
  have htouch : Touches t t' evs (some j) := ⟨h.touches.events, h.touches.others⟩
  have hnames : names j s = true := by simp [names, hs.inst]
  by_cases hj : j = iid
  · subst hj
    cases h with
    | kept =>
      refine follows_updated ok hi rfl (fun _ => rfl) rfl (fun hnone => ?_)
        fun hsome opens hopens => ?_
      · simp [closedBy, hnone]
      · obtain ⟨hctx, hrest⟩ := ctxsOf_close hs.get hnames hopens
        refine ⟨opens.erase s.taSessCtx, ?_, hrest⟩
        simp [closedBy, hsome, lifeStep, callStep_closeSession, hctx]
    | destroyed hlast =>
      have hgone : (t.instances.take j).2.Fresh j := by
        intro i' hi' hid
        exact ((ok.instances.distinct.mem_take j i').mp hi').2 hid
      refine follows_live ok hi (fun hnone => ?_) (fun hsome opens hopens => ?_)
      · refine ⟨?_, .inl hgone⟩
        simp [closedBy, destroyedBy, hnone]
      · obtain ⟨hctx, hrest⟩ := ctxsOf_close hs.get hnames hopens
        have hempty : opens.erase s.taSessCtx = [] := by
          rw [ctxsOf_last ok hi hs hlast] at hrest
          exact hrest.eq_nil
        refine ⟨.gone, ?_, .gone hgone⟩
        simp [closedBy, destroyedBy, hsome, lifeStep, callStep_closeSession, callStep_destroy, hctx,
          hempty]
  · refine follows_of_ne htouch (fun heq => hj (some.inj heq)) ?_
    have hother : names iid s = false := by
      rw [names, hs.inst]
      exact beq_eq_false_iff_ne.mpr fun heq => hj (some.inj heq)
    cases h with
    | kept | destroyed => exact ctxsOf_take_of_not hs.get hother

end

theorem ctxsOf_fresh (ok : TablesOk t) (hfresh : t.instances.Fresh iid) :
    ctxsOf (names iid) t.sessions = [] := by
  rw [ctxsOf, map_eq_nil_iff, filter_eq_nil_iff]
  intro s hs hname
  have hinst : s.inst = some iid := by simpa [names] using hname
  rcases ok.session s hs with ⟨-, hnone, -⟩ | ⟨i, hi, hserves⟩
  · exact absurd (hnone.symm.trans hinst) (by simp)
  · exact hfresh i hi (some.inj (hserves.inst.symm.trans hinst))

theorem LifeAt.of_fresh (h : LifeAt t iid phase)
    (hfresh : t.instances.Fresh iid) : issueStep phase = some .issued := by
  cases h with
  | gone | issued => rfl
  | running h =>
    obtain ⟨i, hi, hid, -⟩ := h
    exact absurd hid (hfresh i hi)

theorem follows_created (ok : TablesOk t) (hroom : t.instances.HasRoom)
    (hfresh : t.instances.Fresh t.instances.nextId) (inst : Instance A) :
    ∀ iid, Follows iid t (t.issue inst) (.instanceIssued (some t.instances.nextId) ::
        createdBy t.instances.nextId inst.entries) := by
  intro iid
  by_cases hj : t.instances.nextId = iid
  · subst hj
    intro phase hphase
    have hstep := hphase.of_fresh hfresh
    have hkeep : HasEntries (t.issue inst) t.instances.nextId inst.entries :=
      ⟨_, (mem_alloc hroom inst _).mpr (.inl rfl), rfl, rfl⟩
    cases he : inst.entries with
    | none =>
      rw [he] at hkeep
      refine ⟨.issued, ?_, .issued (.inr hkeep)⟩
      simp [createdBy, lifeStep, hstep]
    | some =>
      rw [he] at hkeep
      refine ⟨.running [], ?_, .running hkeep ?_⟩
      · simp [createdBy, lifeStep, hstep, callStep_create]
      · change List.Perm [] (ctxsOf _ t.sessions)
        rw [ctxsOf_fresh ok hfresh]
  · exact follows_of_ne (touches_issue hroom inst _) (fun heq => hj (some.inj heq)) (.refl _)

/-- **Every panic-free act is in order**, if it finds a session slot when it needs one. -/
theorem Act.follows (ok : TablesOk t) (hlive : AllLive t) (h : Act ptas u t evs t')
    (hquiet : Quiet evs) (hroom : t.sessions.HasRoom ∨ ∀ r, .sessionIssued r ∉ evs)
    (iid : InstanceId) : Follows iid t t' evs := by
  have hsame : ∀ {evs}, (∀ ev ∈ evs, ev.subject = none) → ∀ {sessions},
      (ctxsOf (names iid) sessions).Perm (ctxsOf (names iid) t.sessions) →
      Follows iid t (t.withSessions sessions) evs := by
    intro evs hevs sessions hctx
    have htouch : Touches t (t.withSessions sessions) evs none := touches_same hevs rfl
    exact follows_of_ne htouch (by simp) hctx
  cases h with
  | idle => exact hsame (by simp) (.refl _)
  | ptaCalled => exact hsame (by simp [Event.subject]) (.refl _)
  | ptaOpened uuid login ctx hreg hfree =>
    exact hsame (by simp [Event.subject]) (ctxsOf_alloc_of_not hfree fun _ => rfl)
  | ptaUnrecorded uuid login ctx hfull =>
    refine hsame (by simp [Event.subject]) ?_
    rw [alloc_of_full hfull]
    exact .refl _
  | ptaClosed sid s hs hk =>
    refine hsame (by simp [Event.subject]) (ctxsOf_take_of_not hs ?_)
    rcases ok.session s (get_some hs).1 with ⟨-, hnone, -⟩ | ⟨i, -, hserves⟩
    · simp [names, hnone]
    · exact absurd (hk.symm.trans hserves.kind) (by decide)
  | noSlot =>
    have htouch : Touches t t.skipId [.instanceIssued none] none :=
      touches_same (by simp [Event.subject]) rfl
    exact follows_of_ne htouch (by simp) (.refl _)
  | createRefused hfree hfresh code hcode =>
    by_cases hj : t.instances.nextId = iid
    · subst hj
      intro phase hphase
      refine ⟨.gone, ?_, .gone hfresh⟩
      simp [lifeStep, hphase.of_fresh hfresh, callStep_create, hcode]
    · have htouch : Touches t t.skipId [.instanceIssued (some t.instances.nextId),
          .ta t.instances.nextId (.create code)] (some t.instances.nextId) :=
        ⟨((about_issued _).append (about_call _ _)).target, fun _ _ => Iff.rfl⟩
      exact follows_of_ne htouch (fun heq => hj (some.inj heq)) (.refl _)
  | created props aspace entries hu hfree hfresh =>
    exact follows_created ok hfree hfresh (newInstance props.uuid props aspace entries) iid
  | createPanicked =>
    exact absurd (mem_cons_of_mem _ mem_cons_self) (hquiet _ .create)
  | bound j i login out hi hmulti hfresh hbinds => exact hbinds.follows ok hi hroom iid
  | invoked sid s j i out hs hi hinv => exact hinv.follows ok hi hs iid
  | panicked j i entry => exact absurd mem_cons_self (hquiet j entry)
  | closed sid s j i out hs hi hcloses => exact hcloses.follows ok hi hs iid
  | closePanicked sid s j i hs hi hpanics =>
    cases hpanics with
    | closeSession => exact absurd mem_cons_self (hquiet j .closeSession)
    | destroy =>
      exact absurd (mem_append_right _ mem_cons_self) (hquiet j .destroy)
  | closedDead sid s j i hs hi hdead =>
    exact absurd ((hlive i (get_some hi).1).symm.trans hdead) (by decide)

theorem Acts.follows (ok : TablesOk t) (hlive : AllLive t) (h : Acts ptas u t evs t')
    (hquiet : Quiet evs) (hroom : t.sessions.HasRoom ∨ ∀ r, .sessionIssued r ∉ evs)
    (iid : InstanceId) : Follows iid t t' evs := by
  cases h with
  | one h => exact h.follows ok hlive hquiet hroom iid
  | two h1 h2 hfree hfresh hissue hcreated =>
    subst hissue hcreated
    obtain ⟨hq1, hq2⟩ := hquiet.of_append
    refine (follows_created ok hfree hfresh _ iid).trans
      (h2.follows (ok.act h1) (h1.allLive ok hq1 hlive) hq2 ?_ iid)
    exact hroom.imp id fun h r hr => h r (mem_append_right _ hr)

/-! ### The monitor of a pseudo-TA -/

/-- The monitor of `uuid` accepts the events; what it holds open is in the table. -/
def PtaFollows (uuid : Uuid) (t t' : Tables A) (evs : List Event) : Prop :=
  ∀ opens, opens.Perm (ctxsOf (ofPta uuid) t.sessions) →
    ∃ opens', evs.foldlM (ptaStep uuid) opens = some opens' ∧
      opens'.Perm (ctxsOf (ofPta uuid) t'.sessions)

theorem ptaOpens_of_noPta (h : ∀ v call, .pta v call ∉ evs)
    (opens : List UInt64) : evs.foldlM (ptaStep uuid) opens = some opens := by
  induction evs with
  | nil => rfl
  | cons ev evs ih =>
    have hstep : ptaStep uuid opens ev = some opens := by
      cases ev with
      | pta v call => exact absurd mem_cons_self (h v call)
      | sessionIssued | instanceIssued | ta => rfl
    rw [foldlM_cons, hstep]
    exact ih fun v call hev => h v call (mem_cons_of_mem _ hev)

theorem ptaFollows_of_noPta (h : ∀ v call, .pta v call ∉ evs)
    (hctx : (ctxsOf (ofPta uuid) t'.sessions).Perm (ctxsOf (ofPta uuid) t.sessions)) :
    PtaFollows uuid t t' evs := fun opens hopens =>
  ⟨opens, ptaOpens_of_noPta h opens, hopens.trans hctx.symm⟩

theorem pta_not_mem_if {c : Prop} [Decidable c] (call : TaCall) (v : Uuid) (pcall : PtaCall) :
    .pta v pcall ∉ (if c then [Event.ta iid call] else []) := by
  by_cases hc : c
  · simp [if_pos hc]
  · simp [if_neg hc]

theorem Binds.ptaFollows {v : Uuid} {login : Login}
    (h : Binds iid i v login t evs out t') (uuid : Uuid) : PtaFollows uuid t t' evs := by
  cases h with
  | unmapped | refused => exact ptaFollows_of_noPta (by simp) (.refl _)
  | unrecorded a ctx hfull =>
    refine ptaFollows_of_noPta (fun v call hev => ?_) ?_
    · rcases mem_append.mp hev with h | h
      · exact pta_not_mem_if _ v call h
      · cases mem_singleton.mp h
    · rw [alloc_of_full hfull]
      exact .refl _
  | recorded a ctx params hfree =>
    refine ptaFollows_of_noPta (fun v call hev => ?_) (ctxsOf_alloc_of_not hfree fun _ => rfl)
    rcases mem_append.mp hev with h | h
    · exact pta_not_mem_if _ v call h
    · cases mem_singleton.mp h

theorem SessionAt.not_ofPta (h : SessionAt t sid s iid) (uuid : Uuid) : ofPta uuid s = false := by
  simp [ofPta, h.kind]

/-- No entry point and no pseudo-TA has panicked. -/
structure PanicFree (log : List Event) : Prop where
  ta : Quiet log
  pta : ∀ uuid method, .pta uuid (.panicked method) ∉ log

def Event.isPtaPanic : Event → Bool
  | .pta _ (.panicked _) => true
  | _ => false

theorem panicFree_iff (log : List Event) :
    (Quiet log ∧ ∀ ev ∈ log, ev.isPtaPanic = false) ↔ PanicFree log := by
  constructor
  · rintro ⟨hta, hpta⟩
    refine ⟨hta, fun uuid method hev => ?_⟩
    exact absurd (hpta _ hev) (by simp [Event.isPtaPanic])
  · rintro ⟨hta, hpta⟩
    refine ⟨hta, fun ev hev => ?_⟩
    unfold Event.isPtaPanic
    split
    · exact absurd hev (hpta _ _)
    · rfl

instance (log : List Event) : Decidable (PanicFree log) :=
  decidable_of_iff _ (panicFree_iff log)

theorem PanicFree.of_append {evs1 evs2 : List Event} (h : PanicFree (evs1 ++ evs2)) :
    PanicFree evs1 ∧ PanicFree evs2 :=
  ⟨⟨h.ta.of_append.1, fun v p hev => h.pta v p (mem_append_left _ hev)⟩,
    ⟨h.ta.of_append.2, fun v p hev => h.pta v p (mem_append_right _ hev)⟩⟩

theorem Act.ptaFollows (hlive : AllLive t) (h : Act ptas u t evs t') (hfree : PanicFree evs)
    (hroom : t.sessions.HasRoom ∨ ∀ r, .sessionIssued r ∉ evs) (uuid : Uuid) :
    PtaFollows uuid t t' evs := by
  cases h with
  | idle | noSlot | createRefused => exact ptaFollows_of_noPta (by simp) (.refl _)
  | ptaCalled v call hcall =>
    intro opens hopens
    refine ⟨opens, ?_, hopens⟩
    cases hcall with
    | refused | panicked | invoke => rfl
  | ptaOpened v login ctx hreg hslot =>
    intro opens hopens
    have halloc := ctxsOf_alloc (p := ofPta uuid) (s := ptaSession v login ctx) hslot
      fun _ => rfl
    by_cases hv : v = uuid
    · refine ⟨ctx :: opens, by simp [ptaStep, hv], ?_⟩
      rw [if_pos (by simp [ofPta, ptaSession, hv])] at halloc
      exact (hopens.cons ctx).trans halloc.symm
    · refine ⟨opens, by simp [ptaStep, hv], ?_⟩
      rw [if_neg (by simp [ofPta, ptaSession, hv])] at halloc
      exact hopens.trans halloc.symm
  | ptaUnrecorded v login ctx hfull =>
    rcases hroom with h | h
    · exact absurd h hfull
    · exact absurd (mem_cons_of_mem _ mem_cons_self) (h none)
  | ptaClosed sid s hs hk call hcall =>
    cases hcall with
    | panicked => exact absurd mem_cons_self (hfree.pta _ .close)
    | closed =>
      intro opens hopens
      by_cases hv : s.uuid = uuid
      · obtain ⟨hctx, hrest⟩ := ctxsOf_close hs (by simp [ofPta, hk, hv]) hopens
        exact ⟨opens.erase s.taSessCtx, by simp [ptaStep, hv, hctx], hrest⟩
      · refine ⟨opens, by simp [ptaStep, hv], hopens.trans ?_⟩
        exact (ctxsOf_take_of_not hs (by simp [ofPta, hv])).symm
  | created =>
    refine ptaFollows_of_noPta (fun v call hev => ?_) (.refl _)
    rcases mem_cons.mp hev with h | h
    · cases h
    · exact pta_not_mem_if _ v call h
  | createPanicked =>
    exact absurd (mem_cons_of_mem _ mem_cons_self) (hfree.ta _ .create)
  | bound j i login out hi hmulti hfresh hbinds => exact hbinds.ptaFollows uuid
  | invoked sid s j i out hs hi hinv =>
    cases hinv with
    | unmapped => exact ptaFollows_of_noPta (by simp) (.refl _)
    | answered => exact ptaFollows_of_noPta (pta_not_mem_if _) (.refl _)
  | panicked j i entry => exact absurd mem_cons_self (hfree.ta j entry)
  | closed sid s j i out hs hi hcloses =>
    have hctx := ctxsOf_take_of_not hs.get (hs.not_ofPta uuid)
    cases hcloses with
    | kept => exact ptaFollows_of_noPta (pta_not_mem_if _) hctx
    | destroyed =>
      refine ptaFollows_of_noPta (fun v call hev => ?_) hctx
      rcases mem_append.mp hev with h | h
      · exact pta_not_mem_if _ v call h
      · exact pta_not_mem_if _ v call h
  | closePanicked sid s j i hs hi hpanics =>
    cases hpanics with
    | closeSession => exact absurd mem_cons_self (hfree.ta j .closeSession)
    | destroy =>
      exact absurd (mem_append_right _ mem_cons_self) (hfree.ta j .destroy)
  | closedDead sid s j i hs hi hdead =>
    exact absurd ((hlive i (get_some hi).1).symm.trans hdead) (by decide)

theorem Acts.ptaFollows (ok : TablesOk t) (hlive : AllLive t) (h : Acts ptas u t evs t')
    (hfree : PanicFree evs) (hroom : t.sessions.HasRoom ∨ ∀ r, .sessionIssued r ∉ evs)
    (uuid : Uuid) : PtaFollows uuid t t' evs := by
  cases h with
  | one h => exact h.ptaFollows hlive hfree hroom uuid
  | two h1 h2 hslot hfresh hissue =>
    obtain ⟨hf1, hf2⟩ := hfree.of_append
    have hroom1 := hroom.imp id fun h r hr => h r (mem_append_left _ hr)
    have hroom2 := hroom.imp id fun h r hr => h r (mem_append_right _ hr)
    intro opens hopens
    obtain ⟨opens1, hrun1, hopens1⟩ := h1.ptaFollows hlive hf1 hroom1 uuid opens hopens
    subst hissue
    obtain ⟨opens2, hrun2, hopens2⟩ :=
      h2.ptaFollows (h1.allLive ok hf1.ta hlive) hf2 hroom2 uuid opens1 hopens1
    refine ⟨opens2, ?_, hopens2⟩
    rw [foldlM_append, hrun1]
    exact hrun2

/-! ### Whole runs -/

def Roomy (m : Machine σ A) (cmd : KernelCmd) : Prop :=
  FreshIds m ∧ (cmd.mayOpen = true → m.sessions.HasRoom)

instance [DecidableEq A] (m : Machine σ A) (cmd : KernelCmd) : Decidable (Roomy m cmd) := by
  unfold Roomy; infer_instance

/-- The log is in order for every instance and every pseudo-TA, and the contexts that
are open are those of the sessions in the table. -/
structure GpLifecycle (m : Machine σ A) : Prop where
  ta : ∀ iid, ∃ phase, life iid m.log = some phase ∧
    ∀ opens, phase = .running opens → opens.Perm (ctxsOf (names iid) m.sessions)
  pta : ∀ uuid, ∃ opens, ptaOpens uuid m.log = some opens ∧
    opens.Perm (ctxsOf (ofPta uuid) m.sessions)

/-- What a run keeps besides the kernel invariant. -/
structure Orderly (m : Machine σ A) : Prop where
  ok : KernelOk m
  live : AllLive m.tables
  ta : ∀ iid, ∃ phase, life iid m.log = some phase ∧ LifeAt m.tables iid phase
  pta : ∀ uuid, ∃ opens, ptaOpens uuid m.log = some opens ∧
    opens.Perm (ctxsOf (ofPta uuid) m.sessions)

theorem Orderly.step (h : Orderly m) {cmd : KernelCmd}
    (hguard : Roomy m cmd) (hd : dispatch env cmd m = (.out out, m'))
    (hfree : PanicFree m'.log) : Orderly m' := by
  have hstep := dispatch_step env h.ok hguard.1 hd
  obtain ⟨u, evs, hacts, hlog, -⟩ := hstep.acts
  have hlive := h.live.step h.ok hstep hfree.ta
  have hroom : m.tables.sessions.HasRoom ∨ ∀ r, .sessionIssued r ∉ evs := by
    cases hopen : cmd.mayOpen with
    | true => exact .inl (hguard.2 hopen)
    | false =>
      have hgrows := dispatch_issues_nothing env m hopen
      rw [hd] at hgrows
      obtain ⟨evs', hlog', hnone⟩ := hgrows.log
      obtain rfl : evs = evs' := append_cancel_left (hlog.symm.trans hlog')
      exact .inr fun r hr => (hnone _ hr).1 r rfl
  rw [hlog] at hfree
  obtain ⟨-, hfree'⟩ := hfree.of_append
  refine ⟨h.ok.step hstep, hlive, ?_, ?_⟩
  · intro iid
    obtain ⟨phase, hlife, hphase⟩ := h.ta iid
    obtain ⟨phase', hrun, hphase'⟩ :=
      hacts.follows h.ok.tables h.live hfree'.ta hroom iid phase hphase
    refine ⟨phase', ?_, hphase'⟩
    rw [hlog, life, foldlM_append, ← life, hlife]
    exact hrun
  · intro uuid
    obtain ⟨opens, hlife, hopens⟩ := h.pta uuid
    obtain ⟨opens', hrun, hopens'⟩ :=
      hacts.ptaFollows h.ok.tables h.live hfree' hroom uuid opens hopens
    refine ⟨opens', ?_, hopens'⟩
    rw [hlog, ptaOpens, foldlM_append, ← ptaOpens, hlife]
    exact hrun

theorem Booted.orderly (h : Booted env m) : Orderly m := by
  have hsessions : m.sessions.entries = [] := by
    have := congrArg Tables.sessions h.idle.tables
    rw [show m.sessions = SlotTable.new MAX_SESSIONS from this, entries_new]
  have hinstances : m.instances.entries = [] := by
    have := congrArg Tables.instances h.idle.tables
    rw [show m.instances = SlotTable.new MAX_INSTANCES from this, entries_new]
  refine ⟨h.kernelOk, ?_, ?_, ?_⟩
  · intro i hi
    change i ∈ m.instances.entries at hi
    rw [hinstances] at hi
    exact absurd hi not_mem_nil
  · intro iid
    refine ⟨.gone, by rw [h.idle.log]; rfl, .gone ?_⟩
    intro i hi
    change i ∈ m.instances.entries at hi
    rw [hinstances] at hi
    exact absurd hi not_mem_nil
  · intro uuid
    refine ⟨[], by rw [h.idle.log]; rfl, ?_⟩
    rw [ctxsOf, hsessions]
    exact .refl _

/-- **The GP life cycle.**  In every panic-free run whose commands find fresh ids, and a
free session slot when they may need one, all calls are in order and every context
that is open belongs to a session in the table. -/
theorem gp_lifecycle {steps : List (Taken σ A)} (hb : Booted env m₀)
    (hrun : Run env Roomy m₀ steps m) (hfree : PanicFree m.log) : GpLifecycle m := by
  have hinv : PanicFree m.log → Orderly m := by
    refine hrun.invariant (P := fun m => PanicFree m.log → Orderly m) ?_ ?_ fun _ => hb.orderly
    · intro m cmd out m' hguard ih hd hfree
      have hgrows := dispatch_grows env cmd m
      rw [hd] at hgrows
      obtain ⟨evs, hlog, -⟩ := hgrows.log
      have hbefore : PanicFree m.log := (hlog ▸ hfree).of_append.1
      exact (ih hbefore).step hguard hd hfree
    · intro m w ih hfree
      have h := ih hfree
      exact ⟨h.ok.outside w, h.live, h.ta, h.pta⟩
  have h := hinv hfree
  refine ⟨?_, h.pta⟩
  intro iid
  obtain ⟨phase, hlife, hphase⟩ := h.ta iid
  refine ⟨phase, hlife, ?_⟩
  rintro opens rfl
  cases hphase with
  | running _ hopens => exact hopens

theorem gp_lifecycle_sample :
    ∃ steps m, Run sampleEnv Roomy sampleStart steps m ∧ steps.length = 4 ∧
      PanicFree m.log ∧ GpLifecycle m := by
  obtain ⟨r, hrun, hlen, hfree⟩ := exists_run_of_runAll sampleEnv Roomy sampleCmds sampleStart
    (fun r => r.1.length = 4 ∧ PanicFree r.2.log) (by decide +kernel)
  exact ⟨r.1, r.2, hrun, hlen, hfree, gp_lifecycle sampleStart_booted hrun hfree⟩

def crowdingCmds : List KernelCmd :=
  replicate (MAX_SESSIONS + 1) (openCmd sampleTa.uuid .public) ++ [openCmd samplePta.uuid .public]

/-- The TA has accepted 33 sessions and the pseudo-TA one; 32 of the TA are in the table,
and the others will never be closed. -/
theorem gp_lifecycle_broken :
    ∃ steps m, Run sampleEnv (fun m _ => FreshIds m) sampleStart steps m ∧ PanicFree m.log ∧
      life 1 m.log = some (.running (replicate 33 7)) ∧
      ctxsOf (names 1) m.sessions = replicate 32 7 ∧
      ptaOpens samplePta.uuid m.log = some [9] ∧
      ctxsOf (ofPta samplePta.uuid) m.sessions = [] ∧ ¬ GpLifecycle m := by
  obtain ⟨r, hrun, hfree, hta, htable, hpta, hlost⟩ := exists_run_of_runAll sampleEnv
    (fun m _ => FreshIds m) crowdingCmds sampleStart
    (fun r => PanicFree r.2.log ∧ life 1 r.2.log = some (.running (replicate 33 7)) ∧
      ctxsOf (names 1) r.2.sessions = replicate 32 7 ∧
      ptaOpens samplePta.uuid r.2.log = some [9] ∧
      ctxsOf (ofPta samplePta.uuid) r.2.sessions = []) (by decide +kernel)
  refine ⟨r.1, r.2, hrun, hfree, hta, htable, hpta, hlost, ?_⟩
  intro hgp
  obtain ⟨opens, hopens, hperm⟩ := hgp.pta samplePta.uuid
  have hone : opens = [9] := Option.some.inj (hopens.symm.trans hpta)
  rw [hone, hlost] at hperm
  exact absurd hperm.length_eq (by decide)

end Rustee.Os
