import Rustee.OsCommands

/-!
# The table machine

What the kernel is for, without parameters, address spaces or the world.

Its state is the pair of tables. An *act* is one indivisible change of them, labelled with the
events it logs. `OsRefinement.lean` shows that every command of the kernel is one act or two, so
what every act keeps, the kernel keeps.
-/

namespace Rustee.Os

open SlotTable List InstanceTable SessionTable PtaRegistry

variable {A : Type} {t t' : Tables A} {iid : InstanceId} {i : Instance A} {evs : List Event}

/-! ### Acts -/

/-- The instance is gone for good: Dead, locked for ever, without an address space,
and its sessions poisoned. -/
def Tables.kill (t : Tables A) (iid : InstanceId) : Tables A :=
  { sessions := poisonInstance t.sessions iid
    instances := t.instances.update iid fun i =>
      { i with state := .dead, aspace := none, busy := true } }

/-- The session `open` stores for a pseudo-TA. -/
def ptaSession (uuid : Uuid) (login : Login) (ctx : UInt64) : Session :=
  { id := 0, uuid, kind := .pta, inst := none, taSessCtx := ctx, state := .ready,
    client := login }

/-- Pseudo-TA calls that leave the tables alone; an invoke comes from a session. -/
inductive PtaQuiet (t : Tables A) (uuid : Uuid) : PtaCall → Prop
  | refused (r : TeeResult) : PtaQuiet t uuid (.refused r)
  | panicked (method : PtaMethod) : PtaQuiet t uuid (.panicked method)
  | invoke {s : Session} (hs : s ∈ t.sessions.entries) (hk : s.kind = .pta)
      (hu : s.uuid = uuid) : PtaQuiet t uuid (.invoke s.taSessCtx)

/-- How the close method of a pseudo-TA ends. -/
inductive PtaCloses (ctx : UInt64) : PtaCall → Prop
  | closed : PtaCloses ctx (.close ctx)
  | panicked : PtaCloses ctx (.panicked .close)

/-- A Live instance in the table. -/
structure LiveAt (t : Tables A) (iid : InstanceId) (i : Instance A) : Prop where
  get : t.instances.get iid = some i
  live : i.state = .live

/-- A session in the table, found under its id, that names the instance `iid`. -/
structure SessionAt (t : Tables A) (sid : SessionId) (s : Session) (iid : InstanceId) :
    Prop where
  get : t.sessions.get sid = some s
  kind : s.kind = .userTa
  inst : s.inst = some iid

/-- The acts of the table machine with these pseudo-TAs. `u` is the TA a creating
act may create. -/
inductive Act (ptas : PtaRegistry) (u : Option Uuid) : Tables A → List Event → Tables A → Prop
  | idle (t : Tables A) : Act ptas u t [] t
  | ptaCalled (t : Tables A) (uuid : Uuid) (call : PtaCall) (hcall : PtaQuiet t uuid call) :
      Act ptas u t [.pta uuid call] t
  | ptaOpened (t : Tables A) (uuid : Uuid) (login : Login) (ctx : UInt64)
      (hreg : (getMut ptas uuid).isSome) (hroom : t.sessions.HasRoom)
      (hfresh : t.sessions.Fresh t.sessions.nextId) :
      Act ptas u t [.pta uuid (.opened ctx), .sessionIssued (some t.sessions.nextId)]
        (t.withSessions (t.sessions.alloc (ptaSession uuid login ctx)).2)
  | ptaUnrecorded (t : Tables A) (uuid : Uuid) (login : Login) (ctx : UInt64)
      (hroom : ¬ t.sessions.HasRoom) :
      Act ptas u t [.pta uuid (.opened ctx), .sessionIssued none]
        (t.withSessions (t.sessions.alloc (ptaSession uuid login ctx)).2)
  | ptaClosed (t : Tables A) (sid : SessionId) (s : Session)
      (hs : t.sessions.get sid = some s) (hk : s.kind = .pta) (call : PtaCall)
      (hcall : PtaCloses s.taSessCtx call) :
      Act ptas u t [.pta s.uuid call] (t.withSessions (t.sessions.take sid).2)
  | noSlot (t : Tables A) (hroom : ¬ t.instances.HasRoom) :
      Act ptas u t [.instanceIssued none] t.skipId
  | createRefused (t : Tables A) (hroom : t.instances.HasRoom)
      (hfresh : t.instances.Fresh t.instances.nextId) (code : UInt32) (hcode : code ≠ TEE_SUCCESS) :
      Act ptas u t
        [.instanceIssued (some t.instances.nextId), .ta t.instances.nextId (.create code)]
        t.skipId
  | created (t : Tables A) (props : TaProperties) (aspace : A)
      (entries : Option TaEntryPoints) (hu : u = some props.uuid)
      (hroom : t.instances.HasRoom) (hfresh : t.instances.Fresh t.instances.nextId)
      (hsingle : liveSingle t.instances props.uuid = none) :
      Act ptas u t
        (.instanceIssued (some t.instances.nextId) :: createdBy t.instances.nextId entries)
        (t.issue (newInstance props.uuid props aspace entries))
  | createPanicked (t : Tables A) (props : TaProperties) (aspace : A)
      (entries : Option TaEntryPoints) (hu : u = some props.uuid)
      (hroom : t.instances.HasRoom) (hfresh : t.instances.Fresh t.instances.nextId)
      (hsingle : liveSingle t.instances props.uuid = none) :
      Act ptas u t
        [.instanceIssued (some t.instances.nextId),
          .ta t.instances.nextId (.panicked .create)]
        ((t.issue (newInstance props.uuid props aspace entries)).kill t.instances.nextId)
  | bound {t t' : Tables A} {evs : List Event} (iid : InstanceId) (i : Instance A)
      (login : Login) (out : KernelOut) (hi : LiveAt t iid i)
      (hmulti : i.props.multiSession = true ∨ i.sessionCount = 0)
      (hfresh : t.sessions.Fresh t.sessions.nextId)
      (hbinds : Binds iid i i.uuid login t evs out t') : Act ptas u t evs t'
  | invoked {t t' : Tables A} {evs : List Event} (sid : SessionId) (s : Session)
      (iid : InstanceId) (i : Instance A) (out : KernelOut) (hs : SessionAt t sid s iid)
      (hi : LiveAt t iid i) (hinv : Invokes iid i sid s.taSessCtx t evs out t') :
      Act ptas u t evs t'
  | panicked (t : Tables A) (iid : InstanceId) (i : Instance A) (entry : EntryPoint)
      (hi : LiveAt t iid i) : Act ptas u t [.ta iid (.panicked entry)] (t.kill iid)
  | closed {t t' : Tables A} {evs : List Event} (sid : SessionId) (s : Session)
      (iid : InstanceId) (i : Instance A) (out : KernelOut) (hs : SessionAt t sid s iid)
      (hi : LiveAt t iid i)
      (hcloses : Closes iid i s.taSessCtx (t.withSessions (t.sessions.take sid).2) evs out t') :
      Act ptas u t evs t'
  | closePanicked {t t₁ : Tables A} {evs : List Event} (sid : SessionId) (s : Session)
      (iid : InstanceId) (i : Instance A) (hs : SessionAt t sid s iid) (hi : LiveAt t iid i)
      (hpanics : ClosePanics iid i s.taSessCtx (t.withSessions (t.sessions.take sid).2) evs
        iid t₁) :
      Act ptas u t evs (t₁.kill iid)
  | closedDead (t : Tables A) (sid : SessionId) (s : Session) (iid : InstanceId)
      (i : Instance A) (hs : SessionAt t sid s iid) (hi : t.instances.get iid = some i)
      (hdead : i.state = .dead) : Act ptas u t [] (t.withSessions (t.sessions.take sid).2)

def Event.subject : Event → Option InstanceId
  | .instanceIssued id => id
  | .ta iid _ => some iid
  | _ => none

/-- Only the instance `target` is issued, called or changed. -/
structure Touches (t t' : Tables A) (evs : List Event) (target : Option InstanceId) : Prop where
  events : ∀ ev ∈ evs, ∀ j, ev.subject = some j → target = some j
  others : ∀ j : Instance A, target ≠ some j.id →
    (j ∈ t'.instances.entries ↔ j ∈ t.instances.entries)

/-- One command: one act, or the creation of an instance and an act on it. -/
inductive Acts (ptas : PtaRegistry) (u : Option Uuid) : Tables A → List Event → Tables A → Prop
  | one {t t' : Tables A} {evs : List Event} (h : Act ptas u t evs t') : Acts ptas u t evs t'
  | two {t t₁ t' : Tables A} {evs₁ evs₂ : List Event} {inst : Instance A}
      (h₁ : Act ptas u t evs₁ t₁) (h₂ : Act ptas u t₁ evs₂ t')
      (hroom : t.instances.HasRoom) (hfresh : t.instances.Fresh t.instances.nextId)
      (hissue : t₁ = t.issue inst)
      (hcreated : evs₁ = .instanceIssued (some t.instances.nextId) ::
        createdBy t.instances.nextId inst.entries)
      (hsecond : ∀ r, .instanceIssued r ∉ evs₂)
      (htouch : Touches t₁ t' evs₂ (some t.instances.nextId)) :
      Acts ptas u t (evs₁ ++ evs₂) t'

/-! ### The invariant -/

/-- The number of sessions in the table that name `iid`. -/
def SessionTable.naming (t : SessionTable) (iid : InstanceId) : Nat :=
  t.entries.countP fun s => s.inst = some iid

/-- The session belongs to the instance, and they live and die together. -/
structure Serves (i : Instance A) (s : Session) : Prop where
  kind : s.kind = .userTa
  inst : s.inst = some i.id
  uuid : s.uuid = i.uuid
  state : (i.state = .live ∧ s.state = .ready) ∨ (i.state = .dead ∧ s.state = .dead)

def SessionOk (instances : InstanceTable A) (s : Session) : Prop :=
  (s.kind = .pta ∧ s.inst = none ∧ s.state = .ready) ∨ ∃ i ∈ instances.entries, Serves i s

/-- Live, free and counted right; or killed by a panic. -/
inductive InstanceOk (sessions : SessionTable) (i : Instance A) : Prop
  | live (huuid : i.props.uuid = i.uuid) (hlive : i.state = .live) (hbusy : i.busy = false)
      (hcount : i.sessionCount.toNat = naming sessions i.id)
      (hmulti : i.props.multiSession = false → i.sessionCount.toNat ≤ 1)
  | dead (huuid : i.props.uuid = i.uuid) (hdead : i.state = .dead) (hbusy : i.busy = true)
      (haspace : i.aspace = none)

structure TablesOk (t : Tables A) : Prop where
  sessions : t.sessions.WellFormed MAX_SESSIONS
  instances : t.instances.WellFormed MAX_INSTANCES
  session : ∀ s ∈ t.sessions.entries, SessionOk t.instances s
  inst : ∀ i ∈ t.instances.entries, InstanceOk t.sessions i
  single : ∀ i ∈ t.instances.entries, ∀ j ∈ t.instances.entries,
    isLiveSingle i.uuid i = true → isLiveSingle i.uuid j = true → i = j

variable {sessions : SessionTable}

theorem InstanceOk.uuid (h : InstanceOk sessions i) : i.props.uuid = i.uuid := by
  cases h with
  | live huuid | dead huuid => exact huuid

theorem InstanceOk.congr {sessions' : SessionTable} (h : InstanceOk sessions i)
    (hn : naming sessions' i.id = naming sessions i.id) :
    InstanceOk sessions' i := by
  cases h with
  | live huuid hlive hbusy hcount hmulti =>
    exact .live huuid hlive hbusy (hcount.trans hn.symm) hmulti
  | dead huuid hdead hbusy haspace => exact .dead huuid hdead hbusy haspace

/-! ### Counting sessions -/

namespace SessionTable

variable {sessions : SessionTable} {s : Session}

theorem naming_alloc (hroom : sessions.HasRoom) (s : Session) (iid : InstanceId) :
    naming (sessions.alloc s).2 iid = naming sessions iid + if s.inst = some iid then 1 else 0 := by
  obtain ⟨t', halloc, -, -, hp⟩ := alloc_of_room hroom s
  rw [naming, halloc, hp.countP_eq, countP_cons]
  simp [naming, Keyed.rekey]

theorem naming_take {sid : SessionId} (hs : sessions.get sid = some s) (iid : InstanceId) :
    naming sessions iid =
      naming (sessions.take sid).2 iid + if s.inst = some iid then 1 else 0 := by
  rw [naming, (take_perm hs).countP_eq, countP_cons]
  simp [naming]

theorem naming_poisonInstance (sessions : SessionTable) (iid j : InstanceId) :
    naming (poisonInstance sessions iid) j = naming sessions j := by
  rw [naming, poisonInstance, entries_mapEntries, countP_map]
  apply countP_congr
  intro s _
  by_cases h : s.inst = some iid <;> simp [h]

theorem mem_poisonInstance (sessions : SessionTable) (iid : InstanceId) (s' : Session) :
    s' ∈ (poisonInstance sessions iid).entries ↔
      (∃ s ∈ sessions.entries, s.inst = some iid ∧ s' = { s with state := .dead }) ∨
      (s' ∈ sessions.entries ∧ s'.inst ≠ some iid) := by
  rw [poisonInstance, entries_mapEntries, mem_map]
  constructor
  · rintro ⟨s, hs, rfl⟩
    by_cases h : s.inst = some iid
    · rw [if_pos h]
      exact .inl ⟨s, hs, h, rfl⟩
    · rw [if_neg h]
      exact .inr ⟨hs, h⟩
  · rintro (⟨s, hs, h, rfl⟩ | ⟨hs, h⟩)
    · exact ⟨s, hs, by rw [if_pos h]⟩
    · exact ⟨s', hs, by rw [if_neg h]⟩

theorem naming_eq_zero {iid : InstanceId} (h : naming sessions iid = 0) :
    ∀ s ∈ sessions.entries, s.inst ≠ some iid := by
  intro s hs hinst
  have := countP_eq_zero.mp h s hs
  simp [hinst] at this

theorem naming_lt (hroom : sessions.HasRoom) (iid : InstanceId) :
    naming sessions iid < sessions.slots.length := by
  have hlen : sessions.entries.length < sessions.slots.length :=
    reduceOption_length_lt_iff.mpr hroom
  exact Nat.lt_of_le_of_lt countP_le_length hlen

end SessionTable

theorem toNat_countUp {n : UInt16} (h : n.toNat < MAX_SESSIONS) :
    (countUp n).toNat = n.toNat + 1 := by
  have hmax : n ≠ 0xFFFF := by
    rintro rfl
    exact absurd h (by decide)
  rw [countUp, if_neg hmax, UInt16.toNat_add]
  have : MAX_SESSIONS = 32 := rfl
  simp only [UInt16.reduceToNat]
  omega

theorem toNat_countDown (n : UInt16) : (countDown n).toNat = n.toNat - 1 := by
  unfold countDown
  by_cases h : n = 0
  · rw [if_pos h, h]
    rfl
  · have hpos : 1 ≤ n := by
      rw [UInt16.le_iff_toNat_le]
      have : n.toNat ≠ 0 := fun h0 => h (UInt16.toNat_inj.mp h0)
      simp only [UInt16.reduceToNat]
      omega
    rw [if_neg h, UInt16.toNat_sub_of_le _ _ hpos]
    rfl

/-! ### How a change of one instance or of the sessions keeps the invariant -/

theorem TablesOk.getOk (ok : TablesOk t) (h : t.instances.get iid = some i) :
    i.id = iid ∧ InstanceOk t.sessions i :=
  ⟨(get_some h).2, ok.inst i (get_some h).1⟩

theorem TablesOk.withSessions (ok : TablesOk t) (hwf : sessions.WellFormed MAX_SESSIONS)
    (hsession : ∀ s ∈ sessions.entries, SessionOk t.instances s)
    (hcount : ∀ j ∈ t.instances.entries, j.state = .live →
      naming sessions j.id = naming t.sessions j.id) :
    TablesOk (t.withSessions sessions) := by
  refine ⟨hwf, ok.instances, hsession, ?_, ok.single⟩
  intro j hj
  cases ok.inst j hj with
  | live huuid hlive hbusy hc hmulti =>
    exact .live huuid hlive hbusy (hc.trans (hcount j hj hlive).symm) hmulti
  | dead huuid hdead hbusy haspace => exact .dead huuid hdead hbusy haspace

variable {f : Instance A → Instance A}

/-- The entry of one instance changes, together with the sessions that name it. -/
theorem TablesOk.retarget (ok : TablesOk t) (h : t.instances.get iid = some i)
    (hf : ∀ i, (f i).id = i.id) (huuid : (f i).uuid = i.uuid) (hprops : (f i).props = i.props)
    (hlive : (f i).state = .live → i.state = .live) (hwf : sessions.WellFormed MAX_SESSIONS)
    (hother : ∀ s ∈ sessions.entries, s.inst ≠ some iid → s ∈ t.sessions.entries)
    (hmine : ∀ s ∈ sessions.entries, s.inst = some iid → Serves (f i) s) (hcount : ∀ j, j ≠ iid →
      naming sessions j = naming t.sessions j)
    (hinst : InstanceOk sessions (f i)) :
    TablesOk ((t.updateInstance iid f).withSessions sessions) := by
  obtain ⟨himem, hiid⟩ := get_some h
  have hmem := fun b => ok.instances.distinct.mem_update (f := f) h b
  have hsingle : ∀ u, isLiveSingle u (f i) = true → isLiveSingle u i = true := by
    intro u hu
    simp only [isLiveSingle, huuid, hprops, Bool.and_eq_true, beq_iff_eq] at hu ⊢
    exact ⟨hu.1, hlive hu.2⟩
  refine ⟨hwf, ok.instances.update hf, ?_, ?_, ?_⟩
  · intro s hs
    by_cases hname : s.inst = some iid
    · exact .inr ⟨f i, (hmem _).mpr (.inl rfl), hmine s hs hname⟩
    · rcases ok.session s (hother s hs hname) with hpta | ⟨j, hj, hserves⟩
      · exact .inl hpta
      · have hne : j.id ≠ iid := by
          rintro rfl
          exact hname hserves.inst
        exact .inr ⟨j, (hmem j).mpr (.inr ⟨hj, hne⟩), hserves⟩
  · intro j hj
    rcases (hmem j).mp hj with rfl | ⟨hold, hne⟩
    · exact hinst
    · exact (ok.inst j hold).congr (hcount j.id hne)
  · intro j hj k hk hjs hks
    rcases (hmem j).mp hj with rfl | ⟨hjold, hjne⟩ <;>
      rcases (hmem k).mp hk with rfl | ⟨hkold, hkne⟩
    · rfl
    · -- the changed instance and an old one of the same UUID
      rw [huuid] at hjs hks
      have := ok.single i himem k hkold (hsingle _ hjs) hks
      exact absurd (this ▸ hiid) hkne
    · have := ok.single j hjold i himem hjs (hsingle _ hks)
      exact absurd (this ▸ hiid) hjne
    · exact ok.single j hjold k hkold hjs hks

/-! ### Every act keeps the invariant -/

variable {s : Session}

theorem Serves.of_aspace (h : Serves i s) (a : Option A) : Serves { i with aspace := a } s :=
  ⟨h.kind, h.inst, h.uuid, h.state⟩

/-- Under the invariant the sessions that name an instance belong to it. -/
theorem TablesOk.serves (ok : TablesOk t) (h : t.instances.get iid = some i)
    (hs : s ∈ t.sessions.entries) (hinst : s.inst = some iid) : Serves i s := by
  rcases ok.session s hs with ⟨-, hnone, -⟩ | ⟨j, hj, hserves⟩
  · rw [hnone] at hinst
    exact absurd hinst (by simp)
  · have hjid : j.id = iid := by
      have := hserves.inst.symm.trans hinst
      simpa using this
    have : t.instances.get iid = some j := ok.instances.distinct.get_eq_some.mpr ⟨hj, hjid⟩
    rw [h, Option.some.injEq] at this
    rw [this]
    exact hserves

theorem TablesOk.touch (ok : TablesOk t) (hi : LiveAt t iid i) (a : Option A) :
    TablesOk (t.touch iid a) := by
  obtain ⟨hiid, hok⟩ := ok.getOk hi.get
  refine ok.retarget hi.get (fun _ => rfl) rfl rfl id ok.sessions ?_ ?_ ?_ ?_
  · intro s hs _
    exact hs
  · intro s hs hname
    exact (ok.serves hi.get hs hname).of_aspace a
  · intro j _
    rfl
  · cases hok with
    | live huuid hlive hbusy hcount hmulti => exact .live huuid hlive hbusy hcount hmulti
    | dead huuid hdead => exact absurd (hi.live.symm.trans hdead) (by decide)

/-- Killing an instance, whether or not one of its sessions has just been taken. -/
theorem TablesOk.kill_of (ok : TablesOk t) (h : t.instances.get iid = some i)
    (sessions : SessionTable) (count : UInt16 → UInt16)
    (hwf : sessions.WellFormed MAX_SESSIONS) (hsub : ∀ s ∈ sessions.entries, s ∈ t.sessions.entries)
    (hcount : ∀ j, j ≠ iid → naming sessions j = naming t.sessions j) :
    TablesOk ((t.updateInstance iid fun i =>
      { i with
        state := .dead, aspace := none, busy := true,
        sessionCount := count i.sessionCount }).withSessions
        (poisonInstance sessions iid)) := by
  obtain ⟨hiid, hok⟩ := ok.getOk h
  refine ok.retarget h (fun _ => rfl) rfl rfl (fun hdead => absurd hdead (by simp)) ?_ ?_ ?_ ?_ ?_
  · refine hwf.mapEntries ?_
    intro s
    by_cases hs : s.inst = some iid <;> simp [hs, Keyed.key]
  · intro s hs hname
    rcases (mem_poisonInstance _ _ _).mp hs with ⟨s0, -, hinst, rfl⟩ | ⟨hold, -⟩
    · exact absurd hinst hname
    · exact hsub s hold
  · intro s hs hname
    rcases (mem_poisonInstance _ _ _).mp hs with ⟨s0, hs0, hinst, rfl⟩ | ⟨-, hne⟩
    · have hserves := ok.serves h (hsub s0 hs0) hinst
      exact ⟨hserves.kind, hserves.inst, hserves.uuid, .inr ⟨rfl, rfl⟩⟩
    · exact absurd hname hne
  · intro j hj
    rw [naming_poisonInstance]
    exact hcount j hj
  · exact .dead hok.uuid rfl rfl rfl

theorem TablesOk.kill (ok : TablesOk t) (h : t.instances.get iid = some i) :
    TablesOk (t.kill iid) :=
  ok.kill_of h t.sessions id ok.sessions (fun _ hs => hs) fun _ _ => rfl

variable {sid : SessionId}

/-- Taking a session of `iid` only changes the count of `iid`. -/
theorem naming_take_of_ne (hs : SessionAt t sid s iid) {j : InstanceId} (hj : j ≠ iid) :
    naming (t.sessions.take sid).2 j = naming t.sessions j := by
  rw [naming_take hs.get, hs.inst, if_neg (by simpa using fun h => hj h.symm)]
  rfl

theorem TablesOk.mem_take (ok : TablesOk t)
    (hs : s ∈ (t.sessions.take sid).2.entries) : s ∈ t.sessions.entries :=
  ((ok.sessions.distinct.mem_take sid s).mp hs).1

variable {ctx : UInt64}

theorem TablesOk.closePanics (ok : TablesOk t) {t1 : Tables A} (hs : SessionAt t sid s iid)
    (h : t.instances.get iid = some i)
    (hp : ClosePanics iid i ctx (t.withSessions (t.sessions.take sid).2) evs iid t1) :
    TablesOk (t1.kill iid) := by
  have hkill := fun count => ok.kill_of h (t.sessions.take sid).2 count
    (ok.sessions.take sid) (fun _ hm => ok.mem_take hm) fun _ hj => naming_take_of_ne hs hj
  cases hp with
  | closeSession => exact hkill id
  | destroy =>
    have hrelease : ((t.withSessions (t.sessions.take sid).2).release iid).kill iid =
        (t.updateInstance iid fun i =>
          { i with
            state := .dead, aspace := none, busy := true,
            sessionCount := countDown i.sessionCount }).withSessions
          (poisonInstance (t.sessions.take sid).2 iid) :=
      congrArg (Tables.mk _) (update_update fun _ => rfl)
    rw [hrelease]
    exact hkill countDown

theorem TablesOk.skipId (ok : TablesOk t) : TablesOk t.skipId :=
  ⟨ok.sessions, ok.instances.skip, ok.session, ok.inst, ok.single⟩

theorem TablesOk.naming_of_fresh (ok : TablesOk t) {n : InstanceId}
    (hfresh : t.instances.Fresh n) : naming t.sessions n = 0 := by
  rw [naming, countP_eq_zero]
  intro s hs hname
  rcases ok.session s hs with ⟨-, hnone, -⟩ | ⟨j, hj, hserves⟩
  · simp [hnone] at hname
  · rw [hserves.inst] at hname
    exact hfresh j hj (by simpa [Keyed.key] using hname)

theorem liveSingle_eq_none {instances : InstanceTable A} {u : Uuid} :
    liveSingle instances u = none ↔ ∀ i ∈ instances.entries, isLiveSingle u i = false := by
  simp [liveSingle, find?_eq_none]

theorem TablesOk.issue (ok : TablesOk t) {props : TaProperties} (aspace : A)
    (entries : Option TaEntryPoints) (hroom : t.instances.HasRoom)
    (hfresh : t.instances.Fresh t.instances.nextId)
    (hsingle : liveSingle t.instances props.uuid = none) :
    TablesOk (t.issue (newInstance props.uuid props aspace entries)) := by
  have hmem := fun b => mem_alloc hroom (newInstance props.uuid props aspace entries) b
  have hsingle := liveSingle_eq_none.mp hsingle
  refine ⟨ok.sessions, ok.instances.alloc hfresh _, ?_, ?_, ?_⟩
  · intro s hs
    rcases ok.session s hs with hpta | ⟨j, hj, hserves⟩
    · exact .inl hpta
    · exact .inr ⟨j, (hmem j).mpr (.inr hj), hserves⟩
  · intro j hj
    rcases (hmem j).mp hj with rfl | hold
    · exact .live rfl rfl rfl (ok.naming_of_fresh hfresh).symm fun _ => Nat.zero_le 1
    · exact ok.inst j hold
  · intro j hj k hk hjs hks
    rcases (hmem j).mp hj with rfl | hjold <;> rcases (hmem k).mp hk with rfl | hkold
    · rfl
    · have hnone : isLiveSingle props.uuid k = true := hks
      rw [hsingle k hkold] at hnone
      exact absurd hnone (by decide)
    · -- a Live single instance of this UUID would have been found before
      have hu : j.uuid = props.uuid := by
        simp only [isLiveSingle, Bool.and_eq_true, beq_iff_eq] at hks
        exact hks.1.1.symm
      rw [hu, hsingle j hjold] at hjs
      exact absurd hjs (by decide)
    · exact ok.single j hjold k hkold hjs hks

/-! #### Binding -/

/-- The one new session is a session of `iid`; the others are as before. -/
theorem TablesOk.recorded (ok : TablesOk t) (hi : LiveAt t iid i)
    (hmulti : i.props.multiSession = true ∨ i.sessionCount = 0) (login : Login)
    (ctx : UInt64) (a : Option A) (hroom : t.sessions.HasRoom)
    (hfresh : t.sessions.Fresh t.sessions.nextId) :
    TablesOk ((t.enroll iid a).withSessions
      (t.sessions.alloc (userSession iid i.uuid login ctx)).2) := by
  obtain ⟨hiid, hok⟩ := ok.getOk hi.get
  have hmem := fun b => mem_alloc hroom (userSession iid i.uuid login ctx) b
  have hnaming := naming_alloc hroom (userSession iid i.uuid login ctx)
  refine ok.retarget hi.get (fun _ => rfl) rfl rfl id (ok.sessions.alloc hfresh _) ?_ ?_ ?_ ?_
  · intro s hs hname
    rcases (hmem s).mp hs with rfl | hold
    · exact absurd rfl hname
    · exact hold
  · intro s hs hname
    rcases (hmem s).mp hs with rfl | hold
    · exact ⟨rfl, congrArg some hiid.symm, rfl, .inl ⟨hi.live, rfl⟩⟩
    · have hserves := ok.serves hi.get hold hname
      exact ⟨hserves.kind, hserves.inst, hserves.uuid, hserves.state⟩
  · intro j hj
    rw [hnaming, if_neg (by simpa [userSession] using fun h => hj h.symm)]
    rfl
  · cases hok with
    | dead huuid hdead => exact absurd (hi.live.symm.trans hdead) (by decide)
    | live huuid hlive hbusy hcount =>
      have hlt : i.sessionCount.toNat < MAX_SESSIONS := by
        rw [hcount, ← ok.sessions.length]
        exact naming_lt hroom i.id
      have hup := toNat_countUp hlt
      refine .live huuid hlive hbusy ?_ ?_
      · change (countUp i.sessionCount).toNat = _
        rw [hup, hcount, hnaming, if_pos (by rw [hiid]; rfl)]
      · intro hsingle
        change (countUp i.sessionCount).toNat ≤ 1
        rcases hmulti with hm' | hzero
        · exact absurd (hm'.symm.trans hsingle) (by decide)
        · rw [hup, hzero]
          decide

variable {out : KernelOut} {login : Login}

theorem TablesOk.binds (ok : TablesOk t) (hi : LiveAt t iid i)
    (hmulti : i.props.multiSession = true ∨ i.sessionCount = 0)
    (hfresh : t.sessions.Fresh t.sessions.nextId)
    (hb : Binds iid i i.uuid login t evs out t') : TablesOk t' := by
  cases hb with
  | unmapped a | refused a => exact ok.touch hi a
  | unrecorded a ctx hroom =>
    have hok := ok.touch hi a
    refine hok.withSessions (ok.sessions.alloc hfresh _) ?_ ?_
    · rw [alloc_of_full hroom]
      exact hok.session
    · intro j _ _
      rw [alloc_of_full hroom]
      rfl
  | recorded a ctx params hroom => exact ok.recorded hi hmulti login ctx a hroom hfresh

/-! #### Closing -/

section

variable (ok : TablesOk t) (hs : SessionAt t sid s iid) (hi : LiveAt t iid i)
include ok hs hi

theorem TablesOk.countDown_eq :
    (countDown i.sessionCount).toNat = naming (t.sessions.take sid).2 iid := by
  obtain ⟨hiid, hok⟩ := ok.getOk hi.get
  have htake := naming_take hs.get iid
  rw [if_pos hs.inst] at htake
  cases hok with
  | dead huuid hdead => exact absurd (hi.live.symm.trans hdead) (by decide)
  | live huuid hlive hbusy hcount =>
    rw [toNat_countDown, hcount, hiid, htake]
    rfl

theorem TablesOk.last_session (hlast : LastSession i) :
    ∀ s' ∈ (t.sessions.take sid).2.entries, s'.inst ≠ some iid := by
  apply naming_eq_zero
  rw [← ok.countDown_eq hs hi, hlast.1]
  rfl

theorem TablesOk.closes
    (hc : Closes iid i s.taSessCtx (t.withSessions (t.sessions.take sid).2) evs out t') :
    TablesOk t' := by
  obtain ⟨hiid, hok⟩ := ok.getOk hi.get
  cases hok with
  | dead huuid hdead => exact absurd (hi.live.symm.trans hdead) (by decide)
  | live huuid hlive hbusy hcount hm =>
    cases hc with
    | kept =>
      refine ok.retarget hi.get (fun _ => rfl) rfl rfl id (ok.sessions.take sid) ?_ ?_ ?_ ?_
      · intro s' hs' _
        exact ok.mem_take hs'
      · intro s' hs' hname
        have hserves := ok.serves hi.get (ok.mem_take hs') hname
        exact ⟨hserves.kind, hserves.inst, hserves.uuid, hserves.state⟩
      · intro j hj
        exact naming_take_of_ne hs hj
      · refine .live huuid hlive hbusy ?_ ?_
        · change (countDown i.sessionCount).toNat = naming _ i.id
          rw [ok.countDown_eq hs hi, hiid]
          rfl
        · intro hsingle
          change (countDown i.sessionCount).toNat ≤ 1
          rw [toNat_countDown]
          have := hm hsingle
          omega
    | destroyed hlast =>
      -- the last session is gone, so nothing names the freed instance
      have hnone := ok.last_session hs hi hlast
      have hmem := fun b => ok.instances.distinct.mem_take iid b
      refine ⟨ok.sessions.take sid, ok.instances.take iid, ?_, ?_, ?_⟩
      · intro s' hs'
        rcases ok.session s' (ok.mem_take hs') with hpta | ⟨j, hj, hserves⟩
        · exact .inl hpta
        · have hne : j.id ≠ iid := by
            rintro rfl
            exact hnone s' hs' hserves.inst
          exact .inr ⟨j, (hmem j).mpr ⟨hj, hne⟩, hserves⟩
      · intro j hj
        obtain ⟨hold, hne⟩ := (hmem j).mp hj
        exact (ok.inst j hold).congr (naming_take_of_ne hs hne)
      · intro j hj k hk
        exact ok.single j ((hmem j).mp hj).1 k ((hmem k).mp hk).1

end

/-! #### All acts -/

variable {u : Option Uuid} {ptas : PtaRegistry}

theorem TablesOk.act (ok : TablesOk t) (h : Act ptas u t evs t') : TablesOk t' := by
  cases h with
  | idle | ptaCalled => exact ok
  | ptaOpened uuid login ctx hreg hroom hfresh =>
    refine ok.withSessions (ok.sessions.alloc hfresh _) ?_ ?_
    · intro s hs
      rcases (mem_alloc hroom _ s).mp hs with rfl | hold
      · exact .inl ⟨rfl, rfl, rfl⟩
      · exact ok.session s hold
    · intro j _ _
      rw [naming_alloc hroom]
      rfl
  | ptaUnrecorded uuid login ctx hroom =>
    rw [alloc_of_full hroom]
    exact ok.withSessions ok.sessions.skip ok.session fun _ _ _ => rfl
  | ptaClosed sid s hs hk =>
    have hinst : s.inst = none := by
      rcases ok.session s (get_some hs).1 with ⟨-, hnone, -⟩ | ⟨j, -, hserves⟩
      · exact hnone
      · exact absurd (hk.symm.trans hserves.kind) (by decide)
    refine ok.withSessions (ok.sessions.take sid) (fun s' hs' => ok.session s' (ok.mem_take hs')) ?_
    intro j _ _
    rw [naming_take hs, hinst]
    rfl
  | noSlot | createRefused => exact ok.skipId
  | created props aspace entries hu hroom hfresh hsingle =>
    exact ok.issue aspace entries hroom hfresh hsingle
  | createPanicked props aspace entries hu hroom hfresh hsingle =>
    exact (ok.issue aspace entries hroom hfresh hsingle).kill (get_alloc hroom hfresh _)
  | bound iid i login out hi hmulti hfresh hbinds => exact ok.binds hi hmulti hfresh hbinds
  | invoked sid s iid i out hs hi hinv =>
    cases hinv with
    | unmapped a | answered a => exact ok.touch hi a
  | panicked iid i entry hi => exact ok.kill hi.get
  | closed sid s iid i out hs hi hcloses => exact ok.closes hs hi hcloses
  | closePanicked sid s iid i hs hi hpanics => exact ok.closePanics hs hi.get hpanics
  | closedDead sid s iid i hs hi hdead =>
    refine ok.withSessions (ok.sessions.take sid) (fun s' hs' => ok.session s' (ok.mem_take hs')) ?_
    intro j hj hlive
    refine naming_take_of_ne hs ?_
    rintro rfl
    have := ok.instances.distinct.get_eq_some.mpr ⟨hj, rfl⟩
    rw [show Keyed.key j = j.id from rfl, hi, Option.some.injEq] at this
    rw [this] at hdead
    exact absurd (hdead.symm.trans hlive) (by decide)

theorem TablesOk.acts (ok : TablesOk t) (h : Acts ptas u t evs t') : TablesOk t' := by
  cases h with
  | one h => exact ok.act h
  | two h1 h2 => exact (ok.act h1).act h2

theorem tablesOk_new : TablesOk (⟨new MAX_SESSIONS, new MAX_INSTANCES⟩ : Tables A) where
  sessions := wellFormed_new _
  instances := wellFormed_new _
  session := by simp
  inst := by simp
  single := by simp

/-! ### Where the entries after an act come from -/

/-- What an instance keeps while it is in the table. -/
structure SameInstance (i j : Instance A) : Prop where
  id : i.id = j.id
  uuid : i.uuid = j.uuid
  props : i.props = j.props
  entries : i.entries = j.entries

theorem SameInstance.refl (i : Instance A) : SameInstance i i := ⟨rfl, rfl, rfl, rfl⟩

variable {j : Instance A}

theorem TablesOk.mem_update (ok : TablesOk t) (h : t.instances.get iid = some i)
    (hj : j ∈ (t.instances.update iid f).entries) :
    (j = f i ∧ i ∈ t.instances.entries) ∨ (j ∈ t.instances.entries ∧ j.id ≠ iid) := by
  rcases (ok.instances.distinct.mem_update h j).mp hj with rfl | hold
  · exact .inl ⟨rfl, (get_some h).1⟩
  · exact .inr hold

def Killed (evs : List Event) (j : Instance A) : Prop :=
  j.state = .dead ∧ ∃ entry, .ta j.id (.panicked entry) ∈ evs

/-- An instance after an act was there before or was just created; it is in the state
it was in, or the act killed it. -/
inductive ComesFrom (u : Option Uuid) (t : Tables A) (evs : List Event) (j : Instance A) : Prop
  | kept (i : Instance A) (hi : i ∈ t.instances.entries) (hsame : SameInstance i j)
      (hstate : j.state = i.state ∨ i.state = .live ∧ Killed evs j)
  | created (hu : u = some j.uuid) (hfresh : t.instances.Fresh j.id)
      (hissued : .instanceIssued (some j.id) ∈ evs) (hstate : j.state = .live ∨ Killed evs j)

theorem comesFrom_same (hj : j ∈ t.instances.entries) : ComesFrom u t evs j :=
  .kept j hj (.refl j) (.inl rfl)

theorem comesFrom_update (ok : TablesOk t) (h : t.instances.get iid = some i)
    (hf : SameInstance i (f i))
    (hstate : (f i).state = i.state ∨ i.state = .live ∧ Killed evs (f i))
    (hj : j ∈ (t.instances.update iid f).entries) : ComesFrom u t evs j := by
  rcases ok.mem_update h hj with ⟨rfl, hi⟩ | ⟨hold, -⟩
  · exact .kept i hi hf hstate
  · exact comesFrom_same hold

theorem comesFrom_issue {props : TaProperties} {aspace : A}
    {entries : Option TaEntryPoints} (hu : u = some props.uuid) (hroom : t.instances.HasRoom)
    (hfresh : t.instances.Fresh t.instances.nextId)
    (hissued : .instanceIssued (some t.instances.nextId) ∈ evs)
    (hj : j ∈ (t.issue (newInstance props.uuid props aspace entries)).instances.entries) :
    ComesFrom u t evs j := by
  rcases (mem_alloc hroom _ j).mp hj with rfl | hold
  · exact .created hu hfresh hissued (.inl rfl)
  · exact comesFrom_same hold

section

variable (ok : TablesOk t) (h : Act ptas u t evs t')
include ok h

theorem Act.comesFrom (hj : j ∈ t'.instances.entries) : ComesFrom u t evs j := by
  have hid : ∀ {iid i}, t.instances.get iid = some i → i.id = iid := fun h => (get_some h).2
  cases h with
  | idle | ptaCalled | ptaOpened | ptaUnrecorded | ptaClosed | noSlot | createRefused
  | closedDead => exact comesFrom_same hj
  | created props aspace entries hu hroom hfresh =>
    exact comesFrom_issue hu hroom hfresh mem_cons_self hj
  | createPanicked props aspace entries hu hroom hfresh hsingle =>
    have hok := ok.issue aspace entries hroom hfresh hsingle
    rcases hok.mem_update (get_alloc hroom hfresh _) hj with ⟨rfl, -⟩ | ⟨hold, -⟩
    · exact .created hu hfresh mem_cons_self (.inr ⟨rfl, .create, by simp [Keyed.rekey]⟩)
    · exact comesFrom_issue hu hroom hfresh mem_cons_self hold
  | bound iid i login out hi hmulti hfresh hbinds =>
    cases hbinds with
    | unmapped | refused | unrecorded | recorded =>
      exact comesFrom_update ok hi.get ⟨rfl, rfl, rfl, rfl⟩ (.inl rfl) hj
  | invoked sid s iid i out hs hi hinv =>
    cases hinv with
    | unmapped | answered => exact comesFrom_update ok hi.get ⟨rfl, rfl, rfl, rfl⟩ (.inl rfl) hj
  | panicked iid i entry hi =>
    refine comesFrom_update ok hi.get ⟨rfl, rfl, rfl, rfl⟩ (.inr ⟨hi.live, rfl, entry, ?_⟩) hj
    simp [hid hi.get]
  | closed sid s iid i out hs hi hcloses =>
    cases hcloses with
    | kept => exact comesFrom_update ok hi.get ⟨rfl, rfl, rfl, rfl⟩ (.inl rfl) hj
    | destroyed =>
      exact comesFrom_same ((ok.instances.distinct.mem_take iid j).mp hj).1
  | closePanicked sid s iid i hs hi hpanics =>
    cases hpanics with
    | closeSession =>
      refine comesFrom_update ok hi.get ⟨rfl, rfl, rfl, rfl⟩
        (.inr ⟨hi.live, rfl, .closeSession, ?_⟩) hj
      simp [hid hi.get]
    | destroy =>
      have hupd : ((t.instances.update iid fun i =>
          { i with sessionCount := countDown i.sessionCount }).update iid fun i =>
          { i with state := .dead, aspace := none, busy := true }) =
          t.instances.update iid fun i =>
            { i with
              state := .dead, aspace := none, busy := true,
              sessionCount := countDown i.sessionCount } := update_update fun _ => rfl
      have hj' : j ∈ (t.instances.update iid fun i =>
          { i with
            state := .dead, aspace := none, busy := true,
            sessionCount := countDown i.sessionCount }).entries := hupd ▸ hj
      refine comesFrom_update ok hi.get ⟨rfl, rfl, rfl, rfl⟩ (.inr ⟨hi.live, rfl, .destroy, ?_⟩) hj'
      simp [hid hi.get]

/-- Only a creating act can bring a Live single instance of a TA that had none. -/
theorem Act.liveSingle_none {v : Uuid} (hu : u ≠ some v) (hnone : liveSingle t.instances v = none) :
    liveSingle t'.instances v = none := by
  rw [liveSingle_eq_none] at hnone ⊢
  intro j hj
  by_contra hsingle
  rw [Bool.not_eq_false] at hsingle
  have hprop := hsingle
  simp only [isLiveSingle, Bool.and_eq_true, beq_iff_eq] at hprop
  cases h.comesFrom ok hj with
  | kept i hi hsame hstate =>
    have hlive : i.state = .live := by
      rcases hstate with hstate | ⟨hlive, -⟩
      · exact hstate.symm.trans hprop.2
      · exact hlive
    have hi' : isLiveSingle v i = true := by
      simp only [isLiveSingle, hsame.uuid, hsame.props, hlive, Bool.and_eq_true, beq_iff_eq]
      exact ⟨hprop.1, trivial⟩
    rw [hnone i hi] at hi'
    exact absurd hi' (by decide)
  | created hcreated =>
    rw [hprop.1.1] at hcreated
    exact hu hcreated

theorem Act.allLive (hquiet : ∀ iid entry, .ta iid (.panicked entry) ∉ evs)
    (hlive : ∀ i ∈ t.instances.entries, i.state = .live) :
    ∀ j ∈ t'.instances.entries, j.state = .live := by
  intro j hj
  have hkilled : ¬ Killed evs j := fun ⟨_, entry, hev⟩ => hquiet _ entry hev
  cases h.comesFrom ok hj with
  | kept i hi hsame hstate =>
    rcases hstate with hstate | ⟨-, hk⟩
    · exact hstate.trans (hlive i hi)
    · exact absurd hk hkilled
  | created hu hfresh hissued hstate => exact hstate.resolve_right hkilled

end

/-! ### What an act leaves alone -/

/-- Every event that is about an instance is about `iid`. -/
def About (iid : InstanceId) (evs : List Event) : Prop :=
  ∀ ev ∈ evs, ∀ j, ev.subject = some j → j = iid

theorem about_nil (iid : InstanceId) : About iid [] := by
  intro ev hev
  exact absurd hev not_mem_nil

theorem About.append {evs' : List Event} (h : About iid evs) (h' : About iid evs') :
    About iid (evs ++ evs') := by
  intro ev hev
  rcases mem_append.mp hev with hev | hev
  · exact h ev hev
  · exact h' ev hev

theorem about_singleton {ev : Event} (h : ∀ j, ev.subject = some j → j = iid) : About iid [ev] := by
  intro ev' hev
  rw [mem_singleton.mp hev]
  exact h

theorem about_call (iid : InstanceId) (call : TaCall) : About iid [.ta iid call] :=
  about_singleton fun _ hj => (Option.some.inj hj).symm

theorem about_if {c : Prop} [Decidable c] (iid : InstanceId) (call : TaCall) :
    About iid (if c then [.ta iid call] else []) := by
  by_cases hc : c
  · rw [if_pos hc]
    exact about_call iid call
  · rw [if_neg hc]
    exact about_nil iid

theorem about_sessionIssued (iid : InstanceId) (r : Option SessionId) :
    About iid [.sessionIssued r] :=
  about_singleton fun _ hj => by cases hj

theorem about_issued (iid : InstanceId) : About iid [.instanceIssued (some iid)] :=
  about_singleton fun _ hj => (Option.some.inj hj).symm

theorem About.target (h : About iid evs) :
    ∀ ev ∈ evs, ∀ j, ev.subject = some j → some iid = some j := by
  intro ev hev j hj
  rw [h ev hev j hj]

theorem touches_same {target : Option InstanceId} (hevs : ∀ ev ∈ evs, ev.subject = none)
    (hinst : t'.instances.entries = t.instances.entries) : Touches t t' evs target := by
  refine ⟨fun ev hev j hj => ?_, fun j _ => ?_⟩
  · rw [hevs ev hev] at hj
    cases hj
  · rw [hinst]

theorem touches_update (hupd : t'.instances = t.instances.update iid f) (hf : ∀ i, (f i).id = i.id)
    (hevs : About iid evs) : Touches t t' evs (some iid) := by
  refine ⟨hevs.target, fun j hj => ?_⟩
  rw [hupd]
  exact mem_update_of_ne hf fun h => hj (congrArg some h.symm)

theorem Binds.about {uuid : Uuid} (h : Binds iid i uuid login t evs out t') : About iid evs := by
  cases h with
  | unmapped => exact about_nil iid
  | refused => exact about_call iid _
  | unrecorded | recorded => exact (about_if iid _).append (about_sessionIssued iid _)

theorem Binds.touches {uuid : Uuid}
    (h : Binds iid i uuid login t evs out t') : Touches t t' evs (some iid) := by
  have hevs := h.about
  cases h with
  | unmapped | refused | unrecorded | recorded => exact touches_update rfl (fun _ => rfl) hevs

theorem Invokes.touches (h : Invokes iid i sid ctx t evs out t') : Touches t t' evs (some iid) := by
  cases h with
  | unmapped => exact touches_update rfl (fun _ => rfl) (about_nil iid)
  | answered => exact touches_update rfl (fun _ => rfl) (about_if iid _)

theorem Closes.touches (h : Closes iid i ctx t evs out t') : Touches t t' evs (some iid) := by
  cases h with
  | kept => exact touches_update rfl (fun _ => rfl) (about_if iid _)
  | destroyed =>
    refine ⟨((about_if iid _).append (about_if iid _)).target, fun j hj => ?_⟩
    exact mem_take_of_ne fun h => hj (congrArg some h.symm)

theorem touches_kill (t : Tables A) (iid : InstanceId) (entry : EntryPoint) :
    Touches t (t.kill iid) [.ta iid (.panicked entry)] (some iid) :=
  touches_update rfl (fun _ => rfl) (about_call iid _)

theorem mem_issue_of_ne (hroom : t.instances.HasRoom) (inst : Instance A)
    (hj : j.id ≠ t.instances.nextId) :
    j ∈ (t.issue inst).instances.entries ↔ j ∈ t.instances.entries := by
  have hne : j ≠ Keyed.rekey t.instances.nextId inst := by
    rintro rfl
    exact hj rfl
  exact (mem_alloc hroom inst j).trans ⟨fun h => h.resolve_left hne, .inr⟩

theorem touches_issue (hroom : t.instances.HasRoom) (inst : Instance A)
    (entries : Option TaEntryPoints) :
    Touches t (t.issue inst)
      (.instanceIssued (some t.instances.nextId) :: createdBy t.instances.nextId entries)
      (some t.instances.nextId) :=
  ⟨((about_issued _).append (about_if _ _)).target,
    fun _ hj => mem_issue_of_ne hroom inst fun h => hj (congrArg some h.symm)⟩

theorem Touches.trans {t1 t2 t3 : Tables A} {evs1 evs2 : List Event}
    {target : Option InstanceId} (h1 : Touches t1 t2 evs1 target)
    (h2 : Touches t2 t3 evs2 target) : Touches t1 t3 (evs1 ++ evs2) target := by
  refine ⟨fun ev hev => ?_, fun j hj => (h2.others j hj).trans (h1.others j hj)⟩
  rcases mem_append.mp hev with hev | hev
  · exact h1.events ev hev
  · exact h2.events ev hev

/-- An act is on one instance at most: one that is Live, or one it creates. -/
theorem Act.touches (h : Act ptas u t evs t') :
    ∃ target, Touches t t' evs target ∧
      ∀ j, target = some j → t.instances.Fresh j ∨ ∃ i, LiveAt t j i := by
  have hlive : ∀ {iid i}, LiveAt t iid i → ∀ j, some iid = some j →
      t.instances.Fresh j ∨ ∃ i, LiveAt t j i := by
    rintro iid i hi j heq
    cases heq
    exact .inr ⟨i, hi⟩
  have hnew : t.instances.Fresh t.instances.nextId → ∀ j, some t.instances.nextId = some j →
      t.instances.Fresh j ∨ ∃ i, LiveAt t j i := by
    rintro hf j heq
    cases heq
    exact .inl hf
  cases h with
  | idle | closedDead => exact ⟨none, touches_same (by simp) rfl, by simp⟩
  | ptaCalled | ptaOpened | ptaUnrecorded | ptaClosed | noSlot =>
    exact ⟨none, touches_same (by simp [Event.subject]) rfl, by simp⟩
  | createRefused hroom hfresh =>
    exact ⟨some _, ⟨((about_issued _).append (about_call _ _)).target, fun _ _ => Iff.rfl⟩,
      hnew hfresh⟩
  | created props aspace entries hu hroom hfresh =>
    exact ⟨some _, touches_issue hroom _ entries, hnew hfresh⟩
  | createPanicked props aspace entries hu hroom hfresh =>
    exact ⟨some _, (touches_issue hroom _ none).trans (touches_kill _ _ .create), hnew hfresh⟩
  | bound iid i login out hi hmulti hfresh hbinds => exact ⟨_, hbinds.touches, hlive hi⟩
  | invoked sid s iid i out hs hi hinv => exact ⟨some iid, hinv.touches, hlive hi⟩
  | panicked iid i entry hi => exact ⟨some iid, touches_kill t iid entry, hlive hi⟩
  | closed sid s iid i out hs hi hcloses =>
    have htouch := hcloses.touches
    exact ⟨some iid, ⟨htouch.events, htouch.others⟩, hlive hi⟩
  | closePanicked sid s iid i hs hi hpanics =>
    refine ⟨some iid, ?_, hlive hi⟩
    have htake : Touches t (t.withSessions (t.sessions.take sid).2) [] (some iid) :=
      touches_same (by simp) rfl
    cases hpanics with
    | closeSession => exact htake.trans (touches_kill _ iid .closeSession)
    | destroy =>
      have hrelease : Touches t ((t.withSessions (t.sessions.take sid).2).release iid)
          (closedBy iid i.entries s.taSessCtx) (some iid) :=
        touches_update rfl (fun _ => rfl) (about_if iid _)
      exact hrelease.trans (touches_kill _ iid .destroy)

theorem Acts.touches (h : Acts ptas u t evs t') :
    ∃ target, Touches t t' evs target ∧
      ∀ j, target = some j → t.instances.Fresh j ∨ ∃ i, LiveAt t j i := by
  cases h with
  | one h => exact h.touches
  | two h1 h2 hroom hfresh hissue hcreated hsecond htouch =>
    subst hissue hcreated
    refine ⟨some t.instances.nextId, (touches_issue hroom _ _).trans htouch, ?_⟩
    intro j heq
    cases heq
    exact .inl hfresh

/-- What a session keeps while it is in the table. -/
structure SameSession (s s' : Session) : Prop where
  id : s.id = s'.id
  uuid : s.uuid = s'.uuid
  kind : s.kind = s'.kind
  inst : s.inst = s'.inst
  ctx : s.taSessCtx = s'.taSessCtx
  client : s.client = s'.client

theorem SameSession.refl (s : Session) : SameSession s s := ⟨rfl, rfl, rfl, rfl, rfl, rfl⟩

/-- A session after an act was there before, or it was just opened: to a registered
pseudo-TA, or to a Live instance. -/
def SessionFrom (ptas : PtaRegistry) (t : Tables A) (s' : Session) : Prop :=
  (∃ s ∈ t.sessions.entries, SameSession s s') ∨
    (t.sessions.Fresh s'.id ∧
      ((s'.kind = .pta ∧ (getMut ptas s'.uuid).isSome) ∨
        (s'.kind = .userTa ∧ ∃ iid i, LiveAt t iid i ∧ s'.inst = some iid)))

theorem sessionFrom_poison (hsub : ∀ s ∈ sessions.entries, s ∈ t.sessions.entries) {s' : Session}
    (hs' : s' ∈ (poisonInstance sessions iid).entries) : SessionFrom ptas t s' := by
  rcases (mem_poisonInstance _ _ _).mp hs' with ⟨s, hs, -, rfl⟩ | ⟨hs, -⟩
  · exact .inl ⟨s, hsub s hs, rfl, rfl, rfl, rfl, rfl, rfl⟩
  · exact .inl ⟨s', hsub s' hs, .refl s'⟩

theorem Act.sessionFrom (ok : TablesOk t)
    (h : Act ptas u t evs t') {s' : Session} (hs' : s' ∈ t'.sessions.entries) :
    SessionFrom ptas t s' := by
  have hsame : ∀ s ∈ t.sessions.entries, SessionFrom ptas t s := fun s hs => .inl ⟨s, hs, .refl s⟩
  cases h with
  | idle | ptaCalled | noSlot | createRefused | created => exact hsame s' hs'
  | ptaOpened uuid login ctx hreg hroom hfresh =>
    rcases (mem_alloc hroom _ s').mp hs' with rfl | hold
    · exact .inr ⟨hfresh, .inl ⟨rfl, hreg⟩⟩
    · exact hsame s' hold
  | ptaUnrecorded uuid login ctx hroom =>
    rw [alloc_of_full hroom] at hs'
    exact hsame s' hs'
  | ptaClosed | closedDead => exact hsame s' (ok.mem_take hs')
  | createPanicked | panicked => exact sessionFrom_poison (fun _ hs => hs) hs'
  | bound iid i login out hi hmulti hfresh hbinds =>
    cases hbinds with
    | unmapped | refused => exact hsame s' hs'
    | unrecorded a ctx hroom =>
      rw [alloc_of_full hroom] at hs'
      exact hsame s' hs'
    | recorded a ctx params hroom =>
      rcases (mem_alloc hroom _ s').mp hs' with rfl | hold
      · exact .inr ⟨hfresh, .inr ⟨rfl, iid, i, hi, rfl⟩⟩
      · exact hsame s' hold
  | invoked sid s iid i out hs hi hinv => cases hinv <;> exact hsame s' hs'
  | closed sid s iid i out hs hi hcloses => cases hcloses <;> exact hsame s' (ok.mem_take hs')
  | closePanicked sid s iid i hs hi hpanics =>
    cases hpanics <;> exact sessionFrom_poison (fun _ hm => ok.mem_take hm) hs'

end Rustee.Os
