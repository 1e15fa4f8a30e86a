import Rustee.OsSpacesKept

/-!
# What a failed OpenSession leaves behind

An open that makes a new instance stores it first and binds the session to it last. When `create`
refuses, the instance is dropped again; when binding fails behind that, it stays in its slot, Live
and without a session. An open on an instance already there can cost it its address space.
-/

namespace Rustee.Os

open SlotTable Prog Instance

variable {σ A S : Type} {env : Env σ A S} {m m₀ m' : Machine σ A} {iid : InstanceId}
  {params : Params}

/-! ### Entries -/

def Instance.entry (i : Instance A) : Instance Unit :=
  { i with aspace := i.aspace.map fun _ => () }

/-- The same entries in the same slots; the counters for the next ids are not compared. -/
def SameEntries (t t' : Tables A) : Prop :=
  t'.sessions.slots = t.sessions.slots ∧
    t'.instances.slots.map (Option.map entry) = t.instances.slots.map (Option.map entry)

def KernelOut.Failed : KernelOut → Prop
  | .done result _ _ => result.code ≠ TEE_SUCCESS
  | .rpc _ => False

theorem SameEntries.refl (t : Tables A) : SameEntries t t := ⟨rfl, rfl⟩

variable {t t' : Tables A}

theorem SameEntries.get (h : SameEntries t t') (iid : InstanceId) :
    (t'.instances.get iid).map entry = (t.instances.get iid).map entry := by
  have hkey : ∀ i : Instance A, Keyed.key i.entry = Keyed.key i := fun _ => rfl
  rw [map_get hkey, map_get hkey, h.2]

theorem sameEntries_of_skipId (h : t' = t.skipId) : SameEntries t t' := by
  rw [h]
  exact ⟨rfl, rfl⟩

theorem slots_alloc_of_full {t : SessionTable} (h : ¬ t.HasRoom) (s : Session) :
    (t.alloc s).2.slots = t.slots := by
  rw [alloc_of_full h]

/-- An instance whose address space is changed is the same entry as long as it still has
one, or still has none. -/
theorem sameEntries_touch_iff {i : Instance A} (h : t.instances.get iid = some i)
    (hsessions : t'.sessions.slots = t.sessions.slots) {b : Option A}
    (hinstances : t'.instances = (t.touch iid b).instances) :
    SameEntries t t' ↔ b.isSome = i.aspace.isSome := by
  have htouched : t'.instances.get iid = some { i with aspace := b } := by
    rw [hinstances]
    exact get_update_aspace h b
  constructor
  · intro hsame
    have hget := hsame.get iid
    rw [htouched, h] at hget
    have haspace : b.map (fun _ => ()) = i.aspace.map fun _ => () :=
      congrArg aspace (Option.some.inj hget)
    rw [← Option.isSome_map (f := fun _ => ()), haspace, Option.isSome_map]
  · intro hb
    refine ⟨hsessions, ?_⟩
    rw [hinstances]
    apply map_slots_update h
    have haspace : b.map (fun _ => ()) = i.aspace.map fun _ => () := by
      cases b <;> cases ha : i.aspace <;> rw [ha] at hb <;> first | rfl | cases hb
    show { i.entry with aspace := b.map fun _ => () } = i.entry
    rw [haspace]
    rfl

/-! ### Binding -/

/-- Asked in the world `w`, with its parameters mapped into `a`, the TA accepts a session;
a TA without entry points is not asked. -/
def TaAccepts (env : Env σ A S) (entries : Option TaEntryPoints) (a : A) (w : σ)
    (params : Params) : Prop :=
  ∀ ep, entries = some ep → ∃ a' raw vas w₁ raw' ctx w₂,
    mapAll env params w a = (.mapped a' raw vas, w₁) ∧
    env.ta.openSession ep.openSession (paramTypesOf params) raw 0 w₁ =
      (.returns (TEE_SUCCESS, raw', ctx), w₂)

section Bind

variable {i : Instance A} {a : A} {uuid : Uuid} {login : Login} {out : KernelOut}

theorem recordSession_failed_iff {ctx : UInt64}
    (hrun : recordSession iid uuid login ctx params m = (.value out, m')) :
    out.Failed ↔ ¬ m.sessions.HasRoom := by
  by_cases hroom : m.sessions.HasRoom
  · rw [recordSession_of_room iid uuid login ctx params hroom] at hrun
    cases hrun
    exact ⟨fun h => absurd rfl h, fun h => absurd hroom h⟩
  · rw [recordSession_of_full iid uuid login ctx params hroom] at hrun
    cases hrun
    have hfailed : (KernelOut.doneErr TEE_ERROR_OUT_OF_MEMORY).Failed := by
      have hcode : TEE_ERROR_OUT_OF_MEMORY ≠ TEE_SUCCESS := by decide
      exact hcode
    exact ⟨fun _ => hroom, fun _ => hfailed⟩

/-- Binding a session fails exactly when the TA does not accept it or it has no slot. -/
theorem bindSession_failed_iff (h : m.instances.get iid = some i) (ha : i.aspace = some a)
    (hrun : bindSession env iid uuid login params m = (.value out, m')) :
    out.Failed ↔ ¬ (m.sessions.HasRoom ∧ TaAccepts env i.entries a m.world params) := by
  cases he : i.entries with
  | none =>
    have hstart : bindSession env iid uuid login params m =
        recordSession iid uuid login 0 params m := by
      simp only [bindSession, getEntries, Prog.bind_apply, Prog.gets_apply, h, Option.bind_some, he]
    rw [hstart] at hrun
    have haccepts : TaAccepts env none a m.world params := fun ep hep => by cases hep
    rw [recordSession_failed_iff hrun, and_iff_left haccepts]
  | some ep =>
    simp only [bindSession, getEntries, bind_of_value (gets_apply _ m), h, Option.bind_some,
      he] at hrun
    rw [bind_of_value (mapParams_of_some h ha params)] at hrun
    rcases hmap : mapAll env params m.world a with ⟨exit, w1⟩
    rw [hmap] at hrun
    have herror : ∀ code, exit.result = .error code → out = .doneErr code →
        (out.Failed ↔ ¬ (m.sessions.HasRoom ∧ TaAccepts env (some ep) a m.world params)) := by
      rintro code hresult rfl
      have hcode : code ≠ TEE_SUCCESS := by
        have hmapped : (mapAll env params m.world a).1.result = .error code := by
          rw [hmap]
          exact hresult
        exact code_mapAll hmapped
      refine ⟨?_, fun _ => hcode⟩
      rintro - ⟨-, haccepts⟩
      obtain ⟨a', raw, vas, w2, raw', ctx, w3, hmapped, -⟩ := haccepts ep rfl
      cases hmap.symm.trans hmapped
      cases hresult
    cases exit with
    | lost code | restored a' code =>
      cases hrun
      exact herror code rfl rfl
    | mapped a' raw vas =>
      obtain ⟨⟨code, raw', ctx⟩, m2, hcall, hrun⟩ := bind_eq_value hrun
      obtain ⟨w2, hanswer, rfl⟩ := entering_call_value hcall
      obtain ⟨_, m3, hunmap, hrun⟩ := bind_eq_value hrun
      rw [unmapParams_apply] at hunmap
      cases hunmap
      -- what the TA answers decides
      have haccepts : TaAccepts env (some ep) a m.world params ↔ code = TEE_SUCCESS := by
        constructor
        · intro h
          obtain ⟨a1, raw1, vas1, w1', raw1', ctx1, w2', hmapped, hopened⟩ := h ep rfl
          cases hmap.symm.trans hmapped
          cases hanswer.symm.trans hopened
          rfl
        · rintro rfl ep' hep
          cases hep
          exact ⟨a', raw, vas, w1, raw', ctx, w2, hmap, hanswer⟩
      by_cases hcode : code = TEE_SUCCESS
      · rw [if_neg (not_not.mpr hcode)] at hrun
        rw [recordSession_failed_iff hrun, and_iff_left (haccepts.mpr hcode)]
        rfl
      · rw [if_pos hcode] at hrun
        cases hrun
        refine ⟨fun _ h => hcode (haccepts.mp h.2), fun _ => hcode⟩

theorem bindAndUnlock_failed_iff (h : m.instances.get iid = some i) (ha : i.aspace = some a)
    (hrun : bindAndUnlock env iid uuid login params m = (.value out, m')) :
    out.Failed ↔ ¬ (m.sessions.HasRoom ∧ TaAccepts env i.entries a m.world params) := by
  obtain ⟨out', m1, hbind, hrun⟩ := bind_eq_value hrun
  obtain ⟨_, m2, -, hrun⟩ := bind_eq_value hrun
  cases hrun
  exact bindSession_failed_iff h ha hbind

/-- A session that could not be bound leaves the tables as they are, up to the address
space of the instance. -/
theorem Binds.touched {t t' : Tables A} {evs : List Event}
    (h : Binds iid i uuid login t evs out t') (hfailed : out.Failed) :
    ∃ b, t'.sessions.slots = t.sessions.slots ∧ t'.instances = (t.touch iid b).instances := by
  cases h with
  | unmapped b | refused b => exact ⟨b, rfl, rfl⟩
  | unrecorded b ctx hroom => exact ⟨b, slots_alloc_of_full hroom _, rfl⟩
  | recorded => exact absurd rfl hfailed

/-- Binding to an instance that is there, from the moment it is locked: after a failure the
entries are the same as long as the address space is not lost. -/
theorem bindAndUnlock_left (hi : m.instances.get iid = some i) (hb : i.busy = false)
    (hcur : m.currentInstance = none)
    (hrun : bindAndUnlock env iid uuid login params (m.after m.world (m.tables.lock iid) []) =
      (.value out, m')) (hfailed : out.Failed) {b : Option A}
    (hview : m'.view iid = some { i.view with aspace := b }) :
    SameEntries m.tables m'.tables ↔ b.isSome = i.aspace.isSome := by
  have hout := bindAndUnlock_outcome env uuid login params hi hb hcur
  rw [hrun] at hout
  cases hout with
  | value w evs out t' hbinds =>
    obtain ⟨b', hsessions, hinstances⟩ := hbinds.touched hfailed
    have hthere : t'.instances.get iid = some { i with aspace := b' } := by
      rw [hinstances]
      exact get_update_aspace hi b'
    have hbb : b' = b := by
      change (t'.instances.get iid).map view = _ at hview
      rw [hthere] at hview
      exact congrArg View.aspace (Option.some.inj hview)
    rw [← hbb]
    exact sameEntries_touch_iff hi hsessions hinstances

end Bind

/-- The loop of `map_params` decides whether there is still an address space. -/
theorem SpaceAfter.isSome_iff {w : σ} {o b : Option A} (h : SpaceAfter env params w o b) :
    b.isSome = o.isSome ↔ ∀ a, o = some a → (mapAll env params w a).1.aspace.isSome := by
  cases h with
  | absent => exact ⟨fun _ a ha => (by cases ha), fun _ => rfl⟩
  | failed a =>
    constructor
    · intro hsome a' ha'
      cases ha'
      exact hsome
    · intro hall
      exact hall a rfl
  | cycled a a' raw raw' vas w' hmapped =>
    have hafter : (unmapAll env (paramsFromRaw params raw') vas w' (some a')).2.isSome = true :=
      isSome_unmapParamsLoop env _ vas _ w' (some a')
    constructor
    · intro _ a0 ha0
      cases ha0
      rw [hmapped]
      rfl
    · intro _
      exact hafter

/-! ### New instances -/

section Create

variable {props : TaProperties} {login : Login} {entries : Option TaEntryPoints} {a : A} {w : σ}
  {out : KernelOut}

/-- An instance that was stored and created stays, whether or not its first session could
be bound; one that refused to be created is gone. -/
theorem createAndBind_left (hroom : m.instances.HasRoom)
    (hfresh : m.instances.Fresh m.instances.nextId)
    (hrun : createAndBind env m.instances.nextId props.uuid login params entries
      (m.stored w (newInstance props.uuid props a entries) []) = (.value out, m')) :
    (∃ w', CreatedIn env entries w w' ∧
      (out.Failed ↔ ¬ (m.sessions.HasRoom ∧ TaAccepts env entries a w' params)) ∧
      (m'.instances.get m.instances.nextId).isSome) ∨
    (∀ w', ¬ CreatedIn env entries w w') ∧ SameEntries m.tables m'.tables := by
  rcases createAndBind_cases hroom hfresh hrun with ⟨m1, hcreated, htables, hrun⟩ | ⟨hnot, hgone⟩
  · have hget := get_lock (t := m.tables.issue (newInstance props.uuid props a entries))
      (get_alloc hroom hfresh _)
    rw [← htables] at hget
    have hfailed := bindAndUnlock_failed_iff hget rfl hrun
    rw [show m1.sessions = m.sessions from congrArg Tables.sessions htables] at hfailed
    obtain ⟨b, hview, -⟩ := bindAndUnlock_space (view_locked_issue hroom hfresh htables) hrun
    obtain ⟨i, hi, -⟩ := view_eq_some hview
    exact .inl ⟨m1.world, hcreated, hfailed, by rw [hi]; rfl⟩
  · exact .inr ⟨hnot, sameEntries_of_skipId hgone⟩

end Create

/-! ### Opening -/

def KernelCmd.opens : KernelCmd → Bool
  | .openSession _ _ _ _ _ => true
  | .rpcComplete _ => true
  | _ => false

/-- The command gets as far as storing a new instance, made of an early TA or of the image
in the answer to LOAD_TA. -/
inductive MakesInstance (env : Env σ A S) (m : Machine σ A) :
    KernelCmd → Option TaEntryPoints → A → Params → Prop
  | created {login params cancelId timeoutMs ta} (hadm : Admitted m cancelId)
      (hpta : PtaRegistry.getMut m.ptas ta.props.uuid = none)
      (hsingle : InstanceTable.liveSingle m.instances ta.props.uuid = none)
      (hearly : EarlyTas.get m.early ta.props.uuid = some ta) (hroom : m.instances.HasRoom) :
      MakesInstance env m (.openSession ta.props.uuid login params cancelId timeoutMs) ta.entries
        (env.hal.newAddressSpace m.world).1 params
  | loaded {bytes y image entries a} (hy : m.yielding = some y) (hadm : Admitted m y.cancelId)
      (hload : loadImage env.crypto env.target.build bytes = .ok image)
      (hu : image.props.uuid = y.uuid)
      (hmap : mapElf env (env.hal.newAddressSpace m.world).1 bytes = .ok (entries, a))
      (hroom : m.instances.HasRoom) :
      MakesInstance env m (.rpcComplete (.loadTa bytes)) entries a y.params

/-- A new instance that agrees to be created also accepts its first session, for which
there is a slot; and mapping into an instance that is already there does not lose its
address space. -/
structure OpensCleanly (env : Env σ A S) (m : Machine σ A) (cmd : KernelCmd) : Prop where
  new : ∀ entries a params, MakesInstance env m cmd entries a params →
    ∀ w, CreatedIn env entries (env.hal.newAddressSpace m.world).2 w →
      m.sessions.HasRoom ∧ TaAccepts env entries a w params
  reused : ∀ iid i w params, Maps env m cmd iid i w params → m.instances.get iid = some i →
    ∀ a, i.aspace = some a → (mapAll env params w a).1.aspace.isSome

section Commands

variable {cmd : KernelCmd} {out : KernelOut}

/-- A new instance: it must not be there after a failure, and it is, unless it refused to
be created. -/
theorem MakesInstance.left_iff {entries : Option TaEntryPoints} {a : A} (hf : FreshIds m)
    (h : MakesInstance env m cmd entries a params) (hrun : handle env cmd m = (.value out, m')) :
    (out.Failed → SameEntries m.tables m'.tables) ↔
      ∀ w, CreatedIn env entries (env.hal.newAddressSpace m.world).2 w →
        m.sessions.HasRoom ∧ TaAccepts env entries a w params := by
  obtain ⟨m1, props, login, htables, hroom, hstart⟩ : ∃ (m1 : Machine σ A)
      (props : TaProperties) (login : Login), m1.tables = m.tables ∧ m1.instances.HasRoom ∧
      handle env cmd m = createAndBind env m1.instances.nextId props.uuid login params entries
        (m1.stored (env.hal.newAddressSpace m.world).2
          (newInstance props.uuid props a entries) []) := by
    cases h with
    | created hadm hpta hsingle hearly hroom =>
      exact ⟨m, _, _, rfl, hroom, handle_created env hadm hpta hsingle hearly hroom _ _ _⟩
    | @loaded bytes y image entries a hy hadm hload hu hmap hroom =>
      have hstart := handle_loaded env hy hadm hload hu hmap hroom
      rw [← hu] at hstart
      exact ⟨{ m with yielding := none }, image.props, y.login, rfl, hroom, hstart⟩
  have hsessions : m1.sessions = m.sessions := congrArg Tables.sessions htables
  have hinstances : m1.instances = m.instances := congrArg Tables.instances htables
  have hfresh : m1.instances.Fresh m1.instances.nextId := by
    rw [hinstances]
    exact hf.2
  rw [hstart] at hrun
  rcases createAndBind_left hroom hfresh hrun with ⟨w, hcreated, hfailed, hthere⟩ | ⟨hnot, hsame⟩
  · rw [hinstances] at hthere
    rw [hsessions] at hfailed
    have hleft : ¬ SameEntries m.tables m'.tables := by
      intro hsame
      have hnone : m.tables.instances.get m.instances.nextId = none := get_eq_none.mpr hf.2
      have hget := hsame.get m.instances.nextId
      rw [hnone, Option.map_none, Option.map_eq_none_iff] at hget
      change m'.instances.get m.instances.nextId = none at hget
      rw [hget] at hthere
      cases hthere
    constructor
    · intro hkeeps w' hcreated'
      have hw : w' = w := by
        cases entries with
        | none => exact hcreated'.trans hcreated.symm
        | some =>
          cases hcreated.symm.trans hcreated'
          rfl
      subst hw
      by_contra hbad
      exact hleft (hkeeps (hfailed.mpr hbad))
    · intro hclean hbad
      exact absurd (hclean w hcreated) (hfailed.mp hbad)
  · rw [htables] at hsame
    exact ⟨fun _ w hcreated => absurd hcreated (hnot w), fun _ _ => hsame⟩

theorem Maps.left_iff {i : Instance A} {w : σ} (hok : KernelOk m) (hf : FreshIds m)
    (hopens : cmd.opens = true) (h : Maps env m cmd iid i w params)
    (hi : m.instances.get iid = some i) (hrun : handle env cmd m = (.value out, m')) :
    (out.Failed → SameEntries m.tables m'.tables) ↔
      ∀ a, i.aspace = some a → (mapAll env params w a).1.aspace.isSome := by
  have hfresh : m.instances.get m.instances.nextId = none := get_eq_none.mpr hf.2
  obtain ⟨b, hview, hspace⟩ := h.lands hf hrun
  rw [← hspace.isSome_iff]
  cases h with
  | invoked => cases hopens
  | created | loaded => cases hfresh.symm.trans hi
  | @reused uuid login params cancelId timeoutMs iid i hadm hpta hsingle hget hcount hb he =>
    rw [handle_reused env hadm hpta hsingle hi hcount hb] at hrun
    by_cases hfailed : out.Failed
    · rw [← bindAndUnlock_left hi hb hok.current hrun hfailed hview]
      exact ⟨fun hkeeps => hkeeps hfailed, fun hsame _ => hsame⟩
    · refine ⟨fun _ => hspace.isSome_iff.mpr ?_, fun _ h => absurd h hfailed⟩
      intro a ha
      have haccepted := not_not.mp (mt (bindAndUnlock_failed_iff
        (i := { i with busy := true }) (get_lock (t := m.tables) hi) ha hrun).mpr hfailed)
      obtain ⟨ep, hep⟩ := Option.isSome_iff_exists.mp he
      obtain ⟨a', raw, vas, w1, raw', ctx, w2, hmapped, -⟩ := haccepted.2 ep hep
      have hmapped' : mapAll env params m.world a = (.mapped a' raw vas, w1) := hmapped
      rw [hmapped']
      rfl

/-- Storing an instance fails for lack of a slot, or the image is not for this TA. -/
theorem instantiateAndBind_unstored {props : TaProperties} {uuid : Uuid} {login : Login}
    {entries : Option TaEntryPoints} {aspace : Option A}
    (h : ¬ (props.uuid = uuid ∧ m.instances.HasRoom)) (hcur : m.currentInstance = none)
    (hfresh : m.instances.Fresh m.instances.nextId)
    (hrun : instantiateAndBind env props uuid login params entries aspace m = (.value out, m')) :
    SameEntries m.tables m'.tables := by
  have hout := instantiateAndBind_outcome env props uuid login params entries aspace hfresh hcur
  rw [hrun] at hout
  cases hout with
  | value w evs out t' hinst =>
    cases hinst with
    | mismatch => exact SameEntries.refl _
    | noSlot => exact sameEntries_of_skipId rfl
    | refused hu hroom | bound hu hroom => exact absurd ⟨hu, hroom⟩ h

/-- What a command that opens a session can get to: storing a new instance, mapping into
one that is there, or nothing that a failure could leave behind. -/
def OpenReaches (env : Env σ A S) (m : Machine σ A) (cmd : KernelCmd) (out : KernelOut)
    (m' : Machine σ A) : Prop :=
  (∃ entries a params, MakesInstance env m cmd entries a params) ∨
  (∃ iid i w params, Maps env m cmd iid i w params ∧ m.instances.get iid = some i) ∨
  (out.Failed → SameEntries m.tables m'.tables)

theorem reaches_of_same (h : SameEntries m.tables m'.tables) : OpenReaches env m cmd out m' :=
  .inr (.inr fun _ => h)

theorem handle_reaches (hok : KernelOk m) (hf : FreshIds m) (hopens : cmd.opens = true)
    (hrun : handle env cmd m = (.value out, m')) : OpenReaches env m cmd out m' := by
  have hroute := handle_routes env cmd m
  generalize handle env cmd m = r at hroute hrun
  cases hroute with
  | refused | cancelled | yielded | ptaRefused | ptaInvoked | ptaClosed | answered =>
    cases hrun
    first
    | exact reaches_of_same (SameEntries.refl _)
    | cases hopens
  | ptaPanicked | ptaHalted | ptaClosePanicked | aborted => cases hrun
  | invoked | closed | taken => cases hopens
  | ptaOpened =>
    cases hrun
    exact .inr (.inr fun hfailed => absurd rfl hfailed)
  | ptaUnrecorded hreg w ctx hroom =>
    cases hrun
    exact reaches_of_same ⟨slots_alloc_of_full hroom _, rfl⟩
  | @reused uuid login params cancelId timeoutMs iid i hadm hpta hsingle hi hcount hb =>
    cases he : i.entries with
    | some =>
      have hmaps : Maps env m (.openSession uuid login params cancelId timeoutMs) iid i
          m.world params := .reused hadm hpta hsingle hi hcount hb (by rw [he]; rfl)
      exact .inr (.inl ⟨iid, i, m.world, params, hmaps, hi⟩)
    | none =>
      -- nothing is mapped, so the address space stays
      obtain ⟨b, hview, hnone, -⟩ := bindAndUnlock_space (view_locked hi hb) hrun
      have hkept : b = i.aspace := hnone he
      refine .inr (.inr fun hfailed => ?_)
      rw [bindAndUnlock_left hi hb hok.current hrun hfailed hview, hkept]
  | @created uuid login params cancelId timeoutMs ta hadm hpta hsingle hearly =>
    by_cases hnew : ta.props.uuid = uuid ∧ m.instances.HasRoom
    · obtain ⟨rfl, hroom⟩ := hnew
      exact .inl ⟨_, _, _, .created hadm hpta hsingle hearly hroom⟩
    · exact reaches_of_same (instantiateAndBind_unstored hnew hok.current hf.2 hrun)
  | loaded hy hadm hload hu hmap =>
    by_cases hroom : m.instances.HasRoom
    · exact .inl ⟨_, _, _, .loaded hy hadm hload hu hmap hroom⟩
    · exact reaches_of_same (instantiateAndBind_unstored (m := Machine.after
        { m with yielding := none } (env.hal.newAddressSpace m.world).2 m.tables [])
        (fun h => hroom h.2) hok.current hf.2 hrun)

end Commands

/-- In every run from a booted kernel, the next command that opens a session, or finishes
opening one, leaves the entries of both tables as they were if it fails, if and only if
it opens cleanly. -/
theorem failed_open_leaves_nothing_iff {steps : List (Taken σ A)} (hb : Booted env m₀)
    (hrun : Run env (fun m _ => FreshIds m) m₀ steps m) (hf : FreshIds m) {cmd : KernelCmd}
    (hopens : cmd.opens = true) {out : KernelOut} (hret : handle env cmd m = (.value out, m')) :
    (out.Failed → SameEntries m.tables m'.tables) ↔ OpensCleanly env m cmd := by
  have hok : KernelOk m := hrun.kernelOk (fun _ _ h => h) hb.kernelOk
  constructor
  · intro hkeeps
    constructor
    · intro entries a params hmakes
      exact (hmakes.left_iff hf hret).mp hkeeps
    · intro iid i w params hmaps hi
      exact (hmaps.left_iff hok hf hopens hi hret).mp hkeeps
  · intro hclean
    rcases handle_reaches hok hf hopens hret with ⟨entries, a, params, hmakes⟩ |
      ⟨iid, i, w, params, hmaps, hi⟩ | hsame
    · exact (hmakes.left_iff hf hret).mpr (hclean.new entries a params hmakes)
    · exact (hmaps.left_iff hok hf hopens hi hret).mpr (hclean.reused iid i w params hmaps hi)
    · exact hsame

/-- The first session of the TA, opened with a reference to shared memory the HAL does not
know. -/
def strayOpen : KernelCmd := .openSession sampleTa.uuid .public strayParams 0 0

def sampleStrayOpened : Machine Unit Nat := (dispatch sampleEnv strayOpen sampleStart).2

theorem failed_open_leaves_nothing_iff_sample :
    handle sampleEnv strayOpen sampleStart =
        (.value (.doneErr TEE_ERROR_BAD_PARAMETERS), sampleStrayOpened) ∧
      (((KernelOut.doneErr TEE_ERROR_BAD_PARAMETERS).Failed →
          SameEntries sampleStart.tables sampleStrayOpened.tables) ↔
        OpensCleanly sampleEnv sampleStart strayOpen) :=
  have hret : handle sampleEnv strayOpen sampleStart =
      (.value (.doneErr TEE_ERROR_BAD_PARAMETERS), sampleStrayOpened) := by decide +kernel
  ⟨hret, failed_open_leaves_nothing_iff sampleStart_booted .start (by decide +kernel) rfl hret⟩

/-- The open fails, and a Live instance without a session and without an address space is
left in the first slot, where there was none. -/
theorem stray_open_leaves_instance :
    handle sampleEnv strayOpen sampleStart =
        (.value (.doneErr TEE_ERROR_BAD_PARAMETERS), sampleStrayOpened) ∧
      (KernelOut.doneErr TEE_ERROR_BAD_PARAMETERS).Failed ∧
      sampleStart.instances.get 1 = none ∧ sampleStrayOpened.sessions.entries = [] ∧
      (sampleStrayOpened.instances.get 1).map
        (fun i => (i.state, i.sessionCount, i.aspace)) = some (.live, 0, none) ∧
      ¬ SameEntries sampleStart.tables sampleStrayOpened.tables := by
  have hcode : TEE_ERROR_BAD_PARAMETERS ≠ TEE_SUCCESS := by decide
  have hnone : sampleStart.instances.get 1 = none := by decide +kernel
  have hleft : (sampleStrayOpened.instances.get 1).map
      (fun i => (i.state, i.sessionCount, i.aspace)) = some (.live, 0, none) := by
    decide +kernel
  refine ⟨by decide +kernel, hcode, hnone, by decide +kernel, hleft, ?_⟩
  intro hsame
  have hget : (sampleStrayOpened.instances.get 1).map entry =
      (sampleStart.instances.get 1).map entry := hsame.get 1
  rw [hnone, Option.map_none, Option.map_eq_none_iff] at hget
  rw [hget] at hleft
  cases hleft

end Rustee.Os
