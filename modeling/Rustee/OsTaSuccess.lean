import Rustee.OsEntryPoints
import Rustee.OsFailedOpens
import Rustee.OsFrames

/-!
# What a success of a TA means

An instance without entry points is a TA without code: binding a session to it and invoking it
succeed without a call. An early TA may be registered that way. This file follows what happens
when the image in the answer to LOAD_TA defines none, and what a reported success says when every
image does.
-/

namespace Rustee.Os

open Prog SlotTable Fallible List EarlyTas

variable {σ A S : Type} {env : Env σ A S} {m m₀ m' : Machine σ A} {bytes : List UInt8}
  {iid : InstanceId} {uuid : Uuid} {login : Login} {params : Params} {out : KernelOut}

/-! ### Refused images

Every error of the parsers is one for the client. -/

section Errors

variable {build : Build}

theorem elf64SectionLoop_errors (image strtab name : List UInt8) (shoff shentsize : UInt64)
    (count i : Nat) :
    (elf64SectionLoop build image strtab name shoff shentsize count i).Errors
      (· ≠ TEE_SUCCESS) := by
  induction count generalizing i with
  | zero => exact errors_err (by decide)
  | succ count ih =>
    rw [elf64SectionLoop]
    refine errors_fit.bind fun rel => errors_fit.bind fun off => errors_fit.bind fun hdrEnd => ?_
    split
    · exact errors_err (by decide)
    · refine errors_readLeAt.bind fun _ => errors_readLeAt.bind fun _ =>
        errors_readLeAt.bind fun _ => ?_
      split
      · exact errors_ofOption (by decide) _
      · exact ih (i + 1)

theorem findTaHead_errors (image : List UInt8) :
    (findTaHead build image).Errors (· ≠ TEE_SUCCESS) := by
  rw [findTaHead]
  split
  · exact errors_ok _
  · rw [elf64Section]
    split
    · exact errors_err (by decide)
    · refine errors_readLe.bind fun _ => errors_readLe.bind fun _ =>
        errors_readLe.bind fun _ => errors_readLe.bind fun _ => ?_
      split
      · exact errors_err (by decide)
      · refine errors_fit.bind fun _ => errors_fit.bind fun _ => errors_fit.bind fun _ => ?_
        split
        · exact errors_err (by decide)
        · refine errors_readLeAt.bind fun _ => errors_readLeAt.bind fun _ =>
            (errors_ofOption (by decide) _).bind fun _ => ?_
          exact elf64SectionLoop_errors image _ _ _ _ _ _

theorem parseTaHead_errors (head : List UInt8) : (parseTaHead head).Errors (· ≠ TEE_SUCCESS) := by
  rcases parseTaHead_cases head with h | ⟨-, h⟩
  · rw [h]
    exact errors_err (by decide)
  · rw [h]
    exact errors_ok _

theorem ptLoadLoop_errors (phoff phentsize : UInt64) (count i : Nat) (segs : List LoadSeg) :
    (ptLoadLoop build bytes phoff phentsize count i segs).Errors (· ≠ TEE_SUCCESS) := by
  induction count generalizing i segs with
  | zero => exact errors_ok _
  | succ count ih =>
    rw [ptLoadLoop]
    refine errors_fit.bind fun rel => errors_fit.bind fun off => errors_fit.bind fun hdrEnd => ?_
    split
    · exact errors_err (by decide)
    · refine errors_readLeAt.bind fun _ => ?_
      split
      · exact ih _ _
      · exact errors_readLeAt.bind fun _ => errors_readLeAt.bind fun _ =>
          errors_readLeAt.bind fun _ => errors_readLeAt.bind fun _ => ih _ _

theorem parseElf_errors (build : Build) (bytes : List UInt8) :
    (parseElf build bytes).Errors (· ≠ TEE_SUCCESS) := by
  refine (findTaHead_errors bytes).bind fun head => (parseTaHead_errors head).bind fun props => ?_
  split
  · exact errors_ok _
  · refine Errors.bind ?_ fun segs => (errors_toOption _).bind fun _ =>
      errors_ok _
    exact errors_readLe.bind fun _ => errors_readLe.bind fun _ =>
      errors_readLe.bind fun _ => ptLoadLoop_errors _ _ _ _ _

theorem parseRtsg_errors (bytes : List UInt8) : (parseRtsg bytes).Errors (· ≠ TEE_SUCCESS) := by
  rcases parseRtsg_cases bytes with ⟨_, hcode, h⟩ | ⟨-, -, h⟩
  · rw [h]
    exact errors_err hcode
  · rw [h]
    exact errors_ok _

theorem loadImage_errors (crypto : CryptoProvider) (build : Build) (bytes : List UInt8) :
    (loadImage crypto build bytes).Errors (· ≠ TEE_SUCCESS) := by
  unfold loadImage
  split
  · refine (parseRtsg_errors bytes).bind fun img => ?_
    split
    · exact (parseElf_errors build _).bind fun _ => errors_ok _
    · exact errors_err (by decide)
  · exact (parseElf_errors build _).bind fun _ => errors_ok _

theorem mapElf_errors (env : Env σ A S) (aspace : A) (bytes : List UInt8) :
    (mapElf env aspace bytes).Errors (· ≠ TEE_SUCCESS) := by
  cases hparse : parseElf env.target.build bytes with
  | ok =>
    rcases mapElf_cases env aspace hparse with ⟨v, hv⟩ | herr
    · rw [hv]
      exact errors_ok v
    · rw [herr]
      exact errors_err (by decide)
  | err code =>
    rw [mapElf, hparse]
    exact errors_err (parseElf_errors _ _ code hparse)
  | panic =>
    rw [mapElf, hparse]
    exact fun _ h => by cases h

end Errors

/-! ### Images without code -/

def DefinesCode (bytes : List UInt8) : Prop := isElf bytes = true ∧ DefinesEntryPoints bytes

variable {entries : Option TaEntryPoints}

theorem mapRequested_entries {aspace aspace' : A} {req : MapRequest}
    (h : mapRequested env aspace req = .ok (entries, aspace')) :
    ∃ slide, entries = bindSymbols env.target.aarch64 req.symbols slide := by
  rw [mapRequested] at h
  split at h
  · cases h
    exact ⟨0, rfl⟩
  · split at h
    · cases h
    · cases h
      exact ⟨_, rfl⟩

/-- An accepted image has entry points on aarch64 exactly when it defines them. -/
theorem mapElf_isSome_iff {aspace aspace' : A}
    (haarch : env.target.aarch64 = true) (hlen : bytes.length < 2 ^ 63)
    (h : mapElf env aspace bytes = .ok (entries, aspace')) :
    entries.isSome ↔ DefinesCode bytes := by
  constructor
  · intro hsome
    obtain ⟨ep, rfl⟩ := Option.isSome_iff_exists.mp hsome
    obtain ⟨helf, hdef, -⟩ := mapElf_entries hlen h
    exact ⟨helf, hdef⟩
  · intro hdef
    rw [mapElf_eq] at h
    obtain ⟨req, hreq, h⟩ := bind_eq_ok.mp h
    obtain ⟨img, himg, hsymbols⟩ := mapRequest_parsed hreq
    have hsome : req.symbols = some (entrySymbols bytes) := by
      rw [hsymbols]
      exact ((parseElf_eq_ok hlen himg).2 _).mpr ⟨hdef.1, hdef.2, rfl⟩
    obtain ⟨slide, rfl⟩ := mapRequested_entries h
    rw [hsome, haarch]
    rfl

def EndsInError (m : Machine σ A) (r : Reply × Machine σ A) : Prop :=
  ∃ out, r.1 = .out out ∧ out.Failed ∧ r.2.sessions.slots = m.sessions.slots

/-- Something else than missing code stops the answer to the request: the notice gate, a
cancellation, the image itself, its UUID, the mapping, or a full table. -/
def RefusedFor (env : Env σ A S) (m : Machine σ A) (y : Yielding) (bytes : List UInt8) : Prop :=
  m.noticesOk = false ∨ m.cancelledIds.any (· == y.cancelId) = true ∨
    (∃ code, loadImage env.crypto env.target.build bytes = .err code) ∨
    ∃ loaded, loadImage env.crypto env.target.build bytes = .ok loaded ∧
      (loaded.props.uuid ≠ y.uuid ∨
        (∃ code, mapElf env (env.hal.newAddressSpace m.world).1 bytes = .err code) ∨
        ¬ (m.instances.HasRoom ∧ m.sessions.HasRoom))

theorem failed_doneErr {code : UInt32} (h : code ≠ TEE_SUCCESS) : (KernelOut.doneErr code).Failed :=
  h

variable {i : Instance A} {props : TaProperties}

theorem instantiateAndBind_without_code (env : Env σ A S) (login : Login)
    (params : Params) (a : A) (hu : props.uuid = uuid)
    (hfresh : m.instances.Fresh m.instances.nextId) (hcur : m.currentInstance = none) :
    ∃ out m', instantiateAndBind env props uuid login params none (some a) m = (.value out, m') ∧
      (m.instances.HasRoom ∧ m.sessions.HasRoom → ¬ out.Failed) ∧
      (¬ (m.instances.HasRoom ∧ m.sessions.HasRoom) →
        out.Failed ∧ m'.sessions.slots = m.sessions.slots) := by
  have hrun := does_instantiateAndBind env props uuid login params none (some a)
    (U := fun _ _ => False) hfresh hcur (fun hsome => by cases hsome) m.world
  rw [Machine.after_self] at hrun
  rcases hrun with ⟨w, evs, out, t', hrun, hinst⟩ | ⟨_, _, _, -, hfalse⟩
  · refine ⟨out, _, hrun, ?_⟩
    cases hinst with
    | mismatch hne => exact absurd hu hne
    | noSlot _ hfull =>
      exact ⟨fun h => absurd h.1 hfull, fun _ => ⟨failed_doneErr (by decide), rfl⟩⟩
    | refused _ _ he => cases he
    | bound _ hroom aspace evs out t' hbinds =>
      cases hbinds with
      | unmapped _ _ he | refused _ _ _ _ he => cases he
      | unrecorded b ctx hfull =>
        exact ⟨fun h => absurd h.2 hfull,
          fun _ => ⟨failed_doneErr (by decide), slots_alloc_of_full hfull _⟩⟩
      | recorded b ctx params hsess =>
        exact ⟨fun _ hfailed => absurd rfl hfailed, fun h => absurd ⟨hroom, hsess⟩ h⟩
  · exact hfalse.elim

variable {y : Yielding}

theorem loadTaAnswer_without_code (env : Env σ A S) (hlen : bytes.length < 2 ^ 63)
    (hgate : m.noticesOk = true) (hfresh : m.instances.Fresh m.instances.nextId)
    (hcur : m.currentInstance = none) (hnot : ¬ DefinesCode bytes) :
    (RefusedFor env m y bytes ∧ ∃ out m', loadTaAnswer env y bytes m = (.value out, m') ∧
      out.Failed ∧ m'.sessions.slots = m.sessions.slots) ∨
    (¬ RefusedFor env m y bytes ∧ ((∃ m', loadTaAnswer env y bytes m = (.abort, m')) ∨
      ∃ out m', loadTaAnswer env y bytes m = (.value out, m') ∧ ¬ out.Failed)) := by
  have hopen : m.noticesOk ≠ false := by simp [hgate]
  rw [loadTaAnswer_apply]
  by_cases hcancel : m.cancelledIds.any (· == y.cancelId) = true
  · rw [if_pos hcancel]
    exact .inl ⟨.inr (.inl hcancel), _, _, rfl, failed_doneErr (by decide), rfl⟩
  rw [if_neg hcancel]
  cases hload : loadImage env.crypto env.target.build bytes with
  | panic =>
    refine .inr ⟨?_, .inl ⟨m, rfl⟩⟩
    simp [RefusedFor, hopen, hcancel, hload]
  | err code =>
    exact .inl ⟨.inr (.inr (.inl ⟨code, hload⟩)), _, _, rfl,
      failed_doneErr (loadImage_errors _ _ _ code hload), rfl⟩
  | ok loaded =>
    have hrefused : ∀ h, RefusedFor env m y bytes := fun h =>
      .inr (.inr (.inr ⟨loaded, hload, h⟩))
    dsimp only
    by_cases hu : loaded.props.uuid = y.uuid
    · rw [if_neg (not_not.mpr hu)]
      cases hmap : mapElf env (env.hal.newAddressSpace m.world).1 bytes with
      | panic => exact absurd hmap (mapElf_ne_panic env _ hload)
      | err code =>
        exact .inl ⟨hrefused (.inr (.inl ⟨code, hmap⟩)), _, _, rfl,
          failed_doneErr (mapElf_errors env _ _ code hmap), rfl⟩
      | ok v =>
        obtain ⟨entries, a⟩ := v
        have hnone : entries = none := by
          cases entries with
          | none => rfl
          | some =>
            obtain ⟨helf, hdef, -⟩ := mapElf_entries hlen hmap
            exact absurd ⟨helf, hdef⟩ hnot
        subst hnone
        obtain ⟨out, m', hrun, hyes, hno⟩ := instantiateAndBind_without_code
          (m := m.after (env.hal.newAddressSpace m.world).2 m.tables []) env y.login y.params a
          hu hfresh hcur
        by_cases hroom : m.instances.HasRoom ∧ m.sessions.HasRoom
        · refine .inr ⟨?_, .inr ⟨out, m', hrun, hyes hroom⟩⟩
          simp [RefusedFor, hopen, hcancel, hload, hu, hmap, hroom.1, hroom.2]
        · exact .inl ⟨hrefused (.inr (.inr hroom)), out, m', hrun, hno hroom⟩
    · rw [if_pos hu]
      exact .inl ⟨hrefused (.inl hu), _, _, rfl, failed_doneErr (by decide), rfl⟩

/-- An answer without code ends in an error only if something else stops it. -/
theorem answer_without_code (env : Env σ A S) (hlen : bytes.length < 2 ^ 63)
    (hf : FreshIds m) (hcur : m.currentInstance = none) (hy : m.yielding = some y)
    (hnot : ¬ DefinesCode bytes) :
    EndsInError m (dispatch env (.rpcComplete (.loadTa bytes)) m) ↔ RefusedFor env m y bytes := by
  cases hgate : m.noticesOk with
  | false =>
    rw [dispatch, handle_of_closed_gate env hgate]
    exact ⟨fun _ => .inl hgate, fun _ => ⟨_, rfl, failed_doneErr (by decide), rfl⟩⟩
  | true =>
    rw [dispatch_loadTa hgate hy]
    rcases loadTaAnswer_without_code (m := { m with yielding := none }) env hlen hgate hf.2 hcur
      hnot
      with ⟨hrefused, out, m', hrun, hfailed, hslots⟩ |
        ⟨hrefused, ⟨m', hrun⟩ | ⟨out, m', hrun, hok⟩⟩
    · rw [hrun]
      exact ⟨fun _ => hrefused, fun _ => ⟨out, rfl, hfailed, hslots⟩⟩
    · rw [hrun]
      refine ⟨?_, fun h => absurd h hrefused⟩
      rintro ⟨out, hout, -⟩
      cases hout
    · rw [hrun]
      refine ⟨?_, fun h => absurd h hrefused⟩
      rintro ⟨out', hout, hfailed, -⟩
      cases hout
      exact absurd hfailed hok

/-! ### Sessions that were opened -/

def KernelOut.session : KernelOut → Option SessionId
  | .done _ session _ => session
  | .rpc _ => none

/-- A session that is reported open is in the table, and if it is one of a TA with entry
points, these events hold the call that accepted it. -/
def OpenRan (evs : List Event) (out : KernelOut) (t : Tables A) : Prop :=
  ∀ result sid ps, out = .done result (some sid) ps → ∃ s, t.sessions.get sid = some s ∧
    (s.kind = .userTa → ∃ iid i, s.inst = some iid ∧ t.instances.get iid = some i ∧
      (i.entries.isSome → ∃ ctx, .ta iid (.openSession ctx TEE_SUCCESS) ∈ evs))

variable {evs : List Event}

theorem openRan_none (t : Tables A) (h : out.session = none) : OpenRan evs out t := by
  rintro result sid ps rfl
  cases h

theorem Binds.openRan {t t' : Tables A}
    (h : Binds iid i uuid login t evs out t') (hi : t.instances.get iid = some i)
    (hfresh : t.sessions.Fresh t.sessions.nextId) : OpenRan evs out t' := by
  cases h with
  | unmapped | refused | unrecorded => exact openRan_none _ rfl
  | recorded a ctx params hroom =>
    rintro result sid ps ⟨⟩
    refine ⟨_, get_alloc hroom hfresh _, fun _ => ⟨iid, _, rfl,
      get_update_self (fun _ => rfl) hi, fun hsome => ⟨ctx, ?_⟩⟩⟩
    have hentries : i.entries.isSome := hsome
    simp [acceptedBy, hentries]

theorem Instantiates.openRan {t t' : Tables A}
    (h : Instantiates props uuid login entries t evs out t')
    (hs : t.sessions.Fresh t.sessions.nextId) (hi : t.instances.Fresh t.instances.nextId) :
    OpenRan evs out t' := by
  cases h with
  | mismatch | noSlot | refused => exact openRan_none _ rfl
  | bound hu hroom aspace evs out t' hbinds =>
    intro result sid ps hout
    obtain ⟨s, hget, hta⟩ := hbinds.openRan (get_alloc hroom hi _) hs result sid ps hout
    refine ⟨s, hget, fun hk => ?_⟩
    obtain ⟨iid, i, hinst, hi, hran⟩ := hta hk
    refine ⟨iid, i, hinst, hi, fun hsome => ?_⟩
    obtain ⟨ctx, hmem⟩ := hran hsome
    exact ⟨ctx, mem_cons_of_mem _ (mem_append_right _ hmem)⟩

/-- A command that opens, or finishes opening: what it reports is what its calls did. -/
def OpensAsRun (m : Machine σ A) (out : KernelOut) (m' : Machine σ A) : Prop :=
  ∃ evs, m'.log = m.log ++ evs ∧ OpenRan evs out m'.tables

theorem opensAsRun_none (hlog : m'.log = m.log) (h : out.session = none) : OpensAsRun m out m' :=
  ⟨[], by rw [hlog, append_nil], openRan_none _ h⟩

theorem instantiateAndBind_opensAsRun
    {aspace : Option A} (hf : FreshIds m) (hcur : m.currentInstance = none)
    (hrun : instantiateAndBind env props uuid login params entries aspace m = (.value out, m')) :
    OpensAsRun m out m' := by
  have hout := instantiateAndBind_outcome env props uuid login params entries aspace hf.2 hcur
  rw [hrun] at hout
  cases hout with
  | value w evs out t' hinst => exact ⟨evs, rfl, hinst.openRan hf.1 hf.2⟩

/-- What a command that opens, or finishes opening, reports is what its calls did. -/
theorem handle_opensAsRun {cmd : KernelCmd} (hok : KernelOk m) (hf : FreshIds m)
    (hopens : cmd.opens = true) (hrun : handle env cmd m = (.value out, m')) :
    OpensAsRun m out m' := by
  have hroute := handle_routes env cmd m
  generalize handle env cmd m = r at hroute hrun
  cases hroute with
  | refused | cancelled | yielded =>
    cases hrun
    exact opensAsRun_none rfl rfl
  | answered =>
    cases hrun
    exact opensAsRun_none (append_nil _) rfl
  | ptaRefused | ptaUnrecorded =>
    cases hrun
    exact ⟨_, rfl, openRan_none _ rfl⟩
  | ptaPanicked | ptaHalted | ptaClosePanicked | aborted => cases hrun
  | ptaInvoked | invoked | ptaClosed | closed | taken => cases hopens
  | ptaOpened hreg w ctx params' hroom =>
    cases hrun
    refine ⟨_, rfl, ?_⟩
    rintro result sid ps ⟨⟩
    exact ⟨_, get_alloc hroom hf.1 _, fun hk => by cases hk⟩
  | @reused uuid login params cancelId timeoutMs iid i hadm hpta hsingle hi hcount hb =>
    have hout := bindAndUnlock_outcome env uuid login params hi hb hok.current
    rw [hrun] at hout
    cases hout with
    | value w evs out t' hbinds => exact ⟨evs, rfl, hbinds.openRan hi hf.1⟩
  | created => exact instantiateAndBind_opensAsRun hf hok.current hrun
  | loaded =>
    obtain ⟨evs, hlog, hran⟩ := instantiateAndBind_opensAsRun (m := Machine.after
      { m with yielding := none } (env.hal.newAddressSpace m.world).2 m.tables []) hf
      hok.current hrun
    exact ⟨evs, hlog.trans (congrArg (· ++ evs) (append_nil _)), hran⟩

/-! ### Sessions that were invoked -/

variable {ps : Params} {sid : SessionId} {result : TeeResult}

theorem handle_ran {s : Session} {cmdId cancelId timeoutMs : UInt32}
    {session : Option SessionId} (hok : KernelOk m) (hs : m.sessions.get sid = some s)
    (hk : s.kind = .userTa) (hrun : handle env (.invoke sid cmdId params cancelId timeoutMs) m =
      (.value (.done result session ps), m')) (hcode : result.code = TEE_SUCCESS) :
    ∃ i ∈ m.instances.entries, Serves i s ∧ (i.entries.isSome →
      m'.log = m.log ++ [.ta i.id (.invoke s.taSessCtx TEE_SUCCESS)]) := by
  have hroute := handle_routes env (.invoke sid cmdId params cancelId timeoutMs) m
  generalize handle env (.invoke sid cmdId params cancelId timeoutMs) m = r at hroute hrun
  cases hroute with
  | refused hrefused =>
    cases hrun
    exact absurd hcode hrefused
  | ptaInvoked hs' hk' =>
    cases hs.symm.trans hs'
    cases hk.symm.trans hk'
  | ptaHalted => cases hrun
  | @invoked _ _ _ _ _ _ iid i hadm hs' hstate hk' hinst hi hb =>
    cases hs.symm.trans hs'
    obtain ⟨j, hat, hget, hserves⟩ := hok.tables.sessionAt hs hk
    cases hinst.symm.trans hserves.inst
    cases hi.symm.trans hget
    refine ⟨i, (get_some hget).1, hserves, fun hsome => ?_⟩
    rcases does_invokeLocked hi hb hok.current m.world with
      ⟨w, evs, out, t', hrun', -, hran⟩ | ⟨_, _, _, hrun', -⟩
    · cases hrun.symm.trans hrun'
      have hevs := hran _ _ _ rfl hcode
      rw [invokedBy, if_pos hsome] at hevs
      exact congrArg (m.log ++ ·) hevs
    · cases hrun.symm.trans hrun'

/-! ### Whole runs -/

/-- If the command brings an image that the parser accepts, the image defines code. -/
def BringsCode (env : Env σ A S) (cmd : KernelCmd) : Prop :=
  ∀ bytes, cmd = .rpcComplete (.loadTa bytes) → bytes.length < 2 ^ 63 ∧
    ∀ img, parseElf env.target.build bytes = .ok img → DefinesCode bytes

variable {steps : List (Taken σ A)} {ok : Machine σ A → KernelCmd → Prop}

theorem Run.early
    (hrun : Run env ok m₀ steps m) : m.early = m₀.early := by
  refine hrun.invariant (P := fun m => m.early = m₀.early) ?_ (fun _ _ h => h) rfl
  intro m cmd out m' _ h hd
  have hgrows := dispatch_grows env cmd m
  rw [hd] at hgrows
  exact hgrows.early.trans h

theorem Run.hasCode
    (haarch : env.target.aarch64 = true) (hboot : Booted env m₀)
    (hrun : Run env ok m₀ steps m) (hcode : ∀ step ∈ steps, BringsCode env step.cmd)
    (hi : i ∈ m.instances.entries) (hearly : get m.early i.uuid = none) : i.entries.isSome := by
  obtain ⟨step, hstep, hstores⟩ := hrun.stored hboot.noInstances i hi
  obtain ⟨j, hcreates, huuid, -, hentries⟩ := hstores.stored
  have hbrings := hcode step hstep
  have hsame : step.before.early = m.early := by
    obtain ⟨steps1, hbefore, -⟩ := hrun.reached hstep
    exact hbefore.early.trans hrun.early.symm
  rw [← hentries]
  generalize step.cmd = cmd at hcreates hbrings
  cases hcreates with
  | early uuid login params cancelId timeoutMs ta a hta =>
    rw [hsame, show uuid = i.uuid from huuid, hearly] at hta
    cases hta
  | loaded bytes y loaded a a' entries _ _ _ hmap =>
    obtain ⟨hlen, hdef⟩ := hbrings bytes rfl
    have hmap' := hmap
    rw [mapElf_eq] at hmap'
    obtain ⟨req, hreq, -⟩ := bind_eq_ok.mp hmap'
    obtain ⟨img, himg, -⟩ := mapRequest_parsed hreq
    exact (mapElf_isSome_iff haarch hlen hmap).mpr (hdef img himg)

def Ran (m m' : Machine σ A) (ev : Event) : Prop := ∃ evs, m'.log = m.log ++ evs ∧ ev ∈ evs

/-- A success on a session of a loaded TA comes from its code: when one is opened, its
open-session entry was called by the command and returned success, and when one is
invoked, its invoke entry was and did. -/
structure SuccessRan (m : Machine σ A) (cmd : KernelCmd) (out : KernelOut) (m' : Machine σ A) :
    Prop where
  opened : cmd.opens = true → ∀ result sid ps, out = .done result (some sid) ps →
    ∃ s, m'.sessions.get sid = some s ∧
      (s.kind = .userTa → get m.early s.uuid = none →
        ∃ iid ctx, s.inst = some iid ∧ Ran m m' (.ta iid (.openSession ctx TEE_SUCCESS)))
  invoked : ∀ sid cmdId params cancelId timeoutMs,
    cmd = .invoke sid cmdId params cancelId timeoutMs →
    ∀ result session ps, out = .done result session ps → result.code = TEE_SUCCESS →
      ∀ s, m.sessions.get sid = some s → s.kind = .userTa →
        get m.early s.uuid = none →
        ∃ iid, s.inst = some iid ∧ Ran m m' (.ta iid (.invoke s.taSessCtx TEE_SUCCESS))

variable {cmd : KernelCmd}

theorem handle_of_dispatch (hd : dispatch env cmd m = (.out out, m')) :
    handle env cmd m = (.value out, m') ∨ out = .doneErr TEE_ERROR_TARGET_DEAD := by
  rw [dispatch] at hd
  rcases hrun : handle env cmd m with ⟨exit, m1⟩
  rw [hrun] at hd
  cases exit with
  | value =>
    cases hd
    exact .inl rfl
  | unwind =>
    dsimp only at hd
    rw [onPanic] at hd
    split at hd
    · cases hd
    · right
      cases hd
      rw [onTaPanic]
      split
      · rfl
      · rfl
  | abort => cases hd

theorem Run.successRan (haarch : env.target.aarch64 = true)
    (hboot : Booted env m₀) (hrun : Run env (fun m _ => FreshIds m) m₀ steps m)
    (hf : FreshIds m) (hcode : ∀ step ∈ steps, BringsCode env step.cmd)
    (hcmd : BringsCode env cmd) (hd : dispatch env cmd m = (.out out, m')) :
    SuccessRan m cmd out m' := by
  have hok : KernelOk m := hrun.kernelOk (fun _ _ h => h) hboot.kernelOk
  have hrun' : Run env (fun m _ => FreshIds m) m₀ (steps ++ [⟨m, cmd, out, m'⟩]) m' :=
    .command hrun cmd out hf hd
  have hok' : KernelOk m' := hrun'.kernelOk (fun _ _ h => h) hboot.kernelOk
  have hearly : m'.early = m.early := hrun'.early.trans hrun.early.symm
  have hcode' : ∀ step ∈ steps ++ [⟨m, cmd, out, m'⟩], BringsCode env step.cmd := by
    intro step hstep
    rcases mem_append.mp hstep with hold | hlast
    · exact hcode step hold
    · cases mem_singleton.mp hlast
      exact hcmd
  constructor
  · rintro hopens result sid ps rfl
    have hhandle : handle env cmd m = (.value (.done result (some sid) ps), m') :=
      (handle_of_dispatch hd).resolve_right fun h => by cases h
    obtain ⟨evs, hlog, hran⟩ := handle_opensAsRun hok hf hopens hhandle
    obtain ⟨s, hs, hta⟩ := hran result sid ps rfl
    refine ⟨s, hs, fun hk hloaded => ?_⟩
    obtain ⟨iid, i, hinst, hget, hcalled⟩ := hta hk
    -- the invariant says whose instance it is, and the run where its code came from
    obtain ⟨i', hat, hget', hserves⟩ := hok'.tables.sessionAt hs hk
    cases hinst.symm.trans hat.inst
    cases hget.symm.trans hget'
    have hsome : i.entries.isSome := by
      refine hrun'.hasCode haarch hboot hcode' (get_some hget).1 ?_
      rw [hearly, ← hserves.uuid]
      exact hloaded
    obtain ⟨ctx, hmem⟩ := hcalled hsome
    exact ⟨i.id, ctx, hinst, evs, hlog, hmem⟩
  · rintro sid cmdId params cancelId timeoutMs rfl result session ps rfl hsuccess s hs hk hloaded
    rcases handle_of_dispatch hd with hhandle | hdead
    · obtain ⟨i, hi, hserves, hcalled⟩ := handle_ran hok hs hk hhandle hsuccess
      have hsome : i.entries.isSome := by
        refine hrun.hasCode haarch hboot hcode hi ?_
        rw [← hserves.uuid]
        exact hloaded
      exact ⟨i.id, hserves.inst, _, hcalled hsome, mem_singleton_self _⟩
    · cases hdead
      exact absurd hsuccess (by decide)

/-- On aarch64, in every run from a booted kernel. The answer to a LOAD_TA request ends in
an error and opens no session for want of code if and only if the image defines code, or
something else stops the answer. And if every image of the run that the parser accepts
defines code, a success on a session of a loaded TA comes from its code. -/
theorem success_only_from_code_iff (env : Env σ A S) (haarch : env.target.aarch64 = true)
    {m₀ m : Machine σ A} {steps : List (Taken σ A)} (hboot : Booted env m₀)
    (hrun : Run env (fun m _ => FreshIds m) m₀ steps m) (hf : FreshIds m) :
    (∀ y bytes, m.yielding = some y → bytes.length < 2 ^ 63 →
      ((¬ DefinesCode bytes → EndsInError m (dispatch env (.rpcComplete (.loadTa bytes)) m)) ↔
        DefinesCode bytes ∨ RefusedFor env m y bytes)) ∧
    ((∀ step ∈ steps, BringsCode env step.cmd) → ∀ cmd out m', BringsCode env cmd →
      dispatch env cmd m = (.out out, m') → SuccessRan m cmd out m') := by
  constructor
  · intro y bytes hy hlen
    by_cases hdef : DefinesCode bytes
    · exact ⟨fun _ => .inl hdef, fun _ hnot => absurd hdef hnot⟩
    · have hok : KernelOk m := hrun.kernelOk (fun _ _ h => h) hboot.kernelOk
      have hiff := answer_without_code env hlen hf hok.current hy hdef
      constructor
      · intro h
        exact .inr (hiff.mp (h hdef))
      · rintro (hyes | hrefused) -
        · exact absurd hyes hdef
        · exact hiff.mpr hrefused
  · intro hcode cmd out m' hcmd hd
    exact hrun.successRan haarch hboot hf hcode hcmd hd

theorem sampleElf_code : DefinesCode (sampleElf 0x10000 8 16 0x10004) := by
  obtain ⟨helf, hdef, -⟩ := mapRequest_symbols sampleElf_lt sampleElf_request rfl
  exact ⟨helf, hdef⟩

theorem sampleElf_opens :
    ∃ m', dispatch sampleEnv (.rpcComplete (.loadTa (sampleElf 0x10000 8 16 0x10004)))
      sampleWaiting = (.out (.done .ok (some 1) noParams), m') := by
  have hload : loadImage sampleEnv.crypto sampleEnv.target.build
      (sampleElf 0x10000 8 16 0x10004) = _ :=
    loadImage_eq_ok.mpr ⟨_, _, .bare sampleElf_bare, sampleElf_parse, rfl⟩
  have hmap : mapElf sampleEnv 0 (sampleElf 0x10000 8 16 0x10004) =
      .ok (some ⟨0x10004, 0x10004, 0x10004, 0x10004, 0x10004⟩, 0) := by
    have hreq : mapRequest sampleEnv.target.build (sampleElf 0x10000 8 16 0x10004) = _ :=
      sampleElf_request
    rw [mapElf_eq, hreq]
    rfl
  rw [dispatch_loadTa_mapped (y := ⟨loadedProps.uuid, .public, noParams, 0, 0⟩) (by decide +kernel)
    (by decide +kernel) (by decide +kernel) hload rfl hmap]
  exact ⟨_, Prod.ext (by decide +kernel) rfl⟩

theorem success_only_from_code_iff_sample :
    ∃ m', dispatch sampleEnv (.rpcComplete (.loadTa (sampleElf 0x10000 8 16 0x10004)))
        sampleWaiting = (.out (.done .ok (some 1) noParams), m') ∧
      SuccessRan sampleWaiting (.rpcComplete (.loadTa (sampleElf 0x10000 8 16 0x10004)))
        (.done .ok (some 1) noParams) m' := by
  obtain ⟨m', hd⟩ := sampleElf_opens
  have hrun : Run sampleEnv (fun m _ => FreshIds m) sampleStart
      [⟨sampleStart, openCmd loadedProps.uuid .public, .rpc (.loadTa loadedProps.uuid),
        sampleWaiting⟩] sampleWaiting :=
    .command .start _ _ (by decide +kernel) (by decide +kernel)
  refine ⟨m', hd, (success_only_from_code_iff sampleEnv rfl sampleStart_booted hrun
    (by decide +kernel)).2 ?_ _ _ _ ?_ hd⟩
  · intro step hstep bytes hcmd
    cases mem_singleton.mp hstep
    cases hcmd
  · intro bytes hcmd
    rw [← RpcResponse.loadTa.inj (KernelCmd.rpcComplete.inj hcmd)]
    exact ⟨sampleElf_lt, fun _ _ => sampleElf_code⟩

def codelessElf : List UInt8 := sampleElf 0x10000 8 16 0

theorem codelessElf_parse :
    parseElf .debug codelessElf = .ok ⟨loadedProps, [⟨0x10000, 0, 8, 16⟩], none⟩ := by
  decide +kernel

def codelessLoaded : Machine Unit Nat :=
  (instantiateAndBind sampleEnv loadedProps loadedProps.uuid .public noParams none (some 0)
    { sampleWaiting with yielding := none }).2

/-- A session is opened and invoked with success, and no TA code runs. -/
theorem success_without_code :
    ¬ DefinesCode codelessElf ∧
      dispatch sampleEnv (.rpcComplete (.loadTa codelessElf)) sampleWaiting =
        (.out (.done .ok (some 1) noParams), codelessLoaded) ∧
      (dispatch sampleEnv (.invoke 1 5 noParams 0 0) codelessLoaded).1 =
        .out (.done .ok (some 1) noParams) ∧
      (dispatch sampleEnv (.invoke 1 5 noParams 0 0) codelessLoaded).2.log =
        sampleWaiting.log ++ [.instanceIssued (some 1), .sessionIssued (some 1)] := by
  have hbare : hasRtsgMagic codelessElf = false := by decide +kernel
  have hload : loadImage sampleEnv.crypto sampleEnv.target.build codelessElf = _ :=
    loadImage_eq_ok.mpr ⟨_, _, .bare hbare, codelessElf_parse, rfl⟩
  have hmap : mapElf sampleEnv 0 codelessElf = .ok (none, 0) := by
    have hparse : parseElf sampleEnv.target.build codelessElf = _ := codelessElf_parse
    rw [mapElf, hparse]
    decide +kernel
  refine ⟨?_, ?_, by decide +kernel, by decide +kernel⟩
  · rintro ⟨helf, hdef⟩
    have hlen : codelessElf.length < 2 ^ 63 := by decide +kernel
    cases ((parseElf_eq_ok hlen codelessElf_parse).2 _).mpr ⟨helf, hdef, rfl⟩
  · rw [dispatch_loadTa_mapped (y := ⟨loadedProps.uuid, .public, noParams, 0, 0⟩)
      (by decide +kernel) (by decide +kernel) (by decide +kernel) hload rfl hmap]
    decide +kernel

end Rustee.Os
