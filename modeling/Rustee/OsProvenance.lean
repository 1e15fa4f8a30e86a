import Rustee.OsSignedImages

/-!
# Where the code of an instance comes from

Every instance in the table was stored by one command of the run: an open of an early TA, or the
answer to a LOAD_TA request. Its bytes were an envelope whose hash and signature were checked, or
a bare image; which of the two, their first four bytes decide.
-/

namespace Rustee.Os

open Prog SlotTable List

variable {σ A S : Type} {env : Env σ A S} {m m₀ m' : Machine σ A} {cmd : KernelCmd}

/-! ### One command -/

/-- The command `cmd`, given in `m`, may have stored this instance. -/
def StoredBy (env : Env σ A S) (m : Machine σ A) (cmd : KernelCmd) (i : Instance A) : Prop :=
  ∃ j, Creates env m cmd j ∧ j.uuid = i.uuid ∧ j.props = i.props ∧ j.entries = i.entries

variable {i j : Instance A}

theorem SameInstance.trans {k : Instance A} (h1 : SameInstance i j)
    (h2 : SameInstance j k) : SameInstance i k :=
  ⟨h1.id.trans h2.id, h1.uuid.trans h2.uuid, h1.props.trans h2.props,
    h1.entries.trans h2.entries⟩

theorem StoredBy.same (h : StoredBy env m cmd i) (hsame : SameInstance i j) :
    StoredBy env m cmd j := by
  obtain ⟨k, hk, huuid, hprops, hentries⟩ := h
  exact ⟨k, hk, huuid.trans hsame.uuid, hprops.trans hsame.props, hentries.trans hsame.entries⟩

/-- An instance after the events was there before, or was stored under an id issued among
them. -/
def BornIn (New : Instance A → Prop) (m : Machine σ A) (evs : List Event) (i : Instance A) :
    Prop :=
  (∃ j ∈ m.instances.entries, SameInstance j i) ∨ (New i ∧ .instanceIssued (some i.id) ∈ evs)

def bornFrame (env : Env σ A S) (m₀ : Machine σ A) (cmd : KernelCmd) : Frame (Machine σ A) where
  rel m m' := ∃ evs, m'.log = m.log ++ evs ∧
    ∀ i ∈ m'.instances.entries, BornIn (StoredBy env m₀ cmd) m evs i
  refl m := ⟨[], by simp, fun i hi => .inl ⟨i, hi, .refl i⟩⟩
  trans := by
    rintro a b c ⟨evs₁, hlog₁, hborn₁⟩ ⟨evs₂, hlog₂, hborn₂⟩
    refine ⟨evs₁ ++ evs₂, by rw [hlog₂, hlog₁, append_assoc], ?_⟩
    intro i hi
    rcases hborn₂ i hi with ⟨j, hj, hsame⟩ | ⟨hnew, hissued⟩
    · rcases hborn₁ j hj with ⟨k, hk, hsame'⟩ | ⟨hnew, hissued⟩
      · exact .inl ⟨k, hk, hsame'.trans hsame⟩
      · rw [hsame.id] at hissued
        exact .inr ⟨hnew.same hsame, mem_append_left _ hissued⟩
    · exact .inr ⟨hnew, mem_append_right _ hissued⟩

theorem bornFrame_tolerates : ToleratesDrops (bornFrame env m₀ cmd) (fun _ => True) where
  passes _ hinst hlog := by
    refine ⟨[], by simpa using hlog, ?_⟩
    intro i hi
    rw [hinst] at hi
    exact .inl ⟨i, hi, .refl i⟩
  logs _ _ hinst hlog := by
    refine ⟨_, hlog, ?_⟩
    intro i hi
    rw [hinst] at hi
    exact .inl ⟨i, hi, .refl i⟩
  updates iid f hsame _ hinst hlog := by
    refine ⟨[], by simpa using hlog, ?_⟩
    intro i hi
    rw [hinst] at hi
    rcases mem_of_mem_update hi with hold | ⟨j, hget, rfl⟩
    · exact .inl ⟨i, hold, .refl i⟩
    · exact .inl ⟨j, (get_some hget).1, hsame j⟩
  drops iid _ hinst hlog := by
    refine ⟨[], by simpa using hlog, ?_⟩
    intro i hi
    rw [hinst] at hi
    exact .inl ⟨i, mem_of_mem_take hi, .refl i⟩

theorem bornFrame_alloc (hj : Creates env m₀ cmd j) :
    Keeps (bornFrame env m₀ cmd) (allocInstance j) := by
  intro m
  refine ⟨_, rfl, ?_⟩
  intro i hi
  change i ∈ (m.instances.alloc j).2.entries at hi
  rcases alloc_cases m.instances j with ⟨-, t', ht, -, -, hperm⟩ | ⟨-, ht⟩
  · rw [ht, hperm.mem_iff, mem_cons] at hi
    rcases hi with rfl | hold
    · refine .inr ⟨⟨j, hj, rfl, rfl, rfl⟩, ?_⟩
      rw [ht]
      exact mem_singleton_self _
    · exact .inl ⟨i, hold, .refl i⟩
  · rw [ht] at hi
    exact .inl ⟨i, hi, .refl i⟩

theorem dispatch_born (env : Env σ A S) (cmd : KernelCmd) (m : Machine σ A) :
    (bornFrame env m cmd).rel m (dispatch env cmd m).2 := by
  apply bornFrame_tolerates.dispatch
  apply bornFrame_tolerates.handle callsOk_true
  · intro _ _
    trivial
  · intro j hj
    exact bornFrame_alloc hj
  · intro y _
    exact ⟨[], by simp, fun i hi => .inl ⟨i, hi, .refl i⟩⟩

/-! ### Whole runs -/

/-- The step issued the id of the instance and stored it. -/
structure Stores (env : Env σ A S) (step : Taken σ A) (i : Instance A) : Prop where
  issued : ∃ evs, step.after.log = step.before.log ++ evs ∧ .instanceIssued (some i.id) ∈ evs
  stored : StoredBy env step.before step.cmd i

theorem Run.stored {ok : Machine σ A → KernelCmd → Prop} {steps : List (Taken σ A)}
    (hrun : Run env ok m₀ steps m) (hempty : m₀.instances.entries = []) :
    ∀ i ∈ m.instances.entries, ∃ step ∈ steps, Stores env step i := by
  induction hrun with
  | start =>
    intro i hi
    rw [hempty] at hi
    exact absurd hi not_mem_nil
  | outside _ w ih => exact ih
  | @command steps m m' _ cmd out _ hd ih =>
    intro i hi
    obtain ⟨evs, hlog, hborn⟩ := dispatch_born env cmd m
    rw [hd] at hlog hborn
    rcases hborn i hi with ⟨j, hj, hsame⟩ | ⟨hnew, hissued⟩
    · obtain ⟨step, hstep, ⟨evs', hlog', hissued⟩, hstored⟩ := ih j hj
      rw [hsame.id] at hissued
      exact ⟨step, mem_append_left _ hstep, ⟨evs', hlog', hissued⟩, hstored.same hsame⟩
    · refine ⟨⟨m, cmd, out, m'⟩, mem_append_right _ (mem_singleton_self _), ?_, hnew⟩
      exact ⟨evs, hlog, hissued⟩

theorem Booted.noInstances (h : Booted env m) : m.instances.entries = [] := by
  have hnew : m.instances = SlotTable.new MAX_INSTANCES := congrArg Tables.instances h.idle.tables
  rw [hnew, entries_new]

/-! ### Checked images -/

/-- What was checked about the code of an instance before the step stored it. -/
inductive CheckedBy (env : Env σ A S) (step : Taken σ A) (i : Instance A) : Prop
  | early (login : Login) (params : Params) (cancelId timeoutMs : UInt32) (ta : EarlyTa)
      (hcmd : step.cmd = .openSession i.uuid login params cancelId timeoutMs)
      (hta : EarlyTas.get step.before.early i.uuid = some ta) (hprops : i.props = ta.props)
      (hentries : i.entries = ta.entries)
  | signed (bytes : List UInt8) (y : Yielding) (img : SignedImage)
      (hcmd : step.cmd = .rpcComplete (.loadTa bytes)) (hy : step.before.yielding = some y)
      (huuid : y.uuid = i.uuid) (hmagic : hasRtsgMagic bytes = true)
      (hparse : parseRtsg bytes = .ok img) (hhash : img.hash = env.crypto.sha256 (signedBytes img))
      (hsig : env.crypto.rsaPkcs1Verify V0_DEV_PUBKEY (env.crypto.sha256 (signedBytes img))
        img.sig = true)
  | bare (bytes : List UInt8) (y : Yielding) (parsed : ElfImage)
      (hcmd : step.cmd = .rpcComplete (.loadTa bytes)) (hy : step.before.yielding = some y)
      (hrequest : y.uuid = i.uuid) (hmagic : hasRtsgMagic bytes = false)
      (hparse : parseElf env.target.build bytes = .ok parsed) (hprops : i.props = parsed.props)
      (huuid : parsed.props.uuid = y.uuid)
      (hentries : ∃ a a', mapElf env a bytes = .ok (i.entries, a'))

theorem StoredBy.checked {step : Taken σ A}
    (h : StoredBy env step.before step.cmd i) : CheckedBy env step i := by
  obtain ⟨j, hcreates, huuid, hprops, hentries⟩ := h
  generalize hcmd : step.cmd = cmd at hcreates
  cases hcreates with
  | early uuid login params cancelId timeoutMs ta a hta =>
    cases (show uuid = i.uuid from huuid)
    exact .early login params cancelId timeoutMs ta hcmd hta hprops.symm hentries.symm
  | loaded bytes y loaded a a' entries hy hload hrequest hmap =>
    obtain ⟨image, parsed, hcarries, hparsed, rfl⟩ := loadImage_eq_ok.mp hload
    cases hcarries with
    | signed img hmagic hparse hverified =>
      obtain ⟨hhash, hsig⟩ : img.hash = env.crypto.sha256 (signedBytes img) ∧
          env.crypto.rsaPkcs1Verify V0_DEV_PUBKEY (env.crypto.sha256 (signedBytes img))
            img.sig = true := by
        simpa [envelopeVerified] using hverified
      exact .signed bytes y img hcmd hy huuid hmagic hparse hhash hsig
    | bare hmagic =>
      cases (show entries = i.entries from hentries)
      exact .bare bytes y parsed hcmd hy huuid hmagic hparsed hprops.symm hrequest ⟨a, a', hmap⟩

/-- Nothing runs that was not checked: an instance is an early TA, or it was loaded from
an envelope with a good hash and signature, or from a bare image of the TA that was
asked for. -/
theorem loaded_code_checked {ok : Machine σ A → KernelCmd → Prop} {steps : List (Taken σ A)}
    (hboot : Booted env m₀) (hrun : Run env ok m₀ steps m) {i : Instance A}
    (hi : i ∈ m.instances.entries) :
    ∃ step ∈ steps,
      (∃ evs, step.after.log = step.before.log ++ evs ∧ .instanceIssued (some i.id) ∈ evs) ∧
      CheckedBy env step i := by
  obtain ⟨step, hstep, hstores⟩ := hrun.stored hboot.noInstances i hi
  exact ⟨step, hstep, hstores.issued, hstores.stored.checked⟩

def sampleInstance : Instance Nat :=
  { newInstance loadedProps.uuid loadedProps 0 none with id := 1, sessionCount := 1 }

theorem loaded_code_checked_sample :
    ∃ step ∈ sampleLoading,
      (∃ evs, step.after.log = step.before.log ++ evs ∧
        .instanceIssued (some sampleInstance.id) ∈ evs) ∧
      CheckedBy sampleEnv step sampleInstance :=
  loaded_code_checked sampleStart_booted
    (sampleLoading_run (fun _ _ => True) trivial trivial) (by decide +kernel)

/-- An instance of a TA that is not linked in, although no answer of the run was an
envelope and the platform accepts no signature. -/
theorem unsigned_image_loaded :
    Run sampleEnv (fun _ _ => True) sampleStart sampleLoading sampleLoaded ∧
      sampleInstance ∈ sampleLoaded.instances.entries ∧
      EarlyTas.get sampleStart.early sampleInstance.uuid = none ∧
      (∀ step ∈ sampleLoading, ∀ bytes, step.cmd = .rpcComplete (.loadTa bytes) →
        hasRtsgMagic bytes = false) ∧
      ∀ key digest sig, sampleEnv.crypto.rsaPkcs1Verify key digest sig = false := by
  refine ⟨sampleLoading_run _ trivial trivial, by decide +kernel, by decide +kernel, ?_,
    fun _ _ _ => rfl⟩
  intro step hstep bytes hcmd
  simp only [sampleLoading, mem_cons, not_mem_nil, or_false] at hstep
  rcases hstep with rfl | rfl
  · cases hcmd
  · cases hcmd
    decide +kernel

end Rustee.Os
