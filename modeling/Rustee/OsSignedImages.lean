import Rustee.OsFrames
import Rustee.OsRuns

/-!
# Signed and bare images

`load_image` checks an RTSG envelope and parses the image inside it. `map_elf` parses whatever it is
given, and `rpc_complete` gives it the whole envelope, which is no image. So an envelope that
verifies is refused by the second parser, where the image inside it would have been loaded. The
identity the envelope is made out to is hashed and compared with nothing: the one in the image's
own header counts.
-/

namespace Rustee.Os

open Prog Fallible Machine

variable {σ A S : Type} {env : Env σ A S} {m m' : Machine σ A} {build : Build}
  {bytes image : List UInt8}

/-! ### What the two parsers make of an envelope -/

theorem findTaHead_of_rtsg (h : hasRtsgMagic bytes = true) :
    findTaHead build bytes = .err TEE_ERROR_BAD_PARAMETERS := by
  obtain ⟨-, hmagic⟩ : 4 ≤ bytes.length ∧ leNat (bytes.take 4) = RTSG_MAGIC := by
    simpa [hasRtsgMagic] using h
  have hhead : ¬ (40 ≤ bytes.length ∧ leNat (bytes.take 4) = RTAH_MAGIC) := by
    rintro ⟨-, hrtah⟩
    exact absurd (hmagic.symm.trans hrtah) (by decide)
  have helf : isElf bytes = false := by
    by_contra hne
    have htake : bytes.take 4 = ELF_MAGIC := by simpa [isElf] using hne
    rw [htake] at hmagic
    exact absurd hmagic (by decide)
  rw [findTaHead, if_neg hhead, elf64Section, if_pos (.inr (.inl helf))]

theorem parseElf_of_rtsg (h : hasRtsgMagic bytes = true) :
    parseElf build bytes = .err TEE_ERROR_BAD_PARAMETERS := by
  rw [parseElf, findTaHead_of_rtsg h, err_bind]

/-- `load_image` takes this image out of the bytes. -/
inductive Carries (crypto : CryptoProvider) (bytes : List UInt8) : List UInt8 → Prop
  | signed (img : SignedImage) (hmagic : hasRtsgMagic bytes = true)
      (hparse : parseRtsg bytes = .ok img) (hverified : envelopeVerified crypto img = true) :
      Carries crypto bytes img.elf
  | bare (hmagic : hasRtsgMagic bytes = false) : Carries crypto bytes bytes

variable {loaded : Loaded}

theorem loadImage_eq_ok {crypto : CryptoProvider} :
    loadImage crypto build bytes = .ok loaded ↔
      ∃ image parsed, Carries crypto bytes image ∧ parseElf build image = .ok parsed ∧
        loaded = ⟨parsed.props, parsed.symbols⟩ := by
  constructor
  · intro h
    cases hmagic : hasRtsgMagic bytes with
    | false =>
      simp only [loadImage, hmagic, Bool.false_eq_true, if_false, ok_bind] at h
      obtain ⟨parsed, hparsed, h⟩ := bind_eq_ok.mp h
      exact ⟨bytes, parsed, .bare hmagic, hparsed, by cases h; rfl⟩
    | true =>
      simp only [loadImage, hmagic, if_true] at h
      obtain ⟨img, himg, h⟩ := bind_eq_ok.mp h
      cases hverified : envelopeVerified crypto img with
      | false =>
        rw [hverified] at h
        cases h
      | true =>
        rw [hverified, if_pos rfl, ok_bind] at h
        obtain ⟨parsed, hparsed, h⟩ := bind_eq_ok.mp h
        exact ⟨img.elf, parsed, .signed img hmagic himg hverified, hparsed, by cases h; rfl⟩
  · rintro ⟨image, parsed, hcarries, hparsed, rfl⟩
    cases hcarries with
    | signed img hmagic himg hverified => simp [loadImage, hmagic, himg, hverified, hparsed]
    | bare hmagic => simp [loadImage, hmagic, hparsed]

section Envelope

variable {crypto : CryptoProvider} {loaded : Loaded} {img : SignedImage}

section

variable (hmagic : hasRtsgMagic bytes = true) (hparse : parseRtsg bytes = .ok img)
  (hload : loadImage crypto build bytes = .ok loaded)
include hmagic hparse hload

/-- What `load_image` returns for an envelope is what the image inside it says. -/
theorem parseElf_inner :
    ∃ parsed, parseElf build img.elf = .ok parsed ∧ loaded = ⟨parsed.props, parsed.symbols⟩ := by
  obtain ⟨image, parsed, hcarries, hparsed, hloaded⟩ := loadImage_eq_ok.mp hload
  cases hcarries with
  | bare hbare => exact absurd (hmagic.symm.trans hbare) (by decide)
  | signed img' _ hparse' =>
    cases hparse.symm.trans hparse'
    exact ⟨parsed, hparsed, hloaded⟩

/-- The image inside an accepted envelope loads by itself, with the same result. -/
theorem loadImage_inner : loadImage crypto build img.elf = .ok loaded := by
  obtain ⟨parsed, hparsed, hloaded⟩ := parseElf_inner hmagic hparse hload
  have hbare : hasRtsgMagic img.elf = false := by
    by_contra hne
    rw [parseElf_of_rtsg (by simpa using hne)] at hparsed
    cases hparsed
  exact loadImage_eq_ok.mpr ⟨img.elf, parsed, .bare hbare, hparsed, hloaded⟩

end

end Envelope

/-! ### What is mapped -/

/-- What `map_elf` asks for: the symbols to bind, and the one call of `map_image` it
makes for an image with segments (address and bytes). -/
structure MapRequest where
  symbols : Option TaSymbols
  load : Option (VirtAddr × List UInt8)
deriving Repr, DecidableEq

def mapRequest (build : Build) (bytes : List UInt8) : Fallible UInt32 MapRequest := do
  let img ← parseElf build bytes
  match img.segs with
  | [] => .ok ⟨img.symbols, none⟩
  | first :: rest =>
    let lo := minVa rest first
    let hi := maxEnd rest first
    if hi.toNat < lo.toNat then
      .err TEE_ERROR_BAD_PARAMETERS
    else
      let span := hi.toNat - lo.toNat
      if span = 0 ∨ MAX_TA_SPAN < span then
        .err TEE_ERROR_BAD_PARAMETERS
      else
        let blob ← copySegs bytes lo (first :: rest) (List.replicate span 0)
        .ok ⟨img.symbols, some (lo, blob)⟩

def mapRequested (env : Env σ A S) (aspace : A) (req : MapRequest) :
    Fallible UInt32 (Option TaEntryPoints × A) :=
  match req.load with
  | none => .ok (bindSymbols env.target.aarch64 req.symbols 0, aspace)
  | some (va, blob) =>
    match env.hal.mapImage aspace va blob Perms.RX with
    | (.error _, _) => .err TEE_ERROR_BAD_PARAMETERS
    | (.ok mapped, aspace') =>
      .ok (bindSymbols env.target.aarch64 req.symbols (mapped - va), aspace')

theorem mapElf_eq (env : Env σ A S) (aspace : A) (bytes : List UInt8) :
    mapElf env aspace bytes = mapRequest env.target.build bytes >>= mapRequested env aspace := by
  unfold mapElf mapRequest
  cases parseElf env.target.build bytes with
  | panic | err => rfl
  | ok img =>
    simp only [ok_bind]
    cases img.segs with
    | nil => rfl
    | cons first rest =>
      dsimp only
      split
      · rfl
      split
      · rfl
      cases copySegs bytes (minVa rest first) (first :: rest)
        (List.replicate ((maxEnd rest first).toNat - (minVa rest first).toNat) 0) with
      | panic | err code | ok blob => rfl

theorem copySegs_cases (bytes : List UInt8) (lo : UInt64) (segs : List LoadSeg)
    (blob : List UInt8) :
    (∃ blob', copySegs bytes lo segs blob = .ok blob') ∨
      copySegs bytes lo segs blob = .err TEE_ERROR_BAD_PARAMETERS := by
  induction segs generalizing blob with
  | nil => exact .inl ⟨blob, rfl⟩
  | cons seg segs ih =>
    simp only [copySegs]
    split
    · exact .inr rfl
    · split
      · exact .inr rfl
      · exact ih _

theorem mapRequest_cases {img : ElfImage} (h : parseElf build bytes = .ok img) :
    (∃ req, mapRequest build bytes = .ok req) ∨
      mapRequest build bytes = .err TEE_ERROR_BAD_PARAMETERS := by
  simp only [mapRequest, h, ok_bind]
  cases img.segs with
  | nil => exact .inl ⟨_, rfl⟩
  | cons first rest =>
    dsimp only
    split
    · exact .inr rfl
    split
    · exact .inr rfl
    rcases copySegs_cases bytes (minVa rest first) (first :: rest)
      (List.replicate ((maxEnd rest first).toNat - (minVa rest first).toNat) 0) with
      ⟨blob, hblob⟩ | herr
    · exact .inl ⟨_, by rw [hblob, ok_bind]⟩
    · exact .inr (by rw [herr, err_bind])

/-- An image that parses is mapped, or refused with the one error there is. -/
theorem mapElf_cases {img : ElfImage} (env : Env σ A S) (aspace : A)
    (h : parseElf env.target.build bytes = .ok img) :
    (∃ v, mapElf env aspace bytes = .ok v) ∨
      mapElf env aspace bytes = .err TEE_ERROR_BAD_PARAMETERS := by
  rw [mapElf_eq]
  rcases mapRequest_cases h with ⟨req, hreq⟩ | herr
  · rw [hreq, ok_bind, mapRequested]
    split
    · exact .inl ⟨_, rfl⟩
    · split
      · exact .inr rfl
      · exact .inl ⟨_, rfl⟩
  · exact .inr (by rw [herr, err_bind])

theorem mapRequest_of_rtsg (h : hasRtsgMagic bytes = true) :
    mapRequest build bytes = .err TEE_ERROR_BAD_PARAMETERS := by
  rw [mapRequest, parseElf_of_rtsg h, err_bind]

theorem mapElf_of_rtsg (env : Env σ A S) (aspace : A) (h : hasRtsgMagic bytes = true) :
    mapElf env aspace bytes = .err TEE_ERROR_BAD_PARAMETERS := by
  rw [mapElf_eq, mapRequest_of_rtsg h, err_bind]

theorem mapElf_ne_panic (env : Env σ A S) (aspace : A)
    (h : loadImage env.crypto env.target.build bytes = .ok loaded) :
    mapElf env aspace bytes ≠ .panic := by
  obtain ⟨image, parsed, hcarries, hparsed, -⟩ := loadImage_eq_ok.mp h
  cases hcarries with
  | signed img hmagic => simp [mapElf_of_rtsg env aspace hmagic]
  | bare =>
    rcases mapElf_cases env aspace hparsed with ⟨v, hv⟩ | herr
    · simp [hv]
    · simp [herr]

/-! ### The command -/

variable {y : Yielding}

theorem dispatch_loadTa (hgate : m.noticesOk = true) (hy : m.yielding = some y) :
    dispatch env (.rpcComplete (.loadTa bytes)) m =
      match loadTaAnswer env y bytes { m with yielding := none } with
      | (.value out, m') => (.out out, m')
      | (.unwind, m') => onPanic env m'
      | (.abort, m') => (.halted, m') := by
  have hrun : handle env (.rpcComplete (.loadTa bytes)) m =
      loadTaAnswer env y bytes { m with yielding := none } := by
    rw [handle_of_gate env hgate]
    simp only [execute, rpcComplete, bind_apply, gets_apply, hy, modify_apply]
  rw [← hrun]
  rfl

/-- The answer is refused whatever it carries: the notice gate is closed, the request was
cancelled, the image is another TA's, or it cannot be mapped. -/
def RefusedAnyway (env : Env σ A S) (m : Machine σ A) (y : Yielding) (loaded : Loaded)
    (image : List UInt8) : Prop :=
  m.noticesOk = false ∨ m.cancelledIds.any (· == y.cancelId) = true ∨
    loaded.props.uuid ≠ y.uuid ∨
    ∃ code, mapElf env (env.hal.newAddressSpace m.world).1 image = .err code

section

variable (hgate : m.noticesOk = true) (hy : m.yielding = some y)
  (hcancel : m.cancelledIds.any (· == y.cancelId) = false)
  (hload : loadImage env.crypto env.target.build bytes = .ok loaded)
  (huuid : loaded.props.uuid = y.uuid)
include hgate hy hcancel hload huuid

/-- An answer that is mapped by neither parser leaves nothing behind but the cleared
request. -/
theorem dispatch_loadTa_unmapped {code : UInt32}
    (hmap : mapElf env (env.hal.newAddressSpace m.world).1 bytes = .err code) :
    dispatch env (.rpcComplete (.loadTa bytes)) m =
      (.out (.doneErr code), { m with
        yielding := none, world := (env.hal.newAddressSpace m.world).2 }) := by
  rw [dispatch_loadTa hgate hy, loadTaAnswer_apply]
  simp [hcancel, hload, huuid, hmap, after, tables]

theorem dispatch_loadTa_mapped {v : Option TaEntryPoints × A}
    (hmap : mapElf env (env.hal.newAddressSpace m.world).1 bytes = .ok v) :
    dispatch env (.rpcComplete (.loadTa bytes)) m =
      match instantiateAndBind env loaded.props y.uuid y.login y.params v.1 (some v.2)
          (after { m with yielding := none } (env.hal.newAddressSpace m.world).2
            m.tables []) with
      | (.value out, m') => (.out out, m')
      | (.unwind, m') => onPanic env m'
      | (.abort, m') => (.halted, m') := by
  rw [dispatch_loadTa hgate hy, loadTaAnswer_apply]
  simp only [hcancel, hload, huuid, hmap, Bool.false_eq_true, if_false, ne_eq, not_true_eq_false]
  rfl

end

/-! ### Telling the two apart -/

/-- The instances in the table: id, UUID, properties and entry points of each. -/
def Machine.codes (m : Machine σ A) :
    List (InstanceId × Uuid × TaProperties × Option TaEntryPoints) :=
  m.instances.entries.map fun i => (i.id, i.uuid, i.props, i.entries)

def codesFrame (σ A : Type) : Frame (Machine σ A) where
  rel m m' := m'.codes = m.codes
  refl _ := rfl
  trans h₁ h₂ := h₂.trans h₁

theorem codesFrame_tolerates : Tolerates (codesFrame σ A) (fun _ => True) where
  passes _ h _ := by simp only [codesFrame, codes, h]
  logs _ _ h _ := by simp only [codesFrame, codes, h]
  updates iid f hsame _ h _ := by
    simp only [codesFrame, codes, h]
    apply SlotTable.map_entries_update
    intro i
    rw [(hsame i).id, (hsame i).uuid, (hsame i).props, (hsame i).entries]

theorem callsOk_true : CallsOk (fun _ => True) := ⟨fun _ _ => trivial, fun _ _ => trivial⟩

variable {iid : InstanceId}

theorem lockInstance_error {e : UInt32}
    (h : lockInstance iid m = (.value (.error e), m')) :
    e = TEE_ERROR_TARGET_DEAD ∨ e = TEE_ERROR_BUSY := by
  simp only [lockInstance, getInstance, bind_apply, gets_apply] at h
  cases hget : m.instances.get iid with
  | none =>
    rw [hget] at h
    cases h
    exact .inl rfl
  | some i =>
    rw [hget] at h
    cases hbusy : i.busy with
    | false =>
      simp only [hbusy] at h
      cases h
    | true =>
      simp only [hbusy] at h
      cases h
      exact .inr rfl

/-- A new instance is only given up with an answer that is not BAD_PARAMETERS. -/
theorem createAndBind_codes {uuid : Uuid} {login : Login} {params : Params}
    {entries : Option TaEntryPoints} (h : createAndBind env iid uuid login params entries m =
      (.value (.doneErr TEE_ERROR_BAD_PARAMETERS), m')) : m'.codes = m.codes := by
  have hsteps : Steps env (frameJudgement (codesFrame σ A)) m
      (.openSession uuid login params 0 0) :=
    codesFrame_tolerates.steps callsOk_true env _ _ fun _ _ => trivial
  have hbind : ∀ m1 : Machine σ A, m1.codes = m.codes →
      bindAndUnlock env iid uuid login params m1 =
        (.value (.doneErr TEE_ERROR_BAD_PARAMETERS), m') → m'.codes = m.codes := by
    intro m1 hcodes hrun
    have hkeeps : (codesFrame σ A).rel m1 (bindAndUnlock env iid uuid login params m1).2 :=
      hsteps.bindAndUnlock rfl (.openSession ..) fun _ _ _ _ =>
        codesFrame_tolerates.mapParams env iid params m1
    rw [hrun] at hkeeps
    exact hkeeps.trans hcodes
  obtain ⟨r, m1, hlock, hrun⟩ := bind_eq_value h
  have hlocked : (codesFrame σ A).rel m (lockInstance iid m).2 :=
    hsteps.lockInstance (c := none) iid m
  rw [hlock] at hlocked
  cases r with
  | error =>
    obtain ⟨_, m2, -, hout⟩ := bind_eq_value hrun
    cases hout
    rcases lockInstance_error hlock with h | h
    · exact absurd h (by decide)
    · exact absurd h (by decide)
  | ok _ =>
    cases entries with
    | none => exact hbind m1 hlocked hrun
    | some ep =>
      obtain ⟨code, m2, hcreate, hrun⟩ := bind_eq_value hrun
      have hcreated : (codesFrame σ A).rel m1 (entering iid (callCreate env iid ep) m1).2 :=
        hsteps.entering (codesFrame_tolerates.call (fun _ => trivial) trivial _)
      rw [hcreate] at hcreated
      by_cases hcode : code = TEE_SUCCESS
      · rw [if_neg (not_not_intro hcode)] at hrun
        exact hbind m2 (hcreated.trans hlocked) hrun
      · rw [if_pos hcode] at hrun
        obtain ⟨_, m3, -, hrun⟩ := bind_eq_value hrun
        obtain ⟨_, m4, -, hout⟩ := bind_eq_value hrun
        cases hout

/-- An image that was mapped is not refused with BAD_PARAMETERS, unless its instance is
in the table. -/
theorem instantiateAndBind_codes {props : TaProperties} {login : Login} {params : Params}
    {entries : Option TaEntryPoints} {aspace : A}
    (h : instantiateAndBind env props props.uuid login params entries (some aspace) m =
      (.value (.doneErr TEE_ERROR_BAD_PARAMETERS), m')) : m'.codes.length = m.codes.length + 1 := by
  rw [instantiateAndBind, if_neg (not_not_intro rfl)] at h
  obtain ⟨a, m1, ha, h⟩ := bind_eq_value h
  cases ha
  obtain ⟨iid, m2, halloc, h⟩ := bind_eq_value h
  rcases SlotTable.alloc_cases m.instances
    (newInstance props.uuid props aspace entries) with ⟨-, t', ht, -, -, hperm⟩ | ⟨-, ht⟩
  · simp only [newInstance] at ht
    simp only [allocInstance, transform_apply, ht] at halloc
    cases halloc
    rw [createAndBind_codes h]
    simp only [codes, List.length_map, hperm.length_eq, List.length_cons]
  · simp only [newInstance] at ht
    simp only [allocInstance, transform_apply, ht] at halloc
    cases halloc
    cases h

theorem onPanic_reply (env : Env σ A S) (m : Machine σ A) :
    (onPanic env m).1 ≠ .out (.doneErr TEE_ERROR_BAD_PARAMETERS) := by
  unfold onPanic
  split
  · exact fun h => by cases h
  · unfold onTaPanic
    split
    · exact fun h => by cases h
    · exact fun h => by cases h

theorem dispatch_loadTa_codes
    {v : Option TaEntryPoints × A} (hgate : m.noticesOk = true) (hy : m.yielding = some y)
    (hcancel : m.cancelledIds.any (· == y.cancelId) = false)
    (hload : loadImage env.crypto env.target.build bytes = .ok loaded)
    (huuid : loaded.props.uuid = y.uuid)
    (hmap : mapElf env (env.hal.newAddressSpace m.world).1 bytes = .ok v)
    (hreply : (dispatch env (.rpcComplete (.loadTa bytes)) m).1 =
      .out (.doneErr TEE_ERROR_BAD_PARAMETERS)) :
    (dispatch env (.rpcComplete (.loadTa bytes)) m).2.codes.length = m.codes.length + 1 := by
  rw [dispatch_loadTa_mapped hgate hy hcancel hload huuid hmap, ← huuid] at hreply ⊢
  generalize hrun : instantiateAndBind env loaded.props loaded.props.uuid y.login y.params v.1
    (some v.2) _ = r at hreply ⊢
  obtain ⟨exit, m'⟩ := r
  cases exit with
  | value =>
    simp only [Reply.out.injEq] at hreply
    subst hreply
    have hcount := instantiateAndBind_codes hrun
    exact hcount
  | unwind => exact absurd hreply (onPanic_reply env m')
  | abort => cases hreply

/-! ### Signed and bare images are not loaded alike -/

/-- The answer `bytes` has the outcome of the answer `image`: the same reply, the same
instances, and nothing mapped that `image` alone would not have mapped. -/
structure LoadsAlike (env : Env σ A S) (m : Machine σ A) (bytes image : List UInt8) :
    Prop where
  reply : (dispatch env (.rpcComplete (.loadTa bytes)) m).1 =
    (dispatch env (.rpcComplete (.loadTa image)) m).1
  instances : (dispatch env (.rpcComplete (.loadTa bytes)) m).2.codes =
    (dispatch env (.rpcComplete (.loadTa image)) m).2.codes
  mapped : ∀ req, mapRequest env.target.build bytes = .ok req →
    mapRequest env.target.build image = .ok req

variable {img : SignedImage}

theorem dispatch_eq_of_refused
    (hmagic : hasRtsgMagic bytes = true) (hparse : parseRtsg bytes = .ok img)
    (hload : loadImage env.crypto env.target.build bytes = .ok loaded)
    (hy : m.yielding = some y) (hrefused : RefusedAnyway env m y loaded img.elf) :
    dispatch env (.rpcComplete (.loadTa bytes)) m =
      dispatch env (.rpcComplete (.loadTa img.elf)) m := by
  have hinner := loadImage_inner hmagic hparse hload
  cases hgate : m.noticesOk with
  | false =>
    rw [dispatch, dispatch, handle_of_closed_gate env hgate, handle_of_closed_gate env hgate]
  | true =>
    cases hcancel : m.cancelledIds.any (· == y.cancelId) with
    | true =>
      rw [dispatch_loadTa hgate hy, dispatch_loadTa hgate hy, loadTaAnswer_apply,
        loadTaAnswer_apply]
      simp only [hcancel, if_true]
    | false =>
      by_cases huuid : loaded.props.uuid = y.uuid
      · obtain ⟨parsed, hparsed, -⟩ := parseElf_inner hmagic hparse hload
        have hunmapped : mapElf env (env.hal.newAddressSpace m.world).1 img.elf =
            .err TEE_ERROR_BAD_PARAMETERS := by
          rcases mapElf_cases env (env.hal.newAddressSpace m.world).1 hparsed with ⟨v, hv⟩ | herr
          · rcases hrefused with h | h | h | ⟨code, h⟩
            · exact absurd (hgate.symm.trans h) (by decide)
            · exact absurd (hcancel.symm.trans h) (by decide)
            · exact absurd huuid h
            · exact absurd (hv.symm.trans h) (by simp)
          · exact herr
        rw [dispatch_loadTa_unmapped hgate hy hcancel hload huuid (mapElf_of_rtsg env _ hmagic),
          dispatch_loadTa_unmapped hgate hy hcancel hinner huuid hunmapped]
      · rw [dispatch_loadTa hgate hy, dispatch_loadTa hgate hy, loadTaAnswer_apply,
          loadTaAnswer_apply]
        simp only [hcancel, hload, hinner, huuid, Bool.false_eq_true, if_false, ne_eq,
          not_false_eq_true, if_true]

/-- An envelope that `load_image` accepts has the outcome of the image inside it only
when both are refused: the envelope is never mapped. -/
theorem signed_loads_alike_iff_refused (env : Env σ A S) {m : Machine σ A} {y : Yielding}
    {bytes : List UInt8} {img : SignedImage} {loaded : Loaded}
    (hmagic : hasRtsgMagic bytes = true) (hparse : parseRtsg bytes = .ok img)
    (hload : loadImage env.crypto env.target.build bytes = .ok loaded) (hy : m.yielding = some y) :
    LoadsAlike env m bytes img.elf ↔ RefusedAnyway env m y loaded img.elf := by
  constructor
  · intro halike
    by_contra hnot
    simp only [RefusedAnyway, not_or, Bool.not_eq_false, Bool.not_eq_true, ne_eq, not_not]
      at hnot
    obtain ⟨hgate, hcancel, huuid, hmap⟩ := hnot
    obtain ⟨parsed, hparsed, -⟩ := parseElf_inner hmagic hparse hload
    have hsigned := dispatch_loadTa_unmapped hgate hy hcancel hload huuid
      (mapElf_of_rtsg env _ hmagic)
    rcases mapElf_cases env (env.hal.newAddressSpace m.world).1 hparsed with ⟨v, hv⟩ | herr
    · have hreply := halike.reply
      have hinstances := halike.instances
      rw [hsigned] at hreply hinstances
      have hcount := dispatch_loadTa_codes hgate hy hcancel
        (loadImage_inner hmagic hparse hload) huuid hv hreply.symm
      rw [← hinstances] at hcount
      exact absurd hcount (Nat.ne_of_lt (Nat.lt_succ_self _))
    · exact hmap ⟨_, herr⟩
  · intro hrefused
    have heq := dispatch_eq_of_refused hmagic hparse hload hy hrefused
    constructor
    · rw [heq]
    · rw [heq]
    · intro req hreq
      rw [mapRequest_of_rtsg hmagic] at hreq
      cases hreq

/-! ### A signed image

A TA that is not linked in, as a bare header and inside an envelope, on a platform whose
signature check accepts it. -/

def sampleSigner : Env Unit Nat Unit :=
  { sampleEnv with
    crypto :=
      { sha256 := fun _ => List.replicate 32 0
        rsaPkcs1Verify := fun _ _ _ => true } }

def loadedProps : TaProperties := { sampleProps with uuid := ⟨Vector.replicate 16 3⟩ }

def sampleImage : List UInt8 := encodeTaHead loadedProps

def sampleSigned : SignedImage where
  uuid := loadedProps.uuid
  taVersion := 1
  hash := List.replicate 32 0
  sig := [1, 2, 3, 4]
  elf := sampleImage

def sampleEnvelope : List UInt8 :=
  leBytes 4 RTSG_MAGIC ++ leBytes 2 RTSG_ABI ++ leBytes 2 0 ++ sampleSigned.uuid.bytes.toList ++
    leBytes 4 sampleSigned.taVersion.toNat ++ leBytes 4 sampleImage.length ++
    leBytes 2 sampleSigned.hash.length ++ leBytes 2 sampleSigned.sig.length ++
    sampleSigned.hash ++ sampleSigned.sig ++ sampleImage

def sampleWaiting : Machine Unit Nat :=
  (dispatch sampleEnv (openCmd loadedProps.uuid .public) sampleStart).2

theorem sampleEnvelope_loads :
    hasRtsgMagic sampleEnvelope = true ∧ parseRtsg sampleEnvelope = .ok sampleSigned ∧
      loadImage sampleSigner.crypto .debug sampleEnvelope = .ok ⟨loadedProps, none⟩ ∧
      (dispatch sampleSigner (.rpcComplete (.loadTa sampleEnvelope)) sampleWaiting).1 =
        .out (.doneErr TEE_ERROR_BAD_PARAMETERS) ∧
      (dispatch sampleSigner (.rpcComplete (.loadTa sampleImage)) sampleWaiting).1 =
        .out (.done .ok (some 1) noParams) := by
  decide +kernel

theorem signed_loads_alike_iff_refused_sample :
    LoadsAlike sampleSigner sampleWaiting sampleEnvelope sampleImage ↔
      RefusedAnyway sampleSigner sampleWaiting ⟨loadedProps.uuid, .public, noParams, 0, 0⟩
        ⟨loadedProps, none⟩ sampleImage := by
  obtain ⟨hmagic, hparse, hload, -⟩ := sampleEnvelope_loads
  exact signed_loads_alike_iff_refused sampleSigner hmagic hparse hload rfl

/-- The envelope verifies and is refused; the image inside it opens a session. -/
theorem signed_image_refused :
    loadImage sampleSigner.crypto sampleSigner.target.build sampleEnvelope =
        .ok ⟨loadedProps, none⟩ ∧
      parseRtsg sampleEnvelope = .ok sampleSigned ∧
      (dispatch sampleSigner (.rpcComplete (.loadTa sampleEnvelope)) sampleWaiting).1 =
        .out (.doneErr TEE_ERROR_BAD_PARAMETERS) ∧
      (dispatch sampleSigner (.rpcComplete (.loadTa sampleImage)) sampleWaiting).1 =
        .out (.done .ok (some 1) noParams) ∧
      ¬ LoadsAlike sampleSigner sampleWaiting sampleEnvelope sampleImage := by
  obtain ⟨-, hparse, hload, hsigned, hbare⟩ := sampleEnvelope_loads
  refine ⟨hload, hparse, hsigned, hbare, ?_⟩
  intro halike
  have hreply := halike.reply
  rw [hsigned, hbare] at hreply
  exact absurd hreply (by decide)

/-! ### A bare image -/

/-- The bare image of the sample TA, loaded where no signature ever verifies. -/
def sampleLoaded : Machine Unit Nat :=
  (dispatch sampleEnv (.rpcComplete (.loadTa sampleImage)) sampleWaiting).2

def sampleLoading : List (Taken Unit Nat) :=
  [⟨sampleStart, openCmd loadedProps.uuid .public, .rpc (.loadTa loadedProps.uuid),
      sampleWaiting⟩,
    ⟨sampleWaiting, .rpcComplete (.loadTa sampleImage), .done .ok (some 1) noParams,
      sampleLoaded⟩]

theorem sampleLoading_run (ok : Machine Unit Nat → KernelCmd → Prop)
    (h1 : ok sampleStart (openCmd loadedProps.uuid .public))
    (h2 : ok sampleWaiting (.rpcComplete (.loadTa sampleImage))) :
    Run sampleEnv ok sampleStart sampleLoading sampleLoaded :=
  .command (.command .start _ _ h1 (by decide +kernel)) _ _ h2 (by decide +kernel)

/-! ### Whose image it is -/

def headProps (head : List UInt8) : TaProperties where
  uuid := uuidOf ((head.drop 8).take 16)
  stackSize := UInt32.ofNat (leAt head 24 4)
  dataSize := UInt32.ofNat (leAt head 28 4)
  singleInstance := leAt head 32 1 != 0
  multiSession := leAt head 33 1 != 0
  instanceKeepAlive := leAt head 34 1 != 0
  endian := UInt8.ofNat (leAt head 35 1)
  taVersion := UInt32.ofNat (leAt head 36 4)

variable {head : List UInt8}

theorem parseTaHead_of_le (h : 40 ≤ head.length) :
    parseTaHead head =
      if leAt head 0 4 ≠ RTAH_MAGIC ∨ leAt head 4 2 ≠ RTAH_ABI ∨ leAt head 6 2 ≠ RTAH_SIZE then
        .err TEE_ERROR_BAD_PARAMETERS
      else (headProps head).validate >>= fun _ => .ok (headProps head) := by
  have huuid : (slice head 8 24 : Fallible UInt32 _) = .ok ((head.drop 8).take 16) :=
    slice_eq_drop_take (by decide) (Nat.le_trans (by decide) h)
  have hlen : ¬ head.length < RTAH_SIZE := Nat.not_lt.mpr h
  have hsize : (40 : UInt64).toNat ≤ head.length := h
  rw [parseTaHead, if_neg hlen]
  simp (disch := decide) only [readLe_within hsize, huuid, ok_bind]
  rfl

theorem parseTaHead_of_lt (h : head.length < 40) :
    parseTaHead head = .err TEE_ERROR_BAD_PARAMETERS := by
  have hlen : head.length < RTAH_SIZE := h
  rw [parseTaHead, if_pos hlen]

theorem validate_cases (p : TaProperties) :
    p.validate = .ok () ∨ p.validate = .err TEE_ERROR_BAD_PARAMETERS := by
  rw [TaProperties.validate]
  split
  · exact .inr rfl
  split
  · exact .inr rfl
  split
  · exact .inr rfl
  · exact .inl rfl

theorem parseTaHead_cases (head : List UInt8) :
    parseTaHead head = .err TEE_ERROR_BAD_PARAMETERS ∨
      40 ≤ head.length ∧ parseTaHead head = .ok (headProps head) := by
  by_cases hlen : head.length < 40
  · exact .inl (parseTaHead_of_lt hlen)
  · rw [parseTaHead_of_le (Nat.le_of_not_lt hlen)]
    split
    · exact .inl rfl
    · rcases validate_cases (headProps head) with h | h
      · rw [h]
        exact .inr ⟨Nat.le_of_not_lt hlen, rfl⟩
      · rw [h]
        exact .inl rfl

theorem parseTaHead_eq_ok {props : TaProperties} (h : parseTaHead head = .ok props) :
    40 ≤ head.length ∧ props = headProps head := by
  rcases parseTaHead_cases head with herr | ⟨hlen, hok⟩
  · cases herr.symm.trans h
  · exact ⟨hlen, ok.inj (h.symm.trans hok)⟩

def envelopeElfOff (bytes : List UInt8) : Nat := 36 + leAt bytes 32 2 + leAt bytes 34 2

def envelopeAt (bytes : List UInt8) : SignedImage where
  uuid := uuidOf ((bytes.drop 8).take 16)
  taVersion := UInt32.ofNat (leAt bytes 24 4)
  hash := (bytes.drop 36).take (leAt bytes 32 2)
  sig := (bytes.drop (36 + leAt bytes 32 2)).take (leAt bytes 34 2)
  elf := (bytes.drop (envelopeElfOff bytes)).take (leAt bytes 28 4)

/-- The sizes in an envelope are a 32-bit and two 16-bit numbers, so its slices are in
bounds once their end is. -/
theorem parseRtsg_of_le (h : 40 ≤ bytes.length) :
    parseRtsg bytes =
      if leAt bytes 0 4 ≠ RTSG_MAGIC ∨ leAt bytes 4 2 ≠ RTSG_ABI then .err TEE_ERROR_SECURITY
      else if bytes.length < envelopeElfOff bytes + leAt bytes 28 4 then
        .err TEE_ERROR_BAD_PARAMETERS
      else .ok (envelopeAt bytes) := by
  have huuid : (slice bytes 8 24 : Fallible UInt32 _) = .ok ((bytes.drop 8).take 16) :=
    slice_eq_drop_take (by decide) (Nat.le_trans (by decide) h)
  have himg : leAt bytes 28 4 < 2 ^ 32 := leAt_lt bytes 28 4
  have hhash : leAt bytes 32 2 < 2 ^ 16 := leAt_lt bytes 32 2
  have hsig : leAt bytes 34 2 < 2 ^ 16 := leAt_lt bytes 34 2
  have hslice : ∀ lo n : Nat, lo + n < 2 ^ 64 → lo + n ≤ bytes.length →
      (slice bytes (UInt64.ofNat lo) (UInt64.ofNat (lo + n)) : Fallible UInt32 _) =
        .ok ((bytes.drop lo).take n) := by
    intro lo n hfits hin
    have hlo : (UInt64.ofNat lo).toNat = lo := toNat_ofNat_of_lt (by omega)
    have hhi : (UInt64.ofNat (lo + n)).toNat = lo + n := toNat_ofNat_of_lt hfits
    rw [slice_eq_drop_take (by omega) (by omega), hlo, hhi, Nat.add_sub_cancel_left]
  have hsize : (40 : UInt64).toNat ≤ bytes.length := h
  rw [parseRtsg, if_neg (Nat.not_lt.mpr h)]
  simp (disch := decide) only [readLe_within hsize, huuid, ok_bind, UInt64.reduceToNat,
    Nat.reduceSub]
  split
  · rfl
  · by_cases hin : bytes.length < envelopeElfOff bytes + leAt bytes 28 4
    · rw [if_pos hin]
      exact if_pos hin
    · rw [if_neg hin]
      refine (if_neg hin).trans ?_
      rw [envelopeElfOff] at hin
      have hfirst : (slice bytes 36 (UInt64.ofNat (36 + leAt bytes 32 2)) :
          Fallible UInt32 _) = .ok ((bytes.drop 36).take (leAt bytes 32 2)) :=
        hslice 36 _ (by omega) (by omega)
      rw [hfirst, hslice _ _ (by omega) (by omega), hslice _ _ (by omega) (by omega)]
      rfl

theorem parseRtsg_of_lt (h : bytes.length < 40) :
    parseRtsg bytes = .err TEE_ERROR_BAD_PARAMETERS := by
  rw [parseRtsg, if_pos h]

theorem parseRtsg_cases (bytes : List UInt8) :
    (∃ code, code ≠ TEE_SUCCESS ∧ parseRtsg bytes = .err code) ∨
      40 ≤ bytes.length ∧ envelopeElfOff bytes + leAt bytes 28 4 ≤ bytes.length ∧
        parseRtsg bytes = .ok (envelopeAt bytes) := by
  by_cases hlen : bytes.length < 40
  · exact .inl ⟨_, by decide, parseRtsg_of_lt hlen⟩
  · rw [parseRtsg_of_le (Nat.le_of_not_lt hlen)]
    split
    · exact .inl ⟨_, by decide, rfl⟩
    · split
      · exact .inl ⟨_, by decide, rfl⟩
      · rename_i hin
        exact .inr ⟨Nat.le_of_not_lt hlen, Nat.le_of_not_lt hin, rfl⟩

theorem parseRtsg_eq_ok (h : parseRtsg bytes = .ok img) :
    40 ≤ bytes.length ∧ envelopeElfOff bytes + leAt bytes 28 4 ≤ bytes.length ∧
      img = envelopeAt bytes := by
  rcases parseRtsg_cases bytes with ⟨_, -, herr⟩ | ⟨hlen, hin, hok⟩
  · cases herr.symm.trans h
  · exact ⟨hlen, hin, ok.inj (h.symm.trans hok)⟩

theorem uuidOf_inj {xs ys : List UInt8} (hx : xs.length = 16) (hy : ys.length = 16) :
    uuidOf xs = uuidOf ys ↔ xs = ys := by
  constructor
  · intro h
    have hbytes : Vector.ofFn (fun i : Fin 16 => xs.getD i.val 0) =
        Vector.ofFn fun i : Fin 16 => ys.getD i.val 0 := congrArg Uuid.bytes h
    apply List.ext_getElem (hx.trans hy.symm)
    intro k hkx hky
    have hk : k < 16 := by omega
    have hget := congrArg (fun v : Vector UInt8 16 => v[k]) hbytes
    simpa [hkx, hky] using hget
  · rintro rfl
    rfl

theorem ofNat_leNat_inj {xs ys : List UInt8} (hx : xs.length = 4) (hy : ys.length = 4) :
    UInt32.ofNat (leNat xs) = UInt32.ofNat (leNat ys) ↔ xs = ys := by
  constructor
  · intro h
    have hlt : ∀ zs : List UInt8, zs.length = 4 → leNat zs < 2 ^ 32 := by
      intro zs hz
      have := leNat_lt zs
      rw [hz] at this
      exact this
    have hnat := congrArg UInt32.toNat h
    rw [UInt32.toNat_ofNat', UInt32.toNat_ofNat', Nat.mod_eq_of_lt (hlt xs hx),
      Nat.mod_eq_of_lt (hlt ys hy)] at hnat
    exact leNat_inj (hx.trans hy.symm) hnat
  · rintro rfl
    rfl

/-- The 20 bytes of identity in the envelope, UUID and version, are those of the header
record in the image it carries. -/
def IdentityBytesAgree (build : Build) (bytes : List UInt8) : Prop :=
  ∃ img head, parseRtsg bytes = .ok img ∧ findTaHead build img.elf = .ok head ∧
    (head.drop 8).take 16 = (bytes.drop 8).take 16 ∧
    (head.drop 36).take 4 = (bytes.drop 24).take 4

/-- What `load_image` makes of an accepted envelope has the identity the envelope was signed
for if and only if the identity bytes agree. -/
theorem loaded_identity_signed_iff {crypto : CryptoProvider} {img : SignedImage}
    {loaded : Loaded} (hmagic : hasRtsgMagic bytes = true) (hparse : parseRtsg bytes = .ok img)
    (hload : loadImage crypto build bytes = .ok loaded) :
    (loaded.props.uuid = img.uuid ∧ loaded.props.taVersion = img.taVersion) ↔
      IdentityBytesAgree build bytes := by
  obtain ⟨parsed, hparsed, rfl⟩ := parseElf_inner hmagic hparse hload
  obtain ⟨head, hhead, hrest⟩ := bind_eq_ok.mp hparsed
  obtain ⟨props, hprops, hrest⟩ := bind_eq_ok.mp hrest
  have hsame : parsed.props = props := by
    split at hrest
    · rw [← ok.inj hrest]
    · obtain ⟨segs, -, hrest⟩ := bind_eq_ok.mp hrest
      obtain ⟨symbols, -, hrest⟩ := bind_eq_ok.mp hrest
      rw [← ok.inj hrest]
  obtain ⟨hlen, rfl⟩ := parseTaHead_eq_ok hprops
  obtain ⟨hlen', -, himg⟩ := parseRtsg_eq_ok hparse
  have hu : parsed.props.uuid = img.uuid ↔ (head.drop 8).take 16 = (bytes.drop 8).take 16 := by
    rw [hsame, himg]
    exact uuidOf_inj (length_field (by omega)) (length_field (by omega))
  have hv : parsed.props.taVersion = img.taVersion ↔
      (head.drop 36).take 4 = (bytes.drop 24).take 4 := by
    rw [hsame, himg]
    exact ofNat_leNat_inj (length_field (by omega)) (length_field (by omega))
  rw [hu, hv]
  constructor
  · rintro ⟨hu, hv⟩
    exact ⟨img, head, hparse, hhead, hu, hv⟩
  · rintro ⟨img', head', hparse', hhead', hu, hv⟩
    cases hparse.symm.trans hparse'
    cases hhead.symm.trans hhead'
    exact ⟨hu, hv⟩

theorem loaded_identity_signed_iff_sample :
    (loadedProps.uuid = sampleSigned.uuid ∧ loadedProps.taVersion = sampleSigned.taVersion) ↔
      IdentityBytesAgree .debug sampleEnvelope := by
  obtain ⟨hmagic, hparse, hload, -⟩ := sampleEnvelope_loads
  exact loaded_identity_signed_iff hmagic hparse hload

/-- The same image in an envelope made out to another TA and another version. -/
def otherEnvelope : List UInt8 :=
  leBytes 4 RTSG_MAGIC ++ leBytes 2 RTSG_ABI ++ leBytes 2 0 ++ List.replicate 16 9 ++
    leBytes 4 2 ++ leBytes 4 sampleImage.length ++ leBytes 2 sampleSigned.hash.length ++
    leBytes 2 sampleSigned.sig.length ++ sampleSigned.hash ++ sampleSigned.sig ++ sampleImage

/-- It is signed as version 2 of one TA and loaded as version 1 of another. -/
theorem signed_identity_not_loaded :
    parseRtsg otherEnvelope =
        .ok { sampleSigned with uuid := ⟨Vector.replicate 16 9⟩, taVersion := 2 } ∧
      loadImage sampleSigner.crypto .debug otherEnvelope = .ok ⟨loadedProps, none⟩ ∧
      loadedProps.uuid ≠ ⟨Vector.replicate 16 9⟩ ∧ loadedProps.taVersion ≠ 2 := by
  refine ⟨by decide +kernel, by decide +kernel, by decide, by decide⟩

end Rustee.Os
