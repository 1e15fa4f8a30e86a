import Rustee.OsMemoryImage
import Rustee.OsProvenance
import Rustee.OsWorld

/-!
# Where the kernel enters a TA

`map_elf` binds an entry point to the value of its symbol, moved as the image was moved. The values
come from the symbol tables and the image from the program headers, and nothing compares the two:
an entry point is an address of the image exactly when its symbol has a value in the range of the
segments. The kernel enters TA code at entry points only, so a run whose images all have their
symbols there stays inside them.
-/

namespace Rustee.Os

open List

variable {σ A S : Type} {env : Env σ A S} {m m₀ : Machine σ A} {bytes : List UInt8}

/-! ### One image -/

def TaEntryPoints.addresses (ep : TaEntryPoints) : List UInt64 :=
  [ep.create, ep.destroy, ep.openSession, ep.closeSession, ep.invoke]

/-- The address of one of the `span` bytes mapped at `mapped`. -/
def InsideImage (mapped : VirtAddr) (span : Nat) (addr : UInt64) : Prop :=
  ∃ i < span, addr = mapped + UInt64.ofNat i

/-- On an image that ends below the top of the address space this is
`[mapped, mapped + span)`. -/
theorem insideImage_iff {mapped : VirtAddr} {span : Nat} (h : mapped.toNat + span ≤ 2 ^ 64)
    (addr : UInt64) :
    InsideImage mapped span addr ↔
      mapped.toNat ≤ addr.toNat ∧ addr.toNat < mapped.toNat + span := by
  constructor
  · rintro ⟨i, hi, rfl⟩
    rw [UInt64.toNat_add, UInt64.toNat_ofNat', Nat.mod_eq_of_lt (show i < 2 ^ 64 by omega),
      Nat.mod_eq_of_lt (by omega)]
    omega
  · rintro ⟨hlo, hhi⟩
    refine ⟨addr.toNat - mapped.toNat, by omega, UInt64.toNat_inj.mp ?_⟩
    have haddr := addr.toNat_lt
    rw [UInt64.toNat_add, UInt64.toNat_ofNat', Nat.mod_eq_of_lt (by omega),
      Nat.mod_eq_of_lt (by omega)]
    omega

/-- A value keeps its place in the image when both are moved by the same slide. -/
theorem insideImage_slide (mapped va v : UInt64) (span : Nat) :
    InsideImage mapped span (v + (mapped - va)) ↔ InsideImage va span v := by
  have hmove : ∀ x : UInt64, mapped + x = va + x + (mapped - va) := by
    intro x
    calc mapped + x = mapped - va + va + x := by rw [UInt64.sub_add_cancel]
      _ = va + x + (mapped - va) := by rw [UInt64.add_assoc, UInt64.add_comm]
  simp only [InsideImage, hmove, UInt64.add_left_inj]

/-- The entry points are addresses of the image that `map_elf` mapped. -/
def EntriesInImage (env : Env σ A S) (aspace : A) (bytes : List UInt8) (ep : TaEntryPoints) :
    Prop :=
  ∃ call ∈ (mapElfIn env.recording (aspace, []) bytes).2.2, ∃ mapped, call.result = .ok mapped ∧
    ∀ addr ∈ ep.addresses, InsideImage mapped call.blob.length addr

/-- The five symbols have values between the lowest start and the highest end of the
segments. -/
def SymbolsInSpan (bytes : List UInt8) : Prop :=
  ∀ name ∈ TA_NAMES,
    (∃ s ∈ loadSegs bytes, s.va.toNat ≤ (symbolValue bytes name).toNat) ∧
      ∃ s ∈ loadSegs bytes, (symbolValue bytes name).toNat < s.cutTop

variable {ep : TaEntryPoints}

theorem bindSymbols_eq_some {aarch64 : Bool} {symbols : Option TaSymbols} {slide : UInt64}
    (h : bindSymbols aarch64 symbols slide = some ep) :
    ∃ s, symbols = some s ∧
      ep.addresses = [s.create, s.destroy, s.openSession, s.closeSession, s.invoke].map
        (· + slide) := by
  cases symbols with
  | none => cases h
  | some s =>
    cases aarch64 with
    | false => cases h
    | true =>
      cases h
      exact ⟨s, rfl, rfl⟩

theorem mapRequest_parsed {build : Build} {req : MapRequest}
    (h : mapRequest build bytes = .ok req) :
    ∃ img, parseElf build bytes = .ok img ∧ req.symbols = img.symbols := by
  rw [mapRequest] at h
  obtain ⟨img, himg, h⟩ := Fallible.bind_eq_ok.mp h
  refine ⟨img, himg, ?_⟩
  cases hcases : img.segs with
  | nil =>
    rw [hcases] at h
    cases h
    rfl
  | cons =>
    rw [hcases] at h
    dsimp only at h
    split at h
    · cases h
    · split at h
      · cases h
      · obtain ⟨blob, -, h⟩ := Fallible.bind_eq_ok.mp h
        cases h
        rfl

theorem mapRequest_symbols {build : Build} {req : MapRequest} {s : TaSymbols}
    (hlen : bytes.length < 2 ^ 63) (h : mapRequest build bytes = .ok req)
    (hs : req.symbols = some s) :
    isElf bytes = true ∧ DefinesEntryPoints bytes ∧ s = entrySymbols bytes := by
  obtain ⟨img, himg, hsymbols⟩ := mapRequest_parsed h
  exact ((parseElf_eq_ok hlen himg).2 s).mp (hsymbols.symm.trans hs)

/-- An accepted image with entry points: they are the five symbols, moved. -/
theorem mapElf_entries {aspace aspace' : A} (hlen : bytes.length < 2 ^ 63)
    (h : mapElf env aspace bytes = .ok (some ep, aspace')) :
    isElf bytes = true ∧ DefinesEntryPoints bytes ∧
      ((loadSegs bytes = [] ∧ (mapElfIn env.recording (aspace, []) bytes).2.2 = []) ∨
        ∃ va blob mapped, ImageOf bytes LoadSeg.cutTop va blob ∧
          (mapElfIn env.recording (aspace, []) bytes).2.2 = [⟨va, blob, .ok mapped⟩] ∧
          ep.addresses = TA_NAMES.map fun name => symbolValue bytes name + (mapped - va)) := by
  rw [mapElf_eq] at h
  obtain ⟨⟨symbols, load⟩, hreq, h⟩ := Fallible.bind_eq_ok.mp h
  cases load with
  | none =>
    obtain ⟨s, hs, -⟩ := bindSymbols_eq_some (congrArg Prod.fst (Fallible.ok.inj h))
    obtain ⟨helf, hdef, -⟩ := mapRequest_symbols hlen hreq hs
    refine ⟨helf, hdef, .inl ⟨?_, ?_⟩⟩
    · by_contra hsegs
      exact mapRequest_load_ne_none hlen hreq helf hsegs rfl
    · have htarget : env.recording.target = env.target := rfl
      rw [mapElfIn, htarget, hreq]
  | some load =>
    obtain ⟨va, blob⟩ := load
    rw [mapRequested] at h
    dsimp only at h
    rw [mapElfIn_of_load env aspace hreq]
    rcases hmap : env.hal.mapImage aspace va blob Perms.RX with ⟨e | mapped, a⟩
    · rw [hmap] at h
      cases h
    · rw [hmap] at h
      obtain ⟨s, hs, hep⟩ := bindSymbols_eq_some (congrArg Prod.fst (Fallible.ok.inj h))
      obtain ⟨helf, hdef, rfl⟩ := mapRequest_symbols hlen hreq hs
      exact ⟨helf, hdef, .inr ⟨va, blob, mapped, (mapRequest_load hlen hreq rfl).2, rfl, hep⟩⟩

theorem ImageOf.inside_iff {va : VirtAddr} {blob : List UInt8}
    (h : ImageOf bytes LoadSeg.cutTop va blob) (v : UInt64) :
    InsideImage va blob.length v ↔
      (∃ s ∈ loadSegs bytes, s.va.toNat ≤ v.toNat) ∧ ∃ s ∈ loadSegs bytes, v.toNat < s.cutTop := by
  obtain ⟨first, hfirst, hva⟩ := h.lowest.1
  obtain ⟨last, hlast, htop⟩ := h.highest.1
  have hcut : last.cutTop ≤ 2 ^ 64 - 1 := min_le_right _ _
  rw [insideImage_iff (by omega)]
  constructor
  · rintro ⟨hlo, hhi⟩
    exact ⟨⟨first, hfirst, by omega⟩, last, hlast, by omega⟩
  · rintro ⟨⟨s, hs, hlo⟩, t, ht, hhi⟩
    have hleast : va.toNat ≤ s.va.toNat := h.lowest.2 ⟨s, hs, rfl⟩
    have hgreatest : t.cutTop ≤ va.toNat + blob.length := h.highest.2 ⟨t, ht, rfl⟩
    omega

theorem entriesInImage_iff {aspace aspace' : A}
    (hlen : bytes.length < 2 ^ 63) (h : mapElf env aspace bytes = .ok (some ep, aspace')) :
    EntriesInImage env aspace bytes ep ↔ SymbolsInSpan bytes := by
  obtain ⟨-, -, ⟨hsegs, hcalls⟩ | ⟨va, blob, mapped, himage, hcalls, hep⟩⟩ := mapElf_entries hlen h
  · -- no segment, no image: no address is inside, and no value is in range
    rw [EntriesInImage, hcalls]
    constructor
    · rintro ⟨call, hcall, -⟩
      cases hcall
    · intro hspan
      obtain ⟨⟨s, hs, -⟩, -⟩ := hspan TA_CREATE mem_cons_self
      rw [hsegs] at hs
      cases hs
  · rw [EntriesInImage, hcalls]
    constructor
    · rintro ⟨call, hcall, mapped', hresult, hall⟩ name hname
      cases mem_singleton.mp hcall
      cases hresult
      rw [hep] at hall
      rw [← himage.inside_iff, ← insideImage_slide mapped]
      exact hall _ (mem_map_of_mem hname)
    · intro hspan
      refine ⟨_, mem_singleton_self _, mapped, rfl, fun addr haddr => ?_⟩
      rw [hep] at haddr
      obtain ⟨name, hname, rfl⟩ := mem_map.mp haddr
      rw [insideImage_slide, himage.inside_iff]
      exact hspan name hname

/-! ### The addresses that are called -/

/-- A part of the world that lists the addresses at which TA code was entered. -/
structure CallTrace (env : Env σ A S) where
  addresses : σ → List UInt64
  newAddressSpace : ∀ w, addresses (env.hal.newAddressSpace w).2 = addresses w
  lookupShmMut : ∀ w cookie shm put, env.hal.lookupShmMut w cookie = some (shm, put) →
    ∀ shm', addresses (put shm') = addresses w
  dropAll : ∀ aspace w, addresses (env.hal.dropAll aspace w) = addresses w
  create : ∀ addr w, addresses (env.ta.create addr w).2 = addresses w ++ [addr]
  destroy : ∀ addr w, addresses (env.ta.destroy addr w).2 = addresses w ++ [addr]
  openSession : ∀ addr types raw ctx w,
    addresses (env.ta.openSession addr types raw ctx w).2 = addresses w ++ [addr]
  closeSession : ∀ addr ctx w,
    addresses (env.ta.closeSession addr ctx w).2 = addresses w ++ [addr]
  invoke : ∀ addr ctx cmdId types raw w,
    addresses (env.ta.invoke addr ctx cmdId types raw w).2 = addresses w ++ [addr]
  ptaOpen : ∀ pta params w, addresses (env.pta.open_ pta params w).2 = addresses w
  ptaInvoke : ∀ pta ctx cmd params w,
    addresses (env.pta.invoke pta ctx cmd params w).2 = addresses w
  ptaClose : ∀ pta ctx w, addresses (env.pta.close pta ctx w).2 = addresses w

def Env.traced (env : Env σ A S) : Env (σ × List UInt64) A S where
  hal :=
    { env.hal with
      entropyOrigin := fun w => env.hal.entropyOrigin w.1
      newAddressSpace := fun w =>
        ((env.hal.newAddressSpace w.1).1, (env.hal.newAddressSpace w.1).2, w.2)
      lookupShm := fun w => env.hal.lookupShm w.1
      lookupShmMut := fun w cookie =>
        (env.hal.lookupShmMut w.1 cookie).map fun found =>
          (found.1, fun shm => (found.2 shm, w.2))
      dropAll := fun aspace w => (env.hal.dropAll aspace w.1, w.2) }
  ta :=
    { create := fun addr w =>
        ((env.ta.create addr w.1).1, (env.ta.create addr w.1).2, w.2 ++ [addr])
      destroy := fun addr w =>
        ((env.ta.destroy addr w.1).1, (env.ta.destroy addr w.1).2, w.2 ++ [addr])
      openSession := fun addr types raw ctx w =>
        ((env.ta.openSession addr types raw ctx w.1).1,
          (env.ta.openSession addr types raw ctx w.1).2, w.2 ++ [addr])
      closeSession := fun addr ctx w =>
        ((env.ta.closeSession addr ctx w.1).1, (env.ta.closeSession addr ctx w.1).2,
          w.2 ++ [addr])
      invoke := fun addr ctx cmdId types raw w =>
        ((env.ta.invoke addr ctx cmdId types raw w.1).1,
          (env.ta.invoke addr ctx cmdId types raw w.1).2, w.2 ++ [addr]) }
  pta :=
    { open_ := fun pta params w =>
        ((env.pta.open_ pta params w.1).1, (env.pta.open_ pta params w.1).2, w.2)
      invoke := fun pta ctx cmd params w =>
        ((env.pta.invoke pta ctx cmd params w.1).1,
          (env.pta.invoke pta ctx cmd params w.1).2, w.2)
      close := fun pta ctx w =>
        ((env.pta.close pta ctx w.1).1, (env.pta.close pta ctx w.1).2, w.2) }
  crypto := env.crypto
  target := env.target

/-- So nothing has to be assumed of an environment to speak about the calls into it. -/
def Env.callTrace (env : Env σ A S) : CallTrace env.traced where
  addresses w := w.2
  newAddressSpace _ := rfl
  lookupShmMut := by
    intro w cookie shm put h shm'
    obtain ⟨found, -, heq⟩ := Option.map_eq_some_iff.mp h
    cases heq
    rfl
  dropAll _ _ := rfl
  create _ _ := rfl
  destroy _ _ := rfl
  openSession _ _ _ _ _ := rfl
  closeSession _ _ _ := rfl
  invoke _ _ _ _ _ _ := rfl
  ptaOpen _ _ _ := rfl
  ptaInvoke _ _ _ _ _ := rfl
  ptaClose _ _ _ := rfl

/-- Only addresses in `P` were called. -/
def CallTrace.frame (t : CallTrace env) (P : UInt64 → Prop) : Frame σ where
  rel w w' := ∃ called, t.addresses w' = t.addresses w ++ called ∧ ∀ addr ∈ called, P addr
  refl w := ⟨[], by simp, by simp⟩
  trans := by
    rintro a b c ⟨called, hab, hcalled⟩ ⟨called', hbc, hcalled'⟩
    refine ⟨called ++ called', by rw [hbc, hab, append_assoc], fun addr haddr => ?_⟩
    rcases mem_append.mp haddr with h | h
    · exact hcalled addr h
    · exact hcalled' addr h

section Trace

variable (t : CallTrace env) {P : UInt64 → Prop} {w w' : σ}

theorem CallTrace.quiet (h : t.addresses w' = t.addresses w) : (t.frame P).rel w w' :=
  ⟨[], by rw [h, append_nil], by simp⟩

theorem CallTrace.enters {addr : UInt64} (h : t.addresses w' = t.addresses w ++ [addr])
    (hP : P addr) : (t.frame P).rel w w' := by
  refine ⟨[addr], h, fun a ha => ?_⟩
  cases mem_singleton.mp ha
  exact hP

theorem CallTrace.reaches :
    Reaches env (t.frame P) (fun _ => True) fun ep => ∀ addr ∈ ep.addresses, P addr where
  newSpace w := t.quiet (t.newAddressSpace w)
  syncIn cookie dir w := by
    apply t.quiet
    rw [syncInParam]
    split
    · rfl
    · split
      · rfl
      · rename_i shm put hfound
        split
        · exact t.lookupShmMut w cookie shm put hfound _
        · exact t.lookupShmMut w cookie shm put hfound _
  syncOut cookie dir w := by
    apply t.quiet
    rw [syncOutParam]
    split
    · rfl
    · split
      · rfl
      · rename_i shm put hfound
        exact t.lookupShmMut w cookie shm put hfound _
  dropAll aspace w := t.quiet (t.dropAll aspace w)
  create ep hep w := t.enters (t.create _ w) (hep _ (by simp [TaEntryPoints.addresses]))
  destroy ep hep w := t.enters (t.destroy _ w) (hep _ (by simp [TaEntryPoints.addresses]))
  openSession _ _ ep hep w :=
    t.enters (t.openSession _ _ _ _ w) (hep _ (by simp [TaEntryPoints.addresses]))
  closeSession ep hep ctx w :=
    t.enters (t.closeSession _ ctx w) (hep _ (by simp [TaEntryPoints.addresses]))
  invoke _ _ ep hep ctx cmdId w :=
    t.enters (t.invoke _ ctx cmdId _ _ w) (hep _ (by simp [TaEntryPoints.addresses]))
  ptaOpen pta params w := t.quiet (t.ptaOpen pta params w)
  ptaInvoke pta ctx cmd params w := t.quiet (t.ptaInvoke pta ctx cmd params w)
  ptaClose pta ctx w := t.quiet (t.ptaClose pta ctx w)

end Trace

/-! ### Whole runs -/

/-- The entry points of an instance that the command stored, inside the image it was
stored with; an early TA is part of the kernel. -/
inductive OwnCode (env : Env σ A S) (m : Machine σ A) : KernelCmd → TaEntryPoints → Prop
  | early (uuid : Uuid) (login : Login) (params : Params) (cancelId timeoutMs : UInt32)
      (ta : EarlyTa) (ep : TaEntryPoints) (hta : EarlyTas.get m.early uuid = some ta)
      (hep : ta.entries = some ep) :
      OwnCode env m (.openSession uuid login params cancelId timeoutMs) ep
  | loaded (bytes : List UInt8) (aspace aspace' : A) (ep : TaEntryPoints)
      (hmap : mapElf env aspace bytes = .ok (some ep, aspace'))
      (hin : EntriesInImage env aspace bytes ep) :
      OwnCode env m (.rpcComplete (.loadTa bytes)) ep

/-- If the command brings an image that defines entry points, they are in range. -/
def InRange (cmd : KernelCmd) : Prop :=
  ∀ bytes, cmd = .rpcComplete (.loadTa bytes) → bytes.length < 2 ^ 63 ∧
    (isElf bytes = true → DefinesEntryPoints bytes → SymbolsInSpan bytes)

theorem Creates.ownCode {cmd : KernelCmd} {i : Instance A}
    (h : Creates env m cmd i) (hcmd : InRange cmd) (hep : i.entries = some ep) :
    OwnCode env m cmd ep := by
  cases h with
  | early uuid login params cancelId timeoutMs ta a hta =>
    exact .early uuid login params cancelId timeoutMs ta ep hta hep
  | loaded bytes y loaded a a' entries _ _ _ hmap =>
    obtain ⟨hlen, hspan⟩ := hcmd bytes rfl
    cases (show entries = some ep from hep)
    obtain ⟨helf, hdef, -⟩ := mapElf_entries hlen hmap
    exact .loaded bytes a a' ep hmap ((entriesInImage_iff hlen hmap).mpr (hspan helf hdef))

theorem Run.ownCode {ok : Machine σ A → KernelCmd → Prop} {steps : List (Taken σ A)}
    (hboot : Booted env m₀) (hrun : Run env ok m₀ steps m)
    (hrange : ∀ step ∈ steps, InRange step.cmd) {i : Instance A} (hi : i ∈ m.instances.entries)
    (hep : i.entries = some ep) :
    ∃ step ∈ steps, Stores env step i ∧ OwnCode env step.before step.cmd ep := by
  obtain ⟨step, hstep, hstores⟩ := hrun.stored hboot.noInstances i hi
  obtain ⟨j, hcreates, -, -, hentries⟩ := hstores.stored
  exact ⟨step, hstep, hstores, hcreates.ownCode (hrange step hstep) (hentries.trans hep)⟩

/-- For every image that is accepted with entry points, whatever address it is mapped at:
they are addresses of the image exactly when the symbols have values in the range of
the segments. In every run whose images all do, the entry points of every instance
are addresses of the image it was loaded from, or of an early TA, and a command calls
no other address. -/
theorem entry_points_in_image_iff (env : Env σ A S) (t : CallTrace env) :
    (∀ (aspace aspace' : A) (bytes : List UInt8) (ep : TaEntryPoints), bytes.length < 2 ^ 63 →
      mapElf env aspace bytes = .ok (some ep, aspace') →
        (EntriesInImage env aspace bytes ep ↔ SymbolsInSpan bytes)) ∧
    ∀ (ok : Machine σ A → KernelCmd → Prop) (m₀ m : Machine σ A) (steps : List (Taken σ A)),
      Booted env m₀ → Run env ok m₀ steps m → (∀ step ∈ steps, InRange step.cmd) →
        (∀ i ∈ m.instances.entries, ∀ ep, i.entries = some ep →
          ∃ step ∈ steps, Stores env step i ∧ OwnCode env step.before step.cmd ep) ∧
        ∀ cmd, InRange cmd →
          ∃ called, t.addresses (dispatch env cmd m).2.world = t.addresses m.world ++ called ∧
            ∀ addr ∈ called, ∃ ep, addr ∈ ep.addresses ∧
              (OwnCode env m cmd ep ∨ ∃ step ∈ steps, OwnCode env step.before step.cmd ep) := by
  refine ⟨fun aspace aspace' bytes ep hlen h => entriesInImage_iff hlen h, ?_⟩
  intro ok m₀ m steps hboot hrun hrange
  refine ⟨fun i hi ep hep => hrun.ownCode hboot hrange hi hep, fun cmd hcmd => ?_⟩
  have hbound : BoundTo (fun ep => ∀ addr ∈ ep.addresses, ∃ ep', addr ∈ ep'.addresses ∧
      (OwnCode env m cmd ep' ∨ ∃ step ∈ steps, OwnCode env step.before step.cmd ep')) m := by
    intro i hi ep hep addr haddr
    obtain ⟨step, hstep, -, hown⟩ := hrun.ownCode hboot hrange hi hep
    exact ⟨ep, haddr, .inr ⟨step, hstep, hown⟩⟩
  refine (t.reaches.dispatch (fun _ _ => trivial) ?_ hbound).1
  intro i hi ep hep addr haddr
  exact ⟨ep, haddr, .inl (hi.ownCode hcmd hep)⟩

theorem entry_points_in_image_iff_sample :
    ∃ ep aspace', mapElf sampleSigner.traced 0 (sampleElf 0x10000 8 16 0x10004) =
        .ok (some ep, aspace') ∧
      EntriesInImage sampleSigner.traced 0 (sampleElf 0x10000 8 16 0x10004) ep := by
  have hmap : mapElf sampleSigner.traced 0 (sampleElf 0x10000 8 16 0x10004) =
      .ok (some ⟨0x10004, 0x10004, 0x10004, 0x10004, 0x10004⟩, 0) := by
    have hreq : mapRequest sampleSigner.traced.target.build (sampleElf 0x10000 8 16 0x10004) =
      _ := sampleElf_request
    rw [mapElf_eq, hreq]
    rfl
  refine ⟨_, _, hmap, ((entry_points_in_image_iff _ sampleSigner.callTrace).1 _ _ _ _
    sampleElf_lt hmap).mpr ?_⟩
  have hsymbols := (mapRequest_symbols sampleElf_lt sampleElf_request rfl).2.2
  have hvalue : ∀ name ∈ TA_NAMES,
      symbolValue (sampleElf 0x10000 8 16 0x10004) name = 0x10004 := by
    simp only [TA_NAMES, forall_mem_cons, not_mem_nil, false_implies, implies_true,
      and_true]
    rw [entrySymbols] at hsymbols
    obtain ⟨hcreate, hdestroy, hopen, hclose, hinvoke⟩ := TaSymbols.mk.inj hsymbols
    exact ⟨hcreate.symm, hdestroy.symm, hopen.symm, hclose.symm, hinvoke.symm⟩
  intro name hname
  rw [hvalue name hname, sampleElf_segs.2]
  simp only [mem_singleton, exists_eq_left]
  decide

def strayElf : List UInt8 := sampleElf 0x10000 8 16 0x90000

def strayWaiting : Machine (Unit × List UInt64) Nat :=
  (dispatch sampleEnv.traced (openCmd loadedProps.uuid .public)
    (Machine.new sampleEnv.traced ((), []))).2

theorem kernel_calls_outside_image :
    (mapElfIn sampleEnv.traced.recording (0, []) strayElf).2.2.map
        (fun call => (call.va, call.blob.length, call.result.toOption)) =
          [(0x10000, 16, some 0x10000)] ∧
      (dispatch sampleEnv.traced (.rpcComplete (.loadTa strayElf)) strayWaiting).2.world.2 =
        [0x90000, 0x90000] ∧ ¬ InsideImage 0x10000 16 0x90000 := by
  rw [← and_assoc]
  refine ⟨by decide +kernel, fun hin => ?_⟩
  exact absurd ((insideImage_iff (by decide) _).mp hin) (by decide)

end Rustee.Os
