import Mathlib.Order.Bounds.Basic
import Rustee.OsImageBounds
import Rustee.Overlay

/-!
# The memory image of a TA

`map_elf` lays the file parts of the PT_LOAD segments over a zeroed block that spans them all, later
segments over earlier ones, and maps it with one call. The end of a segment saturates at the top
of the address space, so the block is shorter than the segments ask for when one of them would
reach past it.
-/

namespace Rustee.Os

open Fallible List LoadSeg

variable {σ A S : Type} {env : Env σ A S} {build : Build} {bytes : List UInt8} {lo : UInt64}

/-! ### The copy loop -/

def LoadSeg.copied (s : LoadSeg) : Nat := min s.fileSize.toNat s.memSize.toNat

/-- The file part `[va - lo, va - lo + min(filesz, memsz))` contains the offset. -/
def LoadSeg.holds (lo : UInt64) (x : Nat) (s : LoadSeg) : Bool :=
  s.va.toNat - lo.toNat ≤ x && x < s.va.toNat - lo.toNat + s.copied

def LoadSeg.patch (bytes : List UInt8) (lo : UInt64) (s : LoadSeg) : Patch UInt8 where
  off := s.va.toNat - lo.toNat
  data := (bytes.drop s.fileOff.toNat).take s.copied

def lastHolding (segs : List LoadSeg) (lo : UInt64) (x : Nat) : Option LoadSeg :=
  (segs.filter fun s => s.holds lo x).getLast?

theorem toNat_min (a b : UInt64) : (min a b).toNat = min a.toNat b.toNat := by
  change (if a ≤ b then a else b).toNat = min a.toNat b.toNat
  by_cases h : a ≤ b
  · rw [if_pos h, min_eq_left (UInt64.le_iff_toNat_le.mp h)]
  · rw [if_neg h, min_eq_right]
    exact Nat.le_of_not_le fun hle => h (UInt64.le_iff_toNat_le.mpr hle)

theorem toNat_max (a b : UInt64) : (max a b).toNat = max a.toNat b.toNat := by
  change (if a ≤ b then b else a).toNat = max a.toNat b.toNat
  by_cases h : a ≤ b
  · rw [if_pos h, max_eq_right (UInt64.le_iff_toNat_le.mp h)]
  · rw [if_neg h, max_eq_left]
    exact Nat.le_of_not_le fun hle => h (UInt64.le_iff_toNat_le.mpr hle)

variable {blob : List UInt8}

/-- The loop lays the patches in header order, each inside the file and the block. -/
theorem copySegs_eq_ok (hlen : bytes.length < 2 ^ 63) {segs : List LoadSeg}
    {blob' : List UInt8} (hlo : ∀ s ∈ segs, lo ≤ s.va)
    (h : copySegs bytes lo segs blob = .ok blob') :
    blob' = Patch.applyAll blob (segs.map (patch bytes lo)) ∧
      ∀ s ∈ segs, s.fileOff.toNat + s.copied ≤ bytes.length ∧
        s.va.toNat - lo.toNat + s.copied ≤ blob.length := by
  induction segs generalizing blob with
  | nil =>
    cases h
    exact ⟨rfl, by simp⟩
  | cons s segs ih =>
    have hva : (s.va - lo).toNat = s.va.toNat - lo.toNat :=
      UInt64.toNat_sub_of_le _ _ (hlo s mem_cons_self)
    have hn : (min s.fileSize s.memSize).toNat = s.copied := toNat_min _ _
    have hrange : getRange bytes s.fileOff (saturatingAdd s.fileOff (min s.fileSize s.memSize)) =
        fileRange bytes s.fileOff.toNat s.copied := by
      rw [← hn, ← getRange_saturatingAdd hlen s.fileOff.toNat_lt (UInt64.toNat_lt _),
        UInt64.ofNat_toNat, UInt64.ofNat_toNat]
    rw [copySegs, hrange, hva, hn, fileRange] at h
    by_cases hfile : s.fileOff.toNat + s.copied ≤ bytes.length
    · rw [if_pos hfile] at h
      dsimp only at h
      split at h
      · cases h
      · rename_i hin
        have hblob : s.va.toNat - lo.toNat + s.copied ≤ blob.length := by omega
        have hdata : (patch bytes lo s).data.length = s.copied := by
          simp only [patch, length_take, length_drop]
          omega
        have hfits : (patch bytes lo s).off + (patch bytes lo s).data.length ≤ blob.length := by
          rw [hdata]
          exact hblob
        have hsplice : splice blob (s.va.toNat - lo.toNat)
            ((bytes.drop s.fileOff.toNat).take s.copied) = (patch bytes lo s).apply blob := rfl
        rw [hsplice] at h
        obtain ⟨hblob', hall⟩ := ih (fun t ht => hlo t (mem_cons_of_mem _ ht)) h
        refine ⟨hblob', fun t ht => ?_⟩
        rcases mem_cons.mp ht with rfl | ht
        · exact ⟨hfile, hblob⟩
        · have hrest := hall t ht
          rw [Patch.length_apply hfits] at hrest
          exact hrest
    · rw [if_neg hfile] at h
      cases h

theorem patch_covers {s : LoadSeg} (hfile : s.fileOff.toNat + s.copied ≤ bytes.length) (x : Nat) :
    (patch bytes lo s).covers x = s.holds lo x := by
  have hdata : (patch bytes lo s).data.length = s.copied := by
    simp only [patch, length_take, length_drop]
    omega
  rw [Patch.covers, hdata]
  rfl

theorem copySegs_bytes (hlen : bytes.length < 2 ^ 63) {segs : List LoadSeg} {span : Nat}
    (hlo : ∀ s ∈ segs, lo ≤ s.va) (h : copySegs bytes lo segs (replicate span 0) = .ok blob) :
    blob.length = span ∧ ∀ x < span, blob[x]? =
      match lastHolding segs lo x with
      | some s => bytes[s.fileOff.toNat + (x - (s.va.toNat - lo.toNat))]?
      | none => some 0 := by
  obtain ⟨rfl, hall⟩ := copySegs_eq_ok hlen hlo h
  have hfits : ∀ p ∈ segs.map (patch bytes lo),
      p.off + p.data.length ≤ (replicate span (0 : UInt8)).length := by
    intro p hp
    obtain ⟨s, hs, rfl⟩ := mem_map.mp hp
    have hdata : (patch bytes lo s).data.length ≤ s.copied := length_take_le _ _
    exact le_trans (Nat.add_le_add_left hdata _) (hall s hs).2
  refine ⟨(Patch.length_applyAll hfits).trans length_replicate, fun x hx => ?_⟩
  have hfilter : (segs.map (patch bytes lo)).filter (fun p => p.covers x) =
      (segs.filter fun s => s.holds lo x).map (patch bytes lo) := by
    rw [filter_map]
    congr 1
    exact filter_congr fun s hs => patch_covers (hall s hs).1 x
  rw [Patch.getElem?_applyAll hfits, hfilter, getLast?_map, lastHolding]
  cases hlast : (segs.filter fun s => s.holds lo x).getLast? with
  | none => exact getElem?_replicate_of_lt hx
  | some s =>
    have hs : s.holds lo x = true := (mem_filter.mp (mem_of_getLast? hlast)).2
    simp only [holds, Bool.and_eq_true, decide_eq_true_eq] at hs
    have hpos : x - (s.va.toNat - lo.toNat) < s.copied := by omega
    exact (getElem?_take_of_lt hpos).trans getElem?_drop

/-! ### The span -/

section Span

variable {β γ : Type} [LinearOrder γ] (f : β → γ) (l : List β)

theorem isLeast_foldl_min (a : γ) :
    IsLeast {v | v = a ∨ ∃ s ∈ l, v = f s} (l.foldl (fun m s => min m (f s)) a) := by
  induction l generalizing a with
  | nil => simp [IsLeast, lowerBounds]
  | cons b l ih =>
    obtain ⟨hmem, hle⟩ := ih (min a (f b))
    constructor
    · rcases hmem with heq | ⟨s, hs, heq⟩
      · rcases le_total a (f b) with hab | hab
        · exact .inl (heq.trans (min_eq_left hab))
        · exact .inr ⟨b, mem_cons_self, heq.trans (min_eq_right hab)⟩
      · exact .inr ⟨s, mem_cons_of_mem _ hs, heq⟩
    · have hfirst := hle (.inl rfl)
      rintro v (rfl | ⟨s, hs, rfl⟩)
      · exact hfirst.trans (min_le_left _ _)
      · rcases mem_cons.mp hs with rfl | hs
        · exact hfirst.trans (min_le_right _ _)
        · exact hle (.inr ⟨s, hs, rfl⟩)

theorem isGreatest_foldl_max (a : γ) :
    IsGreatest {v | v = a ∨ ∃ s ∈ l, v = f s} (l.foldl (fun m s => max m (f s)) a) :=
  isLeast_foldl_min (γ := γᵒᵈ) f l a

end Span

def LoadSeg.top (s : LoadSeg) : Nat := s.va.toNat + max s.memSize.toNat s.fileSize.toNat

theorem segEnd_toNat (s : LoadSeg) : (segEnd s).toNat = min s.top (2 ^ 64 - 1) := by
  rw [segEnd, saturatingAdd, toNat_max, top]
  by_cases h : s.va.toNat + max s.memSize.toNat s.fileSize.toNat < 2 ^ 64
  · rw [if_pos h, UInt64.toNat_add, toNat_max, Nat.mod_eq_of_lt h]
    omega
  · have htop : (0xFFFFFFFFFFFFFFFF : UInt64).toNat = 2 ^ 64 - 1 := rfl
    rw [if_neg h, htop]
    omega

theorem minVa_isLeast (first : LoadSeg) (rest : List LoadSeg) :
    IsLeast {v | ∃ s ∈ first :: rest, v = s.va.toNat} (minVa rest first).toNat := by
  have hnat : rest.foldl (fun m s => min m s.va.toNat) first.va.toNat = (minVa rest first).toNat :=
    foldl_hom UInt64.toNat fun m s => (toNat_min m s.va).symm
  rw [← hnat]
  simp only [mem_cons, exists_eq_or_imp]
  exact isLeast_foldl_min (fun s : LoadSeg => s.va.toNat) rest first.va.toNat

theorem maxEnd_isGreatest (first : LoadSeg) (rest : List LoadSeg) :
    IsGreatest {v | ∃ s ∈ first :: rest, v = min s.top (2 ^ 64 - 1)} (maxEnd rest first).toNat := by
  have hnat : rest.foldl (fun m s => max m (segEnd s).toNat) (segEnd first).toNat =
      (maxEnd rest first).toNat :=
    foldl_hom UInt64.toNat fun m s => (toNat_max m (segEnd s)).symm
  simp only [← hnat, segEnd_toNat]
  simp only [mem_cons, exists_eq_or_imp]
  exact isGreatest_foldl_max (fun s : LoadSeg => min s.top (2 ^ 64 - 1)) rest
    (min first.top (2 ^ 64 - 1))

/-! ### The call -/

/-- The block as the segments describe it, up to its end `top`. -/
structure ImageOf (bytes : List UInt8) (top : LoadSeg → Nat) (lo : UInt64) (blob : List UInt8) :
    Prop where
  lowest : IsLeast {v | ∃ s ∈ loadSegs bytes, v = s.va.toNat} lo.toNat
  highest : IsGreatest {v | ∃ s ∈ loadSegs bytes, v = top s} (lo.toNat + blob.length)
  nonempty : 1 ≤ blob.length
  bounded : blob.length ≤ MAX_TA_SPAN
  bytes : ∀ x < blob.length, blob[x]? =
    match lastHolding (loadSegs bytes) lo x with
    | some s => bytes[s.fileOff.toNat + (x - (s.va.toNat - lo.toNat))]?
    | none => some 0

/-- The end of a segment as `map_elf` computes it. -/
def LoadSeg.cutTop (s : LoadSeg) : Nat := min s.top (2 ^ 64 - 1)

variable {va : VirtAddr} {req : MapRequest} (env : Env σ A S) (aspace : A)

theorem mapRequest_load
    (hlen : bytes.length < 2 ^ 63) (h : mapRequest build bytes = .ok req)
    (hload : req.load = some (va, blob)) :
    isElf bytes = true ∧ ImageOf bytes cutTop va blob := by
  rw [mapRequest] at h
  obtain ⟨img, himg, h⟩ := bind_eq_ok.mp h
  have hsegs := (parseElf_eq_ok hlen himg).1
  cases hcases : img.segs with
  | nil =>
    rw [hcases] at h
    cases h
    cases hload
  | cons first rest =>
    have helf : isElf bytes = true := by
      by_contra hnot
      rw [if_neg hnot, hcases] at hsegs
      cases hsegs
    rw [if_pos helf, hcases] at hsegs
    rw [hcases] at h
    dsimp only at h
    split at h
    · cases h
    · split at h
      · cases h
      · rename_i hsub hspan
        obtain ⟨blob', hcopy, h⟩ := bind_eq_ok.mp h
        cases h
        cases hload
        have hleast := minVa_isLeast first rest
        have hgreatest := maxEnd_isGreatest first rest
        have hlo : ∀ s ∈ first :: rest, minVa rest first ≤ s.va := fun s hs =>
          UInt64.le_iff_toNat_le.mpr (hleast.2 ⟨s, hs, rfl⟩)
        obtain ⟨hlength, hbytes⟩ := copySegs_bytes hlen hlo hcopy
        refine ⟨helf, ?_, ?_, ?_, ?_, ?_⟩
        · rw [← hsegs]
          exact hleast
        · rw [← hsegs, hlength, Nat.add_sub_cancel' (le_of_not_gt hsub)]
          exact hgreatest
        · omega
        · omega
        · rw [← hsegs, hlength]
          exact hbytes

/-- A call of `map_image` and what it returned. -/
structure MapCall where
  va : VirtAddr
  blob : List UInt8
  result : Except HalError VirtAddr

/-- The same HAL with the calls of `map_image` written down next to every address
space. -/
def Hal.recording (hal : Hal σ A S) : Hal σ (A × List MapCall) S :=
  { hal with
    newAddressSpace w := (((hal.newAddressSpace w).1, []), (hal.newAddressSpace w).2)
    mapInto shm a perms := ((hal.mapInto shm a.1 perms).1, (hal.mapInto shm a.1 perms).2, a.2)
    mapImage a va blob perms :=
      ((hal.mapImage a.1 va blob perms).1, (hal.mapImage a.1 va blob perms).2,
        a.2 ++ [⟨va, blob, (hal.mapImage a.1 va blob perms).1⟩])
    unmap a va := (hal.unmap a.1 va, a.2)
    dropAll a w := hal.dropAll a.1 w }

def Env.recording (env : Env σ A S) : Env σ (A × List MapCall) S :=
  { env with hal := env.hal.recording }

/-- `map_elf` with the address space it was lent, whatever it returns. -/
def mapElfIn (env : Env σ A S) (aspace : A) (bytes : List UInt8) :
    Fallible UInt32 (Option TaEntryPoints) × A :=
  match mapRequest env.target.build bytes with
  | .panic => (.panic, aspace)
  | .err code => (.err code, aspace)
  | .ok req =>
    match req.load with
    | none => (.ok (bindSymbols env.target.aarch64 req.symbols 0), aspace)
    | some (va, blob) =>
      match env.hal.mapImage aspace va blob Perms.RX with
      | (.error _, aspace') => (.err TEE_ERROR_BAD_PARAMETERS, aspace')
      | (.ok mapped, aspace') =>
        (.ok (bindSymbols env.target.aarch64 req.symbols (mapped - va)), aspace')

/-- The kernel goes on with the address space only when the image was accepted. -/
theorem mapElf_eq_mapElfIn (bytes : List UInt8) : mapElf env aspace bytes =
      match mapElfIn env aspace bytes with
      | (.ok entries, aspace') => .ok (entries, aspace')
      | (.err code, _) => .err code
      | (.panic, _) => .panic := by
  rw [mapElf_eq, mapElfIn]
  cases mapRequest env.target.build bytes with
  | panic | err => rfl
  | ok req =>
    obtain ⟨symbols, _ | ⟨va, blob⟩⟩ := req
    · rfl
    · rw [ok_bind, mapRequested]
      dsimp only
      rcases env.hal.mapImage aspace va blob Perms.RX with ⟨_ | mapped, aspace'⟩
      · rfl
      · rfl

theorem mapElfIn_recording (calls : List MapCall) (bytes : List UInt8) :
    (mapElfIn env.recording (aspace, calls) bytes).1 = (mapElfIn env aspace bytes).1 ∧
      (mapElfIn env.recording (aspace, calls) bytes).2.1 = (mapElfIn env aspace bytes).2 := by
  have htarget : env.recording.target = env.target := rfl
  rw [mapElfIn, mapElfIn, htarget]
  cases mapRequest env.target.build bytes with
  | panic | err => exact ⟨rfl, rfl⟩
  | ok req =>
    obtain ⟨symbols, _ | ⟨va, blob⟩⟩ := req
    · exact ⟨rfl, rfl⟩
    · have hcall : env.recording.hal.mapImage (aspace, calls) va blob Perms.RX =
          ((env.hal.mapImage aspace va blob Perms.RX).1,
            (env.hal.mapImage aspace va blob Perms.RX).2,
            calls ++ [⟨va, blob, (env.hal.mapImage aspace va blob Perms.RX).1⟩]) := rfl
      dsimp only
      rw [hcall]
      rcases env.hal.mapImage aspace va blob Perms.RX with ⟨_ | mapped, aspace'⟩
      · exact ⟨rfl, rfl⟩
      · exact ⟨rfl, rfl⟩

theorem mapElfIn_of_load {symbols : Option TaSymbols}
    (h : mapRequest env.target.build bytes = .ok ⟨symbols, some (va, blob)⟩) :
    mapElfIn env.recording (aspace, []) bytes =
      match env.hal.mapImage aspace va blob Perms.RX with
      | (.error e, aspace') => (.err TEE_ERROR_BAD_PARAMETERS, aspace', [⟨va, blob, .error e⟩])
      | (.ok mapped, aspace') =>
        (.ok (bindSymbols env.target.aarch64 symbols (mapped - va)), aspace',
          [⟨va, blob, .ok mapped⟩]) := by
  have htarget : env.recording.target = env.target := rfl
  have hcall : env.recording.hal.mapImage (aspace, []) va blob Perms.RX =
      ((env.hal.mapImage aspace va blob Perms.RX).1, (env.hal.mapImage aspace va blob Perms.RX).2,
        [⟨va, blob, (env.hal.mapImage aspace va blob Perms.RX).1⟩]) := rfl
  rw [mapElfIn, htarget, h]
  dsimp only
  rw [hcall]
  rcases env.hal.mapImage aspace va blob Perms.RX with ⟨_ | mapped, aspace'⟩
  · rfl
  · rfl

theorem mapRequest_load_ne_none (hlen : bytes.length < 2 ^ 63)
    (h : mapRequest build bytes = .ok req) (helf : isElf bytes = true)
    (hsegs : loadSegs bytes ≠ []) : req.load ≠ none := by
  rw [mapRequest] at h
  obtain ⟨img, himg, h⟩ := bind_eq_ok.mp h
  have himgSegs := (parseElf_eq_ok hlen himg).1
  rw [if_pos helf] at himgSegs
  rw [← himgSegs] at hsegs
  cases hcases : img.segs with
  | nil => exact absurd hcases hsegs
  | cons =>
    rw [hcases] at h
    dsimp only at h
    split at h
    · cases h
    · split at h
      · cases h
      · obtain ⟨blob, -, h⟩ := bind_eq_ok.mp h
        cases h
        simp

/-- The block that the segments describe is the one `map_elf` makes exactly when none of
them reaches past the top of the address space. -/
theorem imageOf_top_iff (h : ImageOf bytes cutTop va blob) :
    ImageOf bytes top va blob ↔ ∀ s ∈ loadSegs bytes, s.top < 2 ^ 64 := by
  constructor
  · intro hright s hs
    obtain ⟨t, -, hcut⟩ := h.highest.1
    have hle : s.top ≤ va.toNat + blob.length := hright.highest.2 ⟨s, hs, rfl⟩
    rw [cutTop] at hcut
    omega
  · intro hfits
    have hsame : ∀ s ∈ loadSegs bytes, s.cutTop = s.top := fun s hs =>
      min_eq_left (Nat.le_pred_of_lt (hfits s hs))
    refine { h with highest := ⟨?_, ?_⟩ }
    · obtain ⟨s, hs, heq⟩ := h.highest.1
      exact ⟨s, hs, heq.trans (hsame s hs)⟩
    · rintro v ⟨s, hs, rfl⟩
      rw [← hsame s hs]
      exact h.highest.2 ⟨s, hs, rfl⟩

/-- What `map_elf` maps, for every byte string, HAL and address space. When it fails, no
call of `map_image` succeeded. When it accepts a file with PT_LOAD segments it made one
call, with the block that the segments describe cut off at the top of the address space;
that is the block they describe exactly when none of them reaches past it. -/
theorem mapped_image_right_iff (env : Env σ A S) (aspace : A) {bytes : List UInt8}
    (hlen : bytes.length < 2 ^ 63) :
    (∀ code space calls, mapElfIn env.recording (aspace, []) bytes = (.err code, space, calls) →
        ∀ c ∈ calls, ∃ e, c.result = .error e) ∧
    (∀ entries space calls,
      mapElfIn env.recording (aspace, []) bytes = (.ok entries, space, calls) →
        isElf bytes = true → loadSegs bytes ≠ [] →
        ∃ va blob mapped, calls = [⟨va, blob, .ok mapped⟩] ∧
          ImageOf bytes cutTop va blob ∧
          (ImageOf bytes top va blob ↔ ∀ s ∈ loadSegs bytes, s.top < 2 ^ 64)) := by
  have htarget : env.recording.target = env.target := rfl
  constructor
  · intro code space calls h c hc
    cases hreq : mapRequest env.target.build bytes with
    | panic =>
      rw [mapElfIn, htarget, hreq] at h
      cases h
    | err =>
      rw [mapElfIn, htarget, hreq] at h
      cases h
      cases hc
    | ok req =>
      obtain ⟨symbols, _ | ⟨va, blob⟩⟩ := req
      · rw [mapElfIn, htarget, hreq] at h
        cases h
      · rw [mapElfIn_of_load env aspace hreq] at h
        rcases hmap : env.hal.mapImage aspace va blob Perms.RX with ⟨e | mapped, aspace'⟩
        · rw [hmap] at h
          cases h
          cases mem_singleton.mp hc
          exact ⟨e, rfl⟩
        · rw [hmap] at h
          cases h
  · intro entries space calls h helf hsegs
    cases hreq : mapRequest env.target.build bytes with
    | panic | err =>
      rw [mapElfIn, htarget, hreq] at h
      cases h
    | ok req =>
      have hload := mapRequest_load_ne_none hlen hreq helf hsegs
      obtain ⟨symbols, _ | ⟨va, blob⟩⟩ := req
      · exact absurd rfl hload
      · obtain ⟨-, himage⟩ := mapRequest_load hlen hreq rfl
        rw [mapElfIn_of_load env aspace hreq] at h
        rcases hmap : env.hal.mapImage aspace va blob Perms.RX with ⟨e | mapped, aspace'⟩
        · rw [hmap] at h
          cases h
        · rw [hmap] at h
          cases h
          exact ⟨va, blob, mapped, rfl, himage, imageOf_top_iff himage⟩

theorem sampleElf_request :
    mapRequest .debug (sampleElf 0x10000 8 16 0x10004) =
      .ok ⟨some ⟨0x10004, 0x10004, 0x10004, 0x10004, 0x10004⟩,
        some (0x10000, [0x7f, 0x45, 0x4c, 0x46, 2, 1, 0, 0] ++ replicate 8 0)⟩ := by
  rw [mapRequest, sampleElf_parse, ok_bind]
  decide +kernel

theorem sampleElf_segs :
    isElf (sampleElf 0x10000 8 16 0x10004) = true ∧
      loadSegs (sampleElf 0x10000 8 16 0x10004) = [⟨0x10000, 0, 8, 16⟩] := by
  have helf : isElf (sampleElf 0x10000 8 16 0x10004) = true := by decide +kernel
  have hparsed := (parseElf_eq_ok sampleElf_lt sampleElf_parse).1
  rw [if_pos helf] at hparsed
  exact ⟨helf, hparsed.symm⟩

theorem mapped_image_right_iff_sample :
    (sampleElf 0x10000 8 16 0x10004).length < 2 ^ 63 ∧
      ∃ va blob mapped,
        (mapElfIn sampleSigner.recording (0, []) (sampleElf 0x10000 8 16 0x10004)).2.2 =
            [⟨va, blob, .ok mapped⟩] ∧
          ImageOf (sampleElf 0x10000 8 16 0x10004) top va blob := by
  have hlen := sampleElf_lt
  obtain ⟨helf, hsegs⟩ := sampleElf_segs
  have hrun := mapElfIn_of_load sampleSigner 0 sampleElf_request
  obtain ⟨va, blob, mapped, hcalls, -, hiff⟩ :=
    (mapped_image_right_iff sampleSigner 0 hlen).2 _ _ _ hrun helf (by simp [hsegs])
  rw [hrun]
  refine ⟨hlen, va, blob, mapped, hcalls, hiff.mpr ?_⟩
  intro s hs
  rw [hsegs] at hs
  cases mem_singleton.mp hs
  decide

def topElf : List UInt8 := sampleElf 0xFFFFFFFFFFFFFFF0 8 32 0xFFFFFFFFFFFFFFF0

theorem segment_past_top_cut :
    loadSegs topElf = [⟨0xFFFFFFFFFFFFFFF0, 0, 8, 32⟩] ∧
      (mapElfIn sampleSigner.recording (0, []) topElf).2.2.map (fun c => (c.va, c.blob.length)) =
        [(0xFFFFFFFFFFFFFFF0, 15)] := by
  decide +kernel

end Rustee.Os
