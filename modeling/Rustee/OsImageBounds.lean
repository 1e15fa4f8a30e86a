import Rustee.OsSymbols

/-!
# When the image parsers panic

The parsers check the length of the file after they have added up the offsets they read from it. A
sum that passes 2^64 panics in a debug build and wraps in a release build, where the check passes
and the slice behind it panics. The sums that neither saturate nor are checked are the base of the
section headers with the index of the name table, the base of the program headers, the bounds of a
string table and the base of a symbol table. This file says for every byte string which of them is
reached.
-/

namespace Rustee.Os

open Fallible List

variable {σ A S : Type} {build : Build} {bytes image : List UInt8}

/-! ### The records that never panic -/

theorem parseTaHead_ne_panic (head : List UInt8) : parseTaHead head ≠ .panic := by
  rcases parseTaHead_cases head with h | ⟨-, h⟩
  · simp [h]
  · simp [h]

theorem parseRtsg_ne_panic (bytes : List UInt8) : parseRtsg bytes ≠ .panic := by
  rcases parseRtsg_cases bytes with ⟨_, -, h⟩ | ⟨-, -, h⟩
  · simp [h]
  · simp [h]

/-! ### The header lookup -/

section
variable (image : List UInt8)

/-- A 64-bit little-endian ELF header with a section table, as `elf64_section` asks for. -/
def ElfHeader : Prop :=
  64 ≤ image.length ∧ isElf image = true ∧ image.getD 4 0 = 2 ∧ image.getD 5 0 = 1 ∧
    64 ≤ eShentsize image ∧ eShoff image ≠ 0

def shstrOff : Nat :=
  (eShoff image + eShstrndx image * eShentsize image) % 2 ^ 64

def nameTable : Option (List UInt8) :=
  if image.length < (shstrOff image + 64) % 2 ^ 64 then none
  else fileRange image (leAt image ((shstrOff image + 24) % 2 ^ 64) 8)
    (leAt image ((shstrOff image + 32) % 2 ^ 64) 8)

end

/-- The lookup of the name table: a debug build adds up its offset, and a release build
reads at the wrapped one unless the first field it reads is still behind the file. -/
def NamesFit (build : Build) (image : List UInt8) : Prop :=
  match build with
  | .debug => eShoff image + eShstrndx image * eShentsize image + 64 < 2 ^ 64
  | .release => ¬ (2 ^ 64 ≤ shstrOff image + 64 ∧ shstrOff image + 24 < 2 ^ 64)

theorem elf64Section_of_not (h : ¬ ElfHeader image) (name : List UInt8) :
    elf64Section build image name = .err TEE_ERROR_BAD_PARAMETERS := by
  rw [elf64Section]
  by_cases hbad : image.length < 64 ∨ isElf image = false ∨ image.getD 4 0 ≠ 2 ∨ image.getD 5 0 ≠ 1
  · rw [if_pos hbad]
  · rw [if_neg hbad]
    simp only [not_or, Nat.not_lt, Bool.not_eq_false, not_not] at hbad
    obtain ⟨hlong, helf, hclass, hdata⟩ := hbad
    have hsize : (64 : UInt64).toNat ≤ image.length := hlong
    simp (disch := decide) only [readLe_within hsize, ok_bind]
    rw [if_pos]
    by_contra hgood
    simp only [not_or, Nat.not_lt] at hgood
    exact h ⟨hlong, helf, hclass, hdata, hgood.1, hgood.2⟩

theorem elf64Section_header (h : ElfHeader image) (name : List UInt8) :
    elf64Section build image name = (do
      let rel ← usizeMul build (UInt64.ofNat (eShstrndx image)) (UInt64.ofNat (eShentsize image))
      let shstr ← usizeAdd build (UInt64.ofNat (eShoff image)) rel
      let shstrEnd ← usizeAdd build shstr 64
      if image.length < shstrEnd.toNat then
        .err TEE_ERROR_BAD_PARAMETERS
      else
        let strOff ← readLeAt build image shstr 24 8
        let strSize ← readLeAt build image shstr 32 8
        let strtab ← .ofOption TEE_ERROR_BAD_PARAMETERS
          (getRange image (UInt64.ofNat strOff)
            (saturatingAdd (UInt64.ofNat strOff) (UInt64.ofNat strSize)))
        elf64SectionLoop build image strtab name (UInt64.ofNat (eShoff image))
          (UInt64.ofNat (eShentsize image)) (eShnum image) 0) := by
  obtain ⟨hlong, helf, hclass, hdata, hent, hoff⟩ := h
  have hguard : ¬ (image.length < 64 ∨ isElf image = false ∨ image.getD 4 0 ≠ 2 ∨
      image.getD 5 0 ≠ 1) := by
    rintro (hshort | hnot | hne | hne)
    · omega
    · exact absurd (helf.symm.trans hnot) (by decide)
    · exact hne hclass
    · exact hne hdata
  have hsize : (64 : UInt64).toNat ≤ image.length := hlong
  rw [elf64Section, if_neg hguard]
  simp (disch := decide) only [readLe_within hsize, ok_bind]
  rw [if_neg]
  · rfl
  · rintro (hsmall | hzero)
    · exact absurd hent (Nat.not_le.mpr hsmall)
    · exact hoff hzero

theorem shstrOff_lt (image : List UInt8) : shstrOff image < 2 ^ 64 :=
  Nat.mod_lt _ (by decide)

/-- Where the name table's header is looked for, when the sum fits or wraps. -/
theorem shstr_offset (h : build = .debug →
      eShoff image + eShstrndx image * eShentsize image < 2 ^ 64) :
    (do
      let rel ← usizeMul build (UInt64.ofNat (eShstrndx image)) (UInt64.ofNat (eShentsize image))
      usizeAdd build (UInt64.ofNat (eShoff image)) rel) =
      (.ok (UInt64.ofNat (shstrOff image)) : Fallible UInt32 UInt64) := by
  have hent := eShentsize_lt image
  have hndx : eShstrndx image < 2 ^ 16 := leAt_lt image 62 2
  have hrel := shstr_lt image
  rw [usizeMul_ofNat build (by omega) (by omega) (by omega), ok_bind]
  exact usizeAdd_mod build (toNat_ofNat_of_lt (by omega)) (eShoff_lt image) h

theorem elf64Section_of_fits (hlen : image.length < 2 ^ 63) (h : ElfHeader image)
    (hfits : NamesFit build image) (name : List UInt8) :
    elf64Section build image name =
      (ofOption TEE_ERROR_BAD_PARAMETERS (nameTable image) >>= fun strtab =>
        elf64SectionLoop build image strtab name (UInt64.ofNat (eShoff image))
          (UInt64.ofNat (eShentsize image)) (eShnum image) 0) := by
  have hu := shstrOff_lt image
  have hdebug : build = .debug → shstrOff image + 64 < 2 ^ 64 ∧
      eShoff image + eShstrndx image * eShentsize image < 2 ^ 64 := by
    rintro rfl
    rw [NamesFit] at hfits
    rw [shstrOff, Nat.mod_eq_of_lt (by omega)]
    exact ⟨hfits, by omega⟩
  -- in either build the fields lie in the file once the end of the header does
  have hplace : shstrOff image + 64 < 2 ^ 64 ∨ 2 ^ 64 ≤ shstrOff image + 24 := by
    cases build with
    | debug => exact .inl (hdebug rfl).1
    | release =>
      rw [NamesFit] at hfits
      omega
  have hlong := h.1
  rw [elf64Section_header h, ← bind_assoc, shstr_offset fun hb => (hdebug hb).2,
    ok_bind, usizeAdd_mod build (k := 64) rfl hu fun hb => (hdebug hb).1,
    ok_bind, toNat_ofNat_of_lt (Nat.mod_lt _ (by decide)), nameTable]
  by_cases hin : image.length < (shstrOff image + 64) % 2 ^ 64
  · rw [if_pos hin, if_pos hin]
    rfl
  · rw [if_neg hin, if_neg hin, readLeAt_mod build (k := 24) (j := 8) rfl rfl hu (by omega)
        (fun hb => by have := (hdebug hb).1; omega) hlen (by omega),
      readLeAt_mod build (k := 32) (j := 8) rfl rfl hu (by omega)
        (fun hb => by have := (hdebug hb).1; omega) hlen (by omega)]
    simp only [ok_bind]
    rw [getRange_saturatingAdd hlen (leAt_lt image _ 8) (leAt_lt image _ 8)]

theorem elf64Section_of_not_fits (hlen : image.length < 2 ^ 63) (h : ElfHeader image)
    (hfits : ¬ NamesFit build image) (name : List UInt8) :
    elf64Section build image name = .panic := by
  have hent := eShentsize_lt image
  have hndx : eShstrndx image < 2 ^ 16 := leAt_lt image 62 2
  have hrel := shstr_lt image
  have hoff := eShoff_lt image
  have hlong := h.1
  rw [elf64Section_header h]
  cases build with
  | debug =>
    rw [NamesFit] at hfits
    rw [usizeMul_ofNat .debug (by omega) (by omega) (by omega), ok_bind]
    by_cases hsum : eShoff image + eShstrndx image * eShentsize image < 2 ^ 64
    · rw [usizeAdd_ofNat .debug hsum, ok_bind, usizeAdd_overflow, panic_bind]
      rw [toNat_ofNat_of_lt hsum]
      exact Nat.le_of_not_lt hfits
    · rw [usizeAdd_overflow, panic_bind]
      rw [toNat_ofNat_of_lt hoff, toNat_ofNat_of_lt (by omega)]
      exact Nat.le_of_not_lt hsum
  | release =>
    rw [NamesFit, not_not] at hfits
    have hu := shstrOff_lt image
    have huNat : (UInt64.ofNat (shstrOff image)).toNat = shstrOff image := toNat_ofNat_of_lt hu
    rw [← bind_assoc, shstr_offset (by simp), ok_bind,
      usizeAdd_mod .release (k := 64) rfl hu (by simp), ok_bind,
      toNat_ofNat_of_lt (Nat.mod_lt _ (by decide)), if_neg (by omega), readLeAt_outside,
      panic_bind]
    · rw [huNat]
      exact hfits.2
    · rw [huNat]
      have hd : UInt64.toNat 24 = 24 := rfl
      omega

def SectionsFit (build : Build) (image : List UInt8) : Prop :=
  NamesFit build image ∧ ((nameTable image).isSome → 0 < eShnum image → eShoff image + 64 < 2 ^ 64)

def HasSection (image name head : List UInt8) : Prop :=
  ∃ strtab, nameTable image = some strtab ∧
    FirstNamed image strtab name (eShoff image) (eShentsize image) 0 (eShnum image) head

theorem elf64Section_spec (hlen : image.length < 2 ^ 63) (h : ElfHeader image)
    (hfits : SectionsFit build image) (name : List UInt8) :
    elf64Section build image name ≠ .panic ∧
      ∀ head, elf64Section build image name = .ok head ↔ HasSection image name head := by
  rw [elf64Section_of_fits hlen h hfits.1]
  cases htable : nameTable image with
  | none =>
    refine ⟨by simp [ofOption], fun head => ⟨fun hok => (by cases hok), ?_⟩⟩
    rintro ⟨strtab, hsome, -⟩
    cases htable.symm.trans hsome
  | some strtab =>
    have hnum := eShnum_lt image
    have hcount : 0 + eShnum image ≤ 2 ^ 16 := by omega
    have hstart : 0 < eShnum image → eShoff image + 0 * eShentsize image + 64 < 2 ^ 64 := by
      intro hpos
      have hbase := hfits.2 (by rw [htable]; rfl) hpos
      omega
    have hloop := elf64SectionLoop_spec build hlen (eShentsize_lt image) strtab name hcount hstart
    refine ⟨hloop.1, fun head => (hloop.2 head).trans ?_⟩
    rw [zero_add]
    constructor
    · intro hfirst
      exact ⟨strtab, htable, hfirst⟩
    · rintro ⟨strtab', hsome, hfirst⟩
      cases htable.symm.trans hsome
      exact hfirst

theorem elf64Section_ne_panic_iff (hlen : image.length < 2 ^ 63) (h : ElfHeader image)
    (name : List UInt8) : elf64Section build image name ≠ .panic ↔ SectionsFit build image := by
  constructor
  · intro hne
    have hnames : NamesFit build image := by
      by_contra hnot
      exact hne (elf64Section_of_not_fits hlen h hnot name)
    refine ⟨hnames, fun hsome hpos => ?_⟩
    by_contra hbig
    apply hne
    obtain ⟨strtab, htable⟩ := Option.isSome_iff_exists.mp hsome
    obtain ⟨count, hcount⟩ : ∃ k, eShnum image = k + 1 := ⟨eShnum image - 1, by omega⟩
    have hent := eShentsize_lt image
    rw [elf64Section_of_fits hlen h hnames, htable, ofOption, ok_bind, hcount, elf64SectionLoop]
    exact entry_overflow (k := 64) rfl (by omega) (eShoff_lt image) (Nat.le_of_not_lt hbig) h.1
      hlen _ _
  · intro hfits
    exact (elf64Section_spec hlen h hfits name).1

/-! ### The whole parse -/

theorem not_rtah_of_isElf (h : isElf image = true) :
    ¬ (40 ≤ image.length ∧ leNat (image.take 4) = RTAH_MAGIC) := by
  rintro ⟨-, hmagic⟩
  have htake : image.take 4 = ELF_MAGIC := by simpa [isElf] using h
  rw [htake] at hmagic
  exact absurd hmagic (by decide)

theorem findTaHead_ne_panic_iff (hlen : image.length < 2 ^ 63) :
    findTaHead build image ≠ .panic ↔ (ElfHeader image → SectionsFit build image) := by
  by_cases h : ElfHeader image
  · rw [findTaHead, if_neg (not_rtah_of_isElf h.2.1), elf64Section_ne_panic_iff hlen h]
    exact ⟨fun hfits _ => hfits, fun hfits => hfits h⟩
  · refine ⟨fun _ hyes => absurd hyes h, fun _ => ?_⟩
    rw [findTaHead]
    split
    · simp
    · simp [elf64Section_of_not h]

def SegmentsInFile (image : List UInt8) : Prop :=
  ∀ i < ePhnum image, ePhoff image + i * ePhentsize image + 56 ≤ image.length

def loadSegs (image : List UInt8) : List LoadSeg :=
  ((range (ePhnum image)).filter fun i =>
    leAt image (ePhoff image + i * ePhentsize image) 4 = 1).map fun i =>
      loadSegAt image (ePhoff image + i * ePhentsize image)

theorem ptLoad_eq (build : Build) (hlong : 64 ≤ image.length) :
    ptLoad build image =
      ptLoadLoop build image (UInt64.ofNat (ePhoff image)) (UInt64.ofNat (ePhentsize image))
        (ePhnum image) 0 [] := by
  have hsize : (64 : UInt64).toNat ≤ image.length := hlong
  simp (disch := decide) only [ptLoad, readLe_within hsize, ok_bind]
  rfl

theorem ptLoad_decided (build : Build) (hlen : image.length < 2 ^ 63) (hlong : 64 ≤ image.length) :
    (ptLoad build image).Decided (0 < ePhnum image → ePhoff image + 56 < 2 ^ 64)
      (SegmentsInFile image) (loadSegs image) TEE_ERROR_BAD_PARAMETERS := by
  have hnum := ePhnum_lt image
  have hent := ePhentsize_lt image
  have hall : (∀ j, 0 ≤ j → j < 0 + ePhnum image →
      ePhoff image + j * ePhentsize image + 56 ≤ image.length) ↔ SegmentsInFile image := by
    simp [SegmentsInFile]
  have hloop (hfits : 0 < ePhnum image → ePhoff image + 56 < 2 ^ 64) :
      (ptLoadLoop build image (UInt64.ofNat (ePhoff image)) (UInt64.ofNat (ePhentsize image))
        (ePhnum image) 0 []).Decided True (SegmentsInFile image) (loadSegs image)
        TEE_ERROR_BAD_PARAMETERS := by
    rw [loadSegs, range_eq_range', ← nil_append (map _ _), ← hall]
    exact ptLoadLoop_decided hlen hent (by omega) (fun hpos => by have := hfits hpos; omega) []
  rw [ptLoad_eq build hlong]
  refine ⟨fun hbig => ?_, fun hfits => (hloop hfits).returns trivial,
    fun hfits => (hloop hfits).fails trivial⟩
  obtain ⟨count, hcount⟩ : ∃ k, ePhnum image = k + 1 := ⟨ePhnum image - 1, by omega⟩
  rw [hcount, ptLoadLoop]
  exact entry_overflow (k := 56) rfl (by omega) (ePhoff_lt image) (by omega) (by omega) hlen _ _

/-- The file names a section `.rustee.ta_head` and holds a valid record there. -/
def HasTaHead (image : List UInt8) : Prop :=
  ∃ head props, HasSection image SECTION_NAME head ∧ parseTaHead head = .ok props

/-- Nothing that `parse_elf` adds up passes 64 bits. -/
def ImageFits (build : Build) (image : List UInt8) : Prop :=
  ElfHeader image → SectionsFit build image ∧
    (HasTaHead image → (0 < ePhnum image → ePhoff image + 56 < 2 ^ 64) ∧
      (SegmentsInFile image →
        SymtabsFit build image (eShoff image) (eShentsize image) 0 (eShnum image)))

theorem parseElf_of_not (h : ¬ ElfHeader image) : parseElf build image ≠ .panic := by
  rw [parseElf, findTaHead]
  by_cases hraw : 40 ≤ image.length ∧ leNat (image.take 4) = RTAH_MAGIC
  · have helf : isElf image = false := by
      by_contra hne
      exact not_rtah_of_isElf (by simpa using hne) hraw
    rw [if_pos hraw, ok_bind]
    refine bind_ne_panic (parseTaHead_ne_panic _) fun props _ => ?_
    rw [if_pos (.inr helf)]
    simp
  · simp [hraw, elf64Section_of_not h]

theorem parseElf_of_head {head : List UInt8} {props : TaProperties} (h : ElfHeader image)
    (hhead : elf64Section build image SECTION_NAME = .ok head)
    (hprops : parseTaHead head = .ok props) :
    parseElf build image = (do
      let segs ← ptLoad build image
      let symbols ← (taSymbols build image).toOption
      .ok ⟨props, segs, symbols⟩) := by
  have hguard : ¬ (image.length < 64 ∨ isElf image = false) := by
    rintro (hshort | hnot)
    · exact absurd h.1 (Nat.not_le.mpr hshort)
    · exact absurd (h.2.1.symm.trans hnot) (by decide)
  rw [parseElf, findTaHead, if_neg (not_rtah_of_isElf h.2.1), hhead, ok_bind, hprops,
    ok_bind, if_neg hguard]

theorem parseElf_ne_panic_iff (hlen : image.length < 2 ^ 63) :
    parseElf build image ≠ .panic ↔ ImageFits build image := by
  by_cases h : ElfHeader image
  swap
  · exact ⟨fun _ hyes => absurd hyes h, fun _ => parseElf_of_not h⟩
  have hlong := h.1
  have hlookup : findTaHead build image = elf64Section build image SECTION_NAME := by
    rw [findTaHead, if_neg (not_rtah_of_isElf h.2.1)]
  by_cases hfits : SectionsFit build image
  swap
  · -- the lookup itself panics
    have hpanic : elf64Section build image SECTION_NAME = .panic := by
      by_contra hne
      exact hfits ((elf64Section_ne_panic_iff hlen h SECTION_NAME).mp hne)
    rw [parseElf, hlookup, hpanic, panic_bind]
    exact ⟨fun hne => absurd rfl hne, fun hall => absurd (hall h).1 hfits⟩
  obtain ⟨hne, hok⟩ := elf64Section_spec hlen h hfits SECTION_NAME
  by_cases htah : HasTaHead image
  · obtain ⟨head, props, hhead, hprops⟩ := htah
    -- the section that was found has its header in the file
    have hbase : eShoff image + 64 < 2 ^ 64 := by
      obtain ⟨strtab, -, j, hlo, -, hfile, -⟩ := hhead
      have hfirst := hfile 0 (Nat.le_refl _) (Nat.zero_le _)
      omega
    rw [parseElf_of_head h ((hok head).mpr hhead) hprops,
      (ptLoad_decided build hlen hlong).bind_ne_panic_iff,
      bind_ne_panic_iff (fun symbols => by simp), toOption_ne_panic_iff,
      (taSymbols_decided hlen hlong hbase).ne_panic_iff]
    exact ⟨fun hrest _ => ⟨hfits, fun _ => hrest⟩,
      fun hall => (hall h).2 ⟨head, props, hhead, hprops⟩⟩
  · refine ⟨fun _ _ => ⟨hfits, fun hyes => absurd hyes htah⟩, fun _ => ?_⟩
    rw [parseElf, hlookup]
    refine bind_ne_panic hne fun head hhead =>
      bind_ne_panic (parseTaHead_ne_panic head) fun props hprops => ?_
    exact absurd ⟨head, props, (hok head).mp hhead, hprops⟩ htah

/-- An ELF file that was accepted: its section table starts in the file, and what is left
of the parse are the segments and the symbols. -/
theorem parseElf_eq_ok_of_isElf {img : ElfImage} (hlen : image.length < 2 ^ 63)
    (helf : isElf image = true) (h : parseElf build image = .ok img) :
    ElfHeader image ∧ eShoff image + 64 ≤ image.length ∧
      ∃ segs symbols, ptLoad build image = .ok segs ∧
        (taSymbols build image).toOption = .ok symbols ∧ img = ⟨img.props, segs, symbols⟩ := by
  have hheader : ElfHeader image := by
    by_contra hnot
    rw [parseElf, findTaHead, if_neg (not_rtah_of_isElf helf), elf64Section_of_not hnot] at h
    cases h
  obtain ⟨head, hhead, -⟩ := bind_eq_ok.mp h
  obtain ⟨props, hprops⟩ : ∃ props, parseTaHead head = .ok props := by
    rw [parseElf, hhead, ok_bind] at h
    obtain ⟨props, hprops, -⟩ := bind_eq_ok.mp h
    exact ⟨props, hprops⟩
  rw [findTaHead, if_neg (not_rtah_of_isElf helf)] at hhead
  have hfits : SectionsFit build image :=
    (elf64Section_ne_panic_iff hlen hheader SECTION_NAME).mp (by rw [hhead]; simp)
  refine ⟨hheader, ?_, ?_⟩
  · obtain ⟨strtab, -, j, -, -, hfile, -⟩ :=
      ((elf64Section_spec hlen hheader hfits SECTION_NAME).2 head).mp hhead
    have hfirst := hfile 0 (Nat.le_refl _) (Nat.zero_le _)
    omega
  · rw [parseElf_of_head hheader hhead hprops] at h
    obtain ⟨segs, hsegs, h⟩ := bind_eq_ok.mp h
    obtain ⟨symbols, hsymbols, h⟩ := bind_eq_ok.mp h
    refine ⟨segs, symbols, hsegs, hsymbols, ?_⟩
    rw [← Fallible.ok.inj h]

/-- What a file that parses gives: the segments of its PT_LOAD headers and the entry points it
defines; a bare header record has neither. -/
theorem parseElf_eq_ok {img : ElfImage} (hlen : image.length < 2 ^ 63)
    (h : parseElf build image = .ok img) :
    img.segs = (if isElf image = true then loadSegs image else []) ∧
      ∀ s, img.symbols = some s ↔
        isElf image = true ∧ DefinesEntryPoints image ∧ s = entrySymbols image := by
  cases helf : isElf image with
  | false =>
    rw [parseElf] at h
    obtain ⟨head, -, h⟩ := bind_eq_ok.mp h
    obtain ⟨props, -, h⟩ := bind_eq_ok.mp h
    rw [if_pos (.inr helf)] at h
    cases h
    simp
  | true =>
    obtain ⟨hheader, hbase, segs, symbols, hsegs, hsymbols, himg⟩ :=
      parseElf_eq_ok_of_isElf hlen helf h
    rw [himg, if_pos rfl]
    refine ⟨(ptLoad_decided build hlen hheader.1).eq_ok hsegs, fun s => ?_⟩
    rcases (taSymbols_decided hlen hheader.1 (by omega)).cases with
      ⟨-, hpanic⟩ | ⟨-, hdef, hok⟩ | ⟨-, hnot, herr⟩
    · rw [hpanic] at hsymbols
      cases hsymbols
    · rw [hok] at hsymbols
      cases hsymbols
      simp [hdef, eq_comm]
    · rw [herr] at hsymbols
      cases hsymbols
      simp [hnot]

/-! ### The parsers together -/

variable {crypto : CryptoProvider}

theorem mapElf_ne_panic_iff (env : Env σ A S) (aspace : A) :
    mapElf env aspace bytes ≠ .panic ↔ parseElf env.target.build bytes ≠ .panic := by
  cases hparse : parseElf env.target.build bytes with
  | panic | err => simp [mapElf, hparse]
  | ok =>
    rcases mapElf_cases env aspace hparse with ⟨v, hv⟩ | herr
    · simp [hv]
    · simp [herr]

theorem loadImage_ne_panic_iff :
    loadImage crypto build bytes ≠ .panic ↔
      ∀ image, Carries crypto bytes image → parseElf build image ≠ .panic := by
  cases hmagic : hasRtsgMagic bytes with
  | false =>
    have hcarries : Carries crypto bytes bytes := .bare hmagic
    simp only [loadImage, hmagic, Bool.false_eq_true, if_false, ok_bind]
    rw [bind_ne_panic_iff (fun parsed => by simp)]
    constructor
    · rintro hne image (⟨_, hyes, _, _⟩ | _)
      · exact absurd (hmagic.symm.trans hyes) (by decide)
      · exact hne
    · exact fun hall => hall bytes hcarries
  | true =>
    cases hparse : parseRtsg bytes with
    | panic => exact absurd hparse (parseRtsg_ne_panic bytes)
    | err =>
      refine ⟨?_, fun _ => by simp [loadImage, hmagic, hparse]⟩
      rintro - image (⟨_, _, hok, _⟩ | hbare)
      · cases hparse.symm.trans hok
      · exact absurd (hmagic.symm.trans hbare) (by decide)
    | ok img =>
      cases hverified : envelopeVerified crypto img with
      | false =>
        refine ⟨?_, fun _ => by simp [loadImage, hmagic, hparse, hverified]⟩
        rintro - image (⟨_, _, hok, hyes⟩ | hbare)
        · cases hparse.symm.trans hok
          exact absurd (hverified.symm.trans hyes) (by decide)
        · exact absurd (hmagic.symm.trans hbare) (by decide)
      | true =>
        have hcarries : Carries crypto bytes img.elf := .signed img hmagic hparse hverified
        simp only [loadImage, hmagic, hparse, hverified, if_true, ok_bind]
        rw [bind_ne_panic_iff (fun parsed => by simp)]
        constructor
        · rintro hne image (⟨_, _, hok, _⟩ | hbare)
          · cases hparse.symm.trans hok
            exact hne
          · exact absurd (hmagic.symm.trans hbare) (by decide)
        · exact fun hall => hall img.elf hcarries

theorem carries_length {image : List UInt8} (h : Carries crypto bytes image) :
    image.length ≤ bytes.length := by
  cases h with
  | signed img _ hparse _ =>
    obtain ⟨-, hin, rfl⟩ := parseRtsg_eq_ok hparse
    have hpiece : (envelopeAt bytes).elf.length ≤ leAt bytes 28 4 := length_take_le _ _
    omega
  | bare _ => exact Nat.le_refl _

/-- The image parsers on every byte string that fits a 64-bit address space: none of them
panics exactly when the image the bytes carry keeps its offsets in 64 bits. -/
theorem image_parsers_never_panic_iff (env : Env σ A S) {bytes : List UInt8}
    (hlen : bytes.length < 2 ^ 63) :
    (loadImage env.crypto env.target.build bytes ≠ .panic ∧
        parseElf env.target.build bytes ≠ .panic ∧
        (∀ aspace, mapElf env aspace bytes ≠ .panic) ∧
        findTaHead env.target.build bytes ≠ .panic ∧ parseRtsg bytes ≠ .panic) ↔
      ∀ image, Carries env.crypto bytes image → ImageFits env.target.build image := by
  constructor
  · rintro ⟨hload, -⟩ image hcarries
    exact (parseElf_ne_panic_iff (Nat.lt_of_le_of_lt (carries_length hcarries) hlen)).mp
      (loadImage_ne_panic_iff.mp hload image hcarries)
  · intro hall
    have hload : loadImage env.crypto env.target.build bytes ≠ .panic := by
      apply loadImage_ne_panic_iff.mpr
      intro image hcarries
      exact (parseElf_ne_panic_iff (Nat.lt_of_le_of_lt (carries_length hcarries) hlen)).mpr
        (hall image hcarries)
    have hparse : parseElf env.target.build bytes ≠ .panic := by
      cases hmagic : hasRtsgMagic bytes with
      | true => simp [parseElf_of_rtsg hmagic]
      | false => exact loadImage_ne_panic_iff.mp hload bytes (.bare hmagic)
    refine ⟨hload, hparse, fun aspace => (mapElf_ne_panic_iff env aspace).mpr hparse, ?_,
      parseRtsg_ne_panic bytes⟩
    apply (findTaHead_ne_panic_iff hlen).mpr
    intro h
    exact ((parseElf_ne_panic_iff hlen).mp hparse h).1

/-! ### Sample files -/

def elfHeader (phoff shoff phnum shnum shstrndx : Nat) : List UInt8 :=
  ELF_MAGIC ++ [2, 1] ++ replicate 26 0 ++ leBytes 8 phoff ++ leBytes 8 shoff ++
    leBytes 4 0 ++ leBytes 2 64 ++ leBytes 2 56 ++ leBytes 2 phnum ++ leBytes 2 64 ++
    leBytes 2 shnum ++ leBytes 2 shstrndx

def programHeader (off va filesz memsz : Nat) : List UInt8 :=
  leBytes 4 1 ++ leBytes 4 5 ++ leBytes 8 off ++ leBytes 8 va ++ leBytes 8 va ++
    leBytes 8 filesz ++ leBytes 8 memsz ++ leBytes 8 0x1000

def sectionHeader (name type off size link entsize : Nat) : List UInt8 :=
  leBytes 4 name ++ leBytes 4 type ++ replicate 16 0 ++ leBytes 8 off ++ leBytes 8 size ++
    leBytes 4 link ++ replicate 12 0 ++ leBytes 8 entsize

def symbolEntry (name value : Nat) : List UInt8 :=
  leBytes 4 name ++ leBytes 4 0 ++ leBytes 8 value ++ leBytes 8 0

/-- The string table of the samples: the section name, then the five symbols. -/
def sampleStrings : List UInt8 :=
  [0] ++ SECTION_NAME ++ [0] ++ TA_CREATE ++ [0] ++ TA_DESTROY ++ [0] ++ TA_OPEN ++ [0] ++
    TA_CLOSE ++ [0] ++ TA_INVOKE ++ [0]

/-- A file with one segment at `va` and the five symbols: header, program header, header
record, strings, symbols, section headers. -/
def sampleElf (va filesz memsz symbol : Nat) : List UInt8 :=
  elfHeader 64 416 1 3 1 ++ programHeader 0 va filesz memsz ++ encodeTaHead loadedProps ++
    sampleStrings ++ [17, 37, 58, 83, 109].flatMap (fun name => symbolEntry name symbol) ++
    sectionHeader 1 1 120 40 0 0 ++ sectionHeader 0 3 160 136 0 0 ++
    sectionHeader 0 2 296 120 1 24

theorem sampleElf_parse :
    parseElf .debug (sampleElf 0x10000 8 16 0x10004) =
      .ok ⟨loadedProps, [⟨0x10000, 0, 8, 16⟩],
        some ⟨0x10004, 0x10004, 0x10004, 0x10004, 0x10004⟩⟩ := by
  decide +kernel

theorem sampleElf_lt : (sampleElf 0x10000 8 16 0x10004).length < 2 ^ 63 := by
  decide +kernel

theorem sampleElf_bare : hasRtsgMagic (sampleElf 0x10000 8 16 0x10004) = false := by
  by_contra hne
  have hparse := sampleElf_parse
  rw [parseElf_of_rtsg (by simpa using hne)] at hparse
  cases hparse

theorem image_parsers_never_panic_iff_sample :
    (sampleElf 0x10000 8 16 0x10004).length < 2 ^ 63 ∧
      ImageFits .debug (sampleElf 0x10000 8 16 0x10004) := by
  have hlen := sampleElf_lt
  have hparse : parseElf .debug (sampleElf 0x10000 8 16 0x10004) ≠ .panic := by
    rw [sampleElf_parse]
    simp
  have hhead : findTaHead .debug (sampleElf 0x10000 8 16 0x10004) ≠ .panic := by
    intro hpanic
    rw [parseElf, hpanic] at hparse
    exact hparse rfl
  have hload : loadImage sampleSigner.crypto .debug (sampleElf 0x10000 8 16 0x10004) ≠ .panic := by
    apply loadImage_ne_panic_iff.mpr
    rintro image (⟨_, hmagic, _, _⟩ | _)
    · exact absurd (hmagic.symm.trans sampleElf_bare) (by decide)
    · exact hparse
  refine ⟨hlen, (image_parsers_never_panic_iff sampleSigner hlen).mp ⟨hload, hparse,
    fun aspace => ?_, hhead, parseRtsg_ne_panic _⟩ _ (.bare sampleElf_bare)⟩
  exact (mapElf_ne_panic_iff sampleSigner aspace).mpr hparse

/-- A 64-byte file whose section table starts at the top of the address space. -/
theorem huge_shoff_panics :
    parseElf .debug (elfHeader 64 0xFFFFFFFFFFFFFFC0 0 1 0) = .panic ∧
      parseElf .release (elfHeader 64 0xFFFFFFFFFFFFFFC0 0 1 0) = .panic ∧
      loadImage sampleSigner.crypto .debug (elfHeader 64 0xFFFFFFFFFFFFFFC0 0 1 0) = .panic := by
  decide +kernel

end Rustee.Os
