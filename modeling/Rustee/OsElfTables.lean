import Rustee.OsSignedImages

/-!
# The tables of an ELF file

As the parsers walk them: the section headers in `elf64_section` and `ta_symbols`, the program
headers in `pt_load`, the symbols of a symbol table. Each lemma says what one entry contributes
when its offset, a number here, fits 64 bits.
-/

namespace Rustee.Os

open Fallible List

variable {build : Build} {image : List UInt8}

/-! ### The fields of the headers -/

section
variable (image : List UInt8)

def ePhoff : Nat := leAt image 32 8
def eShoff : Nat := leAt image 40 8
def ePhentsize : Nat := leAt image 54 2
def ePhnum : Nat := leAt image 56 2
def eShentsize : Nat := leAt image 58 2
def eShnum : Nat := leAt image 60 2
def eShstrndx : Nat := leAt image 62 2

theorem eShoff_lt : eShoff image < 2 ^ 64 := leAt_lt image 40 8

theorem eShentsize_lt : eShentsize image < 2 ^ 16 := leAt_lt image 58 2

theorem eShnum_lt : eShnum image < 2 ^ 16 := leAt_lt image 60 2

theorem ePhoff_lt : ePhoff image < 2 ^ 64 := leAt_lt image 32 8

theorem ePhentsize_lt : ePhentsize image < 2 ^ 16 := leAt_lt image 54 2

theorem ePhnum_lt : ePhnum image < 2 ^ 16 := leAt_lt image 56 2

theorem shstr_lt : eShstrndx image * eShentsize image < 2 ^ 32 :=
  calc eShstrndx image * eShentsize image
      < 2 ^ 16 * 2 ^ 16 := Nat.mul_lt_mul'' (leAt_lt image 62 2) (eShentsize_lt image)
    _ = 2 ^ 32 := (pow_add 2 16 16).symm

end

section
variable (image : List UInt8) (o : Nat)

/-- Fields of the section header at `o`. -/
def shName : Nat := leAt image o 4
def shType : Nat := leAt image (o + 4) 4
def shOffset : Nat := leAt image (o + 24) 8
def shSize : Nat := leAt image (o + 32) 8
def shLink : Nat := leAt image (o + 40) 4
def shEntsize : Nat := leAt image (o + 56) 8

/-- The bytes of the section whose header is at `o`. -/
def sectionBytes : Option (List UInt8) :=
  fileRange image (shOffset image o) (shSize image o)

/-- The segment whose program header is at `o`. -/
def loadSegAt : LoadSeg where
  va := UInt64.ofNat (leAt image (o + 16) 8)
  fileOff := UInt64.ofNat (leAt image (o + 8) 8)
  fileSize := UInt64.ofNat (leAt image (o + 32) 8)
  memSize := UInt64.ofNat (leAt image (o + 40) 8)

end

/-! ### One entry of a table -/

section Entries

variable {base ent i : Nat} {k : Nat} {α : Type}

/-- The offset of an entry, computed in 64 bits, with the end of its header. -/
theorem entry_offset (hent : ent < 2 ^ 64) (hi : i < 2 ^ 64) {d : UInt64}
    (hd : d.toNat = k) (h : base + i * ent + k < 2 ^ 64) (f : UInt64 → UInt64 → Fallible UInt32 α) :
    (do
      let rel ← usizeMul build (UInt64.ofNat i) (UInt64.ofNat ent)
      let o ← usizeAdd build (UInt64.ofNat base) rel
      let hdrEnd ← usizeAdd build o d
      f o hdrEnd) = f (UInt64.ofNat (base + i * ent)) (UInt64.ofNat (base + i * ent + k)) := by
  rw [usizeMul_ofNat build hi hent (by omega), ok_bind, usizeAdd_ofNat build (by omega),
    ok_bind, usizeAdd_const build hd h, ok_bind]

section

variable (hlen : image.length < 2 ^ 63)
include hlen

/-- The entry behind one that lies in the file has an offset in 64 bits. -/
theorem entry_lt (hent : ent < 2 ^ 16)
    (h : base + i * ent + k ≤ image.length) : base + (i + 1) * ent + k < 2 ^ 64 := by
  rw [Nat.succ_mul]
  omega

/-- A field of an entry that lies in the file. -/
theorem readLeAt_entry {o e : Nat} (hin : ¬ image.length < o + e) (k j : Nat) (hle : k + j ≤ e) :
    (readLeAt build image (UInt64.ofNat o) (OfNat.ofNat k) (OfNat.ofNat j) :
      Fallible UInt32 Nat) = .ok (leAt image (o + k) j) := by
  have hk : (OfNat.ofNat k : UInt64).toNat = k := toNat_ofNat_of_lt (by omega)
  have hj : (OfNat.ofNat j : UInt64).toNat = j := toNat_ofNat_of_lt (by omega)
  exact readLeAt_ofNat build hk hj (by omega) (by omega) (by omega)

theorem elf64SectionLoop_succ (hent : ent < 2 ^ 16)
    (hi : i < 2 ^ 16) (h : base + i * ent + 64 < 2 ^ 64) (strtab name : List UInt8) (count : Nat) :
    elf64SectionLoop build image strtab name (UInt64.ofNat base) (UInt64.ofNat ent) (count + 1) i =
      if image.length < base + i * ent + 64 then .err TEE_ERROR_BAD_PARAMETERS
      else if cStr strtab (UInt64.ofNat (shName image (base + i * ent))) = some name then
        .ofOption TEE_ERROR_BAD_PARAMETERS (sectionBytes image (base + i * ent))
      else elf64SectionLoop build image strtab name (UInt64.ofNat base) (UInt64.ofNat ent)
        count (i + 1) := by
  rw [elf64SectionLoop, entry_offset (k := 64) (by omega) (by omega) rfl h, toNat_ofNat_of_lt h]
  by_cases hin : image.length < base + i * ent + 64
  · rw [if_pos hin, if_pos hin]
  · have hoff := leAt_lt image (base + i * ent + 24) 8
    have hsize := leAt_lt image (base + i * ent + 32) 8
    rw [if_neg hin, if_neg hin, readLeAt_entry hlen hin 0 4 (by decide),
      readLeAt_entry hlen hin 24 8 (by decide), readLeAt_entry hlen hin 32 8 (by decide)]
    simp only [ok_bind]
    rw [getRange_saturatingAdd hlen (by simpa using hoff) (by simpa using hsize)]
    rfl

theorem ptLoadLoop_succ (hent : ent < 2 ^ 16)
    (hi : i < 2 ^ 16) (h : base + i * ent + 56 < 2 ^ 64) (segs : List LoadSeg) (count : Nat) :
    ptLoadLoop build image (UInt64.ofNat base) (UInt64.ofNat ent) (count + 1) i segs =
      if image.length < base + i * ent + 56 then .err TEE_ERROR_BAD_PARAMETERS
      else ptLoadLoop build image (UInt64.ofNat base) (UInt64.ofNat ent) count (i + 1)
        (if leAt image (base + i * ent) 4 = 1 then segs ++ [loadSegAt image (base + i * ent)]
        else segs) := by
  rw [ptLoadLoop, entry_offset (k := 56) (by omega) (by omega) rfl h, toNat_ofNat_of_lt h]
  by_cases hin : image.length < base + i * ent + 56
  · rw [if_pos hin, if_pos hin]
  · rw [if_neg hin, if_neg hin, readLeAt_entry hlen hin 0 4 (by decide), ok_bind, add_zero]
    by_cases htype : leAt image (base + i * ent) 4 = 1
    · rw [if_neg (fun hne => hne htype), if_pos htype, readLeAt_entry hlen hin 8 8 (by decide),
        readLeAt_entry hlen hin 16 8 (by decide), readLeAt_entry hlen hin 32 8 (by decide),
        readLeAt_entry hlen hin 40 8 (by decide)]
      rfl
    · rw [if_pos htype, if_neg htype]

theorem symbolLoop_succ (hent : ent < 2 ^ 64) (hi : i < 2 ^ 64)
    (h : base + i * ent + 24 < 2 ^ 64) (strtab : List UInt8) (names : SymbolSlots) (count : Nat) :
    symbolLoop build image strtab (UInt64.ofNat base) (UInt64.ofNat ent) (count + 1) i names =
      if image.length < base + i * ent + 24 then .ok names
      else symbolLoop build image strtab (UInt64.ofNat base) (UInt64.ofNat ent) count (i + 1)
        (recordSymbol names ((cStr strtab (UInt64.ofNat (leAt image (base + i * ent) 4))).getD [])
          (UInt64.ofNat (leAt image (base + i * ent + 8) 8))) := by
  rw [symbolLoop, entry_offset (k := 24) hent hi rfl h, toNat_ofNat_of_lt h]
  by_cases hin : image.length < base + i * ent + 24
  · rw [if_pos hin, if_pos hin]
  · rw [if_neg hin, if_neg hin, readLeAt_entry hlen hin 0 4 (by decide),
      readLeAt_entry hlen hin 8 8 (by decide)]
    rfl

end

/-- The section header at `o` is a symbol table that `ta_symbols` looks into: type
SHT_SYMTAB or SHT_DYNSYM, entries of some size, and a string table header in the
file. -/
def Scanned (image : List UInt8) (base ent o : Nat) : Prop :=
  (shType image o = 2 ∨ shType image o = 11) ∧ shEntsize image o ≠ 0 ∧
    base + shLink image o * ent + 40 ≤ image.length

instance (image : List UInt8) (base ent o : Nat) : Decidable (Scanned image base ent o) := by
  unfold Scanned
  infer_instance

/-- What `ta_symbols` does with a table it looks into. -/
def scanSymbols (build : Build) (image : List UInt8) (o strHdr : Nat) (names : SymbolSlots) :
    Fallible UInt32 SymbolSlots := do
  let strEnd ← usizeAdd build (UInt64.ofNat (shOffset image strHdr))
    (UInt64.ofNat (shSize image strHdr))
  let strtab ← .ofOption TEE_ERROR_BAD_PARAMETERS
    (getRange image (UInt64.ofNat (shOffset image strHdr)) strEnd)
  symbolLoop build image strtab (UInt64.ofNat (shOffset image o))
    (UInt64.ofNat (shEntsize image o)) (shSize image o / shEntsize image o) 0 names

theorem symbolSectionLoop_succ (hlen : image.length < 2 ^ 63) (hent : ent < 2 ^ 16)
    (hi : i < 2 ^ 16) (h : base + i * ent + 64 < 2 ^ 64) (names : SymbolSlots) (count : Nat) :
    symbolSectionLoop build image (UInt64.ofNat base) (UInt64.ofNat ent) (count + 1) i names =
      if image.length < base + i * ent + 64 then .err TEE_ERROR_BAD_PARAMETERS
      else
        (if Scanned image base ent (base + i * ent) then
          scanSymbols build image (base + i * ent)
            (base + shLink image (base + i * ent) * ent) names
        else .ok names) >>=
          symbolSectionLoop build image (UInt64.ofNat base) (UInt64.ofNat ent) count (i + 1) := by
  rw [symbolSectionLoop, entry_offset (k := 64) (by omega) (by omega) rfl h, toNat_ofNat_of_lt h]
  by_cases hin : image.length < base + i * ent + 64
  · rw [if_pos hin, if_pos hin]
  · have hlink : leAt image (base + i * ent + 40) 4 < 2 ^ 32 := leAt_lt image _ 4
    have hstr : leAt image (base + i * ent + 40) 4 * ent < 2 ^ 48 :=
      calc leAt image (base + i * ent + 40) 4 * ent
          < 2 ^ 32 * 2 ^ 16 := Nat.mul_lt_mul'' hlink hent
        _ = 2 ^ 48 := (Nat.pow_add 2 32 16).symm
    have hfits : base + leAt image (base + i * ent + 40) 4 * ent + 40 < 2 ^ 64 := by omega
    rw [if_neg hin, if_neg hin, readLeAt_entry hlen hin 4 4 (by decide),
      readLeAt_entry hlen hin 40 4 (by decide), readLeAt_entry hlen hin 24 8 (by decide),
      readLeAt_entry hlen hin 32 8 (by decide), readLeAt_entry hlen hin 56 8 (by decide)]
    simp only [ok_bind]
    rw [entry_offset (k := 40) (by omega) (by omega) rfl hfits, toNat_ofNat_of_lt hfits]
    by_cases htype : leAt image (base + i * ent + 4) 4 = 2 ∨ leAt image (base + i * ent + 4) 4 = 11
    · rw [if_neg (by omega)]
      by_cases hzero : leAt image (base + i * ent + 56) 8 = 0
      · rw [if_pos hzero, if_neg (fun hscan : Scanned _ _ _ _ => hscan.2.1 hzero), ok_bind]
      · rw [if_neg hzero]
        by_cases hhdr : image.length < base + leAt image (base + i * ent + 40) 4 * ent + 40
        · rw [if_pos hhdr, if_neg (fun hscan : Scanned _ _ _ _ =>
            Nat.not_le.mpr hhdr hscan.2.2), ok_bind]
        · have hscan : Scanned image base ent (base + i * ent) :=
            ⟨htype, hzero, Nat.le_of_not_lt hhdr⟩
          rw [if_neg hhdr, if_pos hscan, readLeAt_entry hlen hhdr 24 8 (by decide),
            readLeAt_entry hlen hhdr 32 8 (by decide), scanSymbols]
          simp only [ok_bind, bind_assoc]
          rfl
    · rw [if_pos (by omega), if_neg (fun hscan : Scanned _ _ _ _ => htype hscan.1), ok_bind]

/-- The first entry of a table whose base is so high that the end of its header does not
fit 64 bits: a debug build panics at the sum, a release build at the first read. -/
theorem entry_overflow {d n : UInt64} (hd : d.toNat = k)
    (hent : ent < 2 ^ 64) (hbase : base < 2 ^ 64) (h : 2 ^ 64 ≤ base + k) (hk : k ≤ image.length)
    (hlen : image.length < 2 ^ 63) (f : UInt64 → Nat → Fallible UInt32 α) (g : Fallible UInt32 α) :
    (do
      let rel ← usizeMul build (UInt64.ofNat 0) (UInt64.ofNat ent)
      let o ← usizeAdd build (UInt64.ofNat base) rel
      let hdrEnd ← usizeAdd build o d
      if image.length < hdrEnd.toNat then g
      else
        let v ← readLeAt build image o 0 n
        f o v) = .panic := by
  have hmul : (usizeMul build (UInt64.ofNat 0) (UInt64.ofNat ent) : Fallible UInt32 UInt64) =
      .ok (UInt64.ofNat 0) := by
    rw [usizeMul_ofNat build (by omega) hent (by omega), Nat.zero_mul]
  have hbaseNat : (UInt64.ofNat base).toNat = base := toNat_ofNat_of_lt hbase
  rw [hmul, ok_bind, usizeAdd_ofNat build (by omega), ok_bind, Nat.add_zero,
    usizeAdd_overflow (by rw [hbaseNat, hd]; exact h)]
  cases build with
  | debug => rfl
  | release =>
    have hend : (UInt64.ofNat (base + k - 2 ^ 64)).toNat = base + k - 2 ^ 64 :=
      toNat_ofNat_of_lt (by omega)
    rw [ok_bind, hbaseNat, hd, hend, if_neg (by omega),
      readLeAt_outside (by rw [hbaseNat]; simpa using hbase) (by rw [hbaseNat]; simp; omega),
      panic_bind]

end Entries

/-! ### Whole tables -/

section Tables

variable {base ent i count : Nat}

/-- The section headers from `lo` on are searched for a name up to the first that has
it; `head` is what that section holds. -/
def FirstNamed (image strtab name : List UInt8) (base ent lo hi : Nat) (head : List UInt8) :
    Prop :=
  ∃ j, lo ≤ j ∧ j < hi ∧ (∀ k, lo ≤ k → k ≤ j → base + k * ent + 64 ≤ image.length) ∧
    (∀ k, lo ≤ k → k < j → cStr strtab (UInt64.ofNat (shName image (base + k * ent))) ≠ some name) ∧
    cStr strtab (UInt64.ofNat (shName image (base + j * ent))) = some name ∧
    sectionBytes image (base + j * ent) = some head

theorem elf64SectionLoop_spec (build : Build) (hlen : image.length < 2 ^ 63)
    (hent : ent < 2 ^ 16) (strtab name : List UInt8) (hcount : i + count ≤ 2 ^ 16)
    (h : 0 < count → base + i * ent + 64 < 2 ^ 64) :
    elf64SectionLoop build image strtab name (UInt64.ofNat base) (UInt64.ofNat ent) count i ≠
        .panic ∧
      ∀ head, elf64SectionLoop build image strtab name (UInt64.ofNat base) (UInt64.ofNat ent)
        count i = .ok head ↔ FirstNamed image strtab name base ent i (i + count) head := by
  induction count generalizing i with
  | zero =>
    refine ⟨by simp [elf64SectionLoop], fun head => ⟨fun hok => (by cases hok), ?_⟩⟩
    rintro ⟨j, hlo, hhi, -⟩
    omega
  | succ count ih =>
    have hfits : base + i * ent + 64 < 2 ^ 64 := h (Nat.succ_pos _)
    rw [elf64SectionLoop_succ hlen hent (by omega) hfits]
    by_cases hin : image.length < base + i * ent + 64
    · rw [if_pos hin]
      refine ⟨by simp, fun head => ⟨fun hok => (by cases hok), ?_⟩⟩
      rintro ⟨j, hlo, -, hfile, -⟩
      have hfirst := hfile i (Nat.le_refl _) hlo
      omega
    · rw [if_neg hin]
      by_cases hname : cStr strtab (UInt64.ofNat (shName image (base + i * ent))) = some name
      · rw [if_pos hname]
        constructor
        · cases sectionBytes image (base + i * ent) <;> simp [ofOption]
        · intro head
          constructor
          · intro hok
            refine ⟨i, Nat.le_refl _, by omega, fun k hlo hhi => ?_, fun k hlo hhi => ?_, hname, ?_⟩
            · cases Nat.le_antisymm hlo hhi
              omega
            · omega
            · cases hbytes : sectionBytes image (base + i * ent) with
              | none =>
                rw [hbytes] at hok
                cases hok
              | some =>
                rw [hbytes] at hok
                cases hok
                rfl
          · rintro ⟨j, hlo, -, -, hbefore, -, hbytes⟩
            have hj : j = i := by
              by_contra hne
              exact hbefore i (Nat.le_refl _) (by omega) hname
            rw [hj] at hbytes
            rw [hbytes]
            rfl
      · rw [if_neg hname]
        have hnext := ih (i := i + 1) (by omega)
          (fun _ => entry_lt hlen hent (Nat.le_of_not_lt hin))
        refine ⟨hnext.1, fun head => (hnext.2 head).trans ?_⟩
        constructor
        · rintro ⟨j, hlo, hhi, hfile, hbefore, hrest⟩
          refine ⟨j, by omega, by omega, fun k hk hkj => ?_, fun k hk hkj => ?_, hrest⟩
          · rcases Nat.eq_or_lt_of_le hk with rfl | hk
            · exact Nat.le_of_not_lt hin
            · exact hfile k hk hkj
          · rcases Nat.eq_or_lt_of_le hk with rfl | hk
            · exact hname
            · exact hbefore k hk hkj
        · rintro ⟨j, hlo, hhi, hfile, hbefore, hnamed, hbytes⟩
          have hj : i + 1 ≤ j := by
            rcases Nat.eq_or_lt_of_le hlo with rfl | hlt
            · exact absurd hnamed hname
            · exact hlt
          exact ⟨j, hj, by omega, fun k hk => hfile k (by omega),
            fun k hk => hbefore k (by omega), hnamed, hbytes⟩

theorem forall_from_succ {P : Nat → Prop} {lo hi : Nat} (hlt : lo < hi) :
    (∀ j, lo ≤ j → j < hi → P j) ↔ P lo ∧ ∀ j, lo + 1 ≤ j → j < hi → P j := by
  constructor
  · intro h
    exact ⟨h lo (Nat.le_refl _) hlt, fun j hlo hhi => h j (by omega) hhi⟩
  · rintro ⟨hfirst, hrest⟩ j hlo hhi
    rcases Nat.eq_or_lt_of_le hlo with rfl | hlo
    · exact hfirst
    · exact hrest j hlo hhi

/-- The headers of `count` segments, from one whose offset fits 64 bits. -/
theorem ptLoadLoop_decided (hlen : image.length < 2 ^ 63) (hent : ent < 2 ^ 16)
    (hcount : i + count ≤ 2 ^ 16) (hfits : 0 < count → base + i * ent + 56 < 2 ^ 64)
    (segs : List LoadSeg) :
    (ptLoadLoop build image (UInt64.ofNat base) (UInt64.ofNat ent) count i segs).Decided True
      (∀ j, i ≤ j → j < i + count → base + j * ent + 56 ≤ image.length)
      (segs ++ ((range' i count).filter fun j =>
        leAt image (base + j * ent) 4 = 1).map fun j => loadSegAt image (base + j * ent))
      TEE_ERROR_BAD_PARAMETERS := by
  induction count generalizing i segs with
  | zero =>
    refine ⟨fun hnot => absurd trivial hnot, fun _ _ => by simp [ptLoadLoop],
      fun _ hnot => absurd (fun j hlo hhi => ?_) hnot⟩
    omega
  | succ count ih =>
    rw [ptLoadLoop_succ hlen hent (by omega) (hfits (Nat.succ_pos _)), forall_from_succ (by omega),
      range'_succ]
    by_cases hin : image.length < base + i * ent + 56
    · rw [if_pos hin]
      exact ⟨fun hnot => absurd trivial hnot, fun _ h => absurd h.1 (Nat.not_le.mpr hin),
        fun _ _ => rfl⟩
    · have hfile := Nat.le_of_not_lt hin
      have hnext := fun segs => ih (i := i + 1) (by omega) (fun _ => entry_lt hlen hent hfile) segs
      rw [if_neg hin, show i + (count + 1) = i + 1 + count by omega]
      refine ⟨fun hnot => absurd trivial hnot, fun _ h => ?_,
        fun _ h => (hnext _).fails trivial fun hrest => h ⟨hfile, hrest⟩⟩
      rw [(hnext _).returns trivial h.2]
      by_cases htype : leAt image (base + i * ent) 4 = 1
      · simp [htype]
      · simp [htype]

/-- The symbol at `o`: its name and its value. -/
def symbolAt (image strtab : List UInt8) (o : Nat) : List UInt8 × UInt64 :=
  ((cStr strtab (UInt64.ofNat (leAt image o 4))).getD [], UInt64.ofNat (leAt image (o + 8) 8))

def recordAll (names : SymbolSlots) (symbols : List (List UInt8 × UInt64)) : SymbolSlots :=
  symbols.foldl (fun acc symbol => recordSymbol acc symbol.1 symbol.2) names

/-- The symbols of one table, up to the first that is not in the file. When the first
offset fits 64 bits, so do the others that are looked at, since each lies behind one
that is in the file. -/
theorem symbolLoop_eq (hlen : image.length < 2 ^ 63) {size : Nat} (hsize : size < 2 ^ 64)
    (hpos : 0 < ent) (strtab : List UInt8) (hcount : (i + count) * ent ≤ size)
    (h : 0 < count → base + i * ent + 24 < 2 ^ 64) (names : SymbolSlots) :
    symbolLoop build image strtab (UInt64.ofNat base) (UInt64.ofNat ent) count i names =
      .ok (recordAll names (((range' i count).takeWhile fun s =>
        base + s * ent + 24 ≤ image.length).map fun s =>
          symbolAt image strtab (base + s * ent))) := by
  induction count generalizing i names with
  | zero => rfl
  | succ count ih =>
    have hle : i + (count + 1) ≤ size := Nat.le_trans (Nat.le_mul_of_pos_right _ hpos) hcount
    have hent : ent ≤ size := Nat.le_trans (Nat.le_mul_of_pos_left _ (by omega)) hcount
    rw [symbolLoop_succ hlen (by omega) (by omega) (h (Nat.succ_pos _)), range'_succ]
    by_cases hin : image.length < base + i * ent + 24
    · rw [if_pos hin, takeWhile_cons_of_neg (by simpa using hin)]
      rfl
    · rw [if_neg hin, takeWhile_cons_of_pos (by simpa using Nat.le_of_not_lt hin)]
      apply ih (by rwa [Nat.add_assoc, Nat.add_comm 1 count])
      intro hmore
      -- two more entries fit the table, so one of them is at most half of 2^64
      have htwo : 2 * ent ≤ size := Nat.le_trans (Nat.mul_le_mul_right ent (by omega)) hcount
      rw [Nat.succ_mul]
      omega

theorem symbolLoop_overflow (hlen : image.length < 2 ^ 63) (hlong : 24 ≤ image.length)
    (hent : ent < 2 ^ 64) (hbase : base < 2 ^ 64) (h : 2 ^ 64 ≤ base + 24) (hcount : 0 < count)
    (strtab : List UInt8) (names : SymbolSlots) :
    symbolLoop build image strtab (UInt64.ofNat base) (UInt64.ofNat ent) count 0 names =
      .panic := by
  obtain ⟨count, rfl⟩ : ∃ k, count = k + 1 := ⟨count - 1, by omega⟩
  rw [symbolLoop]
  exact entry_overflow (k := 24) rfl hent hbase h hlong hlen _ _

/-- The scan of the symbol table at `o` stays in 64 bits: a debug build adds up the
bounds of the string table, and the first symbol is looked at if there is one. -/
def SymtabFits (build : Build) (image : List UInt8) (o strHdr : Nat) : Prop :=
  (build = .debug → shOffset image strHdr + shSize image strHdr < 2 ^ 64) ∧
    (shOffset image strHdr + shSize image strHdr ≤ image.length →
      shEntsize image o ≤ shSize image o → shOffset image o + 24 < 2 ^ 64)

section Scan

variable {o strHdr : Nat}

section
variable (image : List UInt8) (o : Nat)

theorem shOffset_lt : shOffset image o < 2 ^ 64 :=
  leAt_lt image (o + 24) 8

theorem shSize_lt : shSize image o < 2 ^ 64 :=
  leAt_lt image (o + 32) 8

theorem shEntsize_lt : shEntsize image o < 2 ^ 64 :=
  leAt_lt image (o + 56) 8

end

/-- A string table outside the file: an error, unless its bounds overflow in a debug
build. -/
theorem scanSymbols_outside (hlen : image.length < 2 ^ 63)
    (hout : image.length < shOffset image strHdr + shSize image strHdr) (names : SymbolSlots) :
    scanSymbols build image o strHdr names =
      if build = .debug ∧ 2 ^ 64 ≤ shOffset image strHdr + shSize image strHdr then .panic
      else .err TEE_ERROR_BAD_PARAMETERS := by
  have hoff := shOffset_lt image strHdr
  have hsize := shSize_lt image strHdr
  rw [scanSymbols]
  by_cases hfits : shOffset image strHdr + shSize image strHdr < 2 ^ 64
  · rw [usizeAdd_ofNat build hfits, ok_bind, getRange_add hfits,
      fileRange_eq_none.mpr hout, if_neg (by omega)]
    rfl
  · rw [usizeAdd_overflow (by rw [toNat_ofNat_of_lt hoff, toNat_ofNat_of_lt hsize]; omega)]
    cases build with
    | debug => rw [if_pos ⟨rfl, Nat.le_of_not_lt hfits⟩, panic_bind]
    | release =>
      rw [toNat_ofNat_of_lt hoff, toNat_ofNat_of_lt hsize, ok_bind, getRange,
        toNat_ofNat_of_lt hoff, toNat_ofNat_of_lt (by omega), if_neg (by omega),
        if_neg (by simp)]
      rfl

theorem scanSymbols_inside (build : Build) (o : Nat) (hlen : image.length < 2 ^ 63)
    (hin : shOffset image strHdr + shSize image strHdr ≤ image.length) (names : SymbolSlots) :
    scanSymbols build image o strHdr names =
      symbolLoop build image ((image.drop (shOffset image strHdr)).take (shSize image strHdr))
        (UInt64.ofNat (shOffset image o)) (UInt64.ofNat (shEntsize image o))
        (shSize image o / shEntsize image o) 0 names := by
  have hfits : shOffset image strHdr + shSize image strHdr < 2 ^ 64 := by omega
  rw [scanSymbols, usizeAdd_ofNat build hfits, ok_bind, getRange_add hfits, fileRange, if_pos hin]
  rfl

theorem scanSymbols_of_not_fits (hlen : image.length < 2 ^ 63) (hlong : 64 ≤ image.length)
    (hpos : shEntsize image o ≠ 0) (h : ¬ SymtabFits build image o strHdr)
    (names : SymbolSlots) : scanSymbols build image o strHdr names = .panic := by
  by_cases hout : image.length < shOffset image strHdr + shSize image strHdr
  · rw [scanSymbols_outside hlen hout, if_pos]
    by_contra hnot
    refine h ⟨fun hdebug => ?_, fun hin => absurd hout (Nat.not_lt.mpr hin)⟩
    by_contra hbig
    exact hnot ⟨hdebug, Nat.le_of_not_lt hbig⟩
  · have hbig : shEntsize image o ≤ shSize image o ∧ ¬ shOffset image o + 24 < 2 ^ 64 := by
      by_contra hnot
      refine h ⟨fun _ => by omega, fun _ hone => ?_⟩
      by_contra hbig
      exact hnot ⟨hone, hbig⟩
    rw [scanSymbols_inside build o hlen (Nat.le_of_not_lt hout)]
    exact symbolLoop_overflow hlen (by omega) (shEntsize_lt image o) (shOffset_lt image o)
      (Nat.le_of_not_lt hbig.2) (Nat.div_pos hbig.1 (Nat.pos_of_ne_zero hpos)) _ names

/-- The symbols of the table whose header is at `o`. -/
def tableSymbols (image strtab : List UInt8) (o : Nat) : List (List UInt8 × UInt64) :=
  ((range (shSize image o / shEntsize image o)).takeWhile fun s =>
    shOffset image o + s * shEntsize image o + 24 ≤ image.length).map fun s =>
      symbolAt image strtab (shOffset image o + s * shEntsize image o)

theorem scanSymbols_of_fits (hlen : image.length < 2 ^ 63) (hpos : shEntsize image o ≠ 0)
    (h : SymtabFits build image o strHdr) (names : SymbolSlots) :
    scanSymbols build image o strHdr names =
      match sectionBytes image strHdr with
      | some strtab => .ok (recordAll names (tableSymbols image strtab o))
      | none => .err TEE_ERROR_BAD_PARAMETERS := by
  rw [sectionBytes, fileRange]
  by_cases hin : shOffset image strHdr + shSize image strHdr ≤ image.length
  · rw [if_pos hin, scanSymbols_inside build o hlen hin names,
      symbolLoop_eq hlen (shSize_lt image o) (Nat.pos_of_ne_zero hpos)]
    · simp only [tableSymbols, range_eq_range']
    · rw [Nat.zero_add]
      exact Nat.div_mul_le_self _ _
    · intro hone
      rw [Nat.zero_mul, Nat.add_zero]
      exact h.2 hin ((Nat.div_pos_iff.mp hone).2)
  · rw [if_neg hin, scanSymbols_outside hlen (Nat.lt_of_not_le hin), if_neg]
    rintro ⟨hdebug, hbig⟩
    exact absurd (h.1 hdebug) (Nat.not_lt.mpr hbig)

end Scan

/-- The sections `lo, …, hi - 1`: every symbol table that is reached stays in 64 bits. A
table is not reached behind a header that is not in the file, or behind a scanned
table whose strings are not. -/
def SymtabsFit (build : Build) (image : List UInt8) (base ent lo hi : Nat) : Prop :=
  ∀ j, lo ≤ j → j < hi → (∀ k, lo ≤ k → k ≤ j → base + k * ent + 64 ≤ image.length) →
    (∀ k, lo ≤ k → k < j → Scanned image base ent (base + k * ent) →
      (sectionBytes image (base + shLink image (base + k * ent) * ent)).isSome) →
    Scanned image base ent (base + j * ent) →
    SymtabFits build image (base + j * ent) (base + shLink image (base + j * ent) * ent)

/-- Behind a section that is in the file and, if scanned, is scanned to its end, the next
sections decide. -/
theorem symtabsFit_succ {hi : Nat} (hin : base + i * ent + 64 ≤ image.length)
    (hscan : Scanned image base ent (base + i * ent) →
      SymtabFits build image (base + i * ent) (base + shLink image (base + i * ent) * ent) ∧
        (sectionBytes image (base + shLink image (base + i * ent) * ent)).isSome) :
    SymtabsFit build image base ent i hi ↔ SymtabsFit build image base ent (i + 1) hi := by
  constructor
  · intro h j hlo hhi hfile hstrings
    refine h j (by omega) hhi (fun k hk hkj => ?_) (fun k hk hkj hk' => ?_)
    · rcases Nat.eq_or_lt_of_le hk with rfl | hk
      · exact hin
      · exact hfile k hk hkj
    · rcases Nat.eq_or_lt_of_le hk with rfl | hk
      · exact (hscan hk').2
      · exact hstrings k hk hkj hk'
  · intro h j hlo hhi hfile hstrings hj
    rcases Nat.eq_or_lt_of_le hlo with rfl | hlo
    · exact (hscan hj).1
    · exact h j hlo hhi (fun k hk => hfile k (by omega)) (fun k hk => hstrings k (by omega)) hj

end Tables

end Rustee.Os
