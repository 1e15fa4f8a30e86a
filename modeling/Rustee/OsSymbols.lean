import Rustee.OsElfTables

/-!
# The entry points a file defines

`ta_symbols` walks every symbol table of the file and keeps, for each of the five names, the last
value seen. This file says what that is in terms of the file alone, and that a file which does not
define all five has no symbols to the parser, but is not refused.
-/

namespace Rustee.Os

open Fallible List

variable {build : Build} {image : List UInt8}

/-! ### The last value of a name -/

def symbolValue? (symbols : List (List UInt8 × UInt64)) (name : List UInt8) : Option UInt64 :=
  (symbols.filter fun symbol => symbol.1 = name).getLast?.map Prod.snd

theorem symbolValue?_cons (symbol : List UInt8 × UInt64)
    (symbols : List (List UInt8 × UInt64)) (name : List UInt8) :
    symbolValue? (symbol :: symbols) name =
      (symbolValue? symbols name).or (if symbol.1 = name then some symbol.2 else none) := by
  rw [symbolValue?, symbolValue?, filter_cons]
  by_cases h : symbol.1 = name
  · simp only [h, decide_true, if_true, getLast?_cons]
    cases (symbols.filter fun symbol => symbol.1 = name).getLast? with
    | none | some => simp
  · simp [h]

theorem recordAll_eq (symbols : List (List UInt8 × UInt64)) (names : SymbolSlots) :
    recordAll names symbols =
      names.map fun slot => (slot.1, (symbolValue? symbols slot.1).getD slot.2) := by
  induction symbols generalizing names with
  | nil => simp [recordAll, symbolValue?]
  | cons symbol symbols ih =>
    change recordAll (recordSymbol names symbol.1 symbol.2) symbols = _
    rw [ih, recordSymbol, map_map]
    apply map_congr_left
    intro slot _
    rw [symbolValue?_cons]
    by_cases h : symbol.1 = slot.1
    · cases hlast : symbolValue? symbols slot.1 with
      | none | some => simp [h, hlast]
    · cases hlast : symbolValue? symbols slot.1 with
      | none | some => simp [h, hlast]

/-! ### The symbols of a file -/

section Sections

variable {base ent i count : Nat}

/-- The symbols of the section whose header is at `o`, if it is a symbol table that is
looked into. -/
def sectionSymbols (image : List UInt8) (base ent o : Nat) : List (List UInt8 × UInt64) :=
  if Scanned image base ent o then
    match sectionBytes image (base + shLink image o * ent) with
    | some strtab => tableSymbols image strtab o
    | none => []
  else []

/-- The section headers `lo, …, hi - 1` are in the file, and so are the strings of the
symbol tables among them. -/
def SymtabsReadable (image : List UInt8) (base ent lo hi : Nat) : Prop :=
  ∀ j, lo ≤ j → j < hi → base + j * ent + 64 ≤ image.length ∧
    (Scanned image base ent (base + j * ent) →
      (sectionBytes image (base + shLink image (base + j * ent) * ent)).isSome)

theorem symbolSectionLoop_decided (hlen : image.length < 2 ^ 63) (hlong : 64 ≤ image.length)
    (hent : ent < 2 ^ 16) (hcount : i + count ≤ 2 ^ 16)
    (h : 0 < count → base + i * ent + 64 < 2 ^ 64) (names : SymbolSlots) :
    (symbolSectionLoop build image (UInt64.ofNat base) (UInt64.ofNat ent) count i names).Decided
      (SymtabsFit build image base ent i (i + count)) (SymtabsReadable image base ent i (i + count))
      (recordAll names ((range' i count).flatMap fun j =>
        sectionSymbols image base ent (base + j * ent))) TEE_ERROR_BAD_PARAMETERS := by
  induction count generalizing i names with
  | zero =>
    refine ⟨fun hnot => absurd (fun j hlo hhi => ?_) hnot, fun _ _ => rfl,
      fun _ hnot => absurd (fun j hlo hhi => ?_) hnot⟩
    · omega
    · omega
  | succ count ih =>
    have hhi : i + (count + 1) = i + 1 + count := by omega
    have hread : SymtabsReadable image base ent i (i + 1 + count) ↔ _ ∧ _ :=
      forall_from_succ (by omega)
    rw [symbolSectionLoop_succ hlen hent (by omega) (h (Nat.succ_pos _)), hhi, hread,
      range'_succ, flatMap_cons, recordAll, foldl_append]
    by_cases hin : image.length < base + i * ent + 64
    · rw [if_pos hin]
      refine ⟨fun hnot => absurd (fun j hlo hhi hfile => ?_) hnot,
        fun _ hread => absurd hread.1.1 (Nat.not_le.mpr hin), fun _ _ => rfl⟩
      have hfirst := hfile i (Nat.le_refl _) hlo
      omega
    · have hfile := Nat.le_of_not_lt hin
      have hnext := fun names => ih (i := i + 1) (by omega)
        (fun _ => entry_lt hlen hent hfile) names
      rw [if_neg hin]
      by_cases hscan : Scanned image base ent (base + i * ent)
      · rw [if_pos hscan, sectionSymbols, if_pos hscan]
        by_cases hfits : SymtabFits build image (base + i * ent)
            (base + shLink image (base + i * ent) * ent)
        · rw [scanSymbols_of_fits hlen hscan.2.1 hfits]
          cases hstr : sectionBytes image (base + shLink image (base + i * ent) * ent) with
          | some strtab =>
            obtain ⟨hpanics, hreturns, hfails⟩ :=
              hnext (recordAll names (tableSymbols image strtab (base + i * ent)))
            rw [ok_bind, symtabsFit_succ hfile fun _ => ⟨hfits, by rw [hstr]; rfl⟩]
            exact ⟨hpanics, fun hfit hread => hreturns hfit hread.2, fun hfit hread =>
              hfails hfit fun hrest => hread ⟨⟨hfile, fun _ => rfl⟩, hrest⟩⟩
          | none =>
            refine ⟨fun hnot => absurd (fun j hlo hhi _ hstrings _ => ?_) hnot,
              fun _ hread => ?_, fun _ _ => rfl⟩
            · rcases Nat.eq_or_lt_of_le hlo with rfl | hlo
              · exact hfits
              · have hsome := hstrings i (Nat.le_refl _) hlo hscan
                rw [hstr] at hsome
                cases hsome
            · cases hread.1.2 hscan
        · have hnot : ¬ SymtabsFit build image base ent i (i + 1 + count) := by
            intro hall
            refine hfits (hall i (Nat.le_refl _) (by omega) (fun k hk hki => ?_)
              (fun k hk hki => ?_) hscan)
            · cases Nat.le_antisymm hk hki
              exact hfile
            · omega
          rw [scanSymbols_of_not_fits hlen hlong hscan.2.1 hfits, panic_bind]
          exact ⟨fun _ => rfl, fun hall => absurd hall hnot, fun hall => absurd hall hnot⟩
      · obtain ⟨hpanics, hreturns, hfails⟩ := hnext names
        rw [if_neg hscan, sectionSymbols, if_neg hscan, ok_bind,
          symtabsFit_succ hfile fun hyes => absurd hyes hscan]
        exact ⟨hpanics, fun hfit hread => hreturns hfit hread.2, fun hfit hread =>
          hfails hfit fun hrest => hread ⟨⟨hfile, fun hyes => absurd hyes hscan⟩, hrest⟩⟩

end Sections

def imageSymbols (image : List UInt8) : List (List UInt8 × UInt64) :=
  (range (eShnum image)).flatMap fun j =>
    sectionSymbols image (eShoff image) (eShentsize image) (eShoff image + j * eShentsize image)

def symbolValue (image name : List UInt8) : UInt64 :=
  (symbolValue? (imageSymbols image) name).getD 0

def TA_NAMES : List (List UInt8) := [TA_CREATE, TA_DESTROY, TA_OPEN, TA_CLOSE, TA_INVOKE]

/-- The symbol tables can be read to their end, and each of the five symbols has a value
that is not zero. -/
def DefinesEntryPoints (image : List UInt8) : Prop :=
  SymtabsReadable image (eShoff image) (eShentsize image) 0 (eShnum image) ∧
    ∀ name ∈ TA_NAMES, symbolValue image name ≠ 0

def entrySymbols (image : List UInt8) : TaSymbols where
  create := symbolValue image TA_CREATE
  destroy := symbolValue image TA_DESTROY
  openSession := symbolValue image TA_OPEN
  closeSession := symbolValue image TA_CLOSE
  invoke := symbolValue image TA_INVOKE

theorem recordAll_symbolSlots (image : List UInt8) :
    recordAll symbolSlots (imageSymbols image) =
      TA_NAMES.map fun name => (name, symbolValue image name) := by
  rw [recordAll_eq]
  rfl

/-- `ta_symbols` where the section headers start in 64 bits. -/
theorem taSymbols_decided (hlen : image.length < 2 ^ 63) (hlong : 64 ≤ image.length)
    (hbase : eShoff image + 64 < 2 ^ 64) :
    (taSymbols build image).Decided
      (SymtabsFit build image (eShoff image) (eShentsize image) 0 (eShnum image))
      (DefinesEntryPoints image) (entrySymbols image) TEE_ERROR_BAD_PARAMETERS := by
  have hnum := eShnum_lt image
  have hcount : 0 + eShnum image ≤ 2 ^ 16 := by omega
  have hstart : 0 < eShnum image → eShoff image + 0 * eShentsize image + 64 < 2 ^ 64 :=
    fun _ => by omega
  have hloop : (symbolSectionLoop build _ _ _ _ _ _).Decided _ _ _ _ :=
    symbolSectionLoop_decided hlen hlong (eShentsize_lt image) hcount hstart symbolSlots
  rw [zero_add, ← range_eq_range', ← imageSymbols, recordAll_symbolSlots] at hloop
  have hany : ((TA_NAMES.map fun name => (name, symbolValue image name)).any fun slot =>
      slot.2 == 0) = true ↔ ¬ ∀ name ∈ TA_NAMES, symbolValue image name ≠ 0 := by
    simp only [any_map, any_eq_true, Function.comp_apply, beq_iff_eq, not_forall, not_not]
    exact ⟨fun ⟨n, hn, h⟩ => ⟨n, hn, h⟩, fun ⟨n, hn, h⟩ => ⟨n, hn, h⟩⟩
  have hsize : (64 : UInt64).toNat ≤ image.length := hlong
  simp (disch := decide) only [taSymbols, readLe_within hsize, ok_bind, UInt64.reduceToNat,
    Nat.reduceSub]
  rw [← eShoff, ← eShentsize, ← eShnum]
  refine ⟨fun hnot => by rw [hloop.panics hnot, panic_bind], fun hfits hdef => ?_,
    fun hfits hnot => ?_⟩
  · rw [hloop.returns hfits hdef.1, ok_bind, if_neg fun hzero => hany.mp hzero hdef.2]
    rfl
  · by_cases hread : SymtabsReadable image (eShoff image) (eShentsize image) 0 (eShnum image)
    · rw [hloop.returns hfits hread, ok_bind, if_pos (hany.mpr fun hall => hnot ⟨hread, hall⟩)]
    · rw [hloop.fails hfits hread, err_bind]

end Rustee.Os
