import Rustee.OsAbi

/-!
# The parameters of a TA that calls another TA (`param.rs` of `rustee-utee`)

The caller declares four parameters by nibbles and hands over four unions. `copy_out` writes what
came back into them. Its last two arms do not look at the nibble: any value or memref that comes
back as an output is written, whatever was declared.
-/

namespace Rustee.Utee

open Os

/-! ### Parameters -/

def paramTypeGet (paramTypes : UInt32) (i : Nat) : UInt32 :=
  (paramTypes >>> UInt32.ofNat (i * 4)) &&& 0xF

def Dir.isOut : Dir → Bool
  | .output | .inout => true
  | .input => false

/-- `slot.value.a = a; slot.value.b = b` -/
def writeValue (slot : ParamRaw) (a b : UInt32) : ParamRaw :=
  { slot with lo := a.toUInt64 ||| (b.toUInt64 <<< 32) }

/-- `slot.memref.size = size` -/
def writeSize (slot : ParamRaw) (size : UInt64) : ParamRaw := { slot with hi := size }

/-- One turn of the loop of `copy_out`. -/
def copyOutSlot (t : UInt32) (produced : Param) (slot : ParamRaw) : ParamRaw :=
  match produced with
  | .value a b dir =>
    if (t = 2 ∨ t = 3) ∧ Dir.isOut dir then writeValue slot a b
    else if dir = .output ∨ dir = .inout then writeValue slot a b
    else slot
  | .memref _ size dir =>
    if (t = 6 ∨ t = 7) ∧ Dir.isOut dir then writeSize slot size
    else if dir = .output ∨ dir = .inout then writeSize slot size
    else slot
  | .none => slot

/-- `params` is the caller's array, if its pointer is not null. -/
def copyOut (paramTypes : UInt32) (params : Option RawParams) (produced : Params) :
    Option RawParams :=
  params.map fun slots => Vector.ofFn fun i =>
    copyOutSlot (paramTypeGet paramTypes i) (produced.get i) (slots.get i)

/-- What a slot with the nibble `t` may become: values are written as values, of memrefs only
the size, and everything else stays. -/
def Allowed (t : UInt32) (slot slot' : ParamRaw) : Prop :=
  ((t = 2 ∨ t = 3) ∧ slot'.hi = slot.hi) ∨ ((t = 6 ∨ t = 7) ∧ slot'.lo = slot.lo) ∨ slot' = slot

/-- What came back fits the nibble, is no output, or is what the slot held anyway. -/
def Harmless (t : UInt32) (produced : Param) (slot : ParamRaw) : Prop :=
  match produced with
  | .none => True
  | .value a b dir => t = 2 ∨ t = 3 ∨ dir = .input ∨ slot.lo = a.toUInt64 ||| (b.toUInt64 <<< 32)
  | .memref _ size dir => t = 6 ∨ t = 7 ∨ dir = .input ∨ slot.hi = size

section
variable (t : UInt32) (slot : ParamRaw)

theorem copyOutSlot_value (a b : UInt32) (dir : Dir) :
    copyOutSlot t (.value a b dir) slot = if dir = .input then slot else writeValue slot a b := by
  cases dir <;> simp [copyOutSlot, Dir.isOut]

theorem copyOutSlot_memref (src : MemrefSrc) (size : UInt64) (dir : Dir) :
    copyOutSlot t (.memref src size dir) slot =
      if dir = .input then slot else writeSize slot size := by
  cases dir <;> simp [copyOutSlot, Dir.isOut]

theorem copyOutSlot_allowed_iff (produced : Param) :
    Allowed t slot (copyOutSlot t produced slot) ↔ Harmless t produced slot := by
  obtain ⟨lo, hi⟩ := slot
  cases produced with
  | none => exact iff_of_true (.inr (.inr rfl)) trivial
  | value a b dir =>
    rw [copyOutSlot_value]
    by_cases hdir : dir = .input
    · rw [if_pos hdir]
      exact iff_of_true (.inr (.inr rfl)) (.inr (.inr (.inl hdir)))
    · rw [if_neg hdir]
      simp only [Allowed, Harmless, writeValue, ParamRaw.mk.injEq, hdir, false_or, and_true]
      constructor
      · rintro (ht | ⟨-, hlo⟩ | hlo)
        · exact ht.elim .inl fun h => .inr (.inl h)
        · exact .inr (.inr hlo.symm)
        · exact .inr (.inr hlo.symm)
      · rintro (ht | ht | hlo)
        · exact .inl (.inl ht)
        · exact .inl (.inr ht)
        · exact .inr (.inr hlo.symm)
  | memref src size dir =>
    rw [copyOutSlot_memref]
    by_cases hdir : dir = .input
    · rw [if_pos hdir]
      exact iff_of_true (.inr (.inr rfl)) (.inr (.inr (.inl hdir)))
    · rw [if_neg hdir]
      simp only [Allowed, Harmless, writeSize, ParamRaw.mk.injEq, hdir, false_or, and_true,
        true_and]
      constructor
      · rintro (⟨-, hhi⟩ | ht | hhi)
        · exact .inr (.inr hhi.symm)
        · exact ht.elim .inl fun h => .inr (.inl h)
        · exact .inr (.inr hhi.symm)
      · rintro (ht | ht | hhi)
        · exact .inr (.inl (.inl ht))
        · exact .inr (.inl (.inr ht))
        · exact .inr (.inr hhi.symm)

end

/-- `copy_out` changes only what the caller declared as an output exactly if what came back in
every slot is harmless there. -/
theorem copyOut_frame_iff (paramTypes : UInt32) (slots : RawParams) (produced : Params) :
    copyOut paramTypes none produced = none ∧
    ((∃ slots', copyOut paramTypes (some slots) produced = some slots' ∧
      ∀ i : Fin PARAM_COUNT, Allowed (paramTypeGet paramTypes i) (slots.get i) (slots'.get i)) ↔
      ∀ i : Fin PARAM_COUNT,
        Harmless (paramTypeGet paramTypes i) (produced.get i) (slots.get i)) := by
  refine ⟨rfl, ?_⟩
  have hslot : ∀ i : Fin PARAM_COUNT, (Vector.ofFn fun i => copyOutSlot
      (paramTypeGet paramTypes i.val) (produced.get i) (slots.get i)).get i =
      copyOutSlot (paramTypeGet paramTypes i) (produced.get i) (slots.get i) := by
    intro i
    simp [Vector.get]
    rfl
  constructor
  · rintro ⟨slots', hcopy, hallowed⟩ i
    cases hcopy
    have h := hallowed i
    rw [hslot] at h
    exact (copyOutSlot_allowed_iff _ _ _).mp h
  · intro h
    refine ⟨_, rfl, fun i => ?_⟩
    rw [hslot]
    exact (copyOutSlot_allowed_iff _ _ _).mpr (h i)

/-- A buffer declared as an input, and a value that comes back in its slot: the pointer is
gone. -/
theorem value_written_over_pointer :
    copyOut 5 (some (Vector.replicate 4 ⟨0x7F00001000, 64⟩)) (noParams.set 0 (.value 1 2 .output)) =
        some ((Vector.replicate 4 ⟨0x7F00001000, 64⟩).set 0 ⟨0x200000001, 64⟩) := by
  decide

end Rustee.Utee
