import Rustee.CryptoExact

/-!
# Single bits of a big integer

`get_bit` and `get_bit_count` read the magnitude. `set_bit` writes one limb, but raising a bit
behind the number makes it longer, and every limb up to the new length becomes part of it, with
whatever an earlier result has left there.
-/

namespace Rustee.Arith

open Limbs List

variable {op src d : BigInt} {m i : Nat} {v : Bool} {z : Int}

theorem Magnitude.eq_mod (h : Magnitude op m) : m = val op.limbs % 2 ^ (32 * op.length.toNat) := by
  rw [← val_take, h.stores.val]

theorem Magnitude.testBit (h : Magnitude op m) (j : Nat) :
    m.testBit j = (decide (j < 32 * op.length.toNat) && (val op.limbs).testBit j) := by
  conv_lhs => rw [h.eq_mod, Nat.testBit_mod_two_pow]

theorem getBit_eq (h : Magnitude op m) (j : Nat) : getBit op j = m.testBit j := by
  rw [getBit, h.testBit, h.nlimbsOrZero, ← h.length, ← testBit_val]
  congr 1
  exact decide_eq_decide.mpr (by omega)

theorem getBitCount_le_iff (h : Magnitude op m) (k : Nat) : getBitCount op ≤ k ↔ m < 2 ^ k := by
  have hst := h.take
  rw [getBitCount, h.nlimbsOrZero]
  rcases eq_nil_or_concat' (op.limbs.take (limbCount m)) with hnil | ⟨ds, d, hcat⟩
  · rw [hnil, hst.eq_nil_iff.mp hnil]
    simp
  · have hlen : limbCount m = ds.length + 1 := by
      rw [limbCount, ← hst.length, hcat, length_append, length_singleton]
    have hval := hst.val
    rw [hcat, val_concat] at hval
    have hlow := val_lt ds
    have hge := lt_limbCount_iff.mp (show ds.length < limbCount m by omega)
    rw [hcat]
    simp only [getLast?_append, getLast?_singleton, Option.some_or]
    rw [hlen, Nat.add_sub_cancel, mul_comm]
    have hd : 0 < d.toNat := by
      rcases Nat.eq_zero_or_pos d.toNat with h0 | hpos
      · rw [h0, mul_zero] at hval
        omega
      · exact hpos
    rcases lt_or_ge k (32 * ds.length) with hk | hk
    · -- the top limb is not zero, so all limbs below it count
      refine iff_of_false (by omega) ?_
      have := Nat.pow_le_pow_right (n := 2) (by decide) hk.le
      omega
    · obtain ⟨j, rfl⟩ := Nat.exists_eq_add_of_le hk
      rw [Nat.add_le_add_iff_left, Nat.size_le, ← hval, pow_add]
      constructor
      · intro hlt
        nlinarith
      · intro hlt
        by_contra hge'
        nlinarith

/-! ### Setting a bit -/

/-- The length of the number once bit `i` is raised. -/
def grownLength (op : BigInt) (i : Nat) : Nat := max op.length.toNat (i / 32 + 1)

/-- Raising a bit within the capacity. -/
theorem setBit_raise (hi : i / 32 < cap op) :
    setBit op i true = .ok ⟨op.flags,
      if op.length.toNat < i / 32 + 1 then UInt32.ofNat (i / 32 + 1) else op.length,
      op.limbs.set (i / 32) (op.limbs.getD (i / 32) 0 ||| mask i)⟩ := by
  simp only [setBit, if_neg (not_le.mpr hi), if_true]

/-- The limbs that the longer number takes in, with the bit. -/
theorem setBit_raise_magnitude (h : Magnitude op m) (hi : i / 32 < cap op) (h32 : i < 2 ^ 32) :
    ∃ d, setBit op i true = .ok d ∧ cap d = cap op ∧ d.flags = op.flags ∧
      val d.limbs = val op.limbs ||| 2 ^ i ∧
      Magnitude d (val op.limbs % 2 ^ (32 * grownLength op i) ||| 2 ^ i) := by
  have hlen : (if op.length.toNat < i / 32 + 1 then UInt32.ofNat (i / 32 + 1)
      else op.length).toNat = grownLength op i := by
    unfold grownLength
    split
    · rw [toNat_limb (by omega)]
      omega
    · omega
  refine ⟨_, setBit_raise hi, by simp [cap], rfl, val_set_mask hi, ?_⟩
  have hcap := h.length_le
  constructor
  · simp only [hlen, cap, length_set, grownLength] at hcap hi ⊢
    omega
  simp only [hlen]
  -- the bit, or the old top limb, keeps the top limb from being zero
  have hval : val ((op.limbs.set (i / 32) (op.limbs.getD (i / 32) 0 ||| mask i)).take
      (grownLength op i)) = val op.limbs % 2 ^ (32 * grownLength op i) ||| 2 ^ i := by
    rw [val_take, val_set_mask hi, Nat.or_mod_two_pow,
      Nat.mod_eq_of_lt (Nat.pow_lt_pow_right (by decide) (by unfold grownLength; omega))]
  rw [← hval]
  refine stores_of_le fun _ => ?_
  rw [hval, length_take_of_le (by simp only [length_set, cap, grownLength] at *; omega)]
  rcases lt_or_ge (i / 32 + 1) op.length.toNat with hlt | hge
  · have hgrown : grownLength op i = op.length.toNat := by unfold grownLength; omega
    rw [hgrown, ← h.eq_mod, h.length]
    refine (lt_limbCount_iff.mp ?_).trans Nat.left_le_or
    have := h.length
    omega
  · have hgrown : grownLength op i = i / 32 + 1 := by unfold grownLength; omega
    rw [hgrown]
    exact (Nat.pow_le_pow_right (by decide) (by omega)).trans Nat.right_le_or

/-- A magnitude under the sign of `z`, or zero. -/
theorem Magnitude.signed (h : Magnitude d m) (hf : d.flags = if m = 0 then 0 else signFlag z) :
    ∃ z', Holds d z' ∧ z'.natAbs = m ∧ (z' = 0 ∨ (z' < 0 ↔ z < 0)) := by
  by_cases h0 : m = 0
  · exact ⟨0, h.holds h0.symm (by rw [hf, if_pos h0]; rfl), h0.symm, .inl rfl⟩
  · rw [if_neg h0] at hf
    by_cases hz : z < 0
    · exact ⟨-m, h.holds (by omega) (by rw [hf, signFlag_eq_iff]; omega), by omega, by omega⟩
    · exact ⟨m, h.holds (by omega) (by rw [hf, signFlag_eq_iff]; omega), by omega, by omega⟩

/-- `z'` is `z` with bit `i` of the magnitude made `v`. -/
def SetsBit (z : Int) (i : Nat) (v : Bool) (z' : Int) : Prop :=
  (∀ j, z'.natAbs.testBit j = if j = i then v else z.natAbs.testBit j) ∧ (z' = 0 ∨ (z' < 0 ↔ z < 0))

theorem setBit_clear (h : Holds op z) (hi : i / 32 < cap op) :
    ∃ d z', setBit op i false = .ok d ∧ cap d = cap op ∧ Holds d z' ∧ SetsBit z i false z' := by
  have hlen := h.magnitude.length
  have hle := h.magnitude.length_le
  simp only [setBit, if_neg (not_le.mpr hi), h.magnitude.nlimbsOrZero, ← hlen,
    Bool.false_eq_true, if_false]
  by_cases hin : i / 32 < op.length.toNat
  · rw [if_pos hin]
    obtain ⟨d, htrim, hcap, hmag, hflags⟩ := trim_eq
      { op with limbs := op.limbs.set (i / 32) (op.limbs.getD (i / 32) 0 &&& ~~~mask i) }
      (by simpa [cap] using hle) rfl
    rw [h.flags] at hflags
    obtain ⟨z', hz', habs, hsign⟩ := hmag.signed hflags
    refine ⟨d, z', htrim, by simpa [cap] using hcap, hz', fun j => ?_, hsign⟩
    rw [habs, val_take, Nat.testBit_mod_two_pow, testBit_val_clear_mask hi, h.magnitude.testBit]
    by_cases hj : j = i <;> simp [hj]
  · rw [if_neg hin]
    refine ⟨op, z, rfl, rfl, h, fun j => ?_, .inr Iff.rfl⟩
    split
    case isTrue hj =>
      rw [h.magnitude.testBit, decide_eq_false (by omega), Bool.false_and]
    case isFalse hj => rfl

/-- No bit but `i` is set in the limbs that a number takes in when bit `i` is raised. -/
def NoStaleBits (op : BigInt) (i : Nat) : Prop :=
  ∀ j, 32 * op.length.toNat ≤ j → j < 32 * (i / 32 + 1) → j ≠ i → (val op.limbs).testBit j = false

/-- `set_bit` makes bit `i` of the magnitude `v` and changes no other bit exactly when the bit is
cleared or no stale bit stands between the number and bit `i`. -/
theorem setBit_exact_iff (h : Holds op z) (hi : i / 32 < cap op) (h32 : i < 2 ^ 32) :
    (∃ d z', setBit op i v = .ok d ∧ cap d = cap op ∧ Holds d z' ∧ SetsBit z i v z' ∧
      ∀ j, getBit d j = z'.natAbs.testBit j) ↔ (v = false ∨ NoStaleBits op i) := by
  cases v with
  | false =>
    obtain ⟨d, z', hset, hcap, hholds, hbits⟩ := setBit_clear h hi
    exact ⟨fun _ => .inl rfl,
      fun _ => ⟨d, z', hset, hcap, hholds, hbits, getBit_eq hholds.magnitude⟩⟩
  | true =>
    obtain ⟨d, hset, hcap, hflags, -, hmag⟩ := setBit_raise_magnitude h.magnitude hi h32
    have hold := h.magnitude.testBit
    have hnew : ∀ j, (val op.limbs % 2 ^ (32 * grownLength op i) ||| 2 ^ i).testBit j =
        ((decide (j < 32 * grownLength op i) && (val op.limbs).testBit j) || decide (i = j)) := by
      intro j
      rw [Nat.testBit_or, Nat.testBit_mod_two_pow, Nat.testBit_two_pow]
    constructor
    · rintro ⟨d', z', hset', -, hholds, ⟨hbits, -⟩, -⟩
      obtain rfl : d' = d := by simpa using hset'.symm.trans hset
      right
      intro j hlo hhi hj
      have hjold := hold j
      have hjnew := hnew j
      rw [← hholds.magnitude.unique hmag, hbits, if_neg hj, hjold,
        decide_eq_false (by omega), decide_eq_true (by unfold grownLength; omega)] at hjnew
      simpa [Ne.symm hj] using hjnew.symm
    · rintro (hv | hstale)
      · cases hv
      · have hne : val op.limbs % 2 ^ (32 * grownLength op i) ||| 2 ^ i ≠ 0 := by
          have := Nat.right_le_or (m := 2 ^ i) (n := val op.limbs % 2 ^ (32 * grownLength op i))
          have := Nat.two_pow_pos i
          omega
        obtain ⟨z', hz', habs, hsign⟩ := hmag.signed (z := z) (by rw [if_neg hne, hflags, h.flags])
        refine ⟨d, z', hset, hcap, hz', ⟨fun j => ?_, hsign⟩, getBit_eq hz'.magnitude⟩
        rw [habs, hnew]
        by_cases hj : j = i
        · simp [hj]
        · rw [if_neg hj, hold, decide_eq_false (Ne.symm hj), Bool.or_false]
          have hno := hstale j
          by_cases hin : j < 32 * op.length.toNat
          · rw [decide_eq_true hin, decide_eq_true (by unfold grownLength; omega)]
          · by_cases hgrown : j < 32 * grownLength op i
            · rw [hno (by omega) (by unfold grownLength at hgrown; omega) hj, Bool.and_false,
                Bool.and_false]
            · rw [decide_eq_false hin, decide_eq_false hgrown]

theorem setBit_exact_iff_sample :
    (∃ d z', setBit (canonical 4 5) 70 true = .ok d ∧ cap d = cap (canonical 4 5) ∧ Holds d z' ∧
      SetsBit 5 70 true z' ∧ ∀ j, getBit d j = z'.natAbs.testBit j) ↔
      (true = false ∨ NoStaleBits (canonical 4 5) 70) :=
  setBit_exact_iff (canonical_holds 4 (by decide)) (by decide) (by decide)

/-- A product with two limbs and then a difference with one are written into the same buffer;
raising bit 64 afterwards raises bit 33 of the product again. -/
theorem stale_limb_counts_again :
    ∃ d d', (do
        let d ← mul (zeroed 6) ⟨0, 1, [2147483648]⟩ ⟨0, 1, [4]⟩
        sub d ⟨0, 1, [5]⟩ ⟨0, 1, [3]⟩) = .ok d ∧
      d.length = 1 ∧ getBit d 33 = false ∧ setBit d 64 true = .ok d' ∧ getBit d' 33 = true :=
  ⟨⟨0, 1, [2, 2, 0, 0]⟩, ⟨0, 3, [2, 2, 1, 0]⟩, by decide +kernel, rfl, rfl, by decide +kernel,
    by decide +kernel⟩

/-! ### Shifting down -/

/-- What is left of the limbs, the lowest `bits / 32` of them dropped. -/
theorem shifted_limbs {low : List UInt32} {n bits : Nat}
    (hlow : val low = n / 2 ^ (32 * (bits / 32))) :
    (if 0 < bits % 32 then (shrBits (bits % 32) low).1 else low).length = low.length ∧
      val (if 0 < bits % 32 then (shrBits (bits % 32) low).1 else low) = n / 2 ^ bits := by
  have hsplit : n / 2 ^ bits = val low / 2 ^ (bits % 32) := by
    rw [hlow, Nat.div_div_eq_div_mul, ← pow_add, Nat.div_add_mod]
  rw [hsplit]
  split
  case isTrue hrem =>
    obtain ⟨c, hc, -, hval⟩ := val_shrBits low hrem (Nat.mod_lt _ (by decide))
    refine ⟨shrBits_length _ low, ?_⟩
    rw [← hval, Nat.mul_add_div (Nat.two_pow_pos _), Nat.div_eq_of_lt hc, add_zero]
  case isFalse hrem =>
    rw [show bits % 32 = 0 by omega, pow_zero, Nat.div_one]
    exact ⟨rfl, rfl⟩

theorem shiftRight_magnitude (dest : BigInt) (bits : Nat) (h : Holds src z)
    (hcap : limbCount z.natAbs ≤ cap dest) :
    ∃ z', Yields (shiftRight dest src bits) (cap dest) z' ∧ z'.natAbs = z.natAbs / 2 ^ bits ∧
      (z' = 0 ∨ (z' < 0 ↔ z < 0)) := by
  have hcopy := h.assign dest hcap
  simp only [shiftRight, hcopy.magnitude.nlimbsOrZero]
  by_cases h0 : bits = 0
  · rw [if_pos h0, h0, pow_zero, Nat.div_one]
    exact ⟨z, ⟨_, rfl, cap_assign dest src, hcopy⟩, rfl, .inr Iff.rfl⟩
  rw [if_neg h0]
  by_cases hwords : limbCount z.natAbs ≤ bits / 32
  · -- nothing is left
    have hzero : z.natAbs / 2 ^ bits = 0 := by
      refine Nat.div_eq_of_lt ((limbCount_le_iff.mp hwords).trans_le ?_)
      exact Nat.pow_le_pow_right (by decide) (by omega)
    rw [if_pos hwords, hzero]
    exact ⟨0, ⟨_, rfl, by simp, init_holds _⟩, rfl, .inl rfl⟩
  rw [if_neg hwords]
  have hlow : val (((assign dest src).limbs.take (limbCount z.natAbs)).drop (bits / 32)) =
      z.natAbs / 2 ^ (32 * (bits / 32)) := by
    rw [val_drop, hcopy.magnitude.take.val]
  obtain ⟨hlen, hval⟩ := shifted_limbs hlow
  rw [length_drop, length_take_of_le hcopy.magnitude.count_le] at hlen
  generalize (if 0 < bits % 32 then _ else _ : List UInt32) = out at *
  have h32 := toNat_limb (k := limbCount z.natAbs - bits / 32) (by
    have := h.magnitude.count_lt
    omega)
  obtain ⟨d, htrim, hcapd, hmag, hflags⟩ := trim_eq
    ⟨(assign dest src).flags, UInt32.ofNat (limbCount z.natAbs - bits / 32),
      out ++ replicate (cap (assign dest src) - (limbCount z.natAbs - bits / 32)) 0⟩
    (m := z.natAbs / 2 ^ bits) (by simp [h32, cap, hlen]) (by rw [h32, take_left' hlen, hval])
  rw [show (assign dest src).flags = signFlag z from hcopy.flags] at hflags
  obtain ⟨z', hz', habs, hsign⟩ := hmag.signed hflags
  refine ⟨z', ⟨d, htrim, ?_, hz'⟩, habs, hsign⟩
  rw [hcapd]
  simp only [cap_assign]
  simp only [cap, length_append, hlen, length_replicate] at hcap ⊢
  omega

/-- `shift_right` divides the magnitude by a power of two and keeps the sign, `get_bit` reads its
bits and `get_bit_count` is the least number of bits that holds it. -/
theorem shifts_exact (dest : BigInt) (bits : Nat) (h : Holds src z)
    (hcap : limbCount z.natAbs ≤ cap dest) :
    (∃ z', Yields (shiftRight dest src bits) (cap dest) z' ∧ z'.natAbs = z.natAbs / 2 ^ bits ∧
      (z' = 0 ∨ (z' < 0 ↔ z < 0))) ∧
    (∀ i, getBit src i = z.natAbs.testBit i) ∧
    ∀ k, getBitCount src ≤ k ↔ z.natAbs < 2 ^ k :=
  ⟨shiftRight_magnitude dest bits h hcap, getBit_eq h.magnitude, getBitCount_le_iff h.magnitude⟩

theorem shifts_exact_sample :
    (∃ z', Yields (shiftRight (zeroed 6) (canonical 4 (-5)) 1) 4 z' ∧ z'.natAbs = 5 / 2 ^ 1 ∧
      (z' = 0 ∨ (z' < 0 ↔ (-5 : Int) < 0))) ∧
    (∀ i, getBit (canonical 4 (-5)) i = Nat.testBit 5 i) ∧
    ∀ k, getBitCount (canonical 4 (-5)) ≤ k ↔ 5 < 2 ^ k :=
  shifts_exact (zeroed 6) 1 (canonical_holds 4 (z := -5) (by decide)) (by decide)

end Rustee.Arith
