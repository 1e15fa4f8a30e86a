import Rustee.CryptoArith

/-!
# Sums, differences and products of big integers

A buffer holds a number when its limbs up to its length are those of the magnitude and its flags
are the sign. The functions on magnitudes are followed through their loops once; a sum then is
right exactly in destinations with room for one limb more than the longer operand, a difference in
those with room for the longer operand, and a product whenever the number of limbs of both
operands fits its word.
-/

namespace Rustee.Arith

open Limbs List Fallible

/-! ### What a buffer holds -/

/-- The number of limbs of a number. -/
def limbCount (m : Nat) : Nat := (Nat.digits (2 ^ 32) m).length

variable {k : Nat} {m : Nat}

theorem limbCount_le_iff : limbCount m ≤ k ↔ m < 2 ^ (32 * k) := by
  rw [limbCount, Nat.digits_length_le_iff (by decide), pow_mul]

theorem lt_limbCount_iff : k < limbCount m ↔ 2 ^ (32 * k) ≤ m := by
  rw [← not_le, limbCount_le_iff, not_lt]

theorem limbCount_mono {m n : Nat} (h : m ≤ n) : limbCount m ≤ limbCount n :=
  limbCount_le_iff.mpr (lt_of_le_of_lt h (limbCount_le_iff.mp (le_refl _)))

@[simp] theorem limbCount_eq_zero : limbCount m = 0 ↔ m = 0 := by
  rw [← Nat.le_zero, limbCount_le_iff]
  simp

@[simp] theorem limbCount_zero : limbCount 0 = 0 := limbCount_eq_zero.mpr rfl

/-- The flags of a canonical number. -/
def signFlag (z : Int) : UInt32 := if z < 0 then FLAG_NEG else 0

/-- The buffer has the limbs of `m`, and no limb too many. -/
structure Magnitude (op : BigInt) (m : Nat) : Prop where
  length_le : op.length.toNat ≤ cap op
  stores : Stores (op.limbs.take op.length.toNat) m

/-- The buffer is the canonical representation of `z`, whatever stands behind its limbs. -/
structure Holds (op : BigInt) (z : Int) : Prop where
  flags : op.flags = signFlag z
  magnitude : Magnitude op z.natAbs

/-- The call returns `z` in a destination of `c` limbs. -/
def Yields (r : Outcome BigInt) (c : Nat) (z : Int) : Prop :=
  ∃ d, r = .ok d ∧ cap d = c ∧ Holds d z

variable {op a b : BigInt} (dest : BigInt) {m n : Nat} {x y z : Int}

section

variable (h : Magnitude op m)
include h

theorem Magnitude.length : op.length.toNat = limbCount m := by
  rw [limbCount, ← h.stores.length, length_take_of_le h.length_le]

theorem Magnitude.nlimbs : nlimbs op = .ok (limbCount m) := by
  rw [Arith.nlimbs, if_pos h.length_le, h.length]

theorem Magnitude.nlimbsOrZero : nlimbsOrZero op = limbCount m := by
  rw [Arith.nlimbsOrZero, if_pos h.length_le, h.length]

theorem Magnitude.isZero : isZero op = decide (m = 0) := by
  rw [Arith.isZero, h.nlimbsOrZero, Bool.eq_iff_iff]
  simp

theorem Magnitude.take : Stores (op.limbs.take (limbCount m)) m := by
  rw [← h.length]
  exact h.stores

theorem Magnitude.count_le : limbCount m ≤ cap op := by
  rw [← h.length]
  exact h.length_le

theorem Magnitude.count_lt : limbCount m < 2 ^ 32 := by
  rw [← h.length]
  exact op.length.toNat_lt

theorem Magnitude.unique (h' : Magnitude op n) : m = n :=
  h.stores.val.symm.trans h'.stores.val

/-- The limbs do not depend on the flags. -/
theorem Magnitude.withFlags (f : UInt32) :
    Magnitude { op with flags := f } m := ⟨h.length_le, h.stores⟩

end

@[simp] theorem sign_signFlag (h : Holds op z) : sign op = signFlag z := by
  rw [sign, h.flags, signFlag]
  split <;> rfl

theorem signFlag_eq_iff : signFlag x = signFlag y ↔ (x < 0 ↔ y < 0) := by
  unfold signFlag
  by_cases hx : x < 0 <;> by_cases hy : y < 0 <;> simp [hx, hy, FLAG_NEG]

/-- A magnitude with the flags of `z`. -/
theorem Magnitude.holds (h : Magnitude op m) (hz : z.natAbs = m) (hf : op.flags = signFlag z) :
    Holds op z := ⟨hf, hz ▸ h⟩

/-- The limbs of a number with anything behind them. -/
theorem magnitude_append {ds rest : List UInt32} (h : Stores ds m) (hk : ds.length = k)
    (h32 : k < 2 ^ 32) (f : UInt32) : Magnitude ⟨f, UInt32.ofNat k, ds ++ rest⟩ m := by
  constructor
  · simp [toNat_limb h32, cap, hk]
  · rw [toNat_limb h32, take_left' hk]
    exact h

@[simp] theorem cap_init (op : BigInt) : cap (init op) = cap op := by simp [init, cap]

@[simp] theorem cap_zeroed (words : Nat) : cap (zeroed words) = words - 2 := by
  simp [zeroed, cap]

@[simp] theorem cap_assign (dest src : BigInt) : cap (assign dest src) = cap dest := by
  simp only [assign, cap, length_append, length_take, length_replicate]
  omega

theorem init_holds (op : BigInt) : Holds (init op) 0 :=
  ⟨rfl, ⟨Nat.zero_le _, stores_nil⟩⟩

theorem Magnitude.assign (h : Magnitude op m) (dest : BigInt) (hcap : limbCount m ≤ cap dest) :
    Magnitude (assign dest op) m := by
  have hlen := h.length
  refine ⟨by rw [cap_assign]; exact hlen.trans_le hcap, ?_⟩
  have htake : (Arith.assign dest op).limbs.take op.length.toNat =
      op.limbs.take op.length.toNat := by
    rw [Arith.assign, take_append_of_le_length, take_take, Nat.min_eq_left]
    · exact hlen.trans_le hcap
    · rw [length_take]
      exact Nat.le_min.mpr ⟨hlen.trans_le hcap, h.length_le⟩
  exact htake ▸ h.stores

theorem Holds.assign (h : Holds op z) (dest : BigInt) (hcap : limbCount z.natAbs ≤ cap dest) :
    Holds (assign dest op) z := ⟨h.flags, h.magnitude.assign dest hcap⟩

/-- A canonical buffer of `c` limbs. -/
def canonical (c : Nat) (z : Int) : BigInt :=
  ⟨signFlag z, UInt32.ofNat (limbCount z.natAbs),
    (Nat.digits (2 ^ 32) z.natAbs).map UInt32.ofNat ++ replicate (c - limbCount z.natAbs) 0⟩

theorem canonical_holds (c : Nat) (h32 : limbCount z.natAbs < 2 ^ 32) :
    Holds (canonical c z) z := by
  refine ⟨rfl, magnitude_append ?_ (by simp [limbCount]) h32 _⟩
  rw [Stores, map_map]
  refine (map_congr_left fun d hd => ?_).trans (map_id _)
  exact toNat_limb (Nat.digits_lt_base (by decide) hd)

/-- What `trim` leaves of the limbs up to the length. -/
theorem trim_eq (op : BigInt) (hlen : op.length.toNat ≤ cap op)
    (hval : val (op.limbs.take op.length.toNat) = m) :
    ∃ d, trim op = .ok d ∧ cap d = cap op ∧ Magnitude d m ∧
      d.flags = if m = 0 then 0 else op.flags := by
  obtain ⟨k, htrim, hk, hst⟩ := trimFrom_eq hlen
  have hk32 := toNat_limb (lt_of_le_of_lt hk op.length.toNat_lt)
  have hkcap : k ≤ cap op := hk.trans hlen
  rw [hval] at hst
  refine ⟨⟨if k = 0 then 0 else op.flags, UInt32.ofNat k, op.limbs⟩, by rw [trim, htrim], rfl,
    ⟨hk32.trans_le hkcap, by rw [hk32]; exact hst⟩, ?_⟩
  have hzero : k = 0 ↔ m = 0 := by
    rw [← hst.eq_nil_iff, ← length_eq_zero_iff, length_take_of_le hkcap]
  simp only [hzero]

/-! ### Magnitudes -/

section

variable (ha : Magnitude a m) (hb : Magnitude b n)
include ha hb

theorem cmpMag_eq : cmpMag a b = sgn m n := by
  simp only [cmpMag, ha.nlimbsOrZero, hb.nlimbsOrZero]
  split
  case isTrue hlt =>
    have hmn : n < m := (limbCount_le_iff.mp (le_refl _)).trans_le (lt_limbCount_iff.mp hlt)
    rw [sgn, if_pos hmn]
  case isFalse hge =>
    split
    case isTrue hlt =>
      have hmn : m < n := (limbCount_le_iff.mp (le_refl _)).trans_le (lt_limbCount_iff.mp hlt)
      rw [sgn, if_neg (lt_asymm hmn), if_pos hmn]
    case isFalse hge' =>
      have heq : limbCount m = limbCount n := by omega
      rw [cmpFrom_eq ha.count_le (heq ▸ hb.count_le), ha.take.val, heq, hb.take.val]

theorem addMag_eq (hcap : max (limbCount m) (limbCount n) + 1 ≤ cap dest)
    (h32 : max (limbCount m) (limbCount n) + 1 < 2 ^ 32) :
    ∃ d, addMag dest a b = .ok d ∧ cap d = cap dest ∧ Magnitude d (m + n) := by
  have hla := ha.count_le
  have hlb := hb.count_le
  simp only [addMag, ha.nlimbs, hb.nlimbs, ok_bind, if_neg (Nat.not_lt.mpr hcap)]
  generalize hk : max (limbCount m) (limbCount n) = k at *
  have hlen := addCarry_length k (a.limbs.take (limbCount m)) (b.limbs.take (limbCount n)) 0
  have hle := addCarry_carry k (a.limbs.take (limbCount m)) (b.limbs.take (limbCount n))
    (Nat.zero_le 1)
  have hval := val_addCarry (n := k) (a.limbs.take (limbCount m)) (b.limbs.take (limbCount n)) 0
    (by simp; omega) (by simp; omega)
  rw [ha.take.val, hb.take.val, Nat.add_zero] at hval
  generalize addCarry k (a.limbs.take (limbCount m)) (b.limbs.take (limbCount n)) 0 = sum at *
  obtain ⟨out, carry⟩ := sum
  simp only at hlen hle hval
  refine ⟨_, rfl, by simp [cap, hlen] at hcap ⊢; omega, ?_⟩
  rcases Nat.eq_zero_or_pos carry with rfl | hpos
  · have hsum : val out = m + n := by simpa using hval
    refine magnitude_append ?_ hlen (by omega) 0
    rw [← hsum]
    refine stores_of_le fun hne => ?_
    have hpos := hlen ▸ length_pos_iff.mpr hne
    rw [hsum, hlen]
    rcases le_total (limbCount m) (limbCount n) with hmn | hmn
    · exact (lt_limbCount_iff.mp (by omega)).trans (Nat.le_add_left n m)
    · exact (lt_limbCount_iff.mp (by omega)).trans (Nat.le_add_right m n)
  · obtain rfl : carry = 1 := by omega
    have hst := stores_concat out (d := UInt32.ofNat 1) (by decide)
    rw [val_concat, hlen, show (UInt32.ofNat 1).toNat = 1 from rfl, hval] at hst
    rw [append_cons]
    exact magnitude_append hst (by simp [hlen]) h32 0

theorem subMag_eq (hle : n ≤ m) (hcap : limbCount m ≤ cap dest) :
    ∃ d, subMag dest a b = .ok d ∧ cap d = cap dest ∧ Magnitude d (m - n) := by
  have hlab := limbCount_mono hle
  simp only [subMag, ha.nlimbs, hb.nlimbs, ok_bind, if_neg (not_lt.mpr hcap)]
  have hlen := subBorrow_length (limbCount m) (a.limbs.take (limbCount m))
    (b.limbs.take (limbCount n)) 0
  have hval := val_sub (n := limbCount m) (a.limbs.take (limbCount m))
    (b.limbs.take (limbCount n)) (by simp) (by simp; omega)
    (by rw [ha.take.val, hb.take.val]; exact hle)
  rw [ha.take.val, hb.take.val] at hval
  have h32 := toNat_limb ha.count_lt
  generalize subBorrow (limbCount m) (a.limbs.take (limbCount m))
    (b.limbs.take (limbCount n)) 0 = out at *
  obtain ⟨d, htrim, hcapd, hmag, -⟩ := trim_eq (m := m - n)
    ⟨0, UInt32.ofNat (limbCount m), out.1 ++ dest.limbs.drop (limbCount m)⟩
    (by simp [h32, cap, hlen]) (by simp only [h32, take_left' hlen, hval])
  refine ⟨d, htrim, ?_, hmag⟩
  rw [hcapd]
  simp only [cap, length_append, hlen, length_drop] at hcap ⊢
  omega

theorem subMag_panics (hcap : cap dest < limbCount m) : subMag dest a b = .panic := by
  simp only [subMag, ha.nlimbs, hb.nlimbs, ok_bind, if_pos hcap]

end

/-! ### Sums and differences -/

/-- The room that `add` needs: a spare limb for a carry even where there is none, and all limbs
of the larger operand even where the difference is shorter. -/
def SumFits (x y : Int) (c : Nat) : Prop :=
  if x < 0 ↔ y < 0 then max (limbCount x.natAbs) (limbCount y.natAbs) + 1 ≤ c
  else x + y = 0 ∨ max (limbCount x.natAbs) (limbCount y.natAbs) ≤ c

instance {c : Nat} : Decidable (SumFits x y c) := by
  unfold SumFits
  infer_instance

section
variable (ha : Holds a x) (hb : Holds b y)
include ha hb

theorem add_same_sign (hs : x < 0 ↔ y < 0) :
    add dest a b = (do
      let d ← discard dest (addMag dest a b)
      .ok { d with flags := if isZero d then 0 else signFlag x }) := by
  simp only [add, sign_signFlag ha, sign_signFlag hb, if_pos (signFlag_eq_iff.mpr hs)]

/-- With different signs the smaller magnitude is taken from the larger one. -/
theorem add_mixed_sign (hs : ¬(x < 0 ↔ y < 0)) :
    (x + y = 0 → add dest a b = .ok (init dest)) ∧
    (y.natAbs < x.natAbs → add dest a b = (do
      let d ← discard dest (subMag dest a b)
      .ok { d with flags := signFlag x })) ∧
    (x.natAbs < y.natAbs → add dest a b = (do
      let d ← discard dest (subMag dest b a)
      .ok { d with flags := signFlag y })) := by
  simp only [add, sign_signFlag ha, sign_signFlag hb, if_neg (mt signFlag_eq_iff.mp hs),
    cmpMag_eq ha.magnitude hb.magnitude, sgn]
  refine ⟨fun h0 => ?_, fun hlt => ?_, fun hlt => ?_⟩
  · have : x.natAbs = y.natAbs := by omega
    simp [this]
  · simp [hlt]
  · simp [hlt, lt_asymm hlt]

theorem add_of_fits (hx : limbCount x.natAbs ≤ 128) (hy : limbCount y.natAbs ≤ 128)
    (hfit : SumFits x y (cap dest)) : Yields (add dest a b) (cap dest) (x + y) := by
  unfold SumFits at hfit
  split at hfit
  case isTrue hs =>
    obtain ⟨d, hd, hcap, hmag⟩ := addMag_eq dest ha.magnitude hb.magnitude hfit (by omega)
    rw [add_same_sign dest ha hb hs, hd]
    refine ⟨_, rfl, hcap, (hmag.withFlags _).holds (by omega) ?_⟩
    simp only [hmag.isZero, decide_eq_true_eq]
    split
    case isTrue h0 =>
      rw [signFlag, if_neg (by omega)]
    case isFalse h0 => exact signFlag_eq_iff.mpr (by omega)
  case isFalse hs =>
    obtain ⟨hzero, hfirst, hsecond⟩ := add_mixed_sign dest ha hb hs
    rcases hfit with h0 | hcap
    · rw [hzero h0, h0]
      exact ⟨_, rfl, cap_init dest, init_holds dest⟩
    · rcases Nat.lt_trichotomy x.natAbs y.natAbs with hlt | heq | hlt
      · obtain ⟨d, hd, hcapd, hmag⟩ := subMag_eq dest hb.magnitude ha.magnitude hlt.le (by omega)
        rw [hsecond hlt, hd]
        exact ⟨_, rfl, hcapd, (hmag.withFlags _).holds (by omega) (signFlag_eq_iff.mpr (by omega))⟩
      · have h0 : x + y = 0 := by omega
        rw [hzero h0, h0]
        exact ⟨_, rfl, cap_init dest, init_holds dest⟩
      · obtain ⟨d, hd, hcapd, hmag⟩ := subMag_eq dest ha.magnitude hb.magnitude hlt.le (by omega)
        rw [hfirst hlt, hd]
        exact ⟨_, rfl, hcapd, (hmag.withFlags _).holds (by omega) (signFlag_eq_iff.mpr (by omega))⟩

/-- Without the spare limb the destination keeps what it held. -/
theorem add_without_spare (hs : x < 0 ↔ y < 0)
    (hcap : cap dest < max (limbCount x.natAbs) (limbCount y.natAbs) + 1) :
    add dest a b = .ok { dest with flags := if isZero dest then 0 else signFlag x } := by
  have herr : addMag dest a b = .err .badSize := by
    simp only [addMag, ha.magnitude.nlimbs, hb.magnitude.nlimbs, ok_bind, if_pos hcap]
  rw [add_same_sign dest ha hb hs, herr]
  rfl

theorem add_exact_iff (hx : limbCount x.natAbs ≤ 128) (hy : limbCount y.natAbs ≤ 128) (c : Nat) :
    (∀ dest, cap dest = c → Yields (add dest a b) c (x + y)) ↔ SumFits x y c := by
  constructor
  · intro h
    by_contra hfit
    unfold SumFits at hfit
    split at hfit
    case isTrue hs =>
      -- a destination that does not hold the sum keeps not holding it
      by_cases h0 : x + y = 0
      · obtain ⟨d, hd, -, hholds⟩ := h ⟨0, 1, replicate c 0⟩ (by simp [cap])
        have hx0 : x = 0 := by omega
        have hy0 : y = 0 := by omega
        subst hx0 hy0
        rw [add_without_spare _ ha hb hs (by simpa [cap] using hfit)] at hd
        obtain rfl : d = _ := (ok.inj hd).symm
        simpa [limbCount] using hholds.magnitude.length
      · obtain ⟨d, hd, -, hholds⟩ := h ⟨0, 0, replicate c 0⟩ (by simp [cap])
        rw [add_without_spare _ ha hb hs (by simp [cap]; omega)] at hd
        obtain rfl : d = _ := (ok.inj hd).symm
        have := hholds.magnitude.length.symm
        simp only [UInt32.toNat_zero, limbCount_eq_zero] at this
        omega
    case isFalse hs =>
      obtain ⟨h0, hcap⟩ := not_or.mp hfit
      obtain ⟨-, hfirst, hsecond⟩ := add_mixed_sign ⟨0, 0, replicate c 0⟩ ha hb hs
      obtain ⟨d, hd, -, -⟩ := h ⟨0, 0, replicate c 0⟩ (by simp [cap])
      rcases Nat.lt_or_gt_of_ne (show x.natAbs ≠ y.natAbs by omega) with hlt | hlt
      · have := limbCount_mono hlt.le
        rw [hsecond hlt, subMag_panics _ hb.magnitude ha.magnitude (by simp [cap]; omega)] at hd
        exact absurd hd (by simp [discard])
      · have := limbCount_mono hlt.le
        rw [hfirst hlt, subMag_panics _ ha.magnitude hb.magnitude (by simp [cap]; omega)] at hd
        exact absurd hd (by simp [discard])
  · rintro hfit dest rfl
    exact add_of_fits dest ha hb hx hy hfit

end

/-- `sub` adds a negated copy of its second operand. -/
theorem sub_eq_add (hb : Holds b y) (hy : limbCount y.natAbs ≤ 128) :
    ∃ nb, Holds nb (-y) ∧ ∀ dest a, sub dest a b = add dest a nb := by
  have hneg : Magnitude (assign (zeroed 130) b) y.natAbs :=
    hb.magnitude.assign _ (by simpa using hy)
  refine ⟨_, ?_, fun dest a => rfl⟩
  rw [hneg.isZero]
  by_cases h0 : y = 0
  · subst h0
    exact hb.assign _ (by simp)
  · rw [decide_eq_false (by omega)]
    refine (hneg.withFlags _).holds (by omega) ?_
    simp only [Arith.assign, hb.flags, signFlag, FLAG_NEG]
    rcases Int.lt_or_gt_of_ne h0 with hlt | hlt
    · rw [if_pos hlt, if_neg (by omega)]
      rfl
    · rw [if_neg (by omega), if_pos (by omega)]
      rfl

/-- `add` and `sub` leave the exact result in every destination of `c` limbs, whatever the
destination held, exactly when `c` has the room that `SumFits` asks for. -/
theorem add_sub_exact_iff (ha : Holds a x) (hb : Holds b y) (hx : limbCount x.natAbs ≤ 128)
    (hy : limbCount y.natAbs ≤ 128) (c : Nat) :
    ((∀ dest, cap dest = c → Yields (add dest a b) c (x + y)) ↔ SumFits x y c) ∧
    ((∀ dest, cap dest = c → Yields (sub dest a b) c (x - y)) ↔ SumFits x (-y) c) := by
  refine ⟨add_exact_iff ha hb hx hy c, ?_⟩
  obtain ⟨nb, hnb, hsub⟩ := sub_eq_add hb hy
  simp only [hsub, Int.sub_eq_add_neg]
  exact add_exact_iff ha hnb hx (by simpa using hy) c

theorem add_sub_exact_iff_sample :
    ((∀ dest, cap dest = 2 → Yields (add dest (canonical 1 7) (canonical 1 (-9))) 2 (7 + -9)) ↔
      SumFits 7 (-9) 2) ∧
    ((∀ dest, cap dest = 2 → Yields (sub dest (canonical 1 7) (canonical 1 (-9))) 2 (7 - -9)) ↔
      SumFits 7 (- -9) 2) :=
  add_sub_exact_iff (canonical_holds 1 (by decide)) (canonical_holds 1 (by decide)) (by decide)
    (by decide) 2

/-- One and one make two, which has one limb; a destination of one limb keeps its zero. -/
theorem sum_lost_without_spare_limb :
    Holds (canonical 1 1) 1 ∧ limbCount (1 + 1) ≤ 1 ∧ cap (zeroed 3) = 1 ∧
      ¬ Yields (add (zeroed 3) (canonical 1 1) (canonical 1 1)) 1 (1 + 1) := by
  have hone := canonical_holds (z := 1) 1 (by decide)
  refine ⟨hone, by decide, rfl, ?_⟩
  rintro ⟨d, hd, -, hholds⟩
  rw [add_without_spare _ hone hone Iff.rfl (by decide)] at hd
  obtain rfl : d = _ := (Fallible.ok.inj hd).symm
  exact absurd hholds.magnitude.length (by decide)

/-! ### Products -/

theorem mul_rows (ha : Magnitude a m) (hb : Magnitude b n) :
    ∃ limbs, limbs.length = limbCount m + limbCount n + 1 ∧
      val (limbs.take (limbCount m + limbCount n)) = m * n ∧
      mul dest a b = (do
        let tmp ← trim ⟨(a.flags ^^^ b.flags) &&& FLAG_NEG,
          UInt32.ofNat (limbCount m + limbCount n), limbs⟩
        .ok (assign dest tmp)) := by
  have hla := length_take_of_le ha.count_le
  have hlb := length_take_of_le hb.count_le
  obtain ⟨vs, hrows, hlen, hval⟩ := mulRows_eq (a.limbs.take (limbCount m)) 1
    (length_replicate.trans hlb.symm : (replicate (limbCount n) (0 : UInt32)).length = _)
  have hzeros : replicate (limbCount n) (0 : UInt32) ++
      replicate ((a.limbs.take (limbCount m)).length + 1) 0 =
      replicate (limbCount m + limbCount n + 1) 0 := by
    rw [replicate_append_replicate, hla]
    congr 1
    omega
  rw [hla, hlb] at hlen
  rw [ha.take.val, hb.take.val, val_replicate_zero, zero_add] at hval
  refine ⟨vs ++ replicate 1 0, by simp [hlen], by rw [take_left' hlen, hval], ?_⟩
  simp only [mul, ha.nlimbsOrZero, hb.nlimbsOrZero, ← hzeros, hrows]

theorem mul_flags (ha : Holds a x) (hb : Holds b y) (hxy : x * y ≠ 0) :
    (a.flags ^^^ b.flags) &&& FLAG_NEG = signFlag (x * y) := by
  obtain ⟨hx, hy⟩ := Int.mul_ne_zero_iff.mp hxy
  rw [ha.flags, hb.flags]
  simp only [signFlag, Int.mul_neg_iff]
  by_cases h : x < 0 <;> by_cases h' : y < 0 <;> simp [h, h', FLAG_NEG] <;> omega

theorem mul_of_lt (ha : Holds a x) (hb : Holds b y)
    (h32 : limbCount x.natAbs + limbCount y.natAbs < 2 ^ 32)
    (hcap : limbCount (x * y).natAbs ≤ cap dest) : Yields (mul dest a b) (cap dest) (x * y) := by
  obtain ⟨limbs, hlen, hval, hmul⟩ := mul_rows dest ha.magnitude hb.magnitude
  obtain ⟨tmp, htrim, -, hmag, hflags⟩ := trim_eq (m := (x * y).natAbs)
    ⟨(a.flags ^^^ b.flags) &&& FLAG_NEG, UInt32.ofNat (limbCount x.natAbs + limbCount y.natAbs),
      limbs⟩
    (by simp only [toNat_limb h32, cap]; omega) (by rw [toNat_limb h32, hval, Int.natAbs_mul])
  rw [hmul, htrim]
  refine ⟨_, rfl, cap_assign dest tmp, Holds.assign (hmag.holds rfl ?_) _ hcap⟩
  rw [hflags]
  split
  case isTrue h0 => rw [Int.natAbs_eq_zero.mp h0]; rfl
  case isFalse h0 => exact mul_flags ha hb (by simpa using h0)

/-- A product has at most one limb less than its factors together. -/
theorem limbCount_mul (hm : m ≠ 0) (hn : n ≠ 0) :
    limbCount m + limbCount n ≤ limbCount (m * n) + 1 := by
  have hm' : 0 < limbCount m := Nat.pos_of_ne_zero (mt limbCount_eq_zero.mp hm)
  have hn' : 0 < limbCount n := Nat.pos_of_ne_zero (mt limbCount_eq_zero.mp hn)
  have hle := Nat.mul_le_mul (lt_limbCount_iff.mp (Nat.sub_one_lt hm'.ne'))
    (lt_limbCount_iff.mp (Nat.sub_one_lt hn'.ne'))
  rw [← pow_add, ← mul_add] at hle
  have := lt_limbCount_iff.mpr hle
  omega

/-- `mul` copies a number of at most as many limbs as the word for its length says. -/
theorem mul_returns (ha : Magnitude a m) (hb : Magnitude b n) :
    ∃ tmp, mul dest a b = .ok (assign dest tmp) ∧
      tmp.length.toNat ≤ (limbCount m + limbCount n) % 2 ^ 32 := by
  obtain ⟨limbs, hlen, -, hmul⟩ := mul_rows dest ha hb
  have hmod : (UInt32.ofNat (limbCount m + limbCount n)).toNat ≤ limbCount m + limbCount n := by
    rw [UInt32.toNat_ofNat']
    exact Nat.mod_le _ _
  obtain ⟨tmp, htrim, -, hmag, -⟩ := trim_eq
    ⟨(a.flags ^^^ b.flags) &&& FLAG_NEG, UInt32.ofNat (limbCount m + limbCount n), limbs⟩
    (by simp only [cap]; omega) rfl
  rw [htrim] at hmul
  refine ⟨tmp, hmul, ?_⟩
  rw [hmag.length]
  refine limbCount_le_iff.mpr ((val_lt _).trans_le (Nat.pow_le_pow_right (by decide) ?_))
  rw [length_take, UInt32.toNat_ofNat']
  omega

/-- Where that word is cut, fewer limbs are left than the product has. -/
theorem mul_cut (ha : Holds a x) (hb : Holds b y)
    (h32 : 2 ^ 32 ≤ limbCount x.natAbs + limbCount y.natAbs) :
    ¬ Yields (mul dest a b) (cap dest) (x * y) := by
  rintro ⟨d, hd, -, hholds⟩
  obtain ⟨tmp, hmul, hshort⟩ := mul_returns dest ha.magnitude hb.magnitude
  obtain rfl : d = assign dest tmp := by simpa using hd.symm.trans hmul
  have hx := ha.magnitude.count_lt
  have hy := hb.magnitude.count_lt
  have hlong := limbCount_mul (m := x.natAbs) (n := y.natAbs)
    (mt limbCount_eq_zero.mpr (by omega)) (mt limbCount_eq_zero.mpr (by omega))
  have hprod := hholds.magnitude.length
  rw [Int.natAbs_mul] at hprod
  have hsame : (assign dest tmp).length.toNat = tmp.length.toNat := rfl
  omega

/-- `mul` never panics, so no 64-bit sum of its rows overflows, and it leaves the product in
every destination with room for it exactly when the number of limbs of both operands together
is a 32-bit word. -/
theorem mul_exact_iff (ha : Holds a x) (hb : Holds b y)
    (hcap : limbCount (x * y).natAbs ≤ cap dest) :
    mul dest a b ≠ .panic ∧ (Yields (mul dest a b) (cap dest) (x * y) ↔
      limbCount x.natAbs + limbCount y.natAbs < 2 ^ 32) := by
  obtain ⟨tmp, hmul, -⟩ := mul_returns dest ha.magnitude hb.magnitude
  refine ⟨by simp [hmul], fun h => ?_, fun h32 => mul_of_lt dest ha hb h32 hcap⟩
  by_contra hge
  exact mul_cut dest ha hb (by omega) h

theorem mul_exact_iff_sample :
    mul (zeroed 3) (canonical 1 (-6)) (canonical 1 7) ≠ .panic ∧
      (Yields (mul (zeroed 3) (canonical 1 (-6)) (canonical 1 7)) 1 (-6 * 7) ↔
        limbCount 6 + limbCount 7 < 2 ^ 32) :=
  mul_exact_iff (zeroed 3) (canonical_holds 1 (by decide)) (canonical_holds 1 (by decide))
    (by decide)

theorem limbCount_two_pow (k : Nat) : limbCount (2 ^ (32 * k)) = k + 1 := by
  refine le_antisymm (limbCount_le_iff.mpr ?_) (lt_limbCount_iff.mpr (le_refl _))
  exact Nat.pow_lt_pow_right (by decide) (by omega)

/-- The square of the power of two with 2^31 limbs has 2^32 - 1 limbs, as many as its length can
say, and `mul` leaves something else. -/
theorem long_square_lost :
    ∃ (k : Nat) (a : BigInt) (x : Int), k = 2 ^ 31 - 1 ∧ x = 2 ^ (32 * k) ∧ Holds a x ∧
      limbCount (x * x).natAbs = 2 ^ 32 - 1 ∧ cap (zeroed (2 ^ 32 + 1)) = 2 ^ 32 - 1 ∧
      ¬ Yields (mul (zeroed (2 ^ 32 + 1)) a a) (2 ^ 32 - 1) (x * x) := by
  obtain ⟨k, hk⟩ : ∃ k : Nat, k = 2 ^ 31 - 1 := ⟨_, rfl⟩
  have habs : ((2 : Int) ^ (32 * k)).natAbs = 2 ^ (32 * k) := by rw [Int.natAbs_pow]; rfl
  have hcount : limbCount ((2 : Int) ^ (32 * k)).natAbs = k + 1 := by
    rw [habs, limbCount_two_pow]
  have hholds := canonical_holds (z := 2 ^ (32 * k)) (k + 1) (by omega)
  have hcap : cap (zeroed (2 ^ 32 + 1)) = 2 ^ 32 - 1 := cap_zeroed _
  refine ⟨k, _, _, hk, rfl, hholds, ?_, hcap, ?_⟩
  · rw [Int.natAbs_mul, habs, ← pow_add, ← mul_add, limbCount_two_pow]
    omega
  · rw [← hcap]
    exact mul_cut _ hholds hholds (by omega)

end Rustee.Arith
