import Mathlib.Data.Nat.Digits.Lemmas
import Mathlib.Data.Nat.Size
import Mathlib.Tactic.Ring
import Mathlib.Tactic.Linarith
import Mathlib.Tactic.LinearCombination

/-!
# Numbers as little-endian lists of 32-bit limbs

The value of a limb list, the limbs of a number, and the loops that work on limbs: the carry chain
of a sum, the borrow chain of a difference, the rows of a product, the comparison from the top
limb and the search for the top non-zero limb. Each loop has one equation over the values.
-/

namespace Rustee.Limbs

open List

/-- The number that the limbs stand for, the lowest limb first. -/
def val : List UInt32 → Nat
  | [] => 0
  | d :: ds => d.toNat + 2 ^ 32 * val ds

variable {ds es : List UInt32} {m n : Nat}

@[simp] theorem val_nil : val [] = 0 := rfl

theorem val_cons (d : UInt32) (ds : List UInt32) : val (d :: ds) = d.toNat + 2 ^ 32 * val ds := rfl

theorem val_eq_ofDigits (ds : List UInt32) :
    val ds = Nat.ofDigits (2 ^ 32) (ds.map UInt32.toNat) := by
  induction ds with
  | nil => rfl
  | cons d ds ih => rw [val_cons, ih, map_cons, Nat.ofDigits_cons]

theorem two_pow_limbs (k : Nat) : 2 ^ (32 * (k + 1)) = 2 ^ 32 * 2 ^ (32 * k) := by
  rw [Nat.mul_succ, add_comm, pow_add]

theorem val_append (ds es : List UInt32) :
    val (ds ++ es) = val ds + 2 ^ (32 * ds.length) * val es := by
  induction ds with
  | nil => simp
  | cons d ds ih =>
    rw [cons_append, val_cons, ih, val_cons, length_cons, two_pow_limbs]
    ring

theorem val_lt (ds : List UInt32) : val ds < 2 ^ (32 * ds.length) := by
  induction ds with
  | nil => simp
  | cons d =>
    have hd := d.toNat_lt
    rw [val_cons, length_cons, two_pow_limbs]
    omega

@[simp] theorem val_replicate_zero (k : Nat) : val (replicate k 0) = 0 := by
  induction k with
  | zero => rfl
  | succ k ih => rw [replicate_succ, val_cons, ih]; rfl

/-- Putting a limb behind others adds it at its place. -/
theorem val_concat (ds : List UInt32) (d : UInt32) :
    val (ds ++ [d]) = val ds + 2 ^ (32 * ds.length) * d.toNat := by
  rw [val_append, val_cons, val_nil, mul_zero, add_zero]

theorem val_take_succ (ds : List UInt32) (i : Nat) :
    val (ds.take (i + 1)) = val (ds.take i) + 2 ^ (32 * i) * (ds.getD i 0).toNat := by
  by_cases h : i < ds.length
  · rw [take_succ_eq_append_getElem h, val_concat, length_take_of_le h.le]
    simp [getD, h]
  · rw [take_of_length_le (by omega), take_of_length_le (by omega)]
    simp [getD, h]

/-- The limbs of a number: no limb too many. -/
def Stores (ds : List UInt32) (m : Nat) : Prop :=
  ds.map UInt32.toNat = Nat.digits (2 ^ 32) m

theorem Stores.val (h : Stores ds m) : Limbs.val ds = m := by
  rw [val_eq_ofDigits, h, Nat.ofDigits_digits]

theorem Stores.length (h : Stores ds m) : ds.length = (Nat.digits (2 ^ 32) m).length := by
  rw [← h, length_map]

theorem Stores.unique (h : Stores ds m) (h' : Stores es m) : ds = es :=
  map_injective_iff.mpr (fun _ _ => UInt32.toNat_inj.mp) (h.trans h'.symm)

theorem stores_nil : Stores [] 0 := by simp [Stores]

theorem Stores.eq_nil_iff (h : Stores ds m) : ds = [] ↔ m = 0 := by
  constructor
  · rintro rfl
    exact h.val.symm
  · rintro rfl
    exact h.unique stores_nil

theorem toNat_pos {d : UInt32} (hd : d ≠ 0) : 0 < d.toNat :=
  Nat.pos_of_ne_zero fun h => hd (UInt32.toNat_inj.mp h)

variable {k : Nat}

theorem toNat_limb (h : k < 2 ^ 32) : (UInt32.ofNat k).toNat = k := by
  rw [UInt32.toNat_ofNat', Nat.mod_eq_of_lt h]

/-- A list whose top limb is not zero is the list of its value. -/
theorem stores_concat (ds : List UInt32) {d : UInt32} (hd : d ≠ 0) :
    Stores (ds ++ [d]) (Limbs.val (ds ++ [d])) := by
  rw [Stores, val_eq_ofDigits, Nat.digits_ofDigits _ (by decide)]
  · intro x hx
    obtain ⟨y, -, rfl⟩ := mem_map.mp hx
    exact y.toNat_lt
  · intro hne
    rw [getLast_map]
    simpa using toNat_pos hd |>.ne'

/-- So is a list whose value is too large for one limb less. -/
theorem stores_of_le (h : ds ≠ [] → 2 ^ (32 * (ds.length - 1)) ≤ Limbs.val ds) :
    Stores ds (Limbs.val ds) := by
  rcases eq_nil_or_concat' ds with rfl | ⟨es, d, rfl⟩
  · exact stores_nil
  · refine stores_concat es fun hd => ?_
    have hle := h (by simp)
    rw [hd, val_concat, length_append] at hle
    exact not_le_of_gt (val_lt es) (by simpa using hle)

/-! ### Bits -/

theorem testBit_val (ds : List UInt32) (k : Nat) :
    (val ds).testBit k = ((ds.getD (k / 32) 0).toNat).testBit (k % 32) := by
  induction ds generalizing k with
  | nil => simp
  | cons d ds ih =>
    rw [val_cons, add_comm, Nat.testBit_two_pow_mul_add _ d.toNat_lt]
    by_cases hk : k < 32
    · simp [hk, Nat.div_eq_of_lt hk, Nat.mod_eq_of_lt hk]
    · have hdiv : k / 32 = (k - 32) / 32 + 1 := by omega
      have hmod : k % 32 = (k - 32) % 32 := by omega
      rw [if_neg hk, ih, hdiv, hmod]
      rfl

/-- The first limbs are the value modulo their weight. -/
theorem val_take (ds : List UInt32) (k : Nat) : val (ds.take k) = val ds % 2 ^ (32 * k) := by
  rcases Nat.le_total k ds.length with hk | hk
  · conv_rhs => rw [← take_append_drop k ds, val_append, length_take_of_le hk]
    have hlt := val_lt (ds.take k)
    rw [length_take_of_le hk] at hlt
    rw [Nat.add_mul_mod_self_left, Nat.mod_eq_of_lt hlt]
  · rw [take_of_length_le hk, Nat.mod_eq_of_lt]
    exact (val_lt ds).trans_le (Nat.pow_le_pow_right (by decide) (by omega))

/-- The limb with only bit `k` of the number set. -/
def mask (k : Nat) : UInt32 := 1 <<< UInt32.ofNat (k % 32)

theorem toNat_mask (k : Nat) : (mask k).toNat = 2 ^ (k % 32) := by
  have hk : k % 32 < 32 := Nat.mod_lt _ (by decide)
  rw [mask, UInt32.toNat_shiftLeft, toNat_limb (by omega), Nat.mod_eq_of_lt hk, Nat.shiftLeft_eq,
    UInt32.toNat_one, one_mul, Nat.mod_eq_of_lt (Nat.pow_lt_pow_right (by decide) hk)]

variable {i : Nat}

theorem testBit_val_set (hi : i < ds.length) (w : UInt32) (j : Nat) :
    (val (ds.set i w)).testBit j =
      if j / 32 = i then w.toNat.testBit (j % 32) else (val ds).testBit j := by
  rw [testBit_val, testBit_val]
  by_cases hj : j / 32 = i
  · simp [hj, hi]
  · simp [hj, Ne.symm hj]

theorem testBit_mask_iff {j : Nat} (h : j / 32 = k / 32) :
    (mask k).toNat.testBit (j % 32) = decide (j = k) := by
  rw [toNat_mask, Nat.testBit_two_pow]
  exact decide_eq_decide.mpr ⟨fun hmod => by omega, fun hjk => by rw [hjk]⟩

theorem val_set_mask (hk : k / 32 < ds.length) :
    val (ds.set (k / 32) (ds.getD (k / 32) 0 ||| mask k)) = val ds ||| 2 ^ k := by
  refine Nat.eq_of_testBit_eq fun j => ?_
  rw [testBit_val_set hk, Nat.testBit_or, Nat.testBit_two_pow, UInt32.toNat_or, Nat.testBit_or]
  split
  case isTrue hj => rw [testBit_mask_iff hj, testBit_val, hj, decide_eq_decide.mpr eq_comm]
  case isFalse hj => rw [decide_eq_false (fun h => hj (by rw [h])), Bool.or_false]

theorem testBit_val_clear_mask (hk : k / 32 < ds.length) (j : Nat) :
    (val (ds.set (k / 32) (ds.getD (k / 32) 0 &&& ~~~mask k))).testBit j =
      (decide (j ≠ k) && (val ds).testBit j) := by
  rw [testBit_val_set hk, UInt32.toNat_and, Nat.testBit_and]
  split
  case isTrue hj =>
    have hnot : (~~~mask k).toNat = 2 ^ 32 - ((mask k).toNat + 1) := by
      rw [UInt32.toNat_not, UInt32.size]
      omega
    rw [hnot, Nat.testBit_two_pow_sub_succ (mask k).toNat_lt, testBit_mask_iff hj,
      decide_eq_true (Nat.mod_lt _ (by decide)), testBit_val, hj, Bool.true_and, Bool.and_comm]
    by_cases hjk : j = k <;> simp [hjk]
  case isFalse hj =>
    have hjk : j ≠ k := fun h => hj (by rw [h])
    simp [hjk]

/-! ### Carry and borrow chains -/

theorem val_eq_head_tail (ds : List UInt32) :
    val ds = (ds.headD 0).toNat + 2 ^ 32 * val ds.tail := by
  cases ds with
  | nil | cons => rfl

/-- `n` limbs of a sum, missing limbs read as zero, and the carry out of the last. -/
def addCarry : Nat → List UInt32 → List UInt32 → Nat → List UInt32 × Nat
  | 0, _, _, carry => ([], carry)
  | n + 1, xs, ys, carry =>
    let s := (xs.headD 0).toNat + (ys.headD 0).toNat + carry
    let rest := addCarry n xs.tail ys.tail (s / 2 ^ 32)
    (UInt32.ofNat s :: rest.1, rest.2)

theorem addCarry_length (n : Nat) (xs ys : List UInt32) (c : Nat) :
    (addCarry n xs ys c).1.length = n := by
  induction n generalizing xs ys c with
  | zero => rfl
  | succ n ih => simp [addCarry, ih]

variable {c : Nat}

theorem addCarry_carry (n : Nat) (xs ys : List UInt32) (hc : c ≤ 1) :
    (addCarry n xs ys c).2 ≤ 1 := by
  induction n generalizing xs ys c with
  | zero => exact hc
  | succ n ih =>
    have hx := (xs.headD 0).toNat_lt
    have hy := (ys.headD 0).toNat_lt
    exact ih _ _ (by omega)

theorem val_addCarry {n : Nat} (xs ys : List UInt32) (c : Nat) (hx : xs.length ≤ n)
    (hy : ys.length ≤ n) :
    val (addCarry n xs ys c).1 + 2 ^ (32 * n) * (addCarry n xs ys c).2 = val xs + val ys + c := by
  induction n generalizing xs ys c with
  | zero =>
    rw [eq_nil_of_length_eq_zero (Nat.le_zero.mp hx), eq_nil_of_length_eq_zero (Nat.le_zero.mp hy)]
    simp [addCarry]
  | succ n ih =>
    have hrest := ih xs.tail ys.tail (((xs.headD 0).toNat + (ys.headD 0).toNat + c) / 2 ^ 32)
      (by rw [length_tail]; omega) (by rw [length_tail]; omega)
    rw [val_eq_head_tail xs, val_eq_head_tail ys]
    simp only [addCarry, val_cons, UInt32.toNat_ofNat', two_pow_limbs]
    have hdiv := Nat.mod_add_div ((xs.headD 0).toNat + (ys.headD 0).toNat + c) (2 ^ 32)
    linear_combination hdiv + 2 ^ 32 * hrest

/-- `n` limbs of a difference, missing limbs read as zero, and the borrow from behind the last. -/
def subBorrow : Nat → List UInt32 → List UInt32 → Nat → List UInt32 × Nat
  | 0, _, _, borrow => ([], borrow)
  | n + 1, xs, ys, borrow =>
    let x := (xs.headD 0).toNat
    let y := (ys.headD 0).toNat
    if x < y + borrow then
      let rest := subBorrow n xs.tail ys.tail 1
      (UInt32.ofNat (x + 2 ^ 32 - y - borrow) :: rest.1, rest.2)
    else
      let rest := subBorrow n xs.tail ys.tail 0
      (UInt32.ofNat (x - y - borrow) :: rest.1, rest.2)

theorem subBorrow_length (n : Nat) (xs ys : List UInt32) (b : Nat) :
    (subBorrow n xs ys b).1.length = n := by
  induction n generalizing xs ys b with
  | zero => rfl
  | succ n ih =>
    rw [subBorrow]
    split <;> simp [ih]

variable {ys : List UInt32}

theorem val_subBorrow {n : Nat} {xs : List UInt32} {b : Nat} (hx : xs.length ≤ n)
    (hy : ys.length ≤ n) (hb : b ≤ 1) :
    val (subBorrow n xs ys b).1 + val ys + b = val xs + 2 ^ (32 * n) * (subBorrow n xs ys b).2 := by
  induction n generalizing xs ys b with
  | zero =>
    rw [eq_nil_of_length_eq_zero (Nat.le_zero.mp hx), eq_nil_of_length_eq_zero (Nat.le_zero.mp hy)]
    simp [subBorrow]
  | succ n ih =>
    have hxs : xs.tail.length ≤ n := by rw [length_tail]; omega
    have hys : ys.tail.length ≤ n := by rw [length_tail]; omega
    have hhx := (xs.headD 0).toNat_lt
    have hhy := (ys.headD 0).toNat_lt
    rw [val_eq_head_tail xs, val_eq_head_tail ys, subBorrow]
    split
    case isTrue hlt =>
      have hrest := ih hxs hys (Nat.le_refl 1)
      have hd : ((xs.headD 0).toNat + 2 ^ 32 - (ys.headD 0).toNat - b) % 2 ^ 32 +
          (ys.headD 0).toNat + b = (xs.headD 0).toNat + 2 ^ 32 := by
        rw [Nat.mod_eq_of_lt (by omega)]
        omega
      simp only [val_cons, UInt32.toNat_ofNat', two_pow_limbs]
      linear_combination hd + 2 ^ 32 * hrest
    case isFalse hge =>
      have hrest := ih hxs hys (Nat.zero_le 1)
      have hd : ((xs.headD 0).toNat - (ys.headD 0).toNat - b) % 2 ^ 32 +
          (ys.headD 0).toNat + b = (xs.headD 0).toNat := by
        rw [Nat.mod_eq_of_lt (by omega)]
        omega
      simp only [val_cons, UInt32.toNat_ofNat', two_pow_limbs]
      linear_combination hd + 2 ^ 32 * hrest

/-- No borrow is left when the smaller number is taken from the larger one. -/
theorem val_sub {n : Nat} (xs ys : List UInt32) (hx : xs.length ≤ n) (hy : ys.length ≤ n)
    (hle : val ys ≤ val xs) : val (subBorrow n xs ys 0).1 = val xs - val ys := by
  have heq := val_subBorrow hx hy (Nat.zero_le 1)
  have hlt := val_lt (subBorrow n xs ys 0).1
  rw [subBorrow_length] at hlt
  rcases Nat.eq_zero_or_pos (subBorrow n xs ys 0).2 with h0 | hpos
  · rw [h0] at heq
    omega
  · have := Nat.le_mul_of_pos_right (2 ^ (32 * n)) hpos
    omega

/-! ### Rows of a product -/

/-- One row: `x` times the limbs of `ys` is added onto the accumulator, and the carry is stored
behind them. `none` where an index or a 64-bit sum is out of range. -/
def mulRow (x : UInt32) : List UInt32 → List UInt32 → Nat → Option (List UInt32)
  | _, [], _ => none
  | [], _ :: ts, carry => some (UInt32.ofNat carry :: ts)
  | y :: ys, t :: ts, carry =>
    let p := t.toNat + x.toNat * y.toNat + carry
    if p < 2 ^ 64 then (mulRow x ys ts (p / 2 ^ 32)).map (UInt32.ofNat p :: ·) else none

/-- A row for every limb of `xs`, each one limb further up. -/
def mulRows : List UInt32 → List UInt32 → List UInt32 → Option (List UInt32)
  | [], _, ts => some ts
  | x :: xs, ys, ts =>
    match mulRow x ys ts 0 with
    | some (t :: ts) => (mulRows xs ys ts).map (t :: ·)
    | _ => none

/-- The sum of a row never passes 64 bits. -/
theorem row_lt {t x y : UInt32} (hc : c < 2 ^ 32) : t.toNat + x.toNat * y.toNat + c < 2 ^ 64 := by
  have ht := t.toNat_lt
  have hxy := Nat.mul_le_mul (Nat.le_pred_of_lt x.toNat_lt) (Nat.le_pred_of_lt y.toNat_lt)
  norm_num at hxy ht hc ⊢
  omega

theorem mulRow_eq (x : UInt32) {us : List UInt32} (rest : List UInt32)
    (hlen : us.length = ys.length) (hc : c < 2 ^ 32) :
    ∃ vs, mulRow x ys (us ++ 0 :: rest) c = some (vs ++ rest) ∧ vs.length = ys.length + 1 ∧
      val vs = val us + x.toNat * val ys + c := by
  induction ys generalizing us c with
  | nil =>
    rw [eq_nil_of_length_eq_zero hlen]
    exact ⟨[UInt32.ofNat c], rfl, rfl, by simpa [val_cons] using hc⟩
  | cons y ys ih =>
    obtain ⟨u, us, rfl⟩ := exists_cons_of_length_eq_add_one hlen
    have hp : u.toNat + x.toNat * y.toNat + c < 2 ^ 64 := row_lt hc
    obtain ⟨vs, hrow, hvs, hval⟩ := ih (c := (u.toNat + x.toNat * y.toNat + c) / 2 ^ 32)
      (show us.length = ys.length by simpa using hlen) (by omega)
    refine ⟨UInt32.ofNat (u.toNat + x.toNat * y.toNat + c) :: vs, ?_, by simp [hvs], ?_⟩
    · simp only [cons_append, mulRow, if_pos hp, hrow, Option.map_some]
    · have hdiv := Nat.mod_add_div (u.toNat + x.toNat * y.toNat + c) (2 ^ 32)
      simp only [val_cons, UInt32.toNat_ofNat', hval]
      linear_combination hdiv

theorem mulRows_eq (xs : List UInt32) {us : List UInt32} (k : Nat) (hlen : us.length = ys.length) :
    ∃ vs, mulRows xs ys (us ++ replicate (xs.length + k) 0) =
        some (vs ++ replicate k 0) ∧ vs.length = xs.length + ys.length ∧
      val vs = val us + val xs * val ys := by
  induction xs generalizing us with
  | nil => exact ⟨us, by simp [mulRows], by simp [hlen], by simp⟩
  | cons x xs ih =>
    have hzeros : replicate ((x :: xs).length + k) (0 : UInt32) =
        0 :: replicate (xs.length + k) 0 := by
      rw [← replicate_succ, length_cons]
      congr 1
      omega
    obtain ⟨row, hrow, hlrow, hval⟩ :=
      mulRow_eq x (replicate (xs.length + k) 0) hlen (Nat.two_pow_pos 32)
    obtain ⟨t, us', rfl⟩ := exists_cons_of_length_eq_add_one hlrow
    obtain ⟨vs, hrows, hlvs, hvs⟩ := ih (show us'.length = ys.length by simpa using hlrow)
    refine ⟨t :: vs, ?_, by simp [hlvs]; omega, ?_⟩
    · simp only [mulRows, hzeros, hrow, cons_append, hrows, Option.map_some]
    · rw [val_cons] at hval ⊢
      rw [hvs, val_cons]
      linear_combination hval

/-! ### Comparison and the top limb -/

/-- The sign of `m - n`. -/
def sgn (m n : Nat) : Int := if n < m then 1 else if m < n then -1 else 0

/-- The first `i` limbs compared from the top one down. -/
def cmpFrom (xs ys : List UInt32) : Nat → Int
  | 0 => 0
  | i + 1 =>
    if ys.getD i 0 < xs.getD i 0 then 1
    else if xs.getD i 0 < ys.getD i 0 then -1
    else cmpFrom xs ys i

theorem cmpFrom_eq {xs : List UInt32} (hx : i ≤ xs.length) (hy : i ≤ ys.length) :
    cmpFrom xs ys i = sgn (val (xs.take i)) (val (ys.take i)) := by
  induction i with
  | zero => rfl
  | succ i ih =>
    have hlx := val_lt (xs.take i)
    have hly := val_lt (ys.take i)
    rw [length_take_of_le (by omega)] at hlx hly
    simp only [cmpFrom, UInt32.lt_iff_toNat_lt, val_take_succ]
    -- a larger limb at the top outweighs everything below it
    have hstep : ∀ {a b p q : Nat}, a < 2 ^ (32 * i) → p < q →
        a + 2 ^ (32 * i) * p < b + 2 ^ (32 * i) * q := by
      intro a b p q ha hpq
      have := Nat.mul_le_mul_left (2 ^ (32 * i)) (Nat.succ_le_of_lt hpq)
      rw [Nat.mul_succ] at this
      omega
    split
    next hlt => rw [sgn, if_pos (hstep hly hlt)]
    next hge =>
      split
      next hlt => rw [sgn, if_neg (lt_asymm (hstep hlx hlt)), if_pos (hstep hlx hlt)]
      next hge' =>
        rw [ih (by omega) (by omega),
          le_antisymm (le_of_not_gt hge) (le_of_not_gt hge')]
        simp [sgn]

/-- The number of limbs left when the zero limbs at the top of the first `i` are dropped. -/
def trimFrom (ds : List UInt32) : Nat → Option Nat
  | 0 => some 0
  | i + 1 =>
    match ds[i]? with
    | none => none
    | some d => if d = 0 then trimFrom ds i else some (i + 1)

theorem trimFrom_eq (hi : i ≤ ds.length) :
    ∃ k, trimFrom ds i = some k ∧ k ≤ i ∧ Stores (ds.take k) (val (ds.take i)) := by
  induction i with
  | zero => exact ⟨0, rfl, le_refl 0, stores_nil⟩
  | succ i ih =>
    have hget : ds[i]? = some ds[i] := getElem?_eq_getElem hi
    by_cases hd : ds[i] = 0
    · obtain ⟨k, htrim, hk, hst⟩ := ih (by omega)
      refine ⟨k, by simp [trimFrom, hget, hd, htrim], by omega, ?_⟩
      rw [val_take_succ]
      simpa [getD, hget, hd] using hst
    · refine ⟨i + 1, by simp [trimFrom, hget, hd], le_refl _, ?_⟩
      rw [take_succ_eq_append_getElem hi]
      exact stores_concat _ hd

/-! ### Shifting down -/

/-- Every limb shifted down by `r` bits, from the top; the bits pushed out of a limb enter the
next one below. -/
def shrBits (r : Nat) : List UInt32 → List UInt32 × UInt32
  | [] => ([], 0)
  | cur :: ds =>
    let rest := shrBits r ds
    (((cur >>> UInt32.ofNat r) ||| rest.2) :: rest.1, cur <<< UInt32.ofNat (32 - r))

theorem shrBits_length (r : Nat) (ds : List UInt32) : (shrBits r ds).1.length = ds.length := by
  induction ds with
  | nil => rfl
  | cons d ds ih => simp [shrBits, ih]

theorem val_shrBits (ds : List UInt32) {r : Nat} (hr : 0 < r) (hr' : r < 32) :
    ∃ c < 2 ^ r, (shrBits r ds).2.toNat = 2 ^ (32 - r) * c ∧
      2 ^ r * val (shrBits r ds).1 + c = val ds := by
  induction ds with
  | nil => exact ⟨0, Nat.two_pow_pos r, rfl, rfl⟩
  | cons d ds ih =>
    obtain ⟨c, hc, hcarry, hval⟩ := ih
    have hpow : (2 : Nat) ^ 32 = 2 ^ r * 2 ^ (32 - r) := by
      rw [← pow_add]
      congr 1
      omega
    have hdown : (d >>> UInt32.ofNat r).toNat = d.toNat / 2 ^ r := by
      rw [UInt32.toNat_shiftRight, toNat_limb (by omega), Nat.mod_eq_of_lt hr',
        Nat.shiftRight_eq_div_pow]
    have hlt : d.toNat / 2 ^ r < 2 ^ (32 - r) := by
      rw [Nat.div_lt_iff_lt_mul (Nat.two_pow_pos r), mul_comm, ← hpow]
      exact d.toNat_lt
    have hlimb : ((d >>> UInt32.ofNat r) ||| (shrBits r ds).2).toNat =
        2 ^ (32 - r) * c + d.toNat / 2 ^ r := by
      rw [UInt32.toNat_or, hdown, hcarry, Nat.or_comm, Nat.two_pow_add_eq_or_of_lt hlt]
    refine ⟨d.toNat % 2 ^ r, Nat.mod_lt _ (Nat.two_pow_pos r), ?_, ?_⟩
    · have hmod : (32 - r) % 32 = 32 - r := Nat.mod_eq_of_lt (by omega)
      rw [shrBits, UInt32.toNat_shiftLeft, toNat_limb (by omega), hmod, Nat.shiftLeft_eq, hpow,
        mul_comm, mul_comm (2 ^ r), Nat.mul_mod_mul_left]
    · have hdiv := Nat.div_add_mod d.toNat (2 ^ r)
      simp only [shrBits, val_cons, hlimb]
      rw [← hval, hpow]
      linear_combination hdiv

theorem val_drop (ds : List UInt32) (k : Nat) : val (ds.drop k) = val ds / 2 ^ (32 * k) := by
  rcases Nat.le_total k ds.length with hk | hk
  · have hlt := val_lt (ds.take k)
    rw [length_take_of_le hk] at hlt
    conv_rhs => rw [← take_append_drop k ds, val_append, length_take_of_le hk]
    rw [Nat.add_mul_div_left _ _ (Nat.two_pow_pos _), Nat.div_eq_of_lt hlt, zero_add]
  · rw [drop_eq_nil_of_le hk, Nat.div_eq_of_lt, val_nil]
    exact (val_lt ds).trans_le (Nat.pow_le_pow_right (by decide) (by omega))

end Rustee.Limbs
