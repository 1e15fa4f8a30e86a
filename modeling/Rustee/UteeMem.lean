import Mathlib.Tactic.Common

/-!
# Comparing memory (`mem_compare`, `mem.rs` of `rustee-utee`)

The loop has no branch and reads every byte, also behind the first difference. What it
accumulates is the first difference that is not zero.
-/

namespace Rustee.Utee

/-- `i32::signum` -/
def signum (x : Int32) : Int32 := if x < 0 then -1 else if x = 0 then 0 else 1

/-- What the loop does with one pair of bytes. The difference of two bytes fits an `i32`. -/
def compareByte (diff : Int32) (va vb : UInt8) : Int32 :=
  let d := Int32.ofNat va.toNat - Int32.ofNat vb.toNat
  let mask := -(if diff = 0 then 1 else 0)
  diff ||| (d &&& mask)

/-- The loop; a read behind the end of an array has no result. -/
def compareLoop : Nat → List UInt8 → List UInt8 → Int32 → Option Int32
  | 0, _, _, diff => some diff
  | n + 1, va :: a, vb :: b, diff => compareLoop n a b (compareByte diff va vb)
  | _, _, _, _ => none

def memCompare (a b : List UInt8) (n : Nat) : Option Int32 :=
  if n = 0 then some 0 else (compareLoop n a b 0).map signum

/-- The number a comparison function returns for an order. -/
def verdict : Ordering → Int32
  | .lt => -1
  | .eq => 0
  | .gt => 1

variable {diff : Int32} (va vb : UInt8)

theorem compareByte_of_ne (h : diff ≠ 0) : compareByte diff va vb = diff := by
  simp [compareByte, h]

theorem toInt_compareByte_zero : (compareByte 0 va vb).toInt = va.toNat - vb.toNat := by
  have ha := va.toNat_lt
  have hb := vb.toNat_lt
  have hsub : compareByte 0 va vb = Int32.ofNat va.toNat - Int32.ofNat vb.toNat := by
    simp [compareByte]
  rw [hsub, Int32.toInt_sub, Int32.toInt_ofNat_of_lt (by omega), Int32.toInt_ofNat_of_lt (by omega),
    Int.bmod_eq_of_le (by omega) (by omega)]

theorem compareByte_zero_eq_zero : compareByte 0 va vb = 0 ↔ va = vb := by
  rw [← Int32.toInt_inj, toInt_compareByte_zero, ← UInt8.toNat_inj, Int32.toInt_zero]
  omega

theorem signum_compareByte_zero : signum (compareByte 0 va vb) = verdict (compare va vb) := by
  have hlt : compareByte 0 va vb < 0 ↔ va < vb := by
    rw [Int32.lt_iff_toInt_lt, toInt_compareByte_zero, UInt8.lt_iff_toNat_lt, Int32.toInt_zero]
    omega
  change signum _ = verdict (compareOfLessAndEq va vb)
  simp only [signum, compareOfLessAndEq, hlt, compareByte_zero_eq_zero]
  split
  · rfl
  · split
    · rfl
    · rfl

theorem compareByte_step (rest : Ordering) :
    (if compareByte diff va vb = 0 then verdict rest else signum (compareByte diff va vb)) =
      if diff = 0 then verdict ((compare va vb).then rest) else signum diff := by
  by_cases h : diff = 0
  · subst h
    have hsign := signum_compareByte_zero va vb
    cases hc : compare va vb with
    | eq =>
      rw [if_pos ((compareByte_zero_eq_zero va vb).mpr (Std.compare_eq_iff_eq.mp hc))]
      rfl
    | lt | gt =>
      have hne : va ≠ vb := fun he => by simp [he] at hc
      rw [if_neg (mt (compareByte_zero_eq_zero va vb).mp hne), hsign, hc]
      rfl
  · rw [compareByte_of_ne va vb h, if_neg h, if_neg h]

/-- The sign of what the loop returns is that of the difference in hand if there is one, else
that of the first one to come. -/
theorem compareLoop_eq (n : Nat) (a b : List UInt8) (diff : Int32) :
    (compareLoop n a b diff).map signum =
      if n ≤ a.length ∧ n ≤ b.length then
        some (if diff = 0 then verdict (compare (a.take n) (b.take n)) else signum diff)
      else none := by
  fun_induction compareLoop n a b diff with
  | case1 a b diff =>
    by_cases h : diff = 0
    · simp [h, signum, verdict]
    · simp [h]
  | case2 n va a vb b diff ih =>
    simp only [ih, compareByte_step, List.length_cons, Nat.succ_le_succ_iff, List.take_succ_cons,
      List.compare_cons_cons]
  | case3 n a b diff h0 hcons =>
    have hshort : ¬ (n ≤ a.length ∧ n ≤ b.length) := by
      rintro ⟨ha, hb⟩
      rcases n with _ | n
      · exact h0 rfl
      · rcases a with _ | ⟨va, a⟩
        · cases ha
        · rcases b with _ | ⟨vb, b⟩
          · cases hb
          · exact hcons n va a vb b rfl rfl rfl
    rw [if_neg hshort, Option.map_none]

/-- `mem_compare` reads all of its `n` bytes, and its result is the order of the two strings
of `n` bytes as lists of unsigned numbers. -/
theorem memCompare_lexicographic (a b : List UInt8) (n : Nat) :
    memCompare a b n =
      if n ≤ a.length ∧ n ≤ b.length then some (verdict (compare (a.take n) (b.take n)))
      else none := by
  by_cases h : n = 0
  · subst h
    simp [memCompare, verdict]
  · rw [memCompare, if_neg h, compareLoop_eq, if_pos rfl]

end Rustee.Utee
