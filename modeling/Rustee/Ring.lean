import Mathlib.Algebra.GroupWithZero.Nat
import Mathlib.Logic.Function.Basic

/-!
# A ring of `n` slots, written and read through counters that only grow

Entry `k` lies in slot `k % n`. The entries from counter `start` on are read off as a
list, so a writer that is less than a whole ring ahead of the reader appends to the list
and a reader takes its head. Counters kept modulo a multiple of `n` name the same slots.
-/

namespace Rustee.Ring

variable {α : Type} {n : Nat} [NeZero n]

/-- The slot of entry `k`. -/
def slot (n : Nat) [NeZero n] (k : Nat) : Fin n := Fin.ofNat n k

/-- The `count` entries from `start` on. -/
def window (ring : Fin n → α) : Nat → Nat → List α
  | _, 0 => []
  | start, count + 1 => ring (slot n start) :: window ring (start + 1) count

variable (ring : Fin n → α)

@[simp] theorem length_window (start count : Nat) : (window ring start count).length = count := by
  induction count generalizing start with
  | zero => rfl
  | succ count ih => rw [window, List.length_cons, ih]

theorem slot_of_lt {k : Nat} (h : k < n) : slot n k = ⟨k, h⟩ :=
  Fin.ext (Nat.mod_eq_of_lt h)

/-- Counters that wrap at a multiple of `n` stay in step with the slots. -/
theorem slot_mod {m : Nat} (h : n ∣ m) (k : Nat) : slot n (k % m) = slot n k :=
  Fin.ext (Nat.mod_mod_of_dvd k h)

theorem slot_ne {k d : Nat} (hpos : 0 < d) (hlt : d < n) : slot n k ≠ slot n (k + d) := by
  intro h
  have hmod : (k + d) % n = k % n := congrArg Fin.val h.symm
  have hzero := Nat.sub_mod_eq_zero_of_mod_eq hmod
  rw [Nat.add_sub_cancel_left, Nat.mod_eq_of_lt hlt] at hzero
  exact absurd hzero (Nat.pos_iff_ne_zero.mp hpos)

theorem window_update {ring : Fin n → α} {start count : Nat} (h : count < n) (a : α) :
    window (Function.update ring (slot n (start + count)) a) start count =
      window ring start count := by
  induction count generalizing start with
  | zero => rfl
  | succ count ih =>
    have hne : slot n start ≠ slot n (start + (count + 1)) := slot_ne (Nat.succ_pos count) h
    have hshift : start + (count + 1) = start + 1 + count := by omega
    rw [window, window, Function.update_of_ne hne, hshift, ih (Nat.lt_of_succ_lt h)]

theorem window_succ (start count : Nat) :
    window ring start (count + 1) = window ring start count ++ [ring (slot n (start + count))] := by
  induction count generalizing start with
  | zero => rfl
  | succ count ih =>
    have hshift : start + (count + 1) = start + 1 + count := by omega
    rw [window, ih, window, List.cons_append, hshift]

/-- Two counters that are less than `m` apart agree modulo `m` only if they are equal. -/
theorem mod_eq_iff {m lo hi : Nat} (hle : lo ≤ hi) (hlt : hi - lo < m) :
    hi % m = lo % m ↔ hi = lo := by
  constructor
  · intro h
    have hzero := Nat.sub_mod_eq_zero_of_mod_eq h
    rw [Nat.mod_eq_of_lt hlt] at hzero
    omega
  · intro h
    rw [h]

end Rustee.Ring
