import Mathlib.Data.List.Basic

/-!
# Patches laid over a block of memory

A patch replaces a stretch of the block, and later patches go over earlier ones. So
every cell of the result comes from the last patch that covers it, or is what it was.
-/

namespace Rustee

open List

variable {α : Type}

/-- Data for the cells from `off` on. -/
structure Patch (α : Type) where
  off : Nat
  data : List α

namespace Patch

variable {p : Patch α} {ps : List (Patch α)} {m : List α} {x : Nat}

def covers (p : Patch α) (x : Nat) : Bool := p.off ≤ x && x < p.off + p.data.length

theorem covers_iff : p.covers x = true ↔ p.off ≤ x ∧ x < p.off + p.data.length := by
  simp [covers]

def apply (m : List α) (p : Patch α) : List α :=
  m.take p.off ++ p.data ++ m.drop (p.off + p.data.length)

theorem length_apply (h : p.off + p.data.length ≤ m.length) : (p.apply m).length = m.length := by
  simp only [apply, length_append, length_take, length_drop]
  omega

theorem getElem?_apply (h : p.off + p.data.length ≤ m.length) :
    (p.apply m)[x]? = if p.covers x then p.data[x - p.off]? else m[x]? := by
  have hoff : (m.take p.off).length = p.off := by
    rw [length_take]
    omega
  by_cases hcov : p.covers x = true
  · obtain ⟨hlo, hhi⟩ := covers_iff.mp hcov
    rw [if_pos hcov, apply, append_assoc, getElem?_append_right (by omega), hoff,
      getElem?_append_left (by omega)]
  · have hout : x < p.off ∨ p.off + p.data.length ≤ x := by
      by_contra hin
      exact hcov (covers_iff.mpr (by omega))
    rw [if_neg hcov, apply, append_assoc]
    rcases hout with hlo | hhi
    · rw [getElem?_append_left (by omega), getElem?_take_of_lt hlo]
    · rw [getElem?_append_right (by omega), hoff, getElem?_append_right (by omega), getElem?_drop]
      congr 1
      omega

def applyAll (m : List α) (ps : List (Patch α)) : List α := ps.foldl (fun acc p => p.apply acc) m

theorem length_applyAll (h : ∀ p ∈ ps, p.off + p.data.length ≤ m.length) :
    (applyAll m ps).length = m.length := by
  induction ps generalizing m with
  | nil => rfl
  | cons p ps ih =>
    have hp := length_apply (h p mem_cons_self)
    have hrest := ih (m := p.apply m) fun q hq => by
      rw [hp]
      exact h q (mem_cons_of_mem _ hq)
    exact hrest.trans hp

theorem getElem?_applyAll (h : ∀ p ∈ ps, p.off + p.data.length ≤ m.length) (x : Nat) :
    (applyAll m ps)[x]? =
      match (ps.filter fun p => p.covers x).getLast? with
      | some p => p.data[x - p.off]?
      | none => m[x]? := by
  induction ps generalizing m with
  | nil => rfl
  | cons p ps ih =>
    have hfirst := h p mem_cons_self
    have hrest := ih (m := p.apply m) fun q hq => by
      rw [length_apply hfirst]
      exact h q (mem_cons_of_mem _ hq)
    refine hrest.trans ?_
    rw [filter_cons]
    cases hlast : (ps.filter fun p => p.covers x).getLast? with
    | some q =>
      have hsame : (if p.covers x = true then p :: ps.filter fun p => p.covers x
          else ps.filter fun p => p.covers x).getLast? = some q := by
        split
        · rw [getLast?_cons, hlast]
          rfl
        · exact hlast
      rw [hsame]
    | none =>
      have hnil : (ps.filter fun p => p.covers x) = [] := getLast?_eq_none_iff.mp hlast
      rw [hnil, getElem?_apply hfirst]
      by_cases hcov : p.covers x = true
      · rw [if_pos hcov, if_pos hcov]
        rfl
      · rw [if_neg hcov, if_neg hcov]
        rfl

end Patch

end Rustee
