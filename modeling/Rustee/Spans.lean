import Mathlib.Data.List.Basic

/-!
# Ranges laid out one behind the other

What a bump allocator hands out is a list of ranges in ascending order. Every range of such a
list is between the ends of the list, and no two of them have a position in common.
-/

namespace Rustee.Spans

variable {R : Type} (start stop : R → Nat)

/-- The ranges are between `lo` and `hi`, each one behind those before it. -/
def Stacked : Nat → List R → Nat → Prop
  | lo, [], hi => lo ≤ hi
  | lo, r :: rs, hi => lo ≤ start r ∧ start r ≤ stop r ∧ Stacked (stop r) rs hi

def Apart (r s : R) : Prop := stop r ≤ start s ∨ stop s ≤ start r

variable {start stop} {lo mid hi : Nat} {rs ss : List R}

theorem Stacked.append (h : Stacked start stop lo rs mid) (h' : Stacked start stop mid ss hi) :
    Stacked start stop lo (rs ++ ss) hi := by
  induction rs generalizing lo with
  | nil =>
    cases ss with
    | nil => exact Nat.le_trans h h'
    | cons => exact ⟨Nat.le_trans h h'.1, h'.2⟩
  | cons r rs ih => exact ⟨h.1, h.2.1, ih h.2.2⟩

theorem Stacked.le (h : Stacked start stop lo rs hi) : lo ≤ hi := by
  induction rs generalizing lo with
  | nil => exact h
  | cons r rs ih => exact Nat.le_trans (Nat.le_trans h.1 h.2.1) (ih h.2.2)

theorem Stacked.within (h : Stacked start stop lo rs hi) {r : R} (hr : r ∈ rs) :
    lo ≤ start r ∧ start r ≤ stop r ∧ stop r ≤ hi := by
  induction rs generalizing lo with
  | nil => cases hr
  | cons s rs ih =>
    rcases List.mem_cons.mp hr with rfl | hr
    · exact ⟨h.1, h.2.1, h.2.2.le⟩
    · obtain ⟨hlo, hin⟩ := ih h.2.2 hr
      exact ⟨Nat.le_trans (Nat.le_trans h.1 h.2.1) hlo, hin⟩

theorem Stacked.apart (h : Stacked start stop lo rs hi) : rs.Pairwise (Apart start stop) := by
  induction rs generalizing lo with
  | nil => exact List.Pairwise.nil
  | cons r rs ih =>
    refine List.Pairwise.cons ?_ (ih h.2.2)
    intro s hs
    exact Or.inl (h.2.2.within hs).1

end Rustee.Spans
