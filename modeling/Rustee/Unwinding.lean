import Mathlib.Logic.Basic

/-!
# State-passing programs with non-local exits

A program maps a state to an exit and a state. It ends with a value, or it is *unwound* (a callee
panicked and the handler of the caller takes over in the state of that moment, which is kept), or
it is *aborted* (the program itself is gone).
-/

namespace Rustee

/-- How a program ends. -/
inductive Exit (α : Type) where
  | value (a : α)
  | unwind
  | abort
deriving Repr, DecidableEq

/-- A program over states `S` with results in `α`. -/
def Prog (S α : Type) : Type := S → Exit α × S

namespace Prog

variable {S α β : Type}

protected def pure (a : α) : Prog S α := fun s => (.value a, s)

protected def bind (x : Prog S α) (f : α → Prog S β) : Prog S β := fun s =>
  match x s with
  | (.value a, s') => f a s'
  | (.unwind, s') => (.unwind, s')
  | (.abort, s') => (.abort, s')

instance : Monad (Prog S) where
  pure := Prog.pure
  bind := Prog.bind

def gets (f : S → α) : Prog S α := fun s => (.value (f s), s)

def modify (f : S → S) : Prog S Unit := fun s => (.value (), f s)

def transform (f : S → α × S) : Prog S α := fun s => (.value (f s).1, (f s).2)

def unwind : Prog S α := fun s => (.unwind, s)

def abort : Prog S α := fun s => (.abort, s)

@[simp] theorem pure_apply (a : α) (s : S) : (pure a : Prog S α) s = (.value a, s) := rfl

@[simp] theorem gets_apply (f : S → α) (s : S) : gets f s = (.value (f s), s) := rfl

@[simp] theorem modify_apply (f : S → S) (s : S) : modify f s = (.value (), f s) := rfl

@[simp] theorem transform_apply (f : S → α × S) (s : S) :
    transform f s = (.value (f s).1, (f s).2) := rfl

@[simp] theorem unwind_apply (s : S) : (unwind : Prog S α) s = (.unwind, s) := rfl

@[simp] theorem abort_apply (s : S) : (abort : Prog S α) s = (.abort, s) := rfl

theorem bind_apply (x : Prog S α) (f : α → Prog S β) (s : S) :
    (x >>= f) s = match x s with
      | (.value a, s') => f a s'
      | (.unwind, s') => (.unwind, s')
      | (.abort, s') => (.abort, s') := rfl

variable {x : Prog S α} {s : S} {f : α → Prog S β} {s' : S}

theorem bind_of_value {a : α} (h : x s = (.value a, s')) : (x >>= f) s = f a s' := by
  rw [bind_apply, h]

theorem bind_of_unwind (h : x s = (.unwind, s')) : (x >>= f) s = (.unwind, s') := by
  rw [bind_apply, h]

/-- A sequence that returns is a first part that returns and a second that does. -/
theorem bind_eq_value {b : β} (h : (x >>= f) s = (.value b, s')) :
    ∃ a s1, x s = (.value a, s1) ∧ f a s1 = (.value b, s') := by
  rw [bind_apply] at h
  rcases hx : x s with ⟨exit, s1⟩
  rw [hx] at h
  cases exit with
  | value a => exact ⟨a, s1, rfl, h⟩
  | unwind | abort => cases h

theorem of_gets_bind {g : S → α} {r : Exit β × S} (h : (gets g >>= f) s = r) : f (g s) s = r := h

/-- Whatever state it starts in, the value it returns satisfies `P`. -/
def Returns (P : α → Prop) (x : Prog S α) : Prop := ∀ s a s', x s = (.value a, s') → P a

theorem returns_pure {P : α → Prop} {a : α} (h : P a) : Returns P (pure a : Prog S α) := by
  intro s b s' hrun
  cases hrun
  exact h

theorem Returns.bind {Q : α → Prop} {P : β → Prop}
    (hx : Returns Q x) (hf : ∀ a, Q a → Returns P (f a)) : Returns P (x >>= f) := by
  intro s b s' hrun
  obtain ⟨a, s1, hfirst, hsecond⟩ := bind_eq_value hrun
  exact hf a (hx s a s1 hfirst) s1 b s' hsecond

theorem returns_bind {P : β → Prop} (hf : ∀ a, Returns P (f a)) : Returns P (x >>= f) := by
  intro s b s' hrun
  obtain ⟨a, s1, -, hsecond⟩ := bind_eq_value hrun
  exact hf a s1 b s' hsecond

end Prog

/-! ### Frames -/

/-- A relation between the states before and after that holds of a sequence when it
holds of its parts. -/
structure Frame (S : Type) where
  rel : S → S → Prop
  refl : ∀ s, rel s s
  trans : ∀ {a b c}, rel a b → rel b c → rel a c

namespace Prog

variable {S α β : Type} {F : Frame S}

/-- However the program ends, the state it leaves is related to the one it found. -/
def Keeps (F : Frame S) (x : Prog S α) : Prop := ∀ s, F.rel s (x s).2

theorem keeps_pure (a : α) : Keeps F (pure a : Prog S α) := F.refl

theorem keeps_gets (f : S → α) : Keeps F (gets f) := F.refl

theorem keeps_abort : Keeps F (abort : Prog S α) := F.refl

theorem keeps_modify {f : S → S} (h : ∀ s, F.rel s (f s)) : Keeps F (modify f) := h

theorem keeps_transform {f : S → α × S} (h : ∀ s, F.rel s (f s).2) : Keeps F (transform f) := h

variable {x : Prog S α} {s : S} {f : α → Prog S β} {x : Prog S α}

/-- The frame over a sequence, from one state: over its first part, and over its second
from wherever the first returned. -/
theorem rel_bind (hx : F.rel s (x s).2)
    (hf : ∀ a s', x s = (.value a, s') → F.rel s' (f a s').2) : F.rel s ((x >>= f) s).2 := by
  rw [bind_apply]
  rcases hrun : x s with ⟨exit, s'⟩
  rw [hrun] at hx
  cases exit with
  | value a => exact F.trans hx (hf a s' hrun)
  | unwind | abort => exact hx

theorem Keeps.bind_at (hx : F.rel s (x s).2) (hf : ∀ a, Keeps F (f a)) : F.rel s ((x >>= f) s).2 :=
  rel_bind hx fun a s' _ => hf a s'

theorem Keeps.bind (hx : Keeps F x) (hf : ∀ a, Keeps F (f a)) : Keeps F (x >>= f) := by
  intro s
  exact bind_at (hx s) hf

/-! ### Pre- and postconditions -/

/-- Run from `s`, a value comes with a state in `Q`, and an unwound program leaves a state
in `U`; nothing is asked of an aborted one. -/
def Ends (s : S) (x : Prog S α) (Q : α → S → Prop) (U : S → Prop) : Prop :=
  (∀ a s', x s = (.value a, s') → Q a s') ∧ ∀ s', x s = (.unwind, s') → U s'

section Ends

variable {Q : α → S → Prop} {R : β → S → Prop} {U : S → Prop} {s s' : S} {x : Prog S α} {a : α}

theorem ends_of_value (h : x s = (.value a, s')) (hq : Q a s') : Ends s x Q U := by
  constructor
  · intro b t hrun
    cases h.symm.trans hrun
    exact hq
  · intro t hrun
    cases h.symm.trans hrun

theorem ends_of_unwind (h : x s = (.unwind, s')) (hu : U s') : Ends s x Q U := by
  constructor
  · intro b t hrun
    cases h.symm.trans hrun
  · intro t hrun
    cases h.symm.trans hrun
    exact hu

theorem ends_pure (h : Q a s) : Ends s (pure a : Prog S α) Q U :=
  ends_of_value rfl h

theorem ends_abort : Ends s (abort : Prog S α) Q U :=
  ⟨fun _ _ hrun => (nomatch hrun), fun _ hrun => (nomatch hrun)⟩

theorem Ends.bind_value {f : α → Prog S β} (hx : Ends s x Q U)
    (hf : ∀ a s', x s = (.value a, s') → Q a s' → Ends s' (f a) R U) : Ends s (x >>= f) R U := by
  rcases hrun : x s with ⟨exit, s1⟩
  cases exit with
  | value a =>
    have hrest := hf a s1 hrun (hx.1 a s1 hrun)
    unfold Ends
    rw [bind_of_value hrun]
    exact hrest
  | unwind =>
    have hunwind : (x >>= f) s = (.unwind, s1) := by
      rw [bind_apply, hrun]
    exact ends_of_unwind hunwind (hx.2 s1 hrun)
  | abort =>
    constructor
    · intro b t h
      rw [bind_apply, hrun] at h
      cases h
    · intro t h
      rw [bind_apply, hrun] at h
      cases h

theorem Ends.bind {f : α → Prog S β} (hx : Ends s x Q U)
    (hf : ∀ a s', Q a s' → Ends s' (f a) R U) : Ends s (x >>= f) R U :=
  hx.bind_value fun a s' _ => hf a s'

end Ends

/-! ### Parts of the state that are not read -/

/-- Run from `s`, the program does not look at what `f` changes and leaves it alone. -/
def IgnoresAt (f : S → S) (x : Prog S α) (s : S) : Prop := x (f s) = ((x s).1, f (x s).2)

def Ignores (f : S → S) (x : Prog S α) : Prop := ∀ s, IgnoresAt f x s

section Ignores

variable {f : S → S}

theorem ignores_pure (a : α) : Ignores f (pure a : Prog S α) := fun _ => rfl

theorem ignores_abort : Ignores f (abort : Prog S α) := fun _ => rfl

theorem ignores_gets {g : S → α} (h : ∀ s, g (f s) = g s) : Ignores f (gets g) := by
  intro s
  change (Exit.value (g (f s)), f s) = _
  rw [h s]
  rfl

theorem ignores_modify {g : S → S} (h : ∀ s, g (f s) = f (g s)) : Ignores f (modify g) :=
  fun s => congrArg (Prod.mk (Exit.value ())) (h s)

theorem ignores_transform {g : S → α × S} (h : ∀ s, g (f s) = ((g s).1, f (g s).2)) :
    Ignores f (transform g) := by
  intro s
  change (Exit.value (g (f s)).1, (g (f s)).2) = _
  rw [h s]
  rfl

variable {s : S} {k : α → Prog S β}

theorem IgnoresAt.bind_value (hx : IgnoresAt f x s)
    (hk : ∀ a s', x s = (.value a, s') → IgnoresAt f (k a) s') : IgnoresAt f (x >>= k) s := by
  unfold IgnoresAt at hx ⊢
  rw [bind_apply, bind_apply, hx]
  rcases hrun : x s with ⟨exit, s'⟩
  cases exit with
  | value a => exact hk a s' hrun
  | unwind | abort => rfl

theorem IgnoresAt.bind (hx : IgnoresAt f x s)
    (hk : ∀ a, Ignores f (k a)) : IgnoresAt f (x >>= k) s :=
  hx.bind_value fun a s' _ => hk a s'

theorem Ignores.bind (hx : Ignores f x) (hk : ∀ a, Ignores f (k a)) : Ignores f (x >>= k) :=
  fun s => (hx s).bind hk

theorem ignoresAt_modify_bind {g : S → S} {k : Unit → Prog S β}
    (h : g (f s) = f (g s)) (hk : IgnoresAt f (k ()) (g s)) : IgnoresAt f (modify g >>= k) s := by
  change k () (g (f s)) = _
  rw [h]
  exact hk

end Ignores

end Prog

end Rustee
