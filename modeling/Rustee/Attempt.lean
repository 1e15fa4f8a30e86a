import Rustee.RustBytes
import Rustee.Unwinding

/-!
# State-passing programs that can fail

A program maps a state to a `Result` (or a panic) and a state. An error undoes nothing: a failed
program leaves the state it had reached. `?` is the bind; `or_else`, `ok` and `map_err` are the
other ways a program looks at the result of a part.
-/

namespace Rustee

/-- A program over states `S` with results in `α` and errors in `ε`. -/
def Attempt (S ε α : Type) : Type := S → Fallible ε α × S

namespace Attempt

variable {S T ε α β : Type}

protected def pure (a : α) : Attempt S ε α := fun s => (.ok a, s)

protected def bind (x : Attempt S ε α) (f : α → Attempt S ε β) : Attempt S ε β := fun s =>
  match x s with
  | (.ok a, s') => f a s'
  | (.err e, s') => (.err e, s')
  | (.panic, s') => (.panic, s')

instance : Monad (Attempt S ε) where
  pure := Attempt.pure
  bind := Attempt.bind

def lift (r : Fallible ε α) : Attempt S ε α := fun s => (r, s)

/-- `Err(e)` -/
def raise (e : ε) : Attempt S ε α := lift (.err e)

def transform (f : S → α × S) : Attempt S ε α := fun s => (.ok (f s).1, (f s).2)

def gets (f : S → α) : Attempt S ε α := fun s => (.ok (f s), s)

def modify (f : S → S) : Attempt S ε Unit := fun s => (.ok (), f s)

/-- `x.or_else(|_| y)` -/
def orElse (x y : Attempt S ε α) : Attempt S ε α := fun s =>
  match x s with
  | (.ok a, s') => (.ok a, s')
  | (.err _, s') => y s'
  | (.panic, s') => (.panic, s')

/-- `x.ok()` -/
def toOption (x : Attempt S ε α) : Attempt S ε (Option α) := fun s => ((x s).1.toOption, (x s).2)

/-- `x.map_err(|_| e)` -/
def mapErr (e : ε) (x : Attempt S ε α) : Attempt S ε α := fun s =>
  match x s with
  | (.ok a, s') => (.ok a, s')
  | (.err _, s') => (.err e, s')
  | (.panic, s') => (.panic, s')

def zoom (get : S → T) (set : S → T → S) (x : Attempt T ε α) : Attempt S ε α := fun s =>
  ((x (get s)).1, set s (x (get s)).2)

/-! ### Running -/

@[simp] theorem pure_apply (a : α) (s : S) : (pure a : Attempt S ε α) s = (.ok a, s) := rfl

@[simp] theorem lift_apply (r : Fallible ε α) (s : S) : (lift r : Attempt S ε α) s = (r, s) := rfl

@[simp] theorem raise_apply (e : ε) (s : S) : (raise e : Attempt S ε α) s = (.err e, s) := rfl

@[simp] theorem gets_apply (f : S → α) (s : S) : (gets f : Attempt S ε α) s = (.ok (f s), s) := rfl

@[simp] theorem modify_apply (f : S → S) (s : S) :
    (modify f : Attempt S ε Unit) s = (.ok (), f s) := rfl

theorem bind_apply (x : Attempt S ε α) (f : α → Attempt S ε β) (s : S) :
    (x >>= f) s = match x s with
      | (.ok a, s') => f a s'
      | (.err e, s') => (.err e, s')
      | (.panic, s') => (.panic, s') := rfl

theorem lift_ok_bind (a : α) (f : α → Attempt S ε β) : (lift (.ok a) >>= f) = f a := rfl

variable {x : Attempt S ε α} {s s' : S} {a : α} {f : α → Attempt S ε β}

theorem bind_of_ok (h : x s = (.ok a, s')) : (x >>= f) s = f a s' := by
  rw [bind_apply, h]

variable {e : ε}

/-- `?` passes an error on. -/
theorem bind_of_err (h : x s = (.err e, s')) : (x >>= f) s = (.err e, s') := by
  rw [bind_apply, h]

theorem bind_of_panic (h : x s = (.panic, s')) : (x >>= f) s = (.panic, s') := by
  rw [bind_apply, h]

/-- A sequence that succeeds is a first part that does and a second that does. -/
theorem bind_eq_ok {b : β} (h : (x >>= f) s = (.ok b, s')) :
    ∃ a s1, x s = (.ok a, s1) ∧ f a s1 = (.ok b, s') := by
  rw [bind_apply] at h
  rcases hx : x s with ⟨r, s1⟩
  rw [hx] at h
  cases r with
  | ok a => exact ⟨a, s1, rfl, h⟩
  | err | panic => cases h

theorem bind_assoc {γ : Type} (x : Attempt S ε α) (f : α → Attempt S ε β) (g : β → Attempt S ε γ) :
    ((x >>= f) >>= g) = (x >>= fun a => f a >>= g) := by
  funext s
  rw [bind_apply, bind_apply, bind_apply]
  rcases x s with ⟨r, s'⟩
  cases r with
  | ok | err | panic => rfl

theorem bind_snd {x : Attempt S ε α} {f : α → Attempt S ε β} (hf : ∀ a s, (f a s).2 = s) (s : S) :
    ((x >>= f) s).2 = (x s).2 := by
  rw [bind_apply]
  rcases x s with ⟨r, s'⟩
  cases r with
  | ok a => exact hf a s'
  | err | panic => rfl

theorem bind_pure (x : Attempt S ε Unit) : (x >>= fun _ => pure ()) = x := by
  funext s
  rw [bind_apply]
  rcases x s with ⟨r, s'⟩
  cases r with
  | ok | err | panic => rfl

variable {y : Attempt S ε α}

theorem orElse_of_ok (h : x s = (.ok a, s')) : orElse x y s = (.ok a, s') := by
  rw [orElse, h]

theorem orElse_of_err (h : x s = (.err e, s')) : orElse x y s = y s' := by
  rw [orElse, h]

theorem toOption_of_ok (h : x s = (.ok a, s')) : toOption x s = (.ok (some a), s') := by
  rw [toOption, h]
  rfl

theorem toOption_of_err (h : x s = (.err e, s')) : toOption x s = (.ok none, s') := by
  rw [toOption, h]
  rfl

theorem mapErr_of_ok (h : x s = (.ok a, s')) : mapErr e x s = (.ok a, s') := by
  rw [mapErr, h]

theorem mapErr_of_err {e' : ε} (h : x s = (.err e', s')) : mapErr e x s = (.err e, s') := by
  rw [mapErr, h]

theorem mapErr_eq_ok (h : mapErr e x s = (.ok a, s')) : x s = (.ok a, s') := by
  rw [mapErr] at h
  rcases hx : x s with ⟨r, s1⟩
  rw [hx] at h
  cases r with
  | ok => exact h
  | err | panic => cases h

/-! ### What a program returns -/

/-- Whatever state it starts in, the value it returns satisfies `Q`. -/
def Returns (Q : α → Prop) (x : Attempt S ε α) : Prop := ∀ s a s', x s = (.ok a, s') → Q a

variable {Q : α → Prop}

theorem returns_pure (h : Q a) : Returns Q (pure a : Attempt S ε α) := by
  intro s b s' hrun
  cases hrun
  exact h

theorem returns_lift {r : Fallible ε α} (h : ∀ a, r = .ok a → Q a) :
    Returns Q (lift r : Attempt S ε α) := by
  intro s a s' hrun
  exact h a (Prod.mk.inj hrun).1

theorem Returns.bind {R : α → Prop} {Q : β → Prop}
    (hx : Returns R x) (hf : ∀ a, R a → Returns Q (f a)) : Returns Q (x >>= f) := by
  intro s b s' hrun
  obtain ⟨a, s1, hfirst, hsecond⟩ := bind_eq_ok hrun
  exact hf a (hx s a s1 hfirst) s1 b s' hsecond

/-- `x.ok()` is `None` or holds what `x` returns. -/
theorem Returns.toOption (hx : Returns Q x) :
    Returns (fun o => ∀ a, o = some a → Q a) (toOption x) := by
  intro s o s' hrun a ha
  rcases hx' : x s with ⟨r, s1⟩
  rw [Attempt.toOption, hx'] at hrun
  cases r with
  | ok =>
    cases hrun
    cases ha
    exact hx s a s1 hx'
  | err =>
    cases hrun
    cases ha
  | panic => cases hrun

/-! ### Programs whose result does not depend on the state -/

def Oblivious (x : Attempt S ε α) : Prop := ∀ s s', (x s).1 = (x s').1

theorem oblivious_lift (r : Fallible ε α) : Oblivious (lift r : Attempt S ε α) :=
  fun _ _ => rfl

theorem Oblivious.bind (hx : Oblivious x) (hf : ∀ a, Oblivious (f a)) : Oblivious (x >>= f) := by
  intro s s'
  have hfirst := hx s s'
  rw [bind_apply, bind_apply]
  rcases hrun : x s with ⟨r, s1⟩
  rcases hrun' : x s' with ⟨r', s1'⟩
  rw [hrun, hrun'] at hfirst
  cases hfirst
  cases r with
  | ok a => exact hf a s1 s1'
  | err | panic => rfl

theorem Oblivious.mapErr (hx : Oblivious x) : Oblivious (mapErr e x) := by
  intro s s'
  have hfirst := hx s s'
  rw [Attempt.mapErr, Attempt.mapErr]
  rcases hrun : x s with ⟨r, s1⟩
  rcases hrun' : x s' with ⟨r', s1'⟩
  rw [hrun, hrun'] at hfirst
  cases hfirst
  cases r with
  | ok | err | panic => rfl

theorem bind_ne_panic
    (hx : (x s).1 ≠ .panic) (hf : ∀ a s', x s = (.ok a, s') → (f a s').1 ≠ .panic) :
    ((x >>= f) s).1 ≠ .panic := by
  rw [bind_apply]
  rcases hrun : x s with ⟨r, s'⟩
  rw [hrun] at hx
  cases r with
  | ok a => exact hf a s' hrun
  | err =>
    intro hpanic
    cases hpanic
  | panic => exact absurd rfl hx

theorem mapErr_ne_panic (hx : (x s).1 ≠ .panic) : (mapErr e x s).1 ≠ .panic := by
  rw [mapErr]
  rcases hrun : x s with ⟨r, s'⟩
  rw [hrun] at hx
  cases r with
  | ok | err => simp
  | panic => exact absurd rfl hx

/-! ### Programs on the image of a state -/

/-- `x` does on `S` what `y` does on the image of the state. -/
def Simulates (f : S → T) (x : Attempt S ε α) (y : Attempt T ε α) : Prop :=
  ∀ s, y (f s) = ((x s).1, f (x s).2)

theorem simulates_pure {f : S → T} (a : α) :
    Simulates f (pure a : Attempt S ε α) (pure a) := fun _ => rfl

theorem simulates_raise {f : S → T} (e : ε) :
    Simulates f (raise e : Attempt S ε α) (raise e) := fun _ => rfl

theorem Simulates.bind {f : S → T} {y : Attempt T ε α}
    {g : α → Attempt S ε β} {h : α → Attempt T ε β} (hxy : Simulates f x y)
    (hgh : ∀ a, Simulates f (g a) (h a)) : Simulates f (x >>= g) (y >>= h) := by
  intro s
  rw [bind_apply, bind_apply, hxy s]
  rcases x s with ⟨r, s'⟩
  cases r with
  | ok a => exact hgh a s'
  | err | panic => rfl

/-! ### The errors of a program -/

/-- Whatever state it starts in, the errors it ends with satisfy `P`. -/
def Raises (P : ε → Prop) (x : Attempt S ε α) : Prop := ∀ s, (x s).1.Errors P

section Raises

variable {P : ε → Prop}

theorem raises_pure (a : α) : Raises P (pure a : Attempt S ε α) := fun _ => Fallible.errors_ok a

theorem raises_raise {e : ε} (h : P e) : Raises P (raise e : Attempt S ε α) :=
  fun _ => Fallible.errors_err h

theorem Raises.bind {x : Attempt S ε α} {f : α → Attempt S ε β} (hx : Raises P x)
    (hf : ∀ a, Raises P (f a)) : Raises P (x >>= f) := by
  intro s e h
  have hfirst := hx s
  rw [bind_apply] at h
  rcases hrun : x s with ⟨r, s'⟩
  rw [hrun] at h hfirst
  cases r with
  | ok a => exact hf a s' e h
  | err =>
    cases h
    exact hfirst e rfl
  | panic => cases h

end Raises

/-! ### Frames -/

variable {F : Frame S}

/-- However the program ends, the state it leaves is related to the one it found. -/
def Keeps (F : Frame S) (x : Attempt S ε α) : Prop := ∀ s, F.rel s (x s).2

theorem keeps_pure (a : α) : Keeps F (pure a : Attempt S ε α) := F.refl

theorem keeps_lift (r : Fallible ε α) : Keeps F (lift r : Attempt S ε α) := F.refl

theorem keeps_raise (e : ε) : Keeps F (raise e : Attempt S ε α) := F.refl

/-- The frame over a sequence, from one state: over its first part, and over its second
from wherever the first succeeded. -/
theorem rel_bind (hx : F.rel s (x s).2)
    (hf : ∀ a s', x s = (.ok a, s') → F.rel s' (f a s').2) : F.rel s ((x >>= f) s).2 := by
  rw [bind_apply]
  rcases hrun : x s with ⟨r, s'⟩
  rw [hrun] at hx
  cases r with
  | ok a => exact F.trans hx (hf a s' hrun)
  | err | panic => exact hx

theorem Keeps.bind (hx : Keeps F x) (hf : ∀ a, Keeps F (f a)) : Keeps F (x >>= f) := by
  intro s
  exact rel_bind (hx s) fun a s' _ => hf a s'

/-- What the second part keeps, the sequence keeps from where the first part ended. -/
theorem rel_after (hf : ∀ a, Keeps F (f a)) (s : S) : F.rel (x s).2 ((x >>= f) s).2 := by
  rw [bind_apply]
  rcases x s with ⟨r, s'⟩
  cases r with
  | ok a => exact hf a s'
  | err | panic => exact F.refl s'

theorem Keeps.orElse (hx : Keeps F x) (hy : Keeps F y) : Keeps F (orElse x y) := by
  intro s
  have hfirst := hx s
  rw [Attempt.orElse]
  rcases hrun : x s with ⟨r, s'⟩
  rw [hrun] at hfirst
  cases r with
  | ok | panic => exact hfirst
  | err => exact F.trans hfirst (hy s')

theorem Keeps.toOption (hx : Keeps F x) : Keeps F (toOption x) := hx

theorem Keeps.mapErr (hx : Keeps F x) : Keeps F (mapErr e x) := by
  intro s
  have hfirst := hx s
  rw [Attempt.mapErr]
  rcases hrun : x s with ⟨r, s'⟩
  rw [hrun] at hfirst
  cases r with
  | ok | err | panic => exact hfirst

end Attempt

end Rustee
