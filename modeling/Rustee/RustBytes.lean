import Mathlib.Algebra.Group.Nat.Defs
import Mathlib.Data.List.Basic
import Mathlib.Tactic.Common

/-!
# Byte strings and `usize` arithmetic as a 64-bit Rust program sees them

A computation over untrusted bytes returns a value, returns an error, or panics. Panics come from an
index or slice out of bounds and (in a debug build) an overflowing `+` or `*`. In a release build
the same operators wrap, and the wrapped value meets the next bounds check.
-/

namespace Rustee

open List

/-- Integer overflow panics in a debug build and wraps in a release build. -/
inductive Build where
  | debug
  | release
deriving Repr, DecidableEq

/-- `Result<α, ε>` of a function that may also panic. -/
inductive Fallible (ε α : Type) where
  | ok (a : α)
  | err (e : ε)
  | panic
deriving Repr, DecidableEq

namespace Fallible

variable {ε α β : Type}

protected def bind (x : Fallible ε α) (f : α → Fallible ε β) : Fallible ε β :=
  match x with
  | .ok a => f a
  | .err e => .err e
  | .panic => .panic

instance : Monad (Fallible ε) where
  pure := .ok
  bind := .bind

@[simp] theorem pure_eq (a : α) : (pure a : Fallible ε α) = .ok a := rfl

@[simp] theorem ok_bind (a : α) (f : α → Fallible ε β) : (.ok a >>= f) = f a := rfl

@[simp] theorem err_bind (e : ε) (f : α → Fallible ε β) : (.err e >>= f) = .err e := rfl

@[simp] theorem panic_bind (f : α → Fallible ε β) : (.panic >>= f) = .panic := rfl

variable {x : Fallible ε α} {f : α → Fallible ε β}

theorem bind_eq_ok {b : β} : (x >>= f) = .ok b ↔ ∃ a, x = .ok a ∧ f a = .ok b := by
  cases x with
  | ok | err | panic => simp

theorem bind_assoc {γ : Type} (x : Fallible ε α) (f : α → Fallible ε β)
    (g : β → Fallible ε γ) : ((x >>= f) >>= g) = (x >>= fun a => f a >>= g) := by
  cases x with
  | ok | err | panic => rfl

theorem bind_ne_panic
    (hx : x ≠ .panic) (hf : ∀ a, x = .ok a → f a ≠ .panic) : (x >>= f) ≠ .panic := by
  cases x with
  | ok a => exact hf a rfl
  | err => simp
  | panic => exact absurd rfl hx

theorem bind_ne_panic_iff (hf : ∀ a, f a ≠ .panic) : (x >>= f) ≠ .panic ↔ x ≠ .panic := by
  cases x with
  | ok a => simpa using hf a
  | err | panic => simp

/-- `Option::ok_or` -/
def ofOption (e : ε) : Option α → Fallible ε α
  | some a => .ok a
  | none => .err e

theorem ofOption_eq_ok {e : ε} {o : Option α} {a : α} : ofOption e o = .ok a ↔ o = some a := by
  cases o with
  | none | some => simp [ofOption]

/-- A `Result` -/
def ofExcept : Except ε α → Fallible ε α
  | .ok a => .ok a
  | .error e => .err e

/-- `Result::map_err(|_| e)` -/
def mapErr (e : ε) : Fallible ε α → Fallible ε α
  | .ok a => .ok a
  | .err _ => .err e
  | .panic => .panic

/-- `Result::ok`; a panic is passed on. -/
def toOption : Fallible ε α → Fallible ε (Option α)
  | .ok a => .ok (some a)
  | .err _ => .ok none
  | .panic => .panic

theorem toOption_ne_panic_iff : x.toOption ≠ .panic ↔ x ≠ .panic := by
  cases x with
  | ok | err | panic => simp [toOption]

/-- What decides the outcome: it is a panic unless `safe`, and then the value `a` or the
error `e` as `good` holds or not. -/
structure Decided (x : Fallible ε α) (safe good : Prop) (a : α) (e : ε) : Prop where
  panics : ¬ safe → x = .panic
  returns : safe → good → x = .ok a
  fails : safe → ¬ good → x = .err e

namespace Decided

variable {safe good : Prop} {a : α} {e : ε}

section

variable (h : x.Decided safe good a e)
include h

theorem cases : ¬ safe ∧ x = .panic ∨ safe ∧ good ∧ x = .ok a ∨ safe ∧ ¬ good ∧ x = .err e := by
  by_cases hsafe : safe
  · by_cases hgood : good
    · exact .inr (.inl ⟨hsafe, hgood, h.returns hsafe hgood⟩)
    · exact .inr (.inr ⟨hsafe, hgood, h.fails hsafe hgood⟩)
  · exact .inl ⟨hsafe, h.panics hsafe⟩

theorem bind_ne_panic_iff : (x >>= f) ≠ .panic ↔ safe ∧ (good → f a ≠ .panic) := by
  rcases h.cases with ⟨hsafe, rfl⟩ | ⟨hsafe, hgood, rfl⟩ | ⟨hsafe, hgood, rfl⟩
  · simp [hsafe]
  · simp [hsafe, hgood]
  · simp [hsafe, hgood]

theorem ne_panic_iff : x ≠ .panic ↔ safe := by
  rcases h.cases with ⟨hsafe, rfl⟩ | ⟨hsafe, -, rfl⟩ | ⟨hsafe, -, rfl⟩
  · simp [hsafe]
  · simp [hsafe]
  · simp [hsafe]

theorem eq_ok {b : α} (hb : x = .ok b) : b = a := by
  rcases h.cases with ⟨-, rfl⟩ | ⟨-, -, rfl⟩ | ⟨-, -, rfl⟩
  · cases hb
  · exact (Fallible.ok.inj hb).symm
  · cases hb

end

end Decided

/-- The errors it can return satisfy `P`. -/
def Errors (P : ε → Prop) (x : Fallible ε α) : Prop := ∀ e, x = .err e → P e

section Errors

variable {P : ε → Prop}

theorem errors_ok (a : α) : Errors P (.ok a : Fallible ε α) := fun _ h => (nomatch h)

theorem errors_err {e : ε} (h : P e) : Errors P (.err e : Fallible ε α) := by
  intro e' he
  cases he
  exact h

theorem Errors.bind {x : Fallible ε α} {f : α → Fallible ε β} (hx : Errors P x)
    (hf : ∀ a, Errors P (f a)) : Errors P (x >>= f) := by
  cases x with
  | ok a => exact hf a
  | err e => exact errors_err (hx e rfl)
  | panic => exact fun _ h => (nomatch h)

theorem errors_ofOption {e : ε} (h : P e) (o : Option α) : Errors P (ofOption e o) := by
  cases o with
  | none => exact errors_err h
  | some a => exact errors_ok a

theorem errors_toOption (x : Fallible ε α) : Errors P x.toOption := by
  cases x with
  | ok | err => exact errors_ok _
  | panic => exact fun _ h => (nomatch h)

end Errors

end Fallible

/-! ### `usize` -/

variable {ε : Type}

def fit (build : Build) (n : Nat) : Fallible ε UInt64 :=
  if n < 2 ^ 64 then .ok (UInt64.ofNat n)
  else match build with
    | .debug => .panic
    | .release => .ok (UInt64.ofNat n)

variable {n : Nat}

theorem fit_of_lt (build : Build) (h : n < 2 ^ 64) :
    (fit build n : Fallible ε UInt64) = .ok (UInt64.ofNat n) := by
  simp only [fit, if_pos h]

theorem fit_debug (h : 2 ^ 64 ≤ n) : (fit .debug n : Fallible ε UInt64) = .panic := by
  simp only [fit, if_neg (Nat.not_lt.mpr h)]

theorem fit_release (n : Nat) : (fit .release n : Fallible ε UInt64) = .ok (UInt64.ofNat n) := by
  by_cases h : n < 2 ^ 64
  · exact fit_of_lt .release h
  · simp only [fit, if_neg h]

variable {P : ε → Prop} {build : Build}

theorem errors_fit {n : Nat} : (fit build n).Errors P := by
  intro e h
  by_cases hlt : n < 2 ^ 64
  · rw [fit_of_lt build hlt] at h
    cases h
  · cases build with
    | debug =>
      rw [fit_debug (Nat.le_of_not_lt hlt)] at h
      cases h
    | release =>
      rw [fit_release] at h
      cases h

/-- `x + y` -/
def usizeAdd (build : Build) (x y : UInt64) : Fallible ε UInt64 :=
  fit build (x.toNat + y.toNat)

theorem usizeAdd_of_lt (build : Build) {x y : UInt64} (h : x.toNat + y.toNat < 2 ^ 64) :
    (usizeAdd build x y : Fallible ε UInt64) = .ok (UInt64.ofNat (x.toNat + y.toNat)) := by
  rw [usizeAdd, fit_of_lt build h]

theorem usizeAdd_eq_ok {x y z : UInt64} (h : (usizeAdd build x y : Fallible ε UInt64) = .ok z) :
    z.toNat = (x.toNat + y.toNat) % 2 ^ 64 := by
  have hz : z = UInt64.ofNat (x.toNat + y.toNat) := by
    by_cases hlt : x.toNat + y.toNat < 2 ^ 64
    · rw [usizeAdd_of_lt build hlt] at h
      exact (Fallible.ok.inj h).symm
    · cases build with
      | debug =>
        rw [usizeAdd, fit_debug (Nat.le_of_not_lt hlt)] at h
        cases h
      | release =>
        rw [usizeAdd, fit_release] at h
        exact (Fallible.ok.inj h).symm
  rw [hz, UInt64.toNat_ofNat']

/-- `x * y` -/
def usizeMul (build : Build) (x y : UInt64) : Fallible ε UInt64 :=
  fit build (x.toNat * y.toNat)

/-- `x.saturating_add(y)` -/
def saturatingAdd (x y : UInt64) : UInt64 :=
  if x.toNat + y.toNat < 2 ^ 64 then x + y else 0xFFFFFFFFFFFFFFFF

/-! ### Slices -/

/-- `bytes.get(lo..hi)` -/
def getRange (bytes : List UInt8) (lo hi : UInt64) : Option (List UInt8) :=
  if lo.toNat ≤ hi.toNat ∧ hi.toNat ≤ bytes.length then
    some ((bytes.take hi.toNat).drop lo.toNat)
  else none

/-- `bytes[lo..hi]` -/
def slice (bytes : List UInt8) (lo hi : UInt64) : Fallible ε (List UInt8) :=
  match getRange bytes lo hi with
  | some s => .ok s
  | none => .panic

variable {bytes : List UInt8} {hi lo : UInt64}

theorem slice_of_le (h : lo.toNat ≤ hi.toNat) (hlen : hi.toNat ≤ bytes.length) :
    (slice bytes lo hi : Fallible ε _) = .ok ((bytes.take hi.toNat).drop lo.toNat) := by
  simp only [slice, getRange, h, hlen, and_self, if_true]

theorem slice_eq_ok {s : List UInt8} (h : (slice bytes lo hi : Fallible ε _) = .ok s) :
    lo.toNat ≤ hi.toNat ∧ hi.toNat ≤ bytes.length ∧ s.length = hi.toNat - lo.toNat := by
  rw [slice, getRange] at h
  by_cases hrange : lo.toNat ≤ hi.toNat ∧ hi.toNat ≤ bytes.length
  · rw [if_pos hrange] at h
    cases h
    refine ⟨hrange.1, hrange.2, ?_⟩
    simp only [length_drop, length_take]
    omega
  · rw [if_neg hrange] at h
    cases h

def leNat : List UInt8 → Nat
  | [] => 0
  | b :: bs => b.toNat + 256 * leNat bs

/-- The `n` little-endian bytes of `v`. -/
def leBytes : Nat → Nat → List UInt8
  | 0, _ => []
  | n + 1, v => UInt8.ofNat v :: leBytes n (v / 256)

@[simp] theorem length_leBytes (n v : Nat) : (leBytes n v).length = n := by
  induction n generalizing v with
  | zero => rfl
  | succ n ih => simp [leBytes, ih]

/-- Writing `n` bytes keeps the number below `256 ^ n`. -/
theorem leNat_leBytes_mod (n v : Nat) : leNat (leBytes n v) = v % 256 ^ n := by
  induction n generalizing v with
  | zero => simp [leBytes, leNat, Nat.mod_one]
  | succ n ih =>
    have hsplit : v % 256 ^ (n + 1) = v % 256 + 256 * (v / 256 % 256 ^ n) := by
      rw [Nat.pow_succ', Nat.mod_mul]
    simp only [leBytes, leNat, ih, UInt8.toNat_ofNat', hsplit]

theorem leNat_lt (bytes : List UInt8) : leNat bytes < 256 ^ bytes.length := by
  induction bytes with
  | nil => simp [leNat]
  | cons b =>
    have hb := b.toNat_lt
    rw [leNat, length_cons, pow_succ]
    omega

theorem leNat_leBytes (n : Nat) {v : Nat} (h : v < 256 ^ n) : leNat (leBytes n v) = v := by
  rw [leNat_leBytes_mod, Nat.mod_eq_of_lt h]

/-- `uN::from_be_bytes` -/
def beNat (bytes : List UInt8) : Nat := leNat bytes.reverse

theorem leNat_append (xs ys : List UInt8) :
    leNat (xs ++ ys) = leNat xs + 256 ^ xs.length * leNat ys := by
  induction xs with
  | nil => simp [leNat]
  | cons x xs ih =>
    rw [cons_append, leNat, ih, leNat, length_cons, Nat.pow_succ']
    rw [Nat.mul_add, Nat.mul_assoc, Nat.add_assoc]

theorem beNat_append (xs ys : List UInt8) :
    beNat (xs ++ ys) = beNat xs * 256 ^ ys.length + beNat ys := by
  rw [beNat, reverse_append, leNat_append, length_reverse, add_comm, mul_comm]
  rfl

theorem leNat_lt_of_le (h : bytes.length ≤ n) : leNat bytes < 256 ^ n :=
  Nat.lt_of_lt_of_le (leNat_lt bytes) (Nat.pow_le_pow_right (by decide) h)

theorem beNat_lt_of_le (h : bytes.length ≤ n) : beNat bytes < 256 ^ n :=
  leNat_lt_of_le (by rwa [length_reverse])

theorem leNat_inj {xs ys : List UInt8} (hlen : xs.length = ys.length)
    (h : leNat xs = leNat ys) : xs = ys := by
  induction xs generalizing ys with
  | nil =>
    cases ys with
    | nil => rfl
    | cons => cases hlen
  | cons x xs ih =>
    cases ys with
    | nil => cases hlen
    | cons y ys =>
      rw [leNat, leNat] at h
      have hx := x.toNat_lt
      have hy := y.toNat_lt
      have hhead : x = y := UInt8.toNat_inj.mp (by omega)
      have htail : xs = ys := ih (Nat.succ.inj hlen) (by omega)
      rw [hhead, htail]

/-- The `k`-th byte of a number. -/
theorem leNat_div_mod (bytes : List UInt8) (k : Nat) :
    leNat bytes / 256 ^ k % 256 = (bytes.getD k 0).toNat := by
  induction bytes generalizing k with
  | nil => simp [leNat]
  | cons b bs ih =>
    have hb := b.toNat_lt
    cases k with
    | zero =>
      rw [leNat, pow_zero, Nat.div_one, getD_cons_zero]
      omega
    | succ k =>
      rw [leNat, Nat.pow_succ', ← Nat.div_div_eq_div_mul, getD_cons_succ, ← ih k]
      congr 2
      omega

/-- `uN::from_le_bytes(bytes[lo..hi].try_into().unwrap())` for constant bounds. -/
def readLe (bytes : List UInt8) (lo hi : UInt64) : Fallible ε Nat := do
  let s ← slice bytes lo hi
  pure (leNat s)

/-- `uN::from_le_bytes(bytes[o + d..o + d + n].try_into().unwrap())`, the bounds
computed in `usize`. -/
def readLeAt (build : Build) (bytes : List UInt8) (o d n : UInt64) : Fallible ε Nat := do
  let lo ← usizeAdd build o d
  let hi ← usizeAdd build o (d + n)
  readLe bytes lo hi

theorem errors_slice (bytes : List UInt8) (lo hi : UInt64) : (slice bytes lo hi).Errors P := by
  rw [slice]
  split
  · exact Fallible.errors_ok _
  · exact fun _ h => (nomatch h)

theorem errors_readLe {bytes : List UInt8} {lo hi : UInt64} : (readLe bytes lo hi).Errors P :=
  (errors_slice bytes lo hi).bind fun _ => Fallible.errors_ok _

theorem errors_readLeAt {bytes : List UInt8} {o d n : UInt64} :
    (readLeAt build bytes o d n).Errors P :=
  errors_fit.bind fun _ => errors_fit.bind fun _ => errors_readLe

/-- `uN::from_le_bytes(bytes[o..o + n].try_into().unwrap())` where the length of `bytes`
has been checked. -/
def leAt (bytes : List UInt8) (o n : Nat) : Nat := leNat ((bytes.drop o).take n)

theorem leAt_of_field {o v : Nat}
    (h : (bytes.drop o).take n = leBytes n v) (hv : v < 256 ^ n) : leAt bytes o n = v := by
  rw [leAt, h, leNat_leBytes n hv]

theorem leBytes_leNat (h : bytes.length = n) : leBytes n (leNat bytes) = bytes := by
  apply leNat_inj
  · rw [length_leBytes, h]
  · exact leNat_leBytes n (h ▸ leNat_lt bytes)

theorem length_field {lo : Nat} (h : lo + n ≤ bytes.length) :
    ((bytes.drop lo).take n).length = n := by
  rw [length_take, length_drop]
  omega

theorem slice_eq_drop_take (h : lo.toNat ≤ hi.toNat) (hlen : hi.toNat ≤ bytes.length) :
    (slice bytes lo hi : Fallible ε _) =
      .ok ((bytes.drop lo.toNat).take (hi.toNat - lo.toNat)) := by
  rw [slice_of_le h hlen, drop_take]

theorem readLe_of_le (h : lo.toNat ≤ hi.toNat) (hlen : hi.toNat ≤ bytes.length) :
    (readLe bytes lo hi : Fallible ε Nat) = .ok (leAt bytes lo.toNat (hi.toNat - lo.toNat)) := by
  rw [readLe, slice_eq_drop_take h hlen]
  rfl

theorem readLeAt_of_le (build : Build) {o d n : UInt64}
    (hfield : d.toNat + n.toNat < 2 ^ 64) (hbytes : bytes.length < 2 ^ 64)
    (hlen : o.toNat + d.toNat + n.toNat ≤ bytes.length) :
    (readLeAt build bytes o d n : Fallible ε Nat) =
      .ok (leAt bytes (o.toNat + d.toNat) n.toNat) := by
  have hdn : (d + n).toNat = d.toNat + n.toNat := by
    rw [UInt64.toNat_add]
    exact Nat.mod_eq_of_lt hfield
  have hlo : (UInt64.ofNat (o.toNat + d.toNat)).toNat = o.toNat + d.toNat := by
    rw [UInt64.toNat_ofNat']
    exact Nat.mod_eq_of_lt (by omega)
  have hhi : (UInt64.ofNat (o.toNat + (d + n).toNat)).toNat = o.toNat + d.toNat + n.toNat := by
    rw [UInt64.toNat_ofNat', hdn, ← add_assoc]
    exact Nat.mod_eq_of_lt (by omega)
  rw [readLeAt, usizeAdd_of_lt build (by omega), usizeAdd_of_lt build (by omega)]
  simp only [Fallible.ok_bind]
  rw [readLe_of_le (by omega) (by omega), hlo, hhi, Nat.add_sub_cancel_left]

/-! ### Sums inside and outside 64 bits -/

section Offsets

variable {build : Build} {bytes : List UInt8}

theorem toNat_ofNat_of_lt {n : Nat} (h : n < 2 ^ 64) : (UInt64.ofNat n).toNat = n := by
  rw [UInt64.toNat_ofNat']
  exact Nat.mod_eq_of_lt h

variable {a : Nat}

theorem usizeAdd_ofNat (build : Build) {b : Nat} (h : a + b < 2 ^ 64) :
    (usizeAdd build (UInt64.ofNat a) (UInt64.ofNat b) : Fallible ε UInt64) =
      .ok (UInt64.ofNat (a + b)) := by
  have ha : (UInt64.ofNat a).toNat = a := toNat_ofNat_of_lt (by omega)
  have hb : (UInt64.ofNat b).toNat = b := toNat_ofNat_of_lt (by omega)
  rw [usizeAdd_of_lt build (by rw [ha, hb]; exact h), ha, hb]

theorem usizeMul_ofNat (build : Build) {b : Nat} (ha : a < 2 ^ 64) (hb : b < 2 ^ 64)
    (h : a * b < 2 ^ 64) :
    (usizeMul build (UInt64.ofNat a) (UInt64.ofNat b) : Fallible ε UInt64) =
      .ok (UInt64.ofNat (a * b)) := by
  rw [usizeMul, toNat_ofNat_of_lt ha, toNat_ofNat_of_lt hb, fit_of_lt build h]

theorem usizeAdd_ne_err (a b : UInt64) (e : ε) : usizeAdd build a b ≠ .err e :=
  errors_fit (P := fun _ => False) e

theorem usizeAdd_overflow {a b : UInt64} (h : 2 ^ 64 ≤ a.toNat + b.toNat) :
    (usizeAdd build a b : Fallible ε UInt64) =
      match build with
      | .debug => .panic
      | .release => .ok (UInt64.ofNat (a.toNat + b.toNat - 2 ^ 64)) := by
  cases build with
  | debug => rw [usizeAdd, fit_debug h]
  | release =>
    have hwrapped : UInt64.ofNat (a.toNat + b.toNat) =
        UInt64.ofNat (a.toNat + b.toNat - 2 ^ 64) := by
      apply UInt64.toNat_inj.mp
      rw [UInt64.toNat_ofNat', UInt64.toNat_ofNat', Nat.mod_eq_sub_mod h]
    rw [usizeAdd, fit_release, hwrapped]

variable {d n : UInt64}

theorem readLeAt_outside {o : UInt64} (hstart : o.toNat + d.toNat < 2 ^ 64)
    (h : bytes.length < o.toNat + d.toNat) :
    (readLeAt build bytes o d n : Fallible ε Nat) = .panic := by
  have hlo : (UInt64.ofNat (o.toNat + d.toNat)).toNat = o.toNat + d.toNat :=
    toNat_ofNat_of_lt hstart
  rw [readLeAt, usizeAdd_of_lt build hstart, Fallible.ok_bind]
  cases hhi : (usizeAdd build o (d + n) : Fallible ε UInt64) with
  | panic => rfl
  | err e => exact absurd hhi (usizeAdd_ne_err o (d + n) e)
  | ok =>
    rw [Fallible.ok_bind, readLe, slice, getRange, if_neg]
    · rfl
    · rw [hlo]
      omega

variable {k : Nat}

theorem readLeAt_ofNat (build : Build) {o j : Nat} (hd : d.toNat = k)
    (hn : n.toNat = j) (hsmall : k + j < 2 ^ 64) (hbytes : bytes.length < 2 ^ 64)
    (hlen : o + k + j ≤ bytes.length) :
    (readLeAt build bytes (UInt64.ofNat o) d n : Fallible ε Nat) = .ok (leAt bytes (o + k) j) := by
  have ho : (UInt64.ofNat o).toNat = o := toNat_ofNat_of_lt (by omega)
  rw [readLeAt_of_le build (by rw [hd, hn]; exact hsmall) hbytes (by rw [ho, hd, hn]; exact hlen),
    ho, hd, hn]

theorem readLe_field {lo hi : UInt64} {n : Nat} (hlo : lo.toNat = a)
    (hhi : hi.toNat = a + n) (hlen : a + n ≤ bytes.length) :
    (readLe bytes lo hi : Fallible ε Nat) = .ok (leAt bytes a n) := by
  rw [readLe_of_le (by omega) (by omega), hlo, hhi, Nat.add_sub_cancel_left]

/-- The fields of a record that is `size` bytes long, at places that are literals. -/
theorem readLe_within {lo hi size : UInt64} (hsize : size.toNat ≤ bytes.length) (hle : lo ≤ hi)
    (hhi : hi ≤ size) : (readLe bytes lo hi : Fallible ε Nat) =
      .ok (leAt bytes lo.toNat (hi.toNat - lo.toNat)) :=
  readLe_of_le hle (Nat.le_trans hhi hsize)

theorem leAt_lt (bytes : List UInt8) (o n : Nat) : leAt bytes o n < 256 ^ n := by
  apply leNat_lt_of_le
  rw [length_take]
  exact Nat.min_le_left _ _

theorem usizeAdd_const (build : Build) (hd : d.toNat = k) (h : a + k < 2 ^ 64) :
    (usizeAdd build (UInt64.ofNat a) d : Fallible ε UInt64) = .ok (UInt64.ofNat (a + k)) := by
  have ha : (UInt64.ofNat a).toNat = a := toNat_ofNat_of_lt (by omega)
  rw [usizeAdd_of_lt build (by rw [ha, hd]; exact h), ha, hd]

theorem usizeAdd_mod (build : Build) (hd : d.toNat = k)
    (ha : a < 2 ^ 64) (h : build = .debug → a + k < 2 ^ 64) :
    (usizeAdd build (UInt64.ofNat a) d : Fallible ε UInt64) =
      .ok (UInt64.ofNat ((a + k) % 2 ^ 64)) := by
  have haNat : (UInt64.ofNat a).toNat = a := toNat_ofNat_of_lt ha
  cases build with
  | debug => rw [usizeAdd_const .debug hd (h rfl), Nat.mod_eq_of_lt (h rfl)]
  | release =>
    have hwrapped : UInt64.ofNat (a + k) = UInt64.ofNat ((a + k) % 2 ^ 64) := by
      apply UInt64.toNat_inj.mp
      rw [UInt64.toNat_ofNat', UInt64.toNat_ofNat', Nat.mod_mod]
    rw [usizeAdd, fit_release, haNat, hd, hwrapped]

theorem readLeAt_mod (build : Build) {o j : Nat}
    (hd : d.toNat = k) (hn : n.toNat = j) (ho : o < 2 ^ 64) (hsmall : k + j < 2 ^ 64)
    (h : build = .debug → o + k + j < 2 ^ 64) (hbytes : bytes.length < 2 ^ 63)
    (hlen : (o + k) % 2 ^ 64 + j ≤ bytes.length) :
    (readLeAt build bytes (UInt64.ofNat o) d n : Fallible ε Nat) =
      .ok (leAt bytes ((o + k) % 2 ^ 64) j) := by
  have hdn : (d + n).toNat = k + j := by
    rw [UInt64.toNat_add, hd, hn]
    exact Nat.mod_eq_of_lt hsmall
  have hend : (o + (k + j)) % 2 ^ 64 = (o + k) % 2 ^ 64 + j := by omega
  rw [readLeAt, usizeAdd_mod build hd ho (fun hb => by have := h hb; omega), Fallible.ok_bind,
    usizeAdd_mod build hdn ho (fun hb => by have := h hb; omega), Fallible.ok_bind, hend]
  exact readLe_field (toNat_ofNat_of_lt (by omega)) (toNat_ofNat_of_lt (by omega)) hlen

/-- `bytes[off..off + size]`, where that lies in the file. -/
def fileRange (bytes : List UInt8) (off size : Nat) : Option (List UInt8) :=
  if off + size ≤ bytes.length then some ((bytes.drop off).take size) else none

variable {off size : Nat}

theorem fileRange_eq_none : fileRange bytes off size = none ↔ bytes.length < off + size := by
  rw [fileRange]
  by_cases h : off + size ≤ bytes.length
  · rw [if_pos h]
    simp only [reduceCtorEq, false_iff]
    omega
  · rw [if_neg h]
    simp only [true_iff]
    omega

theorem getRange_eq_fileRange {hi : UInt64} (hoff : off < 2 ^ 64)
    (hhi : hi.toNat ≤ bytes.length ∨ off + size ≤ bytes.length → hi.toNat = off + size) :
    getRange bytes (UInt64.ofNat off) hi = fileRange bytes off size := by
  rw [getRange, fileRange, toNat_ofNat_of_lt hoff]
  by_cases h : off + size ≤ bytes.length
  · rw [if_pos h, hhi (.inr h), if_pos ⟨Nat.le_add_right _ _, h⟩, drop_take,
      Nat.add_sub_cancel_left]
  · rw [if_neg h, if_neg]
    rintro ⟨-, hle⟩
    exact h (hhi (.inl hle) ▸ hle)

/-- `bytes.get(off..off.saturating_add(size))` -/
theorem getRange_saturatingAdd (hlen : bytes.length < 2 ^ 63)
    (hoff : off < 2 ^ 64) (hsize : size < 2 ^ 64) :
    getRange bytes (UInt64.ofNat off)
        (saturatingAdd (UInt64.ofNat off) (UInt64.ofNat size)) = fileRange bytes off size := by
  apply getRange_eq_fileRange hoff
  rw [saturatingAdd, toNat_ofNat_of_lt hoff, toNat_ofNat_of_lt hsize]
  by_cases hfits : off + size < 2 ^ 64
  · intro _
    rw [if_pos hfits, UInt64.toNat_add, toNat_ofNat_of_lt hoff, toNat_ofNat_of_lt hsize,
      Nat.mod_eq_of_lt hfits]
  · have htop : (0xFFFFFFFFFFFFFFFF : UInt64).toNat = 2 ^ 64 - 1 := rfl
    rw [if_neg hfits, htop]
    rintro (h | h) <;> omega

/-- `bytes.get(off..off + size)`, the sum being in 64 bits. -/
theorem getRange_add (hfits : off + size < 2 ^ 64) :
    getRange bytes (UInt64.ofNat off) (UInt64.ofNat (off + size)) = fileRange bytes off size :=
  getRange_eq_fileRange (by omega) fun _ => toNat_ofNat_of_lt hfits

end Offsets

/-! ### Pieces of a byte string -/

variable {α : Type}

/-- A list is its pieces of length `n`. -/
theorem flatMap_pieces (xs : List α) (n k : Nat) :
    ((range k).flatMap fun i => (xs.drop (i * n)).take n) = xs.take (k * n) := by
  induction k with
  | zero => simp
  | succ k ih =>
    rw [range_succ, flatMap_append, ih, flatMap_singleton, Nat.succ_mul,
      take_add]

/-- The `i`-th of equally long pieces. -/
theorem piece_flatMap {β : Type} {f : α → List β} (hf : ∀ a, (f a).length = n) :
    ∀ {l : List α} {i : Nat} (hi : i < l.length),
      ((l.flatMap f).drop (i * n)).take n = f (l.get ⟨i, hi⟩) := by
  intro l
  induction l with
  | nil =>
    intro i hi
    cases hi
  | cons a l ih =>
    intro i hi
    cases i with
    | zero => simp [hf a]
    | succ i =>
      have hskip : (i + 1) * n - (f a).length = i * n := by
        rw [hf a, Nat.succ_mul, Nat.add_sub_cancel]
      have hpast : (f a).length ≤ (i + 1) * n := by
        rw [hf a, Nat.succ_mul]
        exact Nat.le_add_left _ _
      rw [flatMap_cons, drop_append, drop_eq_nil_of_le hpast, nil_append, hskip]
      exact ih (Nat.lt_of_succ_lt_succ hi)

theorem getElem?_flatMap {β : Type} {f : α → List β} (hf : ∀ a, (f a).length = n)
    (hn : 0 < n) (l : List α) (i : Nat) :
    (l.flatMap f)[i]? = (l[i / n]?).bind fun a => (f a)[i % n]? := by
  induction l generalizing i with
  | nil => rfl
  | cons a l ih =>
    rw [flatMap_cons]
    by_cases hfirst : i < n
    · rw [getElem?_append_left (by rwa [hf a]), Nat.div_eq_of_lt hfirst,
        Nat.mod_eq_of_lt hfirst]
      rfl
    · obtain ⟨d, rfl⟩ := Nat.exists_eq_add_of_le (Nat.not_lt.mp hfirst)
      rw [getElem?_append_right (by rw [hf a]; exact Nat.le_add_right _ _), hf a,
        Nat.add_sub_cancel_left, ih, Nat.add_div_left _ hn, Nat.add_mod_left,
        getElem?_cons_succ]

def ascii (s : String) : List UInt8 := s.toList.map fun c => UInt8.ofNat c.toNat

/-- The NUL-terminated byte string at `off` of a string table. -/
def cStr (tab : List UInt8) (off : UInt64) : Option (List UInt8) :=
  if off.toNat ≤ tab.length then
    let s := tab.drop off.toNat
    if 0 ∈ s then some (s.takeWhile (· ≠ 0)) else none
  else none

/-! ### Fixed-size arrays -/

/-- `[u8; n]` -/
structure Block (n : Nat) where
  bytes : List UInt8
  length_bytes : bytes.length = n
deriving Repr, DecidableEq

namespace Block

attribute [simp] length_bytes

theorem eq_of_bytes {n : Nat} {a b : Block n} (h : a.bytes = b.bytes) : a = b := by
  cases a
  cases b
  cases h
  rfl

/-- `[0u8; n]` -/
def zero (n : Nat) : Block n := ⟨replicate n 0, length_replicate⟩

end Block

/-- `bytes[lo..lo + n].try_into().unwrap()` -/
def arrayAt (bytes : List UInt8) (lo n : Nat) : Fallible ε (Block n) :=
  if h : lo + n ≤ bytes.length then .ok ⟨(bytes.drop lo).take n, by simp; omega⟩
  else .panic

theorem arrayAt_of_le {lo : Nat} (h : lo + n ≤ bytes.length) :
    ∃ b, (arrayAt bytes lo n : Fallible ε (Block n)) = .ok b ∧
      b.bytes = (bytes.drop lo).take n := by
  refine ⟨⟨(bytes.drop lo).take n, by simp; omega⟩, ?_, rfl⟩
  simp [arrayAt, h]

theorem arrayAt_append {lo : Nat} (before : List UInt8) (b : Block n)
    (after : List UInt8) (hbytes : bytes = before ++ (b.bytes ++ after))
    (hlo : lo = before.length) : (arrayAt bytes lo n : Fallible ε (Block n)) = .ok b := by
  subst hlo hbytes
  have hle : before.length + n ≤ (before ++ (b.bytes ++ after)).length := by simp
  obtain ⟨b', hb', hbytes⟩ : ∃ b', (arrayAt _ _ n : Fallible ε (Block n)) = .ok b' ∧ _ :=
    arrayAt_of_le hle
  have heq : b' = b := Block.eq_of_bytes (by simp [hbytes])
  rw [hb', heq]

/-- `bytes.resize(n, 0)` -/
def resize (bytes : List UInt8) (n : Nat) : List UInt8 :=
  bytes.take n ++ replicate (n - bytes.length) 0

@[simp] theorem length_resize (bytes : List UInt8) (n : Nat) : (resize bytes n).length = n := by
  simp [resize]
  omega

/-- `bytes[lo..hi].copy_from_slice(src)` -/
def copyInto (bytes : List UInt8) (lo hi : UInt64) (src : List UInt8) :
    Fallible ε (List UInt8) := do
  let dst ← slice bytes lo hi
  if dst.length = src.length then pure (bytes.take lo.toNat ++ src ++ bytes.drop hi.toNat)
  else .panic

end Rustee
