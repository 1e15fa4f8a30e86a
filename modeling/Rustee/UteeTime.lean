import Rustee.OsAbi
import Rustee.RustBytes

/-!
# The persistent time of a TA (`time_api.rs` of `rustee-utee`)

A TA sets its time once; the runtime keeps it with the reading of the system clock and adds what the
clock has advanced since. A clock that has gone back has advanced by nothing.
-/

namespace Rustee.Utee

open Os

def TEE_ERROR_OVERFLOW : UInt32 := 0xFFFF300F
def TEE_ERROR_TIME_NOT_SET : UInt32 := 0xFFFF5000

structure TeeTime where
  seconds : UInt32
  millis : UInt32
deriving Repr, DecidableEq

/-- The sums are taken in `u64`, which two `u32` and a carry do not fill. -/
def add (base delta : TeeTime) : Except UInt32 TeeTime :=
  let ms := base.millis.toNat + delta.millis.toNat
  let sec := base.seconds.toNat + delta.seconds.toNat + ms / 1000
  if sec > 0xFFFFFFFF then .error TEE_ERROR_OVERFLOW
  else .ok ⟨UInt32.ofNat sec, UInt32.ofNat (ms % 1000)⟩

def satSub (later earlier : TeeTime) : TeeTime :=
  let ms : Int := later.millis.toNat - earlier.millis.toNat
  let sec : Int := later.seconds.toNat - earlier.seconds.toNat
  let (ms, sec) := if ms < 0 then (ms + 1000, sec - 1) else (ms, sec)
  if sec < 0 then ⟨0, 0⟩ else ⟨UInt32.ofNat sec.toNat, UInt32.ofNat ms.toNat⟩

structure PersistTime where
  set : Bool
  sysBase : TeeTime
  value : TeeTime

/-- `time` is what the caller's pointer points to, if it is not null; `now` is what
`system_time` reads. -/
def getTaPersistentTime (p : PersistTime) (now : TeeTime) (time : Option TeeTime) :
    UInt32 × Option TeeTime :=
  match time with
  | none => (TEE_ERROR_BAD_PARAMETERS, time)
  | some _ =>
    if p.set then
      match add p.value (satSub now p.sysBase) with
      | .ok t => (TEE_SUCCESS, some t)
      | .error e => (e, time)
    else (TEE_ERROR_TIME_NOT_SET, time)

def setTaPersistentTime (p : PersistTime) (now : TeeTime) (time : Option TeeTime) :
    UInt32 × PersistTime :=
  match time with
  | none => (TEE_ERROR_BAD_PARAMETERS, p)
  | some t =>
    if t.millis ≥ 1000 then (TEE_ERROR_BAD_PARAMETERS, p) else (TEE_SUCCESS, ⟨true, now, t⟩)

/-! ### Times as numbers of milliseconds -/

namespace TeeTime

def total (t : TeeTime) : Nat := 1000 * t.seconds.toNat + t.millis.toNat

def Normal (t : TeeTime) : Prop := t.millis < 1000

instance (t : TeeTime) : Decidable t.Normal := inferInstanceAs (Decidable (_ < _))

theorem Normal.lt {t : TeeTime} (h : t.Normal) : t.millis.toNat < 1000 :=
  UInt32.lt_iff_toNat_lt.mp h

/-- The normalised time of `n` milliseconds. -/
def ofTotal (n : Nat) : TeeTime := ⟨UInt32.ofNat (n / 1000), UInt32.ofNat (n % 1000)⟩

theorem ofTotal_normal (n : Nat) : (ofTotal n).Normal := by
  rw [Normal, UInt32.lt_iff_toNat_lt]
  simp only [ofTotal, UInt32.toNat_ofNat', UInt32.reduceToNat]
  omega

theorem total_ofTotal {n : Nat} (h : n / 1000 < 2 ^ 32) : (ofTotal n).total = n := by
  simp only [total, ofTotal, UInt32.toNat_ofNat']
  omega

theorem ofTotal_total {t : TeeTime} (h : t.Normal) : ofTotal t.total = t := by
  have hms := h.lt
  cases t with
  | mk seconds millis =>
    simp only [ofTotal, total, TeeTime.mk.injEq] at hms ⊢
    rw [show (1000 * seconds.toNat + millis.toNat) / 1000 = seconds.toNat by omega,
      show (1000 * seconds.toNat + millis.toNat) % 1000 = millis.toNat by omega]
    exact ⟨UInt32.ofNat_toNat, UInt32.ofNat_toNat⟩

end TeeTime

open TeeTime

variable {p : PersistTime} {v s₀ s₁ : TeeTime}

theorem satSub_total (h1 : s₁.Normal) (h0 : s₀.Normal) :
    (satSub s₁ s₀).total = s₁.total - s₀.total := by
  have hms1 := h1.lt
  have hms0 := h0.lt
  have hsec1 := s₁.seconds.toNat_lt
  unfold satSub total
  by_cases hborrow : (s₁.millis.toNat : Int) - s₀.millis.toNat < 0
  · simp only [if_pos hborrow]
    split
    · simp only [UInt32.reduceToNat]
      omega
    · simp only [UInt32.toNat_ofNat']
      omega
  · simp only [if_neg hborrow]
    split
    · simp only [UInt32.reduceToNat]
      omega
    · simp only [UInt32.toNat_ofNat']
      omega

/-- `add` is addition of milliseconds, as long as the seconds fit their word. -/
theorem add_eq (base delta : TeeTime) : add base delta =
    if (base.total + delta.total) / 1000 < 2 ^ 32 then .ok (ofTotal (base.total + delta.total))
    else .error TEE_ERROR_OVERFLOW := by
  have hsec : base.seconds.toNat + delta.seconds.toNat +
      (base.millis.toNat + delta.millis.toNat) / 1000 = (base.total + delta.total) / 1000 := by
    unfold total
    omega
  have hms : (base.millis.toNat + delta.millis.toNat) % 1000 =
      (base.total + delta.total) % 1000 := by
    unfold total
    omega
  simp only [add, hsec, hms, ofTotal]
  split
  · rw [if_neg (by omega)]
  · rw [if_pos (by omega)]

/-- What the TA reads once it has set its time. -/
theorem getTaPersistentTime_eq (h₁ : s₁.Normal) (h₀ : s₀.Normal) (out : TeeTime) :
    getTaPersistentTime ⟨true, s₀, v⟩ s₁ (some out) =
      if (v.total + (s₁.total - s₀.total)) / 1000 < 2 ^ 32 then
        (TEE_SUCCESS, some (ofTotal (v.total + (s₁.total - s₀.total))))
      else (TEE_ERROR_OVERFLOW, some out) := by
  rw [getTaPersistentTime, if_pos rfl, add_eq, satSub_total h₁ h₀]
  by_cases hfits : (v.total + (s₁.total - s₀.total)) / 1000 < 2 ^ 32
  · rw [if_pos hfits, if_pos hfits]
  · rw [if_neg hfits, if_neg hfits]

/-- Set to `v` at the reading `s₀`, the time read at `s₁` is `v` and what the clock has advanced,
or an overflow that writes nothing if its seconds do not fit; it is `v` if the clock has gone
back; and it does not go back before it overflows. -/
theorem persistentTime_exact (hv : v.Normal) (h₀ : s₀.Normal) :
    (setTaPersistentTime p s₀ (some v)).1 = TEE_SUCCESS ∧
    (∀ s₁ out, s₁.Normal → s₀.total ≤ s₁.total →
      getTaPersistentTime (setTaPersistentTime p s₀ (some v)).2 s₁ (some out) =
        if (v.total + (s₁.total - s₀.total)) / 1000 < 2 ^ 32 then
          (TEE_SUCCESS, some (ofTotal (v.total + (s₁.total - s₀.total))))
        else (TEE_ERROR_OVERFLOW, some out)) ∧
    (∀ s₁ out, s₁.Normal → s₁.total < s₀.total →
      getTaPersistentTime (setTaPersistentTime p s₀ (some v)).2 s₁ (some out) =
        (TEE_SUCCESS, some v)) ∧
    ∀ s₁ s₂ out t₂, s₁.Normal → s₂.Normal → s₁.total ≤ s₂.total →
      getTaPersistentTime (setTaPersistentTime p s₀ (some v)).2 s₂ (some out) =
        (TEE_SUCCESS, some t₂) →
      ∃ t₁, getTaPersistentTime (setTaPersistentTime p s₀ (some v)).2 s₁ (some out) =
        (TEE_SUCCESS, some t₁) ∧ t₁.Normal ∧ t₁.total ≤ t₂.total := by
  rw [setTaPersistentTime, if_neg (UInt32.not_le.mpr hv)]
  refine ⟨rfl, fun s₁ out h₁ _ => getTaPersistentTime_eq h₁ h₀ out, ?_, ?_⟩
  · intro s₁ out h₁ hback
    have hlt : v.total / 1000 < 2 ^ 32 := by
      have := v.seconds.toNat_lt
      have := hv.lt
      unfold total
      omega
    rw [getTaPersistentTime_eq h₁ h₀, Nat.sub_eq_zero_of_le (Nat.le_of_lt hback), Nat.add_zero,
      if_pos hlt, ofTotal_total hv]
  · intro s₁ s₂ out t₂ h₁ h₂ hle hread
    rw [getTaPersistentTime_eq h₂ h₀] at hread
    split at hread
    case isTrue hfits =>
      cases hread
      have hfits₁ : (v.total + (s₁.total - s₀.total)) / 1000 < 2 ^ 32 := by omega
      refine ⟨_, (getTaPersistentTime_eq h₁ h₀ out).trans (if_pos hfits₁), ofTotal_normal _, ?_⟩
      rw [total_ofTotal hfits, total_ofTotal hfits₁]
      omega
    case isFalse => cases hread

theorem persistentTime_exact_sample :
    getTaPersistentTime (setTaPersistentTime ⟨false, ⟨0, 0⟩, ⟨0, 0⟩⟩ ⟨5, 700⟩
      (some ⟨100, 600⟩)).2 ⟨7, 200⟩ (some ⟨0, 0⟩) = (TEE_SUCCESS, some ⟨102, 100⟩) :=
  (@persistentTime_exact ⟨false, ⟨0, 0⟩, ⟨0, 0⟩⟩ ⟨100, 600⟩ ⟨5, 700⟩
    (by decide) (by decide)).2.1 ⟨7, 200⟩ ⟨0, 0⟩ (by decide) (by decide)

end Rustee.Utee
