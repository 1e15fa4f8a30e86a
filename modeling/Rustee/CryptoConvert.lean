import Rustee.CryptoExact

/-!
# Words and octet strings as big integers

`from_s32` writes the absolute value of any 32-bit integer; `to_s32` takes back a limb that is at
most the largest of them, whatever its sign. An octet string is the big-endian magnitude: it is
turned round, filled up to whole limbs and trimmed; on the way back the zero octets of the top
limb are dropped.
-/

namespace Rustee.Limbs

open List

/-! ### Limbs and octets -/

/-- `u32::from_le_bytes` of four octets at a time. -/
def ofOctets : List UInt8 → List UInt32
  | a :: b :: c :: d :: rest => UInt32.ofNat (leNat [a, b, c, d]) :: ofOctets rest
  | _ => []

def toOctets (ds : List UInt32) : List UInt8 := ds.flatMap fun d => leBytes 4 d.toNat

variable (bytes : List UInt8)

theorem ofOctets_eq {n : Nat} (h : bytes.length = 4 * n) :
    (ofOctets bytes).length = n ∧ val (ofOctets bytes) = leNat bytes := by
  induction n generalizing bytes with
  | zero =>
    obtain rfl := eq_nil_of_length_eq_zero h
    exact ⟨rfl, rfl⟩
  | succ n ih =>
    match bytes, h with
    | a :: b :: c :: d :: rest, h =>
      obtain ⟨hlen, hval⟩ := ih rest (by simpa [Nat.mul_succ] using h)
      have hword : leNat [a, b, c, d] < 2 ^ 32 := by simpa using leNat_lt [a, b, c, d]
      refine ⟨by rw [ofOctets, length_cons, hlen], ?_⟩
      rw [ofOctets, val_cons, toNat_limb hword, hval,
        show a :: b :: c :: d :: rest = [a, b, c, d] ++ rest from rfl, leNat_append]
      norm_num

theorem leNat_toOctets (ds : List UInt32) : leNat (toOctets ds) = val ds := by
  induction ds with
  | nil => rfl
  | cons d ds ih =>
    rw [toOctets, flatMap_cons, leNat_append, ← toOctets, ih, length_leBytes,
      leNat_leBytes 4 d.toNat_lt, val_cons]
    norm_num

/-- The big-endian octets of a number, none for zero. -/
def octets (m : Nat) : List UInt8 := ((Nat.digits 256 m).map UInt8.ofNat).reverse

theorem leNat_eq_ofDigits : leNat bytes = Nat.ofDigits 256 (bytes.map UInt8.toNat) := by
  induction bytes with
  | nil => rfl
  | cons b bs ih => rw [leNat, ih, map_cons, Nat.ofDigits_cons]

/-- Octets without a zero in front are those of their number. -/
theorem octets_beNat {bytes : List UInt8} (h : bytes.head? ≠ some 0) :
    octets (beNat bytes) = bytes := by
  have hdigits : Nat.digits 256 (beNat bytes) = bytes.reverse.map UInt8.toNat := by
    rw [beNat, leNat_eq_ofDigits, Nat.digits_ofDigits _ (by decide)]
    · intro x hx
      obtain ⟨b, -, rfl⟩ := mem_map.mp hx
      exact b.toNat_lt
    · intro hne h0
      rw [getLast_map, getLast_reverse] at h0
      apply h
      rw [head?_eq_some_head (by simpa using hne)]
      exact congrArg some (UInt8.toNat_inj.mp h0)
  have hback : UInt8.ofNat ∘ UInt8.toNat = id := funext fun b => UInt8.ofNat_toNat
  rw [octets, hdigits, map_map, hback, map_id, reverse_reverse]

/-- The octets without the zeros in front of them, the last octet apart. -/
def stripZeros : List UInt8 → List UInt8
  | a :: b :: rest => if a = 0 then stripZeros (b :: rest) else a :: b :: rest
  | bytes => bytes

theorem beNat_cons_zero : beNat (0 :: bytes) = beNat bytes := by
  rw [← singleton_append, beNat_append]
  simp [beNat, leNat]

theorem beNat_dropWhile : beNat (bytes.dropWhile (· == 0)) = beNat bytes := by
  induction bytes with
  | nil => rfl
  | cons b bs ih =>
    by_cases hb : b = 0
    · rw [hb, dropWhile_cons_of_pos (by rfl), ih, beNat_cons_zero]
    · rw [dropWhile_cons_of_neg (by simpa using hb)]

theorem octets_eq_dropWhile : octets (beNat bytes) = bytes.dropWhile (· == 0) := by
  rw [← beNat_dropWhile, octets_beNat]
  intro h
  have := head?_dropWhile_not (· == 0) bytes
  rw [h] at this
  simp at this

theorem stripZeros_eq {bytes : List UInt8} (h : beNat bytes ≠ 0) :
    stripZeros bytes = octets (beNat bytes) := by
  induction bytes with
  | nil => exact absurd rfl h
  | cons a bs ih =>
    by_cases ha : a = 0
    · subst ha
      rw [beNat_cons_zero] at h ⊢
      cases bs with
      | nil => exact absurd rfl h
      | cons b rest =>
        rw [stripZeros, if_pos rfl]
        exact ih h
    · rw [octets_beNat (by simpa using ha)]
      cases bs with
      | nil => rfl
      | cons b rest => rw [stripZeros, if_neg ha]

end Rustee.Limbs

namespace Rustee.Arith

open Limbs List

/-- `v` is an `i32`. -/
def fromS32 (op : BigInt) (v : Int) : Outcome BigInt :=
  if v = 0 then .ok (init op)
  else if cap op = 0 then .panic
  else .ok ⟨if v < 0 then FLAG_NEG else 0, 1, UInt32.ofNat v.natAbs :: (init op).limbs.drop 1⟩

def toS32 (op : BigInt) : Outcome Int := do
  let n ← nlimbs op
  if n = 0 then .ok 0
  else if 1 < n ∨ op.limbs.getD 0 0 > 0x7FFFFFFF then .err .badSize
  else
    let mag : Int := (op.limbs.getD 0 0).toNat
    .ok (if sign op ≠ 0 then -mag else mag)

/-- The error, if there is one, and the number. -/
def fromOctetString (op : BigInt) (buf : List UInt8) (sign : Int) :
    Outcome (Option ArithError × BigInt) :=
  if buf = [] then .ok (none, init op)
  else
    let bytes := buf.reverse ++ replicate ((4 - buf.length % 4) % 4) 0
    let n := bytes.length / 4
    if cap op < n then .ok (some .badSize, init op)
    else do
      let op ← trim ⟨if sign < 0 then FLAG_NEG else 0, UInt32.ofNat n,
        ofOctets bytes ++ replicate (cap op - n) 0⟩
      .ok (none, op)

/-- The number of octets, and the buffer afterwards. -/
def toOctetString (op : BigInt) (buf : List UInt8) : Outcome Nat × List UInt8 :=
  match nlimbs op with
  | .ok n =>
    if n = 0 then (.ok 0, buf)
    else
      -- zero octets are popped off the little-endian end, which is the front once turned round
      let bytes := stripZeros (toOctets (op.limbs.take n)).reverse
      if buf.length < bytes.length then (.err .shortBuffer, buf)
      else (.ok bytes.length, bytes ++ buf.drop bytes.length)
  | .err e => (.err e, buf)
  | .panic => (.panic, buf)

variable {op : BigInt} {m : Nat} {z : Int}

/-! ### 32-bit integers -/

/-- A number of one limb is its limb. -/
theorem Magnitude.head (h : Magnitude op m) (h1 : limbCount m = 1) :
    (op.limbs.getD 0 0).toNat = m := by
  have hval := val_take_succ op.limbs 0
  have hst := h.take.val
  rw [h1] at hst
  simpa [hst] using hval.symm

theorem toS32_eq (h : Holds op z) :
    toS32 op = if z.natAbs < 2 ^ 31 then .ok z else .err .badSize := by
  have hmag := h.magnitude
  simp only [toS32, hmag.nlimbs, Fallible.ok_bind, limbCount_eq_zero, sign_signFlag h]
  by_cases h0 : z.natAbs = 0
  · rw [if_pos h0, if_pos (by omega), Int.natAbs_eq_zero.mp h0]
  · rw [if_neg h0]
    by_cases h1 : limbCount z.natAbs = 1
    · have hhead := hmag.head h1
      have hgt : op.limbs.getD 0 0 > 0x7FFFFFFF ↔ ¬ z.natAbs < 2 ^ 31 := by
        rw [gt_iff_lt, UInt32.lt_iff_toNat_lt, hhead]
        simp only [UInt32.reduceToNat]
        omega
      rw [h1, hhead]
      simp only [lt_irrefl, false_or, hgt]
      by_cases hfits : z.natAbs < 2 ^ 31
      · rw [if_neg (not_not_intro hfits), if_pos hfits]
        by_cases hz : z < 0
        · have hflag : signFlag z ≠ 0 := by simp [signFlag, hz, FLAG_NEG]
          rw [if_pos hflag]
          congr 1
          omega
        · have hflag : ¬ signFlag z ≠ 0 := by simp [signFlag, hz]
          rw [if_neg hflag]
          congr 1
          omega
      · rw [if_pos hfits, if_neg hfits]
    · have hlong : 1 < limbCount z.natAbs := by
        have := limbCount_eq_zero.not.mpr h0
        omega
      have hlarge : ¬ z.natAbs < 2 ^ 31 := by
        have := lt_limbCount_iff.mp hlong
        omega
      rw [if_pos (Or.inl hlong), if_neg hlarge]

theorem fromS32_holds (dest : BigInt) {v : Int} (h32 : v.natAbs < 2 ^ 32) (hcap : 0 < cap dest) :
    Yields (fromS32 dest v) (cap dest) v := by
  rw [fromS32]
  by_cases hv : v = 0
  · rw [if_pos hv, hv]
    exact ⟨_, rfl, cap_init dest, init_holds dest⟩
  · have hlimb := toNat_limb h32
    have hd : UInt32.ofNat v.natAbs ≠ 0 := fun h0 => by
      rw [h0, UInt32.toNat_zero] at hlimb
      omega
    have hst : Stores [UInt32.ofNat v.natAbs] v.natAbs := by
      have hst := stores_concat [] hd
      rwa [nil_append, val_cons, hlimb, val_nil, mul_zero, add_zero] at hst
    rw [if_neg hv, if_neg (by omega)]
    refine ⟨_, rfl, by simp [cap, init] at hcap ⊢; omega, ?_⟩
    exact (magnitude_append hst rfl (Nat.one_lt_two_pow (by decide)) _).holds rfl rfl

/-- The integers of 32 bits. -/
def InS32 (v : Int) : Prop := -2 ^ 31 ≤ v ∧ v < 2 ^ 31

/-- `to_s32` returns exactly the numbers of 32 bits, and `from_s32` is undone by it, except for
the least one. -/
theorem toS32_exact_iff (h : Holds op z) :
    (((∀ v, toS32 op = .ok v ↔ z = v ∧ InS32 v) ∧ (¬ InS32 z → toS32 op = .err .badSize)) ↔
      z ≠ -2 ^ 31) ∧
    ∀ dest v, 0 < cap dest → InS32 v →
      ((∃ d, fromS32 dest v = .ok d ∧ toS32 d = .ok v) ↔ v ≠ -2 ^ 31) := by
  have hok : ∀ {op : BigInt} {z : Int}, Holds op z → ∀ v, toS32 op = .ok v ↔
      z = v ∧ z.natAbs < 2 ^ 31 := by
    intro op z h v
    rw [toS32_eq h]
    by_cases hfits : z.natAbs < 2 ^ 31
    · rw [if_pos hfits, and_iff_left hfits, Fallible.ok.injEq]
    · rw [if_neg hfits]
      exact iff_of_false nofun fun hboth => hfits hboth.2
  refine ⟨⟨?_, ?_⟩, ?_⟩
  · rintro ⟨hexact, -⟩ rfl
    have := (hok h _).mp ((hexact _).mpr ⟨rfl, by unfold InS32; decide⟩)
    exact absurd this.2 (by decide)
  · intro hz
    constructor
    · intro v
      rw [hok h, InS32]
      omega
    · intro hout
      rw [toS32_eq h, if_neg]
      unfold InS32 at hout
      omega
  · intro dest v hcap hv
    unfold InS32 at hv
    obtain ⟨d, hfrom, -, hd⟩ := fromS32_holds dest (v := v) (by omega) hcap
    constructor
    · rintro ⟨d', hfrom', hto⟩
      obtain rfl : d' = d := by simpa using hfrom'.symm.trans hfrom
      have := ((hok hd v).mp hto).2
      omega
    · intro hmin
      exact ⟨d, hfrom, (hok hd v).mpr ⟨rfl, by omega⟩⟩

theorem toS32_exact_iff_sample :
    (∃ d, fromS32 (zeroed 4) (-5) = .ok d ∧ toS32 d = .ok (-5)) ↔ (-5 : Int) ≠ -2 ^ 31 :=
  (toS32_exact_iff (canonical_holds 2 (z := 0) (by decide))).2 (zeroed 4) (-5) (by decide)
    (by unfold InS32; decide)

/-- The least 32-bit integer goes in and does not come out. -/
theorem least_s32_rejected :
    fromS32 (zeroed 4) (-2147483648) = .ok ⟨1, 1, [2147483648, 0]⟩ ∧
      toS32 ⟨1, 1, [2147483648, 0]⟩ = .err .badSize := by
  decide

/-! ### Octet strings -/

section Octets

variable (dest : BigInt) (buf : List UInt8) (s : Int)

/-- The number of limbs that `from_octet_string` fills. -/
def octetLimbs (buf : List UInt8) : Nat := (buf.length + 3) / 4

/-- What is left of the octets by the length word. -/
theorem fromOctetString_eq (hcap : octetLimbs buf ≤ cap dest) :
    ∃ d, fromOctetString dest buf s = .ok (none, d) ∧ cap d = cap dest ∧
      Magnitude d (beNat buf % 2 ^ (32 * (octetLimbs buf % 2 ^ 32))) ∧
      d.flags = if beNat buf % 2 ^ (32 * (octetLimbs buf % 2 ^ 32)) = 0 then 0
        else if s < 0 then FLAG_NEG else 0 := by
  unfold octetLimbs at hcap ⊢
  by_cases hnil : buf = []
  · subst hnil
    exact ⟨init dest, by rw [fromOctetString, if_pos rfl], cap_init dest,
      (init_holds dest).magnitude, rfl⟩
  · have hpos := length_pos_iff.mpr hnil
    have hlen : (buf.reverse ++ replicate ((4 - buf.length % 4) % 4) 0).length =
        4 * ((buf.length + 3) / 4) := by
      simp only [length_append, length_reverse, length_replicate]
      omega
    obtain ⟨hcount, hval⟩ := ofOctets_eq _ hlen
    have hzeros : leNat (replicate ((4 - buf.length % 4) % 4) 0) = 0 := by
      generalize (4 - buf.length % 4) % 4 = k
      induction k with
      | zero => rfl
      | succ k ih => rw [replicate_succ, leNat, ih]; rfl
    rw [leNat_append, hzeros, mul_zero, add_zero] at hval
    rw [fromOctetString, if_neg hnil]
    dsimp only
    rw [hlen, Nat.mul_div_cancel_left _ (by decide), if_neg (not_lt.mpr hcap)]
    generalize (buf.length + 3) / 4 = n at *
    obtain ⟨d, htrim, hcapd, hmag, hflags⟩ := trim_eq
      ⟨if s < 0 then FLAG_NEG else 0, UInt32.ofNat n,
        ofOctets (buf.reverse ++ replicate ((4 - buf.length % 4) % 4) 0) ++
          replicate (cap dest - n) 0⟩ (m := beNat buf % 2 ^ (32 * (n % 2 ^ 32)))
      (by
        simp only [cap, length_append, hcount, length_replicate, UInt32.toNat_ofNat']
        have := Nat.mod_le n (2 ^ 32)
        omega)
      (by
        rw [UInt32.toNat_ofNat', val_take, val_append, hval, val_replicate_zero, mul_zero,
          add_zero]
        rfl)
    refine ⟨d, by rw [htrim]; rfl, ?_, hmag, hflags⟩
    rw [hcapd]
    simp only [cap, length_append, hcount, length_replicate] at hcap ⊢
    omega

theorem toOctetString_eq (h : Holds op z) :
    toOctetString op buf =
      if (octets z.natAbs).length ≤ buf.length then
        (.ok (octets z.natAbs).length, octets z.natAbs ++ buf.drop (octets z.natAbs).length)
      else (.err .shortBuffer, buf) := by
  simp only [toOctetString, h.magnitude.nlimbs, limbCount_eq_zero]
  by_cases h0 : z.natAbs = 0
  · rw [if_pos h0, h0]
    simp [octets]
  · have hbe : beNat (toOctets (op.limbs.take (limbCount z.natAbs))).reverse = z.natAbs := by
      rw [beNat, reverse_reverse, leNat_toOctets, h.magnitude.take.val]
    rw [if_neg h0, stripZeros_eq (by rw [hbe]; exact h0), hbe]
    by_cases hlen : (octets z.natAbs).length ≤ buf.length
    · rw [if_neg (not_lt.mpr hlen), if_pos hlen]
    · rw [if_pos (lt_of_not_ge hlen), if_neg hlen]

end Octets

/-- An octet string with a sign is the number it says, and comes back without the zeros in front
of it, exactly if its limbs fit the length word; any number is written with the fewest octets, or
nothing is written. -/
theorem octets_exact_iff (dest : BigInt) (b : List UInt8) (s : Int)
    (hcap : octetLimbs b ≤ cap dest) :
    ((∃ d, fromOctetString dest b s = .ok (none, d) ∧ cap d = cap dest ∧
        Holds d (if s < 0 then -(beNat b : Int) else beNat b) ∧
        ∀ buf : List UInt8, (b.dropWhile (· == 0)).length ≤ buf.length → toOctetString d buf =
          (.ok (b.dropWhile (· == 0)).length,
            b.dropWhile (· == 0) ++ buf.drop (b.dropWhile (· == 0)).length)) ↔
      limbCount (beNat b) ≤ octetLimbs b % 2 ^ 32) ∧
    ∀ op z (buf : List UInt8), Holds op z → toOctetString op buf =
      if (octets z.natAbs).length ≤ buf.length then
        (.ok (octets z.natAbs).length, octets z.natAbs ++ buf.drop (octets z.natAbs).length)
      else (.err .shortBuffer, buf) := by
  refine ⟨?_, fun op z buf h => toOctetString_eq buf h⟩
  obtain ⟨d, hfrom, hcapd, hmag, hflags⟩ := fromOctetString_eq dest b s hcap
  have habs : (if s < 0 then -(beNat b : Int) else beNat b).natAbs = beNat b := by
    split <;> simp
  rw [limbCount_le_iff]
  constructor
  · rintro ⟨d', hfrom', -, hholds, -⟩
    obtain rfl : d' = d := by simpa using hfrom'.symm.trans hfrom
    have hvalue := hholds.magnitude.unique hmag
    rw [habs] at hvalue
    rw [hvalue]
    exact Nat.mod_lt _ (Nat.two_pow_pos _)
  · intro hfits
    rw [Nat.mod_eq_of_lt hfits] at hmag hflags
    have hholds : Holds d (if s < 0 then -(beNat b : Int) else beNat b) := by
      refine hmag.holds habs (hflags.trans ?_)
      unfold signFlag
      by_cases h0 : beNat b = 0
      · simp [h0]
      · by_cases hs : s < 0
        · rw [if_neg h0, if_pos hs, if_pos hs, if_pos (by omega)]
        · rw [if_neg h0, if_neg hs, if_neg hs, if_neg (by omega)]
    refine ⟨d, hfrom, hcapd, hholds, fun buf hlen => ?_⟩
    rw [toOctetString_eq buf hholds, habs, octets_eq_dropWhile, if_pos hlen]

theorem octets_exact_iff_sample :
    (∃ d, fromOctetString (zeroed 4) [0, 1, 2] 1 = .ok (none, d) ∧ cap d = cap (zeroed 4) ∧
        Holds d (if (1 : Int) < 0 then -(beNat [0, 1, 2] : Int) else beNat [0, 1, 2]) ∧
        ∀ buf : List UInt8, 2 ≤ buf.length → toOctetString d buf = (.ok 2, [1, 2] ++ buf.drop 2)) ↔
      limbCount (beNat [0, 1, 2]) ≤ octetLimbs [0, 1, 2] % 2 ^ 32 :=
  (octets_exact_iff (zeroed 4) [0, 1, 2] 1 (by decide)).1

/-- 2^34 octets fill 2^32 limbs, which the length word says as none. -/
theorem long_octets_lost : ∃ (b : List UInt8) (d : BigInt), b.length = 2 ^ 34 ∧ beNat b ≠ 0 ∧
    octetLimbs b = cap (zeroed (2 ^ 32 + 2)) ∧
    fromOctetString (zeroed (2 ^ 32 + 2)) b 1 = .ok (none, d) ∧ Holds d 0 := by
  obtain ⟨k, hk⟩ : ∃ k, k = 2 ^ 34 := ⟨_, rfl⟩
  have hlimbs : octetLimbs (replicate k (1 : UInt8)) = 2 ^ 32 := by
    rw [octetLimbs, length_replicate, hk]
    norm_num
  have hcap : cap (zeroed (2 ^ 32 + 2)) = 2 ^ 32 := by rw [cap_zeroed, Nat.add_sub_cancel]
  obtain ⟨d, hfrom, -, hmag, hflags⟩ := fromOctetString_eq (zeroed (2 ^ 32 + 2))
    (replicate k 1) 1 (by rw [hlimbs, hcap])
  have hnone : beNat (replicate k (1 : UInt8)) %
      2 ^ (32 * (octetLimbs (replicate k (1 : UInt8)) % 2 ^ 32)) = 0 := by
    rw [hlimbs, Nat.mod_self, mul_zero, pow_zero, Nat.mod_one]
  rw [hnone] at hmag hflags
  refine ⟨replicate k 1, d, by rw [length_replicate, hk], ?_, hlimbs.trans hcap.symm,
    hfrom, hmag.holds rfl (hflags.trans (if_pos rfl))⟩
  obtain ⟨j, rfl⟩ : ∃ j, k = j + 1 := ⟨2 ^ 34 - 1, by omega⟩
  rw [beNat, reverse_replicate, replicate_succ, leNat]
  have : (1 : UInt8).toNat = 1 := rfl
  omega

end Rustee.Arith
