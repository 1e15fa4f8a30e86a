import Mathlib.Logic.Equiv.Basic
import Rustee.RustBytes

/-!
# The AES modes of `rustee-crypto` (`provider.rs`)

CBC and CTR over any block cipher; that decryption undoes encryption is assumed where it is used. A
mode runs through its buffer once from the left, so what it writes is the list of what it has put
out so far; CTR counts its blocks in the 16 octets of the counter, the last one first.
-/

namespace Rustee.Modes

open List Block

/-! ### The functions -/

abbrev Bytes := List UInt8

inductive AesKeyBytes where
  | k128 (k : Block 16)
  | k256 (k : Block 32)

inductive CryptoError where
  | invalidLength
deriving Repr, DecidableEq

/-- The `aes` crate. -/
structure Aes where
  encryptBlock : AesKeyBytes → Block 16 → Block 16
  decryptBlock : AesKeyBytes → Block 16 → Block 16

def Aes.Inverts (aes : Aes) : Prop := ∀ k b, aes.decryptBlock k (aes.encryptBlock k b) = b

/-- `Block::from_slice` of at least 16 octets. -/
def ofBytes (bytes : Bytes) : Block 16 := ⟨resize bytes 16, length_resize bytes 16⟩

/-- `data.chunks(16)` for a whole number of blocks. -/
def chunks (data : Bytes) : List (Block 16) :=
  if data.length < 16 then [] else ofBytes data :: chunks (data.drop 16)
termination_by data.length

def joined (bs : List (Block 16)) : Bytes := bs.flatMap bytes

def xor (a b : Block 16) : Block 16 := ⟨zipWith (· ^^^ ·) a.bytes b.bytes, by simp⟩

/-- The result, and the output buffer afterwards. -/
abbrev Written := Except CryptoError Unit × Bytes

/-- The last octet first: the ones that wrap round hand the carry on. -/
def incLe : Bytes → Bytes
  | [] => []
  | b :: bs => if b + 1 ≠ 0 then (b + 1) :: bs else (b + 1) :: incLe bs

def increment (ctr : Block 16) : Block 16 := ofBytes (incLe ctr.bytes.reverse).reverse

section Functions

variable (aes : Aes) (key : AesKeyBytes)

def aesCrypt (data out : Bytes) (encrypt : Bool) : Written :=
  if data.length % 16 ≠ 0 ∨ out.length ≠ data.length then (.error .invalidLength, out)
  else (.ok (), joined ((chunks data).map
    (if encrypt then aes.encryptBlock key else aes.decryptBlock key)))

/-- What the loop puts out before it ends; `outb` is what it encrypts into. -/
def cbcEncryptLoop : List (Block 16) → Block 16 → Bytes → Written
  | [], _, _ => (.ok (), [])
  | chunk :: rest, prev, outb =>
    match aesCrypt aes key (xor chunk prev).bytes outb true with
    | (.error e, _) => (.error e, [])
    | (.ok _, outb) =>
      let r := cbcEncryptLoop rest (ofBytes outb) outb
      (r.1, outb ++ r.2)

def aesCbcEncrypt (iv : Block 16) (pt ct : Bytes) : Written :=
  if pt.length % 16 ≠ 0 ∨ ct.length ≠ pt.length then (.error .invalidLength, ct)
  else
    let r := cbcEncryptLoop aes key (chunks pt) iv (zero 16).bytes
    (r.1, r.2 ++ ct.drop r.2.length)

def cbcDecryptLoop : List (Block 16) → Block 16 → Bytes → Written
  | [], _, _ => (.ok (), [])
  | chunk :: rest, prev, dec =>
    match aesCrypt aes key chunk.bytes dec false with
    | (.error e, _) => (.error e, [])
    | (.ok _, dec) =>
      let r := cbcDecryptLoop rest chunk dec
      (r.1, (xor (ofBytes dec) prev).bytes ++ r.2)

def aesCbcDecrypt (iv : Block 16) (ct pt : Bytes) : Written :=
  if ct.length % 16 ≠ 0 ∨ pt.length ≠ ct.length then (.error .invalidLength, pt)
  else
    let r := cbcDecryptLoop aes key (chunks ct) iv (zero 16).bytes
    (r.1, r.2 ++ pt.drop r.2.length)

/-- The rest of the buffer; a turn takes at least one octet, so its length is enough turns. -/
def ctrLoop : Nat → Block 16 → Bytes → Bytes → Written
  | 0, _, _, rest => (.ok (), rest)
  | turns + 1, ctr, ks, rest =>
    if rest = [] then (.ok (), [])
    else
      match aesCrypt aes key ctr.bytes ks true with
      | (.error e, _) => (.error e, rest)
      | (.ok _, ks) =>
        let r := ctrLoop turns (increment ctr) ks (rest.drop 16)
        (r.1, zipWith (· ^^^ ·) (rest.take 16) ks ++ r.2)

def aesCtr (iv : Block 16) (inout : Bytes) : Written :=
  ctrLoop aes key inout.length iv (zero 16).bytes inout

end Functions

/-! ### Blocks -/

theorem ofBytes_append (b : Block 16) (bs : Bytes) : ofBytes (b.bytes ++ bs) = b := by
  refine eq_of_bytes ?_
  simp [ofBytes, resize]

@[simp] theorem ofBytes_bytes (b : Block 16) : ofBytes b.bytes = b := by
  simpa using ofBytes_append b []

theorem xor_xor (a b : Block 16) : xor (xor a b) b = a := by
  refine eq_of_bytes (ext_getElem (by simp) fun i h _ => ?_)
  simp only [xor, getElem_zipWith]
  rw [UInt8.xor_assoc, UInt8.xor_self, UInt8.xor_zero]

variable (bs : List (Block 16))

@[simp] theorem length_joined : (joined bs).length = bs.length * 16 := by
  simp [joined, length_flatMap, mul_comm]

theorem joined_chunks {data : Bytes} (h : data.length % 16 = 0) : joined (chunks data) = data := by
  fun_induction chunks with
  | case1 data hshort => exact (eq_nil_of_length_eq_zero (by omega)).symm
  | case2 data hlong ih =>
    have hfull : (ofBytes data).bytes = data.take 16 := by
      simp [ofBytes, resize, Nat.sub_eq_zero_of_le (Nat.le_of_not_lt hlong)]
    have hrest := ih (by rw [length_drop]; omega)
    rw [joined] at hrest ⊢
    rw [flatMap_cons, hfull, hrest, take_append_drop]

theorem chunks_joined : chunks (joined bs) = bs := by
  induction bs with
  | nil => rw [chunks, if_pos (by simp)]
  | cons b bs ih =>
    have hcons : joined (b :: bs) = b.bytes ++ joined bs := rfl
    rw [hcons, chunks, if_neg (by simp), ofBytes_append, drop_left' (by simp), ih]

variable (aes : Aes) (key : AesKeyBytes)

/-- One block at a time, as the modes call it. -/
theorem aesCrypt_block (b : Block 16) {out : Bytes} (hout : out.length = 16) (e : Bool) :
    aesCrypt aes key b.bytes out e =
      (.ok (), (if e then aes.encryptBlock key b else aes.decryptBlock key b).bytes) := by
  have hone : chunks b.bytes = [b] := by
    have := chunks_joined [b]
    rwa [joined, flatMap_singleton] at this
  rw [aesCrypt, if_neg (by simp [hout]), hone]
  cases e <;> simp [joined]

/-! ### Cipher block chaining -/

/-- `c_i = E(p_i xor c_(i-1))` -/
def cbc : List (Block 16) → Block 16 → List (Block 16)
  | [], _ => []
  | p :: ps, prev =>
    aes.encryptBlock key (xor p prev) :: cbc ps (aes.encryptBlock key (xor p prev))

variable (ps : List (Block 16)) (prev : Block 16)

theorem length_cbc : (cbc aes key ps prev).length = ps.length := by
  induction ps generalizing prev with
  | nil => rfl
  | cons p ps ih => simp [cbc, ih]

theorem cbc_eq_zipWith : cbc aes key ps prev =
    zipWith (fun p c => aes.encryptBlock key (xor p c)) ps (prev :: cbc aes key ps prev) := by
  induction ps generalizing prev with
  | nil => rfl
  | cons p ps ih => exact congrArg (_ :: ·) (ih _)

theorem cbcEncryptLoop_eq {outb : Bytes} (hout : outb.length = 16) :
    cbcEncryptLoop aes key ps prev outb = (.ok (), joined (cbc aes key ps prev)) := by
  induction ps generalizing prev outb with
  | nil => rfl
  | cons p ps ih =>
    rw [cbcEncryptLoop, aesCrypt_block aes key _ hout]
    simp only [if_true, ofBytes_bytes, ih _ (length_bytes _)]
    rfl

theorem cbcDecryptLoop_eq (haes : aes.Inverts) {dec : Bytes} (hdec : dec.length = 16) :
    cbcDecryptLoop aes key (cbc aes key ps prev) prev dec = (.ok (), joined ps) := by
  induction ps generalizing prev dec with
  | nil => rfl
  | cons p ps ih =>
    rw [cbc, cbcDecryptLoop, aesCrypt_block aes key _ hdec]
    simp only [Bool.false_eq_true, if_false, haes key, ofBytes_bytes, xor_xor,
      ih _ (length_bytes _)]
    rfl

theorem cbcDecryptLoop_ok {dec : Bytes} (hdec : dec.length = 16) :
    (cbcDecryptLoop aes key ps prev dec).1 = .ok () := by
  induction ps generalizing prev dec with
  | nil => rfl
  | cons p ps ih =>
    rw [cbcDecryptLoop, aesCrypt_block aes key _ hdec]
    exact ih _ (length_bytes _)

variable {pt out : Bytes} (iv : Block 16)

theorem length_joined_cbc (hpt : pt.length % 16 = 0) :
    (joined (cbc aes key (chunks pt) iv)).length = pt.length := by
  rw [length_joined, length_cbc, ← length_joined, joined_chunks hpt]

theorem aesCbcEncrypt_eq (hpt : pt.length % 16 = 0)
    (hout : out.length = pt.length) :
    aesCbcEncrypt aes key iv pt out = (.ok (), joined (cbc aes key (chunks pt) iv)) := by
  rw [aesCbcEncrypt, if_neg (by simp [hpt, hout]), cbcEncryptLoop_eq aes key _ _ (by simp)]
  simp [length_joined_cbc aes key iv hpt, hout]

theorem aesCbcDecrypt_eq (haes : aes.Inverts) (hpt : pt.length % 16 = 0)
    (hout : out.length = pt.length) :
    aesCbcDecrypt aes key iv (joined (cbc aes key (chunks pt) iv)) out = (.ok (), pt) := by
  rw [aesCbcDecrypt, if_neg (by simp [length_joined_cbc aes key iv hpt, hpt, hout]),
    chunks_joined, cbcDecryptLoop_eq aes key _ _ haes (by simp), joined_chunks hpt]
  simp [hout]

/-! ### Counter mode -/

/-- The 16 big-endian octets of `n` modulo `2^128`. -/
def counter (n : Nat) : Block 16 := ⟨(leBytes 16 n).reverse, by simp⟩

theorem counter_beNat (b : Block 16) : counter (beNat b.bytes) = b := by
  refine eq_of_bytes ?_
  have hlen : b.bytes.reverse.length = 16 := by simp
  simp [counter, beNat, leBytes_leNat hlen]

theorem incLe_leBytes (k n : Nat) : incLe (leBytes k n) = leBytes k (n + 1) := by
  induction k generalizing n with
  | zero => rfl
  | succ k ih =>
    have hnext : UInt8.ofNat n + 1 = UInt8.ofNat (n + 1) := by
      rw [UInt8.ofNat_add]
      rfl
    have hwrap : UInt8.ofNat (n + 1) = 0 ↔ (n + 1) % 256 = 0 := by
      rw [← UInt8.toNat_inj, UInt8.toNat_ofNat']
      rfl
    rw [leBytes, incLe, hnext, ih, leBytes]
    by_cases hzero : (n + 1) % 256 = 0
    · rw [if_neg (not_not_intro (hwrap.mpr hzero)), show n / 256 + 1 = (n + 1) / 256 by omega]
    · rw [if_pos (mt hwrap.mp hzero), show n / 256 = (n + 1) / 256 by omega]

theorem increment_counter (n : Nat) : increment (counter n) = counter (n + 1) := by
  have hbytes : (incLe (counter n).bytes.reverse).reverse = (counter (n + 1)).bytes := by
    rw [counter, counter, reverse_reverse, incLe_leBytes]
  rw [increment, hbytes, ofBytes_bytes]

/-- Octet `j` of the key stream from the counter `n` on. -/
def keyStream (n j : Nat) : UInt8 :=
  (aes.encryptBlock key (counter (n + j / 16))).bytes.getD (j % 16) 0

theorem ctrLoop_eq (turns : Nat) (n : Nat) {ks rest : Bytes} (hks : ks.length = 16)
    (hturns : rest.length ≤ turns) :
    ctrLoop aes key turns (counter n) ks rest =
      (.ok (), rest.mapIdx fun j b => b ^^^ keyStream aes key n j) := by
  induction turns generalizing n ks rest with
  | zero =>
    obtain rfl := eq_nil_of_length_eq_zero (Nat.le_zero.mp hturns)
    rfl
  | succ turns ih =>
    by_cases hnil : rest = []
    · rw [ctrLoop, if_pos hnil, hnil]
      rfl
    · have hpos := length_pos_iff.mpr hnil
      rw [ctrLoop, if_neg hnil, aesCrypt_block aes key _ hks]
      simp only [if_true, increment_counter]
      rw [ih (n + 1) (length_bytes _) (by rw [length_drop]; omega)]
      refine Prod.ext rfl ?_
      conv_rhs => rw [← take_append_drop 16 rest, mapIdx_append]
      dsimp only
      congr 1
      · -- the octets of this block
        refine ext_getElem (by simp) fun j h h' => ?_
        have hj : j < 16 := by simp at h; omega
        simp [keyStream, Nat.div_eq_of_lt hj, Nat.mod_eq_of_lt hj, getD_eq_getElem?_getD,
          getElem?_eq_getElem (show j < (aes.encryptBlock key (counter n)).bytes.length by
            simpa using hj)]
      · -- those behind it, one block further on
        rcases Nat.lt_or_ge 16 rest.length with hlong | hshort
        · have hlen : (rest.take 16).length = 16 := by simp; omega
          refine congrArg (fun f => mapIdx f (rest.drop 16)) ?_
          funext j b
          rw [hlen, keyStream, keyStream, Nat.add_div_right _ (by decide), Nat.add_mod_right,
            Nat.add_assoc, Nat.add_comm 1]
        · rw [drop_eq_nil_of_le hshort, mapIdx_nil, mapIdx_nil]

theorem aesCtr_eq (inout : Bytes) : aesCtr aes key iv inout =
    (.ok (), inout.mapIdx fun j b => b ^^^ keyStream aes key (beNat iv.bytes) j) := by
  have h := ctrLoop_eq aes key inout.length (beNat iv.bytes) (length_bytes (zero 16))
    (Nat.le_refl inout.length)
  rwa [counter_beNat] at h

/-- Two calls on a buffer cut between two blocks: the second starts with the counter that the
first has reached. -/
theorem aesCtr_in_pieces (iv : Block 16) (bs : List (Block 16)) (data : Bytes) :
    aesCtr aes key iv (joined bs ++ data) = (.ok (), (aesCtr aes key iv (joined bs)).2 ++
      (aesCtr aes key (counter (beNat iv.bytes + bs.length)) data).2) := by
  have hrest := ctrLoop_eq aes key data.length (beNat iv.bytes + bs.length)
    (length_bytes (zero 16)) (Nat.le_refl _)
  rw [aesCtr_eq, aesCtr_eq, aesCtr, hrest, mapIdx_append, length_joined]
  have hshift : ∀ n k j, keyStream aes key n (j + k * 16) = keyStream aes key (n + k) j := by
    intro n k j
    rw [keyStream, keyStream, Nat.add_mul_div_right _ _ (by decide), Nat.add_mul_mod_self_right,
      Nat.add_assoc, Nat.add_comm k]
  simp only [hshift]

/-- The call succeeded, or it refused the lengths and left its output as it was. -/
def OkOrUntouched (out : Bytes) (r : Written) : Prop :=
  r.1 = .ok () ∨ r = (.error .invalidLength, out)

/-- CBC is `c_i = E(p_i xor c_(i-1))` and is undone by its decryption, CTR adds the key stream of
the counter and is undone by itself, and a call that fails writes nothing. -/
theorem modes_exact (haes : aes.Inverts) (iv : Block 16) :
    (∀ pt ct : Bytes, pt.length % 16 = 0 → ct.length = pt.length → ∃ cs : List (Block 16),
      aesCbcEncrypt aes key iv pt ct = (.ok (), joined cs) ∧
      cs = zipWith (fun p c => aes.encryptBlock key (xor p c)) (chunks pt) (iv :: cs) ∧
      ∀ out : Bytes, out.length = pt.length →
        aesCbcDecrypt aes key iv (joined cs) out = (.ok (), pt)) ∧
    (∀ data : Bytes, (aesCtr aes key iv data).1 = .ok () ∧
      (∀ j, (aesCtr aes key iv data).2[j]? = data[j]?.map fun b =>
        b ^^^ keyStream aes key (beNat iv.bytes) j) ∧
      (aesCtr aes key iv (aesCtr aes key iv data).2).2 = data) ∧
    ∀ data out : Bytes, (∀ e, OkOrUntouched out (aesCrypt aes key data out e)) ∧
      OkOrUntouched out (aesCbcEncrypt aes key iv data out) ∧
      OkOrUntouched out (aesCbcDecrypt aes key iv data out) := by
  refine ⟨?_, ?_, ?_⟩
  · intro pt ct hpt hct
    exact ⟨cbc aes key (chunks pt) iv, aesCbcEncrypt_eq aes key iv hpt hct,
      cbc_eq_zipWith aes key (chunks pt) iv,
      fun out hout => aesCbcDecrypt_eq aes key iv haes hpt hout⟩
  · intro data
    simp only [aesCtr_eq]
    refine ⟨trivial, fun j => ?_, ?_⟩
    · rw [getElem?_mapIdx]
    · refine ext_getElem (by simp) fun j h h' => ?_
      simp only [getElem_mapIdx]
      rw [UInt8.xor_assoc, UInt8.xor_self, UInt8.xor_zero]
  · intro data out
    by_cases hlen : data.length % 16 ≠ 0 ∨ out.length ≠ data.length
    · exact ⟨fun e => .inr (if_pos hlen), .inr (if_pos hlen), .inr (if_pos hlen)⟩
    · refine ⟨fun e => .inl ?_, .inl ?_, .inl ?_⟩
      · rw [aesCrypt, if_neg hlen]
      · rw [aesCbcEncrypt, if_neg hlen, cbcEncryptLoop_eq aes key _ _ (by simp)]
      · rw [aesCbcDecrypt, if_neg hlen]
        exact cbcDecryptLoop_ok aes key _ _ (by simp)

/-! ### Known answers -/

/-- Under the key 2b7e151628aed2a6abf7158809cf4f3c, AES-128 takes the first block of each pair
to the second. -/
def knownPairs : List (Block 16 × Block 16) :=
  [(counter 0x943e411dd1bf606916c281ee8c6ce8d5, counter 0xfa50f299fd99675a0592d60c12caae30),
    (counter 0x547d78cee39acbc69b25b9a057652061, counter 0xab7316115a7a679d26495b1dcd94d18b),
    (counter (2 ^ 128 - 1), counter 0x8af2860142f786f409307c1a3f7eaaac),
    (counter 0, counter 0x7df76b0c1ab899b33e42f047b91b546f)]

/-- A cipher that is AES on those blocks: it swaps the two of each pair. -/
def knownPerm : Equiv.Perm (Block 16) :=
  knownPairs.foldl (fun f p => f.trans (Equiv.swap p.1 p.2)) (Equiv.refl _)

def knownAes : Aes := ⟨fun _ => knownPerm, fun _ => knownPerm.symm⟩

def knownKey : AesKeyBytes := .k128 (counter 0x2b7e151628aed2a6abf7158809cf4f3c)

/-- Two blocks through CBC, and 20 octets through CTR, whose counter goes round from `2^128 - 1` to
0 behind the first block. -/
theorem modes_exact_sample :
    let iv := counter (2 ^ 128 - 1)
    let ps := [counter 0x6bc1bee22e409f96e93d7e117393172a,
      counter 0xae2d8a571e03ac9c9eb76fac45af8e51]
    let cs := [counter 0xfa50f299fd99675a0592d60c12caae30,
      counter 0xab7316115a7a679d26495b1dcd94d18b]
    let data := (joined ps).take 20
    aesCbcEncrypt knownAes knownKey iv (joined ps) (replicate 32 0) = (.ok (), joined cs) ∧
    aesCbcDecrypt knownAes knownKey iv (joined cs) (replicate 32 0) = (.ok (), joined ps) ∧
    (aesCtr knownAes knownKey iv data).2 = (counter 0xe13338e36cb71962e00d020b4cedbd86).bytes ++
      [0xd3, 0xda, 0xe1, 0x5b] ∧
    (aesCtr knownAes knownKey iv (aesCtr knownAes knownKey iv data).2).2 = data := by
  intro iv ps cs data
  have haes : knownAes.Inverts := fun _ => knownPerm.symm_apply_apply
  obtain ⟨hcbc, hctr, -⟩ := modes_exact knownAes knownKey haes iv
  obtain ⟨cs', henc, -, hdec⟩ := hcbc (joined ps) (replicate 32 0) (by simp) (by simp [ps])
  have hknown : aesCbcEncrypt knownAes knownKey iv (joined ps) (replicate 32 0) =
      (.ok (), joined cs) := by
    decide +kernel
  have hsame : joined cs' = joined cs := (Prod.mk.inj (henc.symm.trans hknown)).2
  rw [hsame] at hdec
  exact ⟨hknown, hdec _ (by simp [ps]), by decide +kernel, (hctr data).2.2⟩

end Rustee.Modes
