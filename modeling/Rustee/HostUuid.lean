import Mathlib.Data.List.Induction
import Rustee.GuestMsg

/-!
# The UUID codecs of the two sides

A TA is named by 16 bytes. In a MSG they travel as two 64-bit words, and four places pack or unpack
them: the Linux driver (`rustee_virt.c`), the client (`gp-client`), the guest (`proto_cmd.rs`) and
the supplicant, which prints the words as a file name. Client, guest and supplicant agree on every
UUID: the words are the bytes read big-endian. The driver reads the three leading fields
little-endian.
-/

namespace Rustee

open Virt

/-! ### Packing the words -/

/-- `(time_low << 32) | (time_mid << 16) | time_hi` -/
def packHi (timeLow : UInt32) (timeMid timeHi : UInt16) : UInt64 :=
  (timeLow.toUInt64 <<< 32) ||| (timeMid.toUInt64 <<< 16) ||| timeHi.toUInt64

/-- The loop `lo |= b[i] << (56 - i * 8)`. -/
def packLo : List UInt8 → Nat → UInt64 → UInt64
  | [], _, lo => lo
  | b :: bs, i, lo => packLo bs (i + 1) (lo ||| (b.toUInt64 <<< UInt64.ofNat (56 - i * 8)))

theorem toNat_shiftLeft_of_lt {x : UInt64} {k : Nat} (hk : k < 64)
    (h : x.toNat * 2 ^ k < 2 ^ 64) : (x <<< UInt64.ofNat k).toNat = x.toNat * 2 ^ k := by
  have hword : (UInt64.ofNat k).toNat % 64 = k := by
    rw [UInt64.toNat_ofNat']
    omega
  rw [UInt64.toNat_shiftLeft, hword, Nat.shiftLeft_eq, Nat.mod_eq_of_lt h]

theorem or_of_lt {x y k : Nat} (h : y < 2 ^ k) : x * 2 ^ k ||| y = x * 2 ^ k + y := by
  rw [← Nat.shiftLeft_eq, Nat.shiftLeft_add_eq_or_of_lt h]

theorem toNat_packHi (timeLow : UInt32) (timeMid timeHi : UInt16) :
    (packHi timeLow timeMid timeHi).toNat =
      timeLow.toNat * 2 ^ 32 + timeMid.toNat * 2 ^ 16 + timeHi.toNat := by
  have hlow := timeLow.toNat_lt
  have hmid := timeMid.toNat_lt
  have hhi := timeHi.toNat_lt
  have hlow' : (timeLow.toUInt64 <<< 32).toNat = timeLow.toNat * 2 ^ 32 :=
    toNat_shiftLeft_of_lt (x := timeLow.toUInt64) (k := 32) (by decide) (by
      rw [UInt32.toNat_toUInt64]
      omega)
  have hmid' : (timeMid.toUInt64 <<< 16).toNat = timeMid.toNat * 2 ^ 16 :=
    toNat_shiftLeft_of_lt (x := timeMid.toUInt64) (k := 16) (by decide) (by
      rw [UInt16.toNat_toUInt64]
      omega)
  have hjoin : timeLow.toNat * 2 ^ 32 + timeMid.toNat * 2 ^ 16 =
      (timeLow.toNat * 2 ^ 16 + timeMid.toNat) * 2 ^ 16 := by
    omega
  rw [packHi, UInt64.toNat_or, UInt64.toNat_or, hlow', hmid', UInt16.toNat_toUInt64,
    or_of_lt (by omega), hjoin, or_of_lt hhi]

variable {bs : List UInt8}

theorem toNat_packLo {i v : Nat} {lo : UInt64} (hlen : i + bs.length ≤ 8)
    (hlo : lo.toNat = v * 256 ^ (8 - i)) :
    (packLo bs i lo).toNat = (v * 256 ^ bs.length + beNat bs) * 256 ^ (8 - i - bs.length) := by
  induction bs generalizing i v lo with
  | nil => simpa [packLo, beNat, leNat] using hlo
  | cons b bs ih =>
    rw [List.length_cons] at hlen
    have hb := b.toNat_lt
    obtain ⟨k, hk⟩ : ∃ k, 8 - i = k + 1 := ⟨7 - i, by omega⟩
    have hamount : 56 - i * 8 = 8 * k := by omega
    have hpow : 256 ^ k = 2 ^ (8 * k) := by rw [Nat.pow_mul]
    have hnext : 256 ^ (k + 1) = 2 ^ (8 * k) * 256 := by rw [Nat.pow_succ, hpow]
    have hbound : 2 ^ (8 * k) ≤ 2 ^ 56 := Nat.pow_le_pow_right (by decide) (by omega)
    have hbyte : b.toNat * 2 ^ (8 * k) < 2 ^ (8 * k) * 256 := by
      rw [Nat.mul_comm]
      exact Nat.mul_lt_mul_of_pos_left hb (Nat.two_pow_pos _)
    have hshift : (b.toUInt64 <<< UInt64.ofNat (56 - i * 8)).toNat = b.toNat * 2 ^ (8 * k) := by
      rw [hamount, toNat_shiftLeft_of_lt (by omega), UInt8.toNat_toUInt64]
      rw [UInt8.toNat_toUInt64]
      omega
    have hstep : (lo ||| (b.toUInt64 <<< UInt64.ofNat (56 - i * 8))).toNat =
        (v * 256 + b.toNat) * 256 ^ (8 - (i + 1)) := by
      have hexp : 8 - (i + 1) = k := by omega
      have hwide : v * 256 ^ (k + 1) = v * 2 ^ (8 * k + 8) := by
        rw [hnext, Nat.pow_add]
      rw [UInt64.toNat_or, hshift, hlo, hk, hwide, or_of_lt (by rw [Nat.pow_add]; exact hbyte),
        hexp, hpow, Nat.pow_add, Nat.add_mul, ← Nat.mul_assoc, Nat.mul_right_comm]
    have hsplit : beNat (b :: bs) = b.toNat * 256 ^ bs.length + beNat bs := by
      have happend := beNat_append [b] bs
      simpa [beNat, leNat] using happend
    rw [packLo, ih (by omega) hstep, hsplit, List.length_cons, Nat.pow_succ]
    congr 1
    · rw [Nat.add_mul, Nat.mul_assoc, Nat.mul_comm 256, Nat.add_assoc]
    · congr 1
      omega


theorem packLo_eq (hlen : bs.length = 8) : packLo bs 0 0 = UInt64.ofNat (beNat bs) := by
  have hlo : (0 : UInt64).toNat = 0 * 256 ^ (8 - 0) := rfl
  have hnum : (packLo bs 0 0).toNat =
      (0 * 256 ^ bs.length + beNat bs) * 256 ^ (8 - 0 - bs.length) :=
    toNat_packLo (by omega) hlo
  have hlt : beNat bs < 256 ^ 8 := beNat_lt_of_le (Nat.le_of_eq hlen)
  rw [hlen] at hnum
  apply UInt64.toNat_inj.mp
  rw [hnum, UInt64.toNat_ofNat']
  omega

/-! ### The driver -/

namespace Driver

/-- `get_unaligned_le32` and `get_unaligned_le16` of the three leading fields -/
def rusteeUuidHi (u : Bytes) : UInt64 := packHi (u32At u 0) (u16At u 4) (u16At u 6)

def rusteeUuidLo (u : Bytes) : UInt64 := packLo ((u.drop 8).take 8) 0 0

end Driver

/-! ### The client library -/

namespace Client

/-- `gp_client::Uuid` -/
structure Uuid where
  timeLow : UInt32
  timeMid : UInt16
  timeHiAndVersion : UInt16
  clockSeqAndNode : Block 8
deriving Repr, DecidableEq

namespace Uuid

def words (u : Uuid) : UInt64 × UInt64 :=
  (packHi u.timeLow u.timeMid u.timeHiAndVersion, packLo u.clockSeqAndNode.bytes 0 0)

theorem length_node (b : Vector UInt8 16) : (b.toList.drop 8).length = 8 := by
  rw [List.length_drop, Vector.length_toList]

def fromBytes (b : Vector UInt8 16) : Uuid where
  timeLow := UInt32.ofNat (beNat (b.toList.take 4))
  timeMid := UInt16.ofNat (beNat ((b.toList.drop 4).take 2))
  timeHiAndVersion := UInt16.ofNat (beNat ((b.toList.drop 6).take 2))
  clockSeqAndNode := ⟨b.toList.drop 8, length_node b⟩

end Uuid

end Client

/-! ### The supplicant -/

/-- The `k` lowest hexadecimal digits of a number. -/
def hexPadded : Nat → Nat → List Char
  | 0, _ => []
  | k + 1, n => hexPadded k (n / 16) ++ [Nat.digitChar (n % 16)]

/-- `format!("{:016x}{:016x}", hi, lo)`: a word has at most 16 digits. -/
def hexWords (hi lo : UInt64) : List Char := hexPadded 16 hi.toNat ++ hexPadded 16 lo.toNat

def hexBytes (bytes : Bytes) : List Char := bytes.flatMap fun b => hexPadded 2 b.toNat

theorem hexPadded_beNat (bytes : Bytes) :
    hexPadded (2 * bytes.length) (beNat bytes) = hexBytes bytes := by
  induction bytes using List.reverseRecOn with
  | nil => rfl
  | append_singleton bs b ih =>
    have hb := b.toNat_lt
    have hnum : beNat (bs ++ [b]) = beNat bs * 256 + b.toNat := by
      rw [beNat_append]
      simp [beNat, leNat]
    have hdigits : ∀ n, hexPadded (2 * (bs ++ [b]).length) n =
        hexPadded (2 * bs.length) (n / 16 / 16) ++ [Nat.digitChar (n / 16 % 16)] ++
          [Nat.digitChar (n % 16)] := by
      intro n
      rw [List.length_append, List.length_singleton, Nat.mul_add]
      rfl
    have hlast : hexPadded 2 b.toNat =
        [Nat.digitChar (b.toNat / 16 % 16), Nat.digitChar (b.toNat % 16)] := rfl
    have hrest : (beNat bs * 256 + b.toNat) / 16 / 16 = beNat bs := by omega
    have hupper : (beNat bs * 256 + b.toNat) / 16 % 16 = b.toNat / 16 % 16 := by omega
    have hlower : (beNat bs * 256 + b.toNat) % 16 = b.toNat % 16 := by omega
    rw [hdigits, hnum, hrest, hupper, hlower, ih, hexBytes, hexBytes, List.flatMap_append,
      List.flatMap_singleton, hlast, List.append_assoc]
    rfl

/-! ### Client, guest and supplicant agree -/

def beWords (b : Vector UInt8 16) : UInt64 × UInt64 :=
  (UInt64.ofNat (beNat (b.toList.take 8)), UInt64.ofNat (beNat (b.toList.drop 8)))

section Agreement

variable (b : Vector UInt8 16)

theorem take_eight : b.toList.take 8 =
    b.toList.take 4 ++ ((b.toList.drop 4).take 2 ++ (b.toList.drop 6).take 2) := by
  have hlast : (b.toList.drop 4).take 4 = (b.toList.drop 4).take 2 ++ (b.toList.drop 6).take 2 := by
    rw [show 4 = 2 + 2 from rfl, List.take_add, List.drop_drop]
  rw [← hlast, show 8 = 4 + 4 from rfl, List.take_add]

/-- `from_bytes` followed by `words` -/
theorem words_fromBytes : (Client.Uuid.fromBytes b).words = beWords b := by
  have hlow : (b.toList.take 4).length ≤ 4 := by simp
  have hmid : ((b.toList.drop 4).take 2).length = 2 := by simp
  have hhi : ((b.toList.drop 6).take 2).length = 2 := by simp
  have hfst : packHi (UInt32.ofNat (beNat (b.toList.take 4)))
      (UInt16.ofNat (beNat ((b.toList.drop 4).take 2)))
      (UInt16.ofNat (beNat ((b.toList.drop 6).take 2))) =
        UInt64.ofNat (beNat (b.toList.take 8)) := by
    apply UInt64.toNat_inj.mp
    rw [toNat_packHi, UInt32.toNat_ofNat_of_lt' (beNat_lt_of_le hlow),
      UInt16.toNat_ofNat_of_lt' (beNat_lt_of_le (Nat.le_of_eq hmid)),
      UInt16.toNat_ofNat_of_lt' (beNat_lt_of_le (Nat.le_of_eq hhi)),
      UInt64.toNat_ofNat_of_lt' (beNat_lt_of_le (n := 8) (by simp)), take_eight, beNat_append,
      beNat_append, List.length_append, hmid, hhi]
    omega
  exact Prod.ext hfst (packLo_eq (Client.Uuid.length_node b))

theorem uuidToWords_eq : Guest.uuidToWords ⟨b⟩ = beWords b := rfl

theorem beByte_ofNat {bytes : Bytes} (hlen : bytes.length = 8) {i : Nat} (hi : i < 8) :
    Guest.beByte (UInt64.ofNat (beNat bytes)) i = bytes.getD i 0 := by
  have hshift : (UInt64.ofNat (8 * (7 - i))).toNat % 64 = 8 * (7 - i) := by
    rw [UInt64.toNat_ofNat']
    omega
  have hbyte := leNat_div_mod bytes.reverse (7 - i)
  have hindex : bytes.reverse.getD (7 - i) 0 = bytes.getD i 0 := by
    rw [List.getD_eq_getElem?_getD, List.getD_eq_getElem?_getD, List.getElem?_reverse (by omega)]
    congr 2
    omega
  apply UInt8.toNat_inj.mp
  rw [← hindex, ← hbyte, Guest.beByte, UInt64.toNat_toUInt8, UInt64.toNat_shiftRight, hshift,
    UInt64.toNat_ofNat_of_lt' (beNat_lt_of_le (Nat.le_of_eq hlen)), Nat.shiftRight_eq_div_pow,
    Nat.pow_mul]
  rfl

theorem uuidFromWords_beWords : Guest.uuidFromWords (beWords b).1 (beWords b).2 = ⟨b⟩ := by
  have hfront : (b.toList.take 8).length = 8 := by simp
  have hback : (b.toList.drop 8).length = 8 := by simp
  rw [Guest.uuidFromWords]
  congr 1
  ext i hi
  rw [Vector.getElem_ofFn]
  split
  · rename_i hlt
    rw [beWords, beByte_ofNat hfront hlt]
    simp [List.getD_eq_getElem?_getD, hlt]
  · rename_i hge
    rw [beWords, beByte_ofNat hback (by omega)]
    simp [List.getD_eq_getElem?_getD, hi, Nat.add_sub_cancel' (Nat.not_lt.mp hge)]

theorem exists_beWords (hi lo : UInt64) : ∃ b, beWords b = (hi, lo) := by
  have hword : ∀ w : UInt64, UInt64.ofNat (beNat (leBytes 8 w.toNat).reverse) = w := by
    intro w
    rw [beNat, List.reverse_reverse, leNat_leBytes 8 w.toNat_lt, UInt64.ofNat_toNat]
  have hlen : ((leBytes 8 hi.toNat).reverse ++ (leBytes 8 lo.toNat).reverse).length = 16 := by
    simp
  have hfront : (leBytes 8 hi.toNat).reverse.length = 8 := by simp
  refine ⟨⟨((leBytes 8 hi.toNat).reverse ++ (leBytes 8 lo.toNat).reverse).toArray, hlen⟩, ?_⟩
  rw [beWords, Vector.toList_mk, List.take_left' hfront, List.drop_left' hfront, hword, hword]

theorem uuidToWords_uuidFromWords (hi lo : UInt64) :
    Guest.uuidToWords (Guest.uuidFromWords hi lo) = (hi, lo) := by
  obtain ⟨b, hb⟩ := exists_beWords hi lo
  have hfrom := uuidFromWords_beWords b
  rw [hb] at hfrom
  rw [hfrom, uuidToWords_eq, hb]

theorem hexWords_beWords : hexWords (beWords b).1 (beWords b).2 = hexBytes b.toList := by
  have hfront : (b.toList.take 8).length = 8 := by simp
  have hback : (b.toList.drop 8).length = 8 := by simp
  have hfst := hexPadded_beNat (b.toList.take 8)
  have hsnd := hexPadded_beNat (b.toList.drop 8)
  rw [hfront] at hfst
  rw [hback] at hsnd
  rw [hexWords, beWords, UInt64.toNat_ofNat_of_lt' (beNat_lt_of_le (Nat.le_of_eq hfront)),
    UInt64.toNat_ofNat_of_lt' (beNat_lt_of_le (Nat.le_of_eq hback)), hfst, hsnd, hexBytes, hexBytes,
    hexBytes, ← List.flatMap_append, List.take_append_drop]

/-! ### The driver -/

theorem packHi_inj {low low' : UInt32} {mid mid' hi hi' : UInt16}
    (h : packHi low mid hi = packHi low' mid' hi') : low = low' ∧ mid = mid' ∧ hi = hi' := by
  have hnum := congrArg UInt64.toNat h
  rw [toNat_packHi, toNat_packHi] at hnum
  have hmid := mid.toNat_lt
  have hmid' := mid'.toNat_lt
  have hhi := hi.toNat_lt
  have hhi' := hi'.toNat_lt
  refine ⟨UInt32.toNat_inj.mp ?_, UInt16.toNat_inj.mp ?_, UInt16.toNat_inj.mp ?_⟩
  · omega
  · omega
  · omega

/-- Bytes read the same from both ends stand for the same number in both orders, and no
others do. -/
theorem leNat_eq_beNat_iff (bytes : Bytes) : leNat bytes = beNat bytes ↔ bytes.reverse = bytes := by
  constructor
  · intro h
    exact (leNat_inj (List.length_reverse).symm h).symm
  · intro h
    rw [beNat, h]

def FieldsMirrored : Prop :=
  (b.toList.take 4).reverse = b.toList.take 4 ∧
    ((b.toList.drop 4).take 2).reverse = (b.toList.drop 4).take 2 ∧
    ((b.toList.drop 6).take 2).reverse = (b.toList.drop 6).take 2

theorem rusteeUuidLo_eq : Driver.rusteeUuidLo b.toList = (beWords b).2 := by
  have hall : (b.toList.drop 8).take 8 = b.toList.drop 8 := List.take_of_length_le (by simp)
  rw [Driver.rusteeUuidLo, hall, packLo_eq (Client.Uuid.length_node b)]
  rfl

theorem rusteeUuidHi_eq_iff : Driver.rusteeUuidHi b.toList = (beWords b).1 ↔ FieldsMirrored b := by
  have hclient : (beWords b).1 = packHi (UInt32.ofNat (beNat (b.toList.take 4)))
      (UInt16.ofNat (beNat ((b.toList.drop 4).take 2)))
      (UInt16.ofNat (beNat ((b.toList.drop 6).take 2))) := by
    rw [← words_fromBytes]
    rfl
  have hlow : (b.toList.take 4).length ≤ 4 := by simp
  have hmid : ((b.toList.drop 4).take 2).length ≤ 2 := by simp
  have hhi : ((b.toList.drop 6).take 2).length ≤ 2 := by simp
  rw [hclient]
  constructor
  · intro h
    obtain ⟨h1, h2, h3⟩ := packHi_inj h
    have h1' := congrArg UInt32.toNat h1
    have h2' := congrArg UInt16.toNat h2
    have h3' := congrArg UInt16.toNat h3
    rw [u32At, leAt, List.drop_zero, UInt32.toNat_ofNat_of_lt' (leNat_lt_of_le hlow),
      UInt32.toNat_ofNat_of_lt' (beNat_lt_of_le hlow)] at h1'
    rw [u16At, leAt, UInt16.toNat_ofNat_of_lt' (leNat_lt_of_le hmid),
      UInt16.toNat_ofNat_of_lt' (beNat_lt_of_le hmid)] at h2'
    rw [u16At, leAt, UInt16.toNat_ofNat_of_lt' (leNat_lt_of_le hhi),
      UInt16.toNat_ofNat_of_lt' (beNat_lt_of_le hhi)] at h3'
    exact ⟨(leNat_eq_beNat_iff _).mp h1', (leNat_eq_beNat_iff _).mp h2',
      (leNat_eq_beNat_iff _).mp h3'⟩
  · rintro ⟨h1, h2, h3⟩
    have h1' := (leNat_eq_beNat_iff _).mpr h1
    have h2' := (leNat_eq_beNat_iff _).mpr h2
    have h3' := (leNat_eq_beNat_iff _).mpr h3
    rw [Driver.rusteeUuidHi, u32At, u16At, u16At, leAt, leAt, leAt, List.drop_zero, h1', h2', h3']

/-- The driver, the client and the guest make the same words of the bytes, and guest and
supplicant get the bytes back from them. -/
def CodecsAgree : Prop :=
  (Driver.rusteeUuidHi b.toList, Driver.rusteeUuidLo b.toList) = (Client.Uuid.fromBytes b).words ∧
    (Client.Uuid.fromBytes b).words = Guest.uuidToWords ⟨b⟩ ∧
    Guest.uuidFromWords (Client.Uuid.fromBytes b).words.1 (Client.Uuid.fromBytes b).words.2 = ⟨b⟩ ∧
    hexWords (Client.Uuid.fromBytes b).words.1 (Client.Uuid.fromBytes b).words.2 = hexBytes b.toList

/-- **The codecs agree on a UUID exactly when each of its first three fields is its own mirror
image.** The driver reads those fields the other way round; the rest agree on every UUID. -/
theorem codecsAgree_iff : CodecsAgree b ↔ FieldsMirrored b := by
  have hpair : (Driver.rusteeUuidHi b.toList, Driver.rusteeUuidLo b.toList) = beWords b ↔
      FieldsMirrored b := by
    rw [Prod.ext_iff, rusteeUuidHi_eq_iff, rusteeUuidLo_eq]
    exact and_iff_left rfl
  rw [CodecsAgree, words_fromBytes, hpair]
  exact and_iff_left ⟨(uuidToWords_eq b).symm, uuidFromWords_beWords b, hexWords_beWords b⟩

end Agreement

/-- `HELLO_RS_UUID_BYTES` -/
def HELLO_RS_UUID_BYTES : Vector UInt8 16 :=
  #v[0x8d, 0x82, 0x5f, 0x6a, 0x1c, 0x4b, 0x4c, 0x9f, 0x9e, 0x3a, 0x2b, 0x7c, 0x6d, 0x5e, 0x4f,
    0x30]

example : hexWords (beWords HELLO_RS_UUID_BYTES).1 (beWords HELLO_RS_UUID_BYTES).2 =
    "8d825f6a1c4b4c9f9e3a2b7c6d5e4f30".toList := by
  decide +kernel

/-- For the UUID of hello-rs the driver's first word is `0x6a5f828d4b1c9f4c`. -/
theorem codecs_disagree_hello : ¬ CodecsAgree HELLO_RS_UUID_BYTES := by
  rintro ⟨hwords, -⟩
  have hhi := congrArg Prod.fst hwords
  revert hhi
  decide +kernel

end Rustee
