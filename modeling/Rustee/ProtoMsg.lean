import Rustee.GuestCodec

/-!
# The MSG codec on slices of any length (`write_msg` and `decode_msg` of `rustee-proto`)

Guest, client and supplicant read and write messages with these two functions, each in a slice of
its own. `MsgAt` says that the bytes at a cookie are the encoding of a header and its parameters,
and `decode_msg` returns exactly then. Both round trips and the frame follow from that. On the
bounce pool the functions are those of `GuestMsg`.
-/

namespace Rustee.Virt

open List

/-! ### Slices -/

/-- A byte slice: its bytes and its length. No slice is longer than `isize::MAX`. -/
structure Slice where
  bytes : Pool
  len : Nat
  fits : len < 2 ^ 63

theorem bounce_pool_fits : BOUNCE_POOL_SIZE < 2 ^ 63 := by decide

namespace Slice

/-- `copy_from_slice` into the slice from `start` on. -/
def put (s : Slice) (start : Nat) (bytes : Bytes) : Slice :=
  { s with bytes := s.bytes.put start bytes }

def ofPool (pool : Pool) : Slice := ⟨pool, BOUNCE_POOL_SIZE, bounce_pool_fits⟩

@[simp] theorem put_bytes (s : Slice) (start : Nat) (bytes : Bytes) :
    (s.put start bytes).bytes = s.bytes.put start bytes := rfl

@[simp] theorem ofPool_len (pool : Pool) : (ofPool pool).len = BOUNCE_POOL_SIZE := rfl

@[simp] theorem ofPool_bytes (pool : Pool) : (ofPool pool).bytes = pool := rfl

theorem ext_bytes {s t : Slice} (hbytes : s.bytes = t.bytes) (hlen : s.len = t.len) : s = t := by
  cases s
  cases t
  cases hbytes
  cases hlen
  rfl

end Slice

namespace Pool

theorem eq_of_byte {p q : Pool} (h : ∀ i, p.byte i = q.byte i) : p = q := by
  cases p
  cases q
  exact congrArg mk (funext h)

theorem put_get_self (p : Pool) (start len : Nat) : p.put start (p.get start len) = p := by
  apply eq_of_byte
  intro i
  by_cases hin : start ≤ i ∧ i < start + len
  · obtain ⟨off, rfl⟩ := Nat.exists_eq_add_of_le hin.1
    have hoff : off < (p.get start len).length := by
      rw [length_get]
      omega
    rw [byte_put_inside p start hoff]
    simp [get]
  · apply byte_put_outside
    rw [length_get]
    omega

theorem put_put_append (p : Pool) (start : Nat) (front back : Bytes) :
    (p.put start front).put (start + front.length) back = p.put start (front ++ back) := by
  apply eq_of_byte
  intro i
  by_cases hback : start + front.length ≤ i ∧ i < start + front.length + back.length
  · obtain ⟨off, rfl⟩ := Nat.exists_eq_add_of_le hback.1
    have hoff : off < back.length := by omega
    have hboth : front.length + off < (front ++ back).length := by
      rw [length_append]
      omega
    rw [byte_put_inside _ _ hoff, add_assoc, byte_put_inside _ _ hboth]
    simp
  · rw [byte_put_outside (by omega)]
    by_cases hfront : start ≤ i ∧ i < start + front.length
    · obtain ⟨off, rfl⟩ := Nat.exists_eq_add_of_le hfront.1
      have hoff : off < front.length := by omega
      have hboth : off < (front ++ back).length := by
        rw [length_append]
        omega
      rw [byte_put_inside _ _ hoff, byte_put_inside _ _ hboth]
      simp [getElem_append_left hoff]
    · rw [byte_put_outside (by omega), byte_put_outside (by rw [length_append]; omega)]

end Pool

/-! ### Words and the bytes they were read from -/

theorem le32_u32At {b : Bytes} {o : Nat} (h : o + 4 ≤ b.length) :
    le32 (u32At b o) = (b.drop o).take 4 := by
  have hlen := length_field h
  have hlt : leAt b o 4 < 2 ^ 32 := by
    have hbound := leNat_lt ((b.drop o).take 4)
    rw [hlen] at hbound
    exact hbound
  rw [le32, u32At, UInt32.toNat_ofNat_of_lt' hlt]
  exact leBytes_leNat hlen

theorem le64_u64At {b : Bytes} {o : Nat} (h : o + 8 ≤ b.length) :
    le64 (u64At b o) = (b.drop o).take 8 := by
  have hlen := length_field h
  have hlt : leAt b o 8 < 2 ^ 64 := by
    have hbound := leNat_lt ((b.drop o).take 8)
    rw [hlen] at hbound
    exact hbound
  rw [le64, u64At, UInt64.toNat_ofNat_of_lt' hlt]
  exact leBytes_leNat hlen

end Rustee.Virt

namespace Rustee.Guest

open Os Virt Fallible MsgArgHdr Pool

/-! ### The codec -/

/-- `MsgParam::default()` -/
def noMsgParam : MsgParam := ⟨0, 0, 0, 0⟩

/-- `[MsgParam; 6]` -/
abbrev ParamBuf := Vector MsgParam 6

/-- `off + n > pool.len()`, a `usize` sum. -/
def pastEnd (build : Build) (s : Slice) (off : UInt64) (n : Nat) : Fallible ProtoError Bool := do
  let stop ← usizeAdd build off (UInt64.ofNat n)
  .ok (stop.toNat > s.len)

/-- `MsgArgHdr::decode(&pool[off..])` -/
def hdrAt (s : Slice) (off : Nat) : Fallible ProtoError MsgArgHdr :=
  if off > s.len then .panic
  else if s.len - off < MSG_ARG_HDR_SIZE then .err .truncated
  else .ok (decode (s.bytes.get off MSG_ARG_HDR_SIZE))

/-- `MsgParam::decode(&pool[off..])` -/
def paramAt (s : Slice) (off : Nat) : Fallible ProtoError MsgParam :=
  if off > s.len then .panic
  else if s.len - off < MSG_PARAM_SIZE then .err .truncated
  else .ok (MsgParam.decode (s.bytes.get off MSG_PARAM_SIZE))

/-- The loop over the parameters, from the `i`-th on. -/
def paramLoop (s : Slice) (off : Nat) : Nat → Nat → ParamBuf → Fallible ProtoError ParamBuf
  | 0, _, params => .ok params
  | n + 1, i, params => do
    let p ← paramAt s (off + MSG_ARG_HDR_SIZE + i * MSG_PARAM_SIZE)
    if h : i < 6 then paramLoop s off n (i + 1) (params.set i p h) else .panic

/-- `decode_msg`. A first sum that wraps passes its check, and the slice panics then. -/
def decodeMsgIn (build : Build) (s : Slice) (cookie : UInt64) :
    Fallible ProtoError (MsgArgHdr × ParamBuf × Nat) := do
  if cookie.toNat % MSG_ARG_ALIGN ≠ 0 then .err .badAlign
  else if ← pastEnd build s cookie MSG_ARG_HDR_SIZE then .err .bounceOob
  else do
    let hdr ← hdrAt s cookie.toNat
    if hdr.numParams.toNat > 6 then .err .badCmd
    else if ← pastEnd build s cookie hdr.byteSize then .err .bounceOob
    else do
      let params ← paramLoop s cookie.toNat hdr.numParams.toNat 0 (Vector.replicate 6 noMsgParam)
      .ok (hdr, params, hdr.byteSize)

def writeParams (off : Nat) : List MsgParam → Nat → Slice → Slice
  | [], _, s => s
  | p :: params, i, s =>
    writeParams off params (i + 1) (s.put (off + MSG_ARG_HDR_SIZE + i * MSG_PARAM_SIZE) p.encode)

/-- `write_msg`. The sum of offset and size is checked. -/
def writeMsgIn (cookie : UInt64) (hdr : MsgArgHdr) (params : List MsgParam) :
    Attempt Slice ProtoError Nat := fun s =>
  if cookie.toNat % MSG_ARG_ALIGN ≠ 0 then (.err .badAlign, s)
  else if params.length ≠ hdr.numParams.toNat then (.err .badCmd, s)
  else if 2 ^ 64 ≤ cookie.toNat + hdr.byteSize ∨ cookie.toNat + hdr.byteSize > s.len then
    (.err .bounceOob, s)
  else (.ok hdr.byteSize, writeParams cookie.toNat params 0 (s.put cookie.toNat hdr.encode))

/-! ### Decoding and encoding undo each other -/

theorem MsgArgHdr.encode_decode {b : Bytes} (h : b.length = MSG_ARG_HDR_SIZE) :
    (decode b).encode = b := by
  rw [MSG_ARG_HDR_SIZE] at h
  have hword : ∀ o, o + 4 ≤ 32 → le32 (u32At b o) = (b.drop o).take 4 := by
    intro o ho
    exact le32_u32At (by omega)
  have hpieces := flatMap_pieces b 4 8
  rw [List.take_of_length_le (Nat.le_of_eq h)] at hpieces
  simp only [decode, encode, List.flatMap_cons]
  rw [hword 0 (by decide), hword 4 (by decide), hword 8 (by decide), hword 12 (by decide),
    hword 16 (by decide), hword 20 (by decide), hword 24 (by decide), hword 28 (by decide)]
  exact hpieces

theorem MsgParam.encode_decode {b : Bytes} (h : b.length = MSG_PARAM_SIZE) :
    (MsgParam.decode b).encode = b := by
  rw [MSG_PARAM_SIZE] at h
  have hword : ∀ o, o + 8 ≤ 32 → le64 (u64At b o) = (b.drop o).take 8 := by
    intro o ho
    exact le64_u64At (by omega)
  have hpieces := flatMap_pieces b 8 4
  rw [List.take_of_length_le (Nat.le_of_eq h)] at hpieces
  simp only [decode, encode, List.flatMap_cons]
  rw [hword 0 (by decide), hword 8 (by decide), hword 16 (by decide), hword 24 (by decide)]
  exact hpieces

theorem flatMap_encode_inj {ps qs : List MsgParam} (hlen : ps.length = qs.length)
    (h : ps.flatMap MsgParam.encode = qs.flatMap MsgParam.encode) : ps = qs := by
  induction ps generalizing qs with
  | nil => exact (List.length_eq_zero_iff.mp hlen.symm).symm
  | cons p ps ih =>
    cases qs with
    | nil => cases hlen
    | cons q =>
      rw [List.flatMap_cons, List.flatMap_cons] at h
      obtain ⟨hfirst, hrest⟩ := List.append_inj h rfl
      have hpq : p = q := by
        rw [← MsgParam.decode_encode p, hfirst, MsgParam.decode_encode]
      rw [hpq, ih (Nat.succ.inj hlen) hrest]

/-! ### What is accepted -/

/-- The bytes at the cookie are the encoding of the header and the parameters it counts. -/
structure MsgAt (s : Slice) (cookie : UInt64) (hdr : MsgArgHdr) (params : List MsgParam) :
    Prop where
  align : cookie.toNat % MSG_ARG_ALIGN = 0
  count : params.length = hdr.numParams.toNat
  few : params.length ≤ 6
  inside : cookie.toNat + hdr.byteSize ≤ s.len
  bytes : s.bytes.get cookie.toNat hdr.byteSize = msgBytes hdr params

def padded (params : List MsgParam) : ParamBuf :=
  Vector.ofFn fun i => params.getD i.val noMsgParam

section Accept

variable {build : Build} {s : Slice} {cookie : UInt64} {hdr : MsgArgHdr} {params : List MsgParam}

theorem pastEnd_eq {off : UInt64} {n : Nat} (hoff : off.toNat ≤ s.len) (hn : n < 2 ^ 32) :
    pastEnd build s off n = .ok (decide (off.toNat + n > s.len)) := by
  have hfits := s.fits
  have hword : (UInt64.ofNat n).toNat = n := toNat_ofNat_of_lt (by omega)
  have hsum : off.toNat + (UInt64.ofNat n).toNat < 2 ^ 64 := by omega
  rw [pastEnd, usizeAdd_of_lt build hsum, ok_bind, hword, toNat_ofNat_of_lt (by omega)]

variable {off : Nat}

theorem hdrAt_of_inside (h : off + MSG_ARG_HDR_SIZE ≤ s.len) :
    hdrAt s off = .ok (decode (s.bytes.get off MSG_ARG_HDR_SIZE)) := by
  rw [hdrAt, if_neg (by omega), if_neg (by omega)]

theorem hdrAt_eq_ok : hdrAt s off = .ok hdr ↔
    off + MSG_ARG_HDR_SIZE ≤ s.len ∧ decode (s.bytes.get off MSG_ARG_HDR_SIZE) = hdr := by
  constructor
  · intro h
    rw [hdrAt] at h
    split_ifs at h with hpast hshort
    exact ⟨by omega, ok.inj h⟩
  · rintro ⟨hin, rfl⟩
    exact hdrAt_of_inside hin

theorem byteSize_eq (hdr : MsgArgHdr) (off : Nat) : off + hdr.byteSize =
    off + MSG_ARG_HDR_SIZE + hdr.numParams.toNat * MSG_PARAM_SIZE := by
  rw [byteSize, mul_comm, add_assoc]

theorem byteSize_lt (hfew : hdr.numParams.toNat ≤ 6) : hdr.byteSize < 2 ^ 32 := by
  rw [byteSize, MSG_ARG_HDR_SIZE, MSG_PARAM_SIZE]
  omega

/-- The parameter in the `k`-th place behind a header. -/
def msgParamAt (s : Slice) (off k : Nat) : MsgParam :=
  MsgParam.decode (s.bytes.get (off + MSG_ARG_HDR_SIZE + k * MSG_PARAM_SIZE) MSG_PARAM_SIZE)

def paramsAt (s : Slice) (off n : Nat) : List MsgParam := (List.range n).map (msgParamAt s off)

@[simp] theorem length_paramsAt (s : Slice) (off n : Nat) : (paramsAt s off n).length = n := by
  simp [paramsAt]

theorem paramLoop_eq (n i : Nat) (buf : ParamBuf) (hi : i + n ≤ 6)
    (hin : off + MSG_ARG_HDR_SIZE + (i + n) * MSG_PARAM_SIZE ≤ s.len) :
    paramLoop s off n i buf = .ok (Vector.ofFn fun j =>
      if i ≤ j.val ∧ j.val < i + n then msgParamAt s off j.val else buf[j]) := by
  induction n generalizing i buf with
  | zero =>
    rw [paramLoop]
    congr 1
    ext j hj
    have hnone : ¬ (i ≤ j ∧ j < i + 0) := by omega
    rw [Vector.getElem_ofFn, if_neg hnone]
    rfl
  | succ n ih =>
    rw [MSG_PARAM_SIZE] at hin
    have hparam : off + MSG_ARG_HDR_SIZE + i * MSG_PARAM_SIZE + MSG_PARAM_SIZE ≤ s.len := by
      rw [MSG_PARAM_SIZE]
      omega
    have hrest : off + MSG_ARG_HDR_SIZE + (i + 1 + n) * MSG_PARAM_SIZE ≤ s.len := by
      rw [MSG_PARAM_SIZE]
      omega
    have hroom : i < 6 := by omega
    rw [paramLoop, paramAt, if_neg (by omega), if_neg (by omega), ok_bind, dif_pos hroom,
      ih (i + 1) _ (by omega) hrest]
    congr 1
    ext j hj
    simp only [Vector.getElem_ofFn]
    by_cases hji : j = i
    · subst hji
      have hfirst : j ≤ j ∧ j < j + (n + 1) := by omega
      have hnot : ¬ (j + 1 ≤ j ∧ j < j + 1 + n) := by omega
      rw [if_pos hfirst, if_neg hnot]
      simp [msgParamAt]
    · have hsame : (i + 1 ≤ j ∧ j < i + 1 + n) ↔ (i ≤ j ∧ j < i + (n + 1)) := by omega
      simp only [hsame]
      split
      · rfl
      · simp [Ne.symm hji]

theorem paramLoop_padded {n : Nat} (hn : n ≤ 6)
    (hin : off + MSG_ARG_HDR_SIZE + n * MSG_PARAM_SIZE ≤ s.len) :
    paramLoop s off n 0 (Vector.replicate 6 noMsgParam) = .ok (padded (paramsAt s off n)) := by
  rw [paramLoop_eq n 0 _ (by omega) (by rwa [Nat.zero_add])]
  congr 1
  ext j hj
  simp only [padded, Vector.getElem_ofFn, Fin.getElem_fin, Vector.getElem_replicate, Nat.zero_add]
  by_cases hjn : j < n
  · have hget : j < (paramsAt s off n).length := by
      rw [length_paramsAt]
      exact hjn
    rw [if_pos ⟨Nat.zero_le j, hjn⟩, List.getD, List.getElem?_eq_getElem hget, Option.getD_some]
    simp [paramsAt]
  · have hget : (paramsAt s off n).length ≤ j := by
      rw [length_paramsAt]
      exact Nat.not_lt.mp hjn
    rw [if_neg (fun h => hjn h.2), List.getD, List.getElem?_eq_none hget, Option.getD_none]

theorem get_msg (s : Slice) (off : Nat) (hdr : MsgArgHdr) :
    s.bytes.get off hdr.byteSize = s.bytes.get off MSG_ARG_HDR_SIZE ++
      (paramsAt s off hdr.numParams.toNat).flatMap MsgParam.encode := by
  have hparams : (paramsAt s off hdr.numParams.toNat).flatMap MsgParam.encode =
      s.bytes.get (off + MSG_ARG_HDR_SIZE) (hdr.numParams.toNat * MSG_PARAM_SIZE) := by
    have hpieces := flatMap_pieces (s.bytes.get (off + MSG_ARG_HDR_SIZE)
      (hdr.numParams.toNat * MSG_PARAM_SIZE)) MSG_PARAM_SIZE hdr.numParams.toNat
    rw [List.take_of_length_le (Nat.le_of_eq (length_get _ _ _))] at hpieces
    rw [← hpieces, paramsAt, List.flatMap_map]
    apply List.flatMap_congr
    intro i hi
    have hlt := List.mem_range.mp hi
    have hpart : i * MSG_PARAM_SIZE + MSG_PARAM_SIZE ≤ hdr.numParams.toNat * MSG_PARAM_SIZE := by
      rw [MSG_PARAM_SIZE]
      omega
    rw [drop_take_get _ hpart, msgParamAt, MsgParam.encode_decode (length_get _ _ _)]
  rw [hparams, byteSize, get_add, Nat.mul_comm]

theorem MsgAt.read (h : MsgAt s cookie hdr params) :
    decode (s.bytes.get cookie.toNat MSG_ARG_HDR_SIZE) = hdr ∧
      paramsAt s cookie.toNat hdr.numParams.toNat = params := by
  have hbytes := h.bytes
  rw [get_msg, msgBytes] at hbytes
  obtain ⟨hhdr, hparams⟩ := List.append_inj hbytes (length_get _ _ _)
  refine ⟨by rw [hhdr, decode_encode], ?_⟩
  exact flatMap_encode_inj (by rw [length_paramsAt, h.count]) hparams

/-- `decode_msg` returns exactly the messages. -/
theorem decodeMsgIn_eq_ok_iff {r : MsgArgHdr × ParamBuf × Nat} :
    decodeMsgIn build s cookie = .ok r ↔
      ∃ hdr params, MsgAt s cookie hdr params ∧ r = (hdr, padded params, hdr.byteSize) := by
  constructor
  · intro h
    rw [decodeMsgIn] at h
    split at h
    · cases h
    rename_i halign
    obtain ⟨past, -, h⟩ := bind_eq_ok.mp h
    split at h
    · cases h
    obtain ⟨hdr, hhdr, h⟩ := bind_eq_ok.mp h
    obtain ⟨hin, rfl⟩ := hdrAt_eq_ok.mp hhdr
    have hcookie : cookie.toNat ≤ s.len := by omega
    split at h
    · cases h
    rename_i hfew
    have hfew := Nat.not_lt.mp hfew
    rw [pastEnd_eq hcookie (byteSize_lt hfew), ok_bind] at h
    split at h
    · cases h
    rename_i hinside
    have hinside := Nat.not_lt.mp (of_decide_eq_false (Bool.not_eq_true _ ▸ hinside))
    rw [paramLoop_padded hfew (by rwa [byteSize_eq] at hinside), ok_bind] at h
    refine ⟨_, paramsAt s cookie.toNat _, ⟨not_not.mp halign, length_paramsAt _ _ _, ?_, hinside,
      ?_⟩, (ok.inj h).symm⟩
    · rw [length_paramsAt]
      exact hfew
    · rw [get_msg, msgBytes, encode_decode (length_get _ _ _)]
  · rintro ⟨hdr, params, hmsg, rfl⟩
    obtain ⟨hhdr, hparams⟩ := hmsg.read
    have hfew : hdr.numParams.toNat ≤ 6 := hmsg.count ▸ hmsg.few
    have hinside := hmsg.inside
    rw [byteSize_eq] at hinside
    have hcookie : cookie.toNat ≤ s.len := by omega
    have hhdrIn : cookie.toNat + MSG_ARG_HDR_SIZE ≤ s.len := by omega
    rw [decodeMsgIn, if_neg (not_not.mpr hmsg.align), pastEnd_eq hcookie (by decide),
      ok_bind, decide_eq_false (Nat.not_lt.mpr hhdrIn), if_neg Bool.false_ne_true,
      hdrAt_of_inside hhdrIn, ok_bind, hhdr, if_neg (Nat.not_lt.mpr hfew),
      pastEnd_eq hcookie (byteSize_lt hfew), ok_bind,
      decide_eq_false (Nat.not_lt.mpr hmsg.inside), if_neg Bool.false_ne_true,
      paramLoop_padded hfew hinside, ok_bind, hparams]

end Accept

/-! ### What is written -/

section Write

variable {s : Slice} {cookie : UInt64} {hdr : MsgArgHdr} {params : List MsgParam}

theorem writeParams_eq (off : Nat) (params : List MsgParam) (i : Nat) (s : Slice) :
    writeParams off params i s =
      s.put (off + MSG_ARG_HDR_SIZE + i * MSG_PARAM_SIZE) (params.flatMap MsgParam.encode) := by
  induction params generalizing i s with
  | nil => exact Slice.ext_bytes (put_nil _ _).symm rfl
  | cons p params ih =>
    have hnext : off + MSG_ARG_HDR_SIZE + (i + 1) * MSG_PARAM_SIZE =
        off + MSG_ARG_HDR_SIZE + i * MSG_PARAM_SIZE + p.encode.length := by
      rw [MsgParam.length_encode, Nat.succ_mul, ← add_assoc]
    rw [writeParams, ih, hnext, List.flatMap_cons]
    exact Slice.ext_bytes (put_put_append _ _ _ _) rfl

theorem writeMsgIn_of_inside (halign : cookie.toNat % MSG_ARG_ALIGN = 0)
    (hcount : params.length = hdr.numParams.toNat) (hinside : cookie.toNat + hdr.byteSize ≤ s.len) :
    writeMsgIn cookie hdr params s =
      (.ok hdr.byteSize, s.put cookie.toNat (msgBytes hdr params)) := by
  have hfits := s.fits
  have hone : writeParams cookie.toNat params 0 (s.put cookie.toNat hdr.encode) =
      s.put cookie.toNat (msgBytes hdr params) := by
    rw [writeParams_eq, Nat.zero_mul, Nat.add_zero]
    exact Slice.ext_bytes (put_put_append s.bytes cookie.toNat hdr.encode _) rfl
  rw [writeMsgIn, if_neg (not_not.mpr halign), if_neg (not_not.mpr hcount), if_neg (by omega), hone]

/-- `write_msg` writes a message that ends inside the slice, or nothing. -/
theorem writeMsgIn_cases (cookie : UInt64) (hdr : MsgArgHdr) (params : List MsgParam) (s : Slice) :
    (∃ e, writeMsgIn cookie hdr params s = (.err e, s)) ∨
      (cookie.toNat + hdr.byteSize ≤ s.len ∧ params.length = hdr.numParams.toNat ∧
        writeMsgIn cookie hdr params s =
          (.ok hdr.byteSize, s.put cookie.toNat (msgBytes hdr params))) := by
  by_cases halign : cookie.toNat % MSG_ARG_ALIGN = 0
  · by_cases hcount : params.length = hdr.numParams.toNat
    · by_cases hinside : cookie.toNat + hdr.byteSize ≤ s.len
      · exact .inr ⟨hinside, hcount, writeMsgIn_of_inside halign hcount hinside⟩
      · refine .inl ⟨.bounceOob, ?_⟩
        rw [writeMsgIn, if_neg (not_not.mpr halign), if_neg (not_not.mpr hcount), if_pos (by omega)]
    · refine .inl ⟨.badCmd, ?_⟩
      rw [writeMsgIn, if_neg (not_not.mpr halign), if_pos hcount]
  · refine .inl ⟨.badAlign, ?_⟩
    rw [writeMsgIn, if_pos halign]

theorem msgAt_put (halign : cookie.toNat % MSG_ARG_ALIGN = 0)
    (hcount : params.length = hdr.numParams.toNat) (hfew : params.length ≤ 6)
    (hinside : cookie.toNat + hdr.byteSize ≤ s.len) :
    MsgAt (s.put cookie.toNat (msgBytes hdr params)) cookie hdr params where
  align := halign
  count := hcount
  few := hfew
  inside := hinside
  bytes := by
    rw [Slice.put_bytes, ← length_msgBytes hcount]
    exact get_put _ _ _

theorem MsgAt.rewrite (h : MsgAt s cookie hdr params) :
    writeMsgIn cookie hdr params s = (.ok hdr.byteSize, s) := by
  rw [writeMsgIn_of_inside h.align h.count h.inside, ← h.bytes]
  congr 1
  exact Slice.ext_bytes (put_get_self _ _ _) rfl

theorem take_padded {n : Nat} (hlen : params.length = n) (hfew : n ≤ 6) :
    (padded params).toList.take n = params := by
  apply List.ext_getElem
  · rw [List.length_take, Vector.length_toList]
    omega
  · intro i hi hi'
    rw [List.getElem_take, Vector.getElem_toList]
    simp only [padded, Vector.getElem_ofFn]
    rw [List.getD, List.getElem?_eq_getElem hi', Option.getD_some]

end Write

/-- On every slice, a message that was written is decoded, nothing beside it changes, and a
message that was decoded is written back as it is. -/
theorem msg_codec_bijection (build : Build) (s : Slice) (cookie : UInt64) (hdr : MsgArgHdr)
    (params : List MsgParam) (halign : cookie.toNat % 8 = 0) (hfew : params.length ≤ 6)
    (hcount : hdr.numParams.toNat = params.length) :
    (∀ n s', writeMsgIn cookie hdr params s = (.ok n, s') →
      n = 32 + 32 * hdr.numParams.toNat ∧
      decodeMsgIn build s' cookie = .ok (hdr, padded params, n) ∧ s'.len = s.len ∧
      ∀ i, i < cookie.toNat ∨ cookie.toNat + n ≤ i → s'.bytes.byte i = s.bytes.byte i) ∧
    (∀ e s', writeMsgIn cookie hdr params s = (.err e, s') → s' = s) ∧
    (writeMsgIn cookie hdr params s).1 ≠ .panic ∧
    ∀ hdr' buf n, decodeMsgIn build s cookie = .ok (hdr', buf, n) →
      writeMsgIn cookie hdr' (buf.toList.take hdr'.numParams.toNat) s = (.ok n, s) := by
  refine ⟨?_, ?_, ?_, ?_⟩
  · intro n s' hwrite
    rcases writeMsgIn_cases cookie hdr params s with ⟨e, herr⟩ | ⟨hinside, -, hok⟩
    · rw [herr] at hwrite
      cases hwrite
    · rw [hok] at hwrite
      cases hwrite
      refine ⟨rfl, ?_, rfl, ?_⟩
      · exact decodeMsgIn_eq_ok_iff.mpr
          ⟨hdr, params, msgAt_put halign hcount.symm hfew hinside, rfl⟩
      · intro i hi
        apply byte_put_outside
        rw [length_msgBytes hcount.symm]
        exact hi
  · intro e s' hwrite
    rcases writeMsgIn_cases cookie hdr params s with ⟨e', herr⟩ | ⟨-, -, hok⟩
    · rw [herr] at hwrite
      cases hwrite
      rfl
    · rw [hok] at hwrite
      cases hwrite
  · rcases writeMsgIn_cases cookie hdr params s with ⟨e, herr⟩ | ⟨-, -, hok⟩
    · rw [herr]
      simp
    · rw [hok]
      simp
  · intro hdr' buf n hdecode
    obtain ⟨hdr₀, params₀, hmsg, heq⟩ := decodeMsgIn_eq_ok_iff.mp hdecode
    cases heq
    rw [take_padded hmsg.count (hmsg.count ▸ hmsg.few)]
    exact hmsg.rewrite

theorem page_fits : 4096 < 2 ^ 63 := by decide

def zeroSlice : Slice := ⟨⟨fun _ => 0⟩, 4096, page_fits⟩

/-- The request of a client to open a session, without the parameters of the user. -/
def openHdr : MsgArgHdr := ⟨MSG_CMD_OPEN_SESSION, 0, 0, 0, 0, 0, 0, 2⟩

def openMetas : List MsgParam :=
  [⟨ATTR_TYPE_VALUE_INPUT ||| ATTR_META, 0x11, 0x22, 0⟩,
    ⟨ATTR_TYPE_VALUE_INPUT ||| ATTR_META, 0, 0, 0⟩]

theorem msg_codec_bijection_sample :
    ∃ s', writeMsgIn 64 openHdr openMetas zeroSlice = (.ok 96, s') ∧
      decodeMsgIn .release s' 64 = .ok (openHdr, padded openMetas, 96) := by
  have hbij := msg_codec_bijection .release zeroSlice 64 openHdr openMetas rfl (by decide) rfl
  exact ⟨_, rfl, (hbij.1 _ _ rfl).2.1⟩

/-! ### On the bounce pool -/

def counted (r : MsgArgHdr × ParamBuf × Nat) : MsgArgHdr × List MsgParam :=
  (r.1, r.2.1.toList.take r.1.numParams.toNat)

variable (build : Build)

theorem pastPool_eq_pastEnd (pool : Pool) (off : UInt64) (n : Nat) :
    pastPool build off n = pastEnd build (.ofPool pool) off n := rfl

/-- `decode_msg` of the guest is that of the protocol at the bounce pool. -/
theorem decodeMsg_eq_in (pool : Pool) (cookie : UInt64) : decodeMsg build pool cookie =
      (do let r ← decodeMsgIn build (.ofPool pool) cookie; .ok (counted r)) := by
  rw [decodeMsg, decodeMsgIn]
  simp only [pastPool_eq_pastEnd build pool]
  by_cases halign : cookie.toNat % MSG_ARG_ALIGN ≠ 0
  · rw [if_pos halign, if_pos halign, err_bind]
  rw [if_neg halign, if_neg halign, bind_assoc]
  by_cases hcookie : cookie.toNat > BOUNCE_POOL_SIZE
  · congr 1
    funext past
    rw [if_pos hcookie, hdrAt, Slice.ofPool_len, if_pos hcookie]
    cases past with
    | true | false => rfl
  have hcookie := Nat.not_lt.mp hcookie
  rw [pastEnd_eq hcookie (by decide), ok_bind, ok_bind, Slice.ofPool_len]
  by_cases hpast : cookie.toNat + MSG_ARG_HDR_SIZE > BOUNCE_POOL_SIZE
  · rw [decide_eq_true hpast]
    rfl
  rw [decide_eq_false hpast, if_neg Bool.false_ne_true, if_neg Bool.false_ne_true,
    if_neg (Nat.not_lt.mpr hcookie), hdrAt_of_inside (Nat.not_lt.mp hpast), ok_bind,
    Slice.ofPool_bytes]
  generalize decode (pool.get cookie.toNat MSG_ARG_HDR_SIZE) = hdr
  by_cases hfew : hdr.numParams.toNat > 6
  · rw [if_pos hfew, if_pos hfew, err_bind]
  have hfew := Nat.not_lt.mp hfew
  rw [if_neg (Nat.not_lt.mpr hfew), if_neg (Nat.not_lt.mpr hfew),
    pastEnd_eq hcookie (byteSize_lt hfew), ok_bind, ok_bind, Slice.ofPool_len]
  by_cases hinside : cookie.toNat + hdr.byteSize > BOUNCE_POOL_SIZE
  · rw [decide_eq_true hinside]
    rfl
  have hparams : cookie.toNat + MSG_ARG_HDR_SIZE + hdr.numParams.toNat * MSG_PARAM_SIZE ≤
      (Slice.ofPool pool).len := by
    rw [← byteSize_eq]
    exact Nat.not_lt.mp hinside
  rw [decide_eq_false hinside, if_neg Bool.false_ne_true, if_neg Bool.false_ne_true,
    paramLoop_padded hfew hparams, ok_bind, ok_bind, counted,
    take_padded (length_paramsAt _ _ _) hfew]
  rfl

/-- `write_msg` of the guest is that of the protocol at the bounce pool. -/
theorem writeMsgIn_eq_writeMsg (pool : Pool) (cookie : UInt64) (hdr : MsgArgHdr)
    (params : List MsgParam) :
    writeMsgIn cookie hdr params (.ofPool pool) =
      match writeMsg pool cookie hdr params with
      | .ok (n, pool') => (.ok n, .ofPool pool')
      | .error e => (.err e, .ofPool pool) := by
  rw [writeMsg]
  by_cases halign : cookie.toNat % MSG_ARG_ALIGN ≠ 0
  · rw [writeMsgIn, if_pos halign, if_pos halign]
  by_cases hcount : params.length ≠ hdr.numParams.toNat
  · rw [writeMsgIn, if_neg halign, if_neg halign, if_pos hcount, if_pos hcount]
  by_cases hpast : cookie.toNat + hdr.byteSize > BOUNCE_POOL_SIZE
  · rw [writeMsgIn, if_neg halign, if_neg halign, if_neg hcount, if_neg hcount, if_pos hpast,
      Slice.ofPool_len, if_pos (.inr hpast)]
  · rw [if_neg halign, if_neg hcount, if_neg hpast,
      writeMsgIn_of_inside (not_not.mp halign) (not_not.mp hcount) (Nat.not_lt.mp hpast)]
    rfl

/-- A message that fits the pool is read as it was written. -/
theorem decodeMsg_of_bytes {cookie : UInt64} {hdr : MsgArgHdr}
    {params : List MsgParam} (h : MsgFits cookie hdr params) {pool : Pool}
    (hbytes : pool.get cookie.toNat hdr.byteSize = msgBytes hdr params) :
    decodeMsg build pool cookie = .ok (hdr, params) := by
  have hmsg : MsgAt (.ofPool pool) cookie hdr params := ⟨h.align, h.count, h.few, h.inside, hbytes⟩
  rw [decodeMsg_eq_in, decodeMsgIn_eq_ok_iff.mpr ⟨hdr, params, hmsg, rfl⟩, ok_bind, counted,
    take_padded h.count (h.count ▸ h.few)]

end Rustee.Guest
