import Rustee.GuestMsg

/-!
# Bytes that cross the pool come back

A window copied out of one pool and into another is the same window, and what is written beside it
does not change it. A message written at a cookie is decoded there to its own header and
parameters, in whichever pool its bytes have ended up.
-/

namespace Rustee.Virt.Pool

variable {p q : Pool} {start len a n : Nat} {bytes : Bytes}

/-! ### Windows of the pool -/

theorem get_eq_iff : p.get start len = q.get start len ↔
    ∀ i < len, p.byte (start + i) = q.byte (start + i) := by
  rw [get, get, List.map_inj_left]
  simp only [List.mem_range]

theorem get_add (p : Pool) (start m n : Nat) :
    p.get start (m + n) = p.get start m ++ p.get (start + m) n := by
  rw [get, List.range_add, List.map_append, List.map_map]
  congr 1
  apply List.map_congr_left
  intro i _
  show p.byte (start + (m + i)) = p.byte (start + m + i)
  rw [add_assoc]

theorem drop_take_get (p : Pool) {start len off n : Nat} (h : off + n ≤ len) :
    ((p.get start len).drop off).take n = p.get (start + off) n := by
  obtain ⟨rest, rfl⟩ := Nat.exists_eq_add_of_le h
  rw [add_assoc, get_add, List.drop_left' (p.length_get start off), get_add,
    List.take_left' (p.length_get _ n)]

theorem byte_put_inside (p : Pool) (start : Nat) {i : Nat} (hi : i < bytes.length) :
    (p.put start bytes).byte (start + i) = bytes.get ⟨i, hi⟩ := by
  have hin : start ≤ start + i ∧ start + i < start + bytes.length := by omega
  show (if _ then _ else _) = _
  rw [if_pos hin, Nat.add_sub_cancel_left, List.getD, List.getElem?_eq_getElem hi,
    Option.getD_some, List.get_eq_getElem]

theorem byte_put_outside {i : Nat} (hi : i < start ∨ start + bytes.length ≤ i) :
    (p.put start bytes).byte i = p.byte i := by
  have hout : ¬ (start ≤ i ∧ i < start + bytes.length) := by omega
  show (if _ then _ else _) = _
  rw [if_neg hout]

theorem get_put (p : Pool) (start : Nat) (bytes : Bytes) :
    (p.put start bytes).get start bytes.length = bytes := by
  apply List.ext_getElem
  · exact length_get _ _ _
  · intro i hi hi'
    have hbyte := byte_put_inside p start hi'
    simpa [get] using hbyte

theorem get_put_part {off : Nat} (h : off + n ≤ bytes.length) :
    (p.put start bytes).get (start + off) n = (bytes.drop off).take n := by
  rw [← drop_take_get _ h, get_put]

theorem get_put_beside (h : a + n ≤ start ∨ start + bytes.length ≤ a) :
    (p.put start bytes).get a n = p.get a n := by
  rw [get_eq_iff]
  intro i hi
  exact byte_put_outside (by omega)

theorem get_put_get (hstart : start ≤ a) (hstop : a + n ≤ start + len) :
    (q.put start (p.get start len)).get a n = p.get a n := by
  obtain ⟨off, rfl⟩ := Nat.exists_eq_add_of_le hstart
  rw [get_put_part (by rw [length_get]; omega), drop_take_get p (by omega)]

theorem put_nil (p : Pool) (start : Nat) : p.put start [] = p := by
  have hbyte : (p.put start []).byte = p.byte := by
    funext i
    exact byte_put_outside (Nat.lt_or_ge i start)
  cases p
  exact congrArg Pool.mk hbyte

end Rustee.Virt.Pool

namespace Rustee.Guest

open Os Virt List MsgParam

/-! ### Messages -/

@[simp] theorem MsgArgHdr.length_encode (hdr : MsgArgHdr) :
    hdr.encode.length = MSG_ARG_HDR_SIZE := rfl

theorem MsgArgHdr.decode_encode (hdr : MsgArgHdr) : MsgArgHdr.decode hdr.encode = hdr := by
  have h0 : u32At hdr.encode 0 = hdr.cmd := u32At_of_field rfl
  have h4 : u32At hdr.encode 4 = hdr.func := u32At_of_field rfl
  have h8 : u32At hdr.encode 8 = hdr.session := u32At_of_field rfl
  have h12 : u32At hdr.encode 12 = hdr.cancelId := u32At_of_field rfl
  have h16 : u32At hdr.encode 16 = hdr.pad := u32At_of_field rfl
  have h20 : u32At hdr.encode 20 = hdr.ret := u32At_of_field rfl
  have h24 : u32At hdr.encode 24 = hdr.retOrigin := u32At_of_field rfl
  have h28 : u32At hdr.encode 28 = hdr.numParams := u32At_of_field rfl
  rw [decode, h0, h4, h8, h12, h16, h20, h24, h28]

@[simp] theorem MsgParam.length_encode (p : MsgParam) : p.encode.length = MSG_PARAM_SIZE := rfl

theorem MsgParam.decode_encode (p : MsgParam) : decode p.encode = p := by
  have h0 : u64At p.encode 0 = p.attr := u64At_of_field rfl
  have h8 : u64At p.encode 8 = p.a := u64At_of_field rfl
  have h16 : u64At p.encode 16 = p.b := u64At_of_field rfl
  have h24 : u64At p.encode 24 = p.c := u64At_of_field rfl
  rw [decode, h0, h8, h16, h24]

/-- The bytes `write_msg` writes. -/
def msgBytes (hdr : MsgArgHdr) (params : List MsgParam) : Bytes :=
  hdr.encode ++ params.flatMap encode

theorem length_msgBytes {hdr : MsgArgHdr} {params : List MsgParam}
    (hcount : params.length = hdr.numParams.toNat) :
    (msgBytes hdr params).length = hdr.byteSize := by
  have hparams : (params.flatMap encode).length = params.length * MSG_PARAM_SIZE := by
    rw [length_flatMap]
    simp
  rw [msgBytes, length_append, MsgArgHdr.length_encode, hparams, MsgArgHdr.byteSize, hcount,
    mul_comm]

/-- The cookie is aligned and the message ends inside the pool. -/
structure MsgFits (cookie : UInt64) (hdr : MsgArgHdr) (params : List MsgParam) : Prop where
  align : cookie.toNat % MSG_ARG_ALIGN = 0
  count : params.length = hdr.numParams.toNat
  few : params.length ≤ 6
  inside : cookie.toNat + hdr.byteSize ≤ BOUNCE_POOL_SIZE

theorem writeMsg_of_fits {cookie : UInt64} {hdr : MsgArgHdr} {params : List MsgParam}
    (h : MsgFits cookie hdr params) (pool : Pool) :
    writeMsg pool cookie hdr params =
      .ok (hdr.byteSize, pool.put cookie.toNat (msgBytes hdr params)) := by
  rw [writeMsg, if_neg (not_not_intro h.align), if_neg (not_not_intro h.count),
    if_neg (Nat.not_lt.mpr h.inside)]
  rfl

end Rustee.Guest
