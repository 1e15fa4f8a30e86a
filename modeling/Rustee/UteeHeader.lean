import Rustee.OsSignedImages

/-!
# The property record as a TA writes and reads it (`header.rs` of `rustee-utee`)

The runtime has its own codec of the 40-byte `.rustee.ta_head` record, which both crates declare. It
fills the record at build time, byte by byte, and reads it without the checks of
`TaProperties::validate`.
-/

namespace Rustee.Utee

open Os Fallible

/-- `b[off] = x[0]; b[off + 1] = x[1]; ...`, the stores of `store_u16`, `store_u32` and of the
loop over the UUID. -/
def store (b : List UInt8) (off : Nat) : List UInt8 → List UInt8
  | [] => b
  | x :: xs => store (b.set off x) (off + 1) xs

def encodeTaHead (p : TaProperties) : List UInt8 :=
  let b := List.replicate 40 0
  let b := store b 0 (leBytes 4 RTAH_MAGIC)
  let b := store b 4 (leBytes 2 RTAH_ABI)
  let b := store b 6 (leBytes 2 RTAH_SIZE)
  let b := store b 8 p.uuid.bytes.toList
  let b := store b 24 (leBytes 4 p.stackSize.toNat)
  let b := store b 28 (leBytes 4 p.dataSize.toNat)
  let b := b.set 32 p.singleInstance.toUInt8
  let b := b.set 33 p.multiSession.toUInt8
  let b := b.set 34 p.instanceKeepAlive.toUInt8
  let b := b.set 35 p.endian
  store b 36 (leBytes 4 p.taVersion.toNat)

/-- `None` is the error. -/
def parseTaHead (bytes : List UInt8) : Fallible Unit TaProperties := do
  if bytes.length < 40 then
    .err ()
  else
    let magic ← readLe bytes 0 4
    let abi ← readLe bytes 4 6
    let size ← readLe bytes 6 8
    if magic ≠ RTAH_MAGIC ∨ abi ≠ RTAH_ABI ∨ size ≠ RTAH_SIZE then
      .err ()
    else
      let uuid ← slice bytes 8 24
      let stackSize ← readLe bytes 24 28
      let dataSize ← readLe bytes 28 32
      let singleInstance ← readLe bytes 32 33
      let multiSession ← readLe bytes 33 34
      let instanceKeepAlive ← readLe bytes 34 35
      let endian ← readLe bytes 35 36
      let taVersion ← readLe bytes 36 40
      pure
        { uuid := uuidOf uuid
          stackSize := UInt32.ofNat stackSize
          dataSize := UInt32.ofNat dataSize
          singleInstance := singleInstance != 0
          multiSession := multiSession != 0
          instanceKeepAlive := instanceKeepAlive != 0
          endian := UInt8.ofNat endian
          taVersion := UInt32.ofNat taVersion }

variable {bytes : List UInt8} {p : TaProperties}

theorem parseTaHead_of_le (h : 40 ≤ bytes.length) :
    parseTaHead bytes =
      if leAt bytes 0 4 ≠ RTAH_MAGIC ∨ leAt bytes 4 2 ≠ RTAH_ABI ∨ leAt bytes 6 2 ≠ RTAH_SIZE then
        .err ()
      else .ok (headProps bytes) := by
  have huuid : (slice bytes 8 24 : Fallible Unit _) = .ok ((bytes.drop 8).take 16) :=
    slice_eq_drop_take (by decide) (Nat.le_trans (by decide) h)
  have hsize : (40 : UInt64).toNat ≤ bytes.length := h
  rw [parseTaHead, if_neg (Nat.not_lt.mpr h)]
  simp (disch := decide) only [readLe_within hsize, huuid, ok_bind]
  rfl

theorem parseTaHead_eq_ok_iff : Os.parseTaHead bytes = .ok p ↔
    parseTaHead bytes = .ok p ∧ p.validate = .ok () := by
  by_cases hlen : bytes.length < 40
  · rw [parseTaHead_of_lt hlen, parseTaHead, if_pos hlen]
    simp
  · rw [Os.parseTaHead_of_le (Nat.le_of_not_lt hlen), parseTaHead_of_le (Nat.le_of_not_lt hlen)]
    split
    · simp
    · constructor
      · intro h
        obtain ⟨_, hvalid, h⟩ := bind_eq_ok.mp h
        rw [ok.inj h] at hvalid ⊢
        exact ⟨rfl, hvalid⟩
      · rintro ⟨h, hvalid⟩
        rw [ok.inj h, hvalid, ok_bind]

theorem toList_uuid (u : Uuid) : u.bytes.toList = List.ofFn fun i : Fin 16 => u.bytes[i.val] := by
  rw [← Vector.toList_ofFn, Vector.ofFn_getElem]

theorem uuidOf_toList (u : Uuid) : uuidOf u.bytes.toList = u :=
  congrArg Uuid.mk (Vector.ext fun i hi => by simp)

theorem encodeTaHead_eq (p : TaProperties) : encodeTaHead p = Os.encodeTaHead p := by
  simp [encodeTaHead, Os.encodeTaHead, toList_uuid, store, leBytes, List.replicate]

section

variable (t : List UInt8)

theorem headProps_encode : headProps (Os.encodeTaHead p ++ t) = p := by
  have hword {b : List UInt8} {o : Nat} {v : UInt32} (h : (b.drop o).take 4 = leBytes 4 v.toNat) :
      UInt32.ofNat (leAt b o 4) = v := by
    rw [leAt_of_field h v.toNat_lt, UInt32.ofNat_toNat]
  have hflag {b : List UInt8} {o : Nat} {v : Bool} (h : (b.drop o).take 1 = [v.toUInt8]) :
      (leAt b o 1 != 0) = v := by
    rw [leAt, h]
    cases v with
    | false | true => rfl
  have hbyte {b : List UInt8} {o : Nat} {v : UInt8} (h : (b.drop o).take 1 = [v]) :
      UInt8.ofNat (leAt b o 1) = v := by
    rw [leAt, h]
    exact UInt8.ofNat_toNat
  have huuid : uuidOf (((Os.encodeTaHead p ++ t).drop 8).take 16) = p.uuid := by
    rw [Os.encodeTaHead, toList_uuid]
    exact (congrArg uuidOf (toList_uuid p.uuid)).symm.trans (uuidOf_toList p.uuid)
  rw [headProps, huuid, Os.encodeTaHead, toList_uuid]
  rw [hword (o := 24) (v := p.stackSize) rfl, hword (o := 28) (v := p.dataSize) rfl,
    hflag (o := 32) (v := p.singleInstance) rfl, hflag (o := 33) (v := p.multiSession) rfl,
    hflag (o := 34) (v := p.instanceKeepAlive) rfl, hbyte (o := 35) (v := p.endian) rfl,
    hword (o := 36) (v := p.taVersion) rfl]

theorem parse_encode_iff : Os.parseTaHead (Os.encodeTaHead p ++ t) = .ok p ↔
    p.validate = .ok () := by
  have hlen : 40 ≤ (Os.encodeTaHead p ++ t).length := by
    rw [Os.encodeTaHead, toList_uuid]
    exact Nat.le_add_left 40 t.length
  rw [Os.parseTaHead_of_le hlen, if_neg, headProps_encode]
  · cases p.validate with
    | ok | err | panic => simp
  · simp only [not_or, not_not]
    exact ⟨leAt_of_field rfl (by decide), leAt_of_field rfl (by decide),
      leAt_of_field rfl (by decide)⟩

end

/-- The two codecs agree: they write the same 40 bytes, the kernel accepts what the runtime
reads and `validate` passes, and it reads back every record that `validate` passes. -/
theorem taHead_codecs_agree :
    (∀ p, encodeTaHead p = Os.encodeTaHead p ∧ (encodeTaHead p).length = 40) ∧
      (∀ bytes p, Os.parseTaHead bytes = .ok p ↔ parseTaHead bytes = .ok p ∧ p.validate = .ok ()) ∧
      ∀ p t, Os.parseTaHead (encodeTaHead p ++ t) = .ok p ↔ p.validate = .ok () := by
  refine ⟨fun p => ⟨encodeTaHead_eq p, ?_⟩, fun _ _ => parseTaHead_eq_ok_iff, fun p t => ?_⟩
  · simp [encodeTaHead_eq, Os.encodeTaHead]
  · rw [encodeTaHead_eq]
    exact parse_encode_iff t

end Rustee.Utee
