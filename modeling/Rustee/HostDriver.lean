import Rustee.HostUuid

/-!
# Parameters in the Linux driver (`rustee_pack` and `rustee_unpack` of `rustee_virt.c`)

`rustee_pack` writes the MSG of a call at a fixed cookie of the bounce area, one record for each
parameter, and places the memrefs behind it. `rustee_unpack` reads the records back and copies the
output memrefs to the client. Offset and size are then words of the other side. The one check is
made on their sum, which wraps, and the size that the client passed is not looked at.
-/

namespace Rustee.Driver

open Virt Fallible List

def RUSTEE_BOUNCE_SIZE : Nat := 16 * 1024 * 1024
def RUSTEE_MSG_HDR : UInt32 := 32
def RUSTEE_MSG_PARAM : UInt32 := 32
def RUSTEE_MSG_COOKIE : UInt64 := 0x1000
def RUSTEE_ATTR_META : UInt64 := 0x100

/-- `RUSTEE_ALIGN8` -/
def rusteeAlign8 (x : UInt32) : UInt32 := (x + 7) &&& ~~~7

def TEE_IOCTL_PARAM_ATTR_TYPE_NONE : UInt64 := 0
def TEE_IOCTL_PARAM_ATTR_TYPE_VALUE_INPUT : UInt64 := 1
def TEE_IOCTL_PARAM_ATTR_TYPE_VALUE_OUTPUT : UInt64 := 2
def TEE_IOCTL_PARAM_ATTR_TYPE_VALUE_INOUT : UInt64 := 3
def TEE_IOCTL_PARAM_ATTR_TYPE_MEMREF_INPUT : UInt64 := 5
def TEE_IOCTL_PARAM_ATTR_TYPE_MEMREF_OUTPUT : UInt64 := 6
def TEE_IOCTL_PARAM_ATTR_TYPE_MEMREF_INOUT : UInt64 := 7

/-! ### Parameters -/

/-- `σ` are the kernel's shared memories (`struct tee_shm`). -/
structure TeeMemref (σ : Type) where
  shmOffs : UInt64
  size : UInt64
  shm : Option σ
deriving Repr, DecidableEq

structure TeeValue where
  a : UInt64
  b : UInt64
  c : UInt64
deriving Repr, DecidableEq

/-- `struct tee_param`; the attribute says which part of the union is meant. -/
structure TeeParam (σ : Type) where
  attr : UInt64
  memref : TeeMemref σ
  value : TeeValue
deriving Repr, DecidableEq

-- `tee_shm_get_va` belongs to the kernel: the memory from an offset on, or an error.
variable {σ : Type} (getVa : σ → UInt64 → Option Bytes)

namespace TeeParam

def ty (p : TeeParam σ) : UInt64 := p.attr &&& 0xff

def isMemref (p : TeeParam σ) : Bool :=
  p.ty ≥ TEE_IOCTL_PARAM_ATTR_TYPE_MEMREF_INPUT && p.ty ≤ TEE_IOCTL_PARAM_ATTR_TYPE_MEMREF_INOUT

def isValue (p : TeeParam σ) : Bool :=
  p.ty ≥ TEE_IOCTL_PARAM_ATTR_TYPE_VALUE_INPUT && p.ty ≤ TEE_IOCTL_PARAM_ATTR_TYPE_VALUE_INOUT

/-- The memory the memref points to, if it has a shared memory that is mapped. -/
def va (p : TeeParam σ) : Option Bytes :=
  p.memref.shm.bind fun shm => getVa shm p.memref.shmOffs

end TeeParam

def rusteeMsgAttr (ioctlAttr : UInt64) : UInt64 :=
  let t := ioctlAttr &&& 0xff
  if t = TEE_IOCTL_PARAM_ATTR_TYPE_NONE then 0
  else if t = TEE_IOCTL_PARAM_ATTR_TYPE_VALUE_INPUT then 1
  else if t = TEE_IOCTL_PARAM_ATTR_TYPE_VALUE_OUTPUT then 2
  else if t = TEE_IOCTL_PARAM_ATTR_TYPE_VALUE_INOUT then 3
  else if t = TEE_IOCTL_PARAM_ATTR_TYPE_MEMREF_INPUT then 0x9
  else if t = TEE_IOCTL_PARAM_ATTR_TYPE_MEMREF_OUTPUT then 0xa
  else if t = TEE_IOCTL_PARAM_ATTR_TYPE_MEMREF_INOUT then 0xb
  else 0

/-! ### Packing -/

inductive Errno where
  | enomem
deriving Repr, DecidableEq

/-- A write to the bounce area; outside of it the kernel's memory is corrupted, which is
the `panic` here. -/
def putBounce (p : Pool) (off : Nat) (bytes : Bytes) : Fallible Errno Pool :=
  if off + bytes.length ≤ RUSTEE_BOUNCE_SIZE then .ok (p.put off bytes) else .panic

/-- `memcpy` of `len` bytes into the bounce area. -/
def copyBounce (p : Pool) (off len : Nat) (src : Bytes) : Fallible Errno Pool :=
  if off + len ≤ RUSTEE_BOUNCE_SIZE then .ok (p.put off (src.take len)) else .panic

/-- `msg + RUSTEE_MSG_HDR + RUSTEE_MSG_PARAM * k`; the product is computed in 32 bits. -/
def recordOff (cookie : UInt64) (k : UInt32) : Nat :=
  cookie.toNat + RUSTEE_MSG_HDR.toNat + (RUSTEE_MSG_PARAM * k).toNat

def putWords (p : Pool) (pp : Nat) (a b c : UInt64) : Fallible Errno Pool := do
  let p ← putBounce p (pp + 8) (le64 a)
  let p ← putBounce p (pp + 16) (le64 b)
  putBounce p (pp + 24) (le64 c)

def packParam (cookie : UInt64) (k : UInt32) (param : TeeParam σ) (p : Pool) (dataOff : UInt32) :
    Fallible Errno (Pool × UInt32) := do
  let pp := recordOff cookie k
  let a := rusteeMsgAttr param.attr
  let p ← putBounce p pp (le64 a)
  if param.isMemref then
    let sz := param.memref.size
    if (dataOff.toUInt64 + sz).toNat > RUSTEE_BOUNCE_SIZE then .err .enomem
    else
      let p ← (match param.va getVa with
        | some va =>
          if sz ≠ 0 ∧ (a = 0x9 ∨ a = 0xb) then copyBounce p dataOff.toNat sz.toNat va else .ok p
        | none => .ok p)
      let p ← putWords p pp dataOff.toUInt64 sz dataOff.toUInt64
      .ok (p, rusteeAlign8 (dataOff + sz.toUInt32))
  else
    let p ← putWords p pp param.value.a param.value.b param.value.c
    .ok (p, dataOff)

def packParams (cookie : UInt64) :
    List (TeeParam σ) → UInt32 → Pool → UInt32 → Fallible Errno (Pool × UInt32)
  | [], _, p, dataOff => .ok (p, dataOff)
  | param :: params, k, p, dataOff => do
    let (p, dataOff) ← packParam getVa cookie k param p dataOff
    packParams cookie params (k + 1) p dataOff

def packMeta (isMeta : Bool) (cookie : UInt64) (uuid : Bytes) (login : UInt32) (p : Pool) :
    Fallible Errno Pool :=
  if isMeta then do
    let p0 := recordOff cookie 0
    let p ← putBounce p p0 (le64 (1 ||| RUSTEE_ATTR_META))
    let p ← putBounce p (p0 + 8) (le64 (rusteeUuidHi uuid))
    let p ← putBounce p (p0 + 16) (le64 (rusteeUuidLo uuid))
    let p1 := recordOff cookie 1
    let p ← putBounce p p1 (le64 (1 ||| RUSTEE_ATTR_META))
    putBounce p (p1 + 24) (le64 login.toUInt64)
  else .ok p

/-- `meta ? 2u : 0u`, the records in front of the client's parameters -/
def metaRecords (isMeta : Bool) : UInt32 := if isMeta then 2 else 0

def rusteePack (cmd func session : UInt32) (params : List (TeeParam σ)) (uuid : Bytes)
    (login : UInt32) (isMeta : Bool) : Fallible Errno (Pool × UInt64 × UInt32) := do
  let n := UInt32.ofNat params.length + metaRecords isMeta
  let cookie := RUSTEE_MSG_COOKIE
  if (cookie + RUSTEE_MSG_HDR.toUInt64 + (RUSTEE_MSG_PARAM * n).toUInt64).toNat >
      RUSTEE_BOUNCE_SIZE then .err .enomem
  else
    let msg := cookie.toNat
    let p ← putBounce ⟨fun _ => 0⟩ msg (le32 cmd)
    let p ← putBounce p (msg + 4) (le32 func)
    let p ← putBounce p (msg + 8) (le32 session)
    let p ← putBounce p (msg + 28) (le32 n)
    let dataOff := rusteeAlign8 (cookie.toUInt32 + RUSTEE_MSG_HDR + RUSTEE_MSG_PARAM * n)
    let p ← packMeta isMeta cookie uuid login p
    let (p, dataOff) ← packParams getVa cookie params (metaRecords isMeta) p dataOff
    .ok (p, cookie, dataOff - cookie.toUInt32)

/-! ### Unpacking -/

/-- What `rustee_unpack` does to memory that is not its own. -/
inductive Access where
  /-- `len` bytes of the bounce area are read from `off` on -/
  | read (off len : Nat)
  /-- `len` bytes are written to the memory of parameter `i` -/
  | write (i len : Nat)
deriving Repr, DecidableEq

def getLe32 (p : Pool) (off : Nat) : UInt32 := u32At (p.get off 4) 0
def getLe64 (p : Pool) (off : Nat) : UInt64 := u64At (p.get off 8) 0

/-- The test in front of the `memcpy`. -/
def copies (param : TeeParam σ) (off sz : UInt64) : Bool :=
  (param.ty = TEE_IOCTL_PARAM_ATTR_TYPE_MEMREF_OUTPUT ||
      param.ty = TEE_IOCTL_PARAM_ATTR_TYPE_MEMREF_INOUT) &&
    (param.va getVa).isSome && sz ≠ 0 && (off + sz).toNat ≤ RUSTEE_BOUNCE_SIZE

def unpackParam (reply : Pool) (cookie : UInt64) (k : UInt32) (i : Nat) (param : TeeParam σ) :
    TeeParam σ × List Access :=
  let pp := recordOff cookie k
  if param.isMemref then
    let off := getLe64 reply (pp + 8)
    let sz := getLe64 reply (pp + 16)
    ({ param with memref := { param.memref with size := sz } },
      [.read (pp + 8) 8, .read (pp + 16) 8] ++
        if copies getVa param off sz then [.read off.toNat sz.toNat, .write i sz.toNat] else [])
  else if param.isValue then
    ({ param with
        value := ⟨getLe64 reply (pp + 8), getLe64 reply (pp + 16), getLe64 reply (pp + 24)⟩ },
      [.read (pp + 8) 8, .read (pp + 16) 8, .read (pp + 24) 8])
  else (param, [])

def unpackParams (reply : Pool) (cookie : UInt64) :
    List (TeeParam σ) → UInt32 → Nat → List (TeeParam σ) × List Access
  | [], _, _ => ([], [])
  | param :: params, k, i =>
    let (param, accesses) := unpackParam getVa reply cookie k i param
    let (params, rest) := unpackParams reply cookie params (k + 1) (i + 1)
    (param :: params, accesses ++ rest)

structure Unpacked (σ : Type) where
  ret : UInt32
  origin : UInt32
  session : UInt32
  params : List (TeeParam σ)
  accesses : List Access

def rusteeUnpack (reply : Pool) (cookie : UInt64) (params : List (TeeParam σ)) (isMeta : Bool) :
    Unpacked σ :=
  let msg := cookie.toNat
  let (params, accesses) := unpackParams getVa reply cookie params (metaRecords isMeta) 0
  { ret := getLe32 reply (msg + 20)
    origin := getLe32 reply (msg + 24)
    session := getLe32 reply (msg + 8)
    params := params
    accesses := [.read (msg + 20) 4, .read (msg + 24) 4, .read (msg + 8) 4] ++ accesses }

/-! ### Accepted records lie in the bounce area -/

variable {getVa} {p p' : Pool}

theorem putBounce_le {off : Nat} {bytes : Bytes}
    (h : putBounce p off bytes = .ok p') : off + bytes.length ≤ RUSTEE_BOUNCE_SIZE := by
  rw [putBounce] at h
  split at h
  · assumption
  · cases h

theorem putWords_le {pp : Nat} {a b c : UInt64}
    (h : putWords p pp a b c = .ok p') : pp + 32 ≤ RUSTEE_BOUNCE_SIZE := by
  obtain ⟨p₁, -, h⟩ := bind_eq_ok.mp h
  obtain ⟨p2, -, h⟩ := bind_eq_ok.mp h
  have hle := putBounce_le h
  rwa [length_le64, add_assoc] at hle

variable {k : UInt32} {cookie : UInt64}

theorem packParam_le {param : TeeParam σ} {dataOff : UInt32} {out : Pool × UInt32}
    (h : packParam getVa cookie k param p dataOff = .ok out) :
    recordOff cookie k + 32 ≤ RUSTEE_BOUNCE_SIZE := by
  obtain ⟨p₁, -, h⟩ := bind_eq_ok.mp h
  split at h
  · dsimp only at h
    split at h
    · cases h
    · obtain ⟨p2, -, h⟩ := bind_eq_ok.mp h
      obtain ⟨p3, hwords, -⟩ := bind_eq_ok.mp h
      exact putWords_le hwords
  · obtain ⟨p2, hwords, -⟩ := bind_eq_ok.mp h
    exact putWords_le hwords

variable {params : List (TeeParam σ)} {i : Nat}

theorem add_ofNat_succ (k : UInt32) (j : Nat) :
    k + UInt32.ofNat (j + 1) = k + 1 + UInt32.ofNat j := by
  rw [UInt32.ofNat_add, UInt32.add_assoc, UInt32.add_comm 1]
  rfl

theorem packParams_le {dataOff : UInt32} {out : Pool × UInt32}
    (h : packParams getVa cookie params k p dataOff = .ok out) (hi : i < params.length) :
    recordOff cookie (k + UInt32.ofNat i) + 32 ≤ RUSTEE_BOUNCE_SIZE := by
  induction params generalizing k p dataOff i with
  | nil => cases hi
  | cons param params ih =>
    obtain ⟨⟨p', dataOff'⟩, hfirst, hrest⟩ := bind_eq_ok.mp h
    cases i with
    | zero =>
      have hzero : k + UInt32.ofNat 0 = k := UInt32.add_zero k
      rw [hzero]
      exact packParam_le hfirst
    | succ i =>
      rw [add_ofNat_succ]
      exact ih hrest (Nat.lt_of_succ_lt_succ hi)

theorem rusteePack_accepts {cmd func session login : UInt32}
    {uuid : Bytes} {isMeta : Bool} {out : Pool × UInt64 × UInt32}
    (h : rusteePack getVa cmd func session params uuid login isMeta = .ok out) :
    out.2.1 = RUSTEE_MSG_COOKIE ∧ ∀ i < params.length,
      recordOff RUSTEE_MSG_COOKIE (metaRecords isMeta + UInt32.ofNat i) + 32 ≤
        RUSTEE_BOUNCE_SIZE := by
  rw [rusteePack] at h
  dsimp only at h
  split at h
  · cases h
  · obtain ⟨p₁, -, h⟩ := bind_eq_ok.mp h
    obtain ⟨p2, -, h⟩ := bind_eq_ok.mp h
    obtain ⟨p3, -, h⟩ := bind_eq_ok.mp h
    obtain ⟨p4, -, h⟩ := bind_eq_ok.mp h
    obtain ⟨p5, -, h⟩ := bind_eq_ok.mp h
    obtain ⟨⟨p6, dataOff⟩, hparams, h⟩ := bind_eq_ok.mp h
    cases h
    exact ⟨rfl, fun i hi => packParams_le hparams hi⟩

/-! ### Which replies are safe -/

/-- A read stays in the bounce area; a write is no longer than the client's buffer. -/
def Access.Allowed (params : List (TeeParam σ)) : Access → Prop
  | .read off len => off + len ≤ RUSTEE_BOUNCE_SIZE
  | .write i len => ∃ param, params[i]? = some param ∧ len ≤ param.memref.size.toNat

variable (getVa)

/-- If the words of the reply pass the driver's test, they name a piece of the bounce area
that fits the client's buffer. -/
def ReplyFits (reply : Pool) (cookie : UInt64) (k : UInt32) (param : TeeParam σ) : Prop :=
  let off := getLe64 reply (recordOff cookie k + 8)
  let sz := getLe64 reply (recordOff cookie k + 16)
  param.isMemref → copies getVa param off sz →
    off.toNat + sz.toNat ≤ RUSTEE_BOUNCE_SIZE ∧ sz ≤ param.memref.size

theorem unpackParam_allowed_iff (reply : Pool) {param : TeeParam σ} (hi : params[i]? = some param)
    (hrecord : recordOff cookie k + 32 ≤ RUSTEE_BOUNCE_SIZE) :
    (∀ a ∈ (unpackParam getVa reply cookie k i param).2, a.Allowed params) ↔
      ReplyFits getVa reply cookie k param := by
  have hword : ∀ d, d + 8 ≤ 32 → (Access.read (recordOff cookie k + d) 8).Allowed params := by
    intro d hd
    show recordOff cookie k + d + 8 ≤ RUSTEE_BOUNCE_SIZE
    omega
  rw [unpackParam, ReplyFits]
  dsimp only
  by_cases hmemref : param.isMemref
  · rw [if_pos hmemref]
    by_cases hcopies : copies getVa param (getLe64 reply (recordOff cookie k + 8))
        (getLe64 reply (recordOff cookie k + 16))
    · rw [if_pos hcopies]
      constructor
      · intro hall _ _
        have hread := hall _ (mem_append_right _ mem_cons_self)
        obtain ⟨param', hi', hle⟩ := hall _ (mem_append_right _ (mem_cons_of_mem _ mem_cons_self))
        rw [hi] at hi'
        cases hi'
        exact ⟨hread, hle⟩
      · intro hfits a ha
        obtain ⟨hread, hle⟩ := hfits hmemref hcopies
        simp only [mem_append, mem_cons, not_mem_nil, or_false] at ha
        rcases ha with (rfl | rfl) | rfl | rfl
        · exact hword 8 (by decide)
        · exact hword 16 (by decide)
        · exact hread
        · exact ⟨param, hi, hle⟩
    · rw [if_neg hcopies]
      constructor
      · intro _ _ hcopies'
        exact absurd hcopies' hcopies
      · intro _ a ha
        simp only [append_nil, mem_cons, not_mem_nil, or_false] at ha
        rcases ha with rfl | rfl
        · exact hword 8 (by decide)
        · exact hword 16 (by decide)
  · rw [if_neg hmemref]
    constructor
    · intro _ hmemref'
      exact absurd hmemref' hmemref
    · intro _ a ha
      split at ha
      · simp only [mem_cons, not_mem_nil, or_false] at ha
        rcases ha with rfl | rfl | rfl
        · exact hword 8 (by decide)
        · exact hword 16 (by decide)
        · exact hword 24 (by decide)
      · cases ha

/-- The loop, from parameter `i` on. -/
theorem unpackParams_allowed_iff (reply : Pool) {all : List (TeeParam σ)}
    (hall : params = all.drop i) (hrecords : ∀ j < params.length,
      recordOff cookie (k + UInt32.ofNat j) + 32 ≤ RUSTEE_BOUNCE_SIZE) :
    (∀ a ∈ (unpackParams getVa reply cookie params k i).2, a.Allowed all) ↔
      ∀ j param, params[j]? = some param →
        ReplyFits getVa reply cookie (k + UInt32.ofNat j) param := by
  induction params generalizing k i with
  | nil =>
    constructor
    · intro _ j param hj
      cases hj
    · intro _ a ha
      cases ha
  | cons first params ih =>
    have hfirst : all[i]? = some first := by
      rw [← head?_drop, ← hall]
      rfl
    have hrest : params = all.drop (i + 1) := by
      rw [← tail_drop, ← hall]
      rfl
    have hzero : k + UInt32.ofNat 0 = k := UInt32.add_zero k
    have hrecord : recordOff cookie k + 32 ≤ RUSTEE_BOUNCE_SIZE := by
      have h := hrecords 0 (Nat.succ_pos _)
      rwa [hzero] at h
    have hparam := unpackParam_allowed_iff getVa reply hfirst hrecord
    have hparams := ih (k := k + 1) hrest (fun j hj => by
      rw [← add_ofNat_succ]
      exact hrecords (j + 1) (Nat.succ_lt_succ hj))
    have happend : (unpackParams getVa reply cookie (first :: params) k i).2 =
        (unpackParam getVa reply cookie k i first).2 ++
          (unpackParams getVa reply cookie params (k + 1) (i + 1)).2 := rfl
    rw [happend]
    constructor
    · intro h j param hj
      cases j with
      | zero =>
        cases hj
        rw [hzero]
        exact hparam.mp fun a ha => h a (mem_append_left _ ha)
      | succ j =>
        rw [add_ofNat_succ]
        exact hparams.mp (fun a ha => h a (mem_append_right _ ha)) j param hj
    · intro h a ha
      rcases mem_append.mp ha with hleft | hright
      · refine hparam.mpr ?_ a hleft
        have h0 := h 0 first rfl
        rwa [hzero] at h0
      · refine hparams.mpr ?_ a hright
        intro j param hj
        rw [← add_ofNat_succ]
        exact h (j + 1) param hj

/-- For every array that the driver accepts and every reply: the driver stays in the
bounce area and in the client's buffers exactly if, for every memref it copies, the
words of the reply do. -/
theorem unpack_safe_iff {cmd func session login : UInt32} {params : List (TeeParam σ)}
    {uuid : Bytes} {isMeta : Bool} {p : Pool} {cookie : UInt64} {blen : UInt32}
    (haccept : rusteePack getVa cmd func session params uuid login isMeta = .ok (p, cookie, blen))
    (reply : Pool) :
    (∀ a ∈ (rusteeUnpack getVa reply cookie params isMeta).accesses, a.Allowed params) ↔
      ∀ i param, params[i]? = some param →
        ReplyFits getVa reply cookie (metaRecords isMeta + UInt32.ofNat i) param := by
  obtain ⟨hcookie, hrecords⟩ := rusteePack_accepts haccept
  change cookie = RUSTEE_MSG_COOKIE at hcookie
  subst hcookie
  have hloop := unpackParams_allowed_iff getVa reply (i := 0) (drop_zero).symm hrecords
  have hheader : ∀ a ∈ [Access.read (RUSTEE_MSG_COOKIE.toNat + 20) 4,
      .read (RUSTEE_MSG_COOKIE.toNat + 24) 4, .read (RUSTEE_MSG_COOKIE.toNat + 8) 4],
      a.Allowed params := by
    intro a ha
    simp only [mem_cons, not_mem_nil, or_false] at ha
    rcases ha with rfl | rfl | rfl
    · show 0x1000 + 20 + 4 ≤ RUSTEE_BOUNCE_SIZE
      decide
    · show 0x1000 + 24 + 4 ≤ RUSTEE_BOUNCE_SIZE
      decide
    · show 0x1000 + 8 + 4 ≤ RUSTEE_BOUNCE_SIZE
      decide
  have hsplit : (rusteeUnpack getVa reply RUSTEE_MSG_COOKIE params isMeta).accesses =
      [Access.read (RUSTEE_MSG_COOKIE.toNat + 20) 4,
        .read (RUSTEE_MSG_COOKIE.toNat + 24) 4, .read (RUSTEE_MSG_COOKIE.toNat + 8) 4] ++
        (unpackParams getVa reply RUSTEE_MSG_COOKIE params (metaRecords isMeta) 0).2 := rfl
  rw [← hloop, hsplit]
  constructor
  · intro h a ha
    exact h a (mem_append_right _ ha)
  · intro h a ha
    rcases mem_append.mp ha with hleft | hright
    · exact hheader a hleft
    · exact h a hright

/-- A `tee_shm_get_va` for memories that are mapped as a whole. -/
def sampleGetVa (shm : Bytes) (offs : UInt64) : Option Bytes :=
  if offs.toNat < shm.length then some (shm.drop offs.toNat) else none

def sampleParam : TeeParam Bytes :=
  ⟨TEE_IOCTL_PARAM_ATTR_TYPE_MEMREF_OUTPUT, ⟨0, 4, some [0, 0, 0, 0]⟩, ⟨0, 0, 0⟩⟩

/-- A reply that gives the buffer's place and `size` for its first parameter. -/
def sampleReply (ret : UInt32) (size : UInt64) : Pool :=
  (((⟨fun _ => 0⟩ : Pool).put 4116 (le32 ret)).put 4136 (le64 4160)).put 4144 (le64 size)

/-- A reply of four bytes is copied within bounds. -/
theorem unpack_safe_iff_sample : ∃ p cookie blen,
    rusteePack sampleGetVa 1 0 1 [sampleParam] [] 0 false = .ok (p, cookie, blen) ∧
      ∀ a ∈ (rusteeUnpack sampleGetVa (sampleReply 0 4) cookie [sampleParam] false).accesses,
        a.Allowed [sampleParam] := by
  obtain ⟨⟨p, cookie, blen⟩, hpack⟩ :
      ∃ out, rusteePack sampleGetVa 1 0 1 [sampleParam] [] 0 false = .ok out := ⟨_, rfl⟩
  have hcookie : cookie = RUSTEE_MSG_COOKIE := (rusteePack_accepts hpack).1
  refine ⟨p, cookie, blen, hpack, (unpack_safe_iff sampleGetVa hpack _).mpr ?_⟩
  intro i param hi
  rw [hcookie]
  cases i with
  | zero =>
    cases hi
    intro _ _
    decide +kernel
  | succ => cases hi

/-- The TA answers `TEE_ERROR_SHORT_BUFFER` and that it needs eight bytes: eight bytes are
copied to the four of the client. -/
theorem short_buffer_overruns : ∃ p cookie blen,
    rusteePack sampleGetVa 1 0 1 [sampleParam] [] 0 false = .ok (p, cookie, blen) ∧
      ¬ ∀ a ∈ (rusteeUnpack sampleGetVa (sampleReply 0xFFFF0010 8) cookie [sampleParam]
        false).accesses, a.Allowed [sampleParam] := by
  refine ⟨_, _, _, rfl, ?_⟩
  intro hall
  obtain ⟨param, hparam, hle⟩ := hall (.write 0 8) (by decide +kernel)
  cases hparam
  exact absurd hle (by decide)

end Rustee.Driver
