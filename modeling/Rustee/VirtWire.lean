import Rustee.Attempt
import Rustee.OsPlatform

/-!
# The wire between host and guest

A PDU is a 16-byte header, a 64-byte call frame and the bounce bytes. Guest (`rustee-hal-virt`) and
host (`rustee-proto`, `gp-client`) each have a codec; both are here, and they write the same
bytes. On the guest's side PDUs travel in the payloads of virtio-vsock packets, whose 44-byte
header is modelled as well.
-/

namespace Rustee.Virt

open Os (HalError)

abbrev Bytes := List UInt8

def PDU_HDR_LEN : Nat := 16
def CALL_FRAME_LEN : Nat := 64
def KIND_ENTER : UInt32 := 1
def KIND_RPC : UInt32 := 2
def KIND_COMPLETE : UInt32 := 3
def KIND_RPC_REPLY : UInt32 := 4

/-! ### Little-endian words -/

def le16 (v : UInt16) : Bytes := leBytes 2 v.toNat
def le32 (v : UInt32) : Bytes := leBytes 4 v.toNat
def le64 (v : UInt64) : Bytes := leBytes 8 v.toNat

def u16At (b : Bytes) (o : Nat) : UInt16 := UInt16.ofNat (leAt b o 2)
def u32At (b : Bytes) (o : Nat) : UInt32 := UInt32.ofNat (leAt b o 4)
def u64At (b : Bytes) (o : Nat) : UInt64 := UInt64.ofNat (leAt b o 8)

@[simp] theorem length_le64 (v : UInt64) : (le64 v).length = 8 := length_leBytes _ _

variable {b : Bytes} {o : Nat}

theorem u16At_of_field {v : UInt16} (h : (b.drop o).take 2 = le16 v) : u16At b o = v := by
  rw [u16At, leAt_of_field h v.toNat_lt, UInt16.ofNat_toNat]

theorem u32At_of_field {v : UInt32} (h : (b.drop o).take 4 = le32 v) : u32At b o = v := by
  rw [u32At, leAt_of_field h v.toNat_lt, UInt32.ofNat_toNat]

theorem u64At_of_field {v : UInt64} (h : (b.drop o).take 8 = le64 v) : u64At b o = v := by
  rw [u64At, leAt_of_field h v.toNat_lt, UInt64.ofNat_toNat]

/-! ### The guest's codec -/

/-- `rustee_hal::CallFrame` -/
structure CallFrame where
  r : Vector UInt64 8
deriving Repr, DecidableEq

namespace CallFrame

/-- Offset in the bounce pool: `a1` has the high 32 bits, `a2` the low ones. -/
def cookieA1a2 (f : CallFrame) : UInt64 :=
  ((f.r[1] &&& 0xffffffff) <<< 32) ||| (f.r[2] &&& 0xffffffff)

def setCookieA1a2 (f : CallFrame) (cookie : UInt64) : CallFrame :=
  ⟨(f.r.set 1 (cookie >>> 32)).set 2 (cookie &&& 0xffffffff)⟩

end CallFrame

structure PduHeader where
  kind : UInt32
  seq : UInt32
  argLen : UInt32
  bounceLen : UInt32
deriving Repr, DecidableEq

def KnownKind (kind : UInt32) : Prop :=
  kind = KIND_ENTER ∨ kind = KIND_RPC ∨ kind = KIND_COMPLETE ∨ kind = KIND_RPC_REPLY

instance (kind : UInt32) : Decidable (KnownKind kind) :=
  inferInstanceAs (Decidable (_ ∨ _))

namespace PduHeader

def encode (h : PduHeader) : Bytes :=
  le32 h.kind ++ (le32 h.seq ++ (le32 h.argLen ++ le32 h.bounceLen))

def decode (b : Bytes) : Except HalError PduHeader :=
  if b.length < PDU_HDR_LEN then .error .fault
  else if KnownKind (u32At b 0) then
    .ok ⟨u32At b 0, u32At b 4, u32At b 8, u32At b 12⟩
  else .error .invalidParam

@[simp] theorem length_encode (h : PduHeader) : h.encode.length = PDU_HDR_LEN := rfl

theorem decode_encode {h : PduHeader} (hkind : KnownKind h.kind) : decode h.encode = .ok h := by
  have h0 : u32At h.encode 0 = h.kind := u32At_of_field rfl
  have h4 : u32At h.encode 4 = h.seq := u32At_of_field rfl
  have h8 : u32At h.encode 8 = h.argLen := u32At_of_field rfl
  have h12 : u32At h.encode 12 = h.bounceLen := u32At_of_field rfl
  rw [decode, length_encode, if_neg (Nat.lt_irrefl _), h0, h4, h8, h12, if_pos hkind]

end PduHeader

def encodeFrame (f : CallFrame) : Bytes := f.r.toList.flatMap le64

def decodeFrame (b : Bytes) : Except HalError CallFrame :=
  if b.length < CALL_FRAME_LEN then .error .fault
  else .ok ⟨Vector.ofFn fun i => u64At b (i.val * 8)⟩

variable (f : CallFrame)

@[simp] theorem length_encodeFrame : (encodeFrame f).length = CALL_FRAME_LEN := by
  rw [encodeFrame, List.length_flatMap]
  simp [CALL_FRAME_LEN]

theorem decodeFrame_encodeFrame : decodeFrame (encodeFrame f) = .ok f := by
  have hword : ∀ i : Fin 8, u64At (encodeFrame f) (i.val * 8) = f.r[i] := by
    intro i
    have hi : i.val < f.r.toList.length := by simp
    have hpiece := piece_flatMap length_le64 hi
    exact u64At_of_field (hpiece.trans (by simp))
  rw [decodeFrame, length_encodeFrame, if_neg (Nat.lt_irrefl _)]
  simp only [hword]
  congr 2
  ext i hi
  simp

def encodePdu (hdr : PduHeader) (frame : CallFrame) (bounce : Bytes) : Bytes :=
  hdr.encode ++ (encodeFrame frame ++ bounce)

theorem length_encodePdu (hdr : PduHeader) (frame : CallFrame) (bounce : Bytes) :
    (encodePdu hdr frame bounce).length = PDU_HDR_LEN + CALL_FRAME_LEN + bounce.length := by
  rw [encodePdu, List.length_append, List.length_append, PduHeader.length_encode,
    length_encodeFrame, add_assoc]

/-! ### The host's codec -/

namespace Proto

/-- `rustee_proto::CallFrame` -/
structure CallFrame where
  r : Vector UInt64 8
deriving Repr, DecidableEq

namespace CallFrame

def cookie (f : CallFrame) : UInt64 := (f.r[1] <<< 32) ||| (f.r[2] &&& 0xffffffff)

def encode (f : CallFrame) : Bytes := f.r.toList.flatMap le64

end CallFrame

/-- `rustee_proto::PduHeader` -/
structure PduHeader where
  kind : UInt32
  seq : UInt32
  argLen : UInt32
  bounceLen : UInt32
deriving Repr, DecidableEq

namespace PduHeader

def yielding (kind seq bounceLen : UInt32) : PduHeader :=
  ⟨kind, seq, UInt32.ofNat CALL_FRAME_LEN, bounceLen⟩

def encode (h : PduHeader) : Bytes :=
  le32 h.kind ++ (le32 h.seq ++ (le32 h.argLen ++ le32 h.bounceLen))

end PduHeader

def TEEC_ERROR_COMMUNICATION : UInt32 := 0xFFFF000E

/-- `write_all` on a stream that accepts bytes; the state is what was written. -/
def writeAll (buf : Bytes) : Attempt Bytes UInt32 Unit := Attempt.modify fun out => out ++ buf

/-- `gp_client::write_pdu`. The window of the pool is checked after header and frame
have gone out. -/
def writePdu (kind seq : UInt32) (frame : CallFrame) (bounce : Bytes) (bounceLen : UInt32) :
    Attempt Bytes UInt32 Unit := do
  writeAll (PduHeader.yielding kind seq bounceLen).encode
  writeAll frame.encode
  let c := frame.cookie.toNat
  let n := bounceLen.toNat
  if c + n ≥ 2 ^ 64 ∨ c + n > bounce.length then Attempt.raise TEEC_ERROR_COMMUNICATION
  else writeAll ((bounce.drop c).take n)

def CallFrame.toGuest (f : CallFrame) : Virt.CallFrame := ⟨f.r⟩

theorem cookieA1a2_toGuest : f.toGuest.cookieA1a2 = f.cookie := by
  have hshift : ∀ w : UInt64, (w &&& 0xffffffff) <<< 32 = w <<< 32 := by
    intro w
    apply UInt64.toNat_inj.mp
    have hlow : (w &&& 0xffffffff).toNat = w.toNat % 2 ^ 32 := by
      rw [UInt64.toNat_and]
      exact Nat.and_two_pow_sub_one_eq_mod w.toNat 32
    have hby : (32 : UInt64).toNat % 64 = 32 := rfl
    rw [UInt64.toNat_shiftLeft, UInt64.toNat_shiftLeft, hlow, hby, Nat.shiftLeft_eq,
      Nat.shiftLeft_eq]
    omega
  rw [Virt.CallFrame.cookieA1a2, CallFrame.cookie, CallFrame.toGuest, hshift]

/-- What the host writes for a window inside its pool is the guest's encoding. -/
theorem writePdu_eq {kind seq bounceLen : UInt32} {frame : CallFrame} {bounce : Bytes}
    (hwindow : frame.cookie.toNat + bounceLen.toNat ≤ bounce.length)
    (hsize : bounce.length < 2 ^ 64) (out : Bytes) :
    writePdu kind seq frame bounce bounceLen out =
      (.ok (), out ++ encodePdu ⟨kind, seq, 64, bounceLen⟩ frame.toGuest
        ((bounce.drop frame.cookie.toNat).take bounceLen.toNat)) := by
  have hin : ¬ (frame.cookie.toNat + bounceLen.toNat ≥ 2 ^ 64 ∨
      frame.cookie.toNat + bounceLen.toNat > bounce.length) := by
    omega
  rw [writePdu]
  simp only [if_neg hin, writeAll]
  show (_, _) = _
  rw [encodePdu]
  simp only [List.append_assoc]
  rfl

end Proto

/-! ### virtio-vsock packets -/

def VIRTIO_VSOCK_TYPE_STREAM : UInt16 := 1
def VIRTIO_VSOCK_OP_REQUEST : UInt16 := 1
def VIRTIO_VSOCK_OP_RESPONSE : UInt16 := 2
def VIRTIO_VSOCK_OP_RW : UInt16 := 5
def VIRTIO_VSOCK_OP_CREDIT_UPDATE : UInt16 := 6
def VIRTIO_VSOCK_OP_CREDIT_REQUEST : UInt16 := 7
def VIRTIO_VSOCK_HDR_LEN : Nat := 44
def VSOCK_BUF_ALLOC : UInt32 := 256 * 1024

structure VirtioVsockHdr where
  srcCid : UInt64
  dstCid : UInt64
  srcPort : UInt32
  dstPort : UInt32
  len : UInt32
  ty : UInt16
  op : UInt16
  flags : UInt32
  bufAlloc : UInt32
  fwdCnt : UInt32
deriving Repr, DecidableEq

namespace VirtioVsockHdr

def encode (h : VirtioVsockHdr) : Bytes :=
  le64 h.srcCid ++ (le64 h.dstCid ++ (le32 h.srcPort ++ (le32 h.dstPort ++ (le32 h.len ++
    (le16 h.ty ++ (le16 h.op ++ (le32 h.flags ++ (le32 h.bufAlloc ++ le32 h.fwdCnt))))))))

def decode (b : Bytes) : Except HalError VirtioVsockHdr :=
  if b.length < VIRTIO_VSOCK_HDR_LEN then .error .fault
  else .ok ⟨u64At b 0, u64At b 8, u32At b 16, u32At b 20, u32At b 24, u16At b 28, u16At b 30,
    u32At b 32, u32At b 36, u32At b 40⟩

@[simp] theorem length_encode (h : VirtioVsockHdr) : h.encode.length = VIRTIO_VSOCK_HDR_LEN := rfl

theorem decode_encode (h : VirtioVsockHdr) : decode h.encode = .ok h := by
  have h0 : u64At h.encode 0 = h.srcCid := u64At_of_field rfl
  have h8 : u64At h.encode 8 = h.dstCid := u64At_of_field rfl
  have h16 : u32At h.encode 16 = h.srcPort := u32At_of_field rfl
  have h20 : u32At h.encode 20 = h.dstPort := u32At_of_field rfl
  have h24 : u32At h.encode 24 = h.len := u32At_of_field rfl
  have h28 : u16At h.encode 28 = h.ty := u16At_of_field rfl
  have h30 : u16At h.encode 30 = h.op := u16At_of_field rfl
  have h32 : u32At h.encode 32 = h.flags := u32At_of_field rfl
  have h36 : u32At h.encode 36 = h.bufAlloc := u32At_of_field rfl
  have h40 : u32At h.encode 40 = h.fwdCnt := u32At_of_field rfl
  rw [decode, length_encode, if_neg (Nat.lt_irrefl _), h0, h8, h16, h20, h24, h28, h30, h32, h36,
    h40]

end VirtioVsockHdr

end Rustee.Virt
