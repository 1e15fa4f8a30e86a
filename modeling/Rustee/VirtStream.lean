import Rustee.Framing
import Rustee.VirtWire

/-!
# The listening socket and the accepted stream (`rustee-hal-virt/src/vsock.rs`)

The connection buffers the payloads of RW packets; `take_pdu` takes a PDU from the front when all of
it has arrived and otherwise leaves the buffer alone. So the PDUs come out as they were sent,
wherever the stream was cut and whenever the guest looked.
-/

namespace Rustee.Virt

open Os (HalError)
open List PduHeader

def VSOCK_GUEST_CID : UInt32 := 3
def VSOCK_PORT : UInt32 := 7007

/-! ### Listening and accepting -/

structure VsockListener where
  cid : UInt32
  port : UInt32
  listening : Bool
deriving Repr, DecidableEq

namespace VsockListener

/-- `VsockListener::default` -/
def new : VsockListener := ⟨VSOCK_GUEST_CID, VSOCK_PORT, false⟩

def listen (l : VsockListener) : VsockListener := { l with listening := true }

def accept (l : VsockListener) (req : VirtioVsockHdr) : Except HalError VirtioVsockHdr :=
  if !l.listening then .error .busy
  else if req.op ≠ VIRTIO_VSOCK_OP_REQUEST ∨ req.ty ≠ VIRTIO_VSOCK_TYPE_STREAM ∨
      req.dstCid ≠ l.cid.toUInt64 ∨ req.dstPort ≠ l.port then .error .invalidParam
  else .ok {
    srcCid := l.cid.toUInt64, dstCid := req.srcCid, srcPort := l.port, dstPort := req.srcPort
    len := 0, ty := VIRTIO_VSOCK_TYPE_STREAM, op := VIRTIO_VSOCK_OP_RESPONSE, flags := 0
    bufAlloc := VSOCK_BUF_ALLOC, fwdCnt := 0 }

end VsockListener

structure VsockConn where
  guestCid : UInt64
  guestPort : UInt32
  hostCid : UInt64
  hostPort : UInt32
  fwdCnt : UInt32
  rx : Bytes
deriving Repr, DecidableEq

variable {c : VsockConn} {rx : Bytes} (p : Pdu)

namespace VsockConn

def fromAccept (req : VirtioVsockHdr) (l : VsockListener) : VsockConn :=
  ⟨l.cid.toUInt64, l.port, req.srcCid, req.srcPort, 0, []⟩

/-- The packets `push_rw` takes. The port of the sender is not among the checks. -/
def Takes (c : VsockConn) (hdr : VirtioVsockHdr) (payload : Bytes) : Prop :=
  hdr.op = VIRTIO_VSOCK_OP_RW ∧ hdr.dstCid = c.guestCid ∧ hdr.dstPort = c.guestPort ∧
    hdr.srcCid = c.hostCid ∧ payload.length = hdr.len.toNat

instance (c : VsockConn) (hdr : VirtioVsockHdr) (payload : Bytes) :
    Decidable (c.Takes hdr payload) :=
  inferInstanceAs (Decidable (_ ∧ _))

def SameEnds (c c' : VsockConn) : Prop :=
  c'.guestCid = c.guestCid ∧ c'.guestPort = c.guestPort ∧ c'.hostCid = c.hostCid ∧
    c'.hostPort = c.hostPort

theorem SameEnds.takes {c' : VsockConn} (h : c.SameEnds c') {hdr : VirtioVsockHdr}
    {payload : Bytes} : c'.Takes hdr payload ↔ c.Takes hdr payload := by
  obtain ⟨hcid, hport, hhost, -⟩ := h
  rw [Takes, Takes, hcid, hport, hhost]

def pushRw (hdr : VirtioVsockHdr) (payload : Bytes) : Attempt VsockConn HalError Unit := fun c =>
  if c.Takes hdr payload then
    (.ok (), { c with rx := c.rx ++ payload, fwdCnt := c.fwdCnt + hdr.len })
  else (.err .invalidParam, c)

/-- `take_pdu` on the buffer: the result and what is left of the buffer. On a 64-bit
target the two `checked_add`s of the length cannot fail. -/
def takeRx (rx : Bytes) : Fallible HalError (PduHeader × CallFrame × Bytes) × Bytes :=
  if rx.length < PDU_HDR_LEN then (.err .notFound, rx)
  else
    match decode (rx.take PDU_HDR_LEN) with
    | .error e => (.err e, rx)
    | .ok hdr =>
      if hdr.argLen ≠ UInt32.ofNat CALL_FRAME_LEN then (.err .invalidParam, rx)
      else
        let total := PDU_HDR_LEN + CALL_FRAME_LEN + hdr.bounceLen.toNat
        if rx.length < total then (.err .notFound, rx)
        else
          let bytes := rx.take total
          match decodeFrame ((bytes.drop PDU_HDR_LEN).take CALL_FRAME_LEN) with
          | .error e => (.err e, rx.drop total)
          | .ok frame =>
            (.ok (hdr, frame, bytes.drop (PDU_HDR_LEN + CALL_FRAME_LEN)), rx.drop total)

def takePdu : Attempt VsockConn HalError (PduHeader × CallFrame × Bytes) := fun c =>
  ((takeRx c.rx).1, { c with rx := (takeRx c.rx).2 })

theorem takePdu_of_takeRx
    {r : Fallible HalError (PduHeader × CallFrame × Bytes)} (h : takeRx c.rx = (r, rx)) :
    takePdu c = (r, { c with rx := rx }) := by
  rw [takePdu, h]

def packet (c : VsockConn) (op : UInt16) (len : UInt32) : VirtioVsockHdr where
  srcCid := c.guestCid
  dstCid := c.hostCid
  srcPort := c.guestPort
  dstPort := c.hostPort
  len := len
  ty := VIRTIO_VSOCK_TYPE_STREAM
  op := op
  flags := 0
  bufAlloc := VSOCK_BUF_ALLOC
  fwdCnt := c.fwdCnt

def wrapRw (c : VsockConn) (payload : Bytes) : VirtioVsockHdr :=
  c.packet VIRTIO_VSOCK_OP_RW (UInt32.ofNat payload.length)

def creditUpdate (c : VsockConn) : VirtioVsockHdr := c.packet VIRTIO_VSOCK_OP_CREDIT_UPDATE 0

end VsockConn

/-! ### PDUs -/

/-- A PDU as it is sent: of a known kind, its lengths those of its parts. -/
structure Pdu where
  hdr : PduHeader
  frame : CallFrame
  bounce : Bytes
  known : KnownKind hdr.kind
  argLen : hdr.argLen = UInt32.ofNat CALL_FRAME_LEN
  bounceLen : bounce.length = hdr.bounceLen.toNat

namespace Pdu

def encode (p : Pdu) : Bytes := encodePdu p.hdr p.frame p.bounce

/-- What `take_pdu` makes of it. -/
def parts (p : Pdu) : PduHeader × CallFrame × Bytes := (p.hdr, p.frame, p.bounce)

theorem length_encode : p.encode.length = PDU_HDR_LEN + CALL_FRAME_LEN + p.hdr.bounceLen.toNat := by
  rw [encode, length_encodePdu, p.bounceLen]

theorem take_header (h : rx <+: p.encode ∨ p.encode <+: rx)
    (hlen : PDU_HDR_LEN ≤ rx.length) : rx.take PDU_HDR_LEN = p.hdr.encode := by
  have hfront : p.encode.take PDU_HDR_LEN = p.hdr.encode :=
    take_left' (PduHeader.length_encode p.hdr)
  have hlong : PDU_HDR_LEN ≤ p.encode.length := by
    rw [length_encode]
    omega
  rw [← hfront]
  rcases h with ⟨rest, hrest⟩ | ⟨rest, hrest⟩
  · rw [← hrest, take_append_of_le_length hlen]
  · rw [← hrest, take_append_of_le_length hlong]

end Pdu

theorem takeRx_whole (rest : Bytes) :
    VsockConn.takeRx (p.encode ++ rest) = (.ok p.parts, rest) := by
  have hlen := p.length_encode
  have hheader : (p.encode ++ rest).take PDU_HDR_LEN = p.hdr.encode :=
    p.take_header (.inr (prefix_append _ _)) (by rw [length_append]; omega)
  have htake : (p.encode ++ rest).take (PDU_HDR_LEN + CALL_FRAME_LEN + p.hdr.bounceLen.toNat) =
      p.encode := take_left' hlen
  have hdrop : (p.encode ++ rest).drop (PDU_HDR_LEN + CALL_FRAME_LEN + p.hdr.bounceLen.toNat) =
      rest := drop_left' hlen
  have hframe : (p.encode.drop PDU_HDR_LEN).take CALL_FRAME_LEN = encodeFrame p.frame := by
    rw [Pdu.encode, encodePdu, drop_left' (length_encode p.hdr),
      take_left' (length_encodeFrame p.frame)]
  have hbounce : p.encode.drop (PDU_HDR_LEN + CALL_FRAME_LEN) = p.bounce := by
    rw [Pdu.encode, encodePdu, ← append_assoc]
    apply drop_left'
    rw [length_append, length_encode, length_encodeFrame]
  have hshort : ¬ (p.encode ++ rest).length < PDU_HDR_LEN := by
    rw [length_append]
    omega
  have hwhole : ¬ (p.encode ++ rest).length <
      PDU_HDR_LEN + CALL_FRAME_LEN + p.hdr.bounceLen.toNat := by
    rw [length_append]
    omega
  rw [VsockConn.takeRx, if_neg hshort, hheader, decode_encode p.known]
  simp only [p.argLen, ne_eq, not_true_eq_false, if_false, if_neg hwhole, htake, hdrop, hframe,
    decodeFrame_encodeFrame, hbounce]
  rfl

theorem takeRx_part {p : Pdu} (h : rx <+: p.encode) (hne : rx ≠ p.encode) :
    VsockConn.takeRx rx = (.err .notFound, rx) := by
  rw [VsockConn.takeRx]
  by_cases hshort : rx.length < PDU_HDR_LEN
  · rw [if_pos hshort]
  · have hheader : rx.take PDU_HDR_LEN = p.hdr.encode := p.take_header (.inl h) (by omega)
    have hpart : rx.length < PDU_HDR_LEN + CALL_FRAME_LEN + p.hdr.bounceLen.toNat := by
      rw [← p.length_encode]
      apply Nat.lt_of_le_of_ne h.length_le
      intro heq
      exact hne (h.eq_of_length heq)
    rw [if_neg hshort, hheader, decode_encode p.known]
    simp only [p.argLen, ne_eq, not_true_eq_false, if_false, if_pos hpart]

def pduFraming : Framing Pdu UInt8 (Fallible HalError (PduHeader × CallFrame × Bytes)) where
  encode := Pdu.encode
  take := VsockConn.takeRx
  got := fun p => .ok p.parts
  wait := .err .notFound
  take_nil := rfl
  take_whole := takeRx_whole
  take_part := takeRx_part

/-! ### Any cut, any moment -/

/-- A packet arrives, or the guest tries to take a PDU. -/
inductive StreamStep where
  | push (hdr : VirtioVsockHdr) (payload : Bytes)
  | take
deriving Repr, DecidableEq

/-- One `take_pdu`: its result and the buffer before and after. -/
structure Taken where
  result : Fallible HalError (PduHeader × CallFrame × Bytes)
  before : Bytes
  after : Bytes
deriving Repr, DecidableEq

namespace VsockConn

def run : List StreamStep → VsockConn → List Taken × VsockConn
  | [], c => ([], c)
  | .push hdr payload :: steps, c => run steps (pushRw hdr payload c).2
  | .take :: steps, c =>
    let r := takePdu c
    let rest := run steps r.2
    (⟨r.1, c.rx, r.2.rx⟩ :: rest.1, rest.2)

end VsockConn

def pushed : List StreamStep → Bytes
  | [] => []
  | .push _ payload :: steps => payload ++ pushed steps
  | .take :: steps => pushed steps

/-- The `Ok` result of a `take_pdu`. -/
def Taken.pdu (t : Taken) : Option (PduHeader × CallFrame × Bytes) :=
  match t.result with
  | .ok parts => some parts
  | _ => none

/-- The `Ok` results among a list of them. -/
def delivered (trace : List Taken) : List (PduHeader × CallFrame × Bytes) :=
  trace.filterMap Taken.pdu

def Arrives (c : VsockConn) (steps : List StreamStep) : Prop :=
  ∀ hdr payload, .push hdr payload ∈ steps → c.Takes hdr payload

theorem Arrives.tail {step : StreamStep} {steps : List StreamStep}
    (h : Arrives c (step :: steps)) : Arrives c steps := by
  intro hdr payload hmem
  exact h hdr payload (mem_cons_of_mem _ hmem)

/-- What a run leaves: the PDUs not taken are in the buffer or still to come. -/
theorem run_pending {coming : Bytes} :
    ∀ (steps : List StreamStep) {c : VsockConn} {pdus : List Pdu}, Arrives c steps →
      pduFraming.Pending pdus c.rx (pushed steps ++ coming) →
      ∃ taken rest, pdus = taken ++ rest ∧ delivered (c.run steps).1 = taken.map Pdu.parts ∧
        (∀ t ∈ (c.run steps).1, (∃ p ∈ pdus, t.result = .ok p.parts) ∨
          (t.result = .err .notFound ∧ t.after = t.before)) ∧
        pduFraming.Pending rest (c.run steps).2.rx coming := by
  intro steps
  induction steps with
  | nil =>
    intro c pdus _ hpending
    refine ⟨[], pdus, rfl, rfl, ?_, hpending⟩
    intro t ht
    cases ht
  | cons step steps ih =>
    intro c pdus harrives hpending
    cases step with
    | push hdr payload =>
      have htakes : c.Takes hdr payload := harrives hdr payload mem_cons_self
      have hpush : VsockConn.pushRw hdr payload c =
          (.ok (), { c with rx := c.rx ++ payload, fwdCnt := c.fwdCnt + hdr.len }) :=
        if_pos htakes
      rw [pushed, append_assoc] at hpending
      rw [VsockConn.run, hpush]
      exact ih (c := { c with rx := c.rx ++ payload, fwdCnt := c.fwdCnt + hdr.len })
        harrives.tail hpending.push
    | take =>
      rw [pushed] at hpending
      rcases hpending.take with ⟨p, rest, rx', rfl, htake, hrest⟩ | ⟨htake, -⟩
      · have hpdu : VsockConn.takePdu c = (.ok p.parts, { c with rx := rx' }) :=
          VsockConn.takePdu_of_takeRx htake
        obtain ⟨taken, left, hsplit, hdelivered, htrace, hend⟩ :=
          ih (c := { c with rx := rx' }) harrives.tail hrest
        rw [VsockConn.run, hpdu]
        refine ⟨p :: taken, left, ?_, ?_, ?_, hend⟩
        · rw [hsplit, cons_append]
        · rw [map_cons, ← hdelivered]
          rfl
        · intro t ht
          rcases mem_cons.mp ht with rfl | hlater
          · exact .inl ⟨p, mem_cons_self, rfl⟩
          · rcases htrace t hlater with ⟨q, hq, hresult⟩ | hquiet
            · exact .inl ⟨q, mem_cons_of_mem _ hq, hresult⟩
            · exact .inr hquiet
      · have hpdu : VsockConn.takePdu c = (.err .notFound, c) := VsockConn.takePdu_of_takeRx htake
        obtain ⟨taken, left, hsplit, hdelivered, htrace, hend⟩ := ih harrives.tail hpending
        rw [VsockConn.run, hpdu]
        refine ⟨taken, left, hsplit, ?_, ?_, hend⟩
        · rw [← hdelivered]
          rfl
        · intro t ht
          rcases mem_cons.mp ht with rfl | hlater
          · exact .inr ⟨rfl, rfl⟩
          · exact htrace t hlater

theorem run_append (steps steps' : List StreamStep) (c : VsockConn) :
    c.run (steps ++ steps') =
      ((c.run steps).1 ++ ((c.run steps).2.run steps').1, ((c.run steps).2.run steps').2) := by
  induction steps generalizing c with
  | nil => rfl
  | cons step steps ih =>
    cases step with
    | push | take =>
      rw [cons_append, VsockConn.run, ih]
      rfl

/-- With all bytes in the buffer, enough `take_pdu`s take every PDU. -/
theorem run_drain (n : Nat) {c : VsockConn} {pdus : List Pdu}
    (hpending : pduFraming.Pending pdus c.rx []) (hn : pdus.length ≤ n) :
    delivered (c.run (replicate n .take)).1 = pdus.map Pdu.parts := by
  induction n generalizing c pdus with
  | zero =>
    rw [length_eq_zero_iff.mp (Nat.le_zero.mp hn)]
    rfl
  | succ n ih =>
    rw [replicate_succ, VsockConn.run]
    rcases hpending.take with ⟨p, rest, rx', rfl, htake, hrest⟩ | ⟨htake, hdone⟩
    · have hpdu : VsockConn.takePdu c = (.ok p.parts, { c with rx := rx' }) :=
        VsockConn.takePdu_of_takeRx htake
      have hlater := ih (c := { c with rx := rx' }) hrest (by simpa using hn)
      rw [hpdu, map_cons, ← hlater]
      rfl
    · have hpdu : VsockConn.takePdu c = (.err .notFound, c) := VsockConn.takePdu_of_takeRx htake
      have hnone := hdone rfl
      subst hnone
      have hlater := ih hpending (Nat.zero_le n)
      rw [hpdu, ← hlater]
      rfl

/-- **PDUs come out of the stream as they were sent.**  The encodings of any PDUs, cut
into packets anywhere, with `take_pdu` called at any moments: the PDUs delivered are
the first of those sent, every other call finds nothing and changes nothing, and when
all bytes are there the rest is delivered. The host's `write_pdu` writes the same
encoding. -/
theorem pdus_reassembled {c : VsockConn} (hrx : c.rx = []) (pdus : List Pdu)
    {steps : List StreamStep} (harrives : Arrives c steps) {coming : Bytes}
    (hcut : pushed steps ++ coming = pdus.flatMap Pdu.encode) :
    delivered (c.run steps).1 <+: pdus.map Pdu.parts ∧
      (∀ t ∈ (c.run steps).1, (∃ p ∈ pdus, t.result = .ok p.parts) ∨
        (t.result = .err .notFound ∧ t.after = t.before)) ∧
      (coming = [] → ∀ n, pdus.length ≤ n →
        delivered (c.run (steps ++ replicate n .take)).1 = pdus.map Pdu.parts) ∧
      ∀ (p : Pdu) (pool out : Bytes), pool.length < 2 ^ 64 →
        p.frame.cookieA1a2.toNat + p.hdr.bounceLen.toNat ≤ pool.length →
        (pool.drop p.frame.cookieA1a2.toNat).take p.hdr.bounceLen.toNat = p.bounce →
        Proto.writePdu p.hdr.kind p.hdr.seq ⟨p.frame.r⟩ pool p.hdr.bounceLen out =
          (.ok (), out ++ p.encode) := by
  have hpending : pduFraming.Pending pdus c.rx (pushed steps ++ coming) := by
    rw [hrx]
    exact hcut
  obtain ⟨taken, rest, hsplit, hdelivered, htrace, hend⟩ := run_pending steps harrives hpending
  refine ⟨?_, htrace, ?_, ?_⟩
  · rw [hdelivered, hsplit, map_append]
    exact prefix_append _ _
  · intro hcoming n hn
    rw [hcoming] at hend
    have hleft : rest.length ≤ n := by
      rw [hsplit, length_append] at hn
      omega
    have hdrain := run_drain n hend hleft
    rw [run_append, delivered, filterMap_append]
    rw [delivered] at hdelivered hdrain
    rw [hdelivered, hdrain, hsplit, map_append]
  · intro p pool out hsize hwindow hbounce
    have hcookie : (⟨p.frame.r⟩ : Proto.CallFrame).cookie = p.frame.cookieA1a2 :=
      (Proto.cookieA1a2_toGuest ⟨p.frame.r⟩).symm
    have harg : p.hdr = ⟨p.hdr.kind, p.hdr.seq, 64, p.hdr.bounceLen⟩ := by
      rw [show (64 : UInt32) = UInt32.ofNat CALL_FRAME_LEN from rfl, ← p.argLen]
    rw [Proto.writePdu_eq (by rw [hcookie]; exact hwindow) hsize, hcookie, hbounce, Pdu.encode,
      ← harg]
    rfl

/-! ### A small stream -/

def sampleConn : VsockConn := ⟨3, 7007, 2, 9, 0, []⟩

def hostHdr (op : UInt16) (srcPort : UInt32) (len : Nat) : VirtioVsockHdr :=
  ⟨2, 3, srcPort, 7007, UInt32.ofNat len, VIRTIO_VSOCK_TYPE_STREAM, op, 0, 64 * 1024, 0⟩

def sampleEnter : Pdu where
  hdr := ⟨KIND_ENTER, 7, 64, 2⟩
  frame := ⟨Vector.replicate 8 0⟩
  bounce := [1, 2]
  known := .inl rfl
  argLen := rfl
  bounceLen := rfl

/-- The ENTER cut inside its frame, with a `take_pdu` between the two pieces. -/
def sampleSteps : List StreamStep :=
  [.push (hostHdr VIRTIO_VSOCK_OP_RW 9 20) (sampleEnter.encode.take 20), .take,
    .push (hostHdr VIRTIO_VSOCK_OP_RW 9 62) (sampleEnter.encode.drop 20)]

theorem pdus_reassembled_sample :
    delivered (sampleConn.run (sampleSteps ++ [.take])).1 = [sampleEnter.parts] := by
  have harrives : Arrives sampleConn sampleSteps := by
    intro hdr payload hmem
    simp only [sampleSteps, mem_cons, StreamStep.push.injEq, reduceCtorEq, false_or,
      not_mem_nil, or_false] at hmem
    rcases hmem with ⟨rfl, rfl⟩ | ⟨rfl, rfl⟩
    · decide +kernel
    · decide +kernel
  have hcut : pushed sampleSteps ++ [] = [sampleEnter].flatMap Pdu.encode := by
    simp [sampleSteps, pushed]
  exact (pdus_reassembled (c := sampleConn) rfl [sampleEnter] harrives hcut).2.2.1 rfl 1
    (Nat.le_refl 1)

end Rustee.Virt
