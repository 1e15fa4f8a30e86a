import Rustee.VirtConnections

/-!
# How much the receive buffer of a connection holds

After every RW packet the guest tries to take one PDU. `take_pdu` takes one only if its header is
good and all of it is there; otherwise it leaves the buffer as it is, also when the header is
malformed or announces more than the pool can hold. So the buffer is bounded as long as its front
stays good and no packet completes two PDUs, and a malformed header lets it grow for ever.
-/

namespace Rustee.Virt

open Attempt List VirtHal VsockConn PduHeader

open Os (HalError)

def RW_PAYLOAD_MAX : Nat := 4052

def RX_BOUND : Nat := PDU_HDR_LEN + CALL_FRAME_LEN + BOUNCE_POOL_SIZE + RW_PAYLOAD_MAX

/-! ### Packets and calls -/

/-- An RW packet, and which of the two calls follows it. -/
structure RwStep where
  hdr : VirtioVsockHdr
  payload : Bytes
  reply : Bool
  fits : payload.length ≤ RW_PAYLOAD_MAX

/-- `recv_rpc_reply` or `recv_enter`; the buffer is what is looked at here. -/
def recvEither (reply : Bool) (h : VirtHal) : VirtHal :=
  if reply then (recvRpcReply h).2 else (recvEnter h).2

def rwStep (r : RwStep) (h : VirtHal) : VirtHal × VirtHal :=
  match pushHostRw r.hdr r.payload h with
  | (.ok _, h') => (h', recvEither r.reply h')
  | (_, h') => (h', h')

def rwStates : List RwStep → VirtHal → List VirtHal
  | [], h => [h]
  | r :: rs, h => h :: (rwStep r h).1 :: rwStates rs (rwStep r h).2

def rxLen (h : VirtHal) : Nat := (h.conn.map fun c => c.rx.length).getD 0

/-! ### The front of the buffer -/

/-- The header at the front, if it is there and `take_pdu` knows it. -/
def frontHdr (buf : Bytes) : Option PduHeader :=
  if buf.length < PDU_HDR_LEN then none
  else
    match decode (buf.take PDU_HDR_LEN) with
    | .error _ => none
    | .ok hdr => if hdr.argLen = UInt32.ofNat CALL_FRAME_LEN then some hdr else none

def pduLen (hdr : PduHeader) : Nat := PDU_HDR_LEN + CALL_FRAME_LEN + hdr.bounceLen.toNat

def HoldsPdu (buf : Bytes) : Prop := ∃ hdr, frontHdr buf = some hdr ∧ pduLen hdr ≤ buf.length

/-- A header that is there is known, and its window is not larger than the pool. -/
def GoodFront (buf : Bytes) : Prop :=
  PDU_HDR_LEN ≤ buf.length → ∃ hdr, frontHdr buf = some hdr ∧ hdr.bounceLen.toNat ≤ BOUNCE_POOL_SIZE

def AtMostOne (buf : Bytes) : Prop :=
  ∀ hdr, frontHdr buf = some hdr → pduLen hdr ≤ buf.length → ¬ HoldsPdu (buf.drop (pduLen hdr))

instance (buf : Bytes) : Decidable (HoldsPdu buf) :=
  inferInstanceAs (Decidable (∃ hdr ∈ frontHdr buf, _))

instance (buf : Bytes) : Decidable (GoodFront buf) :=
  inferInstanceAs (Decidable (_ → ∃ hdr ∈ frontHdr buf, _))

instance (buf : Bytes) : Decidable (AtMostOne buf) :=
  inferInstanceAs (Decidable (∀ hdr ∈ frontHdr buf, _ → ¬ _))

variable {buf : Bytes}

theorem takeRx_of_front {hdr : PduHeader} (h : frontHdr buf = some hdr) :
    (takeRx buf).2 = if pduLen hdr ≤ buf.length then buf.drop (pduLen hdr) else buf := by
  by_cases hlong : buf.length < PDU_HDR_LEN
  · rw [frontHdr, if_pos hlong] at h
    cases h
  · rw [frontHdr, if_neg hlong] at h
    rw [takeRx, if_neg hlong]
    cases hdecode : decode (buf.take PDU_HDR_LEN) with
    | error =>
      rw [hdecode] at h
      cases h
    | ok =>
      rw [hdecode] at h
      obtain ⟨harg, hhdr⟩ := Option.ite_none_right_eq_some.mp h
      cases hhdr
      dsimp only
      rw [if_neg (not_not.mpr harg)]
      by_cases hwhole : pduLen hdr ≤ buf.length
      · have hnot : ¬ buf.length < PDU_HDR_LEN + CALL_FRAME_LEN + hdr.bounceLen.toNat :=
          Nat.not_lt.mpr hwhole
        rw [if_pos hwhole, if_neg hnot]
        split <;> rfl
      · have hpart : buf.length < PDU_HDR_LEN + CALL_FRAME_LEN + hdr.bounceLen.toNat :=
          Nat.not_le.mp hwhole
        rw [if_neg hwhole, if_pos hpart]

/-- Without a header it knows, `take_pdu` leaves the buffer alone. -/
theorem takeRx_of_no_front (h : frontHdr buf = none) : (takeRx buf).2 = buf := by
  by_cases hlong : buf.length < PDU_HDR_LEN
  · rw [takeRx, if_pos hlong]
  · rw [frontHdr, if_neg hlong] at h
    rw [takeRx, if_neg hlong]
    cases hdecode : decode (buf.take PDU_HDR_LEN) with
    | error => rfl
    | ok hdr =>
      rw [hdecode] at h
      dsimp only at h ⊢
      by_cases harg : hdr.argLen = UInt32.ofNat CALL_FRAME_LEN
      · rw [if_pos harg] at h
        cases h
      · rw [if_pos harg]

theorem frontHdr_append (h : PDU_HDR_LEN ≤ buf.length) (more : Bytes) :
    frontHdr (buf ++ more) = frontHdr buf := by
  have hlong : ¬ (buf ++ more).length < PDU_HDR_LEN := by
    rw [length_append]
    omega
  rw [frontHdr, frontHdr, if_neg hlong, if_neg (Nat.not_lt.mpr h), take_append_of_le_length h]

/-! ### One packet -/

/-- What the buffer is between two packets. -/
structure Waiting (rx : Bytes) : Prop where
  part : ¬ HoldsPdu rx
  short : rx.length < PDU_HDR_LEN + CALL_FRAME_LEN + BOUNCE_POOL_SIZE

/-- A packet that keeps the front good and completes at most one PDU leaves less than a PDU. -/
theorem Waiting.step {rx payload : Bytes} (h : Waiting rx)
    (hpayload : payload.length ≤ RW_PAYLOAD_MAX) (hfront : GoodFront (rx ++ payload))
    (hone : AtMostOne (rx ++ payload)) : Waiting (takeRx (rx ++ payload)).2 := by
  cases hhdr : frontHdr (rx ++ payload) with
  | none =>
    have hshort : (rx ++ payload).length < PDU_HDR_LEN := by
      by_contra hlong
      obtain ⟨hdr, hsome, -⟩ := hfront (Nat.not_lt.mp hlong)
      rw [hhdr] at hsome
      cases hsome
    rw [takeRx_of_no_front hhdr]
    refine ⟨?_, by omega⟩
    rintro ⟨hdr, hsome, -⟩
    rw [hhdr] at hsome
    cases hsome
  | some hdr =>
    rw [takeRx_of_front hhdr]
    by_cases hwhole : pduLen hdr ≤ (rx ++ payload).length
    · rw [if_pos hwhole]
      refine ⟨hone hdr hhdr hwhole, ?_⟩
      -- the rest is part of the packet: the PDU was not whole before
      have hpart : rx.length < pduLen hdr := by
        by_contra hrx
        have hlong : PDU_HDR_LEN ≤ rx.length := by
          rw [pduLen] at hrx
          omega
        rw [frontHdr_append hlong] at hhdr
        exact h.part ⟨hdr, hhdr, Nat.not_lt.mp hrx⟩
      rw [length_drop, length_append, PDU_HDR_LEN, CALL_FRAME_LEN, BOUNCE_POOL_SIZE]
      rw [RW_PAYLOAD_MAX] at hpayload
      omega
    · rw [if_neg hwhole]
      refine ⟨?_, ?_⟩
      · rintro ⟨hdr', hsome, hle⟩
        rw [hhdr] at hsome
        cases hsome
        exact hwhole hle
      · have hlong : PDU_HDR_LEN ≤ (rx ++ payload).length := by
          by_contra hshort
          rw [frontHdr, if_pos (Nat.not_le.mp hshort)] at hhdr
          cases hhdr
        obtain ⟨hdr', hsome, hbounce⟩ := hfront hlong
        rw [hhdr] at hsome
        cases hsome
        rw [pduLen] at hwhole
        omega

/-! ### Runs -/

def sameConn : Frame VirtHal where
  rel h h' := h'.conn = h.conn
  refl _ := rfl
  trans h h' := h'.trans h

theorem feedPdu_sameConn (hdr : PduHeader) (frame : CallFrame) (bounce : Bytes) :
    Keeps sameConn (feedPdu hdr frame bounce) := by
  have hcopy : Keeps sameConn (copyBounceIn frame.cookieA1a2 bounce) := by
    intro h
    rw [copyBounceIn]
    split <;> rfl
  rw [feedPdu]
  split
  · exact keeps_raise _
  · split
    · exact keeps_raise _
    · exact hcopy.bind fun _ _ => rfl

variable {h : VirtHal} {c : VsockConn}

/-- Either call takes from the buffer what `take_pdu` takes. -/
theorem recvEither_conn (reply : Bool) (hconn : h.conn = some c) :
    (recvEither reply h).conn = some { c with rx := (takeRx c.rx).2 } := by
  have htake : (onConn takePdu h).2.conn = some { c with rx := (takeRx c.rx).2 } := by
    rw [onConn, hconn]
    rfl
  rw [← htake, recvEither]
  cases reply with
  | true =>
    refine rel_after (F := sameConn) ?_ h
    rintro ⟨hdr, frame, bounce⟩
    dsimp only
    split
    · exact keeps_raise _
    · refine (feedPdu_sameConn hdr frame bounce).bind fun _ => Keeps.bind ?_ fun _ =>
        keeps_pure _
      intro h
      rfl
  | false =>
    refine rel_after (F := sameConn) ?_ h
    rintro ⟨hdr, frame, bounce⟩
    refine (feedPdu_sameConn hdr frame bounce).bind fun _ => ?_
    intro h
    rfl

theorem rwStep_of_takes {r : RwStep} (hconn : h.conn = some c) (htakes : c.Takes r.hdr r.payload) :
    (rwStep r h).1.conn = some { c with rx := c.rx ++ r.payload, fwdCnt := c.fwdCnt + r.hdr.len } ∧
      (rwStep r h).2.conn = some { c with
        rx := (takeRx (c.rx ++ r.payload)).2, fwdCnt := c.fwdCnt + r.hdr.len } := by
  have hpush : pushHostRw r.hdr r.payload h = (.ok (), { h with conn := some { c with
      rx := c.rx ++ r.payload, fwdCnt := c.fwdCnt + r.hdr.len } }) := by
    rw [pushHostRw, onConn, hconn]
    dsimp only
    rw [pushRw, if_pos htakes]
  rw [rwStep, hpush]
  dsimp only
  exact ⟨rfl, recvEither_conn r.reply
    (c := { c with rx := c.rx ++ r.payload, fwdCnt := c.fwdCnt + r.hdr.len }) rfl⟩

theorem rwStep_of_not {r : RwStep} (hconn : h.conn = some c) (htakes : ¬ c.Takes r.hdr r.payload) :
    (rwStep r h).1.conn = some c ∧ (rwStep r h).2.conn = some c := by
  have hpush : pushHostRw r.hdr r.payload h = (.err .invalidParam, { h with conn := some c }) := by
    rw [pushHostRw, onConn, hconn]
    dsimp only
    rw [pushRw, if_neg htakes]
  rw [rwStep, hpush]
  exact ⟨rfl, rfl⟩

def PacketFits (r : RwStep) (h : VirtHal) : Prop :=
  ∀ c, h.conn = some c → c.Takes r.hdr r.payload →
    GoodFront (c.rx ++ r.payload) ∧ AtMostOne (c.rx ++ r.payload)

def RunFits : List RwStep → VirtHal → Prop
  | [], _ => True
  | r :: rs, h => PacketFits r h ∧ RunFits rs (rwStep r h).2

instance (r : RwStep) (h : VirtHal) : Decidable (PacketFits r h) :=
  inferInstanceAs (Decidable (∀ c ∈ h.conn, _ → _ ∧ _))

instance decidableRunFits : (rs : List RwStep) → (h : VirtHal) → Decidable (RunFits rs h)
  | [], _ => inferInstanceAs (Decidable True)
  | _ :: rs, _ => @instDecidableAnd _ _ _ (decidableRunFits rs _)

theorem rxLen_of_conn (hconn : h.conn = some c) : rxLen h = c.rx.length := by
  rw [rxLen, hconn]
  rfl

theorem rxLen_le_of_waiting (hconn : h.conn = some c)
    (hwaiting : Waiting c.rx) : rxLen h ≤ RX_BOUND := by
  have hshort := hwaiting.short
  rw [rxLen_of_conn hconn, RX_BOUND]
  omega

/-- As long as every packet keeps the front good and completes at most one PDU, the buffer
holds less than one PDU and one packet. -/
theorem receive_buffer_bounded (rs : List RwStep) (h : VirtHal) (c : VsockConn)
    (hconn : h.conn = some c) (hempty : c.rx = []) (hfits : RunFits rs h) :
    ∀ s ∈ rwStates rs h, rxLen s ≤ RX_BOUND := by
  have hwaiting : Waiting c.rx := by
    rw [hempty]
    refine ⟨?_, by decide⟩
    rintro ⟨hdr, hsome, -⟩
    cases hsome
  clear hempty
  induction rs generalizing h c with
  | nil =>
    intro s hs
    rw [rwStates, mem_singleton] at hs
    rw [hs]
    exact rxLen_le_of_waiting hconn hwaiting
  | cons r rs ih =>
    obtain ⟨hpacket, hrest⟩ := hfits
    intro s hs
    rw [rwStates, mem_cons, mem_cons] at hs
    by_cases htakes : c.Takes r.hdr r.payload
    · obtain ⟨hpushed, htaken⟩ := rwStep_of_takes hconn htakes
      obtain ⟨hfront, hone⟩ := hpacket c hconn htakes
      rcases hs with rfl | rfl | hs
      · exact rxLen_le_of_waiting hconn hwaiting
      · have hshort := hwaiting.short
        have hpayload := r.fits
        rw [rxLen_of_conn hpushed, length_append, RX_BOUND]
        omega
      · exact ih _ _ htaken hrest (hwaiting.step r.fits hfront hone) s hs
    · obtain ⟨hpushed, htaken⟩ := rwStep_of_not hconn htakes
      rcases hs with rfl | rfl | hs
      · exact rxLen_le_of_waiting hconn hwaiting
      · exact rxLen_le_of_waiting hpushed hwaiting
      · exact ih _ _ htaken hrest hwaiting s hs

def peerHdr (len : UInt32) : VirtioVsockHdr where
  srcCid := 2
  dstCid := 3
  srcPort := 1024
  dstPort := VSOCK_PORT
  len := len
  ty := VIRTIO_VSOCK_TYPE_STREAM
  op := VIRTIO_VSOCK_OP_RW
  flags := 0
  bufAlloc := VSOCK_BUF_ALLOC
  fwdCnt := 0

def peerConn : VsockConn := ⟨3, VSOCK_PORT, 2, 1024, 0, []⟩

def peerConnected : VirtHal := { init with conn := some peerConn }

def shortEnter : Bytes :=
  encodePdu ⟨KIND_ENTER, 1, 64, 0⟩ ⟨Vector.replicate 8 0⟩ []

/-- The packet with `len` bytes of `shortEnter` from `start` on. -/
def enterPiece (start len : Nat) (h : ((shortEnter.drop start).take len).length ≤ RW_PAYLOAD_MAX) :
    RwStep :=
  ⟨peerHdr (UInt32.ofNat len), (shortEnter.drop start).take len, false, h⟩

/-- The PDU in three packets: part of its header, the rest of it with part of the frame, the
end. -/
def cutEnter : List RwStep :=
  [enterPiece 0 10 (by decide), enterPiece 10 50 (by decide), enterPiece 60 20 (by decide)]

theorem receive_buffer_bounded_sample :
    (rwStates cutEnter peerConnected).map rxLen = [0, 10, 10, 60, 60, 80, 0] ∧
      ∀ s ∈ rwStates cutEnter peerConnected, rxLen s ≤ RX_BOUND :=
  ⟨by decide +kernel,
    receive_buffer_bounded _ peerConnected peerConn rfl rfl (by decide +kernel)⟩

/-! ### A malformed header -/

def zeroPacket : RwStep :=
  ⟨peerHdr 4052, replicate RW_PAYLOAD_MAX 0, false,
    Nat.le_of_eq length_replicate⟩

theorem frontHdr_zeros (n : Nat) : frontHdr (replicate n 0) = none := by
  rw [frontHdr]
  split
  · rfl
  · rename_i hlong
    have htake : (replicate n (0 : UInt8)).take PDU_HDR_LEN = replicate PDU_HDR_LEN 0 := by
      rw [length_replicate] at hlong
      rw [take_replicate, Nat.min_eq_left (Nat.not_lt.mp hlong)]
    rw [htake]
    rfl

theorem zeros_pile_up (k : Nat) (hconn : h.conn = some c)
    (hends : peerConn.SameEnds c) {n : Nat} (hrx : c.rx = replicate n 0) :
    ∃ s ∈ rwStates (replicate k zeroPacket) h, rxLen s = n + k * RW_PAYLOAD_MAX := by
  induction k generalizing h c n with
  | zero =>
    refine ⟨h, mem_singleton.mpr rfl, ?_⟩
    rw [rxLen_of_conn hconn, hrx, length_replicate, Nat.zero_mul, Nat.add_zero]
  | succ k ih =>
    have htakes : c.Takes zeroPacket.hdr zeroPacket.payload := by
      rw [hends.takes]
      exact ⟨rfl, rfl, rfl, rfl, length_replicate⟩
    obtain ⟨-, htaken⟩ := rwStep_of_takes hconn htakes
    have hrx' : (takeRx (c.rx ++ zeroPacket.payload)).2 = replicate (n + RW_PAYLOAD_MAX) 0 := by
      rw [hrx]
      show (takeRx (replicate n 0 ++ replicate RW_PAYLOAD_MAX 0)).2 = _
      rw [replicate_append_replicate, takeRx_of_no_front (frontHdr_zeros _)]
    obtain ⟨hcid, hport, hhost, hhostPort⟩ := hends
    obtain ⟨s, hs, hlen⟩ := ih htaken ⟨hcid, hport, hhost, hhostPort⟩ hrx'
    refine ⟨s, ?_, ?_⟩
    · rw [replicate_succ, rwStates]
      exact mem_cons_of_mem _ (mem_cons_of_mem _ hs)
    · rw [hlen, Nat.succ_mul]
      omega

/-- 4142 packets of zeros are more than the bound. -/
theorem malformed_header_fills_memory :
    ∃ s ∈ rwStates (replicate 4142 zeroPacket) peerConnected, RX_BOUND < rxLen s := by
  obtain ⟨s, hs, hlen⟩ :=
    zeros_pile_up 4142 (h := peerConnected) (n := 0) rfl ⟨rfl, rfl, rfl, rfl⟩ rfl
  refine ⟨s, hs, ?_⟩
  rw [hlen]
  decide

end Rustee.Virt
