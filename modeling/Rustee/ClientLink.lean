import Rustee.GuestCalls
import Rustee.ProtoMsg
import Rustee.ClientWire

/-!
# Client and guest on one stream

The bytes the client writes reach the guest in order, in packets cut as the host likes, and what
the guest sends comes back in order. All of it is said for every kernel behind the guest.
-/

namespace Rustee.Client

open Os Virt Guest Attempt List

variable {κ : Type}

/-! ### The link -/

/-- A guest and the bytes on the way to it and from it. -/
structure Link (κ : Type) where
  guest : GuestState κ
  outbox : Bytes
  inbox : Bytes
  /-- How often bytes were delivered; each time they may be cut differently. -/
  deliveries : Nat
  /-- The loop of the guest has ended. -/
  halted : Bool

def newBytes (g g' : GuestState κ) : Bytes := ((emitted g').drop (emitted g).length).flatten

theorem newBytes_of_append {g g' : GuestState κ} {pdu : Bytes}
    (h : emitted g' = emitted g ++ [pdu]) : newBytes g g' = pdu := by
  rw [newBytes, h, drop_left, flatten_cons, flatten_nil, append_nil]

abbrev Cut := Nat → Bytes → List Packet

/-- However the bytes are cut, the packets are of the connection and carry them in order. -/
def Faithful (c : VsockConn) (cut : Cut) : Prop :=
  ∀ k bytes, OfConn c (cut k bytes) ∧ rwPayloads (cut k bytes) = bytes

section Link

variable (K : GuestKernel κ) (build : Build) (cut : Cut)

/-- What the client has written reaches the guest, and the guest works on it. -/
def Link.deliver (l : Link κ) : Link κ :=
  if l.outbox = [] ∨ l.halted then l
  else
    let r := vsockLoop K build (cut l.deliveries l.outbox) l.guest
    ⟨r.2, [], l.inbox ++ newBytes l.guest r.2, l.deliveries + 1, r.1 ≠ .ok ()⟩

/-- The client's end. A read waits until the guest has done with what it was sent. -/
def linkSocket : Socket (Link κ) where
  write := fun bytes l => (true, { l with outbox := l.outbox ++ bytes })
  read := fun n l =>
    let l := l.deliver K build cut
    (l.inbox.take n, { l with inbox := l.inbox.drop n })

end Link

/-! ### Reading and writing -/

section Socket

variable {K : GuestKernel κ} {build : Build} {cut : Cut} {H : Type} {l : Link κ}

theorem deliver_of_empty (h : l.outbox = []) : l.deliver K build cut = l := by
  rw [Link.deliver, if_pos (.inl h)]

theorem read_link {l' : Link κ} {front rest : Bytes} {n : Nat}
    (hdeliver : l.deliver K build cut = l') (hinbox : l'.inbox = front ++ rest)
    (hlen : front.length = n) :
    (linkSocket K build cut).read n l = (front, { l' with inbox := rest }) := by
  show ((l.deliver K build cut).inbox.take n, { l.deliver K build cut with
    inbox := (l.deliver K build cut).inbox.drop n }) = _
  rw [hdeliver, hinbox, take_left' hlen, drop_left' hlen]

variable {c : Call (Link κ) H}

theorem readPdu_link {hdr : Proto.PduHeader} {frame : Virt.CallFrame}
    {window : Bytes} (hkind : KnownKind hdr.kind) (harg : hdr.argLen = UInt32.ofNat CALL_FRAME_LEN)
    (hin : frame.cookieA1a2.toNat + hdr.bounceLen.toNat ≤ BOUNCE_POOL_SIZE)
    (hlen : window.length = hdr.bounceLen.toNat)
    (hdeliver : c.transport.sock.deliver K build cut = l) (hout : l.outbox = [])
    (hinbox : l.inbox = hdr.encode ++ (encodeFrame frame ++ window)) :
    readPdu (linkSocket K build cut) c = (.ok (hdr, Proto.CallFrame.ofGuest frame),
      (c.withSock { l with inbox := [] }).withBounce
        (c.bounce.put frame.cookieA1a2.toNat window)) := by
  have hread := read_link hdeliver hinbox rfl
  -- nothing more is on its way to the guest, so the other reads deliver nothing
  have hframe : { l with inbox := encodeFrame frame ++ window }.deliver K build cut =
      { l with inbox := encodeFrame frame ++ window } := deliver_of_empty hout
  have hread' := read_link hframe rfl (length_encodeFrame frame)
  have hwindow : { l with inbox := window }.deliver K build cut = { l with inbox := window } :=
    deliver_of_empty hout
  by_cases hpos : 0 < hdr.bounceLen.toNat
  · have hread'' := read_link hwindow (append_nil window).symm hlen
    rw [readPdu_of_head hkind harg hin hread hread', if_pos hpos]
    exact bind_of_ok (readWindow_of_read hread'' hlen)
  · have hnil : window = [] := eq_nil_of_length_eq_zero (by omega)
    rw [readPdu_of_head hkind harg hin hread hread', if_neg hpos, hnil, Pool.put_nil]
    rfl

theorem writePdu_link {q : Pdu} {frame : Proto.CallFrame}
    (hframe : frame.toGuest = q.frame) (hin : InPool q)
    (hbounce : c.bounce.get q.frame.cookieA1a2.toNat q.hdr.bounceLen.toNat = q.bounce) :
    writePdu (linkSocket K build cut) q.hdr.kind q.hdr.seq frame q.hdr.bounceLen c =
      (.ok (), c.withSock { c.transport.sock with
        outbox := c.transport.sock.outbox ++ q.encode }) := by
  have hcookie : frame.cookie = q.frame.cookieA1a2 := by
    rw [← hframe, Proto.cookieA1a2_toGuest]
  have hhdr : (Proto.PduHeader.yielding q.hdr.kind q.hdr.seq q.hdr.bounceLen).encode =
      q.hdr.encode := by
    rw [Proto.PduHeader.encode, PduHeader.encode, q.argLen]
    rfl
  have hwords : frame.encode = encodeFrame q.frame := by
    rw [← hframe]
    rfl
  have hin' : frame.cookie.toNat + q.hdr.bounceLen.toNat ≤ BOUNCE_POOL_SIZE := by
    rw [hcookie]
    exact hin
  rw [writePdu_of_writes hin' rfl rfl rfl, hcookie, hbounce, hhdr, hwords, Pdu.encode, encodePdu]
  dsimp only
  rw [append_assoc, append_assoc]

end Socket

/-! ### A guest that has stopped -/

section Halted

variable {K : GuestKernel κ} {build : Build} {cut : Cut} {H : Type}

def haltedFrame (κ H : Type) : Frame (Call (Link κ) H) where
  rel c c' := c.transport.sock.halted = true →
    c'.transport.sock.halted = true ∧ c'.transport.sock.guest = c.transport.sock.guest
  refl _ h := ⟨h, rfl⟩
  trans h h' hc := ⟨(h' (h hc).1).1, (h' (h hc).1).2.trans (h hc).2⟩

theorem deliver_of_halted {l : Link κ} (h : l.halted = true) : l.deliver K build cut = l := by
  rw [Link.deliver, if_pos (.inr h)]

theorem haltedFrame_of_same {c c' : Call (Link κ) H}
    (h : c'.transport.sock = c.transport.sock) : (haltedFrame κ H).rel c c' := by
  intro hc
  rw [h]
  exact ⟨hc, rfl⟩

theorem writeAll_halted (buf : Bytes) :
    Keeps (haltedFrame κ H) (writeAll (linkSocket K build cut) buf) :=
  fun _ h => ⟨h, rfl⟩

/-- Reading from a guest that has stopped, whatever is done with the bytes. -/
theorem read_halted {c : Call (Link κ) H} (n : Nat) {c' : Call (Link κ) H}
    (h : c'.transport.sock = ((linkSocket K build cut).read n c.transport.sock).2) :
    (haltedFrame κ H).rel c c' := by
  intro hc
  have hsock : c'.transport.sock =
      { c.transport.sock with inbox := c.transport.sock.inbox.drop n } := by
    rw [h]
    show { c.transport.sock.deliver K build cut with
      inbox := (c.transport.sock.deliver K build cut).inbox.drop n } = _
    rw [deliver_of_halted hc]
  rw [hsock]
  exact ⟨hc, rfl⟩

theorem readExact_halted (n : Nat) :
    Keeps (haltedFrame κ H) (readExact (linkSocket K build cut) n) := by
  intro c
  apply read_halted n
  rw [readExact]
  dsimp only
  split <;> rfl

theorem readWindow_halted (start n : Nat) :
    Keeps (haltedFrame κ H) (readWindow (linkSocket K build cut) start n) := by
  intro c
  apply read_halted n
  rw [readWindow]
  dsimp only
  split <;> rfl

variable (hook : Option (RpcHook H)) (fuel : Nat)

theorem enterLoop_halted :
    Keeps (haltedFrame κ H) (enterLoop (linkSocket K build cut) build hook fuel) :=
  let R := keepsRule (haltedFrame κ H)
  R.enterLoop (R.readPdu readExact_halted readWindow_halted)
    (fun _ _ c => haltedFrame_of_same (by rw [runHook_snd])) (R.writePdu writeAll_halted)
    (fun _ => haltedFrame_of_same rfl) (keeps_lift _) fuel

/-! ### Delivering first -/

theorem deliver_deliver (l : Link κ) :
    (l.deliver K build cut).deliver K build cut = l.deliver K build cut := by
  by_cases h : l.outbox = [] ∨ l.halted
  · have hsame : l.deliver K build cut = l := by rw [Link.deliver, if_pos h]
    rw [hsame, hsame]
  · apply deliver_of_empty
    rw [Link.deliver, if_neg h]

def flushed (K : GuestKernel κ) (build : Build) (cut : Cut) (c : Call (Link κ) H) :
    Call (Link κ) H := c.withSock (c.transport.sock.deliver K build cut)

theorem enterLoop_flushed (c : Call (Link κ) H) :
    enterLoop (linkSocket K build cut) build hook (fuel + 1) c =
      enterLoop (linkSocket K build cut) build hook (fuel + 1) (flushed K build cut c) := by
  have hread : readExact (linkSocket K build cut) PDU_HDR_LEN c =
      readExact (linkSocket K build cut) PDU_HDR_LEN (flushed K build cut c) := by
    have hsock : (linkSocket K build cut).read PDU_HDR_LEN c.transport.sock =
        (linkSocket K build cut).read PDU_HDR_LEN (flushed K build cut c).transport.sock := by
      show (_, _) = (_, _)
      rw [show (flushed K build cut c).transport.sock = c.transport.sock.deliver K build cut
        from rfl, deliver_deliver]
    rw [readExact, readExact, hsock]
    rfl
  have hpdu : readPdu (linkSocket K build cut) c =
      readPdu (linkSocket K build cut) (flushed K build cut c) := by
    rw [readPdu, bind_apply, bind_apply, hread]
  rw [enterLoop, bind_apply, bind_apply, hpdu]

/-- The client's last read: what the guest has sent is the COMPLETE of the ENTER. -/
theorem enterLoop_complete {H : Type} (hook : Option (RpcHook H)) (fuel : Nat)
    {call : Call (Link κ) H} {pool : Pool} (hout : call.transport.sock.outbox = [])
    (hinbox : call.transport.sock.inbox = completePdu p pool) (hin : InPool p) :
    ∃ call', enterLoop (linkSocket K build cut) build hook (fuel + 1) call =
        (.ok (Proto.CallFrame.ofGuest p.frame), call') ∧
      call'.transport.sock = { call.transport.sock with inbox := [] } ∧
      call'.transport.seq = call.transport.seq ∧ call'.transport.yielding = false ∧
      call'.bounce = call.bounce.put p.frame.cookieA1a2.toNat
        (pool.get p.frame.cookieA1a2.toNat p.hdr.bounceLen.toNat) ∧
      call'.process = call.process := by
  have hread : readPdu (linkSocket K build cut) call = (.ok
      (⟨KIND_COMPLETE, p.hdr.seq, UInt32.ofNat CALL_FRAME_LEN, p.hdr.bounceLen⟩,
        Proto.CallFrame.ofGuest p.frame), _) :=
    readPdu_link (.inr (.inr (.inl rfl))) rfl hin (Pool.length_get _ _ _)
      (deliver_of_empty hout) hout hinbox
  exact ⟨_, enterLoop_of_complete hread rfl, rfl, rfl, rfl, rfl, rfl⟩

/-! ### One call -/

/-- A call that the guest completes in one go: the window of the COMPLETE is in the pool. -/
theorem enterStream_completed {c : VsockConn}
    {frame : Proto.CallFrame} {call : Call (Link κ) H} {g g' : GuestState κ} {deliveries : Nat}
    {q : Pdu} (hsock : call.transport.sock = ⟨g, [], [], deliveries, false⟩)
    (hfree : call.transport.yielding = false) (hkind : q.hdr.kind = KIND_ENTER)
    (hseq : q.hdr.seq = call.transport.seq) (hframe : frame.toGuest = q.frame) (hin : InPool q)
    (hbounce : call.bounce.get q.frame.cookieA1a2.toNat q.hdr.bounceLen.toNat = q.bounce)
    (hloop : vsockLoop K build (cut deliveries q.encode) g = (.ok (), g'))
    (hdone : Completed c q (emitted g) g') :
    ∃ call', enterStream (linkSocket K build cut) build hook (fuel + 1) frame q.hdr.bounceLen
        call = (.ok (Proto.CallFrame.ofGuest q.frame), call') ∧
      call'.transport.sock = ⟨g', [], [], deliveries + 1, false⟩ ∧
      call'.transport.yielding = false ∧
      call'.bounce = call.bounce.put q.frame.cookieA1a2.toNat
        (g'.pool.get q.frame.cookieA1a2.toNat q.hdr.bounceLen.toNat) := by
  -- the call is marked and numbered, and the ENTER is on its way
  let marked := call.entered call.transport.sock
  let sent := marked.withSock ⟨g, q.encode, [], deliveries, false⟩
  have hwrite : writePdu (linkSocket K build cut) KIND_ENTER call.transport.seq frame
      q.hdr.bounceLen marked = (.ok (), sent) := by
    have hpdu : writePdu (linkSocket K build cut) q.hdr.kind q.hdr.seq frame q.hdr.bounceLen
        marked = _ := writePdu_link hframe hin hbounce
    have hold : marked.transport.sock = ⟨g, [], [], deliveries, false⟩ := hsock
    rw [hkind, hseq, hold, nil_append] at hpdu
    exact hpdu
  have hstart : enterStream (linkSocket K build cut) build hook (fuel + 1) frame q.hdr.bounceLen
      call = enterLoop (linkSocket K build cut) build hook (fuel + 1) sent := by
    rw [enterStream_of_free hfree, bind_of_ok hwrite]
  have hdeliver : sent.transport.sock.deliver K build cut =
      ⟨g', [], completePdu q g'.pool, deliveries + 1, false⟩ := by
    have hwaiting : ¬ (sent.transport.sock.outbox = [] ∨ sent.transport.sock.halted) := by
      rintro (hnil | hhalted)
      · exact encode_ne_nil q hnil
      · cases hhalted
    rw [Link.deliver, if_neg hwaiting]
    show (⟨(vsockLoop K build (cut deliveries q.encode) g).2, [],
      [] ++ newBytes g (vsockLoop K build (cut deliveries q.encode) g).2, deliveries + 1,
      (vsockLoop K build (cut deliveries q.encode) g).1 ≠ .ok ()⟩ : Link κ) = _
    rw [hloop, nil_append, newBytes_of_append hdone.2.2]
    rfl
  have hout : (flushed K build cut sent).transport.sock.outbox = [] := congrArg Link.outbox hdeliver
  have hinbox : (flushed K build cut sent).transport.sock.inbox = completePdu q g'.pool :=
    congrArg Link.inbox hdeliver
  obtain ⟨call', hrun, hsock', -, hyielding, hbounce', -⟩ :=
    enterLoop_complete (K := K) hook fuel hout hinbox hin
  refine ⟨call', ?_, ?_, hyielding, hbounce'⟩
  · rw [hstart, enterLoop_flushed, hrun]
  · rw [hsock']
    show { sent.transport.sock.deliver K build cut with inbox := [] } = _
    rw [hdeliver]

end Halted

/-! ### One byte at a time -/

def bytewise : Cut := fun _ bytes => bytes.map fun b => rwPacket [b]

theorem faithful_bytewise : Faithful sampleConn bytewise := by
  intro k bytes
  constructor
  · intro pk hpk
    obtain ⟨b, -, rfl⟩ := mem_map.mp hpk
    have hop : VIRTIO_VSOCK_OP_RW ≠ VIRTIO_VSOCK_OP_REQUEST := by decide
    exact ⟨hop, fun _ => ⟨rfl, rfl, rfl, rfl, rfl⟩⟩
  · show rwPayloads (bytes.map fun b => rwPacket [b]) = bytes
    induction bytes with
    | nil => rfl
    | cons b bytes ih =>
      rw [map_cons, rwPayloads, ih]
      rfl

end Rustee.Client
