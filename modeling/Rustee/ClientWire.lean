import Rustee.ClientContext

/-!
# The client's transport (`crates/gp-client/src/wire.rs`)

One yielding call over a byte stream. The socket is a parameter: any write may fail, and a read may
give fewer bytes than were asked for, which `read_exact` reports as an error. The loop of `enter`
goes on as long as the peer sends RPCs, so the number of PDUs it reads is bounded by a parameter.
-/

namespace Rustee.Virt.Proto

def SMC_RETURN_FROM_RPC : UInt32 := 0x32000003

namespace PduHeader

def decode (b : Bytes) : Except Guest.ProtoError PduHeader :=
  if b.length < PDU_HDR_LEN then .error .truncated
  else if KnownKind (u32At b 0) then
    if u32At b 8 ≠ UInt32.ofNat CALL_FRAME_LEN then .error .truncated
    else .ok ⟨u32At b 0, u32At b 4, u32At b 8, u32At b 12⟩
  else .error .badKind

theorem decode_encode {h : PduHeader} (hkind : KnownKind h.kind)
    (harg : h.argLen = UInt32.ofNat CALL_FRAME_LEN) : decode h.encode = .ok h := by
  have hlen : h.encode.length = PDU_HDR_LEN := rfl
  have h0 : u32At h.encode 0 = h.kind := u32At_of_field rfl
  have h4 : u32At h.encode 4 = h.seq := u32At_of_field rfl
  have h8 : u32At h.encode 8 = h.argLen := u32At_of_field rfl
  have h12 : u32At h.encode 12 = h.bounceLen := u32At_of_field rfl
  rw [decode, hlen, if_neg (Nat.lt_irrefl _), h0, h4, h8, h12, if_pos hkind,
    if_neg (not_not_intro harg)]

end PduHeader

namespace CallFrame

def decode (b : Bytes) : Except Guest.ProtoError CallFrame :=
  if b.length < CALL_FRAME_LEN then .error .truncated
  else .ok ⟨Vector.ofFn fun i => u64At b (i.val * 8)⟩

def returnFromRpc (cookie : UInt64) : CallFrame :=
  setCookie ⟨(Vector.replicate 8 0).setIfInBounds 0 SMC_RETURN_FROM_RPC.toUInt64⟩ cookie

@[simp] theorem cookie_returnFromRpc (cookie : UInt64) : (returnFromRpc cookie).cookie = cookie :=
  cookie_setCookie _ cookie

def ofGuest (f : Virt.CallFrame) : CallFrame := ⟨f.r⟩

theorem cookie_ofGuest (f : Virt.CallFrame) : (ofGuest f).cookie = f.cookieA1a2 :=
  (cookieA1a2_toGuest (ofGuest f)).symm

theorem decode_encodeFrame (f : Virt.CallFrame) : decode (encodeFrame f) = .ok (ofGuest f) := by
  have hguest := decodeFrame_encodeFrame f
  rw [decodeFrame, length_encodeFrame, if_neg (Nat.lt_irrefl _)] at hguest
  have hwords := congrArg Virt.CallFrame.r (Except.ok.inj hguest)
  rw [decode, length_encodeFrame, if_neg (Nat.lt_irrefl _)]
  exact congrArg (fun r => Except.ok (CallFrame.mk r)) hwords

end CallFrame

end Rustee.Virt.Proto

namespace Rustee.Client

open Virt Guest Attempt Proto.PduHeader

def TEEC_ERROR_BUSY : UInt32 := 0xFFFF000D

/-! ### The socket -/

/-- `Read + Write`. A write says whether all bytes were taken; a read of `n` bytes gives
those that came before the stream ended or failed. -/
structure Socket (S : Type) where
  write : Bytes → S → Bool × S
  read : Nat → S → Bytes × S

/-- `StreamTransport`, without the hook. -/
structure StreamTransport (S : Type) where
  sock : S
  seq : UInt32
  yielding : Bool

def StreamTransport.new {S : Type} (sock : S) : StreamTransport S := ⟨sock, 1, false⟩

/-- What a call works on: the transport, the caller's pool, and the rest of the process,
which the hook can reach. -/
structure Call (S H : Type) where
  transport : StreamTransport S
  bounce : Pool
  process : H

/-- `on_rpc`: the pool, the cookie of the MSG. -/
abbrev RpcHook (H : Type) := UInt64 → Attempt (Pool × H) UInt32 UInt32

variable {S H : Type}

namespace Call

def withSock (c : Call S H) (s : S) : Call S H :=
  { c with transport := { c.transport with sock := s } }

def withBounce (c : Call S H) (pool : Pool) : Call S H := { c with bounce := pool }

end Call

abbrev WM (S H α : Type) := Attempt (Call S H) UInt32 α

section Io

variable (X : Socket S)

def writeAll (buf : Bytes) : WM S H Unit := fun c =>
  match X.write buf c.transport.sock with
  | (true, s) => (.ok (), c.withSock s)
  | (false, s) => (.err TEEC_ERROR_COMMUNICATION, c.withSock s)

def readExact (n : Nat) : WM S H Bytes := fun c =>
  match X.read n c.transport.sock with
  | (bytes, s) =>
    if bytes.length = n then (.ok bytes, c.withSock s)
    else (.err TEEC_ERROR_COMMUNICATION, c.withSock s)

/-- `read_exact(r, &mut bounce[start..start + n])`. What came before an error is in the
pool. -/
def readWindow (start n : Nat) : WM S H Unit := fun c =>
  match X.read n c.transport.sock with
  | (bytes, s) =>
    let c := (c.withSock s).withBounce (c.bounce.put start (bytes.take n))
    if bytes.length = n then (.ok (), c) else (.err TEEC_ERROR_COMMUNICATION, c)

def writePdu (kind seq : UInt32) (frame : Proto.CallFrame) (bounceLen : UInt32) : WM S H Unit := do
  writeAll X (yielding kind seq bounceLen).encode
  writeAll X frame.encode
  let start := frame.cookie.toNat
  let n := bounceLen.toNat
  if start + n > BOUNCE_POOL_SIZE then raise TEEC_ERROR_COMMUNICATION
  else do
    let bounce ← gets Call.bounce
    writeAll X (bounce.get start n)

/-- `.map_err(|_| TEEC_ERROR_COMMUNICATION)` on a decoded value. -/
def decoded {α : Type} : Except ProtoError α → WM S H α
  | .ok a => pure a
  | .error _ => raise TEEC_ERROR_COMMUNICATION

def readPdu : WM S H (Proto.PduHeader × Proto.CallFrame) := do
  let hdr ← decoded (decode (← readExact X PDU_HDR_LEN))
  let frame ← decoded (Proto.CallFrame.decode (← readExact X CALL_FRAME_LEN))
  let start := frame.cookie.toNat
  let n := hdr.bounceLen.toNat
  if start + n > BOUNCE_POOL_SIZE then raise TEEC_ERROR_COMMUNICATION
  else do
    if n > 0 then readWindow X start n
    pure (hdr, frame)

end Io

/-! ### One yielding call -/

def stampRpcRet (build : Build) (cookie : UInt64) (ret : UInt32) : WM S H Unit := fun c =>
  let ret := if ret = 0 then TEEC_ERROR_COMMUNICATION else ret
  match decodeMsg build c.bounce cookie with
  | .ok (hdr, params) =>
    match writeMsg c.bounce cookie { hdr with ret := ret } params with
    | .ok (_, pool) => (.ok (), c.withBounce pool)
    | .error _ => (.ok (), c)
  | .err _ => (.ok (), c)
  | .panic => (.panic, c)

section Enter

variable (X : Socket S) (build : Build) (hook : Option (RpcHook H))

/-- The length of the reply: what the hook says, if it says more than nothing. -/
def runHook (hdr : Proto.PduHeader) (cookie : UInt64) : WM S H UInt32 :=
  match hook with
  | none => pure hdr.bounceLen
  | some onRpc => fun c =>
    match onRpc cookie (c.bounce, c.process) with
    | (.ok n, pool, h) =>
      (.ok (if n > 0 then n else hdr.bounceLen), { c with bounce := pool, process := h })
    | (.err code, pool, h) =>
      (stampRpcRet build cookie code >>= fun _ => pure hdr.bounceLen)
        { c with bounce := pool, process := h }
    | (.panic, pool, h) => (.panic, { c with bounce := pool, process := h })

def setYielding (yielding : Bool) : WM S H Unit :=
  modify fun c => { c with transport := { c.transport with yielding := yielding } }

/-- The loop of `enter`. It does not end as long as the peer sends RPCs; with more of them
than `fuel` there is no result, which stands as a panic. -/
def enterLoop : Nat → WM S H Proto.CallFrame
  | 0 => lift .panic
  | fuel + 1 => do
    let (hdr, out) ← readPdu X
    if hdr.kind = KIND_COMPLETE then do
      setYielding false
      pure out
    else if hdr.kind = KIND_RPC then do
      let replyLen ← runHook build hook hdr out.cookie
      writePdu X KIND_RPC_REPLY hdr.seq (Proto.CallFrame.returnFromRpc out.cookie) replyLen
      enterLoop fuel
    else do
      setYielding false
      raise TEEC_ERROR_COMMUNICATION

def nextSeq : WM S H UInt32 := transform fun c =>
  (c.transport.seq, { c with transport := { c.transport with seq := c.transport.seq + 1 } })

def enterStream (fuel : Nat) (frame : Proto.CallFrame) (bounceLen : UInt32) :
    WM S H Proto.CallFrame := do
  if ← gets fun c => c.transport.yielding then raise TEEC_ERROR_BUSY
  else do
    setYielding true
    let seq ← nextSeq
    writePdu X KIND_ENTER seq frame bounceLen
    enterLoop X build hook fuel

/-- `impl Transport for StreamTransport` -/
def streamTransport (fuel : Nat) : Transport (StreamTransport S × H) where
  enter := fun frame pool bounceLen t =>
    let r := enterStream X build hook fuel frame bounceLen ⟨t.1, pool, t.2⟩
    (r.1, r.2.bounce, (r.2.transport, r.2.process))

end Enter

/-! ### What holds of every part of a call -/

/-- A judgement that only depends on what is done with the socket, the mark and the hook. -/
structure WireRule (J : ∀ α : Type, WM S H α → Prop) : Prop where
  pure : ∀ {α} (a : α), J α (pure a)
  bind : ∀ {α β} {x : WM S H α} {f : α → WM S H β}, J α x → (∀ a, J β (f a)) → J β (x >>= f)
  fails : ∀ {α}, J α (raise TEEC_ERROR_COMMUNICATION)
  pool : J Pool (gets Call.bounce)

theorem keepsRule (F : Frame (Call S H)) : WireRule fun _ x => Keeps F x :=
  ⟨keeps_pure, Keeps.bind, keeps_raise _, F.refl⟩

namespace WireRule

variable {J : ∀ α : Type, WM S H α → Prop} (R : WireRule J) {X : Socket S} {build : Build}
  {hook : Option (RpcHook H)}
include R

theorem decoded {α : Type} : ∀ r : Except ProtoError α, J α (decoded r)
  | .ok a => R.pure a
  | .error _ => R.fails

theorem writePdu (hwrite : ∀ buf, J Unit (writeAll X buf)) (kind seq : UInt32)
    (frame : Proto.CallFrame) (len : UInt32) : J Unit (writePdu X kind seq frame len) := by
  refine R.bind (hwrite _) fun _ => R.bind (hwrite _) fun _ => ?_
  dsimp only
  split
  · exact R.fails
  · exact R.bind R.pool fun _ => hwrite _

theorem readPdu (hread : ∀ n, J Bytes (readExact X n))
    (hwindow : ∀ start n, J Unit (readWindow X start n)) : J _ (readPdu X) := by
  refine R.bind (hread _) fun _ => R.bind (R.decoded _) fun hdr =>
    R.bind (hread _) fun _ => R.bind (R.decoded _) fun out => ?_
  dsimp only
  split
  · exact R.fails
  · split
    · exact R.bind (hwindow _ _) fun _ => R.pure _
    · exact R.pure _

theorem enterLoop (hpdu : J _ (Client.readPdu X))
    (hhook : ∀ hdr cookie, J UInt32 (runHook build hook hdr cookie))
    (hwrite : ∀ kind seq frame len, J Unit (Client.writePdu X kind seq frame len))
    (hmark : J Unit (setYielding false)) (hstop : J Proto.CallFrame (lift .panic))
    (fuel : Nat) : J _ (enterLoop X build hook fuel) := by
  induction fuel with
  | zero => exact hstop
  | succ fuel ih =>
    refine R.bind hpdu fun pdu => ?_
    dsimp only
    split
    · exact R.bind hmark fun _ => R.pure _
    · split
      · exact R.bind (hhook _ _) fun n => R.bind (hwrite _ _ _ _) fun _ => ih
      · exact R.bind hmark fun _ => R.fails

end WireRule

/-! ### Sockets that do as they are told -/

section Reliable

variable {X : Socket S} {build : Build} {hook : Option (RpcHook H)} {c : Call S H} {s : S}

theorem writeAll_of_write {buf : Bytes} (h : X.write buf c.transport.sock = (true, s)) :
    writeAll X buf c = (.ok (), c.withSock s) := by
  rw [writeAll, h]

theorem readExact_of_read {bytes : Bytes} {n : Nat}
    (h : X.read n c.transport.sock = (bytes, s)) (hlen : bytes.length = n) :
    readExact X n c = (.ok bytes, c.withSock s) := by
  rw [readExact, h]
  exact if_pos hlen

theorem readWindow_of_read {bytes : Bytes} {start n : Nat}
    (h : X.read n c.transport.sock = (bytes, s)) (hlen : bytes.length = n) :
    readWindow X start n c = (.ok (), (c.withSock s).withBounce (c.bounce.put start bytes)) := by
  rw [readWindow, h]
  have htake : bytes.take n = bytes := List.take_of_length_le (Nat.le_of_eq hlen)
  dsimp only
  rw [htake]
  exact if_pos hlen

variable {frame : Proto.CallFrame} {s1 s2 : S}

theorem writePdu_of_writes {kind seq bounceLen : UInt32} {s3 : S}
    (hin : frame.cookie.toNat + bounceLen.toNat ≤ BOUNCE_POOL_SIZE)
    (hhdr : X.write (yielding kind seq bounceLen).encode c.transport.sock =
      (true, s1)) (hframe : X.write frame.encode s1 = (true, s2))
    (hwindow : X.write (c.bounce.get frame.cookie.toNat bounceLen.toNat) s2 = (true, s3)) :
    writePdu X kind seq frame bounceLen c = (.ok (), c.withSock s3) := by
  rw [writePdu, bind_of_ok (writeAll_of_write hhdr),
    bind_of_ok (writeAll_of_write (c := c.withSock s1) hframe),
    if_neg (Nat.not_lt.mpr hin)]
  exact writeAll_of_write (c := (c.withSock s1).withSock s2) hwindow

variable {hdr : Proto.PduHeader}

theorem readPdu_of_head {frame : Virt.CallFrame}
    (hkind : KnownKind hdr.kind) (harg : hdr.argLen = UInt32.ofNat CALL_FRAME_LEN)
    (hin : frame.cookieA1a2.toNat + hdr.bounceLen.toNat ≤ BOUNCE_POOL_SIZE)
    (hread : X.read PDU_HDR_LEN c.transport.sock = (hdr.encode, s1))
    (hread' : X.read CALL_FRAME_LEN s1 = (encodeFrame frame, s2)) :
    readPdu X c = ((if hdr.bounceLen.toNat > 0 then
        readWindow X frame.cookieA1a2.toNat hdr.bounceLen.toNat else pure ()) >>= fun _ =>
      pure (hdr, Proto.CallFrame.ofGuest frame)) (c.withSock s2) := by
  have hfirst : readExact X PDU_HDR_LEN c = (.ok hdr.encode, c.withSock s1) :=
    readExact_of_read hread rfl
  have hsecond : readExact X CALL_FRAME_LEN (c.withSock s1) =
      (.ok (encodeFrame frame), c.withSock s2) :=
    readExact_of_read (c := c.withSock s1) hread' (length_encodeFrame frame)
  have hcookie : (Proto.CallFrame.ofGuest frame).cookie = frame.cookieA1a2 :=
    Proto.CallFrame.cookie_ofGuest frame
  rw [readPdu, bind_of_ok hfirst, decode_encode hkind harg]
  show (readExact X CALL_FRAME_LEN >>= _) (c.withSock s1) = _
  rw [bind_of_ok hsecond, Proto.CallFrame.decode_encodeFrame]
  show (if _ then _ else _ : WM S H _) (c.withSock s2) = _
  rw [hcookie, if_neg (Nat.not_lt.mpr hin)]
  by_cases hpos : hdr.bounceLen.toNat > 0
  · rw [if_pos hpos, if_pos hpos]
  · rw [if_neg hpos, if_neg hpos]
    rfl

/-- The pool and the process after the hook, which does not see the transport. -/
def hookEffect (build : Build) (hook : Option (RpcHook H)) (hdr : Proto.PduHeader)
    (cookie : UInt64) (pool : Pool) (h : H) : Pool × H :=
  let c := (runHook build hook hdr cookie (⟨.new (), pool, h⟩ : Call Unit H)).2
  (c.bounce, c.process)

theorem runHook_snd (hook : Option (RpcHook H)) (hdr : Proto.PduHeader) (cookie : UInt64)
    (c : Call S H) : (runHook build hook hdr cookie c).2 =
      ⟨c.transport, (hookEffect build hook hdr cookie c.bounce c.process).1,
        (hookEffect build hook hdr cookie c.bounce c.process).2⟩ := by
  cases hook with
  | none => rfl
  | some onRpc =>
    rw [hookEffect, runHook, runHook]
    dsimp only
    rcases onRpc cookie (c.bounce, c.process) with ⟨r, pool, h⟩
    cases r with
    | ok | panic => rfl
    | err =>
      dsimp only
      rw [bind_apply, bind_apply, stampRpcRet, stampRpcRet]
      rcases decodeMsg build pool cookie with ⟨hdr', params⟩ | e | _
      · dsimp only
        rcases writeMsg pool cookie _ params with e | ⟨n, pool'⟩ <;> rfl
      · rfl
      · rfl

variable {fuel : Nat}

/-- A turn of the loop that gets an RPC: the hook answers it, and the loop goes on. -/
theorem enterLoop_of_rpc {cookie : UInt64} {n : UInt32} {c1 c2 c3 : Call S H}
    (hread : readPdu X c = (.ok (hdr, frame), c1)) (hkind : hdr.kind = KIND_RPC)
    (hcookie : frame.cookie = cookie) (hhook : runHook build hook hdr cookie c1 = (.ok n, c2))
    (hwrite : writePdu X KIND_RPC_REPLY hdr.seq (Proto.CallFrame.returnFromRpc cookie) n c2 =
      (.ok (), c3)) : enterLoop X build hook (fuel + 1) c = enterLoop X build hook fuel c3 := by
  have hother : hdr.kind ≠ KIND_COMPLETE := by
    rw [hkind]
    decide
  rw [enterLoop, bind_of_ok hread]
  dsimp only
  rw [if_neg hother, if_pos hkind, hcookie, bind_of_ok hhook, bind_of_ok hwrite]

theorem enterLoop_of_complete {c1 : Call S H} (hread : readPdu X c = (.ok (hdr, frame), c1))
    (hkind : hdr.kind = KIND_COMPLETE) :
    enterLoop X build hook (fuel + 1) c =
      (.ok frame, { c1 with transport := { c1.transport with yielding := false } }) := by
  rw [enterLoop, bind_of_ok hread]
  dsimp only
  rw [if_pos hkind]
  rfl

/-- The call is marked and numbered, and its stream is `s`. -/
def Call.entered (c : Call S H) (s : S) : Call S H :=
  { c with transport := ⟨s, c.transport.seq + 1, true⟩ }

/-- A call on a transport that is free: the ENTER goes out. -/
theorem enterStream_of_free {len : UInt32} (hfree : c.transport.yielding = false) :
    enterStream X build hook fuel frame len c =
      (writePdu X KIND_ENTER c.transport.seq frame len >>= fun _ => enterLoop X build hook fuel)
        (c.entered c.transport.sock) := by
  rw [enterStream, bind_of_ok (gets_apply _ c), hfree, if_neg Bool.false_ne_true]
  rfl

end Reliable

end Rustee.Client
