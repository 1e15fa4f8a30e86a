import Rustee.ClientWire

/-!
# When the client's transport is free again (`StreamTransport::enter` of `wire.rs`)

`enter` marks the transport as yielding and takes the mark back where its loop ends: on a COMPLETE
and on a PDU of a wrong kind. Every other way out is a `?` on `write_pdu` or `read_pdu`, and the
mark stays. So the transport is free after a call exactly if the peer sees the call through, with
every byte taken and every PDU whole. `write_pdu` looks at the window when header and frame have
gone out.
-/

namespace Rustee.Client

open Virt hiding CallFrame PduHeader
open Proto (CallFrame PduHeader)
open Guest Attempt List

variable {S H : Type} {fuel : Nat}

/-! ### What the socket does -/

def Sends (X : Socket S) : List Bytes → S → S → Prop
  | [], s, s' => s' = s
  | buf :: bufs, s, s' => ∃ s₁, X.write buf s = (true, s₁) ∧ Sends X bufs s₁ s'

def headBufs (kind seq : UInt32) (frame : CallFrame) (len : UInt32) : List Bytes :=
  [(PduHeader.yielding kind seq len).encode, frame.encode]

def InsidePool (frame : CallFrame) (len : UInt32) : Prop :=
  frame.cookie.toNat + len.toNat ≤ BOUNCE_POOL_SIZE

instance (frame : CallFrame) (len : UInt32) : Decidable (InsidePool frame len) :=
  inferInstanceAs (Decidable (_ ≤ _))

section
variable (X : Socket S)

/-- The window of the PDU is inside the pool, and the socket takes all of it. -/
def TakesPdu (kind seq : UInt32) (frame : CallFrame) (len : UInt32)
    (bounce : Pool) (s s' : S) : Prop :=
  InsidePool frame len ∧
    Sends X (headBufs kind seq frame len ++ [bounce.get frame.cookie.toNat len.toNat]) s s'

def Gives (n : Nat) (s : S) (bytes : Bytes) (s' : S) : Prop :=
  X.read n s = (bytes, s') ∧ bytes.length = n

/-- A whole PDU arrives, with a header that is known and a window inside the pool. -/
def GivesPdu (c : Call S H) (hdr : PduHeader) (out : CallFrame)
    (c' : Call S H) : Prop :=
  ∃ hb fb s₁ s₂, Gives X PDU_HDR_LEN c.transport.sock hb s₁ ∧
    Proto.PduHeader.decode hb = .ok hdr ∧ Gives X CALL_FRAME_LEN s₁ fb s₂ ∧
    CallFrame.decode fb = .ok out ∧ InsidePool out hdr.bounceLen ∧
    if hdr.bounceLen.toNat > 0 then
      ∃ window s₃, Gives X hdr.bounceLen.toNat s₂ window s₃ ∧
        c' = (c.withSock s₃).withBounce (c.bounce.put out.cookie.toNat window)
    else c' = c.withSock s₂

end

/-- The peer sees a call through: PDUs arrive until one ends the call, and the reply to each
RPC before it is taken. -/
inductive SeenThrough (X : Socket S) (build : Build) (hook : Option (RpcHook H)) :
    Call S H → Prop
  | last {c c₁ hdr out} :
      GivesPdu X c hdr out c₁ → hdr.kind ≠ KIND_RPC → SeenThrough X build hook c
  | rpc {c c₁ c₂ hdr out n s} :
      GivesPdu X c hdr out c₁ → hdr.kind = KIND_RPC →
      runHook build hook hdr out.cookie c₁ = (.ok n, c₂) →
      TakesPdu X KIND_RPC_REPLY hdr.seq (CallFrame.returnFromRpc out.cookie) n c₂.bounce
        c₂.transport.sock s →
      SeenThrough X build hook (c₂.withSock s) → SeenThrough X build hook c

/-! ### Reading and writing -/

section Io

variable {X : Socket S} {c c' : Call S H}

theorem writeAll_eq_ok_iff {buf : Bytes} : writeAll X buf c = (.ok (), c') ↔
    ∃ s, X.write buf c.transport.sock = (true, s) ∧ c' = c.withSock s := by
  rw [writeAll]
  rcases X.write buf c.transport.sock with ⟨taken, s⟩
  cases taken with
  | true => simp [eq_comm]
  | false => simp

theorem readExact_eq_ok_iff {n : Nat} {bytes : Bytes} : readExact X n c = (.ok bytes, c') ↔
    ∃ s, Gives X n c.transport.sock bytes s ∧ c' = c.withSock s := by
  rw [readExact]
  rcases hread : X.read n c.transport.sock with ⟨got, s⟩
  dsimp only
  constructor
  · intro h
    split at h
    · rename_i hlen
      cases h
      exact ⟨s, ⟨hread, hlen⟩, rfl⟩
    · cases h
  · rintro ⟨s', ⟨hgives, hlen⟩, rfl⟩
    rw [hread] at hgives
    cases hgives
    rw [if_pos hlen]

theorem readWindow_eq_ok_iff {start n : Nat} : readWindow X start n c = (.ok (), c') ↔
    ∃ window s, Gives X n c.transport.sock window s ∧
      c' = (c.withSock s).withBounce (c.bounce.put start window) := by
  rw [readWindow]
  rcases hread : X.read n c.transport.sock with ⟨got, s⟩
  dsimp only
  constructor
  · intro h
    split at h
    · rename_i hlen
      rw [take_of_length_le (Nat.le_of_eq hlen)] at h
      cases h
      exact ⟨got, s, ⟨hread, hlen⟩, rfl⟩
    · cases h
  · rintro ⟨window, s', ⟨hgives, hlen⟩, rfl⟩
    rw [hread] at hgives
    cases hgives
    rw [if_pos hlen, take_of_length_le (Nat.le_of_eq hlen)]

theorem writePdu_eq_ok_iff {kind seq len : UInt32} {frame : CallFrame} :
    writePdu X kind seq frame len c = (.ok (), c') ↔
      ∃ s, TakesPdu X kind seq frame len c.bounce c.transport.sock s ∧ c' = c.withSock s := by
  constructor
  · intro h
    rw [writePdu] at h
    obtain ⟨_, c₁, hhdr, h⟩ := bind_eq_ok h
    obtain ⟨s1, hw1, rfl⟩ := writeAll_eq_ok_iff.mp hhdr
    obtain ⟨_, c2, hframe, h⟩ := bind_eq_ok h
    obtain ⟨s2, hw2, rfl⟩ := writeAll_eq_ok_iff.mp hframe
    dsimp only at h
    split at h
    · cases (Prod.mk.inj h).1
    · rename_i hin
      obtain ⟨bounce, c3, hget, h⟩ := bind_eq_ok h
      cases hget
      obtain ⟨s3, hw3, rfl⟩ := writeAll_eq_ok_iff.mp h
      exact ⟨s3, ⟨Nat.not_lt.mp hin, s1, hw1, s2, hw2, s3, hw3, rfl⟩, rfl⟩
  · rintro ⟨s, ⟨hin, s1, hw1, s2, hw2, s3, hw3, rfl⟩, rfl⟩
    exact writePdu_of_writes hin hw1 hw2 hw3

theorem decoded_eq_ok_iff {α : Type} {r : Except ProtoError α} {a : α} :
    decoded r c = (.ok a, c') ↔ r = .ok a ∧ c' = c := by
  cases r with
  | ok =>
    constructor
    · intro h
      cases h
      exact ⟨rfl, rfl⟩
    · rintro ⟨hb, rfl⟩
      cases hb
      rfl
  | error =>
    constructor
    · intro h
      cases (Prod.mk.inj h).1
    · rintro ⟨hb, -⟩
      cases hb

theorem readPdu_eq_ok_iff {hdr : PduHeader} {out : CallFrame} :
    readPdu X c = (.ok (hdr, out), c') ↔ GivesPdu X c hdr out c' := by
  constructor
  · intro h
    rw [readPdu] at h
    obtain ⟨hb, c₁, hhb, h⟩ := bind_eq_ok h
    obtain ⟨s1, hgives1, rfl⟩ := readExact_eq_ok_iff.mp hhb
    obtain ⟨hdr', c2, hhdr, h⟩ := bind_eq_ok h
    obtain ⟨hdecode, rfl⟩ := decoded_eq_ok_iff.mp hhdr
    obtain ⟨fb, c3, hfb, h⟩ := bind_eq_ok h
    obtain ⟨s2, hgives2, rfl⟩ := readExact_eq_ok_iff.mp hfb
    obtain ⟨out', c4, hout, h⟩ := bind_eq_ok h
    obtain ⟨hdecode', rfl⟩ := decoded_eq_ok_iff.mp hout
    dsimp only at h
    split at h
    · cases (Prod.mk.inj h).1
    rename_i hin
    by_cases hpos : hdr'.bounceLen.toNat > 0
    · rw [if_pos hpos] at h
      obtain ⟨_, c5, hwindow, h⟩ := bind_eq_ok h
      cases h
      refine ⟨hb, fb, s1, s2, hgives1, hdecode, hgives2, hdecode', Nat.not_lt.mp hin, ?_⟩
      rw [if_pos hpos]
      exact readWindow_eq_ok_iff.mp hwindow
    · rw [if_neg hpos] at h
      cases h
      refine ⟨hb, fb, s1, s2, hgives1, hdecode, hgives2, hdecode', Nat.not_lt.mp hin, ?_⟩
      rw [if_neg hpos]
      rfl
  · rintro ⟨hb, fb, s1, s2, hgives1, hdecode, hgives2, hdecode', hin, hwindow⟩
    have hhb : readExact X PDU_HDR_LEN c = (.ok hb, c.withSock s1) :=
      readExact_eq_ok_iff.mpr ⟨s1, hgives1, rfl⟩
    have hhdr : decoded (Proto.PduHeader.decode hb) (c.withSock s1) = (.ok hdr, c.withSock s1) :=
      decoded_eq_ok_iff.mpr ⟨hdecode, rfl⟩
    have hfb : readExact X CALL_FRAME_LEN (c.withSock s1) = (.ok fb, c.withSock s2) :=
      readExact_eq_ok_iff.mpr ⟨s2, hgives2, rfl⟩
    have hout : decoded (CallFrame.decode fb) (c.withSock s2) = (.ok out, c.withSock s2) :=
      decoded_eq_ok_iff.mpr ⟨hdecode', rfl⟩
    rw [readPdu, bind_of_ok hhb, bind_of_ok hhdr, bind_of_ok hfb, bind_of_ok hout]
    dsimp only
    rw [if_neg (Nat.not_lt.mpr hin)]
    by_cases hpos : hdr.bounceLen.toNat > 0
    · rw [if_pos hpos] at hwindow ⊢
      obtain ⟨window, s3, hgives3, rfl⟩ := hwindow
      have hread : readWindow X out.cookie.toNat hdr.bounceLen.toNat (c.withSock s2) =
          (.ok (), (c.withSock s3).withBounce (c.bounce.put out.cookie.toNat window)) :=
        readWindow_eq_ok_iff.mpr ⟨window, s3, hgives3, rfl⟩
      rw [bind_of_ok hread]
      rfl
    · rw [if_neg hpos] at hwindow ⊢
      rw [hwindow]
      rfl

end Io

/-! ### The mark -/

def sameMark (S H : Type) : Frame (Call S H) where
  rel c c' := c'.transport.yielding = c.transport.yielding
  refl _ := rfl
  trans h h' := h'.trans h

section Mark

variable (X : Socket S)

theorem writeAll_sameMark (buf : Bytes) : Keeps (sameMark S H) (writeAll X buf) := by
  intro c
  rw [writeAll]
  rcases X.write buf c.transport.sock with ⟨taken, s⟩
  cases taken <;> rfl

theorem readExact_sameMark (n : Nat) : Keeps (sameMark S H) (readExact X n) := by
  intro c
  rw [readExact]
  rcases X.read n c.transport.sock with ⟨bytes, s⟩
  dsimp only
  split <;> rfl

theorem readWindow_sameMark (start n : Nat) : Keeps (sameMark S H) (readWindow X start n) := by
  intro c
  rw [readWindow]
  rcases X.read n c.transport.sock with ⟨bytes, s⟩
  dsimp only
  split <;> rfl

theorem writePdu_sameMark (kind seq : UInt32) (frame : CallFrame) (len : UInt32) :
    Keeps (sameMark S H) (writePdu X kind seq frame len) :=
  (keepsRule _).writePdu (writeAll_sameMark X) kind seq frame len

theorem readPdu_sameMark : Keeps (sameMark S H) (readPdu X) :=
  (keepsRule _).readPdu (readExact_sameMark X) (readWindow_sameMark X)

theorem stampRpcRet_sameMark (build : Build) (cookie : UInt64) (ret : UInt32) :
    Keeps (sameMark S H) (stampRpcRet build cookie ret) := by
  intro c
  rw [stampRpcRet]
  split
  · split <;> rfl
  · rfl
  · rfl

theorem runHook_sameMark (build : Build) (hook : Option (RpcHook H)) (hdr : PduHeader)
    (cookie : UInt64) : Keeps (sameMark S H) (runHook build hook hdr cookie) := by
  cases hook with
  | none => exact keeps_pure _
  | some onRpc =>
    intro c
    rw [runHook]
    dsimp only
    rcases onRpc cookie (c.bounce, c.process) with ⟨r, pool, h⟩
    cases r with
    | ok | panic => rfl
    | err code =>
      exact ((stampRpcRet_sameMark build cookie code).bind fun _ =>
        keeps_pure hdr.bounceLen) { c with bounce := pool, process := h }

end Mark

/-! ### The loop -/

section Loop

variable {X : Socket S} {build : Build} {hook : Option (RpcHook H)} {c c₁ : Call S H}
  {hdr : PduHeader} {out : CallFrame}

theorem SeenThrough.reads (h : SeenThrough X build hook c) :
    ∃ hdr out c₁, readPdu X c = (.ok (hdr, out), c₁) := by
  cases h with
  | last hgives _ | rpc hgives _ _ _ _ => exact ⟨_, _, _, readPdu_eq_ok_iff.mpr hgives⟩

section

variable (hread : readPdu X c = (.ok (hdr, out), c₁))
include hread

/-- After the first PDU: an RPC has to be answered, and the rest seen through. -/
theorem seenThrough_iff :
    SeenThrough X build hook c ↔ (hdr.kind = KIND_RPC → ∃ n c2 c3,
      runHook build hook hdr out.cookie c₁ = (.ok n, c2) ∧
      writePdu X KIND_RPC_REPLY hdr.seq (CallFrame.returnFromRpc out.cookie) n c2 =
        (.ok (), c3) ∧ SeenThrough X build hook c3) := by
  constructor
  · intro h hkind
    cases h with
    | last hgives hother =>
      rw [readPdu_eq_ok_iff.mpr hgives] at hread
      cases hread
      exact absurd hkind hother
    | rpc hgives _ hhook htakes hrest =>
      rw [readPdu_eq_ok_iff.mpr hgives] at hread
      cases hread
      exact ⟨_, _, _, hhook, writePdu_eq_ok_iff.mpr ⟨_, htakes, rfl⟩, hrest⟩
  · intro h
    by_cases hkind : hdr.kind = KIND_RPC
    · obtain ⟨n, c2, c3, hhook, hwrite, hrest⟩ := h hkind
      obtain ⟨s, htakes, rfl⟩ := writePdu_eq_ok_iff.mp hwrite
      exact .rpc (readPdu_eq_ok_iff.mp hread) hkind hhook htakes hrest
    · exact .last (readPdu_eq_ok_iff.mp hread) hkind

theorem enterLoop_rpc (hkind : hdr.kind = KIND_RPC) :
    enterLoop X build hook (fuel + 1) c = (runHook build hook hdr out.cookie >>= fun n =>
      writePdu X KIND_RPC_REPLY hdr.seq (CallFrame.returnFromRpc out.cookie) n >>= fun _ =>
        enterLoop X build hook fuel) c₁ := by
  have hother : hdr.kind ≠ KIND_COMPLETE := by
    rw [hkind]
    decide
  rw [enterLoop, bind_of_ok hread]
  dsimp only
  rw [if_neg hother, if_pos hkind]

theorem enterLoop_last (hkind : hdr.kind ≠ KIND_RPC) :
    (enterLoop X build hook (fuel + 1) c).2.transport.yielding = false := by
  rw [enterLoop, bind_of_ok hread]
  dsimp only
  split
  · rfl
  · rfl

end

/-- Where a sequence takes the mark back, its first part has returned with the mark still set. -/
theorem free_of_bind {α β : Type} {x : WM S H α} {f : α → WM S H β} (hx : Keeps (sameMark S H) x)
    (hmarked : c.transport.yielding = true) (hfree : ((x >>= f) c).2.transport.yielding = false) :
    ∃ a c₁, x c = (.ok a, c₁) ∧ c₁.transport.yielding = true ∧
      (f a c₁).2.transport.yielding = false := by
  have hkept : (x c).2.transport.yielding = true := (hx c).trans hmarked
  rcases hrun : x c with ⟨r, c₁⟩
  rw [hrun] at hkept
  cases r with
  | ok a =>
    rw [bind_of_ok hrun] at hfree
    exact ⟨a, c₁, rfl, hkept, hfree⟩
  | err e =>
    rw [bind_of_err hrun] at hfree
    exact absurd (hkept.symm.trans hfree) (by decide)
  | panic =>
    rw [bind_of_panic hrun] at hfree
    exact absurd (hkept.symm.trans hfree) (by decide)

/-- The loop takes the mark back exactly if the peer sees the call through. -/
theorem enterLoop_free_iff (fuel : Nat) (c : Call S H) (hmarked : c.transport.yielding = true)
    (hreturns : (enterLoop X build hook fuel c).1 ≠ .panic) :
    (enterLoop X build hook fuel c).2.transport.yielding = false ↔ SeenThrough X build hook c := by
  induction fuel generalizing c with
  | zero => exact absurd rfl hreturns
  | succ fuel ih =>
    constructor
    · intro hfree
      obtain ⟨⟨hdr, out⟩, c₁, hread, hmarked1, -⟩ := free_of_bind (readPdu_sameMark X) hmarked hfree
      rw [seenThrough_iff hread]
      intro hkind
      rw [enterLoop_rpc hread hkind] at hfree hreturns
      obtain ⟨n, c2, hhook, hmarked2, hfree⟩ :=
        free_of_bind (runHook_sameMark build hook hdr out.cookie) hmarked1 hfree
      obtain ⟨_, c3, hwrite, hmarked3, hfree⟩ :=
        free_of_bind (writePdu_sameMark X _ _ _ n) hmarked2 hfree
      rw [bind_of_ok hhook, bind_of_ok hwrite] at hreturns
      exact ⟨n, c2, c3, hhook, hwrite, (ih c3 hmarked3 hreturns).mp hfree⟩
    · intro hseen
      obtain ⟨hdr, out, c₁, hread⟩ := hseen.reads
      by_cases hkind : hdr.kind = KIND_RPC
      · obtain ⟨n, c2, c3, hhook, hwrite, hrest⟩ := (seenThrough_iff hread).mp hseen hkind
        have hkept := readPdu_sameMark X c
        have hkept1 := runHook_sameMark build hook hdr out.cookie c₁
        have hkept2 := writePdu_sameMark X KIND_RPC_REPLY hdr.seq
          (CallFrame.returnFromRpc out.cookie) n c2
        rw [hread] at hkept
        rw [hhook] at hkept1
        rw [hwrite] at hkept2
        rw [enterLoop_rpc hread hkind, bind_of_ok hhook, bind_of_ok hwrite] at hreturns ⊢
        exact (ih c3 (hkept2.trans (hkept1.trans (hkept.trans hmarked))) hreturns).mpr hrest
      · exact enterLoop_last hread hkind

end Loop

/-! ### The errors of a call -/

section Errors

variable (X : Socket S)

/-- A call that is under way fails with `TEEC_ERROR_COMMUNICATION` only. -/
abbrev Communication {α : Type} (x : WM S H α) : Prop :=
  Raises (fun e => e = TEEC_ERROR_COMMUNICATION) x

theorem writeAll_communication (buf : Bytes) : Communication (H := H) (writeAll X buf) := by
  intro c e h
  rw [writeAll] at h
  rcases hwrite : X.write buf c.transport.sock with ⟨taken, s⟩
  rw [hwrite] at h
  cases taken with
  | true => cases h
  | false =>
    cases h
    rfl

theorem readExact_communication (n : Nat) : Communication (H := H) (readExact X n) := by
  intro c e h
  rw [readExact] at h
  dsimp only at h
  split at h
  · cases h
  · cases h
    rfl

theorem readWindow_communication (start n : Nat) :
    Communication (H := H) (readWindow X start n) := by
  intro c e h
  rw [readWindow] at h
  dsimp only at h
  split at h
  · cases h
  · cases h
    rfl

theorem communicationRule : WireRule (S := S) (H := H) fun _ x => Communication x :=
  ⟨raises_pure, Raises.bind, raises_raise rfl, fun _ => Fallible.errors_ok _⟩

theorem writePdu_communication (kind seq : UInt32) (frame : CallFrame) (len : UInt32) :
    Communication (H := H) (writePdu X kind seq frame len) :=
  communicationRule.writePdu (writeAll_communication X) kind seq frame len

variable (build : Build) (hook : Option (RpcHook H))

theorem runHook_communication (hdr : PduHeader)
    (cookie : UInt64) : Communication (S := S) (runHook build hook hdr cookie) := by
  cases hook with
  | none => exact raises_pure _
  | some =>
    have hstamp (ret : UInt32) :
        Communication (S := S) (H := H) (stampRpcRet build cookie ret) := by
      intro c e h
      rw [stampRpcRet] at h
      split at h
      · split at h <;> cases h
      · cases h
      · cases h
    intro c e h
    rw [runHook] at h
    dsimp only at h
    split at h
    · cases h
    · exact (hstamp _).bind (fun _ => raises_pure _) _ e h
    · cases h

theorem enterLoop_communication (fuel : Nat) : Communication (enterLoop X build hook fuel) :=
  communicationRule.enterLoop
    (communicationRule.readPdu (readExact_communication X) (readWindow_communication X))
    (runHook_communication build hook) (writePdu_communication X)
    (fun _ => Fallible.errors_ok _) (fun _ _ h => nomatch h) fuel

theorem enterStream_busy_iff (fuel : Nat)
    (frame : CallFrame) (len : UInt32) (c : Call S H) :
    (enterStream X build hook fuel frame len c).1 = .err TEEC_ERROR_BUSY ↔
      c.transport.yielding = true := by
  cases hmark : c.transport.yielding with
  | true =>
    rw [enterStream, bind_of_ok (gets_apply _ c), hmark, if_pos rfl]
    simp
  | false =>
    refine iff_of_false ?_ Bool.false_ne_true
    intro h
    rw [enterStream_of_free hmark] at h
    have hcode := ((writePdu_communication X _ _ _ _).bind fun _ =>
      enterLoop_communication X build hook fuel) _ _ h
    exact absurd hcode (by decide)

end Errors

/-! ### The bytes that went out -/

def logged (X : Socket S) : Socket (S × Bytes) where
  write buf s := ((X.write buf s.1).1, (X.write buf s.1).2,
    if (X.write buf s.1).1 then s.2 ++ buf else s.2)
  read n s := ((X.read n s.1).1, (X.read n s.1).2, s.2)

variable {X : Socket S}

theorem writeAll_logged {buf : Bytes} {c : Call (S × Bytes) H} {s : S}
    (h : X.write buf c.transport.sock.1 = (true, s)) : writeAll (logged X) buf c =
      (.ok (), c.withSock (s, c.transport.sock.2 ++ buf)) := by
  refine writeAll_of_write ?_
  show ((X.write buf c.transport.sock.1).1, (X.write buf c.transport.sock.1).2, _) = _
  rw [h]
  rfl

variable {frame : CallFrame} {len : UInt32}

/-- A PDU whose window is outside the pool: header and frame have gone out. -/
theorem writePdu_outside {kind seq : UInt32}
    {c : Call (S × Bytes) H} {s : S} (hout : ¬ InsidePool frame len)
    (hhead : Sends X (headBufs kind seq frame len) c.transport.sock.1 s) :
    writePdu (logged X) kind seq frame len c =
      (.err TEEC_ERROR_COMMUNICATION,
        c.withSock (s, c.transport.sock.2 ++ (headBufs kind seq frame len).flatten)) := by
  obtain ⟨s1, hhdr, s2, hframe, rfl⟩ := hhead
  rw [writePdu, bind_of_ok (writeAll_logged hhdr),
    bind_of_ok (writeAll_logged (by exact hframe)), if_pos (Nat.not_le.mp hout)]
  simp [headBufs, Call.withSock]

section
variable (X : Socket S) (kind seq : UInt32) (frame : CallFrame) (len : UInt32)
    (c : Call (S × Bytes) H)

/-- What `write_pdu` leaves on the stream if it fails for its window. -/
def OutsideWritesNothing : Prop :=
  ¬ InsidePool frame len → (∃ s, Sends X (headBufs kind seq frame len) c.transport.sock.1 s) →
    (writePdu (logged X) kind seq frame len c).2.transport.sock.2 = c.transport.sock.2

theorem outsideWritesNothing_iff :
    OutsideWritesNothing X kind seq frame len c ↔
      (InsidePool frame len ∨
        ¬ ∃ s, Sends X (headBufs kind seq frame len) c.transport.sock.1 s) := by
  constructor
  · intro h
    by_contra hneither
    obtain ⟨hout, hsends⟩ := not_or.mp hneither
    have htaken := not_not.mp hsends
    have hnothing := h hout htaken
    obtain ⟨s, hhead⟩ := htaken
    rw [writePdu_outside hout hhead] at hnothing
    have hhead : (headBufs kind seq frame len).flatten.length = 0 :=
      congrArg length (append_right_eq_self.mp hnothing)
    cases hhead
  · rintro (hin | hrefused) hout htaken
    · exact absurd hin hout
    · exact absurd htaken hrefused

end

/-! ### Free again -/

section
variable (X : Socket S) (build : Build) (hook : Option (RpcHook H))

def Free (c : Call S H) : Prop :=
  c.transport.yielding = false ∧ ∀ fuel frame len,
    (enterStream X build hook fuel frame len c).1 ≠ .err TEEC_ERROR_BUSY

theorem free_iff (c : Call S H) : Free X build hook c ↔ c.transport.yielding = false := by
  constructor
  · intro h
    exact h.1
  · intro hfree
    refine ⟨hfree, fun fuel frame len hbusy => ?_⟩
    rw [(enterStream_busy_iff X build hook fuel frame len c).mp hbusy] at hfree
    cases hfree

end

theorem writePdu_entered {kind seq : UInt32}
    {c c₁ : Call S H} : writePdu X kind seq frame len (c.entered c.transport.sock) = (.ok (), c₁) ↔
      ∃ s, TakesPdu X kind seq frame len c.bounce c.transport.sock s ∧ c₁ = c.entered s :=
  writePdu_eq_ok_iff

/-- The transport is free after a call that returns exactly if it was free before and the peer
took the ENTER and saw the call through; and `write_pdu` leaves nothing of a PDU with a
window outside the pool on the stream exactly if there is no such PDU or the stream took
less than its head. -/
theorem transport_free_iff (X : Socket S) (build : Build) (hook : Option (RpcHook H)) (fuel : Nat)
    (frame : CallFrame) (len : UInt32) (c : Call S H)
    (hreturns : (enterStream X build hook fuel frame len c).1 ≠ .panic) :
    (Free X build hook (enterStream X build hook fuel frame len c).2 ↔
      c.transport.yielding = false ∧
        ∃ s, TakesPdu X KIND_ENTER c.transport.seq frame len c.bounce c.transport.sock s ∧
          SeenThrough X build hook (c.entered s)) ∧
    ∀ (kind seq : UInt32) (frame : CallFrame) (len : UInt32) (c : Call (S × Bytes) H),
      OutsideWritesNothing X kind seq frame len c ↔
        (InsidePool frame len ∨
          ¬ ∃ s, Sends X (headBufs kind seq frame len) c.transport.sock.1 s) := by
  refine ⟨?_, outsideWritesNothing_iff X⟩
  rw [free_iff]
  cases hmark : c.transport.yielding with
  | true =>
    refine iff_of_false ?_ (fun h => absurd h.1 (by decide))
    rw [enterStream, bind_of_ok (gets_apply _ c), hmark, if_pos rfl]
    simp [hmark]
  | false =>
    rw [enterStream_of_free hmark] at hreturns ⊢
    have hkeeps := writePdu_sameMark X KIND_ENTER c.transport.seq frame len
      (c.entered c.transport.sock)
    rcases hwrite : writePdu X KIND_ENTER c.transport.seq frame len (c.entered c.transport.sock)
      with ⟨r, c₁⟩
    rw [hwrite] at hkeeps
    have hmarked₁ : c₁.transport.yielding = true := hkeeps
    cases r with
    | panic =>
      rw [bind_of_panic hwrite] at hreturns
      exact absurd rfl hreturns
    | err =>
      rw [bind_of_err hwrite]
      refine iff_of_false (by simp [hmarked₁]) ?_
      rintro ⟨-, s, htakes, -⟩
      rw [writePdu_entered.mpr ⟨s, htakes, rfl⟩] at hwrite
      cases hwrite
    | ok =>
      rw [bind_of_ok hwrite] at hreturns ⊢
      rw [enterLoop_free_iff fuel c₁ hmarked₁ hreturns]
      constructor
      · intro h
        obtain ⟨s, htakes, rfl⟩ := writePdu_entered.mp hwrite
        exact ⟨rfl, s, htakes, h⟩
      · rintro ⟨-, s, htakes, h⟩
        rw [writePdu_entered.mpr ⟨s, htakes, rfl⟩] at hwrite
        cases hwrite
        exact h

def mute : Socket Unit where
  write _ s := (true, s)
  read _ s := ([], s)

def dialed (S : Type) (s : S) : Call S Unit := ⟨.new s, ⟨fun _ => 0⟩, ()⟩

theorem transport_free_iff_sample :
    (enterStream mute .release none 1 (CallFrame.yieldingEnter 0) 0 (dialed Unit ())).1 =
      .err TEEC_ERROR_COMMUNICATION ∧
    (Free mute .release none (enterStream mute .release none 1 (CallFrame.yieldingEnter 0) 0
        (dialed Unit ())).2 ↔
      ∃ s, TakesPdu mute KIND_ENTER 1 (CallFrame.yieldingEnter 0) 0 ⟨fun _ => 0⟩ () s ∧
        SeenThrough mute .release none ((dialed Unit ()).entered s)) := by
  have hcode : (enterStream mute .release none 1 (CallFrame.yieldingEnter 0) 0
      (dialed Unit ())).1 = .err TEEC_ERROR_COMMUNICATION := rfl
  refine ⟨hcode, ?_⟩
  have h := (transport_free_iff mute .release none 1 (CallFrame.yieldingEnter 0) 0
    (dialed Unit ()) (by rw [hcode]; exact nofun)).1
  rw [h]
  exact and_iff_right rfl

/-- The peer does not answer the first call, and the second is refused. Of a PDU with a window
outside the pool, 80 bytes go out. -/
theorem unanswered_call_wedges :
    (enterStream mute .release none 1 (CallFrame.yieldingEnter 0) 0 (dialed Unit ())).1 =
      .err TEEC_ERROR_COMMUNICATION ∧
    (enterStream mute .release none 1 (CallFrame.yieldingEnter 0) 0
      (enterStream mute .release none 1 (CallFrame.yieldingEnter 0) 0
        (dialed Unit ())).2).1 = .err TEEC_ERROR_BUSY ∧
    (writePdu (logged mute) KIND_ENTER 1 (CallFrame.yieldingEnter 0) 0xFFFFFFFF
      (dialed (Unit × Bytes) ((), []))).1 = .err TEEC_ERROR_COMMUNICATION ∧
    (writePdu (logged mute) KIND_ENTER 1 (CallFrame.yieldingEnter 0) 0xFFFFFFFF
      (dialed (Unit × Bytes) ((), []))).2.transport.sock.2.length = 80 := by
  have hout : ¬ InsidePool (CallFrame.yieldingEnter 0) 0xFFFFFFFF := by decide
  have hhead : Sends mute (headBufs KIND_ENTER 1 (CallFrame.yieldingEnter 0) 0xFFFFFFFF)
      () () := ⟨(), rfl, (), rfl, rfl⟩
  have hpdu := writePdu_outside (X := mute) (c := dialed (Unit × Bytes) ((), [])) hout hhead
  refine ⟨rfl, rfl, ?_, ?_⟩
  · rw [hpdu]
  · rw [hpdu]
    rfl

end Rustee.Client
