import Rustee.ClientWire
import Rustee.GuestCodec

/-!
# A call and its answer

The client numbers its calls, and the guest puts the number of the ENTER on everything it sends for
it. `enter` does not look at the number: it takes the first COMPLETE, puts the window of every PDU
it reads into the caller's pool and runs the hook on that pool for every RPC. Here the socket gives
any bytes at all, those that an earlier call has left behind included.
-/

namespace Rustee.Client

open Virt Guest Attempt List Proto.PduHeader

variable {S H : Type}

/-! ### The PDUs a call reads -/

/-- A PDU with as much of its window as came. -/
structure Arrival where
  hdr : Proto.PduHeader
  frame : Proto.CallFrame
  window : Bytes
  whole : Bool
deriving DecidableEq

namespace Arrival

/-- What a PDU does to the caller's pool and to what the hook can reach: its window goes to the
pool, and the hook answers an RPC that has arrived as a whole. -/
def effect (build : Build) (hook : Option (RpcHook H)) (x : Pool × H) (a : Arrival) : Pool × H :=
  let pool := x.1.put a.frame.cookie.toNat a.window
  if a.whole = true ∧ a.hdr.kind = KIND_RPC then
    hookEffect build hook a.hdr a.frame.cookie pool x.2
  else (pool, x.2)

/-- A PDU that ends a call with success or has an effect. -/
def Tells (a : Arrival) : Prop :=
  a.window ≠ [] ∨ (a.whole = true ∧ (a.hdr.kind = KIND_COMPLETE ∨ a.hdr.kind = KIND_RPC))

instance (a : Arrival) : Decidable a.Tells := inferInstanceAs (Decidable (_ ∨ _))

theorem effect_of_not_tells {a : Arrival} (h : ¬ a.Tells) (build : Build)
    (hook : Option (RpcHook H)) (x : Pool × H) : a.effect build hook x = x := by
  obtain ⟨hwindow, hkind⟩ := not_or.mp h
  have hnil : a.window = [] := not_not.mp hwindow
  rw [effect, hnil, Pool.put_nil, if_neg fun hrpc => hkind ⟨hrpc.1, .inr hrpc.2⟩]

end Arrival

section Reading

variable (X : Socket S)

/-- `read_pdu` up to the window. -/
def readHead : WM S H (Proto.PduHeader × Proto.CallFrame) := do
  let hdr ← decoded (decode (← readExact X PDU_HDR_LEN))
  let frame ← decoded (Proto.CallFrame.decode (← readExact X CALL_FRAME_LEN))
  if frame.cookie.toNat + hdr.bounceLen.toNat > BOUNCE_POOL_SIZE then
    raise TEEC_ERROR_COMMUNICATION
  else pure (hdr, frame)

/-- The PDU that `read_pdu` reads, unless it refuses the head. -/
def arrival (c : Call S H) : Option Arrival :=
  match readHead X c with
  | (.ok (hdr, frame), c) =>
    let n := hdr.bounceLen.toNat
    let bytes := (X.read n c.transport.sock).1
    some ⟨hdr, frame, bytes.take n, n = 0 || bytes.length = n⟩
  | _ => none

variable (build : Build) (hook : Option (RpcHook H))

/-- An RPC is answered. -/
def answer (a : Arrival) : WM S H Unit := do
  let replyLen ← runHook build hook a.hdr a.frame.cookie
  writePdu X KIND_RPC_REPLY a.hdr.seq (Proto.CallFrame.returnFromRpc a.frame.cookie) replyLen

/-- Nothing is read after a part that fails. -/
def readAfter {α : Type} (f : Call S H → List Arrival) :
    Fallible UInt32 α × Call S H → List Arrival
  | (.ok _, c) => f c
  | _ => []

/-- The PDUs that the loop of `enter` reads. -/
def arrivals : Nat → Call S H → List Arrival
  | 0, _ => []
  | fuel + 1, c =>
    match arrival X c with
    | none => []
    | some a => a ::
      if a.whole = true ∧ a.hdr.kind = KIND_RPC then
        readAfter (arrivals fuel) (answer X build hook a (readPdu X c).2)
      else []

/-- The PDUs that `enter` reads. -/
def pdusRead (fuel : Nat) (frame : Proto.CallFrame) (len : UInt32) (c : Call S H) : List Arrival :=
  if c.transport.yielding then []
  else readAfter (arrivals X build hook fuel)
    (writePdu X KIND_ENTER c.transport.seq frame len (c.entered c.transport.sock))

end Reading

/-! ### Reading one PDU -/

/-- The caller's side of a call: its pool, and what the hook can reach. -/
def Call.caller (c : Call S H) : Pool × H := (c.bounce, c.process)

def callerFrame (S H : Type) : Frame (Call S H) where
  rel c c' := c'.caller = c.caller
  refl _ := rfl
  trans h h' := h'.trans h

section Read

variable {X : Socket S} {c : Call S H} {a : Arrival}

theorem readExact_caller (n : Nat) : Keeps (callerFrame S H) (readExact X n) := by
  intro c
  rw [readExact]
  dsimp only
  split <;> rfl

theorem readHead_caller : Keeps (callerFrame S H) (readHead X) := by
  have R := keepsRule (callerFrame S H)
  refine (readExact_caller _).bind fun _ => (R.decoded _).bind fun hdr =>
    (readExact_caller _).bind fun _ => (R.decoded _).bind fun frame => ?_
  split
  · exact R.fails
  · exact R.pure _

theorem writePdu_caller (kind seq : UInt32) (frame : Proto.CallFrame) (len : UInt32) :
    Keeps (callerFrame S H) (writePdu X kind seq frame len) := by
  refine (keepsRule _).writePdu (fun buf c => ?_) kind seq frame len
  rw [writeAll]
  rcases X.write buf c.transport.sock with ⟨ok, s⟩
  cases ok <;> rfl

theorem readPdu_eq : (readPdu X : WM S H _) = readHead X >>= fun p =>
    (if p.1.bounceLen.toNat > 0 then
      readWindow X p.2.cookie.toNat p.1.bounceLen.toNat else pure ()) >>= fun _ => pure p := by
  simp only [readPdu, readHead, Attempt.bind_assoc]
  congr 1
  funext b
  congr 1
  funext hdr
  congr 1
  funext b'
  congr 1
  funext frame
  split
  · rfl
  · change _ = ((if hdr.bounceLen.toNat > 0 then
      readWindow X frame.cookie.toNat hdr.bounceLen.toNat else pure ()) >>= fun _ => _)
    split <;> rfl

/-- The window of a PDU goes to the pool as far as it comes. -/
theorem readPdu_arrival (h : arrival X c = some a) :
    (readPdu X c).1 = (if a.whole then .ok (a.hdr, a.frame) else .err TEEC_ERROR_COMMUNICATION) ∧
      (readPdu X c).2.caller = (c.bounce.put a.frame.cookie.toNat a.window, c.process) := by
  have hkeep : (readHead X c).2.caller = c.caller := readHead_caller c
  rw [arrival] at h
  rw [readPdu_eq]
  rcases hhead : readHead X c with ⟨⟨hdr, frame⟩ | e | _, c1⟩
  · rw [hhead] at h hkeep
    cases h
    rw [bind_of_ok hhead]
    obtain ⟨hpool, hprocess⟩ := Prod.mk.inj hkeep
    dsimp only
    by_cases hn : hdr.bounceLen.toNat > 0
    · have hwhole : (decide (hdr.bounceLen.toNat = 0)) = false := by
        simpa using Nat.ne_of_gt hn
      rw [if_pos hn, bind_apply, readWindow, hpool, hwhole, Bool.false_or]
      dsimp only
      by_cases hlen : (X.read hdr.bounceLen.toNat c1.transport.sock).1.length = hdr.bounceLen.toNat
      · rw [if_pos hlen, if_pos (decide_eq_true hlen)]
        exact ⟨rfl, congrArg (_, ·) hprocess⟩
      · rw [if_neg hlen, if_neg (by simpa using hlen)]
        exact ⟨rfl, congrArg (_, ·) hprocess⟩
    · have hzero : hdr.bounceLen.toNat = 0 := by omega
      rw [if_neg hn, hzero, take_zero, Pool.put_nil]
      exact ⟨rfl, hkeep⟩
  · rw [hhead] at h
    cases h
  · rw [hhead] at h
    cases h

theorem readPdu_refused (h : arrival X c = none) :
    (∀ p, (readPdu X c).1 ≠ .ok p) ∧ (readPdu X c).2.caller = c.caller := by
  have hkeep : (readHead X c).2.caller = c.caller := readHead_caller c
  rw [arrival] at h
  rw [readPdu_eq]
  rcases hhead : readHead X c with ⟨_ | e | _, c1⟩
  · rw [hhead] at h
    cases h
  · rw [hhead] at hkeep
    rw [bind_of_err hhead]
    exact ⟨by simp, hkeep⟩
  · rw [hhead] at hkeep
    rw [bind_of_panic hhead]
    exact ⟨by simp, hkeep⟩

end Read

/-! ### The loop -/

/-- A call that began with the pool and process `x` and has read the PDUs `l`: they have had
their effect, and on success the last one was a COMPLETE. -/
structure Took (build : Build) (hook : Option (RpcHook H)) (x : Pool × H) (l : List Arrival)
    (r : Fallible UInt32 Proto.CallFrame × Call S H) : Prop where
  pool : r.2.caller = l.foldl (Arrival.effect build hook) x
  complete : ∀ frame, r.1 = .ok frame → ∃ a, l.getLast? = some a ∧ a.whole = true ∧
    a.hdr.kind = KIND_COMPLETE ∧ a.frame = frame

section Loop

variable {X : Socket S} {build : Build} {hook : Option (RpcHook H)} {x : Pool × H}
  {l : List Arrival} {r : Fallible UInt32 Proto.CallFrame × Call S H}

theorem Took.stopped (hpool : r.2.caller = l.foldl (Arrival.effect build hook) x)
    (hstop : ∀ frame, r.1 ≠ .ok frame) : Took build hook x l r :=
  ⟨hpool, fun frame h => absurd h (hstop frame)⟩

theorem Took.cons {a : Arrival} (h : Took build hook (a.effect build hook x) l r) :
    Took build hook x (a :: l) r := by
  refine ⟨h.pool, fun frame hframe => ?_⟩
  obtain ⟨b, hlast, hb⟩ := h.complete frame hframe
  refine ⟨b, ?_, hb⟩
  rw [getLast?_cons, hlast]
  rfl

/-- A part that comes before the loop goes on, with the PDUs `f` that are read then. -/
theorem Took.bind {α : Type} {y : WM S H α} {g : α → WM S H Proto.CallFrame} {c : Call S H}
    {f : Call S H → List Arrival} (hkeep : (y c).2.caller = x)
    (h : ∀ a c', c'.caller = x → Took build hook x (f c') (g a c')) :
    Took build hook x (readAfter f (y c)) ((y >>= g) c) := by
  rcases hrun : y c with ⟨a | e | _, c'⟩ <;> rw [hrun] at hkeep
  · rw [bind_of_ok hrun]
    exact h a c' hkeep
  · rw [bind_of_err hrun]
    exact .stopped hkeep (by simp)
  · rw [bind_of_panic hrun]
    exact .stopped hkeep (by simp)

theorem answer_caller (a : Arrival) (c : Call S H) : (answer X build hook a c).2.caller =
    hookEffect build hook a.hdr a.frame.cookie c.bounce c.process := by
  have hwrite : (answer X build hook a c).2.caller = _ :=
    rel_after (F := callerFrame S H) (fun _ => writePdu_caller _ _ _ _) c
  rw [hwrite, runHook_snd]
  rfl

/-- What the loop does, by induction on its turns. -/
theorem enterLoop_took (fuel : Nat) (c : Call S H) :
    Took build hook c.caller (arrivals X build hook fuel c) (enterLoop X build hook fuel c) := by
  induction fuel generalizing c with
  | zero => exact .stopped rfl (by rintro _ ⟨⟩)
  | succ fuel ih =>
    rw [enterLoop, arrivals]
    rcases hread : readPdu X c with ⟨p, c1⟩
    rcases ha : arrival X c with _ | a
    · obtain ⟨hne, hkeep⟩ := readPdu_refused ha
      rw [hread] at hne hkeep
      rcases p with p | e | _
      · exact absurd rfl (hne p)
      · rw [bind_of_err hread]
        exact .stopped hkeep (by simp)
      · rw [bind_of_panic hread]
        exact .stopped hkeep (by simp)
    · obtain ⟨hresult, hcaller⟩ := readPdu_arrival ha
      rw [hread] at hresult hcaller
      dsimp only at hresult hcaller ⊢
      have hother : ¬ (a.whole = true ∧ a.hdr.kind = KIND_RPC) →
          c1.caller = a.effect build hook c.caller := by
        intro h
        rw [Arrival.effect, if_neg h]
        exact hcaller
      by_cases hwhole : a.whole = true
      · rw [if_pos hwhole] at hresult
        subst hresult
        rw [bind_of_ok hread]
        dsimp only
        by_cases hkind : a.hdr.kind = KIND_COMPLETE
        · have hrpc : ¬ (a.whole = true ∧ a.hdr.kind = KIND_RPC) := by
            rw [hkind]
            exact fun h => absurd h.2 (by decide)
          rw [if_pos hkind, if_neg hrpc]
          exact ⟨hother hrpc, fun frame h => ⟨a, rfl, hwhole, hkind, Fallible.ok.inj h⟩⟩
        rw [if_neg hkind]
        by_cases hrpc : a.hdr.kind = KIND_RPC
        · have hanswer : (answer X build hook a c1).2.caller = a.effect build hook c.caller := by
            obtain ⟨hpool, hprocess⟩ := Prod.mk.inj hcaller
            rw [answer_caller, Arrival.effect, if_pos ⟨hwhole, hrpc⟩, hpool, hprocess]
            rfl
          rw [if_pos hrpc, if_pos ⟨hwhole, hrpc⟩, ← Attempt.bind_assoc]
          exact .cons (Took.bind (y := answer X build hook a) hanswer fun _ c2 h => h ▸ ih c2)
        · rw [if_neg hrpc, if_neg fun h => hrpc h.2]
          exact .stopped (hother fun h => hrpc h.2) (by rintro _ ⟨⟩)
      · rw [if_neg hwhole] at hresult
        subst hresult
        rw [bind_of_err hread, if_neg fun h => hwhole h.1]
        exact .stopped (hother fun h => hwhole h.1) (by simp)

theorem enterStream_took (fuel : Nat) (frame : Proto.CallFrame) (len : UInt32) (c : Call S H) :
    Took build hook c.caller (pdusRead X build hook fuel frame len c)
      (enterStream X build hook fuel frame len c) := by
  rw [pdusRead]
  by_cases hbusy : c.transport.yielding = true
  · rw [enterStream, bind_of_ok (gets_apply _ c), if_pos hbusy, if_pos hbusy]
    exact .stopped rfl (by simp)
  · rw [enterStream_of_free (Bool.not_eq_true _ ▸ hbusy), if_neg hbusy]
    exact Took.bind (writePdu_caller _ _ _ _ (c.entered c.transport.sock))
      fun _ c' h => h ▸ enterLoop_took fuel c'

end Loop

/-! ### Own answers -/

/-- A call has taken its own answer only: it returns on a COMPLETE with its number, and the pool
and what the hook reaches are as if only the PDUs with its number had come. -/
structure OwnAnswer (build : Build) (hook : Option (RpcHook H)) (seq : UInt32) (x : Pool × H)
    (l : List Arrival) (r : Fallible UInt32 Proto.CallFrame × Call S H) : Prop where
  complete : ∀ frame, r.1 = .ok frame → ∃ a, l.getLast? = some a ∧
    a.hdr.kind = KIND_COMPLETE ∧ a.hdr.seq = seq ∧ a.frame = frame
  pool : r.2.caller = (l.filter (·.hdr.seq = seq)).foldl (Arrival.effect build hook) x

/-- A peer that has sent these bytes and takes what it is sent. -/
def byteSocket : Socket Bytes := ⟨fun _ s => (true, s), fun n s => (s.take n, s.drop n)⟩

def peerPdu (kind seq len : UInt32) (window : Bytes) : Bytes :=
  (yielding kind seq len).encode ++ ((Proto.CallFrame.yieldingEnter 0).encode ++ window)

/-- A hook that counts its calls and fills the pool with 7. -/
def fillHook : RpcHook Nat := fun _ x => (.ok 0, ⟨fun _ => 7⟩, x.2 + 1)

def enterOn (c : Call Bytes Nat) : Fallible UInt32 Proto.CallFrame × Call Bytes Nat :=
  enterStream byteSocket .release (some fillHook) 2 (Proto.CallFrame.yieldingEnter 0) 0 c

def readOn (c : Call Bytes Nat) : List Arrival :=
  pdusRead byteSocket .release (some fillHook) 2 (Proto.CallFrame.yieldingEnter 0) 0 c

/-- An RPC and the COMPLETE of call 1. -/
def answerOfOne : Bytes := peerPdu KIND_RPC 1 0 [] ++ peerPdu KIND_COMPLETE 1 1 [0xAB]

def callOn (stream : Bytes) : Call Bytes Nat := ⟨⟨stream, 1, false⟩, ⟨fun _ => 0⟩, 0⟩

/-- The peer sends something that ends call 1 with an error, and then its answer. -/
def staleEnter : Fallible UInt32 Proto.CallFrame × Call Bytes Nat :=
  enterOn (callOn (peerPdu KIND_RPC_REPLY 1 0 [] ++ answerOfOne))

end Rustee.Client
