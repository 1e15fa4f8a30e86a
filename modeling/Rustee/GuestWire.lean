import Rustee.GuestCodec
import Rustee.GuestImports
import Rustee.VirtConnections

/-!
# The decoders on arbitrary wire input

What the host sends is any bytes. `decode_msg` adds to the cookie without a check, and `take_tx` to
the window of the gate; both are safe because the copy of a received window into the pool is
checked first, and the gate holds no other windows (`GateInside`). So no decoder panics in any
interleaving, and the pool changes only inside a received window or the message answered.
-/

namespace Rustee.Guest

open Os Virt Attempt VirtHal VsockConn VirtCallGate

/-! ### Calls of the guest's functions -/

/-- What the guest answers an ENTER with. -/
structure Answer where
  ret : UInt32
  origin : UInt32
  session : UInt32
  produced : Params
  out : CallFrame

/-- `decode_cmd` on the live pool; only whether it panics matters here. -/
def tryDecode (build : Build) (frame : CallFrame) : Attempt VirtHal HalError Unit := fun h =>
  match decodeCmd build h.mem.pool frame.cookieA1a2 with
  | .panic => (.panic, h)
  | _ => (.ok (), h)

/-- `write_done` on the live pool. -/
def answerIn (build : Build) (frame : CallFrame) (a : Answer) : Attempt VirtHal HalError Unit :=
  fun h =>
    match writeDone build h.mem.pool frame.cookieA1a2 a.ret a.origin a.session a.produced with
    | .ok pool => (.ok (), { h with mem := { h.mem with pool := pool } })
    | .err _ => (.ok (), h)
    | .panic => (.panic, h)

/-- `recv_enter`, and for a frame `decode_cmd`, `write_done` and `complete_stream`. -/
def serveEnter (build : Build) (a : Answer) : Attempt VirtHal HalError Unit := do
  let frame ← recvEnter
  tryDecode build frame
  answerIn build frame a
  let _ ← completeStream build a.out
  pure ()

/-- `take_load_ta` on the live pool. -/
def tryLoadTa (build : Build) : Attempt VirtHal HalError Unit := fun h =>
  match takeLoadTa build h.mem.pool with
  | .panic => (.panic, h)
  | _ => (.ok (), h)

/-- `recv_rpc_reply`, and for a frame `take_load_ta`. -/
def serveReply (build : Build) : Attempt VirtHal HalError Unit := do
  let _ ← recvRpcReply
  tryLoadTa build

/-- What may happen to the HAL. Besides the wire, the kernel and its TAs may leave
anything in the pool, and an RPC may be sent with a window inside the pool. -/
inductive WireStep where
  | connect (req : VirtioVsockHdr)
  | push (hdr : VirtioVsockHdr) (payload : Bytes)
  | enter (a : Answer)
  | reply
  | elsewhere (pool : Pool)
  | rpc (cookie : UInt64) (len : UInt32) (out : CallFrame)
      (inside : cookie.toNat + len.toNat ≤ BOUNCE_POOL_SIZE)

def WireStep.run (build : Build) : WireStep → Attempt VirtHal HalError Unit
  | .connect req => do
    let _ ← acceptConnect req
    pure ()
  | .push hdr payload => pushHostRw hdr payload
  | .enter a => serveEnter build a
  | .reply => serveReply build
  | .elsewhere pool => modify fun h => { h with mem := { h.mem with pool := pool } }
  | .rpc cookie len out _ => do
    modify (setRpcWindow cookie len)
    let _ ← onGate (rpcYield out)
    pure ()

def wireRun (build : Build) (steps : List WireStep) (h : VirtHal) : VirtHal :=
  steps.foldl (fun h step => (step.run build h).2) h

/-! ### Windows of the gate -/

/-- The windows the gate has, or can get from what it was fed, are inside the pool. -/
structure GateInside (h : VirtHal) : Prop where
  last : h.gate.lastCookie.toNat + h.gate.lastBounceLen.toNat ≤ BOUNCE_POOL_SIZE
  enter : h.enterCookie.toNat + h.enterBounceLen.toNat ≤ BOUNCE_POOL_SIZE
  rx : ∀ hdr frame, h.gate.rx = some (hdr, frame) →
    frame.cookieA1a2.toNat + hdr.bounceLen.toNat ≤ BOUNCE_POOL_SIZE

theorem gateInside_init : GateInside init :=
  ⟨by decide, by decide, fun _ _ hrx => by cases hrx⟩

def staysInside : Frame VirtHal where
  rel h h' := GateInside h → GateInside h'
  refl _ h := h
  trans h h' hin := h' (h hin)

def Received (h : VirtHal) (hdr : PduHeader) (frame : CallFrame) (bounce : Bytes) : Prop :=
  ∃ c rest, h.conn = some c ∧ takeRx c.rx = (.ok (hdr, frame, bounce), rest)

def WindowIn (h : VirtHal) (frame : CallFrame) (len : UInt32) (pool : Pool) : Prop :=
  ∃ hdr bounce, Received h hdr frame bounce ∧ hdr.bounceLen = len ∧ bounce.length = len.toNat ∧
    frame.cookieA1a2.toNat + len.toNat ≤ BOUNCE_POOL_SIZE ∧
    pool = h.mem.pool.put frame.cookieA1a2.toNat bounce

def Fed (h h' : VirtHal) : Prop :=
  h'.mem.pool = h.mem.pool ∨ ∃ frame len, WindowIn h frame len h'.mem.pool

section Receive

variable (h : VirtHal)

theorem takeRx_ne_panic (rx : Bytes) : (takeRx rx).1 ≠ .panic := by
  rw [takeRx]
  split
  · intro hpanic
    cases hpanic
  · split
    · intro hpanic
      cases hpanic
    · split
      · intro hpanic
        cases hpanic
      · dsimp only
        split
        · intro hpanic
          cases hpanic
        · split <;> intro hpanic <;> cases hpanic

theorem takePdu_cases :
    (∃ e conn, onConn takePdu h = (.err e, { h with conn := conn })) ∨
      ∃ hdr frame bounce conn, Received h hdr frame bounce ∧
        onConn takePdu h = (.ok (hdr, frame, bounce), { h with conn := conn }) := by
  rw [onConn]
  cases hconn : h.conn with
  | none =>
    have hsame : h = { h with conn := none } := by rw [← hconn]
    exact .inl ⟨.notFound, none, congrArg (Prod.mk _) hsame⟩
  | some c =>
    rcases htake : takeRx c.rx with ⟨r, rest⟩
    have hpdu := takePdu_of_takeRx htake
    cases r with
    | ok q =>
      obtain ⟨hdr, frame, bounce⟩ := q
      refine .inr ⟨hdr, frame, bounce, some { c with rx := rest }, ⟨c, rest, hconn, htake⟩, ?_⟩
      simp only [hpdu]
    | err e =>
      refine .inl ⟨e, some { c with rx := rest }, ?_⟩
      simp only [hpdu]
    | panic =>
      have hne := takeRx_ne_panic c.rx
      rw [htake] at hne
      exact absurd rfl hne

theorem feedPdu_cases (hdr : PduHeader) (frame : CallFrame) (bounce : Bytes) :
    (∃ e, feedPdu hdr frame bounce h = (.err e, h)) ∨
      bounce.length = hdr.bounceLen.toNat ∧
        frame.cookieA1a2.toNat + hdr.bounceLen.toNat ≤ BOUNCE_POOL_SIZE ∧
        feedPdu hdr frame bounce h = (.ok (), { h with
          mem := { h.mem with pool := h.mem.pool.put frame.cookieA1a2.toNat bounce }
          gate := { h.gate with rx := some (hdr, frame) } }) := by
  rw [feedPdu]
  by_cases harg : hdr.argLen ≠ UInt32.ofNat CALL_FRAME_LEN
  · refine .inl ⟨.invalidParam, ?_⟩
    rw [if_pos harg]
    rfl
  by_cases hlen : bounce.length ≠ hdr.bounceLen.toNat
  · refine .inl ⟨.invalidParam, ?_⟩
    rw [if_neg harg, if_pos hlen]
    rfl
  have hlen := not_not.mp hlen
  rw [if_neg harg, if_neg (not_not.mpr hlen)]
  by_cases hpast : frame.cookieA1a2.toNat + bounce.length > BOUNCE_POOL_SIZE
  · refine .inl ⟨.invalidParam, bind_of_err ?_⟩
    rw [copyBounceIn, if_pos hpast]
  · refine .inr ⟨hlen, hlen ▸ not_lt.mp hpast, ?_⟩
    have hcopy : copyBounceIn frame.cookieA1a2 bounce h = (.ok (), { h with
        mem := { h.mem with pool := h.mem.pool.put frame.cookieA1a2.toNat bounce } }) := by
      rw [copyBounceIn, if_neg hpast]
    rw [bind_of_ok hcopy]
    rfl

variable {frame : CallFrame}

theorem recv_cases {g : VirtCallGate} {hdr : PduHeader} (hrx : g.rx = some (hdr, frame)) :
    (∃ e g', recv g = (.err e, g')) ∨ ∃ g', recv g = (.ok frame, g') := by
  rw [recv, hrx]
  by_cases hyielding : g.yielding
  · exact .inl ⟨.busy, g, if_pos hyielding⟩
  · rw [if_neg hyielding]
    by_cases henter : hdr.kind = KIND_ENTER ∧ hdr.argLen = UInt32.ofNat CALL_FRAME_LEN
    · exact .inr ⟨_, if_pos henter⟩
    · exact .inl ⟨.invalidParam, _, if_neg henter⟩

/-- `recv_enter` returns the frame whose window it has copied. -/
theorem recvEnter_cases :
    (∃ e h', recvEnter h = (.err e, h') ∧ Fed h h') ∨
      ∃ frame len h', recvEnter h = (.ok frame, h') ∧ WindowIn h frame len h'.mem.pool := by
  rcases takePdu_cases h with ⟨e, conn, htake⟩ | ⟨hdr, frame, bounce, conn, hreceived, htake⟩
  · exact .inl ⟨e, _, bind_of_err htake, .inl rfl⟩
  rcases feedPdu_cases { h with conn := conn } hdr frame bounce with
    ⟨e, hfeed⟩ | ⟨hlen, hin, hfeed⟩
  · refine .inl ⟨e, { h with conn := conn }, ?_, .inl rfl⟩
    rw [recvEnter, bind_of_ok htake]
    exact bind_of_err hfeed
  · have hwindow : WindowIn h frame hdr.bounceLen (h.mem.pool.put frame.cookieA1a2.toNat bounce) :=
      ⟨hdr, bounce, hreceived, rfl, hlen, hin, rfl⟩
    let fed : VirtHal := { h with
      conn := conn
      mem := { h.mem with pool := h.mem.pool.put frame.cookieA1a2.toNat bounce }
      gate := { h.gate with rx := some (hdr, frame) } }
    have hgate : recvEnter h = ((recv fed.gate).1,
        { fed with gate := (recv fed.gate).2 }) := by
      rw [recvEnter, bind_of_ok htake]
      exact bind_of_ok hfeed
    rcases recv_cases (g := fed.gate) rfl with ⟨e, g, hrecv⟩ | ⟨g, hrecv⟩
    · rw [hgate, hrecv]
      exact .inl ⟨e, { fed with gate := g }, rfl, .inr ⟨frame, _, hwindow⟩⟩
    · rw [hgate, hrecv]
      exact .inr ⟨frame, hdr.bounceLen, { fed with gate := g }, rfl, hwindow⟩

theorem recvRpcReply_cases : ∃ r h', recvRpcReply h = (r, h') ∧ r ≠ .panic ∧ Fed h h' := by
  rcases takePdu_cases h with ⟨e, conn, htake⟩ | ⟨hdr, frame, bounce, conn, hreceived, htake⟩
  · exact ⟨.err e, _, bind_of_err htake, by simp, .inl rfl⟩
  rw [recvRpcReply, bind_of_ok htake]
  by_cases hkind : hdr.kind ≠ KIND_RPC_REPLY ∨ hdr.argLen ≠ UInt32.ofNat CALL_FRAME_LEN
  · simp only [if_pos hkind]
    exact ⟨.err .invalidParam, { h with conn := conn }, rfl, by simp, .inl rfl⟩
  simp only [if_neg hkind]
  rcases feedPdu_cases { h with conn := conn } hdr frame bounce with
    ⟨e, hfeed⟩ | ⟨hlen, hin, hfeed⟩
  · exact ⟨.err e, { h with conn := conn }, bind_of_err hfeed, by simp, .inl rfl⟩
  · rw [bind_of_ok hfeed]
    exact ⟨.ok frame, _, rfl, by simp,
      .inr ⟨frame, _, hdr, bounce, hreceived, rfl, hlen, hin, rfl⟩⟩

end Receive

/-! ### The windows stay inside -/

theorem onConn_staysInside {α : Type} (x : Attempt VsockConn HalError α) :
    Keeps staysInside (onConn x) := by
  intro h hin
  rw [onConn]
  split
  · exact ⟨hin.last, hin.enter, hin.rx⟩
  · exact hin

theorem feedPdu_staysInside (hdr : PduHeader) (frame : CallFrame) (bounce : Bytes) :
    Keeps staysInside (feedPdu hdr frame bounce) := by
  intro h hin
  rcases feedPdu_cases h hdr frame bounce with ⟨e, hfeed⟩ | ⟨-, hfits, hfeed⟩
  · rw [hfeed]
    exact hin
  · rw [hfeed]
    refine ⟨hin.last, hin.enter, ?_⟩
    intro hdr' frame' hrx
    cases hrx
    exact hfits

theorem recv_staysInside : Keeps staysInside (onGate recv) := by
  intro h hin
  rw [onGate, zoom, recv]
  by_cases hyielding : h.gate.yielding
  · rw [if_pos hyielding]
    exact hin
  rw [if_neg hyielding]
  cases hrx : h.gate.rx with
  | none => exact hin
  | some fed =>
    obtain ⟨hdr, frame⟩ := fed
    dsimp only
    split
    · exact ⟨hin.rx hdr frame hrx, hin.enter, fun _ _ hnone => by cases hnone⟩
    · exact ⟨hin.last, hin.enter, fun _ _ hnone => by cases hnone⟩

theorem recvEnter_staysInside : Keeps staysInside recvEnter :=
  (onConn_staysInside _).bind fun _ => (feedPdu_staysInside _ _ _).bind fun _ => recv_staysInside

theorem recvRpcReply_staysInside : Keeps staysInside recvRpcReply := by
  refine (onConn_staysInside _).bind ?_
  rintro ⟨hdr, frame, bounce⟩
  dsimp only
  split
  · exact keeps_raise _
  · refine (feedPdu_staysInside hdr frame bounce).bind fun _ => Keeps.bind ?_ fun _ =>
      keeps_pure _
    intro h hin
    exact ⟨hin.enter, hin.enter, fun _ _ hnone => by cases hnone⟩

theorem completeStream_staysInside (build : Build) (out : CallFrame) :
    Keeps staysInside (completeStream build out) := by
  have hgate : Keeps staysInside (onGate (complete out)) := by
    intro h hin
    exact ⟨hin.last, hin.enter, fun _ _ hnone => by cases hnone⟩
  have htake : Keeps staysInside (takeTx build) := by
    intro h hin
    rw [takeTx]
    split
    · exact hin
    · exact ⟨hin.last, hin.enter, hin.rx⟩
  refine hgate.bind fun _ => htake.bind fun tx => ?_
  rcases tx with _ | ⟨hdr, frame, bounce⟩
  · exact keeps_raise _
  · exact (onConn_staysInside _).bind fun _ => keeps_pure _

theorem rpcYield_staysInside (out : CallFrame) : Keeps staysInside (onGate (rpcYield out)) := by
  intro h hin
  rw [onGate, zoom, rpcYield]
  dsimp only
  cases hrx : h.gate.rx with
  | none => exact ⟨hin.last, hin.enter, fun _ _ hsome => hin.rx _ _ (hrx.trans hsome)⟩
  | some fed =>
    obtain ⟨hdr, frame⟩ := fed
    dsimp only
    split
    · exact ⟨hin.rx hdr frame hrx, hin.enter, fun _ _ hnone => by cases hnone⟩
    · exact ⟨hin.last, hin.enter, fun _ _ hnone => by cases hnone⟩

/-! ### Answering -/

section Answer

variable {build : Build} {h : VirtHal}

theorem wrapOutgoing_ne_panic (payload : Bytes) (h : VirtHal) :
    (wrapOutgoing payload h).1 ≠ .panic := by
  rw [wrapOutgoing, onConn]
  cases h.conn with
  | none | some =>
    intro hpanic
    cases hpanic

theorem completeStream_ne_panic (hin : GateInside h) (out : CallFrame) :
    (completeStream build out h).1 ≠ .panic := by
  have hgate : onGate (complete out) h = (.ok (), { h with
      gate := { h.gate with
        tx := some (⟨KIND_COMPLETE, h.gate.seq, UInt32.ofNat CALL_FRAME_LEN,
          h.gate.lastBounceLen⟩, out)
        yielding := false
        rx := none } }) := rfl
  rw [completeStream, bind_of_ok hgate, bind_of_ok (takeTx_eq rfl hin.last)]
  apply bind_ne_panic (wrapOutgoing_ne_panic _ _)
  intro vh h' _ hpanic
  cases hpanic

/-- `write_done` changes the pool inside the message only. -/
theorem writeDone_inside {pool pool' : Pool} {cookie : UInt64} {ret origin session : UInt32}
    {produced : Params}
    (hdone : writeDone build pool cookie ret origin session produced = .ok pool') {i : Nat}
    (hi : pool'.byte i ≠ pool.byte i) :
    ∃ msg params, decodeMsg build pool cookie = .ok (msg, params) ∧
      cookie.toNat + msg.byteSize ≤ BOUNCE_POOL_SIZE ∧ cookie.toNat ≤ i ∧
      i < cookie.toNat + msg.byteSize := by
  rw [writeDone] at hdone
  cases hdecode : decodeMsg build pool cookie with
  | panic =>
    rw [hdecode] at hdone
    cases hdone
  | err =>
    rw [hdecode] at hdone
    cases hdone
    exact absurd rfl hi
  | ok r =>
    obtain ⟨msg, params⟩ := r
    rw [hdecode] at hdone
    dsimp only at hdone
    cases hwrite : writeMsg pool cookie
        { msg with ret := ret, retOrigin := origin, session := session }
        (producedSizes produced params 0) with
    | error e =>
      rw [hwrite] at hdone
      cases hdone
      exact absurd rfl hi
    | ok w =>
      obtain ⟨n, written⟩ := w
      rw [hwrite] at hdone
      cases hdone
      rw [writeMsg] at hwrite
      split_ifs at hwrite with halign hcount hpast
      cases hwrite
      have hlen := length_msgBytes (not_not.mp hcount)
      refine ⟨msg, params, rfl, not_lt.mp hpast, ?_⟩
      by_contra hout
      refine hi (Pool.byte_put_outside ?_)
      show i < cookie.toNat ∨ cookie.toNat + (msgBytes _ _).length ≤ i
      rw [hlen]
      show i < cookie.toNat ∨ cookie.toNat + msg.byteSize ≤ i
      omega

end Answer

/-! ### Every interleaving -/

def InReceived (h : VirtHal) (i : Nat) : Prop :=
  ∃ hdr frame bounce, Received h hdr frame bounce ∧
    frame.cookieA1a2.toNat + hdr.bounceLen.toNat ≤ BOUNCE_POOL_SIZE ∧
    frame.cookieA1a2.toNat ≤ i ∧ i < frame.cookieA1a2.toNat + hdr.bounceLen.toNat

/-- Inside the message that is answered, as it is in the pool with the received window. -/
def InAnswered (build : Build) (h : VirtHal) (i : Nat) : Prop :=
  ∃ hdr frame bounce msg params, Received h hdr frame bounce ∧
    frame.cookieA1a2.toNat + hdr.bounceLen.toNat ≤ BOUNCE_POOL_SIZE ∧
    decodeMsg build (h.mem.pool.put frame.cookieA1a2.toNat bounce) frame.cookieA1a2 =
      .ok (msg, params) ∧
    frame.cookieA1a2.toNat + msg.byteSize ≤ BOUNCE_POOL_SIZE ∧
    frame.cookieA1a2.toNat ≤ i ∧ i < frame.cookieA1a2.toNat + msg.byteSize

def WireStep.MayWrite (build : Build) (h : VirtHal) (i : Nat) : WireStep → Prop
  | .enter _ => InReceived h i ∨ InAnswered build h i
  | .reply => InReceived h i
  | .elsewhere _ => True
  | _ => False

variable {h : VirtHal}

theorem WindowIn.inReceived {len : UInt32} {pool : Pool}
    (hwindow : WindowIn h frame len pool) {i : Nat} (hi : pool.byte i ≠ h.mem.pool.byte i) :
    InReceived h i := by
  obtain ⟨hdr, bounce, hreceived, rfl, hlen, hin, rfl⟩ := hwindow
  refine ⟨hdr, frame, bounce, hreceived, hin, ?_⟩
  by_contra hout
  refine hi (Pool.byte_put_outside ?_)
  rw [hlen]
  omega

theorem Fed.inReceived {h' : VirtHal} (hfed : Fed h h') {i : Nat}
    (hi : h'.mem.pool.byte i ≠ h.mem.pool.byte i) : InReceived h i := by
  rcases hfed with hsame | ⟨frame, len, hwindow⟩
  · rw [hsame] at hi
    exact absurd rfl hi
  · exact hwindow.inReceived hi

/-- What is proved of one step. -/
structure StepSafe (build : Build) (h : VirtHal) (step : WireStep) : Prop where
  noPanic : (step.run build h).1 ≠ .panic
  inside : GateInside (step.run build h).2
  frame : ∀ i, (step.run build h).2.mem.pool.byte i ≠ h.mem.pool.byte i → step.MayWrite build h i

section Steps

variable {build : Build} {h : VirtHal}

theorem serve_eq (build : Build) (h : VirtHal)
    (hcookie : frame.cookieA1a2.toNat ≤ BOUNCE_POOL_SIZE) (a : Answer) :
    ∃ pool, writeDone build h.mem.pool frame.cookieA1a2 a.ret a.origin a.session a.produced =
        .ok pool ∧
      (tryDecode build frame >>= fun _ => answerIn build frame a >>= fun _ =>
        completeStream build a.out >>= fun _ => pure ()) h =
      (completeStream build a.out >>= fun _ => pure ())
        { h with mem := { h.mem with pool := pool } } := by
  obtain ⟨pool, hdone⟩ : ∃ pool, writeDone build h.mem.pool frame.cookieA1a2 a.ret a.origin
      a.session a.produced = .ok pool := writeDone_eq_ok hcookie _ _ _ _
  have hdecode : tryDecode build frame h = (.ok (), h) := by
    have hne : decodeCmd build h.mem.pool frame.cookieA1a2 ≠ .panic := decodeCmd_ne_panic hcookie
    rw [tryDecode]
    split
    · rename_i hpanic
      exact absurd hpanic hne
    · rfl
  have hanswer : answerIn build frame a h =
      (.ok (), { h with mem := { h.mem with pool := pool } }) := by
    rw [answerIn, hdone]
  refine ⟨pool, hdone, ?_⟩
  rw [bind_of_ok hdecode, bind_of_ok hanswer]

theorem enter_safe (hin : GateInside h) (a : Answer) : StepSafe build h (.enter a) := by
  rcases recvEnter_cases h with ⟨e, h', hrecv, hfed⟩ | ⟨frame, len, h', hrecv, hwindow⟩
  · have hrun : (WireStep.enter a).run build h = (.err e, h') := bind_of_err hrecv
    have hinside := recvEnter_staysInside h hin
    rw [hrecv] at hinside
    refine ⟨by simp [hrun], by rwa [hrun], ?_⟩
    intro i hi
    rw [hrun] at hi
    exact .inl (hfed.inReceived hi)
  · have hfits : frame.cookieA1a2.toNat + len.toNat ≤ BOUNCE_POOL_SIZE := by
      obtain ⟨hdr, bounce, -, -, -, hfits, -⟩ := hwindow
      exact hfits
    obtain ⟨pool, hdone, hserve⟩ := serve_eq build h' (le_trans (Nat.le_add_right _ _) hfits) a
    let answered : VirtHal := { h' with mem := { h'.mem with pool := pool } }
    have hanswered : GateInside answered := by
      have hinside := recvEnter_staysInside h hin
      rw [hrecv] at hinside
      exact ⟨hinside.last, hinside.enter, hinside.rx⟩
    have hrun : (WireStep.enter a).run build h =
        (completeStream build a.out >>= fun _ => pure ()) answered := by
      rw [← hserve]
      exact bind_of_ok hrecv
    have hmem := ((completeStream_sameMem build a.out).bind
      fun _ => keeps_pure (F := sameMem) ()) answered
    have hstays := ((completeStream_staysInside build a.out).bind
      fun _ => keeps_pure (F := staysInside) ()) answered
    refine ⟨?_, ?_, ?_⟩
    · rw [hrun]
      apply bind_ne_panic (completeStream_ne_panic hanswered a.out)
      intro _ _ _ hpanic
      cases hpanic
    · rw [hrun]
      exact hstays hanswered
    · intro i hi
      have hpool : ((WireStep.enter a).run build h).2.mem.pool = pool := by
        rw [hrun]
        exact congrArg HalMem.pool hmem
      rw [hpool] at hi
      by_cases hwritten : pool.byte i = h'.mem.pool.byte i
      · rw [hwritten] at hi
        exact .inl (hwindow.inReceived hi)
      · obtain ⟨msg, params, hmsg, hinside, hrange⟩ := writeDone_inside hdone hwritten
        obtain ⟨hdr, bounce, hreceived, rfl, -, -, hput⟩ := hwindow
        rw [hput] at hmsg
        exact .inr ⟨hdr, frame, bounce, msg, params, hreceived, hfits, hmsg, hinside, hrange⟩

theorem reply_safe (hin : GateInside h) : StepSafe build h .reply := by
  obtain ⟨r, h', hrecv, hne, hfed⟩ := recvRpcReply_cases h
  have hinside := recvRpcReply_staysInside h hin
  rw [hrecv] at hinside
  have hload : tryLoadTa build h' = (.ok (), h') := by
    have htake : takeLoadTa build h'.mem.pool ≠ .panic := takeLoadTa_ne_panic
    rw [tryLoadTa]
    split
    · rename_i hpanic
      exact absurd hpanic htake
    · rfl
  have hrun : ∃ r', r' ≠ .panic ∧ WireStep.reply.run build h = (r', h') := by
    cases r with
    | ok => exact ⟨.ok (), by simp, (bind_of_ok hrecv).trans hload⟩
    | err e => exact ⟨.err e, by simp, bind_of_err hrecv⟩
    | panic => exact absurd rfl hne
  obtain ⟨r', hne', hrun⟩ := hrun
  refine ⟨by rwa [hrun], by rwa [hrun], ?_⟩
  intro i hi
  rw [hrun] at hi
  exact hfed.inReceived hi

theorem safe_of_sameMem {step : WireStep} {r : Fallible HalError Unit} {h' : VirtHal}
    (hrun : step.run build h = (r, h')) (hne : r ≠ .panic) (hinside : GateInside h')
    (hmem : h'.mem = h.mem) : StepSafe build h step := by
  refine ⟨by rwa [hrun], by rwa [hrun], ?_⟩
  intro i hi
  rw [hrun, hmem] at hi
  exact absurd rfl hi

theorem connect_safe (hin : GateInside h) (req : VirtioVsockHdr) :
    StepSafe build h (.connect req) := by
  by_cases haccepts : h.listener.Accepts req
  · obtain ⟨resp, haccept⟩ := acceptConnect_of_accepts haccepts
    exact safe_of_sameMem (bind_of_ok haccept) (by simp)
      ⟨hin.last, hin.enter, hin.rx⟩ rfl
  · obtain ⟨e, haccept⟩ := acceptConnect_of_not haccepts
    exact safe_of_sameMem (bind_of_err haccept) (by simp) hin rfl

theorem push_safe (hin : GateInside h) (hdr : VirtioVsockHdr) (payload : Bytes) :
    StepSafe build h (.push hdr payload) := by
  have hinside := onConn_staysInside (pushRw hdr payload) h hin
  refine safe_of_sameMem (r := (pushHostRw hdr payload h).1) rfl ?_ hinside (onConn_sameMem _ h)
  rw [pushHostRw, onConn]
  split
  · rw [pushRw]
    split <;> simp
  · simp

theorem rpc_safe (hin : GateInside h) (cookie : UInt64) (len : UInt32) (out : CallFrame)
    (inside : cookie.toNat + len.toNat ≤ BOUNCE_POOL_SIZE) :
    StepSafe build h (.rpc cookie len out inside) := by
  have hset : GateInside (setRpcWindow cookie len h) := ⟨inside, hin.last, hin.rx⟩
  have hrun : (WireStep.rpc cookie len out inside).run build h =
      (onGate (rpcYield out) >>= fun _ => pure ()) (setRpcWindow cookie len h) := rfl
  have hmem := ((onGate_sameMem (rpcYield out)).bind
    fun _ => keeps_pure (F := sameMem) ()) (setRpcWindow cookie len h)
  have hstays := ((rpcYield_staysInside out).bind
    fun _ => keeps_pure (F := staysInside) ()) (setRpcWindow cookie len h)
  refine safe_of_sameMem (hrun.trans rfl) ?_ (hstays hset) hmem
  apply bind_ne_panic
  · rw [onGate, zoom, rpcYield]
    dsimp only
    split
    · split <;> simp
    · simp
  · intro _ _ _ hpanic
    cases hpanic

theorem step_safe (hin : GateInside h) (step : WireStep) : StepSafe build h step := by
  cases step with
  | connect req => exact connect_safe hin req
  | push hdr payload => exact push_safe hin hdr payload
  | enter a => exact enter_safe hin a
  | reply => exact reply_safe hin
  | elsewhere =>
    refine ⟨?_, ⟨hin.last, hin.enter, hin.rx⟩, fun _ _ => trivial⟩
    simp [WireStep.run, Attempt.modify]
  | rpc cookie len out inside => exact rpc_safe hin cookie len out inside

end Steps

theorem wireRun_inside (build : Build) (steps : List WireStep)
    (hin : GateInside h) : GateInside (wireRun build steps h) := by
  induction steps generalizing h with
  | nil => exact hin
  | cons step steps ih => exact ih (step_safe hin step).inside

end Rustee.Guest
