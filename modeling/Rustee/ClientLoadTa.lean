import Rustee.ClientLink
import Rustee.HostSupplicant

/-!
# LOAD_TA from end to end

An open waits for a TA image. The guest's RPC goes out, the supplicant answers it in the client's
pool, the reply comes back over the stream, and the kernel hears the bytes of `ta/<uuid>.ta`, or
an error if there is no such file or it is too large.
-/

namespace Rustee.Client

open Os Virt Guest Supplicant Attempt

variable {κ : Type} {q : Pdu}

/-! ### A kernel that is listened to -/

abbrev Heard := List (KernelCmd × Exit KernelOut)

def hearing (K : GuestKernel κ) : GuestKernel (κ × Heard) where
  handle := fun cmd mem k =>
    let r := K.handle cmd mem k.1
    (r.1, r.2.1, (r.2.2, k.2 ++ [(cmd, r.1)]))

/-! ### The reply reaches the kernel -/

section Reply

variable {K : GuestKernel κ} {build : Build} {c : VsockConn} {p q : Pdu}
  {g : GuestState (κ × Heard)}

/-- What the kernel makes of the reply `q`. -/
def answered (K : GuestKernel κ) (resp : RpcResponse) (q : Pdu) (g : GuestState (κ × Heard)) :
    Exit KernelOut × HalMem × κ :=
  K.handle (.rpcComplete resp) ⟨poolWith q g, g.hal.mem.shms⟩ g.kernel.1

def heardReply (K : GuestKernel κ) (resp : RpcResponse) (q : Pdu) (g : GuestState (κ × Heard)) :
    κ × Heard :=
  ((answered K resp q g).2.2, g.kernel.2 ++ [(.rpcComplete resp, (answered K resp q g).1)])

/-- The reply is taken, and the kernel hears what is in it. If it returns, the call is
completed. -/
theorem reply_heard (hasks : AsksOnce K) (hconn : OnConn c [] g) (hparked : Parked p g)
    {pks : List Packet} (hof : OfConn c pks) (hbytes : rwPayloads pks = q.encode)
    (hkind : q.hdr.kind = KIND_RPC_REPLY) (hin : InPool q) {resp : RpcResponse}
    (hresp : loadTaResponse build (poolWith q g) = .ok resp) :
    Ends (fun k => k = heardReply K resp q g ∧ ∀ out, (answered K resp q g).1 ≠ .value out)
      (fun g' => Completed c p (emitted g) g' ∧ g'.kernel = heardReply K resp q g)
      (vsockLoop (hearing K) build pks g) := by
  have hsettled : Settled (κ := κ × Heard) c fun g' =>
      Completed c p (emitted g) g' ∧ g'.kernel = heardReply K resp q g :=
    { conn := fun h => h.1.1
      stays := fun hstays hconn h =>
        ⟨(settled_completed _).stays hstays hconn h.1, hstays.kernel.trans h.2⟩ }
  apply whole_ends hsettled hconn hof (encode_ne_nil q).symm hbytes
  intro g1 hstays hconn1
  have hparked1 := hstays.parked hparked
  obtain ⟨g2, hrecv, hserving, hmem, hkernel, hemitted⟩ :=
    recvRpcReply_whole hconn1 hparked1 hkind hin
  have hpool : poolWith q g1 = poolWith q g := by rw [poolWith, pool_of_stays hstays, poolWith]
  rw [hpool, hstays.mem] at hmem
  have hread : ({ g2 with waiting := none } : GuestState (κ × Heard)).pool = poolWith q g :=
    congrArg HalMem.pool hmem
  have hbefore : emitted { g2 with waiting := none } = emitted g := hemitted.trans hstays.emitted
  rw [receive, bind_of_ok (gets_apply GuestState.waiting g1), hparked1.waiting]
  dsimp only
  rw [bind_of_ok hrecv]
  show Ends _ _ (handleRpcReply (hearing K) build p.frame { g2 with waiting := none })
  rw [handleRpcReply, bind_of_ok (gets_apply GuestState.pool _), hread, hresp, lift_ok_bind]
  have hhandle : (hearing K).handle (.rpcComplete resp) g2.hal.mem g2.kernel =
      ((answered K resp q g).1, (answered K resp q g).2.1, heardReply K resp q g) := by
    rw [hmem, hkernel, hstays.kernel]
    rfl
  have hserving' := hserving.withMem (answered K resp q g).2.1 (heardReply K resp q g)
  rcases hexit : (answered K resp q g).1 with out | _ | _
  · have hrun : kernelHandle (hearing K) (.rpcComplete resp) { g2 with waiting := none } =
        (.ok out, { g2 with
          hal := { g2.hal with mem := (answered K resp q g).2.1 }
          kernel := heardReply K resp q g
          waiting := none }) := by
      rw [kernelHandle]
      dsimp only
      rw [hhandle, hexit]
    rw [bind_of_ok hrun]
    cases out with
    | done result session produced =>
      obtain ⟨g', -, hout, hdone, -, -, hkernel'⟩ :=
        dispatch_done build hserving' result session produced
      rw [hout, ← hbefore]
      exact .inr ⟨rfl, hdone, hkernel'⟩
    | rpc request =>
      have hrpc : K.handle (.rpcComplete resp) ⟨poolWith q g, g.hal.mem.shms⟩ g.kernel.1 =
          (.value (.rpc request), (answered K resp q g).2) := Prod.ext hexit rfl
      exact absurd rfl ((hasks hrpc).2 resp)
  · refine .inl ?_
    rw [bind_apply, kernelHandle]
    dsimp only
    rw [hhandle, hexit]
    exact ⟨rfl, rfl, by simp⟩
  · refine .inl ?_
    rw [bind_apply, kernelHandle]
    dsimp only
    rw [hhandle, hexit]
    exact ⟨rfl, rfl, by simp⟩

end Reply

/-! ### One RPC -/

/-- The RPC_REPLY with the window `bytes`. -/
def replyPdu (cookie : UInt64) (seq len : UInt32) (bytes : Bytes) (h : bytes.length = len.toNat) :
    Pdu where
  hdr := ⟨KIND_RPC_REPLY, seq, 64, len⟩
  frame := (Proto.CallFrame.returnFromRpc cookie).toGuest
  bounce := bytes
  known := .inr (.inr (.inr rfl))
  argLen := rfl
  bounceLen := h

/-- The client waits for the answer to its ENTER, and the guest has just asked for a TA. -/
def askingCall {ω : Type} (build : Build) (p : Pdu) (uuid : Os.Uuid) (g : GuestState κ)
    (seq : UInt32) (yielding : Bool) (deliveries : Nat) (bounce : Pool) (w : ω) :
    Call (Link κ) (Option ω) :=
  let g' := (dispatchOut build p.frame (.rpc (.loadTa uuid)) g).2
  ⟨⟨⟨g', [], newBytes g g', deliveries, false⟩, seq, yielding⟩, bounce, some w⟩

def responseTo : Option Bytes → RpcResponse
  | some image => .loadTa image
  | none => .error TEEC_ERROR_COMMUNICATION

section Turn

variable {ω : Type} {K : GuestKernel κ} {build : Build} {c : VsockConn} {cut : Cut} {p : Pdu}

variable {H : Type}

theorem readPdu_rpc (g : GuestState κ) (deliveries : Nat) (seq : UInt32)
    (yielding : Bool) (bounce : Pool) (h : H) :
    readPdu (linkSocket K build cut)
        ⟨⟨⟨g, [], rpcPdu p g.pool, deliveries, false⟩, seq, yielding⟩, bounce, h⟩ =
      (.ok (⟨KIND_RPC, p.hdr.seq, UInt32.ofNat CALL_FRAME_LEN, 96⟩,
          Proto.CallFrame.ofGuest (rpcFrame RPC_COOKIE)),
        ⟨⟨⟨g, [], [], deliveries, false⟩, seq, yielding⟩,
          bounce.put RPC_COOKIE.toNat (g.pool.get RPC_COOKIE.toNat 96), h⟩) := by
  have hframe : (rpcFrame RPC_COOKIE).cookieA1a2 = RPC_COOKIE := by decide
  have hfits : (rpcFrame RPC_COOKIE).cookieA1a2.toNat + (96 : UInt32).toNat ≤ BOUNCE_POOL_SIZE := by
    decide
  have hinbox : rpcPdu p g.pool =
      (⟨KIND_RPC, p.hdr.seq, UInt32.ofNat CALL_FRAME_LEN, 96⟩ : Proto.PduHeader).encode ++
        (encodeFrame (rpcFrame RPC_COOKIE) ++ g.pool.get RPC_COOKIE.toNat 96) := rfl
  have hdeliver : (⟨g, [], rpcPdu p g.pool, deliveries, false⟩ : Link κ).deliver K build cut =
      ⟨g, [], rpcPdu p g.pool, deliveries, false⟩ := deliver_of_empty rfl
  rw [readPdu_link (.inr (.inl rfl)) rfl hfits (Pool.length_get _ _ _) hdeliver rfl hinbox,
    hframe]
  rfl

theorem cookie_replyPdu (cookie : UInt64) (seq len : UInt32) {bytes : Bytes}
    (h : bytes.length = len.toNat) : (replyPdu cookie seq len bytes h).frame.cookieA1a2 = cookie :=
  (Proto.cookieA1a2_toGuest _).trans (Proto.CallFrame.cookie_returnFromRpc cookie)

theorem writeReply_link (K : GuestKernel κ) (build : Build) (cut : Cut)
    (call : Call (Link κ) H) (seq : UInt32) {cookie : UInt64} {len : UInt32} {bytes : Bytes}
    (h : bytes.length = len.toNat) (hin : cookie.toNat + len.toNat ≤ BOUNCE_POOL_SIZE)
    (hbounce : call.bounce.get cookie.toNat len.toNat = bytes) :
    InPool (replyPdu cookie seq len bytes h) ∧
    writePdu (linkSocket K build cut) KIND_RPC_REPLY seq
        (Proto.CallFrame.returnFromRpc cookie) len call =
      (.ok (), call.withSock { call.transport.sock with outbox :=
        call.transport.sock.outbox ++ (replyPdu cookie seq len bytes h).encode }) := by
  have hcookie := cookie_replyPdu cookie seq len h
  have hinPool : InPool (replyPdu cookie seq len bytes h) := by
    rw [InPool, hcookie]
    exact hin
  refine ⟨hinPool, ?_⟩
  apply writePdu_link (q := replyPdu cookie seq len bytes h) rfl hinPool
  rw [hcookie]
  exact hbounce

theorem reply_inside (O : HostOs ω) (uuid : Os.Uuid) (w : ω) :
    RPC_COOKIE.toNat + (replyBytes uuid (servable O uuid w)).length ≤ BOUNCE_POOL_SIZE := by
  have hroom : RPC_COOKIE.toNat + (askHdr.byteSize + LOAD_TA_CAP.toNat) ≤ BOUNCE_POOL_SIZE := by
    decide
  rw [length_replyBytes]
  have hsmall : ((servable O uuid w).getD []).length ≤ LOAD_TA_CAP.toNat := by
    rcases hserve : servable O uuid w with _ | image
    · exact Nat.zero_le _
    · exact (servable_eq_some hserve).2
  omega

/-- The first half of the turn: the RPC is read, the supplicant answers, and the reply is on
its way. -/
theorem rpc_answered (K : GuestKernel κ) (O : HostOs ω) (build : Build) (cut : Cut)
    {g : GuestState κ} (hserving : Serving c p g) (uuid : Os.Uuid) (seq : UInt32)
    (yielding : Bool) (deliveries : Nat) (bounce : Pool) (w : ω) (fuel : Nat) :
    ∃ g' q call, Asking c p (emitted g) g' ∧ g'.kernel = g.kernel ∧
      q.hdr.kind = KIND_RPC_REPLY ∧ q.frame.cookieA1a2 = RPC_COOKIE ∧
      q.bounce = replyBytes uuid (servable O uuid w) ∧ InPool q ∧
      call.transport.sock = ⟨g', q.encode, [], deliveries, false⟩ ∧
      enterLoop (linkSocket K build cut) build (some (rpcHook O build)) (fuel + 1)
          (askingCall build p uuid g seq yielding deliveries bounce w) =
        enterLoop (linkSocket K build cut) build (some (rpcHook O build)) fuel call := by
  obtain ⟨g', hout, hasking, hpack, hkernel⟩ := dispatch_rpc build hserving uuid
  have hg' : (dispatchOut build p.frame (.rpc (.loadTa uuid)) g).2 = g' := by rw [hout]
  have hpool : g'.pool = g.pool.put RPC_COOKIE.toNat (msgBytes askHdr (askParams uuid)) := by
    exact (Prod.mk.inj (Prod.mk.inj (Except.ok.inj hpack)).2).2.symm
  have hwindow : g'.pool.get RPC_COOKIE.toNat 96 = msgBytes askHdr (askParams uuid) := by
    rw [hpool]
    exact Pool.get_put g.pool RPC_COOKIE.toNat (msgBytes askHdr (askParams uuid))
  have hcall : askingCall build p uuid g seq yielding deliveries bounce w =
      ⟨⟨⟨g', [], rpcPdu p g'.pool, deliveries, false⟩, seq, yielding⟩, bounce, some w⟩ := by
    rw [askingCall, hg', newBytes_of_append hasking.2.2]
  -- the request is in the client's pool now, whatever was there before
  let received : Call (Link κ) (Option ω) := ⟨⟨⟨g', [], [], deliveries, false⟩, seq, yielding⟩,
    bounce.put RPC_COOKIE.toNat (msgBytes askHdr (askParams uuid)), some w⟩
  have hask : Asks uuid received.bounce :=
    Pool.get_put bounce RPC_COOKIE.toNat (msgBytes askHdr (askParams uuid))
  let hdr : Proto.PduHeader := ⟨KIND_RPC, p.hdr.seq, UInt32.ofNat CALL_FRAME_LEN, 96⟩
  obtain ⟨n, pool, hhook, hn, hreply⟩ : ∃ n pool,
      runHook build (some (rpcHook O build)) hdr RPC_COOKIE received =
        (.ok n, received.withBounce pool) ∧
      n.toNat = (replyBytes uuid (servable O uuid w)).length ∧
      pool.get RPC_COOKIE.toNat n.toNat = replyBytes uuid (servable O uuid w) :=
    runHook_ask rfl hask rfl
  have hin : RPC_COOKIE.toNat + n.toNat ≤ BOUNCE_POOL_SIZE := by
    rw [hn]
    exact reply_inside O uuid w
  have hcookie : (Proto.CallFrame.ofGuest (rpcFrame RPC_COOKIE)).cookie = RPC_COOKIE := by
    rw [Proto.CallFrame.cookie_ofGuest]
    decide
  obtain ⟨hinPool, hwrite⟩ := writeReply_link K build cut (received.withBounce pool) p.hdr.seq
    hn.symm hin hreply
  have hread : readPdu (linkSocket K build cut)
      ⟨⟨⟨g', [], rpcPdu p g'.pool, deliveries, false⟩, seq, yielding⟩, bounce, some w⟩ =
        (.ok (hdr, Proto.CallFrame.ofGuest (rpcFrame RPC_COOKIE)), received) := by
    rw [readPdu_rpc g' deliveries seq yielding bounce (some w), hwindow]
  refine ⟨g', replyPdu RPC_COOKIE p.hdr.seq n _ hn.symm, _, hasking, hkernel, rfl,
    cookie_replyPdu RPC_COOKIE p.hdr.seq n hn.symm, rfl, hinPool, ?_,
    (congrArg _ hcall).trans (enterLoop_of_rpc hread rfl hcookie hhook hwrite)⟩
  exact congrArg (fun bytes => (⟨g', bytes, [], deliveries, false⟩ : Link κ)) (List.nil_append _)

/-- The second half: the reply is delivered, and the kernel has heard it. If the kernel
returns, the client gets the COMPLETE of its ENTER. -/
theorem reply_taken {K : GuestKernel κ} (hasks : AsksOnce K) (hcut : Faithful c cut)
    {g : GuestState (κ × Heard)} {before : List Bytes} (hasking : Asking c p before g)
    (hkind : q.hdr.kind = KIND_RPC_REPLY) (hin : InPool q) {resp : RpcResponse}
    (hresp : loadTaResponse build (poolWith q g) = .ok resp) {call : Call (Link (κ × Heard)) H}
    {deliveries : Nat} (hsock : call.transport.sock = ⟨g, q.encode, [], deliveries, false⟩)
    (hook : Option (RpcHook H)) (fuel : Nat) :
    (enterLoop (linkSocket (hearing K) build cut) build hook (fuel + 1)
        call).2.transport.sock.guest.kernel = heardReply K resp q g ∧
      ∀ out, (answered K resp q g).1 = .value out →
        (enterLoop (linkSocket (hearing K) build cut) build hook (fuel + 1) call).1 =
          .ok (Proto.CallFrame.ofGuest p.frame) := by
  obtain ⟨hof, hbytes⟩ := hcut deliveries q.encode
  have hends := reply_heard hasks hasking.1 hasking.2.1 hof hbytes hkind hin hresp
  have hdeliver : call.transport.sock.deliver (hearing K) build cut =
      ⟨(vsockLoop (hearing K) build (cut deliveries q.encode) g).2, [],
        newBytes g (vsockLoop (hearing K) build (cut deliveries q.encode) g).2, deliveries + 1,
        (vsockLoop (hearing K) build (cut deliveries q.encode) g).1 ≠ .ok ()⟩ := by
    rw [hsock, Link.deliver, if_neg]
    · rfl
    · rintro (hnil | hhalted)
      · exact encode_ne_nil q hnil
      · cases hhalted
  generalize vsockLoop (hearing K) build (cut deliveries q.encode) g = r at hends hdeliver
  rw [enterLoop_flushed]
  rcases hends with ⟨hpanic, hkernel, hstuck⟩ | ⟨hok, hdone, hkernel⟩
  · have hhalted : (flushed (hearing K) build cut call).transport.sock.halted = true := by
      show (call.transport.sock.deliver (hearing K) build cut).halted = true
      rw [hdeliver, hpanic]
      rfl
    refine ⟨?_, fun out hout => absurd hout (hstuck out)⟩
    rw [(enterLoop_halted hook (fuel + 1) _ hhalted).2]
    show (call.transport.sock.deliver (hearing K) build cut).guest.kernel = _
    rw [hdeliver]
    exact hkernel
  · have hinbox : (flushed (hearing K) build cut call).transport.sock.inbox =
        completePdu p r.2.pool := by
      show (call.transport.sock.deliver (hearing K) build cut).inbox = _
      rw [hdeliver]
      exact newBytes_of_append hdone.2.2
    have hout : (flushed (hearing K) build cut call).transport.sock.outbox = [] := by
      show (call.transport.sock.deliver (hearing K) build cut).outbox = _
      rw [hdeliver]
    obtain ⟨call', hrun, hsock', -⟩ := enterLoop_complete hook fuel hout hinbox hasking.2.1.inPool
    rw [hrun]
    refine ⟨?_, fun _ _ => rfl⟩
    rw [hsock']
    show (call.transport.sock.deliver (hearing K) build cut).guest.kernel = _
    rw [hdeliver]
    exact hkernel

end Turn

/-! ### LOAD_TA from end to end -/

section LoadTa

variable {τ A S ω : Type}

def heard {H : Type} (call : Call (Link (κ × Heard)) H) : Heard :=
  call.transport.sock.guest.kernel.2

theorem answered_error (env : Env (HalMem × τ) A S)
    {g : GuestState (Machine (HalMem × τ) A × Heard)} {y : Yielding}
    (hgate : g.kernel.1.noticesOk = true) (hy : g.kernel.1.yielding = some y) (code : UInt32) :
    (answered (osKernel env) (.error code) q g).1 = .value (.doneErr code) ∧
      (answered (osKernel env) (.error code) q g).2.2.yielding = none := by
  let m : Machine (HalMem × τ) A :=
    { g.kernel.1 with world := (⟨poolWith q g, g.hal.mem.shms⟩, g.kernel.1.world.2) }
  have hrun : Os.handle env (.rpcComplete (.error code)) m =
      (.value (.doneErr code), { m with yielding := none }) := handle_error (m := m) hgate hy code
  exact ⟨congrArg Prod.fst hrun, congrArg (·.2.yielding) hrun⟩

/-- A guest asks for the TA `uuid` while an open waits for it. If the supplicant has the
file and it fits, the kernel hears its bytes and nothing else; if not, it hears an error,
and the open is over with that error. -/
theorem load_ta_end_to_end (env : Env (HalMem × τ) A S) (O : HostOs ω) (build : Build) {cut : Cut}
    {c : VsockConn} (hcut : Faithful c cut) {p : Pdu}
    {g : GuestState (Machine (HalMem × τ) A × Heard)} (hserving : Serving c p g) {y : Yielding}
    (hgate : g.kernel.1.noticesOk = true) (hy : g.kernel.1.yielding = some y) (uuid : Os.Uuid)
    (w : ω) (seq : UInt32) (yielding : Bool) (deliveries : Nat) (bounce : Pool) (fuel : Nat) :
    let r := enterLoop (linkSocket (hearing (osKernel env)) build cut) build
      (some (rpcHook O build)) (fuel + 2)
      (askingCall build p uuid g seq yielding deliveries bounce w)
    (∀ image, taFile O uuid w = some image → image.length ≤ LOAD_TA_CAP.toNat →
      ∃ exit, heard r.2 = g.kernel.2 ++ [(.rpcComplete (.loadTa image), exit)]) ∧
    ((∀ image, taFile O uuid w = some image → LOAD_TA_CAP.toNat < image.length) →
      r.1 = .ok (Proto.CallFrame.ofGuest p.frame) ∧
      r.2.transport.sock.guest.kernel.1.yielding = none ∧
      ∃ code, code ≠ 0 ∧ heard r.2 =
        g.kernel.2 ++ [(.rpcComplete (.error code), .value (.doneErr code))]) := by
  intro r
  obtain ⟨g', q, call, hasking, hkernel, hkind, hcookie, hbounce, hin, hsock, hfirst⟩ :=
    rpc_answered (hearing (osKernel env)) O build cut hserving uuid seq yielding deliveries
      bounce w (fuel + 1)
  have hsmall : ∀ image, servable O uuid w = some image → image.length ≤ LOAD_TA_CAP.toNat :=
    fun image h => (servable_eq_some h).2
  have hresp : loadTaResponse build (poolWith q g') = .ok (responseTo (servable O uuid w)) := by
    rw [loadTaResponse, poolWith, hcookie, hbounce, takeLoadTa_reply build g'.pool uuid hsmall]
    cases servable O uuid w with
    | none | some => rfl
  obtain ⟨hheard, hreturn⟩ := reply_taken (osKernel_asksOnce env) hcut hasking hkind hin hresp
    hsock (some (rpcHook O build)) fuel
  rw [← hfirst] at hheard hreturn
  constructor
  · intro image hfile hlen
    have hserve : servable O uuid w = some image := by
      rw [servable, hfile, Option.filter_some, if_pos (decide_eq_true hlen)]
    refine ⟨(answered (osKernel env) (.loadTa image) q g').1, (congrArg Prod.snd hheard).trans ?_⟩
    rw [heardReply, hserve, hkernel]
    rfl
  · intro hlarge
    have hserve : servable O uuid w = none := by
      rcases h : servable O uuid w with _ | image
      · rfl
      · obtain ⟨hfile, hlen⟩ := servable_eq_some h
        exact absurd hlen (Nat.not_le.mpr (hlarge image hfile))
    rw [hserve] at hheard hreturn
    rw [← hkernel] at hgate hy
    obtain ⟨hanswer, hover⟩ := answered_error env (q := q) hgate hy TEEC_ERROR_COMMUNICATION
    refine ⟨hreturn _ hanswer, (congrArg (·.1.yielding) hheard).trans hover,
      TEEC_ERROR_COMMUNICATION, by decide, (congrArg Prod.snd hheard).trans ?_⟩
    rw [heardReply, responseTo, hanswer, hkernel]

def oneTaHost : HostOs Unit where
  getTime := fun _ => (0, 0)
  readFile := fun path _ =>
    if path = "ta/00000000000000000000000000000000.ta".toList then some [0x7f, 0x45] else none
  fs := fun _ _ _ _ w => (.ok 0, w)

def waitingGuest (uuid : Os.Uuid) : GuestState (Machine (HalMem × Unit) Nat × Heard) where
  hal := { VirtHal.init with conn := some sampleConn, gate := ⟨false, none, none, 7, 0, 32⟩ }
  kernel := ({ Machine.new guestEnv (VirtHal.init.mem, ()) with
    yielding := some ⟨uuid, .public, noParams, 0, 0⟩ }, [])
  waiting := none
  sent := []

def waitingRun (uuid : Os.Uuid) :=
  enterLoop (linkSocket (hearing (osKernel guestEnv)) .debug bytewise) .debug
    (some (rpcHook oneTaHost .debug)) 2
    (askingCall .debug openEnter uuid (waitingGuest uuid) 8 true 1 ⟨fun _ => 0xAB⟩ ())

theorem load_ta_end_to_end_sample :
    (∃ exit, heard (waitingRun ⟨Vector.replicate 16 0⟩).2 =
      [(.rpcComplete (.loadTa [0x7f, 0x45]), exit)]) ∧
    ∃ code, code ≠ 0 ∧ heard (waitingRun ⟨Vector.replicate 16 1⟩).2 =
      [(.rpcComplete (.error code), .value (.doneErr code))] := by
  have hcookie : (0 : UInt64) = openEnter.frame.cookieA1a2 := by decide
  have hserving : ∀ uuid, Serving sampleConn openEnter (waitingGuest uuid) := fun uuid =>
    ⟨⟨sampleConn, rfl, ⟨rfl, rfl, rfl, rfl⟩, rfl⟩, rfl, hcookie, rfl, rfl, rfl, rfl, by decide⟩
  constructor
  · have hfound := (load_ta_end_to_end guestEnv oneTaHost .debug faithful_bytewise
      (hserving ⟨Vector.replicate 16 0⟩) rfl rfl ⟨Vector.replicate 16 0⟩ () 8 true 1
      ⟨fun _ => 0xAB⟩ 0).1
    exact hfound [0x7f, 0x45] (by decide +kernel) (by decide)
  · have hmissing : taFile oneTaHost ⟨Vector.replicate 16 1⟩ () = none := by decide +kernel
    have hrefused := (load_ta_end_to_end guestEnv oneTaHost .debug faithful_bytewise
      (hserving ⟨Vector.replicate 16 1⟩) rfl rfl ⟨Vector.replicate 16 1⟩ () 8 true 1
      ⟨fun _ => 0xAB⟩ 0).2
    refine (hrefused fun image hfile => ?_).2.2
    rw [hmissing] at hfile
    cases hfile

end LoadTa

end Rustee.Client
