import Rustee.ClientLink
import Rustee.GuestInvoke

/-!
# `invoke_shm` from end to end

The client puts the source and the message into its pool and sends the window from the message to
the end of the output. The guest calls the TA on the same bytes, and what it leaves in the output
buffer comes back in the window of the COMPLETE.
-/

namespace Rustee.Client

open Os Virt Guest ContextOp Pool List

variable {κ τ H : Type}

/-! ### One call over the link -/

/-- The ENTER with the window `bytes` at `cookie`. -/
def enterPdu (cookie : UInt64) (seq len : UInt32) (bytes : Bytes) (h : bytes.length = len.toNat) :
    Pdu where
  hdr := ⟨KIND_ENTER, seq, 64, len⟩
  frame := (Proto.CallFrame.yieldingEnter cookie).toGuest
  bounce := bytes
  known := .inl rfl
  argLen := rfl
  bounceLen := h

/-! ### The messages -/

def doneHdr (sid cmd code origin : UInt32) : MsgArgHdr :=
  { shmHdr sid cmd with ret := code, retOrigin := origin, session := sid }

/-- The parameters that come back: the size of the output is what the TA reports. -/
def doneParams (v : Windows) (size : UInt64) : List MsgParam :=
  [⟨ATTR_TYPE_TMEM_INPUT, v.inOff, v.inLen, v.inOff⟩,
    ⟨ATTR_TYPE_TMEM_OUTPUT, v.outOff, size, v.outOff⟩]

section Messages

variable {cookie : UInt64} {v : Windows} {sid cmd : UInt32} {pool : Pool} (build : Build)

theorem decodeCmd_of_msg (hfits : MsgFits cookie (shmHdr sid cmd) v.msgParams)
    (hbytes : pool.get cookie.toNat (shmHdr sid cmd).byteSize =
      msgBytes (shmHdr sid cmd) v.msgParams) :
    decodeCmd build pool cookie = .ok (.invoke sid cmd v.params 0 TEE_TIMEOUT_INFINITE) := by
  have hcmd : (shmHdr sid cmd).cmd = MSG_CMD_INVOKE_COMMAND := rfl
  have hopen : MSG_CMD_INVOKE_COMMAND ≠ MSG_CMD_OPEN_SESSION := by decide
  rw [decodeCmd, decodeMsg_of_bytes build hfits hbytes]
  dsimp only
  rw [hcmd, if_neg hopen, if_pos rfl, v.userParams_msgParams]
  rfl

theorem producedSizes_msg (v : Windows) (raw : RawParams) :
    producedSizes (paramsFromRaw v.params raw) v.msgParams 0 =
      doneParams v (raw.get 1).memrefSize := by
  have hzero : 0 < PARAM_COUNT := by decide
  have hone : 0 + 1 < PARAM_COUNT := by decide
  have hin : (paramsFromRaw v.params raw).get ⟨0, hzero⟩ =
      .memref (.ree v.inOff 0) v.inLen .input := get_paramsFromRaw v.params raw 0
  have hout : (paramsFromRaw v.params raw).get ⟨0 + 1, hone⟩ =
      .memref (.ree v.outOff 0) (raw.get 1).memrefSize .output := get_paramsFromRaw v.params raw 1
  have hinPlain : (ATTR_TYPE_TMEM_INPUT &&& ATTR_META != 0) = false := by decide
  have houtPlain : (ATTR_TYPE_TMEM_OUTPUT &&& ATTR_META != 0) = false := by decide
  simp only [Windows.msgParams, producedSizes, MsgParam.isMeta, hinPlain, houtPlain,
    Bool.false_eq_true, if_false, dif_pos hzero, dif_pos hone, hin, hout]
  rfl

theorem writeDone_of_msg (hfits : MsgFits cookie (shmHdr sid cmd) v.msgParams)
    (hbytes : pool.get cookie.toNat (shmHdr sid cmd).byteSize =
      msgBytes (shmHdr sid cmd) v.msgParams) (code origin : UInt32) (raw : RawParams) :
    writeDone build pool cookie code origin sid (paramsFromRaw v.params raw) =
      .ok (pool.put cookie.toNat
        (msgBytes (doneHdr sid cmd code origin) (doneParams v (raw.get 1).memrefSize))) := by
  have hdone : MsgFits cookie (doneHdr sid cmd code origin) (doneParams v (raw.get 1).memrefSize) :=
    ⟨hfits.align, rfl, hfits.few, hfits.inside⟩
  rw [writeDone, decodeMsg_of_bytes build hfits hbytes]
  dsimp only
  rw [producedSizes_msg]
  erw [writeMsg_of_fits hdone]

theorem takeShm_of_msg {T : Type} (build : Build) {ctx : Context T} {code origin : UInt32}
    {size outOff : UInt64}
    (hfits : MsgFits cookie (doneHdr sid cmd code origin) (doneParams v size))
    (hbytes : ctx.bounce.get cookie.toNat (doneHdr sid cmd code origin).byteSize =
      msgBytes (doneHdr sid cmd code origin) (doneParams v size)) (dst : Bytes) :
    takeShm build cookie outOff dst ctx =
      (if code ≠ TEEC_SUCCESS then .err code
        else .ok (min size.toNat dst.length,
          ctx.bounce.get outOff.toNat (min size.toNat dst.length) ++
            dst.drop (min size.toNat dst.length)), ctx) := by
  have hget : getMsg build cookie ctx =
      (.ok (doneHdr sid cmd code origin, doneParams v size), ctx) := by
    rw [getMsg, decodeMsg_of_bytes build hfits hbytes]
  rw [takeShm, Attempt.bind_of_ok hget]
  by_cases hcode : code ≠ TEEC_SUCCESS
  · rw [if_pos hcode]
    exact congrFun (if_pos hcode) ctx
  · rw [if_neg hcode]
    exact congrFun (if_neg hcode) ctx

end Messages

/-! ### The windows -/

section Layout

variable {cookie : Nat} {src dst : Bytes}

/-- The three pieces of a call in the pool: the message, the input and the output. -/
structure Layout (cookie : Nat) (src dst : Bytes) : Prop where
  aligned : cookie % MSG_ARG_ALIGN = 0
  inside : shmOut cookie src.length + max dst.length 1 ≤ BOUNCE_POOL_SIZE

namespace Layout

variable (h : Layout cookie src dst)

include h

theorem toNat_cookie : (UInt64.ofNat cookie).toNat = cookie := by
  have hbounds := shm_bounds cookie src.length
  have hinside := h.inside
  exact toNat_ofNat_of_pool (by omega)

theorem toNat_inOff : (UInt64.ofNat (shmIn cookie)).toNat = shmIn cookie := by
  have hbounds := shm_bounds cookie src.length
  have hinside := h.inside
  exact toNat_ofNat_of_pool (by omega)

theorem toNat_outOff : (UInt64.ofNat (shmOut cookie src.length)).toNat =
    shmOut cookie src.length := by
  have hinside := h.inside
  exact toNat_ofNat_of_pool (by omega)

theorem toNat_inLen : (UInt64.ofNat src.length).toNat = src.length := by
  have hbounds := shm_bounds cookie src.length
  have hinside := h.inside
  exact toNat_ofNat_of_pool (by omega)

theorem toNat_outLen : (UInt64.ofNat dst.length).toNat = dst.length := by
  have hinside := h.inside
  exact toNat_ofNat_of_pool (by omega)

theorem toNat_len : (UInt32.ofNat (shmLen cookie src.length dst.length)).toNat =
    shmLen cookie src.length dst.length := by
  have hpool : BOUNCE_POOL_SIZE < UInt32.size := by decide
  have hlen := shmLen_eq cookie src.length dst.length
  have hinside := h.inside
  exact UInt32.toNat_ofNat_of_lt' (by omega)

theorem inAligned : (UInt64.ofNat (shmIn cookie)).toNat % MSG_ARG_ALIGN = 0 := by
  rw [h.toNat_inOff]
  exact roundUp_mod _ _

theorem outAligned : (UInt64.ofNat (shmOut cookie src.length)).toNat % MSG_ARG_ALIGN = 0 := by
  rw [h.toNat_outOff]
  exact roundUp_mod _ _

theorem apart : (UInt64.ofNat (shmIn cookie)).toNat +
    max (UInt64.ofNat src.length).toNat 1 ≤ (UInt64.ofNat (shmOut cookie src.length)).toNat := by
  rw [h.toNat_inOff, h.toNat_inLen, h.toNat_outOff]
  exact (shm_bounds cookie src.length).2.1

omit h in
def windows (h : Layout cookie src dst) : Windows where
  inOff := UInt64.ofNat (shmIn cookie)
  inLen := UInt64.ofNat src.length
  outOff := UInt64.ofNat (shmOut cookie src.length)
  outLen := UInt64.ofNat dst.length
  inAligned := h.inAligned
  outAligned := h.outAligned
  apart := h.apart
  inside := by
    rw [h.toNat_outOff, h.toNat_outLen]
    exact h.inside

theorem msgFits (hdr : MsgArgHdr) (hcount : hdr.numParams = 2) {params : List MsgParam}
    (hparams : params.length = 2) : MsgFits (UInt64.ofNat cookie) hdr params where
  align := by
    rw [h.toNat_cookie]
    exact h.aligned
  count := by
    rw [hparams, hcount]
    rfl
  few := by
    rw [hparams]
    decide
  inside := by
    have hbounds := shm_bounds cookie src.length
    have hinside := h.inside
    have hsize : hdr.byteSize = MSG_ARG_HDR_SIZE + MSG_PARAM_SIZE * 2 := by
      rw [MsgArgHdr.byteSize, hcount]
      rfl
    rw [h.toNat_cookie, hsize]
    omega

end Layout

end Layout

/-! ### The pools -/

section Pools

variable {cookie : Nat} {src dst : Bytes}

def sentPool (sid cmd : UInt32) (h : Layout cookie src dst) (bounce : Pool) : Pool :=
  (bounce.put (shmIn cookie) src).put cookie (msgBytes (shmHdr sid cmd) h.windows.msgParams)

/-- The guest's pool `pool` with the window the client sends. -/
def seenPool (sid cmd : UInt32) (h : Layout cookie src dst) (bounce pool : Pool) : Pool :=
  pool.put cookie ((sentPool sid cmd h bounce).get cookie (shmLen cookie src.length dst.length))

variable (sid cmd : UInt32) (h : Layout cookie src dst) (bounce pool : Pool)

theorem bounce_shmFilled {T : Type} (c : Context T) :
    (c.shmFilled sid cmd src dst cookie).bounce = sentPool sid cmd h c.bounce := by
  show (c.bounce.put (UInt64.ofNat (shmIn cookie)).toNat src).put (UInt64.ofNat cookie).toNat _ = _
  rw [h.toNat_inOff, h.toNat_cookie]
  rfl

theorem length_shmMsg :
    (msgBytes (shmHdr sid cmd) h.windows.msgParams).length = (shmHdr sid cmd).byteSize :=
  length_msgBytes rfl

theorem seenPool_msg : (seenPool sid cmd h bounce pool).get cookie (shmHdr sid cmd).byteSize =
    msgBytes (shmHdr sid cmd) h.windows.msgParams := by
  have hlen := shmLen_eq cookie src.length dst.length
  have hbounds := shm_bounds cookie src.length
  have hsize : (shmHdr sid cmd).byteSize = MSG_ARG_HDR_SIZE + MSG_PARAM_SIZE * 2 := rfl
  rw [seenPool, get_put_get (le_refl _) (by omega), sentPool, ← length_shmMsg sid cmd h,
    get_put]

theorem seenPool_input : (seenPool sid cmd h bounce pool).get (shmIn cookie) src.length = src := by
  have hlen := shmLen_eq cookie src.length dst.length
  have hbounds := shm_bounds cookie src.length
  have hsize : (shmHdr sid cmd).byteSize = MSG_ARG_HDR_SIZE + MSG_PARAM_SIZE * 2 := rfl
  have hmsg := length_shmMsg sid cmd h
  rw [seenPool, get_put_get (by omega) (by omega), sentPool,
    get_put_beside (.inr (by omega)), get_put]

/-- What comes back to the client from a guest whose pool is `after` with the answer. -/
def backPool (sid cmd : UInt32) (h : Layout cookie src dst) (bounce after : Pool)
    (answer : Bytes) : Pool :=
  (sentPool sid cmd h bounce).put cookie
    ((after.put cookie answer).get cookie (shmLen cookie src.length dst.length))

variable {answer : Bytes} (hanswer : answer.length = MSG_ARG_HDR_SIZE + MSG_PARAM_SIZE * 2)

include hanswer

theorem backPool_msg (after : Pool) :
    (backPool sid cmd h bounce after answer).get cookie answer.length = answer := by
  have hlen := shmLen_eq cookie src.length dst.length
  have hbounds := shm_bounds cookie src.length
  rw [backPool, get_put_get (le_refl _) (by omega), get_put]

theorem backPool_output (after : Pool) {n : Nat} (hn : n ≤ dst.length) :
    (backPool sid cmd h bounce after answer).get (shmOut cookie src.length) n =
      after.get (shmOut cookie src.length) n := by
  have hlen := shmLen_eq cookie src.length dst.length
  have hbounds := shm_bounds cookie src.length
  rw [backPool, get_put_get (by omega) (by omega), get_put_beside (.inr (by omega))]

end Pools

/-! ### The call -/

section Call

variable {p : Platform τ} {build : Build} {cut : Cut} {c : VsockConn}
  {g : GuestState (Machine (HalMem × τ) (VirtAs p.base))} {sid : SessionId} {sess : Session}
  {iid : InstanceId} {ep : TaEntryPoints} {cmd : UInt32} {src dst : Bytes} {r : TaReturn τ}

/-- The guest is joined to the client: nothing is on its way, and no call is going on. -/
structure Joined (c : VsockConn) (g : GuestState κ) (t : StreamTransport (Link κ)) : Prop where
  sock : ∃ deliveries, t.sock = ⟨g, [], [], deliveries, false⟩
  free : t.yielding = false
  conn : OnConn c [] g
  idle : Idle g

def shmPdu {cookie : Nat} (seq : UInt32) (sid cmd : UInt32) (h : Layout cookie src dst)
    (bounce : Pool) : Pdu :=
  enterPdu (UInt64.ofNat cookie) seq (UInt32.ofNat (shmLen cookie src.length dst.length))
    ((sentPool sid cmd h bounce).get cookie
      (UInt32.ofNat (shmLen cookie src.length dst.length)).toNat) (length_get _ _ _)

variable {cookie : Nat}

theorem msg_kept {before after : Pool} (hkeeps : ∀ i, i < shmOut cookie src.length ∨
      shmOut cookie src.length + dst.length ≤ i → after.byte i = before.byte i) :
    after.get cookie (shmHdr sid cmd).byteSize = before.get cookie (shmHdr sid cmd).byteSize := by
  have hbounds := shm_bounds cookie src.length
  have hsize : (shmHdr sid cmd).byteSize = MSG_ARG_HDR_SIZE + MSG_PARAM_SIZE * 2 := rfl
  rw [get_eq_iff]
  intro i hi
  exact hkeeps _ (.inl (by omega))

/-- What `invoke_shm` returns when the TA has left `r`. -/
def shmResult (r : TaReturn τ) (outOff : Nat) (dst : Bytes) : Fallible UInt32 (Nat × Bytes) :=
  if r.code ≠ TEEC_SUCCESS then .err r.code
  else .ok (min (r.raw.get 1).memrefSize.toNat dst.length,
    r.pool.get outOff (min (r.raw.get 1).memrefSize.toNat dst.length) ++
      dst.drop (min (r.raw.get 1).memrefSize.toNat dst.length))

/-- The end of `invoke_shm`, on the pool that came back. -/
theorem takeShm_back {T : Type} (h : Layout cookie src dst) {ctx : Context T}
    (bounce : Pool) (origin : UInt32) (hback : ctx.bounce = backPool sid cmd h bounce r.pool
      (msgBytes (doneHdr sid cmd r.code origin) (doneParams h.windows (r.raw.get 1).memrefSize))) :
    takeShm build (UInt64.ofNat cookie) (UInt64.ofNat (shmOut cookie src.length)) dst
      ctx = (shmResult r (shmOut cookie src.length) dst, ctx) := by
  have hfits : MsgFits (UInt64.ofNat cookie) (doneHdr sid cmd r.code origin)
      (doneParams h.windows (r.raw.get 1).memrefSize) := h.msgFits _ rfl rfl
  have hlength := length_msgBytes hfits.count
  have hmsg : ctx.bounce.get (UInt64.ofNat cookie).toNat
      (doneHdr sid cmd r.code origin).byteSize = msgBytes (doneHdr sid cmd r.code origin)
        (doneParams h.windows (r.raw.get 1).memrefSize) := by
    rw [hback, h.toNat_cookie, ← hlength]
    exact backPool_msg sid cmd h bounce hlength r.pool
  rw [takeShm_of_msg build hfits hmsg dst, h.toNat_outOff, hback,
    backPool_output sid cmd h bounce hlength r.pool (min_le_right _ _)]
  rfl

theorem enter_of_stream {S : Type} {X : Socket S} {hook : Option (RpcHook H)} {fuel : Nat}
    {cookie : UInt64} {len : UInt32} {ctx : Context (StreamTransport S × H)}
    {frame : Proto.CallFrame} {call' : Call S H}
    (hrun : enterStream X build hook fuel (Proto.CallFrame.yieldingEnter cookie) len
      ⟨ctx.transport.1, ctx.bounce, ctx.transport.2⟩ = (.ok frame, call')) :
    enter (streamTransport X build hook fuel) cookie len ctx =
      (.ok (), { ctx.sending cookie.toNat (cookie.toNat + len.toNat) with
        bounce := call'.bounce, transport := (call'.transport, call'.process) }) := by
  let sent := ctx.sending cookie.toNat (cookie.toNat + len.toNat)
  have hsent : enterStream X build hook fuel (Proto.CallFrame.yieldingEnter cookie) len
      ⟨sent.transport.1, sent.bounce, sent.transport.2⟩ = (.ok frame, call') := hrun
  have hcall : (streamTransport X build hook fuel).enter (Proto.CallFrame.yieldingEnter cookie)
      sent.bounce len sent.transport =
        (.ok frame, call'.bounce, (call'.transport, call'.process)) := by
    rw [streamTransport]
    dsimp only
    rw [hsent]
  rw [enter]
  dsimp only
  rw [hcall]

section Pdu

variable (sid cmd) (seq : UInt32) (h : Layout cookie src dst) (bounce : Pool)

theorem cookie_shmPdu : (shmPdu seq sid cmd h bounce).frame.cookieA1a2 = UInt64.ofNat cookie :=
  (Proto.cookieA1a2_toGuest _).trans (Proto.CallFrame.cookie_yieldingEnter _)

theorem toNat_cookie_shmPdu : (shmPdu seq sid cmd h bounce).frame.cookieA1a2.toNat = cookie := by
  rw [cookie_shmPdu, h.toNat_cookie]

theorem inPool_shmPdu : InPool (shmPdu seq sid cmd h bounce) := by
  have hend := shmLen_eq cookie src.length dst.length
  have hinside := h.inside
  show (shmPdu seq sid cmd h bounce).frame.cookieA1a2.toNat +
    (UInt32.ofNat (shmLen cookie src.length dst.length)).toNat ≤ BOUNCE_POOL_SIZE
  rw [toNat_cookie_shmPdu, h.toNat_len]
  omega

theorem poolWith_shmPdu (g : GuestState κ) :
    poolWith (shmPdu seq sid cmd h bounce) g = seenPool sid cmd h bounce g.pool := by
  rw [poolWith, toNat_cookie_shmPdu, seenPool, ← h.toNat_len]
  rfl

end Pdu

/-- The message the guest leaves behind. -/
def shmAnswer (sid cmd : UInt32) (h : Layout cookie src dst) (r : TaReturn τ) : Bytes :=
  msgBytes (doneHdr sid cmd r.code (asGp (if r.code = TEE_SUCCESS then TeeResult.ok
    else TeeResult.ta r.code).origin)) (doneParams h.windows (r.raw.get 1).memrefSize)

/-- The guest gets the ENTER of an `invoke_shm`, in whatever packets, and does the call. -/
theorem vsockLoop_shm (build : Build) (hconn : OnConn c [] g) (hidle : Idle g)
    (hopen : OpenTo g.kernel sid sess iid ep) (hnodup : (shmCookies g.hal.mem.shms).Nodup)
    (h : Layout cookie src dst)
    (hroom : RoomFor g.hal.mem.shms [h.windows.inOff, h.windows.outOff]) {bounce : Pool}
    (hcall : p.ta.invoke ep.invoke sess.taSessCtx cmd (paramTypesOf h.windows.params)
      (h.windows.raw p.base) (seenPool sid cmd h bounce g.pool, g.kernel.world.2) =
        (.returns (r.code, r.raw), (r.pool, r.rest)))
    (hkeeps : ∀ i, i < shmOut cookie src.length ∨ shmOut cookie src.length + dst.length ≤ i →
      r.pool.byte i = (seenPool sid cmd h bounce g.pool).byte i) (seq : UInt32)
    {pks : List Packet} (hof : OfConn c pks)
    (hbytes : rwPayloads pks = (shmPdu seq sid cmd h bounce).encode) :
    ∃ g', vsockLoop (osKernel (virtEnv p)) build pks g = (.ok (), g') ∧
      Invoked build c (shmPdu seq sid cmd h bounce) h.windows sid sess iid r g g' ∧
      g'.pool = r.pool.put cookie (shmAnswer sid cmd h r) := by
  have hfits : MsgFits (UInt64.ofNat cookie) (shmHdr sid cmd) h.windows.msgParams :=
    h.msgFits _ rfl rfl
  have hmsg := seenPool_msg sid cmd h bounce g.pool
  have hcmd : decodeCmd build (poolWith (shmPdu seq sid cmd h bounce) g)
      (shmPdu seq sid cmd h bounce).frame.cookieA1a2 =
        .ok (.invoke sid cmd h.windows.params 0 TEE_TIMEOUT_INFINITE) := by
    rw [poolWith_shmPdu, cookie_shmPdu]
    exact decodeCmd_of_msg build hfits (by rw [h.toNat_cookie]; exact hmsg)
  rw [← poolWith_shmPdu sid cmd seq] at hcall
  obtain ⟨g', hloop, hinvoked⟩ := enter_windows hconn hidle hof hbytes rfl
    (inPool_shmPdu sid cmd seq h bounce) hcmd hnodup hroom hopen hcall
  have hpool := hinvoked.done
  rw [cookie_shmPdu, writeDone_of_msg build hfits (by
    rw [h.toNat_cookie, msg_kept hkeeps]; exact hmsg), h.toNat_cookie] at hpool
  exact ⟨g', hloop, hinvoked, (Fallible.ok.inj hpool).symm⟩

theorem invokeShm_linked (build : Build) (hook : Option (RpcHook H)) (hcut : Faithful c cut)
    (fuel : Nat) {ctx : Context (StreamTransport (Link (Machine (HalMem × τ) (VirtAs p.base))) × H)}
    (hjoined : Joined c g ctx.transport.1) (hopen : OpenTo g.kernel sid sess iid ep)
    (hnodup : (shmCookies g.hal.mem.shms).Nodup)
    (hsrc : src.length ≤ TEEC_CONFIG_SHAREDMEM_MAX_SIZE)
    (hdst : dst.length ≤ TEEC_CONFIG_SHAREDMEM_MAX_SIZE)
    (hstart : ctx.msgAt = cookie) (h : Layout cookie src dst)
    (hroom : RoomFor g.hal.mem.shms [h.windows.inOff, h.windows.outOff])
    (hcall : p.ta.invoke ep.invoke sess.taSessCtx cmd (paramTypesOf h.windows.params)
      (h.windows.raw p.base) (seenPool sid cmd h ctx.bounce g.pool, g.kernel.world.2) =
        (.returns (r.code, r.raw), (r.pool, r.rest)))
    (hkeeps : ∀ i, i < shmOut cookie src.length ∨
      shmOut cookie src.length + dst.length ≤ i →
        r.pool.byte i = (seenPool sid cmd h ctx.bounce g.pool).byte i) :
    ∃ ctx' g', invokeShm (streamTransport (linkSocket (osKernel (virtEnv p)) build cut) build hook
        (fuel + 1)) build sid cmd src dst ctx = (shmResult r (shmOut cookie src.length) dst, ctx') ∧
      Joined c g' ctx'.transport.1 ∧ ∃ q, Invoked build c q h.windows sid sess iid r g g' := by
  obtain ⟨⟨deliveries, hsock⟩, hfree, hconn, hidle⟩ := hjoined
  let q := shmPdu ctx.transport.1.seq sid cmd h ctx.bounce
  have hcookie : q.frame.cookieA1a2.toNat = cookie := toNat_cookie_shmPdu ..
  obtain ⟨g', hloop, hinvoked, hpool⟩ := vsockLoop_shm build hconn hidle hopen hnodup h hroom hcall
    hkeeps ctx.transport.1.seq (hcut deliveries q.encode).1 (hcut deliveries q.encode).2
  -- the client sends the ENTER and takes the answer
  let filled := (ctx.shmAllocated src.length dst.length).shmFilled sid cmd src dst cookie
  have hfilled : filled.bounce = sentPool sid cmd h ctx.bounce := bounce_shmFilled sid cmd h _
  have hbounce : filled.bounce.get q.frame.cookieA1a2.toNat q.hdr.bounceLen.toNat = q.bounce := by
    rw [hfilled, hcookie]
    rfl
  let call : Call (Link (Machine (HalMem × τ) (VirtAs p.base))) H :=
    ⟨ctx.transport.1, filled.bounce, ctx.transport.2⟩
  have hlinked : call.transport.sock = ⟨g, [], [], deliveries, false⟩ := hsock
  have hframe : (Proto.CallFrame.yieldingEnter (UInt64.ofNat cookie)).toGuest = q.frame := rfl
  obtain ⟨call', hrun, hsock', hfree', hback⟩ := enterStream_completed hook fuel hlinked hfree rfl
    rfl hframe (inPool_shmPdu ..) hbounce hloop hinvoked.completed
  obtain ⟨ctx', henter, htransport, hbounce'⟩ : ∃ ctx', enter (streamTransport
      (linkSocket (osKernel (virtEnv p)) build cut) build hook (fuel + 1)) (UInt64.ofNat cookie)
      (UInt32.ofNat (shmLen cookie src.length dst.length)) filled = (.ok (), ctx') ∧
        ctx'.transport.1 = call'.transport ∧ ctx'.bounce = call'.bounce :=
    ⟨_, enter_of_stream hrun, rfl, rfl⟩
  have hreturn : ctx'.bounce = backPool sid cmd h ctx.bounce r.pool (shmAnswer sid cmd h r) := by
    rw [hbounce', hback, hpool, hcookie, backPool, ← hfilled, ← h.toNat_len]
    rfl
  refine ⟨ctx', g', ?_, ?_, q, hinvoked⟩
  · have hfit := h.inside
    rw [← hstart] at hfit
    rw [invokeShm_of_fits _ build sid cmd hsrc hdst hfit, hstart,
      sendShm_of_fits _ build _ sid cmd h.aligned h.inside, Attempt.bind_of_ok henter]
    exact takeShm_back h ctx.bounce _ hreturn
  · rw [htransport]
    exact ⟨⟨_, hsock'⟩, hfree', hinvoked.completed.1, hinvoked.completed.2.1⟩

end Call

/-! ### `invoke_shm` from end to end -/

section EndToEnd

variable {cut : Cut} {c : VsockConn} {sid : SessionId} {sess : Session} {iid : InstanceId}
  {ep : TaEntryPoints} {cmd : UInt32} {src dst : Bytes}

/-- The types of the parameters of `invoke_shm`. -/
def SHM_TYPES : UInt32 := TEE_PARAM_TYPE_MEMREF_INPUT ||| (TEE_PARAM_TYPE_MEMREF_OUTPUT <<< 4)

def bufferOff (base : UInt64) (buf : ParamRaw) : Nat := buf.lo.toNat - base.toNat

def BufferInPool (base : UInt64) (buf : ParamRaw) : Prop :=
  base.toNat ≤ buf.lo.toNat ∧ buf.lo.toNat + buf.memrefSize.toNat ≤ base.toNat + BOUNCE_POOL_SIZE

/-- Called with an input and an output in the pool the TA returns, and outside its output it
has left the pool as it was. -/
def WritesOutputOnly (p : Platform τ) (entry sessCtx : UInt64) (cmd : UInt32) : Prop :=
  ∀ raw pool t, BufferInPool p.base (raw.get 0) → BufferInPool p.base (raw.get 1) →
    ∃ r : TaReturn τ, p.ta.invoke entry sessCtx cmd SHM_TYPES raw (pool, t) =
        (.returns (r.code, r.raw), (r.pool, r.rest)) ∧
      ∀ i, i < bufferOff p.base (raw.get 1) ∨
        bufferOff p.base (raw.get 1) + (raw.get 1).memrefSize.toNat ≤ i →
          r.pool.byte i = pool.byte i

/-- The TA is called with `src` as its input and room for as many bytes as `dst` has. -/
structure CalledOn (base : UInt64) (src dst : Bytes) (call : TaEntry) : Prop where
  types : call.types = SHM_TYPES
  input : call.pool.get (bufferOff base (call.raw.get 0)) (call.raw.get 0).memrefSize.toNat = src
  capacity : (call.raw.get 1).memrefSize.toNat = dst.length

variable {base off : UInt64}

section

variable (hbase : base.toNat + BOUNCE_POOL_SIZE ≤ 2 ^ 64)
include hbase

theorem toNat_base_add
    (hoff : off.toNat < BOUNCE_POOL_SIZE) : (base + off).toNat = base.toNat + off.toNat := by
  rw [UInt64.toNat_add]
  exact Nat.mod_eq_of_lt (by omega)

theorem bufferOff_ofMemref (hoff : off.toNat < BOUNCE_POOL_SIZE) (size : UInt64) :
    bufferOff base (.ofMemref (base + off) size) = off.toNat := by
  show (base + off).toNat - base.toNat = _
  rw [toNat_base_add hbase hoff, Nat.add_sub_cancel_left]

theorem bufferInPool_ofMemref {size : UInt64}
    (hoff : off.toNat + max size.toNat 1 ≤ BOUNCE_POOL_SIZE) :
    BufferInPool base (.ofMemref (base + off) size) := by
  show base.toNat ≤ (base + off).toNat ∧
    (base + off).toNat + size.toNat ≤ base.toNat + BOUNCE_POOL_SIZE
  rw [toNat_base_add hbase (by omega)]
  omega

end

section Buffers

variable (v : Windows) {base : UInt64} (hbase : base.toNat + BOUNCE_POOL_SIZE ≤ 2 ^ 64)

include hbase

theorem bufferOff_in : bufferOff base ((v.raw base).get 0) = v.inOff.toNat := by
  have happart := v.apart
  have hinside := v.inside
  exact bufferOff_ofMemref hbase (by omega) _

theorem bufferOff_out : bufferOff base ((v.raw base).get 1) = v.outOff.toNat := by
  have hinside := v.inside
  exact bufferOff_ofMemref hbase (by omega) _

theorem bufferInPool_in : BufferInPool base ((v.raw base).get 0) := by
  have happart := v.apart
  have hinside := v.inside
  exact bufferInPool_ofMemref hbase (by omega)

theorem bufferInPool_out : BufferInPool base ((v.raw base).get 1) :=
  bufferInPool_ofMemref hbase v.inside

end Buffers

/-- The TA copies its input to its output, as far as it fits, and reports how much that is. -/
def echo (base : UInt64) (raw : RawParams) (pool : Pool) : RawParams × Pool :=
  let n := min (raw.get 0).memrefSize.toNat (raw.get 1).memrefSize.toNat
  (raw.set 1 (.ofMemref (raw.get 1).lo (UInt64.ofNat n)),
    pool.put (bufferOff base (raw.get 1)) (pool.get (bufferOff base (raw.get 0)) n))

def echoPlatform : Platform Unit :=
  { quietPlatform with
    ta := { quietTa with
      invoke := fun _ _ _ _ raw w =>
        let r := echo quietPlatform.base raw w.1
        (.returns (0, r.1), (r.2, w.2)) } }

theorem writesOutputOnly_echo (entry sessCtx : UInt64) (cmd : UInt32) :
    WritesOutputOnly echoPlatform entry sessCtx cmd := by
  intro raw pool t _ _
  refine ⟨⟨0, (echo quietPlatform.base raw pool).1, (echo quietPlatform.base raw pool).2, t⟩, rfl,
    ?_⟩
  intro i hi
  apply byte_put_outside
  rw [length_get]
  have hmin : min (raw.get 0).memrefSize.toNat (raw.get 1).memrefSize.toNat ≤
      (raw.get 1).memrefSize.toNat := min_le_right _ _
  have hbase : echoPlatform.base = quietPlatform.base := rfl
  rw [hbase] at hi
  omega

def echoKernel : Machine (HalMem × (Unit × List TaEntry)) (VirtAs echoPlatform.base) :=
  (Os.handle (virtEnv (recording echoPlatform)) (.openSession sampleTa.uuid .public noParams 0 0)
    (emitReeNotices true (registerEarlyTa sampleTa
      (Machine.new (virtEnv (recording echoPlatform)) (VirtHal.init.mem, ((), [])))))).2

def echoGuest : RecordingState echoPlatform where
  hal := { VirtHal.init with conn := some sampleConn }
  kernel := echoKernel
  waiting := none
  sent := []

def echoSession : Session := ⟨1, sampleTa.uuid, .userTa, some 1, 0, .ready, .public⟩

theorem openTo_echoKernel : OpenTo echoKernel 1 echoSession 1 ⟨1, 2, 3, 4, 5⟩ := by
  have hinstance : (echoKernel.instances.get 1).map
      (fun i => (i.busy, i.entries, i.aspace.isSome)) =
        some (false, some ⟨1, 2, 3, 4, 5⟩, true) := by
    decide +kernel
  obtain ⟨i, hget, hi⟩ := Option.map_eq_some_iff.mp hinstance
  obtain ⟨hbusy, hentries, haspace⟩ := Prod.ext_iff.mp hi |>.imp id Prod.ext_iff.mp
  obtain ⟨a, ha⟩ := Option.isSome_iff_exists.mp haspace
  exact ⟨⟨by decide +kernel, by decide +kernel⟩, by decide +kernel, by decide, rfl, rfl,
    by decide +kernel, i, a, hget, hbusy, hentries, ha⟩

abbrev EchoContext := Context (StreamTransport (Link (Machine (HalMem × (Unit × List TaEntry))
  (VirtAs echoPlatform.base))) × Unit)

def contextOn (g : RecordingState echoPlatform) (bump : Nat) : EchoContext :=
  { Context.new (⟨⟨g, [], [], 1, false⟩, 2, false⟩, ()) with bump := bump }

def echoContext : EchoContext := contextOn echoGuest (PAGE_SIZE + 64)

/-- What is delivered comes in one packet, if the packet can say its length. -/
def wholePackets : Cut := fun k bytes =>
  if bytes.length < 2 ^ 32 then [rwPacket bytes] else bytewise k bytes

theorem faithful_wholePackets : Faithful sampleConn wholePackets := by
  intro k bytes
  rw [wholePackets]
  split
  · rename_i hlt
    have hlen : bytes.length = (UInt32.ofNat bytes.length).toNat :=
      (UInt32.toNat_ofNat_of_lt' hlt).symm
    refine ⟨fun pk hpk => ?_, append_nil bytes⟩
    rw [mem_singleton.mp hpk]
    have hop : VIRTIO_VSOCK_OP_RW ≠ VIRTIO_VSOCK_OP_REQUEST := by decide
    exact ⟨hop, fun _ => ⟨rfl, rfl, rfl, rfl, hlen⟩⟩
  · exact faithful_bytewise k bytes

/-- An `invoke_shm` with nothing to read and nothing to write. -/
def echoCall (ctx : EchoContext) : Fallible UInt32 (Nat × Bytes) × EchoContext :=
  invokeShm (streamTransport (linkSocket (osKernel (virtEnv (recording echoPlatform))) .release
    wholePackets) .release none 1) .release 1 9 [] [] ctx

/-- The windows of fifteen such calls, the first from the bump `PAGE_SIZE + 64`. -/
def usedTable : List (Option VirtShm) :=
  (range 15).flatMap (fun k => [some ⟨UInt64.ofNat (0x10a0 + 112 * k), 1, ⟨true, false, false⟩⟩,
    some ⟨UInt64.ofNat (0x10a8 + 112 * k), 1, ⟨false, true, false⟩⟩]) ++ [none, none]

def usedGuest : RecordingState echoPlatform := echoGuest.withShms usedTable

/-- The sixteenth call takes the last two slots. -/
def sixteenthCall : Fallible UInt32 (Nat × Bytes) × EchoContext :=
  echoCall (contextOn usedGuest (PAGE_SIZE + 64 + 15 * 112))

def seventeenthCall : Fallible UInt32 (Nat × Bytes) × EchoContext := echoCall sixteenthCall.2

def fullGuest : RecordingState echoPlatform := seventeenthCall.2.transport.1.sock.guest

/-- The call in `fullGuest` whose windows are those of the first call. -/
def lastCall : Fallible UInt32 (Nat × Bytes) × EchoContext :=
  echoCall (contextOn fullGuest (PAGE_SIZE + 64))

end EndToEnd

end Rustee.Client
