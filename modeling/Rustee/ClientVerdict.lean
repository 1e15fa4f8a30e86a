import Rustee.ClientContext

/-!
# What an operation of the client makes of the reply (`crates/gp-client/src/lib.rs`)

A transport is watched: each call of `enter` is recorded with the pools before and after it, and
the operations cannot tell. Every operation is a preparation, one call and an ending.
`open_session` and `invoke_shm` look at the code that came back. `invoke`, `close_session`,
`register_shm` and `unregister_shm` return when `enter` has returned, so a refusal of the TEE is
a success to their caller.
-/

namespace Rustee.Client

open Virt Guest Attempt Context

variable {τ : Type}

/-! ### Watching a transport -/

/-- One call of `enter`: what was sent, and what came back. -/
structure Crossing where
  cookie : UInt64
  len : UInt32
  before : Pool
  result : Fallible UInt32 Proto.CallFrame
  after : Pool

def watched (T : Transport τ) : Transport (τ × List Crossing) where
  enter := fun frame pool len t =>
    let r := T.enter frame pool len t.1
    (r.1, r.2.1, r.2.2, t.2 ++ [⟨frame.cookie, len, pool, r.1, r.2.1⟩])

namespace Context

def watch (c : Context τ) : Context (τ × List Crossing) :=
  ⟨(c.transport, []), c.bounce, c.bump, c.used⟩

def unwatch (c : Context (τ × List Crossing)) : Context τ :=
  ⟨c.transport.1, c.bounce, c.bump, c.used⟩

end Context

section Cross

variable (T : Transport τ) (cookie : UInt64) (len : UInt32) (c : Context (τ × List Crossing))

/-- The call on the message at `cookie`. -/
def Context.crossing : Crossing :=
  let r := T.enter (Proto.CallFrame.yieldingEnter cookie) c.bounce len c.transport.1
  ⟨cookie, len, c.bounce, r.1, r.2.1⟩

def Context.crossed : Context (τ × List Crossing) :=
  let r := T.enter (Proto.CallFrame.yieldingEnter cookie) c.bounce len c.transport.1
  ⟨(r.2.2, c.transport.2 ++ [c.crossing T cookie len]), r.2.1, c.bump,
    c.used ++ [⟨cookie.toNat, cookie.toNat + len.toNat⟩]⟩

theorem enter_watched : enter (watched T) cookie len c =
    (((c.crossing T cookie len).result >>= fun _ => .ok ()), c.crossed T cookie len) := by
  rw [enter, crossed, crossing]
  dsimp only [sending, watched]
  rw [Proto.CallFrame.cookie_yieldingEnter]
  rcases T.enter (Proto.CallFrame.yieldingEnter cookie) c.bounce len c.transport.1 with
    ⟨r, pool, t⟩
  cases r <;> rfl

end Cross

/-! ### Preparation, call and ending -/

def outcome (T : Transport τ) (build : Build) : ContextOp → CM τ Unit
  | .openSession dest login => openSession T build dest login >>= fun _ => pure ()
  | .invoke session cmd => invoke T session cmd
  | .invokeShm session cmd src dst => invokeShm T build session cmd src dst >>= fun _ => pure ()
  | .closeSession session => closeSession T session
  | .registerShm size => registerShm T size >>= fun _ => pure ()
  | .unregisterShm cookie => unregisterShm T cookie

def stage (cookie : UInt64) (hdr : MsgArgHdr) (params : List MsgParam) (len : Nat → UInt32) :
    CM τ (UInt64 × UInt32) :=
  putMsg cookie hdr params >>= fun n => pure (cookie, len n)

def openMsgHdr : MsgArgHdr := ⟨MSG_CMD_OPEN_SESSION, 0, 0, 0, 0, 0, 0, 2⟩

def openMsgParams (dest : Client.Uuid) (login : UInt32) : List MsgParam :=
  [⟨ATTR_TYPE_VALUE_INPUT ||| ATTR_META, dest.words.1, dest.words.2, 0⟩,
    ⟨ATTR_TYPE_VALUE_INPUT ||| ATTR_META, 0, 0, login.toUInt64⟩]

def preparePlain (hdr : MsgArgHdr) : CM τ (UInt64 × UInt32) :=
  alloc (MSG_ARG_ALIGN * 4) MSG_ARG_ALIGN >>= fun cookie => stage cookie hdr [] UInt32.ofNat

/-- An operation up to its call of `enter`. -/
def prepare : ContextOp → CM τ (UInt64 × UInt32)
  | .openSession dest login =>
    alloc (MSG_ARG_ALIGN * 8) MSG_ARG_ALIGN >>= fun cookie =>
      stage cookie openMsgHdr (openMsgParams dest login) UInt32.ofNat
  | .invoke session cmd => preparePlain ⟨MSG_CMD_INVOKE_COMMAND, cmd, session, 0, 0, 0, 0, 0⟩
  | .invokeShm session cmd src dst =>
    if src.length > TEEC_CONFIG_SHAREDMEM_MAX_SIZE ∨
        dst.length > TEEC_CONFIG_SHAREDMEM_MAX_SIZE then
      raise TEEC_ERROR_BAD_PARAMETERS
    else
      alloc (MSG_ARG_HDR_SIZE + MSG_PARAM_SIZE * 2) MSG_ARG_ALIGN >>= fun cookie =>
      alloc (max src.length 1) MSG_ARG_ALIGN >>= fun inOff =>
      alloc (max dst.length 1) MSG_ARG_ALIGN >>= fun outOff =>
      copyIn inOff src >>= fun _ =>
      stage cookie (shmHdr session cmd) (shmParams inOff outOff src dst) fun n =>
        UInt32.ofNat (max (outOff.toNat + dst.length) (cookie.toNat + n) - cookie.toNat)
  | .closeSession session => preparePlain ⟨MSG_CMD_CLOSE_SESSION, 0, session, 0, 0, 0, 0, 0⟩
  | .registerShm size =>
    if size > TEEC_CONFIG_SHAREDMEM_MAX_SIZE then raise TEEC_ERROR_BAD_PARAMETERS
    else
      alloc (max size PAGE_SIZE) PAGE_SIZE >>= fun cookie =>
      stage 32 ⟨MSG_CMD_REGISTER_SHM, 0, 0, 0, 0, 0, 0, 1⟩
        [⟨ATTR_TYPE_TMEM_INPUT, cookie, UInt64.ofNat size, cookie⟩] fun _ => 32
  | .unregisterShm cookie =>
    stage 32 ⟨MSG_CMD_UNREGISTER_SHM, 0, 0, 0, 0, 0, 0, 1⟩
      [⟨ATTR_TYPE_RMEM_INPUT, 0, 0, cookie⟩] fun _ => 32

def ContextOp.looksAtRet : ContextOp → Bool
  | .openSession _ _ => true
  | .invokeShm _ _ _ _ => true
  | _ => false

def verdict (ret : UInt32) : Fallible UInt32 Unit := if ret = TEEC_SUCCESS then .ok () else .err ret

def conclude (build : Build) (op : ContextOp) (cookie : UInt64) : CM τ Unit :=
  if op.looksAtRet then getMsg build cookie >>= fun msg => lift (verdict msg.1.ret)
  else pure ()

section Outcome

variable {T : Transport τ} {build : Build} {α : Type}

theorem exchange_bind (cookie : UInt64) (hdr : MsgArgHdr) (params : List MsgParam)
    (len : Nat → UInt32) (k : UInt64 → CM τ α) :
    (exchange T cookie hdr params len >>= fun _ => k cookie) =
      stage cookie hdr params len >>= fun w => enter T w.1 w.2 >>= fun _ => k w.1 := by
  rw [exchange, stage, bind_assoc, bind_assoc]
  rfl

variable (op : ContextOp)

theorem exchange_eq (hop : op.looksAtRet = false) (cookie : UInt64)
    (hdr : MsgArgHdr) (params : List MsgParam) (len : Nat → UInt32) :
    exchange T cookie hdr params len = stage cookie hdr params len >>= fun w =>
      enter T w.1 w.2 >>= fun _ => conclude build op w.1 := by
  rw [← exchange_bind, conclude, if_neg (by simp [hop]), bind_pure]

theorem callPlain_eq (hop : op.looksAtRet = false) (hdr : MsgArgHdr) :
    callPlain T hdr = preparePlain hdr >>= fun w =>
      enter T w.1 w.2 >>= fun _ => conclude build op w.1 := by
  rw [callPlain, preparePlain, bind_assoc]
  exact congrArg _ (funext fun cookie => exchange_eq op hop cookie hdr [] _)

theorem checked_eq {cookie : UInt64} {g : MsgArgHdr × List MsgParam → CM τ α}
    (hg : ∀ msg c, ∃ a, g msg c = (.ok a, c)) :
    ((getMsg build cookie >>= fun msg =>
      if msg.1.ret ≠ TEEC_SUCCESS then raise msg.1.ret else g msg) >>= fun _ => pure ()) =
      getMsg build cookie >>= fun msg => lift (verdict msg.1.ret) := by
  rw [bind_assoc]
  congr 1
  funext msg c
  obtain ⟨a, ha⟩ := hg msg c
  by_cases hret : msg.1.ret = TEEC_SUCCESS
  · rw [if_neg (not_not_intro hret), bind_of_ok ha, verdict, if_pos hret]
    rfl
  · rw [if_pos hret, verdict, if_neg hret]
    rfl

theorem outcome_eq : outcome T build op =
    prepare op >>= fun w => enter T w.1 w.2 >>= fun _ => conclude build op w.1 := by
  cases op with
  | openSession =>
    rw [outcome, openSession, prepare, bind_assoc, bind_assoc]
    refine congrArg _ (funext fun cookie => ?_)
    rw [bind_assoc, ← exchange_bind]
    exact congrArg _ (funext fun _ => checked_eq fun msg _ => ⟨msg.1.session, rfl⟩)
  | invoke session cmd => exact callPlain_eq (.invoke session cmd) rfl _
  | invokeShm =>
    rw [outcome, invokeShm, prepare]
    split
    · rfl
    simp only [sendShm, bind_assoc]
    refine congrArg _ (funext fun cookie => congrArg _ (funext fun inOff => congrArg _
      (funext fun outOff => congrArg _ (funext fun _ => ?_))))
    rw [← exchange_bind]
    exact congrArg _ (funext fun _ => checked_eq fun _ _ => ⟨_, rfl⟩)
  | closeSession session => exact callPlain_eq (.closeSession session) rfl _
  | registerShm size =>
    rw [outcome, registerShm, prepare]
    split
    · rfl
    simp only [bind_assoc]
    exact congrArg _ (funext fun cookie => (bind_pure _).trans
      (exchange_eq (.registerShm size) rfl 32 _ _ _))
  | unregisterShm cookie => exact exchange_eq (.unregisterShm cookie) rfl 32 _ _ _

theorem perform_eq_outcome (c : Context τ) : perform T build op c = (outcome T build op c).2 := by
  cases op with
  | openSession | invokeShm | registerShm => exact (bind_snd (fun _ _ => rfl) c).symm
  | invoke | closeSession | unregisterShm => rfl

theorem conclude_same (cookie : UInt64) (c : Context τ) : (conclude build op cookie c).2 = c := by
  rw [conclude]
  split
  · rw [bind_apply, getMsg]
    rcases decodeMsg build c.bounce cookie with _ | _ | _ <;> rfl
  · rfl

end Outcome

/-! ### One walk through the preparations -/

/-- What holds of the pieces of a preparation, and of a sequence if it holds of its parts, holds of
every preparation; stated of two programs, so that they can be compared. -/
theorem prepare_walk {σ : Type} {P : ∀ {α : Type}, CM τ α → CM σ α → Prop}
    (hbind : ∀ {α β : Type} {x : CM τ α} {y : CM σ α} {f : α → CM τ β} {g : α → CM σ β},
      P x y → (∀ a, P (f a) (g a)) → P (x >>= f) (y >>= g))
    (hpure : ∀ {α : Type} (a : α), P (pure a) (pure a))
    (hraise : ∀ {α : Type} e, P (raise e : CM τ α) (raise e))
    (halloc : ∀ len align, 0 < align → P (alloc len align) (alloc len align))
    (hput : ∀ cookie hdr params, P (putMsg cookie hdr params) (putMsg cookie hdr params))
    (hcopy : ∀ start bytes, P (copyIn start bytes) (copyIn start bytes)) (op : ContextOp) :
    P (prepare op) (prepare op) := by
  have hmsg : 0 < MSG_ARG_ALIGN := by decide
  have hpage : 0 < PAGE_SIZE := by decide
  have hstage (cookie : UInt64) (hdr : MsgArgHdr) (params : List MsgParam) (len : Nat → UInt32) :
      P (stage cookie hdr params len) (stage cookie hdr params len) :=
    hbind (hput cookie hdr params) fun _ => hpure _
  cases op with
  | openSession | invoke | closeSession => exact hbind (halloc _ _ hmsg) fun _ => hstage _ _ _ _
  | invokeShm =>
    rw [prepare, prepare]
    split
    · exact hraise _
    · exact hbind (halloc _ _ hmsg) fun _ => hbind (halloc _ _ hmsg) fun _ =>
        hbind (halloc _ _ hmsg) fun _ => hbind (hcopy _ _) fun _ => hstage _ _ _ _
  | registerShm =>
    rw [prepare, prepare]
    split
    · exact hraise _
    · exact hbind (halloc _ _ hpage) fun _ => hstage _ _ _ _
  | unregisterShm => exact hstage _ _ _ _

def quiet (τ : Type) : Frame (Context (τ × List Crossing)) where
  rel c c' := c'.transport.2 = c.transport.2
  refl _ := rfl
  trans h h' := h'.trans h

theorem alloc_cases (len align : Nat) (c : Context τ) :
    alloc len align c = (.err TEEC_ERROR_OUT_OF_MEMORY, c) ∨
      alloc len align c = (.ok (UInt64.ofNat (roundUp c.bump align)),
        c.allocated (roundUp c.bump align) (roundUp c.bump align + len)) := by
  by_cases hfit : roundUp c.bump align + len ≤ BOUNCE_POOL_SIZE
  · exact .inr (alloc_of_fits hfit)
  · exact .inl (alloc_of_full (Nat.lt_of_not_le hfit))

theorem prepare_quiet (op : ContextOp) : Keeps (quiet τ) (prepare op) := by
  refine prepare_walk (σ := τ) (P := fun x _ => Keeps (quiet τ) x) (fun h h' => h.bind h')
    keeps_pure keeps_raise ?_ ?_ (fun _ _ _ => rfl) op
  · intro len align _ c
    rcases alloc_cases len align c with h | h <;> rw [h] <;> rfl
  · intro cookie hdr params c
    rw [putMsg]
    split <;> rfl

theorem prepare_unseen (op : ContextOp) :
    Simulates unwatch (prepare op : CM (τ × List Crossing) _) (prepare op) := by
  refine prepare_walk (fun h h' => h.bind h') simulates_pure simulates_raise ?_ ?_
    (fun _ _ _ => rfl) op
  · intro len align _ c
    by_cases hfit : roundUp c.bump align + len ≤ BOUNCE_POOL_SIZE
    · rw [alloc_of_fits hfit]
      exact alloc_of_fits hfit
    · rw [alloc_of_full (Nat.lt_of_not_le hfit)]
      exact alloc_of_full (Nat.lt_of_not_le hfit)
  · intro cookie hdr params c
    rw [putMsg, putMsg]
    dsimp only [unwatch]
    rcases writeMsg c.bounce cookie hdr params with e | ⟨n, pool⟩ <;> rfl

theorem enter_unseen (T : Transport τ) (cookie : UInt64) (len : UInt32) :
    Simulates unwatch (enter (watched T) cookie len) (enter T cookie len) := by
  intro c
  rw [enter, enter]
  dsimp only [unwatch, sending, watched]
  rcases T.enter (Proto.CallFrame.yieldingEnter cookie) c.bounce len c.transport.1 with ⟨r, pool, t⟩
  cases r <;> rfl

theorem conclude_unseen (build : Build) (op : ContextOp) (cookie : UInt64) :
    Simulates (unwatch (τ := τ)) (conclude build op cookie) (conclude build op cookie) := by
  intro c
  rw [conclude, conclude]
  split
  · rw [bind_apply, bind_apply, getMsg, getMsg]
    dsimp only [unwatch]
    rcases decodeMsg build c.bounce cookie with _ | _ | _ <;> rfl
  · rfl

theorem outcome_unseen (T : Transport τ) (build : Build) (op : ContextOp) :
    Simulates unwatch (outcome (watched T) build op) (outcome T build op) := by
  rw [outcome_eq, outcome_eq]
  exact (prepare_unseen op).bind fun w => (enter_unseen T w.1 w.2).bind fun _ =>
    conclude_unseen build op w.1

/-! ### The call -/

section Call

variable {T : Transport τ} {build : Build} {op : ContextOp}
  {c cw : Context (τ × List Crossing)} {w : UInt64 × UInt32}

theorem outcome_of_prepared (h : prepare op c = (.ok w, cw)) :
    outcome (watched T) build op c =
      ((cw.crossing T w.1 w.2).result >>= fun _ => (conclude build op w.1
        (cw.crossed T w.1 w.2)).1, cw.crossed T w.1 w.2) := by
  rw [outcome_eq, bind_of_ok h, bind_apply, enter_watched]
  rcases (cw.crossing T w.1 w.2).result with frame | e | _
  · exact Prod.ext rfl (conclude_same op w.1 _)
  · rfl
  · rfl

theorem outcome_of_refused (T : Transport τ) (h : ∀ w, (prepare op c).1 ≠ .ok w) :
    (outcome (watched T) build op c).2 = (prepare op c).2 := by
  rw [outcome_eq, bind_apply]
  rcases hrun : prepare op c with ⟨w | e | _, cw⟩
  · exact absurd (congrArg Prod.fst hrun) (h w)
  · rfl
  · rfl

theorem conclude_of_reply {cookie : UInt64} {reply : MsgArgHdr} {params : List MsgParam}
    (hreply : decodeMsg build c.bounce cookie = .ok (reply, params)) :
    (conclude build op cookie c).1 = if op.looksAtRet then verdict reply.ret else .ok () := by
  rw [conclude]
  split
  · have hget : getMsg build cookie c = (.ok (reply, params), c) := by rw [getMsg, hreply]
    rw [bind_of_ok hget]
    rfl
  · rfl

theorem prepare_cases (op : ContextOp) (c : Context τ) :
    (∃ w c1, prepare op c = (.ok w, c1)) ∨ ∀ w, (prepare op c).1 ≠ .ok w := by
  rcases prepare op c with ⟨w | e | _, c1⟩
  · exact .inl ⟨w, c1, rfl⟩
  · exact .inr (by simp)
  · exact .inr (by simp)

end Call

/-- Of every reply that comes back to an operation: the caller is told the TEE's verdict exactly
if the operation looks at the code or the code is the one of success. -/
theorem verdict_reported_iff (T : Transport τ) (build : Build) (op : ContextOp) (c : Context τ)
    {crossing : Crossing} {frame : Proto.CallFrame} {reply : MsgArgHdr} {params : List MsgParam}
    (hsent : (perform (watched T) build op c.watch).transport.2 = [crossing])
    (hreturned : crossing.result = .ok frame)
    (hreply : decodeMsg build crossing.after crossing.cookie = .ok (reply, params)) :
    (outcome T build op c).1 = verdict reply.ret ↔
      (op.looksAtRet = true ∨ reply.ret = TEEC_SUCCESS) := by
  have hunseen : (outcome T build op c).1 = (outcome (watched T) build op c.watch).1 :=
    congrArg Prod.fst (outcome_unseen T build op c.watch)
  have hquiet := prepare_quiet op c.watch
  rw [perform_eq_outcome] at hsent
  rw [hunseen]
  rcases prepare_cases op c.watch with ⟨w, cw, hok⟩ | hnot
  · rw [hok] at hquiet
    have hlog : cw.transport.2 = [] := hquiet
    rw [outcome_of_prepared hok, crossed, hlog] at hsent
    have hcrossing : cw.crossing T w.1 w.2 = crossing := List.singleton_inj.mp hsent
    rw [← hcrossing] at hreply hreturned
    have hconclude : (conclude build op w.1 (cw.crossed T w.1 w.2)).1 =
        if op.looksAtRet then verdict reply.ret else .ok () := conclude_of_reply hreply
    have hresult : (outcome (watched T) build op c.watch).1 =
        if op.looksAtRet then verdict reply.ret else .ok () := by
      rw [outcome_of_prepared hok, hreturned]
      exact hconclude
    rw [hresult, verdict]
    cases op.looksAtRet <;> by_cases hret : reply.ret = TEEC_SUCCESS <;> simp [hret]
  · rw [outcome_of_refused T hnot, hquiet] at hsent
    cases hsent

def TEEC_ERROR_TARGET_DEAD : UInt32 := 0xFFFF3024

def answering (code : UInt32) : Transport Unit where
  enter := fun frame pool _ t => (.ok frame, pool.put (frame.cookie.toNat + 20) (le32 code), t)

/-- The call that `invoke` makes on a new context: no operation was before it. -/
def firstCall (code : UInt32) : Crossing :=
  ((((new ()).watch).allocated PAGE_SIZE (PAGE_SIZE + 32)).withMsg 4096
    ⟨MSG_CMD_INVOKE_COMMAND, 0, 1, 0, 0, 0, 0, 0⟩ []).crossing (answering code) 4096 32

theorem firstCall_reply : decodeMsg .release (firstCall TEEC_ERROR_TARGET_DEAD).after
    (firstCall TEEC_ERROR_TARGET_DEAD).cookie =
      .ok (⟨MSG_CMD_INVOKE_COMMAND, 0, 1, 0, 0, TEEC_ERROR_TARGET_DEAD, 0, 0⟩, []) := by
  decide +kernel

theorem verdict_reported_iff_sample :
    (outcome (answering TEEC_ERROR_TARGET_DEAD) .release (.invoke 1 0) (new ())).1 =
      verdict TEEC_ERROR_TARGET_DEAD ↔
      (ContextOp.looksAtRet (.invoke 1 0) = true ∨ TEEC_ERROR_TARGET_DEAD = TEEC_SUCCESS) := by
  have hsent : (perform (watched (answering TEEC_ERROR_TARGET_DEAD)) .release (.invoke 1 0)
      (new ()).watch).transport.2 = [firstCall TEEC_ERROR_TARGET_DEAD] := rfl
  exact verdict_reported_iff _ .release (.invoke 1 0) (new ()) hsent rfl firstCall_reply

/-- The TA is dead, the reply says so, and `invoke` returns `Ok`. -/
theorem refusal_reported_as_success :
    (perform (watched (answering TEEC_ERROR_TARGET_DEAD)) .release (.invoke 1 0)
      (new ()).watch).transport.2 = [firstCall TEEC_ERROR_TARGET_DEAD] ∧
    decodeMsg .release (firstCall TEEC_ERROR_TARGET_DEAD).after
      (firstCall TEEC_ERROR_TARGET_DEAD).cookie =
        .ok (⟨MSG_CMD_INVOKE_COMMAND, 0, 1, 0, 0, TEEC_ERROR_TARGET_DEAD, 0, 0⟩, []) ∧
    (invoke (answering TEEC_ERROR_TARGET_DEAD) 1 0 (new ())).1 = .ok () :=
  ⟨rfl, firstCall_reply, rfl⟩

end Rustee.Client
