import Rustee.ClientInvoke
import Rustee.ClientVerdict
import Rustee.Spans

/-!
# The bytes of a message (`Context::alloc` and its callers, `crates/gp-client/src/lib.rs`)

The bump pointer only grows, so all ranges a context allocates are apart. An operation owns its
bytes if it writes only what it has allocated itself and its window covers the message and every
memref in it. `invoke`, `invoke_shm` and `close_session` do. `open_session` allocates 64 bytes
for a message of 96; `register_shm` and `unregister_shm` write a message of 64 bytes to offset
32, which nobody allocated, and send 32 of them.
-/

namespace Rustee.Client

open Virt Guest Spans Attempt List ContextOp Context

variable {τ : Type}

def ATTR_TYPE_RMEM_OUTPUT : UInt64 := 0x6
def ATTR_TYPE_RMEM_INOUT : UInt64 := 0x7

/-! ### What an operation owns -/

/-- The bytes a memref names: an offset and a size, relative to `shm_ref` if it is registered. -/
def memref (p : MsgParam) : Option Range :=
  if ty p = ATTR_TYPE_TMEM_INPUT ∨ ty p = ATTR_TYPE_TMEM_OUTPUT ∨ ty p = ATTR_TYPE_TMEM_INOUT then
    some ⟨p.a.toNat, p.a.toNat + p.b.toNat⟩
  else if ty p = ATTR_TYPE_RMEM_INPUT ∨ ty p = ATTR_TYPE_RMEM_OUTPUT ∨
      ty p = ATTR_TYPE_RMEM_INOUT then
    some ⟨p.c.toNat + p.a.toNat, p.c.toNat + p.a.toNat + p.b.toNat⟩
  else none

theorem memref_of_input (a b c : UInt64) :
    memref ⟨ATTR_TYPE_TMEM_INPUT, a, b, c⟩ = some ⟨a.toNat, a.toNat + b.toNat⟩ := by
  have hty : ATTR_TYPE_TMEM_INPUT &&& ATTR_TYPE_MASK = ATTR_TYPE_TMEM_INPUT := by decide
  exact if_pos (.inl hty)

theorem memref_of_output (a b c : UInt64) :
    memref ⟨ATTR_TYPE_TMEM_OUTPUT, a, b, c⟩ = some ⟨a.toNat, a.toNat + b.toNat⟩ := by
  have hty : ATTR_TYPE_TMEM_OUTPUT &&& ATTR_TYPE_MASK = ATTR_TYPE_TMEM_OUTPUT := by decide
  exact if_pos (.inr (.inl hty))

namespace Range

def Has (r : Range) (i : Nat) : Prop := r.start ≤ i ∧ i < r.stop

def Inside (r s : Range) : Prop := s.start ≤ r.start ∧ r.stop ≤ s.stop

end Range

/-- A message in the pool that is about to be sent: its bytes are in a range of the list, the
window covers them, and the same of every memref. -/
def MsgOwned (build : Build) (rs : List Range) (cookie : UInt64) (len : UInt32) (pool : Pool) :
    Prop :=
  let window : Range := ⟨cookie.toNat, cookie.toNat + len.toNat⟩
  ∃ hdr params, decodeMsg build pool cookie = .ok (hdr, params) ∧
    (∃ r ∈ rs, Range.Inside ⟨cookie.toNat, cookie.toNat + hdr.byteSize⟩ r) ∧
    Range.Inside ⟨cookie.toNat, cookie.toNat + hdr.byteSize⟩ window ∧
    ∀ p ∈ params, ∀ m, memref p = some m → (∃ r ∈ rs, m.Inside r) ∧ m.Inside window

section Owns

variable (T : Transport τ) (build : Build) (op : ContextOp) (c : Context τ)

/-- The calls of `enter` that the operation makes. -/
def crossings : List Crossing := (perform (watched T) build op c.watch).transport.2

/-- The ranges the operation allocates. They are in the log before the window it sends. -/
def allocs : List Range :=
  let new := (perform T build op c).used.drop c.used.length
  new.take (new.length - (crossings T build op c).length)

/-- The pool as the operation hands it over, or leaves it if it sends nothing. -/
def written : Pool :=
  match crossings T build op c with
  | [] => (perform T build op c).bounce
  | x :: _ => x.before

structure OwnsBytes : Prop where
  writes : ∀ i, (written T build op c).byte i ≠ c.bounce.byte i → ∃ r ∈ allocs T build op c, r.Has i
  sends : ∀ x ∈ crossings T build op c,
    MsgOwned build (allocs T build op c) x.cookie x.len x.before

end Owns

def EachOwns (T : Transport τ) (build : Build) : List ContextOp → Context τ → Prop
  | [], _ => True
  | op :: ops, c => OwnsBytes T build op c ∧ EachOwns T build ops (perform T build op c)

def runAllocs (T : Transport τ) (build : Build) : List ContextOp → Context τ → List Range
  | [], _ => []
  | op :: ops, c => allocs T build op c ++ runAllocs T build ops (perform T build op c)

/-- `open_session` and `register_shm` get no further than their allocation, and there is no
`unregister_shm`. -/
def ContextOp.Tidy (op : ContextOp) (bump : Nat) : Prop :=
  match op with
  | .openSession _ _ => BOUNCE_POOL_SIZE < op.stop (roundUp bump op.align)
  | .registerShm _ => op.Accepted → BOUNCE_POOL_SIZE < op.stop (roundUp bump op.align)
  | .unregisterShm _ => False
  | _ => True

def EachTidy (T : Transport τ) (build : Build) : List ContextOp → Context τ → Prop
  | [], _ => True
  | op :: ops, c => op.Tidy c.bump ∧ EachTidy T build ops (perform T build op c)

/-! ### The call -/

section Call

variable {T : Transport τ} {build : Build} {op : ContextOp} {c c1 : Context τ}

theorem perform_prepared (T : Transport τ) (build : Build) (op : ContextOp) (c : Context τ) :
    perform T build op c = ((prepare op >>= fun w => enter T w.1 w.2) c).2 := by
  rw [perform_eq_outcome, outcome_eq, bind_apply, bind_apply]
  rcases prepare op c with ⟨w | e | _, c'⟩
  · exact bind_snd (fun _ => conclude_same op w.1) c'
  · rfl
  · rfl

theorem prepare_watch (op : ContextOp) (c : Context τ) : ∃ cw,
    prepare op c.watch = ((prepare op c).1, cw) ∧ cw.unwatch = (prepare op c).2 ∧
      cw.transport.2 = [] := by
  have hunseen := prepare_unseen op c.watch
  have hquiet := prepare_quiet op c.watch
  rcases hrun : prepare op c.watch with ⟨r, cw⟩
  rw [hrun] at hunseen hquiet
  have hc : prepare op c = (r, cw.unwatch) := hunseen
  exact ⟨cw, by rw [hc], by rw [hc], hquiet⟩

variable {w : UInt64 × UInt32}

/-- An operation that gets to its call makes it once, with the pool as it was prepared. -/
theorem crossings_of_ok (T : Transport τ) (build : Build) (h : prepare op c = (.ok w, c1)) :
    ∃ x, crossings T build op c = [x] ∧ x.cookie = w.1 ∧ x.len = w.2 ∧ x.before = c1.bounce := by
  obtain ⟨cw, hrun, hcw, hlog⟩ := prepare_watch op c
  rw [h] at hrun hcw
  refine ⟨cw.crossing T w.1 w.2, ?_, rfl, rfl, congrArg bounce hcw⟩
  rw [crossings, perform_prepared, bind_of_ok hrun, enter_watched, crossed, hlog]
  rfl

theorem crossings_of_not_ok (h : ∀ w, (prepare op c).1 ≠ .ok w) : crossings T build op c = [] := by
  obtain ⟨cw, hrun, -, hlog⟩ := prepare_watch op c
  rw [crossings, perform_prepared, bind_apply, hrun]
  rcases hr : (prepare op c).1 with w | e | _
  · exact absurd hr (h w)
  · exact hlog
  · exact hlog

theorem perform_of_ok (h : prepare op c = (.ok w, c1)) :
    perform T build op c = (enter T w.1 w.2 c1).2 := by
  rw [perform_prepared, bind_of_ok h]

theorem perform_of_not_ok (h : ∀ w, (prepare op c).1 ≠ .ok w) :
    perform T build op c = (prepare op c).2 := by
  rw [perform_prepared, bind_apply]
  rcases hrun : prepare op c with ⟨r, c'⟩
  rw [hrun] at h
  cases r with
  | ok w => exact absurd rfl (h w)
  | err | panic => rfl

variable {new : List Range}

theorem allocs_eq (h : (prepare op c).2.used = c.used ++ new) : allocs T build op c = new := by
  rw [allocs]
  rcases prepare_cases op c with ⟨w, c1, hok⟩ | hnot
  · obtain ⟨x, hx, -⟩ := crossings_of_ok T build hok
    rw [hok] at h
    have hused : c1.used = c.used ++ new := h
    rw [perform_of_ok hok, enter_used, hx, hused, append_assoc, drop_left]
    simp
  · rw [perform_of_not_ok hnot, crossings_of_not_ok hnot, h, drop_left]
    simp

theorem written_eq : written T build op c = (prepare op c).2.bounce := by
  rcases prepare_cases op c with ⟨w, c1, hok⟩ | hnot
  · obtain ⟨x, hx, -, -, hbefore⟩ := crossings_of_ok T build hok
    rw [written, hx, hok]
    exact hbefore
  · rw [written, crossings_of_not_ok hnot, perform_of_not_ok hnot]

/-- An operation that gets to its call owns its bytes if it owns those of the message and of all
it has written. -/
theorem ownsBytes_of_ok_iff
    (h : prepare op c = (.ok w, c1)) (hnew : c1.used = c.used ++ new) :
    OwnsBytes T build op c ↔
      (∀ i, c1.bounce.byte i ≠ c.bounce.byte i → ∃ r ∈ new, r.Has i) ∧
        MsgOwned build new w.1 w.2 c1.bounce := by
  have hallocs : allocs T build op c = new := allocs_eq (by rw [h]; exact hnew)
  have hwritten : written T build op c = c1.bounce := by rw [written_eq, h]
  obtain ⟨x, hx, hcookie, hlen, hbefore⟩ := crossings_of_ok T build h
  constructor
  · intro howns
    have hwrites := howns.writes
    have hsends := howns.sends x (by rw [hx]; exact mem_singleton_self x)
    rw [hallocs, hwritten] at hwrites
    rw [hallocs, hcookie, hlen, hbefore] at hsends
    exact ⟨hwrites, hsends⟩
  · rintro ⟨hwrites, hsends⟩
    constructor
    · rw [hallocs, hwritten]
      exact hwrites
    · intro y hy
      rw [hx] at hy
      rw [mem_singleton.mp hy, hallocs, hcookie, hlen, hbefore]
      exact hsends

theorem ownsBytes_of_unsent (h : ∀ w, (prepare op c).1 ≠ .ok w)
    (hsame : (prepare op c).2.bounce = c.bounce) : OwnsBytes T build op c := by
  constructor
  · intro i hi
    rw [written_eq, hsame] at hi
    exact absurd rfl hi
  · intro x hx
    rw [crossings_of_not_ok h] at hx
    cases hx

end Call

/-! ### Messages -/

section Messages

variable {build : Build} {c : Context τ} {cookie : UInt64} {hdr : MsgArgHdr}
  {params : List MsgParam}

theorem stage_of_fits (h : MsgFits cookie hdr params) (len : Nat → UInt32) (c : Context τ) :
    stage cookie hdr params len c =
      (.ok (cookie, len hdr.byteSize), c.withMsg cookie hdr params) := by
  have hput : putMsg cookie hdr params c = (.ok hdr.byteSize, c.withMsg cookie hdr params) := by
    rw [putMsg, writeMsg_of_fits h]
    rfl
  rw [stage, bind_of_ok hput]
  rfl

theorem stage_of_full (hfull : BOUNCE_POOL_SIZE < cookie.toNat + hdr.byteSize)
    (len : Nat → UInt32) (c : Context τ) :
    stage cookie hdr params len c = (.err TEEC_ERROR_BAD_PARAMETERS, c) := by
  have hput : putMsg cookie hdr params c = (.err TEEC_ERROR_BAD_PARAMETERS, c) := by
    rw [putMsg, writeMsg]
    split_ifs <;> rfl
  rw [stage, bind_of_err hput]

theorem decodeMsg_withMsg (h : MsgFits cookie hdr params) (c : Context τ) :
    decodeMsg build (c.withMsg cookie hdr params).bounce cookie = .ok (hdr, params) := by
  apply decodeMsg_of_bytes build h
  rw [← length_msgBytes h.count]
  exact Pool.get_put _ _ _

theorem byte_withMsg (h : MsgFits cookie hdr params) {i : Nat}
    (hi : (c.withMsg cookie hdr params).bounce.byte i ≠ c.bounce.byte i) :
    cookie.toNat ≤ i ∧ i < cookie.toNat + hdr.byteSize := by
  by_contra hout
  apply hi
  apply Pool.byte_put_outside
  have hlen := length_msgBytes h.count
  rw [msgBytes] at hlen
  omega

/-- A message that is longer than the window, or than every range, is not owned. -/
theorem not_msgOwned {rs : List Range} {len : UInt32} {pool : Pool}
    (hdecode : decodeMsg build pool cookie = .ok (hdr, params))
    (h : len.toNat < hdr.byteSize ∨ ∀ r ∈ rs, r.stop < cookie.toNat + hdr.byteSize) :
    ¬ MsgOwned build rs cookie len pool := by
  rintro ⟨hdr', params', hdecode', ⟨r, hr, -, hinside⟩, ⟨-, hwindow⟩, -⟩
  rw [hdecode] at hdecode'
  cases hdecode'
  dsimp only at hinside hwindow
  rcases h with hlen | hrange
  · omega
  · have := hrange r hr
    omega

end Messages

/-! ### One operation -/

section Step

variable (T : Transport τ) (build : Build) (c : Context τ) {op : ContextOp}

theorem owns_of_refused {e : UInt32} {c1 : Context τ}
    (h : prepare op c = (.err e, c1)) (hsame : c1.bounce = c.bounce) : OwnsBytes T build op c := by
  apply ownsBytes_of_unsent
  · rw [h]
    simp
  · rw [h]
    exact hsame

section Message

variable {op : ContextOp} {len : Nat} {hdr : MsgArgHdr} {params : List MsgParam}
  (hop : prepare op c = (alloc len MSG_ARG_ALIGN >>= fun cookie =>
    stage cookie hdr params UInt32.ofNat) c)
  (hcount : params.length = hdr.numParams.toNat) (hfew : params.length ≤ 6)

include hop hcount hfew

/-- An operation that allocates `len` bytes for its message and nothing else. -/
theorem prepareMsg_cases :
    (BOUNCE_POOL_SIZE < c.msgAt + len ∧ prepare op c = (.err TEEC_ERROR_OUT_OF_MEMORY, c)) ∨
    (BOUNCE_POOL_SIZE < c.msgAt + hdr.byteSize ∧
      prepare op c = (.err TEEC_ERROR_BAD_PARAMETERS,
        c.allocated c.msgAt (c.msgAt + len))) ∨
    (c.msgAt + len ≤ BOUNCE_POOL_SIZE ∧
      c.msgAt + hdr.byteSize ≤ BOUNCE_POOL_SIZE ∧
      MsgFits (UInt64.ofNat c.msgAt) hdr params ∧
      prepare op c = (.ok (UInt64.ofNat c.msgAt, UInt32.ofNat hdr.byteSize),
        (c.allocated c.msgAt (c.msgAt + len)).withMsg
            (UInt64.ofNat c.msgAt) hdr params)) := by
  by_cases hfit : c.msgAt + len ≤ BOUNCE_POOL_SIZE
  swap
  · rw [bind_of_err (alloc_of_full (lt_of_not_ge hfit))] at hop
    exact .inl ⟨lt_of_not_ge hfit, hop⟩
  have hcookie := toNat_ofNat_of_pool (le_trans (Nat.le_add_right _ _) hfit)
  rw [bind_of_ok (alloc_of_fits hfit)] at hop
  by_cases hroom : c.msgAt + hdr.byteSize ≤ BOUNCE_POOL_SIZE
  · have hmsg : MsgFits (UInt64.ofNat c.msgAt) hdr params := by
      refine ⟨?_, hcount, hfew, ?_⟩
      · rw [hcookie]
        exact roundUp_mod _ _
      · rw [hcookie]
        exact hroom
    rw [stage_of_fits hmsg] at hop
    exact .inr (.inr ⟨hfit, hroom, hmsg, hop⟩)
  · have hfull := lt_of_not_ge hroom
    rw [← hcookie] at hfull
    rw [stage_of_full hfull] at hop
    exact .inr (.inl ⟨lt_of_not_ge hroom, hop⟩)

theorem message_owns_iff (hplain : hdr.byteSize ≤ len → params = []) :
    OwnsBytes T build op c ↔ (c.msgAt + len ≤ BOUNCE_POOL_SIZE →
      c.msgAt + hdr.byteSize ≤ BOUNCE_POOL_SIZE → hdr.byteSize ≤ len) := by
  rcases prepareMsg_cases c hop hcount hfew with
    ⟨hfull, hrun⟩ | ⟨hfull, hrun⟩ | ⟨hfit, hroom, hmsg, hrun⟩
  · exact iff_of_true (owns_of_refused T build c hrun rfl) fun h => absurd hfull (not_lt.mpr h)
  · exact iff_of_true (owns_of_refused T build c hrun rfl)
      fun _ h => absurd hfull (not_lt.mpr h)
  have hpool : BOUNCE_POOL_SIZE < UInt32.size := by decide
  have hcookie := toNat_ofNat_of_pool (le_trans (Nat.le_add_right _ _) hfit)
  have hlen : (UInt32.ofNat hdr.byteSize).toNat = hdr.byteSize :=
    UInt32.toNat_ofNat_of_lt' (by omega)
  rw [ownsBytes_of_ok_iff hrun rfl]
  constructor
  · rintro ⟨-, howned⟩ _ _
    by_contra hlong
    refine not_msgOwned (decodeMsg_withMsg hmsg _) (.inr ?_) howned
    intro r hr
    rw [mem_singleton.mp hr, hcookie]
    exact Nat.add_lt_add_left (lt_of_not_ge hlong) _
  · intro h
    have hle := Nat.add_le_add_left (h hfit hroom) c.msgAt
    have hnone := hplain (h hfit hroom)
    constructor
    · intro i hi
      have hin := byte_withMsg hmsg hi
      rw [hcookie] at hin
      exact ⟨_, mem_singleton_self _, hin.1, lt_of_lt_of_le hin.2 hle⟩
    · refine ⟨hdr, params, decodeMsg_withMsg hmsg _, ⟨_, mem_singleton_self _, ?_⟩, ?_,
        by simp [hnone]⟩
      · rw [hcookie]
        exact ⟨le_refl _, hle⟩
      · rw [hlen]
        exact ⟨le_refl _, le_refl _⟩

end Message

theorem plain_owns {hdr : MsgArgHdr} (hop : prepare op c = preparePlain hdr c)
    (hplain : hdr.numParams = 0) : OwnsBytes T build op c := by
  have hcount : ([] : List MsgParam).length = hdr.numParams.toNat := by
    rw [hplain]
    rfl
  refine (message_owns_iff T build c hop hcount (Nat.zero_le _) fun _ => rfl).mpr fun _ _ => ?_
  rw [MsgArgHdr.byteSize, hplain]
  rfl

theorem low_not_owns {hdr : MsgArgHdr} {p : MsgParam} {c0 : Context τ}
    (hop : prepare op c = stage 32 hdr [p] (fun _ => 32) c0) (hone : hdr.numParams = 1)
    {new : List Range} (hnew : c0.used = c.used ++ new) : ¬ OwnsBytes T build op c := by
  have hsize : hdr.byteSize = 64 := by
    rw [MsgArgHdr.byteSize, hone]
    rfl
  have hmsg : MsgFits 32 hdr [p] := by
    refine ⟨by decide, ?_, by simp, ?_⟩
    · rw [hone]
      rfl
    · rw [hsize]
      decide
  rw [stage_of_fits hmsg] at hop
  rw [ownsBytes_of_ok_iff hop hnew]
  rintro ⟨-, howned⟩
  refine not_msgOwned (decodeMsg_withMsg hmsg c0) (.inl ?_) howned
  rw [hsize]
  decide

/-- The message of `open_session` is 32 bytes longer than what is allocated for it. -/
theorem openSession_owns_iff (dest : Client.Uuid) (login : UInt32) :
    OwnsBytes T build (.openSession dest login) c ↔
      (ContextOp.openSession dest login).Tidy c.bump := by
  have hlong : MSG_ARG_ALIGN * 8 < openMsgHdr.byteSize := by decide
  have htidy : (ContextOp.openSession dest login).Tidy c.bump ↔ BOUNCE_POOL_SIZE <
      c.msgAt + openMsgHdr.byteSize := Iff.rfl
  rw [htidy, message_owns_iff T build c rfl rfl (Nat.le_of_ble_eq_true rfl)
    fun hle => absurd hlong (not_lt.mpr hle)]
  omega

/-- `register_shm` writes its message at offset 32. -/
theorem prepareRegister_of_fits {size : Nat} (hsize : size ≤ TEEC_CONFIG_SHAREDMEM_MAX_SIZE)
    (hfit : roundUp c.bump PAGE_SIZE + max size PAGE_SIZE ≤ BOUNCE_POOL_SIZE) :
    prepare (.registerShm size) c = stage 32 ⟨MSG_CMD_REGISTER_SHM, 0, 0, 0, 0, 0, 0, 1⟩
      [⟨ATTR_TYPE_TMEM_INPUT, UInt64.ofNat (roundUp c.bump PAGE_SIZE), UInt64.ofNat size,
        UInt64.ofNat (roundUp c.bump PAGE_SIZE)⟩] (fun _ => 32)
      (c.allocated (roundUp c.bump PAGE_SIZE) (roundUp c.bump PAGE_SIZE + max size PAGE_SIZE)) := by
  rw [prepare, if_neg (not_lt.mpr hsize), bind_of_ok (alloc_of_fits hfit)]

theorem prepareRegister_of_full {size : Nat} (h : size ≤ TEEC_CONFIG_SHAREDMEM_MAX_SIZE →
      BOUNCE_POOL_SIZE < roundUp c.bump PAGE_SIZE + max size PAGE_SIZE) :
    ∃ e, prepare (.registerShm size) c = (.err e, c) := by
  rw [prepare]
  split
  · exact ⟨_, rfl⟩
  · rename_i hsize
    exact ⟨_, bind_of_err (alloc_of_full (h (not_lt.mp hsize)))⟩

theorem registerShm_owns_iff (size : Nat) :
    OwnsBytes T build (.registerShm size) c ↔ (ContextOp.registerShm size).Tidy c.bump := by
  constructor
  · intro howns hsize
    by_contra hfit
    exact low_not_owns T build c (prepareRegister_of_fits c hsize (not_lt.mp hfit)) rfl rfl
      howns
  · intro htidy
    obtain ⟨e, hop⟩ := prepareRegister_of_full c htidy
    exact owns_of_refused T build c hop rfl

section Shm

variable (session cmd : UInt32)

/-- The ranges of `invoke_shm`: message, input and output. -/
def shmRanges (cookie srcLen dstLen : Nat) : List Range :=
  [⟨cookie, cookie + (MSG_ARG_HDR_SIZE + MSG_PARAM_SIZE * 2)⟩,
    ⟨shmIn cookie, shmIn cookie + max srcLen 1⟩,
    ⟨shmOut cookie srcLen, shmOut cookie srcLen + max dstLen 1⟩]

/-- Without room for one of its ranges, or if a size is refused, `invoke_shm` has written
nothing. -/
theorem prepareShm_of_full (src dst : Bytes) (hfull : src.length ≤ TEEC_CONFIG_SHAREDMEM_MAX_SIZE ∧
        dst.length ≤ TEEC_CONFIG_SHAREDMEM_MAX_SIZE → BOUNCE_POOL_SIZE <
      shmOut c.msgAt src.length + max dst.length 1) :
    ∃ e c1 n, prepare (.invokeShm session cmd src dst) c = (.err e, c1) ∧ c1.bounce = c.bounce ∧
      c1.used = c.used ++ (shmRanges c.msgAt src.length dst.length).take n := by
  rw [prepare]
  split
  · exact ⟨_, _, 0, rfl, rfl, (append_nil _).symm⟩
  rename_i hsizes
  rw [not_or, not_lt, not_lt] at hsizes
  by_cases hmsg : c.msgAt + (MSG_ARG_HDR_SIZE + MSG_PARAM_SIZE * 2) ≤ BOUNCE_POOL_SIZE
  · rw [bind_of_ok (alloc_of_fits hmsg)]
    by_cases hin : shmIn c.msgAt + max src.length 1 ≤ BOUNCE_POOL_SIZE
    · rw [bind_of_ok (alloc_of_fits hin), bind_of_err (alloc_of_full (hfull hsizes))]
      exact ⟨_, _, 2, rfl, rfl, append_assoc _ _ _⟩
    · rw [bind_of_err (alloc_of_full (lt_of_not_ge hin))]
      exact ⟨_, _, 1, rfl, rfl, rfl⟩
  · rw [bind_of_err (alloc_of_full (lt_of_not_ge hmsg))]
    exact ⟨_, _, 0, rfl, rfl, (append_nil _).symm⟩

variable {src dst : Bytes}

theorem prepareShm_of_fits (hsrc : src.length ≤ TEEC_CONFIG_SHAREDMEM_MAX_SIZE)
    (hdst : dst.length ≤ TEEC_CONFIG_SHAREDMEM_MAX_SIZE)
    (hlayout : Layout c.msgAt src dst) :
    prepare (.invokeShm session cmd src dst) c =
      (.ok (UInt64.ofNat c.msgAt,
          UInt32.ofNat (shmLen c.msgAt src.length dst.length)),
        (c.shmAllocated src.length dst.length).shmFilled session cmd src dst
          c.msgAt) := by
  have hsizes : ¬ (src.length > TEEC_CONFIG_SHAREDMEM_MAX_SIZE ∨
      dst.length > TEEC_CONFIG_SHAREDMEM_MAX_SIZE) := by
    omega
  have hbounds := shm_bounds c.msgAt src.length
  have hfit := hlayout.inside
  have hmsg : c.msgAt + (MSG_ARG_HDR_SIZE + MSG_PARAM_SIZE * 2) ≤ BOUNCE_POOL_SIZE := by
    omega
  have hinput : shmIn c.msgAt + max src.length 1 ≤ BOUNCE_POOL_SIZE := by
    omega
  have hlen : max ((UInt64.ofNat
        (shmOut c.msgAt src.length)).toNat + dst.length)
      ((UInt64.ofNat c.msgAt).toNat + (shmHdr session cmd).byteSize) -
      (UInt64.ofNat c.msgAt).toNat = shmLen c.msgAt src.length dst.length := by
    rw [hlayout.toNat_cookie, hlayout.toNat_outOff]
    rfl
  rw [prepare, if_neg hsizes, bind_of_ok (alloc_of_fits hmsg),
    bind_of_ok (alloc_of_fits hinput), bind_of_ok (alloc_of_fits hfit)]
  refine (bind_of_ok rfl).trans ?_
  rw [← hlen]
  exact stage_of_fits (hlayout.msgFits _ rfl rfl) _ _

theorem shmFilled_used (cookie : Nat) :
    ((c.shmAllocated src.length dst.length).shmFilled session cmd src dst cookie).used =
      c.used ++ shmRanges c.msgAt src.length dst.length := by
  simp [shmFilled, withMsg, shmAllocated, allocated, shmRanges]

theorem byte_shmFilled {cookie : Nat} (h : Layout cookie src dst) {i : Nat}
    (hi : (c.shmFilled session cmd src dst cookie).bounce.byte i ≠ c.bounce.byte i) :
    ∃ r ∈ shmRanges cookie src.length dst.length, r.Has i := by
  by_cases hmsg : cookie ≤ i ∧ i < cookie + (MSG_ARG_HDR_SIZE + MSG_PARAM_SIZE * 2)
  · exact ⟨_, mem_cons_self, hmsg⟩
  · have hbeside : (c.shmFilled session cmd src dst cookie).bounce.byte i =
        (c.bounce.put (UInt64.ofNat (shmIn cookie)).toNat src).byte i := by
      by_contra hne
      have hin := byte_withMsg (h.msgFits (shmHdr session cmd) rfl rfl) hne
      rw [h.toNat_cookie] at hin
      exact hmsg hin
    rw [hbeside, h.toNat_inOff] at hi
    have hin : shmIn cookie ≤ i ∧ i < shmIn cookie + src.length := by
      by_contra hout
      exact hi (Pool.byte_put_outside (by omega))
    refine ⟨_, mem_cons_of_mem _ mem_cons_self, hin.1, ?_⟩
    exact lt_of_lt_of_le hin.2 (Nat.add_le_add_left (le_max_left _ _) _)

theorem shmParams_owned {cookie : Nat} (h : Layout cookie src dst) {p : MsgParam}
    (hp : p ∈ shmParams (UInt64.ofNat (shmIn cookie))
      (UInt64.ofNat (shmOut cookie src.length)) src dst) {m : Range}
    (hm : memref p = some m) : (∃ r ∈ shmRanges cookie src.length dst.length, m.Inside r) ∧
      m.Inside ⟨cookie, cookie + shmLen cookie src.length dst.length⟩ := by
  have hbounds := shm_bounds cookie src.length
  have hlen := shmLen_eq cookie src.length dst.length
  rw [hlen]
  rcases mem_cons.mp hp with rfl | hp
  · have hinput : m = ⟨shmIn cookie, shmIn cookie + src.length⟩ := by
      rw [memref_of_input, h.toNat_inOff, h.toNat_inLen] at hm
      exact (Option.some.inj hm).symm
    subst hinput
    refine ⟨⟨_, mem_cons_of_mem _ mem_cons_self, le_refl _, ?_⟩, ?_, ?_⟩
    · exact Nat.add_le_add_left (le_max_left _ _) _
    · dsimp only
      omega
    · dsimp only
      omega
  · have houtput : m = ⟨shmOut cookie src.length,
        shmOut cookie src.length + dst.length⟩ := by
      rw [mem_singleton.mp hp, memref_of_output, h.toNat_outOff, h.toNat_outLen] at hm
      exact (Option.some.inj hm).symm
    subst houtput
    refine ⟨⟨_, mem_cons_of_mem _ (mem_cons_of_mem _ mem_cons_self),
      le_refl _, ?_⟩, ?_, le_refl _⟩
    · exact Nat.add_le_add_left (le_max_left _ _) _
    · dsimp only
      omega

/-- Message, input and output of `invoke_shm` are allocated, and the window ends with the
output. -/
theorem invokeShm_owns (src dst : Bytes) :
    OwnsBytes T build (.invokeShm session cmd src dst) c := by
  by_cases hroom : (src.length ≤ TEEC_CONFIG_SHAREDMEM_MAX_SIZE ∧
      dst.length ≤ TEEC_CONFIG_SHAREDMEM_MAX_SIZE) ∧
      shmOut c.msgAt src.length + max dst.length 1 ≤ BOUNCE_POOL_SIZE
  swap
  · obtain ⟨e, c1, n, hop, hsame, -⟩ := prepareShm_of_full c session cmd src dst fun hsizes =>
      lt_of_not_ge fun hfit => hroom ⟨hsizes, hfit⟩
    exact owns_of_refused T build c hop hsame
  obtain ⟨hsizes, hfit⟩ := hroom
  have hlayout : Layout c.msgAt src dst := ⟨roundUp_mod _ _, hfit⟩
  have hop := prepareShm_of_fits c session cmd hsizes.1 hsizes.2 hlayout
  have hlen := shmLen_eq c.msgAt src.length dst.length
  have hbounds := shm_bounds c.msgAt src.length
  rw [ownsBytes_of_ok_iff hop (shmFilled_used c session cmd _)]
  constructor
  · intro i hi
    exact byte_shmFilled (c.shmAllocated src.length dst.length) session cmd hlayout hi
  · refine ⟨shmHdr session cmd, _, decodeMsg_withMsg (hlayout.msgFits _ rfl rfl) _,
      ⟨_, mem_cons_self, ?_⟩, ?_, ?_⟩
    · rw [hlayout.toNat_cookie]
      exact ⟨le_refl _, le_refl _⟩
    · rw [hlayout.toNat_cookie, hlayout.toNat_len]
      refine ⟨le_refl _, ?_⟩
      have hsize : (shmHdr session cmd).byteSize = MSG_ARG_HDR_SIZE + MSG_PARAM_SIZE * 2 := rfl
      dsimp only
      rw [hsize]
      omega
    · intro p hp m hm
      rw [hlayout.toNat_cookie, hlayout.toNat_len]
      exact shmParams_owned hlayout hp hm

end Shm

theorem ownsBytes_iff_tidy (op : ContextOp) : OwnsBytes T build op c ↔ op.Tidy c.bump := by
  cases op with
  | openSession dest login => exact openSession_owns_iff T build c dest login
  | invoke | closeSession => exact iff_of_true (plain_owns T build c rfl rfl) trivial
  | invokeShm session cmd src dst =>
    exact iff_of_true (invokeShm_owns T build c session cmd src dst) trivial
  | registerShm size => exact registerShm_owns_iff T build c size
  | unregisterShm =>
    have hnew : c.used = c.used ++ [] := (append_nil _).symm
    exact iff_of_false (low_not_owns T build c rfl rfl hnew) id

end Step

/-! ### Allocated ranges -/

/-- The log grows by ranges that lie one behind the other, from the bump pointer to where it has
moved. -/
def growing (τ : Type) : Frame (Context τ) where
  rel c c' := ∃ new, c'.used = c.used ++ new ∧ Stacked Range.start Range.stop c.bump new c'.bump
  refl c := ⟨[], (append_nil _).symm, le_refl _⟩
  trans := by
    rintro a b c ⟨new, hnew, hstacked⟩ ⟨new', hnew', hstacked'⟩
    exact ⟨new ++ new', by rw [hnew', hnew, append_assoc], hstacked.append hstacked'⟩

theorem prepare_growing (op : ContextOp) : Keeps (growing τ) (prepare op) := by
  have hsame (c c' : Context τ) (hused : c'.used = c.used) (hbump : c'.bump = c.bump) :
      (growing τ).rel c c' := ⟨[], by simp [hused], le_of_eq hbump.symm⟩
  refine prepare_walk (σ := τ) (P := fun x _ => Keeps (growing τ) x) (fun h h' => h.bind h')
    keeps_pure keeps_raise ?_ ?_ (fun _ _ c => hsame c _ rfl rfl) op
  · intro len align halign c
    rcases alloc_cases len align c with h | h
    · rw [h]
      exact hsame c c rfl rfl
    · rw [h]
      exact ⟨_, rfl, le_roundUp _ halign, Nat.le_add_right _ _, le_refl _⟩
  · intro cookie hdr params c
    rw [putMsg]
    split <;> exact hsame c _ rfl rfl

theorem enter_bump (T : Transport τ) (cookie : UInt64) (len : UInt32) (c : Context τ) :
    (enter T cookie len c).2.bump = c.bump := by
  rw [enter]
  split <;> rfl

section

variable (T : Transport τ) (build : Build)
include T build

theorem perform_bump (op : ContextOp) (c : Context τ) :
    (perform T build op c).bump = (prepare op c).2.bump := by
  rcases prepare_cases op c with ⟨w, c1, hok⟩ | hnot
  · rw [perform_of_ok hok, enter_bump, hok]
  · rw [perform_of_not_ok hnot]

/-- The ranges of one operation are between the bump pointers before and after it. -/
theorem allocs_stacked (op : ContextOp) (c : Context τ) :
    Stacked Range.start Range.stop c.bump (allocs T build op c) (perform T build op c).bump := by
  obtain ⟨new, hnew, hstacked⟩ := prepare_growing op c
  rw [allocs_eq hnew, perform_bump]
  exact hstacked

variable (ops : List ContextOp) (c : Context τ)

theorem runAllocs_stacked : Stacked Range.start Range.stop c.bump (runAllocs T build ops c)
      (run T build ops c).bump := by
  induction ops generalizing c with
  | nil => exact le_refl _
  | cons op ops ih => exact (allocs_stacked T build op c).append (ih (perform T build op c))

theorem eachOwns_iff_eachTidy : EachOwns T build ops c ↔ EachTidy T build ops c := by
  induction ops generalizing c with
  | nil => exact Iff.rfl
  | cons op ops ih => rw [EachOwns, EachTidy, ih, ownsBytes_iff_tidy]

end

/-- In every run the ranges a context allocates are pairwise apart, and every operation owns its
bytes exactly if every operation is tidy from the bump pointer it finds. -/
theorem messages_own_bytes_iff (T : Transport τ) (build : Build) (ops : List ContextOp)
    (c : Context τ) :
    (runAllocs T build ops c).Pairwise (Apart Range.start Range.stop) ∧
      (EachOwns T build ops c ↔ EachTidy T build ops c) :=
  ⟨(runAllocs_stacked T build ops c).apart, eachOwns_iff_eachTidy T build ops c⟩

def idleTransport : Transport Unit where
  enter := fun frame pool _ t => (.ok frame, pool, t)

def nilUuid : Client.Uuid := ⟨0, 0, 0, Block.zero 8⟩

/-- `open_session` writes and sends 96 bytes from 4096 on and has 64 of them; the next operation
gets the others. Of the 64 bytes of the message of `register_shm` half are sent. -/
theorem message_beyond_allocation :
    (crossings idleTransport .release (.openSession nilUuid 0)
        (new ())).map (fun x => (x.cookie, x.len)) = [(4096, 96)] ∧
      runAllocs idleTransport .release [.openSession nilUuid 0, .invoke 1 0]
        (new ()) = [⟨4096, 4160⟩, ⟨4160, 4192⟩] ∧
      ¬ EachOwns idleTransport .release [.openSession nilUuid 0, .invoke 1 0] (new ()) ∧
      ¬ EachOwns idleTransport .release [.registerShm 1] (new ()) := by
  refine ⟨by decide +kernel, by decide +kernel, ?_, ?_⟩
  · rintro ⟨howns, -⟩
    have hroom : ¬ BOUNCE_POOL_SIZE < roundUp PAGE_SIZE MSG_ARG_ALIGN +
        (MSG_ARG_HDR_SIZE + MSG_PARAM_SIZE * 2) := by decide
    exact hroom ((openSession_owns_iff _ _ _ _ _).mp howns)
  · rintro ⟨howns, -⟩
    have hsize : 1 ≤ TEEC_CONFIG_SHAREDMEM_MAX_SIZE := by decide
    have hroom : ¬ BOUNCE_POOL_SIZE < roundUp PAGE_SIZE PAGE_SIZE + max 1 PAGE_SIZE := by decide
    have htidy : (ContextOp.registerShm 1).Tidy PAGE_SIZE :=
      (registerShm_owns_iff idleTransport .release (new ()) 1).mp howns
    exact hroom (htidy hsize)

end Rustee.Client
