import Rustee.ClientRanges

/-!
# The client's ranges and the window of the guest

(`Context::alloc` of `gp-client`, `pack_load_ta` of the guest).

The guest packs its request for a TA image at a fixed offset of the pool and takes the image right
behind it. The client knows nothing of that window. An accepted operation that fits uses every
byte from its start to its end, so it must end below the window or start behind it.
-/

namespace Rustee.Client

open Virt Guest Attempt List ContextOp Context

variable {τ : Type}

/-! ### The window of the guest -/

/-- Behind the request come the bytes of the image, up to the capacity it offers. -/
def rpcWindow : Range :=
  ⟨RPC_COOKIE.toNat,
    RPC_COOKIE.toNat + (MSG_ARG_HDR_SIZE + 2 * MSG_PARAM_SIZE) + LOAD_TA_CAP.toNat⟩

def Range.Clear (r : Range) : Prop := r.stop ≤ rpcWindow.start ∨ rpcWindow.stop ≤ r.start

instance (r : Range) : Decidable r.Clear := inferInstanceAs (Decidable (_ ∨ _))

/-- What the operation needs from a bump pointer at `bump` is below the window or behind
it. -/
def ContextOp.AvoidsWindow (op : ContextOp) (bump : Nat) : Prop :=
  op.Accepted → op.stop (roundUp bump op.align) ≤ rpcWindow.start ∨
    rpcWindow.stop ≤ roundUp bump op.align

/-- Every operation of the run avoids the window from where the bump pointer is then. -/
def EachAvoids (T : Transport τ) (build : Build) : List ContextOp → Context τ → Prop
  | [], _ => True
  | op :: ops, c => op.AvoidsWindow c.bump ∧ EachAvoids T build ops (perform T build op c)

/-! ### What an operation adds to the log -/

/-- Below the first page, or between `lo` and `hi`. -/
def Within (lo hi : Nat) (r : Range) : Prop := r.stop ≤ PAGE_SIZE ∨ (lo ≤ r.start ∧ r.stop ≤ hi)

/-- The ranges `new` are added; if `hi` is in the pool they have every byte from `lo` on. -/
structure Fills (lo hi : Nat) (c c' : Context τ) (new : List Range) : Prop where
  used : c'.used = c.used ++ new
  within : ∀ r ∈ new, Within lo hi r
  covers : hi ≤ BOUNCE_POOL_SIZE → ∀ x, lo ≤ x → x < hi → ∃ r ∈ new, r.Has x

section Log

variable (T : Transport τ) (build : Build) {op : ContextOp} {c c1 : Context τ}

theorem used_of_ok {cookie : UInt64} {len : UInt32} {new : List Range}
    (h : prepare op c = (.ok (cookie, len), c1)) (hnew : c1.used = c.used ++ new) :
    (perform T build op c).used =
      c.used ++ (new ++ [⟨cookie.toNat, cookie.toNat + len.toNat⟩]) := by
  rw [perform_of_ok h, enter_used, hnew, append_assoc]

theorem used_of_err {e : UInt32} {new : List Range} (h : prepare op c = (.err e, c1))
    (hnew : c1.used = c.used ++ new) : (perform T build op c).used = c.used ++ new := by
  rw [perform_of_not_ok (by rw [h]; simp), h]
  exact hnew

theorem message_fills {len : Nat} {hdr : MsgArgHdr} {params : List MsgParam}
    (hop : prepare op c = (alloc len MSG_ARG_ALIGN >>= fun cookie =>
      stage cookie hdr params UInt32.ofNat) c)
    (hcount : params.length = hdr.numParams.toNat) (hfew : params.length ≤ 6)
    (hle : len ≤ hdr.byteSize) :
    ∃ new, Fills c.msgAt (c.msgAt + hdr.byteSize) c
      (perform T build op c) new := by
  rcases prepareMsg_cases c hop hcount hfew with
    ⟨hfull, hrun⟩ | ⟨hfull, hrun⟩ | ⟨hfit, hroom, -, hrun⟩
  · refine ⟨[], used_of_err T build hrun (append_nil _).symm, by simp, ?_⟩
    intro hroom
    omega
  · refine ⟨_, used_of_err T build hrun rfl, ?_, ?_⟩
    · intro r hr
      rw [mem_singleton.mp hr]
      exact .inr ⟨le_refl _, Nat.add_le_add_left hle _⟩
    · intro hroom
      omega
  · have hpool : BOUNCE_POOL_SIZE < UInt32.size := by decide
    have hcookie := toNat_ofNat_of_pool (le_trans (Nat.le_add_right _ _) hfit)
    have hlen : (UInt32.ofNat hdr.byteSize).toNat = hdr.byteSize :=
      UInt32.toNat_ofNat_of_lt' (by omega)
    have hused := used_of_ok T build hrun rfl
    rw [hcookie, hlen] at hused
    refine ⟨_, hused, ?_, ?_⟩
    · intro r hr
      rcases mem_cons.mp hr with rfl | hr
      · exact .inr ⟨le_refl _, Nat.add_le_add_left hle _⟩
      · rw [mem_singleton.mp hr]
        exact .inr ⟨le_refl _, le_refl _⟩
    · intro _ x hlo hhi
      exact ⟨_, mem_cons_of_mem _ (mem_singleton_self _), hlo, hhi⟩

theorem registerShm_fills {size : Nat} (hsize : size ≤ TEEC_CONFIG_SHAREDMEM_MAX_SIZE) :
    ∃ new, Fills (roundUp c.bump PAGE_SIZE) (roundUp c.bump PAGE_SIZE + max size PAGE_SIZE) c
      (perform T build (.registerShm size) c) new := by
  by_cases hfit : roundUp c.bump PAGE_SIZE + max size PAGE_SIZE ≤ BOUNCE_POOL_SIZE
  · have hrun := prepareRegister_of_fits c hsize hfit
    rw [stage_of_fits ⟨by decide, rfl, Nat.le_of_ble_eq_true rfl, by decide⟩] at hrun
    refine ⟨_, used_of_ok T build hrun rfl, ?_, ?_⟩
    · intro r hr
      rcases mem_cons.mp hr with rfl | hr
      · exact .inr ⟨le_refl _, le_refl _⟩
      · rw [mem_singleton.mp hr]
        exact .inl (by decide)
    · intro _ x hlo hhi
      exact ⟨_, mem_cons_self, hlo, hhi⟩
  · obtain ⟨e, hrun⟩ := prepareRegister_of_full c fun _ => lt_of_not_ge hfit
    exact ⟨[], used_of_err T build hrun (append_nil _).symm, by simp,
      fun hroom => absurd hroom hfit⟩

/-- The ranges of `invoke_shm` are between its message and the end of its output. -/
theorem shmRanges_within (cookie srcLen dstLen : Nat) :
    ∀ r ∈ shmRanges cookie srcLen dstLen,
      Within cookie (shmOut cookie srcLen + max dstLen 1) r := by
  have hbounds := shm_bounds cookie srcLen
  simp only [shmRanges, forall_mem_cons, Within]
  refine ⟨.inr ⟨le_refl _, ?_⟩, .inr ⟨?_, ?_⟩, .inr ⟨?_, le_refl _⟩, by simp⟩ <;>
    omega

theorem invokeShm_fills (session cmd : UInt32) {src dst : Bytes}
    (hsrc : src.length ≤ TEEC_CONFIG_SHAREDMEM_MAX_SIZE)
    (hdst : dst.length ≤ TEEC_CONFIG_SHAREDMEM_MAX_SIZE) :
    ∃ new, Fills c.msgAt
      (shmOut c.msgAt src.length + max dst.length 1) c
      (perform T build (.invokeShm session cmd src dst) c) new := by
  have hwithin := shmRanges_within c.msgAt src.length dst.length
  by_cases hfit : shmOut c.msgAt src.length + max dst.length 1 ≤ BOUNCE_POOL_SIZE
  · have hlayout : Layout c.msgAt src dst := ⟨roundUp_mod _ _, hfit⟩
    have hbounds := shm_bounds c.msgAt src.length
    have hused := used_of_ok T build (prepareShm_of_fits c session cmd hsrc hdst hlayout)
      (shmFilled_used c session cmd _)
    rw [hlayout.toNat_cookie, hlayout.toNat_len, shmLen_eq] at hused
    refine ⟨_, hused, ?_, ?_⟩
    · intro r hr
      rcases mem_append.mp hr with hr | hr
      · exact hwithin r hr
      · rw [mem_singleton.mp hr]
        exact .inr ⟨le_refl _, Nat.add_le_add_left (le_max_left _ _) _⟩
    · -- up to the output what is sent has the byte, behind that the allocation
      intro _ x hlo hhi
      by_cases hx : x < shmOut c.msgAt src.length
      · exact ⟨_, mem_append_right _ (mem_singleton_self _), hlo,
          lt_of_lt_of_le hx (Nat.le_add_right _ _)⟩
      · exact ⟨_, mem_append_left _ (mem_cons_of_mem _ (mem_cons_of_mem _
          mem_cons_self)), le_of_not_gt hx, hhi⟩
  · obtain ⟨e, c1, n, hrun, -, hnew⟩ := prepareShm_of_full c session cmd src dst
      fun _ => lt_of_not_ge hfit
    exact ⟨_, used_of_err T build hrun hnew, fun r hr => hwithin r (mem_of_mem_take hr),
      fun hroom => absurd hroom hfit⟩

theorem perform_fills (hop : op.Accepted) : ∃ new, Fills (roundUp c.bump op.align)
    (op.stop (roundUp c.bump op.align)) c (perform T build op c) new := by
  cases op with
  | openSession dest login =>
    have hrun : prepare (.openSession dest login) c = (alloc _ MSG_ARG_ALIGN >>= fun cookie =>
      stage cookie openMsgHdr (openMsgParams dest login) UInt32.ofNat) c := rfl
    exact message_fills T build hrun rfl (Nat.le_of_ble_eq_true rfl) (by decide)
  | invoke session cmd =>
    have hrun : prepare (.invoke session cmd) c = preparePlain _ c := rfl
    exact message_fills T build hrun rfl (Nat.zero_le _) (Nat.le_refl _)
  | invokeShm session cmd => exact invokeShm_fills T build session cmd hop.1 hop.2
  | closeSession session =>
    have hrun : prepare (.closeSession session) c = preparePlain _ c := rfl
    exact message_fills T build hrun rfl (Nat.zero_le _) (Nat.le_refl _)
  | registerShm => exact registerShm_fills T build hop
  | unregisterShm => exact hop.elim

/-- An operation whose sizes are refused takes nothing; `unregister_shm` needs no space. -/
theorem perform_refused (hop : ¬ op.Accepted) : ∃ new,
    (perform T build op c).used = c.used ++ new ∧ ∀ r ∈ new, r.stop ≤ PAGE_SIZE := by
  cases op with
  | openSession | invoke | closeSession => exact absurd trivial hop
  | invokeShm session cmd src dst =>
    have hrun : prepare (.invokeShm session cmd src dst) c =
        (.err TEEC_ERROR_BAD_PARAMETERS, c) := by
      rw [prepare, if_pos (by rw [ContextOp.Accepted] at hop; omega)]
      rfl
    exact ⟨[], used_of_err T build hrun (append_nil _).symm, by simp⟩
  | registerShm =>
    obtain ⟨e, hrun⟩ := prepareRegister_of_full c fun hsize => absurd hsize hop
    exact ⟨[], used_of_err T build hrun (append_nil _).symm, by simp⟩
  | unregisterShm cookie =>
    have hrun : prepare (.unregisterShm cookie) c = _ :=
      stage_of_fits ⟨by decide, rfl, Nat.le_of_ble_eq_true rfl, by decide⟩ _ c
    refine ⟨_, used_of_ok T build hrun (append_nil _).symm, ?_⟩
    intro r hr
    rw [mem_singleton.mp hr]
    decide

end Log

/-! ### Avoiding the window -/

/-- An accepted operation needs some space, and three buffers of the greatest size have room
for it. -/
theorem stop_bounds {op : ContextOp} (hop : op.Accepted) (start : Nat) :
    start < op.stop start ∧ op.stop start ≤ start + 3 * TEEC_CONFIG_SHAREDMEM_MAX_SIZE := by
  have hmsg : MSG_ARG_HDR_SIZE + MSG_PARAM_SIZE * 2 + 2 * MSG_ARG_ALIGN + 2 + PAGE_SIZE ≤
      TEEC_CONFIG_SHAREDMEM_MAX_SIZE := by decide
  have hpos : 0 < MSG_ARG_HDR_SIZE ∧ 0 < PAGE_SIZE := by decide
  cases op with
  | openSession | invoke | closeSession => rw [stop]; omega
  | invokeShm session cmd src =>
    have hbounds := shm_bounds start src.length
    obtain ⟨hsrc, hdst⟩ := hop
    rw [stop]
    omega
  | registerShm size =>
    have hsize : size ≤ TEEC_CONFIG_SHAREDMEM_MAX_SIZE := hop
    rw [stop]
    omega
  | unregisterShm => exact hop.elim

theorem perform_clear_iff (T : Transport τ) (build : Build) (op : ContextOp) (c : Context τ) :
    (∀ r ∈ (perform T build op c).used, r.Clear) ↔
      (∀ r ∈ c.used, r.Clear) ∧ op.AvoidsWindow c.bump := by
  have hpage : PAGE_SIZE ≤ rpcWindow.start := by decide
  by_cases hop : op.Accepted
  swap
  · obtain ⟨new, hnew, hlow⟩ := perform_refused T build (c := c) hop
    rw [hnew, forall_mem_append]
    refine and_congr_right fun _ => iff_of_true ?_ fun h => absurd h hop
    exact fun r hr => .inl (le_trans (hlow r hr) hpage)
  obtain ⟨new, hnew, hwithin, hcovers⟩ := perform_fills T build (c := c) hop
  rw [hnew, forall_mem_append]
  refine and_congr_right fun _ => ⟨?_, ?_⟩
  · intro hclear _
    by_contra hmeets
    rw [not_or, not_le, not_le] at hmeets
    -- the first byte that is both the operation's and the window's
    have hwindow : rpcWindow.start < rpcWindow.stop := by decide
    have hroom : rpcWindow.stop + 3 * TEEC_CONFIG_SHAREDMEM_MAX_SIZE ≤ BOUNCE_POOL_SIZE := by decide
    have hstop := stop_bounds hop (roundUp c.bump op.align)
    have hfirst : max (roundUp c.bump op.align) rpcWindow.start <
        op.stop (roundUp c.bump op.align) := Nat.max_lt.mpr ⟨hstop.1, hmeets.1⟩
    obtain ⟨r, hr, hlo, hhi⟩ := hcovers (by omega) _ (le_max_left _ _) hfirst
    rcases hclear r hr with h | h
    · omega
    · omega
  · intro havoids r hr
    rcases hwithin r hr with hlow | ⟨hlo, hhi⟩
    · exact .inl (le_trans hlow hpage)
    · rcases havoids hop with hbelow | hbehind
      · exact .inl (le_trans hhi hbelow)
      · exact .inr (le_trans hbehind hlo)

theorem run_clear_iff (T : Transport τ) (build : Build) (ops : List ContextOp) (c : Context τ) :
    (∀ r ∈ (run T build ops c).used, r.Clear) ↔
      (∀ r ∈ c.used, r.Clear) ∧ EachAvoids T build ops c := by
  induction ops generalizing c with
  | nil => exact ⟨fun h => ⟨h, trivial⟩, fun h => h.1⟩
  | cons op ops ih => rw [run, ih, perform_clear_iff, EachAvoids, and_assoc]

/-- In a run, no range that the context allocates or transmits meets the window of the
guest exactly when every operation avoids the window from the bump pointer it finds. -/
theorem ranges_clear_iff (T : Transport τ) (build : Build) (t : τ) (ops : List ContextOp) :
    (∀ r ∈ (run T build ops (new t)).used, r.Clear) ↔ EachAvoids T build ops (new t) := by
  rw [run_clear_iff]
  constructor
  · exact fun h => h.2
  · intro h
    refine ⟨?_, h⟩
    intro r hr
    cases hr

/-- Sixteen registrations of the greatest size: the last one lies across the start of the
window. -/
theorem registrations_reach_window :
    ¬ ∀ r ∈ (run idleTransport .debug
      (replicate 16 (.registerShm TEEC_CONFIG_SHAREDMEM_MAX_SIZE)) (new ())).used,
      r.Clear := by
  decide +kernel

end Rustee.Client
