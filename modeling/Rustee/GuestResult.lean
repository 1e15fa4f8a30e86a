import Rustee.GuestDecode
import Rustee.OsAddressSpaces
import Rustee.ProtoMsg

/-!
# What `write_done` leaves in the message (`write_done` of `proto_cmd.rs`)

The kernel's answer goes back into the message of the request. `write_done` walks the parameters on
its own, so its walk has to agree with that of `decode_cmd`: the slot of a parameter is the number
of parameters before it that are not meta, in both. Only the result fields change. The sizes of a
TA's outputs are among them, the values are not.
-/

namespace Rustee.Guest

open Os Virt Fallible MsgArgHdr List Pool

/-! ### On slices -/

section
variable (build : Build)

/-- `decode_cmd` -/
def decodeCmdIn (s : Slice) (cookie : UInt64) : Fallible Unit KernelCmd :=
  match decodeMsgIn build s cookie with
  | .err _ => .err ()
  | .panic => .panic
  | .ok (hdr, buf, _) => .ofOption () (decoded hdr (buf.toList.take hdr.numParams.toNat))

/-- `write_done`; what `write_msg` returns is ignored. -/
def writeDoneIn (cookie : UInt64) (ret origin session : UInt32)
    (produced : Params) : Attempt Slice Unit Unit := fun s =>
  match decodeMsgIn build s cookie with
  | .err _ => (.ok (), s)
  | .panic => (.panic, s)
  | .ok (hdr, buf, _) =>
    let hdr := { hdr with ret := ret, retOrigin := origin, session := session }
    match writeMsgIn cookie hdr
        (producedSizes produced (buf.toList.take hdr.numParams.toNat) 0) s with
    | (.panic, s') => (.panic, s')
    | (_, s') => (.ok (), s')

theorem decodeCmdIn_ofPool (pool : Pool) (cookie : UInt64) :
    decodeCmdIn build (.ofPool pool) cookie = decodeCmd build pool cookie := by
  have hmsg := decodeMsg_eq_in build pool cookie
  rw [decodeCmdIn]
  cases hdecode : decodeMsgIn build (.ofPool pool) cookie with
  | ok =>
    rw [hdecode, ok_bind] at hmsg
    exact (decodeCmd_eq hmsg).symm
  | err =>
    rw [hdecode, err_bind] at hmsg
    rw [decodeCmd, hmsg]
  | panic =>
    rw [hdecode, panic_bind] at hmsg
    rw [decodeCmd, hmsg]

end

theorem writeDoneIn_ofPool {build : Build} {pool pool' : Pool} {cookie : UInt64}
    {ret origin session : UInt32} {produced : Params}
    (h : writeDone build pool cookie ret origin session produced = .ok pool') :
    writeDoneIn build cookie ret origin session produced (.ofPool pool) =
      (.ok (), .ofPool pool') := by
  have hmsg := decodeMsg_eq_in build pool cookie
  rw [writeDone] at h
  rw [writeDoneIn]
  cases hdecode : decodeMsgIn build (.ofPool pool) cookie with
  | ok =>
    rw [hdecode, ok_bind] at hmsg
    rw [hmsg] at h
    simp only [counted] at h
    simp only [writeMsgIn_eq_writeMsg]
    split at h
    · rename_i heq
      cases h
      rw [heq]
    · rename_i heq
      cases h
      rw [heq]
  | err =>
    rw [hdecode, err_bind] at hmsg
    rw [hmsg] at h
    cases h
    rfl
  | panic =>
    rw [hdecode, panic_bind] at hmsg
    rw [hmsg] at h
    cases h

/-! ### The walk over the parameters -/

/-- The place of the `k`-th parameter among those that are not meta. -/
def slotOf (params : List MsgParam) (k : Nat) : Nat := (nonMeta (params.take k)).length

/-- What `write_done` makes of a parameter in a slot. -/
def sized (produced : Params) (slot : Nat) (p : MsgParam) : MsgParam :=
  if p.isMeta then p
  else if h : slot < PARAM_COUNT then
    match produced.get ⟨slot, h⟩ with
    | .memref _ size dir => if dir = .input then p else { p with b := size }
    | _ => p
  else p

theorem slotOf_succ (p : MsgParam) (ps : List MsgParam) (k : Nat) :
    slotOf (p :: ps) (k + 1) = slotOf ps k + if p.isMeta then 0 else 1 := by
  rw [slotOf, take_succ_cons]
  by_cases hmeta : p.isMeta
  · rw [nonMeta_cons_meta hmeta, if_pos hmeta]
    rfl
  · rw [nonMeta_cons_user hmeta, if_neg hmeta]
    rfl

theorem sized_past (produced : Params) {slot : Nat} (h : ¬ slot < PARAM_COUNT) (p : MsgParam) :
    sized produced slot p = p := by
  rw [sized, dif_neg h, ite_self]

section
variable (produced : Params) (ps : List MsgParam)

/-- The walk of `write_done` gives every parameter its slot. -/
theorem getElem?_producedSizes (ui k : Nat) :
    (producedSizes produced ps ui)[k]? =
      (ps[k]?).map fun p => sized produced (ui + slotOf ps k) p := by
  induction ps generalizing ui k with
  | nil => rfl
  | cons p ps ih =>
    rw [producedSizes]
    by_cases hmeta : p.isMeta
    · rw [if_pos hmeta]
      cases k with
      | zero =>
        show some p = some (sized _ _ p)
        rw [sized, if_pos hmeta]
      | succ =>
        rw [getElem?_cons_succ, getElem?_cons_succ, ih, slotOf_succ, if_pos hmeta]
        rfl
    · rw [if_neg hmeta]
      by_cases hroom : ui < PARAM_COUNT
      · rw [dif_pos hroom]
        cases k with
        | zero =>
          have hsized : sized produced ui p = _ := (if_neg hmeta).trans (dif_pos hroom)
          exact congrArg some hsized.symm
        | succ =>
          rw [getElem?_cons_succ, getElem?_cons_succ, ih, slotOf_succ, if_neg hmeta,
            Nat.add_right_comm, Nat.add_assoc]
      · rw [dif_neg hroom]
        cases k with
        | zero =>
          show some p = some (sized _ ui p)
          rw [sized_past produced hroom]
        | succ =>
          rw [getElem?_cons_succ, getElem?_cons_succ, ih]
          have hpast : ∀ n, ¬ ui + n < PARAM_COUNT := by
            intro n
            omega
          simp only [sized_past produced (hpast _)]

theorem length_producedSizes (ui : Nat) : (producedSizes produced ps ui).length = ps.length := by
  induction ps generalizing ui with
  | nil => rfl
  | cons p ps ih =>
    rw [producedSizes]
    split_ifs <;> exact congrArg Nat.succ (ih _)

end

variable {params : List MsgParam} {p : MsgParam} {k : Nat}

theorem userParams_slot (hp : params[k]? = some p) (huser : ¬ p.isMeta) {j : Fin PARAM_COUNT}
    (hslot : slotOf params k = j.val) : (userParams params 0 noParams).get j = param p := by
  have hget : (nonMeta params)[j.val]? = some p := by
    obtain ⟨hk, hget⟩ := List.getElem?_eq_some_iff.mp hp
    have hsplit : params = params.take k ++ p :: params.drop (k + 1) := by
      rw [← hget, ← drop_eq_getElem_cons hk, take_append_drop]
    rw [hsplit, nonMeta, filter_append, ← nonMeta, ← nonMeta, nonMeta_cons_user huser,
      ← hslot, slotOf, getElem?_append_right (Nat.le_refl _), Nat.sub_self]
    rfl
  rw [userParams_get_zero, hget]

/-! ### The bytes that change -/

def MsgArgHdr.answered (hdr : MsgArgHdr) (ret origin session : UInt32) : MsgArgHdr :=
  { hdr with ret := ret, retOrigin := origin, session := session }

theorem MsgArgHdr.encode_answered (hdr : MsgArgHdr) (ret origin session : UInt32) {o : Nat}
    (h : (hdr.answered ret origin session).encode[o]? ≠ hdr.encode[o]?) :
    (8 ≤ o ∧ o < 12) ∨ (20 ≤ o ∧ o < 28) := by
  by_contra hout
  apply h
  rw [encode, encode, getElem?_flatMap (n := 4) (fun _ => rfl) (by decide),
    getElem?_flatMap (n := 4) (fun _ => rfl) (by decide)]
  congr 1
  -- the words 2, 5 and 6 are the ones written
  rcases hq : o / 4 with _ | _ | _ | _ | _ | _ | _ | _ | q <;> first | rfl | omega

theorem MsgParam.encode_size (p : MsgParam) (size : UInt64) {o : Nat}
    (h : ({ p with b := size } : MsgParam).encode[o]? ≠ p.encode[o]?) : 16 ≤ o ∧ o < 24 := by
  by_contra hout
  apply h
  rw [encode, encode, getElem?_flatMap (n := 8) (fun _ => rfl) (by decide),
    getElem?_flatMap (n := 8) (fun _ => rfl) (by decide)]
  congr 1
  rcases hq : o / 8 with _ | _ | _ | _ | q <;> first | rfl | omega

section Writes

variable {build : Build} {s : Slice} {cookie : UInt64} {hdr : MsgArgHdr} {params : List MsgParam}

/-- The message after `write_done`. -/
theorem writeDoneIn_of_msgAt (h : MsgAt s cookie hdr params) (ret origin session : UInt32)
    (produced : Params) :
    writeDoneIn build cookie ret origin session produced s = (.ok (), s.put cookie.toNat
      (msgBytes (hdr.answered ret origin session) (producedSizes produced params 0))) := by
  have hdecode : decodeMsgIn build s cookie = .ok (hdr, padded params, hdr.byteSize) :=
    decodeMsgIn_eq_ok_iff.mpr ⟨hdr, params, h, rfl⟩
  have hparams : (padded params).toList.take hdr.numParams.toNat = params :=
    take_padded h.count (h.count ▸ h.few)
  have hcount : (producedSizes produced params 0).length = hdr.numParams.toNat := by
    rw [length_producedSizes, h.count]
  have hwrite : writeMsgIn cookie (hdr.answered ret origin session)
      (producedSizes produced params 0) s = _ := writeMsgIn_of_inside h.align hcount h.inside
  rw [answered] at hwrite
  simp only [writeDoneIn, hdecode, hparams, hwrite, answered]

theorem decodeCmdIn_of_msgAt (build : Build) (h : MsgAt s cookie hdr params) :
    decodeCmdIn build s cookie = .ofOption () (decoded hdr params) := by
  have hdecode : decodeMsgIn build s cookie = .ok (hdr, padded params, hdr.byteSize) :=
    decodeMsgIn_eq_ok_iff.mpr ⟨hdr, params, h, rfl⟩
  rw [decodeCmdIn, hdecode]
  simp only [take_padded h.count (h.count ▸ h.few)]

theorem writeDoneIn_of_not (h : ∀ r, decodeMsgIn build s cookie ≠ .ok r)
    (ret origin session : UInt32) (produced : Params) :
    (writeDoneIn build cookie ret origin session produced s).2 = s := by
  rw [writeDoneIn]
  split
  · rfl
  · rfl
  · rename_i hok
    exact absurd hok (h _)

theorem getElem?_msgBytes_param (hdr : MsgArgHdr) (params : List MsgParam) (off : Nat) :
    (msgBytes hdr params)[MSG_ARG_HDR_SIZE + off]? =
      (params[off / MSG_PARAM_SIZE]?).bind fun p => p.encode[off % MSG_PARAM_SIZE]? := by
  have hpast : hdr.encode.length ≤ MSG_ARG_HDR_SIZE + off := Nat.le_add_right _ _
  rw [msgBytes, getElem?_append_right hpast, length_encode, Nat.add_sub_cancel_left]
  exact getElem?_flatMap MsgParam.length_encode (by decide) _ _

def ReturnsSize (params : List MsgParam) (user : Params) (k : Nat) : Prop :=
  ∃ p, params[k]? = some p ∧ ¬ p.isMeta ∧ ∃ j : Fin PARAM_COUNT, slotOf params k = j.val ∧
    ∃ src size dir, user.get j = .memref src size dir ∧ dir ≠ .input

/-- The fields of a result: `session`, `ret` and `ret_origin` of the header, and `b` of the
parameters whose size is written back. -/
def ResultByte (cookie : Nat) (params : List MsgParam) (user : Params) (i : Nat) : Prop :=
  (cookie + 8 ≤ i ∧ i < cookie + 12) ∨ (cookie + 20 ≤ i ∧ i < cookie + 28) ∨
    ∃ k, ReturnsSize params user k ∧ cookie + 32 + 32 * k + 16 ≤ i ∧ i < cookie + 32 + 32 * k + 24

theorem sized_ne {produced : Params} (hp : params[k]? = some p)
    (h : sized produced (slotOf params k) p ≠ p) :
    ReturnsSize params produced k ∧
      ∃ size, sized produced (slotOf params k) p = { p with b := size } := by
  rw [sized] at h
  split_ifs at h with huser hroom
  · exact absurd rfl h
  · cases hget : produced.get ⟨slotOf params k, hroom⟩ with
    | memref src size dir =>
      rw [hget] at h
      by_cases hdir : dir = .input
      · exact absurd (if_pos hdir) h
      · refine ⟨⟨p, hp, huser, ⟨_, hroom⟩, rfl, src, size, dir, hget, hdir⟩, size, ?_⟩
        rw [sized, if_neg huser, dif_pos hroom, hget]
        exact if_neg hdir
    | none | value =>
      rw [hget] at h
      exact absurd rfl h
  · exact absurd rfl h

theorem msgBytes_result (ret origin session : UInt32) (produced : Params) {off : Nat}
    (h : (msgBytes (hdr.answered ret origin session) (producedSizes produced params 0))[off]? ≠
      (msgBytes hdr params)[off]?) : ResultByte 0 params produced off := by
  by_cases hhdr : off < MSG_ARG_HDR_SIZE
  · rw [msgBytes, msgBytes, getElem?_append_left (by rwa [length_encode]),
      getElem?_append_left (by rwa [length_encode])] at h
    rcases encode_answered hdr ret origin session h with hsession | hret
    · exact .inl (by omega)
    · exact .inr (.inl (by omega))
  · obtain ⟨rest, rfl⟩ := Nat.exists_eq_add_of_le (not_lt.mp hhdr)
    rw [getElem?_msgBytes_param, getElem?_msgBytes_param, getElem?_producedSizes, zero_add] at h
    cases hp : params[rest / MSG_PARAM_SIZE]? with
    | none =>
      rw [hp] at h
      exact absurd rfl h
    | some p =>
      rw [hp, Option.map_some, Option.bind_some, Option.bind_some] at h
      by_cases hsame : sized produced (slotOf params (rest / MSG_PARAM_SIZE)) p = p
      · rw [hsame] at h
        exact absurd rfl h
      · obtain ⟨hreturns, size, hsize⟩ := sized_ne hp hsame
        rw [hsize] at h
        have hb := MsgParam.encode_size p size h
        rw [MSG_PARAM_SIZE] at hb hreturns
        rw [MSG_ARG_HDR_SIZE]
        exact .inr (.inr ⟨rest / 32, hreturns, by omega⟩)

/-- The frame of `write_done`, for all that may be produced. -/
theorem writeDoneIn_frame (h : MsgAt s cookie hdr params) (ret origin session : UInt32)
    (produced : Params) {i : Nat}
    (hi : (writeDoneIn build cookie ret origin session produced s).2.bytes.byte i ≠
      s.bytes.byte i) : ResultByte cookie.toNat params produced i := by
  rw [writeDoneIn_of_msgAt h] at hi
  have hcount : (producedSizes produced params 0).length =
      (hdr.answered ret origin session).numParams.toNat := by
    rw [length_producedSizes]
    exact h.count
  by_cases hin : cookie.toNat ≤ i ∧ i < cookie.toNat + hdr.byteSize
  · obtain ⟨off, rfl⟩ := Nat.exists_eq_add_of_le hin.1
    have hoff : off < hdr.byteSize := by omega
    have hnew : off < (msgBytes (hdr.answered ret origin session)
        (producedSizes produced params 0)).length := by
      rw [length_msgBytes hcount]
      exact hoff
    have hold : (msgBytes hdr params)[off]? = some (s.bytes.byte (cookie.toNat + off)) := by
      rw [← h.bytes, Pool.get, getElem?_map, getElem?_range hoff]
      rfl
    have hresult : ResultByte 0 params produced off := by
      apply msgBytes_result ret origin session
      rw [hold, getElem?_eq_getElem hnew]
      intro hsome
      apply hi
      rw [Slice.put_bytes, byte_put_inside _ _ hnew]
      exact Option.some.inj hsome
    rcases hresult with hsession | hret | ⟨k, hreturns, hb⟩
    · exact .inl (by omega)
    · exact .inr (.inl (by omega))
    · exact .inr (.inr ⟨k, hreturns, by omega⟩)
  · refine absurd (byte_put_outside ?_) hi
    rw [length_msgBytes hcount]
    show i < cookie.toNat ∨ cookie.toNat + hdr.byteSize ≤ i
    omega

end Writes

/-! ### The frame of a result -/

def paramsOf : KernelCmd → Params
  | .openSession _ _ params _ _ => params
  | .invoke _ _ params _ _ => params
  | _ => noParams

/-- The parameters `decode_cmd` gives the kernel. -/
def decodedParams (build : Build) (s : Slice) (cookie : UInt64) : Params :=
  match decodeCmdIn build s cookie with
  | .ok cmd => paramsOf cmd
  | _ => noParams

def OutputsOnly : Param → Param → Prop
  | .none, .none => True
  | .value a b dir, .value a' b' dir' => dir' = dir ∧ (dir = .input → a' = a ∧ b' = b)
  | .memref src size dir, .memref src' size' dir' =>
    src' = src ∧ dir' = dir ∧ (dir = .input → size' = size)
  | _, _ => False

theorem OutputsOnly.of_memref {p : Param} {src : MemrefSrc} {size : UInt64} {dir : Dir}
    (h : OutputsOnly p (.memref src size dir)) : ∃ size', p = .memref src size' dir := by
  cases p with
  | none | value => cases h
  | memref src' size' =>
    obtain ⟨rfl, rfl, -⟩ := h
    exact ⟨size', rfl⟩

theorem ReturnsSize.of_outputsOnly {user produced : Params}
    (hproduced : ∀ j, OutputsOnly (user.get j) (produced.get j))
    (h : ReturnsSize params produced k) : ReturnsSize params user k := by
  obtain ⟨p, hp, huser, j, hslot, src, size, dir, hget, hdir⟩ := h
  have houtput := hproduced j
  rw [hget] at houtput
  obtain ⟨size', hsize'⟩ := houtput.of_memref
  exact ⟨p, hp, huser, j, hslot, src, size', dir, hsize', hdir⟩

/-- `write_done` touches only the fields of the result. -/
theorem write_done_touches_results (build : Build) (s : Slice) (cookie : UInt64)
    (ret origin session : UInt32) (produced : Params)
    (hproduced : ∀ j, OutputsOnly ((decodedParams build s cookie).get j) (produced.get j)) :
    let s' := (writeDoneIn build cookie ret origin session produced s).2
    s'.len = s.len ∧ ((∀ r, decodeMsgIn build s cookie ≠ .ok r) → s' = s) ∧
      ∀ hdr buf n, decodeMsgIn build s cookie = .ok (hdr, buf, n) →
        ∀ i, s'.bytes.byte i ≠ s.bytes.byte i → ResultByte cookie.toNat
          (buf.toList.take hdr.numParams.toNat) (decodedParams build s cookie) i := by
  intro s'
  have hnot : (∀ r, decodeMsgIn build s cookie ≠ .ok r) → s' = s := by
    intro h
    exact writeDoneIn_of_not h ret origin session produced
  refine ⟨?_, hnot, ?_⟩
  · by_cases hdecodes : ∃ r, decodeMsgIn build s cookie = .ok r
    · obtain ⟨r, hr⟩ := hdecodes
      obtain ⟨hdr, params, hmsg, -⟩ := decodeMsgIn_eq_ok_iff.mp hr
      show (writeDoneIn build cookie ret origin session produced s).2.len = s.len
      rw [writeDoneIn_of_msgAt hmsg]
      rfl
    · rw [hnot (not_exists.mp hdecodes)]
  · intro hdr buf n hdecode i hi
    obtain ⟨hdr, params, hmsg, heq⟩ := decodeMsgIn_eq_ok_iff.mp hdecode
    cases heq
    rw [take_padded hmsg.count (hmsg.count ▸ hmsg.few)]
    rcases writeDoneIn_frame hmsg ret origin session produced hi with hsession | hret | ⟨k, hk, hb⟩
    · exact .inl hsession
    · exact .inr (.inl hret)
    · exact .inr (.inr ⟨k, hk.of_outputsOnly hproduced, hb⟩)

/-- A message that invokes the command 7 of the session 3, in the slice of zeros. -/
def invokeHdr (n : UInt32) : MsgArgHdr := ⟨MSG_CMD_INVOKE_COMMAND, 7, 3, 0, 0, 0, 0, n⟩

def invokeSlice (n : UInt32) (params : List MsgParam) : Slice :=
  zeroSlice.put (64 : UInt64).toNat (msgBytes (invokeHdr n) params)

theorem invokeSlice_msgAt {n : UInt32} (hcount : params.length = n.toNat)
    (hfew : n.toNat ≤ 6) : MsgAt (invokeSlice n params) 64 (invokeHdr n) params := by
  refine msgAt_put rfl hcount (hcount ▸ hfew) ?_
  show 64 + (MSG_ARG_HDR_SIZE + MSG_PARAM_SIZE * n.toNat) ≤ 4096
  rw [MSG_ARG_HDR_SIZE, MSG_PARAM_SIZE]
  omega

def bufferParams : List MsgParam :=
  [⟨ATTR_TYPE_VALUE_INPUT ||| ATTR_META, 0x11, 0x22, 0⟩, ⟨ATTR_TYPE_TMEM_OUTPUT, 512, 256, 0⟩]

def bufferUser (size : UInt64) : Params :=
  #v[.memref (.ree 512 0) size .output, .none, .none, .none]

theorem buffer_msgAt : MsgAt (invokeSlice 2 bufferParams) 64 (invokeHdr 2) bufferParams :=
  invokeSlice_msgAt rfl (by decide)

theorem buffer_decoded : decodeCmdIn .release (invokeSlice 2 bufferParams) 64 =
    .ok (.invoke 3 7 (bufferUser 256) 0 TEE_TIMEOUT_INFINITE) := by
  rw [decodeCmdIn_of_msgAt .release buffer_msgAt]
  rfl

theorem write_done_touches_results_sample :
    decodedParams .release (invokeSlice 2 bufferParams) 64 = bufferUser 256 ∧
      ∀ i, (writeDoneIn .release 64 0 4 3 (bufferUser 17)
          (invokeSlice 2 bufferParams)).2.bytes.byte i ≠ (invokeSlice 2 bufferParams).bytes.byte i →
        ResultByte 64 bufferParams (bufferUser 256) i := by
  have hparams : decodedParams .release (invokeSlice 2 bufferParams) 64 = bufferUser 256 := by
    rw [decodedParams, buffer_decoded]
    rfl
  have hproduced : ∀ j, OutputsOnly ((decodedParams .release (invokeSlice 2 bufferParams) 64).get j)
      ((bufferUser 17).get j) := by
    intro j
    rw [hparams]
    match j with
    | 0 => exact ⟨rfl, rfl, fun h => nomatch h⟩
    | 1 | 2 | 3 => trivial
  have htouches := (write_done_touches_results .release _ 64 0 4 3 _ hproduced).2.2 _ _ _
    (decodeMsgIn_eq_ok_iff.mpr ⟨_, _, buffer_msgAt, rfl⟩)
  rw [hparams] at htouches
  exact ⟨hparams, htouches⟩

/-! ### The outputs of a TA -/

section Outputs

variable {build : Build} {s : Slice} {cookie : UInt64} {hdr : MsgArgHdr} {params : List MsgParam}

theorem MsgAt.param (h : MsgAt s cookie hdr params)
    (hp : params[k]? = some p) : msgParamAt s cookie.toNat k = p := by
  have hread := h.read.2
  rw [← hread] at hp
  obtain ⟨hk, hget⟩ := List.getElem?_eq_some_iff.mp hp
  rw [← hget]
  simp [paramsAt]

theorem sized_a (produced : Params) (slot : Nat) (p : MsgParam) :
    (sized produced slot p).a = p.a := by
  rw [sized]
  split_ifs
  · rfl
  · split
    · split_ifs <;> rfl
    · rfl
  · rfl

theorem sized_congr {produced produced' : Params} {slot : Nat}
    (h : ∀ hroom : slot < PARAM_COUNT, produced.get ⟨slot, hroom⟩ = produced'.get ⟨slot, hroom⟩)
    (p : MsgParam) : sized produced slot p = sized produced' slot p := by
  by_cases hroom : slot < PARAM_COUNT
  · rw [sized, sized, dif_pos hroom, dif_pos hroom, h hroom]
  · rw [sized_past produced hroom, sized_past produced' hroom]

/-- A parameter of the message after `write_done`. -/
theorem msgParamAt_of_msgAt (build : Build) (hmsg : MsgAt s cookie hdr params)
    (hp : params[k]? = some p) (ret origin session : UInt32) (produced : Params) :
    msgParamAt (writeDoneIn build cookie ret origin session produced s).2 cookie.toNat k =
      sized produced (slotOf params k) p := by
  have hcount : (producedSizes produced params 0).length =
      (hdr.answered ret origin session).numParams.toNat := by
    rw [length_producedSizes]
    exact hmsg.count
  have hfew : (producedSizes produced params 0).length ≤ 6 := by
    rw [length_producedSizes]
    exact hmsg.few
  rw [writeDoneIn_of_msgAt hmsg]
  apply (msgAt_put hmsg.align hcount hfew hmsg.inside).param
  rw [getElem?_producedSizes, hp, zero_add]
  rfl

/-- What stands in the place of a parameter after `write_done`. -/
theorem msgParamAt_writeDone (build : Build) (s : Slice) (cookie : UInt64) (k : Nat) :
    (∃ hdr params p, MsgAt s cookie hdr params ∧ params[k]? = some p ∧
      ∀ ret origin session produced, msgParamAt
        (writeDoneIn build cookie ret origin session produced s).2 cookie.toNat k =
          sized produced (slotOf params k) p) ∨ ∀ ret origin session produced, msgParamAt
      (writeDoneIn build cookie ret origin session produced s).2 cookie.toNat k =
        msgParamAt s cookie.toNat k := by
  by_cases hdecodes : ∃ r, decodeMsgIn build s cookie = .ok r
  · obtain ⟨r, hr⟩ := hdecodes
    obtain ⟨hdr, params, hmsg, -⟩ := decodeMsgIn_eq_ok_iff.mp hr
    cases hp : params[k]? with
    | some p =>
      refine .inl ⟨hdr, params, p, hmsg, hp, ?_⟩
      exact msgParamAt_of_msgAt build hmsg hp
    | none =>
      refine .inr ?_
      intro ret origin session produced
      have hk : params.length ≤ k := getElem?_eq_none_iff.mp hp
      have hcount : (producedSizes produced params 0).length =
          (hdr.answered ret origin session).numParams.toNat := by
        rw [length_producedSizes]
        exact hmsg.count
      rw [writeDoneIn_of_msgAt hmsg, msgParamAt, msgParamAt, Slice.put_bytes, get_put_beside]
      refine .inr ?_
      rw [length_msgBytes hcount, byteSize_eq, ← hcount, length_producedSizes]
      exact Nat.add_le_add_left (Nat.mul_le_mul_right _ hk) _
  · refine .inr ?_
    intro ret origin session produced
    rw [writeDoneIn_of_not (not_exists.mp hdecodes)]

section
variable (params : List MsgParam)

/-- The `k`-th parameter of the message is not meta and has the slot `j`. -/
def DeclaredIn (k : Nat) (p : MsgParam) (j : Fin PARAM_COUNT) : Prop :=
  params[k]? = some p ∧ ¬ p.isMeta ∧ slotOf params k = j.val

/-- The message carries what the TA left: both numbers of an output value, and the size of
an output memref. -/
def OutputsCarried (raw : RawParams) (s : Slice) (cookie : UInt64) :
    Prop :=
  ∀ k p j dir, DeclaredIn params k p j → dir ≠ Dir.input →
    (ty p = valueType dir →
      (msgParamAt s cookie.toNat k).a = (raw.get j).valueA.toUInt64 ∧
        (msgParamAt s cookie.toNat k).b = (raw.get j).valueB.toUInt64) ∧
    (ty p = tmemType dir → (msgParamAt s cookie.toNat k).b = (raw.get j).memrefSize)

def NoValueOutputs : Prop :=
  ∀ k p j dir, DeclaredIn params k p j → dir ≠ Dir.input → ty p ≠ valueType dir

/-- In the pool the TA left, the output memrefs still have their places and their slots. -/
def InPlace (s : Slice) (cookie : UInt64) : Prop :=
  ∀ k p j dir, DeclaredIn params k p j → dir ≠ Dir.input → ty p = tmemType dir →
    ∃ hdr' params' p', MsgAt s cookie hdr' params' ∧ DeclaredIn params' k p' j

end

def rawSize (j : Fin PARAM_COUNT) (size : UInt64) : RawParams :=
  Vector.ofFn fun i => if i = j then .ofMemref 0 size else .none

theorem get_rawSize (j i : Fin PARAM_COUNT) (size : UInt64) :
    (rawSize j size).get i = if i = j then .ofMemref 0 size else .none :=
  Vector.getElem_ofFn i.isLt

/-- The message after `params_from_raw` and `write_done`. -/
def resultIn (build : Build) (s : Slice) (cookie : UInt64) (ret origin session : UInt32)
    (user : Params) (raw : RawParams) : Slice :=
  (writeDoneIn build cookie ret origin session (paramsFromRaw user raw) s).2

section
variable (user : Params)

/-- The `a` of a place does not depend on what the TA left. -/
theorem resultIn_a (raw raw' : RawParams) (k : Nat) :
    (msgParamAt (resultIn build s cookie 0 0 0 user raw) cookie.toNat k).a =
      (msgParamAt (resultIn build s cookie 0 0 0 user raw') cookie.toNat k).a := by
  rcases msgParamAt_writeDone build s cookie k with ⟨hdr, params, p, -, -, hparam⟩ | hparam
  · rw [resultIn, resultIn, hparam, hparam, sized_a, sized_a]
  · rw [resultIn, resultIn, hparam, hparam]

section

variable (h : ∀ raw, OutputsCarried params raw (resultIn build s cookie 0 0 0 user raw) cookie)
include h

theorem noValueOutputs_of_carried : NoValueOutputs params := by
  intro k p j dir hdecl hdir htype
  let one : RawParams := Vector.replicate PARAM_COUNT (.ofValue 1 0)
  let zero : RawParams := Vector.replicate PARAM_COUNT .none
  have hone := ((h one k p j dir hdecl hdir).1 htype).1
  have hzero := ((h zero k p j dir hdecl hdir).1 htype).1
  have hgetOne : one.get j = .ofValue 1 0 := Vector.getElem_replicate j.isLt
  have hgetZero : zero.get j = .none := Vector.getElem_replicate j.isLt
  rw [resultIn_a user one zero, hzero, hgetOne, hgetZero] at hone
  exact absurd hone (by decide)

theorem inPlace_of_carried : InPlace params s cookie := by
  intro k p j dir hdecl hdir htype
  -- the TA may leave the sizes 0 and 1 in the slot, so the place has to follow the slot
  have hsize : ∀ size, (msgParamAt (resultIn build s cookie 0 0 0 user (rawSize j size))
      cookie.toNat k).b = size := by
    intro size
    rw [(h (rawSize j size) k p j dir hdecl hdir).2 htype, get_rawSize, if_pos rfl]
    rfl
  have hdiffer : msgParamAt (resultIn build s cookie 0 0 0 user (rawSize j 0)) cookie.toNat k ≠
      msgParamAt (resultIn build s cookie 0 0 0 user (rawSize j 1)) cookie.toNat k := by
    intro hsame
    have hzero := hsize 0
    rw [hsame, hsize 1] at hzero
    exact absurd hzero (by decide)
  rcases msgParamAt_writeDone build s cookie k with ⟨hdr', params', p', hmsg, hp', hparam⟩ | hparam
  · refine ⟨hdr', params', p', hmsg, hp', ?_, ?_⟩
    · intro hmeta
      apply hdiffer
      rw [resultIn, resultIn, hparam, hparam, sized, sized, if_pos hmeta, if_pos hmeta]
    · by_contra hslot
      apply hdiffer
      rw [resultIn, resultIn, hparam, hparam]
      apply sized_congr
      intro hroom
      have hne : (⟨slotOf params' k, hroom⟩ : Fin PARAM_COUNT) ≠ j := by
        intro heq
        exact hslot (congrArg Fin.val heq)
      rw [get_paramsFromRaw, get_paramsFromRaw, get_rawSize, get_rawSize, if_neg hne, if_neg hne]
  · refine absurd ?_ hdiffer
    rw [resultIn, resultIn, hparam, hparam]

end

end

theorem outputsCarried_of_inPlace (hvalues : NoValueOutputs params)
    (hplace : InPlace params s cookie) (ret origin session : UInt32) (raw : RawParams) :
    OutputsCarried params raw (resultIn build s cookie ret origin session
      (userParams params 0 noParams) raw) cookie := by
  intro k p j dir hdecl hdir
  refine ⟨fun htype => absurd htype (hvalues k p j dir hdecl hdir), ?_⟩
  intro htype
  obtain ⟨hdr', params', p', hmsg', hp', huser', hslot'⟩ := hplace k p j dir hdecl hdir htype
  have hproduced : (paramsFromRaw (userParams params 0 noParams) raw).get j =
      .memref (.ree p.a 0) (raw.get j).memrefSize dir := by
    rw [get_paramsFromRaw, userParams_slot hdecl.1 hdecl.2.1 hdecl.2.2, param_of_tmem htype]
    cases dir with
    | input => exact absurd rfl hdir
    | output | inout => rfl
  have hroom : slotOf params' k < PARAM_COUNT := hslot' ▸ j.isLt
  have hj : (⟨slotOf params' k, hroom⟩ : Fin PARAM_COUNT) = j := Fin.ext hslot'
  rw [resultIn, msgParamAt_of_msgAt build hmsg' hp', sized, if_neg huser', dif_pos hroom, hj,
    hproduced]
  simp only [if_neg hdir]

theorem paramsOf_decoded {cmd : KernelCmd} (h : decoded hdr params = some cmd)
    (hcall : hdr.cmd = MSG_CMD_OPEN_SESSION ∨ hdr.cmd = MSG_CMD_INVOKE_COMMAND) :
    paramsOf cmd = userParams params 0 noParams := by
  have hdiffer : MSG_CMD_INVOKE_COMMAND ≠ MSG_CMD_OPEN_SESSION := by decide
  rw [decoded] at h
  rcases hcall with hopen | hinvoke
  · rw [if_pos hopen] at h
    cases h
    rfl
  · rw [if_neg (hinvoke ▸ hdiffer), if_pos hinvoke] at h
    cases h
    rfl

/-- Outputs travel back in every run exactly if no value is among them and the TA leaves the
message in place. -/
theorem outputs_carried_iff (build : Build) (s s' : Slice) (cookie : UInt64) (cmd : KernelCmd)
    (hdr : MsgArgHdr) (buf : ParamBuf) (n : Nat)
    (hmsg : decodeMsgIn build s cookie = .ok (hdr, buf, n))
    (hcmd : decodeCmdIn build s cookie = .ok cmd)
    (hcall : hdr.cmd = MSG_CMD_OPEN_SESSION ∨ hdr.cmd = MSG_CMD_INVOKE_COMMAND) :
    let params := buf.toList.take hdr.numParams.toNat
    (∀ ret origin session raw, OutputsCarried params raw
      (writeDoneIn build cookie ret origin session (paramsFromRaw (paramsOf cmd) raw) s').2
      cookie) ↔ NoValueOutputs params ∧ InPlace params s' cookie := by
  intro params
  have hdecoded : decoded hdr params = some cmd := by
    rw [decodeCmdIn, hmsg] at hcmd
    exact ofOption_eq_ok.mp hcmd
  rw [paramsOf_decoded hdecoded hcall]
  constructor
  · intro h
    exact ⟨noValueOutputs_of_carried _ (h 0 0 0), inPlace_of_carried _ (h 0 0 0)⟩
  · rintro ⟨hvalues, hplace⟩ ret origin session raw
    exact outputsCarried_of_inPlace hvalues hplace ret origin session raw

end Outputs

theorem outputs_carried_iff_sample : ∃ cmd,
    decodeCmdIn .release (invokeSlice 2 bufferParams) 64 = .ok cmd ∧
      ∀ ret origin session raw, OutputsCarried bufferParams raw
        (writeDoneIn .release 64 ret origin session (paramsFromRaw (paramsOf cmd) raw)
          (invokeSlice 2 bufferParams)).2 64 := by
  refine ⟨_, buffer_decoded, ?_⟩
  have hiff := outputs_carried_iff .release _ (invokeSlice 2 bufferParams) 64 _ _ _ _
    (decodeMsgIn_eq_ok_iff.mpr ⟨_, _, buffer_msgAt, rfl⟩) buffer_decoded (.inr rfl)
  refine hiff.mpr ⟨?_, fun k p j dir hdecl _ _ => ⟨_, _, p, buffer_msgAt, hdecl⟩⟩
  rintro k p j dir ⟨hp, huser, -⟩ -
  match k with
  | 0 =>
    cases hp
    exact absurd (by decide) huser
  | 1 =>
    cases hp
    cases dir <;> decide

def valueParams : List MsgParam := [⟨ATTR_TYPE_VALUE_OUTPUT, 0, 0, 0⟩]

/-- The TA leaves the numbers 7 and 9, and the message keeps its zeros. -/
theorem output_value_lost : ∃ cmd, decodeCmdIn .release (invokeSlice 1 valueParams) 64 = .ok cmd ∧
    ¬ OutputsCarried valueParams (Vector.replicate PARAM_COUNT (.ofValue 7 9))
      (writeDoneIn .release 64 0 4 3
        (paramsFromRaw (paramsOf cmd) (Vector.replicate PARAM_COUNT (.ofValue 7 9)))
        (invokeSlice 1 valueParams)).2 64 := by
  have hmsg : MsgAt (invokeSlice 1 valueParams) 64 (invokeHdr 1) valueParams :=
    invokeSlice_msgAt rfl (by decide)
  have hcmd : decodeCmdIn .release (invokeSlice 1 valueParams) 64 =
      .ok (.invoke 3 7 #v[.value 0 0 .output, .none, .none, .none] 0 TEE_TIMEOUT_INFINITE) := by
    rw [decodeCmdIn_of_msgAt .release hmsg]
    rfl
  refine ⟨_, hcmd, ?_⟩
  intro hcarried
  have ha := ((hcarried 0 _ 0 .output ⟨rfl, by decide, rfl⟩ (by decide)).1 rfl).1
  rw [msgParamAt_of_msgAt .release hmsg rfl, sized_a] at ha
  exact absurd ha (by decide)

end Rustee.Guest
