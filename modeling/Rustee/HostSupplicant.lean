import Rustee.ClientWire
import Rustee.ProtoMsg

/-!
# The supplicant (`host/rustee-supplicant/src/lib.rs`)

The answers to the guest's RPCs. Clock, files and file-system requests belong to the host and are
parameters. The answer to LOAD_TA is followed in detail: which file it is, where in the pool its
bytes go, and what is left of the message when there is nothing to send.
-/

namespace Rustee.Supplicant

open Virt Guest Client Attempt List Pool

def RPC_CMD_FS : UInt32 := 2
def RPC_CMD_GET_TIME : UInt32 := 3
def RPC_FS_OPEN : UInt32 := 0
def RPC_FS_CREATE : UInt32 := 1

inductive SuppError where
  | badCmd
  | io
  | notFound
deriving Repr, DecidableEq

/-- What the supplicant reaches of the host. A path is relative to its root. -/
structure HostOs (ω : Type) where
  /-- Seconds and nanoseconds. -/
  getTime : ω → UInt32 × UInt32
  /-- `fs::read(root.join(path))` -/
  readFile : List Char → ω → Option Bytes
  /-- `fs(op, name, fd, off, &[])`, the name as it is in the pool: the number returned. -/
  fs : UInt32 → Bytes → UInt32 → UInt32 → ω → Except SuppError UInt32 × ω

variable {ω : Type} (uuid : Os.Uuid)

abbrev SM (ω α : Type) := Attempt (Pool × ω) SuppError α

/-- `ta/<uuid_hex>.ta` -/
def taPath (uuidHex : List Char) : List Char := "ta/".toList ++ uuidHex ++ ".ta".toList

def isTmem (attr : UInt64) : Bool :=
  let t := attr &&& ATTR_TYPE_MASK
  t == ATTR_TYPE_TMEM_INPUT || t == ATTR_TYPE_TMEM_OUTPUT || t == ATTR_TYPE_TMEM_INOUT

def nameFromTmem (pool : Pool) (params : List MsgParam) : Bytes :=
  match params[1]? with
  | none => []
  | some p =>
    if isTmem p.attr ∧ p.a.toNat + p.b.toNat ≤ BOUNCE_POOL_SIZE then
      (pool.get p.a.toNat p.b.toNat).takeWhile (· ≠ 0)
    else []

section Handle

variable (O : HostOs ω) (build : Build)

def loadTa (uuidHex : List Char) : SM ω Bytes := fun s =>
  match O.readFile (taPath uuidHex) s.2 with
  | some bytes => (.ok bytes, s)
  | none => (.err .notFound, s)

/-- Where the image goes: where the second parameter says, unless that is not a memory
reference behind the message. -/
def loadTaDest (after : Nat) (rest : List MsgParam) (len : Nat) : Except SuppError Nat :=
  match rest with
  | p :: _ =>
    if isTmem p.attr ∧ p.a.toNat ≥ after then
      if p.b.toNat < len then .error .io else .ok p.a.toNat
    else .ok after
  | [] => .ok after

/-- `write_msg(..).map_err(|_| SuppError::Io)` -/
def putReply (cookie : UInt64) (hdr : MsgArgHdr) (params : List MsgParam) : SM ω Unit := fun s =>
  match writeMsg s.1 cookie hdr params with
  | .ok (_, pool) => (.ok (), (pool, s.2))
  | .error _ => (.err .io, s)

def copyIn (start : Nat) (bytes : Bytes) : SM ω Unit :=
  Attempt.modify fun s => (s.1.put start bytes, s.2)

/-- The branch LOAD_TA; `p` and `rest` are the parameters. -/
def handleLoadTa (cookie : UInt64) (hdr : MsgArgHdr) (p : MsgParam) (rest : List MsgParam) :
    SM ω UInt32 := do
  let bytes ← loadTa O (hexWords p.a p.b)
  let after := (cookie.toNat + hdr.byteSize + 7) / 8 * 8
  match loadTaDest after rest bytes.length with
  | .error e => raise e
  | .ok dest =>
    if dest + bytes.length > BOUNCE_POOL_SIZE then raise .io
    else do
      copyIn dest bytes
      let image : MsgParam := ⟨ATTR_TYPE_TMEM_OUTPUT, UInt64.ofNat dest,
        UInt64.ofNat bytes.length, UInt64.ofNat dest⟩
      let params := p :: image :: rest.drop 1
      putReply cookie { hdr with numParams := UInt32.ofNat params.length, ret := 0 } params
      pure (UInt32.ofNat (dest + bytes.length - cookie.toNat))

/-- The other branches change the first parameter at most; the window is the message. -/
def handleOther (cookie : UInt64) (hdr : MsgArgHdr) (p : MsgParam) (rest : List MsgParam) :
    SM ω UInt32 := do
  putReply cookie hdr (p :: rest)
  pure (UInt32.ofNat hdr.byteSize)

/-- `fs` with the numbers of the first parameter. -/
def runFs (p : MsgParam) (params : List MsgParam) : SM ω UInt32 := fun s =>
  match O.fs p.a.toUInt32 (nameFromTmem s.1 params) p.b.toUInt32 p.c.toUInt32 s.2 with
  | (.ok fd, w) => (.ok fd, (s.1, w))
  | (.error e, w) => (.err e, (s.1, w))

def handleDecoded (cookie : UInt64) (hdr : MsgArgHdr) (params : List MsgParam) : SM ω UInt32 :=
  match params with
  | [] => raise .badCmd
  | p :: rest =>
    if hdr.cmd = RPC_CMD_GET_TIME then do
      let (sec, ns) ← gets fun s => O.getTime s.2
      handleOther cookie hdr { p with a := sec.toUInt64, b := ns.toUInt64 } rest
    else if hdr.cmd = RPC_CMD_LOAD_TA then handleLoadTa O cookie hdr p rest
    else if hdr.cmd = RPC_CMD_FS then do
      let fd ← runFs O p (p :: rest)
      let op := p.a.toUInt32
      handleOther cookie hdr
        (if op = RPC_FS_CREATE ∨ op = RPC_FS_OPEN then { p with b := fd.toUInt64 } else p) rest
    else raise .badCmd

/-- Decode the MSG at the cookie and answer it. Without a parameter every command is
refused. -/
def handleMsg (cookie : UInt64) : SM ω UInt32 := fun s =>
  match decodeMsg build s.1 cookie with
  | .ok (hdr, params) => handleDecoded O cookie hdr params s
  | .err _ => (.err .badCmd, s)
  | .panic => (.panic, s)

/-- The process-wide hook: whatever goes wrong is reported as a communication error. -/
def rpcHook : RpcHook (Option ω) := fun cookie s =>
  match s.2 with
  | none => (.err 0xFFFF000E, s)
  | some w =>
    match handleMsg O build cookie (s.1, w) with
    | (.ok n, pool, w') => (.ok n, pool, some w')
    | (.err _, pool, w') => (.err 0xFFFF000E, pool, some w')
    | (.panic, pool, w') => (.panic, pool, some w')

end Handle

/-! ### The request of the guest -/

/-- The MSG of `pack_load_ta`. -/
def askHdr : MsgArgHdr := ⟨RPC_CMD_LOAD_TA, 0, 0, 0, 0, 0, 0, 2⟩

def askDest : UInt64 := RPC_COOKIE + UInt64.ofNat (MSG_ARG_HDR_SIZE + 2 * MSG_PARAM_SIZE)

def askParams (uuid : Os.Uuid) : List MsgParam :=
  [⟨ATTR_TYPE_VALUE_INPUT, (uuidToWords uuid).1, (uuidToWords uuid).2, 0⟩,
    ⟨ATTR_TYPE_TMEM_OUTPUT, askDest, LOAD_TA_CAP, 0⟩]

/-- The message with the image: the same header, the length in place of the capacity. -/
def imageParams (uuid : Os.Uuid) (len : Nat) : List MsgParam :=
  [⟨ATTR_TYPE_VALUE_INPUT, (uuidToWords uuid).1, (uuidToWords uuid).2, 0⟩,
    ⟨ATTR_TYPE_TMEM_OUTPUT, askDest, UInt64.ofNat len, askDest⟩]

theorem hexWords_uuid :
    hexWords (uuidToWords uuid).1 (uuidToWords uuid).2 = hexBytes uuid.bytes.toList := by
  rw [uuidToWords_eq]
  exact hexWords_beWords uuid.bytes

theorem askFits : MsgFits RPC_COOKIE askHdr (askParams uuid) where
  align := by decide
  count := rfl
  few := Nat.le_of_ble_eq_true rfl
  inside := by decide

theorem imageFits (len : Nat) : MsgFits RPC_COOKIE askHdr (imageParams uuid len) where
  align := by decide
  count := rfl
  few := Nat.le_of_ble_eq_true rfl
  inside := by decide

theorem refusalFits :
    MsgFits RPC_COOKIE { askHdr with ret := TEEC_ERROR_COMMUNICATION } (askParams uuid) :=
  ⟨(askFits uuid).align, (askFits uuid).count, (askFits uuid).few, (askFits uuid).inside⟩

def imagePool (pool : Pool) (uuid : Os.Uuid) (image : Bytes) : Pool :=
  (pool.put askDest.toNat image).put RPC_COOKIE.toNat
    (msgBytes askHdr (imageParams uuid image.length))

def taFile (O : HostOs ω) (uuid : Os.Uuid) (w : ω) : Option Bytes :=
  O.readFile (taPath (hexBytes uuid.bytes.toList)) w

section Answer

variable {O : HostOs ω} {build : Build} {uuid : Os.Uuid} {pool : Pool} {w : ω}

def Asks (uuid : Os.Uuid) (pool : Pool) : Prop :=
  pool.get RPC_COOKIE.toNat askHdr.byteSize = msgBytes askHdr (askParams uuid)

theorem loadTaDest_ask (len : Nat) :
    loadTaDest ((RPC_COOKIE.toNat + askHdr.byteSize + 7) / 8 * 8) (askParams uuid).tail len =
      if LOAD_TA_CAP.toNat < len then .error .io else .ok askDest.toNat := by
  have hbehind : isTmem ATTR_TYPE_TMEM_OUTPUT = true ∧
      askDest.toNat ≥ (RPC_COOKIE.toNat + askHdr.byteSize + 7) / 8 * 8 := by decide
  rw [askParams, tail_cons, loadTaDest, if_pos hbehind]

theorem handleMsg_ask (h : Asks uuid pool) :
    handleMsg O build RPC_COOKIE (pool, w) =
      handleLoadTa O RPC_COOKIE askHdr
        ⟨ATTR_TYPE_VALUE_INPUT, (uuidToWords uuid).1, (uuidToWords uuid).2, 0⟩
        (askParams uuid).tail (pool, w) := by
  rw [handleMsg, decodeMsg_of_bytes build (askFits uuid) h]
  rfl

/-- The image is copied behind the message, and the message gets its length. -/
theorem handleMsg_found (h : Asks uuid pool) {image : Bytes}
    (hfile : taFile O uuid w = some image) (hlen : image.length ≤ LOAD_TA_CAP.toNat) :
    handleMsg O build RPC_COOKIE (pool, w) =
      (.ok (UInt32.ofNat (askDest.toNat + image.length - RPC_COOKIE.toNat)),
        (imagePool pool uuid image, w)) := by
  have hload : loadTa O (hexWords (uuidToWords uuid).1 (uuidToWords uuid).2) (pool, w) =
      (.ok image, (pool, w)) := by
    rw [hexWords_uuid, loadTa]
    rw [taFile] at hfile
    rw [hfile]
  have hend : ¬ askDest.toNat + image.length > BOUNCE_POOL_SIZE := by
    have hroom : askDest.toNat + LOAD_TA_CAP.toNat ≤ BOUNCE_POOL_SIZE := by decide
    omega
  have hreply : putReply RPC_COOKIE askHdr (imageParams uuid image.length)
      (pool.put askDest.toNat image, w) = (.ok (), (imagePool pool uuid image, w)) := by
    rw [putReply, writeMsg_of_fits (imageFits uuid image.length)]
    rfl
  rw [handleMsg_ask h, handleLoadTa, bind_of_ok hload, loadTaDest_ask, if_neg (Nat.not_lt.mpr hlen)]
  show (if _ then _ else _ : SM ω UInt32) (pool, w) = _
  have hcopy : copyIn askDest.toNat image (pool, w) =
      (.ok (), (pool.put askDest.toNat image, w)) := rfl
  rw [if_neg hend, bind_of_ok hcopy]
  -- the header still counts two parameters, and they are `imageParams`
  show (putReply RPC_COOKIE askHdr (imageParams uuid image.length) >>= fun _ => pure _)
    (pool.put askDest.toNat image, w) = _
  rw [bind_of_ok hreply]
  rfl

theorem handleMsg_refused (h : Asks uuid pool)
    (hfile : ∀ image, taFile O uuid w = some image → LOAD_TA_CAP.toNat < image.length) :
    ∃ e, handleMsg O build RPC_COOKIE (pool, w) = (.err e, (pool, w)) := by
  rw [handleMsg_ask h, handleLoadTa]
  rcases hread : taFile O uuid w with _ | image
  · have hload : loadTa O (hexWords (uuidToWords uuid).1 (uuidToWords uuid).2) (pool, w) =
        (.err .notFound, (pool, w)) := by
      rw [hexWords_uuid, loadTa]
      rw [taFile] at hread
      rw [hread]
    exact ⟨.notFound, bind_of_err hload⟩
  · have hload : loadTa O (hexWords (uuidToWords uuid).1 (uuidToWords uuid).2) (pool, w) =
        (.ok image, (pool, w)) := by
      rw [hexWords_uuid, loadTa]
      rw [taFile] at hread
      rw [hread]
    refine ⟨.io, ?_⟩
    rw [bind_of_ok hload, loadTaDest_ask, if_pos (hfile image hread)]
    rfl

end Answer

/-! ### The answer as the guest reads it -/

/-- The image the supplicant can send: there is a file and it is not too long. -/
def servable (O : HostOs ω) (uuid : Os.Uuid) (w : ω) : Option Bytes :=
  (taFile O uuid w).filter fun image => image.length ≤ LOAD_TA_CAP.toNat

theorem servable_eq_some {O : HostOs ω} {uuid : Os.Uuid} {w : ω} {image : Bytes}
    (h : servable O uuid w = some image) :
    taFile O uuid w = some image ∧ image.length ≤ LOAD_TA_CAP.toNat := by
  rw [servable, Option.filter_eq_some_iff] at h
  exact ⟨h.1, of_decide_eq_true h.2⟩

theorem servable_eq_none {O : HostOs ω} {uuid : Os.Uuid} {w : ω} (h : servable O uuid w = none) :
    ∀ image, taFile O uuid w = some image → LOAD_TA_CAP.toNat < image.length := by
  intro image hfile
  by_contra hlen
  rw [servable, hfile, Option.filter_some, if_pos (decide_eq_true (Nat.not_lt.mp hlen))] at h
  cases h

def replyBytes (uuid : Os.Uuid) : Option Bytes → Bytes
  | some image => msgBytes askHdr (imageParams uuid image.length) ++ image
  | none => msgBytes { askHdr with ret := TEEC_ERROR_COMMUNICATION } (askParams uuid)

theorem length_replyBytes (o : Option Bytes) :
    (replyBytes uuid o).length = askHdr.byteSize + (o.getD []).length := by
  cases o with
  | none => exact length_msgBytes rfl
  | some image =>
    rw [replyBytes, length_append, length_msgBytes (imageFits uuid image.length).count]
    rfl

section Reply

variable {S : Type} {O : HostOs ω} {build : Build} {uuid : Os.Uuid} {w : ω}

theorem stampRpcRet_ask {H : Type} {c : Call S H} (h : Asks uuid c.bounce) :
    stampRpcRet build RPC_COOKIE 0xFFFF000E c =
      (.ok (), c.withBounce (c.bounce.put RPC_COOKIE.toNat (replyBytes uuid none))) := by
  have hret : (if (0xFFFF000E : UInt32) = 0 then TEEC_ERROR_COMMUNICATION else 0xFFFF000E) =
      TEEC_ERROR_COMMUNICATION := rfl
  rw [stampRpcRet, decodeMsg_of_bytes build (askFits uuid) h, hret]
  dsimp only
  rw [writeMsg_of_fits (refusalFits uuid)]
  rfl

theorem runHook_ask {c : Call S (Option ω)} (hprocess : c.process = some w)
    (hask : Asks uuid c.bounce) {hdr : Proto.PduHeader} (hlen : hdr.bounceLen = 96) :
    ∃ n pool, runHook build (some (rpcHook O build)) hdr RPC_COOKIE c = (.ok n, c.withBounce pool) ∧
      n.toNat = (replyBytes uuid (servable O uuid w)).length ∧
      pool.get RPC_COOKIE.toNat n.toNat = replyBytes uuid (servable O uuid w) := by
  have hstate : (c.bounce, c.process) = (c.bounce, some w) := by rw [hprocess]
  rcases hserve : servable O uuid w with _ | image
  · -- an error of the supplicant is stamped into the request
    obtain ⟨e, hmsg⟩ : ∃ e, handleMsg O build RPC_COOKIE (c.bounce, w) = (.err e, (c.bounce, w)) :=
      handleMsg_refused hask (servable_eq_none hserve)
    have hhook : rpcHook O build RPC_COOKIE (c.bounce, c.process) =
        (.err 0xFFFF000E, c.bounce, some w) := by
      rw [hstate, rpcHook]
      dsimp only
      rw [hmsg]
    refine ⟨96, c.bounce.put RPC_COOKIE.toNat (replyBytes uuid none), ?_, rfl, ?_⟩
    · rw [runHook]
      dsimp only
      rw [hhook, ← hprocess]
      dsimp only
      rw [bind_of_ok (stampRpcRet_ask hask), hlen]
      rfl
    · exact get_put c.bounce RPC_COOKIE.toNat (replyBytes uuid none)
  · obtain ⟨hfile, hsmall⟩ := servable_eq_some hserve
    have hhook : rpcHook O build RPC_COOKIE (c.bounce, c.process) =
        (.ok (UInt32.ofNat (askDest.toNat + image.length - RPC_COOKIE.toNat)),
          imagePool c.bounce uuid image, some w) := by
      rw [hstate, rpcHook]
      dsimp only
      rw [handleMsg_found hask hfile hsmall]
    have hbehind : askDest.toNat = RPC_COOKIE.toNat + askHdr.byteSize := by decide
    have hcap : askHdr.byteSize + LOAD_TA_CAP.toNat < UInt32.size := by decide
    have hn : (UInt32.ofNat (askDest.toNat + image.length - RPC_COOKIE.toNat)).toNat =
        askHdr.byteSize + image.length := by
      rw [UInt32.toNat_ofNat_of_lt' (by omega)]
      omega
    have hpos : UInt32.ofNat (askDest.toNat + image.length - RPC_COOKIE.toNat) > 0 := by
      have hsize : 0 < askHdr.byteSize := by decide
      apply UInt32.lt_iff_toNat_lt.mpr
      rw [hn]
      exact Nat.lt_of_lt_of_le hsize (Nat.le_add_right _ _)
    refine ⟨_, imagePool c.bounce uuid image, ?_,
      hn.trans (length_replyBytes uuid (some image)).symm, ?_⟩
    · rw [runHook]
      dsimp only
      rw [hhook, ← hprocess]
      dsimp only
      rw [if_pos hpos]
      rfl
    · have hmsg : askHdr.byteSize = (msgBytes askHdr (imageParams uuid image.length)).length :=
        (length_msgBytes (imageFits uuid image.length).count).symm
      rw [hn, imagePool, hbehind, hmsg]
      rw [get_add, get_put, get_put_beside (.inr (Nat.le_refl _)), get_put]
      rfl

end Reply

def response : Option Bytes → Fallible UInt32 Bytes
  | some image => .ok image
  | none => .err TEEC_ERROR_COMMUNICATION

/-- Whatever else is in its pool, the guest reads the image that was sent, or the error. -/
theorem takeLoadTa_reply (build : Build) (pool : Pool) (uuid : Os.Uuid) {o : Option Bytes}
    (hlen : ∀ image, o = some image → image.length ≤ LOAD_TA_CAP.toNat) :
    takeLoadTa build (pool.put RPC_COOKIE.toNat (replyBytes uuid o)) = response o := by
  cases o with
  | none =>
    have hmsg := decodeMsg_of_bytes build (refusalFits uuid)
      (get_put pool RPC_COOKIE.toNat (replyBytes uuid none))
    rw [takeLoadTa, hmsg]
    rfl
  | some image =>
    have hsmall := hlen image rfl
    have hfront : askHdr.byteSize = (msgBytes askHdr (imageParams uuid image.length)).length :=
      (length_msgBytes (imageFits uuid image.length).count).symm
    have hbehind : askDest.toNat = RPC_COOKIE.toNat + askHdr.byteSize := by decide
    have hroom : askDest.toNat + LOAD_TA_CAP.toNat ≤ BOUNCE_POOL_SIZE := by decide
    have hword : BOUNCE_POOL_SIZE < 2 ^ 64 := by decide
    have hsize : (UInt64.ofNat image.length).toNat = image.length := by
      rw [UInt64.toNat_ofNat']
      exact Nat.mod_eq_of_lt (by omega)
    have hmsg : decodeMsg build (pool.put RPC_COOKIE.toNat (replyBytes uuid (some image)))
        RPC_COOKIE = .ok (askHdr, imageParams uuid image.length) := by
      apply decodeMsg_of_bytes build (imageFits uuid image.length)
      have hpart : (pool.put RPC_COOKIE.toNat (replyBytes uuid (some image))).get
          (RPC_COOKIE.toNat + 0) askHdr.byteSize =
            ((replyBytes uuid (some image)).drop 0).take askHdr.byteSize :=
        get_put_part (by rw [length_replyBytes]; omega)
      rw [Nat.add_zero, drop_zero] at hpart
      rw [hpart, replyBytes, take_left' hfront.symm]
    have himage : (pool.put RPC_COOKIE.toNat (replyBytes uuid (some image))).get askDest.toNat
        image.length = image := by
      rw [hbehind, get_put_part (by rw [length_replyBytes]; exact Nat.le_refl _), replyBytes,
        drop_left' hfront.symm, take_length]
    rw [takeLoadTa, hmsg]
    show (if 2 ^ 64 ≤ askDest.toNat + (UInt64.ofNat image.length).toNat then _
      else if askDest < RPC_COOKIE ∨ askDest.toNat + (UInt64.ofNat image.length).toNat >
        BOUNCE_POOL_SIZE then _ else Fallible.ok (get _ askDest.toNat
          (UInt64.ofNat image.length).toNat)) = _
    have hnotBefore : ¬ askDest < RPC_COOKIE := by decide
    rw [hsize, if_neg (by omega), if_neg, himage]
    · rfl
    · rintro (h | h)
      · exact hnotBefore h
      · omega

end Rustee.Supplicant
