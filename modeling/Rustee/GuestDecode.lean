import Rustee.HostUuid

/-!
# Does a decoded command say what its message says? (`decode_cmd` of `proto_cmd.rs`)

`CmdSays` is the meaning of a command as a message: the UUID and the login of the meta parameters,
every other parameter with its kind, direction and numbers, and the ids. `decode_cmd` has a
default for whatever it does not know: an unknown or registered-memory parameter becomes none, a
fifth parameter is dropped, a wide value is cut to 32 bits, a missing UUID is zero and every login
is public. So it is faithful exactly on the messages that use none of this (`Plain`).
-/

namespace Rustee.Guest

open Os Virt List

def MSG_LOGIN_PUBLIC : UInt32 := 0
def MSG_LOGIN_USER : UInt32 := 1
def MSG_LOGIN_GROUP : UInt32 := 2
def MSG_LOGIN_APPLICATION : UInt32 := 4
def MSG_LOGIN_APPLICATION_USER : UInt32 := 5
def MSG_LOGIN_APPLICATION_GROUP : UInt32 := 6

/-! ### What a command says -/

def loginCode : Login → Option UInt32
  | .public => some MSG_LOGIN_PUBLIC
  | .user => some MSG_LOGIN_USER
  | .group _ => some MSG_LOGIN_GROUP
  | .application => some MSG_LOGIN_APPLICATION
  | .userApplication => some MSG_LOGIN_APPLICATION_USER
  | .groupApplication _ => some MSG_LOGIN_APPLICATION_GROUP
  | .trustedApp _ => none

def valueType : Dir → UInt64
  | .input => ATTR_TYPE_VALUE_INPUT
  | .output => ATTR_TYPE_VALUE_OUTPUT
  | .inout => ATTR_TYPE_VALUE_INOUT

def tmemType : Dir → UInt64
  | .input => ATTR_TYPE_TMEM_INPUT
  | .output => ATTR_TYPE_TMEM_OUTPUT
  | .inout => ATTR_TYPE_TMEM_INOUT

/-- The parameter has the kind, the direction and the numbers of the message's. -/
def ParamSays (p : MsgParam) : Param → Prop
  | .none => ty p = ATTR_TYPE_NONE
  | .value a b dir => ty p = valueType dir ∧ p.a.toNat = a.toNat ∧ p.b.toNat = b.toNat
  | .memref (.ree cookie offs) size dir =>
    ty p = tmemType dir ∧ p.a.toNat = cookie.toNat + offs.toNat ∧ p.b = size
  | .memref (.ta _) _ _ => False

def nonMeta (params : List MsgParam) : List MsgParam := params.filter fun p => !p.isMeta

def ParamsSay (params : List MsgParam) (user : Params) : Prop :=
  (nonMeta params).length ≤ PARAM_COUNT ∧ ∀ i : Fin PARAM_COUNT,
    match (nonMeta params)[i.val]? with
    | some p => ParamSays p (user.get i)
    | none => user.get i = .none

def UuidSays (params : List MsgParam) (uuid : Uuid) : Prop :=
  ∃ p rest, params = p :: rest ∧ p.isMeta ∧ ty p = ATTR_TYPE_VALUE_INPUT ∧
    uuidToWords uuid = (p.a, p.b)

def LoginSays (params : List MsgParam) (login : Login) : Prop :=
  ∀ p ∈ params.tail, p.isMeta → ∃ code, loginCode login = some code ∧ p.c.toNat = code.toNat

/-- The command says what the message says. Commands without parameters can stand only
for messages whose parameters are none. -/
def CmdSays (hdr : MsgArgHdr) (params : List MsgParam) : KernelCmd → Prop
  | .openSession uuid login user cancelId _ =>
    hdr.cmd = MSG_CMD_OPEN_SESSION ∧ UuidSays params uuid ∧ LoginSays params login ∧
      ParamsSay params user ∧ cancelId = hdr.cancelId
  | .invoke session cmdId user cancelId _ =>
    hdr.cmd = MSG_CMD_INVOKE_COMMAND ∧ session = hdr.session ∧ cmdId = hdr.func ∧
      ParamsSay params user ∧ cancelId = hdr.cancelId
  | .closeSession session =>
    hdr.cmd = MSG_CMD_CLOSE_SESSION ∧ session = hdr.session ∧
      ∀ p ∈ nonMeta params, ty p = ATTR_TYPE_NONE
  | .cancel cancelId =>
    hdr.cmd = MSG_CMD_CANCEL ∧ cancelId = hdr.cancelId ∧ ∀ p ∈ nonMeta params, ty p = ATTR_TYPE_NONE
  | .rpcComplete _ => False

/-- What is decoded says what the message says, and a message that no command can say is
rejected. -/
def FaithfulOrRejects (build : Build) (pool : Pool) (cookie : UInt64) : Prop :=
  (∀ cmd, decodeCmd build pool cookie = .ok cmd →
    ∃ hdr params, decodeMsg build pool cookie = .ok (hdr, params) ∧ CmdSays hdr params cmd) ∧
  ∀ hdr params, decodeMsg build pool cookie = .ok (hdr, params) →
    (¬ ∃ cmd, CmdSays hdr params cmd) → decodeCmd build pool cookie = .err ()

/-! ### Plain messages -/

def PlainParam (p : MsgParam) : Prop :=
  ty p = ATTR_TYPE_NONE ∨
    (∃ dir, ty p = valueType dir ∧ p.a.toNat < 2 ^ 32 ∧ p.b.toNat < 2 ^ 32) ∨
    ∃ dir, ty p = tmemType dir

def PlainUser (params : List MsgParam) : Prop :=
  (nonMeta params).length ≤ PARAM_COUNT ∧ ∀ p ∈ nonMeta params, PlainParam p

/-- The first parameter is a meta value, and every other meta parameter says public. -/
def PlainOpen (params : List MsgParam) : Prop :=
  (∃ p rest, params = p :: rest ∧ p.isMeta ∧ ty p = ATTR_TYPE_VALUE_INPUT) ∧
    ∀ p ∈ params.tail, p.isMeta → p.c = 0

def Plain (hdr : MsgArgHdr) (params : List MsgParam) : Prop :=
  (hdr.cmd = MSG_CMD_OPEN_SESSION → PlainOpen params ∧ PlainUser params) ∧
    (hdr.cmd = MSG_CMD_INVOKE_COMMAND → PlainUser params) ∧
    (hdr.cmd = MSG_CMD_CLOSE_SESSION ∨ hdr.cmd = MSG_CMD_CANCEL →
      ∀ p ∈ nonMeta params, ty p = ATTR_TYPE_NONE)

/-! ### Parameters -/

theorem dirOf_valueType (dir : Dir) : dirOf (valueType dir) = dir := by
  cases dir <;> decide

theorem dirOf_tmemType (dir : Dir) : dirOf (tmemType dir) = dir := by
  cases dir <;> decide

variable {p : MsgParam} {dir : Dir} (params : List MsgParam)

theorem param_of_value (h : ty p = valueType dir) :
    param p = .value p.a.toUInt32 p.b.toUInt32 dir := by
  rw [param, h, dirOf_valueType]
  cases dir <;> rfl

theorem param_of_tmem (h : ty p = tmemType dir) : param p = .memref (.ree p.a 0) p.b dir := by
  rw [param, h, dirOf_tmemType]
  cases dir <;> rfl

theorem param_of_unknown (hvalue : ∀ dir, ty p ≠ valueType dir)
    (htmem : ∀ dir, ty p ≠ tmemType dir) : param p = .none := by
  rw [param]
  split
  · rfl
  · rw [if_neg, if_neg]
    · rintro (h | h | h)
      · exact htmem .input h
      · exact htmem .output h
      · exact htmem .inout h
    · rintro (h | h | h)
      · exact hvalue .input h
      · exact hvalue .output h
      · exact hvalue .inout h

theorem toNat_toUInt32_eq_iff (w : UInt64) : w.toNat = w.toUInt32.toNat ↔ w.toNat < 2 ^ 32 := by
  rw [UInt64.toNat_toUInt32]
  omega

theorem paramSays_param_iff (p : MsgParam) : ParamSays p (param p) ↔ PlainParam p := by
  by_cases hvalue : ∃ dir, ty p = valueType dir
  · obtain ⟨dir, hdir⟩ := hvalue
    rw [param_of_value hdir]
    constructor
    · rintro ⟨-, ha, hb⟩
      exact .inr (.inl ⟨dir, hdir, (toNat_toUInt32_eq_iff _).mp ha,
        (toNat_toUInt32_eq_iff _).mp hb⟩)
    · rintro (hnone | ⟨dir', -, ha, hb⟩ | ⟨dir', hdir'⟩)
      · rw [hdir] at hnone
        cases dir <;> exact absurd hnone (by decide)
      · exact ⟨hdir, (toNat_toUInt32_eq_iff _).mpr ha, (toNat_toUInt32_eq_iff _).mpr hb⟩
      · rw [hdir] at hdir'
        cases dir <;> cases dir' <;> exact absurd hdir' (by decide)
  · by_cases htmem : ∃ dir, ty p = tmemType dir
    · obtain ⟨dir, hdir⟩ := htmem
      rw [param_of_tmem hdir]
      exact ⟨fun _ => .inr (.inr ⟨dir, hdir⟩), fun _ => ⟨hdir, rfl, rfl⟩⟩
    · have hunknown : param p = .none :=
        param_of_unknown (fun dir h => hvalue ⟨dir, h⟩) fun dir h => htmem ⟨dir, h⟩
      rw [hunknown]
      constructor
      · intro h
        exact .inl h
      · rintro (hnone | ⟨dir, hdir, -⟩ | ⟨dir, hdir⟩)
        · exact hnone
        · exact absurd ⟨dir, hdir⟩ hvalue
        · exact absurd ⟨dir, hdir⟩ htmem

theorem nonMeta_cons_meta (h : p.isMeta) (ps : List MsgParam) : nonMeta (p :: ps) = nonMeta ps := by
  rw [nonMeta, filter_cons, h]
  rfl

theorem nonMeta_cons_user (h : ¬ p.isMeta) (ps : List MsgParam) :
    nonMeta (p :: ps) = p :: nonMeta ps := by
  have hfalse : p.isMeta = false := Bool.eq_false_iff.mpr h
  rw [nonMeta, filter_cons, hfalse]
  rfl

theorem get_set (user : Params) (x : Param) {ui : Nat} (h : ui < PARAM_COUNT)
    (i : Fin PARAM_COUNT) :
    (user.set ui x h).get i = if ui = i.val then x else user.get i :=
  Vector.getElem_set h i.isLt

/-- The loop puts the parameters that are not meta into the places from `ui` on. -/
theorem userParams_get (ps : List MsgParam) (ui : Nat) (user : Params) (i : Fin PARAM_COUNT) :
    (userParams ps ui user).get i =
      if i.val < ui then user.get i
      else match (nonMeta ps)[i.val - ui]? with
        | some p => param p
        | none => user.get i := by
  induction ps generalizing ui user with
  | nil => exact (ite_self _).symm
  | cons p ps ih =>
    rw [userParams]
    by_cases hmeta : p.isMeta
    · rw [if_pos hmeta, ih, nonMeta_cons_meta hmeta]
    · rw [if_neg hmeta, nonMeta_cons_user hmeta]
      by_cases hroom : ui < PARAM_COUNT
      · rw [dif_pos hroom, ih, get_set]
        rcases Nat.lt_trichotomy i.val ui with hlt | heq | hgt
        · rw [if_pos (Nat.lt_succ_of_lt hlt), if_neg (Nat.ne_of_gt hlt), if_pos hlt]
        · rw [if_pos (Nat.lt_succ_of_le (Nat.le_of_eq heq)), if_pos heq.symm,
            if_neg (Nat.not_lt.mpr (Nat.le_of_eq heq.symm)), heq, Nat.sub_self]
          rfl
        · obtain ⟨d, hd⟩ : ∃ d, i.val - ui = d + 1 := ⟨i.val - ui - 1, by omega⟩
          have hd' : i.val - (ui + 1) = d := by omega
          rw [if_neg (by omega), if_neg (Nat.ne_of_lt hgt),
            if_neg (Nat.not_lt.mpr (Nat.le_of_lt hgt)), hd, hd']
          rfl
      · have hlt : i.val < ui := Nat.lt_of_lt_of_le i.isLt (Nat.not_lt.mp hroom)
        rw [dif_neg hroom, ih, if_pos hlt, if_pos hlt]

theorem userParams_get_zero (ps : List MsgParam) (i : Fin PARAM_COUNT) :
    (userParams ps 0 noParams).get i =
      match (nonMeta ps)[i.val]? with
      | some p => param p
      | none => .none := by
  have hnone : noParams.get i = .none := Vector.getElem_replicate i.isLt
  rw [userParams_get, if_neg (Nat.not_lt_zero _), Nat.sub_zero, hnone]

/-- The decoded parameters are faithful exactly if the message's are plain. -/
theorem paramsSay_userParams_iff :
    ParamsSay params (userParams params 0 noParams) ↔ PlainUser params := by
  constructor
  · rintro ⟨hlen, hsay⟩
    refine ⟨hlen, ?_⟩
    intro p hp
    obtain ⟨i, hi, hget⟩ := getElem_of_mem hp
    have hsome : (nonMeta params)[i]? = some p := by
      rw [getElem?_eq_getElem hi, hget]
    have h := hsay ⟨i, Nat.lt_of_lt_of_le hi hlen⟩
    simp only [hsome, userParams_get_zero] at h
    exact (paramSays_param_iff p).mp h
  · rintro ⟨hlen, hplain⟩
    refine ⟨hlen, ?_⟩
    intro i
    rw [userParams_get_zero]
    cases hget : (nonMeta params)[i.val]? with
    | none => rfl
    | some p => exact (paramSays_param_iff p).mpr (hplain p (mem_of_getElem? hget))

/-! ### Commands -/

def decoded (hdr : MsgArgHdr) (params : List MsgParam) : Option KernelCmd :=
  if hdr.cmd = MSG_CMD_OPEN_SESSION then
    some (.openSession (openUuid params) .public (userParams params 0 noParams) hdr.cancelId
      TEE_TIMEOUT_INFINITE)
  else if hdr.cmd = MSG_CMD_INVOKE_COMMAND then
    some (.invoke hdr.session hdr.func (userParams params 0 noParams) hdr.cancelId
      TEE_TIMEOUT_INFINITE)
  else if hdr.cmd = MSG_CMD_CLOSE_SESSION then some (.closeSession hdr.session)
  else if hdr.cmd = MSG_CMD_CANCEL then some (.cancel hdr.cancelId)
  else none

variable {params : List MsgParam} {hdr : MsgArgHdr} {build : Build} {pool : Pool} {cookie : UInt64}

theorem decodeCmd_eq
    (h : decodeMsg build pool cookie = .ok (hdr, params)) :
    decodeCmd build pool cookie = .ofOption () (decoded hdr params) := by
  rw [decodeCmd, h, decoded]
  dsimp only
  split_ifs <;> rfl

theorem openUuid_says_iff : UuidSays params (openUuid params) ↔
      ∃ p rest, params = p :: rest ∧ p.isMeta ∧ ty p = ATTR_TYPE_VALUE_INPUT := by
  constructor
  · rintro ⟨p, rest, hparams, hmeta, hty, -⟩
    exact ⟨p, rest, hparams, hmeta, hty⟩
  · rintro ⟨p, rest, rfl, hmeta, hty⟩
    refine ⟨p, rest, rfl, hmeta, hty, ?_⟩
    rw [openUuid, if_pos ⟨hmeta, hty⟩, uuidToWords_uuidFromWords]

theorem loginSays_public_iff :
    LoginSays params .public ↔ ∀ p ∈ params.tail, p.isMeta → p.c = 0 := by
  constructor
  · intro h p hp hmeta
    obtain ⟨code, hcode, hc⟩ := h p hp hmeta
    cases hcode
    exact UInt64.toNat_inj.mp hc
  · intro h p hp hmeta
    refine ⟨MSG_LOGIN_PUBLIC, rfl, ?_⟩
    rw [h p hp hmeta]
    rfl

theorem plain_of_decoded_none (h : decoded hdr params = none) : Plain hdr params := by
  rw [decoded] at h
  split_ifs at h with hopen hinvoke hclose hcancel
  refine ⟨fun hcmd => absurd hcmd hopen, fun hcmd => absurd hcmd hinvoke, ?_⟩
  rintro (hcmd | hcmd)
  · exact absurd hcmd hclose
  · exact absurd hcmd hcancel

variable {cmd : KernelCmd}

/-- A decoded command says what the message says exactly if the message is plain. -/
theorem cmdSays_decoded_iff
    (h : decoded hdr params = some cmd) : CmdSays hdr params cmd ↔ Plain hdr params := by
  -- a message has one kind
  have hother : ∀ {c c' : UInt32}, hdr.cmd = c → c ≠ c' → hdr.cmd ≠ c' :=
    fun hcmd hne hcmd' => hne (hcmd.symm.trans hcmd')
  rw [decoded] at h
  split_ifs at h with hopen hinvoke hclose hcancel
  · cases h
    rw [CmdSays, openUuid_says_iff, loginSays_public_iff, paramsSay_userParams_iff]
    constructor
    · rintro ⟨-, huuid, hlogin, hparams, -⟩
      refine ⟨fun _ => ⟨⟨huuid, hlogin⟩, hparams⟩, ?_, ?_⟩
      · intro hcmd
        exact absurd hcmd (hother hopen (by decide))
      · rintro (hcmd | hcmd)
        · exact absurd hcmd (hother hopen (by decide))
        · exact absurd hcmd (hother hopen (by decide))
    · rintro ⟨hplain, -⟩
      obtain ⟨⟨huuid, hlogin⟩, hparams⟩ := hplain hopen
      exact ⟨hopen, huuid, hlogin, hparams, rfl⟩
  · cases h
    rw [CmdSays, paramsSay_userParams_iff]
    constructor
    · rintro ⟨-, -, -, hparams, -⟩
      refine ⟨fun hcmd => absurd hcmd hopen, fun _ => hparams, ?_⟩
      rintro (hcmd | hcmd)
      · exact absurd hcmd (hother hinvoke (by decide))
      · exact absurd hcmd (hother hinvoke (by decide))
    · rintro ⟨-, hplain, -⟩
      exact ⟨hinvoke, rfl, rfl, hplain hinvoke, rfl⟩
  · cases h
    constructor
    · rintro ⟨-, -, hnone⟩
      exact ⟨fun hcmd => absurd hcmd hopen, fun hcmd => absurd hcmd hinvoke, fun _ => hnone⟩
    · rintro ⟨-, -, hplain⟩
      exact ⟨hclose, rfl, hplain (.inl hclose)⟩
  · cases h
    constructor
    · rintro ⟨-, -, hnone⟩
      exact ⟨fun hcmd => absurd hcmd hopen, fun hcmd => absurd hcmd hinvoke, fun _ => hnone⟩
    · rintro ⟨-, -, hplain⟩
      exact ⟨hcancel, rfl, hplain (.inr hcancel)⟩

theorem decodeMsg_of_decodeCmd
    (h : decodeCmd build pool cookie = .ok cmd) :
    ∃ hdr params, decodeMsg build pool cookie = .ok (hdr, params) ∧
      decoded hdr params = some cmd := by
  cases hmsg : decodeMsg build pool cookie with
  | ok msg =>
    obtain ⟨hdr, params⟩ := msg
    refine ⟨hdr, params, rfl, ?_⟩
    rw [decodeCmd_eq hmsg] at h
    cases hdecoded : decoded hdr params with
    | none =>
      rw [hdecoded] at h
      cases h
    | some =>
      rw [hdecoded] at h
      cases h
      rfl
  | err | panic =>
    rw [decodeCmd, hmsg] at h
    cases h

/-- An OpenSession with the login of a user, as the client library writes it. -/
def userLogin : Pool :=
  (⟨fun _ => 0⟩ : Pool).put 0x1000
    ((⟨MSG_CMD_OPEN_SESSION, 0, 0, 0, 0, 0, 0, 2⟩ : MsgArgHdr).encode ++
      [⟨ATTR_TYPE_VALUE_INPUT ||| ATTR_META, 1, 2, 0⟩,
        ⟨ATTR_TYPE_VALUE_INPUT ||| ATTR_META, 0, 0, MSG_LOGIN_USER.toUInt64⟩].flatMap
        MsgParam.encode)

end Rustee.Guest
