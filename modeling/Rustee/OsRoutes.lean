import Rustee.OsWalk

/-!
# Where a command goes

Before anything of a TA runs, `handle` looks at the notice gate, the cancelled ids, the tables and
the pending request. It then answers, or hands the command to the function that does the work.
`handle_routes` says this once, with all that has been checked on the way; what a command can do
is read off its cases.
-/

namespace Rustee.Os

open Prog SlotTable PtaRegistry Machine InstanceTable EarlyTas

variable {σ A S : Type} {env : Env σ A S} {m : Machine σ A} {iid : InstanceId}

/-- What `handle` returns for a command, in each of the ways it can go. -/
inductive Route (env : Env σ A S) (m : Machine σ A) :
    KernelCmd → Exit KernelOut × Machine σ A → Prop
  | refused {cmd code} (hcode : code ≠ TEE_SUCCESS)
      (hrpc : ∀ resp, cmd = .rpcComplete resp → m.noticesOk = true → m.yielding = none) :
      Route env m cmd (.value (.doneErr code), m)
  | cancelled (cancelId : UInt32) :
      Route env m (.cancel cancelId) (.value (.doneErr TEE_SUCCESS),
        { m with cancelledIds := m.cancelledIds ++ [cancelId] })
  | yielded {uuid login params cancelId timeoutMs} (hnone : m.yielding = none)
      (hsingle : liveSingle m.instances uuid = none) (hearly : get m.early uuid = none) :
      Route env m (.openSession uuid login params cancelId timeoutMs)
        (.value (.rpc (.loadTa uuid)),
          { m with yielding := some ⟨uuid, login, params, cancelId, timeoutMs⟩ })
  | reused {uuid login params cancelId timeoutMs iid i} (hadm : Admitted m cancelId)
      (hpta : getMut m.ptas uuid = none) (hsingle : liveSingle m.instances uuid = some iid)
      (hi : m.instances.get iid = some i)
      (hcount : (!i.props.multiSession && decide (i.sessionCount > 0)) = false)
      (hb : i.busy = false) :
      Route env m (.openSession uuid login params cancelId timeoutMs)
        (bindAndUnlock env iid uuid login params (m.after m.world (m.tables.lock iid) []))
  | created {uuid login params cancelId timeoutMs ta} (hadm : Admitted m cancelId)
      (hpta : getMut m.ptas uuid = none) (hsingle : liveSingle m.instances uuid = none)
      (hearly : get m.early uuid = some ta) :
      Route env m (.openSession uuid login params cancelId timeoutMs)
        (instantiateAndBind env ta.props uuid login params ta.entries none m)
  | ptaRefused {uuid login params cancelId timeoutMs} (hreg : (getMut m.ptas uuid).isSome) (w : σ)
      (e : TeeResult) (params' : Params) :
      Route env m (.openSession uuid login params cancelId timeoutMs)
        (.value (.done e none params'), m.after w m.tables [.pta uuid (.refused e)])
  | ptaPanicked {uuid login params cancelId timeoutMs} (hreg : (getMut m.ptas uuid).isSome)
      (w : σ) :
      Route env m (.openSession uuid login params cancelId timeoutMs)
        (.unwind, m.after w m.tables [.pta uuid (.panicked .open_)])
  | ptaOpened {uuid login params cancelId timeoutMs} (hreg : (getMut m.ptas uuid).isSome) (w : σ)
      (ctx : UInt64) (params' : Params) (hroom : m.sessions.HasRoom) :
      Route env m (.openSession uuid login params cancelId timeoutMs)
        (.value (.done .ok (some m.sessions.nextId) params'), m.after w
          (m.tables.withSessions (m.sessions.alloc (ptaSession uuid login ctx)).2)
          [.pta uuid (.opened ctx), .sessionIssued (some m.sessions.nextId)])
  | ptaUnrecorded {uuid login params cancelId timeoutMs} (hreg : (getMut m.ptas uuid).isSome)
      (w : σ) (ctx : UInt64) (hroom : ¬ m.sessions.HasRoom) :
      Route env m (.openSession uuid login params cancelId timeoutMs)
        (.value (.doneErr TEE_ERROR_OUT_OF_MEMORY), m.after w
          (m.tables.withSessions (m.sessions.alloc (ptaSession uuid login ctx)).2)
          [.pta uuid (.opened ctx), .sessionIssued none])
  | ptaInvoked {session cmdId params cancelId timeoutMs sess}
      (hs : m.sessions.get session = some sess) (hk : sess.kind = .pta) (w : σ) (r : TeeResult)
      (params' : Params) :
      Route env m (.invoke session cmdId params cancelId timeoutMs)
        (.value (.done r (some session) params'),
          { m.after w m.tables [.pta sess.uuid (.invoke sess.taSessCtx)] with
            currentPta := false })
  | ptaHalted {session cmdId params cancelId timeoutMs sess}
      (hs : m.sessions.get session = some sess) (hk : sess.kind = .pta) (w : σ) :
      Route env m (.invoke session cmdId params cancelId timeoutMs)
        (.unwind, { m.after w m.tables [.pta sess.uuid (.panicked .invoke)] with
          currentPta := true })
  | invoked {session cmdId params cancelId timeoutMs sess iid i} (hadm : Admitted m cancelId)
      (hs : m.sessions.get session = some sess) (hstate : sess.state ≠ .dead)
      (hk : sess.kind = .userTa) (hinst : sess.inst = some iid) (hi : m.instances.get iid = some i)
      (hb : i.busy = false) :
      Route env m (.invoke session cmdId params cancelId timeoutMs)
        (invokeLocked env session sess iid cmdId params
          (m.after m.world (m.tables.lock iid) []))
  | ptaClosed {session sess} (hs : m.sessions.get session = some sess) (hk : sess.kind = .pta)
      (w : σ) :
      Route env m (.closeSession session) (.value closed, m.after w
        (m.tables.withSessions (m.sessions.take session).2)
        [.pta sess.uuid (.close sess.taSessCtx)])
  | ptaClosePanicked {session sess} (hs : m.sessions.get session = some sess)
      (hk : sess.kind = .pta) (w : σ) :
      Route env m (.closeSession session) (.unwind, m.after w
        (m.tables.withSessions (m.sessions.take session).2)
        [.pta sess.uuid (.panicked .close)])
  | closed {session sess iid i} (hs : m.sessions.get session = some sess) (hk : sess.kind = .userTa)
      (hinst : sess.inst = some iid) (hi : m.instances.get iid = some i) (hb : i.busy = false) :
      Route env m (.closeSession session) (closeUserTa env iid sess.taSessCtx
        (m.after m.world ((m.tables.withSessions (m.sessions.take session).2).lock iid) []))
  | taken {session : SessionId} {sess : Session} {out : KernelOut}
      (hs : m.sessions.get session = some sess) (hout : ∀ r, out ≠ .rpc r)
      (hwhy : (sess.kind = .pta ∧ getMut m.ptas sess.uuid = none) ∨
        (sess.kind = .userTa ∧ ∀ iid i, sess.inst = some iid →
          m.instances.get iid = some i → i.busy = true)) :
      Route env m (.closeSession session) (.value out,
        m.after m.world (m.tables.withSessions (m.sessions.take session).2) [])
  | answered {resp y} (hy : m.yielding = some y) (code : UInt32) (w : σ) :
      Route env m (.rpcComplete resp)
        (.value (.doneErr code), { m.after w m.tables [] with yielding := none })
  | aborted {bytes : List UInt8} {m' : Machine σ A}
      (hbad : loadImage env.crypto env.target.build bytes = .panic ∨
        ∃ image, loadImage env.crypto env.target.build bytes = .ok image ∧
          mapElf env (env.hal.newAddressSpace m.world).1 bytes = .panic) :
      Route env m (.rpcComplete (.loadTa bytes)) (.abort, m')
  | loaded {bytes y image entries a} (hy : m.yielding = some y) (hadm : Admitted m y.cancelId)
      (hload : loadImage env.crypto env.target.build bytes = .ok image)
      (hu : image.props.uuid = y.uuid)
      (hmap : mapElf env (env.hal.newAddressSpace m.world).1 bytes = .ok (entries, a)) :
      Route env m (.rpcComplete (.loadTa bytes))
        (instantiateAndBind env image.props y.uuid y.login y.params entries (some a)
          (after { m with yielding := none } (env.hal.newAddressSpace m.world).2
            m.tables []))

/-! ### The parts of a command -/

theorem handle_of_gate (env : Env σ A S) (hgate : m.noticesOk = true) (cmd : KernelCmd) :
    handle env cmd m = execute env cmd m := by
  simp only [handle, bind_apply, gets_apply, hgate, Bool.not_true, Bool.false_eq_true, if_false]

theorem handle_of_closed_gate (env : Env σ A S) (hgate : m.noticesOk = false) (cmd : KernelCmd) :
    handle env cmd m = (.value (.doneErr TEE_ERROR_SECURITY), m) := by
  simp only [handle, bind_apply, gets_apply, hgate, Bool.not_false, if_true, pure_apply]

theorem getMut_uuid {ptas : PtaRegistry} {uuid : Uuid} {pta : Pta}
    (h : getMut ptas uuid = some pta) : pta.uuid = uuid := by
  have := List.find?_some h
  simpa using this

theorem lockInstance_cases (iid : InstanceId) (m : Machine σ A) :
    (∃ i, m.instances.get iid = some i ∧ i.busy = false ∧ lockInstance iid m =
      (.value (.ok ()), m.after m.world (m.tables.lock iid) [])) ∨
    ∃ e, e ≠ TEE_SUCCESS ∧ lockInstance iid m = (.value (.error e), m) ∧
      ∀ i, m.instances.get iid = some i → i.busy = true := by
  cases hi : m.instances.get iid with
  | none =>
    refine .inr ⟨TEE_ERROR_TARGET_DEAD, by decide, ?_, fun _ h => by cases h⟩
    simp only [lockInstance, getInstance, bind_apply, gets_apply, hi, pure_apply]
  | some i =>
    cases hb : i.busy with
    | false => exact .inl ⟨i, rfl, hb, lockInstance_of_free hi hb⟩
    | true =>
      refine .inr ⟨_, by decide, lockInstance_of_busy hi hb, ?_⟩
      rintro _ ⟨⟩
      exact hb

theorem get_of_liveSingle {uuid : Uuid} (h : liveSingle m.instances uuid = some iid) :
    ∃ i, m.instances.get iid = some i := by
  obtain ⟨i, hfind, hid⟩ := Option.map_eq_some_iff.mp h
  cases hget : m.instances.get iid with
  | some i => exact ⟨i, rfl⟩
  | none => exact absurd hid (get_eq_none.mp hget i (List.mem_of_find?_eq_some hfind))

/-- `rpc_complete` on an image, with the parsers' results written out. -/
theorem loadTaAnswer_apply (env : Env σ A S) (y : Yielding) (bytes : List UInt8) (m : Machine σ A) :
    loadTaAnswer env y bytes m =
      if m.cancelledIds.any (· == y.cancelId) then (.value (.doneErr TEE_ERROR_CANCEL), m)
      else match loadImage env.crypto env.target.build bytes with
        | .panic => (.abort, m)
        | .err code => (.value (.doneErr code), m)
        | .ok loaded =>
          if loaded.props.uuid ≠ y.uuid then (.value (.doneErr TEE_ERROR_SECURITY), m)
          else match mapElf env (env.hal.newAddressSpace m.world).1 bytes with
            | .panic => (.abort, m.after (env.hal.newAddressSpace m.world).2 m.tables [])
            | .err code => (.value (.doneErr code),
                m.after (env.hal.newAddressSpace m.world).2 m.tables [])
            | .ok (entries, aspace) =>
              instantiateAndBind env loaded.props y.uuid y.login y.params entries (some aspace)
                (m.after (env.hal.newAddressSpace m.world).2 m.tables []) := by
  simp only [loadTaAnswer, cancelled, bind_apply, gets_apply]
  by_cases hcancel : (m.cancelledIds.any (· == y.cancelId)) = true
  · rw [if_pos hcancel, if_pos hcancel]
    rfl
  · rw [if_neg hcancel, if_neg hcancel]
    cases hload : loadImage env.crypto env.target.build bytes with
    | panic | err => rfl
    | ok loaded =>
      by_cases hu : loaded.props.uuid = y.uuid
      · simp only [parsing, bind_apply, pure_apply, hu, ne_eq, not_true_eq_false,
          if_false, newAddressSpace, transform_apply, after_self]
        cases mapElf env (env.hal.newAddressSpace m.world).1 bytes with
        | panic | err | ok => rfl
      · simp only [parsing, bind_apply, pure_apply, hu, ne_eq, not_false_eq_true, if_true]

section Routes

variable {uuid : Uuid} {login : Login} {params : Params} {cancelId timeoutMs : UInt32}
  {r : Exit KernelOut × Machine σ A} {cmd : KernelCmd}

theorem Route.of_refused {code : UInt32} (hr : (.value (.doneErr code), m) = r)
    (hcode : code ≠ TEE_SUCCESS) (hcmd : ∀ resp, cmd ≠ .rpcComplete resp) : Route env m cmd r := by
  subst hr
  exact .refused hcode fun resp h => absurd h (hcmd resp)

theorem openUserTa_routes (hadm : Admitted m cancelId) (hpta : getMut m.ptas uuid = none)
    (hr : openUserTa env uuid login params cancelId timeoutMs m = r) :
    Route env m (.openSession uuid login params cancelId timeoutMs) r := by
  have hcmd : ∀ resp, KernelCmd.openSession uuid login params cancelId timeoutMs ≠
      .rpcComplete resp := by simp
  replace hr := of_gets_bind hr
  rw [hadm.2, if_neg Bool.false_ne_true] at hr
  replace hr := of_gets_bind hr
  cases hsingle : liveSingle m.instances uuid with
  | some iid =>
    obtain ⟨i, hi⟩ := get_of_liveSingle hsingle
    rw [hsingle] at hr
    replace hr := of_gets_bind hr
    rw [hi] at hr
    dsimp only at hr
    cases hcount : !i.props.multiSession && decide (i.sessionCount > 0) with
    | true =>
      rw [hcount, if_pos rfl] at hr
      exact .of_refused hr (by decide) hcmd
    | false =>
      rw [hcount, if_neg Bool.false_ne_true] at hr
      rcases lockInstance_cases iid m with ⟨i', hi', hb, hlock⟩ | ⟨e, he, hlock, -⟩
      · cases hi.symm.trans hi'
        rw [bind_of_value hlock] at hr
        subst hr
        exact .reused hadm hpta hsingle hi hcount hb
      · rw [bind_of_value hlock] at hr
        exact .of_refused hr he hcmd
  | none =>
    rw [hsingle] at hr
    replace hr := of_gets_bind hr
    cases hearly : get m.early uuid with
    | some =>
      rw [hearly] at hr
      subst hr
      exact .created hadm hpta hsingle hearly
    | none =>
      rw [hearly] at hr
      replace hr := of_gets_bind hr
      cases hy : m.yielding with
      | some =>
        rw [hy] at hr
        exact .of_refused hr (by decide) hcmd
      | none =>
        rw [hy] at hr
        subst hr
        exact .yielded hy hsingle hearly

theorem open_routes (hgate : m.noticesOk = true)
    (hr : open_ env uuid login params cancelId timeoutMs m = r) :
    Route env m (.openSession uuid login params cancelId timeoutMs) r := by
  replace hr := of_gets_bind hr
  split at hr
  · exact .of_refused hr (by decide) (by simp)
  rename_i hcancel
  have hadm : Admitted m cancelId := ⟨hgate, (Bool.not_eq_true _).mp hcancel⟩
  replace hr := of_gets_bind hr
  cases hpta : getMut m.ptas uuid with
  | none =>
    rw [hpta] at hr
    exact openUserTa_routes hadm hpta hr
  | some pta =>
    obtain rfl := getMut_uuid hpta
    have hreg : (getMut m.ptas pta.uuid).isSome := by rw [hpta]; rfl
    rw [hpta] at hr
    rcases call_cases (env.pta.open_ pta params) (fun r => .pta pta.uuid (ptaOpenCall r.1))
      (.pta pta.uuid (.panicked .open_)) m with ⟨⟨answer, params'⟩, w, hcall⟩ | ⟨w, hcall⟩
    · replace hr := (bind_of_value hcall).symm.trans hr
      cases answer with
      | error e =>
        subst hr
        exact .ptaRefused hreg w e params'
      | ok ctx =>
        have halloc : ∀ sid, (m.sessions.alloc (ptaSession pta.uuid login ctx)).1 = sid →
            allocSession (ptaSession pta.uuid login ctx)
              (m.after w m.tables [.pta pta.uuid (.opened ctx)]) =
            (.value sid, m.after w
              (m.tables.withSessions (m.sessions.alloc (ptaSession pta.uuid login ctx)).2)
              [.pta pta.uuid (.opened ctx), .sessionIssued sid]) := by
          rintro _ rfl
          simp [allocSession, ptaSession, after, tables, Tables.withSessions]
        by_cases hroom : m.sessions.HasRoom
        · obtain ⟨t, hissued, -⟩ := alloc_of_room hroom (ptaSession pta.uuid login ctx)
          replace hr := (bind_of_value (halloc _ (by rw [hissued]))).symm.trans hr
          subst hr
          exact .ptaOpened hreg w ctx params' hroom
        · replace hr := (bind_of_value (halloc none (by rw [alloc_of_full hroom]))).symm.trans hr
          subst hr
          exact .ptaUnrecorded hreg w ctx hroom
    · replace hr := (bind_of_unwind hcall).symm.trans hr
      subst hr
      exact .ptaPanicked hreg w

variable {session : SessionId}

theorem invoke_routes {cmdId : UInt32} (hgate : m.noticesOk = true)
    (hr : invoke env session cmdId params cancelId m = r) :
    Route env m (.invoke session cmdId params cancelId timeoutMs) r := by
  have hcmd : ∀ resp, KernelCmd.invoke session cmdId params cancelId timeoutMs ≠
      .rpcComplete resp := by simp
  replace hr := of_gets_bind hr
  split at hr
  · exact .of_refused hr (by decide) hcmd
  rename_i hcancel
  replace hr := of_gets_bind hr
  cases hs : m.sessions.get session with
  | none =>
    rw [hs] at hr
    exact .of_refused hr (by decide) hcmd
  | some sess =>
    rw [hs] at hr
    dsimp only at hr
    split at hr
    · exact .of_refused hr (by decide) hcmd
    rename_i hstate
    cases hk : sess.kind with
    | pta =>
      rw [hk] at hr
      replace hr := of_gets_bind hr
      cases hpta : getMut m.ptas sess.uuid with
      | none =>
        rw [hpta] at hr
        exact .of_refused hr (by decide) hcmd
      | some pta =>
        have huuid := getMut_uuid hpta
        rw [hpta] at hr
        rcases call_cases (env.pta.invoke pta sess.taSessCtx cmdId params)
          (fun _ => .pta pta.uuid (.invoke sess.taSessCtx)) (.pta pta.uuid (.panicked .invoke))
          { m with currentPta := true } with ⟨⟨answer, params'⟩, w, hcall⟩ | ⟨w, hcall⟩
        · replace hr := (bind_of_value hcall).symm.trans hr
          rw [huuid] at hr
          subst hr
          exact .ptaInvoked hs hk w answer params'
        · replace hr := (bind_of_unwind hcall).symm.trans hr
          rw [huuid] at hr
          subst hr
          exact .ptaHalted hs hk w
    | userTa =>
      rw [hk] at hr
      cases hinst : sess.inst with
      | none =>
        rw [hinst] at hr
        exact .of_refused hr (by decide) hcmd
      | some iid =>
        rw [hinst] at hr
        rcases lockInstance_cases iid m with ⟨i, hi, hb, hlock⟩ | ⟨e, he, hlock, -⟩
        · replace hr := (bind_of_value hlock).symm.trans hr
          subst hr
          exact .invoked ⟨hgate, (Bool.not_eq_true _).mp hcancel⟩ hs hstate hk hinst hi hb
        · replace hr := (bind_of_value hlock).symm.trans hr
          exact .of_refused hr he hcmd

theorem close_routes (hr : close env session m = r) : Route env m (.closeSession session) r := by
  replace hr := (bind_of_value (takeSession_apply session m)).symm.trans hr
  cases hs : m.sessions.get session with
  | none =>
    have hsame : m.after m.world (m.tables.withSessions (m.sessions.take session).2) [] = m := by
      rw [take_of_fresh (get_eq_none.mp hs)]
      simp [after, Tables.withSessions, tables]
    rw [hs, hsame] at hr
    exact .of_refused hr (by decide) (by simp)
  | some sess =>
    rw [hs] at hr
    dsimp only at hr
    cases hk : sess.kind with
    | pta =>
      rw [hk] at hr
      replace hr := of_gets_bind hr
      cases hpta : getMut m.ptas sess.uuid with
      | none =>
        have hgone : getMut (m.after m.world
            (m.tables.withSessions (m.sessions.take session).2) []).ptas sess.uuid = none := hpta
        rw [hgone] at hr
        subst hr
        exact .taken hs (fun _ h => by cases h) (.inl ⟨hk, hpta⟩)
      | some pta =>
        have huuid := getMut_uuid hpta
        have hfound : getMut (m.after m.world
            (m.tables.withSessions (m.sessions.take session).2) []).ptas sess.uuid = some pta :=
          hpta
        rw [hfound] at hr
        rcases call_cases (env.pta.close pta sess.taSessCtx)
          (fun _ => .pta pta.uuid (.close sess.taSessCtx)) (.pta pta.uuid (.panicked .close))
          (m.after m.world (m.tables.withSessions (m.sessions.take session).2) []) with
          ⟨_, w, hcall⟩ | ⟨w, hcall⟩
        · replace hr := (bind_of_value hcall).symm.trans hr
          rw [after_after, huuid] at hr
          subst hr
          exact .ptaClosed hs hk w
        · replace hr := (bind_of_unwind hcall).symm.trans hr
          rw [after_after, huuid] at hr
          subst hr
          exact .ptaClosePanicked hs hk w
    | userTa =>
      rw [hk] at hr
      cases hinst : sess.inst with
      | none =>
        rw [hinst] at hr
        subst hr
        exact .taken hs (fun _ h => by cases h)
          (.inr ⟨hk, fun _ _ h => by cases hinst.symm.trans h⟩)
      | some iid =>
        rw [hinst] at hr
        rcases lockInstance_cases iid (m.after m.world
          (m.tables.withSessions (m.sessions.take session).2) []) with
          ⟨i, hi, hb, hlock⟩ | ⟨e, -, hlock, hbusy⟩
        · rw [after_after] at hlock
          replace hr := (bind_of_value hlock).symm.trans hr
          subst hr
          exact .closed hs hk hinst hi hb
        · replace hr := (bind_of_value hlock).symm.trans hr
          subst hr
          refine .taken hs (fun _ h => by cases h) (.inr ⟨hk, fun iid' i hiid hi => ?_⟩)
          cases hinst.symm.trans hiid
          exact hbusy i hi

theorem rpcComplete_routes {resp : RpcResponse} (hgate : m.noticesOk = true)
    (hr : rpcComplete env resp m = r) : Route env m (.rpcComplete resp) r := by
  replace hr := of_gets_bind hr
  cases hy : m.yielding with
  | none =>
    rw [hy] at hr
    subst hr
    exact .refused (by decide) fun _ _ _ => hy
  | some y =>
    rw [hy] at hr
    have hother : ∀ code w, (.value (.doneErr code), after { m with yielding := none } w
        m.tables []) = r → Route env m (.rpcComplete resp) r := by
      rintro code w rfl
      exact .answered hy code w
    have hstay : ∀ code, (.value (.doneErr code), { m with yielding := none }) = r →
        Route env m (.rpcComplete resp) r := by
      intro code hcode
      refine hother code m.world ?_
      rw [← hcode]
      exact congrArg _ (after_self _ _)
    cases resp with
    | loadTa bytes =>
      replace hr : loadTaAnswer env y bytes { m with yielding := none } = r := hr
      rw [loadTaAnswer_apply] at hr
      split at hr
      · exact hstay _ hr
      rename_i hcancel
      cases hload : loadImage env.crypto env.target.build bytes with
      | panic =>
        rw [hload] at hr
        subst hr
        exact .aborted (.inl hload)
      | err code =>
        rw [hload] at hr
        exact hstay code hr
      | ok image =>
        rw [hload] at hr
        dsimp only at hr
        split at hr
        · exact hstay _ hr
        rename_i hu
        cases hmap : mapElf env (env.hal.newAddressSpace m.world).1 bytes with
        | panic =>
          rw [hmap] at hr
          subst hr
          exact .aborted (.inr ⟨image, hload, hmap⟩)
        | err code =>
          rw [hmap] at hr
          exact hother code _ hr
        | ok =>
          rw [hmap] at hr
          subst hr
          exact .loaded hy ⟨hgate, (Bool.not_eq_true _).mp hcancel⟩ hload (not_not.mp hu) hmap
    | error code => exact hstay code hr
    | time | fs | shm => exact hstay _ hr

end Routes

/-- The end of a command: `on_panic` answers when a callee panicked. -/
def settle (env : Env σ A S) : Exit KernelOut × Machine σ A → Reply × Machine σ A
  | (.value out, m') => (.out out, m')
  | (.unwind, m') => onPanic env m'
  | (.abort, m') => (.halted, m')

theorem dispatch_eq (env : Env σ A S) (cmd : KernelCmd) (m : Machine σ A) :
    dispatch env cmd m = settle env (handle env cmd m) := rfl

theorem handle_routes (env : Env σ A S) (cmd : KernelCmd) (m : Machine σ A) :
    Route env m cmd (handle env cmd m) := by
  cases hgate : m.noticesOk with
  | false =>
    rw [handle_of_closed_gate env hgate]
    exact .refused (by decide) fun _ _ hopen => absurd (hgate.symm.trans hopen) (by decide)
  | true =>
    rw [handle_of_gate env hgate]
    cases cmd with
    | openSession => exact open_routes hgate rfl
    | invoke => exact invoke_routes hgate rfl
    | closeSession => exact close_routes rfl
    | cancel cancelId => exact .cancelled cancelId
    | rpcComplete => exact rpcComplete_routes hgate rfl

end Rustee.Os
