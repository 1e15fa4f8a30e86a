import Rustee.OsOutcomes

/-!
# What invoke and close can do

In the terms of `OsOutcomes.lean`: the calls of a session that is already in the table.
-/

namespace Rustee.Os

open Prog Machine Tables SlotTable

variable {σ A S : Type} {env : Env σ A S} {m : Machine σ A} {iid : InstanceId} {i : Instance A}

/-! ### Invoke -/

def invokedBy (iid : InstanceId) (entries : Option TaEntryPoints) (ctx : UInt64)
    (code : UInt32) : List Event :=
  if entries.isSome then [.ta iid (.invoke ctx code)] else []

/-- What an invoke on the instance `iid` does when the TA does not panic. -/
inductive Invokes (iid : InstanceId) (i : Instance A) (session : SessionId) (ctx : UInt64)
    (t : Tables A) : List Event → KernelOut → Tables A → Prop
  | unmapped (a : Option A) (code : UInt32) :
      Invokes iid i session ctx t [] (.doneErr code) (t.touch iid a)
  | answered (a : Option A) (code : UInt32) (result : TeeResult) (params : Params) :
      Invokes iid i session ctx t (invokedBy iid i.entries ctx code)
        (.done result (some session) params) (t.touch iid a)

variable {U : List Event → Tables A → Prop} {session : SessionId} {t : Tables A}

theorem does_invokeUserTa
    {sess : Session} {cmdId : UInt32} {params : Params} (h : t.instances.get iid = some i)
    (hcur : m.currentInstance = some iid)
    (hpanic : ∀ a, U [.ta iid (.panicked .invoke)] (t.touch iid a)) :
    Does m iid [] t (invokeUserTa env session sess iid cmdId params)
      (fun evs out t' => Invokes iid i session sess.taSessCtx t evs out t' ∧
        ∀ result s ps, out = .done result s ps → result.code = TEE_SUCCESS →
          evs = invokedBy iid i.entries sess.taSessCtx TEE_SUCCESS) U := by
  refine does_mapParams h fun r a hcode => ?_
  cases r with
  | error code =>
    refine does_pure ⟨.unmapped a code, ?_⟩
    rintro _ _ _ ⟨⟩ hsuccess
    exact absurd hsuccess (hcode code rfl)
  | ok v =>
    have hentry : Does m iid [] (t.touch iid a)
        (invokeEntry env iid sess.taSessCtx cmdId (paramTypesOf params) v.1)
        (fun evs r t' => evs = invokedBy iid i.entries sess.taSessCtx r.1 ∧ t' = t.touch iid a)
        U := by
      refine does_getEntries (get_update_aspace h a) ?_
      cases i.entries with
      | none => exact does_pure ⟨rfl, rfl⟩
      | some => exact does_call _ hcur (hpanic a)
    refine hentry.bind ?_
    rintro _ ⟨code, raw'⟩ _ ⟨rfl, rfl⟩
    refine does_unmapParams fun b => does_pure ⟨.answered b code _ _, ?_⟩
    rintro _ _ _ ⟨⟩ hsuccess
    by_cases hzero : code = TEE_SUCCESS
    · rw [hzero]
    · rw [if_neg hzero] at hsuccess
      exact absurd hsuccess hzero

variable {evs : List Event}

theorem Invokes.unlock {ctx : UInt64} {t' : Tables A} {out : KernelOut}
    (h : t.instances.get iid = some i) (hb : i.busy = false)
    (hinv : Invokes iid { i with busy := true } session ctx (t.lock iid) evs out t') :
    Invokes iid i session ctx t evs out (t'.unlock iid) := by
  have htouch : ∀ a : Option A, (((t.lock iid).touch iid a).unlock iid) = t.touch iid a := by
    intro a
    exact unlock_lock h (fun _ => rfl) (by simp [hb])
  cases hinv with
  | unmapped a code =>
    rw [htouch]
    exact .unmapped a code
  | answered a code result params =>
    rw [htouch]
    exact .answered a code result params

theorem does_invokeLocked {sess : Session} {cmdId : UInt32}
    {params : Params} (h : m.instances.get iid = some i) (hb : i.busy = false)
    (hcur : m.currentInstance = none) :
    Does m iid [] (m.tables.lock iid) (invokeLocked env session sess iid cmdId params)
      (fun evs out t' => Invokes iid i session sess.taSessCtx m.tables evs out t' ∧
        ∀ result s ps, out = .done result s ps → result.code = TEE_SUCCESS →
          evs = invokedBy iid i.entries sess.taSessCtx TEE_SUCCESS)
      (Locked iid (PanicsIn iid .invoke m.tables)) := by
  refine (does_entering hcur (does_invokeUserTa (get_lock h) rfl
    fun a => ⟨m.tables, a, rfl, rfl, rfl, rfl⟩)).bind ?_
  rintro evs out t' ⟨hinv, hran⟩
  exact does_unlock (does_pure ⟨hinv.unlock h hb, hran⟩)

section Mapped

variable {a a' : A} {b : Option A} {raw raw' : RawParams} {vas : MappedVas} {w w' w'' : σ}
  {params : Params} {code cmdId : UInt32} {ep : TaEntryPoints} {sess : Session}

/-- What `invoke` answers when the TA returns `code`. -/
def invokeAnswer (session : SessionId) (params : Params) (code : UInt32) (raw' : RawParams) :
    KernelOut :=
  .done (if code = TEE_SUCCESS then .ok else .ta code) (some session) (paramsFromRaw params raw')

variable (h : m.instances.get iid = some i) (he : i.entries = some ep) (ha : i.aspace = some a)
  (hmap : mapAll env params m.world a = (.mapped a' raw vas, w))
  (hcall : env.ta.invoke ep.invoke sess.taSessCtx cmdId (paramTypesOf params) raw w =
    (.returns (code, raw'), w'))
  (hunmap : unmapAll env (paramsFromRaw params raw') vas w' (some a') = (w'', b))
  (session : SessionId)
include h he ha hmap hcall hunmap

/-- The parameters are mapped, the TA returns, and the parameters are unmapped again. -/
theorem invokeUserTa_of_mapped :
    invokeUserTa env session sess iid cmdId params m =
      (.value (invokeAnswer session params code raw'),
        m.after w'' (m.tables.touch iid b) [.ta iid (.invoke sess.taSessCtx code)]) := by
  have hmapped : mapParams env iid params m =
      (.value (.ok (raw, vas)), m.after w (m.tables.touch iid (some a')) []) := by
    rw [mapParams_of_some h ha, hmap]
    rfl
  have hget : (m.after w (m.tables.touch iid (some a')) []).instances.get iid =
      some { i with aspace := some a' } := get_update_aspace h (some a')
  have hentry : invokeEntry env iid sess.taSessCtx cmdId (paramTypesOf params) raw
      (m.after w (m.tables.touch iid (some a')) []) =
      (.value (code, raw'), m.after w' (m.tables.touch iid (some a'))
        [.ta iid (.invoke sess.taSessCtx code)]) := by
    simp only [invokeEntry, getEntries, bind_apply, gets_apply, hget, he, Option.bind_some,
      callInvoke]
    rw [call_of_returns (m := m.after w (m.tables.touch iid (some a')) []) hcall,
      after_after, tables_after, List.nil_append]
  have hleft : (m.after w' (m.tables.touch iid (some a'))
      [.ta iid (.invoke sess.taSessCtx code)]).instances.get iid =
      some { i with aspace := some a' } := hget
  have hunmapped : unmapParams env iid (paramsFromRaw params raw') vas
      (m.after w' (m.tables.touch iid (some a')) [.ta iid (.invoke sess.taSessCtx code)]) =
      (.value (), m.after w'' (m.tables.touch iid b) [.ta iid (.invoke sess.taSessCtx code)]) := by
    rw [unmapParams_apply, hleft]
    show (Exit.value (), after _
      (unmapAll env (paramsFromRaw params raw') vas w' (some a')).1 (touch _ iid
        (unmapAll env (paramsFromRaw params raw') vas w' (some a')).2) []) = _
    rw [hunmap, after_after, tables_after, touch_touch, List.append_nil]
  simp only [invokeUserTa, bind_apply, hmapped, hentry, hunmapped, pure_apply]
  rfl

theorem invokeLocked_of_mapped (hb : i.busy = false) (hcur : m.currentInstance = none) :
    invokeLocked env session sess iid cmdId params (m.after m.world (m.tables.lock iid) []) =
      (.value (invokeAnswer session params code raw'),
        m.after w'' (m.tables.touch iid b) [.ta iid (.invoke sess.taSessCtx code)]) := by
  have hrun := invokeUserTa_of_mapped
    (m := after { m with currentInstance := some iid } m.world (m.tables.lock iid) [])
    (get_lock (t := m.tables) h) he ha hmap hcall hunmap session
  rw [after_after] at hrun
  have henter := entering_of_value hcur hrun
  have htouch : ((m.tables.lock iid).touch iid b).unlock iid = m.tables.touch iid b :=
    unlock_lock h (fun _ => rfl) (by simp [hb])
  simp only [invokeLocked, bind_apply, henter, unlockInstance_apply, after_after,
    tables_after, List.append_nil, pure_apply]
  rw [← htouch]
  rfl

end Mapped

/-! ### Close -/

section
variable (iid : InstanceId) (entries : Option TaEntryPoints)

def closedBy (ctx : UInt64) : List Event :=
  if entries.isSome then [.ta iid (.closeSession ctx)] else []

def destroyedBy : List Event :=
  if entries.isSome then [.ta iid .destroy] else []

end

section
variable (t : Tables A) (iid : InstanceId)

def Tables.release : Tables A :=
  t.updateInstance iid fun i => { i with sessionCount := countDown i.sessionCount }

def Tables.drop : Tables A :=
  { t with instances := (t.instances.take iid).2 }

end

def LastSession (i : Instance A) : Prop :=
  countDown i.sessionCount = 0 ∧ i.props.instanceKeepAlive = false

instance (i : Instance A) : Decidable (LastSession i) := by
  unfold LastSession; infer_instance

/-- What closing a session of the instance `iid` does once the session is out of the
table and the TA does not panic. -/
inductive Closes (iid : InstanceId) (i : Instance A) (ctx : UInt64) (t : Tables A) :
    List Event → KernelOut → Tables A → Prop
  | kept (hlast : ¬ LastSession i) :
      Closes iid i ctx t (closedBy iid i.entries ctx) closed (t.release iid)
  | destroyed (hlast : LastSession i) :
      Closes iid i ctx t (closedBy iid i.entries ctx ++ destroyedBy iid i.entries) closed
        (t.drop iid)

/-- Where a close can be when the TA panics. -/
inductive ClosePanics (iid : InstanceId) (i : Instance A) (ctx : UInt64) (t : Tables A) :
    List Event → InstanceId → Tables A → Prop
  | closeSession : ClosePanics iid i ctx t [.ta iid (.panicked .closeSession)] iid t
  | destroy (hlast : LastSession i) :
      ClosePanics iid i ctx t
        (closedBy iid i.entries ctx ++ [.ta iid (.panicked .destroy)]) iid (t.release iid)

theorem does_enterIfBound (code : TaEntryPoints → σ → CallExit Unit × σ) {returned panicked : Event}
    (h : t.instances.get iid = some i) (hcur : m.currentInstance = none)
    (hpanic : U (evs ++ [panicked]) t) :
    Does m iid evs t (enterIfBound iid fun ep => call (code ep) (fun _ => returned) panicked)
      (fun evs' _ t' => evs' = evs ++ (if i.entries.isSome then [returned] else []) ∧ t' = t)
      U := by
  refine does_getEntries h ?_
  cases i.entries with
  | none => exact does_pure ⟨(List.append_nil evs).symm, rfl⟩
  | some ep => exact does_enter (code ep) hcur hpanic

theorem releaseSession_apply (h : m.instances.get iid = some i) :
    releaseSession iid m =
      (.value (decide (LastSession i)), m.after m.world (m.tables.release iid) []) := by
  have hget : (m.instances.update iid fun i =>
      { i with sessionCount := if i.sessionCount = 0 then 0 else i.sessionCount - 1 }).get iid =
      some { i with sessionCount := countDown i.sessionCount } :=
    get_update_self (fun _ => rfl) h
  have hlast : (countDown i.sessionCount == 0 && !i.props.instanceKeepAlive) =
      decide (LastSession i) := by
    by_cases hcount : countDown i.sessionCount = 0 <;>
      cases hkeep : i.props.instanceKeepAlive <;> simp [LastSession, hcount, hkeep]
  simp only [releaseSession, updateInstance, getInstance, bind_apply, modify_apply,
    gets_apply, hget, hlast, pure_apply]
  simp [after, tables, Tables.release, Tables.updateInstance, countDown]

theorem does_releaseSession {β : Type} {f : Bool → KM σ A β} {V : List Event → β → Tables A → Prop}
    (h : t.instances.get iid = some i)
    (hf : Does m iid evs (t.release iid) (f (decide (LastSession i))) V U) :
    Does m iid evs t (releaseSession iid >>= f) V U := by
  refine .step (fun w => ⟨w, ?_⟩) hf
  rw [releaseSession_apply (m := m.after w t evs) h, after_after, List.append_nil]
  rfl

section
variable (t : Tables A) (iid : InstanceId)

theorem Tables.drop_updateInstance {f : Instance A → Instance A} (hf : ∀ i, (f i).id = i.id) :
    (t.updateInstance iid f).drop iid = t.drop iid :=
  congrArg (mk t.sessions) (take_update hf)

theorem Tables.drop_lock_release : ((t.lock iid).release iid).drop iid = t.drop iid := by
  have hrelease : ((t.lock iid).release iid).drop iid = (t.lock iid).drop iid :=
    (t.lock iid).drop_updateInstance iid fun _ => rfl
  rw [hrelease]
  exact t.drop_updateInstance iid fun _ => rfl

theorem Tables.lock_release : (t.lock iid).release iid = (t.release iid).lock iid := by
  have hleft : (t.lock iid).release iid = t.updateInstance iid fun i =>
      { i with busy := true, sessionCount := countDown i.sessionCount } :=
    t.updateInstance_updateInstance iid fun _ => rfl
  have hright : (t.release iid).lock iid = t.updateInstance iid fun i =>
      { i with busy := true, sessionCount := countDown i.sessionCount } :=
    t.updateInstance_updateInstance iid fun _ => rfl
  rw [hleft, hright]

end

theorem get_release (h : t.instances.get iid = some i) :
    (t.release iid).instances.get iid = some { i with sessionCount := countDown i.sessionCount } :=
  get_update_self (f := fun i : Instance A => { i with sessionCount := countDown i.sessionCount })
    (fun _ => rfl) h

theorem does_killInstance {β : Type} {f : Unit → KM σ A β} {V : List Event → β → Tables A → Prop}
    (hf : Does m iid evs (t.drop iid) (f ()) V U) :
    Does m iid evs t (Prog.modify (killInstance env iid) >>= fun _ => dropInstance iid >>= f)
      V U := by
  intro w
  have hdrop := t.drop_updateInstance iid
    (f := fun i => { i with state := .dead, aspace := none }) fun _ => rfl
  have hrun := hf (killInstance env iid (m.after w t evs)).world
  rw [← hdrop] at hrun
  exact hrun

theorem closeUserTa_outcome (env : Env σ A S) (ctx : UInt64)
    (h : m.instances.get iid = some i) (hb : i.busy = false) (hcur : m.currentInstance = none) :
    Outcome m (Closes iid i ctx m.tables) (ClosePanics iid i ctx m.tables)
      (closeUserTa env iid ctx (m.after m.world (m.tables.lock iid) [])) := by
  have hlocked := get_lock (t := m.tables) h
  have hreleased := get_release hlocked
  suffices hdoes : Does m iid [] (m.tables.lock iid) (closeUserTa env iid ctx)
      (Closes iid i ctx m.tables) (Locked iid (ClosePanics iid i ctx m.tables)) from
    hdoes.outcome m.world
  refine (does_enterIfBound (fun ep => env.ta.closeSession ep.closeSession ctx) hlocked hcur
    ⟨_, _, (touch_self hlocked).symm, .closeSession⟩).bind ?_
  rintro _ _ _ ⟨rfl, rfl⟩
  refine does_releaseSession hlocked ?_
  by_cases hlast : LastSession i
  · have hlast' : decide (LastSession { i with busy := true }) = true := decide_eq_true hlast
    rw [hlast', if_pos rfl]
    have hlocks : (m.tables.lock iid).release iid =
        ((m.tables.release iid).lock iid).touch iid i.aspace := by
      rw [← lock_release]
      exact (touch_self hreleased).symm
    refine (does_enterIfBound (fun ep => env.ta.destroy ep.destroy) hreleased hcur
      ⟨_, _, hlocks, .destroy hlast⟩).bind ?_
    rintro _ _ _ ⟨rfl, rfl⟩
    refine does_killInstance ?_
    rw [drop_lock_release]
    exact does_pure (.destroyed hlast)
  · have hlast' : decide (LastSession { i with busy := true }) = false := decide_eq_false hlast
    have hunlock : ((m.tables.lock iid).release iid).unlock iid = m.tables.release iid :=
      unlock_lock (t := m.tables) h (fun _ => rfl) (by simp [hb])
    rw [hlast', if_neg Bool.false_ne_true]
    refine does_unlock (does_pure ?_)
    rw [hunlock]
    exact .kept hlast

end Rustee.Os
