import Rustee.OsWalk

/-!
# Relations between the states before and after a command

A frame is a relation that every primitive operation of the kernel respects. `Tolerates`
lists what such a relation has to put up with, and the walk over the kernel does the rest.
-/

namespace Rustee.Os

open Prog

variable {σ A S α : Type} {ok : Event → Prop} {F : Frame (Machine σ A)}

/-! ### Frames and the walk -/

def frameJudgement (F : Frame (Machine σ A)) : Judgement σ A := fun _ _ x m => F.rel m (x m).2

theorem frameJudgement_sequential (F : Frame (Machine σ A)) : (frameJudgement F).Sequential where
  pure _ m := F.refl m
  abort m := F.refl m
  bind := rel_bind

theorem rel_entering (hset : ∀ c, Keeps F (setCurrentInstance c : KM σ A Unit)) {iid : InstanceId}
    {entry : KM σ A α} {m : Machine σ A} (h : F.rel { m with currentInstance := some iid }
      (entry { m with currentInstance := some iid }).2) : F.rel m (entering iid entry m).2 := by
  refine rel_bind (hset (some iid) m) fun _ m1 hrun => ?_
  cases hrun
  exact Keeps.bind_at h fun _ => (hset none).bind fun _ => keeps_pure _

variable {env : Env σ A S} {cmd : KernelCmd}

theorem keeps_ptaInvoke (hset : ∀ b, Keeps F (setCurrentPta b : KM σ A Unit))
    {pta : Pta} {ctx : UInt64} {cmdId : UInt32} {params : Params}
    (hcall : Keeps F (callPtaInvoke env pta ctx cmdId params)) (out : TeeResult × Params → α) :
    Keeps F (setCurrentPta true >>= fun _ => callPtaInvoke env pta ctx cmdId params >>= fun r =>
      setCurrentPta false >>= fun _ => pure (out r)) :=
  (hset true).bind fun _ => hcall.bind fun _ => (hset false).bind fun _ => keeps_pure _

/-- A command is `handle`, and `on_panic` when a callee panics. -/
theorem rel_dispatch {m : Machine σ A}
    (h : F.rel m (handle env cmd m).2) (hpanic : ∀ m', F.rel m' (onPanic env m').2) :
    F.rel m (dispatch env cmd m).2 := by
  unfold dispatch
  rcases hrun : handle env cmd m with ⟨exit, m'⟩
  rw [hrun] at h
  cases exit with
  | value | abort => exact h
  | unwind => exact F.trans h (hpanic m')

theorem rel_onPanic (m : Machine σ A)
    (hkill : ∀ iid, F.rel m (onTaPanic env { m with currentInstance := some iid }).2) :
    F.rel m (onPanic env m).2 := by
  unfold onPanic
  split
  · exact F.refl m
  · cases hcur : m.currentInstance with
    | none =>
      rw [onTaPanic, hcur]
      exact F.refl m
    | some iid =>
      have hself : { m with currentInstance := some iid } = m := by rw [← hcur]
      have hrel := hkill iid
      rw [hself] at hrel
      exact hrel

/-! ### What a frame tolerates -/

/-- What was set up at start is the same. -/
structure SameSetup (m m' : Machine σ A) : Prop where
  ptas : m'.ptas = m.ptas
  early : m'.early = m.early
  noticesOk : m'.noticesOk = m.noticesOk

theorem SameSetup.trans {m1 m2 m3 : Machine σ A} (h1 : SameSetup m1 m2)
    (h2 : SameSetup m2 m3) : SameSetup m1 m3 :=
  ⟨h2.ptas.trans h1.ptas, h2.early.trans h1.early, h2.noticesOk.trans h1.noticesOk⟩

/-- So is the pending request. -/
structure Untouched (m m' : Machine σ A) : Prop extends SameSetup m m' where
  yielding : m'.yielding = m.yielding

/-- Calls may be logged. -/
structure CallsOk (ok : Event → Prop) : Prop where
  ta : ∀ iid c, ok (.ta iid c)
  pta : ∀ uuid c, ok (.pta uuid c)

/-- The relation allows changes outside the instance table, the log and the pending
request, one event that satisfies `ok`, and a change to one instance that leaves it
the same instance. -/
structure Tolerates (F : Frame (Machine σ A)) (ok : Event → Prop) : Prop where
  passes : ∀ {m m' : Machine σ A}, Untouched m m' → m'.instances = m.instances →
    m'.log = m.log → F.rel m m'
  logs : ∀ {m m' : Machine σ A} {ev : Event}, ok ev → Untouched m m' →
    m'.instances = m.instances → m'.log = m.log ++ [ev] → F.rel m m'
  updates : ∀ {m m' : Machine σ A} (iid : InstanceId) (f : Instance A → Instance A),
    (∀ i, SameInstance i (f i)) → Untouched m m' → m'.instances = m.instances.update iid f →
    m'.log = m.log → F.rel m m'

/-- It also allows an instance to be dropped. -/
structure ToleratesDrops (F : Frame (Machine σ A)) (ok : Event → Prop) : Prop
    extends Tolerates F ok where
  drops : ∀ {m m' : Machine σ A} (iid : InstanceId), Untouched m m' →
    m'.instances = (m.instances.take iid).2 → m'.log = m.log → F.rel m m'

namespace Tolerates

variable (hF : Tolerates F ok)
include hF

theorem call {code : σ → CallExit α × σ} {returned : α → Event}
    {panicked : Event} (hr : ∀ a, ok (returned a)) (hp : ok panicked) :
    Keeps F (call code returned panicked) := by
  intro m
  unfold Os.call
  rcases code m.world with ⟨exit, w⟩
  cases exit with
  | returns a => exact hF.logs (hr a) ⟨⟨rfl, rfl, rfl⟩, rfl⟩ rfl rfl
  | panics => exact hF.logs hp ⟨⟨rfl, rfl, rfl⟩, rfl⟩ rfl rfl

theorem updateInstance (iid : InstanceId) {f : Instance A → Instance A}
    (hsame : ∀ i, SameInstance i (f i)) : Keeps F (updateInstance iid f) :=
  keeps_modify fun _ => hF.updates iid f hsame ⟨⟨rfl, rfl, rfl⟩, rfl⟩ rfl rfl

theorem restoreAspace (iid : InstanceId) (a : A) : Keeps F (restoreAspace iid a) := by
  refine (keeps_gets _).bind fun inst => ?_
  cases inst with
  | none => exact keeps_abort
  | some =>
    apply hF.updateInstance
    exact fun _ => ⟨rfl, rfl, rfl, rfl⟩

theorem mapParams (env : Env σ A S) (iid : InstanceId) (params : Params) :
    Keeps F (mapParams env iid params) := by
  refine (keeps_gets _).bind fun inst => ?_
  split
  · exact keeps_pure _
  · refine Keeps.bind (hF.updateInstance iid ?_) fun _ => ?_
    · exact fun _ => ⟨rfl, rfl, rfl, rfl⟩
    refine Keeps.bind (keeps_transform fun _ => hF.passes ⟨⟨rfl, rfl, rfl⟩, rfl⟩ rfl rfl)
      fun exit => ?_
    cases exit with
    | lost => exact keeps_pure _
    | restored a | mapped a => exact (hF.restoreAspace iid a).bind fun _ => keeps_pure _

theorem steps (hok : CallsOk ok) (env : Env σ A S) (m : Machine σ A) (cmd : KernelCmd)
    (hsession : cmd.mayOpen = true → ∀ id, ok (.sessionIssued id)) :
    Steps env (frameJudgement F) m cmd where
  toSequential := frameJudgement_sequential F
  reads m _ := F.refl m
  counts iid f m hf := hF.updateInstance iid (fun i => by rw [hf i]; exact ⟨rfl, rfl, rfl, rfl⟩) m
  records hopen _ _ := hF.logs (hsession hopen _) ⟨⟨rfl, rfl, rfl⟩, rfl⟩ rfl rfl
  unmaps iid _ _ m := by
    refine hF.updates iid _ ?_ ⟨⟨rfl, rfl, rfl⟩, rfl⟩ rfl rfl
    exact fun _ => ⟨rfl, rfl, rfl, rfl⟩
  entering := rel_entering fun _ _ => hF.passes ⟨⟨rfl, rfl, rfl⟩, rfl⟩ rfl rfl
  enters _ _ m _ _ := hF.call (fun _ => hok.ta _ _) (hok.ta _ _) m

end Tolerates

namespace ToleratesDrops

variable (hF : ToleratesDrops F ok) (hok : CallsOk ok)
include hF

variable {m : Machine σ A}

theorem killInstance (env : Env σ A S) (iid : InstanceId) {m' : Machine σ A}
    (hsame : Untouched m m') (hinst : m'.instances = m.instances) (hlog : m'.log = m.log) :
    F.rel m (killInstance env iid m') := by
  refine F.trans (hF.passes hsame hinst hlog) (hF.updates iid _ ?_ ⟨⟨rfl, rfl, rfl⟩, rfl⟩ rfl rfl)
  exact fun _ => ⟨rfl, rfl, rfl, rfl⟩

include hok in
/-- Session ids are only issued by commands that may open a session, instances only
stored as `Creates` says, and the pending request only changed as `Pends` says. -/
theorem walk (env : Env σ A S) (cmd : KernelCmd)
    (hsession : cmd.mayOpen = true → ∀ id, ok (.sessionIssued id))
    (hstore : ∀ i, Creates env m cmd i → Keeps F (allocInstance i))
    (hpend : ∀ y, Pends m cmd y → F.rel m { m with yielding := y }) :
    Walk env (frameJudgement F) m cmd where
  toSteps := hF.steps hok env m cmd hsession
  gate := F.refl m
  cancelled _ _ := F.refl _
  cancels _ := hF.passes ⟨⟨rfl, rfl, rfl⟩, rfl⟩ rfl rfl
  maps {_ iid params m} _ := hF.mapParams env iid params m
  takes _ _ := hF.passes ⟨⟨rfl, rfl, rfl⟩, rfl⟩ rfl rfl
  stores hi := hstore _ hi
  drops iid _ := hF.drops iid ⟨⟨rfl, rfl, rfl⟩, rfl⟩ rfl rfl
  kills iid _ := hF.killInstance env iid ⟨⟨rfl, rfl, rfl⟩, rfl⟩ rfl rfl
  newSpace _ := hF.passes ⟨⟨rfl, rfl, rfl⟩, rfl⟩ rfl rfl
  pends hy := hpend _ hy
  ptaOpen _ _ _ := hF.call (fun _ => hok.pta _ _) (hok.pta _ _)
  ptaClose _ _ _ := hF.call (fun _ => hok.pta _ _) (hok.pta _ _)
  ptaInvoke _ _ _ _ := keeps_ptaInvoke (fun _ _ => hF.passes ⟨⟨rfl, rfl, rfl⟩, rfl⟩ rfl rfl)
    (hF.call (fun _ => hok.pta _ _) (hok.pta _ _))

include hok in
theorem handle (env : Env σ A S) (cmd : KernelCmd)
    (hsession : cmd.mayOpen = true → ∀ id, ok (.sessionIssued id))
    (hstore : ∀ i, Creates env m cmd i → Keeps F (allocInstance i))
    (hpend : ∀ y, Pends m cmd y → F.rel m { m with yielding := y }) :
    F.rel m (handle env cmd m).2 :=
  (hF.walk hok env cmd hsession hstore hpend).handle

theorem onPanic (env : Env σ A S) (m : Machine σ A) : F.rel m (onPanic env m).2 := by
  refine rel_onPanic m fun iid => ?_
  refine F.trans (hF.killInstance env iid ⟨⟨rfl, rfl, rfl⟩, rfl⟩ rfl rfl)
    (hF.passes ⟨⟨rfl, rfl, rfl⟩, rfl⟩ rfl rfl)

theorem dispatch {env : Env σ A S}
    (h : F.rel m (Os.handle env cmd m).2) : F.rel m (dispatch env cmd m).2 :=
  rel_dispatch h (hF.onPanic env)

end ToleratesDrops

/-! ### What no command ever undoes

The log only grows, and the registries and the notice gate stay as they were set up. This needs
no invariant, so it also holds in states that reuse an id. -/

/-- The log grows by events that satisfy `ok`; what was set up at start stays. -/
structure Grows (ok : Event → Prop) (m m' : Machine σ A) : Prop extends SameSetup m m' where
  log : ∃ evs, m'.log = m.log ++ evs ∧ ∀ ev ∈ evs, ok ev

variable {m : Machine σ A} {m' : Machine σ A}

theorem Grows.of_log_eq (hsetup : SameSetup m m')
    (hlog : m'.log = m.log) : Grows ok m m' :=
  ⟨hsetup, [], by rw [hlog, List.append_nil], by simp⟩

theorem Grows.of_event {ev : Event} (hsetup : SameSetup m m')
    (hev : ok ev) (hlog : m'.log = m.log ++ [ev]) : Grows ok m m' :=
  ⟨hsetup, [ev], hlog, by simpa using hev⟩

def logFrame (σ A : Type) (ok : Event → Prop) : Frame (Machine σ A) where
  rel := Grows ok
  refl m := .of_log_eq ⟨rfl, rfl, rfl⟩ rfl
  trans := by
    rintro a b c ⟨hsetup₁, evs₁, hlog₁, hok₁⟩ ⟨hsetup₂, evs₂, hlog₂, hok₂⟩
    refine ⟨hsetup₁.trans hsetup₂, evs₁ ++ evs₂, ?_, ?_⟩
    · rw [hlog₂, hlog₁, List.append_assoc]
    · intro ev hev
      rcases List.mem_append.mp hev with h | h
      · exact hok₁ ev h
      · exact hok₂ ev h

theorem logFrame_tolerates : ToleratesDrops (logFrame σ A ok) ok where
  passes hsame _ hlog := .of_log_eq hsame.toSameSetup hlog
  logs hev hsame _ hlog := .of_event hsame.toSameSetup hev hlog
  updates _ _ _ hsame _ hlog := .of_log_eq hsame.toSameSetup hlog
  drops _ hsame _ hlog := .of_log_eq hsame.toSameSetup hlog

theorem dispatch_grows (env : Env σ A S) (cmd : KernelCmd) (m : Machine σ A) :
    Grows (fun _ => True) m (dispatch env cmd m).2 := by
  apply logFrame_tolerates.dispatch
  apply logFrame_tolerates.handle ⟨fun _ _ => trivial, fun _ _ => trivial⟩
  · intro _ _
    trivial
  · intro i _
    exact keeps_transform fun _ => .of_event ⟨rfl, rfl, rfl⟩ trivial rfl
  · intro y _
    exact .of_log_eq ⟨rfl, rfl, rfl⟩ rfl

theorem Creates.mayOpen {env : Env σ A S}
    {i : Instance A} (h : Creates env m cmd i) : cmd.mayOpen = true := by
  cases h with
  | early | loaded => rfl

theorem dispatch_issues_nothing (env : Env σ A S) (m : Machine σ A) (hcmd : cmd.mayOpen = false) :
    Grows (fun ev => (∀ r, ev ≠ .sessionIssued r) ∧ ∀ r, ev ≠ .instanceIssued r) m
      (dispatch env cmd m).2 := by
  have hno : cmd.mayOpen ≠ true := by simp [hcmd]
  apply logFrame_tolerates.dispatch
  apply logFrame_tolerates.handle ⟨by simp, by simp⟩
  · intro hopen
    exact absurd hopen hno
  · intro i hi
    exact absurd hi.mayOpen hno
  · intro y _
    exact .of_log_eq ⟨rfl, rfl, rfl⟩ rfl

end Rustee.Os
