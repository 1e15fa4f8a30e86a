import Rustee.OsAddressSpaces

/-!
# Who is running when a callee panics

`on_panic` knows the callee only from two markers, `current_instance` and `current_pta`, which the
kernel sets around its calls. They are followed through every command: in the middle of a call
they name the callee, except in the open and close methods of a pseudo-TA, where neither is set.
-/

namespace Rustee.Os

open SlotTable Prog Machine

variable {σ A S α : Type} {env : Env σ A S} {m m₀ m₁ : Machine σ A} {iid : InstanceId}
  {cmd : KernelCmd}

/-! ### Callees -/

/-- The code outside the kernel that control can be in. -/
inductive Callee where
  | ta (iid : InstanceId) (entry : EntryPoint)
  | pta (uuid : Uuid) (method : PtaMethod)

def Callee.panicked : Callee → Event
  | .ta iid entry => .ta iid (.panicked entry)
  | .pta uuid method => .pta uuid (.panicked method)

def Inside (callee : Callee) (m : Machine σ A) : Prop :=
  ∃ log, m.log = log ++ [callee.panicked]

def Callee.NamedBy (m : Machine σ A) : Callee → Prop
  | .ta iid _ => m.currentInstance = some iid ∧ m.currentPta = false
  | .pta _ _ => m.currentPta = true ∧ m.currentInstance = none

/-- `on_panic` halts the kernel for a pseudo-TA; for a TA it marks that instance Dead and
touches no other. -/
def Callee.Stopped (env : Env σ A S) (m : Machine σ A) : Callee → Prop
  | .ta iid _ => ∃ i out m', m.instances.get iid = some i ∧ onPanic env m = (.out out, m') ∧
      m'.instances = m.instances.update iid fun i => { i with state := .dead, aspace := none }
  | .pta _ _ => (onPanic env m).1 = .halted

/-- The command was cut off in a callee that the markers name, and `on_panic` does what is
right for it. -/
def Attributed (env : Env σ A S) (m : Machine σ A) : Prop :=
  ∃ callee, Inside callee m ∧ callee.NamedBy m ∧ callee.Stopped env m

theorem attributed_ta {entry : EntryPoint} {i : Instance A} (hin : Inside (.ta iid entry) m)
    (hcur : m.currentInstance = some iid) (hpta : m.currentPta = false)
    (hi : m.instances.get iid = some i) : Attributed env m := by
  refine ⟨.ta iid entry, hin, ⟨hcur, hpta⟩, i, (onTaPanic env m).1, (onTaPanic env m).2, hi, ?_, ?_⟩
  · rw [onPanic, hpta, if_neg Bool.false_ne_true]
  · rw [onTaPanic, hcur]
    rfl

theorem attributed_pta {uuid : Uuid} {method : PtaMethod} (hin : Inside (.pta uuid method) m)
    (hcur : m.currentInstance = none) (hpta : m.currentPta = true) : Attributed env m := by
  refine ⟨.pta uuid method, hin, ⟨hpta, hcur⟩, ?_⟩
  change (onPanic env m).1 = .halted
  rw [onPanic, hpta, if_pos rfl]

/-! ### Markers -/

/-- `current_instance` is `c` and `current_pta` is not set. -/
def Marks (c : Option InstanceId) (m : Machine σ A) : Prop :=
  m.currentInstance = c ∧ m.currentPta = false

section Steps

variable {c : Option InstanceId} {U : Machine σ A → Prop}

theorem marks_mapParams (h : Marks c m) (params : Params) :
    Ends m (mapParams env iid params) (fun _ => Marks c) U := by
  cases hi : m.instances.get iid with
  | none =>
    have hrun : mapParams env iid params m = (.value (.error TEE_ERROR_TARGET_DEAD), m) := by
      simp only [mapParams, getInstance, bind_apply, gets_apply, hi, Option.bind_none, pure_apply]
    exact ends_of_value hrun h
  | some =>
    obtain ⟨r, w, a, hrun⟩ := mapParams_outcome env hi params
    exact ends_of_value hrun h

theorem marks_call (h : Marks c m) (code : σ → CallExit α × σ) (returned : α → Event)
    {panicked : Event} (hu : ∀ w, U (m.after w m.tables [panicked])) :
    Ends m (call code returned panicked) (fun _ => Marks c) U := by
  rcases call_cases code returned panicked m with ⟨a, w, hrun⟩ | ⟨w, hrun⟩
  · exact ends_of_value hrun h
  · exact ends_of_unwind hrun (hu w)

theorem marks_entering {entry : KM σ A α} (h : Marks none m)
    (hentry : Marks (some iid) { m with currentInstance := some iid } →
      Ends { m with currentInstance := some iid } entry (fun _ => Marks (some iid)) U) :
    Ends m (entering iid entry) (fun _ => Marks none) U := by
  have hset : Ends m (setCurrentInstance (some iid))
      (fun _ m₁ => m₁ = { m with currentInstance := some iid }) U := ends_of_value rfl rfl
  refine hset.bind fun _ m₁ h1 => ?_
  subst h1
  refine (hentry ⟨rfl, h.2⟩).bind fun a m2 h2 => ?_
  have hclear : Ends m2 (setCurrentInstance none) (fun _ => Marks none) U :=
    ends_of_value rfl ⟨rfl, h2.2⟩
  exact hclear.bind fun _ m3 h3 => ends_pure h3

theorem marks_ptaInvoke (hattr : ∀ m₁, Attributed env m₁ → U m₁) (pta : Pta) (ctx : UInt64)
    (cmdId : UInt32) (params : Params) (out : TeeResult × Params → KernelOut) (h : Marks none m) :
    Ends m (setCurrentPta true >>= fun _ => callPtaInvoke env pta ctx cmdId params >>= fun r =>
      setCurrentPta false >>= fun _ => pure (out r)) (fun _ => Marks none) U := by
  have hset : Ends m (setCurrentPta true)
      (fun _ m₁ => m₁.currentInstance = none ∧ m₁.currentPta = true) U :=
    ends_of_value rfl ⟨h.1, rfl⟩
  refine hset.bind fun _ m₁ h1 => ?_
  have hcall : Ends m₁ (callPtaInvoke env pta ctx cmdId params)
      (fun _ m2 => m2.currentInstance = none) U := by
    rcases call_cases (env.pta.invoke pta ctx cmdId params) (fun _ => .pta pta.uuid (.invoke ctx))
      (.pta pta.uuid (.panicked .invoke)) m₁ with ⟨r, w, hrun⟩ | ⟨w, hrun⟩
    · exact ends_of_value hrun h1.1
    · have hin : Inside (.pta pta.uuid .invoke) (m₁.after w m₁.tables
          [.pta pta.uuid (.panicked .invoke)]) := ⟨m₁.log, rfl⟩
      exact ends_of_unwind hrun (hattr _ (attributed_pta hin h1.1 h1.2))
  refine hcall.bind fun r m2 h2 => ?_
  have hclear : Ends m2 (setCurrentPta false) (fun _ => Marks none) U := ends_of_value rfl ⟨h2, rfl⟩
  exact hclear.bind fun _ m3 h3 => ends_pure h3

/-- The open and close methods of a pseudo-TA run with no marker set; every other call is
attributed. -/
theorem marks_walk (hattr : ∀ m₁, Attributed env m₁ → U m₁)
    (hpta : CallsPtaOpenOrClose m₀ cmd → ∀ m₁, U m₁) :
    Walk env (fun c _ x m => Marks c m → Ends m x (fun _ => Marks c) U) m₀ cmd where
  pure _ _ h := ends_pure h
  abort _ _ := ends_abort
  bind hx hf h := (hx h).bind_value fun a m' hrun h' => hf a m' hrun h'
  reads _ _ h := ends_of_value rfl h
  counts _ _ _ _ h := ends_of_value rfl h
  records _ _ _ h := ends_of_value rfl h
  unmaps iid params vas m h := ends_of_value (unmapParams_apply env iid params vas m) h
  entering hentry h := marks_entering h hentry
  enters _ _ m hin returned h := marks_call h _ _ fun w => by
    obtain ⟨i, hi, -⟩ := hin
    exact hattr _ (attributed_ta ⟨m.log, rfl⟩ h.1 h.2 hi)
  gate h := ends_of_value rfl h
  cancelled _ _ h := ends_of_value rfl h
  cancels _ h := ends_of_value rfl h
  takes session m h := ends_of_value (takeSession_apply session m) h
  maps _ h := marks_mapParams h _
  stores _ _ h := ends_of_value rfl h
  drops _ _ h := ends_of_value rfl h
  kills _ _ h := ends_of_value rfl h
  newSpace _ h := ends_of_value rfl h
  pends _ h := ends_of_value rfl h
  ptaOpen hcalls _ _ _ h := marks_call h _ _ fun _ => hpta hcalls _
  ptaClose hcalls _ _ _ h := marks_call h _ _ fun _ => hpta hcalls _
  ptaInvoke pta ctx cmdId params out _ h := marks_ptaInvoke hattr pta ctx cmdId params out h

theorem marks_handle (h : Marks none m) (hattr : ∀ m₁, Attributed env m₁ → U m₁)
    (hpta : CallsPtaOpenOrClose m cmd → ∀ m₁, U m₁) :
    Ends m (handle env cmd) (fun _ => Marks none) U :=
  (marks_walk hattr hpta).handle h

end Steps

theorem Run.marks {ok : Machine σ A → KernelCmd → Prop} {steps : List (Taken σ A)}
    (hb : Booted env m₀) (hrun : Run env ok m₀ steps m) : Marks none m := by
  refine hrun.invariant (P := Marks none) ?_ (fun m w h => h) ⟨hb.idle.current, hb.idle.currentPta⟩
  intro m cmd out m' _ h hd
  have hends : Ends m (handle env cmd) (fun _ => Marks none) (fun _ => True) :=
    marks_handle h (fun _ _ => trivial) fun _ _ => trivial
  unfold dispatch at hd
  rcases hhandle : handle env cmd m with ⟨exit, m₁⟩
  rw [hhandle] at hd
  cases exit with
  | value =>
    cases hd
    exact hends.1 _ _ hhandle
  | unwind =>
    -- `on_panic` that does not halt has taken the marker
    change onPanic env m₁ = _ at hd
    unfold onPanic at hd
    split at hd
    · cases hd
    · rename_i hpta
      rw [Bool.not_eq_true] at hpta
      cases hd
      unfold onTaPanic
      split
      · rename_i hcur
        exact ⟨hcur, hpta⟩
      · exact ⟨rfl, hpta⟩
  | abort => cases hd

/-- Whatever the TAs and pseudo-TAs do during the command, so wherever in a callee it is
cut off, the markers name that callee and `on_panic` does what is right for it. -/
def PanicsAttributed (env : Env σ A S) (m : Machine σ A) (cmd : KernelCmd) : Prop :=
  ∀ (ta : TaCode σ) (pta : PtaCode σ) (m₁ : Machine σ A),
    handle { env with ta, pta } cmd m = (.unwind, m₁) → Attributed { env with ta, pta } m₁

def stuckPta (pta : PtaCode σ) : PtaCode σ :=
  { pta with
    open_ := fun _ _ w => (.panics, w)
    close := fun _ _ w => (.panics, w) }

theorem not_attributed_of_callsPta (hmarks : Marks none m)
    (h : CallsPtaOpenOrClose m cmd) : ¬ PanicsAttributed env m cmd := by
  intro hall
  have hunmarked : ∀ (uuid : Uuid) (method : PtaMethod) (m₁ : Machine σ A),
      Attributed { env with pta := stuckPta env.pta } m₁ → Inside (.pta uuid method) m₁ →
      m₁.currentPta ≠ false := by
    rintro uuid method m₁ ⟨callee, ⟨log', hlog'⟩, hnamed, -⟩ ⟨log, hlog⟩ hclear
    have hlast := (List.append_inj' (hlog.symm.trans hlog') rfl).2
    cases callee with
    | ta => cases hlast
    | pta => cases hclear.symm.trans hnamed.1
  cases cmd with
  | openSession uuid login params cancelId timeoutMs =>
    obtain ⟨hadm, hsome⟩ := h
    obtain ⟨pta, hget⟩ := Option.isSome_iff_exists.mp hsome
    have hrun : handle { env with pta := stuckPta env.pta }
        (.openSession uuid login params cancelId timeoutMs) m =
        (.unwind, m.after m.world m.tables [.pta pta.uuid (.panicked .open_)]) := by
      rw [handle_of_gate _ hadm.1]
      simp only [execute, open_, cancelled, bind_apply, gets_apply, hadm.2,
        Bool.false_eq_true, if_false, hget, callPtaOpen, call, stuckPta, after,
        tables]
    exact hunmarked pta.uuid .open_ _ (hall env.ta _ _ hrun) ⟨m.log, rfl⟩ hmarks.2
  | closeSession session =>
    obtain ⟨hgate, s, hs, hk, hsome⟩ := h
    obtain ⟨pta, hget⟩ := Option.isSome_iff_exists.mp hsome
    have htaken := takeSession_apply session m
    rw [hs] at htaken
    have hrun : handle { env with pta := stuckPta env.pta } (.closeSession session) m =
        (.unwind, m.after m.world (m.tables.withSessions (m.sessions.take session).2)
          [.pta pta.uuid (.panicked .close)]) := by
      rw [handle_of_gate _ hgate]
      simp only [execute, close, bind_apply, htaken, hk, gets_apply, callPtaClose, call,
        stuckPta, after, tables, hget, List.append_nil]
    exact hunmarked pta.uuid .close _ (hall env.ta _ _ hrun) ⟨m.log, rfl⟩ hmarks.2
  | invoke | cancel | rpcComplete => exact h

/-- In every run from a booted kernel, wherever the next command is cut off in a callee the
markers name it and `on_panic` does what is right for it, if and only if the command
calls neither the open nor the close method of a pseudo-TA. -/
theorem panics_attributed_iff {steps : List (Taken σ A)} (hb : Booted env m₀)
    (hrun : Run env (fun _ _ => True) m₀ steps m) (cmd : KernelCmd) :
    PanicsAttributed env m cmd ↔ ¬ CallsPtaOpenOrClose m cmd := by
  have hmarks : Marks none m := hrun.marks hb
  constructor
  · intro hall hcalls
    exact not_attributed_of_callsPta hmarks hcalls hall
  · intro hnot ta pta m₁ hunwind
    have hends : Ends m (handle { env with ta, pta } cmd) (fun _ => Marks none)
        (Attributed { env with ta, pta }) :=
      marks_handle hmarks (fun _ h => h) fun hcalls => absurd hcalls hnot
    exact hends.2 m₁ hunwind

theorem panics_attributed_iff_sample :
    (∃ steps, Run sampleEnv (fun _ _ => True) sampleStart steps sampleOpened) ∧
      (PanicsAttributed sampleEnv sampleOpened (.invoke 2 1 noParams 0 0) ↔
        ¬ CallsPtaOpenOrClose sampleOpened (.invoke 2 1 noParams 0 0)) :=
  have ⟨steps, hrun⟩ := sampleOpened_run (fun _ _ => True) trivial trivial
  ⟨⟨steps, hrun⟩, panics_attributed_iff sampleStart_booted hrun _⟩

/-- The small platform with a pseudo-TA that panics when a session is opened. -/
def stuckEnv : Env Unit Nat Unit := { sampleEnv with pta := stuckPta sampleEnv.pta }

/-- Cut off in the open method of the pseudo-TA, no marker is set, and `on_panic` answers
TARGET_DEAD where it should have halted the kernel. -/
theorem pta_open_panic_unattributed :
    ∃ m₁, handle stuckEnv (openCmd samplePta.uuid .public) sampleStart = (.unwind, m₁) ∧
      m₁.log = [.pta samplePta.uuid (.panicked .open_)] ∧
      m₁.currentInstance = none ∧ m₁.currentPta = false ∧
      (onPanic stuckEnv m₁).1 = .out (.doneErr TEE_ERROR_TARGET_DEAD) :=
  ⟨_, rfl, by decide +kernel, by decide +kernel, by decide +kernel, by decide +kernel⟩

end Rustee.Os
