import Rustee.GuestSteps
import Rustee.VirtConnections

/-!
# Every ENTER is answered

The host connects, sends PDUs cut into packets as it likes, and may stop inside one. Each move is
judged in the state before it (`HostMove.Follows`): an ENTER only while no RPC is unanswered,
otherwise the RPC_REPLY; windows and memrefs inside the pool. The trace then has the shape
`Answers`: each ENTER is followed by its COMPLETE, with at most one RPC and its reply between.
-/

namespace Rustee.Guest

open Os Virt GuestState Attempt List VirtHal

variable {κ : Type}

def GuestState.boot (k : κ) : GuestState κ where
  hal := init
  kernel := k
  waiting := none
  sent := []

/-! ### Runs in which `handle` returns -/

/-- The kernel with a mark that is cleared by a `handle` that does not return. -/
def GuestKernel.watched (K : GuestKernel κ) : GuestKernel (κ × Bool) where
  handle := fun cmd mem k =>
    match K.handle cmd mem k.1 with
    | (.value out, mem', k') => (.value out, mem', (k', k.2))
    | (exit, mem', k') => (exit, mem', (k', false))

theorem watched_detects (K : GuestKernel κ) : Detects K.watched fun k => k.2 = false := by
  intro cmd mem k hreturn
  obtain ⟨exit, mem', k', hhandle⟩ : ∃ e mem' k', K.handle cmd mem k.1 = (e, mem', k') :=
    ⟨_, _, _, rfl⟩
  simp only [GuestKernel.watched, hhandle] at hreturn ⊢
  cases exit with
  | value out => exact absurd rfl (hreturn out)
  | unwind | abort => rfl

theorem watched_asksOnce {K : GuestKernel κ} (hasks : AsksOnce K) : AsksOnce K.watched := by
  intro cmd mem k request mem' k' h
  obtain ⟨exit, mem1, k1, hhandle⟩ : ∃ e mem1 k1, K.handle cmd mem k.1 = (e, mem1, k1) :=
    ⟨_, _, _, rfl⟩
  simp only [GuestKernel.watched, hhandle] at h
  cases exit with
  | value out =>
    have hout : out = .rpc request := Exit.value.inj (Prod.mk.inj h).1
    rw [hout] at hhandle
    exact hasks hhandle
  | unwind | abort => cases (Prod.mk.inj h).1

/-! ### The host's moves -/

/-- Packets on the connection: those that bring the last bytes of a PDU, or some that
leave it unfinished. -/
inductive Delivery where
  | whole (p : Pdu) (pks : List Packet)
  | part (p : Pdu) (pks : List Packet)

inductive HostMove where
  | connect (req : VirtioVsockHdr)
  | deliver (d : Delivery)

def Delivery.packets : Delivery → List Packet
  | .whole _ pks => pks
  | .part _ pks => pks

def HostMove.packets : HostMove → List Packet
  | .connect req => [⟨req, []⟩]
  | .deliver d => d.packets

/-- The PDU is the one the guest can take: the reply while an RPC is unanswered, and
otherwise an ENTER whose memrefs are inside the pool. -/
def Expected (build : Build) (p : Pdu) (g : GuestState κ) : Prop :=
  if asked g then p.hdr.kind = KIND_RPC_REPLY
  else p.hdr.kind = KIND_ENTER ∧ MemrefsInside build p (poolWith p g)

/-- What a well-behaved host does in the state `g`. -/
def HostMove.Follows (build : Build) (g : GuestState κ) : HostMove → Prop
  | .connect req => g.hal.listener.Accepts req
  | .deliver (.whole p pks) =>
    InPool p ∧ Expected build p g ∧ ∃ c, g.hal.conn = some c ∧ OfConn c pks ∧
      c.rx ≠ p.encode ∧ c.rx ++ rwPayloads pks = p.encode
  | .deliver (.part p pks) =>
    ∃ c, g.hal.conn = some c ∧ OfConn c pks ∧ c.rx ++ rwPayloads pks <+: p.encode ∧
      c.rx ++ rwPayloads pks ≠ p.encode

instance (build : Build) (p : Pdu) (g : GuestState κ) : Decidable (Expected build p g) :=
  inferInstanceAs (Decidable (if asked g then p.hdr.kind = KIND_RPC_REPLY
    else p.hdr.kind = KIND_ENTER ∧ MemrefsInside build p (poolWith p g)))

instance (build : Build) (g : GuestState κ) (m : HostMove) : Decidable (m.Follows build g) :=
  match m with
  | .connect _ => inferInstanceAs (Decidable (VsockListener.Accepts _ _))
  | .deliver (.whole p pks) =>
    decidable_of_iff (InPool p ∧ Expected build p g ∧ ∃ c ∈ g.hal.conn, OfConn c pks ∧
      c.rx ≠ p.encode ∧ c.rx ++ rwPayloads pks = p.encode) Iff.rfl
  | .deliver (.part p pks) =>
    decidable_of_iff (∃ c ∈ g.hal.conn, OfConn c pks ∧ c.rx ++ rwPayloads pks <+: p.encode ∧
      c.rx ++ rwPayloads pks ≠ p.encode) Iff.rfl

section Runs

variable (K : GuestKernel κ) (build : Build)

def HostFollows : List HostMove → GuestState κ → Prop
  | [], _ => True
  | m :: ms, g => m.Follows build g ∧
      ∀ g', vsockLoop K build m.packets g = (.ok (), g') → HostFollows ms g'

instance decidableHostFollows :
    ∀ (moves : List HostMove) (g : GuestState κ), Decidable (HostFollows K build moves g)
  | [], _ => isTrue trivial
  | m :: ms, g =>
    match hloop : vsockLoop K build m.packets g with
    | (.ok (), g') =>
      have := decidableHostFollows ms g'
      decidable_of_iff (m.Follows build g ∧ HostFollows K build ms g') <| by
        rw [HostFollows, hloop]
        simp
    | (.err _, _) => decidable_of_iff (m.Follows build g) <| by
        rw [HostFollows, hloop]
        simp
    | (.panic, _) => decidable_of_iff (m.Follows build g) <| by
        rw [HostFollows, hloop]
        simp

def play (moves : List HostMove) : GM κ Unit := vsockLoop K build (moves.flatMap HostMove.packets)

/-- What passes between host and guest; a sent PDU with the pool at that moment. -/
inductive WireEvent where
  | received (p : Pdu)
  | sent (pdu : Bytes) (pool : Pool)

def HostMove.received : HostMove → List WireEvent
  | .deliver (.whole p _) => [.received p]
  | _ => []

def newlySent (g g' : GuestState κ) : List WireEvent :=
  ((emitted g').drop (emitted g).length).map fun pdu => .sent pdu g'.pool

def trace : List HostMove → GuestState κ → List WireEvent
  | [], _ => []
  | m :: ms, g =>
    match vsockLoop K build m.packets g with
    | (.ok _, g') => m.received ++ newlySent g g' ++ trace ms g'
    | (_, g') => m.received ++ newlySent g g'

end Runs

/-- Each ENTER has one COMPLETE, with at most one RPC and its reply before it. The index is
the ENTER whose RPC is unanswered; the trace may end there. -/
inductive Answers : Option Pdu → List WireEvent → Prop
  | done {o} : Answers o []
  | complete {p pool t} : p.hdr.kind = KIND_ENTER → Answers none t →
      Answers none (.received p :: .sent (completePdu p pool) pool :: t)
  | rpc {p pool t} : p.hdr.kind = KIND_ENTER → Answers (some p) t →
      Answers none (.received p :: .sent (rpcPdu p pool) pool :: t)
  | reply {p q pool t} : q.hdr.kind = KIND_RPC_REPLY → Answers none t →
      Answers (some p) (.received q :: .sent (completePdu p pool) pool :: t)

theorem length_rpcPdu (p : Pdu) (pool : Pool) :
    (rpcPdu p pool).length = PDU_HDR_LEN + CALL_FRAME_LEN + (96 : UInt32).toNat := by
  rw [rpcPdu, length_encodePdu, Pool.length_get]
  rfl

theorem Answers.length {o : Option Pdu} {t : List WireEvent} (h : Answers o t) {pdu : Bytes}
    {pool : Pool} (hmem : .sent pdu pool ∈ t) :
    pdu.length = PDU_HDR_LEN + CALL_FRAME_LEN + (u32At pdu 12).toNat := by
  have hfield (hdr : PduHeader) (frame : CallFrame) (bounce : Bytes) :
      u32At (encodePdu hdr frame bounce) 12 = hdr.bounceLen := u32At_of_field rfl
  have hcomplete (p : Pdu) (pool : Pool) : (completePdu p pool).length =
      PDU_HDR_LEN + CALL_FRAME_LEN + (u32At (completePdu p pool) 12).toNat := by
    rw [completePdu, length_encodePdu, Pool.length_get, hfield]
  have hrpc (p : Pdu) (pool : Pool) : (rpcPdu p pool).length =
      PDU_HDR_LEN + CALL_FRAME_LEN + (u32At (rpcPdu p pool) 12).toNat := by
    rw [length_rpcPdu, rpcPdu, hfield]
  induction h with
  | done => cases hmem
  | complete _ _ ih | reply _ _ ih =>
    simp only [mem_cons, reduceCtorEq, false_or, WireEvent.sent.injEq] at hmem
    rcases hmem with ⟨rfl, -⟩ | hmem
    · exact hcomplete _ _
    · exact ih hmem
  | rpc _ _ ih =>
    simp only [mem_cons, reduceCtorEq, false_or, WireEvent.sent.injEq] at hmem
    rcases hmem with ⟨rfl, -⟩ | hmem
    · exact hrpc _ _
    · exact ih hmem

def Ready : Option Pdu → GuestState κ → Prop
  | none, g => Idle g
  | some p, g => Parked p g

variable {g g' : GuestState κ}

theorem Stays.ready (h : Stays g g') {o : Option Pdu} (hready : Ready o g) : Ready o g' := by
  cases o with
  | none => exact h.idle hready
  | some => exact h.parked hready

theorem newlySent_of_eq (h : emitted g' = emitted g) : newlySent g g' = [] := by
  rw [newlySent, h, drop_length, map_nil]

theorem newlySent_of_append {pdu : Bytes}
    (h : emitted g' = emitted g ++ [pdu]) : newlySent g g' = [.sent pdu g'.pool] := by
  rw [newlySent, h, drop_left]
  rfl

/-! ### One move -/

section Step

variable {K : GuestKernel κ} {build : Build} {Stuck : κ → Prop}

def Advances (o : Option Pdu) (m : HostMove) (g g' : GuestState κ) : Prop :=
  ∃ o', Ready o' g' ∧ ∀ t, Answers o' t → Answers o (m.received ++ newlySent g g' ++ t)

variable {g : GuestState κ}

theorem advances_of_stays {o : Option Pdu} {m : HostMove} {g' : GuestState κ}
    (hready : Ready o g) (hstays : Stays g g') (hreceived : m.received = []) :
    Advances o m g g' := by
  refine ⟨o, hstays.ready hready, ?_⟩
  intro t ht
  rw [hreceived, newlySent_of_eq hstays.emitted]
  exact ht

theorem acceptConnect_op {h h' : VirtHal} {req resp : VirtioVsockHdr}
    (haccept : acceptConnect req h = (.ok resp, h')) :
    resp.op = VIRTIO_VSOCK_OP_RESPONSE := by
  rw [acceptConnect, VsockListener.accept] at haccept
  split_ifs at haccept
  · cases (Prod.mk.inj haccept).1
  · cases (Prod.mk.inj haccept).1
  · have hresp := Fallible.ok.inj (Prod.mk.inj haccept).1
    rw [← hresp]

theorem connect_stays {req : VirtioVsockHdr} (haccepts : g.hal.listener.Accepts req) :
    ∃ g', vsockLoop K build [⟨req, []⟩] g = (.ok (), g') ∧ Stays g g' := by
  have hop : req.op = VIRTIO_VSOCK_OP_REQUEST := haccepts.2.1
  obtain ⟨resp, haccept⟩ := acceptConnect_of_accepts haccepts
  have hresp : resp.op ≠ VIRTIO_VSOCK_OP_RW := by
    rw [acceptConnect_op haccept]
    decide
  let c := VsockConn.fromAccept req g.hal.listener
  let g1 : GuestState κ :=
    { g with hal := { g.hal with conn := some c }, sent := g.sent ++ [(resp, [])] }
  have hstays : Stays g g1 := ⟨rfl, rfl, rfl, rfl, rfl, rfl, rfl, emitted_other hresp rfl⟩
  have hconn : OnConn c c.rx g1 := ⟨c, rfl, ⟨rfl, rfl, rfl, rfl⟩, rfl⟩
  obtain ⟨g', hcredit, hstays', -⟩ := sendCredit_eq hconn
  refine ⟨g', ?_, hstays.trans hstays'⟩
  have hrequest : onRequest req g = (.ok (), g') := by
    rw [onRequest, bind_of_ok (onHal_of_ok haccept)]
    exact hcredit
  rw [vsockLoop_cons, onPacket, if_pos hop, bind_of_ok hrequest]
  rfl

theorem move_ends (hasks : AsksOnce K) (hdetects : Detects K Stuck) {o : Option Pdu}
    {m : HostMove} (hready : Ready o g) (hfollows : m.Follows build g) :
    Ends Stuck (Advances o m g) (vsockLoop K build m.packets g) := by
  match m with
  | .connect req =>
    obtain ⟨g', hloop, hstays⟩ := connect_stays (K := K) hfollows
    rw [HostMove.packets, hloop]
    exact .inr ⟨rfl, advances_of_stays hready hstays rfl⟩
  | .deliver (.part p pks) =>
    obtain ⟨c, hc, hof, hpart, hne⟩ := hfollows
    have hconn : OnConn c c.rx g := ⟨c, hc, ⟨rfl, rfl, rfl, rfl⟩, rfl⟩
    obtain ⟨g', hloop, hstays, -⟩ := loop_part (K := K) hof hconn hpart hne
    rw [HostMove.packets, Delivery.packets, hloop]
    exact .inr ⟨rfl, advances_of_stays hready hstays rfl⟩
  | .deliver (.whole p pks) =>
    obtain ⟨hin, hexpected, c, hc, hof, hne, hbytes⟩ := hfollows
    have hconn : OnConn c c.rx g := ⟨c, hc, ⟨rfl, rfl, rfl, rfl⟩, rfl⟩
    rw [Expected] at hexpected
    -- what the guest is ready for is what the host saw last
    cases o with
    | none =>
      have hidle : Idle g := hready
      rw [hidle.asked] at hexpected
      obtain ⟨hkind, hmemrefs⟩ := hexpected
      apply (enter_ends hasks hdetects hconn hidle hof hne hbytes hkind hin hmemrefs).mono
      rintro g' (⟨-, hidle', hemitted⟩ | ⟨-, hparked, hemitted⟩)
      · refine ⟨none, hidle', ?_⟩
        intro t ht
        rw [newlySent_of_append hemitted]
        exact Answers.complete hkind ht
      · refine ⟨some p, hparked, ?_⟩
        intro t ht
        rw [newlySent_of_append hemitted]
        exact Answers.rpc hkind ht
    | some enter =>
      have hparked : Parked enter g := hready
      rw [hparked.asked] at hexpected
      have hkind : p.hdr.kind = KIND_RPC_REPLY := hexpected
      apply (reply_ends hasks hdetects hconn hparked hof hne hbytes hkind hin).mono
      rintro g' ⟨-, hidle, hemitted⟩
      refine ⟨none, hidle, ?_⟩
      intro t ht
      rw [newlySent_of_append hemitted]
      exact Answers.reply hkind ht

/-! ### Whole runs -/

theorem play_cons (m : HostMove) (ms : List HostMove) :
    play K build (m :: ms) = (vsockLoop K build m.packets >>= fun _ => play K build ms) := by
  rw [play, flatMap_cons, vsockLoop_append]
  rfl

/-- A run of a well-behaved host: no `fail_halt`, and as far as the kernel returns every
ENTER is answered. By induction on the moves; what is carried is `Ready`. -/
theorem play_ends (hasks : AsksOnce K) (hdetects : Detects K Stuck) :
    ∀ {moves : List HostMove} {o : Option Pdu} {g : GuestState κ}, Ready o g →
      HostFollows K build moves g →
      Ends Stuck (fun _ => Answers o (trace K build moves g)) (play K build moves g) := by
  intro moves
  induction moves with
  | nil =>
    intro o g _ _
    exact .inr ⟨rfl, Answers.done⟩
  | cons m ms ih =>
    intro o g hready hfollow
    obtain ⟨hfollows, hrest⟩ := hfollow
    have hmove := move_ends hasks hdetects hready hfollows
    obtain ⟨r, g', hloop⟩ : ∃ r g', vsockLoop K build m.packets g = (r, g') := ⟨_, _, rfl⟩
    rw [hloop] at hmove
    rw [play_cons]
    rcases hmove with ⟨hpanic, hstuck⟩ | ⟨hok, o', hready', hadvances⟩
    · dsimp only at hpanic hstuck
      rw [hpanic] at hloop
      rw [bind_of_panic hloop]
      exact .inl ⟨rfl, hstuck⟩
    · dsimp only at hok hready' hadvances
      rw [hok] at hloop
      rw [bind_of_ok hloop, trace, hloop]
      apply (ih hready' (hrest g' hloop)).mono
      intro _ hanswers
      exact hadvances _ hanswers

end Step

/-! ### One connection -/

section Results

variable {τ A S : Type}

/-- The kernel's state in a run: the machine, and whether every `handle` has returned. -/
abbrev Watched (τ A : Type) := Machine (HalMem × τ) A × Bool

/-- On one accepted connection, whatever the packets and whatever the kernel does as long as
`handle` returns: each ENTER gets its one COMPLETE, after at most one RPC. -/
theorem enter_answered_once (env : Env (HalMem × τ) A S) (build : Build)
    {g : GuestState (Watched τ A)} (hidle : Idle g) (deliveries : List Delivery)
    (hfollow : HostFollows (osKernel env).watched build (deliveries.map .deliver) g)
    (hreturn : (play (osKernel env).watched build (deliveries.map .deliver) g).2.kernel.2 = true) :
    (play (osKernel env).watched build (deliveries.map .deliver) g).1 = .ok () ∧
      Answers none (trace (osKernel env).watched build (deliveries.map .deliver) g) ∧
      ∀ pdu pool, .sent pdu pool ∈ trace (osKernel env).watched build (deliveries.map .deliver) g →
        pdu.length = PDU_HDR_LEN + CALL_FRAME_LEN + (u32At pdu 12).toNat := by
  have hends := play_ends (watched_asksOnce (osKernel_asksOnce env))
    (watched_detects (osKernel env)) (o := none) hidle hfollow
  rcases hends with ⟨-, hstuck⟩ | ⟨hok, hanswers⟩
  · rw [hreturn] at hstuck
    cases hstuck
  · exact ⟨hok, hanswers, fun pdu pool hmem => hanswers.length hmem⟩

end Results

/-! ### A call with an RPC -/

def guestEnv : Env (HalMem × Unit) Nat Unit := platformOn _

def booted : GuestState (Watched Unit Nat) :=
  boot (Machine.new guestEnv (init.mem, ()), true)

def openEnter : Pdu where
  hdr := ⟨KIND_ENTER, 7, 64, 32⟩
  frame := ⟨Vector.replicate 8 0⟩
  bounce := replicate 32 0
  known := .inl rfl
  argLen := rfl
  bounceLen := rfl

def notFoundReply : Pdu where
  hdr := ⟨KIND_RPC_REPLY, 7, 64, 32⟩
  frame := rpcFrame RPC_COOKIE
  bounce := MsgArgHdr.encode ⟨RPC_CMD_LOAD_TA, 0, 0, 0, 0, TEE_ERROR_ITEM_NOT_FOUND, 0, 2⟩
  known := .inr (.inr (.inr rfl))
  argLen := rfl
  bounceLen := rfl

def rwPacket (payload : Bytes) : Packet :=
  ⟨hostHdr VIRTIO_VSOCK_OP_RW 9 payload.length, payload⟩

def connectMove : HostMove := .connect (hostHdr VIRTIO_VSOCK_OP_REQUEST 9 0)

def connected : GuestState (Watched Unit Nat) :=
  (play (osKernel guestEnv).watched .debug [connectMove] booted).2

def sampleDeliveries : List Delivery :=
  [.part openEnter [rwPacket (openEnter.encode.take 20)],
    .whole openEnter [rwPacket (openEnter.encode.drop 20)],
    .whole notFoundReply [rwPacket notFoundReply.encode]]

theorem enter_answered_once_sample :
    (play (osKernel guestEnv).watched .debug (sampleDeliveries.map .deliver) connected).1 =
      .ok () := by
  have hidle : Idle connected := ⟨by decide +kernel, by decide +kernel, by decide +kernel⟩
  exact (enter_answered_once guestEnv .debug hidle sampleDeliveries (by decide +kernel)
    (by decide +kernel)).1

/-! ### Clients that vanish -/

theorem boot_idle (k : κ) : Idle (boot k) := ⟨rfl, rfl, rfl⟩

/-- Connections may end anywhere, also inside a PDU, and new ones may follow. As long as
nothing but the reply is sent after an RPC, the loop never halts, and every ENTER is
answered. -/
theorem never_halts_of_rpc_answered {τ A S : Type} (env : Env (HalMem × τ) A S) (build : Build)
    (m : Machine (HalMem × τ) A) (moves : List HostMove)
    (hfollow : HostFollows (osKernel env).watched build moves (boot (m, true))) :
    (∀ halt, (play (osKernel env).watched build moves (boot (m, true))).1 ≠ .err halt) ∧
      ((play (osKernel env).watched build moves (boot (m, true))).2.kernel.2 = true →
        (play (osKernel env).watched build moves (boot (m, true))).1 = .ok () ∧
          Answers none (trace (osKernel env).watched build moves (boot (m, true)))) := by
  have hends := play_ends (watched_asksOnce (osKernel_asksOnce env))
    (watched_detects (osKernel env)) (o := none) (boot_idle (m, true)) hfollow
  constructor
  · intro halt herr
    rcases hends with ⟨hpanic, -⟩ | ⟨hok, -⟩
    · rw [hpanic] at herr
      cases herr
    · rw [hok] at herr
      cases herr
  · intro hreturn
    rcases hends with ⟨-, hstuck⟩ | hdone
    · rw [hreturn] at hstuck
      cases hstuck
    · exact hdone

def enterMove : HostMove := .deliver (.whole openEnter [rwPacket openEnter.encode])

/-- A client vanishes inside its ENTER; the next one makes a call with an RPC. -/
def vanishingMoves : List HostMove :=
  [connectMove, .deliver (.part openEnter [rwPacket (openEnter.encode.take 20)]), connectMove,
    enterMove, .deliver (.whole notFoundReply [rwPacket notFoundReply.encode])]

theorem never_halts_of_rpc_answered_sample :
    (play (osKernel guestEnv).watched .debug vanishingMoves booted).1 = .ok () := by
  have hsafe := never_halts_of_rpc_answered guestEnv .debug
    (Machine.new guestEnv (init.mem, ())) vanishingMoves (by decide +kernel)
  exact (hsafe.2 (by decide +kernel)).1

/-- A client vanishes after the RPC. The next ENTER, on the same or on a new connection,
is taken for the reply, and the guest halts. -/
theorem unanswered_rpc_halts :
    (play (osKernel guestEnv).watched .debug [connectMove, enterMove] booted).1 = .ok () ∧
      asked (play (osKernel guestEnv).watched .debug [connectMove, enterMove] booted).2 = true ∧
      (play (osKernel guestEnv).watched .debug [connectMove, enterMove, connectMove, enterMove]
        booted).1 = .err .rpcReply ∧
      (play (osKernel guestEnv).watched .debug [connectMove, enterMove, enterMove] booted).1 =
        .err .rpcReply := by
  decide +kernel

end Rustee.Guest
