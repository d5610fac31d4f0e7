import SpiNand.Bus.QueueRuns

/-!
# The completion handshake of the queued read

The queue is a party of its own: some steps after it has accepted a request, or never, it calls
`dma_complete_callback`, which sets the one flag that all calls share. The driver never clears
the flag, and reports success whether it has seen it or not. So a call may return on the flag
that an earlier request has left, or after its polls are used up.

* **`handshake_iff`**: in every run, a queued read waits for its own callback exactly if its
  request is refused, or its callback comes while it polls and no poll before finds the flag set.
-/

namespace SpiNand

open Interaction Interaction.Prog

/-! ## The queue as a party -/

/-- The queue and the flag: the step it is at, the steps at which it accepted a request, the last
one first, and the step at which chip enable was last raised. -/
structure MspiQueue where
  clock : Nat
  accepted : List Nat
  gDmaComplete : Bool
  ceRaisedAt : Nat

/-- What the party will do: how it answers at each step, and how many steps after the one at which
it accepts a request the callback comes, if it does. -/
structure QueueParty where
  answers : Nat → Answer
  delay : Nat → Option Nat

/-- The interrupt sets the flag. -/
def dmaCompleteCallback (q : MspiQueue) : MspiQueue := { q with gDmaComplete := true }

namespace QueueParty

variable (party : QueueParty)

/-- The step at which the callback of the request accepted at step `t` comes. -/
def callbackAt (t : Nat) : Option Nat := (party.delay t).map (t + 1 + ·)

/-- One step passes, and the callbacks that are due come. -/
def tick (q : MspiQueue) : MspiQueue :=
  if ∃ t ∈ q.accepted, party.callbackAt t = some (q.clock + 1) then
    dmaCompleteCallback { q with clock := q.clock + 1 }
  else { q with clock := q.clock + 1 }

/-- Every call of the driver is a step. -/
def env : QueueEnvironment MspiQueue := fun q c =>
  let q := party.tick q
  let a := party.answers q.clock
  match c with
  | .readDmaComplete => ({ a with bytes := fun _ => if q.gDmaComplete then 1 else 0 }, q)
  | .mspiControlCqRaw _ =>
    (a, if a.status = amHalStatusSuccess then { q with accepted := q.clock :: q.accepted } else q)
  | .gpioOutputSetCe0 => (a, { q with ceRaisedAt := q.clock })
  | _ => (a, q)

/-- The flag is set by step `n`, the requests accepted so far alone having called back. -/
def FlagBy (q : MspiQueue) (n : Nat) : Prop :=
  q.gDmaComplete = true ∨
    ∃ t ∈ q.accepted, ∃ u, party.callbackAt t = some u ∧ q.clock < u ∧ u ≤ n

section Tick

variable {party} (q : MspiQueue)

@[simp] theorem tick_clock : (party.tick q).clock = q.clock + 1 := by
  unfold tick
  split <;> rfl

@[simp] theorem tick_accepted : (party.tick q).accepted = q.accepted := by
  unfold tick
  split <;> rfl

@[simp] theorem tick_ceRaisedAt : (party.tick q).ceRaisedAt = q.ceRaisedAt := by
  unfold tick
  split <;> rfl

theorem tick_gDmaComplete :
    (party.tick q).gDmaComplete = true ↔ q.gDmaComplete = true ∨
      ∃ t ∈ q.accepted, party.callbackAt t = some (q.clock + 1) := by
  unfold tick
  split
  · next hdue => exact ⟨fun _ => .inr hdue, fun _ => rfl⟩
  · next hdue => exact ⟨.inl, fun h => h.resolve_right hdue⟩

@[simp] theorem iterate_tick_clock (k : Nat) : (party.tick^[k] q).clock = q.clock + k := by
  induction k generalizing q with
  | zero => rfl
  | succ k ih =>
    rw [Function.iterate_succ_apply, ih, tick_clock]
    omega

@[simp] theorem iterate_tick_accepted (k : Nat) : (party.tick^[k] q).accepted = q.accepted := by
  induction k generalizing q with
  | zero => rfl
  | succ k ih => rw [Function.iterate_succ_apply, ih, tick_accepted]

/-- After `k` steps the flag is that of all callbacks so far. -/
theorem iterate_tick_gDmaComplete (k : Nat) :
    (party.tick^[k] q).gDmaComplete = true ↔ party.FlagBy q (q.clock + k) := by
  induction k with
  | zero =>
    refine ⟨.inl, fun h => h.resolve_right ?_⟩
    rintro ⟨t, -, u, -, hlow, hhigh⟩
    omega
  | succ k ih =>
    rw [Function.iterate_succ_apply', tick_gDmaComplete, ih, iterate_tick_clock,
      iterate_tick_accepted]
    constructor
    · rintro ((hflag | ⟨t, ht, u, hu, hlow, hhigh⟩) | ⟨t, ht, hu⟩)
      · exact .inl hflag
      · exact .inr ⟨t, ht, u, hu, hlow, by omega⟩
      · exact .inr ⟨t, ht, _, hu, by omega, by omega⟩
    · rintro (hflag | ⟨t, ht, u, hu, hlow, hhigh⟩)
      · exact .inl (.inl hflag)
      · -- the callback comes at the last step, or before it
        rcases Nat.lt_or_ge (q.clock + k) u with hlast | hearlier
        · obtain rfl : u = q.clock + k + 1 := by omega
          exact .inr ⟨t, ht, hu⟩
        · exact .inl (.inr ⟨t, ht, u, hu, hlow, hearlier⟩)

end Tick

end QueueParty

/-! ## One call -/

section OneCall

variable {party : QueueParty}

/-- The loop ends after `m` steps: at the first poll that finds the flag set, or when the polls
are used up. -/
theorem eval_readQuadioLoop (party : QueueParty) (d : Driver) (left : Nat) (q : MspiQueue) :
    ∃ m, (nandCmdReadQuadioLoop left d).eval party.env q = (.ok ((), d), party.tick^[m] q) ∧
      (∀ j, 2 * j + 1 < m → ¬ (party.tick^[2 * j + 1] q).gDmaComplete = true) ∧
      (m = 2 * left ∨ ∃ i < left, m = 2 * i + 1 ∧ (party.tick^[m] q).gDmaComplete = true) := by
  induction left generalizing q with
  | zero =>
    refine ⟨0, rfl, fun j hj => ?_, .inl rfl⟩
    omega
  | succ left ih =>
    -- the flag as the poll reads it
    have hread : ∀ k : Answer → Prog QueueCall Answer Halt (Unit × Driver),
        (ask .readDmaComplete k).eval party.env q =
          (k { party.answers (q.clock + 1) with
            bytes := fun _ => if (party.tick q).gDmaComplete then 1 else 0 }).eval party.env
            (party.tick q) := by
      intro k
      have hclock : (party.tick q).clock = q.clock + 1 := QueueParty.tick_clock q
      rw [← hclock]
      rfl
    rw [nandCmdReadQuadioLoop_succ, hread]
    by_cases hflag : (party.tick q).gDmaComplete = true
    · -- the first poll ends it
      refine ⟨1, ?_, fun j hj => ?_, .inr ⟨0, Nat.succ_pos left, rfl, hflag⟩⟩
      · simp [hflag]
      · omega
    · -- the poll and the delay after it are two steps
      obtain ⟨m, heval, hbefore, hend⟩ := ih (party.tick (party.tick q))
      refine ⟨m + 2, ?_, fun j hj => ?_, ?_⟩
      · simp only [hflag]
        exact heval
      · cases j with
        | zero => exact hflag
        | succ j => exact hbefore j (by omega)
      · rcases hend with rfl | ⟨i, hi, rfl, hset⟩
        · exact .inl rfl
        · exact .inr ⟨i + 1, Nat.succ_lt_succ hi, rfl, hset⟩

/-- The step at which a call that begins in `q` makes its request. -/
def requestAt (q : MspiQueue) : Nat := q.clock + 3

/-- The state of the queue once it has accepted the request of a call that begins in `q`. -/
def requested (party : QueueParty) (q : MspiQueue) : MspiQueue :=
  { party.tick^[3] q with accepted := requestAt q :: q.accepted }

theorem requested_clock (q : MspiQueue) : (requested party q).clock = requestAt q :=
  QueueParty.iterate_tick_clock q 3

variable {q : MspiQueue}

/-- The request is answered at its step, and joins those accepted if it succeeds. -/
theorem eval_control (k : Answer → Prog QueueCall Answer Halt (Status × Driver))
    (rawCq : AmHalMspiCqRaw) :
    (ask (.gpioPinconfigCe0 .gpio) fun _ => ask .gpioOutputClearCe0 fun _ =>
      ask (.mspiControlCqRaw rawCq) k).eval party.env q =
      (k (party.answers (requestAt q))).eval party.env
        (if (party.answers (requestAt q)).status = amHalStatusSuccess then requested party q
        else party.tick^[3] q) := by
  have hclock : (party.tick^[3] q).clock = requestAt q := QueueParty.iterate_tick_clock q 3
  have haccepted : (party.tick^[3] q).accepted = q.accepted :=
    QueueParty.iterate_tick_accepted q 3
  have hstep : party.env (party.tick^[2] q) (.mspiControlCqRaw rawCq) =
      (party.answers (requestAt q),
        if (party.answers (requestAt q)).status = amHalStatusSuccess then requested party q
        else party.tick^[3] q) := by
    unfold requested
    rw [← hclock, ← haccepted]
    rfl
  show (k (party.env (party.tick^[2] q) (.mspiControlCqRaw rawCq)).1).eval party.env
    (party.env (party.tick^[2] q) (.mspiControlCqRaw rawCq)).2 = _
  rw [hstep]

/-- A call whose request is refused. -/
theorem eval_readQuadio_refused (d : Driver) (columnAddr : UInt16) (data dataLen : UInt32)
    (hrefused : (party.answers (requestAt q)).status ≠ amHalStatusSuccess) :
    (nandCmdReadQuadio columnAddr data dataLen d).eval party.env q =
      (.ok ((party.answers (requestAt q)).status, d), party.tick^[3] q) := by
  rw [nandCmdReadQuadio_apply, eval_control, if_pos hrefused, if_neg hrefused]
  rfl

/-- The end of a call raises chip enable at its first step. -/
theorem eval_raiseCe (party : QueueParty) (r : Status × Driver) (q : MspiQueue) :
    ∃ q', (raiseCe r).eval party.env q = (.ok r, q') ∧ q'.accepted = q.accepted ∧
      q'.ceRaisedAt = q.clock + 1 := by
  refine ⟨party.tick (party.tick { party.tick q with ceRaisedAt := (party.tick q).clock }), rfl,
    ?_, ?_⟩
  · rw [QueueParty.tick_accepted, QueueParty.tick_accepted]
    exact QueueParty.tick_accepted q
  · rw [QueueParty.tick_ceRaisedAt, QueueParty.tick_ceRaisedAt]
    exact QueueParty.tick_clock q

/-- A call whose request is accepted reports success, `m` being the steps of its loop. -/
theorem eval_readQuadio_accepted (d : Driver) (columnAddr : UInt16) (data dataLen : UInt32)
    (haccepted : (party.answers (requestAt q)).status = amHalStatusSuccess) :
    ∃ m d' q', (nandCmdReadQuadio columnAddr data dataLen d).eval party.env q =
        (.ok (amHalStatusSuccess, d'), q') ∧
      q'.accepted = requestAt q :: q.accepted ∧ q'.ceRaisedAt = requestAt q + m + 1 ∧
      (∀ j, 2 * j + 1 < m → ¬ (party.tick^[2 * j + 1] (requested party q)).gDmaComplete = true) ∧
      (m = 2 * amDevicesMspiFlashTimeout.toNat ∨ ∃ i < amDevicesMspiFlashTimeout.toNat,
        m = 2 * i + 1 ∧ (party.tick^[m] (requested party q)).gDmaComplete = true) := by
  rw [nandCmdReadQuadio_apply, eval_control, if_neg (not_ne_iff.mpr haccepted),
    if_pos haccepted, haccepted]
  obtain ⟨m, heval, hbefore, hend⟩ := eval_readQuadioLoop party
    (d.queued (commandQueue columnAddr data dataLen)) amDevicesMspiFlashTimeout.toNat
    (requested party q)
  rw [eval_bind_ok heval]
  have hclock : (party.tick^[m] (requested party q)).clock = requestAt q + m := by
    rw [QueueParty.iterate_tick_clock, requested_clock]
  have haccepted : (party.tick^[m] (requested party q)).accepted = requestAt q :: q.accepted :=
    QueueParty.iterate_tick_accepted (requested party q) m
  obtain ⟨q', hraise, hsame, hraised⟩ := eval_raiseCe party
    (amHalStatusSuccess, d.queued (commandQueue columnAddr data dataLen))
    (party.tick^[m] (requested party q))
  exact ⟨m, _, q', hraise, hsame.trans haccepted, by rw [hraised, hclock], hbefore, hend⟩

/-! ## The handshake -/

/-- A call that reports success has been called back for its own request before it raises chip
enable. -/
def Handshake (party : QueueParty) (st : QueueStep MspiQueue) : Prop :=
  ∀ r d', st.result = .ok (r, d') → r.ui32Status = amHalStatusSuccess →
    ∃ t u, st.after.accepted = t :: st.before.accepted ∧ party.callbackAt t = some u ∧
      u < st.after.ceRaisedAt

/-- The callback of a request made in the call that begins in `q` comes while the call polls, and
no poll before finds the flag set by others. -/
def CallbackInTime (party : QueueParty) (q : MspiQueue) : Prop :=
  ∃ u, party.callbackAt (requestAt q) = some u ∧
    u ≤ requestAt q + 2 * amDevicesMspiFlashTimeout.toNat ∧
    ∀ i < amDevicesMspiFlashTimeout.toNat, requestAt q + (2 * i + 1) < u →
      ¬ party.FlagBy q (requestAt q + (2 * i + 1))

theorem lt_callbackAt {t u : Nat} (h : party.callbackAt t = some u) : t < u := by
  obtain ⟨n, -, rfl⟩ := Option.map_eq_some_iff.mp h
  omega

/-- Once the request is made, the flag is set by others or by its own callback. -/
theorem flag_requested (k : Nat) :
    (party.tick^[k] (requested party q)).gDmaComplete = true ↔
      party.FlagBy q (requestAt q + k) ∨
        ∃ u, party.callbackAt (requestAt q) = some u ∧ u ≤ requestAt q + k := by
  have hbefore : (requested party q).gDmaComplete = true ↔ party.FlagBy q (requestAt q) :=
    QueueParty.iterate_tick_gDmaComplete q 3
  rw [QueueParty.iterate_tick_gDmaComplete, QueueParty.FlagBy, hbefore, requested_clock]
  constructor
  · rintro ((hflag | ⟨t, ht, u, hu, hlow, hhigh⟩) | ⟨t, ht, u, hu, hlow, hhigh⟩)
    · exact .inl (.inl hflag)
    · exact .inl (.inr ⟨t, ht, u, hu, hlow, by omega⟩)
    · rcases List.mem_cons.mp ht with rfl | ht
      · exact .inr ⟨u, hu, hhigh⟩
      · have hstart : q.clock < u := by
          unfold requestAt at hlow
          omega
        exact .inl (.inr ⟨t, ht, u, hu, hstart, hhigh⟩)
  · rintro ((hflag | ⟨t, ht, u, hu, hlow, hhigh⟩) | ⟨u, hu, hhigh⟩)
    · exact .inl (.inl hflag)
    · -- before the request or after it
      rcases Nat.lt_or_ge (requestAt q) u with hlate | hearly
      · exact .inr ⟨t, List.mem_cons_of_mem _ ht, u, hu, hlate, hhigh⟩
      · exact .inl (.inr ⟨t, ht, u, hu, hlow, hearly⟩)
    · exact .inr ⟨_, List.mem_cons_self, u, hu, lt_callbackAt hu, hhigh⟩

/-- The callback comes in time exactly if the loop is not over before. -/
theorem callbackInTime_iff {m : Nat}
    (hbefore : ∀ j, 2 * j + 1 < m →
      ¬ (party.tick^[2 * j + 1] (requested party q)).gDmaComplete = true)
    (hend : m = 2 * amDevicesMspiFlashTimeout.toNat ∨ ∃ i < amDevicesMspiFlashTimeout.toNat,
      m = 2 * i + 1 ∧ (party.tick^[m] (requested party q)).gDmaComplete = true) :
    CallbackInTime party q ↔
      ∃ u, party.callbackAt (requestAt q) = some u ∧ u ≤ requestAt q + m := by
  constructor
  · rintro ⟨u, hu, hlast, hclear⟩
    refine ⟨u, hu, ?_⟩
    rcases hend with rfl | ⟨i, hi, rfl, hset⟩
    · exact hlast
    · by_contra hlate
      rcases (flag_requested _).mp hset with hothers | ⟨u', hu', hown⟩
      · exact hclear i hi (by omega) hothers
      · obtain rfl := Option.some.inj (hu.symm.trans hu')
        exact hlate hown
  · rintro ⟨u, hu, hloop⟩
    refine ⟨u, hu, ?_, fun i _ hearly hothers => ?_⟩
    · rcases hend with rfl | ⟨i, hi, rfl, -⟩
      · exact hloop
      · omega
    · exact hbefore i (by omega) ((flag_requested _).mpr (.inl hothers))

end OneCall

/-- The step of a call that returns. -/
theorem step_readQuadio_returns {env : QueueEnvironment MspiQueue} (fuel : Nat) (past : QueueTrace)
    {d d' : Driver} {q q' : MspiQueue} {columnAddr : UInt16} {data dataLen : UInt32}
    {ui32Status : Status}
    (heval : (nandCmdReadQuadio columnAddr data dataLen d).eval env q =
      (.ok (ui32Status, d'), q')) :
    let st := (QueueOperation.readQuadio columnAddr data dataLen).step env fuel past d q
    st.result = .ok (⟨ui32Status, [], none⟩, d') ∧ st.after = q' := by
  have hrun : ((QueueOperation.readQuadio columnAddr data dataLen).run fuel d).eval env q =
      (.ok (⟨ui32Status, [], none⟩, d'), q') := eval_bind_ok heval _
  exact ⟨congrArg Prod.fst hrun, congrArg Prod.snd hrun⟩

/-- One call, from any state of the queue and of the flag. -/
theorem step_handshake_iff (party : QueueParty) (fuel : Nat) (past : QueueTrace) (d : Driver)
    (q : MspiQueue) (columnAddr : UInt16) (data dataLen : UInt32) :
    Handshake party
        ((QueueOperation.readQuadio columnAddr data dataLen).step party.env fuel past d q) ↔
      ((party.answers (requestAt q)).status = amHalStatusSuccess → CallbackInTime party q) := by
  by_cases haccepted : (party.answers (requestAt q)).status = amHalStatusSuccess
  · obtain ⟨m, d', q', heval, hsame, hraised, hbefore, hend⟩ :=
      eval_readQuadio_accepted d columnAddr data dataLen haccepted
    obtain ⟨hresult, hafter⟩ := step_readQuadio_returns fuel past heval
    rw [callbackInTime_iff hbefore hend]
    unfold Handshake
    rw [hresult, hafter, hsame, hraised]
    constructor
    · intro hshake _
      obtain ⟨t, u, hown, hu, hearly⟩ := hshake _ _ rfl rfl
      obtain ⟨rfl, -⟩ := List.cons.inj hown
      exact ⟨u, hu, by omega⟩
    · intro hintime r d' _ _
      obtain ⟨u, hu, hearly⟩ := hintime haccepted
      exact ⟨_, u, rfl, hu, by omega⟩
  · have hrefused := eval_readQuadio_refused d columnAddr data dataLen haccepted
    obtain ⟨hresult, -⟩ := step_readQuadio_returns fuel past hrefused
    refine ⟨fun _ hok => absurd hok haccepted, fun _ r d' hres hok => ?_⟩
    obtain ⟨rfl, -⟩ := Prod.mk.inj (Except.ok.inj (hresult.symm.trans hres))
    exact absurd hok haccepted

/-- **The completion handshake.** In every run, a queued read that reports success has waited for
its own callback, exactly if its request is refused or its callback comes in time. -/
theorem handshake_iff (party : QueueParty) (fuel : Nat) (ops : List QueueOperation)
    (past : QueueTrace) (d : Driver) (q : MspiQueue) :
    ∀ st ∈ queueSteps party.env fuel ops past d q, ∀ columnAddr data dataLen,
      st.op = .readQuadio columnAddr data dataLen → (Handshake party st ↔
        ((party.answers (requestAt st.before)).status = amHalStatusSuccess →
          CallbackInTime party st.before)) := by
  refine queueSteps_induction (I := fun _ _ => True) (A := fun _ => True) ?_ trivial
    fun _ _ => trivial
  refine fun op past d q _ _ => ⟨?_, fun _ _ _ => trivial⟩
  rintro columnAddr data dataLen rfl
  exact step_handshake_iff party fuel past d q columnAddr data dataLen

/-- A queue that accepts every request and never calls back. -/
def silent : QueueParty := ⟨fun _ => .zero, fun _ => none⟩

/-- The first call on that queue, before an identification. -/
theorem handshake_iff_silent :
    Handshake silent ((QueueOperation.readQuadio 0 0x10000000 2048).step silent.env 0 []
        .initial ⟨0, [], false, 0⟩) ↔
      ((silent.answers 3).status = amHalStatusSuccess →
        CallbackInTime silent ⟨0, [], false, 0⟩) :=
  handshake_iff silent 0 [.readQuadio 0 0x10000000 2048, .single .id] [] .initial _ _
    (step_mem_queueSteps _ _ _ _ _ _ _) _ _ _ rfl

/-- A call on that queue, the first one, reports success. -/
theorem readQuadio_ignores_timeout :
    ¬ ∀ st ∈ queueSteps silent.env 0 [.readQuadio 0 0x10000000 2048] [] .initial ⟨0, [], false, 0⟩,
      Handshake silent st := by
  intro h
  have hshake := h _ (step_mem_queueSteps _ _ _ _ _ _ _)
  obtain ⟨u, hu, -⟩ := (step_handshake_iff silent 0 [] .initial _ _ _ _).mp hshake rfl
  have hnone : (none : Option Nat) = some u := hu
  exact absurd hnone nofun

end SpiNand
