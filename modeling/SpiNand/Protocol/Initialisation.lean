import SpiNand.Bus.Commands
import SpiNand.Protocol.ProgramErase

/-!
# Bringing the flash up

After a reset all blocks of the flash are locked, and it ignores PROGRAM_EXECUTE and BLOCK_ERASE
until SET_FEATURES clears the block lock register. `nand_init` resets the flash, unlocks it, and
disables the controller to configure it anew. A run that begins with a `nand_init` that succeeds
keeps to the order of this: transfers while the controller is enabled, writes while the blocks are
unlocked (`steps_initialised`). No operation but `nand_init` and `nand_reset` ends either.

`historyMonitor` is the watcher that remembers everything.
-/

namespace SpiNand

open Interaction Interaction.Prog

variable {σ α : Type}

/-! ## The order of a run, as formulas on its past -/

/-- The commands after which blocks may be locked. -/
def NandCmd.locks : NandCmd → Bool
  | .reset => true
  | .setFeatures reg _ => reg == featureRegBlockLock
  | _ => false

def NandCmd.isWrite (c : NandCmd) : Bool := c.isProgramExecute || c.isBlockErase

/-- The calls after which the controller may not be enabled. -/
def Call.disables : Call → Bool
  | .setup .mspiInitialize | .setup .mspiPowerControl | .setup .mspiDisable => true
  | _ => false

/-- The controller was enabled with success, and nothing has disabled it since. -/
def ControllerEnabled : Trace → Prop :=
  SinceAny (fun x => x.1 = .setup .mspiEnable ∧ x.2.status = amHalStatusSuccess)
    fun x => x.1.disables

/-- All blocks were unlocked with success, and nothing has locked any since. -/
def BlocksUnlocked : Trace → Prop :=
  SinceAny (Exchange.Sends (· = .setFeatures featureRegBlockLock featureRegBlockLockUnlockAll))
    (Exchange.Issues (·.locks))

/-- A call that may be made after the history `tr`. -/
def InOrder (tr : Trace) (q : Call) : Prop :=
  (∀ t, q = .blockingTransfer t → ControllerEnabled tr) ∧
    ∀ c, q.cmd = some c → c.isWrite → BlocksUnlocked tr

/-- After this history any call may be made. -/
def BroughtUp (tr : Trace) : Prop := ControllerEnabled tr ∧ BlocksUnlocked tr

theorem BroughtUp.inOrder {tr : Trace} (h : BroughtUp tr) (q : Call) : InOrder tr q :=
  ⟨fun _ _ => h.1, fun _ _ _ => h.2⟩

theorem ControllerEnabled.step {tr : Trace} {x : Exchange} (h : ControllerEnabled tr)
    (hx : x.1.disables = false) : ControllerEnabled (tr ++ [x]) :=
  Since.step h (by rw [hx]; decide)

theorem BlocksUnlocked.step {tr : Trace} {x : Exchange} (h : BlocksUnlocked tr)
    (hx : ∀ c, x.1.cmd = some c → c.locks = false) : BlocksUnlocked (tr ++ [x]) := by
  refine Since.step h ?_
  rintro ⟨c, hc, hlocks⟩
  rw [hx c hc] at hlocks
  cases hlocks

/-- A call that is no transfer and leaves the controller enabled. -/
theorem BroughtUp.step {tr : Trace} (h : BroughtUp tr) (q : Call) (hq : q.disables = false)
    (hcmd : q.cmd = none) (a : Answer) : BroughtUp (tr ++ [(q, a)]) := by
  refine ⟨h.1.step hq, h.2.step ?_⟩
  intro c hc
  have hnone : q.cmd = some c := hc
  rw [hcmd] at hnone
  cases hnone

/-! ## The watcher -/

/-- The watcher of a history, which it remembers. -/
def historyMonitor : Monitor Trace Call Answer where
  step tr q a := tr ++ [(q, a)]
  allows := InOrder

theorem historyMonitor_run (tr tr' : Trace) : historyMonitor.run tr tr' = tr ++ tr' := by
  induction tr' generalizing tr with
  | nil => exact (List.append_nil tr).symm
  | cons x tr' ih =>
    rw [Monitor.run_cons, ih]
    show tr ++ [x] ++ tr' = tr ++ x :: tr'
    rw [List.append_assoc, List.singleton_append]

/-! ## The initialisation -/

section Rules

variable {E : Halt → Trace → Prop} {tr : Trace}

/-- A call that returns nothing: a delay, a print, pins. -/
theorem wpS_void_history {v : Void} {m : DriverM Unit} {next : Unit → DriverM α}
    {R : α → Trace → Prop} (hm : ∀ d, m d = .ask (.void v) fun _ => .done ((), d))
    (h : ∀ a, wpS historyMonitor.handler E (next ()) R (tr ++ [(.void v, a)])) :
    wpS historyMonitor.handler E (m >>= next) R tr := by
  apply wpS_bind
  intro d
  rw [hm]
  exact ⟨⟨fun _ ht => (nomatch ht), fun _ hc => (nomatch hc)⟩, fun a => h a⟩

theorem wpS_void_up {v : Void} {next : Unit → DriverM α} {R : α → Trace → Prop} (h : BroughtUp tr)
    (hnext : ∀ tr', BroughtUp tr' → wpS historyMonitor.handler E (next ()) R tr') :
    wpS historyMonitor.handler E (void v >>= next) R tr := by
  apply wpS_void_history fun _ => rfl
  intro a
  exact hnext _ (h.step (.void v) rfl rfl a)

theorem wpS_setup_history {c : Setup} {R : Status → Trace → Prop}
    (h : ∀ a, R a.status (tr ++ [(.setup c, a)])) :
    wpS historyMonitor.handler E (setup c) R tr :=
  fun _ => ⟨⟨fun _ ht => (nomatch ht), fun _ hc => (nomatch hc)⟩, fun a => h a⟩

/-- `am_hal_mspi_device_configure` is one setup step too. -/
theorem wpS_deviceConfigure_history {R : Status → Trace → Prop}
    (h : ∀ settings a, R a.status (tr ++ [(.setup (.mspiDeviceConfigure settings), a)])) :
    wpS historyMonitor.handler E amHalMspiDeviceConfigure R tr := by
  apply wpS_bind
  apply wpS_get
  intro d
  apply wpS_bind
  apply wpS_setup_history
  intro a
  have hR := h d.gPsMSPISettings a
  exact wpS_ite (fun _ => wpS_bind (wpS_modify (wpS_pure hR))) fun _ => wpS_pure hR

/-- A setup step followed by the check of its status. -/
theorem wpS_setup_check_history {c : Setup} {fail next : DriverM α} {R : α → Trace → Prop}
    (hfail : ∀ tr', wpS historyMonitor.handler E fail R tr')
    (hnext : ∀ a : Answer, a.status = amHalStatusSuccess →
      wpS historyMonitor.handler E next R (tr ++ [(.setup c, a)])) :
    wpS historyMonitor.handler E
      (setup c >>= fun st => if amHalStatusSuccess ≠ st then fail else next) R tr := by
  apply wpS_bind
  apply wpS_setup_history
  intro a
  exact wpS_ite (fun _ => hfail _) fun hok => hnext a (not_ne_iff.mp hok).symm

theorem wpS_configure_history {fail next : DriverM α} {R : α → Trace → Prop}
    (hfail : ∀ tr', wpS historyMonitor.handler E fail R tr')
    (hnext : ∀ settings a, a.status = amHalStatusSuccess →
      wpS historyMonitor.handler E next R (tr ++ [(.setup (.mspiDeviceConfigure settings), a)])) :
    wpS historyMonitor.handler E
      (amHalMspiDeviceConfigure >>= fun st => if amHalStatusSuccess ≠ st then fail else next)
      R tr := by
  apply wpS_bind
  apply wpS_deviceConfigure_history
  intro settings a
  exact wpS_ite (fun _ => hfail _) fun hok => hnext settings a (not_ne_iff.mp hok).symm

/-- A transfer over the enabled controller, of a command that writes nothing. -/
theorem cmd_history {c : NandCmd} {φ : Answer → Trace → Prop} (h : ControllerEnabled tr)
    (hc : c.isWrite = false)
    (hφ : ∀ x : Exchange, x.1.cmd = some c → ControllerEnabled (tr ++ [x]) → φ x.2 (tr ++ [x])) :
    Handler.cmd historyMonitor.handler c φ tr := by
  intro t ht
  refine ⟨⟨fun _ _ => h, fun c' hc' hwrite => ?_⟩, fun a => ?_⟩
  · obtain rfl := Option.some.inj (ht.symm.trans hc')
    rw [hc] at hwrite
    cases hwrite
  · have henabled := h.step (x := (.blockingTransfer t, a)) rfl
    exact hφ (.blockingTransfer t, a) ht henabled

theorem wpS_reset_history {R : Status → Trace → Prop} (h : ControllerEnabled tr)
    (hR : ∀ st tr', ControllerEnabled tr' → R st tr') :
    wpS historyMonitor.handler E nandReset R tr := by
  apply wpS_bind
  apply carries_reset.run
  apply cmd_history h rfl
  intro x hx h₁
  apply wpS_ite (fun _ => wpS_pure (hR _ _ h₁))
  intro _
  apply wpS_void_history fun _ => rfl
  intro a
  exact wpS_pure (hR _ _ (ControllerEnabled.step h₁ rfl))

/-- Unlocking all blocks. -/
theorem wpS_initDevice_history {R : Status → Trace → Prop} (h : ControllerEnabled tr)
    (hR : ∀ st tr', (st = amHalStatusSuccess → BlocksUnlocked tr') → R st tr') :
    wpS historyMonitor.handler E nandInitDevice R tr := by
  apply (carries_setFeatures _ _).run
  apply cmd_history h rfl
  intro x hx h₁
  apply hR
  intro hok
  exact Since.now trivial ((Exchange.sends_iff hx _).mpr ⟨rfl, hok⟩)

/-- Once the blocks are unlocked, the rest of the initialisation enables the controller again. -/
theorem wpS_init_rest {R : Status → Trace → Prop}
    (hfail : ∀ tr', R amDevicesMspiFlashStatusError tr')
    (h : BlocksUnlocked tr) (hR : ∀ tr', BroughtUp tr' → R amDevicesMspiFlashStatusSuccess tr') :
    wpS historyMonitor.handler E (do
      if amHalStatusSuccess ≠ (← setup .mspiDisable) then
        return amDevicesMspiFlashStatusError
      if amHalStatusSuccess ≠ (← amHalMspiDeviceConfigure) then
        return amDevicesMspiFlashStatusError
      if amHalStatusSuccess ≠ (← setup .mspiEnable) then
        return amDevicesMspiFlashStatusError
      void (.mspiPinsEnable .flashQuadCe0)
      void .gpioPinconfigSck
      void .gpioPinconfigD1
      void .gpioPinconfigCe0
      if amHalStatusSuccess ≠ (← setup .mspiInterruptClear) then
        return amDevicesMspiFlashStatusError
      if amHalStatusSuccess ≠ (← setup .mspiInterruptEnable) then
        return amDevicesMspiFlashStatusError
      void .nvicEnableIrq
      void .interruptMasterEnable
      return amDevicesMspiFlashStatusSuccess) R tr := by
  have herror : ∀ tr', wpS historyMonitor.handler E
      (pure amDevicesMspiFlashStatusError : DriverM Status) R tr' :=
    fun tr' => wpS_pure (hfail tr')
  apply wpS_setup_check_history herror
  intro a₁ _
  have h₁ := h.step (x := (.setup .mspiDisable, a₁)) fun _ hc => nomatch hc
  apply wpS_configure_history herror
  intro settings a₂ _
  have h₂ := h₁.step (x := (.setup (.mspiDeviceConfigure settings), a₂)) fun _ hc => nomatch hc
  apply wpS_setup_check_history herror
  intro a₃ hok
  have h₃ := h₂.step (x := (.setup .mspiEnable, a₃)) fun _ hc => nomatch hc
  have hup₃ : BroughtUp _ := ⟨Since.now trivial ⟨rfl, hok⟩, h₃⟩
  apply wpS_void_up hup₃
  intro tr₄ hup₄
  apply wpS_void_up hup₄
  intro tr₅ hup₅
  apply wpS_void_up hup₅
  intro tr₆ hup₆
  apply wpS_void_up hup₆
  intro tr₇ hup₇
  apply wpS_setup_check_history herror
  intro a₈ _
  apply wpS_setup_check_history herror
  intro a₉ _
  have hup₉ := (hup₇.step (.setup .mspiInterruptClear) rfl rfl a₈).step
    (.setup .mspiInterruptEnable) rfl rfl a₉
  apply wpS_void_up hup₉
  intro tr₁₀ hup₁₀
  apply wpS_void_up hup₁₀
  intro tr₁₁ hup₁₁
  exact wpS_pure (hR tr₁₁ hup₁₁)

/-- Transfers of the initialisation are made over the enabled controller, and if it succeeds the
flash is brought up. -/
theorem wpS_init_history (tr : Trace) :
    wpS historyMonitor.handler E nandInit
      (fun st tr' => st = amDevicesMspiFlashStatusSuccess → BroughtUp tr') tr := by
  have hfail : ∀ tr' : Trace,
      amDevicesMspiFlashStatusError = amDevicesMspiFlashStatusSuccess → BroughtUp tr' :=
    fun _ h => absurd h (by decide)
  have herror : ∀ tr', wpS historyMonitor.handler E
      (pure amDevicesMspiFlashStatusError : DriverM Status)
      (fun st tr' => st = amDevicesMspiFlashStatusSuccess → BroughtUp tr') tr' :=
    fun tr' => wpS_pure (hfail tr')
  have hprint : ∀ text tr', wpS historyMonitor.handler E
      (amUtilStdioPrintf text >>= fun _ => pure amDevicesMspiFlashStatusError)
      (fun st tr' => st = amDevicesMspiFlashStatusSuccess → BroughtUp tr') tr' := by
    intro text tr'
    apply wpS_void_history fun _ => rfl
    intro a
    exact herror _
  apply wpS_void_history fun _ => rfl
  intro a₀
  apply wpS_setup_check_history (hprint _)
  intro a₁ _
  apply wpS_setup_check_history (hprint _)
  intro a₂ _
  apply wpS_configure_history (hprint _)
  intro settings a₃ _
  apply wpS_setup_check_history (hprint _)
  intro a₄ hok₄
  -- the controller is enabled for the reset and the unlocking
  apply wpS_bind
  apply wpS_get
  intro d
  apply wpS_void_history fun _ => rfl
  intro a₅
  apply wpS_bind
  apply wpS_reset_history (ControllerEnabled.step (Since.now trivial ⟨rfl, hok₄⟩) rfl)
  intro st₆ tr₆ henabled₆
  apply wpS_ite (fun _ => herror _)
  intro _
  apply wpS_bind
  apply wpS_initDevice_history henabled₆
  intro st₇ tr₇ hunlocked₇
  apply wpS_ite (fun _ => herror _)
  intro hok₇
  have h₇ : BlocksUnlocked tr₇ := hunlocked₇ (not_ne_iff.mp hok₇).symm
  exact wpS_init_rest hfail h₇ fun tr' hup _ => hup

end Rules

/-! ## Runs -/

/-- No operation but the initialisation and a reset locks any blocks. -/
theorem sends_not_locks {op : Operation} (hinit : op ≠ .init) (hreset : op ≠ .reset)
    {row firstRow : UInt32 → Nat} {c : NandCmd} (hc : op.sends row firstRow c) :
    c.locks = false := by
  have hreads : ∀ {row column len : Nat}, ReadsPage row column len c → c.locks = false := by
    rintro row column len (rfl | rfl | rfl) <;> rfl
  cases op with
  | init => exact absurd rfl hinit
  | reset => exact absurd rfl hreset
  | id =>
    obtain rfl : c = .readId 3 := hc
    rfl
  | readParamsPage paramsPage len =>
    rcases hc with rfl | ⟨value, rfl⟩ | hc
    · rfl
    · exact beq_false_of_ne (show featureRegConfig ≠ featureRegBlockLock by decide)
    · exact hreads hc
  | checkBadBlock blockAddr isBad => exact hreads hc
  | isFree pageAddr isFree => exact hreads hc
  | readPage pageAddr offset data len eccFatal => exact hreads hc
  | printBadBlocks =>
    obtain ⟨blockAddr, -, hc⟩ := hc
    exact hreads hc
  | markBadBlock blockAddr => rcases hc with rfl | rfl | rfl | rfl | rfl <;> rfl
  | eraseBlock blockAddr => rcases hc with rfl | rfl | rfl <;> rfl
  | progPage pageAddr data => rcases hc with rfl | rfl | rfl | rfl <;> rfl
  | copyPage srcPageAddr destPageAddr eccFatal => rcases hc with rfl | rfl | rfl | rfl | rfl <;> rfl

/-- What such an operation asks leaves the flash up. -/
theorem BroughtUp.asks {op : Operation} (hinit : op ≠ .init) (hreset : op ≠ .reset) {tr : Trace}
    {x : Exchange} (h : BroughtUp tr) (hx : op.asks x.1) : BroughtUp (tr ++ [x]) := by
  obtain ⟨q, a⟩ := x
  cases q with
  | void v => exact h.step (.void v) rfl rfl a
  | uninit => exact h.step .uninit rfl rfl a
  | setup c => exact hx.elim
  | blockingTransfer t =>
    obtain ⟨c, hdecode, hc⟩ := hx
    refine ⟨h.1.step rfl, h.2.step ?_⟩
    intro c' hc'
    obtain rfl := Option.some.inj (hdecode.symm.trans hc')
    exact sends_not_locks hinit hreset hc

/-- All that such an operation asks is in order. -/
theorem accepts_of_asks {op : Operation} (hinit : op ≠ .init) (hreset : op ≠ .reset)
    {tr tr' : Trace} (h : BroughtUp tr) (htr' : ∀ x ∈ tr', op.asks x.1) :
    historyMonitor.Accepts tr tr' ∧ BroughtUp (tr ++ tr') := by
  induction tr' generalizing tr with
  | nil => exact ⟨historyMonitor.accepts_nil tr, by rwa [List.append_nil]⟩
  | cons x tr' ih =>
    have hnext := h.asks hinit hreset (htr' x List.mem_cons_self)
    obtain ⟨hacc, hup⟩ := ih hnext fun y hy => htr' y (List.mem_cons_of_mem x hy)
    refine ⟨(historyMonitor.accepts_cons tr x tr').mpr ⟨h.inOrder x.1, hacc⟩, ?_⟩
    rwa [List.append_assoc, List.singleton_append] at hup

/-- An initialisation that is part of a run has returned, and with success. -/
def InitSucceeds (st : Step σ) : Prop :=
  st.op = .init → ∃ r, st.result = .ok r ∧ r.ui32Status = amDevicesMspiFlashStatusSuccess

/-- One operation of the run. -/
theorem step_inOrder (env : Environment σ) (fuel : Nat) {op : Operation} (hreset : op ≠ .reset)
    (d : Driver) (s : σ × (Nat → Answer)) {tr : Trace} (h : op = .init ∨ BroughtUp tr)
    (hok : InitSucceeds (op.step env fuel d s)) :
    historyMonitor.Accepts tr (op.step env fuel d s).trace ∧
      BroughtUp (tr ++ (op.step env fuel d s).trace) := by
  by_cases hinit : op = .init
  · subst hinit
    have hwp : wpS historyMonitor.handler (fun _ _ => False) (Operation.init.run fuel)
        (fun r tr' => r.ui32Status = amDevicesMspiFlashStatusSuccess → BroughtUp tr') tr := by
      apply wpS_map
      exact wpS_init_history tr
    obtain ⟨hacc, hpost⟩ := step_of_monitor hwp env d s
    obtain ⟨r, hr, hsuccess⟩ := hok rfl
    rw [hr, historyMonitor_run] at hpost
    exact ⟨hacc, hpost hsuccess⟩
  · have hup : BroughtUp tr := h.resolve_left hinit
    exact accepts_of_asks hinit hreset hup (step_asks env fuel hinit d s)

theorem run_inOrder (env : Environment σ) (fuel : Nat) {ops : List Operation}
    (hreset : .reset ∉ ops) {d : Driver} {s : σ × (Nat → Answer)} (tr : Trace)
    (h : (∃ rest, ops = .init :: rest) ∨ BroughtUp tr)
    (hok : ∀ st ∈ steps env fuel ops d s, InitSucceeds st) :
    historyMonitor.Accepts tr (sent (steps env fuel ops d s)) := by
  induction ops generalizing d s tr with
  | nil => exact historyMonitor.accepts_nil tr
  | cons op ops ih =>
    rw [steps] at hok ⊢
    have hfirst : op = .init ∨ BroughtUp tr := by
      rcases h with ⟨rest, heq⟩ | hup
      · exact .inl (List.cons.inj heq).1
      · exact .inr hup
    have hop : op ≠ .reset := fun heq => hreset (heq ▸ List.mem_cons_self)
    obtain ⟨hacc, hup⟩ := step_inOrder env fuel hop d s hfirst (hok _ List.mem_cons_self)
    rw [sent_cons]
    apply historyMonitor.accepts_append hacc
    rw [historyMonitor_run]
    generalize (op.run fuel d).eval (withStack env) s = ended at hok ⊢
    obtain ⟨result, s'⟩ := ended
    cases result with
    | ok r =>
      exact ih (fun hmem => hreset (List.mem_cons_of_mem op hmem)) _ (.inr hup)
        fun st hst => hok st (List.mem_cons_of_mem _ hst)
    | error e => exact historyMonitor.accepts_nil _

/-- Every call of a trace is in order. -/
def Orderly (tr : Trace) : Prop := ∀ pre x suf, tr = pre ++ x :: suf → InOrder pre x.1

/-- **Nothing happens out of order.** In a run that begins with `nand_init`, in which every
`nand_init` succeeds and there is no other reset, with any answers of the HAL and the flash: every
transfer is made while the controller is enabled, and every program and erase command is sent
while all blocks are unlocked. -/
theorem steps_initialised (env : Environment σ) (fuel : Nat) (ops : List Operation)
    (hreset : .reset ∉ ops) (d : Driver) (s : σ × (Nat → Answer))
    (hok : ∀ st ∈ steps env fuel (.init :: ops) d s, InitSucceeds st) :
    Orderly (sent (steps env fuel (.init :: ops) d s)) := by
  have hnone : Operation.reset ∉ .init :: ops := by
    intro hmem
    rcases List.mem_cons.mp hmem with heq | hmem
    · cases heq
    · exact hreset hmem
  intro pre x suf heq
  have hacc := run_inOrder env fuel hnone [] (.inl ⟨ops, rfl⟩) hok
  have hallowed := hacc pre x suf heq
  rwa [historyMonitor_run] at hallowed

/-- A flash that is brought up, erased and programmed. -/
def bringUpOps : List Operation := [.init, .eraseBlock 21, .markBadBlock 22]

theorem bringUp_initialised :
    Orderly (sent (steps alwaysReady 3 bringUpOps Driver.initial ((), fun _ => .zero))) := by
  refine steps_initialised alwaysReady 3 [.eraseBlock 21, .markBadBlock 22] (by simp)
    Driver.initial ((), fun _ => .zero) ?_
  intro st hst
  rw [steps] at hst
  rcases List.mem_cons.mp hst with rfl | hst
  · exact fun _ => ⟨_, rfl, rfl⟩
  · intro hop
    split at hst
    · have hmem := op_mem hst
      rw [hop] at hmem
      simp at hmem
    · cases hst

end SpiNand
