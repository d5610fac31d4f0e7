import SpiNand.Bus.Lockstep
import SpiNand.Bus.QueueRuns

/-!
# Quad reads and the lanes they leave

The lanes are chosen in three places: the settings, the `CFG` register, and the function of the
chip enable pin. Every public operation keeps a single lane and sends on it. `_nand_cmd_read_x4`
is back on a single lane exactly if its transfer succeeds, and `_nand_cmd_read_quadio` never is:
a queue that is accepted leaves `CFG` on four lanes, one that is refused leaves chip enable low.

* **`oneLane_iff`**: all steps of a run leave and use a single lane exactly if the run has no
  queued read and every transfer of an x4 read succeeds.
-/

namespace SpiNand

open Interaction Interaction.Prog

/-! ## A single lane -/

/-- The register and the settings are on a single lane. -/
def Driver.OneLane (d : Driver) : Prop :=
  d.cfg.devcfg = .flashSerialCe0 ∧ d.gPsMSPISettings.eDeviceConfig = .flashSerialCe0

/-- A transfer goes out on a single lane; nothing is said of other calls. -/
def Call.OneLane : Call → Prop
  | .blockingTransfer t => t.cfg.devcfg = .flashSerialCe0 ∧ t.pio.bQuadCmd = false
  | _ => True

/-- The chip enable pin: its function, and the level it has as a GPIO. -/
structure Ce0Pin where
  uFuncSel : PinFuncSel
  output : Bool

namespace Ce0Pin

/-- What a call does to the pin. -/
def step (pin : Ce0Pin) : QueueCall → Ce0Pin
  | .gpioPinconfigCe0 uFuncSel => { pin with uFuncSel }
  | .gpioOutputClearCe0 => { pin with output := false }
  | .gpioOutputSetCe0 => { pin with output := true }
  | .hal (.void .gpioPinconfigCe0) => { pin with uFuncSel := .mspi }
  | _ => pin

/-- The pin after a list of exchanges. -/
def after (pin : Ce0Pin) (tr : QueueTrace) : Ce0Pin := tr.foldl (fun pin x => pin.step x.1) pin

/-- The pin is on its MSPI function, and not held low as a GPIO. -/
def Released (pin : Ce0Pin) : Prop :=
  pin.uFuncSel = .mspi ∧ ¬ (pin.uFuncSel = .gpio ∧ pin.output = false)

theorem released_iff (pin : Ce0Pin) : pin.Released ↔ pin.uFuncSel = .mspi := by
  refine ⟨fun h => h.1, fun h => ⟨h, fun hlow => ?_⟩⟩
  rw [h] at hlow
  exact PinFuncSel.noConfusion hlow.1

theorem after_append (pin : Ce0Pin) (tr tr' : QueueTrace) :
    pin.after (tr ++ tr') = (pin.after tr).after tr' := List.foldl_append

/-- The HAL calls other than those of the queued read only ever give the pin to the MSPI. -/
theorem Released.after_hal {pin : Ce0Pin} (h : pin.Released) (tr : Trace) :
    (pin.after (tr.map fun x => (QueueCall.hal x.1, x.2))).Released := by
  induction tr generalizing pin with
  | nil => exact h
  | cons x tr ih =>
    have hstep : (pin.step (.hal x.1)).Released := by
      rw [released_iff] at h ⊢
      obtain ⟨c, a⟩ := x
      cases c with
      | blockingTransfer t => exact h
      | setup s => exact h
      | uninit => exact h
      | void v =>
        cases v with
        | gpioPinconfigCe0 => rfl
        | _ => exact h
    exact ih hstep

end Ce0Pin

/-! ## Every public operation -/

/-- The same calls from the same state, on a single lane. -/
abbrev OneLaneState (d d' : Driver) : Prop := d = d' ∧ d.OneLane

abbrev OneLaneCall (c c' : Call) : Prop := c = c' ∧ c.OneLane

section Respects

variable {α : Type} {allowed : NandCmd → Prop}

/-- A transfer that neither chooses other lanes nor leaves them. -/
theorem respects_oneLane {m : DriverM α} {t : Driver → Transfer} {f : Answer → α}
    {next : Driver → Driver}
    (hm : ∀ d, m d = .ask (.blockingTransfer (t d)) fun a => .done (f a, next d))
    (ht : ∀ d, (t d).cfg.devcfg = d.cfg.devcfg ∧ (t d).pio.bQuadCmd = false)
    (hnext : ∀ d, d.OneLane → (next d).OneLane) :
    Respects OneLaneState OneLaneCall m := by
  apply respects_transfer hm
  · rintro d _ ⟨rfl, hd⟩
    exact ⟨rfl, (ht d).1.trans hd.1, (ht d).2⟩
  · rintro d _ ⟨rfl, hd⟩
    exact ⟨rfl, hnext d hd⟩

theorem helpersRespect_oneLane : HelpersRespect OneLaneState OneLaneCall fun _ => True where
  void _ := ⟨rfl, trivial⟩
  uninit := ⟨rfl, trivial⟩
  getFeatures reg _ :=
    respects_oneLane (nandCmdGetFeatures_apply reg) (fun _ => ⟨rfl, rfl⟩) fun _ hd => hd
  setFeatures reg value _ :=
    respects_oneLane (nandCmdSetFeatures_apply reg value) (fun _ => ⟨rfl, rfl⟩) fun _ hd => hd
  reset _ := respects_oneLane (amDeviceCommandWrite_apply cmdReset false 0 [] 0)
    (fun _ => ⟨rfl, rfl⟩) fun _ hd => hd
  readId buffer _ := respects_oneLane (amDeviceCommandRead_apply cmdReadId false 0 buffer 3)
    (fun _ => ⟨rfl, rfl⟩) fun _ hd => hd
  writeEnable _ :=
    respects_oneLane nandCmdWriteEnable_apply (fun _ => ⟨rfl, rfl⟩) fun _ hd => hd
  pageRead pageAddr _ :=
    respects_oneLane (nandCmdPageRead_apply pageAddr) (fun _ => ⟨rfl, rfl⟩) fun _ hd => hd
  readX1 column data len _ :=
    respects_oneLane (nandCmdReadX1_apply column data len) (fun _ => ⟨rfl, rfl⟩) fun _ hd => hd
  programLoad column data len _ _ :=
    respects_oneLane (nandCmdProgramLoadX1_apply column data len) (fun _ => ⟨rfl, rfl⟩)
      fun _ hd => hd
  programLoadRandom column data len _ _ :=
    respects_oneLane (nandCmdProgramLoadRandomX1_apply column data len) (fun _ => ⟨rfl, rfl⟩)
      fun _ hd => hd
  programExecute pageAddr _ :=
    respects_oneLane (nandCmdProgramExecute_apply pageAddr) (fun _ => ⟨rfl, rfl⟩) fun _ hd => hd
  blockErase pageAddr _ :=
    respects_oneLane (nandCmdBlockErase_apply pageAddr) (fun _ => ⟨rfl, rfl⟩) fun _ hd => hd

theorem respects_void (v : Void) : Respects OneLaneState OneLaneCall (void v) :=
  respects_bind (respects_call ⟨rfl, trivial⟩) fun _ => respects_pure _

theorem respects_setup (s : Setup) : Respects OneLaneState OneLaneCall (setup s) :=
  respects_bind (respects_call ⟨rfl, trivial⟩) fun _ => respects_pure _

/-- The configuration is loaded from settings that are on a single lane. -/
theorem respects_deviceConfigure : Respects OneLaneState OneLaneCall amHalMspiDeviceConfigure := by
  rintro d _ ⟨rfl, hd⟩
  rw [amHalMspiDeviceConfigure_apply]
  refine ⟨⟨rfl, trivial⟩, fun a => ⟨rfl, rfl, ?_⟩⟩
  by_cases hok : a.status = amHalStatusSuccess
  · rw [if_pos hok]
    exact ⟨hd.2, hd.2⟩
  · rwa [if_neg hok]

/-- A setup step followed by the check of its status. -/
theorem respects_setup_check {m : DriverM Status} {fail next : DriverM α}
    (hm : Respects OneLaneState OneLaneCall m) (hfail : Respects OneLaneState OneLaneCall fail)
    (hnext : Respects OneLaneState OneLaneCall next) :
    Respects OneLaneState OneLaneCall
      (m >>= fun st => if amHalStatusSuccess ≠ st then fail else next) :=
  respects_bind hm fun _ => respects_ite hfail hnext

theorem respects_init : Respects OneLaneState OneLaneCall nandInit := by
  have herror : ∀ text, Respects OneLaneState OneLaneCall
      (amUtilStdioPrintf text >>= fun _ => pure amDevicesMspiFlashStatusError) :=
    fun text => respects_bind (respects_printf helpersRespect_oneLane text) fun _ => respects_pure _
  have hget : Respects OneLaneState OneLaneCall (get : DriverM Driver) := by
    rintro d _ ⟨rfl, hd⟩
    exact ⟨rfl, rfl, hd⟩
  apply respects_bind (respects_void _)
  intro _
  apply respects_setup_check (respects_setup _) (herror _)
  apply respects_setup_check (respects_setup _) (herror _)
  apply respects_setup_check respects_deviceConfigure (herror _)
  apply respects_setup_check (respects_setup _) (herror _)
  apply respects_bind hget
  intro d
  apply respects_bind (respects_void _)
  intro _
  apply respects_setup_check (respects_reset helpersRespect_oneLane trivial) (respects_pure _)
  apply respects_setup_check (helpersRespect_oneLane.setFeatures _ _ trivial) (respects_pure _)
  apply respects_setup_check (respects_setup _) (respects_pure _)
  apply respects_setup_check respects_deviceConfigure (respects_pure _)
  apply respects_setup_check (respects_setup _) (respects_pure _)
  apply respects_bind (respects_void _)
  intro _
  apply respects_bind (respects_void _)
  intro _
  apply respects_bind (respects_void _)
  intro _
  apply respects_bind (respects_void _)
  intro _
  apply respects_setup_check (respects_setup _) (respects_pure _)
  apply respects_setup_check (respects_setup _) (respects_pure _)
  exact respects_bind (respects_void _) fun _ => respects_bind (respects_void _) fun _ =>
    respects_pure _

/-- Every public operation keeps a single lane and sends on it. -/
theorem respects_single (fuel : Nat) (op : Operation) :
    Respects OneLaneState OneLaneCall (op.run fuel) := by
  by_cases hinit : op = .init
  · subst hinit
    exact respects_bind respects_init fun _ => respects_pure _
  · exact respects_operation helpersRespect_oneLane fuel op hinit fun _ _ => trivial

end Respects

/-! ## The x4 read -/

/-- Every transfer succeeded. -/
def TransfersSucceed (tr : Trace) : Prop :=
  ∀ t a, (.blockingTransfer t, a) ∈ tr → a.status = amHalStatusSuccess

theorem transfersSucceed_setup (tr : Trace) (s : Setup) (a : Answer) :
    TransfersSucceed (tr ++ [(.setup s, a)]) ↔ TransfersSucceed tr := by
  simp [TransfersSucceed]

theorem transfersSucceed_transfer (tr : Trace) (t : Transfer) (a : Answer) :
    TransfersSucceed (tr ++ [(.blockingTransfer t, a)]) ↔
      TransfersSucceed tr ∧ a.status = amHalStatusSuccess := by
  constructor
  · intro h
    exact ⟨fun t' a' hmem => h t' a' (List.mem_append_left _ hmem), h t a (by simp)⟩
  · rintro ⟨htr, ha⟩ t' a' hmem
    rcases List.mem_append.mp hmem with hmem | hmem
    · exact htr t' a' hmem
    · obtain ⟨-, rfl⟩ := Prod.mk.inj (List.mem_singleton.mp hmem)
      exact ha

/-- The calls that set the peripheral up succeed. -/
def SetupOk : Call → Answer → Prop
  | .setup _, a => a.status = amHalStatusSuccess
  | _, _ => True

/-- The device configuration with four lanes or one. -/
def deviceOf (useQuadspi : Bool) : AmHalMspiDevice :=
  if useQuadspi then .flashQuadCe0 else .flashSerialCe0

/-- The state with the settings for four lanes or one. -/
def Driver.withLanes (d : Driver) (useQuadspi : Bool) : Driver :=
  { d with gPsMSPISettings := { d.gPsMSPISettings with
    eDeviceConfig := deviceOf useQuadspi
    eXipMixedMode := if useQuadspi then .d4 else .normal } }

theorem mspiSetUseQuadspi_eq (useQuadspi : Bool) :
    mspiSetUseQuadspi useQuadspi = do
      if amHalStatusSuccess ≠ (← setup .mspiDisable) then
        return amDevicesMspiFlashStatusError
      modify fun d => d.withLanes useQuadspi
      if amHalStatusSuccess ≠ (← amHalMspiDeviceConfigure) then
        return amDevicesMspiFlashStatusError
      if amHalStatusSuccess ≠ (← setup .mspiEnable) then
        return amDevicesMspiFlashStatusError
      return amHalStatusSuccess := by
  cases useQuadspi <;> rfl

section ReadX4

variable {α : Type} {E : Halt → Trace → Prop} {d : Driver} {tr : Trace}

/-- A setup step followed by the check of its status, where it succeeds. -/
theorem wp_check {m : DriverM Status} {s : Setup} {d' : Driver} {fail next : DriverM α}
    {R : α × Driver → Trace → Prop}
    (hm : m d = .ask (.setup s) fun a =>
      .done (a.status, if a.status = amHalStatusSuccess then d' else d))
    (h : ∀ a, wp (Handler.tracing SetupOk) E (next d') R (tr ++ [(.setup s, a)])) :
    wp (Handler.tracing SetupOk) E
      ((m >>= fun st => if amHalStatusSuccess ≠ st then fail else next) d) R tr := by
  rw [stateT_bind, hm]
  refine wp_tracing_ask fun a ha => ?_
  have hok : a.status = amHalStatusSuccess := ha
  show wp _ _ ((if amHalStatusSuccess ≠ a.status then fail else next)
    (if a.status = amHalStatusSuccess then d' else d)) R _
  rw [if_pos hok, hok, if_neg (not_ne_iff.mpr rfl)]
  exact h a

theorem setup_apply (s : Setup) (d : Driver) :
    setup s d = .ask (.setup s) fun a =>
      .done (a.status, if a.status = amHalStatusSuccess then d else d) :=
  congrArg (Prog.ask _) (funext fun _ => by rw [ite_self]; rfl)

/-- Where the setup calls succeed, the settings and the register are on the lanes asked for. -/
theorem wp_setUseQuadspi {useQuadspi : Bool} {R : Status × Driver → Trace → Prop}
    (h : ∀ d' tr', d'.cfg.devcfg = deviceOf useQuadspi →
      d'.gPsMSPISettings.eDeviceConfig = deviceOf useQuadspi →
      (TransfersSucceed tr' ↔ TransfersSucceed tr) → R (amHalStatusSuccess, d') tr') :
    wp (Handler.tracing SetupOk) E (mspiSetUseQuadspi useQuadspi d) R tr := by
  rw [mspiSetUseQuadspi_eq]
  refine wp_check (setup_apply _ _) fun a₁ => ?_
  rw [stateT_modify_bind]
  refine wp_check (amHalMspiDeviceConfigure_apply _) fun a₂ => ?_
  refine wp_check (setup_apply _ _) fun a₃ => ?_
  refine h _ _ rfl rfl ?_
  rw [transfersSucceed_setup, transfersSucceed_setup, transfersSucceed_setup]

/-- A transfer may be answered in any way. -/
theorem wp_blockingTransfer {R : Answer × Driver → Trace → Prop}
    (h : ∀ t a, R (a, d) (tr ++ [(.blockingTransfer t, a)])) :
    wp (Handler.tracing SetupOk) E (amHalMspiBlockingTransfer d) R tr :=
  fun a _ => h _ a

/-- The read leaves a single lane exactly if its transfer succeeds. -/
theorem wp_readX4 {columnAddr : UInt16} {data : List UInt8} {dataLen : UInt32}
    (htr : TransfersSucceed tr) :
    wp (Handler.tracing SetupOk) E (nandCmdReadX4 columnAddr data dataLen d)
      (fun r tr' => r.2.OneLane ↔ TransfersSucceed tr') tr := by
  rw [nandCmdReadX4, setAsize, setTurnaround, stateT_modify_bind, stateT_modify_bind]
  apply wp_stateT_bind
  apply wp_setUseQuadspi
  intro d₁ tr₁ hreg₁ hset₁ htr₁
  rw [if_neg (not_ne_iff.mpr rfl), stateT_modify_bind]
  apply wp_stateT_bind
  apply wp_blockingTransfer
  intro t a
  dsimp only
  by_cases hok : a.status = amHalStatusSuccess
  · rw [if_neg (not_ne_iff.mpr hok)]
    apply wp_stateT_bind
    apply wp_setUseQuadspi
    intro d₂ tr₂ hreg₂ hset₂ htr₂
    have hall : TransfersSucceed tr₂ :=
      htr₂.mpr ((transfersSucceed_transfer _ _ _).mpr ⟨htr₁.mpr htr, hok⟩)
    exact ⟨fun _ => hall, fun _ => ⟨hreg₂, hset₂⟩⟩
  · -- the read returns with the register on four lanes
    rw [if_pos hok]
    have hquad : d₁.cfg.devcfg ≠ .flashSerialCe0 := by
      rw [hreg₁]
      exact nofun
    refine ⟨fun hone => absurd hone.1 hquad, fun hall => absurd ?_ hok⟩
    exact ((transfersSucceed_transfer _ _ _).mp hall).2

end ReadX4

/-! ## The queued read -/

section ReadQuadio

variable {E : Halt → QueueTrace → Prop} {d : Driver} {tr : QueueTrace}

/-- Whatever the flag shows, the loop ends and leaves the driver as it was. -/
theorem wp_readQuadioLoop {R : Unit × Driver → QueueTrace → Prop} (h : ∀ tr', R ((), d) tr')
    (left : Nat) :
    wp (Handler.tracing fun _ _ => True) E (nandCmdReadQuadioLoop left d) R tr := by
  induction left generalizing tr with
  | zero => exact h tr
  | succ left ih =>
    rw [nandCmdReadQuadioLoop_succ]
    refine wp_tracing_ask fun a _ => ?_
    by_cases hdone : a.bytes 0 ≠ 0
    · rw [if_pos hdone]
      exact h _
    · rw [if_neg hdone]
      exact wp_tracing_ask fun _ _ => ih

/-- The queued read always returns, and never leaves the bus as it found it. -/
theorem wp_readQuadio {columnAddr : UInt16} {data dataLen : UInt32} {pin : Ce0Pin} :
    wp (Handler.tracing fun _ _ => True) (fun _ _ => False)
      (nandCmdReadQuadio columnAddr data dataLen d)
      (fun r tr' => ¬ (r.2.OneLane ∧ (pin.after tr').Released)) tr := by
  rw [nandCmdReadQuadio_apply]
  refine wp_tracing_ask fun a₁ _ => wp_tracing_ask fun a₂ _ => wp_tracing_ask fun a₃ _ => ?_
  by_cases hok : a₃.status = amHalStatusSuccess
  · -- accepted: the last write to `CFG` is that of four lanes
    rw [if_neg (not_ne_iff.mpr hok), wp_bind]
    apply wp_readQuadioLoop
    intro tr' a₄ _ a₅ _ a₆ _
    have hquad : (d.queued (commandQueue columnAddr data dataLen)).cfg.devcfg = .flashQuadCe0 := rfl
    rintro ⟨⟨hreg, -⟩, -⟩
    exact AmHalMspiDevice.noConfusion (hquad.symm.trans hreg)
  · -- refused: the pin stays a GPIO
    rw [if_pos hok]
    rintro ⟨-, hpin⟩
    have hmspi := (Ce0Pin.released_iff _).mp hpin
    rw [Ce0Pin.after_append, Ce0Pin.after_append, Ce0Pin.after_append] at hmspi
    have hgpio : PinFuncSel.gpio = .mspi := hmspi
    exact PinFuncSel.noConfusion hgpio

end ReadQuadio

/-! ## Steps -/

namespace QueueStep

variable {σ : Type}

/-- The calls with which an x4 read sets the lanes succeed. -/
def SetupsSucceed (st : QueueStep σ) : Prop :=
  ∀ columnAddr data dataLen, st.op = .readX4 columnAddr data dataLen →
    ∀ s a, (QueueCall.hal (.setup s), a) ∈ st.trace → a.status = amHalStatusSuccess

/-- A quad read leaves the bus as it was, and all others send on a single lane. -/
def BusAsFound (pin : Ce0Pin) (st : QueueStep σ) : Prop :=
  match st.op with
  | .single _ => ∀ t a, (QueueCall.hal (.blockingTransfer t), a) ∈ st.trace →
      t.cfg.devcfg = .flashSerialCe0 ∧ t.pio.bQuadCmd = false
  | _ => ∀ r d', st.result = .ok (r, d') → d'.OneLane ∧ (pin.after (st.past ++ st.trace)).Released

/-- No queued read, and an x4 read whose transfer succeeds. -/
def KeepsLanes (st : QueueStep σ) : Prop :=
  match st.op with
  | .single _ => True
  | .readX4 _ _ _ => ∀ t a, (QueueCall.hal (.blockingTransfer t), a) ∈ st.trace →
      a.status = amHalStatusSuccess
  | .readQuadio _ _ _ => False

end QueueStep

section Steps

variable {σ α : Type} {env : QueueEnvironment σ} {fuel : Nat} {pin : Ce0Pin} {past : QueueTrace}
  {d : Driver} {s : σ}

/-- What a lifted program exchanges. -/
theorem mem_trace_hal {m : DriverM α} {c : Call} {a : Answer} :
    (QueueCall.hal c, a) ∈ (hal m d).trace env s ↔
      (c, a) ∈ (m d).trace (asked QueueCall.hal env) s := by
  rw [hal, trace_lift]
  simp

/-- One step of a public operation. -/
theorem step_single (op : Operation) (hd : d.OneLane) (hpin : (pin.after past).Released) :
    ((QueueOperation.single op).step env fuel past d s).BusAsFound pin ∧
      ∀ r d', ((QueueOperation.single op).step env fuel past d s).result = .ok (r, d') →
        d'.OneLane ∧ (pin.after
          (past ++ ((QueueOperation.single op).step env fuel past d s).trace)).Released := by
  obtain ⟨htrace, hend⟩ :=
    (respects_single fuel op d d ⟨rfl, hd⟩).self (asked QueueCall.hal env) s
  refine ⟨fun t a hmem => (htrace _ (mem_trace_hal.mp hmem)).2, fun r d' hres => ⟨?_, ?_⟩⟩
  · have hstep : ((hal (op.run fuel) d).eval env s).1 = .ok (r, d') := hres
    rw [hal, eval_lift] at hstep
    exact (hend (r, d') _ (Prod.ext hstep rfl)).2.2
  · rw [Ce0Pin.after_append]
    show ((pin.after past).after ((hal (op.run fuel) d).trace env s)).Released
    rw [hal, trace_lift]
    exact hpin.after_hal _

/-- One step of an x4 read. -/
theorem step_readX4 (columnAddr : UInt16) (data : List UInt8) (dataLen : UInt32)
    (hpin : (pin.after past).Released) {st : QueueStep σ}
    (hst : st = (QueueOperation.readX4 columnAddr data dataLen).step env fuel past d s)
    (hsetup : st.SetupsSucceed) : st.BusAsFound pin ↔ st.KeepsLanes := by
  subst hst
  let m : DriverM OpResult :=
    nandCmdReadX4 columnAddr data dataLen >>= fun r => pure ⟨r.1, r.2, none⟩
  have hwp : wp (Handler.tracing SetupOk) (fun _ _ => False) (m d)
      (fun r tr => r.2.OneLane ↔ TransfersSucceed tr) [] :=
    wp_stateT_bind (wp_mono (wp_readX4 fun t a h => absurd h List.not_mem_nil) fun r tr h => h)
  have hanswers : ∀ x ∈ (m d).trace (asked QueueCall.hal env) s, SetupOk x.1 x.2 := by
    rintro ⟨c, a⟩ hx
    cases c with
    | setup c => exact hsetup _ _ _ rfl c a (mem_trace_hal.mpr hx)
    | blockingTransfer t => trivial
    | void v => trivial
    | uninit => trivial
  have hpost := wp_tracing hwp hanswers
  have hresult : ((QueueOperation.readX4 columnAddr data dataLen).step env fuel past d s).result =
      ((m d).eval (asked QueueCall.hal env) s).1 :=
    congrArg Prod.fst (eval_lift QueueCall.hal env (m d) s)
  have htrace : ((QueueOperation.readX4 columnAddr data dataLen).step env fuel past d s).trace =
      ((m d).trace (asked QueueCall.hal env) s).map fun x => (QueueCall.hal x.1, x.2) :=
    trace_lift QueueCall.hal env (m d) s
  rcases hend : ((m d).eval (asked QueueCall.hal env) s).1 with e | ⟨r, d'⟩
  · rw [hend] at hpost
    exact hpost.elim
  · rw [hend] at hpost hresult
    constructor
    · intro hbus t a hmem
      exact hpost.mp (hbus r d' hresult).1 t a (mem_trace_hal.mp hmem)
    · intro hkeeps r' d'' hres
      obtain ⟨-, rfl⟩ := Prod.mk.inj (Except.ok.inj (hresult.symm.trans hres))
      refine ⟨hpost.mpr fun t a hmem => hkeeps t a (mem_trace_hal.mpr hmem), ?_⟩
      rw [Ce0Pin.after_append, htrace]
      exact hpin.after_hal _

/-- One step of a queued read. -/
theorem step_readQuadio (columnAddr : UInt16) (data dataLen : UInt32) :
    ¬ ((QueueOperation.readQuadio columnAddr data dataLen).step env fuel past d s).BusAsFound
      pin := by
  let m : QueueM OpResult := do
    return ⟨← nandCmdReadQuadio columnAddr data dataLen, [], none⟩
  have hwp : wp (Handler.tracing fun _ _ => True) (fun _ _ => False) (m d)
      (fun r tr => ¬ (r.2.OneLane ∧ (pin.after tr).Released)) past :=
    wp_stateT_bind (wp_mono wp_readQuadio fun r tr h => h)
  have hanswers : ∀ x ∈ (m d).trace env s, True := fun _ _ => trivial
  have hpost := wp_tracing hwp hanswers
  intro hbus
  rcases hend : ((m d).eval env s).1 with e | ⟨r, d'⟩
  · rw [hend] at hpost
    exact hpost
  · rw [hend] at hpost
    exact hpost (hbus r d' hend)

/-- One step from a single lane, with the pin on its MSPI function. -/
theorem step_busAsFound_iff (op : QueueOperation) (hd : d.OneLane)
    (hpin : (pin.after past).Released) (hsetup : (op.step env fuel past d s).SetupsSucceed) :
    ((op.step env fuel past d s).BusAsFound pin ↔ (op.step env fuel past d s).KeepsLanes) ∧
      ((op.step env fuel past d s).BusAsFound pin →
        ∀ r d', (op.step env fuel past d s).result = .ok (r, d') →
          d'.OneLane ∧ (pin.after (past ++ (op.step env fuel past d s).trace)).Released) := by
  cases op with
  | single op =>
    exact ⟨⟨fun _ => trivial, fun _ => (step_single op hd hpin).1⟩,
      fun _ => (step_single op hd hpin).2⟩
  | readX4 columnAddr data dataLen =>
    exact ⟨step_readX4 columnAddr data dataLen hpin rfl hsetup, fun hbus => hbus⟩
  | readQuadio columnAddr data dataLen =>
    exact ⟨⟨fun hbus => absurd hbus (step_readQuadio columnAddr data dataLen),
      fun hkeeps => hkeeps.elim⟩, fun hbus => absurd hbus (step_readQuadio columnAddr data dataLen)⟩

end Steps

/-! ## Runs -/

section Runs

variable {σ : Type}

/-- **The lanes after quad reads.** From a single lane, all steps of a run leave and use a single
lane exactly if the run has no queued read and every transfer of an x4 read succeeds. -/
theorem oneLane_iff (env : QueueEnvironment σ) (fuel : Nat) (ops : List QueueOperation)
    {pin : Ce0Pin} (hpin : pin.Released) {d : Driver} (hd : d.OneLane) (s : σ)
    (hsetup : ∀ st ∈ queueSteps env fuel ops [] d s, st.SetupsSucceed) :
    (∀ st ∈ queueSteps env fuel ops [] d s, st.BusAsFound pin) ↔
      ∀ st ∈ queueSteps env fuel ops [] d s, st.KeepsLanes := by
  let I : QueueTrace → Driver → Prop := fun past d => d.OneLane ∧ (pin.after past).Released
  have hI : I [] d := ⟨hd, hpin⟩
  constructor
  · intro hbus
    refine queueSteps_induction (I := I) (A := fun st => st.SetupsSucceed ∧ st.BusAsFound pin)
      ?_ hI
      fun st hst => ⟨hsetup st hst, hbus st hst⟩
    rintro op past d s ⟨hd, hpin⟩ ⟨hsetup, hbus⟩
    obtain ⟨hiff, hnext⟩ := step_busAsFound_iff op hd hpin hsetup
    exact ⟨hiff.mp hbus, hnext hbus⟩
  · intro hkeeps
    refine queueSteps_induction (I := I) (A := fun st => st.SetupsSucceed ∧ st.KeepsLanes)
      ?_ hI
      fun st hst => ⟨hsetup st hst, hkeeps st hst⟩
    rintro op past d s ⟨hd, hpin⟩ ⟨hsetup, hkeeps⟩
    obtain ⟨hiff, hnext⟩ := step_busAsFound_iff op hd hpin hsetup
    exact ⟨hiff.mpr hkeeps, hnext (hiff.mpr hkeeps)⟩

/-- All calls succeed, and bytes that are read are zero. -/
def quiet : QueueEnvironment Unit := fun _ _ => (.zero, ())

/-- The chip enable pin as it is set up. -/
def Ce0Pin.initial : Ce0Pin := ⟨.mspi, true⟩

theorem setupsSucceed_quiet {fuel : Nat} {ops : List QueueOperation} {d : Driver} {u : Unit} :
    ∀ st ∈ queueSteps quiet fuel ops [] d u, st.SetupsSucceed := by
  have hzero : ∀ {α : Type} (p : Prog QueueCall Answer Halt α) u, ∀ x ∈ p.trace quiet u,
      x.2 = .zero := by
    intro α p
    induction p with
    | done a => exact fun u x hx => absurd hx List.not_mem_nil
    | stop e => exact fun u x hx => absurd hx List.not_mem_nil
    | ask q k ih =>
      intro u x hx
      rcases List.mem_cons.mp hx with rfl | hx
      · rfl
      · exact ih _ _ x hx
  refine queueSteps_induction (I := fun _ _ => True) (A := fun _ => True) ?_ trivial
    fun _ _ => trivial
  refine fun op past d u _ _ => ⟨?_, fun _ _ _ => trivial⟩
  intro columnAddr data dataLen _ c a hmem
  have ha : a = .zero := hzero _ _ _ hmem
  rw [ha]
  rfl

/-- An erase after an x4 read. -/
theorem oneLane_iff_readX4_eraseBlock :
    (∀ st ∈ queueSteps quiet 0 [.readX4 0 [] 2048, .single (.eraseBlock 5)] [] .initial (),
        st.BusAsFound .initial) ↔
      ∀ st ∈ queueSteps quiet 0 [.readX4 0 [] 2048, .single (.eraseBlock 5)] [] .initial (),
        st.KeepsLanes :=
  oneLane_iff quiet 0 _ ((Ce0Pin.released_iff _).mpr rfl) ⟨rfl, rfl⟩ () setupsSucceed_quiet

/-- One queued read, every call of which succeeds, leaves the bus on four lanes. -/
theorem readQuadio_leaves_four_lanes :
    ¬ ∀ st ∈ queueSteps quiet 0 [.readQuadio 0 0x10000000 2048] [] .initial (),
      st.BusAsFound .initial :=
  fun h => step_readQuadio 0 0x10000000 2048 (h _ (step_mem_queueSteps _ _ _ _ _ _ _))

end Runs

end SpiNand
