import SpiNand.Bus.Answers

/-!
# The parameter page mode

`nand_read_params_page` switches the configuration register over, so that the page read after it
reads the parameter page, and writes the old value back at its end. It does not when the page
read fails: the chip is left in that mode, and every page read, program and erase of the
operations to come goes to another memory area.

* **`configChip`** is a device with the configuration register as its state.
* **`readParamsPage_restores_iff`** says when one call restores the register, and
  **`config_restored_iff`** what that means for a run.
-/

namespace SpiNand

open Interaction Interaction.Prog

/-! ## The register -/

/-- A chip that stores what SET_FEATURES writes to the configuration register and shows it to
GET_FEATURES. Every SET_FEATURES succeeds. -/
def configChip : Device UInt8 where
  view x c a := match c with
    | .getFeatures reg => if reg = featureRegConfig then ⟨a.status, fun _ => x⟩ else a
    | .setFeatures _ _ => ⟨amHalStatusSuccess, a.bytes⟩
    | _ => a
  next x c _ := match c with
    | .setFeatures reg value => if reg = featureRegConfig then value else x
    | _ => x
  view_getStatus _ _ := rfl
  next_getStatus _ _ := rfl
  status_view x c a hc := by
    cases c with
    | getFeatures reg =>
      dsimp only
      split <;> rfl
    | setFeatures reg value => exact absurd rfl (hc reg value)
    | _ => rfl

/-- Only SET_FEATURES changes the register. -/
theorem configChip_next {c : NandCmd} (hc : ∀ value, c ≠ .setFeatures featureRegConfig value)
    (x : UInt8) (a : Answer) : configChip.next x c a = x := by
  cases c with
  | setFeatures reg value =>
    have hreg : reg ≠ featureRegConfig := fun h => hc value (by rw [h])
    exact if_neg hreg
  | _ => rfl

/-- A page read leaves the register alone. -/
theorem readPage_keeps_config {x : UInt8} {answers : Answers} (pageAddr : UInt32)
    (offset : UInt16) (data : List UInt8) (len : UInt32) (eccFatal : Option Bool) :
    wpS configChip.handler (fun _ _ => False) (nandReadPage pageAddr offset data len eccFatal)
      (fun _ s => s.1 = x) (x, answers) := by
  apply wpS_readPage
  refine cmd_device ⟨fun _ => ?_, fun _ => rfl⟩
  refine Handler.polls_of_inv (fun _ s => s.1 = x) (fun n s hs => ?_) (fun s hs => hs) rfl
  obtain ⟨y, answers'⟩ := s
  apply cmd_device_status
  split
  · exact hs
  · split
    · exact hs
    · exact cmd_device hs

/-! ## One call -/

/-- When a call of `nand_read_params_page` leaves the register as it was: it stops before it
writes it, the register has the value to be written already, or the page read succeeds. -/
def RestoresConfig (x : UInt8) (len : UInt32) (answers : Answers) : Prop :=
  len < parameterPageSize ∨ (answers 0).status ≠ amHalStatusSuccess ∨ paramsConfig x = x ∨
    ∃ j, Reads (answers.after 2) j

theorem wpS_readParamsPage_restores (paramsPage : List UInt8) (len : UInt32) (x : UInt8)
    (answers : Answers) :
    wpS configChip.handler (fun _ _ => False) (nandReadParamsPage paramsPage len)
      (fun _ s => s.1 = x ↔ RestoresConfig x len answers) (x, answers) := by
  apply wpS_readParamsPage (fun hlen => iff_of_true rfl (.inl hlen))
  intro hlen
  apply cmd_device
  have hshown : configChip.view x (.getFeatures featureRegConfig) (answers 0) =
      ⟨(answers 0).status, fun _ => x⟩ := by
    show (if featureRegConfig = featureRegConfig then
      ⟨(answers 0).status, fun _ => x⟩ else answers 0 : Answer) = _
    rw [if_pos rfl]
  have hsame : configChip.next x (.getFeatures featureRegConfig)
      ⟨(answers 0).status, fun _ => x⟩ = x := configChip_next (by nofun) x _
  rw [hshown, hsame]
  by_cases hget : (answers 0).status = amHalStatusSuccess
  · rw [if_neg (not_ne_iff.mpr hget)]
    -- every SET_FEATURES succeeds
    refine cmd_device ⟨fun _ => ?_, fun hset => absurd rfl hset⟩
    -- the register is switched over; the rest depends on the page read
    have hread : wpS configChip.handler (fun _ _ => False)
        (nandReadPage parameterPagePageAddr parameterPageColumnAddr paramsPage len none)
        (fun read _ => read.ui32Status = amHalStatusSuccess ↔ ∃ j, Reads (answers.after 2) j)
        (paramsConfig x, answers.after 2) :=
      device_readPage (fun j _ hj _ _ => iff_of_true rfl ⟨j, hj⟩)
        fun hnone _ _ hst => iff_of_false hst (not_exists.mpr hnone)
    apply wpS_mono (wpS_and (readPage_keeps_config _ _ _ _ _) hread)
    rintro read ⟨y, answers'⟩ ⟨hy, hreads⟩
    obtain rfl : y = paramsConfig x := hy
    by_cases hst : read.ui32Status = amHalStatusSuccess
    · rw [if_neg (not_ne_iff.mpr hst)]
      exact cmd_device (iff_of_true rfl (.inr (.inr (.inr (hreads.mp hst)))))
    · rw [if_pos hst]
      have hnone : ¬ ∃ j, Reads (answers.after 2) j := fun h => hst (hreads.mpr h)
      have hrest : RestoresConfig x len answers ↔ paramsConfig x = x := by
        unfold RestoresConfig
        rw [or_iff_right hlen, or_iff_right (not_not.mpr hget), or_iff_left hnone]
      exact hrest.symm
  · rw [if_pos hget]
    exact iff_of_true rfl (.inr (.inl hget))

/-- One call returns, and it restores the register or not as `RestoresConfig` says. -/
theorem readParamsPage_restores_iff (fuel : Nat) (paramsPage : List UInt8) (len : UInt32)
    (d : Driver) (x : UInt8) (answers : Answers) (stack : Nat → Answer) :
    let st := (Operation.readParamsPage paramsPage len).step configChip.env fuel d
      ((x, answers), stack)
    (∃ r, st.result = .ok r) ∧ (st.after.1 = x ↔ RestoresConfig x len answers) := by
  have hwp : wpS configChip.handler (fun _ _ => False)
      ((Operation.readParamsPage paramsPage len).run fuel)
      (fun _ s => s.1 = x ↔ RestoresConfig x len answers) (x, answers) :=
    wpS_map (wpS_readParamsPage_restores paramsPage len x answers)
  obtain ⟨r, hres, hrest⟩ := step_returns _ hwp d stack
  exact ⟨⟨r, hres⟩, hrest⟩

/-! ## The other operations

None of them writes the configuration register: they are verified against a watcher that keeps
the register's value and forbids SET_FEATURES of it. -/

/-- The register, as the commands say. -/
def configMonitor : CmdMonitor UInt8 where
  step x c a := match c with
    | .setFeatures reg value =>
      if reg = featureRegConfig ∧ a.status = amHalStatusSuccess then value else x
    | _ => x
  allows _ c := ∀ value, c ≠ .setFeatures featureRegConfig value

/-- The register after a history that starts with `x` in it. -/
def configAfter (x : UInt8) (tr : Trace) : UInt8 := configMonitor.toMonitor.run x tr

theorem configAfter_append (x : UInt8) (tr tr' : Trace) :
    configAfter x (tr ++ tr') = configAfter (configAfter x tr) tr' :=
  configMonitor.toMonitor.run_append x tr tr'

/-- An exchange that is allowed does not change it. -/
theorem configMonitor_step {x : UInt8} {q : Call} (h : configMonitor.toMonitor.allows x q)
    (a : Answer) : configMonitor.toMonitor.step x q a = x := by
  cases q with
  | blockingTransfer t =>
    obtain ⟨c, hc, hallow⟩ := h
    have hstep : configMonitor.toMonitor.step x (.blockingTransfer t) a =
        configMonitor.step x c a := by simp only [CmdMonitor.toMonitor, Call.cmd, hc]
    rw [hstep]
    cases c with
    | setFeatures reg value =>
      have hreg : reg ≠ featureRegConfig := fun h => hallow value (by rw [h])
      exact if_neg fun h => hreg h.1
    | _ => rfl
  | _ => rfl

theorem configAfter_of_accepts {x : UInt8} {tr : Trace} (h : configMonitor.toMonitor.Accepts x tr) :
    configAfter x tr = x := by
  induction tr with
  | nil => rfl
  | cons e tr ih =>
    obtain ⟨hallow, htail⟩ := (configMonitor.toMonitor.accepts_cons x e tr).mp h
    have hstep := configMonitor_step hallow e.2
    rw [hstep] at htail
    have hcons : configAfter x (e :: tr) =
        configAfter (configMonitor.toMonitor.step x e.1 e.2) tr := rfl
    rw [hcons, hstep]
    exact ih htail

section Operations

variable {E : Halt → UInt8 → Prop}

abbrev configHandler : Handler UInt8 Call Answer := configMonitor.toMonitor.handler

/-- Any command but a SET_FEATURES of the register. -/
theorem config_cmd {c : NandCmd} {φ : Answer → UInt8 → Prop} {x : UInt8}
    (hc : ∀ value, c ≠ .setFeatures featureRegConfig value) (h : ∀ a x', φ a x') :
    Handler.cmd configHandler c φ x :=
  configMonitor.cmd_monitor hc fun a => h a _

theorem config_sent {c : NandCmd} {K : UInt8 → Prop} {x : UInt8}
    (hc : ∀ value, c ≠ .setFeatures featureRegConfig value) (h : ∀ x', K x') :
    Handler.cmd configHandler c (Sent (fun _ _ => True) K) x :=
  config_cmd hc fun _ x' => ⟨fun _ => h x', fun _ => trivial⟩

/-- A wait may end anywhere. -/
theorem config_polled {K : UInt8 → UInt8 → Prop} (h : ∀ statusReg x, K statusReg x) :
    configMonitor.Polled (fun _ => True) (fun _ _ => True) K where
  allowed _ _ := by nofun
  failed _ _ _ _ := trivial
  busy _ _ _ _ := trivial
  ready _ _ _ _ := h _ _

theorem config_polls {n : Nat} {K : UInt8 → UInt8 → Prop} {x : UInt8}
    (h : ∀ statusReg x', K statusReg x') :
    Handler.polls configHandler n (Waited (fun _ _ => True) K) x :=
  (config_polled h).polls (fun _ _ => trivial) trivial n

theorem config_readPage (pageAddr : UInt32) (offset : UInt16) (data : List UInt8) (len : UInt32)
    (eccFatal : Option Bool) (x : UInt8) :
    wpS configHandler E (nandReadPage pageAddr offset data len eccFatal) (fun _ _ => True) x := by
  apply wpS_readPage
  apply config_sent (by nofun)
  intro _
  apply config_polls
  intro _ _
  exact config_cmd (by nofun) fun _ _ => trivial

/-- What ends a copy and the marking of a block. -/
theorem config_writeBack {row column n : Nat} {data : List UInt8} (x : UInt8) :
    Handler.cmd configHandler .writeEnable (Sent (fun _ _ => True) <|
      Handler.cmd configHandler (.programLoadRandom column data) <| Sent (fun _ _ => True) <|
      Handler.cmd configHandler (.programExecute row) <| Sent (fun _ _ => True) <|
      Handler.polls configHandler n <| Waited (fun _ _ => True) fun _ _ => True) x := by
  apply config_sent (by nofun)
  intro _
  apply config_sent (by nofun)
  intro _
  exact config_sent (by nofun) fun _ => config_polls fun _ _ => trivial

theorem config_checkBadBlock (blockAddr : UInt32) (isBad : Bool) (x : UInt8) :
    wpS configHandler E (nandCheckBadBlock blockAddr isBad) (fun _ _ => True) x :=
  wpS_checkBadBlock fun _ _ => config_readPage _ _ _ _ _ x

/-- Every operation but the one that reads the parameter page. -/
theorem config_operation (fuel : Nat) (op : Operation)
    (hop : ∀ paramsPage len, op ≠ .readParamsPage paramsPage len) (x : UInt8) :
    wpS configHandler (fun _ _ => True) (op.run fuel) (fun _ _ => True) x := by
  cases op with
  | readParamsPage paramsPage len => exact absurd rfl (hop paramsPage len)
  | init =>
    -- the one register it writes is that of the block locks
    have hlock : featureRegBlockLock ≠ featureRegConfig := by decide
    apply wpS_map
    apply wpS_init (fun _ => trivial)
    apply config_cmd (by nofun)
    intro _ x'
    refine ⟨fun _ => trivial, config_cmd (fun value h => hlock ?_) fun _ _ _ => trivial⟩
    exact (NandCmd.setFeatures.inj h).1
  | id => exact wpS_map (wpS_id (config_cmd (by nofun) fun _ _ _ => trivial))
  | reset => exact wpS_map (wpS_reset (config_cmd (by nofun) fun _ _ _ => trivial))
  | checkBadBlock blockAddr isBad => exact wpS_map (config_checkBadBlock blockAddr isBad x)
  | markBadBlock blockAddr =>
    apply wpS_map
    apply wpS_markBadBlock
    apply config_sent (by nofun)
    intro x'
    exact (config_polled fun _ => config_writeBack).spins trivial fuel
  | eraseBlock blockAddr =>
    apply wpS_map
    apply wpS_eraseBlock
    apply config_sent (by nofun)
    intro _
    exact config_sent (by nofun) fun _ => config_polls fun _ _ => trivial
  | progPage pageAddr data =>
    apply wpS_map
    apply wpS_progPage
    apply config_sent (by nofun)
    intro _
    apply config_sent (by nofun)
    intro _
    apply config_sent (by nofun)
    intro _
    exact config_sent (by nofun) fun _ => config_polls fun _ _ => trivial
  | isFree pageAddr isFree =>
    exact wpS_map (wpS_isFree fun _ _ => config_readPage _ _ _ _ _ x)
  | readPage pageAddr offset data len eccFatal =>
    exact wpS_map (config_readPage pageAddr offset data len eccFatal x)
  | copyPage src dest eccFatal =>
    apply wpS_map
    apply wpS_copyPage
    apply config_sent (by nofun)
    intro _
    apply config_polls
    intro statusReg x'
    split
    · trivial
    · exact config_writeBack x'
  | printBadBlocks =>
    refine wpS_map (wpS_printBadBlocks (fun _ _ => True) (fun _ i isBad x' _ => ?_)
      (fun _ _ _ => trivial) trivial)
    apply wpS_mono (config_checkBadBlock i isBad x')
    intro r _ _
    split <;> trivial

end Operations

/-! ## Runs -/

/-- The register of the device is what the commands say. -/
theorem env_config (x : UInt8) (s : UInt8 × Answers) (q : Call) (h : x = s.1) :
    configMonitor.toMonitor.step x q (configChip.env s q).1 = (configChip.env s q).2.1 := by
  obtain ⟨y, answers⟩ := s
  obtain rfl : x = y := h
  cases q with
  | blockingTransfer t =>
    cases hc : t.decode with
    | none => simp only [Device.env, hc, CmdMonitor.toMonitor, Call.cmd]
    | some c =>
      simp only [Device.env, hc, CmdMonitor.toMonitor, Call.cmd]
      cases c with
      | setFeatures reg value =>
        -- the SET_FEATURES was answered with success
        exact if_congr (and_iff_left rfl) rfl rfl
      | _ => rfl
  | _ => rfl

theorem after_config (fuel : Nat) (op : Operation) (d : Driver) (x : UInt8) (answers : Answers)
    (stack : Nat → Answer) :
    (op.step configChip.env fuel d ((x, answers), stack)).after.1 =
      configAfter x (op.step configChip.env fuel d ((x, answers), stack)).trace :=
  (step_relates (M := configMonitor) (J := fun x (s : UInt8 × Answers) => x = s.1)
    (fun x s q h => env_config x s q h) fuel op d rfl).symm

/-- At every point of another operation the register is as it was when the operation started. -/
theorem config_constant {fuel : Nat} {op : Operation}
    (hop : ∀ paramsPage len, op ≠ .readParamsPage paramsPage len) {σ : Type}
    (env : Environment σ) (d : Driver) (s : σ × (Nat → Answer)) (x : UInt8) {tr rest : Trace}
    (htrace : (op.step env fuel d s).trace = tr ++ rest) : configAfter x tr = x := by
  obtain ⟨hacc, -⟩ := step_of_monitor (config_operation fuel op hop x) env d s
  rw [htrace] at hacc
  exact configAfter_of_accepts (configMonitor.toMonitor.accepts_of_append hacc)

/-- **The parameter page mode.** A call of `nand_read_params_page` restores the configuration
register exactly where `RestoresConfig` says. So in a run in which every such call does, the
register has its first value before and after every operation, and whenever any other operation
sends anything. -/
theorem config_restored_iff (fuel : Nat) :
    (∀ (paramsPage : List UInt8) (len : UInt32) (d : Driver) (x : UInt8) (answers : Answers)
      (stack : Nat → Answer),
      let st := (Operation.readParamsPage paramsPage len).step configChip.env fuel d
        ((x, answers), stack)
      (∃ r, st.result = .ok r) ∧ (st.after.1 = x ↔ RestoresConfig x len answers)) ∧
    (∀ (ops : List Operation) (d : Driver) (x : UInt8) (answers : Answers)
      (stack : Nat → Answer),
      (∀ st ∈ steps configChip.env fuel ops d ((x, answers), stack), ∀ paramsPage len,
        st.op = .readParamsPage paramsPage len → RestoresConfig st.before.1 len st.before.2) →
      ∀ pre st suf, steps configChip.env fuel ops d ((x, answers), stack) = pre ++ st :: suf →
        st.before.1 = x ∧ st.after.1 = x ∧
        ((∀ paramsPage len, st.op ≠ .readParamsPage paramsPage len) →
          ∀ tr rest, st.trace = tr ++ rest → configAfter x (sent pre ++ tr) = x)) := by
  refine ⟨readParamsPage_restores_iff fuel, ?_⟩
  intro ops d x answers stack hrestores pre st suf heq
  refine steps_induction_of
    (fun st => ∀ paramsPage len, st.op = .readParamsPage paramsPage len →
      RestoresConfig st.before.1 len st.before.2)
    (fun tr (s : UInt8 × Answers) => s.1 = x ∧ configAfter x tr = x)
    (fun tr st => st.before.1 = x ∧ st.after.1 = x ∧
      ((∀ paramsPage len, st.op ≠ .readParamsPage paramsPage len) →
        ∀ tr' rest, st.trace = tr' ++ rest → configAfter x (tr ++ tr') = x))
    ?_ ⟨rfl, rfl⟩ hrestores heq
  rintro op d ⟨⟨y, answers'⟩, stack'⟩ tr ⟨hy, htr⟩ hop
  obtain rfl : y = x := hy
  have hafter : (op.step configChip.env fuel d ((y, answers'), stack')).after.1 = y := by
    by_cases hparams : ∃ paramsPage len, op = .readParamsPage paramsPage len
    · obtain ⟨paramsPage, len, rfl⟩ := hparams
      exact (readParamsPage_restores_iff fuel paramsPage len d y answers' stack').2.mpr
        (hop paramsPage len rfl)
    · rw [after_config]
      refine config_constant (fun paramsPage len h => hparams ⟨paramsPage, len, h⟩) _ _ _ y
        (List.append_nil _).symm
  refine ⟨⟨rfl, hafter, fun hother tr' rest htrace => ?_⟩, fun r _ => ⟨hafter, ?_⟩⟩
  · rw [configAfter_append, htr]
    exact config_constant hother _ _ _ y htrace
  · rw [configAfter_append, htr, ← after_config]
    exact hafter

/-- The parameter page is read without a failure: the register is zero before and after. -/
theorem config_restored_zero :
    ∀ st ∈ steps configChip.env 0 [.readParamsPage (List.replicate 256 0) 256] Driver.initial
      ((0, fun _ => .zero), fun _ => .zero), st.before.1 = 0 ∧ st.after.1 = 0 := by
  have hrestores : ∀ st ∈ steps configChip.env 0 [.readParamsPage (List.replicate 256 0) 256]
      Driver.initial ((0, fun _ => .zero), fun _ => .zero), ∀ paramsPage len,
      st.op = .readParamsPage paramsPage len → RestoresConfig st.before.1 len st.before.2 := by
    intro st hst paramsPage len _
    rw [steps, List.mem_cons] at hst
    rcases hst with rfl | hst
    · exact .inr (.inr (.inr ⟨0, reads_zero⟩))
    · -- no operation follows
      split at hst
      · exact absurd hst List.not_mem_nil
      · exact absurd hst List.not_mem_nil
  intro st hst
  obtain ⟨pre, suf, heq⟩ := List.append_of_mem hst
  have hrun := (config_restored_iff 0).2 _ Driver.initial 0 (fun _ => .zero) (fun _ => .zero)
    hrestores pre st suf heq
  exact ⟨hrun.1, hrun.2.1⟩

/-- The PAGE_READ of the parameter page fails. -/
def failedRead : Answers := fun n => if n = 2 then ⟨1, fun _ => 0⟩ else .zero

/-- The register was zero, and the chip is left in the parameter page mode. -/
theorem config_not_restored :
    ((Operation.readParamsPage (List.replicate 256 0) 256).step configChip.env 0 Driver.initial
      ((0, failedRead), fun _ => .zero)).after.1 ≠ 0 := by
  have hafter : ((Operation.readParamsPage (List.replicate 256 0) 256).step configChip.env 0
      Driver.initial ((0, failedRead), fun _ => .zero)).after.1 =
      featureRegConfigCfgValueReadParams := rfl
  rw [hafter]
  decide

end SpiNand
