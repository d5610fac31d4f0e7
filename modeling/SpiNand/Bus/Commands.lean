import SpiNand.Bus.Lockstep

/-!
# The commands on the bus

Every command of every operation, the initialisation included, is one of `Operation.sends`,
whatever the HAL and the chip answer (`step_sends`). What such commands cannot do to an
environment, no operation can: `step_keeps` is the rule.
-/

namespace SpiNand

open Interaction Interaction.Prog

variable {σ α : Type}

/-! ## Inventories -/

/-- Two equal calls, the commands of which are `allowed`. -/
def SameCommand (allowed : NandCmd → Prop) (q q' : Call) : Prop :=
  q = q' ∧ ∀ c, q.cmd = some c → allowed c

section Decoded

variable {S : Call → Call → Prop} {allowed : NandCmd → Prop}

/-- A helper that is one transfer of an allowed command. -/
theorem respects_command
    (hS : ∀ t c, t.decode = some c → allowed c → S (.blockingTransfer t) (.blockingTransfer t))
    {m : DriverM α} {t : Driver → Transfer} {f : Answer → α} {next : Driver → Driver} {c : NandCmd}
    (hm : ∀ d, m d = .ask (.blockingTransfer (t d)) fun a => .done (f a, next d)) (hc : allowed c)
    (hdecode : ∀ d, (t d).decode = some c) : Respects Eq S m := by
  apply respects_transfer hm
  · rintro d d' rfl
    exact hS (t d) c (hdecode d) hc
  · rintro d d' rfl
    rfl

/-- What holds of the transfers of allowed commands, and of the calls without a command, holds of
every helper. -/
theorem helpersRespect_of_decode (hvoid : ∀ v, S (.void v) (.void v)) (huninit : S .uninit .uninit)
    (hS : ∀ t c, t.decode = some c → allowed c → S (.blockingTransfer t) (.blockingTransfer t)) :
    HelpersRespect Eq S allowed where
  void := hvoid
  uninit := huninit
  getFeatures reg hc :=
    respects_command hS (nandCmdGetFeatures_apply reg) hc (decode_getFeatures · reg)
  setFeatures reg value hc :=
    respects_command hS (nandCmdSetFeatures_apply reg value) hc (decode_setFeatures · reg value)
  reset hc := respects_command hS (amDeviceCommandWrite_apply cmdReset false 0 [] 0) hc decode_reset
  readId buffer hc :=
    respects_command hS (amDeviceCommandRead_apply cmdReadId false 0 buffer 3) hc
      (decode_readId · buffer)
  writeEnable hc := respects_command hS nandCmdWriteEnable_apply hc decode_writeEnable
  pageRead pageAddr hc :=
    respects_command hS (nandCmdPageRead_apply pageAddr) hc (decode_pageRead · pageAddr)
  readX1 column data len hc :=
    respects_command hS (nandCmdReadX1_apply column data len) hc
      (decode_readCache · column data len)
  programLoad column data len hlen hc := by
    refine respects_command hS (nandCmdProgramLoadX1_apply column data len) hc fun d => ?_
    rw [decode_programLoad d.noTurnaround column data len, ← hlen, List.take_length]
  programLoadRandom column data len hlen hc := by
    refine respects_command hS (nandCmdProgramLoadRandomX1_apply column data len) hc fun d => ?_
    rw [decode_programLoadRandom d.noTurnaround column data len, ← hlen, List.take_length]
  programExecute pageAddr hc :=
    respects_command hS (nandCmdProgramExecute_apply pageAddr) hc (decode_programExecute · pageAddr)
  blockErase pageAddr hc :=
    respects_command hS (nandCmdBlockErase_apply pageAddr) hc (decode_blockErase · pageAddr)

end Decoded

theorem helpersRespect_commands (allowed : NandCmd → Prop) :
    HelpersRespect Eq (SameCommand allowed) allowed := by
  apply helpersRespect_of_decode
  · exact fun v => ⟨rfl, fun _ h => nomatch h⟩
  · exact ⟨rfl, fun _ h => nomatch h⟩
  · intro t c ht hc
    refine ⟨rfl, fun c' hc' => ?_⟩
    obtain rfl := Option.some.inj (ht.symm.trans hc')
    exact hc

/-- What an operation other than the initialisation asks: its commands, and nothing that sets the
controller up. -/
def Operation.asks (op : Operation) : Call → Prop
  | .blockingTransfer t => ∃ c, t.decode = some c ∧ op.sends rowOf blockRow c
  | .setup _ => False
  | .void _ | .uninit => True

theorem step_asks (env : Environment σ) (fuel : Nat) {op : Operation} (hop : op ≠ .init)
    (d : Driver) (s : σ × (Nat → Answer)) : ∀ x ∈ (op.step env fuel d s).trace, op.asks x.1 := by
  have hhelpers : HelpersRespect Eq (fun q q' => q = q' ∧ op.asks q) (op.sends rowOf blockRow) := by
    apply helpersRespect_of_decode
    · exact fun v => ⟨rfl, trivial⟩
    · exact ⟨rfl, trivial⟩
    · exact fun t c ht hc => ⟨rfl, c, ht, hc⟩
  have hself := respects_operation hhelpers fuel op hop (fun _ h => h) d d rfl
  intro x hx
  exact ((hself.self (withStack env) s).1 x hx).2

/-- A watcher that allows the commands of one operation. -/
def inventoryMonitor (op : Operation) : CmdMonitor Unit where
  step _ _ _ := ()
  allows _ c := op.sends rowOf blockRow c

/-- The initialisation is the one operation that does not end as it began. -/
theorem inventory_init (fuel : Nat) :
    wpS (inventoryMonitor .init).toMonitor.handler (fun _ _ => True) (Operation.init.run fuel)
      (fun _ _ => True) () := by
  apply wpS_map
  apply wpS_init (fun _ => trivial)
  apply CmdMonitor.cmd_monitor _ (show Operation.init.sends rowOf blockRow _ from .inl rfl)
  intro a
  refine ⟨fun _ => trivial, ?_⟩
  apply CmdMonitor.cmd_monitor _ (show Operation.init.sends rowOf blockRow _ from .inr rfl)
  intro a' st
  trivial

/-- **Every command of an operation is in its inventory.** -/
theorem step_sends (env : Environment σ) (fuel : Nat) (op : Operation) (d : Driver)
    (s : σ × (Nat → Answer)) :
    ∀ x ∈ (op.step env fuel d s).trace, ∀ c, x.1.cmd = some c → op.sends rowOf blockRow c := by
  intro x hx c hc
  by_cases hinit : op = .init
  · subst hinit
    obtain ⟨pre, suf, heq⟩ := List.append_of_mem hx
    have hacc := (step_of_monitor (inventory_init fuel) env d s).1
    exact (CmdMonitor.accepts_at _ hacc heq).2 c hc
  · have hself := respects_operation (helpersRespect_commands (op.sends rowOf blockRow)) fuel op
      hinit (fun _ h => h) d d rfl
    exact ((hself.self (withStack env) s).1 x hx).2 c hc

/-! ## What an operation cannot do -/

/-- What no call with one of an operation's commands ends, and no call without a command, the
operation does not end. -/
theorem step_keeps {env : Environment σ} {J : σ → Prop} (fuel : Nat) (op : Operation) (d : Driver)
    {s : σ × (Nat → Answer)}
    (hcall : ∀ s q, (∀ c, q.cmd = some c → op.sends rowOf blockRow c) → J s → J (env s q).2)
    (h : J s.1) : J (op.step env fuel d s).after := by
  refine eval_invariant (P := fun q => ∀ c, Call.cmd q = some c → op.sends rowOf blockRow c)
    (J := fun s => J s.1) ?_ (op.run fuel d) h (step_sends env fuel op d s)
  intro s q hq hs
  -- the stack is not part of the environment
  cases q with
  | uninit => exact hs
  | blockingTransfer t => exact hcall s.1 _ hq hs
  | setup c => exact hcall s.1 _ hq hs
  | void v => exact hcall s.1 _ hq hs

end SpiNand
