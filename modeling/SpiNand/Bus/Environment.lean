import SpiNand.Bus.Operations

/-!
# Environments and monitors

* **`withStack env`** answers calls from `env` and uninitialised variables from a stream of its
  own. What is verified for `Handler.stacked env` holds for every such stream
  (`returns_withStack`).
* **`CmdMonitor`** watches the commands on the bus. Its handler admits every answer; what is
  verified against it holds in every environment (`Monitor.sound`). `CmdMonitor.Polled` is its
  rule for status reads.
-/

namespace SpiNand

open Interaction Interaction.Prog

variable {σ μ α : Type}

/-- Whoever answers the driver's calls. -/
abbrev Environment (σ : Type) := σ → Call → Answer × σ

/-- Success, and bytes that are zero: as a status byte, a chip that is ready. -/
def Answer.zero : Answer := ⟨amHalStatusSuccess, fun _ => 0⟩

/-- A successful status read of a chip that is busy. -/
def Answer.ShowsBusy (a : Answer) : Prop := a.status = amHalStatusSuccess ∧ oip (a.bytes 0) = true

/-- A successful status read of a chip that is ready. -/
def Answer.ShowsReady (a : Answer) : Prop :=
  a.status = amHalStatusSuccess ∧ oip (a.bytes 0) = false

theorem Answer.ShowsBusy.not_showsReady {a : Answer} (h : a.ShowsBusy) : ¬ a.ShowsReady :=
  fun hready => Bool.noConfusion (h.2.symm.trans hready.2)

/-- The simplest environment. -/
def alwaysReady : Environment Unit := fun _ _ => (.zero, ())

/-! ## The stack -/

/-- The environment `env`, with uninitialised variables answered from a stream. -/
def withStack (env : Environment σ) : Environment (σ × (Nat → Answer))
  | (s, stack), .uninit => (stack 0, (s, fun n => stack (n + 1)))
  | (s, stack), c => ((env s c).1, ((env s c).2, stack))

/-- `env` with anything at all on the stack. -/
def Handler.stacked (env : Environment σ) : Handler σ Call Answer where
  pre s c φ :=
    match c with
    | .uninit => ∀ a, φ a s
    | c => φ (env s c).1 (env s c).2
  mono {s c φ ψ} h hφ := by
    cases c with
    | uninit => exact fun a => h a s (hφ a)
    | blockingTransfer t => exact h _ _ hφ
    | setup c => exact h _ _ hφ
    | void v => exact h _ _ hφ

instance (env : Environment σ) : Handler.IgnoresStack (Handler.stacked env) where
  uninit h := h

instance (env : Environment σ) : Handler.Conjunctive (Handler.stacked env) where
  and {s c φ ψ} h h' := by
    cases c with
    | uninit => exact fun a => ⟨h a, h' a⟩
    | blockingTransfer t => exact ⟨h, h'⟩
    | setup c => exact ⟨h, h'⟩
    | void v => exact ⟨h, h'⟩

/-- What is verified with anything on the stack holds for every content of it. -/
theorem wp_withStack {env : Environment σ} {E : Halt → σ → Prop} {p : Prog Call Answer Halt α}
    {R : α → σ → Prop} {s : σ} (h : p.wp (Handler.stacked env) E R s) (stack : Nat → Answer) :
    p.wp (Handler.env (withStack env)) (fun e s' => E e s'.1) (fun a s' => R a s'.1)
      (s, stack) := by
  induction p generalizing s stack with
  | done a => exact h
  | stop e => exact h
  | ask c k ih =>
    cases c with
    | uninit => exact ih _ (h _) _
    | blockingTransfer t => exact ih _ h _
    | setup c => exact ih _ h _
    | void v => exact ih _ h _

/-- A verified function that never stops returns, and its result is as verified. -/
theorem returns_withStack {env : Environment σ} {m : DriverM α} {R : α → σ → Prop} {s : σ}
    (h : wpS (Handler.stacked env) (fun _ _ => False) m R s) (d : Driver) (stack : Nat → Answer) :
    ∃ a d' s' stack', (m d).eval (withStack env) (s, stack) = (.ok (a, d'), (s', stack')) ∧
      R a s' := by
  obtain ⟨⟨a, d'⟩, ⟨s', stack'⟩, heval, hR⟩ := eval_of_wp (wp_withStack (h d) stack)
  exact ⟨a, d', s', stack', heval, hR⟩

/-! ## Exchanges on the bus -/

/-- The command a call carries. -/
def Call.cmd : Call → Option NandCmd
  | .blockingTransfer t => t.decode
  | _ => none

namespace Exchange

/-- A transfer carries a command of the flash. -/
def WellFormed (x : Exchange) : Prop :=
  ∀ t, x.1 = .blockingTransfer t → ∃ c, t.decode = some c

/-- The exchange carries a command with `p`. -/
def Issues (p : NandCmd → Prop) (x : Exchange) : Prop := ∃ c, x.1.cmd = some c ∧ p c

/-- The exchange carries a command with `p`, and the HAL reported success. -/
def Sends (p : NandCmd → Prop) (x : Exchange) : Prop :=
  x.Issues p ∧ x.2.status = amHalStatusSuccess

/-- The exchange is a successful status read that shows the chip ready. -/
def ShowsReady (x : Exchange) : Prop :=
  x.Sends (· = .getFeatures featureRegStatus) ∧ oip (x.2.bytes 0) = false

theorem issues_iff {x : Exchange} {c : NandCmd} (h : x.1.cmd = some c) (p : NandCmd → Prop) :
    x.Issues p ↔ p c := by
  simp [Issues, h]

theorem not_issues {x : Exchange} (h : x.1.cmd = none) (p : NandCmd → Prop) : ¬ x.Issues p := by
  simp [Issues, h]

theorem sends_iff {x : Exchange} {c : NandCmd} (h : x.1.cmd = some c) (p : NandCmd → Prop) :
    x.Sends p ↔ p c ∧ x.2.status = amHalStatusSuccess := by
  rw [Sends, issues_iff h]

end Exchange

/-! ## Command monitors -/

/-- A watcher of the commands: how its state moves with each, and which it allows. -/
structure CmdMonitor (μ : Type) where
  step : μ → NandCmd → Answer → μ
  allows : μ → NandCmd → Prop

namespace CmdMonitor

variable (M : CmdMonitor μ)

/-- The monitor of calls: a transfer must carry an allowed command, other calls do not matter. -/
def toMonitor : Monitor μ Call Answer where
  step m c a := match c.cmd with
    | some cmd => M.step m cmd a
    | none => m
  allows m c := match c with
    | .blockingTransfer t => ∃ cmd, t.decode = some cmd ∧ M.allows m cmd
    | _ => True

instance : Handler.TransfersOnly M.toMonitor.handler where
  uninit h := ⟨trivial, h⟩
  void h := ⟨trivial, h⟩
  setup h := ⟨trivial, h⟩

theorem cmd_monitor {c : NandCmd} {φ : Answer → μ → Prop} {m : μ} (hc : M.allows m c)
    (h : ∀ a, φ a (M.step m c a)) : Handler.cmd M.toMonitor.handler c φ m := by
  intro t ht
  refine ⟨⟨c, ht, hc⟩, fun a => ?_⟩
  have hstep : M.toMonitor.step m (.blockingTransfer t) a = M.step m c a := by
    simp only [toMonitor, Call.cmd, ht]
  rw [hstep]
  exact h a

/-- What a list of exchanges that keeps to a monitor says of one of them. -/
theorem accepts_at {m : μ} {tr pre suf : Trace} {x : Exchange} (h : M.toMonitor.Accepts m tr)
    (heq : tr = pre ++ x :: suf) :
    x.WellFormed ∧ ∀ c, x.1.cmd = some c → M.allows (M.toMonitor.run m pre) c := by
  have hallow := h pre x suf heq
  obtain ⟨call, a⟩ := x
  cases call with
  | blockingTransfer t =>
    obtain ⟨c, hdecode, hc⟩ := hallow
    refine ⟨fun t' ht' => ⟨c, by cases ht'; exact hdecode⟩, fun c' hc' => ?_⟩
    -- a transfer carries one command
    obtain rfl := Option.some.inj (hdecode.symm.trans hc')
    exact hc
  | setup c => exact ⟨fun _ h => (nomatch h), fun _ h => (nomatch h)⟩
  | void v => exact ⟨fun _ h => (nomatch h), fun _ h => (nomatch h)⟩
  | uninit => exact ⟨fun _ h => (nomatch h), fun _ h => (nomatch h)⟩

theorem void_monitor {v : Void} {φ : Answer → μ → Prop} {m : μ} (h : ∀ a, φ a m) :
    M.toMonitor.handler.pre m (.void v) φ := ⟨trivial, h⟩

/-- What the status reads of a wait do to a watcher: each one is allowed, and leads to `R` where it
fails, keeps `J` where it shows the chip busy, and leads to `K` where it shows the chip ready. -/
structure Polled (J : μ → Prop) (R : Status → μ → Prop) (K : UInt8 → μ → Prop) : Prop where
  allowed : ∀ m, J m → M.allows m (.getFeatures featureRegStatus)
  failed : ∀ m a, J m → a.status ≠ amHalStatusSuccess →
    R a.status (M.step m (.getFeatures featureRegStatus) a)
  busy : ∀ m a, J m → a.ShowsBusy → J (M.step m (.getFeatures featureRegStatus) a)
  ready : ∀ m a, J m → a.ShowsReady →
    K (a.bytes 0) (M.step m (.getFeatures featureRegStatus) a)

variable {M} {J : μ → Prop} {R : Status → μ → Prop} {m : μ}

/-- A wait with a bound. -/
theorem Polled.polls {K : UInt8 → μ → Prop} (h : M.Polled J R K)
    (htimeout : ∀ m, J m → R amHalStatusTimeout m) (hm : J m) (n : Nat) :
    Handler.polls M.toMonitor.handler n (Waited R K) m := by
  refine Handler.polls_of_inv (fun _ m => J m) (fun left m hm => ?_) htimeout hm
  apply M.cmd_monitor (h.allowed m hm)
  intro a
  by_cases hok : a.status = amHalStatusSuccess
  · rw [dif_neg (not_ne_iff.mpr hok)]
    cases hoip : oip (a.bytes 0) with
    | true =>
      -- the delay before the next poll is no command
      have hbusy : a.ShowsBusy := ⟨hok, hoip⟩
      rw [if_pos rfl]
      exact M.void_monitor fun _ => h.busy m a hm hbusy
    | false =>
      have hready : a.ShowsReady := ⟨hok, hoip⟩
      rw [if_neg Bool.false_ne_true]
      exact h.ready m a hm hready
  · rw [dif_pos hok]
    exact h.failed m a hm hok

/-- The loop of `nand_mark_bad_block`, wherever its fuel ends. -/
theorem Polled.spins {K : μ → Prop} (h : M.Polled J R fun _ => K) :
    ∀ {m : μ}, J m → ∀ n, Handler.spins M.toMonitor.handler (fun _ _ => True) R K n m
  | _, _, 0 => trivial
  | m, hm, n + 1 => by
    apply M.cmd_monitor (h.allowed m hm)
    intro a
    by_cases hok : a.status = amHalStatusSuccess
    · rw [if_neg (not_ne_iff.mpr hok)]
      cases hoip : oip (a.bytes 0) with
      | true =>
        have hnext := h.busy m a hm ⟨hok, hoip⟩
        rw [if_pos rfl]
        exact Polled.spins h hnext n
      | false =>
        have hready : a.ShowsReady := ⟨hok, hoip⟩
        rw [if_neg Bool.false_ne_true]
        exact h.ready m a hm hready
    · rw [if_pos hok]
      exact h.failed m a hm hok

end CmdMonitor

end SpiNand
