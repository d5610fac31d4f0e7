import SpiNand.Protocol.Waiting
import Mathlib.Algebra.Order.Ring.Defs
import Mathlib.Algebra.Order.Ring.Rat
import Mathlib.Data.Nat.Cast.Order.Ring
import Mathlib.Tactic.NormNum
import Mathlib.Tactic.Linarith

/-!
# Waiting for a chip that takes a given time

Time runs in an ordered ring `τ`, in microseconds from the call on. A `Timing` says how long the
status reads take, before and after the moment at which the chip's status is sampled, and how
much longer than asked the delays take. A chip that is `BusyUntil T` shows busy before `T` and
ready from then on.

`nand_wait_busy` looks at the chip for the last time before its last delay, so what decides about
`TIMEOUT` is the moment of the last poll (`timesOut_iff`), not the end of the stated time.
-/

namespace SpiNand

open Interaction Interaction.Prog

variable {τ : Type} [CommRing τ] [LinearOrder τ]

/-! ## Time -/

/-- How long the `k`-th status read takes until the chip is sampled and after that, and by how
much the `k`-th delay is longer than asked. -/
structure Timing (τ : Type) [CommRing τ] [LinearOrder τ] where
  before : Nat → τ
  after : Nat → τ
  extra : Nat → τ
  before_nonneg : ∀ k, 0 ≤ before k
  after_nonneg : ∀ k, 0 ≤ after k
  extra_nonneg : ∀ k, 0 ≤ extra k

/-- The status byte over time of a chip that is busy before `T` and ready from `T` on. -/
structure BusyUntil {τ : Type} [LinearOrder τ] (T : τ) where
  statusAt : τ → UInt8
  oip_statusAt : ∀ x, oip (statusAt x) = true ↔ x < T

namespace Timing

/-- The chip and the clock as an environment: the time now, and the number of turns so far. All
status reads succeed. -/
def env (w : Timing τ) (statusAt : τ → UInt8) : Environment (τ × Nat)
  | (now, k), .blockingTransfer _ =>
    (⟨amHalStatusSuccess, fun _ => statusAt (now + w.before k)⟩,
      (now + w.before k + w.after k, k))
  | (now, k), .void (.delayUs us) => (.zero, (now + us.toNat + w.extra k, k + 1))
  | s, _ => (.zero, s)

/-- When the `k`-th turn starts. -/
def turnStart (w : Timing τ) : Nat → τ
  | 0 => 0
  | k + 1 => w.turnStart k + w.before k + w.after k + (10 : Nat) + w.extra k

/-- When the `k`-th poll samples the chip. -/
def pollTime (w : Timing τ) (k : Nat) : τ := w.turnStart k + w.before k

/-- Reads that take no time and delays that are exact. -/
def exact : Timing τ where
  before _ := 0
  after _ := 0
  extra _ := 0
  before_nonneg _ := le_rfl
  after_nonneg _ := le_rfl
  extra_nonneg _ := le_rfl

variable (w : Timing τ)

theorem pollState_env (statusAt : τ → UInt8) (d : Driver) (k : Nat) :
    pollState (w.env statusAt) d (0, 0) k = (w.turnStart k, k) := by
  induction k with
  | zero => rfl
  | succ k ih =>
    have hstep : pollState (w.env statusAt) d (0, 0) (k + 1) =
        (w.env statusAt (w.env statusAt (pollState (w.env statusAt) d (0, 0) k)
          (statusPoll d)).2 pollDelay).2 := Function.iterate_succ_apply' _ k _
    rw [hstep, ih]
    rfl

/-- The `k`-th poll shows the chip as it is at its moment. -/
theorem pollAnswer_env (statusAt : τ → UInt8) (d : Driver) (k : Nat) :
    pollAnswer (w.env statusAt) d (0, 0) k =
      ⟨amHalStatusSuccess, fun _ => statusAt (w.pollTime k)⟩ := by
  unfold pollAnswer
  rw [pollState_env]
  rfl

theorem pollTime_exact (k : Nat) : (exact : Timing τ).pollTime k = (10 * k : Nat) := by
  have hstart : (exact : Timing τ).turnStart k = (10 * k : Nat) := by
    induction k with
    | zero => simp [turnStart]
    | succ k ih =>
      rw [turnStart, ih]
      simp only [exact, add_zero]
      rw [← Nat.cast_add]
      rfl
  unfold pollTime
  rw [hstart]
  exact add_zero _

variable [IsStrictOrderedRing τ]

/-- One poll is at least the delay after the one before. -/
theorem pollTime_succ (k : Nat) : w.pollTime k + (10 : Nat) ≤ w.pollTime (k + 1) := by
  have hafter := w.after_nonneg k
  have hextra := w.extra_nonneg k
  have hbefore := w.before_nonneg (k + 1)
  unfold pollTime
  rw [turnStart]
  linarith

theorem pollTime_mono {j k : Nat} (h : j ≤ k) : w.pollTime j ≤ w.pollTime k := by
  induction k, h using Nat.le_induction with
  | base => exact le_rfl
  | succ k _ ih =>
    have hnext := w.pollTime_succ k
    have hten : (0 : τ) ≤ (10 : Nat) := Nat.cast_nonneg 10
    linarith

/-- However fast the reads are, the `k`-th poll is not before `k` delays. -/
theorem le_pollTime (k : Nat) : (10 * k : Nat) ≤ w.pollTime k := by
  induction k with
  | zero =>
    have hzero : w.pollTime 0 = 0 + w.before 0 := rfl
    have hbefore := w.before_nonneg 0
    rw [hzero]
    simpa using hbefore
  | succ k ih =>
    have hnext := w.pollTime_succ k
    have hcast : ((10 * (k + 1) : Nat) : τ) = (10 * k : Nat) + (10 : Nat) := by
      rw [← Nat.cast_add]
      rfl
    rw [hcast]
    linarith

end Timing

/-- A chip that shows nothing but whether it is busy. -/
def busyUntil (T : τ) : BusyUntil T where
  statusAt x := if x < T then featureRegStatusOipMask else 0
  oip_statusAt x := by
    by_cases h : x < T
    · simp only [h, iff_true]
      decide
    · simp only [h, iff_false]
      decide

/-! ## Timeouts -/

/-- What a wait on a chip returns. -/
def waitResult (w : Timing τ) (statusAt : τ → UInt8) (timeoutUs : UInt32)
    (programFail eraseFail : Bool) (status : Option UInt8) (d : Driver) : Except Halt WaitResult :=
  ((nandWaitBusy timeoutUs programFail eraseFail status d).eval (w.env statusAt) (0, 0)).1.map
    Prod.fst

/-- The wait reports a timeout. -/
def TimesOut (w : Timing τ) (statusAt : τ → UInt8) (timeoutUs : UInt32)
    (programFail eraseFail : Bool) (status : Option UInt8) (d : Driver) : Prop :=
  (waitResult w statusAt timeoutUs programFail eraseFail status d).map WaitResult.ui32Status =
    .ok amHalStatusTimeout

section TimesOut

variable (timeoutUs : UInt32) (programFail eraseFail : Bool) (status : Option UInt8) (d : Driver)

/-- A poll finds a chip busy before `T`. -/
theorem showsBusy_iff {T : τ} (w : Timing τ) (chip : BusyUntil T) (k : Nat) :
    (pollAnswer (w.env chip.statusAt) d (0, 0) k).ShowsBusy ↔ w.pollTime k < T := by
  rw [w.pollAnswer_env, ← chip.oip_statusAt]
  exact and_iff_right rfl

variable [IsStrictOrderedRing τ]

/-- A wait times out on a chip that is busy at the moment of its last poll. -/
theorem timesOut_iff {T : τ} (w : Timing τ) (chip : BusyUntil T) :
    TimesOut w chip.statusAt timeoutUs programFail eraseFail status d ↔
      w.pollTime (pollLimit timeoutUs - 1) < T := by
  have hpos := pollLimit_pos timeoutUs
  unfold TimesOut waitResult
  rw [nandWaitBusy_eq_polling_limit]
  by_cases hlast : w.pollTime (pollLimit timeoutUs - 1) < T
  · -- busy at the last poll, so at all polls before it
    have hbusy : ∀ k < pollLimit timeoutUs,
        (pollAnswer (w.env chip.statusAt) d (0, 0) k).ShowsBusy := by
      intro k hk
      have hmono : w.pollTime k ≤ w.pollTime (pollLimit timeoutUs - 1) :=
        w.pollTime_mono (by omega)
      exact (showsBusy_iff d w chip k).mpr (lt_of_le_of_lt hmono hlast)
    rw [(polling_expires hbusy).1]
    exact iff_of_true rfl hlast
  · -- ready at the last poll: that poll or one before it ends the wait
    have hready : ∃ i, i < pollLimit timeoutUs ∧ ¬ w.pollTime i < T :=
      ⟨pollLimit timeoutUs - 1, by omega, hlast⟩
    obtain ⟨hi, hend⟩ := Nat.find_spec hready
    have hbusy : ∀ k < Nat.find hready,
        (pollAnswer (w.env chip.statusAt) d (0, 0) k).ShowsBusy := by
      intro k hk
      rw [showsBusy_iff d w chip k]
      by_contra hk'
      exact Nat.find_min hready hk ⟨Nat.lt_trans hk hi, hk'⟩
    rw [(polling_ends hi hbusy fun h => hend ((showsBusy_iff d w chip _).mp h)).1]
    refine iff_of_false (fun h => ?_) hlast
    have hst := Except.ok.inj h
    have hne : amHalStatusSuccess ≠ amHalStatusTimeout := by decide
    rw [pollResult_status, w.pollAnswer_env] at hst
    exact hne hst

/-- **When a timeout is premature.** On given timings the wait reports no timeout if and only if
the chip is ready by the moment of the last poll. Whatever the timings, it reports none if and
only if the chip is ready after as many delays as there are polls but one; a chip that becomes
ready later than that, but within the stated time, may be reported as timed out. -/
theorem nandWaitBusy_timesOut_iff (T : τ) :
    (∀ (w : Timing τ) (chip : BusyUntil T),
      ¬ TimesOut w chip.statusAt timeoutUs programFail eraseFail status d ↔
        T ≤ w.pollTime (pollLimit timeoutUs - 1)) ∧
    ((∀ (w : Timing τ) (chip : BusyUntil T),
      ¬ TimesOut w chip.statusAt timeoutUs programFail eraseFail status d) ↔
        T ≤ (10 * (pollLimit timeoutUs - 1) : Nat)) := by
  have hone : ∀ (w : Timing τ) (chip : BusyUntil T),
      ¬ TimesOut w chip.statusAt timeoutUs programFail eraseFail status d ↔
        T ≤ w.pollTime (pollLimit timeoutUs - 1) := by
    intro w chip
    rw [timesOut_iff, not_lt]
  refine ⟨hone, ?_⟩
  constructor
  · intro hnever
    -- the fastest reads and exact delays
    have hexact := (hone Timing.exact (busyUntil T)).mp (hnever _ _)
    rwa [Timing.pollTime_exact] at hexact
  · intro hT w chip
    exact (hone w chip).mpr (le_trans hT (w.le_pollTime _))

end TimesOut

/-- A page read's wait for a chip that is ready after 70 microseconds. -/
theorem nandWaitBusy_timesOut_iff_seventy :
    ¬ TimesOut Timing.exact (busyUntil (70 : ℚ)).statusAt pageReadTimeUs false false none
      Driver.initial := by
  have hlimit : pollLimit pageReadTimeUs = 8 := by decide
  have hlast : (70 : ℚ) ≤ (10 * (pollLimit pageReadTimeUs - 1) : Nat) := by
    rw [hlimit]
    norm_num
  exact (nandWaitBusy_timesOut_iff pageReadTimeUs false false none Driver.initial
    (70 : ℚ)).2.mpr hlast Timing.exact (busyUntil 70)

/-- A chip that needs 75 of the 80 microseconds a page read may take is reported as timed out. -/
theorem page_read_times_out_early :
    ((75 : ℚ) ≤ pageReadTimeUs.toNat) ∧
      TimesOut Timing.exact (busyUntil (75 : ℚ)).statusAt pageReadTimeUs false false none
        Driver.initial := by
  have hlimit : pollLimit pageReadTimeUs = 8 := by decide
  constructor
  · show (75 : ℚ) ≤ (80 : Nat)
    norm_num
  rw [timesOut_iff, hlimit, Timing.pollTime_exact]
  norm_num

end SpiNand
