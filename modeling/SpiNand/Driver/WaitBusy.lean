import SpiNand.Driver.Command
import Mathlib.Algebra.Group.Nat.Defs
import Mathlib.Tactic.Common

/-!
# Waiting for the chip

`nand_wait_busy` polls the status register in a `do … while` loop whose counter is a signed
32-bit number, decremented by an unsigned constant. `nandWaitBusy_eq_polling` replaces the
counter by a number of polls: for a timeout below `2 ^ 31` the function is `polling` with
`pollBudget` turns, where the first poll that is not *successful and busy* ends the wait.
-/

namespace SpiNand

open Interaction

/-- The busy bit of a status byte. -/
def oip (statusReg : UInt8) : Bool := statusReg &&& featureRegStatusOipMask ≠ 0

/-- The program failure bit of a status byte. -/
def pFail (statusReg : UInt8) : Bool := statusReg &&& featureRegStatusPFailMask ≠ 0

/-- The erase failure bit of a status byte. -/
def eFail (statusReg : UInt8) : Bool := statusReg &&& featureRegStatusEFailMask ≠ 0

/-- Check if the NAND is busy now; `busy` is written only if the status could be read. -/
def nandGetBusy (busy : Bool) : DriverM (Status × Bool) := do
  let (ui32Status, statusReg) ← nandCmdGetFeatures featureRegStatus
  if ui32Status ≠ amHalStatusSuccess then return (ui32Status, busy)
  return (ui32Status, oip statusReg)

/-- How the polling loop is left: by a `return`, or with its local variables. -/
inductive WaitExit
  | returned (ui32Status : Status)
  | left (ui32Status : Status) (busy : Bool) (statusReg : UInt8) (timeoutCount : Int32)

/-- The polling loop of `nand_wait_busy`. -/
def nandWaitBusyLoop : Nat → Int32 → DriverM WaitExit
  | 0, _ => halt .outOfFuel
  | fuel + 1, timeoutCount => do
    let (ui32Status, statusReg) ← nandCmdGetFeatures featureRegStatus
    if ui32Status ≠ amHalStatusSuccess then return .returned ui32Status
    let busy := oip statusReg
    if !busy then return .left ui32Status busy statusReg timeoutCount
    amUtilDelayUs pollDelayUs
    -- `int32_t -= uint32_t`: the subtraction is unsigned, the result is converted back
    let timeoutCount := (timeoutCount.toUInt32 - pollDelayUs).toInt32
    if 0 < timeoutCount then nandWaitBusyLoop fuel timeoutCount
    else return .left ui32Status busy statusReg timeoutCount

/-- More turns than a 32-bit counter that drops by ten can take. -/
def waitFuel : Nat := 2 ^ 28

/-- What a wait returns, and what its out-parameters point to afterwards. -/
structure WaitResult where
  ui32Status : Status
  programFail : Bool
  eraseFail : Bool
  status : Option UInt8

/-- What `nand_wait_busy` does after its loop. -/
def nandWaitBusyFinish (programFail eraseFail : Bool) (status : Option UInt8) :
    WaitExit → DriverM WaitResult
  | .returned ui32Status => return ⟨ui32Status, programFail, eraseFail, status⟩
  | .left ui32Status busy statusReg timeoutCount => do
    if busy && timeoutCount ≤ 0 then
      return ⟨amHalStatusTimeout, programFail, eraseFail, status⟩
    return ⟨ui32Status, pFail statusReg, eFail statusReg, status.map fun _ => statusReg⟩

/-- Wait until the NAND is no longer busy. The arguments after the timeout are what the
out-parameters point to; `status` may be `NULL`. -/
def nandWaitBusy (timeoutUs : UInt32) (programFail eraseFail : Bool) (status : Option UInt8) :
    DriverM WaitResult := do
  let exit ← nandWaitBusyLoop waitFuel timeoutUs.toInt32
  nandWaitBusyFinish programFail eraseFail status exit

/-! ## The loop as a number of polls -/

/-- At most `n` polls of the status register, a delay after each that finds the chip busy. -/
def polling (programFail eraseFail : Bool) (status : Option UInt8) : Nat → DriverM WaitResult
  | 0 => return ⟨amHalStatusTimeout, programFail, eraseFail, status⟩
  | n + 1 => do
    let (ui32Status, statusReg) ← nandCmdGetFeatures featureRegStatus
    if ui32Status ≠ amHalStatusSuccess then
      return ⟨ui32Status, programFail, eraseFail, status⟩
    if !oip statusReg then
      return ⟨ui32Status, pFail statusReg, eFail statusReg, status.map fun _ => statusReg⟩
    amUtilDelayUs pollDelayUs
    polling programFail eraseFail status n

/-- The number of polls a timeout allows. -/
def pollBudget (timeoutUs : UInt32) : Nat := max 1 ((timeoutUs.toNat + 9) / 10)

/-- `n` turns are left when the counter is `timeoutCount`: it reaches zero or less in the `n`-th
subtraction and not before. -/
def TurnsLeft (n : Nat) (timeoutCount : Int32) : Prop :=
  0 < n ∧ 0 ≤ timeoutCount.toInt ∧ timeoutCount.toInt ≤ 10 * n ∧
    (n = 1 ∨ 10 * (n - 1) < timeoutCount.toInt)

/-- The counter after one subtraction, while it does not wrap. -/
theorem toInt_sub_pollDelay {c : Int32} (h : 0 ≤ c.toInt) :
    ((c.toUInt32 - pollDelayUs).toInt32).toInt = c.toInt - 10 := by
  have hlt : c.toInt < 2 ^ 31 := c.toInt_lt
  have hwrap : (c.toUInt32 - pollDelayUs).toInt32 = c - 10 := rfl
  rw [hwrap, Int32.toInt_sub]
  show (c.toInt - 10).bmod (2 ^ 32) = c.toInt - 10
  exact Int.bmod_eq_of_le (by omega) (by omega)

/-- While more than one turn is left the loop goes round again, with one turn less. -/
theorem TurnsLeft.next {n : Nat} {c : Int32} (h : TurnsLeft (n + 2) c) :
    0 < (c.toUInt32 - pollDelayUs).toInt32 ∧
      TurnsLeft (n + 1) (c.toUInt32 - pollDelayUs).toInt32 := by
  obtain ⟨-, hnonneg, hle, hgt⟩ := h
  have hsub := toInt_sub_pollDelay hnonneg
  rw [Int32.lt_iff_toInt_lt, hsub]
  refine ⟨by simp; omega, Nat.succ_pos n, ?_⟩
  rw [hsub]
  omega

/-- In the last turn the loop ends. -/
theorem TurnsLeft.last {c : Int32} (h : TurnsLeft 1 c) :
    ¬ 0 < (c.toUInt32 - pollDelayUs).toInt32 ∧ (c.toUInt32 - pollDelayUs).toInt32 ≤ 0 := by
  obtain ⟨-, hnonneg, hle, -⟩ := h
  have hsub := toInt_sub_pollDelay hnonneg
  rw [Int32.lt_iff_toInt_lt, Int32.le_iff_toInt_le, hsub]
  simp
  omega

/-- One turn of the wait: a poll, and where it finds the chip busy the delay and then `rest`. -/
def pollTurn (programFail eraseFail : Bool) (status : Option UInt8) (rest : DriverM WaitResult) :
    DriverM WaitResult := do
  let (ui32Status, statusReg) ← nandCmdGetFeatures featureRegStatus
  if ui32Status ≠ amHalStatusSuccess then
    return ⟨ui32Status, programFail, eraseFail, status⟩
  if !oip statusReg then
    return ⟨ui32Status, pFail statusReg, eFail statusReg, status.map fun _ => statusReg⟩
  amUtilDelayUs pollDelayUs
  rest

theorem polling_succ (programFail eraseFail : Bool) (status : Option UInt8) (n : Nat) :
    polling programFail eraseFail status (n + 1) =
      pollTurn programFail eraseFail status (polling programFail eraseFail status n) := rfl

/-- The loop is one turn, and then the loop again while the counter is positive. -/
theorem nandWaitBusyLoop_turn (programFail eraseFail : Bool) (status : Option UInt8) (fuel : Nat)
    (c : Int32) :
    (nandWaitBusyLoop (fuel + 1) c >>= nandWaitBusyFinish programFail eraseFail status) =
      pollTurn programFail eraseFail status
        (if 0 < (c.toUInt32 - pollDelayUs).toInt32 then
          nandWaitBusyLoop fuel (c.toUInt32 - pollDelayUs).toInt32 >>=
            nandWaitBusyFinish programFail eraseFail status
        else polling programFail eraseFail status 0) := by
  funext d
  simp only [nandWaitBusyLoop, pollTurn, Prog.stateT_bind, nandCmdGetFeatures_apply,
    amUtilDelayUs_apply, Prog.bind_ask, Prog.bind_done, Prog.stateT_ite, Prog.stateT_pure]
  congr 1
  funext a
  by_cases hok : a.status ≠ amHalStatusSuccess
  · rw [if_pos hok, if_pos hok]
    rfl
  rw [if_neg hok, if_neg hok]
  cases hbusy : oip (a.bytes 0) with
  | false => simp [nandWaitBusyFinish, Prog.stateT_pure]
  | true =>
    simp only [Bool.not_true, Bool.false_eq_true, if_false, Prog.bind_ask]
    congr 1
    funext _
    by_cases hgo : 0 < (c.toUInt32 - pollDelayUs).toInt32
    · rw [if_pos hgo, if_pos hgo]
    · -- the counter is used up: `TIMEOUT`, since the chip is still busy
      have hle : (c.toUInt32 - pollDelayUs).toInt32 ≤ 0 := by
        rw [Int32.lt_iff_toInt_lt] at hgo
        rw [Int32.le_iff_toInt_le]
        omega
      rw [if_neg hgo, if_neg hgo, Prog.bind_done]
      simp only [nandWaitBusyFinish, polling, hle, decide_true, Bool.and_self, if_true]

/-- With `n` turns left on the counter the loop polls at most `n` times. -/
theorem nandWaitBusyLoop_eq_polling (programFail eraseFail : Bool) (status : Option UInt8) :
    ∀ (n fuel : Nat) (c : Int32), n ≤ fuel → TurnsLeft n c →
      (nandWaitBusyLoop fuel c >>= nandWaitBusyFinish programFail eraseFail status) =
        polling programFail eraseFail status n
  | 0, _, _, _, hturns => absurd hturns.1 (Nat.lt_irrefl 0)
  | n + 1, 0, _, hfuel, _ => absurd hfuel (Nat.not_succ_le_zero n)
  | n + 1, fuel + 1, c, hfuel, hturns => by
    rw [nandWaitBusyLoop_turn, polling_succ]
    congr 1
    cases n with
    | zero =>
      obtain ⟨hstop, -⟩ := hturns.last
      exact if_neg hstop
    | succ n =>
      obtain ⟨hgo, hnext⟩ := hturns.next
      rw [if_pos hgo]
      exact nandWaitBusyLoop_eq_polling programFail eraseFail status (n + 1) fuel _
        (Nat.le_of_succ_le_succ hfuel) hnext

/-- A timeout of `timeoutUs` allows `pollBudget timeoutUs` turns. -/
theorem turnsLeft_pollBudget {timeoutUs : UInt32} (h : timeoutUs.toNat < 2 ^ 31) :
    TurnsLeft (pollBudget timeoutUs) timeoutUs.toInt32 := by
  have hint : timeoutUs.toInt32.toInt = timeoutUs.toNat :=
    BitVec.toInt_eq_toNat_of_lt (x := timeoutUs.toBitVec) (by simpa using by omega)
  unfold TurnsLeft pollBudget
  rw [hint]
  omega

/-- **The wait, turn by turn.** For a timeout that is positive as a signed number, or zero,
`nand_wait_busy` polls at most `pollBudget` times. -/
theorem nandWaitBusy_eq_polling {timeoutUs : UInt32} (h : timeoutUs.toNat < 2 ^ 31)
    (programFail eraseFail : Bool) (status : Option UInt8) :
    nandWaitBusy timeoutUs programFail eraseFail status =
      polling programFail eraseFail status (pollBudget timeoutUs) := by
  have hfuel : pollBudget timeoutUs ≤ waitFuel := by
    unfold pollBudget waitFuel
    omega
  exact nandWaitBusyLoop_eq_polling programFail eraseFail status _ _ _ hfuel
    (turnsLeft_pollBudget h)

/-! ## Timeouts that do not fit into the counter

As a signed number such a timeout is negative. The first subtraction either brings it back among
the positive ones or leaves it negative, and then the first delay is the last. -/

/-- The number of polls of every timeout. -/
def pollLimit (timeoutUs : UInt32) : Nat :=
  if timeoutUs.toNat < 2 ^ 31 + 10 then pollBudget timeoutUs else 1

theorem pollLimit_pos (timeoutUs : UInt32) : 0 < pollLimit timeoutUs := by
  unfold pollLimit pollBudget
  split <;> omega

/-- The counter after the first subtraction, as a signed number. -/
theorem toInt_first_sub (timeoutUs : UInt32) :
    ((timeoutUs.toInt32.toUInt32 - pollDelayUs).toInt32).toInt =
      ((timeoutUs.toNat : Int) - 10).bmod (2 ^ 32) := by
  have hwrap : (timeoutUs.toInt32.toUInt32 - pollDelayUs).toInt32 = timeoutUs.toInt32 - 10 := rfl
  have hten : (10 : Int32).toInt = 10 := rfl
  have hint : timeoutUs.toInt32.toInt = (timeoutUs.toNat : Int).bmod (2 ^ 32) :=
    BitVec.toInt_eq_toNat_bmod timeoutUs.toBitVec
  rw [hwrap, Int32.toInt_sub, hten, hint, Int.bmod_sub_bmod]

/-- The subtraction wraps to a positive number, and the rest of the turns follow. -/
theorem turnsLeft_first_sub {timeoutUs : UInt32} (hlow : 2 ^ 31 ≤ timeoutUs.toNat)
    (hback : timeoutUs.toNat < 2 ^ 31 + 10) :
    0 < (timeoutUs.toInt32.toUInt32 - pollDelayUs).toInt32 ∧
      TurnsLeft (pollBudget timeoutUs - 1) (timeoutUs.toInt32.toUInt32 - pollDelayUs).toInt32 := by
  have hcount : ((timeoutUs.toInt32.toUInt32 - pollDelayUs).toInt32).toInt =
      timeoutUs.toNat - 10 := by
    rw [toInt_first_sub]
    exact Int.bmod_eq_of_le (by omega) (by omega)
  constructor
  · rw [Int32.lt_iff_toInt_lt, hcount]
    show (0 : Int) < timeoutUs.toNat - 10
    omega
  · unfold TurnsLeft pollBudget
    rw [hcount]
    omega

/-- The subtraction leaves a negative number. -/
theorem first_sub_not_pos {timeoutUs : UInt32} (hlow : 2 ^ 31 + 10 ≤ timeoutUs.toNat) :
    ¬ 0 < (timeoutUs.toInt32.toUInt32 - pollDelayUs).toInt32 := by
  have hlt : timeoutUs.toNat < 2 ^ 32 := timeoutUs.toNat_lt
  have hcount : ((timeoutUs.toInt32.toUInt32 - pollDelayUs).toInt32).toInt < 0 := by
    rw [toInt_first_sub]
    simp only [Int.bmod]
    split <;> omega
  rw [Int32.lt_iff_toInt_lt]
  exact Int.lt_asymm hcount

/-- **The wait, for every timeout.** -/
theorem nandWaitBusy_eq_polling_limit (timeoutUs : UInt32) (programFail eraseFail : Bool)
    (status : Option UInt8) :
    nandWaitBusy timeoutUs programFail eraseFail status =
      polling programFail eraseFail status (pollLimit timeoutUs) := by
  have hturn := nandWaitBusyLoop_turn programFail eraseFail status (waitFuel - 1)
    timeoutUs.toInt32
  rcases Nat.lt_or_ge timeoutUs.toNat (2 ^ 31) with hsmall | hlow
  · have hlimit : pollLimit timeoutUs = pollBudget timeoutUs := if_pos (by omega)
    rw [hlimit]
    exact nandWaitBusy_eq_polling hsmall programFail eraseFail status
  rcases Nat.lt_or_ge timeoutUs.toNat (2 ^ 31 + 10) with hback | hfar
  · obtain ⟨hgo, hturns⟩ := turnsLeft_first_sub hlow hback
    have hlimit : pollLimit timeoutUs = (pollBudget timeoutUs - 1) + 1 := by
      unfold pollLimit pollBudget
      rw [if_pos hback]
      omega
    have hfuel : pollBudget timeoutUs - 1 ≤ waitFuel - 1 := by
      unfold pollBudget waitFuel
      omega
    rw [hlimit, polling_succ]
    rw [if_pos hgo, nandWaitBusyLoop_eq_polling _ _ _ _ _ _ hfuel hturns] at hturn
    exact hturn
  · -- one poll, one delay
    have hlimit : pollLimit timeoutUs = 0 + 1 := if_neg (Nat.not_lt_of_le hfar)
    rw [hlimit, polling_succ]
    rw [if_neg (first_sub_not_pos hfar)] at hturn
    exact hturn

end SpiNand
