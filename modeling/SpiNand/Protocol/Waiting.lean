import SpiNand.Bus.Answers
import Mathlib.Logic.Function.Iterate

/-!
# What a wait does, poll by poll

`nand_wait_busy` is a sequence of turns, each a poll of the status register and a delay. In any
environment the answer to the `k`-th poll is `pollAnswer`; the first of them that is not
*successful and busy* ends the wait, and if none of the first `n` is, the wait expires.

* **`polling_ends`**, **`polling_expires`** say so, with everything that is sent on the way.
* **`nandWaitBusy_exact`** is the meaning of the function on a sequence of answers.
-/

namespace SpiNand

open Interaction Interaction.Prog

variable {σ : Type}

/-! ## Turns -/

/-- The call of a poll. -/
def statusPoll (d : Driver) : Call :=
  .blockingTransfer (d.starts (getFeaturesTransaction featureRegStatus) 0)

/-- The call between two polls. -/
def pollDelay : Call := .void (.delayUs pollDelayUs)

/-- The driver's globals after a poll. -/
def Driver.polled (d : Driver) : Driver :=
  d.after (getFeaturesTransaction featureRegStatus) d.cfg.asize

@[simp] theorem statusPoll_polled (d : Driver) : statusPoll d.polled = statusPoll d := rfl

/-- What a poll that ends the wait makes of the out-parameters. -/
def pollResult (programFail eraseFail : Bool) (status : Option UInt8) (a : Answer) : WaitResult :=
  if a.status = amHalStatusSuccess then
    ⟨a.status, pFail (a.bytes 0), eFail (a.bytes 0), status.map fun _ => a.bytes 0⟩
  else ⟨a.status, programFail, eraseFail, status⟩

/-- The state before the `k`-th poll of a wait that was busy so far. -/
def pollState (env : Environment σ) (d : Driver) (s : σ) (k : Nat) : σ :=
  (fun s => (env (env s (statusPoll d)).2 pollDelay).2)^[k] s

/-- The answer to the `k`-th poll. -/
def pollAnswer (env : Environment σ) (d : Driver) (s : σ) (k : Nat) : Answer :=
  (env (pollState env d s k) (statusPoll d)).1

/-- What is asked in `k` turns that found the chip busy. -/
def busyTurns (d : Driver) (k : Nat) : List Call :=
  (List.replicate k [statusPoll d, pollDelay]).flatten

instance (a : Answer) : Decidable a.ShowsBusy := inferInstanceAs (Decidable (_ ∧ _))

@[simp] theorem busyTurns_zero (d : Driver) : busyTurns d 0 = [] := rfl

@[simp] theorem busyTurns_succ (d : Driver) (k : Nat) :
    busyTurns d (k + 1) = statusPoll d :: pollDelay :: busyTurns d k := rfl

section Turns

variable {env : Environment σ} {d : Driver} {s : σ} {programFail eraseFail : Bool}
  {status : Option UInt8}

/-- The calls of a program in an environment. -/
def calls {α : Type} (env : Environment σ) (m : DriverM α) (d : Driver) (s : σ) : List Call :=
  ((m d).trace env s).map Prod.fst

/-- One turn on a given state: the poll decides whether the delay and the rest follow. -/
theorem pollTurn_apply (rest : DriverM WaitResult) (d : Driver) :
    pollTurn programFail eraseFail status rest d = .ask (statusPoll d) fun a =>
      if a.ShowsBusy then .ask pollDelay fun _ => rest d.polled
      else .done (pollResult programFail eraseFail status a, d.polled) := by
  simp only [pollTurn, stateT_bind, nandCmdGetFeatures_apply, amUtilDelayUs_apply, bind_ask,
    bind_done, stateT_ite, stateT_pure]
  unfold statusPoll
  congr 1
  funext a
  by_cases hok : a.status = amHalStatusSuccess
  · rw [if_neg (not_ne_iff.mpr hok)]
    cases hoip : oip (a.bytes 0) with
    | true =>
      have hbusy : a.ShowsBusy := ⟨hok, hoip⟩
      rw [if_pos hbusy]
      rfl
    | false =>
      have hidle : ¬ a.ShowsBusy := fun h => Bool.noConfusion (hoip.symm.trans h.2)
      rw [if_neg hidle, pollResult, if_pos hok]
      rfl
  · have hidle : ¬ a.ShowsBusy := fun h => hok h.1
    rw [if_pos hok, if_neg hidle, pollResult, if_neg hok]
    rfl

/-- A turn that finds the chip busy goes on with the rest of the wait. -/
theorem pollTurn_busy (rest : DriverM WaitResult) (h : (pollAnswer env d s 0).ShowsBusy) :
    (pollTurn programFail eraseFail status rest d).eval env s =
        (rest d.polled).eval env (pollState env d s 1) ∧
      calls env (pollTurn programFail eraseFail status rest) d s =
        statusPoll d :: pollDelay :: calls env rest d.polled (pollState env d s 1) := by
  have hbusy : (env s (statusPoll d)).1.ShowsBusy := h
  unfold calls
  rw [pollTurn_apply, eval_ask, trace_ask, if_pos hbusy]
  exact ⟨rfl, rfl⟩

/-- A turn whose poll ends the wait. -/
theorem pollTurn_ends (rest : DriverM WaitResult) (h : ¬ (pollAnswer env d s 0).ShowsBusy) :
    ((pollTurn programFail eraseFail status rest d).eval env s).1 =
        .ok (pollResult programFail eraseFail status (pollAnswer env d s 0), d.polled) ∧
      calls env (pollTurn programFail eraseFail status rest) d s = [statusPoll d] := by
  have hend : ¬ (env s (statusPoll d)).1.ShowsBusy := h
  unfold calls
  rw [pollTurn_apply, eval_ask, trace_ask, if_neg hend]
  exact ⟨rfl, rfl⟩

/-- The first poll that is not successful and busy ends the wait. -/
theorem polling_ends {n i : Nat} (hi : i < n) (hbusy : ∀ k < i, (pollAnswer env d s k).ShowsBusy)
    (hend : ¬ (pollAnswer env d s i).ShowsBusy) :
    ((polling programFail eraseFail status n d).eval env s).1.map Prod.fst =
        .ok (pollResult programFail eraseFail status (pollAnswer env d s i)) ∧
      calls env (polling programFail eraseFail status n) d s = busyTurns d i ++ [statusPoll d] := by
  induction i generalizing n d s with
  | zero =>
    obtain ⟨n, rfl⟩ := Nat.exists_eq_succ_of_ne_zero (Nat.ne_of_gt hi)
    obtain ⟨heval, hcalls⟩ := pollTurn_ends (polling programFail eraseFail status n) hend
    rw [polling_succ, heval, hcalls]
    exact ⟨rfl, rfl⟩
  | succ i ih =>
    obtain ⟨n, rfl⟩ := Nat.exists_eq_succ_of_ne_zero (Nat.ne_of_gt (Nat.zero_lt_of_lt hi))
    -- the first poll is busy: the rest of the wait starts after its delay
    obtain ⟨heval, hcalls⟩ :=
      pollTurn_busy (polling programFail eraseFail status n) (hbusy 0 (Nat.succ_pos i))
    have hrest : ∀ k < i, (pollAnswer env d.polled (pollState env d s 1) k).ShowsBusy :=
      fun k hk => hbusy (k + 1) (Nat.succ_lt_succ hk)
    obtain ⟨heval', hcalls'⟩ := ih (Nat.lt_of_succ_lt_succ hi) hrest hend
    rw [polling_succ, heval, hcalls, heval', hcalls']
    exact ⟨rfl, rfl⟩

/-- Polls that all find the chip busy use the wait up. -/
theorem polling_expires {n : Nat} (hbusy : ∀ k < n, (pollAnswer env d s k).ShowsBusy) :
    ((polling programFail eraseFail status n d).eval env s).1.map Prod.fst =
        .ok ⟨amHalStatusTimeout, programFail, eraseFail, status⟩ ∧
      calls env (polling programFail eraseFail status n) d s = busyTurns d n := by
  induction n generalizing d s with
  | zero => exact ⟨rfl, rfl⟩
  | succ n ih =>
    obtain ⟨heval, hcalls⟩ :=
      pollTurn_busy (polling programFail eraseFail status n) (hbusy 0 (Nat.succ_pos n))
    have hrest : ∀ k < n, (pollAnswer env d.polled (pollState env d s 1) k).ShowsBusy :=
      fun k hk => hbusy (k + 1) (Nat.succ_lt_succ hk)
    obtain ⟨heval', hcalls'⟩ := ih hrest
    rw [polling_succ, heval, hcalls, heval', hcalls']
    exact ⟨rfl, rfl⟩

end Turns

/-! ## Counting -/

/-- A poll of the status register. -/
def Call.isPoll (c : Call) : Bool := c.cmd = some (.getFeatures featureRegStatus)

/-- A delay of the time between two polls. -/
def Call.isPollDelay : Call → Bool
  | .void (.delayUs us) => us = pollDelayUs
  | _ => false

/-- Exactly so many polls and so many delays, and nothing else. -/
structure Makes (l : List Call) (polls delays : Nat) : Prop where
  countP_poll : l.countP Call.isPoll = polls
  countP_delay : l.countP Call.isPollDelay = delays
  length_eq : l.length = polls + delays

theorem isPoll_statusPoll (d : Driver) : (statusPoll d).isPoll = true :=
  decide_eq_true (decode_getFeatures d featureRegStatus)

theorem makes_busyTurns (d : Driver) (n : Nat) : Makes (busyTurns d n) n n := by
  induction n with
  | zero => exact ⟨rfl, rfl, rfl⟩
  | succ n ih =>
    have hpoll : (statusPoll d).isPollDelay = false := rfl
    have hdelay : pollDelay.isPoll = false := rfl
    have hdelay' : pollDelay.isPollDelay = true := rfl
    constructor
    · simp [ih.countP_poll, isPoll_statusPoll, hdelay]
    · simp [ih.countP_delay, hpoll, hdelay']
    · simp [ih.length_eq]
      omega

theorem makes_poll_last {d : Driver} {n : Nat} {l : List Call} (h : Makes l n n) :
    Makes (l ++ [statusPoll d]) (n + 1) n := by
  have hpoll : (statusPoll d).isPollDelay = false := rfl
  constructor
  · simp [h.countP_poll, isPoll_statusPoll]
  · simp [h.countP_delay, hpoll]
  · simp [h.length_eq]
    omega

/-! ## On a sequence of answers -/

section Sequence

variable (d : Driver) (answers : Answers) (stack : Nat → Answer)

theorem pollState_adversary (k : Nat) :
    pollState (withStack adversary.env) d (((), answers), stack) k =
      (((), answers.after k), stack) := by
  induction k with
  | zero => rfl
  | succ k ih =>
    have hstep : pollState (withStack adversary.env) d (((), answers), stack) (k + 1) =
        (withStack adversary.env
          (withStack adversary.env
            (pollState (withStack adversary.env) d (((), answers), stack) k) (statusPoll d)).2
          pollDelay).2 := Function.iterate_succ_apply' _ k _
    have hdecode := decode_getFeatures d featureRegStatus
    rw [hstep, ih]
    simp only [statusPoll, pollDelay, withStack, Device.env, hdecode, Answers.after_after]

/-- The polls of a wait are answered by the sequence, one after the other. -/
theorem pollAnswer_adversary (k : Nat) :
    pollAnswer (withStack adversary.env) d (((), answers), stack) k = answers k := by
  have hdecode := decode_getFeatures d featureRegStatus
  unfold pollAnswer
  rw [pollState_adversary]
  simp only [statusPoll, withStack, Device.env, hdecode, adversary, Answers.after_zero]

/-- A wait is ended by its first poll that is not busy, or expires. -/
theorem wait_cases (n : Nat) :
    (∃ i < n, (∀ k < i, (answers k).ShowsBusy) ∧ ¬ (answers i).ShowsBusy) ∨
      ∀ k < n, (answers k).ShowsBusy := by
  by_cases h : ∃ i, i < n ∧ ¬ (answers i).ShowsBusy
  · -- the least such poll
    left
    obtain ⟨hi, hend⟩ := Nat.find_spec h
    refine ⟨Nat.find h, hi, ?_, hend⟩
    intro k hk
    by_contra hbusy
    exact Nat.find_min h hk ⟨Nat.lt_trans hk hi, hbusy⟩
  · right
    intro k hk
    by_contra hbusy
    exact h ⟨k, hk, hbusy⟩

section Exact

variable {timeoutUs : UInt32} (ht : timeoutUs.toNat < 2 ^ 31) (programFail eraseFail : Bool)
  (status : Option UInt8)
include ht

/-- A wait that the `i`-th poll ends. -/
theorem nandWaitBusy_ends {i : Nat} (hi : i < pollBudget timeoutUs)
    (hbusy : ∀ k < i, (answers k).ShowsBusy) (hend : ¬ (answers i).ShowsBusy) :
    outcome adversary () (nandWaitBusy timeoutUs programFail eraseFail status) d answers stack =
        .ok (pollResult programFail eraseFail status (answers i)) ∧
      (conversation adversary () (nandWaitBusy timeoutUs programFail eraseFail status) d answers
        stack).map Prod.fst = busyTurns d i ++ [statusPoll d] := by
  have hpolls := pollAnswer_adversary d answers stack
  rw [nandWaitBusy_eq_polling ht]
  rw [← hpolls i] at hend ⊢
  exact polling_ends hi (fun k hk => (hpolls k).symm ▸ hbusy k hk) hend

/-- A wait that no poll ends. -/
theorem nandWaitBusy_expires (hbusy : ∀ k < pollBudget timeoutUs, (answers k).ShowsBusy) :
    outcome adversary () (nandWaitBusy timeoutUs programFail eraseFail status) d answers stack =
        .ok ⟨amHalStatusTimeout, programFail, eraseFail, status⟩ ∧
      (conversation adversary () (nandWaitBusy timeoutUs programFail eraseFail status) d answers
        stack).map Prod.fst = busyTurns d (pollBudget timeoutUs) := by
  have hpolls := pollAnswer_adversary d answers stack
  rw [nandWaitBusy_eq_polling ht]
  exact polling_expires fun k hk => (hpolls k).symm ▸ hbusy k hk

end Exact

end Sequence

/-- A poll that fails leaves the out-parameters alone. -/
theorem pollResult_of_failed {programFail eraseFail : Bool} {status : Option UInt8} {a : Answer}
    (h : (pollResult programFail eraseFail status a).ui32Status ≠ amHalStatusSuccess) :
    pollResult programFail eraseFail status a =
      ⟨a.status, programFail, eraseFail, status⟩ := by
  unfold pollResult at h ⊢
  by_cases hok : a.status = amHalStatusSuccess
  · rw [if_pos hok] at h
    exact absurd hok h
  · exact if_neg hok

theorem pollResult_status (programFail eraseFail : Bool) (status : Option UInt8) (a : Answer) :
    (pollResult programFail eraseFail status a).ui32Status = a.status := by
  unfold pollResult
  split <;> rfl

/-- **The exact meaning of a wait.** With `N` the number of polls the timeout allows: the first
poll that is not successful and busy ends the wait with its code, and with its byte in the
out-parameters if it succeeded; `N` polls that are successful and busy end it with `TIMEOUT`; and
where the result is not success, the out-parameters are as before. -/
theorem nandWaitBusy_exact (d : Driver) (answers : Answers) (stack : Nat → Answer)
    {timeoutUs : UInt32} (ht : timeoutUs.toNat < 2 ^ 31) (programFail eraseFail : Bool)
    (status : Option UInt8) :
    let wait := nandWaitBusy timeoutUs programFail eraseFail status
    let result := outcome adversary () wait d answers stack
    let called := (conversation adversary () wait d answers stack).map Prod.fst
    (∀ i < pollBudget timeoutUs, (∀ k < i, (answers k).ShowsBusy) → ¬ (answers i).ShowsBusy →
      (∃ r, result = .ok r ∧ r.ui32Status = (answers i).status ∧
        ((answers i).status = amHalStatusSuccess →
          r.programFail = pFail ((answers i).bytes 0) ∧ r.eraseFail = eFail ((answers i).bytes 0) ∧
            r.status = status.map fun _ => (answers i).bytes 0)) ∧
      Makes called (i + 1) i) ∧
    ((∀ k < pollBudget timeoutUs, (answers k).ShowsBusy) →
      (∃ r, result = .ok r ∧ r.ui32Status = amHalStatusTimeout) ∧
      Makes called (pollBudget timeoutUs) (pollBudget timeoutUs)) ∧
    ∀ r, result = .ok r → r.ui32Status ≠ amHalStatusSuccess →
      r.programFail = programFail ∧ r.eraseFail = eraseFail ∧ r.status = status := by
  intro wait result called
  refine ⟨fun i hi hbusy hend => ?_, fun hbusy => ?_, fun r hr hfail => ?_⟩
  · obtain ⟨hresult, hcalled⟩ :=
      nandWaitBusy_ends d answers stack ht programFail eraseFail status hi hbusy hend
    refine ⟨⟨_, hresult, pollResult_status _ _ _ _, fun hok => ?_⟩, ?_⟩
    · rw [pollResult, if_pos hok]
      exact ⟨rfl, rfl, rfl⟩
    · show Makes called (i + 1) i
      rw [show called = busyTurns d i ++ [statusPoll d] from hcalled]
      exact makes_poll_last (makes_busyTurns d i)
  · obtain ⟨hresult, hcalled⟩ :=
      nandWaitBusy_expires d answers stack ht programFail eraseFail status hbusy
    refine ⟨⟨_, hresult, rfl⟩, ?_⟩
    rw [show called = busyTurns d _ from hcalled]
    exact makes_busyTurns d _
  · rcases wait_cases answers (pollBudget timeoutUs) with ⟨i, hi, hbusy, hend⟩ | hbusy
    · obtain ⟨hresult, -⟩ :=
        nandWaitBusy_ends d answers stack ht programFail eraseFail status hi hbusy hend
      obtain rfl := Except.ok.inj (hresult.symm.trans hr)
      rw [pollResult_of_failed hfail]
      exact ⟨rfl, rfl, rfl⟩
    · obtain ⟨hresult, -⟩ :=
        nandWaitBusy_expires d answers stack ht programFail eraseFail status hbusy
      obtain rfl := Except.ok.inj (hresult.symm.trans hr)
      exact ⟨rfl, rfl, rfl⟩

/-- A page read's wait for a chip that is ready at once. -/
theorem nandWaitBusy_exact_ready :
    (∃ r, outcome adversary () (nandWaitBusy pageReadTimeUs false false (some 0xFF))
        Driver.initial (fun _ => .zero) (fun _ => .zero) = .ok r ∧
      r.ui32Status = amHalStatusSuccess ∧ r.status = some 0) ∧
    Makes ((conversation adversary () (nandWaitBusy pageReadTimeUs false false (some 0xFF))
      Driver.initial (fun _ => .zero) (fun _ => .zero)).map Prod.fst) 1 0 := by
  have hexact := nandWaitBusy_exact Driver.initial (fun _ => .zero) (fun _ => .zero)
    (by decide : pageReadTimeUs.toNat < 2 ^ 31) false false (some 0xFF)
  have hready : ¬ Answer.zero.ShowsBusy := by decide
  obtain ⟨⟨r, hr, hst, hout⟩, hmakes⟩ :=
    hexact.1 0 (by decide) (fun k hk => absurd hk (Nat.not_lt_zero k)) hready
  exact ⟨⟨r, hr, hst, (hout rfl).2.2⟩, hmakes⟩

end SpiNand
