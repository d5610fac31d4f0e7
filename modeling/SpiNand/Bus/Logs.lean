import SpiNand.Bus.Answers

/-!
# Logs of commands

A `Log` is the list of the commands that were sent, with their answers.

* **`logMonitor`** writes the log of a function in any environment.
* **`logged env`** is `env` with the log as a part of its state, so that what is verified of a
  function on a sequence of answers may speak of its log as well (`outcome_logged`).
-/

namespace SpiNand

open Interaction Interaction.Prog

variable {σ α : Type}

/-- Commands and their answers, in order. -/
abbrev Log := List (NandCmd × Answer)

/-- The commands in a list of exchanges. -/
def cmdLog (tr : Trace) : Log := tr.filterMap fun x => x.1.cmd.map fun c => (c, x.2)

/-- A read of the status register. -/
abbrev statusRead : NandCmd := .getFeatures featureRegStatus

/-- Every command succeeded. -/
def Succeeds (l : Log) : Prop := ∀ x ∈ l, x.2.status = amHalStatusSuccess

theorem Succeeds.append {l l' : Log} (h : Succeeds l) (h' : Succeeds l') : Succeeds (l ++ l') := by
  intro x hx
  rcases List.mem_append.mp hx with hx | hx
  · exact h x hx
  · exact h' x hx

theorem succeeds_singleton {c : NandCmd} {a : Answer} (ha : a.status = amHalStatusSuccess) :
    Succeeds [(c, a)] := by
  intro x hx
  rw [List.mem_singleton.mp hx]
  exact ha

/-- A log with one more exchange. -/
def Log.record (l : Log) (c : Call) (a : Answer) : Log :=
  match c.cmd with
  | some cmd => l ++ [(cmd, a)]
  | none => l

theorem record_append_cmdLog (l : Log) (c : Call) (a : Answer) (tr : Trace) :
    l.record c a ++ cmdLog tr = l ++ cmdLog ((c, a) :: tr) := by
  unfold Log.record cmdLog
  cases hcmd : c.cmd with
  | none => simp [hcmd]
  | some cmd => simp [hcmd]

/-- The environment `env`, with a log of the commands it was sent. -/
def logged (env : Environment σ) : Environment (σ × Log)
  | (s, l), c => ((env s c).1, ((env s c).2, l.record c (env s c).1))

/-- The log changes nothing, and is that of what was sent. -/
theorem eval_logged (env : Environment σ) (p : Prog Call Answer Halt α) (s : σ) (l : Log)
    (stack : Nat → Answer) :
    p.eval (withStack (logged env)) ((s, l), stack) =
      ((p.eval (withStack env) (s, stack)).1,
        (((p.eval (withStack env) (s, stack)).2.1,
            l ++ cmdLog (p.trace (withStack env) (s, stack))),
          (p.eval (withStack env) (s, stack)).2.2)) := by
  induction p generalizing s l stack with
  | done a => simp [cmdLog]
  | stop e => simp [cmdLog]
  | ask c k ih =>
    rw [eval_ask, eval_ask, trace_ask]
    cases c with
    | uninit => exact ih _ _ _ _
    | blockingTransfer t =>
      rw [← record_append_cmdLog]
      exact ih _ _ _ _
    | setup c => exact ih _ _ _ _
    | void v => exact ih _ _ _ _

/-- What is verified of a function on a sequence of answers, of its result and of its log. -/
theorem outcome_logged {m : DriverM α} {answers : Answers} {R : α → Log → Prop}
    (h : wpS (Handler.stacked (logged adversary.env)) (fun _ _ => False) m
      (fun r s => R r s.2) (((), answers), [])) (d : Driver) (stack : Nat → Answer) :
    ∃ r, outcome adversary () m d answers stack = .ok r ∧
      R r (cmdLog (conversation adversary () m d answers stack)) := by
  obtain ⟨r, d', s', stack', heval, hR⟩ := returns_withStack h d stack
  rw [eval_logged] at heval
  unfold outcome conversation
  match hev : (m d).eval (withStack adversary.env) (((), answers), stack) with
  | (.ok (r', d''), s'') =>
    rw [hev] at heval
    simp only [Prod.mk.injEq, Except.ok.injEq] at heval
    obtain ⟨⟨rfl, -⟩, ⟨-, rfl⟩, -⟩ := heval
    exact ⟨r', rfl, hR⟩
  | (.error e, s'') =>
    rw [hev] at heval
    simp at heval

section Sequence

variable {E : Halt → (Unit × Answers) × Log → Prop} {answers : Answers} {l : Log} {c : NandCmd}

/-- The handler of a sequence of answers with a log. -/
abbrev sequenceHandler : Handler ((Unit × Answers) × Log) Call Answer :=
  Handler.stacked (logged adversary.env)

/-- A command takes the next answer, and is logged with it. -/
theorem cmd_sequence {φ : Answer → (Unit × Answers) × Log → Prop}
    (h : φ (answers 0) (((), answers.after 1), l ++ [(c, answers 0)])) :
    Handler.cmd sequenceHandler c φ (((), answers), l) := by
  intro t ht
  have henv : logged adversary.env (((), answers), l) (.blockingTransfer t) =
      (answers 0, (((), answers.after 1), l ++ [(c, answers 0)])) := by
    simp only [logged, Log.record, Call.cmd, ht, Device.env, adversary]
  show φ (logged adversary.env (((), answers), l) (.blockingTransfer t)).1
    (logged adversary.env (((), answers), l) (.blockingTransfer t)).2
  rw [henv]
  exact h

/-- A command followed by the check of its status. -/
theorem sequence_sent {R : Status → (Unit × Answers) × Log → Prop}
    {K : (Unit × Answers) × Log → Prop}
    (hok : (answers 0).status = amHalStatusSuccess →
      K (((), answers.after 1), l ++ [(c, answers 0)]))
    (hfail : ∀ s, (answers 0).status ≠ amHalStatusSuccess →
      R (answers 0).status (s, l ++ [(c, answers 0)])) :
    Handler.cmd sequenceHandler c (Sent R K) (((), answers), l) :=
  cmd_sequence ⟨hok, hfail _⟩

/-- What the polls of a wait leave in a log. -/
def pollLog (answers : Answers) (n : Nat) : Log :=
  (List.range n).map fun i => (statusRead, answers i)

theorem pollLog_succ (answers : Answers) (n : Nat) :
    pollLog answers (n + 1) = (statusRead, answers 0) :: pollLog (answers.after 1) n := by
  simp [pollLog, List.range_succ_eq_map, Answers.after, Function.comp_def]

/-- A wait goes on after the poll that shows ready, or ends with a status that is not success. -/
theorem sequence_wait {R : Status → (Unit × Answers) × Log → Prop}
    {K : UInt8 → (Unit × Answers) × Log → Prop} {n : Nat}
    (hready : ∀ j, Waits answers n j →
      K ((answers j).bytes 0) (((), answers.after (j + 1)), l ++ pollLog answers (j + 1)))
    (hfail : (∀ j, ¬ Waits answers n j) → ∀ st s m, st ≠ amHalStatusSuccess →
      R st (s, l ++ pollLog answers m)) :
    Handler.polls sequenceHandler n (Waited R K) (((), answers), l) := by
  induction n generalizing answers l with
  | zero =>
    have htimeout : amHalStatusTimeout ≠ amHalStatusSuccess := by decide
    have hnone : ∀ j, ¬ Waits answers 0 j := fun j h => Nat.not_lt_zero j h.1
    have hend := hfail hnone amHalStatusTimeout ((), answers) 0 htimeout
    rwa [pollLog, List.range_zero, List.map_nil, List.append_nil] at hend
  | succ n ih =>
    -- what the first poll and the polls after it leave in the log
    have hlog : ∀ m, l ++ [(statusRead, answers 0)] ++ pollLog (answers.after 1) m =
        l ++ pollLog answers (m + 1) := by
      intro m
      rw [pollLog_succ, List.append_assoc, List.singleton_append]
    apply cmd_sequence
    by_cases hok : (answers 0).status = amHalStatusSuccess
    · rw [dif_neg (not_ne_iff.mpr hok)]
      cases hoip : oip ((answers 0).bytes 0) with
      | true =>
        have hbusy : (answers 0).ShowsBusy := ⟨hok, hoip⟩
        rw [if_pos rfl]
        -- the delay takes no answer
        show Handler.polls sequenceHandler n (Waited R K)
          (((), answers.after 1), l ++ [(statusRead, answers 0)])
        refine ih (fun k hk => ?_) fun hnone st s m hst => ?_
        · have hnext := hready (k + 1) ((waits_succ hbusy _).mpr ⟨k, rfl, hk⟩)
          rw [hlog, Answers.after_after, Nat.add_comm 1]
          exact hnext
        · rw [hlog]
          refine hfail (fun j hj => ?_) st s (m + 1) hst
          obtain ⟨k, rfl, hk⟩ := (waits_succ hbusy j).mp hj
          exact hnone k hk
      | false =>
        rw [if_neg Bool.false_ne_true]
        exact hready 0 ⟨Nat.succ_pos n, fun i hi => absurd hi (Nat.not_lt_zero i), hok, hoip⟩
    · rw [dif_pos hok]
      exact hfail (not_waits_of_failed hok) _ _ 1 hok

theorem mem_pollLog {n : Nat} {x : NandCmd × Answer} :
    x ∈ pollLog answers n ↔ ∃ i < n, x = (statusRead, answers i) := by
  simp only [pollLog, List.mem_map, List.mem_range]
  exact exists_congr fun i => and_congr_right fun _ => eq_comm

/-- The polls of a wait that ends ready all succeed. -/
theorem Waits.succeeds {n j : Nat} (h : Waits answers n j) :
    Succeeds (pollLog answers (j + 1)) := by
  obtain ⟨-, hbusy, hready⟩ := h
  intro x hx
  obtain ⟨i, hi, rfl⟩ := mem_pollLog.mp hx
  rcases Nat.lt_succ_iff_lt_or_eq.mp hi with hi | rfl
  · exact (hbusy i hi).1
  · exact hready.1

end Sequence

end SpiNand
