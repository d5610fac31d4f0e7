import SpiNand.Bus.Logs
import SpiNand.Adaptor.Contracts

/-!
# What a page copy may lose

`nand_copy_page` looks at the ECC field of the status that ended its read, and not at the failure
bit of the status that ended its program. Where the caller gave no pointer for the ECC flag it
goes on after an uncorrectable read. `copyPage_noSilentLoss_iff` says on which sequences of
answers one of the two loses data without a word.
-/

namespace SpiNand

open Interaction Interaction.Prog

/-- The source was read: the PAGE_READ succeeded, and its wait ended with the `j`-th poll. -/
def SourceRead (answers : Answers) (j : Nat) : Prop :=
  (answers 0).status = amHalStatusSuccess ∧ Waits (answers.after 1) (pollBudget pageReadTimeUs) j

/-- The ECC field of the status that ended the read, for a read that ended with the `j`-th poll. -/
def sourceEcc (answers : Answers) (j : Nat) : UInt8 := eccField ((answers (j + 1)).bytes 0)

/-- The page that was read can be corrected, or needs no correction. -/
def Correctable (answers : Answers) (j : Nat) : Prop := sourceEcc answers j ∈ [0, 1, 3, 5]

/-- A copy that returned `st` and sent `l` lost nothing without saying so: success means that
every transfer succeeded, the source was correctable, and the program ended ready with its
failure bit clear; and an uncorrectable source is not programmed. -/
structure NoSilentLoss (destPageAddr : UInt32) (answers : Answers) (st : Status) (l : Log) :
    Prop where
  success : st = amHalStatusSuccess → Succeeds l ∧ ∃ j k, SourceRead answers j ∧
    Correctable answers j ∧ Waits ((answers.after (j + 2)).after 3) (pollBudget programTimeUs) k ∧
    pFail (programStatus answers j k) = false
  uncorrectable : ∀ j, SourceRead answers j → ¬ Correctable answers j →
    ∀ x ∈ l, x.1 ≠ .programExecute (rowOf destPageAddr)

/-- The source is uncorrectable, and the WRITE_ENABLE and the PROGRAM_LOAD_RANDOM after its read
would succeed. -/
def UncorrectableReachesProgram (answers : Answers) : Prop :=
  ∃ j, SourceRead answers j ∧ ¬ Correctable answers j ∧
    (answers.after (j + 2) 0).status = amHalStatusSuccess ∧
    (answers.after (j + 2) 1).status = amHalStatusSuccess

/-- The answers on which a copy loses nothing without saying so. -/
def CopySafe (answers : Answers) (eccFatal : Option Bool) : Prop :=
  ¬ CopyProgramFails answers ∧ ¬ (eccFatal = none ∧ UncorrectableReachesProgram answers)

section Copy

variable {answers : Answers} {destPageAddr : UInt32} {eccFatal : Option Bool} {st : Status}
  {l : Log} {j j' k : Nat}

theorem SourceRead.unique (h : SourceRead answers j) (h' : SourceRead answers k) : j = k :=
  h.2.unique h'.2

/-- A copy that succeeds writes back what this read left in the cache. -/
theorem Copies.writesBack (h : Copies answers j' k) (hj : SourceRead answers j) :
    WritesBack (answers.after (j + 2)) k := by
  obtain rfl := hj.unique ⟨h.1, h.2.1⟩
  exact h.2.2.2

theorem correctable_iff :
    Correctable answers j ↔ nandStatusToEcc ((answers (j + 1)).bytes 0) ≠ .fatal := by
  rw [Ne, nandStatusToEcc_eq_fatal_iff, not_not]
  rfl

/-- The program of the copy is not in the log. -/
def Unprogrammed (destPageAddr : UInt32) (l : Log) : Prop :=
  ∀ x ∈ l, x.1 ≠ .programExecute (rowOf destPageAddr)

/-- The program of the copy is in the log. -/
def Programmed (destPageAddr : UInt32) (l : Log) : Prop :=
  ∃ x ∈ l, x.1 = .programExecute (rowOf destPageAddr)

theorem programmed_command (l : Log) (a : Answer) :
    Programmed destPageAddr (l ++ [(.programExecute (rowOf destPageAddr), a)]) :=
  ⟨_, List.mem_append_right l (List.mem_singleton_self _), rfl⟩

theorem Programmed.append (h : Programmed destPageAddr l) (l' : Log) :
    Programmed destPageAddr (l ++ l') := by
  obtain ⟨x, hx, heq⟩ := h
  exact ⟨x, List.mem_append_left l' hx, heq⟩

/-- A copy that did not succeed and did not get to the program. -/
theorem noSilentLoss_of_not_programmed (hst : st ≠ amHalStatusSuccess)
    (hl : Unprogrammed destPageAddr l) : NoSilentLoss destPageAddr answers st l where
  success hok := absurd hok hst
  uncorrectable _ _ _ := hl

/-- A copy that got to the program. -/
theorem noSilentLoss_iff_of_programmed (hj : SourceRead answers j)
    (hl : Programmed destPageAddr l) :
    NoSilentLoss destPageAddr answers st l ↔ Correctable answers j ∧
      (st = amHalStatusSuccess → Succeeds l ∧
        ∃ k, Waits ((answers.after (j + 2)).after 3) (pollBudget programTimeUs) k ∧
          pFail (programStatus answers j k) = false) := by
  constructor
  · intro h
    have hcorr : Correctable answers j := by
      by_contra hun
      obtain ⟨x, hx, heq⟩ := hl
      exact h.uncorrectable j hj hun x hx heq
    refine ⟨hcorr, fun hok => ?_⟩
    obtain ⟨hall, j', k, hj', -, hk, hclear⟩ := h.success hok
    obtain rfl := hj.unique hj'
    exact ⟨hall, k, hk, hclear⟩
  · rintro ⟨hcorr, hsuccess⟩
    constructor
    · intro hok
      obtain ⟨hall, k, hk, hclear⟩ := hsuccess hok
      exact ⟨hall, j, k, hj, hcorr, hk, hclear⟩
    · intro j' hj' hun
      obtain rfl := hj.unique hj'
      exact absurd hcorr hun

/-- Answers on which no copy succeeds and no uncorrectable page is programmed. -/
theorem copySafe_of_not (hcopies : ∀ j k, ¬ Copies answers j k)
    (hreach : eccFatal = none → ¬ UncorrectableReachesProgram answers) :
    CopySafe answers eccFatal :=
  ⟨fun ⟨j, k, h, _⟩ => hcopies j k h, fun ⟨hnone, h⟩ => hreach hnone h⟩

/-- Where the commands up to the program succeed. -/
theorem copySafe_iff_of_loaded (hj : SourceRead answers j)
    (hgo : Correctable answers j ∨ eccFatal = none)
    (henable : (answers.after (j + 2) 0).status = amHalStatusSuccess)
    (hload : (answers.after (j + 2) 1).status = amHalStatusSuccess) :
    CopySafe answers eccFatal ↔ Correctable answers j ∧ ¬ CopyProgramFails answers := by
  constructor
  · rintro ⟨hfails, hreach⟩
    refine ⟨?_, hfails⟩
    by_contra hun
    exact hreach ⟨hgo.resolve_left hun, j, hj, hun, henable, hload⟩
  · rintro ⟨hcorr, hfails⟩
    refine ⟨hfails, ?_⟩
    rintro ⟨-, j', hj', hun, -⟩
    obtain rfl := hj.unique hj'
    exact hun hcorr

theorem Unprogrammed.command (h : Unprogrammed destPageAddr l) {c : NandCmd} {a : Answer}
    (hc : c ≠ .programExecute (rowOf destPageAddr)) :
    Unprogrammed destPageAddr (l ++ [(c, a)]) := by
  intro x hx
  rcases List.mem_append.mp hx with hx | hx
  · exact h x hx
  · rw [List.mem_singleton.mp hx]
    exact hc

theorem Unprogrammed.polls (h : Unprogrammed destPageAddr l) (answers : Answers) (n : Nat) :
    Unprogrammed destPageAddr (l ++ pollLog answers n) := by
  intro x hx
  rcases List.mem_append.mp hx with hx | hx
  · exact h x hx
  · obtain ⟨i, -, rfl⟩ := mem_pollLog.mp hx
    nofun

/-- What is verified of a copy, whatever its exit. -/
def CopyPost (destPageAddr : UInt32) (answers : Answers) (eccFatal : Option Bool) (st : Status)
    (l : Log) : Prop :=
  NoSilentLoss destPageAddr answers st l ↔ CopySafe answers eccFatal

/-- An exit before the program, with answers on which no copy succeeds. -/
theorem copyPost_unprogrammed (hst : st ≠ amHalStatusSuccess)
    (hl : Unprogrammed destPageAddr l) (hcopies : ∀ j k, ¬ Copies answers j k)
    (hreach : eccFatal = none → ¬ UncorrectableReachesProgram answers) :
    CopyPost destPageAddr answers eccFatal st l :=
  iff_of_true (noSilentLoss_of_not_programmed hst hl) (copySafe_of_not hcopies hreach)

section Programmed

variable (hj : SourceRead answers j) (hgo : Correctable answers j ∨ eccFatal = none)
  (henable : (answers.after (j + 2) 0).status = amHalStatusSuccess)
  (hload : (answers.after (j + 2) 1).status = amHalStatusSuccess)
  (hl : Programmed destPageAddr l)
include hj hgo henable hload hl

/-- An exit with an error after the program was started. -/
theorem copyPost_failed (hst : st ≠ amHalStatusSuccess) (hcopies : ∀ j k, ¬ Copies answers j k) :
    CopyPost destPageAddr answers eccFatal st l := by
  have hfails : ¬ CopyProgramFails answers := fun ⟨j, k, h, _⟩ => hcopies j k h
  unfold CopyPost
  rw [noSilentLoss_iff_of_programmed hj hl, copySafe_iff_of_loaded hj hgo henable hload]
  exact and_congr_right fun _ => iff_of_true (fun hok => absurd hok hst) hfails

/-- The exit with success. -/
theorem copyPost_succeeded (hall : Succeeds l)
    (hk : Waits ((answers.after (j + 2)).after 3) (pollBudget programTimeUs) k)
    (hcopies : Correctable answers j → Copies answers j k) :
    CopyPost destPageAddr answers eccFatal amHalStatusSuccess l := by
  unfold CopyPost
  rw [noSilentLoss_iff_of_programmed hj hl, copySafe_iff_of_loaded hj hgo henable hload]
  refine and_congr_right fun hcorr => ?_
  constructor
  · intro h
    obtain ⟨-, k', hk', hclear⟩ := h rfl
    obtain rfl := hk.unique hk'
    rintro ⟨j', k', hcopy, hfail⟩
    obtain rfl := hj.unique ⟨hcopy.1, hcopy.2.1⟩
    obtain rfl := hk.unique hcopy.2.2.2.2.2.2
    exact Bool.noConfusion (hclear.symm.trans hfail)
  · intro h _
    refine ⟨hall, k, hk, ?_⟩
    cases hbit : pFail (programStatus answers j k) with
    | false => rfl
    | true => exact absurd ⟨j, k, hcopies hcorr, hbit⟩ h

end Programmed

/-- The part of the copy after its read. -/
theorem sequence_copyWriteBack (hj : SourceRead answers j)
    (hgo : Correctable answers j ∨ eccFatal = none) (hall : Succeeds l)
    (hl : Unprogrammed destPageAddr l) :
    Handler.cmd sequenceHandler .writeEnable
      (Sent (fun st s => CopyPost destPageAddr answers eccFatal st s.2) <|
      Handler.cmd sequenceHandler (.programLoadRandom 0 []) <|
      Sent (fun st s => CopyPost destPageAddr answers eccFatal st s.2) <|
      Handler.cmd sequenceHandler (.programExecute (rowOf destPageAddr)) <|
      Sent (fun st s => CopyPost destPageAddr answers eccFatal st s.2) <|
      Handler.polls sequenceHandler (pollBudget programTimeUs) <|
      Waited (fun st s => CopyPost destPageAddr answers eccFatal st s.2) fun _ s =>
        CopyPost destPageAddr answers eccFatal amHalStatusSuccess s.2)
      (((), answers.after (j + 2)), l) := by
  refine sequence_sent (fun henable => ?_) fun s hfail => ?_
  swap
  · refine copyPost_unprogrammed hfail (hl.command nofun) (fun j' k h => ?_) ?_
    · exact hfail (h.writesBack hj).1
    · rintro - ⟨j', hj', -, henable, -⟩
      obtain rfl := hj.unique hj'
      exact hfail henable
  have hl₁ := hl.command (c := .writeEnable) (a := answers.after (j + 2) 0) nofun
  have hall₁ := hall.append (succeeds_singleton (c := .writeEnable) henable)
  refine sequence_sent (fun hload => ?_) fun s hfail => ?_
  swap
  · refine copyPost_unprogrammed hfail (hl₁.command nofun) (fun j' k h => ?_) ?_
    · exact hfail (h.writesBack hj).2.1
    · rintro - ⟨j', hj', -, -, hload⟩
      obtain rfl := hj.unique hj'
      exact hfail hload
  have hall₂ := hall₁.append (succeeds_singleton (c := .programLoadRandom 0 []) hload)
  refine sequence_sent (fun hexecute => ?_) fun s hfail => ?_
  swap
  · -- from here on the program is in the log
    refine copyPost_failed hj hgo henable hload (programmed_command _ _) hfail fun j' k h => ?_
    exact hfail (h.writesBack hj).2.2.1
  have hall₃ := hall₂.append
    (succeeds_singleton (c := .programExecute (rowOf destPageAddr)) hexecute)
  refine sequence_wait (fun k hk => ?_) fun hnone st s m hst => ?_
  · refine copyPost_succeeded hj hgo henable hload ((programmed_command _ _).append _)
      (hall₃.append hk.succeeds) hk fun hcorr => ?_
    exact ⟨hj.1, hj.2, correctable_iff.mp hcorr, henable, hload, hexecute, hk⟩
  · refine copyPost_failed hj hgo henable hload ((programmed_command _ _).append _) hst
      fun j' k h => ?_
    exact hnone k (h.writesBack hj).2.2.2

/-- Every exit of the copy. -/
theorem sequence_copyPage (srcPageAddr destPageAddr : UInt32) (eccFatal : Option Bool)
    (answers : Answers) :
    wpS sequenceHandler (fun _ _ => False) (nandCopyPage srcPageAddr destPageAddr eccFatal)
      (fun r s => CopyPost destPageAddr answers eccFatal r.1 s.2) (((), answers), []) := by
  apply wpS_copyPage
  have hl : Unprogrammed destPageAddr ([] ++ [(.pageRead (rowOf srcPageAddr), answers 0)]) :=
    Unprogrammed.command (fun x hx => absurd hx List.not_mem_nil) nofun
  refine sequence_sent (fun hread => ?_) fun s hfail => ?_
  swap
  · refine copyPost_unprogrammed hfail hl (fun j k h => hfail h.1) ?_
    rintro - ⟨j, hj, -⟩
    exact hfail hj.1
  refine sequence_wait (fun j hwait => ?_) fun hnone st s m hst => ?_
  swap
  · refine copyPost_unprogrammed hst (hl.polls _ _) (fun j k h => hnone j h.2.1) ?_
    rintro - ⟨j, hj, -⟩
    exact hnone j hj.2
  have hj : SourceRead answers j := ⟨hread, hwait⟩
  have hstatus : answers.after 1 j = answers (j + 1) := rfl
  rw [hstatus, Answers.after_after, Nat.add_comm 1]
  by_cases htold : nandStatusToEcc ((answers (j + 1)).bytes 0) = .fatal ∧ eccFatal ≠ none
  · -- an uncorrectable source, and somebody to tell
    rw [if_pos htold]
    have herr : amHalStatusHwErr ≠ amHalStatusSuccess := by decide
    refine copyPost_unprogrammed herr (hl.polls _ _) (fun j' k h => ?_) fun hnone => ?_
    · obtain rfl := hj.unique ⟨h.1, h.2.1⟩
      exact h.2.2.1 htold.1
    · exact absurd hnone htold.2
  · rw [if_neg htold]
    have hgo : Correctable answers j ∨ eccFatal = none := by
      rw [correctable_iff]
      by_contra hneither
      rw [not_or, not_not] at hneither
      exact htold hneither
    have hall : Succeeds ([] ++ [(.pageRead (rowOf srcPageAddr), answers 0)]) :=
      succeeds_singleton hread
    exact sequence_copyWriteBack hj hgo (hall.append hwait.succeeds) (hl.polls _ _)

end Copy

/-- **When a copy loses nothing silently.** On every sequence of answers the copy returns, and it
keeps to `NoSilentLoss` if and only if the program does not fail after a copy that got through,
and no uncorrectable source reaches the program for want of a pointer. -/
theorem copyPage_noSilentLoss_iff (srcPageAddr destPageAddr : UInt32) (eccFatal : Option Bool)
    (answers : Answers) (d : Driver) (stack : Nat → Answer) :
    let copy := nandCopyPage srcPageAddr destPageAddr eccFatal
    ∃ r : Status × Option Bool, outcome adversary () copy d answers stack = .ok r ∧
      (NoSilentLoss destPageAddr answers r.1
          (cmdLog (conversation adversary () copy d answers stack)) ↔
        CopySafe answers eccFatal) :=
  outcome_logged
    (R := fun (r : Status × Option Bool) l => CopyPost destPageAddr answers eccFatal r.1 l)
    (sequence_copyPage srcPageAddr destPageAddr eccFatal answers) d stack

/-- Every transfer succeeds and the chip is always ready, and the status after the program has its
failure bit set. -/
def failedProgram : Answers
  | 5 => ⟨amHalStatusSuccess, fun _ => featureRegStatusPFailMask⟩
  | _ => .zero

theorem copies_failedProgram : Copies failedProgram 0 0 := by
  have hfirst : ∀ {answers : Answers}, ∀ i < 0, (answers i).ShowsBusy :=
    fun i hi => absurd hi (Nat.not_lt_zero i)
  refine ⟨rfl, ⟨by decide, hfirst, rfl, by decide⟩, by decide, rfl, rfl, rfl, ?_⟩
  exact ⟨by decide, hfirst, rfl, by decide⟩

/-- That copy returns success. -/
theorem copyPage_reports_failed_program :
    ∃ r : Status × Option Bool, outcome adversary () (nandCopyPage 0 64 (some false))
        Driver.initial failedProgram (fun _ => .zero) = .ok r ∧
      r.1 = amHalStatusSuccess ∧
      ¬ NoSilentLoss 64 failedProgram r.1 (cmdLog (conversation adversary ()
        (nandCopyPage 0 64 (some false)) Driver.initial failedProgram fun _ => .zero)) := by
  have hreturns : outcome adversary () (nandCopyPage 0 64 (some false)) Driver.initial
      failedProgram (fun _ => .zero) = .ok (amHalStatusSuccess, some false) := by
    apply outcome_eq
    apply device_copyPage
    · intro j k _ s
      rfl
    · intro hnone
      exact absurd copies_failedProgram (hnone 0 0)
  obtain ⟨r, hr, hpost⟩ := outcome_logged
    (R := fun (r : Status × Option Bool) l => CopyPost 64 failedProgram (some false) r.1 l)
    (sequence_copyPage 0 64 (some false) failedProgram) Driver.initial fun _ => .zero
  obtain rfl := Except.ok.inj (hreturns.symm.trans hr)
  refine ⟨_, hr, rfl, fun hsafe => ?_⟩
  have hfails : CopyProgramFails failedProgram := ⟨0, 0, copies_failedProgram, by decide⟩
  exact (hpost.mp hsafe).1 hfails

end SpiNand
