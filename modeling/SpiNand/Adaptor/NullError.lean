import SpiNand.Adaptor.Contracts

/-!
# Callbacks without an error pointer

The application may pass `NULL` for `err`. What a callback asks of its surroundings does not
depend on the pointer (`conversation_erase` and its siblings), but on the way to a result of `-1`
the callbacks write through it unconditionally. `nullHarmless_iff` says on which sequences of
answers the write happens.
-/

namespace SpiNand

open Interaction Interaction.Prog

variable {answers : Answers} {d : Driver} {stack : Nat → Answer}

/-- A callback as a function of `err`: its value, and what it sends. With `NULL` it writes
nothing through the pointer, and returns and sends the same as with any pointer. -/
structure NullHarmless {α : Type} (value : α → Int) (m : Option DharaError → DriverM α)
    (d : Driver) (answers : Answers) (stack : Nat → Answer) : Prop where
  no_write : outcome adversary () (m none) d answers stack ≠ .error .nullWrite
  same_value : ∀ e, (outcome adversary () (m none) d answers stack).map value =
    (outcome adversary () (m (some e)) d answers stack).map value
  same_sent : ∀ e, conversation adversary () (m none) d answers stack =
    conversation adversary () (m (some e)) d answers stack

/-! ## What is sent -/

/-- A report asks nothing: neither the assignment of `*err` nor a return does. -/
theorem trace_report {α σ : Type} (env : Environment σ) (c : Prop) [Decidable c]
    (err : Option DharaError) (e : DharaError) (failed : Option DharaError → α) (done : α)
    (d : Driver) (s : σ) :
    ((if c then assignErr err e >>= fun err => pure (failed err) else pure done : DriverM α)
      d).trace env s = [] := by
  split
  · cases err <;> rfl
  · rfl

theorem conversation_erase (b : UInt32) (err err' : Option DharaError) :
    conversation adversary () (dharaNandErase b err) d answers stack =
      conversation adversary () (dharaNandErase b err') d answers stack := by
  apply trace_bind_congr
  intro r s
  rw [trace_report, trace_report]

theorem conversation_prog (p : UInt32) (data : PageData) (err err' : Option DharaError) :
    conversation adversary () (dharaNandProg p data err) d answers stack =
      conversation adversary () (dharaNandProg p data err') d answers stack := by
  apply trace_bind_congr
  intro r s
  rw [trace_report, trace_report]

theorem conversation_read (p offset length : UInt32) (data : List UInt8)
    (err err' : Option DharaError) :
    conversation adversary () (dharaNandRead p offset length data err) d answers stack =
      conversation adversary () (dharaNandRead p offset length data err') d answers stack := by
  apply trace_bind_congr
  intro r s
  apply trace_bind_congr
  rintro ⟨read, d'⟩ s
  dsimp only
  by_cases hst : read.ui32Status ≠ amDevicesMspiFlashStatusSuccess
  · rw [if_pos hst, if_pos hst]
    rfl
  · rw [if_neg hst, if_neg hst, trace_report, trace_report]

theorem conversation_copy (src dst : UInt32) (err err' : Option DharaError) :
    conversation adversary () (dharaNandCopy src dst err) d answers stack =
      conversation adversary () (dharaNandCopy src dst err') d answers stack := by
  apply trace_bind_congr
  intro r s
  apply trace_bind_congr
  rintro ⟨⟨retcode, eccFatal⟩, d'⟩ s
  dsimp only
  by_cases hst : retcode ≠ amDevicesMspiFlashStatusSuccess
  · rw [if_pos hst, if_pos hst]
    rfl
  · rw [if_neg hst, if_neg hst, trace_report, trace_report]

/-! ## Erase and program -/

/-- An erase succeeds: its commands do, and its wait ends ready with the failure bit clear. -/
def EraseSucceeds (answers : Answers) : Prop :=
  (answers 0).status = amHalStatusSuccess ∧ (answers 1).status = amHalStatusSuccess ∧
    ∃ j, Waits (answers.after 2) (pollBudget eraseTimeUs) j ∧
      eFail ((answers.after 2 j).bytes 0) = false

/-- A program succeeds. -/
def ProgramSucceeds (answers : Answers) : Prop :=
  (answers 0).status = amHalStatusSuccess ∧ (answers 1).status = amHalStatusSuccess ∧
    (answers 2).status = amHalStatusSuccess ∧ (answers 3).status = amHalStatusSuccess ∧
    ∃ j, Waits (answers.after 4) (pollBudget programTimeUs) j ∧
      pFail ((answers.after 4 j).bytes 0) = false

/-- The end of an operation that looks at a failure bit, as success. -/
theorem failBit_success_iff {failed : Bool} :
    (if failed then amHalStatusHwErr else amHalStatusSuccess) = amHalStatusSuccess ↔
      failed = false := by
  cases failed <;> decide

theorem device_eraseBlock (b : UInt16) :
    wpS adversary.handler (fun _ _ => False) (nandEraseBlock b)
      (fun st _ => st = amHalStatusSuccess ↔ EraseSucceeds answers) ((), answers) := by
  apply wpS_eraseBlock
  refine device_sent (by nofun) (fun henable => ?_) fun hfail st s hst =>
    iff_of_false hst fun h => hfail h.1
  refine device_sent (by nofun) (fun herase => ?_) fun hfail st s hst =>
    iff_of_false hst fun h => hfail h.2.1
  refine device_wait (fun j hwait => ?_) fun hnone st s hst =>
    iff_of_false hst fun ⟨_, _, j, hj, _⟩ => hnone j hj
  rw [failBit_success_iff]
  constructor
  · intro hclear
    exact ⟨henable, herase, j, hwait, hclear⟩
  · rintro ⟨-, -, j', hwait', hclear⟩
    obtain rfl := hwait'.unique hwait
    exact hclear

theorem device_progPage (p : UInt32) (data : PageData) :
    wpS adversary.handler (fun _ _ => False) (nandProgPage p data)
      (fun st _ => st = amHalStatusSuccess ↔ ProgramSucceeds answers) ((), answers) := by
  apply wpS_progPage
  refine device_sent (by nofun) (fun henable => ?_) fun hfail st s hst =>
    iff_of_false hst fun h => hfail h.1
  refine device_sent (by nofun) (fun hload => ?_) fun hfail st s hst =>
    iff_of_false hst fun h => hfail h.2.1
  refine device_sent (by nofun) (fun henable' => ?_) fun hfail st s hst =>
    iff_of_false hst fun h => hfail h.2.2.1
  refine device_sent (by nofun) (fun hexecute => ?_) fun hfail st s hst =>
    iff_of_false hst fun h => hfail h.2.2.2.1
  refine device_wait (fun j hwait => ?_) fun hnone st s hst =>
    iff_of_false hst fun ⟨_, _, _, _, j, hj, _⟩ => hnone j hj
  rw [failBit_success_iff]
  constructor
  · intro hclear
    exact ⟨henable, hload, henable', hexecute, j, hwait, hclear⟩
  · rintro ⟨-, -, -, -, j', hwait', hclear⟩
    obtain rfl := hwait'.unique hwait
    exact hclear

/-- A callback that reports the status of its operation as `badBlock`. -/
theorem report_outcome {m : DriverM Status} {succeeds : Prop} [Decidable succeeds]
    (h : wpS adversary.handler (fun _ _ => False) m
      (fun st _ => st = amHalStatusSuccess ↔ succeeds) ((), answers)) (err : Option DharaError) :
    outcome adversary () (m >>= fun retcode =>
      if retcode ≠ amDevicesMspiFlashStatusSuccess then
        assignErr err .badBlock >>= fun err => pure ((-1 : Int), err)
      else pure (0, err)) d answers stack =
      if succeeds then .ok (0, err) else failWith err .badBlock := by
  apply outcome_eq
  apply wpS_bind
  apply wpS_weaken h (fun _ _ => False.elim)
  intro st s hst
  apply wpS_ite
  · intro hfail
    rw [if_neg fun hok => hfail (hst.mpr hok)]
    exact wpS_bind (wpS_mono wpS_assignErr fun err' s' h => wpS_pure h)
  · intro hok
    apply wpS_pure
    rw [if_pos (hst.mp (not_ne_iff.mp hok))]

/-! ## When `NULL` is harmless -/

section Harmless

variable {α : Type} {value : α → Int} {m : Option DharaError → DriverM α}

/-- A callback whose value does not depend on the pointer. -/
theorem nullHarmless_of_value {v : Int}
    (hsent : ∀ err err', conversation adversary () (m err) d answers stack =
      conversation adversary () (m err') d answers stack)
    (h : ∀ err, (outcome adversary () (m err) d answers stack).map value = .ok v) :
    NullHarmless value m d answers stack where
  no_write hwrite := by
    have hnone := h none
    rw [hwrite] at hnone
    exact nomatch hnone
  same_value e := (h none).trans (h (some e)).symm
  same_sent e := hsent none (some e)

/-- A callback that writes through the pointer. -/
theorem not_nullHarmless (h : (outcome adversary () (m none) d answers stack).map value =
    .error .nullWrite) : ¬ NullHarmless value m d answers stack := by
  intro hharmless
  cases hnone : outcome adversary () (m none) d answers stack with
  | ok r =>
    rw [hnone] at h
    exact nomatch h
  | error e =>
    rw [hnone] at h
    have hnull := Except.error.inj h
    subst hnull
    exact hharmless.no_write hnone

/-- A callback with a condition under which it writes, and a value where it does not. -/
theorem nullHarmless_iff_not {writes : Prop}
    (hsent : ∀ err err', conversation adversary () (m err) d answers stack =
      conversation adversary () (m err') d answers stack)
    (hvalue : ¬ writes → ∃ v, ∀ err,
      (outcome adversary () (m err) d answers stack).map value = .ok v)
    (hwrites : writes →
      (outcome adversary () (m none) d answers stack).map value = .error .nullWrite) :
    NullHarmless value m d answers stack ↔ ¬ writes := by
  constructor
  · intro h hw
    exact not_nullHarmless (hwrites hw) h
  · intro hw
    obtain ⟨v, hv⟩ := hvalue hw
    exact nullHarmless_of_value hsent hv

/-- A callback that reports the status of its operation. -/
theorem nullHarmless_iff_succeeds {succeeds : Prop}
    {report : Option DharaError → DriverM (Int × Option DharaError)}
    (hsent : ∀ err err', conversation adversary () (report err) d answers stack =
      conversation adversary () (report err') d answers stack)
    (hout : ∀ (_ : Decidable succeeds) err, outcome adversary () (report err) d answers stack =
      if succeeds then .ok (0, err) else failWith err .badBlock) :
    NullHarmless Prod.fst report d answers stack ↔ succeeds := by
  classical
  have hiff : NullHarmless Prod.fst report d answers stack ↔ ¬ ¬ succeeds := by
    apply nullHarmless_iff_not hsent
    · intro hok
      refine ⟨0, fun err => ?_⟩
      rw [hout inferInstance, if_pos (not_not.mp hok)]
      rfl
    · intro hfail
      rw [hout inferInstance, if_neg hfail]
      rfl
  rw [hiff, not_not]

end Harmless

theorem erase_nullHarmless_iff (b : UInt32) :
    NullHarmless Prod.fst (dharaNandErase b) d answers stack ↔ EraseSucceeds answers :=
  nullHarmless_iff_succeeds (conversation_erase b)
    fun _ err => report_outcome (device_eraseBlock b.toUInt16) err

theorem prog_nullHarmless_iff (p : UInt32) (data : PageData) :
    NullHarmless Prod.fst (dharaNandProg p data) d answers stack ↔ ProgramSucceeds answers :=
  nullHarmless_iff_succeeds (conversation_prog p data)
    fun _ err => report_outcome (device_progPage p data) err

/-- The page read succeeds, and its status shows an uncorrectable error. -/
def ReadsUncorrectable (answers : Answers) : Prop :=
  ∃ j, Reads answers j ∧ nandStatusToEcc ((answers (j + 1)).bytes 0) = .fatal

/-- The value of a read, without the buffer. -/
theorem readOutcome_value (p offset length : UInt32) (data : List UInt8)
    (err : Option DharaError) :
    (outcome adversary () (dharaNandRead p offset length data err) d answers stack).map Prod.fst =
      (readOutcome p offset length data err d answers stack).map Prod.fst := by
  unfold readOutcome
  cases outcome adversary () (dharaNandRead p offset length data err) d answers stack <;> rfl

theorem read_nullHarmless_iff (p offset length : UInt32) (data : List UInt8) :
    NullHarmless Prod.fst (dharaNandRead p offset length data) d answers stack ↔
      ¬ ReadsUncorrectable answers := by
  apply nullHarmless_iff_not (conversation_read p offset length data)
  · intro hfine
    by_cases hreads : ∃ j, Reads answers j
    · obtain ⟨j, hj⟩ := hreads
      refine ⟨0, fun err => ?_⟩
      rw [readOutcome_value, read_outcome_of_reads hj, if_neg fun hfatal => hfine ⟨j, hj, hfatal⟩]
      rfl
    · refine ⟨-1, fun err => ?_⟩
      rw [readOutcome_value, read_outcome_of_not_reads (not_exists.mp hreads)]
      rfl
  · rintro ⟨j, hj, hfatal⟩
    rw [readOutcome_value, read_outcome_of_reads hj, if_pos hfatal]
    rfl

/-- The copy succeeds, and the flag it does not write is set on the stack. -/
def CopiesOntoGarbage (answers : Answers) (stack : Nat → Answer) : Prop :=
  (∃ j k, Copies answers j k) ∧ (stack 0).bytes 0 ≠ 0

theorem copy_nullHarmless_iff (src dst : UInt32) :
    NullHarmless Prod.fst (dharaNandCopy src dst) d answers stack ↔
      ¬ CopiesOntoGarbage answers stack := by
  apply nullHarmless_iff_not (conversation_copy src dst)
  · intro hfine
    by_cases hcopies : ∃ j k, Copies answers j k
    · have hclean : ¬ (stack 0).bytes 0 ≠ 0 := fun hgarbage => hfine ⟨hcopies, hgarbage⟩
      obtain ⟨j, k, h⟩ := hcopies
      refine ⟨0, fun err => ?_⟩
      rw [copy_outcome_of_copies h, if_neg hclean]
      rfl
    · refine ⟨-1, fun err => ?_⟩
      rw [copy_outcome_of_not_copies fun j k h => hcopies ⟨j, k, h⟩]
      rfl
  · rintro ⟨⟨j, k, h⟩, hgarbage⟩
    rw [copy_outcome_of_copies h, if_pos hgarbage]
    rfl

/-- **When `err = NULL` is harmless.** For an erase and a program, exactly where the operation
succeeds; for a read, unless the page it read is uncorrectable; and for a copy, unless it succeeds
with the adaptor's uninitialised flag set. Everywhere else the callback writes through `NULL`. -/
theorem nullHarmless_iff (d : Driver) (answers : Answers) (stack : Nat → Answer) :
    (∀ b, NullHarmless Prod.fst (dharaNandErase b) d answers stack ↔ EraseSucceeds answers) ∧
    (∀ p data, NullHarmless Prod.fst (dharaNandProg p data) d answers stack ↔
      ProgramSucceeds answers) ∧
    (∀ p offset length data,
      NullHarmless Prod.fst (dharaNandRead p offset length data) d answers stack ↔
        ¬ ReadsUncorrectable answers) ∧
    (∀ src dst, NullHarmless Prod.fst (dharaNandCopy src dst) d answers stack ↔
      ¬ CopiesOntoGarbage answers stack) :=
  ⟨erase_nullHarmless_iff, prog_nullHarmless_iff, read_nullHarmless_iff, copy_nullHarmless_iff⟩

/-- Every transfer succeeds, and the status after the PAGE_READ shows an uncorrectable page. -/
def uncorrectablePage : Answers
  | 1 => ⟨amHalStatusSuccess, fun _ => 0x20⟩
  | _ => .zero

/-- Reading that page without an error pointer writes through `NULL`. -/
theorem read_writes_through_null :
    (outcome adversary () (dharaNandRead 0 0 4 [0, 0, 0, 0] none) Driver.initial uncorrectablePage
        fun _ => .zero).map Prod.fst = .error .nullWrite ∧
      ¬ NullHarmless Prod.fst (dharaNandRead 0 0 4 [0, 0, 0, 0]) Driver.initial uncorrectablePage
        fun _ => .zero := by
  have hreads : Reads uncorrectablePage 0 := by
    refine ⟨rfl, ⟨by decide, fun i hi => absurd hi (Nat.not_lt_zero i), rfl, ?_⟩, rfl⟩
    decide
  have hfatal : nandStatusToEcc ((uncorrectablePage 1).bytes 0) = .fatal := by decide
  have hwrites : (outcome adversary () (dharaNandRead 0 0 4 [0, 0, 0, 0] none) Driver.initial
      uncorrectablePage fun _ => .zero).map Prod.fst = .error .nullWrite := by
    rw [readOutcome_value, read_outcome_of_reads hreads, if_pos hfatal]
    rfl
  exact ⟨hwrites, not_nullHarmless hwrites⟩

end SpiNand
