import SpiNand.Adaptor.Outcomes

/-!
# The contracts of the Dhara callbacks

Two properties of the callbacks, each for every sequence of answers.

* **Errors.** A call returns 0 and leaves `*err` alone, or returns -1 and assigns it, with the
  code of the cause (`MeetsContract`). `dhara_nand_erase` and `dhara_nand_prog` keep to this;
  `dhara_nand_read` and `dhara_nand_copy` return -1 with `*err` as it was wherever the driver's
  read or copy fails (`errorContract_iff`).
* **Stack.** What a call returns depends on nothing that was on the stack. `nand_copy_page`
  writes `*ecc_fatal` only where it fails, so after a copy that succeeds `dhara_nand_copy`
  decides on a variable that nobody has written (`decidedByAnswers_iff`).
-/

namespace SpiNand

open Interaction Interaction.Prog

variable {answers : Answers} {d : Driver} {stack : Nat → Answer}

/-! ## Errors -/

/-- What a callback does, as a function of the initial `*err`. -/
abbrev Callback := DharaError → Except Halt (Int × Option DharaError)

/-- The call returns 0 with `*err` unchanged, or -1 with a value of `*err` that does not depend on
the initial one: `ecc` where the cause is an uncorrectable page, and `badBlock` where an erase
or a program failed. -/
def MeetsContract (f : Callback) (uncorrectable failed : Prop) : Prop :=
  ∀ e₀, ∃ ret e, f e₀ = .ok (ret, some e) ∧
    (ret = 0 ∧ e = e₀ ∨
      ret = -1 ∧ (∀ e₁, f e₁ = .ok (-1, some e)) ∧ (uncorrectable → e = .ecc) ∧
        (failed → e = .badBlock))

/-- A callback on the adversary's answers. -/
def callback (m : Option DharaError → DriverM (Int × Option DharaError)) (d : Driver)
    (answers : Answers) (stack : Nat → Answer) : Callback :=
  fun e => outcome adversary () (m (some e)) d answers stack

/-- `dhara_nand_read` on the adversary's answers. -/
def readCallback (p offset length : UInt32) (data : List UInt8) (d : Driver) (answers : Answers)
    (stack : Nat → Answer) : Callback :=
  fun e => readOutcome p offset length data (some e) d answers stack

/-- The status that ended the wait of the page read shows an uncorrectable error. -/
def ShowsUncorrectable (answers : Answers) : Prop :=
  (answers 0).status = amHalStatusSuccess ∧
    ∃ j, Waits (answers.after 1) (pollBudget pageReadTimeUs) j ∧
      nandStatusToEcc ((answers (j + 1)).bytes 0) = .fatal

/-- The status byte that ended the wait of a copy's program, for a copy with these waits. -/
def programStatus (answers : Answers) (j k : Nat) : UInt8 :=
  (((answers.after (j + 2)).after 3) k).bytes 0

/-- The copy came to its end, and its program failed. -/
def CopyProgramFails (answers : Answers) : Prop :=
  ∃ j k, Copies answers j k ∧ pFail (programStatus answers j k) = true

/-- A call that leaves `*err` alone and returns -1 does not keep the contract. -/
theorem not_meetsContract {f : Callback} {uncorrectable failed : Prop}
    (h : ∀ e, f e = .ok (-1, some e)) : ¬ MeetsContract f uncorrectable failed := by
  intro hf
  -- two initial values that stay different
  obtain ⟨ret, e, heq, ⟨hret, -⟩ | ⟨-, hall, -⟩⟩ := hf .badBlock
  · have hpair := Except.ok.inj ((h .badBlock).symm.trans heq)
    have hzero : (-1 : Int) = 0 := (congrArg Prod.fst hpair).trans hret
    exact absurd hzero (by decide)
  · have hbad := Except.ok.inj ((h .badBlock).symm.trans (hall .badBlock))
    have hecc := Except.ok.inj ((h .ecc).symm.trans (hall .ecc))
    simp only [Prod.mk.injEq, Option.some.injEq, true_and] at hbad hecc
    exact absurd (hbad.trans hecc.symm) (by decide)

/-- A call that returns 0 and leaves `*err` alone keeps it. -/
theorem meetsContract_zero {f : Callback} {uncorrectable failed : Prop}
    (h : ∀ e, f e = .ok (0, some e)) : MeetsContract f uncorrectable failed :=
  fun e₀ => ⟨0, e₀, h e₀, .inl ⟨rfl, rfl⟩⟩

/-- A call that returns -1 with a fixed code keeps it if the code is the right one. -/
theorem meetsContract_code {f : Callback} {uncorrectable failed : Prop} {e : DharaError}
    (h : ∀ e₀, f e₀ = .ok (-1, some e)) (hecc : uncorrectable → e = .ecc)
    (hbad : failed → e = .badBlock) : MeetsContract f uncorrectable failed :=
  fun e₀ => ⟨-1, e, h e₀, .inr ⟨rfl, h, hecc, hbad⟩⟩

/-- `dhara_nand_erase` and `dhara_nand_prog`: an error code of the driver is `badBlock`, and
success leaves `*err` alone. -/
theorem meetsContract_of_status {m : DriverM Status} {failed : Prop}
    (htotal : wpS adversary.handler (fun _ _ => False) m (fun _ _ => True) ((), answers)) :
    MeetsContract (callback (fun err => m >>= fun retcode =>
      if retcode ≠ amDevicesMspiFlashStatusSuccess then
        assignErr err .badBlock >>= fun err => pure ((-1 : Int), err)
      else pure (0, err)) d answers stack) False failed := by
  -- the driver's part does not see `*err`, so it returns one code for all its values
  obtain ⟨retcode, d', s', stack', heval, -⟩ := returns_withStack htotal d stack
  have houtcome : ∀ e₀, callback (fun err => m >>= fun retcode =>
      if retcode ≠ amDevicesMspiFlashStatusSuccess then
        assignErr err .badBlock >>= fun err => pure ((-1 : Int), err)
      else pure (0, err)) d answers stack e₀ =
      .ok (if retcode ≠ amDevicesMspiFlashStatusSuccess then (-1, some .badBlock)
        else (0, some e₀)) := by
    intro e₀
    unfold callback outcome
    beta_reduce
    rw [stateT_bind, eval_bind_ok heval]
    split <;> rfl
  by_cases hst : retcode ≠ amDevicesMspiFlashStatusSuccess
  · refine meetsContract_code (e := .badBlock) (fun e₀ => ?_) False.elim fun _ => rfl
    rw [houtcome e₀, if_pos hst]
  · apply meetsContract_zero
    intro e₀
    rw [houtcome e₀, if_neg hst]

/-- An erase returns, whatever it is answered. -/
theorem erase_total (b : UInt16) : wpS adversary.handler (fun _ _ => False) (nandEraseBlock b)
    (fun _ _ => True) ((), answers) := by
  apply wpS_eraseBlock
  apply device_sent_total (fun _ _ => trivial)
  intro s₁
  apply device_sent_total (fun _ _ => trivial)
  intro s₂
  exact device_wait (fun _ _ => trivial) fun _ _ _ _ => trivial

/-- So does a program. -/
theorem prog_total (p : UInt32) (data : PageData) :
    wpS adversary.handler (fun _ _ => False) (nandProgPage p data)
      (fun _ _ => True) ((), answers) := by
  apply wpS_progPage
  apply device_sent_total (fun _ _ => trivial)
  intro s₁
  apply device_sent_total (fun _ _ => trivial)
  intro s₂
  apply device_sent_total (fun _ _ => trivial)
  intro s₃
  apply device_sent_total (fun _ _ => trivial)
  intro s₄
  exact device_wait (fun _ _ => trivial) fun _ _ _ _ => trivial

theorem erase_meetsContract (b : UInt32) (failed : Prop) :
    MeetsContract (callback (dharaNandErase b) d answers stack) False failed :=
  meetsContract_of_status (erase_total b.toUInt16)

theorem prog_meetsContract (p : UInt32) (data : PageData) (failed : Prop) :
    MeetsContract (callback (dharaNandProg p data) d answers stack) False failed :=
  meetsContract_of_status (prog_total p data)

theorem read_meetsContract_iff (p offset length : UInt32) (data : List UInt8) :
    MeetsContract (readCallback p offset length data d answers stack)
      (ShowsUncorrectable answers) False ↔ ∃ j, Reads answers j := by
  constructor
  · intro h
    by_contra hnone
    refine not_meetsContract (fun e => ?_) h
    exact read_outcome_of_not_reads (fun j hj => hnone ⟨j, hj⟩) p offset length data (some e)
  · rintro ⟨j, hj⟩
    have houtcome : ∀ e, readCallback p offset length data d answers stack e =
        if nandStatusToEcc ((answers (j + 1)).bytes 0) = .fatal then .ok (-1, some .ecc)
        else .ok (0, some e) := fun e => read_outcome_of_reads hj p offset length data (some e)
    by_cases hfatal : nandStatusToEcc ((answers (j + 1)).bytes 0) = .fatal
    · refine meetsContract_code (e := .ecc) (fun e => ?_) (fun _ => rfl) False.elim
      exact (houtcome e).trans (if_pos hfatal)
    · exact meetsContract_zero fun e => (houtcome e).trans (if_neg hfatal)

/-- A copy that succeeds and finds the flag set on the stack: an ECC error is reported, which is
the wrong code if it was the program that failed. -/
theorem copy_garbage_iff {f : Callback} {uncorrectable failed : Prop}
    (h : ∀ e, f e = .ok (-1, some .ecc)) : MeetsContract f uncorrectable failed ↔ ¬ failed := by
  constructor
  · intro hf hfailed
    obtain ⟨ret, e, heq, hcases⟩ := hf .badBlock
    have hpair := Except.ok.inj ((h .badBlock).symm.trans heq)
    obtain ⟨rfl, rfl⟩ : -1 = ret ∧ DharaError.ecc = e := by simpa using hpair
    rcases hcases with ⟨hzero, -⟩ | ⟨-, -, -, hbad⟩
    · exact absurd hzero (by decide)
    · exact absurd (hbad hfailed) (by decide)
  · exact fun hfailed => meetsContract_code h (fun _ => rfl) fun hf => absurd hf hfailed

theorem copy_meetsContract_iff (src dst : UInt32) :
    MeetsContract (callback (dharaNandCopy src dst) d answers stack)
      (ShowsUncorrectable answers) (CopyProgramFails answers) ↔
      (∃ j k, Copies answers j k) ∧
        ((stack 0).bytes 0 = 0 ∨ ¬ CopyProgramFails answers) := by
  by_cases hcopies : ∃ j k, Copies answers j k
  · obtain ⟨j, k, h⟩ := hcopies
    have houtcome : ∀ e, callback (dharaNandCopy src dst) d answers stack e =
        if (stack 0).bytes 0 ≠ 0 then .ok (-1, some .ecc) else .ok (0, some e) :=
      fun e => copy_outcome_of_copies h src dst (some e)
    rw [and_iff_right ⟨j, k, h⟩]
    -- the copy is done; what the adaptor reports is what it finds in its flag
    by_cases hclean : (stack 0).bytes 0 = 0
    · have hzero : ∀ e, callback (dharaNandCopy src dst) d answers stack e = .ok (0, some e) :=
        fun e => (houtcome e).trans (if_neg (not_not.mpr hclean))
      exact iff_of_true (meetsContract_zero hzero) (.inl hclean)
    · have hecc : ∀ e, callback (dharaNandCopy src dst) d answers stack e =
          .ok (-1, some .ecc) := fun e => (houtcome e).trans (if_pos hclean)
      rw [copy_garbage_iff hecc, or_iff_right hclean]
  · refine iff_of_false (not_meetsContract fun e => ?_) fun h => hcopies h.1
    exact copy_outcome_of_not_copies (fun j k h => hcopies ⟨j, k, h⟩) src dst (some e)

/-- **The error contract.** `dhara_nand_erase` and `dhara_nand_prog` keep it on every sequence of
answers, with `badBlock` as the only code. `dhara_nand_read` keeps it exactly where the page read
succeeds, and `dhara_nand_copy` where the copy does, but for a program failure that an
uninitialised flag turns into an ECC error. -/
theorem errorContract_iff (d : Driver) (answers : Answers) (stack : Nat → Answer) :
    (∀ b, MeetsContract (callback (dharaNandErase b) d answers stack) False True) ∧
    (∀ p data, MeetsContract (callback (dharaNandProg p data) d answers stack) False True) ∧
    (∀ p offset length data, MeetsContract (readCallback p offset length data d answers stack)
      (ShowsUncorrectable answers) False ↔ ∃ j, Reads answers j) ∧
    (∀ src dst, MeetsContract (callback (dharaNandCopy src dst) d answers stack)
      (ShowsUncorrectable answers) (CopyProgramFails answers) ↔
      (∃ j k, Copies answers j k) ∧
        ((stack 0).bytes 0 = 0 ∨ ¬ CopyProgramFails answers)) :=
  ⟨fun b => erase_meetsContract b True, fun p data => prog_meetsContract p data True,
    read_meetsContract_iff, copy_meetsContract_iff⟩

/-- No transfer gets through: a read returns -1, and `*err` is not assigned. -/
theorem read_failed_leaves_err :
    ¬ MeetsContract (readCallback 0 0 4 [0, 0, 0, 0] Driver.initial (fun _ => ⟨1, fun _ => 0⟩)
      fun _ => .zero) (ShowsUncorrectable fun _ => ⟨1, fun _ => 0⟩) False := by
  rw [read_meetsContract_iff]
  rintro ⟨j, hread, -⟩
  exact absurd hread (by decide)

/-! ## Stack -/

/-- A result that depends on neither the driver's globals nor the stack. -/
def DecidedByAnswers {α : Type} (f : Driver → (Nat → Answer) → α) : Prop :=
  ∀ d d' stack stack', f d stack = f d' stack'

theorem isBad_decided (b : UInt32) : DecidedByAnswers fun d stack =>
    outcome adversary () (dharaNandIsBad b) d answers stack := by
  intro d d' stack stack'
  by_cases hreads : ∃ j, Reads answers j
  · obtain ⟨j, hj⟩ := hreads
    exact (isBad_outcome_of_reads hj b).trans (isBad_outcome_of_reads hj b).symm
  · have hnone : ∀ j, ¬ Reads answers j := not_exists.mp hreads
    exact (isBad_outcome_of_not_reads hnone b).trans (isBad_outcome_of_not_reads hnone b).symm

theorem isFree_decided (p : UInt32) : DecidedByAnswers fun d stack =>
    outcome adversary () (dharaNandIsFree p) d answers stack := by
  intro d d' stack stack'
  by_cases hreads : ∃ j, Reads answers j
  · obtain ⟨j, hj⟩ := hreads
    exact (isFree_outcome_of_reads hj p).trans (isFree_outcome_of_reads hj p).symm
  · have hnone : ∀ j, ¬ Reads answers j := not_exists.mp hreads
    exact (isFree_outcome_of_not_reads hnone p).trans (isFree_outcome_of_not_reads hnone p).symm

theorem read_decided (p offset length : UInt32) (data : List UInt8) (err : Option DharaError) :
    DecidedByAnswers fun d stack => readOutcome p offset length data err d answers stack := by
  intro d d' stack stack'
  by_cases hreads : ∃ j, Reads answers j
  · obtain ⟨j, hj⟩ := hreads
    exact (read_outcome_of_reads hj p offset length data err).trans
      (read_outcome_of_reads hj p offset length data err).symm
  · have hnone : ∀ j, ¬ Reads answers j := not_exists.mp hreads
    exact (read_outcome_of_not_reads hnone p offset length data err).trans
      (read_outcome_of_not_reads hnone p offset length data err).symm

/-- After a copy that succeeds, two contents of the stack lead to two results. -/
theorem not_copy_decided {j k : Nat} (h : Copies answers j k) (src dst : UInt32)
    (err : Option DharaError) : ¬ DecidedByAnswers fun d stack =>
      outcome adversary () (dharaNandCopy src dst err) d answers stack := by
  intro hsame
  have hclean := hsame Driver.initial Driver.initial (fun _ => .zero) fun _ => ⟨0, fun _ => 1⟩
  simp only [copy_outcome_of_copies h] at hclean
  rw [if_neg (by decide), if_pos (by decide)] at hclean
  cases err with
  | none => nomatch hclean
  | some e =>
    have hret : (0 : Int) = -1 := congrArg Prod.fst (Except.ok.inj hclean)
    exact absurd hret (by decide)

theorem copy_decided_iff (src dst : UInt32) (err : Option DharaError) :
    (DecidedByAnswers fun d stack =>
      outcome adversary () (dharaNandCopy src dst err) d answers stack) ↔
      ¬ ∃ j k, Copies answers j k := by
  constructor
  · rintro hsame ⟨j, k, h⟩
    exact not_copy_decided h src dst err hsame
  · intro hcopies d d' stack stack'
    have hnone : ∀ j k, ¬ Copies answers j k := fun j k h => hcopies ⟨j, k, h⟩
    exact (copy_outcome_of_not_copies hnone src dst err).trans
      (copy_outcome_of_not_copies hnone src dst err).symm

/-- **Nothing of the stack shows**, but for the flag of `dhara_nand_copy`: that function's result
depends on the stack exactly where the copy succeeds. -/
theorem decidedByAnswers_iff (answers : Answers) :
    (∀ b, DecidedByAnswers fun d stack =>
      outcome adversary () (dharaNandIsBad b) d answers stack) ∧
    (∀ p, DecidedByAnswers fun d stack =>
      outcome adversary () (dharaNandIsFree p) d answers stack) ∧
    (∀ p offset length data err, DecidedByAnswers fun d stack =>
      readOutcome p offset length data err d answers stack) ∧
    (∀ src dst err, (DecidedByAnswers fun d stack =>
      outcome adversary () (dharaNandCopy src dst err) d answers stack) ↔
      ¬ ∃ j k, Copies answers j k) :=
  ⟨isBad_decided, isFree_decided, read_decided, copy_decided_iff⟩

/-- Every transfer succeeds and the chip is always ready: the copy is reported as failed or not,
by what was on the stack. -/
theorem copy_depends_on_stack :
    outcome adversary () (dharaNandCopy 0 1 (some .none)) Driver.initial (fun _ => .zero)
        (fun _ => ⟨0, fun _ => 1⟩) = .ok (-1, some .ecc) ∧
      outcome adversary () (dharaNandCopy 0 1 (some .none)) Driver.initial (fun _ => .zero)
        (fun _ => .zero) = .ok (0, some .none) :=
  ⟨copy_outcome_of_copies copies_zero 0 1 _, copy_outcome_of_copies copies_zero 0 1 _⟩

end SpiNand
