import SpiNand.Bus.Answers

/-!
# How many transfers an operation takes

Every wait of the driver but one counts its polls, so the operations are bounded by the budgets
of their waits (`transferBound`), whatever the chip answers. The exception is the loop of
`nand_mark_bad_block`, `do … while (busy)`: it ends when the chip says so, or when a status read
fails, and not otherwise.
-/

namespace SpiNand

open Interaction Interaction.Prog

/-! ## Counting transfers -/

def Call.isTransfer : Call → Bool
  | .blockingTransfer _ => true
  | _ => false

/-- The number of transfers in a list of exchanges. -/
def transfers (tr : Trace) : Nat := tr.countP (·.1.isTransfer)

/-- Counts the transfers, and allows everything. -/
def transferCount : Monitor Nat Call Answer where
  step n c _ := if c.isTransfer then n + 1 else n
  allows _ _ := True

theorem transferCount_run (n : Nat) (tr : Trace) : transferCount.run n tr = n + transfers tr := by
  induction tr generalizing n with
  | nil => rfl
  | cons x tr ih =>
    rw [Monitor.run_cons, ih]
    unfold transfers
    rw [List.countP_cons]
    simp only [transferCount]
    split <;> omega

instance : Handler.TransfersOnly transferCount.handler where
  uninit h := ⟨trivial, h⟩
  void h := ⟨trivial, h⟩
  setup h := ⟨trivial, h⟩

/-! ## The bounds -/

/-- PAGE_READ, the polls, READ_CACHE. -/
def readTransfers : Nat := pollBudget pageReadTimeUs + 2

/-- The transfers of an operation, from the budgets of its waits. For `nand_mark_bad_block`, the
number there would be if both its waits counted their polls. -/
def transferBound : Operation → Nat
  | .init => 2
  | .id | .reset => 1
  | .readParamsPage _ _ => readTransfers + 3
  | .checkBadBlock _ _ | .isFree _ _ | .readPage _ _ _ _ _ => readTransfers
  | .markBadBlock _ | .copyPage _ _ _ => pollBudget pageReadTimeUs + pollBudget programTimeUs + 4
  | .eraseBlock _ => pollBudget eraseTimeUs + 2
  | .progPage _ _ => pollBudget programTimeUs + 4
  | .printBadBlocks => numBlocks * readTransfers

section Count

/-- The handler that counts. -/
abbrev countHandler : Handler Nat Call Answer := transferCount.handler

variable {E : Halt → Nat → Prop} {n N : Nat}

theorem count_cmd {c : NandCmd} {φ : Answer → Nat → Prop} (h : ∀ a, φ a (n + 1)) :
    Handler.cmd countHandler c φ n := fun _ _ => ⟨trivial, h⟩

/-- A command whose failure ends the operation. -/
theorem count_sent {c : NandCmd} {R : Status → Nat → Prop} {K : Nat → Prop}
    (hR : ∀ st, R st (n + 1)) (hK : K (n + 1)) : Handler.cmd countHandler c (Sent R K) n :=
  count_cmd fun _ => ⟨fun _ => hK, fun _ => hR _⟩

theorem count_polls {k : Nat} {K : WaitEnd → Nat → Prop} (h : ∀ e n', n' ≤ n + k → K e n') :
    Handler.polls countHandler k K n := by
  -- what was counted and what may still come stay within the budget
  refine Handler.polls_of_inv (fun left n' => n' + left ≤ n + k) (fun left n' hn => ?_)
    (fun n' hn => h _ _ hn) (Nat.le_refl _)
  have hone : n' + 1 ≤ n + k := by omega
  have hleft : n' + 1 + left ≤ n + k := by omega
  apply count_cmd
  intro a
  split
  · exact h _ _ hone
  · split
    · exact ⟨trivial, fun _ => hleft⟩
    · exact h _ _ hone

theorem count_waited {k : Nat} {R : Status → Nat → Prop} {K : UInt8 → Nat → Prop}
    (hR : ∀ st n', n' ≤ n + k → R st n') (hK : ∀ statusReg n', n' ≤ n + k → K statusReg n') :
    Handler.polls countHandler k (Waited R K) n := by
  apply count_polls
  intro e n' hn
  cases e with
  | failed st h => exact hR st n' hn
  | ready statusReg => exact hK statusReg n' hn
  | timeout => exact hR _ n' hn

theorem count_eraseBlock (blockAddr : UInt16) :
    wpS countHandler E (nandEraseBlock blockAddr)
      (fun _ n' => n' ≤ n + (pollBudget eraseTimeUs + 2)) n := by
  apply wpS_eraseBlock
  -- WRITE_ENABLE and BLOCK_ERASE, then the polls
  apply count_sent (fun _ => by omega)
  apply count_sent (fun _ => by omega)
  exact count_waited (fun _ _ h => by omega) fun _ _ h => by omega

theorem count_progPage (pageAddr : UInt32) (data : PageData) :
    wpS countHandler E (nandProgPage pageAddr data)
      (fun _ n' => n' ≤ n + (pollBudget programTimeUs + 4)) n := by
  apply wpS_progPage
  -- two WRITE_ENABLEs, the load and the execute, then the polls
  apply count_sent (fun _ => by omega)
  apply count_sent (fun _ => by omega)
  apply count_sent (fun _ => by omega)
  apply count_sent (fun _ => by omega)
  exact count_waited (fun _ _ h => by omega) fun _ _ h => by omega

theorem count_readPage (pageAddr : UInt32) (offset : UInt16) (data : List UInt8) (len : UInt32)
    (eccFatal : Option Bool) :
    wpS countHandler E (nandReadPage pageAddr offset data len eccFatal)
      (fun _ n' => n' ≤ n + readTransfers) n := by
  unfold readTransfers
  apply wpS_readPage
  apply count_sent (fun _ => by omega)
  apply count_waited
  · intro st n' h
    omega
  · intro statusReg n' h
    exact count_cmd fun _ => by omega

theorem count_copyPage (srcPageAddr destPageAddr : UInt32) (eccFatal : Option Bool) :
    wpS countHandler E (nandCopyPage srcPageAddr destPageAddr eccFatal)
      (fun _ n' => n' ≤ n + (pollBudget pageReadTimeUs + pollBudget programTimeUs + 4)) n := by
  apply wpS_copyPage
  apply count_sent (fun _ => by omega)
  apply count_waited
  · intro st n' h
    omega
  · intro statusReg n' h
    split
    · omega
    · -- WRITE_ENABLE, the load and the execute, then the second wait
      apply count_sent (fun _ => by omega)
      apply count_sent (fun _ => by omega)
      apply count_sent (fun _ => by omega)
      exact count_waited (fun _ _ h => by omega) fun _ _ h => by omega

theorem count_checkBadBlock (blockAddr : UInt32) (isBad : Bool) :
    wpS countHandler E (nandCheckBadBlock blockAddr isBad) (fun _ n' => n' ≤ n + readTransfers) n :=
  wpS_checkBadBlock fun _ _ => count_readPage _ _ _ _ _

theorem count_readParamsPage (paramsPage : List UInt8) (len : UInt32) :
    wpS countHandler E (nandReadParamsPage paramsPage len)
      (fun _ n' => n' ≤ n + (readTransfers + 3)) n := by
  apply wpS_readParamsPage (fun _ => by omega)
  intro _
  apply count_cmd
  intro a
  split
  · omega
  apply count_sent (fun _ => by omega)
  apply wpS_mono (count_readPage _ _ _ _ _)
  intro read n' h
  split
  · omega
  · exact count_cmd fun _ => by omega

theorem count_printBadBlocks :
    wpS countHandler E nandPrintBadBlocks (fun _ n' => n' ≤ n + numBlocks * readTransfers) n := by
  -- with `left` blocks to check, that many reads may still come
  refine wpS_printBadBlocks
    (fun left n' => n' + left * readTransfers ≤ n + numBlocks * readTransfers)
    (fun left i isBad n' h => ?_) (fun _ n' h => by omega) (Nat.le_refl _)
  rw [Nat.succ_mul] at h
  apply wpS_mono (count_checkBadBlock i isBad)
  intro r n'' h'
  split
  · omega
  · omega

/-- Every operation but `nand_mark_bad_block` returns within its bound. -/
theorem count_run {op : Operation} (hop : ∀ b, op ≠ .markBadBlock b) (fuel : Nat) :
    wpS countHandler E (op.run fuel) (fun _ n' => n' ≤ n + transferBound op) n := by
  cases op with
  | init =>
    -- RESET and the SET_FEATURES that unlocks the blocks
    refine wpS_map (wpS_init (fun _ => Nat.le_add_right n 2) (count_cmd fun _ => ⟨fun _ => ?_, ?_⟩))
    · exact Nat.add_le_add_left (by decide) n
    · exact count_cmd fun _ _ => Nat.le_refl _
  | id => exact wpS_map (wpS_id (count_cmd fun _ _ => Nat.le_refl _))
  | reset => exact wpS_map (wpS_reset (count_cmd fun _ _ => Nat.le_refl _))
  | readParamsPage paramsPage len => exact wpS_map (count_readParamsPage paramsPage len)
  | checkBadBlock blockAddr isBad => exact wpS_map (count_checkBadBlock blockAddr isBad)
  | markBadBlock blockAddr => exact absurd rfl (hop blockAddr)
  | eraseBlock blockAddr => exact wpS_map (count_eraseBlock blockAddr)
  | progPage pageAddr data => exact wpS_map (count_progPage pageAddr data)
  | isFree pageAddr isFree => exact wpS_map (wpS_isFree fun _ _ => count_readPage _ _ _ _ _)
  | readPage pageAddr offset data len eccFatal =>
    exact wpS_map (count_readPage pageAddr offset data len eccFatal)
  | copyPage src dest eccFatal => exact wpS_map (count_copyPage src dest eccFatal)
  | printBadBlocks => exact wpS_map count_printBadBlocks

end Count

/-! ## The loop of `nand_mark_bad_block` -/

/-- A status read that ends the loop: it fails, or shows the chip ready. -/
def EndsLoop (a : Answer) : Prop := a.status ≠ amHalStatusSuccess ∨ oip (a.bytes 0) = false

section Loop

/-- The adversary's handler. -/
abbrev adversaryHandler : Handler (Unit × Answers) Call Answer := adversary.handler

variable {E : Halt → Unit × Answers → Prop} {R : Status → Unit × Answers → Prop}
  {K : Unit × Answers → Prop}

/-- A turn of the loop, by the next answer. -/
theorem spins_succ {n : Nat} {answers : Answers}
    (hend : EndsLoop (answers 0) →
      (∀ st, R st ((), answers.after 1)) ∧ K ((), answers.after 1))
    (hnext : ¬ EndsLoop (answers 0) →
      Handler.spins adversaryHandler E R K n ((), answers.after 1)) :
    Handler.spins adversaryHandler E R K (n + 1) ((), answers) := by
  apply cmd_device_status
  by_cases hok : (answers 0).status = amHalStatusSuccess
  · rw [if_neg (not_ne_iff.mpr hok)]
    cases hbusy : oip ((answers 0).bytes 0) with
    | true =>
      rw [if_pos rfl]
      apply hnext
      rintro (hfail | hready)
      · exact hfail hok
      · exact Bool.noConfusion (hbusy.symm.trans hready)
    | false =>
      rw [if_neg Bool.false_ne_true]
      exact (hend (.inr hbusy)).2
  · rw [if_pos hok]
    exact (hend (.inl hok)).1 _

/-- With fuel for the turn that ends it, the loop ends. -/
theorem spins_end (hR : ∀ st s, R st s) (hK : ∀ s, K s) {n : Nat} {answers : Answers} {k : Nat}
    (hk : k < n) (hend : EndsLoop (answers k)) :
    Handler.spins adversaryHandler E R K n ((), answers) := by
  induction n generalizing answers k with
  | zero => exact absurd hk (Nat.not_lt_zero k)
  | succ n ih =>
    apply spins_succ (fun _ => ⟨fun st => hR st _, hK _⟩)
    intro hgo
    cases k with
    | zero => exact absurd hend hgo
    | succ k => exact ih (Nat.lt_of_succ_lt_succ hk) hend

/-- While nothing ends the loop, it uses up its fuel. -/
theorem spins_diverge {n : Nat} {answers : Answers} (h : ∀ k, ¬ EndsLoop (answers k)) :
    Handler.spins adversaryHandler (fun _ _ => True) R K n ((), answers) := by
  induction n generalizing answers with
  | zero => trivial
  | succ n ih => exact spins_succ (fun hend => absurd hend (h 0)) fun _ => ih fun k => h (k + 1)

theorem markBadBlock_returns {fuel k : Nat} {blockAddr : UInt32} {answers : Answers}
    (h : (answers 0).status ≠ amHalStatusSuccess ∨ k < fuel ∧ EndsLoop (answers (k + 1))) :
    wpS adversaryHandler (fun _ _ => False) (nandMarkBadBlock fuel blockAddr) (fun _ _ => True)
      ((), answers) := by
  refine wpS_markBadBlock (cmd_device ⟨fun hok => ?_, fun _ => trivial⟩)
  obtain ⟨hk, hend⟩ := h.resolve_left (not_not_intro hok)
  refine spins_end (fun _ _ => trivial) (fun s => ?_) hk hend
  -- what follows the loop returns, whatever it is answered
  apply device_sent_total (fun _ _ => trivial)
  intro _
  apply device_sent_total (fun _ _ => trivial)
  intro _
  apply device_sent_total (fun _ _ => trivial)
  intro s
  exact device_wait (fun _ _ => trivial) fun _ _ _ _ => trivial

theorem markBadBlock_diverges {fuel : Nat} {blockAddr : UInt32} {answers : Answers}
    (hread : (answers 0).status = amHalStatusSuccess) (h : ∀ k, ¬ EndsLoop (answers (k + 1))) :
    wpS adversaryHandler (fun _ _ => True) (nandMarkBadBlock fuel blockAddr) (fun _ _ => False)
      ((), answers) :=
  wpS_markBadBlock (cmd_device ⟨fun _ => spins_diverge h, fun hfail => absurd hread hfail⟩)

end Loop

/-! ## Which operations end -/

/-- The operation returned, after at most `n` transfers. -/
def Step.EndsWithin {σ : Type} (n : Nat) (st : Step σ) : Prop :=
  (∃ r, st.result = .ok r) ∧ transfers st.trace ≤ n

theorem endsWithin_of_ne_markBadBlock {σ : Type} {op : Operation} (hop : ∀ b, op ≠ .markBadBlock b)
    (env : Environment σ) (fuel : Nat) (d : Driver) (s : σ × (Nat → Answer)) :
    (op.step env fuel d s).EndsWithin (transferBound op) := by
  have hcount : wpS countHandler (fun _ _ => False) (op.run fuel) _ 0 := count_run hop fuel
  obtain ⟨-, hpost⟩ := step_of_monitor hcount env d s
  unfold Step.EndsWithin
  cases hres : (op.step env fuel d s).result with
  | error e => rw [hres] at hpost; exact hpost.elim
  | ok r =>
    rw [hres, transferCount_run] at hpost
    exact ⟨⟨r, rfl⟩, by omega⟩

/-- `nand_mark_bad_block` returns on exactly the sequences of answers in which its PAGE_READ
fails or some later status read fails or shows the chip ready. -/
theorem markBadBlock_returns_iff (blockAddr : UInt32) (d : Driver) (stack answers : Answers) :
    (∃ fuel r, ((Operation.markBadBlock blockAddr).step adversary.env fuel d
        (((), answers), stack)).result = .ok r) ↔
      (answers 0).status ≠ amHalStatusSuccess ∨ ∃ k, EndsLoop (answers (k + 1)) := by
  constructor
  · rintro ⟨fuel, r, hr⟩
    by_contra hno
    rw [not_or, not_exists, not_ne_iff] at hno
    -- nothing ends the loop: no fuel is enough
    have hdiv : wpS adversaryHandler (fun _ _ => True) ((Operation.markBadBlock blockAddr).run fuel)
        (fun _ _ => False) ((), answers) := wpS_map (markBadBlock_diverges hno.1 hno.2)
    have hstep := step_of_wp (.markBadBlock blockAddr) hdiv d stack
    rw [hr] at hstep
    exact hstep
  · intro h
    -- one turn more than the status reads before the one that ends the loop
    obtain ⟨k, hk⟩ : ∃ k, (answers 0).status ≠ amHalStatusSuccess ∨
        k < k + 1 ∧ EndsLoop (answers (k + 1)) := by
      rcases h with hfail | ⟨k, hend⟩
      · exact ⟨0, .inl hfail⟩
      · exact ⟨k, .inr ⟨Nat.lt_succ_self k, hend⟩⟩
    have hret : wpS adversaryHandler (fun _ _ => False)
        ((Operation.markBadBlock blockAddr).run (k + 1)) (fun _ _ => True) ((), answers) :=
      wpS_map (markBadBlock_returns hk)
    obtain ⟨r, hr, -⟩ := step_returns (.markBadBlock blockAddr) hret d stack
    exact ⟨k + 1, r, hr⟩

/-- A chip whose busy bit never clears. -/
def stuck : Answers := fun _ => ⟨amHalStatusSuccess, fun _ => 1⟩

theorem not_endsLoop_stuck (k : Nat) : ¬ EndsLoop (stuck k) := by
  rintro (hfail | hready)
  · exact hfail rfl
  · have hbusy : oip 1 = true := by decide
    exact Bool.noConfusion (hbusy.symm.trans hready)

/-- **Which operations end.** An operation returns within a bound that no answer can exceed if and
only if it is not `nand_mark_bad_block`; the bound is that of the driver's constants. And
`nand_mark_bad_block` returns exactly where its first transfer fails or its loop is ended by a
status read. -/
theorem returns_within_bound_iff (op : Operation) :
    ((∃ n, ∀ (d : Driver) (stack answers : Answers), ∃ fuel,
        (op.step adversary.env fuel d (((), answers), stack)).EndsWithin n) ↔
      ∀ b, op ≠ .markBadBlock b) ∧
    ((∀ b, op ≠ .markBadBlock b) → ∀ (d : Driver) (stack answers : Answers) (fuel : Nat),
      (op.step adversary.env fuel d (((), answers), stack)).EndsWithin (transferBound op)) ∧
    ∀ b, op = .markBadBlock b → ∀ (d : Driver) (stack answers : Answers),
      (∃ fuel r, (op.step adversary.env fuel d (((), answers), stack)).result = .ok r) ↔
        (answers 0).status ≠ amHalStatusSuccess ∨ ∃ k, EndsLoop (answers (k + 1)) := by
  refine ⟨⟨?_, fun hop => ?_⟩, fun hop d stack answers fuel => ?_, ?_⟩
  · rintro ⟨n, hn⟩ b rfl
    obtain ⟨fuel, ⟨r, hr⟩, -⟩ := hn Driver.initial stuck stuck
    rcases (markBadBlock_returns_iff b Driver.initial stuck stuck).mp ⟨fuel, r, hr⟩ with
      hfail | ⟨k, hend⟩
    · exact hfail rfl
    · exact not_endsLoop_stuck (k + 1) hend
  · exact ⟨transferBound op, fun d stack answers =>
      ⟨0, endsWithin_of_ne_markBadBlock hop adversary.env 0 d (((), answers), stack)⟩⟩
  · exact endsWithin_of_ne_markBadBlock hop adversary.env fuel d (((), answers), stack)
  · rintro b rfl d stack answers
    exact markBadBlock_returns_iff b d stack answers

/-- On a chip whose busy bit never clears an erase returns: 1000 polls after its two commands. -/
theorem eraseBlock_stuck_returns :
    ((Operation.eraseBlock 0).step adversary.env 0 Driver.initial
      (((), stuck), stuck)).EndsWithin 1002 :=
  (returns_within_bound_iff (.eraseBlock 0)).2.1 (by nofun) Driver.initial stuck stuck 0

/-- On a chip whose busy bit never clears, `nand_mark_bad_block` does not return, whatever the
fuel. -/
theorem markBadBlock_stuck :
    ¬ ∃ fuel r, ((Operation.markBadBlock 0).step adversary.env fuel Driver.initial
      (((), stuck), stuck)).result = .ok r := by
  rw [markBadBlock_returns_iff]
  rintro (hfail | ⟨k, hend⟩)
  · exact hfail rfl
  · exact not_endsLoop_stuck (k + 1) hend

end SpiNand
