import SpiNand.Chip.BadBlocks

/-!
# Marking a block

`nand_mark_bad_block` rewrites the first page of the block through the cache register. The
PAGE_READ that fills it may take any time, since the loop after it has no bound; the program is
waited for with a bound, so a chip that is slower than that ends the marking with a timeout.

* **`markBadBlock_roundTrip`**: on a chip whose programs are done in time, the marking succeeds,
  the block is reported bad, no other block is reported otherwise than before, and at most one
  byte of the array has changed.
-/

namespace SpiNand

open Interaction Interaction.Prog WriteOnce

/-- A transfer that succeeds and shows no failure; the chip may take any time. -/
structure Weather.Sound (w : Weather) : Prop where
  status : w.status = amHalStatusSuccess
  pFail : pFail (w.statusByte false) = false
  eFail : eFail (w.statusByte false) = false
  ecc : nandStatusToEcc (w.statusByte false) ≠ .fatal

theorem Weather.clear_sound : Weather.clear.Sound := ⟨rfl, by decide, by decide, by decide⟩

namespace Chip

/-- The marking's PROGRAM_EXECUTE, which comes after the PAGE_READ, its status reads and two more
commands, is done within the polls of the wait for it. -/
abbrev MarkingInTime (s : Chip Unit) : Prop :=
  (s.future ((s.future 0).busy .read + 4)).busy .program < ArrayOp.program.budget

variable {E : Halt → Chip Unit → Prop}

/-- The marking has its commands executed, whatever time they take. -/
theorem sound_markBadBlock {s : Chip Unit} (hready : s.busy = 0)
    (hsound : ∀ n, (s.future n).Sound) {fuel : Nat} (hfuel : (s.future 0).busy .read < fuel)
    (blockAddr : UInt32) :
    wpS (Chip.handler singleCache) E (nandMarkBadBlock fuel blockAddr)
      (fun st s' => st = (if s.MarkingInTime then amHalStatusSuccess else amHalStatusTimeout) ∧
        s'.core = s.core.execs singleCache (markCmds blockAddr) ∧
        (s.MarkingInTime → s'.busy = 0)) s := by
  have hok : ∀ n, (s.future n).status = amHalStatusSuccess := fun n => (hsound n).status
  have hs : s.Ready s.core := ⟨rfl, hready⟩
  apply wpS_markBadBlock
  apply hs.started_ok (hok 0) rfl
  intro s₁ hcore₁ hbusy₁ hfuture₁
  apply spun_within hcore₁ (hbusy₁ ▸ hfuel) (fun n => hfuture₁ ▸ hok (n + 1))
  intro s₂ hs₂ hfuture₂
  rw [hfuture₁, hbusy₁] at hfuture₂
  apply hs₂.sent_ok (hfuture₂ ▸ hok _) rfl
  intro s₃ hs₃ hfuture₃
  rw [hfuture₂] at hfuture₃
  apply hs₃.sent_ok (hfuture₃ ▸ hok _) rfl
  intro s₄ hs₄ hfuture₄
  rw [hfuture₃] at hfuture₄
  apply hs₄.started_ok (hfuture₄ ▸ hok _) rfl
  intro s₅ hcore₅ hbusy₅ hfuture₅
  rw [hfuture₄] at hbusy₅ hfuture₅
  have hprogram : s₅.busy = (s.future ((s.future 0).busy .read + 4)).busy .program := by
    have hindex : 0 + 1 + 1 + ((s.future 0).busy .read + 1) + 1 = (s.future 0).busy .read + 4 := by
      omega
    rw [hbusy₅, ← hindex]
  have hsound₅ : ∀ n, (s₅.future n).Sound := fun n => hfuture₅ ▸ hsound _
  by_cases hintime : s.MarkingInTime
  · rw [if_pos hintime]
    apply waited_within hcore₅ (hprogram ▸ hintime) fun n => (hsound₅ n).status
    intro s₆ hs₆ _
    rw [(hsound₅ s₅.busy).pFail]
    exact ⟨rfl, hs₆.core, fun _ => hs₆.busy⟩
  · rw [if_neg hintime]
    apply waited_timeout hcore₅ (hprogram ▸ Nat.le_of_not_lt hintime) fun n => (hsound₅ n).status
    intro s₆ hs₆
    exact ⟨rfl, hs₆, fun h => absurd h hintime⟩

end Chip

/-! ## What is reported -/

/-- On a chip as `s` has it, whatever comes without faults, `nand_check_bad_block` answers `bad`
if its PAGE_READ is done in time. -/
def Reports (s : Chip Unit) (b : Fin numBlocks) (bad : Bool) : Prop :=
  ∀ future : Nat → Weather, (∀ n, (future n).Sound) →
    (future 0).busy .read < ArrayOp.read.budget → CheckAnswers { s with future } b bad

theorem reports_iff {s : Chip Unit} {m : Core Unit} (hs : s.Ready m) (b : Fin numBlocks)
    (bad : Bool) : Reports s b bad ↔ isMarked m.array b = bad := by
  have hiff : ∀ future : Nat → Weather, (∀ n, (future n).Sound) →
      (future 0).busy .read < ArrayOp.read.budget →
        (CheckAnswers { s with future } b bad ↔ isMarked m.array b = bad) := by
    intro future hsound hintime
    have hready : Chip.Ready { s with future } m := ⟨hs.core, hs.busy⟩
    exact checkAnswers_iff_of_ready hready (fun n => (hsound n).status) hintime b bad
  constructor
  · intro h
    have hclear : (Weather.clear.busy .read) < ArrayOp.read.budget := by decide
    exact (hiff _ (fun _ => Weather.clear_sound) hclear).mp
      (h (fun _ => .clear) (fun _ => Weather.clear_sound) hclear)
  · intro h future hsound hintime
    exact (hiff future hsound hintime).mpr h

/-- Marking changes at most one byte. -/
theorem mark_frame {array : Nat → Row} {b : Fin numBlocks} {row column : Nat}
    (h : (BlockOp.mark b).access.apply array row column ≠ array row column) :
    row = firstPage b ∧ column = markerColumn := by
  by_contra hother
  by_cases hrow : row = firstPage b
  · -- another byte of the page is programmed with the erased value
    have hcolumn : column ≠ markerColumn := fun hcolumn => hother ⟨hrow, hcolumn⟩
    apply h
    apply Access.program_erased
    rcases Nat.lt_or_ge column markerColumn with hbefore | hafter
    · unfold Row.overwrite
      rw [if_neg (Nat.not_le_of_lt hbefore)]
      rfl
    · exact overwrite_of_length_le (by
        show markerColumn + 1 ≤ column
        omega)
  · have htouch : ¬ (BlockOp.mark b).access.Touches blockOf row := hrow
    exact h (congrFun (Access.apply_of_not_touches htouch) column)

/-- What one step of the marking returns and leaves behind. -/
theorem step_markBadBlock {s : Chip Unit} (hready : s.busy = 0) (hsound : ∀ n, (s.future n).Sound)
    {fuel : Nat} (hfuel : (s.future 0).busy .read < fuel) (blockAddr : UInt32) (d : Driver)
    (stack : Nat → Answer) :
    let st := (Operation.markBadBlock blockAddr).step (Chip.env singleCache) fuel d (s, stack)
    st.result = .ok ⟨if s.MarkingInTime then amHalStatusSuccess else amHalStatusTimeout,
        [], none⟩ ∧
      st.after.core = s.core.execs singleCache (Chip.markCmds blockAddr) ∧
      (s.MarkingInTime → st.after.busy = 0) := by
  have hwp : wpS (Chip.handler singleCache) (fun _ _ => False)
      ((Operation.markBadBlock blockAddr).run fuel)
      (fun r s' => r = ⟨if s.MarkingInTime then amHalStatusSuccess else amHalStatusTimeout,
          [], none⟩ ∧
        s'.core = s.core.execs singleCache (Chip.markCmds blockAddr) ∧
        (s.MarkingInTime → s'.busy = 0)) s := by
    apply wpS_map
    apply wpS_mono (Chip.sound_markBadBlock hready hsound hfuel _)
    rintro st s' ⟨rfl, hs'⟩
    exact ⟨rfl, hs'⟩
  obtain ⟨r, hr, rfl, hs'⟩ := step_returns _ hwp d stack
  exact ⟨hr, hs'⟩

/-- **Marking a block.** On a ready chip without faults, whatever the array, the cache and the
latch hold, `nand_mark_bad_block` changes at most the marker byte of the block's first page. It
succeeds exactly if the program is done in time; then the block is reported bad, and every other
block as before. -/
theorem markBadBlock_roundTrip (s : Chip Unit) (hready : s.busy = 0)
    (hsound : ∀ n, (s.future n).Sound) (b : Fin numBlocks) (d : Driver) (stack : Nat → Answer)
    {fuel : Nat} (hfuel : (s.future 0).busy .read < fuel) :
    let st := (Operation.markBadBlock (UInt32.ofNat b)).step (Chip.env singleCache) fuel d
      (s, stack)
    st.result = .ok ⟨if s.MarkingInTime then amHalStatusSuccess else amHalStatusTimeout,
        [], none⟩ ∧
      (∀ row column, st.after.core.array row column ≠ s.core.array row column →
        row = 64 * b ∧ column = 0x804) ∧
      (s.MarkingInTime → Reports st.after b true ∧
        ∀ c, c ≠ b → ∀ bad, Reports st.after c bad ↔ Reports s c bad) := by
  obtain ⟨hresult, hcore, hbusy⟩ :=
    step_markBadBlock hready hsound hfuel (UInt32.ofNat b) d stack
  have harray := array_markCmds s.core b
  refine ⟨hresult, fun row column hne => ?_, fun hintime => ?_⟩
  · rw [hcore, harray] at hne
    obtain ⟨hrow, hcolumn⟩ := mark_frame hne
    exact ⟨hrow.trans (Nat.mul_comm _ _), hcolumn⟩
  · have hbefore : ∀ c bad, Reports s c bad ↔ isMarked s.core.array c = bad :=
      reports_iff ⟨rfl, hready⟩
    have hafter := reports_iff ⟨hcore, hbusy hintime⟩
    refine ⟨(hafter b true).mpr ?_, fun c hc bad => ?_⟩
    · rw [harray]
      exact isMarked_mark
    · have htouch : ¬ (BlockOp.mark b).access.Touches blockOf (firstPage c) :=
        fun hpage => hc (firstPage_injective hpage)
      rw [hafter, hbefore, harray, isMarked_of_not_touches htouch]

/-- Marking block 5 of an erased chip. -/
theorem markBadBlock_roundTrip_erased :
    Reports ((Operation.markBadBlock (UInt32.ofNat 5)).step (Chip.env singleCache) 4 .initial
      (⟨⟨fun _ => .erased, fun _ => .erased, false⟩, 0, fun _ => .clear⟩, fun _ => .zero)).after
      ⟨5, by decide⟩ true :=
  ((markBadBlock_roundTrip ⟨⟨fun _ => .erased, fun _ => .erased, false⟩, 0, fun _ => .clear⟩ rfl
    (fun _ => Weather.clear_sound) ⟨5, by decide⟩ .initial (fun _ => .zero) (by decide)).2.2
      (by decide)).1

/-! ## Slow programs -/

/-- Transfers without faults, and programs that show busy at every poll of the wait. -/
def Weather.slow : Weather :=
  { Weather.clear with busy := fun _ => ArrayOp.program.budget }

theorem Weather.slow_sound : Weather.slow.Sound := ⟨rfl, by decide, by decide, by decide⟩

/-- An erased chip in that weather. -/
def slowChip : Chip Unit := ⟨⟨fun _ => .erased, fun _ => .erased, false⟩, 0, fun _ => .slow⟩

/-- No transfer fails and every busy period is finite, and the marking times out. -/
theorem slowChip_times_out :
    (∀ n, (slowChip.future n).Sound) ∧ slowChip.busy = 0 ∧
      ((Operation.markBadBlock 0).step (Chip.env singleCache) 61 .initial
        (slowChip, fun _ => .zero)).result = .ok ⟨amHalStatusTimeout, [], none⟩ := by
  have hsound : ∀ n, (slowChip.future n).Sound := fun _ => Weather.slow_sound
  have hlate : ¬ slowChip.MarkingInTime := by decide
  have hfuel : (slowChip.future 0).busy .read < 61 := by decide
  obtain ⟨hresult, -⟩ := step_markBadBlock rfl hsound hfuel 0 .initial fun _ => .zero
  rw [if_neg hlate] at hresult
  exact ⟨hsound, rfl, hresult⟩

end SpiNand
