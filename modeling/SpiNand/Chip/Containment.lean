import SpiNand.Bus.Commands
import SpiNand.Chip.PageStore

/-!
# What a failure can damage

Transfers fail, waits time out, an array command may stop anywhere, and a program may leave any
of its bits unwritten. None of that reaches further than the pages the run addresses, and no bit
is ever set but by the erase of its block.

* **`Contained`** is what is assumed of the flash: PROGRAM_EXECUTE changes no row but its own and
  only clears bits there, BLOCK_ERASE no row outside its block, and nothing else changes the array.
  How much of a change happens, and when, is open.
* **`run_contained`** is the frame of every run.
* **`chip_contained`**: the chip is such a flash, in any weather and with any geometry.
-/

namespace SpiNand

open Interaction Interaction.Prog WriteOnce

variable {σ : Type}

/-! ## Footprints -/

/-- The rows a command may erase. -/
def NandCmd.Erases (row : Nat) : NandCmd → Prop
  | .blockErase row' => blockOf row = blockOf row'
  | _ => False

/-- The rows a command may change. -/
def NandCmd.Touches (row : Nat) : NandCmd → Prop
  | .programExecute row' => row = row'
  | .blockErase row' => blockOf row = blockOf row'
  | _ => False

/-- The rows an operation may erase: those of its block. -/
def Operation.Erases (row : Nat) : Operation → Prop
  | .eraseBlock blockAddr => blockOf row = blockOf (blockRow blockAddr.toUInt32)
  | _ => False

/-- The rows an operation may change. -/
def Operation.Touches (row : Nat) : Operation → Prop
  | .eraseBlock blockAddr => blockOf row = blockOf (blockRow blockAddr.toUInt32)
  | .progPage pageAddr _ => row = rowOf pageAddr
  | .copyPage _ destPageAddr _ => row = rowOf destPageAddr
  | .markBadBlock blockAddr => row = blockRow blockAddr
  | _ => False

/-- The commands of a page read change nothing. -/
theorem ReadsPage.not_touches {row' column len row : Nat} {c : NandCmd}
    (h : ReadsPage row' column len c) : ¬ c.Touches row := by
  rcases h with rfl | rfl | rfl
  · exact not_false
  · exact not_false
  · exact not_false

/-- The footprint of an operation is that of its commands. -/
theorem touches_of_sends {op : Operation} {c : NandCmd} {row : Nat}
    (hc : op.sends rowOf blockRow c) (h : c.Touches row) : op.Touches row := by
  cases op with
  | init =>
    rcases hc with rfl | rfl
    · exact h
    · exact h
  | id =>
    have heq : c = .readId 3 := hc
    subst heq
    exact h
  | reset =>
    have heq : c = .reset := hc
    subst heq
    exact h
  | readParamsPage paramsPage len =>
    rcases hc with rfl | ⟨value, rfl⟩ | hread
    · exact h
    · exact h
    · exact hread.not_touches h
  | checkBadBlock blockAddr isBad => exact ReadsPage.not_touches hc h
  | markBadBlock blockAddr =>
    rcases hc with rfl | rfl | rfl | rfl | rfl
    · exact h.elim
    · exact h.elim
    · exact h.elim
    · exact h.elim
    · exact h
  | eraseBlock blockAddr =>
    rcases hc with rfl | rfl | rfl
    · exact h.elim
    · exact h
    · exact h.elim
  | progPage pageAddr data =>
    rcases hc with rfl | rfl | rfl | rfl
    · exact h.elim
    · exact h.elim
    · exact h
    · exact h.elim
  | isFree pageAddr isFree => exact ReadsPage.not_touches hc h
  | readPage pageAddr offset data len eccFatal => exact ReadsPage.not_touches hc h
  | copyPage srcPageAddr destPageAddr eccFatal =>
    rcases hc with rfl | rfl | rfl | rfl | rfl
    · exact h.elim
    · exact h.elim
    · exact h.elim
    · exact h.elim
    · exact h
  | printBadBlocks =>
    obtain ⟨blockAddr, -, hread⟩ := hc
    exact hread.not_touches h

/-- Only an erase sends BLOCK_ERASE. -/
theorem erases_of_sends {op : Operation} {c : NandCmd} {row : Nat}
    (hc : op.sends rowOf blockRow c) (h : c.Erases row) : op.Erases row := by
  cases c with
  | blockErase row' =>
    have htouch : NandCmd.Touches row (.blockErase row') := h
    have hop := touches_of_sends hc htouch
    cases op with
    | eraseBlock blockAddr => exact hop
    | progPage pageAddr data => simp [Operation.sends] at hc
    | copyPage srcPageAddr destPageAddr eccFatal => simp [Operation.sends] at hc
    | markBadBlock blockAddr => simp [Operation.sends] at hc
    | _ => exact hop
  | _ => exact h.elim

/-! ## The flash -/

/-- A flash that may fail in any way within the rows that it was told to change. -/
structure Contained (env : Environment σ) (array : σ → Nat → Row) : Prop where
  keeps : ∀ s q row, (∀ c, q.cmd = some c → ¬ c.Touches row) →
    array (env s q).2 row = array s row
  clears : ∀ s q row, (∀ c, q.cmd = some c → ¬ c.Erases row) →
    ∀ i, nandByte.le (array (env s q).2 row i) (array s row i)

/-- In the order of programming, below is below. -/
theorem nandByte_le_trans {a b c : UInt8} (hab : nandByte.le a b) (hbc : nandByte.le b c) :
    nandByte.le a c := by
  have hab' : a &&& b = a := hab
  have hbc' : b &&& c = b := hbc
  show a &&& c = a
  rw [← hab', UInt8.and_assoc, hbc']

section Runs

variable {env : Environment σ} {array : σ → Nat → Row}

theorem step_untouched (h : Contained env array) (fuel : Nat) {op : Operation} {row : Nat}
    (hop : ¬ op.Touches row) (d : Driver) (s : σ × (Nat → Answer)) :
    array (op.step env fuel d s).after row = array s.1 row := by
  refine step_keeps (J := fun s' => array s' row = array s.1 row) fuel op d ?_ rfl
  intro s' q hq hs'
  have hnot : ∀ c, q.cmd = some c → ¬ c.Touches row :=
    fun c hc htouch => hop (touches_of_sends (hq c hc) htouch)
  rw [h.keeps s' q row hnot, hs']

theorem step_unerased (h : Contained env array) (fuel : Nat) {op : Operation} {row : Nat}
    (hop : ¬ op.Erases row) (d : Driver) (s : σ × (Nat → Answer)) (i : Nat) :
    nandByte.le (array (op.step env fuel d s).after row i) (array s.1 row i) := by
  refine step_keeps (J := fun s' => nandByte.le (array s' row i) (array s.1 row i)) fuel op d ?_
    (nandByte.le_refl _)
  intro s' q hq hs'
  have hnot : ∀ c, q.cmd = some c → ¬ c.Erases row :=
    fun c hc herase => hop (erases_of_sends (hq c hc) herase)
  exact nandByte_le_trans (h.clears s' q row hnot i) hs'

/-- **The frame of a run.** Whatever fails, and wherever an operation is abandoned: a row that no
operation of the run addresses keeps its content, and a row in a block that none of them erases
has no bit set that was not set before. -/
theorem run_contained (h : Contained env array) (fuel : Nat) (ops : List Operation) (d : Driver)
    (s : σ × (Nat → Answer)) :
    ∀ st ∈ steps env fuel ops d s, ∀ row,
      ((∀ op ∈ ops, ¬ op.Touches row) → array st.after row = array s.1 row) ∧
      ((∀ op ∈ ops, ¬ op.Erases row) →
        ∀ i, nandByte.le (array st.after row i) (array s.1 row i)) := by
  intro st hst row
  obtain ⟨pre, suf, heq⟩ := List.append_of_mem hst
  constructor
  · intro hops
    refine steps_induction (fun op => ¬ op.Touches row)
      (fun _ s' => array s' row = array s.1 row)
      (fun _ st => array st.after row = array s.1 row) ?_ hops rfl heq
    intro op hop d' s' tr hs'
    have hstep := (step_untouched h fuel hop d' s').trans hs'
    exact ⟨hstep, fun _ _ => hstep⟩
  · intro hops i
    refine steps_induction (fun op => ¬ op.Erases row)
      (fun _ s' => nandByte.le (array s' row i) (array s.1 row i))
      (fun _ st => nandByte.le (array st.after row i) (array s.1 row i)) ?_ hops
      (nandByte.le_refl _) heq
    intro op hop d' s' tr hs'
    have hstep := nandByte_le_trans (step_unerased h fuel hop d' s' i) hs'
    exact ⟨hstep, fun _ _ => hstep⟩

end Runs

/-! ## The chip -/

section Chip

variable {π : Type} [DecidableEq π] (g : Geometry π)

/-- What one command does to the array. -/
theorem array_exec_of_not_touches (m : Core π) {c : NandCmd} {row : Nat} (h : ¬ c.Touches row) :
    (m.exec g c).array row = m.array row := by
  cases c with
  | programExecute row' =>
    simp only [Core.exec]
    split
    · exact Function.update_of_ne h _ _
    · rfl
  | blockErase row' =>
    simp only [Core.exec]
    split
    · exact if_neg h
    · rfl
  | _ => rfl

theorem array_exec_le (m : Core π) {c : NandCmd} {row : Nat} (h : ¬ c.Erases row) (i : Nat) :
    nandByte.le ((m.exec g c).array row i) (m.array row i) := by
  by_cases htouch : c.Touches row
  · cases c with
    | programExecute row' =>
      have hrow : row = row' := htouch
      subst hrow
      simp only [Core.exec]
      split
      · simp only [Core.programmed, Function.update_self]
        exact nandByte.meet_le_left _ _
      · exact nandByte.le_refl _
    | blockErase row' => exact absurd htouch h
    | _ => exact htouch.elim
  · rw [array_exec_of_not_touches g m htouch]
    exact nandByte.le_refl _

/-- A call leaves the core as it is, or executes its command. -/
theorem core_env (s : Chip π) (q : Call) :
    (Chip.env g s q).2.core = s.core ∨
      ∃ c, q.cmd = some c ∧ (Chip.env g s q).2.core = s.core.exec g c := by
  cases q with
  | blockingTransfer t =>
    cases hdecode : t.decode with
    | none =>
      left
      simp only [Chip.env, hdecode]
    | some c =>
      simp only [Chip.env, hdecode, Chip.transfer, Chip.receive]
      split_ifs
      · exact .inl rfl
      · exact .inl rfl
      · exact .inl rfl
      · exact .inr ⟨c, hdecode, rfl⟩
  | setup c => exact .inl rfl
  | void v => exact .inl rfl
  | uninit => exact .inl rfl

/-- The chip changes what it was told to, in any weather. -/
theorem chip_contained : Contained (Chip.env g) fun s => s.core.array where
  keeps s q row hq := by
    rcases core_env g s q with hcore | ⟨c, hc, hcore⟩
    · simp only [hcore]
    · simp only [hcore]
      exact array_exec_of_not_touches g s.core (hq c hc)
  clears s q row hq i := by
    rcases core_env g s q with hcore | ⟨c, hc, hcore⟩
    · simp only [hcore]
      exact nandByte.le_refl _
    · simp only [hcore]
      exact array_exec_le g s.core (hq c hc) i

end Chip

/-- A flash with every transfer a success, that programs only the upper half of each byte and
erases only the even pages of a block. -/
def halfFlash : Environment (Nat → Row) := fun array q =>
  (⟨amHalStatusSuccess, fun _ => 0⟩,
    match q.cmd with
    | some (.programExecute row) => Function.update array row fun i => array row i &&& 0x0F
    | some (.blockErase row) =>
      fun r => if blockOf r = blockOf row ∧ r % 2 = 0 then Row.erased else array r
    | _ => array)

theorem halfFlash_contained : Contained halfFlash id where
  keeps array q row hq := by
    unfold halfFlash
    cases hcmd : q.cmd with
    | none => rfl
    | some c =>
      cases c with
      | programExecute row' => exact Function.update_of_ne (hq _ hcmd) _ _
      | blockErase row' => exact if_neg fun h => hq _ hcmd h.1
      | _ => rfl
  clears array q row hq i := by
    unfold halfFlash
    cases hcmd : q.cmd with
    | none => exact nandByte.le_refl _
    | some c =>
      cases c with
      | programExecute row' =>
        by_cases hrow : row = row'
        · subst hrow
          simp only [id, Function.update_self]
          exact nandByte.meet_le_left _ _
        · simp only [id, Function.update_of_ne hrow]
          exact nandByte.le_refl _
      | blockErase row' =>
        have hkept : ¬ (blockOf row = blockOf row' ∧ row % 2 = 0) := fun h => hq _ hcmd h.1
        simp only [id, if_neg hkept]
        exact nandByte.le_refl _
      | _ => exact nandByte.le_refl _

/-- A program of page 640, of which half is lost, and an erase of block 11 that leaves the odd
pages. -/
def halfSteps : List (Step (Nat → Row)) :=
  steps halfFlash 0 [.progPage 640 (.fill 0x5A), .eraseBlock 11] Driver.initial
    ((fun _ _ => 0x77), fun _ => .zero)

theorem halfSteps_torn :
    halfSteps.map (fun st => (st.after 640 0, st.after 704 0, st.after 705 0)) =
      [(0x07, 0x77, 0x77), (0x07, 0xFF, 0x77)] := by
  decide +kernel

/-- Nothing else is damaged: page 641 is as it was, and page 640 has no bit set that was not. -/
theorem half_contained :
    ∃ first last, halfSteps = [first, last] ∧
      (last.after 640 0 = 0x07 ∧ last.after 704 0 = 0xFF ∧ last.after 705 0 = 0x77) ∧
      last.after 641 = (fun _ => 0x77) ∧ ∀ i, nandByte.le (last.after 640 i) 0x77 := by
  obtain ⟨first, last, heq⟩ : ∃ first last, halfSteps = [first, last] := ⟨_, _, rfl⟩
  have htorn := halfSteps_torn
  rw [heq] at htorn
  simp only [List.map_cons, List.cons.injEq, Prod.mk.injEq] at htorn
  have hmem : last ∈ halfSteps := by
    rw [heq]
    exact List.mem_cons_of_mem _ List.mem_cons_self
  have hrun := run_contained halfFlash_contained 0 [.progPage 640 (.fill 0x5A), .eraseBlock 11]
    Driver.initial ((fun _ _ => 0x77), fun _ => .zero) last hmem
  refine ⟨first, last, heq, htorn.2.1, ?_, ?_⟩
  · apply (hrun 641).1
    have hprog : ¬ 641 = rowOf 640 := by decide
    have herase : ¬ blockOf 641 = blockOf (blockRow (11 : UInt16).toUInt32) := by decide
    simpa [Operation.Touches] using ⟨hprog, herase⟩
  · apply (hrun 640).2
    have herase : ¬ blockOf 640 = blockOf (blockRow (11 : UInt16).toUInt32) := by decide
    simpa [Operation.Erases] using herase

end SpiNand
