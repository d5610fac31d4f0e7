import SpiNand.Chip.PageStore

/-!
# Bad-block markers

A block is bad if one of two bytes in the spare area of its first page is zero. These are cells
of the page store like any other, so what an operation does to the table of bad blocks is what
its access does to these cells: programming can only clear them, and only an erase sets them.

* **`isMarked_apply_of_marked`**: a bad block becomes good by an erase of it, and only so.
* **`isMarked_apply_of_unmarked`**: a good block becomes bad by `nand_mark_bad_block`, or by a
  copy onto its first page that clears a marker; `nand_copy_page` copies the spare area too.
* **`steps_change_bad_blocks`** says so of every step of every run.
-/

namespace SpiNand

open Interaction Interaction.Prog WriteOnce

/-! ## The operations -/

/-- The operations on blocks and pages, with arguments in range. -/
inductive BlockOp
  | page (op : PageOp)
  | isFree (p : Fin numPages) (free : Option Bool)
  | check (b : Fin numBlocks) (isBad : Bool)
  | mark (b : Fin numBlocks)

/-- The first page of a block. -/
def firstPage (b : Fin numBlocks) : Nat := b * pagesPerBlock

namespace BlockOp

/-- The driver's operation, with its arguments as C integers. -/
def operation : BlockOp → Operation
  | .page op => op.operation
  | .isFree p free => .isFree (UInt32.ofNat p) free
  | .check b isBad => .checkBadBlock (UInt32.ofNat b) isBad
  | .mark b => .markBadBlock (UInt32.ofNat b)

/-- The access it stands for. -/
def access : BlockOp → PageAccess
  | .page op => op.access
  | .isFree p _ => .read p
  | .check b _ => .read (firstPage b)
  | .mark b => .program (firstPage b) (Row.erased.overwrite markerColumn [badBlockMarkerValue])

end BlockOp

/-- Writing back a row with one byte cleared is programming that byte alone. -/
theorem program_overwrite (r : Row) (column : Nat) :
    r.program (r.overwrite column [badBlockMarkerValue]) =
      fun c => r c &&& (Row.erased.overwrite column [badBlockMarkerValue]) c := by
  have hself : ∀ b : UInt8, b &&& b = b &&& 0xFF := by
    intro b
    rw [UInt8.and_self]
    exact (nandByte.meet_erased b).symm
  funext c
  unfold Row.program Row.overwrite Row.erased
  -- outside the byte written, the row is met with itself on one side and with `0xFF` on the other
  by_cases hle : column ≤ c
  · rw [if_pos hle, if_pos hle]
    cases hget : [badBlockMarkerValue][c - column]? with
    | none => exact hself _
    | some b => rfl
  · rw [if_neg hle, if_neg hle]
    exact hself _

theorem array_markCmds (m : Core Unit) (b : Fin numBlocks) :
    (m.execs singleCache (Chip.markCmds (UInt32.ofNat b))).array =
      PageAccess.apply (BlockOp.mark b).access m.array := by
  show Function.update m.array (blockRow _) ((m.array (blockRow _)).program
    ((m.array (blockRow _)).overwrite markerColumn [badBlockMarkerValue])) = Function.update _ _ _
  rw [blockRow_ofNat b.isLt, program_overwrite]
  rfl

/-- The simulation of one operation, where it returns. -/
theorem idle_blockOp {s : Chip Unit} {m : Core Unit} (hs : s.Idle m) (fuel : Nat) (op : BlockOp) :
    wpS (Chip.handler singleCache) (fun _ _ => True) (op.operation.run fuel)
      (fun _ s' => ∃ m', s'.Idle m' ∧ m'.array = op.access.apply m.array) s := by
  cases op with
  | page op => exact wpS_mono (idle_pageOp hs fuel op) fun _ _ h => h.2
  | isFree p free =>
    apply wpS_map
    apply wpS_mono (Chip.idle_isFree hs _ free)
    intro r s' hs'
    exact ⟨_, hs', array_readCmds m _⟩
  | check b isBad =>
    apply wpS_map
    apply wpS_mono (Chip.idle_checkBadBlock hs _ isBad)
    intro r s' h
    exact ⟨_, h.2, array_readCmds m _⟩
  | mark b =>
    apply wpS_map
    apply wpS_weaken (Chip.idle_markBadBlock hs fuel _) (fun _ _ _ => trivial)
    intro st s' h
    exact ⟨_, h.2, array_markCmds m b⟩

/-! ## The markers -/

/-- The columns of the markers: ours and the factory's. -/
def markerColumns : List Nat := [markerColumn, badBlockAreaOffset + badBlockFactoryByteOffset]

/-- What `nand_check_bad_block` looks for. -/
def isMarked (array : Nat → Row) (b : Fin numBlocks) : Bool :=
  markerColumns.any fun c => array (firstPage b) c == badBlockMarkerValue

theorem isMarked_iff {array : Nat → Row} {b : Fin numBlocks} :
    isMarked array b = true ↔
      ∃ c ∈ markerColumns, array (firstPage b) c = badBlockMarkerValue := by
  simp [isMarked]

theorem isMarked_eq_false_iff {array : Nat → Row} {b : Fin numBlocks} :
    isMarked array b = false ↔
      ∀ c ∈ markerColumns, array (firstPage b) c ≠ badBlockMarkerValue := by
  simp [isMarked]

theorem isMarked_congr {array array' : Nat → Row} {b : Fin numBlocks}
    (h : ∀ c ∈ markerColumns, array' (firstPage b) c = array (firstPage b) c) :
    isMarked array' b = isMarked array b := by
  simp only [isMarked, markerColumns, List.mem_cons, List.not_mem_nil, or_false,
    forall_eq_or_imp, forall_eq, List.any_cons, List.any_nil] at h ⊢
  rw [h.1, h.2]

/-- The markers are in the spare area, after the bytes that `nand_prog_page` writes. -/
theorem pageSize_le_of_mem_markerColumns {c : Nat} (hc : c ∈ markerColumns) : pageSize ≤ c := by
  revert c
  decide

theorem overwrite_of_length_le {r : Row} {column c : Nat} {data : List UInt8}
    (h : column + data.length ≤ c) : r.overwrite column data c = r c := by
  have hnone : data[c - column]? = none := List.getElem?_eq_none (by omega)
  unfold Row.overwrite
  rw [hnone]
  split <;> rfl

/-- No value below zero. -/
theorem eq_zero_of_le_zero {x : UInt8} (h : nandByte.le x badBlockMarkerValue) :
    x = badBlockMarkerValue := by
  have hzero : x &&& 0 = x := h
  rw [← hzero]
  exact UInt8.and_zero

section Step

variable {array : Nat → Row} {b : Fin numBlocks}

theorem blockOf_firstPage (b : Fin numBlocks) : blockOf (firstPage b) = b := blockOf_mul b

theorem firstPage_injective {b b' : Fin numBlocks} (h : firstPage b = firstPage b') : b = b' := by
  apply Fin.ext
  rw [← blockOf_firstPage b, h, blockOf_firstPage]

/-- Only the erase of a block erases its first page. -/
theorem access_erases_iff (op : BlockOp) :
    op.access.Erases blockOf (firstPage b) ↔ op = .page (.erase b) := by
  unfold Access.Erases
  rw [blockOf_firstPage]
  constructor
  · intro h
    cases op with
    | page op =>
      cases op with
      | erase b' => rw [Fin.ext (Access.erase.inj h)]
      | prog p data => exact nomatch h
      | copy src dst eccFatal => exact nomatch h
      | read p offset data len eccFatal => exact nomatch h
    | isFree p free => exact nomatch h
    | check b' isBad => exact nomatch h
    | mark b' => exact nomatch h
  · rintro rfl
    rfl

theorem isMarked_of_erases {a : PageAccess} (h : a.Erases blockOf (firstPage b)) :
    isMarked (a.apply array) b = false := by
  rw [isMarked_eq_false_iff]
  intro c _
  show Access.apply nandByte blockOf a array (firstPage b) c ≠ badBlockMarkerValue
  rw [Access.apply_of_erases h]
  decide

theorem isMarked_of_not_touches {a : PageAccess} (h : ¬ a.Touches blockOf (firstPage b)) :
    isMarked (a.apply array) b = isMarked array b :=
  isMarked_congr fun c _ => congrFun (Access.apply_of_not_touches h) c

/-- `nand_mark_bad_block` clears our marker. -/
theorem isMarked_mark : isMarked ((BlockOp.mark b).access.apply array) b = true := by
  refine isMarked_iff.mpr ⟨markerColumn, List.mem_cons_self, ?_⟩
  show Function.update array (firstPage b) (fun c => array (firstPage b) c &&&
    Row.erased.overwrite markerColumn [badBlockMarkerValue] c) (firstPage b) markerColumn = _
  rw [Function.update_self]
  have hzero : Row.erased.overwrite markerColumn [badBlockMarkerValue] markerColumn = 0 := by decide
  rw [hzero]
  exact UInt8.and_zero

/-- A program of the data area leaves the markers alone. -/
theorem isMarked_prog (p : Fin numPages) (data : PageData) :
    isMarked ((PageOp.prog p data).access.apply array) b = isMarked array b := by
  refine isMarked_congr fun c hc => Access.program_erased ?_ _
  apply overwrite_of_length_le
  rw [data.length_bytes, Nat.zero_add]
  exact pageSize_le_of_mem_markerColumns hc

/-- A copy onto the first page of a block meets the markers of the two pages. -/
theorem isMarked_copy (src : Nat) :
    isMarked (PageAccess.apply (.copy src (firstPage b)) array) b = true ↔
      ∃ c ∈ markerColumns, array (firstPage b) c &&& array src c = badBlockMarkerValue := by
  rw [isMarked_iff]
  simp only [PageAccess.apply, Access.apply, Function.update_self]
  rfl

/-- **Bad to good.** A bad block becomes good by its erase, and by nothing else. -/
theorem isMarked_apply_of_marked (h : isMarked array b = true) (op : BlockOp) :
    isMarked (op.access.apply array) b = false ↔ op = .page (.erase b) := by
  rw [← access_erases_iff]
  constructor
  · intro hgood
    by_contra hop
    -- a marker is zero, and without an erase it can only stay so
    obtain ⟨c, hc, hzero⟩ := isMarked_iff.mp h
    have hle := Access.apply_le (M := nandByte) (s := array) hop c
    rw [hzero] at hle
    exact isMarked_eq_false_iff.mp hgood c hc (eq_zero_of_le_zero hle)
  · exact isMarked_of_erases

/-- A copy onto the first page of a block that clears one of its markers. -/
def CopyClears (array : Nat → Row) (b : Fin numBlocks) (op : BlockOp) : Prop :=
  ∃ src dst eccFatal, op = .page (.copy src dst eccFatal) ∧ (dst : Nat) = firstPage b ∧
    ∃ c ∈ markerColumns, array dst c &&& array src c = badBlockMarkerValue

/-- **Good to bad.** A good block becomes bad by `nand_mark_bad_block`, or by a copy that clears
one of its markers, and by nothing else. -/
theorem isMarked_apply_of_unmarked (h : isMarked array b = false) (op : BlockOp) :
    isMarked (op.access.apply array) b = true ↔ op = .mark b ∨ CopyClears array b op := by
  constructor
  · intro hbad
    -- what leaves the markers alone cannot have done it
    have hchanged : isMarked (op.access.apply array) b ≠ isMarked array b := by
      rw [hbad, h]
      exact Bool.noConfusion
    have htouch : op.access.Touches blockOf (firstPage b) := by
      by_contra htouch
      exact hchanged (isMarked_of_not_touches htouch)
    cases op with
    | page op =>
      cases op with
      | erase b' =>
        obtain rfl : b = b' := Fin.ext ((blockOf_firstPage b).symm.trans htouch)
        have hgood : isMarked (PageAccess.apply (.erase b) array) b = false :=
          isMarked_of_erases ((access_erases_iff _).mpr rfl)
        exact Bool.noConfusion (hgood.symm.trans hbad)
      | prog p data => exact absurd (isMarked_prog p data) hchanged
      | copy src dst eccFatal =>
        have hdst : firstPage b = dst := htouch
        refine .inr ⟨src, dst, eccFatal, rfl, hdst.symm, ?_⟩
        rw [← hdst]
        apply (isMarked_copy (src : Nat)).mp
        rw [hdst]
        exact hbad
      | read p offset data len eccFatal => exact htouch.elim
    | isFree p free => exact htouch.elim
    | check b' isBad => exact htouch.elim
    | mark b' => exact .inl (by rw [firstPage_injective htouch])
  · rintro (rfl | ⟨src, dst, eccFatal, rfl, hdst, hclear⟩)
    · exact isMarked_mark
    · rw [hdst] at hclear
      have hmarked := (isMarked_copy (src : Nat)).mpr hclear
      rwa [← hdst] at hmarked

end Step

/-! ## The answers of `nand_check_bad_block` -/

/-- `nand_check_bad_block` succeeds on the chip and answers `bad`. -/
def CheckAnswers (s : Chip Unit) (b : Fin numBlocks) (bad : Bool) : Prop :=
  ∀ fuel isBad d stack, ((BlockOp.check b isBad).operation.step (Chip.env singleCache) fuel d
    (s, stack)).result = .ok ⟨amHalStatusSuccess, [], some bad⟩

/-- On a ready chip whose PAGE_READ is done in time, the answer is in the markers. -/
theorem checkAnswers_iff_of_ready {s : Chip Unit} {m : Core Unit} (hs : s.Ready m)
    (hok : ∀ n, (s.future n).status = amHalStatusSuccess)
    (hintime : (s.future 0).busy .read < ArrayOp.read.budget) (b : Fin numBlocks) (bad : Bool) :
    CheckAnswers s b bad ↔ isMarked m.array b = bad := by
  have hresult : ∀ fuel isBad d stack, ((BlockOp.check b isBad).operation.step
      (Chip.env singleCache) fuel d (s, stack)).result =
        .ok ⟨amHalStatusSuccess, [], some (isMarked m.array b)⟩ := by
    intro fuel isBad d stack
    have hwp : wpS (Chip.handler singleCache) (fun _ _ => False)
        ((BlockOp.check b isBad).operation.run fuel)
        (fun r _ => r = ⟨amHalStatusSuccess, [], some (isMarked m.array b)⟩) s := by
      apply wpS_map
      apply wpS_mono (Chip.ready_checkBadBlock hs hok hintime _ isBad)
      intro r s' h
      obtain ⟨rfl, -⟩ := h
      have hrow : rowOf (blockToPageAddr (UInt32.ofNat b)) = firstPage b := blockRow_ofNat b.isLt
      simp only [stream_readCmds, hrow, isMarked, markerColumns, List.any_cons, List.any_nil,
        Bool.or_false]
      rfl
    obtain ⟨r, hr, rfl⟩ := step_returns _ hwp d stack
    exact hr
  constructor
  · intro h
    have heq := (hresult 0 false Driver.initial fun _ => .zero).symm.trans
      (h 0 false Driver.initial fun _ => .zero)
    simpa using heq
  · rintro rfl
    exact hresult

/-- On an idle chip the answer is in the markers. -/
theorem checkAnswers_iff {s : Chip Unit} {m : Core Unit} (hs : s.Idle m) (b : Fin numBlocks)
    (bad : Bool) : CheckAnswers s b bad ↔ isMarked m.array b = bad :=
  checkAnswers_iff_of_ready hs.toReady hs.ok hs.read_lt_budget b bad

/-- How one step may change the answer for a block: from bad to good only as
`nand_erase_block` on it, and from good to bad only as `nand_mark_bad_block` on it, or as a
`nand_copy_page` onto its first page from a page that shares no bit of a marker with it. -/
def ChangesOnlyItsOwn (b : Fin numBlocks) (st : Step (Chip Unit)) : Prop :=
  (CheckAnswers st.before b true → CheckAnswers st.after b false →
    st.op = .eraseBlock (UInt16.ofNat b)) ∧
  (CheckAnswers st.before b false → CheckAnswers st.after b true →
    st.op = .markBadBlock (UInt32.ofNat b) ∨
    ∃ (src dst : Fin numPages) (eccFatal : Option Bool),
      st.op = .copyPage (UInt32.ofNat src) (UInt32.ofNat dst) eccFatal ∧
      (dst : Nat) = firstPage b ∧ ∃ c ∈ markerColumns,
        st.before.core.array dst c &&& st.before.core.array src c = badBlockMarkerValue)

/-- One operation that returns, on an idle chip: the chip is idle again, with the array that the
access leaves. -/
theorem step_blockOp {s : Chip Unit} {m : Core Unit} (hs : s.Idle m) (fuel : Nat) (op : BlockOp)
    (d : Driver) (stack : Nat → Answer) {r : OpResult}
    (hr : (op.operation.step (Chip.env singleCache) fuel d (s, stack)).result = .ok r) :
    ∃ m', (op.operation.step (Chip.env singleCache) fuel d (s, stack)).after.Idle m' ∧
      m'.array = op.access.apply m.array := by
  have hstep := step_of_wp op.operation (idle_blockOp hs fuel op) d stack
  rw [hr] at hstep
  exact hstep

theorem step_changesOnlyItsOwn {s : Chip Unit} {m : Core Unit} (hs : s.Idle m) (fuel : Nat)
    (op : BlockOp) (d : Driver) (stack : Nat → Answer) {r : OpResult}
    (hr : (op.operation.step (Chip.env singleCache) fuel d (s, stack)).result = .ok r)
    (b : Fin numBlocks) :
    ChangesOnlyItsOwn b (op.operation.step (Chip.env singleCache) fuel d (s, stack)) := by
  obtain ⟨m', hs', harray⟩ := step_blockOp hs fuel op d stack hr
  have hbefore : ∀ bad, CheckAnswers s b bad ↔ isMarked m.array b = bad := checkAnswers_iff hs b
  have hcore : m.array = s.core.array := congrArg Core.array hs.core.symm
  constructor
  · intro hbad hgood
    have hgood := (checkAnswers_iff hs' b false).mp hgood
    rw [harray] at hgood
    have herase : op = .page (.erase b) :=
      (isMarked_apply_of_marked ((hbefore true).mp hbad) op).mp hgood
    rw [herase]
    rfl
  · intro hgood hbad
    have hbad := (checkAnswers_iff hs' b true).mp hbad
    rw [harray] at hbad
    rcases (isMarked_apply_of_unmarked ((hbefore false).mp hgood) op).mp hbad with
      rfl | ⟨src, dst, eccFatal, rfl, hdst, hclear⟩
    · exact .inl rfl
    · rw [hcore] at hclear
      exact .inr ⟨src, dst, eccFatal, rfl, hdst, hclear⟩

/-- **What changes the bad blocks.** In every run on a chip with one cache register and without
faults, every operation that returns changes the answers of `nand_check_bad_block` only in the
ways of `ChangesOnlyItsOwn`. -/
theorem steps_change_bad_blocks (s : Chip Unit) (hready : s.busy = 0) (hfault : FaultFree s.future)
    (fuel : Nat) (ops : List BlockOp) (d : Driver) (stack : Nat → Answer) :
    ∀ st ∈ steps (Chip.env singleCache) fuel (ops.map BlockOp.operation) d (s, stack),
      ∀ r, st.result = .ok r → ∀ b : Fin numBlocks, ChangesOnlyItsOwn b st := by
  intro st hst
  obtain ⟨pre, suf, heq⟩ := List.append_of_mem hst
  -- between operations the chip is idle
  refine steps_induction (fun op => ∃ bop : BlockOp, op = bop.operation)
    (fun _ s => ∃ m, s.Idle m) (fun _ st => ∀ r, st.result = .ok r → ∀ b, ChangesOnlyItsOwn b st)
    ?_ ?_ ⟨s.core, rfl, hready, hfault⟩ heq
  · rintro _ ⟨op, rfl⟩ d ⟨s, stack⟩ tr ⟨m, hs⟩
    refine ⟨fun r hr b => step_changesOnlyItsOwn hs fuel op d stack hr b, fun r hr => ?_⟩
    obtain ⟨m', hs', -⟩ := step_blockOp hs fuel op d stack hr
    exact ⟨m', hs'⟩
  · intro op hop
    obtain ⟨bop, -, rfl⟩ := List.mem_map.mp hop
    exact ⟨bop, rfl⟩

/-- A chip whose block 1 is marked and that is erased otherwise. -/
def oneBadBlock : Chip Unit where
  core :=
    { array := fun row c => if row = 64 ∧ c = markerColumn then 0 else 0xFF
      cache := fun _ _ => 0
      latch := false }
  busy := 0
  future _ := .clear

theorem oneBadBlock_idle : oneBadBlock.Idle oneBadBlock.core := ⟨rfl, rfl, faultFree_clear⟩

/-- The copy of the first page of block 1 onto that of block 0. -/
def markerCopy : Step (Chip Unit) :=
  (Operation.copyPage 64 0 none).step (Chip.env singleCache) 0 Driver.initial
    (oneBadBlock, fun _ => .zero)

theorem markerCopy_returns : ∃ r, markerCopy.result = .ok r := by
  have hwp : wpS (Chip.handler singleCache) (fun _ _ => False)
      ((Operation.copyPage 64 0 none).run 0) (fun _ _ => True) oneBadBlock := by
    apply wpS_map
    exact wpS_mono (Chip.idle_copyPage oneBadBlock_idle 64 0 none) fun _ _ _ => trivial
  obtain ⟨r, hr, -⟩ := step_returns _ hwp Driver.initial fun _ => .zero
  exact ⟨r, hr⟩

/-- Copying the first page of a bad block onto the first page of a good one makes that one bad. -/
theorem copy_spreads_marker :
    CheckAnswers markerCopy.before ⟨0, by decide⟩ false ∧
      CheckAnswers markerCopy.after ⟨0, by decide⟩ true := by
  constructor
  · have hgood : isMarked oneBadBlock.core.array ⟨0, by decide⟩ = false := by decide
    exact (checkAnswers_iff oneBadBlock_idle _ _).mpr hgood
  · obtain ⟨r, hr⟩ := markerCopy_returns
    obtain ⟨m', hs', harray⟩ := step_blockOp oneBadBlock_idle 0
      (.page (.copy ⟨64, by decide⟩ ⟨0, by decide⟩ none)) Driver.initial (fun _ => .zero) hr
    have hbad : isMarked m'.array ⟨0, by decide⟩ = true := by
      rw [harray]
      decide
    exact (checkAnswers_iff hs' _ _).mpr hbad

/-- It is one of the ways in which that may happen. -/
theorem markerCopy_changes_block_zero : ChangesOnlyItsOwn ⟨0, by decide⟩ markerCopy := by
  obtain ⟨r, hr⟩ := markerCopy_returns
  exact steps_change_bad_blocks oneBadBlock rfl faultFree_clear 0
    [.page (.copy ⟨64, by decide⟩ ⟨0, by decide⟩ none)] Driver.initial (fun _ => .zero)
    markerCopy List.mem_cons_self r hr _

end SpiNand
