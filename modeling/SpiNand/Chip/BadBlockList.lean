import SpiNand.Chip.Atomicity

/-!
# The list of bad blocks

`nand_print_bad_blocks` checks one block after the other and prints the number of each one that is
bad. What it prints is what `nand_check_bad_block` answers where these checks are made one after
the other: the bad blocks in ascending order with their count, or those before the first block
whose check fails (`loop_lists`). On a chip that may wear out each answer is in the markers, unless
the read behind it failed (`printBadBlocks_lists`). The strings it prints are those of the calls of
`am_util_stdio_printf` in its trace.
-/

namespace SpiNand

open Interaction Interaction.Prog

/-! ## What is printed -/

/-- The strings printed, in order. -/
def consoleLines (tr : Trace) : List String :=
  tr.filterMap fun x => match x.1 with
    | .void (.printf text) => some text
    | _ => none

theorem consoleLines_append (tr tr' : Trace) :
    consoleLines (tr ++ tr') = consoleLines tr ++ consoleLines tr' :=
  List.filterMap_append

@[simp] theorem consoleLines_printf (text : String) (a : Answer) (tr : Trace) :
    consoleLines ((.void (.printf text), a) :: tr) = text :: consoleLines tr := rfl

/-- A watcher that allows nothing to be printed. -/
def quietMonitor : Monitor Unit Call Answer where
  step _ _ _ := ()
  allows _ q := ∀ text, q ≠ .void (.printf text)

instance : Handler.IgnoresStack quietMonitor.handler where
  uninit h := ⟨by simp [quietMonitor], h⟩

theorem quiet_cmd {c : NandCmd} {φ : Answer → Unit → Prop} (h : ∀ a, φ a ()) :
    Handler.cmd quietMonitor.handler c φ () :=
  fun _ _ => ⟨by simp [quietMonitor], h⟩

theorem consoleLines_of_quiet {tr : Trace} (h : quietMonitor.Accepts () tr) :
    consoleLines tr = [] := by
  apply List.filterMap_eq_nil_iff.mpr
  intro x hx
  obtain ⟨pre, suf, heq⟩ := List.append_of_mem hx
  have hquiet := h pre x suf heq
  split
  · rename_i text hprint
    exact absurd hprint (hquiet text)
  · rfl

/-- The wait of a page read prints nothing, as does the rest of it. -/
theorem quiet_checkBadBlock {E : Halt → Unit → Prop} (blockAddr : UInt32) (isBad : Bool) :
    wpS quietMonitor.handler E (nandCheckBadBlock blockAddr isBad) (fun _ _ => True) () := by
  apply wpS_checkBadBlock
  intro markers hlen
  apply wpS_readPage
  apply quiet_cmd
  intro a
  refine ⟨fun _ => ?_, fun _ => trivial⟩
  refine Handler.polls_of_inv (fun _ _ => True) ?_ (fun _ _ => trivial) trivial
  intro n s _
  apply quiet_cmd
  intro a'
  split
  · trivial
  · split
    · exact ⟨by simp [quietMonitor], fun _ => trivial⟩
    · exact quiet_cmd fun _ => trivial

/-! ## The checks -/

section Checks

variable {σ : Type} (env : Environment σ)

/-- A check returns, and prints nothing. -/
theorem checkBadBlock_returns (blockAddr : UInt32) (isBad : Bool) (d : Driver)
    (s : σ × (Nat → Answer)) :
    ∃ st bad d' s',
      (nandCheckBadBlock blockAddr isBad d).eval (withStack env) s = (.ok ((st, bad), d'), s') ∧
      consoleLines ((nandCheckBadBlock blockAddr isBad d).trace (withStack env) s) = [] := by
  have hquiet := quiet_checkBadBlock (E := fun _ _ => False) blockAddr isBad d
  obtain ⟨haccepts, hreturns⟩ := quietMonitor.sound hquiet (withStack env) s
  rcases heval : (nandCheckBadBlock blockAddr isBad d).eval (withStack env) s
    with ⟨e | ⟨⟨st, bad⟩, d'⟩, s'⟩
  · rw [heval] at hreturns
    exact hreturns.elim
  · exact ⟨st, bad, d', s', rfl, consoleLines_of_quiet haccepts⟩

variable {env}

/-- What a check returns for what it read. The flag it was given shows only where the read
failed. -/
def checked (isBad : Bool) (read : ReadResult) : Status × Bool :=
  (read.ui32Status, if read.ui32Status = amHalStatusSuccess then
    read.data.getD badBlockOurByteOffset 0 == badBlockMarkerValue ||
      read.data.getD badBlockFactoryByteOffset 0 == badBlockMarkerValue
    else isBad)

theorem checkBadBlock_apply (blockAddr : UInt32) (isBad : Bool) (d : Driver) :
    nandCheckBadBlock blockAddr isBad d = .ask .uninit fun a =>
      (nandReadPage (blockToPageAddr blockAddr + badBlockPageOffset)
        (UInt16.ofNat badBlockAreaOffset) ((List.range badBlockAreaLength).map a.bytes)
        (UInt32.ofNat badBlockAreaLength) none d).bind fun x => .done (checked isBad x.1, x.2) := by
  have hfinish : ∀ (read : ReadResult) (d' : Driver),
      (if read.ui32Status ≠ amHalStatusSuccess then pure (read.ui32Status, isBad)
        else pure (read.ui32Status, read.data.getD badBlockOurByteOffset 0 == badBlockMarkerValue ||
          read.data.getD badBlockFactoryByteOffset 0 == badBlockMarkerValue)
        : DriverM (Status × Bool)) d' = .done (checked isBad read, d') := by
    intro read d'
    unfold checked
    by_cases hok : read.ui32Status = amHalStatusSuccess
    · rw [if_neg (not_ne_iff.mpr hok), if_pos hok]
      rfl
    · rw [if_pos hok, if_neg hok]
      rfl
  apply congrArg (Prog.ask Call.uninit)
  funext a
  exact congrArg (fun f => Prog.bind (nandReadPage (blockToPageAddr blockAddr + badBlockPageOffset)
    (UInt16.ofNat badBlockAreaOffset) ((List.range badBlockAreaLength).map a.bytes)
    (UInt32.ofNat badBlockAreaLength) none d) f) (funext fun x => hfinish x.1 x.2)

/-- A check ends in the same way with another flag. -/
theorem eval_checkBadBlock_flag {blockAddr : UInt32} {isBad bad : Bool} {d d' : Driver}
    {s s' : σ × (Nat → Answer)} {st : Status}
    (h : (nandCheckBadBlock blockAddr isBad d).eval (withStack env) s =
      (.ok ((st, bad), d'), s')) (isBad' : Bool) :
    ∃ bad', (nandCheckBadBlock blockAddr isBad' d).eval (withStack env) s =
      (.ok ((st, bad'), d'), s') ∧ (st = amHalStatusSuccess → bad' = bad) := by
  rw [checkBadBlock_apply, eval_ask, eval_bind] at h
  rw [checkBadBlock_apply, eval_ask, eval_bind]
  revert h
  rcases (nandReadPage _ _ _ _ _ d).eval (withStack env) (withStack env s Call.uninit).2
    with ⟨e | ⟨read, d''⟩, s''⟩
  · intro h
    cases h
  · intro h
    cases h
    refine ⟨_, rfl, fun hok => ?_⟩
    have hread : read.ui32Status = amHalStatusSuccess := hok
    rw [if_pos hread, if_pos hread]

end Checks

/-! ## The list -/

/-- The checks of `n` blocks from `i` on. -/
def blockChecks (i n : Nat) : List Operation :=
  (List.range' i n).map fun b => .checkBadBlock (UInt32.ofNat b) false

/-- The check answered that its block is bad. -/
def Step.AnswersBad {σ : Type} (st : Step σ) : Bool :=
  match st.result with
  | .ok r => r.flag == some true
  | .error _ => false

/-- The bad blocks by the answers of the checks from the block `i` on. -/
def badBlocks {σ : Type} : Nat → List (Step σ) → List Nat
  | _, [] => []
  | i, st :: checks =>
    if st.AnswersBad then i :: badBlocks (i + 1) checks else badBlocks (i + 1) checks

/-- What is printed for them. -/
def badLines {σ : Type} (i : Nat) (checks : List (Step σ)) : List String :=
  (badBlocks i checks).map fun b => s!"{b} \n"

/-- The lines of a listing that returns the status `st`, with the block `i` the next one to check
and `total` found before: all bad blocks and their count if every check succeeded, or those before
the first check that failed, which returned `st`. -/
structure Listing {σ : Type} (i total : Nat) (checks : List (Step σ)) (st : Status)
    (lines : List String) : Prop where
  success : st = amHalStatusSuccess → (∀ x ∈ checks, x.Succeeds) ∧ lines = badLines i checks ++
    [s!"COMPLETE, found {total + (badBlocks i checks).length} \n"]
  failure : st ≠ amHalStatusSuccess → ∃ pre x suf r, checks = pre ++ x :: suf ∧
    (∀ y ∈ pre, y.Succeeds) ∧ x.result = .ok r ∧ r.ui32Status = st ∧
    lines = badLines i pre ++ [s!"Failed to read block {i + pre.length} \n"]

/-- One more check at the front, whose block is printed and counted if it is bad. -/
theorem Listing.cons {σ : Type} {i total : Nat} {x : Step σ} {checks : List (Step σ)} {st : Status}
    {lines : List String} (hx : x.Succeeds)
    (h : Listing (i + 1) (if x.AnswersBad then total + 1 else total) checks st lines) :
    Listing i total (x :: checks) st
      (if x.AnswersBad then s!"{i} \n" :: lines else lines) := by
  constructor
  · intro hst
    obtain ⟨hall, hlines⟩ := h.success hst
    have hsucceed : ∀ y ∈ x :: checks, y.Succeeds := by
      intro y hy
      rcases List.mem_cons.mp hy with rfl | hy
      · exact hx
      · exact hall y hy
    refine ⟨hsucceed, ?_⟩
    rw [hlines, badLines, badLines, badBlocks]
    split
    · have hcount : total + 1 + (badBlocks (i + 1) checks).length =
          total + (i :: badBlocks (i + 1) checks).length := by
        rw [List.length_cons]
        omega
      rw [hcount]
      rfl
    · rfl
  · intro hst
    obtain ⟨pre, y, suf, r, heq, hpre, hy, hr, hlines⟩ := h.failure hst
    refine ⟨x :: pre, y, suf, r, by rw [heq]; rfl, ?_, hy, hr, ?_⟩
    · intro z hz
      rcases List.mem_cons.mp hz with rfl | hz
      · exact hx
      · exact hpre z hz
    · have hindex : i + 1 + pre.length = i + (x :: pre).length := by
        rw [List.length_cons]
        omega
      rw [hlines, hindex, badLines, badLines, badBlocks]
      split
      · rfl
      · rfl

/-- A 32-bit number is printed as what it stands for. -/
theorem toString_ofNat {n : Nat} (hn : n ≤ numBlocks) : toString (UInt32.ofNat n) = toString n := by
  have hblocks : numBlocks = 2048 := rfl
  have hnat : (UInt32.ofNat n).toNat = n := by
    rw [UInt32.toNat_ofNat']
    omega
  show toString (UInt32.ofNat n).toNat = toString n
  rw [hnat]

theorem ofNat_add_one (n : Nat) : UInt32.ofNat n + 1 = UInt32.ofNat (n + 1) := by
  rw [UInt32.ofNat_add]
  rfl

section Loop

variable {σ : Type} (env : Environment σ) (fuel : Nat)

/-- The first check of a run of checks. -/
theorem steps_blockChecks {i n : Nat} {d d' : Driver} {s s' : σ × (Nat → Answer)} {st : Status}
    {bad : Bool} (h : (nandCheckBadBlock (UInt32.ofNat i) false d).eval (withStack env) s =
      (.ok ((st, bad), d'), s')) :
    ∃ x : Step σ, steps env fuel (blockChecks i (n + 1)) d s =
        x :: steps env fuel (blockChecks (i + 1) n) d' s' ∧
      x.result = .ok ⟨st, [], some bad⟩ := by
  have hrun : ((Operation.checkBadBlock (UInt32.ofNat i) false).run fuel d).eval (withStack env) s =
      (.ok (⟨st, [], some bad⟩, d'), s') := eval_bind_ok h _
  refine ⟨(Operation.checkBadBlock (UInt32.ofNat i) false).step env fuel d s, ?_, ?_⟩
  · unfold blockChecks
    rw [List.range'_succ, List.map_cons, steps, hrun]
  · simp [Operation.step, hrun, Except.map]

/-- The rest of the loop, from the block `i` on, in any environment that printing does not change:
it returns, and prints what the checks of the blocks answer one after the other. -/
theorem loop_lists (hprint : ∀ s text, (env s (.void (.printf text))).2 = s) {n i total : Nat}
    (hi : i + n = numBlocks) (htotal : total ≤ i) (isBad : Bool) (d : Driver)
    (s : σ × (Nat → Answer)) :
    ∃ st d' s',
      (nandPrintBadBlocksLoop n (UInt32.ofNat i) (UInt32.ofNat total) isBad amHalStatusSuccess
        d).eval (withStack env) s = (.ok (st, d'), s') ∧
      Listing i total (steps env fuel (blockChecks i n) d s) st
        (consoleLines ((nandPrintBadBlocksLoop n (UInt32.ofNat i) (UInt32.ofNat total) isBad
          amHalStatusSuccess d).trace (withStack env) s)) := by
  induction n generalizing i total isBad d s with
  | zero =>
    refine ⟨_, _, _, rfl, fun _ => ⟨nofun, ?_⟩, fun hst => absurd rfl hst⟩
    have htext : toString (UInt32.ofNat total) = toString total := toString_ofNat (by omega)
    show [s!"COMPLETE, found {UInt32.ofNat total} \n"] = [s!"COMPLETE, found {total + 0} \n"]
    rw [htext]
    rfl
  | succ n ih =>
    obtain ⟨st, bad, d₁, s₁, hcheck, hquiet⟩ :=
      checkBadBlock_returns env (UInt32.ofNat i) isBad d s
    obtain ⟨bad', hcheck', hsame⟩ := eval_checkBadBlock_flag hcheck false
    obtain ⟨x, hsteps, hx⟩ := steps_blockChecks env fuel (n := n) hcheck'
    have hloop : nandPrintBadBlocksLoop (n + 1) (UInt32.ofNat i) (UInt32.ofNat total) isBad
        amHalStatusSuccess d = (nandCheckBadBlock (UInt32.ofNat i) isBad d).bind fun r =>
          (if r.1.1 ≠ amHalStatusSuccess then do
            amUtilStdioPrintf s!"Failed to read block {UInt32.ofNat i} \n"
            return r.1.1
          else if r.1.2 then do
            amUtilStdioPrintf s!"{UInt32.ofNat i} \n"
            nandPrintBadBlocksLoop n (UInt32.ofNat i + 1) (UInt32.ofNat total + 1) r.1.2 r.1.1
          else nandPrintBadBlocksLoop n (UInt32.ofNat i + 1) (UInt32.ofNat total) r.1.2 r.1.1
          : DriverM Status) r.2 := rfl
    rw [hloop, eval_bind_ok hcheck, trace_bind_ok hcheck, consoleLines_append, hquiet,
      List.nil_append, hsteps]
    simp only
    have htext : toString (UInt32.ofNat i) = toString i := toString_ofNat (by omega)
    by_cases hok : st = amHalStatusSuccess
    · subst hok
      obtain rfl := hsame rfl
      have hsucceeds : x.Succeeds := ⟨_, hx, rfl⟩
      have hanswers : x.AnswersBad = bad' := by
        unfold Step.AnswersBad
        rw [hx]
        cases bad' <;> rfl
      rw [if_neg (not_ne_iff.mpr rfl), ofNat_add_one, ofNat_add_one]
      -- the rest of the loop, with the block counted or not
      have hi' : i + 1 + n = numBlocks := by omega
      have htotal' : (if x.AnswersBad then total + 1 else total) ≤ i + 1 := by
        split <;> omega
      obtain ⟨st', d₂, s₂, heval, hlisting⟩ := ih hi' htotal' bad' d₁ s₁
      have hcons := hlisting.cons hsucceeds
      refine ⟨st', d₂, s₂, ?_, ?_⟩
      · cases bad' with
        | true =>
          rw [hanswers] at heval
          show (nandPrintBadBlocksLoop n _ (UInt32.ofNat (total + 1)) true _ d₁).eval
            (withStack env) ((env s₁.1 (.void (.printf _))).2, s₁.2) = _
          rw [hprint]
          exact heval
        | false =>
          rw [hanswers] at heval
          exact heval
      · rw [hanswers] at hcons
        cases bad' with
        | true =>
          show Listing i total _ st' (s!"{UInt32.ofNat i} \n" :: consoleLines
            ((nandPrintBadBlocksLoop n _ (UInt32.ofNat (total + 1)) true _ d₁).trace (withStack env)
              ((env s₁.1 (.void (.printf _))).2, s₁.2)))
          rw [htext, hprint]
          exact hcons
        | false => exact hcons
    · rw [if_pos hok]
      refine ⟨_, _, _, rfl, fun hst => absurd hst hok, fun _ => ?_⟩
      refine ⟨[], x, _, _, rfl, nofun, hx, rfl, ?_⟩
      show [s!"Failed to read block {UInt32.ofNat i} \n"] = [s!"Failed to read block {i + 0} \n"]
      rw [htext]
      rfl

/-- The headline. -/
def listHeader : String := "Checking for Bad Blocks, addresses (decimal): \n"

/-- `nand_print_bad_blocks` returns, and after the headline prints what the checks answer. The flag
it starts with is whatever is on the stack. -/
theorem printBadBlocks_prints (hprint : ∀ s text, (env s (.void (.printf text))).2 = s) (d : Driver)
    (s : σ) (stack : Nat → Answer) :
    ∃ r lines, (Operation.printBadBlocks.step env fuel d (s, stack)).result = .ok r ∧
      consoleLines (Operation.printBadBlocks.step env fuel d (s, stack)).trace =
        listHeader :: lines ∧
      Listing 0 0 (steps env fuel (blockChecks 0 numBlocks) d (s, fun n => stack (n + 1)))
        r.ui32Status lines := by
  have hcount : 0 + numBlocks = numBlocks := Nat.zero_add _
  obtain ⟨st, d', s', heval, hlisting⟩ := loop_lists env fuel hprint hcount (le_refl 0)
    (decide ((stack 0).bytes 0 ≠ 0)) d (s, fun n => stack (n + 1))
  have hrun : (Operation.printBadBlocks.run fuel d) = .ask .uninit fun a =>
      .ask (.void (.printf listHeader)) fun _ =>
        (nandPrintBadBlocksLoop numBlocks 0 0 (decide (a.bytes 0 ≠ 0)) 0 d).bind fun r =>
          .done (⟨r.1, [], none⟩, r.2) := rfl
  have hend : (Operation.printBadBlocks.run fuel d).eval (withStack env) (s, stack) =
      (.ok (⟨st, [], none⟩, d'), s') := by
    rw [hrun, eval_ask, eval_ask]
    show Prog.eval (withStack env) _ ((env s (.void (.printf listHeader))).2, _) = _
    rw [hprint]
    exact eval_bind_ok heval _
  have htrace : (Operation.printBadBlocks.run fuel d).trace (withStack env) (s, stack) =
      (.uninit, stack 0) :: (.void (.printf listHeader), (env s (.void (.printf listHeader))).1) ::
        ((nandPrintBadBlocksLoop numBlocks (UInt32.ofNat 0) (UInt32.ofNat 0)
          (decide ((stack 0).bytes 0 ≠ 0)) amHalStatusSuccess d).trace (withStack env)
            (s, fun n => stack (n + 1)) ++ []) := by
    rw [hrun, trace_ask, trace_ask]
    show _ :: _ :: Prog.trace (withStack env) _ ((env s (.void (.printf listHeader))).2, _) = _
    rw [hprint]
    exact congrArg (fun tr => _ :: _ :: tr) (trace_bind_ok heval _)
  refine ⟨⟨st, [], none⟩, _, ?_, ?_, hlisting⟩
  · simp [Operation.step, hend, Except.map]
  · show consoleLines ((Operation.printBadBlocks.run fuel d).trace _ _) = _
    rw [htrace, List.append_nil]
    rfl

end Loop

/-! ## On the chip -/

instance : Handler.TransfersOnly WornChip.handler where
  uninit h := h
  void h := h _
  setup h := h _

/-- A check of any block keeps the pages, and leaves the chip ready if it succeeds. -/
theorem ready_checkBadBlock_keeps {E : Halt → WornChip → Prop} {s : WornChip}
    (hready : s.chip.busy = 0) (blockAddr : UInt32) (isBad : Bool) :
    wpS WornChip.handler E (nandCheckBadBlock blockAddr isBad) (fun r s' =>
      s'.chip.core.array = s.chip.core.array ∧
        (r.1 = amHalStatusSuccess → s'.chip.busy = 0)) s := by
  have hs : s.Ready s.chip.core s.failures := ⟨rfl, hready, rfl⟩
  apply wpS_checkBadBlock
  intro markers _
  apply wpS_mono (ready_readPage_settles hs (blockToPageAddr blockAddr)
    (UInt16.ofNat badBlockAreaOffset) markers (UInt32.ofNat badBlockAreaLength) none
    (rowOf (blockToPageAddr blockAddr)))
  intro read s' h
  exact ⟨h.untouched fun _ => id, h.ready⟩

/-- The listing changes no page. -/
theorem printBadBlocks_keeps {s : WornChip} (hready : s.chip.busy = 0) (fuel : Nat) (d : Driver)
    (stack : Nat → Answer) :
    (Operation.printBadBlocks.step WornChip.env fuel d (s, stack)).after.chip.core.array =
      s.chip.core.array := by
  have hkept : wpS WornChip.handler (fun _ s' => s'.chip.core.array = s.chip.core.array)
      (Operation.printBadBlocks.run fuel) (fun _ s' => s'.chip.core.array = s.chip.core.array)
      s := by
    apply wpS_map
    refine wpS_printBadBlocks
      (fun _ s' => s'.chip.busy = 0 ∧ s'.chip.core.array = s.chip.core.array) ?_
      (fun _ s' hs' => hs'.2) ⟨hready, rfl⟩
    intro n i isBad s₁ hs₁
    apply wpS_mono (ready_checkBadBlock_keeps hs₁.1 i isBad)
    intro r s₂ h
    have harray : s₂.chip.core.array = s.chip.core.array := h.1.trans hs₁.2
    split
    · exact harray
    · exact ⟨h.2 (not_ne_iff.mp ‹_›), harray⟩
  have hstep := step_of_wp Operation.printBadBlocks hkept d stack
  split at hstep
  · exact hstep
  · exact hstep

/-- The checks of a listing as operations on the store. -/
theorem blockChecks_eq : blockChecks 0 numBlocks =
    ((List.finRange numBlocks).map fun b => BlockOp.check b false).map BlockOp.operation := by
  unfold blockChecks
  rw [← List.range_eq_range', ← List.map_coe_finRange_eq_range, List.map_map, List.map_map]
  rfl

/-- A check overlooks nothing. -/
theorem lasts_of_mem_checks {fuel n : Nat} {d : Driver} {s : WornChip × (Nat → Answer)}
    {x : Step WornChip} (hx : x ∈ steps WornChip.env fuel (blockChecks 0 n) d s)
    (hok : x.Succeeds) : x.Lasts := by
  have hop := op_mem hx
  unfold blockChecks at hop
  obtain ⟨b, -, hb⟩ := List.mem_map.mp hop
  refine ⟨hok, fun h => ?_⟩
  rw [← hb] at h
  exact h.elim

/-- The answer of a check before which all succeeded is in the markers, unless its read failed. -/
theorem blockChecks_answers {fuel : Nat} {d : Driver} {s : WornChip} (hready : s.chip.busy = 0)
    {stack : Nat → Answer} {pre suf : List (Step WornChip)} {x : Step WornChip}
    (heq : steps WornChip.env fuel (blockChecks 0 numBlocks) d (s, stack) = pre ++ x :: suf)
    (hpre : ∀ y ∈ pre, y.Succeeds) (hok : x.Succeeds) (hnone : x.NoneFailed) :
    ∃ b : Fin numBlocks, (b : Nat) = pre.length ∧ x.AnswersBad = isMarked s.chip.core.array b := by
  have hlasts : ∀ y ∈ pre, y.Lasts := by
    intro y hy
    have hmem : y ∈ steps WornChip.env fuel (blockChecks 0 numBlocks) d (s, stack) := by
      rw [heq]
      exact List.mem_append_left _ hy
    exact lasts_of_mem_checks hmem (hpre y hy)
  rw [blockChecks_eq] at heq
  obtain ⟨op, hop, hatomic⟩ := steps_atomic_from hready rfl fuel _ d stack heq hlasts
  -- the check is that of the block reached
  rw [List.getElem?_map] at hop
  obtain ⟨b, hb, rfl⟩ := Option.map_eq_some_iff.mp hop
  obtain ⟨hlt, hget⟩ := List.getElem?_eq_some_iff.mp hb
  rw [List.getElem_finRange] at hget
  -- no check changes the pages
  have hpages : ∀ l : List (Fin numBlocks),
      replay s.chip.core.array (l.map fun b => BlockOp.check b false) = s.chip.core.array := by
    intro l
    induction l with
    | nil => rfl
    | cons b l ih => exact ih
  rw [← List.map_take, hpages] at hatomic
  obtain ⟨r, hr⟩ := hok
  have hflag : r.flag = some (isMarked s.chip.core.array b) := (hatomic.success r hr hnone).2
  refine ⟨b, ?_, ?_⟩
  · rw [← hget]
    rfl
  · unfold Step.AnswersBad
    rw [hr.1]
    simp [hflag]

/-- The blocks that are marked, in ascending order. -/
def markedBlocks (array : Nat → Row) : List Nat :=
  ((List.finRange numBlocks).filter (isMarked array)).map Fin.val

/-- Where the answers are known, they are the list. -/
theorem badBlocks_eq_filter {σ : Type} {f : Nat → Bool} {i : Nat} {checks : List (Step σ)}
    (h : ∀ pre x suf, checks = pre ++ x :: suf → x.AnswersBad = f (i + pre.length)) :
    badBlocks i checks = (List.range' i checks.length).filter f := by
  induction checks generalizing i with
  | nil => rfl
  | cons x checks ih =>
    have hx : x.AnswersBad = f i := h [] x checks rfl
    have hrest : badBlocks (i + 1) checks = (List.range' (i + 1) checks.length).filter f := by
      apply ih
      intro pre y suf heq
      have hindex : i + 1 + pre.length = i + (x :: pre).length := by
        rw [List.length_cons]
        omega
      rw [hindex]
      exact h (x :: pre) y suf (by rw [heq]; rfl)
    rw [badBlocks, List.length_cons, List.range'_succ, List.filter_cons, hx, hrest]

/-- If all checks succeed and no read fails, the bad blocks are the marked ones. -/
theorem badBlocks_eq_markedBlocks {fuel : Nat} {d : Driver} {s : WornChip}
    (hready : s.chip.busy = 0) {stack : Nat → Answer} {checks : List (Step WornChip)}
    (heq : steps WornChip.env fuel (blockChecks 0 numBlocks) d (s, stack) = checks)
    (hok : ∀ x ∈ checks, x.Succeeds) (hnone : ∀ x ∈ checks, x.NoneFailed) :
    badBlocks 0 checks = markedBlocks s.chip.core.array := by
  have hlength : checks.length = numBlocks := by
    have hreturn : ∀ x ∈ steps WornChip.env fuel (blockChecks 0 numBlocks) d (s, stack),
        ∃ r, x.result = .ok r := by
      rw [heq]
      exact fun x hx => (hok x hx).imp fun r hr => hr.1
    rw [← heq, length_steps hreturn]
    unfold blockChecks
    rw [List.length_map, List.length_range']
  rw [badBlocks_eq_filter (f := fun b => if hb : b < numBlocks then
    isMarked s.chip.core.array ⟨b, hb⟩ else false), hlength, ← List.range_eq_range',
    ← List.map_coe_finRange_eq_range, List.filter_map]
  · unfold markedBlocks
    congr 2
    funext b
    simp
  · intro pre x suf hsplit
    have hmem : x ∈ checks := by
      rw [hsplit]
      exact List.mem_append_right _ List.mem_cons_self
    obtain ⟨b, hb, hanswer⟩ := blockChecks_answers hready (heq.trans hsplit)
      (fun y hy => hok y (by rw [hsplit]; exact List.mem_append_left _ hy)) (hok x hmem)
      (hnone x hmem)
    simp [← hb, hanswer]

/-- **The list of bad blocks is right.** On a ready chip that may wear out, with any results of the
HAL, `nand_print_bad_blocks` returns, leaves the pages as they are, and prints what the checks of
the blocks answer one after the other, up to the first that fails. A check whose page read does not
fail answers as the markers say; if all succeed and none fails, the blocks printed are the marked
ones. -/
theorem printBadBlocks_lists (s : WornChip) (hready : s.chip.busy = 0) (fuel : Nat) (d : Driver)
    (stack : Nat → Answer) {checks : List (Step WornChip)}
    (hchecks : steps WornChip.env fuel (blockChecks 0 numBlocks) d (s, fun n => stack (n + 1)) =
      checks) :
    (Operation.printBadBlocks.step WornChip.env fuel d (s, stack)).after.chip.core.array =
      s.chip.core.array ∧
    (∃ r lines, (Operation.printBadBlocks.step WornChip.env fuel d (s, stack)).result = .ok r ∧
      consoleLines (Operation.printBadBlocks.step WornChip.env fuel d (s, stack)).trace =
        listHeader :: lines ∧ Listing 0 0 checks r.ui32Status lines) ∧
    (∀ pre x suf, checks = pre ++ x :: suf → (∀ y ∈ pre, y.Succeeds) → x.Succeeds →
      x.NoneFailed → ∃ b : Fin numBlocks, (b : Nat) = pre.length ∧
        x.AnswersBad = isMarked s.chip.core.array b) ∧
    ((∀ x ∈ checks, x.Succeeds) → (∀ x ∈ checks, x.NoneFailed) →
      badBlocks 0 checks = markedBlocks s.chip.core.array) := by
  refine ⟨printBadBlocks_keeps hready fuel d stack, ?_, ?_,
    badBlocks_eq_markedBlocks hready hchecks⟩
  · have hprints := printBadBlocks_prints WornChip.env fuel (fun _ _ => rfl) d s stack
    rwa [hchecks] at hprints
  · intro pre x suf hsplit
    exact blockChecks_answers hready (hchecks.trans hsplit)

/-- A chip whose first page read fails. -/
def tearsFirst : WornChip :=
  { tearsTenth with fates := fun n => if n = 0 then ⟨false, true, fun _ _ => 0⟩ else .harmless }

/-- A listing on it, and the checks behind the listing. -/
def tornListing : Step WornChip :=
  Operation.printBadBlocks.step WornChip.env 0 Driver.initial (tearsFirst, fun _ => .zero)

def tornChecks : List (Step WornChip) :=
  steps WornChip.env 0 (blockChecks 0 numBlocks) Driver.initial (tearsFirst, fun _ => .zero)

theorem tornListing_lists :
    tornListing.after.chip.core.array = tearsFirst.chip.core.array ∧
    ∃ r lines, tornListing.result = .ok r ∧ consoleLines tornListing.trace = listHeader :: lines ∧
      Listing 0 0 tornChecks r.ui32Status lines := by
  have hchecks : steps WornChip.env 0 (blockChecks 0 numBlocks) Driver.initial
      (tearsFirst, fun _ => .zero) = tornChecks := by
    unfold tornChecks
    rfl
  obtain ⟨hkept, hlisting, -⟩ :=
    printBadBlocks_lists tearsFirst rfl 0 Driver.initial (fun _ => .zero) hchecks
  unfold tornListing
  exact ⟨hkept, hlisting⟩

end SpiNand
