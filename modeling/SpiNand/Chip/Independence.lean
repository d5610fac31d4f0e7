import SpiNand.Chip.BadBlocks

/-!
# Operations on different blocks

On a chip without faults the driver is a page store for all of its operations on pages and
blocks (`idle_steps`). What passes between operations is in the cache register, the latch and
the driver's globals, and none of it is seen: a set of blocks behaves as if the operations on
the other blocks had not been there (`steps_independent`).
-/

namespace SpiNand

open Interaction Interaction.Prog WriteOnce

/-! ## Results -/

namespace BlockOp

/-- What an operation returns, from a store with the pages `store`. -/
def result (store : Nat → Row) : BlockOp → OpResult
  | .page op => op.result store
  | .isFree p free => ⟨amHalStatusSuccess, [], free.map fun _ =>
      decide (∀ i < eccAreaLength, store p (eccAreaOffset.toNat + i) = eccUnprogrammedValue)⟩
  | .check b _ => ⟨amHalStatusSuccess, [], some (isMarked store b)⟩
  | .mark _ => ⟨amHalStatusSuccess, [], none⟩

/-- The results of a sequence of operations on a store. -/
def results : (Nat → Row) → List BlockOp → List OpResult
  | _, [] => []
  | store, op :: ops => op.result store :: results (op.access.apply store) ops

/-- The pages and blocks an operation names are in the set of blocks `S`. -/
def inside (S : Nat → Bool) (op : BlockOp) : Bool := (op.access.blocks blockOf).all S

end BlockOp

/-- **The simulation of one operation**, with fuel for one page read. -/
theorem idle_blockOp_result {s : Chip Unit} {m : Core Unit} (hs : s.Idle m) {fuel : Nat}
    (hfuel : ArrayOp.read.budget ≤ fuel) (op : BlockOp) :
    wpS (Chip.handler singleCache) (fun _ _ => False) (op.operation.run fuel)
      (fun r s' => r = op.result m.array ∧
        ∃ m', s'.Idle m' ∧ m'.array = op.access.apply m.array) s := by
  cases op with
  | page op => exact idle_pageOp hs fuel op
  | isFree p free =>
    apply wpS_map
    apply wpS_isFree
    intro eccData hlen
    apply wpS_mono (Chip.idle_readPage hs _ _ _ _ _)
    intro read s' h
    obtain ⟨rfl, hs'⟩ := h
    refine ⟨?_, _, hs', array_readCmds m _⟩
    -- the buffer holds the bytes received and nothing else
    have hdrop : eccData.drop (UInt32.ofNat eccAreaLength).toNat = [] := by
      apply List.drop_eq_nil_of_le
      rw [hlen]
      decide
    rw [if_pos rfl, received, hdrop, List.append_nil, scanFree_map_range, stream_readCmds,
      rowOf_ofNat p.isLt]
    rfl
  | check b isBad =>
    apply wpS_map
    apply wpS_mono (Chip.idle_checkBadBlock hs _ isBad)
    intro r s' h
    obtain ⟨rfl, hs'⟩ := h
    refine ⟨?_, _, hs', array_readCmds m _⟩
    have hrow : rowOf (blockToPageAddr (UInt32.ofNat b)) = firstPage b := blockRow_ofNat b.isLt
    simp only [stream_readCmds, hrow, BlockOp.result, isMarked, markerColumns, List.any_cons,
      List.any_nil, Bool.or_false]
    rfl
  | mark b =>
    apply wpS_map
    apply wpS_weaken (Chip.idle_markBadBlock hs fuel _)
    · intro e s' h
      exact absurd hfuel (Nat.not_le_of_lt h.1)
    · intro st s' h
      obtain ⟨rfl, hs'⟩ := h
      exact ⟨rfl, _, hs', array_markCmds m b⟩

/-- **The driver is a page store**, with its queries and its marking too. -/
theorem idle_steps {s : Chip Unit} {m : Core Unit} (hs : s.Idle m) {fuel : Nat}
    (hfuel : ArrayOp.read.budget ≤ fuel) (ops : List BlockOp) (d : Driver)
    (stack : Nat → Answer) :
    (steps (Chip.env singleCache) fuel (ops.map BlockOp.operation) d (s, stack)).map Step.result =
      (BlockOp.results m.array ops).map .ok := by
  induction ops generalizing s m d stack with
  | nil => rfl
  | cons op ops ih =>
    obtain ⟨r, d', s', stack', heval, hr, m', hs', harray⟩ :=
      returns_withStack (idle_blockOp_result hs hfuel op) d stack
    have hres : (op.operation.step (Chip.env singleCache) fuel d (s, stack)).result = .ok r := by
      simp [Operation.step, heval, Except.map]
    simp only [List.map_cons, steps, heval, BlockOp.results, hres, hr]
    rw [ih hs' d' stack', harray]

/-! ## Sets of blocks -/

section Blocks

variable {S : Nat → Bool} {op : BlockOp} {store store' : Nat → Row}

theorem within_of_inside (h : op.inside S = true) : op.access.Within blockOf S := by
  intro b hb
  exact List.all_eq_true.mp h b hb

/-- The result of an operation is in the blocks that it names. -/
theorem result_congr (h : op.inside S = true)
    (hagree : ∀ row, S (blockOf row) = true → store row = store' row) :
    op.result store = op.result store' := by
  have hwithin := within_of_inside h
  cases op with
  | page op =>
    cases op with
    | erase b => rfl
    | prog p data => rfl
    | copy src dst eccFatal => rfl
    | read p offset data len eccFatal =>
      have hp : S (blockOf p) = true := hwithin _ List.mem_cons_self
      simp only [BlockOp.result, PageOp.result, hagree p hp]
  | isFree p free =>
    have hp : S (blockOf p) = true := hwithin _ List.mem_cons_self
    simp only [BlockOp.result, hagree p hp]
  | check b isBad =>
    have hb : S (blockOf (firstPage b)) = true := hwithin _ List.mem_cons_self
    have hmarked : isMarked store' b = isMarked store b :=
      isMarked_congr fun c _ => by rw [hagree _ hb]
    simp only [BlockOp.result, hmarked]
  | mark b => rfl

/-- Of the results on a store, those of the operations inside `S` are the results of these
operations alone, on any store with the same pages in `S`. -/
theorem results_inside {ops : List BlockOp}
    (hops : ∀ op ∈ ops, op.inside S = true ∨ op.inside (fun b => !S b) = true)
    (hagree : ∀ row, S (blockOf row) = true → store row = store' row) :
    ((ops.zip (BlockOp.results store ops)).filter fun x => x.1.inside S).map Prod.snd =
      BlockOp.results store' (ops.filter (BlockOp.inside S)) := by
  induction ops generalizing store store' with
  | nil => rfl
  | cons op ops ih =>
    have hrest : ∀ op' ∈ ops, op'.inside S = true ∨ op'.inside (fun b => !S b) = true :=
      fun op' h' => hops op' (List.mem_cons_of_mem _ h')
    rw [BlockOp.results, List.zip_cons_cons]
    cases hin : op.inside S with
    | true =>
      -- seen on both sides, from stores that agree where it looks
      have hnext := Access.apply_congr (M := nandByte) (within_of_inside hin) hagree
      simp only [List.filter_cons, hin, if_true, List.map_cons, BlockOp.results]
      rw [result_congr hin hagree, ih hrest hnext]
    | false =>
      -- outside: it changes nothing that the others see
      have hout : op.inside (fun b => !S b) = true := by
        rcases hops op List.mem_cons_self with h | h
        · rw [hin] at h
          exact Bool.noConfusion h
        · exact h
      have hkeep := Access.apply_outside (M := nandByte) (s := store) (within_of_inside hout)
      have hnext : ∀ row, S (blockOf row) = true → op.access.apply store row = store' row := by
        intro row hrow
        exact (hkeep row hrow).trans (hagree row hrow)
      simp only [List.filter_cons, hin, Bool.false_eq_true, if_false]
      exact ih hrest hnext

end Blocks

/-- **Blocks are independent.** In every run, on a chip without faults, of operations each of
which stays within a set of blocks or outside of it, those within return what they return in the
run of them alone, on any chip that has the same content in these blocks. -/
theorem steps_independent {S : Nat → Bool} {ops : List BlockOp}
    (hops : ∀ op ∈ ops, op.inside S = true ∨ op.inside (fun b => !S b) = true) {fuel : Nat}
    (hfuel : ArrayOp.read.budget ≤ fuel) {s s' : Chip Unit} (hready : s.busy = 0)
    (hready' : s'.busy = 0) (hfault : FaultFree s.future) (hfault' : FaultFree s'.future)
    (hagree : ∀ row, S (blockOf row) = true → s.core.array row = s'.core.array row)
    (d d' : Driver) (stack stack' : Nat → Answer) :
    ((ops.zip ((steps (Chip.env singleCache) fuel (ops.map BlockOp.operation) d
        (s, stack)).map Step.result)).filter fun x => x.1.inside S).map Prod.snd =
      (steps (Chip.env singleCache) fuel ((ops.filter (BlockOp.inside S)).map BlockOp.operation) d'
        (s', stack')).map Step.result := by
  have hs : s.Idle s.core := ⟨rfl, hready, hfault⟩
  have hs' : s'.Idle s'.core := ⟨rfl, hready', hfault'⟩
  rw [idle_steps hs hfuel, idle_steps hs' hfuel, ← results_inside hops hagree, List.zip_map_right,
    List.filter_map, List.map_map, List.map_map]
  rfl

/-- Operations on the blocks 9 and 11. -/
def mixedOps : List BlockOp :=
  [.page (.erase ⟨9, by decide⟩), .mark ⟨11, by decide⟩,
    .page (.prog ⟨576, by decide⟩ (.fill 0xF5)), .check ⟨11, by decide⟩ false,
    .page (.read ⟨576, by decide⟩ 1 [] 2 (some true))]

/-- A chip without faults, all bytes of which are `b`. -/
def uniformChip (b : UInt8) : Chip Unit := ⟨⟨fun _ _ => b, fun _ _ => b, true⟩, 0, fun _ => .clear⟩

theorem mixedOps_independent :
    ((mixedOps.zip ((steps (Chip.env singleCache) 8 (mixedOps.map BlockOp.operation)
        Driver.initial (uniformChip 0x12, fun _ => .zero)).map Step.result)).filter
        fun x => x.1.inside (· == 9)).map Prod.snd =
      (steps (Chip.env singleCache) 8
        ((mixedOps.filter (BlockOp.inside (· == 9))).map BlockOp.operation) Driver.initial
        (uniformChip 0x12, fun _ => .zero)).map Step.result :=
  steps_independent (by decide) (by decide) rfl rfl faultFree_clear faultFree_clear
    (fun _ _ => rfl) _ _ _ _

end SpiNand
