import SpiNand.Chip.Atomicity

/-!
# What was written can be read

A page whose block was erased and which was then programmed, both successfully, holds the data
until an operation names it again: what other operations spoil is in their own pages. So a read
that reports no failure returns it, whatever was overlooked in between (`steps_durable`).

`BlockOp.learn` follows one page through a run.
-/

namespace SpiNand

open Interaction Interaction.Prog WriteOnce

/-! ## What is known of a page -/

/-- What the page `p` is known to hold after an operation that succeeded, from what it was known
to hold before. -/
def BlockOp.learn (p : Nat) (known : Option Row) : BlockOp → Option Row
  | .page (.erase b) => if blockOf p = b then some Row.erased else known
  | .page (.prog p' data) =>
    if p = p' then known.map fun row => row.program (Row.erased.overwrite 0 data.bytes) else known
  -- a failure may have been overlooked
  | .page (.copy _ dst _) => if p = dst then none else known
  | .mark b => if p = firstPage b then none else known
  | _ => known

/-- What is known of it after a sequence of operations. -/
def learned (p : Nat) (ops : List BlockOp) : Option Row :=
  ops.foldl (BlockOp.learn p) none

/-- The page holds what it is known to hold. -/
def Known (store : Nat → Row) (p : Nat) (known : Option Row) : Prop :=
  ∀ row, known = some row → store p = row

section Learn

variable {p : Nat} {op : BlockOp} {known : Option Row}

theorem learn_of_not_touches (h : ¬ op.access.Touches blockOf p) : op.learn p known = known := by
  cases op with
  | page op =>
    cases op with
    | erase b => exact if_neg h
    | prog p' data => exact if_neg h
    | copy src dst eccFatal => exact if_neg h
    | read p' offset data len eccFatal => rfl
  | isFree p' free => rfl
  | check b isBad => rfl
  | mark b => exact if_neg h

theorem foldl_learn_of_not_touches {ops : List BlockOp}
    (h : ∀ op ∈ ops, ¬ op.access.Touches blockOf p) :
    ops.foldl (BlockOp.learn p) known = known := by
  induction ops with
  | nil => rfl
  | cons op ops ih =>
    rw [List.foldl_cons, learn_of_not_touches (h op List.mem_cons_self)]
    exact ih fun op' hop' => h op' (List.mem_cons_of_mem _ hop')

/-- What an operation leaves, if it changes no page but its own, and where it overlooks nothing has
its effect. -/
theorem Known.learn {store store' : Nat → Row} (h : Known store p known)
    (hcontained : ∀ q, ¬ op.access.Touches blockOf q → store' q = store q)
    (heffect : ¬ op.operation.Overlooks → store' = op.access.apply store) :
    Known store' p (op.learn p known) := by
  by_cases htouch : op.access.Touches blockOf p
  · intro row hrow
    cases op with
    | page op =>
      cases op with
      | erase b =>
        have hp : blockOf p = b := htouch
        have hrow' : some Row.erased = some row := by
          rw [← hrow]
          exact (if_pos hp).symm
        rw [heffect id, ← Option.some.inj hrow']
        exact if_pos hp
      | prog p' data =>
        obtain rfl : p = p' := htouch
        have hrow' : known.map (fun row => row.program (Row.erased.overwrite 0 data.bytes)) =
            some row := by
          rw [← hrow]
          exact (if_pos rfl).symm
        obtain ⟨row₀, hknown, rfl⟩ := Option.map_eq_some_iff.mp hrow'
        rw [heffect id, ← h row₀ hknown]
        exact Function.update_self _ _ _
      | copy src dst eccFatal =>
        have hnone : none = some row := by
          rw [← hrow]
          exact (if_pos htouch).symm
        exact nomatch hnone
      | read p' offset data len eccFatal => exact htouch.elim
    | isFree p' free => exact htouch.elim
    | check b isBad => exact htouch.elim
    | mark b =>
      have hnone : none = some row := by
        rw [← hrow]
        exact (if_pos htouch).symm
      exact nomatch hnone
  · rw [learn_of_not_touches htouch]
    intro row hrow
    rw [hcontained p htouch]
    exact h row hrow

theorem Known.learned_append {store : Nat → Row} {done : List BlockOp}
    (h : Known store p (op.learn p (learned p done))) :
    Known store p (learned p (done ++ [op])) := by
  unfold learned
  rw [List.foldl_append]
  exact h

/-- A page that was erased, and programmed once since. -/
theorem learned_erase_prog {before between after : List BlockOp} {b : Fin numBlocks}
    {p : Fin numPages} (data : PageData) (hb : blockOf p = b)
    (hbetween : ∀ op ∈ between, ¬ op.access.Touches blockOf p)
    (hafter : ∀ op ∈ after, ¬ op.access.Touches blockOf p) :
    learned p (before ++ .page (.erase b) :: (between ++ .page (.prog p data) :: after)) =
      some (Row.erased.overwrite 0 data.bytes) := by
  have herase : ∀ known, BlockOp.learn p known (.page (.erase b)) = some Row.erased :=
    fun known => if_pos hb
  have hprog : BlockOp.learn p (some Row.erased) (.page (.prog p data)) =
      some (Row.erased.program (Row.erased.overwrite 0 data.bytes)) := if_pos rfl
  have hrow : Row.erased.program (Row.erased.overwrite 0 data.bytes) =
      Row.erased.overwrite 0 data.bytes := funext fun c => nandByte.erased_meet _
  unfold learned
  rw [List.foldl_append, List.foldl_cons, herase, List.foldl_append,
    foldl_learn_of_not_touches hbetween, List.foldl_cons, hprog, hrow]
  exact foldl_learn_of_not_touches hafter

end Learn

/-! ## Runs -/

/-- An operation before which all succeeded finds the chip ready, and each page holding what it is
known to hold. -/
theorem steps_known {s : WornChip} (hready : s.chip.busy = 0) (fuel : Nat) (ops : List BlockOp)
    (d : Driver) (stack : Nat → Answer) {pre suf : List (Step WornChip)} {st : Step WornChip}
    (heq : steps WornChip.env fuel (ops.map BlockOp.operation) d (s, stack) = pre ++ st :: suf)
    (hok : ∀ x ∈ pre, x.Succeeds) (p : Nat) :
    ∃ op store, ops[pre.length]? = some op ∧ st.Atomic store op ∧
      Known store p (learned p (ops.take pre.length)) := by
  rw [steps_eq_runs, runs_map] at heq
  obtain ⟨op, x, hop, ⟨hbusy, hknown⟩, rfl⟩ := runs_induction
    (fun done x => x.2.1.chip.busy = 0 ∧ Known x.2.1.chip.core.array p (learned p done))
    (by
      intro done op x x' hI hgood hnext
      have hatomic := step_atomic hI.1 fuel op x.1 x.2.2
      have hbusy := hatomic.ready hgood
      have hknown := hI.2.learn hatomic.contained
        fun hlooks => hatomic.effect ⟨hgood, fun h => absurd h hlooks⟩
      have hends := step_after hnext
      rw [hends] at hbusy hknown
      exact ⟨hbusy, hknown.learned_append⟩)
    ⟨hready, fun row hrow => nomatch hrow⟩ heq hok
  exact ⟨op, x.2.1.chip.core.array, hop, step_atomic hbusy fuel op x.1 x.2.2, hknown⟩

/-- **A page that was programmed is what is read.** In a run from a ready chip that may wear out, in
which a page's block is erased and the page then programmed, and in which every operation before a
later read of it succeeded, the read returns the data, if no other operation named the page in
between, the read succeeds too, and its flag is clear or none of its array commands failed. -/
theorem steps_durable (s : WornChip) (hready : s.chip.busy = 0) (fuel : Nat)
    {before between after : List BlockOp} {b : Fin numBlocks} {p : Fin numPages} {data : PageData}
    (hb : blockOf p = b) (hbetween : ∀ op ∈ between, ¬ op.access.Touches blockOf p)
    (hafter : ∀ op ∈ after, ¬ op.access.Touches blockOf p) {ops : List BlockOp}
    (hops : ops =
      before ++ .page (.erase b) :: (between ++ .page (.prog p data) :: after))
    {offset : UInt16} {buffer : List UInt8} {len : UInt32} {eccFatal : Option Bool} (d : Driver)
    (stack : Nat → Answer) {pre suf : List (Step WornChip)} {st : Step WornChip}
    (heq : steps WornChip.env fuel
      ((ops ++ [BlockOp.page (.read p offset buffer len eccFatal)]).map BlockOp.operation) d
        (s, stack) = pre ++ st :: suf)
    (hlen : pre.length = ops.length) (hok : ∀ x ∈ pre, x.Succeeds) {r : OpResult}
    (hr : st.SucceedsWith r) (hsure : r.flag = some false ∨ st.NoneFailed) {i : Nat}
    (hi : i < len.toNat) (hpage : offset.toNat + i < pageSize) :
    r.data[i]? = data.bytes[offset.toNat + i]? := by
  obtain ⟨op, store, hop, hatomic, hknown⟩ := steps_known hready fuel _ d stack heq hok p
  -- the step is that of the read
  rw [hlen, List.getElem?_append_right (le_refl _), Nat.sub_self, List.getElem?_cons_zero] at hop
  obtain rfl := (Option.some.inj hop).symm
  rw [hlen, List.take_left] at hknown
  have hnone : st.NoneFailed := by
    rcases hsure with hflag | hnone
    · apply hatomic.vouched r hr
      rw [hatomic.op_eq]
      exact hflag
    · exact hnone
  obtain ⟨-, hanswer⟩ := hatomic.success r hr hnone
  have hdata : r.data = (List.range len.toNat).map (fun i => store p (offset.toNat + i)) ++
      buffer.drop len.toNat := hanswer
  have hrow : store p = Row.erased.overwrite 0 data.bytes := by
    apply hknown
    rw [hops]
    exact learned_erase_prog data hb hbetween hafter
  have hbyte : offset.toNat + i < data.bytes.length := by rw [data.length_bytes]; exact hpage
  rw [hdata, hrow, List.getElem?_append_left (by simpa using hi), List.getElem?_map,
    List.getElem?_range hi, Option.map_some, List.getElem?_eq_getElem hbyte]
  simp [Row.overwrite, hbyte]

/-- An erase and a program, and a copy to another block. -/
def eraseProgCopy : List BlockOp :=
  [.page (.erase ⟨7, by decide⟩), .page (.prog ⟨448, by decide⟩ (.fill 0xF5)),
    .page (.copy ⟨448, by decide⟩ ⟨512, by decide⟩ none)]

/-- The same, and a read of two bytes of the page, where the program of the copy fails. -/
def eraseProgCopyRead : List (Step WornChip) :=
  steps WornChip.env 0
    ((eraseProgCopy ++ [BlockOp.page (.read ⟨448, by decide⟩ 3 [] 2 (some true))]).map
      BlockOp.operation) Driver.initial
    (⟨⟨⟨fun _ _ => 0x12, fun _ _ => 0x34, true⟩, 0, fun _ => ⟨0, fun _ => 0, 0, fun _ => 0⟩⟩,
      none, 0, fun n => if n = 12 then ⟨false, true, fun _ _ => 0x5A⟩ else .harmless⟩,
      fun _ => .zero)

theorem eraseProgCopyRead_eq :
    ∃ first second third fourth r,
      eraseProgCopyRead = [first, second, third] ++ fourth :: [] ∧
      (first.Succeeds ∧ second.Succeeds ∧ third.Succeeds) ∧ fourth.before.failures = 1 ∧
      fourth.SucceedsWith r ∧ r.flag = some false :=
  ⟨_, _, _, _, _, rfl, ⟨⟨_, rfl, rfl⟩, ⟨_, rfl, rfl⟩, _, rfl, rfl⟩, rfl, ⟨rfl, rfl⟩, rfl⟩

/-- The copy has overlooked the failure of its program, and the read returns the data. -/
theorem eraseProgCopyRead_durable :
    ∃ fourth r, fourth ∈ eraseProgCopyRead ∧ fourth.SucceedsWith r ∧ fourth.before.failures = 1 ∧
      r.data[1]? = (PageData.fill 0xF5).bytes[4]? := by
  obtain ⟨first, second, third, fourth, r, heq, hok, hfailed, hr, hflag⟩ := eraseProgCopyRead_eq
  have hcopy : ¬ (BlockOp.page (.copy ⟨448, by decide⟩ ⟨512, by decide⟩ none)).access.Touches
      blockOf 448 := by
    show ¬ (448 = 512)
    decide
  refine ⟨fourth, r, ?_, hr, hfailed, ?_⟩
  · rw [heq]
    exact List.mem_append_right _ List.mem_cons_self
  · have hpre : ∀ x ∈ [first, second, third], x.Succeeds := by simpa using hok
    exact @steps_durable _ rfl 0 [] [] [.page (.copy ⟨448, by decide⟩ ⟨512, by decide⟩ none)]
      ⟨7, by decide⟩ ⟨448, by decide⟩ (.fill 0xF5) (by decide) (by simp) (by simpa using hcopy)
      eraseProgCopy rfl 3 [] 2 (some true) Driver.initial (fun _ => .zero) _ _ _ heq rfl hpre r hr
      (.inl hflag) 1 (by decide) (by decide)

end SpiNand
