import SpiNand.Chip.BadBlocks
import SpiNand.Chip.Worn

/-!
# The page store, with failures

On a chip that is ready, and that may wear out, an operation changes no page but its own. Unless an
array command fails it has its effect on the pages or has none, and if it returns
`AM_HAL_STATUS_SUCCESS` it has had it, has answered as the store answers, and leaves the chip
ready again. So a run is a run of the page store up to its first failure.

The status of `nand_erase_block` and `nand_prog_page` and the flag of `nand_read_page` tell whether
an array command failed (`Operation.Vouches`). `nand_copy_page` and `nand_mark_bad_block` may
program a page wrongly and not tell (`Operation.Overlooks`).

* **`ready_blockOp`** is the simulation of one operation, failures included.
* **`steps_atomic`** is the refinement of runs up to the first failure.
-/

namespace SpiNand

open Interaction Interaction.Prog WriteOnce

/-! ## What an operation may end in -/

/-- What an operation answers where it succeeds, from a store with the pages `store`. Whether a
page was corrected is not the store's matter. -/
def BlockOp.Answers (store : Nat → Row) : BlockOp → OpResult → Prop
  | .page op, r => r.data = (op.result store).data
  | .isFree p free, r => r.flag = free.map fun _ =>
      decide (∀ i < eccAreaLength, store p (eccAreaOffset.toNat + i) = eccUnprogrammedValue)
  | .check b _, r => r.flag = some (isMarked store b)
  | .mark _, _ => True

/-- If the operation succeeds with this result, no array command has failed. -/
def Operation.Vouches : Operation → OpResult → Prop
  | .eraseBlock _, _ => True
  | .progPage _ _, _ => True
  | .readPage _ _ _ _ _, r => r.flag = some false
  | _, _ => False

/-- The operation may succeed although it has programmed a page wrongly: `nand_copy_page` does not
look at `P_FAIL` (nor, without a pointer for it, at the ECC field of its source), and
`nand_mark_bad_block` not at the ECC field of the page it writes back. -/
def Operation.Overlooks : Operation → Prop
  | .copyPage _ _ _ => True
  | .markBadBlock _ => True
  | _ => False

/-- The chip has had the effect of an access to the pages `store`, if no more than the `n` array
commands have failed that had before. -/
structure Did (store : Nat → Row) (a : PageAccess) (n : Nat) (s : WornChip) : Prop where
  contained : ∀ p, ¬ a.Touches blockOf p → s.chip.core.array p = store p
  effect : s.failures = n → s.chip.core.array = a.apply store

/-- Where an operation with the access `a` may end, with the status `st`, that started from the
pages `store` when `n` array commands had failed. With `T` its success says that none has failed
since, and `P` is then its answer. -/
structure Settles (store : Nat → Row) (a : PageAccess) (n : Nat) (st : Status) (T P : Prop)
    (s : WornChip) : Prop where
  contained : ∀ p, ¬ a.Touches blockOf p → s.chip.core.array p = store p
  all_or_nothing : s.failures = n →
    s.chip.core.array = store ∨ s.chip.core.array = a.apply store
  ready : st = amHalStatusSuccess → s.chip.busy = 0
  vouched : st = amHalStatusSuccess → T → s.failures = n
  success : st = amHalStatusSuccess → s.failures = n → s.chip.core.array = a.apply store ∧ P

section Settles

variable {store : Nat → Row} {a : PageAccess} {n : Nat} {st : Status} {T P : Prop} {s : WornChip}

/-- Abandoned before the effect. -/
theorem Settles.before (hst : st ≠ amHalStatusSuccess) (harray : s.chip.core.array = store) :
    Settles store a n st T P s := by
  refine ⟨fun p _ => ?_, fun _ => .inl harray, fun hok => absurd hok hst,
    fun hok => absurd hok hst, fun hok => absurd hok hst⟩
  rw [harray]

/-- Abandoned after the effect. -/
theorem Settles.after (hst : st ≠ amHalStatusSuccess) (hdid : Did store a n s) :
    Settles store a n st T P s :=
  ⟨hdid.contained, fun hn => .inr (hdid.effect hn), fun hok => absurd hok hst,
    fun hok => absurd hok hst, fun hok => absurd hok hst⟩

theorem Settles.cut (hst : st ≠ amHalStatusSuccess)
    (h : s.chip.core.array = store ∨ Did store a n s) : Settles store a n st T P s := by
  rcases h with harray | hdid
  · exact .before hst harray
  · exact .after hst hdid

/-- Completed. -/
theorem Settles.done (hdid : Did store a n s) (hbusy : s.chip.busy = 0)
    (hT : T → s.failures = n) (hP : s.failures = n → P) : Settles store a n st T P s :=
  ⟨hdid.contained, fun hn => .inr (hdid.effect hn), fun _ => hbusy, fun _ => hT,
    fun _ hn => ⟨hdid.effect hn, hP hn⟩⟩

/-- The failure bit of a status byte decides between the last two. -/
theorem Settles.failBit {fail : Bool} (hdid : Did store a n s) (hbusy : s.chip.busy = 0)
    (hfail : s.failures ≠ n → fail = true) (hP : P) :
    Settles store a n (if fail then amHalStatusHwErr else amHalStatusSuccess) True P s := by
  cases fail with
  | true => exact .after (by decide) hdid
  | false =>
    refine .done hdid hbusy (fun _ => ?_) fun _ => hP
    by_contra hn
    exact Bool.noConfusion (hfail hn)

/-- An operation that touches no page leaves them as they are. -/
theorem Settles.untouched (h : Settles store a n st T P s) (ha : ∀ p, ¬ a.Touches blockOf p) :
    s.chip.core.array = store :=
  funext fun p => h.contained p (ha p)

/-- The same end with another answer. -/
theorem Settles.imp {T' P' : Prop} (h : Settles store a n st T P s) (hT : T' → T)
    (hP : st = amHalStatusSuccess → P → P') : Settles store a n st T' P' s :=
  ⟨h.contained, h.all_or_nothing, h.ready, fun hok ht => h.vouched hok (hT ht),
    fun hok hn => ⟨(h.success hok hn).1, hP hok (h.success hok hn).2⟩⟩

end Settles

/-! ## Array commands -/

section Took

variable {store : Nat → Row} {a : PageAccess} {n n₁ : Nat} {s : WornChip} {m₁ : Core Unit}
  {c : NandCmd} {op : ArrayOp}

/-- The last array command of an operation, which changes no page but those of the access. -/
theorem WornChip.Took.did (h : s.Took m₁ c op n₁) (hn : n ≤ n₁)
    (heffect : n₁ = n → (m₁.exec singleCache c).array = a.apply store)
    (hexec : ∀ p, ¬ a.Touches blockOf p → (m₁.exec singleCache c).array p = store p)
    (hspoil : ∀ r p, ¬ a.Touches blockOf p → (m₁.spoil r c).array p = store p) :
    Did store a n s := by
  constructor
  · intro p hp
    exact h.core (P := fun m => m.array p = store p) (hexec p hp) fun r => hspoil r p hp
  · intro hfailures
    have hcount := h.count
    have hn₁ : n₁ = n := by omega
    rw [h.done (by omega)]
    exact heffect hn₁

/-- A page read changes no page. -/
theorem WornChip.Took.array_pageRead {row : Nat} (h : s.Took m₁ (.pageRead row) op n₁) :
    s.chip.core.array = m₁.array :=
  h.core (P := fun m => m.array = m₁.array) rfl fun _ => rfl

end Took

/-! ## The operations -/

section Operations

variable {E : Halt → WornChip → Prop} {s : WornChip} {m : Core Unit} {n : Nat}

theorem ready_eraseBlock_settles (hs : s.Ready m n) {b : Nat} (hb : b < numBlocks) :
    wpS WornChip.handler E (nandEraseBlock (UInt16.ofNat b))
      (fun st s' => Settles m.array (.erase b) n st True True s') s := by
  have harray := array_eraseCmds m hb
  have hblock : blockOf (blockRow (UInt16.ofNat b).toUInt32) = b := by
    rw [blockRow_ofNat16 hb, blockOf_mul]
  have hdid : ∀ s' : WornChip, s'.Took (m.exec singleCache .writeEnable)
      (.blockErase (blockRow (UInt16.ofNat b).toUInt32)) .erase n →
      Did m.array (.erase b) n s' := by
    intro s' htook
    refine htook.did (le_refl n) (fun _ => harray) (fun p hp => ?_) fun r p hp => ?_
    · exact (congrFun harray p).trans (Access.apply_of_not_touches hp)
    · have hout : ¬ blockOf p = blockOf (blockRow (UInt16.ofNat b).toUInt32) := by
        rw [hblock]
        exact hp
      exact if_neg hout
  apply wpS_eraseBlock
  apply hs.sent rfl (fun st s' hst harray _ => .before hst harray)
  intro s₁ hs₁
  apply hs₁.started rfl (fun st s' hst harray _ => .before hst harray)
    (fun st s' hst htook => .after hst (hdid s' htook))
  intro s₂ htook
  apply htook.waited (fun st s' hst htook => .after hst (hdid s' htook))
  intro statusReg s₃ htook hbusy hshown
  exact .failBit (hdid s₃ htook) hbusy hshown trivial

/-- PROGRAM_EXECUTE and the wait for it, the end of an operation that programs the row. -/
theorem ready_programExecute {store : Nat → Row} (a : PageAccess) {n₁ row polls : Nat}
    (hs : s.Ready m n₁) (hlatch : m.latch = true) (hn : n ≤ n₁) (harray : m.array = store)
    (hrow : a.Touches blockOf row)
    (heffect : n₁ = n → (m.exec singleCache (.programExecute row)).array = a.apply store)
    {R : Status → WornChip → Prop} {K : UInt8 → WornChip → Prop}
    (hR : ∀ st s', st ≠ amHalStatusSuccess → s'.chip.core.array = store ∨ Did store a n s' →
      R st s')
    (hK : ∀ statusReg s', Did store a n s' → s'.chip.busy = 0 →
      (s'.failures ≠ n₁ → pFail statusReg = true) → K statusReg s') :
    Handler.cmd WornChip.handler (.programExecute row)
      (Sent R (Handler.polls WornChip.handler polls (Waited R K))) s := by
  have hne : ∀ p, ¬ a.Touches blockOf p → p ≠ row := by
    rintro p hp rfl
    exact hp hrow
  have hstarts : m.starts (.programExecute row) = some .program := by simp [Core.starts, hlatch]
  have hdid : ∀ s' : WornChip, s'.Took m (.programExecute row) .program n₁ → Did store a n s' := by
    intro s' htook
    refine htook.did hn heffect (fun p hp => ?_) fun r p hp => ?_
    · simp only [Core.exec, hlatch, if_true, ← harray]
      exact Function.update_of_ne (hne p hp) _ _
    · rw [← harray]
      exact Function.update_of_ne (hne p hp) _ _
  apply hs.started hstarts (fun st s' hst hkept _ => hR st s' hst (.inl (hkept.trans harray)))
    (fun st s' hst htook => hR st s' hst (.inr (hdid s' htook)))
  intro s₁ htook
  apply htook.waited (fun st s' hst htook => hR st s' hst (.inr (hdid s' htook)))
  intro statusReg s₂ htook hbusy hshown
  exact hK statusReg s₂ (hdid s₂ htook) hbusy hshown

theorem ready_progPage_settles (hs : s.Ready m n) {p : Nat} (hp : p < numPages) (data : PageData) :
    wpS WornChip.handler E (nandProgPage (UInt32.ofNat p) data)
      (fun st s' => Settles m.array (.program p (Row.erased.overwrite 0 data.bytes)) n st True True
        s') s := by
  have harray := array_progCmds m hp data
  unfold Chip.progCmds at harray
  rw [rowOf_ofNat hp] at harray
  apply wpS_progPage
  rw [rowOf_ofNat hp]
  apply hs.sent rfl (fun st s' hst harray _ => .before hst harray)
  intro s₁ hs₁
  apply hs₁.sent rfl (fun st s' hst harray _ => .before hst harray)
  intro s₂ hs₂
  apply hs₂.sent rfl (fun st s' hst harray _ => .before hst harray)
  intro s₃ hs₃
  apply ready_programExecute (.program p (Row.erased.overwrite 0 data.bytes)) hs₃ rfl (le_refl n)
    rfl rfl (fun _ => harray) (fun st s' hst hcut => .cut hst hcut)
  intro statusReg s₄ hdid hbusy hshown
  exact .failBit hdid hbusy hshown trivial

/-- A copy that succeeds may have lost the page on the way, in the read or in the program. -/
theorem ready_copyPage_settles (hs : s.Ready m n) {src dst : Nat} (hsrc : src < numPages)
    (hdst : dst < numPages) (eccFatal : Option Bool) :
    wpS WornChip.handler E (nandCopyPage (UInt32.ofNat src) (UInt32.ofNat dst) eccFatal)
      (fun r s' => Settles m.array (.copy src dst) n r.1 False True s') s := by
  have hcopied := array_copyCmds m hsrc hdst
  unfold Chip.copyCmds at hcopied
  rw [rowOf_ofNat hsrc, rowOf_ofNat hdst] at hcopied
  apply wpS_copyPage
  rw [rowOf_ofNat hsrc, rowOf_ofNat hdst]
  apply hs.started rfl (fun st s' hst harray _ => .before hst harray)
    (fun st s' hst htook => .before hst htook.array_pageRead)
  intro s₁ htook
  apply htook.waited (fun st s' hst htook => .before hst htook.array_pageRead)
  intro statusReg s₂ htook hbusy _
  have harray := htook.array_pageRead
  split
  · -- an uncorrectable source page: nothing is programmed
    exact .before (show amHalStatusHwErr ≠ amHalStatusSuccess by decide) harray
  · have hs₂ : s₂.Ready s₂.chip.core s₂.failures := ⟨rfl, hbusy, rfl⟩
    apply hs₂.sent rfl (fun st s' hst hkept _ => .before hst (hkept.trans harray))
    intro s₃ hs₃
    apply hs₃.sent rfl (fun st s' hst hkept _ => .before hst (hkept.trans harray))
    intro s₄ hs₄
    refine ready_programExecute (.copy src dst) hs₄ rfl htook.count harray rfl (fun hn => ?_)
      (fun st s' hst hcut => .cut hst hcut) ?_
    · rw [htook.done hn]
      exact hcopied
    · -- the failure bit of the program is not looked at
      intro statusReg' s₅ hdid hbusy _
      exact .done hdid hbusy False.elim fun _ => trivial

theorem ready_markBadBlock_settles (hs : s.Ready m n) (fuel : Nat) (b : Fin numBlocks) :
    wpS WornChip.handler (fun _ s' => s'.chip.core.array = m.array)
      (nandMarkBadBlock fuel (UInt32.ofNat b))
      (fun st s' => Settles m.array (BlockOp.mark b).access n st False True s') s := by
  have hmarked := array_markCmds m b
  have hrow : blockRow (UInt32.ofNat b) = firstPage b := blockRow_ofNat b.isLt
  unfold Chip.markCmds at hmarked
  rw [hrow] at hmarked
  apply wpS_markBadBlock
  rw [hrow]
  apply hs.started rfl (fun st s' hst harray _ => .before hst harray)
    (fun st s' hst htook => .before hst htook.array_pageRead)
  intro s₁ htook
  apply htook.spun (fun s' htook => htook.array_pageRead)
    (fun st s' hst htook => .before hst htook.array_pageRead)
  intro s₂ htook hbusy
  have harray := htook.array_pageRead
  have hs₂ : s₂.Ready s₂.chip.core s₂.failures := ⟨rfl, hbusy, rfl⟩
  apply hs₂.sent rfl (fun st s' hst hkept _ => .before hst (hkept.trans harray))
  intro s₃ hs₃
  apply hs₃.sent rfl (fun st s' hst hkept _ => .before hst (hkept.trans harray))
  intro s₄ hs₄
  refine ready_programExecute (BlockOp.mark b).access hs₄ rfl htook.count harray rfl (fun hn => ?_)
    (fun st s' hst hcut => .cut hst hcut) ?_
  · rw [htook.done hn]
    exact hmarked
  · -- the failure of the program is told, that of the read is not
    intro statusReg s₅ hdid hbusy _
    cases pFail statusReg with
    | true => exact .after (show amHalStatusHwErr ≠ amHalStatusSuccess by decide) hdid
    | false => exact .done hdid hbusy False.elim fun _ => trivial

/-- A page read leaves the pages as they are, whatever becomes of it. Its flag, where there is one,
says whether the bytes can be trusted. -/
theorem ready_readPage_settles (hs : s.Ready m n) (pageAddr : UInt32) (offset : UInt16)
    (data : List UInt8) (len : UInt32) (eccFatal : Option Bool) (p : Nat) :
    wpS WornChip.handler E (nandReadPage pageAddr offset data len eccFatal)
      (fun read s' => Settles m.array (.read p) n read.ui32Status
        (read.eccFatal.getD (eccFatal.getD true) = false)
        (read.data = (List.range len.toNat).map
          (fun i => m.array (rowOf pageAddr) (offset.toNat + i)) ++ data.drop len.toNat) s') s := by
  apply wpS_readPage
  apply hs.started rfl (fun st s' hst harray _ => .before hst harray)
    (fun st s' hst htook => .before hst htook.array_pageRead)
  intro s₁ htook
  apply htook.waited (fun st s' hst htook => .before hst htook.array_pageRead)
  intro statusReg s₂ htook hbusy hshown
  have harray := htook.array_pageRead
  have hs₂ : s₂.Ready s₂.chip.core s₂.failures := ⟨rfl, hbusy, rfl⟩
  apply hs₂.read (fun a s' hst hkept _ => .before hst (hkept.trans harray))
  intro s₃ hs₃
  have hcore : s₃.chip.core.array = m.array := by rw [hs₃.core, harray]
  have hdid : Did m.array (.read p) n s₃ := ⟨fun p _ => congrFun hcore p, fun _ => hcore⟩
  refine .done hdid hs₃.busy ?_ ?_
  · -- without a fatal field the read has not failed
    intro hflag
    rw [hs₃.failures]
    by_contra hn
    have hfatal : nandStatusToEcc statusReg = .fatal := hshown hn
    cases eccFatal with
    | none => simp at hflag
    | some flag => simp [hfatal] at hflag
  · intro hn
    rw [hs₃.failures] at hn
    show received len.toNat data ⟨amHalStatusSuccess, _⟩ = _
    rw [htook.done hn]
    rfl

theorem ready_checkBadBlock_settles (hs : s.Ready m n) (b : Fin numBlocks) (isBad : Bool) :
    wpS WornChip.handler E (nandCheckBadBlock (UInt32.ofNat b) isBad)
      (fun r s' => Settles m.array (.read (firstPage b)) n r.1 False (r.2 = isMarked m.array b) s')
      s := by
  have hrow : rowOf (blockToPageAddr (UInt32.ofNat b)) = firstPage b := blockRow_ofNat b.isLt
  apply wpS_checkBadBlock
  intro markers hlen
  have hread := ready_readPage_settles (E := E) hs (blockToPageAddr (UInt32.ofNat b))
    (UInt16.ofNat badBlockAreaOffset) markers (UInt32.ofNat badBlockAreaLength) none (firstPage b)
  rw [hrow] at hread
  apply wpS_mono hread
  intro read s' h
  apply h.imp False.elim
  intro hok hdata
  rw [if_pos hok, hdata]
  simp only [isMarked, markerColumns, List.any_cons, List.any_nil, Bool.or_false]
  rfl

/-- The bytes of the ECC area of a page are all unprogrammed. -/
def EccAreaFree (store : Nat → Row) (p : Nat) : Prop :=
  ∀ i < eccAreaLength, store p (eccAreaOffset.toNat + i) = eccUnprogrammedValue

instance (store : Nat → Row) (p : Nat) : Decidable (EccAreaFree store p) :=
  inferInstanceAs (Decidable (∀ i < eccAreaLength, _))

theorem ready_isFree_settles (hs : s.Ready m n) (p : Fin numPages) (free : Option Bool) :
    wpS WornChip.handler E (nandIsFree (UInt32.ofNat p) free)
      (fun r s' => Settles m.array (.read p) n r.1 False
        (r.2 = free.map fun _ => decide (EccAreaFree m.array p)) s') s := by
  apply wpS_isFree
  intro eccData hlen
  have hread := ready_readPage_settles (E := E) hs (UInt32.ofNat p) eccAreaOffset eccData
    (UInt32.ofNat eccAreaLength) none p
  rw [rowOf_ofNat p.isLt] at hread
  apply wpS_mono hread
  intro read s' h
  apply h.imp False.elim
  intro hok hdata
  -- the buffer holds the bytes received and nothing else
  have hdrop : eccData.drop (UInt32.ofNat eccAreaLength).toNat = [] := by
    apply List.drop_eq_nil_of_le
    rw [hlen]
    decide
  rw [hdrop, List.append_nil] at hdata
  rw [if_pos hok, hdata, scanFree_map_range]
  rfl

/-- **The simulation of one operation**, from a ready chip. Where the loop of
`nand_mark_bad_block` does not end, nothing has been programmed. -/
theorem ready_blockOp (hs : s.Ready m n) (fuel : Nat) (op : BlockOp) :
    wpS WornChip.handler (fun _ s' => s'.chip.core.array = m.array) (op.operation.run fuel)
      (fun r s' => Settles m.array op.access n r.ui32Status (op.operation.Vouches r)
        (op.Answers m.array r) s') s := by
  cases op with
  | page op =>
    cases op with
    | erase b =>
      apply wpS_map
      apply wpS_mono (ready_eraseBlock_settles hs b.isLt)
      intro st s' h
      exact h.imp (fun _ => trivial) fun _ _ => rfl
    | prog p data =>
      apply wpS_map
      apply wpS_mono (ready_progPage_settles hs p.isLt data)
      intro st s' h
      exact h.imp (fun _ => trivial) fun _ _ => rfl
    | copy src dst eccFatal =>
      apply wpS_map
      apply wpS_mono (ready_copyPage_settles hs src.isLt dst.isLt eccFatal)
      intro r s' h
      exact h.imp False.elim fun _ _ => rfl
    | read p offset data len eccFatal =>
      apply wpS_map
      have hread := ready_readPage_settles (E := fun _ s' => s'.chip.core.array = m.array) hs
        (UInt32.ofNat p) offset data len eccFatal p
      rw [rowOf_ofNat p.isLt] at hread
      apply wpS_mono hread
      intro read s' h
      refine h.imp (fun hflag => ?_) fun _ hdata => hdata
      have hclear : read.eccFatal = some false := hflag
      rw [hclear]
      rfl
  | isFree p free =>
    apply wpS_map
    apply wpS_mono (ready_isFree_settles hs p free)
    intro r s' h
    exact h.imp False.elim fun _ hflag => hflag
  | check b isBad =>
    apply wpS_map
    apply wpS_mono (ready_checkBadBlock_settles hs b isBad)
    intro r s' h
    exact h.imp False.elim fun _ hbad => congrArg some hbad
  | mark b =>
    apply wpS_map
    apply wpS_mono (ready_markBadBlock_settles hs fuel b)
    intro st s' h
    exact h.imp False.elim fun _ _ => trivial

end Operations

/-! ## Runs -/

/-- The pages after a sequence of operations. -/
def replay (store : Nat → Row) (ops : List BlockOp) : Nat → Row :=
  ops.foldl (fun store op => op.access.apply store) store

theorem replay_append (store : Nat → Row) (ops ops' : List BlockOp) :
    replay store (ops ++ ops') = replay (replay store ops) ops' := List.foldl_append

namespace Step

/-- The operation returned `r`, with `AM_HAL_STATUS_SUCCESS`. -/
def SucceedsWith {σ : Type} (st : Step σ) (r : OpResult) : Prop :=
  st.result = .ok r ∧ r.ui32Status = amHalStatusSuccess

def Succeeds {σ : Type} (st : Step σ) : Prop := ∃ r, st.SucceedsWith r

/-- No array command failed. -/
def NoneFailed (st : Step WornChip) : Prop := st.after.failures = st.before.failures

/-- The operation succeeded, and overlooked no failure. -/
def Lasts (st : Step WornChip) : Prop := st.Succeeds ∧ (st.op.Overlooks → st.NoneFailed)

/-- One step of a run is an atomic step of the store from the pages `store`. It changes no page but
those of its access. Unless an array command failed it has the effect of the access or none, and
if it succeeded the effect and the answer. -/
structure Atomic (store : Nat → Row) (op : BlockOp) (st : Step WornChip) : Prop where
  op_eq : st.op = op.operation
  before : st.before.chip.core.array = store
  contained : ∀ p, ¬ op.access.Touches blockOf p → st.after.chip.core.array p = store p
  all_or_nothing : st.NoneFailed →
    st.after.chip.core.array = store ∨ st.after.chip.core.array = op.access.apply store
  ready : st.Succeeds → st.after.chip.busy = 0
  vouched : ∀ r, st.SucceedsWith r → st.op.Vouches r → st.NoneFailed
  success : ∀ r, st.SucceedsWith r → st.NoneFailed →
    st.after.chip.core.array = op.access.apply store ∧ op.Answers store r

/-- A step that lasts has had its effect: where a failure is not overlooked it was told, or there
was nothing to spoil. -/
theorem Atomic.effect {store : Nat → Row} {op : BlockOp} {st : Step WornChip}
    (h : st.Atomic store op) (hlasts : st.Lasts) :
    st.after.chip.core.array = op.access.apply store := by
  obtain ⟨⟨r, hr⟩, hlooked⟩ := hlasts
  have hop := h.op_eq
  have huntouched : (∀ p, ¬ op.access.Touches blockOf p) → st.after.chip.core.array = store :=
    fun ha => funext fun p => h.contained p (ha p)
  have hvouched := h.vouched r hr
  rw [hop] at hlooked hvouched
  cases op with
  | page op =>
    cases op with
    | erase b => exact (h.success r hr (hvouched trivial)).1
    | prog p data => exact (h.success r hr (hvouched trivial)).1
    | copy src dst eccFatal => exact (h.success r hr (hlooked trivial)).1
    | read p offset data len eccFatal => exact huntouched fun _ => id
  | isFree p free => exact huntouched fun _ => id
  | check b isBad => exact huntouched fun _ => id
  | mark b => exact (h.success r hr (hlooked trivial)).1

end Step

theorem step_atomic {s : WornChip} (hready : s.chip.busy = 0) (fuel : Nat) (op : BlockOp)
    (d : Driver) (stack : Nat → Answer) :
    Step.Atomic s.chip.core.array op (op.operation.step WornChip.env fuel d (s, stack)) := by
  have hs : s.Ready s.chip.core s.failures := ⟨rfl, hready, rfl⟩
  have hstep := step_of_wp op.operation (ready_blockOp hs fuel op) d stack
  cases hres : (op.operation.step WornChip.env fuel d (s, stack)).result with
  | ok r =>
    rw [hres] at hstep
    have hone : ∀ r', (op.operation.step WornChip.env fuel d (s, stack)).SucceedsWith r' →
        r' = r := by
      intro r' hr'
      exact (Except.ok.inj (hres.symm.trans hr'.1)).symm
    refine ⟨rfl, rfl, hstep.contained, hstep.all_or_nothing, ?_, ?_, ?_⟩
    · rintro ⟨r', hr'⟩
      obtain rfl := hone r' hr'
      exact hstep.ready hr'.2
    · intro r' hr'
      obtain rfl := hone r' hr'
      exact hstep.vouched hr'.2
    · intro r' hr'
      obtain rfl := hone r' hr'
      exact hstep.success hr'.2
  | error e =>
    rw [hres] at hstep
    have hstopped : ∀ r', ¬ (op.operation.step WornChip.env fuel d (s, stack)).SucceedsWith r' := by
      intro r' hr'
      exact nomatch hres.symm.trans hr'.1
    exact ⟨rfl, rfl, fun p _ => congrFun hstep p, fun _ => .inl hstep,
      fun ⟨r', hr'⟩ => absurd hr' (hstopped r'), fun r' hr' => absurd hr' (hstopped r'),
      fun r' hr' => absurd hr' (hstopped r')⟩

/-- A run from the pages `store`, up to its first failure. -/
theorem steps_atomic_from {store : Nat → Row} {s : WornChip} (hready : s.chip.busy = 0)
    (harray : s.chip.core.array = store) (fuel : Nat) (ops : List BlockOp) (d : Driver)
    (stack : Nat → Answer) {pre suf : List (Step WornChip)} {st : Step WornChip}
    (heq : steps WornChip.env fuel (ops.map BlockOp.operation) d (s, stack) = pre ++ st :: suf)
    (hok : ∀ x ∈ pre, x.Lasts) :
    ∃ op, ops[pre.length]? = some op ∧ st.Atomic (replay store (ops.take pre.length)) op := by
  rw [steps_eq_runs, runs_map] at heq
  -- between operations the chip is ready and has the pages of the store
  obtain ⟨op, x, hop, ⟨hbusy, hpages⟩, rfl⟩ := runs_induction
    (fun done x => x.2.1.chip.busy = 0 ∧ x.2.1.chip.core.array = replay store done)
    (by
      intro done op x x' hI hlasts hnext
      have hatomic := step_atomic hI.1 fuel op x.1 x.2.2
      have hbusy := hatomic.ready hlasts.1
      have hafter := hatomic.effect hlasts
      have hends := step_after hnext
      rw [hends] at hbusy hafter
      refine ⟨hbusy, ?_⟩
      rw [hafter, hI.2, replay_append]
      rfl)
    ⟨hready, harray⟩ heq hok
  have hatomic := step_atomic hbusy fuel op x.1 x.2.2
  rw [hpages] at hatomic
  exact ⟨op, hop, hatomic⟩

/-- **The page store up to the first failure.** In every run from a ready chip that may wear out,
with any results of the HAL, any busy times and any status bits: an operation before which all
succeeded, with no failure overlooked, finds the pages that the store has there and is an atomic
step from there. -/
theorem steps_atomic (s : WornChip) (hready : s.chip.busy = 0) (fuel : Nat) (ops : List BlockOp)
    (d : Driver) (stack : Nat → Answer) {pre suf : List (Step WornChip)} {st : Step WornChip}
    (heq : steps WornChip.env fuel (ops.map BlockOp.operation) d (s, stack) = pre ++ st :: suf)
    (hok : ∀ x ∈ pre, x.Lasts) :
    ∃ op, ops[pre.length]? = some op ∧
      st.Atomic (replay s.chip.core.array (ops.take pre.length)) op :=
  steps_atomic_from hready rfl fuel ops d stack heq hok

/-- A chip that tears the program of the tenth transfer. -/
def tearsTenth : WornChip where
  chip := ⟨⟨fun _ _ => 0x12, fun _ _ => 0x34, true⟩, 0, fun _ => .clear⟩
  failed := none
  failures := 0
  fates n := if n = 9 then ⟨false, true, fun _ _ => 0x5A⟩ else .harmless

/-- An erase, and a program that is torn. -/
def eraseProg : List BlockOp :=
  [.page (.erase ⟨5, by decide⟩), .page (.prog ⟨320, by decide⟩ (.fill 0xF5))]

def eraseProgSteps : List (Step WornChip) :=
  steps WornChip.env 0 (eraseProg.map BlockOp.operation) Driver.initial
    (tearsTenth, fun _ => .zero)

theorem eraseProgSteps_eq :
    ∃ first second, eraseProgSteps = [first] ++ second :: [] ∧ first.Lasts ∧
      second.before.failures = 0 ∧ second.after.failures = 1 :=
  ⟨_, _, rfl, ⟨⟨_, rfl, rfl⟩, fun h => h.elim⟩, rfl, rfl⟩

/-- The program finds the block erased, and is an atomic step from there: it does not succeed, and
leaves the other pages as they are. -/
theorem eraseProg_atomic :
    ∃ second op, second ∈ eraseProgSteps ∧ eraseProg[1]? = some op ∧ second.after.failures = 1 ∧
      Step.Atomic (replay tearsTenth.chip.core.array (eraseProg.take 1)) op second := by
  obtain ⟨first, second, heq, hfirst, -, htorn⟩ := eraseProgSteps_eq
  have hok : ∀ x ∈ [first], x.Lasts := by simpa using hfirst
  obtain ⟨op, hop, hatomic⟩ := steps_atomic tearsTenth rfl 0 eraseProg Driver.initial
    (fun _ => .zero) heq hok
  refine ⟨second, op, ?_, hop, htorn, hatomic⟩
  rw [heq]
  exact List.mem_append_right _ List.mem_cons_self

end SpiNand
