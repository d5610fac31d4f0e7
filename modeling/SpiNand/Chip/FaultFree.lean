import SpiNand.Chip.AnyWeather

/-!
# The driver on a chip without faults

If no transfer fails, no failure bit is shown, and every array command is done within the number
of polls the driver allows it, then each operation of the driver returns
`AM_HAL_STATUS_SUCCESS`, leaves the chip idle, and has had exactly its commands executed. One
theorem for each operation says which commands these are.

`Chip.Idle s m` is the state between operations: ready, with `m` in the array, the caches and
the latch. `Chip.Working n s m` is the state after an array command was started, busy for fewer
than `n` status reads. Both are the chip of `Chip.Ready` in weather without faults, and their
lemmas are those of `Chip.Ready` for that weather.
-/

namespace SpiNand

open Interaction Interaction.Prog

/-- A transfer without faults. -/
structure Weather.FaultFree (w : Weather) : Prop where
  status : w.status = amHalStatusSuccess
  busy : ∀ op, w.busy op < op.budget
  pFail : pFail (w.statusByte false) = false
  eFail : eFail (w.statusByte false) = false
  ecc : nandStatusToEcc (w.statusByte false) ≠ .fatal

/-- All transfers to come are without faults. -/
def FaultFree (future : Nat → Weather) : Prop := ∀ n, (future n).FaultFree

theorem FaultFree.tail {future : Nat → Weather} (h : FaultFree future) :
    FaultFree fun n => future (n + 1) := fun n => h (n + 1)

/-- Every array command takes three status reads, and no status bit is set. -/
def Weather.clear : Weather where
  status := amHalStatusSuccess
  busy _ := 3
  lights := 0
  bytes _ := 0

theorem Weather.clear_faultFree : Weather.clear.FaultFree where
  status := rfl
  busy op := by cases op <;> decide
  pFail := by decide
  eFail := by decide
  ecc := by decide

theorem faultFree_clear : FaultFree fun _ => Weather.clear := fun _ => Weather.clear_faultFree

/-! ## Idle and working -/

namespace Chip

variable {π : Type} [DecidableEq π] {g : Geometry π} {E : Halt → Chip π → Prop}

/-- The chip is ready and has `m`. -/
structure Idle (s : Chip π) (m : Core π) : Prop where
  core : s.core = m
  ready : s.busy = 0
  future : FaultFree s.future

/-- The chip has `m` and is busy for fewer than `n` status reads. -/
structure Working (n : Nat) (s : Chip π) (m : Core π) : Prop where
  core : s.core = m
  busy : s.busy < n
  future : FaultFree s.future

omit [DecidableEq π] in
theorem Idle.toReady {s : Chip π} {m : Core π} (hs : s.Idle m) : s.Ready m := ⟨hs.core, hs.ready⟩

omit [DecidableEq π] in
theorem Idle.ok {s : Chip π} {m : Core π} (hs : s.Idle m) (n : Nat) :
    (s.future n).status = amHalStatusSuccess := (hs.future n).status

omit [DecidableEq π] in
theorem Idle.read_lt_budget {s : Chip π} {m : Core π} (hs : s.Idle m) :
    (s.future 0).busy .read < ArrayOp.read.budget := (hs.future 0).busy .read

/-- A command that keeps the chip idle. -/
theorem Idle.sent {s : Chip π} {m : Core π} (hs : s.Idle m) {c : NandCmd}
    (hstarts : m.starts c = none) {R : Status → Chip π → Prop} {K : Chip π → Prop}
    (hK : ∀ s', s'.Idle (m.exec g c) → K s') :
    Handler.cmd (Chip.handler g) c (Sent R K) s := by
  apply hs.toReady.sent_ok (hs.future 0).status hstarts
  intro s' hs' hfuture
  exact hK s' ⟨hs'.core, hs'.busy, hfuture ▸ hs.future.tail⟩

/-- An array command that the chip starts. -/
theorem Idle.started {s : Chip π} {m : Core π} (hs : s.Idle m) {c : NandCmd} {op : ArrayOp}
    (hstarts : m.starts c = some op) {R : Status → Chip π → Prop} {K : Chip π → Prop}
    (hK : ∀ s', s'.Working op.budget (m.exec g c) → K s') :
    Handler.cmd (Chip.handler g) c (Sent R K) s := by
  apply hs.toReady.started_ok (hs.future 0).status hstarts
  intro s' hcore hbusy hfuture
  exact hK s' ⟨hcore, hbusy ▸ (hs.future 0).busy op, hfuture ▸ hs.future.tail⟩

/-- A status byte that shows no failure. -/
structure Clean (statusReg : UInt8) : Prop where
  pFail : pFail statusReg = false
  eFail : eFail statusReg = false
  ecc : nandStatusToEcc statusReg ≠ .fatal

/-- The wait for an array command: the chip becomes idle within the driver's budget. -/
theorem Working.waited {s : Chip π} {m : Core π} {n : Nat} (hs : s.Working n m)
    {R : Status → Chip π → Prop} {K : UInt8 → Chip π → Prop}
    (hK : ∀ statusReg s', Clean statusReg → s'.Idle m → K statusReg s') :
    Handler.polls (Chip.handler g) n (Waited R K) s := by
  apply waited_within hs.core hs.busy fun i => (hs.future i).status
  intro s' hs' hfuture
  have hclean := hs.future s.busy
  exact hK _ s' ⟨hclean.pFail, hclean.eFail, hclean.ecc⟩
    ⟨hs'.core, hs'.busy, hfuture ▸ fun i => hs.future (i + (s.busy + 1))⟩

/-- The loop of `nand_mark_bad_block`: with fuel for the chip's busy time it ends, and where it
does not, nothing has changed but the time. -/
theorem Working.spun {m : Core π} {R : Status → Chip π → Prop} {K : Chip π → Prop}
    (hK : ∀ s', s'.Idle m → K s') {fuel n : Nat} {s : Chip π} (hs : s.Working n m)
    (hE : fuel < n → ∀ s', s'.core = m → E .outOfFuel s') :
    Handler.spins (Chip.handler g) E R K fuel s := by
  have hok : ∀ i, (s.future i).status = amHalStatusSuccess := fun i => (hs.future i).status
  rcases Nat.lt_or_ge s.busy fuel with henough | hshort
  · apply spun_within hs.core henough hok
    intro s' hs' hfuture
    exact hK s' ⟨hs'.core, hs'.busy, hfuture ▸ fun i => hs.future (i + (s.busy + 1))⟩
  · exact spun_exhausted hs.core hshort hok (hE (Nat.lt_of_le_of_lt hshort hs.busy))

/-! ## The operations -/

section Operations

variable {s : Chip π} {m : Core π}

theorem idle_eraseBlock (hs : s.Idle m) (blockAddr : UInt16) :
    wpS (Chip.handler g) E (nandEraseBlock blockAddr)
      (fun st s' => st = amHalStatusSuccess ∧ s'.Idle (m.execs g (eraseCmds blockAddr))) s := by
  apply wpS_eraseBlock
  apply hs.sent rfl
  intro s₁ hs₁
  apply hs₁.started rfl
  intro s₂ hs₂
  apply hs₂.waited
  intro statusReg s₃ hclean hs₃
  rw [hclean.eFail]
  exact ⟨rfl, hs₃⟩

theorem idle_progPage (hs : s.Idle m) (pageAddr : UInt32) (data : PageData) :
    wpS (Chip.handler g) E (nandProgPage pageAddr data)
      (fun st s' => st = amHalStatusSuccess ∧ s'.Idle (m.execs g (progCmds pageAddr data))) s := by
  apply wpS_progPage
  apply hs.sent rfl
  intro s₁ hs₁
  apply hs₁.sent rfl
  intro s₂ hs₂
  apply hs₂.sent rfl
  intro s₃ hs₃
  apply hs₃.started rfl
  intro s₄ hs₄
  apply hs₄.waited
  intro statusReg s₅ hclean hs₅
  rw [hclean.pFail]
  exact ⟨rfl, hs₅⟩

theorem idle_readPage (hs : s.Idle m) (pageAddr : UInt32) (offset : UInt16) (data : List UInt8)
    (len : UInt32) (eccFatal : Option Bool) :
    wpS (Chip.handler g) E (nandReadPage pageAddr offset data len eccFatal)
      (fun read s' => read = ⟨amHalStatusSuccess,
          received len.toNat data ⟨amHalStatusSuccess,
            (m.execs g (readCmds pageAddr)).stream g offset.toNat⟩,
          eccFatal.map fun _ => false⟩ ∧
        s'.Idle (m.execs g (readCmds pageAddr))) s := by
  apply wpS_mono (ready_readPage hs.toReady hs.ok hs.read_lt_budget _ _ _ _ _)
  rintro read s' ⟨rfl, hs', hfuture⟩
  rw [decide_eq_false (hs.future _).ecc]
  exact ⟨rfl, hs'.core, hs'.busy, hfuture ▸ fun n => hs.future (n + _)⟩

theorem idle_copyPage (hs : s.Idle m) (srcPageAddr destPageAddr : UInt32)
    (eccFatal : Option Bool) :
    wpS (Chip.handler g) E (nandCopyPage srcPageAddr destPageAddr eccFatal)
      (fun r s' => r = (amHalStatusSuccess, eccFatal) ∧
        s'.Idle (m.execs g (copyCmds srcPageAddr destPageAddr))) s := by
  apply wpS_copyPage
  apply hs.started rfl
  intro s₁ hs₁
  apply hs₁.waited
  intro statusReg s₂ hclean hs₂
  rw [if_neg fun hfatal => hclean.ecc hfatal.1]
  apply hs₂.sent rfl
  intro s₃ hs₃
  apply hs₃.sent rfl
  intro s₄ hs₄
  apply hs₄.started rfl
  intro s₅ hs₅
  apply hs₅.waited
  intro _ s₆ _ hs₆
  exact ⟨rfl, hs₆⟩

theorem idle_isFree (hs : s.Idle m) (pageAddr : UInt32) (isFree : Option Bool) :
    wpS (Chip.handler g) E (nandIsFree pageAddr isFree)
      (fun _ s' => s'.Idle (m.execs g (readCmds pageAddr))) s := by
  apply wpS_isFree
  intro eccData _
  exact wpS_mono (idle_readPage hs _ _ _ _ _) fun _ _ h => h.2

/-- The answer of `nand_check_bad_block` is in the two marker bytes of the block's first row. -/
theorem idle_checkBadBlock (hs : s.Idle m) (blockAddr : UInt32) (isBad : Bool) :
    wpS (Chip.handler g) E (nandCheckBadBlock blockAddr isBad)
      (fun r s' =>
        let bytes := (m.execs g (readCmds (blockToPageAddr blockAddr))).stream g badBlockAreaOffset
        r = (amHalStatusSuccess, bytes badBlockOurByteOffset == badBlockMarkerValue ||
          bytes badBlockFactoryByteOffset == badBlockMarkerValue) ∧
        s'.Idle (m.execs g (readCmds (blockToPageAddr blockAddr)))) s := by
  apply wpS_mono (ready_checkBadBlock hs.toReady hs.ok hs.read_lt_budget _ _)
  rintro r s' ⟨rfl, hs', hfuture⟩
  exact ⟨rfl, hs'.core, hs'.busy, hfuture ▸ fun n => hs.future (n + _)⟩

/-- With fuel for one page read, `nand_mark_bad_block` returns; without it, it stops after its
PAGE_READ. -/
theorem idle_markBadBlock (hs : s.Idle m) (fuel : Nat) (blockAddr : UInt32) :
    wpS (Chip.handler g)
      (fun _ s' => fuel < ArrayOp.read.budget ∧
        s'.core = m.execs g [.pageRead (blockRow blockAddr)])
      (nandMarkBadBlock fuel blockAddr)
      (fun st s' => st = amHalStatusSuccess ∧ s'.Idle (m.execs g (markCmds blockAddr))) s := by
  apply wpS_markBadBlock
  apply hs.started rfl
  intro s₁ hs₁
  refine hs₁.spun ?_ fun hfuel s' hs' => ⟨hfuel, hs'⟩
  intro s₂ hs₂
  apply hs₂.sent rfl
  intro s₃ hs₃
  apply hs₃.sent rfl
  intro s₄ hs₄
  apply hs₄.started rfl
  intro s₅ hs₅
  apply hs₅.waited
  intro statusReg s₆ hclean hs₆
  rw [hclean.pFail]
  exact ⟨rfl, hs₆⟩

end Operations

end Chip

end SpiNand
