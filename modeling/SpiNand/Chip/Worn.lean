import SpiNand.Bus.Runs
import SpiNand.Chip.AnyWeather

/-!
# A chip that wears out

The cells of a flash chip fail with use. `WornChip` is the chip of `Chip.env` with array commands
that may fail: a page read then leaves anything in the cache register, a program anything in its
row, and an erase anything in the rows of its block. The status register shows it until the next
array command, as an uncorrectable ECC field, `P_FAIL` or `E_FAIL`. A transfer that the HAL
reports as failed may have reached the chip or not.

* **`WornChip.env`** is the environment. Where nothing fails, runs are those of `Chip.env`
  (`steps_unworn`).
* **`Took`** is what is known of the chip after an array command, which may have failed.
* **`Ready.sent`**, **`Ready.started`**, **`Took.waited`**, **`Took.spun`** are the rules for a
  command, an array command and the two ways to wait for it.
-/

namespace SpiNand

open Interaction Interaction.Prog

/-! ## Status bytes -/

/-- A byte with the field under `mask` set to `value`. -/
def withField (b mask value : UInt8) : UInt8 := b &&& ~~~mask ||| value

theorem withField_and (b mask value : UInt8) :
    withField b mask value &&& mask = value &&& mask := by
  unfold withField
  apply UInt8.toBitVec_inj.mp
  ext i hi
  simp
  grind

theorem or_and_byte (x y z : UInt8) : (x ||| y) &&& z = x &&& z ||| y &&& z := by
  apply UInt8.toBitVec_inj.mp
  ext i hi
  simp
  grind

/-- The bits of `m` are not in the field. -/
theorem withField_and_of_disjoint {mask value m : UInt8} (hmask : ~~~mask &&& m = m)
    (hvalue : value &&& m = 0) (b : UInt8) : withField b mask value &&& m = b &&& m := by
  unfold withField
  rw [or_and_byte, hvalue, UInt8.and_assoc, hmask]
  exact UInt8.or_zero

namespace ArrayOp

/-- The field of the status register that shows the failure of an array command. -/
def failMask : ArrayOp → UInt8
  | .read => featureRegStatusEccMask
  | .program => featureRegStatusPFailMask
  | .erase => featureRegStatusEFailMask

/-- What the field then holds. -/
def failValue : ArrayOp → UInt8
  | .read => featureRegStatusEccFatalErr <<< featureRegStatusEccShift
  | .program => featureRegStatusPFailMask
  | .erase => featureRegStatusEFailMask

/-- The status byte shows the failure of the array command. -/
def Shown (statusReg : UInt8) : ArrayOp → Prop
  | .read => nandStatusToEcc statusReg = .fatal
  | .program => pFail statusReg = true
  | .erase => eFail statusReg = true

theorem shown_withField (op : ArrayOp) (b : UInt8) :
    op.Shown (withField b op.failMask op.failValue) := by
  have hfield := withField_and b op.failMask op.failValue
  cases op with
  | read =>
    have hmask :
        withField b ArrayOp.read.failMask ArrayOp.read.failValue &&& featureRegStatusEccMask =
          ArrayOp.read.failValue &&& featureRegStatusEccMask := hfield
    show nandStatusToEcc _ = .fatal
    unfold nandStatusToEcc
    rw [hmask]
    rfl
  | program =>
    show decide (withField b _ _ &&& ArrayOp.program.failMask ≠ 0) = true
    rw [hfield]
    rfl
  | erase =>
    show decide (withField b _ _ &&& ArrayOp.erase.failMask ≠ 0) = true
    rw [hfield]
    rfl

theorem oip_withField (op : ArrayOp) (b : UInt8) :
    oip (withField b op.failMask op.failValue) = oip b := by
  have hmask : ~~~op.failMask &&& featureRegStatusOipMask = featureRegStatusOipMask := by
    cases op <;> rfl
  have hvalue : op.failValue &&& featureRegStatusOipMask = 0 := by
    cases op <;> rfl
  unfold oip
  rw [withField_and_of_disjoint hmask hvalue]

end ArrayOp

/-! ## The chip -/

/-- What becomes of one transfer to a chip that wears out. -/
structure Fate where
  /-- It reaches the chip even if the HAL reports a failure. -/
  reaches : Bool
  /-- An array command started by it fails. -/
  fails : Bool
  /-- What the failure leaves, in the rows or in the cache register. -/
  spoiled : Nat → Row

/-- Nothing happens to the transfer. -/
def Fate.harmless : Fate := ⟨false, false, fun _ => Row.erased⟩

/-- What an array command leaves that fails. -/
def Core.spoil (m : Core Unit) (spoiled : Nat → Row) : NandCmd → Core Unit
  | .pageRead row => m.setCache () (spoiled row)
  | .programExecute row =>
    { m with array := Function.update m.array row (spoiled row), latch := false }
  | .blockErase row =>
    { m with
      array := fun r => if blockOf r = blockOf row then spoiled r else m.array r
      latch := false }
  | c => m.exec singleCache c

/-- A chip with one cache register that wears out. -/
structure WornChip where
  chip : Chip Unit
  /-- The array command that failed, if the last one did. -/
  failed : Option ArrayOp
  /-- How many array commands have failed. -/
  failures : Nat
  fates : Nat → Fate

namespace WornChip

/-- The array command that is started by a command, unless the chip is busy. -/
def starts (s : WornChip) (c : NandCmd) : Option ArrayOp :=
  if 0 < s.chip.busy then none else s.chip.core.starts c

/-- The status register of the chip, with the last failure. -/
def statusByte (s : WornChip) (b : UInt8) : UInt8 :=
  match s.failed with
  | some op => withField b op.failMask op.failValue
  | none => b

/-- The chip receives a command. -/
def receive (s : WornChip) (w : Weather) (f : Fate) (c : NandCmd) : Answer × WornChip :=
  let answer := (s.chip.receive singleCache w c).1
  let chip := (s.chip.receive singleCache w c).2
  match s.starts c with
  | some op =>
    if f.fails then
      (answer, { s with
        chip := { chip with core := s.chip.core.spoil f.spoiled c }
        failed := some op
        failures := s.failures + 1 })
    else (answer, { s with chip, failed := none })
  | none =>
    let bytes := if c = .getFeatures featureRegStatus then
      fun i => s.statusByte (answer.bytes i) else answer.bytes
    (⟨answer.status, bytes⟩, { s with chip })

/-- The time of one transfer passes. -/
def next (s : WornChip) : WornChip :=
  { s with
    chip := { s.chip with future := fun n => s.chip.future (n + 1) }
    fates := fun n => s.fates (n + 1) }

/-- One transfer of a command. -/
def transfer (s : WornChip) (c : NandCmd) : Answer × WornChip :=
  let w := s.chip.future 0
  if w.status ≠ amHalStatusSuccess ∧ (s.fates 0).reaches = false then
    (⟨w.status, w.bytes⟩, s.next)
  else s.next.receive w (s.fates 0) c

/-- The chip behind the HAL. -/
def env : Environment WornChip
  | s, .blockingTransfer t =>
    match t.decode with
    | some c => s.transfer c
    | none => (⟨(s.chip.future 0).status, (s.chip.future 0).bytes⟩, s)
  | s, _ => (.zero, s)

/-- The handler of the chip, with anything on the stack. -/
abbrev handler : Handler WornChip Call Answer := Handler.stacked env

/-- The chip as it is where nothing fails. -/
def unworn (s : Chip Unit) : WornChip := ⟨s, none, 0, fun _ => .harmless⟩

theorem transfer_unworn (s : Chip Unit) (c : NandCmd) :
    (unworn s).transfer c =
      ((s.transfer singleCache c).1, unworn (s.transfer singleCache c).2) := by
  unfold transfer Chip.transfer
  by_cases hok : (s.future 0).status = amHalStatusSuccess
  · have hreach : ¬ (((unworn s).chip.future 0).status ≠ amHalStatusSuccess ∧
        ((unworn s).fates 0).reaches = false) := fun h => h.1 hok
    have hsent : ¬ (s.future 0).status ≠ amHalStatusSuccess := not_ne_iff.mpr hok
    rw [if_neg hreach, if_neg hsent]
    unfold receive
    cases (unworn s).next.starts c with
    | some op => rfl
    | none =>
      -- no failure is shown
      by_cases hc : c = .getFeatures featureRegStatus
      · subst hc
        rfl
      · simp only [if_neg hc]
        rfl
  · have hlost : ((unworn s).chip.future 0).status ≠ amHalStatusSuccess ∧
        ((unworn s).fates 0).reaches = false := ⟨hok, rfl⟩
    rw [if_pos hlost, if_pos hok]
    rfl

theorem env_unworn (s : Chip Unit) (q : Call) :
    env (unworn s) q =
      ((Chip.env singleCache s q).1, unworn (Chip.env singleCache s q).2) := by
  cases q with
  | blockingTransfer t =>
    cases hdecode : t.decode with
    | none =>
      simp only [env, Chip.env, hdecode]
      rfl
    | some c =>
      simp only [env, Chip.env, hdecode]
      exact transfer_unworn s c
  | setup c => rfl
  | void v => rfl
  | uninit => rfl

/-- **A chip on which nothing fails** is the chip of `Chip.env`, in every run. -/
theorem steps_unworn (fuel : Nat) (ops : List Operation) (d : Driver) (s : Chip Unit)
    (stack : Nat → Answer) :
    List.Forall₂ (Step.Matches fun w s => w = unworn s)
      (steps env fuel ops d (unworn s, stack))
      (steps (Chip.env singleCache) fuel ops d (s, stack)) := by
  have halike : Alike (fun w s => w = unworn s) env (Chip.env singleCache) := by
    rintro _ s q rfl
    rw [env_unworn]
    exact ⟨rfl, rfl⟩
  exact steps_matches halike fuel ops d rfl stack

/-! ## What is known of it -/

/-- The chip is ready and has `m`, and `n` array commands have failed. -/
structure Ready (s : WornChip) (m : Core Unit) (n : Nat) : Prop where
  core : s.chip.core = m
  busy : s.chip.busy = 0
  failures : s.failures = n

/-- The chip had `m` and `n` failures and has taken the array command `c`, which has failed too if
there is one more now. -/
structure Took (s : WornChip) (m : Core Unit) (c : NandCmd) (op : ArrayOp) (n : Nat) : Prop where
  count : n ≤ s.failures
  done : s.failures = n → s.chip.core = m.exec singleCache c
  spoiled : s.failures ≠ n → (∃ r, s.chip.core = m.spoil r c) ∧ s.failed = some op

section Transfers

variable {s s' : WornChip} {m : Core Unit} {n : Nat} {c : NandCmd} {op : ArrayOp}

/-- What holds of the command and of its failure holds of the chip. -/
theorem Took.core (h : s.Took m c op n) {P : Core Unit → Prop} (hexec : P (m.exec singleCache c))
    (hspoil : ∀ r, P (m.spoil r c)) : P s.chip.core := by
  by_cases hn : s.failures = n
  · rw [h.done hn]
    exact hexec
  · obtain ⟨⟨r, hcore⟩, -⟩ := h.spoiled hn
    rw [hcore]
    exact hspoil r

/-- Time passes and nothing else. -/
structure Still (s s' : WornChip) : Prop where
  core : s'.chip.core = s.chip.core
  failed : s'.failed = s.failed
  failures : s'.failures = s.failures

theorem Took.still (h : s.Took m c op n) (hs : s.Still s') : s'.Took m c op n := by
  obtain ⟨hcore, hfailed, hfailures⟩ := hs
  constructor
  · rw [hfailures]
    exact h.count
  · rw [hfailures, hcore]
    exact h.done
  · rw [hfailures, hcore, hfailed]
    exact h.spoiled

theorem transfer_cases (s : WornChip) (c : NandCmd) :
    s.transfer c = (⟨(s.chip.future 0).status, (s.chip.future 0).bytes⟩, s.next) ∨
      s.transfer c = s.next.receive (s.chip.future 0) (s.fates 0) c := by
  unfold transfer
  simp only
  split
  · exact .inl rfl
  · exact .inr rfl

theorem receive_status (s : WornChip) (w : Weather) (f : Fate) (c : NandCmd) :
    (s.receive w f c).1.status = w.status := by
  have hanswer : (s.chip.receive singleCache w c).1.status = w.status := by
    unfold Chip.receive
    split_ifs <;> rfl
  unfold receive
  simp only
  cases s.starts c with
  | none => exact hanswer
  | some op =>
    cases hfails : f.fails with
    | true => exact hanswer
    | false => exact hanswer

/-- Every transfer returns what the HAL reports. -/
theorem transfer_status (s : WornChip) (c : NandCmd) :
    (s.transfer c).1.status = (s.chip.future 0).status := by
  rcases transfer_cases s c with h | h
  · rw [h]
  · rw [h]
    exact receive_status _ _ _ _

/-- A successful transfer reaches the chip. -/
theorem transfer_of_success (hok : (s.chip.future 0).status = amHalStatusSuccess) :
    s.transfer c = s.next.receive (s.chip.future 0) (s.fates 0) c := by
  unfold transfer
  simp only
  rw [if_neg fun h => h.1 hok]

/-- A command on a ready chip that does not keep it busy. -/
theorem Ready.receive (hs : s.Ready m n) (hstarts : m.starts c = none) (w : Weather) (f : Fate) :
    (s.receive w f c).2.Ready (m.exec singleCache c) n := by
  obtain ⟨rfl, hbusy, rfl⟩ := hs
  have hnone : s.starts c = none := by simp [WornChip.starts, hbusy, hstarts]
  unfold WornChip.receive
  rw [hnone]
  unfold Chip.receive
  by_cases hc : c = .getFeatures featureRegStatus
  · subst hc
    simp only [if_true, hbusy]
    exact ⟨rfl, rfl, rfl⟩
  · simp only [if_neg hc, hbusy, Nat.lt_irrefl, if_false, hstarts]
    exact ⟨rfl, rfl, rfl⟩

/-- An array command on a ready chip. -/
theorem Ready.receive_array (hs : s.Ready m n) (hstarts : m.starts c = some op) (w : Weather)
    (f : Fate) : (s.receive w f c).2.Took m c op n := by
  obtain ⟨rfl, hbusy, rfl⟩ := hs
  have hsome : s.starts c = some op := by simp [WornChip.starts, hbusy, hstarts]
  have hc : c ≠ .getFeatures featureRegStatus := by
    rintro rfl
    cases hstarts
  unfold WornChip.receive
  rw [hsome]
  cases hf : f.fails with
  | true =>
    refine ⟨Nat.le_succ _, fun h => absurd h (Nat.succ_ne_self _), fun _ => ⟨⟨f.spoiled, ?_⟩, rfl⟩⟩
    rfl
  | false =>
    refine ⟨le_refl _, fun _ => ?_, fun h => absurd rfl h⟩
    show (s.chip.receive singleCache w c).2.core = _
    unfold Chip.receive
    simp only [if_neg hc, hbusy, Nat.lt_irrefl, if_false]

/-- READ_CACHE sends what is in the cache register. -/
theorem Ready.receive_readCache (hs : s.Ready m n) (w : Weather) (f : Fate) (column len : Nat) :
    (s.receive w f (.readCache column len)).1.bytes = m.stream singleCache column := by
  obtain ⟨rfl, hbusy, rfl⟩ := hs
  have hnone : s.starts (.readCache column len) = none := by
    simp [WornChip.starts, hbusy, Core.starts]
  unfold WornChip.receive
  rw [hnone]
  unfold Chip.receive
  simp [hbusy]

/-- A status read changes nothing. -/
theorem still_getFeatures (s : WornChip) :
    s.Still (s.transfer (.getFeatures featureRegStatus)).2 := by
  rcases transfer_cases s (.getFeatures featureRegStatus) with h | h
  · rw [h]
    exact ⟨rfl, rfl, rfl⟩
  · have hnone : s.next.starts (.getFeatures featureRegStatus) = none := by
      simp [WornChip.starts, Core.starts]
    rw [h]
    unfold WornChip.receive
    rw [hnone]
    exact ⟨rfl, rfl, rfl⟩

/-- A successful status read: what it shows, and that it counts. -/
theorem transfer_getFeatures (hok : (s.chip.future 0).status = amHalStatusSuccess) :
    (s.transfer (.getFeatures featureRegStatus)).1 = ⟨amHalStatusSuccess,
        fun _ => s.statusByte ((s.chip.future 0).statusByte (0 < s.chip.busy))⟩ ∧
      (s.transfer (.getFeatures featureRegStatus)).2.chip.busy = s.chip.busy - 1 := by
  have hnone : s.next.starts (.getFeatures featureRegStatus) = none := by
    simp [WornChip.starts, Core.starts]
  rw [transfer_of_success hok]
  unfold WornChip.receive
  rw [hnone]
  unfold Chip.receive
  simp only [if_true, hok]
  exact ⟨rfl, rfl⟩

/-- The busy bit of the status register still says whether the chip is busy. -/
theorem oip_statusByte (s : WornChip) (b : UInt8) : oip (s.statusByte b) = oip b := by
  unfold statusByte
  cases s.failed with
  | none => rfl
  | some op => exact op.oip_withField b

theorem shown_statusByte (hfailed : s.failed = some op) (b : UInt8) :
    op.Shown (s.statusByte b) := by
  unfold statusByte
  rw [hfailed]
  exact op.shown_withField b

end Transfers

/-! ## The rules -/

section Rules

variable {E : Halt → WornChip → Prop} {s : WornChip} {m : Core Unit} {n : Nat} {c : NandCmd}
  {op : ArrayOp}

theorem cmd_env {φ : Answer → WornChip → Prop} (h : φ (s.transfer c).1 (s.transfer c).2) :
    Handler.cmd handler c φ s := by
  intro t ht
  have henv : env s (.blockingTransfer t) = s.transfer c := by simp only [env, ht]
  show φ (env s (.blockingTransfer t)).1 (env s (.blockingTransfer t)).2
  rw [henv]
  exact h

theorem Ready.next (hs : s.Ready m n) : s.next.Ready m n := ⟨hs.core, hs.busy, hs.failures⟩

/-- Only array commands change the array. -/
theorem array_exec {c : NandCmd} (hstarts : m.starts c = none) :
    (m.exec singleCache c).array = m.array := by
  cases c with
  | programExecute row =>
    cases hlatch : m.latch with
    | true => simp [Core.starts, hlatch] at hstarts
    | false => simp [Core.exec, hlatch]
  | blockErase row =>
    cases hlatch : m.latch with
    | true => simp [Core.starts, hlatch] at hstarts
    | false => simp [Core.exec, hlatch]
  | pageRead row => rfl
  | writeEnable => rfl
  | writeDisable => rfl
  | reset => rfl
  | readId len => rfl
  | readCache column len => rfl
  | programLoad column data => rfl
  | programLoadRandom column data => rfl
  | getFeatures reg => rfl
  | setFeatures reg value => rfl

/-- A command that does not keep the chip busy: the pages stay as they are, and on success it has
been executed. -/
theorem Ready.sent (hs : s.Ready m n) (hstarts : m.starts c = none)
    {R : Status → WornChip → Prop} {K : WornChip → Prop}
    (hR : ∀ st s', st ≠ amHalStatusSuccess → s'.chip.core.array = m.array → s'.failures = n →
      R st s')
    (hK : ∀ s', s'.Ready (m.exec singleCache c) n → K s') :
    Handler.cmd handler c (Sent R K) s := by
  have hreceived := hs.next.receive hstarts (s.chip.future 0) (s.fates 0)
  apply cmd_env
  constructor
  · intro hok
    rw [transfer_status] at hok
    rw [transfer_of_success hok]
    exact hK _ hreceived
  · intro hfail
    rcases transfer_cases s c with hlost | hreached
    · rw [hlost] at hfail ⊢
      exact hR _ _ hfail (congrArg Core.array hs.core) hs.failures
    · rw [hreached] at hfail ⊢
      refine hR _ _ hfail ?_ hreceived.failures
      rw [hreceived.core, array_exec hstarts]

/-- An array command: it has been taken, or was lost. -/
theorem Ready.started (hs : s.Ready m n) (hstarts : m.starts c = some op)
    {R : Status → WornChip → Prop} {K : WornChip → Prop}
    (hlost : ∀ st s', st ≠ amHalStatusSuccess → s'.chip.core.array = m.array → s'.failures = n →
      R st s')
    (hR : ∀ st s', st ≠ amHalStatusSuccess → s'.Took m c op n → R st s')
    (hK : ∀ s', s'.Took m c op n → K s') :
    Handler.cmd handler c (Sent R K) s := by
  have htook := hs.next.receive_array hstarts (s.chip.future 0) (s.fates 0)
  apply cmd_env
  constructor
  · intro hok
    rw [transfer_status] at hok
    rw [transfer_of_success hok]
    exact hK _ htook
  · intro hfail
    rcases transfer_cases s c with heq | heq
    · rw [heq] at hfail ⊢
      exact hlost _ _ hfail (congrArg Core.array hs.core) hs.failures
    · rw [heq] at hfail ⊢
      exact hR _ _ hfail htook

/-- READ_CACHE. -/
theorem Ready.read (hs : s.Ready m n) {column len : Nat} {φ : Answer → WornChip → Prop}
    (hR : ∀ a s', a.status ≠ amHalStatusSuccess → s'.chip.core.array = m.array →
      s'.failures = n → φ a s')
    (hK : ∀ s', s'.Ready m n → φ ⟨amHalStatusSuccess, m.stream singleCache column⟩ s') :
    Handler.cmd handler (.readCache column len) φ s := by
  have hreceived := hs.next.receive (c := .readCache column len) rfl (s.chip.future 0) (s.fates 0)
  apply cmd_env
  by_cases hok : (s.chip.future 0).status = amHalStatusSuccess
  · have hstatus : (s.transfer (.readCache column len)).1.status = amHalStatusSuccess :=
      (transfer_status s _).trans hok
    rw [transfer_of_success hok] at hstatus ⊢
    have hbytes := hs.next.receive_readCache (s.chip.future 0) (s.fates 0) column len
    have hanswer : (s.next.receive (s.chip.future 0) (s.fates 0) (.readCache column len)).1 =
        ⟨amHalStatusSuccess, m.stream singleCache column⟩ := by
      rw [← hstatus, ← hbytes]
    rw [hanswer]
    exact hK _ hreceived
  · have hfail : (s.transfer (.readCache column len)).1.status ≠ amHalStatusSuccess := by
      rw [transfer_status]
      exact hok
    refine hR _ _ hfail ?_ ?_
    · rcases transfer_cases s (.readCache column len) with heq | heq
      · rw [heq]
        exact congrArg Core.array hs.core
      · rw [heq, hreceived.core]
        rfl
    · rcases transfer_cases s (.readCache column len) with heq | heq
      · rw [heq]
        exact hs.failures
      · rw [heq]
        exact hreceived.failures

/-- A wait for an array command. On success the chip is ready, and the status byte shows the
failure if there was one. -/
theorem Took.waited (h : s.Took m c op n) {polls : Nat} {R : Status → WornChip → Prop}
    {K : UInt8 → WornChip → Prop}
    (hR : ∀ st s', st ≠ amHalStatusSuccess → s'.Took m c op n → R st s')
    (hK : ∀ statusReg s', s'.Took m c op n → s'.chip.busy = 0 →
      (s'.failures ≠ n → op.Shown statusReg) → K statusReg s') :
    Handler.polls handler polls (Waited R K) s := by
  refine Handler.polls_of_inv (fun _ s' => s'.Took m c op n) ?_
    (fun s' hs' => hR _ s' (by decide) hs') h
  intro left s' hs'
  have hstill := hs'.still (still_getFeatures s')
  apply cmd_env
  by_cases hok : (s'.chip.future 0).status = amHalStatusSuccess
  · obtain ⟨hanswer, hbusy⟩ := transfer_getFeatures hok
    rw [hanswer, dif_neg (not_ne_iff.mpr rfl)]
    simp only [WornChip.oip_statusByte, SpiNand.oip_statusByte]
    by_cases hpos : 0 < s'.chip.busy
    · rw [if_pos (decide_eq_true hpos)]
      exact hstill
    · have hready : (s'.transfer (.getFeatures featureRegStatus)).2.chip.busy = 0 := by omega
      rw [if_neg (by simpa using hpos)]
      refine hK _ _ hstill hready fun hne => ?_
      rw [(still_getFeatures s').failures] at hne
      exact shown_statusByte (hs'.spoiled hne).2 _
  · rw [← transfer_status s' (.getFeatures featureRegStatus)] at hok
    rw [dif_pos hok]
    exact hR _ _ hok hstill

/-- The loop of `nand_mark_bad_block`. -/
theorem Took.spun (h : s.Took m c op n) {fuel : Nat} {R : Status → WornChip → Prop}
    {K : WornChip → Prop} (hE : ∀ s', s'.Took m c op n → E .outOfFuel s')
    (hR : ∀ st s', st ≠ amHalStatusSuccess → s'.Took m c op n → R st s')
    (hK : ∀ s', s'.Took m c op n → s'.chip.busy = 0 → K s') :
    Handler.spins handler E R K fuel s := by
  induction fuel generalizing s with
  | zero => exact hE s h
  | succ fuel ih =>
    have hstill := h.still (still_getFeatures s)
    apply cmd_env
    by_cases hok : (s.chip.future 0).status = amHalStatusSuccess
    · obtain ⟨hanswer, hbusy⟩ := transfer_getFeatures hok
      rw [hanswer, if_neg (not_ne_iff.mpr rfl)]
      simp only [WornChip.oip_statusByte, SpiNand.oip_statusByte]
      by_cases hpos : 0 < s.chip.busy
      · rw [if_pos (decide_eq_true hpos)]
        exact ih hstill
      · have hready : (s.transfer (.getFeatures featureRegStatus)).2.chip.busy = 0 := by omega
        rw [if_neg (by simpa using hpos)]
        exact hK _ hstill hready
    · rw [← transfer_status s (.getFeatures featureRegStatus)] at hok
      rw [if_pos hok]
      exact hR _ _ hok hstill

end Rules

end WornChip

end SpiNand
