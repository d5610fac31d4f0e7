import SpiNand.Chip.Device

/-!
# What a successful operation has done

In any weather, with transfers that fail and waits that time out, an operation that starts on a
ready chip and returns `AM_HAL_STATUS_SUCCESS` has had its commands executed: a failed transfer
ends it with another status, and a status byte without the busy bit comes from a ready chip.

Where the transfers do succeed, the whole state after a command or a wait is known, with the
weather it has used up: `Ready.sent_ok` and the lemmas after it.
-/

namespace SpiNand

open Interaction Interaction.Prog

namespace Chip

variable {π : Type} [DecidableEq π] {g : Geometry π} {E : Halt → Chip π → Prop}

/-- The chip is ready and has `m`; the weather is open. -/
structure Ready (s : Chip π) (m : Core π) : Prop where
  core : s.core = m
  busy : s.busy = 0

/-- The successful transfer of a command to a ready chip. -/
theorem Ready.transfer {s : Chip π} {m : Core π} (hs : s.Ready m) {c : NandCmd}
    (hok : (s.transfer g c).1.status = amHalStatusSuccess) :
    (∀ column len, c = .readCache column len → (s.transfer g c).1.bytes = m.stream g column) ∧
      (s.transfer g c).2.core = m.exec g c ∧
      (s.transfer g c).2.busy = ((m.starts c).map (s.future 0).busy).getD 0 := by
  obtain ⟨rfl, hready⟩ := hs
  rw [transfer_status] at hok
  unfold Chip.transfer Chip.receive
  simp only [hok, ne_eq, not_true_eq_false, if_false, hready, Nat.lt_irrefl]
  by_cases hc : c = .getFeatures featureRegStatus
  · subst hc
    exact ⟨nofun, rfl, rfl⟩
  · simp only [if_neg hc]
    refine ⟨?_, trivial, ?_⟩
    · rintro column len rfl
      rfl
    · cases s.core.starts c with
      | none => rfl
      | some op => rfl

/-- A command that does not keep the chip busy. -/
theorem Ready.sent {s : Chip π} {m : Core π} (hs : s.Ready m) {c : NandCmd}
    (hstarts : m.starts c = none) {R : Status → Chip π → Prop} {K : Chip π → Prop}
    (hR : ∀ st s', st ≠ amHalStatusSuccess → R st s')
    (hK : ∀ s', s'.Ready (m.exec g c) → K s') :
    Handler.cmd (Chip.handler g) c (Sent R K) s := by
  apply cmd_env
  refine ⟨fun hok => ?_, fun hfail => hR _ _ hfail⟩
  obtain ⟨-, hcore, hbusy⟩ := hs.transfer (g := g) hok
  rw [hstarts] at hbusy
  exact hK _ ⟨hcore, hbusy⟩

/-- An array command. -/
theorem Ready.started {s : Chip π} {m : Core π} (hs : s.Ready m) {c : NandCmd}
    {R : Status → Chip π → Prop} {K : Chip π → Prop}
    (hR : ∀ st s', st ≠ amHalStatusSuccess → R st s')
    (hK : ∀ s', s'.core = m.exec g c → K s') :
    Handler.cmd (Chip.handler g) c (Sent R K) s := by
  apply cmd_env
  refine ⟨fun hok => ?_, fun hfail => hR _ _ hfail⟩
  obtain ⟨-, hcore, -⟩ := hs.transfer (g := g) hok
  exact hK _ hcore

/-- A successful status read: it shows whether the chip is busy, and counts. -/
theorem transfer_getFeatures {s : Chip π} (hok : (s.future 0).status = amHalStatusSuccess) :
    s.transfer g (.getFeatures featureRegStatus) =
      (⟨amHalStatusSuccess, fun _ => (s.future 0).statusByte (0 < s.busy)⟩,
        ⟨s.core, s.busy - 1, fun n => s.future (n + 1)⟩) := by
  unfold Chip.transfer Chip.receive
  simp only [hok, ne_eq, not_true_eq_false, if_false, if_true]

/-- A wait that succeeds ends on a ready chip. -/
theorem waited_of_core {s : Chip π} {m : Core π} (hs : s.core = m) {n : Nat}
    {R : Status → Chip π → Prop} {K : UInt8 → Chip π → Prop}
    (hR : ∀ st s', st ≠ amHalStatusSuccess → R st s')
    (hK : ∀ statusReg s', s'.Ready m → K statusReg s') :
    Handler.polls (Chip.handler g) n (Waited R K) s := by
  refine Handler.polls_of_inv (fun _ s' => s'.core = m) ?_ (fun s' _ => hR _ s' (by decide)) hs
  intro left s' hs'
  apply cmd_env
  by_cases hok : (s'.future 0).status = amHalStatusSuccess
  · rw [transfer_getFeatures hok, dif_neg (not_ne_iff.mpr rfl)]
    simp only [oip_statusByte]
    by_cases hbusy : 0 < s'.busy
    · -- the delay after it changes nothing on the chip
      rw [if_pos (decide_eq_true hbusy)]
      exact hs'
    · have hready : s'.busy - 1 = 0 := by omega
      rw [if_neg (by simpa using hbusy)]
      exact hK _ _ ⟨hs', hready⟩
  · -- a poll that failed ends the wait with its status
    rw [← transfer_status (g := g) s' (.getFeatures featureRegStatus)] at hok
    rw [dif_pos hok]
    exact hR _ _ hok

/-! ## Where transfers succeed

The state after a command or a wait, in full, where the HAL reports success: the weather used up
is that of one transfer for a command, and of one for each status read of a wait. -/

/-- A command that keeps the chip ready. -/
theorem Ready.sent_ok {s : Chip π} {m : Core π} (hs : s.Ready m) {c : NandCmd}
    (hok : (s.future 0).status = amHalStatusSuccess) (hstarts : m.starts c = none)
    {R : Status → Chip π → Prop} {K : Chip π → Prop}
    (hK : ∀ s', s'.Ready (m.exec g c) → s'.future = (fun n => s.future (n + 1)) → K s') :
    Handler.cmd (Chip.handler g) c (Sent R K) s := by
  have hstatus : (s.transfer g c).1.status = amHalStatusSuccess :=
    (transfer_status s c).trans hok
  obtain ⟨-, hcore, hbusy⟩ := hs.transfer hstatus
  rw [hstarts] at hbusy
  apply cmd_env
  exact ⟨fun _ => hK _ ⟨hcore, hbusy⟩ (transfer_future s c), fun hfail => absurd hstatus hfail⟩

/-- An array command, which keeps the chip busy for a time. -/
theorem Ready.started_ok {s : Chip π} {m : Core π} (hs : s.Ready m) {c : NandCmd} {op : ArrayOp}
    (hok : (s.future 0).status = amHalStatusSuccess) (hstarts : m.starts c = some op)
    {R : Status → Chip π → Prop} {K : Chip π → Prop}
    (hK : ∀ s', s'.core = m.exec g c → s'.busy = (s.future 0).busy op →
      s'.future = (fun n => s.future (n + 1)) → K s') :
    Handler.cmd (Chip.handler g) c (Sent R K) s := by
  have hstatus : (s.transfer g c).1.status = amHalStatusSuccess :=
    (transfer_status s c).trans hok
  obtain ⟨-, hcore, hbusy⟩ := hs.transfer hstatus
  rw [hstarts] at hbusy
  apply cmd_env
  exact ⟨fun _ => hK _ hcore hbusy (transfer_future s c), fun hfail => absurd hstatus hfail⟩

/-- READ_CACHE. -/
theorem Ready.read_ok {s : Chip π} {m : Core π} (hs : s.Ready m) {column len : Nat}
    (hok : (s.future 0).status = amHalStatusSuccess) {φ : Answer → Chip π → Prop}
    (hφ : ∀ s', s'.Ready m → s'.future = (fun n => s.future (n + 1)) →
      φ ⟨amHalStatusSuccess, m.stream g column⟩ s') :
    Handler.cmd (Chip.handler g) (.readCache column len) φ s := by
  have hstatus : (s.transfer g (.readCache column len)).1.status = amHalStatusSuccess :=
    (transfer_status s _).trans hok
  obtain ⟨hbytes, hcore, hbusy⟩ := hs.transfer hstatus
  have hanswer : (s.transfer g (.readCache column len)).1 =
      ⟨amHalStatusSuccess, m.stream g column⟩ := by
    rw [← hstatus, ← hbytes column len rfl]
  apply cmd_env
  rw [hanswer]
  exact hφ _ ⟨hcore, hbusy⟩ (transfer_future s _)

/-- A wait for a chip that is ready in time. -/
theorem waited_within {s : Chip π} {m : Core π} (hs : s.core = m) {n : Nat} (hbusy : s.busy < n)
    (hok : ∀ i, (s.future i).status = amHalStatusSuccess) {R : Status → Chip π → Prop}
    {K : UInt8 → Chip π → Prop}
    (hK : ∀ s', s'.Ready m → s'.future = (fun i => s.future (i + (s.busy + 1))) →
      K ((s.future s.busy).statusByte false) s') :
    Handler.polls (Chip.handler g) n (Waited R K) s := by
  induction n generalizing s with
  | zero => exact absurd hbusy (Nat.not_lt_zero _)
  | succ n ih =>
    apply cmd_env
    rw [transfer_getFeatures (hok 0), dif_neg (not_ne_iff.mpr rfl)]
    simp only [oip_statusByte]
    cases hleft : s.busy with
    | zero =>
      rw [if_neg (by simp)]
      rw [hleft] at hK
      exact hK _ ⟨hs, rfl⟩ rfl
    | succ left =>
      -- one status read less, in the weather after this one
      rw [if_pos (by simp)]
      rw [hleft] at hK hbusy
      show Handler.polls (Chip.handler g) n (Waited R K) ⟨s.core, left, fun i => s.future (i + 1)⟩
      exact ih hs (Nat.lt_of_succ_lt_succ hbusy) (fun i => hok (i + 1)) hK

/-- The loop of `nand_mark_bad_block`, with fuel for the chip's busy time. -/
theorem spun_within {s : Chip π} {m : Core π} (hs : s.core = m) {fuel : Nat}
    (hbusy : s.busy < fuel) (hok : ∀ i, (s.future i).status = amHalStatusSuccess)
    {R : Status → Chip π → Prop} {K : Chip π → Prop}
    (hK : ∀ s', s'.Ready m → s'.future = (fun i => s.future (i + (s.busy + 1))) → K s') :
    Handler.spins (Chip.handler g) E R K fuel s := by
  induction fuel generalizing s with
  | zero => exact absurd hbusy (Nat.not_lt_zero _)
  | succ fuel ih =>
    apply cmd_env
    rw [transfer_getFeatures (hok 0), if_neg (not_ne_iff.mpr rfl)]
    simp only [oip_statusByte]
    cases hleft : s.busy with
    | zero =>
      rw [if_neg (by simp)]
      rw [hleft] at hK
      exact hK _ ⟨hs, rfl⟩ rfl
    | succ left =>
      rw [if_pos (by simp)]
      rw [hleft] at hK hbusy
      show Handler.spins (Chip.handler g) E R K fuel ⟨s.core, left, fun i => s.future (i + 1)⟩
      exact ih hs (Nat.lt_of_succ_lt_succ hbusy) (fun i => hok (i + 1)) hK

/-- The same loop without fuel for it. -/
theorem spun_exhausted {s : Chip π} {m : Core π} (hs : s.core = m) {fuel : Nat}
    (hbusy : fuel ≤ s.busy) (hok : ∀ i, (s.future i).status = amHalStatusSuccess)
    {R : Status → Chip π → Prop} {K : Chip π → Prop} (hE : ∀ s', s'.core = m → E .outOfFuel s') :
    Handler.spins (Chip.handler g) E R K fuel s := by
  induction fuel generalizing s with
  | zero => exact hE s hs
  | succ fuel ih =>
    apply cmd_env
    rw [transfer_getFeatures (hok 0), if_neg (not_ne_iff.mpr rfl)]
    simp only [oip_statusByte]
    have hpos : 0 < s.busy := by omega
    have hleft : fuel ≤ s.busy - 1 := by omega
    rw [if_pos (decide_eq_true hpos)]
    exact ih hs hleft fun i => hok (i + 1)

/-- A wait for a chip that is not. -/
theorem waited_timeout {s : Chip π} {m : Core π} (hs : s.core = m) {n : Nat} (hbusy : n ≤ s.busy)
    (hok : ∀ i, (s.future i).status = amHalStatusSuccess) {R : Status → Chip π → Prop}
    {K : UInt8 → Chip π → Prop} (hR : ∀ s', s'.core = m → R amHalStatusTimeout s') :
    Handler.polls (Chip.handler g) n (Waited R K) s := by
  induction n generalizing s with
  | zero => exact hR s hs
  | succ n ih =>
    apply cmd_env
    rw [transfer_getFeatures (hok 0), dif_neg (not_ne_iff.mpr rfl)]
    simp only [oip_statusByte]
    have hpos : 0 < s.busy := by omega
    have hleft : n ≤ s.busy - 1 := by omega
    rw [if_pos (decide_eq_true hpos)]
    exact ih hs hleft fun i => hok (i + 1)

/-- A page read whose PAGE_READ is done in time. -/
theorem ready_readPage {s : Chip π} {m : Core π} (hs : s.Ready m)
    (hok : ∀ n, (s.future n).status = amHalStatusSuccess)
    (hintime : (s.future 0).busy .read < ArrayOp.read.budget) (pageAddr : UInt32)
    (offset : UInt16) (data : List UInt8) (len : UInt32) (eccFatal : Option Bool) :
    wpS (Chip.handler g) E (nandReadPage pageAddr offset data len eccFatal)
      (fun read s' => read = ⟨amHalStatusSuccess,
          received len.toNat data ⟨amHalStatusSuccess,
            (m.execs g (readCmds pageAddr)).stream g offset.toNat⟩,
          eccFatal.map fun _ => decide (nandStatusToEcc
            ((s.future ((s.future 0).busy .read + 1)).statusByte false) = .fatal)⟩ ∧
        s'.Ready (m.execs g (readCmds pageAddr)) ∧
        s'.future = fun n => s.future (n + ((s.future 0).busy .read + 3))) s := by
  apply wpS_readPage
  apply hs.started_ok (hok 0) rfl
  intro s₁ hcore₁ hbusy₁ hfuture₁
  apply waited_within hcore₁ (hbusy₁ ▸ hintime) fun n => hfuture₁ ▸ hok (n + 1)
  intro s₂ hs₂ hfuture₂
  rw [hfuture₁, hbusy₁] at hfuture₂ ⊢
  apply hs₂.read_ok (hfuture₂ ▸ hok _)
  intro s₃ hs₃ hfuture₃
  refine ⟨rfl, hs₃, ?_⟩
  rw [hfuture₃, hfuture₂]
  funext n
  have hindex : n + 1 + ((s.future 0).busy .read + 1) + 1 = n + ((s.future 0).busy .read + 3) := by
    omega
  rw [← hindex]

/-- The answer of `nand_check_bad_block` is in the two marker bytes of the block's first row. -/
theorem ready_checkBadBlock {s : Chip π} {m : Core π} (hs : s.Ready m)
    (hok : ∀ n, (s.future n).status = amHalStatusSuccess)
    (hintime : (s.future 0).busy .read < ArrayOp.read.budget) (blockAddr : UInt32)
    (isBad : Bool) :
    wpS (Chip.handler g) E (nandCheckBadBlock blockAddr isBad)
      (fun r s' =>
        let bytes := (m.execs g (readCmds (blockToPageAddr blockAddr))).stream g badBlockAreaOffset
        r = (amHalStatusSuccess, bytes badBlockOurByteOffset == badBlockMarkerValue ||
          bytes badBlockFactoryByteOffset == badBlockMarkerValue) ∧
        s'.Ready (m.execs g (readCmds (blockToPageAddr blockAddr))) ∧
        s'.future = fun n => s.future (n + ((s.future 0).busy .read + 3))) s := by
  apply wpS_checkBadBlock
  intro markers hlen
  apply wpS_mono (ready_readPage hs hok hintime _ _ _ _ _)
  intro read s' h
  obtain ⟨rfl, hs'⟩ := h
  exact ⟨rfl, hs'⟩

/-! ## Reads and programs -/

theorem success_readPage {s : Chip π} {m : Core π} (hs : s.Ready m) (pageAddr : UInt32)
    (offset : UInt16) (data : List UInt8) (len : UInt32) (eccFatal : Option Bool) :
    wpS (Chip.handler g) E (nandReadPage pageAddr offset data len eccFatal)
      (fun read _ => read.ui32Status = amHalStatusSuccess →
        read.data = received len.toNat data ⟨amHalStatusSuccess,
          (m.execs g (readCmds pageAddr)).stream g offset.toNat⟩) s := by
  apply wpS_readPage
  apply hs.started (fun st s' hst hok => absurd hok hst)
  intro s₁ hs₁
  apply waited_of_core hs₁ (fun st s' hst hok => absurd hok hst)
  intro statusReg s₂ hs₂
  apply cmd_env
  intro hok
  obtain ⟨hbytes, -⟩ := hs₂.transfer hok
  unfold received
  rw [hbytes _ _ rfl]
  rfl

theorem success_progPage {s : Chip π} {m : Core π} (hs : s.Ready m) (pageAddr : UInt32)
    (data : PageData) :
    wpS (Chip.handler g) E (nandProgPage pageAddr data)
      (fun st s' => st = amHalStatusSuccess → s'.core = m.execs g (progCmds pageAddr data)) s := by
  have hfail : ∀ (st : Status) (s' : Chip π), st ≠ amHalStatusSuccess → st = amHalStatusSuccess →
      s'.core = m.execs g (progCmds pageAddr data) := fun st s' hst hok => absurd hok hst
  apply wpS_progPage
  apply hs.sent rfl hfail
  intro s₁ hs₁
  apply hs₁.sent rfl hfail
  intro s₂ hs₂
  apply hs₂.sent rfl hfail
  intro s₃ hs₃
  apply hs₃.started hfail
  intro s₄ hs₄
  apply waited_of_core hs₄ hfail
  intro statusReg s₅ hs₅ _
  exact hs₅.core

end Chip

end SpiNand
