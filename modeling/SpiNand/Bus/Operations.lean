import SpiNand.Bus.Rules

/-!
# What each operation sends

One rule for each operation of the driver, in terms of the commands it sends. The hypothesis of
a rule reads as the operation's sequence on the bus: `Sent R` after a command ends the operation
with the HAL's status if the transfer failed, and `Handler.polls` is its wait.
-/

namespace SpiNand

open Interaction Interaction.Prog

variable {σ : Type} {H : Handler σ Call Answer} {E : Halt → σ → Prop}

/-- The row of a block's first page. -/
def blockRow (blockAddr : UInt32) : Nat := rowOf (blockToPageAddr blockAddr)

/-- The first row of a block, for a block number in range. -/
theorem blockRow_eq {blockAddr : UInt32} (hb : blockAddr.toNat < numBlocks) :
    blockRow blockAddr = blockAddr.toNat * pagesPerBlock := by
  have hblocks : numBlocks = 2048 := rfl
  have hpages : pagesPerBlock = 64 := rfl
  have hshift : (blockToPageAddr blockAddr).toNat = blockAddr.toNat * 64 := by
    have hlt : blockAddr.toNat * 2 ^ 6 < 2 ^ 32 := by omega
    exact toNat_shiftLeft_of_lt (n := 6) (by decide) hlt
  unfold blockRow rowOf
  rw [hshift, hpages]
  omega

/-- The end of an operation that looks at a failure bit. -/
theorem wpS_failBit {failed : Bool} {R : Status → σ → Prop} {s : σ}
    (h : R (if failed then amHalStatusHwErr else amHalStatusSuccess) s) :
    wpS H E (if failed then pure amHalStatusHwErr else pure amHalStatusSuccess : DriverM Status)
      R s := by
  cases failed with
  | true => exact wpS_pure h
  | false => exact wpS_pure h

section Stack

variable [Handler.IgnoresStack H]

/-! ## Erase, program, read and copy -/

theorem wpS_eraseBlock {blockAddr : UInt16} {R : Status → σ → Prop} {s : σ}
    (h : Handler.cmd H .writeEnable (Sent R <|
      Handler.cmd H (.blockErase (blockRow blockAddr.toUInt32)) <| Sent R <|
      Handler.polls H (pollBudget eraseTimeUs) <| Waited R fun statusReg =>
        R (if eFail statusReg then amHalStatusHwErr else amHalStatusSuccess)) s) :
    wpS H E (nandEraseBlock blockAddr) R s := by
  apply wpS_uninitBool
  intro unused
  apply wpS_uninitBool
  intro eraseErr
  apply carries_writeEnable.wpS_check h
  intro s₁ h₁
  apply (carries_blockErase _).wpS_check h₁
  intro s₂ h₂
  apply wpS_wait_check (by decide) h₂
  intro statusReg s₃ h₃
  exact wpS_failBit h₃

theorem wpS_progPage {pageAddr : UInt32} {data : PageData} {R : Status → σ → Prop} {s : σ}
    (h : Handler.cmd H .writeEnable (Sent R <|
      Handler.cmd H (.programLoad 0 data.bytes) <| Sent R <|
      Handler.cmd H .writeEnable <| Sent R <|
      Handler.cmd H (.programExecute (rowOf pageAddr)) <| Sent R <|
      Handler.polls H (pollBudget programTimeUs) <| Waited R fun statusReg =>
        R (if pFail statusReg then amHalStatusHwErr else amHalStatusSuccess)) s) :
    wpS H E (nandProgPage pageAddr data) R s := by
  apply wpS_uninitBool
  intro programFail
  apply wpS_uninitBool
  intro eraseFail
  apply carries_writeEnable.wpS_check h
  intro s₁ h₁
  have hload : Carries (nandCmdProgramLoadX1 0 data.bytes (UInt32.ofNat pageSize))
      (.programLoad 0 (data.bytes.take pageSize)) := carries_programLoad 0 _ _
  rw [List.take_of_length_le (Nat.le_of_eq data.length_bytes)] at hload
  apply hload.wpS_check h₁
  intro s₂ h₂
  apply carries_writeEnable.wpS_check h₂
  intro s₃ h₃
  apply (carries_programExecute _).wpS_check h₃
  intro s₄ h₄
  apply wpS_wait_check (by decide) h₄
  intro statusReg s₅ h₅
  exact wpS_failBit h₅

theorem wpS_readPage {pageAddr : UInt32} {offset : UInt16} {data : List UInt8} {len : UInt32}
    {eccFatal : Option Bool} {R : ReadResult → σ → Prop} {s : σ}
    (h : Handler.cmd H (.pageRead (rowOf pageAddr)) (Sent (fun st => R ⟨st, data, eccFatal⟩) <|
      Handler.polls H (pollBudget pageReadTimeUs) <|
      Waited (fun st => R ⟨st, data, eccFatal⟩) fun statusReg =>
      Handler.cmd H (.readCache offset.toNat len.toNat) fun a =>
        R ⟨a.status, received len.toNat data a,
          eccFatal.map fun _ => nandStatusToEcc statusReg = .fatal⟩) s) :
    wpS H E (nandReadPage pageAddr offset data len eccFatal) R s := by
  apply wpS_uninitBool
  intro ignore1
  apply wpS_uninitBool
  intro ignore2
  apply wpS_uninitByte
  intro statusReg
  apply (carries_pageRead _).wpS_check h
  intro s₁ h₁
  apply wpS_wait_check (by decide) h₁
  intro statusReg s₂ h₂
  -- the second check of the wait's status never ends the read
  apply wpS_if_success
  apply wpS_bind
  apply wpS_readX1
  apply Handler.cmd_mono h₂
  intro a s₃ h₃
  apply wpS_ite (fun _ => wpS_pure h₃)
  intro hok
  apply wpS_pure
  rw [← not_ne_iff.mp hok]
  exact h₃

theorem wpS_isFree {pageAddr : UInt32} {isFree : Option Bool} {R : Status × Option Bool → σ → Prop}
    {s : σ}
    (h : ∀ eccData : List UInt8, eccData.length = eccAreaLength →
      wpS H E (nandReadPage pageAddr eccAreaOffset eccData (UInt32.ofNat eccAreaLength) none)
        (fun read s' => R (read.ui32Status, if read.ui32Status = amHalStatusSuccess then
          isFree.map fun _ => scanFree read.data true else isFree) s') s) :
    wpS H E (nandIsFree pageAddr isFree) R s := by
  apply wpS_uninitBytes
  intro eccData hlen
  apply wpS_bind
  apply wpS_mono (h eccData hlen)
  intro read s' hR
  apply wpS_ite
  · intro hfail
    rw [if_neg hfail] at hR
    exact wpS_pure hR
  · intro hok
    rw [if_pos (not_ne_iff.mp hok), not_ne_iff.mp hok] at hR
    exact wpS_pure hR

theorem wpS_copyPage {srcPageAddr destPageAddr : UInt32} {eccFatal : Option Bool}
    {R : Status × Option Bool → σ → Prop} {s : σ}
    (h : Handler.cmd H (.pageRead (rowOf srcPageAddr)) (Sent (fun st => R (st, eccFatal)) <|
      Handler.polls H (pollBudget pageReadTimeUs) <|
      Waited (fun st => R (st, eccFatal)) fun statusReg s₁ =>
      if nandStatusToEcc statusReg = .fatal ∧ eccFatal ≠ none then
        R (amHalStatusHwErr, eccFatal.map fun _ => true) s₁
      else
        Handler.cmd H .writeEnable (Sent (fun st => R (st, eccFatal)) <|
        Handler.cmd H (.programLoadRandom 0 []) <| Sent (fun st => R (st, eccFatal)) <|
        Handler.cmd H (.programExecute (rowOf destPageAddr)) <|
          Sent (fun st => R (st, eccFatal)) <|
        Handler.polls H (pollBudget programTimeUs) <| Waited (fun st => R (st, eccFatal)) fun _ =>
          R (amHalStatusSuccess, eccFatal)) s₁) s) :
    wpS H E (nandCopyPage srcPageAddr destPageAddr eccFatal) R s := by
  apply wpS_uninitBool
  intro unused1
  apply wpS_uninitBool
  intro unused2
  apply wpS_uninitByte
  intro statusReg
  apply (carries_pageRead _).wpS_check h
  intro s₁ h₁
  apply wpS_wait_check (by decide) h₁
  intro statusReg s₂ h₂
  apply wpS_ite
  · -- an uncorrectable source page, and somebody to tell
    intro hfatal
    have htold : nandStatusToEcc statusReg = .fatal ∧ eccFatal ≠ none := hfatal
    rw [if_pos htold] at h₂
    exact wpS_pure h₂
  · intro hfatal
    have hgo : ¬ (nandStatusToEcc statusReg = .fatal ∧ eccFatal ≠ none) := hfatal
    rw [if_neg hgo] at h₂
    apply carries_writeEnable.wpS_check h₂
    intro s₃ h₃
    apply (carries_programLoadRandom 0 [] 0).wpS_check h₃
    intro s₄ h₄
    apply (carries_programExecute _).wpS_check h₄
    intro s₅ h₅
    -- the failure bit of the program is not looked at
    exact wpS_wait_check (by decide) h₅ fun _ s₆ h₆ => wpS_pure h₆

/-! ## Bad blocks -/

theorem wpS_checkBadBlock {blockAddr : UInt32} {isBad : Bool} {R : Status × Bool → σ → Prop}
    {s : σ}
    (h : ∀ markers : List UInt8, markers.length = badBlockAreaLength →
      wpS H E (nandReadPage (blockToPageAddr blockAddr) (UInt16.ofNat badBlockAreaOffset) markers
          (UInt32.ofNat badBlockAreaLength) none)
        (fun read s' => R (read.ui32Status, if read.ui32Status = amHalStatusSuccess then
          read.data.getD badBlockOurByteOffset 0 == badBlockMarkerValue ||
            read.data.getD badBlockFactoryByteOffset 0 == badBlockMarkerValue
          else isBad) s') s) :
    wpS H E (nandCheckBadBlock blockAddr isBad) R s := by
  apply wpS_uninitBytes
  intro markers hlen
  have hpage : blockToPageAddr blockAddr + badBlockPageOffset = blockToPageAddr blockAddr :=
    UInt32.add_zero _
  simp only [hpage]
  apply wpS_bind
  apply wpS_mono (h markers hlen)
  intro read s' hR
  apply wpS_ite
  · intro hfail
    rw [if_neg hfail] at hR
    exact wpS_pure hR
  · intro hok
    rw [if_pos (not_ne_iff.mp hok)] at hR
    exact wpS_pure hR

end Stack

/-- Status reads until one fails, which ends in `R`, or finds the chip ready, which goes on with
`K`; with fuel for `n` of them. -/
def Handler.spins (H : Handler σ Call Answer) (E : Halt → σ → Prop) (R : Status → σ → Prop)
    (K : σ → Prop) : Nat → σ → Prop
  | 0, s => E .outOfFuel s
  | n + 1, s => Handler.cmd H (.getFeatures featureRegStatus) (fun a s' =>
      if a.status ≠ amHalStatusSuccess then R a.status s'
      else if oip (a.bytes 0) then Handler.spins H E R K n s'
      else K s') s

theorem wpS_markBadBlockLoop {R : Status → σ → Prop} {K : σ → Prop} :
    ∀ {n : Nat} {busy : Bool} {s : σ}, Handler.spins H E R K n s →
      wpS H E (nandMarkBadBlockLoop n busy)
        (fun st s' => (st = amHalStatusSuccess → K s') ∧ (st ≠ amHalStatusSuccess → R st s')) s
  | 0, _, _, h => fun _ => h
  | n + 1, busy, s, h => by
    have hbusy : wpS H E (nandGetBusy busy) (fun r s' =>
        if r.1 ≠ amHalStatusSuccess then R r.1 s'
        else if r.2 then Handler.spins H E R K n s' else K s') s := by
      apply wpS_bind
      apply wpS_getFeatures
      apply Handler.cmd_mono h
      intro a s' ha
      apply wpS_ite
      · intro hfail
        apply wpS_pure
        rwa [if_pos hfail] at ha ⊢
      · intro hok
        apply wpS_pure
        rwa [if_neg hok] at ha ⊢
    apply wpS_bind
    apply wpS_mono hbusy
    intro r s' hr
    obtain ⟨st, busy'⟩ := r
    apply wpS_ite
    · intro hfail
      apply wpS_pure
      rw [if_pos hfail] at hr
      exact ⟨fun hok => absurd hok hfail, fun _ => hr⟩
    · intro hok
      rw [if_neg hok] at hr
      apply wpS_ite
      · -- still busy: another turn
        intro hgo
        rw [if_pos hgo] at hr
        exact wpS_markBadBlockLoop hr
      · intro hstop
        apply wpS_pure
        rw [if_neg hstop] at hr
        exact ⟨fun _ => hr, fun hfail => absurd hfail hok⟩

/-- The column of our bad-block marker. -/
def markerColumn : Nat := badBlockAreaOffset + badBlockOurByteOffset

theorem wpS_markBadBlock [Handler.IgnoresStack H] {fuel : Nat} {blockAddr : UInt32}
    {R : Status → σ → Prop} {s : σ}
    (h : Handler.cmd H (.pageRead (blockRow blockAddr)) (Sent R <|
      Handler.spins H E R (Handler.cmd H .writeEnable <| Sent R <|
        Handler.cmd H (.programLoadRandom markerColumn [badBlockMarkerValue]) <| Sent R <|
        Handler.cmd H (.programExecute (blockRow blockAddr)) <| Sent R <|
        Handler.polls H (pollBudget programTimeUs) <| Waited R fun statusReg =>
          R (if pFail statusReg then amHalStatusHwErr else amHalStatusSuccess)) fuel) s) :
    wpS H E (nandMarkBadBlock fuel blockAddr) R s := by
  apply wpS_uninitBool
  intro programFail
  apply wpS_uninitBool
  intro eraseFail
  apply (carries_pageRead _).wpS_check h
  intro s₁ h₁
  apply wpS_bind
  apply wpS_mono (wpS_markBadBlockLoop h₁)
  intro st s₂ h₂
  apply wpS_ite (fun hfail => wpS_pure (h₂.2 hfail))
  intro hok
  apply carries_writeEnable.wpS_check (h₂.1 (not_ne_iff.mp hok))
  intro s₃ h₃
  apply (carries_programLoadRandom _ [badBlockMarkerValue] 1).wpS_check h₃
  intro s₄ h₄
  apply (carries_programExecute _).wpS_check h₄
  intro s₅ h₅
  apply wpS_wait_check (by decide) h₅
  intro statusReg s₆ h₆
  exact wpS_failBit h₆

/-- One turn for each block: `J n` holds with `n` blocks left to check. -/
theorem wpS_printBadBlocksLoop [Handler.TransfersOnly H] (J : Nat → σ → Prop)
    {R : Status → σ → Prop}
    (hstep : ∀ n i isBad s, J (n + 1) s → wpS H E (nandCheckBadBlock i isBad)
      (fun r s' => if r.1 ≠ amHalStatusSuccess then R r.1 s' else J n s') s)
    (hdone : ∀ st s, J 0 s → R st s) :
    ∀ {n : Nat} {i total : UInt32} {isBad : Bool} {st : Status} {s : σ}, J n s →
      wpS H E (nandPrintBadBlocksLoop n i total isBad st) R s
  | 0, _, _, _, st, s, h => wpS_printf (wpS_pure (hdone st s h))
  | n + 1, i, total, isBad, _, s, h => by
    apply wpS_bind
    apply wpS_mono (hstep n i isBad s h)
    intro r s' hr
    obtain ⟨st, isBad'⟩ := r
    apply wpS_ite
    · intro hfail
      rw [if_pos hfail] at hr
      exact wpS_printf (wpS_pure hr)
    · intro hok
      rw [if_neg hok] at hr
      -- a bad block is printed and counted, which sends nothing
      apply wpS_ite
      · intro _
        apply wpS_printf
        exact wpS_printBadBlocksLoop J hstep hdone hr
      · intro _
        exact wpS_printBadBlocksLoop J hstep hdone hr

theorem wpS_printBadBlocks [Handler.TransfersOnly H] (J : Nat → σ → Prop)
    {R : Status → σ → Prop} {s : σ}
    (hstep : ∀ n i isBad s, J (n + 1) s → wpS H E (nandCheckBadBlock i isBad)
      (fun r s' => if r.1 ≠ amHalStatusSuccess then R r.1 s' else J n s') s)
    (hdone : ∀ st s, J 0 s → R st s) (h : J numBlocks s) :
    wpS H E nandPrintBadBlocks R s :=
  wpS_uninitBool fun _ => wpS_printf (wpS_printBadBlocksLoop J hstep hdone h)

/-! ## The parameter page, reset, identification and initialisation -/

/-- The configuration register with the parameter page selected. -/
def paramsConfig (oldRegConfig : UInt8) : UInt8 :=
  oldRegConfig &&& ~~~featureRegConfigCfgMask ||| featureRegConfigCfgValueReadParams

theorem wpS_readParamsPage {paramsPage : List UInt8} {len : UInt32}
    {R : Status × List UInt8 → σ → Prop} {s : σ}
    (hshort : len < parameterPageSize → R (amHalStatusInvalidArg, paramsPage) s)
    (h : ¬ len < parameterPageSize → Handler.cmd H (.getFeatures featureRegConfig) (fun a s₁ =>
      if a.status ≠ amHalStatusSuccess then R (a.status, paramsPage) s₁
      else Handler.cmd H (.setFeatures featureRegConfig (paramsConfig (a.bytes 0)))
        (Sent (fun st => R (st, paramsPage)) fun s₂ =>
          wpS H E (nandReadPage parameterPagePageAddr parameterPageColumnAddr paramsPage len none)
            (fun read s₃ =>
              if read.ui32Status ≠ amHalStatusSuccess then R (read.ui32Status, read.data) s₃
              else Handler.cmd H (.setFeatures featureRegConfig (a.bytes 0))
                (fun a' => R (a'.status, read.data)) s₃) s₂) s₁) s) :
    wpS H E (nandReadParamsPage paramsPage len) R s := by
  apply wpS_ite (fun hlen => wpS_pure (hshort hlen))
  intro hlen
  apply wpS_bind
  apply wpS_getFeatures
  apply Handler.cmd_mono (h hlen)
  intro a s₁ h₁
  refine wpS_ite (fun hfail => ?_) fun hok => ?_
  · rw [if_pos hfail] at h₁
    exact wpS_pure h₁
  rw [if_neg hok] at h₁
  apply (carries_setFeatures _ _).wpS_check h₁
  intro s₂ h₂
  apply wpS_bind
  apply wpS_mono h₂
  intro read s₃ h₃
  refine wpS_ite (fun hfail => ?_) fun hok => ?_
  · rw [if_pos hfail] at h₃
    exact wpS_pure h₃
  rw [if_neg hok] at h₃
  apply wpS_bind
  apply (carries_setFeatures _ _).run
  apply Handler.cmd_mono h₃
  intro a' s₄ h₄
  apply wpS_ite (fun _ => wpS_pure h₄)
  intro hok
  apply wpS_pure
  rw [← not_ne_iff.mp hok]
  exact h₄

theorem wpS_reset [Handler.TransfersOnly H] {R : Status → σ → Prop} {s : σ}
    (h : Handler.cmd H .reset (fun _ s' => ∀ st, R st s') s) : wpS H E nandReset R s := by
  apply wpS_bind
  apply carries_reset.run
  apply Handler.cmd_mono h
  intro a s' h'
  exact wpS_ite (fun _ => wpS_pure (h' _)) fun _ => wpS_delayMs (wpS_pure (h' _))

theorem wpS_id [Handler.IgnoresStack H] {R : Status → σ → Prop} {s : σ}
    (h : Handler.cmd H (.readId 3) (fun _ s' => ∀ st, R st s') s) : wpS H E nandId R s := by
  apply wpS_uninitBytes
  intro buffer _
  apply wpS_bind
  apply wpS_readId
  apply Handler.cmd_mono h
  intro a s' h'
  exact wpS_ite (fun _ => wpS_pure (h' _)) fun _ => wpS_pure (h' _)

/-- `am_hal_mspi_device_configure` issues no transfer. -/
theorem wpS_deviceConfigure [Handler.TransfersOnly H] {R : Status → σ → Prop} {s : σ}
    (h : ∀ st, R st s) : wpS H E amHalMspiDeviceConfigure R s := by
  apply wpS_bind
  apply wpS_get
  intro d
  apply wpS_bind
  apply wpS_setup
  intro st
  exact wpS_ite (fun _ => wpS_bind (wpS_modify (wpS_pure (h st)))) fun _ => wpS_pure (h st)

/-- A setup step followed by the check of its status: both ways go on from the same state. -/
theorem wpS_setup_check {α : Type} {m : DriverM Status} {fail next : DriverM α}
    {R : α → σ → Prop} {s : σ} (hm : ∀ R' : Status → σ → Prop, (∀ st, R' st s) → wpS H E m R' s)
    (hfail : wpS H E fail R s) (hnext : wpS H E next R s) :
    wpS H E (m >>= fun st => if amHalStatusSuccess ≠ st then fail else next) R s :=
  wpS_bind (hm _ fun _ => wpS_ite (fun _ => hfail) fun _ => hnext)

/-- Initialisation sends one RESET and one SET_FEATURES, and may end anywhere. -/
theorem wpS_init [Handler.TransfersOnly H] {R : Status → σ → Prop} {s : σ}
    (hR : ∀ st, R st s)
    (h : Handler.cmd H .reset (fun _ s₁ => (∀ st, R st s₁) ∧
      Handler.cmd H (.setFeatures featureRegBlockLock featureRegBlockLockUnlockAll)
        (fun _ s₂ => ∀ st, R st s₂) s₁) s) : wpS H E nandInit R s := by
  have herror : ∀ {text : String}, wpS H E
      (amUtilStdioPrintf text >>= fun _ => pure amDevicesMspiFlashStatusError) R s :=
    wpS_printf (wpS_pure (hR _))
  apply wpS_void
  apply wpS_setup_check (fun _ => wpS_setup) herror
  apply wpS_setup_check (fun _ => wpS_setup) herror
  apply wpS_setup_check (fun _ => wpS_deviceConfigure) herror
  apply wpS_setup_check (fun _ => wpS_setup) herror
  apply wpS_bind
  apply wpS_get
  intro d
  apply wpS_void
  apply wpS_bind
  apply wpS_reset
  apply Handler.cmd_mono h
  intro a s₁ h₁ st
  apply wpS_ite (fun _ => wpS_pure (h₁.1 _))
  intro _
  apply wpS_bind
  apply (carries_setFeatures _ _).run
  apply Handler.cmd_mono h₁.2
  intro a s₂ h₂
  apply wpS_ite (fun _ => wpS_pure (h₂ _))
  intro _
  apply wpS_setup_check (fun _ => wpS_setup) (wpS_pure (h₂ _))
  apply wpS_setup_check (fun _ => wpS_deviceConfigure) (wpS_pure (h₂ _))
  apply wpS_setup_check (fun _ => wpS_setup) (wpS_pure (h₂ _))
  apply wpS_void
  apply wpS_void
  apply wpS_void
  apply wpS_void
  apply wpS_setup_check (fun _ => wpS_setup) (wpS_pure (h₂ _))
  apply wpS_setup_check (fun _ => wpS_setup) (wpS_pure (h₂ _))
  exact wpS_void (wpS_void (wpS_pure (h₂ _)))

end SpiNand
