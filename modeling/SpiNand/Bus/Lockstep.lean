import SpiNand.Bus.Runs
import SpiNand.Bus.Logs
import SpiNand.Interaction.Relational

/-!
# The operations in lockstep

What holds of every command helper from related states holds of every operation: `HelpersRespect`
collects the facts about the helpers, one for each, and `respects_operation` is the walk over the
operations. `Operation.sends` lists the commands of each operation with their operands.
-/

namespace SpiNand

open Interaction Interaction.Prog

/-! ## The commands of an operation -/

/-- The commands of a page read. -/
def ReadsPage (row column len : Nat) (c : NandCmd) : Prop :=
  c = .pageRead row ∨ c = statusRead ∨ c = .readCache column len

/-- The commands an operation may send, `row` and `firstRow` being the rows of a page and of a
block. -/
def Operation.sends (row firstRow : UInt32 → Nat) : Operation → NandCmd → Prop
  | .init, c => c = .reset ∨ c = .setFeatures featureRegBlockLock featureRegBlockLockUnlockAll
  | .id, c => c = .readId 3
  | .reset, c => c = .reset
  | .readParamsPage _ len, c =>
    c = .getFeatures featureRegConfig ∨ (∃ value, c = .setFeatures featureRegConfig value) ∨
      ReadsPage (row parameterPagePageAddr) parameterPageColumnAddr.toNat len.toNat c
  | .checkBadBlock blockAddr _, c =>
    ReadsPage (firstRow blockAddr) badBlockAreaOffset badBlockAreaLength c
  | .markBadBlock blockAddr, c =>
    c = .pageRead (firstRow blockAddr) ∨ c = statusRead ∨ c = .writeEnable ∨
      c = .programLoadRandom markerColumn [badBlockMarkerValue] ∨
      c = .programExecute (firstRow blockAddr)
  | .eraseBlock blockAddr, c =>
    c = .writeEnable ∨ c = .blockErase (firstRow blockAddr.toUInt32) ∨ c = statusRead
  | .progPage pageAddr data, c =>
    c = .writeEnable ∨ c = .programLoad 0 data.bytes ∨ c = .programExecute (row pageAddr) ∨
      c = statusRead
  | .isFree pageAddr _, c => ReadsPage (row pageAddr) eccAreaOffset.toNat eccAreaLength c
  | .readPage pageAddr offset _ len _, c => ReadsPage (row pageAddr) offset.toNat len.toNat c
  | .copyPage srcPageAddr destPageAddr _, c =>
    c = .pageRead (row srcPageAddr) ∨ c = statusRead ∨ c = .writeEnable ∨
      c = .programLoadRandom 0 [] ∨ c = .programExecute (row destPageAddr)
  | .printBadBlocks, c =>
    ∃ blockAddr : UInt32, blockAddr.toNat < numBlocks ∧
      ReadsPage (firstRow blockAddr) badBlockAreaOffset badBlockAreaLength c

/-! ## The helpers -/

/-- Every command helper goes on in lockstep from related states, for the commands that are
`allowed`; and other calls are related to themselves. -/
structure HelpersRespect (J : Driver → Driver → Prop) (S : Call → Call → Prop)
    (allowed : NandCmd → Prop) : Prop where
  void : ∀ v, S (.void v) (.void v)
  uninit : S .uninit .uninit
  getFeatures : ∀ reg, allowed (.getFeatures reg) → Respects J S (nandCmdGetFeatures reg)
  setFeatures : ∀ reg value, allowed (.setFeatures reg value) →
    Respects J S (nandCmdSetFeatures reg value)
  reset : allowed .reset → Respects J S (amDeviceCommandWrite cmdReset false 0 [] 0)
  readId : ∀ buffer, allowed (.readId 3) →
    Respects J S (amDeviceCommandRead cmdReadId false 0 buffer 3)
  writeEnable : allowed .writeEnable → Respects J S nandCmdWriteEnable
  pageRead : ∀ pageAddr, allowed (.pageRead (rowOf pageAddr)) →
    Respects J S (nandCmdPageRead pageAddr)
  readX1 : ∀ column data len, allowed (.readCache column.toNat len.toNat) →
    Respects J S (nandCmdReadX1 column data len)
  programLoad : ∀ column data len, data.length = len.toNat →
    allowed (.programLoad column.toNat data) →
    Respects J S (nandCmdProgramLoadX1 column data len)
  programLoadRandom : ∀ column data len, data.length = len.toNat →
    allowed (.programLoadRandom column.toNat data) →
    Respects J S (nandCmdProgramLoadRandomX1 column data len)
  programExecute : ∀ pageAddr, allowed (.programExecute (rowOf pageAddr)) →
    Respects J S (nandCmdProgramExecute pageAddr)
  blockErase : ∀ pageAddr, allowed (.blockErase (rowOf pageAddr)) →
    Respects J S (nandCmdBlockErase pageAddr)

section Walk

variable {J : Driver → Driver → Prop} {S : Call → Call → Prop} {allowed : NandCmd → Prop}
  {α : Type}

/-- A helper that is one transfer. -/
theorem respects_transfer {m : DriverM α} {t : Driver → Transfer} {f : Answer → α}
    {next : Driver → Driver}
    (hm : ∀ d, m d = .ask (.blockingTransfer (t d)) fun a => .done (f a, next d))
    (hS : ∀ d d', J d d' → S (.blockingTransfer (t d)) (.blockingTransfer (t d')))
    (hJ : ∀ d d', J d d' → J (next d) (next d')) : Respects J S m := by
  intro d d' hd
  rw [hm, hm]
  exact ⟨hS d d' hd, fun _ => ⟨rfl, hJ d d' hd⟩⟩

theorem respects_call {c : Call} (h : S c c) : Respects J S (call c) :=
  fun _ _ hd => ⟨h, fun _ => ⟨rfl, hd⟩⟩

/-- A helper followed by the check of its status. -/
theorem respects_check {m : DriverM Status} {failed : Status → α} {next : Status → DriverM α}
    (hm : Respects J S m) (hnext : ∀ st, Respects J S (next st)) :
    Respects J S (m >>= fun st =>
      if st ≠ amHalStatusSuccess then pure (failed st) else next st) :=
  respects_bind hm fun st => respects_ite (respects_pure _) (hnext st)

variable (H : HelpersRespect J S allowed)
include H

theorem respects_uninitByte : Respects J S uninitByte :=
  respects_bind (respects_call H.uninit) fun _ => respects_pure _

theorem respects_uninitBool : Respects J S uninitBool :=
  respects_bind (respects_uninitByte H) fun _ => respects_pure _

theorem respects_uninitBytes (len : Nat) : Respects J S (uninitBytes len) :=
  respects_bind (respects_call H.uninit) fun _ => respects_pure _

theorem respects_printf (text : String) : Respects J S (amUtilStdioPrintf text) :=
  respects_bind (respects_call (H.void _)) fun _ => respects_pure _

theorem respects_polling (hpoll : allowed statusRead) (programFail eraseFail : Bool)
    (status : Option UInt8) (n : Nat) :
    Respects J S (polling programFail eraseFail status n) := by
  induction n with
  | zero => exact respects_pure _
  | succ n ih =>
    apply respects_bind (H.getFeatures _ hpoll)
    intro poll
    apply respects_ite (respects_pure _)
    apply respects_ite (respects_pure _)
    exact respects_bind (respects_bind (respects_call (H.void _)) fun _ => respects_pure _)
      fun _ => ih

theorem respects_waitBusy (hpoll : allowed statusRead) (timeoutUs : UInt32)
    (programFail eraseFail : Bool) (status : Option UInt8) :
    Respects J S (nandWaitBusy timeoutUs programFail eraseFail status) := by
  rw [nandWaitBusy_eq_polling_limit]
  exact respects_polling H hpoll programFail eraseFail status _

/-- A wait followed by the check of its status. -/
theorem respects_wait_check (hpoll : allowed statusRead) {timeoutUs : UInt32}
    {programFail eraseFail : Bool} {status : Option UInt8} {failed : WaitResult → α}
    {next : WaitResult → DriverM α} (hnext : ∀ wait, Respects J S (next wait)) :
    Respects J S (nandWaitBusy timeoutUs programFail eraseFail status >>= fun wait =>
      if wait.ui32Status ≠ amHalStatusSuccess then pure (failed wait) else next wait) :=
  respects_bind (respects_waitBusy H hpoll _ _ _ _) fun wait =>
    respects_ite (respects_pure _) (hnext wait)

/-! ## The operations -/

theorem respects_eraseBlock (blockAddr : UInt16)
    (hop : ∀ c, (Operation.eraseBlock blockAddr).sends rowOf blockRow c → allowed c) :
    Respects J S (nandEraseBlock blockAddr) := by
  apply respects_bind (respects_uninitBool H)
  intro unused
  apply respects_bind (respects_uninitBool H)
  intro eraseErr
  apply respects_check (H.writeEnable (hop _ (.inl rfl)))
  intro _
  apply respects_check (H.blockErase _ (hop _ (.inr (.inl rfl))))
  intro _
  apply respects_wait_check H (hop _ (.inr (.inr rfl)))
  intro wait
  exact respects_ite (respects_pure _) (respects_pure _)

theorem respects_progPage (pageAddr : UInt32) (data : PageData)
    (hop : ∀ c, (Operation.progPage pageAddr data).sends rowOf blockRow c → allowed c) :
    Respects J S (nandProgPage pageAddr data) := by
  have henable := H.writeEnable (hop _ (.inl rfl))
  apply respects_bind (respects_uninitBool H)
  intro programFail
  apply respects_bind (respects_uninitBool H)
  intro eraseFail
  apply respects_check henable
  intro _
  apply respects_check (H.programLoad 0 _ _ data.length_bytes (hop _ (.inr (.inl rfl))))
  intro _
  apply respects_check henable
  intro _
  apply respects_check (H.programExecute _ (hop _ (.inr (.inr (.inl rfl)))))
  intro _
  apply respects_wait_check H (hop _ (.inr (.inr (.inr rfl))))
  intro wait
  exact respects_ite (respects_pure _) (respects_pure _)

theorem respects_readPage (pageAddr : UInt32) (offset : UInt16) (data : List UInt8) (len : UInt32)
    (eccFatal : Option Bool)
    (hop : ∀ c, ReadsPage (rowOf pageAddr) offset.toNat len.toNat c → allowed c) :
    Respects J S (nandReadPage pageAddr offset data len eccFatal) := by
  apply respects_bind (respects_uninitBool H)
  intro ignore1
  apply respects_bind (respects_uninitBool H)
  intro ignore2
  apply respects_bind (respects_uninitByte H)
  intro statusReg
  apply respects_check (H.pageRead _ (hop _ (.inl rfl)))
  intro _
  apply respects_wait_check H (hop _ (.inr (.inl rfl)))
  intro wait
  apply respects_ite (respects_pure _)
  apply respects_bind (H.readX1 _ _ _ (hop _ (.inr (.inr rfl))))
  intro read
  exact respects_ite (respects_pure _) (respects_pure _)

theorem respects_isFree (pageAddr : UInt32) (isFree : Option Bool)
    (hop : ∀ c, (Operation.isFree pageAddr isFree).sends rowOf blockRow c → allowed c) :
    Respects J S (nandIsFree pageAddr isFree) := by
  apply respects_bind (respects_uninitBytes H _)
  intro eccData
  have hread := respects_readPage H pageAddr eccAreaOffset eccData (UInt32.ofNat eccAreaLength)
    none hop
  apply respects_bind hread
  intro read
  exact respects_ite (respects_pure _) (respects_pure _)

theorem respects_copyPage (srcPageAddr destPageAddr : UInt32) (eccFatal : Option Bool)
    (hop : ∀ c, (Operation.copyPage srcPageAddr destPageAddr eccFatal).sends rowOf blockRow c →
      allowed c) :
    Respects J S (nandCopyPage srcPageAddr destPageAddr eccFatal) := by
  apply respects_bind (respects_uninitBool H)
  intro unused1
  apply respects_bind (respects_uninitBool H)
  intro unused2
  apply respects_bind (respects_uninitByte H)
  intro statusReg
  apply respects_check (H.pageRead _ (hop _ (.inl rfl)))
  intro _
  apply respects_wait_check H (hop _ (.inr (.inl rfl)))
  intro wait
  apply respects_ite (respects_pure _)
  apply respects_check (H.writeEnable (hop _ (.inr (.inr (.inl rfl)))))
  intro _
  apply respects_check (H.programLoadRandom 0 [] 0 rfl (hop _ (.inr (.inr (.inr (.inl rfl))))))
  intro _
  apply respects_check (H.programExecute _ (hop _ (.inr (.inr (.inr (.inr rfl))))))
  intro _
  exact respects_wait_check H (hop _ (.inr (.inl rfl))) fun wait => respects_pure _

theorem respects_readParamsPage (paramsPage : List UInt8) (len : UInt32)
    (hop : ∀ c, (Operation.readParamsPage paramsPage len).sends rowOf blockRow c → allowed c) :
    Respects J S (nandReadParamsPage paramsPage len) := by
  have hset : ∀ value, Respects J S (nandCmdSetFeatures featureRegConfig value) :=
    fun value => H.setFeatures _ value (hop _ (.inr (.inl ⟨value, rfl⟩)))
  apply respects_ite (respects_pure _)
  apply respects_bind (H.getFeatures _ (hop _ (.inl rfl)))
  intro config
  apply respects_ite (respects_pure _)
  apply respects_check (hset _)
  intro _
  apply respects_bind (respects_readPage H _ _ _ _ _ fun c hc => hop c (.inr (.inr hc)))
  intro read
  apply respects_ite (respects_pure _)
  exact respects_check (hset _) fun _ => respects_pure _

theorem respects_checkBadBlock (blockAddr : UInt32) (isBad : Bool)
    (hop : ∀ c, (Operation.checkBadBlock blockAddr isBad).sends rowOf blockRow c → allowed c) :
    Respects J S (nandCheckBadBlock blockAddr isBad) := by
  have hpage : blockToPageAddr blockAddr + badBlockPageOffset = blockToPageAddr blockAddr :=
    UInt32.add_zero _
  apply respects_bind (respects_uninitBytes H _)
  intro markers
  have hread := respects_readPage H (blockToPageAddr blockAddr) (UInt16.ofNat badBlockAreaOffset)
    markers (UInt32.ofNat badBlockAreaLength) none hop
  simp only [hpage]
  apply respects_bind hread
  intro read
  exact respects_ite (respects_pure _) (respects_pure _)

theorem respects_markBadBlockLoop (hpoll : allowed statusRead) (fuel : Nat) (busy : Bool) :
    Respects J S (nandMarkBadBlockLoop fuel busy) := by
  induction fuel generalizing busy with
  | zero => exact respects_stop _
  | succ fuel ih =>
    have hbusy : Respects J S (nandGetBusy busy) :=
      respects_bind (H.getFeatures _ hpoll) fun _ =>
        respects_ite (respects_pure _) (respects_pure _)
    apply respects_bind hbusy
    intro poll
    exact respects_ite (respects_pure _) (respects_ite (ih _) (respects_pure _))

theorem respects_markBadBlock (fuel : Nat) (blockAddr : UInt32)
    (hop : ∀ c, (Operation.markBadBlock blockAddr).sends rowOf blockRow c → allowed c) :
    Respects J S (nandMarkBadBlock fuel blockAddr) := by
  have hpoll := hop _ (.inr (.inl rfl))
  apply respects_bind (respects_uninitBool H)
  intro programFail
  apply respects_bind (respects_uninitBool H)
  intro eraseFail
  apply respects_check (H.pageRead _ (hop _ (.inl rfl)))
  intro _
  apply respects_check (respects_markBadBlockLoop H hpoll fuel false)
  intro _
  apply respects_check (H.writeEnable (hop _ (.inr (.inr (.inl rfl)))))
  intro _
  apply respects_check (H.programLoadRandom _ _ 1 rfl (hop _ (.inr (.inr (.inr (.inl rfl))))))
  intro _
  apply respects_check (H.programExecute _ (hop _ (.inr (.inr (.inr (.inr rfl))))))
  intro _
  apply respects_wait_check H hpoll
  intro wait
  exact respects_ite (respects_pure _) (respects_pure _)

/-- With `n` blocks left the loop is at block `numBlocks - n`. -/
theorem respects_printBadBlocksLoop
    (hop : ∀ c, Operation.printBadBlocks.sends rowOf blockRow c → allowed c) :
    ∀ (n : Nat) (i total : UInt32) (isBad : Bool) (st : Status), i.toNat + n = numBlocks →
      Respects J S (nandPrintBadBlocksLoop n i total isBad st)
  | 0, _, _, _, _, _ => respects_bind (respects_printf H _) fun _ => respects_pure _
  | n + 1, i, total, isBad, _, hi => by
    have hblock : i.toNat < numBlocks := by omega
    have hnext : (i + 1).toNat + n = numBlocks := by
      have hone : (i + 1).toNat = (i.toNat + 1) % 2 ^ 32 := UInt32.toNat_add i 1
      have hblocks : numBlocks = 2048 := rfl
      omega
    have hcheck := respects_checkBadBlock H i isBad fun c hc => hop c ⟨i, hblock, hc⟩
    apply respects_bind hcheck
    intro r
    apply respects_ite
    · exact respects_bind (respects_printf H _) fun _ => respects_pure _
    · apply respects_ite
      · apply respects_bind (respects_printf H _)
        intro _
        exact respects_printBadBlocksLoop hop n (i + 1) _ _ _ hnext
      · exact respects_printBadBlocksLoop hop n (i + 1) _ _ _ hnext

theorem respects_id (hop : allowed (.readId 3)) : Respects J S nandId := by
  apply respects_bind (respects_uninitBytes H _)
  intro buffer
  apply respects_bind (H.readId _ hop)
  intro read
  exact respects_ite (respects_pure _) (respects_pure _)

theorem respects_reset (hop : allowed .reset) : Respects J S nandReset := by
  apply respects_bind (H.reset hop)
  intro st
  apply respects_ite (respects_pure _)
  exact respects_bind (respects_bind (respects_call (H.void _)) fun _ => respects_pure _)
    fun _ => respects_pure _

/-- **Every operation but the initialisation is in lockstep** where its commands are allowed. -/
theorem respects_operation (fuel : Nat) (op : Operation) (hinit : op ≠ .init)
    (hop : ∀ c, op.sends rowOf blockRow c → allowed c) : Respects J S (op.run fuel) := by
  have hmap : ∀ {α : Type} {m : DriverM α} {f : α → OpResult}, Respects J S m →
      Respects J S (m >>= fun a => pure (f a)) :=
    fun hm => respects_bind hm fun _ => respects_pure _
  cases op with
  | init => exact absurd rfl hinit
  | id => exact hmap (respects_id H (hop _ rfl))
  | reset => exact hmap (respects_reset H (hop _ rfl))
  | readParamsPage paramsPage len => exact hmap (respects_readParamsPage H paramsPage len hop)
  | checkBadBlock blockAddr isBad => exact hmap (respects_checkBadBlock H blockAddr isBad hop)
  | markBadBlock blockAddr => exact hmap (respects_markBadBlock H fuel blockAddr hop)
  | eraseBlock blockAddr => exact hmap (respects_eraseBlock H blockAddr hop)
  | progPage pageAddr data => exact hmap (respects_progPage H pageAddr data hop)
  | isFree pageAddr isFree => exact hmap (respects_isFree H pageAddr isFree hop)
  | readPage pageAddr offset data len eccFatal =>
    exact hmap (respects_readPage H pageAddr offset data len eccFatal hop)
  | copyPage srcPageAddr destPageAddr eccFatal =>
    exact hmap (respects_copyPage H srcPageAddr destPageAddr eccFatal hop)
  | printBadBlocks =>
    have hprint : Respects J S nandPrintBadBlocks :=
      respects_bind (respects_uninitBool H) fun _ =>
        respects_bind (respects_printf H _) fun _ =>
          respects_printBadBlocksLoop H hop numBlocks 0 0 _ _ (Nat.zero_add _)
    exact hmap hprint

end Walk

end SpiNand
