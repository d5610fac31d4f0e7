import SpiNand.Bus.Wire
import SpiNand.Driver.Flash
import SpiNand.Interaction.Logic

/-!
# Rules for the driver's operations

For a handler `H` of calls, `H.cmd c` is what may happen at a transfer that carries the command
`c`, whatever else the transfer looks like. Each rule below derives the weakest precondition of
a driver function from a condition in terms of `H.cmd` alone: the commands in the order in
which the function sends them, what it returns where one of them fails (`Sent`), and what its
wait ends in (`Handler.polls`). Nothing after this module unfolds a driver function; a monitor,
a chip or an adversary is verified against these conditions.

The functions read nothing of what is on the stack before writing it, so the rules hold for
every handler that leaves the stack alone (`Handler.IgnoresStack`).
-/

namespace SpiNand

open Interaction Interaction.Prog

variable {α σ : Type} {H : Handler σ Call Answer} {E : Halt → σ → Prop}

/-- What may happen at a transfer that carries the command `c`. -/
def Handler.cmd (H : Handler σ Call Answer) (c : NandCmd) (φ : Answer → σ → Prop) (s : σ) :
    Prop :=
  ∀ t : Transfer, t.decode = some c → H.pre s (.blockingTransfer t) φ

theorem Handler.cmd_mono {c : NandCmd} {φ ψ : Answer → σ → Prop} {s : σ}
    (h : Handler.cmd H c φ s) (hφ : ∀ a s', φ a s' → ψ a s') : Handler.cmd H c ψ s :=
  fun t ht => H.mono hφ (h t ht)

/-- Reading an uninitialised variable tells the handler nothing, and may give any value. -/
class Handler.IgnoresStack (H : Handler σ Call Answer) : Prop where
  uninit : ∀ {s : σ} {φ : Answer → σ → Prop}, (∀ a, φ a s) → H.pre s .uninit φ

/-- Nothing but a transfer matters to the handler: the other calls may answer anything. -/
class Handler.TransfersOnly (H : Handler σ Call Answer) : Prop extends
    Handler.IgnoresStack H where
  void : ∀ {s : σ} {v : Void} {φ : Answer → σ → Prop}, (∀ a, φ a s) → H.pre s (.void v) φ
  setup : ∀ {s : σ} {c : Setup} {φ : Answer → σ → Prop}, (∀ a, φ a s) → H.pre s (.setup c) φ

/-- The outcome of a transfer: on success go on with `K`, else end with the status in `R`. -/
def Sent (R : Status → σ → Prop) (K : σ → Prop) (a : Answer) (s : σ) : Prop :=
  (a.status = amHalStatusSuccess → K s) ∧ (a.status ≠ amHalStatusSuccess → R a.status s)

theorem Sent.mono {R R' : Status → σ → Prop} {K K' : σ → Prop} {a : Answer} {s : σ}
    (h : Sent R K a s) (hR : ∀ st s', R st s' → R' st s') (hK : ∀ s', K s' → K' s') :
    Sent R' K' a s :=
  ⟨fun hok => hK s (h.1 hok), fun hfail => hR _ s (h.2 hfail)⟩

/-! ## Checks of a status

`if (ui32Status != AM_HAL_STATUS_SUCCESS)`, where it is known which way it goes. -/

theorem wpS_if_success {failed next : DriverM α} {R : α → σ → Prop} {s : σ}
    (h : wpS H E next R s) :
    wpS H E (if amHalStatusSuccess ≠ amHalStatusSuccess then failed else next) R s :=
  wpS_ite (fun hne => absurd rfl hne) fun _ => h

theorem wpS_if_failed {st : Status} (hst : st ≠ amHalStatusSuccess) {failed next : DriverM α}
    {R : α → σ → Prop} {s : σ} (h : wpS H E failed R s) :
    wpS H E (if st ≠ amHalStatusSuccess then failed else next) R s :=
  wpS_ite (fun _ => h) fun hok => absurd hst hok

/-! ## The stack -/

section Stack

variable [Handler.IgnoresStack H]

/-- A variable declared without an initialiser holds anything. -/
theorem wpS_uninitBool {next : Bool → DriverM α} {R : α → σ → Prop} {s : σ}
    (h : ∀ b, wpS H E (next b) R s) : wpS H E (uninitBool >>= next) R s :=
  wpS_bind fun _ => Handler.IgnoresStack.uninit fun _ => h _

theorem wpS_uninitByte {next : UInt8 → DriverM α} {R : α → σ → Prop} {s : σ}
    (h : ∀ b, wpS H E (next b) R s) : wpS H E (uninitByte >>= next) R s :=
  wpS_bind fun _ => Handler.IgnoresStack.uninit fun _ => h _

theorem wpS_uninitBytes {len : Nat} {next : List UInt8 → DriverM α} {R : α → σ → Prop} {s : σ}
    (h : ∀ bytes, bytes.length = len → wpS H E (next bytes) R s) :
    wpS H E (uninitBytes len >>= next) R s :=
  wpS_bind fun _ => Handler.IgnoresStack.uninit fun _ => h _ (by simp)

end Stack

section Silent

variable [Handler.TransfersOnly H]

/-- A call that returns nothing changes nothing. -/
theorem wpS_void {v : Void} {next : Unit → DriverM α} {R : α → σ → Prop} {s : σ}
    (h : wpS H E (next ()) R s) : wpS H E (void v >>= next) R s :=
  wpS_bind fun _ => Handler.TransfersOnly.void fun _ => h

theorem wpS_printf {text : String} {next : Unit → DriverM α} {R : α → σ → Prop} {s : σ}
    (h : wpS H E (next ()) R s) : wpS H E (amUtilStdioPrintf text >>= next) R s :=
  wpS_bind fun _ => Handler.TransfersOnly.void fun _ => h

theorem wpS_delayMs {ms : UInt32} {next : Unit → DriverM α} {R : α → σ → Prop} {s : σ}
    (h : wpS H E (next ()) R s) : wpS H E (amUtilDelayMs ms >>= next) R s :=
  wpS_bind fun _ => Handler.TransfersOnly.void fun _ => h

theorem wpS_setup {c : Setup} {R : Status → σ → Prop} {s : σ} (h : ∀ st, R st s) :
    wpS H E (setup c) R s :=
  fun _ => Handler.TransfersOnly.setup fun a => h a.status

end Silent

/-! ## Commands

A helper *carries* a command if it is one transfer of that command and returns the HAL's
status. -/

/-- `m` sends the command `c` and returns the HAL's status. -/
def Carries (m : DriverM Status) (c : NandCmd) : Prop :=
  ∀ d, ∃ t d', m d = .ask (.blockingTransfer t) (fun a => .done (a.status, d')) ∧
    t.decode = some c

theorem carries_reset : Carries (amDeviceCommandWrite cmdReset false 0 [] 0) .reset :=
  fun d => ⟨_, _, amDeviceCommandWrite_apply _ _ _ _ _ d, decode_reset d⟩

theorem carries_setFeatures (reg value : UInt8) :
    Carries (nandCmdSetFeatures reg value) (.setFeatures reg value) :=
  fun d => ⟨_, _, nandCmdSetFeatures_apply reg value d, decode_setFeatures d reg value⟩

theorem carries_writeEnable : Carries nandCmdWriteEnable .writeEnable :=
  fun d => ⟨_, _, nandCmdWriteEnable_apply d, decode_writeEnable d⟩

theorem carries_pageRead (pageAddr : UInt32) :
    Carries (nandCmdPageRead pageAddr) (.pageRead (rowOf pageAddr)) :=
  fun d => ⟨_, _, nandCmdPageRead_apply pageAddr d, decode_pageRead d pageAddr⟩

theorem carries_programLoad (column : UInt16) (data : List UInt8) (len : UInt32) :
    Carries (nandCmdProgramLoadX1 column data len)
      (.programLoad column.toNat (data.take len.toNat)) :=
  fun d => ⟨_, _, nandCmdProgramLoadX1_apply column data len d,
    decode_programLoad d.noTurnaround column data len⟩

theorem carries_programLoadRandom (column : UInt16) (data : List UInt8) (len : UInt32) :
    Carries (nandCmdProgramLoadRandomX1 column data len)
      (.programLoadRandom column.toNat (data.take len.toNat)) :=
  fun d => ⟨_, _, nandCmdProgramLoadRandomX1_apply column data len d,
    decode_programLoadRandom d.noTurnaround column data len⟩

theorem carries_programExecute (pageAddr : UInt32) :
    Carries (nandCmdProgramExecute pageAddr) (.programExecute (rowOf pageAddr)) :=
  fun d => ⟨_, _, nandCmdProgramExecute_apply pageAddr d, decode_programExecute d pageAddr⟩

theorem carries_blockErase (pageAddr : UInt32) :
    Carries (nandCmdBlockErase pageAddr) (.blockErase (rowOf pageAddr)) :=
  fun d => ⟨_, _, nandCmdBlockErase_apply pageAddr d, decode_blockErase d pageAddr⟩

theorem Carries.run {m : DriverM Status} {c : NandCmd} (hm : Carries m c)
    {R : Status → σ → Prop} {s : σ} (h : Handler.cmd H c (fun a s' => R a.status s') s) :
    wpS H E m R s := by
  intro d
  obtain ⟨t, d', heq, ht⟩ := hm d
  rw [heq]
  exact h t ht

/-- A command followed by the check of its status, `if (ui32Status != SUCCESS) return …`. -/
theorem Carries.wpS_check {m : DriverM Status} {c : NandCmd} (hm : Carries m c)
    {failed : Status → α} {next : Status → DriverM α} {R : α → σ → Prop} {K : σ → Prop} {s : σ}
    (h : Handler.cmd H c (Sent (fun st => R (failed st)) K) s)
    (hnext : ∀ s', K s' → wpS H E (next amHalStatusSuccess) R s') :
    wpS H E (m >>= fun st => if st ≠ amHalStatusSuccess then pure (failed st) else next st)
      R s := by
  apply wpS_bind
  apply hm.run
  apply Handler.cmd_mono h
  intro a s' hsent
  apply wpS_ite (fun hfail => wpS_pure (hsent.2 hfail))
  intro hok
  rw [not_ne_iff.mp hok]
  exact hnext s' (hsent.1 (not_ne_iff.mp hok))

theorem wpS_getFeatures {reg : UInt8} {R : Status × UInt8 → σ → Prop} {s : σ}
    (h : Handler.cmd H (.getFeatures reg) (fun a s' => R (a.status, a.bytes 0) s') s) :
    wpS H E (nandCmdGetFeatures reg) R s := by
  intro d
  rw [nandCmdGetFeatures_apply]
  exact h _ (decode_getFeatures d reg)

theorem wpS_readX1 {column : UInt16} {data : List UInt8} {len : UInt32}
    {R : Status × List UInt8 → σ → Prop} {s : σ}
    (h : Handler.cmd H (.readCache column.toNat len.toNat)
      (fun a s' => R (a.status, received len.toNat data a) s') s) :
    wpS H E (nandCmdReadX1 column data len) R s := by
  intro d
  rw [nandCmdReadX1_apply]
  exact h _ (decode_readCache d column data len)

theorem wpS_readId {buffer : List UInt8} {R : Status × List UInt8 → σ → Prop} {s : σ}
    (h : Handler.cmd H (.readId 3) (fun a s' => R (a.status, received 3 buffer a) s') s) :
    wpS H E (amDeviceCommandRead cmdReadId false 0 buffer 3) R s := by
  intro d
  rw [amDeviceCommandRead_apply]
  exact h _ (decode_readId d buffer)

/-! ## The wait -/

/-- What a wait ends in: a status read that failed, one that found the chip ready, or none. -/
inductive WaitEnd
  | failed (st : Status) (h : st ≠ amHalStatusSuccess)
  | ready (statusReg : UInt8)
  | timeout

/-- What `nand_wait_busy` returns, by the way the wait ended. -/
def WaitEnd.result (programFail eraseFail : Bool) (status : Option UInt8) :
    WaitEnd → WaitResult
  | .failed st _ => ⟨st, programFail, eraseFail, status⟩
  | .ready statusReg =>
      ⟨amHalStatusSuccess, pFail statusReg, eFail statusReg, status.map fun _ => statusReg⟩
  | .timeout => ⟨amHalStatusTimeout, programFail, eraseFail, status⟩

/-- At most `n` status reads with a delay after each that finds the chip busy, then `K`. -/
def Handler.polls (H : Handler σ Call Answer) : Nat → (WaitEnd → σ → Prop) → σ → Prop
  | 0, K, s => K .timeout s
  | n + 1, K, s => Handler.cmd H (.getFeatures featureRegStatus) (fun a s' =>
      if h : a.status ≠ amHalStatusSuccess then K (.failed a.status h) s'
      else if oip (a.bytes 0) then
        H.pre s' (.void (.delayUs pollDelayUs)) fun _ s'' => Handler.polls H n K s''
      else K (.ready (a.bytes 0)) s') s

theorem wpS_polling {programFail eraseFail : Bool} {status : Option UInt8}
    {R : WaitResult → σ → Prop} :
    ∀ {n : Nat} {s : σ},
      Handler.polls H n (fun e s' => R (e.result programFail eraseFail status) s') s →
      wpS H E (polling programFail eraseFail status n) R s
  | 0, _, h => wpS_pure h
  | n + 1, _, h => by
    apply wpS_bind
    apply wpS_getFeatures
    apply Handler.cmd_mono h
    intro a s' ha
    simp only at ha ⊢
    refine wpS_ite (fun hfail => ?_) fun hok => wpS_ite (fun hready => ?_) fun hbusy => ?_
    · rw [dif_pos hfail] at ha
      exact wpS_pure ha
    · have hidle : ¬ oip (a.bytes 0) = true := by simpa using hready
      rw [dif_neg hok, if_neg hidle] at ha
      rw [not_ne_iff.mp hok]
      exact wpS_pure ha
    · -- still busy: the delay, and the polls that are left
      have hagain : oip (a.bytes 0) = true := by simpa using hbusy
      rw [dif_neg hok, if_pos hagain] at ha
      apply wpS_bind
      intro d
      rw [amUtilDelayUs_apply]
      exact H.mono (fun _ s'' h' => wpS_polling h') ha

theorem wpS_waitBusy {timeoutUs : UInt32} (ht : timeoutUs.toNat < 2 ^ 31)
    {programFail eraseFail : Bool} {status : Option UInt8} {R : WaitResult → σ → Prop} {s : σ}
    (h : Handler.polls H (pollBudget timeoutUs)
      (fun e s' => R (e.result programFail eraseFail status) s') s) :
    wpS H E (nandWaitBusy timeoutUs programFail eraseFail status) R s := by
  rw [nandWaitBusy_eq_polling ht]
  exact wpS_polling h

/-- **The rule for polling.** `J n` holds before a status read with `n` of them left: it leads
to the postcondition where the read ends the wait, and otherwise through the delay to `J` with
one read less. -/
theorem Handler.polls_of_inv (J : Nat → σ → Prop) {K : WaitEnd → σ → Prop}
    (hstep : ∀ n s, J (n + 1) s → Handler.cmd H (.getFeatures featureRegStatus) (fun a s' =>
      if h : a.status ≠ amHalStatusSuccess then K (.failed a.status h) s'
      else if oip (a.bytes 0) then
        H.pre s' (.void (.delayUs pollDelayUs)) fun _ s'' => J n s''
      else K (.ready (a.bytes 0)) s') s)
    (hzero : ∀ s, J 0 s → K .timeout s) :
    ∀ {n : Nat} {s : σ}, J n s → Handler.polls H n K s
  | 0, _, h => hzero _ h
  | n + 1, _, h => by
    apply Handler.cmd_mono (hstep n _ h)
    intro a s' ha
    split at ha
    · rw [dif_pos ‹_›]
      exact ha
    · rw [dif_neg ‹_›]
      split at ha
      · rw [if_pos ‹_›]
        exact H.mono (fun _ s'' h' => Handler.polls_of_inv J hstep hzero h') ha
      · rw [if_neg ‹_›]
        exact ha

theorem Handler.polls_mono {K K' : WaitEnd → σ → Prop} (hK : ∀ e s, K e s → K' e s) {n : Nat}
    {s : σ} (h : Handler.polls H n K s) : Handler.polls H n K' s := by
  refine Handler.polls_of_inv (fun n s => Handler.polls H n K s) (fun n s hs => ?_)
    (fun s hs => hK _ _ hs) h
  apply Handler.cmd_mono hs
  intro a s' ha
  split_ifs at ha ⊢
  · exact hK _ _ ha
  · exact ha
  · exact hK _ _ ha

/-- The outcome of a wait: with the status byte of a chip found ready go on with `K`, else end
with the status in `R`. -/
def Waited (R : Status → σ → Prop) (K : UInt8 → σ → Prop) : WaitEnd → σ → Prop
  | .failed st _, s => R st s
  | .ready statusReg, s => K statusReg s
  | .timeout, s => R amHalStatusTimeout s

/-- A wait followed by the check of its status. -/
theorem wpS_wait_check {timeoutUs : UInt32} (ht : timeoutUs.toNat < 2 ^ 31)
    {programFail eraseFail : Bool} {status : Option UInt8} {failed : Status → α}
    {next : WaitResult → DriverM α} {R : α → σ → Prop} {K : UInt8 → σ → Prop} {s : σ}
    (h : Handler.polls H (pollBudget timeoutUs) (Waited (fun st => R (failed st)) K) s)
    (hnext : ∀ statusReg s', K statusReg s' → wpS H E (next ((WaitEnd.ready statusReg).result
      programFail eraseFail status)) R s') :
    wpS H E (nandWaitBusy timeoutUs programFail eraseFail status >>= fun wait =>
      if wait.ui32Status ≠ amHalStatusSuccess then pure (failed wait.ui32Status)
      else next wait) R s := by
  refine wpS_bind (wpS_waitBusy ht (Handler.polls_mono (fun e s' he => ?_) h))
  cases e with
  | failed st hst => exact wpS_if_failed hst (wpS_pure he)
  | ready statusReg =>
    -- the status of a wait that ends ready is success
    exact wpS_if_success (hnext statusReg s' he)
  | timeout =>
    have htimeout : amHalStatusTimeout ≠ amHalStatusSuccess := by decide
    exact wpS_if_failed htimeout (wpS_pure he)

end SpiNand
