import SpiNand.Chip.AnyWeather
import SpiNand.Bus.Answers

/-!
# Commands to a busy chip

PAGE_READ, PROGRAM_EXECUTE and BLOCK_ERASE keep the chip busy, and a busy chip ignores every
command except GET_FEATURES. `Busy` says of a history that such a command was sent and that no
status read has shown the chip ready since.

No operation looks at the chip before its first command. One that starts on a chip that is not
busy sends nothing to a busy chip (`run_finds_chip_ready`), and one that returns
`AM_HAL_STATUS_SUCCESS` leaves a chip that is not busy. An operation that ends in a failed wait
leaves the chip as it is, and the next one sends its command to it (`read_after_failed_wait`).
-/

namespace SpiNand

open Interaction Interaction.Prog

namespace NandCmd

/-- The commands that keep the chip busy. -/
def startsArrayOp : NandCmd → Bool
  | .pageRead _ | .programExecute _ | .blockErase _ => true
  | _ => false

def isGetFeatures : NandCmd → Bool
  | .getFeatures _ => true
  | _ => false

end NandCmd

/-- An array command was sent, and no status read has shown the chip ready since. -/
def Busy : Trace → Prop := SinceAny (Exchange.Sends (·.startsArrayOp)) Exchange.ShowsReady

theorem busy_append_singleton (tr : Trace) (x : Exchange) :
    Busy (tr ++ [x]) ↔ x.Sends (·.startsArrayOp) ∨ (Busy tr ∧ ¬ x.ShowsReady) := by
  unfold Busy SinceAny
  rw [since_append_singleton, true_and]

/-! ## The watcher

It counts nothing and remembers one bit. `started` is that bit at the start of the operation
that is watched: an operation that starts on a busy chip may send anything. -/

def nextBusy (busy : Bool) (c : NandCmd) (a : Answer) : Bool :=
  if c.startsArrayOp ∧ a.status = amHalStatusSuccess then true
  else if c = .getFeatures featureRegStatus ∧ a.status = amHalStatusSuccess ∧
    oip (a.bytes 0) = false then false
  else busy

/-- The watcher of one operation. -/
def readinessMonitor (started : Bool) : CmdMonitor Bool where
  step := nextBusy
  allows busy c := c.isGetFeatures = false → busy = true → started = true

/-- What the watcher remembers is whether the history says that the chip is busy. -/
theorem nextBusy_iff {busy : Bool} {tr : Trace} {x : Exchange} {c : NandCmd}
    (h : busy = true ↔ Busy tr) (hc : x.1.cmd = some c) :
    nextBusy busy c x.2 = true ↔ Busy (tr ++ [x]) := by
  have hsends := Exchange.sends_iff hc (·.startsArrayOp = true)
  have hstatus := Exchange.sends_iff hc (· = .getFeatures featureRegStatus)
  rw [busy_append_singleton, hsends, Exchange.ShowsReady, hstatus, ← h, nextBusy]
  split_ifs with hstarts hready
  · exact iff_of_true rfl (.inl hstarts)
  · obtain ⟨rfl, hok, hoip⟩ := hready
    simp [NandCmd.startsArrayOp, hok, hoip]
  · rw [and_assoc, or_iff_right hstarts, and_iff_left hready]

/-- One exchange. -/
theorem readiness_step {started busy : Bool} {tr : Trace} {x : Exchange}
    (h : busy = true ↔ Busy tr) :
    (readinessMonitor started).toMonitor.step busy x.1 x.2 = true ↔ Busy (tr ++ [x]) := by
  cases hc : x.1.cmd with
  | none =>
    -- calls that are no commands change nothing
    have hsends : ¬ x.Sends (·.startsArrayOp = true) := fun h => Exchange.not_issues hc _ h.1
    have hready : ¬ x.ShowsReady := fun h => Exchange.not_issues hc _ h.1.1
    rw [busy_append_singleton]
    simp only [CmdMonitor.toMonitor, hc, hsends, hready, not_false_eq_true, and_true, false_or, h]
  | some c =>
    have hstep : (readinessMonitor started).toMonitor.step busy x.1 x.2 = nextBusy busy c x.2 := by
      simp only [CmdMonitor.toMonitor, hc]
      rfl
    rw [hstep]
    exact nextBusy_iff h hc

/-- A whole operation, after a history. -/
theorem readiness_run {started : Bool} {history : Trace} (h : started = true ↔ Busy history)
    (tr : Trace) :
    (readinessMonitor started).toMonitor.run started tr = true ↔ Busy (history ++ tr) := by
  refine (readinessMonitor started).toMonitor.run_induction
    (J := fun tr busy => busy = true ↔ Busy (history ++ tr)) ?_ (fun tr busy x hbusy => ?_) tr
  · rwa [List.append_nil]
  · rw [← List.append_assoc]
    exact readiness_step hbusy

/-! ## The operations

`Ends` is what is claimed at the end of an operation. Inside, an operation that waits for its
own command goes on with a chip that is ready, whatever it was before. -/

section Operations

variable {started busy : Bool} {E : Halt → Bool → Prop}

/-- The handler of the watcher. -/
abbrev readinessHandler (started : Bool) : Handler Bool Call Answer :=
  (readinessMonitor started).toMonitor.handler

/-- An operation that succeeds leaves a chip that is not busy. -/
def Ends (st : Status) (busy : Bool) : Prop := st = amHalStatusSuccess → busy = false

theorem ends_of_failed (st : Status) (busy : Bool) (hst : st ≠ amHalStatusSuccess) :
    Ends st busy := fun hok => absurd hok hst

/-- A command that is not GET_FEATURES, at a moment when it may be sent. -/
theorem readiness_cmd {c : NandCmd} {R : Status → Bool → Prop} {K : Bool → Prop}
    (hallow : busy = true → started = true)
    (hR : ∀ st busy', st ≠ amHalStatusSuccess → R st busy')
    (hK : ∀ a : Answer, a.status = amHalStatusSuccess → K (nextBusy busy c a)) :
    Handler.cmd (readinessHandler started) c (Sent R K) busy := by
  apply (readinessMonitor started).cmd_monitor (fun _ => hallow)
  intro a
  exact ⟨fun hok => hK a hok, fun hfail => hR _ _ hfail⟩

/-- A command that does not keep the chip busy, sent to a ready chip. -/
theorem readiness_idle {c : NandCmd} {R : Status → Bool → Prop} {K : Bool → Prop}
    (hc : c.startsArrayOp = false)
    (hR : ∀ st busy', st ≠ amHalStatusSuccess → R st busy') (hK : K false) :
    Handler.cmd (readinessHandler started) c (Sent R K) false := by
  apply readiness_cmd (fun h => absurd h Bool.false_ne_true) hR
  intro a _
  have hnext : nextBusy false c a = false := by
    cases c <;> simp_all [nextBusy, NandCmd.startsArrayOp]
  rw [hnext]
  exact hK

/-- A status read that shows the chip ready. -/
theorem nextBusy_status {a : Answer} (ha : a.ShowsReady) (busy : Bool) :
    nextBusy busy (.getFeatures featureRegStatus) a = false := by
  obtain ⟨hok, hready⟩ := ha
  simp [nextBusy, NandCmd.startsArrayOp, hok, hready]

/-- Status reads may always be sent, and what goes on after them finds the chip ready. -/
theorem readiness_polled {R : Status → Bool → Prop} {K : UInt8 → Bool → Prop}
    (hR : ∀ st busy', st ≠ amHalStatusSuccess → R st busy') (hK : ∀ statusReg, K statusReg false) :
    (readinessMonitor started).Polled (fun _ => True) R K where
  allowed _ _ h := absurd h (by decide)
  failed _ _ _ hfail := hR _ _ hfail
  busy _ _ _ _ := trivial
  ready busy' a _ ha := by
    show K (a.bytes 0) (nextBusy busy' (.getFeatures featureRegStatus) a)
    rw [nextBusy_status ha]
    exact hK _

theorem readiness_polls {n : Nat} {R : Status → Bool → Prop} {K : UInt8 → Bool → Prop}
    (hR : ∀ st busy', st ≠ amHalStatusSuccess → R st busy') (hK : ∀ statusReg, K statusReg false) :
    Handler.polls (readinessHandler started) n (Waited R K) busy :=
  (readiness_polled hR hK).polls (fun _ _ => hR _ _ (by decide)) trivial n

theorem readiness_eraseBlock (blockAddr : UInt16) (hstart : busy = true → started = true) :
    wpS (readinessHandler started) E (nandEraseBlock blockAddr) Ends busy := by
  apply wpS_eraseBlock
  apply readiness_cmd hstart ends_of_failed
  intro a _
  apply readiness_cmd hstart ends_of_failed
  intro a _
  exact readiness_polls ends_of_failed fun _ _ => rfl

theorem readiness_progPage (pageAddr : UInt32) (data : PageData)
    (hstart : busy = true → started = true) :
    wpS (readinessHandler started) E (nandProgPage pageAddr data) Ends busy := by
  apply wpS_progPage
  apply readiness_cmd hstart ends_of_failed
  intro a _
  apply readiness_cmd hstart ends_of_failed
  intro a _
  apply readiness_cmd hstart ends_of_failed
  intro a _
  apply readiness_cmd hstart ends_of_failed
  intro a _
  exact readiness_polls ends_of_failed fun _ _ => rfl

theorem readiness_readPage (pageAddr : UInt32) (offset : UInt16) (data : List UInt8)
    (len : UInt32) (eccFatal : Option Bool) (hstart : busy = true → started = true) :
    wpS (readinessHandler started) E (nandReadPage pageAddr offset data len eccFatal)
      (fun read => Ends read.ui32Status) busy := by
  apply wpS_readPage
  apply readiness_cmd hstart ends_of_failed
  intro a _
  apply readiness_polls ends_of_failed
  intro _
  apply (readinessMonitor started).cmd_monitor (fun _ h => absurd h Bool.false_ne_true)
  exact fun _ _ => rfl

/-- Writing the cache back, on a ready chip. -/
theorem readiness_writeBack {row column n : Nat} {data : List UInt8} {R : Status → Bool → Prop}
    {K : UInt8 → Bool → Prop} (hR : ∀ st busy', st ≠ amHalStatusSuccess → R st busy')
    (hK : ∀ statusReg, K statusReg false) :
    Handler.cmd (readinessHandler started) .writeEnable (Sent R <|
      Handler.cmd (readinessHandler started) (.programLoadRandom column data) <| Sent R <|
      Handler.cmd (readinessHandler started) (.programExecute row) <| Sent R <|
      Handler.polls (readinessHandler started) n <| Waited R K) false := by
  apply readiness_idle rfl hR
  apply readiness_idle rfl hR
  apply readiness_cmd (fun h => absurd h Bool.false_ne_true) hR
  intro a _
  exact readiness_polls hR hK

theorem readiness_copyPage (srcPageAddr destPageAddr : UInt32) (eccFatal : Option Bool)
    (hstart : busy = true → started = true) :
    wpS (readinessHandler started) E (nandCopyPage srcPageAddr destPageAddr eccFatal)
      (fun r => Ends r.1) busy := by
  apply wpS_copyPage
  apply readiness_cmd hstart ends_of_failed
  intro a _
  apply readiness_polls ends_of_failed
  intro statusReg
  split
  · exact fun _ => rfl
  · exact readiness_writeBack ends_of_failed fun _ _ => rfl

theorem readiness_markBadBlock (fuel : Nat) (blockAddr : UInt32)
    (hstart : busy = true → started = true) :
    wpS (readinessHandler started) (fun _ _ => True) (nandMarkBadBlock fuel blockAddr)
      Ends busy := by
  apply wpS_markBadBlock
  apply readiness_cmd hstart ends_of_failed
  intro a _
  apply (readiness_polled ends_of_failed ?_).spins trivial
  intro _
  exact readiness_writeBack ends_of_failed fun _ _ => rfl

theorem readiness_checkBadBlock (blockAddr : UInt32) (isBad : Bool)
    (hstart : busy = true → started = true) :
    wpS (readinessHandler started) E (nandCheckBadBlock blockAddr isBad) (fun r => Ends r.1) busy :=
  wpS_checkBadBlock fun _ _ => readiness_readPage _ _ _ _ _ hstart

theorem readiness_readParamsPage (paramsPage : List UInt8) (len : UInt32)
    (hstart : busy = true → started = true) :
    wpS (readinessHandler started) E (nandReadParamsPage paramsPage len)
      (fun r => Ends r.1) busy := by
  have hinvalid : amHalStatusInvalidArg ≠ amHalStatusSuccess := by decide
  apply wpS_readParamsPage (fun _ => ends_of_failed _ _ hinvalid)
  intro _
  apply (readinessMonitor started).cmd_monitor (fun h => absurd h (by decide))
  intro a
  split
  · exact ends_of_failed _ _ ‹_›
  -- the configuration register says nothing about the chip being ready
  have hreg : featureRegConfig ≠ featureRegStatus := by decide
  have hsame : nextBusy busy (.getFeatures featureRegConfig) a = busy := by
    simp [nextBusy, NandCmd.startsArrayOp, hreg]
  show Handler.cmd (readinessHandler started) _ _ (nextBusy busy (.getFeatures featureRegConfig) a)
  rw [hsame]
  apply readiness_cmd hstart ends_of_failed
  intro _ _
  apply wpS_mono (readiness_readPage _ _ _ _ _ hstart)
  intro read busy' hread
  split
  · exact ends_of_failed _ _ ‹_›
  · obtain rfl := hread (not_ne_iff.mp ‹_›)
    apply (readinessMonitor started).cmd_monitor (fun _ h => absurd h Bool.false_ne_true)
    exact fun _ _ => rfl

/-- The operations that access a block or a page. -/
def Operation.accesses : Operation → Bool
  | .init | .id | .reset | .printBadBlocks => false
  | _ => true

theorem readiness_operation (fuel : Nat) (op : Operation) (hop : op.accesses = true)
    (started : Bool) :
    wpS (readinessHandler started) (fun _ _ => True) (op.run fuel)
      (fun r => Ends r.ui32Status) started := by
  cases op with
  | init => exact absurd hop Bool.false_ne_true
  | id => exact absurd hop Bool.false_ne_true
  | reset => exact absurd hop Bool.false_ne_true
  | printBadBlocks => exact absurd hop Bool.false_ne_true
  | readParamsPage paramsPage len => exact wpS_map (readiness_readParamsPage paramsPage len id)
  | checkBadBlock blockAddr isBad => exact wpS_map (readiness_checkBadBlock blockAddr isBad id)
  | markBadBlock blockAddr => exact wpS_map (readiness_markBadBlock fuel blockAddr id)
  | eraseBlock blockAddr => exact wpS_map (readiness_eraseBlock blockAddr id)
  | progPage pageAddr data => exact wpS_map (readiness_progPage pageAddr data id)
  | isFree pageAddr isFree =>
    apply wpS_map
    apply wpS_isFree
    intro _ _
    exact readiness_readPage _ _ _ _ _ id
  | readPage pageAddr offset data len eccFatal =>
    exact wpS_map (readiness_readPage pageAddr offset data len eccFatal id)
  | copyPage src dest eccFatal => exact wpS_map (readiness_copyPage src dest eccFatal id)

end Operations

/-! ## Runs -/

section Runs

variable {σ : Type} {env : Environment σ} {fuel : Nat}

/-- Where the watcher has to start after a history. -/
theorem exists_started (history : Trace) : ∃ started : Bool, started = true ↔ Busy history := by
  by_cases hbusy : Busy history
  · exact ⟨true, iff_of_true rfl hbusy⟩
  · exact ⟨false, iff_of_false Bool.false_ne_true hbusy⟩

/-- An operation after a history: started on a chip that is not busy, it sends nothing to a busy
chip, and if it succeeds the chip is not busy. -/
theorem step_finds_chip_ready (op : Operation) (hop : op.accesses = true) (d : Driver)
    (s : σ × (Nat → Answer)) (history : Trace) :
    (¬ Busy history → ∀ pre x suf, (op.step env fuel d s).trace = pre ++ x :: suf →
      x.Issues (·.isGetFeatures = false) → ¬ Busy (history ++ pre)) ∧
    (∀ r, (op.step env fuel d s).result = .ok r → r.ui32Status = amHalStatusSuccess →
      ¬ Busy (history ++ (op.step env fuel d s).trace)) := by
  obtain ⟨started, hstarted⟩ := exists_started history
  obtain ⟨hacc, hends⟩ := step_of_monitor (readiness_operation fuel op hop started) env d s
  constructor
  · rintro hready pre x suf heq ⟨c, hc, hcommand⟩ hbusy
    obtain ⟨-, hallow⟩ := (readinessMonitor started).accepts_at hacc heq
    have hknown := (readiness_run hstarted pre).mpr hbusy
    exact hready (hstarted.mp (hallow c hc hcommand hknown))
  · intro r hres hok hbusy
    rw [hres] at hends
    have hknown := (readiness_run hstarted (op.step env fuel d s).trace).mpr hbusy
    exact absurd (hends hok) (by simp [hknown])

end Runs

/-! ## The chip

On the chip itself `Busy` is right: when the history does not say that the chip is busy, it is
not. So the data of a successful read are those of the array. -/

section Chip

variable {fuel : Nat}

/-- The two ways not to be busy: the command just showed it, or did not change it. -/
theorem nextBusy_eq_false {busy : Bool} {c : NandCmd} {a : Answer}
    (h : nextBusy busy c a = false) :
    (c = .getFeatures featureRegStatus ∧ a.status = amHalStatusSuccess ∧
        oip (a.bytes 0) = false) ∨
      (busy = false ∧ ¬ (c.startsArrayOp = true ∧ a.status = amHalStatusSuccess)) := by
  rw [nextBusy] at h
  split_ifs at h with hstarts hready
  · exact .inl hready
  · exact .inr ⟨h, hstarts⟩

/-- Only the array commands start anything. -/
theorem Core.starts_eq_none (m : Core Unit) {c : NandCmd} (hc : ¬ c.startsArrayOp = true) :
    m.starts c = none := by
  cases c <;> simp_all [Core.starts, NandCmd.startsArrayOp]

/-- One transfer: a chip that is busy is known to be. -/
theorem transfer_busy {chip : Chip Unit} {busy : Bool} (h : busy = false → chip.busy = 0)
    (c : NandCmd) (hnext : nextBusy busy c (chip.transfer singleCache c).1 = false) :
    (chip.transfer singleCache c).2.busy = 0 := by
  have hstatus := Chip.transfer_status (g := singleCache) chip c
  by_cases hok : (chip.future 0).status = amHalStatusSuccess
  · rcases nextBusy_eq_false hnext with ⟨rfl, -, hoip⟩ | ⟨hbusy, hstarts⟩
    · rw [Chip.transfer_getFeatures hok] at hoip ⊢
      simp only [oip_statusByte, decide_eq_false_iff_not] at hoip
      show chip.busy - 1 = 0
      omega
    · have hready : chip.Ready chip.core := ⟨rfl, h hbusy⟩
      obtain ⟨-, -, hcount⟩ := hready.transfer (g := singleCache) (hstatus.trans hok)
      rw [hcount, Core.starts_eq_none _ fun hc => hstarts ⟨hc, hstatus.trans hok⟩]
      rfl
  · -- a transfer that failed did not reach the chip
    have hsame : (chip.transfer singleCache c).2.busy = chip.busy := by
      unfold Chip.transfer
      simp only [hok, ne_eq, not_false_eq_true, if_true]
    rw [hsame]
    rcases nextBusy_eq_false hnext with ⟨-, hok', -⟩ | ⟨hbusy, -⟩
    · exact absurd (hstatus.symm.trans hok') hok
    · exact h hbusy

/-- One call. -/
theorem env_busy {started busy : Bool} {chip : Chip Unit} (q : Call)
    (h : busy = false → chip.busy = 0)
    (hnext : (readinessMonitor started).toMonitor.step busy q (Chip.env singleCache chip q).1 =
      false) : (Chip.env singleCache chip q).2.busy = 0 := by
  cases q with
  | blockingTransfer t =>
    cases hc : t.decode with
    | none =>
      simp only [Chip.env, hc, CmdMonitor.toMonitor, Call.cmd] at hnext ⊢
      exact h hnext
    | some c =>
      simp only [Chip.env, hc, CmdMonitor.toMonitor, Call.cmd] at hnext ⊢
      exact transfer_busy h c hnext
  | setup c => exact h hnext
  | void v => exact h hnext
  | uninit => exact h hnext

/-- After an operation on the chip, the history still says it if the chip is busy. -/
theorem step_busy (op : Operation) (d : Driver) (s : Chip Unit × (Nat → Answer)) (history : Trace)
    (h : ¬ Busy history → s.1.busy = 0) :
    ¬ Busy (history ++ (op.step (Chip.env singleCache) fuel d s).trace) →
      (op.step (Chip.env singleCache) fuel d s).after.busy = 0 := by
  obtain ⟨started, hstarted⟩ := exists_started history
  -- the watcher starts with what the history says, and then follows the chip call by call
  have hfirst : started = false → s.1.busy = 0 := fun hf =>
    h fun hbusy => Bool.false_ne_true (hf.symm.trans (hstarted.mpr hbusy))
  have hlast := step_relates (M := readinessMonitor started) (J := fun busy chip =>
    busy = false → chip.busy = 0) (fun _ _ q hJ hnext => env_busy q hJ hnext) fuel op d hfirst
  intro hbusy
  apply hlast
  apply Bool.eq_false_iff.mpr
  intro hknown
  apply hbusy
  exact (readiness_run hstarted _).mp hknown

/-- A read that starts on a chip that is not busy and succeeds returns bytes of the array. -/
theorem step_reads_array (op : Operation) (d : Driver) (s : Chip Unit × (Nat → Answer))
    (hready : s.1.busy = 0) {pageAddr : UInt32} {offset : UInt16} {data : List UInt8}
    {len : UInt32} {eccFatal : Option Bool}
    (hop : op = .readPage pageAddr offset data len eccFatal) {r : OpResult}
    (hres : (op.step (Chip.env singleCache) fuel d s).result = .ok r)
    (hok : r.ui32Status = amHalStatusSuccess) :
    r.data = received len.toNat data ⟨amHalStatusSuccess,
      fun i => s.1.core.array (rowOf pageAddr) (offset.toNat + i)⟩ := by
  subst hop
  have hidle : s.1.Ready s.1.core := ⟨rfl, hready⟩
  have hwp : wpS (Chip.handler singleCache) (fun _ _ => True)
      ((Operation.readPage pageAddr offset data len eccFatal).run fuel)
      (fun r _ => r.ui32Status = amHalStatusSuccess → r.data = received len.toNat data
        ⟨amHalStatusSuccess, (s.1.core.execs singleCache (Chip.readCmds pageAddr)).stream
          singleCache offset.toNat⟩) s.1 :=
    wpS_map (Chip.success_readPage hidle pageAddr offset data len eccFatal)
  have hstep := step_of_wp _ hwp d s.2
  rw [hres] at hstep
  exact hstep hok

end Chip

/-! ## The result -/

/-- **The chip is ready when it is sent a command**, if it was when the operation started. For
every run of the operations that access a block or a page, whatever they are answered: an
operation that starts on a chip that is not busy sends only GET_FEATURES to a busy chip, and an
operation that succeeds, wherever it started, leaves a chip that is not busy. On the chip itself,
a read that starts so and succeeds returns the content of the array. -/
theorem run_finds_chip_ready (fuel : Nat) (ops : List Operation)
    (hops : ∀ op ∈ ops, op.accesses = true) (d : Driver) :
    (∀ (σ : Type) (env : Environment σ) (s : σ × (Nat → Answer)) (pre suf : List (Step σ))
      (st : Step σ), steps env fuel ops d s = pre ++ st :: suf →
      (¬ Busy (sent pre) → ∀ tr x rest, st.trace = tr ++ x :: rest →
        x.Issues (·.isGetFeatures = false) → ¬ Busy (sent pre ++ tr)) ∧
      (∀ r, st.result = .ok r → r.ui32Status = amHalStatusSuccess →
        ¬ Busy (sent pre ++ st.trace))) ∧
    (∀ (s : Chip Unit × (Nat → Answer)) (pre suf : List (Step (Chip Unit)))
      (st : Step (Chip Unit)), s.1.busy = 0 →
      steps (Chip.env singleCache) fuel ops d s = pre ++ st :: suf →
      ¬ Busy (sent pre) → ∀ pageAddr offset data len eccFatal r,
        st.op = .readPage pageAddr offset data len eccFatal → st.result = .ok r →
        r.ui32Status = amHalStatusSuccess → r.data = received len.toNat data
          ⟨amHalStatusSuccess,
            fun i => st.before.core.array (rowOf pageAddr) (offset.toNat + i)⟩) := by
  constructor
  · intro σ env s pre suf st heq
    refine steps_induction (fun op => op.accesses = true) (fun _ _ => True)
      (fun history st => (¬ Busy history → ∀ tr x rest, st.trace = tr ++ x :: rest →
        x.Issues (·.isGetFeatures = false) → ¬ Busy (history ++ tr)) ∧
        (∀ r, st.result = .ok r → r.ui32Status = amHalStatusSuccess →
          ¬ Busy (history ++ st.trace))) ?_ hops trivial heq
    intro op hop d s history _
    exact ⟨step_finds_chip_ready op hop d s history, fun _ _ => trivial⟩
  · intro s pre suf st hidle heq
    refine steps_induction (fun op => op.accesses = true)
      (fun history chip => ¬ Busy history → chip.busy = 0)
      (fun history st => ¬ Busy history → ∀ pageAddr offset data len eccFatal r,
        st.op = .readPage pageAddr offset data len eccFatal → st.result = .ok r →
        r.ui32Status = amHalStatusSuccess → r.data = received len.toNat data
          ⟨amHalStatusSuccess,
            fun i => st.before.core.array (rowOf pageAddr) (offset.toNat + i)⟩)
      ?_ hops (fun _ => hidle) heq
    intro op _ d s history hbusy
    refine ⟨?_, fun _ _ => step_busy op d s history hbusy⟩
    intro hready pageAddr offset data len eccFatal r hop hres hok
    exact step_reads_array op d s (hbusy hready) hop hres hok

/-- A chip that is busy for two status reads after every array command. -/
def twiceBusyChip : Chip Unit where
  core := ⟨fun _ _ => 0x12, fun _ _ => 0x34, false⟩
  busy := 0
  future _ := ⟨amHalStatusSuccess, fun _ => 0, 2, fun _ => 0⟩

/-- An erase of a block, and a read of its second page. -/
def eraseReadSteps : List (Step (Chip Unit)) :=
  steps (Chip.env singleCache) 0 [.eraseBlock 9, .readPage 577 7 [0, 0] 2 none] Driver.initial
    (twiceBusyChip, fun _ => .zero)

theorem eraseReadSteps_eq :
    ∃ first second, eraseReadSteps = [first] ++ second :: [] ∧
      first.result = .ok ⟨amHalStatusSuccess, [], none⟩ ∧
      second.op = .readPage 577 7 [0, 0] 2 none ∧
      ∃ data, second.result = .ok ⟨amHalStatusSuccess, data, none⟩ :=
  ⟨_, _, rfl, rfl, rfl, _, rfl⟩

theorem eraseReadSteps_erased :
    eraseReadSteps[1]?.map (fun st => (st.before.core.array 577 7, st.before.core.array 577 8)) =
      some (0xFF, 0xFF) := by
  decide +kernel

/-- The read finds the chip ready, sends its commands to a ready chip, leaves it ready and returns
what the erase has left. -/
theorem eraseRead_finds_chip_ready :
    ∃ first second, eraseReadSteps = [first] ++ second :: [] ∧ ¬ Busy (sent [first]) ∧
      (∀ tr x rest, second.trace = tr ++ x :: rest → x.Issues (·.isGetFeatures = false) →
        ¬ Busy (sent [first] ++ tr)) ∧
      ¬ Busy (sent [first] ++ second.trace) ∧
      ∃ r, second.result = .ok r ∧ r.data = [0xFF, 0xFF] := by
  obtain ⟨first, second, heq, hfirst, hop, data, hres⟩ := eraseReadSteps_eq
  obtain ⟨hany, hchip⟩ := run_finds_chip_ready 0 [.eraseBlock 9, .readPage 577 7 [0, 0] 2 none]
    (by simp [Operation.accesses]) Driver.initial
  have hready : ¬ Busy (sent [first]) := by
    have hdone := (hany (Chip Unit) (Chip.env singleCache) (twiceBusyChip, fun _ => .zero) []
      [second] first heq).2 ⟨amHalStatusSuccess, [], none⟩ hfirst rfl
    rw [sent_cons, sent_nil, List.append_nil]
    exact hdone
  obtain ⟨hsends, hleaves⟩ := hany (Chip Unit) (Chip.env singleCache)
    (twiceBusyChip, fun _ => .zero) [first] [] second heq
  have hdata := hchip (twiceBusyChip, fun _ => .zero) [first] [] second rfl heq hready 577 7
    [0, 0] 2 none ⟨amHalStatusSuccess, data, none⟩ hop hres rfl
  have herased := eraseReadSteps_erased
  rw [heq] at herased
  obtain ⟨hseven, height⟩ := Prod.mk.inj (Option.some.inj herased)
  refine ⟨first, second, heq, hready, hsends hready, hleaves _ hres rfl, _, hres, ?_⟩
  rw [hdata]
  show [second.before.core.array 577 7, second.before.core.array 577 8] = [0xFF, 0xFF]
  rw [hseven, height]

/-- Every answer is a success, but for the second: the status read after the first PAGE_READ. -/
def failedWait : Answers := fun n => if n = 1 then ⟨1, fun _ => 0⟩ else .zero

/-- A read is abandoned in its wait, and the next one sends its PAGE_READ to a busy chip. -/
theorem read_after_failed_wait :
    ∃ pre st suf, steps adversary.env 0
        [.readPage 0 0 [0] 1 none, .readPage 64 0 [0] 1 none] Driver.initial
        (((), failedWait), fun _ => .zero) = pre ++ st :: suf ∧
      ∃ tr x rest, st.trace = tr ++ x :: rest ∧ x.Issues (·.isGetFeatures = false) ∧
        Busy (sent pre ++ tr) := by
  refine ⟨[_], _, [], rfl, [_, _, _], _, _, rfl, ⟨_, rfl, rfl⟩, ?_⟩
  refine ⟨[_, _, _], _, [_, _, _, _], rfl, trivial, ⟨⟨_, rfl, rfl⟩, rfl⟩, fun x hx => ?_⟩
  simp only [List.mem_cons, List.not_mem_nil, or_false] at hx
  rcases hx with rfl | rfl | rfl | rfl
  · exact fun h => absurd h.1.2 (by decide)
  all_goals exact fun h => Exchange.not_issues rfl _ h.1.1

end SpiNand
