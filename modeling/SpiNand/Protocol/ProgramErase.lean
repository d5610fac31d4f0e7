import SpiNand.Bus.Runs
import SpiNand.Interaction.Past

/-!
# The program and erase protocol

The chip executes PROGRAM_EXECUTE and BLOCK_ERASE only with its write-enable latch set, and
PROGRAM_EXECUTE writes whatever its cache register holds. What a previous operation left in
either is unknown, since it may have been abandoned anywhere. So each operation must set the
latch and fill the cache itself, whatever the HAL and the chip answer.

`BusState` is what a watcher of one operation knows of the latch and the cache, and
`protocol_run` verifies every operation against it, from a state that knows nothing.
-/

namespace SpiNand

open Interaction Interaction.Prog

/-! ## The protocol, as formulas on the past of an operation -/

namespace NandCmd

/-- The commands that reset the write-enable latch. -/
def clearsLatch : NandCmd → Bool
  | .reset | .writeDisable | .programExecute _ | .blockErase _ => true
  | _ => false

/-- The commands that replace the whole cache register. -/
def fillsCache : NandCmd → Bool
  | .pageRead _ | .programLoad _ _ => true
  | _ => false

/-- PROGRAM_LOAD of a whole page. -/
def isPageLoad : NandCmd → Bool
  | .programLoad column data => column == 0 && data.length == pageSize
  | _ => false

def isPageRead : NandCmd → Bool
  | .pageRead _ => true
  | _ => false

def isProgramLoadRandom : NandCmd → Bool
  | .programLoadRandom _ _ => true
  | _ => false

def isProgramExecute : NandCmd → Bool
  | .programExecute _ => true
  | _ => false

def isBlockErase : NandCmd → Bool
  | .blockErase _ => true
  | _ => false

end NandCmd

/-- A successful WRITE_ENABLE, and since then nothing that resets the latch. -/
def WriteEnabled : Trace → Prop :=
  SinceAny (Exchange.Sends (· = .writeEnable)) (Exchange.Issues (·.clearsLatch))

/-- A successful PROGRAM_LOAD of a whole page, and the cache not filled again since. -/
def PageLoaded : Trace → Prop :=
  SinceAny (Exchange.Sends (·.isPageLoad)) (Exchange.Issues (·.fillsCache))

/-- A successful PAGE_READ, and the cache not filled again since. -/
def PageReadSent : Trace → Prop :=
  SinceAny (Exchange.Sends (·.isPageRead)) (Exchange.Issues (·.fillsCache))

/-- A successful PAGE_READ whose completion was observed. -/
def PageReadDone : Trace → Prop :=
  Since PageReadSent Exchange.ShowsReady (Exchange.Issues (·.fillsCache))

/-- A completed PAGE_READ, then a successful PROGRAM_LOAD_RANDOM. -/
def PagePatched : Trace → Prop :=
  Since PageReadDone (Exchange.Sends (·.isProgramLoadRandom)) (Exchange.Issues (·.fillsCache))

/-! ## The watcher -/

/-- What is known of the cache register. -/
inductive CacheState
  | unknown
  | loaded
  | reading
  | read
  | patched
  deriving DecidableEq

/-- What is known of the chip within one operation. -/
structure BusState where
  writeEnabled : Bool
  cache : CacheState

namespace BusState

/-- Nothing is known when an operation starts. -/
def start : BusState := ⟨false, .unknown⟩

/-- How the cache register is filled: by a command `c` answered by `a`. -/
def nextCache (cache : CacheState) (c : NandCmd) (a : Answer) : CacheState :=
  match c with
  | .pageRead _ => if a.status = amHalStatusSuccess then .reading else .unknown
  | .programLoad _ _ =>
    if a.status = amHalStatusSuccess ∧ c.isPageLoad then .loaded else .unknown
  | .programLoadRandom _ _ =>
    if a.status = amHalStatusSuccess ∧ cache = .read then .patched else cache
  | .getFeatures reg =>
    if cache = .reading ∧ a.status = amHalStatusSuccess ∧ reg = featureRegStatus ∧
        oip (a.bytes 0) = false then .read
    else cache
  | _ => cache

/-- The latch is set by a successful WRITE_ENABLE. -/
def nextLatch (enabled : Bool) (c : NandCmd) (a : Answer) : Bool :=
  if c = .writeEnable ∧ a.status = amHalStatusSuccess then true
  else enabled && !c.clearsLatch

/-- PROGRAM_EXECUTE and BLOCK_ERASE need the latch, PROGRAM_EXECUTE the cache too. -/
def allows (m : BusState) : NandCmd → Prop
  | .blockErase _ => m.writeEnabled = true
  | .programExecute _ => m.writeEnabled = true ∧ (m.cache = .loaded ∨ m.cache = .patched)
  | _ => True

end BusState

/-- The watcher of one operation. -/
def protocolMonitor : CmdMonitor BusState where
  step m c a := ⟨BusState.nextLatch m.writeEnabled c a, BusState.nextCache m.cache c a⟩
  allows := BusState.allows

/-! ## What the watcher knows is true -/

/-- The formula a state of the cache stands for. -/
def CacheState.Holds : CacheState → Trace → Prop
  | .unknown => fun _ => True
  | .loaded => PageLoaded
  | .reading => PageReadSent
  | .read => PageReadDone
  | .patched => PagePatched

/-- What the watcher takes for granted did happen. -/
def BusState.Knows (tr : Trace) (m : BusState) : Prop :=
  (m.writeEnabled = true → WriteEnabled tr) ∧ m.cache.Holds tr

/-- Only a command that fills the cache ends what is known of it. -/
theorem CacheState.Holds.step {cache : CacheState} {tr : Trace} {x : Exchange}
    (h : cache.Holds tr) (hx : ¬ x.Issues (·.fillsCache)) : cache.Holds (tr ++ [x]) := by
  cases cache with
  | unknown => trivial
  | loaded => exact Since.step h hx
  | reading => exact Since.step h hx
  | read => exact Since.step h hx
  | patched => exact Since.step h hx

theorem nextCache_holds {cache : CacheState} {tr : Trace} {x : Exchange} {c : NandCmd}
    (h : cache.Holds tr) (hc : x.1.cmd = some c) :
    (BusState.nextCache cache c x.2).Holds (tr ++ [x]) := by
  have hkeep : c.fillsCache = false → cache.Holds (tr ++ [x]) := fun hfill =>
    h.step (by simp [Exchange.issues_iff hc, hfill])
  cases c with
  | pageRead row =>
    rw [BusState.nextCache]
    split_ifs with hok
    · exact Since.now trivial ((Exchange.sends_iff hc _).mpr ⟨rfl, hok⟩)
    · trivial
  | programLoad column data =>
    rw [BusState.nextCache]
    split_ifs with hok
    · exact Since.now trivial ((Exchange.sends_iff hc _).mpr ⟨hok.2, hok.1⟩)
    · trivial
  | programLoadRandom column data =>
    rw [BusState.nextCache]
    split_ifs with hok
    · -- the cache held a page that was read, which the load has patched
      obtain ⟨hok, rfl⟩ := hok
      exact Since.now h ((Exchange.sends_iff hc _).mpr ⟨rfl, hok⟩)
    · exact hkeep rfl
  | getFeatures reg =>
    rw [BusState.nextCache]
    split_ifs with hok
    · -- the read in progress is seen to be complete
      obtain ⟨rfl, hok, rfl, hready⟩ := hok
      exact Since.now h ⟨(Exchange.sends_iff hc _).mpr ⟨rfl, hok⟩, hready⟩
    · exact hkeep rfl
  | _ => exact hkeep rfl

theorem nextLatch_enabled {enabled : Bool} {tr : Trace} {x : Exchange} {c : NandCmd}
    (h : enabled = true → WriteEnabled tr) (hc : x.1.cmd = some c)
    (hnext : BusState.nextLatch enabled c x.2 = true) : WriteEnabled (tr ++ [x]) := by
  unfold BusState.nextLatch at hnext
  split_ifs at hnext with hok
  · exact Since.now trivial ((Exchange.sends_iff hc _).mpr hok)
  · rw [Bool.and_eq_true, Bool.not_eq_true'] at hnext
    exact Since.step (h hnext.1) (by simp [Exchange.issues_iff hc, hnext.2])

/-- One exchange. -/
theorem BusState.Knows.step {tr : Trace} {m : BusState} {x : Exchange} (h : m.Knows tr) :
    (protocolMonitor.toMonitor.step m x.1 x.2).Knows (tr ++ [x]) := by
  cases hc : x.1.cmd with
  | none =>
    -- not a command: it neither makes a formula true nor ends one
    simp only [CmdMonitor.toMonitor, hc]
    exact ⟨fun hen => Since.step (h.1 hen) (Exchange.not_issues hc _),
      h.2.step (Exchange.not_issues hc _)⟩
  | some c =>
    simp only [CmdMonitor.toMonitor, hc]
    exact ⟨nextLatch_enabled h.1 hc, nextCache_holds h.2 hc⟩

/-- A whole history. -/
theorem knows_run (tr : Trace) :
    (protocolMonitor.toMonitor.run BusState.start tr).Knows tr :=
  have hstart : BusState.start.Knows [] := ⟨fun h => absurd h Bool.false_ne_true, trivial⟩
  protocolMonitor.toMonitor.run_induction hstart (fun _ _ _ h => h.step) tr

/-! ## Every operation keeps the protocol -/

section Operations

/-- The handler of the watcher. -/
abbrev protocolHandler : Handler BusState Call Answer := protocolMonitor.toMonitor.handler

variable {E : Halt → BusState → Prop}

/-- A command that is allowed, in an operation of which nothing else is claimed. -/
theorem protocol_cmd {c : NandCmd} {K : BusState → Prop} {m : BusState} (hc : m.allows c)
    (h : ∀ a : Answer, a.status = amHalStatusSuccess → K (protocolMonitor.step m c a)) :
    Handler.cmd protocolHandler c (Sent (fun _ _ => True) K) m :=
  protocolMonitor.cmd_monitor hc fun a => ⟨h a, fun _ => trivial⟩

theorem protocol_writeEnable {K : BusState → Prop} {m : BusState} (h : K ⟨true, m.cache⟩) :
    Handler.cmd protocolHandler .writeEnable (Sent (fun _ _ => True) K) m := by
  refine protocol_cmd trivial fun a hok => ?_
  have hstep : protocolMonitor.step m .writeEnable a = ⟨true, m.cache⟩ := by
    simp [protocolMonitor, BusState.nextLatch, BusState.nextCache, hok]
  rw [hstep]
  exact h

theorem protocol_pageLoad {data : PageData} {K : BusState → Prop} {m : BusState}
    (h : K ⟨m.writeEnabled, .loaded⟩) :
    Handler.cmd protocolHandler (.programLoad 0 data.bytes) (Sent (fun _ _ => True) K) m := by
  refine protocol_cmd trivial fun a hok => ?_
  have hpage : NandCmd.isPageLoad (.programLoad 0 data.bytes) = true := by
    simp [NandCmd.isPageLoad, data.length_bytes]
  have hstep : protocolMonitor.step m (.programLoad 0 data.bytes) a =
      ⟨m.writeEnabled, .loaded⟩ := by
    simp [protocolMonitor, BusState.nextLatch, NandCmd.clearsLatch, BusState.nextCache, hpage, hok]
  rw [hstep]
  exact h

theorem protocol_pageRead {row : Nat} {K : BusState → Prop} {m : BusState}
    (h : K ⟨m.writeEnabled, .reading⟩) :
    Handler.cmd protocolHandler (.pageRead row) (Sent (fun _ _ => True) K) m := by
  refine protocol_cmd trivial fun a hok => ?_
  have hstep : protocolMonitor.step m (.pageRead row) a = ⟨m.writeEnabled, .reading⟩ := by
    simp [protocolMonitor, BusState.nextLatch, NandCmd.clearsLatch, BusState.nextCache, hok]
  rw [hstep]
  exact h

theorem protocol_loadRandom {column : Nat} {data : List UInt8} {K : BusState → Prop}
    {enabled : Bool} (h : K ⟨enabled, .patched⟩) :
    Handler.cmd protocolHandler (.programLoadRandom column data) (Sent (fun _ _ => True) K)
      ⟨enabled, .read⟩ := by
  refine protocol_cmd trivial fun a hok => ?_
  have hstep : protocolMonitor.step ⟨enabled, .read⟩ (.programLoadRandom column data) a =
      ⟨enabled, .patched⟩ := by
    simp [protocolMonitor, BusState.nextLatch, NandCmd.clearsLatch, BusState.nextCache, hok]
  rw [hstep]
  exact h

/-- The state after the completion of a read was observed. -/
def BusState.observed (m : BusState) : BusState :=
  { m with cache := if m.cache = .reading then .read else m.cache }

/-- A status read that does not show the chip ready tells the watcher nothing. -/
theorem status_unready {m : BusState} {a : Answer} (h : ¬ a.ShowsReady) :
    protocolMonitor.step m (.getFeatures featureRegStatus) a = m := by
  have hcache : BusState.nextCache m.cache (.getFeatures featureRegStatus) a = m.cache :=
    if_neg fun h' => h ⟨h'.2.1, h'.2.2.2⟩
  simp [protocolMonitor, BusState.nextLatch, NandCmd.clearsLatch, hcache]

theorem status_ready {m : BusState} {a : Answer} (h : a.ShowsReady) :
    protocolMonitor.step m (.getFeatures featureRegStatus) a = m.observed := by
  obtain ⟨hok, hready⟩ := h
  simp [protocolMonitor, BusState.nextLatch, NandCmd.clearsLatch, BusState.nextCache,
    BusState.observed, hok, hready]

/-- Status reads until one shows the chip ready. -/
theorem protocol_polled {K : UInt8 → BusState → Prop} {m : BusState}
    (h : ∀ statusReg, K statusReg m.observed) :
    protocolMonitor.Polled (fun m' => m' = m) (fun _ _ => True) K where
  allowed _ _ := trivial
  failed _ _ _ _ := trivial
  busy m' a hm ha := by
    rw [status_unready ha.not_showsReady]
    exact hm
  ready m' a hm ha := by
    rw [status_ready ha, hm]
    exact h _

theorem protocol_polls {K : UInt8 → BusState → Prop} {m : BusState} {n : Nat}
    (h : ∀ statusReg, K statusReg m.observed) :
    Handler.polls protocolHandler n (Waited (fun _ _ => True) K) m :=
  (protocol_polled h).polls (fun _ _ => trivial) rfl n

theorem protocol_eraseBlock (blockAddr : UInt16) (m : BusState) :
    wpS protocolHandler E (nandEraseBlock blockAddr) (fun _ _ => True) m := by
  apply wpS_eraseBlock
  apply protocol_writeEnable
  exact protocol_cmd rfl fun _ _ => protocol_polls fun _ => trivial

theorem protocol_progPage (pageAddr : UInt32) (data : PageData) (m : BusState) :
    wpS protocolHandler E (nandProgPage pageAddr data) (fun _ _ => True) m := by
  apply wpS_progPage
  apply protocol_writeEnable
  apply protocol_pageLoad
  apply protocol_writeEnable
  exact protocol_cmd ⟨rfl, .inl rfl⟩ fun _ _ => protocol_polls fun _ => trivial

theorem protocol_readPage (pageAddr : UInt32) (offset : UInt16) (data : List UInt8) (len : UInt32)
    (eccFatal : Option Bool) (m : BusState) :
    wpS protocolHandler E (nandReadPage pageAddr offset data len eccFatal)
      (fun _ _ => True) m := by
  apply wpS_readPage
  apply protocol_pageRead
  apply protocol_polls
  intro _
  exact protocolMonitor.cmd_monitor trivial fun _ => trivial

/-- What follows a completed PAGE_READ in the operations that write the cache back. -/
theorem protocol_writeBack {row column : Nat} {data : List UInt8} {n : Nat} {enabled : Bool} :
    Handler.cmd protocolHandler .writeEnable (Sent (fun _ _ => True) <|
      Handler.cmd protocolHandler (.programLoadRandom column data) <| Sent (fun _ _ => True) <|
      Handler.cmd protocolHandler (.programExecute row) <| Sent (fun _ _ => True) <|
      Handler.polls protocolHandler n <| Waited (fun _ _ => True) fun _ _ => True)
      ⟨enabled, .read⟩ := by
  apply protocol_writeEnable
  apply protocol_loadRandom
  exact protocol_cmd ⟨rfl, .inr rfl⟩ fun _ _ => protocol_polls fun _ => trivial

theorem protocol_copyPage (srcPageAddr destPageAddr : UInt32) (eccFatal : Option Bool)
    (m : BusState) :
    wpS protocolHandler E (nandCopyPage srcPageAddr destPageAddr eccFatal)
      (fun _ _ => True) m := by
  apply wpS_copyPage
  apply protocol_pageRead
  apply protocol_polls
  intro statusReg
  split
  · trivial
  · exact protocol_writeBack

theorem protocol_markBadBlock (fuel : Nat) (blockAddr : UInt32) (m : BusState) :
    wpS protocolHandler (fun _ _ => True) (nandMarkBadBlock fuel blockAddr)
      (fun _ _ => True) m := by
  apply wpS_markBadBlock
  apply protocol_pageRead
  exact (protocol_polled fun _ => protocol_writeBack).spins rfl fuel

theorem protocol_checkBadBlock (blockAddr : UInt32) (isBad : Bool) (m : BusState) :
    wpS protocolHandler E (nandCheckBadBlock blockAddr isBad) (fun _ _ => True) m :=
  wpS_checkBadBlock fun _ _ => protocol_readPage _ _ _ _ _ m

theorem protocol_readParamsPage (paramsPage : List UInt8) (len : UInt32) (m : BusState) :
    wpS protocolHandler E (nandReadParamsPage paramsPage len) (fun _ _ => True) m := by
  apply wpS_readParamsPage (fun _ => trivial)
  intro _
  refine protocolMonitor.cmd_monitor trivial fun a => ?_
  split
  · trivial
  refine protocol_cmd trivial fun _ _ => ?_
  apply wpS_mono (protocol_readPage _ _ _ _ _ _)
  intro read m' _
  split
  · trivial
  exact protocolMonitor.cmd_monitor trivial fun _ => trivial

theorem protocol_printBadBlocks (m : BusState) :
    wpS protocolHandler E nandPrintBadBlocks (fun _ _ => True) m := by
  refine wpS_printBadBlocks (fun _ _ => True) (fun _ i isBad m' _ => ?_) (fun _ _ _ => trivial)
    trivial
  apply wpS_mono (protocol_checkBadBlock i isBad m')
  intro r _ _
  split <;> trivial

/-- Every operation, whatever was known before. -/
theorem protocol_run (fuel : Nat) (op : Operation) (m : BusState) :
    wpS protocolHandler (fun _ _ => True) (op.run fuel) (fun _ _ => True) m := by
  cases op with
  | init =>
    refine wpS_map (wpS_init (fun _ => trivial) (protocolMonitor.cmd_monitor trivial fun _ => ?_))
    exact ⟨fun _ => trivial, protocolMonitor.cmd_monitor trivial fun _ _ => trivial⟩
  | id => exact wpS_map (wpS_id (protocolMonitor.cmd_monitor trivial fun _ _ => trivial))
  | reset => exact wpS_map (wpS_reset (protocolMonitor.cmd_monitor trivial fun _ _ => trivial))
  | readParamsPage paramsPage len => exact wpS_map (protocol_readParamsPage paramsPage len m)
  | checkBadBlock blockAddr isBad => exact wpS_map (protocol_checkBadBlock blockAddr isBad m)
  | markBadBlock blockAddr => exact wpS_map (protocol_markBadBlock fuel blockAddr m)
  | eraseBlock blockAddr => exact wpS_map (protocol_eraseBlock blockAddr m)
  | progPage pageAddr data => exact wpS_map (protocol_progPage pageAddr data m)
  | isFree pageAddr isFree =>
    apply wpS_map
    apply wpS_isFree
    intro _ _
    exact protocol_readPage _ _ _ _ _ m
  | readPage pageAddr offset data len eccFatal =>
    exact wpS_map (protocol_readPage pageAddr offset data len eccFatal m)
  | copyPage src dest eccFatal => exact wpS_map (protocol_copyPage src dest eccFatal m)
  | printBadBlocks => exact wpS_map (protocol_printBadBlocks m)

end Operations

/-- **The program and erase protocol.** In every run, whatever the HAL and the chip answer:
every transfer is a command of the flash, BLOCK_ERASE and PROGRAM_EXECUTE come after a
successful WRITE_ENABLE of the same operation with nothing between that resets the latch, and
PROGRAM_EXECUTE finds the cache filled by the same operation. -/
theorem run_keeps_program_erase_protocol {σ : Type} (env : Environment σ) (fuel : Nat)
    (ops : List Operation) (d : Driver) (s : σ × (Nat → Answer)) :
    ∀ st ∈ steps env fuel ops d s, ∀ (pre : Trace) (x : Exchange) (suf : Trace),
      st.trace = pre ++ x :: suf →
        x.WellFormed ∧
        (x.Issues (fun c => c.isBlockErase ∨ c.isProgramExecute) → WriteEnabled pre) ∧
        (x.Issues (·.isProgramExecute) → PageLoaded pre ∨ PagePatched pre) := by
  intro st hst pre x suf htrace
  -- the watcher starts anew with every operation, knowing nothing
  have hacc := steps_accepts (fun _ => True) (fun op _ => protocol_run fuel op BusState.start)
    (fun _ _ => trivial) st hst
  obtain ⟨hwf, hallow⟩ := protocolMonitor.accepts_at hacc htrace
  obtain ⟨hlatch, hcache⟩ := knows_run pre
  refine ⟨hwf, ?_, ?_⟩
  · rintro ⟨c, hc, hp⟩
    have hc := hallow c hc
    cases c with
    | blockErase row => exact hlatch hc
    | programExecute row => exact hlatch hc.1
    | _ => simp [NandCmd.isBlockErase, NandCmd.isProgramExecute] at hp
  · rintro ⟨c, hc, hp⟩
    have hc := hallow c hc
    cases c with
    | programExecute row =>
      rcases hc.2 with hloaded | hpatched
      · rw [hloaded] at hcache
        exact .inl hcache
      · rw [hpatched] at hcache
        exact .inr hcache
    | _ => simp [NandCmd.isProgramExecute] at hp

/-- The erase of one block, with a chip that is always ready. -/
theorem eraseBlock_zero_enabled :
    WriteEnabled (((Operation.eraseBlock 0).step alwaysReady 0 Driver.initial
      ((), fun _ => .zero)).trace.take 3) :=
  (run_keeps_program_erase_protocol alwaysReady 0 [.eraseBlock 0] Driver.initial
    ((), fun _ => .zero) _ List.mem_cons_self [_, _, _] _ _ rfl).2.1 ⟨_, rfl, .inl rfl⟩

end SpiNand
