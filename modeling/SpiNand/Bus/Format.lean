import SpiNand.Bus.Answers
import SpiNand.Bus.Lockstep

/-!
# The format of every transfer

`Transfer.wire` is what a transfer looks like on the bus: opcode, address bytes, direction, length
and data, and the flags for turnaround and for four lanes. `NandCmd.wire` is what the command
set prescribes. Every transfer of every run has the format of a command of its operation, and
nothing in it depends on what the driver's globals held before (`wire_format`).
-/

namespace SpiNand

open Interaction Interaction.Prog

/-! ## Formats -/

/-- A transfer as the chip sees it. -/
structure Wire where
  sendInstr : Bool
  opcode : UInt16
  address : List UInt8
  direction : AmHalMspiDir
  numBytes : Nat
  data : List UInt8
  turnaround : Bool
  quad : Bool

/-- What the HAL puts on the wire for a transfer. -/
def Transfer.wire (t : Transfer) : Wire where
  sendInstr := t.pio.bSendInstr
  opcode := t.pio.ui16DeviceInstr
  address := t.addrBytes
  direction := t.pio.eDirection
  numBytes := t.pio.ui32NumBytes.toNat
  data := t.dataBytes
  turnaround := t.pio.bTurnaround
  quad := t.pio.bQuadCmd

namespace Wire

/-- An opcode with address and data to the chip. -/
def send (op : UInt8) (address data : List UInt8) : Wire where
  sendInstr := true
  opcode := op.toUInt16
  address := address
  direction := .tx
  numBytes := data.length
  data := data
  turnaround := false
  quad := false

/-- An opcode with an address, and so many bytes from the chip. -/
def receive (op : UInt8) (address : List UInt8) (numBytes : Nat) : Wire where
  sendInstr := true
  opcode := op.toUInt16
  address := address
  direction := .rx
  numBytes := numBytes
  data := []
  turnaround := false
  quad := false

end Wire

/-- The format of a command: rows are three bytes, columns two, most significant byte first, and
the column of a read is followed by a dummy byte. -/
def NandCmd.wire : NandCmd → Wire
  | .reset => .send cmdReset [] []
  | .writeEnable => .send cmdWriteEnable [] []
  | .writeDisable => .send cmdWriteDisable [] []
  | .readId len => .receive cmdReadId [] len
  | .pageRead row => .send cmdPageRead (beBytes 3 row) []
  | .readCache column len => .receive cmdReadCacheSingle (beBytes 2 column ++ [0]) len
  | .programLoad column data => .send cmdProgramLoad (beBytes 2 column) data
  | .programLoadRandom column data => .send cmdProgramLoadRandom (beBytes 2 column) data
  | .programExecute row => .send cmdProgramExecute (beBytes 3 row) []
  | .blockErase row => .send cmdBlockErase (beBytes 3 row) []
  | .getFeatures reg => .receive cmdGetFeatures [reg] 1
  | .setFeatures reg value => .send cmdSetFeatures [reg] [value]

/-! ## The transfers of the helpers -/

section Transfers

variable (d : Driver)

theorem wire_bare (op : UInt8) :
    (d.starts (writeTransaction op false 0 [] 0) d.cfg.asize).wire = .send op [] [] := rfl

theorem wire_readId (buffer : List UInt8) :
    (d.starts (readTransaction cmdReadId false 0 buffer 3) d.cfg.asize).wire =
      (NandCmd.readId 3).wire := rfl

/-- Three bytes of a page address are those of its row. -/
theorem wire_row (op : UInt8) (pageAddr : UInt32) :
    (d.starts (writeTransaction op true pageAddr [] 0) 2).wire =
      .send op (beBytes 3 (rowOf pageAddr)) [] := by
  have hrow : beBytes 3 pageAddr.toNat = beBytes 3 (rowOf pageAddr) :=
    (beBytes_mod (k := 3) (le_refl 3) pageAddr.toNat).symm
  exact congrArg (Wire.send op · []) hrow

/-- All the data is sent, its length being the number of bytes. -/
theorem wire_column (op : UInt8) (column : UInt16) {data : List UInt8} {len : UInt32}
    (hlen : data.length = len.toNat) :
    (d.starts (writeTransaction op true column.toUInt32 data len) 1).wire =
      .send op (beBytes 2 column.toNat) data := by
  have hdata : data.take len.toNat = data := by rw [← hlen, List.take_length]
  have hcolumn : column.toUInt32.toNat = column.toNat := UInt16.toNat_toUInt32 column
  show Wire.mk true op.toUInt16 (beBytes 2 column.toUInt32.toNat) .tx len.toNat
    (data.take len.toNat) false false = _
  rw [hdata, hcolumn, ← hlen]
  rfl

/-- The column shifted left by one byte is its two bytes and a zero byte. -/
theorem wire_columnDummy (column : UInt16) (data : List UInt8) (len : UInt32) :
    (d.starts (readTransaction cmdReadCacheSingle true (column.toUInt32 <<< 8) data len) 2).wire =
      (NandCmd.readCache column.toNat len.toNat).wire := by
  have haddr : beBytes 3 (column.toUInt32 <<< 8).toNat = beBytes 2 column.toNat ++ [0] := by
    rw [toNat_columnDummy, beBytes_mul_base]
  exact congrArg (Wire.receive cmdReadCacheSingle · len.toNat) haddr

theorem wire_getFeatures (reg : UInt8) :
    (d.starts (getFeaturesTransaction reg) 0).wire = (NandCmd.getFeatures reg).wire := by
  have hreg : UInt8.ofNat (reg.toUInt32.toNat / 256 ^ 0) = reg := by simp
  exact congrArg (fun r => Wire.receive cmdGetFeatures [r] 1) hreg

theorem wire_setFeatures (reg value : UInt8) :
    (d.starts (setFeaturesTransaction reg value) 0).wire =
      (NandCmd.setFeatures reg value).wire := by
  have hreg : UInt8.ofNat (reg.toUInt32.toNat / 256 ^ 0) = reg := by simp
  exact congrArg (fun r => Wire.send cmdSetFeatures [r] [value]) hreg

end Transfers

/-! ## Formats in lockstep -/

/-- A transfer has the format of a command that is allowed; nothing is said of other calls. -/
def Call.HasFormat (allowed : NandCmd → Prop) : Call → Prop
  | .blockingTransfer t => ∃ c, allowed c ∧ t.wire = c.wire
  | _ => True

/-- Two calls that look the same: two transfers in one format, or one call. -/
def SameFormat (allowed : NandCmd → Prop) : Call → Call → Prop
  | .blockingTransfer t, .blockingTransfer t' => ∃ c, allowed c ∧ t.wire = c.wire ∧ t'.wire = c.wire
  | c, c' => c = c'

variable {σ α : Type} {allowed : NandCmd → Prop}

theorem SameFormat.hasFormat {c : Call} (h : SameFormat allowed c c) : c.HasFormat allowed := by
  cases c with
  | blockingTransfer t =>
    obtain ⟨c, hc, hwire, -⟩ := h
    exact ⟨c, hc, hwire⟩
  | setup s => trivial
  | void v => trivial
  | uninit => trivial

/-- A helper that is one transfer, in one format whatever the state. -/
theorem respects_oneFormat {m : DriverM α} {t : Driver → Transfer} {f : Answer → α}
    {next : Driver → Driver} {c : NandCmd}
    (hm : ∀ d, m d = .ask (.blockingTransfer (t d)) fun a => .done (f a, next d)) (hc : allowed c)
    (hwire : ∀ d, (t d).wire = c.wire) :
    Respects (fun _ _ => True) (SameFormat allowed) m := by
  apply respects_transfer hm (fun d d' _ => ?_) fun _ _ _ => trivial
  exact ⟨c, hc, hwire d, hwire d'⟩

/-- Nothing in a helper's transfer depends on the state. -/
theorem helpersRespect_format (allowed : NandCmd → Prop) :
    HelpersRespect (fun _ _ => True) (SameFormat allowed) allowed where
  void _ := rfl
  uninit := rfl
  getFeatures reg hc :=
    respects_oneFormat (nandCmdGetFeatures_apply reg) hc (wire_getFeatures · reg)
  setFeatures reg value hc :=
    respects_oneFormat (nandCmdSetFeatures_apply reg value) hc (wire_setFeatures · reg value)
  reset hc := respects_oneFormat (amDeviceCommandWrite_apply cmdReset false 0 [] 0) hc
    (wire_bare · cmdReset)
  readId buffer hc :=
    respects_oneFormat (amDeviceCommandRead_apply cmdReadId false 0 buffer 3) hc
      (wire_readId · buffer)
  writeEnable hc := respects_oneFormat nandCmdWriteEnable_apply hc (wire_bare · cmdWriteEnable)
  pageRead pageAddr hc :=
    respects_oneFormat (nandCmdPageRead_apply pageAddr) hc (wire_row · cmdPageRead pageAddr)
  readX1 column data len hc :=
    respects_oneFormat (nandCmdReadX1_apply column data len) hc (wire_columnDummy · column data len)
  programLoad column data len hlen hc :=
    respects_oneFormat (nandCmdProgramLoadX1_apply column data len) hc
      (wire_column ·.noTurnaround cmdProgramLoad column hlen)
  programLoadRandom column data len hlen hc :=
    respects_oneFormat (nandCmdProgramLoadRandomX1_apply column data len) hc
      (wire_column ·.noTurnaround cmdProgramLoadRandom column hlen)
  programExecute pageAddr hc :=
    respects_oneFormat (nandCmdProgramExecute_apply pageAddr) hc
      (wire_row · cmdProgramExecute pageAddr)
  blockErase pageAddr hc :=
    respects_oneFormat (nandCmdBlockErase_apply pageAddr) hc (wire_row · cmdBlockErase pageAddr)

/-! ## Operations in range -/

/-- Pages and blocks that the chip has, and not the initialisation. -/
def Operation.InRange : Operation → Prop
  | .init => False
  | .id | .reset | .readParamsPage _ _ | .printBadBlocks => True
  | .checkBadBlock blockAddr _ => blockAddr.toNat < numBlocks
  | .markBadBlock blockAddr => blockAddr.toNat < numBlocks
  | .eraseBlock blockAddr => blockAddr.toNat < numBlocks
  | .progPage pageAddr _ => pageAddr.toNat < numBlocks * pagesPerBlock
  | .isFree pageAddr _ => pageAddr.toNat < numBlocks * pagesPerBlock
  | .readPage pageAddr _ _ _ _ => pageAddr.toNat < numBlocks * pagesPerBlock
  | .copyPage srcPageAddr destPageAddr _ =>
    srcPageAddr.toNat < numBlocks * pagesPerBlock ∧ destPageAddr.toNat < numBlocks * pagesPerBlock

/-- The commands of an operation, a page being its own row. -/
def Operation.commands (op : Operation) : NandCmd → Prop :=
  op.sends (·.toNat) (·.toNat * pagesPerBlock)

theorem rowOf_eq {pageAddr : UInt32} (h : pageAddr.toNat < numBlocks * pagesPerBlock) :
    rowOf pageAddr = pageAddr.toNat := by
  have hpages : numBlocks * pagesPerBlock = 131072 := rfl
  unfold rowOf
  omega

theorem commands_of_inRange {op : Operation} (h : op.InRange) {c : NandCmd}
    (hc : op.sends rowOf blockRow c) : op.commands c := by
  cases op with
  | init => exact h.elim
  | id => exact hc
  | reset => exact hc
  | readParamsPage paramsPage len => exact hc
  | checkBadBlock blockAddr isBad => rwa [Operation.sends, blockRow_eq h] at hc
  | markBadBlock blockAddr => rwa [Operation.sends, blockRow_eq h] at hc
  | eraseBlock blockAddr =>
    have hb : blockAddr.toUInt32.toNat < numBlocks := by rwa [UInt16.toNat_toUInt32]
    rwa [Operation.sends, blockRow_eq hb] at hc
  | progPage pageAddr data => rwa [Operation.sends, rowOf_eq h] at hc
  | isFree pageAddr isFree => rwa [Operation.sends, rowOf_eq h] at hc
  | readPage pageAddr offset data len eccFatal => rwa [Operation.sends, rowOf_eq h] at hc
  | copyPage srcPageAddr destPageAddr eccFatal =>
    rwa [Operation.sends, rowOf_eq h.1, rowOf_eq h.2] at hc
  | printBadBlocks =>
    obtain ⟨blockAddr, hb, hc⟩ := hc
    rw [blockRow_eq hb] at hc
    exact ⟨blockAddr, hb, hc⟩

theorem respects_format (fuel : Nat) {op : Operation} (h : op.InRange) :
    Respects (fun _ _ => True) (SameFormat op.commands) (op.run fuel) := by
  have hinit : op ≠ .init := by
    rintro rfl
    exact h
  exact respects_operation (helpersRespect_format _) fuel op hinit fun _ => commands_of_inRange h

/-! ## Runs -/

/-- The HAL and the chip answer a transfer by what is on the wire. -/
def WireOnly (env : Environment σ) : Prop :=
  ∀ s t t', t.wire = t'.wire → env s (.blockingTransfer t) = env s (.blockingTransfer t')

/-- Any sequence of results is such an environment. -/
theorem wireOnly_adversary : WireOnly adversary.env := by
  have hview : ∀ (s : Unit × Answers) t, adversary.env s (.blockingTransfer t) =
      (s.2 0, ((), s.2.after 1)) := by
    rintro ⟨x, answers⟩ t
    simp only [Device.env]
    split <;> rfl
  intro s t t' _
  rw [hview, hview]

/-- Two steps that look the same: one operation, calls that look the same with the same answers,
and the same result. -/
structure Step.Alike (st st' : Step σ) : Prop where
  op : st.op = st'.op
  before : st.before = st'.before
  trace : List.Forall₂ (fun x x' : Exchange => SameFormat st.op.commands x.1 x'.1 ∧ x.2 = x'.2)
    st.trace st'.trace
  result : st.result = st'.result
  after : st.after = st'.after

section Runs

variable {env : Environment σ}

theorem withStack_eq_of_sameFormat (henv : WireOnly env) (s : σ × (Nat → Answer)) {q q' : Call}
    (h : SameFormat allowed q q') : withStack env s q = withStack env s q' := by
  cases q with
  | blockingTransfer t =>
    cases q' with
    | blockingTransfer t' =>
      obtain ⟨c, -, hwire, hwire'⟩ := h
      have heq := henv s.1 t t' (hwire.trans hwire'.symm)
      simp only [withStack, heq]
    | setup s' => exact absurd h nofun
    | void v' => exact absurd h nofun
    | uninit => exact absurd h nofun
  | setup s' => rw [show q' = _ from h.symm]
  | void v => rw [show q' = _ from h.symm]
  | uninit => rw [show q' = _ from h.symm]

theorem step_hasFormat (fuel : Nat) {op : Operation} (h : op.InRange) (d : Driver)
    (s : σ × (Nat → Answer)) :
    ∀ x ∈ (op.step env fuel d s).trace, x.1.HasFormat op.commands := by
  intro x hx
  have hself := (respects_format fuel h d d trivial).self (withStack env) s
  exact (hself.1 x hx).hasFormat

/-- Two runs from two states, one operation after the other. -/
theorem steps_alike (henv : WireOnly env) (fuel : Nat) {ops : List Operation}
    (hops : ∀ op ∈ ops, op.InRange) (d d' : Driver) (s : σ × (Nat → Answer)) :
    List.Forall₂ Step.Alike (steps env fuel ops d s) (steps env fuel ops d' s) := by
  induction ops generalizing d d' s with
  | nil => exact .nil
  | cons op ops ih =>
    have hrel := respects_format fuel (hops op List.mem_cons_self) d d' trivial
    have hanswer : ∀ s q q', SameFormat op.commands q q' → withStack env s q = withStack env s q' :=
      fun s _ _ hq => withStack_eq_of_sameFormat henv s hq
    obtain ⟨htrace, hend⟩ := hrel.run hanswer s
    rw [steps, steps]
    rcases heval : (op.run fuel d).eval (withStack env) s with ⟨stopped | ⟨r, e⟩, s₁⟩
    · rcases heval' : (op.run fuel d').eval (withStack env) s with ⟨stopped' | ⟨r', e'⟩, s₂⟩
      · rw [heval, heval'] at hend
        obtain ⟨he, hs⟩ := hend
        obtain rfl : stopped = stopped' := he
        obtain rfl : s₁ = s₂ := hs
        refine .cons ⟨rfl, rfl, htrace, ?_, ?_⟩ .nil
        · simp [Operation.step, heval, heval', Except.map]
        · simp [Operation.step, heval, heval']
      · rw [heval, heval'] at hend
        exact hend.elim
    · rcases heval' : (op.run fuel d').eval (withStack env) s with ⟨stopped' | ⟨r', e'⟩, s₂⟩
      · rw [heval, heval'] at hend
        exact hend.elim
      · -- both go on, from other states of the driver but with the same environment
        rw [heval, heval'] at hend
        obtain ⟨⟨hr, -⟩, hs⟩ := hend
        obtain rfl : r = r' := hr
        obtain rfl : s₁ = s₂ := hs
        refine .cons ⟨rfl, rfl, htrace, ?_, ?_⟩
          (ih (fun op' h' => hops op' (List.mem_cons_of_mem op h')) e e' s₁)
        · simp [Operation.step, heval, heval', Except.map]
        · simp [Operation.step, heval, heval']

/-- **The wire format is independent of history.** Every transfer of every run has the format of
a command of its operation, and two runs from different globals look the same on the wire and
return the same. -/
theorem wire_format (env : Environment σ) (fuel : Nat) {ops : List Operation}
    (hops : ∀ op ∈ ops, op.InRange) (d : Driver) (s : σ × (Nat → Answer)) :
    (∀ st ∈ steps env fuel ops d s, ∀ x ∈ st.trace, x.1.HasFormat st.op.commands) ∧
      (WireOnly env → ∀ d', List.Forall₂ Step.Alike (steps env fuel ops d s)
        (steps env fuel ops d' s)) := by
  refine ⟨fun st hst => ?_, fun henv d' => steps_alike henv fuel hops d d' s⟩
  obtain ⟨pre, suf, heq⟩ := List.append_of_mem hst
  exact steps_induction Operation.InRange (fun _ _ => True)
    (fun _ st => ∀ x ∈ st.trace, x.1.HasFormat st.op.commands)
    (fun op hop d s _ _ => ⟨step_hasFormat fuel hop d s, fun _ _ => trivial⟩) hops trivial heq

/-- An erase and a read on a chip that is always ready, from the globals as initialised and with
the turnaround switched off. -/
theorem wire_format_erase_read :
    List.Forall₂ Step.Alike
      (steps adversary.env 0 [.eraseBlock 5, .readPage 320 0 [] 2048 none] .initial
        (((), fun _ => .zero), fun _ => .zero))
      (steps adversary.env 0 [.eraseBlock 5, .readPage 320 0 [] 2048 none]
        Driver.initial.noTurnaround (((), fun _ => .zero), fun _ => .zero)) := by
  have hops : ∀ op ∈ [Operation.eraseBlock 5, .readPage 320 0 [] 2048 none], op.InRange := by
    intro op hop
    simp only [List.mem_cons, List.not_mem_nil, or_false] at hop
    rcases hop with rfl | rfl
    · show (5 : UInt16).toNat < numBlocks
      decide
    · show (320 : UInt32).toNat < numBlocks * pagesPerBlock
      decide
  exact (wire_format adversary.env 0 hops .initial (((), fun _ => .zero), fun _ => .zero)).2
    wireOnly_adversary Driver.initial.noTurnaround

end Runs

end SpiNand
