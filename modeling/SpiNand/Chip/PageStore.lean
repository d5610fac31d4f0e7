import SpiNand.Bus.Runs
import SpiNand.Chip.FaultFree
import SpiNand.Store.WriteOnce

/-!
# The driver as a page store

On a chip with one cache register and without faults, the driver's operations implement the
accesses of a write-once page store: what is in the cache, the latch and the driver's globals
when an operation starts does not matter, and every result is the one the store gives.

* **`idle_pageOp`** is the simulation of one operation.
* **`steps_refine_pageStore`** is the refinement of runs.
-/

namespace SpiNand

open Interaction Interaction.Prog WriteOnce

/-! ## The store -/

/-- Programming a NAND byte clears bits. -/
def nandByte : Medium UInt8 where
  erased := 0xFF
  meet a b := a &&& b
  meet_assoc := UInt8.and_assoc
  meet_comm := UInt8.and_comm
  meet_self _ := UInt8.and_self
  erased_meet a := by
    show -1 &&& a = a
    exact UInt8.neg_one_and

/-- The accesses of pages, by row, block and column. -/
abbrev PageAccess := Access Nat Nat Nat UInt8

/-- What an access does to the array. -/
abbrev PageAccess.apply (a : PageAccess) (array : Nat → Row) : Nat → Row :=
  Access.apply nandByte blockOf a array

/-- The number of pages. -/
def numPages : Nat := numBlocks * pagesPerBlock

/-- The operations on pages, with arguments in range. -/
inductive PageOp
  | erase (b : Fin numBlocks)
  | prog (p : Fin numPages) (data : PageData)
  | copy (src dst : Fin numPages) (eccFatal : Option Bool)
  | read (p : Fin numPages) (offset : UInt16) (data : List UInt8) (len : UInt32)
      (eccFatal : Option Bool)

namespace PageOp

/-- The driver's operation, with its arguments as C integers. -/
def operation : PageOp → Operation
  | .erase b => .eraseBlock (UInt16.ofNat b)
  | .prog p data => .progPage (UInt32.ofNat p) data
  | .copy src dst eccFatal => .copyPage (UInt32.ofNat src) (UInt32.ofNat dst) eccFatal
  | .read p offset data len eccFatal => .readPage (UInt32.ofNat p) offset data len eccFatal

/-- The access it stands for. Programming writes the data area and leaves the spare area. -/
def access : PageOp → PageAccess
  | .erase b => .erase b
  | .prog p data => .program p (Row.erased.overwrite 0 data.bytes)
  | .copy src dst _ => .copy src dst
  | .read p _ _ _ _ => .read p

/-- What it returns, from a store with the pages `store`. -/
def result (store : Nat → Row) : PageOp → OpResult
  | .erase _ | .prog _ _ => ⟨amHalStatusSuccess, [], none⟩
  | .copy _ _ eccFatal => ⟨amHalStatusSuccess, [], eccFatal⟩
  | .read p offset data len eccFatal =>
    ⟨amHalStatusSuccess,
      (List.range len.toNat).map (fun i => store p (offset.toNat + i)) ++ data.drop len.toNat,
      eccFatal.map fun _ => false⟩

/-- The results of a sequence of operations on a store. -/
def results : (Nat → Row) → List PageOp → List OpResult
  | _, [] => []
  | store, op :: ops => op.result store :: results (op.access.apply store) ops

end PageOp

/-! ## Addresses -/

/-- In range, a page number is its row. -/
theorem rowOf_ofNat {p : Nat} (hp : p < numPages) : rowOf (UInt32.ofNat p) = p := by
  have hpages : numPages = 131072 := rfl
  unfold rowOf
  rw [UInt32.toNat_ofNat']
  omega

theorem blockRow_ofNat {b : Nat} (hb : b < numBlocks) :
    blockRow (UInt32.ofNat b) = b * pagesPerBlock := by
  have hblocks : numBlocks = 2048 := rfl
  have hnat : (UInt32.ofNat b).toNat = b := by
    rw [UInt32.toNat_ofNat']
    omega
  rw [blockRow_eq (by rwa [hnat]), hnat]

/-- The block number of an erase is passed in 16 bits. -/
theorem blockRow_ofNat16 {b : Nat} (hb : b < numBlocks) :
    blockRow (UInt16.ofNat b).toUInt32 = b * pagesPerBlock := by
  have hblocks : numBlocks = 2048 := rfl
  have hnat : (UInt16.ofNat b).toUInt32.toNat = b := by
    rw [UInt16.toNat_toUInt32, UInt16.toNat_ofNat']
    omega
  rw [blockRow_eq (by rwa [hnat]), hnat]

/-- The rows of a block are those from its first one on. -/
theorem blockOf_mul (b : Nat) : blockOf (b * pagesPerBlock) = b :=
  Nat.mul_div_cancel b (by decide)

/-! ## One operation -/

theorem overwrite_nil (r : Row) (column : Nat) : r.overwrite column [] = r := by
  funext i
  simp [Row.overwrite]

section Core

variable (m : Core Unit)

theorem array_eraseCmds {b : Nat} (hb : b < numBlocks) :
    (m.execs singleCache (Chip.eraseCmds (UInt16.ofNat b))).array =
      PageAccess.apply (.erase b) m.array := by
  funext row
  show (if blockOf row = blockOf (blockRow _) then Row.erased else m.array row) =
    if blockOf row = b then (fun _ => 0xFF) else m.array row
  rw [blockRow_ofNat16 hb, blockOf_mul]
  rfl

theorem array_progCmds {p : Nat} (hp : p < numPages) (data : PageData) :
    (m.execs singleCache (Chip.progCmds (UInt32.ofNat p) data)).array =
      PageAccess.apply (.program p (Row.erased.overwrite 0 data.bytes)) m.array := by
  show Function.update m.array (rowOf _) ((m.array (rowOf _)).program _) = Function.update _ _ _
  rw [rowOf_ofNat hp]
  rfl

theorem array_copyCmds {src dst : Nat} (hsrc : src < numPages) (hdst : dst < numPages) :
    (m.execs singleCache (Chip.copyCmds (UInt32.ofNat src) (UInt32.ofNat dst))).array =
      PageAccess.apply (.copy src dst) m.array := by
  show Function.update m.array (rowOf _) ((m.array (rowOf _)).program
    ((m.array (rowOf _)).overwrite 0 [])) = Function.update _ _ _
  rw [rowOf_ofNat hsrc, rowOf_ofNat hdst, overwrite_nil]
  rfl

/-- A read changes the cache alone, and streams the row from there. -/
theorem array_readCmds (pageAddr : UInt32) :
    (m.execs singleCache (Chip.readCmds pageAddr)).array = m.array := rfl

theorem stream_readCmds (pageAddr : UInt32) (column : Nat) :
    (m.execs singleCache (Chip.readCmds pageAddr)).stream singleCache column =
      fun i => m.array (rowOf pageAddr) (column + i) := rfl

end Core

/-- **The simulation.** On an idle chip an operation returns what the store gives, and leaves the
chip idle with the array that the access leaves. -/
theorem idle_pageOp {E : Halt → Chip Unit → Prop} {s : Chip Unit} {m : Core Unit} (hs : s.Idle m)
    (fuel : Nat) (op : PageOp) :
    wpS (Chip.handler singleCache) E (op.operation.run fuel)
      (fun r s' => r = op.result m.array ∧
        ∃ m', s'.Idle m' ∧ m'.array = op.access.apply m.array) s := by
  cases op with
  | erase b =>
    apply wpS_map
    apply wpS_mono (Chip.idle_eraseBlock hs _)
    intro st s' h
    obtain ⟨rfl, hs'⟩ := h
    exact ⟨rfl, _, hs', array_eraseCmds m b.isLt⟩
  | prog p data =>
    apply wpS_map
    apply wpS_mono (Chip.idle_progPage hs _ data)
    intro st s' h
    obtain ⟨rfl, hs'⟩ := h
    exact ⟨rfl, _, hs', array_progCmds m p.isLt data⟩
  | copy src dst eccFatal =>
    apply wpS_map
    apply wpS_mono (Chip.idle_copyPage hs _ _ eccFatal)
    intro r s' h
    obtain ⟨rfl, hs'⟩ := h
    exact ⟨rfl, _, hs', array_copyCmds m src.isLt dst.isLt⟩
  | read p offset data len eccFatal =>
    apply wpS_map
    apply wpS_mono (Chip.idle_readPage hs _ offset data len eccFatal)
    intro r s' h
    obtain ⟨rfl, hs'⟩ := h
    refine ⟨?_, _, hs', array_readCmds m _⟩
    rw [stream_readCmds, rowOf_ofNat p.isLt]
    rfl

/-! ## Runs -/

/-- **The driver is a page store.** On a chip with one cache register and without faults, every
sequence of erases, programs, copies and reads returns what the page store returns that starts
with the chip's array: every operation succeeds, and every read gives the bytes of its page. -/
theorem steps_refine_pageStore (s : Chip Unit) (hready : s.busy = 0) (hfault : FaultFree s.future)
    (fuel : Nat) (ops : List PageOp) (d : Driver) (stack : Nat → Answer) :
    (steps (Chip.env singleCache) fuel (ops.map PageOp.operation) d (s, stack)).map Step.result =
      (PageOp.results s.core.array ops).map .ok := by
  -- induction on the run; the chip is idle between operations, and only its array is tracked
  have hrun : ∀ (ops : List PageOp) (s : Chip Unit) (m : Core Unit) (d : Driver)
      (stack : Nat → Answer), s.Idle m →
      (steps (Chip.env singleCache) fuel (ops.map PageOp.operation) d (s, stack)).map
        Step.result = (PageOp.results m.array ops).map .ok := by
    intro ops
    induction ops with
    | nil => intros; rfl
    | cons op ops ih =>
      intro s m d stack hs
      -- the first operation returns as the store says; the rest starts from where it ends
      obtain ⟨r, d', s', stack', heval, hr, m', hs', harray⟩ :=
        returns_withStack (idle_pageOp hs fuel op) d stack
      have hres : (op.operation.step (Chip.env singleCache) fuel d (s, stack)).result = .ok r := by
        simp [Operation.step, heval, Except.map]
      simp only [List.map_cons, steps, heval, PageOp.results, hres, hr]
      rw [ih s' m' d' stack' hs', harray]
  exact hrun ops s s.core d stack ⟨rfl, hready, hfault⟩

/-- A page of one value. -/
def PageData.fill (b : UInt8) : PageData := ⟨List.replicate pageSize b, List.length_replicate⟩

/-- A page programmed twice after an erase holds the bits that both times left set. -/
theorem erase_prog_prog_read :
    (steps (Chip.env singleCache) 0
        ([.erase ⟨5, by decide⟩, .prog ⟨320, by decide⟩ (.fill 0xF5),
          .prog ⟨320, by decide⟩ (.fill 0x3F),
          .read ⟨320, by decide⟩ 1 [] 2 (some true)].map PageOp.operation)
        Driver.initial
        (⟨⟨fun _ _ => 0x12, fun _ _ => 0x34, true⟩, 0, fun _ => .clear⟩, fun _ => .zero)).map
      Step.result =
    [.ok ⟨amHalStatusSuccess, [], none⟩, .ok ⟨amHalStatusSuccess, [], none⟩,
      .ok ⟨amHalStatusSuccess, [], none⟩,
      .ok ⟨amHalStatusSuccess, [0x35, 0x35], some false⟩] :=
  (steps_refine_pageStore _ rfl faultFree_clear 0 _ Driver.initial _).trans rfl

end SpiNand
