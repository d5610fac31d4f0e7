import SpiNand.Chip.FaultFree
import SpiNand.Chip.PageStore

/-!
# Two planes

With two planes, the driver's own description of the column address ("12 addr + plane") has the
plane in bit 12 of every column it sends. The helpers that send a column only receive the
column within the page, so that bit is always zero: the driver reads and fills the cache of
plane 0 whatever plane the row is in.

* **`stream_readCmds_twoPlanes`**: a read returns the page for an even block, and for an odd one
  what is in the cache of plane 0.
* **`bytes_programmed_twoPlanes`**: a program writes its data for an even block, and for an odd one
  what is in the cache of plane 1.
* **`planes_iff`** is the exact condition for each.
-/

namespace SpiNand

open Interaction Interaction.Prog

/-- The block of a page is in plane 0. -/
def InPlaneZero (p : Nat) : Prop := blockOf p % 2 = 0

instance (p : Nat) : Decidable (InPlaneZero p) := inferInstanceAs (Decidable (_ = _))

theorem rowPlane_eq_false_iff (p : Nat) : twoPlanes.rowPlane p = false ↔ InPlaneZero p := by
  show (blockOf p % 2 == 1) = false ↔ blockOf p % 2 = 0
  rw [beq_eq_false_iff_ne]
  omega

/-- The columns of a page are in plane 0. -/
theorem colPlane_eq_false {column : Nat} (h : column < 2 ^ 12) :
    twoPlanes.colPlane column = false := by
  show (column / 2 ^ 12 % 2 == 1) = false
  rw [Nat.div_eq_of_lt h]
  rfl

theorem colByte_eq {column : Nat} (h : column < 2 ^ 12) : twoPlanes.colByte column = column :=
  Nat.mod_eq_of_lt h

section Core

variable (m : Core Bool) {p : Nat}

/-- What a read of a page returns. -/
theorem stream_readCmds_twoPlanes (hp : p < numPages) {column : Nat} (hc : column < 2 ^ 12) :
    (m.execs twoPlanes (Chip.readCmds (UInt32.ofNat p))).stream twoPlanes column =
      fun i => if InPlaneZero p then m.array p (column + i) else m.cache false (column + i) := by
  funext i
  show Function.update m.cache (twoPlanes.rowPlane (rowOf _)) (m.array (rowOf _))
    (twoPlanes.colPlane column) (twoPlanes.colByte column + i) = _
  rw [rowOf_ofNat hp, colPlane_eq_false hc, colByte_eq hc]
  by_cases hplane : InPlaneZero p
  · rw [if_pos hplane, (rowPlane_eq_false_iff p).mpr hplane, Function.update_self]
  · have hne : false ≠ twoPlanes.rowPlane p := fun h => hplane ((rowPlane_eq_false_iff p).mp h.symm)
    rw [if_neg hplane, Function.update_of_ne hne]

/-- What is in a page after it was programmed. -/
theorem array_progCmds_twoPlanes (hp : p < numPages) (data : PageData) :
    (m.execs twoPlanes (Chip.progCmds (UInt32.ofNat p) data)).array p =
      (m.array p).program (if InPlaneZero p then Row.erased.overwrite 0 data.bytes
        else m.cache true) := by
  show Function.update m.array (rowOf _) ((m.array (rowOf _)).program
    (Function.update m.cache (twoPlanes.colPlane 0)
      (Row.erased.overwrite (twoPlanes.colByte 0) data.bytes) (twoPlanes.rowPlane (rowOf _)))) p = _
  rw [rowOf_ofNat hp, Function.update_self]
  by_cases hplane : InPlaneZero p
  · rw [if_pos hplane, (rowPlane_eq_false_iff p).mpr hplane]
    rfl
  · have htrue : twoPlanes.rowPlane p = true :=
      Bool.eq_true_of_not_eq_false fun h => hplane ((rowPlane_eq_false_iff p).mp h)
    rw [if_neg hplane, htrue]
    rfl

end Core

/-! ## The operations -/

/-- From a ready chip, every `nand_read_page` that succeeds returns the bytes of its page. -/
def ReadsItsPage (m : Core Bool) (p : Fin numPages) (offset : UInt16) (len : UInt32) : Prop :=
  ∀ future d stack data eccFatal r,
    ((Operation.readPage (UInt32.ofNat p) offset data len eccFatal).step (Chip.env twoPlanes) 0 d
      (⟨m, 0, future⟩, stack)).result = .ok r →
    r.ui32Status = amHalStatusSuccess →
      r.data.take len.toNat = (List.range len.toNat).map fun i => m.array p (offset.toNat + i)

/-- From a ready chip, every `nand_prog_page` that succeeds leaves its data in its page. -/
def ProgramsItsPage (m : Core Bool) (p : Fin numPages) (data : PageData) : Prop :=
  ∀ future d stack r,
    ((Operation.progPage (UInt32.ofNat p) data).step (Chip.env twoPlanes) 0 d
      (⟨m, 0, future⟩, stack)).result = .ok r →
    r.ui32Status = amHalStatusSuccess →
      (List.range pageSize).map (((Operation.progPage (UInt32.ofNat p) data).step
        (Chip.env twoPlanes) 0 d (⟨m, 0, future⟩, stack)).after.core.array p) = data.bytes

theorem take_received (len : Nat) (data : List UInt8) (a : Answer) :
    (received len data a).take len = (List.range len).map a.bytes :=
  List.take_left' (by simp)

/-- What the driver read is the page, or was in the other cache before. -/
theorem readsItsPage_iff (m : Core Bool) (p : Fin numPages) (offset : UInt16) (len : UInt32)
    (hrange : offset.toNat < 2 ^ 12) :
    ReadsItsPage m p offset len ↔
      InPlaneZero p ∨
        ∀ i < len.toNat, m.cache false (offset.toNat + i) = m.array p (offset.toNat + i) := by
  have hread : ∀ {r : OpResult} {data : List UInt8}, r.data = received len.toNat data
      ⟨amHalStatusSuccess, (m.execs twoPlanes (Chip.readCmds (UInt32.ofNat p))).stream twoPlanes
        offset.toNat⟩ →
      r.data.take len.toNat = (List.range len.toNat).map fun i => if InPlaneZero p
        then m.array p (offset.toNat + i) else m.cache false (offset.toNat + i) := by
    intro r data hdata
    rw [hdata, take_received, stream_readCmds_twoPlanes m p.isLt hrange]
  constructor
  · intro h
    rw [or_iff_not_imp_left]
    intro hplane i hi
    -- a read without faults returns, with what is in the cache of plane 0
    obtain ⟨future, hfault⟩ : ∃ future, FaultFree future := ⟨_, faultFree_clear⟩
    have hidle : Chip.Idle ⟨m, 0, future⟩ m := ⟨rfl, rfl, hfault⟩
    have hwp : wpS (Chip.handler twoPlanes) (fun _ _ => False)
        ((Operation.readPage (UInt32.ofNat p) offset [] len none).run 0)
        (fun r _ => r.ui32Status = amHalStatusSuccess ∧ r.data = received len.toNat []
          ⟨amHalStatusSuccess, (m.execs twoPlanes (Chip.readCmds (UInt32.ofNat p))).stream
            twoPlanes offset.toNat⟩) ⟨m, 0, future⟩ := by
      apply wpS_map
      apply wpS_mono (Chip.idle_readPage hidle _ offset [] len none)
      intro read s' h
      obtain ⟨rfl, -⟩ := h
      exact ⟨rfl, rfl⟩
    obtain ⟨r, hr, hok, hdata⟩ := step_returns _ hwp Driver.initial fun _ => .zero
    have heq := (hread hdata).symm.trans (h _ _ _ _ _ r hr hok)
    have hi' := List.map_inj_left.mp heq i (List.mem_range.mpr hi)
    rwa [if_neg hplane] at hi'
  · intro h future d stack data eccFatal r hr hok
    -- a read that succeeds has streamed what is in the cache of plane 0
    have hready : Chip.Ready ⟨m, 0, future⟩ m := ⟨rfl, rfl⟩
    have hwp : wpS (Chip.handler twoPlanes) (fun _ _ => True)
        ((Operation.readPage (UInt32.ofNat p) offset data len eccFatal).run 0)
        (fun r _ => r.ui32Status = amHalStatusSuccess → r.data = received len.toNat data
          ⟨amHalStatusSuccess, (m.execs twoPlanes (Chip.readCmds (UInt32.ofNat p))).stream
            twoPlanes offset.toNat⟩) ⟨m, 0, future⟩ :=
      wpS_map (Chip.success_readPage hready _ offset data len eccFatal)
    have hstep := step_of_wp _ hwp d stack
    rw [hr] at hstep
    rw [hread (hstep hok), List.map_inj_left]
    intro i hi
    rcases h with hplane | hcache
    · rw [if_pos hplane]
    · rw [hcache i (List.mem_range.mp hi), ite_self]

/-- The bytes of a page that was erased before it was programmed with `data`. -/
theorem bytes_programmed_twoPlanes {m : Core Bool} {p : Nat} (hp : p < numPages)
    (herased : m.array p = Row.erased) (data : PageData) :
    (List.range pageSize).map
        ((m.execs twoPlanes (Chip.progCmds (UInt32.ofNat p) data)).array p) =
      if InPlaneZero p then data.bytes else (List.range pageSize).map (m.cache true) := by
  have hand : ∀ r : Row, Row.erased.program r = r := fun r => funext fun c => nandByte.erased_meet _
  rw [array_progCmds_twoPlanes m hp, herased, hand]
  by_cases hplane : InPlaneZero p
  · rw [if_pos hplane, if_pos hplane]
    apply List.ext_getElem
    · rw [List.length_map, List.length_range, data.length_bytes]
    · intro i hi hi'
      simp [Row.overwrite, hi']
  · rw [if_neg hplane, if_neg hplane]

/-- What the driver programmed into an erased page is its data, or was in the other cache before. -/
theorem programsItsPage_iff (m : Core Bool) (p : Fin numPages) (data : PageData)
    (herased : m.array p = Row.erased) :
    ProgramsItsPage m p data ↔
      InPlaneZero p ∨ (List.range pageSize).map (m.cache true) = data.bytes := by
  have hbytes := bytes_programmed_twoPlanes p.isLt herased data
  constructor
  · intro h
    rw [or_iff_not_imp_left]
    intro hplane
    -- a program without faults returns, with the cache of plane 1 in the page
    obtain ⟨future, hfault⟩ : ∃ future, FaultFree future := ⟨_, faultFree_clear⟩
    have hidle : Chip.Idle ⟨m, 0, future⟩ m := ⟨rfl, rfl, hfault⟩
    have hwp : wpS (Chip.handler twoPlanes) (fun _ _ => False)
        ((Operation.progPage (UInt32.ofNat p) data).run 0)
        (fun r s' => r.ui32Status = amHalStatusSuccess ∧
          s'.core = m.execs twoPlanes (Chip.progCmds (UInt32.ofNat p) data))
        ⟨m, 0, future⟩ := by
      apply wpS_map
      apply wpS_mono (Chip.idle_progPage hidle _ data)
      intro st s' h
      exact ⟨h.1, h.2.core⟩
    obtain ⟨r, hr, hok, hcore⟩ := step_returns _ hwp Driver.initial fun _ => .zero
    have hdata := h _ _ _ r hr hok
    rwa [hcore, hbytes, if_neg hplane] at hdata
  · intro h future d stack r hr hok
    have hready : Chip.Ready ⟨m, 0, future⟩ m := ⟨rfl, rfl⟩
    have hwp : wpS (Chip.handler twoPlanes) (fun _ _ => True)
        ((Operation.progPage (UInt32.ofNat p) data).run 0)
        (fun r s' => r.ui32Status = amHalStatusSuccess →
          s'.core = m.execs twoPlanes (Chip.progCmds (UInt32.ofNat p) data)) ⟨m, 0, future⟩ :=
      wpS_map (Chip.success_progPage hready _ data)
    have hstep := step_of_wp _ hwp d stack
    rw [hr] at hstep
    rw [hstep hok, hbytes]
    rcases h with hplane | hcache
    · rw [if_pos hplane]
    · rw [hcache, ite_self]

/-- The columns of a page with its spare area, in full: the pages' 2048 bytes and the 64 bytes of
user data after them. -/
def readableColumns : Nat := 2112

/-- **Planes.** From a ready chip with two planes, a successful read of a page returns its bytes,
and a successful program of an erased page leaves its data there, for the pages of even blocks;
for the others exactly where the other plane's cache held these bytes already. -/
theorem planes_iff (m : Core Bool) (p : Fin numPages) :
    (∀ (offset : UInt16) (len : UInt32), offset.toNat + len.toNat ≤ readableColumns →
      (ReadsItsPage m p offset len ↔ InPlaneZero p ∨
        ∀ i < len.toNat, m.cache false (offset.toNat + i) = m.array p (offset.toNat + i))) ∧
    (m.array p = Row.erased → ∀ data : PageData,
      (ProgramsItsPage m p data ↔ InPlaneZero p ∨
        (List.range pageSize).map (m.cache true) = data.bytes)) := by
  refine ⟨fun offset len hrange => readsItsPage_iff m p offset len ?_,
    fun herased data => programsItsPage_iff m p data herased⟩
  have hcolumns : readableColumns = 2112 := rfl
  omega

/-- Two planes with erased rows and caches full of zeros. -/
def zeroCaches : Core Bool where
  array _ := Row.erased
  cache _ _ := 0
  latch := false

/-- On the first page of block 0, a read of the whole page that succeeds returns it, and a program
that succeeds leaves its data. -/
theorem block_zero_read_and_programmed :
    ReadsItsPage zeroCaches ⟨0, by decide⟩ 0 2112 ∧
      ProgramsItsPage zeroCaches ⟨0, by decide⟩ (.fill 0x5A) := by
  have heven : InPlaneZero 0 := by decide
  obtain ⟨hread, hprog⟩ := planes_iff zeroCaches ⟨0, by decide⟩
  exact ⟨(hread 0 2112 (by decide)).mpr (.inl heven), (hprog rfl _).mpr (.inl heven)⟩

/-- On the first page of block 1, a read of one byte that succeeds does not return the page, and a
program that succeeds does not leave its data. -/
theorem block_one_not_read_not_programmed :
    ¬ ReadsItsPage zeroCaches ⟨64, by decide⟩ 0 1 ∧
      ¬ ProgramsItsPage zeroCaches ⟨64, by decide⟩ (.fill 0x5A) := by
  have hodd : ¬ InPlaneZero 64 := by decide
  constructor
  · rw [readsItsPage_iff _ _ _ _ (by decide)]
    rintro (hplane | hcache)
    · exact hodd hplane
    · have hfirst : (0 : UInt8) = 0xFF := hcache 0 (by decide)
      exact absurd hfirst (by decide)
  · rw [programsItsPage_iff _ _ _ rfl]
    rintro (hplane | hcache)
    · exact hodd hplane
    · have hfirst : ((List.range pageSize).map (zeroCaches.cache true))[0]? = some 0x5A := by
        rw [hcache]
        rfl
      rw [List.getElem?_map, List.getElem?_range (by decide)] at hfirst
      exact absurd hfirst (by decide)

end SpiNand
