import SpiNand.Interaction.Logic
import SpiNand.Ring.Queue
import SpiNand.Rtt.Target

/-!
# The memory of a channel

What the accesses of the target do (`Memory.access`), beside a host that knows something of its
own (`env`), and what the target computes from offsets, in terms of the counters behind them.
-/

namespace SpiNand.Rtt

/-! ## Memory -/

structure Memory where
  word : Field → UInt32
  pBuffer : Nat → UInt8
  activeTerminal : UInt8

/-- One access of the target. -/
def Memory.access (m : Memory) : Access → Reply × Memory
  | .load f => (⟨m.word f, 0⟩, m)
  | .store f v => (⟨0, 0⟩, { m with word := Function.update m.word f v })
  | .loadByte i => (⟨0, m.pBuffer i.toNat⟩, m)
  | .storeByte i b => (⟨0, 0⟩, { m with pBuffer := Function.update m.pBuffer i.toNat b })
  | .loadActiveTerminal => (⟨0, m.activeTerminal⟩, m)
  | .storeActiveTerminal id => (⟨0, 0⟩, { m with activeTerminal := id })

/-- The memory, and what a host knows beside it. -/
def env {H : Type} (w : Memory × H) (a : Access) : Reply × (Memory × H) :=
  ((w.1.access a).1, ((w.1.access a).2, w.2))

/-! ## Offsets in machine words -/

variable {size rd wr : UInt32} {a b : Nat}

theorem toNat_min (x y : UInt32) : (min x y).toNat = min x.toNat y.toNat := by
  have h : min x y = if x ≤ y then x else y := rfl
  rw [h, Nat.min_def]
  simp only [UInt32.le_iff_toNat_le]
  split <;> rfl

/-- The free cells, as `_GetAvailWriteSpace()` computes them. -/
theorem toNat_avail (hrd : rd.toNat = a % size.toNat) (hwr : wr.toNat = b % size.toNat)
    (hab : a ≤ b) (hb : b < a + size.toNat) :
    (if rd ≤ wr then size - 1 - wr + rd else rd - wr - 1).toNat + b + 1 = a + size.toNat := by
  obtain ⟨lap, ha, hlt, hlt', hb'⟩ := Ring.exists_lap hab hb
  have := size.toNat_lt
  rw [← hrd] at ha hlt
  rw [← hwr] at hb' hlt'
  split <;> rename_i hle <;> rw [UInt32.le_iff_toNat_le] at hle <;>
    simp only [UInt32.toNat_add, UInt32.toNat_sub, UInt32.toNat_one] <;> omega

/-- The cells that one turn of `_WriteBlocking()` fills. -/
theorem toNat_numBytesToWrite (hrd : rd.toNat = a % size.toNat) (hwr : wr.toNat = b % size.toNat)
    (hab : a ≤ b) (hb : b < a + size.toNat) (N : UInt32) :
    (numBytesToWrite size rd wr N).toNat =
      min (min (a + size.toNat - 1 - b) (size.toNat - wr.toNat)) N.toNat := by
  obtain ⟨lap, ha, hlt, hlt', hb'⟩ := Ring.exists_lap hab hb
  have := size.toNat_lt
  rw [← hrd] at ha hlt
  rw [← hwr] at hb' hlt'
  have hfree : (if rd > wr then rd - wr - 1 else size - (wr - rd + 1)).toNat =
      a + size.toNat - 1 - b := by
    split <;> rename_i hgt <;> rw [gt_iff_lt, UInt32.lt_iff_toNat_lt] at hgt <;>
      simp only [UInt32.toNat_add, UInt32.toNat_sub, UInt32.toNat_one] <;> omega
  have hend : (size - wr).toNat = size.toNat - wr.toNat := by
    rw [UInt32.toNat_sub]
    omega
  unfold numBytesToWrite
  rw [toNat_min, toNat_min, hfree, hend]

theorem toNat_sub_of_toNat_le {x y : UInt32} (h : y.toNat ≤ x.toNat) :
    (x - y).toNat = x.toNat - y.toNat :=
  UInt32.toNat_sub_of_le x y (UInt32.le_iff_toNat_le.mpr h)

theorem toNat_add_of_toNat_le {x y z : UInt32} (h : x.toNat + y.toNat ≤ z.toNat) :
    (x + y).toNat = x.toNat + y.toNat := by
  have := z.toNat_lt
  rw [UInt32.toNat_add]
  omega

/-- An offset moves as its counter does. -/
theorem toNat_wrapAround {size off k : UInt32} {a : Nat} (hoff : off.toNat = a % size.toNat)
    (hk : off.toNat + k.toNat ≤ size.toNat) :
    (wrapAround size (off + k)).toNat = (a + k.toNat) % size.toNat := by
  have hsum := toNat_add_of_toNat_le hk
  rw [← Ring.wrap_add (by omega), ← hoff, ← hsum]
  unfold wrapAround
  simp only [← UInt32.toNat_inj]
  split <;> rfl

/-- The free cells, as `SEGGER_RTT_WriteWithOverwriteNoLock()` computes them. -/
theorem toNat_overwriteAvail (hrd : rd.toNat = a % size.toNat) (hwr : wr.toNat = b % size.toNat)
    (hab : a ≤ b) (hb : b < a + size.toNat) :
    (if wr = rd then size - 1 else if wr < rd then rd - wr - 1 else rd - wr - 1 + size).toNat + b + 1
      = a + size.toNat := by
  obtain ⟨lap, ha, hlt, hlt', hb'⟩ := Ring.exists_lap hab hb
  have := size.toNat_lt
  have hsame : wr = rd → a = b := by
    intro heq
    exact Ring.eq_of_offset_eq hab hb (by rw [← hrd, ← hwr, heq])
  rw [← hrd] at ha hlt
  rw [← hwr] at hb' hlt'
  split
  · rename_i heq
    have := hsame heq
    simp only [UInt32.toNat_sub, UInt32.toNat_one]
    omega
  · split <;> rename_i hne hlt'' <;> rw [← UInt32.toNat_inj] at hne <;>
      rw [UInt32.lt_iff_toNat_lt] at hlt'' <;>
      simp only [UInt32.toNat_add, UInt32.toNat_sub, UInt32.toNat_one] <;> omega

/-! ## Copying -/

open Interaction Interaction.Prog in
/-- `memcpy()` into the cells after `count` items and what is staged already: what a store of one
byte does, as long as there is `room`, all of them do. -/
theorem wp_memcpyTo_of {σ : Type} {H : Handler σ Access Reply} {E : Stop → σ → Prop}
    {J : List UInt8 → σ → Prop} {size : UInt32} {count room : Nat}
    (hstore : ∀ {staged : List UInt8} {s : σ} {i : UInt32} {b : UInt8} {R : Unit → σ → Prop},
      J staged s → count + staged.length + 1 < room →
      i.toNat = (count + staged.length) % size.toNat → (∀ s', J (staged ++ [b]) s' → R () s') →
      wp H E (storeByte i b) R s)
    {R : Unit → σ → Prop} {off : UInt32} {bytes staged : List UInt8} {s : σ} (h : J staged s)
    (hroom : count + staged.length + bytes.length < room)
    (hoff : off.toNat = (count + staged.length) % size.toNat)
    (hend : off.toNat + bytes.length ≤ size.toNat) (hR : ∀ s', J (staged ++ bytes) s' → R () s') :
    wp H E (memcpyTo off bytes) R s := by
  induction bytes generalizing off staged s with
  | nil =>
    have hdone := hR s (by simpa using h)
    exact hdone
  | cons b bytes ih =>
    rw [List.length_cons] at hroom hend
    apply wp_seq
    apply hstore h (by omega) hoff
    intro s' hs'
    cases bytes with
    | nil =>
      -- the last byte may lie at the end of the buffer
      exact hR s' hs'
    | cons b' bytes =>
      rw [List.length_cons] at hroom hend
      have hsucc : (off + 1).toNat = off.toNat + 1 := by
        have := size.toNat_lt
        rw [UInt32.toNat_add, UInt32.toNat_one]
        omega
      have hnext : (off + 1).toNat = (count + (staged ++ [b]).length) % size.toNat := by
        have hlt : (count + staged.length) % size.toNat + 1 < size.toNat := by omega
        rw [List.length_append, List.length_singleton, ← Nat.add_assoc, Ring.offset_add hlt, hsucc,
          hoff]
      refine ih hs' ?_ hnext ?_ fun s'' hs'' => hR s'' ?_
      · rw [List.length_append, List.length_singleton, List.length_cons]
        omega
      · rw [List.length_cons]
        omega
      · simpa using hs''

end SpiNand.Rtt
