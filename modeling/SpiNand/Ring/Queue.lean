import Mathlib.Data.List.Basic
import Mathlib.Logic.Function.Basic

/-!
# Ring buffers with one writer and one reader

`n` cells, a write offset that one party moves and a read offset that the other one moves. Behind
the offsets are counters that only grow: an offset is its counter modulo `n`. Nothing is said of
who the parties are, of what they copy, or of the order in which they take their steps.

* **`Queue`** is the invariant: the items that were published, those the writer has staged after
  them, how far the reader has looked, taken and released, and up to where the writer knows it.
* **`learn`**, **`stage`**, **`publish`** are the writer's steps, **`look`**, **`take`**,
  **`release`** the reader's. Each keeps the invariant, so any interleaving of them does.
* **`free_eq`**, **`wrap_add`**, **`eq_of_offset_eq`** are the arithmetic on offsets that
  implementations use.
-/

namespace Ring

/-! ## Offsets -/

section Offsets

variable {n a b k : Nat}

/-- Two counters less than `n` apart are in one lap, or in two that follow each other. -/
theorem exists_lap (hab : a ≤ b) (hb : b < a + n) :
    ∃ lap, a = lap + a % n ∧ a % n < n ∧ b % n < n ∧ (b = lap + b % n ∨ b = lap + n + b % n) := by
  have hn : 0 < n := by omega
  have hsucc : b / n ≤ a / n + 1 := by
    rw [← Nat.add_div_right a hn]
    exact Nat.div_le_div_right (Nat.le_of_lt hb)
  have hle : a / n ≤ b / n := Nat.div_le_div_right hab
  have ha := Nat.div_add_mod a n
  have hb' := Nat.div_add_mod b n
  refine ⟨n * (a / n), by omega, Nat.mod_lt a hn, Nat.mod_lt b hn, ?_⟩
  rcases Nat.lt_or_ge (a / n) (b / n) with hlt | hge
  · right
    have hlap : b / n = a / n + 1 := by omega
    rw [hlap, Nat.mul_add, Nat.mul_one] at hb'
    omega
  · left
    have hlap : b / n = a / n := by omega
    rw [hlap] at hb'
    omega

/-- Counters less than `n` apart are equal if their offsets are. -/
theorem eq_of_offset_eq (hab : a ≤ b) (hb : b < a + n) (h : a % n = b % n) : a = b := by
  obtain ⟨lap, ha, -, -, hb'⟩ := exists_lap hab hb
  omega

/-- The cells between the write offset and the cell before the read offset. -/
theorem free_eq (hab : a ≤ b) (hb : b < a + n) :
    (if a % n ≤ b % n then n - 1 - b % n + a % n else a % n - b % n - 1) + (b - a) + 1 = n := by
  obtain ⟨lap, ha, hlt, hlt', hb'⟩ := exists_lap hab hb
  split <;> omega

/-- The cells from the read offset to the write offset. -/
theorem used_eq (hab : a ≤ b) (hb : b < a + n) :
    (if a % n ≤ b % n then b % n - a % n else n - a % n + b % n) = b - a := by
  obtain ⟨lap, ha, hlt, hlt', hb'⟩ := exists_lap hab hb
  split <;> omega

/-- Before the end of the buffer, offsets move as their counters do. -/
theorem offset_add (hk : a % n + k < n) : (a + k) % n = a % n + k := by
  rw [Nat.add_mod, Nat.mod_eq_of_lt (show k < n by omega), Nat.mod_eq_of_lt hk]

/-- At its end they start again. -/
theorem wrap_add (hk : a % n + k ≤ n) :
    (if a % n + k = n then 0 else a % n + k) = (a + k) % n := by
  split
  · rename_i hend
    have hlap := Nat.div_add_mod a n
    have hsum : a + k = n * (a / n) + n := by omega
    rw [hsum, Nat.mul_add_mod, Nat.mod_self]
  · rw [offset_add]
    omega

end Offsets

/-! ## The invariant -/

variable {α : Type}

/-- A ring buffer of `n` cells: `items` were published and `staged` is written after them; the
reader has looked at `seen` items, taken `taken` and released `released`, and the writer knows of
`known` released ones. -/
structure Queue (n : Nat) (cell : Nat → α) (wr rd : Nat) (items staged : List α)
    (known released taken seen : Nat) : Prop where
  known_le : known ≤ released
  released_le : released ≤ taken
  taken_le : taken ≤ seen
  seen_le : seen ≤ items.length
  fits : items.length + staged.length < known + n
  wr_eq : wr = items.length % n
  rd_eq : rd = released % n
  cell_eq : ∀ i, taken ≤ i → ∀ h : i < (items ++ staged).length, cell (i % n) = (items ++ staged)[i]

namespace Queue

variable {n : Nat} {cell : Nat → α} {wr rd : Nat} {items staged : List α}
  {known released taken seen : Nat}

/-- An empty buffer. -/
theorem empty (hn : 0 < n) (cell : Nat → α) : Queue n cell 0 0 [] [] 0 0 0 0 where
  known_le := Nat.le_refl 0
  released_le := Nat.le_refl 0
  taken_le := Nat.le_refl 0
  seen_le := Nat.le_refl 0
  fits := by simpa using hn
  wr_eq := (Nat.zero_mod n).symm
  rd_eq := (Nat.zero_mod n).symm
  cell_eq i _ h := absurd h (Nat.not_lt_zero i)

section

variable (q : Queue n cell wr rd items staged known released taken seen)
include q

theorem pos : 0 < n := by
  have := q.fits
  have := q.known_le
  have := q.released_le
  have := q.taken_le
  have := q.seen_le
  omega

theorem wr_lt : wr < n := by
  rw [q.wr_eq]
  exact Nat.mod_lt _ q.pos

theorem rd_lt : rd < n := by
  rw [q.rd_eq]
  exact Nat.mod_lt _ q.pos

/-! ## The writer -/

/-- The writer reads the read offset. -/
theorem learn : Queue n cell wr rd items staged released released taken seen :=
  { q with
    known_le := Nat.le_refl released
    fits := Nat.lt_of_lt_of_le q.fits (Nat.add_le_add_right q.known_le n) }

/-- The writer writes the next cell, of which it knows that it is free. -/
theorem stage (b : α) (hroom : items.length + staged.length + 1 < known + n) {off : Nat}
    (hoff : off = (items.length + staged.length) % n) :
    Queue n (Function.update cell off b) wr rd items (staged ++ [b]) known released taken seen := by
  refine { q with fits := ?_, cell_eq := fun i hi h => ?_ }
  · rw [List.length_append, List.length_singleton]
    omega
  · have := q.known_le
    have := q.released_le
    rw [List.length_append, List.length_append, List.length_singleton] at h
    rcases Nat.lt_or_ge i (items.length + staged.length) with hold | hnew
    · -- an item the reader may still take: it is less than a lap behind
      have hne : i % n ≠ off := by
        rw [hoff]
        intro heq
        have := eq_of_offset_eq (Nat.le_of_lt hold) (by omega) heq
        omega
      have hlen : i < (items ++ staged).length := by simpa using hold
      rw [Function.update_of_ne hne, q.cell_eq i hi hlen]
      simp only [← List.append_assoc]
      rw [List.getElem_append_left hlen]
    · have hlast : i = (items ++ staged).length := by
        rw [List.length_append]
        omega
      have hoff' : i % n = off := by rw [hoff, hlast, List.length_append]
      rw [hoff', Function.update_self]
      simp only [← List.append_assoc, hlast, List.getElem_concat_length]

/-- The writer moves the write offset past what it has staged. -/
theorem publish {wr' : Nat} (hwr : wr' = (items.length + staged.length) % n) :
    Queue n cell wr' rd (items ++ staged) [] known released taken seen := by
  refine { q with seen_le := ?_, fits := ?_, wr_eq := ?_, cell_eq := fun i hi h => ?_ }
  · rw [List.length_append]
    exact Nat.le_trans q.seen_le (Nat.le_add_right _ _)
  · rw [List.length_append, List.length_nil]
    exact q.fits
  · rw [List.length_append, hwr]
  · have hlen : i < (items ++ staged).length := by simpa using h
    rw [q.cell_eq i hi hlen]
    simp

/-! ## The reader -/

/-- The reader reads the write offset. -/
theorem look : Queue n cell wr rd items staged known released taken items.length :=
  { q with
    taken_le := Nat.le_trans q.taken_le q.seen_le
    seen_le := Nat.le_refl _ }

/-- The next item is in its cell. -/
theorem cell_taken (h : taken < seen) : items[taken]? = some (cell (taken % n)) := by
  have hitem : taken < items.length := Nat.lt_of_lt_of_le h q.seen_le
  have hlen : taken < (items ++ staged).length := by
    rw [List.length_append]
    omega
  rw [q.cell_eq taken (Nat.le_refl _) hlen, List.getElem_append_left hitem,
    List.getElem?_eq_getElem hitem]

/-- The reader takes the next item that it has seen. -/
theorem take (h : taken < seen) :
    Queue n cell wr rd items staged known released (taken + 1) seen :=
  { q with
    released_le := Nat.le_succ_of_le q.released_le
    taken_le := h
    cell_eq := fun i hi => q.cell_eq i (Nat.le_of_succ_le hi) }

/-- The reader moves the read offset past what it has taken. -/
theorem release {rd' : Nat} (hrd : rd' = taken % n) :
    Queue n cell wr rd' items staged known taken taken seen :=
  { q with
    known_le := Nat.le_trans q.known_le q.released_le
    released_le := Nat.le_refl _
    rd_eq := hrd }

/-- Items that nobody has taken are given up, and their cells are free. -/
theorem skip {rd' k : Nat} (htaken : taken ≤ k) (hk : k ≤ items.length) (hrd : rd' = k % n) :
    Queue n cell wr rd' items staged k k k k := by
  have h1 := q.known_le
  have h2 := q.released_le
  exact
    { q with
      known_le := Nat.le_refl k
      released_le := Nat.le_refl k
      taken_le := Nat.le_refl k
      seen_le := hk
      fits := Nat.lt_of_lt_of_le q.fits (by omega)
      rd_eq := hrd
      cell_eq := fun i hi => q.cell_eq i (Nat.le_trans htaken hi) }

/-! ## What the offsets say -/

/-- What the writer computes from the offsets is the room that it knows of. -/
theorem free : (if rd ≤ wr then n - 1 - wr + rd else rd - wr - 1) + items.length + 1 =
    released + n := by
  have h1 := q.known_le
  have h2 := q.released_le
  have h3 := q.taken_le
  have h4 := q.seen_le
  have h5 := q.fits
  have hfree := free_eq (n := n) (show released ≤ items.length by omega) (by omega)
  rw [← q.wr_eq, ← q.rd_eq] at hfree
  omega

/-- Equal offsets mean that nothing is left to take. -/
theorem taken_eq_seen (h : taken % n = seen % n) : taken = seen := by
  have h1 := q.known_le
  have h2 := q.released_le
  have h3 := q.seen_le
  have h4 := q.fits
  exact eq_of_offset_eq q.taken_le (by omega) h

end

end Queue

end Ring
