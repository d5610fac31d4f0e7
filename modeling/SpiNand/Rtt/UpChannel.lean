import SpiNand.Interaction.Interleaving
import SpiNand.Rtt.Memory

/-!
# An up-buffer between the target and the host

Beside the memory is a host that reads the buffer: it reads the write offset, takes bytes up to
there, and moves the read offset, each as often and as late as it likes.

* **`Up c items staged known`** is the invariant: `items` is everything that was published in the
  buffer, `staged` is written and not yet published, and the host has released `known` bytes or
  more. The bytes that the host has received start `items`.
* **`stable_up`**: the host keeps it. The `wp_` rules say how the target's accesses move it.
-/

namespace SpiNand.Rtt

open Interaction Interaction.Prog

/-! ## The host -/

/-- The host's view of an up-buffer: the write offset that it has read, the offset of the byte it
takes next, and the bytes that it has taken. -/
structure UpHost where
  wrOff : UInt32
  rdOff : UInt32
  received : List UInt8

inductive HostStep where
  | look
  | take
  | release
  deriving DecidableEq, Repr

def UpHost.act (w : Memory × UpHost) : HostStep → Memory × UpHost
  | .look => (w.1, { w.2 with wrOff := w.1.word .wrOff })
  | .take =>
    if w.2.rdOff = w.2.wrOff then w
    else (w.1, { w.2 with
      rdOff := wrapAround (w.1.word .sizeOfBuffer) (w.2.rdOff + 1)
      received := w.2.received ++ [w.1.pBuffer w.2.rdOff.toNat] })
  | .release => ({ w.1 with word := Function.update w.1.word .rdOff w.2.rdOff }, w.2)

/-! ## The invariant -/

/-- What neither side changes on its own. -/
structure Setting where
  size : UInt32
  flags : UInt32
  active : UInt8

structure UpState (c : Setting) (items staged : List UInt8) (known released taken seen : Nat)
    (w : Memory × UpHost) : Prop where
  acID : w.1.word .acID ≠ 0
  size : w.1.word .sizeOfBuffer = c.size
  flags : w.1.word .flags = c.flags
  active : w.1.activeTerminal = c.active
  queue : Ring.Queue c.size.toNat w.1.pBuffer (w.1.word .wrOff).toNat (w.1.word .rdOff).toNat
    items staged known released taken seen
  looked : w.2.wrOff.toNat = seen % c.size.toNat
  next : w.2.rdOff.toNat = taken % c.size.toNat
  received : w.2.received = items.take taken

def Up (c : Setting) (items staged : List UInt8) (known : Nat) (w : Memory × UpHost) : Prop :=
  ∃ released taken seen, UpState c items staged known released taken seen w

variable {c : Setting} {items staged : List UInt8} {known : Nat}

namespace UpState

variable {released taken seen : Nat} {w : Memory × UpHost}

/-- The host reads the write offset. -/
theorem look (hw : UpState c items staged known released taken seen w) :
    UpState c items staged known released taken items.length (UpHost.act w .look) :=
  { hw with queue := hw.queue.look, looked := hw.queue.wr_eq }

/-- The host takes the next byte, if it has seen one. -/
theorem take (hw : UpState c items staged known released taken seen w) :
    ∃ taken', UpState c items staged known released taken' seen (UpHost.act w .take) ∧
      (taken' = taken + 1 ∨ taken' = taken ∧ taken = seen) := by
  have hle := hw.queue.taken_le
  have hlt : taken % c.size.toNat < c.size.toNat := Nat.mod_lt _ hw.queue.pos
  show ∃ taken', UpState c items staged known released taken' seen
    (if w.2.rdOff = w.2.wrOff then w else _) ∧ _
  split
  · rename_i heq
    have hoff : taken % c.size.toNat = seen % c.size.toNat := by
      rw [← hw.next, ← hw.looked, heq]
    exact ⟨taken, hw, .inr ⟨rfl, hw.queue.taken_eq_seen hoff⟩⟩
  · rename_i hne
    have hmore : taken < seen := by
      have hdiff : taken ≠ seen := by
        intro heq
        apply hne
        rw [← UInt32.toNat_inj, hw.next, hw.looked, heq]
      omega
    have hcell := hw.queue.cell_taken hmore
    refine ⟨taken + 1, { hw with queue := hw.queue.take hmore, next := ?_, received := ?_ },
      .inl rfl⟩
    · show (wrapAround (w.1.word .sizeOfBuffer) (w.2.rdOff + 1)).toNat = _
      rw [hw.size]
      exact toNat_wrapAround hw.next (by rw [hw.next, UInt32.toNat_one]; omega)
    · show w.2.received ++ [w.1.pBuffer w.2.rdOff.toNat] = _
      rw [List.take_add_one, hcell, hw.received, hw.next]
      rfl

/-- The host moves the read offset. -/
theorem release (hw : UpState c items staged known released taken seen w) :
    UpState c items staged known taken taken seen (UpHost.act w .release) := by
  have hqueue := hw.queue.release hw.next
  refine { hw with acID := ?_, size := ?_, flags := ?_, queue := ?_ }
  · simpa [UpHost.act] using hw.acID
  · simpa [UpHost.act] using hw.size
  · simpa [UpHost.act] using hw.flags
  · simpa [UpHost.act] using hqueue

/-- The target learns what the host has released. -/
theorem learn (hw : UpState c items staged known released taken seen w) :
    UpState c items staged released released taken seen w :=
  { hw with queue := hw.queue.learn }

end UpState

theorem stable_up (c : Setting) (items staged : List UInt8) (known : Nat) :
    Stable UpHost.act (Up c items staged known) := by
  rintro w i ⟨released, taken, seen, hw⟩
  cases i with
  | look => exact ⟨released, taken, items.length, hw.look⟩
  | take =>
    obtain ⟨taken', hw', -⟩ := hw.take
    exact ⟨released, taken', seen, hw'⟩
  | release => exact ⟨taken, taken, seen, hw.release⟩

theorem Up.known_le {w : Memory × UpHost} (h : Up c items staged known w) :
    known ≤ items.length := by
  obtain ⟨released, taken, seen, hw⟩ := h
  have h1 := hw.queue.known_le
  have h2 := hw.queue.released_le
  have h3 := hw.queue.taken_le
  have h4 := hw.queue.seen_le
  omega

theorem Up.fits {w : Memory × UpHost} (h : Up c items staged known w) :
    items.length + staged.length < known + c.size.toNat := by
  obtain ⟨released, taken, seen, hw⟩ := h
  exact hw.queue.fits

/-! ## Single accesses -/

/-- The accesses of the target, with any steps of the host before each. -/
abbrev upHandler : Handler (Memory × UpHost) Access Reply := Handler.interleaved UpHost.act env

section Accesses

variable {E : Stop → Memory × UpHost → Prop} {w : Memory × UpHost}

/-- A load of the read offset, by which the target learns what the host has released. -/
theorem wp_load_rdOff {R : UInt32 → Memory × UpHost → Prop} (h : Up c items staged known w)
    (hR : ∀ v released w', known ≤ released → v.toNat = released % c.size.toNat →
      Up c items staged released w' → R v w') :
    wp upHandler E (load .rdOff) R w := by
  apply wp_ask_of_stable (stable_up c items staged known) _ h
  rintro w' ⟨released, taken, seen, hw⟩
  show R (w'.1.word .rdOff) w'
  exact hR _ released w' hw.queue.known_le hw.queue.rd_eq ⟨released, taken, seen, hw.learn⟩

theorem wp_load_wrOff {R : UInt32 → Memory × UpHost → Prop} (h : Up c items staged known w)
    (hR : ∀ v w', v.toNat = items.length % c.size.toNat → Up c items staged known w' → R v w') :
    wp upHandler E (load .wrOff) R w := by
  apply wp_ask_of_stable (stable_up c items staged known) _ h
  rintro w' ⟨released, taken, seen, hw⟩
  show R (w'.1.word .wrOff) w'
  exact hR _ w' hw.queue.wr_eq ⟨released, taken, seen, hw⟩

theorem wp_load_sizeOfBuffer {R : UInt32 → Memory × UpHost → Prop}
    (h : Up c items staged known w) (hR : ∀ w', Up c items staged known w' → R c.size w') :
    wp upHandler E (load .sizeOfBuffer) R w := by
  apply wp_ask_of_stable (stable_up c items staged known) _ h
  rintro w' ⟨released, taken, seen, hw⟩
  show R (w'.1.word .sizeOfBuffer) w'
  rw [hw.size]
  exact hR w' ⟨released, taken, seen, hw⟩

theorem wp_load_flags {R : UInt32 → Memory × UpHost → Prop} (h : Up c items staged known w)
    (hR : ∀ w', Up c items staged known w' → R c.flags w') :
    wp upHandler E (load .flags) R w := by
  apply wp_ask_of_stable (stable_up c items staged known) _ h
  rintro w' ⟨released, taken, seen, hw⟩
  show R (w'.1.word .flags) w'
  rw [hw.flags]
  exact hR w' ⟨released, taken, seen, hw⟩

theorem wp_loadActiveTerminal {R : UInt8 → Memory × UpHost → Prop}
    (h : Up c items staged known w) (hR : ∀ w', Up c items staged known w' → R c.active w') :
    wp upHandler E loadActiveTerminal R w := by
  apply wp_ask_of_stable (stable_up c items staged known) _ h
  rintro w' ⟨released, taken, seen, hw⟩
  show R w'.1.activeTerminal w'
  rw [hw.active]
  exact hR w' ⟨released, taken, seen, hw⟩

theorem wp_storeActiveTerminal {R : Unit → Memory × UpHost → Prop} {id : UInt8}
    (h : Up c items staged known w)
    (hR : ∀ w', Up { c with active := id } items staged known w' → R () w') :
    wp upHandler E (storeActiveTerminal id) R w := by
  apply wp_ask_of_stable (stable_up c items staged known) _ h
  rintro w' ⟨released, taken, seen, hw⟩
  exact hR _ ⟨released, taken, seen, { hw with active := rfl }⟩

theorem wp_store_flags {R : Unit → Memory × UpHost → Prop} {v : UInt32}
    (h : Up c items staged known w)
    (hR : ∀ w', Up { c with flags := v } items staged known w' → R () w') :
    wp upHandler E (store .flags v) R w := by
  apply wp_ask_of_stable (stable_up c items staged known) _ h
  rintro w' ⟨released, taken, seen, hw⟩
  exact hR _ ⟨released, taken, seen, { hw with flags := by simp [env, Memory.access] }⟩

/-- A store of the write offset behind the staged bytes publishes them. -/
theorem Up.store_wrOff {v : UInt32} (h : Up c items staged known w)
    (hv : v.toNat = (items.length + staged.length) % c.size.toNat) :
    Up c (items ++ staged) [] known (env w (.store .wrOff v)).2 := by
  obtain ⟨released, taken, seen, hw⟩ := h
  have hqueue := hw.queue.publish hv
  have htaken : taken ≤ items.length := Nat.le_trans hw.queue.taken_le hw.queue.seen_le
  refine ⟨released, taken, seen, { hw with queue := ?_, received := ?_ }⟩
  · simpa [env, Memory.access] using hqueue
  · show w.2.received = (items ++ staged).take taken
    rw [hw.received, List.take_append_of_le_length htaken]

theorem wp_store_wrOff {R : Unit → Memory × UpHost → Prop} {v : UInt32}
    (h : Up c items staged known w)
    (hv : v.toNat = (items.length + staged.length) % c.size.toNat)
    (hR : ∀ w', Up c (items ++ staged) [] known w' → R () w') :
    wp upHandler E (store .wrOff v) R w := by
  apply wp_ask_of_stable (stable_up c items staged known) _ h
  intro w' hw'
  exact hR _ (hw'.store_wrOff hv)

/-- A store in the next free cell stages a byte. -/
theorem wp_storeByte {R : Unit → Memory × UpHost → Prop} {i : UInt32} {b : UInt8}
    (h : Up c items staged known w)
    (hroom : items.length + staged.length + 1 < known + c.size.toNat)
    (hi : i.toNat = (items.length + staged.length) % c.size.toNat)
    (hR : ∀ w', Up c items (staged ++ [b]) known w' → R () w') :
    wp upHandler E (storeByte i b) R w := by
  apply wp_ask_of_stable (stable_up c items staged known) _ h
  rintro w' ⟨released, taken, seen, hw⟩
  have hqueue := hw.queue.stage b hroom hi
  exact hR _ ⟨released, taken, seen, { hw with queue := hqueue }⟩

/-- Copying in one piece, into cells of which the target knows that they are free. -/
theorem wp_memcpyTo {R : Unit → Memory × UpHost → Prop} {off : UInt32} {bytes : List UInt8}
    (h : Up c items staged known w)
    (hroom : items.length + staged.length + bytes.length < known + c.size.toNat)
    (hoff : off.toNat = (items.length + staged.length) % c.size.toNat)
    (hend : off.toNat + bytes.length ≤ c.size.toNat)
    (hR : ∀ w', Up c items (staged ++ bytes) known w' → R () w') :
    wp upHandler E (memcpyTo off bytes) R w :=
  wp_memcpyTo_of (J := fun staged w => Up c items staged known w) wp_storeByte h hroom hoff hend hR

/-- Nothing is initialised twice. -/
theorem wp_init {R : Unit → Memory × UpHost → Prop} {size : UInt32} (h : Up c items staged known w)
    (hR : ∀ w', Up c items staged known w' → R () w') : wp upHandler E (init size) R w := by
  apply wp_ask_of_stable (stable_up c items staged known) _ h
  rintro w' ⟨released, taken, seen, hw⟩
  have hbranch : (if w'.1.word .acID = 0 then doInit size else pure ()) = (pure () : TargetM Unit) :=
    if_neg hw.acID
  show wp upHandler E (if w'.1.word .acID = 0 then doInit size else pure ()) R w'
  rw [hbranch]
  exact hR w' ⟨released, taken, seen, hw⟩

end Accesses

end SpiNand.Rtt
