import SpiNand.Bus.Answers
import SpiNand.Driver.DharaAdaptor

/-!
# What the Dhara callbacks return

One pair of lemmas for each callback that reads or copies: what it returns where the page read
or copy of the driver succeeds, and where it does not. The sequence of answers alone decides
which of the two it is (`Reads`, `Copies`), so neither the driver's globals nor the stack
appear, but for the flag that `dhara_nand_copy` declares.
-/

namespace SpiNand

open Interaction Interaction.Prog

variable {ρ : Type} {D : Device ρ} {x : ρ} {answers : Answers} {d : Driver}
  {stack : Nat → Answer}

/-! ## `dhara_nand_is_bad` -/

/-- The two marker bytes as the chip sends them. -/
def markersBad (a : Answer) : Bool :=
  a.bytes badBlockOurByteOffset == badBlockMarkerValue ||
    a.bytes badBlockFactoryByteOffset == badBlockMarkerValue

theorem isBad_outcome_of_reads {j : Nat} (hj : Reads answers j) (b : UInt32) :
    outcome adversary () (dharaNandIsBad b) d answers stack =
      .ok (if markersBad (answers (j + 2)) then DharaError.badBlock.toInt
        else DharaError.none.toInt) := by
  apply outcome_eq
  apply wpS_uninitBool
  intro isBad
  apply wpS_bind
  apply wpS_checkBadBlock
  intro markers hlen
  apply device_readPage_of_reads hj rfl
  intro s
  rw [if_pos rfl]
  apply wpS_if_success
  -- the buffer starts with the bytes received
  have hbad : ((received badBlockAreaLength markers (answers (j + 2))).getD
      badBlockOurByteOffset 0 == badBlockMarkerValue ||
      (received badBlockAreaLength markers (answers (j + 2))).getD
      badBlockFactoryByteOffset 0 == badBlockMarkerValue) = markersBad (answers (j + 2)) := rfl
  apply wpS_ite
  · intro hmarked
    apply wpS_pure
    rw [if_pos (hbad.symm.trans hmarked)]
  · intro hmarked
    apply wpS_pure
    rw [if_neg fun h => hmarked (hbad.trans h)]

theorem isBad_outcome_of_not_reads (hnone : ∀ j, ¬ Reads answers j) (b : UInt32) :
    outcome adversary () (dharaNandIsBad b) d answers stack = .ok DharaError.badBlock.toInt := by
  apply outcome_eq
  apply wpS_uninitBool
  intro isBad
  apply wpS_bind
  apply wpS_checkBadBlock
  intro markers hlen
  apply device_readPage_of_not_reads hnone
  intro read s hst
  exact wpS_if_failed hst (wpS_pure rfl)

/-! ## `dhara_nand_is_free` -/

/-- The answer of the device to the READ_CACHE of the page's ECC bytes. -/
def eccAnswer (D : Device ρ) (x : ρ) (answers : Answers) (p : UInt32) (j : Nat) : Answer :=
  let loaded := D.next x (.pageRead (rowOf p)) (D.view x (.pageRead (rowOf p)) (answers 0))
  D.view loaded (.readCache eccAreaOffset.toNat eccAreaLength) (answers (j + 2))

theorem isFree_outcome_of_reads {j : Nat} (hj : Reads answers j) (p : UInt32) :
    outcome D x (dharaNandIsFree p) d answers stack =
      .ok (if ∀ i < eccAreaLength, (eccAnswer D x answers p j).bytes i = eccUnprogrammedValue
        then 0 else 1) := by
  apply outcome_eq
  apply wpS_uninitBool
  intro isFree
  apply wpS_bind
  apply wpS_isFree
  intro eccData hlen
  apply device_readPage_of_reads hj rfl
  intro s
  rw [if_pos rfl]
  apply wpS_if_success
  apply wpS_pure
  -- the buffer holds the received bytes and nothing else
  have hdata : ∀ a : Answer, received eccAreaLength eccData a =
      (List.range eccAreaLength).map a.bytes := by
    intro a
    rw [received, ← hlen, List.drop_length, List.append_nil]
  have hscan : scanFree (received eccAreaLength eccData (eccAnswer D x answers p j)) true = true ↔
      ∀ i < eccAreaLength, (eccAnswer D x answers p j).bytes i = eccUnprogrammedValue := by
    rw [hdata, scanFree_iff]
    simp only [List.mem_map, List.mem_range, forall_exists_index, and_imp,
      forall_apply_eq_imp_iff₂, true_and]
  exact congrArg Except.ok (if_congr hscan.symm rfl rfl)

theorem isFree_outcome_of_not_reads (hnone : ∀ j, ¬ Reads answers j) (p : UInt32) :
    outcome D x (dharaNandIsFree p) d answers stack = .ok 0 := by
  apply outcome_eq
  apply wpS_uninitBool
  intro isFree
  apply wpS_bind
  apply wpS_isFree
  intro eccData hlen
  apply device_readPage_of_not_reads hnone
  intro read s hst
  exact wpS_if_failed hst (wpS_pure rfl)

/-! ## `dhara_nand_read` and `dhara_nand_copy` -/

/-- What `*err = e` followed by a return of `-1` leaves, for a pointer that may be `NULL`. -/
def failWith (err : Option DharaError) (e : DharaError) : Except Halt (Int × Option DharaError) :=
  match err with
  | some _ => .ok (-1, some e)
  | none => .error .nullWrite

/-- The value and `*err` of `dhara_nand_read`, without the buffer. -/
def readOutcome (p offset length : UInt32) (data : List UInt8) (err : Option DharaError)
    (d : Driver) (answers : Answers) (stack : Nat → Answer) :
    Except Halt (Int × Option DharaError) :=
  (outcome adversary () (dharaNandRead p offset length data err) d answers stack).map
    fun r => (r.1, r.2.1)

theorem wpS_assignErr {err : Option DharaError} {e : DharaError} {s : ρ × Answers} :
    wpS D.handler (fun h _ => failWith err e = .error h) (assignErr err e)
      (fun err' _ => failWith err e = .ok (-1, err')) s := by
  cases err with
  | none => exact fun _ => rfl
  | some e₀ => exact wpS_pure rfl

theorem read_outcome_of_reads {j : Nat} (hj : Reads answers j) (p offset length : UInt32)
    (data : List UInt8) (err : Option DharaError) :
    readOutcome p offset length data err d answers stack =
      if nandStatusToEcc ((answers (j + 1)).bytes 0) = .fatal then failWith err .ecc
      else .ok (0, err) := by
  apply outcome_map_eq
  apply wpS_uninitBool
  intro eccErr
  apply wpS_bind
  apply device_readPage_of_reads hj rfl
  intro s
  apply wpS_if_success
  apply wpS_ite
  · intro hfatal
    rw [if_pos (of_decide_eq_true hfatal)]
    exact wpS_bind (wpS_mono wpS_assignErr fun err' s' h => wpS_pure h)
  · intro hfine
    apply wpS_pure
    rw [if_neg fun hfatal => hfine (decide_eq_true hfatal)]

theorem read_outcome_of_not_reads (hnone : ∀ j, ¬ Reads answers j) (p offset length : UInt32)
    (data : List UInt8) (err : Option DharaError) :
    readOutcome p offset length data err d answers stack = .ok (-1, err) := by
  apply outcome_map_eq
  apply wpS_uninitBool
  intro eccErr
  apply wpS_bind
  apply device_readPage_of_not_reads hnone
  intro read s hst
  exact wpS_if_failed hst (wpS_pure rfl)

/-- A copy that succeeds leaves the flag as the adaptor declared it: the adaptor then takes what
is on the stack for the ECC result. -/
theorem copy_outcome_of_copies {j k : Nat} (h : Copies answers j k) (src dst : UInt32)
    (err : Option DharaError) :
    outcome adversary () (dharaNandCopy src dst err) d answers stack =
      if (stack 0).bytes 0 ≠ 0 then failWith err .ecc else .ok (0, err) := by
  unfold dharaNandCopy
  rw [outcome_uninitBool]
  apply outcome_eq
  refine wpS_bind (device_copyPage (fun j' k' _ s => ?_) fun hnone => absurd h (hnone j k))
  apply wpS_if_success
  apply wpS_ite
  · intro hgarbage
    rw [if_pos (of_decide_eq_true hgarbage)]
    exact wpS_bind (wpS_mono wpS_assignErr fun err' s' h => wpS_pure h)
  · intro hclean
    apply wpS_pure
    rw [if_neg fun hgarbage => hclean (decide_eq_true hgarbage)]

theorem copy_outcome_of_not_copies (hnone : ∀ j k, ¬ Copies answers j k) (src dst : UInt32)
    (err : Option DharaError) :
    outcome adversary () (dharaNandCopy src dst err) d answers stack = .ok (-1, err) := by
  apply outcome_eq
  apply wpS_uninitBool
  intro eccErr
  apply wpS_bind
  apply device_copyPage (fun j k h => absurd h (hnone j k))
  intro _ st flag s hst
  exact wpS_if_failed hst (wpS_pure rfl)

end SpiNand
