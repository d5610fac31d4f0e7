import SpiNand.Adaptor.Outcomes

/-!
# Free pages

Dhara reads `dhara_nand_is_free` as a truth value. The driver's `nand_is_free` sets its flag for a
page whose ECC bytes are erased, and the adaptor returns the flag's negation: `is_free ? 0 : 1`.
So on every page that could be read the answer is the wrong one, and only where the read failed
is it the one Dhara expects.
-/

namespace SpiNand

open Interaction

/-- A chip with the given pages: PAGE_READ selects one, READ_CACHE sends its bytes. The HAL's
results and the status bytes are those of the sequence. -/
def pagesDevice (pages : Nat → Nat → UInt8) : Device Nat where
  view row c a :=
    match c with
    | .readCache column _ => ⟨a.status, fun i => pages row (column + i)⟩
    | _ => a
  next row c _ :=
    match c with
    | .pageRead row' => row'
    | _ => row
  view_getStatus _ _ := rfl
  next_getStatus _ _ := rfl
  status_view row c a _ := by cases c <;> rfl

/-- The ECC bytes of the page are those of an erased page. -/
def EccErased (pages : Nat → Nat → UInt8) (p : UInt32) : Prop :=
  ∀ i < eccAreaLength, pages (rowOf p) (eccAreaOffset.toNat + i) = eccUnprogrammedValue

instance (pages : Nat → Nat → UInt8) (p : UInt32) : Decidable (EccErased pages p) :=
  inferInstanceAs (Decidable (∀ i < _, _))

/-- `dhara_nand_is_free` returns, and the value is nonzero if and only if the page could be read
and its ECC bytes are erased. -/
def IsFreeAgrees (pages : Nat → Nat → UInt8) (row : Nat) (p : UInt32) (d : Driver)
    (answers : Answers) (stack : Nat → Answer) : Prop :=
  ∃ ret, outcome (pagesDevice pages) row (dharaNandIsFree p) d answers stack = .ok ret ∧
    (ret ≠ 0 ↔ (∃ j, Reads answers j) ∧ EccErased pages p)

/-- **`dhara_nand_is_free`.** Its answer is the one Dhara expects exactly where the page could not
be read. -/
theorem isFreeAgrees_iff (pages : Nat → Nat → UInt8) (row : Nat) (p : UInt32) (d : Driver)
    (answers : Answers) (stack : Nat → Answer) :
    IsFreeAgrees pages row p d answers stack ↔ ¬ ∃ j, Reads answers j := by
  constructor
  · rintro ⟨ret, hret, hagrees⟩ ⟨j, hj⟩
    -- the page could be read: the answer is the negation of the flag
    have houtcome : outcome (pagesDevice pages) row (dharaNandIsFree p) d answers stack =
        .ok (if EccErased pages p then 0 else 1) := isFree_outcome_of_reads hj p
    obtain rfl := Except.ok.inj (hret.symm.trans houtcome)
    by_cases herased : EccErased pages p
    · rw [if_pos herased] at hagrees
      exact hagrees.mpr ⟨⟨j, hj⟩, herased⟩ rfl
    · rw [if_neg herased] at hagrees
      exact herased (hagrees.mp (by decide)).2
  · intro hnone
    refine ⟨0, isFree_outcome_of_not_reads (not_exists.mp hnone) p, ?_⟩
    exact ⟨fun h => absurd rfl h, fun h => absurd h.1 hnone⟩

/-- On an erased page, with every transfer successful and the chip always ready, the answer is
`0`: not free. -/
theorem isFree_erased_page :
    outcome (pagesDevice fun _ _ => 0xFF) 0 (dharaNandIsFree 0) Driver.initial
        (fun _ => .zero) (fun _ => .zero) = .ok 0 ∧
      ¬ IsFreeAgrees (fun _ _ => 0xFF) 0 0 Driver.initial (fun _ => .zero)
        (fun _ => .zero) := by
  have hzero : outcome (pagesDevice fun _ _ => 0xFF) 0 (dharaNandIsFree 0) Driver.initial
      (fun _ => .zero) (fun _ => .zero) = .ok 0 :=
    isFree_outcome_of_reads reads_zero 0
  refine ⟨hzero, ?_⟩
  rintro ⟨ret, hret, hagrees⟩
  obtain rfl := Except.ok.inj (hret.symm.trans hzero)
  exact hagrees.mpr ⟨⟨0, reads_zero⟩, fun i hi => rfl⟩ rfl

end SpiNand
