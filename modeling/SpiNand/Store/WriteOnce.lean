import Mathlib.Logic.Function.Basic

/-!
# Write-once page stores

A page store whose cells can be programmed in one direction only, and go back only when a whole
block of pages is erased: flash memory, as its user sees it. Nothing is assumed of pages,
blocks and cells; how a cell is programmed is a `Medium`, a meet with a greatest value.

* **`Access.apply`** is what an access does to a store, and **`Medium.le`** the order in which
  cells are programmed.
* **`apply_le`**: every access that does not erase a page moves its cells down.
* **`apply_of_not_touches`**: an access changes no page but those it names.
* **`apply_congr`**, **`apply_outside`**: accesses to different sets of blocks do not interfere.
-/

namespace WriteOnce

variable {P B C V : Type}

/-- How cells are programmed: a new value is met with the old one, `erased` is the greatest. -/
structure Medium (V : Type) where
  erased : V
  meet : V → V → V
  meet_assoc : ∀ a b c, meet (meet a b) c = meet a (meet b c)
  meet_comm : ∀ a b, meet a b = meet b a
  meet_self : ∀ a, meet a a = a
  erased_meet : ∀ a, meet erased a = a

namespace Medium

variable (M : Medium V)

/-- `a` can be reached from `b` by programming. -/
def le (a b : V) : Prop := M.meet a b = a

theorem le_refl (a : V) : M.le a a := M.meet_self a

theorem meet_le_left (a b : V) : M.le (M.meet a b) a := by
  show M.meet (M.meet a b) a = M.meet a b
  rw [M.meet_comm (M.meet a b) a, ← M.meet_assoc, M.meet_self]

theorem meet_erased (a : V) : M.meet a M.erased = a := by
  rw [M.meet_comm, M.erased_meet]

end Medium

/-- What each cell of each page holds. -/
abbrev Store (P C V : Type) := P → C → V

/-- The accesses to a store. -/
inductive Access (P B C V : Type)
  | erase (b : B)
  | program (p : P) (data : C → V)
  | copy (src dst : P)
  | read (p : P)

namespace Access

variable [DecidableEq P] [DecidableEq B] (M : Medium V) (block : P → B)

/-- What an access does. -/
def apply : Access P B C V → Store P C V → Store P C V
  | .erase b, s => fun p => if block p = b then fun _ => M.erased else s p
  | .program p data, s => Function.update s p fun c => M.meet (s p c) (data c)
  | .copy src dst, s => Function.update s dst fun c => M.meet (s dst c) (s src c)
  | .read _, s => s

/-- The access erases the page. -/
def Erases (a : Access P B C V) (p : P) : Prop := a = .erase (block p)

/-- The access may change the page. -/
def Touches (p : P) : Access P B C V → Prop
  | .erase b => block p = b
  | .program p' _ => p = p'
  | .copy _ dst => p = dst
  | .read _ => False

variable {M block} {s : Store P C V} {a : Access P B C V} {p : P}

/-- Pages an access does not name stay as they are. -/
theorem apply_of_not_touches (h : ¬ a.Touches block p) : a.apply M block s p = s p := by
  cases a with
  | erase b => exact if_neg h
  | program p' data => exact Function.update_of_ne h _ _
  | copy src dst => exact Function.update_of_ne h _ _
  | read p' => rfl

/-- Without an erase, cells only move down. -/
theorem apply_le (h : ¬ a.Erases block p) (c : C) : M.le (a.apply M block s p c) (s p c) := by
  by_cases htouch : a.Touches block p
  · cases a with
    | erase b => exact absurd (congrArg Access.erase htouch.symm) h
    | program p' data =>
      obtain rfl : p = p' := htouch
      simp only [apply, Function.update_self]
      exact M.meet_le_left _ _
    | copy src dst =>
      obtain rfl : p = dst := htouch
      simp only [apply, Function.update_self]
      exact M.meet_le_left _ _
    | read p' => exact htouch.elim
  · rw [apply_of_not_touches htouch]
    exact M.le_refl _

/-- Every cell of an erased page is erased. -/
theorem apply_of_erases (h : a.Erases block p) (c : C) : a.apply M block s p c = M.erased := by
  subst h
  simp [apply]

/-- A cell that is programmed with the erased value keeps its value. -/
theorem program_erased {data : C → V} {c : C} (h : data c = M.erased) (p' : P) :
    (program p' data : Access P B C V).apply M block s p c = s p c := by
  by_cases hp : p = p'
  · subst hp
    simp only [apply, Function.update_self, h, M.meet_erased]
  · have htouch : ¬ (program p' data : Access P B C V).Touches block p := hp
    exact congrFun (apply_of_not_touches htouch) c

/-! ## Sets of blocks -/

/-- The blocks of the pages an access names. -/
def blocks (block : P → B) : Access P B C V → List B
  | .erase b => [b]
  | .program p _ => [block p]
  | .copy src dst => [block src, block dst]
  | .read p => [block p]

/-- The access stays within a set of blocks. -/
def Within (block : P → B) (S : B → Bool) (a : Access P B C V) : Prop :=
  ∀ b ∈ a.blocks block, S b = true

variable {S : B → Bool} {s' : Store P C V}

/-- Stores that agree on a set of blocks still do after an access within it. -/
theorem apply_congr (ha : a.Within block S) (hagree : ∀ p, S (block p) = true → s p = s' p) :
    ∀ p, S (block p) = true → a.apply M block s p = a.apply M block s' p := by
  intro p hp
  cases a with
  | erase b =>
    simp only [apply]
    split
    · rfl
    · exact hagree p hp
  | program p' data =>
    by_cases heq : p = p'
    · subst heq
      simp only [apply, Function.update_self, hagree p hp]
    · simp only [apply, Function.update_of_ne heq, hagree p hp]
  | copy src dst =>
    have hsrc : S (block src) = true := ha _ (by simp [blocks])
    by_cases heq : p = dst
    · subst heq
      simp only [apply, Function.update_self, hagree p hp, hagree src hsrc]
    · simp only [apply, Function.update_of_ne heq, hagree p hp]
  | read p' => exact hagree p hp

/-- An access outside a set of blocks changes nothing in it. -/
theorem apply_outside (ha : a.Within block fun b => !S b) :
    ∀ p, S (block p) = true → a.apply M block s p = s p := by
  intro p hp
  apply apply_of_not_touches
  intro htouch
  have hout : S (block p) = false := by
    cases a with
    | erase b =>
      have hb : block p = b := htouch
      have hnot := ha b (by simp [blocks])
      simpa [hb] using hnot
    | program p' data =>
      have hp' : p = p' := htouch
      have hnot := ha (block p') (by simp [blocks])
      simpa [hp'] using hnot
    | copy src dst =>
      have hdst : p = dst := htouch
      have hnot := ha (block dst) (by simp [blocks])
      simpa [hdst] using hnot
    | read p' => exact htouch.elim
  rw [hp] at hout
  exact Bool.noConfusion hout

end Access

end WriteOnce
