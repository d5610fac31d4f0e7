import Mathlib.Data.Nat.ModEq
import Mathlib.Tactic.Ring

/-!
# Big-endian bytes

`beBytes n x` is the number `x` on `n` bytes, most significant first, and `beNat` reads such a
list back. Reading back what was written gives the number modulo `256 ^ n` (`beNat_beBytes`).
The lemmas at the end are about numbers put together from bytes by shifts.
-/

namespace Interaction

/-- The last `n` base-256 digits of `x`, most significant first. -/
def beBytes : Nat → Nat → List UInt8
  | 0, _ => []
  | n + 1, x => UInt8.ofNat (x / 256 ^ n) :: beBytes n x

/-- The number that a list of base-256 digits denotes, most significant first. -/
def beNat : List UInt8 → Nat
  | [] => 0
  | b :: bs => b.toNat * 256 ^ bs.length + beNat bs

@[simp] theorem length_beBytes (n x : Nat) : (beBytes n x).length = n := by
  induction n with
  | zero => rfl
  | succ n ih => simp [beBytes, ih]

/-- Reading back `n` bytes of `x` gives `x` modulo `256 ^ n`. -/
theorem beNat_beBytes (n x : Nat) : beNat (beBytes n x) = x % 256 ^ n := by
  induction n with
  | zero => simp [beBytes, beNat, Nat.mod_one]
  | succ n ih =>
    have hdigit : (UInt8.ofNat (x / 256 ^ n)).toNat = x / 256 ^ n % 256 := by simp
    rw [beBytes, beNat, ih, length_beBytes, hdigit, Nat.pow_succ, Nat.mod_mul]
    ring

/-- The digits above those that are written do not matter. -/
theorem beBytes_mod {n k : Nat} (h : n ≤ k) (x : Nat) : beBytes n (x % 256 ^ k) = beBytes n x := by
  induction n with
  | zero => rfl
  | succ n ih =>
    obtain ⟨m, rfl⟩ := Nat.exists_eq_add_of_lt h
    have hsplit : 256 ^ (n + m + 1) = 256 ^ n * (256 ^ m * 256) := by ring
    have hdigit : x % 256 ^ (n + m + 1) / 256 ^ n % 256 = x / 256 ^ n % 256 := by
      rw [hsplit, Nat.mod_mul_right_div_self, Nat.mod_mul_left_mod]
    have hbyte : UInt8.ofNat (x % 256 ^ (n + m + 1) / 256 ^ n) = UInt8.ofNat (x / 256 ^ n) := by
      apply UInt8.toNat_inj.mp
      simpa using hdigit
    rw [beBytes, beBytes, hbyte, ih (Nat.le_of_succ_le h)]

/-- A digit shifted in from the right is written last. -/
theorem beBytes_mul_base (n x : Nat) : beBytes (n + 1) (x * 256) = beBytes n x ++ [0] := by
  induction n with
  | zero =>
    have hzero : UInt8.ofNat (x * 256 / 256 ^ 0) = 0 := by
      apply UInt8.toNat_inj.mp
      simp
    exact congrArg (fun b => [b]) hzero
  | succ n ih =>
    have hdigit : x * 256 / 256 ^ (n + 1) = x / 256 ^ n := by
      rw [Nat.pow_succ]
      exact Nat.mul_div_mul_right x (256 ^ n) (by omega)
    rw [beBytes, hdigit, ih]
    rfl

/-! ## Shifts -/

/-- A shift that loses no bit is a multiplication. -/
theorem toNat_shiftLeft_of_lt {x n : UInt32} (hn : n.toNat < 32)
    (hx : x.toNat * 2 ^ n.toNat < 2 ^ 32) : (x <<< n).toNat = x.toNat * 2 ^ n.toNat := by
  rw [UInt32.toNat_shiftLeft, Nat.mod_eq_of_lt hn, Nat.shiftLeft_eq, Nat.mod_eq_of_lt hx]

/-- A byte may be shifted to any of the four places in a word. -/
theorem toNat_byte_shiftLeft (b : UInt8) {n : UInt32} (hn : n.toNat ≤ 24) :
    (b.toUInt32 <<< n).toNat = b.toNat * 2 ^ n.toNat := by
  have hb : b.toNat < 2 ^ 8 := b.toNat_lt
  have hpow : 2 ^ n.toNat ≤ 2 ^ 24 := Nat.pow_le_pow_right (by decide) hn
  have hlt : b.toUInt32.toNat * 2 ^ n.toNat < 2 ^ 32 := by
    rw [UInt8.toNat_toUInt32]
    calc b.toNat * 2 ^ n.toNat ≤ b.toNat * 2 ^ 24 := Nat.mul_le_mul_left _ hpow
      _ < 2 ^ 32 := by omega
  rw [toNat_shiftLeft_of_lt (by omega) hlt, UInt8.toNat_toUInt32]

/-- Parts that do not overlap are added. -/
theorem or_mul_two_pow {x k : Nat} (hx : x < 2 ^ k) (y : Nat) :
    x ||| y * 2 ^ k = x + y * 2 ^ k := by
  have hor := Nat.two_pow_add_eq_or_of_lt hx y
  rw [Nat.or_comm, Nat.mul_comm y, ← hor, Nat.add_comm]

end Interaction
