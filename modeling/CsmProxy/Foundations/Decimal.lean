import Mathlib.Data.Int.Cast.Basic

/-!
# The decimal notation of integers

`decimal` writes an integer with a minus sign and digits, `readInt` reads digits with or
without a minus sign before them and accepts nothing else. What `decimal` writes,
`readInt` reads back.
-/

namespace CsmProxy.Foundations

/-- The characters of the decimal notation. -/
def decimalLetter (c : Char) : Bool := c.isDigit || c = '-'

def decimal (z : Int) : List Char := (toString z).toList

/-- The value of a nonempty text of digits. -/
def readNat (text : List Char) : Option Nat :=
  if text = [] ∨ ¬ text.all Char.isDigit then none else some (Nat.ofDigitChars 10 text 0)

def readInt : List Char → Option Int
  | '-' :: digits => (readNat digits).map fun n : Nat => -(n : Int)
  | digits => (readNat digits).map fun n : Nat => (n : Int)

/-! ## The notation -/

theorem decimal_natCast (n : Nat) : decimal n = Nat.toDigits 10 n := by
  rw [decimal, Int.toString_eq_repr, Int.repr_eq_if, if_pos (Int.natCast_nonneg n),
    Int.toNat_natCast, Nat.toList_repr]

theorem decimal_negSucc (n : Nat) : decimal (Int.negSucc n) = '-' :: Nat.toDigits 10 (n + 1) := by
  rw [decimal, Int.toString_eq_repr, Int.repr_eq_if, if_neg (by omega), Int.neg_negSucc,
    String.toList_append, Int.toNat_natCast, Nat.toList_repr]
  rfl

theorem isDigit_of_mem_toDigits {n : Nat} {c : Char} (h : c ∈ Nat.toDigits 10 n) : c.isDigit :=
  Nat.isDigit_of_mem_toDigits (by decide) (by decide) h

theorem decimalLetter_of_mem {z : Int} {c : Char} (h : c ∈ decimal z) : decimalLetter c := by
  unfold decimalLetter
  cases z with
  | ofNat n =>
    change c ∈ decimal (n : Int) at h
    rw [decimal_natCast] at h
    rw [isDigit_of_mem_toDigits h, Bool.true_or]
  | negSucc n =>
    rw [decimal_negSucc] at h
    rcases List.mem_cons.mp h with rfl | h
    · rfl
    · rw [isDigit_of_mem_toDigits h, Bool.true_or]

/-! ## Reading it back -/

theorem readNat_toDigits (n : Nat) : readNat (Nat.toDigits 10 n) = some n := by
  have hdigits : (Nat.toDigits 10 n).all Char.isDigit = true :=
    List.all_eq_true.mpr fun c hc => isDigit_of_mem_toDigits hc
  rw [readNat, if_neg (by simp [hdigits]), Nat.ofDigitChars_ten_toDigits]

/-- A text without a minus sign before it is read as a natural number. -/
theorem readInt_of_digits {text : List Char} (h : ∀ c ∈ text, c.isDigit) :
    readInt text = (readNat text).map fun n : Nat => (n : Int) := by
  unfold readInt
  split
  · exact absurd (h '-' List.mem_cons_self) (by decide)
  · rfl

theorem readInt_decimal (z : Int) : readInt (decimal z) = some z := by
  cases z with
  | ofNat n =>
    change readInt (decimal (n : Int)) = some (n : Int)
    rw [decimal_natCast, readInt_of_digits fun c hc => isDigit_of_mem_toDigits hc,
      readNat_toDigits, Option.map_some]
  | negSucc n =>
    rw [decimal_negSucc, readInt, readNat_toDigits, Option.map_some, Int.negSucc_eq]
    rfl

end CsmProxy.Foundations
