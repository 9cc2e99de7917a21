/-!
Integers of 64 bits with their sign. Whatever comes with an integer of its own, be it a document, a
computation or a text, keeps it only where it fits.
-/

namespace Scriptlet.Number

/-- The integer has 64 bits. -/
def Fits (n : Int) : Prop :=
  -0x8000000000000000 ≤ n ∧ n < 0x8000000000000000

instance (n : Int) : Decidable (Fits n) :=
  inferInstanceAs (Decidable (_ ∧ _))

/-- The integer of 64 bits that a mathematical integer is. -/
def int64? (n : Int) : Option Int64 :=
  if Fits n then some (Int64.ofInt n) else none

theorem fits_toInt (n : Int64) : Fits n.toInt :=
  ⟨n.le_toInt, n.toInt_lt⟩

theorem int64?_of_fits {n : Int} (h : Fits n) : ∃ m, int64? n = some m ∧ m.toInt = n :=
  ⟨Int64.ofInt n, if_pos h, Int64.toInt_ofInt_of_le h.1 h.2⟩

theorem int64?_of_not_fits {n : Int} (h : ¬ Fits n) : int64? n = none :=
  if_neg h

theorem int64?_toInt (n : Int64) : int64? n.toInt = some n := by
  rw [int64?, if_pos (fits_toInt n), Int64.ofInt_toInt]

end Scriptlet.Number
