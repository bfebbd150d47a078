import Mathlib.Data.Nat.Init

/-!
# Numerals

The numerals of the thresholds have instances of their own, so that every module elaborates them
to the same terms.
-/

namespace AutowareUniverse.Library.Numerals

instance two : Nat.AtLeastTwo 2 := ⟨by decide⟩

instance three : Nat.AtLeastTwo 3 := ⟨by decide⟩

instance four : Nat.AtLeastTwo 4 := ⟨by decide⟩

instance five : Nat.AtLeastTwo 5 := ⟨by decide⟩

instance six : Nat.AtLeastTwo 6 := ⟨by decide⟩

instance ten : Nat.AtLeastTwo 10 := ⟨by decide⟩

instance hundred : Nat.AtLeastTwo 100 := ⟨by decide⟩

instance hundredEighty : Nat.AtLeastTwo 180 := ⟨by decide⟩

instance thousand : Nat.AtLeastTwo 1000 := ⟨by decide⟩

instance tenThousand : Nat.AtLeastTwo 10000 := ⟨by decide⟩

instance hundredThousand : Nat.AtLeastTwo 100000 := ⟨by decide⟩

instance million : Nat.AtLeastTwo 1000000 := ⟨by decide⟩

instance hundredMillion : Nat.AtLeastTwo 100000000 := ⟨by decide⟩

instance tenBillion : Nat.AtLeastTwo 10000000000 := ⟨by decide⟩

instance neZero : @NeZero ℕ Zero.ofOfNat0 4 := ⟨by decide⟩

end AutowareUniverse.Library.Numerals
