import Mathlib.Data.Nat.Init

/-!
Field literals rest on a proof that the number is at least two. These instances give that proof a name, so
that a definition refers to it instead of to a lemma generated where the literal first occurs.
-/

namespace Pvugc.Algebra

instance atLeastTwo_two : Nat.AtLeastTwo 2 := ⟨by decide⟩

instance atLeastTwo_three : Nat.AtLeastTwo 3 := ⟨by decide⟩

instance atLeastTwo_five : Nat.AtLeastTwo 5 := ⟨by decide⟩

instance atLeastTwo_six : Nat.AtLeastTwo 6 := ⟨by decide⟩

instance atLeastTwo_seven : Nat.AtLeastTwo 7 := ⟨by decide⟩

instance atLeastTwo_twelve : Nat.AtLeastTwo 12 := ⟨by decide⟩

end Pvugc.Algebra
