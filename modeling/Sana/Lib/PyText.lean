import Mathlib.Data.List.Basic

/-!
# Strings that are no Unicode texts

A Python string is a sequence of code points, and a surrogate on its own is one of them. Only a
string without them can be encoded.
-/

namespace Sana.Lib

/-- A code point: a scalar value, or the surrogate `0xD800 + n`. -/
inductive CodePoint where
  | scalar (c : Char)
  | lone (n : Fin 2048)
deriving DecidableEq, Repr

/-- `str`. -/
abbrev PyStr := List CodePoint

namespace PyStr

-- dictionaries compare their keys by this equality
instance : BEq PyStr := instBEqOfDecidableEq

/-- A text as a string. -/
def ofString (s : String) : PyStr := s.toList.map .scalar

theorem ofString_injective : Function.Injective ofString := fun _ _ h =>
  String.toList_inj.mp (List.map_injective_iff.mpr (fun _ _ h => CodePoint.scalar.inj h) h)

@[simp] theorem ofString_inj {s t : String} : ofString s = ofString t ↔ s = t :=
  ofString_injective.eq_iff

@[simp] theorem length_ofString (s : String) : (ofString s).length = s.length := by
  rw [ofString, List.length_map, String.length_toList]

end PyStr

end Sana.Lib
