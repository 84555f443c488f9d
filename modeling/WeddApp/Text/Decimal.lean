import Mathlib.Data.Nat.Basic

/-!
# Text.Decimal

Decimal renderings. `toString` of a number determines the number, also behind a fixed prefix;
`padLeft` renders with leading zeros to a fixed width.
-/

namespace Text

theorem toString_injective {m n : Nat} (h : toString m = toString n) : m = n := by
  have hl := congrArg String.toList h
  rw [Nat.toString_eq_repr, Nat.toString_eq_repr, Nat.toList_repr, Nat.toList_repr] at hl
  have hd := congrArg (fun l => Nat.ofDigitChars 10 l 0) hl
  simpa only [Nat.ofDigitChars_ten_toDigits] using hd

theorem append_left_injective {p s t : String} (h : p ++ s = p ++ t) : s = t := by
  have hl := congrArg String.toList h
  rw [String.toList_append, String.toList_append] at hl
  exact String.toList_injective (List.append_cancel_left hl)

theorem append_toString_injective {p : String} {m n : Nat} (h : p ++ toString m = p ++ toString n) :
    m = n := toString_injective (append_left_injective h)

/-- `n` in decimal, with leading zeros up to `width` digits. -/
def padLeft (width n : Nat) : String :=
  String.ofList (List.replicate (width - (Nat.toDigits 10 n).length) '0' ++ Nat.toDigits 10 n)

example : padLeft 4 7 = "0007" := by decide

/-- A string starts with a prefix. -/
def hasPrefix (p s : String) : Bool := p.toList.isPrefixOf s.toList

theorem hasPrefix_append (p s : String) : hasPrefix p (p ++ s) = true := by
  rw [hasPrefix, String.toList_append, List.isPrefixOf_iff_prefix]
  exact List.prefix_append _ _

end Text
