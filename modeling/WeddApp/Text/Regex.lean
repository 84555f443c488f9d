import Mathlib.Data.List.Basic

/-!
# Text.Regex

Regular expressions over character classes, matched against a whole word by derivatives.
-/

namespace Text

universe u

inductive Regex (α : Type u) where
  | empty
  | eps
  | cls (p : α → Bool)
  | seq (r s : Regex α)
  | alt (r s : Regex α)
  | star (r : Regex α)

namespace Regex

variable {α : Type u}

def plus (r : Regex α) : Regex α := .seq r (.star r)

def between (r : Regex α) : Nat → Nat → Regex α
  | 0, 0 => .eps
  | 0, hi + 1 => .alt .eps (.seq r (between r 0 hi))
  | _ + 1, 0 => .empty
  | lo + 1, hi + 1 => .seq r (between r lo hi)

def nullable : Regex α → Bool
  | .empty => false
  | .eps => true
  | .cls _ => false
  | .seq r s => r.nullable && s.nullable
  | .alt r s => r.nullable || s.nullable
  | .star _ => true

/-- What is left to match after the character `a`. -/
def deriv (a : α) : Regex α → Regex α
  | .empty => .empty
  | .eps => .empty
  | .cls p => if p a then .eps else .empty
  | .seq r s =>
    if r.nullable then .alt (.seq (r.deriv a) s) (s.deriv a) else .seq (r.deriv a) s
  | .alt r s => .alt (r.deriv a) (s.deriv a)
  | .star r => .seq (r.deriv a) (.star r)

def accepts (r : Regex α) : List α → Bool
  | [] => r.nullable
  | a :: w => (r.deriv a).accepts w

end Regex
end Text
