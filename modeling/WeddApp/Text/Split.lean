import Mathlib.Data.List.DropRight

/-!
# Text.Split

A word split at the first or at the last occurrence of a character. A decomposition around the
character is the split at its first occurrence if the part before has none (`first_unique`), and the
split at its last if the part after has none (`last_unique`).
-/

namespace Text

universe u

variable {α : Type u} [DecidableEq α]

def beforeFirst (a : α) (w : List α) : List α := w.takeWhile (· != a)

/-- Empty when `a` does not occur. -/
def afterFirst (a : α) (w : List α) : List α := (w.dropWhile (· != a)).tail

/-- Empty when `a` does not occur. -/
def beforeLast (a : α) (w : List α) : List α := (w.rdropWhile (· != a)).dropLast

def afterLast (a : α) (w : List α) : List α := w.rtakeWhile (· != a)

variable {a b : α} {u v w : List α}

/-! ## The first occurrence -/

@[simp] theorem beforeFirst_self : beforeFirst a (a :: w) = [] := by simp [beforeFirst]

@[simp] theorem afterFirst_self : afterFirst a (a :: w) = w := by simp [afterFirst]

theorem beforeFirst_cons (h : b ≠ a) : beforeFirst a (b :: w) = b :: beforeFirst a w := by
  simp [beforeFirst, h]

theorem afterFirst_cons (h : b ≠ a) : afterFirst a (b :: w) = afterFirst a w := by
  simp [afterFirst, h]

theorem split_first (h : a ∈ w) : w = beforeFirst a w ++ a :: afterFirst a w := by
  induction w with
  | nil => cases h
  | cons b w ih =>
    by_cases hb : b = a
    · subst hb
      simp
    · have hw : a ∈ w := (List.mem_cons.mp h).resolve_left (Ne.symm hb)
      rw [beforeFirst_cons hb, afterFirst_cons hb, List.cons_append, ← ih hw]

theorem first_unique (h : a ∉ u) :
    beforeFirst a (u ++ a :: v) = u ∧ afterFirst a (u ++ a :: v) = v := by
  induction u with
  | nil => simp
  | cons b u ih =>
    simp only [List.mem_cons, not_or] at h
    obtain ⟨hb, ha⟩ := ih h.2
    rw [List.cons_append, beforeFirst_cons (Ne.symm h.1), afterFirst_cons (Ne.symm h.1), ha, hb]
    exact ⟨rfl, rfl⟩

/-! ## The last occurrence -/

theorem beforeLast_concat : beforeLast a (w ++ [b]) = if b = a then w else beforeLast a w := by
  by_cases hb : b = a
  · simp [beforeLast, hb]
  · simp [beforeLast, hb]

theorem afterLast_concat : afterLast a (w ++ [b]) = if b = a then [] else afterLast a w ++ [b] := by
  by_cases hb : b = a
  · simp [afterLast, hb]
  · simp [afterLast, hb]

theorem mem_of_beforeLast (h : beforeLast a w ≠ []) : a ∈ w := by
  by_contra ha
  refine h ?_
  have hnil : w.rdropWhile (· != a) = [] := by
    rw [List.rdropWhile_eq_nil_iff]
    intro b hb
    have hne : b ≠ a := fun he => ha (he ▸ hb)
    simpa using hne
  rw [beforeLast, hnil]
  rfl

theorem split_last (h : a ∈ w) : w = beforeLast a w ++ a :: afterLast a w := by
  induction w using List.reverseRecOn with
  | nil => cases h
  | append_singleton w b ih =>
    rw [beforeLast_concat, afterLast_concat]
    by_cases hb : b = a
    · rw [if_pos hb, if_pos hb, hb]
    · have hw : a ∈ w := by simpa [Ne.symm hb] using h
      rw [if_neg hb, if_neg hb, ← List.cons_append, ← List.append_assoc, ← ih hw]

theorem last_unique (h : a ∉ v) :
    beforeLast a (u ++ a :: v) = u ∧ afterLast a (u ++ a :: v) = v := by
  induction v using List.reverseRecOn with
  | nil =>
    rw [beforeLast_concat, afterLast_concat]
    simp
  | append_singleton v b ih =>
    simp only [List.mem_append, List.mem_singleton, not_or] at h
    obtain ⟨hbefore, hafter⟩ := ih h.1
    rw [← List.cons_append, ← List.append_assoc, beforeLast_concat, afterLast_concat,
      if_neg (Ne.symm h.2), if_neg (Ne.symm h.2), hbefore, hafter]
    exact ⟨rfl, rfl⟩

end Text
