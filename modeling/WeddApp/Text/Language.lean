import Mathlib.Computability.Language
import WeddApp.Text.Regex

/-!
# Text.Language

The language of a regular expression, and the matcher proved against it: `accepts` accepts a word
exactly if it is in the language (`accepts_iff`).

* `mem_deriv`: taking a derivative drops the first character.
* `mem_plus_cls`, `mem_between_cls`: repetitions of a character class, as conditions on the length and
  on each character.
-/

namespace Text.Regex

open Computability

universe u

variable {α : Type u}

def language : Regex α → Language α
  | .empty => 0
  | .eps => 1
  | .cls p => {w | ∃ a, w = [a] ∧ p a = true}
  | .seq r s => r.language * s.language
  | .alt r s => r.language + s.language
  | .star r => r.language∗

variable {r s : Regex α} {p : α → Bool} {a : α} {w : List α}

@[simp] theorem mem_empty : w ∉ (empty : Regex α).language := Language.notMem_zero w

@[simp] theorem mem_eps : w ∈ (eps : Regex α).language ↔ w = [] := Language.mem_one w

@[simp] theorem mem_cls : w ∈ (cls p).language ↔ ∃ a, w = [a] ∧ p a = true := Iff.rfl

@[simp] theorem mem_alt : w ∈ (alt r s).language ↔ w ∈ r.language ∨ w ∈ s.language :=
  Language.mem_add ..

theorem nil_mem_star : [] ∈ (star r).language := Language.nil_mem_kstar _

theorem mem_seq :
    w ∈ (seq r s).language ↔ ∃ u v, w = u ++ v ∧ u ∈ r.language ∧ v ∈ s.language := by
  rw [language, Language.mem_mul]
  constructor
  · intro h
    obtain ⟨u, hu, v, hv, huv⟩ := h
    exact ⟨u, v, huv.symm, hu, hv⟩
  · intro h
    obtain ⟨u, v, huv, hu, hv⟩ := h
    exact ⟨u, hu, v, hv, huv.symm⟩

theorem mem_star_cons :
    a :: w ∈ (star r).language ↔ ∃ u v, w = u ++ v ∧ a :: u ∈ r.language ∧ v ∈ (star r).language := by
  constructor
  · intro h
    obtain ⟨words, hflat, hwords⟩ := Language.mem_kstar_iff_exists_nonempty.mp h
    cases words with
    | nil => simp at hflat
    | cons x words =>
      obtain ⟨hx, hne⟩ := hwords x List.mem_cons_self
      cases x with
      | nil => exact absurd rfl hne
      | cons b u =>
        simp only [List.flatten_cons, List.cons_append, List.cons.injEq] at hflat
        obtain ⟨rfl, rfl⟩ := hflat
        refine ⟨u, words.flatten, rfl, hx, Language.join_mem_kstar fun y hy => ?_⟩
        exact (hwords y (List.mem_cons_of_mem _ hy)).1
  · intro h
    obtain ⟨u, v, rfl, hu, hv⟩ := h
    obtain ⟨words, rfl, hwords⟩ := Language.mem_kstar.mp hv
    refine Language.mem_kstar.mpr ⟨(a :: u) :: words, rfl, fun y hy => ?_⟩
    rcases List.mem_cons.mp hy with rfl | hy
    · exact hu
    · exact hwords y hy

/-! ## The matcher -/

theorem nullable_iff : r.nullable = true ↔ [] ∈ r.language := by
  induction r with
  | empty => simp [nullable]
  | eps => simp [nullable]
  | cls p => simp [nullable]
  | seq r s ihr ihs => simp [nullable, mem_seq, ihr, ihs]
  | alt r s ihr ihs => simp [nullable, ihr, ihs]
  | star r _ => simp [nullable, nil_mem_star]

/-- The first character of a word of a sequence belongs to the first part, or to the second when the
first part is empty. -/
theorem mem_seq_cons : a :: w ∈ (seq r s).language ↔
    (∃ u v, w = u ++ v ∧ a :: u ∈ r.language ∧ v ∈ s.language) ∨
      [] ∈ r.language ∧ a :: w ∈ s.language := by
  rw [mem_seq]
  constructor
  · intro h
    obtain ⟨u, v, huv, hu, hv⟩ := h
    cases u with
    | nil =>
      rw [List.nil_append] at huv
      rw [← huv] at hv
      exact .inr ⟨hu, hv⟩
    | cons b u =>
      simp only [List.cons_append, List.cons.injEq] at huv
      obtain ⟨rfl, rfl⟩ := huv
      exact .inl ⟨u, v, rfl, hu, hv⟩
  · intro h
    rcases h with ⟨u, v, rfl, hu, hv⟩ | ⟨hnil, hw⟩
    · exact ⟨a :: u, v, rfl, hu, hv⟩
    · exact ⟨[], a :: w, rfl, hnil, hw⟩

theorem mem_deriv : w ∈ (r.deriv a).language ↔ a :: w ∈ r.language := by
  induction r generalizing w with
  | empty => simp [deriv]
  | eps => simp [deriv]
  | cls p =>
    rw [deriv]
    split
    · rename_i hp
      simp [hp]
    · rename_i hp
      simp [hp]
  | seq r s ihr ihs =>
    rw [mem_seq_cons, deriv]
    split
    · rename_i hn
      simp only [mem_alt, mem_seq, ihr, ihs, nullable_iff.mp hn, true_and]
    · rename_i hn
      rw [nullable_iff] at hn
      simp only [mem_seq, ihr, hn, false_and, or_false]
  | alt r s ihr ihs => simp only [deriv, mem_alt, ihr, ihs]
  | star r ih => simp only [deriv, mem_seq, mem_star_cons, ih]

/-- The matcher accepts the words of the language. -/
theorem accepts_iff : r.accepts w = true ↔ w ∈ r.language := by
  induction w generalizing r with
  | nil => exact nullable_iff
  | cons a w ih => rw [accepts, ih, mem_deriv]

/-! ## Repetitions of a character class -/

theorem mem_star_cls : w ∈ (star (cls p)).language ↔ ∀ a ∈ w, p a = true := by
  induction w with
  | nil => simp [nil_mem_star]
  | cons a w ih =>
    rw [mem_star_cons, List.forall_mem_cons, ← ih]
    constructor
    · intro h
      obtain ⟨u, v, rfl, hu, hv⟩ := h
      obtain ⟨b, hb, hp⟩ := hu
      cases hb
      exact ⟨hp, hv⟩
    · intro h
      exact ⟨[], w, rfl, ⟨a, rfl, h.1⟩, h.2⟩

@[simp] theorem nil_notMem_seq_cls : [] ∉ (seq (cls p) s).language := by
  simp [mem_seq]

theorem cons_mem_seq_cls :
    a :: w ∈ (seq (cls p) s).language ↔ p a = true ∧ w ∈ s.language := by
  rw [mem_seq_cons]
  constructor
  · intro h
    rcases h with ⟨u, v, rfl, ⟨b, hb, hp⟩, hv⟩ | ⟨⟨b, hb, _⟩, _⟩
    · cases hb
      exact ⟨hp, hv⟩
    · cases hb
  · intro h
    exact .inl ⟨[], w, rfl, ⟨a, rfl, h.1⟩, h.2⟩

theorem mem_plus_cls : w ∈ (plus (cls p)).language ↔ w ≠ [] ∧ ∀ a ∈ w, p a = true := by
  cases w with
  | nil => simp [plus]
  | cons a w => simp [plus, cons_mem_seq_cls, mem_star_cls]

theorem mem_between_cls {lo hi : Nat} : w ∈ (between (cls p) lo hi).language ↔
    lo ≤ w.length ∧ w.length ≤ hi ∧ ∀ a ∈ w, p a = true := by
  induction hi generalizing lo w with
  | zero =>
    cases lo with
    | zero =>
      rw [between, mem_eps, Nat.le_zero, List.length_eq_zero_iff]
      constructor
      · intro h
        subst h
        simp
      · exact fun h => h.2.1
    | succ lo =>
      simp only [between, mem_empty, false_iff]
      omega
  | succ hi ih =>
    cases w with
    | nil => cases lo <;> simp [between]
    | cons a w =>
      -- the first character is one of the repetitions, whether it is required or optional
      have hfirst : a :: w ∈ (between (cls p) lo (hi + 1)).language ↔
          p a = true ∧ w ∈ (between (cls p) (lo - 1) hi).language := by
        cases lo with
        | zero => simp [between, cons_mem_seq_cls]
        | succ lo => exact cons_mem_seq_cls
      rw [hfirst, ih, List.forall_mem_cons, List.length_cons, Nat.add_le_add_iff_right,
        Nat.sub_le_iff_le_add, and_left_comm, and_left_comm (a := p a = true)]

end Text.Regex
