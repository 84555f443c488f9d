import WeddApp.Async.Origin

/-!
# Async.Driver

A program in front of a system. It has a state of its own; with a move it makes the system take steps
and then looks at what they did. The system does not see the program, so a run of the program is a run
of the system, and all that holds of the system's runs holds here.

* `Driver`: the labels of a move (`none`: it is not possible), and the state after it.
* `run`; `trace`: the labels that the system took.
* `run_system`: the run of the system.
* `run_rule`: what holds at the start and is kept by every move holds at the end.
-/

namespace Async

universe u

variable {σ τ α ε : Type u}

structure Driver (S : System σ τ α ε) (γ μ : Type u) where
  labels : μ → Config σ τ → γ → Option (List (Label α ε))
  update : μ → Config σ τ → Config σ τ → γ → γ

namespace Driver

variable {S : System σ τ α ε} {γ μ : Type u} (D : Driver S γ μ)

def run (c : Config σ τ) (g : γ) : List μ → Option (Config σ τ × γ)
  | [] => some (c, g)
  | m :: ms =>
    match D.labels m c g with
    | none => none
    | some ls =>
      match S.run c ls with
      | none => none
      | some c' => run c' (D.update m c c' g) ms

def trace (c : Config σ τ) (g : γ) : List μ → List (Label α ε)
  | [] => []
  | m :: ms =>
    match D.labels m c g with
    | none => []
    | some ls =>
      match S.run c ls with
      | none => []
      | some c' => ls ++ trace c' (D.update m c c' g) ms

variable {D} {c c' : Config σ τ} {g g' : γ} {m : μ} {ms : List μ}

theorem run_cons (h : D.run c g (m :: ms) = some (c', g')) :
    ∃ ls c1, D.labels m c g = some ls ∧ S.run c ls = some c1 ∧
      D.run c1 (D.update m c c1 g) ms = some (c', g') ∧
      D.trace c g (m :: ms) = ls ++ D.trace c1 (D.update m c c1 g) ms := by
  simp only [run] at h
  split at h
  · cases h
  · rename_i ls hl
    split at h
    · cases h
    · rename_i c1 h1
      refine ⟨ls, c1, hl, h1, h, ?_⟩
      simp only [trace, hl, h1]

theorem trace_append {ms' : List μ} (h : D.run c g ms = some (c', g')) :
    D.trace c g (ms ++ ms') = D.trace c g ms ++ D.trace c' g' ms' := by
  induction ms generalizing c g with
  | nil => cases h; rfl
  | cons m ms ih =>
    obtain ⟨ls, c1, hl, h1, hr, ht⟩ := run_cons h
    rw [ht, List.append_assoc, ← ih hr]
    simp only [List.cons_append, trace, hl, h1]

theorem run_system (h : D.run c g ms = some (c', g')) : S.run c (D.trace c g ms) = some c' := by
  induction ms generalizing c g with
  | nil => cases h; rfl
  | cons m ms ih =>
    obtain ⟨ls, c1, _, h1, hr, ht⟩ := run_cons h
    rw [ht]
    exact System.run_append.mpr ⟨c1, h1, ih hr⟩

/-- The run rule. `I ms ls c g` may speak about the moves `ms` so far and the labels `ls` that the
system took for them. -/
theorem run_rule {I : List μ → List (Label α ε) → Config σ τ → γ → Prop}
    (h : D.run c g ms = some (c', g')) (init : I [] [] c g)
    (step : ∀ ms1 ls c1 g1 m ls' c2, ms1 ++ [m] <+: ms → S.run c ls = some c1 → I ms1 ls c1 g1 →
      D.labels m c1 g1 = some ls' → S.run c1 ls' = some c2 →
      I (ms1 ++ [m]) (ls ++ ls') c2 (D.update m c1 c2 g1)) :
    I ms (D.trace c g ms) c' g' := by
  -- from any point of the run on; the induction is on the moves that are left
  suffices hgen : ∀ ms2 ms1 ls c1 g1, ms1 ++ ms2 = ms → S.run c ls = some c1 → I ms1 ls c1 g1 →
      D.run c1 g1 ms2 = some (c', g') → I ms (ls ++ D.trace c1 g1 ms2) c' g' from
    hgen ms [] [] c g rfl rfl init h
  intro ms2
  induction ms2 with
  | nil =>
    intro ms1 ls c1 g1 hms _ hI h
    cases h
    rw [trace, List.append_nil, ← hms, List.append_nil]
    exact hI
  | cons m ms2 ih =>
    intro ms1 ls c1 g1 hms hr hI h
    obtain ⟨ls', c2, hl, h2, hr', ht⟩ := run_cons h
    have hms' : (ms1 ++ [m]) ++ ms2 = ms := by rw [← hms, List.append_assoc]; rfl
    have hI' := step _ _ _ _ _ _ _ ⟨ms2, hms'⟩ hr hI hl h2
    rw [ht, ← List.append_assoc]
    exact ih _ _ _ _ hms' (System.run_append.mpr ⟨c1, hr, h2⟩) hI' hr'

end Driver
end Async
