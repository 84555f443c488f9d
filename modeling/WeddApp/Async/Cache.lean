import WeddApp.Async.Driver
import WeddApp.Async.Network

/-!
# Async.Cache

A system whose callbacks may be answered by a cache. What the cache answers is not restricted: it may
be old, or what the server has not taken yet.

* `System.cached`: the environment says what the cache answers, if it does.
* `FromServer`: the cache answered nothing. Such a run is a run of the system (`run_of_fromServer`),
  and every run of the system is such a run (`cached_run`).
* `Network.hit`: a cache that answers the requests of a client.
* `Driver.cached`: a program in front of a system with a cache.
-/

namespace Async

universe u

variable {σ τ α ε ρ : Type u}

namespace Label

def uncached : Label α (ε × Option ρ) → Label α ε
  | .act a e => .act a e.1
  | .serve i e => .serve i e.1

/-- At this step the cache answers `r`. -/
def cached (r : Option ρ) : Label α ε → Label α (ε × Option ρ)
  | .act a e => .act a (e, r)
  | .serve i e => .serve i (e, r)

theorem uncached_cached (r : Option ρ) (l : Label α ε) : (l.cached r).uncached = l := by
  cases l <;> rfl

@[simp] theorem map_uncached_cached (r : Option ρ) (ls : List (Label α ε)) :
    (ls.map (Label.cached r)).map Label.uncached = ls := by
  simp [Function.comp_def, uncached_cached]

end Label

namespace System

/-- A callback `t` that the cache answers with `r` leaves `hit t r` pending, if that is a callback. -/
def cached (S : System σ τ α ε) (hit : τ → ρ → Option τ) : System σ τ α (ε × Option ρ) where
  act a e s := S.act a e.1 s
  serve t e s :=
    match e.2.bind (hit t) with
    | some u => some (s, [u])
    | none => S.serve t e.1 s

end System

def FromServer (hit : τ → ρ → Option τ) (h : List (Config σ τ × Label α (ε × Option ρ))) : Prop :=
  ∀ k t e, Served h k t e → e.2.bind (hit t) = none

namespace System

variable {S : System σ τ α ε} {hit : τ → ρ → Option τ} {c c' : Config σ τ}

theorem Step.uncached {l : Label α (ε × Option ρ)} (h : (S.cached hit).Step c l c')
    (hs : FromServer hit [(c, l)]) : S.Step c l.uncached c' := by
  cases h with
  | act h => exact .act h
  | @serve i k t e _ _ hi h =>
    have hnone := hs k t e ((served_serve hi).mpr ⟨rfl, rfl, rfl⟩)
    simp only [cached, hnone] at h
    exact .serve hi h

theorem run_of_fromServer {ls : List (Label α (ε × Option ρ))}
    (hr : (S.cached hit).run c ls = some c') (hs : FromServer hit ((S.cached hit).history c ls)) :
    S.run c (ls.map Label.uncached) = some c' := by
  induction ls generalizing c with
  | nil => exact hr
  | cons l ls ih =>
    obtain ⟨c1, h1, hr⟩ := run_cons.mp hr
    have hhist : (S.cached hit).history c (l :: ls) = [(c, l)] ++ (S.cached hit).history c1 ls := by
      simp only [history, step_iff.mpr h1, List.cons_append, List.nil_append]
    rw [hhist] at hs
    refine run_cons.mpr ⟨c1, h1.uncached fun k t e ht => hs k t e ?_, ih hr fun k t e ht => hs k t e ?_⟩
    · exact served_append.mpr (.inl ht)
    · exact served_append.mpr (.inr ht)

theorem runs_of_fromServer {c'' : Config σ τ} {ls ls' : List (Label α (ε × Option ρ))}
    (h : (S.cached hit).run c ls = some c') (h' : (S.cached hit).run c' ls' = some c'')
    (hs : FromServer hit ((S.cached hit).history c (ls ++ ls'))) :
    S.run c (ls.map Label.uncached) = some c' ∧ S.run c' (ls'.map Label.uncached) = some c'' := by
  rw [history_append h] at hs
  refine ⟨run_of_fromServer h fun k t e ht => hs k t e ?_,
    run_of_fromServer h' fun k t e ht => hs k t e ?_⟩
  · exact served_append.mpr (.inl ht)
  · exact served_append.mpr (.inr ht)

theorem Step.cached {l : Label α ε} (h : S.Step c l c') :
    (S.cached hit).Step c (l.cached none) c' := by
  cases h with
  | act h => exact .act h
  | serve hi h => exact .serve hi h

theorem cached_run (hit : τ → ρ → Option τ) {ls : List (Label α ε)} (hr : S.run c ls = some c') :
    (S.cached hit).run c (ls.map (Label.cached none)) = some c' := by
  induction ls generalizing c with
  | nil => exact hr
  | cons l ls ih =>
    obtain ⟨c1, h1, hr⟩ := run_cons.mp hr
    exact run_cons.mpr ⟨c1, h1.cached, ih hr⟩

end System

theorem fromServer_cached {S : System σ τ α ε} {hit : τ → ρ → Option τ} {c : Config σ τ}
    (ls : List (Label α ε)) :
    FromServer hit ((S.cached hit).history c (ls.map (Label.cached none))) := by
  rintro k t e ⟨c', i, hm, _⟩
  obtain ⟨l, _, hl⟩ := List.mem_map.mp (System.mem_of_history hm)
  cases l with
  | act => cases hl
  | serve => cases hl; rfl

/-- The requests of a client are what its cache answers. -/
def Network.hit {τ' ε' : Type u} : Job τ τ' ε' → ε' → Option (Job τ τ' ε')
  | .request t, r => some (.reply t r)
  | .server _, _ | .reply _ _, _ => none

namespace Driver

variable {S : System σ τ α ε} {γ μ : Type u} {hit : τ → ρ → Option τ} {c c' : Config σ τ} {g g' : γ}

/-- A move comes with what the cache answers to it. -/
def cached (D : Driver S γ μ) (hit : τ → ρ → Option τ) : Driver (S.cached hit) γ (μ × Option ρ) where
  labels m c g := (D.labels m.1 c g).map fun ls => ls.map (Label.cached m.2)
  update m c c' g := D.update m.1 c c' g

theorem run_of_fromServer {D : Driver S γ μ} {ms : List (μ × Option ρ)}
    (hr : (D.cached hit).run c g ms = some (c', g'))
    (hs : FromServer hit ((S.cached hit).history c ((D.cached hit).trace c g ms))) :
    D.run c g (ms.map Prod.fst) = some (c', g') ∧
      D.trace c g (ms.map Prod.fst) = ((D.cached hit).trace c g ms).map Label.uncached := by
  induction ms generalizing c g with
  | nil => cases hr; exact ⟨rfl, rfl⟩
  | cons m ms ih =>
    obtain ⟨ls, c1, hl, h1, hr, ht⟩ := run_cons hr
    obtain ⟨ls', hl', rfl⟩ := Option.map_eq_some_iff.mp hl
    rw [ht, System.history_append h1] at hs
    have h1' := System.run_of_fromServer h1 fun k t e hk => hs k t e (served_append.mpr (.inl hk))
    obtain ⟨hr', ht'⟩ := ih hr fun k t e hk => hs k t e (served_append.mpr (.inr hk))
    rw [Label.map_uncached_cached] at h1'
    refine ⟨?_, ?_⟩
    · simp only [List.map_cons, run, hl', h1']
      exact hr'
    · rw [ht, List.map_append, Label.map_uncached_cached, ← ht']
      simp only [List.map_cons, trace, hl', h1']
      rfl

theorem cached_run (hit : τ → ρ → Option τ) {D : Driver S γ μ} {ms : List μ}
    (hr : D.run c g ms = some (c', g')) :
    (D.cached hit).run c g (ms.map fun m => (m, none)) = some (c', g') ∧
      (D.cached hit).trace c g (ms.map fun m => (m, none)) =
        (D.trace c g ms).map (Label.cached none) := by
  induction ms generalizing c g with
  | nil => cases hr; exact ⟨rfl, rfl⟩
  | cons m ms ih =>
    obtain ⟨ls, c1, hl, h1, hr, ht⟩ := run_cons hr
    obtain ⟨hr', ht'⟩ := ih hr
    have hl' : (D.cached hit).labels (m, none) c g = some (ls.map (Label.cached none)) := by
      simp only [cached, hl, Option.map_some]
    have h1' := System.cached_run hit h1
    refine ⟨?_, ?_⟩
    · simp only [List.map_cons, run, hl', h1']
      exact hr'
    · rw [ht, List.map_append, ← ht']
      simp only [List.map_cons, trace, hl', h1']
      rfl

end Driver
end Async
