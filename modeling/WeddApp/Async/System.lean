import Mathlib.Data.List.Induction
import Mathlib.Data.List.Perm.Basic

/-!
# Async.System

Programs made of callbacks. A program holds a state; an action of the outside world (a tap, a key
press) or a callback that runs may change the state and leave further callbacks pending; pending
callbacks run one at a time, in any order.

* `System`: what an action does (`act`) and what a pending callback does (`serve`). Both read an
  environment value `ε`: the answer of a server, random draws, generated names. `none` means that
  the action or the answer is not possible in that state.
* `Config`: a state with its pool of pending callbacks. Each pending callback carries its origin,
  the number of the action that it descends from; `clock` is the number of the next action.
* `step`, `run`: the executable interpreter. `Step` is its inversion, one case per kind of label.
* `history`: the configurations and labels that a run goes through.
* `drain`: the pending callbacks run in order.
* `prefix_rule`, `run_rule`: what holds at the start and is kept by every step holds at the end of
  every run; the labels or the history so far are a ghost variable.
-/

namespace Async

universe u

variable {σ τ α ε : Type u}

structure System (σ τ α ε : Type u) where
  act : α → ε → σ → Option (σ × List τ)
  serve : τ → ε → σ → Option (σ × List τ)

structure Config (σ τ : Type u) where
  state : σ
  pending : List (Nat × τ)
  clock : Nat

inductive Label (α ε : Type u) where
  | act (a : α) (e : ε)
  | serve (i : Nat) (e : ε)

/-- What the outside world chose at this step. -/
def Label.env : Label α ε → ε
  | .act _ e => e
  | .serve _ e => e

def Label.isServe : Label α ε → Bool
  | .act _ _ => false
  | .serve _ _ => true

def Config.init (s : σ) : Config σ τ := ⟨s, [], 0⟩

/-- The configuration after an action that ends in `s` and leaves `ts` pending. -/
def Config.acted (c : Config σ τ) (s : σ) (ts : List τ) : Config σ τ :=
  ⟨s, c.pending ++ ts.map (Prod.mk c.clock), c.clock + 1⟩

/-- The configuration after the callback at index `i`, of origin `k`, has run. -/
def Config.served (c : Config σ τ) (i k : Nat) (s : σ) (ts : List τ) : Config σ τ :=
  ⟨s, c.pending.eraseIdx i ++ ts.map (Prod.mk k), c.clock⟩

@[simp] theorem Config.acted_state (c : Config σ τ) (s : σ) (ts : List τ) :
    (c.acted s ts).state = s := rfl
@[simp] theorem Config.acted_clock (c : Config σ τ) (s : σ) (ts : List τ) :
    (c.acted s ts).clock = c.clock + 1 := rfl
@[simp] theorem Config.served_state (c : Config σ τ) (i k : Nat) (s : σ) (ts : List τ) :
    (c.served i k s ts).state = s := rfl
@[simp] theorem Config.served_clock (c : Config σ τ) (i k : Nat) (s : σ) (ts : List τ) :
    (c.served i k s ts).clock = c.clock := rfl

theorem Config.mem_acted {c : Config σ τ} {s : σ} {ts : List τ} {x : Nat × τ} :
    x ∈ (c.acted s ts).pending ↔ x ∈ c.pending ∨ x.1 = c.clock ∧ x.2 ∈ ts := by
  obtain ⟨k, t⟩ := x
  simp only [acted, List.mem_append, List.mem_map, Prod.mk.injEq]
  constructor
  · rintro (h | ⟨t', ht, rfl, rfl⟩)
    · exact .inl h
    · exact .inr ⟨rfl, ht⟩
  · rintro (h | ⟨rfl, ht⟩)
    · exact .inl h
    · exact .inr ⟨t, ht, rfl, rfl⟩

theorem Config.mem_served {c : Config σ τ} {i k : Nat} {s : σ} {ts : List τ} {x : Nat × τ}
    (h : x ∈ (c.served i k s ts).pending) : x ∈ c.pending ∨ x.1 = k ∧ x.2 ∈ ts := by
  obtain ⟨k', t⟩ := x
  simp only [served, List.mem_append, List.mem_map, Prod.mk.injEq] at h
  rcases h with h | ⟨t', ht, rfl, rfl⟩
  · exact .inl (List.mem_of_mem_eraseIdx h)
  · exact .inr ⟨rfl, ht⟩

theorem Config.mem_served_new {c : Config σ τ} {i k : Nat} {s : σ} {ts : List τ} {t : τ}
    (h : t ∈ ts) : (k, t) ∈ (c.served i k s ts).pending := by
  simp only [served, List.mem_append, List.mem_map]
  exact .inr ⟨t, h, rfl⟩

theorem perm_eraseIdx {l : List τ} {i : Nat} {x : τ} (h : l[i]? = some x) :
    l.Perm (x :: l.eraseIdx i) := by
  obtain ⟨hi, rfl⟩ := List.getElem?_eq_some_iff.mp h
  exact (List.getElem_cons_eraseIdx_perm hi).symm

theorem mem_of_getElem? {l : List τ} {i : Nat} {x : τ} (h : l[i]? = some x) : x ∈ l :=
  List.mem_of_getElem? h

def Config.tasks (c : Config σ τ) : List τ := c.pending.map Prod.snd

theorem Config.tasks_acted (c : Config σ τ) (s : σ) (ts : List τ) :
    (c.acted s ts).tasks = c.tasks ++ ts := by
  simp [tasks, acted, Function.comp_def]

theorem Config.tasks_served {c : Config σ τ} {i k : Nat} {t : τ} (hi : c.pending[i]? = some (k, t))
    (s : σ) (ts : List τ) :
    ∃ rest, c.tasks.Perm (t :: rest) ∧ (c.served i k s ts).tasks = rest ++ ts := by
  refine ⟨(c.pending.eraseIdx i).map Prod.snd, (perm_eraseIdx hi).map Prod.snd, ?_⟩
  simp [tasks, served, Function.comp_def]

namespace System

variable (S : System σ τ α ε)

def step (c : Config σ τ) : Label α ε → Option (Config σ τ)
  | .act a e =>
    match S.act a e c.state with
    | none => none
    | some (s, ts) => some (c.acted s ts)
  | .serve i e =>
    match c.pending[i]? with
    | none => none
    | some (k, t) =>
      match S.serve t e c.state with
      | none => none
      | some (s, ts) => some (c.served i k s ts)

def run (c : Config σ τ) : List (Label α ε) → Option (Config σ τ)
  | [] => some c
  | l :: ls =>
    match S.step c l with
    | none => none
    | some c' => run c' ls

/-- The configurations a run passes through, each with the label of the step taken from it. -/
def history (c : Config σ τ) : List (Label α ε) → List (Config σ τ × Label α ε)
  | [] => []
  | l :: ls =>
    match S.step c l with
    | none => []
    | some c' => (c, l) :: history c' ls

/-- The pending callbacks run in order, one for each environment. -/
def drain : List ε → σ → List τ → σ
  | e :: es, s, t :: ts =>
    match S.serve t e s with
    | some (s', us) => drain es s' (ts ++ us)
    | none => s
  | _, s, _ => s

inductive Step (c : Config σ τ) : Label α ε → Config σ τ → Prop where
  | act {a : α} {e : ε} {s : σ} {ts : List τ} (h : S.act a e c.state = some (s, ts)) :
      Step c (.act a e) (c.acted s ts)
  | serve {i k : Nat} {t : τ} {e : ε} {s : σ} {ts : List τ} (hi : c.pending[i]? = some (k, t))
      (h : S.serve t e c.state = some (s, ts)) : Step c (.serve i e) (c.served i k s ts)

variable {S} {c c' c'' : Config σ τ} {l : Label α ε} {ls ls' : List (Label α ε)}

theorem step_iff : S.step c l = some c' ↔ S.Step c l c' := by
  constructor
  · intro h
    cases l with
    | act a e =>
      simp only [step] at h
      split at h
      · cases h
      · rename_i s ts hs; cases h; exact .act hs
    | serve i e =>
      simp only [step] at h
      split at h
      · cases h
      · rename_i k t hi
        split at h
        · cases h
        · rename_i s ts hs; cases h; exact .serve hi hs
  · intro h
    cases h with
    | act h => simp [step, h]
    | serve hi h => simp [step, hi, h]

theorem run_cons : S.run c (l :: ls) = some c'' ↔ ∃ c', S.Step c l c' ∧ S.run c' ls = some c'' := by
  simp only [run]
  cases h : S.step c l with
  | none =>
    constructor
    · intro h'; cases h'
    · rintro ⟨c', hs, _⟩; rw [step_iff.mpr hs] at h; cases h
  | some c1 =>
    constructor
    · intro h'; exact ⟨c1, step_iff.mp h, h'⟩
    · rintro ⟨c', hs, hr⟩
      rw [step_iff.mpr hs] at h; cases h; exact hr

theorem run_append :
    S.run c (ls ++ ls') = some c'' ↔ ∃ c', S.run c ls = some c' ∧ S.run c' ls' = some c'' := by
  induction ls generalizing c with
  | nil => simp [run]
  | cons l ls ih =>
    simp only [List.cons_append, run_cons, ih]
    constructor
    · rintro ⟨c1, hs, c', hr, hr'⟩; exact ⟨c', ⟨c1, hs, hr⟩, hr'⟩
    · rintro ⟨c', ⟨c1, hs, hr⟩, hr'⟩; exact ⟨c1, hs, c', hr, hr'⟩

theorem run_concat :
    S.run c (ls ++ [l]) = some c'' ↔ ∃ c', S.run c ls = some c' ∧ S.Step c' l c'' := by
  rw [run_append]
  constructor
  · rintro ⟨c', hr, h⟩
    obtain ⟨c1, hs, h1⟩ := run_cons.mp h
    cases h1; exact ⟨c', hr, hs⟩
  · rintro ⟨c', hr, hs⟩; exact ⟨c', hr, run_cons.mpr ⟨c'', hs, rfl⟩⟩

theorem history_append (h : S.run c ls = some c') :
    S.history c (ls ++ ls') = S.history c ls ++ S.history c' ls' := by
  induction ls generalizing c with
  | nil => cases h; rfl
  | cons l ls ih =>
    obtain ⟨c1, hs, hr⟩ := run_cons.mp h
    simp only [List.cons_append, history, step_iff.mpr hs, ih hr]

theorem history_concat (h : S.run c ls = some c') (hs : S.Step c' l c'') :
    S.history c (ls ++ [l]) = S.history c ls ++ [(c', l)] := by
  rw [history_append h]
  simp [history, step_iff.mpr hs]

theorem history_labels (h : S.run c ls = some c') : (S.history c ls).map Prod.snd = ls := by
  induction ls generalizing c with
  | nil => rfl
  | cons l ls ih =>
    obtain ⟨c1, hs, hr⟩ := run_cons.mp h
    simp only [history, step_iff.mpr hs, List.map_cons, ih hr]

theorem mem_of_history {x : Config σ τ × Label α ε} (hx : x ∈ S.history c ls) : x.2 ∈ ls := by
  induction ls generalizing c with
  | nil => simp [history] at hx
  | cons l ls ih =>
    simp only [history] at hx
    split at hx
    · cases hx
    · rcases List.mem_cons.mp hx with rfl | hx
      · exact List.mem_cons_self
      · exact List.mem_cons_of_mem _ (ih hx)

theorem mem_history (hr : S.run c (ls ++ l :: ls') = some c'') :
    ∃ c', S.run c ls = some c' ∧ (c', l) ∈ S.history c (ls ++ l :: ls') := by
  obtain ⟨c', h1, h2⟩ := run_append.mp hr
  obtain ⟨c1, hs, _⟩ := run_cons.mp h2
  refine ⟨c', h1, ?_⟩
  rw [history_append h1]
  simp [history, step_iff.mpr hs]

/-- Induction on a run from its end: what holds at the start and is kept by each step, of every
prefix of the run. -/
theorem prefix_rule {I : List (Label α ε) → Config σ τ → Prop} (hr : S.run c ls = some c')
    (init : I [] c)
    (step : ∀ ls1 c1 l c2, S.run c ls1 = some c1 → ls1 ++ [l] <+: ls → I ls1 c1 → S.Step c1 l c2 →
      I (ls1 ++ [l]) c2) :
    I ls c' := by
  induction ls using List.reverseRecOn generalizing c' with
  | nil => cases hr; exact init
  | append_singleton ls l ih =>
    obtain ⟨c1, hr1, hs⟩ := run_concat.mp hr
    refine step ls c1 l c' hr1 (List.prefix_refl _) (ih hr1 ?_) hs
    intro ls1 c2 l' c3 h2 hp
    exact step ls1 c2 l' c3 h2 (hp.trans (List.prefix_append ls [l]))

/-- The run rule. `I h c` may speak about the history `h` that led to `c`; the step hypothesis
may use that the step is one of the run. -/
theorem run_rule {I : List (Config σ τ × Label α ε) → Config σ τ → Prop} (hr : S.run c ls = some c')
    (init : I [] c)
    (step : ∀ h c1 l c2, (c1, l) ∈ S.history c ls → I h c1 → S.Step c1 l c2 →
      I (h ++ [(c1, l)]) c2) :
    I (S.history c ls) c' := by
  induction ls using List.reverseRecOn generalizing c' with
  | nil => cases hr; exact init
  | append_singleton ls l ih =>
    obtain ⟨c1, hr1, hs⟩ := run_concat.mp hr
    have he := history_concat hr1 hs
    rw [he] at step ⊢
    refine step _ _ _ _ (by simp) (ih hr1 ?_) hs
    intro h c2 l' c3 hm
    exact step h c2 l' c3 (List.mem_append_left _ hm)

theorem invariant {I : Config σ τ → Prop} (hr : S.run c ls = some c') (init : I c)
    (step : ∀ c1 l c2, (c1, l) ∈ S.history c ls → I c1 → S.Step c1 l c2 → I c2) : I c' :=
  run_rule (I := fun _ c => I c) hr init fun _ c1 l c2 hm => step c1 l c2 hm

/-- Rely and guarantee. `I` holds of the state, `J` of the state and each pending callback; every
action and callback keeps `I`, establishes `J` for what it leaves pending, and does not disturb
`J` of the others. -/
theorem pool_rule {I : σ → Prop} {J : σ → τ → Prop} (hr : S.run c ls = some c')
    (init : I c.state ∧ ∀ x ∈ c.pending, J c.state x.2)
    (act : ∀ a e s s' ts, I s → S.act a e s = some (s', ts) →
      I s' ∧ (∀ u ∈ ts, J s' u) ∧ ∀ u, J s u → J s' u)
    (serve : ∀ t e s s' ts, I s → J s t → S.serve t e s = some (s', ts) →
      I s' ∧ (∀ u ∈ ts, J s' u) ∧ ∀ u, J s u → J s' u) :
    I c'.state ∧ ∀ x ∈ c'.pending, J c'.state x.2 := by
  refine invariant (I := fun c => I c.state ∧ ∀ x ∈ c.pending, J c.state x.2) hr init ?_
  rintro c1 l c2 _ ⟨hI, hJ⟩ hs
  cases hs with
  | act h =>
    obtain ⟨h1, h2, h3⟩ := act _ _ _ _ _ hI h
    refine ⟨h1, fun x hx => ?_⟩
    rcases Config.mem_acted.mp hx with hx | ⟨_, hx⟩
    · exact h3 _ (hJ x hx)
    · exact h2 _ hx
  | serve hi h =>
    obtain ⟨h1, h2, h3⟩ := serve _ _ _ _ _ hI (hJ _ (mem_of_getElem? hi)) h
    refine ⟨h1, fun x hx => ?_⟩
    rcases Config.mem_served hx with hx | ⟨_, hx⟩
    · exact h3 _ (hJ x hx)
    · exact h2 _ hx

end System
end Async
