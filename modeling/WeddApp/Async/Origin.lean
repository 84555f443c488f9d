import WeddApp.Async.System

/-!
# Async.Origin

Where a pending callback comes from, and what a history says about an origin.

* `Acted`, `Served`: action number `k` was `a`; a callback `t` of origin `k` ran.
* `Config.Dated`: origins are numbers of past actions.
* `Config.Live`: the action still has something pending. An action that is no longer live never
  becomes live again (`dead_stays`).
* `act_unique`: an action's number determines it.
* `acted_of_pending`: in a run from an empty pool every origin was acted.
* `Left`: what left a callback pending, an action or another callback of the same origin.
* `pending_of_served`, `ordered`: the configurations of a history as configurations of the run.
* `served_of_over`, `served_of_acted`, `served_next`: what is pending, and what an action or a
  callback leaves pending, has been served once its action is over.
* `mapHistory`: a history with its states seen through a function.
-/

namespace Async

universe u

variable {σ τ α ε : Type u}

/-- Action number `k` was `a`, in environment `e`. -/
def Acted (h : List (Config σ τ × Label α ε)) (k : Nat) (a : α) (e : ε) : Prop :=
  ∃ c, (c, .act a e) ∈ h ∧ c.clock = k

/-- The callback `t` of origin `k` ran from configuration `c`, in environment `e`. -/
def ServedAt (h : List (Config σ τ × Label α ε)) (c : Config σ τ) (k : Nat) (t : τ) (e : ε) : Prop :=
  ∃ i, (c, .serve i e) ∈ h ∧ c.pending[i]? = some (k, t)

/-- The callback `t` of origin `k` ran, in environment `e`. -/
def Served (h : List (Config σ τ × Label α ε)) (k : Nat) (t : τ) (e : ε) : Prop :=
  ∃ c, ServedAt h c k t e

def Config.Live (c : Config σ τ) (k : Nat) : Prop := ∃ t, (k, t) ∈ c.pending

def Config.Dated (c : Config σ τ) : Prop := ∀ x ∈ c.pending, x.1 < c.clock

theorem not_live_of_drained {c : Config σ τ} (h : c.pending = []) (k : Nat) : ¬ c.Live k := by
  rintro ⟨t, ht⟩
  rw [h] at ht; cases ht

theorem Served.mono {h h' : List (Config σ τ × Label α ε)} {k : Nat} {t : τ} {e : ε}
    (hs : Served h k t e) (hh : ∀ x ∈ h, x ∈ h') : Served h' k t e := by
  obtain ⟨c, i, hm, hi⟩ := hs
  exact ⟨c, i, hh _ hm, hi⟩

theorem served_append {h h' : List (Config σ τ × Label α ε)} {k : Nat} {t : τ} {e : ε} :
    Served (h ++ h') k t e ↔ Served h k t e ∨ Served h' k t e := by
  simp only [Served, ServedAt, List.mem_append]
  constructor
  · rintro ⟨c, i, hm | hm, hi⟩
    · exact .inl ⟨c, i, hm, hi⟩
    · exact .inr ⟨c, i, hm, hi⟩
  · rintro (⟨c, i, hm, hi⟩ | ⟨c, i, hm, hi⟩)
    · exact ⟨c, i, .inl hm, hi⟩
    · exact ⟨c, i, .inr hm, hi⟩

theorem served_act {c : Config σ τ} {a : α} {e e' : ε} {k : Nat} {t : τ} :
    ¬ Served [(c, Label.act a e)] k t e' := by
  rintro ⟨c', i, hm, _⟩
  simp at hm

theorem served_serve {c : Config σ τ} {i k k' : Nat} {e e' : ε} {t t' : τ}
    (hi : c.pending[i]? = some (k, t)) :
    Served [(c, (Label.serve i e : Label α ε))] k' t' e' ↔ k' = k ∧ t' = t ∧ e' = e := by
  constructor
  · rintro ⟨c', i', hm, hi'⟩
    simp only [List.mem_singleton, Prod.mk.injEq, Label.serve.injEq] at hm
    obtain ⟨rfl, rfl, rfl⟩ := hm
    rw [hi] at hi'; cases hi'
    exact ⟨rfl, rfl, rfl⟩
  · rintro ⟨rfl, rfl, rfl⟩
    exact ⟨c, i, by simp, hi⟩

theorem acted_append {h h' : List (Config σ τ × Label α ε)} {k : Nat} {a : α} {e : ε} :
    Acted (h ++ h') k a e ↔ Acted h k a e ∨ Acted h' k a e := by
  simp only [Acted, List.mem_append]
  constructor
  · rintro ⟨c, hm | hm, hk⟩
    · exact .inl ⟨c, hm, hk⟩
    · exact .inr ⟨c, hm, hk⟩
  · rintro (⟨c, hm, hk⟩ | ⟨c, hm, hk⟩)
    · exact ⟨c, .inl hm, hk⟩
    · exact ⟨c, .inr hm, hk⟩

namespace System

variable {S : System σ τ α ε} {c c' c'' : Config σ τ} {l : Label α ε} {ls ls' : List (Label α ε)}

theorem Step.dated (h : S.Step c l c') (hd : c.Dated) : c'.Dated := by
  intro x hx
  cases h with
  | act h =>
    rcases Config.mem_acted.mp hx with hx | ⟨hx, _⟩
    · exact Nat.lt_succ_of_lt (hd x hx)
    · simp [hx]
  | serve hi h =>
    rcases Config.mem_served hx with hx | ⟨hx, _⟩
    · exact hd x hx
    · rw [hx]; exact hd _ (mem_of_getElem? hi)

theorem run_dated (hr : S.run c ls = some c') (hd : c.Dated) : c'.Dated :=
  invariant hr hd fun _ _ _ _ hd hs => hs.dated hd

theorem Step.clock_le (h : S.Step c l c') : c.clock ≤ c'.clock := by
  cases h with
  | act _ => simp
  | serve _ _ => simp

theorem run_clock_le (hr : S.run c ls = some c') : c.clock ≤ c'.clock :=
  invariant (I := fun c1 => c.clock ≤ c1.clock) hr (Nat.le_refl _)
    fun _ _ _ _ hi hs => Nat.le_trans hi hs.clock_le

/-- A past action with nothing pending never has anything pending again. -/
theorem Step.dead_stays {k : Nat} (h : S.Step c l c') (hk : k < c.clock) (hd : ¬ c.Live k) :
    ¬ c'.Live k := by
  rintro ⟨t, ht⟩
  cases h with
  | act h =>
    rcases Config.mem_acted.mp ht with ht | ⟨he, _⟩
    · exact hd ⟨t, ht⟩
    · simp only at he; omega
  | serve hi h =>
    rcases Config.mem_served ht with ht | ⟨he, _⟩
    · exact hd ⟨t, ht⟩
    · simp only at he; subst he
      exact hd ⟨_, mem_of_getElem? hi⟩

theorem dead_stays {k : Nat} (hr : S.run c ls = some c') (hk : k < c.clock) (hd : ¬ c.Live k) :
    ¬ c'.Live k := by
  refine (invariant (I := fun c1 => k < c1.clock ∧ ¬ c1.Live k) hr ⟨hk, hd⟩ ?_).2
  intro c1 l c2 _ hi hs
  exact ⟨Nat.lt_of_lt_of_le hi.1 hs.clock_le, hs.dead_stays hi.1 hi.2⟩

theorem history_split {x : Config σ τ × Label α ε} (hr : S.run c ls = some c')
    (hx : x ∈ S.history c ls) :
    ∃ ls1 ls2 c2, ls = ls1 ++ x.2 :: ls2 ∧ S.run c ls1 = some x.1 ∧ S.Step x.1 x.2 c2 ∧
      S.run c2 ls2 = some c' := by
  induction ls generalizing c with
  | nil => simp [history] at hx
  | cons l ls ih =>
    obtain ⟨c1, hs, hr1⟩ := run_cons.mp hr
    simp only [history, step_iff.mpr hs, List.mem_cons] at hx
    rcases hx with rfl | hx
    · exact ⟨[], ls, c1, rfl, rfl, hs, hr1⟩
    · obtain ⟨ls1, ls2, c2, rfl, h1, h2, h3⟩ := ih hr1 hx
      exact ⟨l :: ls1, ls2, c2, rfl, run_cons.mpr ⟨c1, hs, h1⟩, h2, h3⟩

theorem clock_le_of_history {x : Config σ τ × Label α ε} (hr : S.run c ls = some c')
    (hx : x ∈ S.history c ls) : c.clock ≤ x.1.clock := by
  obtain ⟨ls1, ls2, c2, _, h1, _, _⟩ := history_split hr hx
  exact run_clock_le h1

/-- Actions are numbered in order: two actions of a run with the same number are the same. -/
theorem act_unique {c1 c2 : Config σ τ} {a a' : α} {e e' : ε} (hr : S.run c ls = some c')
    (h1 : (c1, .act a e) ∈ S.history c ls) (h2 : (c2, .act a' e') ∈ S.history c ls)
    (hk : c1.clock = c2.clock) : c1 = c2 ∧ a = a' ∧ e = e' := by
  induction ls generalizing c with
  | nil => cases h1
  | cons l ls ih =>
    obtain ⟨c3, hs, hr3⟩ := run_cons.mp hr
    simp only [history, step_iff.mpr hs, List.mem_cons, Prod.mk.injEq] at h1 h2
    rcases h1 with ⟨rfl, h1⟩ | h1
    · rcases h2 with ⟨rfl, h2⟩ | h2
      · rw [← h1] at h2; cases h2; exact ⟨rfl, rfl, rfl⟩
      · have hle := clock_le_of_history hr3 h2
        cases hs with
        | act _ => simp only [Config.acted_clock] at hle; omega
        | serve _ _ => cases h1
    · rcases h2 with ⟨rfl, h2⟩ | h2
      · have hle := clock_le_of_history hr3 h1
        cases hs with
        | act _ => simp only [Config.acted_clock] at hle; omega
        | serve _ _ => cases h2
      · exact ih hr3 h1 h2

theorem live_of_live {k : Nat} {x : Config σ τ × Label α ε} (hr : S.run c ls = some c')
    (hx : x ∈ S.history c ls) (hk : k < x.1.clock) (hl : c'.Live k) : x.1.Live k := by
  obtain ⟨ls1, ls2, c2, rfl, _, h2, h3⟩ := history_split hr hx
  by_contra hd
  exact dead_stays h3 (Nat.lt_of_lt_of_le hk h2.clock_le) (h2.dead_stays hk hd) hl

theorem acted_of_pending {s0 : σ} {k : Nat} {t : τ} (hr : S.run (.init s0) ls = some c)
    (hp : (k, t) ∈ c.pending) : ∃ a e, Acted (S.history (.init s0) ls) k a e := by
  refine run_rule (I := fun h c => ∀ x ∈ c.pending, ∃ a e, Acted h x.1 a e) hr nofun ?_ _ hp
  intro h c1 l c2 _ hI hs x hx
  cases hs with
  | @act a e s ts ha =>
    rcases Config.mem_acted.mp hx with hx | ⟨hx, _⟩
    · obtain ⟨a', e', hk⟩ := hI x hx
      exact ⟨a', e', acted_append.mpr (.inl hk)⟩
    · exact ⟨a, e, acted_append.mpr (.inr ⟨c1, by simp, hx.symm⟩)⟩
  | serve hi ha =>
    have hk : ∃ a e, Acted h x.1 a e := by
      rcases Config.mem_served hx with hx | ⟨hx, _⟩
      · exact hI x hx
      · rw [hx]; exact hI _ (mem_of_getElem? hi)
    obtain ⟨a', e', hk⟩ := hk
    exact ⟨a', e', acted_append.mpr (.inl hk)⟩

variable (S) in
/-- Action number `k`, or a callback of that origin, left `t` pending. -/
inductive Left (h : List (Config σ τ × Label α ε)) (k : Nat) (t : τ) : Prop where
  | act {c : Config σ τ} {a : α} {e : ε} {s : σ} {ts : List τ} (hm : (c, .act a e) ∈ h)
      (hk : c.clock = k) (ha : S.act a e c.state = some (s, ts)) (ht : t ∈ ts) : Left h k t
  | serve {c : Config σ τ} {u : τ} {e : ε} {s : σ} {ts : List τ} (hu : ServedAt h c k u e)
      (ha : S.serve u e c.state = some (s, ts)) (ht : t ∈ ts) : Left h k t

theorem Left.append {h h' : List (Config σ τ × Label α ε)} {k : Nat} {t : τ} (hl : S.Left h k t) :
    S.Left (h ++ h') k t := by
  cases hl with
  | act hm hk ha ht => exact .act (List.mem_append_left _ hm) hk ha ht
  | serve hu ha ht =>
    obtain ⟨i, hm, hi⟩ := hu
    exact .serve ⟨i, List.mem_append_left _ hm, hi⟩ ha ht

theorem left_of_pending {s0 : σ} {k : Nat} {t : τ} (hr : S.run (.init s0) ls = some c)
    (hp : (k, t) ∈ c.pending) : S.Left (S.history (.init s0) ls) k t := by
  refine run_rule (I := fun h c => ∀ x ∈ c.pending, S.Left h x.1 x.2) hr nofun ?_ _ hp
  intro h c1 l c2 _ hI hs x hx
  cases hs with
  | act ha =>
    rcases Config.mem_acted.mp hx with hx | ⟨hk, hx⟩
    · exact (hI x hx).append
    · exact .act (List.mem_append_right _ (List.mem_singleton_self _)) hk.symm ha hx
  | serve hi ha =>
    rcases Config.mem_served hx with hx | ⟨hk, hx⟩
    · exact (hI x hx).append
    · rw [hk]
      exact .serve ⟨_, List.mem_append_right _ (List.mem_singleton_self _), hi⟩ ha hx

theorem history_subset (hr : S.run c ls = some c') :
    ∀ x ∈ S.history c ls, x ∈ S.history c (ls ++ ls') := by
  rw [history_append hr]
  exact fun x hx => List.mem_append_left _ hx

theorem pending_of_served {c1 : Config σ τ} {k : Nat} {t : τ} {e : ε} (hr : S.run c ls = some c')
    (hs : ServedAt (S.history c ls) c1 k t e) :
    ∃ ls1, S.run c ls1 = some c1 ∧ (k, t) ∈ c1.pending ∧ S.history c ls1 <+: S.history c ls := by
  obtain ⟨i, hm, hi⟩ := hs
  obtain ⟨ls1, ls2, c2, rfl, h1, _, _⟩ := history_split hr hm
  refine ⟨ls1, h1, mem_of_getElem? hi, ?_⟩
  rw [history_append h1]
  exact List.prefix_append _ _

theorem ordered {x y : Config σ τ × Label α ε} (hr : S.run c ls = some c')
    (hx : x ∈ S.history c ls) (hy : y ∈ S.history c ls) :
    (∃ ls', S.run x.1 ls' = some y.1) ∨ ∃ ls', S.run y.1 ls' = some x.1 := by
  obtain ⟨ls1, ls2, _, hls, h1, _, _⟩ := history_split hr hx
  obtain ⟨ls1', ls2', _, hls', h1', _, _⟩ := history_split hr hy
  rw [hls] at hls'
  rcases List.append_eq_append_iff.mp hls' with ⟨rest, rfl, _⟩ | ⟨rest, rfl, _⟩
  · obtain ⟨c1, h2, h3⟩ := run_append.mp h1'
    rw [h1] at h2
    cases h2
    exact .inl ⟨rest, h3⟩
  · obtain ⟨c1, h2, h3⟩ := run_append.mp h1
    rw [h1'] at h2
    cases h2
    exact .inr ⟨rest, h3⟩

theorem served_of_over {k : Nat} {t : τ} (hr : S.run c ls = some c') (hp : (k, t) ∈ c.pending)
    (hd : ¬ c'.Live k) : ∃ e, Served (S.history c ls) k t e := by
  induction ls generalizing c with
  | nil =>
    cases hr
    exact absurd ⟨t, hp⟩ hd
  | cons l ls ih =>
    obtain ⟨c1, hs, hr1⟩ := run_cons.mp hr
    have hh : S.history c (l :: ls) = [(c, l)] ++ S.history c1 ls := by
      simp [history, step_iff.mpr hs]
    rw [hh]
    by_cases hp1 : (k, t) ∈ c1.pending
    · obtain ⟨e, he⟩ := ih hr1 hp1
      exact ⟨e, served_append.mpr (.inr he)⟩
    cases hs with
    | act h => exact absurd (Config.mem_acted.mpr (.inl hp)) hp1
    | @serve i k' t' e s ts hi h =>
      rcases List.mem_cons.mp ((perm_eraseIdx hi).mem_iff.mp hp) with he | hm
      · cases he
        exact ⟨e, served_append.mpr (.inl ((served_serve hi).mpr ⟨rfl, rfl, rfl⟩))⟩
      · exact absurd (List.mem_append_left _ hm) hp1

theorem served_of_acted {s0 : σ} {k : Nat} {a : α} {e : ε} (hr : S.run (.init s0) ls = some c')
    (hd : ¬ c'.Live k) (ha : Acted (S.history (.init s0) ls) k a e) :
    ∃ ls1 c1 s ts, S.run (.init s0) ls1 = some c1 ∧ c1.clock = k ∧
      S.act a e c1.state = some (s, ts) ∧
      ∀ u ∈ ts, ∃ e', Served (S.history (.init s0) ls) k u e' := by
  obtain ⟨c1, hm, rfl⟩ := ha
  obtain ⟨ls1, ls2, c2, rfl, h1, h2, h3⟩ := history_split hr hm
  cases h2 with
  | @act _ _ s ts h =>
    refine ⟨ls1, c1, s, ts, h1, rfl, h, fun u hu => ?_⟩
    obtain ⟨e', he'⟩ := served_of_over h3 (Config.mem_acted.mpr (.inr ⟨rfl, hu⟩)) hd
    refine ⟨e', he'.mono fun x hx => ?_⟩
    rw [history_append h1]
    refine List.mem_append_right _ ?_
    simp only [history, step_iff.mpr (Step.act h)]
    exact List.mem_cons_of_mem _ hx

theorem served_next {c1 : Config σ τ} {k : Nat} {t : τ} {e : ε} (hr : S.run c ls = some c')
    (hd : ¬ c'.Live k) (hs : ServedAt (S.history c ls) c1 k t e) :
    ∃ s ts, S.serve t e c1.state = some (s, ts) ∧
      ∀ u ∈ ts, ∃ e', Served (S.history c ls) k u e' := by
  obtain ⟨i, hm, hi⟩ := hs
  obtain ⟨ls1, ls2, c2, rfl, h1, h2, h3⟩ := history_split hr hm
  cases h2 with
  | @serve _ k' t' _ s ts hi' h =>
    rw [hi] at hi'; cases hi'
    refine ⟨s, ts, h, fun u hu => ?_⟩
    obtain ⟨e', he'⟩ := served_of_over h3 (Config.mem_served_new hu) hd
    refine ⟨e', he'.mono fun x hx => ?_⟩
    rw [history_append h1]
    refine List.mem_append_right _ ?_
    simp only [history, step_iff.mpr (Step.serve hi h)]
    exact List.mem_cons_of_mem _ hx

end System

section Map

variable {σ' : Type u}

def Config.map (f : σ → σ') (c : Config σ τ) : Config σ' τ := ⟨f c.state, c.pending, c.clock⟩

@[simp] theorem Config.map_state (f : σ → σ') (c : Config σ τ) : (c.map f).state = f c.state := rfl
@[simp] theorem Config.map_tasks (f : σ → σ') (c : Config σ τ) : (c.map f).tasks = c.tasks := rfl

def mapHistory (f : σ → σ') (h : List (Config σ τ × Label α ε)) : List (Config σ' τ × Label α ε) :=
  h.map fun x => (x.1.map f, x.2)

@[simp] theorem mapHistory_id (h : List (Config σ τ × Label α ε)) : mapHistory id h = h :=
  List.map_id h

theorem mapHistory_append (f : σ → σ') (h h' : List (Config σ τ × Label α ε)) :
    mapHistory f (h ++ h') = mapHistory f h ++ mapHistory f h' := List.map_append

theorem servedAt_map {f : σ → σ'} {h : List (Config σ τ × Label α ε)} {c : Config σ τ} {k : Nat} {t : τ}
    {e : ε} (hs : ServedAt h c k t e) : ServedAt (mapHistory f h) (c.map f) k t e := by
  obtain ⟨i, hm, hi⟩ := hs
  exact ⟨i, List.mem_map.mpr ⟨_, hm, rfl⟩, hi⟩

theorem served_map {f : σ → σ'} {h : List (Config σ τ × Label α ε)} {k : Nat} {t : τ} {e : ε} :
    Served (mapHistory f h) k t e ↔ Served h k t e := by
  constructor
  · rintro ⟨c, i, hm, hi⟩
    obtain ⟨⟨c1, l⟩, hm1, he⟩ := List.mem_map.mp hm
    cases he
    exact ⟨c1, i, hm1, hi⟩
  · rintro ⟨c, hs⟩
    exact ⟨c.map f, servedAt_map hs⟩

end Map
end Async
