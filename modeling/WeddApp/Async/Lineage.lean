import WeddApp.Async.Origin

/-!
# Async.Lineage

Following one action through a run: what is pending for it (`Config.descendants`), what is served
for it (`servedOf`).

* `lineage_rule`: a property that callbacks hand down holds of all that an action leads to;
  `quiet_rule`: of all that is served while no action leaves anything pending.
* `follow`: a callback that is all that an action has pending is served before the action is over,
  and nothing else of the action is served before it (`Answered`).
* `descend_act`: from an action in the middle of a run to the rest of the run.
* `served_once`: when each callback names the one that left it pending, none runs twice.
-/

namespace Async

universe u

variable {σ τ α ε : Type u}

def Config.descendants (c : Config σ τ) (k : Nat) : List τ :=
  c.pending.filterMap fun x => if x.1 = k then some x.2 else none

theorem Config.mem_descendants {c : Config σ τ} {k : Nat} {t : τ} :
    t ∈ c.descendants k ↔ (k, t) ∈ c.pending := by
  simp only [descendants, List.mem_filterMap]
  constructor
  · rintro ⟨⟨k', t'⟩, hm, he⟩
    split at he
    · rename_i hk
      cases he; cases hk; exact hm
    · cases he
  · intro hm
    exact ⟨_, hm, by simp⟩

theorem Config.live_iff {c : Config σ τ} {k : Nat} : c.Live k ↔ c.descendants k ≠ [] := by
  constructor
  · rintro ⟨t, ht⟩ hn
    rw [← mem_descendants, hn] at ht; cases ht
  · intro hn
    obtain ⟨t, ht⟩ := List.exists_mem_of_ne_nil _ hn
    exact ⟨t, mem_descendants.mp ht⟩

theorem descendants_map (k k' : Nat) (ts : List τ) :
    (ts.map (Prod.mk k')).filterMap (fun x => if x.1 = k then some x.2 else none) =
      if k' = k then ts else [] := by
  rw [List.filterMap_map]
  by_cases h : k' = k
  · simp [h]
  · simp [h]

theorem Config.descendants_acted (c : Config σ τ) (s : σ) (ts : List τ) (k : Nat) :
    (c.acted s ts).descendants k = c.descendants k ++ if c.clock = k then ts else [] := by
  rw [descendants, acted, List.filterMap_append, descendants_map]
  rfl

theorem Config.descendants_served_self {c : Config σ τ} {i k : Nat} {t : τ}
    (hi : c.pending[i]? = some (k, t)) (s : σ) (ts : List τ) :
    ∃ rest, (c.descendants k).Perm (t :: rest) ∧ (c.served i k s ts).descendants k = rest ++ ts := by
  refine ⟨(c.pending.eraseIdx i).filterMap fun x => if x.1 = k then some x.2 else none, ?_, ?_⟩
  · refine ((perm_eraseIdx hi).filterMap _).trans ?_
    rw [List.filterMap_cons_some (by simp; rfl)]
  · rw [descendants, served, List.filterMap_append, descendants_map, if_pos rfl]

theorem Config.descendants_served_ne {c : Config σ τ} {i k k' : Nat} {t : τ}
    (hi : c.pending[i]? = some (k', t)) (hk : k' ≠ k) (s : σ) (ts : List τ) :
    (c.descendants k).Perm ((c.served i k' s ts).descendants k) := by
  rw [descendants, descendants, served, List.filterMap_append, descendants_map, if_neg hk,
    List.append_nil]
  refine ((perm_eraseIdx hi).filterMap _).trans ?_
  rw [List.filterMap_cons_none (by simp [hk])]

/-- The callbacks of action number `k` that ran, in order, each with its environment. -/
def servedOf (h : List (Config σ τ × Label α ε)) (k : Nat) : List (τ × ε) :=
  h.filterMap fun x =>
    match x.2 with
    | .act _ _ => none
    | .serve i e =>
      match x.1.pending[i]? with
      | none => none
      | some (k', t) => if k' = k then some (t, e) else none

theorem servedOf_append (h h' : List (Config σ τ × Label α ε)) (k : Nat) :
    servedOf (h ++ h') k = servedOf h k ++ servedOf h' k := List.filterMap_append

theorem servedOf_act (c : Config σ τ) (a : α) (e : ε) (k : Nat) :
    servedOf [(c, Label.act a e)] k = [] := rfl

theorem servedOf_serve {c : Config σ τ} {i k' : Nat} {t : τ} (hi : c.pending[i]? = some (k', t))
    (e : ε) (k : Nat) :
    servedOf [(c, (Label.serve i e : Label α ε))] k = if k' = k then [(t, e)] else [] := by
  by_cases hk : k' = k
  · simp [servedOf, hi, hk]
  · simp [servedOf, hi, hk]

theorem mem_servedOf {h : List (Config σ τ × Label α ε)} {k : Nat} {t : τ} {e : ε} :
    (t, e) ∈ servedOf h k ↔ Served h k t e := by
  simp only [servedOf, List.mem_filterMap]
  constructor
  · rintro ⟨⟨c, l⟩, hm, he⟩
    cases l with
    | act a e' => cases he
    | serve i e' =>
      simp only at he
      split at he
      · cases he
      · rename_i k' t' hi
        split at he
        · rename_i hk
          cases he
          exact ⟨c, i, hm, by rw [hi, hk]⟩
        · cases he
  · rintro ⟨c, i, hm, hi⟩
    exact ⟨_, hm, by simp [hi]⟩

namespace System

variable {S : System σ τ α ε} {c c' c'' : Config σ τ} {l : Label α ε} {ls ls' : List (Label α ε)}

theorem history_cons (hs : S.Step c l c') : S.history c (l :: ls) = [(c, l)] ++ S.history c' ls := by
  simp [history, step_iff.mpr hs]

theorem served_lt_clock {k : Nat} {t : τ} {e : ε} (hr : S.run c ls = some c') (hd : c.Dated)
    (hs : Served (S.history c ls) k t e) : k < c'.clock := by
  obtain ⟨c1, i, hm, hi⟩ := hs
  obtain ⟨ls1, ls2, c2, _, h1, h2, h3⟩ := history_split hr hm
  have hk : k < c1.clock := run_dated h1 hd _ (mem_of_getElem? hi)
  exact Nat.lt_of_lt_of_le hk (Nat.le_trans h2.clock_le (run_clock_le h3))

/-- A property that callbacks hand down. -/
theorem lineage_rule {P : τ → Prop} {k : Nat} (hr : S.run c ls = some c') (hk : k < c.clock)
    (init : ∀ t ∈ c.descendants k, P t)
    (keep : ∀ t e s s' ts, P t → S.serve t e s = some (s', ts) → ∀ u ∈ ts, P u) :
    ∀ t e, Served (S.history c ls) k t e → P t := by
  induction ls generalizing c with
  | nil =>
    rintro t e ⟨_, _, hm, _⟩
    cases hm
  | cons l ls ih =>
    obtain ⟨c1, hs, hr1⟩ := run_cons.mp hr
    intro t e hsv
    rw [history_cons hs, served_append] at hsv
    have hk1 : k < c1.clock := Nat.lt_of_lt_of_le hk hs.clock_le
    cases hs with
    | act h =>
      rcases hsv with hsv | hsv
      · exact absurd hsv served_act
      · refine ih hr1 hk1 ?_ t e hsv
        rw [Config.descendants_acted, if_neg (by omega), List.append_nil]
        exact init
    | @serve i k' t' e' s ts hi h =>
      rcases hsv with hsv | hsv
      · obtain ⟨rfl, rfl, rfl⟩ := (served_serve hi).mp hsv
        exact init _ (Config.mem_descendants.mpr (mem_of_getElem? hi))
      · refine ih hr1 hk1 ?_ t e hsv
        by_cases he : k' = k
        · subst he
          obtain ⟨rest, hp, hd⟩ := Config.descendants_served_self hi s ts
          rw [hd]
          intro u hu
          rcases List.mem_append.mp hu with hu | hu
          · exact init u (hp.mem_iff.mpr (List.mem_cons_of_mem _ hu))
          · exact keep t' e' _ s ts (init _ (hp.mem_iff.mpr List.mem_cons_self)) h u hu
        · intro u hu
          exact init u ((Config.descendants_served_ne hi he s ts).mem_iff.mpr hu)

/-- A property that callbacks hand down, in a run whose actions leave nothing pending. -/
theorem quiet_rule {P : Nat → τ → Prop} (hr : S.run c ls = some c')
    (quiet : ∀ a e s s' ts, .act a e ∈ ls → S.act a e s = some (s', ts) → ts = [])
    (init : ∀ x ∈ c.pending, P x.1 x.2)
    (keep : ∀ k t e s s' ts, P k t → S.serve t e s = some (s', ts) → ∀ u ∈ ts, P k u) :
    ∀ k t e, Served (S.history c ls) k t e → P k t := by
  refine (run_rule (I := fun h c1 => (∀ k t e, Served h k t e → P k t) ∧
    ∀ x ∈ c1.pending, P x.1 x.2) hr ⟨?_, init⟩ ?_).1
  · rintro k t e ⟨_, _, hm, _⟩
    cases hm
  · rintro h c1 l c2 hm ⟨hI, hJ⟩ hs
    cases hs with
    | act ha =>
      refine ⟨fun k t e hsv => ?_, fun x hx => ?_⟩
      · rcases served_append.mp hsv with hsv | hsv
        · exact hI k t e hsv
        · exact absurd hsv served_act
      · rw [quiet _ _ _ _ _ (mem_of_history hm) ha] at hx
        rcases Config.mem_acted.mp hx with hx | ⟨_, hx⟩
        · exact hJ x hx
        · cases hx
    | serve hi ha =>
      have hp := hJ _ (mem_of_getElem? hi)
      refine ⟨fun k t e hsv => ?_, fun x hx => ?_⟩
      · rcases served_append.mp hsv with hsv | hsv
        · exact hI k t e hsv
        · obtain ⟨rfl, rfl, rfl⟩ := (served_serve hi).mp hsv
          exact hp
      · rcases Config.mem_served hx with hx | ⟨hk, hx⟩
        · exact hJ x hx
        · rw [hk]; exact keep _ _ _ _ _ _ hp ha _ hx

variable (S) in
/-- Within a run that ends in `c'` and has the history `h`, the callback `t` of action `k` ran from
`c1` to `c2`, left `ts` pending and was the first callback of `k` to run; the rest of the run is
`ls`. -/
structure Answered (h : List (Config σ τ × Label α ε)) (c' : Config σ τ) (k : Nat) (t : τ)
    (c1 : Config σ τ) (e : ε) (c2 : Config σ τ) (ls : List (Label α ε)) (ts : List τ) : Prop where
  served : ServedAt h c1 k t e
  serve : S.serve t e c1.state = some (c2.state, ts)
  run : S.run c2 ls = some c'
  clock : k < c2.clock
  descendants : c2.descendants k = ts
  mem : ∀ x ∈ S.history c2 ls, x ∈ h
  only : ∀ t' e', Served h k t' e' → t' = t ∧ e' = e ∨ Served (S.history c2 ls) k t' e'

theorem Answered.cons {x : Config σ τ × Label α ε} {h : List (Config σ τ × Label α ε)} {k : Nat}
    {t : τ} {c1 c2 : Config σ τ} {e : ε} {ts : List τ} (ha : S.Answered h c' k t c1 e c2 ls ts)
    (hno : ∀ t' e', ¬ Served [x] k t' e') : S.Answered ([x] ++ h) c' k t c1 e c2 ls ts where
  served := by
    obtain ⟨i, hm, hi⟩ := ha.served
    exact ⟨i, List.mem_append_right _ hm, hi⟩
  serve := ha.serve
  run := ha.run
  clock := ha.clock
  descendants := ha.descendants
  mem := fun y hy => List.mem_append_right _ (ha.mem y hy)
  only := by
    intro t' e' hs
    rcases served_append.mp hs with hs | hs
    · exact absurd hs (hno t' e')
    · exact ha.only t' e' hs

/-- A callback that is all that its action has pending is served before the action is over. -/
theorem follow {k : Nat} {t : τ} (hr : S.run c ls = some c') (hk : k < c.clock)
    (hone : c.descendants k = [t]) (hd : ¬ c'.Live k) :
    ∃ c1 e c2 ls2 ts, S.Answered (S.history c ls) c' k t c1 e c2 ls2 ts := by
  induction ls generalizing c with
  | nil =>
    cases hr
    exact absurd (Config.live_iff.mpr (by rw [hone]; nofun)) hd
  | cons l ls ih =>
    obtain ⟨c1, hs, hr1⟩ := run_cons.mp hr
    have hk1 : k < c1.clock := Nat.lt_of_lt_of_le hk hs.clock_le
    rw [history_cons hs]
    cases hs with
    | act h =>
      obtain ⟨c2, e, c3, ls2, ts, ha⟩ := ih hr1 hk1 (by
        rw [Config.descendants_acted, if_neg (by omega), List.append_nil, hone])
      exact ⟨c2, e, c3, ls2, ts, ha.cons fun _ _ => served_act⟩
    | @serve i k' t' e s ts hi h =>
      by_cases he : k' = k
      · subst he
        have hm := Config.mem_descendants.mpr (mem_of_getElem? hi)
        rw [hone, List.mem_singleton] at hm
        subst hm
        obtain ⟨rest, hp, hdes⟩ := Config.descendants_served_self hi s ts
        rw [hone] at hp
        have hlen := hp.length_eq
        have hrest : rest = [] := List.length_eq_zero_iff.mp (by simpa using hlen)
        subst hrest
        refine ⟨c, e, _, ls, ts, ⟨i, by simp, hi⟩, h, hr1, hk1, hdes, ?_, ?_⟩
        · intro x hx; exact List.mem_append_right _ hx
        · intro t2 e2 hsv
          rcases served_append.mp hsv with hsv | hsv
          · exact .inl ((served_serve hi).mp hsv).2
          · exact .inr hsv
      · have hp := Config.descendants_served_ne hi he s ts
        rw [hone] at hp
        obtain ⟨c2, e2, c3, ls2, ts2, ha⟩ := ih hr1 hk1 (List.perm_singleton.mp hp.symm)
        refine ⟨c2, e2, c3, ls2, ts2, ha.cons ?_⟩
        intro t2 e2 hsv
        exact he ((served_serve hi).mp hsv).1.symm

theorem descend_act {s0 : σ} {c0 : Config σ τ} {a : α} {e : ε} (hr : S.run (.init s0) ls = some c')
    (hx : (c0, .act a e) ∈ S.history (.init s0) ls) :
    ∃ s ts ls2, S.act a e c0.state = some (s, ts) ∧ S.run (c0.acted s ts) ls2 = some c' ∧
      (c0.acted s ts).descendants c0.clock = ts ∧
      (∀ x ∈ S.history (c0.acted s ts) ls2, x ∈ S.history (.init s0) ls) ∧
      ∀ t e', Served (S.history (.init s0) ls) c0.clock t e' →
        Served (S.history (c0.acted s ts) ls2) c0.clock t e' := by
  obtain ⟨ls1, ls2, c2, rfl, h1, h2, h3⟩ := history_split hr hx
  have hdated : c0.Dated := run_dated h1 fun _ hx => by cases hx
  have hh : S.history (.init s0) (ls1 ++ .act a e :: ls2) =
      S.history (.init s0) ls1 ++ ([(c0, .act a e)] ++ S.history c2 ls2) := by
    rw [history_append h1, history_cons h2]
  cases h2 with
  | @act _ _ s ts h =>
    refine ⟨s, ts, ls2, h, h3, ?_, ?_, ?_⟩
    · have hn : c0.descendants c0.clock = [] := by
        by_contra hn
        obtain ⟨t, ht⟩ := Config.live_iff.mpr hn
        exact Nat.lt_irrefl _ (hdated _ ht)
      rw [Config.descendants_acted, hn, if_pos rfl, List.nil_append]
    · intro x hx
      rw [hh]
      exact List.mem_append_right _ (List.mem_append_right _ hx)
    · intro t e' hsv
      rw [hh, served_append, served_append] at hsv
      rcases hsv with hsv | hsv | hsv
      · exact absurd (served_lt_clock h1 (fun _ hx => by cases hx) hsv) (Nat.lt_irrefl _)
      · exact absurd hsv served_act
      · exact hsv

/-- No callback is pending twice or runs twice, when each names the one that left it pending. -/
structure Once (parent : τ → Option τ) (h : List (Config σ τ × Label α ε)) (c : Config σ τ) :
    Prop where
  nodup : c.tasks.Nodup
  fresh : ∀ t ∈ c.tasks, ∀ k e, ¬ Served h k t e
  left : ∀ u t, parent u = some t → (u ∈ c.tasks ∨ ∃ k e, Served h k u e) → ∃ k e, Served h k t e
  once : ∀ k k' t e e', Served h k t e → Served h k' t e' → e = e'

theorem Once.serve {parent : τ → Option τ} {h : List (Config σ τ × Label α ε)} {i k : Nat} {t : τ}
    {e : ε} {s : σ} {ts : List τ} (hI : Once parent h c) (hi : c.pending[i]? = some (k, t))
    (hn : ts.Nodup) (hts : ∀ u ∈ ts, parent u = some t) :
    Once parent (h ++ [(c, .serve i e)]) (c.served i k s ts) := by
  obtain ⟨rest, hperm, htasks⟩ := Config.tasks_served hi s ts
  have ht : t ∈ c.tasks := hperm.mem_iff.mpr List.mem_cons_self
  have hrest : ∀ u ∈ rest, u ∈ c.tasks := fun u hu => hperm.mem_iff.mpr (List.mem_cons_of_mem _ hu)
  obtain ⟨htrest, hnrest⟩ := List.nodup_cons.mp (hperm.nodup_iff.mp hI.nodup)
  have hnew : ∀ k' u e', Served (h ++ [(c, .serve i e)]) k' u e' →
      Served h k' u e' ∨ u = t ∧ e' = e := by
    intro k' u e' hs
    rcases served_append.mp hs with hs | hs
    · exact .inl hs
    · exact .inr ((served_serve hi).mp hs).2
  -- what `t` leaves was never pending before, for `t` itself had not run
  have hfirst : ∀ u ∈ ts, u ∉ c.tasks ∧ ∀ k' e', ¬ Served h k' u e' := by
    intro u hu
    have hno : ¬ (u ∈ c.tasks ∨ ∃ k' e', Served h k' u e') := by
      intro hor
      obtain ⟨k', e', hs⟩ := hI.left u t (hts u hu) hor
      exact hI.fresh t ht k' e' hs
    exact ⟨fun hm => hno (.inl hm), fun k' e' hs => hno (.inr ⟨k', e', hs⟩)⟩
  constructor
  · rw [htasks]
    refine List.nodup_append.mpr ⟨hnrest, hn, fun u hu v hv he => ?_⟩
    subst he
    exact (hfirst u hv).1 (hrest u hu)
  · intro u hu k' e' hs
    rw [htasks, List.mem_append] at hu
    rcases hnew k' u e' hs with hs | ⟨rfl, _⟩
    · rcases hu with hu | hu
      · exact hI.fresh u (hrest u hu) k' e' hs
      · exact (hfirst u hu).2 k' e' hs
    · rcases hu with hu | hu
      · exact htrest hu
      · exact (hfirst u hu).1 ht
  · intro u v hv hu
    have hself : Served (h ++ [(c, .serve i e)]) k t e :=
      served_append.mpr (.inr ((served_serve hi).mpr ⟨rfl, rfl, rfl⟩))
    have hold : u ∈ c.tasks ∨ (∃ k' e', Served h k' u e') → ∃ k' e',
        Served (h ++ [(c, .serve i e)]) k' v e' := by
      intro hor
      obtain ⟨k', e', hs⟩ := hI.left u v hv hor
      exact ⟨k', e', served_append.mpr (.inl hs)⟩
    rcases hu with hu | ⟨k', e', hs⟩
    · rw [htasks, List.mem_append] at hu
      rcases hu with hu | hu
      · exact hold (.inl (hrest u hu))
      · rw [hts u hu] at hv
        cases hv
        exact ⟨k, e, hself⟩
    · rcases hnew k' u e' hs with hs | ⟨rfl, _⟩
      · exact hold (.inr ⟨k', e', hs⟩)
      · exact hold (.inl ht)
  · intro k1 k2 u e1 e2 h1 h2
    rcases hnew k1 u e1 h1 with h1 | ⟨hu, he1⟩
    · rcases hnew k2 u e2 h2 with h2 | ⟨hu, _⟩
      · exact hI.once k1 k2 u e1 e2 h1 h2
      · exact absurd h1 (hI.fresh u (by rw [hu]; exact ht) k1 e1)
    · rcases hnew k2 u e2 h2 with h2 | ⟨_, he2⟩
      · exact absurd h2 (hI.fresh u (by rw [hu]; exact ht) k2 e2)
      · rw [he1, he2]

/-- In a run of callbacks only, a callback runs at most once if none is pending twice at the start and
each that is left pending names the one that left it. -/
theorem served_once {P : τ → Prop} (parent : τ → Option τ) (hr : S.run c ls = some c')
    (quiet : ∀ l ∈ ls, l.isServe = true) (hn : c.tasks.Nodup)
    (init : ∀ t ∈ c.tasks, P t ∧ parent t = none)
    (keep : ∀ t e s s' ts, P t → S.serve t e s = some (s', ts) →
      ts.Nodup ∧ ∀ u ∈ ts, P u ∧ parent u = some t) {k k' : Nat} {t : τ} {e e' : ε}
    (hs : Served (S.history c ls) k t e) (hs' : Served (S.history c ls) k' t e') : e = e' := by
  have hnone : ∀ k t e, ¬ Served ([] : List (Config σ τ × Label α ε)) k t e := by
    rintro k t e ⟨_, _, hm, _⟩
    cases hm
  refine (run_rule (I := fun h c1 => Once parent h c1 ∧ ∀ t ∈ c1.tasks, P t) hr ?_ ?_).1.once
    k k' t e e' hs hs'
  · refine ⟨⟨hn, fun t _ k e => hnone k t e, fun u v hv hu => ?_, fun k _ t e _ h1 _ => ?_⟩,
      fun t ht => (init t ht).1⟩
    · rcases hu with hu | ⟨k, e, hu⟩
      · rw [(init u hu).2] at hv
        cases hv
      · exact absurd hu (hnone k u e)
    · exact absurd h1 (hnone k t e)
  · rintro h c1 l c2 hm ⟨hI, hP⟩ hstep
    cases hstep with
    | act _ =>
      cases quiet _ (mem_of_history hm)
    | @serve i k t e s ts hi ha =>
      obtain ⟨rest, hperm, htasks⟩ := Config.tasks_served hi s ts
      obtain ⟨hnts, hts⟩ := keep _ _ _ _ _ (hP t (hperm.mem_iff.mpr List.mem_cons_self)) ha
      refine ⟨hI.serve hi hnts fun u hu => (hts u hu).2, fun u hu => ?_⟩
      rw [htasks, List.mem_append] at hu
      rcases hu with hu | hu
      · exact hP u (hperm.mem_iff.mpr (List.mem_cons_of_mem _ hu))
      · exact (hts u hu).1

end System
end Async
