import WeddApp.Async.Origin

/-!
# Async.Projection

A system as one of its tenants sees it. A `Projection` of `S` onto a smaller system `T` says what a
tenant sees of a state (`view`), which pending callbacks are the tenant's (`own`), and which steps of
`S` are steps of `T`; every other step leaves the view and the tenant's callbacks as they are. So a
run of `S` is seen as a run of `T` (`sees_of_run`), and two runs that are seen as the same run of `T`
end alike for the tenant, whatever else happens in them (`same_view`).

`I` is what has to hold in the states of the run, `J` what holds of every pending callback.
-/

namespace Async

universe u v

section Lists

variable {τ : Type u} {τ' : Type v} {f : τ → Option τ'} {l : List τ} {i : Nat} {x : τ} {y : τ'}

/-- The position of an element among those that `f` keeps. -/
theorem filterMap_kept (hi : l[i]? = some x) (hx : f x = some y) :
    (l.filterMap f)[((l.take i).filterMap f).length]? = some y ∧
      (l.eraseIdx i).filterMap f = (l.filterMap f).eraseIdx ((l.take i).filterMap f).length := by
  induction l generalizing i with
  | nil => simp at hi
  | cons a l ih =>
    cases i with
    | zero =>
      simp only [List.getElem?_cons_zero, Option.some.injEq] at hi
      subst hi
      simp [hx]
    | succ i =>
      simp only [List.getElem?_cons_succ] at hi
      obtain ⟨hget, herase⟩ := ih hi
      cases ha : f a with
      | none => simp [ha, hget, herase]
      | some b => simp [ha, hget, herase]

/-- An element that `f` drops can be erased. -/
theorem filterMap_dropped (hi : l[i]? = some x) (hx : f x = none) :
    (l.eraseIdx i).filterMap f = l.filterMap f := by
  induction l generalizing i with
  | nil => simp at hi
  | cons a l ih =>
    cases i with
    | zero =>
      simp only [List.getElem?_cons_zero, Option.some.injEq] at hi
      subst hi
      simp [hx]
    | succ i =>
      simp only [List.getElem?_cons_succ] at hi
      simp only [List.eraseIdx_cons_succ, List.filterMap_cons, ih hi]

end Lists

variable {σ τ α ε : Type u} {σ' τ' α' ε' : Type v}

/-- The tenant takes an action and moves from `v` to `v'`, or nothing changes for it. -/
def System.Moves (T : System σ' τ' α' ε') (o : Option (α' × ε')) (v v' : σ') (ts : List τ') : Prop :=
  match o with
  | some (a, e) => T.act a e v = some (v', ts)
  | none => v' = v ∧ ts = []

structure Projection (S : System σ τ α ε) (T : System σ' τ' α' ε') (I : σ → Prop) (J : τ → Prop) where
  view : σ → σ'
  own : τ → Option τ'
  /-- What an action of `S` is for the tenant. -/
  taken : α → ε → σ → Option (α' × ε')
  /-- What a callback that is not the tenant's is for the tenant. -/
  started : τ → ε → σ → Option (α' × ε')
  /-- What a callback of the tenant reads. -/
  reads : τ → ε → σ → ε'
  act {a : α} {e : ε} {s s' : σ} {ts : List τ} : I s → S.act a e s = some (s', ts) →
    T.Moves (taken a e s) (view s) (view s') (ts.filterMap own) ∧ ∀ u ∈ ts, J u
  serve_own {t : τ} {t' : τ'} {e : ε} {s s' : σ} {ts : List τ} : I s → J t →
    S.serve t e s = some (s', ts) → own t = some t' →
    T.serve t' (reads t e s) (view s) = some (view s', ts.filterMap own)
  serve_other {t : τ} {e : ε} {s s' : σ} {ts : List τ} : I s → J t →
    S.serve t e s = some (s', ts) → own t = none →
    T.Moves (started t e s) (view s) (view s') (ts.filterMap own)
  serve_tasks {t : τ} {e : ε} {s s' : σ} {ts : List τ} : I s → J t →
    S.serve t e s = some (s', ts) → ∀ u ∈ ts, J u

namespace Projection

variable {S : System σ τ α ε} {T : System σ' τ' α' ε'} {I : σ → Prop} {J : τ → Prop}

/-- What a step is for the tenant. A callback of the tenant is named by its position among the
tenant's. -/
def label (P : Projection S T I J) (c : Config σ τ) : Label α ε → Option (Label α' ε')
  | .act a e => (P.taken a e c.state).map fun x => .act x.1 x.2
  | .serve i e =>
    match c.pending[i]? with
    | none => none
    | some (_, t) =>
      match P.own t with
      | none => (P.started t e c.state).map fun x => .act x.1 x.2
      | some _ => some (.serve ((c.tasks.take i).filterMap P.own).length (P.reads t e c.state))

def labels (P : Projection S T I J) (h : List (Config σ τ × Label α ε)) : List (Label α' ε') :=
  h.filterMap fun x => P.label x.1 x.2

structure Sees (P : Projection S T I J) (c : Config σ τ) (d : Config σ' τ') : Prop where
  state : d.state = P.view c.state
  tasks : d.tasks = c.tasks.filterMap P.own
  ok : ∀ t ∈ c.tasks, J t

variable {P : Projection S T I J} {c c' : Config σ τ} {d : Config σ' τ'} {l : Label α ε}

theorem sees_moves {o : Option (α' × ε')} {s : σ} {ts : List τ'} (hf : P.Sees c d)
    (hm : T.Moves o (P.view c.state) (P.view s) ts) (hs : c'.state = s)
    (ht : c'.tasks.filterMap P.own = c.tasks.filterMap P.own ++ ts) (hok : ∀ t ∈ c'.tasks, J t) :
    ∃ d', T.run d (o.map fun x => Label.act x.1 x.2).toList = some d' ∧ P.Sees c' d' := by
  cases o with
  | none =>
    obtain ⟨hv, hts⟩ := hm
    refine ⟨d, rfl, ?_, ?_, hok⟩
    · rw [hf.state, hs, hv]
    · rw [hf.tasks, ht, hts, List.append_nil]
  | some x =>
    obtain ⟨a, e⟩ := x
    have hstep : T.Step d (.act a e) (d.acted (P.view s) ts) := by
      refine .act ?_
      rw [hf.state]
      exact hm
    refine ⟨_, System.run_cons.mpr ⟨_, hstep, rfl⟩, ?_, ?_, hok⟩
    · rw [hs]; rfl
    · rw [Config.tasks_acted, hf.tasks, ht]

theorem tasks_erased (i k : Nat) (s : σ) (ts : List τ) :
    (c.served i k s ts).tasks = c.tasks.eraseIdx i ++ ts := by
  simp [Config.tasks, Config.served, List.eraseIdx_map, Function.comp_def]

theorem sees_step (hf : P.Sees c d) (hI : I c.state) (hs : S.Step c l c') :
    ∃ d', T.run d (P.label c l).toList = some d' ∧ P.Sees c' d' := by
  cases hs with
  | @act a e s ts ha =>
    obtain ⟨hm, hts⟩ := P.act hI ha
    refine sees_moves hf hm rfl ?_ fun t ht => ?_
    · rw [Config.tasks_acted, List.filterMap_append]
    · rw [Config.tasks_acted, List.mem_append] at ht
      exact ht.elim (hf.ok t) (hts t)
  | @serve i k t e s ts hi ha =>
    have htask : c.tasks[i]? = some t := by
      rw [Config.tasks, List.getElem?_map, hi]; rfl
    have hJ : J t := hf.ok t (mem_of_getElem? htask)
    have hok : ∀ u ∈ (c.served i k s ts).tasks, J u := by
      intro u hu
      rw [tasks_erased, List.mem_append] at hu
      rcases hu with hu | hu
      · exact hf.ok u (List.mem_of_mem_eraseIdx hu)
      · exact P.serve_tasks hI hJ ha u hu
    cases ht : P.own t with
    | none =>
      have hlabel : P.label c (.serve i e) =
          (P.started t e c.state).map fun x => .act x.1 x.2 := by
        simp only [label, hi, ht]
      rw [hlabel]
      refine sees_moves hf (P.serve_other hI hJ ha ht) rfl ?_ hok
      rw [tasks_erased, List.filterMap_append, filterMap_dropped htask ht]
    | some t' =>
      have hlabel : P.label c (.serve i e) =
          some (.serve ((c.tasks.take i).filterMap P.own).length (P.reads t e c.state)) := by
        simp only [label, hi, ht]
      obtain ⟨hget, herase⟩ := filterMap_kept htask ht
      obtain ⟨⟨k', u⟩, hd, hu⟩ : ∃ x, d.pending[((c.tasks.take i).filterMap P.own).length]? = some x ∧
          x.2 = t' := by
        rw [← hf.tasks, Config.tasks, List.getElem?_map, Option.map_eq_some_iff] at hget
        exact hget
      subst hu
      have hstep := P.serve_own hI hJ ha ht
      rw [← hf.state] at hstep
      rw [hlabel]
      refine ⟨_, System.run_cons.mpr ⟨_, .serve hd hstep, rfl⟩, rfl, ?_, hok⟩
      rw [tasks_erased, tasks_erased, hf.tasks, List.filterMap_append, herase]

theorem labels_append (h h' : List (Config σ τ × Label α ε)) :
    P.labels (h ++ h') = P.labels h ++ P.labels h' := List.filterMap_append

theorem labels_singleton : P.labels [(c, l)] = (P.label c l).toList := by
  simp only [labels, List.filterMap_cons, List.filterMap_nil]
  cases P.label c l <;> rfl

theorem sees_of_run {ls : List (Label α ε)} (hr : S.run c ls = some c') (hf : P.Sees c d)
    (hI : ∀ x ∈ S.history c ls, I x.1.state) :
    ∃ d', T.run d (P.labels (S.history c ls)) = some d' ∧ P.Sees c' d' := by
  refine System.run_rule (I := fun h c1 => ∃ d', T.run d (P.labels h) = some d' ∧ P.Sees c1 d')
    hr ⟨d, rfl, hf⟩ ?_
  intro h c1 l1 c2 hm hsees hs
  obtain ⟨d1, hd1, hf1⟩ := hsees
  obtain ⟨d2, hd2, hf2⟩ := sees_step hf1 (hI _ hm) hs
  refine ⟨d2, ?_, hf2⟩
  rw [labels_append, labels_singleton, System.run_append]
  exact ⟨d1, hd1, hd2⟩

theorem served_label (hf : P.Sees c d) (hs : S.Step c l c') {k' : Nat} {t' : τ'} {e' : ε'}
    (hserved : Served (T.history d (P.label c l).toList) k' t' e') :
    ∃ k t e, ServedAt [(c, l)] c k t e ∧ P.own t = some t' ∧ P.reads t e c.state = e' := by
  have hact : ∀ o : Option (α' × ε'),
      ¬ Served (T.history d (o.map fun x => Label.act x.1 x.2).toList) k' t' e' := by
    rintro (_ | ⟨a, e⟩) ⟨d1, i, hm, _⟩
    · cases hm
    · have hl := System.mem_of_history hm
      simp at hl
  cases hs with
  | act _ => exact absurd hserved (hact _)
  | @serve i k t e s ts hi _ =>
    have htask : c.tasks[i]? = some t := by
      rw [Config.tasks, List.getElem?_map, hi]; rfl
    cases ht : P.own t with
    | none =>
      simp only [label, hi, ht] at hserved
      exact absurd hserved (hact _)
    | some u =>
      simp only [label, hi, ht, Option.toList_some] at hserved
      obtain ⟨hget, _⟩ := filterMap_kept htask ht
      rw [← hf.tasks, Config.tasks, List.getElem?_map] at hget
      obtain ⟨d1, j, hm, hj⟩ := hserved
      simp only [System.history] at hm
      split at hm
      · cases hm
      · simp only [List.mem_singleton, Prod.mk.injEq, Label.serve.injEq] at hm
        obtain ⟨rfl, rfl, rfl⟩ := hm
        rw [hj] at hget
        cases hget
        exact ⟨k, t, e, ⟨i, List.mem_singleton_self _, hi⟩, ht, rfl⟩

theorem served_of_labels {ls : List (Label α ε)} (hr : S.run c ls = some c') (hf : P.Sees c d)
    (hI : ∀ x ∈ S.history c ls, I x.1.state) {k' : Nat} {t' : τ'} {e' : ε'}
    (hserved : Served (T.history d (P.labels (S.history c ls))) k' t' e') :
    ∃ c1 k t e, ServedAt (S.history c ls) c1 k t e ∧ P.own t = some t' ∧
      P.reads t e c1.state = e' := by
  refine (System.run_rule (I := fun h c1 => ∃ d1, T.run d (P.labels h) = some d1 ∧ P.Sees c1 d1 ∧
    ∀ k' t' e', Served (T.history d (P.labels h)) k' t' e' → ∃ c2 k t e, ServedAt h c2 k t e ∧
      P.own t = some t' ∧ P.reads t e c2.state = e') hr ⟨d, rfl, hf, ?_⟩ ?_).elim
    fun _ h => h.2.2 k' t' e' hserved
  · rintro _ _ _ ⟨_, _, hm, _⟩
    cases hm
  · rintro h c1 l1 c2 hm ⟨d1, hd1, hf1, hserved1⟩ hs
    obtain ⟨d2, hd2, hf2⟩ := sees_step hf1 (hI _ hm) hs
    refine ⟨d2, ?_, hf2, fun k' t' e' hsv => ?_⟩
    · rw [labels_append, labels_singleton, System.run_append]
      exact ⟨d1, hd1, hd2⟩
    · rw [labels_append, labels_singleton, System.history_append hd1, served_append] at hsv
      rcases hsv with hsv | hsv
      · obtain ⟨c3, k, t, e, ⟨i, hm, hi⟩, ht, he⟩ := hserved1 k' t' e' hsv
        exact ⟨c3, k, t, e, ⟨i, List.mem_append_left _ hm, hi⟩, ht, he⟩
      · obtain ⟨k, t, e, ⟨i, hm, hi⟩, ht, he⟩ := served_label hf1 hs hsv
        exact ⟨c1, k, t, e, ⟨i, List.mem_append_right _ hm, hi⟩, ht, he⟩

/-- Two runs from states that look the same to the tenant, and in which the tenant's steps are the
same, end in states that look the same to it. -/
theorem same_view {s1 s2 : σ} {c1 c2 : Config σ τ} {ls1 ls2 : List (Label α ε)}
    (hr1 : S.run (.init s1) ls1 = some c1) (hr2 : S.run (.init s2) ls2 = some c2)
    (hI1 : ∀ x ∈ S.history (.init s1) ls1, I x.1.state)
    (hI2 : ∀ x ∈ S.history (.init s2) ls2, I x.1.state) (hs : P.view s1 = P.view s2)
    (hl : P.labels (S.history (.init s1) ls1) = P.labels (S.history (.init s2) ls2)) :
    P.view c1.state = P.view c2.state := by
  have hinit : ∀ s, P.Sees (.init s) (.init (P.view s)) := fun s =>
    ⟨rfl, rfl, fun t ht => by cases ht⟩
  obtain ⟨d1, hd1, hf1⟩ := sees_of_run hr1 (hinit s1) hI1
  obtain ⟨d2, hd2, hf2⟩ := sees_of_run hr2 (hinit s2) hI2
  rw [hl, hs, hd2] at hd1
  cases hd1
  rw [← hf1.state, ← hf2.state]

end Projection

end Async
