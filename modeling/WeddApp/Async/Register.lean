import WeddApp.Async.Origin

/-!
# Async.Register

A part of the state that only callbacks write, each as a whole, and that actions leave alone. The
last write wins, and a write of an earlier action can only win over one of a later action when the
two overlapped (`last_writer`).
-/

namespace Async

universe u

variable {σ τ α ε ν : Type u}

/-- A part of the state, with what a callback writes to it. -/
structure Register (S : System σ τ α ε) (ν : Type u) where
  val : σ → Option ν
  writes : τ → ε → Option ν
  act : ∀ {a e s s' ts}, S.act a e s = some (s', ts) → val s' = val s
  serve : ∀ {t e s s' ts}, S.serve t e s = some (s', ts) → val s' = (writes t e).or (val s)

namespace Register

variable {S : System σ τ α ε} (R : Register S ν) {c c' : Config σ τ} {l : Label α ε}
  {ls : List (Label α ε)} {h h' : List (Config σ τ × Label α ε)}

def Wrote (h : List (Config σ τ × Label α ε)) (k : Nat) (v : ν) : Prop :=
  ∃ t e, Served h k t e ∧ R.writes t e = some v

/-- The register holds what one of its writers wrote, and every later action that wrote it as well
was taken while that writer still had something pending. -/
def Held (h : List (Config σ τ × Label α ε)) (s : σ) : Prop :=
  ∃ m v, R.Wrote h m v ∧ R.val s = some v ∧
    ∀ j w, R.Wrote h j w → m < j → ∃ cj a e, (cj, .act a e) ∈ h ∧ cj.clock = j ∧ cj.Live m

def LastWrote (h : List (Config σ τ × Label α ε)) (v : ν) : Prop :=
  ∃ h1 c i e h2 k t, h = h1 ++ (c, .serve i e) :: h2 ∧ c.pending[i]? = some (k, t) ∧
    R.writes t e = some v ∧ ∀ k w, ¬ R.Wrote h2 k w

variable {R}

theorem wrote_append {k : Nat} {v : ν} : R.Wrote (h ++ h') k v ↔ R.Wrote h k v ∨ R.Wrote h' k v := by
  constructor
  · rintro ⟨t, e, hs, hw⟩
    rcases served_append.mp hs with hs | hs
    · exact .inl ⟨t, e, hs, hw⟩
    · exact .inr ⟨t, e, hs, hw⟩
  · rintro (⟨t, e, hs, hw⟩ | ⟨t, e, hs, hw⟩)
    · exact ⟨t, e, served_append.mpr (.inl hs), hw⟩
    · exact ⟨t, e, served_append.mpr (.inr hs), hw⟩

theorem wrote_act {a : α} {e : ε} {k : Nat} {v : ν} : ¬ R.Wrote [(c, .act a e)] k v := by
  rintro ⟨t, e', hs, _⟩
  exact served_act hs

theorem wrote_serve {i k k' : Nat} {t : τ} {e : ε} {v : ν} (hi : c.pending[i]? = some (k, t)) :
    R.Wrote [(c, .serve i e)] k' v ↔ k' = k ∧ R.writes t e = some v := by
  constructor
  · rintro ⟨t', e', hs, hw⟩
    obtain ⟨rfl, rfl, rfl⟩ := (served_serve hi).mp hs
    exact ⟨rfl, hw⟩
  · rintro ⟨rfl, hw⟩
    exact ⟨t, e, (served_serve hi).mpr ⟨rfl, rfl, rfl⟩, hw⟩

/-- What one step does to the register: nothing, or the write of a callback that was pending. -/
theorem step_cases (hs : S.Step c l c') :
    (R.val c'.state = R.val c.state ∧ ∀ k v, ¬ R.Wrote [(c, l)] k v) ∨
    ∃ m v, R.val c'.state = some v ∧ c.Live m ∧ ∀ k w, R.Wrote [(c, l)] k w ↔ k = m ∧ w = v := by
  cases hs with
  | act ha => exact .inl ⟨R.act ha, fun _ _ => wrote_act⟩
  | @serve i k t e s ts hi ha =>
    have hv := R.serve ha
    cases hw : R.writes t e with
    | none =>
      rw [hw] at hv
      refine .inl ⟨hv, fun k' v hwr => ?_⟩
      rw [wrote_serve hi, hw] at hwr
      cases hwr.2
    | some v =>
      rw [hw] at hv
      refine .inr ⟨k, v, hv, ⟨t, mem_of_getElem? hi⟩, fun k' w => ?_⟩
      rw [wrote_serve hi, hw, Option.some.injEq, eq_comm (a := v)]

theorem unwritten (hr : S.run c ls = some c') (hn : ∀ k v, ¬ R.Wrote (S.history c ls) k v) :
    R.val c'.state = R.val c.state := by
  refine System.run_rule (I := fun h c1 => (∀ k v, ¬ R.Wrote h k v) → R.val c1.state = R.val c.state)
    hr (fun _ => rfl) ?_ hn
  intro h c1 l c2 _ hI hs hno
  have h1 : ∀ k v, ¬ R.Wrote h k v := fun k v hw => hno k v (wrote_append.mpr (.inl hw))
  rcases step_cases (R := R) hs with ⟨hv, _⟩ | ⟨m, v, _, _, hw⟩
  · rw [hv]; exact hI h1
  · exact absurd (wrote_append.mpr (.inr ((hw m v).mpr ⟨rfl, rfl⟩))) (hno m v)

theorem last_write (hr : S.run c ls = some c') (hw : ∃ k v, R.Wrote (S.history c ls) k v) :
    ∃ k v, R.Wrote (S.history c ls) k v ∧ R.val c'.state = some v := by
  refine System.run_rule (I := fun h c1 => (∃ k v, R.Wrote h k v) →
    ∃ k v, R.Wrote h k v ∧ R.val c1.state = some v) hr ?_ ?_ hw
  · rintro ⟨k, v, t, e, ⟨_, _, hm, _⟩, _⟩
    cases hm
  · intro h c1 l c2 _ hI hs ⟨k, v, hk⟩
    rcases step_cases (R := R) hs with ⟨hv, hno⟩ | ⟨m, w, hv, _, hw⟩
    · rcases wrote_append.mp hk with hk | hk
      · obtain ⟨k', v', hk', hv'⟩ := hI ⟨k, v, hk⟩
        exact ⟨k', v', wrote_append.mpr (.inl hk'), hv.trans hv'⟩
      · exact absurd hk (hno k v)
    · exact ⟨m, w, wrote_append.mpr (.inr ((hw m w).mpr ⟨rfl, rfl⟩)), hv⟩

theorem isSome_of_run (hr : S.run c ls = some c') (h : (R.val c.state).isSome) :
    (R.val c'.state).isSome := by
  refine System.invariant (I := fun c => (R.val c.state).isSome) hr h ?_
  intro c1 l c2 _ hI hs
  rcases step_cases (R := R) hs with ⟨hv, _⟩ | ⟨m, v, hv, _, _⟩
  · rw [hv]; exact hI
  · rw [hv]; rfl

theorem held_or_written (hr : S.run c ls = some c') {v : ν} (h : R.val c'.state = some v) :
    R.val c.state = some v ∨ ∃ k, R.Wrote (S.history c ls) k v := by
  by_cases hw : ∃ k v, R.Wrote (S.history c ls) k v
  · obtain ⟨k, w, hk, hv⟩ := last_write hr hw
    rw [h] at hv; cases hv
    exact .inr ⟨k, hk⟩
  · rw [unwritten hr fun k v hk => hw ⟨k, v, hk⟩] at h
    exact .inl h

/-- A register that is empty at the start and for which all writes agree holds one value only. -/
theorem same_val {s0 : σ} {ls' : List (Label α ε)} (hr : S.run (.init s0) ls = some c)
    (hr' : S.run (.init s0) ls' = some c') (hh : ∀ x ∈ S.history (.init s0) ls, x ∈ h)
    (hh' : ∀ x ∈ S.history (.init s0) ls', x ∈ h)
    (hempty : ∀ k v, R.Wrote h k v → R.val s0 = none)
    (hagree : ∀ k k' v v', R.Wrote h k v → R.Wrote h k' v' → v = v') {v v' : ν}
    (hv : R.val c.state = some v) (hv' : R.val c'.state = some v') : v = v' := by
  have hmono : ∀ {h' : List (Config σ τ × Label α ε)} {k : Nat} {v : ν}, (∀ x ∈ h', x ∈ h) →
      R.Wrote h' k v → R.Wrote h k v := by
    rintro h' k v hsub ⟨t, e, hs, hw⟩
    exact ⟨t, e, hs.mono hsub, hw⟩
  rcases held_or_written hr hv with h1 | ⟨k, h1⟩
  · rcases held_or_written hr' hv' with h2 | ⟨k', h2⟩
    · exact Option.some.inj (h1.symm.trans h2)
    · cases h1.symm.trans (hempty k' v' (hmono hh' h2))
  · rcases held_or_written hr' hv' with h2 | ⟨k', h2⟩
    · cases h2.symm.trans (hempty k v (hmono hh h1))
    · exact hagree k k' v v' (hmono hh h1) (hmono hh' h2)

theorem val_of_lastWrote {v : ν} (hr : S.run c ls = some c') (hw : R.LastWrote (S.history c ls) v) :
    R.val c'.state = some v := by
  refine System.run_rule (I := fun h c1 => R.LastWrote h v → R.val c1.state = some v) hr ?_ ?_ hw
  · rintro ⟨h1, c0, i, e, h2, k, t, he, _⟩
    cases h1 <;> cases he
  · rintro h c1 l c2 _ hI hs ⟨h1, c0, i, e, h2, k, t, he, hi, ht, hno⟩
    rcases List.eq_nil_or_concat h2 with rfl | ⟨h3, x, rfl⟩
    · -- the write is this step
      obtain ⟨rfl, hx⟩ := List.append_inj' he rfl
      cases hx
      cases hs with
      | serve hi' ha =>
        rw [hi] at hi'; cases hi'
        rw [Config.served_state, R.serve ha, ht, Option.some_or]
    · rw [List.concat_eq_append, ← List.cons_append, ← List.append_assoc] at he
      obtain ⟨rfl, hx⟩ := List.append_inj' he rfl
      cases hx
      have hval := hI ⟨h1, c0, i, e, h3, k, t, rfl, hi, ht, fun k w hw =>
        hno k w (by rw [List.concat_eq_append]; exact wrote_append.mpr (.inl hw))⟩
      rcases step_cases (R := R) hs with ⟨hv, _⟩ | ⟨m, w, _, _, hmw⟩
      · rw [hv]; exact hval
      · refine absurd ?_ (hno m w)
        rw [List.concat_eq_append]
        exact wrote_append.mpr (.inr ((hmw m w).mpr ⟨rfl, rfl⟩))

/-- The last writer wins, and it can only win over later actions that it overlaps with. -/
theorem last_writer {s0 : σ} (hr : S.run (.init s0) ls = some c)
    (hw : ∃ k v, R.Wrote (S.history (.init s0) ls) k v) :
    R.Held (S.history (.init s0) ls) c.state := by
  refine System.prefix_rule (I := fun ls c => (∃ k v, R.Wrote (S.history (.init s0) ls) k v) →
    R.Held (S.history (.init s0) ls) c.state) hr ?_ ?_ hw
  · rintro ⟨k, v, t, e, ⟨_, _, hm, _⟩, _⟩
    cases hm
  · intro ls1 c1 l c2 hr1 _ hI hs hw
    rw [System.history_concat hr1 hs] at hw ⊢
    rcases step_cases (R := R) hs with ⟨hv, hno⟩ | ⟨m, v, hv, hlive, hmv⟩
    · obtain ⟨k, v, hk⟩ := hw
      rcases wrote_append.mp hk with hk | hk
      · obtain ⟨m, w, hm, hval, hlater⟩ := hI ⟨k, v, hk⟩
        refine ⟨m, w, wrote_append.mpr (.inl hm), hv.trans hval, fun j u hj hlt => ?_⟩
        rcases wrote_append.mp hj with hj | hj
        · obtain ⟨cj, a, e, hcj, hck, hcl⟩ := hlater j u hj hlt
          exact ⟨cj, a, e, List.mem_append_left _ hcj, hck, hcl⟩
        · exact absurd hj (hno j u)
      · exact absurd hk (hno k v)
    · refine ⟨m, v, wrote_append.mpr (.inr ((hmv m v).mpr ⟨rfl, rfl⟩)), hv, fun j u hj hlt => ?_⟩
      rcases wrote_append.mp hj with hj | hj
      · -- `j` was taken before its write, and `m`, which is live now, was live then
        obtain ⟨t, e, ⟨cs, i, hm, hi⟩, _⟩ := hj
        obtain ⟨ls2, ls3, c3, rfl, hr2, hs2, hr3⟩ := System.history_split hr1 hm
        obtain ⟨a, e', cj, hcj, hck⟩ := System.acted_of_pending hr2 (mem_of_getElem? hi)
        have hmem : (cj, .act a e') ∈ S.history (.init s0) (ls2 ++ .serve i e :: ls3) := by
          rw [System.history_append hr2]; exact List.mem_append_left _ hcj
        refine ⟨cj, a, e', List.mem_append_left _ hmem, hck, ?_⟩
        exact System.live_of_live hr1 hmem (hck ▸ hlt) hlive
      · have hjm := ((hmv j u).mp hj).1
        omega

end Register
end Async
