import WeddApp.Async.Origin

/-!
# Views.Limiter

`Binding.max`, which limits a text field. An evaluation of the body that finds the text over the
limit leaves a trim on the main queue; the trim drops the last character of the text of the moment,
without looking at the limit again.

* `field limit`: the body is evaluated, the user edits, the program assigns and trims run, in any
  order. A text is its list of characters.
* `Sparing`: the step leaves no more trims pending than there are characters over the limit.
* `limited_while_sparing`: as long as all steps are sparing, no trim cuts below the limit. After a
  step that is not, the trims that are pending do.
-/

namespace WeddApp.Limiter

open Async

variable {Character : Type}

structure State (Character : Type) where
  text : List Character

inductive Task where
  | dropLast

inductive Action (Character : Type) where
  | evaluateBody
  | edit (newText : List Character)
  | assign (newText : List Character)

/-- `Binding.max`: what it leaves on the main queue. The binding itself is returned as it is. -/
def Binding.max (wrappedValue : List Character) (limit : Int) : List Task :=
  if (wrappedValue.length : Int) > limit then [.dropLast] else []

def act (limit : Int) (a : Action Character) (s : State Character) : State Character × List Task :=
  match a with
  | .evaluateBody => (s, Binding.max s.text limit)
  | .edit newText => ({ text := newText }, [])
  | .assign newText => ({ text := newText }, [])

def serve : Task → State Character → State Character
  | .dropLast, s => { text := s.text.dropLast }

/-- A text field under the limiter. -/
def field (Character : Type) (limit : Int) :
    System (State Character) Task (Action Character) Unit where
  act a _ s := some (act limit a s)
  serve t _ s := some (serve t s, [])

def newText : Label (Action Character) Unit → Option (List Character)
  | .act (.edit t) _ => some t
  | .act (.assign t) _ => some t
  | .act .evaluateBody _ => none
  | .serve _ _ => none

def lastSet (text : List Character) (ls : List (Label (Action Character) Unit)) : List Character :=
  ls.foldl (fun t l => (newText l).getD t) text

/-- The body was evaluated, and the text has not changed since. -/
def Evaluated (h : List (Config (State Character) Task × Label (Action Character) Unit))
    (c : Config (State Character) Task) : Prop :=
  ∃ h1 c1 e h2, h = h1 ++ (c1, .act .evaluateBody e) :: h2 ∧ c1.state.text = c.state.text ∧
    ∀ x ∈ h2, x.1.state.text = c.state.text

/-- An evaluation that enqueues a trim finds more characters over the limit than trims pending; a
text that is set while trims are pending is empty or has a character over the limit for each. -/
def Sparing (limit : Int) (c : Config (State Character) Task) :
    Label (Action Character) Unit → Prop
  | .act .evaluateBody _ =>
    limit ≤ 0 ∨ (c.state.text.length : Int) ≤ limit ∨ limit + c.pending.length < c.state.text.length
  | .act (.edit t) _ =>
    limit ≤ 0 ∨ c.pending = [] ∨ t = [] ∨ limit + c.pending.length ≤ t.length
  | .act (.assign t) _ =>
    limit ≤ 0 ∨ c.pending = [] ∨ t = [] ∨ limit + c.pending.length ≤ t.length
  | .serve _ _ => True

instance instDecidableSparing (limit : Int) (c : Config (State Character) Task)
    (l : Label (Action Character) Unit) : Decidable (Sparing limit c l) :=
  match l with
  | .act .evaluateBody _ => inferInstanceAs (Decidable (_ ∨ _ ∨ _))
  | .act (.edit _) _ => inferInstanceAs (Decidable (_ ∨ _ ∨ _ ∨ _))
  | .act (.assign _) _ => inferInstanceAs (Decidable (_ ∨ _ ∨ _ ∨ _))
  | .serve _ _ => inferInstanceAs (Decidable True)

/-! ## What a step does -/

inductive Change (limit : Int) (c : Config (State Character) Task) :
    Label (Action Character) Unit → Config (State Character) Task → Prop where
  | beyond {c' : Config (State Character) Task} {e : Unit} (hlen : limit < c.state.text.length)
      (htext : c'.state.text = c.state.text) (hpending : c'.pending.length = c.pending.length + 1) :
      Change limit c (.act .evaluateBody e) c'
  | within {c' : Config (State Character) Task} {e : Unit}
      (hlen : (c.state.text.length : Int) ≤ limit) (htext : c'.state.text = c.state.text)
      (hpending : c'.pending.length = c.pending.length) :
      Change limit c (.act .evaluateBody e) c'
  | set {c' : Config (State Character) Task} {l : Label (Action Character) Unit}
      {t : List Character} (hl : newText l = some t) (htext : c'.state.text = t)
      (hpending : c'.pending.length = c.pending.length) : Change limit c l c'
  | trim {c' : Config (State Character) Task} {i : Nat} {e : Unit}
      (htext : c'.state.text = c.state.text.dropLast)
      (hpending : c'.pending.length + 1 = c.pending.length) : Change limit c (.serve i e) c'

section Step

variable {limit : Int} {c c' : Config (State Character) Task} {l : Label (Action Character) Unit}
  {h : List (Config (State Character) Task × Label (Action Character) Unit)}
  {last : List Character}

theorem step_change (hs : (field Character limit).Step c l c') : Change limit c l c' := by
  cases hs with
  | @act a e s ts ha =>
    have ha := Option.some.inj ha
    cases a with
    | evaluateBody =>
      by_cases hlen : limit < c.state.text.length
      · simp only [act, Binding.max, gt_iff_lt, if_pos hlen] at ha
        cases ha
        exact .beyond hlen rfl (by simp [Config.acted])
      · simp only [act, Binding.max, gt_iff_lt, if_neg hlen] at ha
        cases ha
        exact .within (by omega) rfl (by simp [Config.acted])
    | edit t =>
      cases ha
      exact .set rfl rfl (by simp [Config.acted])
    | assign t =>
      cases ha
      exact .set rfl rfl (by simp [Config.acted])
  | @serve i k t e s ts hi ha =>
    cases ha
    refine .trim rfl ?_
    have hlt := (List.getElem?_eq_some_iff.mp hi).1
    simp only [Config.served, List.map_nil, List.append_nil, List.length_eraseIdx_of_lt hlt]
    omega

/-- What holds in every configuration of a run whose steps are all sparing; `last` is the text that
was set last. -/
structure Limited (limit : Int) (last : List Character)
    (h : List (Config (State Character) Task × Label (Action Character) Unit))
    (c : Config (State Character) Task) : Prop where
  spared : limit ≤ 0 ∨ c.pending = [] ∨ c.state.text = [] ∨
    limit + c.pending.length ≤ c.state.text.length
  start : c.state.text <+: last
  cut : c.state.text = last ∨ limit ≤ c.state.text.length
  seen : Evaluated h c → limit < c.state.text.length → c.pending ≠ [] ∨ c.state.text = []

theorem evaluated_concat (he : Evaluated (h ++ [(c, l)]) c') :
    (∃ e, l = .act .evaluateBody e) ∨ Evaluated h c ∧ c.state.text = c'.state.text := by
  obtain ⟨h1, c1, e, h2, hh, htext, hsame⟩ := he
  rcases List.eq_nil_or_concat' h2 with rfl | ⟨h3, x, rfl⟩
  · have hx := (List.append_inj' hh rfl).2
    simp only [List.cons.injEq, Prod.mk.injEq, and_true] at hx
    exact .inl ⟨e, hx.2⟩
  · rw [← List.cons_append, ← List.append_assoc] at hh
    obtain ⟨hh', hx⟩ := List.append_inj' hh rfl
    cases hx
    have hc := hsame (c, l) (List.mem_append_right _ (List.mem_singleton_self _))
    refine .inr ⟨⟨h1, c1, e, h3, hh', by rw [htext, hc], ?_⟩, hc⟩
    intro x hx
    rw [hsame x (List.mem_append_left _ hx), hc]

theorem limited_evaluate {e : Unit} (hI : Limited limit last h c)
    (htext : c'.state.text = c.state.text)
    (hspared : limit ≤ 0 ∨ c'.pending = [] ∨ c'.state.text = [] ∨
      limit + c'.pending.length ≤ c'.state.text.length)
    (hseen : limit < c.state.text.length → c'.pending ≠ []) :
    Limited limit last (h ++ [(c, .act .evaluateBody e)]) c' := by
  refine ⟨hspared, ?_, ?_, ?_⟩
  · rw [htext]; exact hI.start
  · rw [htext]; exact hI.cut
  · intro _ hlen
    rw [htext] at hlen
    exact .inl (hseen hlen)

theorem limited_set {t : List Character} (hI : Limited limit last h c) (hl : newText l = some t)
    (hsparing : Sparing limit c l) (htext : c'.state.text = t)
    (hpending : c'.pending.length = c.pending.length) : Limited limit t (h ++ [(c, l)]) c' := by
  have hnil : c'.pending = [] ↔ c.pending = [] := by
    rw [← List.length_eq_zero_iff, hpending, List.length_eq_zero_iff]
  refine ⟨?_, ?_, .inl htext, ?_⟩
  · rw [htext, hnil, hpending]
    cases l with
    | serve i e => cases hl
    | act a e =>
      cases a with
      | evaluateBody => cases hl
      | edit t' => cases hl; exact hsparing
      | assign t' => cases hl; exact hsparing
  · simp only [htext, List.prefix_rfl]
  · intro he hlen
    rcases evaluated_concat he with ⟨e, rfl⟩ | ⟨he, hsame⟩
    · cases hl
    · rw [← hsame] at hlen ⊢
      rw [Ne, hnil]
      exact hI.seen he hlen

theorem limited_trim {i : Nat} {e : Unit} (hI : Limited limit last h c)
    (htext : c'.state.text = c.state.text.dropLast)
    (hpending : c'.pending.length + 1 = c.pending.length) :
    Limited limit last (h ++ [(c, .serve i e)]) c' := by
  have hlen : c'.state.text.length = c.state.text.length - 1 := by rw [htext, List.length_dropLast]
  have hstart : c'.state.text <+: last := by
    rw [htext]
    exact (List.dropLast_prefix _).trans hI.start
  have hseen : Evaluated (h ++ [(c, .serve i e)]) c' → limit < c'.state.text.length →
      c'.pending ≠ [] ∨ c'.state.text = [] := by
    intro he _
    rcases evaluated_concat he with ⟨_, hl⟩ | ⟨_, hsame⟩
    · cases hl
    · -- a trim that changes nothing finds the empty text
      have hlen' := congrArg List.length hsame
      refine .inr (List.length_eq_zero_iff.mp ?_)
      omega
  rcases hI.spared with hlimit | hnil | hempty | hroom
  · exact ⟨.inl hlimit, hstart, .inr (by omega), hseen⟩
  · rw [hnil] at hpending
    cases hpending
  · have hempty' : c'.state.text = [] := by rw [htext, hempty]; rfl
    refine ⟨.inr (.inr (.inl hempty')), hstart, ?_, hseen⟩
    have hcut := hI.cut
    rw [hempty] at hcut
    rw [hempty']
    exact hcut
  · refine ⟨.inr (.inr (.inr (by omega))), hstart, .inr (by omega), hseen⟩

theorem limited_step (hI : Limited limit last h c) (hsparing : Sparing limit c l)
    (hs : Change limit c l c') : Limited limit ((newText l).getD last) (h ++ [(c, l)]) c' := by
  cases hs with
  | beyond hlen htext hpending =>
    refine limited_evaluate hI htext ?_ fun _ hnil => ?_
    · simp only [Sparing] at hsparing
      rw [htext]
      rcases hsparing with hlimit | hle | hroom
      · exact .inl hlimit
      · omega
      · exact .inr (.inr (.inr (by omega)))
    · rw [hnil] at hpending
      cases hpending
  | within hlen htext hpending =>
    refine limited_evaluate hI htext ?_ fun hlen' => ?_
    · have hnil : c'.pending = [] ↔ c.pending = [] := by
        rw [← List.length_eq_zero_iff, hpending, List.length_eq_zero_iff]
      rw [htext, hnil, hpending]
      exact hI.spared
    · omega
  | set hl htext hpending =>
    rw [hl, Option.getD_some]
    exact limited_set hI hl hsparing htext hpending
  | trim htext hpending => exact limited_trim hI htext hpending

end Step

/-! ## Runs -/

section Run

variable {limit : Int} {text : List Character} {c c' : Config (State Character) Task}
  {l : Label (Action Character) Unit} {ls : List (Label (Action Character) Unit)}

theorem lastSet_concat : lastSet text (ls ++ [l]) = (newText l).getD (lastSet text ls) := by
  simp [lastSet]

theorem limited_of_run (hr : (field Character limit).run (.init ⟨text⟩) ls = some c)
    (hsparing : ∀ x ∈ (field Character limit).history (.init ⟨text⟩) ls, Sparing limit x.1 x.2) :
    Limited limit (lastSet text ls) ((field Character limit).history (.init ⟨text⟩) ls) c := by
  have h := System.run_rule
    (I := fun h c => Limited limit (lastSet text (h.map Prod.snd)) h c) hr ?_ ?_
  · rw [System.history_labels hr] at h
    exact h
  · refine ⟨.inr (.inl rfl), List.prefix_refl _, .inl rfl, ?_⟩
    intro he
    obtain ⟨h1, c1, e, h2, hh, _⟩ := he
    cases h1 with
    | nil => cases hh
    | cons => cases hh
  · intro h c1 l c2 hm hI hs
    rw [List.map_append, List.map_singleton, lastSet_concat]
    exact limited_step hI (hsparing _ hm) (step_change hs)

theorem evaluated_of_run {e : Unit}
    (hr : (field Character limit).run c (ls ++ [.act .evaluateBody e]) = some c') :
    Evaluated ((field Character limit).history c (ls ++ [.act .evaluateBody e])) c' := by
  obtain ⟨c1, h1, hs⟩ := System.run_concat.mp hr
  refine ⟨_, c1, e, [], System.history_concat h1 hs, ?_, List.forall_mem_nil _⟩
  cases step_change hs with
  | beyond _ htext _ => exact htext.symm
  | within _ htext _ => exact htext.symm
  | set hl _ _ => cases hl

/-- With no trim pending, a text that was evaluated is the text set last, cut to the limit. -/
theorem Limited.settled {last : List Character}
    {h : List (Config (State Character) Task × Label (Action Character) Unit)}
    (hI : Limited limit last h c) (hnil : c.pending = []) (he : Evaluated h c) :
    c.state.text = last.take (min limit last.length).toNat := by
  have hpre := List.prefix_iff_eq_take.mp hI.start
  have hlen := hI.start.length_le
  suffices c.state.text.length = (min limit last.length).toNat by rw [← this]; exact hpre
  rcases Int.lt_or_le limit c.state.text.length with hover | hle
  · -- only an empty text is over the limit then
    have hempty := (hI.seen he hover).resolve_left (not_not_intro hnil)
    rw [hempty] at hover ⊢
    simp only [List.length_nil] at hover ⊢
    omega
  · rcases hI.cut with hlast | hcut
    · rw [hlast] at hle ⊢
      omega
    · omega

variable (limit) in
theorem run_trims (n : Nat) (hn : n ≤ c.pending.length) :
    ∃ c1, (field Character limit).run c (List.replicate n (.serve 0 ())) = some c1 ∧
      c1.pending.length = c.pending.length - n ∧
      c1.state.text = c.state.text.take (c.state.text.length - n) := by
  induction n with
  | zero => exact ⟨c, rfl, rfl, by simp⟩
  | succ n ih =>
    obtain ⟨c1, hr, hpending, htext⟩ := ih (by omega)
    have hlt : 0 < c1.pending.length := by omega
    have hi : c1.pending[0]? = some c1.pending[0] := List.getElem?_eq_getElem hlt
    refine ⟨c1.served 0 c1.pending[0].1 (serve c1.pending[0].2 c1.state) [], ?_, ?_, ?_⟩
    · rw [List.replicate_succ', System.run_concat]
      exact ⟨c1, hr, .serve hi rfl⟩
    · simp only [Config.served, List.map_nil, List.append_nil, List.length_eraseIdx_of_lt hlt]
      omega
    · rw [Config.served_state]
      simp only [serve, htext, List.dropLast_eq_take, List.take_take, List.length_take]
      congr 1
      omega

/-- With more trims pending than there are characters over the limit, one of them cuts below it. -/
theorem cut_below (hlimit : 0 < limit) (hpos : c.pending ≠ []) (htext : c.state.text ≠ [])
    (hroom : (c.state.text.length : Int) < limit + c.pending.length) :
    ∃ n c1, (field Character limit).run c (List.replicate n (.serve 0 ())) = some c1 ∧
      c1.pending ≠ [] ∧ (c1.state.text.length : Int) ≤ limit ∧
      c1.state.text.dropLast ≠ c1.state.text := by
  have hpending := List.length_pos_iff.mpr hpos
  have hlen := List.length_pos_iff.mpr htext
  obtain ⟨c1, hr, hp, ht⟩ := run_trims limit (c := c)
    (c.state.text.length - limit.toNat) (by omega)
  have hlen1 := congrArg List.length ht
  rw [List.length_take] at hlen1
  refine ⟨_, c1, hr, ?_, ?_, fun hsame => ?_⟩
  · exact List.length_pos_iff.mp (by omega)
  · omega
  · have hdrop := congrArg List.length hsame
    rw [List.length_dropLast] at hdrop
    omega

/-- A step that is not sparing leaves too many trims. -/
theorem cut_below_of_not_sparing (hs : Change limit c l c') (hl : ¬ Sparing limit c l) :
    ∃ n c1, (field Character limit).run c' (List.replicate n (.serve 0 ())) = some c1 ∧
      c1.pending ≠ [] ∧ (c1.state.text.length : Int) ≤ limit ∧
      c1.state.text.dropLast ≠ c1.state.text := by
  cases hs with
  | beyond hlen htext hpending =>
    simp only [Sparing, not_or] at hl
    obtain ⟨hlimit, _, hroom⟩ := hl
    rw [← htext] at hlen hroom
    refine cut_below (by omega) ?_ ?_ (by omega)
    · exact List.length_pos_iff.mp (by omega)
    · exact List.length_pos_iff.mp (by omega)
  | within hlen htext hpending =>
    simp only [Sparing, not_or] at hl
    omega
  | @set c' l t hnew htext hpending =>
    have hset : ¬ (limit ≤ 0 ∨ c.pending = [] ∨ t = [] ∨ limit + c.pending.length ≤ t.length) := by
      cases l with
      | serve i e => cases hnew
      | act a e =>
        cases a with
        | evaluateBody => cases hnew
        | edit t' => cases hnew; exact hl
        | assign t' => cases hnew; exact hl
    simp only [not_or] at hset
    obtain ⟨hlimit, hpos, hne, hroom⟩ := hset
    refine cut_below (by omega) ?_ (by rw [htext]; exact hne) ?_
    · rw [← List.length_pos_iff, hpending, List.length_pos_iff]
      exact hpos
    · rw [htext, hpending]
      omega
  | trim htext hpending => exact absurd trivial hl

end Run

/-- As long as all steps are sparing, no trim changes a text that is not over the limit, and a text
that was evaluated with no trim pending is the one set last, cut to the limit. After the first step
that is not sparing, the pending trims that it leaves cut a text that is not over the limit. -/
theorem limited_while_sparing {limit : Int} {text : List Character}
    {ls : List (Label (Action Character) Unit)} {c : Config (State Character) Task}
    (hr : (field Character limit).run (.init ⟨text⟩) ls = some c)
    (hsparing : ∀ x ∈ (field Character limit).history (.init ⟨text⟩) ls, Sparing limit x.1 x.2) :
    (∀ c1 i e, (c1, .serve i e) ∈ (field Character limit).history (.init ⟨text⟩) ls →
      (c1.state.text.length : Int) ≤ limit → c1.state.text.dropLast = c1.state.text) ∧
    (c.pending = [] → Evaluated ((field Character limit).history (.init ⟨text⟩) ls) c →
      c.state.text = (lastSet text ls).take (min limit (lastSet text ls).length).toNat) ∧
    (∀ l c', (field Character limit).Step c l c' → ¬ Sparing limit c l →
      ∃ n c1, (field Character limit).run c' (List.replicate n (.serve 0 ())) = some c1 ∧
        c1.pending ≠ [] ∧ (c1.state.text.length : Int) ≤ limit ∧
        c1.state.text.dropLast ≠ c1.state.text) := by
  refine ⟨?_, ?_, ?_⟩
  · intro c1 i e hm hle
    obtain ⟨ls1, ls2, c2, hls, h1, hs, _⟩ := System.history_split hr hm
    simp only at hls h1 hs
    have hI := limited_of_run h1 fun x hx => hsparing x ?_
    · cases step_change hs with
      | set hl => cases hl
      | trim htext hpending =>
        rcases hI.spared with hlimit | hnil | hempty | hroom
        · have hzero : c1.state.text = [] := List.length_eq_zero_iff.mp (by omega)
          rw [hzero]; rfl
        · rw [hnil] at hpending
          cases hpending
        · rw [hempty]; rfl
        · omega
    · rw [hls, System.history_append h1]
      exact List.mem_append_left _ hx
  · intro hnil he
    exact (limited_of_run hr hsparing).settled hnil he
  · intro l c' hs hl
    exact cut_below_of_not_sparing (step_change hs) hl

def phoneNumber : System (State Char) Task (Action Char) Unit := field Char 10

/-- Twelve digits are pasted, and the body is evaluated before and after each of two trims. -/
def pasted : List (Label (Action Char) Unit) :=
  [.act (.edit "555123456789".toList) (), .act .evaluateBody (), .serve 0 (), .act .evaluateBody (),
    .serve 0 ()] ++ [.act .evaluateBody ()]

theorem pasted_limited : ∃ c, phoneNumber.run (.init ⟨[]⟩) pasted = some c ∧
    c.state.text = "5551234567".toList := by
  obtain ⟨c, hr⟩ : ∃ c, phoneNumber.run (.init ⟨[]⟩) pasted = some c := ⟨_, rfl⟩
  refine ⟨c, hr, ?_⟩
  have h := (limited_while_sparing hr (by decide)).2.1
  have he := evaluated_of_run hr
  cases hr
  exact h rfl he

/-- An eleventh digit is typed and deleted again before the trim that it caused has run. -/
def deleted : List (Label (Action Char) Unit) :=
  [.act (.edit "55512345678".toList) (), .act .evaluateBody (),
    .act (.edit "5551234567".toList) (), .serve 0 ()] ++ [.act .evaluateBody ()]

/-- The trim cuts the tenth digit off, and nothing brings it back. -/
theorem deleted_cut : (∃ c1, phoneNumber.run (.init ⟨[]⟩) (deleted.take 3) = some c1 ∧
      c1.pending.length = 1 ∧ c1.state.text.length = 10 ∧
      c1.state.text.dropLast ≠ c1.state.text) ∧
    ∃ c, phoneNumber.run (.init ⟨[]⟩) deleted = some c ∧ c.pending = [] ∧
      Evaluated (phoneNumber.history (.init ⟨[]⟩) deleted) c ∧
      lastSet [] deleted = "5551234567".toList ∧ c.state.text = "555123456".toList := by
  obtain ⟨c, hr⟩ : ∃ c, phoneNumber.run (.init ⟨[]⟩) deleted = some c := ⟨_, rfl⟩
  have he := evaluated_of_run hr
  refine ⟨⟨_, rfl, rfl, rfl, by decide⟩, ⟨c, hr, ?_, he, rfl, ?_⟩⟩
  · cases hr; rfl
  · cases hr; rfl

end WeddApp.Limiter
