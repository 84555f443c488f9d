import WeddApp.Async.System

/-!
# Views.RegionCode

The region code of `AuthenticationView`. Each time `SignUpView` appears, the first character of the
text is replaced by a plus on the main queue. The text survives in the parent view, so what is
replaced depends on what was entered on earlier visits.

* `authenticationView`: toggles, edits while Sign Up is shown, and normalisations that run at any
  later time. An index out of range ends the program.
* `lossless_iff_plus`: a run never traps or loses a character exactly if what was entered last starts
  with a plus whenever a normalisation runs.
-/

namespace WeddApp.RegionCode

open Async

/-- A character of a string, which is a cluster of code points. -/
abbrev Character := String

/-- What the callback of `onAppear` writes; `none` when the index is out of range. -/
def normalize (regionCode : List Character) : Option (List Character) :=
  match regionCode with
  | [] => none
  | _ :: rest => some ("+" :: rest)

structure State where
  isSignIn : Bool
  regionCode : List Character
  trapped : Bool

inductive Task where
  | normalize

inductive Action where
  | toggle
  | edit (newText : List Character)

def State.new : State := ⟨true, ["+", "9", "0"], false⟩

/-- `SignUpView` appears when Sign In is toggled away. -/
def act (a : Action) (s : State) : Option (State × List Task) :=
  if s.trapped then none
  else
    match a with
    | .toggle => some ({ s with isSignIn := !s.isSignIn }, if s.isSignIn then [.normalize] else [])
    | .edit newText => if s.isSignIn then none else some ({ s with regionCode := newText }, [])

def serve (t : Task) (s : State) : Option (State × List Task) :=
  if s.trapped then none
  else
    match t with
    | .normalize =>
      match normalize s.regionCode with
      | none => some ({ s with trapped := true }, [])
      | some regionCode => some ({ s with regionCode := regionCode }, [])

def authenticationView : System State Task Action Unit where
  act a _ s := act a s
  serve t _ s := serve t s

def lastEntered (ls : List (Label Action Unit)) : List Character :=
  ls.foldl (fun text l =>
    match l with
    | .act (.edit newText) _ => newText
    | .act .toggle _ => text
    | .serve _ _ => text) State.new.regionCode

/-- At most one leading plus is removed. -/
def dropPlus (text : List Character) : List Character :=
  match text with
  | [] => []
  | x :: rest => if x = "+" then rest else x :: rest

/-- The normalisation of the text does not trap, puts a plus before it in place of at most one, and
done twice is as good as once. -/
def Lossless (text : List Character) : Prop :=
  normalize text = some ("+" :: dropPlus text) ∧
    normalize ("+" :: dropPlus text) = some ("+" :: dropPlus text)

def StartsWithPlus (text : List Character) : Prop := ∃ rest, text = "+" :: rest

theorem lossless_iff {text : List Character} : Lossless text ↔ StartsWithPlus text := by
  constructor
  · intro h
    obtain ⟨h, _⟩ := h
    cases text with
    | nil => simp [normalize] at h
    | cons x rest =>
      by_cases hx : x = "+"
      · exact ⟨rest, by rw [hx]⟩
      · -- a character that is not a plus is lost
        simp only [normalize, dropPlus, if_neg hx, Option.some.injEq, List.cons.injEq,
          true_and] at h
        have hlen := congrArg List.length h
        simp at hlen
  · intro h
    obtain ⟨rest, rfl⟩ := h
    simp [Lossless, normalize, dropPlus]

section Run

variable {c : Config State Task} {ls : List (Label Action Unit)}

theorem lastEntered_concat (l : Label Action Unit) :
    lastEntered (ls ++ [l]) =
      match l with
      | .act (.edit newText) _ => newText
      | .act .toggle _ => lastEntered ls
      | .serve _ _ => lastEntered ls := by
  simp only [lastEntered, List.foldl_append, List.foldl_cons, List.foldl_nil]

/-- While what is normalised starts with a plus, the text is what was entered last. -/
theorem text_of_run (hr : authenticationView.run (.init State.new) ls = some c)
    (h : ∀ ls1 i e c1, ls1 ++ [.serve i e] <+: ls →
      authenticationView.run (.init State.new) ls1 = some c1 →
      c1.state.regionCode = lastEntered ls1 → StartsWithPlus c1.state.regionCode) :
    c.state.regionCode = lastEntered ls ∧ c.state.trapped = false := by
  refine System.prefix_rule (I := fun ls c => c.state.regionCode = lastEntered ls ∧
    c.state.trapped = false) hr ⟨rfl, rfl⟩ ?_
  intro ls1 c1 l c2 h1 hpre hI hs
  obtain ⟨htext, htrap⟩ := hI
  rw [lastEntered_concat]
  cases hs with
  | @act a e s ts ha =>
    simp only [authenticationView, act, htrap, Bool.false_eq_true, if_false] at ha
    cases a with
    | toggle =>
      cases ha
      exact ⟨htext, rfl⟩
    | edit newText =>
      simp only at ha
      split at ha
      · cases ha
      · cases ha
        exact ⟨rfl, rfl⟩
  | @serve i k t e s ts hi ha =>
    obtain ⟨rest, hrest⟩ := h ls1 i e c1 hpre h1 htext
    cases t with
    | normalize =>
      simp only [authenticationView, serve, htrap, Bool.false_eq_true, if_false, normalize,
        hrest] at ha
      cases ha
      refine ⟨?_, rfl⟩
      rw [Config.served_state, ← htext, hrest]

theorem lastEntered_plus
    (h : ∀ newText e, Label.act (Action.edit newText) e ∈ ls → StartsWithPlus newText) :
    StartsWithPlus (lastEntered ls) := by
  induction ls using List.reverseRecOn with
  | nil => exact ⟨["9", "0"], rfl⟩
  | append_singleton ls l ih =>
    have hls := ih fun newText e hm => h newText e (List.mem_append_left _ hm)
    rw [lastEntered_concat]
    cases l with
    | serve i e => exact hls
    | act a e =>
      cases a with
      | toggle => exact hls
      | edit newText => exact h newText e (List.mem_append_right _ (List.mem_singleton_self _))

end Run

/-- No normalisation of a run traps or loses a character exactly if, whenever one runs, the text that
was entered last starts with a plus. -/
theorem lossless_iff_plus {ls : List (Label Action Unit)} {c : Config State Task}
    (hr : authenticationView.run (.init State.new) ls = some c) :
    (c.state.trapped = false ∧ ∀ ls1 i e c1, ls1 ++ [.serve i e] <+: ls →
      authenticationView.run (.init State.new) ls1 = some c1 → Lossless c1.state.regionCode) ↔
    ∀ ls1 i e, ls1 ++ [.serve i e] <+: ls → StartsWithPlus (lastEntered ls1) := by
  constructor
  · intro hsafe ls1 i e hpre
    obtain ⟨ls2, rfl⟩ := hpre
    obtain ⟨c1, h1, _⟩ := System.run_append.mp hr
    obtain ⟨c0, h0, _⟩ := System.run_concat.mp h1
    have htext := text_of_run h0 fun ls3 i' e' c3 hpre3 h3 _ =>
      lossless_iff.mp (hsafe.2 ls3 i' e' c3 ?_ h3)
    · rw [← htext.1]
      exact lossless_iff.mp (hsafe.2 ls1 i e c0 (List.prefix_append _ _) h0)
    · rw [List.append_assoc]
      exact hpre3.trans (List.prefix_append _ _)
  · intro hplus
    have hstarts : ∀ ls1 i e c1, ls1 ++ [.serve i e] <+: ls →
        authenticationView.run (.init State.new) ls1 = some c1 →
        c1.state.regionCode = lastEntered ls1 → StartsWithPlus c1.state.regionCode := by
      intro ls1 i e c1 hpre _ htext
      rw [htext]
      exact hplus ls1 i e hpre
    refine ⟨(text_of_run hr hstarts).2, ?_⟩
    intro ls1 i e c1 hpre h1
    have htext := text_of_run h1 fun ls3 i' e' c3 hpre3 h3 =>
      hstarts ls3 i' e' c3 ((hpre3.trans (List.prefix_append _ _)).trans hpre) h3
    exact lossless_iff.mpr (hstarts ls1 i e c1 hpre h1 htext.1)

/-- Another region is entered, with its plus, and Sign Up is visited again. -/
def entered : List (Label Action Unit) :=
  [.act .toggle (), .serve 0 (), .act (.edit ["+", "1"]) (), .act .toggle (), .act .toggle ()] ++
    [.serve 0 ()]

theorem entered_kept : ∃ c, authenticationView.run (.init State.new) entered = some c ∧
    c.state.trapped = false ∧ Lossless ["+", "1"] ∧ c.state.regionCode = ["+", "1"] := by
  obtain ⟨c, hr⟩ : ∃ c, authenticationView.run (.init State.new) entered = some c := ⟨_, rfl⟩
  have hsafe := (lossless_iff_plus hr).mpr ?_
  · have hlast := hsafe.2 _ 0 () _ (List.prefix_refl entered) rfl
    refine ⟨c, hr, hsafe.1, hlast, ?_⟩
    cases hr; rfl
  · intro ls1 i e hpre
    refine lastEntered_plus fun newText e' hm => ?_
    have hm' := hpre.subset (List.mem_append_left _ hm)
    simp only [entered, List.cons_append, List.nil_append, List.mem_cons, Label.act.injEq,
      Action.edit.injEq, reduceCtorEq, false_and, false_or, List.not_mem_nil, or_false] at hm'
    exact ⟨["1"], hm'.1⟩

/-- The field is cleared, and Sign Up is visited again. -/
def cleared : List (Label Action Unit) :=
  [.act .toggle (), .serve 0 (), .act (.edit []) (), .act .toggle (), .act .toggle (), .serve 0 ()]

/-- The code of a region is entered without a plus, and Sign Up is visited again. -/
def withoutPlus : List (Label Action Unit) :=
  [.act .toggle (), .serve 0 (), .act (.edit ["9", "0"]) (), .act .toggle (), .act .toggle (),
    .serve 0 ()]

/-- The cleared field traps; without a plus, the first digit is lost. -/
theorem cleared_traps :
    (∃ c, authenticationView.run (.init State.new) cleared = some c ∧ c.state.trapped = true) ∧
    ∃ c, authenticationView.run (.init State.new) withoutPlus = some c ∧
      c.state.regionCode = ["+", "0"] ∧ c.state.regionCode ≠ "+" :: dropPlus ["9", "0"] :=
  ⟨⟨_, rfl, rfl⟩, ⟨_, rfl, rfl, by decide⟩⟩

end WeddApp.RegionCode
