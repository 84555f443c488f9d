import WeddApp.Async.Origin

/-!
# Views.StoryCircle

The timers of a story circle. A tap schedules a repeating timer and keeps it in `timer`; a tick that
completes the progress, and the disappearance of the cover, invalidate the timer that `timer` holds
by then. The timer of an earlier tap is out of reach.

* `Countdown`: the arithmetic on the progress, which is a floating-point number in the app.
* `circle`: taps, ticks of any live timer, and appearances and disappearances of the cover, in any
  order.
* `one_timer_iff`: at most one timer is ever live, and none after a disappearance, exactly if no tap
  finds a timer live.
-/

namespace WeddApp.Story

open Async

/-- `1.0`, `timerProgress - 0.01 / timerDuration` and `timerProgress <= 0.0`. -/
structure Countdown (Progress : Type) where
  full : Progress
  tick : Progress → Progress
  ended : Progress → Bool

variable {Progress : Type}

/-- The timers are numbered as they are created; `live` are the ones that are scheduled and not
invalidated. -/
structure StoryCircle (Progress : Type) where
  isImageZoomed : Bool
  timerProgress : Progress
  timer : Option Nat
  isStoryOpened : Bool
  live : List Nat
  created : Nat

inductive Event where
  | tap
  | tick (i : Nat)
  | appear
  | disappear
  deriving DecidableEq

namespace StoryCircle

def new (P : Countdown Progress) : StoryCircle Progress := ⟨false, P.full, none, false, [], 0⟩

def startTimer (s : StoryCircle Progress) : StoryCircle Progress :=
  { s with timer := some s.created, live := s.created :: s.live, created := s.created + 1 }

def resetTimer (P : Countdown Progress) (s : StoryCircle Progress) : StoryCircle Progress :=
  { s with timerProgress := P.full }

def invalidate (s : StoryCircle Progress) : StoryCircle Progress :=
  match s.timer with
  | none => s
  | some t => { s with live := s.live.filter (· ≠ t) }

/-- The block of `startTimer`, whichever timer runs it. -/
def onTick (P : Countdown Progress) (s : StoryCircle Progress) : StoryCircle Progress :=
  let s := { s with timerProgress := P.tick s.timerProgress }
  if P.ended s.timerProgress then invalidate { s with isImageZoomed := false } else s

def onTapGesture (P : Countdown Progress) (s : StoryCircle Progress) : StoryCircle Progress :=
  let s := startTimer (resetTimer P s)
  { s with isImageZoomed := !s.isImageZoomed, isStoryOpened := true }

def onDisappear (P : Countdown Progress) (s : StoryCircle Progress) : StoryCircle Progress :=
  invalidate (resetTimer P s)

end StoryCircle

open StoryCircle

/-- A tick is possible only of a live timer. -/
def handle (P : Countdown Progress) (ev : Event) (s : StoryCircle Progress) :
    Option (StoryCircle Progress) :=
  match ev with
  | .tap => some (onTapGesture P s)
  | .tick i => if i ∈ s.live then some (onTick P s) else none
  | .appear => some (resetTimer P s)
  | .disappear => some (onDisappear P s)

def circle (P : Countdown Progress) : System (StoryCircle Progress) Empty Event Unit where
  act ev _ s := (handle P ev s).map fun s => (s, [])
  serve t _ _ := t.elim

/-- The cover has disappeared and no tap has followed. -/
def closed (ls : List (Label Event Unit)) : Bool :=
  ls.foldl (fun b l =>
    match l with
    | .act .tap _ => false
    | .act .disappear _ => true
    | .act (.tick _) _ => b
    | .act .appear _ => b
    | .serve _ _ => b) false

def isTap : Label Event Unit → Bool
  | .act .tap _ => true
  | .act (.tick _) _ => false
  | .act .appear _ => false
  | .act .disappear _ => false
  | .serve _ _ => false

/-- The timer that `timer` holds is the only one that can be live. -/
def Single (s : StoryCircle Progress) : Prop :=
  s.live = [] ∨ ∃ t, s.timer = some t ∧ s.live = [t]

section Step

variable {P : Countdown Progress} {s s' : StoryCircle Progress}

theorem single_resetTimer (h : Single s) : Single (resetTimer P s) := h

theorem invalidate_live (h : Single s) : (invalidate s).live = [] := by
  rcases h with h | ⟨t, ht, h⟩
  · unfold invalidate
    split
    · exact h
    · simp [h]
  · simp [invalidate, ht, h]

theorem single_tap (h : s.live = []) : Single (onTapGesture P s) := by
  refine .inr ⟨s.created, rfl, ?_⟩
  simp [onTapGesture, startTimer, resetTimer, h]

theorem single_tick (h : Single s) : Single (onTick P s) := by
  simp only [onTick]
  split
  · exact .inl (invalidate_live h)
  · exact h

theorem tick_live (h : s.live = []) : (onTick P s).live = [] := by
  simp only [onTick]
  split
  · exact invalidate_live (.inl h)
  · exact h

/-- Without a tap on a running timer, at most one timer runs on. -/
theorem single_handle {ev : Event} (hI : Single s) (htap : ev = .tap → s.live = [])
    (ha : handle P ev s = some s') : Single s' := by
  cases ev with
  | tap =>
    cases ha
    exact single_tap (htap rfl)
  | tick i =>
    simp only [handle] at ha
    split at ha
    · cases ha
      exact single_tick hI
    · cases ha
  | appear =>
    cases ha
    exact single_resetTimer hI
  | disappear =>
    cases ha
    exact .inl (invalidate_live (single_resetTimer hI))

/-- Only a tap starts a timer. -/
theorem live_handle {ev : Event} (h : s.live = []) (htap : ev ≠ .tap)
    (ha : handle P ev s = some s') : s'.live = [] := by
  cases ev with
  | tap => exact absurd rfl htap
  | tick i =>
    simp only [handle] at ha
    split at ha
    · cases ha
      exact tick_live h
    · cases ha
  | appear =>
    cases ha
    exact h
  | disappear =>
    cases ha
    exact invalidate_live (single_resetTimer (.inl h))

theorem Single.length_le (h : Single s) : s.live.length ≤ 1 := by
  rcases h with h | ⟨t, _, h⟩
  · simp [h]
  · simp [h]

theorem Single.eq_timer {i : Nat} (h : Single s) (hi : i ∈ s.live) : s.timer = some i := by
  rcases h with h | ⟨t, ht, h⟩
  · rw [h] at hi
    cases hi
  · rw [h, List.mem_singleton] at hi
    rw [ht, hi]

end Step

section Run

variable {P : Countdown Progress} {c : Config (StoryCircle Progress) Empty}
  {ls : List (Label Event Unit)}

theorem closed_concat (l : Label Event Unit) :
    closed (ls ++ [l]) =
      match l with
      | .act .tap _ => false
      | .act .disappear _ => true
      | .act (.tick _) _ => closed ls
      | .act .appear _ => closed ls
      | .serve _ _ => closed ls := by
  simp only [closed, List.foldl_append, List.foldl_cons, List.foldl_nil]

theorem step_handle {c' : Config (StoryCircle Progress) Empty} {l : Label Event Unit}
    (hs : (circle P).Step c l c') :
    ∃ ev e, l = .act ev e ∧ handle P ev c.state = some c'.state := by
  cases hs with
  | @act ev e s ts ha =>
    obtain ⟨s', hs', he⟩ := Option.map_eq_some_iff.mp ha
    cases he
    exact ⟨ev, e, rfl, hs'⟩
  | @serve i k t _ _ _ _ _ => exact t.elim

theorem single_of_run (hr : (circle P).run (.init (new P)) ls = some c)
    (htap : ∀ x ∈ (circle P).history (.init (new P)) ls, isTap x.2 = true → x.1.state.live = []) :
    Single c.state ∧ (closed ls = true → c.state.live = []) := by
  have h := System.run_rule (I := fun h c => Single c.state ∧
    (closed (h.map Prod.snd) = true → c.state.live = [])) hr ⟨.inl rfl, fun h => ?_⟩ ?_
  · rw [System.history_labels hr] at h
    exact h
  · cases h
  · intro h c1 l c2 hm hI hs
    obtain ⟨ev, e, rfl, ha⟩ := step_handle hs
    have hsingle : Single c2.state := by
      refine single_handle hI.1 ?_ ha
      intro hev
      subst hev
      exact htap _ hm rfl
    refine ⟨hsingle, ?_⟩
    rw [List.map_append, List.map_singleton, closed_concat]
    cases ev with
    | tap =>
      intro h
      cases h
    | tick i =>
      intro h
      exact live_handle (hI.2 h) (by simp) ha
    | appear =>
      intro h
      exact live_handle (hI.2 h) (by simp) ha
    | disappear =>
      intro _
      rw [← Option.some.inj ha]
      exact invalidate_live (single_resetTimer hI.1)

end Run

/-- In a run, at most one timer is live at any time and none after the cover has disappeared and until
the next tap, and each tick is one of the timer of the latest tap, exactly if no tap finds a timer
live. -/
theorem one_timer_iff {P : Countdown Progress} {ls : List (Label Event Unit)}
    {c : Config (StoryCircle Progress) Empty}
    (hr : (circle P).run (.init (new P)) ls = some c) :
    ((∀ ls1 c1, ls1 <+: ls → (circle P).run (.init (new P)) ls1 = some c1 →
        c1.state.live.length ≤ 1 ∧ (closed ls1 = true → c1.state.live = [])) ∧
      ∀ c1 i e, (c1, .act (.tick i) e) ∈ (circle P).history (.init (new P)) ls →
        c1.state.timer = some i) ↔
    ∀ x ∈ (circle P).history (.init (new P)) ls, isTap x.2 = true → x.1.state.live = [] := by
  constructor
  · intro hone x hm htap
    -- one more timer would be live after the tap
    obtain ⟨ls1, ls2, c2, hls, h1, hs, _⟩ := System.history_split hr hm
    obtain ⟨ev, e, hl, ha⟩ := step_handle hs
    have hpre : ls1 ++ [x.2] <+: ls := ⟨ls2, by rw [hls, List.append_assoc]; rfl⟩
    have hlen := (hone.1 _ _ hpre (System.run_concat.mpr ⟨x.1, h1, hs⟩)).1
    rw [hl] at htap
    cases ev with
    | tap =>
      rw [← Option.some.inj ha] at hlen
      simp only [onTapGesture, startTimer, resetTimer, List.length_cons] at hlen
      exact List.length_eq_zero_iff.mp (by omega)
    | tick i => cases htap
    | appear => cases htap
    | disappear => cases htap
  · intro htap
    have hsingle : ∀ ls1 c1, ls1 <+: ls → (circle P).run (.init (new P)) ls1 = some c1 →
        Single c1.state ∧ (closed ls1 = true → c1.state.live = []) := by
      intro ls1 c1 hpre h1
      obtain ⟨ls2, rfl⟩ := hpre
      refine single_of_run h1 fun x hx => htap x ?_
      rw [System.history_append h1]
      exact List.mem_append_left _ hx
    refine ⟨?_, ?_⟩
    · intro ls1 c1 hpre h1
      obtain ⟨h, hclosed⟩ := hsingle ls1 c1 hpre h1
      exact ⟨h.length_le, hclosed⟩
    · intro c1 i e hm
      obtain ⟨ls1, ls2, c2, hls, h1, hs, _⟩ := System.history_split hr hm
      have hpre : ls1 <+: ls := ⟨_, hls.symm⟩
      obtain ⟨ev, e', hl, ha⟩ := step_handle hs
      cases hl
      simp only [handle] at ha
      split at ha
      · rename_i hi
        exact (hsingle ls1 c1 hpre h1).1.eq_timer hi
      · cases ha

def twoSeconds : Countdown Nat := ⟨200, fun n => n - 1, fun n => n == 0⟩

/-- A story is opened, runs for two ticks and is closed, and is opened again. -/
def reopened : List (Label Event Unit) :=
  [.act .tap (), .act .appear (), .act (.tick 0) (), .act (.tick 0) (), .act .disappear ()] ++
    [.act .tap ()]

theorem reopened_single : ∃ c, (circle twoSeconds).run (.init (new twoSeconds)) reopened = some c ∧
    c.state.live = [1] ∧ c.state.live.length ≤ 1 := by
  obtain ⟨c, hr⟩ : ∃ c, (circle twoSeconds).run (.init (new twoSeconds)) reopened = some c :=
    ⟨_, rfl⟩
  have hone := (one_timer_iff hr).mpr (by decide)
  refine ⟨c, hr, ?_, (hone.1 reopened c (List.prefix_refl _) hr).1⟩
  cases hr; rfl

/-- The circle is tapped twice before the cover appears. -/
def tappedTwice : List (Label Event Unit) :=
  [.act .tap (), .act .tap (), .act .appear (), .act .disappear ()]

/-- Two timers are live after the second tap, and the first survives the disappearance and ticks on
after the next tap. -/
theorem tappedTwice_leaks :
    (∃ c, (circle twoSeconds).run (.init (new twoSeconds)) (tappedTwice.take 2) = some c ∧
      c.state.live = [1, 0]) ∧
    (∃ c, (circle twoSeconds).run (.init (new twoSeconds)) tappedTwice = some c ∧
      closed tappedTwice = true ∧ c.state.live = [0]) ∧
    ∃ c, (circle twoSeconds).run (.init (new twoSeconds))
        (tappedTwice ++ [.act .tap (), .act (.tick 0) ()]) = some c ∧
      c.state.timer = some 2 ∧ c.state.timerProgress = 199 :=
  ⟨⟨_, rfl, rfl⟩, ⟨_, rfl, rfl, rfl⟩, ⟨_, rfl, rfl, rfl⟩⟩

end WeddApp.Story
