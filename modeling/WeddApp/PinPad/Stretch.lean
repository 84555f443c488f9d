import WeddApp.PinPad.Changes
import WeddApp.PinPad.Posted

/-!
# PinPad.Stretch

The PIN pad never gets stuck. A text grows past three symbols only through a text of four, which is
looked up; from then on that lookup is in flight, or was confirmed, or has scheduled a reset, and the
reset ends the stretch (`never_stuck`).
-/

namespace WeddApp.PinPad

open Async

/-- The configuration in which the text last had fewer than four symbols. -/
def lastShort (h : List (Config State Task × Label Char Reply)) : Option (Config State Task) :=
  (h.reverse.find? fun x => x.1.state.pin.length < 4).map Prod.fst

def LookupSince (c1 c : Config State Task) : Prop :=
  ∃ k id, c1.clock ≤ k ∧ (k, .lookup id) ∈ c.pending

def PostedSince (c1 c : Config State Task) : Prop :=
  ∃ new pin, c.state.log = new ++ c1.state.log ∧ .correctPINEntered pin ∈ new

/-- What keeps a long text from being stuck, since it was last short in `c1`. -/
structure InStretch (c1 c : Config State Task) : Prop where
  log : c1.state.log <:+ c.state.log
  way_out : LookupSince c1 c ∨ .reset ∈ c.tasks ∨ PostedSince c1 c

theorem lastShort_concat (h : List (Config State Task × Label Char Reply)) (c : Config State Task)
    (l : Label Char Reply) :
    lastShort (h ++ [(c, l)]) = if c.state.pin.length < 4 then some c else lastShort h := by
  simp only [lastShort, List.reverse_append, List.reverse_singleton, List.singleton_append,
    List.find?_cons]
  by_cases hlen : c.state.pin.length < 4
  · simp [hlen]
  · simp [hlen]

section Step

variable {c1 c : Config State Task}

theorem PostedSince.mono {c' : Config State Task} (h : PostedSince c1 c)
    (hlog : c.state.log <:+ c'.state.log) : PostedSince c1 c' := by
  obtain ⟨new, pin, hnew, hm⟩ := h
  obtain ⟨new', hnew'⟩ := hlog
  refine ⟨new' ++ new, pin, ?_, List.mem_append_right _ hm⟩
  rw [← hnew', hnew, List.append_assoc]

theorem InStretch.act {s : State} {ts : List Task} (h : InStretch c1 c)
    (hlog : c.state.log <:+ s.log) : InStretch c1 (c.acted s ts) := by
  refine ⟨h.log.trans hlog, ?_⟩
  rcases h.way_out with ⟨k, id, hk, hm⟩ | hm | hp
  · exact .inl ⟨k, id, hk, Config.mem_acted.mpr (.inl hm)⟩
  · refine .inr (.inl ?_)
    rw [Config.tasks_acted]
    exact List.mem_append_left _ hm
  · exact .inr (.inr (hp.mono hlog))

theorem InStretch.answer {i k : Nat} {id : List Char} {s : State} {ts : List Task}
    (h : InStretch c1 c) (hi : c.pending[i]? = some (k, .lookup id))
    (hr : Replies c.state (.lookup id) s ts) : InStretch c1 (c.served i k s ts) := by
  obtain ⟨rest, _, htasks⟩ := Config.tasks_served hi s ts
  obtain ⟨before, hbefore⟩ := h.log
  cases hr with
  | opened _ hlog =>
    have hnew : s.log = ([.correctPINEntered c.state.pin, .answered id true] ++ before) ++
        c1.state.log := by
      rw [hlog, List.append_assoc, hbefore]; rfl
    refine ⟨⟨_, hnew.symm⟩, .inr (.inr ⟨_, c.state.pin, hnew, ?_⟩)⟩
    simp
  | refused _ hlog =>
    have hnew : s.log = (.answered id false :: before) ++ c1.state.log := by
      rw [hlog, List.cons_append, hbefore]
    refine ⟨⟨_, hnew.symm⟩, .inr (.inl ?_)⟩
    rw [htasks]
    simp

theorem inStretch_start {newValue : List Char} {s : State} {ts : List Task}
    (h : Change newValue c.state s ts) (hshort : c.state.pin.length < 4)
    (hnew : newValue.length ≤ c.state.pin.length + 1) (hlong : 4 ≤ s.pin.length) :
    InStretch c (c.acted s ts) := by
  refine ⟨h.suffix, .inl ?_⟩
  cases h with
  | same h => omega
  | lookup _ _ _ =>
    refine ⟨c.clock, newValue, Nat.le_refl _, Config.mem_acted.mpr (.inr ⟨rfl, ?_⟩)⟩
    exact List.mem_singleton_self _
  | edit hlen hpin _ =>
    rw [hpin] at hlong
    omega

end Step

/-- A long text is in a stretch that began when it was last short. -/
theorem inStretch_of_run {ls : List (Label Char Reply)} {c : Config State Task}
    (hr : pad.run (.init State.new) ls = some c) (hlen : 4 ≤ c.state.pin.length) :
    ∃ c1, lastShort (pad.history (.init State.new) ls) = some c1 ∧ InStretch c1 c := by
  refine System.run_rule (I := fun h c => 4 ≤ c.state.pin.length →
    ∃ c1, lastShort h = some c1 ∧ InStretch c1 c) hr ?_ ?_ hlen
  · intro h0
    simp [Config.init, State.new] at h0
  · intro h c l c' _ hI hs hlong
    rw [lastShort_concat]
    cases hs with
    | @act key e s ts ha =>
      have hchange := act_change ha
      by_cases hshort : c.state.pin.length < 4
      · rw [if_pos hshort]
        exact ⟨c, rfl, inStretch_start hchange hshort (action_length key _) hlong⟩
      · obtain ⟨c1, h1, hst⟩ := hI (by omega)
        rw [if_neg hshort]
        exact ⟨c1, h1, hst.act hchange.suffix⟩
    | @serve i k t reply s ts hi ha =>
      have hrep := serve_replies t reply c.state
      rw [Option.some.inj ha] at hrep
      cases t with
      | reset =>
        cases hrep with
        | cleared hpin _ =>
          rw [Config.served_state, hpin] at hlong
          simp at hlong
      | lookup id =>
        have hpin : s.pin = c.state.pin := by
          cases hrep with
          | opened hpin _ => exact hpin
          | refused hpin _ => exact hpin
        rw [Config.served_state, hpin] at hlong
        obtain ⟨c1, h1, hst⟩ := hI hlong
        rw [if_neg (by omega)]
        exact ⟨c1, h1, hst.answer hi hrep⟩

/-- In every run: a text of four or more symbols has a lookup in flight that was issued since it was
last shorter, or a reset scheduled, or was confirmed since. So with nothing in flight the user got in
or has at most three symbols on the pad. -/
theorem never_stuck {ls : List (Label Char Reply)} {c : Config State Task}
    (hr : pad.run (.init State.new) ls = some c) :
    (4 ≤ c.state.pin.length → ∃ c1, lastShort (pad.history (.init State.new) ls) = some c1 ∧
      (LookupSince c1 c ∨ .reset ∈ c.tasks ∨ PostedSince c1 c)) ∧
    (c.pending = [] → c.state.pin.length ≤ 3 ∨
      ∃ c1, lastShort (pad.history (.init State.new) ls) = some c1 ∧ PostedSince c1 c) := by
  constructor
  · intro hlen
    obtain ⟨c1, h1, hst⟩ := inStretch_of_run hr hlen
    exact ⟨c1, h1, hst.way_out⟩
  · intro hq
    by_cases hlen : 4 ≤ c.state.pin.length
    · obtain ⟨c1, h1, hst⟩ := inStretch_of_run hr hlen
      refine .inr ⟨c1, h1, ?_⟩
      rcases hst.way_out with ⟨k, id, _, hm⟩ | hm | hp
      · rw [hq] at hm
        cases hm
      · rw [Config.tasks, hq] at hm
        cases hm
      · exact hp
    · exact .inl (by omega)

/-- The guest of `onePin` got in. -/
theorem onePin_posted : ∃ c c1, pad.run (.init State.new) onePin = some c ∧
    lastShort (pad.history (.init State.new) onePin) = some c1 ∧ PostedSince c1 c := by
  obtain ⟨c, hr, hq, hlen⟩ : ∃ c, pad.run (.init State.new) onePin = some c ∧
      c.pending.length = 0 ∧ c.state.pin.length = 4 := ⟨_, rfl, rfl, rfl⟩
  rcases (never_stuck hr).2 (List.length_eq_zero_iff.mp hq) with hshort | ⟨c1, h1, hp⟩
  · omega
  · exact ⟨c, c1, hr, h1, hp⟩

end WeddApp.PinPad
