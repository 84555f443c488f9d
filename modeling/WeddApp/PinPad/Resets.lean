import WeddApp.PinPad.Edits

/-!
# PinPad.Resets

What the reset of a wrong PIN throws away: the text of the moment, whatever was typed since the PIN
was looked up (`reset_clears_text`).
-/

namespace WeddApp.PinPad

open Async

/-- A reset that fires was scheduled because the lookup of a PIN `p` was answered with `false`. It
clears the text, which is what the edits since the lookup have made of `p`. If no key was pressed
since, that is `p` or was cleared before; and if it is one of these, no lookup of another PIN that is
in flight had its PIN on the pad. -/
theorem reset_clears_text {ls : List (Label Char Reply)} {c c' : Config State Task}
    (hr : pad.run (.init State.new) ls = some c) {i k : Nat} {reply : Reply}
    (hi : c.pending[i]? = some (k, .reset)) (hs : pad.Step c (.serve i reply) c') :
    c'.state.pin = [] ∧
    ∃ p, LookedUp (pad.history (.init State.new) ls) k p ∧ p.length = 4 ∧
      .answered p false ∈ c.state.log ∧
      c.state.pin = applyEdits (editsSince (pad.history (.init State.new) ls) k) p ∧
      (c.clock = k + 1 → c.state.pin = p ∨ c.state.pin = []) ∧
      (c.state.pin = p ∨ c.state.pin = [] →
        ∀ k' id, (k', .lookup id) ∈ c.pending → c.state.pin = id → id = p) := by
  have hI := scheduled_of_run hr
  obtain ⟨p, ho, hp⟩ := hI.resets k (mem_of_getElem? hi)
  refine ⟨?_, p, ho.lookedUp, ho.length, hp, ho.text, ho.still, fun htext k' id hpend hpin => ?_⟩
  · rw [pin_of_step hs, editOf, hi]
    rfl
  · have hlen := (hI.lookups k' id hpend).length
    rcases htext with ht | ht
    · rw [← hpin, ht]
    · -- the empty text is the PIN of no lookup
      rw [← hpin, ht] at hlen
      cases hlen

/-- A guest types `1234`, takes the `4` back and types it again; the first lookup is refused. -/
def wrongPin : List (Label Char Reply) :=
  [.act '1' (.ok none), .act '2' (.ok none), .act '3' (.ok none), .act '4' (.ok none),
    .act '\u232B' (.ok none), .act '4' (.ok none), .serve 0 (.ok none)]

theorem wrongPin_cleared : ∃ c c', pad.run (.init State.new) wrongPin = some c ∧
    pad.Step c (.serve 1 (.ok none)) c' ∧ c'.state.pin = [] ∧
    ∃ p, LookedUp (pad.history (.init State.new) wrongPin) 3 p ∧ .answered p false ∈ c.state.log ∧
      c.state.pin = applyEdits [.press '\u232B', .press '4'] p := by
  obtain ⟨c, hr, hi, c', hs⟩ : ∃ c, pad.run (.init State.new) wrongPin = some c ∧
      c.pending[1]? = some (3, .reset) ∧ ∃ c', pad.Step c (.serve 1 (.ok none)) c' :=
    ⟨_, rfl, rfl, _, .serve rfl rfl⟩
  obtain ⟨hpin, p, hl, _, hans, htext, _, _⟩ := reset_clears_text hr hi hs
  exact ⟨c, c', hr, hs, hpin, p, hl, hans, htext⟩

/-- The keys and answers of `twoLookups` up to the reset. -/
def editedPin : List (Label Char Reply) :=
  [.act '1' (.ok none), .act '2' (.ok none), .act '3' (.ok none), .act '4' (.ok none),
    .act '\u232B' (.ok none), .act '5' (.ok none), .serve 0 (.ok none)]

/-- The reset of `1234` fires while `1235` is on the pad and being looked up, and clears it. -/
theorem editedPin_cleared : ∃ c, pad.run (.init State.new) editedPin = some c ∧
    c.pending[1]?.map Prod.fst = some 3 ∧ c.tasks = [.lookup ['1', '2', '3', '5'], .reset] ∧
    .answered ['1', '2', '3', '4'] false ∈ c.state.log ∧ c.state.pin = ['1', '2', '3', '5'] ∧
    (serve .reset (.ok none) c.state).1.pin = [] :=
  ⟨_, rfl, rfl, rfl, List.mem_cons_self, rfl, rfl⟩

end WeddApp.PinPad
