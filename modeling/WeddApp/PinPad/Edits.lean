import WeddApp.PinPad.Changes

/-!
# PinPad.Edits

How the text on the pad came about. Key presses and resets are the only edits. While the lookup of a
PIN is in flight, or the reset that its answer scheduled, the text is that PIN with the edits since
the lookup applied to it (`scheduled_of_run`).
-/

namespace WeddApp.PinPad

open Async

inductive Edit where
  | press (key : Char)
  | clear
  deriving DecidableEq

def Edit.apply : Edit → List Char → List Char
  | .press key, text => CallKeyboardButton.action key text
  | .clear, _ => []

def applyEdits (es : List Edit) (text : List Char) : List Char := es.foldl (fun t e => e.apply t) text

def editOf (c : Config State Task) : Label Char Reply → Option Edit
  | .act key _ => some (.press key)
  | .serve i _ =>
    match c.pending[i]? with
    | some (_, .reset) => some .clear
    | _ => none

/-- The edits after key press number `k`. -/
def editsSince (h : List (Config State Task × Label Char Reply)) (k : Nat) : List Edit :=
  h.filterMap fun x => if k < x.1.clock then editOf x.1 x.2 else none

def LookedUp (h : List (Config State Task × Label Char Reply)) (k : Nat) (p : List Char) : Prop :=
  ∃ c key e, (c, .act key e) ∈ h ∧ c.clock = k ∧ CallKeyboardButton.action key c.state.pin = p

/-- The PIN `p` was looked up by key press `k` and edited since to the text on the pad; without another
key press it is still there or was cleared. -/
structure OfLookup (h : List (Config State Task × Label Char Reply)) (c : Config State Task) (k : Nat)
    (p : List Char) : Prop where
  lookedUp : LookedUp h k p
  length : p.length = 4
  past : k < c.clock
  text : c.state.pin = applyEdits (editsSince h k) p
  still : c.clock = k + 1 → c.state.pin = p ∨ c.state.pin = []

/-- What is in flight comes from a lookup; a reset from one that was answered with `false`. -/
structure Scheduled (h : List (Config State Task × Label Char Reply)) (c : Config State Task) :
    Prop where
  past : ∀ x ∈ h, x.1.clock ≤ c.clock
  lookups : ∀ k id, (k, .lookup id) ∈ c.pending → OfLookup h c k id
  resets : ∀ k, (k, .reset) ∈ c.pending →
    ∃ p, OfLookup h c k p ∧ .answered p false ∈ c.state.log

theorem LookedUp.mono {h h' : List (Config State Task × Label Char Reply)} {k : Nat} {p : List Char}
    (hl : LookedUp h k p) (hh : ∀ x ∈ h, x ∈ h') : LookedUp h' k p := by
  obtain ⟨c, key, e, hm, hk, hp⟩ := hl
  exact ⟨c, key, e, hh _ hm, hk, hp⟩

theorem applyEdits_append (es es' : List Edit) (text : List Char) :
    applyEdits (es ++ es') text = applyEdits es' (applyEdits es text) := List.foldl_append

theorem Replies.pin {s s' : State} {t : Task} {ts : List Task} (hr : Replies s t s' ts) :
    s'.pin = s.pin ∨ s'.pin = [] := by
  cases hr with
  | opened hpin _ => exact .inl hpin
  | refused hpin _ => exact .inl hpin
  | cleared hpin _ => exact .inr hpin

theorem Replies.suffix {s s' : State} {t : Task} {ts : List Task} (hr : Replies s t s' ts) :
    s.log <:+ s'.log := by
  cases hr with
  | opened _ hlog => rw [hlog]; exact (List.suffix_cons _ _).trans (List.suffix_cons _ _)
  | refused _ hlog => rw [hlog]; exact List.suffix_cons _ _
  | cleared _ hlog => simp only [hlog, List.suffix_rfl]

section Step

variable {h : List (Config State Task × Label Char Reply)} {c c' : Config State Task}
  {l : Label Char Reply} {k : Nat} {p : List Char}

theorem pin_of_step (hs : pad.Step c l c') :
    c'.state.pin = applyEdits (editOf c l).toList c.state.pin := by
  cases hs with
  | act ha => exact (act_change ha).pin
  | @serve i k t reply s ts hi ha =>
    have hrep := serve_replies t reply c.state
    rw [Option.some.inj ha] at hrep
    rw [Config.served_state, editOf, hi]
    cases hrep with
    | opened hpin _ => exact hpin
    | refused hpin _ => exact hpin
    | cleared hpin _ => exact hpin

theorem editsSince_concat (hk : k < c.clock) :
    editsSince (h ++ [(c, l)]) k = editsSince h k ++ (editOf c l).toList := by
  rw [editsSince, List.filterMap_append, ← editsSince]
  cases he : editOf c l with
  | none => simp [hk, he]
  | some ed => simp [hk, he]

theorem editsSince_none (hpast : ∀ x ∈ h, x.1.clock ≤ k) : editsSince h k = [] := by
  rw [editsSince, List.filterMap_eq_nil_iff]
  intro x hx
  exact if_neg (Nat.not_lt.mpr (hpast x hx))

theorem OfLookup.step (ho : OfLookup h c k p) (hs : pad.Step c l c') :
    OfLookup (h ++ [(c, l)]) c' k p := by
  have hpast := ho.past
  refine ⟨ho.lookedUp.mono fun _ hx => List.mem_append_left _ hx, ho.length,
    Nat.lt_of_lt_of_le hpast hs.clock_le, ?_, fun hk => ?_⟩
  · rw [pin_of_step hs, ho.text, editsSince_concat hpast, applyEdits_append]
  · cases hs with
    | act ha => rw [Config.acted_clock] at hk; omega
    | @serve i k' t reply s ts hi ha =>
      have hrep := serve_replies t reply c.state
      rw [Option.some.inj ha] at hrep
      rw [Config.served_state]
      rcases hrep.pin with hpin | hpin
      · rw [hpin]; exact ho.still hk
      · exact .inr hpin

theorem ofLookup_start {key : Char} {e : Reply} {s : State} {ts : List Task} {id : List Char}
    (hpast : ∀ x ∈ h, x.1.clock ≤ c.clock) (ha : act key c.state = some (s, ts))
    (hm : .lookup id ∈ ts) : OfLookup (h ++ [(c, .act key e)]) (c.acted s ts) c.clock id := by
  have hnone : editsSince (h ++ [(c, .act key e)]) c.clock = [] := by
    refine editsSince_none fun x hx => ?_
    rcases List.mem_append.mp hx with hx | hx
    · exact hpast x hx
    · cases List.mem_singleton.mp hx; exact Nat.le_refl _
  cases act_change ha with
  | same _ => cases hm
  | edit _ _ _ => cases hm
  | lookup hlen hpin _ =>
    cases List.mem_singleton.mp hm
    refine ⟨⟨c, key, e, by simp, rfl, rfl⟩, hlen, ?_, ?_, fun _ => .inl hpin⟩
    · rw [Config.acted_clock]; omega
    · rw [hnone]; exact hpin

theorem scheduled_step (hI : Scheduled h c) (hs : pad.Step c l c') :
    Scheduled (h ++ [(c, l)]) c' := by
  have hclock := hs.clock_le
  have hpast : ∀ x ∈ h ++ [(c, l)], x.1.clock ≤ c'.clock := by
    intro x hx
    rcases List.mem_append.mp hx with hx | hx
    · exact Nat.le_trans (hI.past x hx) hclock
    · cases List.mem_singleton.mp hx; exact hclock
  cases hs with
  | @act key e s ts ha =>
    have hchange := act_change ha
    refine ⟨hpast, fun k id hm => ?_, fun k hm => ?_⟩
    · rcases Config.mem_acted.mp hm with hm | ⟨hk, hnew⟩
      · exact (hI.lookups k id hm).step (.act ha)
      · simp only at hk hnew
        subst hk
        exact ofLookup_start hI.past ha hnew
    · rcases Config.mem_acted.mp hm with hm | ⟨_, hm⟩
      · obtain ⟨p, ho, hp⟩ := hI.resets k hm
        exact ⟨p, ho.step (.act ha), hchange.suffix.subset hp⟩
      · exact absurd hm hchange.no_reset
  | @serve i k' t reply s ts hi ha =>
    have hs : pad.Step c (.serve i reply) (c.served i k' s ts) := .serve hi ha
    have hrep := serve_replies t reply c.state
    rw [Option.some.inj ha] at hrep
    refine ⟨hpast, fun k id hm => ?_, fun k hm => ?_⟩
    · rcases Config.mem_served hm with hm | ⟨_, hnew⟩
      · exact (hI.lookups k id hm).step hs
      · cases hrep with
        | opened _ _ => cases hnew
        | refused _ _ => cases List.mem_singleton.mp hnew
        | cleared _ _ => cases hnew
    · rcases Config.mem_served hm with hm | ⟨hk, hnew⟩
      · obtain ⟨p, ho, hp⟩ := hI.resets k hm
        exact ⟨p, ho.step hs, hrep.suffix.subset hp⟩
      · simp only at hk hnew
        subst hk
        cases hrep with
        | opened _ _ => cases hnew
        | cleared _ _ => cases hnew
        | @refused id _ _ hlog =>
          refine ⟨id, (hI.lookups k id (mem_of_getElem? hi)).step hs, ?_⟩
          rw [Config.served_state, hlog]
          exact List.mem_cons_self

end Step

theorem scheduled_of_run {ls : List (Label Char Reply)} {c : Config State Task}
    (hr : pad.run (.init State.new) ls = some c) :
    Scheduled (pad.history (.init State.new) ls) c :=
  System.run_rule hr ⟨nofun, nofun, nofun⟩ fun _ _ _ _ _ hI hs => scheduled_step hI hs

end WeddApp.PinPad
