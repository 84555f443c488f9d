import WeddApp.Reads.Phase

/-!
# Reads.Completion

How often a read calls its completion handler: never twice, and exactly once when all its requests
have been answered, except in the three branches that call nothing (`Unanswered`): without a current
user, when the document of a gallery cannot be read, and when the image of a person cannot be shown.
-/

namespace WeddApp.Reads

open Async

variable {UIImage : Type} [UIKit UIImage]

section Run

variable {ls : List (Label Call Reply)} {c : Config (State UIImage) (Request UIImage)}

theorem answers_length_le (hr : (reads UIImage).run (.init (State.new UIImage)) ls = some c)
    (k : Nat) : (c.state.answers k).length ≤ 1 := by
  cases (invariant_of_run hr).phase k with
  | uncalled _ _ ha _ | waiting _ _ _ _ ha _ | gathering _ _ _ _ ha _ | silent _ _ ha _ =>
    rw [ha]; exact Nat.zero_le 1
  | answered r _ _ ha _ => rw [ha]; exact Nat.le_refl 1

/-- A call with nothing in flight has called its handler exactly once, or is one of the silent
ones. -/
theorem answered_once_unless_silent
    (hr : (reads UIImage).run (.init (State.new UIImage)) ls = some c) {k : Nat}
    (hk : k < c.state.calls.length) (hd : ¬ c.Live k) :
    (c.state.answers k).length = 1 ↔
      ¬ Unanswered ((reads UIImage).history (.init (State.new UIImage)) ls) k := by
  have hI := invariant_of_run hr
  have hdes : c.descendants k = [] := by
    by_contra hn
    exact hd (Config.live_iff.mpr hn)
  cases hI.phase k with
  | uncalled hk' _ _ _ => exact absurd (by rw [hI.clock]; exact hk) hk'
  | waiting t _ _ ht _ _ => rw [hdes] at ht; cases ht
  | gathering _ _ _ hn _ _ => exact absurd hdes hn
  | answered r _ _ ha hs =>
    rw [ha]
    exact ⟨fun _ => hs, fun _ => rfl⟩
  | silent _ _ ha hs =>
    rw [ha]
    exact ⟨nofun, fun h => absurd hs h⟩

theorem completions_mono {c0 : Config (State UIImage) (Request UIImage)}
    (hr : (reads UIImage).run c0 ls = some c) :
    ∀ x ∈ c0.state.completions, x ∈ c.state.completions := by
  refine System.invariant (I := fun c => ∀ x ∈ c0.state.completions, x ∈ c.state.completions) hr
    (fun _ hx => hx) ?_
  intro c1 l c2 _ hI hs x hx
  have hx1 := hI x hx
  cases hs with
  | @act call e _ _ ha =>
    obtain ⟨rfl, _⟩ := served_eq ha
    rw [Config.acted_state, (act_spec call c1.state).2.1]
    exact hx1
  | serve _ ha =>
    rw [Config.served_state]
    cases serve_serves ha with
    | answers r _ _ _ _ hc _ | shows hc _ => rw [hc]; exact List.mem_cons_of_mem _ hx1
    | passes _ _ _ _ _ hc _ | silent _ _ hc _ | gathers _ hc _ | fails _ _ hc _
    | collects _ hc _ => rw [hc]; exact hx1
    | decodes _ | notifies => exact hx1

omit [UIKit UIImage] in
theorem mem_answers {s : State UIImage} {k : Nat} {r : Result UIImage} :
    r ∈ s.answers k ↔ (k, r) ∈ s.completions := by
  simp only [State.answers, List.mem_filterMap]
  constructor
  · rintro ⟨⟨k', r'⟩, hm, he⟩
    split at he
    · rename_i hk
      cases he; cases hk; exact hm
    · cases he
  · intro hm
    exact ⟨_, hm, by simp⟩

theorem answers_of_mem (hr : (reads UIImage).run (.init (State.new UIImage)) ls = some c) {k : Nat}
    {r : Result UIImage} (h : (k, r) ∈ c.state.completions) : c.state.answers k = [r] := by
  have hm := mem_answers.mpr h
  have hle := answers_length_le hr k
  obtain ⟨r', hr'⟩ := List.length_eq_one_iff.mp
    (Nat.le_antisymm hle (List.length_pos_of_mem hm))
  rw [hr'] at hm ⊢
  rw [List.mem_singleton.mp hm]

end Run

/-- A gallery of two photos, of which the first one cannot be downloaded. -/
def halfGallery : List (Label Call Reply) :=
  [.act (.retrieveGallery "0007") .main,
    .serve 0 (.document (.ok (some
      ((AList.singleton "photo1" (.string "a")).insert "photo2" (.string "b"))))),
    .serve 0 (.data (.error "offline")), .serve 0 (.data (.ok [1])), .serve 0 .main, .serve 0 .main,
    .serve 0 .main]

theorem halfGallery_answered :
    ¬ Unanswered ((reads Data).history (.init (State.new Data)) halfGallery) 0 := by
  have h : ((reads Data).run (.init (State.new Data)) halfGallery).map
      (fun c => (c.state.calls.length, c.pending.length, (c.state.answers 0).length)) =
        some (1, 0, 1) := by decide
  obtain ⟨c, hr, hc⟩ := Option.map_eq_some_iff.mp h
  simp only [Prod.mk.injEq] at hc
  refine (answered_once_unless_silent hr (k := 0) ?_ ?_).mp hc.2.2
  · rw [hc.1]; exact Nat.zero_lt_one
  · rintro ⟨t, ht⟩
    rw [List.length_eq_zero_iff.mp hc.2.1] at ht; cases ht

/-- All requests of a single call have been answered, and its handler was never called. -/
def Stranded (ls : List (Label Call Reply)) : Prop :=
  ∃ c, (reads Data).run (.init (State.new Data)) ls = some c ∧ c.pending = [] ∧
    c.state.calls.length = 1 ∧ c.state.answers 0 = []

def nobodySignedIn : List (Label Call Reply) := [.act (.getWeddingIDFromUser none) .main]

def galleryUnread : List (Label Call Reply) :=
  [.act (.retrieveGallery "0007") .main, .serve 0 (.document (.error "offline"))]

def groomNotDownloaded : List (Label Call Reply) :=
  [.act (.getImageOf "0007" "groom") .main,
    .serve 0 (.document (.ok (some (AList.singleton "groomUrl" (.string "a"))))),
    .serve 0 (.data (.error "offline"))]

theorem silentReads_unanswered :
    Stranded nobodySignedIn ∧ Stranded galleryUnread ∧ Stranded groomNotDownloaded :=
  ⟨⟨_, rfl, rfl, rfl, rfl⟩, ⟨_, rfl, rfl, rfl, rfl⟩, ⟨_, rfl, rfl, rfl, rfl⟩⟩

end WeddApp.Reads
