import WeddApp.Reads.Step
import WeddApp.Wish.Submit

/-!
# Wish.Published

What the guests of a wedding get to read. While no write of a wish fails, the documents under
`Guests/<id>/Guests` and the writes in flight are the first wishes of the devices that submitted one
for that wedding, each under the guest ID that its device keeps (`Published`). So with nothing in
flight the documents hold exactly one wish for each of these devices (`guestSnapshots_perm`), and
`getWishes` reads it back (`wishes_perm`).
-/

namespace WeddApp

open Async Documents

variable {UIImage : Type}

def submitted (d : DeviceID) (w : String) : Label (Action UIImage) Env → Option Wish
  | .act (.tapSubmit d' w' guestName wish date) _ =>
    if d' = d ∧ w' = w then some (Wish.init guestName wish date) else none
  | _ => none

def firstWish (ls : List (Label (Action UIImage) Env)) (d : DeviceID) (w : String) : Option Wish :=
  ls.findSome? (submitted d w)

def guestsCollection (weddingID : String) : List String :=
  [Constants.guestsCollection, weddingID, Constants.guestsCollection]

namespace State

/-- The documents of the collection, with their references. -/
def guestSnapshots (s : State UIImage) (weddingID : String) : List (DocumentReference × Document) :=
  (Fields.toList s.firestore).filter fun x => x.1.dropLast = guestsCollection weddingID

/-- Nobody has submitted a wish yet. -/
structure NoWishes (s : State UIImage) : Prop where
  wishes : ∀ w g, s.wishDocument w g = none
  guestID : ∀ d w, s.guestID d w = none
  alerts : alerts s.log = []

end State

theorem Wish.ofDocument_toDictionary (wish : Wish) : Wish.ofDocument wish.toDictionary = some wish := by
  have hname : wish.toDictionary.lookup "guestName" = some (.string wish.guestName) := by
    rw [Wish.toDictionary, Fields.ofList, AList.lookup_to_alist]; rfl
  have hwish : wish.toDictionary.lookup "wish" = some (.string wish.wish) := by
    rw [Wish.toDictionary, Fields.ofList, AList.lookup_to_alist]; rfl
  have hdate : wish.toDictionary.lookup "date" = some (.string wish.date) := by
    rw [Wish.toDictionary, Fields.ofList, AList.lookup_to_alist]; rfl
  simp [Wish.ofDocument, hname, hwish, hdate]

theorem mem_guestSnapshots {s : State UIImage} {w : String} {r : DocumentReference} {doc : Document} :
    (r, doc) ∈ s.guestSnapshots w ↔ ∃ g, r = guestDocument w g ∧ s.wishDocument w g = some doc := by
  simp only [State.guestSnapshots, List.mem_filter, mem_toList, decide_eq_true_eq]
  constructor
  · intro h
    obtain ⟨hl, hd⟩ := h
    have hne : r ≠ [] := by
      intro hr
      rw [hr] at hd
      cases hd
    have hr : r = guestDocument w (r.getLast hne) := by
      have h := List.dropLast_append_getLast hne
      rw [hd] at h
      exact h.symm
    exact ⟨r.getLast hne, hr, by rw [State.wishDocument, ← hr]; exact hl⟩
  · intro h
    obtain ⟨g, hr, hd⟩ := h
    subst hr
    exact ⟨hd, rfl⟩

theorem guestSnapshots_nodup (s : State UIImage) (w : String) : (s.guestSnapshots w).Nodup :=
  (toList_nodup s.firestore).filter _

/-! ## First wishes -/

theorem firstWish_concat (ls : List (Label (Action UIImage) Env)) (l : Label (Action UIImage) Env)
    (d : DeviceID) (w : String) :
    firstWish (ls ++ [l]) d w = (firstWish ls d w).or (submitted d w l) := by
  simp only [firstWish, List.findSome?_append, List.findSome?_cons, List.findSome?_nil]
  cases submitted d w l <;> rfl

theorem submitted_ne {d d' : DeviceID} {w w' guestName wish : String} {date : Date} {e : Env}
    (h : ¬ (d' = d ∧ w' = w)) :
    submitted d' w' (.act (.tapSubmit d w guestName wish date) e : Label (Action UIImage) Env) =
      none := by
  rw [submitted, if_neg]
  intro hd
  exact h ⟨hd.1.symm, hd.2.symm⟩

/-- The document of a wish is stored, or the write of it is in flight. -/
def Sending (c : Config (State UIImage) Task) (w g : String) (doc : Document) : Prop :=
  .wishWrite w g doc ∈ c.tasks ∨ c.state.wishDocument w g = some doc

/-- Devices keep guest IDs, show alerts and send wishes for their first taps, and for nothing else. -/
structure Published (ls : List (Label (Action UIImage) Env)) (c : Config (State UIImage) Task) :
    Prop where
  keys : ∀ d w, c.state.guestID d w = none ↔ firstWish ls d w = none
  alerted : ∀ d w g, (d, w, g) ∈ alerts c.state.log ↔ c.state.guestID d w = some g
  once : ((alerts c.state.log).map fun x => (x.1, x.2.1)).Nodup
  sent : ∀ d w g, c.state.guestID d w = some g →
    ∃ wish, firstWish ls d w = some wish ∧ Sending c w g wish.toDictionary
  written : ∀ w g doc, Sending c w g doc →
    ∃ d wish, c.state.guestID d w = some g ∧ firstWish ls d w = some wish ∧ doc = wish.toDictionary

theorem published_init {s0 : State UIImage} (h0 : s0.NoWishes) : Published [] (.init s0) where
  keys := fun d w => ⟨fun _ => rfl, fun _ => h0.guestID d w⟩
  alerted := by
    intro d w g
    simp only [Config.init, h0.alerts, h0.guestID, List.not_mem_nil, reduceCtorEq]
  once := by simp [Config.init, h0.alerts]
  sent := by
    intro d w g h
    simp only [Config.init, h0.guestID, reduceCtorEq] at h
  written := by
    intro w g doc h
    simp only [Sending, Config.tasks, Config.init, h0.wishes, List.map_nil, List.not_mem_nil,
      reduceCtorEq, or_self] at h

theorem Published.frame {ls ls' : List (Label (Action UIImage) Env)}
    {c c' : Config (State UIImage) Task} (hI : Published ls c)
    (hfirst : ∀ d w, firstWish ls' d w = firstWish ls d w)
    (hg : ∀ d w, c'.state.guestID d w = c.state.guestID d w)
    (hal : alerts c'.state.log = alerts c.state.log)
    (hsend : ∀ w g doc, Sending c' w g doc ↔ Sending c w g doc) : Published ls' c' where
  keys := by
    intro d w
    rw [hg, hfirst]; exact hI.keys d w
  alerted := by
    intro d w g
    rw [hal, hg]; exact hI.alerted d w g
  once := by rw [hal]; exact hI.once
  sent := by
    intro d w g h
    rw [hg] at h
    obtain ⟨wish, hw, hs⟩ := hI.sent d w g h
    exact ⟨wish, by rw [hfirst]; exact hw, (hsend w g _).mpr hs⟩
  written := by
    intro w g doc h
    obtain ⟨d, wish, hd, hw, he⟩ := hI.written w g doc ((hsend w g doc).mp h)
    exact ⟨d, wish, by rw [hg]; exact hd, by rw [hfirst]; exact hw, he⟩

/-- Two devices never get the same guest ID, so there is one document for each. -/
theorem Published.device_unique {ls : List (Label (Action UIImage) Env)}
    {c : Config (State UIImage) Task} {s0 : State UIImage} (hI : Published ls c)
    (hfresh : FreshGuestIDs s0 c.state.log) {d d' : DeviceID} {w g : String}
    (h : c.state.guestID d w = some g) (h' : c.state.guestID d' w = some g) : d = d' := by
  have hm := (hI.alerted d w g).mpr h
  have hm' := (hI.alerted d' w g).mpr h'
  have he := List.inj_on_of_nodup_map hfresh.nodup hm hm' rfl
  simp only [Prod.mk.injEq, and_true] at he
  exact he

theorem Published.document_unique {ls : List (Label (Action UIImage) Env)}
    {c : Config (State UIImage) Task} {s0 : State UIImage} (hI : Published ls c)
    (hfresh : FreshGuestIDs s0 c.state.log) {w g : String} {doc doc' : Document}
    (h : Sending c w g doc) (h' : Sending c w g doc') : doc = doc' := by
  obtain ⟨d, wish, hd, hw, rfl⟩ := hI.written w g doc h
  obtain ⟨d', wish', hd', hw', rfl⟩ := hI.written w g doc' h'
  have he := hI.device_unique hfresh hd hd'
  subst he
  rw [hw] at hw'
  cases hw'
  rfl

/-! ## The steps -/

/-- A tap that sends nothing was made on a device that has a guest ID. -/
theorem guestID_of_unsent {d : DeviceID} {w guestName wish : String} {date : Date} {e : Env}
    {s s' : State UIImage} {ts : List Task}
    (h : act (.tapSubmit d w guestName wish date) e s = some (s', ts))
    (hts : ∀ u ∈ ts, u.wish = none) : s.guestID d w ≠ none := by
  intro hnone
  have hl : (s.device d).defaults.lookup (guestIDKey w) = none := hnone
  simp only [act] at h
  split at h
  · cases h
  · obtain ⟨_, rfl⟩ := served_eq h
    have h1 := hts _ (by
      simp only [WishPage.tapOnSubmit, hl, uploadWish]
      exact List.mem_singleton_self _)
    cases h1

theorem firstWish_unsent {ls : List (Label (Action UIImage) Env)} {c : Config (State UIImage) Task}
    (hI : Published ls c) {a : Action UIImage} {e : Env} {s : State UIImage} {ts : List Task}
    (h : act a e c.state = some (s, ts)) (hts : ∀ u ∈ ts, u.wish = none) (d : DeviceID) (w : String) :
    firstWish (ls ++ [.act a e]) d w = firstWish ls d w := by
  rw [firstWish_concat]
  cases a with
  | tapSubmit d' w' guestName wish date =>
    by_cases hd : d = d' ∧ w = w'
    · obtain ⟨rfl, rfl⟩ := hd
      have hne := guestID_of_unsent h hts
      cases hf : firstWish ls d w with
      | none => exact absurd ((hI.keys d w).mpr hf) hne
      | some x => rfl
    · rw [submitted_ne hd, Option.or_none]
  | editAuth | tapSignIn | tapSignUp | editForm | tapSave => exact Option.or_none

theorem firstWish_serve (ls : List (Label (Action UIImage) Env)) (i : Nat) (e : Env) (d : DeviceID)
    (w : String) : firstWish (ls ++ [.serve i e]) d w = firstWish ls d w := by
  rw [firstWish_concat]; exact Option.or_none

theorem published_submit {ls : List (Label (Action UIImage) Env)} {c : Config (State UIImage) Task}
    (hI : Published ls c) {d : DeviceID} {w guestName wish : String} {date : Date} {e : Env}
    {s : State UIImage} (hnone : c.state.guestID d w = none)
    (hw : ∀ w g, s.wishDocument w g = c.state.wishDocument w g)
    (hg : ∀ d' w', s.guestID d' w' = if d' = d ∧ w' = w then some e.newID else c.state.guestID d' w')
    (hal : alerts s.log = (d, w, e.newID) :: alerts c.state.log) :
    Published (ls ++ [.act (.tapSubmit d w guestName wish date) e])
      (c.acted s [.wishWrite w e.newID (Wish.init guestName wish date).toDictionary]) := by
  have hfirst : ∀ d' w', ¬ (d' = d ∧ w' = w) →
      firstWish (ls ++ [.act (.tapSubmit d w guestName wish date) e]) d' w' = firstWish ls d' w' := by
    intro d' w' hne
    rw [firstWish_concat, submitted_ne hne, Option.or_none]
  have hself : firstWish (ls ++ [.act (.tapSubmit d w guestName wish date) e]) d w =
      some (Wish.init guestName wish date) := by
    rw [firstWish_concat, (hI.keys d w).mp hnone, Option.none_or, submitted, if_pos ⟨rfl, rfl⟩]
  have hsend : ∀ w' g doc, Sending (c.acted s
      [.wishWrite w e.newID (Wish.init guestName wish date).toDictionary]) w' g doc ↔
      Sending c w' g doc ∨ w' = w ∧ g = e.newID ∧ doc = (Wish.init guestName wish date).toDictionary := by
    intro w' g doc
    simp only [Sending, Config.tasks_acted, Config.acted_state, hw, List.mem_append,
      List.mem_singleton, Task.wishWrite.injEq]
    exact or_right_comm
  refine ⟨fun d' w' => ?_, fun d' w' g => ?_, ?_, fun d' w' g hk => ?_, fun w' g doc hs => ?_⟩
  · rw [Config.acted_state, hg]
    by_cases hd : d' = d ∧ w' = w
    · obtain ⟨rfl, rfl⟩ := hd
      simp [hself]
    · rw [if_neg hd, hfirst d' w' hd]; exact hI.keys d' w'
  · rw [Config.acted_state, hal, hg, List.mem_cons, hI.alerted]
    by_cases hd : d' = d ∧ w' = w
    · obtain ⟨rfl, rfl⟩ := hd
      simp [hnone, eq_comm]
    · rw [if_neg hd]
      constructor
      · intro h
        refine h.resolve_left fun he => hd ?_
        cases he
        exact ⟨rfl, rfl⟩
      · exact .inr
  · rw [Config.acted_state, hal, List.map_cons, List.nodup_cons]
    refine ⟨fun hm => ?_, hI.once⟩
    obtain ⟨⟨d', w', g⟩, hm, he⟩ := List.mem_map.mp hm
    cases he
    rw [hI.alerted, hnone] at hm
    cases hm
  · rw [Config.acted_state, hg] at hk
    by_cases hd : d' = d ∧ w' = w
    · rw [if_pos hd] at hk
      obtain ⟨rfl, rfl⟩ := hd
      cases hk
      exact ⟨_, hself, (hsend ..).mpr (.inr ⟨rfl, rfl, rfl⟩)⟩
    · rw [if_neg hd] at hk
      obtain ⟨wish', hw', hs⟩ := hI.sent d' w' g hk
      exact ⟨wish', by rw [hfirst d' w' hd]; exact hw', (hsend ..).mpr (.inl hs)⟩
  · rcases (hsend ..).mp hs with hs | ⟨rfl, rfl, rfl⟩
    · obtain ⟨d', wish', hk, hw', he⟩ := hI.written w' g doc hs
      have hd : ¬ (d' = d ∧ w' = w) := by
        intro hd
        obtain ⟨rfl, rfl⟩ := hd
        rw [hnone] at hk
        cases hk
      refine ⟨d', wish', ?_, by rw [hfirst d' w' hd]; exact hw', he⟩
      rw [Config.acted_state, hg, if_neg hd]; exact hk
    · refine ⟨d, _, ?_, hself, rfl⟩
      rw [Config.acted_state, hg, if_pos ⟨rfl, rfl⟩]

section Step

variable [UIKit UIImage] {ls : List (Label (Action UIImage) Env)} {c c' : Config (State UIImage) Task}
  {s0 : State UIImage}

omit [UIKit UIImage] in
theorem published_act (hI : Published ls c) {a : Action UIImage} {e : Env} {s : State UIImage}
    {ts : List Task} (h : act a e c.state = some (s, ts)) :
    Published (ls ++ [.act a e]) (c.acted s ts) := by
  have hfirst := firstWish_unsent hI h
  cases act_wish h with
  | submit hnone hw hg hal => exact published_submit hI hnone hw hg hal
  | other hf hts =>
    refine hI.frame (hfirst hts) hf.guestID hf.alerts fun w g doc => ?_
    have hno : .wishWrite w g doc ∉ ts := by
      intro hm
      cases hts _ hm
    simp only [Sending, Config.tasks_acted, Config.acted_state, hf.wishes, List.mem_append, hno,
      or_false]

omit [UIKit UIImage] in
theorem wishWrite_served {i k : Nat} {t : Task} {s : State UIImage} {ts : List Task}
    (hi : c.pending[i]? = some (k, t)) (hts : ∀ u ∈ ts, u.wish = none) :
    ∃ rest : List Task, (∀ w g doc, .wishWrite w g doc ∈ c.tasks ↔
        .wishWrite w g doc = t ∨ .wishWrite w g doc ∈ rest) ∧
      ∀ w g doc, .wishWrite w g doc ∈ (c.served i k s ts).tasks ↔ .wishWrite w g doc ∈ rest := by
  obtain ⟨rest, hperm, htasks⟩ := Config.tasks_served hi s ts
  refine ⟨rest, fun w g doc => ?_, fun w g doc => ?_⟩
  · rw [hperm.mem_iff, List.mem_cons]
  · have hno : .wishWrite w g doc ∉ ts := by
      intro hm
      cases hts _ hm
    rw [htasks, List.mem_append, or_iff_left hno]

theorem published_serve (hI : Published ls c) {i k : Nat} {t : Task} {e : Env} {s : State UIImage}
    {ts : List Task} (hi : c.pending[i]? = some (k, t)) (h : serve t e c.state = some (s, ts))
    (hok : t.wish ≠ none → e.error = none) (hfresh : FreshGuestIDs s0 c.state.log) :
    Published (ls ++ [.serve i e]) (c.served i k s ts) := by
  have hfirst := firstWish_serve ls i e
  obtain ⟨hserve, hts⟩ := serve_wish h
  obtain ⟨rest, hbefore, hafter⟩ := wishWrite_served (s := s) hi hts
  cases hserve with
  | @stored w0 g0 doc0 _ he hw hg hal =>
    refine hI.frame hfirst hg hal fun w g doc => ?_
    have hflying : Sending c w0 g0 doc0 := .inl ((hbefore w0 g0 doc0).mpr (.inl rfl))
    simp only [Sending, Config.served_state, hafter, hw]
    by_cases hwg : w = w0 ∧ g = g0
    · obtain ⟨rfl, rfl⟩ := hwg
      simp only [and_self, if_true, Option.some.injEq]
      constructor
      · rintro (hm | rfl)
        · exact .inl ((hbefore w g doc).mpr (.inr hm))
        · exact hflying
      · intro hs
        exact .inr (hI.document_unique hfresh hflying hs)
    · rw [if_neg hwg, hbefore]
      have hne : ¬ (Task.wishWrite w g doc = .wishWrite w0 g0 doc0) := by
        intro he
        cases he
        exact hwg ⟨rfl, rfl⟩
      rw [or_iff_right hne]
  | failed he _ => exact absurd (hok (by simp [Task.wish])) he
  | other ht hf =>
    refine hI.frame hfirst hf.guestID hf.alerts fun w g doc => ?_
    have hne : ¬ (Task.wishWrite w g doc = t) := by
      intro he
      subst he
      cases ht
    simp only [Sending, Config.served_state, hafter, hf.wishes, hbefore, or_iff_right hne]

theorem published_of_run (h0 : s0.NoWishes) (hr : (app UIImage).run (.init s0) ls = some c)
    (hok : ∀ w g, ¬ WishFailed ((app UIImage).history (.init s0) ls) w g)
    (hfresh : FreshGuestIDs s0 c.state.log) : Published ls c := by
  refine System.prefix_rule (I := fun ls1 c1 => FreshGuestIDs s0 c1.state.log → Published ls1 c1) hr
    (fun _ => published_init h0) ?_ hfresh
  intro ls1 c1 l c2 hr1 hpre hI hs hfresh2
  have hfresh1 := hfresh2.suffix (alerts_suffix hs)
  cases hs with
  | act ha => exact published_act (hI hfresh1) ha
  | @serve i k t e s ts hi ha =>
    refine published_serve (hI hfresh1) hi ha (fun ht => ?_) hfresh1
    by_contra he
    obtain ⟨⟨w, g⟩, hwish⟩ := Option.ne_none_iff_exists'.mp ht
    obtain ⟨ls2, rfl⟩ := hpre
    refine hok w g ?_
    have hstep : (app UIImage).Step c1 (.serve i e) (c1.served i k s ts) := .serve hi ha
    have hhist := System.history_concat hr1 hstep
    rw [System.history_append (System.run_concat.mpr ⟨c1, hr1, hstep⟩), hhist]
    obtain ⟨k', doc, e', hserved, he'⟩ := (wishFailed_serve hi).mpr (.inr ⟨hwish, he⟩)
    exact ⟨k', doc, e', served_append.mpr (.inl hserved), he'⟩

end Step

/-! ## Reading the wishes -/

/-- The document of a wish that a device shows an alert for, with its reference. -/
def published (ls : List (Label (Action UIImage) Env)) (w : String) (x : DeviceID × String × String) :
    Option (DocumentReference × Document) :=
  (firstWish ls x.1 w).map fun wish => (guestDocument x.2.1 x.2.2, wish.toDictionary)

section Snapshot

variable {ls : List (Label (Action UIImage) Env)} {c : Config (State UIImage) Task}
  {s0 : State UIImage}

theorem sending_iff (hq : ∀ t ∈ c.tasks, t.wish = none) {w g : String} {doc : Document} :
    Sending c w g doc ↔ c.state.wishDocument w g = some doc := by
  have hno : .wishWrite w g doc ∉ c.tasks := by
    intro hm
    cases hq _ hm
  rw [Sending, or_iff_right hno]

def alertsFor (log : List Event) (w : String) : List (DeviceID × String × String) :=
  (alerts log).filter fun x => x.2.1 = w

theorem mem_alertsFor {log : List Event} {w : String} {x : DeviceID × String × String} :
    x ∈ alertsFor log w ↔ x ∈ alerts log ∧ x.2.1 = w := by
  simp [alertsFor]

theorem published_nodup (w : String) (hfresh : FreshGuestIDs s0 c.state.log) :
    ((alertsFor c.state.log w).filterMap (published ls w)).Nodup := by
  have hp : (alertsFor c.state.log w).Pairwise fun x y => x.2 ≠ y.2 :=
    (List.pairwise_map.mp hfresh.nodup).sublist List.filter_sublist
  refine List.pairwise_filterMap.mpr (hp.imp fun {x y} hne b hb b' hb' he => hne ?_)
  obtain ⟨_, _, rfl⟩ := Option.map_eq_some_iff.mp hb
  obtain ⟨_, _, rfl⟩ := Option.map_eq_some_iff.mp hb'
  have hr := guestDocument_inj.mp (congrArg Prod.fst he)
  exact Prod.ext hr.1 hr.2

theorem guestSnapshots_perm (hI : Published ls c) (hfresh : FreshGuestIDs s0 c.state.log)
    (hq : ∀ t ∈ c.tasks, t.wish = none) (w : String) :
    (c.state.guestSnapshots w).Perm ((alertsFor c.state.log w).filterMap (published ls w)) := by
  refine (List.perm_ext_iff_of_nodup (guestSnapshots_nodup c.state w)
    (published_nodup w hfresh)).mpr fun ⟨r, doc⟩ => ?_
  rw [mem_guestSnapshots, List.mem_filterMap]
  constructor
  · rintro ⟨g, rfl, hd⟩
    obtain ⟨d, wish, hk, hw, rfl⟩ := hI.written w g doc ((sending_iff hq).mpr hd)
    refine ⟨(d, w, g), mem_alertsFor.mpr ⟨(hI.alerted d w g).mpr hk, rfl⟩, ?_⟩
    rw [published, hw]; rfl
  · rintro ⟨⟨d, w', g⟩, hm, he⟩
    obtain ⟨hal, hw'⟩ := mem_alertsFor.mp hm
    simp only at hw'
    subst hw'
    obtain ⟨wish, hw, hs⟩ := hI.sent d w' g ((hI.alerted d w' g).mp hal)
    simp only [published, hw, Option.map_some, Option.some.injEq, Prod.mk.injEq] at he
    obtain ⟨rfl, rfl⟩ := he
    exact ⟨g, rfl, (sending_iff hq).mp hs⟩

theorem devices_nodup (hI : Published ls c) (w : String) :
    ((alertsFor c.state.log w).map Prod.fst).Nodup := by
  have hn : ((alertsFor c.state.log w).map fun x => (x.1, x.2.1)).Nodup :=
    hI.once.sublist (List.filter_sublist.map _)
  have he : ((alertsFor c.state.log w).map fun x => (x.1, x.2.1)) =
      ((alertsFor c.state.log w).map Prod.fst).map fun d => (d, w) := by
    rw [List.map_map]
    refine List.map_congr_left fun x hx => ?_
    rw [(mem_alertsFor.mp hx).2]; rfl
  rw [he] at hn
  exact hn.of_map

theorem mem_devices (hI : Published ls c) {d : DeviceID} {w : String} :
    d ∈ (alertsFor c.state.log w).map Prod.fst ↔ ∃ wish, firstWish ls d w = some wish := by
  have hk : (∃ g, c.state.guestID d w = some g) ↔ ∃ wish, firstWish ls d w = some wish := by
    rw [← Option.ne_none_iff_exists', ← Option.ne_none_iff_exists', ne_eq, ne_eq, hI.keys]
  rw [List.mem_map, ← hk]
  constructor
  · rintro ⟨⟨d', w', g⟩, hm, rfl⟩
    obtain ⟨hal, rfl⟩ := mem_alertsFor.mp hm
    exact ⟨g, (hI.alerted _ _ g).mp hal⟩
  · rintro ⟨g, hg⟩
    exact ⟨(d, w, g), mem_alertsFor.mpr ⟨(hI.alerted d w g).mpr hg, rfl⟩, rfl⟩

theorem wishes_perm {w : String} {A : List (DeviceID × String × String)} {documents : List Document}
    (h : documents.Perm ((A.filterMap (published ls w)).map Prod.snd)) :
    (documents.filterMap Wish.ofDocument).Perm ((A.map Prod.fst).filterMap (firstWish ls · w)) := by
  refine (h.filterMap _).trans (List.Perm.of_eq ?_)
  rw [List.filterMap_map, List.filterMap_map, List.filterMap_filterMap]
  refine List.filterMap_congr fun x _ => ?_
  cases hw : firstWish ls x.1 w with
  | none => simp [published, hw]
  | some wish => simp [published, hw, Wish.ofDocument_toDictionary]

end Snapshot

end WeddApp
