import WeddApp.Wish.Steps

/-!
# Wish.Submit

Whether what a guest's device says about a wish is true. A tap on Submit keeps the guest ID in
`UserDefaults` and shows the success alert before the wish is written, and nothing takes them back
when the write fails. So they are true exactly as long as no write of a wish fails
(`all_or_nothing_unless_failed`).

* `Sent`: every guest ID that a device keeps was there at the start or has an alert, and every alert
  belongs to a wish that is in flight, stored, or failed.
* `WishPhase`: how far one wish has come, when each has an ID of its own (`FreshGuestIDs`).
-/

namespace WeddApp

open Async Documents

variable {UIImage : Type}

/-- What the devices keep and have shown is only about stored wishes. -/
structure State.AllOrNothing (s : State UIImage) : Prop where
  keys : ∀ d w g, s.guestID d w = some g → (s.wishDocument w g).isSome
  alerts : ∀ d w g, (d, w, g) ∈ alerts s.log → (s.wishDocument w g).isSome

def WishFailed (h : List (Config (State UIImage) Task × Label (Action UIImage) Env))
    (w g : String) : Prop :=
  ∃ k wish e, Served h k (.wishWrite w g wish) e ∧ e.error ≠ none

def Alerted (log : List Event) (w g : String) : Prop := ∃ d, (d, w, g) ∈ alerts log

/-- `guestsCollection.document()` names a document that does not exist, and another one each time. -/
structure FreshGuestIDs (s0 : State UIImage) (log : List Event) : Prop where
  nodup : ((alerts log).map Prod.snd).Nodup
  unused : ∀ w g, Alerted log w g → s0.wishDocument w g = none

def inFlight (w g : String) (ts : List Task) : Nat := ts.countP fun t => t.wish = some (w, g)

theorem inFlight_append (w g : String) (ts ts' : List Task) :
    inFlight w g (ts ++ ts') = inFlight w g ts + inFlight w g ts' := List.countP_append

theorem inFlight_eq_zero {w g : String} {ts : List Task} (h : ∀ u ∈ ts, u.wish = none) :
    inFlight w g ts = 0 := by
  refine List.countP_eq_zero.mpr fun u hu => ?_
  simp [h u hu]

theorem inFlight_cons (w g : String) (t : Task) (ts : List Task) :
    inFlight w g (t :: ts) = inFlight w g ts + if t.wish = some (w, g) then 1 else 0 := by
  simp [inFlight, List.countP_cons]

section Failed

variable {h : List (Config (State UIImage) Task × Label (Action UIImage) Env)}
  {c : Config (State UIImage) Task} {w g : String}

theorem wishFailed_act {a : Action UIImage} {e : Env} :
    WishFailed (h ++ [(c, .act a e)]) w g ↔ WishFailed h w g := by
  constructor
  · rintro ⟨k, wish, e', hs, he⟩
    rcases served_append.mp hs with hs | hs
    · exact ⟨k, wish, e', hs, he⟩
    · exact absurd hs served_act
  · rintro ⟨k, wish, e', hs, he⟩
    exact ⟨k, wish, e', served_append.mpr (.inl hs), he⟩

theorem wishFailed_serve {i k : Nat} {t : Task} {e : Env} (hi : c.pending[i]? = some (k, t)) :
    WishFailed (h ++ [(c, .serve i e)]) w g ↔
      WishFailed h w g ∨ t.wish = some (w, g) ∧ e.error ≠ none := by
  constructor
  · rintro ⟨k', wish, e', hs, he⟩
    rcases served_append.mp hs with hs | hs
    · exact .inl ⟨k', wish, e', hs, he⟩
    · obtain ⟨_, rfl, rfl⟩ := (served_serve hi).mp hs
      exact .inr ⟨rfl, he⟩
  · rintro (⟨k', wish, e', hs, he⟩ | ⟨ht, he⟩)
    · exact ⟨k', wish, e', served_append.mpr (.inl hs), he⟩
    · cases t with
      | wishWrite w' g' wish =>
        cases ht
        exact ⟨k, wish, e, served_append.mpr (.inr ((served_serve hi).mpr ⟨rfl, rfl, rfl⟩)), he⟩
      | authCreate | authSignIn | idRead | idWrite | userWrite | saveRead | saveMain | weddingWrite
      | photoPut | photoMerge => cases ht

end Failed

variable [UIKit UIImage]

/-! ## While no write fails -/

structure Sent (s0 : State UIImage)
    (h : List (Config (State UIImage) Task × Label (Action UIImage) Env))
    (c : Config (State UIImage) Task) : Prop where
  keys : ∀ d w g, c.state.guestID d w = some g →
    s0.guestID d w = some g ∨ (d, w, g) ∈ alerts c.state.log
  kept : ∀ w g, (s0.wishDocument w g).isSome → (c.state.wishDocument w g).isSome
  sent : ∀ w g, Alerted c.state.log w g → inFlight w g c.tasks ≠ 0 ∨
    (c.state.wishDocument w g).isSome ∨ WishFailed h w g

omit [UIKit UIImage] in
theorem sent_init {s0 : State UIImage} (h0 : s0.AllOrNothing) : Sent s0 [] (.init s0) where
  keys := fun _ _ _ h => .inl h
  kept := fun _ _ h => h
  sent := fun w g ⟨d, h⟩ => .inr (.inl (h0.alerts d w g h))

omit [UIKit UIImage] in
theorem Sent.frame {s0 : State UIImage}
    {h h' : List (Config (State UIImage) Task × Label (Action UIImage) Env)}
    {c c' : Config (State UIImage) Task} (hI : Sent s0 h c) (hf : WishFrame c.state c'.state)
    (hn : ∀ w g, inFlight w g c.tasks ≠ 0 → inFlight w g c'.tasks ≠ 0 ∨ WishFailed h' w g)
    (hh : ∀ w g, WishFailed h w g → WishFailed h' w g) : Sent s0 h' c' := by
  refine ⟨fun d w g hk => ?_, fun w g hk => ?_, fun w g hk => ?_⟩
  · rw [hf.guestID] at hk
    rw [hf.alerts]; exact hI.keys d w g hk
  · rw [hf.wishes]; exact hI.kept w g hk
  · rw [Alerted, hf.alerts] at hk
    rw [hf.wishes]
    rcases hI.sent w g hk with hp | hp | hp
    · exact (hn w g hp).imp_right .inr
    · exact .inr (.inl hp)
    · exact .inr (.inr (hh w g hp))

omit [UIKit UIImage] in
theorem inFlight_acted (c : Config (State UIImage) Task) (s : State UIImage) (ts : List Task)
    (w g : String) :
    inFlight w g (c.acted s ts).tasks = inFlight w g c.tasks + inFlight w g ts := by
  rw [Config.tasks_acted, inFlight_append]

omit [UIKit UIImage] in
theorem inFlight_served {c : Config (State UIImage) Task} {i k : Nat} {t : Task}
    (hi : c.pending[i]? = some (k, t)) {ts : List Task} (hts : ∀ u ∈ ts, u.wish = none)
    (s : State UIImage) (w g : String) :
    inFlight w g c.tasks =
      inFlight w g (c.served i k s ts).tasks + if t.wish = some (w, g) then 1 else 0 := by
  obtain ⟨rest, hp, hrest⟩ := Config.tasks_served hi s ts
  rw [hrest, inFlight_append, inFlight_eq_zero hts, Nat.add_zero, ← inFlight_cons]
  exact hp.countP_eq _

omit [UIKit UIImage] in
theorem sent_act {s0 : State UIImage}
    {h : List (Config (State UIImage) Task × Label (Action UIImage) Env)}
    {c : Config (State UIImage) Task} {a : Action UIImage} {e : Env} {s : State UIImage}
    {ts : List Task} (hI : Sent s0 h c) (ha : act a e c.state = some (s, ts)) :
    Sent s0 (h ++ [(c, .act a e)]) (c.acted s ts) := by
  have htasks := inFlight_acted c s ts
  cases act_wish ha with
  | @submit d weddingID guestName wish date _ hnone hw hg hal =>
    refine ⟨fun d' w g hk => ?_, fun w g hk => ?_, fun w g hk => ?_⟩
    · simp only [Config.acted_state, hg] at hk
      simp only [Config.acted_state, hal, List.mem_cons]
      split at hk
      · rename_i heq
        obtain ⟨rfl, rfl⟩ := heq
        cases hk; exact .inr (.inl rfl)
      · exact (hI.keys d' w g hk).imp_right .inr
    · rw [Config.acted_state, hw]; exact hI.kept w g hk
    · simp only [Config.acted_state, hw, htasks, wishFailed_act]
      obtain ⟨d', hk⟩ := hk
      simp only [Config.acted_state, hal, List.mem_cons, Prod.mk.injEq] at hk
      rcases hk with ⟨_, rfl, rfl⟩ | hk
      · refine .inl ?_
        simp only [inFlight_cons, Task.wish, if_true]; omega
      · refine (hI.sent w g ⟨d', hk⟩).imp_left fun hn => ?_
        omega
  | other hf hts =>
    refine hI.frame hf (fun w g hn => .inl ?_) fun _ _ => wishFailed_act.mpr
    rw [htasks]; omega

theorem sent_serve {s0 : State UIImage}
    {h : List (Config (State UIImage) Task × Label (Action UIImage) Env)}
    {c : Config (State UIImage) Task} {i k : Nat} {t : Task} {e : Env} {s : State UIImage}
    {ts : List Task} (hI : Sent s0 h c) (hi : c.pending[i]? = some (k, t))
    (ha : serve t e c.state = some (s, ts)) :
    Sent s0 (h ++ [(c, .serve i e)]) (c.served i k s ts) := by
  obtain ⟨hws, hts⟩ := serve_wish ha
  have htasks := inFlight_served hi hts s
  have hh : ∀ w g, WishFailed h w g → WishFailed (h ++ [(c, .serve i e)]) w g :=
    fun w g hp => (wishFailed_serve hi).mpr (.inl hp)
  cases hws with
  | @stored weddingID id wish _ he hw hg hal =>
    refine ⟨fun d' w g hk => ?_, fun w g hk => ?_, fun w g hk => ?_⟩
    · rw [Config.served_state, hg] at hk
      rw [Config.served_state, hal]; exact hI.keys d' w g hk
    · rw [Config.served_state, hw]
      split
      · rfl
      · exact hI.kept w g hk
    · rw [Config.served_state, Alerted, hal] at hk
      rw [Config.served_state, hw]
      split
      · exact .inr (.inl rfl)
      · rename_i hne
        rcases hI.sent w g hk with hn | hn | hn
        · rw [htasks, if_neg] at hn
          · exact .inl hn
          · intro h'; cases h'; exact hne ⟨rfl, rfl⟩
        · exact .inr (.inl hn)
        · exact .inr (.inr (hh w g hn))
  | @failed weddingID id wish _ he hf =>
    refine hI.frame hf (fun w g hn => ?_) hh
    rw [htasks] at hn
    split at hn
    · rename_i heq
      exact .inr ((wishFailed_serve hi).mpr (.inr ⟨heq, he⟩))
    · exact .inl hn
  | other ht hf =>
    refine hI.frame hf (fun w g hn => .inl ?_) hh
    rw [htasks, ht, if_neg (fun h' => by cases h')] at hn
    exact hn

theorem sent_step {s0 : State UIImage}
    {h : List (Config (State UIImage) Task × Label (Action UIImage) Env)}
    {c c' : Config (State UIImage) Task} {l : Label (Action UIImage) Env} (hI : Sent s0 h c)
    (hs : (app UIImage).Step c l c') : Sent s0 (h ++ [(c, l)]) c' := by
  cases hs with
  | act ha => exact sent_act hI ha
  | serve hi ha => exact sent_serve hI hi ha

theorem sent_of_run {s0 : State UIImage} (h0 : s0.AllOrNothing)
    {ls : List (Label (Action UIImage) Env)} {c : Config (State UIImage) Task}
    (hr : (app UIImage).run (.init s0) ls = some c) :
    Sent s0 ((app UIImage).history (.init s0) ls) c :=
  System.run_rule (I := Sent s0) hr (sent_init h0) fun _ _ _ _ _ hI hs => sent_step hI hs

/-! ## The life of one wish -/

/-- How far a wish has come: its document at the start and now, whether it has an alert and whether
it failed, and how many writes of it are in flight. -/
inductive WishPhase (doc0 doc : Option Document) (alerted failed : Prop) : Nat → Prop where
  | unsent (ha : ¬ alerted) (hf : ¬ failed) (hd : doc = doc0) : WishPhase doc0 doc alerted failed 0
  | inFlight (ha : alerted) (hf : ¬ failed) (hd : doc = none) : WishPhase doc0 doc alerted failed 1
  | stored (ha : alerted) (hf : ¬ failed) : WishPhase doc0 doc alerted failed 0
  | failed (ha : alerted) (hf : failed) (hd : doc = none) : WishPhase doc0 doc alerted failed 0

theorem WishPhase.of_unsent {doc0 doc : Option Document} {alerted failed : Prop} {n : Nat}
    (hp : WishPhase doc0 doc alerted failed n) (ha : ¬ alerted) :
    n = 0 ∧ ¬ failed ∧ doc = doc0 := by
  cases hp with
  | unsent _ hf hd => exact ⟨rfl, hf, hd⟩
  | inFlight ha' _ _ | stored ha' _ | failed ha' _ _ => exact absurd ha' ha

theorem WishPhase.of_inFlight {doc0 doc : Option Document} {alerted failed : Prop} {n : Nat}
    (hp : WishPhase doc0 doc alerted failed n) (hn : n ≠ 0) :
    n = 1 ∧ alerted ∧ ¬ failed ∧ doc = none := by
  cases hp with
  | inFlight ha hf hd => exact ⟨rfl, ha, hf, hd⟩
  | unsent _ _ _ | stored _ _ | failed _ _ _ => exact absurd rfl hn

def InWishPhase (s0 : State UIImage)
    (h : List (Config (State UIImage) Task × Label (Action UIImage) Env))
    (c : Config (State UIImage) Task) (w g : String) : Prop :=
  WishPhase (s0.wishDocument w g) (c.state.wishDocument w g) (Alerted c.state.log w g)
    (WishFailed h w g) (inFlight w g c.tasks)

omit [UIKit UIImage] in
theorem InWishPhase.frame {s0 : State UIImage}
    {h h' : List (Config (State UIImage) Task × Label (Action UIImage) Env)}
    {c c' : Config (State UIImage) Task} {w g : String} (hp : InWishPhase s0 h c w g)
    (hd : c'.state.wishDocument w g = c.state.wishDocument w g)
    (ha : Alerted c'.state.log w g ↔ Alerted c.state.log w g)
    (hf : WishFailed h' w g ↔ WishFailed h w g)
    (hn : inFlight w g c'.tasks = inFlight w g c.tasks) : InWishPhase s0 h' c' w g := by
  rw [InWishPhase, hd, propext ha, propext hf, hn]
  exact hp

omit [UIKit UIImage] in
theorem FreshGuestIDs.suffix {s0 : State UIImage} {log log' : List Event}
    (h : FreshGuestIDs s0 log') (hs : alerts log <:+ alerts log') : FreshGuestIDs s0 log where
  nodup := h.nodup.sublist (hs.sublist.map Prod.snd)
  unused := fun w g ⟨d, hm⟩ => h.unused w g ⟨d, hs.subset hm⟩

section Step

variable {s0 s : State UIImage} {h : List (Config (State UIImage) Task × Label (Action UIImage) Env)}
  {c : Config (State UIImage) Task} {w g : String}

omit [UIKit UIImage] in
/-- A tap sends the wish with a guest ID that is new, so nothing is known of it yet; other wishes
stay in their phases. -/
theorem wishPhase_act {a : Action UIImage} {e : Env} {ts : List Task} (ha : act a e c.state = some (s, ts))
    (hp : InWishPhase s0 h c w g) (hfresh : FreshGuestIDs s0 s.log) :
    InWishPhase s0 (h ++ [(c, .act a e)]) (c.acted s ts) w g := by
  have htasks := inFlight_acted c s ts w g
  cases act_wish ha with
  | @submit d weddingID guestName wish date _ hnone hw hg hal =>
    by_cases heq : w = weddingID ∧ g = e.newID
    · obtain ⟨rfl, rfl⟩ := heq
      have hnew : ¬ Alerted c.state.log w e.newID := by
        intro hnew
        obtain ⟨d', hm⟩ := hnew
        have hnd := hfresh.nodup
        rw [hal, List.map_cons, List.nodup_cons] at hnd
        exact hnd.1 (List.mem_map.mpr ⟨_, hm, rfl⟩)
      have halerted : Alerted s.log w e.newID := ⟨d, by rw [hal]; exact List.mem_cons_self⟩
      have h0 := hfresh.unused w e.newID halerted
      obtain ⟨hn, hf, hd⟩ := hp.of_unsent hnew
      have hone : inFlight w e.newID
          [Task.wishWrite w e.newID (Wish.init guestName wish date).toDictionary] = 1 := by
        simp [inFlight, Task.wish]
      rw [InWishPhase, htasks, hn, hone]
      refine .inFlight halerted (fun hf' => hf (wishFailed_act.mp hf')) ?_
      rw [Config.acted_state, hw, hd, h0]
    · have hne : ¬ (weddingID = w ∧ e.newID = g) := fun h' => heq ⟨h'.1.symm, h'.2.symm⟩
      refine hp.frame (hw w g) ?_ wishFailed_act ?_
      · simp only [Alerted, Config.acted_state, hal, List.mem_cons, Prod.mk.injEq]
        constructor
        · rintro ⟨d', ⟨_, hwg⟩ | hm⟩
          · exact absurd hwg heq
          · exact ⟨d', hm⟩
        · rintro ⟨d', hm⟩; exact ⟨d', .inr hm⟩
      · rw [htasks, inFlight_cons]
        simp only [Task.wish, Option.some.injEq, Prod.mk.injEq, if_neg hne]
        rfl
  | other hf hts =>
    refine hp.frame (hf.wishes w g) ?_ wishFailed_act ?_
    · rw [Alerted, Alerted, Config.acted_state, hf.alerts]
    · rw [htasks, inFlight_eq_zero hts, Nat.add_zero]

theorem wishPhase_own {i k : Nat} {t : Task} {e : Env} {ts : List Task}
    (hi : c.pending[i]? = some (k, t)) (ha : serve t e c.state = some (s, ts))
    (ht : t.wish = some (w, g)) (hp : InWishPhase s0 h c w g) :
    InWishPhase s0 (h ++ [(c, .serve i e)]) (c.served i k s ts) w g := by
  obtain ⟨hws, hts⟩ := serve_wish ha
  have htasks := inFlight_served hi hts s w g
  rw [if_pos ht] at htasks
  obtain ⟨hn, hal', hf, hd⟩ := hp.of_inFlight (by omega)
  have hn0 : inFlight w g (c.served i k s ts).tasks = 0 := by omega
  rw [InWishPhase, hn0]
  cases hws with
  | stored he hw hg hal =>
    refine .stored ?_ ?_
    · rw [Config.served_state, Alerted, hal]; exact hal'
    · rw [wishFailed_serve hi]
      rintro (h' | ⟨_, h'⟩)
      · exact hf h'
      · exact h' he
  | failed he hf' =>
    refine .failed ?_ ((wishFailed_serve hi).mpr (.inr ⟨ht, he⟩)) ?_
    · rw [Config.served_state, Alerted, hf'.alerts]; exact hal'
    · rw [Config.served_state, hf'.wishes, hd]
  | other ht' _ => rw [ht'] at ht; cases ht

theorem wishPhase_other {i k : Nat} {t : Task} {e : Env} {ts : List Task}
    (hi : c.pending[i]? = some (k, t)) (ha : serve t e c.state = some (s, ts))
    (ht : t.wish ≠ some (w, g)) (hp : InWishPhase s0 h c w g) :
    InWishPhase s0 (h ++ [(c, .serve i e)]) (c.served i k s ts) w g := by
  obtain ⟨hws, hts⟩ := serve_wish ha
  have htasks := inFlight_served hi hts s w g
  rw [if_neg ht, Nat.add_zero] at htasks
  have hframe (hal : alerts s.log = alerts c.state.log)
      (hd : s.wishDocument w g = c.state.wishDocument w g) :
      InWishPhase s0 (h ++ [(c, .serve i e)]) (c.served i k s ts) w g := by
    refine hp.frame hd ?_ ?_ htasks.symm
    · rw [Alerted, Alerted, Config.served_state, hal]
    · rw [wishFailed_serve hi]
      exact ⟨fun h' => h'.resolve_right fun h'' => ht h''.1, .inl⟩
  cases hws with
  | @stored weddingID id wish _ he hw hg hal =>
    refine hframe hal ?_
    rw [hw, if_neg]
    rintro ⟨rfl, rfl⟩; exact ht rfl
  | failed _ hf | other _ hf => exact hframe hf.alerts (hf.wishes w g)

end Step

theorem wishPhase_step {s0 : State UIImage}
    {h : List (Config (State UIImage) Task × Label (Action UIImage) Env)}
    {c c' : Config (State UIImage) Task} {l : Label (Action UIImage) Env}
    (hI : ∀ w g, InWishPhase s0 h c w g) (hs : (app UIImage).Step c l c')
    (hfresh : FreshGuestIDs s0 c'.state.log) (w g : String) :
    InWishPhase s0 (h ++ [(c, l)]) c' w g := by
  cases hs with
  | act ha => exact wishPhase_act ha (hI w g) hfresh
  | @serve i k t e s ts hi ha =>
    by_cases ht : t.wish = some (w, g)
    · exact wishPhase_own hi ha ht (hI w g)
    · exact wishPhase_other hi ha ht (hI w g)

theorem alerts_suffix {c c' : Config (State UIImage) Task} {l : Label (Action UIImage) Env}
    (hs : (app UIImage).Step c l c') : alerts c.state.log <:+ alerts c'.state.log := by
  cases hs with
  | act ha =>
    cases act_wish ha with
    | submit _ _ _ hal => exact ⟨[_], by rw [Config.acted_state, hal]; rfl⟩
    | other hf _ => exact ⟨[], by rw [Config.acted_state, hf.alerts]; rfl⟩
  | serve _ ha =>
    cases (serve_wish ha).1 with
    | stored _ _ _ hal => exact ⟨[], by rw [Config.served_state, hal]; rfl⟩
    | failed _ hf => exact ⟨[], by rw [Config.served_state, hf.alerts]; rfl⟩
    | other _ hf => exact ⟨[], by rw [Config.served_state, hf.alerts]; rfl⟩

/-- If no two wishes of the run got the same guest ID, every wish is in a phase. -/
theorem wishPhase_of_run {s0 : State UIImage} (h0 : s0.AllOrNothing)
    {ls : List (Label (Action UIImage) Env)} {c : Config (State UIImage) Task}
    (hr : (app UIImage).run (.init s0) ls = some c) (hfresh : FreshGuestIDs s0 c.state.log) :
    ∀ w g, InWishPhase s0 ((app UIImage).history (.init s0) ls) c w g := by
  refine System.run_rule (I := fun h c => FreshGuestIDs s0 c.state.log →
    ∀ w g, InWishPhase s0 h c w g) hr ?_ ?_ hfresh
  · intro hfresh w g
    refine .unsent ?_ ?_ rfl
    · -- an alert of the start belongs to a stored wish
      rintro ⟨d, hm⟩
      have hs := h0.alerts d w g hm
      rw [hfresh.unused w g ⟨d, hm⟩] at hs; cases hs
    · rintro ⟨_, _, _, ⟨_, _, hm, _⟩, _⟩; cases hm
  · intro h c1 l c2 _ hI hs hfresh w g
    exact wishPhase_step (hI (hfresh.suffix (alerts_suffix hs))) hs hfresh w g

/-! ## All or nothing -/

/-- Whenever no wish is in flight: devices keep and have shown only what is stored if no write of a
wish failed, and not otherwise. -/
theorem all_or_nothing_unless_failed {s0 : State UIImage} (h0 : s0.AllOrNothing)
    {ls : List (Label (Action UIImage) Env)} {c : Config (State UIImage) Task}
    (hr : (app UIImage).run (.init s0) ls = some c) (hq : ∀ t ∈ c.tasks, t.wish = none) :
    ((∀ w g, ¬ WishFailed ((app UIImage).history (.init s0) ls) w g) → c.state.AllOrNothing) ∧
      (FreshGuestIDs s0 c.state.log → c.state.AllOrNothing →
        ∀ w g, ¬ WishFailed ((app UIImage).history (.init s0) ls) w g) := by
  have hsent := sent_of_run h0 hr
  refine ⟨fun hok => ?_, fun hfresh hall w g hf => ?_⟩
  · have halert : ∀ d w g, (d, w, g) ∈ alerts c.state.log → (c.state.wishDocument w g).isSome := by
      intro d w g hm
      rcases hsent.sent w g ⟨d, hm⟩ with hn | hn | hn
      · exact absurd (inFlight_eq_zero hq) hn
      · exact hn
      · exact absurd hn (hok w g)
    refine ⟨fun d w g hk => ?_, halert⟩
    rcases hsent.keys d w g hk with hk | hm
    · exact hsent.kept w g (h0.keys d w g hk)
    · exact halert d w g hm
  · have hp := wishPhase_of_run h0 hr hfresh w g
    have hn : inFlight w g c.tasks = 0 := inFlight_eq_zero hq
    rw [InWishPhase, hn] at hp
    cases hp with
    | unsent _ hf' _ | stored _ hf' => exact hf' hf
    | failed ha _ hd =>
      obtain ⟨d, hm⟩ := ha
      have hs := hall.alerts d w g hm
      rw [hd] at hs; cases hs

theorem allOrNothing_new : (State.new Data).AllOrNothing where
  keys := nofun
  alerts := nofun

/-- A guest sends a wish, and the write is answered in `e`. -/
def oneWish (e : Env) : List (Label (Action Data) Env) :=
  [.act (.tapSubmit 0 "0007" "Ada" "Joy" ⟨1, 1, 2023⟩) { Env.ok with newID := "g" }, .serve 0 e]

theorem oneWish_run {e : Env} (he : e = .ok ∨ e = .offline) :
    ∃ c, (app Data).run (.init (State.new Data)) (oneWish e) = some c ∧ c.pending = [] ∧
      c.state.guestID 0 "0007" = some "g" ∧ alerts c.state.log = [(0, "0007", "g")] ∧
      (c.state.wishDocument "0007" "g").isSome = e.error.isNone := by
  rcases he with rfl | rfl
  · exact ⟨_, rfl, rfl, by decide, rfl, by decide⟩
  · exact ⟨_, rfl, rfl, by decide, rfl, by decide⟩

theorem oneWish_stored : ∃ c, (app Data).run (.init (State.new Data)) (oneWish .ok) = some c ∧
    c.state.AllOrNothing := by
  obtain ⟨c, hr, hq, _⟩ := oneWish_run (.inl rfl)
  refine ⟨c, hr, (all_or_nothing_unless_failed allOrNothing_new hr ?_).1 ?_⟩
  · simp [Config.tasks, hq]
  · rintro w g ⟨k, wish, e, ⟨c1, i, hm, _⟩, he⟩
    have hl := System.mem_of_history hm
    simp only [oneWish, List.mem_cons, Label.serve.injEq, List.not_mem_nil, or_false, reduceCtorEq,
      false_or] at hl
    rw [hl.2] at he; exact he rfl

/-- The device keeps the guest ID and has shown the alert, the wish is not stored, and no further
tap on Submit does anything. -/
theorem wish_lost : ∃ c, (app Data).run (.init (State.new Data)) (oneWish .offline) = some c ∧
    c.pending = [] ∧ ¬ c.state.AllOrNothing ∧ c.state.guestID 0 "0007" = some "g" ∧
      (0, "0007", "g") ∈ alerts c.state.log ∧ c.state.wishDocument "0007" "g" = none ∧
        ∀ e date, act (.tapSubmit 0 "0007" "Ada" "Joy" date) e c.state = some (c.state, []) := by
  obtain ⟨c, hr, hq, hkey, hal, hdoc⟩ := oneWish_run (.inr rfl)
  have hnone : c.state.wishDocument "0007" "g" = none :=
    Option.isNone_iff_eq_none.mp (by rw [← Option.not_isSome, hdoc]; rfl)
  refine ⟨c, hr, hq, fun hall => ?_, hkey, ?_, hnone, fun e date => ?_⟩
  · have hs := hall.keys 0 "0007" "g" hkey
    rw [hnone] at hs; cases hs
  · rw [hal]; exact List.mem_singleton_self _
  · have hk : (c.state.device 0).defaults.lookup (guestIDKey "0007") = some "g" := hkey
    simp [act, WishPage.tapOnSubmit, hk]

end WeddApp
