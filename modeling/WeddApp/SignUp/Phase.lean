import WeddApp.SignUp.Steps

/-!
# SignUp.Phase

How far the sign-up of an account has come. `Phase` has one case for each point of `createUser` at
which a request can be in flight, and the ends: `provisioned` and `failed`. Accounts that existed at
the start are `old`, uids that no account has yet are `unknown`.

* `phase_own`, `phase_other`: what the answer to a request does to the sign-up that sent it, and to
  any other.
* `phase_step`: a step takes every uid from a phase to a phase, whichever sign-up it belongs to.
* `phase_of_run`: in every run from a start without a log every uid is in a phase; also when the app
  runs in a larger system (`SignsUp`).
-/

namespace WeddApp

open Async

variable {UIImage : Type}

def idsOf (uid : UID) (log : List Event) : List String :=
  (uniqueIDs log).filterMap fun x => if x.1 = uid then some x.2 else none

def tasksOf (uid : UID) (ts : List Task) : List Task := ts.filter fun t => t.newUser = some uid

def State.registered (s : State UIImage) (uid : UID) : Prop := ∃ a ∈ s.accounts, a.uid = uid

/-- A request of `createUser` for `uid` was answered with an error. -/
def Failed (h : List (Config (State UIImage) Task × Label (Action UIImage) Env)) (uid : UID) : Prop :=
  ∃ k t e, Served h k t e ∧ t.newUser = some uid ∧ e.error ≠ none

inductive Phase (s0 : State UIImage) (uid : UID) (used : String → Prop) (registered failed : Prop)
    (tasks : List Task) (doc : Option Document) (ids : List String) : Prop where
  | old (h0 : s0.registered uid) (hr : registered) (hf : ¬ failed) (ht : tasks = [])
      (hd : doc = s0.user uid) (hi : ids = [])
  | unknown (h0 : ¬ s0.registered uid) (hr : ¬ registered) (hf : ¬ failed) (ht : tasks = [])
      (hd : doc = s0.user uid) (hi : ids = [])
  | searching (u : NewUser) (id : String) (h0 : ¬ s0.registered uid) (hr : registered)
      (hf : ¬ failed) (ht : tasks = [.idRead u id]) (hd : doc = s0.user uid) (hi : ids = [])
  | reserving (u : NewUser) (id : String) (h0 : ¬ s0.registered uid) (hr : registered)
      (hf : ¬ failed) (ht : tasks = [.idWrite u id]) (hd : doc = s0.user uid) (hi : ids = [])
  | storing (user : User) (h0 : ¬ s0.registered uid) (hr : registered) (hf : ¬ failed)
      (ht : tasks = [.userWrite uid user]) (hd : doc = s0.user uid) (hi : ids = [user.weddingID])
      (hu : used user.weddingID)
  | provisioned (user : User) (h0 : ¬ s0.registered uid) (hr : registered) (hf : ¬ failed)
      (ht : tasks = []) (hd : doc = some user.toDictionary) (hi : ids = [user.weddingID])
      (hu : used user.weddingID)
  | failed (h0 : ¬ s0.registered uid) (hr : registered) (hf : failed) (ht : tasks = [])
      (hd : doc = s0.user uid)

/-- The phase that the sign-up of `uid` is in, after the history `h`. -/
def InPhase (s0 : State UIImage) (h : List (Config (State UIImage) Task × Label (Action UIImage) Env))
    (c : Config (State UIImage) Task) (uid : UID) : Prop :=
  Phase s0 uid c.state.used (c.state.registered uid) (Failed h uid) (tasksOf uid c.tasks)
    (c.state.user uid) (idsOf uid c.state.log)

theorem tasksOf_append (uid : UID) (ts ts' : List Task) :
    tasksOf uid (ts ++ ts') = tasksOf uid ts ++ tasksOf uid ts' := List.filter_append _ _

theorem tasksOf_eq_nil {uid : UID} {ts : List Task} (h : ∀ t ∈ ts, t.newUser ≠ some uid) :
    tasksOf uid ts = [] := by
  rw [tasksOf, List.filter_eq_nil_iff]
  intro t ht
  simpa using h t ht

theorem tasksOf_cons_self {uid : UID} {t : Task} (h : t.newUser = some uid) (ts : List Task) :
    tasksOf uid (t :: ts) = t :: tasksOf uid ts := List.filter_cons_of_pos (by simpa using h)

theorem tasksOf_cons_ne {uid : UID} {t : Task} (h : t.newUser ≠ some uid) (ts : List Task) :
    tasksOf uid (t :: ts) = tasksOf uid ts := List.filter_cons_of_neg (by simpa using h)

namespace Phase

variable {s0 : State UIImage} {uid : UID} {used used' : String → Prop}
  {registered registered' failed failed' : Prop} {tasks tasks' : List Task}
  {doc doc' : Option Document} {ids ids' : List String}

theorem frame (h : Phase s0 uid used registered failed tasks doc ids)
    (hu : ∀ id, used id → used' id) (hr : registered' ↔ registered) (hf : failed' ↔ failed)
    (ht : tasks'.Perm tasks) (hd : doc' = doc) (hi : ids' = ids) :
    Phase s0 uid used' registered' failed' tasks' doc' ids' := by
  subst hd hi
  rw [propext hr, propext hf]
  cases h with
  | old h0 hr hf h' hd hi =>
    subst h'; exact .old h0 hr hf (List.perm_nil.mp ht) hd hi
  | unknown h0 hr hf h' hd hi =>
    subst h'; exact .unknown h0 hr hf (List.perm_nil.mp ht) hd hi
  | searching u id h0 hr hf h' hd hi =>
    subst h'; exact .searching u id h0 hr hf (List.perm_singleton.mp ht) hd hi
  | reserving u id h0 hr hf h' hd hi =>
    subst h'; exact .reserving u id h0 hr hf (List.perm_singleton.mp ht) hd hi
  | storing user h0 hr hf h' hd hi hus =>
    subst h'; exact .storing user h0 hr hf (List.perm_singleton.mp ht) hd hi (hu _ hus)
  | provisioned user h0 hr hf h' hd hi hus =>
    subst h'; exact .provisioned user h0 hr hf (List.perm_nil.mp ht) hd hi (hu _ hus)
  | failed h0 hr hf h' hd =>
    subst h'; exact .failed h0 hr hf (List.perm_nil.mp ht) hd

theorem tasks_length (h : Phase s0 uid used registered failed tasks doc ids) : tasks.length ≤ 1 := by
  cases h with
  | old _ _ _ ht _ _ | unknown _ _ _ ht _ _ | provisioned _ _ _ _ ht _ _ _
  | failed _ _ _ ht _ => rw [ht]; exact Nat.zero_le 1
  | searching _ _ _ _ _ ht _ _ | reserving _ _ _ _ _ ht _ _ | storing _ _ _ _ ht _ _ _ =>
    rw [ht]; exact Nat.le_refl 1

theorem of_idRead {u : NewUser} {id : String}
    (h : Phase s0 uid used registered failed [.idRead u id] doc ids) :
    ¬ s0.registered uid ∧ registered ∧ ¬ failed ∧ doc = s0.user uid ∧ ids = [] := by
  cases h with
  | searching _ _ h0 hr hf _ hd hi => exact ⟨h0, hr, hf, hd, hi⟩
  | old _ _ _ ht _ _ | unknown _ _ _ ht _ _ | provisioned _ _ _ _ ht _ _ _ | failed _ _ _ ht _
  | reserving _ _ _ _ _ ht _ _ | storing _ _ _ _ ht _ _ _ => cases ht

theorem of_idWrite {u : NewUser} {id : String}
    (h : Phase s0 uid used registered failed [.idWrite u id] doc ids) :
    ¬ s0.registered uid ∧ registered ∧ ¬ failed ∧ doc = s0.user uid ∧ ids = [] := by
  cases h with
  | reserving _ _ h0 hr hf _ hd hi => exact ⟨h0, hr, hf, hd, hi⟩
  | old _ _ _ ht _ _ | unknown _ _ _ ht _ _ | provisioned _ _ _ _ ht _ _ _ | failed _ _ _ ht _
  | searching _ _ _ _ _ ht _ _ | storing _ _ _ _ ht _ _ _ => cases ht

theorem of_userWrite {user : User}
    (h : Phase s0 uid used registered failed [.userWrite uid user] doc ids) :
    ¬ s0.registered uid ∧ registered ∧ ¬ failed ∧ doc = s0.user uid ∧ ids = [user.weddingID] ∧
      used user.weddingID := by
  cases h with
  | storing _ h0 hr hf ht hd hi hu => cases ht; exact ⟨h0, hr, hf, hd, hi, hu⟩
  | old _ _ _ ht _ _ | unknown _ _ _ ht _ _ | provisioned _ _ _ _ ht _ _ _ | failed _ _ _ ht _
  | searching _ _ _ _ _ ht _ _ | reserving _ _ _ _ _ ht _ _ => cases ht

/-- A uid without an account has not started to sign up. -/
theorem of_unregistered (h : Phase s0 uid used registered failed tasks doc ids)
    (hr : ¬ registered) :
    ¬ s0.registered uid ∧ ¬ failed ∧ tasks = [] ∧ doc = s0.user uid ∧ ids = [] := by
  cases h with
  | unknown h0 _ hf ht hd hi => exact ⟨h0, hf, ht, hd, hi⟩
  | old _ h' _ _ _ _ | provisioned _ _ h' _ _ _ _ _ | failed _ h' _ _ _
  | searching _ _ _ h' _ _ _ _ | reserving _ _ _ h' _ _ _ _ | storing _ _ h' _ _ _ _ _ =>
    exact absurd h' hr

end Phase

theorem failed_append {h h' : List (Config (State UIImage) Task × Label (Action UIImage) Env)}
    {uid : UID} : Failed (h ++ h') uid ↔ Failed h uid ∨ Failed h' uid := by
  constructor
  · rintro ⟨k, t, e, hs, ht, he⟩
    rcases served_append.mp hs with hs | hs
    · exact .inl ⟨k, t, e, hs, ht, he⟩
    · exact .inr ⟨k, t, e, hs, ht, he⟩
  · rintro (⟨k, t, e, hs, ht, he⟩ | ⟨k, t, e, hs, ht, he⟩)
    · exact ⟨k, t, e, served_append.mpr (.inl hs), ht, he⟩
    · exact ⟨k, t, e, served_append.mpr (.inr hs), ht, he⟩

theorem failed_act {c : Config (State UIImage) Task} {a : Action UIImage} {e : Env} {uid : UID} :
    ¬ Failed [(c, .act a e)] uid := by
  rintro ⟨k, t, e', hs, _⟩
  exact served_act hs

theorem failed_serve {c : Config (State UIImage) Task} {i k : Nat} {t : Task} {e : Env} {uid : UID}
    (hi : c.pending[i]? = some (k, t)) :
    Failed [(c, (.serve i e : Label (Action UIImage) Env))] uid ↔
      t.newUser = some uid ∧ e.error ≠ none := by
  constructor
  · rintro ⟨k', t', e', hs, ht, he⟩
    obtain ⟨rfl, rfl, rfl⟩ := (served_serve hi).mp hs
    exact ⟨ht, he⟩
  · rintro ⟨ht, he⟩
    exact ⟨k, t, e, (served_serve hi).mpr ⟨rfl, rfl, rfl⟩, ht, he⟩

theorem SignUpFrame.registered {s s' : State UIImage} (h : SignUpFrame s s') (uid : UID) :
    s'.registered uid ↔ s.registered uid := by
  rw [State.registered, State.registered, h.accounts]

theorem idsOf_congr {log log' : List Event} (uid : UID) (h : uniqueIDs log' = uniqueIDs log) :
    idsOf uid log' = idsOf uid log := by
  rw [idsOf, idsOf, h]

variable [UIKit UIImage]

section Step

variable {s0 s s' : State UIImage} {uid : UID} {failed failed' : Prop} {tasks : List Task} {t : Task}
  {e : Env} {ts : List Task}

omit [UIKit UIImage] in
/-- The answer to the request of a sign-up takes it to its next phase. -/
theorem phase_own (h : SignUpStep e s t s' ts) (ht : t.newUser = some uid)
    (hp : Phase s0 uid s.used (s.registered uid) failed [t] (s.user uid) (idsOf uid s.log))
    (hfail : failed' ↔ failed ∨ e.error ≠ none) :
    Phase s0 uid s'.used (s'.registered uid) failed' (tasksOf uid ts) (s'.user uid)
      (idsOf uid s'.log) := by
  have hok : e.error = none → ¬ failed → ¬ failed' := by
    intro he hnf
    rw [hfail]
    simp [he, hnf]
  cases h with
  | account => cases ht
  | readFailed he hf =>
    obtain ⟨h0, hr, _, hd, _⟩ := hp.of_idRead
    exact .failed h0 ((hf.registered uid).mpr hr) (hfail.mpr (.inr he)) rfl ((hf.user uid).trans hd)
  | @readUsed u _ _ he _ hf =>
    obtain ⟨h0, hr, hnf, hd, hids⟩ := hp.of_idRead
    exact .searching u (formatID e.random) h0 ((hf.registered uid).mpr hr) (hok he hnf)
      (tasksOf_cons_self (t := .idRead u (formatID e.random)) ht []) ((hf.user uid).trans hd)
      ((idsOf_congr uid hf.uniqueIDs).trans hids)
  | @readFree u id _ he _ hf =>
    obtain ⟨h0, hr, hnf, hd, hids⟩ := hp.of_idRead
    exact .reserving u id h0 ((hf.registered uid).mpr hr) (hok he hnf)
      (tasksOf_cons_self (t := .idWrite u id) ht []) ((hf.user uid).trans hd)
      ((idsOf_congr uid hf.uniqueIDs).trans hids)
  | writeFailed he hf =>
    obtain ⟨h0, hr, _, hd, _⟩ := hp.of_idWrite
    exact .failed h0 ((hf.registered uid).mpr hr) (hfail.mpr (.inr he)) rfl ((hf.user uid).trans hd)
  | @reserved u id _ he hacc used user ids _ =>
    obtain ⟨h0, hr, hnf, hd, hids⟩ := hp.of_idWrite
    cases ht
    have hreg : s'.registered u.uid := by
      rw [State.registered, hacc]
      exact hr
    refine .storing ⟨u.email, u.userType, u.phoneNumber, id⟩ h0 hreg (hok he hnf)
      (tasksOf_cons_self rfl []) ((user _).trans hd) ?_ ((used id).mpr (.inl rfl))
    rw [idsOf] at hids
    rw [idsOf, ids, List.filterMap_cons_some (by simp; rfl), hids]
  | userFailed he hf =>
    cases ht
    obtain ⟨h0, hr, _, hd, _⟩ := hp.of_userWrite
    exact .failed h0 ((hf.registered _).mpr hr) (hfail.mpr (.inr he)) rfl ((hf.user _).trans hd)
  | @stored _ user _ he hacc used hself _ ids _ =>
    cases ht
    obtain ⟨h0, hr, hnf, _, hid, hus⟩ := hp.of_userWrite
    refine .provisioned user h0 ?_ (hok he hnf) rfl hself ((idsOf_congr uid ids).trans hid)
      ((used _).mpr hus)
    rw [State.registered, hacc]
    exact hr
  | other hn =>
    rw [hn] at ht
    cases ht

omit [UIKit UIImage] in
/-- Any other answer leaves the sign-up where it is, or creates the account that it is for. -/
theorem phase_other (h : SignUpStep e s t s' ts) (ht : t.newUser ≠ some uid)
    (hp : Phase s0 uid s.used (s.registered uid) failed tasks (s.user uid) (idsOf uid s.log)) :
    Phase s0 uid s'.used (s'.registered uid) failed (tasks ++ tasksOf uid ts) (s'.user uid)
      (idsOf uid s'.log) := by
  have frame : SignUpFrame s s' → tasksOf uid ts = [] →
      Phase s0 uid s'.used (s'.registered uid) failed (tasks ++ tasksOf uid ts) (s'.user uid)
        (idsOf uid s'.log) := by
    intro hf hn
    rw [hn, List.append_nil]
    exact hp.frame (fun id => (hf.used id).mpr) (hf.registered uid) Iff.rfl (List.Perm.refl _)
      (hf.user uid) (idsOf_congr uid hf.uniqueIDs)
  cases h with
  | @account d email password u _ _ hu hnew hacc used user hq =>
    have hids : idsOf uid s'.log = idsOf uid s.log := idsOf_congr uid hq.1
    by_cases hne : uid = e.newID
    · subst hne
      have hreg : ¬ s.registered e.newID := by
        intro hreg
        obtain ⟨a, ha, hau⟩ := hreg
        exact hnew a ha hau
      obtain ⟨h0, hnf, htask, hd, hnil⟩ := hp.of_unregistered hreg
      refine .searching u (formatID e.random) h0 ?_ hnf ?_ ((user _).trans hd) (hids.trans hnil)
      · exact ⟨_, by rw [hacc]; exact List.mem_cons_self, rfl⟩
      · rw [htask, tasksOf_cons_self (by rw [← hu]; rfl)]; rfl
    · rw [tasksOf_cons_ne (by simpa [Task.newUser, hu] using Ne.symm hne)]
      refine hp.frame (fun id => (used id).mpr) ?_ Iff.rfl ?_ (user uid) hids
      · rw [State.registered, State.registered, hacc]
        simp only [List.mem_cons, exists_eq_or_imp]
        exact or_iff_right fun h' => hne h'.symm
      · exact List.Perm.of_eq (List.append_nil tasks)
  | readFailed _ hf | writeFailed _ hf | userFailed _ hf => exact frame hf rfl
  | @readUsed u _ _ _ _ hf =>
    exact frame hf (tasksOf_cons_ne (t := .idRead u (formatID e.random)) ht [])
  | @readFree u id _ _ _ hf => exact frame hf (tasksOf_cons_ne (t := .idWrite u id) ht [])
  | @reserved u id _ _ hacc used user ids _ =>
    have hu : u.uid ≠ uid := fun h' => ht (congrArg some h')
    have hreg : s'.registered uid ↔ s.registered uid := by
      rw [State.registered, State.registered, hacc]
    rw [tasksOf_cons_ne (t := .userWrite u.uid _) ht]
    refine hp.frame (fun id' h' => (used id').mpr (.inr h')) hreg Iff.rfl ?_ (user uid) ?_
    · exact List.Perm.of_eq (List.append_nil tasks)
    · rw [idsOf, idsOf, ids, List.filterMap_cons_none (by simp [hu])]
  | @stored uid' user _ _ hacc used _ hother ids _ =>
    have hreg : s'.registered uid ↔ s.registered uid := by
      rw [State.registered, State.registered, hacc]
    refine hp.frame (fun id => (used id).mpr) hreg Iff.rfl ?_ ?_ (idsOf_congr uid ids)
    · exact List.Perm.of_eq (List.append_nil tasks)
    · exact hother uid fun h' => ht (congrArg some h'.symm)
  | other _ hf hts =>
    refine frame hf (tasksOf_eq_nil fun u hu hn => ?_)
    rw [hts u hu] at hn
    cases hn

end Step

/-- A step of `S` does to a sign-up what a step of the app does; `app` is the state of the app in a
state of `S`. -/
structure SignsUp {σ : Type} (S : System σ Task (Action UIImage) Env) (app : σ → State UIImage) :
    Prop where
  act : ∀ {a e s s' ts}, S.act a e s = some (s', ts) →
    SignUpFrame (app s) (app s') ∧ ∀ u ∈ ts, u.newUser = none
  serve : ∀ {t e s s' ts}, S.serve t e s = some (s', ts) → SignUpStep e (app s) t (app s') ts

theorem app_signsUp : SignsUp (app UIImage) id := ⟨fun h => act_signUp h, fun h => serve_signUp h⟩

section Run

variable {σ : Type} {S : System σ Task (Action UIImage) Env} {app : σ → State UIImage}
  {c c' : Config σ Task} {l : Label (Action UIImage) Env} {ls : List (Label (Action UIImage) Env)}

omit [UIKit UIImage] in
theorem phase_step {s0 : State UIImage}
    {h : List (Config (State UIImage) Task × Label (Action UIImage) Env)} (hS : SignsUp S app)
    (hs : S.Step c l c') (hp : ∀ uid, InPhase s0 h (c.map app) uid) (uid : UID) :
    InPhase s0 (h ++ [(c.map app, l)]) (c'.map app) uid := by
  have hp := hp uid
  rw [InPhase] at hp ⊢
  cases hs with
  | @act a e s ts ha =>
    obtain ⟨hf, hts⟩ := hS.act ha
    refine hp.frame (fun id => (hf.used id).mpr) (hf.registered uid) ?_ ?_ (hf.user uid)
      (idsOf_congr uid hf.uniqueIDs)
    · rw [failed_append]
      exact or_iff_left failed_act
    · have hn : tasksOf uid ts = [] := by
        refine tasksOf_eq_nil fun t ht hn => ?_
        rw [hts t ht] at hn
        cases hn
      rw [Config.map_tasks, Config.tasks_acted, tasksOf_append, hn, List.append_nil]
      rfl
  | @serve i k t e s ts hi ha =>
    obtain ⟨rest, hperm, hts⟩ := Config.tasks_served hi s ts
    have hfail : Failed (h ++ [(c.map app, .serve i e)]) uid ↔
        Failed h uid ∨ t.newUser = some uid ∧ e.error ≠ none := by
      rw [failed_append, failed_serve (c := c.map app) hi]
    have hpool : (tasksOf uid c.tasks).Perm (tasksOf uid (t :: rest)) := hperm.filter _
    rw [Config.map_tasks, hts, tasksOf_append, Config.map_state, Config.served_state]
    rw [Config.map_tasks, Config.map_state] at hp
    by_cases ht : t.newUser = some uid
    · -- the only request of this sign-up is the one that is answered
      rw [tasksOf_cons_self ht] at hpool
      have hlen := hp.tasks_length
      rw [hpool.length_eq, List.length_cons] at hlen
      have hrest : tasksOf uid rest = [] := List.length_eq_zero_iff.mp (by omega)
      rw [hrest] at hpool ⊢
      rw [List.perm_singleton.mp hpool] at hp
      refine phase_own (hS.serve ha) ht hp ?_
      rw [hfail]
      exact or_congr_right (and_iff_right ht)
    · rw [tasksOf_cons_ne ht] at hpool
      refine (phase_other (hS.serve ha) ht hp).frame (fun _ h' => h') Iff.rfl ?_
        (hpool.symm.append_right _) rfl rfl
      rw [hfail]
      exact or_iff_left fun hc => ht hc.1

omit [UIKit UIImage] in
theorem SignsUp.phase_of_run {s0 : σ} (hS : SignsUp S app) (hlog : (app s0).log = [])
    (hr : S.run (.init s0) ls = some c) (uid : UID) :
    InPhase (app s0) (mapHistory app (S.history (.init s0) ls)) (c.map app) uid := by
  refine System.run_rule (I := fun h c => ∀ uid, InPhase (app s0) (mapHistory app h) (c.map app) uid)
    hr ?_ ?_ uid
  · intro uid
    have hids : idsOf uid (app s0).log = [] := by rw [hlog]; rfl
    have hf : ¬ @Failed UIImage [] uid := by
      rintro ⟨_, _, _, ⟨_, _, hm, _⟩, _⟩
      cases hm
    by_cases h0 : (app s0).registered uid
    · exact .old h0 h0 hf rfl rfl hids
    · exact .unknown h0 h0 hf rfl rfl hids
  · intro h c1 l c2 _ hp hs uid
    rw [mapHistory_append]
    exact phase_step hS hs hp uid

end Run

theorem phase_of_run {s0 : State UIImage} (hlog : s0.log = [])
    {ls : List (Label (Action UIImage) Env)} {c : Config (State UIImage) Task}
    (hr : (app UIImage).run (.init s0) ls = some c) (uid : UID) :
    InPhase s0 ((app UIImage).history (.init s0) ls) c uid := by
  have hp := app_signsUp.phase_of_run hlog hr uid
  rw [mapHistory_id] at hp
  exact hp

end WeddApp
