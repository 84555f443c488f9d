import WeddApp.Save.Chain
import WeddApp.SignUp.Provision

/-!
# Save.FirstSave

The first Saves of a host who has just signed up. Signing up opens the form before `createUser` has
sent its first request, so a Save can ask for the user document before `createUser` has sent it. Such a
Save is dropped; a Save that asks later goes through under the ID that was generated for the host
(`save_after_signUp`), also while the document is in flight, since the device reads its own write.

* `writes_of_run`: what the clients know to be in flight is in flight.
* `home_kept`: an account stays the one of the device that created it.
-/

namespace WeddApp

open Async Documents

variable {UIImage : Type} [UIKit UIImage]

theorem Runs.signsUp {σ : Type} {S : System σ Task (Action UIImage) Env} {app : σ → State UIImage}
    {seen : σ → DeviceID → UID → State UIImage} (hS : Runs S app seen) : SignsUp S app where
  act := fun h => act_signUp (hS.acts h)
  serve := by
    intro t e s s' ts h
    by_cases ht : ∃ d uid, t = .saveRead d uid
    · obtain ⟨d, uid, rfl⟩ := ht
      obtain ⟨s1, hserve, happ⟩ := hS.reads h
      obtain ⟨fs, hseen⟩ := hS.documents s d uid
      have hstep : SignUpStep e (seen s d uid) (.saveRead d uid) s1 ts := serve_signUp hserve
      rw [happ]
      rw [hseen] at hstep
      cases hstep with
      | other hn hf hts =>
        exact .other rfl ⟨hf.accounts, fun _ => Iff.rfl, fun _ => rfl, hf.uniqueIDs, hf.createdUsers⟩ hts
    · exact serve_signUp (hS.serves (fun d uid he => ht ⟨d, uid, he⟩) h)

/-! ## What the clients know -/

theorem Task.userData_of_newUser {t : Task} (h : t.newUser = none) : t.userData = none := by
  cases t with
  | userWrite uid user => simp [Task.newUser] at h
  | authCreate | authSignIn | idRead | idWrite | saveRead | saveMain | weddingWrite | photoPut
  | photoMerge | wishWrite => rfl

theorem userData_eq_nil {ts : List Task} (h : ∀ u ∈ ts, u.newUser = none) :
    ts.filterMap Task.userData = [] :=
  List.filterMap_eq_nil_iff.mpr fun u hu => Task.userData_of_newUser (h u hu)

theorem Client.serve_read {d : DeviceID} {uid : UID} {e : Env} {s s' : Client UIImage}
    {ts : List Task} (h : Client.serve (.saveRead d uid) e s = some (s', ts)) :
    s'.home = s.home ∧ s'.writes = s.writes ∧ ∀ u ∈ ts, u.newUser = none := by
  have h' : (client UIImage).serve (.saveRead d uid) e s = some (s', ts) := h
  have hstep := client_runs.signsUp.serve h'
  obtain ⟨p, _, heq⟩ := Option.map_eq_some_iff.mp h
  cases heq
  cases hstep with
  | other _ _ hts => exact ⟨rfl, rfl, hts⟩

theorem writes_of_run {s0 : State UIImage} {ls : List (Label (Action UIImage) Env)}
    {c : Config (Client UIImage) Task} (hr : (client UIImage).run (.init (.new s0)) ls = some c) :
    c.state.writes.Perm (c.tasks.filterMap Task.userData) := by
  refine System.invariant (I := fun c => c.state.writes.Perm (c.tasks.filterMap Task.userData)) hr
    (List.Perm.refl _) ?_
  intro c1 l c2 _ hI hs
  cases hs with
  | @act a e s ts ha =>
    obtain ⟨_, hts⟩ := client_runs.signsUp.act ha
    obtain ⟨p, _, heq⟩ := Option.map_eq_some_iff.mp ha
    cases heq
    rw [Config.tasks_acted, List.filterMap_append, userData_eq_nil hts, List.append_nil]
    exact hI
  | @serve i k t e s ts hi ha =>
    obtain ⟨rest, hperm, htasks⟩ := Config.tasks_served hi s ts
    have hpool : c1.state.writes.Perm ((t :: rest).filterMap Task.userData) :=
      hI.trans (hperm.filterMap _)
    rw [htasks, List.filterMap_append, Config.served_state]
    by_cases ht : ∃ d uid, t = .saveRead d uid
    · obtain ⟨d, uid, rfl⟩ := ht
      obtain ⟨_, hw, hts⟩ := Client.serve_read ha
      rw [hw, userData_eq_nil hts, List.append_nil]
      exact hpool
    · obtain ⟨s1, _, rfl⟩ := Client.serve_other (fun d uid he => ht ⟨d, uid, he⟩) ha
      refine List.Perm.append_right _ ?_
      cases hd : t.userData with
      | none => rwa [List.filterMap_cons_none hd] at hpool
      | some w =>
        rw [List.filterMap_cons_some hd] at hpool
        exact (hpool.erase w).trans (List.Perm.of_eq (List.erase_cons_head ..))

/-- A step keeps the accounts and their homes; the home of a new account is set as it is created. -/
theorem home_step {c c' : Config (Client UIImage) Task} {l : Label (Action UIImage) Env}
    (hs : (client UIImage).Step c l c') (uid : UID) :
    (c.state.app.registered uid →
      c'.state.app.registered uid ∧ c'.state.home uid = c.state.home uid) ∧
    ∀ d, c'.state.home uid = some d → c.state.home uid = some d ∨ c'.state.app.registered uid := by
  have hsame : c'.state.app.accounts = c.state.app.accounts → c'.state.home = c.state.home →
      (c.state.app.registered uid →
        c'.state.app.registered uid ∧ c'.state.home uid = c.state.home uid) ∧
      ∀ d, c'.state.home uid = some d → c.state.home uid = some d ∨ c'.state.app.registered uid := by
    intro ha hh
    rw [hh, State.registered, State.registered, ha]
    exact ⟨fun h => ⟨h, rfl⟩, fun d h => .inl h⟩
  cases hs with
  | @act a e s ts ha =>
    obtain ⟨hf, _⟩ := client_runs.signsUp.act ha
    obtain ⟨p, _, heq⟩ := Option.map_eq_some_iff.mp ha
    cases heq
    exact hsame hf.accounts rfl
  | @serve i k t e s ts hi ha =>
    by_cases ht : ∃ d uid, t = .saveRead d uid
    · obtain ⟨d, uid, rfl⟩ := ht
      obtain ⟨hh, _, _⟩ := Client.serve_read ha
      cases client_runs.signsUp.serve ha with
      | other _ hf _ => exact hsame hf.accounts hh
    · obtain ⟨s1, hserve, rfl⟩ := Client.serve_other (fun d uid he => ht ⟨d, uid, he⟩) ha
      cases t with
      | authCreate d email password =>
        cases he : e.error with
        | some m =>
          have hb := serve_backend hserve
          rw [commit_failed _ (by simp [he])] at hb
          exact hsame (congrArg Backend.accounts hb) (by simp [Client.answered, he])
        | none =>
          have hstep : SignUpStep e c.state.app (.authCreate d email password) s1 ts :=
            serve_signUp hserve
          have hacc1 : s1.accounts = ⟨email, password, e.newID⟩ :: c.state.app.accounts := by
            rw [serve_accounts hserve, Task.commit, he]
            rfl
          have hacc : (c.state.answered (.authCreate d email password) e s1 ts).app.accounts =
              ⟨email, password, e.newID⟩ :: c.state.app.accounts := hacc1
          have hhome : (c.state.answered (.authCreate d email password) e s1 ts).home =
              Function.update c.state.home e.newID (some d) := by
            simp only [Client.answered, he]
          have hnew : ∀ a ∈ c.state.app.accounts, a.uid ≠ e.newID := by
            cases hstep with
            | account _ _ hnew _ _ _ _ => exact hnew
            | other _ hf _ => exact absurd (hacc1.symm.trans hf.accounts) (List.cons_ne_self _ _)
          rw [Config.served_state, hhome]
          constructor
          · rintro ⟨a, ha, rfl⟩
            refine ⟨⟨a, by rw [hacc]; exact List.mem_cons_of_mem _ ha, rfl⟩, ?_⟩
            exact Function.update_of_ne (hnew a ha) _ _
          · intro d' hd
            by_cases hu : uid = e.newID
            · exact .inr ⟨_, by rw [hacc]; exact List.mem_cons_self, hu.symm⟩
            · rw [Function.update_of_ne hu] at hd
              exact .inl hd
      | authSignIn | idRead | idWrite | userWrite | saveRead | saveMain | weddingWrite | photoPut
      | photoMerge | wishWrite =>
        exact hsame (serve_same_accounts hserve fun _ _ _ heq => by cases heq) rfl

theorem registered_of_home {s0 : State UIImage} {ls : List (Label (Action UIImage) Env)}
    {c : Config (Client UIImage) Task} (hr : (client UIImage).run (.init (.new s0)) ls = some c)
    {uid : UID} {d : DeviceID} (hh : c.state.home uid = some d) : c.state.app.registered uid := by
  have key := System.invariant (I := fun c => ∀ d, c.state.home uid = some d →
    c.state.app.registered uid) hr nofun ?_
  · exact key d hh
  · intro c1 l c2 _ hI hs d hd
    obtain ⟨hkeep, hset⟩ := home_step hs uid
    rcases hset d hd with hd | hreg
    · exact (hkeep (hI d hd)).1
    · exact hreg

theorem home_kept {ls : List (Label (Action UIImage) Env)} {c c' : Config (Client UIImage) Task}
    (hr : (client UIImage).run c ls = some c') {uid : UID} {d : DeviceID}
    (hreg : c.state.app.registered uid) (hh : c.state.home uid = some d) :
    c'.state.home uid = some d := by
  have key := System.invariant (I := fun c =>
    c.state.app.registered uid ∧ c.state.home uid = some d) hr ⟨hreg, hh⟩ ?_
  · exact key.2
  · rintro c1 l c2 _ ⟨hreg, hh⟩ hs
    obtain ⟨hreg', hsame⟩ := (home_step hs uid).1 hreg
    exact ⟨hreg', hsame.trans hh⟩

/-- The device of a sign-up sees the document that the sign-up has in flight. -/
theorem ownWrite_of_run {s0 : State UIImage} {ls : List (Label (Action UIImage) Env)}
    {c : Config (Client UIImage) Task} (hr : (client UIImage).run (.init (.new s0)) ls = some c)
    {uid : UID} {d : DeviceID} (hh : c.state.home uid = some d) :
    (∀ user, tasksOf uid c.tasks = [.userWrite uid user] → c.state.ownWrite d uid = some user) ∧
      ((∀ user, .userWrite uid user ∉ tasksOf uid c.tasks) → c.state.ownWrite d uid = none) := by
  have hwrites : ∀ user, (uid, user) ∈ c.state.writes ↔ .userWrite uid user ∈ tasksOf uid c.tasks := by
    intro user
    rw [(writes_of_run hr).mem_iff, List.mem_filterMap, tasksOf, List.mem_filter]
    constructor
    · rintro ⟨t, ht, hd⟩
      cases t with
      | userWrite uid' user' =>
        cases hd
        exact ⟨ht, by simp [Task.newUser]⟩
      | authCreate | authSignIn | idRead | idWrite | saveRead | saveMain | weddingWrite | photoPut
      | photoMerge | wishWrite => cases hd
    · rintro ⟨ht, _⟩
      exact ⟨_, ht, rfl⟩
  rw [Client.ownWrite, if_pos hh]
  constructor
  · intro user htasks
    have hm : (uid, user) ∈ c.state.writes := by
      rw [hwrites, htasks]
      exact List.mem_singleton_self _
    cases hf : c.state.writes.find? fun w => w.1 = uid with
    | none =>
      have hn := List.find?_eq_none.mp hf _ hm
      simp at hn
    | some w =>
      obtain ⟨uid', user'⟩ := w
      have hw : uid' = uid := by simpa using List.find?_some hf
      subst hw
      have hm' := (hwrites user').mp (List.mem_of_find?_eq_some hf)
      rw [htasks] at hm'
      cases List.mem_singleton.mp hm'
      rfl
  · intro hnone
    rw [Option.map_eq_none_iff, List.find?_eq_none]
    rintro ⟨uid', user⟩ hm he
    have hu : uid' = uid := by simpa using he
    subst hu
    exact hnone user ((hwrites user).mp hm)

/-- With nothing failing, a Save on the device that signed up goes through under the ID that
`generateUniqueID` completed with if its read is answered after that, when `createUser` has sent the
user document; and is dropped otherwise. -/
theorem save_after_signUp {s0 : State UIImage} (hlog : s0.log = [])
    {ls : List (Label (Action UIImage) Env)} {c c0 : Config (Client UIImage) Task} {d : DeviceID}
    {e0 : Env} {uid : UID} (hnew : ¬ s0.registered uid) (hdoc : s0.user uid = none)
    (hr : (client UIImage).run (.init (.new s0)) ls = some c) (hok : ∀ l ∈ ls, l.env.error = none)
    (hq : c.pending = [])
    (htap : (c0, .act (.tapSave d) e0) ∈ (client UIImage).history (.init (.new s0)) ls)
    (hu : (c0.state.app.device d).currentUser = some uid) (hhome : c0.state.home uid = some d) :
    ∃ c1 e1, ServedAt ((client UIImage).history (.init (.new s0)) ls) c1 c0.clock (.saveRead d uid) e1 ∧
      ((∃ id form uuid, idsOf uid c1.state.app.log = [id] ∧
          SavedUnder (mapHistory Client.app ((client UIImage).history (.init (.new s0)) ls))
            c0.clock d uid id form uuid) ∨
        (idsOf uid c1.state.app.log = [] ∧
          Dropped (mapHistory Client.app ((client UIImage).history (.init (.new s0)) ls))
            c0.clock d uid (c1.map fun s => s.seen d uid) e1
            "There is no wedding ID associated with this user ID.")) := by
  obtain ⟨c1, e1, hs, hfound, hdropped⟩ := client_runs.save_chain hr hq htap hu
  refine ⟨c1, e1, hs, ?_⟩
  obtain ⟨i, hm, hi⟩ := hs
  have he : e1.error = none := hok _ (System.mem_of_history hm)
  obtain ⟨ls1, ls2, c2, hls, hr1, _, _⟩ := System.history_split hr hm
  obtain ⟨ls0, _, _, _, hr0, _, _⟩ := System.history_split hr htap
  have hhome1 : c1.state.home uid = some d := by
    rcases System.ordered hr htap hm with ⟨ls3, h3⟩ | ⟨ls3, h3⟩
    · exact home_kept h3 (registered_of_home hr0 hhome) hhome
    · have hlt := System.run_dated hr1 (fun _ hx => by cases hx) _ (mem_of_getElem? hi)
      have hle := System.run_clock_le h3
      simp only at hlt hle
      omega
  obtain ⟨hown, hnone⟩ := ownWrite_of_run hr1 hhome1
  have hreply : ∀ doc, (c1.state.seen d uid).user uid = doc →
      (c1.state.seen d uid).weddingIDReply uid e1.error =
        getWeddingIDFromUser.onDocument (.ok doc) := by
    intro doc hd
    rw [State.weddingIDReply, he, ← hd]
    rfl
  have hseen : ∀ {ts}, tasksOf uid c1.tasks = ts → (∀ user, .userWrite uid user ∉ ts) →
      (c1.state.seen d uid).user uid = c1.state.app.user uid := by
    intro ts ht hw
    rw [Client.seen, hnone (by rw [ht]; exact hw)]
  have hdrop : (c1.state.seen d uid).user uid = none →
      Dropped (mapHistory Client.app ((client UIImage).history (.init (.new s0)) ls))
        c0.clock d uid (c1.map fun s => s.seen d uid) e1
        "There is no wedding ID associated with this user ID." := by
    intro hd
    refine hdropped _ ?_
    rw [hreply none hd]
    rfl
  have hgo : ∀ user : User, (c1.state.seen d uid).user uid = some user.toDictionary →
      ∃ form uuid, SavedUnder (mapHistory Client.app ((client UIImage).history (.init (.new s0)) ls))
        c0.clock d uid user.weddingID form uuid := by
    intro user hd
    refine hfound user.weddingID ?_
    rw [hreply _ hd]
    simp [getWeddingIDFromUser.onDocument, User.toDictionary_weddingID user]
  cases client_runs.signsUp.phase_of_run hlog hr1 uid with
  | old h0 _ _ _ _ _ => exact absurd h0 hnew
  | unknown _ _ _ ht hd hids =>
    exact .inr ⟨hids, hdrop ((hseen ht (by simp)).trans (hd.trans hdoc))⟩
  | searching _ _ _ _ _ ht hd hids | reserving _ _ _ _ _ ht hd hids =>
    exact .inr ⟨hids, hdrop ((hseen ht (by simp)).trans (hd.trans hdoc))⟩
  | storing user _ _ _ ht _ hids _ =>
    obtain ⟨form, uuid, hsaved⟩ := hgo user (by
      rw [Client.seen, hown user ht, State.user]
      simp only [State.setData]
      rw [lookup_set, if_pos rfl])
    exact .inl ⟨user.weddingID, form, uuid, hids, hsaved⟩
  | provisioned user _ _ _ ht hd hids _ =>
    obtain ⟨form, uuid, hsaved⟩ := hgo user ((hseen ht (by simp)).trans hd)
    exact .inl ⟨user.weddingID, form, uuid, hids, hsaved⟩
  | failed _ _ hf _ _ =>
    obtain ⟨k, t, e, hserved, _, herr⟩ := hf
    obtain ⟨c3, i3, hm3, _⟩ := (served_map.mp hserved).mono
      fun x hx => hls ▸ System.history_subset hr1 x hx
    exact absurd (hok _ (System.mem_of_history hm3)) herr

/-- A host signs up; Save is tapped and its read answered while the user document is in flight. -/
def pendingSave : List (Label (Action Data) Env) :=
  (signUpTaps 0 "a@a.com" ++ [.serve 0 (drawing "A" 7), .serve 0 .ok, .serve 0 .ok]) ++
    .act (.tapSave 0) .ok :: [.serve 1 .ok, .serve 0 .ok, .serve 0 .ok, .serve 0 .ok]

/-- A host signs up, and Save is tapped and answered before the ID is even looked up. -/
def earlySave : List (Label (Action Data) Env) :=
  (signUpTaps 0 "a@a.com" ++ [.serve 0 (drawing "A" 7)]) ++
    .act (.tapSave 0) .ok :: [.serve 1 .ok, .serve 0 .ok, .serve 0 .ok, .serve 0 .ok]

theorem pendingSave_saved :
    ∃ c k c1 e1 id form uuid,
      (client Data).run (.init (.new (State.new Data))) pendingSave = some c ∧
      ServedAt ((client Data).history (.init (.new (State.new Data))) pendingSave) c1 k
        (.saveRead 0 "A") e1 ∧ idsOf "A" c1.state.app.log = [id] ∧
      SavedUnder (mapHistory Client.app
        ((client Data).history (.init (.new (State.new Data))) pendingSave)) k 0 "A" id form uuid ∧
      c.state.app.firestore.keys = [weddingDocument "0007", userDocument "A", usedID "0007"] := by
  have hrun : ((client Data).run (.init (.new (State.new Data))) pendingSave).map
      (fun c => (c.pending.length, c.state.app.firestore.keys)) =
        some (0, [weddingDocument "0007", userDocument "A", usedID "0007"]) := by decide
  have htap : ((client Data).run (.init (.new (State.new Data))) (signUpTaps 0 "a@a.com" ++
      [.serve 0 (drawing "A" 7), .serve 0 .ok, .serve 0 .ok])).map (fun c =>
        ((c.state.app.device 0).currentUser, c.state.home "A", c.clock)) =
          some (some "A", some 0, 2) := by decide
  obtain ⟨c, hr, hc⟩ := Option.map_eq_some_iff.mp hrun
  obtain ⟨c0, hr0, hm⟩ := System.mem_history hr
  rw [hr0] at htap
  simp only [Option.map_some, Option.some.injEq, Prod.mk.injEq] at htap hc
  have hok : ∀ l ∈ pendingSave, l.env.error = none := by
    intro l hl
    simp only [pendingSave, signUpTaps, List.cons_append, List.nil_append, List.mem_cons,
      List.not_mem_nil, or_false] at hl
    rcases hl with rfl | rfl | rfl | rfl | rfl | rfl | rfl | rfl | rfl | rfl <;> rfl
  obtain ⟨c1, e1, hs, hout⟩ := save_after_signUp rfl (by rintro ⟨a, ha, _⟩; cases ha) rfl hr hok
    (List.length_eq_zero_iff.mp hc.1) hm htap.1 htap.2.1
  rcases hout with ⟨id, form, uuid, hids, hsaved⟩ | ⟨_, hdropped⟩
  · exact ⟨c, c0.clock, c1, e1, id, form, uuid, hr, hs, hids, hsaved, hc.2⟩
  · -- the Save sent more than its read
    have hsplit : pendingSave = (signUpTaps 0 "a@a.com" ++ [.serve 0 (drawing "A" 7), .serve 0 .ok,
        .serve 0 .ok, .act (.tapSave 0) .ok, .serve 1 .ok, .serve 0 .ok]) ++
          .serve 0 .ok :: [.serve 0 .ok] := rfl
    have hr' := hr
    rw [hsplit] at hr'
    obtain ⟨c3, hr3, hm3⟩ := System.mem_history hr'
    have hmain : ((client Data).run (.init (.new (State.new Data))) (signUpTaps 0 "a@a.com" ++
        [.serve 0 (drawing "A" 7), .serve 0 .ok, .serve 0 .ok, .act (.tapSave 0) .ok, .serve 1 .ok,
          .serve 0 .ok])).map (fun c => c.pending.map fun x => (x.1,
            match x.2 with | .saveMain _ _ _ => true | _ => false)) = some [(2, true)] := by
      decide
    rw [hr3] at hmain
    obtain ⟨⟨k, t⟩, hpend, hx⟩ := List.map_eq_singleton_iff.mp (Option.some.inj hmain)
    simp only [Prod.mk.injEq] at hx
    have ht := hdropped.only t .ok (served_map.mpr ⟨c3, 0, hm3, by rw [hpend, htap.2.2, ← hx.1]; rfl⟩)
    rw [ht] at hx
    cases hx.2

/-- Nothing fails, the account gets its document, and the Save has been dropped: no wedding is
stored. -/
theorem earlySave_dropped :
    (∀ l ∈ earlySave, l.env.error = none) ∧
      ∃ c, (client Data).run (.init (.new (State.new Data))) earlySave = some c ∧ c.pending = [] ∧
        .error (.firestoreError "There is no wedding ID associated with this user ID.") ∈
          c.state.app.log ∧
        ("A", "0007") ∈ createdUsers c.state.app.log ∧
        c.state.app.firestore.keys = [userDocument "A", usedID "0007"] := by
  constructor
  · intro l hl
    simp only [earlySave, signUpTaps, List.cons_append, List.nil_append, List.mem_cons,
      List.not_mem_nil, or_false] at hl
    rcases hl with rfl | rfl | rfl | rfl | rfl | rfl | rfl | rfl <;> rfl
  · have hrun : ((client Data).run (.init (.new (State.new Data))) earlySave).map
        (fun c => (c.pending.length, c.state.app.log, c.state.app.firestore.keys)) =
      some (0, [.success SuccessOperations.userCreated, .userCreated "A" "0007",
          .uniqueID "A" "0007",
          .error (.firestoreError "There is no wedding ID associated with this user ID."),
          .success SuccessOperations.signedUp],
        [userDocument "A", usedID "0007"]) := by decide
    obtain ⟨c, hr, hc⟩ := Option.map_eq_some_iff.mp hrun
    simp only [Prod.mk.injEq] at hc
    refine ⟨c, hr, List.length_eq_zero_iff.mp hc.1, ?_, ?_, hc.2.2⟩
    · rw [hc.2.1]; decide
    · rw [hc.2.1]; decide

end WeddApp
