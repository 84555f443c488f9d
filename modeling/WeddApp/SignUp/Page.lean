import WeddApp.SignUp.Phase
import WeddApp.SignUp.UniqueID
import WeddApp.Wish.Steps

/-!
# SignUp.Page

The authentication page (`AuthScreen.swift`). The spinner covers the page exactly while one request to
Auth is in flight, and a device that is signed in has a registered account as its current user
(`auth_page`). The text fields can be edited all the while.

* `AuthState`: what of a device the page shows; `AuthAct`, `AuthServe`: what a tap and an answer do to
  it.
-/

namespace WeddApp

open Async Documents

variable {UIImage : Type}

structure AuthState where
  page : AuthPage
  currentUser : Option UID
  isSignedIn : Bool
  isLoading : Bool

def Device.auth (v : Device UIImage) : AuthState :=
  ⟨v.page, v.currentUser, v.isSignedIn, v.isLoading⟩

def State.auth (s : State UIImage) (d : DeviceID) : AuthState := (s.device d).auth

def Task.ofAuth (d : DeviceID) : Task → Bool
  | .authCreate d' _ _ | .authSignIn d' _ _ => d' = d
  | _ => false

theorem auth_update {s s' : State UIImage} {d : DeviceID} {v : Device UIImage} {a : AuthState}
    (h : s'.device = Function.update s.device d v) (ha : v.auth = a) :
    s'.auth = Function.update s.auth d a := by
  subst ha
  funext d'
  by_cases hd : d' = d
  · subst hd
    rw [State.auth, h, Function.update_self, Function.update_self]
  · rw [State.auth, h, Function.update_of_ne hd, Function.update_of_ne hd]
    rfl

theorem auth_same {s s' : State UIImage} {d : DeviceID} {v : Device UIImage}
    (h : s'.device = Function.update s.device d v) (hv : v.auth = s.auth d) : s'.auth = s.auth := by
  rw [auth_update h hv, Function.update_eq_self]

theorem auth_of_device {s s' : State UIImage} (h : s'.device = s.device) : s'.auth = s.auth := by
  funext d
  rw [State.auth, h]
  rfl

/-! ## What a step does to the page -/

/-- A tap sends nothing but what `ts` names, and leaves the page of other devices alone. -/
inductive AuthAct (s : State UIImage) : Action UIImage → State UIImage → List Task → Prop where
  | edit {d : DeviceID} {page : AuthPage} {s' : State UIImage}
      (h : s'.auth = Function.update s.auth d { s.auth d with page := page }) :
      AuthAct s (.editAuth d page) s' []
  | ask {a : Action UIImage} {d : DeviceID} {t : Task} {s' : State UIImage}
      (hl : (s.auth d).isLoading = false)
      (ht : t = .authSignIn d (s.auth d).page.email (s.auth d).page.password ∨
        t = .authCreate d (s.auth d).page.email (s.auth d).page.password)
      (h : s'.auth = Function.update s.auth d { s.auth d with isLoading := true }) :
      AuthAct s a s' [t]
  | other {a : Action UIImage} {s' : State UIImage} {ts : List Task} (h : s'.auth = s.auth)
      (hts : ∀ u ∈ ts, ∀ d, u.ofAuth d = false) : AuthAct s a s' ts

theorem alert_auth (d : DeviceID) (message : String) (s : State UIImage) :
    (alert d message s).auth = s.auth := auth_same rfl rfl

theorem act_auth {a : Action UIImage} {e : Env} {s s' : State UIImage} {ts : List Task}
    (h : act a e s = some (s', ts)) : AuthAct s a s' ts := by
  have halert : ∀ d message, AuthAct s a (alert d message s) [] :=
    fun d message => .other (alert_auth d message s) (List.forall_mem_nil _)
  cases a with
  | editAuth d page =>
    cases h
    exact .edit (auth_update rfl rfl)
  | tapSignIn d =>
    simp only [act] at h
    split at h
    · cases h
    · rename_i hl
      obtain ⟨rfl, rfl⟩ := served_eq h
      simp only [SignInView.tapSignIn]
      split
      · exact halert d _
      split
      · exact halert d _
      · exact .ask (Bool.eq_false_iff.mpr hl) (.inl rfl) (auth_update rfl rfl)
  | tapSignUp d =>
    simp only [act] at h
    split at h
    · cases h
    · rename_i hl
      obtain ⟨rfl, rfl⟩ := served_eq h
      simp only [SignUpView.tapSignUp]
      split
      · exact halert d _
      split
      · exact halert d _
      split
      · exact halert d _
      · exact .ask (Bool.eq_false_iff.mpr hl) (.inr rfl) (auth_update rfl rfl)
  | editForm d form =>
    cases h
    exact .other (auth_same rfl rfl) (List.forall_mem_nil _)
  | tapSave d =>
    refine .other ?_ fun u hu => ?_
    · simp only [act] at h
      split at h
      · obtain ⟨rfl, _⟩ := served_eq h; rfl
      · cases h
    · cases act_tapSends h hu with
      | save => exact fun _ => rfl
  | tapSubmit d weddingID guestName wish date =>
    refine .other ?_ fun u hu => ?_
    · simp only [act] at h
      split at h
      · cases h
      · obtain ⟨rfl, _⟩ := served_eq h
        unfold WishPage.tapOnSubmit
        split
        · rfl
        · exact auth_same rfl rfl
    · cases act_tapSends h hu with
      | submit => exact fun _ => rfl

inductive AuthServe (e : Env) (s : State UIImage) : Task → State UIImage → List Task → Prop where
  | refused {t : Task} {d : DeviceID} {s' : State UIImage} (ht : t.ofAuth d = true)
      (hacc : s'.accounts = s.accounts)
      (h : s'.auth = Function.update s.auth d { s.auth d with isLoading := false }) :
      AuthServe e s t s' []
  | signedUp {d : DeviceID} {email password : String} {s' : State UIImage} {ts : List Task}
      (hacc : s'.accounts = ⟨email, password, e.newID⟩ :: s.accounts)
      (h : s'.auth = Function.update s.auth d { s.auth d with
        currentUser := some e.newID, isSignedIn := true, isLoading := false })
      (hts : ts = [.idRead ⟨e.newID, (s.auth d).page.email, "Customer",
        (s.auth d).page.regionCode ++ (s.auth d).page.phoneNumber⟩ (formatID e.random)]) :
      AuthServe e s (.authCreate d email password) s' ts
  | signedIn {d : DeviceID} {email password : String} {s' : State UIImage} {a : Account}
      (ha : a ∈ s.accounts) (hacc : s'.accounts = s.accounts)
      (h : s'.auth = Function.update s.auth d { s.auth d with
        currentUser := some a.uid, isSignedIn := true, isLoading := false }) :
      AuthServe e s (.authSignIn d email password) s' []
  | other {t : Task} {s' : State UIImage} {ts : List Task} (ht : ∀ d, t.ofAuth d = false)
      (hacc : s'.accounts = s.accounts) (h : s'.auth = s.auth)
      (hts : ∀ u ∈ ts, ∀ d, u.ofAuth d = false) : AuthServe e s t s' ts

theorem onSignUp_auth (d : DeviceID) (error : Option NSError) (random : Fin 10000)
    (s : State UIImage) : (SignUpView.onSignUp d error random s).1.auth =
      Function.update s.auth d { s.auth d with
        isLoading := false, isSignedIn := error.isNone || (s.auth d).isSignedIn } := by
  cases error with
  | some m => exact (alert_auth d _ _).trans (auth_update rfl rfl)
  | none => exact auth_update rfl rfl

theorem onSignIn_auth (d : DeviceID) (error : Option NSError) (s : State UIImage) :
    (SignInView.onSignIn d error s).auth =
      Function.update s.auth d { s.auth d with
        isLoading := false, isSignedIn := error.isNone || (s.auth d).isSignedIn } := by
  cases error with
  | some m => exact (alert_auth d _ _).trans (auth_update rfl rfl)
  | none => exact auth_update rfl rfl

theorem createUser_auth {d : DeviceID} {email password : String} {uid : UID} {s s' : State UIImage}
    (h : Auth.createUser d email password uid s = some s') :
    s'.auth = Function.update s.auth d { s.auth d with currentUser := some uid } ∧
      s'.accounts = ⟨email, password, uid⟩ :: s.accounts := by
  unfold Auth.createUser at h
  split at h
  · cases h
  · cases h; exact ⟨auth_update rfl rfl, rfl⟩

theorem signIn_auth {d : DeviceID} {email password : String} {s s' : State UIImage}
    (h : Auth.signIn d email password s = some s') : ∃ a ∈ s.accounts,
      s'.auth = Function.update s.auth d { s.auth d with currentUser := some a.uid } ∧
        s'.accounts = s.accounts := by
  unfold Auth.signIn at h
  split at h
  · cases h
  · rename_i a ha
    cases h
    exact ⟨a, List.mem_of_find?_eq_some ha, auth_update rfl rfl, rfl⟩

variable [UIKit UIImage]

theorem Sends.ofAuth {t u : Task} {e : Env} {s : State UIImage} (h : Sends e s t u) (d : DeviceID) :
    u.ofAuth d = false := by
  cases h with
  | signUp _ hu =>
    cases u with
    | authCreate | authSignIn => exact absurd rfl hu
    | idRead | idWrite | userWrite | saveRead | saveMain | weddingWrite | photoPut | photoMerge
    | wishWrite => rfl
  | main | wedding | put | merge => rfl

theorem serve_auth {t : Task} {e : Env} {s s' : State UIImage} {ts : List Task}
    (h : serve t e s = some (s', ts)) : AuthServe e s t s' ts := by
  have hother (ht : ∀ d, t.ofAuth d = false) (hd : s'.device = s.device) : AuthServe e s t s' ts := by
    refine .other ht (serve_same_accounts h ?_) (auth_of_device hd) fun u hu => (serve_sends h hu).ofAuth
    rintro d email password rfl
    have hd := ht d
    simp [Task.ofAuth] at hd
  obtain ⟨error, newID, random, uuid⟩ := e
  cases t with
  | authCreate d email password =>
    simp only [serve] at h
    split at h
    · obtain ⟨rfl, rfl⟩ := served_eq h
      refine .refused (decide_eq_true rfl) rfl ?_
      rw [onSignUp_auth]
      rfl
    · split at h
      · cases h
      · rename_i s1 hc
        obtain ⟨rfl, rfl⟩ := served_eq h
        obtain ⟨hauth, hacc⟩ := createUser_auth hc
        have hd : s1.auth d = { s.auth d with currentUser := some newID } := by
          rw [hauth, Function.update_self]
        have hcur : (s1.device d).currentUser = some newID := congrArg AuthState.currentUser hd
        have hpage : (s1.device d).page = (s.auth d).page := congrArg AuthState.page hd
        refine .signedUp hacc ?_ ?_
        · rw [onSignUp_auth, hd, hauth, Function.update_idem]
          rfl
        · simp only [SignUpView.onSignUp, State.onDevice_self, hcur, hpage, createUser,
            generateUniqueID]
  | authSignIn d email password =>
    simp only [serve] at h
    split at h
    · obtain ⟨rfl, rfl⟩ := served_eq h
      refine .refused (decide_eq_true rfl) rfl ?_
      rw [onSignIn_auth]
      rfl
    · split at h
      · cases h
      · rename_i s1 hc
        obtain ⟨rfl, rfl⟩ := served_eq h
        obtain ⟨a, ha, hauth, hacc⟩ := signIn_auth hc
        have hd : s1.auth d = { s.auth d with currentUser := some a.uid } := by
          rw [hauth, Function.update_self]
        refine .signedIn ha hacc ?_
        rw [onSignIn_auth, hd, hauth, Function.update_idem]
        rfl
  | idRead u id =>
    refine hother (fun _ => rfl) ?_
    obtain ⟨rfl, _⟩ := served_eq h
    unfold generateUniqueID.onRead createUser.onUniqueID
    split <;> rfl
  | saveRead d uid =>
    refine hother (fun _ => rfl) ?_
    simp only [serve] at h
    split at h
    · obtain ⟨rfl, _⟩ := served_eq h; exact onWeddingID_device ..
    · obtain ⟨rfl, _⟩ := served_eq h; rfl
  | saveMain d id error' =>
    refine hother (fun _ => rfl) ?_
    obtain ⟨rfl, _⟩ := served_eq h
    exact onWeddingID_device ..
  | idWrite | userWrite | weddingWrite | photoPut | photoMerge | wishWrite =>
    refine hother (fun _ => rfl) ?_
    obtain ⟨rfl, _⟩ := served_eq h
    cases error <;> rfl

/-! ## The page in a run -/

def asks (d : DeviceID) (ts : List Task) : List Task := ts.filter (Task.ofAuth d)

/-- The page of a device with the requests `own` in flight. -/
structure OnPage (registered : UID → Prop) (own : List Task) (a : AuthState) : Prop where
  request : own = [] ∧ a.isLoading = false ∨ ∃ t, own = [t] ∧ a.isLoading = true
  current : ∀ uid, a.currentUser = some uid → registered uid
  signedIn : a.isSignedIn = true → a.currentUser ≠ none

def Pages (c : Config (State UIImage) Task) : Prop :=
  ∀ d, OnPage c.state.registered (asks d c.tasks) (c.state.auth d)

theorem OnPage.frame {registered registered' : UID → Prop} {own own' : List Task} {a : AuthState}
    (h : OnPage registered own a) (hreg : ∀ uid, registered uid → registered' uid)
    (hperm : own.Perm own') : OnPage registered' own' a := by
  refine ⟨?_, fun uid hu => hreg uid (h.current uid hu), h.signedIn⟩
  rcases h.request with ⟨hown, hl⟩ | ⟨t, hown, hl⟩
  · rw [hown] at hperm
    exact .inl ⟨List.nil_perm.mp hperm, hl⟩
  · rw [hown] at hperm
    exact .inr ⟨t, (List.singleton_perm.mp hperm).symm, hl⟩

/-- A page with a request in flight has that one only. -/
theorem OnPage.asking {registered : UID → Prop} {own rest : List Task} {a : AuthState} {t : Task}
    (h : OnPage registered own a) (hperm : own.Perm (t :: rest)) : rest = [] := by
  rcases h.request with ⟨hown, _⟩ | ⟨t', hown, _⟩
  · rw [hown] at hperm
    cases List.nil_perm.mp hperm
  · rw [hown] at hperm
    cases List.singleton_perm.mp hperm
    rfl

theorem OnPage.idle {registered : UID → Prop} {own : List Task} {a : AuthState}
    (h : OnPage registered own a) (hl : a.isLoading = false) : own = [] := by
  rcases h.request with ⟨hown, _⟩ | ⟨_, _, hl'⟩
  · exact hown
  · rw [hl] at hl'; cases hl'

theorem asks_append (d : DeviceID) (ts ts' : List Task) : asks d (ts ++ ts') = asks d ts ++ asks d ts' :=
  List.filter_append ..

theorem asks_eq_nil {d : DeviceID} {ts : List Task} (h : ∀ u ∈ ts, ∀ d, u.ofAuth d = false) :
    asks d ts = [] := by
  rw [asks, List.filter_eq_nil_iff]
  intro u hu
  simp [h u hu d]

section Run

variable {c c' : Config (State UIImage) Task} {l : Label (Action UIImage) Env}

omit [UIKit UIImage] in
theorem Pages.update (hI : Pages c) {d : DeviceID} {a : AuthState}
    (hauth : c'.state.auth = Function.update c.state.auth d a)
    (hreg : ∀ uid, c.state.registered uid → c'.state.registered uid)
    (hown : ∀ d', d' ≠ d → (asks d' c.tasks).Perm (asks d' c'.tasks))
    (h : OnPage c'.state.registered (asks d c'.tasks) a) : Pages c' := by
  intro d'
  rw [hauth]
  by_cases hd : d' = d
  · subst hd
    rw [Function.update_self]
    exact h
  · rw [Function.update_of_ne hd]
    exact (hI d').frame hreg (hown d' hd)

omit [UIKit UIImage] in
theorem ofAuth_unique {t : Task} {d d' : DeviceID} (h : t.ofAuth d = true) (h' : t.ofAuth d' = true) :
    d' = d := by
  cases t with
  | authCreate d1 | authSignIn d1 =>
    simp only [Task.ofAuth, decide_eq_true_eq] at h h'
    exact h'.symm.trans h
  | idRead | idWrite | userWrite | saveRead | saveMain | weddingWrite | photoPut | photoMerge
  | wishWrite => cases h

omit [UIKit UIImage] in
theorem asks_served {i k : Nat} {t : Task} (hi : c.pending[i]? = some (k, t)) (s : State UIImage)
    {ts : List Task} (hts : ∀ u ∈ ts, ∀ d, u.ofAuth d = false) (d : DeviceID) :
    (asks d c.tasks).Perm (asks d (t :: (c.served i k s ts).tasks)) := by
  obtain ⟨rest, hperm, htasks⟩ := Config.tasks_served hi s ts
  have hown := hperm.filter (Task.ofAuth d)
  rw [htasks, ← List.cons_append, asks_append, asks_eq_nil hts, List.append_nil]
  exact hown

omit [UIKit UIImage] in
theorem Pages.answered (hI : Pages c) {i k : Nat} {t : Task} {d : DeviceID} {s : State UIImage}
    {ts : List Task} {a : AuthState} (hi : c.pending[i]? = some (k, t)) (ht : t.ofAuth d = true)
    (hts : ∀ u ∈ ts, ∀ d, u.ofAuth d = false)
    (hauth : s.auth = Function.update c.state.auth d a) (hl : a.isLoading = false)
    (hreg : ∀ uid, c.state.registered uid → s.registered uid)
    (hcur : ∀ uid, a.currentUser = some uid → s.registered uid)
    (hin : a.isSignedIn = true → a.currentUser ≠ none) : Pages (c.served i k s ts) := by
  have hown := asks_served hi s hts
  refine hI.update hauth hreg (fun d' hd => ?_) ⟨.inl ⟨?_, hl⟩, hcur, hin⟩
  · have hne : ¬ t.ofAuth d' = true := fun h => hd (ofAuth_unique ht h)
    have h := hown d'
    rw [asks, asks, List.filter_cons_of_neg hne] at h
    exact h
  · have h := hown d
    rw [asks, asks, List.filter_cons_of_pos ht] at h
    exact (hI d).asking h

theorem Pages.step (hI : Pages c) (hs : (app UIImage).Step c l c') : Pages c' := by
  cases hs with
  | @act a e s ts ha =>
    have hreg : ∀ uid, c.state.registered uid → s.registered uid :=
      fun uid => ((act_signUp ha).1.registered uid).mpr
    cases act_auth ha with
    | @edit d page _ h =>
      have htasks : (c.acted s []).tasks = c.tasks := by rw [Config.tasks_acted, List.append_nil]
      refine hI.update h hreg (fun d' _ => by rw [htasks]) ⟨?_, fun uid hu => ?_, (hI d).signedIn⟩
      · rw [htasks]; exact (hI d).request
      · exact hreg uid ((hI d).current uid hu)
    | @ask _ d t _ hl ht h =>
      have hof : t.ofAuth d = true := by
        rcases ht with rfl | rfl
        · exact decide_eq_true rfl
        · exact decide_eq_true rfl
      refine hI.update h hreg (fun d' hd => ?_) ⟨.inr ⟨t, ?_, rfl⟩, fun uid hu => ?_, (hI d).signedIn⟩
      · have hne : ¬ t.ofAuth d' = true := fun h => hd (ofAuth_unique hof h)
        rw [Config.tasks_acted, asks_append, asks, asks, List.filter_cons_of_neg hne, List.filter_nil,
          List.append_nil]
      · rw [Config.tasks_acted, asks_append, (hI d).idle hl, asks, List.filter_cons_of_pos hof,
          List.filter_nil, List.nil_append]
      · exact hreg uid ((hI d).current uid hu)
    | other h hts =>
      intro d
      rw [Config.acted_state, h, Config.tasks_acted, asks_append, asks_eq_nil hts, List.append_nil]
      exact (hI d).frame hreg (List.Perm.refl _)
  | @serve i k t e s ts hi ha =>
    cases serve_auth ha with
    | @refused _ d _ ht hacc h =>
      have hreg : ∀ uid, c.state.registered uid → s.registered uid := by
        intro uid hu
        rwa [State.registered, hacc]
      exact hI.answered hi ht (List.forall_mem_nil _) h rfl hreg
        (fun uid hu => hreg uid ((hI d).current uid hu)) (hI d).signedIn
    | @signedUp d email password _ _ hacc h hts =>
      have hreg : ∀ uid, c.state.registered uid → s.registered uid := by
        rintro uid ⟨a, ha, hu⟩
        exact ⟨a, by rw [hacc]; exact List.mem_cons_of_mem _ ha, hu⟩
      refine hI.answered hi (decide_eq_true rfl) ?_ h rfl hreg ?_ fun _ => Option.some_ne_none _
      · rw [hts]
        intro u hu
        rw [List.mem_singleton.mp hu]
        exact fun _ => rfl
      · rintro uid hu
        cases hu
        exact ⟨_, by rw [hacc]; exact List.mem_cons_self, rfl⟩
    | @signedIn d email password _ a hmem hacc h =>
      have hreg : ∀ uid, c.state.registered uid → s.registered uid := by
        intro uid hu
        rwa [State.registered, hacc]
      refine hI.answered hi (decide_eq_true rfl) (List.forall_mem_nil _) h rfl hreg ?_
        fun _ => Option.some_ne_none _
      rintro uid hu
      cases hu
      exact hreg _ ⟨a, hmem, rfl⟩
    | other ht hacc h hts =>
      intro d
      have hown := asks_served hi s hts d
      rw [asks, asks, List.filter_cons_of_neg (by simp [ht d])] at hown
      rw [Config.served_state, h]
      refine (hI d).frame (fun uid hu => ?_) hown
      rwa [State.registered, hacc]

def State.SignedOut (s : State UIImage) : Prop :=
  ∀ d, (s.auth d).currentUser = none ∧ (s.auth d).isSignedIn = false ∧ (s.auth d).isLoading = false

theorem pages_of_run {s0 : State UIImage} (h0 : s0.SignedOut) {ls : List (Label (Action UIImage) Env)}
    (hr : (app UIImage).run (.init s0) ls = some c) : Pages c := by
  refine System.invariant hr (fun d => ?_) fun c1 l c2 _ hI hs => hI.step hs
  obtain ⟨huser, hin, hl⟩ := h0 d
  refine ⟨.inl ⟨rfl, hl⟩, fun uid hu => ?_, fun h => ?_⟩
  · cases huser.symm.trans hu
  · cases hin.symm.trans h

end Run

/-- The spinner covers the page of a device exactly while one request to Auth is in flight, and a
device that is signed in has a registered account as its current user. -/
theorem auth_page {s0 : State UIImage} (h0 : s0.SignedOut) {ls : List (Label (Action UIImage) Env)}
    {c : Config (State UIImage) Task} (hr : (app UIImage).run (.init s0) ls = some c) (d : DeviceID) :
    (asks d c.tasks).length = (if (c.state.auth d).isLoading then 1 else 0) ∧
      ((c.state.auth d).isSignedIn = true →
        ∃ uid, (c.state.auth d).currentUser = some uid ∧ c.state.registered uid) := by
  have hI := pages_of_run h0 hr d
  refine ⟨?_, fun hin => ?_⟩
  · rcases hI.request with ⟨hown, hl⟩ | ⟨t, hown, hl⟩
    · rw [hown, hl]; rfl
    · rw [hown, hl]; rfl
  · obtain ⟨uid, hu⟩ := Option.ne_none_iff_exists'.mp (hI.signedIn hin)
    exact ⟨uid, hu, hI.current uid hu⟩

theorem signedOut_new : (State.new Data).SignedOut := fun _ => ⟨rfl, rfl, rfl⟩

/-- Two hosts have signed up, the first one while the second one's page is still covered. -/
theorem signingUp_page : ∃ c,
    (app Data).run (.init (State.new Data)) (signUpTaps 0 "a@a.com" ++ signUpTaps 1 "b@b.com" ++
      [.serve 0 (drawing "A" 7)]) = some c ∧
      (asks 1 c.tasks).length = 1 ∧ ∃ uid, (c.state.auth 0).currentUser = some uid ∧ c.state.registered uid := by
  have h : ((app Data).run (.init (State.new Data)) (signUpTaps 0 "a@a.com" ++
      signUpTaps 1 "b@b.com" ++ [.serve 0 (drawing "A" 7)])).map
        (fun c => ((c.state.auth 1).isLoading, (c.state.auth 0).isSignedIn)) = some (true, true) := by
    decide
  obtain ⟨c, hr, hc⟩ := Option.map_eq_some_iff.mp h
  simp only [Prod.mk.injEq] at hc
  have hlen := (auth_page signedOut_new hr 1).1
  rw [hc.1] at hlen
  exact ⟨c, hr, hlen, (auth_page signedOut_new hr 0).2 hc.2⟩

end WeddApp
