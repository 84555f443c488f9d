import WeddApp.App.Successors
import WeddApp.Async.Origin

/-!
# SignUp.Steps

What one step does to the stores that a sign-up provisions. `SignUpStep` has one case per branch of
`createUser` and `generateUniqueID`, and one for every other step, which leaves these stores alone
(`SignUpFrame`). `serve_signUp` says that there are no other cases.
-/

namespace WeddApp

open Documents

/-- The completions of `generateUniqueID` with an ID, latest first. -/
def uniqueIDs (log : List Event) : List (UID × String) :=
  log.filterMap fun
    | .uniqueID uid id => some (uid, id)
    | _ => none

def createdUsers (log : List Event) : List (UID × String) :=
  log.filterMap fun
    | .userCreated uid weddingID => some (uid, weddingID)
    | _ => none

variable {UIImage : Type}

theorem usedID_inj {id id' : String} : usedID id = usedID id' ↔ id = id' := document_inj

theorem userDocument_inj {uid uid' : UID} : userDocument uid = userDocument uid' ↔ uid = uid' :=
  document_inj

theorem usedID_ne_userDocument {id : String} {uid : UID} : usedID id ≠ userDocument uid :=
  document_ne (by decide)

namespace State

def used (s : State UIImage) (id : String) : Prop := (s.firestore.lookup (usedID id)).isSome

def user (s : State UIImage) (uid : UID) : Option Document := s.firestore.lookup (userDocument uid)

instance (s : State UIImage) (id : String) : Decidable (s.used id) := by
  unfold used; infer_instance

end State

structure SignUpFrame (s s' : State UIImage) : Prop where
  accounts : s'.accounts = s.accounts
  used : ∀ id, s'.used id ↔ s.used id
  user : ∀ uid, s'.user uid = s.user uid
  uniqueIDs : uniqueIDs s'.log = uniqueIDs s.log
  createdUsers : createdUsers s'.log = createdUsers s.log

/-- The log gains nothing that a sign-up reports. -/
def Quiet (s s' : State UIImage) : Prop :=
  uniqueIDs s'.log = uniqueIDs s.log ∧ createdUsers s'.log = createdUsers s.log

theorem SignUpFrame.quiet {s s' : State UIImage} (h : SignUpFrame s s') : Quiet s s' :=
  ⟨h.uniqueIDs, h.createdUsers⟩

theorem frame_of_backend {s s' : State UIImage} (hb : s'.backend = s.backend) (hq : Quiet s s') :
    SignUpFrame s s' := by
  have hf : s'.firestore = s.firestore := congrArg Backend.firestore hb
  refine ⟨congrArg Backend.accounts hb, ?_, ?_, hq.1, hq.2⟩
  · intro id; rw [State.used, State.used, hf]
  · intro uid; rw [State.user, State.user, hf]

inductive SignUpStep (e : Env) (s : State UIImage) : Task → State UIImage → List Task → Prop where
  | account {d : DeviceID} {email password : String} {u : NewUser} {s' : State UIImage}
      (he : e.error = none) (hu : u.uid = e.newID) (hnew : ∀ a ∈ s.accounts, a.uid ≠ e.newID)
      (hacc : s'.accounts = ⟨email, password, e.newID⟩ :: s.accounts)
      (used : ∀ id, s'.used id ↔ s.used id) (user : ∀ uid, s'.user uid = s.user uid)
      (hq : Quiet s s') :
      SignUpStep e s (.authCreate d email password) s' [.idRead u (formatID e.random)]
  | readFailed {u : NewUser} {id : String} {s' : State UIImage} (he : e.error ≠ none)
      (hf : SignUpFrame s s') : SignUpStep e s (.idRead u id) s' []
  | readUsed {u : NewUser} {id : String} {s' : State UIImage} (he : e.error = none)
      (hid : s.used id) (hf : SignUpFrame s s') :
      SignUpStep e s (.idRead u id) s' [.idRead u (formatID e.random)]
  | readFree {u : NewUser} {id : String} {s' : State UIImage} (he : e.error = none)
      (hid : ¬ s.used id) (hf : SignUpFrame s s') : SignUpStep e s (.idRead u id) s' [.idWrite u id]
  | writeFailed {u : NewUser} {id : String} {s' : State UIImage} (he : e.error ≠ none)
      (hf : SignUpFrame s s') : SignUpStep e s (.idWrite u id) s' []
  | reserved {u : NewUser} {id : String} {s' : State UIImage} (he : e.error = none)
      (hacc : s'.accounts = s.accounts) (used : ∀ id', s'.used id' ↔ id' = id ∨ s.used id')
      (user : ∀ uid, s'.user uid = s.user uid)
      (ids : uniqueIDs s'.log = (u.uid, id) :: uniqueIDs s.log)
      (users : createdUsers s'.log = createdUsers s.log) :
      SignUpStep e s (.idWrite u id) s'
        [.userWrite u.uid ⟨u.email, u.userType, u.phoneNumber, id⟩]
  | userFailed {uid : UID} {user : User} {s' : State UIImage} (he : e.error ≠ none)
      (hf : SignUpFrame s s') : SignUpStep e s (.userWrite uid user) s' []
  | stored {uid : UID} {user : User} {s' : State UIImage} (he : e.error = none)
      (hacc : s'.accounts = s.accounts) (used : ∀ id, s'.used id ↔ s.used id)
      (user_self : s'.user uid = some user.toDictionary)
      (user_other : ∀ uid', uid' ≠ uid → s'.user uid' = s.user uid')
      (ids : uniqueIDs s'.log = uniqueIDs s.log)
      (users : createdUsers s'.log = (uid, user.weddingID) :: createdUsers s.log) :
      SignUpStep e s (.userWrite uid user) s' []
  | other {t : Task} {s' : State UIImage} {ts : List Task} (ht : t.newUser = none)
      (hf : SignUpFrame s s') (hts : ∀ u ∈ ts, u.newUser = none) : SignUpStep e s t s' ts

/-! ## Documents other than those of a sign-up -/

/-- Only `createUser` and `generateUniqueID` write in `UsedIDs` and `Users`. -/
theorem target_other {t : Task} (ht : t.newUser = none) (id : String) :
    t.target ≠ some (usedID id) ∧ t.target ≠ some (userDocument id) := by
  cases t with
  | idWrite | userWrite => simp [Task.newUser] at ht
  | weddingWrite id' data =>
    constructor
    · intro h
      exact document_ne (by decide) (Option.some.inj h)
    · intro h
      exact document_ne (by decide) (Option.some.inj h)
  | photoMerge p =>
    constructor
    · intro h
      exact photoDocument_ne (by decide) (by decide) (Option.some.inj h)
    · intro h
      exact photoDocument_ne (by decide) (by decide) (Option.some.inj h)
  | wishWrite w g wish =>
    constructor
    · intro h
      exact document_ne_subdocument (Option.some.inj h).symm
    · intro h
      exact document_ne_subdocument (Option.some.inj h).symm
  | authCreate | authSignIn | idRead | saveRead | saveMain | photoPut =>
    simp [Task.target]

/-! ## The cases of a step -/

theorem quiet_of_logs {s s' : State UIImage} (h : Logs (fun ev => ev.ofSignUp = false) s s') :
    Quiet s s' := by
  obtain ⟨new, hnew, hev⟩ := h
  rw [Quiet, hnew, uniqueIDs, uniqueIDs, createdUsers, createdUsers, List.filterMap_append,
    List.filterMap_append]
  constructor
  · rw [List.filterMap_eq_nil_iff.mpr, List.nil_append]
    intro ev hm
    have h := hev ev hm
    cases ev with
    | uniqueID => cases h
    | userCreated | imageUploaded | wishAlert | success | error => rfl
  · rw [List.filterMap_eq_nil_iff.mpr, List.nil_append]
    intro ev hm
    have h := hev ev hm
    cases ev with
    | userCreated => cases h
    | uniqueID | imageUploaded | wishAlert | success | error => rfl

theorem act_signUp {a : Action UIImage} {e : Env} {s s' : State UIImage} {ts : List Task}
    (h : act a e s = some (s', ts)) : SignUpFrame s s' ∧ ∀ u ∈ ts, u.newUser = none :=
  ⟨frame_of_backend (act_backend h) (quiet_of_logs (act_logs h)),
    fun u hu => Task.newUser_of_first (act_sends h u hu)⟩

variable [UIKit UIImage]

theorem serve_other_documents {t : Task} {e : Env} {s s' : State UIImage} {ts : List Task}
    (h : serve t e s = some (s', ts)) (ht : t.newUser = none) :
    (∀ id, s'.used id ↔ s.used id) ∧ ∀ uid, s'.user uid = s.user uid := by
  constructor
  · intro id
    rw [State.used, State.used, serve_lookup_ne h (.inl (target_other ht id).1)]
  · intro uid
    exact serve_lookup_ne h (.inl (target_other ht uid).2)

theorem serve_quiet {t : Task} {e : Env} {s s' : State UIImage} {ts : List Task}
    (h : serve t e s = some (s', ts)) (ht : t.newUser = none) : Quiet s s' := by
  obtain ⟨new, hnew, hev⟩ := serve_logs h
  exact quiet_of_logs ⟨new, hnew, fun ev hm => (hev ev hm).2 ht⟩

theorem serve_other_step {t : Task} {e : Env} {s s' : State UIImage} {ts : List Task}
    (h : serve t e s = some (s', ts)) (ht : t.newUser = none)
    (hne : ∀ d email password, t ≠ .authCreate d email password) : SignUpStep e s t s' ts := by
  obtain ⟨hu, hd⟩ := serve_other_documents h ht
  obtain ⟨hids, husers⟩ := serve_quiet h ht
  refine .other ht ⟨serve_same_accounts h hne, hu, hd, hids, husers⟩ fun u hu => ?_
  cases serve_sends h hu with
  | signUp ht' _ =>
    rcases ht' with ht' | ⟨d, email, password, he⟩
    · exact absurd ht ht'
    · exact absurd he (hne d email password)
  | main | wedding | put | merge => rfl

theorem serve_signUp {t : Task} {e : Env} {s s' : State UIImage} {ts : List Task}
    (h : serve t e s = some (s', ts)) : SignUpStep e s t s' ts := by
  have hb := serve_backend h
  cases t with
  | authCreate d email password =>
    obtain ⟨hu, hd⟩ := serve_other_documents h rfl
    have hq := serve_quiet h rfl
    simp only [serve] at h
    split at h
    · rename_i m he
      obtain ⟨rfl, rfl⟩ := served_eq h
      rw [commit_failed _ (by simp [he])] at hb
      exact .other rfl ⟨congrArg Backend.accounts hb, hu, hd, hq.1, hq.2⟩ (List.forall_mem_nil _)
    · rename_i he
      split at h
      · cases h
      · rename_i s1 hc
        obtain ⟨rfl, rfl⟩ := served_eq h
        obtain ⟨hnew, hacc, _, _, _, hcur⟩ := Auth.createUser_spec hc
        have hts : (SignUpView.onSignUp d none e.random s1).2 =
            [.idRead ⟨e.newID, (s1.device d).page.email, "Customer",
              (s1.device d).page.regionCode ++ (s1.device d).page.phoneNumber⟩
              (formatID e.random)] := by
          simp [SignUpView.onSignUp, createUser, generateUniqueID, hcur]
        rw [hts]
        exact .account he rfl hnew hacc hu hd hq
  | idRead u id =>
    cases he : e.error with
    | some m =>
      rw [commit_failed _ (by simp [he])] at hb
      simp only [serve, he] at h
      obtain ⟨rfl, rfl⟩ := served_eq h
      exact .readFailed (by simp [he]) (frame_of_backend hb ⟨rfl, rfl⟩)
    | none =>
      have hr : s.getDocument (usedID id) none = .ok (s.firestore.lookup (usedID id)) := rfl
      simp only [Task.commit, he] at hb
      simp only [serve, he, hr] at h
      cases hl : s.firestore.lookup (usedID id) with
      | some doc =>
        have hid : s.used id := by rw [State.used, hl]; rfl
        rw [hl] at h
        obtain ⟨rfl, rfl⟩ := served_eq h
        exact .readUsed he hid (frame_of_backend hb ⟨rfl, rfl⟩)
      | none =>
        have hid : ¬ s.used id := by rw [State.used, hl]; simp
        rw [hl] at h
        obtain ⟨rfl, rfl⟩ := served_eq h
        exact .readFree he hid (frame_of_backend hb ⟨rfl, rfl⟩)
  | idWrite u id =>
    cases he : e.error with
    | some m =>
      rw [commit_failed _ (by simp [he])] at hb
      simp only [serve, he] at h
      obtain ⟨rfl, rfl⟩ := served_eq h
      exact .writeFailed (by simp [he]) (frame_of_backend hb ⟨rfl, rfl⟩)
    | none =>
      have hf := serve_firestore h
      have hacc := serve_accounts h
      simp only [Task.commit, he] at hf hacc
      simp only [serve, he] at h
      obtain ⟨rfl, rfl⟩ := served_eq h
      refine .reserved he hacc ?_ ?_ rfl rfl
      · intro id'
        rw [State.used, State.used, hf, lookup_set]
        by_cases hid : id' = id
        · simp [hid]
        · rw [if_neg (fun heq => hid (usedID_inj.mp heq))]
          simp [hid, State.backend]
      · intro uid
        rw [State.user, State.user, hf, lookup_set, if_neg (usedID_ne_userDocument).symm]
        rfl
  | userWrite uid user =>
    cases he : e.error with
    | some m =>
      rw [commit_failed _ (by simp [he])] at hb
      simp only [serve, he] at h
      obtain ⟨rfl, rfl⟩ := served_eq h
      exact .userFailed (by simp [he]) (frame_of_backend hb ⟨rfl, rfl⟩)
    | none =>
      have hf := serve_firestore h
      have hacc := serve_accounts h
      simp only [Task.commit, he] at hf hacc
      simp only [serve, he] at h
      obtain ⟨rfl, rfl⟩ := served_eq h
      refine .stored he hacc ?_ ?_ ?_ rfl rfl
      · intro id
        rw [State.used, State.used, hf, lookup_set, if_neg usedID_ne_userDocument]
        rfl
      · rw [State.user, hf, lookup_set, if_pos rfl]
      · intro uid' hne
        rw [State.user, State.user, hf, lookup_set, if_neg (fun heq => hne (userDocument_inj.mp heq))]
        rfl
  | authSignIn | saveRead | saveMain | weddingWrite | photoPut | photoMerge | wishWrite =>
    exact serve_other_step h rfl (fun _ _ _ hne => by cases hne)

end WeddApp
