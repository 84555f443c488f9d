import WeddApp.App.Backend
import WeddApp.App.Uploads

/-!
# App.Successors

Which requests lead to which. A tap sends one of the four requests that start a chain
(`act_tapSends`); what a callback sends is one of the cases of `Sends` (`serve_sends`).
-/

namespace WeddApp

variable {UIImage : Type}

/-- The requests that taps send. -/
def Task.isFirst : Task → Bool
  | .authCreate _ _ _ | .authSignIn _ _ _ | .saveRead _ _ | .wishWrite _ _ _ => true
  | _ => false

theorem Task.newUser_of_first {t : Task} (h : t.isFirst = true) : t.newUser = none := by
  cases t with
  | idRead | idWrite | userWrite => cases h
  | authCreate | authSignIn | saveRead | saveMain | weddingWrite | photoPut | photoMerge
  | wishWrite => rfl

/-- A tap in `s` sends a request. Signing in and up ask Auth only after the check of the email. -/
inductive TapSends (e : Env) (s : State UIImage) : Action UIImage → Task → Prop where
  | signIn {d : DeviceID} (hvalid : isValidEmail (s.device d).page.email = true) :
      TapSends e s (.tapSignIn d)
        (.authSignIn d (s.device d).page.email (s.device d).page.password)
  | signUp {d : DeviceID} (hvalid : isValidEmail (s.device d).page.email = true) :
      TapSends e s (.tapSignUp d)
        (.authCreate d (s.device d).page.email (s.device d).page.password)
  | save {d : DeviceID} {uid : UID} (huid : (s.device d).currentUser = some uid) :
      TapSends e s (.tapSave d) (.saveRead d uid)
  | submit {d : DeviceID} {w guestName wish : String} {date : Date} :
      TapSends e s (.tapSubmit d w guestName wish date)
        (.wishWrite w e.newID (Wish.init guestName wish date).toDictionary)

theorem act_tapSends {a : Action UIImage} {e : Env} {s s' : State UIImage} {ts : List Task}
    (h : act a e s = some (s', ts)) {u : Task} (hu : u ∈ ts) : TapSends e s a u := by
  cases a with
  | editAuth d page => cases h; cases hu
  | tapSignIn d =>
    simp only [act] at h
    split at h
    · cases h
    · obtain ⟨_, rfl⟩ := served_eq h
      simp only [SignInView.tapSignIn] at hu
      split at hu
      · cases hu
      · rename_i hvalid
        split at hu
        · cases hu
        · rw [List.mem_singleton.mp hu]
          exact .signIn (by simpa using hvalid)
  | tapSignUp d =>
    simp only [act] at h
    split at h
    · cases h
    · obtain ⟨_, rfl⟩ := served_eq h
      simp only [SignUpView.tapSignUp] at hu
      split at hu
      · cases hu
      · rename_i hvalid
        split at hu
        · cases hu
        split at hu
        · cases hu
        · rw [List.mem_singleton.mp hu]
          exact .signUp (by simpa using hvalid)
  | editForm d form => cases h; cases hu
  | tapSave d =>
    simp only [act] at h
    split at h
    · obtain ⟨_, rfl⟩ := served_eq h
      unfold getWeddingIDFromUser at hu
      split at hu
      · rename_i huid
        rw [List.mem_singleton.mp hu]
        exact .save huid
      · cases hu
    · cases h
  | tapSubmit d weddingID guestName wish date =>
    simp only [act] at h
    split at h
    · cases h
    · obtain ⟨_, rfl⟩ := served_eq h
      unfold WishPage.tapOnSubmit at hu
      split at hu
      · cases hu
      · rw [List.mem_singleton.mp hu]
        exact .submit

theorem act_sends {a : Action UIImage} {e : Env} {s s' : State UIImage} {ts : List Task}
    (h : act a e s = some (s', ts)) : ∀ u ∈ ts, u.isFirst = true := by
  intro u hu
  cases act_tapSends h hu with
  | signIn | signUp | save | submit => rfl

variable [UIKit UIImage]

/-- A callback that ran in `s` sent a request. -/
inductive Sends (e : Env) (s : State UIImage) : Task → Task → Prop where
  | signUp {t u : Task}
      (ht : t.newUser ≠ none ∨ ∃ d email password, t = .authCreate d email password)
      (hu : u.newUser ≠ none) : Sends e s t u
  | main {d : DeviceID} {uid : UID} {id : Option String} {error : Option NSError} :
      Sends e s (.saveRead d uid) (.saveMain d id error)
  | wedding {d : DeviceID} {id : String} :
      Sends e s (.saveMain d (some id) none)
        (.weddingWrite id ((s.device d).form.wedding id).toDictionary)
  | put {d : DeviceID} {id : String} {p : Photo} (hp : p ∈ (s.device d).form.photos id e.uuid) :
      Sends e s (.saveMain d (some id) none) (.photoPut p)
  | merge {p : Photo} (he : e.error = none) : Sends e s (.photoPut p) (.photoMerge p)

theorem onDocument_now {reply : Except NSError (Option Document)} {id : Option String}
    {error : Option NSError} (h : getWeddingIDFromUser.onDocument reply = .now (id, error)) :
    id = none := by
  unfold getWeddingIDFromUser.onDocument at h
  split at h
  · cases h; rfl
  · split at h
    · cases h
    · cases h; rfl
  · cases h; rfl

theorem serve_sends {t u : Task} {e : Env} {s s' : State UIImage} {ts : List Task}
    (h : serve t e s = some (s', ts)) (hu : u ∈ ts) : Sends e s t u := by
  cases t with
  | authCreate d email password =>
    simp only [serve] at h
    split at h
    · obtain ⟨_, rfl⟩ := served_eq h; cases hu
    · split at h
      · cases h
      · obtain ⟨_, rfl⟩ := served_eq h
        simp only [SignUpView.onSignUp, createUser] at hu
        split at hu
        · rw [List.mem_singleton.mp hu]
          exact .signUp (.inr ⟨d, email, password, rfl⟩) (Option.some_ne_none _)
        · cases hu
  | authSignIn d email password =>
    simp only [serve] at h
    split at h
    · obtain ⟨_, rfl⟩ := served_eq h; cases hu
    · split at h
      · cases h
      · obtain ⟨_, rfl⟩ := served_eq h; cases hu
  | idRead v id =>
    obtain ⟨_, rfl⟩ := served_eq h
    unfold generateUniqueID.onRead at hu
    split at hu
    · cases hu
    · rw [List.mem_singleton.mp hu]
      exact .signUp (.inl (Option.some_ne_none _)) (Option.some_ne_none _)
    · rw [List.mem_singleton.mp hu]
      exact .signUp (.inl (Option.some_ne_none _)) (Option.some_ne_none _)
  | idWrite v id =>
    obtain ⟨_, rfl⟩ := served_eq h
    unfold generateUniqueID.onWrite at hu
    split at hu
    · cases hu
    · rw [List.mem_singleton.mp hu]
      exact .signUp (.inl (Option.some_ne_none _)) (Option.some_ne_none _)
  | userWrite uid user => obtain ⟨_, rfl⟩ := served_eq h; cases hu
  | saveRead d uid =>
    simp only [serve] at h
    split at h
    · rename_i id error hid
      obtain ⟨_, rfl⟩ := served_eq h
      have hnone := onDocument_now hid
      subst hnone
      rw [onWeddingID_tasks] at hu
      split at hu
      · rename_i h2 _; cases h2
      · cases hu
    · obtain ⟨_, rfl⟩ := served_eq h
      rw [List.mem_singleton.mp hu]; exact .main
  | saveMain d id error =>
    obtain ⟨_, rfl⟩ := served_eq h
    rw [onWeddingID_tasks] at hu
    split at hu
    · rcases List.mem_cons.mp hu with rfl | hu
      · exact .wedding
      · obtain ⟨p, rfl, hp⟩ := mem_uploadPhotos.mp hu
        exact .put (mem_photos_iff.mpr hp)
    · cases hu
  | weddingWrite id data => obtain ⟨_, rfl⟩ := served_eq h; cases hu
  | photoPut p =>
    obtain ⟨_, rfl⟩ := served_eq h
    unfold uploadPhoto.onUpload at hu
    split at hu
    · cases hu
    · rename_i he
      rw [List.mem_singleton.mp hu]; exact .merge he
  | photoMerge p => obtain ⟨_, rfl⟩ := served_eq h; cases hu
  | wishWrite weddingID guestID wish => obtain ⟨_, rfl⟩ := served_eq h; cases hu

end WeddApp
