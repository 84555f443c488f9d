import WeddApp.App.Successors
import WeddApp.Async.Origin

/-!
# Wish.Steps

What one step does to the wishes: the documents under `Guests`, the guest IDs that devices keep in
`UserDefaults`, and the alerts shown. `act_wish` and `serve_wish` split a step into the cases that
touch them and the others (`WishFrame`).
-/

namespace WeddApp

open Documents

variable {UIImage : Type}

/-- The success alerts shown, latest first: device, wedding and guest ID. -/
def alerts (log : List Event) : List (DeviceID × String × String) :=
  log.filterMap fun
    | .wishAlert d weddingID guestID => some (d, weddingID, guestID)
    | _ => none

def Task.wish : Task → Option (String × String)
  | .wishWrite weddingID guestID _ => some (weddingID, guestID)
  | _ => none

namespace State

def wishDocument (s : State UIImage) (weddingID guestID : String) : Option Document :=
  s.firestore.lookup (guestDocument weddingID guestID)

def guestID (s : State UIImage) (d : DeviceID) (weddingID : String) : Option String :=
  (s.device d).defaults.lookup (guestIDKey weddingID)

end State

structure WishFrame (s s' : State UIImage) : Prop where
  wishes : ∀ w g, s'.wishDocument w g = s.wishDocument w g
  guestID : ∀ d w, s'.guestID d w = s.guestID d w
  alerts : alerts s'.log = alerts s.log

inductive WishAct (e : Env) (s : State UIImage) : Action UIImage → State UIImage → List Task → Prop where
  | submit {d : DeviceID} {weddingID guestName wish : String} {date : Date} {s' : State UIImage}
      (hnone : s.guestID d weddingID = none)
      (wishes : ∀ w g, s'.wishDocument w g = s.wishDocument w g)
      (guestID : ∀ d' w, s'.guestID d' w =
        if d' = d ∧ w = weddingID then some e.newID else s.guestID d' w)
      (alerts : alerts s'.log = (d, weddingID, e.newID) :: alerts s.log) :
      WishAct e s (.tapSubmit d weddingID guestName wish date) s'
        [.wishWrite weddingID e.newID (Wish.init guestName wish date).toDictionary]
  | other {a : Action UIImage} {s' : State UIImage} {ts : List Task} (hf : WishFrame s s')
      (hts : ∀ u ∈ ts, u.wish = none) : WishAct e s a s' ts

inductive WishServe (e : Env) (s : State UIImage) : Task → State UIImage → Prop where
  | stored {weddingID id : String} {wish : Document} {s' : State UIImage} (he : e.error = none)
      (wishes : ∀ w g, s'.wishDocument w g =
        if w = weddingID ∧ g = id then some wish else s.wishDocument w g)
      (guestID : ∀ d w, s'.guestID d w = s.guestID d w) (alerts : alerts s'.log = alerts s.log) :
      WishServe e s (.wishWrite weddingID id wish) s'
  | failed {weddingID id : String} {wish : Document} {s' : State UIImage} (he : e.error ≠ none)
      (hf : WishFrame s s') : WishServe e s (.wishWrite weddingID id wish) s'
  | other {t : Task} {s' : State UIImage} (ht : t.wish = none) (hf : WishFrame s s') :
      WishServe e s t s'

theorem guestIDKey_inj {w w' : String} : guestIDKey w = guestIDKey w' ↔ w = w' := by
  constructor
  · intro h; exact Text.append_left_injective h
  · rintro rfl; rfl

theorem alerts_of_logs {s s' : State UIImage} (h : Logs (fun ev => ev.ofWish = false) s s') :
    alerts s'.log = alerts s.log := by
  obtain ⟨new, hnew, hev⟩ := h
  rw [hnew, alerts, alerts, List.filterMap_append, List.filterMap_eq_nil_iff.mpr, List.nil_append]
  intro ev hm
  have h := hev ev hm
  cases ev with
  | wishAlert => cases h
  | uniqueID | userCreated | imageUploaded | success | error => rfl

/-! ## Who writes `UserDefaults` -/

def SameDefaults (s s' : State UIImage) : Prop :=
  ∀ d, (s'.device d).defaults = (s.device d).defaults

theorem sameDefaults_of_device {s s' : State UIImage} (h : s'.device = s.device) :
    SameDefaults s s' := by
  intro d; rw [h]

theorem SameDefaults.trans {s s' s'' : State UIImage} (h : SameDefaults s s')
    (h' : SameDefaults s' s'') : SameDefaults s s'' := by
  intro d; rw [h' d, h d]

theorem onDevice_defaults {s s' : State UIImage} {d : DeviceID} {v : Device UIImage}
    (h : s'.device = Function.update s.device d v) (hv : v.defaults = (s.device d).defaults) :
    SameDefaults s s' := by
  intro d'
  rw [h]
  by_cases hd : d' = d
  · subst hd; rw [Function.update_self, hv]
  · rw [Function.update_of_ne hd]

theorem alert_defaults (d : DeviceID) (message : String) (s : State UIImage) :
    SameDefaults s (alert d message s) := onDevice_defaults rfl rfl

theorem onSignUp_defaults (d : DeviceID) (error : Option NSError) (random : Fin 10000)
    (s : State UIImage) : SameDefaults s (SignUpView.onSignUp d error random s).1 := by
  unfold SignUpView.onSignUp
  split
  · refine SameDefaults.trans ?_ (alert_defaults d _ _)
    exact onDevice_defaults rfl rfl
  · exact onDevice_defaults rfl rfl

theorem onSignIn_defaults (d : DeviceID) (error : Option NSError) (s : State UIImage) :
    SameDefaults s (SignInView.onSignIn d error s) := by
  unfold SignInView.onSignIn
  split
  · refine SameDefaults.trans ?_ (alert_defaults d _ _)
    exact onDevice_defaults rfl rfl
  · exact onDevice_defaults rfl rfl

theorem createUser_defaults {d : DeviceID} {email password : String} {uid : UID}
    {s s' : State UIImage} (h : Auth.createUser d email password uid s = some s') :
    SameDefaults s s' := by
  unfold Auth.createUser at h
  split at h
  · cases h
  · cases h; exact onDevice_defaults rfl rfl

theorem signIn_defaults {d : DeviceID} {email password : String} {s s' : State UIImage}
    (h : Auth.signIn d email password s = some s') : SameDefaults s s' := by
  unfold Auth.signIn at h
  split at h
  · cases h
  · cases h; exact onDevice_defaults rfl rfl

/-- A tap other than on Submit. -/
structure TapFrame (s s' : State UIImage) (ts : List Task) : Prop where
  defaults : SameDefaults s s'
  log : s'.log = s.log
  tasks : ∀ u ∈ ts, u.wish = none

theorem tapFrame_alert (d : DeviceID) (message : String) (s : State UIImage) :
    TapFrame s (alert d message s) [] := ⟨alert_defaults d message s, rfl, List.forall_mem_nil _⟩

theorem tapFrame_one {s s' : State UIImage} {t : Task} (h : SameDefaults s s')
    (hl : s'.log = s.log) (ht : t.wish = none) : TapFrame s s' [t] := by
  refine ⟨h, hl, fun u hu => ?_⟩
  rw [List.mem_singleton.mp hu]; exact ht

theorem tapSignIn_frame (d : DeviceID) (s : State UIImage) :
    TapFrame s (SignInView.tapSignIn d s).1 (SignInView.tapSignIn d s).2 := by
  simp only [SignInView.tapSignIn]
  split
  · exact tapFrame_alert d _ s
  split
  · exact tapFrame_alert d _ s
  · exact tapFrame_one (onDevice_defaults rfl rfl) rfl rfl

theorem tapSignUp_frame (d : DeviceID) (s : State UIImage) :
    TapFrame s (SignUpView.tapSignUp d s).1 (SignUpView.tapSignUp d s).2 := by
  simp only [SignUpView.tapSignUp]
  split
  · exact tapFrame_alert d _ s
  split
  · exact tapFrame_alert d _ s
  split
  · exact tapFrame_alert d _ s
  · exact tapFrame_one (onDevice_defaults rfl rfl) rfl rfl

theorem tapSave_frame (d : DeviceID) (currentUser : Option UID) (s : State UIImage) :
    TapFrame s s (getWeddingIDFromUser d currentUser) := by
  unfold getWeddingIDFromUser
  split
  · exact tapFrame_one (sameDefaults_of_device rfl) rfl rfl
  · exact ⟨sameDefaults_of_device rfl, rfl, List.forall_mem_nil _⟩

/-- Only a tap on Submit writes `UserDefaults`, logs, and sends wishes. -/
theorem act_frame {a : Action UIImage} {e : Env} {s s' : State UIImage} {ts : List Task}
    (h : act a e s = some (s', ts))
    (ha : ∀ d weddingID guestName wish date, a ≠ .tapSubmit d weddingID guestName wish date) :
    TapFrame s s' ts := by
  cases a with
  | editAuth d page => cases h; exact ⟨onDevice_defaults rfl rfl, rfl, List.forall_mem_nil _⟩
  | tapSignIn d =>
    simp only [act] at h
    split at h
    · cases h
    · obtain ⟨rfl, rfl⟩ := served_eq h; exact tapSignIn_frame d s
  | tapSignUp d =>
    simp only [act] at h
    split at h
    · cases h
    · obtain ⟨rfl, rfl⟩ := served_eq h; exact tapSignUp_frame d s
  | editForm d form => cases h; exact ⟨onDevice_defaults rfl rfl, rfl, List.forall_mem_nil _⟩
  | tapSave d =>
    simp only [act] at h
    split at h
    · obtain ⟨rfl, rfl⟩ := served_eq h; exact tapSave_frame d _ _
    · cases h
  | tapSubmit d weddingID guestName wish date => exact absurd rfl (ha d weddingID guestName wish date)

variable [UIKit UIImage]

theorem onWeddingID_device (d : DeviceID) (id : Option String) (error : Option NSError)
    (uuid : Nat → String) (s : State UIImage) :
    (FormScreen.onWeddingID d id error uuid s).1.device = s.device := by
  unfold FormScreen.onWeddingID
  split <;> rfl

theorem serve_defaults {t : Task} {e : Env} {s s' : State UIImage} {ts : List Task}
    (h : serve t e s = some (s', ts)) : SameDefaults s s' := by
  obtain ⟨error, newID, random, uuid⟩ := e
  cases t with
  | authCreate d email password =>
    simp only [serve] at h
    split at h
    · obtain ⟨rfl, _⟩ := served_eq h; exact onSignUp_defaults d _ random s
    · split at h
      · cases h
      · rename_i s1 hc
        obtain ⟨rfl, _⟩ := served_eq h
        exact (createUser_defaults hc).trans (onSignUp_defaults d _ random s1)
  | authSignIn d email password =>
    simp only [serve] at h
    split at h
    · rename_i m; cases h; exact onSignIn_defaults d (some m) s
    · split at h
      · cases h
      · rename_i s1 hc
        cases h
        exact (signIn_defaults hc).trans (onSignIn_defaults d none s1)
  | idRead u id =>
    obtain ⟨rfl, _⟩ := served_eq h
    refine sameDefaults_of_device ?_
    unfold generateUniqueID.onRead createUser.onUniqueID
    split <;> rfl
  | idWrite u id =>
    obtain ⟨rfl, _⟩ := served_eq h
    refine sameDefaults_of_device ?_
    cases error <;> rfl
  | userWrite uid user =>
    obtain ⟨rfl, _⟩ := served_eq h
    refine sameDefaults_of_device ?_
    cases error <;> rfl
  | saveRead d uid =>
    simp only [serve] at h
    split at h
    · obtain ⟨rfl, _⟩ := served_eq h; exact sameDefaults_of_device (onWeddingID_device ..)
    · obtain ⟨rfl, _⟩ := served_eq h; exact sameDefaults_of_device rfl
  | saveMain d id error' =>
    obtain ⟨rfl, _⟩ := served_eq h; exact sameDefaults_of_device (onWeddingID_device ..)
  | weddingWrite | photoPut | photoMerge | wishWrite =>
    obtain ⟨rfl, _⟩ := served_eq h
    refine sameDefaults_of_device ?_
    cases error <;> rfl

/-! ## The cases of a step -/

omit [UIKit UIImage] in
theorem SameDefaults.guestID {s s' : State UIImage} (h : SameDefaults s s') (d : DeviceID)
    (w : String) : s'.guestID d w = s.guestID d w := by
  rw [State.guestID, State.guestID, h d]

omit [UIKit UIImage] in
theorem uploadWish_guestID (d d' : DeviceID) (weddingID guestID w : String) (wish : Wish)
    (s : State UIImage) : (uploadWish d weddingID guestID wish s).1.guestID d' w =
      if d' = d ∧ w = weddingID then some guestID else s.guestID d' w := by
  by_cases hd : d' = d
  · subst hd
    by_cases hw : w = weddingID
    · subst hw
      rw [if_pos ⟨rfl, rfl⟩]
      simp [State.guestID, uploadWish]
    · rw [if_neg (fun h => hw h.2)]
      have hk : guestIDKey w ≠ guestIDKey weddingID := fun h => hw (guestIDKey_inj.mp h)
      simp [State.guestID, uploadWish, AList.lookup_insert_ne hk]
  · rw [if_neg (fun h => hd h.1)]
    simp only [State.guestID, uploadWish, State.onDevice_ne s d d' _ hd]

omit [UIKit UIImage] in
/-- A wish is sent by a tap on Submit for a wedding that the device has no guest ID for. -/
theorem act_wish {a : Action UIImage} {e : Env} {s s' : State UIImage} {ts : List Task}
    (h : act a e s = some (s', ts)) : WishAct e s a s' ts := by
  have hw : ∀ w g, s'.wishDocument w g = s.wishDocument w g := by
    intro w g; rw [State.wishDocument, State.wishDocument, act_firestore h]
  have hother (hf : TapFrame s s' ts) : WishAct e s a s' ts :=
    .other ⟨hw, hf.defaults.guestID, by rw [hf.log]⟩ hf.tasks
  cases a with
  | editAuth | tapSignIn | tapSignUp | editForm | tapSave =>
    exact hother (act_frame h (fun _ _ _ _ _ ha => by cases ha))
  | tapSubmit d weddingID guestName wish date =>
    simp only [act] at h
    split at h
    · cases h
    · obtain ⟨rfl, rfl⟩ := served_eq h
      unfold WishPage.tapOnSubmit at hw ⊢
      split at hw
      · exact .other ⟨hw, fun _ _ => rfl, rfl⟩ (List.forall_mem_nil _)
      · rename_i hnone
        refine .submit hnone hw ?_ rfl
        intro d' w
        exact uploadWish_guestID d d' weddingID e.newID w (Wish.init guestName wish date) s

theorem serve_wish {t : Task} {e : Env} {s s' : State UIImage} {ts : List Task}
    (h : serve t e s = some (s', ts)) : WishServe e s t s' ∧ ∀ u ∈ ts, u.wish = none := by
  have hd := (serve_defaults h).guestID
  obtain ⟨new, hnew, hev⟩ := serve_logs h
  have hl : alerts s'.log = alerts s.log :=
    alerts_of_logs ⟨new, hnew, fun ev hm => (hev ev hm).1⟩
  have hts : ∀ u ∈ ts, u.wish = none := by
    intro u hu
    cases serve_sends h hu with
    | signUp _ hu =>
      cases u with
      | wishWrite => exact absurd rfl hu
      | authCreate | authSignIn | idRead | idWrite | userWrite | saveRead | saveMain | weddingWrite
      | photoPut | photoMerge => rfl
    | main | wedding | put _ | merge _ => rfl
  refine ⟨?_, hts⟩
  cases ht : t.wish with
  | none =>
    refine .other ht ⟨fun w g => serve_lookup_ne h (.inl fun htarget => ?_), hd, hl⟩
    obtain ⟨wish, rfl⟩ := wishWrite_of_target htarget
    cases ht
  | some x =>
    cases t with
    | wishWrite weddingID id wish =>
      cases he : e.error with
      | none =>
        refine .stored he ?_ hd hl
        intro w g
        rw [State.wishDocument, serve_firestore h]
        simp only [Task.commit, he]
        refine (lookup_set ..).trans ?_
        simp only [guestDocument_inj]
        rfl
      | some m =>
        have he : e.error ≠ none := by simp [he]
        exact .failed he ⟨fun w g => serve_lookup_ne h (.inr he), hd, hl⟩
    | authCreate | authSignIn | idRead | idWrite | userWrite | saveRead | saveMain | weddingWrite
    | photoPut | photoMerge => cases ht

end WeddApp
