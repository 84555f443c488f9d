import WeddApp.App.Step

/-!
# App.Backend

What a step does to the backend. Callbacks and taps never touch it; a request that is answered
without an error is applied as it stands, a request that fails is not (`Task.commit`,
`serve_backend`). The log only grows, by the
events that `act_logs` and `serve_logs` allow.
-/

namespace WeddApp

open Documents

variable {UIImage : Type}

/-- The account that a request of `createUser` is made for. -/
def Task.newUser : Task → Option UID
  | .idRead u _ => some u.uid
  | .idWrite u _ => some u.uid
  | .userWrite uid _ => some uid
  | _ => none

def Event.ofSignUp : Event → Bool
  | .uniqueID _ _ | .userCreated _ _ => true
  | _ => false

def Event.ofWish : Event → Bool
  | .wishAlert _ _ _ => true
  | _ => false

def photoDocument (isGallery : Bool) (id : String) : DocumentReference :=
  if isGallery then document "Gallery" id else document "Images" id

theorem Photo.reference_eq (p : Photo) : p.reference = photoDocument p.isGallery p.weddingID := rfl

theorem photoDocument_inj {g g' : Bool} {id id' : String} :
    photoDocument g id = photoDocument g' id' ↔ g = g' ∧ id = id' := by
  cases g with
  | true => cases g' <;> simp [photoDocument, document]
  | false => cases g' <;> simp [photoDocument, document]

theorem photoDocument_ne {g : Bool} {c id id' : String} (hg : c ≠ "Gallery") (hi : c ≠ "Images") :
    photoDocument g id ≠ document c id' := by
  cases g with
  | true => exact document_ne hg.symm
  | false => exact document_ne hi.symm

theorem photoDocument_ne_subdocument {g : Bool} {id c1 id1 c2 id2 : String} :
    photoDocument g id ≠ subdocument c1 id1 c2 id2 := by
  cases g <;> exact document_ne_subdocument

structure Backend where
  accounts : List Account
  firestore : Firestore
  storage : Storage

def State.backend (s : State UIImage) : Backend := ⟨s.accounts, s.firestore, s.storage⟩

theorem served_eq {p : State UIImage × List Task} {s' : State UIImage} {ts : List Task}
    (h : some p = some (s', ts)) : s' = p.1 ∧ ts = p.2 := by
  cases h; exact ⟨rfl, rfl⟩

theorem setData_log (s : State UIImage) (r : DocumentReference) (data : Document)
    (error : Option NSError) : (s.setData r data error).log = s.log := by
  cases error <;> rfl

theorem mergeData_log (s : State UIImage) (r : DocumentReference) (data : Document)
    (error : Option NSError) : (s.mergeData r data error).log = s.log := by
  cases error <;> rfl

theorem putData_log (s : State UIImage) (path : String) (data : Data) (error : Option NSError) :
    (s.putData path data error).log = s.log := by
  cases error <;> rfl

theorem onUniqueID_backend (u : NewUser) (id : Option String) (error : Option NSError)
    (s : State UIImage) : (createUser.onUniqueID u id error s).1.backend = s.backend := by
  unfold createUser.onUniqueID
  split <;> rfl

theorem onRead_backend (u : NewUser) (id : String) (reply : Except NSError (Option Document))
    (random : Fin 10000) (s : State UIImage) :
    (generateUniqueID.onRead u id reply random s).1.backend = s.backend := by
  unfold generateUniqueID.onRead
  split
  · exact onUniqueID_backend ..
  · rfl
  · rfl

theorem onIDWrite_backend (u : NewUser) (id : String) (error : Option NSError)
    (s : State UIImage) : (generateUniqueID.onWrite u id error s).1.backend = s.backend := by
  unfold generateUniqueID.onWrite
  split <;> exact onUniqueID_backend ..

theorem onUserWrite_backend (uid : UID) (user : User) (error : Option NSError)
    (s : State UIImage) : (createUser.onWrite uid user error s).backend = s.backend := by
  unfold createUser.onWrite
  split <;> rfl

theorem onSignUp_backend (d : DeviceID) (error : Option NSError) (random : Fin 10000)
    (s : State UIImage) : (SignUpView.onSignUp d error random s).1.backend = s.backend := by
  unfold SignUpView.onSignUp
  split <;> rfl

theorem onSignIn_backend (d : DeviceID) (error : Option NSError) (s : State UIImage) :
    (SignInView.onSignIn d error s).backend = s.backend := by
  unfold SignInView.onSignIn
  split <;> rfl

theorem onWeddingWrite_backend (error : Option NSError) (s : State UIImage) :
    (uploadWedding.onWrite error s).backend = s.backend := by
  unfold uploadWedding.onWrite
  split <;> rfl

theorem onUpload_backend (p : Photo) (error : Option NSError) (s : State UIImage) :
    (uploadPhoto.onUpload p error s).1.backend = s.backend := by
  unfold uploadPhoto.onUpload
  split <;> rfl

theorem onMerge_backend (error : Option NSError) (s : State UIImage) :
    (uploadPhoto.onMerge error s).backend = s.backend := by
  unfold uploadPhoto.onMerge
  split <;> rfl

theorem onWishWrite_backend (error : Option NSError) (s : State UIImage) :
    (uploadWish.onWrite error s).backend = s.backend := by
  unfold uploadWish.onWrite
  split <;> rfl

theorem tapSignUp_backend (d : DeviceID) (s : State UIImage) :
    (SignUpView.tapSignUp d s).1.backend = s.backend := by
  simp only [SignUpView.tapSignUp]
  split
  · rfl
  split
  · rfl
  split <;> rfl

theorem tapSignIn_backend (d : DeviceID) (s : State UIImage) :
    (SignInView.tapSignIn d s).1.backend = s.backend := by
  simp only [SignInView.tapSignIn]
  split
  · rfl
  split <;> rfl

theorem tapOnSubmit_backend (d : DeviceID) (weddingID guestName wish : String) (date : Date)
    (guestID : String) (s : State UIImage) :
    (WishPage.tapOnSubmit d weddingID guestName wish date guestID s).1.backend = s.backend := by
  unfold WishPage.tapOnSubmit
  split <;> rfl

theorem Auth.signIn_backend {d : DeviceID} {email password : String} {s s' : State UIImage}
    (h : Auth.signIn d email password s = some s') : s'.backend = s.backend := by
  unfold Auth.signIn at h
  split at h
  · cases h
  · cases h; rfl

theorem Auth.createUser_spec {d : DeviceID} {email password : String} {uid : UID}
    {s s' : State UIImage} (h : Auth.createUser d email password uid s = some s') :
    (∀ a ∈ s.accounts, a.uid ≠ uid) ∧ s'.accounts = ⟨email, password, uid⟩ :: s.accounts ∧
      s'.firestore = s.firestore ∧ s'.storage = s.storage ∧ s'.log = s.log ∧
      (s'.device d).currentUser = some uid := by
  unfold Auth.createUser at h
  split at h
  · cases h
  · rename_i hany
    cases h
    refine ⟨?_, rfl, rfl, rfl, rfl, by simp⟩
    intro a ha hu
    exact hany (List.any_eq_true.mpr ⟨a, ha, by simp [hu]⟩)

variable [UIKit UIImage]

theorem onWeddingID_backend (d : DeviceID) (id : Option String) (error : Option NSError)
    (uuid : Nat → String) (s : State UIImage) :
    (FormScreen.onWeddingID d id error uuid s).1.backend = s.backend := by
  unfold FormScreen.onWeddingID
  split
  · rfl
  · rfl

omit [UIKit UIImage] in
theorem act_backend {a : Action UIImage} {e : Env} {s s' : State UIImage} {ts : List Task}
    (h : act a e s = some (s', ts)) : s'.backend = s.backend := by
  cases a with
  | editAuth d page => cases h; rfl
  | tapSignIn d =>
    simp only [act] at h
    split at h
    · cases h
    · have hb := tapSignIn_backend d s
      cases h' : SignInView.tapSignIn d s
      rw [h'] at h hb; cases h; exact hb
  | tapSignUp d =>
    simp only [act] at h
    split at h
    · cases h
    · have hb := tapSignUp_backend d s
      cases h' : SignUpView.tapSignUp d s
      rw [h'] at h hb; cases h; exact hb
  | editForm d form => cases h; rfl
  | tapSave d =>
    simp only [act] at h
    split at h
    · cases h; rfl
    · cases h
  | tapSubmit d weddingID guestName wish date =>
    simp only [act] at h
    split at h
    · cases h
    · have hb := tapOnSubmit_backend d weddingID guestName wish date e.newID s
      cases h' : WishPage.tapOnSubmit d weddingID guestName wish date e.newID s
      rw [h'] at h hb; cases h; exact hb

omit [UIKit UIImage] in
theorem act_firestore {a : Action UIImage} {e : Env} {s s' : State UIImage} {ts : List Task}
    (h : act a e s = some (s', ts)) : s'.firestore = s.firestore :=
  congrArg Backend.firestore (act_backend h)

/-- A request, answered without an error or with one. -/
def Task.commit (t : Task) (e : Env) (b : Backend) : Backend :=
  match e.error with
  | some _ => b
  | none =>
    match t with
    | .authCreate _ email password =>
      { b with accounts := ⟨email, password, e.newID⟩ :: b.accounts }
    | .idWrite _ id => { b with firestore := b.firestore.set (usedID id) ∅ }
    | .userWrite uid user =>
      { b with firestore := b.firestore.set (userDocument uid) user.toDictionary }
    | .weddingWrite id data => { b with firestore := b.firestore.set (weddingDocument id) data }
    | .photoPut p => { b with storage := b.storage.insert p.path p.imageData }
    | .photoMerge p =>
      { b with
        firestore := b.firestore.merge p.reference (AList.singleton p.field (.string p.path)) }
    | .wishWrite weddingID guestID wish =>
      { b with firestore := b.firestore.set (guestDocument weddingID guestID) wish }
    | .authSignIn _ _ _ | .idRead _ _ | .saveRead _ _ | .saveMain _ _ _ => b

def Task.target : Task → Option DocumentReference
  | .idWrite _ id => some (usedID id)
  | .userWrite uid _ => some (userDocument uid)
  | .weddingWrite id _ => some (weddingDocument id)
  | .photoMerge p => some p.reference
  | .wishWrite weddingID guestID _ => some (guestDocument weddingID guestID)
  | _ => none

theorem guestDocument_inj {w w' g g' : String} :
    guestDocument w g = guestDocument w' g' ↔ w = w' ∧ g = g' := by
  simp [guestDocument, subdocument]

theorem photoMerge_of_target {t : Task} {g : Bool} {id : String}
    (h : t.target = some (photoDocument g id)) :
    ∃ p, t = .photoMerge p ∧ p.isGallery = g ∧ p.weddingID = id := by
  cases t with
  | idWrite | userWrite | weddingWrite =>
    exact absurd (Option.some.inj h).symm (photoDocument_ne (by decide) (by decide))
  | photoMerge p =>
    obtain ⟨hg, hp⟩ := photoDocument_inj.mp (Option.some.inj h)
    exact ⟨p, rfl, hg, hp⟩
  | wishWrite => exact absurd (Option.some.inj h).symm photoDocument_ne_subdocument
  | authCreate | authSignIn | idRead | saveRead | saveMain | photoPut => cases h

theorem weddingWrite_of_target {t : Task} {id : String} (h : t.target = some (weddingDocument id)) :
    ∃ data, t = .weddingWrite id data := by
  cases t with
  | idWrite | userWrite => exact absurd (Option.some.inj h) (document_ne (by decide))
  | weddingWrite id' data =>
    have hid : id' = id := document_inj.mp (Option.some.inj h)
    subst hid
    exact ⟨data, rfl⟩
  | photoMerge => exact absurd (Option.some.inj h) (photoDocument_ne (by decide) (by decide))
  | wishWrite => exact absurd (Option.some.inj h).symm document_ne_subdocument
  | authCreate | authSignIn | idRead | saveRead | saveMain | photoPut => cases h

theorem wishWrite_of_target {t : Task} {w g : String} (h : t.target = some (guestDocument w g)) :
    ∃ wish, t = .wishWrite w g wish := by
  cases t with
  | idWrite | userWrite | weddingWrite =>
    exact absurd (Option.some.inj h) document_ne_subdocument
  | photoMerge => exact absurd (Option.some.inj h) photoDocument_ne_subdocument
  | wishWrite w' g' wish =>
    obtain ⟨hw, hg⟩ := guestDocument_inj.mp (Option.some.inj h)
    subst hw hg
    exact ⟨wish, rfl⟩
  | authCreate | authSignIn | idRead | saveRead | saveMain | photoPut => cases h

theorem serve_backend {t : Task} {e : Env} {s s' : State UIImage} {ts : List Task}
    (h : serve t e s = some (s', ts)) : s'.backend = t.commit e s.backend := by
  obtain ⟨error, newID, random, uuid⟩ := e
  cases t with
  | authCreate d email password =>
    simp only [serve] at h
    split at h
    · rename_i m; obtain ⟨rfl, _⟩ := served_eq h
      exact onSignUp_backend d (some m) random s
    · split at h
      · cases h
      · rename_i s1 hc
        cases h
        refine (onSignUp_backend d none random s1).trans ?_
        obtain ⟨_, h1, h2, h3, _⟩ := Auth.createUser_spec hc
        simp only [State.backend, h1, h2, h3]; rfl
  | authSignIn d email password =>
    simp only [serve] at h
    split at h
    · rename_i m; obtain ⟨rfl, _⟩ := served_eq h
      exact onSignIn_backend d (some m) s
    · split at h
      · cases h
      · rename_i s1 hc
        cases h
        exact (onSignIn_backend d none s1).trans (Auth.signIn_backend hc)
  | idRead u id =>
    obtain ⟨rfl, _⟩ := served_eq h
    refine (onRead_backend u id _ random s).trans ?_
    cases error <;> rfl
  | idWrite u id =>
    obtain ⟨rfl, _⟩ := served_eq h
    refine (onIDWrite_backend u id error _).trans ?_
    cases error <;> rfl
  | userWrite uid user =>
    obtain ⟨rfl, _⟩ := served_eq h
    refine (onUserWrite_backend uid user error _).trans ?_
    cases error <;> rfl
  | saveRead d uid =>
    simp only [serve] at h
    split at h
    · obtain ⟨rfl, _⟩ := served_eq h
      refine (onWeddingID_backend d _ _ uuid s).trans ?_
      cases error <;> rfl
    · obtain ⟨rfl, _⟩ := served_eq h
      cases error <;> rfl
  | saveMain d id error' =>
    obtain ⟨rfl, _⟩ := served_eq h
    refine (onWeddingID_backend d id error' uuid s).trans ?_
    cases error <;> rfl
  | weddingWrite id data =>
    obtain ⟨rfl, _⟩ := served_eq h
    refine (onWeddingWrite_backend error _).trans ?_
    cases error <;> rfl
  | photoPut p =>
    obtain ⟨rfl, _⟩ := served_eq h
    refine (onUpload_backend p error _).trans ?_
    cases error <;> rfl
  | photoMerge p =>
    obtain ⟨rfl, _⟩ := served_eq h
    refine (onMerge_backend error _).trans ?_
    cases error <;> rfl
  | wishWrite weddingID guestID wish =>
    obtain ⟨rfl, _⟩ := served_eq h
    refine (onWishWrite_backend error _).trans ?_
    cases error <;> rfl

theorem commit_failed {t : Task} {e : Env} (b : Backend) (he : e.error ≠ none) :
    t.commit e b = b := by
  unfold Task.commit
  split
  · rfl
  · rename_i h; exact absurd h he

theorem commit_lookup_ne {t : Task} {r : DocumentReference} (e : Env) (b : Backend)
    (h : t.target ≠ some r) : (t.commit e b).firestore.lookup r = b.firestore.lookup r := by
  have key : ∀ r', t.target = some r' → r ≠ r' := by
    intro r' h' he
    exact h (he ▸ h')
  unfold Task.commit
  split
  · rfl
  cases t with
  | idWrite u id => exact (lookup_set ..).trans (if_neg (key _ rfl))
  | userWrite uid user => exact (lookup_set ..).trans (if_neg (key _ rfl))
  | weddingWrite id data => exact (lookup_set ..).trans (if_neg (key _ rfl))
  | photoMerge p => exact (lookup_merge ..).trans (if_neg (key _ rfl))
  | wishWrite weddingID guestID wish => exact (lookup_set ..).trans (if_neg (key _ rfl))
  | authCreate | authSignIn | idRead | saveRead | saveMain | photoPut => rfl

theorem serve_firestore {t : Task} {e : Env} {s s' : State UIImage} {ts : List Task}
    (h : serve t e s = some (s', ts)) : s'.firestore = (t.commit e s.backend).firestore :=
  congrArg Backend.firestore (serve_backend h)

theorem serve_storage {t : Task} {e : Env} {s s' : State UIImage} {ts : List Task}
    (h : serve t e s = some (s', ts)) : s'.storage = (t.commit e s.backend).storage :=
  congrArg Backend.storage (serve_backend h)

theorem serve_accounts {t : Task} {e : Env} {s s' : State UIImage} {ts : List Task}
    (h : serve t e s = some (s', ts)) : s'.accounts = (t.commit e s.backend).accounts :=
  congrArg Backend.accounts (serve_backend h)

theorem serve_same_accounts {t : Task} {e : Env} {s s' : State UIImage} {ts : List Task}
    (h : serve t e s = some (s', ts)) (ht : ∀ d email password, t ≠ .authCreate d email password) :
    s'.accounts = s.accounts := by
  rw [serve_accounts h]
  unfold Task.commit
  split
  · rfl
  cases t with
  | authCreate d email password => exact absurd rfl (ht d email password)
  | authSignIn | idRead | idWrite | userWrite | saveRead | saveMain | weddingWrite | photoPut
  | photoMerge | wishWrite => rfl

theorem serve_lookup_ne {t : Task} {e : Env} {s s' : State UIImage} {ts : List Task}
    {r : DocumentReference} (h : serve t e s = some (s', ts))
    (hr : t.target ≠ some r ∨ e.error ≠ none) : s'.firestore.lookup r = s.firestore.lookup r := by
  rw [serve_firestore h]
  rcases hr with hr | hr
  · exact commit_lookup_ne e s.backend hr
  · rw [commit_failed _ hr]; rfl

/-- Objects are never removed from storage. -/
theorem serve_storage_isSome {t : Task} {e : Env} {s s' : State UIImage} {ts : List Task}
    {path : String} (h : serve t e s = some (s', ts)) (hp : (s.storage.lookup path).isSome) :
    (s'.storage.lookup path).isSome := by
  rw [serve_storage h]
  unfold Task.commit
  split
  · exact hp
  cases t with
  | photoPut p =>
    by_cases hpath : path = p.path
    · subst hpath
      show (AList.lookup p.path (AList.insert p.path p.imageData s.storage)).isSome = true
      rw [AList.lookup_insert]; rfl
    · show (AList.lookup path (AList.insert p.path p.imageData s.storage)).isSome = true
      rw [AList.lookup_insert_ne hpath]; exact hp
  | authCreate | authSignIn | idRead | idWrite | userWrite | saveRead | saveMain | weddingWrite
  | photoMerge | wishWrite => exact hp

/-! ## What a step logs -/

/-- The log of `s'` is that of `s` and, in front of it, events that satisfy `P`. -/
def Logs (P : Event → Prop) (s s' : State UIImage) : Prop :=
  ∃ new, s'.log = new ++ s.log ∧ ∀ ev ∈ new, P ev

section Logs

omit [UIKit UIImage]

variable {P : Event → Prop} {s s' s'' : State UIImage} {ev ev' : Event}

theorem Logs.suffix (h : Logs P s s') : s.log <:+ s'.log := by
  obtain ⟨new, h, _⟩ := h
  exact ⟨new, h.symm⟩

theorem logs_none (h : s'.log = s.log) : Logs P s s' := ⟨[], h, nofun⟩

theorem logs_one (h : s'.log = ev :: s.log) (he : P ev) : Logs P s s' := by
  refine ⟨[ev], h, fun x hx => ?_⟩
  rw [List.mem_singleton.mp hx]; exact he

theorem logs_two (h : s'.log = ev :: ev' :: s.log) (he : P ev) (he' : P ev') : Logs P s s' := by
  refine ⟨[ev, ev'], h, fun x hx => ?_⟩
  rcases List.mem_cons.mp hx with rfl | hx
  · exact he
  · rw [List.mem_singleton.mp hx]; exact he'

theorem Logs.of_eq (hlog : s'.log = s.log) (h : Logs P s' s'') : Logs P s s'' := by
  obtain ⟨new, hnew, hev⟩ := h
  exact ⟨new, by rw [hnew, hlog], hev⟩

end Logs

omit [UIKit UIImage] in
theorem act_logs {a : Action UIImage} {e : Env} {s s' : State UIImage} {ts : List Task}
    (h : act a e s = some (s', ts)) : Logs (fun ev => ev.ofSignUp = false) s s' := by
  cases a with
  | editAuth d page => cases h; exact logs_none rfl
  | tapSignIn d =>
    simp only [act] at h
    split at h
    · cases h
    · obtain ⟨rfl, _⟩ := served_eq h
      simp only [SignInView.tapSignIn]
      split
      · exact logs_none rfl
      split <;> exact logs_none rfl
  | tapSignUp d =>
    simp only [act] at h
    split at h
    · cases h
    · obtain ⟨rfl, _⟩ := served_eq h
      simp only [SignUpView.tapSignUp]
      split
      · exact logs_none rfl
      split
      · exact logs_none rfl
      split <;> exact logs_none rfl
  | editForm d form => cases h; exact logs_none rfl
  | tapSave d =>
    simp only [act] at h
    split at h
    · cases h; exact logs_none rfl
    · cases h
  | tapSubmit d weddingID guestName wish date =>
    simp only [act] at h
    split at h
    · cases h
    · obtain ⟨rfl, _⟩ := served_eq h
      unfold WishPage.tapOnSubmit
      split
      · exact logs_none rfl
      · exact logs_one rfl rfl

theorem onWeddingID_logs (d : DeviceID) (id : Option String) (error : Option NSError)
    (uuid : Nat → String) (s : State UIImage) :
    Logs (fun ev => ev.ofWish = false ∧ ev.ofSignUp = false) s
      (FormScreen.onWeddingID d id error uuid s).1 := by
  unfold FormScreen.onWeddingID
  split
  · exact logs_none rfl
  · exact logs_one rfl ⟨rfl, rfl⟩

theorem serve_logs {t : Task} {e : Env} {s s' : State UIImage} {ts : List Task}
    (h : serve t e s = some (s', ts)) :
    Logs (fun ev => ev.ofWish = false ∧ (t.newUser = none → ev.ofSignUp = false)) s s' := by
  cases t with
  | authCreate d email password =>
    simp only [serve] at h
    split at h
    · obtain ⟨rfl, _⟩ := served_eq h; exact logs_none rfl
    · split at h
      · cases h
      · rename_i s1 hc
        obtain ⟨rfl, _⟩ := served_eq h
        refine Logs.of_eq (Auth.createUser_spec hc).2.2.2.2.1 ?_
        exact logs_one rfl ⟨rfl, fun _ => rfl⟩
  | authSignIn d email password =>
    simp only [serve] at h
    split at h
    · obtain ⟨rfl, _⟩ := served_eq h; exact logs_none rfl
    · split at h
      · cases h
      · rename_i s1 hc
        obtain ⟨rfl, _⟩ := served_eq h
        unfold Auth.signIn at hc
        split at hc
        · cases hc
        · cases hc; exact logs_one rfl ⟨rfl, fun _ => rfl⟩
  | idRead u id =>
    obtain ⟨rfl, _⟩ := served_eq h
    unfold generateUniqueID.onRead createUser.onUniqueID
    split
    · exact logs_one rfl ⟨rfl, nofun⟩
    · exact logs_none rfl
    · exact logs_none rfl
  | idWrite u id =>
    obtain ⟨rfl, _⟩ := served_eq h
    refine Logs.of_eq (setData_log s (usedID id) ∅ e.error) ?_
    unfold generateUniqueID.onWrite createUser.onUniqueID
    cases e.error with
    | none => exact logs_one rfl ⟨rfl, nofun⟩
    | some m => exact logs_one rfl ⟨rfl, nofun⟩
  | userWrite uid user =>
    obtain ⟨rfl, _⟩ := served_eq h
    refine Logs.of_eq (setData_log s (userDocument uid) user.toDictionary e.error) ?_
    unfold createUser.onWrite
    split
    · exact logs_one rfl ⟨rfl, nofun⟩
    · exact logs_two rfl ⟨rfl, nofun⟩ ⟨rfl, nofun⟩
  | saveRead d uid =>
    simp only [serve] at h
    split at h
    · obtain ⟨rfl, _⟩ := served_eq h
      obtain ⟨new, hnew, hev⟩ := onWeddingID_logs d _ _ e.uuid s
      exact ⟨new, hnew, fun ev hm => ⟨(hev ev hm).1, fun _ => (hev ev hm).2⟩⟩
    · obtain ⟨rfl, _⟩ := served_eq h; exact logs_none rfl
  | saveMain d id error =>
    obtain ⟨rfl, _⟩ := served_eq h
    obtain ⟨new, hnew, hev⟩ := onWeddingID_logs d id error e.uuid s
    exact ⟨new, hnew, fun ev hm => ⟨(hev ev hm).1, fun _ => (hev ev hm).2⟩⟩
  | weddingWrite id data =>
    obtain ⟨rfl, _⟩ := served_eq h
    refine Logs.of_eq (setData_log s (weddingDocument id) data e.error) ?_
    unfold uploadWedding.onWrite
    split <;> exact logs_one rfl ⟨rfl, fun _ => rfl⟩
  | photoPut p =>
    obtain ⟨rfl, _⟩ := served_eq h
    refine Logs.of_eq (putData_log s p.path p.imageData e.error) ?_
    unfold uploadPhoto.onUpload
    split
    · exact logs_none rfl
    · exact logs_two rfl ⟨rfl, fun _ => rfl⟩ ⟨rfl, fun _ => rfl⟩
  | photoMerge p =>
    obtain ⟨rfl, _⟩ := served_eq h
    refine Logs.of_eq (mergeData_log s p.reference (AList.singleton p.field (.string p.path)) e.error) ?_
    unfold uploadPhoto.onMerge
    split <;> exact logs_one rfl ⟨rfl, fun _ => rfl⟩
  | wishWrite weddingID guestID wish =>
    obtain ⟨rfl, _⟩ := served_eq h
    refine Logs.of_eq (setData_log s (guestDocument weddingID guestID) wish e.error) ?_
    unfold uploadWish.onWrite
    split <;> exact logs_one rfl ⟨rfl, fun _ => rfl⟩

end WeddApp
