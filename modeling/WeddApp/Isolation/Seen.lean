import WeddApp.Async.Projection
import WeddApp.Isolation.Alone
import WeddApp.Isolation.Stores
import WeddApp.Wish.Steps

/-!
# Isolation.Seen

The whole system as one wedding sees it: each of its steps is a step of the wedding on its own
(`alone`) or changes nothing for it. Operations are told apart by their wedding: a Save by the
weddingID that the lookup of its host gave, a request by the weddingID that its closure captured, a
tap on Submit by the ID of its view model.

That no other operation reaches the data of the wedding rests on every document path, storage path
and `UserDefaults` key that the app builds: see `dataOf_serve_other`.
-/

namespace WeddApp

open Async Documents

variable {UIImage : Type}

def State.dataOf (s : State UIImage) (w : String) : WeddingData where
  wedding := s.firestore.lookup (weddingDocument w)
  images := s.firestore.lookup (photoDocument false w)
  gallery := s.firestore.lookup (photoDocument true w)
  guests g := s.firestore.lookup (guestDocument w g)
  objects path := if isImagePath w path then s.storage.lookup path else none
  guestID d := s.guestID d w

/-- What a request is for the wedding; `none` if it is one of another wedding or of none. -/
def Task.seen (w : String) : Task → Option WeddingTask
  | .saveMain _ weddingID error => if weddingID = some w ∧ error = none then some .send else none
  | .weddingWrite id weddingData => if id = w then some (.write weddingData) else none
  | .photoPut p => if p.weddingID = w then some (.put p) else none
  | .photoMerge p => if p.weddingID = w then some (.merge p) else none
  | .wishWrite id guestID wish => if id = w then some (.wish guestID wish) else none
  | .authCreate _ _ _ | .authSignIn _ _ _ | .idRead _ _ | .idWrite _ _ | .userWrite _ _
  | .saveRead _ _ => none

def Action.seen (w : String) (a : Action UIImage) (e : Env) :
    Option (WeddingAction × Outcome UIImage) :=
  match a with
  | .tapSubmit d id guestName wish currentDate =>
    if id = w then some (.submit d guestName wish currentDate, .generated e.newID) else none
  | .editAuth _ _ | .tapSignIn _ | .tapSignUp _ | .editForm _ _ | .tapSave _ => none

/-- A lookup of a Save starts a Save of the wedding if it finds its ID. -/
def Task.starts (w : String) (t : Task) (e : Env) (s : State UIImage) :
    Option (WeddingAction × Outcome UIImage) :=
  match t with
  | .saveRead _ uid =>
    match s.weddingIDReply uid e.error with
    | .onMain (some id, none) => if id = w then some (.save, .started) else none
    | _ => none
  | _ => none

/-- A Save reads the form of its device, a request its answer. -/
def Task.outcome (t : Task) (e : Env) (s : State UIImage) : Outcome UIImage :=
  match t with
  | .saveMain d _ _ => .content (s.device d).form e.uuid
  | _ => .answered e.error

theorem photoDocument_ne_wedding {g : Bool} {w w' : String} :
    photoDocument g w ≠ weddingDocument w' := photoDocument_ne (by decide) (by decide)

theorem guestDocument_ne_wedding {w w' g : String} : guestDocument w g ≠ weddingDocument w' :=
  Ne.symm document_ne_subdocument

theorem guestDocument_ne_photo {w w' g : String} {b : Bool} :
    guestDocument w g ≠ photoDocument b w' := Ne.symm photoDocument_ne_subdocument

/-! ## The data of the wedding -/

section Data

variable {s s' : State UIImage} {w : String}

theorem dataOf_congr (hlookup : ∀ r, r = weddingDocument w ∨ (∃ g, r = photoDocument g w) ∨
      (∃ g, r = guestDocument w g) → s'.firestore.lookup r = s.firestore.lookup r)
    (hobject : ∀ path, isImagePath w path = true → s'.storage.lookup path = s.storage.lookup path)
    (hguest : ∀ d, s'.guestID d w = s.guestID d w) : s'.dataOf w = s.dataOf w := by
  refine WeddingData.ext ?_ ?_ ?_ ?_ ?_ ?_
  · exact hlookup _ (.inl rfl)
  · exact hlookup _ (.inr (.inl ⟨false, rfl⟩))
  · exact hlookup _ (.inr (.inl ⟨true, rfl⟩))
  · funext g
    exact hlookup _ (.inr (.inr ⟨g, rfl⟩))
  · funext path
    simp only [State.dataOf]
    by_cases hpath : isImagePath w path = true
    · rw [if_pos hpath, if_pos hpath, hobject path hpath]
    · rw [if_neg hpath, if_neg hpath]
  · funext d
    exact hguest d

theorem dataOf_of_backend (hb : s'.backend = s.backend)
    (hguest : ∀ d, s'.guestID d w = s.guestID d w) : s'.dataOf w = s.dataOf w := by
  refine dataOf_congr (fun r _ => ?_) (fun path _ => ?_) hguest
  · exact congrArg (fun b : Backend => b.firestore.lookup r) hb
  · exact congrArg (fun b : Backend => b.storage.lookup path) hb

end Data

/-! ## Operations of other weddings -/

section Other

variable {w : String} {t : Task}

theorem target_of_unseen (ht : t.seen w = none) {r : DocumentReference}
    (hr : r = weddingDocument w ∨ (∃ g, r = photoDocument g w) ∨ ∃ g, r = guestDocument w g) :
    t.target ≠ some r := by
  intro htarget
  rcases hr with rfl | ⟨g, rfl⟩ | ⟨g, rfl⟩
  · obtain ⟨data, rfl⟩ := weddingWrite_of_target htarget
    simp [Task.seen] at ht
  · obtain ⟨p, rfl, _, hp⟩ := photoMerge_of_target htarget
    simp [Task.seen, hp] at ht
  · obtain ⟨wish, rfl⟩ := wishWrite_of_target htarget
    simp [Task.seen] at ht

variable [UIKit UIImage] {s s' : State UIImage} {e : Env} {ts : List Task}

/-- A request that is not one of the wedding changes nothing of its data. -/
theorem dataOf_serve_other (h : serve t e s = some (s', ts)) (ht : t.seen w = none)
    (hvalid : t.ValidID) (hw : Text.isSegment w = true) : s'.dataOf w = s.dataOf w := by
  refine dataOf_congr (fun r hr => ?_) (fun path hpath => ?_) fun d => ?_
  · exact serve_lookup_ne h (.inl (target_of_unseen ht hr))
  · rw [serve_storage h]
    unfold Task.commit
    split
    · rfl
    · cases t with
      | photoPut p =>
        simp only [Task.seen, ite_eq_right_iff, reduceCtorEq, imp_false] at ht
        refine AList.lookup_insert_ne fun hp => ?_
        rw [hp] at hpath
        exact ht ((isImagePath_path hvalid hw).mp hpath)
      | authCreate | authSignIn | idRead | idWrite | userWrite | saveRead | saveMain | weddingWrite
      | photoMerge | wishWrite => rfl
  · exact (serve_defaults h).guestID d w

theorem dataOf_serve_failed (h : serve t e s = some (s', ts)) (he : e.error ≠ none) :
    s'.dataOf w = s.dataOf w := by
  refine dataOf_congr (fun r _ => ?_) (fun path _ => ?_) fun d => ?_
  · exact serve_lookup_ne h (.inr he)
  · rw [serve_storage h, commit_failed _ he]; rfl
  · exact (serve_defaults h).guestID d w

end Other

/-! ## Operations of the wedding -/

section Own

variable {w : String} {s s' : State UIImage}

theorem dataOf_documents {v : WeddingData}
    (hwedding : s'.firestore.lookup (weddingDocument w) = v.wedding)
    (himages : s'.firestore.lookup (photoDocument false w) = v.images)
    (hgallery : s'.firestore.lookup (photoDocument true w) = v.gallery)
    (hguests : ∀ g, s'.firestore.lookup (guestDocument w g) = v.guests g)
    (hobjects : (s.dataOf w).objects = v.objects) (hguest : (s.dataOf w).guestID = v.guestID)
    (hstorage : s'.storage = s.storage) (hdefaults : SameDefaults s s') : s'.dataOf w = v := by
  refine WeddingData.ext hwedding himages hgallery (funext hguests) ?_ ?_
  · rw [← hobjects]
    simp only [State.dataOf, hstorage]
  · rw [← hguest]
    funext d
    exact hdefaults.guestID d w

variable [UIKit UIImage] {t : Task} {e : Env} {ts : List Task}

omit [UIKit UIImage] in
theorem seen_photos {ps : List Photo} (h : ∀ p ∈ ps, p.weddingID = w) :
    (ps.map Task.photoPut).filterMap (Task.seen w) = ps.map WeddingTask.put := by
  induction ps with
  | nil => rfl
  | cons p ps ih =>
    have hp := h p List.mem_cons_self
    have hps := ih fun q hq => h q (List.mem_cons_of_mem _ hq)
    simp only [List.map_cons, List.filterMap_cons, Task.seen, hp, if_true, hps]

theorem map_photosOf {us : List Task} (h : ∀ u ∈ us, ∃ p, u = .photoPut p) :
    (photosOf us).map .photoPut = us := by
  induction us with
  | nil => rfl
  | cons u us ih =>
    obtain ⟨p, rfl⟩ := h u List.mem_cons_self
    have hus := ih fun v hv => h v (List.mem_cons_of_mem _ hv)
    simp only [photosOf, List.filterMap_cons, List.map_cons] at hus ⊢
    rw [hus]

theorem serve_send {d : DeviceID} (h : serve (.saveMain d (some w) none) e s = some (s', ts)) :
    s' = s ∧ ts.filterMap (Task.seen w) = (s.device d).form.requests w e.uuid := by
  obtain ⟨hs, rfl⟩ := served_eq h
  refine ⟨hs, ?_⟩
  have hphotos : ((s.device d).form.photos w e.uuid).map .photoPut =
      (s.device d).form.uploadPhotos w e.uuid := by
    refine map_photosOf fun u hu => ?_
    obtain ⟨p, hp, _⟩ := mem_uploadPhotos.mp hu
    exact ⟨p, hp⟩
  rw [onWeddingID_tasks]
  simp only [List.filterMap_cons, Task.seen, if_true, ← hphotos]
  rw [seen_photos fun p hp => (photo_shape hp).1]
  rfl

theorem serve_write {data : Document} (h : serve (.weddingWrite w data) e s = some (s', ts))
    (he : e.error = none) : s'.dataOf w = (s.dataOf w).apply (.write data) ∧ ts = [] := by
  have hlookup : ∀ r, s'.firestore.lookup r =
      if r = weddingDocument w then some data else s.firestore.lookup r := by
    intro r
    rw [serve_firestore h, Task.commit, he]
    exact lookup_set ..
  have hstorage : s'.storage = s.storage := by
    rw [serve_storage h, Task.commit, he]; rfl
  refine ⟨?_, (served_eq h).2⟩
  refine dataOf_documents ?_ ?_ ?_ (fun g => ?_) rfl rfl hstorage (serve_defaults h)
  · rw [hlookup, if_pos rfl]; rfl
  · rw [hlookup, if_neg photoDocument_ne_wedding]; rfl
  · rw [hlookup, if_neg photoDocument_ne_wedding]; rfl
  · rw [hlookup, if_neg guestDocument_ne_wedding]; rfl

theorem serve_wishWrite {guestID : String} {wish : Document}
    (h : serve (.wishWrite w guestID wish) e s = some (s', ts)) (he : e.error = none) :
    s'.dataOf w = (s.dataOf w).apply (.wish guestID wish) ∧ ts = [] := by
  have hlookup : ∀ r, s'.firestore.lookup r =
      if r = guestDocument w guestID then some wish else s.firestore.lookup r := by
    intro r
    rw [serve_firestore h, Task.commit, he]
    exact lookup_set ..
  have hstorage : s'.storage = s.storage := by
    rw [serve_storage h, Task.commit, he]; rfl
  refine ⟨?_, (served_eq h).2⟩
  refine dataOf_documents ?_ ?_ ?_ (fun g => ?_) rfl rfl hstorage (serve_defaults h)
  · rw [hlookup, if_neg guestDocument_ne_wedding.symm]; rfl
  · rw [hlookup, if_neg guestDocument_ne_photo.symm]; rfl
  · rw [hlookup, if_neg guestDocument_ne_photo.symm]; rfl
  · rw [hlookup]
    by_cases hg : g = guestID
    · subst hg
      simp [WeddingData.apply]
    · rw [if_neg fun hr => hg (guestDocument_inj.mp hr).2]
      simp [WeddingData.apply, State.dataOf, Function.update_of_ne hg]

theorem serve_photoMerge {p : Photo} (h : serve (.photoMerge p) e s = some (s', ts))
    (he : e.error = none) (hp : p.weddingID = w) :
    s'.dataOf w = (s.dataOf w).apply (.merge p) ∧ ts = [] := by
  have hlookup : ∀ r, s'.firestore.lookup r = if r = photoDocument p.isGallery w then
      some (AList.singleton p.field (.string p.path) ∪ (s.firestore.lookup r).getD ∅)
      else s.firestore.lookup r := by
    intro r
    rw [serve_firestore h, Task.commit, he, ← hp, ← Photo.reference_eq]
    refine (lookup_merge ..).trans ?_
    by_cases hr : r = p.reference
    · rw [if_pos hr, if_pos hr, hr]; rfl
    · rw [if_neg hr, if_neg hr]; rfl
  have hstorage : s'.storage = s.storage := by
    rw [serve_storage h, Task.commit, he]; rfl
  have hwedding : s'.firestore.lookup (weddingDocument w) = s.firestore.lookup (weddingDocument w) := by
    rw [hlookup, if_neg photoDocument_ne_wedding.symm]
  have hguests : ∀ g, s'.firestore.lookup (guestDocument w g) =
      s.firestore.lookup (guestDocument w g) := by
    intro g
    rw [hlookup, if_neg guestDocument_ne_photo]
  refine ⟨?_, (served_eq h).2⟩
  cases hg : p.isGallery with
  | true =>
    rw [hg] at hlookup
    simp only [WeddingData.apply, WeddingData.record, hg, if_true]
    refine dataOf_documents hwedding ?_ ?_ hguests rfl rfl hstorage (serve_defaults h)
    · rw [hlookup, if_neg fun hr => by cases (photoDocument_inj.mp hr).1]; rfl
    · rw [hlookup, if_pos rfl]; rfl
  | false =>
    rw [hg] at hlookup
    simp only [WeddingData.apply, WeddingData.record, hg, Bool.false_eq_true, if_false]
    refine dataOf_documents hwedding ?_ ?_ hguests rfl rfl hstorage (serve_defaults h)
    · rw [hlookup, if_pos rfl]; rfl
    · rw [hlookup, if_neg fun hr => by cases (photoDocument_inj.mp hr).1]; rfl

theorem serve_photoPut {p : Photo} (h : serve (.photoPut p) e s = some (s', ts))
    (he : e.error = none) (hp : p.weddingID = w) (hw : Text.isSegment w = true) :
    s'.dataOf w = (s.dataOf w).apply (.put p) ∧ ts = [.photoMerge p] := by
  have hlookup : ∀ path, s'.storage.lookup path =
      if path = p.path then some p.imageData else s.storage.lookup path := by
    intro path
    rw [serve_storage h, Task.commit, he]
    by_cases hpath : path = p.path
    · subst hpath
      rw [if_pos rfl]
      exact AList.lookup_insert _
    · rw [if_neg hpath]
      exact AList.lookup_insert_ne hpath
  have hfirestore : s'.firestore = s.firestore := by
    rw [serve_firestore h, Task.commit, he]; rfl
  have htasks : ts = [.photoMerge p] := by
    obtain ⟨_, rfl⟩ := served_eq h
    rw [he]; rfl
  have hown : isImagePath w p.path = true := (isImagePath_path (by rw [hp]; exact hw) hw).mpr hp
  refine ⟨?_, htasks⟩
  simp only [WeddingData.apply, State.dataOf, hfirestore]
  refine WeddingData.ext rfl rfl rfl rfl ?_ (funext fun d => (serve_defaults h).guestID d w)
  funext path
  simp only [hlookup]
  by_cases hpath : path = p.path
  · rw [hpath, if_pos hown, if_pos rfl, Function.update_self]
  · rw [Function.update_of_ne hpath, if_neg hpath]

/-- An answer to a request of the wedding is the answer to the request on its own. -/
theorem serve_applied {t' : WeddingTask} (h : serve t e s = some (s', ts))
    (ht : t.seen w = some t') (hsend : t' ≠ .send) (he : e.error = none)
    (hw : Text.isSegment w = true) :
    s'.dataOf w = (s.dataOf w).apply t' ∧ ts.filterMap (Task.seen w) = t'.next := by
  cases t with
  | weddingWrite id data =>
    simp only [Task.seen, Option.ite_none_right_eq_some, Option.some.injEq] at ht
    obtain ⟨rfl, rfl⟩ := ht
    obtain ⟨hdata, rfl⟩ := serve_write h he
    exact ⟨hdata, rfl⟩
  | photoMerge p =>
    simp only [Task.seen, Option.ite_none_right_eq_some, Option.some.injEq] at ht
    obtain ⟨hp, rfl⟩ := ht
    obtain ⟨hdata, rfl⟩ := serve_photoMerge h he hp
    exact ⟨hdata, rfl⟩
  | wishWrite id guestID wish =>
    simp only [Task.seen, Option.ite_none_right_eq_some, Option.some.injEq] at ht
    obtain ⟨rfl, rfl⟩ := ht
    obtain ⟨hdata, rfl⟩ := serve_wishWrite h he
    exact ⟨hdata, rfl⟩
  | photoPut p =>
    simp only [Task.seen, Option.ite_none_right_eq_some, Option.some.injEq] at ht
    obtain ⟨hp, rfl⟩ := ht
    obtain ⟨hdata, rfl⟩ := serve_photoPut h he hp hw
    refine ⟨hdata, ?_⟩
    simp only [List.filterMap_cons, List.filterMap_nil, Task.seen, hp, if_true]
    rfl
  | saveMain d id error =>
    simp only [Task.seen, Option.ite_none_right_eq_some, Option.some.injEq] at ht
    exact absurd ht.2.symm hsend
  | authCreate | authSignIn | idRead | idWrite | userWrite | saveRead => cases ht

end Own

/-! ## The projection -/

section Projection

variable {w : String} {s s' : State UIImage} {e : Env} {ts : List Task}

theorem tapOnSubmit_held (d : DeviceID) (guestName wish guestID : String) (date : Date) {g : String}
    (hg : s.guestID d w = some g) :
    WishPage.tapOnSubmit d w guestName wish date guestID s = (s, []) := by
  rw [State.guestID] at hg
  simp only [WishPage.tapOnSubmit, hg]

theorem tapOnSubmit_free (d : DeviceID) (guestName wish guestID : String) (date : Date)
    (hg : s.guestID d w = none) :
    (∀ d' w', (WishPage.tapOnSubmit d w guestName wish date guestID s).1.guestID d' w' =
      if d' = d ∧ w' = w then some guestID else s.guestID d' w') ∧
    (WishPage.tapOnSubmit d w guestName wish date guestID s).2 =
      [.wishWrite w guestID (Wish.init guestName wish date).toDictionary] := by
  rw [State.guestID] at hg
  simp only [WishPage.tapOnSubmit, hg]
  refine ⟨fun d' w' => ?_, rfl⟩
  exact uploadWish_guestID d d' w guestID w' (Wish.init guestName wish date) s

variable [UIKit UIImage]

omit [UIKit UIImage] in
theorem act_other {a : Action UIImage} (h : act a e s = some (s', ts)) (ha : a.seen w e = none) :
    s'.dataOf w = s.dataOf w ∧ ts.filterMap (Task.seen w) = [] := by
  cases act_wish h with
  | @submit d id guestName wish date _ _ _ guestID _ =>
    simp only [Action.seen, ite_eq_right_iff, reduceCtorEq, imp_false] at ha
    refine ⟨dataOf_of_backend (act_backend h) fun d' => ?_, ?_⟩
    · rw [guestID, if_neg fun hd => ha hd.2.symm]
    · simp only [List.filterMap_cons, List.filterMap_nil, Task.seen, if_neg ha]
  | other hf hts =>
    refine ⟨dataOf_of_backend (act_backend h) fun d => hf.guestID d w, ?_⟩
    refine List.filterMap_eq_nil_iff.mpr fun u hu => ?_
    have hfirst := act_sends h u hu
    have hwish := hts u hu
    cases u with
    | authCreate | authSignIn | saveRead => rfl
    | wishWrite => cases hwish
    | idRead | idWrite | userWrite | saveMain | weddingWrite | photoPut | photoMerge => cases hfirst

theorem act_moves {a : Action UIImage} (h : act a e s = some (s', ts)) :
    (alone UIImage w).Moves (a.seen w e) (s.dataOf w) (s'.dataOf w) (ts.filterMap (Task.seen w)) := by
  cases ha : a.seen w e with
  | none => exact act_other h ha
  | some x =>
    cases a with
    | editAuth | tapSignIn | tapSignUp | editForm | tapSave => cases ha
    | tapSubmit d id guestName wish date =>
      simp only [Action.seen, Option.ite_none_right_eq_some, Option.some.injEq] at ha
      obtain ⟨rfl, rfl⟩ := ha
      have hb := act_backend h
      simp only [act] at h
      split at h
      · cases h
      · obtain ⟨rfl, rfl⟩ := served_eq h
        cases hg : s.guestID d id with
        | some g =>
          have hv : (s.dataOf id).guestID d = some g := hg
          simp only [System.Moves, alone, hv, tapOnSubmit_held d guestName wish e.newID date hg,
            List.filterMap_nil]
        | none =>
          have hv : (s.dataOf id).guestID d = none := hg
          obtain ⟨hguest, htasks⟩ := tapOnSubmit_free d guestName wish e.newID date hg
          have hdata : (WishPage.tapOnSubmit d id guestName wish date e.newID s).1.dataOf id =
              { s.dataOf id with
                guestID := Function.update (s.dataOf id).guestID d (some e.newID) } := by
            have hf := congrArg Backend.firestore hb
            have hst := congrArg Backend.storage hb
            simp only [State.backend] at hf hst
            simp only [State.dataOf, hf, hst]
            refine WeddingData.ext rfl rfl rfl rfl rfl (funext fun d' => ?_)
            simp only [hguest, and_true, Function.update_apply]
          simp only [System.Moves, alone, hv, hdata, htasks, List.filterMap_cons, List.filterMap_nil,
            Task.seen, if_true]

omit [UIKit UIImage] in
theorem answered_of_seen {t : Task} {t' : WeddingTask} (ht : t.seen w = some t') (hsend : t' ≠ .send) :
    t.outcome e s = .answered e.error := by
  cases t with
  | saveMain d id error =>
    simp only [Task.seen, Option.ite_none_right_eq_some, Option.some.injEq] at ht
    exact absurd ht.2.symm hsend
  | authCreate | authSignIn | idRead | idWrite | userWrite | saveRead | weddingWrite | photoPut
  | photoMerge | wishWrite => rfl

theorem failed_tasks {t : Task} {t' : WeddingTask} (h : serve t e s = some (s', ts))
    (ht : t.seen w = some t') (hsend : t' ≠ .send) {m : NSError} (he : e.error = some m) :
    ts = [] := by
  cases t with
  | photoPut p =>
    obtain ⟨_, rfl⟩ := served_eq h
    rw [he]; rfl
  | weddingWrite | photoMerge | wishWrite => exact (served_eq h).2
  | saveMain d id error =>
    simp only [Task.seen, Option.ite_none_right_eq_some, Option.some.injEq] at ht
    exact absurd ht.2.symm hsend
  | authCreate | authSignIn | idRead | idWrite | userWrite | saveRead => cases ht

theorem serve_seen_send {t : Task} (h : serve t e s = some (s', ts)) (ht : t.seen w = some .send) :
    (alone UIImage w).serve .send (t.outcome e s) (s.dataOf w) =
      some (s'.dataOf w, ts.filterMap (Task.seen w)) := by
  cases t with
  | saveMain d id error =>
    simp only [Task.seen, Option.ite_none_right_eq_some, and_true] at ht
    obtain ⟨rfl, rfl⟩ := ht
    obtain ⟨rfl, htasks⟩ := serve_send h
    rw [htasks]
    rfl
  | authCreate | authSignIn | idRead | idWrite | userWrite | saveRead => cases ht
  | weddingWrite | photoPut | photoMerge | wishWrite => simp [Task.seen] at ht

/-- A callback of the wedding is the callback of the wedding on its own. -/
theorem serve_seen {t : Task} {t' : WeddingTask} (h : serve t e s = some (s', ts))
    (ht : t.seen w = some t') (hw : Text.isSegment w = true) :
    (alone UIImage w).serve t' (t.outcome e s) (s.dataOf w) =
      some (s'.dataOf w, ts.filterMap (Task.seen w)) := by
  by_cases hsend : t' = .send
  · subst hsend
    exact serve_seen_send h ht
  · rw [answered_of_seen ht hsend]
    cases he : e.error with
    | none =>
      obtain ⟨hdata, htasks⟩ := serve_applied h ht hsend he hw
      rw [hdata, htasks]
      cases t' with
      | send => exact absurd rfl hsend
      | write | put | merge | wish => rfl
    | some m =>
      have hfail : e.error ≠ none := by rw [he]; exact Option.some_ne_none m
      rw [dataOf_serve_failed h hfail, failed_tasks h ht hsend he]
      cases t' with
      | send => exact absurd rfl hsend
      | write | put | merge | wish => rfl

theorem starts_unseen {d : DeviceID} {uid : UID}
    (h : serve (.saveRead d uid) e s = some (s', ts)) :
    (alone UIImage w).Moves (Task.starts w (.saveRead d uid) e s) (s.dataOf w) (s.dataOf w)
      (ts.filterMap (Task.seen w)) := by
  have hsends := saveRead_sends h
  simp only [Task.starts]
  cases hreply : s.weddingIDReply uid e.error with
  | now x =>
    rw [hreply] at hsends
    subst hsends
    exact ⟨rfl, rfl⟩
  | onMain x =>
    obtain ⟨id, error⟩ := x
    rw [hreply] at hsends
    simp only at hsends
    subst hsends
    cases id with
    | none => exact ⟨rfl, rfl⟩
    | some id =>
      cases error with
      | some m =>
        refine ⟨rfl, ?_⟩
        simp [Task.seen]
      | none =>
        by_cases hid : id = w
        · subst hid
          simp only [if_true, System.Moves, alone, List.filterMap_cons, List.filterMap_nil,
            Task.seen, and_self]
        · simp only [if_neg hid]
          refine ⟨rfl, ?_⟩
          simp [Task.seen, hid]

theorem Sends.unseen {t u : Task} (h : Sends e s t u) (ht : t.seen w = none)
    (hread : ∀ d uid, t ≠ .saveRead d uid) : u.seen w = none := by
  cases h with
  | signUp _ hu =>
    cases u with
    | idRead | idWrite | userWrite => rfl
    | authCreate | authSignIn | saveRead | saveMain | weddingWrite | photoPut | photoMerge
    | wishWrite => exact absurd rfl hu
  | main => exact absurd rfl (hread _ _)
  | wedding =>
    simp only [Task.seen, and_true, Option.some.injEq, ite_eq_right_iff, reduceCtorEq,
      imp_false] at ht
    simp only [Task.seen, if_neg ht]
  | put hp =>
    simp only [Task.seen, and_true, Option.some.injEq, ite_eq_right_iff, reduceCtorEq,
      imp_false] at ht
    simp only [Task.seen, (photo_shape hp).1, if_neg ht]
  | merge _ =>
    simp only [Task.seen, ite_eq_right_iff, reduceCtorEq, imp_false] at ht
    simp only [Task.seen, if_neg ht]

/-- What a callback that is not the wedding's is for the wedding: the start of a Save, or nothing. -/
theorem serve_unseen {t : Task} (h : serve t e s = some (s', ts)) (ht : t.seen w = none)
    (hvalid : t.ValidID) (hw : Text.isSegment w = true) :
    (alone UIImage w).Moves (t.starts w e s) (s.dataOf w) (s'.dataOf w)
      (ts.filterMap (Task.seen w)) := by
  rw [dataOf_serve_other h ht hvalid hw]
  cases t with
  | saveRead d uid => exact starts_unseen h
  | authCreate | authSignIn | idRead | idWrite | userWrite | saveMain | weddingWrite | photoPut
  | photoMerge | wishWrite =>
    refine ⟨rfl, List.filterMap_eq_nil_iff.mpr fun u hu => ?_⟩
    exact (serve_sends h hu).unseen ht fun d uid ht => by cases ht

variable (UIImage) in
/-- The system as the wedding `w` sees it. -/
def seenBy (w : String) (hw : Text.isSegment w = true) :
    Projection (app UIImage) (alone UIImage w) State.ValidIDs Task.ValidID where
  view s := s.dataOf w
  own := Task.seen w
  taken a e _ := a.seen w e
  started := Task.starts w
  reads := Task.outcome
  act _ h := ⟨act_moves h, fun u hu => validID_of_first (act_sends h u hu)⟩
  serve_own _ _ h ht := serve_seen h ht hw
  serve_other _ hJ h ht := serve_unseen h ht hJ hw
  serve_tasks hI hJ h := validID_sent h hI hJ

end Projection

end WeddApp
