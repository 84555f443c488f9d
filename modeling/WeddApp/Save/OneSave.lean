import WeddApp.Save.Fields

/-!
# Save.OneSave

One Save on its own: its uploads and merges are served in any order and fail in any combination.
No write is lost: the photo documents end up as they were, with exactly the fields of the photos
that went through set to their paths (`one_save`).
-/

namespace WeddApp

open Async Documents

variable {UIImage : Type} [UIKit UIImage]

/-- The configuration in which the completion handler of a Save leaves the system: its requests are
in flight and nothing else is. -/
def saveStart (s : State UIImage) (d : DeviceID) (id : String) (uuid : Nat → String) :
    Config (State UIImage) Task :=
  (Config.init s).acted (FormScreen.onWeddingID d (some id) none uuid s).1
    (FormScreen.onWeddingID d (some id) none uuid s).2

def Recorded (h : List (Config (State UIImage) Task × Label (Action UIImage) Env)) (p : Photo) :
    Prop :=
  (∃ k e, Served h k (.photoPut p) e ∧ e.error = none) ∧ ∃ k, Merged h k p

def UploadFailed (h : List (Config (State UIImage) Task × Label (Action UIImage) Env)) (p : Photo) :
    Prop :=
  ∃ k t e, (t = .photoPut p ∨ t = .photoMerge p) ∧ Served h k t e ∧ e.error ≠ none

/-- A photo of the form: of a person or of the gallery. -/
def IsPhoto (form : FormScreen UIImage) (id : String) (uuid : Nat → String) (p : Photo) : Prop :=
  IsPerson form.groomImage id Constants.groomSubfolder (uuid 0) p ∨
    IsPerson form.brideImage id Constants.brideSubfolder (uuid 1) p ∨
    ∃ j, IsGallery form.galleryImages id uuid j p

/-- What `getGalleryUrls` answers when its read succeeds. -/
def State.galleryUrls (s : State UIImage) (id : String) : List String × Option NSError :=
  Reads.getGalleryUrls.onDocument (.ok (s.firestore.lookup (document "Gallery" id)))

/-- The photo documents after a Save of which the photos in `recorded` went through. -/
structure OneSave (form : FormScreen UIImage) (id : String) (uuid : Nat → String)
    (recorded : Photo → Prop) (old new : Firestore) : Prop where
  gallery : ∀ j p, IsGallery form.galleryImages id uuid j p → recorded p →
    new.field (document "Gallery" id) ("photo" ++ toString (j + 1)) = some (.string p.path)
  galleryKept : ∀ f, (∀ j p, IsGallery form.galleryImages id uuid j p → recorded p →
      f ≠ "photo" ++ toString (j + 1)) →
    new.field (document "Gallery" id) f = old.field (document "Gallery" id) f
  groom : ∀ p, IsPerson form.groomImage id Constants.groomSubfolder (uuid 0) p → recorded p →
    new.field (document "Images" id) "groomUrl" = some (.string p.path)
  bride : ∀ p, IsPerson form.brideImage id Constants.brideSubfolder (uuid 1) p → recorded p →
    new.field (document "Images" id) "brideUrl" = some (.string p.path)
  imagesKept : ∀ f,
    (∀ p, IsPerson form.groomImage id Constants.groomSubfolder (uuid 0) p → recorded p →
      f ≠ "groomUrl") →
    (∀ p, IsPerson form.brideImage id Constants.brideSubfolder (uuid 1) p → recorded p →
      f ≠ "brideUrl") →
    new.field (document "Images" id) f = old.field (document "Images" id) f

omit [UIKit UIImage] in
theorem galleryUrls_eq (s : State UIImage) (id : String) :
    s.galleryUrls id = (Reads.photoUrls (s.firestore.fields (document "Gallery" id)), none) := by
  unfold State.galleryUrls Reads.getGalleryUrls.onDocument Store.fields
  cases s.firestore.lookup (document "Gallery" id) with
  | none => rfl
  | some document => rfl

section Run

variable {s : State UIImage} {d : DeviceID} {id : String} {uuid : Nat → String}
  {ls : List (Label (Action UIImage) Env)} {c : Config (State UIImage) Task}

theorem saveStart_firestore : (saveStart s d id uuid).state.firestore = s.firestore :=
  congrArg Backend.firestore (onWeddingID_backend d (some id) none uuid s)

theorem mem_saveStart {x : Nat × Task} (hx : x ∈ (saveStart s d id uuid).pending) :
    x.2 = .weddingWrite id ((s.device d).form.wedding id).toDictionary ∨
      ∃ p ∈ (s.device d).form.photos id uuid, x.2 = .photoPut p := by
  rcases Config.mem_acted.mp hx with hx | ⟨_, hx⟩
  · cases hx
  · exact mem_onWeddingID.mp hx

theorem served_upload (hr : (app UIImage).run (saveStart s d id uuid) ls = some c)
    (hserve : ∀ l ∈ ls, l.isServe = true) {k : Nat} {t : Task} {e : Env}
    (hs : Served ((app UIImage).history (saveStart s d id uuid) ls) k t e) :
    Upload id (s.device d).form uuid t := by
  refine System.quiet_rule (P := fun _ t => Upload id (s.device d).form uuid t) hr ?_ ?_ ?_ k t e hs
  · intro a e s s' ts hm _
    cases hserve _ hm
  · intro x hx
    rcases mem_saveStart hx with he | ⟨p, hp, he⟩
    · rw [he]; exact .wedding
    · rw [he]; exact .put hp
  · intro k t e s s' ts hu h
    exact hu.hands_down h

theorem recorded_iff (hr : (app UIImage).run (saveStart s d id uuid) ls = some c) {p : Photo} :
    Recorded ((app UIImage).history (saveStart s d id uuid) ls) p ↔
      ∃ k, Merged ((app UIImage).history (saveStart s d id uuid) ls) k p := by
  constructor
  · intro h; exact h.2
  · rintro ⟨k, e, hs, he⟩
    have h0 : ∀ k p, (k, Task.photoMerge p) ∉ (saveStart s d id uuid).pending := by
      intro k p hp
      rcases mem_saveStart hp with h | ⟨q, _, h⟩
      · cases h
      · cases h
    obtain ⟨e', hs', he'⟩ := put_before_merge hr h0 hs
    exact ⟨⟨k, e', hs', he'⟩, k, e, hs, he⟩

def Task.upload : Task → Option Task
  | .photoMerge p => some (.photoPut p)
  | _ => none

theorem saveStart_nodup : (saveStart s d id uuid).tasks.Nodup := by
  rw [saveStart, Config.tasks_acted, onWeddingID_tasks]
  refine List.nodup_cons.mpr ⟨fun hm => ?_, uploadPhotos_nodup _ _ _⟩
  obtain ⟨p, hp, _⟩ := mem_uploadPhotos.mp hm
  cases hp

theorem answered_once (hr : (app UIImage).run (saveStart s d id uuid) ls = some c)
    (hserve : ∀ l ∈ ls, l.isServe = true) {k k' : Nat} {t : Task} {e e' : Env}
    (hs : Served ((app UIImage).history (saveStart s d id uuid) ls) k t e)
    (hs' : Served ((app UIImage).history (saveStart s d id uuid) ls) k' t e') : e = e' := by
  refine System.served_once (P := Upload id (s.device d).form uuid) Task.upload hr hserve
    saveStart_nodup ?_ ?_ hs hs'
  · intro t ht
    obtain ⟨x, hx, rfl⟩ := List.mem_map.mp ht
    rcases mem_saveStart hx with he | ⟨p, hp, he⟩
    · rw [he]; exact ⟨.wedding, rfl⟩
    · rw [he]; exact ⟨.put hp, rfl⟩
  · intro t e s1 s2 ts hu h
    have hdown := hu.hands_down h
    cases hu with
    | wedding | merge => obtain ⟨_, rfl⟩ := served_eq h; exact ⟨List.nodup_nil, nofun⟩
    | @put p hp =>
      obtain ⟨_, rfl⟩ := served_eq h
      unfold uploadPhoto.onUpload at hdown ⊢
      split at hdown
      · exact ⟨List.nodup_nil, nofun⟩
      · refine ⟨List.nodup_singleton _, fun u hm => ⟨hdown u hm, ?_⟩⟩
        rw [List.mem_singleton.mp hm]; rfl

/-- With nothing in flight every photo was uploaded, and is recorded unless something failed. -/
theorem uploads_of_run (hr : (app UIImage).run (saveStart s d id uuid) ls = some c)
    (hserve : ∀ l ∈ ls, l.isServe = true) (hq : c.pending = []) {p : Photo}
    (hp : p ∈ (s.device d).form.photos id uuid) :
    (∃ k e, Served ((app UIImage).history (saveStart s d id uuid) ls) k (.photoPut p) e) ∧
      (Recorded ((app UIImage).history (saveStart s d id uuid) ls) p ↔
        ¬ UploadFailed ((app UIImage).history (saveStart s d id uuid) ls) p) := by
  have hsent : (0, Task.photoPut p) ∈ (saveStart s d id uuid).pending := by
    refine Config.mem_acted.mpr (.inr ⟨rfl, ?_⟩)
    rw [onWeddingID_tasks]
    exact List.mem_cons_of_mem _ (mem_uploadPhotos.mpr ⟨p, rfl, mem_photos_iff.mp hp⟩)
  obtain ⟨e, c1, hat⟩ := System.served_of_over hr hsent (not_live_of_drained hq 0)
  refine ⟨⟨0, e, c1, hat⟩, ?_, fun hno => ?_⟩
  · rintro ⟨⟨k1, e1, h1, he1⟩, k2, e2, h2, he2⟩ ⟨k, t, e', ht, hs, he'⟩
    rcases ht with rfl | rfl
    · rw [answered_once hr hserve hs h1] at he'
      exact he' he1
    · rw [answered_once hr hserve hs h2] at he'
      exact he' he2
  · have he : e.error = none := by
      by_contra he
      exact hno ⟨0, _, e, .inl rfl, ⟨c1, hat⟩, he⟩
    obtain ⟨s1, ts, ha, hts⟩ := System.served_next hr (not_live_of_drained hq 0) hat
    obtain ⟨_, rfl⟩ := served_eq ha
    rw [he] at hts
    obtain ⟨e', hs'⟩ := hts (.photoMerge p) (List.mem_singleton_self _)
    refine ⟨⟨0, e, ⟨c1, hat⟩, he⟩, 0, e', hs', ?_⟩
    by_contra he'
    exact hno ⟨0, _, e', .inr rfl, hs', he'⟩

theorem recorded_field (hr : (app UIImage).run (saveStart s d id uuid) ls = some c)
    (hserve : ∀ l ∈ ls, l.isServe = true) {p : Photo} (hp : p ∈ (s.device d).form.photos id uuid)
    (hrec : Recorded ((app UIImage).history (saveStart s d id uuid) ls) p) :
    c.state.firestore.field (photoDocument p.isGallery id) p.field = some (.string p.path) := by
  have hid : p.weddingID = id := (photo_shape hp).1
  obtain ⟨_, k, hm⟩ := hrec
  obtain ⟨k', v, hw, hv⟩ := Register.last_write (R := photoField p.isGallery id p.field) hr
    ⟨k, _, wrote_photoField.mpr ⟨p, hm, rfl, hid, rfl, rfl⟩⟩
  obtain ⟨q, ⟨e, hs, _⟩, hg, hqid, hf, rfl⟩ := wrote_photoField.mp hw
  -- the last writer of the field is another photo of the same Save, hence the same one
  cases served_upload hr hserve hs with
  | merge hq =>
    have hpq : q = p := by
      refine photo_unique hq hp ?_ hf
      rw [Photo.reference_eq, Photo.reference_eq, hg, hqid, hid]
    subst hpq
    exact hv

theorem kept_field (hr : (app UIImage).run (saveStart s d id uuid) ls = some c)
    (hserve : ∀ l ∈ ls, l.isServe = true) {g : Bool} {f : String}
    (hno : ∀ p ∈ (s.device d).form.photos id uuid,
      Recorded ((app UIImage).history (saveStart s d id uuid) ls) p → p.isGallery = g → p.field ≠ f) :
    c.state.firestore.field (photoDocument g id) f = s.firestore.field (photoDocument g id) f := by
  have h := Register.unwritten (R := photoField g id f) hr ?_
  · exact h.trans (by rw [← saveStart_firestore]; rfl)
  · intro k v hw
    obtain ⟨p, hm, hg, _, hf, _⟩ := wrote_photoField.mp hw
    obtain ⟨e, hs, he⟩ := hm
    cases served_upload hr hserve hs with
    | merge hp => exact hno p hp ((recorded_iff hr).mpr ⟨k, e, hs, he⟩) hg hf

theorem oneSave_of_run (hr : (app UIImage).run (saveStart s d id uuid) ls = some c)
    (hserve : ∀ l ∈ ls, l.isServe = true) :
    OneSave (s.device d).form id uuid
      (Recorded ((app UIImage).history (saveStart s d id uuid) ls)) s.firestore c.state.firestore where
  gallery := by
    intro j p hp hrec
    have h := recorded_field hr hserve (mem_photos_iff.mpr (.inr (.inr ⟨j, hp⟩))) hrec
    obtain ⟨_, _, _, _, rfl⟩ := hp
    exact h
  galleryKept := by
    intro f hno
    refine kept_field (g := true) hr hserve fun p hp hrec hg hf => ?_
    rcases mem_photos_iff.mp hp with ⟨_, _, _, _, rfl⟩ | ⟨_, _, _, _, rfl⟩ | ⟨j, hj⟩
    · cases hg
    · cases hg
    · exact hno j p hj hrec (by rw [← hf]; exact (isGallery_field hj).2)
  groom := by
    intro p hp hrec
    have h := recorded_field hr hserve (mem_photos_iff.mpr (.inl hp)) hrec
    obtain ⟨_, _, _, _, rfl⟩ := hp
    exact h
  bride := by
    intro p hp hrec
    have h := recorded_field hr hserve (mem_photos_iff.mpr (.inr (.inl hp))) hrec
    obtain ⟨_, _, _, _, rfl⟩ := hp
    exact h
  imagesKept := by
    intro f hgroom hbride
    refine kept_field (g := false) hr hserve fun p hp hrec hg hf => ?_
    rcases mem_photos_iff.mp hp with hj | hj | ⟨j, _, _, _, _, rfl⟩
    · exact hgroom p hj hrec (by rw [← hf]; exact (isPerson_field hj).2)
    · exact hbride p hj hrec (by rw [← hf]; exact (isPerson_field hj).2)
    · cases hg

theorem galleryUrls_of_run (hr : (app UIImage).run (saveStart s d id uuid) ls = some c)
    (hserve : ∀ l ∈ ls, l.isServe = true) (hempty : s.firestore.fields (document "Gallery" id) = ∅) :
    ∃ (ps : List Photo) (urls : List String), ps.Nodup ∧
      (∀ p, p ∈ ps ↔ (∃ j, IsGallery (s.device d).form.galleryImages id uuid j p) ∧
        Recorded ((app UIImage).history (saveStart s d id uuid) ls) p) ∧
      c.state.galleryUrls id = (urls, none) ∧ urls.Perm (ps.map Photo.path) := by
  classical
  obtain ⟨ps, hsub, hmem⟩ : ∃ ps : List Photo,
      ps.Sublist ((s.device d).form.galleryPhotos id uuid) ∧
      ∀ p, p ∈ ps ↔ p ∈ (s.device d).form.galleryPhotos id uuid ∧
        Recorded ((app UIImage).history (saveStart s d id uuid) ls) p :=
    ⟨((s.device d).form.galleryPhotos id uuid).filter
      fun p => Recorded ((app UIImage).history (saveStart s d id uuid) ls) p,
      List.filter_sublist, fun p => by rw [List.mem_filter, decide_eq_true_iff]⟩
  refine ⟨ps, _, (galleryPhotos_nodup _ id uuid).sublist hsub,
    fun p => (hmem p).trans (and_congr_left' mem_galleryPhotos), galleryUrls_eq c.state id, ?_⟩
  have hperm := gallery_perm hsub ∅ (c.state.firestore.fields (document "Gallery" id)) ?_ ?_
  · exact hperm.trans (by rw [show keptUrls _ ∅ = [] from rfl, List.append_nil])
  · intro p hp
    have h := recorded_field hr hserve (mem_photos_of_gallery ((hmem p).mp hp).1) ((hmem p).mp hp).2
    obtain ⟨_, _, _, _, _, rfl⟩ := mem_galleryPhotos.mp ((hmem p).mp hp).1
    exact h
  · intro f hno
    have h := kept_field (g := true) (f := f) hr hserve fun p hp hrec hg hf => ?_
    · exact h.trans (by rw [Store.field]; exact congrArg (AList.lookup f) hempty)
    · refine hno p ((hmem p).mpr ⟨?_, hrec⟩) hf
      rcases mem_photos_iff.mp hp with ⟨_, _, _, _, rfl⟩ | ⟨_, _, _, _, rfl⟩ | hj
      · cases hg
      · cases hg
      · exact mem_galleryPhotos.mpr hj

end Run

/-- One Save, whatever fails and in whatever order its callbacks run. -/
theorem one_save {s : State UIImage} {d : DeviceID} {id : String} {uuid : Nat → String}
    {ls : List (Label (Action UIImage) Env)} {c : Config (State UIImage) Task}
    (hr : (app UIImage).run (saveStart s d id uuid) ls = some c)
    (hserve : ∀ l ∈ ls, l.isServe = true) :
    OneSave (s.device d).form id uuid (Recorded ((app UIImage).history (saveStart s d id uuid) ls))
      s.firestore c.state.firestore ∧
    (c.pending = [] → ∀ p, IsPhoto (s.device d).form id uuid p →
      (∃ k e, Served ((app UIImage).history (saveStart s d id uuid) ls) k (.photoPut p) e) ∧
      (Recorded ((app UIImage).history (saveStart s d id uuid) ls) p ↔
        ¬ UploadFailed ((app UIImage).history (saveStart s d id uuid) ls) p)) ∧
    (∀ ls' c', (app UIImage).run (saveStart s d id uuid) ls' = some c' →
      (∀ l ∈ ls', l.isServe = true) →
      (∀ p, IsPhoto (s.device d).form id uuid p →
        (Recorded ((app UIImage).history (saveStart s d id uuid) ls) p ↔
          Recorded ((app UIImage).history (saveStart s d id uuid) ls') p)) →
      ∀ g f, c.state.firestore.field (photoDocument g id) f =
        c'.state.firestore.field (photoDocument g id) f) ∧
    (s.firestore.fields (document "Gallery" id) = ∅ →
      ∃ (ps : List Photo) (urls : List String), ps.Nodup ∧
        (∀ p, p ∈ ps ↔ (∃ j, IsGallery (s.device d).form.galleryImages id uuid j p) ∧
          Recorded ((app UIImage).history (saveStart s d id uuid) ls) p) ∧
        c.state.galleryUrls id = (urls, none) ∧ urls.Perm (ps.map Photo.path)) := by
  refine ⟨oneSave_of_run hr hserve, fun hq p hp => uploads_of_run hr hserve hq (mem_photos_iff.mpr hp),
    ?_, galleryUrls_of_run hr hserve⟩
  intro ls' c' hr' hserve' hsame g f
  have hsame : ∀ p ∈ (s.device d).form.photos id uuid,
      (Recorded ((app UIImage).history (saveStart s d id uuid) ls) p ↔
        Recorded ((app UIImage).history (saveStart s d id uuid) ls') p) :=
    fun p hp => hsame p (mem_photos_iff.mp hp)
  by_cases hex : ∃ p ∈ (s.device d).form.photos id uuid,
      Recorded ((app UIImage).history (saveStart s d id uuid) ls) p ∧ p.isGallery = g ∧ p.field = f
  · obtain ⟨p, hp, hrec, rfl, rfl⟩ := hex
    rw [recorded_field hr hserve hp hrec, recorded_field hr' hserve' hp ((hsame p hp).mp hrec)]
  · rw [kept_field hr hserve, kept_field hr' hserve']
    · intro p hp hrec hg hf; exact hex ⟨p, hp, (hsame p hp).mpr hrec, hg, hf⟩
    · intro p hp hrec hg hf; exact hex ⟨p, hp, hrec, hg, hf⟩

/-- A device whose form has a groom image and two gallery images. -/
def threeImages : State Data :=
  (State.new Data).onDevice 0 fun v =>
    { v with form := { v.form with groomImage := some [0], galleryImages := some [[1], [2]] } }

/-- The first gallery image fails to upload; the second is recorded before anything else is served. -/
def partialSave : List (Label (Action Data) Env) :=
  [.serve 2 .offline, .serve 2 .ok, .serve 2 .ok, .serve 0 .ok, .serve 0 .ok, .serve 0 .ok]

theorem partialSave_result :
    ∃ c, (app Data).run (saveStart threeImages 0 "0007" toString) partialSave = some c ∧
      c.pending = [] ∧ c.state.galleryUrls "0007" = (["images/0007/gallery/3.png"], none) ∧
      OneSave (threeImages.device 0).form "0007" toString
        (Recorded ((app Data).history (saveStart threeImages 0 "0007" toString) partialSave))
        threeImages.firestore c.state.firestore ∧
      ∀ p, IsPhoto (threeImages.device 0).form "0007" toString p →
        (Recorded ((app Data).history (saveStart threeImages 0 "0007" toString) partialSave) p ↔
          ¬ UploadFailed
            ((app Data).history (saveStart threeImages 0 "0007" toString) partialSave) p) := by
  have h : ((app Data).run (saveStart threeImages 0 "0007" toString) partialSave).map
      (fun c => (c.pending.length, c.state.galleryUrls "0007")) =
        some (0, ["images/0007/gallery/3.png"], none) := by decide
  obtain ⟨c, hr, hc⟩ := Option.map_eq_some_iff.mp h
  simp only [Prod.mk.injEq] at hc
  have hq : c.pending = [] := List.length_eq_zero_iff.mp hc.1
  have hserve : ∀ l ∈ partialSave, l.isServe = true := by
    intro l hl
    simp only [partialSave, List.mem_cons, List.not_mem_nil, or_false] at hl
    rcases hl with rfl | rfl | rfl | rfl | rfl | rfl <;> rfl
  obtain ⟨hone, hall, _⟩ := one_save hr hserve
  exact ⟨c, hr, hq, hc.2, hone, fun p hp => (hall hq p hp).2⟩

end WeddApp
