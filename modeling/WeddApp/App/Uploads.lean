import WeddApp.App.Step

/-!
# App.Uploads

The requests that one Save sends for its images: which photos they carry (`mem_photos_iff`), and that
two photos of one Save record their paths in different fields (`photo_unique`).
-/

namespace WeddApp

variable {UIImage : Type} [UIKit UIImage]

def photosOf (ts : List Task) : List Photo :=
  ts.filterMap fun
    | .photoPut p => some p
    | _ => none

omit [UIKit UIImage] in
theorem mem_photosOf {ts : List Task} {p : Photo} : p ∈ photosOf ts ↔ Task.photoPut p ∈ ts := by
  simp only [photosOf, List.mem_filterMap]
  constructor
  · rintro ⟨t, ht, hp⟩
    cases t <;> simp at hp
    subst hp; exact ht
  · intro h; exact ⟨_, h, rfl⟩

theorem mem_uploadPhoto {image : Option UIImage} {weddingID subfolder uuid : String}
    {isGallery : Bool} {photoIndex : Nat} {t : Task} :
    t ∈ uploadPhoto image weddingID subfolder isGallery photoIndex uuid ↔
      ∃ img data, image = some img ∧ UIKit.pngData img = some data ∧
        t = .photoPut ⟨data, weddingID, subfolder, isGallery, photoIndex, uuid⟩ := by
  cases image with
  | none => simp [uploadPhoto]
  | some img =>
    cases hd : UIKit.pngData img with
    | none => simp [uploadPhoto, hd]
    | some data => simp [uploadPhoto, hd]

theorem mem_uploadGallery_loop {weddingID subfolder : String} {uuid : Nat → String} {t : Task} :
    ∀ {index : Nat} {images : List UIImage},
      t ∈ uploadGallery.loop weddingID subfolder uuid index images ↔
        ∃ j img data, images[j]? = some img ∧ UIKit.pngData img = some data ∧
          t = .photoPut ⟨data, weddingID, subfolder, true, index + j + 1, uuid (index + j)⟩ := by
  intro index images
  induction images generalizing index with
  | nil => simp [uploadGallery.loop]
  | cons image images ih =>
    rw [uploadGallery.loop, List.mem_append, mem_uploadPhoto, ih]
    constructor
    · rintro (⟨img, data, hi, hd, ht⟩ | ⟨j, img, data, hj, hd, ht⟩)
      · exact ⟨0, img, data, by simpa using hi, hd, by simpa using ht⟩
      · refine ⟨j + 1, img, data, by simpa using hj, hd, ?_⟩
        rw [ht, show index + (j + 1) = index + 1 + j by omega]
    · rintro ⟨j, img, data, hj, hd, ht⟩
      cases j with
      | zero => exact .inl ⟨img, data, by simpa using hj, hd, by simpa using ht⟩
      | succ j =>
        refine .inr ⟨j, img, data, by simpa using hj, hd, ?_⟩
        rw [ht, show index + (j + 1) = index + 1 + j by omega]

theorem mem_uploadGallery {images : Option (List UIImage)} {weddingID subfolder : String}
    {uuid : Nat → String} {t : Task} :
    t ∈ uploadGallery images weddingID subfolder uuid ↔
      ∃ j img data, (images.getD [])[j]? = some img ∧ UIKit.pngData img = some data ∧
        t = .photoPut ⟨data, weddingID, subfolder, true, j + 1, uuid j⟩ := by
  cases images with
  | none => simp [uploadGallery]
  | some images => simp [uploadGallery, mem_uploadGallery_loop]

/-- The photo of a person, when the form has an image with PNG data for it. -/
def IsPerson (image : Option UIImage) (weddingID subfolder uuid : String) (p : Photo) : Prop :=
  ∃ img data, image = some img ∧ UIKit.pngData img = some data ∧
    p = ⟨data, weddingID, subfolder, false, 0, uuid⟩

/-- The photo of the gallery image at index `j`, when that image has PNG data. -/
def IsGallery (images : Option (List UIImage)) (weddingID : String) (uuid : Nat → String) (j : Nat)
    (p : Photo) : Prop :=
  ∃ img data, (images.getD [])[j]? = some img ∧ UIKit.pngData img = some data ∧
    p = ⟨data, weddingID, Constants.gallerySubfolder, true, j + 1, uuid (j + 2)⟩

theorem mem_uploadPhotos {form : FormScreen UIImage} {weddingID : String} {uuid : Nat → String}
    {t : Task} :
    t ∈ form.uploadPhotos weddingID uuid ↔ ∃ p, t = .photoPut p ∧
      (IsPerson form.groomImage weddingID Constants.groomSubfolder (uuid 0) p ∨
        IsPerson form.brideImage weddingID Constants.brideSubfolder (uuid 1) p ∨
        ∃ j, IsGallery form.galleryImages weddingID uuid j p) := by
  simp only [FormScreen.uploadPhotos, List.mem_append, mem_uploadPhoto, mem_uploadGallery]
  constructor
  · rintro ((⟨img, data, hi, hd, rfl⟩ | ⟨img, data, hi, hd, rfl⟩) | ⟨j, img, data, hi, hd, rfl⟩)
    · exact ⟨_, rfl, .inl ⟨img, data, hi, hd, rfl⟩⟩
    · exact ⟨_, rfl, .inr (.inl ⟨img, data, hi, hd, rfl⟩)⟩
    · exact ⟨_, rfl, .inr (.inr ⟨j, img, data, hi, hd, rfl⟩)⟩
  · rintro ⟨p, rfl, ⟨img, data, hi, hd, rfl⟩ | ⟨img, data, hi, hd, rfl⟩ | ⟨j, img, data, hi, hd, rfl⟩⟩
    · exact .inl (.inl ⟨img, data, hi, hd, rfl⟩)
    · exact .inl (.inr ⟨img, data, hi, hd, rfl⟩)
    · exact .inr ⟨j, img, data, hi, hd, rfl⟩

def FormScreen.photos (form : FormScreen UIImage) (weddingID : String) (uuid : Nat → String) :
    List Photo := photosOf (form.uploadPhotos weddingID uuid)

theorem mem_photos_iff {form : FormScreen UIImage} {weddingID : String} {uuid : Nat → String}
    {p : Photo} :
    p ∈ form.photos weddingID uuid ↔
      IsPerson form.groomImage weddingID Constants.groomSubfolder (uuid 0) p ∨
        IsPerson form.brideImage weddingID Constants.brideSubfolder (uuid 1) p ∨
        ∃ j, IsGallery form.galleryImages weddingID uuid j p := by
  rw [FormScreen.photos, mem_photosOf, mem_uploadPhotos]
  constructor
  · rintro ⟨q, hq, h⟩; cases hq; exact h
  · intro h; exact ⟨p, rfl, h⟩

theorem photo_shape {form : FormScreen UIImage} {weddingID : String} {uuid : Nat → String} {p : Photo}
    (h : p ∈ form.photos weddingID uuid) :
    p.weddingID = weddingID ∧
      (p.isGallery = false ∧ (p.subfolder = Constants.groomSubfolder ∨
          p.subfolder = Constants.brideSubfolder) ∨
        p.isGallery = true ∧ p.subfolder = Constants.gallerySubfolder ∧ 1 ≤ p.photoIndex) := by
  rcases mem_photos_iff.mp h with ⟨_, _, _, _, rfl⟩ | ⟨_, _, _, _, rfl⟩ | ⟨j, _, _, _, _, rfl⟩
  · exact ⟨rfl, .inl ⟨rfl, .inl rfl⟩⟩
  · exact ⟨rfl, .inl ⟨rfl, .inr rfl⟩⟩
  · exact ⟨rfl, .inr ⟨rfl, rfl, Nat.le_add_left 1 j⟩⟩

theorem isPerson_unique {image : Option UIImage} {weddingID subfolder uuid : String} {p q : Photo}
    (hp : IsPerson image weddingID subfolder uuid p)
    (hq : IsPerson image weddingID subfolder uuid q) : p = q := by
  obtain ⟨img, data, hi, hd, rfl⟩ := hp
  obtain ⟨img', data', hi', hd', rfl⟩ := hq
  rw [hi] at hi'; cases hi'
  rw [hd] at hd'; cases hd'
  rfl

theorem isGallery_unique {images : Option (List UIImage)} {weddingID : String} {uuid : Nat → String}
    {j : Nat} {p q : Photo} (hp : IsGallery images weddingID uuid j p)
    (hq : IsGallery images weddingID uuid j q) : p = q := by
  obtain ⟨img, data, hi, hd, rfl⟩ := hp
  obtain ⟨img', data', hi', hd', rfl⟩ := hq
  rw [hi] at hi'; cases hi'
  rw [hd] at hd'; cases hd'
  rfl

theorem isPerson_field {image : Option UIImage} {weddingID subfolder uuid : String} {p : Photo}
    (h : IsPerson image weddingID subfolder uuid p) :
    p.reference = document "Images" weddingID ∧ p.field = subfolder ++ "Url" := by
  obtain ⟨_, _, _, _, rfl⟩ := h
  exact ⟨rfl, rfl⟩

theorem isGallery_field {images : Option (List UIImage)} {weddingID : String} {uuid : Nat → String}
    {j : Nat} {p : Photo} (h : IsGallery images weddingID uuid j p) :
    p.reference = document "Gallery" weddingID ∧ p.field = "photo" ++ toString (j + 1) := by
  obtain ⟨_, _, _, _, rfl⟩ := h
  exact ⟨rfl, rfl⟩

/-- Within one Save, a field of a document is written for one photo only. -/
theorem photo_unique {form : FormScreen UIImage} {weddingID : String} {uuid : Nat → String}
    {p q : Photo} (hp : p ∈ form.photos weddingID uuid) (hq : q ∈ form.photos weddingID uuid)
    (hr : p.reference = q.reference) (hf : p.field = q.field) : p = q := by
  rw [mem_photos_iff] at hp hq
  have hgi : document "Gallery" weddingID ≠ document "Images" weddingID := document_ne (by decide)
  have hgb : Constants.groomSubfolder ++ "Url" ≠ Constants.brideSubfolder ++ "Url" := by decide
  rcases hp with hp | hp | ⟨j, hp⟩
  · rcases hq with hq | hq | ⟨j, hq⟩
    · exact isPerson_unique hp hq
    · rw [(isPerson_field hp).2, (isPerson_field hq).2] at hf
      exact absurd hf hgb
    · rw [(isPerson_field hp).1, (isGallery_field hq).1] at hr
      exact absurd hr hgi.symm
  · rcases hq with hq | hq | ⟨j, hq⟩
    · rw [(isPerson_field hp).2, (isPerson_field hq).2] at hf
      exact absurd hf.symm hgb
    · exact isPerson_unique hp hq
    · rw [(isPerson_field hp).1, (isGallery_field hq).1] at hr
      exact absurd hr hgi.symm
  · rcases hq with hq | hq | ⟨j', hq⟩
    · rw [(isGallery_field hp).1, (isPerson_field hq).1] at hr
      exact absurd hr hgi
    · rw [(isGallery_field hp).1, (isPerson_field hq).1] at hr
      exact absurd hr hgi
    · rw [(isGallery_field hp).2, (isGallery_field hq).2] at hf
      have hj : j + 1 = j' + 1 := Text.append_toString_injective hf
      cases hj
      exact isGallery_unique hp hq

def FormScreen.galleryPhotos (form : FormScreen UIImage) (weddingID : String) (uuid : Nat → String) :
    List Photo :=
  photosOf (uploadGallery form.galleryImages weddingID Constants.gallerySubfolder
    fun i => uuid (i + 2))

theorem mem_galleryPhotos {form : FormScreen UIImage} {weddingID : String} {uuid : Nat → String}
    {p : Photo} :
    p ∈ form.galleryPhotos weddingID uuid ↔ ∃ j, IsGallery form.galleryImages weddingID uuid j p := by
  rw [FormScreen.galleryPhotos, mem_photosOf, mem_uploadGallery]
  constructor
  · rintro ⟨j, img, data, hi, hd, ht⟩
    cases ht; exact ⟨j, img, data, hi, hd, rfl⟩
  · rintro ⟨j, img, data, hi, hd, rfl⟩
    exact ⟨j, img, data, hi, hd, rfl⟩

theorem mem_photos_of_gallery {form : FormScreen UIImage} {weddingID : String} {uuid : Nat → String}
    {p : Photo} (h : p ∈ form.galleryPhotos weddingID uuid) : p ∈ form.photos weddingID uuid :=
  mem_photos_iff.mpr (.inr (.inr (mem_galleryPhotos.mp h)))

theorem loop_sorted (weddingID subfolder : String) (uuid : Nat → String) (images : List UIImage)
    (index : Nat) :
    (photosOf (uploadGallery.loop weddingID subfolder uuid index images)).Pairwise
      fun p q => p.photoIndex < q.photoIndex := by
  induction images generalizing index with
  | nil => exact List.Pairwise.nil
  | cons image images ih =>
    have happ : photosOf (uploadGallery.loop weddingID subfolder uuid index (image :: images)) =
        photosOf (uploadPhoto (some image) weddingID subfolder true (index + 1) (uuid index)) ++
          photosOf (uploadGallery.loop weddingID subfolder uuid (index + 1) images) := by
      rw [uploadGallery.loop, photosOf, List.filterMap_append]; rfl
    rw [happ, List.pairwise_append]
    refine ⟨?_, ih (index + 1), ?_⟩
    · cases hd : UIKit.pngData image with
      | none => simp [uploadPhoto, hd, photosOf]
      | some data => simp [uploadPhoto, hd, photosOf]
    · intro p hp q hq
      obtain ⟨_, _, _, _, hp⟩ := mem_uploadPhoto.mp (mem_photosOf.mp hp)
      obtain ⟨j, _, _, _, _, hq⟩ := mem_uploadGallery_loop.mp (mem_photosOf.mp hq)
      cases hp; cases hq
      show index + 1 < index + 1 + j + 1
      omega

theorem galleryPhotos_nodup (form : FormScreen UIImage) (weddingID : String) (uuid : Nat → String) :
    (form.galleryPhotos weddingID uuid).Nodup := by
  unfold FormScreen.galleryPhotos uploadGallery
  split
  · rename_i images _
    refine (loop_sorted weddingID _ _ images 0).imp ?_
    intro p q hlt he
    rw [he] at hlt
    exact Nat.lt_irrefl _ hlt
  · exact List.nodup_nil

omit [UIKit UIImage] in
theorem nodup_of_photosOf {ts : List Task} (hts : ∀ t ∈ ts, ∃ p, t = .photoPut p)
    (h : (photosOf ts).Nodup) : ts.Nodup := by
  refine (List.pairwise_filterMap.mp h).imp_of_mem fun {t u} ht _ hne he => ?_
  obtain ⟨p, rfl⟩ := hts t ht
  subst he
  exact hne p rfl p rfl rfl

theorem uploadPhoto_nodup (image : Option UIImage) (weddingID subfolder uuid : String)
    (isGallery : Bool) (photoIndex : Nat) :
    (uploadPhoto image weddingID subfolder isGallery photoIndex uuid).Nodup := by
  unfold uploadPhoto
  split
  · exact List.nodup_nil
  · split
    · exact List.nodup_nil
    · exact List.nodup_singleton _

/-- A Save sends no request twice. -/
theorem uploadPhotos_nodup (form : FormScreen UIImage) (weddingID : String) (uuid : Nat → String) :
    (form.uploadPhotos weddingID uuid).Nodup := by
  have hgallery : (uploadGallery form.galleryImages weddingID Constants.gallerySubfolder
      fun i => uuid (i + 2)).Nodup := by
    refine nodup_of_photosOf (fun t ht => ?_) (galleryPhotos_nodup form weddingID uuid)
    obtain ⟨_, _, _, _, _, ht⟩ := mem_uploadGallery.mp ht
    exact ⟨_, ht⟩
  have hsub : Constants.groomSubfolder ≠ Constants.brideSubfolder := by decide
  unfold FormScreen.uploadPhotos
  refine List.nodup_append.mpr ⟨List.nodup_append.mpr ⟨uploadPhoto_nodup .., uploadPhoto_nodup .., ?_⟩,
    hgallery, ?_⟩
  · intro t ht u hu he
    obtain ⟨_, _, _, _, rfl⟩ := mem_uploadPhoto.mp ht
    obtain ⟨_, _, _, _, rfl⟩ := mem_uploadPhoto.mp hu
    simp only [Task.photoPut.injEq, Photo.mk.injEq] at he
    exact hsub he.2.2.1
  · intro t ht u hu he
    obtain ⟨_, _, _, _, _, rfl⟩ := mem_uploadGallery.mp hu
    rcases List.mem_append.mp ht with ht | ht
    · obtain ⟨_, _, _, _, rfl⟩ := mem_uploadPhoto.mp ht
      simp at he
    · obtain ⟨_, _, _, _, rfl⟩ := mem_uploadPhoto.mp ht
      simp at he

theorem onWeddingID_tasks {d : DeviceID} {id : Option String} {error : Option NSError}
    {uuid : Nat → String} {s : State UIImage} :
    (FormScreen.onWeddingID d id error uuid s).2 =
      match error, id with
      | none, some weddingID =>
        .weddingWrite weddingID ((s.device d).form.wedding weddingID).toDictionary ::
          (s.device d).form.uploadPhotos weddingID uuid
      | _, _ => [] := by
  unfold FormScreen.onWeddingID
  cases error with
  | some e => rfl
  | none => cases id <;> rfl

end WeddApp
