import WeddApp.Guests.Hosts
import WeddApp.Guests.Snapshot

/-!
# Guests.Saves

Where the images that guests see come from. Every path in a photo document was recorded for one Save
(`SaveOf`), and the photo was in the form when the Save read it. So an image on a guest's screen was
picked by a host of that very wedding, in the role in which it is shown (`shown_picked`).
-/

namespace WeddApp.Guests

open Async Documents

variable {UIImage : Type}

/-- `p` is a photo of a Save for `w`, and its upload was acknowledged. -/
def Uploads (h : History UIImage) [UIKit UIImage] (w : String) (p : Photo) : Prop :=
  p ∈ uploads h ∧ ∃ k d uid form uuid, SaveOf h k d uid w form uuid ∧ p ∈ form.photos w uuid

variable [UIKit UIImage]

section Server

variable {refusal : NSError} {s0 : State UIImage} {ls : List (Step UIImage)}
  {c : Config (World UIImage) (Job UIImage)} {k : Nat}

theorem saveOf_put {p : Photo} {e : Env}
    (hr : (live UIImage refusal).run (.init (.start s0)) ls = some c)
    (hs : Served ((live UIImage refusal).history (.init (.start s0)) ls) k (.server (.photoPut p)) e) :
    Uploads ((live UIImage refusal).history (.init (.start s0)) ls) p.weddingID p := by
  refine ⟨mem_uploads hs, ?_⟩
  obtain ⟨c1, u, e1, s, ts, hu, hserve, hmem⟩ := sent_of_task hr hs rfl
  cases serve_sends hserve hmem with
  | signUp _ hn => exact absurd rfl hn
  | @put d id _ hp =>
    obtain ⟨uid, hsave⟩ := saveOf_main hr hu
    rw [(photo_shape hp).1]
    exact ⟨k, d, uid, _, _, hsave, hp⟩

/-- Every path in a photo document was recorded for a photo of a Save. -/
theorem recorded_of_field (h0 : ∀ g id, s0.firestore.lookup (photoDocument g id) = none)
    (hr : (live UIImage refusal).run (.init (.start s0)) ls = some c) {g : Bool} {w f : String}
    {v : Value} (hv : c.state.server.firestore.field (photoDocument g w) f = some v) :
    ∃ p, v = .string p.path ∧ p.isGallery = g ∧ p.field = f ∧
      Uploads ((live UIImage refusal).history (.init (.start s0)) ls) w p := by
  have hinit : s0.firestore.field (photoDocument g w) f = none := by
    rw [Store.field, Store.fields, h0]; rfl
  rcases Register.held_or_written
    (R := (photoField g w f).onServer (Reads.reads UIImage) (backend UIImage refusal)) hr hv with h | h
  · cases hinit.symm.trans h
  · obtain ⟨k, j, e, hs, hw⟩ := h
    cases j with
    | request | reply => cases hw
    | server t =>
      obtain ⟨_, p, rfl, hg, rfl, hf, hpath⟩ := photoWrites_eq_some.mp hw
      obtain ⟨c1, u, e1, s, ts, hu, hserve, hmem⟩ := sent_of_task hr hs rfl
      cases serve_sends hserve hmem with
      | signUp _ hn => exact absurd rfl hn
      | merge _ => exact ⟨p, hpath, hg, hf, saveOf_put hr ⟨c1, hu⟩⟩

theorem object_of_upload
    (hr : (live UIImage refusal).run (.init (.start s0)) ls = some c)
    (hown : OwnPaths s0 ((live UIImage refusal).history (.init (.start s0)) ls)) {p : Photo}
    (hp : p ∈ uploads ((live UIImage refusal).history (.init (.start s0)) ls)) {v : Data}
    (hv : c.state.server.storage.lookup p.path = some v) : v = p.imageData := by
  rcases Register.held_or_written (R := object UIImage refusal p.path) hr hv with h | ⟨j, h⟩
  · cases (hown.unused p hp).symm.trans h
  · obtain ⟨q, e, hq, _, hpath, rfl⟩ := wrote_object h
    have he := List.inj_on_of_nodup_map hown.nodup (mem_uploads hq) hp hpath
    rw [he]

theorem image_of_upload
    (hr : (live UIImage refusal).run (.init (.start s0)) ls = some c)
    (hown : OwnPaths s0 ((live UIImage refusal).history (.init (.start s0)) ls)) {p : Photo}
    (hp : p ∈ uploads ((live UIImage refusal).history (.init (.start s0)) ls)) {image : UIImage}
    (hi : c.state.server.image p.path = some image) : UIKit.ofData p.imageData = some image := by
  obtain ⟨data, hdata, hdecode⟩ := Option.bind_eq_some_iff.mp hi
  unfold Storage.getData at hdata
  split at hdata
  · cases hdata
  · rename_i v hv
    split at hdata
    · cases hdata
      rw [object_of_upload hr hown hp hv] at hdecode
      exact hdecode
    · cases hdata

end Server

/-! ## What is shown -/

/-- A host picked `picked`, and a guest is shown `image`. -/
def Shows (picked image : UIImage) : Prop := (UIKit.pngData picked).bind UIKit.ofData = some image

section Shown

variable {refusal : NSError} {s0 : State UIImage} {ls : List (Step UIImage)}
  {c : Config (World UIImage) (Job UIImage)}

theorem person_picked (h0 : ∀ g id, s0.firestore.lookup (photoDocument g id) = none)
    (hdefault : s0.storage.lookup Constants.defaultImageURL = none)
    (hr : (live UIImage refusal).run (.init (.start s0)) ls = some c)
    (hown : OwnPaths s0 ((live UIImage refusal).history (.init (.start s0)) ls)) {w person : String}
    {doc : Document} {image : UIImage}
    (hdoc : c.state.server.firestore.lookup (document Constants.imagesCollection w) = some doc)
    (hi : c.state.server.image (Reads.imageUrl doc person) = some image) :
    ∃ m d uid form uuid picked,
      SaveOf ((live UIImage refusal).history (.init (.start s0)) ls) m d uid w form uuid ∧
      (person = Constants.groomSubfolder ∧ form.groomImage = some picked ∨
        person = Constants.brideSubfolder ∧ form.brideImage = some picked) ∧ Shows picked image := by
  cases hf : doc.lookup (person ++ "Url") with
  | none =>
    have hurl : Reads.imageUrl doc person = Constants.defaultImageURL := by
      rw [Reads.imageUrl, hf]; rfl
    have hstored := isSome_of_image hi
    rw [hurl, default_unwritten hr, hdefault] at hstored
    cases hstored
  | some v =>
    have hphoto : c.state.server.firestore.lookup (photoDocument false w) = some doc := hdoc
    have hfield : c.state.server.firestore.field (photoDocument false w) (person ++ "Url") = some v := by
      rw [Store.field, fields_of_lookup hphoto]; exact hf
    obtain ⟨p, rfl, hg, hpf, hup, m, d, uid, form, uuid, hsave, hp⟩ := recorded_of_field h0 hr hfield
    have hurl : Reads.imageUrl doc person = p.path := by rw [Reads.imageUrl, hf]; rfl
    rw [hurl] at hi
    have hdecode := image_of_upload hr hown hup hi
    have hperson : p.subfolder = person := by
      simp only [Photo.field, hg, Bool.false_eq_true, if_false] at hpf
      exact (String.append_left_inj _).mp hpf
    rw [mem_photos_iff] at hp
    rcases hp with ⟨picked, data, hpick, hpng, rfl⟩ | ⟨picked, data, hpick, hpng, rfl⟩ |
      ⟨_, _, _, _, _, rfl⟩
    · refine ⟨m, d, uid, form, uuid, picked, hsave, .inl ⟨hperson.symm, hpick⟩, ?_⟩
      rw [Shows, hpng]; exact hdecode
    · refine ⟨m, d, uid, form, uuid, picked, hsave, .inr ⟨hperson.symm, hpick⟩, ?_⟩
      rw [Shows, hpng]; exact hdecode
    · cases hg

theorem photo_picked (h0 : ∀ g id, s0.firestore.lookup (photoDocument g id) = none)
    (hr : (live UIImage refusal).run (.init (.start s0)) ls = some c)
    (hown : OwnPaths s0 ((live UIImage refusal).history (.init (.start s0)) ls)) {w url : String}
    {image : UIImage} (hurl : url ∈ galleryUrls c.state.server w)
    (hi : c.state.server.image url = some image) :
    ∃ m d uid form uuid picked,
      SaveOf ((live UIImage refusal).history (.init (.start s0)) ls) m d uid w form uuid ∧
      picked ∈ form.galleryImages.getD [] ∧ Shows picked image := by
  obtain ⟨⟨f, v⟩, hf, hv⟩ := List.mem_filterMap.mp hurl
  have hfield : c.state.server.firestore.field (photoDocument true w) f = some v := mem_toList.mp hf
  obtain ⟨p, rfl, hg, _, hup, m, d, uid, form, uuid, hsave, hp⟩ := recorded_of_field h0 hr hfield
  have hpath : p.path = url := by
    simp only [Reads.photoUrl, Value.asString_string] at hv
    split at hv
    · exact Option.some.inj hv
    · cases hv
  rw [← hpath] at hi
  have hdecode := image_of_upload hr hown hup hi
  rw [mem_photos_iff] at hp
  rcases hp with ⟨_, _, _, _, rfl⟩ | ⟨_, _, _, _, rfl⟩ | ⟨j, picked, data, hpick, hpng, rfl⟩
  · cases hg
  · cases hg
  · refine ⟨m, d, uid, form, uuid, picked, hsave, List.mem_of_getElem? hpick, ?_⟩
    rw [Shows, hpng]; exact hdecode

section Guests

variable (h0 : ∀ g id, s0.firestore.lookup (photoDocument g id) = none)
  (hr : (live UIImage refusal).run (.init (.start s0)) ls = some c)
  (hown : OwnPaths s0 ((live UIImage refusal).history (.init (.start s0)) ls)) {k : Nat}

include h0 hr hown

theorem person_shown_picked (hdefault : s0.storage.lookup Constants.defaultImageURL = none)
    {image : UIImage} (hdone : (k, .person (some image) none) ∈ c.state.client.completions) :
    ∃ w person m d uid form uuid picked,
      c.state.client.calls[k]? = some (.getImageOf w person) ∧
      SaveOf ((live UIImage refusal).history (.init (.start s0)) ls) m d uid w form uuid ∧
      (person = Constants.groomSubfolder ∧ form.groomImage = some picked ∨
        person = Constants.brideSubfolder ∧ form.brideImage = some picked) ∧ Shows picked image := by
  obtain ⟨w, person, c1, hcall, hs⟩ := person_of_completion h0 hr hown hdone
  obtain ⟨_, _, hread, _⟩ := hs.read
  obtain ⟨doc, hdoc, hi⟩ := hs.image
  obtain ⟨ls1, h1, _, hpre⟩ := System.pending_of_served hr hread
  obtain ⟨m, d, uid, form, uuid, picked, hsave, hrole, hshow⟩ :=
    person_picked h0 hdefault h1 (hown.earlier hpre) hdoc hi
  exact ⟨w, person, m, d, uid, form, uuid, picked, hcall, hsave.mono hpre.subset, hrole, hshow⟩

theorem gallery_shown_picked {photos : List (Option UIImage)} {image : UIImage}
    (hdone : (k, .gallery photos) ∈ c.state.client.completions) (himage : some image ∈ photos) :
    ∃ w m d uid form uuid picked, c.state.client.calls[k]? = some (.retrieveGallery w) ∧
      SaveOf ((live UIImage refusal).history (.init (.start s0)) ls) m d uid w form uuid ∧
      picked ∈ form.galleryImages.getD [] ∧ Shows picked image := by
  obtain ⟨w, c1, hcall, hs⟩ := gallery_of_completion h0 hr hown hdone
  obtain ⟨_, _, hread, _⟩ := hs.read
  obtain ⟨downloads, hurls, hphotos, himages⟩ := hs.photos
  obtain ⟨ls1, h1, _, hpre⟩ := System.pending_of_served hr hread
  obtain ⟨x, hx, hx2⟩ := List.mem_map.mp (hphotos.mem_iff.mp himage)
  have hi : c1.state.server.image x.1 = some image := by
    rcases himages x hx with he | ⟨he, _⟩
    · rw [← he, hx2]
    · rw [he] at hx2
      cases hx2
  obtain ⟨m, d, uid, form, uuid, picked, hsave, hpick, hshow⟩ := photo_picked h0 h1
    (hown.earlier hpre) (hurls.mem_iff.mp (List.mem_map.mpr ⟨x, hx, rfl⟩)) hi
  exact ⟨w, m, d, uid, form, uuid, picked, hcall, hsave.mono hpre.subset, hpick, hshow⟩

end Guests

/-- Guests are only shown what hosts of the wedding picked for it. -/
theorem shown_picked (h0 : ∀ g id, s0.firestore.lookup (photoDocument g id) = none)
    (hdefault : s0.storage.lookup Constants.defaultImageURL = none)
    (hr : (live UIImage refusal).run (.init (.start s0)) ls = some c)
    (hown : OwnPaths s0 ((live UIImage refusal).history (.init (.start s0)) ls)) :
    (∀ k image, (k, .person (some image) none) ∈ c.state.client.completions →
      ∃ w person m d uid form uuid picked,
        c.state.client.calls[k]? = some (.getImageOf w person) ∧
        SaveOf ((live UIImage refusal).history (.init (.start s0)) ls) m d uid w form uuid ∧
        (person = Constants.groomSubfolder ∧ form.groomImage = some picked ∨
          person = Constants.brideSubfolder ∧ form.brideImage = some picked) ∧ Shows picked image) ∧
    ∀ k photos image, (k, .gallery photos) ∈ c.state.client.completions → some image ∈ photos →
      ∃ w m d uid form uuid picked, c.state.client.calls[k]? = some (.retrieveGallery w) ∧
        SaveOf ((live UIImage refusal).history (.init (.start s0)) ls) m d uid w form uuid ∧
        picked ∈ form.galleryImages.getD [] ∧ Shows picked image :=
  ⟨fun _ _ hdone => person_shown_picked h0 hr hown hdefault hdone,
    fun _ _ _ hdone himage => gallery_shown_picked h0 hr hown hdone himage⟩

end Shown

theorem savedMeanwhile_picked : ∃ c w person m d uid form uuid picked,
    (live Data "").run (.init (.start hostState)) savedMeanwhile = some c ∧
    SaveOf ((live Data "").history (.init (.start hostState)) savedMeanwhile) m d uid w form uuid ∧
    (person = Constants.groomSubfolder ∧ form.groomImage = some picked ∨
      person = Constants.brideSubfolder ∧ form.brideImage = some picked) ∧ Shows picked [7] := by
  obtain ⟨c, hr, hdone⟩ : ∃ c,
      (live Data "").run (.init (.start hostState)) savedMeanwhile = some c ∧
      c.state.client.completions[1]? = some (1, .person (some [7]) none) := ⟨_, rfl, rfl⟩
  obtain ⟨w, person, m, d, uid, form, uuid, picked, _, hs, hrole, hshow⟩ :=
    (shown_picked hostState_photos rfl hr savedMeanwhile_ownPaths).1 1 [7]
      (List.mem_of_getElem? hdone)
  exact ⟨c, w, person, m, d, uid, form, uuid, picked, hr, hs, hrole, hshow⟩

end WeddApp.Guests
