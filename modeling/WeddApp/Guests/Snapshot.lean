import WeddApp.Guests.Live
import WeddApp.Reads.Barrier

/-!
# Guests.Snapshot

A gallery takes one request for its document and one for each photo, and hosts may save in between.
Still a guest never sees a mixture of two states of the wedding: what the handler gets is what one
state of the stores holds, the one in which the document was read (`gallery_of_completion`,
`person_of_completion`). Paths are never used twice and objects are never removed, so a path that was
recorded once leads to the same object for ever.
-/

namespace WeddApp.Guests

open Async Documents

variable {UIImage : Type}

def DownloadFailed (h : History UIImage) (k : Nat) (url : String) : Prop :=
  ∃ c j e, ServedAt h c j (.request (.imageData (.gallery k) url)) e ∧ e.error ≠ none

theorem galleryUrls_of_lookup (s : State UIImage) (w : String) :
    (Reads.getGalleryUrls.onDocument
      (.ok (s.firestore.lookup (document Constants.galleryCollection w)))).1 = galleryUrls s w := by
  rw [galleryUrls, Store.fields]
  cases s.firestore.lookup (document Constants.galleryCollection w) with
  | none => rfl
  | some doc => rfl

variable [UIKit UIImage]

/-- The gallery of `w` that call `k` got, as it was in `c1`: after the call and before its handler was
called. -/
structure GallerySnapshot (h : History UIImage) (c1 : Config (World UIImage) (Job UIImage)) (k : Nat)
    (w : String) (photos : List (Option UIImage)) : Prop where
  read : ∃ j e, ServedAt h c1 j (.request (.galleryDocument (.gallery k) w)) e ∧ e.error = none
  called : c1.state.client.calls[k]? = some (.retrieveGallery w)
  unanswered : c1.state.client.answers k = []
  photos : ∃ downloads : List (String × Option UIImage),
    (downloads.map Prod.fst).Perm (galleryUrls c1.state.server w) ∧
    photos.Perm (downloads.map Prod.snd) ∧
    ∀ x ∈ downloads, x.2 = c1.state.server.image x.1 ∨ x.2 = none ∧ DownloadFailed h k x.1

section Gallery

variable {refusal : NSError} {s0 : State UIImage} {ls : List (Step UIImage)}
  {c c1 : Config (World UIImage) (Job UIImage)} {k : Nat}

theorem stored_of_download (h0 : ∀ g id, s0.firestore.lookup (photoDocument g id) = none)
    {url : String} {ls1 ls2 : List (Step UIImage)}
    (hreach : Reached refusal s0 ls c c1 (.imageData (.gallery k) url) ls1 ls2) :
    (c1.state.server.storage.lookup url).isSome := by
  obtain ⟨u, reply, ⟨c0, hrep⟩, hsend⟩ := hreach.sent rfl
  cases hsend with
  | @gallery _ w _ doc hurl =>
    obtain ⟨_, hdoc⟩ := document_of_reply (fun _ _ => rfl) hrep
    obtain ⟨ls0, ls0', hreach0⟩ := reached_of_reply hreach.before hrep
    have hmem : url ∈ galleryUrls c0.state.server w := by
      rw [galleryUrls, fields_of_lookup hdoc.symm]; exact hurl
    exact stored_stays hreach0.after
      (stored_of_photoUrls (noDangling_of_run h0 hreach0.before) hmem)

/-- What a download brings is what the stores hold at any time at which the path is stored. -/
theorem image_of_download (h0 : ∀ g id, s0.firestore.lookup (photoDocument g id) = none)
    (hr : (live UIImage refusal).run (.init (.start s0)) ls = some c)
    (hown : OwnPaths s0 ((live UIImage refusal).history (.init (.start s0)) ls))
    {ls1 ls2 : List (Step UIImage)} {t : Reads.Request UIImage}
    (hreach : Reached refusal s0 ls c c1 t ls1 ls2) {url : String}
    (hstored : (c1.state.server.storage.lookup url).isSome) {reply : Except NSError Data}
    (hrep : Network.Replied (backend UIImage refusal)
      ((live UIImage refusal).history (.init (.start s0)) ls) (.imageData (.gallery k) url)
      (.data reply)) :
    Reads.outcome reply = c1.state.server.image url ∨
      (Reads.outcome reply : Option UIImage) = none ∧
        DownloadFailed ((live UIImage refusal).history (.init (.start s0)) ls) k url := by
  obtain ⟨c2, hrep⟩ := hrep
  obtain ⟨ls3, ls4, hreach2⟩ := reached_of_reply hr hrep
  obtain ⟨j, e, hs, hreply⟩ := hrep
  simp only [backend, answer, Reads.Reply.data.injEq] at hreply
  subst hreply
  cases he : e.error with
  | some m => exact .inr ⟨rfl, c2, j, e, hs, by rw [he]; nofun⟩
  | none =>
    refine .inl ?_
    rw [outcome_download]
    exact image_congr (object_same hown hreach2.before hreach.before hreach2.mem hreach.mem
      (stored_of_download h0 hreach2) hstored)

omit [UIKit UIImage] in
theorem galleryRead_eq_some {t : Reads.Request UIImage} {reply : Reads.Reply} {urls : List String}
    (h : Reads.galleryRead t reply = some urls) : ∃ w found, t = .galleryDocument (.gallery t.call) w ∧
      reply = .document (.ok found) ∧ (Reads.getGalleryUrls.onDocument (.ok found)).1 = urls := by
  unfold Reads.galleryRead at h
  split at h
  · rename_i w found
    exact ⟨w, found, rfl, rfl, Option.some.inj h⟩
  · cases h

theorem galleryDownload_eq_some {t : Reads.Request UIImage} {reply : Reads.Reply}
    {x : String × Option UIImage} (h : Reads.galleryDownload t reply = some x) :
    ∃ data, t = .imageData (.gallery t.call) x.1 ∧ reply = .data data ∧ x.2 = Reads.outcome data := by
  unfold Reads.galleryDownload at h
  split at h
  · rename_i data
    cases h
    exact ⟨data, rfl, rfl, rfl⟩
  · cases h

/-- A gallery that was shown is the gallery at the time at which its document was read, up to the
downloads that failed. -/
theorem gallery_of_completion (h0 : ∀ g id, s0.firestore.lookup (photoDocument g id) = none)
    (hr : (live UIImage refusal).run (.init (.start s0)) ls = some c)
    (hown : OwnPaths s0 ((live UIImage refusal).history (.init (.start s0)) ls))
    {photos : List (Option UIImage)} (hdone : (k, .gallery photos) ∈ c.state.client.completions) :
    ∃ w c1, c.state.client.calls[k]? = some (.retrieveGallery w) ∧
      GallerySnapshot ((live UIImage refusal).history (.init (.start s0)) ls) c1 k w photos := by
  obtain ⟨ls', d, hside⟩ := Network.client_of_run hr
  have hanswer : .gallery photos ∈ d.state.answers k := by
    rw [hside.state]
    exact Reads.mem_answers.mpr hdone
  cases Reads.galleryPhase_of_run hside.run k with
  | before _ _ _ ha => exact absurd hanswer (ha photos)
  | gathering _ _ _ _ _ ha | collected _ _ _ _ _ _ ha =>
    rw [ha] at hanswer
    cases hanswer
  | done urls photos' hreads _ hg ha =>
    rw [ha, List.mem_singleton] at hanswer
    cases hanswer
    have hurls := hg.urls
    have hphotos := hg.photos
    simp only [List.filterMap_nil, List.nil_append, List.append_nil] at hurls hphotos
    obtain ⟨x, hx, hread⟩ := List.mem_filterMap.mp (hreads ▸ List.mem_singleton_self urls)
    have hserved := mem_servedOf.mp hx
    obtain ⟨w, found, ht, hreply, hfound⟩ := galleryRead_eq_some hread
    rw [Reads.call_of_served hside.run hserved] at ht
    rw [ht, hreply] at hserved
    obtain ⟨c1, hrep⟩ := hside.replied _ _ _ hserved
    obtain ⟨ls1, ls2, hreach⟩ := reached_of_reply hr hrep
    obtain ⟨hanswered, hdoc⟩ := document_of_reply (fun _ _ => rfl) hrep
    rw [hdoc, galleryUrls_of_lookup] at hfound
    subst hfound
    refine ⟨w, c1, hreach.call rfl, hanswered, hreach.asked k _ rfl, hreach.unanswered, _, hurls, hphotos,
      fun y hy => ?_⟩
    have hmem : y.1 ∈ galleryUrls c1.state.server w :=
      hurls.mem_iff.mp (List.mem_map.mpr ⟨y, hy, rfl⟩)
    have hstored := stored_of_photoUrls (noDangling_of_run h0 hreach.before) hmem
    obtain ⟨z, hz, hdown⟩ := List.mem_filterMap.mp hy
    have hserved := mem_servedOf.mp hz
    obtain ⟨data, ht, hreply, houtcome⟩ := galleryDownload_eq_some hdown
    rw [Reads.call_of_served hside.run hserved] at ht
    rw [ht, hreply] at hserved
    rw [houtcome]
    exact image_of_download h0 hr hown hreach hstored (hside.replied _ _ _ hserved)

end Gallery

/-! ## The image of a person -/

/-- The image of `person` that call `k` got for `w`, as it was in `c1`. -/
structure PersonSnapshot (h : History UIImage) (c1 : Config (World UIImage) (Job UIImage)) (k : Nat)
    (w person : String) (image : UIImage) : Prop where
  read : ∃ j e, ServedAt h c1 j (.request (.imageDocument k w person)) e ∧ e.error = none
  called : c1.state.client.calls[k]? = some (.getImageOf w person)
  unanswered : c1.state.client.answers k = []
  image : ∃ doc, c1.state.server.firestore.lookup (document Constants.imagesCollection w) = some doc ∧
    c1.state.server.image (Reads.imageUrl doc person) = some image

section Person

variable {refusal : NSError} {s0 : State UIImage} {ls : List (Step UIImage)}
  {c c1 : Config (World UIImage) (Job UIImage)} {k : Nat}

omit [UIKit UIImage] in
theorem path_ne_default (p : Photo) : p.path ≠ Constants.defaultImageURL := by
  intro h
  have hlen := congrArg String.length h
  simp [Photo.path, Constants.defaultImageURL] at hlen

/-- Nothing is ever uploaded to the path that stands for a missing one. -/
theorem default_unwritten (hr : (live UIImage refusal).run (.init (.start s0)) ls = some c) :
    c.state.server.storage.lookup Constants.defaultImageURL =
      s0.storage.lookup Constants.defaultImageURL := by
  refine Register.unwritten (R := object UIImage refusal Constants.defaultImageURL) hr ?_
  intro j v hw
  obtain ⟨p, _, _, _, hp, _⟩ := wrote_object hw
  exact path_ne_default p hp

theorem image_of_reply {h : History UIImage} {handler : Reads.ImageHandler} {url : String}
    {reply : Except NSError Data} {image : UIImage}
    (hrep : Network.RepliedAt (backend UIImage refusal) h c1 (.imageData handler url) (.data reply))
    (ho : Reads.outcome reply = some image) : c1.state.server.image url = some image := by
  obtain ⟨j, e, _, hr⟩ := hrep
  simp only [backend, answer, Reads.Reply.data.injEq] at hr
  subst hr
  cases he : e.error with
  | none =>
    rw [he, outcome_download] at ho
    exact ho
  | some m =>
    rw [he, outcome_failed] at ho
    cases ho

/-- The image of a person that was shown is the one at the time at which the document was read. -/
theorem person_of_completion (h0 : ∀ g id, s0.firestore.lookup (photoDocument g id) = none)
    (hr : (live UIImage refusal).run (.init (.start s0)) ls = some c)
    (hown : OwnPaths s0 ((live UIImage refusal).history (.init (.start s0)) ls)) {image : UIImage}
    (hdone : (k, .person (some image) none) ∈ c.state.client.completions) :
    ∃ w person c1, c.state.client.calls[k]? = some (.getImageOf w person) ∧
      PersonSnapshot ((live UIImage refusal).history (.init (.start s0)) ls) c1 k w person image := by
  obtain ⟨ls', d, hside⟩ := Network.client_of_run hr
  rw [← hside.state] at hdone
  obtain ⟨_, _, w, person, doc, reply, hdocument, hdata, ho⟩ := Reads.person_trace hside.run hdone
  obtain ⟨c2, hrep2⟩ := hside.replied _ _ _ hdata
  obtain ⟨c1, hrep1⟩ := hside.replied _ _ _ hdocument
  obtain ⟨ls3, ls4, hreach2⟩ := reached_of_reply hr hrep2
  obtain ⟨ls1, ls2, hreach1⟩ := reached_of_reply hr hrep1
  obtain ⟨hanswered, hdoc⟩ := document_of_reply (fun _ _ => rfl) hrep1
  have himage := image_of_reply hrep2 ho
  have hurl : (c1.state.server.storage.lookup (Reads.imageUrl doc person)).isSome ∨
      Reads.imageUrl doc person = Constants.defaultImageURL :=
    stored_of_imageUrl (noDangling_of_run h0 hreach1.before) hdoc.symm
  refine ⟨w, person, c1, hreach1.call rfl, hanswered, hreach1.asked k _ rfl, hreach1.unanswered, doc,
    hdoc.symm, ?_⟩
  rw [← himage]
  refine image_congr ?_
  rcases hurl with hstored | hdefault
  · exact object_same hown hreach1.before hreach2.before hreach1.mem hreach2.mem hstored
      (isSome_of_image himage)
  · rw [hdefault, default_unwritten hreach1.before, default_unwritten hreach2.before]

end Person

/-! ## A Save between the reads -/

/-- The `n` callbacks from position `i` on are answered. -/
def answered (i n : Nat) : List (Step Data) := List.replicate n (.serve i .ok)

/-- A Save of `form`, while `i` other callbacks are pending; `n` is the number of its uploads and
merges and of the write of the wedding. -/
def saving (i : Nat) (form : FormScreen Data) (name : String) (n : Nat) : List (Step Data) :=
  .act (.inl (.editForm 0 form)) .ok :: .act (.inl (.tapSave 0)) .ok :: .serve i .ok ::
    .serve i (uuids name) :: answered i n

/-- The host of `hostState` saves; a guest reads the documents; the host saves other images; the
downloads of the guest are answered. -/
def savedMeanwhile : List (Step Data) :=
  saving 0 { hostForm "Izmir" [[1], [2]] with groomImage := some [7] } "a" 7 ++
    .act (.inr (.retrieveGallery "0007")) .ok :: .act (.inr (.getImageOf "0007" "groom")) .ok ::
    answered 0 4 ++ saving 3 { hostForm "Ankara" [[3]] with groomImage := some [8] } "b" 5 ++
    answered 0 16

theorem hostState_photos (g : Bool) (id : String) :
    hostState.firestore.lookup (photoDocument g id) = none := by
  have hne : photoDocument g id ≠ userDocument "A" := photoDocument_ne (by decide) (by decide)
  show (Store.set ∅ (userDocument "A") _).lookup (photoDocument g id) = none
  rw [lookup_set, if_neg hne]
  rfl

theorem savedMeanwhile_ownPaths :
    OwnPaths hostState ((live Data "").history (.init (.start hostState)) savedMeanwhile) where
  unused := by
    intro p _
    rfl
  nodup := by decide +kernel

end WeddApp.Guests
