import WeddApp.Guests.Pages
import WeddApp.Guests.Saves
import WeddApp.Guests.Wishes

/-!
# Guests.Home

What the pages of a wedding show, in every run of hosts and guests around them.

* `pages_show`: the pictures were picked by the host of the wedding, each for its place, and the
  wishes were submitted to the wedding.
* `wishes_stay`: while no wishes are being read, none that are shown can get lost.
* `page_final`: a page that shows a picture, and waits for none, keeps its pictures as they are. So an
  introduction with one of its two images missing stays like that, and a gallery never gets the photos
  of a later Save.
-/

namespace WeddApp.Guests

open Async Documents

variable {UIImage : Type}

/-- `image` shows a picture of a form that was saved for `w`. -/
def Picked [UIKit UIImage] (h : History UIImage) (w : String)
    (of : FormScreen UIImage → UIImage → Prop) (image : UIImage) : Prop :=
  ∃ k d uid form uuid picked, SaveOf h k d uid w form uuid ∧ of form picked ∧ Shows picked image

/-- The pages show what the host of their wedding picked and what guests wished. -/
structure PagesShow [UIKit UIImage] [Inhabited UIImage] (h : History UIImage) (p : HomePage UIImage) :
    Prop where
  groomImage : ∀ image, p.introduction.groomImage = some image →
    Picked h p.id (fun form picked => form.groomImage = some picked) image
  brideImage : ∀ image, p.introduction.brideImage = some image →
    Picked h p.id (fun form picked => form.brideImage = some picked) image
  photos : ∀ photo ∈ p.gallery.photos, photo = default ∨
    Picked h p.id (fun form picked => picked ∈ form.galleryImages.getD []) photo
  wishes : ∀ wishes, p.story.wishes = some wishes → ∀ wish ∈ wishes,
    ∃ c d guestName text date e, (c, .act (.inl (.tapSubmit d p.id guestName text date)) e) ∈ h ∧
      wish = Wish.init guestName text date

section Home

variable [UIKit UIImage] [Inhabited UIImage] {refusal : NSError} {s0 : State UIImage} {w : String}
  {ms ms' : List (Move UIImage)} {c c' : Config (World UIImage) (Job UIImage)}
  {p p' : HomePage UIImage}

abbrev steps (refusal : NSError) (s0 : State UIImage) (w : String) (ms : List (Move UIImage)) :
    List (Step UIImage) :=
  (screen UIImage refusal).trace (.init (.start s0)) (.new UIImage w) ms

omit [UIKit UIImage] in
theorem Tracks.call (hI : Tracks c p) {k : Nat} {f : Fetch} (hf : p.fetches[k]? = some f) :
    c.state.client.calls[k]? = some (f.call p.id) := by
  rw [hI.calls, List.getElem?_map, hf]
  rfl

theorem pages_show (h0 : ∀ g id, s0.firestore.lookup (photoDocument g id) = none)
    (hdefault : s0.storage.lookup Constants.defaultImageURL = none)
    (hempty : ∀ g, s0.wishDocument w g = none)
    (hr : (screen UIImage refusal).run (.init (.start s0)) (.new UIImage w) ms = some (c, p))
    (hpaths : OwnPaths s0
      ((live UIImage refusal).history (.init (.start s0)) (steps refusal s0 w ms))) :
    p.id = w ∧
      PagesShow ((live UIImage refusal).history (.init (.start s0)) (steps refusal s0 w ms)) p := by
  obtain ⟨hI, hid⟩ := (tracks_new s0 w).run hr
  have hlive := Driver.run_system hr
  refine ⟨hid, fun image h => ?_, fun image h => ?_, fun photo hm => ?_, fun wishes h wish hm => ?_⟩
  · obtain ⟨k, hf, hdone⟩ := hI.groomImage image h
    obtain ⟨_, _, m, d, uid, form, uuid, picked, hcall, hsave, hrole, hshow⟩ :=
      person_shown_picked h0 hlive hpaths hdefault hdone
    rw [hI.call hf] at hcall
    cases hcall
    rcases hrole with ⟨_, hrole⟩ | ⟨he, _⟩
    · exact ⟨m, d, uid, form, uuid, picked, hsave, hrole, hshow⟩
    · exact absurd he (by decide)
  · obtain ⟨k, hf, hdone⟩ := hI.brideImage image h
    obtain ⟨_, _, m, d, uid, form, uuid, picked, hcall, hsave, hrole, hshow⟩ :=
      person_shown_picked h0 hlive hpaths hdefault hdone
    rw [hI.call hf] at hcall
    cases hcall
    rcases hrole with ⟨he, _⟩ | ⟨_, hrole⟩
    · exact absurd he (by decide)
    · exact ⟨m, d, uid, form, uuid, picked, hsave, hrole, hshow⟩
  · obtain ⟨uiImages, ⟨k, hf, hdone⟩, he⟩ := hI.photos (List.ne_nil_of_mem hm)
    rw [he] at hm
    obtain ⟨uiImage, hui, rfl⟩ := List.mem_map.mp hm
    cases uiImage with
    | none => exact .inl rfl
    | some image =>
      obtain ⟨_, m, d, uid, form, uuid, picked, hcall, hsave, hpick, hshow⟩ :=
        gallery_shown_picked h0 hlive hpaths hdone hui
      rw [hI.call hf] at hcall
      cases hcall
      exact .inr ⟨m, d, uid, form, uuid, picked, hsave, hpick, hshow⟩
  · obtain ⟨k, hf, hdone⟩ := hI.wishes wishes h
    have hcall := hI.call hf
    rw [hid] at hcall ⊢
    exact wishes_submitted hlive hempty hdone hcall hm

/-! ## While nothing is being read -/

omit [UIKit UIImage] [Inhabited UIImage] in
/-- The read number `k` of the pages is one of `f`, and is under way. -/
def WaitsAt (c : Config (World UIImage) (Job UIImage)) (p : HomePage UIImage) (f : Fetch) (k : Nat) :
    Prop :=
  p.fetches[k]? = some f ∧ Asking c k

omit [UIKit UIImage] in
/-- What is under way after a move was under way before, or a page has just asked for it. -/
theorem waitsAt_of_moved (hI : Tracks c p) (hm : Moved c c' p p') {f : Fetch} {k : Nat}
    (h : WaitsAt c' p' f k) :
    WaitsAt c p f k ∨ p.fetches.length ≤ k ∧ ∃ page, f ∈ p.onAppear page := by
  obtain ⟨hf, hk⟩ := h
  cases hm with
  | idles _ _ hask => exact .inl ⟨hf, hask k hk⟩
  | answers _ _ _ hask =>
    rw [answer_fetches] at hf
    exact .inl ⟨hf, hask k hk⟩
  | @appears page _ _ hask =>
    rcases Nat.lt_or_ge k p.fetches.length with hlt | hge
    · rw [List.getElem?_append_left hlt] at hf
      rcases hask k hk with hk | hk
      · exact .inl ⟨hf, hk⟩
      · rw [hI.calls, List.length_map] at hk
        omega
    · rw [List.getElem?_append_right hge] at hf
      exact .inr ⟨hge, page, List.mem_of_getElem? hf⟩

/-- Since the page `p`, whose reads were `p.fetches`, the wishes are its own or those of a later
read. -/
structure Newer (p : HomePage UIImage) (c' : Config (World UIImage) (Job UIImage))
    (p' : HomePage UIImage) : Prop where
  tracks : Tracks c' p'
  fetches : p.fetches <+: p'.fetches
  waits : ∀ k, WaitsAt c' p' .wishes k → p.fetches.length ≤ k
  story : p'.story = p.story ∨ ∃ k wishes, p.fetches.length ≤ k ∧ p'.fetches[k]? = some .wishes ∧
    (k, .wishes wishes none) ∈ c'.state.client.completions ∧ p'.story.wishes = some wishes

omit [UIKit UIImage] in
theorem Newer.step {c1 c2 : Config (World UIImage) (Job UIImage)} {p1 p2 : HomePage UIImage}
    (hI : Newer p c1 p1) (hm : Moved c1 c2 p1 p2) : Newer p c2 p2 := by
  have hwaits : ∀ k, WaitsAt c2 p2 .wishes k → p.fetches.length ≤ k := by
    intro k hk
    rcases waitsAt_of_moved hI.tracks hm hk with hk | ⟨hk, _⟩
    · exact hI.waits k hk
    · exact Nat.le_trans hI.fetches.length_le hk
  have htracks := hI.tracks.step hm
  have hfetches := hI.fetches.trans hm.fetches
  have hlater : p2.story = p1.story → Newer p c2 p2 := by
    intro he
    refine ⟨htracks, hfetches, hwaits, ?_⟩
    rcases hI.story with hs | ⟨k, wishes, hk, hf, hdone, hs⟩
    · exact .inl (he.trans hs)
    · exact .inr ⟨k, wishes, hk, fetch_stays hm.fetches hf, hm.completions _ hdone, he ▸ hs⟩
  cases hm with
  | idles | appears => exact hlater rfl
  | @answers k r hk _ hdone _ =>
    rcases answer_cases r p1 k with he | ⟨f, hf, he⟩
    · exact hlater (by rw [he])
    · rcases completion_story f r p1 with hs | ⟨rfl, wishes, rfl, hs⟩
      · exact hlater (by rw [he, hs])
      · have hlen := hI.waits k ⟨hf, hk⟩
        refine ⟨htracks, hfetches, hwaits, .inr ⟨k, wishes, hlen, by rw [answer_fetches]; exact hf, ?_, by rw [he, hs]⟩⟩
        rw [hdone]
        exact List.mem_cons_self

/-- The wishes that are shown when no wishes are being read stay, whatever is read later. -/
theorem wishes_stay
    (hr : (screen UIImage refusal).run (.init (.start s0)) (.new UIImage w) ms = some (c, p))
    (hr' : (screen UIImage refusal).run c p ms' = some (c', p'))
    (hguests : OwnGuestIDs s0 ((live UIImage refusal).history (.init (.start s0))
      (steps refusal s0 w ms ++ (screen UIImage refusal).trace c p ms')))
    (hidle : ∀ k, ¬ WaitsAt c p .wishes k) {wishes : List Wish}
    (hshown : p.story.wishes = some wishes) :
    ∃ wishes', p'.story.wishes = some wishes' ∧ wishes.Subperm wishes' := by
  have hI := ((tracks_new s0 w).run hr).1
  have hnew : Newer p c' p' := screen_rule hr'
    ⟨hI, List.prefix_rfl, fun k hk => absurd hk (hidle k), .inl rfl⟩
    fun _ _ _ _ hI hm => hI.step hm
  rcases hnew.story with hs | ⟨k, wishes', hk, hf, hdone', hs⟩
  · exact ⟨wishes, hs ▸ hshown, List.Subperm.refl _⟩
  · obtain ⟨j, hj, hdone⟩ := hI.wishes wishes hshown
    refine ⟨wishes', hs, wishes_of_later (Driver.run_system hr) (Driver.run_system hr') hguests hdone
      hdone' ?_ ?_⟩
    · rw [hnew.tracks.call (fetch_stays hnew.fetches hj), hnew.tracks.call hf]
    · rw [hI.calls, List.length_map]
      exact hk

/-! ## Pages that show a picture -/

omit [UIKit UIImage] [Inhabited UIImage] in
theorem image_asked {page : Page}
    (h : .groomImage ∈ p.onAppear page ∨ .brideImage ∈ p.onAppear page) :
    p.introduction.groomImage = none ∧ p.introduction.brideImage = none := by
  cases page with
  | introduction =>
    simp only [HomePage.onAppear, IntroductionPage.onAppear] at h
    split at h
    · rename_i hnone
      simpa using hnone
    · simp at h
  | gallery =>
    simp only [HomePage.onAppear, GalleryPage.onAppear] at h
    split at h <;> simp at h
  | story => simp [HomePage.onAppear, StoryPage.onAppear] at h

omit [UIKit UIImage] [Inhabited UIImage] in
theorem photos_asked {page : Page} (h : .photos ∈ p.onAppear page) : p.gallery.photos = [] := by
  cases page with
  | introduction =>
    simp only [HomePage.onAppear, IntroductionPage.onAppear] at h
    split at h <;> simp at h
  | gallery =>
    simp only [HomePage.onAppear, GalleryPage.onAppear] at h
    split at h
    · rename_i hnone
      simpa using hnone
    · simp at h
  | story => simp [HomePage.onAppear, StoryPage.onAppear] at h

/-- An introduction with an image that waits for none stays as it is. -/
theorem introduction_final (hI : Tracks c p)
    (hr : (screen UIImage refusal).run c p ms = some (c', p'))
    (himage : p.introduction.groomImage ≠ none ∨ p.introduction.brideImage ≠ none)
    (hidle : ∀ k, ¬ WaitsAt c p .groomImage k ∧ ¬ WaitsAt c p .brideImage k) :
    p'.introduction = p.introduction := by
  refine (screen_rule (I := fun c' p' => Tracks c' p' ∧ p'.introduction = p.introduction ∧
    ∀ k, ¬ WaitsAt c' p' .groomImage k ∧ ¬ WaitsAt c' p' .brideImage k) hr ⟨hI, rfl, hidle⟩ ?_).2.1
  rintro c1 c2 p1 p2 ⟨hI, hsame, hidle⟩ hm
  have hno : ∀ page, .groomImage ∉ p1.onAppear page ∧ .brideImage ∉ p1.onAppear page := by
    intro page
    rw [← not_or]
    intro h
    obtain ⟨hg, hb⟩ := image_asked h
    rw [hsame] at hg hb
    exact himage.elim (absurd hg) (absurd hb)
  refine ⟨hI.step hm, ?_, fun k => ⟨fun hk => ?_, fun hk => ?_⟩⟩
  · rw [← hsame]
    cases hm with
    | idles | appears => rfl
    | @answers k r hk _ _ _ =>
      rcases answer_cases r p1 k with he | ⟨f, hf, he⟩
      · rw [he]
      · rw [he]
        rcases completion_introduction f r p1 with hi | ⟨_, _, ⟨rfl, _⟩ | ⟨rfl, _⟩⟩
        · exact hi
        · exact absurd ⟨hf, hk⟩ (hidle k).1
        · exact absurd ⟨hf, hk⟩ (hidle k).2
  · rcases waitsAt_of_moved hI hm hk with hk | ⟨_, page, hpage⟩
    · exact (hidle k).1 hk
    · exact (hno page).1 hpage
  · rcases waitsAt_of_moved hI hm hk with hk | ⟨_, page, hpage⟩
    · exact (hidle k).2 hk
    · exact (hno page).2 hpage

theorem gallery_final (hI : Tracks c p)
    (hr : (screen UIImage refusal).run c p ms = some (c', p')) (hphotos : p.gallery.photos ≠ [])
    (hidle : ∀ k, ¬ WaitsAt c p .photos k) : p'.gallery = p.gallery := by
  refine (screen_rule (I := fun c' p' => Tracks c' p' ∧ p'.gallery = p.gallery ∧
    ∀ k, ¬ WaitsAt c' p' .photos k) hr ⟨hI, rfl, hidle⟩ ?_).2.1
  rintro c1 c2 p1 p2 ⟨hI, hsame, hidle⟩ hm
  refine ⟨hI.step hm, ?_, fun k hk => ?_⟩
  · rw [← hsame]
    cases hm with
    | idles | appears => rfl
    | @answers k r hk _ _ _ =>
      rcases answer_cases r p1 k with he | ⟨f, hf, he⟩
      · rw [he]
      · rw [he]
        rcases completion_gallery f r p1 with hg | ⟨rfl, _⟩
        · exact hg
        · exact absurd ⟨hf, hk⟩ (hidle k)
  · rcases waitsAt_of_moved hI hm hk with hk | ⟨_, page, hpage⟩
    · exact hidle k hk
    · have hnil := photos_asked hpage
      rw [hsame] at hnil
      exact hphotos hnil

theorem page_final
    (hr : (screen UIImage refusal).run (.init (.start s0)) (.new UIImage w) ms = some (c, p))
    (hr' : (screen UIImage refusal).run c p ms' = some (c', p')) :
    ((p.introduction.groomImage ≠ none ∨ p.introduction.brideImage ≠ none) →
      (∀ k, ¬ WaitsAt c p .groomImage k ∧ ¬ WaitsAt c p .brideImage k) →
        p'.introduction = p.introduction) ∧
    (p.gallery.photos ≠ [] → (∀ k, ¬ WaitsAt c p .photos k) → p'.gallery = p.gallery) :=
  have hI := ((tracks_new s0 w).run hr).1
  ⟨introduction_final hI hr', gallery_final hI hr'⟩

end Home

/-! ## A wedding with pictures and wishes -/

/-- The host of `hostState` saves two images and two photos, Ada wishes joy, and then the pages
appear. -/
def shownPages : List (Move Data) :=
  [.app (.editForm 0 { hostForm "Izmir" [[1], [2]] with groomImage := some [7], brideImage := some [9] })
      .ok, .app (.tapSave 0) .ok, .serve 0 .ok, .serve 0 (uuids "a")] ++
    List.replicate 9 (.serve 0 .ok) ++
    [.app (.tapSubmit 1 "0007" "Ada" "Joy" ⟨1, 1, 2023⟩) { Env.ok with newID := "g" }, .serve 0 .ok,
      .appear .introduction, .appear .gallery, .appear .story] ++
    List.replicate 28 (.serve 0 .ok)

/-- The host saves another image and another photo, Bob wishes luck, and the pages appear again. -/
def laterPages : List (Move Data) :=
  [.app (.editForm 0 { hostForm "Ankara" [[3]] with groomImage := some [8] }) .ok,
      .app (.tapSave 0) .ok, .serve 0 .ok, .serve 0 (uuids "b")] ++
    List.replicate 5 (.serve 0 .ok) ++
    [.app (.tapSubmit 2 "0007" "Bob" "Luck" ⟨2, 1, 2023⟩) { Env.ok with newID := "h" }, .serve 0 .ok,
      .appear .introduction, .appear .gallery, .appear .story, .serve 0 .ok, .serve 0 .ok]

theorem hostState_wishes (w g : String) : hostState.wishDocument w g = none := by
  have hne : guestDocument w g ≠ userDocument "A" := Ne.symm document_ne_subdocument
  show (Store.set ∅ (userDocument "A") _).lookup (guestDocument w g) = none
  rw [lookup_set, if_neg hne]
  rfl

theorem shownPages_show : ∃ c p,
    (screen Data "").run (.init (.start hostState)) (.new Data "0007") shownPages = some (c, p) ∧
    p.introduction = ⟨some [7], some [9]⟩ ∧ p.gallery.photos = [[2], [1]] ∧
    PagesShow ((live Data "").history (.init (.start hostState)) (steps "" hostState "0007" shownPages))
      p := by
  obtain ⟨c, p, hr, hi, hg⟩ : ∃ c p,
      (screen Data "").run (.init (.start hostState)) (.new Data "0007") shownPages = some (c, p) ∧
      p.introduction = ⟨some [7], some [9]⟩ ∧ p.gallery.photos = [[2], [1]] :=
    ⟨_, _, rfl, rfl, rfl⟩
  refine ⟨c, p, hr, hi, hg, (pages_show hostState_photos rfl (hostState_wishes "0007") hr ⟨?_, ?_⟩).2⟩
  · exact fun _ _ => rfl
  · decide +kernel

/-- The introduction and the gallery are still those of the first Save. -/
theorem laterPages_final : ∃ c p c' p',
    (screen Data "").run (.init (.start hostState)) (.new Data "0007") shownPages = some (c, p) ∧
    (screen Data "").run c p laterPages = some (c', p') ∧ c.pending = [] ∧
    p'.introduction = p.introduction ∧ p'.gallery = p.gallery := by
  obtain ⟨c, p, c', p', hr, hr', hq, hi, hg⟩ : ∃ c p c' p',
      (screen Data "").run (.init (.start hostState)) (.new Data "0007") shownPages = some (c, p) ∧
      (screen Data "").run c p laterPages = some (c', p') ∧ c.pending = [] ∧
      p.introduction.groomImage = some [7] ∧ p.gallery.photos = [[2], [1]] :=
    ⟨_, _, _, _, rfl, rfl, rfl, rfl, rfl⟩
  have hidle : ∀ f k, ¬ WaitsAt c p f k := fun f k hk => not_asking_of_drained hq k hk.2
  obtain ⟨hintro, hgallery⟩ := page_final hr hr'
  refine ⟨c, p, c', p', hr, hr', hq, hintro (.inl (by rw [hi]; simp)) ?_, hgallery (by rw [hg]; simp) ?_⟩
  · exact fun k => ⟨hidle _ k, hidle _ k⟩
  · exact hidle _

end WeddApp.Guests
