import WeddApp.Reads.Completion
import WeddApp.Reads.Gallery
import WeddApp.Save.LastSave

/-!
# Save.Shown

From a host's phone to a guest's. A photo whose upload and merge were acknowledged is recorded under
the field that the readers look for, and stored under the path that is recorded there
(`stored_of_run`). So a guest sees it, if its data are no more than `retrieveImage` asks for
(`shown_up_to_maxSize`); uploading has no such bound.
-/

namespace WeddApp

open Async Documents

variable {UIImage : Type}

def objectWrites (path : String) (t : Task) (e : Env) : Option Data :=
  match e.error, t with
  | none, .photoPut p => if p.path = path then some p.imageData else none
  | _, _ => none

/-- The path of `p` was recorded, and no other photo in the same field since. -/
def RecordedLast (h : List (Config (State UIImage) Task × Label (Action UIImage) Env)) (p : Photo) :
    Prop :=
  ∃ h1 c i e h2 k, h = h1 ++ (c, .serve i e) :: h2 ∧
    c.pending[i]? = some (k, .photoMerge p) ∧ e.error = none ∧
    ∀ k q, Merged h2 k q → q.isGallery = p.isGallery → q.weddingID = p.weddingID → q.field ≠ p.field

/-- `UUID().uuidString` gave no other upload the path of `p`. -/
def OwnPath (h : List (Config (State UIImage) Task × Label (Action UIImage) Env)) (p : Photo) : Prop :=
  ∀ k q e, Served h k (.photoPut q) e → q.path = p.path → q = p

/-- The field of `p` holds its path, and the object at the path is its data. -/
structure Stored (s : State UIImage) (p : Photo) : Prop where
  field : s.firestore.field p.reference p.field = some (.string p.path)
  object : s.storage.lookup p.path = some p.imageData

variable [UIKit UIImage]

theorem serve_object {t : Task} {e : Env} {s s' : State UIImage} {ts : List Task}
    (h : serve t e s = some (s', ts)) (path : String) :
    s'.storage.lookup path = (objectWrites path t e).or (s.storage.lookup path) := by
  rw [serve_storage h]
  unfold objectWrites Task.commit
  cases e.error with
  | some m => rfl
  | none =>
    cases t with
    | photoPut p =>
      by_cases hp : p.path = path
      · subst hp
        simp only [if_true]
        exact AList.lookup_insert _
      · simp only [if_neg hp]
        exact AList.lookup_insert_ne fun h => hp h.symm
    | authCreate | authSignIn | idRead | idWrite | userWrite | saveRead | saveMain | weddingWrite
    | photoMerge | wishWrite => rfl

def storedObject (path : String) : Register (app UIImage) Data where
  val s := s.storage.lookup path
  writes := objectWrites path
  act h := congrArg (fun b : Backend => b.storage.lookup path) (act_backend h)
  serve h := serve_object h path

/-- Once upload and merge of a photo were acknowledged, it is stored until another photo is recorded
in its field. -/
theorem stored_of_run {s0 : State UIImage} {ls : List (Label (Action UIImage) Env)}
    {c : Config (State UIImage) Task} {p : Photo} (hr : (app UIImage).run (.init s0) ls = some c)
    (hrec : RecordedLast ((app UIImage).history (.init s0) ls) p)
    (hown : OwnPath ((app UIImage).history (.init s0) ls) p) : Stored c.state p := by
  obtain ⟨h1, c0, i, e, h2, k, hh, hi, he, hno⟩ := hrec
  have hmerged : Served ((app UIImage).history (.init s0) ls) k (.photoMerge p) e := by
    rw [hh]; exact ⟨c0, i, by simp, hi⟩
  constructor
  · refine Register.val_of_lastWrote (R := photoField p.isGallery p.weddingID p.field) hr ?_
    refine ⟨h1, c0, i, e, h2, k, .photoMerge p, hh, hi, ?_, fun k' v hw => ?_⟩
    · exact photoWrites_eq_some.mpr ⟨he, p, rfl, rfl, rfl, rfl, rfl⟩
    · obtain ⟨q, hm, hg, hid, hf, _⟩ := wrote_photoField.mp hw
      exact hno k' q hm hg hid hf
  · obtain ⟨e', hput, he'⟩ := put_before_merge hr (fun _ _ hp => by cases hp) hmerged
    have hwrote : (storedObject p.path).Wrote ((app UIImage).history (.init s0) ls) k p.imageData :=
      ⟨.photoPut p, e', hput, by simp [storedObject, objectWrites, he']⟩
    obtain ⟨k', v, ⟨t, e2, hs, hv⟩, hval⟩ := Register.last_write (R := storedObject p.path) hr
      ⟨k, _, hwrote⟩
    obtain ⟨q, rfl, hpath, rfl⟩ : ∃ q, t = .photoPut q ∧ q.path = p.path ∧ v = q.imageData := by
      simp only [storedObject, objectWrites] at hv
      split at hv
      · rename_i q _
        split at hv
        · rename_i hp
          cases hv; exact ⟨q, rfl, hp, rfl⟩
        · cases hv
      · cases hv
    rw [hown k' q e2 hs hpath] at hval
    exact hval

/-! ## Reading it back -/

/-- What the backend answers to a read that does not fail. -/
def Answers (s : State UIImage) : Reads.Request UIImage → Reads.Reply → Prop
  | .imageDocument _ id _, reply =>
    reply = .document (.ok (s.firestore.lookup (document Constants.imagesCollection id)))
  | .galleryDocument _ id, reply =>
    reply = .document (.ok (s.firestore.lookup (document Constants.galleryCollection id)))
  | .userDocument _ uid, reply => reply = .document (.ok (s.firestore.lookup (userDocument uid)))
  | .weddingDocument _ id, reply => reply = .document (.ok (s.firestore.lookup (weddingDocument id)))
  | .imageData _ url, reply =>
    match Storage.getData s.storage url Reads.retrieveImage.maxSize with
    | some data => reply = .data (.ok data)
    | none => ∃ m, reply = .data (.error m)
  | .guestDocuments _ _, .documents _ => True
  | .guestDocuments _ _, _ => False
  | .imageMain _ _, reply | .weddingIDMain _ _ _, reply | .galleryNotify _, reply
  | .galleryMain _, reply => reply = .main

omit [UIKit UIImage] in
/-- The bytes of a stored photo are returned up to the size that is asked for. -/
theorem Stored.data {s : State UIImage} {p : Photo} (h : Stored s p)
    (hsize : p.imageData.length ≤ Reads.retrieveImage.maxSize) {handler : Reads.ImageHandler}
    {reply : Reads.Reply} (ha : Answers s (.imageData handler p.path) reply) :
    reply = .data (.ok p.imageData) := by
  have hget : Storage.getData s.storage p.path Reads.retrieveImage.maxSize = some p.imageData := by
    rw [Storage.getData, h.object]
    exact if_pos hsize
  simp only [Answers, hget] at ha
  exact ha

omit [UIKit UIImage] in
theorem Stored.document {s : State UIImage} {p : Photo} (h : Stored s p) :
    ∃ document : Document, s.firestore.lookup p.reference = some document ∧
      document.lookup p.field = some (.string p.path) := by
  have hf := h.field
  rw [Store.field, Store.fields] at hf
  cases hd : s.firestore.lookup p.reference with
  | none => rw [hd] at hf; cases hf
  | some document =>
    rw [hd] at hf
    exact ⟨document, rfl, hf⟩

/-- Call `j` is over and none of its requests failed: each was answered from a state in `P`. -/
structure SuccessfulRead (P : State UIImage → Prop) (ls : List (Label Reads.Call Reads.Reply))
    (c : Config (Reads.State UIImage) (Reads.Request UIImage)) (j : Nat) : Prop where
  run : (Reads.reads UIImage).run (.init (Reads.State.new UIImage)) ls = some c
  ended : ¬ c.Live j
  answers : ∀ t reply,
    Served ((Reads.reads UIImage).history (.init (Reads.State.new UIImage)) ls) j t reply →
      ∃ s, P s ∧ Answers s t reply

namespace SuccessfulRead

variable {P : State UIImage → Prop} {ls : List (Label Reads.Call Reads.Reply)}
  {c : Config (Reads.State UIImage) (Reads.Request UIImage)} {j : Nat} {p : Photo} {image : UIImage}

theorem first (h : SuccessfulRead P ls c j) {call : Reads.Call} {e : Reads.Reply}
    (ha : Acted ((Reads.reads UIImage).history (.init (Reads.State.new UIImage)) ls) j call e) :
    ∃ s : Reads.State UIImage, s.calls.length = j ∧ ∀ t ∈ (Reads.act call s).2, ∃ reply,
      Served ((Reads.reads UIImage).history (.init (Reads.State.new UIImage)) ls) j t reply := by
  obtain ⟨ls1, c1, s, ts, h1, hk, hact, hts⟩ := System.served_of_acted h.run h.ended ha
  obtain ⟨_, rfl⟩ := Reads.served_eq hact
  refine ⟨c1.state, ?_, hts⟩
  rw [← hk]; exact (Reads.invariant_of_run h1).clock.symm

theorem next (h : SuccessfulRead P ls c j) {t : Reads.Request UIImage} {reply : Reads.Reply}
    (hs : Served ((Reads.reads UIImage).history (.init (Reads.State.new UIImage)) ls) j t reply) :
    ∃ s s' ts, Reads.serve t reply s = some (s', ts) ∧
      (∀ x ∈ s'.completions, x ∈ c.state.completions) ∧ ∀ u ∈ ts, ∃ reply',
        Served ((Reads.reads UIImage).history (.init (Reads.State.new UIImage)) ls) j u reply' := by
  obtain ⟨c1, hat⟩ := hs
  obtain ⟨s', ts, hserve, hts⟩ := System.served_next h.run h.ended hat
  obtain ⟨i, hm, hi⟩ := hat
  obtain ⟨ls1, ls2, c2, _, _, h2, h3⟩ := System.history_split h.run hm
  refine ⟨c1.state, s', ts, hserve, ?_, hts⟩
  cases h2 with
  | serve hi' hserve' =>
    rw [hi] at hi'; cases hi'
    rw [hserve] at hserve'; cases hserve'
    exact Reads.completions_mono h3

theorem download (h : SuccessfulRead (Stored · p) ls c j)
    (hsize : p.imageData.length ≤ Reads.retrieveImage.maxSize) {handler : Reads.ImageHandler}
    {reply : Reads.Reply}
    (hs : Served ((Reads.reads UIImage).history (.init (Reads.State.new UIImage)) ls) j
      (.imageData handler p.path) reply) : reply = .data (.ok p.imageData) := by
  obtain ⟨s, hst, ha⟩ := h.answers _ _ hs
  exact hst.data hsize ha

theorem person (h : SuccessfulRead (Stored · p) ls c j)
    (hsize : p.imageData.length ≤ Reads.retrieveImage.maxSize)
    (himage : UIKit.ofData p.imageData = some image) (hg : p.isGallery = false) {e : Reads.Reply}
    (ha : Acted ((Reads.reads UIImage).history (.init (Reads.State.new UIImage)) ls) j
      (.getImageOf p.weddingID p.subfolder) e) :
    c.state.answers j = [.person (some image) none] := by
  obtain ⟨s0, rfl, hfirst⟩ := h.first ha
  obtain ⟨reply, hs⟩ := hfirst _ (List.mem_singleton_self _)
  obtain ⟨s1, hst, hreply⟩ := h.answers _ _ hs
  obtain ⟨doc, hdoc, hpath⟩ := hst.document
  have href : p.reference = document Constants.imagesCollection p.weddingID := by
    rw [Photo.reference, hg]; rfl
  have hfield : p.field = p.subfolder ++ "Url" := by rw [Photo.field, hg]; rfl
  rw [href] at hdoc
  rw [hfield] at hpath
  simp only [Answers, hdoc] at hreply
  subst hreply
  obtain ⟨s2, s2', ts2, hserve2, _, hnext2⟩ := h.next hs
  obtain ⟨_, rfl⟩ := Reads.served_eq hserve2
  have hurl : Reads.imageUrl doc p.subfolder = p.path := by
    rw [Reads.imageUrl, hpath]; rfl
  obtain ⟨reply3, hs3⟩ := hnext2 (.imageData (.person s0.calls.length) p.path) (by
    simp [Reads.getImageOf.onDocument, Reads.retrieveImage, hurl])
  have hreply3 := h.download hsize hs3
  subst hreply3
  obtain ⟨s3, s3', ts3, hserve3, _, hnext3⟩ := h.next hs3
  obtain ⟨_, rfl⟩ := Reads.served_eq hserve3
  obtain ⟨reply4, hs4⟩ := hnext3 (.imageMain (.person s0.calls.length) image) (by
    simp [Reads.retrieveImage.onData, himage])
  obtain ⟨s4, _, hreply4⟩ := h.answers _ _ hs4
  have hreply4 : reply4 = .main := hreply4
  subst hreply4
  obtain ⟨s5, s5', ts5, hserve5, hmono, _⟩ := h.next hs4
  obtain ⟨rfl, _⟩ := Reads.served_eq hserve5
  exact Reads.answers_of_mem h.run (hmono _ List.mem_cons_self)

theorem gallery (h : SuccessfulRead (Stored · p) ls c j)
    (hsize : p.imageData.length ≤ Reads.retrieveImage.maxSize)
    (himage : UIKit.ofData p.imageData = some image) (hg : p.isGallery = true) {e : Reads.Reply}
    (ha : Acted ((Reads.reads UIImage).history (.init (Reads.State.new UIImage)) ls) j
      (.retrieveGallery p.weddingID) e) :
    ∃ photos, c.state.answers j = [.gallery photos] ∧ some image ∈ photos := by
  obtain ⟨s0, rfl, hfirst⟩ := h.first ha
  obtain ⟨reply, hs⟩ := hfirst _ (List.mem_singleton_self _)
  obtain ⟨s1, hst, hreply⟩ := h.answers _ _ hs
  obtain ⟨doc, hdoc, hpath⟩ := hst.document
  have href : p.reference = document Constants.galleryCollection p.weddingID := by
    rw [Photo.reference, hg]; rfl
  rw [href] at hdoc
  simp only [Answers, hdoc] at hreply
  subst hreply
  obtain ⟨s2, s2', ts2, hserve2, _, hnext2⟩ := h.next hs
  obtain ⟨_, rfl⟩ := Reads.served_eq hserve2
  have hmem : p.path ∈ Reads.photoUrls doc :=
    List.mem_filterMap.mpr ⟨_, mem_toList.mpr hpath, photoUrl_recorded hg⟩
  obtain ⟨reply3, hs3⟩ := hnext2 (.imageData (.gallery s0.calls.length) p.path) (by
    refine List.mem_append_left _ (List.mem_flatMap.mpr ⟨p.path, hmem, ?_⟩)
    exact List.mem_singleton_self _)
  have hreply3 := h.download hsize hs3
  subst hreply3
  have hdown : (p.path, some image) ∈ Reads.galleryDownloads
      ((Reads.reads UIImage).history (.init (Reads.State.new UIImage)) ls) s0.calls.length :=
    List.mem_filterMap.mpr ⟨_, mem_servedOf.mpr hs3, by
      simp [Reads.galleryDownload, Reads.outcome, himage]⟩
  have hdes : c.descendants s0.calls.length = [] := by
    by_contra hn
    exact h.ended (Config.live_iff.mpr hn)
  have hphase := Reads.galleryPhase_of_run h.run s0.calls.length
  rw [Reads.InGalleryPhase, hdes] at hphase
  cases hphase with
  | before _ hd _ _ => rw [hd] at hdown; cases hdown
  | gathering _ _ _ hn _ _ => exact absurd rfl hn
  | collected _ _ _ _ ht _ _ => cases ht
  | done urls photos _ _ hgath hans =>
    refine ⟨photos, hans, ?_⟩
    have hperm := hgath.photos
    rw [List.filterMap_nil, List.append_nil] at hperm
    exact hperm.mem_iff.mpr (List.mem_map.mpr ⟨_, hdown, rfl⟩)

theorem mono {P' : State UIImage → Prop} (h : SuccessfulRead P ls c j) (hP : ∀ s, P s → P' s) :
    SuccessfulRead P' ls c j := by
  refine ⟨h.run, h.ended, fun t reply hs => ?_⟩
  obtain ⟨s, hs, ha⟩ := h.answers t reply hs
  exact ⟨s, hP s hs, ha⟩

end SuccessfulRead

/-- `s` is reached from `s0`; the upload and the merge of `p` were acknowledged, and its field was not
overwritten since. -/
def Acknowledged (s0 : State UIImage) (p : Photo) (s : State UIImage) : Prop :=
  ∃ ls c, (app UIImage).run (.init s0) ls = some c ∧ c.state = s ∧
    RecordedLast ((app UIImage).history (.init s0) ls) p ∧
    OwnPath ((app UIImage).history (.init s0) ls) p

theorem stored_of_acknowledged {s0 s : State UIImage} {p : Photo} (h : Acknowledged s0 p s) :
    Stored s p := by
  obtain ⟨ls, c, hr, rfl, hrec, hown⟩ := h
  exact stored_of_run hr hrec hown

/-- An acknowledged photo of at most 5 MiB is shown by every read that does not fail. -/
theorem shown_up_to_maxSize
    (hdecode : ∀ (image : UIImage) (data : Data), UIKit.pngData image = some data →
      UIKit.ofData data = some image)
    {image : UIImage} {id subfolder uuid : String} {isGallery : Bool} {photoIndex : Nat} {p : Photo}
    (hp : uploadPhoto (some image) id subfolder isGallery photoIndex uuid = [.photoPut p])
    (hsize : p.imageData.length ≤ Reads.retrieveImage.maxSize) {s0 : State UIImage}
    {ls : List (Label Reads.Call Reads.Reply)}
    {c : Config (Reads.State UIImage) (Reads.Request UIImage)} {j : Nat}
    (h : SuccessfulRead (Acknowledged s0 p) ls c j) :
    (isGallery = false → ∀ e,
      Acted ((Reads.reads UIImage).history (.init (Reads.State.new UIImage)) ls) j
        (.getImageOf id subfolder) e → c.state.answers j = [.person (some image) none]) ∧
    (isGallery = true → ∀ e,
      Acted ((Reads.reads UIImage).history (.init (Reads.State.new UIImage)) ls) j
        (.retrieveGallery id) e → ∃ photos, c.state.answers j = [.gallery photos] ∧ some image ∈ photos) := by
  have hst := h.mono fun s hs => stored_of_acknowledged hs
  unfold uploadPhoto at hp
  simp only at hp
  split at hp
  · cases hp
  · rename_i data hdata
    cases hp
    have himage := hdecode image data hdata
    exact ⟨fun hg e ha => hst.person hsize himage hg ha, fun hg e ha => hst.gallery hsize himage hg ha⟩

/-! ## A groom on both sides of the bound -/

def groomPhoto (d : Data) : Photo := ⟨d, "0007", "groom", false, 0, "a0"⟩

def groomSave (d : Data) : List (Label (Action Data) Env) :=
  [.act (.editForm 0 { (Device.new Data).form with groomImage := some d }) .ok, .act (.tapSave 0) .ok,
    .serve 0 .ok, .serve 0 (uuids "a"), .serve 1 .ok, .serve 1 .ok]

theorem groomSave_acknowledged (d : Data) : ∃ s, Acknowledged hostState (groomPhoto d) s := by
  obtain ⟨c1, c2, c3, c4, c5, c6, c, hr, hh, h3, h4, h5, h6⟩ : ∃ c1 c2 c3 c4 c5 c6 c,
      (app Data).run (.init hostState) (groomSave d) = some c ∧
      (app Data).history (.init hostState) (groomSave d) =
        [(c1, .act (.editForm 0 { (Device.new Data).form with groomImage := some d }) .ok),
          (c2, .act (.tapSave 0) .ok), (c3, .serve 0 .ok), (c4, .serve 0 (uuids "a")),
          (c5, .serve 1 .ok), (c6, .serve 1 .ok)] ∧
      c3.pending[0]? = some (1, .saveRead 0 "A") ∧
      c4.pending[0]? = some (1, .saveMain 0 (some "0007") none) ∧
      c5.pending[1]? = some (1, .photoPut (groomPhoto d)) ∧
      c6.pending[1]? = some (1, .photoMerge (groomPhoto d)) :=
    ⟨_, _, _, _, _, _, _, rfl, rfl, rfl, rfl, rfl, rfl⟩
  refine ⟨c.state, groomSave d, c, hr, rfl, ?_, ?_⟩
  · rw [hh]
    refine ⟨[_, _, _, _, _], c6, 1, .ok, [], 1, rfl, h6, rfl, ?_⟩
    rintro k q ⟨e, ⟨_, _, hm, _⟩, _⟩
    cases hm
  · rintro k q e ⟨c', i, hm, hi⟩ hpath
    rw [hh] at hm
    simp only [List.mem_cons, Prod.mk.injEq, Label.serve.injEq, reduceCtorEq, and_false, false_or,
      List.not_mem_nil, or_false] at hm
    rcases hm with ⟨rfl, rfl, _⟩ | ⟨rfl, rfl, _⟩ | ⟨rfl, rfl, _⟩ | ⟨rfl, rfl, _⟩
    · rw [h3] at hi; cases hi
    · rw [h4] at hi; cases hi
    · rw [h5] at hi; cases hi; rfl
    · rw [h6] at hi; cases hi

def guestLooks (doc : Document) (data : Except NSError Data) : List (Label Reads.Call Reads.Reply) :=
  [.act (.getImageOf "0007" "groom") .main, .serve 0 (.document (.ok (some doc))), .serve 0 (.data data)]

theorem groom_document {d : Data} {s : State Data} (hs : Stored s (groomPhoto d)) :
    ∃ doc : Document, s.firestore.lookup (document "Images" "0007") = some doc ∧
      Reads.imageUrl doc "groom" = (groomPhoto d).path := by
  obtain ⟨doc, hdoc, hpath⟩ := hs.document
  refine ⟨doc, hdoc, ?_⟩
  have hpath : doc.lookup ("groom" ++ "Url") = some (.string (groomPhoto d).path) := hpath
  rw [Reads.imageUrl, hpath]; rfl

/-- A groom of one byte. -/
theorem small_groom_shown :
    ∃ ls c, SuccessfulRead (Acknowledged hostState (groomPhoto [1])) ls c 0 ∧
      c.state.answers 0 = [.person (some [1]) none] := by
  obtain ⟨s, hack⟩ := groomSave_acknowledged [1]
  have hst := stored_of_acknowledged hack
  obtain ⟨doc, hdoc, hurl⟩ := groom_document hst
  obtain ⟨c, hr, hq, hserved⟩ : ∃ c, (Reads.reads Data).run (.init (Reads.State.new Data))
      (guestLooks doc (.ok [1]) ++ [.serve 0 .main]) = some c ∧ c.pending = [] ∧
      servedOf ((Reads.reads Data).history (.init (Reads.State.new Data))
        (guestLooks doc (.ok [1]) ++ [.serve 0 .main])) 0 =
        [(.imageDocument 0 "0007" "groom", .document (.ok (some doc))),
          (.imageData (.person 0) (Reads.imageUrl doc "groom"), .data (.ok [1])),
          (.imageMain (.person 0) [1], .main)] := ⟨_, rfl, rfl, rfl⟩
  have hread : SuccessfulRead (Acknowledged hostState (groomPhoto [1]))
      (guestLooks doc (.ok [1]) ++ [.serve 0 .main]) c 0 := by
    refine ⟨hr, not_live_of_drained hq 0, fun t reply hs => ⟨s, hack, ?_⟩⟩
    rw [← mem_servedOf, hserved, hurl] at hs
    simp only [List.mem_cons, Prod.mk.injEq, List.not_mem_nil, or_false] at hs
    rcases hs with ⟨rfl, rfl⟩ | ⟨rfl, rfl⟩ | ⟨rfl, rfl⟩
    · exact congrArg _ (congrArg _ hdoc.symm)
    · simp only [Answers, Storage.getData, hst.object]; rfl
    · rfl
  refine ⟨_, c, hread, ?_⟩
  exact (shown_up_to_maxSize (fun image data h => h.symm) rfl (by decide) hread).1 rfl .main
    ⟨_, List.mem_cons_self, rfl⟩

/-- The handler of `getImageOf` is not called for a groom of more than 5 MiB. -/
theorem large_groom_silent {d : Data} (hd : Reads.retrieveImage.maxSize < d.length) {s : State Data}
    (hst : Stored s (groomPhoto d)) :
    ∃ ls c, SuccessfulRead (· = s) ls c 0 ∧
      (∃ e, Acted ((Reads.reads Data).history (.init (Reads.State.new Data)) ls) 0
        (.getImageOf "0007" "groom") e) ∧ c.state.answers 0 = [] := by
  obtain ⟨doc, hdoc, hurl⟩ := groom_document hst
  obtain ⟨c, hr, hq, hserved, hans⟩ : ∃ c, (Reads.reads Data).run (.init (Reads.State.new Data))
      (guestLooks doc (.error "too large")) = some c ∧ c.pending = [] ∧
      servedOf ((Reads.reads Data).history (.init (Reads.State.new Data))
        (guestLooks doc (.error "too large"))) 0 =
        [(.imageDocument 0 "0007" "groom", .document (.ok (some doc))),
          (.imageData (.person 0) (Reads.imageUrl doc "groom"), .data (.error "too large"))] ∧
      c.state.answers 0 = [] := ⟨_, rfl, rfl, rfl, rfl⟩
  have hget : Storage.getData s.storage (groomPhoto d).path Reads.retrieveImage.maxSize = none := by
    rw [Storage.getData, hst.object]
    exact if_neg (Nat.not_le_of_lt hd)
  refine ⟨_, c, ⟨hr, not_live_of_drained hq 0, fun t reply hs => ⟨s, rfl, ?_⟩⟩,
    ⟨.main, _, List.mem_cons_self, rfl⟩, hans⟩
  rw [← mem_servedOf, hserved, hurl] at hs
  simp only [List.mem_cons, Prod.mk.injEq, List.not_mem_nil, or_false] at hs
  rcases hs with ⟨rfl, rfl⟩ | ⟨rfl, rfl⟩
  · exact congrArg _ (congrArg _ hdoc.symm)
  · simp only [Answers, hget]
    exact ⟨_, rfl⟩

def largeImage : Data := List.replicate (5 * 1024 * 1024 + 1) 0

/-- Upload and merge of the groom are acknowledged, a guest's reads do not fail, and the handler of
`getImageOf` is never called. -/
theorem large_groom_not_shown :
    uploadPhoto (some largeImage) "0007" "groom" false 0 "a0" = [.photoPut (groomPhoto largeImage)] ∧
    ∃ s, Acknowledged hostState (groomPhoto largeImage) s ∧
      ∃ ls c, SuccessfulRead (· = s) ls c 0 ∧
        (∃ e, Acted ((Reads.reads Data).history (.init (Reads.State.new Data)) ls) 0
          (.getImageOf "0007" "groom") e) ∧ c.state.answers 0 = [] := by
  obtain ⟨s, hack⟩ := groomSave_acknowledged largeImage
  have hlen : Reads.retrieveImage.maxSize < largeImage.length := by
    rw [largeImage, List.length_replicate]
    exact Nat.lt_succ_self _
  exact ⟨rfl, s, hack, large_groom_silent hlen (stored_of_acknowledged hack)⟩

end WeddApp
