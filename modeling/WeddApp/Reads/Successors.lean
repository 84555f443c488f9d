import WeddApp.Reads.Phase

/-!
# Reads.Successors

Which reads lead to which. A call asks first for what its arguments name (`asked_of_pending`), a reply
leads to further requests (`Sends`), and a handler is called for one request and its reply
(`Completes`).
-/

namespace WeddApp.Reads

open Async Documents

variable {UIImage : Type}

/-- The call that a request is the first one of. -/
def Request.asks : Request UIImage → Option (Nat × Call)
  | .imageDocument k id person => some (k, .getImageOf id person)
  | .galleryDocument (.caller k) id => some (k, .getGalleryUrls id)
  | .galleryDocument (.gallery k) id => some (k, .retrieveGallery id)
  | .userDocument k uid => some (k, .getWeddingIDFromUser (some uid))
  | .weddingDocument k id => some (k, .isWeddingExist id)
  | .guestDocuments k id => some (k, .getWishes id)
  | .imageData (.caller k) url => some (k, .retrieveImage url)
  | .imageData _ _ | .imageMain _ _ | .weddingIDMain _ _ _ | .galleryNotify _ | .galleryMain _ => none

/-- A request that was answered with `reply` called the handler of call `k` with a result. -/
inductive Completes : Request UIImage → Reply → Nat → Result UIImage → Prop where
  | personError {k : Nat} {id person : String} {e : NSError} :
      Completes (.imageDocument k id person) (.document (.error e)) k (.person none (some e))
  | personMissing {k : Nat} {id person : String} :
      Completes (.imageDocument k id person) (.document (.ok none)) k (.person none none)
  | person {k : Nat} {image : UIImage} :
      Completes (.imageMain (.person k) image) .main k (.person (some image) none)
  | imageMissing {k : Nat} {url : String} {reply : Except NSError Data} :
      Completes (.imageData (.caller k) url) (.data reply) k (.image none)
  | image {k : Nat} {image : UIImage} :
      Completes (.imageMain (.caller k) image) .main k (.image (some image))
  | urls {k : Nat} {id : String} {reply : Except NSError (Option Document)} :
      Completes (.galleryDocument (.caller k) id) (.document reply) k
        (.urls (getGalleryUrls.onDocument reply).1 (getGalleryUrls.onDocument reply).2)
  | gallery {k : Nat} {photos : List (Option UIImage)} :
      Completes (.galleryMain k) .main k (.gallery photos)
  | noWeddingID {k : Nat} {uid : UID} {reply : Except NSError (Option Document)}
      {id : Option String} {error : Option NSError} :
      Completes (.userDocument k uid) (.document reply) k (.weddingID id error)
  | weddingID {k : Nat} {id : Option String} {error : Option NSError} :
      Completes (.weddingIDMain k id error) .main k (.weddingID id error)
  | weddingExists {k : Nat} {id : String} {reply : Except NSError (Option Document)} :
      Completes (.weddingDocument k id) (.document reply) k
        (.weddingExists (isWeddingExist.onDocument reply))
  | wishes {k : Nat} {id : String} {reply : Except NSError (List Document)} :
      Completes (.guestDocuments k id) (.documents reply) k
        (.wishes (getWishes.onDocuments reply).1 (getWishes.onDocuments reply).2)

variable [UIKit UIImage]

/-- A request that was answered with `reply` led to another one. -/
inductive Sends : Request UIImage → Reply → Request UIImage → Prop where
  | image {k : Nat} {id person : String} {document : Document} :
      Sends (.imageDocument k id person) (.document (.ok (some document)))
        (.imageData (.person k) (imageUrl document person))
  | gallery {k : Nat} {id url : String} {document : Document} (hurl : url ∈ photoUrls document) :
      Sends (.galleryDocument (.gallery k) id) (.document (.ok (some document)))
        (.imageData (.gallery k) url)
  | decode {handler : ImageHandler} {url : String} {reply : Except NSError Data} {image : UIImage}
      (ho : outcome reply = some image) :
      Sends (.imageData handler url) (.data reply) (.imageMain handler image)
  | weddingID {k : Nat} {uid : UID} {reply : Except NSError (Option Document)} {id : Option String}
      {error : Option NSError} :
      Sends (.userDocument k uid) (.document reply) (.weddingIDMain k id error)
  | notify {t : Request UIImage} {reply : Reply} {k : Nat}
      (ht : (∃ id, t = .galleryDocument (.gallery k) id) ∨ t.isDownload = true) :
      Sends t reply (.galleryNotify k)
  | main {k : Nat} : Sends (.galleryNotify k) .main (.galleryMain k)

section Serve

variable {t u : Request UIImage} {reply : Reply} {s s' : State UIImage} {ts : List (Request UIImage)}

omit [UIKit UIImage] in
theorem completion_sends {handler : ImageHandler} {image : Option UIImage}
    (hu : u ∈ (handler.completion image s).2) : ∃ k, handler = .gallery k ∧ u = .galleryNotify k := by
  cases handler with
  | caller k => cases hu
  | person k => cases image <;> cases hu
  | gallery k => exact ⟨k, rfl, mem_notify hu⟩

theorem onData_sends {handler : ImageHandler} {url : String} {reply : Except NSError Data}
    (hu : u ∈ (retrieveImage.onData handler reply s).2) :
    Sends (.imageData handler url) (.data reply) u := by
  simp only [retrieveImage.onData] at hu
  split at hu
  · obtain ⟨k, hh, rfl⟩ := completion_sends hu
    exact .notify (.inr (by rw [hh]; rfl))
  · split at hu
    · rename_i hi
      rw [List.mem_singleton.mp hu]
      exact .decode hi
    · obtain ⟨k, hh, rfl⟩ := completion_sends hu
      exact .notify (.inr (by rw [hh]; rfl))

theorem onGallery_sends {handler : UrlsHandler} {id : String}
    {reply : Except NSError (Option Document)}
    (hu : u ∈ (handler.completion (getGalleryUrls.onDocument reply).1
      (getGalleryUrls.onDocument reply).2 s).2) :
    Sends (.galleryDocument handler id) (.document reply) u := by
  cases handler with
  | caller k => cases hu
  | gallery k =>
    cases reply with
    | error m => cases hu
    | ok found =>
      cases found with
      | none =>
        have hn := @mem_notify UIImage ⟨0, []⟩ k u hu
        rw [hn]
        exact .notify (.inl ⟨id, rfl⟩)
      | some document =>
        simp only [UrlsHandler.completion, getGalleryUrls.onDocument, retrieveGallery.onUrls,
          List.mem_append, List.mem_flatMap, retrieveImage, List.mem_singleton] at hu
        rcases hu with ⟨url, hurl, rfl⟩ | hu
        · exact .gallery hurl
        · rw [mem_notify hu]
          exact .notify (.inl ⟨id, rfl⟩)

theorem serve_sends (h : serve t reply s = some (s', ts)) (hu : u ∈ ts) : Sends t reply u := by
  unfold serve at h
  split at h
  · obtain ⟨_, rfl⟩ := served_eq h
    simp only [getImageOf.onDocument, retrieveImage] at hu
    split at hu
    · cases hu
    · rw [List.mem_singleton.mp hu]; exact .image
    · cases hu
  · obtain ⟨_, rfl⟩ := served_eq h
    exact onGallery_sends hu
  · split at h
    · cases h; cases hu
    · cases h
      rw [List.mem_singleton.mp hu]; exact .weddingID
  · cases h; cases hu
  · cases h; cases hu
  · obtain ⟨_, rfl⟩ := served_eq h
    exact onData_sends hu
  · obtain ⟨_, rfl⟩ := served_eq h
    obtain ⟨k, hh, rfl⟩ := completion_sends hu
    exact .notify (.inr (by rw [hh]; rfl))
  · cases h; cases hu
  · cases h
    rw [List.mem_singleton.mp hu]; exact .main
  · cases h; cases hu
  · cases h

omit [UIKit UIImage] in
theorem mem_complete {k k' : Nat} {r r' : Result UIImage}
    (h : (k, r) ∈ (s.complete k' r').completions) :
    (k, r) ∈ s.completions ∨ k = k' ∧ r = r' := by
  rcases List.mem_cons.mp h with h | h
  · cases h; exact .inr ⟨rfl, rfl⟩
  · exact .inl h

omit [UIKit UIImage] in
theorem completion_none_completes {handler : ImageHandler} {url : String}
    {reply : Except NSError Data} {s1 : State UIImage} (hs : s1.completions = s.completions) {k : Nat}
    {r : Result UIImage} (h : (k, r) ∈ (handler.completion none s1).1.completions) :
    (k, r) ∈ s.completions ∨ Completes (.imageData handler url) (.data reply) k r := by
  rw [← hs]
  cases handler with
  | caller k' =>
    rcases mem_complete h with h | ⟨rfl, rfl⟩
    · exact .inl h
    · exact .inr .imageMissing
  | person k' | gallery k' => exact .inl h

theorem onData_completes {handler : ImageHandler} {url : String} {reply : Except NSError Data}
    {k : Nat} {r : Result UIImage}
    (h : (k, r) ∈ (retrieveImage.onData handler reply s).1.completions) :
    (k, r) ∈ s.completions ∨ Completes (.imageData handler url) (.data reply) k r := by
  simp only [retrieveImage.onData] at h
  split at h
  · refine completion_none_completes ?_ h
    rfl
  · split at h
    · exact .inl h
    · refine completion_none_completes ?_ h
      rfl

omit [UIKit UIImage] in
theorem onMain_completes {handler : ImageHandler} {image : UIImage} {k : Nat} {r : Result UIImage}
    (h : (k, r) ∈ (handler.completion (some image) s).1.completions) :
    (k, r) ∈ s.completions ∨ Completes (.imageMain handler image) .main k r := by
  cases handler with
  | caller k' =>
    rcases mem_complete h with h | ⟨rfl, rfl⟩
    · exact .inl h
    · exact .inr .image
  | person k' =>
    rcases mem_complete h with h | ⟨rfl, rfl⟩
    · exact .inl h
    · exact .inr .person
  | gallery k' => exact .inl h

omit [UIKit UIImage] in
theorem onGallery_completes {handler : UrlsHandler} {id : String}
    {reply : Except NSError (Option Document)} {s1 : State UIImage}
    (hs : s1.completions = s.completions) {k : Nat} {r : Result UIImage}
    (h : (k, r) ∈ (handler.completion (getGalleryUrls.onDocument reply).1
      (getGalleryUrls.onDocument reply).2 s1).1.completions) :
    (k, r) ∈ s.completions ∨ Completes (.galleryDocument handler id) (.document reply) k r := by
  cases handler with
  | caller k' =>
    rcases mem_complete h with h | ⟨rfl, rfl⟩
    · exact .inl (hs ▸ h)
    · exact .inr .urls
  | gallery k' =>
    refine .inl ?_
    rw [← hs]
    cases reply with
    | error m => exact h
    | ok found => cases found <;> exact h

theorem serve_completes (h : serve t reply s = some (s', ts)) {k : Nat} {r : Result UIImage}
    (hr : (k, r) ∈ s'.completions) : (k, r) ∈ s.completions ∨ Completes t reply k r := by
  unfold serve at h
  split at h
  · obtain ⟨rfl, _⟩ := served_eq h
    simp only [getImageOf.onDocument] at hr
    split at hr
    · rcases mem_complete hr with hr | ⟨rfl, rfl⟩
      · exact .inl hr
      · exact .inr .personError
    · exact .inl hr
    · rcases mem_complete hr with hr | ⟨rfl, rfl⟩
      · exact .inl hr
      · exact .inr .personMissing
  · obtain ⟨rfl, _⟩ := served_eq h
    exact onGallery_completes (by split <;> rfl) hr
  · split at h
    · cases h
      rcases mem_complete hr with hr | ⟨rfl, rfl⟩
      · exact .inl hr
      · exact .inr .noWeddingID
    · cases h; exact .inl hr
  · cases h
    rcases mem_complete hr with hr | ⟨rfl, rfl⟩
    · exact .inl hr
    · exact .inr .weddingExists
  · cases h
    rcases mem_complete hr with hr | ⟨rfl, rfl⟩
    · exact .inl hr
    · exact .inr .wishes
  · obtain ⟨rfl, _⟩ := served_eq h
    exact onData_completes hr
  · obtain ⟨rfl, _⟩ := served_eq h
    exact onMain_completes hr
  · cases h
    rcases mem_complete hr with hr | ⟨rfl, rfl⟩
    · exact .inl hr
    · exact .inr .weddingID
  · cases h; exact .inl hr
  · cases h
    rcases mem_complete hr with hr | ⟨rfl, rfl⟩
    · exact .inl hr
    · exact .inr .gallery
  · cases h

end Serve

omit [UIKit UIImage] in
theorem act_asks {call : Call} {s : State UIImage} {u : Request UIImage}
    (hu : u ∈ (act call s).2) : u.asks = some (s.calls.length, call) := by
  cases call with
  | getWeddingIDFromUser currentUser =>
    cases currentUser with
    | none => cases hu
    | some uid => rw [List.mem_singleton.mp hu]; rfl
  | getImageOf | getGalleryUrls | retrieveGallery | getWishes | isWeddingExist | retrieveImage =>
    rw [List.mem_singleton.mp hu]; rfl

theorem Sends.asks {t u : Request UIImage} {reply : Reply} (h : Sends t reply u) : u.asks = none := by
  cases h with
  | image | gallery _ | decode _ | weddingID | notify _ | main => rfl

section Run

variable {ls : List (Label Call Reply)} {c : Config (State UIImage) (Request UIImage)}

theorem asked_of_pending (hr : (reads UIImage).run (.init (State.new UIImage)) ls = some c)
    {t : Request UIImage} (ht : t ∈ c.tasks) {k : Nat} {call : Call} (hk : t.asks = some (k, call)) :
    c.state.calls[k]? = some call := by
  have hpool := (System.pool_rule (I := fun _ => True)
    (J := fun s t => ∀ k call, t.asks = some (k, call) → s.calls[k]? = some call) hr
    ⟨trivial, nofun⟩ ?_ ?_).2
  · obtain ⟨x, hx, rfl⟩ := List.mem_map.mp ht
    exact hpool x hx k call hk
  · intro call e s s' ts _ ha
    obtain ⟨rfl, rfl⟩ := served_eq ha
    have hcalls := (act_spec call s).1
    refine ⟨trivial, fun u hu k call' hask => ?_, fun u hold k call' hask => ?_⟩
    · rw [act_asks hu] at hask
      cases hask
      rw [hcalls]; simp
    · rw [hcalls]
      exact List.getElem?_append_left (List.getElem?_eq_some_iff.mp (hold k call' hask)).1 ▸
        hold k call' hask
  · intro t e s s' ts _ _ ha
    refine ⟨trivial, fun u hu k call hask => ?_, fun u hold => ?_⟩
    · rw [(serve_sends ha hu).asks] at hask
      cases hask
    · rw [serve_calls ha]; exact hold

theorem served_of_completion (hr : (reads UIImage).run (.init (State.new UIImage)) ls = some c)
    {k : Nat} {r : Result UIImage} (h : (k, r) ∈ c.state.completions) :
    ∃ j t reply, Served ((reads UIImage).history (.init (State.new UIImage)) ls) j t reply ∧
      Completes t reply k r := by
  refine System.run_rule (I := fun h c => ∀ k r, (k, r) ∈ c.state.completions →
    ∃ j t reply, Served h j t reply ∧ Completes t reply k r) hr nofun ?_ k r h
  intro h c1 l c2 _ hI hs k r hk
  have hold : (k, r) ∈ c1.state.completions →
      ∃ j t reply, Served (h ++ [(c1, l)]) j t reply ∧ Completes t reply k r := by
    intro hk
    obtain ⟨j, t, reply, hsv, hc⟩ := hI k r hk
    exact ⟨j, t, reply, served_append.mpr (.inl hsv), hc⟩
  cases hs with
  | @act call _ _ _ ha =>
    obtain ⟨rfl, _⟩ := served_eq ha
    rw [Config.acted_state, (act_spec call c1.state).2.1] at hk
    exact hold hk
  | @serve i j t reply s ts hi ha =>
    rcases serve_completes ha hk with hk | hc
    · exact hold hk
    · exact ⟨j, t, reply, served_append.mpr (.inr ((served_serve hi).mpr ⟨rfl, rfl, rfl⟩)), hc⟩

theorem call_of_served (hr : (reads UIImage).run (.init (State.new UIImage)) ls = some c) {k : Nat}
    {t : Request UIImage} {reply : Reply}
    (hs : Served ((reads UIImage).history (.init (State.new UIImage)) ls) k t reply) : t.call = k := by
  obtain ⟨c1, i, hm, hi⟩ := hs
  obtain ⟨ls1, _, _, _, h1, _, _⟩ := System.history_split hr hm
  exact (invariant_of_run h1).origin _ (mem_of_getElem? hi)

/-- A request in flight that no call asks first was sent for the reply to another one. -/
theorem sent_of_pending (hr : (reads UIImage).run (.init (State.new UIImage)) ls = some c)
    {t : Request UIImage} (ht : t ∈ c.tasks) (hn : t.asks = none) :
    ∃ k u reply, Served ((reads UIImage).history (.init (State.new UIImage)) ls) k u reply ∧
      Sends u reply t := by
  obtain ⟨⟨k, t⟩, hx, rfl⟩ := List.mem_map.mp ht
  cases System.left_of_pending hr hx with
  | act _ _ ha hu =>
    obtain ⟨_, rfl⟩ := served_eq ha
    rw [act_asks hu] at hn
    cases hn
  | @serve c1 u reply _ _ hs ha hu => exact ⟨k, u, reply, ⟨c1, hs⟩, serve_sends ha hu⟩

theorem sent_of_served (hr : (reads UIImage).run (.init (State.new UIImage)) ls = some c) {k : Nat}
    {t : Request UIImage} {reply : Reply}
    (hs : Served ((reads UIImage).history (.init (State.new UIImage)) ls) k t reply)
    (hn : t.asks = none) :
    ∃ k' u reply', Served ((reads UIImage).history (.init (State.new UIImage)) ls) k' u reply' ∧
      Sends u reply' t := by
  obtain ⟨c1, i, hm, hi⟩ := hs
  obtain ⟨ls1, ls2, _, rfl, h1, _, _⟩ := System.history_split hr hm
  have ht : t ∈ c1.tasks := List.mem_map.mpr ⟨_, mem_of_getElem? hi, rfl⟩
  obtain ⟨k', u, reply', hu, hsend⟩ := sent_of_pending h1 ht hn
  refine ⟨k', u, reply', hu.mono fun x hx => ?_, hsend⟩
  rw [System.history_append h1]
  exact List.mem_append_left _ hx

/-- The image of a person goes back to a download, and that to the document that gave its path. -/
theorem person_trace (hr : (reads UIImage).run (.init (State.new UIImage)) ls = some c) {k : Nat}
    {image : UIImage} (h : (k, .person (some image) none) ∈ c.state.completions) :
    ∃ i j w person doc reply,
      Served ((reads UIImage).history (.init (State.new UIImage)) ls) i (.imageDocument k w person)
        (.document (.ok (some doc))) ∧
      Served ((reads UIImage).history (.init (State.new UIImage)) ls) j
        (.imageData (.person k) (imageUrl doc person)) (.data reply) ∧
      outcome reply = some image := by
  obtain ⟨_, _, _, hmain, hc⟩ := served_of_completion hr h
  cases hc with
  | person =>
    obtain ⟨j, _, _, hdata, hsend⟩ := sent_of_served hr hmain rfl
    cases hsend with
    | decode ho =>
      obtain ⟨i, _, _, hdocument, hsend⟩ := sent_of_served hr hdata rfl
      cases hsend with
      | image => exact ⟨i, j, _, _, _, _, hdocument, hdata, ho⟩

/-- While a call has something in flight, its handler has not been called. -/
theorem unanswered_of_pending (hr : (reads UIImage).run (.init (State.new UIImage)) ls = some c)
    {t : Request UIImage} (ht : t ∈ c.tasks) : c.state.answers t.call = [] := by
  obtain ⟨x, hx, rfl⟩ := List.mem_map.mp ht
  have hI := invariant_of_run hr
  have hmem : x.2 ∈ c.descendants x.2.call :=
    Config.mem_descendants.mpr (hI.origin x hx ▸ hx)
  cases hI.phase x.2.call with
  | waiting _ _ _ _ ha _ | gathering _ _ _ _ ha _ => exact ha
  | uncalled _ ht _ _ | answered _ _ ht _ _ | silent _ ht _ _ =>
    rw [ht] at hmem
    cases hmem

end Run

end WeddApp.Reads
