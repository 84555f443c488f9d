import WeddApp.Reads.Step

/-!
# Reads.Replies

What a reply to a request of a read leads to: the handler is called, another request is sent, a
gallery starts or goes on (`Serves`, `serve_serves`); or nothing happens at all (`Silent`).
-/

namespace WeddApp.Reads

variable {UIImage : Type}

def ImageHandler.call : ImageHandler → Nat
  | .caller k | .person k | .gallery k => k

def UrlsHandler.call : UrlsHandler → Nat
  | .caller k | .gallery k => k

def Request.call : Request UIImage → Nat
  | .imageDocument k _ _ | .userDocument k _ | .weddingDocument k _ | .guestDocuments k _
  | .weddingIDMain k _ _ | .galleryNotify k | .galleryMain k => k
  | .galleryDocument handler _ => handler.call
  | .imageData handler _ | .imageMain handler _ => handler.call

/-- A download of a gallery that has not left the group. -/
def Request.isDownload : Request UIImage → Bool
  | .imageData (.gallery _) _ | .imageMain (.gallery _) _ => true
  | _ => false

/-- What a gallery has in flight after its document was read. -/
def Request.ofGallery : Request UIImage → Bool
  | .imageData (.gallery _) _ | .imageMain (.gallery _) _ | .galleryNotify _ | .galleryMain _ => true
  | _ => false

theorem isDownload_of_ofGallery {t : Request UIImage} (h : t.ofGallery = false) :
    t.isDownload = false := by
  cases t with
  | imageData handler _ | imageMain handler _ =>
    cases handler with
    | gallery k => cases h
    | caller k | person k => rfl
  | galleryNotify | galleryMain => cases h
  | imageDocument | galleryDocument | userDocument | weddingDocument | guestDocuments
  | weddingIDMain => rfl

/-- What the handlers of `retrieveImage` are called with. -/
def outcome [UIKit UIImage] (reply : Except NSError Data) : Option UIImage :=
  match reply with
  | .error _ => none
  | .ok data => UIKit.ofData data

def galleryRead : Request UIImage → Reply → Option (List String)
  | .galleryDocument (.gallery _) _, .document (.ok document) =>
    some (getGalleryUrls.onDocument (.ok document)).1
  | _, _ => none

/-- What a reply brings to a gallery: the path that was downloaded and its image, if there is one. -/
def galleryDownload [UIKit UIImage] :
    Request UIImage → Reply → Option (String × Option UIImage)
  | .imageData (.gallery _) url, .data reply => some (url, outcome reply)
  | _, _ => none

/-- The replies after which no handler is called: an error for the document of a `retrieveGallery`,
and no image for a `getImageOf`. -/
def Silent [UIKit UIImage] : Request UIImage → Reply → Prop
  | .galleryDocument (.gallery _) _, .document (.error _) => True
  | .imageData (.person _) _, .data reply => (outcome reply : Option UIImage) = none
  | _, _ => False

/-- What the handler of call `k` was called with, latest first. -/
def State.answers (s : State UIImage) (k : Nat) : List (Result UIImage) :=
  s.completions.filterMap fun x => if x.1 = k then some x.2 else none

theorem answers_of_completions {s s' : State UIImage} (h : s'.completions = s.completions)
    (k : Nat) : s'.answers k = s.answers k := by
  rw [State.answers, State.answers, h]

theorem answers_cons {s s' : State UIImage} {k : Nat} {r : Result UIImage}
    (h : s'.completions = (k, r) :: s.completions) (k' : Nat) :
    s'.answers k' = if k = k' then r :: s.answers k' else s.answers k' := by
  rw [State.answers, State.answers, h, List.filterMap_cons]
  split
  · rename_i hn
    split at hn
    · cases hn
    · rename_i hk; rw [if_neg hk]
  · rename_i hn
    split at hn
    · rename_i hk; cases hn; rw [if_pos hk]
    · cases hn

variable [UIKit UIImage]

/-- A reply took the state `s` to `s'` and left requests in flight. -/
inductive Serves (s : State UIImage) :
    Request UIImage → Reply → State UIImage → List (Request UIImage) → Prop where
  | answers {t : Request UIImage} {reply : Reply} {s' : State UIImage} (r : Result UIImage)
      (ht : t.ofGallery = false) (hr : ∀ photos, r ≠ .gallery photos) (hs : ¬ Silent t reply)
      (hn : galleryRead t reply = none)
      (hc : s'.completions = (t.call, r) :: s.completions) (hg : s'.groups = s.groups) :
      Serves s t reply s' []
  | passes {t u : Request UIImage} {reply : Reply} {s' : State UIImage} (ht : t.ofGallery = false)
      (hs : ¬ Silent t reply) (hn : galleryRead t reply = none) (hu : u.ofGallery = false)
      (hcall : u.call = t.call)
      (hc : s'.completions = s.completions) (hg : s'.groups = s.groups) : Serves s t reply s' [u]
  | silent {t : Request UIImage} {reply : Reply} {s' : State UIImage} (ht : t.ofGallery = false)
      (hs : Silent t reply) (hc : s'.completions = s.completions) (hg : s'.groups = s.groups) :
      Serves s t reply s' []
  | gathers {k : Nat} {id : String} {document : Option Document} {urls : List String}
      {s' : State UIImage} (hr : (getGalleryUrls.onDocument (.ok document)).1 = urls)
      (hc : s'.completions = s.completions)
      (hg : s'.groups = Function.update s.groups k ⟨urls.length, []⟩) :
      Serves s (.galleryDocument (.gallery k) id) (.document (.ok document)) s'
        (urls.map (fun url => .imageData (.gallery k) url) ++
          Group.notify (⟨urls.length, []⟩ : Group UIImage) k)
  | decodes {k : Nat} {url : String} {reply : Except NSError Data} {image : UIImage}
      (ho : outcome reply = some image) :
      Serves s (.imageData (.gallery k) url) (.data reply) s [.imageMain (.gallery k) image]
  | fails {k : Nat} {url : String} {reply : Except NSError Data} {s' : State UIImage}
      {g : Group UIImage} (ho : (outcome reply : Option UIImage) = none)
      (hg' : g = ⟨(s.groups k).entered - 1, (s.groups k).galleryPhotos ++ [none]⟩)
      (hc : s'.completions = s.completions) (hg : s'.groups = Function.update s.groups k g) :
      Serves s (.imageData (.gallery k) url) (.data reply) s' (g.notify k)
  | collects {k : Nat} {image : UIImage} {s' : State UIImage} {g : Group UIImage}
      (hg' : g = ⟨(s.groups k).entered - 1, (s.groups k).galleryPhotos ++ [some image]⟩)
      (hc : s'.completions = s.completions) (hg : s'.groups = Function.update s.groups k g) :
      Serves s (.imageMain (.gallery k) image) .main s' (g.notify k)
  | notifies {k : Nat} : Serves s (.galleryNotify k) .main s [.galleryMain k]
  | shows {k : Nat} {s' : State UIImage}
      (hc : s'.completions = (k, .gallery (s.groups k).galleryPhotos) :: s.completions)
      (hg : s'.groups = s.groups) : Serves s (.galleryMain k) .main s' []

theorem completion_none {handler : ImageHandler} {url : String} {reply : Except NSError Data}
    (ho : (outcome reply : Option UIImage) = none) {s s1 : State UIImage}
    (hc : s1.completions = s.completions) (hg : s1.groups = s.groups) :
    Serves s (.imageData handler url) (.data reply) (handler.completion none s1).1
      (handler.completion none s1).2 := by
  cases handler with
  | caller k => exact .answers (.image none) rfl nofun id rfl (congrArg _ hc) hg
  | person k => exact .silent rfl ho hc hg
  | gallery k =>
    refine .fails ho ?_ hc ?_
    · rw [← hg]
    · rw [← hg]; rfl

theorem onData_serves (handler : ImageHandler) (url : String) (reply : Except NSError Data)
    (s : State UIImage) : Serves s (.imageData handler url) (.data reply)
      (retrieveImage.onData handler reply s).1 (retrieveImage.onData handler reply s).2 := by
  unfold retrieveImage.onData
  split
  · exact completion_none rfl rfl rfl
  · rename_i data
    split
    · rename_i image ho
      cases handler with
      | gallery k => exact .decodes ho
      | caller k => exact .passes rfl id rfl rfl rfl rfl rfl
      | person k =>
        refine .passes rfl (fun h => ?_) rfl rfl rfl rfl rfl
        rw [Silent, outcome, ho] at h; cases h
    · rename_i ho
      have ho : outcome (.ok data) = (none : Option UIImage) := ho
      exact completion_none ho rfl rfl

theorem onMain_serves (handler : ImageHandler) (image : UIImage) (s : State UIImage) :
    Serves s (.imageMain handler image) .main
      ((handler.completion (some image) s).1.report (.success SuccessOperations.imageFetched))
      (handler.completion (some image) s).2 := by
  cases handler with
  | caller k => exact .answers (.image (some image)) rfl nofun id rfl rfl rfl
  | person k => exact .answers (.person (some image) none) rfl nofun id rfl rfl rfl
  | gallery k => exact .collects rfl rfl rfl

theorem onImageDocument_serves (k : Nat) (id person : String)
    (reply : Except NSError (Option Document)) (s : State UIImage) :
    Serves s (.imageDocument k id person) (.document reply)
      (getImageOf.onDocument k person reply s).1 (getImageOf.onDocument k person reply s).2 := by
  unfold getImageOf.onDocument
  split
  · rename_i m
    exact .answers (.person none (some m)) rfl nofun (fun h => h) rfl rfl rfl
  · exact .passes rfl (fun h => h) rfl rfl rfl rfl rfl
  · exact .answers (.person none none) rfl nofun (fun h => h) rfl rfl rfl

theorem onGalleryDocument_serves {handler : UrlsHandler} (id : String)
    {reply : Except NSError (Option Document)} {s s1 : State UIImage}
    (hc : s1.completions = s.completions) (hg : s1.groups = s.groups) :
    Serves s (.galleryDocument handler id) (.document reply)
      (handler.completion (getGalleryUrls.onDocument reply).1 (getGalleryUrls.onDocument reply).2 s1).1
      (handler.completion (getGalleryUrls.onDocument reply).1 (getGalleryUrls.onDocument reply).2 s1).2 := by
  cases handler with
  | caller k =>
    exact .answers (.urls (getGalleryUrls.onDocument reply).1 (getGalleryUrls.onDocument reply).2)
      rfl nofun (fun h => h) rfl (congrArg _ hc) hg
  | gallery k =>
    cases reply with
    | error m => exact .silent rfl trivial hc hg
    | ok document =>
      have hurls : getGalleryUrls.onDocument (.ok document) =
          ((getGalleryUrls.onDocument (.ok document)).1, none) := by
        cases document <;> rfl
      have hts : (retrieveGallery.onUrls k (getGalleryUrls.onDocument (.ok document)).1 none s1).2 =
          (getGalleryUrls.onDocument (.ok document)).1.map (fun url => .imageData (.gallery k) url) ++
            Group.notify (⟨(getGalleryUrls.onDocument (.ok document)).1.length, []⟩ : Group UIImage) k := by
        simp only [retrieveGallery.onUrls, retrieveImage, List.map_eq_flatMap]
      rw [hurls, UrlsHandler.completion]
      simp only [hts]
      refine .gathers rfl hc ?_
      rw [← hg]; rfl

theorem onUserDocument_serves (k : Nat) (uid : UID) (reply : Except NSError (Option Document))
    {s s' : State UIImage} {ts : List (Request UIImage)}
    (h : serve (.userDocument k uid) (.document reply) s = some (s', ts)) :
    Serves s (.userDocument k uid) (.document reply) s' ts := by
  simp only [serve] at h
  split at h
  · cases h; exact .answers _ rfl (by nofun) id rfl rfl rfl
  · cases h; exact .passes rfl id rfl rfl rfl rfl rfl

omit [UIKit UIImage] in
theorem served_eq {p : State UIImage × List (Request UIImage)} {s' : State UIImage}
    {ts : List (Request UIImage)} (h : some p = some (s', ts)) : s' = p.1 ∧ ts = p.2 := by
  cases h; exact ⟨rfl, rfl⟩

theorem serve_serves {t : Request UIImage} {reply : Reply} {s s' : State UIImage}
    {ts : List (Request UIImage)} (h : serve t reply s = some (s', ts)) : Serves s t reply s' ts := by
  unfold serve at h
  split at h
  · obtain ⟨rfl, rfl⟩ := served_eq h; exact onImageDocument_serves ..
  · obtain ⟨rfl, rfl⟩ := served_eq h
    refine onGalleryDocument_serves _ ?_ ?_
    · split <;> rfl
    · split <;> rfl
  · exact onUserDocument_serves _ _ _ h
  · cases h; exact .answers _ rfl (by nofun) id rfl rfl rfl
  · cases h; exact .answers _ rfl (by nofun) id rfl rfl rfl
  · obtain ⟨rfl, rfl⟩ := served_eq h; exact onData_serves ..
  · obtain ⟨rfl, rfl⟩ := served_eq h; exact onMain_serves ..
  · cases h; exact .answers _ rfl (by nofun) id rfl rfl rfl
  · cases h; exact .notifies
  · cases h; exact .shows rfl rfl
  · cases h

omit [UIKit UIImage] in
theorem completion_calls (handler : ImageHandler) (image : Option UIImage) (s : State UIImage) :
    (handler.completion image s).1.calls = s.calls := by
  unfold ImageHandler.completion
  split
  · rfl
  · split <;> rfl
  · rfl

theorem serve_calls {t : Request UIImage} {reply : Reply} {s s' : State UIImage}
    {ts : List (Request UIImage)} (h : serve t reply s = some (s', ts)) : s'.calls = s.calls := by
  unfold serve at h
  split at h
  · obtain ⟨rfl, _⟩ := served_eq h
    unfold getImageOf.onDocument
    split <;> rfl
  · rename_i handler _ reply
    obtain ⟨rfl, _⟩ := served_eq h
    cases handler with
    | caller k => cases reply <;> rfl
    | gallery k =>
      cases reply with
      | error m => rfl
      | ok document => cases document <;> rfl
  · split at h <;> cases h <;> rfl
  · cases h; rfl
  · cases h; rfl
  · obtain ⟨rfl, _⟩ := served_eq h
    unfold retrieveImage.onData
    split
    · exact completion_calls ..
    split
    · rfl
    · exact completion_calls ..
  · obtain ⟨rfl, _⟩ := served_eq h; exact completion_calls ..
  · cases h; rfl
  · cases h; rfl
  · cases h; rfl
  · cases h

omit [UIKit UIImage] in
theorem act_spec (call : Call) (s : State UIImage) :
    (act call s).1.calls = s.calls ++ [call] ∧ (act call s).1.completions = s.completions ∧
      (act call s).1.groups = s.groups ∧
      (call = .getWeddingIDFromUser none ∧ (act call s).2 = [] ∨
        call ≠ .getWeddingIDFromUser none ∧ ∃ t : Request UIImage, (act call s).2 = [t] ∧
          t.call = s.calls.length ∧ t.ofGallery = false) := by
  cases call with
  | getWeddingIDFromUser currentUser =>
    cases currentUser with
    | none => exact ⟨rfl, rfl, rfl, .inl ⟨rfl, rfl⟩⟩
    | some uid => exact ⟨rfl, rfl, rfl, .inr ⟨nofun, _, rfl, rfl, rfl⟩⟩
  | getImageOf | getGalleryUrls | retrieveGallery | getWishes | isWeddingExist | retrieveImage =>
    exact ⟨rfl, rfl, rfl, .inr ⟨nofun, _, rfl, rfl, rfl⟩⟩

theorem Serves.other {s s' : State UIImage} {t : Request UIImage} {reply : Reply}
    {ts : List (Request UIImage)} (hsv : Serves s t reply s' ts) {k : Nat} (hk : t.call ≠ k) :
    s'.groups k = s.groups k ∧ s'.answers k = s.answers k := by
  cases hsv with
  | answers r _ _ _ _ hc hg => exact ⟨by rw [hg], by rw [answers_cons hc, if_neg hk]⟩
  | shows hc hg =>
    refine ⟨by rw [hg], ?_⟩
    rw [answers_cons hc, if_neg]; exact hk
  | passes _ _ _ _ _ hc hg | silent _ _ hc hg => exact ⟨by rw [hg], answers_of_completions hc k⟩
  | decodes _ | notifies => exact ⟨rfl, rfl⟩
  | gathers _ hc hg | fails _ _ hc hg | collects _ hc hg =>
    refine ⟨?_, answers_of_completions hc k⟩
    rw [hg]; exact Function.update_of_ne (fun h => hk h.symm) _ _

omit [UIKit UIImage] in
theorem mem_notify {g : Group UIImage} {k : Nat} {u : Request UIImage} (hu : u ∈ g.notify k) :
    u = .galleryNotify k := by
  unfold Group.notify at hu
  split at hu
  · exact List.mem_singleton.mp hu
  · cases hu

theorem Serves.same_call {s s' : State UIImage} {t u : Request UIImage} {reply : Reply}
    {ts : List (Request UIImage)} (hsv : Serves s t reply s' ts) (hu : u ∈ ts) :
    u.call = t.call := by
  cases hsv with
  | answers _ _ _ _ _ _ _ | silent _ _ _ _ | shows _ _ => cases hu
  | passes _ _ _ _ hcall _ _ => rw [List.mem_singleton.mp hu]; exact hcall
  | decodes _ | notifies => rw [List.mem_singleton.mp hu]; rfl
  | gathers _ _ _ =>
    rcases List.mem_append.mp hu with hu | hu
    · obtain ⟨url, _, rfl⟩ := List.mem_map.mp hu; rfl
    · rw [mem_notify hu]; rfl
  | fails _ _ _ _ | collects _ _ _ => rw [mem_notify hu]; rfl

end WeddApp.Reads
