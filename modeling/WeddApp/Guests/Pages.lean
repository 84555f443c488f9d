import WeddApp.Async.Driver
import WeddApp.Guests.Live

/-!
# Guests.Pages

The pages of a wedding (`IntroductionPage.swift`, `GalleryPage.swift`, `StoryPage.swift`) in front of
the system of hosts and guests. A page that appears makes reads of its wedding, and a read that is
answered calls the closure that the page passed to it. Meanwhile hosts and other guests go on.

* `HomePage`: the `@State` of the three pages of one `HomePage`, and the reads that they have made.
* `Fetch`: a read that a page makes, with its closure.
* `screen`: the pages as a driver of `live`.
* `Moved`: what a move does, one case per kind. `Tracks` is the invariant: the reads of the pages are
  the calls of the client, and what a page shows is what such a call was answered.
-/

namespace WeddApp.Guests

open Async

variable {UIImage : Type}

/-- The reads of the pages, one for each closure. -/
inductive Fetch where
  | groomImage
  | brideImage
  | photos
  | wishes
  deriving DecidableEq

structure IntroductionPage (UIImage : Type) where
  groomImage : Option UIImage
  brideImage : Option UIImage

structure GalleryPage (UIImage : Type) where
  photos : List UIImage

structure StoryPage where
  wishes : Option (List Wish)

/-- The pages of the wedding `id`. The call number `k` of the client is `fetches[k]`. -/
structure HomePage (UIImage : Type) where
  id : String
  introduction : IntroductionPage UIImage
  gallery : GalleryPage UIImage
  story : StoryPage
  fetches : List Fetch
  log : List Event

namespace HomePage

def new (UIImage : Type) (id : String) : HomePage UIImage :=
  ⟨id, ⟨none, none⟩, ⟨[]⟩, ⟨none⟩, [], []⟩

def report (p : HomePage UIImage) (e : Event) : HomePage UIImage := { p with log := e :: p.log }

end HomePage

inductive Page where
  | introduction
  | gallery
  | story

/-! ## What the pages read -/

def Fetch.call (id : String) : Fetch → Reads.Call
  | .groomImage => .getImageOf id "groom"
  | .brideImage => .getImageOf id "bride"
  | .photos => .retrieveGallery id
  | .wishes => .getWishes id

/-- The closure that a page passes to it. The default image is `UIImage()`. -/
def Fetch.completion [Inhabited UIImage] (f : Fetch) (r : Reads.Result UIImage)
    (p : HomePage UIImage) : HomePage UIImage :=
  match f, r with
  | .groomImage, .person image error =>
    match error with
    | some e => p.report (.error (.imageGettingError e))
    | none => { p with introduction.groomImage := image }
  | .brideImage, .person image error =>
    match error with
    | some e => p.report (.error (.imageGettingError e))
    | none => { p with introduction.brideImage := image }
  | .photos, .gallery uiImages =>
    { p with gallery.photos := uiImages.map fun uiImage => uiImage.getD default }
  | .wishes, .wishes guestWishes error =>
    match error with
    | some e => p.report (.error (.gettingWishesError e))
    | none => { p with story.wishes := some guestWishes }
  | _, _ => p

def IntroductionPage.onAppear (page : IntroductionPage UIImage) : List Fetch :=
  if page.groomImage.isNone && page.brideImage.isNone then [.groomImage, .brideImage] else []

def GalleryPage.onAppear (page : GalleryPage UIImage) : List Fetch :=
  if page.photos.isEmpty then [.photos] else []

/-- `onAppear` of `StoryPage`: the wishes are read again each time. -/
def StoryPage.onAppear (_ : StoryPage) : List Fetch := [.wishes]

namespace HomePage

def onAppear (p : HomePage UIImage) : Page → List Fetch
  | .introduction => p.introduction.onAppear
  | .gallery => p.gallery.onAppear
  | .story => p.story.onAppear

def answer [Inhabited UIImage] (p : HomePage UIImage) (k : Nat) (r : Reads.Result UIImage) :
    HomePage UIImage :=
  match p.fetches[k]? with
  | some f => f.completion r p
  | none => p

end HomePage

/-! ## The pages as a driver -/

inductive Move (UIImage : Type) where
  /-- A host or another guest does something. -/
  | app (a : Action UIImage) (e : Env)
  | serve (i : Nat) (e : Env)
  | appear (page : Page)

/-- The handlers that were called on the way from `c` to `c'`. -/
def completed (c c' : Config (World UIImage) (Job UIImage)) : List (Nat × Reads.Result UIImage) :=
  c'.state.client.completions.take
    (c'.state.client.completions.length - c.state.client.completions.length)

def screen (UIImage : Type) [UIKit UIImage] [Inhabited UIImage] (refusal : NSError) :
    Driver (live UIImage refusal) (HomePage UIImage) (Move UIImage) where
  labels m _ p :=
    match m with
    | .app a e => some [.act (.inl a) e]
    | .serve i e => some [.serve i e]
    | .appear page => some ((p.onAppear page).map fun f => .act (.inr (f.call p.id)) .ok)
  update m c c' p :=
    match m with
    | .app _ _ => p
    | .serve _ _ => (completed c c').foldr (fun x p => p.answer x.1 x.2) p
    | .appear page => { p with fetches := p.fetches ++ p.onAppear page }

/-! ## What a move does -/

/-- Call `k` of the client is under way. -/
def Asking (c : Config (World UIImage) (Job UIImage)) (k : Nat) : Prop :=
  ∃ t ∈ c.tasks.filterMap Job.client, t.call = k

theorem not_asking_of_drained {c : Config (World UIImage) (Job UIImage)} (h : c.pending = []) (k : Nat) :
    ¬ Asking c k := by
  rintro ⟨t, ht, _⟩
  rw [Config.tasks, h] at ht
  cases ht

inductive Moved [Inhabited UIImage] (c c' : Config (World UIImage) (Job UIImage))
    (p : HomePage UIImage) : HomePage UIImage → Prop where
  | idles (hcalls : c'.state.client.calls = c.state.client.calls)
      (hdone : c'.state.client.completions = c.state.client.completions)
      (hask : ∀ k, Asking c' k → Asking c k) : Moved c c' p p
  | answers {k : Nat} {r : Reads.Result UIImage} (hk : Asking c k)
      (hcalls : c'.state.client.calls = c.state.client.calls)
      (hdone : c'.state.client.completions = (k, r) :: c.state.client.completions)
      (hask : ∀ k, Asking c' k → Asking c k) : Moved c c' p (p.answer k r)
  | appears {page : Page}
      (hcalls : c'.state.client.calls =
        c.state.client.calls ++ (p.onAppear page).map (Fetch.call p.id))
      (hdone : c'.state.client.completions = c.state.client.completions)
      (hask : ∀ k, Asking c' k → Asking c k ∨ c.state.client.calls.length ≤ k) :
      Moved c c' p { p with fetches := p.fetches ++ p.onAppear page }

section Step

variable [UIKit UIImage] {refusal : NSError} {c c' : Config (World UIImage) (Job UIImage)}

omit [UIKit UIImage] in
theorem completed_same (h : c'.state.client.completions = c.state.client.completions) :
    completed c c' = [] := by
  simp [completed, h]

omit [UIKit UIImage] in
theorem completed_cons {x : Nat × Reads.Result UIImage}
    (h : c'.state.client.completions = x :: c.state.client.completions) : completed c c' = [x] := by
  simp [completed, h]

theorem fetched {id : String} {fs : List Fetch}
    (hr : (live UIImage refusal).run c (fs.map fun f => .act (.inr (f.call id)) .ok) = some c') :
    c'.state.client.calls = c.state.client.calls ++ fs.map (Fetch.call id) ∧
      c'.state.client.completions = c.state.client.completions ∧
      ∀ k, Asking c' k → Asking c k ∨ c.state.client.calls.length ≤ k := by
  induction fs generalizing c with
  | nil =>
    cases hr
    exact ⟨by simp, rfl, fun k hk => .inl hk⟩
  | cons f fs ih =>
    obtain ⟨c1, hs, hr⟩ := System.run_cons.mp hr
    obtain ⟨hcalls, hdone, hask⟩ := ih hr
    cases hs with
    | act ha =>
      cases Network.acts_of_act ha with
      | @client _ client ts hc =>
        obtain ⟨hc1, hc2, _, hc4⟩ := Reads.act_spec (f.call id) c.state.client
        obtain ⟨rfl, rfl⟩ := Reads.served_eq hc
        rw [Config.acted_state, hc1] at hcalls hask
        rw [Config.acted_state, hc2] at hdone
        refine ⟨by rw [hcalls, List.map_cons, List.append_assoc]; rfl, hdone, fun k hk => ?_⟩
        rcases hask k hk with ⟨t, ht, rfl⟩ | hk
        · rw [Config.tasks_acted, List.filterMap_append, Network.client_request,
            List.mem_append] at ht
          rcases ht with ht | ht
          · exact .inl ⟨t, ht, rfl⟩
          · rcases hc4 with ⟨_, hnil⟩ | ⟨_, u, hu, hcall, _⟩
            · rw [hnil] at ht; cases ht
            · rw [hu, List.mem_singleton] at ht
              rw [ht, hcall]; exact .inr (Nat.le_refl _)
        · rw [List.length_append, List.length_singleton] at hk
          exact .inr (by omega)

variable [Inhabited UIImage] {p : HomePage UIImage}

theorem moved_of_serve {i : Nat} {e : Env} (hs : (live UIImage refusal).Step c (.serve i e) c') :
    Moved c c' p ((completed c c').foldr (fun x p => p.answer x.1 x.2) p) := by
  cases hs with
  | @serve _ k t _ s ts hi ha =>
    obtain ⟨rest, hperm, htasks⟩ := Config.tasks_served hi s ts
    have hstate : (c.served i k s ts).state = s := rfl
    generalize c.served i k s ts = c' at htasks hstate ⊢
    have hself : ∀ u, t.client = some u → Asking c u.call := fun u hu =>
      ⟨u, List.mem_filterMap.mpr ⟨t, hperm.mem_iff.mpr List.mem_cons_self, hu⟩, rfl⟩
    -- what is under way afterwards was so before, or is sent now
    have hnew : ∀ k', Asking c' k' → Asking c k' ∨ ∃ u ∈ ts.filterMap Job.client, u.call = k' := by
      rintro k' ⟨u, hu, hk⟩
      rw [htasks, List.filterMap_append, List.mem_append] at hu
      rcases hu with hu | hu
      · refine .inl ⟨u, (hperm.filterMap _).mem_iff.mpr ?_, hk⟩
        rw [← List.singleton_append, List.filterMap_append]
        exact List.mem_append_right _ hu
      · exact .inr ⟨u, hu, hk⟩
    cases Network.serves_of_serve ha with
    | server _ =>
      rw [completed_same (by rw [hstate])]
      refine .idles (by rw [hstate]) (by rw [hstate]) fun k' hk => (hnew k' hk).elim id ?_
      rintro ⟨u, hu, _⟩
      rw [Network.client_server] at hu
      cases hu
    | @answers t =>
      rw [completed_same (by rw [hstate])]
      refine .idles (by rw [hstate]) (by rw [hstate]) fun k' hk => (hnew k' hk).elim id ?_
      rintro ⟨u, hu, rfl⟩
      cases List.mem_singleton.mp hu
      exact hself _ rfl
    | @delivers t _ client us ht =>
      have hserves := Reads.serve_serves ht
      have hcalls : c'.state.client.calls = c.state.client.calls := by
        rw [hstate]; exact Reads.serve_calls ht
      have hask : ∀ k', Asking c' k' → Asking c k' := by
        intro k' hk
        rcases hnew k' hk with hk | ⟨u, hu, rfl⟩
        · exact hk
        · rw [Network.client_request] at hu
          rw [hserves.same_call hu]
          exact hself t rfl
      rcases completions_served hserves with hc | ⟨r, hc⟩
      · have hdone : c'.state.client.completions = c.state.client.completions := by
          rw [hstate]; exact hc
        rw [completed_same hdone]
        exact .idles hcalls hdone hask
      · have hdone : c'.state.client.completions = (t.call, r) :: c.state.client.completions := by
          rw [hstate]; exact hc
        rw [completed_cons hdone]
        exact .answers (hself t rfl) hcalls hdone hask

theorem moved_of_labels {m : Move UIImage} {ls : List (Step UIImage)}
    (hl : (screen UIImage refusal).labels m c p = some ls)
    (hr : (live UIImage refusal).run c ls = some c') :
    Moved c c' p ((screen UIImage refusal).update m c c' p) := by
  cases m with
  | app a e =>
    cases hl
    obtain ⟨c1, hs, h1⟩ := System.run_cons.mp hr
    cases h1
    cases hs with
    | act ha =>
      cases Network.acts_of_act ha with
      | server _ =>
        refine .idles rfl rfl fun k ⟨t, ht, hk⟩ => ⟨t, ?_, hk⟩
        rwa [Config.tasks_acted, List.filterMap_append, Network.client_server,
          List.append_nil] at ht
  | serve i e =>
    cases hl
    obtain ⟨c1, hs, h1⟩ := System.run_cons.mp hr
    cases h1
    exact moved_of_serve hs
  | appear page =>
    cases hl
    obtain ⟨hcalls, hdone, hask⟩ := fetched hr
    exact .appears hcalls hdone hask

end Step

/-! ## What the pages show -/

section Closures

variable [Inhabited UIImage] (f : Fetch) (r : Reads.Result UIImage) (p : HomePage UIImage)

@[simp] theorem completion_id : (f.completion r p).id = p.id := by
  unfold Fetch.completion
  split <;> first | rfl | (split <;> rfl)

@[simp] theorem completion_fetches : (f.completion r p).fetches = p.fetches := by
  unfold Fetch.completion
  split <;> first | rfl | (split <;> rfl)

theorem completion_introduction : (f.completion r p).introduction = p.introduction ∨
    ∃ image, r = .person image none ∧
      (f = .groomImage ∧
        (f.completion r p).introduction = { p.introduction with groomImage := image } ∨
      f = .brideImage ∧
        (f.completion r p).introduction = { p.introduction with brideImage := image }) := by
  unfold Fetch.completion
  split
  · split
    · exact .inl rfl
    · exact .inr ⟨_, rfl, .inl ⟨rfl, rfl⟩⟩
  · split
    · exact .inl rfl
    · exact .inr ⟨_, rfl, .inr ⟨rfl, rfl⟩⟩
  · exact .inl rfl
  · split <;> exact .inl rfl
  · exact .inl rfl

theorem completion_gallery : (f.completion r p).gallery = p.gallery ∨
    f = .photos ∧ ∃ uiImages, r = .gallery uiImages ∧
      (f.completion r p).gallery = ⟨uiImages.map fun uiImage => uiImage.getD default⟩ := by
  unfold Fetch.completion
  split
  · split <;> exact .inl rfl
  · split <;> exact .inl rfl
  · exact .inr ⟨rfl, _, rfl, rfl⟩
  · split <;> exact .inl rfl
  · exact .inl rfl

theorem completion_story : (f.completion r p).story = p.story ∨
    f = .wishes ∧ ∃ wishes, r = .wishes wishes none ∧ (f.completion r p).story = ⟨some wishes⟩ := by
  unfold Fetch.completion
  split
  · split <;> exact .inl rfl
  · split <;> exact .inl rfl
  · exact .inl rfl
  · split
    · exact .inl rfl
    · exact .inr ⟨rfl, _, rfl, rfl⟩
  · exact .inl rfl

theorem answer_cases (k : Nat) : p.answer k r = p ∨
    ∃ f, p.fetches[k]? = some f ∧ p.answer k r = f.completion r p := by
  unfold HomePage.answer
  cases hf : p.fetches[k]? with
  | none => exact .inl rfl
  | some f => exact .inr ⟨f, rfl, rfl⟩

@[simp] theorem answer_id (k : Nat) : (p.answer k r).id = p.id := by
  rcases answer_cases r p k with h | ⟨f, _, h⟩
  · rw [h]
  · rw [h, completion_id]

@[simp] theorem answer_fetches (k : Nat) : (p.answer k r).fetches = p.fetches := by
  rcases answer_cases r p k with h | ⟨f, _, h⟩
  · rw [h]
  · rw [h, completion_fetches]

end Closures

def Got (c : Config (World UIImage) (Job UIImage)) (p : HomePage UIImage) (f : Fetch)
    (r : Reads.Result UIImage) : Prop :=
  ∃ k, p.fetches[k]? = some f ∧ (k, r) ∈ c.state.client.completions

structure Tracks [Inhabited UIImage] (c : Config (World UIImage) (Job UIImage))
    (p : HomePage UIImage) : Prop where
  calls : c.state.client.calls = p.fetches.map (Fetch.call p.id)
  groomImage : ∀ image, p.introduction.groomImage = some image →
    Got c p .groomImage (.person (some image) none)
  brideImage : ∀ image, p.introduction.brideImage = some image →
    Got c p .brideImage (.person (some image) none)
  photos : p.gallery.photos ≠ [] → ∃ uiImages, Got c p .photos (.gallery uiImages) ∧
    p.gallery.photos = uiImages.map fun uiImage => uiImage.getD default
  wishes : ∀ wishes, p.story.wishes = some wishes → Got c p .wishes (.wishes wishes none)

section Run

variable {c c' : Config (World UIImage) (Job UIImage)} {p p' : HomePage UIImage}

theorem fetch_stays {fs fs' : List Fetch} (h : fs <+: fs') {k : Nat} {f : Fetch}
    (hk : fs[k]? = some f) : fs'[k]? = some f := by
  obtain ⟨rest, rfl⟩ := h
  rw [List.getElem?_append_left (List.getElem?_eq_some_iff.mp hk).1]
  exact hk

theorem Got.mono {f : Fetch} {r : Reads.Result UIImage} (h : Got c p f r)
    (hf : p.fetches <+: p'.fetches)
    (hdone : ∀ x ∈ c.state.client.completions, x ∈ c'.state.client.completions) : Got c' p' f r := by
  obtain ⟨k, hk, hr⟩ := h
  exact ⟨k, fetch_stays hf hk, hdone _ hr⟩

variable [Inhabited UIImage]

theorem Moved.id_eq (h : Moved c c' p p') : p'.id = p.id := by
  cases h with
  | idles | appears => rfl
  | answers => exact answer_id ..

theorem Moved.fetches (h : Moved c c' p p') : p.fetches <+: p'.fetches := by
  cases h with
  | idles => exact List.prefix_rfl
  | answers => exact ⟨[], by rw [answer_fetches, List.append_nil]⟩
  | appears => exact List.prefix_append _ _

theorem Moved.completions (h : Moved c c' p p') :
    ∀ x ∈ c.state.client.completions, x ∈ c'.state.client.completions := by
  intro x hx
  cases h with
  | idles _ hdone _ | appears _ hdone _ => rw [hdone]; exact hx
  | answers _ _ hdone _ => rw [hdone]; exact List.mem_cons_of_mem _ hx

theorem Tracks.step (hI : Tracks c p) (hm : Moved c c' p p') : Tracks c' p' := by
  have hmono : ∀ {f r}, Got c p f r → Got c' p' f r := fun h => h.mono hm.fetches hm.completions
  have hsame : p'.introduction = p.introduction → p'.gallery = p.gallery → p'.story = p.story →
      c'.state.client.calls = p'.fetches.map (Fetch.call p'.id) → Tracks c' p' := by
    intro hi hg hs hcalls
    refine ⟨hcalls, ?_, ?_, ?_, ?_⟩
    · rw [hi]; exact fun image h => hmono (hI.groomImage image h)
    · rw [hi]; exact fun image h => hmono (hI.brideImage image h)
    · rw [hg]
      intro h
      obtain ⟨uiImages, hgot, he⟩ := hI.photos h
      exact ⟨uiImages, hmono hgot, he⟩
    · rw [hs]; exact fun wishes h => hmono (hI.wishes wishes h)
  cases hm with
  | idles hcalls _ _ => exact hsame rfl rfl rfl (hcalls.trans hI.calls)
  | appears hcalls _ _ =>
    refine hsame rfl rfl rfl ?_
    rw [hcalls, hI.calls, List.map_append]
  | @answers k r _ hcalls hdone _ =>
    have hcalls' : c'.state.client.calls = (p.answer k r).fetches.map (Fetch.call (p.answer k r).id) := by
      rw [answer_fetches, answer_id, hcalls, hI.calls]
    rcases answer_cases r p k with he | ⟨f, hf, he⟩
    · rw [he] at hcalls' hsame ⊢
      exact hsame rfl rfl rfl hcalls'
    · rw [he] at hcalls' hsame hmono ⊢
      have hgot : Got c' (f.completion r p) f r :=
        ⟨k, by rw [completion_fetches]; exact hf, by rw [hdone]; exact List.mem_cons_self⟩
      refine ⟨hcalls', fun image h => ?_, fun image h => ?_, fun h => ?_, fun wishes h => ?_⟩
      · rcases completion_introduction f r p with hi | ⟨image', rfl, ⟨rfl, hi⟩ | ⟨rfl, hi⟩⟩
        · rw [hi] at h; exact hmono (hI.groomImage image h)
        · rw [hi] at h; cases h; exact hgot
        · rw [hi] at h; exact hmono (hI.groomImage image h)
      · rcases completion_introduction f r p with hi | ⟨image', rfl, ⟨rfl, hi⟩ | ⟨rfl, hi⟩⟩
        · rw [hi] at h; exact hmono (hI.brideImage image h)
        · rw [hi] at h; exact hmono (hI.brideImage image h)
        · rw [hi] at h; cases h; exact hgot
      · rcases completion_gallery f r p with hg | ⟨rfl, uiImages, rfl, hg⟩
        · rw [hg] at h ⊢
          obtain ⟨uiImages, hold, he⟩ := hI.photos h
          exact ⟨uiImages, hmono hold, he⟩
        · exact ⟨uiImages, hgot, by rw [hg]⟩
      · rcases completion_story f r p with hs | ⟨rfl, found, rfl, hs⟩
        · rw [hs] at h; exact hmono (hI.wishes wishes h)
        · rw [hs] at h; cases h; exact hgot

variable [UIKit UIImage] {refusal : NSError} {ms : List (Move UIImage)}

theorem screen_rule {I : Config (World UIImage) (Job UIImage) → HomePage UIImage → Prop}
    (hr : (screen UIImage refusal).run c p ms = some (c', p')) (init : I c p)
    (step : ∀ c1 c2 p1 p2, I c1 p1 → Moved c1 c2 p1 p2 → I c2 p2) : I c' p' :=
  Driver.run_rule (I := fun _ _ => I) hr init fun _ _ _ _ _ _ _ _ _ hI hl h2 =>
    step _ _ _ _ hI (moved_of_labels hl h2)

theorem Tracks.run (hI : Tracks c p) (hr : (screen UIImage refusal).run c p ms = some (c', p')) :
    Tracks c' p' ∧ p'.id = p.id := by
  refine screen_rule (I := fun c' p' => Tracks c' p' ∧ p'.id = p.id) hr ⟨hI, rfl⟩ ?_
  rintro c1 c2 p1 p2 ⟨hI, hid⟩ hm
  exact ⟨hI.step hm, hm.id_eq.trans hid⟩

omit [UIKit UIImage] in
theorem tracks_new (s : State UIImage) (id : String) :
    Tracks (.init (.start s)) (HomePage.new UIImage id) := by
  refine ⟨rfl, nofun, nofun, fun h => absurd rfl h, nofun⟩

end Run

end WeddApp.Guests
