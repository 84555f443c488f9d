import WeddApp.Async.Cache
import WeddApp.Guests.Home

/-!
# Guests.Online

Reads that the server answers. The client of a device also answers reads itself: without a connection
from what it has read before, and otherwise with its own writes added, also those that the server
rejects later. Here what it answers is not restricted, and what holds of the server's answers only
says so (`Online`).

* `cached`: hosts and guests, where a read may be answered by the client itself.
* `gallery_snapshot`, `person_snapshot`: a guest sees what one state of the stores holds.
* `wishes_grow`, `wishes_complete`, `wishes_kept`: no wish is missing that was there before.
-/

namespace WeddApp.Guests

open Async Documents

variable {UIImage : Type}

abbrev CachedStep (UIImage : Type) := Label (Action UIImage ⊕ Reads.Call) (Env × Option Reads.Reply)

abbrev cached (UIImage : Type) [UIKit UIImage] (refusal : NSError) :
    System (World UIImage) (Job UIImage) (Action UIImage ⊕ Reads.Call) (Env × Option Reads.Reply) :=
  (live UIImage refusal).cached Network.hit

abbrev cachedScreen (UIImage : Type) [UIKit UIImage] [Inhabited UIImage] (refusal : NSError) :
    Driver (cached UIImage refusal) (HomePage UIImage) (Move UIImage × Option Reads.Reply) :=
  (screen UIImage refusal).cached Network.hit

section Online

variable [UIKit UIImage] {refusal : NSError} {s0 : State UIImage}

/-- The server answered every read. -/
def Online (refusal : NSError) (s0 : State UIImage) (ls : List (CachedStep UIImage)) : Prop :=
  FromServer Network.hit ((cached UIImage refusal).history (.init (.start s0)) ls)

/-- What happened, when every read was answered by the server. -/
abbrev online (refusal : NSError) (s0 : State UIImage) (ls : List (CachedStep UIImage)) :
    History UIImage :=
  (live UIImage refusal).history (.init (.start s0)) (ls.map Label.uncached)

theorem online_cached (ls : List (Step UIImage)) :
    Online refusal s0 (ls.map (Label.cached none)) :=
  fromServer_cached ls

section Pictures

variable {ls : List (CachedStep UIImage)} {c : Config (World UIImage) (Job UIImage)} {k : Nat}

/-- A gallery that was shown is the gallery at the time at which its document was read, up to the
downloads that failed. -/
theorem gallery_snapshot (h0 : ∀ g id, s0.firestore.lookup (photoDocument g id) = none)
    (hr : (cached UIImage refusal).run (.init (.start s0)) ls = some c)
    (honline : Online refusal s0 ls) (hown : OwnPaths s0 (online refusal s0 ls))
    {photos : List (Option UIImage)} (hdone : (k, .gallery photos) ∈ c.state.client.completions) :
    ∃ w c1, c.state.client.calls[k]? = some (.retrieveGallery w) ∧
      GallerySnapshot (online refusal s0 ls) c1 k w photos :=
  gallery_of_completion h0 (System.run_of_fromServer hr honline) hown hdone

/-- The image of a person that was shown is the one at the time at which the document was read. -/
theorem person_snapshot (h0 : ∀ g id, s0.firestore.lookup (photoDocument g id) = none)
    (hr : (cached UIImage refusal).run (.init (.start s0)) ls = some c)
    (honline : Online refusal s0 ls) (hown : OwnPaths s0 (online refusal s0 ls)) {image : UIImage}
    (hdone : (k, .person (some image) none) ∈ c.state.client.completions) :
    ∃ w person c1, c.state.client.calls[k]? = some (.getImageOf w person) ∧
      PersonSnapshot (online refusal s0 ls) c1 k w person image :=
  person_of_completion h0 (System.run_of_fromServer hr honline) hown hdone

end Pictures

section Wishes

variable {ls1 ls2 : List (CachedStep UIImage)} {c1 c : Config (World UIImage) (Job UIImage)}

/-- A later read of the same wedding gives all that an earlier one gave. -/
theorem wishes_grow (h1 : (cached UIImage refusal).run (.init (.start s0)) ls1 = some c1)
    (h2 : (cached UIImage refusal).run c1 ls2 = some c) (honline : Online refusal s0 (ls1 ++ ls2))
    (hown : OwnGuestIDs s0 (online refusal s0 (ls1 ++ ls2)))
    {j k : Nat} {earlier later : List Wish}
    (hdone : (j, .wishes earlier none) ∈ c1.state.client.completions)
    (hdone' : (k, .wishes later none) ∈ c.state.client.completions)
    (hsame : c.state.client.calls[j]? = c.state.client.calls[k]?)
    (hlater : c1.state.client.calls.length ≤ k) : earlier.Subperm later := by
  obtain ⟨h1, h2⟩ := System.runs_of_fromServer h1 h2 honline
  rw [online, List.map_append] at hown
  exact wishes_of_later h1 h2 hown hdone hdone' hsame hlater

end Wishes

section Story

variable [Inhabited UIImage] {w : String} {ms ms' : List (Move UIImage × Option Reads.Reply)}
  {c c' : Config (World UIImage) (Job UIImage)} {p p' : HomePage UIImage}

abbrev cachedSteps (refusal : NSError) (s0 : State UIImage) (w : String)
    (ms : List (Move UIImage × Option Reads.Reply)) : List (CachedStep UIImage) :=
  (cachedScreen UIImage refusal).trace (.init (.start s0)) (.new UIImage w) ms

/-- The wishes that are shown when no wishes are being read stay, whatever is read later. -/
theorem wishes_kept
    (hr : (cachedScreen UIImage refusal).run (.init (.start s0)) (.new UIImage w) ms = some (c, p))
    (hr' : (cachedScreen UIImage refusal).run c p ms' = some (c', p'))
    (honline : Online refusal s0 (cachedSteps refusal s0 w (ms ++ ms')))
    (hguests : OwnGuestIDs s0 (online refusal s0 (cachedSteps refusal s0 w (ms ++ ms'))))
    (hidle : ∀ k, ¬ WaitsAt c p .wishes k) {wishes : List Wish}
    (hshown : p.story.wishes = some wishes) :
    ∃ wishes', p'.story.wishes = some wishes' ∧ wishes.Subperm wishes' := by
  rw [Online, cachedSteps, Driver.trace_append hr, System.history_append (Driver.run_system hr)]
    at honline
  obtain ⟨h, ht⟩ := Driver.run_of_fromServer hr fun k t e hs =>
    honline k t e (served_append.mpr (.inl hs))
  obtain ⟨h', ht'⟩ := Driver.run_of_fromServer hr' fun k t e hs =>
    honline k t e (served_append.mpr (.inr hs))
  rw [online, cachedSteps, Driver.trace_append hr, List.map_append, ← ht, ← ht'] at hguests
  exact wishes_stay h h' hguests hidle hshown

end Story
end Online

/-! ## What the server answers -/

theorem online_map_cached [UIKit UIImage] (refusal : NSError) (s0 : State UIImage)
    (ls : List (Step UIImage)) : online refusal s0 (ls.map (Label.cached none)) =
      (live UIImage refusal).history (.init (.start s0)) ls := by
  rw [online, Label.map_uncached_cached]

/-- The guest sees the gallery of the first Save, of which one photo is no longer listed. -/
theorem savedMeanwhile_gallery : ∃ c w c1,
    (cached Data "").run (.init (.start hostState)) (savedMeanwhile.map (Label.cached none)) = some c ∧
    GallerySnapshot (online "" hostState (savedMeanwhile.map (Label.cached none))) c1 0 w
      [some [2], some [1]] ∧
    galleryUrls c.state.server "0007" =
      ["images/0007/gallery/b2.png", "images/0007/gallery/a3.png"] := by
  obtain ⟨c, hr, hdone, hurls⟩ : ∃ c,
      (live Data "").run (.init (.start hostState)) savedMeanwhile = some c ∧
      c.state.client.completions.head? = some (0, .gallery [some [2], some [1]]) ∧
      galleryUrls c.state.server "0007" =
        ["images/0007/gallery/b2.png", "images/0007/gallery/a3.png"] := ⟨_, rfl, rfl, rfl⟩
  have hr := System.cached_run Network.hit hr
  have hown := savedMeanwhile_ownPaths
  rw [← online_map_cached] at hown
  obtain ⟨w, c1, _, hs⟩ := gallery_snapshot hostState_photos hr (online_cached _) hown
    (List.mem_of_mem_head? hdone)
  exact ⟨c, w, c1, hr, hs, hurls⟩

theorem savedMeanwhile_person : ∃ c w person c1,
    (cached Data "").run (.init (.start hostState)) (savedMeanwhile.map (Label.cached none)) = some c ∧
    PersonSnapshot (online "" hostState (savedMeanwhile.map (Label.cached none))) c1 1 w person [7] := by
  obtain ⟨c, hr, hdone⟩ : ∃ c,
      (live Data "").run (.init (.start hostState)) savedMeanwhile = some c ∧
      c.state.client.completions[1]? = some (1, .person (some [7]) none) := ⟨_, rfl, rfl⟩
  have hr := System.cached_run Network.hit hr
  have hown := savedMeanwhile_ownPaths
  rw [← online_map_cached] at hown
  obtain ⟨w, person, c1, _, hs⟩ := person_snapshot hostState_photos hr (online_cached _) hown
    (List.mem_of_getElem? hdone)
  exact ⟨c, w, person, c1, hr, hs⟩

def adaWishes : List (Step Data) :=
  [.act (.inl (.tapSubmit 0 "0007" "Ada" "Joy" ⟨1, 1, 2023⟩)) { Env.ok with newID := "g" },
    .serve 0 .ok, .act (.inr (.getWishes "0007")) .ok, .serve 0 .ok, .serve 0 .ok]

/-- Bob's is on its way while the wishes are read again. -/
def bobWishes : List (Step Data) :=
  [.act (.inl (.tapSubmit 1 "0007" "Bob" "Luck" ⟨2, 1, 2023⟩)) { Env.ok with newID := "h" },
    .act (.inr (.getWishes "0007")) .ok, .serve 0 .ok, .serve 0 .ok, .serve 0 .ok]

theorem adaBob_online : Online "" (State.new Data)
    (adaWishes.map (Label.cached none) ++ bobWishes.map (Label.cached none)) := by
  rw [← List.map_append]
  exact online_cached _

theorem adaBob_ownGuestIDs : OwnGuestIDs (State.new Data) (online "" (State.new Data)
    (adaWishes.map (Label.cached none) ++ bobWishes.map (Label.cached none))) where
  unused := by
    intro x _
    rfl
  nodup := by
    rw [← List.map_append, online_map_cached]
    decide +kernel

theorem bobWishes_grow : ∃ c1 c earlier later,
    (cached Data "").run (.init (.start (State.new Data))) (adaWishes.map (Label.cached none)) =
      some c1 ∧
    (cached Data "").run c1 (bobWishes.map (Label.cached none)) = some c ∧
    (0, .wishes earlier none) ∈ c1.state.client.completions ∧
    (1, .wishes later none) ∈ c.state.client.completions ∧ earlier.Subperm later := by
  obtain ⟨c1, c, earlier, later, h1, h2, hd, hd', hcalls, hsame, htwo⟩ : ∃ c1 c earlier later,
      (live Data "").run (.init (.start (State.new Data))) adaWishes = some c1 ∧
      (live Data "").run c1 bobWishes = some c ∧
      c1.state.client.completions[0]? = some (0, .wishes earlier none) ∧
      c.state.client.completions[0]? = some (1, .wishes later none) ∧
      c1.state.client.calls.length = 1 ∧
      c.state.client.calls[0]? = some (.getWishes "0007") ∧
      c.state.client.calls[1]? = some (.getWishes "0007") :=
    ⟨_, _, _, _, rfl, rfl, rfl, rfl, rfl, rfl, rfl⟩
  have h1 := System.cached_run Network.hit h1
  have h2 := System.cached_run Network.hit h2
  have hdone := List.mem_of_getElem? hd
  have hdone' := List.mem_of_getElem? hd'
  exact ⟨c1, c, earlier, later, h1, h2, hdone, hdone', wishes_grow h1 h2 adaBob_online
    adaBob_ownGuestIDs hdone hdone' (hsame.trans htwo.symm) (Nat.le_of_eq hcalls)⟩

def uncachedPages (ms : List (Move Data)) : List (Move Data × Option Reads.Reply) :=
  ms.map fun m => (m, none)

/-- Ada's wish stays. -/
theorem laterPages_kept : ∃ c p c' p' wishes wishes',
    (cachedScreen Data "").run (.init (.start hostState)) (.new Data "0007")
      (uncachedPages shownPages) = some (c, p) ∧
    (cachedScreen Data "").run c p (uncachedPages laterPages) = some (c', p') ∧
    p.story.wishes = some wishes ∧ p'.story.wishes = some wishes' ∧ wishes.Subperm wishes' := by
  obtain ⟨c, p, c', p', wishes, hr, hr', hq, hs⟩ : ∃ c p c' p' wishes,
      (screen Data "").run (.init (.start hostState)) (.new Data "0007") shownPages = some (c, p) ∧
      (screen Data "").run c p laterPages = some (c', p') ∧ c.pending = [] ∧
      p.story.wishes = some wishes := ⟨_, _, _, _, _, rfl, rfl, rfl, rfl⟩
  obtain ⟨h, ht⟩ := Driver.cached_run Network.hit hr
  obtain ⟨h', ht'⟩ := Driver.cached_run Network.hit hr'
  have hsteps : cachedSteps "" hostState "0007" (uncachedPages shownPages ++ uncachedPages laterPages) =
      (steps "" hostState "0007" (shownPages ++ laterPages)).map (Label.cached none) := by
    rw [cachedSteps, uncachedPages, Driver.trace_append h, ht, uncachedPages, ht', ← List.map_append,
      steps, Driver.trace_append hr]
  have honline : Online "" hostState
      (cachedSteps "" hostState "0007" (uncachedPages shownPages ++ uncachedPages laterPages)) := by
    rw [hsteps]
    exact online_cached _
  have hguests : OwnGuestIDs hostState (online "" hostState
      (cachedSteps "" hostState "0007" (uncachedPages shownPages ++ uncachedPages laterPages))) := by
    rw [hsteps, online_map_cached]
    exact ⟨fun x _ => hostState_wishes x.1 x.2.1, by decide +kernel⟩
  obtain ⟨wishes', hs', hsub⟩ := wishes_kept h h' honline hguests
    (fun k hk => not_asking_of_drained hq k hk.2) hs
  exact ⟨c, p, c', p', wishes, wishes', h, h', hs, hs', hsub⟩

end WeddApp.Guests
