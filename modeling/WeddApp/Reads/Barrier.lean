import WeddApp.Reads.Completion
import WeddApp.Reads.Gallery

/-!
# Reads.Barrier

The `DispatchGroup` of `retrieveGallery` as a barrier: the handler is called once every download of
the gallery is over, and not before (`barrier_exact`).
-/

namespace WeddApp.Reads

open Async Documents

variable {UIImage : Type} [UIKit UIImage]

/-- Once the document of a gallery was read, either something of the gallery is in flight and the
handler has not been called, or nothing is and the handler was called once: with the outcomes of the
downloads, one for each field of the document that names a photo. -/
theorem barrier_exact {ls : List (Label Call Reply)} {c : Config (State UIImage) (Request UIImage)}
    (hr : (reads UIImage).run (.init (State.new UIImage)) ls = some c) {k : Nat} {id : String}
    {document : Document}
    (hread : Served ((reads UIImage).history (.init (State.new UIImage)) ls) k
      (.galleryDocument (.gallery k) id) (.document (.ok (some document)))) :
    (c.Live k ∧ c.state.answers k = []) ∨
    ∃ photos, ¬ c.Live k ∧ c.state.answers k = [.gallery photos] ∧
      photos.length = document.toList.countP (fun field => (photoUrl field).isSome) ∧
      ((galleryDownloads ((reads UIImage).history (.init (State.new UIImage)) ls) k).map
        Prod.fst).Perm (photoUrls document) ∧
      photos.Perm ((galleryDownloads ((reads UIImage).history (.init (State.new UIImage)) ls) k).map
        Prod.snd) := by
  have hurls : photoUrls document ∈
      galleryReads ((reads UIImage).history (.init (State.new UIImage)) ls) k :=
    List.mem_filterMap.mpr ⟨_, mem_servedOf.mpr hread, rfl⟩
  have hlive : c.Live k ↔ c.descendants k ≠ [] := Config.live_iff
  cases galleryPhase_of_run hr k with
  | before hr' _ _ _ =>
    rw [hr'] at hurls
    cases hurls
  | gathering _ _ _ hn _ ha => exact .inl ⟨hlive.mpr hn, ha⟩
  | collected _ t _ _ ht _ ha => exact .inl ⟨hlive.mpr (by simp [ht]), ha⟩
  | done urls photos hr' ht hg ha =>
    rw [hr', List.mem_singleton] at hurls
    have hpaths := hg.urls
    have hphotos := hg.photos
    simp only [List.filterMap_nil, List.nil_append, List.append_nil] at hpaths hphotos
    rw [← hurls] at hpaths
    refine .inr ⟨photos, fun h => hlive.mp h ht, ha, ?_, hpaths, hphotos⟩
    have hlen : photos.length = (photoUrls document).length := by
      rw [hphotos.length_eq, List.length_map, ← hpaths.length_eq, List.length_map]
    rw [hlen, photoUrls, List.length_filterMap_eq_countP]

def halfDocument : Document := (AList.singleton "photo1" (.string "a")).insert "photo2" (.string "b")

theorem halfGallery_barrier : ∃ c photos,
    (reads Data).run (.init (State.new Data)) halfGallery = some c ∧ ¬ c.Live 0 ∧
      c.state.answers 0 = [.gallery photos] ∧ photos.length = 2 := by
  obtain ⟨c, hr, hq⟩ : ∃ c, (reads Data).run (.init (State.new Data))
      ([.act (.retrieveGallery "0007") .main] ++ .serve 0 (.document (.ok (some halfDocument))) ::
        halfGallery.drop 2) = some c ∧ c.pending.length = 0 := ⟨_, rfl, rfl⟩
  have hdead : ¬ c.Live 0 := not_live_of_drained (List.length_eq_zero_iff.mp hq) 0
  obtain ⟨c1, h1, hm⟩ := System.mem_history hr
  cases h1
  rcases barrier_exact hr ⟨_, 0, hm, rfl⟩ with ⟨hlive, _⟩ | ⟨photos, hd, ha, hlen, _⟩
  · exact absurd hlive hdead
  · have hcount : halfDocument.toList.countP (fun field => (photoUrl field).isSome) = 2 := by decide
    exact ⟨c, photos, hr, hd, ha, hlen.trans hcount⟩

end WeddApp.Reads
