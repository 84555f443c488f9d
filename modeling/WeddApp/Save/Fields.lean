import WeddApp.App.Successors
import WeddApp.Async.Register
import WeddApp.Reads.Step
import WeddApp.Save.Chain

/-!
# Save.Fields

The parts of the store that Saves write, as registers: the document `Weddings/<id>` as a whole, and
each field of `Images/<id>` and `Gallery/<id>` on its own (a merge names one field and keeps the
others).

* `photoField`, `weddingRegister`: the registers; `wrote_photoField` and `wrote_wedding` say who
  writes them.
* `put_before_merge`: a path is recorded only after the upload under it has succeeded.
* `photoUrls_perm`: what `getGalleryUrls` lists after some photos were recorded.
-/

namespace WeddApp

open Async Documents

variable {UIImage : Type} [UIKit UIImage]

def photoWrites (g : Bool) (id f : String) (t : Task) (e : Env) : Option Value :=
  match e.error, t with
  | none, .photoMerge p =>
    if p.isGallery = g ∧ p.weddingID = id ∧ p.field = f then some (.string p.path) else none
  | _, _ => none

def weddingWrites (id : String) (t : Task) (e : Env) : Option Document :=
  match e.error, t with
  | none, .weddingWrite id' data => if id' = id then some data else none
  | _, _ => none

theorem serve_photoField {t : Task} {e : Env} {s s' : State UIImage} {ts : List Task}
    (h : serve t e s = some (s', ts)) (g : Bool) (id f : String) :
    s'.firestore.field (photoDocument g id) f =
      (photoWrites g id f t e).or (s.firestore.field (photoDocument g id) f) := by
  rw [serve_firestore h]
  unfold photoWrites
  split
  · rename_i p he
    simp only [Task.commit, he, State.backend, field_merge, Photo.reference_eq, photoDocument_inj]
    by_cases hw : p.isGallery = g ∧ p.weddingID = id ∧ p.field = f
    · obtain ⟨rfl, rfl, rfl⟩ := hw
      simp
    · rw [if_neg hw, if_neg]
      · rfl
      · rintro ⟨⟨rfl, rfl⟩, rfl⟩; exact hw ⟨rfl, rfl, rfl⟩
  · rename_i t _ _ hno
    rw [Option.none_or]
    by_cases he : e.error = none
    · have ht : t.target ≠ some (photoDocument g id) := by
        intro htarget
        obtain ⟨p, hp, _⟩ := photoMerge_of_target htarget
        exact hno p he hp
      rw [Store.field, Store.field, Store.fields, Store.fields, commit_lookup_ne e s.backend ht]
      rfl
    · rw [commit_failed _ he]; rfl

theorem serve_wedding {t : Task} {e : Env} {s s' : State UIImage} {ts : List Task}
    (h : serve t e s = some (s', ts)) (id : String) :
    s'.firestore.lookup (weddingDocument id) =
      (weddingWrites id t e).or (s.firestore.lookup (weddingDocument id)) := by
  rw [serve_firestore h]
  unfold weddingWrites
  split
  · rename_i id' data he
    simp only [Task.commit, he, State.backend, lookup_set, weddingDocument, document_inj]
    by_cases hid : id' = id
    · simp [hid]
    · rw [if_neg hid, if_neg (Ne.symm hid)]; rfl
  · rename_i t _ _ hno
    rw [Option.none_or]
    by_cases he : e.error = none
    · have ht : t.target ≠ some (weddingDocument id) := by
        intro htarget
        obtain ⟨data, hdata⟩ := weddingWrite_of_target htarget
        exact hno id data he hdata
      rw [commit_lookup_ne e s.backend ht]
      rfl
    · rw [commit_failed _ he]; rfl

def photoField (g : Bool) (id f : String) : Register (app UIImage) Value where
  val s := s.firestore.field (photoDocument g id) f
  writes := photoWrites g id f
  act h := by rw [act_firestore h]
  serve h := serve_photoField h g id f

def weddingRegister (id : String) : Register (app UIImage) Document where
  val s := s.firestore.lookup (weddingDocument id)
  writes := weddingWrites id
  act h := by rw [act_firestore h]
  serve h := serve_wedding h id

def Merged (h : List (Config (State UIImage) Task × Label (Action UIImage) Env)) (k : Nat)
    (p : Photo) : Prop :=
  ∃ e, Served h k (.photoMerge p) e ∧ e.error = none

omit [UIKit UIImage] in
theorem photoWrites_eq_some {g : Bool} {id f : String} {t : Task} {e : Env} {v : Value} :
    photoWrites g id f t e = some v ↔ e.error = none ∧ ∃ p, t = .photoMerge p ∧ p.isGallery = g ∧
      p.weddingID = id ∧ p.field = f ∧ v = .string p.path := by
  unfold photoWrites
  split
  · rename_i p he
    simp only [Option.ite_none_right_eq_some, Option.some.injEq, Task.photoMerge.injEq]
    constructor
    · rintro ⟨⟨h1, h2, h3⟩, rfl⟩; exact ⟨he, p, rfl, h1, h2, h3, rfl⟩
    · rintro ⟨_, q, rfl, h1, h2, h3, rfl⟩; exact ⟨⟨h1, h2, h3⟩, rfl⟩
  · rename_i hno
    constructor
    · intro h; cases h
    · rintro ⟨he, p, ht, _⟩; exact absurd ht (hno p he)

omit [UIKit UIImage] in
theorem weddingWrites_eq_some {id : String} {t : Task} {e : Env} {v : Document} :
    weddingWrites id t e = some v ↔ e.error = none ∧ t = .weddingWrite id v := by
  unfold weddingWrites
  split
  · rename_i id' data he
    simp only [Option.ite_none_right_eq_some, Option.some.injEq, Task.weddingWrite.injEq]
    exact ⟨fun h => ⟨he, h⟩, fun h => h.2⟩
  · rename_i hno
    constructor
    · intro h; cases h
    · rintro ⟨he, ht⟩; exact absurd ht (hno id v he)

theorem wrote_photoField {g : Bool} {id f : String} {k : Nat} {v : Value}
    {h : List (Config (State UIImage) Task × Label (Action UIImage) Env)} :
    (photoField g id f).Wrote h k v ↔ ∃ p, Merged h k p ∧ p.isGallery = g ∧ p.weddingID = id ∧
      p.field = f ∧ v = .string p.path := by
  constructor
  · rintro ⟨t, e, hs, hw⟩
    obtain ⟨he, p, rfl, hp⟩ := photoWrites_eq_some.mp hw
    exact ⟨p, ⟨e, hs, he⟩, hp⟩
  · rintro ⟨p, ⟨e, hs, he⟩, hp⟩
    exact ⟨_, e, hs, photoWrites_eq_some.mpr ⟨he, p, rfl, hp⟩⟩

/-- A path is recorded only after an upload under it. -/
theorem put_before_merge {c0 c : Config (State UIImage) Task} {ls : List (Label (Action UIImage) Env)}
    (hr : (app UIImage).run c0 ls = some c) (h0 : ∀ k p, (k, .photoMerge p) ∉ c0.pending) {k : Nat}
    {p : Photo} {e : Env} (hs : Served ((app UIImage).history c0 ls) k (.photoMerge p) e) :
    ∃ e', Served ((app UIImage).history c0 ls) k (.photoPut p) e' ∧ e'.error = none := by
  have key : ∀ ls c, (app UIImage).run c0 ls = some c → ∀ k p, (k, Task.photoMerge p) ∈ c.pending →
      ∃ e', Served ((app UIImage).history c0 ls) k (.photoPut p) e' ∧ e'.error = none := by
    intro ls c hr
    refine System.run_rule (I := fun h c => ∀ k p, (k, Task.photoMerge p) ∈ c.pending →
      ∃ e', Served h k (.photoPut p) e' ∧ e'.error = none) hr ?_ ?_
    · intro k p hp; exact absurd hp (h0 k p)
    · intro h c1 l c2 _ hI hstep k p hp
      have hold : (k, Task.photoMerge p) ∈ c1.pending →
          ∃ e', Served (h ++ [(c1, l)]) k (.photoPut p) e' ∧ e'.error = none := by
        intro hp
        obtain ⟨e', hs, he⟩ := hI k p hp
        exact ⟨e', served_append.mpr (.inl hs), he⟩
      cases hstep with
      | act ha =>
        rcases Config.mem_acted.mp hp with hp | ⟨_, hp⟩
        · exact hold hp
        · cases act_sends ha _ hp
      | @serve i k' t e s ts hi ha =>
        rcases Config.mem_served hp with hp | ⟨hk, hu⟩
        · exact hold hp
        · simp only at hk; subst hk
          cases serve_sends ha hu with
          | signUp _ hu => exact absurd rfl hu
          | merge he => exact ⟨e, served_append.mpr (.inr ((served_serve hi).mpr ⟨rfl, rfl, rfl⟩)), he⟩
  obtain ⟨c1, i, hm, hi⟩ := hs
  obtain ⟨ls1, ls2, c2, rfl, h1, h2, h3⟩ := System.history_split hr hm
  obtain ⟨e', hs', he'⟩ := key ls1 c1 h1 k p (mem_of_getElem? hi)
  refine ⟨e', hs'.mono fun x hx => ?_, he'⟩
  rw [System.history_append h1]
  exact List.mem_append_left _ hx

/-! ## What the gallery lists -/

/-- The gallery of the fields that none of `ps` is recorded in. -/
def keptUrls (ps : List Photo) (document : Document) : List String :=
  (document.toList.filter fun x => !ps.any fun p => p.field == x.1).filterMap Reads.photoUrl

theorem photoUrl_recorded {p : Photo} (hp : p.isGallery = true) :
    Reads.photoUrl (p.field, .string p.path) = some p.path := by
  have hf : p.field = "photo" ++ toString p.photoIndex := by rw [Photo.field, hp]; rfl
  rw [Reads.photoUrl, if_pos (by rw [hf]; exact Text.hasPrefix_append _ _)]
  rfl

/-- The gallery after the photos `ps` were recorded: their paths, once each, and what was there in
other fields. -/
theorem photoUrls_perm {ps : List Photo} (old new : Document) (hn : ps.Nodup)
    (hg : ∀ p ∈ ps, p.isGallery = true) (hinj : ∀ p ∈ ps, ∀ q ∈ ps, p.field = q.field → p = q)
    (hw : ∀ p ∈ ps, new.lookup p.field = some (.string p.path))
    (hk : ∀ f, (∀ p ∈ ps, p.field ≠ f) → new.lookup f = old.lookup f) :
    (Reads.photoUrls new).Perm (ps.map Photo.path ++ keptUrls ps old) := by
  have hfilter : ∀ x, x ∈ old.toList.filter (fun x => !ps.any fun p => p.field == x.1) ↔
      x ∈ old.toList ∧ ∀ p ∈ ps, p.field ≠ x.1 := by
    intro x
    simp only [List.mem_filter, Bool.not_eq_true', List.any_eq_false, beq_iff_eq]
  have hperm : new.toList.Perm (ps.map (fun p => (p.field, Value.string p.path)) ++
      old.toList.filter fun x => !ps.any fun p => p.field == x.1) := by
    refine toList_perm ?_ ?_
    · rw [List.nodup_append]
      refine ⟨?_, (toList_nodup old).filter _, ?_⟩
      · refine hn.map_on fun p hp q hq he => ?_
        exact hinj p hp q hq (congrArg Prod.fst he)
      · rintro x hx y hy rfl
        obtain ⟨p, hp, rfl⟩ := List.mem_map.mp hx
        exact ((hfilter _).mp hy).2 p hp rfl
    · intro f v
      rw [List.mem_append, hfilter, mem_toList]
      by_cases hf : ∃ p ∈ ps, p.field = f
      · obtain ⟨p, hp, rfl⟩ := hf
        rw [hw p hp]
        constructor
        · intro h
          cases h
          exact .inl (List.mem_map.mpr ⟨p, hp, rfl⟩)
        · rintro (h | ⟨_, h⟩)
          · obtain ⟨q, hq, he⟩ := List.mem_map.mp h
            simp only [Prod.mk.injEq] at he
            obtain ⟨he, rfl⟩ := he
            rw [hinj q hq p hp he]
          · exact absurd rfl (h p hp)
      · have hno : ∀ p ∈ ps, p.field ≠ f := fun p hp he => hf ⟨p, hp, he⟩
        rw [hk f hno]
        constructor
        · intro h; exact .inr ⟨h, hno⟩
        · rintro (h | ⟨h, _⟩)
          · obtain ⟨q, hq, he⟩ := List.mem_map.mp h
            exact absurd (congrArg Prod.fst he) (hno q hq)
          · exact h
  refine (hperm.filterMap _).trans ?_
  rw [List.filterMap_append, List.filterMap_map]
  have hpaths : ps.filterMap (Reads.photoUrl ∘ fun p => (p.field, Value.string p.path)) =
      ps.map Photo.path := by
    rw [← List.filterMap_eq_map]
    refine List.filterMap_congr fun p hp => ?_
    exact photoUrl_recorded (hg p hp)
  rw [hpaths]
  exact List.Perm.refl _

theorem gallery_perm {form : FormScreen UIImage} {id : String} {uuid : Nat → String}
    {ps : List Photo} (hps : ps.Sublist (form.galleryPhotos id uuid)) (old new : Document)
    (hw : ∀ p ∈ ps, new.lookup p.field = some (.string p.path))
    (hk : ∀ f, (∀ p ∈ ps, p.field ≠ f) → new.lookup f = old.lookup f) :
    (Reads.photoUrls new).Perm (ps.map Photo.path ++ keptUrls ps old) := by
  have hgal : ∀ p ∈ ps, p.isGallery = true ∧ p ∈ form.photos id uuid := by
    intro p hp
    refine ⟨?_, mem_photos_of_gallery (hps.subset hp)⟩
    obtain ⟨_, _, _, _, _, rfl⟩ := mem_galleryPhotos.mp (hps.subset hp)
    rfl
  refine photoUrls_perm old new ((galleryPhotos_nodup form id uuid).sublist hps)
    (fun p hp => (hgal p hp).1) ?_ hw hk
  intro p hp q hq hf
  obtain ⟨hpg, hp⟩ := hgal p hp
  obtain ⟨hqg, hq⟩ := hgal q hq
  refine photo_unique hp hq ?_ hf
  rw [Photo.reference_eq, Photo.reference_eq, hpg, hqg, (photo_shape hp).1, (photo_shape hq).1]

end WeddApp
