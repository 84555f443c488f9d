import WeddApp.Save.LastSave

/-!
# Save.References

No photo field ever dangles. The path of a photo is recorded in a second request, against another
service than its upload, so the invariant also covers the merges in flight: whatever is about to be
recorded has been uploaded (`Backed`).
-/

namespace WeddApp

open Async Documents

variable {UIImage : Type}

inductive Role : Bool → String → String → Prop where
  | groom : Role false "groomUrl" Constants.groomSubfolder
  | bride : Role false "brideUrl" Constants.brideSubfolder
  | gallery (i : Nat) (hi : 1 ≤ i) : Role true ("photo" ++ toString i) Constants.gallerySubfolder

/-- An object exists at `path`, and it was uploaded there for the wedding `id` with `subfolder`. -/
structure Uploaded (s : State UIImage) (id subfolder path : String) : Prop where
  stored : (s.storage.lookup path).isSome
  event : .imageUploaded id subfolder path ∈ s.log
  under : ∃ uuid, path = "images/" ++ id ++ "/" ++ subfolder ++ "/" ++ uuid ++ ".png"

/-- Every field of a photo document holds the path of an object that was uploaded for the same
wedding, with the subfolder of that field. -/
def NoDangling (s : State UIImage) : Prop :=
  ∀ g id f v, s.firestore.field (photoDocument g id) f = some v →
    ∃ subfolder path, v = .string path ∧ Role g f subfolder ∧ Uploaded s id subfolder path

/-- What must hold of a request in flight. -/
def Backed (s : State UIImage) : Task → Prop
  | .photoPut p => Role p.isGallery p.field p.subfolder
  | .photoMerge p => Role p.isGallery p.field p.subfolder ∧ Uploaded s p.weddingID p.subfolder p.path
  | _ => True

theorem Uploaded.mono {s s' : State UIImage} {id subfolder path : String}
    (h : Uploaded s id subfolder path)
    (hst : (s.storage.lookup path).isSome → (s'.storage.lookup path).isSome)
    (hlog : s.log <:+ s'.log) : Uploaded s' id subfolder path :=
  ⟨hst h.stored, hlog.subset h.event, h.under⟩

theorem Backed.mono {s s' : State UIImage} {t : Task} (h : Backed s t)
    (hst : ∀ path, (s.storage.lookup path).isSome → (s'.storage.lookup path).isSome)
    (hlog : s.log <:+ s'.log) : Backed s' t := by
  cases t with
  | photoPut p => exact h
  | photoMerge p => exact ⟨h.1, h.2.mono (hst _) hlog⟩
  | authCreate | authSignIn | idRead | idWrite | userWrite | saveRead | saveMain | weddingWrite
  | wishWrite => trivial

theorem backed_of_first {s : State UIImage} {t : Task} (h : t.isFirst = true) : Backed s t := by
  cases t with
  | photoPut | photoMerge => cases h
  | authCreate | authSignIn | idRead | idWrite | userWrite | saveRead | saveMain | weddingWrite
  | wishWrite => trivial

variable [UIKit UIImage]

theorem role_of_photo {form : FormScreen UIImage} {id : String} {uuid : Nat → String} {p : Photo}
    (hp : p ∈ form.photos id uuid) : Role p.isGallery p.field p.subfolder := by
  rcases mem_photos_iff.mp hp with ⟨_, _, _, _, rfl⟩ | ⟨_, _, _, _, rfl⟩ | ⟨j, _, _, _, _, rfl⟩
  · exact .groom
  · exact .bride
  · exact .gallery (j + 1) (Nat.le_add_left 1 j)

theorem uploaded_of_put {p : Photo} {e : Env} {s s' : State UIImage} {ts : List Task}
    (h : serve (.photoPut p) e s = some (s', ts)) (he : e.error = none) :
    Uploaded s' p.weddingID p.subfolder p.path := by
  have hst := serve_storage h
  simp only [Task.commit, he] at hst
  obtain ⟨rfl, _⟩ := served_eq h
  refine ⟨?_, ?_, p.uuid, rfl⟩
  · rw [hst, AList.lookup_insert]; rfl
  · rw [he]; exact List.mem_cons_self

theorem backed_sent {t u : Task} {e : Env} {s s' : State UIImage} {ts : List Task}
    (ht : Backed s t) (h : serve t e s = some (s', ts)) (hu : u ∈ ts) : Backed s' u := by
  cases serve_sends h hu with
  | signUp _ hs =>
    cases u with
    | photoPut | photoMerge => exact absurd rfl hs
    | authCreate | authSignIn | idRead | idWrite | userWrite | saveRead | saveMain | weddingWrite
    | wishWrite => trivial
  | main => trivial
  | wedding => trivial
  | put hp => exact role_of_photo hp
  | merge he => exact ⟨ht, uploaded_of_put h he⟩

/-- An answer keeps the invariant: the only field it can change is the one of a backed merge. -/
theorem noDangling_serve {t : Task} {e : Env} {s s' : State UIImage} {ts : List Task}
    (hs : NoDangling s) (ht : Backed s t) (h : serve t e s = some (s', ts)) : NoDangling s' := by
  intro g id f v hv
  rw [serve_photoField h] at hv
  cases hw : photoWrites g id f t e with
  | none =>
    rw [hw, Option.none_or] at hv
    obtain ⟨subfolder, path, hpath, hrole, hup⟩ := hs g id f v hv
    exact ⟨subfolder, path, hpath, hrole, hup.mono (serve_storage_isSome h) (serve_logs h).suffix⟩
  | some w =>
    rw [hw, Option.some_or, Option.some.injEq] at hv
    subst hv
    obtain ⟨_, p, rfl, rfl, rfl, rfl, rfl⟩ := photoWrites_eq_some.mp hw
    exact ⟨p.subfolder, p.path, rfl, ht.1, ht.2.mono (serve_storage_isSome h) (serve_logs h).suffix⟩

theorem backed_of_run {s0 : State UIImage}
    (h0 : ∀ g id, s0.firestore.lookup (photoDocument g id) = none)
    {ls : List (Label (Action UIImage) Env)} {c : Config (State UIImage) Task}
    (hr : (app UIImage).run (.init s0) ls = some c) :
    NoDangling c.state ∧ ∀ x ∈ c.pending, Backed c.state x.2 := by
  refine System.pool_rule hr ⟨?_, nofun⟩ ?_ ?_
  · intro g id f v hv
    have hf : s0.firestore.field (photoDocument g id) f = none := by
      rw [Store.field, Store.fields, h0]; rfl
    rw [Config.init, hf] at hv; cases hv
  · intro a e s s' ts hs h
    have hlog := (act_logs h).suffix
    have hst : s'.storage = s.storage := congrArg Backend.storage (act_backend h)
    refine ⟨?_, fun u hu => backed_of_first (act_sends h u hu), fun u hu => ?_⟩
    · intro g id f v hv
      rw [act_firestore h] at hv
      obtain ⟨subfolder, path, hpath, hrole, hup⟩ := hs g id f v hv
      exact ⟨subfolder, path, hpath, hrole, hup.mono (by rw [hst]; exact fun h => h) hlog⟩
    · exact hu.mono (fun path => by rw [hst]; exact fun h => h) hlog
  · intro t e s s' ts hs ht h
    refine ⟨noDangling_serve hs ht h, fun u hu => backed_sent ht h hu, fun u hu => ?_⟩
    exact hu.mono (fun path => serve_storage_isSome h) (serve_logs h).suffix

/-- In every reachable state, whatever fails and however the callbacks interleave. -/
theorem no_dangling {s0 : State UIImage}
    (h0 : ∀ g id, s0.firestore.lookup (photoDocument g id) = none)
    {ls : List (Label (Action UIImage) Env)} {c : Config (State UIImage) Task}
    (hr : (app UIImage).run (.init s0) ls = some c) : NoDangling c.state :=
  (backed_of_run h0 hr).1

theorem shorterGallery_noDangling :
    ∃ c, (app Data).run (.init hostState) shorterGallery = some c ∧ NoDangling c.state := by
  have h : ((app Data).run (.init hostState) shorterGallery).isSome := by decide
  obtain ⟨c, hr⟩ := Option.isSome_iff_exists.mp h
  refine ⟨c, hr, no_dangling ?_ hr⟩
  intro g id
  show (Store.set ∅ (userDocument "A") _).lookup (photoDocument g id) = none
  have hne : photoDocument g id ≠ userDocument "A" := photoDocument_ne (by decide) (by decide)
  rw [lookup_set, if_neg hne]
  rfl

end WeddApp
