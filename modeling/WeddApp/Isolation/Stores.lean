import WeddApp.Reads.Step
import WeddApp.Save.Chain
import WeddApp.SignUp.Provision
import WeddApp.Text.Segments

/-!
# Isolation.Stores

What the app keeps true of its stores, and what the isolation of weddings rests on: the weddingIDs of
the hosts have no `/` (`validIDs_of_run`), and the images of a wedding are recorded under paths of its
own folder (`ownImages_of_run`).
-/

namespace WeddApp

open Async Documents

variable {UIImage : Type}

/-- `images/<w>/`, under which `uploadPhoto` stores the images of the wedding. -/
def imageFolder (w : String) : String := "images/" ++ w ++ "/"

/-- A path in the folder of the wedding, or the default path of `getImageOf`. -/
def isImagePath (w path : String) : Bool :=
  Text.hasPrefix (imageFolder w) path || path == Constants.defaultImageURL

def State.ValidIDs (s : State UIImage) : Prop :=
  ∀ uid id, s.HasWeddingID uid id → Text.isSegment id = true

/-- The images of the wedding are recorded under paths of its own folder, as `uploadPhoto` does. -/
def State.OwnImages (s : State UIImage) (w : String) : Prop :=
  ∀ document, s.firestore.lookup (photoDocument false w) = some document →
    ∀ person, isImagePath w (Reads.imageUrl document person) = true

/-- The ID that a request of a sign-up or of a Save carries has no `/`. -/
def Task.ValidID : Task → Prop
  | .idRead _ id | .idWrite _ id => Text.isSegment id = true
  | .userWrite _ user => Text.isSegment user.weddingID = true
  | .saveMain _ (some id) _ => Text.isSegment id = true
  | .photoPut p => Text.isSegment p.weddingID = true
  | _ => True

theorem isSegment_formatID (n : Fin 10000) : Text.isSegment (formatID n) = true := by
  simp only [Text.isSegment, formatID, Text.padLeft, String.toList_ofList, Bool.not_eq_true',
    List.contains_eq_mem, decide_eq_false_iff_not, List.mem_append, not_or]
  constructor
  · intro h
    cases (List.mem_replicate.mp h).2
  · intro h
    cases Nat.isDigit_of_mem_toDigits (by decide) (by decide) h

/-- The photos of the wedding are stored in its folder, and no others. -/
theorem isImagePath_path {p : Photo} {w : String} (hp : Text.isSegment p.weddingID = true)
    (hw : Text.isSegment w = true) : isImagePath w p.path = true ↔ p.weddingID = w := by
  have hpath : p.path = "images/" ++ p.weddingID ++ "/" ++ (p.subfolder ++ "/" ++ p.uuid ++ ".png") := by
    simp only [Photo.path, String.append_assoc]
  have hne : (p.path == Constants.defaultImageURL) = false := by
    rw [beq_eq_false_iff_ne, hpath]
    intro h
    have hl := congrArg String.toList h
    simp [Constants.defaultImageURL] at hl
  rw [isImagePath, hne, Bool.or_false, hpath, imageFolder, Text.hasPrefix_segment hw hp, eq_comm]

theorem imageUrl_merged (old : Document) (f path person : String) :
    Reads.imageUrl (AList.singleton f (.string path) ∪ old) person =
      if person ++ "Url" = f then path else Reads.imageUrl old person := by
  rw [Reads.imageUrl, lookup_union, lookup_singleton]
  by_cases hf : person ++ "Url" = f
  · rw [if_pos hf, if_pos hf]; rfl
  · rw [if_neg hf, if_neg hf]; rfl

theorem hasWeddingID_of_reply {s : State UIImage} {uid : UID} {id : String}
    {error error' : Option NSError}
    (h : s.weddingIDReply uid error = .onMain (some id, error')) : s.HasWeddingID uid id := by
  unfold State.weddingIDReply State.getDocument getWeddingIDFromUser.onDocument at h
  cases error with
  | some m => cases h
  | none =>
    simp only at h
    split at h
    · cases h
    · rename_i doc hdoc
      split at h
      · rename_i id' hid
        cases h
        obtain ⟨v, hv, hs⟩ := Option.bind_eq_some_iff.mp hid
        refine ⟨doc, Except.ok.inj hdoc, ?_⟩
        cases v with
        | string id => rw [hv, Option.some.inj hs]
        | map | other => cases hs
      · cases h
    · cases h

theorem validID_of_first {t : Task} (h : t.isFirst = true) : t.ValidID := by
  cases t with
  | authCreate | authSignIn | saveRead | wishWrite => trivial
  | idRead | idWrite | userWrite | saveMain | weddingWrite | photoPut | photoMerge => cases h

variable [UIKit UIImage] {s s' : State UIImage} {e : Env} {t : Task} {ts : List Task}

theorem saveRead_sends {d : DeviceID} {uid : UID} (h : serve (.saveRead d uid) e s = some (s', ts)) :
    match s.weddingIDReply uid e.error with
    | .onMain (id, error) => ts = [.saveMain d id error]
    | .now _ => ts = [] := by
  rw [State.weddingIDReply]
  simp only [serve] at h
  split at h
  · rename_i id error hreply
    obtain ⟨_, rfl⟩ := served_eq h
    have hnone := onDocument_now hreply
    subst hnone
    rw [hreply, onWeddingID_tasks]
    cases error <;> rfl
  · rename_i id error hreply
    obtain ⟨_, rfl⟩ := served_eq h
    rw [hreply]

/-! ## The weddingIDs -/

/-- A request passes on the ID that it carries; a sign-up draws four digits, a Save finds the ID of a
host. -/
theorem validID_sent (h : serve t e s = some (s', ts)) (hs : s.ValidIDs) (ht : t.ValidID) :
    ∀ u ∈ ts, u.ValidID := by
  intro u hu
  cases serve_signUp h with
  | account | readUsed =>
    rw [List.mem_singleton.mp hu]
    exact isSegment_formatID e.random
  | readFree | reserved =>
    rw [List.mem_singleton.mp hu]
    exact ht
  | readFailed | writeFailed | userFailed | stored => cases hu
  | other _ _ hts =>
    cases serve_sends h hu with
    | signUp _ hnew => exact absurd (hts u hu) hnew
    | @main d uid id error =>
      have hsends := saveRead_sends h
      cases hreply : s.weddingIDReply uid e.error with
      | now x =>
        rw [hreply] at hsends
        subst hsends
        cases hu
      | onMain x =>
        obtain ⟨id', error'⟩ := x
        rw [hreply] at hsends
        simp only at hsends
        rw [hsends, List.mem_singleton] at hu
        cases hu
        cases id with
        | none => trivial
        | some id => exact hs uid id (hasWeddingID_of_reply hreply)
    | wedding | merge => trivial
    | put hp =>
      rw [Task.ValidID, (photo_shape hp).1]
      exact ht

omit [UIKit UIImage] in
theorem validIDs_of_user (hu : ∀ uid, s'.user uid = s.user uid) (hs : s.ValidIDs) : s'.ValidIDs := by
  intro uid id hid
  rw [State.HasWeddingID, hu] at hid
  exact hs uid id hid

theorem validIDs_served (h : serve t e s = some (s', ts)) (hs : s.ValidIDs) (ht : t.ValidID) :
    s'.ValidIDs := by
  cases serve_signUp h with
  | account _ _ _ _ _ user | reserved _ _ _ user => exact validIDs_of_user user hs
  | readFailed _ hf | readUsed _ _ hf | readFree _ _ hf | writeFailed _ hf | userFailed _ hf
  | other _ hf => exact validIDs_of_user hf.user hs
  | @stored uid user _ _ _ _ hself hother =>
    intro uid' id hid
    obtain ⟨doc, hdoc, hlookup⟩ := hid
    by_cases huid : uid' = uid
    · subst huid
      rw [hself] at hdoc
      cases hdoc
      rw [User.toDictionary_weddingID] at hlookup
      cases hlookup
      exact ht
    · rw [hother uid' huid] at hdoc
      exact hs uid' id ⟨doc, hdoc, hlookup⟩

variable {ls : List (Label (Action UIImage) Env)} {c : Config (State UIImage) Task}

theorem validIDs_of_run (hr : (app UIImage).run (.init s) ls = some c) (hs : s.ValidIDs) :
    c.state.ValidIDs := by
  refine (System.pool_rule (I := State.ValidIDs) (J := fun _ t => t.ValidID) hr
    ⟨hs, fun x hx => by cases hx⟩ ?_ ?_).1
  · intro a e s1 s2 ts hI ha
    exact ⟨validIDs_of_user (act_signUp ha).1.user hI,
      fun u hu => validID_of_first (act_sends ha u hu), fun _ hu => hu⟩
  · intro t e s1 s2 ts hI hJ hserve
    exact ⟨validIDs_served hserve hI hJ, validID_sent hserve hI hJ, fun _ hu => hu⟩

theorem validIDs_at (hr : (app UIImage).run (.init s) ls = some c) (hs : s.ValidIDs)
    {x : Config (State UIImage) Task × Label (Action UIImage) Env}
    (hx : x ∈ (app UIImage).history (.init s) ls) : x.1.state.ValidIDs := by
  obtain ⟨ls1, ls2, c2, rfl, h1, _, _⟩ := System.history_split hr hx
  exact validIDs_of_run h1 hs

/-! ## The images -/

variable {w : String}

theorem ownImages_served (h : serve t e s = some (s', ts)) (hw : Text.isSegment w = true)
    (hs : s.OwnImages w) : s'.OwnImages w := by
  intro doc hdoc person
  by_cases hkeep : t.target ≠ some (photoDocument false w) ∨ e.error ≠ none
  · rw [serve_lookup_ne h hkeep] at hdoc
    exact hs doc hdoc person
  · simp only [ne_eq, not_or, not_not] at hkeep
    obtain ⟨htarget, he⟩ := hkeep
    obtain ⟨p, rfl, hg, hp⟩ := photoMerge_of_target htarget
    rw [serve_firestore h, Task.commit, he, Photo.reference_eq, hg, hp] at hdoc
    rw [lookup_merge, if_pos rfl] at hdoc
    cases hdoc
    rw [imageUrl_merged]
    by_cases hf : person ++ "Url" = p.field
    · rw [if_pos hf]
      exact (isImagePath_path (by rw [hp]; exact hw) hw).mpr hp
    · rw [if_neg hf]
      show isImagePath w (Reads.imageUrl (s.firestore.fields (photoDocument false w)) person) = true
      cases hold : s.firestore.lookup (photoDocument false w) with
      | none =>
        rw [Store.fields, hold]
        simp [Reads.imageUrl, isImagePath]
      | some old =>
        rw [fields_of_lookup hold]
        exact hs old hold person

theorem ownImages_of_run (hr : (app UIImage).run (.init s) ls = some c)
    (hw : Text.isSegment w = true) (hs : s.OwnImages w) : c.state.OwnImages w := by
  refine System.invariant (I := fun c => c.state.OwnImages w) hr hs ?_
  intro c1 l c2 _ hown hstep
  cases hstep with
  | act ha =>
    intro doc hdoc
    rw [Config.acted_state, act_firestore ha] at hdoc
    exact hown doc hdoc
  | serve _ hserve => exact ownImages_served hserve hw hown

end WeddApp
