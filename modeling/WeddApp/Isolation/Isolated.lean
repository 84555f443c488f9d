import WeddApp.Guests.Answers
import WeddApp.Isolation.Seen
import WeddApp.Save.LastSave
import WeddApp.Weddings.Step

/-!
# Isolation.Isolated

Weddings are isolated from one another. Two runs in which the same is done for the wedding `w`, in the
same order and with the same outcomes, give its guests the same results, whatever the hosts and guests
of other weddings do in them (`isolated`).

That no two hosts have the same weddingID is not needed: with a shared ID both are hosts of the
wedding, and the Saves of both count as its operations.
-/

namespace WeddApp

open Async Documents

variable {UIImage : Type}

/-- The guests of the wedding read the same, and the same devices may submit a wish. -/
structure SameForGuests [UIKit UIImage] (w : String) (s s' : State UIImage) : Prop where
  getWedding : ∀ models m e, (models m).id = w →
    Weddings.results s models m e = Weddings.results s' models m e
  isWeddingExist : ∀ refusal e, Guests.results refusal (.isWeddingExist w) [(s, e)] =
    Guests.results refusal (.isWeddingExist w) [(s', e)]
  getGalleryUrls : ∀ refusal e, Guests.results refusal (.getGalleryUrls w) [(s, e)] =
    Guests.results refusal (.getGalleryUrls w) [(s', e)]
  getWishes : ∀ refusal e, Guests.results refusal (.getWishes w) [(s, e)] =
    Guests.results refusal (.getWishes w) [(s', e)]
  maySubmit : ∀ d, s.guestID d w = none ↔ s'.guestID d w = none

section Reading

variable {w : String} {s s' : State UIImage}

/-- Lists with the same elements are the same once they are sorted by a key that tells the elements
apart. -/
theorem mergeSort_unique {α : Type} {l l' : List α} (hp : l.Perm l') (key : α → String)
    (hkey : ∀ a ∈ l, ∀ b ∈ l, key a = key b → a = b) :
    l.mergeSort (fun a b => decide (key a ≤ key b)) =
      l'.mergeSort (fun a b => decide (key a ≤ key b)) := by
  have htrans : ∀ a b c : α, decide (key a ≤ key b) = true → decide (key b ≤ key c) = true →
      decide (key a ≤ key c) = true := by
    intro a b c hab hbc
    exact decide_eq_true (String.le_trans (of_decide_eq_true hab) (of_decide_eq_true hbc))
  have htotal : ∀ a b : α, (decide (key a ≤ key b) || decide (key b ≤ key a)) = true := by
    intro a b
    rw [Bool.or_eq_true, decide_eq_true_eq, decide_eq_true_eq]
    exact String.le_total _ _
  have hperm : (l.mergeSort fun a b => decide (key a ≤ key b)).Perm
      (l'.mergeSort fun a b => decide (key a ≤ key b)) :=
    (List.mergeSort_perm l _).trans (hp.trans (List.mergeSort_perm l' _).symm)
  refine hperm.eq_of_pairwise ?_ (List.pairwise_mergeSort htrans htotal l)
    (List.pairwise_mergeSort htrans htotal l')
  intro a b ha hb hab hba
  rw [List.mem_mergeSort] at ha hb
  exact hkey a ha b (hp.mem_iff.mpr hb)
    (String.le_antisymm (of_decide_eq_true hab) (of_decide_eq_true hba))

theorem getDocuments_same (hguests : ∀ g, s.wishDocument w g = s'.wishDocument w g)
    (error : Option NSError) : s.getDocuments w error = s'.getDocuments w error := by
  have hperm : (s.guestSnapshots w).Perm (s'.guestSnapshots w) := by
    refine (List.perm_ext_iff_of_nodup (guestSnapshots_nodup s w) (guestSnapshots_nodup s' w)).mpr ?_
    intro x
    obtain ⟨r, doc⟩ := x
    simp only [mem_guestSnapshots, hguests]
  have hkey : ∀ a ∈ s.guestSnapshots w, ∀ b ∈ s.guestSnapshots w,
      a.1.getLastD "" = b.1.getLastD "" → a = b := by
    intro a ha b hb hlast
    obtain ⟨r, doc⟩ := a
    obtain ⟨r', doc'⟩ := b
    obtain ⟨g, hr, hg⟩ := mem_guestSnapshots.mp ha
    obtain ⟨g', hr', hg'⟩ := mem_guestSnapshots.mp hb
    have hgg : g = g' := by
      rw [hr, hr'] at hlast
      simpa [guestDocument, subdocument] using hlast
    subst hgg
    rw [hg] at hg'
    rw [hr, hr', Option.some.inj hg']
  simp only [State.getDocuments, mergeSort_unique hperm (fun x => x.1.getLastD "") hkey]

theorem getDocument_same {r : DocumentReference} (h : s.firestore.lookup r = s'.firestore.lookup r)
    (error : Option NSError) : s.getDocument r error = s'.getDocument r error := by
  simp only [State.getDocument, h]

theorem weddings_results_same [UIKit UIImage] {models : Nat → Weddings.ViewModel} {m : Nat} {e : Env}
    (h : s.getDocument (weddingDocument (models m).id) e.error =
      s'.getDocument (weddingDocument (models m).id) e.error) :
    Weddings.results s models m e = Weddings.results s' models m e := by
  have hlog : ∀ t : State UIImage,
      { t with log := [] }.getDocument (weddingDocument (models m).id) e.error =
        t.getDocument (weddingDocument (models m).id) e.error := fun _ => rfl
  simp only [Weddings.results, Weddings.act, Weddings.getWedding, System.drain, Weddings.weddings,
    Weddings.serve, hlog, h]
  cases s'.getDocument (weddingDocument (models m).id) e.error with
  | error e => rfl
  | ok found =>
    cases found with
    | none => rfl
    | some document => rfl

theorem results_same [UIKit UIImage] {refusal : NSError} {call : Reads.Call}
    {t : Reads.Request UIImage} {e : Env} (ht : (Reads.act call (.new UIImage)).2 = [t])
    (h : Guests.answer refusal t e s = Guests.answer refusal t e s') :
    Guests.results refusal call [(s, e)] = Guests.results refusal call [(s', e)] := by
  simp only [Guests.results, ht, System.drain, Guests.inMoments, h]

theorem sameForGuests_of_data [UIKit UIImage] (h : s.dataOf w = s'.dataOf w) :
    SameForGuests w s s' := by
  have hwedding := getDocument_same (congrArg WeddingData.wedding h)
  have hgallery := getDocument_same (congrArg WeddingData.gallery h)
  have hwishes := getDocuments_same fun g => congrFun (congrArg WeddingData.guests h) g
  refine ⟨fun models m e hm => ?_, fun refusal e => results_same rfl ?_,
    fun refusal e => results_same rfl ?_, fun refusal e => results_same rfl ?_, fun d => ?_⟩
  · subst hm
    exact weddings_results_same (hwedding e.error)
  · exact congrArg Reads.Reply.document (hwedding e.error)
  · exact congrArg Reads.Reply.document (hgallery e.error)
  · exact congrArg Reads.Reply.documents (hwishes e.error)
  · have hguest : s.guestID d w = s'.guestID d w := congrFun (congrArg WeddingData.guestID h) d
    rw [hguest]

theorem download_same (h : s.dataOf w = s'.dataOf w) {url : String} (hurl : isImagePath w url = true)
    (error : Option NSError) (refusal : NSError) :
    s.download url error refusal = s'.download url error refusal := by
  have hobject := congrFun (congrArg WeddingData.objects h) url
  simp only [State.dataOf, hurl, if_true] at hobject
  simp only [State.download, Storage.getData, hobject]

/-- The image is downloaded from a path that is recorded in the images of the wedding. -/
theorem imageOf_same [UIKit UIImage] {a a' : State UIImage} (ha : a.dataOf w = a'.dataOf w)
    (h : s.dataOf w = s'.dataOf w) (hown : a.OwnImages w) (person : String)
    (error error' : Option NSError) (refusal : NSError) :
    a.imageOf s w person error error' refusal = a'.imageOf s' w person error error' refusal := by
  have himages : a.firestore.lookup (photoDocument false w) =
      a'.firestore.lookup (photoDocument false w) := congrArg WeddingData.images ha
  have hread : a.getDocument (document Constants.imagesCollection w) error =
      a'.getDocument (document Constants.imagesCollection w) error := getDocument_same himages error
  have hreply : ∀ doc, a'.getDocument (document Constants.imagesCollection w) error = .ok (some doc) →
      s.download (Reads.imageUrl doc person) error' refusal =
        s'.download (Reads.imageUrl doc person) error' refusal := by
    intro doc hdoc
    refine download_same h (hown doc ?_ person) error' refusal
    rw [himages]
    cases error with
    | none => exact Except.ok.inj hdoc
    | some m => cases hdoc
  simp only [State.imageOf, Guests.results, Reads.act, Reads.getImageOf, System.drain,
    Guests.inMoments, Guests.answer, Reads.serve, hread]
  cases hr : a'.getDocument (document Constants.imagesCollection w) error with
  | error m => rfl
  | ok found =>
    cases found with
    | none => rfl
    | some doc =>
      simp only [Reads.getImageOf.onDocument, Reads.retrieveImage, List.nil_append, System.drain,
        hreply doc hr]
      cases s'.download (Reads.imageUrl doc person) error' refusal with
      | error m => rfl
      | ok data =>
        simp only [Reads.retrieveImage.onData]
        cases (UIKit.ofData data : Option UIImage) with
        | none => rfl
        | some image => rfl

end Reading

/-! ## Two runs -/

section Runs

variable [UIKit UIImage] {w : String} {s1 s2 : State UIImage}
  {ls1 ls2 : List (Label (Action UIImage) Env)} {c1 c2 : Config (State UIImage) Task}

theorem data_same (hw : Text.isSegment w = true)
    (hr1 : (app UIImage).run (.init s1) ls1 = some c1)
    (hr2 : (app UIImage).run (.init s2) ls2 = some c2) (hids1 : s1.ValidIDs) (hids2 : s2.ValidIDs)
    (hdata : s1.dataOf w = s2.dataOf w)
    (hops : (seenBy UIImage w hw).labels ((app UIImage).history (.init s1) ls1) =
      (seenBy UIImage w hw).labels ((app UIImage).history (.init s2) ls2)) :
    c1.state.dataOf w = c2.state.dataOf w :=
  Projection.same_view (P := seenBy UIImage w hw) hr1 hr2 (fun _ hx => validIDs_at hr1 hids1 hx)
    (fun _ hx => validIDs_at hr2 hids2 hx) hdata hops

end Runs

/-- Weddings are isolated. `getImageOf` reads the document and downloads the image later; in both runs
the document is read between the same operations of the wedding. -/
theorem isolated [UIKit UIImage] {w : String} (hw : Text.isSegment w = true) {s1 s2 : State UIImage}
    {ls1 ls2 : List (Label (Action UIImage) Env)} {c1 c2 : Config (State UIImage) Task}
    (hr1 : (app UIImage).run (.init s1) ls1 = some c1)
    (hr2 : (app UIImage).run (.init s2) ls2 = some c2) (hids1 : s1.ValidIDs) (hids2 : s2.ValidIDs)
    (hdata : s1.dataOf w = s2.dataOf w) (hown : s1.OwnImages w)
    (hops : (seenBy UIImage w hw).labels ((app UIImage).history (.init s1) ls1) =
      (seenBy UIImage w hw).labels ((app UIImage).history (.init s2) ls2)) :
    SameForGuests w c1.state c2.state ∧
    ∀ ls1' ls2' a1 a2, ls1' <+: ls1 → ls2' <+: ls2 →
      (app UIImage).run (.init s1) ls1' = some a1 → (app UIImage).run (.init s2) ls2' = some a2 →
      (seenBy UIImage w hw).labels ((app UIImage).history (.init s1) ls1') =
        (seenBy UIImage w hw).labels ((app UIImage).history (.init s2) ls2') →
      ∀ person error error' refusal,
        a1.state.imageOf c1.state w person error error' refusal =
          a2.state.imageOf c2.state w person error error' refusal := by
  have hsame := data_same hw hr1 hr2 hids1 hids2 hdata hops
  refine ⟨sameForGuests_of_data hsame, ?_⟩
  intro ls1' ls2' a1 a2 _ _ ha1 ha2 hops' person error error' refusal
  have hread := data_same hw ha1 ha2 hids1 hids2 hdata hops'
  exact imageOf_same hread hsame (ownImages_of_run ha1 hw hown) person error error' refusal

/-- Hosts with the wedding IDs `0007` and `0042`, signed in on the devices 0 and 1. -/
def twoHosts : State Data :=
  { (hostState.onDevice 1 fun v => { v with currentUser := some "B", isSignedIn := true }) with
    firestore := hostState.firestore.set (userDocument "B")
      (User.toDictionary ⟨"b@b.com", "Customer", "+902222222222", "0042"⟩) }

def groomForm (d : Data) : FormScreen Data := { (Device.new Data).form with groomImage := some d }

def oneWedding : List (Label (Action Data) Env) :=
  [.act (.editForm 0 (groomForm [1])) .ok, .act (.tapSave 0) .ok, .serve 0 .ok,
    .serve 0 (uuids "a"), .serve 0 .ok, .serve 0 .ok, .serve 0 .ok,
    .act (.tapSubmit 2 "0007" "Ada" "Joy" ⟨1, 1, 2023⟩) { Env.ok with newID := "g" }, .serve 0 .ok]

/-- The same, while wedding `0042` is saved and gets a wish; two of its requests fail. -/
def twoWeddings : List (Label (Action Data) Env) :=
  [.act (.editForm 1 (groomForm [2])) .ok, .act (.tapSave 1) .ok,
    .act (.editForm 0 (groomForm [1])) .ok, .act (.tapSave 0) .ok, .serve 0 .ok, .serve 0 .ok,
    .serve 0 (uuids "b"), .serve 0 (uuids "a"), .serve 0 .offline, .serve 1 .ok, .serve 0 .ok,
    .serve 0 .ok, .serve 1 .ok, .serve 0 .ok,
    .act (.tapSubmit 2 "0042" "Ada" "Luck" ⟨1, 1, 2023⟩) { Env.ok with newID := "h" },
    .act (.tapSubmit 2 "0007" "Ada" "Joy" ⟨1, 1, 2023⟩) { Env.ok with newID := "g" },
    .serve 1 .ok, .serve 0 .offline]

theorem twoHosts_validIDs : twoHosts.ValidIDs := by
  intro uid id hid
  obtain ⟨doc, hdoc, hlookup⟩ := hid
  simp only [twoHosts, hostState, State.user, lookup_set] at hdoc
  split at hdoc
  · cases hdoc
    rw [User.toDictionary_weddingID] at hlookup
    cases hlookup
    decide
  · split at hdoc
    · cases hdoc
      rw [User.toDictionary_weddingID] at hlookup
      cases hlookup
      decide
    · cases hdoc

theorem twoWeddings_isolated :
    ∃ c1 c2, (app Data).run (.init twoHosts) oneWedding = some c1 ∧
      (app Data).run (.init twoHosts) twoWeddings = some c2 ∧
      (c1.state.firestore.lookup (photoDocument false "0042") = none ∧
        (c2.state.firestore.lookup (photoDocument false "0042")).isSome) ∧
      SameForGuests "0007" c1.state c2.state ∧
      c2.state.imageOf c2.state "0007" "groom" none none "no object" = [.person (some [1]) none] := by
  obtain ⟨c1, hr1, h1, hshown⟩ : ∃ c1, (app Data).run (.init twoHosts) oneWedding = some c1 ∧
      c1.state.firestore.lookup (photoDocument false "0042") = none ∧
      c1.state.imageOf c1.state "0007" "groom" none none "no object" = [.person (some [1]) none] :=
    ⟨_, rfl, by decide, rfl⟩
  obtain ⟨c2, hr2, h2⟩ : ∃ c2, (app Data).run (.init twoHosts) twoWeddings = some c2 ∧
      (c2.state.firestore.lookup (photoDocument false "0042")).isSome = true := ⟨_, rfl, by decide⟩
  have hw : Text.isSegment "0007" = true := by decide
  have hown : twoHosts.OwnImages "0007" := by
    intro doc hdoc
    cases hdoc
  let steps : List (Label WeddingAction (Outcome Data)) :=
    [.act .save .started, .serve 0 (.content (groomForm [1]) (uuids "a").uuid),
      .serve 0 (.answered none), .serve 0 (.answered none), .serve 0 (.answered none),
      .act (.submit 2 "Ada" "Joy" ⟨1, 1, 2023⟩) (.generated "g"), .serve 0 (.answered none)]
  have hone : (seenBy Data "0007" hw).labels ((app Data).history (.init twoHosts) oneWedding) =
      steps := rfl
  have htwo : (seenBy Data "0007" hw).labels ((app Data).history (.init twoHosts) twoWeddings) =
      steps := rfl
  have hops := hone.trans htwo.symm
  obtain ⟨hsame, himage⟩ := isolated hw hr1 hr2 twoHosts_validIDs twoHosts_validIDs rfl hown hops
  refine ⟨c1, c2, hr1, hr2, ⟨h1, h2⟩, hsame, ?_⟩
  rw [← himage oneWedding twoWeddings c1 c2 (List.prefix_refl _) (List.prefix_refl _) hr1 hr2 hops]
  exact hshown

end WeddApp
