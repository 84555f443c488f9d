import WeddApp.App.Backend
import WeddApp.Async.Lineage
import WeddApp.Weddings.Step

/-!
# Weddings.LastUpload

The `Weddings` collection as a map from IDs to weddings. Decoding what was encoded gives the wedding
with its defaults filled in (`ofDocument_toDictionary`), and the document of an ID encodes the wedding
that was last uploaded under it (`Holds`, `holds_of_run`).
-/

namespace WeddApp

open Async Documents

def Groom.withDefaults (groom : Option Groom) : Groom where
  name := some ((groom.bind (·.name)).getD Constants.defaultName)
  surname := some ((groom.bind (·.surname)).getD Constants.defaultSurname)
  image := some ((groom.bind (·.image)).getD Constants.placeholderGroomImage)

def Bride.withDefaults (bride : Option Bride) : Bride where
  name := some ((bride.bind (·.name)).getD Constants.defaultName)
  surname := some ((bride.bind (·.surname)).getD Constants.defaultSurname)
  image := some ((bride.bind (·.image)).getD Constants.placeholderBrideImage)

/-- The wedding under ID `id`, each missing field replaced by the default that `toDictionary` uses. -/
def Wedding.withDefaults (w : Wedding) (id : String) : Wedding where
  id := some id
  groom := some (Groom.withDefaults w.groom)
  bride := some (Bride.withDefaults w.bride)
  date := some (w.date.getD Constants.defaultDate)
  location := some (w.location.getD Constants.defaultLocation)
  welcomeMessage := some (w.welcomeMessage.getD Constants.defaultWelcomeMessage)

section Encoding

theorem lookup_ofList {κ ν : Type} [DecidableEq κ] (l : List (κ × ν)) (key : κ) :
    (Fields.ofList l).lookup key =
      (l.map fun x => (⟨x.1, x.2⟩ : Sigma fun _ : κ => ν)).dlookup key := by
  rw [Fields.ofList, AList.lookup_to_alist]

theorem Wedding.toDictionary_id (w : Wedding) :
    w.toDictionary.lookup "id" = some (.string (w.id.getD "0")) := by
  rw [Wedding.toDictionary, lookup_ofList]; rfl

theorem Wedding.ofDocument_toDictionary (w : Wedding) (id : String) :
    Wedding.ofDocument id w.toDictionary = w.withDefaults id := by
  simp only [Wedding.ofDocument, Wedding.toDictionary, lookup_ofList]
  rfl

end Encoding

namespace Weddings

variable {UIImage : Type}

def uploaded (i : String) (x : Config (State UIImage) Request × Label Call Env) : Option Wedding :=
  match x.2 with
  | .act _ _ => none
  | .serve j e =>
    match x.1.pending[j]? with
    | some (_, .upload wedding _) =>
      if wedding.id = some i ∧ e.error = none then some wedding else none
    | _ => none

/-- The wedding that was last uploaded under ID `i`. -/
def lastUploaded (h : List (Config (State UIImage) Request × Label Call Env)) (i : String) :
    Option Wedding :=
  h.reverse.findSome? (uploaded i)

theorem lastUploaded_concat (h : List (Config (State UIImage) Request × Label Call Env))
    (x : Config (State UIImage) Request × Label Call Env) (i : String) :
    lastUploaded (h ++ [x]) i = (uploaded i x).or (lastUploaded h i) := by
  simp only [lastUploaded, List.reverse_append, List.reverse_singleton, List.singleton_append,
    List.findSome?_cons]
  cases uploaded i x with
  | none => rw [Option.none_or]
  | some w => rw [Option.some_or]

theorem uploaded_id {i : String} {x : Config (State UIImage) Request × Label Call Env} {w : Wedding}
    (h : uploaded i x = some w) : w.id = some i := by
  unfold uploaded at h
  split at h
  · cases h
  · split at h
    · split at h
      · rename_i hi
        cases h
        exact hi.1
      · cases h
    · cases h

theorem lastUploaded_id {h : List (Config (State UIImage) Request × Label Call Env)} {i : String}
    {w : Wedding} (hl : lastUploaded h i = some w) : w.id = some i := by
  obtain ⟨x, _, hx⟩ := List.exists_of_findSome?_eq_some hl
  exact uploaded_id hx

/-- The documents of the collection encode the last uploads, and what is in flight is an upload under
the ID of its wedding. -/
structure Holds (h : List (Config (State UIImage) Request × Label Call Env))
    (c : Config (State UIImage) Request) : Prop where
  stored : ∀ i, c.state.app.firestore.lookup (weddingDocument i) =
    (lastUploaded h i).map Wedding.toDictionary
  pending : ∀ w t, .upload w t ∈ c.tasks → ∃ i, w.id = some i ∧ t = .weddingWrite i w.toDictionary

theorem Holds.frame {h : List (Config (State UIImage) Request × Label Call Env)}
    {c c' : Config (State UIImage) Request} {l : Label Call Env} (hI : Holds h c)
    (hu : ∀ i, uploaded i (c, l) = none)
    (hf : c'.state.app.firestore = c.state.app.firestore)
    (hp : ∀ w t, .upload w t ∈ c'.tasks → .upload w t ∈ c.tasks) : Holds (h ++ [(c, l)]) c' where
  stored := by
    intro i
    rw [hf, hI.stored, lastUploaded_concat, hu, Option.none_or]
  pending := fun w t hm => hI.pending w t (hp w t hm)

theorem uploadWedding_spec (groom : Groom) (bride : Bride) (wedding : Wedding)
    (s : WeddApp.State UIImage) :
    (uploadWedding groom bride wedding s).1.firestore = s.firestore ∧
      ∀ t ∈ (uploadWedding groom bride wedding s).2,
        ∃ i, wedding.id = some i ∧ t = .weddingWrite i wedding.toDictionary := by
  unfold uploadWedding
  split
  · rename_i i hi
    refine ⟨rfl, fun t ht => ⟨i, hi, ?_⟩⟩
    exact List.mem_singleton.mp ht
  · exact ⟨rfl, List.forall_mem_nil _⟩

section Step

variable {h : List (Config (State UIImage) Request × Label Call Env)}
  {c c' : Config (State UIImage) Request}

theorem holds_act (hI : Holds h c) (call : Call) (e : Env) :
    Holds (h ++ [(c, .act call e)]) (c.acted (act call c.state).1 (act call c.state).2) := by
  cases call with
  | uploadWedding groom bride wedding =>
    obtain ⟨hf, hts⟩ := uploadWedding_spec groom bride wedding c.state.app
    constructor
    · intro i
      rw [lastUploaded_concat, uploaded, Option.none_or, ← hI.stored i]
      exact congrArg (fun f : Firestore => f.lookup (weddingDocument i)) hf
    · intro w t hm
      simp only [Config.tasks_acted, act, List.mem_append, List.mem_map] at hm
      rcases hm with hm | ⟨t', ht', he⟩
      · exact hI.pending w t hm
      · cases he
        exact hts t ht'
  | getWedding m =>
    refine hI.frame (fun _ => rfl) rfl fun w t hm => ?_
    simp only [Config.tasks_acted, act, getWedding, List.mem_append, List.mem_singleton,
      reduceCtorEq, or_false] at hm
    exact hm

variable [UIKit UIImage]

theorem serve_weddingWrite {i : String} {doc : Document} {e : Env} {s s' : WeddApp.State UIImage}
    {ts : List Task} (h : WeddApp.serve (.weddingWrite i doc) e s = some (s', ts)) :
    ts = [] ∧ ∀ j, s'.firestore.lookup (weddingDocument j) =
      if j = i ∧ e.error = none then some doc else s.firestore.lookup (weddingDocument j) := by
  have hts : ts = [] := (served_eq h).2
  refine ⟨hts, fun j => ?_⟩
  cases he : e.error with
  | some m =>
    rw [if_neg (by simp)]
    exact serve_lookup_ne h (.inr (by simp [he]))
  | none =>
    rw [serve_firestore h]
    simp only [Task.commit, he]
    refine (lookup_set ..).trans ?_
    simp only [weddingDocument, document_inj, and_true]
    rfl

theorem holds_upload (hI : Holds h c) {i k : Nat} {w : Wedding} {t : Task} {e : Env}
    {s : WeddApp.State UIImage} {ts : List Task} (hi : c.pending[i]? = some (k, .upload w t))
    (hs : WeddApp.serve t e c.state.app = some (s, ts)) :
    Holds (h ++ [(c, .serve i e)])
      (c.served i k { c.state with app := s } (ts.map (.upload w))) := by
  obtain ⟨rest, hperm, htasks⟩ := Config.tasks_served hi { c.state with app := s }
    (ts.map (Request.upload w))
  have hrest : ∀ u ∈ rest, u ∈ c.tasks := fun u hu => hperm.mem_iff.mpr (List.mem_cons_of_mem _ hu)
  obtain ⟨id, hid, rfl⟩ := hI.pending w t (hperm.mem_iff.mpr List.mem_cons_self)
  obtain ⟨hts, hdoc⟩ := serve_weddingWrite hs
  constructor
  · intro j
    have hup : uploaded j (c, .serve i e) = if id = j ∧ e.error = none then some w else none := by
      simp [uploaded, hi, hid]
    rw [lastUploaded_concat, hup, Config.served_state]
    refine (hdoc j).trans ?_
    by_cases hj : j = id ∧ e.error = none
    · rw [if_pos hj, if_pos ⟨hj.1.symm, hj.2⟩, Option.some_or, Option.map_some]
    · rw [if_neg hj, if_neg (fun hj' => hj ⟨hj'.1.symm, hj'.2⟩), Option.none_or, hI.stored]
  · intro w' t' hm
    rw [htasks, hts, List.map_nil, List.append_nil] at hm
    exact hI.pending w' t' (hrest _ hm)

theorem holds_serve (hI : Holds h c) {i k : Nat} {r : Request} {e : Env} {s : State UIImage}
    {ts : List Request} (hi : c.pending[i]? = some (k, r)) (hs : serve r e c.state = some (s, ts)) :
    Holds (h ++ [(c, .serve i e)]) (c.served i k s ts) := by
  obtain ⟨rest, hperm, htasks⟩ := Config.tasks_served hi s ts
  have hkept (hts : ∀ w t, .upload w t ∉ ts) (w : Wedding) (t : Task)
      (hm : .upload w t ∈ (c.served i k s ts).tasks) : .upload w t ∈ c.tasks := by
    rw [htasks, List.mem_append, or_iff_left (hts w t)] at hm
    exact hperm.mem_iff.mpr (List.mem_cons_of_mem _ hm)
  cases r with
  | upload w t =>
    simp only [serve] at hs
    split at hs
    · cases hs
    · rename_i app ts' happ
      cases hs
      exact holds_upload hI hi happ
  | document m id =>
    simp only [serve, Option.some.injEq] at hs
    have hu : ∀ j, uploaded j (c, .serve i e) = none := fun j => by simp [uploaded, hi]
    unfold getWedding.onDocument at hs
    split at hs
    · cases hs
      exact hI.frame hu rfl (hkept (by simp))
    · cases hs
      exact hI.frame hu rfl (hkept (by simp))
    · cases hs
      exact hI.frame hu rfl (hkept (by simp))
  | main m id document =>
    cases hs
    exact hI.frame (fun j => by simp [uploaded, hi]) rfl (hkept (by simp))

end Step

variable [UIKit UIImage]

theorem holds_of_run {s0 : State UIImage}
    (h0 : ∀ i, s0.app.firestore.lookup (weddingDocument i) = none) {ls : List (Label Call Env)}
    {c : Config (State UIImage) Request} (hr : (weddings UIImage).run (.init s0) ls = some c) :
    Holds ((weddings UIImage).history (.init s0) ls) c := by
  refine System.run_rule hr ⟨fun i => ?_, fun w t hm => ?_⟩ ?_
  · exact h0 i
  · cases hm
  · intro h c1 l c2 _ hI hs
    cases hs with
    | @act call e s ts ha =>
      have he : act call c1.state = (s, ts) := Option.some.inj ha
      have hact := holds_act hI call e
      rw [he] at hact
      exact hact
    | serve hi ha => exact holds_serve hI hi ha

/-- Some step of call number `k` makes the view model `m` show `w`. -/
def Shows (h : List (Config (State UIImage) Request × Label Call Env)) (k m : Nat) (w : Wedding) :
    Prop :=
  ∃ c t e ts, ServedAt h c k t e ∧ serve t e c.state = some (c.state.setWed m w, ts)

def Leaves (h : List (Config (State UIImage) Request × Label Call Env)) (k : Nat) : Prop :=
  ∀ c t e s ts, ServedAt h c k t e → serve t e c.state = some (s, ts) → s.models = c.state.models

theorem serve_document_models {m : Nat} {i : String} {e : Env} {s s' : State UIImage}
    {ts : List Request} (h : serve (.document m i) e s = some (s', ts)) : s'.models = s.models := by
  simp only [serve, getWedding.onDocument, Option.some.injEq] at h
  split at h
  · cases h; rfl
  · cases h; rfl
  · cases h; rfl

section Call

variable {h : List (Config (State UIImage) Request × Label Call Env)}
  {c c1 c2 : Config (State UIImage) Request} {k m : Nat} {i : String} {e : Env}
  {ls : List (Label Call Env)} {ts : List Request}

theorem shows_of_answered
    (ha : (weddings UIImage).Answered h c k (.document m i) c1 e c2 ls ts) (hk : ¬ c.Live k)
    (he : e.error = none) {w : Wedding}
    (hd : c1.state.app.firestore.lookup (weddingDocument i) = some w.toDictionary) :
    Shows h k m (w.withDefaults i) := by
  have hserve : serve (.document m i) e c1.state = some (c2.state, ts) := ha.serve
  simp only [serve, State.getDocument, he, hd, getWedding.onDocument, Option.some.injEq,
    Prod.mk.injEq] at hserve
  have hdes := ha.descendants
  rw [← hserve.2] at hdes
  obtain ⟨c3, e3, c4, ls3, ts3, ha3⟩ := System.follow ha.run ha.clock hdes hk
  obtain ⟨j, hm, hj⟩ := ha3.served
  refine ⟨c3, _, e3, [], ⟨j, ha.mem _ hm, hj⟩, ?_⟩
  rw [serve, Wedding.ofDocument_toDictionary]

theorem leaves_of_answered
    (ha : (weddings UIImage).Answered h c k (.document m i) c1 e c2 ls ts)
    (hno : e.error ≠ none ∨ c1.state.app.firestore.lookup (weddingDocument i) = none) :
    Leaves h k := by
  have hserve : serve (.document m i) e c1.state = some (c2.state, ts) := ha.serve
  have hts : ts = [] := by
    simp only [serve, State.getDocument, getWedding.onDocument, Option.some.injEq] at hserve
    cases he : e.error with
    | some error =>
      rw [he] at hserve
      exact (congrArg Prod.snd hserve).symm
    | none =>
      rw [he, hno.resolve_left fun hne => hne he] at hserve
      exact (congrArg Prod.snd hserve).symm
  have hdes := ha.descendants
  rw [hts] at hdes
  intro c3 t e' s ts' hs hserve'
  rcases ha.only t e' ⟨c3, hs⟩ with ⟨rfl, _⟩ | hs
  · exact serve_document_models hserve'
  · refine (System.lineage_rule (P := fun _ => False) ha.run ha.clock ?_ ?_ t e' hs).elim
    · intro t ht
      rw [hdes] at ht
      cases ht
    · intro _ _ _ _ _ hf
      exact hf.elim

end Call

/-- A wedding without a groom is uploaded twice, and the second upload fails; then a guest asks. -/
def twoUploads : List (Label Call Env) :=
  [.act (.uploadWedding ⟨none, none, none⟩ ⟨none, none, none⟩
      ⟨some "0007", none, none, some "01.01.2023", none, none⟩) .ok, .serve 0 .ok,
    .act (.uploadWedding ⟨none, none, none⟩ ⟨none, none, none⟩
      ⟨some "0007", none, none, some "02.01.2023", none, none⟩) .ok, .serve 0 .offline,
    .act (.getWedding 0) .ok, .serve 0 .ok, .serve 0 .ok]

end Weddings
end WeddApp
