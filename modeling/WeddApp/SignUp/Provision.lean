import WeddApp.SignUp.Phase
import WeddApp.SignUp.UniqueID

/-!
# SignUp.Provision

What a sign-up leaves behind. The three stores (Auth, `UsedIDs`, `Users`) are written one after
another and nothing is undone when a later write fails, so a sign-up one of whose requests failed
leaves an account without a document, and an ID that nobody has if that request was the write of
`Users`. `provisioned_unless_failed` says that nothing else goes wrong, and that no later sign-in
repairs it.
-/

namespace WeddApp

open Async Documents

variable {UIImage : Type}

/-- `Users/<uid>` exists, and its `weddingID` is `id`. -/
def State.HasWeddingID (s : State UIImage) (uid : UID) (id : String) : Prop :=
  ∃ doc, s.user uid = some doc ∧ doc.lookup "weddingID" = some (.string id)

/-- The account can save a wedding: its document holds an ID that is reserved. -/
def State.Provisioned (s : State UIImage) (uid : UID) : Prop :=
  ∃ id, s.HasWeddingID uid id ∧ s.used id

/-- Every account is provisioned, and only accounts have documents. -/
structure State.Clean (s : State UIImage) : Prop where
  log : s.log = []
  provisioned : ∀ uid, s.registered uid → s.Provisioned uid
  users : ∀ uid, ¬ s.registered uid → s.user uid = none

theorem mem_idsOf {uid : UID} {id : String} {log : List Event} :
    id ∈ idsOf uid log ↔ (uid, id) ∈ uniqueIDs log := by
  simp only [idsOf, List.mem_filterMap]
  constructor
  · rintro ⟨⟨uid', id'⟩, hm, he⟩
    split at he
    · rename_i hu
      cases he; cases hu; exact hm
    · cases he
  · intro hm
    exact ⟨_, hm, by simp⟩

variable [UIKit UIImage]

section Quiescent

variable {s0 : State UIImage} {ls : List (Label (Action UIImage) Env)}
  {c : Config (State UIImage) Task}

/-- With nothing in flight, an account is provisioned exactly if no request of its sign-up failed;
otherwise it has no document at all. -/
theorem account_of_quiescent (h0 : s0.Clean) (hr : (app UIImage).run (.init s0) ls = some c)
    (hq : c.pending = []) {uid : UID} (hreg : c.state.registered uid) :
    (c.state.Provisioned uid ↔ ¬ Failed ((app UIImage).history (.init s0) ls) uid) ∧
      (Failed ((app UIImage).history (.init s0) ls) uid → c.state.user uid = none) := by
  have hp := phase_of_run h0.log hr uid
  have htasks : tasksOf uid c.tasks = [] := by simp [Config.tasks, hq, tasksOf]
  rw [InPhase, htasks] at hp
  cases hp with
  | unknown _ h' _ _ _ _ => exact absurd hreg h'
  | searching _ _ _ _ _ ht _ _ | reserving _ _ _ _ _ ht _ _ | storing _ _ _ _ ht _ _ _ => cases ht
  | old hr0 _ hf _ hd _ =>
    obtain ⟨id, ⟨doc, hdoc, hid⟩, hused⟩ := h0.provisioned uid hr0
    refine ⟨⟨fun _ => hf, fun _ => ⟨id, ⟨doc, hd.trans hdoc, hid⟩, ?_⟩⟩, fun h' => absurd h' hf⟩
    exact ((ids_of_run h0.log hr).1 id).mpr (.inl hused)
  | provisioned user _ _ hf _ hd _ hu =>
    refine ⟨⟨fun _ => hf, fun _ => ?_⟩, fun h' => absurd h' hf⟩
    exact ⟨_, ⟨_, hd, User.toDictionary_weddingID user⟩, hu⟩
  | failed hr0 _ hf _ hd =>
    have hnone : c.state.user uid = none := hd.trans (h0.users uid hr0)
    refine ⟨⟨?_, fun h' => absurd hf h'⟩, fun _ => hnone⟩
    rintro ⟨id, ⟨doc, hdoc, _⟩, _⟩
    rw [hnone] at hdoc; cases hdoc

/-- With nothing in flight, an ID that the run reserved is some user's wedding ID exactly if one of
the sign-ups that reserved it did not fail. -/
theorem reserved_of_quiescent (h0 : s0.Clean) (hr : (app UIImage).run (.init s0) ls = some c)
    (hq : c.pending = []) {id : String} (hid : ¬ s0.used id) :
    (∃ uid, c.state.HasWeddingID uid id) ↔
      ∃ uid, (uid, id) ∈ uniqueIDs c.state.log ∧
        ¬ Failed ((app UIImage).history (.init s0) ls) uid := by
  have htasks : ∀ uid, tasksOf uid c.tasks = [] := by
    intro uid; simp [Config.tasks, hq, tasksOf]
  constructor
  · rintro ⟨uid, doc, hdoc, hw⟩
    have hp := phase_of_run h0.log hr uid
    rw [InPhase, htasks] at hp
    cases hp with
    | searching _ _ _ _ _ ht _ _ | reserving _ _ _ _ _ ht _ _ | storing _ _ _ _ ht _ _ _ =>
      cases ht
    | old hr0 _ _ _ hd _ =>
      obtain ⟨id', ⟨doc', hdoc', hw'⟩, hused⟩ := h0.provisioned uid hr0
      rw [hdoc] at hd
      rw [← hd] at hdoc'; cases hdoc'
      rw [hw] at hw'; cases hw'
      exact absurd hused hid
    | unknown hr0 _ _ _ hd _ =>
      rw [hdoc, h0.users uid hr0] at hd; cases hd
    | failed hr0 _ _ _ hd =>
      rw [hdoc, h0.users uid hr0] at hd; cases hd
    | provisioned user _ _ hf _ hd hi _ =>
      rw [hdoc] at hd; cases hd
      rw [User.toDictionary_weddingID] at hw; cases hw
      refine ⟨uid, mem_idsOf.mp ?_, hf⟩
      rw [hi]; exact List.mem_singleton_self _
  · rintro ⟨uid, hm, hf⟩
    have hp := phase_of_run h0.log hr uid
    rw [InPhase, htasks] at hp
    rw [← mem_idsOf] at hm
    cases hp with
    | searching _ _ _ _ _ ht _ _ | reserving _ _ _ _ _ ht _ _ | storing _ _ _ _ ht _ _ _ =>
      cases ht
    | old _ _ _ _ _ hi | unknown _ _ _ _ _ hi => rw [hi] at hm; cases hm
    | failed _ _ hf' _ _ => exact absurd hf' hf
    | provisioned user _ _ _ _ hd hi _ =>
      rw [hi, List.mem_singleton] at hm
      subst hm
      exact ⟨uid, _, hd, User.toDictionary_weddingID user⟩

end Quiescent

theorem clean_new : (State.new Data).Clean where
  log := rfl
  provisioned := by rintro uid ⟨a, ha, _⟩; cases ha
  users := fun _ _ => rfl

/-- A host signs up, the write of `Users` fails, and the host signs in with the new account. -/
def failedSignUp : List (Label (Action Data) Env) :=
  signUpTaps 0 "a@a.com" ++
    [.serve 0 (drawing "A" 7), .serve 0 .ok, .serve 0 .ok, .serve 0 .offline,
      .act (.tapSignIn 0) .ok, .serve 0 .ok]

/-- The run ends with the account `A`, the reserved ID `0007` and no other document. -/
theorem failedSignUp_run :
    ∃ c, (app Data).run (.init (State.new Data)) failedSignUp = some c ∧ c.pending = [] ∧
      c.state.accounts.map Account.uid = ["A"] ∧ c.state.firestore.keys = [usedID "0007"] := by
  have h : ((app Data).run (.init (State.new Data)) failedSignUp).map
      (fun c => (c.pending.length, c.state.accounts.map Account.uid, c.state.firestore.keys)) =
        some (0, ["A"], [usedID "0007"]) := by decide
  obtain ⟨c, hr, hc⟩ := Option.map_eq_some_iff.mp h
  simp only [Prod.mk.injEq] at hc
  exact ⟨c, hr, List.length_eq_zero_iff.mp hc.1, hc.2⟩

end WeddApp
