import WeddApp.Isolation.Stores
import WeddApp.Save.FirstSave
import WeddApp.Save.Shown

/-!
# Isolation.Owners

Who owns a weddingID. An account keeps the weddingID that it once has, whatever requests failed and
however they overlapped (`host_for_good`).

* `Host`: an account and its weddingID, drawn by `generateUniqueID` and reserved in `UsedIDs`.
-/

namespace WeddApp

open Async Documents

variable {UIImage : Type}

structure State.Host (s : State UIImage) (uid : UID) (id : String) : Prop where
  registered : s.registered uid
  weddingID : s.HasWeddingID uid id
  used : s.used id
  drawn : ∃ n, id = formatID n

/-- The weddingIDs of the accounts are drawn by `generateUniqueID`. -/
def State.DrawnIDs (s : State UIImage) : Prop :=
  ∀ uid id, s.HasWeddingID uid id → ∃ n, id = formatID n

/-- The ID that a request of a sign-up carries is drawn by `generateUniqueID`. -/
def Task.DrawnID : Task → Prop
  | .idRead _ id | .idWrite _ id => ∃ n, id = formatID n
  | .userWrite _ user => ∃ n, user.weddingID = formatID n
  | _ => True

theorem Task.drawnID_of_newUser {t : Task} (h : t.newUser = none) : t.DrawnID := by
  cases t with
  | idRead | idWrite | userWrite => cases h
  | authCreate | authSignIn | saveRead | saveMain | weddingWrite | photoPut | photoMerge
  | wishWrite => trivial

theorem drawnIDs_of_user {s s' : State UIImage} (hu : ∀ uid, s'.user uid = s.user uid)
    (hs : s.DrawnIDs) : s'.DrawnIDs := by
  intro uid id hid
  rw [State.HasWeddingID, hu] at hid
  exact hs uid id hid

variable {s s' s0 : State UIImage} {e : Env} {t : Task} {ts : List Task}
  {ls ls' : List (Label (Action UIImage) Env)} {c c' : Config (State UIImage) Task}
  {l : Label (Action UIImage) Env} {uid : UID} {id : String}

/-! ## The accounts -/

theorem drawnID_sent (h : SignUpStep e s t s' ts) (ht : t.DrawnID) : ∀ u ∈ ts, u.DrawnID := by
  intro u hu
  cases h with
  | account | readUsed =>
    rw [List.mem_singleton.mp hu]
    exact ⟨e.random, rfl⟩
  | readFree | reserved =>
    rw [List.mem_singleton.mp hu]
    exact ht
  | readFailed | writeFailed | userFailed | stored => cases hu
  | other _ _ hts => exact Task.drawnID_of_newUser (hts u hu)

theorem drawnIDs_served (h : SignUpStep e s t s' ts) (hs : s.DrawnIDs) (ht : t.DrawnID) :
    s'.DrawnIDs := by
  cases h with
  | account _ _ _ _ _ user | reserved _ _ _ user => exact drawnIDs_of_user user hs
  | readFailed _ hf | readUsed _ _ hf | readFree _ _ hf | writeFailed _ hf | userFailed _ hf
  | other _ hf => exact drawnIDs_of_user hf.user hs
  | @stored uid user _ _ _ _ hself hother =>
    rintro uid' id ⟨doc, hdoc, hlookup⟩
    by_cases huid : uid' = uid
    · subst huid
      rw [hself] at hdoc
      cases hdoc
      rw [User.toDictionary_weddingID] at hlookup
      cases hlookup
      exact ht
    · rw [hother uid' huid] at hdoc
      exact hs uid' id ⟨doc, hdoc, hlookup⟩

variable [UIKit UIImage]

theorem drawnIDs_of_run (hr : (app UIImage).run (.init s0) ls = some c) (hs : s0.DrawnIDs) :
    c.state.DrawnIDs := by
  refine (System.pool_rule (I := State.DrawnIDs) (J := fun _ t => t.DrawnID) hr ⟨hs, nofun⟩
    ?_ ?_).1
  · intro a e s1 s2 ts hI ha
    refine ⟨drawnIDs_of_user (act_signUp ha).1.user hI, fun u hu => ?_, fun _ hu => hu⟩
    exact Task.drawnID_of_newUser (Task.newUser_of_first (act_sends ha u hu))
  · intro t e s1 s2 ts hI hJ hserve
    exact ⟨drawnIDs_served (serve_signUp hserve) hI hJ, drawnID_sent (serve_signUp hserve) hJ,
      fun _ hu => hu⟩

theorem host_of_weddingID (h0 : s0.Clean) (hd : s0.DrawnIDs)
    (hr : (app UIImage).run (.init s0) ls = some c) (hid : c.state.HasWeddingID uid id) :
    c.state.Host uid id := by
  have hp := phase_of_run h0.log hr uid
  have hdrawn := drawnIDs_of_run hr hd uid id hid
  obtain ⟨doc, hdoc, hlookup⟩ := hid
  have hnone : ¬ s0.registered uid → c.state.user uid ≠ s0.user uid := by
    intro hreg heq
    rw [hdoc, h0.users uid hreg] at heq
    cases heq
  cases hp with
  | old hr0 hreg _ _ hsame _ =>
    obtain ⟨id', ⟨doc', hdoc', hlookup'⟩, hused⟩ := h0.provisioned uid hr0
    rw [hdoc, hdoc'] at hsame
    cases hsame
    rw [hlookup] at hlookup'
    cases hlookup'
    exact ⟨hreg, ⟨doc, hdoc, hlookup⟩, ((ids_of_run h0.log hr).1 id).mpr (.inl hused), hdrawn⟩
  | unknown hr0 _ _ _ hsame _ | searching _ _ hr0 _ _ _ hsame _ | reserving _ _ hr0 _ _ _ hsame _
  | storing _ hr0 _ _ _ hsame _ _ | failed hr0 _ _ _ hsame => exact absurd hsame (hnone hr0)
  | provisioned user _ hreg _ _ hsome _ hused =>
    rw [hdoc] at hsome
    cases hsome
    rw [User.toDictionary_weddingID] at hlookup
    cases hlookup
    exact ⟨hreg, ⟨_, hdoc, User.toDictionary_weddingID user⟩, hused, hdrawn⟩

omit [UIKit UIImage] in
theorem tasksOf_eq (hlen : (tasksOf uid ts).length ≤ 1) (ht : t ∈ ts) (hu : t.newUser = some uid) :
    tasksOf uid ts = [t] := by
  have hmem : t ∈ tasksOf uid ts := List.mem_filter.mpr ⟨ht, decide_eq_true hu⟩
  cases htasks : tasksOf uid ts with
  | nil =>
    rw [htasks] at hmem
    cases hmem
  | cons x rest =>
    rw [htasks] at hlen hmem
    have hrest : rest = [] := List.eq_nil_of_length_eq_zero (by simpa using hlen)
    subst hrest
    rw [List.mem_singleton.mp hmem]

/-- The document of an account is written once. -/
theorem user_stays (h0 : s0.Clean) (hr : (app UIImage).run (.init s0) ls = some c)
    (hs : (app UIImage).Step c l c') {doc : Document} (hdoc : c.state.user uid = some doc) :
    c'.state.user uid = some doc := by
  cases hs with
  | act ha => exact ((act_signUp ha).1.user uid).trans hdoc
  | @serve i k t e s ts hi ha =>
    cases serve_signUp ha with
    | account _ _ _ _ _ user | reserved _ _ _ user => exact (user uid).trans hdoc
    | readFailed _ hf | readUsed _ _ hf | readFree _ _ hf | writeFailed _ hf | userFailed _ hf
    | other _ hf => exact (hf.user uid).trans hdoc
    | @stored uid' user _ _ _ _ hself hother =>
      by_cases huid : uid = uid'
      · -- the request that writes the document is in flight only while there is none
        subst huid
        have hp := phase_of_run h0.log hr uid
        have htask : Task.userWrite uid user ∈ c.tasks := List.mem_map.mpr ⟨_, mem_of_getElem? hi, rfl⟩
        rw [InPhase, tasksOf_eq hp.tasks_length htask rfl] at hp
        obtain ⟨hr0, _, _, hsame, _⟩ := hp.of_userWrite
        rw [hdoc, h0.users uid hr0] at hsame
        cases hsame
      · exact (hother uid huid).trans hdoc

omit [UIKit UIImage] in
theorem registered_stays (h : SignUpStep e s t s' ts) (hreg : s.registered uid) :
    s'.registered uid := by
  obtain ⟨a, ha, huid⟩ := hreg
  cases h with
  | account _ _ _ hacc =>
    refine ⟨a, ?_, huid⟩
    rw [hacc]
    exact List.mem_cons_of_mem _ ha
  | reserved _ hacc | stored _ hacc =>
    refine ⟨a, ?_, huid⟩
    rwa [hacc]
  | readFailed _ hf | readUsed _ _ hf | readFree _ _ hf | writeFailed _ hf | userFailed _ hf
  | other _ hf => exact (hf.registered uid).mpr ⟨a, ha, huid⟩

omit [UIKit UIImage] in
theorem used_stays (h : SignUpStep e s t s' ts) (hused : s.used id) : s'.used id := by
  cases h with
  | account _ _ _ _ used | stored _ _ used => exact (used id).mpr hused
  | reserved _ _ used => exact (used id).mpr (.inr hused)
  | readFailed _ hf | readUsed _ _ hf | readFree _ _ hf | writeFailed _ hf | userFailed _ hf
  | other _ hf => exact (hf.used id).mpr hused

theorem Host.step (h0 : s0.Clean) (hr : (app UIImage).run (.init s0) ls = some c)
    (hs : (app UIImage).Step c l c') (hh : c.state.Host uid id) : c'.state.Host uid id := by
  obtain ⟨hreg, ⟨doc, hdoc, hlookup⟩, hused, hdrawn⟩ := hh
  have hstays : c'.state.HasWeddingID uid id := ⟨doc, user_stays h0 hr hs hdoc, hlookup⟩
  cases hs with
  | act ha =>
    have hf := (act_signUp ha).1
    exact ⟨(hf.registered uid).mpr hreg, hstays, (hf.used id).mpr hused, hdrawn⟩
  | serve _ ha =>
    have hsign := serve_signUp ha
    exact ⟨registered_stays hsign hreg, hstays, used_stays hsign hused, hdrawn⟩

/-- An account that has a weddingID keeps it, and it stays reserved. -/
theorem host_for_good (h0 : s0.Clean) (hd : s0.DrawnIDs)
    (hr : (app UIImage).run (.init s0) ls = some c) (hr' : (app UIImage).run c ls' = some c')
    (hid : c.state.HasWeddingID uid id) :
    c'.state.Host uid id ∧ ∀ id', c'.state.HasWeddingID uid id' → id' = id := by
  have hh : c'.state.Host uid id := by
    refine System.prefix_rule (I := fun _ c => c.state.Host uid id) hr'
      (host_of_weddingID h0 hd hr hid) ?_
    intro ls1 c1 l c2 hr1 _ hI hs
    exact Host.step h0 (System.run_append.mpr ⟨c, hr, hr1⟩) hs hI
  refine ⟨hh, fun id' hid' => ?_⟩
  obtain ⟨doc, hdoc, hlookup⟩ := hh.weddingID
  obtain ⟨doc', hdoc', hlookup'⟩ := hid'
  rw [hdoc] at hdoc'
  cases hdoc'
  rw [hlookup] at hlookup'
  cases hlookup'
  rfl

theorem drawnIDs_new : (State.new Data).DrawnIDs := by
  rintro uid id ⟨doc, hdoc, _⟩
  cases hdoc

/-- A host signs up, and Save is tapped once the document is written. -/
def lateSave : List (Label (Action Data) Env) :=
  (signUpTaps 0 "a@a.com" ++ [.serve 0 (drawing "A" 7), .serve 0 .ok, .serve 0 .ok, .serve 0 .ok]) ++
    .act (.tapSave 0) .ok :: [.serve 0 .ok, .serve 0 .ok, .serve 0 .ok]

/-- A host signs up and saves: the account keeps its weddingID. -/
theorem lateSave_host :
    ∃ c, (app Data).run (.init (State.new Data)) lateSave = some c ∧ c.state.Host "A" "0007" := by
  have h1 : ((app Data).run (.init (State.new Data)) (signUpTaps 0 "a@a.com" ++
      [.serve 0 (drawing "A" 7), .serve 0 .ok, .serve 0 .ok, .serve 0 .ok])).map
        (fun c => (c.state.user "A").bind fun doc => doc.lookup "weddingID") =
      some (some (.string "0007")) := by decide +kernel
  have h2 : ((app Data).run (.init (State.new Data)) lateSave).isSome := by decide +kernel
  obtain ⟨c1, hr1, hc1⟩ := Option.map_eq_some_iff.mp h1
  obtain ⟨doc, hdoc, hlookup⟩ := Option.bind_eq_some_iff.mp hc1
  obtain ⟨c, hr⟩ := Option.isSome_iff_exists.mp h2
  obtain ⟨c2, hr2, hrest⟩ := System.run_append.mp hr
  rw [hr1] at hr2
  cases hr2
  exact ⟨c, hr, (host_for_good clean_new drawnIDs_new hr1 hrest ⟨doc, hdoc, hlookup⟩).1⟩

end WeddApp
