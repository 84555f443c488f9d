import WeddApp.SignUp.Steps
import Mathlib.Data.List.FinRange

/-!
# SignUp.Retry

Whether `generateUniqueID` ends. Each retry draws again, so the call ends as soon as an ID is drawn
that is not used; nothing else ends it. When all IDs are used, it asks for one after another without
end and its completion handler is never called (`ends_iff_free`).
-/

namespace WeddApp

open Documents Async

/-- The calls of the completion handler that `createUser` passes to `generateUniqueID`, latest
first. -/
def completions (log : List Event) : List (Except NSError String) :=
  log.filterMap fun
    | .uniqueID _ id => some (.ok id)
    | .error (.generatingIDError e) => some (.error e)
    | _ => none

def Task.ofUniqueID : Task → Bool
  | .idRead _ _ | .idWrite _ _ => true
  | _ => false

variable {UIImage : Type} [UIKit UIImage]

/-- `createUser` has called `generateUniqueID`, which drew `random`; no other client is running. -/
def called (s : State UIImage) (u : NewUser) (random : Fin 10000) : Config (State UIImage) Task :=
  (Config.init s).acted s (generateUniqueID u random)

/-- The only request in flight is answered, without an error. A retry draws `random`. -/
def answer (random : Fin 10000) : Label (Action UIImage) Env :=
  .serve 0 { Env.ok with random := random }

/-- The first `n` answers. `draws 0` is what the call itself drew. -/
def answers (draws : Nat → Fin 10000) (n : Nat) : List (Label (Action UIImage) Env) :=
  (List.range n).map fun i => answer (draws (i + 1))

/-- After finitely many answers no request of `generateUniqueID` is in flight, and its completion
handler was called once: with a four-digit ID that was not used if there is one, and with an error if
there is none. -/
def Ends (s : State UIImage) (u : NewUser) (draws : Nat → Fin 10000) : Prop :=
  ∃ n c, (app UIImage).run (called s u (draws 0)) (answers draws n) = some c ∧
    (∀ t ∈ c.tasks, t.ofUniqueID = false) ∧
    ∃ r, completions c.state.log = r :: completions s.log ∧
      ((∃ m, ¬ s.used (formatID m)) → ∃ m, r = .ok (formatID m) ∧ ¬ s.used (formatID m)) ∧
      ((∀ m, s.used (formatID m)) → ∃ e, r = .error e)

section Run

variable {s : State UIImage} {u : NewUser} {draws : Nat → Fin 10000} {m m' : Fin 10000} {n : Nat}

omit [UIKit UIImage] in
theorem answers_succ (draws : Nat → Fin 10000) (n : Nat) :
    (answers draws (n + 1) : List (Label (Action UIImage) Env)) =
      answers draws n ++ [answer (draws (n + 1))] := by
  simp [answers, List.range_succ]

theorem step_used (h : s.used (formatID m)) :
    (app UIImage).Step (called s u m) (answer m') (called s u m') := by
  obtain ⟨d, hd⟩ := Option.isSome_iff_exists.mp h
  refine System.Step.serve (t := .idRead u (formatID m)) rfl ?_
  simp only [app, serve, Env.ok, State.getDocument, called, Config.acted_state, hd]
  rfl

/-- While the IDs drawn are used, the call goes on. -/
theorem run_used (h : ∀ i < n, s.used (formatID (draws i))) :
    (app UIImage).run (called s u (draws 0)) (answers draws n) = some (called s u (draws n)) := by
  induction n with
  | zero => rfl
  | succ n ih =>
    rw [answers_succ, System.run_concat]
    have hn := ih fun i hi => h i (by omega)
    exact ⟨called s u (draws n), hn, step_used (h n (by omega))⟩

/-- An ID that is not used is written, and the call completes with it. -/
theorem run_free (h : ¬ s.used (formatID m)) (m' m'' : Fin 10000) :
    ∃ c, (app UIImage).run (called s u m) [answer m', answer m''] = some c ∧
      c.tasks = [.userWrite u.uid ⟨u.email, u.userType, u.phoneNumber, formatID m⟩] ∧
      c.state.log = .uniqueID u.uid (formatID m) :: s.log := by
  have hnone : s.firestore.lookup (usedID (formatID m)) = none := Option.not_isSome_iff_eq_none.mp h
  have h1 : (app UIImage).Step (called s u m) (answer m')
      ((called s u m).served 0 0 s [.idWrite u (formatID m)]) := by
    refine System.Step.serve (t := .idRead u (formatID m)) rfl ?_
    simp only [app, serve, Env.ok, State.getDocument, called, Config.acted_state, hnone]
    rfl
  have h2 : ∃ c, (app UIImage).Step ((called s u m).served 0 0 s [.idWrite u (formatID m)])
      (answer m'') c ∧
      c.tasks = [.userWrite u.uid ⟨u.email, u.userType, u.phoneNumber, formatID m⟩] ∧
      c.state.log = .uniqueID u.uid (formatID m) :: s.log :=
    ⟨_, .serve (t := .idWrite u (formatID m)) rfl rfl, rfl, rfl⟩
  obtain ⟨c, h2, hc⟩ := h2
  exact ⟨c, System.run_cons.mpr ⟨_, h1, System.run_cons.mpr ⟨_, h2, rfl⟩⟩, hc⟩

omit [UIKit UIImage] in
theorem answers_add_two (draws : Nat → Fin 10000) (n : Nat) :
    (answers draws (n + 2) : List (Label (Action UIImage) Env)) =
      answers draws n ++ [answer (draws (n + 1)), answer (draws (n + 2))] := by
  rw [answers_succ, answers_succ, List.append_assoc]; rfl

/-- The call ends with the first ID drawn that is not used. -/
theorem ends_of_first (hused : ∀ i < n, s.used (formatID (draws i)))
    (hfree : ¬ s.used (formatID (draws n))) : Ends s u draws := by
  obtain ⟨c, hr, htasks, hlog⟩ := run_free (u := u) hfree (draws (n + 1)) (draws (n + 2))
  refine ⟨n + 2, c, ?_, ?_, .ok (formatID (draws n)), ?_, ?_, ?_⟩
  · rw [answers_add_two, System.run_append]
    exact ⟨called s u (draws n), run_used hused, hr⟩
  · intro t ht
    rw [htasks, List.mem_singleton] at ht
    rw [ht]; rfl
  · rw [hlog]; rfl
  · intro _
    exact ⟨draws n, rfl, hfree⟩
  · intro hall
    exact absurd (hall (draws n)) hfree

theorem not_ends_of_full (hall : ∀ m, s.used (formatID m)) : ¬ Ends s u draws := by
  rintro ⟨n, c, hr, hdone, _⟩
  rw [run_used fun i _ => hall (draws i)] at hr
  cases hr
  have h := hdone (.idRead u (formatID (draws n))) (List.mem_singleton_self _)
  cases h

end Run

/-- When every ID is drawn again and again, the call ends exactly if one is not used. -/
theorem ends_iff_free {s : State UIImage} {u : NewUser} {draws : Nat → Fin 10000}
    (hdraws : ∀ m i, ∃ j, i ≤ j ∧ draws j = m) :
    Ends s u draws ↔ ∃ m, ¬ s.used (formatID m) := by
  constructor
  · intro hends
    by_contra hnone
    exact not_ends_of_full (fun m => not_not.mp fun hm => hnone ⟨m, hm⟩) hends
  · intro hfree
    obtain ⟨m, hm⟩ := hfree
    have hex : ∃ j, ¬ s.used (formatID (draws j)) := by
      obtain ⟨j, _, hj⟩ := hdraws m 0
      exact ⟨j, by rw [hj]; exact hm⟩
    exact ends_of_first (n := Nat.find hex) (fun i hi => not_not.mp (Nat.find_min hex hi))
      (Nat.find_spec hex)

/-- Draws `0`, `1` and so on, and from `0` again after `9999`. -/
def cyclic (i : Nat) : Fin 10000 := Fin.ofNat 10000 i

theorem cyclic_infinitely_often (m : Fin 10000) (i : Nat) : ∃ j, i ≤ j ∧ cyclic j = m := by
  refine ⟨10000 * i + m, by omega, ?_⟩
  apply Fin.ext
  have hm := m.isLt
  simp only [cyclic, Fin.ofNat]
  omega

def firstHost : NewUser := ⟨"u1", "a@b.co", "Customer", "+905"⟩

theorem firstHost_ends : Ends (State.new Data) firstHost cyclic :=
  (ends_iff_free cyclic_infinitely_often).mpr ⟨0, by decide⟩

def fullIDs : State Data :=
  { State.new Data with
    firestore := Fields.ofList ((List.finRange 10000).map fun m => (usedID (formatID m), ∅)) }

theorem fullIDs_used (m : Fin 10000) : fullIDs.used (formatID m) := by
  simp only [State.used, fullIDs, Fields.ofList, AList.lookup_to_alist, List.dlookup_isSome,
    List.keys, List.map_map, List.mem_map, Function.comp_apply]
  exact ⟨m, List.mem_finRange m, rfl⟩

/-- Each ID is drawn infinitely often and each read is answered, and the call goes on without end. -/
theorem fullIDs_endless : (∀ m, fullIDs.used (formatID m)) ∧
    (∀ m i, ∃ j, i ≤ j ∧ cyclic j = m) ∧
    (∀ n, (app Data).run (called fullIDs firstHost (cyclic 0)) (answers cyclic n) =
      some (called fullIDs firstHost (cyclic n))) ∧
    ¬ Ends fullIDs firstHost cyclic :=
  ⟨fullIDs_used, cyclic_infinitely_often, fun _ => run_used fun i _ => fullIDs_used (cyclic i),
    not_ends_of_full fullIDs_used⟩

end WeddApp
