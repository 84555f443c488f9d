import WeddApp.SignUp.Steps

/-!
# SignUp.UniqueID

Are wedding IDs unique? `generateUniqueID` reads `UsedIDs/<id>` and writes it in a second request, so
another client can reserve the same ID in between. No run completes a call with an ID that was used
at the start; two calls complete with the same ID exactly if the write of one is answered in the
window of the other, between the answer to its check and the answer to its write (`Overlap`).

* `reserves_or_keeps`: one step either reserves an ID or changes nothing about IDs.
* `waiting_of_used`: no call begins to write an ID that is used.
* `again_of_overlap`, `overlap_of_again`: an ID is completed with twice exactly in an overlap.
* `ids_of_run`: hosts get only IDs that a call completed with, each completion at most once.
-/

namespace WeddApp

open Async

variable {UIImage : Type}

def completedIDs (s : State UIImage) : List String := (uniqueIDs s.log).map Prod.snd

def hostIDs (s : State UIImage) : List String := (createdUsers s.log).map Prod.snd

/-- No two calls completed with the same ID, none with an ID used at the start, and no two hosts
got the same wedding ID. -/
structure IDsUnique (s0 s : State UIImage) : Prop where
  completions : (completedIDs s).Nodup
  fresh : ∀ id ∈ completedIDs s, ¬ s0.used id
  hosts : (hostIDs s).Nodup

variable [UIKit UIImage]

/-- `UsedIDs/<id>` is written for a call, and the run goes on from `c` with `ls'`. -/
inductive Acked (s0 : State UIImage) (ls : List (Label (Action UIImage) Env))
    (id : String) (c : Config (State UIImage) Task) (ls' : List (Label (Action UIImage) Env)) :
    Prop where
  | mk {ls1 : List (Label (Action UIImage) Env)} {c1 : Config (State UIImage) Task} {i k : Nat}
      {u : NewUser} {e : Env} (split : ls = ls1 ++ .serve i e :: ls')
      (run : (app UIImage).run (.init s0) ls1 = some c1)
      (hi : c1.pending[i]? = some (k, .idWrite u id)) (he : e.error = none)
      (step : (app UIImage).Step c1 (.serve i e) c) : Acked s0 ls id c ls'

/-- While a call waits for the answer to its write of `UsedIDs/<id>`, that document is written for
another call; then the first write succeeds as well. -/
inductive Overlap (s0 : State UIImage) (ls : List (Label (Action UIImage) Env))
    (id : String) : Prop where
  | mk {c : Config (State UIImage) Task} {ls' : List (Label (Action UIImage) Env)} {k : Nat}
      {u : NewUser} {e : Env} (acked : Acked s0 ls id c ls') (waiting : (k, .idWrite u id) ∈ c.pending)
      (served : Served ((app UIImage).history c ls') k (.idWrite u id) e)
      (he : e.error = none) : Overlap s0 ls id

/-- The IDs that requests in flight are about to store for hosts. -/
def pendingIDs (ts : List Task) : List String :=
  ts.filterMap fun
    | .userWrite _ user => some user.weddingID
    | _ => none

theorem pendingIDs_append (ts ts' : List Task) :
    pendingIDs (ts ++ ts') = pendingIDs ts ++ pendingIDs ts' := List.filterMap_append

theorem pendingIDs_of_newUser {ts : List Task} (h : ∀ u ∈ ts, u.newUser = none) :
    pendingIDs ts = [] := by
  rw [pendingIDs, List.filterMap_eq_nil_iff]
  intro t ht
  have hn := h t ht
  cases t with
  | userWrite uid user => simp [Task.newUser] at hn
  | authCreate | authSignIn | idRead | idWrite | saveRead | saveMain | weddingWrite | photoPut
  | photoMerge | wishWrite => rfl

theorem reserves_or_keeps {c c' : Config (State UIImage) Task} {l : Label (Action UIImage) Env}
    (h : (app UIImage).Step c l c') :
    (completedIDs c'.state = completedIDs c.state ∧ ∀ id, c'.state.used id ↔ c.state.used id) ∨
    ∃ i e k u id, l = .serve i e ∧ c.pending[i]? = some (k, .idWrite u id) ∧ e.error = none ∧
      completedIDs c'.state = id :: completedIDs c.state ∧
      ∀ id', c'.state.used id' ↔ id' = id ∨ c.state.used id' := by
  cases h with
  | act h =>
    obtain ⟨hf, _⟩ := act_signUp h
    exact .inl ⟨congrArg (List.map Prod.snd) hf.uniqueIDs, hf.used⟩
  | @serve i k t e s ts hi h =>
    cases serve_signUp h with
    | account he hu hnew hacc used user hq => exact .inl ⟨congrArg (List.map Prod.snd) hq.1, used⟩
    | readFailed he hf => exact .inl ⟨congrArg (List.map Prod.snd) hf.uniqueIDs, hf.used⟩
    | readUsed he hid hf => exact .inl ⟨congrArg (List.map Prod.snd) hf.uniqueIDs, hf.used⟩
    | readFree he hid hf => exact .inl ⟨congrArg (List.map Prod.snd) hf.uniqueIDs, hf.used⟩
    | writeFailed he hf => exact .inl ⟨congrArg (List.map Prod.snd) hf.uniqueIDs, hf.used⟩
    | @reserved u id _ he hacc used user ids users =>
      exact .inr ⟨i, e, k, u, id, rfl, hi, he, congrArg (List.map Prod.snd) ids, used⟩
    | userFailed he hf => exact .inl ⟨congrArg (List.map Prod.snd) hf.uniqueIDs, hf.used⟩
    | stored he hacc used hs ho ids users =>
      exact .inl ⟨congrArg (List.map Prod.snd) ids, used⟩
    | other ht hf hts => exact .inl ⟨congrArg (List.map Prod.snd) hf.uniqueIDs, hf.used⟩

theorem completed_of_acked {c c' : Config (State UIImage) Task} {i k : Nat} {u : NewUser}
    {id : String} {e : Env} (h : (app UIImage).Step c (.serve i e) c')
    (hi : c.pending[i]? = some (k, .idWrite u id)) (he : e.error = none) :
    completedIDs c'.state = id :: completedIDs c.state ∧ c'.state.used id := by
  cases h with
  | @serve _ _ _ _ s ts hi' h =>
    rw [hi] at hi'
    cases hi'
    have hstep : SignUpStep e c.state (.idWrite u id) s ts := serve_signUp h
    cases hstep with
    | writeFailed he' hf => exact absurd he he'
    | reserved he' hacc used user ids users =>
      exact ⟨congrArg (List.map Prod.snd) ids, (used id).mpr (.inl rfl)⟩
    | other ht hf hts => simp [Task.newUser] at ht

theorem waiting_of_step {c c' : Config (State UIImage) Task} {l : Label (Action UIImage) Env}
    (h : (app UIImage).Step c l c') {k : Nat} {u : NewUser} {id : String}
    (hm : (k, Task.idWrite u id) ∈ c'.pending) :
    (k, Task.idWrite u id) ∈ c.pending ∨ ¬ c.state.used id := by
  cases h with
  | act h =>
    obtain ⟨_, hts⟩ := act_signUp h
    rcases Config.mem_acted.mp hm with hm | ⟨_, hm⟩
    · exact .inl hm
    · have hn := hts _ hm
      simp [Task.newUser] at hn
  | serve hi h =>
    rcases Config.mem_served hm with hm | ⟨_, hm⟩
    · exact .inl hm
    · cases serve_signUp h with
      | readFree he hid hf =>
        cases List.mem_singleton.mp hm
        exact .inr hid
      | account | readUsed | reserved => cases List.mem_singleton.mp hm
      | readFailed | writeFailed | userFailed | stored => cases hm
      | other ht hf hts =>
        have hn := hts _ hm
        simp [Task.newUser] at hn

theorem used_of_step {c c' : Config (State UIImage) Task} {l : Label (Action UIImage) Env}
    (h : (app UIImage).Step c l c') {id : String} (hu : c.state.used id) : c'.state.used id := by
  rcases reserves_or_keeps h with ⟨_, hused⟩ | ⟨_, _, _, _, _, _, _, _, _, hused⟩
  · exact (hused id).mpr hu
  · exact (hused id).mpr (.inr hu)

/-- From a state in which `id` is used, only calls that are writing it already complete with it. -/
theorem waiting_of_used {c c' : Config (State UIImage) Task} {ls : List (Label (Action UIImage) Env)}
    (hr : (app UIImage).run c ls = some c') {id : String} (hu : c.state.used id) {k : Nat}
    {u : NewUser} (hm : (k, Task.idWrite u id) ∈ c'.pending) : (k, Task.idWrite u id) ∈ c.pending := by
  have key := System.invariant (I := fun c' => c'.state.used id ∧
      ∀ k u, (k, Task.idWrite u id) ∈ c'.pending → (k, Task.idWrite u id) ∈ c.pending) hr ?_ ?_
  · exact key.2 k u hm
  · exact ⟨hu, fun _ _ hm => hm⟩
  · intro c1 l c2 _ hI hs
    refine ⟨used_of_step hs hI.1, ?_⟩
    intro k u hm
    rcases waiting_of_step hs hm with hm | hn
    · exact hI.2 k u hm
    · exact absurd hI.1 hn

theorem hosts_step {c c' : Config (State UIImage) Task} {l : Label (Action UIImage) Env}
    (h : (app UIImage).Step c l c')
    (hc : ∀ id, (hostIDs c.state).count id + (pendingIDs c.tasks).count id ≤
      (completedIDs c.state).count id) (id : String) :
    (hostIDs c'.state).count id + (pendingIDs c'.tasks).count id ≤
      (completedIDs c'.state).count id := by
  have hc := hc id
  cases h with
  | act h =>
    obtain ⟨hf, hts⟩ := act_signUp h
    rw [Config.tasks_acted, pendingIDs_append, pendingIDs_of_newUser hts, List.append_nil]
    simp only [hostIDs, completedIDs, Config.acted_state, hf.createdUsers, hf.uniqueIDs] at hc ⊢
    exact hc
  | @serve i k t e s ts hi h =>
    obtain ⟨rest, hp, hts⟩ := Config.tasks_served hi s ts
    rw [hts, pendingIDs_append, List.count_append]
    have hcount : (pendingIDs c.tasks).count id =
        (pendingIDs [t]).count id + (pendingIDs rest).count id := by
      rw [← List.count_append, ← pendingIDs_append]
      exact (hp.filterMap _).count_eq id
    rw [hcount] at hc
    have hframe : Quiet c.state s → pendingIDs ts = [] →
        (hostIDs s).count id + ((pendingIDs rest).count id + (pendingIDs ts).count id) ≤
          (completedIDs s).count id := by
      intro hq he
      simp only [hostIDs, completedIDs, hq.1, hq.2, he, List.count_nil] at hc ⊢
      omega
    simp only [Config.served_state]
    cases serve_signUp h with
    | account he hu hnew hacc used user hq => exact hframe hq rfl
    | readFailed he hf => exact hframe hf.quiet rfl
    | readUsed he hid hf => exact hframe hf.quiet rfl
    | readFree he hid hf => exact hframe hf.quiet rfl
    | writeFailed he hf => exact hframe hf.quiet rfl
    | @reserved u rid _ he hacc used user ids users =>
      simp only [hostIDs, completedIDs, ids, users, List.map_cons, List.count_cons] at hc ⊢
      simp only [pendingIDs, List.filterMap_cons, List.filterMap_nil, List.count_cons,
        List.count_nil] at hc ⊢
      omega
    | userFailed he hf => exact hframe hf.quiet rfl
    | @stored uid user _ he hacc used hs ho ids users =>
      simp only [hostIDs, completedIDs, ids, users, List.map_cons, List.count_cons] at hc ⊢
      simp only [pendingIDs, List.filterMap_cons, List.filterMap_nil, List.count_cons,
        List.count_nil] at hc ⊢
      omega
    | other ht hf hts => exact hframe hf.quiet (pendingIDs_of_newUser hts)

/-- Every run: which IDs are used, and where the hosts' IDs come from. -/
theorem ids_of_run {s0 : State UIImage} (hlog : s0.log = []) {ls : List (Label (Action UIImage) Env)}
    {c : Config (State UIImage) Task} (hr : (app UIImage).run (.init s0) ls = some c) :
    (∀ id, c.state.used id ↔ s0.used id ∨ id ∈ completedIDs c.state) ∧
      ∀ id, (hostIDs c.state).count id ≤ (completedIDs c.state).count id := by
  have key := System.invariant (I := fun c =>
      (∀ id, c.state.used id ↔ s0.used id ∨ id ∈ completedIDs c.state) ∧
        ∀ id, (hostIDs c.state).count id + (pendingIDs c.tasks).count id ≤
          (completedIDs c.state).count id) hr ?_ ?_
  · exact ⟨key.1, fun id => by have := key.2 id; omega⟩
  · refine ⟨?_, ?_⟩
    · intro id; simp [Config.init, completedIDs, uniqueIDs, hlog]
    · intro id
      simp [Config.init, Config.tasks, completedIDs, uniqueIDs, hostIDs, createdUsers, pendingIDs, hlog]
  · intro c1 l c2 _ hI hs
    refine ⟨?_, hosts_step hs hI.2⟩
    intro id
    rcases reserves_or_keeps hs with ⟨hids, hused⟩ | ⟨_, _, _, _, _, _, _, _, hids, hused⟩
    · rw [hids, hused]; exact hI.1 id
    · have h1 := hI.1 id
      rw [hids, hused, h1, List.mem_cons]
      exact or_left_comm

/-- No run completes a call with an ID that was used at the start. -/
theorem fresh_of_run {s0 : State UIImage} (hlog : s0.log = [])
    {ls : List (Label (Action UIImage) Env)} {c : Config (State UIImage) Task}
    (hr : (app UIImage).run (.init s0) ls = some c) :
    ∀ id ∈ completedIDs c.state, ¬ s0.used id := by
  -- a write in flight is of an ID that was free at the start, since used IDs stay used
  have key := System.invariant (I := fun c => (∀ id, s0.used id → c.state.used id) ∧
      (∀ k u id, (k, Task.idWrite u id) ∈ c.pending → ¬ s0.used id) ∧
      ∀ id ∈ completedIDs c.state, ¬ s0.used id) hr ?_ ?_
  · exact key.2.2
  · refine ⟨fun _ hu => hu, ?_, ?_⟩
    · intro k u id hm; cases hm
    · intro id hm; simp [Config.init, completedIDs, uniqueIDs, hlog] at hm
  · rintro c1 l c2 _ ⟨hused, hwait, hfresh⟩ hs
    refine ⟨fun id hu => used_of_step hs (hused id hu), ?_, ?_⟩
    · intro k u id hm
      rcases waiting_of_step hs hm with hm | hn
      · exact hwait k u id hm
      · exact fun hu => hn (hused id hu)
    · intro id hm
      rcases reserves_or_keeps hs with ⟨hids, _⟩ | ⟨i, e, k, u, id', _, hi, _, hids, _⟩
      · rw [hids] at hm; exact hfresh id hm
      · rw [hids] at hm
        rcases List.mem_cons.mp hm with rfl | hm
        · exact hwait k u id (mem_of_getElem? hi)
        · exact hfresh id hm

section Twice

variable {s0 : State UIImage} {ls ls' : List (Label (Action UIImage) Env)}
  {c c' : Config (State UIImage) Task} {id : String}

theorem Acked.append (h : Acked s0 ls id c ls') (ls'' : List (Label (Action UIImage) Env)) :
    Acked s0 (ls ++ ls'') id c (ls' ++ ls'') := by
  obtain ⟨rfl, hr, hi, he, hs⟩ := h
  exact .mk (by simp) hr hi he hs

theorem Acked.run_rest (h : Acked s0 ls id c ls') (hr : (app UIImage).run (.init s0) ls = some c') :
    (app UIImage).run c ls' = some c' := by
  obtain ⟨rfl, hr1, hi, he, hs⟩ := h
  obtain ⟨c1, h1, h2⟩ := System.run_append.mp hr
  obtain rfl : _ = c1 := Option.some.inj (hr1.symm.trans h1)
  obtain ⟨c2, hs', hr2⟩ := System.run_cons.mp h2
  obtain rfl : c = c2 := Option.some.inj ((System.step_iff.mpr hs).symm.trans (System.step_iff.mpr hs'))
  exact hr2

theorem Overlap.append (h : Overlap s0 ls id) (hr : (app UIImage).run (.init s0) ls = some c)
    (ls' : List (Label (Action UIImage) Env)) : Overlap s0 (ls ++ ls') id := by
  obtain ⟨hack, hw, hserved, he⟩ := h
  refine .mk (hack.append ls') hw ?_ he
  rw [System.history_append (hack.run_rest hr)]
  exact hserved.mono fun x hx => List.mem_append_left _ hx

theorem acked_of_completed (hlog : s0.log = []) (hr : (app UIImage).run (.init s0) ls = some c)
    (hid : id ∈ completedIDs c.state) : ∃ c1 ls1, Acked s0 ls id c1 ls1 := by
  refine System.prefix_rule (I := fun ls c =>
    id ∈ completedIDs c.state → ∃ c1 ls1, Acked s0 ls id c1 ls1) hr ?_ ?_ hid
  · intro hm; simp [Config.init, completedIDs, uniqueIDs, hlog] at hm
  · intro ls1 c1 l c2 hr1 _ hI hs hm
    rcases reserves_or_keeps hs with ⟨hids, _⟩ | ⟨i, e, k, u, id', rfl, hi, he, hids, _⟩
    · rw [hids] at hm
      obtain ⟨c3, ls3, hack⟩ := hI hm
      exact ⟨c3, _, hack.append [l]⟩
    · rw [hids] at hm
      rcases List.mem_cons.mp hm with rfl | hm
      · exact ⟨c2, [], .mk rfl hr1 hi he hs⟩
      · obtain ⟨c3, ls3, hack⟩ := hI hm
        exact ⟨c3, _, hack.append _⟩

/-- A call completes with an ID that another has completed with only in an overlap. -/
theorem overlap_of_again (hlog : s0.log = []) (hr : (app UIImage).run (.init s0) ls = some c)
    {i k : Nat} {u : NewUser} {e : Env} (hs : (app UIImage).Step c (.serve i e) c')
    (hi : c.pending[i]? = some (k, .idWrite u id)) (he : e.error = none)
    (hid : id ∈ completedIDs c.state) : Overlap s0 (ls ++ [.serve i e]) id := by
  obtain ⟨c1, ls1, hack⟩ := acked_of_completed hlog hr hid
  have hr1 := hack.run_rest hr
  have hused : c1.state.used id := by
    obtain ⟨_, _, hi1, he1, hs1⟩ := hack
    exact (completed_of_acked hs1 hi1 he1).2
  refine .mk (hack.append _) (waiting_of_used hr1 hused (mem_of_getElem? hi)) ?_ he
  rw [System.history_concat hr1 hs]
  exact ⟨c, i, List.mem_append_right _ (List.mem_singleton.mpr rfl), hi⟩

theorem completed_mono (hr : (app UIImage).run c ls = some c') (id : String) :
    (completedIDs c.state).count id ≤ (completedIDs c'.state).count id := by
  refine System.invariant (I := fun c' =>
    (completedIDs c.state).count id ≤ (completedIDs c'.state).count id) hr le_rfl ?_
  intro c1 l c2 _ hI hs
  rcases reserves_or_keeps hs with ⟨hids, _⟩ | ⟨_, _, _, _, id', _, _, _, hids, _⟩
  · rw [hids]; exact hI
  · rw [hids]
    exact Nat.le_trans hI List.count_le_count_cons

theorem again_of_overlap (hr : (app UIImage).run (.init s0) ls = some c) (h : Overlap s0 ls id) :
    2 ≤ (completedIDs c.state).count id := by
  obtain @⟨c0, _, _, _, _, hack, _, ⟨c1, i, hm, hi⟩, he⟩ := h
  have hr' := hack.run_rest hr
  have hfirst : 1 ≤ (completedIDs c0.state).count id := by
    obtain ⟨_, _, hi0, he0, hs0⟩ := hack
    rw [(completed_of_acked hs0 hi0 he0).1, List.count_cons_self]
    omega
  obtain ⟨ls1, ls2, c2, _, hr1, hs, hr2⟩ := System.history_split hr' hm
  have hsecond := completed_mono hr1 id
  have hlast := completed_mono hr2 id
  rw [(completed_of_acked hs hi he).1, List.count_cons_self] at hlast
  omega

/-- Exactly the runs without an overlap keep the completed IDs distinct. -/
theorem nodup_iff_no_overlap (hlog : s0.log = []) (hr : (app UIImage).run (.init s0) ls = some c) :
    (completedIDs c.state).Nodup ↔ ∀ id, ¬ Overlap s0 ls id := by
  constructor
  · intro hn id h
    have h1 := List.nodup_iff_count_le_one.mp hn id
    have h2 := again_of_overlap hr h
    omega
  · intro hno
    refine System.prefix_rule (I := fun _ c => (completedIDs c.state).Nodup) hr ?_ ?_
    · simp [Config.init, completedIDs, uniqueIDs, hlog]
    · intro ls1 c1 l c2 hr1 hp hI hs
      rcases reserves_or_keeps hs with ⟨hids, _⟩ | ⟨i, e, k, u, id, rfl, hi, he, hids, _⟩
      · rw [hids]; exact hI
      · rw [hids, List.nodup_cons]
        refine ⟨?_, hI⟩
        intro hid
        obtain ⟨ls2, rfl⟩ := hp
        exact hno id ((overlap_of_again hlog hr1 hs hi he hid).append
          (System.run_concat.mpr ⟨c1, hr1, hs⟩) ls2)

end Twice

/-- No call completes with an ID that was used at the start, and IDs are unique exactly in the runs
in which no write of an ID is answered in the window of another call. -/
theorem unique_iff_no_overlap {s0 : State UIImage} (hlog : s0.log = [])
    {ls : List (Label (Action UIImage) Env)} {c : Config (State UIImage) Task}
    (hr : (app UIImage).run (.init s0) ls = some c) :
    (∀ id ∈ completedIDs c.state, ¬ s0.used id) ∧
      (IDsUnique s0 c.state ↔ ∀ id, ¬ Overlap s0 ls id) := by
  have hfresh := fresh_of_run hlog hr
  refine ⟨hfresh, ?_⟩
  rw [← nodup_iff_no_overlap hlog hr]
  constructor
  · intro h; exact h.completions
  · intro hn
    refine ⟨hn, hfresh, List.nodup_iff_count_le_one.mpr fun id => ?_⟩
    have h1 := (ids_of_run hlog hr).2 id
    have h2 := List.nodup_iff_count_le_one.mp hn id
    omega

def signUpTaps (d : DeviceID) (email : String) : List (Label (Action Data) Env) :=
  [.act (.editAuth d ⟨email, "aaaaaa", "aaaaaa", "+90", "1111111111"⟩) .ok, .act (.tapSignUp d) .ok]

def drawing (uid : UID) (n : Fin 10000) : Env := { Env.ok with newID := uid, random := n }

/-- Two hosts sign up at once; every request of the first is served just before the same request of
the second. -/
def twoSignUps (n n' : Fin 10000) : List (Label (Action Data) Env) :=
  signUpTaps 0 "a@a.com" ++ signUpTaps 1 "b@b.com" ++
    [.serve 0 (drawing "A" n), .serve 0 (drawing "B" n'), .serve 0 .ok, .serve 0 .ok, .serve 0 .ok,
      .serve 0 .ok, .serve 0 .ok, .serve 0 .ok]

theorem unique_of_distinct_draws :
    ∃ c, (app Data).run (.init (State.new Data)) (twoSignUps 7 8) = some c ∧
      ∀ id, ¬ Overlap (State.new Data) (twoSignUps 7 8) id := by
  have h : ((app Data).run (.init (State.new Data)) (twoSignUps 7 8)).map
      (fun c => (completedIDs c.state, hostIDs c.state)) =
        some (["0008", "0007"], ["0008", "0007"]) := by decide
  obtain ⟨c, hr, hc⟩ := Option.map_eq_some_iff.mp h
  simp only [Prod.mk.injEq] at hc
  refine ⟨c, hr, (unique_iff_no_overlap rfl hr).2.mp ⟨?_, ?_, ?_⟩⟩
  · rw [hc.1]; decide
  · intro id _; simp [State.used, State.new]
  · rw [hc.2]; decide

/-- Both reads find `0007` free, both writes succeed, and both hosts get `0007`. -/
theorem same_draw_collides :
    ∃ c, (app Data).run (.init (State.new Data)) (twoSignUps 7 7) = some c ∧
      ¬ IDsUnique (State.new Data) c.state := by
  have h : ((app Data).run (.init (State.new Data)) (twoSignUps 7 7)).map
      (fun c => (completedIDs c.state, hostIDs c.state)) =
        some (["0007", "0007"], ["0007", "0007"]) := by decide
  obtain ⟨c, hr, hc⟩ := Option.map_eq_some_iff.mp h
  simp only [Prod.mk.injEq] at hc
  refine ⟨c, hr, ?_⟩
  intro hu
  have hn := hu.hosts
  rw [hc.2] at hn
  exact absurd hn (by decide)

end WeddApp
