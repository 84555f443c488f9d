import WeddApp.Async.Projection
import WeddApp.Async.Register

/-!
# Async.Network

A client that asks a server. Each is a system of its own. In their network the server runs as it does
alone; what the client leaves pending are requests to the server. A request is answered from the state
that the server is in at that time, and the reply is delivered to the client later, when the server
may have moved on.

* `Job`: a callback of the server, a request on its way, or a reply on its way back.
* `Link`: what the server answers.
* `network`, with `Acts` and `Serves` as its inversion.
* `Replied`: the server gave this reply to this request.
* `client_of_run`: the client's part of a run is a run of the client alone, which is delivered only
  replies that the server gave.
* `server_of_run`: the server's part of a run is a run of the server alone.
* `left_server`: a callback of the server was left by the server.
* `Register.onServer`: a register of the server is one of the network.
-/

namespace Async

universe u

structure Joint (σ σ' : Type u) where
  server : σ
  client : σ'

inductive Job (τ τ' ε' : Type u) where
  | server (t : τ)
  | request (t : τ')
  | reply (t : τ') (r : ε')

structure Link (σ τ' ε ε' : Type u) where
  answer : τ' → ε → σ → ε'
  /-- What an action of the client reads. -/
  ambient : ε → ε'

variable {σ τ α ε σ' τ' α' ε' : Type u}

/-- The callback of the client that a job is for. -/
def Job.client : Job τ τ' ε' → Option τ'
  | .server _ => none
  | .request t | .reply t _ => some t

def network (S : System σ τ α ε) (C : System σ' τ' α' ε') (L : Link σ τ' ε ε') :
    System (Joint σ σ') (Job τ τ' ε') (α ⊕ α') ε where
  act a e s :=
    match a with
    | .inl a =>
      match S.act a e s.server with
      | none => none
      | some (server, ts) => some (⟨server, s.client⟩, ts.map .server)
    | .inr a =>
      match C.act a (L.ambient e) s.client with
      | none => none
      | some (client, ts) => some (⟨s.server, client⟩, ts.map .request)
  serve j e s :=
    match j with
    | .server t =>
      match S.serve t e s.server with
      | none => none
      | some (server, ts) => some (⟨server, s.client⟩, ts.map .server)
    | .request t => some (s, [.reply t (L.answer t e s.server)])
    | .reply t r =>
      match C.serve t r s.client with
      | none => none
      | some (client, ts) => some (⟨s.server, client⟩, ts.map .request)

namespace Network

section Step

variable (S : System σ τ α ε) (C : System σ' τ' α' ε') (L : Link σ τ' ε ε')

inductive Acts (e : ε) (s : Joint σ σ') : α ⊕ α' → Joint σ σ' → List (Job τ τ' ε') → Prop where
  | server {a : α} {server : σ} {ts : List τ} (h : S.act a e s.server = some (server, ts)) :
      Acts e s (.inl a) ⟨server, s.client⟩ (ts.map .server)
  | client {a : α'} {client : σ'} {ts : List τ'}
      (h : C.act a (L.ambient e) s.client = some (client, ts)) :
      Acts e s (.inr a) ⟨s.server, client⟩ (ts.map .request)

inductive Serves (e : ε) (s : Joint σ σ') :
    Job τ τ' ε' → Joint σ σ' → List (Job τ τ' ε') → Prop where
  | server {t : τ} {server : σ} {ts : List τ} (h : S.serve t e s.server = some (server, ts)) :
      Serves e s (.server t) ⟨server, s.client⟩ (ts.map .server)
  | answers {t : τ'} : Serves e s (.request t) s [.reply t (L.answer t e s.server)]
  | delivers {t : τ'} {r : ε'} {client : σ'} {ts : List τ'}
      (h : C.serve t r s.client = some (client, ts)) :
      Serves e s (.reply t r) ⟨s.server, client⟩ (ts.map .request)

variable {S C L} {s s' : Joint σ σ'} {e : ε} {js : List (Job τ τ' ε')}

theorem acts_of_act {a : α ⊕ α'} (h : (network S C L).act a e s = some (s', js)) :
    Acts S C L e s a s' js := by
  cases a with
  | inl a =>
    simp only [network] at h
    split at h
    · cases h
    · rename_i ha
      cases h
      exact .server ha
  | inr a =>
    simp only [network] at h
    split at h
    · cases h
    · rename_i ha
      cases h
      exact .client ha

theorem serves_of_serve {j : Job τ τ' ε'} (h : (network S C L).serve j e s = some (s', js)) :
    Serves S C L e s j s' js := by
  cases j with
  | server t =>
    simp only [network] at h
    split at h
    · cases h
    · rename_i ht
      cases h
      exact .server ht
  | request t =>
    cases h
    exact .answers
  | reply t r =>
    simp only [network] at h
    split at h
    · cases h
    · rename_i ht
      cases h
      exact .delivers ht

end Step

section Lists

theorem client_server (ts : List τ) :
    (ts.map (Job.server : τ → Job τ τ' ε')).filterMap Job.client = [] := by
  rw [List.filterMap_map, List.filterMap_eq_nil_iff]
  intro t _
  rfl

theorem client_request (ts : List τ') :
    (ts.map (Job.request : τ' → Job τ τ' ε')).filterMap Job.client = ts := by
  rw [List.filterMap_map]
  exact List.filterMap_some

end Lists

section Run

variable (L : Link σ τ' ε ε')

/-- The server answered the request `t` with `r`, in configuration `c`. -/
def RepliedAt (h : List (Config (Joint σ σ') (Job τ τ' ε') × Label (α ⊕ α') ε))
    (c : Config (Joint σ σ') (Job τ τ' ε')) (t : τ') (r : ε') : Prop :=
  ∃ k e, ServedAt h c k (.request t) e ∧ r = L.answer t e c.state.server

def Replied (h : List (Config (Joint σ σ') (Job τ τ' ε') × Label (α ⊕ α') ε)) (t : τ') (r : ε') :
    Prop :=
  ∃ c, RepliedAt L h c t r

variable {L} {S : System σ τ α ε} {C : System σ' τ' α' ε'}
  {h h' : List (Config (Joint σ σ') (Job τ τ' ε') × Label (α ⊕ α') ε)}
  {c c' : Config (Joint σ σ') (Job τ τ' ε')} {l : Label (α ⊕ α') ε}

theorem RepliedAt.mono {t : τ'} {r : ε'} (hr : RepliedAt L h c t r) (hh : ∀ x ∈ h, x ∈ h') :
    RepliedAt L h' c t r := by
  obtain ⟨k, e, ⟨i, hm, hi⟩, he⟩ := hr
  exact ⟨k, e, ⟨i, hh _ hm, hi⟩, he⟩

theorem Replied.append {t : τ'} {r : ε'} (hr : Replied L h t r) : Replied L (h ++ h') t r := by
  obtain ⟨c, hc⟩ := hr
  exact ⟨c, hc.mono fun x hx => List.mem_append_left _ hx⟩

/-- The client sees the network as its own run `ls'` to `d`. -/
structure ClientSide (C : System σ' τ' α' ε') (L : Link σ τ' ε ε') (client : σ')
    (h : List (Config (Joint σ σ') (Job τ τ' ε') × Label (α ⊕ α') ε))
    (c : Config (Joint σ σ') (Job τ τ' ε')) (ls' : List (Label α' ε')) (d : Config σ' τ') :
    Prop where
  run : C.run (.init client) ls' = some d
  state : d.state = c.state.client
  tasks : d.tasks.Perm (c.tasks.filterMap Job.client)
  replied : ∀ k t r, Served (C.history (.init client) ls') k t r → Replied L h t r
  pending : ∀ t r, .reply t r ∈ c.tasks → Replied L h t r

namespace ClientSide

variable {client : σ'} {ls' : List (Label α' ε')} {d : Config σ' τ'}

theorem stutter (hI : ClientSide C L client h c ls' d)
    (hstate : c'.state.client = c.state.client)
    (htasks : (c.tasks.filterMap Job.client).Perm (c'.tasks.filterMap Job.client))
    (hpend : ∀ t r, .reply t r ∈ c'.tasks → Replied L (h ++ [(c, l)]) t r) :
    ClientSide C L client (h ++ [(c, l)]) c' ls' d where
  run := hI.run
  state := hI.state.trans hstate.symm
  tasks := hI.tasks.trans htasks
  replied k t r hs := (hI.replied k t r hs).append
  pending := hpend

theorem act {a : α'} {e : ε} {s : σ'} {ts : List τ'} (hI : ClientSide C L client h c ls' d)
    (ha : C.act a (L.ambient e) c.state.client = some (s, ts)) :
    ClientSide C L client (h ++ [(c, .act (.inr a) e)])
      (c.acted ⟨c.state.server, s⟩ (ts.map .request)) (ls' ++ [.act a (L.ambient e)])
      (d.acted s ts) := by
  rw [← hI.state] at ha
  have hstep : C.Step d (.act a (L.ambient e)) (d.acted s ts) := .act ha
  refine ⟨System.run_concat.mpr ⟨d, hI.run, hstep⟩, rfl, ?_, fun k t r hs => ?_, fun t r hm => ?_⟩
  · rw [Config.tasks_acted, Config.tasks_acted, List.filterMap_append, client_request]
    exact hI.tasks.append_right _
  · rw [System.history_concat hI.run hstep] at hs
    rcases served_append.mp hs with hs | hs
    · exact (hI.replied k t r hs).append
    · exact absurd hs served_act
  · rw [Config.tasks_acted, List.mem_append] at hm
    rcases hm with hm | hm
    · exact (hI.pending t r hm).append
    · obtain ⟨_, _, hu⟩ := List.mem_map.mp hm
      cases hu

theorem deliver {i k : Nat} {t : τ'} {r : ε'} {e : ε} {s : σ'} {ts : List τ'}
    (hI : ClientSide C L client h c ls' d) (hi : c.pending[i]? = some (k, .reply t r))
    (ht : C.serve t r c.state.client = some (s, ts)) :
    ∃ j d', ClientSide C L client (h ++ [(c, .serve i e)])
      (c.served i k ⟨c.state.server, s⟩ (ts.map .request)) (ls' ++ [.serve j r]) d' := by
  obtain ⟨rest, hperm, hts⟩ := Config.tasks_served hi ⟨c.state.server, s⟩ (ts.map Job.request)
  have hmem : Job.reply t r ∈ c.tasks := hperm.mem_iff.mpr List.mem_cons_self
  -- the client alone has the callback pending as well, at some position
  have htask : d.tasks.Perm (t :: rest.filterMap Job.client) := hI.tasks.trans (hperm.filterMap _)
  obtain ⟨j, hj⟩ := List.mem_iff_getElem?.mp (htask.mem_iff.mpr List.mem_cons_self)
  obtain ⟨⟨k', t'⟩, hd, hu⟩ : ∃ x, d.pending[j]? = some x ∧ x.2 = t := by
    rw [Config.tasks, List.getElem?_map, Option.map_eq_some_iff] at hj
    exact hj
  subst hu
  rw [← hI.state] at ht
  have hstep : C.Step d (.serve j r) (d.served j k' s ts) := .serve hd ht
  obtain ⟨rest', hperm', hts'⟩ := Config.tasks_served hd s ts
  refine ⟨j, d.served j k' s ts, System.run_concat.mpr ⟨d, hI.run, hstep⟩, rfl, ?_,
    fun k t r hs => ?_, fun t r hm => ?_⟩
  · rw [hts, hts', List.filterMap_append, client_request]
    exact (List.Perm.cons_inv (hperm'.symm.trans htask)).append_right _
  · rw [System.history_concat hI.run hstep] at hs
    rcases served_append.mp hs with hs | hs
    · exact (hI.replied k t r hs).append
    · obtain ⟨_, rfl, rfl⟩ := (served_serve hd).mp hs
      exact (hI.pending _ _ hmem).append
  · rw [hts, List.mem_append] at hm
    rcases hm with hm | hm
    · exact (hI.pending t r (hperm.mem_iff.mpr (List.mem_cons_of_mem _ hm))).append
    · obtain ⟨_, _, hu⟩ := List.mem_map.mp hm
      cases hu

theorem step (hI : ClientSide C L client h c ls' d) (hs : (network S C L).Step c l c') :
    ∃ ls'' d', ClientSide C L client (h ++ [(c, l)]) c' ls'' d' := by
  cases hs with
  | act ha =>
    cases acts_of_act ha with
    | server _ =>
      refine ⟨ls', d, hI.stutter rfl ?_ fun t r hm => ?_⟩
      · rw [Config.tasks_acted, List.filterMap_append, client_server, List.append_nil]
      · rw [Config.tasks_acted, List.mem_append] at hm
        rcases hm with hm | hm
        · exact (hI.pending t r hm).append
        · obtain ⟨_, _, hu⟩ := List.mem_map.mp hm
          cases hu
    | client hc => exact ⟨_, _, hI.act hc⟩
  | @serve i k j e s js hi ha =>
    obtain ⟨rest, hperm, hts⟩ := Config.tasks_served hi s js
    have hold : ∀ t r, Job.reply t r ∈ rest → Replied L (h ++ [(c, .serve i e)]) t r :=
      fun t r hm => (hI.pending t r (hperm.mem_iff.mpr (List.mem_cons_of_mem _ hm))).append
    cases serves_of_serve ha with
    | server _ =>
      refine ⟨ls', d, hI.stutter rfl ?_ fun t r hm => ?_⟩
      · rw [hts, List.filterMap_append, client_server, List.append_nil]
        exact hperm.filterMap Job.client
      · rw [hts, List.mem_append] at hm
        rcases hm with hm | hm
        · exact hold t r hm
        · obtain ⟨_, _, hu⟩ := List.mem_map.mp hm
          cases hu
    | @answers t =>
      refine ⟨ls', d, hI.stutter rfl ?_ fun t' r hm => ?_⟩
      · rw [hts, List.filterMap_append]
        exact (hperm.filterMap Job.client).trans (List.perm_append_singleton _ _).symm
      · rw [hts, List.mem_append, List.mem_singleton] at hm
        rcases hm with hm | hm
        · exact hold t' r hm
        · cases hm
          exact ⟨c, k, e, ⟨i, List.mem_append_right _ (List.mem_singleton_self _), hi⟩, rfl⟩
    | delivers ht =>
      obtain ⟨j, d', h'⟩ := hI.deliver hi ht
      exact ⟨_, d', h'⟩

end ClientSide

/-- The client's part of a run is a run of the client alone. -/
theorem client_of_run {s : Joint σ σ'} {ls : List (Label (α ⊕ α') ε)}
    (hr : (network S C L).run (.init s) ls = some c) :
    ∃ ls' d, ClientSide C L s.client ((network S C L).history (.init s) ls) c ls' d := by
  refine System.run_rule (I := fun h c => ∃ ls' d, ClientSide C L s.client h c ls' d) hr ?_ ?_
  · refine ⟨[], .init s.client, rfl, rfl, List.Perm.refl _, ?_, nofun⟩
    rintro k t r ⟨_, _, hm, _⟩
    cases hm
  · rintro h c1 l c2 _ ⟨ls', d, hI⟩ hs
    exact hI.step hs

theorem RepliedAt.client {s : Joint σ σ'} {ls : List (Label (α ⊕ α') ε)} {t : τ'} {r : ε'}
    (hr : (network S C L).run (.init s) ls = some c)
    (hrep : RepliedAt L ((network S C L).history (.init s) ls) c' t r) :
    ∃ ls1 ls2 ls' d, ls = ls1 ++ ls2 ∧ (network S C L).run (.init s) ls1 = some c' ∧
      (network S C L).run c' ls2 = some c ∧
      ClientSide C L s.client ((network S C L).history (.init s) ls1) c' ls' d ∧ t ∈ d.tasks := by
  obtain ⟨k, e, ⟨i, hm, hi⟩, _⟩ := hrep
  obtain ⟨ls1, ls2, c2, hls, hr1, hs, hr2⟩ := System.history_split hr hm
  obtain ⟨ls', d, hd⟩ := client_of_run hr1
  refine ⟨ls1, .serve i e :: ls2, ls', d, hls, hr1, System.run_cons.mpr ⟨c2, hs, hr2⟩, hd, ?_⟩
  refine hd.tasks.mem_iff.mpr (List.mem_filterMap.mpr ⟨.request t, ?_, rfl⟩)
  exact List.mem_map.mpr ⟨_, mem_of_getElem? hi, rfl⟩

end Run

section Server

variable (S : System σ τ α ε) (C : System σ' τ' α' ε') (L : Link σ τ' ε ε')

def serverView : Projection (network S C L) S (fun _ => True) fun _ => True where
  view := Joint.server
  own
    | .server t => some t
    | .request _ | .reply _ _ => none
  taken a e _ :=
    match a with
    | .inl a => some (a, e)
    | .inr _ => none
  started _ _ _ := none
  reads _ e _ := e
  act _ h := by
    refine ⟨?_, fun _ _ => trivial⟩
    cases acts_of_act h with
    | server hs =>
      rw [List.filterMap_map]
      exact hs.trans (congrArg (fun ts => some (_, ts)) List.filterMap_some.symm)
    | client _ => exact ⟨rfl, by rw [List.filterMap_map, List.filterMap_eq_nil_iff]; exact fun _ _ => rfl⟩
  serve_own _ _ h ht := by
    cases serves_of_serve h with
    | server hs =>
      cases ht
      rw [List.filterMap_map]
      exact hs.trans (congrArg (fun ts => some (_, ts)) List.filterMap_some.symm)
    | answers | delivers _ => cases ht
  serve_other _ _ h ht := by
    cases serves_of_serve h with
    | server _ => cases ht
    | answers => exact ⟨rfl, rfl⟩
    | delivers _ => exact ⟨rfl, by rw [List.filterMap_map, List.filterMap_eq_nil_iff]; exact fun _ _ => rfl⟩
  serve_tasks _ _ _ _ _ := trivial

variable {S C L} {s : Joint σ σ'} {ls : List (Label (α ⊕ α') ε)} {c : Config (Joint σ σ') (Job τ τ' ε')}

/-- The server's part of a run is a run of the server alone. -/
theorem server_of_run (hr : (network S C L).run (.init s) ls = some c) :
    ∃ d, S.run (.init s.server) ((serverView S C L).labels ((network S C L).history (.init s) ls)) =
      some d ∧ d.state = c.state.server := by
  obtain ⟨d, hd, hf⟩ := Projection.sees_of_run (P := serverView S C L) hr
    (d := .init s.server) ⟨rfl, rfl, fun _ _ => trivial⟩ fun _ _ => trivial
  exact ⟨d, hd, hf.state⟩

theorem left_server {h : List (Config (Joint σ σ') (Job τ τ' ε') × Label (α ⊕ α') ε)} {k : Nat}
    {t : τ} (hl : (network S C L).Left h k (.server t)) :
    (∃ c a e s ts, (c, .act (.inl a) e) ∈ h ∧ c.clock = k ∧
      S.act a e c.state.server = some (s, ts) ∧ t ∈ ts) ∨
    ∃ c u e s ts, ServedAt h c k (.server u) e ∧ S.serve u e c.state.server = some (s, ts) ∧
      t ∈ ts := by
  cases hl with
  | act hm hk ha ht =>
    cases acts_of_act ha with
    | server hs =>
      obtain ⟨_, ht, he⟩ := List.mem_map.mp ht
      cases he
      exact .inl ⟨_, _, _, _, _, hm, hk, hs, ht⟩
    | client _ =>
      obtain ⟨_, _, he⟩ := List.mem_map.mp ht
      cases he
  | serve hu ha ht =>
    cases serves_of_serve ha with
    | server hs =>
      obtain ⟨_, ht, he⟩ := List.mem_map.mp ht
      cases he
      exact .inr ⟨_, _, _, _, _, hu, hs, ht⟩
    | answers => cases List.mem_singleton.mp ht
    | delivers _ =>
      obtain ⟨_, _, he⟩ := List.mem_map.mp ht
      cases he

end Server

end Network

def Register.onServer {S : System σ τ α ε} {ν : Type u} (R : Register S ν)
    (C : System σ' τ' α' ε') (L : Link σ τ' ε ε') : Register (network S C L) ν where
  val s := R.val s.server
  writes j e :=
    match j with
    | .server t => R.writes t e
    | .request _ | .reply _ _ => none
  act h := by
    cases Network.acts_of_act h with
    | server hs => exact R.act hs
    | client _ => rfl
  serve h := by
    cases Network.serves_of_serve h with
    | server hs => exact R.serve hs
    | answers | delivers _ => rw [Option.none_or]

end Async
