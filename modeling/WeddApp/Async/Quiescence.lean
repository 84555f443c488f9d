import Mathlib.Logic.Hydra
import WeddApp.Async.Network

/-!
# Async.Quiescence

Programs whose work ends. A callback may leave any number of others pending; a rank that falls from a
callback to the ones that it leaves bounds the work nevertheless, since the pool of pending callbacks
falls in the multiset order.

* `Ranked`: the rank falls, except where a callback tries again (`again`).
* `Endless`: an infinite run. In it there are infinitely many actions or new attempts
  (`again_or_acts`).
* `Network.ranked`: the rank of a network, from the ranks of the server and of the client.
-/

namespace Async

universe u

variable {σ τ α ε : Type u}

/-- The rank falls from a callback to those that it leaves pending, unless it tries again. -/
def System.Ranked (S : System σ τ α ε) (rank : τ → Nat) (again : τ → ε → σ → Prop) : Prop :=
  ∀ {t e s s' ts}, S.serve t e s = some (s', ts) → ¬ again t e s → ∀ u ∈ ts, rank u < rank t

structure System.Endless (S : System σ τ α ε) (c : Nat → Config σ τ) (l : Nat → Label α ε) : Prop where
  step : ∀ n, S.Step (c n) (l n) (c (n + 1))

def Again (again : τ → ε → σ → Prop) (c : Config σ τ) (l : Label α ε) : Prop :=
  ∃ i k t e, l = .serve i e ∧ c.pending[i]? = some (k, t) ∧ again t e c.state

section Rank

variable {S : System σ τ α ε} {rank : τ → Nat} {again : τ → ε → σ → Prop}

def Config.ranks (rank : τ → Nat) (c : Config σ τ) : Multiset Nat := (c.tasks.map rank : List Nat)

theorem ranks_served (hrank : S.Ranked rank again) {c : Config σ τ} {i k : Nat} {t : τ} {e : ε}
    {s : σ} {ts : List τ} (hi : c.pending[i]? = some (k, t))
    (h : S.serve t e c.state = some (s, ts)) (hagain : ¬ again t e c.state) :
    Relation.CutExpand (· < ·) ((c.served i k s ts).ranks rank) (c.ranks rank) := by
  obtain ⟨rest, hperm, htasks⟩ := Config.tasks_served hi s ts
  refine ⟨(ts.map rank : List Nat), rank t, fun n hn => ?_, ?_⟩
  · obtain ⟨u, hu, rfl⟩ := List.mem_map.mp (Multiset.mem_coe.mp hn)
    exact hrank h hagain u hu
  · have hold : c.ranks rank = ((rank t :: rest.map rank : List Nat) : Multiset Nat) :=
      Multiset.coe_eq_coe.mpr (hperm.map rank)
    rw [hold, Config.ranks, htasks, List.map_append, ← Multiset.coe_add, ← Multiset.cons_coe,
      ← Multiset.singleton_add]
    exact (Multiset.add_comm _ _).trans (Multiset.add_assoc _ _ _).symm

theorem ranks_step (hrank : S.Ranked rank again) {c c' : Config σ τ} {l : Label α ε}
    (hs : S.Step c l c') (hact : ∀ a e, l ≠ .act a e) (hagain : ¬ Again again c l) :
    Relation.CutExpand (· < ·) (c'.ranks rank) (c.ranks rank) := by
  cases hs with
  | @act a e _ _ _ => exact absurd rfl (hact a e)
  | @serve i k t e s ts hi h =>
    exact ranks_served hrank hi h fun hag => hagain ⟨i, k, t, e, rfl, hi, hag⟩

/-- In an infinite run there is always another action or another new attempt to come. -/
theorem again_or_acts (hrank : S.Ranked rank again) {c : Nat → Config σ τ} {l : Nat → Label α ε}
    (hrun : S.Endless c l) (n : Nat) :
    ∃ m, n ≤ m ∧ ((∃ a e, l m = .act a e) ∨ Again again (c m) (l m)) := by
  by_contra hno
  have hfall : ∀ j, Relation.CutExpand (· < ·) ((c (n + (j + 1))).ranks rank)
      ((c (n + j)).ranks rank) := by
    intro j
    refine ranks_step hrank (hrun.step (n + j)) (fun a e hl => ?_) fun hagain => ?_
    · exact hno ⟨n + j, Nat.le_add_right n j, .inl ⟨a, e, hl⟩⟩
    · exact hno ⟨n + j, Nat.le_add_right n j, .inr hagain⟩
  have hwf : IsWellFounded (Multiset Nat) (Relation.CutExpand (· < ·)) :=
    ⟨WellFounded.cutExpand wellFounded_lt⟩
  obtain ⟨j, hj⟩ := WellFounded.not_rel_apply_succ (h := hwf) fun j => (c (n + j)).ranks rank
  exact hj (hfall j)

end Rank

namespace Network

variable {σ' τ' α' ε' : Type u} {S : System σ τ α ε} {C : System σ' τ' α' ε'} {L : Link σ τ' ε ε'}
  {rank : τ → Nat} {again : τ → ε → σ → Prop} {rank' : τ' → Nat} {again' : τ' → ε' → σ' → Prop}

/-- A request outranks its reply, which outranks what the client sends next. -/
def jobRank (rank : τ → Nat) (rank' : τ' → Nat) : Job τ τ' ε' → Nat
  | .server t => rank t
  | .request t => 2 * rank' t + 1
  | .reply t _ => 2 * rank' t

def jobAgain (again : τ → ε → σ → Prop) (again' : τ' → ε' → σ' → Prop) :
    Job τ τ' ε' → ε → Joint σ σ' → Prop
  | .server t, e, s => again t e s.server
  | .request _, _, _ => False
  | .reply t r, _, s => again' t r s.client

theorem ranked (hS : S.Ranked rank again) (hC : C.Ranked rank' again') :
    (network S C L).Ranked (jobRank rank rank') (jobAgain again again') := by
  intro j e s s' js h hagain u hu
  cases serves_of_serve h with
  | server hs =>
    obtain ⟨v, hv, rfl⟩ := List.mem_map.mp hu
    exact hS hs hagain v hv
  | answers =>
    rw [List.mem_singleton.mp hu]
    simp [jobRank]
  | delivers ht =>
    obtain ⟨v, hv, rfl⟩ := List.mem_map.mp hu
    have hlt := hC ht hagain v hv
    simp only [jobRank]
    omega

end Network

end Async
