import WeddApp.Async.Quiescence
import WeddApp.Guests.Live
import WeddApp.SignUp.Retry

/-!
# Guests.Rest

The work of the app ends. Whatever hosts and guests have started, and in whatever order it is answered,
the callbacks run out once nobody touches the devices, with one exception: `generateUniqueID` draws
again for as long as the IDs that it draws are used (`live_rests`).
-/

namespace WeddApp

open Async

variable {UIImage : Type}

/-- How many callbacks at most are to follow one after another. -/
def Task.rank : Task → Nat
  | .authCreate _ _ _ => 4
  | .idRead _ _ => 3
  | .idWrite _ _ => 2
  | .userWrite _ _ => 1
  | .saveRead _ _ => 4
  | .saveMain _ _ _ => 3
  | .photoPut _ => 2
  | .photoMerge _ => 1
  | .authSignIn _ _ _ | .weddingWrite _ _ | .wishWrite _ _ _ => 0

/-- `generateUniqueID` finds that the ID is used. -/
def FoundUsed (t : Task) (e : Env) (s : State UIImage) : Prop :=
  ∃ u id, t = .idRead u id ∧ e.error = none ∧ s.used id

theorem app_ranked [UIKit UIImage] : (app UIImage).Ranked Task.rank FoundUsed := by
  intro t e s s' ts h hagain u hu
  cases serve_signUp h with
  | account | readFree | reserved => rw [List.mem_singleton.mp hu]; simp [Task.rank]
  | readUsed he hid _ => exact absurd ⟨_, _, rfl, he, hid⟩ hagain
  | readFailed | writeFailed | userFailed | stored => cases hu
  | other _ _ hts =>
    cases serve_sends h hu with
    | signUp _ hn => exact absurd (hts u hu) hn
    | main | wedding | put | merge => simp [Task.rank]

namespace Reads

def Request.rank : Request UIImage → Nat
  | .imageDocument _ _ _ | .galleryDocument _ _ => 4
  | .imageData _ _ => 3
  | .imageMain _ _ => 2
  | .userDocument _ _ | .galleryNotify _ => 1
  | .weddingDocument _ _ | .guestDocuments _ _ | .weddingIDMain _ _ _ | .galleryMain _ => 0

theorem reads_ranked [UIKit UIImage] :
    (reads UIImage).Ranked Request.rank fun _ _ _ => False := by
  intro t reply s s' ts h _ u hu
  cases serve_sends h hu with
  | image | gallery | decode | weddingID | main => simp [Request.rank]
  | notify ht =>
    rcases ht with ⟨id, rfl⟩ | ht
    · simp [Request.rank]
    · cases t with
      | imageData | imageMain => simp [Request.rank]
      | imageDocument | galleryDocument | userDocument | weddingDocument | guestDocuments
      | weddingIDMain | galleryNotify | galleryMain => cases ht

end Reads

namespace Guests

variable [UIKit UIImage] {σ' τ' α' ε' : Type} {C : System σ' τ' α' ε'}
  {L : Link (State UIImage) τ' Env ε'} {rank' : τ' → Nat}

/-- With any client whose own work ends, in an infinite run there is always another action to come, or
another ID that is found to be used. -/
theorem rests (hC : C.Ranked rank' fun _ _ _ => False)
    {c : Nat → Config (Joint (State UIImage) σ') (Async.Job WeddApp.Task τ' ε')}
    {l : Nat → Label (Action UIImage ⊕ α') Env} (hrun : (network (app UIImage) C L).Endless c l)
    (n : Nat) :
    ∃ m, n ≤ m ∧ ((∃ a e, l m = .act a e) ∨
      ∃ i k u id e, l m = .serve i e ∧ (c m).pending[i]? = some (k, .server (.idRead u id)) ∧
        e.error = none ∧ (c m).state.server.used id) := by
  obtain ⟨m, hm, hact | ⟨i, k, j, e, hl, hi, hagain⟩⟩ :=
    again_or_acts (Network.ranked app_ranked hC) hrun n
  · exact ⟨m, hm, .inl hact⟩
  · refine ⟨m, hm, .inr ?_⟩
    cases j with
    | server t =>
      obtain ⟨u, id, rfl, he, hid⟩ := hagain
      exact ⟨i, k, u, id, e, hl, hi, he, hid⟩
    | request | reply => exact hagain.elim

theorem live_rests {refusal : NSError} {c : Nat → Config (World UIImage) (Job UIImage)}
    {l : Nat → Step UIImage} (hrun : (live UIImage refusal).Endless c l) (n : Nat) :
    ∃ m, n ≤ m ∧ ((∃ a e, l m = .act a e) ∨
      ∃ i k u id e, l m = .serve i e ∧ (c m).pending[i]? = some (k, .server (.idRead u id)) ∧
        e.error = none ∧ (c m).state.server.used id) :=
  rests Reads.reads_ranked hrun n

/-- A host signs up while all IDs are used, and nobody does anything else. -/
def searching (n : Nat) : Config (World Data) (Job Data) :=
  ⟨.start fullIDs, [(0, .server (.idRead firstHost (formatID (cyclic n))))], 1⟩

def redrawn (n : Nat) : Step Data := .serve 0 { Env.ok with random := cyclic (n + 1) }

theorem searching_endless : (live Data "refused").Endless searching redrawn where
  step n := by
    obtain ⟨d, hd⟩ := Option.isSome_iff_exists.mp (fullIDs_used (cyclic n))
    have hi : (searching n).pending[0]? =
        some (0, .server (.idRead firstHost (formatID (cyclic n)))) := rfl
    have hserve : (live Data "refused").serve (.server (.idRead firstHost (formatID (cyclic n))))
        { Env.ok with random := cyclic (n + 1) } (searching n).state =
        some (.start fullIDs, [.server (.idRead firstHost (formatID (cyclic (n + 1))))]) := by
      simp only [live, network, app, serve, Env.ok, State.getDocument, searching, World.start, hd]
      rfl
    exact System.Step.serve hi hserve

theorem searching_collides : ∃ m, 10000 ≤ m ∧ ((∃ a e, redrawn m = .act a e) ∨
    ∃ i k u id e, redrawn m = .serve i e ∧
      (searching m).pending[i]? = some (k, .server (.idRead u id)) ∧
      e.error = none ∧ (searching m).state.server.used id) :=
  live_rests searching_endless 10000

end Guests
end WeddApp
