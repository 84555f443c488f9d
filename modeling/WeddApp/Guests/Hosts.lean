import WeddApp.Async.Network
import WeddApp.Isolation.Owners
import WeddApp.Save.Fields
import WeddApp.Weddings.LastUpload

/-!
# Guests.Hosts

What a client of the stores can rely on, whichever client it is (`C`), while hosts sign up and save.
A wedding that is stored was written for one Save (`saved_of_wedding`): a host tapped it, the account
had the weddingID, and the wedding was in the form when the Save read it (`SaveOf`). Weddings are
never deleted (`wedding_stays`), and a weddingID stays the one of its account (`hosts_of_run`).
-/

namespace WeddApp.Guests

open Async Documents

variable {UIImage σ' τ' α' ε' : Type}

/-- Action number `k` was a Save of `d`, made by the account `uid`. It found `w` as the weddingID of
that account, and then the form was `form` and the UUIDs were `uuid`. -/
structure SaveOf
    (h : List (Config (Joint (State UIImage) σ') (Async.Job Task τ' ε') × Label (Action UIImage ⊕ α') Env))
    (k : Nat) (d : DeviceID) (uid : UID) (w : String) (form : FormScreen UIImage)
    (uuid : Nat → String) : Prop where
  tapped : ∃ c e, (c, .act (.inl (.tapSave d)) e) ∈ h ∧ c.clock = k ∧
    (c.state.server.device d).currentUser = some uid
  found : ∃ c e, ServedAt h c k (.server (.saveRead d uid)) e ∧ c.state.server.HasWeddingID uid w
  filled : ∃ c e, ServedAt h c k (.server (.saveMain d (some w) none)) e ∧
    form = (c.state.server.device d).form ∧ uuid = e.uuid

theorem SaveOf.mono
    {h h' : List (Config (Joint (State UIImage) σ') (Async.Job Task τ' ε') × Label (Action UIImage ⊕ α') Env)}
    {k : Nat} {d : DeviceID} {uid : UID} {w : String} {form : FormScreen UIImage}
    {uuid : Nat → String} (hs : SaveOf h k d uid w form uuid) (hh : ∀ x ∈ h, x ∈ h') :
    SaveOf h' k d uid w form uuid := by
  obtain ⟨⟨c1, e1, h1, h1'⟩, ⟨c2, e2, ⟨i2, h2, hi2⟩, h2'⟩, ⟨c3, e3, ⟨i3, h3, hi3⟩, h3'⟩⟩ := hs
  exact ⟨⟨c1, e1, hh _ h1, h1'⟩, ⟨c2, e2, ⟨i2, hh _ h2, hi2⟩, h2'⟩, ⟨c3, e3, ⟨i3, hh _ h3, hi3⟩, h3'⟩⟩

variable [UIKit UIImage] {C : System σ' τ' α' ε'} {L : Link (State UIImage) τ' Env ε'}
  {s : Joint (State UIImage) σ'} {ls ls' : List (Label (Action UIImage ⊕ α') Env)}
  {c c' : Config (Joint (State UIImage) σ') (Async.Job Task τ' ε')} {k : Nat}

/-! ## Saves -/

theorem sent_of_task {t : Task} {e : Env} (hr : (network (app UIImage) C L).run (.init s) ls = some c)
    (hs : Served ((network (app UIImage) C L).history (.init s) ls) k (.server t) e)
    (ht : t.isFirst = false) :
    ∃ c1 u e1 s1 ts, ServedAt ((network (app UIImage) C L).history (.init s) ls) c1 k (.server u) e1 ∧
      serve u e1 c1.state.server = some (s1, ts) ∧ t ∈ ts := by
  obtain ⟨c2, hs⟩ := hs
  obtain ⟨ls1, h1, hp, hpre⟩ := System.pending_of_served hr hs
  rcases Network.left_server (System.left_of_pending h1 hp) with
    ⟨_, _, _, _, _, _, _, ha, hu⟩ | ⟨c1, u, e1, s1, ts, ⟨i, hm, hi⟩, hserve, hu⟩
  · rw [act_sends ha t hu] at ht
    cases ht
  · exact ⟨c1, u, e1, s1, ts, ⟨i, hpre.subset hm, hi⟩, hserve, hu⟩

theorem tapped_of_saveRead {d : DeviceID} {uid : UID} {e : Env}
    (hr : (network (app UIImage) C L).run (.init s) ls = some c)
    (hs : Served ((network (app UIImage) C L).history (.init s) ls) k (.server (.saveRead d uid)) e) :
    ∃ c1 e1, (c1, .act (.inl (.tapSave d)) e1) ∈ (network (app UIImage) C L).history (.init s) ls ∧
      c1.clock = k ∧ (c1.state.server.device d).currentUser = some uid := by
  obtain ⟨c2, hs⟩ := hs
  obtain ⟨ls1, h1, hp, hpre⟩ := System.pending_of_served hr hs
  rcases Network.left_server (System.left_of_pending h1 hp) with
    ⟨c1, a, e1, _, _, hm, hk, ha, hu⟩ | ⟨_, _, _, _, _, _, hserve, hu⟩
  · cases act_tapSends ha hu with
    | save huid => exact ⟨c1, e1, hpre.subset hm, hk, huid⟩
  · cases serve_sends hserve hu with
    | signUp _ hn => exact absurd rfl hn

theorem saveOf_main {d : DeviceID} {w : String} {e : Env}
    {c2 : Config (Joint (State UIImage) σ') (Async.Job Task τ' ε')}
    (hr : (network (app UIImage) C L).run (.init s) ls = some c)
    (hs : ServedAt ((network (app UIImage) C L).history (.init s) ls) c2 k
      (.server (.saveMain d (some w) none)) e) :
    ∃ uid, SaveOf ((network (app UIImage) C L).history (.init s) ls) k d uid w
      (c2.state.server.device d).form e.uuid := by
  obtain ⟨c1, u, e1, s1, ts, hu, hserve, hmem⟩ := sent_of_task hr ⟨c2, hs⟩ rfl
  cases serve_sends hserve hmem with
  | signUp _ hn => exact absurd rfl hn
  | @main _ uid _ _ =>
    refine ⟨uid, tapped_of_saveRead hr ⟨c1, hu⟩, ⟨c1, e1, hu, ?_⟩, c2, e, hs, rfl, rfl⟩
    have hsends := saveRead_sends hserve
    split at hsends
    · rename_i id error hreply
      rw [hsends, List.mem_singleton] at hmem
      cases hmem
      exact hasWeddingID_of_reply hreply
    · rw [hsends] at hmem
      cases hmem

/-! ## Weddings -/

omit [UIKit UIImage] in
theorem ofDocument_form (form : FormScreen UIImage) (w : String) :
    Wedding.ofDocument w (form.wedding w).toDictionary = form.wedding w := by
  rw [Wedding.ofDocument_toDictionary]
  rfl

/-- A wedding that is stored was in the form of a Save. -/
theorem saved_of_wedding {w : String} {doc : Document}
    (h0 : s.server.firestore.lookup (weddingDocument w) = none)
    (hr : (network (app UIImage) C L).run (.init s) ls = some c)
    (hdoc : c.state.server.firestore.lookup (weddingDocument w) = some doc) :
    ∃ k d uid form uuid, SaveOf ((network (app UIImage) C L).history (.init s) ls) k d uid w form uuid ∧
      doc = (form.wedding w).toDictionary := by
  rcases Register.held_or_written (R := (weddingRegister w).onServer C L) hr hdoc with h | h
  · cases h0.symm.trans h
  · obtain ⟨k, j, e, hs, hw⟩ := h
    cases j with
    | request | reply => cases hw
    | server t =>
      obtain ⟨_, rfl⟩ := weddingWrites_eq_some.mp hw
      obtain ⟨c1, u, e1, s1, ts, hu, hserve, hmem⟩ := sent_of_task hr hs rfl
      cases serve_sends hserve hmem with
      | signUp _ hn => exact absurd rfl hn
      | @wedding d _ =>
        obtain ⟨uid, hsave⟩ := saveOf_main hr hu
        exact ⟨k, d, uid, _, _, hsave, rfl⟩

/-- Weddings are not deleted. -/
theorem wedding_stays {w : String} (hr : (network (app UIImage) C L).run c ls = some c')
    (h : (c.state.server.firestore.lookup (weddingDocument w)).isSome) :
    (c'.state.server.firestore.lookup (weddingDocument w)).isSome :=
  Register.isSome_of_run (R := (weddingRegister w).onServer C L) hr h

/-! ## Accounts -/

theorem hosts_of_run (h0 : s.server.Clean) (hd : s.server.DrawnIDs)
    (hr : (network (app UIImage) C L).run (.init s) ls = some c) {uid : UID} {w : String}
    (hid : c.state.server.HasWeddingID uid w) : c.state.server.Host uid w := by
  obtain ⟨d, hrun, hstate⟩ := Network.server_of_run hr
  rw [← hstate] at hid ⊢
  exact host_of_weddingID h0 hd hrun hid

end WeddApp.Guests
