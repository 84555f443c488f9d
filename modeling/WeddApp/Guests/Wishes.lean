import WeddApp.Guests.Saves
import WeddApp.Wish.Published

/-!
# Guests.Wishes

What `getWishes` gives while guests send wishes. It is what one state of the stores holds
(`wishes_snapshot`). With fresh guest IDs a wish that was stored stays, so a later read gives all that
an earlier one gave (`wishes_of_later`) and all that was acknowledged before the call
(`wishes_acked`), and nothing that was not submitted (`wishes_submitted`).
-/

namespace WeddApp

open Async Documents

variable {UIImage : Type}

def State.wishes (s : State UIImage) (w : String) : List Wish :=
  (Reads.getWishes.onDocuments (s.getDocuments w none)).1

def wishWrites (w g : String) (t : Task) (e : Env) : Option Document :=
  match e.error, t with
  | none, .wishWrite w' g' wish => if w' = w ∧ g' = g then some wish else none
  | _, _ => none

theorem wishWrites_eq_some {w g : String} {t : Task} {e : Env} {doc : Document} :
    wishWrites w g t e = some doc ↔ e.error = none ∧ t = .wishWrite w g doc := by
  unfold wishWrites
  split
  · rename_i w' g' wish he
    simp only [Option.ite_none_right_eq_some, Option.some.injEq, he, true_and, Task.wishWrite.injEq]
    tauto
  · rename_i hno
    constructor
    · intro h; cases h
    · rintro ⟨he, ht⟩
      exact absurd ht (hno w g doc he)

theorem wishWrites_eq_none {w g : String} {t : Task} {e : Env}
    (h : e.error = none → t.wish ≠ some (w, g)) : wishWrites w g t e = none := by
  cases hw : wishWrites w g t e with
  | none => rfl
  | some doc =>
    obtain ⟨he, rfl⟩ := wishWrites_eq_some.mp hw
    exact absurd rfl (h he)

def wishRegister [UIKit UIImage] (w g : String) : Register (app UIImage) Document where
  val s := s.wishDocument w g
  writes := wishWrites w g
  act h := by
    cases act_wish h with
    | submit _ hw _ _ => exact hw w g
    | other hf _ => exact hf.wishes w g
  serve {t e s s' ts} h := by
    cases (serve_wish h).1 with
    | @stored w' g' wish _ he hw _ _ =>
      rw [hw]
      simp only [wishWrites, he]
      by_cases hk : w = w' ∧ g = g'
      · obtain ⟨rfl, rfl⟩ := hk
        simp
      · rw [if_neg hk, if_neg fun h => hk ⟨h.1.symm, h.2.symm⟩]
        rfl
    | failed he hf =>
      rw [hf.wishes, wishWrites_eq_none fun he' _ => he he']
      rfl
    | other ht hf =>
      rw [hf.wishes, wishWrites_eq_none fun _ hw => absurd (ht.symm.trans hw) nofun]
      rfl

theorem mem_wishes {s : State UIImage} {w : String} {wish : Wish} :
    wish ∈ s.wishes w ↔ ∃ g doc, s.wishDocument w g = some doc ∧ Wish.ofDocument doc = some wish := by
  simp only [State.wishes, State.getDocuments, Reads.getWishes.onDocuments, List.mem_filterMap,
    List.mem_map, List.mem_mergeSort, Prod.exists]
  constructor
  · rintro ⟨doc, ⟨r, doc', hm, rfl⟩, hw⟩
    obtain ⟨g, _, hd⟩ := mem_guestSnapshots.mp hm
    exact ⟨g, _, hd, hw⟩
  · rintro ⟨g, doc, hd, hw⟩
    exact ⟨doc, ⟨_, doc, mem_guestSnapshots.mpr ⟨g, rfl, hd⟩, rfl⟩, hw⟩

theorem wishes_subperm {s s' : State UIImage} {w : String}
    (h : ∀ g doc, s.wishDocument w g = some doc → s'.wishDocument w g = some doc) :
    (s.wishes w).Subperm (s'.wishes w) := by
  have hsub : (s.guestSnapshots w).Subperm (s'.guestSnapshots w) := by
    refine List.subperm_of_subset (guestSnapshots_nodup s w) ?_
    intro x hx
    obtain ⟨g, hr, hd⟩ := mem_guestSnapshots.mp hx
    exact mem_guestSnapshots.mpr ⟨g, hr, h g x.2 hd⟩
  obtain ⟨l, hp, hs⟩ := ((List.mergeSort_perm _ _).subperm_right.mpr hsub).trans
    (List.mergeSort_perm _ _).symm.subperm
  exact ⟨_, (hp.map Prod.snd).filterMap _, (hs.map Prod.snd).filterMap _⟩

namespace Guests

/-- The wishes whose writes were answered: wedding, guest ID and document. -/
def written (h : History UIImage) : List (String × String × Document) :=
  h.filterMap fun x =>
    match x.2 with
    | .act _ _ => none
    | .serve i _ =>
      match x.1.pending[i]? with
      | some (_, .server (.wishWrite w g wish)) => some (w, g, wish)
      | _ => none

theorem mem_written {h : History UIImage} {k : Nat} {w g : String} {wish : Document} {e : Env}
    (hs : Served h k (.server (.wishWrite w g wish)) e) : (w, g, wish) ∈ written h := by
  obtain ⟨c, i, hm, hi⟩ := hs
  refine List.mem_filterMap.mpr ⟨_, hm, ?_⟩
  simp only [hi]

/-- `guestsCollection.document()` names a document that does not exist, and another one each time. -/
structure OwnGuestIDs (s0 : State UIImage) (h : History UIImage) : Prop where
  unused : ∀ x ∈ written h, s0.wishDocument x.1 x.2.1 = none
  nodup : ((written h).map fun x => (x.1, x.2.1)).Nodup

theorem OwnGuestIDs.earlier {s0 : State UIImage} {h h' : History UIImage} (hown : OwnGuestIDs s0 h)
    (hh : h' <+: h) : OwnGuestIDs s0 h' := by
  obtain ⟨rest, rfl⟩ := hh
  have happ : written (h' ++ rest) = written h' ++ written rest := List.filterMap_append
  refine ⟨fun x hx => hown.unused x ?_, ?_⟩
  · rw [happ]
    exact List.mem_append_left _ hx
  · have hnodup := hown.nodup
    rw [happ, List.map_append] at hnodup
    exact (List.nodup_append.mp hnodup).1

theorem OwnGuestIDs.unique {s0 : State UIImage} {h : History UIImage} (hown : OwnGuestIDs s0 h)
    {k k' : Nat} {w g : String} {doc doc' : Document} {e e' : Env}
    (hs : Served h k (.server (.wishWrite w g doc)) e)
    (hs' : Served h k' (.server (.wishWrite w g doc')) e') : doc = doc' := by
  have he := List.inj_on_of_nodup_map hown.nodup (mem_written hs) (mem_written hs') rfl
  exact congrArg (fun x => x.2.2) he

variable [UIKit UIImage]

section Server

variable {refusal : NSError} {s0 : State UIImage} {ls1 ls2 : List (Step UIImage)}
  {c1 c : Config (World UIImage) (Job UIImage)} {w g : String}

def storedWish (UIImage : Type) [UIKit UIImage] (refusal : NSError) (w g : String) :
    Register (live UIImage refusal) Document :=
  (wishRegister w g).onServer _ _

theorem wrote_wish {h : History UIImage} {k : Nat} {doc : Document}
    (hw : (storedWish UIImage refusal w g).Wrote h k doc) :
    ∃ e, Served h k (.server (.wishWrite w g doc)) e ∧ e.error = none := by
  obtain ⟨j, e, hs, hj⟩ := hw
  cases j with
  | server t =>
    obtain ⟨he, rfl⟩ := wishWrites_eq_some.mp hj
    exact ⟨e, hs, he⟩
  | request | reply => cases hj

/-- A wish that was stored stays as it is. -/
theorem wish_stays (h1 : (live UIImage refusal).run (.init (.start s0)) ls1 = some c1)
    (h2 : (live UIImage refusal).run c1 ls2 = some c)
    (hown : OwnGuestIDs s0 ((live UIImage refusal).history (.init (.start s0)) (ls1 ++ ls2)))
    {doc : Document} (hd : c1.state.server.wishDocument w g = some doc) :
    c.state.server.wishDocument w g = some doc := by
  have hsome : (c.state.server.wishDocument w g).isSome :=
    Register.isSome_of_run (R := storedWish UIImage refusal w g) h2 (Option.isSome_of_eq_some hd)
  obtain ⟨doc', hd'⟩ := Option.isSome_iff_exists.mp hsome
  have hr := System.run_append.mpr ⟨c1, h1, h2⟩
  have hsub : ∀ x ∈ (live UIImage refusal).history (.init (.start s0)) ls1,
      x ∈ (live UIImage refusal).history (.init (.start s0)) (ls1 ++ ls2) := by
    intro x hx
    rw [System.history_append h1]
    exact List.mem_append_left _ hx
  have he : doc = doc' := by
    refine Register.same_val (R := storedWish UIImage refusal w g) h1 hr hsub (fun _ hx => hx) ?_ ?_
      hd hd'
    · intro k v hw
      obtain ⟨e, hs, _⟩ := wrote_wish hw
      exact hown.unused _ (mem_written hs)
    · intro k k' v v' hw hw'
      obtain ⟨e, hs, _⟩ := wrote_wish hw
      obtain ⟨e', hs', _⟩ := wrote_wish hw'
      exact hown.unique hs hs'
  rw [hd', he]

theorem wish_of_ack (h1 : (live UIImage refusal).run (.init (.start s0)) ls1 = some c1)
    (hown : OwnGuestIDs s0 ((live UIImage refusal).history (.init (.start s0)) ls1)) {k : Nat}
    {doc : Document} {e : Env}
    (hs : Served ((live UIImage refusal).history (.init (.start s0)) ls1) k
      (.server (.wishWrite w g doc)) e) (he : e.error = none) :
    c1.state.server.wishDocument w g = some doc := by
  obtain ⟨k', doc', hw, hv⟩ := Register.last_write (R := storedWish UIImage refusal w g) h1
    ⟨k, doc, _, e, hs, wishWrites_eq_some.mpr ⟨he, rfl⟩⟩
  obtain ⟨e', hs', _⟩ := wrote_wish hw
  rw [hown.unique hs hs']
  exact hv

theorem submitted_of_wish (h1 : (live UIImage refusal).run (.init (.start s0)) ls1 = some c1)
    (hempty : s0.wishDocument w g = none) {doc : Document}
    (hd : c1.state.server.wishDocument w g = some doc) :
    ∃ c0 d guestName text date e, (c0, .act (.inl (.tapSubmit d w guestName text date)) e) ∈
        (live UIImage refusal).history (.init (.start s0)) ls1 ∧
      doc = (Wish.init guestName text date).toDictionary := by
  rcases Register.held_or_written (R := storedWish UIImage refusal w g) h1 hd with h | ⟨k, h⟩
  · cases hempty.symm.trans h
  · obtain ⟨e, ⟨c2, hs⟩, _⟩ := wrote_wish h
    obtain ⟨lsp, hp, hpend, hpre⟩ := System.pending_of_served h1 hs
    rcases Network.left_server (System.left_of_pending hp hpend) with
      ⟨c0, a, e0, _, _, hm, _, ha, hu⟩ | ⟨_, _, _, _, _, _, hserve, hu⟩
    · cases act_tapSends ha hu with
      | submit => exact ⟨c0, _, _, _, _, e0, hpre.subset hm, rfl⟩
    · have hnone := (serve_wish hserve).2 _ hu
      cases hnone

end Server

section Read

variable {refusal : NSError} {s0 : State UIImage} {ls ls1 ls2 : List (Step UIImage)}
  {c1 c : Config (World UIImage) (Job UIImage)} {k : Nat}

/-- Wishes that were read are the ones that one state of the stores holds. -/
theorem wishes_snapshot (hr : (live UIImage refusal).run (.init (.start s0)) ls = some c)
    {wishes : List Wish} (hdone : (k, .wishes wishes none) ∈ c.state.client.completions) :
    ∃ w m lsm lsm', Reached refusal s0 ls c m (.guestDocuments k w) lsm lsm' ∧
      wishes = m.state.server.wishes w := by
  obtain ⟨ls', d, hside⟩ := Network.client_of_run hr
  rw [← hside.state] at hdone
  obtain ⟨_, _, _, hserved, hc⟩ := Reads.served_of_completion hside.run hdone
  generalize hresult : (.wishes wishes none : Reads.Result UIImage) = r at hc
  cases hc with
  | @wishes _ w reply =>
    simp only [Reads.Result.wishes.injEq] at hresult
    obtain ⟨rfl, herror⟩ := hresult
    obtain ⟨m, hrep⟩ := hside.replied _ _ _ hserved
    obtain ⟨lsm, lsm', hreach⟩ := reached_of_reply hr hrep
    obtain ⟨_, e, _, hreply⟩ := hrep
    simp only [backend, answer, Reads.Reply.documents.injEq] at hreply
    refine ⟨w, m, lsm, lsm', hreach, ?_⟩
    rw [hreply] at herror ⊢
    cases he : e.error with
    | none => rfl
    | some msg =>
      rw [he] at herror
      cases herror
  | personError | personMissing | person | imageMissing | image | urls | gallery | noWeddingID
  | weddingID | weddingExists => cases hresult

/-- A call that was not made in `c1` is answered after `c1`. -/
theorem Reached.later {t : Reads.Request UIImage} {m : Config (World UIImage) (Job UIImage)}
    {lsm lsm' : List (Step UIImage)}
    (hreach : Reached refusal s0 (ls1 ++ ls2) c m t lsm lsm')
    (h1 : (live UIImage refusal).run (.init (.start s0)) ls1 = some c1) {call : Reads.Call}
    (ht : t.asks = some (k, call)) (hk : c1.state.client.calls.length ≤ k) :
    ∃ lsc, lsm = ls1 ++ lsc ∧ (live UIImage refusal).run c1 lsc = some m := by
  have hcall := (List.getElem?_eq_some_iff.mp (hreach.asked k call ht)).1
  rcases List.append_eq_append_iff.mp hreach.labels with ⟨lsc, rfl, _⟩ | ⟨lsc, rfl, _⟩
  · refine ⟨lsc, rfl, ?_⟩
    obtain ⟨c', h1', h2'⟩ := System.run_append.mp hreach.before
    rw [h1] at h1'
    cases h1'
    exact h2'
  · -- `m` would come before `c1`, in which the call has not been made
    obtain ⟨c', hm, h2'⟩ := System.run_append.mp h1
    rw [hreach.before] at hm
    cases hm
    have hle := (calls_kept h2').length_le
    omega

/-- A later read of the same wedding gives all that an earlier one gave. -/
theorem wishes_of_later (h1 : (live UIImage refusal).run (.init (.start s0)) ls1 = some c1)
    (h2 : (live UIImage refusal).run c1 ls2 = some c)
    (hown : OwnGuestIDs s0 ((live UIImage refusal).history (.init (.start s0)) (ls1 ++ ls2)))
    {j k : Nat} {earlier later : List Wish}
    (hdone : (j, .wishes earlier none) ∈ c1.state.client.completions)
    (hdone' : (k, .wishes later none) ∈ c.state.client.completions)
    (hsame : c.state.client.calls[j]? = c.state.client.calls[k]?)
    (hlater : c1.state.client.calls.length ≤ k) : earlier.Subperm later := by
  have hr := System.run_append.mpr ⟨c1, h1, h2⟩
  obtain ⟨w, m, lsm, lsm', hreach, rfl⟩ := wishes_snapshot h1 hdone
  obtain ⟨w', m', lsn, lsn', hreach', rfl⟩ := wishes_snapshot hr hdone'
  obtain ⟨lsc, rfl, hc⟩ := hreach'.later h1 rfl hlater
  have hj : c.state.client.calls[j]? = some (.getWishes w) := by
    have hj := hreach.call rfl
    obtain ⟨rest, he⟩ := calls_kept h2
    rw [← he, List.getElem?_append_left (List.getElem?_eq_some_iff.mp hj).1]
    exact hj
  rw [hreach'.call rfl, hj] at hsame
  cases hsame
  refine wishes_subperm fun g doc hd => ?_
  refine wish_stays hreach.before (System.run_append.mpr ⟨c1, hreach.after, hc⟩) ?_ hd
  refine hown.earlier ?_
  rw [← List.append_assoc, ← hreach.labels, hreach'.labels, System.history_append hreach'.before]
  exact List.prefix_append _ _

theorem wishes_submitted (hr : (live UIImage refusal).run (.init (.start s0)) ls = some c) {w : String}
    (hempty : ∀ g, s0.wishDocument w g = none) {wishes : List Wish}
    (hdone : (k, .wishes wishes none) ∈ c.state.client.completions)
    (hcall : c.state.client.calls[k]? = some (.getWishes w)) {wish : Wish} (hw : wish ∈ wishes) :
    ∃ c0 d guestName text date e, (c0, .act (.inl (.tapSubmit d w guestName text date)) e) ∈
        (live UIImage refusal).history (.init (.start s0)) ls ∧
      wish = Wish.init guestName text date := by
  obtain ⟨w', m, lsm, lsm', hreach, rfl⟩ := wishes_snapshot hr hdone
  rw [hreach.call rfl] at hcall
  cases hcall
  obtain ⟨g, doc, hd, hdoc⟩ := mem_wishes.mp hw
  obtain ⟨c0, d, guestName, text, date, e, hm, rfl⟩ := submitted_of_wish hreach.before (hempty g) hd
  rw [Wish.ofDocument_toDictionary, Option.some.injEq] at hdoc
  exact ⟨c0, d, guestName, text, date, e, hreach.mem _ hm, hdoc.symm⟩

theorem wishes_acked (h1 : (live UIImage refusal).run (.init (.start s0)) ls1 = some c1)
    (h2 : (live UIImage refusal).run c1 ls2 = some c)
    (hown : OwnGuestIDs s0 ((live UIImage refusal).history (.init (.start s0)) (ls1 ++ ls2)))
    {w : String} {wishes : List Wish} (hdone : (k, .wishes wishes none) ∈ c.state.client.completions)
    (hcall : c.state.client.calls[k]? = some (.getWishes w))
    (hlater : c1.state.client.calls.length ≤ k) {j : Nat} {g : String} {wish : Wish} {e : Env}
    (hs : Served ((live UIImage refusal).history (.init (.start s0)) ls1) j
      (.server (.wishWrite w g wish.toDictionary)) e) (he : e.error = none) : wish ∈ wishes := by
  have hr := System.run_append.mpr ⟨c1, h1, h2⟩
  obtain ⟨w', m, lsm, lsm', hreach, rfl⟩ := wishes_snapshot hr hdone
  obtain ⟨lsc, rfl, hc⟩ := hreach.later h1 rfl hlater
  rw [hreach.call rfl] at hcall
  cases hcall
  refine mem_wishes.mpr ⟨g, _, ?_, Wish.ofDocument_toDictionary wish⟩
  refine wish_stays h1 hc ?_ (wish_of_ack h1 ?_ hs he)
  · refine hown.earlier ?_
    rw [hreach.labels, System.history_append hreach.before]
    exact List.prefix_append _ _
  · refine hown.earlier ?_
    rw [System.history_append h1]
    exact List.prefix_append _ _

end Read

end Guests
end WeddApp
