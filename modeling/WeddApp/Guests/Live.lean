import WeddApp.Async.Network
import WeddApp.Guests.Answers
import WeddApp.Reads.Successors
import WeddApp.Save.References
import WeddApp.Save.Shown

/-!
# Guests.Live

Hosts and guests at the same time. The backend with the devices of the hosts is the server, the reads
of the guests' screens are its client: a read is answered from the stores as they are when the request
arrives, while Saves, sign-ups and wishes go on.

* `live`: the network.
* `OwnPaths`: what is assumed of `UUID().uuidString`. Under it an object of storage never changes
  (`object_same`).
* `reached_of_reply`: the configuration in which a request was answered.
-/

namespace WeddApp

open Async Documents

variable {UIImage : Type}

/-- The image that a download of `url` gives when it does not fail. -/
def State.image [UIKit UIImage] (s : State UIImage) (url : String) : Option UIImage :=
  (Storage.getData s.storage url Reads.retrieveImage.maxSize).bind UIKit.ofData

namespace Guests

abbrev World (UIImage : Type) := Joint (State UIImage) (Reads.State UIImage)
abbrev Job (UIImage : Type) := Async.Job Task (Reads.Request UIImage) Reads.Reply
abbrev Step (UIImage : Type) := Label (Action UIImage ⊕ Reads.Call) Env
abbrev History (UIImage : Type) := List (Config (World UIImage) (Job UIImage) × Step UIImage)

def backend (UIImage : Type) (refusal : NSError) :
    Link (State UIImage) (Reads.Request UIImage) Env Reads.Reply where
  answer := answer refusal
  ambient _ := .main

def live (UIImage : Type) [UIKit UIImage] (refusal : NSError) :
    System (World UIImage) (Job UIImage) (Action UIImage ⊕ Reads.Call) Env :=
  network (app UIImage) (Reads.reads UIImage) (backend UIImage refusal)

def World.start (s : State UIImage) : World UIImage := ⟨s, .new UIImage⟩

def uploads (h : History UIImage) : List Photo :=
  h.filterMap fun x =>
    match x.2 with
    | .act _ _ => none
    | .serve i _ =>
      match x.1.pending[i]? with
      | some (_, .server (.photoPut p)) => some p
      | _ => none

theorem mem_uploads {h : History UIImage} {k : Nat} {p : Photo} {e : Env}
    (hs : Served h k (.server (.photoPut p)) e) : p ∈ uploads h := by
  obtain ⟨c, i, hm, hi⟩ := hs
  refine List.mem_filterMap.mpr ⟨_, hm, ?_⟩
  simp only [hi]

/-- `UUID().uuidString` gives every upload a path of its own: nothing is there at the start, and
nothing else is uploaded there. -/
structure OwnPaths (s0 : State UIImage) (h : History UIImage) : Prop where
  unused : ∀ p ∈ uploads h, s0.storage.lookup p.path = none
  nodup : ((uploads h).map Photo.path).Nodup

theorem OwnPaths.earlier {s0 : State UIImage} {h h' : History UIImage} (hown : OwnPaths s0 h)
    (hh : h' <+: h) : OwnPaths s0 h' := by
  obtain ⟨rest, rfl⟩ := hh
  have happ : uploads (h' ++ rest) = uploads h' ++ uploads rest := List.filterMap_append
  refine ⟨fun p hp => hown.unused p ?_, ?_⟩
  · rw [happ]
    exact List.mem_append_left _ hp
  · have hnodup := hown.nodup
    rw [happ, List.map_append] at hnodup
    exact (List.nodup_append.mp hnodup).1

section Image

variable [UIKit UIImage]

theorem outcome_failed (s : State UIImage) (url : String) (m refusal : NSError) :
    (Reads.outcome (s.download url (some m) refusal) : Option UIImage) = none := rfl

theorem outcome_download (s : State UIImage) (url : String) (refusal : NSError) :
    Reads.outcome (s.download url none refusal) = (s.image url : Option UIImage) := by
  simp only [State.download, State.image]
  split
  · rename_i data hdata
    rw [hdata]; rfl
  · rename_i hdata
    rw [hdata]; rfl

theorem image_congr {s s' : State UIImage} {url : String}
    (h : s.storage.lookup url = s'.storage.lookup url) : s.image url = s'.image url := by
  simp only [State.image, Storage.getData, h]

theorem isSome_of_image {s : State UIImage} {url : String} {image : UIImage}
    (h : s.image url = some image) : (s.storage.lookup url).isSome := by
  cases hs : s.storage.lookup url with
  | some data => rfl
  | none => simp [State.image, Storage.getData, hs] at h

end Image

/-! ## What the stores hold -/

section Stores

/-- The paths of the gallery of `w`. -/
def galleryUrls (s : State UIImage) (w : String) : List String :=
  Reads.photoUrls (s.firestore.fields (document Constants.galleryCollection w))

theorem stored_of_photoUrls {s : State UIImage} (hs : NoDangling s) {w url : String}
    (hurl : url ∈ galleryUrls s w) : (s.storage.lookup url).isSome := by
  obtain ⟨⟨f, v⟩, hf, hv⟩ := List.mem_filterMap.mp hurl
  obtain ⟨_, path, rfl, _, hup⟩ := hs true w f v (mem_toList.mp hf)
  simp only [Reads.photoUrl, Value.asString_string] at hv
  split at hv
  · cases hv; exact hup.stored
  · cases hv

theorem stored_of_imageUrl {s : State UIImage} (hs : NoDangling s) {w person : String}
    {doc : Document} (hdoc : s.firestore.lookup (document Constants.imagesCollection w) = some doc) :
    (s.storage.lookup (Reads.imageUrl doc person)).isSome ∨
      Reads.imageUrl doc person = Constants.defaultImageURL := by
  simp only [Reads.imageUrl]
  cases hf : doc.lookup (person ++ "Url") with
  | none => exact .inr rfl
  | some v =>
    have hphoto : s.firestore.lookup (photoDocument false w) = some doc := hdoc
    have hfield : s.firestore.field (photoDocument false w) (person ++ "Url") = some v := by
      rw [Store.field, fields_of_lookup hphoto]; exact hf
    obtain ⟨_, path, rfl, _, hup⟩ := hs false w _ v hfield
    exact .inl hup.stored

end Stores

/-! ## The server's side -/

section Server

variable [UIKit UIImage] {refusal : NSError} {s0 : State UIImage} {ls ls' : List (Step UIImage)}
  {c c' : Config (World UIImage) (Job UIImage)}

theorem noDangling_of_run (h0 : ∀ g id, s0.firestore.lookup (photoDocument g id) = none)
    (hr : (live UIImage refusal).run (.init (.start s0)) ls = some c) : NoDangling c.state.server := by
  obtain ⟨d, hd, hs⟩ := Network.server_of_run hr
  rw [← hs]
  exact (backed_of_run h0 hd).1

def object (UIImage : Type) [UIKit UIImage] (refusal : NSError) (path : String) :
    Register (live UIImage refusal) Data :=
  (storedObject path).onServer _ _

theorem stored_stays {url : String} (hr : (live UIImage refusal).run c ls = some c')
    (h : (c.state.server.storage.lookup url).isSome) :
    (c'.state.server.storage.lookup url).isSome :=
  Register.isSome_of_run (R := object UIImage refusal url) hr h

theorem put_of_objectWrites {path : String} {t : Task} {e : Env} {v : Data}
    (h : objectWrites path t e = some v) :
    e.error = none ∧ ∃ p, t = .photoPut p ∧ p.path = path ∧ p.imageData = v := by
  unfold objectWrites at h
  split at h
  · rename_i p he
    split at h
    · rename_i hp
      cases h; exact ⟨he, p, rfl, hp, rfl⟩
    · cases h
  · cases h

theorem wrote_object {h : History UIImage} {path : String} {k : Nat} {v : Data}
    (hw : (object UIImage refusal path).Wrote h k v) :
    ∃ p e, Served h k (.server (.photoPut p)) e ∧ e.error = none ∧ p.path = path ∧ p.imageData = v := by
  obtain ⟨j, e, hs, hj⟩ := hw
  cases j with
  | server t =>
    obtain ⟨he, p, rfl, hp, hv⟩ := put_of_objectWrites hj
    exact ⟨p, e, hs, he, hp, hv⟩
  | request | reply => cases hj

/-- An object of storage never changes. -/
theorem object_same {h : History UIImage} (hown : OwnPaths s0 h)
    (hr : (live UIImage refusal).run (.init (.start s0)) ls = some c)
    (hr' : (live UIImage refusal).run (.init (.start s0)) ls' = some c')
    (hh : ∀ x ∈ (live UIImage refusal).history (.init (.start s0)) ls, x ∈ h)
    (hh' : ∀ x ∈ (live UIImage refusal).history (.init (.start s0)) ls', x ∈ h) {url : String}
    (hs : (c.state.server.storage.lookup url).isSome)
    (hs' : (c'.state.server.storage.lookup url).isSome) :
    c.state.server.storage.lookup url = c'.state.server.storage.lookup url := by
  obtain ⟨v, hv⟩ := Option.isSome_iff_exists.mp hs
  obtain ⟨v', hv'⟩ := Option.isSome_iff_exists.mp hs'
  rw [hv, hv', Option.some.injEq]
  refine Register.same_val (R := object UIImage refusal url) hr hr' hh hh' ?_ ?_ hv hv'
  · intro k v hw
    obtain ⟨p, e, hp, _, rfl, _⟩ := wrote_object hw
    exact hown.unused p (mem_uploads hp)
  · intro k k' v v' hw hw'
    obtain ⟨p, e, hp, _, rfl, rfl⟩ := wrote_object hw
    obtain ⟨q, e', hq, _, hpath, rfl⟩ := wrote_object hw'
    rw [List.inj_on_of_nodup_map hown.nodup (mem_uploads hq) (mem_uploads hp) hpath]

end Server

/-! ## The client's side -/

section Client

variable [UIKit UIImage] {refusal : NSError} {s0 : State UIImage} {ls : List (Step UIImage)}
  {c c1 : Config (World UIImage) (Job UIImage)} {t : Reads.Request UIImage} {r : Reads.Reply}

omit [UIKit UIImage] in
/-- A document that was read without an error is the one that was stored. -/
theorem document_of_reply {h : History UIImage} {ref : DocumentReference} {found : Option Document}
    (ht : ∀ e s, answer refusal t e s = .document (s.getDocument ref e.error))
    (hrep : Network.RepliedAt (backend UIImage refusal) h c1 t (.document (.ok found))) :
    (∃ j e, ServedAt h c1 j (.request t) e ∧ e.error = none) ∧
      found = c1.state.server.firestore.lookup ref := by
  obtain ⟨j, e, hs, hr⟩ := hrep
  have hget : Except.ok found = c1.state.server.getDocument ref e.error :=
    Reads.Reply.document.inj (hr.trans (ht e _))
  cases he : e.error with
  | none =>
    rw [he] at hget
    exact ⟨⟨j, e, hs, he⟩, Except.ok.inj hget⟩
  | some m =>
    rw [he] at hget
    cases hget

/-- The configuration `c1` of a run that ends in `c` in which `t` was answered: the client waits for
`t` and for nothing that its call was already told. -/
structure Reached (refusal : NSError) (s0 : State UIImage) (ls : List (Step UIImage))
    (c c1 : Config (World UIImage) (Job UIImage)) (t : Reads.Request UIImage)
    (ls1 ls2 : List (Step UIImage)) : Prop where
  labels : ls = ls1 ++ ls2
  before : (live UIImage refusal).run (.init (.start s0)) ls1 = some c1
  after : (live UIImage refusal).run c1 ls2 = some c
  asked : ∀ k call, t.asks = some (k, call) → c1.state.client.calls[k]? = some call
  unanswered : c1.state.client.answers t.call = []
  sent : t.asks = none → ∃ u reply,
    Network.Replied (backend UIImage refusal) ((live UIImage refusal).history (.init (.start s0)) ls1)
      u reply ∧ Reads.Sends u reply t

theorem reached_of_reply (hr : (live UIImage refusal).run (.init (.start s0)) ls = some c)
    (hrep : Network.RepliedAt (backend UIImage refusal)
      ((live UIImage refusal).history (.init (.start s0)) ls) c1 t r) :
    ∃ ls1 ls2, Reached refusal s0 ls c c1 t ls1 ls2 := by
  obtain ⟨ls1, ls2, ls', d, hls, h1, h2, hside, ht⟩ := hrep.client hr
  refine ⟨ls1, ls2, hls, h1, h2, fun k call hk => ?_, ?_, fun hn => ?_⟩
  · rw [← hside.state]
    exact Reads.asked_of_pending hside.run ht hk
  · rw [← hside.state]
    exact Reads.unanswered_of_pending hside.run ht
  · obtain ⟨k, u, reply, hu, hsend⟩ := Reads.sent_of_pending hside.run ht hn
    exact ⟨u, reply, hside.replied k u reply hu, hsend⟩

theorem Reached.mem {ls1 ls2 : List (Step UIImage)} (h : Reached refusal s0 ls c c1 t ls1 ls2) :
    ∀ x ∈ (live UIImage refusal).history (.init (.start s0)) ls1,
      x ∈ (live UIImage refusal).history (.init (.start s0)) ls := by
  intro x hx
  rw [h.labels, System.history_append h.before]
  exact List.mem_append_left _ hx

/-- The calls that the guests have made stay made. -/
theorem calls_kept {c' : Config (World UIImage) (Job UIImage)}
    (hr : (live UIImage refusal).run c ls = some c') :
    c.state.client.calls <+: c'.state.client.calls := by
  refine System.invariant (I := fun c' => c.state.client.calls <+: c'.state.client.calls) hr
    List.prefix_rfl ?_
  intro c2 l c3 _ hI hs
  cases hs with
  | act ha =>
    cases Network.acts_of_act ha with
    | server _ => exact hI
    | @client call _ _ hc =>
      obtain ⟨rfl, _⟩ := Reads.served_eq hc
      refine hI.trans ?_
      rw [Config.acted_state, (Reads.act_spec call c2.state.client).1]
      exact List.prefix_append _ _
  | serve _ ha =>
    cases Network.serves_of_serve ha with
    | server _ | answers => exact hI
    | delivers ht =>
      rw [Config.served_state, Reads.serve_calls ht]
      exact hI

theorem completions_served {t : Reads.Request UIImage} {reply : Reads.Reply}
    {s s' : Reads.State UIImage} {ts : List (Reads.Request UIImage)}
    (h : Reads.Serves s t reply s' ts) :
    s'.completions = s.completions ∨ ∃ r, s'.completions = (t.call, r) :: s.completions := by
  cases h with
  | answers r _ _ _ _ hc _ => exact .inr ⟨r, hc⟩
  | shows hc _ => exact .inr ⟨_, hc⟩
  | passes _ _ _ _ _ hc _ | silent _ _ hc _ | gathers _ hc _ | fails _ _ hc _
  | collects _ hc _ => exact .inl hc
  | decodes _ | notifies => exact .inl rfl

theorem completions_kept {c' : Config (World UIImage) (Job UIImage)}
    (hr : (live UIImage refusal).run c ls = some c') :
    ∀ x ∈ c.state.client.completions, x ∈ c'.state.client.completions := by
  refine System.invariant (I := fun c' => ∀ x ∈ c.state.client.completions,
    x ∈ c'.state.client.completions) hr (fun _ hx => hx) ?_
  intro c2 l c3 _ hI hs x hx
  have hx2 := hI x hx
  cases hs with
  | act ha =>
    cases Network.acts_of_act ha with
    | server _ => exact hx2
    | @client call _ _ hc =>
      obtain ⟨rfl, _⟩ := Reads.served_eq hc
      rw [Config.acted_state, (Reads.act_spec call c2.state.client).2.1]
      exact hx2
  | serve _ ha =>
    cases Network.serves_of_serve ha with
    | server _ | answers => exact hx2
    | delivers ht =>
      rw [Config.served_state]
      rcases completions_served (Reads.serve_serves ht) with hc | ⟨r, hc⟩
      · rw [hc]; exact hx2
      · rw [hc]; exact List.mem_cons_of_mem _ hx2

theorem Reached.call {ls1 ls2 : List (Step UIImage)} (h : Reached refusal s0 ls c c1 t ls1 ls2)
    {k : Nat} {call : Reads.Call} (ht : t.asks = some (k, call)) :
    c.state.client.calls[k]? = some call := by
  have hk := h.asked k call ht
  obtain ⟨rest, he⟩ := calls_kept h.after
  rw [← he, List.getElem?_append_left (List.getElem?_eq_some_iff.mp hk).1]
  exact hk

end Client

end Guests
end WeddApp
