import WeddApp.Save.OneSave
import WeddApp.SignUp.Provision

/-!
# Save.LastSave

Many Saves of one host, with every request answered without an error but in any order.

* Saves that overlap race: a field ends up with the value of the Save whose write was served last,
  which need not be the latest. But a Save can only lose to an earlier one that still had a request
  in flight when it was tapped (`Register.last_writer`).
* Gallery fields are numbered from `photo1` again in every Save, and nothing deletes a field: after
  a Save that overlaps with none, the gallery lists that Save's paths and the fields of earlier
  Saves that it did not reach (`last_save`).
-/

namespace WeddApp

open Async Documents

variable {UIImage : Type} [UIKit UIImage]

/-- A run in which one signed-in host edits the form and taps Save, and no request fails. -/
structure OneHost (s0 : State UIImage) (d : DeviceID) (uid : UID) (id : String)
    (ls : List (Label (Action UIImage) Env)) : Prop where
  signedIn : (s0.device d).currentUser = some uid
  user : s0.HasWeddingID uid id
  actions : ∀ a e, .act a e ∈ ls → a = .tapSave d ∨ ∃ form, a = .editForm d form
  ok : ∀ l ∈ ls, l.env.error = none

inductive HostTask (d : DeviceID) (uid : UID) (id : String) : Task → Prop where
  | read : HostTask d uid id (.saveRead d uid)
  | main : HostTask d uid id (.saveMain d (some id) none)
  | wedding {data : Document} : HostTask d uid id (.weddingWrite id data)
  | put {p : Photo} : HostTask d uid id (.photoPut p)
  | merge {p : Photo} : HostTask d uid id (.photoMerge p)

omit [UIKit UIImage] in
theorem weddingIDReply_found {s : State UIImage} {uid : UID} {id : String}
    (h : s.HasWeddingID uid id) : s.weddingIDReply uid none = .onMain (some id, none) := by
  obtain ⟨doc, hd, hw⟩ := h
  rw [State.user] at hd
  simp [State.weddingIDReply, State.getDocument, getWeddingIDFromUser.onDocument, hd, hw]

theorem host_serve {d : DeviceID} {uid : UID} {id : String} {t : Task} {e : Env}
    {s s' : State UIImage} {ts : List Task} (ht : HostTask d uid id t) (he : e.error = none)
    (hid : s.HasWeddingID uid id) (h : serve t e s = some (s', ts)) :
    s'.device = s.device ∧ ∀ u ∈ ts, HostTask d uid id u := by
  cases ht with
  | read =>
    have hreply : getWeddingIDFromUser.onDocument (s.getDocument (userDocument uid) e.error) =
        .onMain (some id, none) := by
      rw [he]; exact weddingIDReply_found hid
    simp only [serve, hreply] at h
    obtain ⟨rfl, rfl⟩ := served_eq h
    refine ⟨rfl, fun u hu => ?_⟩
    rw [List.mem_singleton.mp hu]; exact .main
  | main =>
    obtain ⟨rfl, rfl⟩ := served_eq h
    refine ⟨rfl, fun u hu => ?_⟩
    rcases mem_onWeddingID.mp hu with rfl | ⟨p, _, rfl⟩
    · exact .wedding
    · exact .put
  | wedding =>
    obtain ⟨rfl, rfl⟩ := served_eq h
    rw [he]; exact ⟨rfl, List.forall_mem_nil _⟩
  | put =>
    obtain ⟨rfl, rfl⟩ := served_eq h
    rw [he]
    refine ⟨rfl, fun u hu => ?_⟩
    rw [List.mem_singleton.mp hu]; exact .merge
  | merge =>
    obtain ⟨rfl, rfl⟩ := served_eq h
    rw [he]; exact ⟨rfl, List.forall_mem_nil _⟩

theorem HostTask.newUser {d : DeviceID} {uid : UID} {id : String} {t : Task}
    (h : HostTask d uid id t) : t.newUser = none := by
  cases h <;> rfl

section Host

variable {s0 : State UIImage} {d : DeviceID} {uid : UID} {id : String}
  {ls : List (Label (Action UIImage) Env)} {c : Config (State UIImage) Task}

theorem host_of_run (hh : OneHost s0 d uid id ls) (hr : (app UIImage).run (.init s0) ls = some c) :
    (c.state.device d).currentUser = some uid ∧ c.state.HasWeddingID uid id ∧
      ∀ x ∈ c.pending, HostTask d uid id x.2 := by
  refine System.invariant (I := fun c => (c.state.device d).currentUser = some uid ∧
    c.state.HasWeddingID uid id ∧ ∀ x ∈ c.pending, HostTask d uid id x.2) hr
    ⟨hh.signedIn, hh.user, nofun⟩ ?_
  rintro c1 l c2 hm ⟨hu, hid, hp⟩ hs
  have hl := System.mem_of_history hm
  cases hs with
  | @act a e s ts ha =>
    have hid' : s.HasWeddingID uid id := by
      rw [State.HasWeddingID, (act_signUp ha).1.user]; exact hid
    rcases hh.actions a e hl with rfl | ⟨form, rfl⟩
    · simp only [app, act, hu, getWeddingIDFromUser] at ha
      split at ha
      · obtain ⟨rfl, rfl⟩ := served_eq ha
        refine ⟨hu, hid', fun x hx => ?_⟩
        rcases Config.mem_acted.mp hx with hx | ⟨_, hx⟩
        · exact hp x hx
        · rw [List.mem_singleton.mp hx]; exact .read
      · cases ha
    · obtain ⟨rfl, rfl⟩ := served_eq ha
      refine ⟨by simpa using hu, hid', fun x hx => ?_⟩
      rcases Config.mem_acted.mp hx with hx | ⟨_, hx⟩
      · exact hp x hx
      · cases hx
  | @serve i k t e s ts hi ha =>
    have ht := hp _ (mem_of_getElem? hi)
    obtain ⟨hdev, hts⟩ := host_serve ht (hh.ok _ hl) hid ha
    refine ⟨by rw [Config.served_state, hdev]; exact hu, ?_, fun x hx => ?_⟩
    · rw [State.HasWeddingID, Config.served_state, (serve_other_documents ha ht.newUser).2]
      exact hid
    · rcases Config.mem_served hx with hx | ⟨_, hx⟩
      · exact hp x hx
      · exact hts _ hx

theorem host_at (hh : OneHost s0 d uid id ls) (hr : (app UIImage).run (.init s0) ls = some c)
    {x : Config (State UIImage) Task × Label (Action UIImage) Env}
    (hx : x ∈ (app UIImage).history (.init s0) ls) :
    (x.1.state.device d).currentUser = some uid ∧ x.1.state.HasWeddingID uid id := by
  obtain ⟨ls1, ls2, c2, rfl, h1, _, _⟩ := System.history_split hr hx
  have hh1 : OneHost s0 d uid id ls1 :=
    ⟨hh.signedIn, hh.user, fun a e hm => hh.actions a e (List.mem_append_left _ hm),
      fun l hm => hh.ok l (List.mem_append_left _ hm)⟩
  obtain ⟨hu, hid, _⟩ := host_of_run hh1 h1
  exact ⟨hu, hid⟩

theorem served_of_tap (hh : OneHost s0 d uid id ls)
    (hr : (app UIImage).run (.init s0) ls = some c) {k : Nat} {t : Task} {e : Env}
    (hs : Served ((app UIImage).history (.init s0) ls) k t e) :
    ∃ c0 e0, (c0, .act (.tapSave d) e0) ∈ (app UIImage).history (.init s0) ls ∧ c0.clock = k := by
  obtain ⟨c1, i, hm, hi⟩ := hs
  obtain ⟨ls1, ls2, c2, hls, h1, _, _⟩ := System.history_split hr hm
  obtain ⟨a, e0, c0, hm0, hk⟩ := System.acted_of_pending h1 (mem_of_getElem? hi)
  have hm0' : (c0, .act a e0) ∈ (app UIImage).history (.init s0) ls := by
    rw [hls, System.history_append h1]; exact List.mem_append_left _ hm0
  rcases hh.actions a e0 (System.mem_of_history hm0') with rfl | ⟨form, rfl⟩
  · exact ⟨c0, e0, hm0', hk⟩
  · -- an edit of the form leaves nothing pending
    obtain ⟨s, ts, ls3, ha, hr3, hdes, _, hback⟩ := System.descend_act hr hm0'
    obtain ⟨_, rfl⟩ := served_eq ha
    subst hk
    have hs3 := hback t e ⟨c1, i, hm, hi⟩
    have hnone := System.lineage_rule (P := fun _ => False) hr3 (Nat.lt_succ_self _)
      (by rw [hdes]; nofun) (fun _ _ _ _ _ hf => hf.elim) t e hs3
    exact hnone.elim

/-- The configuration at the tap, with nothing in flight and no tap on Save after it. -/
structure LastTap (d : DeviceID) (h : List (Config (State UIImage) Task × Label (Action UIImage) Env))
    (c : Config (State UIImage) Task) : Prop where
  tap : ∃ e, (c, .act (.tapSave d) e) ∈ h
  quiet : c.pending = []
  last : ∀ c' e, (c', .act (.tapSave d) e) ∈ h → c'.clock ≤ c.clock

variable {c0 : Config (State UIImage) Task} {form : FormScreen UIImage} {uuid : Nat → String}

/-- After the last tap, only requests of that Save are served. -/
theorem served_after_last (hh : OneHost s0 d uid id ls)
    (hr : (app UIImage).run (.init s0) ls = some c)
    (hl : LastTap d ((app UIImage).history (.init s0) ls) c0) :
    ∃ s ts ls', s.firestore = c0.state.firestore ∧
      (app UIImage).run (c0.acted s ts) ls' = some c ∧
      ∀ k t e, Served ((app UIImage).history (c0.acted s ts) ls') k t e →
        k = c0.clock ∧ Served ((app UIImage).history (.init s0) ls) k t e := by
  obtain ⟨e, htap⟩ := hl.tap
  obtain ⟨s, ts, ls', ha, hr', _, hmem, _⟩ := System.descend_act hr htap
  have hact : act (.tapSave d) e c0.state = some (s, ts) := ha
  refine ⟨s, ts, ls', act_firestore hact, hr', fun k t e hs => ⟨?_, hs.mono hmem⟩⟩
  refine System.quiet_rule (P := fun k _ => k = c0.clock) hr' ?_ ?_ ?_ k t e hs
  · intro a e s1 s2 us ha1 ha2
    rw [← System.history_labels hr'] at ha1
    obtain ⟨⟨c1, _⟩, hm, rfl⟩ := List.mem_map.mp ha1
    have hle := System.clock_le_of_history hr' hm
    have hm' := hmem _ hm
    rcases hh.actions a e (System.mem_of_history hm') with rfl | ⟨form, rfl⟩
    · have hlast := hl.last c1 e hm'
      simp only [Config.acted_clock] at hle
      omega
    · exact (served_eq ha2).2
  · intro x hx
    rcases Config.mem_acted.mp hx with hx | ⟨hk, _⟩
    · rw [hl.quiet] at hx; cases hx
    · exact hk
  · intro _ _ _ _ _ _ hk _ _ _
    exact hk

/-- A register that the last Save wrote holds a value of that Save. -/
theorem last_save_wrote (hh : OneHost s0 d uid id ls)
    (hr : (app UIImage).run (.init s0) ls = some c)
    (hl : LastTap d ((app UIImage).history (.init s0) ls) c0) {ν : Type}
    {R : Register (app UIImage) ν} (hw : ∃ v, R.Wrote ((app UIImage).history (.init s0) ls) c0.clock v) :
    ∃ v, R.Wrote ((app UIImage).history (.init s0) ls) c0.clock v ∧ R.val c.state = some v := by
  obtain ⟨w, hw⟩ := hw
  obtain ⟨m, v, hm, hv, hlater⟩ := Register.last_writer hr ⟨_, w, hw⟩
  rcases Nat.lt_trichotomy m c0.clock with hlt | heq | hgt
  · -- an earlier Save had nothing in flight any more
    obtain ⟨cj, a, e, hcj, hck, hlive⟩ := hlater c0.clock w hw hlt
    obtain ⟨e0, htap⟩ := hl.tap
    obtain ⟨rfl, _, _⟩ := System.act_unique hr hcj htap hck
    obtain ⟨t, ht⟩ := hlive
    rw [hl.quiet] at ht; cases ht
  · subst heq; exact ⟨v, hm, hv⟩
  · obtain ⟨t, e, hs, _⟩ := hm
    obtain ⟨c1, e1, htap, rfl⟩ := served_of_tap hh hr hs
    have hlast := hl.last c1 e1 htap
    omega

theorem last_save_kept (hh : OneHost s0 d uid id ls)
    (hr : (app UIImage).run (.init s0) ls = some c)
    (hl : LastTap d ((app UIImage).history (.init s0) ls) c0) {ν : Type}
    {R : Register (app UIImage) ν} (hval : ∀ s s' : State UIImage, s'.firestore = s.firestore →
      R.val s' = R.val s)
    (hno : ∀ v, ¬ R.Wrote ((app UIImage).history (.init s0) ls) c0.clock v) :
    R.val c.state = R.val c0.state := by
  obtain ⟨s, ts, ls', hf, hr', hserved⟩ := served_after_last hh hr hl
  refine (Register.unwritten hr' ?_).trans (hval c0.state s hf)
  rintro k v ⟨t, e, hs, hw⟩
  obtain ⟨rfl, hs'⟩ := hserved k t e hs
  exact hno v ⟨t, e, hs', hw⟩

theorem merged_of_saved (hh : OneHost s0 d uid id ls)
    (hr : (app UIImage).run (.init s0) ls = some c) (hq : c.pending = []) {k : Nat}
    (hs : SavedUnder ((app UIImage).history (.init s0) ls) k d uid id form uuid) {p : Photo}
    (hp : p ∈ form.photos id uuid) : Merged ((app UIImage).history (.init s0) ls) k p := by
  obtain ⟨e, c1, hat⟩ := hs.photos p hp
  obtain ⟨s, ts, ha, hts⟩ := System.served_next hr (not_live_of_drained hq _) hat
  obtain ⟨i, hm, _⟩ := hat
  have he : e.error = none := hh.ok _ (System.mem_of_history hm)
  obtain ⟨_, rfl⟩ := served_eq ha
  rw [he] at hts
  obtain ⟨e', c2, i', hm', hi'⟩ := hts (.photoMerge p) (List.mem_singleton_self _)
  exact ⟨e', ⟨c2, i', hm', hi'⟩, hh.ok _ (System.mem_of_history hm')⟩

/-- The photo fields after the last Save: its own hold its paths, the others what they held. -/
theorem photos_of_last (hh : OneHost s0 d uid id ls)
    (hr : (app UIImage).run (.init s0) ls = some c) (hq : c.pending = [])
    (hl : LastTap d ((app UIImage).history (.init s0) ls) c0)
    (hs : SavedUnder ((app UIImage).history (.init s0) ls) c0.clock d uid id form uuid) :
    (∀ p ∈ form.photos id uuid,
      c.state.firestore.field (photoDocument p.isGallery id) p.field = some (.string p.path)) ∧
    ∀ g f, (∀ p ∈ form.photos id uuid, p.isGallery = g → p.field ≠ f) →
      c.state.firestore.field (photoDocument g id) f =
        c0.state.firestore.field (photoDocument g id) f := by
  have hown : ∀ p, Merged ((app UIImage).history (.init s0) ls) c0.clock p →
      p ∈ form.photos id uuid := by
    rintro p ⟨e, hsv, _⟩
    rcases hs.only _ _ hsv with h | h | h
    · cases h
    · cases h
    · cases h with
      | merge hp => exact hp
  constructor
  · intro p hp
    have hpid : p.weddingID = id := (photo_shape hp).1
    have hm := merged_of_saved hh hr hq hs hp
    obtain ⟨v, hw, hv⟩ := last_save_wrote (R := photoField p.isGallery id p.field) hh hr hl
      ⟨_, wrote_photoField.mpr ⟨p, hm, rfl, hpid, rfl, rfl⟩⟩
    obtain ⟨q, hmq, hg, hqid, hf, rfl⟩ := wrote_photoField.mp hw
    have hqp : q = p := by
      refine photo_unique (hown q hmq) hp ?_ hf
      rw [Photo.reference_eq, Photo.reference_eq, hg, hqid, hpid]
    subst hqp
    exact hv
  · intro g f hno
    refine last_save_kept (R := photoField g id f) hh hr hl ?_ ?_
    · intro s s' hf
      show s'.firestore.field _ _ = s.firestore.field _ _
      rw [hf]
    · intro v hw
      obtain ⟨p, hm, hg, _, hf, _⟩ := wrote_photoField.mp hw
      exact hno p (hown p hm) hg hf

theorem wedding_of_last (hh : OneHost s0 d uid id ls)
    (hr : (app UIImage).run (.init s0) ls = some c)
    (hl : LastTap d ((app UIImage).history (.init s0) ls) c0)
    (hs : SavedUnder ((app UIImage).history (.init s0) ls) c0.clock d uid id form uuid) :
    c.state.firestore.lookup (weddingDocument id) = some (form.wedding id).toDictionary := by
  obtain ⟨e, c1, i, hm, hi⟩ := hs.wedding
  have he : e.error = none := hh.ok _ (System.mem_of_history hm)
  obtain ⟨v, ⟨t, e', hsv, hwr⟩, hv⟩ := last_save_wrote (R := weddingRegister id) hh hr hl
    ⟨_, _, e, ⟨c1, i, hm, hi⟩, by simp [weddingRegister, weddingWrites, he]; rfl⟩
  rcases hs.only _ _ hsv with rfl | rfl | h
  · simp [weddingRegister, weddingWrites] at hwr
  · simp [weddingRegister, weddingWrites] at hwr
  · cases h with
    | wedding =>
      have hw : weddingWrites id (.weddingWrite id (form.wedding id).toDictionary) e' = some v := hwr
      unfold weddingWrites at hw
      split at hw
      · rename_i heq
        cases heq
        rw [if_pos rfl] at hw; cases hw
        exact hv
      · cases hw
    | put => simp [weddingRegister, weddingWrites] at hwr
    | merge => simp [weddingRegister, weddingWrites] at hwr

end Host

/-- What guests see once no request is in flight. -/
theorem last_save {s0 : State UIImage} {d : DeviceID} {uid : UID} {id : String}
    {ls : List (Label (Action UIImage) Env)} {c : Config (State UIImage) Task}
    (hh : OneHost s0 d uid id ls) (hr : (app UIImage).run (.init s0) ls = some c)
    (hq : c.pending = []) :
    ((∃ k v, (weddingRegister id).Wrote ((app UIImage).history (.init s0) ls) k v) →
      (weddingRegister id).Held ((app UIImage).history (.init s0) ls) c.state) ∧
    (∀ g f, (∃ k v, (photoField g id f).Wrote ((app UIImage).history (.init s0) ls) k v) →
      (photoField g id f).Held ((app UIImage).history (.init s0) ls) c.state) ∧
    ∀ c0, LastTap d ((app UIImage).history (.init s0) ls) c0 →
      ∃ (form : FormScreen UIImage) (uuid : Nat → String) (ps : List Photo) (urls : List String),
        SavedUnder ((app UIImage).history (.init s0) ls) c0.clock d uid id form uuid ∧
        c.state.firestore.lookup (weddingDocument id) = some (form.wedding id).toDictionary ∧
        (∀ p, IsPhoto form id uuid p →
          c.state.firestore.field (photoDocument p.isGallery id) p.field = some (.string p.path)) ∧
        ps.Nodup ∧ (∀ p, p ∈ ps ↔ ∃ j, IsGallery form.galleryImages id uuid j p) ∧
        c.state.galleryUrls id = (urls, none) ∧
        urls.Perm (ps.map Photo.path ++
          keptUrls ps (c0.state.firestore.fields (document "Gallery" id))) := by
  refine ⟨Register.last_writer hr, fun g f => Register.last_writer hr, fun c0 hl => ?_⟩
  obtain ⟨e0, htap⟩ := hl.tap
  obtain ⟨c1, e1, hat, hfound, _⟩ := save_chain hr hq htap (host_at hh hr htap).1
  obtain ⟨i, hm, _⟩ := hat
  have he : e1.error = none := hh.ok _ (System.mem_of_history hm)
  obtain ⟨form, uuid, hs⟩ := hfound id (by rw [he]; exact weddingIDReply_found (host_at hh hr hm).2)
  obtain ⟨hphotos, hkept⟩ := photos_of_last hh hr hq hl hs
  refine ⟨form, uuid, form.galleryPhotos id uuid, _, hs, wedding_of_last hh hr hl hs,
    fun p hp => hphotos p (mem_photos_iff.mpr hp), galleryPhotos_nodup form id uuid,
    fun p => mem_galleryPhotos, galleryUrls_eq c.state id, ?_⟩
  refine gallery_perm (List.Sublist.refl _) _ _ ?_ ?_
  · intro p hp
    have hfield := hphotos p (mem_photos_of_gallery hp)
    obtain ⟨_, _, _, _, _, rfl⟩ := mem_galleryPhotos.mp hp
    exact hfield
  · intro f hno
    refine hkept true f fun p hp hg => hno p ?_
    rcases mem_photos_iff.mp hp with ⟨_, _, _, _, rfl⟩ | ⟨_, _, _, _, rfl⟩ | hj
    · cases hg
    · cases hg
    · exact mem_galleryPhotos.mpr hj

/-! ## Two Saves -/

/-- A host with the wedding ID `0007`, signed in on device 0. -/
def hostState : State Data :=
  { (State.new Data).onDevice 0 (fun v => { v with currentUser := some "A", isSignedIn := true }) with
    firestore := (∅ : Firestore).set (userDocument "A")
      (User.toDictionary ⟨"a@a.com", "Customer", "+901111111111", "0007"⟩) }

def hostForm (location : String) (images : List Data) : FormScreen Data :=
  { (Device.new Data).form with location := location, galleryImages := some images }

def uuids (name : String) : Env := { Env.ok with uuid := fun i => name ++ toString i }

/-- A Save of two gallery images; once it is over, a Save of one. -/
def shorterGallery : List (Label (Action Data) Env) :=
  [.act (.editForm 0 (hostForm "Izmir" [[1], [2]])) .ok, .act (.tapSave 0) .ok, .serve 0 .ok,
    .serve 0 (uuids "a"), .serve 0 .ok, .serve 0 .ok, .serve 0 .ok, .serve 0 .ok, .serve 0 .ok,
    .act (.editForm 0 (hostForm "Ankara" [[3]])) .ok, .act (.tapSave 0) .ok, .serve 0 .ok,
    .serve 0 (uuids "b"), .serve 0 .ok, .serve 0 .ok, .serve 0 .ok]

/-- Two Saves that overlap: the wedding of the second is written first. -/
def overlappingSaves : List (Label (Action Data) Env) :=
  [.act (.editForm 0 (hostForm "Izmir" [])) .ok, .act (.tapSave 0) .ok, .serve 0 .ok, .serve 0 .ok,
    .act (.editForm 0 (hostForm "Ankara" [])) .ok, .act (.tapSave 0) .ok, .serve 1 .ok, .serve 1 .ok,
    .serve 1 .ok, .serve 0 .ok]

theorem oneHost_shorterGallery : OneHost hostState 0 "A" "0007" shorterGallery where
  signedIn := rfl
  user := ⟨_, AList.lookup_insert _, User.toDictionary_weddingID _⟩
  actions := by
    intro a e hm
    simp only [shorterGallery, List.mem_cons, List.not_mem_nil, or_false, Label.act.injEq, reduceCtorEq,
      false_or] at hm
    rcases hm with ⟨rfl, _⟩ | ⟨rfl, _⟩ | ⟨rfl, _⟩ | ⟨rfl, _⟩
    · exact .inr ⟨_, rfl⟩
    · exact .inl rfl
    · exact .inr ⟨_, rfl⟩
    · exact .inl rfl
  ok := by decide

/-- The gallery of the second Save, and the photo of the first that it did not reach. -/
theorem shorterGallery_held : ∃ c c0 form uuid ps,
    (app Data).run (.init hostState) shorterGallery = some c ∧ c.pending = [] ∧
    LastTap 0 ((app Data).history (.init hostState) shorterGallery) c0 ∧
    SavedUnder ((app Data).history (.init hostState) shorterGallery) c0.clock 0 "A" "0007" form uuid ∧
    (weddingRegister "0007").Held ((app Data).history (.init hostState) shorterGallery) c.state ∧
    c.state.firestore.lookup (weddingDocument "0007") = some (form.wedding "0007").toDictionary ∧
    (∀ p, p ∈ ps ↔ ∃ j, IsGallery form.galleryImages "0007" uuid j p) ∧
    ["images/0007/gallery/b2.png", "images/0007/gallery/a3.png"].Perm (ps.map Photo.path ++
      keptUrls ps (c0.state.firestore.fields (document "Gallery" "0007"))) := by
  obtain ⟨c, c0, hr, hq, htap, hquiet, hclock, hurls⟩ : ∃ c c0,
      (app Data).run (.init hostState) shorterGallery = some c ∧ c.pending = [] ∧
      ((app Data).history (.init hostState) shorterGallery)[10]? = some (c0, .act (.tapSave 0) .ok) ∧
      c0.pending = [] ∧ c0.clock = 3 ∧ c.state.galleryUrls "0007" =
        (["images/0007/gallery/b2.png", "images/0007/gallery/a3.png"], none) :=
    ⟨_, _, rfl, rfl, rfl, rfl, rfl, rfl⟩
  have hclocks : ((app Data).history (.init hostState) shorterGallery).all (fun x =>
      x.2.isServe || x.1.clock ≤ 3) = true := by decide
  have hl : LastTap 0 ((app Data).history (.init hostState) shorterGallery) c0 := by
    refine ⟨⟨_, List.mem_of_getElem? htap⟩, hquiet, fun c' e hm => ?_⟩
    have hc := List.all_eq_true.mp hclocks _ hm
    rw [hclock]
    simpa [Label.isServe] using hc
  obtain ⟨hwedding, _, hlast⟩ := last_save oneHost_shorterGallery hr hq
  obtain ⟨form, uuid, ps, urls, hs, hw, _, _, hps, hurls', hperm⟩ := hlast c0 hl
  rw [hurls] at hurls'
  cases hurls'
  refine ⟨c, c0, form, uuid, ps, hr, hq, hl, hs, hwedding ?_, hw, hps, hperm⟩
  obtain ⟨e, c1, i, hm, hi⟩ := hs.wedding
  have he : e.error = none := oneHost_shorterGallery.ok _ (System.mem_of_history hm)
  exact ⟨_, _, _, e, ⟨c1, i, hm, hi⟩, by simp [weddingRegister, weddingWrites, he]; rfl⟩

/-- The gallery mixes both Saves, and the place is the one of the earlier Save. -/
theorem saves_mixed :
    (∃ c, (app Data).run (.init hostState) shorterGallery = some c ∧ c.pending = [] ∧
      c.state.galleryUrls "0007" =
        (["images/0007/gallery/b2.png", "images/0007/gallery/a3.png"], none)) ∧
    ∃ c, (app Data).run (.init hostState) overlappingSaves = some c ∧ c.pending = [] ∧
      (c.state.device 0).form.location = "Ankara" ∧
      c.state.firestore.field (weddingDocument "0007") "location" = some (.string "Izmir") := by
  constructor
  · have h : ((app Data).run (.init hostState) shorterGallery).map
        (fun c => (c.pending.length, c.state.galleryUrls "0007")) =
          some (0, ["images/0007/gallery/b2.png", "images/0007/gallery/a3.png"], none) := by decide
    obtain ⟨c, hr, hc⟩ := Option.map_eq_some_iff.mp h
    simp only [Prod.mk.injEq] at hc
    exact ⟨c, hr, List.length_eq_zero_iff.mp hc.1, hc.2⟩
  · have h : ((app Data).run (.init hostState) overlappingSaves).map
        (fun c => (c.pending.length, (c.state.device 0).form.location,
          c.state.firestore.field (weddingDocument "0007") "location")) =
          some (0, "Ankara", some (.string "Izmir")) := by decide
    obtain ⟨c, hr, hc⟩ := Option.map_eq_some_iff.mp h
    simp only [Prod.mk.injEq] at hc
    exact ⟨c, hr, List.length_eq_zero_iff.mp hc.1, hc.2⟩

end WeddApp
