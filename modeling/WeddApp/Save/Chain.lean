import WeddApp.App.Client
import WeddApp.App.Uploads
import WeddApp.Async.Lineage

/-!
# Save.Chain

One Save, from the tap to its last upload: the read of the user document, the hop to the main queue
when an ID was found, and then the write of the wedding beside one upload-then-merge chain for each
photo.

* `Upload`: the requests of a Save once it knows the ID and has read the form.
* `Runs.save_chain`: a Save whose requests are all answered either went through the whole chain
  (`SavedUnder`) or stopped at the read (`Dropped`), as the reply to the read says; `save_chain` is
  the case of `app` itself.
-/

namespace WeddApp

open Async

variable {UIImage : Type} [UIKit UIImage]

/-- What a Save sends under `id` for `form`, with the UUIDs that it drew. -/
inductive Upload (id : String) (form : FormScreen UIImage) (uuid : Nat → String) : Task → Prop where
  | wedding : Upload id form uuid (.weddingWrite id (form.wedding id).toDictionary)
  | put {p : Photo} (hp : p ∈ form.photos id uuid) : Upload id form uuid (.photoPut p)
  | merge {p : Photo} (hp : p ∈ form.photos id uuid) : Upload id form uuid (.photoMerge p)

def State.weddingIDReply (s : State UIImage) (uid : UID) (error : Option NSError) :
    Completion (Option String × Option NSError) :=
  getWeddingIDFromUser.onDocument (s.getDocument (userDocument uid) error)

/-- Save number `k` found `id`, read the form when the completion ran, and everything that it sent
was for that ID and that form. -/
structure SavedUnder (h : List (Config (State UIImage) Task × Label (Action UIImage) Env)) (k : Nat)
    (d : DeviceID) (uid : UID) (id : String) (form : FormScreen UIImage) (uuid : Nat → String) :
    Prop where
  main : ∃ c e, ServedAt h c k (.saveMain d (some id) none) e ∧ form = (c.state.device d).form ∧
    uuid = e.uuid
  wedding : ∃ e, Served h k (.weddingWrite id (form.wedding id).toDictionary) e
  photos : ∀ p ∈ form.photos id uuid, ∃ e, Served h k (.photoPut p) e
  only : ∀ t e, Served h k t e →
    t = .saveRead d uid ∨ t = .saveMain d (some id) none ∨ Upload id form uuid t

/-- Save number `k` ended in the error branch with `m` and sent nothing after the read, which was
served in `c1`. -/
structure Dropped (h : List (Config (State UIImage) Task × Label (Action UIImage) Env)) (k : Nat)
    (d : DeviceID) (uid : UID) (c1 : Config (State UIImage) Task) (e1 : Env) (m : NSError) : Prop where
  reported : serve (.saveRead d uid) e1 c1.state =
    some (c1.state.report (.error (.firestoreError m)), [])
  only : ∀ t e, Served h k t e → t = .saveRead d uid

theorem mem_onWeddingID {d : DeviceID} {id : String} {uuid : Nat → String} {s : State UIImage}
    {t : Task} :
    t ∈ (FormScreen.onWeddingID d (some id) none uuid s).2 ↔
      t = .weddingWrite id ((s.device d).form.wedding id).toDictionary ∨
        ∃ p ∈ (s.device d).form.photos id uuid, t = .photoPut p := by
  rw [onWeddingID_tasks, List.mem_cons, mem_uploadPhotos]
  refine or_congr_right ⟨?_, ?_⟩
  · rintro ⟨p, rfl, hp⟩; exact ⟨p, mem_photos_iff.mpr hp, rfl⟩
  · rintro ⟨p, hp, rfl⟩; exact ⟨p, rfl, mem_photos_iff.mp hp⟩

theorem Upload.hands_down {id : String} {form : FormScreen UIImage} {uuid : Nat → String} {t : Task}
    {e : Env} {s s' : State UIImage} {ts : List Task} (hu : Upload id form uuid t)
    (h : serve t e s = some (s', ts)) : ∀ u ∈ ts, Upload id form uuid u := by
  cases hu with
  | wedding => obtain ⟨_, rfl⟩ := served_eq h; nofun
  | @put p hp =>
    obtain ⟨_, rfl⟩ := served_eq h
    intro u hu
    unfold uploadPhoto.onUpload at hu
    split at hu
    · cases hu
    · rw [List.mem_singleton.mp hu]; exact .merge hp
  | merge hp => obtain ⟨_, rfl⟩ := served_eq h; nofun

section Run

variable {σ : Type} {S : System σ Task (Action UIImage) Env} {app : σ → State UIImage}
  {seen : σ → DeviceID → UID → State UIImage}

theorem Runs.saved_of_main (hS : Runs S app seen)
    {h : List (Config σ Task × Label (Action UIImage) Env)} {k : Nat}
    {d : DeviceID} {id : String} {c c1 c2 : Config σ Task} {e : Env}
    {ls : List (Label (Action UIImage) Env)} {ts : List Task} (hq : c.pending = [])
    (ha : S.Answered h c k (.saveMain d (some id) none) c1 e c2 ls ts) :
    (∃ e', Served h k (.weddingWrite id (((app c1.state).device d).form.wedding id).toDictionary) e') ∧
      (∀ p ∈ ((app c1.state).device d).form.photos id e.uuid, ∃ e', Served h k (.photoPut p) e') ∧
      ∀ t e', Served h k t e' →
        t = .saveMain d (some id) none ∨ Upload id ((app c1.state).device d).form e.uuid t := by
  have hserve : serve (.saveMain d (some id) none) e (app c1.state) = some (app c2.state, ts) :=
    hS.serves (fun _ _ => nofun) ha.serve
  obtain ⟨_, hts⟩ := served_eq hserve
  have hpend : ∀ t ∈ ts, ∃ e', Served h k t e' := by
    intro t ht
    rw [← ha.descendants, Config.mem_descendants] at ht
    obtain ⟨e', he'⟩ := System.served_of_over ha.run ht (not_live_of_drained hq _)
    exact ⟨e', he'.mono ha.mem⟩
  refine ⟨hpend _ ?_, fun p hp => hpend _ ?_, fun t e' hs => ?_⟩
  · rw [hts]; exact mem_onWeddingID.mpr (.inl rfl)
  · rw [hts]; exact mem_onWeddingID.mpr (.inr ⟨p, hp, rfl⟩)
  · rcases ha.only t e' hs with ⟨rfl, _⟩ | hs
    · exact .inl rfl
    · refine .inr (System.lineage_rule ha.run ha.clock ?_ ?_ t e' hs)
      · intro u hu
        rw [ha.descendants, hts] at hu
        rcases mem_onWeddingID.mp hu with rfl | ⟨p, hp, rfl⟩
        · exact .wedding
        · exact .put hp
      · intro u e2 s s' ts' hu h2
        exact hu.hands_down (hS.serves (by rintro d' uid' rfl; cases hu) h2)

theorem Runs.save_chain (hS : Runs S app seen) {s0 : σ} {ls : List (Label (Action UIImage) Env)}
    {c c0 : Config σ Task} {d : DeviceID} {e0 : Env} {uid : UID}
    (hr : S.run (.init s0) ls = some c) (hq : c.pending = [])
    (htap : (c0, .act (.tapSave d) e0) ∈ S.history (.init s0) ls)
    (hu : ((app c0.state).device d).currentUser = some uid) :
    ∃ c1 e1, ServedAt (S.history (.init s0) ls) c1 c0.clock (.saveRead d uid) e1 ∧
      (∀ id, (seen c1.state d uid).weddingIDReply uid e1.error = .onMain (some id, none) →
        ∃ form uuid,
          SavedUnder (mapHistory app (S.history (.init s0) ls)) c0.clock d uid id form uuid) ∧
      ∀ m, (seen c1.state d uid).weddingIDReply uid e1.error = .now (none, some m) →
        Dropped (mapHistory app (S.history (.init s0) ls)) c0.clock d uid
          (c1.map fun s => seen s d uid) e1 m := by
  have hdead := not_live_of_drained hq
  obtain ⟨s, ts, ls0, hact, hr0, hdes, hmem, hback⟩ := System.descend_act hr htap
  have hts : ts = [.saveRead d uid] := by
    have hact := hS.acts hact
    simp only [act] at hact
    split at hact
    · obtain ⟨_, hts⟩ := served_eq hact
      simp only [hts, getWeddingIDFromUser, hu]
    · cases hact
  subst hts
  obtain ⟨c1, e1, c2, ls1, ts1, ha⟩ := System.follow hr0 (Nat.lt_succ_self _) hdes (hdead _)
  obtain ⟨s1, hserve, _⟩ := hS.reads ha.serve
  obtain ⟨i, hm, hi⟩ := ha.served
  refine ⟨c1, e1, ⟨i, hmem _ hm, hi⟩, ?_, ?_⟩
  · intro id hid
    simp only [serve] at hserve
    rw [State.weddingIDReply] at hid
    rw [hid] at hserve
    obtain ⟨_, hts1⟩ := served_eq hserve
    have hdes1 := ha.descendants
    rw [hts1] at hdes1
    obtain ⟨c3, e3, c4, ls3, ts3, ha3⟩ := System.follow ha.run ha.clock hdes1 (hdead _)
    obtain ⟨⟨e4, hw⟩, hph, honly⟩ := hS.saved_of_main hq ha3
    have hup : ∀ x ∈ S.history c2 ls1, x ∈ S.history (.init s0) ls :=
      fun x hx => hmem x (ha.mem x hx)
    obtain ⟨i3, hm3, hi3⟩ := ha3.served
    refine ⟨((app c3.state).device d).form, e3.uuid,
      ⟨c3.map app, e3, servedAt_map ⟨i3, hup _ hm3, hi3⟩, rfl, rfl⟩,
      ⟨e4, served_map.mpr (hw.mono hup)⟩, ?_, ?_⟩
    · intro p hp
      obtain ⟨e5, h5⟩ := hph p hp
      exact ⟨e5, served_map.mpr (h5.mono hup)⟩
    · intro t e hs
      rcases ha.only t e (hback t e (served_map.mp hs)) with ⟨rfl, _⟩ | hs
      · exact .inl rfl
      · exact .inr (honly t e hs)
  · intro m hid
    rw [State.weddingIDReply] at hid
    have hserve' := hserve
    simp only [serve, hid, FormScreen.onWeddingID] at hserve'
    obtain ⟨_, hts1⟩ := served_eq hserve'
    refine ⟨?_, ?_⟩
    · simp only [serve, Config.map_state, hid]; rfl
    · intro t e hs
      rcases ha.only t e (hback t e (served_map.mp hs)) with ⟨rfl, _⟩ | hs
      · rfl
      · refine absurd (System.lineage_rule (P := fun _ => False) ha.run ha.clock ?_ ?_ t e hs) id
        · intro u hu
          rw [ha.descendants, hts1] at hu; cases hu
        · intro _ _ _ _ _ hf; exact hf.elim

end Run

theorem save_chain {s0 : State UIImage} {ls : List (Label (Action UIImage) Env)}
    {c c0 : Config (State UIImage) Task} {d : DeviceID} {e0 : Env} {uid : UID}
    (hr : (app UIImage).run (.init s0) ls = some c) (hq : c.pending = [])
    (htap : (c0, .act (.tapSave d) e0) ∈ (app UIImage).history (.init s0) ls)
    (hu : (c0.state.device d).currentUser = some uid) :
    ∃ c1 e1, ServedAt ((app UIImage).history (.init s0) ls) c1 c0.clock (.saveRead d uid) e1 ∧
      (∀ id, c1.state.weddingIDReply uid e1.error = .onMain (some id, none) →
        ∃ form uuid, SavedUnder ((app UIImage).history (.init s0) ls) c0.clock d uid id form uuid) ∧
      ∀ m, c1.state.weddingIDReply uid e1.error = .now (none, some m) →
        Dropped ((app UIImage).history (.init s0) ls) c0.clock d uid c1 e1 m := by
  have hchain := app_runs.save_chain hr hq htap hu
  rw [mapHistory_id] at hchain
  exact hchain

end WeddApp
