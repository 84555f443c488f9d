import WeddApp.App.Backend

/-!
# App.Client

The app with the documents as a device reads them. The requests of a device go through one Firestore
client, which answers a read with the device's own write of the document while that is in flight.
`client` adds this to `app` for the document that one device may write and read at the same time:
`Users/<uid>`, which `createUser` writes and a Save reads. A read of `UsedIDs/<id>` comes before the
writes of its device.

* `Runs`: what a proof about Saves or sign-ups needs of a system that runs the app.
* `app_runs`, `client_runs`: `app` and `client` are such systems.
-/

namespace WeddApp

open Async

variable {UIImage : Type}

/-- The user document that the request writes. -/
def Task.userData : Task → Option (UID × User)
  | .userWrite uid user => some (uid, user)
  | _ => none

/-- `home uid` is the device that signed up as `uid`; `writes` are the user documents in flight. -/
structure Client (UIImage : Type) where
  app : State UIImage
  home : UID → Option DeviceID
  writes : List (UID × User)

namespace Client

def new (s : State UIImage) : Client UIImage := ⟨s, fun _ => none, []⟩

/-- The write of `Users/<uid>` that `d` has in flight. -/
def ownWrite (s : Client UIImage) (d : DeviceID) (uid : UID) : Option User :=
  if s.home uid = some d then (s.writes.find? fun w => w.1 = uid).map Prod.snd else none

def seen (s : Client UIImage) (d : DeviceID) (uid : UID) : State UIImage :=
  match s.ownWrite d uid with
  | some user => s.app.setData (userDocument uid) user.toDictionary none
  | none => s.app

/-- The answer to `t` changed the app to `s'` and left `ts` to send. -/
def answered (s : Client UIImage) (t : Task) (e : Env) (s' : State UIImage) (ts : List Task) :
    Client UIImage where
  app := s'
  home :=
    match t, e.error with
    | .authCreate d _ _, none => Function.update s.home e.newID (some d)
    | _, _ => s.home
  writes :=
    (match t.userData with
    | some w => s.writes.erase w
    | none => s.writes) ++ ts.filterMap Task.userData

def act (a : Action UIImage) (e : Env) (s : Client UIImage) : Option (Client UIImage × List Task) :=
  (WeddApp.act a e s.app).map fun p => ({ s with app := p.1 }, p.2)

variable [UIKit UIImage]

def serve (t : Task) (e : Env) (s : Client UIImage) : Option (Client UIImage × List Task) :=
  match t with
  | .saveRead d uid =>
    (WeddApp.serve (.saveRead d uid) e (s.seen d uid)).map fun p =>
      ({ s with app := { p.1 with firestore := s.app.firestore } }, p.2)
  | _ => (WeddApp.serve t e s.app).map fun p => (s.answered t e p.1 p.2, p.2)

end Client

variable [UIKit UIImage]

def client (UIImage : Type) [UIKit UIImage] :
    Async.System (Client UIImage) Task (Action UIImage) Env where
  act := Client.act
  serve := Client.serve

theorem Client.serve_other {t : Task} {e : Env} {s s' : Client UIImage} {ts : List Task}
    (ht : ∀ d uid, t ≠ .saveRead d uid) (h : Client.serve t e s = some (s', ts)) :
    ∃ s1, WeddApp.serve t e s.app = some (s1, ts) ∧ s' = s.answered t e s1 ts := by
  have h' : (WeddApp.serve t e s.app).map (fun p => (s.answered t e p.1 p.2, p.2)) = some (s', ts) := by
    cases t with
    | saveRead d uid => exact absurd rfl (ht d uid)
    | authCreate | authSignIn | idRead | idWrite | userWrite | saveMain | weddingWrite | photoPut
    | photoMerge | wishWrite => exact h
  obtain ⟨⟨s1, ts1⟩, hp, heq⟩ := Option.map_eq_some_iff.mp h'
  cases heq
  exact ⟨s1, hp, rfl⟩

/-- The states of `S` hold a state of the app, and `S` runs the app on it, except that the read of a
Save is answered from the documents that its device sees. -/
structure Runs {σ : Type} (S : System σ Task (Action UIImage) Env) (app : σ → State UIImage)
    (seen : σ → DeviceID → UID → State UIImage) : Prop where
  acts : ∀ {a e s s' ts}, S.act a e s = some (s', ts) → act a e (app s) = some (app s', ts)
  serves : ∀ {t e s s' ts}, (∀ d uid, t ≠ .saveRead d uid) → S.serve t e s = some (s', ts) →
    serve t e (app s) = some (app s', ts)
  documents : ∀ s d uid, ∃ fs, seen s d uid = { app s with firestore := fs }
  reads : ∀ {d uid e s s' ts}, S.serve (.saveRead d uid) e s = some (s', ts) → ∃ s1,
    serve (.saveRead d uid) e (seen s d uid) = some (s1, ts) ∧
      app s' = { s1 with firestore := (app s).firestore }

theorem app_runs : Runs (app UIImage) id fun s _ _ => s where
  acts := id
  serves := fun _ h => h
  documents := fun s _ _ => ⟨s.firestore, rfl⟩
  reads := by
    intro d uid e s s' ts h
    have h' : serve (.saveRead d uid) e s = some (s', ts) := h
    refine ⟨s', h', ?_⟩
    have hf : s'.firestore = s.firestore := by
      rw [serve_firestore h']
      cases he : e.error <;> simp [Task.commit, he, State.backend]
    simp only [id, ← hf]

theorem client_runs : Runs (client UIImage) Client.app Client.seen where
  acts := by
    intro a e s s' ts h
    obtain ⟨p, hp, heq⟩ := Option.map_eq_some_iff.mp h
    cases heq
    exact hp
  serves := by
    intro t e s s' ts hne h
    obtain ⟨s1, hp, rfl⟩ := Client.serve_other hne h
    exact hp
  documents := by
    intro s d uid
    unfold Client.seen
    split
    · exact ⟨_, rfl⟩
    · exact ⟨_, rfl⟩
  reads := by
    intro d uid e s s' ts h
    obtain ⟨p, hp, heq⟩ := Option.map_eq_some_iff.mp h
    cases heq
    exact ⟨p.1, hp, rfl⟩

end WeddApp
