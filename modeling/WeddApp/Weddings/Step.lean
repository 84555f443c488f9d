import WeddApp.App.Step

/-!
# Weddings.Step

The weddings of the view models (`ViewModel.swift`): `uploadWedding` and `getWedding` as an
asynchronous system of their own, over the stores of the app. View models are numbered; each has the
ID that it was made with.

* `Wedding.ofDocument`: the decoder, written apart from the encoder `Wedding.toDictionary`.
* `Request`: a write in flight, with the wedding that it uploads; a read; a block on the main queue.
-/

namespace WeddApp

open Documents

/-- `String(describing:)` of an entry of a dictionary, which shows strings in quotes. -/
def Leaf.debugDescription : Leaf → String
  | .string s => "\"" ++ s ++ "\""
  | .other description => description

/-- `String(describing:)` -/
def Value.describing : Value → String
  | .string s => s
  | .other description => description
  | .map fields =>
    match fields.toList with
    | [] => "[:]"
    | entries => "[" ++ String.intercalate ", " (entries.map fun x =>
        "\"" ++ x.1 ++ "\": " ++ x.2.debugDescription) ++ "]"

/-- `as? [String: Any] ?? [:]` -/
def Value.asFields : Option Value → Fields String Leaf
  | some (.map fields) => fields
  | _ => ∅

def Leaf.asString : Leaf → Option String
  | .string s => some s
  | .other _ => none

/-- The wedding that `getWedding` builds. Both images fall back to the placeholder of the bride. -/
def Wedding.ofDocument (documentID : String) (document : Document) : Wedding :=
  let groomData := Value.asFields (document.lookup "groom")
  let brideData := Value.asFields (document.lookup "bride")
  let text (data : Fields String Leaf) (key fallback : String) : Option String :=
    some (((data.lookup key).bind Leaf.asString).getD fallback)
  let describing (key fallback : String) : Option String :=
    some (((document.lookup key).getD (.string fallback)).describing)
  { id := some documentID
    groom := some {
      name := text groomData "name" Constants.defaultName
      surname := text groomData "surname" Constants.defaultSurname
      image := text groomData "image" Constants.placeholderBrideImage }
    bride := some {
      name := text brideData "name" Constants.defaultName
      surname := text brideData "surname" Constants.defaultSurname
      image := text brideData "image" Constants.placeholderBrideImage }
    date := describing "date" Constants.defaultDate
    location := describing "location" Constants.defaultLocation
    welcomeMessage := describing "welcomeMessage" Constants.defaultWelcomeMessage }

namespace Weddings

structure ViewModel where
  id : String
  wed : Option Wedding

structure State (UIImage : Type) where
  app : WeddApp.State UIImage
  models : Nat → ViewModel

inductive Request where
  | upload (wedding : Wedding) (t : Task)
  | document (m : Nat) (id : String)
  | main (m : Nat) (documentID : String) (document : Document)

inductive Call where
  | uploadWedding (groom : Groom) (bride : Bride) (wedding : Wedding)
  | getWedding (m : Nat)

variable {UIImage : Type}

def State.report (s : State UIImage) (e : Event) : State UIImage :=
  { s with app := s.app.report e }

def State.setWed (s : State UIImage) (m : Nat) (wed : Wedding) : State UIImage :=
  { s with models := Function.update s.models m { s.models m with wed := some wed } }

/-- `document` is the request of the program that the view model `m` is part of. -/
def getWedding {ρ : Type} (document : Nat → String → ρ) (m : Nat) (id : String) : List ρ :=
  [document m id]

/-- `main` is the block on its main queue, `report` prints. -/
def getWedding.onDocument {σ ρ : Type} (main : Nat → String → Document → ρ) (report : σ → Event → σ)
    (m : Nat) (id : String) (reply : Except NSError (Option Document)) (s : σ) : σ × List ρ :=
  match reply with
  | .error e => (report s (.error (.documentError e)), [])
  | .ok (some document) => (s, [main m id document])
  | .ok none => (report s (.error (.documentError "There is no wedding with this id.")), [])

def act (call : Call) (s : State UIImage) : State UIImage × List Request :=
  match call with
  | .uploadWedding groom bride wedding =>
    let (app, ts) := WeddApp.uploadWedding groom bride wedding s.app
    ({ s with app := app }, ts.map (.upload wedding))
  | .getWedding m => (s, getWedding .document m (s.models m).id)

def serve [UIKit UIImage] (t : Request) (e : Env) (s : State UIImage) :
    Option (State UIImage × List Request) :=
  match t with
  | .upload wedding t =>
    match WeddApp.serve t e s.app with
    | none => none
    | some (app, ts) => some ({ s with app := app }, ts.map (.upload wedding))
  | .document m id =>
    some (getWedding.onDocument .main State.report m id
      (s.app.getDocument (weddingDocument id) e.error) s)
  | .main m documentID document => some (s.setWed m (.ofDocument documentID document), [])

def weddings (UIImage : Type) [UIKit UIImage] : Async.System (State UIImage) Request Call Env where
  act := fun call _ s => some (act call s)
  serve := serve

/-- What `getWedding` of the view model `m` leaves in the view models, and what it prints, when its
document is read in `s`. -/
def results [UIKit UIImage] (s : WeddApp.State UIImage) (models : Nat → ViewModel) (m : Nat)
    (e : Env) : (Nat → ViewModel) × List Event :=
  let (v, ts) := act (.getWedding m) ⟨{ s with log := [] }, models⟩
  let v := (weddings UIImage).drain [e, .ok] v ts
  (v.models, v.app.log)

end Weddings
end WeddApp
