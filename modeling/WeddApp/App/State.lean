import WeddApp.Model.Models
import WeddApp.Text.Regex

/-!
# App.State

The state of the whole system: the Firebase backend (accounts, Firestore, Storage) and the devices
that run the app, with what each screen of a device holds.

* `DocumentReference`: `db.collection(c).document(id)`, as its path. IDs are taken as path
  components, that is non-empty and without `/`, as the ones the SDK accepts.
* `Device`: the signed-in user, the `@State` of the authentication page and of the form, and
  `UserDefaults`.
* `Event`: what the callbacks report: completion handler calls, console lines and alerts. The log
  holds the latest first.
-/

namespace WeddApp

open Documents

abbrev UID := String
abbrev DeviceID := Nat
abbrev DocumentReference := List String
abbrev Firestore := Store DocumentReference String Value
abbrev Storage := AList fun _ : String => Data
abbrev UserDefaults := AList fun _ : String => String

def document (collection id : String) : DocumentReference := [collection, id]

def subdocument (collection id collection' id' : String) : DocumentReference :=
  [collection, id, collection', id']

theorem document_ne {c c' id id' : String} (h : c ≠ c') : document c id ≠ document c' id' := by
  intro he
  simp only [document, List.cons.injEq] at he
  exact h he.1

theorem document_inj {c id id' : String} : document c id = document c id' ↔ id = id' := by
  simp [document]

theorem document_ne_subdocument {c id c1 id1 c2 id2 : String} :
    document c id ≠ subdocument c1 id1 c2 id2 := by
  simp [document, subdocument]

/-- `getData(maxSize:)`: the stored bytes, unless there are too many or none. -/
def Storage.getData (s : Storage) (path : String) (maxSize : Nat) : Option Data :=
  match s.lookup path with
  | none => none
  | some data => if data.length ≤ maxSize then some data else none

structure Account where
  email : String
  password : String
  uid : UID

/-- The fields of `AuthenticationView`. -/
structure AuthPage where
  email : String
  password : String
  confirmPassword : String
  regionCode : String
  phoneNumber : String

/-- The fields of `FormScreen` that a Save reads. -/
structure FormScreen (UIImage : Type) where
  groomName : String
  groomSurname : String
  groomImage : Option UIImage
  brideName : String
  brideSurname : String
  brideImage : Option UIImage
  weddingDate : Date
  location : String
  welcomeMessage : String
  galleryImages : Option (List UIImage)

structure Device (UIImage : Type) where
  currentUser : Option UID
  isSignedIn : Bool
  isLoading : Bool
  showAlert : Bool
  alertMessage : String
  page : AuthPage
  form : FormScreen UIImage
  defaults : UserDefaults

def Device.new (UIImage : Type) : Device UIImage where
  currentUser := none
  isSignedIn := false
  isLoading := false
  showAlert := false
  alertMessage := ""
  page := ⟨"", "", "", "+90", ""⟩
  form := ⟨"", "", none, "", "", none, ⟨1, 1, 2023⟩, "", "", some []⟩
  defaults := ∅

inductive Event where
  | uniqueID (uid : UID) (id : String)
  | userCreated (uid : UID) (weddingID : String)
  | imageUploaded (weddingID subfolder path : String)
  | wishAlert (d : DeviceID) (weddingID guestID : String)
  | success (message : String)
  | error (e : WeddingError)
  deriving DecidableEq

structure State (UIImage : Type) where
  accounts : List Account
  firestore : Firestore
  storage : Storage
  device : DeviceID → Device UIImage
  log : List Event

namespace State

variable {UIImage : Type}

def new (UIImage : Type) : State UIImage :=
  ⟨[], ∅, ∅, fun _ => Device.new UIImage, []⟩

def report (s : State UIImage) (e : Event) : State UIImage := { s with log := e :: s.log }

def onDevice (s : State UIImage) (d : DeviceID) (f : Device UIImage → Device UIImage) :
    State UIImage :=
  { s with device := Function.update s.device d (f (s.device d)) }

variable (s : State UIImage) (e : Event) (d d' : DeviceID) (f : Device UIImage → Device UIImage)

@[simp] theorem report_accounts : (s.report e).accounts = s.accounts := rfl
@[simp] theorem report_firestore : (s.report e).firestore = s.firestore := rfl
@[simp] theorem report_storage : (s.report e).storage = s.storage := rfl
@[simp] theorem report_device : (s.report e).device = s.device := rfl
@[simp] theorem report_log : (s.report e).log = e :: s.log := rfl
@[simp] theorem onDevice_accounts : (s.onDevice d f).accounts = s.accounts := rfl
@[simp] theorem onDevice_firestore : (s.onDevice d f).firestore = s.firestore := rfl
@[simp] theorem onDevice_storage : (s.onDevice d f).storage = s.storage := rfl
@[simp] theorem onDevice_log : (s.onDevice d f).log = s.log := rfl
@[simp] theorem onDevice_self : (s.onDevice d f).device d = f (s.device d) :=
  Function.update_self _ _ _

theorem onDevice_ne (h : d' ≠ d) : (s.onDevice d f).device d' = s.device d' :=
  Function.update_of_ne h _ _

end State

/-- The range of `Int.random(in: 0..<10000)` is not empty. -/
instance instNeZeroDraws : @NeZero Nat Zero.ofOfNat0 10000 := ⟨Nat.succ_ne_zero 9999⟩

/-- What a step reads from the outside: the error the backend answers with, if any, the ID it
generates, `Int.random(in: 0..<10000)`, and the results of `UUID().uuidString`. -/
structure Env where
  error : Option NSError
  newID : String
  random : Fin 10000
  uuid : Nat → String

def Env.ok : Env := ⟨none, "", 0, fun _ => ""⟩

def Env.offline : Env := { Env.ok with error := some "offline" }

end WeddApp
