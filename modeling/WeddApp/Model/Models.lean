import WeddApp.Model.Constants
import WeddApp.Store.Documents
import WeddApp.Text.Decimal

/-!
# Model.Models

The records of the app and their encodings as Firestore documents (`Models.swift`, `User.swift`),
and the parts of UIKit and Foundation that the code relies on.

* `Value`: what a document field can hold, as far as the app tells it apart: a string, a
  dictionary, or a value of another type, known by its description.
* A text is the sequence of its Swift `Character`s, so that `count`, `prefix` and `hasPrefix` are
  length, prefix and prefix test of that sequence.
* `UIKit`: PNG encoding and image decoding, which are not part of the repository.
-/

namespace WeddApp

open Documents

inductive Leaf where
  | string (s : String)
  | other (description : String)
  deriving DecidableEq

inductive Value where
  | string (s : String)
  | map (fields : Fields String Leaf)
  | other (description : String)
  deriving DecidableEq

def Value.asString : Value → Option String
  | .string s => some s
  | _ => none

@[simp] theorem Value.asString_string (s : String) : (Value.string s).asString = some s := rfl

abbrev Document := Fields String Value

abbrev Data := List UInt8

/-- `pngData()` and `UIImage(data:)`. -/
class UIKit (UIImage : Type) where
  pngData : UIImage → Option Data
  ofData : Data → Option UIImage

/-- Images that are their own PNG data. -/
instance : UIKit Data := ⟨some, some⟩

/-- A calendar day, which is all of a `Date` that `formatDateToString` shows. -/
structure Date where
  day : Nat
  month : Nat
  year : Nat
  deriving DecidableEq

/-- `dd.MM.yyyy`, in the Gregorian calendar and in ASCII digits; a `DateFormatter` takes both from the
locale of its device. -/
def formatDateToString (date : Date) : String :=
  Text.padLeft 2 date.day ++ "." ++ Text.padLeft 2 date.month ++ "." ++ Text.padLeft 4 date.year

structure Groom where
  name : Option String
  surname : Option String
  image : Option String

structure Bride where
  name : Option String
  surname : Option String
  image : Option String

structure Wedding where
  id : Option String
  groom : Option Groom
  bride : Option Bride
  date : Option String
  location : Option String
  welcomeMessage : Option String

def Wedding.toDictionary (w : Wedding) : Document :=
  .ofList [
    ("id", .string (w.id.getD "0")),
    ("groom", .map (.ofList [
      ("name", .string ((w.groom.bind (·.name)).getD Constants.defaultName)),
      ("surname", .string ((w.groom.bind (·.surname)).getD Constants.defaultSurname)),
      ("image", .string ((w.groom.bind (·.image)).getD Constants.placeholderGroomImage))])),
    ("bride", .map (.ofList [
      ("name", .string ((w.bride.bind (·.name)).getD Constants.defaultName)),
      ("surname", .string ((w.bride.bind (·.surname)).getD Constants.defaultSurname)),
      ("image", .string ((w.bride.bind (·.image)).getD Constants.placeholderBrideImage))])),
    ("date", .string (w.date.getD Constants.defaultDate)),
    ("location", .string (w.location.getD Constants.defaultLocation)),
    ("welcomeMessage", .string (w.welcomeMessage.getD Constants.defaultWelcomeMessage))]

structure Wish where
  guestName : String
  wish : String
  date : String
  deriving DecidableEq

def Wish.init (guestName wish : String) (date : Date) : Wish :=
  ⟨guestName, wish, formatDateToString date⟩

def Wish.ofDocument (document : Document) : Option Wish :=
  match (document.lookup "guestName").bind Value.asString,
      (document.lookup "wish").bind Value.asString,
      (document.lookup "date").bind Value.asString with
  | some guestName, some wish, some date => some ⟨guestName, wish, date⟩
  | _, _, _ => none

def Wish.toDictionary (w : Wish) : Document :=
  .ofList [("guestName", .string w.guestName), ("wish", .string w.wish), ("date", .string w.date)]

structure User where
  email : String
  userType : String
  phoneNumber : String
  weddingID : String
  deriving DecidableEq

def User.toDictionary (u : User) : Document :=
  .ofList [("email", .string u.email), ("userType", .string u.userType),
    ("phoneNumber", .string u.phoneNumber), ("weddingID", .string u.weddingID)]

theorem User.toDictionary_weddingID (u : User) :
    u.toDictionary.lookup "weddingID" = some (.string u.weddingID) := by
  rw [User.toDictionary, Fields.ofList, AList.lookup_to_alist]
  rfl

end WeddApp
