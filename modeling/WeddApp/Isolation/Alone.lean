import WeddApp.App.Uploads

/-!
# Isolation.Alone

One wedding as if it were the only one: its documents, its images, and the guest IDs that devices
keep for it. Its host saves and its guests submit; nothing here can refer to another wedding.

* `WeddingData`: what is stored about the wedding.
* `WeddingTask`: a callback of a Save that is to send its requests, and the requests in flight.
* `alone w`: the wedding `w` as an asynchronous system of its own.
-/

namespace WeddApp

open Documents

@[ext] structure WeddingData where
  wedding : Option Document
  images : Option Document
  gallery : Option Document
  guests : String → Option Document
  objects : String → Option Data
  guestID : DeviceID → Option String

/-- What the host and the guests do. A Save starts when the weddingID was found; what it saves is
read when its callback runs. -/
inductive WeddingAction where
  | save
  | submit (d : DeviceID) (guestName wish : String) (currentDate : Date)

inductive WeddingTask where
  | send
  | write (weddingData : Document)
  | put (p : Photo)
  | merge (p : Photo)
  | wish (guestID : String) (wish : Document)

/-- What a step reads from the outside: the guest ID that Firestore generates, the form and the UUIDs
of a Save, or the error that the backend answers with, if any. -/
inductive Outcome (UIImage : Type) where
  | started
  | generated (guestID : String)
  | content (form : FormScreen UIImage) (uuid : Nat → String)
  | answered (error : Option NSError)

namespace WeddingData

def record (v : WeddingData) (p : Photo) : WeddingData :=
  let recorded (document : Option Document) : Option Document :=
    some (AList.singleton p.field (.string p.path) ∪ document.getD ∅)
  if p.isGallery then { v with gallery := recorded v.gallery }
  else { v with images := recorded v.images }

def apply (v : WeddingData) : WeddingTask → WeddingData
  | .send => v
  | .write weddingData => { v with wedding := some weddingData }
  | .put p => { v with objects := Function.update v.objects p.path (some p.imageData) }
  | .merge p => v.record p
  | .wish guestID wish => { v with guests := Function.update v.guests guestID (some wish) }

end WeddingData

def WeddingTask.next : WeddingTask → List WeddingTask
  | .put p => [.merge p]
  | .send | .write _ | .merge _ | .wish _ _ => []

variable {UIImage : Type} [UIKit UIImage]

def FormScreen.requests (form : FormScreen UIImage) (w : String) (uuid : Nat → String) :
    List WeddingTask :=
  .write (form.wedding w).toDictionary :: (form.photos w uuid).map .put

variable (UIImage) in
/-- The wedding `w` on its own. -/
def alone (w : String) : Async.System WeddingData WeddingTask WeddingAction (Outcome UIImage) where
  act a o v :=
    match a, o with
    | .save, .started => some (v, [.send])
    | .submit d guestName wish currentDate, .generated guestID =>
      match v.guestID d with
      | some _ => some (v, [])
      | none =>
        some ({ v with guestID := Function.update v.guestID d (some guestID) },
          [.wish guestID (Wish.init guestName wish currentDate).toDictionary])
    | _, _ => none
  serve t o v :=
    match t, o with
    | .send, .content form uuid => some (v, form.requests w uuid)
    | .send, .answered _ => none
    | t, .answered none => some (v.apply t, t.next)
    | _, .answered (some _) => some (v, [])
    | _, _ => none

end WeddApp
