import WeddApp.Reads.Step
import WeddApp.Wish.Published

/-!
# Guests.Answers

What the server answers to the reads of guests, from the stores as they are when a request arrives.

* `answer`: the answer to each request.
* `inMoments`: the reads as a system whose environment is the moment in which a request is answered.
* `results`: what the handler of a single call is called with.
-/

namespace WeddApp

open Async Documents

variable {UIImage : Type}

namespace State

/-- The server's reply to `getDocuments`: the documents of the guests, in the order of their IDs. -/
def getDocuments (s : State UIImage) (weddingID : String) (error : Option NSError) :
    Except NSError (List Document) :=
  match error with
  | some m => .error m
  | none => .ok (((s.guestSnapshots weddingID).mergeSort
      fun x y => decide (x.1.getLastD "" ≤ y.1.getLastD "")).map Prod.snd)

/-- The answer to `getData(maxSize:)`; `refusal` is the error for an object that is missing or too
large. -/
def download (s : State UIImage) (url : String) (error : Option NSError) (refusal : NSError) :
    Except NSError Data :=
  match error with
  | some m => .error m
  | none =>
    match Storage.getData s.storage url Reads.retrieveImage.maxSize with
    | some data => .ok data
    | none => .error refusal

end State

namespace Guests

/-- The server's answer to a read; `refusal` is the error for an object that is missing or too large. -/
def answer (refusal : NSError) (t : Reads.Request UIImage) (e : Env) (s : State UIImage) :
    Reads.Reply :=
  match t with
  | .imageDocument _ id _ =>
    .document (s.getDocument (document Constants.imagesCollection id) e.error)
  | .galleryDocument _ id =>
    .document (s.getDocument (document Constants.galleryCollection id) e.error)
  | .userDocument _ uid => .document (s.getDocument (userDocument uid) e.error)
  | .weddingDocument _ id => .document (s.getDocument (weddingDocument id) e.error)
  | .guestDocuments _ id => .documents (s.getDocuments id e.error)
  | .imageData _ url => .data (s.download url e.error refusal)
  | .imageMain _ _ | .weddingIDMain _ _ _ | .galleryNotify _ | .galleryMain _ => .main

variable [UIKit UIImage]

def inMoments (UIImage : Type) [UIKit UIImage] (refusal : NSError) :
    System (Reads.State UIImage) (Reads.Request UIImage) Reads.Call (State UIImage × Env) where
  act call _ r := some (Reads.act call r)
  serve t moment r := Reads.serve t (answer refusal t moment.2 moment.1) r

/-- The results of `call`, whose requests are answered in `moments`, one after another. -/
def results (refusal : NSError) (call : Reads.Call) (moments : List (State UIImage × Env)) :
    List (Reads.Result UIImage) :=
  let (r, ts) := Reads.act call (.new UIImage)
  ((inMoments UIImage refusal).drain moments r ts).completions.map Prod.snd

end Guests

/-- What `getImageOf` calls its handler with: the document is read in `s`, the image is downloaded
in `s'`. -/
def State.imageOf [UIKit UIImage] (s s' : State UIImage) (id person : String)
    (error error' : Option NSError) (refusal : NSError) : List (Reads.Result UIImage) :=
  Guests.results refusal (.getImageOf id person)
    [(s, { Env.ok with error := error }), (s', { Env.ok with error := error' }), (s', .ok)]

end WeddApp
