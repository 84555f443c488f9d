import WeddApp.App.Step

/-!
# Reads.Step

The asynchronous reads (`ViewModel.swift`, and `retrieveImage` of `Utilities.swift`) as an
asynchronous system of their own. Each call has a number; the completion handler of call `k` is
called when `(k, r)` joins the completions.

* `ImageHandler`, `UrlsHandler`: the closures that the functions pass to one another, with what they
  captured.
* `Request`: a request in flight, a block on the main queue, or the block of a `DispatchGroup`.
* `Reply`: how the backend answers a request. Every answer is possible at any time, so a run covers
  all contents of the stores and all failures.
-/

namespace WeddApp.Reads

open Documents

inductive Result (UIImage : Type) where
  | person (image : Option UIImage) (error : Option NSError)
  | urls (urls : List String) (error : Option NSError)
  | gallery (photos : List (Option UIImage))
  | weddingID (weddingID : Option String) (error : Option NSError)
  | wishes (wishes : List Wish) (error : Option NSError)
  | weddingExists (answer : Bool)
  | image (image : Option UIImage)

/-- The handler that `retrieveImage` calls: its caller's, the closure of `getImageOf` or the one of
`retrieveGallery`. -/
inductive ImageHandler where
  | caller (k : Nat)
  | person (k : Nat)
  | gallery (k : Nat)
  deriving DecidableEq

/-- The handler that `getGalleryUrls` calls: its caller's or the closure of `retrieveGallery`. -/
inductive UrlsHandler where
  | caller (k : Nat)
  | gallery (k : Nat)
  deriving DecidableEq

inductive Request (UIImage : Type) where
  | imageDocument (k : Nat) (id person : String)
  | galleryDocument (handler : UrlsHandler) (id : String)
  | userDocument (k : Nat) (uid : UID)
  | weddingDocument (k : Nat) (id : String)
  | guestDocuments (k : Nat) (id : String)
  | imageData (handler : ImageHandler) (url : String)
  | imageMain (handler : ImageHandler) (image : UIImage)
  | weddingIDMain (k : Nat) (weddingID : Option String) (error : Option NSError)
  | galleryNotify (k : Nat)
  | galleryMain (k : Nat)

inductive Reply where
  | document (reply : Except NSError (Option Document))
  | documents (reply : Except NSError (List Document))
  | data (reply : Except NSError Data)
  | main

inductive Call where
  | getImageOf (id person : String)
  | getGalleryUrls (id : String)
  | retrieveGallery (id : String)
  | getWeddingIDFromUser (currentUser : Option UID)
  | getWishes (id : String)
  | isWeddingExist (id : String)
  | retrieveImage (url : String)

/-- The `DispatchGroup` of a `retrieveGallery`, with the photos collected so far. `entered` counts
the downloads that have not left. -/
structure Group (UIImage : Type) where
  entered : Nat
  galleryPhotos : List (Option UIImage)

structure State (UIImage : Type) where
  calls : List Call
  groups : Nat → Group UIImage
  completions : List (Nat × Result UIImage)
  log : List Event

def State.new (UIImage : Type) : State UIImage := ⟨[], fun _ => ⟨0, []⟩, [], []⟩

variable {UIImage : Type}

def State.complete (s : State UIImage) (k : Nat) (r : Result UIImage) : State UIImage :=
  { s with completions := (k, r) :: s.completions }

def State.report (s : State UIImage) (e : Event) : State UIImage := { s with log := e :: s.log }

def State.setGroup (s : State UIImage) (k : Nat) (g : Group UIImage) : State UIImage :=
  { s with groups := Function.update s.groups k g }

/-! ## Images -/

/-- `dispatchGroup.notify`: its block is enqueued once every download has left, at once if there
was none. -/
def Group.notify (g : Group UIImage) (k : Nat) : List (Request UIImage) :=
  if g.entered = 0 then [.galleryNotify k] else []

/-- The closures passed to `retrieveImage`. The one of `getImageOf` calls its own handler only when
there is an image. -/
def ImageHandler.completion (handler : ImageHandler) (image : Option UIImage) (s : State UIImage) :
    State UIImage × List (Request UIImage) :=
  match handler with
  | .caller k => (s.complete k (.image image), [])
  | .person k =>
    match image with
    | some image => (s.complete k (.person (some image) none), [])
    | none => (s, [])
  | .gallery k =>
    let g : Group UIImage := ⟨(s.groups k).entered - 1, (s.groups k).galleryPhotos ++ [image]⟩
    (s.setGroup k g, g.notify k)

def retrieveImage (imageURL : String) (handler : ImageHandler) : List (Request UIImage) :=
  [.imageData handler imageURL]

/-- The largest image that `retrieveImage` asks for. -/
def retrieveImage.maxSize : Nat := 5 * 1024 * 1024

def retrieveImage.onData [UIKit UIImage] (handler : ImageHandler) (reply : Except NSError Data)
    (s : State UIImage) : State UIImage × List (Request UIImage) :=
  match reply with
  | .error e => handler.completion none (s.report (.error (.imageGettingError e)))
  | .ok data =>
    match UIKit.ofData data with
    | some image => (s, [.imageMain handler image])
    | none => handler.completion none (s.report (.error (.dataToImageError "")))

def getImageOf (k : Nat) (id person : String) : List (Request UIImage) :=
  [.imageDocument k id person]

def imageUrl (document : Document) (person : String) : String :=
  ((document.lookup (person ++ "Url")).bind Value.asString).getD Constants.defaultImageURL

def getImageOf.onDocument (k : Nat) (person : String) (reply : Except NSError (Option Document))
    (s : State UIImage) : State UIImage × List (Request UIImage) :=
  match reply with
  | .error e => ((s.report (.error (.documentError e))).complete k (.person none (some e)), [])
  | .ok (some document) => (s, retrieveImage (imageUrl document person) (.person k))
  | .ok none => (s.complete k (.person none none), [])

/-! ## The gallery -/

def photoUrl (field : String × Value) : Option String :=
  if Text.hasPrefix "photo" field.1 then field.2.asString else none

/-- The string values of the fields whose name starts with `photo`. -/
def photoUrls (document : Document) : List String := document.toList.filterMap photoUrl

def getGalleryUrls (handler : UrlsHandler) (id : String) : List (Request UIImage) :=
  [.galleryDocument handler id]

def getGalleryUrls.onDocument (reply : Except NSError (Option Document)) :
    List String × Option NSError :=
  match reply with
  | .error e => ([], some e)
  | .ok (some document) => (photoUrls document, none)
  | .ok none => ([], none)

/-- The closure of `retrieveGallery`: on an error it calls nothing. -/
def retrieveGallery.onUrls (k : Nat) (urlArray : List String) (error : Option NSError)
    (s : State UIImage) : State UIImage × List (Request UIImage) :=
  match error with
  | some e => (s.report (.error (.galleryUrlError e)), [])
  | none =>
    let g : Group UIImage := ⟨urlArray.length, []⟩
    (s.setGroup k g, urlArray.flatMap (fun url => retrieveImage url (.gallery k)) ++ g.notify k)

def UrlsHandler.completion (handler : UrlsHandler) (urls : List String) (error : Option NSError)
    (s : State UIImage) : State UIImage × List (Request UIImage) :=
  match handler with
  | .caller k => (s.complete k (.urls urls error), [])
  | .gallery k => retrieveGallery.onUrls k urls error s

/-! ## The other reads -/

def getWeddingIDFromUser (k : Nat) (currentUser : Option UID) : List (Request UIImage) :=
  match currentUser with
  | some userID => [.userDocument k userID]
  | none => []

def isWeddingExist.onDocument (reply : Except NSError (Option Document)) : Bool :=
  match reply with
  | .ok (some _) => true
  | .ok none | .error _ => false

def getWishes.onDocuments (reply : Except NSError (List Document)) : List Wish × Option NSError :=
  match reply with
  | .error e => ([], some e)
  | .ok documents => (documents.filterMap Wish.ofDocument, none)

/-! ## The system -/

def act (call : Call) (s : State UIImage) : State UIImage × List (Request UIImage) :=
  let k := s.calls.length
  let s := { s with calls := s.calls ++ [call] }
  match call with
  | .getImageOf id person => (s, getImageOf k id person)
  | .getGalleryUrls id => (s, getGalleryUrls (.caller k) id)
  | .retrieveGallery id => (s, getGalleryUrls (.gallery k) id)
  | .getWeddingIDFromUser currentUser => (s, getWeddingIDFromUser k currentUser)
  | .getWishes id => (s, [.guestDocuments k id])
  | .isWeddingExist id => (s, [.weddingDocument k id])
  | .retrieveImage url => (s, retrieveImage url (.caller k))

/-- `none` when the reply is none to this request. -/
def serve [UIKit UIImage] (t : Request UIImage) (reply : Reply) (s : State UIImage) :
    Option (State UIImage × List (Request UIImage)) :=
  match t, reply with
  | .imageDocument k _ person, .document reply => some (getImageOf.onDocument k person reply s)
  | .galleryDocument handler _, .document reply =>
    let s := match reply with
      | .error e => s.report (.error (.documentError e))
      | .ok _ => s
    some (handler.completion (getGalleryUrls.onDocument reply).1 (getGalleryUrls.onDocument reply).2 s)
  | .userDocument k _, .document reply =>
    match getWeddingIDFromUser.onDocument reply with
    | .now (weddingID, error) => some (s.complete k (.weddingID weddingID error), [])
    | .onMain (weddingID, error) => some (s, [.weddingIDMain k weddingID error])
  | .weddingDocument k _, .document reply =>
    some (s.complete k (.weddingExists (isWeddingExist.onDocument reply)), [])
  | .guestDocuments k _, .documents reply =>
    some (s.complete k (.wishes (getWishes.onDocuments reply).1 (getWishes.onDocuments reply).2), [])
  | .imageData handler _, .data reply => some (retrieveImage.onData handler reply s)
  | .imageMain handler image, .main =>
    let (s, ts) := handler.completion (some image) s
    some (s.report (.success SuccessOperations.imageFetched), ts)
  | .weddingIDMain k weddingID error, .main => some (s.complete k (.weddingID weddingID error), [])
  | .galleryNotify k, .main => some (s, [.galleryMain k])
  | .galleryMain k, .main => some (s.complete k (.gallery (s.groups k).galleryPhotos), [])
  | _, _ => none

def reads (UIImage : Type) [UIKit UIImage] :
    Async.System (State UIImage) (Request UIImage) Call Reply where
  act := fun call _ s => some (act call s)
  serve := serve

end WeddApp.Reads
