import WeddApp.App.State
import WeddApp.Async.System

/-!
# App.Step

The app as an asynchronous system. Each function of the source is cut at its requests: what it does
up to the request is the function, what the callback does is `f.onReply`-like, and a `Task` is a
request in flight with what its callback captured.

* Sign-up and sign-in (`SignUpScreen.swift`, `SignInScreen.swift`, `User.swift`), with
  `generateUniqueID` and its retries (`Utilities.swift`).
* Saving the form (`FormViewModel.swift`), with `uploadWedding`, `uploadPhoto` and `uploadGallery`.
* Sending a wish (`WishPage.swift`).

`serve` answers a request: the backend applies it to the stores at once and the callback runs.
Where a callback hops to the main queue, the hop is a task of its own.
-/

namespace WeddApp

open Documents

/-- What `createUser` captured, with the uid of the current user. -/
structure NewUser where
  uid : UID
  email : String
  userType : String
  phoneNumber : String

/-- What one `uploadPhoto` captured, for an image that has PNG data. -/
structure Photo where
  imageData : Data
  weddingID : String
  subfolder : String
  isGallery : Bool
  photoIndex : Nat
  uuid : String

def Photo.path (p : Photo) : String :=
  "images/" ++ p.weddingID ++ "/" ++ p.subfolder ++ "/" ++ p.uuid ++ ".png"

def Photo.reference (p : Photo) : DocumentReference :=
  if p.isGallery then document "Gallery" p.weddingID else document "Images" p.weddingID

def Photo.field (p : Photo) : String :=
  if p.isGallery then "photo" ++ toString p.photoIndex else p.subfolder ++ "Url"

inductive Task where
  | authCreate (d : DeviceID) (email password : String)
  | authSignIn (d : DeviceID) (email password : String)
  | idRead (u : NewUser) (randomID : String)
  | idWrite (u : NewUser) (randomID : String)
  | userWrite (uid : UID) (user : User)
  | saveRead (d : DeviceID) (uid : UID)
  | saveMain (d : DeviceID) (weddingID : Option String) (error : Option NSError)
  | weddingWrite (id : String) (weddingData : Document)
  | photoPut (p : Photo)
  | photoMerge (p : Photo)
  | wishWrite (weddingID guestID : String) (wish : Document)

inductive Action (UIImage : Type) where
  | editAuth (d : DeviceID) (page : AuthPage)
  | tapSignIn (d : DeviceID)
  | tapSignUp (d : DeviceID)
  | editForm (d : DeviceID) (form : FormScreen UIImage)
  | tapSave (d : DeviceID)
  | tapSubmit (d : DeviceID) (weddingID guestName wish : String) (currentDate : Date)

/-! ## Signing up and in -/

def inRange (lo hi c : Char) : Bool := lo.val ≤ c.val && c.val ≤ hi.val

def isLetter (c : Char) : Bool := inRange 'A' 'Z' c || inRange 'a' 'z' c

/-- `[A-Z0-9a-z._%+-]+@[A-Za-z0-9.-]+\.[A-Za-z]{2,64}` -/
def emailRegex : Text.Regex Char :=
  .seq (.plus (.cls fun c => isLetter c || inRange '0' '9' c || "._%+-".toList.contains c))
    (.seq (.cls (· == '@'))
      (.seq (.plus (.cls fun c => isLetter c || inRange '0' '9' c || ".-".toList.contains c))
        (.seq (.cls (· == '.')) (.between (.cls isLetter) 2 64))))

def isValidEmail (email : String) : Bool := emailRegex.accepts email.toList

/-- `String(format: "%04d", n)` -/
def formatID (n : Fin 10000) : String := Text.padLeft 4 n

variable {UIImage : Type}

/-- Draws an ID and asks whether it is used. -/
def generateUniqueID (u : NewUser) (random : Fin 10000) : List Task := [.idRead u (formatID random)]

/-- The completion handler that `createUser` passes to `generateUniqueID`. -/
def createUser.onUniqueID (u : NewUser) (uniqueID : Option String) (error : Option NSError)
    (s : State UIImage) : State UIImage × List Task :=
  match error, uniqueID with
  | some e, _ => (s.report (.error (.generatingIDError e)), [])
  | none, some weddingID =>
    (s.report (.uniqueID u.uid weddingID),
      [.userWrite u.uid ⟨u.email, u.userType, u.phoneNumber, weddingID⟩])
  | none, none => (s, [])

def generateUniqueID.onRead (u : NewUser) (randomID : String)
    (reply : Except NSError (Option Document)) (random : Fin 10000) (s : State UIImage) :
    State UIImage × List Task :=
  match reply with
  | .error e => createUser.onUniqueID u none (some e) s
  | .ok (some _) => (s, generateUniqueID u random)
  | .ok none => (s, [.idWrite u randomID])

def generateUniqueID.onWrite (u : NewUser) (randomID : String) (error : Option NSError)
    (s : State UIImage) : State UIImage × List Task :=
  match error with
  | some e => createUser.onUniqueID u none (some e) s
  | none => createUser.onUniqueID u (some randomID) none s

def createUser.onWrite (uid : UID) (user : User) (error : Option NSError) (s : State UIImage) :
    State UIImage :=
  match error with
  | some e => s.report (.error (.firestoreError e))
  | none => (s.report (.userCreated uid user.weddingID)).report (.success SuccessOperations.userCreated)

def createUser (currentUser : Option UID) (email userType phoneNumber : String)
    (random : Fin 10000) : List Task :=
  match currentUser with
  | some userID => generateUniqueID ⟨userID, email, userType, phoneNumber⟩ random
  | none => []

def alert (d : DeviceID) (message : String) (s : State UIImage) : State UIImage :=
  s.onDevice d fun v => { v with showAlert := true, alertMessage := message }

def SignUpView.tapSignUp (d : DeviceID) (s : State UIImage) : State UIImage × List Task :=
  let page := (s.device d).page
  if !isValidEmail page.email then
    (alert d Constants.AlertMessages.enterValidEmail s, [])
  else if page.password.length < 6 then
    (alert d Constants.AlertMessages.passwordShouldBe s, [])
  else if page.password != page.confirmPassword then
    (alert d Constants.AlertMessages.passwordsNotMatched s, [])
  else
    (s.onDevice d fun v => { v with isLoading := true }, [.authCreate d page.email page.password])

/-- `isSignedIn` is set before `createUser` is called. -/
def SignUpView.onSignUp (d : DeviceID) (error : Option NSError) (random : Fin 10000)
    (s : State UIImage) : State UIImage × List Task :=
  match error with
  | some e =>
    (alert d ("Sign-up failed. " ++ e) (s.onDevice d fun v => { v with isLoading := false }), [])
  | none =>
    let s := s.onDevice d fun v => { v with isLoading := false, isSignedIn := true }
    let v := s.device d
    (s.report (.success SuccessOperations.signedUp),
      createUser v.currentUser v.page.email "Customer" (v.page.regionCode ++ v.page.phoneNumber)
        random)

def SignInView.tapSignIn (d : DeviceID) (s : State UIImage) : State UIImage × List Task :=
  let page := (s.device d).page
  if !isValidEmail page.email then
    (alert d Constants.AlertMessages.enterValidEmail s, [])
  else if page.password.length < 6 then
    (alert d Constants.AlertMessages.passwordShouldBe s, [])
  else
    (s.onDevice d fun v => { v with isLoading := true }, [.authSignIn d page.email page.password])

def SignInView.onSignIn (d : DeviceID) (error : Option NSError) (s : State UIImage) : State UIImage :=
  match error with
  | some e => alert d ("Sign-in failed. " ++ e) (s.onDevice d fun v => { v with isLoading := false })
  | none =>
    (s.onDevice d fun v => { v with isLoading := false, isSignedIn := true }).report
      (.success SuccessOperations.signedIn)

/-- `Auth.auth().createUser`: the email must be new; the account gets a new uid and becomes the
current user of the device. -/
def Auth.createUser (d : DeviceID) (email password : String) (uid : UID) (s : State UIImage) :
    Option (State UIImage) :=
  if s.accounts.any (fun a => a.email == email || a.uid == uid) then none
  else some { (s.onDevice d fun v => { v with currentUser := some uid }) with
    accounts := ⟨email, password, uid⟩ :: s.accounts }

def Auth.signIn (d : DeviceID) (email password : String) (s : State UIImage) :
    Option (State UIImage) :=
  match s.accounts.find? (fun a => a.email == email && a.password == password) with
  | none => none
  | some a => some (s.onDevice d fun v => { v with currentUser := some a.uid })

/-! ## Saving the form -/

variable [UIKit UIImage]

def uploadPhoto (image : Option UIImage) (weddingID subfolder : String) (isGallery : Bool)
    (photoIndex : Nat) (uuid : String) : List Task :=
  match image with
  | none => []
  | some image =>
    match UIKit.pngData image with
    | none => []
    | some imageData => [.photoPut ⟨imageData, weddingID, subfolder, isGallery, photoIndex, uuid⟩]

/-- `index` is the index of the first image of the list. -/
def uploadGallery.loop (weddingID subfolder : String) (uuid : Nat → String) :
    Nat → List UIImage → List Task
  | _, [] => []
  | index, image :: images =>
    uploadPhoto (some image) weddingID subfolder true (index + 1) (uuid index) ++
      uploadGallery.loop weddingID subfolder uuid (index + 1) images

def uploadGallery (selectedImages : Option (List UIImage)) (weddingID subfolder : String)
    (uuid : Nat → String) : List Task :=
  match selectedImages with
  | some selectedImages => uploadGallery.loop weddingID subfolder uuid 0 selectedImages
  | none => []

def uploadWedding (_groom : Groom) (_bride : Bride) (wedding : Wedding) (s : State UIImage) :
    State UIImage × List Task :=
  match wedding.id with
  | some id => (s, [.weddingWrite id wedding.toDictionary])
  | none => (s.report (.error (.documentError "Error: Wedding id is nil!")), [])

/-- How a function calls its completion handler: in the callback itself, or later on the main
queue. -/
inductive Completion (α : Type) where
  | now (a : α)
  | onMain (a : α)

def getWeddingIDFromUser.onDocument (reply : Except NSError (Option Document)) :
    Completion (Option String × Option NSError) :=
  match reply with
  | .error e => .now (none, some e)
  | .ok (some document) =>
    match (document.lookup "weddingID").bind Value.asString with
    | some weddingID => .onMain (some weddingID, none)
    | none => .now (none, some "No weddingID found in the document.")
  | .ok none => .now (none, some "There is no wedding ID associated with this user ID.")

/-- Without a current user, nothing is asked and the handler is not called. -/
def getWeddingIDFromUser (d : DeviceID) (currentUser : Option UID) : List Task :=
  match currentUser with
  | some userID => [.saveRead d userID]
  | none => []

def FormScreen.wedding (form : FormScreen UIImage) (weddingID : String) : Wedding where
  id := some weddingID
  groom := some ⟨some form.groomName, some form.groomSurname, some "groom"⟩
  bride := some ⟨some form.brideName, some form.brideSurname, some "bride"⟩
  date := some (formatDateToString form.weddingDate)
  location := some form.location
  welcomeMessage := some form.welcomeMessage

def FormScreen.uploadPhotos (form : FormScreen UIImage) (weddingID : String) (uuid : Nat → String) :
    List Task :=
  uploadPhoto form.groomImage weddingID Constants.groomSubfolder false 0 (uuid 0) ++
    uploadPhoto form.brideImage weddingID Constants.brideSubfolder false 0 (uuid 1) ++
    uploadGallery form.galleryImages weddingID Constants.gallerySubfolder (fun i => uuid (i + 2))

/-- The completion handler that `tapOnSave` passes to `getWeddingIDFromUser`; it reads the form
when it runs, not when Save was tapped. -/
def FormScreen.onWeddingID (d : DeviceID) (uniqueID : Option String) (error : Option NSError)
    (uuid : Nat → String) (s : State UIImage) : State UIImage × List Task :=
  match error, uniqueID with
  | none, some weddingID =>
    let form := (s.device d).form
    let groom : Groom := ⟨some form.groomName, some form.groomSurname, some "groom"⟩
    let bride : Bride := ⟨some form.brideName, some form.brideSurname, some "bride"⟩
    let (s, tasks) := uploadWedding groom bride (form.wedding weddingID) s
    (s, tasks ++ form.uploadPhotos weddingID uuid)
  | error, _ => (s.report (.error (.firestoreError (error.getD "Upload Error"))), [])

/-- The callback of `putData`: records the path of the photo when the upload succeeded. -/
def uploadPhoto.onUpload (p : Photo) (error : Option NSError) (s : State UIImage) :
    State UIImage × List Task :=
  match error with
  | some _ => (s, [])
  | none =>
    ((s.report (.success SuccessOperations.imageUploaded)).report
      (.imageUploaded p.weddingID p.subfolder p.path), [.photoMerge p])

def uploadPhoto.onMerge (error : Option NSError) (s : State UIImage) : State UIImage :=
  match error with
  | some e => s.report (.error (.urlError e))
  | none => s.report (.success SuccessOperations.imageURLUploadedToDB)

def uploadWedding.onWrite (error : Option NSError) (s : State UIImage) : State UIImage :=
  match error with
  | some e => s.report (.error (.firestoreError e))
  | none => s.report (.success SuccessOperations.docSet)

/-! ## Sending a wish -/

def guestIDKey (weddingID : String) : String := "guestID-" ++ weddingID

/-- `uploadWish` of the view model of `weddingID`; Firestore generates `guestID`. -/
def uploadWish (d : DeviceID) (weddingID guestID : String) (wish : Wish) (s : State UIImage) :
    State UIImage × List Task :=
  (s.onDevice d fun v => { v with defaults := v.defaults.insert (guestIDKey weddingID) guestID },
    [.wishWrite weddingID guestID wish.toDictionary])

def uploadWish.onWrite (error : Option NSError) (s : State UIImage) : State UIImage :=
  match error with
  | some e => s.report (.error (.firestoreError e))
  | none => s.report (.success SuccessOperations.wishCreated)

/-- The success alert is shown without waiting for the write. -/
def WishPage.tapOnSubmit (d : DeviceID) (weddingID guestName wish : String) (currentDate : Date)
    (guestID : String) (s : State UIImage) : State UIImage × List Task :=
  match (s.device d).defaults.lookup (guestIDKey weddingID) with
  | some _ => (s, [])
  | none =>
    let (s, tasks) := uploadWish d weddingID guestID (Wish.init guestName wish currentDate) s
    (s.report (.wishAlert d weddingID guestID), tasks)

/-! ## The system -/

/-- What a tap or an edit does. While a request to Auth is in flight the spinner covers the buttons;
Save needs the form, which opens once `isSignedIn` is set; Submit is disabled while a field is empty. -/
def act (a : Action UIImage) (e : Env) (s : State UIImage) : Option (State UIImage × List Task) :=
  match a with
  | .editAuth d page => some (s.onDevice d fun v => { v with page := page }, [])
  | .tapSignIn d => if (s.device d).isLoading then none else some (SignInView.tapSignIn d s)
  | .tapSignUp d => if (s.device d).isLoading then none else some (SignUpView.tapSignUp d s)
  | .editForm d form => some (s.onDevice d fun v => { v with form := form }, [])
  | .tapSave d =>
    if (s.device d).isSignedIn then some (s, getWeddingIDFromUser d (s.device d).currentUser)
    else none
  | .tapSubmit d weddingID guestName wish currentDate =>
    if guestName.isEmpty || wish.isEmpty then none
    else some (WishPage.tapOnSubmit d weddingID guestName wish currentDate e.newID s)

/-- The server's reply to `getDocument`. What the client of a device answers by itself is modelled in
`App.Client` and `Guests.Online`. -/
def State.getDocument (s : State UIImage) (r : DocumentReference) (error : Option NSError) :
    Except NSError (Option Document) :=
  match error with
  | some m => .error m
  | none => .ok (s.firestore.lookup r)

def State.setData (s : State UIImage) (r : DocumentReference) (data : Document)
    (error : Option NSError) : State UIImage :=
  match error with
  | some _ => s
  | none => { s with firestore := s.firestore.set r data }

def State.mergeData (s : State UIImage) (r : DocumentReference) (data : Document)
    (error : Option NSError) : State UIImage :=
  match error with
  | some _ => s
  | none => { s with firestore := s.firestore.merge r data }

def State.putData (s : State UIImage) (path : String) (data : Data) (error : Option NSError) :
    State UIImage :=
  match error with
  | some _ => s
  | none => { s with storage := s.storage.insert path data }

def usedID (id : String) : DocumentReference := document Constants.usedIDsCollection id
def userDocument (uid : UID) : DocumentReference := document Constants.usersCollection uid
def weddingDocument (id : String) : DocumentReference := document Constants.weddingsCollection id
def guestDocument (weddingID guestID : String) : DocumentReference :=
  subdocument Constants.guestsCollection weddingID Constants.guestsCollection guestID

def serve (t : Task) (e : Env) (s : State UIImage) : Option (State UIImage × List Task) :=
  match t with
  | .authCreate d email password =>
    match e.error with
    | some m => some (SignUpView.onSignUp d (some m) e.random s)
    | none =>
      match Auth.createUser d email password e.newID s with
      | none => none
      | some s => some (SignUpView.onSignUp d none e.random s)
  | .authSignIn d email password =>
    match e.error with
    | some m => some (SignInView.onSignIn d (some m) s, [])
    | none =>
      match Auth.signIn d email password s with
      | none => none
      | some s => some (SignInView.onSignIn d none s, [])
  | .idRead u randomID =>
    some (generateUniqueID.onRead u randomID (s.getDocument (usedID randomID) e.error) e.random s)
  | .idWrite u randomID =>
    some (generateUniqueID.onWrite u randomID e.error (s.setData (usedID randomID) ∅ e.error))
  | .userWrite uid user =>
    some (createUser.onWrite uid user e.error
      (s.setData (userDocument uid) user.toDictionary e.error), [])
  | .saveRead d uid =>
    match getWeddingIDFromUser.onDocument (s.getDocument (userDocument uid) e.error) with
    | .now (uniqueID, error) => some (FormScreen.onWeddingID d uniqueID error e.uuid s)
    | .onMain (uniqueID, error) => some (s, [.saveMain d uniqueID error])
  | .saveMain d uniqueID error => some (FormScreen.onWeddingID d uniqueID error e.uuid s)
  | .weddingWrite id weddingData =>
    some (uploadWedding.onWrite e.error (s.setData (weddingDocument id) weddingData e.error), [])
  | .photoPut p => some (uploadPhoto.onUpload p e.error (s.putData p.path p.imageData e.error))
  | .photoMerge p =>
    some (uploadPhoto.onMerge e.error
      (s.mergeData p.reference (AList.singleton p.field (.string p.path)) e.error), [])
  | .wishWrite weddingID guestID wish =>
    some (uploadWish.onWrite e.error (s.setData (guestDocument weddingID guestID) wish e.error), [])

def app (UIImage : Type) [UIKit UIImage] : Async.System (State UIImage) Task (Action UIImage) Env where
  act := act
  serve := serve

end WeddApp
