/-!
# Model.Constants

The names of the collections, the defaults and the texts of the app, from `Constants.swift`,
`Utilities.swift` and `Network Errors.swift`.
-/

namespace WeddApp

namespace Constants

def placeholderGroomImage : String := ""
def placeholderBrideImage : String := ""
def imagesCollection : String := "Images"
def usersCollection : String := "Users"
def usedIDsCollection : String := "UsedIDs"
def weddingsCollection : String := "Weddings"
def galleryCollection : String := "Gallery"
def guestsCollection : String := "Guests"
def defaultDate : String := "00.00.0000"
def defaultName : String := "DefaultName"
def defaultSurname : String := "DefaultSurame"
def defaultLocation : String := "DefaultLocation"
def defaultWelcomeMessage : String := "DefaultWM"
def groomSubfolder : String := "groom"
def brideSubfolder : String := "bride"
def gallerySubfolder : String := "gallery"
def defaultImageURL : String := ""

namespace AlertMessages

def enterValidEmail : String := "Please enter a valid email address."
def passwordShouldBe : String := "Password should be at least 6 characters long."
def passwordsNotMatched : String := "Passwords do not match."

end AlertMessages
end Constants

namespace SuccessOperations

def docSet : String := "Wedding document successfully set!"
def userCreated : String := "User created successfully!"
def wishCreated : String := "Wish created successfully!"
def signedIn : String := "Signed In"
def signedUp : String := "Signed Up"
def imageFetched : String := "Image fetched successfully."
def imageUploaded : String := "Image uploaded successfully."
def imageURLUploadedToDB : String := "Image URL successfully set to DB."

end SuccessOperations

/-- An error of a request, as its `localizedDescription`. -/
abbrev NSError := String

inductive WeddingError where
  | firestoreError (message : String)
  | documentError (message : String)
  | imageGettingError (message : String)
  | urlError (message : String)
  | dataToImageError (message : String)
  | generatingIDError (message : String)
  | galleryUrlError (message : String)
  | gettingWishesError (message : String)
  deriving DecidableEq

end WeddApp
