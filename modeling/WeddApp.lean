import WeddApp.Async.Lineage
import WeddApp.Async.Register
import WeddApp.SignUp.Provision
import WeddApp.Save.Chain
import WeddApp.Save.FirstSave
import WeddApp.App.Successors
import WeddApp.Reads.Step
import WeddApp.Save.Fields
import WeddApp.Save.OneSave
import WeddApp.Save.LastSave
import WeddApp.Save.References
import WeddApp.Wish.Steps
import WeddApp.Wish.Submit
import WeddApp.Reads.Completion
import WeddApp.Reads.Gallery
import WeddApp.Save.Shown
import WeddApp.PinPad.Pad
import WeddApp.PinPad.Posted
import WeddApp.Wish.Published
import WeddApp.Weddings.LastUpload
import WeddApp.Reads.Barrier
import WeddApp.PinPad.Stretch
import WeddApp.PinPad.Resets
import WeddApp.SignUp.Retry
import WeddApp.Views.Limiter
import WeddApp.Views.RegionCode
import WeddApp.Views.StoryCircle
import WeddApp.Async.Projection
import WeddApp.Isolation.Alone
import WeddApp.Isolation.Seen
import WeddApp.Isolation.Isolated
import WeddApp.SignUp.Email
import WeddApp.Async.Network
import WeddApp.Guests.Live
import WeddApp.Guests.Snapshot
import WeddApp.Guests.Saves
import WeddApp.Guests.Wishes
import WeddApp.Guests.Entry
import WeddApp.Guests.Visit
import WeddApp.Async.Quiescence
import WeddApp.Guests.Rest
import WeddApp.SignUp.Page
import WeddApp.Async.Driver
import WeddApp.Guests.Pages
import WeddApp.Guests.Home
import WeddApp.Guests.Typed
import WeddApp.Guests.FirstWishes
import WeddApp.App.Client
import WeddApp.Async.Cache
import WeddApp.Guests.Online
