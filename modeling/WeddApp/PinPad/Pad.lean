import WeddApp.Async.Origin
import WeddApp.Reads.Step

/-!
# PinPad.Pad

The PIN pad (`PinKeyboardAndField.swift`) and the page it stands on (`OtpScreen.swift`) as an
asynchronous system: key presses, answers of `isWeddingExist`, and the resets that a wrong PIN
schedules half a second later. The text is a list of symbols.

A change of the text runs the `onChange` handler, which looks up every text of four symbols. The
handler of a lookup reads the text when the answer arrives.
-/

namespace WeddApp.PinPad

open Documents

/-- The notification is posted and received in the same step; the log holds the latest event
first. -/
inductive Event where
  | lookedUp (pin : List Char)
  | answered (pin : List Char) (exists_ : Bool)
  | correctPINEntered (pin : List Char)
  deriving DecidableEq

/-- The `@State` of `OTPPage`: it shows `HomePage(pin:)` when `isOTPSuccessful` is set. -/
structure OTPPage where
  isOTPSuccessful : Bool
  pin : List Char

/-- Each evaluation of the body builds the destination of its link, `HomePage(pin: self.pin)`; this is
that `pin`. -/
def OTPPage.body (page : OTPPage) : List Char := page.pin

structure State where
  pin : List Char
  isCorrectPIN : Bool
  pinWarning : String
  page : OTPPage
  log : List Event

def State.new : State := ⟨[], false, "", ⟨false, ['0']⟩, []⟩

inductive Task where
  | lookup (id : List Char)
  | reset

abbrev Reply := Except NSError (Option Document)

def rows : List (List Char) :=
  [['1', '2', '3'], ['4', '5', '6'], ['7', '8', '9'], ['\u2665', '0', '\u232B']]

def CallKeyboardButton.action (key : Char) (text : List Char) : List Char :=
  if key = '\u232B' then text.dropLast else text ++ [key]

def setPin (newValue : List Char) (s : State) : State × List Task :=
  if newValue = s.pin then (s, [])
  else if newValue.length = 4 then
    ({ s with pin := newValue, log := .lookedUp newValue :: s.log }, [.lookup newValue])
  else ({ s with pin := newValue }, [])

/-- `NotificationCenter.default.post`, received by `OTPPage`. -/
def postCorrectPINEntered (pin : List Char) (s : State) : State :=
  { s with page := ⟨true, pin⟩, log := .correctPINEntered pin :: s.log }

/-- The handler that is passed to `isWeddingExist`. -/
def onExists (exists_ : Bool) (s : State) : State × List Task :=
  if exists_ then (postCorrectPINEntered s.pin { s with isCorrectPIN := true }, [])
  else ({ s with pinWarning := "Incorrect PIN" }, [.reset])

def onReset (s : State) : State × List Task :=
  ({ (setPin [] s).1 with pinWarning := "" }, (setPin [] s).2)

def act (key : Char) (s : State) : Option (State × List Task) :=
  if key ∈ rows.flatten then some (setPin (CallKeyboardButton.action key s.pin) s) else none

def serve (t : Task) (reply : Reply) (s : State) : State × List Task :=
  match t with
  | .lookup id =>
    let exists_ := Reads.isWeddingExist.onDocument reply
    onExists exists_ { s with log := .answered id exists_ :: s.log }
  | .reset => onReset s

def pad : Async.System State Task Char Reply where
  act := fun key _ s => act key s
  serve := fun t reply s => some (serve t reply s)

end WeddApp.PinPad
