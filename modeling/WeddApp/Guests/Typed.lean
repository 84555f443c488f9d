import WeddApp.Async.Driver
import WeddApp.Guests.Wishes

/-!
# Guests.Typed

From the keys to the readers. Guests type their wishes into `WishPage`s, one for each device and
wedding, in front of the system of hosts and guests; the page cuts a wish that gets too long.

* `WishPage`: the `@State` of a page, with its `onChange`.
* `typing`: the pages as a driver of `live`. Wishes are submitted from the pages only.
* `wishes_typed`: every wish that is read was typed on some page, cut to its first 150 characters.
-/

namespace WeddApp

open Async

variable {UIImage : Type}

structure WishPage where
  guestName : String
  wish : String

namespace WishPage

def maxWishLength : Nat := 150

def new : WishPage := ⟨"", ""⟩

/-- `String(text.prefix(maxWishLength))` -/
def cut (text : String) : String := String.ofList (text.toList.take maxWishLength)

def onChange (p : WishPage) : WishPage :=
  if p.wish.length > maxWishLength then { p with wish := cut p.wish } else p

def isSubmitButtonDisabled (p : WishPage) : Bool := p.guestName.isEmpty || p.wish.isEmpty

def editName (p : WishPage) (text : String) : WishPage := { p with guestName := text }

def editWish (p : WishPage) (text : String) : WishPage := onChange { p with wish := text }

theorem cut_of_short {text : String} (h : text.length ≤ maxWishLength) : cut text = text := by
  rw [cut, List.take_of_length_le (by rwa [String.length_toList]), String.ofList_toList]

theorem cut_length (text : String) : (cut text).length ≤ maxWishLength := by
  simp only [cut, String.length_ofList, List.length_take]
  exact Nat.min_le_left _ _

/-- Cutting a wish again changes nothing, so `onChange` does not call itself for ever. -/
theorem onChange_onChange (p : WishPage) : p.onChange.onChange = p.onChange := by
  unfold onChange
  split
  · rw [if_neg]
    exact Nat.not_lt.mpr (cut_length _)
  · rfl

@[simp] theorem editWish_wish (p : WishPage) (text : String) : (p.editWish text).wish = cut text := by
  unfold editWish onChange
  split
  · rfl
  · rename_i h
    exact (cut_of_short (Nat.not_lt.mp h)).symm

@[simp] theorem editWish_guestName (p : WishPage) (text : String) :
    (p.editWish text).guestName = p.guestName := by
  unfold editWish onChange
  split <;> rfl

end WishPage

namespace Guests

/-! ## The pages as a driver -/

abbrev WishPages := DeviceID → String → WishPage

/-- On the page of device `d` for the wedding `w`. -/
inductive Key (UIImage : Type) where
  | openPage (d : DeviceID) (w : String)
  | editName (d : DeviceID) (w text : String)
  | editWish (d : DeviceID) (w text : String)
  | tapSubmit (d : DeviceID) (w : String) (currentDate : Date) (e : Env)
  /-- Something else is done on a device. -/
  | app (a : Action UIImage) (e : Env)
  | read (call : Reads.Call)
  | serve (i : Nat) (e : Env)

def WishPages.set (pages : WishPages) (d : DeviceID) (w : String) (p : WishPage) : WishPages :=
  Function.update pages d (Function.update (pages d) w p)

def typing (UIImage : Type) [UIKit UIImage] (refusal : NSError) :
    Driver (live UIImage refusal) WishPages (Key UIImage) where
  labels key _ pages :=
    match key with
    | .openPage _ _ | .editName _ _ _ | .editWish _ _ _ => some []
    | .tapSubmit d w currentDate e =>
      if (pages d w).isSubmitButtonDisabled then none
      else some [.act (.inl (.tapSubmit d w (pages d w).guestName (pages d w).wish currentDate)) e]
    | .app (.tapSubmit _ _ _ _ _) _ => none
    | .app a e => some [.act (.inl a) e]
    | .read call => some [.act (.inr call) .ok]
    | .serve i e => some [.serve i e]
  update key _ _ pages :=
    match key with
    | .openPage d w => pages.set d w .new
    | .editName d w text => pages.set d w ((pages d w).editName text)
    | .editWish d w text => pages.set d w ((pages d w).editWish text)
    | .tapSubmit _ _ _ _ | .app _ _ | .read _ | .serve _ _ => pages

theorem WishPages.set_cases (pages : WishPages) (d : DeviceID) (w : String) (p : WishPage)
    (d' : DeviceID) (w' : String) :
    d' = d ∧ w' = w ∧ pages.set d w p d' w' = p ∨ pages.set d w p d' w' = pages d' w' := by
  unfold set
  by_cases hd : d' = d
  · subst hd
    by_cases hw : w' = w
    · subst hw
      exact .inl ⟨rfl, rfl, by simp⟩
    · exact .inr (by simp [hw])
  · exact .inr (by simp [hd])

/-! ## What was typed -/

/-- The texts of a page are empty or were typed there. -/
structure Typed (keys : List (Key UIImage)) (d : DeviceID) (w : String) (p : WishPage) : Prop where
  guestName : p.guestName = "" ∨ .editName d w p.guestName ∈ keys
  wish : p.wish = "" ∨ ∃ text, .editWish d w text ∈ keys ∧ p.wish = WishPage.cut text

section Run

variable [UIKit UIImage] {refusal : NSError} {keys : List (Key UIImage)}
  {c c' : Config (World UIImage) (Job UIImage)} {pages pages' : WishPages}

theorem typed_update {key : Key UIImage} (hI : ∀ d w, Typed keys d w (pages d w)) (hk : key ∈ keys)
    (d : DeviceID) (w : String) :
    Typed keys d w ((typing UIImage refusal).update key c c' pages d w) := by
  cases key with
  | openPage d' w' =>
    rcases WishPages.set_cases pages d' w' .new d w with ⟨_, _, he⟩ | he
    · simp only [typing, he]
      exact ⟨.inl rfl, .inl rfl⟩
    · simp only [typing, he]
      exact hI d w
  | editName d' w' text =>
    rcases WishPages.set_cases pages d' w' ((pages d' w').editName text) d w with ⟨rfl, rfl, he⟩ | he
    · simp only [typing, he]
      exact ⟨.inr hk, (hI d w).wish⟩
    · simp only [typing, he]
      exact hI d w
  | editWish d' w' text =>
    rcases WishPages.set_cases pages d' w' ((pages d' w').editWish text) d w with ⟨rfl, rfl, he⟩ | he
    · simp only [typing, he]
      exact ⟨by rw [WishPage.editWish_guestName]; exact (hI d w).guestName,
        .inr ⟨text, hk, WishPage.editWish_wish _ _⟩⟩
    · simp only [typing, he]
      exact hI d w
  | tapSubmit | app | read | serve => exact hI d w

theorem submitted_page {key : Key UIImage} {ls : List (Step UIImage)}
    (hl : (typing UIImage refusal).labels key c pages = some ls) {d : DeviceID}
    {w guestName wish : String} {date : Date} {e : Env}
    (hm : .act (.inl (.tapSubmit d w guestName wish date)) e ∈ ls) :
    key = .tapSubmit d w date e ∧ guestName = (pages d w).guestName ∧ wish = (pages d w).wish ∧
      guestName ≠ "" ∧ wish ≠ "" := by
  cases key with
  | openPage | editName | editWish => cases hl; cases hm
  | tapSubmit d' w' currentDate e' =>
    simp only [typing] at hl
    split at hl
    · cases hl
    · rename_i hdisabled
      cases hl
      cases List.mem_singleton.mp hm
      simp only [WishPage.isSubmitButtonDisabled, Bool.or_eq_true, String.isEmpty_iff, not_or]
        at hdisabled
      exact ⟨rfl, rfl, rfl, hdisabled⟩
  | app a e' =>
    cases a with
    | tapSubmit => cases hl
    | editAuth | tapSignIn | tapSignUp | editForm | tapSave =>
      cases hl
      cases List.mem_singleton.mp hm
  | read | serve =>
    cases hl
    cases List.mem_singleton.mp hm

/-- The wish was typed on the page of `d` for `w` and submitted there. -/
structure Submitted (keys : List (Key UIImage)) (d : DeviceID) (w guestName wish : String)
    (date : Date) : Prop where
  name_typed : .editName d w guestName ∈ keys
  wish_typed : ∃ text, .editWish d w text ∈ keys ∧ wish = WishPage.cut text
  tapped : ∃ e, .tapSubmit d w date e ∈ keys
  name_ne : guestName ≠ ""
  wish_ne : wish ≠ ""

theorem submitted_typed
    (hr : (typing UIImage refusal).run c (fun _ _ => .new) keys = some (c', pages')) :
    ∀ d w guestName wish date e, .act (.inl (.tapSubmit d w guestName wish date)) e ∈
      (typing UIImage refusal).trace c (fun _ _ => .new) keys →
        Submitted keys d w guestName wish date := by
  refine (Driver.run_rule (I := fun _ ls _ pages => (∀ d w, Typed keys d w (pages d w)) ∧
    ∀ d w guestName wish date e, .act (.inl (.tapSubmit d w guestName wish date)) e ∈ ls →
      Submitted keys d w guestName wish date) hr ⟨fun d w => ⟨.inl rfl, .inl rfl⟩, nofun⟩ ?_).2
  rintro ms1 ls c1 pages key ls' c2 hp _ ⟨hI, hsub⟩ hl _
  have hkey : key ∈ keys := hp.subset (List.mem_append_right _ (List.mem_singleton_self _))
  refine ⟨typed_update hI hkey, fun d w guestName wish date e hm => ?_⟩
  rcases List.mem_append.mp hm with hm | hm
  · exact hsub d w guestName wish date e hm
  · obtain ⟨rfl, rfl, rfl, hname, hwish⟩ := submitted_page hl hm
    exact ⟨(hI d w).guestName.resolve_left hname, (hI d w).wish.resolve_left hwish, ⟨e, hkey⟩, hname,
      hwish⟩

end Run

/-- Ada types a wish, thinks again, types another one and submits it; then it is read. -/
def joyKeys : List (Key Data) :=
  [.openPage 1 "0007", .editName 1 "0007" "Ada", .editWish 1 "0007" "Luck", .editWish 1 "0007" "Joy",
    .tapSubmit 1 "0007" ⟨1, 1, 2023⟩ { Env.ok with newID := "g" }, .serve 0 .ok,
    .read (.getWishes "0007"), .serve 0 .ok, .serve 0 .ok]

def wishesRead (x : Config (World Data) (Job Data) × WishPages) : Option (String × List Wish) :=
  match x.1.state.client.calls, x.1.state.client.completions with
  | [.getWishes w], [(0, .wishes wishes none)] => some (w, wishes)
  | _, _ => none

theorem joyKeys_run :
    ((typing Data "").run (.init (.start (State.new Data))) (fun _ _ => .new) joyKeys).bind wishesRead =
      some ("0007", [Wish.init "Ada" "Joy" ⟨1, 1, 2023⟩]) := by decide +kernel

end Guests
end WeddApp
