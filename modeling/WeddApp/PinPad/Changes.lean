import WeddApp.PinPad.Pad

/-!
# PinPad.Changes

What one step of the PIN pad does to the text, the log and the tasks: a key press (`Change`), an
answer or a reset (`Replies`).
-/

namespace WeddApp.PinPad

/-- The text changes to `newValue`: looked up if it has four symbols. -/
inductive Change (newValue : List Char) (s : State) : State → List Task → Prop where
  | same (h : newValue = s.pin) : Change newValue s s []
  | lookup {s' : State} (hlen : newValue.length = 4) (hpin : s'.pin = newValue)
      (hlog : s'.log = .lookedUp newValue :: s.log) : Change newValue s s' [.lookup newValue]
  | edit {s' : State} (hlen : newValue.length ≠ 4) (hpin : s'.pin = newValue)
      (hlog : s'.log = s.log) : Change newValue s s' []

theorem setPin_change (newValue : List Char) (s : State) :
    Change newValue s (setPin newValue s).1 (setPin newValue s).2 := by
  unfold setPin
  split
  · rename_i h
    exact .same h
  split
  · rename_i h
    exact .lookup h rfl rfl
  · rename_i h
    exact .edit h rfl rfl

theorem act_change {key : Char} {s s' : State} {ts : List Task} (h : act key s = some (s', ts)) :
    Change (CallKeyboardButton.action key s.pin) s s' ts := by
  unfold act at h
  split at h
  · have hs := setPin_change (CallKeyboardButton.action key s.pin) s
    rw [Option.some.inj h] at hs
    exact hs
  · cases h

theorem Change.pin {newValue : List Char} {s s' : State} {ts : List Task}
    (h : Change newValue s s' ts) : s'.pin = newValue := by
  cases h with
  | same h => exact h.symm
  | lookup _ hpin _ => exact hpin
  | edit _ hpin _ => exact hpin

theorem Change.suffix {newValue : List Char} {s s' : State} {ts : List Task}
    (h : Change newValue s s' ts) : s.log <:+ s'.log := by
  cases h with
  | same _ => exact List.suffix_rfl
  | lookup _ _ hlog => rw [hlog]; exact List.suffix_cons _ _
  | edit _ _ hlog => simp only [hlog, List.suffix_rfl]

theorem Change.no_reset {newValue : List Char} {s s' : State} {ts : List Task}
    (h : Change newValue s s' ts) : .reset ∉ ts := by
  cases h with
  | same _ => simp
  | lookup _ _ _ => simp
  | edit _ _ _ => simp

theorem action_length (key : Char) (text : List Char) :
    (CallKeyboardButton.action key text).length ≤ text.length + 1 := by
  unfold CallKeyboardButton.action
  split
  · rw [List.length_dropLast]; omega
  · simp

/-- A lookup is answered, or a reset fires. -/
inductive Replies (s : State) : Task → State → List Task → Prop where
  | opened {id : List Char} {s' : State} (hpin : s'.pin = s.pin)
      (hlog : s'.log = .correctPINEntered s.pin :: .answered id true :: s.log) :
      Replies s (.lookup id) s' []
  | refused {id : List Char} {s' : State} (hpin : s'.pin = s.pin)
      (hlog : s'.log = .answered id false :: s.log) : Replies s (.lookup id) s' [.reset]
  | cleared {s' : State} (hpin : s'.pin = []) (hlog : s'.log = s.log) : Replies s .reset s' []

theorem serve_replies (t : Task) (reply : Reply) (s : State) :
    Replies s t (serve t reply s).1 (serve t reply s).2 := by
  cases t with
  | lookup id =>
    simp only [serve, onExists]
    split
    · rename_i h
      rw [h]
      exact .opened rfl rfl
    · rename_i h
      rw [Bool.eq_false_iff.mpr h]
      exact .refused rfl rfl
  | reset =>
    have hc := setPin_change [] s
    have hts : (setPin [] s).2 = [] ∧ (setPin [] s).1.log = s.log := by
      unfold setPin
      split
      · exact ⟨rfl, rfl⟩
      · exact ⟨rfl, rfl⟩
    simp only [serve, onReset, hts.1]
    exact .cleared hc.pin hts.2

end WeddApp.PinPad
