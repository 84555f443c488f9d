import Mathlib.Computability.DFA
import WeddApp.App.Step
import WeddApp.Text.Language
import WeddApp.Text.Split

/-!
# SignUp.Email

The emails that `isValidEmail` accepts. Its pattern can match a domain in several ways, as the class
before the last dot also contains dots and letters; `isEmail_of_parts` says that this makes no
difference, because only the last dot is followed by letters alone.

* `IsEmail`: the grammar, with the email split at its `@` and its domain at the last dot.
* `mem_emailRegex`: what the pattern matches, as some decomposition.
* `emailScan`: one pass over the email that decides it.
-/

namespace WeddApp

open Async Text

def isLocal (c : Char) : Bool := c.isAlphanum || "._%+-".toList.contains c

def isHost (c : Char) : Bool := c.isAlphanum || ".-".toList.contains c

/-- A domain in two pieces. -/
structure IsDomain (host label : List Char) : Prop where
  host_ne : host ≠ []
  host : ∀ c ∈ host, isHost c = true
  length : 2 ≤ label.length ∧ label.length ≤ 64
  label : ∀ c ∈ label, c.isAlpha = true

structure IsEmail (email : List Char) : Prop where
  at_once : email.count '@' = 1
  local_ne : beforeFirst '@' email ≠ []
  localPart : ∀ c ∈ beforeFirst '@' email, isLocal c = true
  dot : '.' ∈ afterFirst '@' email
  domain : IsDomain (beforeLast '.' (afterFirst '@' email)) (afterLast '.' (afterFirst '@' email))

/-! ## The pattern -/

theorem isLetter_eq (c : Char) : isLetter c = c.isAlpha := by
  have hupper : c.isUpper = inRange 'A' 'Z' c := Bool.decide_and ..
  show (inRange 'A' 'Z' c || c.isLower) = (c.isUpper || c.isLower)
  rw [hupper]

theorem inRange_digit (c : Char) : inRange '0' '9' c = c.isDigit := rfl

theorem emailRegex_eq : emailRegex =
    .seq (.plus (.cls isLocal)) (.seq (.cls (· == '@'))
      (.seq (.plus (.cls isHost)) (.seq (.cls (· == '.')) (.between (.cls Char.isAlpha) 2 64)))) := by
  have hletter : isLetter = Char.isAlpha := funext isLetter_eq
  simp only [emailRegex, hletter, inRange_digit]
  rfl

/-- The pattern matches the emails that can be cut up in some way; the cut in the domain may be at any
dot. -/
theorem mem_emailRegex {w : List Char} : w ∈ emailRegex.language ↔
    ∃ u host label, w = u ++ '@' :: (host ++ '.' :: label) ∧ (u ≠ [] ∧ ∀ c ∈ u, isLocal c = true) ∧
      IsDomain host label := by
  rw [emailRegex_eq]
  simp only [Regex.mem_seq, Regex.mem_cls, Regex.mem_plus_cls, Regex.mem_between_cls, beq_iff_eq]
  constructor
  · intro h
    obtain ⟨u, _, rfl, hu, _, _, rfl, ⟨_, rfl, rfl⟩, host, _, rfl, hhost, _, label, rfl, ⟨_, rfl, rfl⟩,
      hlabel⟩ := h
    exact ⟨u, host, label, rfl, hu, hhost.1, hhost.2, ⟨hlabel.1, hlabel.2.1⟩, hlabel.2.2⟩
  · intro h
    obtain ⟨u, host, label, rfl, hu, hd⟩ := h
    exact ⟨u, _, rfl, hu, ['@'], _, rfl, ⟨_, rfl, rfl⟩, host, _, rfl, ⟨hd.host_ne, hd.host⟩, ['.'],
      label, rfl, ⟨_, rfl, rfl⟩, hd.length.1, hd.length.2, hd.label⟩

/-! ## The grammar -/

theorem IsDomain.all_host {host label : List Char} (h : IsDomain host label) :
    ∀ c ∈ host ++ '.' :: label, isHost c = true := by
  intro c hc
  rcases List.mem_append.mp hc with hc | hc
  · exact h.host c hc
  · rcases List.mem_cons.mp hc with rfl | hc
    · decide
    · simp [isHost, Char.isAlphanum, h.label c hc]

theorem IsDomain.no_at {host label : List Char} (h : IsDomain host label) :
    '@' ∉ host ++ '.' :: label := by
  intro hm
  have hc := h.all_host _ hm
  exact absurd hc (by decide)

theorem IsDomain.no_dot {host label : List Char} (h : IsDomain host label) : '.' ∉ label := by
  intro hm
  have hc := h.label _ hm
  exact absurd hc (by decide)

/-- Any way to cut up an email is the one at its `@` and at the last dot. -/
theorem isEmail_of_parts {u host label : List Char} (hne : u ≠ [])
    (hu : ∀ c ∈ u, isLocal c = true) (hd : IsDomain host label) :
    IsEmail (u ++ '@' :: (host ++ '.' :: label)) := by
  have hat : '@' ∉ u := by
    intro hm
    have hc := hu _ hm
    exact absurd hc (by decide)
  obtain ⟨hlocal, hdomain⟩ := first_unique (v := host ++ '.' :: label) hat
  obtain ⟨hhost, hlabel⟩ := last_unique (u := host) hd.no_dot
  refine ⟨?_, ?_, ?_, ?_, ?_⟩
  · rw [List.count_append, List.count_cons_self, List.count_eq_zero.mpr hat,
      List.count_eq_zero.mpr hd.no_at]
  · rw [hlocal]
    exact hne
  · rw [hlocal]
    exact hu
  · rw [hdomain]
    simp
  · rw [hdomain, hhost, hlabel]
    exact hd

theorem isEmail_iff {w : List Char} : IsEmail w ↔ ∃ u host label,
    w = u ++ '@' :: (host ++ '.' :: label) ∧ (u ≠ [] ∧ ∀ c ∈ u, isLocal c = true) ∧
      IsDomain host label := by
  constructor
  · intro h
    have hat : '@' ∈ w := by
      rw [← List.count_pos_iff, h.at_once]
      exact Nat.one_pos
    refine ⟨_, _, _, ?_, ⟨h.local_ne, h.localPart⟩, h.domain⟩
    rw [← split_last h.dot]
    exact split_first hat
  · intro h
    obtain ⟨u, host, label, rfl, hu, hd⟩ := h
    exact isEmail_of_parts hu.1 hu.2 hd

theorem isValidEmail_iff {email : String} : isValidEmail email = true ↔ IsEmail email.toList := by
  rw [isValidEmail, Regex.accepts_iff, mem_emailRegex, isEmail_iff]

/-! ## One pass -/

/-- What a pass over an email remembers. In the domain: whether a character was read, whether one was
read before the last dot, how many were read since, and whether these are letters. -/
inductive EmailScan where
  | localPart (nonempty : Bool)
  | domain (nonempty host : Bool) (label : Nat) (letters : Bool)
  | rejected

namespace EmailScan

def step : EmailScan → Char → EmailScan
  | .localPart nonempty, c =>
    if c = '@' then if nonempty then .domain false false 0 true else .rejected
    else if isLocal c then .localPart true else .rejected
  | .domain nonempty host label letters, c =>
    if c = '.' then .domain true nonempty 0 true
    else if isHost c then .domain true host (label + 1) (letters && c.isAlpha) else .rejected
  | .rejected, _ => .rejected

def accepting : EmailScan → Bool
  | .domain _ host label letters => host && letters && 2 ≤ label && label ≤ 64
  | .localPart _ | .rejected => false

end EmailScan

def emailScan : DFA Char EmailScan where
  step := EmailScan.step
  start := .localPart false
  accept := {s | s.accepting = true}

section Scan

variable {w : List Char}

theorem mem_scan {s : EmailScan} :
    w ∈ emailScan.acceptsFrom s ↔ (emailScan.evalFrom s w).accepting = true := Iff.rfl

theorem scan_cons (s : EmailScan) (c : Char) (w : List Char) :
    emailScan.evalFrom s (c :: w) = emailScan.evalFrom (s.step c) w := rfl

theorem scan_rejected : emailScan.evalFrom .rejected w = .rejected := by
  induction w with
  | nil => rfl
  | cons c w ih =>
    rw [scan_cons]
    exact ih

theorem scan_domain (h : ∀ c ∈ w, isHost c = true) :
    emailScan.evalFrom (.domain false false 0 true) w =
      .domain (!w.isEmpty) (!(beforeLast '.' w).isEmpty) (afterLast '.' w).length
        ((afterLast '.' w).all Char.isAlpha) := by
  induction w using List.reverseRecOn with
  | nil => rfl
  | append_singleton w c ih =>
    have hw : ∀ b ∈ w, isHost b = true := fun b hb => h b (List.mem_append_left _ hb)
    have hc : isHost c = true := h c (by simp)
    rw [DFA.evalFrom_append_singleton, ih hw, beforeLast_concat, afterLast_concat]
    by_cases hdot : c = '.'
    · simp [emailScan, EmailScan.step, hdot]
    · simp [emailScan, EmailScan.step, hdot, hc]

theorem scan_domain_rejected {nonempty host letters : Bool} {label : Nat}
    (h : ¬ ∀ c ∈ w, isHost c = true) :
    emailScan.evalFrom (.domain nonempty host label letters) w = .rejected := by
  induction w generalizing nonempty host label letters with
  | nil => exact absurd (List.forall_mem_nil _) h
  | cons c w ih =>
    rw [scan_cons, EmailScan.step]
    by_cases hc : isHost c = true
    · have hw : ¬ ∀ b ∈ w, isHost b = true := fun hw => h (List.forall_mem_cons.mpr ⟨hc, hw⟩)
      split
      · exact ih hw
      · exact ih hw
    · have hdot : c ≠ '.' := by
        intro hdot
        subst hdot
        exact hc (by decide)
      rw [if_neg hdot, if_neg hc]
      exact scan_rejected

/-- The pass accepts a domain if it can be cut up, as only the last dot can be the cut. -/
theorem scan_domain_iff : w ∈ emailScan.acceptsFrom (.domain false false 0 true) ↔
    ∃ host label, w = host ++ '.' :: label ∧ IsDomain host label := by
  rw [mem_scan]
  constructor
  · intro h
    by_cases hall : ∀ c ∈ w, isHost c = true
    · rw [scan_domain hall] at h
      simp only [EmailScan.accepting, Bool.and_eq_true, Bool.not_eq_true', List.isEmpty_eq_false_iff,
        List.all_eq_true, decide_eq_true_eq] at h
      obtain ⟨⟨⟨hhost, hlabel⟩, hlo⟩, hhi⟩ := h
      have hw := split_last (mem_of_beforeLast hhost)
      refine ⟨_, _, hw, hhost, fun c hc => hall c ?_, ⟨hlo, hhi⟩, hlabel⟩
      rw [hw]
      exact List.mem_append_left _ hc
    · rw [scan_domain_rejected hall] at h
      cases h
  · intro h
    obtain ⟨host, label, rfl, hd⟩ := h
    obtain ⟨hhost, hlabel⟩ := last_unique (u := host) hd.no_dot
    rw [scan_domain hd.all_host, hhost, hlabel]
    simp only [EmailScan.accepting, Bool.and_eq_true, Bool.not_eq_true', List.isEmpty_eq_false_iff,
      List.all_eq_true, decide_eq_true_eq]
    exact ⟨⟨⟨hd.host_ne, hd.label⟩, hd.length.1⟩, hd.length.2⟩

theorem scan_localPart {nonempty : Bool} (h : ∀ c ∈ w, isLocal c = true) :
    emailScan.evalFrom (.localPart nonempty) w = .localPart (nonempty || !w.isEmpty) := by
  induction w generalizing nonempty with
  | nil => simp
  | cons c w ih =>
    obtain ⟨hc, hw⟩ := List.forall_mem_cons.mp h
    have hat : c ≠ '@' := by
      intro hat
      subst hat
      exact absurd hc (by decide)
    rw [scan_cons, EmailScan.step, if_neg hat, if_pos hc, ih hw]
    simp

theorem localPart_of_scan {nonempty : Bool} (h : w ∈ emailScan.acceptsFrom (.localPart nonempty)) :
    ∃ u v, w = u ++ '@' :: v ∧ (nonempty = true ∨ u ≠ []) ∧ (∀ c ∈ u, isLocal c = true) ∧
      v ∈ emailScan.acceptsFrom (.domain false false 0 true) := by
  induction w generalizing nonempty with
  | nil => cases h
  | cons c w ih =>
    rw [mem_scan, scan_cons, EmailScan.step] at h
    split at h
    · rename_i hat
      subst hat
      split at h
      · rename_i hne
        exact ⟨[], w, rfl, .inl hne, List.forall_mem_nil _, h⟩
      · rw [scan_rejected] at h
        cases h
    · split at h
      · rename_i hc
        obtain ⟨u, v, rfl, _, hu, hv⟩ := ih h
        exact ⟨c :: u, v, rfl, .inr (List.cons_ne_nil c u), List.forall_mem_cons.mpr ⟨hc, hu⟩, hv⟩
      · rw [scan_rejected] at h
        cases h

theorem mem_emailScan : w ∈ emailScan.accepts ↔ IsEmail w := by
  rw [isEmail_iff]
  constructor
  · intro h
    obtain ⟨u, v, rfl, hne, hu, hv⟩ := localPart_of_scan h
    obtain ⟨host, label, rfl, hd⟩ := scan_domain_iff.mp hv
    exact ⟨u, host, label, rfl, ⟨hne.resolve_left Bool.false_ne_true, hu⟩, hd⟩
  · intro h
    obtain ⟨u, host, label, rfl, hu, hd⟩ := h
    have hv := scan_domain_iff.mpr ⟨host, label, rfl, hd⟩
    have hread : (false || !u.isEmpty) = true := by simp [hu.1]
    show (emailScan.evalFrom (.localPart false) _).accepting = true
    rw [DFA.evalFrom_of_append, scan_localPart hu.2, scan_cons, hread]
    exact hv

instance : Decidable (IsEmail w) :=
  decidable_of_iff ((emailScan.eval w).accepting = true) mem_emailScan

end Scan

/-- `isValidEmail` accepts the emails of the grammar, and one pass decides which they are. -/
theorem isValidEmail_exact (email : String) :
    (isValidEmail email = true ↔ IsEmail email.toList) ∧
      (isValidEmail email = true ↔ email.toList ∈ emailScan.accepts) := by
  rw [mem_emailScan, isValidEmail_iff]
  exact ⟨Iff.rfl, Iff.rfl⟩

example : isValidEmail "a.b@c.co.d-e.com" = true ∧ isValidEmail "a@b.co1" = false ∧
    isValidEmail "a@b@c.com" = false := by decide

end WeddApp
