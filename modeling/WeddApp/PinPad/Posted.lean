import WeddApp.PinPad.Edits

/-!
# PinPad.Posted

Which PINs open a wedding. The handler of a lookup posts the text of the moment, not the PIN that
was looked up, so what it posts depends on the edits since. `OTPPage` builds a `HomePage` for its `pin`
whenever its body is evaluated, also for the initial `"0"`.

* `Verified`: every PIN posted is one that was looked up and answered with `true`.
* `OnlyConfirmed`: so is every PIN that a `HomePage` is built for.
* `verified_iff_edits_cancel`: the exact conditions for both, on the edits and answers of the run.
-/

namespace WeddApp.PinPad

open Async

/-- `pin` has four symbols, was looked up, and the answer was `true`. -/
structure Confirmed (log : List Event) (pin : List Char) : Prop where
  length : pin.length = 4
  lookedUp : .lookedUp pin ∈ log
  answered : .answered pin true ∈ log

/-- Every notification carries a PIN that had been confirmed when it was posted. -/
def Verified : List Event → Prop
  | [] => True
  | .correctPINEntered pin :: log => Confirmed log pin ∧ Verified log
  | _ :: log => Verified log

/-- Only confirmed PINs are posted, and a `HomePage` is built only for a confirmed PIN; `evaluated`
says at which moments of the run the body of `OTPPage` is evaluated. -/
structure OnlyConfirmed (evaluated : List (Label Char Reply) → Prop) (ls : List (Label Char Reply))
    (c : Config State Task) : Prop where
  posted : Verified c.state.log
  built : ∀ ls1 c1, ls1 <+: ls → evaluated ls1 → pad.run (.init State.new) ls1 = some c1 →
    Confirmed c1.state.log c1.state.page.body

def AnsweredTrue (h : List (Config State Task × Label Char Reply)) (id : List Char) : Prop :=
  ∃ k reply, Served h k (.lookup id) reply ∧ Reads.isWeddingExist.onDocument reply = true

/-- What the edits of the run `ls` after key press number `k` make of `id`. -/
def editedSince (ls : List (Label Char Reply)) (k : Nat) (id : List Char) : List Char :=
  applyEdits (editsSince (pad.history (.init State.new) ls) k) id

/-- Whenever a lookup is answered with `true`, the edits since its key press have made of its PIN the
same PIN again, or one whose own lookup was answered with `true` before. -/
def EditsCancel (ls : List (Label Char Reply)) : Prop :=
  ∀ ls1 i reply c k id, ls1 ++ [.serve i reply] <+: ls → pad.run (.init State.new) ls1 = some c →
    c.pending[i]? = some (k, .lookup id) → Reads.isWeddingExist.onDocument reply = true →
    editedSince ls1 k id = id ∨
      AnsweredTrue (pad.history (.init State.new) ls1) (editedSince ls1 k id)

/-- The same in terms of the text on the pad and the log. -/
def AnsweredOnText (h : List (Config State Task × Label Char Reply)) : Prop :=
  ∀ c k id reply, ServedAt h c k (.lookup id) reply → Reads.isWeddingExist.onDocument reply = true →
    c.state.pin = id ∨ .answered c.state.pin true ∈ c.state.log

theorem Confirmed.mono {log log' : List Event} {pin : List Char} (h : Confirmed log pin)
    (hs : log <:+ log') : Confirmed log' pin :=
  ⟨h.length, hs.subset h.lookedUp, hs.subset h.answered⟩

/-- What a change of the text does to the log and to the page, and what it leaves in flight. -/
inductive Logs (s : State) : State → List Task → Prop where
  | none {s' : State} (hl : s'.log = s.log) (hp : s'.page = s.page) : Logs s s' []
  | lookup {s' : State} {id : List Char} (hid : id.length = 4) (hl : s'.log = .lookedUp id :: s.log)
      (hp : s'.page = s.page) : Logs s s' [.lookup id]

theorem setPin_logs (newValue : List Char) (s : State) :
    Logs s (setPin newValue s).1 (setPin newValue s).2 := by
  unfold setPin
  split
  · exact .none rfl rfl
  split
  · rename_i h
    exact .lookup h rfl rfl
  · exact .none rfl rfl

theorem onReset_logs (s : State) : Logs s (onReset s).1 (onReset s).2 := by
  unfold onReset setPin
  split
  · exact .none rfl rfl
  · exact .none rfl rfl

theorem act_logs {key : Char} {s s' : State} {ts : List Task} (h : act key s = some (s', ts)) :
    Logs s s' ts := by
  unfold act at h
  split at h
  · simp only [Option.some.injEq] at h
    have hs := setPin_logs (CallKeyboardButton.action key s.pin) s
    rw [h] at hs
    exact hs
  · cases h

theorem Logs.suffix {s s' : State} {ts : List Task} (h : Logs s s' ts) : s.log <:+ s'.log := by
  cases h with
  | none hl _ => simp only [hl, List.suffix_rfl]
  | lookup _ hl _ => rw [hl]; exact List.suffix_cons _ _

theorem Logs.verified {s s' : State} {ts : List Task} (h : Logs s s' ts) :
    Verified s'.log ↔ Verified s.log := by
  cases h with
  | none hl _ => rw [hl]
  | lookup _ hl _ => rw [hl]; rfl

/-- What is in flight was looked up, what was answered with `true` is confirmed, and the page shows
the PIN of a notification. -/
structure Invariant (s : State) (ts : List Task) : Prop where
  pending : ∀ id, .lookup id ∈ ts → id.length = 4 ∧ .lookedUp id ∈ s.log
  answered : ∀ id, .answered id true ∈ s.log → Confirmed s.log id
  page : s.page.isOTPSuccessful = true → .correctPINEntered s.page.pin ∈ s.log

theorem Invariant.edit {s s' : State} {ts ts' rest : List Task} (hI : Invariant s ts)
    (h : Logs s s' ts') (hrest : ∀ t ∈ rest, t ∈ ts) : Invariant s' (rest ++ ts') := by
  have hsuf := h.suffix
  refine ⟨fun id hm => ?_, fun id hm => ?_, fun hp => ?_⟩
  · rcases List.mem_append.mp hm with hm | hm
    · obtain ⟨hlen, hl⟩ := hI.pending id (hrest _ hm)
      exact ⟨hlen, hsuf.subset hl⟩
    · cases h with
      | none _ _ => cases hm
      | lookup hid hl _ =>
        have he := List.mem_singleton.mp hm
        cases he
        exact ⟨hid, by rw [hl]; exact List.mem_cons_self⟩
  · refine (hI.answered id ?_).mono hsuf
    cases h with
    | none hl _ => rwa [hl] at hm
    | lookup _ hl _ =>
      rw [hl] at hm
      exact (List.mem_cons.mp hm).resolve_left nofun
  · have hpage : s'.page = s.page := by
      cases h with
      | none _ hp => exact hp
      | lookup _ _ hp => exact hp
    rw [hpage] at hp ⊢
    exact hsuf.subset (hI.page hp)

theorem Invariant.refuse {s s' : State} {ts rest : List Task} {id : List Char} (hI : Invariant s ts)
    (hl : s'.log = .answered id false :: s.log) (hp : s'.page = s.page)
    (hrest : ∀ t ∈ rest, t ∈ ts) : Invariant s' (rest ++ [.reset]) := by
  have hsuf : s.log <:+ s'.log := by rw [hl]; exact List.suffix_cons _ _
  refine ⟨fun id' hm => ?_, fun id' hm => ?_, fun ho => ?_⟩
  · rcases List.mem_append.mp hm with hm | hm
    · obtain ⟨hlen, hl⟩ := hI.pending id' (hrest _ hm)
      exact ⟨hlen, hsuf.subset hl⟩
    · cases List.mem_singleton.mp hm
  · rw [hl] at hm
    exact (hI.answered id' ((List.mem_cons.mp hm).resolve_left nofun)).mono hsuf
  · rw [hp] at ho ⊢
    exact hsuf.subset (hI.page ho)

theorem Invariant.post {s s' : State} {ts rest : List Task} {id : List Char} (hI : Invariant s ts)
    (hid : .lookup id ∈ ts) (hl : s'.log = .correctPINEntered s.pin :: .answered id true :: s.log)
    (hp : s'.page = ⟨true, s.pin⟩) (hrest : ∀ t ∈ rest, t ∈ ts) : Invariant s' rest := by
  have hsuf : s.log <:+ s'.log := by
    rw [hl]; exact (List.suffix_cons _ _).trans (List.suffix_cons _ _)
  refine ⟨fun id' hm => ?_, fun id' hm => ?_, fun _ => ?_⟩
  · obtain ⟨hlen, hl⟩ := hI.pending id' (hrest _ hm)
    exact ⟨hlen, hsuf.subset hl⟩
  · rw [hl] at hm
    rcases List.mem_cons.mp ((List.mem_cons.mp hm).resolve_left nofun) with he | hm
    · cases he
      obtain ⟨hlen, hlook⟩ := hI.pending id hid
      exact ⟨hlen, hsuf.subset hlook, by rw [hl]; exact List.mem_cons_of_mem _ List.mem_cons_self⟩
    · exact (hI.answered id' hm).mono hsuf
  · rw [hl, hp]; exact List.mem_cons_self

section Step

variable {h : List (Config State Task × Label Char Reply)} {c c' : Config State Task}

theorem answeredOnText_act {key : Char} {e : Reply} :
    AnsweredOnText (h ++ [(c, .act key e)]) ↔ AnsweredOnText h := by
  constructor
  · rintro ha c1 k id reply ⟨i, hm, hi⟩
    exact ha c1 k id reply ⟨i, List.mem_append_left _ hm, hi⟩
  · rintro ha c1 k id reply ⟨i, hm, hi⟩
    rcases List.mem_append.mp hm with hm | hm
    · exact ha c1 k id reply ⟨i, hm, hi⟩
    · cases List.mem_singleton.mp hm

theorem answeredOnText_serve {i k : Nat} {t : Task} {reply : Reply}
    (hi : c.pending[i]? = some (k, t)) :
    AnsweredOnText (h ++ [(c, .serve i reply)]) ↔ AnsweredOnText h ∧
      ∀ id, t = .lookup id → Reads.isWeddingExist.onDocument reply = true →
        c.state.pin = id ∨ .answered c.state.pin true ∈ c.state.log := by
  constructor
  · intro ha
    constructor
    · rintro c1 k' id reply' ⟨i', hm, hi'⟩
      exact ha c1 k' id reply' ⟨i', List.mem_append_left _ hm, hi'⟩
    · rintro id rfl hreply
      exact ha c k id reply ⟨i, by simp, hi⟩ hreply
  · rintro ⟨ha, hlast⟩ c1 k' id reply' ⟨i', hm, hi'⟩ hreply
    rcases List.mem_append.mp hm with hm | hm
    · exact ha c1 k' id reply' ⟨i', hm, hi'⟩ hreply
    · simp only [List.mem_singleton, Prod.mk.injEq, Label.serve.injEq] at hm
      obtain ⟨rfl, rfl, rfl⟩ := hm
      rw [hi] at hi'; cases hi'
      exact hlast id rfl hreply

/-- A step keeps the invariant, and posts an unconfirmed PIN only when a lookup is answered with
`true` on another text. -/
theorem posted_step {l : Label Char Reply} (hI : Invariant c.state c.tasks)
    (hv : Verified c.state.log ↔ AnsweredOnText h) (hs : pad.Step c l c') :
    Invariant c'.state c'.tasks ∧
      (Verified c'.state.log ↔ AnsweredOnText (h ++ [(c, l)])) := by
  cases hs with
  | act ha =>
    have hl := act_logs ha
    rw [Config.tasks_acted, Config.acted_state, answeredOnText_act, hl.verified]
    exact ⟨hI.edit hl fun _ hm => hm, hv⟩
  | @serve i k t reply s ts hi ha =>
    obtain ⟨rest, hperm, htasks⟩ := Config.tasks_served hi s ts
    have hrest : ∀ u ∈ rest, u ∈ c.tasks := fun u hu => hperm.mem_iff.mpr (List.mem_cons_of_mem _ hu)
    rw [htasks, Config.served_state, answeredOnText_serve hi, ← hv]
    cases t with
    | reset =>
      have hl : Logs c.state s ts := by
        have hl := onReset_logs c.state
        cases ha; exact hl
      refine ⟨hI.edit hl hrest, ?_⟩
      rw [hl.verified]
      exact ⟨fun h' => ⟨h', fun _ hne => by cases hne⟩, fun h' => h'.1⟩
    | lookup id =>
      simp only [pad, serve, onExists, Option.some.injEq] at ha
      cases hreply : Reads.isWeddingExist.onDocument reply with
      | false =>
        rw [hreply] at ha
        cases ha
        refine ⟨hI.refuse rfl rfl hrest, ?_⟩
        exact ⟨fun h' => ⟨h', fun _ _ hf => by cases hf⟩, fun h' => h'.1⟩
      | true =>
        rw [hreply] at ha
        cases ha
        have hid : .lookup id ∈ c.tasks := hperm.mem_iff.mpr List.mem_cons_self
        refine ⟨by rw [List.append_nil]; exact hI.post hid rfl rfl hrest, ?_⟩
        obtain ⟨hlen, hlook⟩ := hI.pending id hid
        constructor
        · rintro ⟨hc, hlog⟩
          refine ⟨hlog, fun id' he _ => ?_⟩
          cases he
          rcases List.mem_cons.mp hc.answered with he | hm
          · cases he; exact .inl rfl
          · exact .inr hm
        · rintro ⟨hlog, hlast⟩
          refine ⟨?_, hlog⟩
          rcases hlast id rfl rfl with he | hm
          · rw [he]
            exact ⟨hlen, List.mem_cons_of_mem _ hlook, List.mem_cons_self⟩
          · exact (hI.answered _ hm).mono (List.suffix_cons _ _)

end Step

theorem posted_of_run {ls : List (Label Char Reply)} {c : Config State Task}
    (hr : pad.run (.init State.new) ls = some c) : Invariant c.state c.tasks ∧
      (Verified c.state.log ↔ AnsweredOnText (pad.history (.init State.new) ls)) := by
  refine System.run_rule (I := fun h c => Invariant c.state c.tasks ∧
    (Verified c.state.log ↔ AnsweredOnText h)) hr ⟨⟨nofun, nofun, nofun⟩, ?_⟩ ?_
  · refine ⟨fun _ => ?_, fun _ => trivial⟩
    rintro c k id reply ⟨i, hm, _⟩
    cases hm
  · rintro h c1 l c2 _ ⟨hI, hv⟩ hs
    exact posted_step hI hv hs

theorem confirmed_of_posted {log : List Event} {pin : List Char} (h : Verified log)
    (hm : .correctPINEntered pin ∈ log) : Confirmed log pin := by
  induction log with
  | nil => cases hm
  | cons ev log ih =>
    have hsuf : log <:+ ev :: log := List.suffix_cons ev log
    cases ev with
    | correctPINEntered pin' =>
      rcases List.mem_cons.mp hm with he | hm
      · cases he; exact h.1.mono hsuf
      · exact (ih h.2 hm).mono hsuf
    | lookedUp _ => exact (ih h ((List.mem_cons.mp hm).resolve_left nofun)).mono hsuf
    | answered _ _ => exact (ih h ((List.mem_cons.mp hm).resolve_left nofun)).mono hsuf

/-- The log and the page tell which lookups were answered with `true`. -/
structure Told (h : List (Config State Task × Label Char Reply)) (s : State) : Prop where
  log : ∀ id, .answered id true ∈ s.log ↔ AnsweredTrue h id
  page : s.page.isOTPSuccessful = true ↔ ∃ id, AnsweredTrue h id
  initial : s.page.isOTPSuccessful = false → s.page.pin = ['0']

section Answers

variable {h : List (Config State Task × Label Char Reply)} {c c' : Config State Task}

theorem answeredTrue_act {key : Char} {e : Reply} {id : List Char} :
    AnsweredTrue (h ++ [(c, .act key e)]) id ↔ AnsweredTrue h id := by
  simp only [AnsweredTrue, served_append, served_act, or_false]

theorem answeredTrue_serve {i k : Nat} {t : Task} {reply : Reply}
    (hi : c.pending[i]? = some (k, t)) {id : List Char} :
    AnsweredTrue (h ++ [(c, .serve i reply)]) id ↔
      AnsweredTrue h id ∨ t = .lookup id ∧ Reads.isWeddingExist.onDocument reply = true := by
  simp only [AnsweredTrue, served_append, served_serve hi]
  constructor
  · rintro ⟨k', reply', hserved | ⟨_, rfl, rfl⟩, ht⟩
    · exact .inl ⟨k', reply', hserved, ht⟩
    · exact .inr ⟨rfl, ht⟩
  · rintro (⟨k', reply', hserved, ht⟩ | ⟨rfl, ht⟩)
    · exact ⟨k', reply', .inl hserved, ht⟩
    · exact ⟨k, reply, .inr ⟨rfl, rfl, rfl⟩, ht⟩

theorem Told.edit {s' : State} {ts : List Task} {l : Label Char Reply} (ht : Told h c.state)
    (hl : Logs c.state s' ts)
    (hsame : ∀ id, AnsweredTrue (h ++ [(c, l)]) id ↔ AnsweredTrue h id) :
    Told (h ++ [(c, l)]) s' := by
  have hlog : ∀ id, .answered id true ∈ s'.log ↔ .answered id true ∈ c.state.log := by
    intro id
    cases hl with
    | none hl _ => rw [hl]
    | lookup _ hl _ => rw [hl, List.mem_cons]; exact or_iff_right nofun
  have hpage : s'.page = c.state.page := by
    cases hl with
    | none _ hp => exact hp
    | lookup _ _ hp => exact hp
  refine ⟨fun id => ?_, ?_, hpage ▸ ht.initial⟩
  · rw [hsame]; exact (hlog id).trans (ht.log id)
  · simp only [hsame, hpage]; exact ht.page

theorem told_step {l : Label Char Reply} (ht : Told h c.state) (hs : pad.Step c l c') :
    Told (h ++ [(c, l)]) c'.state := by
  cases hs with
  | act ha => exact ht.edit (act_logs ha) fun _ => answeredTrue_act
  | @serve i k t reply s ts hi ha =>
    cases t with
    | reset =>
      have hl := onReset_logs c.state
      cases ha
      refine ht.edit hl fun id => ?_
      rw [answeredTrue_serve hi]
      simp
    | lookup id =>
      simp only [pad, serve, onExists, Option.some.injEq] at ha
      cases hreply : Reads.isWeddingExist.onDocument reply with
      | false =>
        rw [hreply] at ha
        cases ha
        refine ⟨fun id' => ?_, ?_, ht.initial⟩
        · rw [answeredTrue_serve hi, hreply, ← ht.log]
          simp
        · simp only [answeredTrue_serve hi, hreply]
          simpa using ht.page
      | true =>
        rw [hreply] at ha
        cases ha
        refine ⟨fun id' => ?_, ?_, fun hf => by cases hf⟩
        · rw [answeredTrue_serve hi, hreply, ← ht.log]
          simp [postCorrectPINEntered, eq_comm, or_comm]
        · simp only [answeredTrue_serve hi, hreply]
          exact iff_of_true rfl ⟨id, .inr ⟨rfl, trivial⟩⟩

end Answers

theorem told_of_run {ls : List (Label Char Reply)} {c : Config State Task}
    (hr : pad.run (.init State.new) ls = some c) : Told (pad.history (.init State.new) ls) c.state := by
  refine System.run_rule (I := fun h c => Told h c.state) hr ?_ fun _ _ _ _ _ ht hs => told_step ht hs
  refine ⟨fun id => iff_of_false nofun ?_, iff_of_false nofun ?_, fun _ => rfl⟩
  · rintro ⟨k, reply, ⟨c, i, hm, _⟩, _⟩; cases hm
  · rintro ⟨id, k, reply, ⟨c, i, hm, _⟩, _⟩; cases hm

theorem answeredOnText_iff {ls : List (Label Char Reply)} {c : Config State Task}
    (hr : pad.run (.init State.new) ls = some c) :
    AnsweredOnText (pad.history (.init State.new) ls) ↔ EditsCancel ls := by
  -- at an answer the text on the pad is the PIN with the edits since its key press
  have htext : ∀ {ls1 : List (Label Char Reply)} {c1 : Config State Task} {i k : Nat}
      {id : List Char}, pad.run (.init State.new) ls1 = some c1 →
      c1.pending[i]? = some (k, .lookup id) → c1.state.pin = editedSince ls1 k id :=
    fun h1 hi => ((scheduled_of_run h1).lookups _ _ (mem_of_getElem? hi)).text
  constructor
  · rintro ha ls1 i reply c1 k id ⟨ls2, rfl⟩ h1 hi hreply
    rw [List.append_assoc] at hr ha
    obtain ⟨c2, h2, hm⟩ := System.mem_history hr
    obtain rfl : c1 = c2 := Option.some.inj (h1.symm.trans h2)
    rw [← htext h1 hi, ← (told_of_run h1).log]
    exact ha c1 k id reply ⟨i, hm, hi⟩ hreply
  · rintro hc c1 k id reply ⟨i, hm, hi⟩ hreply
    obtain ⟨ls1, ls2, c2, hls, h1, _, _⟩ := System.history_split hr hm
    have hpre : ls1 ++ [.serve i reply] <+: ls := ⟨ls2, by rw [hls, List.append_assoc]; rfl⟩
    rw [htext h1 hi, (told_of_run h1).log]
    exact hc ls1 i reply c1 k id hpre h1 hi hreply

theorem EditsCancel.mono {ls ls1 : List (Label Char Reply)} (h : EditsCancel ls) (hp : ls1 <+: ls) :
    EditsCancel ls1 :=
  fun ls2 i reply c k id hp' => h ls2 i reply c k id (hp'.trans hp)

/-- In every run, only confirmed PINs are posted exactly if the edits since each lookup that is
answered with `true` cancel out. Only confirmed PINs get a `HomePage` exactly if, besides, the body of
`OTPPage` is not evaluated before such an answer; so not if it is evaluated when the page appears. -/
theorem verified_iff_edits_cancel {ls : List (Label Char Reply)} {c : Config State Task}
    (hr : pad.run (.init State.new) ls = some c) (evaluated : List (Label Char Reply) → Prop) :
    (Verified c.state.log ↔ EditsCancel ls) ∧
    (OnlyConfirmed evaluated ls c ↔ EditsCancel ls ∧ ∀ ls1, ls1 <+: ls → evaluated ls1 →
      ∃ id, AnsweredTrue (pad.history (.init State.new) ls1) id) ∧
    (evaluated [] → ¬ OnlyConfirmed evaluated ls c) := by
  have hposted : ∀ {ls : List (Label Char Reply)} {c : Config State Task},
      pad.run (.init State.new) ls = some c → (Verified c.state.log ↔ EditsCancel ls) :=
    fun hr => (posted_of_run hr).2.trans (answeredOnText_iff hr)
  refine ⟨hposted hr, ⟨fun ho => ⟨(hposted hr).mp ho.posted, ?_⟩, ?_⟩, ?_⟩
  · intro ls1 hp hev
    obtain ⟨ls2, rfl⟩ := hp
    obtain ⟨c1, h1, _⟩ := System.run_append.mp hr
    have hc := ho.built ls1 c1 (List.prefix_append _ _) hev h1
    have ht := told_of_run h1
    rw [← ht.page]
    by_contra hn
    have hlen := hc.length
    rw [OTPPage.body, ht.initial (Bool.eq_false_iff.mpr hn)] at hlen
    cases hlen
  · rintro ⟨hcancel, hev⟩
    refine ⟨(hposted hr).mpr hcancel, fun ls1 c1 hp he h1 => ?_⟩
    have hopen := (told_of_run h1).page.mpr (hev ls1 hp he)
    exact confirmed_of_posted ((hposted h1).mpr (hcancel.mono hp)) ((posted_of_run h1).1.page hopen)
  · intro hev ho
    have hc := ho.built [] (.init State.new) (List.nil_prefix) hev rfl
    cases hc.length

def onePin : List (Label Char Reply) :=
  [.act '1' (.ok none), .act '2' (.ok none), .act '3' (.ok none), .act '4' (.ok none),
    .serve 0 (.ok (some ∅))]

/-- With the body evaluated after the answer only, the guest gets the wedding of the PIN typed. -/
theorem onePin_confirmed : ∃ c, pad.run (.init State.new) onePin = some c ∧
    c.state.page.body = ['1', '2', '3', '4'] ∧ OnlyConfirmed (fun ls => ls = onePin) onePin c := by
  obtain ⟨c, hr, hpage, hlog⟩ : ∃ c, pad.run (.init State.new) onePin = some c ∧
      c.state.page = ⟨true, ['1', '2', '3', '4']⟩ ∧
      c.state.log = [.correctPINEntered ['1', '2', '3', '4'], .answered ['1', '2', '3', '4'] true,
        .lookedUp ['1', '2', '3', '4']] := ⟨_, rfl, rfl, rfl⟩
  have hiff := verified_iff_edits_cancel hr fun ls => ls = onePin
  refine ⟨c, hr, by rw [hpage]; rfl, hiff.2.1.mpr ⟨hiff.1.mp ?_, ?_⟩⟩
  · rw [hlog]
    exact ⟨⟨rfl, by simp, by simp⟩, trivial⟩
  · rintro ls1 _ rfl
    rw [← (told_of_run hr).page, hpage]

/-- Two lookups in flight: `1234`, which is refused, and `1235`, which is confirmed after the reset
that the first one scheduled. -/
def twoLookups : List (Label Char Reply) :=
  [.act '1' (.ok none), .act '2' (.ok none), .act '3' (.ok none), .act '4' (.ok none),
    .act '\u232B' (.ok none), .act '5' (.ok none), .serve 0 (.ok none), .serve 1 (.ok none),
    .serve 0 (.ok (some ∅))]

/-- The empty text is posted, and the page opens it. -/
theorem empty_pin_opened : ∃ c, pad.run (.init State.new) twoLookups = some c ∧ c.pending = [] ∧
    .correctPINEntered [] ∈ c.state.log ∧ c.state.page = ⟨true, []⟩ ∧ ¬ Verified c.state.log ∧
    ∀ evaluated, ¬ OnlyConfirmed evaluated twoLookups c := by
  obtain ⟨c, hr, hq, hlog, hpage⟩ : ∃ c, pad.run (.init State.new) twoLookups = some c ∧
      c.pending = [] ∧ c.state.log.head? = some (.correctPINEntered []) ∧
      c.state.page = ⟨true, []⟩ := ⟨_, rfl, rfl, rfl, rfl⟩
  have hm : .correctPINEntered [] ∈ c.state.log := List.mem_of_mem_head? hlog
  have hv : ¬ Verified c.state.log := by
    intro hv
    cases (confirmed_of_posted hv hm).length
  exact ⟨c, hr, hq, hm, hpage, hv, fun _ ho => hv ho.posted⟩

end WeddApp.PinPad
