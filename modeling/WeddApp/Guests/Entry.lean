import WeddApp.Guests.Hosts
import WeddApp.PinPad.Posted

/-!
# Guests.Entry

The guest's way in: the PIN pad, the page it stands on (`OtpScreen.swift`) and the home pages behind it
(`HomePage.swift`, with `getWedding` of `ViewModel.swift`), as an asynchronous system of its own.

The destination of the link to the home page is built whenever the body of `OTPPage` is evaluated, also
before a PIN was entered. Each time it is a new page with a view model of its own, which reads its
wedding at once; the page that is shown is the last one.

* `entry`: the guest's device.
* `Known`: what the device was told about the weddings, and what it is still waiting for.
-/

namespace WeddApp.Entry

open Async Documents

inductive Task where
  | pad (t : PinPad.Task)
  | document (m : Nat) (id : String)
  | main (m : Nat) (documentID : String) (document : Document)

def Task.ofPage : Task → Bool
  | .pad _ => false
  | .document _ _ | .main _ _ _ => true

inductive Action where
  | press (key : Char)
  | evaluateBody

/-- `pages` holds the view models of the home pages that were built, in order. -/
structure State where
  pad : PinPad.State
  pages : List Weddings.ViewModel
  log : List Event

def State.new : State := ⟨.new, [], []⟩

def State.report (s : State) (e : Event) : State := { s with log := e :: s.log }

def State.setWed (s : State) (m : Nat) (wed : Wedding) : State :=
  { s with pages := s.pages.modify m fun model => { model with wed := some wed } }

def State.pin (s : State) (m : Nat) : Option String := (s.pages[m]?).map Weddings.ViewModel.id

def HomePage.init (pin : String) (s : State) : State × List Task :=
  ({ s with pages := s.pages ++ [⟨pin, none⟩] }, Weddings.getWedding .document s.pages.length pin)

/-- What an evaluation of `OTPPage.body` does; `document("")` stops the program. -/
def OTPPage.body (s : State) : Option (State × List Task) :=
  if s.pad.page.pin = [] then none else some (HomePage.init (String.ofList s.pad.page.pin) s)

/-- The wedding that `HomePage.body` shows, unless it is loading. -/
def HomePage.wed (s : State) : Option Wedding :=
  if s.pad.page.isOTPSuccessful then s.pages.getLast?.bind Weddings.ViewModel.wed else none

def act (a : Action) (s : State) : Option (State × List Task) :=
  match a with
  | .press key =>
    match PinPad.act key s.pad with
    | none => none
    | some (pad, ts) => some ({ s with pad := pad }, ts.map .pad)
  | .evaluateBody => OTPPage.body s

def onPad (t : PinPad.Task) (reply : PinPad.Reply) (s : State) : State × List Task :=
  ({ s with pad := (PinPad.serve t reply s.pad).1 }, (PinPad.serve t reply s.pad).2.map .pad)

/-- `none` when the reply is none to this request. -/
def serve (t : Task) (reply : Reads.Reply) (s : State) : Option (State × List Task) :=
  match t, reply with
  | .pad (.lookup id), .document reply => some (onPad (.lookup id) reply s)
  | .pad .reset, .main => some (onPad .reset (.ok none) s)
  | .document m id, .document reply => some (Weddings.getWedding.onDocument .main State.report m id reply s)
  | .main m documentID document, .main => some (s.setWed m (.ofDocument documentID document), [])
  | _, _ => none

def entry : Async.System State Task Action Reads.Reply where
  act a _ s := act a s
  serve := serve

/-! ## The device alone -/

section Pages

variable (s : State) (m : Nat)

theorem pin_setWed (wed : Wedding) (j : Nat) : (s.setWed m wed).pin j = s.pin j := by
  simp only [State.pin, State.setWed, List.getElem?_modify]
  cases s.pages[j]? with
  | none => rfl
  | some model =>
    by_cases hj : m = j
    · simp [hj]
    · simp [hj]

theorem pages_setWed (wed : Wedding) {j : Nat} {page : Weddings.ViewModel}
    (h : (s.setWed m wed).pages[j]? = some page) :
    (j ≠ m ∧ s.pages[j]? = some page) ∨ j = m ∧ page.wed = some wed ∧ s.pin m = some page.id := by
  simp only [State.setWed, List.getElem?_modify] at h
  by_cases hj : m = j
  · subst hj
    refine .inr ⟨rfl, ?_⟩
    cases hp : s.pages[m]? with
    | none => simp [hp] at h
    | some model =>
      simp only [hp, if_true, Option.map_eq_map, Option.map_some, Option.some.injEq] at h
      subst h
      simp [State.pin, hp]
  · simp only [if_neg hj] at h
    refine .inl ⟨Ne.symm hj, ?_⟩
    simpa using h

end Pages

theorem pin_append {pages pages' : List Weddings.ViewModel} {m : Nat} {id : String}
    (h : (pages[m]?).map Weddings.ViewModel.id = some id) :
    ((pages ++ pages')[m]?).map Weddings.ViewModel.id = some id := by
  obtain ⟨page, hpage, hid⟩ := Option.map_eq_some_iff.mp h
  rw [List.getElem?_append_left (List.getElem?_eq_some_iff.mp hpage).1, hpage, Option.map_some, hid]

inductive Acts (s : State) : Action → State → List Task → Prop where
  | press {key : Char} {pad : PinPad.State} {ts : List PinPad.Task}
      (h : PinPad.act key s.pad = some (pad, ts)) :
      Acts s (.press key) { s with pad := pad } (ts.map .pad)
  | build (hpin : s.pad.page.pin ≠ []) :
      Acts s .evaluateBody { s with pages := s.pages ++ [⟨String.ofList s.pad.page.pin, none⟩] }
        [.document s.pages.length (String.ofList s.pad.page.pin)]

theorem acts_of_act {a : Action} {s s' : State} {ts : List Task} (h : act a s = some (s', ts)) :
    Acts s a s' ts := by
  cases a with
  | press key =>
    simp only [act] at h
    split at h
    · cases h
    · rename_i hact
      cases h
      exact .press hact
  | evaluateBody =>
    simp only [act, OTPPage.body] at h
    split at h
    · cases h
    · rename_i hpin
      cases h
      exact .build hpin

inductive Serves (s : State) : Task → Reads.Reply → State → List Task → Prop where
  | lookup {id : List Char} {reply : PinPad.Reply} :
      Serves s (.pad (.lookup id)) (.document reply) (onPad (.lookup id) reply s).1
        (onPad (.lookup id) reply s).2
  | reset : Serves s (.pad .reset) .main (onPad .reset (.ok none) s).1 (onPad .reset (.ok none) s).2
  | found {m : Nat} {id : String} {document : Document} :
      Serves s (.document m id) (.document (.ok (some document))) s [.main m id document]
  | unknown {m : Nat} {id : String} {reply : Except NSError (Option Document)} {e : Event}
      (hreply : ∀ document, reply ≠ .ok (some document)) :
      Serves s (.document m id) (.document reply) (s.report e) []
  | shown {m : Nat} {id : String} {document : Document} :
      Serves s (.main m id document) .main (s.setWed m (.ofDocument id document)) []

theorem serves_of_serve {t : Task} {reply : Reads.Reply} {s s' : State} {ts : List Task}
    (h : serve t reply s = some (s', ts)) : Serves s t reply s' ts := by
  unfold serve at h
  split at h
  · cases h; exact .lookup
  · cases h; exact .reset
  · rename_i m id reply
    unfold Weddings.getWedding.onDocument at h
    split at h
    · cases h; exact .unknown nofun
    · cases h; exact .found
    · cases h; exact .unknown nofun
  · cases h; exact .shown
  · cases h

theorem answered_of_logs {s s' : PinPad.State} {ts : List PinPad.Task} {pin : List Char}
    (hlogs : PinPad.Logs s s' ts) (h : .answered pin true ∈ s'.log) : .answered pin true ∈ s.log := by
  cases hlogs with
  | none hl _ => rwa [hl] at h
  | lookup _ hl _ =>
    rw [hl] at h
    exact (List.mem_cons.mp h).resolve_left nofun

theorem answered_of_pad {t : PinPad.Task} {reply : PinPad.Reply} {s : PinPad.State}
    {pin : List Char} (h : .answered pin true ∈ (PinPad.serve t reply s).1.log) :
    .answered pin true ∈ s.log ∨ t = .lookup pin ∧ ∃ document, reply = .ok (some document) := by
  cases t with
  | reset => exact .inl (answered_of_logs (PinPad.onReset_logs s) h)
  | lookup id =>
    cases reply with
    | error e =>
      simp [PinPad.serve, PinPad.onExists, Reads.isWeddingExist.onDocument] at h
      exact .inl h
    | ok found =>
      cases found with
      | none =>
        simp [PinPad.serve, PinPad.onExists, Reads.isWeddingExist.onDocument] at h
        exact .inl h
      | some document =>
        simp only [PinPad.serve, PinPad.onExists, PinPad.postCorrectPINEntered,
          Reads.isWeddingExist.onDocument, if_true, List.mem_cons, reduceCtorEq, false_or,
          PinPad.Event.answered.injEq, and_true] at h
        rcases h with rfl | h
        · exact .inr ⟨rfl, document, rfl⟩
        · exact .inl h

section Known

variable {h : List (Config State Task × Label Action Reads.Reply)} {c c' : Config State Task}
  {l : Label Action Reads.Reply}

/-- Page `m` is still waiting for its wedding, has it, or was told that there is none. -/
inductive Waiting (h : List (Config State Task × Label Action Reads.Reply)) (ts : List Task) (m : Nat)
    (page : Weddings.ViewModel) : Prop where
  | asked (ht : .document m page.id ∈ ts)
  | found {document : Document} (ht : .main m page.id document ∈ ts)
  | shown (hwed : page.wed.isSome)
  | refused {k : Nat} {reply : Except NSError (Option Document)}
      (hs : Served h k (.document m page.id) (.document reply))
      (hreply : ∀ document, reply ≠ .ok (some document))

/-- What the device knows was answered, and the pages that it has built wait for their weddings. -/
structure Known (h : List (Config State Task × Label Action Reads.Reply)) (c : Config State Task) :
    Prop where
  confirmed : ∀ pin, .answered pin true ∈ c.state.pad.log →
    ∃ k document, Served h k (.pad (.lookup pin)) (.document (.ok (some document)))
  weddings : ∀ m page wed, c.state.pages[m]? = some page → page.wed = some wed →
    ∃ k document, Served h k (.document m page.id) (.document (.ok (some document))) ∧
      wed = .ofDocument page.id document
  asked : ∀ m id, .document m id ∈ c.tasks → c.state.pin m = some id
  found : ∀ m id document, .main m id document ∈ c.tasks → c.state.pin m = some id ∧
    ∃ k, Served h k (.document m id) (.document (.ok (some document)))
  waiting : ∀ m page, c.state.pages[m]? = some page → Waiting h c.tasks m page

theorem Waiting.mono {h' : List (Config State Task × Label Action Reads.Reply)} {ts ts' : List Task}
    {m : Nat} {page : Weddings.ViewModel} (hw : Waiting h ts m page) (hts : ∀ t ∈ ts, t ∈ ts') :
    Waiting (h ++ h') ts' m page := by
  cases hw with
  | asked ht => exact .asked (hts _ ht)
  | found ht => exact .found (hts _ ht)
  | shown hwed => exact .shown hwed
  | refused hs hreply => exact .refused (served_append.mpr (.inl hs)) hreply

theorem Known.pad (hI : Known h c) {h' : List (Config State Task × Label Action Reads.Reply)}
    (hpages : c'.state.pages = c.state.pages)
    (hlog : ∀ pin, .answered pin true ∈ c'.state.pad.log → .answered pin true ∈ c.state.pad.log ∨
      ∃ k document, Served h' k (.pad (.lookup pin)) (.document (.ok (some document))))
    (htasks : ∀ t : Task, t.ofPage = true → (t ∈ c'.tasks ↔ t ∈ c.tasks)) : Known (h ++ h') c' := by
  have hpin : ∀ m, c'.state.pin m = c.state.pin m := fun m => by rw [State.pin, State.pin, hpages]
  constructor
  · intro pin hm
    rcases hlog pin hm with hm | ⟨k, document, hs⟩
    · obtain ⟨k, document, hs⟩ := hI.confirmed pin hm
      exact ⟨k, document, served_append.mpr (.inl hs)⟩
    · exact ⟨k, document, served_append.mpr (.inr hs)⟩
  · intro m page wed hpage hwed
    rw [hpages] at hpage
    obtain ⟨k, document, hs, he⟩ := hI.weddings m page wed hpage hwed
    exact ⟨k, document, served_append.mpr (.inl hs), he⟩
  · intro m id hm
    rw [hpin]
    exact hI.asked m id ((htasks _ rfl).mp hm)
  · intro m id document hm
    rw [hpin]
    obtain ⟨hid, k, hs⟩ := hI.found m id document ((htasks _ rfl).mp hm)
    exact ⟨hid, k, served_append.mpr (.inl hs)⟩
  · intro m page hpage
    rw [hpages] at hpage
    cases hI.waiting m page hpage with
    | asked ht => exact .asked ((htasks _ rfl).mpr ht)
    | found ht => exact .found ((htasks _ rfl).mpr ht)
    | shown hwed => exact .shown hwed
    | refused hs hreply => exact .refused (served_append.mpr (.inl hs)) hreply

theorem Known.build (hI : Known h c) {id : String} {h' : List (Config State Task × Label Action Reads.Reply)}
    (hpad : c'.state.pad = c.state.pad) (hpages : c'.state.pages = c.state.pages ++ [⟨id, none⟩])
    (htasks : c'.tasks = c.tasks ++ [.document c.state.pages.length id]) : Known (h ++ h') c' := by
  have hpin : ∀ m i, c.state.pin m = some i → c'.state.pin m = some i := by
    intro m i hm
    rw [State.pin] at hm ⊢
    rw [hpages]
    exact pin_append hm
  have hnew : c'.state.pages[c.state.pages.length]? = some ⟨id, none⟩ := by simp [hpages]
  have hold : ∀ m page, c'.state.pages[m]? = some page →
      c.state.pages[m]? = some page ∨ m = c.state.pages.length ∧ page = ⟨id, none⟩ := by
    intro m page hpage
    rw [hpages, List.getElem?_append] at hpage
    split at hpage
    · exact .inl hpage
    · rename_i hm
      obtain ⟨hlt, he⟩ := List.getElem?_eq_some_iff.mp hpage
      rw [List.length_singleton] at hlt
      have hm' : m = c.state.pages.length := by omega
      subst hm'
      exact .inr ⟨rfl, by simpa using he.symm⟩
  constructor
  · intro pin hm
    rw [hpad] at hm
    obtain ⟨k, document, hs⟩ := hI.confirmed pin hm
    exact ⟨k, document, served_append.mpr (.inl hs)⟩
  · intro m page wed hpage hwed
    rcases hold m page hpage with hpage | ⟨_, rfl⟩
    · obtain ⟨k, document, hs, he⟩ := hI.weddings m page wed hpage hwed
      exact ⟨k, document, served_append.mpr (.inl hs), he⟩
    · cases hwed
  · intro m i hm
    rw [htasks, List.mem_append, List.mem_singleton] at hm
    rcases hm with hm | hm
    · exact hpin m i (hI.asked m i hm)
    · cases hm
      rw [State.pin, hnew]; rfl
  · intro m i document hm
    rw [htasks, List.mem_append, List.mem_singleton] at hm
    rcases hm with hm | hm
    · obtain ⟨hid, k, hs⟩ := hI.found m i document hm
      exact ⟨hpin m i hid, k, served_append.mpr (.inl hs)⟩
    · cases hm
  · intro m page hpage
    rcases hold m page hpage with hpage | ⟨rfl, rfl⟩
    · refine (hI.waiting m page hpage).mono fun t ht => ?_
      rw [htasks]
      exact List.mem_append_left _ ht
    · refine .asked ?_
      rw [htasks]
      exact List.mem_append_right _ (List.mem_singleton_self _)

theorem Known.reply (hI : Known h c) {i k m : Nat} {id : String} {s : State} {ts : List Task}
    {reply : Except NSError (Option Document)} (hi : c.pending[i]? = some (k, .document m id))
    (hpad : s.pad = c.state.pad) (hpages : s.pages = c.state.pages)
    (hts : ∀ t ∈ ts, ∃ document, t = .main m id document ∧ reply = .ok (some document))
    (hgot : ∀ document, reply = .ok (some document) → .main m id document ∈ ts) :
    Known (h ++ [(c, .serve i (.document reply))]) (c.served i k s ts) := by
  obtain ⟨rest, hperm, htasks⟩ := Config.tasks_served hi s ts
  have hrest : ∀ t ∈ rest, t ∈ c.tasks := fun t ht => hperm.mem_iff.mpr (List.mem_cons_of_mem _ ht)
  have hserved : Served (h ++ [(c, .serve i (.document reply))]) k (.document m id) (.document reply) :=
    served_append.mpr (.inr ((served_serve hi).mpr ⟨rfl, rfl, rfl⟩))
  have hasked := hI.asked m id (hperm.mem_iff.mpr List.mem_cons_self)
  have hpin : ∀ j, s.pin j = c.state.pin j := fun j => by rw [State.pin, State.pin, hpages]
  constructor
  · intro pin hm
    rw [Config.served_state, hpad] at hm
    obtain ⟨k, document, hs⟩ := hI.confirmed pin hm
    exact ⟨k, document, served_append.mpr (.inl hs)⟩
  · intro j page wed hpage hwed
    rw [Config.served_state, hpages] at hpage
    obtain ⟨k, document, hs, he⟩ := hI.weddings j page wed hpage hwed
    exact ⟨k, document, served_append.mpr (.inl hs), he⟩
  · intro j i hm
    rw [htasks, List.mem_append] at hm
    rw [Config.served_state, hpin]
    rcases hm with hm | hm
    · exact hI.asked j i (hrest _ hm)
    · obtain ⟨_, he, _⟩ := hts _ hm
      cases he
  · intro j i document hm
    rw [htasks, List.mem_append] at hm
    rw [Config.served_state, hpin]
    rcases hm with hm | hm
    · obtain ⟨hid, k, hs⟩ := hI.found j i document (hrest _ hm)
      exact ⟨hid, k, served_append.mpr (.inl hs)⟩
    · obtain ⟨_, he, hreply⟩ := hts _ hm
      cases he
      exact ⟨hasked, k, hreply ▸ hserved⟩
  · intro j page hpage
    rw [Config.served_state, hpages] at hpage
    rw [htasks]
    -- the request that is answered may be the one that the page waits for
    cases hI.waiting j page hpage with
    | asked ht =>
      rcases List.mem_cons.mp (hperm.mem_iff.mp ht) with he | ht
      · cases he
        by_cases hreply : ∃ document, reply = .ok (some document)
        · obtain ⟨document, hreply⟩ := hreply
          exact .found (List.mem_append_right _ (hgot document hreply))
        · exact .refused hserved fun document he => hreply ⟨document, he⟩
      · exact .asked (List.mem_append_left _ ht)
    | found ht =>
      exact .found (List.mem_append_left _ ((List.mem_cons.mp (hperm.mem_iff.mp ht)).resolve_left nofun))
    | shown hwed => exact .shown hwed
    | refused hs hreply => exact .refused (served_append.mpr (.inl hs)) hreply

theorem Known.show (hI : Known h c) {i k m : Nat} {id : String} {document : Document} {e : Reads.Reply}
    (hi : c.pending[i]? = some (k, .main m id document)) :
    Known (h ++ [(c, .serve i e)]) (c.served i k (c.state.setWed m (.ofDocument id document)) []) := by
  obtain ⟨rest, hperm, htasks⟩ := Config.tasks_served hi (c.state.setWed m (.ofDocument id document)) []
  rw [List.append_nil] at htasks
  have hrest : ∀ t ∈ rest, t ∈ c.tasks := fun t ht => hperm.mem_iff.mpr (List.mem_cons_of_mem _ ht)
  obtain ⟨hid, kd, hserved⟩ := hI.found m id document (hperm.mem_iff.mpr List.mem_cons_self)
  constructor
  · intro pin hm
    obtain ⟨k, document, hs⟩ := hI.confirmed pin hm
    exact ⟨k, document, served_append.mpr (.inl hs)⟩
  · intro j page wed hpage hwed
    rcases pages_setWed c.state m _ hpage with ⟨_, hpage⟩ | ⟨rfl, hshown, hpin⟩
    · obtain ⟨k, document, hs, he⟩ := hI.weddings j page wed hpage hwed
      exact ⟨k, document, served_append.mpr (.inl hs), he⟩
    · rw [hid] at hpin
      cases hpin
      rw [hshown] at hwed
      cases hwed
      exact ⟨kd, document, served_append.mpr (.inl hserved), rfl⟩
  · intro j i hm
    rw [htasks] at hm
    rw [Config.served_state, pin_setWed]
    exact hI.asked j i (hrest _ hm)
  · intro j i doc hm
    rw [htasks] at hm
    rw [Config.served_state, pin_setWed]
    obtain ⟨hid, k, hs⟩ := hI.found j i doc (hrest _ hm)
    exact ⟨hid, k, served_append.mpr (.inl hs)⟩
  · intro j page hpage
    rw [htasks]
    rcases pages_setWed c.state m _ hpage with ⟨hj, hpage⟩ | ⟨rfl, hshown, _⟩
    · cases hI.waiting j page hpage with
      | asked ht => exact .asked ((List.mem_cons.mp (hperm.mem_iff.mp ht)).resolve_left nofun)
      | found ht =>
        refine .found ((List.mem_cons.mp (hperm.mem_iff.mp ht)).resolve_left fun he => ?_)
        cases he
        exact hj rfl
      | shown hwed => exact .shown hwed
      | refused hs hreply => exact .refused (served_append.mpr (.inl hs)) hreply
    · exact .shown (by rw [hshown]; rfl)

theorem mem_tasks_pad {i k : Nat} {u : PinPad.Task} {s : State} {us : List PinPad.Task} {t : Task}
    (hi : c.pending[i]? = some (k, .pad u)) (ht : t.ofPage = true) :
    t ∈ (c.served i k s (us.map .pad)).tasks ↔ t ∈ c.tasks := by
  obtain ⟨rest, hperm, htasks⟩ := Config.tasks_served hi s (us.map Task.pad)
  have hpad : ∀ v, t ≠ .pad v := by
    rintro v rfl
    cases ht
  rw [htasks, hperm.mem_iff, List.mem_append, List.mem_map, List.mem_cons, or_iff_right (hpad u),
    or_iff_left]
  rintro ⟨v, _, rfl⟩
  exact hpad v rfl

theorem Known.step (hI : Known h c) (hs : entry.Step c l c') : Known (h ++ [(c, l)]) c' := by
  cases hs with
  | act ha =>
    cases acts_of_act ha with
    | press hkey =>
      refine hI.pad rfl (fun pin hm => .inl (answered_of_logs (PinPad.act_logs hkey) hm)) fun t ht => ?_
      rw [Config.tasks_acted, List.mem_append, or_iff_left]
      intro hm
      obtain ⟨_, _, rfl⟩ := List.mem_map.mp hm
      cases ht
    | build => exact hI.build rfl rfl (Config.tasks_acted _ _ _)
  | @serve i k t e s ts hi ha =>
    cases serves_of_serve ha with
    | lookup =>
      refine hI.pad rfl (fun pin hm => ?_) fun t ht => mem_tasks_pad hi ht
      rcases answered_of_pad hm with hm | ⟨hpin, document, rfl⟩
      · exact .inl hm
      · cases hpin
        exact .inr ⟨k, document, (served_serve hi).mpr ⟨rfl, rfl, rfl⟩⟩
    | reset =>
      refine hI.pad rfl (fun pin hm => ?_) fun t ht => mem_tasks_pad hi ht
      rcases answered_of_pad hm with hm | ⟨hpin, _⟩
      · exact .inl hm
      · cases hpin
    | found =>
      refine hI.reply hi rfl rfl (fun t ht => ?_) fun document he => ?_
      · exact ⟨_, List.mem_singleton.mp ht, rfl⟩
      · cases he
        exact List.mem_singleton_self _
    | unknown hreply =>
      exact hI.reply hi rfl rfl (fun t ht => by cases ht) fun document he => absurd he (hreply document)
    | shown => exact hI.show hi

theorem known_of_run {ls : List (Label Action Reads.Reply)} (hr : entry.run (.init .new) ls = some c) :
    Known (entry.history (.init .new) ls) c := by
  refine System.run_rule hr ⟨fun pin hm => ?_, fun m page wed hpage => ?_, fun m id hm => ?_,
    fun m id document hm => ?_, fun m page hpage => ?_⟩ fun h c1 l c2 _ hI hs => hI.step hs
  · cases hm
  · cases hpage
  · cases hm
  · cases hm
  · cases hpage

theorem pin_acted {s s' : State} {a : Action} {ts : List Task} {m : Nat} {id : String}
    (h : Acts s a s' ts) (hm : s.pin m = some id) : s'.pin m = some id := by
  cases h with
  | press _ => exact hm
  | build _ => exact pin_append hm

theorem pin_served {s s' : State} {t : Task} {reply : Reads.Reply} {ts : List Task} {m : Nat}
    (h : Serves s t reply s' ts) : s'.pin m = s.pin m := by
  cases h with
  | lookup | reset | found | unknown => rfl
  | shown => exact pin_setWed s _ _ m

end Known

end WeddApp.Entry
