import WeddApp.Guests.Entry

/-!
# Guests.Visit

Guests come in while hosts sign up and save: the device of `Guests.Entry` over the network with the
app.

* `shown_saved`: a wedding that is shown was in the form of a Save by a host of that PIN.
* `confirmed_saved`: the pad confirms only the weddingIDs of accounts that have saved.
* `confirmed_shown`: the page of a confirmed PIN shows the wedding of that PIN, unless its read failed.
-/

namespace WeddApp.Entry

open Async Documents Guests

variable {UIImage : Type}

def answer (t : Task) (e : Env) (s : WeddApp.State UIImage) : Reads.Reply :=
  match t with
  | .pad (.lookup id) => .document (s.getDocument (weddingDocument (String.ofList id)) e.error)
  | .document _ id => .document (s.getDocument (weddingDocument id) e.error)
  | .pad .reset | .main _ _ _ => .main

def backend (UIImage : Type) : Link (WeddApp.State UIImage) Task Env Reads.Reply where
  answer := answer
  ambient _ := .main

abbrev World (UIImage : Type) := Joint (WeddApp.State UIImage) State
abbrev Step (UIImage : Type) := Label (WeddApp.Action UIImage ⊕ Action) Env
abbrev Point (UIImage : Type) := Config (World UIImage) (Async.Job WeddApp.Task Task Reads.Reply)

def visit (UIImage : Type) [UIKit UIImage] :
    System (World UIImage) (Async.Job WeddApp.Task Task Reads.Reply)
      (WeddApp.Action UIImage ⊕ Action) Env :=
  network (app UIImage) entry (backend UIImage)

def World.start (s : WeddApp.State UIImage) : World UIImage := ⟨s, .new⟩

variable [UIKit UIImage] {s0 : WeddApp.State UIImage} {ls : List (Step UIImage)} {c c1 : Point UIImage}

section Replies

variable {t : Task} {id : String}

theorem stored_of_found {document : Document}
    (ht : ∀ (e : Env) (s : WeddApp.State UIImage),
      answer t e s = .document (s.getDocument (weddingDocument id) e.error))
    (h : Network.RepliedAt (backend UIImage) ((visit UIImage).history (.init (.start s0)) ls) c1 t
      (.document (.ok (some document)))) :
    c1.state.server.firestore.lookup (weddingDocument id) = some document := by
  obtain ⟨_, e, _, he⟩ := h
  have he := Reads.Reply.document.inj (he.trans (ht e c1.state.server))
  unfold WeddApp.State.getDocument at he
  split at he
  · cases he
  · exact (Except.ok.inj he).symm

theorem missing_of_unknown
    (ht : ∀ (e : Env) (s : WeddApp.State UIImage),
      answer t e s = .document (s.getDocument (weddingDocument id) e.error))
    (h : Network.RepliedAt (backend UIImage) ((visit UIImage).history (.init (.start s0)) ls) c1 t
      (.document (.ok none))) :
    c1.state.server.firestore.lookup (weddingDocument id) = none := by
  obtain ⟨_, e, _, he⟩ := h
  have he := Reads.Reply.document.inj (he.trans (ht e c1.state.server))
  unfold WeddApp.State.getDocument at he
  split at he
  · cases he
  · exact (Except.ok.inj he).symm

end Replies

/-- Some host saved `wedding` under `w`, a weddingID that `generateUniqueID` draws. -/
def SavedAs (h : List (Point UIImage × Step UIImage)) (w : String) (wedding : Wedding) : Prop :=
  ∃ k d uid form uuid, SaveOf h k d uid w form uuid ∧ wedding = form.wedding w ∧ ∃ n, w = formatID n

/-- What a guest's device found was saved. -/
theorem saved_of_found (hclean : s0.Clean) (hdrawn : s0.DrawnIDs)
    (h0 : ∀ w, s0.firestore.lookup (weddingDocument w) = none)
    (hr : (visit UIImage).run (.init (.start s0)) ls = some c) {t : Task} {w : String}
    {document : Document}
    (ht : ∀ (e : Env) (s : WeddApp.State UIImage),
      answer t e s = .document (s.getDocument (weddingDocument w) e.error))
    (h : Network.Replied (backend UIImage) ((visit UIImage).history (.init (.start s0)) ls) t
      (.document (.ok (some document)))) :
    SavedAs ((visit UIImage).history (.init (.start s0)) ls) w (.ofDocument w document) := by
  obtain ⟨c1, h⟩ := h
  obtain ⟨ls1, ls2, _, _, rfl, h1, _, _, _⟩ := h.client hr
  have hpre : ∀ x ∈ (visit UIImage).history (.init (.start s0)) ls1,
      x ∈ (visit UIImage).history (.init (.start s0)) (ls1 ++ ls2) := System.history_subset h1
  obtain ⟨k, d, uid, form, uuid, hsave, rfl⟩ := saved_of_wedding (h0 w) h1 (stored_of_found ht h)
  have hsave := hsave.mono hpre
  refine ⟨k, d, uid, form, uuid, hsave, ofDocument_form form w, ?_⟩
  obtain ⟨c2, _, hread, hid⟩ := hsave.found
  obtain ⟨ls2, h2, _, _⟩ := System.pending_of_served hr hread
  exact (hosts_of_run hclean hdrawn h2 hid).drawn

/-- The pages that were built stay, with the PIN that they were built for. -/
theorem pin_of_run (hr : (visit UIImage).run c1 ls = some c) {m : Nat} {id : String}
    (hm : c1.state.client.pin m = some id) : c.state.client.pin m = some id := by
  refine System.invariant (I := fun c => c.state.client.pin m = some id) hr hm ?_
  intro c2 l c3 _ hI hs
  cases hs with
  | act ha =>
    cases Network.acts_of_act ha with
    | server _ => exact hI
    | client hc => exact pin_acted (acts_of_act hc) hI
  | serve _ ha =>
    cases Network.serves_of_serve ha with
    | server _ | answers => exact hI
    | delivers ht => exact (pin_served (serves_of_serve ht)).trans hI

theorem pin_of_built {c2 : Point UIImage} {e : Env}
    (hs : (visit UIImage).Step c1 (.act (.inr .evaluateBody) e) c2) :
    c2.state.client.pin c1.state.client.pages.length =
      some (String.ofList c1.state.client.pad.page.pin) := by
  cases hs with
  | act ha =>
    cases Network.acts_of_act ha with
    | @client _ s ts hc =>
      have hc : act .evaluateBody c1.state.client = some (s, ts) := hc
      cases acts_of_act hc with
      | build _ => simp [State.pin]

theorem found_of_shown (hr : (visit UIImage).run (.init (.start s0)) ls = some c) {m : Nat}
    {page : Weddings.ViewModel} {wed : Wedding} (hpage : c.state.client.pages[m]? = some page)
    (hwed : page.wed = some wed) :
    ∃ document, wed = .ofDocument page.id document ∧
      Network.Replied (backend UIImage) ((visit UIImage).history (.init (.start s0)) ls)
        (.document m page.id) (.document (.ok (some document))) := by
  obtain ⟨ls', d, hside⟩ := Network.client_of_run hr
  rw [← hside.state] at hpage
  obtain ⟨k, document, hs, rfl⟩ := (known_of_run hside.run).weddings m page wed hpage hwed
  exact ⟨document, rfl, hside.replied k _ _ hs⟩

theorem found_of_confirmed (hr : (visit UIImage).run (.init (.start s0)) ls = some c)
    {pin : List Char} (hpin : .answered pin true ∈ c.state.client.pad.log) :
    ∃ document, Network.Replied (backend UIImage) ((visit UIImage).history (.init (.start s0)) ls)
      (.pad (.lookup pin)) (.document (.ok (some document))) := by
  obtain ⟨ls', d, hside⟩ := Network.client_of_run hr
  rw [← hside.state] at hpin
  obtain ⟨k, document, hs⟩ := (known_of_run hside.run).confirmed pin hpin
  exact ⟨document, hside.replied k _ _ hs⟩

theorem stored_of_confirmed (hr : (visit UIImage).run (.init (.start s0)) ls = some c)
    {pin : List Char} (hpin : .answered pin true ∈ c.state.client.pad.log) :
    (c.state.server.firestore.lookup (weddingDocument (String.ofList pin))).isSome := by
  obtain ⟨document, c1, hrep⟩ := found_of_confirmed hr hpin
  obtain ⟨_, ls2, _, _, _, _, h2, _, _⟩ := hrep.client hr
  exact wedding_stays h2 (by rw [stored_of_found (fun _ _ => rfl) hrep]; rfl)

section Runs

variable (hclean : s0.Clean) (hdrawn : s0.DrawnIDs)
  (h0 : ∀ w, s0.firestore.lookup (weddingDocument w) = none)
  (hr : (visit UIImage).run (.init (.start s0)) ls = some c)

include hclean hdrawn h0 hr

/-- A page of the guest shows a wedding that a host saved under the PIN of the page. -/
theorem shown_saved {m : Nat} {page : Weddings.ViewModel} {wed : Wedding}
    (hpage : c.state.client.pages[m]? = some page) (hwed : page.wed = some wed) :
    SavedAs ((visit UIImage).history (.init (.start s0)) ls) page.id wed := by
  obtain ⟨document, rfl, hrep⟩ := found_of_shown hr hpage hwed
  exact saved_of_found hclean hdrawn h0 hr (fun _ _ => rfl) hrep

/-- A PIN that the pad has confirmed is the weddingID under which a host has saved. -/
theorem confirmed_saved {pin : List Char}
    (hpin : .answered pin true ∈ c.state.client.pad.log) :
    (∃ wedding, SavedAs ((visit UIImage).history (.init (.start s0)) ls) (String.ofList pin) wedding) ∧
      (c.state.server.firestore.lookup (weddingDocument (String.ofList pin))).isSome := by
  obtain ⟨document, hrep⟩ := found_of_confirmed hr hpin
  exact ⟨⟨_, saved_of_found hclean hdrawn h0 hr (fun _ _ => rfl) hrep⟩, stored_of_confirmed hr hpin⟩

/-- At rest, the page that was built for a confirmed PIN shows a wedding that a host saved under it,
unless its read failed. -/
theorem confirmed_shown {e1 : Env} (hbuilt : (c1, .act (.inr .evaluateBody) e1) ∈
      (visit UIImage).history (.init (.start s0)) ls)
    (hpin : .answered c1.state.client.pad.page.pin true ∈ c1.state.client.pad.log)
    (hq : c.pending = []) :
    ∃ page, c.state.client.pages[c1.state.client.pages.length]? = some page ∧
      page.id = String.ofList c1.state.client.pad.page.pin ∧
      ((∃ wed, page.wed = some wed ∧
          SavedAs ((visit UIImage).history (.init (.start s0)) ls) page.id wed) ∨
        ∃ e, Network.Replied (backend UIImage) ((visit UIImage).history (.init (.start s0)) ls)
          (.document c1.state.client.pages.length page.id) (.document (.error e))) := by
  obtain ⟨ls1, ls2, c2, hls, h1, hs, h2⟩ := System.history_split hr hbuilt
  obtain ⟨page, hpage, hid⟩ := Option.map_eq_some_iff.mp (pin_of_run h2 (pin_of_built hs))
  refine ⟨page, hpage, hid, ?_⟩
  obtain ⟨ls', d, hside⟩ := Network.client_of_run hr
  have hnone : d.tasks = [] := by
    have hempty : c.tasks = [] := by rw [Config.tasks, hq]; rfl
    have htasks := hside.tasks
    rw [hempty] at htasks
    exact List.perm_nil.mp htasks
  have hdpage := hpage
  rw [← hside.state] at hdpage
  cases (known_of_run hside.run).waiting _ page hdpage with
  | asked ht | found ht =>
    rw [hnone] at ht
    cases ht
  | shown hwed =>
    obtain ⟨wed, hwed⟩ := Option.isSome_iff_exists.mp hwed
    obtain ⟨document, rfl, hrep⟩ := found_of_shown hr hpage hwed
    exact .inl ⟨_, hwed, saved_of_found hclean hdrawn h0 hr (fun _ _ => rfl) hrep⟩
  | @refused k reply hserved hreply =>
    have hrep := hside.replied k _ _ hserved
    cases reply with
    | error e => exact .inr ⟨e, hrep⟩
    | ok found =>
      cases found with
      | some document => exact absurd rfl (hreply document)
      | none =>
        -- the wedding was there when the page was built, so it was there when the page asked
        obtain ⟨c3, hrep⟩ := hrep
        have hmissing := missing_of_unknown (fun _ _ => rfl) hrep
        obtain ⟨lsr, _, _, dr, _, hr3, _, hside3, hask⟩ := hrep.client hr
        obtain ⟨_, _, ⟨i, hm3, _⟩, _⟩ := hrep
        rcases System.ordered hr hbuilt hm3 with ⟨ls3, h3⟩ | ⟨ls3, h3⟩
        · have hstored := wedding_stays h3 (stored_of_confirmed h1 hpin)
          rw [← hid, hmissing] at hstored
          cases hstored
        · have hasked := (known_of_run hside3.run).asked _ _ hask
          rw [hside3.state] at hasked
          have hlate := pin_of_run h3 hasked
          simp [State.pin] at hlate

end Runs

/-! ## A visit -/

def hostSteps (ls : List (Label (WeddApp.Action Data) Env)) : List (Step Data) :=
  ls.map fun
    | .act a e => .act (.inl a) e
    | .serve i e => .serve i e

def press (key : Char) : Step Data := .act (.inr (.press key)) .ok

/-- A host signs up and saves; the guest, who has been looking at the pad, enters the PIN. -/
def entered : List (Step Data) :=
  hostSteps lateSave ++ [.act (.inr .evaluateBody) .ok, .serve 0 .ok, .serve 0 .ok,
    press '0', press '0', press '0', press '7', .serve 0 .ok, .serve 0 .ok]

/-- The body is evaluated again, and the page of the PIN reads its wedding. -/
def opened : List (Step Data) :=
  entered ++ .act (.inr .evaluateBody) .ok :: [.serve 0 .ok, .serve 0 .ok, .serve 0 .ok, .serve 0 .ok]

theorem opened_saved : ∃ c wed,
    (visit Data).run (.init (.start (.new Data))) opened = some c ∧
      HomePage.wed c.state.client = some wed ∧
      SavedAs ((visit Data).history (.init (.start (.new Data))) opened) "0007" wed := by
  have h : ((visit Data).run (.init (.start (.new Data))) opened).map (fun c =>
      (c.state.client.pages.length, (HomePage.wed c.state.client).isSome,
        c.state.client.pad.page.isOTPSuccessful, c.state.client.pin 1)) =
      some (2, true, true, some "0007") := by decide +kernel
  obtain ⟨c, hr, hc⟩ := Option.map_eq_some_iff.mp h
  simp only [Prod.mk.injEq] at hc
  obtain ⟨hlen, hshown, hopen, hpin⟩ := hc
  obtain ⟨wed, hwed⟩ := Option.isSome_iff_exists.mp hshown
  obtain ⟨page, hpage, hid⟩ := Option.map_eq_some_iff.mp hpin
  have hlast : c.state.client.pages.getLast? = some page := by
    rw [List.getLast?_eq_getElem?, hlen]
    exact hpage
  have hpagewed : page.wed = some wed := by
    simp only [HomePage.wed, hopen, if_true, hlast] at hwed
    exact hwed
  have hsaved := shown_saved clean_new drawnIDs_new (fun _ => rfl) hr hpage hpagewed
  rw [hid] at hsaved
  exact ⟨c, wed, hr, hwed, hsaved⟩

theorem opened_confirmed : ∃ c,
    (visit Data).run (.init (.start (.new Data))) opened = some c ∧
      ∃ wedding, SavedAs ((visit Data).history (.init (.start (.new Data))) opened) "0007" wedding := by
  have h : ((visit Data).run (.init (.start (.new Data))) opened).map (fun c =>
      decide (.answered ['0', '0', '0', '7'] true ∈ c.state.client.pad.log)) = some true := by
    decide +kernel
  obtain ⟨c, hr, hc⟩ := Option.map_eq_some_iff.mp h
  obtain ⟨⟨wedding, hsaved⟩, _⟩ :=
    confirmed_saved clean_new drawnIDs_new (fun _ => rfl) hr (of_decide_eq_true hc)
  exact ⟨c, hr, wedding, hsaved⟩

theorem opened_shown : ∃ (c : Point Data) (page : Weddings.ViewModel),
    (visit Data).run (.init (.start (.new Data))) opened = some c ∧
      c.state.client.pages[1]? = some page ∧ page.id = "0007" ∧
      ((∃ wed, page.wed = some wed ∧
          SavedAs ((visit Data).history (.init (.start (.new Data))) opened) page.id wed) ∨
        ∃ e, Network.Replied (backend Data) ((visit Data).history (.init (.start (.new Data))) opened)
          (.document 1 page.id) (.document (.error e))) := by
  have hrun : ((visit Data).run (.init (.start (.new Data))) opened).map
      (fun c => c.pending.length) = some 0 := by decide +kernel
  have hentered : ((visit Data).run (.init (.start (.new Data))) entered).map (fun c =>
      (c.state.client.pages.length, c.state.client.pad.page.pin,
        decide (.answered ['0', '0', '0', '7'] true ∈ c.state.client.pad.log))) =
      some (1, ['0', '0', '0', '7'], true) := by decide +kernel
  obtain ⟨c, hr, hq⟩ := Option.map_eq_some_iff.mp hrun
  obtain ⟨c1, hr1, hbuilt⟩ := System.mem_history hr
  rw [hr1] at hentered
  simp only [Option.map_some, Option.some.injEq, Prod.mk.injEq, decide_eq_true_eq] at hentered
  obtain ⟨hlen, hpin, hconf⟩ := hentered
  obtain ⟨page, hpage, hid, hshown⟩ := confirmed_shown clean_new drawnIDs_new (fun _ => rfl) hr hbuilt
    (by rw [hpin]; exact hconf) (List.length_eq_zero_iff.mp hq)
  rw [hlen] at hpage hshown
  rw [hpin] at hid
  exact ⟨c, page, hr, hpage, hid, hshown⟩

end WeddApp.Entry
