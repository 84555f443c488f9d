import WeddApp.Reads.Phase

/-!
# Reads.Gallery

What a gallery collects. Its photos are the outcomes of its downloads, one for each path that the
document gave, in the order in which they arrived.

* `Gathered`: the paths still in flight and those that arrived make up what was asked for; the
  photos collected and those on their way to the main queue are what arrived.
* `galleryPhase_of_run`: in every run every gallery is in a `GalleryPhase`.
-/

namespace WeddApp.Reads

open Async

variable {UIImage : Type}

def Request.url : Request UIImage → Option String
  | .imageData (.gallery _) url => some url
  | _ => none

def Request.image : Request UIImage → Option (Option UIImage)
  | .imageMain (.gallery _) image => some (some image)
  | _ => none

structure Gathered (urls : List String) (downloads : List (String × Option UIImage))
    (photos : List (Option UIImage)) (ts : List (Request UIImage)) : Prop where
  urls : (ts.filterMap Request.url ++ downloads.map Prod.fst).Perm urls
  photos : (photos ++ ts.filterMap Request.image).Perm (downloads.map Prod.snd)

namespace Gathered

variable {urls : List String} {downloads : List (String × Option UIImage)}
  {photos : List (Option UIImage)} {ts rest : List (Request UIImage)} {k : Nat}

theorem perm {ts' : List (Request UIImage)} (h : Gathered urls downloads photos ts)
    (ht : ts.Perm ts') : Gathered urls downloads photos ts' where
  urls := ((ht.symm.filterMap _).append_right _).trans h.urls
  photos := ((ht.symm.filterMap _).append_left _).trans h.photos

theorem start (urls : List String) :
    Gathered urls [] [] (urls.map fun url => (.imageData (.gallery k) url : Request UIImage)) where
  urls := by
    rw [List.filterMap_map, List.map_nil, List.append_nil]
    exact (List.filterMap_some (l := urls)).symm ▸ List.Perm.refl _
  photos := by
    rw [List.filterMap_map]
    simp [Function.comp_def, Request.image]

theorem decode {url : String} {image : UIImage}
    (h : Gathered urls downloads photos (.imageData (.gallery k) url :: rest)) :
    Gathered urls (downloads ++ [(url, some image)]) photos
      (rest ++ [.imageMain (.gallery k) image]) := by
  classical
  obtain ⟨hu, hp⟩ := h
  rw [List.perm_iff_count] at hu hp
  constructor
  · refine List.perm_iff_count.mpr fun a => ?_
    have h := hu a
    simp only [List.filterMap_cons, Request.url, List.filterMap_append, List.filterMap_nil,
      List.map_append, List.map_cons, List.map_nil, List.count_append, List.count_cons,
      List.count_nil] at h ⊢
    omega
  · refine List.perm_iff_count.mpr fun a => ?_
    have h := hp a
    simp only [List.filterMap_cons, Request.image, List.filterMap_append, List.filterMap_nil,
      List.map_append, List.map_cons, List.map_nil, List.count_append, List.count_cons,
      List.count_nil] at h ⊢
    omega

theorem fail {url : String}
    (h : Gathered urls downloads photos (.imageData (.gallery k) url :: rest)) :
    Gathered urls (downloads ++ [(url, none)]) (photos ++ [none]) rest := by
  classical
  obtain ⟨hu, hp⟩ := h
  rw [List.perm_iff_count] at hu hp
  constructor
  · refine List.perm_iff_count.mpr fun a => ?_
    have h := hu a
    simp only [List.filterMap_cons, Request.url, List.map_append, List.map_cons, List.map_nil,
      List.count_append, List.count_cons, List.count_nil] at h ⊢
    omega
  · refine List.perm_iff_count.mpr fun a => ?_
    have h := hp a
    simp only [List.filterMap_cons, Request.image, List.map_append, List.map_cons, List.map_nil,
      List.count_append, List.count_cons, List.count_nil] at h ⊢
    omega

theorem collect {image : UIImage}
    (h : Gathered urls downloads photos (.imageMain (.gallery k) image :: rest)) :
    Gathered urls downloads (photos ++ [some image]) rest := by
  obtain ⟨hu, hp⟩ := h
  refine ⟨hu, ?_⟩
  simpa [Request.image] using hp

end Gathered

/-! ## Phases of a gallery -/

/-- The lists of paths that call `k` was given: at most one. -/
def galleryReads (h : List (Config (State UIImage) (Request UIImage) × Label Call Reply))
    (k : Nat) : List (List String) :=
  (servedOf h k).filterMap fun x => galleryRead x.1 x.2

variable [UIKit UIImage]

def galleryDownloads (h : List (Config (State UIImage) (Request UIImage) × Label Call Reply))
    (k : Nat) : List (String × Option UIImage) :=
  (servedOf h k).filterMap fun x => galleryDownload x.1 x.2

/-- The paths read and the downloads answered so far, the group, what is in flight and what the
handler was called with. -/
inductive GalleryPhase (reads : List (List String)) (downloads : List (String × Option UIImage))
    (g : Group UIImage) (ts : List (Request UIImage)) (answers : List (Result UIImage)) : Prop where
  | before (hr : reads = []) (hd : downloads = []) (ht : ∀ t ∈ ts, t.ofGallery = false)
      (ha : ∀ photos, Result.gallery photos ∉ answers)
  | gathering (urls : List String) (hr : reads = [urls]) (ht : ∀ t ∈ ts, t.isDownload = true)
      (hn : ts ≠ []) (hg : Gathered urls downloads g.galleryPhotos ts) (ha : answers = [])
  | collected (urls : List String) (t : Request UIImage) (hr : reads = [urls])
      (hk : ∃ k, t = .galleryNotify k ∨ t = .galleryMain k) (ht : ts = [t])
      (hg : Gathered urls downloads g.galleryPhotos []) (ha : answers = [])
  | done (urls : List String) (photos : List (Option UIImage)) (hr : reads = [urls]) (ht : ts = [])
      (hg : Gathered urls downloads photos []) (ha : answers = [.gallery photos])

def InGalleryPhase (h : List (Config (State UIImage) (Request UIImage) × Label Call Reply))
    (c : Config (State UIImage) (Request UIImage)) (k : Nat) : Prop :=
  GalleryPhase (galleryReads h k) (galleryDownloads h k) (c.state.groups k) (c.descendants k)
    (c.state.answers k)

omit [UIKit UIImage] in
theorem GalleryPhase.frame {reads : List (List String)}
    {downloads : List (String × Option UIImage)} {g : Group UIImage}
    {ts ts' : List (Request UIImage)} {answers : List (Result UIImage)}
    (h : GalleryPhase reads downloads g ts answers) (ht : ts.Perm ts') :
    GalleryPhase reads downloads g ts' answers := by
  cases h with
  | before hr hd ht' ha => exact .before hr hd (fun t hm => ht' t (ht.mem_iff.mpr hm)) ha
  | gathering urls hr ht' hn hg ha =>
    refine .gathering urls hr (fun t hm => ht' t (ht.mem_iff.mpr hm)) ?_ (hg.perm ht) ha
    rintro rfl
    exact hn (List.perm_nil.mp ht)
  | collected urls t hr hk ht' hg ha =>
    subst ht'; exact .collected urls t hr hk (List.singleton_perm.mp ht).symm hg ha
  | done urls photos hr ht' hg ha =>
    subst ht'; exact .done urls photos hr (List.nil_perm.mp ht) hg ha

omit [UIKit UIImage] in
theorem galleryPhase_notify {reads : List (List String)} {urls : List String}
    {downloads : List (String × Option UIImage)} {g : Group UIImage}
    {ts : List (Request UIImage)} {k : Nat} (hr : reads = [urls])
    (ht : ∀ t ∈ ts, t.isDownload = true) (hn : g.entered = ts.length)
    (hg : Gathered urls downloads g.galleryPhotos ts) :
    GalleryPhase reads downloads g (ts ++ g.notify k) [] := by
  cases ts with
  | nil =>
    have hnotify : g.notify k = [.galleryNotify k] := by rw [Group.notify, hn]; rfl
    rw [hnotify]
    exact .collected urls _ hr ⟨k, .inl rfl⟩ rfl hg rfl
  | cons t ts =>
    have hnotify : g.notify k = [] := by
      rw [Group.notify, hn, if_neg]
      exact Nat.succ_ne_zero _
    rw [hnotify, List.append_nil]
    exact .gathering urls hr ht (List.cons_ne_nil _ _) hg rfl

omit [UIKit UIImage] in
theorem galleryDownload_of_ofGallery [UIKit UIImage] {t : Request UIImage} (h : t.ofGallery = false)
    (reply : Reply) : galleryDownload t reply = none := by
  cases t with
  | imageData handler url =>
    cases handler with
    | gallery k => cases h
    | caller k | person k => rfl
  | imageDocument | galleryDocument | userDocument | weddingDocument | guestDocuments | imageMain
  | weddingIDMain | galleryNotify | galleryMain => rfl

theorem galleryRead_of_silent {t : Request UIImage} {reply : Reply} (h : Silent t reply) :
    galleryRead t reply = none := by
  cases t with
  | galleryDocument handler id =>
    cases handler with
    | caller k => rfl
    | gallery k =>
      cases reply with
      | document reply =>
        cases reply with
        | error m => rfl
        | ok document => cases h
      | documents | data | main => rfl
  | imageDocument | userDocument | weddingDocument | guestDocuments | imageData | imageMain
  | weddingIDMain | galleryNotify | galleryMain => rfl

section Serve

variable {s s' : State UIImage} {t : Request UIImage} {reply : Reply}
  {ts rest : List (Request UIImage)} {downloads : List (String × Option UIImage)}

theorem galleryPhase_before (hsv : Serves s t reply s' ts) (ht : t.ofGallery = false)
    (ha : s.answers t.call = []) :
    GalleryPhase (galleryRead t reply).toList [] (s'.groups t.call) ts (s'.answers t.call) := by
  cases hsv with
  | answers r _ hr _ hn hc _ =>
    rw [hn, answers_cons hc, if_pos rfl, ha]
    refine .before rfl rfl nofun fun photos hm => ?_
    exact hr photos (List.mem_singleton.mp hm).symm
  | passes _ _ hn hu _ hc _ =>
    rw [hn, (answers_of_completions hc _).trans ha]
    refine .before rfl rfl (fun u hm => ?_) nofun
    rw [List.mem_singleton.mp hm]; exact hu
  | silent _ hs hc _ =>
    rw [galleryRead_of_silent hs, (answers_of_completions hc _).trans ha]
    exact .before rfl rfl nofun nofun
  | @gathers k id document urls _ hr hc hg =>
    have hgroup : s'.groups k = ⟨urls.length, []⟩ := by rw [hg, Function.update_self]
    have hread : galleryRead (.galleryDocument (.gallery k) id : Request UIImage)
        (.document (.ok document)) = some urls := congrArg some hr
    rw [hread, (answers_of_completions hc _).trans ha]
    show GalleryPhase _ _ (s'.groups k) _ _
    rw [hgroup]
    refine galleryPhase_notify rfl ?_ (List.length_map _).symm (Gathered.start urls)
    intro t ht
    obtain ⟨url, _, rfl⟩ := List.mem_map.mp ht; rfl
  | decodes _ | fails _ _ _ _ | collects _ _ _ | notifies | shows _ _ => cases ht

theorem galleryPhase_collected {urls : List String} {k : Nat} (hsv : Serves s t reply s' ts)
    (hk : t = .galleryNotify k ∨ t = .galleryMain k) (ha : s.answers t.call = [])
    (hg : Gathered urls downloads (s.groups t.call).galleryPhotos []) :
    GalleryPhase [urls] downloads (s'.groups t.call) ts (s'.answers t.call) := by
  rcases hk with rfl | rfl
  · cases hsv with
    | answers _ ht _ _ _ _ _ | passes ht _ _ _ _ _ _ | silent ht _ _ _ => cases ht
    | notifies => exact .collected urls _ rfl ⟨k, .inr rfl⟩ rfl hg ha
  · cases hsv with
    | answers _ ht _ _ _ _ _ | passes ht _ _ _ _ _ _ | silent ht _ _ _ => cases ht
    | shows hc _ =>
      have hans : s'.answers k = [.gallery (s.groups k).galleryPhotos] := by
        rw [answers_cons hc, if_pos rfl]
        exact congrArg _ ha
      exact .done urls _ rfl rfl hg hans

theorem galleryPhase_gathering {urls : List String} (hsv : Serves s t reply s' ts)
    (ht : t.isDownload = true) (hrest : ∀ u ∈ rest, u.isDownload = true)
    (hn : (s.groups t.call).entered = rest.length + 1) (ha : s.answers t.call = [])
    (hg : Gathered urls downloads (s.groups t.call).galleryPhotos (t :: rest)) :
    GalleryPhase [urls] (downloads ++ (galleryDownload t reply).toList) (s'.groups t.call)
      (rest ++ ts) (s'.answers t.call) := by
  cases hsv with
  | answers _ hd _ _ _ _ _ | passes hd _ _ _ _ _ _ | silent hd _ _ _ =>
    rw [isDownload_of_ofGallery hd] at ht; cases ht
  | gathers _ _ _ | notifies | shows _ _ => cases ht
  | @decodes k url reply image ho =>
    have hdown : galleryDownload (.imageData (.gallery k) url) (.data reply) =
        some (url, some image) := by rw [galleryDownload, ho]
    rw [hdown]
    refine .gathering urls rfl ?_ (by simp) hg.decode ha
    intro u hu
    rcases List.mem_append.mp hu with hu | hu
    · exact hrest u hu
    · rw [List.mem_singleton.mp hu]; rfl
  | @fails k url reply _ g ho hg' hc hupd =>
    have hdown : galleryDownload (.imageData (.gallery k) url : Request UIImage) (.data reply) =
        some (url, none) := by rw [galleryDownload, ho]
    have hgroup : s'.groups k = g := by rw [hupd, Function.update_self]
    have hlen : (s.groups k).entered = rest.length + 1 := hn
    rw [hdown, (answers_of_completions hc _).trans ha]
    show GalleryPhase _ _ (s'.groups k) _ _
    rw [hgroup]
    refine galleryPhase_notify rfl hrest ?_ ?_
    · rw [hg', hlen]; rfl
    · rw [hg']; exact hg.fail
  | @collects k image _ g hg' hc hupd =>
    have hgroup : s'.groups k = g := by rw [hupd, Function.update_self]
    have hlen : (s.groups k).entered = rest.length + 1 := hn
    rw [(answers_of_completions hc _).trans ha]
    show GalleryPhase _ (downloads ++ []) (s'.groups k) _ _
    rw [hgroup, List.append_nil]
    refine galleryPhase_notify rfl hrest ?_ ?_
    · rw [hg', hlen]; rfl
    · rw [hg']; exact hg.collect

end Serve

theorem filterMap_one {α β : Type} (f : α → Option β) (a : α) : [a].filterMap f = (f a).toList := by
  cases h : f a with
  | none => rw [List.filterMap_cons_none h]; rfl
  | some b => rw [List.filterMap_cons_some h]; rfl

section Step

variable {h : List (Config (State UIImage) (Request UIImage) × Label Call Reply)}
  {c c' : Config (State UIImage) (Request UIImage)}

omit [UIKit UIImage] in
theorem galleryReads_serve {i k' : Nat} {t : Request UIImage} {reply : Reply}
    (hi : c.pending[i]? = some (k', t)) (k : Nat) :
    galleryReads (h ++ [(c, .serve i reply)]) k =
      galleryReads h k ++ if k' = k then (galleryRead t reply).toList else [] := by
  rw [galleryReads, servedOf_append, servedOf_serve hi, List.filterMap_append]
  split
  · rw [filterMap_one]; rfl
  · rfl

theorem galleryDownloads_serve {i k' : Nat} {t : Request UIImage} {reply : Reply}
    (hi : c.pending[i]? = some (k', t)) (k : Nat) :
    galleryDownloads (h ++ [(c, .serve i reply)]) k =
      galleryDownloads h k ++ if k' = k then (galleryDownload t reply).toList else [] := by
  rw [galleryDownloads, servedOf_append, servedOf_serve hi, List.filterMap_append]
  split
  · rw [filterMap_one]; rfl
  · rfl

theorem galleryPhase_act {call : Call} {e : Reply} (hI : Invariant h c) {k : Nat}
    (hp : InGalleryPhase h c k) :
    InGalleryPhase (h ++ [(c, .act call e)])
      (c.acted (act call c.state).1 (act call c.state).2) k := by
  obtain ⟨_, hc, hg, hts⟩ := act_spec call c.state
  have hans : (act call c.state).1.answers k = c.state.answers k := answers_of_completions hc k
  rw [InGalleryPhase, galleryReads, galleryDownloads, servedOf_append, servedOf_act,
    List.append_nil, Config.acted_state, hans, hg, Config.descendants_acted]
  by_cases hk : c.clock = k
  · subst hk
    have hnone : c.descendants c.clock = [] ∧ c.state.answers c.clock = [] := by
      cases hI.phase c.clock with
      | uncalled _ ht ha _ => exact ⟨ht, ha⟩
      | waiting _ hk _ _ _ _ | gathering hk _ _ _ _ _ | answered _ hk _ _ _ | silent hk _ _ _ =>
        exact absurd hk (Nat.lt_irrefl _)
    rw [InGalleryPhase, hnone.1, hnone.2] at hp
    rw [hnone.1, hnone.2, if_pos rfl, List.nil_append]
    cases hp with
    | before hr hd _ _ =>
      refine .before hr hd (fun t ht => ?_) nofun
      rcases hts with ⟨_, hts⟩ | ⟨_, u, hts, _, hu⟩
      · rw [hts] at ht; cases ht
      · rw [hts] at ht
        rw [List.mem_singleton.mp ht]; exact hu
    | gathering _ _ _ hn _ _ => exact absurd rfl hn
    | collected _ _ _ _ ht _ _ => cases ht
    | done _ _ _ _ _ ha => cases ha
  · rw [if_neg hk, List.append_nil]
    exact hp

theorem galleryPhase_serve {i k' : Nat} {t : Request UIImage} {reply : Reply} {s : State UIImage}
    {ts : List (Request UIImage)} (hI : Invariant h c) (hi : c.pending[i]? = some (k', t))
    (hsv : Serves c.state t reply s ts) {k : Nat} (hp : InGalleryPhase h c k) :
    InGalleryPhase (h ++ [(c, .serve i reply)]) (c.served i k' s ts) k := by
  have hcall : t.call = k' := hI.origin _ (mem_of_getElem? hi)
  rw [InGalleryPhase, galleryReads_serve hi, galleryDownloads_serve hi, Config.served_state]
  by_cases hk : k' = k
  · subst hk
    subst hcall
    obtain ⟨rest, hperm, hdes⟩ := Config.descendants_served_self hi s ts
    rw [if_pos rfl, if_pos rfl, hdes]
    have hp := hp.frame hperm
    cases hI.phase t.call with
    | uncalled _ ht _ _ | answered _ _ ht _ _ | silent _ ht _ _ =>
      rw [ht] at hperm
      exact absurd (List.nil_perm.mp hperm) nofun
    | waiting t' _ hd ht ha _ =>
      rw [ht] at hperm
      have hrest := List.singleton_perm.mp hperm
      simp only [List.cons.injEq] at hrest
      obtain ⟨rfl, rfl⟩ := hrest
      rw [List.nil_append]
      cases hp with
      | before hr hd' ht' _ =>
        rw [hr, hd', galleryDownload_of_ofGallery (ht' t' List.mem_cons_self), List.nil_append]
        exact galleryPhase_before hsv (ht' t' List.mem_cons_self) ha
      | gathering _ _ ht' _ _ _ =>
        rw [ht' t' List.mem_cons_self] at hd; cases hd
      | collected urls u hr hk ht' hg _ =>
        simp only [List.cons.injEq, and_true] at ht'
        subst ht'
        obtain ⟨k, hk⟩ := hk
        have hnone : galleryRead t' reply = none ∧ galleryDownload t' reply = none := by
          rcases hk with rfl | rfl <;> exact ⟨rfl, rfl⟩
        rw [hr, hnone.1, hnone.2]
        simp only [Option.toList_none, List.append_nil]
        exact galleryPhase_collected hsv hk ha hg
      | done _ _ _ ht' _ _ => cases ht'
    | gathering _ hd hg _ ha _ =>
      have hall : ∀ u ∈ t :: rest, u.isDownload = true := fun u hu => hd u (hperm.mem_iff.mpr hu)
      have ht : t.isDownload = true := hall t List.mem_cons_self
      cases hp with
      | before _ _ ht' _ =>
        rw [isDownload_of_ofGallery (ht' t List.mem_cons_self)] at ht; cases ht
      | collected _ t' _ hk ht' _ _ =>
        simp only [List.cons.injEq] at ht'
        obtain ⟨k, hk⟩ := hk
        rw [ht'.1] at ht
        rcases hk with rfl | rfl <;> cases ht
      | done _ _ _ ht' _ _ => cases ht'
      | gathering urls hr _ _ hgath _ =>
        have hnone : galleryRead t reply = none := by
          cases t with
          | galleryDocument => cases ht
          | imageDocument | userDocument | weddingDocument | guestDocuments | imageData | imageMain
          | weddingIDMain | galleryNotify | galleryMain => rfl
        rw [hr, hnone]
        refine galleryPhase_gathering hsv ht (fun u hu => hall u (List.mem_cons_of_mem _ hu)) ?_ ha
          hgath
        rw [hg, hperm.length_eq]; rfl
  · obtain ⟨hg, ha⟩ := hsv.other (k := k) (by rw [hcall]; exact hk)
    rw [if_neg hk, if_neg hk, List.append_nil, List.append_nil, hg, ha]
    exact hp.frame (Config.descendants_served_ne hi hk s ts)

end Step

/-- Every call is in a phase of a gallery; the ones that are no gallery stay in the first. -/
theorem galleryPhase_of_run {ls : List (Label Call Reply)}
    {c : Config (State UIImage) (Request UIImage)}
    (hr : (reads UIImage).run (.init (State.new UIImage)) ls = some c) (k : Nat) :
    InGalleryPhase ((reads UIImage).history (.init (State.new UIImage)) ls) c k := by
  refine (System.run_rule (I := fun h c => Invariant h c ∧ InGalleryPhase h c k) hr ?_ ?_).2
  · exact ⟨invariant_init, .before rfl rfl nofun nofun⟩
  · rintro h c1 l c2 _ ⟨hI, hp⟩ hs
    refine ⟨invariant_step hI hs, ?_⟩
    cases hs with
    | act ha =>
      obtain ⟨rfl, rfl⟩ := served_eq ha
      exact galleryPhase_act hI hp
    | serve hi ha => exact galleryPhase_serve hI hi (serve_serves ha) hp

end WeddApp.Reads
