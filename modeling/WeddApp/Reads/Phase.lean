import WeddApp.Reads.Replies
import WeddApp.Async.Lineage

/-!
# Reads.Phase

How far a call of one of the reads has come. Outside a gallery, a call has one request in flight
until its handler is called; a gallery has as many as downloads have not left its `DispatchGroup`.
Some calls end without an answer (`Unanswered`).

* `phase_act`, `phase_serve`: a step takes every call from a phase to a phase.
* `invariant_of_run`: in every run every call is in a phase.
-/

namespace WeddApp.Reads

open Async

variable {UIImage : Type} [UIKit UIImage]

/-- Call `k` asked for nothing, or got a reply after which no handler is called. -/
def Unanswered (h : List (Config (State UIImage) (Request UIImage) × Label Call Reply)) (k : Nat) :
    Prop :=
  (∃ e, Acted h k (.getWeddingIDFromUser none) e) ∨ ∃ t reply, Served h k t reply ∧ Silent t reply

/-- Whether a call was made and ended without an answer, its group, what it has in flight and what
its handler was called with. -/
inductive Phase (called silent : Prop) (g : Group UIImage) (ts : List (Request UIImage))
    (answers : List (Result UIImage)) : Prop where
  | uncalled (hk : ¬ called) (ht : ts = []) (ha : answers = []) (hs : ¬ silent)
  | waiting (t : Request UIImage) (hk : called) (hd : t.isDownload = false) (ht : ts = [t])
      (ha : answers = []) (hs : ¬ silent)
  | gathering (hk : called) (hd : ∀ t ∈ ts, t.isDownload = true) (hg : g.entered = ts.length)
      (hn : ts ≠ []) (ha : answers = []) (hs : ¬ silent)
  | answered (r : Result UIImage) (hk : called) (ht : ts = []) (ha : answers = [r]) (hs : ¬ silent)
  | silent (hk : called) (ht : ts = []) (ha : answers = []) (hs : silent)

def InPhase (h : List (Config (State UIImage) (Request UIImage) × Label Call Reply))
    (c : Config (State UIImage) (Request UIImage)) (k : Nat) : Prop :=
  Phase (k < c.clock) (Unanswered h k) (c.state.groups k) (c.descendants k) (c.state.answers k)

omit [UIKit UIImage] in
theorem Phase.frame {called called' silent silent' : Prop} {g g' : Group UIImage}
    {ts ts' : List (Request UIImage)} {answers answers' : List (Result UIImage)}
    (h : Phase called silent g ts answers) (hk : called' ↔ called) (hs : silent' ↔ silent)
    (hg : g' = g) (ht : ts.Perm ts') (ha : answers' = answers) :
    Phase called' silent' g' ts' answers' := by
  subst hg ha
  rw [propext hk, propext hs]
  cases h with
  | uncalled hk h' ha hs => subst h'; exact .uncalled hk (List.nil_perm.mp ht) ha hs
  | waiting t hk hd h' ha hs => subst h'; exact .waiting t hk hd (List.singleton_perm.mp ht).symm ha hs
  | gathering hk hd hg hn ha hs =>
    refine .gathering hk (fun t hm => hd t (ht.mem_iff.mpr hm)) (by rw [hg, ht.length_eq]) ?_ ha hs
    rintro rfl
    exact hn (List.perm_nil.mp ht)
  | answered r hk h' ha hs => subst h'; exact .answered r hk (List.nil_perm.mp ht) ha hs
  | silent hk h' ha hs => subst h'; exact .silent hk (List.nil_perm.mp ht) ha hs

omit [UIKit UIImage] in
theorem phase_notify {called silent : Prop} {g : Group UIImage} {ts : List (Request UIImage)} {k : Nat}
    (hk : called) (hd : ∀ t ∈ ts, t.isDownload = true) (hg : g.entered = ts.length)
    (hs : ¬ silent) : Phase called silent g (ts ++ g.notify k) [] := by
  cases ts with
  | nil =>
    refine .waiting (.galleryNotify k) hk rfl ?_ rfl hs
    rw [Group.notify, hg]; rfl
  | cons t ts =>
    have hn : g.notify k = [] := by
      rw [Group.notify, hg, if_neg]
      exact Nat.succ_ne_zero _
    rw [hn, List.append_nil]
    exact .gathering hk hd hg nofun rfl hs

structure Invariant (h : List (Config (State UIImage) (Request UIImage) × Label Call Reply))
    (c : Config (State UIImage) (Request UIImage)) : Prop where
  clock : c.clock = c.state.calls.length
  origin : ∀ x ∈ c.pending, x.2.call = x.1
  phase : ∀ k, InPhase h c k

section Step

variable {h : List (Config (State UIImage) (Request UIImage) × Label Call Reply)}
  {c c' : Config (State UIImage) (Request UIImage)}

theorem unanswered_act {call : Call} {e : Reply} {k : Nat} :
    Unanswered (h ++ [(c, .act call e)]) k ↔
      Unanswered h k ∨ c.clock = k ∧ call = .getWeddingIDFromUser none := by
  constructor
  · rintro (⟨e', ha⟩ | ⟨t, reply, hs, hsil⟩)
    · rcases acted_append.mp ha with ha | ⟨c1, hm, hk⟩
      · exact .inl (.inl ⟨e', ha⟩)
      · simp only [List.mem_singleton, Prod.mk.injEq, Label.act.injEq] at hm
        obtain ⟨rfl, rfl, rfl⟩ := hm
        exact .inr ⟨hk, rfl⟩
    · rcases served_append.mp hs with hs | hs
      · exact .inl (.inr ⟨t, reply, hs, hsil⟩)
      · exact absurd hs served_act
  · rintro ((⟨e', ha⟩ | ⟨t, reply, hs, hsil⟩) | ⟨hk, rfl⟩)
    · exact .inl ⟨e', acted_append.mpr (.inl ha)⟩
    · exact .inr ⟨t, reply, served_append.mpr (.inl hs), hsil⟩
    · exact .inl ⟨e, acted_append.mpr (.inr ⟨c, by simp, hk⟩)⟩

theorem unanswered_serve {i k k' : Nat} {t : Request UIImage} {reply : Reply}
    (hi : c.pending[i]? = some (k', t)) :
    Unanswered (h ++ [(c, .serve i reply)]) k ↔ Unanswered h k ∨ k = k' ∧ Silent t reply := by
  constructor
  · rintro (⟨e', ha⟩ | ⟨t', reply', hs, hsil⟩)
    · rcases acted_append.mp ha with ha | ⟨c1, hm, _⟩
      · exact .inl (.inl ⟨e', ha⟩)
      · simp at hm
    · rcases served_append.mp hs with hs | hs
      · exact .inl (.inr ⟨t', reply', hs, hsil⟩)
      · obtain ⟨rfl, rfl, rfl⟩ := (served_serve hi).mp hs
        exact .inr ⟨rfl, hsil⟩
  · rintro ((⟨e', ha⟩ | ⟨t', reply', hs, hsil⟩) | ⟨rfl, hsil⟩)
    · exact .inl ⟨e', acted_append.mpr (.inl ha)⟩
    · exact .inr ⟨t', reply', served_append.mpr (.inl hs), hsil⟩
    · exact .inr ⟨t, reply, served_append.mpr (.inr ((served_serve hi).mpr ⟨rfl, rfl, rfl⟩)), hsil⟩

theorem phase_act {call : Call} {e : Reply} (hI : Invariant h c) (k : Nat) :
    InPhase (h ++ [(c, .act call e)])
      (c.acted (act call c.state).1 (act call c.state).2) k := by
  obtain ⟨_, hc, hg, hts⟩ := act_spec call c.state
  have hans : (act call c.state).1.answers k = c.state.answers k := answers_of_completions hc k
  have hp := hI.phase k
  by_cases hk : c.clock = k
  · -- the call is made: nothing is known of it yet
    subst hk
    have hun : ¬ Unanswered h c.clock ∧ c.descendants c.clock = [] ∧
        c.state.answers c.clock = [] := by
      cases hp with
      | uncalled _ ht ha hs => exact ⟨hs, ht, ha⟩
      | waiting _ hk _ _ _ _ | gathering hk _ _ _ _ _ | answered _ hk _ _ _ | silent hk _ _ _ =>
        exact absurd hk (Nat.lt_irrefl _)
    obtain ⟨hs, ht, ha⟩ := hun
    have hdes := Config.descendants_acted c (act call c.state).1 (act call c.state).2 c.clock
    rw [ht, if_pos rfl, List.nil_append] at hdes
    have hlt : c.clock < (c.acted (act call c.state).1 (act call c.state).2).clock :=
      Nat.lt_succ_self _
    rw [InPhase, hdes, Config.acted_state, hans, ha, unanswered_act]
    rcases hts with ⟨hcall, hts⟩ | ⟨hcall, t, hts, _, hd⟩
    · rw [hts]
      exact .silent hlt rfl rfl (.inr ⟨rfl, hcall⟩)
    · rw [hts]
      refine .waiting t hlt (isDownload_of_ofGallery hd) rfl rfl ?_
      rintro (h' | ⟨_, h'⟩)
      · exact hs h'
      · exact hcall h'
  · refine hp.frame ?_ ?_ ?_ ?_ hans
    · rw [Config.acted_clock]; omega
    · rw [unanswered_act]
      exact ⟨fun h' => h'.resolve_right fun h'' => hk h''.1, .inl⟩
    · rw [Config.acted_state, hg]
    · rw [Config.descendants_acted, if_neg hk, List.append_nil]

theorem phase_waiting {s s' : State UIImage} {t : Request UIImage} {reply : Reply}
    {ts : List (Request UIImage)} {called unanswered : Prop} (hsv : Serves s t reply s' ts)
    (hd : t.isDownload = false) (hk : called) (ha : s.answers t.call = []) (hs : ¬ unanswered) :
    Phase called (unanswered ∨ Silent t reply) (s'.groups t.call) ts (s'.answers t.call) := by
  have hnot (hn : ¬ Silent t reply) : ¬ (unanswered ∨ Silent t reply) := fun h => h.elim hs hn
  cases hsv with
  | answers r _ _ hn _ hc _ =>
    refine .answered r hk rfl ?_ (hnot hn)
    rw [answers_cons hc, if_pos rfl, ha]
  | passes _ hn _ hud _ hc _ =>
    exact .waiting _ hk (isDownload_of_ofGallery hud) rfl ((answers_of_completions hc _).trans ha)
      (hnot hn)
  | silent _ hsil hc _ =>
    exact .silent hk rfl ((answers_of_completions hc _).trans ha) (.inr hsil)
  | @gathers k _ document urls _ hr hc hg =>
    have hgroup : s'.groups k = ⟨urls.length, []⟩ := by rw [hg, Function.update_self]
    rw [(answers_of_completions hc _).trans ha]
    show Phase called _ (s'.groups k) _ _
    rw [hgroup]
    refine phase_notify hk ?_ ?_ (hnot fun h => h)
    · intro t ht
      obtain ⟨url, _, rfl⟩ := List.mem_map.mp ht; rfl
    · exact (List.length_map _).symm
  | notifies => exact .waiting _ hk rfl rfl ha (hnot fun h => h)
  | @shows k _ hc _ =>
    have hans : s'.answers k = [.gallery (s.groups k).galleryPhotos] := by
      rw [answers_cons hc, if_pos rfl]
      exact congrArg _ ha
    exact .answered _ hk rfl hans (hnot fun h => h)
  | decodes _ | fails _ _ _ _ | collects _ _ _ => cases hd

theorem phase_gathering {s s' : State UIImage} {t : Request UIImage} {reply : Reply}
    {ts rest : List (Request UIImage)} {called unanswered : Prop} (hsv : Serves s t reply s' ts)
    (ht : t.isDownload = true) (hrest : ∀ u ∈ rest, u.isDownload = true)
    (hg : (s.groups t.call).entered = rest.length + 1) (hk : called) (ha : s.answers t.call = [])
    (hs : ¬ unanswered) :
    Phase called (unanswered ∨ Silent t reply) (s'.groups t.call) (rest ++ ts)
      (s'.answers t.call) := by
  have hnot (hn : ¬ Silent t reply) : ¬ (unanswered ∨ Silent t reply) := fun h => h.elim hs hn
  cases hsv with
  | answers _ hd _ _ _ _ _ | passes hd _ _ _ _ _ _ | silent hd _ _ _ =>
    rw [isDownload_of_ofGallery hd] at ht; cases ht
  | gathers _ _ _ | notifies | shows _ _ => cases ht
  | decodes _ =>
    refine .gathering hk ?_ ?_ (by simp) ha (hnot id)
    · intro u hu
      rcases List.mem_append.mp hu with hu | hu
      · exact hrest u hu
      · rw [List.mem_singleton.mp hu]; rfl
    · rw [hg, List.length_append]; rfl
  | @fails k _ _ _ g _ hg' hc hupd | @collects k _ _ g hg' hc hupd =>
    have hgroup : s'.groups k = g := by rw [hupd, Function.update_self]
    have hlen : (s.groups k).entered = rest.length + 1 := hg
    rw [(answers_of_completions hc _).trans ha]
    show Phase called _ (s'.groups k) _ _
    rw [hgroup]
    refine phase_notify hk hrest ?_ (hnot fun h => h)
    rw [hg', hlen]; rfl

theorem phase_serve {i k' : Nat} {t : Request UIImage} {reply : Reply} {s : State UIImage}
    {ts : List (Request UIImage)} (hI : Invariant h c) (hi : c.pending[i]? = some (k', t))
    (hsv : Serves c.state t reply s ts) (k : Nat) :
    InPhase (h ++ [(c, .serve i reply)]) (c.served i k' s ts) k := by
  have hp := hI.phase k
  have hcall : t.call = k' := hI.origin _ (mem_of_getElem? hi)
  by_cases hk : k' = k
  · subst hk
    subst hcall
    obtain ⟨rest, hperm, hdes⟩ := Config.descendants_served_self hi s ts
    rw [InPhase, hdes, propext (unanswered_serve hi), Config.served_clock, Config.served_state,
      propext (and_iff_right rfl)]
    cases hp with
    | uncalled _ ht _ _ | answered _ _ ht _ _ | silent _ ht _ _ =>
      rw [ht] at hperm
      exact absurd (List.nil_perm.mp hperm) nofun
    | waiting t' hk hd ht ha hs =>
      rw [ht] at hperm
      have hrest := List.singleton_perm.mp hperm
      simp only [List.cons.injEq] at hrest
      obtain ⟨rfl, rfl⟩ := hrest
      exact phase_waiting hsv hd hk ha hs
    | gathering hk hd hg _ ha hs =>
      have hall : ∀ u ∈ t :: rest, u.isDownload = true := fun u hu => hd u (hperm.mem_iff.mpr hu)
      refine phase_gathering hsv (hall t List.mem_cons_self)
        (fun u hu => hall u (List.mem_cons_of_mem _ hu)) ?_ hk ha hs
      rw [hg, hperm.length_eq]; rfl
  · obtain ⟨hg, ha⟩ := hsv.other (k := k) (by rw [hcall]; exact hk)
    refine hp.frame Iff.rfl ?_ hg (Config.descendants_served_ne hi hk s ts) ha
    rw [unanswered_serve hi]
    exact ⟨fun h' => h'.resolve_right fun h'' => hk h''.1.symm, .inl⟩

theorem invariant_step {l : Label Call Reply} (hI : Invariant h c)
    (hs : (reads UIImage).Step c l c') : Invariant (h ++ [(c, l)]) c' := by
  cases hs with
  | @act call e s ts ha =>
    obtain ⟨rfl, rfl⟩ := served_eq ha
    obtain ⟨hcalls, _, _, hts⟩ := act_spec call c.state
    refine ⟨?_, fun x hx => ?_, phase_act hI⟩
    · rw [Config.acted_clock, Config.acted_state, hcalls, hI.clock, List.length_append]; rfl
    · rcases Config.mem_acted.mp hx with hx | ⟨hk, hx⟩
      · exact hI.origin x hx
      · rcases hts with ⟨_, hts⟩ | ⟨_, t, hts, hcall, _⟩
        · rw [hts] at hx; cases hx
        · rw [hts] at hx
          rw [List.mem_singleton.mp hx, hcall, hk, hI.clock]
  | @serve i k t reply s ts hi ha =>
    have hsv := serve_serves ha
    refine ⟨?_, fun x hx => ?_, phase_serve hI hi hsv⟩
    · rw [Config.served_clock, Config.served_state, serve_calls ha]; exact hI.clock
    · rcases Config.mem_served hx with hx | ⟨hk, hx⟩
      · exact hI.origin x hx
      · rw [hsv.same_call hx, hk]; exact hI.origin _ (mem_of_getElem? hi)

end Step

theorem invariant_init : Invariant [] (.init (State.new UIImage)) := by
  refine ⟨rfl, nofun, fun k => .uncalled (Nat.not_lt_zero k) rfl rfl ?_⟩
  rintro (⟨_, _, hm, _⟩ | ⟨_, _, ⟨_, _, hm, _⟩, _⟩)
  · cases hm
  · cases hm

theorem invariant_of_run {ls : List (Label Call Reply)}
    {c : Config (State UIImage) (Request UIImage)}
    (hr : (reads UIImage).run (.init (State.new UIImage)) ls = some c) :
    Invariant ((reads UIImage).history (.init (State.new UIImage)) ls) c :=
  System.run_rule (I := Invariant) hr invariant_init fun _ _ _ _ _ hI hs => invariant_step hI hs

end WeddApp.Reads
