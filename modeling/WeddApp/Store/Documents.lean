import Mathlib.Data.List.AList

/-!
# Store.Documents

Documents and document stores: a document is a finite map from field names to values, a store a
finite map from references to documents. Two writes: `set` replaces a document, `merge` replaces
the named fields and keeps the others (creating the document when there is none).

A document that does not exist has no fields: `fields` and `field` read it as the empty one, so
what a merge does is one equation for each of the two reads (`fields_merge`, `field_merge`).
-/

namespace Documents

universe u

variable {ρ κ ν : Type u}

abbrev Fields (κ ν : Type u) := AList fun _ : κ => ν

abbrev Store (ρ κ ν : Type u) := AList fun _ : ρ => Fields κ ν

def Fields.ofList [DecidableEq κ] (l : List (κ × ν)) : Fields κ ν :=
  (l.map fun x => (⟨x.1, x.2⟩ : Sigma fun _ : κ => ν)).toAList

/-- The entries of a dictionary, in the order in which it iterates over them. -/
def Fields.toList (d : Fields κ ν) : List (κ × ν) := d.entries.map fun x => (x.1, x.2)

theorem toList_nodup (d : Fields κ ν) : d.toList.Nodup := by
  refine List.Nodup.map ?_ d.nodupKeys.nodup
  rintro ⟨f, v⟩ ⟨f', v'⟩ he
  simp only [Prod.mk.injEq] at he
  obtain ⟨rfl, rfl⟩ := he; rfl

section Reads

variable [DecidableEq κ]

theorem mem_toList {d : Fields κ ν} {f : κ} {v : ν} : (f, v) ∈ d.toList ↔ d.lookup f = some v := by
  have h := AList.mem_lookup_iff (a := f) (b := v) (s := d)
  simp only [Option.mem_def] at h
  rw [h, Fields.toList, List.mem_map]
  constructor
  · rintro ⟨⟨f', v'⟩, hm, he⟩
    cases he; exact hm
  · intro hm; exact ⟨⟨f, v⟩, hm, rfl⟩

/-- A document is listed, up to order, by any duplicate-free list that has its lookups. -/
theorem toList_perm {d : Fields κ ν} {l : List (κ × ν)} (hn : l.Nodup)
    (h : ∀ f v, d.lookup f = some v ↔ (f, v) ∈ l) : d.toList.Perm l := by
  refine (List.perm_ext_iff_of_nodup (toList_nodup d) hn).mpr ?_
  rintro ⟨f, v⟩
  rw [mem_toList, h]

theorem lookup_singleton (f f' : κ) (v : ν) :
    (AList.singleton f v : Fields κ ν).lookup f' = if f' = f then some v else none := by
  rw [← AList.insert_empty]
  by_cases h : f' = f
  · subst h; rw [AList.lookup_insert, if_pos rfl]
  · rw [AList.lookup_insert_ne h, if_neg h, AList.lookup_empty]

theorem lookup_union (d d' : Fields κ ν) (f : κ) :
    (d ∪ d').lookup f = (d.lookup f).or (d'.lookup f) := by
  by_cases h : f ∈ d
  · rw [AList.lookup_union_left h]
    obtain ⟨v, hv⟩ := Option.isSome_iff_exists.mp (AList.lookup_isSome.mpr h)
    rw [hv]; rfl
  · rw [AList.lookup_union_right h, AList.lookup_eq_none.mpr h]; rfl

end Reads

section Writes

variable [DecidableEq ρ]

/-- The fields of a document; none when it does not exist. -/
def Store.fields (s : Store ρ κ ν) (r : ρ) : Fields κ ν := (s.lookup r).getD ∅

variable [DecidableEq κ]

def Store.field (s : Store ρ κ ν) (r : ρ) (f : κ) : Option ν := (s.fields r).lookup f

def Store.set (s : Store ρ κ ν) (r : ρ) (d : Fields κ ν) : Store ρ κ ν := AList.insert r d s

def Store.merge (s : Store ρ κ ν) (r : ρ) (d : Fields κ ν) : Store ρ κ ν :=
  AList.insert r (d ∪ s.fields r) s

omit [DecidableEq κ] in
theorem lookup_set (s : Store ρ κ ν) (r r' : ρ) (d : Fields κ ν) :
    (s.set r d).lookup r' = if r' = r then some d else s.lookup r' := by
  by_cases h : r' = r
  · subst h; rw [if_pos rfl]; exact AList.lookup_insert _
  · rw [if_neg h]; exact AList.lookup_insert_ne h

theorem lookup_merge (s : Store ρ κ ν) (r r' : ρ) (d : Fields κ ν) :
    (s.merge r d).lookup r' = if r' = r then some (d ∪ s.fields r) else s.lookup r' :=
  lookup_set s r r' (d ∪ s.fields r)

omit [DecidableEq κ] in
theorem fields_of_lookup {s : Store ρ κ ν} {r : ρ} {d : Fields κ ν} (h : s.lookup r = some d) :
    s.fields r = d := by simp [Store.fields, h]

theorem fields_merge (s : Store ρ κ ν) (r r' : ρ) (d : Fields κ ν) :
    (s.merge r d).fields r' = if r' = r then d ∪ s.fields r else s.fields r' := by
  simp only [Store.fields, lookup_merge]
  split <;> rfl

theorem field_merge (s : Store ρ κ ν) (r r' : ρ) (f f' : κ) (v : ν) :
    (s.merge r (AList.singleton f v)).field r' f' =
      if r' = r ∧ f' = f then some v else s.field r' f' := by
  simp only [Store.field, fields_merge]
  by_cases hr : r' = r
  · subst hr
    rw [if_pos rfl, lookup_union, lookup_singleton]
    by_cases hf : f' = f
    · simp [hf]
    · simp [hf]
  · simp [hr]

end Writes

end Documents
