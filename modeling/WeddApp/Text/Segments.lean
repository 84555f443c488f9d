import WeddApp.Text.Decimal

/-!
# Text.Segments

Paths whose segments end with `/`. A segment without `/` is determined by the path.
-/

namespace Text

def isSegment (s : String) : Bool := !s.toList.contains '/'

theorem segment_unique {a b r : List Char} (ha : '/' ∉ a) (hb : '/' ∉ b)
    (h : a ++ ['/'] <+: b ++ '/' :: r) : a = b := by
  induction a generalizing b with
  | nil =>
    cases b with
    | nil => rfl
    | cons y b =>
      simp only [List.nil_append, List.cons_append, List.cons_prefix_cons] at h
      rw [← h.1] at hb
      exact absurd List.mem_cons_self hb
  | cons x a ih =>
    cases b with
    | nil =>
      simp only [List.nil_append, List.cons_append, List.cons_prefix_cons] at h
      rw [h.1] at ha
      exact absurd List.mem_cons_self ha
    | cons y b =>
      simp only [List.cons_append, List.cons_prefix_cons] at h
      simp only [List.mem_cons, not_or] at ha hb
      rw [h.1, ih ha.2 hb.2 h.2]

/-- A path under the prefix `p` and the segment `a` has `a` as its next segment. -/
theorem hasPrefix_segment {p a b r : String} (ha : isSegment a = true) (hb : isSegment b = true) :
    hasPrefix (p ++ a ++ "/") (p ++ b ++ "/" ++ r) = true ↔ a = b := by
  have ha' : '/' ∉ a.toList := by simpa [isSegment] using ha
  have hb' : '/' ∉ b.toList := by simpa [isSegment] using hb
  constructor
  · intro h
    simp only [hasPrefix, List.isPrefixOf_iff_prefix, String.toList_append, List.append_assoc,
      List.prefix_append_right_inj] at h
    exact String.toList_injective (segment_unique ha' hb' h)
  · intro h
    rw [h]
    exact hasPrefix_append (p ++ b ++ "/") r

end Text
