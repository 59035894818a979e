/-
Splitting a path and joining its segments. A path ends its segments at
slashes, so names without one are the segments of the path that they
join to. A codec of names that brings no slash in therefore acts on a
path segment by segment.
-/
import ContentProperties.Name.Segments

namespace ContentProperties.Name

-- ============================================================ splitting

/-- A name without a slash is a path of one segment. -/
theorem segments_of_not_mem {name : List Char} (h : '/' ∉ name) :
    segments name = [name] := by
  induction name with
  | nil => rfl
  | cons c rest ih =>
    simp only [List.mem_cons, not_or] at h
    rw [segments, if_neg (Ne.symm h.1), ih h.2]

/-- The first slash of a path ends its first segment. -/
theorem segments_append_slash {name : List Char} (h : '/' ∉ name)
    (rest : List Char) :
    segments (name ++ '/' :: rest) = name :: segments rest := by
  induction name with
  | nil => rfl
  | cons c more ih =>
    simp only [List.mem_cons, not_or] at h
    rw [List.cons_append, segments, if_neg (Ne.symm h.1), ih h.2]

/-- A segment holds no slash. -/
theorem slash_not_mem_of_mem_segments {path segment : List Char}
    (h : segment ∈ segments path) : '/' ∉ segment := by
  induction path generalizing segment with
  | nil =>
    rw [List.mem_singleton.1 h]
    exact List.not_mem_nil
  | cons c rest ih =>
    obtain ⟨first, others, hsplit⟩ :=
      List.exists_cons_of_ne_nil (segments_ne_nil rest)
    rw [hsplit] at ih
    rw [segments, hsplit] at h
    split at h
    · rcases List.mem_cons.1 h with rfl | h
      · exact List.not_mem_nil
      · exact ih h
    · next hc =>
      rcases List.mem_cons.1 h with rfl | h
      · have hfirst : '/' ∉ first := ih List.mem_cons_self
        simp [Ne.symm hc, hfirst]
      · exact ih (List.mem_cons_of_mem _ h)

-- ============================================================== joining

theorem joinSegments_cons {name : List Char} {others : List (List Char)}
    (h : others ≠ []) :
    joinSegments (name :: others) = name ++ '/' :: joinSegments others := by
  cases others with
  | nil => exact absurd rfl h
  | cons => rfl

/-- Names without slashes are the segments of the path that they join
to. -/
theorem segments_joinSegments {names : List (List Char)} (hne : names ≠ [])
    (h : ∀ name ∈ names, '/' ∉ name) :
    segments (joinSegments names) = names := by
  induction names with
  | nil => exact absurd rfl hne
  | cons name others ih =>
    have hname : '/' ∉ name := h name List.mem_cons_self
    cases others with
    | nil => exact segments_of_not_mem hname
    | cons second rest =>
      rw [joinSegments_cons (List.cons_ne_nil _ _),
        segments_append_slash hname, ih (List.cons_ne_nil _ _)]
      intro other hother
      exact h other (List.mem_cons_of_mem _ hother)

/-- Replacing the segments of a path by names without slashes replaces
nothing else. -/
theorem segments_mapSegments {f : List Char → List Char} {path : List Char}
    (h : ∀ name ∈ segments path, '/' ∉ f name) :
    segments (mapSegments f path) = (segments path).map f := by
  refine segments_joinSegments ?_ ?_
  · simpa using segments_ne_nil path
  · intro name hname
    obtain ⟨piece, hpiece, rfl⟩ := List.mem_map.1 hname
    exact h piece hpiece

end ContentProperties.Name
