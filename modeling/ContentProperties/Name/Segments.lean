/-
The segments of a path: the pieces between its slashes. A path always
has one segment more than slashes, so splitting and joining are inverse
to each other, and a codec of paths is a codec of names applied to each
piece.
-/

namespace ContentProperties.Name

/-- The pieces of a path between its slashes. -/
def segments : List Char → List (List Char)
  | [] => [[]]
  | c :: rest =>
      if c = '/' then [] :: segments rest
      else
        match segments rest with
        | [] => [[c]]
        | first :: others => (c :: first) :: others

/-- The path whose segments are given. -/
def joinSegments : List (List Char) → List Char
  | [] => []
  | [segment] => segment
  | segment :: others => segment ++ '/' :: joinSegments others

/-- The path with every segment replaced by its image. -/
def mapSegments (f : List Char → List Char) (path : List Char) :
    List Char :=
  joinSegments ((segments path).map f)

theorem segments_ne_nil (path : List Char) : segments path ≠ [] := by
  cases path with
  | nil => simp [segments]
  | cons c rest =>
    simp only [segments]
    split
    · simp
    · split <;> simp

theorem joinSegments_segments (path : List Char) :
    joinSegments (segments path) = path := by
  induction path with
  | nil => rfl
  | cons c rest ih =>
    obtain ⟨first, others, hsplit⟩ :=
      List.exists_cons_of_ne_nil (segments_ne_nil rest)
    rw [hsplit] at ih
    simp only [segments]
    split
    · next hc => simp [joinSegments, hsplit, ih, hc]
    · rw [hsplit]
      cases others with
      | nil => simpa [joinSegments] using ih
      | cons second others => simpa [joinSegments] using ih

end ContentProperties.Name
