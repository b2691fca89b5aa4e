/-!
# Paths

A path leads through a tree of folders to a folder or a file. As text its names are separated
by slashes; empty names between slashes mean nothing, `.` stays in the same folder and `..`
goes up one, from the top to the top. A `Route` is a path as it is followed: its names one
after the other, `.` and `..` among them. What a route leads to is a `Place`: a name in a
folder, where folders are known by number.
-/

namespace GlyphShelf

structure Place where
  /-- The number of the folder. -/
  folder : Nat
  name : String
deriving DecidableEq

namespace Place

/-- Places are ordered by folder and then by name. -/
instance : Ord Place := ⟨compareLex (compareOn folder) (compareOn name)⟩

instance : Std.TransOrd Place :=
  inferInstanceAs (Std.TransCmp (compareLex (compareOn folder) (compareOn name)))

instance : Std.LawfulEqOrd Place where
  eq_of_compare {a b} h := by
    have both : (compareOn folder a b).then (compareOn name a b) = .eq := h
    have folders : a.folder = b.folder :=
      Std.LawfulEqOrd.eq_of_compare (show compare a.folder b.folder = .eq by
        exact (Ordering.then_eq_eq.mp both).1)
    have names : a.name = b.name :=
      Std.LawfulEqOrd.eq_of_compare (show compare a.name b.name = .eq by
        exact (Ordering.then_eq_eq.mp both).2)
    cases a
    cases b
    simp_all

end Place

/-- The text of a path: `name` seen from `base`, or `name` alone if it starts at the top. -/
def joinNames (base name : String) : String :=
  if name.toList.head? = some '/' then name
  else if base.isEmpty || base.toList.getLast? = some '/' then base ++ name
  else base ++ "/" ++ name

structure Route where
  /-- The names to follow, `.` and `..` among them. -/
  names : List String
  /-- Whether it ends in a slash, and so can only mean a folder. -/
  slashed : Bool
deriving DecidableEq

namespace Route

def pieces : List Char → List (List Char)
  | [] => [[]]
  | c :: rest =>
    if c = '/' then [] :: pieces rest
    else
      match pieces rest with
      | [] => [[c]]
      | piece :: others => (c :: piece) :: others

def ofText (text : String) : Route where
  names := ((pieces text.toList).filter (!·.isEmpty)).map String.ofList
  slashed := text.toList.getLast? = some '/'

/-- The ways that names, given last first, go through, each with its last name first: all of
them, then what comes before the last name, and so on. Those that end in `.` are left out,
since they lead nowhere that the ones before them do not. -/
def stages : List String → List (List String)
  | [] => []
  | name :: before => if name = "." then stages before else (name :: before) :: stages before

/-- The ways through the folders around the last name, behind the whole way itself. -/
def outward (names : List String) : List (List String) := names :: (stages names).drop 1

theorem pieces_of_no_slash {chars : List Char} (h : '/' ∉ chars) : pieces chars = [chars] := by
  induction chars with
  | nil => rfl
  | cons c rest ih =>
    simp only [List.mem_cons, not_or] at h
    have different : ¬ c = '/' := fun e => h.1 e.symm
    simp [pieces, different, ih h.2]

theorem pieces_ne_nil (chars : List Char) : pieces chars ≠ [] := by
  cases chars with
  | nil => simp [pieces]
  | cons c rest =>
    unfold pieces
    split
    · simp
    · split <;> simp

/-- A slash separates the pieces before it from the pieces after it. -/
theorem pieces_append_slash (before after : List Char) :
    pieces (before ++ '/' :: after) = pieces before ++ pieces after := by
  induction before with
  | nil => simp [pieces]
  | cons c rest ih =>
    by_cases slash : c = '/'
    · simp [pieces, slash, ih]
    · obtain ⟨piece, others, first⟩ := List.exists_cons_of_ne_nil (pieces_ne_nil rest)
      simp [pieces, slash, ih, first]

end Route

end GlyphShelf
