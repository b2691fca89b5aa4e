import GlyphShelf.Device.Directory
import GlyphShelf.Proofs.Shelf.Agreement
import GlyphShelf.Proofs.Wording

/-!
# Devices whose failures fit a frame

A shelf passes on what its device says. On a device that is `Terse`, where the texts of all
failures fit the body of a frame and no record is too large to be addressed, the texts of all
failures of a shelf fit as well: a ring or a payload adds short failures of its own, and wraps no
other. Nothing is asked about what the device holds or about when it fails.

A directory of files is terse, and so is every device that fails with errors of the operating
system whose texts fit.
-/

namespace GlyphShelf

variable {σ η α : Type}

def FailsShort (act : Action σ α) : Prop := ∀ s e s', Runs act s (.error e) s' → e.Fits

/-- The failures of all operations fit a frame, and what is read of a record is not more than
addresses of 64 bits tell apart. -/
structure Device.Terse (σ : Type) {η : Type} [Device σ η] : Prop where
  opening : ∀ name access, FailsShort (openRecord name access : Action σ η)
  reading : ∀ count, FailsShort (read count : Action (σ × η) Bytes)
  seeking : ∀ pos, FailsShort (seek pos : Action (σ × η) Unit)
  writing : ∀ bytes, FailsShort (write bytes : Action (σ × η) Unit)
  closing : ∀ record : η, FailsShort (close record : Action σ Unit)
  deleting : ∀ name, FailsShort (delete name : Action σ Unit)
  listing : FailsShort (list : Action σ (List String))
  addressed : ∀ (record : η) s bytes s',
    Runs (takeAll record : Action σ Bytes) s (.ok bytes) s' → bytes.length < 2 ^ 64

/-! ## A device compared with itself -/

section

open Comparison Device

variable (σ η) in
/-- Every state agrees with itself alone. Of two failures it is said that they are the same and
that they fit, so that actions that agree in this sense fail only with failures that fit. -/
def alone : Likeness σ η σ η where
  agree s t := s = t
  later := { allows := fun _ _ => True, refl := fun _ => trivial, trans := fun _ _ => trivial }
  records h k _ _ := h = k
  lasting same _ := same
  told e e' := e = e' ∧ e.Fits
  absence := by
    rintro e e' ⟨rfl, -⟩
    exact Iff.rfl
  listings names names' := names = names'

theorem agrees_alone {act : Action σ α} (short : FailsShort act) :
    (alone σ η).Agrees (alone σ η).told Same act act := by
  rintro s t rfl
  obtain ⟨result, run⟩ := exists_runs act s
  refine ⟨result, result, _, _, run, run, rfl, trivial, ?_⟩
  cases result with
  | ok a => exact .ok rfl
  | error e => exact .error ⟨rfl, short _ _ _ run⟩

theorem agrees_alone_opened {act : Action (σ × η) α} (short : FailsShort act) :
    (alone σ η).opened.Agrees (alone σ η).told Same act act := by
  rintro ⟨s, h⟩ ⟨t, k⟩ ⟨agree, related⟩
  obtain rfl : s = t := agree
  obtain rfl : h = k := related
  obtain ⟨result, run⟩ := exists_runs act (s, h)
  refine ⟨result, result, _, _, run, run, ⟨rfl, rfl⟩, trivial, ?_⟩
  cases result with
  | ok a => exact .ok rfl
  | error e => exact .error ⟨rfl, short _ _ _ run⟩

theorem failsShort_of_agrees {ρ β : Type} {act : Action (σ × ρ) α} {act' : Action (σ × ρ) β}
    {values : α → β → σ × ρ → σ × ρ → Prop}
    (agrees : ((alone σ η).sharing ρ).Agrees (alone σ η).told values act act') :
    FailsShort act := by
  intro s e s' run
  obtain ⟨_, _, _, _, run₁, -, -, -, matched⟩ := agrees s s ⟨rfl, rfl⟩
  obtain ⟨rfl, -⟩ := run.deterministic run₁
  cases matched with
  | error told => exact told.2

namespace Device.Terse

variable [Device σ η] (terse : Terse σ)

include terse

theorem closing_alone : (alone σ η).Closing := by
  rintro h k s t agree related
  obtain rfl : h = k := related
  exact agrees_alone (terse.closing h) s t agree

theorem agrees_withRecord {name : String} {access : Access} {work : Action (σ × η) α}
    (working : FailsShort work) : (alone σ η).Agrees (alone σ η).told Same
      (withRecord name access work) (withRecord name access work) := by
  refine Likeness.agrees_withRecord (agrees_alone (terse.opening name access)) ?_
    terse.closing_alone
  rintro h k s t agree related
  exact agrees_alone_opened working (s, h) (t, k) ⟨agree, related⟩

/-- So a device is like itself in whatever a shelf asks of it. -/
theorem alike {room : Nat} (roomy : Link.size ≤ room) : Alike (alone σ η) room where
  opening name := agrees_alone (terse.opening name.text .readOnly)
  reading count _ := agrees_alone_opened (terse.reading count)
  sizing := by
    rintro h k s t agree related
    obtain rfl : s = t := agree
    obtain rfl : h = k := related
    rfl
  closing := terse.closing_alone
  replacing name bytes _ := terse.agrees_withRecord (terse.writing bytes)
  overwriting key field value := by
    refine terse.agrees_withRecord fun s e s' run => ?_
    rcases run.bind_cases with ⟨_, _, -, written⟩ | ⟨e', failed, told⟩
    · exact terse.writing _ _ _ _ written
    · obtain rfl := Except.error.inj told
      exact terse.seeking _ _ _ _ failed
  deleting name := agrees_alone (terse.deleting name.text)
  listing := agrees_alone terse.listing
  sweepingPayloads := by
    rintro names names' rfl
    induction names.filterMap RecordName.glyph? with
    | nil => exact .pure ()
    | cons key keys ih =>
      refine Agrees.bind (agrees_allowAbsence (alone σ η).absence ?_) fun _ => ih
      refine Agrees.bind (agrees_ofExcept fun e refused => ?_) fun _ =>
        agrees_alone (terse.deleting _)
      exact ⟨rfl, (Failure.Raised.of_requireGlyph refused).fits⟩
  sweepingLinks := by
    rintro names names' rfl
    induction names.filter RecordName.isLink with
    | nil => exact .pure ()
    | cons name names ih =>
      exact Agrees.bind (agrees_allowAbsence (alone σ η).absence (agrees_alone (terse.deleting _)))
        fun _ => ih
  raising e raised := ⟨rfl, raised.fits⟩
  roomy := roomy

end Device.Terse

end

/-! ## Errors of the operating system -/

def SystemError.Short (error : SystemError) : Prop :=
  error.text.utf8ByteSize ≤ 80 ∧ error.code < 2 ^ 64

instance (error : SystemError) : Decidable error.Short := inferInstanceAs (Decidable (_ ∧ _))

theorem SystemError.Short.fits {error : SystemError} (short : error.Short) :
    (Failure.ofSystem error).Fits := by
  have told : (Failure.device (.system error)).Fits :=
    ((Pieces.one (by decide)).append ((((Pieces.one short.1).append (.one (by decide))).append
      (pieces_word short.2)).append (.one (by decide)))).fits (by decide)
  unfold Failure.ofSystem Failure.ofFault
  split
  · exact (Pieces.one (by decide)).fits (by decide)
  · exact (Pieces.one (by decide)).fits (by decide)
  · exact told

/-! ## A directory of files -/

namespace Directory

open SystemError Device

variable {d d' : Directory} {e : SystemError} {failure : Failure}

theorem short_of_lookUp {folder : Nat} {name : String} (failed : d.lookUp folder name = .error e) :
    e.Short := by
  unfold lookUp at failed
  dsimp only at failed
  split at failed
  · cases failed
    decide
  · split at failed <;> cases failed

theorem short_of_walk {names : List String} {here : Nat} (failed : d.walk here names = .error e) :
    e.Short := by
  induction names generalizing here with
  | nil => cases failed
  | cons name rest ih =>
    unfold walk at failed
    split at failed
    · exact ih failed
    · exact ih failed
    · exact ih failed
    · split at failed
      · exact ih failed
      · cases failed
        decide
      · cases failed
        decide
      · rename_i refused
        cases failed
        exact short_of_lookUp refused

theorem short_of_approach {route : Route} (failed : d.approach route = .error e) : e.Short := by
  unfold approach at failed
  split at failed
  · cases failed
  · split at failed
    · cases failed
    · rename_i refused
      cases failed
      exact short_of_walk refused

theorem fits_of_find {text : String} (failed : d.find text = .error failure) : failure.Fits := by
  unfold find at failed
  split at failed
  · cases failed
    exact ((Pieces.one (by decide)).append (.one (by decide))).fits (by decide)
  · split at failed
    · cases failed
      exact (Pieces.one (by decide)).fits (by decide)
    · split at failed
      · cases failed
        exact Short.fits (by decide)
      · cases approached : d.approach (.ofText text) with
        | ok found =>
          rw [approached] at failed
          cases failed
        | error e =>
          rw [approached] at failed
          cases failed
          exact (short_of_approach approached).fits

theorem short_of_reach {approach : Approach} (failed : d.reach approach = .error e) : e.Short := by
  unfold reach at failed
  split at failed
  · cases failed
  · cases failed
  · cases failed
  · split at failed
    · split at failed
      · cases failed
        decide
      · cases failed
    · exact short_of_lookUp failed

theorem fits_of_resolve {text : String} (failed : d.resolve text = .error failure) :
    failure.Fits := by
  unfold resolve at failed
  split at failed
  · rename_i approach _
    cases reached : d.reach approach with
    | ok found =>
      rw [reached] at failed
      cases failed
    | error e =>
      rw [reached] at failed
      cases failed
      exact (short_of_reach reached).fits
  · rename_i refused
    cases failed
    exact fits_of_find refused

theorem failsShort_openRecord (name : String) (access : Access) :
    FailsShort (openRecord name access) := by
  intro d failure d' run
  unfold Runs openRecord at run
  split at run
  · rename_i refused
    cases run
    exact fits_of_find refused
  · split at run
    · cases run
      exact Short.fits (by decide)
    · split at run
      · rename_i refused
        cases run
        exact (short_of_reach refused).fits
      · split at run
        · cases run
          exact Short.fits (by decide)
        · cases run
      · split at run
        · cases run
          exact (Pieces.one (by decide)).fits (by decide)
        · cases run
      · split at run
        · cases run
        · cases run
          exact Short.fits (by decide)

theorem failsShort_read (count : Nat) : FailsShort (Directory.read count) := by
  rintro ⟨d, handle⟩ failure after run
  unfold Runs Directory.read at run
  dsimp only at run
  split at run
  · cases run
    exact Short.fits (by decide)
  · split at run
    · cases run
      exact Short.fits (by decide)
    · cases run

theorem failsShort_seek (pos : Nat) : FailsShort (Directory.seek pos) := by
  rintro ⟨d, handle⟩ failure after run
  unfold Runs Directory.seek at run
  dsimp only at run
  split at run
  · cases run
    exact Short.fits (by decide)
  · cases run

theorem failsShort_write (bytes : Bytes) : FailsShort (Directory.write bytes) := by
  rintro ⟨d, handle⟩ failure after run
  unfold Runs Directory.write at run
  dsimp only at run
  split at run
  · cases run
  · split at run
    · split at run
      · cases run
        exact Short.fits (by decide)
      · cases run
    · cases run
      exact Short.fits (by decide)

theorem failsShort_delete (name : String) : FailsShort (Directory.delete name) := by
  intro d failure d' run
  unfold Runs Directory.delete at run
  split at run
  · rename_i refused
    cases run
    exact fits_of_find refused
  · split at run
    · split at run
      · rename_i refused
        cases run
        exact (short_of_lookUp refused).fits
      · cases run
        exact Short.fits (by decide)
      · split at run
        · cases run
          exact Short.fits (by decide)
        · cases run
      · cases run
        exact Short.fits (by decide)
    · cases run
      exact Short.fits (by decide)

theorem failsShort_list : FailsShort Directory.list := by
  intro d failure d' run
  unfold Runs Directory.list at run
  split at run
  · cases run
  · cases run
    exact Short.fits (by decide)
  · cases run
    exact Short.fits (by decide)
  · rename_i refused
    cases run
    exact fits_of_resolve refused

/-- A read ends at a position that a cursor can have. -/
theorem position_of_read {count : Nat} {handle handle' : Handle} {bytes : Bytes}
    (run : Runs (Directory.read count) (d, handle) (.ok bytes) (d', handle')) :
    handle.pos + bytes.length = handle'.pos ∧ handle'.pos ≤ maxPosition := by
  unfold Runs Directory.read at run
  dsimp only at run
  split at run
  · cases run
  · rename_i within
    split at run
    · cases run
    · cases run
      rename_i ref _
      have short : ((d.files.read ref).slice handle.pos count).length ≤ count := by
        rw [Contents.slice_eq, Bytes.length_slice]
        exact Nat.min_le_left _ _
      exact ⟨rfl, by dsimp only; omega⟩

/-- So however much there is, no more is read than there are positions. -/
theorem length_readChunks_le {reads : Nat} {chunks : List Bytes} {handle handle' : Handle}
    {bytes : Bytes} (start : handle.pos ≤ maxPosition)
    (run : Runs (readChunks reads chunks) (d, handle) (.ok bytes) (d', handle')) :
    bytes.length + handle.pos ≤ chunks.flatten.length + maxPosition := by
  have turned (chunks : List Bytes) : chunks.reverse.flatten.length = chunks.flatten.length := by
    simp [List.length_flatten]
  induction reads generalizing chunks d handle with
  | zero =>
    obtain ⟨same, -⟩ := run.deterministic (.pure _ _)
    cases same
    rw [turned]
    exact Nat.add_le_add_left start _
  | succ reads ih =>
    obtain ⟨chunk, ⟨d₁, handle₁⟩, read, rest⟩ := run.bind_ok
    obtain ⟨moved, within⟩ := position_of_read read
    split at rest
    · obtain ⟨same, -⟩ := rest.deterministic (.pure _ _)
      cases same
      rw [turned]
      exact Nat.add_le_add_left start _
    · have := ih within rest
      simp only [List.flatten_cons, List.length_append] at this
      omega

theorem length_le_of_takeAll {handle : Handle} {bytes : Bytes}
    (run : Runs (takeAll handle : Action Directory Bytes) d (.ok bytes) d') :
    bytes.length ≤ maxPosition := by
  obtain ⟨result, read⟩ := exists_runs (readToEnd : Action (Directory × Handle) Bytes) (d, handle)
  cases result with
  | error e => cases (run.deterministic (runs_takeAll_of_unread read)).1
  | ok bytes' =>
    obtain ⟨same, -⟩ := run.deterministic (runs_takeAll read (.pure () _))
    obtain rfl := Except.ok.inj same
    have chunks : Runs (readChunks (size d handle + 1) []) (d, handle) (.ok bytes) _ := read
    by_cases start : handle.pos ≤ maxPosition
    · have := length_readChunks_le start chunks
      simp only [List.flatten_nil, List.length_nil] at this
      omega
    · -- behind the greatest position even the first read is refused
      obtain ⟨chunk, ⟨d₁, handle₁⟩, first, -⟩ := chunks.bind_ok
      have := position_of_read first
      omega

/-- A directory of files fails shortly, whatever files and folders there are. -/
theorem terse : Terse Directory where
  opening := failsShort_openRecord
  reading := failsShort_read
  seeking := failsShort_seek
  writing := failsShort_write
  closing _ s e s' run := nomatch (run.deterministic (.pure () s)).1
  deleting := failsShort_delete
  listing := failsShort_list
  addressed handle d bytes d' run := by
    have positions : maxPosition < 2 ^ 64 := by decide
    exact Nat.lt_of_le_of_lt (length_le_of_takeAll run) positions

end Directory

end GlyphShelf
