import GlyphShelf.Proofs.Shelf.Refinement
import GlyphShelf.Proofs.Twins

/-!
# A shelf in a folder

What a shelf does on a device in memory, a shelf in a plain folder does as well, because the device
in memory can be chosen as a twin of the directory. Entries are shelved in a folder if
a shelf on a twin keeps them; then each operation answers as the entries say, and none fails.
-/

namespace GlyphShelf.Shelf

open Comparison
open Directory (safeSize)

variable {α β : Type} {folder capacity : Nat} {m m' : Memory} {d : Directory} {shelf shelf' : Shelf}
variable {site : Directory × Shelf} {entries : Entries} {key : Key} {bytes : Bytes}
variable {settings : Settings}

/-- The shelf in a folder has the capacity, and the entries are on it, the most recent first. -/
def Shelved (folder capacity : Nat) (site : Directory × Shelf) (entries : Entries) : Prop :=
  ∃ m, Twins folder m site.1 ∧ Keeps capacity (m, site.2) entries

/-! ## From memory to the folder -/

/-- A run in memory has one beside it in the folder, with a result that matches. -/
theorem exists_run_in_folder {values : α → β → Memory × Shelf → Directory × Shelf → Prop}
    {act : Action (Memory × Shelf) α} {act' : Action (Directory × Shelf) β}
    {result : Except Failure α}
    (agrees : ((Twins.likeness folder).sharing Shelf).Agrees Eq values act act')
    (twins : Twins folder m d) (run : Runs act (m, shelf) result (m', shelf')) :
    ∃ result' d', Runs act' (d, shelf) result' (d', shelf') ∧ Twins folder m' d' ∧
      Matched Eq (fun a b => values a b (m', shelf') (d', shelf')) result result' := by
  obtain ⟨_, result', _, ⟨d', _⟩, ran, run', ⟨twins', same⟩, -, matched⟩ :=
    agrees (m, shelf) (d, shelf) ⟨twins, rfl⟩
  obtain ⟨rfl, rfl⟩ := run.deterministic ran
  obtain rfl : shelf' = _ := same
  exact ⟨result', d', run', twins', matched⟩

/-- Where the values have to be the same, so are the results. -/
theorem runs_in_folder {act : Action (Memory × Shelf) α} {act' : Action (Directory × Shelf) α}
    {result : Except Failure α}
    (agrees : ((Twins.likeness folder).sharing Shelf).Agrees Eq Same act act')
    (twins : Twins folder m d) (run : Runs act (m, shelf) result (m', shelf')) :
    ∃ d', Runs act' (d, shelf) result (d', shelf') ∧ Twins folder m' d' := by
  obtain ⟨_, d', run', twins', matched⟩ := exists_run_in_folder agrees twins run
  obtain rfl := matched.eq
  exact ⟨d', run', twins'⟩

/-! ## Operations in the folder -/

section

variable (shelved : Shelved folder capacity site entries)
include shelved

theorem Shelved.size_eq : site.2.size = entries.length := by
  obtain ⟨m, -, keeps⟩ := shelved
  exact keeps.stocked.size

theorem Shelved.length_le : entries.length ≤ capacity := by
  obtain ⟨m, -, keeps⟩ := shelved
  exact keeps.within

theorem Shelved.nodup : (keysOf entries).Nodup := by
  obtain ⟨m, -, keeps⟩ := shelved
  exact keeps.stocked.nodup

theorem Shelved.glyph (member : key ∈ keysOf entries) : ¬ key.IsAnchor := by
  obtain ⟨m, -, keeps⟩ := shelved
  exact keeps.stocked.glyph member

theorem Shelved.runs_put (glyph : ¬ key.IsAnchor) (small : bytes.length ≤ safeSize) :
    ∃ site', Runs (put key bytes) site (.ok ((toFront key bytes entries).take capacity).length)
        site' ∧ Shelved folder capacity site' ((toFront key bytes entries).take capacity) := by
  obtain ⟨m, twins, keeps⟩ := shelved
  obtain ⟨m', shelf', run, stocked', same⟩ := Shelf.runs_put keeps.stocked glyph bytes
  rw [keeps.sized] at run stocked' same
  obtain ⟨d', run', twins'⟩ :=
    runs_in_folder ((Twins.alike folder).agrees_put key small) twins run
  have within : ((toFront key bytes entries).take capacity).length ≤ capacity := by
    rw [List.length_take]
    exact Nat.min_le_left _ _
  exact ⟨(d', shelf'), run', m', twins', stocked', same, within⟩

/-- An entry that is opened and read to its end has the payload of its key. -/
theorem Shelved.runs_openEntry (found : payloadOf entries key = some bytes) :
    ∃ record d' shelf' d'', Runs (openEntry key) site (.ok record) (d', shelf') ∧
      Runs (Device.takeAll record) d' (.ok bytes) d'' ∧
      Shelved folder capacity (d'', shelf') (toFront key bytes entries) := by
  obtain ⟨m, twins, keeps⟩ := shelved
  obtain ⟨handle, m', opening, -, stocked', attached, start⟩ :=
    Shelf.runs_openEntry keeps.stocked found
  obtain ⟨_, d', opening', twins', matched⟩ :=
    exists_run_in_folder ((Twins.alike folder).agrees_openEntry key) twins opening
  have stored : m'.get? (Payloads.payloadName key) = some bytes := by
    rw [stocked'.stores.payload, payloadOf_toFront, Function.update_self]
  have reading := Memory.runs_takeAll (Memory.allows_of_none stocked'.quiet _) attached start stored
  cases matched with
  | @ok _ record related =>
    obtain ⟨_, _, _, d'', read, read', twins'', -, same⟩ :=
      (Twins.alike folder).agreesFrom_takeAll twins' related
    obtain ⟨rfl, rfl⟩ := reading.deterministic read
    obtain rfl := same.eq
    exact ⟨record, d', _, d'', opening', read', _, twins'',
      keeps_use keeps found rfl (stocked'.spend _)⟩

theorem Shelved.runs_openEntry_of_absent (glyph : ¬ key.IsAnchor)
    (absent : payloadOf entries key = none) :
    ∃ site', Runs (openEntry key) site (.error .notFound) site' ∧
      Shelved folder capacity site' entries := by
  obtain ⟨m, twins, keeps⟩ := shelved
  have run := Shelf.runs_openEntry_of_absent keeps.stocked glyph absent
  obtain ⟨_, d', run', twins', matched⟩ :=
    exists_run_in_folder ((Twins.alike folder).agrees_openEntry key) twins run
  cases matched with
  | error same =>
    obtain rfl : Failure.notFound = _ := same
    exact ⟨_, run', _, twins', keeps_missed keeps _ (keeps.stocked.spend 1)⟩

theorem Shelved.runs_reset :
    ∃ site', Runs reset site (.ok ()) site' ∧ Shelved folder capacity site' [] := by
  obtain ⟨m, twins, keeps⟩ := shelved
  obtain ⟨m', run, stocked'⟩ := Shelf.runs_reset keeps.stocked
  obtain ⟨d', run', twins'⟩ := runs_in_folder (Twins.alike folder).agrees_reset twins run
  exact ⟨_, run', m', twins', stocked', keeps.sized, Nat.zero_le capacity⟩

theorem Shelved.runs_keys : ∃ site', Runs keys site (.ok (keysOf entries)) site' := by
  obtain ⟨m, twins, keeps⟩ := shelved
  obtain ⟨count, run⟩ := Shelf.runs_keys keeps.stocked
  obtain ⟨d', run', -⟩ := runs_in_folder (Twins.alike folder).agrees_keys twins run
  exact ⟨_, run'⟩

end

/-- Opened cold in a folder without files, a shelf starts with no entries. -/
theorem opened_in_folder (plain : d.Plain folder) (sound : d.files.Sound)
    (vacant : ∀ name, d.files.get? ⟨folder, name⟩ = none) (cold : settings.cold = true)
    (positive : 1 ≤ settings.capacity) (most : settings.capacity ≤ maxCapacity) :
    ∃ d₀, Runs (openOn settings) d (.ok { capacity := settings.capacity }) d₀ ∧
      Shelved folder settings.capacity (d₀, { capacity := settings.capacity }) [] := by
  have twins := Twins.of_vacant plain sound vacant .asStored
  obtain ⟨m₀, opening, keeps⟩ :=
    opened_keeps (m := { listing := .asStored }) (fun _ => rfl) rfl rfl cold positive most
  obtain ⟨_, result, _, d₀, run, run', twins₀, -, matched⟩ :=
    (Twins.alike folder).agrees_openOn (fun _ _ => rfl) _ d twins
  obtain ⟨rfl, rfl⟩ := opening.deterministic run
  obtain rfl := matched.eq
  exact ⟨d₀, run', m₀, twins₀, keeps⟩

end GlyphShelf.Shelf
