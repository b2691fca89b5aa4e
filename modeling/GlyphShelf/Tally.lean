import GlyphShelf.Decimal.Ratio

/-!
# Tallies

What a shelf counts: reads that found a glyph and reads that did not, keys dropped to keep
within the capacity, keys stored anew, and keys stored again. A tally is reported as a
JSON object, its members in the order of the fields or sorted by name. Counters are words of 64
bits, so a report shows of every count what such a word holds.
-/

namespace GlyphShelf

/-- Counts of what a shelf did. -/
structure Tally where
  hits : Nat := 0
  misses : Nat := 0
  evictions : Nat := 0
  inserts : Nat := 0
  updates : Nat := 0
deriving DecidableEq

namespace Tally

inductive Event
  /-- A read that found its glyph. -/
  | hit
  /-- A read of an absent glyph. -/
  | miss
  /-- A key dropped to keep within the capacity. -/
  | eviction
  /-- A new key stored. -/
  | insert
  /-- A present key stored again. -/
  | update
deriving DecidableEq

def add (tally : Tally) (event : Event) (times : Nat) : Tally :=
  match event with
  | .hit => { tally with hits := tally.hits + times }
  | .miss => { tally with misses := tally.misses + times }
  | .eviction => { tally with evictions := tally.evictions + times }
  | .insert => { tally with inserts := tally.inserts + times }
  | .update => { tally with updates := tally.updates + times }

def record (tally : Tally) (event : Event) : Tally := tally.add event 1

/-- What a counter of 64 bits shows of a count. -/
def shown (count : Nat) : Nat := count.toUInt64.toNat

/-- The share of reads that found their glyph, zero before the first read. -/
def hitRatio (tally : Tally) : Ratio :=
  Ratio.ofCounts (shown tally.hits) (shown tally.hits + shown tally.misses)

def member (name value : String) : String := "\"" ++ name ++ "\":" ++ value

def counter (name : String) (count : Nat) : String := member name (toString (shown count))

def object (members : List String) : String :=
  "\x7b" ++ ",".intercalate members ++ "\x7d"

/-- The report in the order of the fields. -/
def json (tally : Tally) : String :=
  object [
    counter "hits" tally.hits,
    counter "misses" tally.misses,
    counter "evictions" tally.evictions,
    counter "inserts" tally.inserts,
    counter "updates" tally.updates,
    member "hit_ratio" tally.hitRatio.text]

/-- The report of a shelf with its tally, members sorted by name. -/
def shelfJson (tally : Tally) (size capacity : Nat) : String :=
  object [
    counter "capacity" capacity,
    counter "size" size,
    member "stats" (object [
      counter "evictions" tally.evictions,
      member "hit_ratio" tally.hitRatio.text,
      counter "hits" tally.hits,
      counter "inserts" tally.inserts,
      counter "misses" tally.misses,
      counter "updates" tally.updates])]

end Tally

end GlyphShelf
