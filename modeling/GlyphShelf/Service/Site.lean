import GlyphShelf.Device.Directory
import GlyphShelf.Shelf

/-!
# Sites

Where a service keeps its glyphs: a folder and the shelf on it.
-/

namespace GlyphShelf

/-- Opens a shelf on the folder at a path. The folder is made if it is missing, also when the
settings are refused afterwards. -/
def Directory.openShelf (path : String) (settings : Settings) : Action Directory Shelf := do
  Directory.openAt path
  Shelf.openOn settings

end GlyphShelf
