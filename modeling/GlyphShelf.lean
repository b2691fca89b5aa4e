import GlyphShelf.Action
import GlyphShelf.Breach
import GlyphShelf.Bytes
import GlyphShelf.Contents
import GlyphShelf.Decimal.Ratio
import GlyphShelf.Decimal.Shortest
import GlyphShelf.Device
import GlyphShelf.Device.Cabinet
import GlyphShelf.Device.Directory
import GlyphShelf.Device.Listing
import GlyphShelf.Device.Memory
import GlyphShelf.Device.Path
import GlyphShelf.Failure
import GlyphShelf.Key
import GlyphShelf.Link
import GlyphShelf.Main
import GlyphShelf.Numeral
import GlyphShelf.Options
import GlyphShelf.Payloads
import GlyphShelf.RecordName
import GlyphShelf.Ring
import GlyphShelf.Service.Answer
import GlyphShelf.Service.Connection
import GlyphShelf.Service.Host
import GlyphShelf.Service.RequestQueue
import GlyphShelf.Service.Site
import GlyphShelf.Shelf
import GlyphShelf.SystemError
import GlyphShelf.Tally
import GlyphShelf.Wire.Frame
import GlyphShelf.Wire.Intake
import GlyphShelf.Wire.Text
import GlyphShelf.Proofs.Frames
import GlyphShelf.Proofs.Memory.Frames
import GlyphShelf.Proofs.Memory.Limits
import GlyphShelf.Proofs.Memory.Operations
import GlyphShelf.Proofs.Memory.Records
import GlyphShelf.Proofs.Memory.Space
import GlyphShelf.Proofs.Payloads
import GlyphShelf.Proofs.Ring.Frames
import GlyphShelf.Proofs.Ring.Interruption
import GlyphShelf.Proofs.Ring.Links
import GlyphShelf.Proofs.Ring.Operations
import GlyphShelf.Proofs.Ring.Order
import GlyphShelf.Proofs.Ring.Quota
import GlyphShelf.Proofs.Ring.Removals
import GlyphShelf.Proofs.Ring.Rollback
import GlyphShelf.Proofs.Ring.Table
import GlyphShelf.Proofs.Ring.Walk
import GlyphShelf.Proofs.Runs
import GlyphShelf.Proofs.Shelf.Completion
import GlyphShelf.Proofs.Shelf.Entries
import GlyphShelf.Proofs.Shelf.Frames
import GlyphShelf.Proofs.Shelf.Integrity
import GlyphShelf.Proofs.Shelf.Operations
import GlyphShelf.Proofs.Shelf.Reached
import GlyphShelf.Proofs.Shelf.Recovery
import GlyphShelf.Proofs.Shelf.Refinement
import GlyphShelf.Proofs.Shelf.Retention
import GlyphShelf.Proofs.Shelf.Stock
import GlyphShelf.Proofs.Shelf.Wiping
import GlyphShelf.Proofs.Shelf.Inventory
import GlyphShelf.Proofs.Shelf.Stocktaking
import GlyphShelf.Proofs.Shelf.Calls
import GlyphShelf.Proofs.Shelf.FullDevice
import GlyphShelf.Proofs.Shelf.Restart
import GlyphShelf.Proofs.Ring.Ways
import GlyphShelf.Proofs.Ring.Closing
import GlyphShelf.Proofs.Shelf.Examination
import GlyphShelf.Proofs.Shelf.Acceptance
import GlyphShelf.Proofs.Wire.Codec
import GlyphShelf.Proofs.Wire.Segments
import GlyphShelf.Proofs.Service.Connections
import GlyphShelf.Proofs.Reporting
import GlyphShelf.Proofs.Memory.Injection
import GlyphShelf.Proofs.Ring.Reporting
import GlyphShelf.Proofs.Shelf.Reporting
import GlyphShelf.Proofs.Cabinets
import GlyphShelf.Proofs.Ring.Guards
import GlyphShelf.Proofs.Shelf.Guards
import GlyphShelf.Proofs.Archives
import GlyphShelf.Proofs.Memory.Archive
import GlyphShelf.Proofs.Directory.Places
import GlyphShelf.Proofs.Directory.Archive
import GlyphShelf.Proofs.Shelf.OpenPayloads
import GlyphShelf.Proofs.Shelf.Readers
import GlyphShelf.Proofs.Shelf.Readings
import GlyphShelf.Proofs.Shelf.Accounts
import GlyphShelf.Proofs.Agreement
import GlyphShelf.Proofs.Ring.Agreement
import GlyphShelf.Proofs.Shelf.Agreement
import GlyphShelf.Proofs.Wording
import GlyphShelf.Proofs.Service.Terse
import GlyphShelf.Proofs.Service.Turns
import GlyphShelf.Proofs.Service.Peers
import GlyphShelf.Proofs.Mirrors
import GlyphShelf.Proofs.Directory.Folders
import GlyphShelf.Proofs.Memory.Boundless
import GlyphShelf.Proofs.Twins
import GlyphShelf.Proofs.Excuses
import GlyphShelf.Proofs.Couples
import GlyphShelf.Proofs.Benches
import GlyphShelf.Proofs.Doubles
import GlyphShelf.Proofs.Shelf.Desks
import GlyphShelf.Proofs.Shelf.Twins
import GlyphShelf.Proofs.Shelf.Folders
import GlyphShelf.Proofs.Service.Answers
import GlyphShelf.Proofs.Service.Deliveries
import GlyphShelf.Proofs.Memory.Charges
import GlyphShelf.Proofs.Memory.Quotas
import GlyphShelf.Proofs.Memory.Reading
import GlyphShelf.Proofs.Shelf.Costs
import GlyphShelf.Proofs.Absences
import GlyphShelf.Proofs.Shelf.Hits
import GlyphShelf.Proofs.Naming
import GlyphShelf.Proofs.Shelf.Census
import GlyphShelf.Proofs.Ring.Patches
import GlyphShelf.Proofs.Service.Requests
