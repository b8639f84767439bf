import FilterChain.Main
import FilterChain.Service.Server
import FilterChain.Proofs.Run.Calls
import FilterChain.Proofs.Run.Entries
import FilterChain.Proofs.Run.Unknown
import FilterChain.Proofs.Step.Printing
import FilterChain.Proofs.Service.Applying
import FilterChain.Proofs.Operation.Binding
import FilterChain.Proofs.Registry.Reaching
import FilterChain.Proofs.Number.Literal
import FilterChain.Proofs.Filters.Scalars
import FilterChain.Proofs.Document.Numbers
import FilterChain.Proofs.Filters.Faults
import FilterChain.Proofs.Registry.Ordering
import FilterChain.Proofs.Run.Extension
import FilterChain.Proofs.Run.Alias
import FilterChain.Proofs.Filters.Keys
import FilterChain.Proofs.Log.Channel
import FilterChain.Proofs.Document.Written
import FilterChain.Proofs.Service.EventStream
import FilterChain.Proofs.CommandLine.Applying
import FilterChain.Proofs.Filters.Families
import FilterChain.Proofs.Filters.Blanks
import FilterChain.Proofs.Filters.Independence
import FilterChain.Proofs.Document.Values
import FilterChain.Proofs.Wire.Slots
import FilterChain.Proofs.Wire.Forms
import FilterChain.Proofs.Filters.Scaling
import FilterChain.Proofs.Calendar.Percent
import FilterChain.Proofs.Calendar.Spelling
import FilterChain.Proofs.Calendar.Days
import FilterChain.Proofs.Calendar.Readings
import FilterChain.Proofs.Calendar.Moments
import FilterChain.Proofs.Calendar.Trimmed
import FilterChain.Proofs.Calendar.RoundTrip
import FilterChain.Proofs.Number.Nearest
import FilterChain.Proofs.Number.Conversion
import FilterChain.Proofs.Number.Shortest
import FilterChain.Proofs.Filters.Notation
import FilterChain.Proofs.Filters.Masking
import FilterChain.Proofs.Filters.Money
import FilterChain.Proofs.Filters.Normalising
import FilterChain.Proofs.Text.Pattern
import FilterChain.Proofs.Text.Address
import FilterChain.Proofs.Filters.Addresses
import FilterChain.Proofs.Run.Warnings
import FilterChain.Proofs.Filters.Spacing
import FilterChain.Proofs.Filters.Sanitising
import FilterChain.Proofs.Filters.Limits
import FilterChain.Proofs.Settings.Sources
