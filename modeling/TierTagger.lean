import TierTagger.Directory.Inventory
import TierTagger.Main
import TierTagger.Session.Pool
import TierTagger.Wire
import TierTagger.Proofs.Session.Alone
import TierTagger.Proofs.Session.Pool
import TierTagger.Proofs.Session.Protocol
import TierTagger.Proofs.Session.Requests
import TierTagger.Proofs.Session.Ledger
import TierTagger.Proofs.Session.Single
import TierTagger.Proofs.Session.Serial
import TierTagger.Proofs.Session.Departure
import TierTagger.Proofs.Session.Shutdown
import TierTagger.Proofs.Tagging.Pipeline
import TierTagger.Proofs.Tagging.Calls
import TierTagger.Proofs.Tagging.Replies
import TierTagger.Proofs.Inventory.Tally
import TierTagger.Proofs.Inventory.Replay
import TierTagger.Proofs.Inventory.Effect
import TierTagger.Proofs.Inventory.Content
import TierTagger.Proofs.Inventory.Stage
import TierTagger.Proofs.Inventory.Forecast
import TierTagger.Proofs.Inventory.Concurrent
import TierTagger.Proofs.VCenter.Transcript
import TierTagger.Proofs.VCenter.Logins
import TierTagger.Proofs.VCenter.Operations
import TierTagger.Proofs.VCenter.Accounts
import TierTagger.Proofs.Text.Utf8
import TierTagger.Proofs.Text.Lossy
import TierTagger.Proofs.Json.Text
import TierTagger.Proofs.Json.Spelling
import TierTagger.Proofs.Text.Numeral
import TierTagger.Proofs.Json.Number
import TierTagger.Proofs.Alarm.Event
import TierTagger.Proofs.Url.Percent
import TierTagger.Proofs.Url.Address
import TierTagger.Proofs.Url.Length
import TierTagger.Proofs.VCenter.Bodies
import TierTagger.Proofs.VCenter.Words
import TierTagger.Proofs.VCenter.Server
import TierTagger.Proofs.VCenter.Replies
import TierTagger.Proofs.VCenter.Service
import TierTagger.Proofs.VCenter.Agreement
import TierTagger.Proofs.Url.Segments
import TierTagger.Proofs.VCenter.Containment
import TierTagger.Proofs.Json.Grammar
import TierTagger.Proofs.Json.Lexemes
import TierTagger.Proofs.Json.Skipping
import TierTagger.Proofs.Json.Extent
import TierTagger.Proofs.Json.Escapes
import TierTagger.Proofs.Json.Content
import TierTagger.Proofs.Json.Corruption
import TierTagger.Proofs.Alarm.Document
import TierTagger.Proofs.Alarm.Corruption
import TierTagger.Proofs.VCenter.Secrecy
import TierTagger.Proofs.Tagging.Parameters
import TierTagger.Proofs.VCenter.Confinement
import TierTagger.Proofs.Trigger.Chunks
import TierTagger.Proofs.Trigger.Answers
import TierTagger.Proofs.Toml.Reading
import TierTagger.Proofs.Toml.Grammar
import TierTagger.Proofs.Toml.Lexemes
import TierTagger.Proofs.Toml.Scalars
import TierTagger.Proofs.Toml.Document
import TierTagger.Proofs.Toml.Tables
import TierTagger.Proofs.Configuration.Written
import TierTagger.Proofs.VCenter.Listing
import TierTagger.Proofs.Url.Authority
import TierTagger.Proofs.Url.Behind
import TierTagger.Proofs.Url.Paths
import TierTagger.Proofs.VCenter.Roots
import TierTagger.Proofs.Binary64.Rounding
import TierTagger.Proofs.Binary64.Logarithm
import TierTagger.Proofs.Tier.Steps
import TierTagger.Proofs.Tier.Hardware
import TierTagger.Proofs.Tier.Memory
import TierTagger.Proofs.Json.Strings
import TierTagger.Proofs.Json.Naturals
import TierTagger.Proofs.Json.Meaning
import TierTagger.Proofs.Json.Forms
import TierTagger.Proofs.Json.Parts
import TierTagger.Proofs.Json.Entries
import TierTagger.Proofs.Alarm.Shape
import TierTagger.Proofs.Wire
import TierTagger.Proofs.VCenter.Hardware
