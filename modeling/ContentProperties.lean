import ContentProperties.Text.Hex
import ContentProperties.Text.Quoted
import ContentProperties.Text.Utf8
import ContentProperties.Name.Segments
import ContentProperties.Name.Percent
import ContentProperties.Name.Iso9075
import ContentProperties.Numeric.Digits
import ContentProperties.Numeric.Decimal
import ContentProperties.Numeric.DecimalText
import ContentProperties.Numeric.FloatFormat
import ContentProperties.Numeric.Shortest
import ContentProperties.Numeric.FloatText
import ContentProperties.Time.Civil
import ContentProperties.Time.Timestamp
import ContentProperties.Time.Iso8601
import ContentProperties.Json.Basic
import ContentProperties.Json.Printer
import ContentProperties.Json.Input
import ContentProperties.Json.Number
import ContentProperties.Json.Strings
import ContentProperties.Json.Reader
import ContentProperties.Binary.Basic
import ContentProperties.Object.Basic
import ContentProperties.Object.Envelope
import ContentProperties.Object.Stream
import ContentProperties.Value.Basic
import ContentProperties.Value.Kind
import ContentProperties.Value.Stored
import ContentProperties.Value.Converter
import ContentProperties.Dict
import ContentProperties.Repository.World
import ContentProperties.Repository.Node
import ContentProperties.Repository.Memory
import ContentProperties.Repository.Faulty
import ContentProperties.Repository.Stub
import ContentProperties.Conversion.Entry
import ContentProperties.Map.Provider
import ContentProperties.Map.OptionsText
import ContentProperties.Map.Cache
import ContentProperties.Map.PropertyMap
import ContentProperties.Map.Typed
import ContentProperties.Map.Writing
import ContentProperties.Proofs.Calls
import ContentProperties.Proofs.Dict
import ContentProperties.Proofs.Numeric.Digits
import ContentProperties.Proofs.Time.Civil
import ContentProperties.Proofs.Time.Iso8601
import ContentProperties.Proofs.Conversion.Calm
import ContentProperties.Proofs.Conversion.Attempts
import ContentProperties.Proofs.Conversion.Fitting
import ContentProperties.Proofs.Conversion.OwnType
import ContentProperties.Proofs.Conversion.Coercion
import ContentProperties.Proofs.Conversion.Quiet
import ContentProperties.Proofs.Conversion.Steady
import ContentProperties.Proofs.Conversion.Items
import ContentProperties.Proofs.Name.Escaping
import ContentProperties.Proofs.Name.Paths
import ContentProperties.Proofs.Name.ItemNames
import ContentProperties.Proofs.Name.Marks
import ContentProperties.Proofs.Name.Encoding
import ContentProperties.Proofs.Name.Words
import ContentProperties.Proofs.Name.IndexedPaths
import ContentProperties.Proofs.Name.StorageNames
import ContentProperties.Proofs.Object.Streams
import ContentProperties.Proofs.Conversion.StoredObjects
import ContentProperties.Proofs.Repository.Contents
import ContentProperties.Proofs.Repository.NodeCalls
import ContentProperties.Proofs.Repository.Upkeep
import ContentProperties.Proofs.Repository.CallLog
import ContentProperties.Proofs.Map.Steps
import ContentProperties.Proofs.Map.Dictionary
import ContentProperties.Proofs.Map.Reading
import ContentProperties.Proofs.Map.TypedReads
import ContentProperties.Proofs.Map.TypedDefaults
import ContentProperties.Proofs.Map.KeyRoundTrip
import ContentProperties.Proofs.Map.Answers
import ContentProperties.Proofs.Map.Lookup
import ContentProperties.Proofs.Map.NodeWrites
import ContentProperties.Proofs.Map.ReadBack
import ContentProperties.Proofs.Map.NormalForms
import ContentProperties.Proofs.Map.Listing
import ContentProperties.Proofs.Map.Mirror
import ContentProperties.Proofs.Map.WriteThrough
import ContentProperties.Proofs.Map.FoundValues
import ContentProperties.Proofs.Map.FreshReads
import ContentProperties.Proofs.Map.FullReads
import ContentProperties.Proofs.Map.TextWrites
import ContentProperties.Proofs.Map.ListedKeys
import ContentProperties.Proofs.Map.StandInTypes
import ContentProperties.Proofs.Map.CacheInvariants
import ContentProperties.Proofs.Map.CacheGrowth
import ContentProperties.Proofs.Map.LoggedReads
import ContentProperties.Proofs.Map.CacheHistory
import ContentProperties.Proofs.Map.Views
import ContentProperties.Proofs.Map.BinaryWrites
import ContentProperties.Proofs.Map.BinaryLengths
import ContentProperties.Proofs.Map.PathReads
import ContentProperties.Proofs.Time.Grammar
import ContentProperties.Proofs.Repository.MixinTypes
import ContentProperties.Proofs.Repository.Reachable
import ContentProperties.Proofs.Map.CachedSlots
import ContentProperties.Proofs.Map.CachedTypes
import ContentProperties.Proofs.Map.Retries
import ContentProperties.Proofs.Conversion.Narrowing
import ContentProperties.Proofs.Conversion.IntegerTexts
import ContentProperties.Proofs.Conversion.BreakOffs
import ContentProperties.Proofs.Map.ConsistentSlots
