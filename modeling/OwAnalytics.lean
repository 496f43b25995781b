import OwAnalytics.Lib.Binary64
import OwAnalytics.Lib.Readers
import OwAnalytics.Lib.Saturating
import OwAnalytics.Lib.TimeSeries
import OwAnalytics.Lib.Grouping
import OwAnalytics.Lib.SortedMerge
import OwAnalytics.Lib.Transitions
import OwAnalytics.Mcp.Bandwidth.OrderIndependence
import OwAnalytics.Mcp.Bandwidth.AdjacentWindows
import OwAnalytics.Mcp.Bandwidth.DirectionIndependence
import OwAnalytics.Mcp.Bandwidth.Boundary
import OwAnalytics.Venue.Coordinator
import OwAnalytics.Venue.Routing
import OwAnalytics.Lib.Mutexes
import OwAnalytics.Venue.Locking
import OwAnalytics.Venue.Deadlock
import OwAnalytics.Venue.DeadlockReached
import OwAnalytics.Venue.Shutdown
import OwAnalytics.Venue.BoardRequests
import OwAnalytics.Venue.DeletedBoards
import OwAnalytics.Venue.ZombieBoards
import OwAnalytics.Venue.Watching
import OwAnalytics.Venue.Provisioning
import OwAnalytics.Venue.VanishedVenue
import OwAnalytics.Venue.SerialIsolation
import OwAnalytics.Document
import OwAnalytics.Storage.Boards
import OwAnalytics.Boards.Handler
import OwAnalytics.Boards.Identity
import OwAnalytics.Boards.OneBoard
import OwAnalytics.Ap.Cache
import OwAnalytics.Ap.Json
import OwAnalytics.Ap.Objects
import OwAnalytics.Boards.LostUpdate
import OwAnalytics.Ap.Parse
import OwAnalytics.Ap.Point
import OwAnalytics.Ap.Update
import OwAnalytics.Ap.Disconnection
import OwAnalytics.Ap.Gating
import OwAnalytics.Ap.FailedParse
import OwAnalytics.Ap.Apart
import OwAnalytics.Ap.Isolation
import OwAnalytics.Ap.Refinement
import OwAnalytics.Lib.InsertIfAbsent
import OwAnalytics.Storage.AvailabilityEvents
import OwAnalytics.Ap.Availability
import OwAnalytics.Ap.Redelivery
import OwAnalytics.Storage.Cleanup
import OwAnalytics.Storage.InsertRace
import OwAnalytics.Storage.RetentionWindows
import OwAnalytics.Lib.Calendar
import OwAnalytics.Mcp.Calendar
import OwAnalytics.Mcp.Admission
import OwAnalytics.Ap.DeviceIdentity
import OwAnalytics.Lib.Arrangement
import OwAnalytics.Boards.TimePointDeletion
import OwAnalytics.Boards.TimeSlots
import OwAnalytics.Boards.SlotSeparation
import OwAnalytics.Lib.Hull
import OwAnalytics.Mcp.Bandwidth.ObservedWindow
import OwAnalytics.Mcp.Bandwidth.ClientList
import OwAnalytics.Mcp.Bandwidth.Presence
import OwAnalytics.Auth.Client
import OwAnalytics.Auth.ApiKeys
import OwAnalytics.Auth.Revocation
import OwAnalytics.Ap.CacheLookup
import OwAnalytics.Ap.CacheRefresh
import OwAnalytics.Rest.Parameters
import OwAnalytics.Storage.OrderBy
import OwAnalytics.Clients.HistoryHandler
import OwAnalytics.Clients.HistoryOrder
import OwAnalytics.Clients.HistoryClauses
import OwAnalytics.Clients.HistoryDeletion
import OwAnalytics.Clients.HistoryInjection
import OwAnalytics.Lib.Expiry
import OwAnalytics.Services.Registry
import OwAnalytics.Services.RegistryHistory
import OwAnalytics.Storage.JsonFields
import OwAnalytics.Ap.Counters
import OwAnalytics.Ap.AssociationDeltas
import OwAnalytics.Ap.DeviceDeltas
import OwAnalytics.Ap.Telescoping
import OwAnalytics.Ap.RadioReferences
import OwAnalytics.Lib.Rounding
import OwAnalytics.Mcp.MacGrammar
import OwAnalytics.Mcp.Rssi.Summary
import OwAnalytics.Mcp.Rssi.Samples
import OwAnalytics.Mcp.Rssi.Quality
import OwAnalytics.Mcp.Respelling
import OwAnalytics.Lib.Running
import OwAnalytics.Mcp.Temperature.Summary
import OwAnalytics.Mcp.Temperature.Bands
import OwAnalytics.Mcp.Temperature.Response
import OwAnalytics.Lib.RoundedMean
import OwAnalytics.Mcp.Memory.Samples
import OwAnalytics.Mcp.Memory.Mean
import OwAnalytics.Lib.CalendarOrder
import OwAnalytics.Mcp.Memory.Response
import OwAnalytics.Mcp.TimestampCodec
import OwAnalytics.Storage.JsonReading
import OwAnalytics.Storage.TimePointJson
import OwAnalytics.Storage.TimePointRoundTrip
import OwAnalytics.Storage.JsonText
import OwAnalytics.Lib.PairedIndex
import OwAnalytics.Ap.CacheIndex
import OwAnalytics.Ap.CacheExceptions
import OwAnalytics.Storage.RssiParser
import OwAnalytics.Storage.RecordsBySerial
import OwAnalytics.Storage.CorruptRow
import OwAnalytics.Lib.DistinctOn
import OwAnalytics.Storage.BoardSelection
import OwAnalytics.Storage.LatestPerDevice
import OwAnalytics.Lib.Paging
import OwAnalytics.Storage.BoardStats
import OwAnalytics.Boards.SlotStatistics
import OwAnalytics.Ap.SSIDAggregates
import OwAnalytics.Ap.AssociationCounts
import OwAnalytics.Storage.DecimalCounters
import OwAnalytics.Storage.Iterate
import OwAnalytics.Lib.SqlTests
import OwAnalytics.Storage.WhereClauses
import OwAnalytics.Ap.FilterText
import OwAnalytics.Rest.QueryBlock
import OwAnalytics.Rest.Bindings
import OwAnalytics.Ap.SearchTexts
import OwAnalytics.Ap.PrefixQueries
import OwAnalytics.Ap.QueryPages
import OwAnalytics.Ap.NarrowerFilters
import OwAnalytics.Bus.Producer
import OwAnalytics.Bus.Consumer
import OwAnalytics.Bus.Ingestion
import OwAnalytics.Lib.Heartbeat
import OwAnalytics.Services.Announcements
import OwAnalytics.Services.Membership
import OwAnalytics.Mcp.Endpoints
import OwAnalytics.Auth.Provenance
import OwAnalytics.Lib.History
import OwAnalytics.Rest.Gate
import OwAnalytics.Boards.Codec
import OwAnalytics.Boards.Store
import OwAnalytics.Boards.StoreSteps
import OwAnalytics.Boards.ReadModifyWrite
import OwAnalytics.Services.InternalCalls
import OwAnalytics.Mcp.Telemetry
