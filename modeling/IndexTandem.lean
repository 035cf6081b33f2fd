import IndexTandem.Agreement.AgreementQuery
import IndexTandem.Agreement.Bound
import IndexTandem.Agreement.Envelope
import IndexTandem.Api.Accumulator
import IndexTandem.Api.AddressCodec
import IndexTandem.Api.AddressLookup
import IndexTandem.Api.BlockEvents
import IndexTandem.Api.BlockEventsCursor
import IndexTandem.Api.BlockFeed
import IndexTandem.Api.CarrierAddress
import IndexTandem.Api.Catalog
import IndexTandem.Api.CatalogAdmission
import IndexTandem.Api.CatalogCursor
import IndexTandem.Api.CatalogProgress
import IndexTandem.Api.CatalogSessions
import IndexTandem.Api.Checksum
import IndexTandem.Api.ObjectLookup
import IndexTandem.Api.Regrouping
import IndexTandem.Api.TypingErrors
import IndexTandem.Config.Configuration
import IndexTandem.Database.CarrierProgram
import IndexTandem.Database.Schema
import IndexTandem.Indexer.Activation
import IndexTandem.Indexer.Ancestor
import IndexTandem.Indexer.Asserted
import IndexTandem.Indexer.BlockReducer
import IndexTandem.Indexer.CarrierScripts
import IndexTandem.Indexer.Carriers
import IndexTandem.Indexer.Chronicle
import IndexTandem.Indexer.Counters
import IndexTandem.Indexer.Der
import IndexTandem.Indexer.Digest
import IndexTandem.Indexer.Effects
import IndexTandem.Indexer.Emission
import IndexTandem.Indexer.Evidence
import IndexTandem.Indexer.Growth
import IndexTandem.Indexer.History
import IndexTandem.Indexer.InitWindow
import IndexTandem.Indexer.Keys
import IndexTandem.Indexer.Lives
import IndexTandem.Indexer.Mirror
import IndexTandem.Indexer.Naive
import IndexTandem.Indexer.ObjectRows
import IndexTandem.Indexer.OutpointText
import IndexTandem.Indexer.Reachable
import IndexTandem.Indexer.Refinement
import IndexTandem.Indexer.Replay
import IndexTandem.Indexer.Rollback
import IndexTandem.Indexer.Sameness
import IndexTandem.Indexer.Scan
import IndexTandem.Indexer.Statements
import IndexTandem.Indexer.Steps
import IndexTandem.Indexer.Store
import IndexTandem.Indexer.SyncReads
import IndexTandem.Indexer.SyncRuns
import IndexTandem.Indexer.SyncService
import IndexTandem.Indexer.Tracking
import IndexTandem.Indexer.Writing
import IndexTandem.Library.Base64Url
import IndexTandem.Library.BigEndian
import IndexTandem.Library.Bits
import IndexTandem.Library.Cleanup
import IndexTandem.Library.Codes
import IndexTandem.Library.Except
import IndexTandem.Library.Fields
import IndexTandem.Library.Interact
import IndexTandem.Library.JsMap
import IndexTandem.Library.Keyed
import IndexTandem.Library.Keyset
import IndexTandem.Library.Lists
import IndexTandem.Library.Succession
import IndexTandem.Library.Table
import IndexTandem.Library.Timeline
import IndexTandem.Library.Words
import IndexTandem.Observability.Readiness
import IndexTandem.Protocol.Bitcoin
import IndexTandem.Protocol.Bytes
import IndexTandem.Protocol.Marker
import IndexTandem.Protocol.ProtocolService
import IndexTandem.Protocol.Roots
import IndexTandem.Protocol.StateEngine
import IndexTandem.Protocol.Validator
import IndexTandem.Site.AgreementInspector
import IndexTandem.Site.ObjectJourney
import IndexTandem.Tools.ValidateInit
import IndexTandem.Verification.EnvelopeWire
import IndexTandem.Verification.Gateway
import IndexTandem.Verification.Interleaving
import IndexTandem.Verification.JsonText
import IndexTandem.Verification.VerifiedAgreement
