import BufferFabric.Lending
import BufferFabric.Queues
import BufferFabric.Partition
import BufferFabric.Restarts
import BufferFabric.Evidence
import BufferFabric.Contract
import BufferFabric.Retries
import BufferFabric.Validity
import BufferFabric.Verification
import BufferFabric.Alarms
import BufferFabric.Decoding
import BufferFabric.Images
import BufferFabric.Sessions
import BufferFabric.Files
import BufferFabric.Appends
import BufferFabric.Compaction
import BufferFabric.QueueRecovery
import BufferFabric.Ticks
import BufferFabric.Discipline
import BufferFabric.Staleness
import BufferFabric.Agreement
import BufferFabric.Cycles
import BufferFabric.Clients
import BufferFabric.Remote
import BufferFabric.Prediction
import BufferFabric.Grants
import BufferFabric.SoftLimit
import BufferFabric.Reservations
import BufferFabric.Draining
import BufferFabric.Revoking
import BufferFabric.Resizing
import BufferFabric.Restoring
import BufferFabric.Codecs
import BufferFabric.Wire
import BufferFabric.Messages
import BufferFabric.Hierarchy
import BufferFabric.Pressure
import BufferFabric.Containers
import BufferFabric.Lineages
import BufferFabric.Replies
import BufferFabric.Closing
import BufferFabric.Sweeping
import BufferFabric.Hashes
import BufferFabric.Observation
import BufferFabric.Authority
import BufferFabric.JsonWriter
import BufferFabric.Failures
import BufferFabric.Commitments
import BufferFabric.Crashes
import BufferFabric.Workers
import BufferFabric.Conversations
import BufferFabric.Statuses
import BufferFabric.Tenancies
import BufferFabric.Connections
import BufferFabric.Departures
import BufferFabric.Entries
import BufferFabric.Reading
import BufferFabric.Legibility
import BufferFabric.Resources
import BufferFabric.Holdings
import BufferFabric.Balance
import BufferFabric.Carried
