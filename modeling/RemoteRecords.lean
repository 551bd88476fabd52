import RemoteRecords.Query.Compose
import RemoteRecords.Session.Run
import RemoteRecords.Settings.Document
import RemoteRecords.Settings.Overrides
import RemoteRecords.Proofs.Json.RoundTrip
import RemoteRecords.Proofs.Query.Compose
import RemoteRecords.Proofs.Query.Injective
import RemoteRecords.Proofs.Query.Meaning
import RemoteRecords.Proofs.Query.Operands
import RemoteRecords.Proofs.Record.FieldValue
import RemoteRecords.Proofs.Session.Delivery
import RemoteRecords.Proofs.Session.Destination
import RemoteRecords.Proofs.Session.History
import RemoteRecords.Proofs.Session.Isolation
import RemoteRecords.Proofs.Session.Lookup
import RemoteRecords.Proofs.Session.Offset
import RemoteRecords.Proofs.Session.Retry
import RemoteRecords.Proofs.Session.Secrecy
import RemoteRecords.Proofs.Session.Walk
import RemoteRecords.Proofs.Settings.Substitution
