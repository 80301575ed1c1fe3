import NfsMount.Proofs.Bitmap
import NfsMount.Proofs.Caches
import NfsMount.Proofs.Coalescing
import NfsMount.Proofs.Connection
import NfsMount.Proofs.Conversation
import NfsMount.Proofs.Counts
import NfsMount.Proofs.CreateSession
import NfsMount.Proofs.Credentials
import NfsMount.Proofs.DeriveExact
import NfsMount.Proofs.FetchPlan
import NfsMount.Proofs.Handle
import NfsMount.Proofs.Keepalive
import NfsMount.Proofs.MountOverTcp
import NfsMount.Proofs.Operations
import NfsMount.Proofs.Outage
import NfsMount.Proofs.Path
import NfsMount.Proofs.Pipeline
import NfsMount.Proofs.ReadAhead
import NfsMount.Proofs.RefreshLoop
import NfsMount.Proofs.Rejected
import NfsMount.Proofs.Reply
import NfsMount.Proofs.ResolveReply
import NfsMount.Proofs.Segmentation
import NfsMount.Proofs.Sequencing
import NfsMount.Proofs.Sequential
import NfsMount.Proofs.Sessions
import NfsMount.Proofs.Sharing
import NfsMount.Proofs.SlotArith
import NfsMount.Proofs.Slots
import NfsMount.Proofs.WriteBuf
import NfsMount.Proofs.WriteRecord
import NfsMount.Proofs.WriteSize
