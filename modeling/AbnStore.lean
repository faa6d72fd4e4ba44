import AbnStore.Basic
import AbnStore.Key
import AbnStore.Versions
import AbnStore.World
import AbnStore.Frame
import AbnStore.Locks
import AbnStore.Goroutines
import AbnStore.Batching
import AbnStore.Secrets
import AbnStore.Persistence
import AbnStore.Interleavings
import AbnStore.Sessions
import AbnStore.Cache
