import KeepPeek.EventForwarder.Publisher
import KeepPeek.EventForwarder.Outbox
import KeepPeek.Notifications.Attempts
import KeepPeek.Storage.Buffered
import KeepPeek.Volumes.Authority
import KeepPeek.Volumes.Placement
import KeepPeek.Retention.Reconciled
import KeepPeek.Access.Withdrawn
import KeepPeek.Access.Guessing
import KeepPeek.MediumTerm.Coverage
import KeepPeek.Playback.Selection
import KeepPeek.Storage.Safety
import KeepPeek.Storage.Nal
import KeepPeek.Retention.Expiry
import KeepPeek.Notifications.Refinement
import KeepPeek.Storage.Conserved
import KeepPeek.OperationalEvents.Monitor
import KeepPeek.PeekLayouts.Validation
