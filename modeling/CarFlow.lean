import CarFlow.Admin.Audit
import CarFlow.Admin.AuditLog
import CarFlow.Admin.KillSwitch
import CarFlow.Auth.RefreshTokens
import CarFlow.Booking.Constraints
import CarFlow.Booking.ListRoutes
import CarFlow.Booking.OutboxImage
import CarFlow.Booking.Reservations
import CarFlow.Booking.Serializability
import CarFlow.Listing.Availability
import CarFlow.Listing.Decisions
import CarFlow.Listing.Serial
import CarFlow.Notification.Parties
import CarFlow.Payment.Crashes
import CarFlow.Payment.Interleavings
import CarFlow.Payment.Ledger
import CarFlow.Payment.LostResponses
import CarFlow.Platform.Privacy
import CarFlow.Platform.Records
import CarFlow.Platform.Searches
import CarFlow.Saga.Amounts
import CarFlow.Saga.Compensation
import CarFlow.Saga.Completion
import CarFlow.Saga.Overage
import CarFlow.Saga.RentalPrice
import CarFlow.Saga.Settling
import CarFlow.Search.Cache
import CarFlow.Search.Consumer
import CarFlow.Search.Convergence
import CarFlow.Search.LiveEvents
import CarFlow.Search.Redelivery
import CarFlow.Shared.ExactlyOnce
import CarFlow.Shared.Health
import CarFlow.Shared.Idempotency
import CarFlow.Shared.KeyConflicts
import CarFlow.Shared.KeyExpiry
import CarFlow.Shared.KeyReuse
import CarFlow.Shared.Paging
import CarFlow.Shared.Retries
import CarFlow.Telemetry.Ingest
