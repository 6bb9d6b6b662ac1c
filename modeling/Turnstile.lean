import Turnstile.Configuration.Text
import Turnstile.Gate.Fleet
import Turnstile.Proofs.Circuit.AtOnce
import Turnstile.Proofs.Circuit.History
import Turnstile.Proofs.Circuit.Lifetime
import Turnstile.Proofs.Circuit.Persisted
import Turnstile.Proofs.Configuration.RoundTrip
import Turnstile.Proofs.Env.Durable
import Turnstile.Proofs.Env.Epochs
import Turnstile.Proofs.Gate.Degraded
import Turnstile.Proofs.Gate.Faults
import Turnstile.Proofs.Gate.Flood
import Turnstile.Proofs.Gate.Isolation
import Turnstile.Proofs.Gate.Later
import Turnstile.Proofs.Gate.Ledger
import Turnstile.Proofs.Gate.Lifespan
import Turnstile.Proofs.Gate.Outages
import Turnstile.Proofs.Gate.Owners
import Turnstile.Proofs.Gate.Probes
import Turnstile.Proofs.Gate.Questions
import Turnstile.Proofs.Gate.Refusals
import Turnstile.Proofs.Gate.Reports
import Turnstile.Proofs.Gate.Resets
import Turnstile.Proofs.Gate.Tallies
import Turnstile.Proofs.Gate.Watched
import Turnstile.Proofs.Identity.Canonical
import Turnstile.Proofs.Quota.Penalties
import Turnstile.Proofs.Storage.LastWrite
import Turnstile.Proofs.Violation.Minutes
import Turnstile.Proofs.Violation.Ranking
import Turnstile.Proofs.Violation.Recovery
