import Readiness.Main
import Readiness.Proofs.Answer.Contents
import Readiness.Proofs.Answer.Verdict
import Readiness.Proofs.Answer.Whole
import Readiness.Proofs.Command.Run
import Readiness.Proofs.Command.Undecodable
import Readiness.Proofs.Http.Redirects
import Readiness.Proofs.Probe.Deployment
import Readiness.Proofs.Probe.Endpoint
import Readiness.Proofs.Probe.Message
import Readiness.Proofs.Probe.Outcome
import Readiness.Proofs.Probe.Ready
import Readiness.Proofs.Probe.Requests
import Readiness.Proofs.Settings.Port
import Readiness.Proofs.Json.Place
import Readiness.Proofs.Answer.Place
import Readiness.Proofs.Number.Places
import Readiness.Proofs.Span
import Readiness.Proofs.Probe.Distinct
import Readiness.Proofs.Command.Filter
import Readiness.Proofs.Command.Lines
import Readiness.Proofs.Url.Address
import Readiness.Proofs.Url.Segments
import Readiness.Proofs.Url.Authority
import Readiness.Proofs.Url.Normal
import Readiness.Proofs.Probe.NormalForm
