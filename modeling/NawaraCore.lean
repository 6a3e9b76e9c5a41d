import NawaraCore.Billing.PaymentRequestSound
import NawaraCore.Billing.WriteOffRaceSound
import NawaraCore.Billing.ReversalSound
import NawaraCore.Events.DeadLetterSound
import NawaraCore.Events.TrustSound
import NawaraCore.Loss.OverlapSound
import NawaraCore.Dispute.OrderSound
import NawaraCore.Payment.CaptureEvidenceSound
import NawaraCore.Payment.TransitionSound
import NawaraCore.Payment.WebhookSound
import NawaraCore.Refund.CapturedMoneySound
import NawaraCore.Safety.SafetySound
import NawaraCore.Reconciliation.LateSuccessSound
import NawaraCore.Reconciliation.ResolutionSound
import NawaraCore.Refund.DispatchSound
import NawaraCore.Refund.FurthestSound
import NawaraCore.Refund.PassSound
import NawaraCore.Refund.RequestSound
import NawaraCore.Audit.IngestionSound
import NawaraCore.Audit.ScreenSound
import NawaraCore.Auth.CleanCutSound
import NawaraCore.Auth.RevocationSound
import NawaraCore.File.FileCommitSound
import NawaraCore.Assistance.CorrectionRunSound
import NawaraCore.Events.OutboxRelaySound
import NawaraCore.Auth.EnrolmentSound
import NawaraCore.Auth.MemberSecuritySound
import NawaraCore.Auth.ReceiptBindingSound
import NawaraCore.Auth.AdmissionSound
import NawaraCore.Notification.SecretSound
import NawaraCore.Kit.BytesSound
import NawaraCore.Kit.PollLoopSound
import NawaraCore.File.IntegritySound
import NawaraCore.File.UploadSound
import NawaraCore.Release.CompatibilitySound
import NawaraCore.Billing.EntitlementSound
import NawaraCore.Billing.LifecycleSound
import NawaraCore.Billing.CatalogSound
import NawaraCore.Billing.RoutingSound
import NawaraCore.Billing.CanonicalSound
import NawaraCore.Billing.TotalsSound
import NawaraCore.Notification.SegmentsSound
import NawaraCore.Billing.StaleScanSound
import NawaraCore.Auth.Availability
import NawaraCore.File.FileNameSound
import NawaraCore.Kit.ClientAddressSound
import NawaraCore.Kit.CallerPolicySound
import NawaraCore.Kit.SafeSerializeSound
