import Lumo.PaymentsRefundCapacity
import Lumo.PaymentsRefundProtocol
import Lumo.PaymentsCaptureRecovery
import Lumo.PromotionsDiscountConservation
import Lumo.PromotionsUsage
import Lumo.CouponsCoupon
import Lumo.CheckoutCharges
import Lumo.InventoryTransfer
import Lumo.OrdersReservationRuns
import Lumo.OrdersHistory
import Lumo.CartsRuns
import Lumo.FinanceBooks
import Lumo.LicensingOneCharge
import Lumo.LicensingAttempts
import Lumo.KafkaGroups
import Lumo.SecurityCredential
import Lumo.SecuritySessionRuns
import Lumo.SecurityAudit
import Lumo.TrackingRateLimit
import Lumo.TrackingCircuit
import Lumo.TrackingRecordFirst
import Lumo.TrackingRedelivery
import Lumo.TrackingReplay
import Lumo.MessagingOutboxRuns
import Lumo.MessagingConsumer
import Lumo.CheckoutLiveOrders
import Lumo.CatalogProductRuns
import Lumo.PaymobSignature
import Lumo.OrdersStorageRuns
import Lumo.CatalogCategory
import Lumo.ShippingLabelRuns
import Lumo.CatalogCurrency
import Lumo.LoyaltyLedger
import Lumo.Customer360Session
import Lumo.Customer360Recalculation
import Lumo.LicensingPlan
import Lumo.TenancyRouting
import Lumo.LicensingCardRuns
import Lumo.FulfillmentData
import Lumo.CarrierWebhooks
import Lumo.AutomationExecutions
import Lumo.FulfillmentShipments
import Lumo.ShippingZoneCalls
import Lumo.InvoicePaymentRuns
import Lumo.FinanceTaxBounds
import Lumo.PromotionsBuyXGetY
import Lumo.PromotionsGreedySet
import Lumo.PromotionsCodeStatuses
import Lumo.HttpCallers
import Lumo.NotificationsSends
import Lumo.CheckoutDiscountCodes
import Lumo.FinanceOpeningBalance
import Lumo.ReturnsRefusals
import Lumo.OrdersSalesSummary
import Lumo.LicensingCredits
import Lumo.LicensingUsage
import Lumo.LicensingReloads
import Lumo.EntitlementBatches
import Lumo.EntitlementRuns
import Lumo.SecurityRelations
import Lumo.SecurityRotation
import Lumo.Customer360AttributeDependency
import Lumo.ShippingEventIds
import Lumo.TrackingAttribution
import Lumo.TrackingTransport
import Lumo.ExpressionMeaning
import Lumo.TrackingIdentityGraph
import Lumo.TrackingRouting
import Lumo.TrackingNormalization
import Lumo.TrackingDeadLetters
import Lumo.CatalogCollectionProducts
import Lumo.IdentityConsents
import Lumo.AnalyticsScope
