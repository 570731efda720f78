import AdsManagement.Coupang.SalesRevenue
import AdsManagement.Coupang.CostRollback
import AdsManagement.Coupang.ReservationSafety
import AdsManagement.Coupang.ProfitGroups
import AdsManagement.Cafe24.Rematch
import AdsManagement.Meta.AdsetConservation
import AdsManagement.Meta.CreativeSupport
import AdsManagement.Meta.AttributionAgreement
import AdsManagement.Meta.ReservationSafety
import AdsManagement.LogicalKeys
import AdsManagement.Users.IdentityOrphans
import AdsManagement.Users.Deactivation
import AdsManagement.Users.SuperAdmins
import AdsManagement.Storage.TombstoneSafety
import AdsManagement.Auth.EdgeNonces
import AdsManagement.Auth.ProviderRefresh
import AdsManagement.Web.ApiRequest
import AdsManagement.Web.RefreshLocks
import AdsManagement.Web.RefreshLease
import AdsManagement.Web.RuleForms
import AdsManagement.Reports.ExportSafety
import AdsManagement.Auth.ResetSafety
import AdsManagement.Metrics.LevelFinances
import AdsManagement.Maintenance.PolicyAccess
import AdsManagement.Maintenance.DispositionRecovery
import AdsManagement.Coupang.ReportedSales
import AdsManagement.Coupang.SegmentProfit
import AdsManagement.Coupang.ManualDeduction
import AdsManagement.Coupang.PromotionDates
import AdsManagement.Coupang.AdsImportRows
import AdsManagement.Coupang.ProductMatcher
import AdsManagement.Cafe24.CouponOrder
import AdsManagement.Web.IdleBarrier
import AdsManagement.Coupang.FilenameDates
import AdsManagement.Cafe24.AmountSigns
import AdsManagement.Coupang.PriceText
import AdsManagement.Meta.CreativeNames
import AdsManagement.Meta.RulePatterns
import AdsManagement.Auth.WorkLimiter
import AdsManagement.Auth.RateWindows
import AdsManagement.Metrics.UnknownSpend
import AdsManagement.Web.CsvExport
import AdsManagement.Storage.TargetPath
import AdsManagement.Web.XlsxStyles
import AdsManagement.Web.XlsxColumns
import AdsManagement.Cafe24.SanitizedRows
import AdsManagement.Common.DateStrings
