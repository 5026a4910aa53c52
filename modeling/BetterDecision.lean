import BetterDecision.Proof.Edits
import BetterDecision.Proof.Series
import BetterDecision.Proof.Imports
import BetterDecision.Proof.Books
import BetterDecision.Model.Calls
import BetterDecision.Proof.BillingClose
import BetterDecision.Proof.PeriodWriters
import BetterDecision.Proof.SessionProtocol
import BetterDecision.Proof.PlatformReserve
import BetterDecision.Proof.ScenarioEngine
import BetterDecision.Proof.ForecastPlan
import BetterDecision.Proof.Forecast
import BetterDecision.Model.ProjectionKernel
import BetterDecision.Proof.BatchKeys
import BetterDecision.Proof.Invitations
import BetterDecision.Proof.GrantReuse
import BetterDecision.Proof.Tags
import BetterDecision.Proof.AgentActions
import BetterDecision.Proof.CardForecast
import BetterDecision.Proof.AccountTypes
import BetterDecision.Proof.CategoryTypes
import BetterDecision.Proof.AccountWrites
import BetterDecision.Proof.AgentRevert
import BetterDecision.Proof.Rebalance
import BetterDecision.Proof.PlanActuals
import BetterDecision.Proof.Detectors
import BetterDecision.Proof.TransferCollapse
import BetterDecision.Proof.CardCycles
import BetterDecision.Proof.LoanPeriods
import BetterDecision.Proof.PeriodAnomalies
import BetterDecision.Proof.TransferSync
import BetterDecision.Proof.CardPayments
import BetterDecision.Proof.ScenarioHistory
import BetterDecision.Proof.RequiredContribution
import BetterDecision.Proof.SpendCap
import BetterDecision.Proof.ImportAmounts
import BetterDecision.Proof.ImportFiles
import BetterDecision.Proof.RetirementGap
import BetterDecision.Proof.TransferNotice
import BetterDecision.Proof.CycleWindows
import BetterDecision.Proof.SseStream
import BetterDecision.Proof.BudgetRollup
import BetterDecision.Proof.ForecastRefine
import BetterDecision.Proof.ToolResults
import BetterDecision.Proof.CategoryInference
import BetterDecision.Proof.ReportTables
import BetterDecision.Proof.ReportBreakdown
import BetterDecision.Proof.ReportCsv
import BetterDecision.Proof.ProviderBodies
import BetterDecision.Proof.ToolTranscript
import BetterDecision.Proof.StatementAlerts
import BetterDecision.Proof.ReturnTo
import BetterDecision.Proof.RiskRuns
import BetterDecision.Proof.RateLimits
import BetterDecision.Proof.LeasesAndClaims
import BetterDecision.Proof.ParseSlots
import BetterDecision.Proof.CappedHttp
import BetterDecision.Proof.MoneyText
import BetterDecision.Proof.SettlementDates
import BetterDecision.Proof.Instalments
import BetterDecision.Proof.GenerationRuns
import BetterDecision.Proof.Conservation
import BetterDecision.Proof.AssistantChat
import BetterDecision.Proof.SecondFactor
