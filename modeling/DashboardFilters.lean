import DashboardFilters.CrossFilter.Json
import DashboardFilters.Highlight.Json
import DashboardFilters.Json.Reading
import DashboardFilters.Panel
import DashboardFilters.Proofs.SlotAllocation
import DashboardFilters.Scope.Json
import DashboardFilters.Signal.Tagged
import DashboardFilters.Slots.Recorder
import DashboardFilters.Proofs.PanelRun
import DashboardFilters.Proofs.SlotIdentity
import DashboardFilters.Proofs.ViewContents
import DashboardFilters.Proofs.ConnectionOrder
import DashboardFilters.Proofs.OverflowHistory
import DashboardFilters.Proofs.CrossFilterIds
import DashboardFilters.Proofs.OverflowNotices
import DashboardFilters.Proofs.PlacementNotices
import DashboardFilters.Proofs.OverflowView
import DashboardFilters.Proofs.PanelOverflow
import DashboardFilters.Proofs.HighlightRequests
import DashboardFilters.Proofs.PassPlan
import DashboardFilters.Proofs.RepeatedPass
import DashboardFilters.Proofs.RepeatedIds
import DashboardFilters.Proofs.SignalTranscript
import DashboardFilters.Proofs.EmissionSnapshot
import DashboardFilters.Proofs.ConnectionIds
import DashboardFilters.Proofs.MeasuredRow
import DashboardFilters.Proofs.WholeNumbers
import DashboardFilters.Proofs.WholePixels
import DashboardFilters.Proofs.RoundingOrder
import DashboardFilters.Proofs.WiderRow
import DashboardFilters.Proofs.Clearings
import DashboardFilters.Proofs.Divider
import DashboardFilters.Proofs.Selections
import DashboardFilters.Proofs.SlotAccounts
import DashboardFilters.Proofs.ActiveCharts
import DashboardFilters.Proofs.ScopeHalves
import DashboardFilters.Proofs.Decoding
import DashboardFilters.Proofs.FullForms
import DashboardFilters.Proofs.StoredMasks
import DashboardFilters.Proofs.DocumentLines
import DashboardFilters.Proofs.PartialSettings
