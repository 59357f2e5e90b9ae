import ZnsTools.Collection
import ZnsTools.ZoneCounter
import ZnsTools.FiemapWalk
import ZnsTools.ZoneAgreement
import ZnsTools.ReportTiling
import ZnsTools.FileSegments
import ZnsTools.FileZones
import ZnsTools.SegmentHeadings
import ZnsTools.SelectedRange
import ZnsTools.JsonGrouping
import ZnsTools.JsonKeys
import ZnsTools.JsonNumbers
import ZnsTools.FiemapTiling
import ZnsTools.HoleArithmetic
import ZnsTools.JsonTiling
import ZnsTools.NatArea
import ZnsTools.InodeAddress
import ZnsTools.MainArea
import ZnsTools.ExtentLabels
import ZnsTools.DirectoryOrder
import ZnsTools.Trace
import ZnsTools.ResetLatency
import ZnsTools.PlotExact
import ZnsTools.JobTimeline
import ZnsTools.Procfs
import ZnsTools.SegmentInfoFile
import ZnsTools.JsonEnd
import ZnsTools.Shared.Metered
import ZnsTools.TableBounds
import ZnsTools.ProcfsFallback
import ZnsTools.ZoneSelection
import ZnsTools.FileIsolation
import ZnsTools.FileTables
import ZnsTools.Shared.Brackets
import ZnsTools.NvmeTimeline
import ZnsTools.ResetCounts
import ZnsTools.F2fsProbes
import ZnsTools.SetUp
import ZnsTools.ZeroDivisors
import ZnsTools.ReportHeadings
import ZnsTools.Heatmap
import ZnsTools.AppTimeline
import ZnsTools.TraceHeatmaps
import ZnsTools.TraceOrder
import ZnsTools.LatencyHeatmap
import ZnsTools.NodeRuns
import ZnsTools.InodeSearch
import ZnsTools.SegmapOrder
import ZnsTools.FiemapTotals
import ZnsTools.DeviceImage
import ZnsTools.ToolAgreement
import ZnsTools.CallHeap
