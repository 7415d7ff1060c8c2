import AxVision.TransitionRuns
import AxVision.Ledgers
import AxVision.KeyedTables
import AxVision.KeyedLists
import AxVision.HostServices
import AxVision.GateAccounting
import AxVision.PluginUnload
import AxVision.DetectionTypes
import AxVision.PushRequests
import AxVision.FaceRecognition
import AxVision.IdentifyJobs
import AxVision.FrameSteps
import AxVision.InflightTracks
import AxVision.StrangerAlerts
import AxVision.KalmanFilter
import AxVision.STracks
import AxVision.TrackAssociation
import AxVision.ByteTracker
import AxVision.TrackerProcessor
import AxVision.PointerStores
import AxVision.ProperAssignments
import AxVision.TrackerSteps
import AxVision.TrackerUpdates
import AxVision.OptimalAssignments
import AxVision.ExactSolvers
import AxVision.GreedyAssignments
import AxVision.LabelTurns
import AxVision.TrackIdentity
import AxVision.TrackRetention
import AxVision.StationaryTracks
import AxVision.StaticScenes
import AxVision.TrackRenaming
import AxVision.LabelIndependence
import AxVision.Reassociation
import AxVision.ReturningTracks
import AxVision.SceneRuns
import AxVision.ComponentLoaders
import AxVision.LoaderLifecycles
import AxVision.BusFrames
import AxVision.LateWorkers
import AxVision.ReleasedSlots
import AxVision.MessageQueues
import AxVision.SourceStops
import AxVision.FairRuns
import AxVision.ThreadPools
import AxVision.PoolDeliveries
import AxVision.HardwareIds
import AxVision.FrameMappings
import AxVision.MappingBalance
import AxVision.ClonedFrames
import AxVision.ChannelFrames
import AxVision.HandlePools
import AxVision.HttpResponses
import AxVision.QdrantResponses
import AxVision.ResponseTotality
import AxVision.LookupVerdicts
import AxVision.ApiVerdicts
import AxVision.DecimalNumerals
import AxVision.PointIds
import AxVision.ConflictGraphs
import AxVision.DuplicateTracks
import AxVision.VisitorBatches
import AxVision.InitAtomicity
import AxVision.PartialMatchings
import AxVision.ThresholdedAssignments
import AxVision.FrameDrawing
import AxVision.DrawnPixels
import AxVision.StraightLines
import AxVision.RectangleBorders
import AxVision.FilledCircles
import AxVision.DrawingBounds
import AxVision.DerivedAddresses
import AxVision.FaceRegions
import AxVision.FailureEpisodes
import AxVision.LabelScans
import AxVision.LexicalPaths
import AxVision.SceneConfigs
import AxVision.EngineResources
import AxVision.ExpandedRegions
import AxVision.OsdTexts
import AxVision.FreetypeTexts
import AxVision.ConvexPolygons
import AxVision.ConvexInteriors
import AxVision.FloatTexts
import AxVision.SampleRules
import AxVision.RegionTests
import AxVision.RuleConfigs
import AxVision.GreedySuppression
import AxVision.ScrfdNms
import AxVision.ScrfdDecoding
import AxVision.YoloConfigs
import AxVision.YoloDecoding
import AxVision.BresenhamLines
import AxVision.CovarianceUpdates
import AxVision.KalmanCovariances
import AxVision.TrackerDivisions
import AxVision.DetectionBoxes
import AxVision.LapjvPaths
import AxVision.LapjvTracking
import AxVision.PipelineFrames
import AxVision.FaceAlignments
import AxVision.FrontalFaces
import AxVision.RuleRuns
import AxVision.YoloObjects
import AxVision.ByteMemories
import AxVision.CopiedPlanes
import AxVision.JpegDecoding
import AxVision.ScrfdFaces
