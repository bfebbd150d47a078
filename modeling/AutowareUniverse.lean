import AutowareUniverse.Planning.PlannerManagerOperations
import AutowareUniverse.System.ErrorMonitor
import AutowareUniverse.Common.TimeDelayKalmanFilter
import AutowareUniverse.Control.OperationModeTransitionManager
import AutowareUniverse.Control.VehicleCmdFilter
import AutowareUniverse.Planning.ObstacleConsistency
import AutowareUniverse.Common.SpatialHash
import AutowareUniverse.System.MotionNode
import AutowareUniverse.Planning.PlanningValidator
import AutowareUniverse.Map.DifferentialMapSession
import AutowareUniverse.Common.PolygonIterator
import AutowareUniverse.Control.PidLongitudinalController
import AutowareUniverse.Planning.RRTStarRuns
import AutowareUniverse.Planning.VirtualTrafficLight
import AutowareUniverse.Planning.PlannerManagerApproved
import AutowareUniverse.Perception.MultiObjectTracker
import AutowareUniverse.Perception.CrosswalkTrafficLightEstimator
import AutowareUniverse.Sensing.ConcatenateData
import AutowareUniverse.Perception.SuccessiveShortestPath
import AutowareUniverse.Common.SplineContinuity
import AutowareUniverse.Planning.ResamplePath
import AutowareUniverse.Planning.RegisteredObjects
import AutowareUniverse.Planning.ConcatenatePolygons
import AutowareUniverse.Planning.TrimShiftLines
import AutowareUniverse.Common.LongitudinalOffset
import AutowareUniverse.Localization.EkfLocalizer
import AutowareUniverse.Planning.VelocityLimitSelector
import AutowareUniverse.Control.PIDController
import AutowareUniverse.Control.PredictedVelocity
import AutowareUniverse.Planning.AstarSearch
import AutowareUniverse.Common.RotatingCalipers
import AutowareUniverse.Planning.LaneletSequences
import AutowareUniverse.Planning.ResampleTrajectory
import AutowareUniverse.Planning.AnalyticalSmoother
import AutowareUniverse.Planning.StateMachine
import AutowareUniverse.Common.CscMatrixConv
import AutowareUniverse.Planning.RerouteSafety
import AutowareUniverse.Planning.TrafficLightStop
import AutowareUniverse.Planning.JerkLimitedDeceleration
import AutowareUniverse.Planning.CenterLinePath
import AutowareUniverse.Vehicle.RawVehicleCmdConverter
import AutowareUniverse.Control.MpcInterpolation
