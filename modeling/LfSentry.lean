import LfSentry.Runs
import LfSentry.Marks
import LfSentry.CrcTable
import LfSentry.SerialCrc
import LfSentry.Fp
import LfSentry.SerialPacket
import LfSentry.SerialPublish
import LfSentry.SerialHandlers
import LfSentry.SerialReceive
import LfSentry.SerialFramer
import LfSentry.SerialLink
import LfSentry.SerialFrame
import LfSentry.SerialSplit
import LfSentry.SerialFraming
import LfSentry.SerialContent
import LfSentry.SerialPayload
import LfSentry.Referee
import LfSentry.RefereeLedger
import LfSentry.RefereeHealth
import LfSentry.RefereePower
import LfSentry.RefereeAward
import LfSentry.Delivery
import LfSentry.BitFields
import LfSentry.SentryCmd
import LfSentry.SentryWord
import LfSentry.SentryBus
import LfSentry.CameraStream
import LfSentry.Command
import LfSentry.AimGuard
import LfSentry.Aimer
import LfSentry.DualArbiter
import LfSentry.DualCooldown
import LfSentry.Samples
import LfSentry.ThreadSafeQueue
import LfSentry.Attitude
import LfSentry.ImuLookup
import LfSentry.VisionCrc
import LfSentry.GimbalSerial
import LfSentry.GimbalResync
import LfSentry.OrderedQueue
import LfSentry.FakeVel
import LfSentry.TrackedTarget
import LfSentry.Tracker
import LfSentry.RestingTarget
import LfSentry.TrackerEpisodes
import LfSentry.TrackerTolerance
import LfSentry.CrcBits
import LfSentry.CrcBurst
import LfSentry.ImuReader
import LfSentry.Subscribe2Nav
import LfSentry.Turns
import LfSentry.GimbalManager
import LfSentry.Decider
import LfSentry.DualCameras
import LfSentry.OmniDirection
import LfSentry.Shooter
import LfSentry.SentryMultithread
import LfSentry.GimbalJoint
import LfSentry.SendData
import LfSentry.ExtendedKalmanFilter
import LfSentry.BuffTarget
import LfSentry.PredictComposes
import LfSentry.Covariance
import LfSentry.TargetCovariance
import LfSentry.FilterUpdate
import LfSentry.Logged
import LfSentry.Planner
import LfSentry.PlannerReference
import LfSentry.Jacobian
import LfSentry.ProcessJacobian
import LfSentry.MeasurementJacobian
import LfSentry.Settling
import LfSentry.Ballistics
import LfSentry.AimFlight
import LfSentry.BuffDetector
import LfSentry.ShooterWraps
import LfSentry.BladeVote
import LfSentry.Stretches
import LfSentry.BackUpFreeSpace
import LfSentry.CBoard
import LfSentry.OmniPidPursuit
import LfSentry.PursuitCollision
import LfSentry.LookAheadPoint
import LfSentry.Polyline
import LfSentry.ArcLookup
import LfSentry.Reconfigure
import LfSentry.Rotations
import LfSentry.Eulers
import LfSentry.BehaviorTree
import LfSentry.AttackPose
import LfSentry.ChaseGoal
import LfSentry.RecoveryNode
import LfSentry.Decorators
import LfSentry.AttackState
import LfSentry.HpDecreased
import LfSentry.ExchangeVisits
import LfSentry.GoalStrings
import LfSentry.Comparisons
import LfSentry.DeciderSort
import LfSentry.PairLoops
import LfSentry.DuplicateArmors
import LfSentry.WhileLoop
import LfSentry.LimitRad
import LfSentry.TrajectorySolution
import LfSentry.ChooseArmor
import LfSentry.Fifo
import LfSentry.QueueLedger
import LfSentry.RefereeStrings
import LfSentry.BuffLoss
import LfSentry.RansacSineFitter
import LfSentry.FanBlades
import LfSentry.BuffAimer
import LfSentry.BuffUse
import LfSentry.Saturation
import LfSentry.PidSaturation
import LfSentry.Stopwatch
import LfSentry.RefereeTimer
import LfSentry.Recency
import LfSentry.Nearest
import LfSentry.Ivox
import LfSentry.IvoxMap
import LfSentry.IvoxNearest
import LfSentry.Grid
import LfSentry.Sweeps
import LfSentry.Flood
import LfSentry.Terrain
import LfSentry.TerrainRoll
import LfSentry.TerrainPlane
import LfSentry.TerrainAnalysis
import LfSentry.TerrainRun
import LfSentry.TerrainEdges
import LfSentry.TerrainGround
import LfSentry.TerrainExt
import LfSentry.TerrainExtRun
import LfSentry.Ring
import LfSentry.Rounding
import LfSentry.LidarDataQueue
import LfSentry.LivoxDriver
import LfSentry.LivoxFifo
import LfSentry.LivoxWakeup
import LfSentry.ThreadPool
import LfSentry.ThreadPoolRuns
import LfSentry.Chronicle
import LfSentry.PointLioFeed
import LfSentry.PointLioUpdates
import LfSentry.PointLioRuns
