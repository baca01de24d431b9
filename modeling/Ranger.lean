import Ranger.Lib.AdjacentSort
import Ranger.Lib.Bins
import Ranger.Lib.Block
import Ranger.Lib.Cells
import Ranger.Lib.Digits
import Ranger.Lib.Flood
import Ranger.Lib.Lines
import Ranger.Lib.Loop
import Ranger.Lib.Number
import Ranger.Lib.Plane
import Ranger.Lib.Priority
import Ranger.Lib.Queue
import Ranger.Lib.Raster
import Ranger.Lib.Records
import Ranger.Lib.Region
import Ranger.Lib.Run
import Ranger.Lib.Spread
import Ranger.Lib.Wire
import Ranger.Lib.Worklist
import Ranger.Amcl.Laser
import Ranger.Amcl.BeamSkip
import Ranger.Amcl.KdTree
import Ranger.Amcl.Histogram
import Ranger.Amcl.Clusters
import Ranger.Amcl.ClusterStats
import Ranger.Amcl.ClusterVariance
import Ranger.Amcl.CSpace
import Ranger.Amcl.CSpaceNearest
import Ranger.Amcl.CSpaceExact
import Ranger.Amcl.ParticleFilter
import Ranger.Amcl.Normalized
import Ranger.Can.Base
import Ranger.Can.Lemmas.Store
import Ranger.Can.Payload
import Ranger.Can.Publish
import Ranger.Can.RoundTrip
import Ranger.Can.Theorems
import Ranger.Can.Ids
import Ranger.Can.ParserV1
import Ranger.Can.Checksum
import Ranger.Can.RobotLimits
import Ranger.Costmap.Distances
import Ranger.Costmap.Inflation
import Ranger.Costmap.Coverage
import Ranger.Costmap.Layered
import Ranger.Costmap.Incremental
import Ranger.Drive.Params
import Ranger.Drive.Command
import Ranger.Drive.Odometry
import Ranger.Drive.Kinematics
import Ranger.Drive.Ticks
import Ranger.Drive.Bus
import Ranger.Drive.Modes
import Ranger.Drive.Limits
import Ranger.Grid.Costmap2D
import Ranger.Grid.Conversions
import Ranger.Grid.UpdateOrigin
import Ranger.Grid.CopyWindow
import Ranger.Grid.Raytrace
import Ranger.Grid.ConvexFill
import Ranger.Grid.ObstacleLayer
import Ranger.Grid.RaytraceBounds
import Ranger.Localization.Ekf
import Ranger.Localization.TwoD
import Ranger.Localization.RosFilter
import Ranger.Localization.InOrder
import Ranger.Localization.Jacobian
import Ranger.Localization.Controls
import Ranger.Localization.FusedOnce
import Ranger.MapServer.MapIo
import Ranger.MapServer.Trinary
import Ranger.MapServer.Origin
import Ranger.Nav.ActionServer
import Ranger.Nav.Serving
import Ranger.Nav.Lifecycle
import Ranger.Nav.HardReset
import Ranger.Nav.Bonds
import Ranger.Nav.Follower
import Ranger.Nav.Missed
import Ranger.Nav.Bounds
import Ranger.Nav.Smoother
import Ranger.Nav.SmootherParameters
import Ranger.Navfn.NavFn
import Ranger.Navfn.Buffers
import Ranger.Navfn.Cycles
import Ranger.Navfn.Potentials
import Ranger.Navfn.Connected
import Ranger.Navfn.WorldToMap
import Ranger.Navfn.CalcPath
import Ranger.Navfn.PathSteps
import Ranger.Navfn.PathSafety
import Ranger.Scan.Merger
import Ranger.Scan.Freshness
import Ranger.Scan.PointCloud
import Ranger.Scan.MergedCloud
import Ranger.Scan.Sectors
import Ranger.Serial.RingBuffer
import Ranger.Serial.AsyncSerial
import Ranger.Waypoint.Runner
import Ranger.Waypoint.System
import Ranger.Waypoint.Lemmas.Task
import Ranger.Waypoint.Lemmas.Goals
import Ranger.Waypoint.Lemmas.Guards
import Ranger.Waypoint.Theorems
import Ranger.Waypoint.Rounds
import Ranger.Waypoint.Csv
import Ranger.Waypoint.Save
import Ranger.Lib.Shortest
import Ranger.Routing.Planner
import Ranger.Routing.Shortest
import Ranger.Drive.SteerAngles
import Ranger.BehaviorTree.ControlNode
import Ranger.BehaviorTree.RecoveryNode
import Ranger.BehaviorTree.PipelineSequence
import Ranger.BehaviorTree.RoundRobinNode
import Ranger.Lib.UnionFind
import Ranger.Lib.Labelling
import Ranger.Denoise.Image
import Ranger.Denoise.Components
import Ranger.Denoise.Trees
import Ranger.Denoise.Scanning
import Ranger.Denoise.ScanRun
import Ranger.Denoise.GroupsRemover
import Ranger.Denoise.Removal
import Ranger.Denoise.Lookup
import Ranger.Denoise.Overflow
import Ranger.Denoise.Morphology
import Ranger.Denoise.SinglePixels
import Ranger.Denoise.DenoiseLayer
import Ranger.Lib.Wavefront
import Ranger.Dwb.MapBasedQueue
import Ranger.Dwb.CostmapQueue
import Ranger.Dwb.MapGrid
import Ranger.Lib.Joseph
import Ranger.Localization.Kept
import Ranger.Localization.Covariance
import Ranger.Dwb.CoreScoring
import Ranger.Lib.Iterator
import Ranger.Dwb.VelocityIterator
import Ranger.Lib.Bits
import Ranger.Voxel.VoxelGrid
import Ranger.Voxel.RaytraceLine
import Ranger.Voxel.Theorems
import Ranger.Voxel.VoxelLayer
import Ranger.Lidar.ProtocolCodec
import Ranger.Lidar.Stream
import Ranger.Lidar.NormalNode
import Ranger.Lidar.ScanDataHolder
import Ranger.Lidar.DataUnpacker
import Ranger.Static.Costmap2DPublisher
import Ranger.Static.StaticLayer
import Ranger.Static.Replication
