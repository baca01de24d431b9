import Mathlib.Logic.Function.Basic

/-!
# 走査の統合（`ScansMerger`）

前後の走査の到着で動く二つのコールバックと、`publishMessages` を書く。前後で対になるメンバとコールバックは、`Side` を引数に
とる一つの定義にする。`laser_geometry` と `tf2` は引数である。公開する二つのメッセージは、ここで定める `Merge` から作られる。
-/

namespace Ranger.Scan

inductive Side
  | front
  | rear
  deriving DecidableEq, Repr

def Side.other : Side → Side
  | .front => .rear
  | .rear => .front

/-! ## メンバと引数 -/

/-- 片側のメンバ。`front_scan_msg_`、`front_pcl_`、`front_scan_received_`、`front_scan_error_` など。 -/
structure Lidar (Scan Cloud : Type) where
  scanMsg : Scan
  pcl : Cloud
  scanReceived : Bool := false
  scanError : Bool := false

structure ScansMerger (Scan Cloud : Type) where
  lidar : Side → Lidar Scan Cloud

/-- 走査の統合に関わる ROS のパラメータ。 -/
structure MergerParams where
  motionCompensation : Bool := true
  fixedFrameId : String := "map"
  targetFrameId : String := "robot"

/-- 点群の操作。`stamp` と `frameId` は点群の `header` の成分である。 -/
structure Geometry (Scan Cloud Time Transform : Type) where
  projectLaser : Scan → Cloud
  stamp : Cloud → Time
  frameId : Cloud → String
  doTransform : Cloud → Transform → Cloud

/-- `tf_buffer_` への問い合わせの結果。`none` は `tf2::TransformException` である。 -/
structure TfBuffer (Scan Cloud Time Transform : Type) where
  transformLaserScanToPointCloud : (frame : String) → Scan → Option Cloud
  lookupTransform : (target source : String) → Time → Option Transform

/-- 統合の結果。`part` は、変換して加えた点群で、加えない側では `none` である。 -/
structure Merge (Cloud Time : Type) where
  stamp : Time
  part : Side → Option Cloud

/-- コールバックの結果。`waiting` は、`publishMessages` を呼ばなかったことを表す。 -/
inductive Outcome (Cloud Time : Type)
  | waiting
  | failed
  | published (merge : Merge Cloud Time)

variable {Scan Cloud Time Transform : Type}

def ScansMerger.new [Inhabited Scan] [Inhabited Cloud] : ScansMerger Scan Cloud where
  lidar _ := { scanMsg := default, pcl := default }

def ScansMerger.set (s : ScansMerger Scan Cloud) (side : Side) (l : Lidar Scan Cloud) : ScansMerger Scan Cloud where
  lidar := Function.update s.lidar side l

/-! ## 公開 -/

section Publish

variable [LE Time] [DecidableLE Time] (p : MergerParams) (g : Geometry Scan Cloud Time Transform)

/-- `output_stamp`。両側があれば、遅い方の時刻である。 -/
def outputStamp (now : Time) (s : ScansMerger Scan Cloud) : Time :=
  let front := s.lidar .front
  let rear := s.lidar .rear
  if !front.scanError && !rear.scanError then
    if g.stamp front.pcl ≥ g.stamp rear.pcl then g.stamp front.pcl else g.stamp rear.pcl
  else if !front.scanError then g.stamp front.pcl
  else if !rear.scanError then g.stamp rear.pcl
  else now

/-- 片側の点群の、`target_frame_id` への変換。動きを補うときは、走査を `fixed_frame_id` に移してから変換する。 -/
def targetPcl (tf : TfBuffer Scan Cloud Time Transform) (stamp : Time) (scanMsg : Scan) (pcl : Cloud) :
    Option Cloud :=
  if p.motionCompensation && p.fixedFrameId != p.targetFrameId then do
    let fixedPcl ← tf.transformLaserScanToPointCloud p.fixedFrameId scanMsg
    let targetToLidar ← tf.lookupTransform p.targetFrameId p.fixedFrameId stamp
    some (g.doTransform fixedPcl targetToLidar)
  else do
    let targetToLidar ← tf.lookupTransform p.targetFrameId (g.frameId pcl) (g.stamp pcl)
    some (g.doTransform pcl targetToLidar)

/-- 片側の寄与。外側の `none` は、変換に失敗した `return` である。 -/
def mergePart (tf : TfBuffer Scan Cloud Time Transform) (stamp : Time) (l : Lidar Scan Cloud) :
    Option (Option Cloud) :=
  if l.scanError then some none else (targetPcl p g tf stamp l.scanMsg l.pcl).map some

/-- `publishMessages`。失敗したときは、受信の印を消さない。 -/
def publishMessages (tf : Side → TfBuffer Scan Cloud Time Transform) (now : Time) (s : ScansMerger Scan Cloud) :
    ScansMerger Scan Cloud × Outcome Cloud Time :=
  let stamp := outputStamp g now s
  match mergePart p g (tf .front) stamp (s.lidar .front) with
  | none => (s, .failed)
  | some front =>
      match mergePart p g (tf .rear) stamp (s.lidar .rear) with
      | none => (s, .failed)
      | some rear =>
          ({ lidar := fun side => { s.lidar side with scanReceived := false } },
            .published { stamp, part := fun | .front => front | .rear => rear })

/-! ## 到着 -/

/-- 走査の到着。`tf` と `now` は、続く `publishMessages` の問い合わせの結果である。 -/
structure Arrival (Scan Cloud Time Transform : Type) where
  side : Side
  scan : Scan
  tf : Side → TfBuffer Scan Cloud Time Transform
  now : Time

def scanCallback (side : Side) (scan : Scan) (tf : Side → TfBuffer Scan Cloud Time Transform) (now : Time)
    (s : ScansMerger Scan Cloud) : ScansMerger Scan Cloud × Outcome Cloud Time :=
  let s := s.set side { scanMsg := scan, pcl := g.projectLaser scan, scanReceived := true, scanError := false }
  let opposite := s.lidar side.other
  if opposite.scanReceived || opposite.scanError then publishMessages p g tf now s
  else (s.set side.other { opposite with scanError := true }, .waiting)

def frontScanCallback := scanCallback p g .front

def rearScanCallback := scanCallback p g .rear

def receive (a : Arrival Scan Cloud Time Transform) (s : ScansMerger Scan Cloud) :
    ScansMerger Scan Cloud × Outcome Cloud Time :=
  match a.side with
  | .front => frontScanCallback p g a.scan a.tf a.now s
  | .rear => rearScanCallback p g a.scan a.tf a.now s

end Publish

end Ranger.Scan
