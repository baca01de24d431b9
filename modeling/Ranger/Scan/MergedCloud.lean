import Ranger.Scan.PointCloud

/-!
# 統合された点群の記録

統合された点群は、両側の点群の記録をバイト列のまま連ね、見出しを前側の点群から取る。後ろ側の記録が正しく読めるのは、その配置が、
範囲に入る点を読む限りで、前側の配置と同じときである。
-/

namespace Ranger.Scan
open Ranger.Lib

noncomputable section

variable {p : OutputParams} {r : WithTop ℝ → WithTop ℝ}

/-! ## 性質と条件 -/

/-- 前後の両方の点群を加える。 -/
def pair (front rear : LaserCloud) : Side → Option LaserCloud
  | .front => some front
  | .rear => some rear

/-- 記録ごとに読んだ点。 -/
def PointCloud2.decoded (c : PointCloud2) : List Words := (List.range c.numberOfPoints).map c.words

/-- 範囲に入る点の番号。 -/
def PointCloud2.passing (p : OutputParams) (c : PointCloud2) : List ℕ :=
  open Classical in (List.range c.numberOfPoints).filter fun i => c.PassesAt p i

/-- 長さの欄は合い、記録ごとに読むと、前側の範囲に入る点と、後ろ側の範囲に入る点が、順にそのまま得られる。 -/
def MergesRecords (p : OutputParams) (front rear : LaserCloud) (pcl : PointCloud2) : Prop :=
  pcl.width * pcl.pointStep = pcl.rowStep ∧ pcl.rowStep = pcl.data.length ∧
    pcl.decoded = (front.passing p).map front.words ++ (rear.passing p).map rear.words

/-- 後ろ側の点群の記録は、前側と同じ長さで、範囲に入る点は、前側の配置で読んでも同じである。 -/
def LayoutsAgree (p : OutputParams) (front rear : LaserCloud) : Prop :=
  rear.pointStep = front.pointStep ∧
    ∀ i < rear.numberOfPoints, rear.PassesAt p i → front.layout.words rear.data i = rear.words i

theorem PointCloud2.mem_passing {c : PointCloud2} {i : ℕ} :
    i ∈ c.passing p ↔ i < c.numberOfPoints ∧ c.PassesAt p i := by
  simp [PointCloud2.passing]

/-! ## 記録 -/

/-- 一つの記録から読んだ点。 -/
def Layout.wordsOf (l : Layout) (b : List UInt8) : Words := ⟨(b.drop l.x).take 4, (b.drop l.y).take 4⟩

theorem LaserCloud.layout_words (c : LaserCloud) (data : List UInt8) (i : ℕ) :
    c.layout.words data i = c.layout.wordsOf (block c.pointStep data i) := by
  ext1
  · exact take_drop_block c.x_fits data i
  · exact take_drop_block c.y_fits data i

theorem LaserCloud.pointStep_pos (c : LaserCloud) : 0 < c.pointStep := by
  have hx := c.x_fits
  omega

theorem LaserCloud.length_record (c : LaserCloud) {i : ℕ} (hi : i < c.numberOfPoints) :
    (c.record i).length = c.pointStep :=
  length_block c.size_eq hi

theorem LaserCloud.length_of_mem_records (c : LaserCloud) {b : List UInt8} (hb : b ∈ (c.passing p).map c.record) :
    b.length = c.pointStep := by
  obtain ⟨i, hi, rfl⟩ := List.mem_map.mp hb
  exact c.length_record (PointCloud2.mem_passing.mp hi).1

theorem foldl_appendPoint_points {input : PointCloud2} {is : List ℕ} {ranges : Option (List (WithTop ℝ))}
    {points : List UInt8} :
    open Classical in
    (is.foldl (appendPoint p r input) ⟨ranges, some points⟩).filteredPoints =
      some (points ++ ((is.filter fun i => input.PassesAt p i).map input.record).flatten) := by
  classical
  induction is generalizing ranges points with
  | nil => simp
  | cons i is ih =>
      rw [List.foldl_cons]
      by_cases hpass : input.PassesAt p i
      · obtain ⟨q, hq, hq'⟩ := id hpass
        rw [appendPoint_of_passes hq hq', Option.map_some, ih, List.filter_cons_of_pos (by simpa using hpass),
          List.map_cons, List.flatten_cons, List.append_assoc]
      · rw [appendPoint_of_not hpass, ih, List.filter_cons_of_neg (by simpa using hpass)]

theorem appendPart_points (hpcl : p.publishPcl = true) (c : LaserCloud) (out : List (WithTop ℝ) × List UInt8) :
    (appendPart p r (some c) out).2 = out.2 ++ ((c.passing p).map c.record).flatten := by
  simp only [appendPart, hpcl, if_true, appendFilteredPoints, foldl_appendPoint_points, Option.getD_some]
  rfl

/-- 統合された点群の記録。 -/
def mergedRecords (p : OutputParams) (front rear : LaserCloud) : List (List UInt8) :=
  (front.passing p).map front.record ++ (rear.passing p).map rear.record

theorem pclMsg_pair {front rear : LaserCloud} {pcl : PointCloud2} (h : pclMsg p r (pair front rear) = some pcl) :
    pcl.data = (mergedRecords p front rear).flatten ∧ pcl.layout = front.layout ∧ pcl.height = 1 ∧
      pcl.width = pcl.data.length / front.pointStep ∧ pcl.rowStep = pcl.width * front.pointStep := by
  unfold pclMsg at h
  split_ifs at h with hpcl
  obtain rfl := Option.some.inj h
  refine ⟨?_, rfl, rfl, rfl, rfl⟩
  show (appendPart p r (some rear) (appendPart p r (some front) _)).2 = _
  rw [appendPart_points hpcl, appendPart_points hpcl, mergedRecords, List.flatten_append, List.nil_append]

/-! ## 読み出し -/

section Reading

variable {front rear : LaserCloud} {pcl : PointCloud2}

/-- 加える記録がどれも前側の長さなら、長さの欄は合い、読める点は、記録を前側の配置で読んだものである。 -/
theorem decoded_eq (h : pclMsg p r (pair front rear) = some pcl)
    (hlen : ∀ b ∈ mergedRecords p front rear, b.length = front.pointStep) :
    pcl.rowStep = pcl.data.length ∧ pcl.decoded = (mergedRecords p front rear).map front.layout.wordsOf := by
  obtain ⟨hdata, hlayout, hheight, hwidth, hrow⟩ := pclMsg_pair h
  have hsize : pcl.data.length = (mergedRecords p front rear).length * front.pointStep := by
    rw [hdata, length_flatten_records hlen]
  have hcount : pcl.width = (mergedRecords p front rear).length := by
    rw [hwidth, hsize, Nat.mul_div_cancel _ front.pointStep_pos]
  refine ⟨by rw [hrow, hcount, hsize], ?_⟩
  have hwords : ∀ i, pcl.words i = front.layout.wordsOf (block front.pointStep pcl.data i) := by
    intro i
    rw [PointCloud2.words, hlayout, front.layout_words]
  rw [PointCloud2.decoded, PointCloud2.numberOfPoints, hheight, Nat.one_mul, hcount, funext hwords, hdata,
    ← map_block_flatten hlen, List.map_map, map_block_flatten hlen]
  rfl

theorem LaserCloud.map_wordsOf_record (c : LaserCloud) (is : List ℕ) :
    (is.map c.record).map c.layout.wordsOf = is.map c.words := by
  rw [List.map_map]
  exact List.map_congr_left fun i _ => (c.layout_words c.data i).symm

/-- 記録の数と長さの釣り合いから、後ろ側に範囲に入る点があれば、記録の長さは等しい。 -/
theorem MergesRecords.pointStep_eq (h : pclMsg p r (pair front rear) = some pcl)
    (hmerge : MergesRecords p front rear pcl) {i : ℕ} (hi : i ∈ rear.passing p) : rear.pointStep = front.pointStep := by
  obtain ⟨hdata, hlayout, hheight, hwidth, hrow⟩ := pclMsg_pair h
  obtain ⟨_, hrowlen, hdecoded⟩ := hmerge
  have hcount : pcl.width = (front.passing p).length + (rear.passing p).length := by
    have hlen := congrArg List.length hdecoded
    rw [PointCloud2.decoded, List.length_map, List.length_range, PointCloud2.numberOfPoints, hheight, Nat.one_mul,
      List.length_append, List.length_map, List.length_map] at hlen
    exact hlen
  have hrecords : ∀ c : LaserCloud,
      ((c.passing p).map c.record).flatten.length = (c.passing p).length * c.pointStep := by
    intro c
    rw [length_flatten_records fun b hb => c.length_of_mem_records hb, List.length_map]
  have hsize : pcl.data.length =
      (front.passing p).length * front.pointStep + (rear.passing p).length * rear.pointStep := by
    rw [hdata, mergedRecords, List.flatten_append, List.length_append, hrecords, hrecords]
  have hbalance : (rear.passing p).length * rear.pointStep = (rear.passing p).length * front.pointStep := by
    rw [← hrowlen, hrow, hcount, Nat.add_mul] at hsize
    exact (Nat.add_left_cancel hsize).symm
  exact Nat.eq_of_mul_eq_mul_left (List.length_pos_of_mem hi) hbalance

theorem mergedRecords_length (hrear : ∀ i ∈ rear.passing p, rear.pointStep = front.pointStep) :
    ∀ b ∈ mergedRecords p front rear, b.length = front.pointStep := by
  intro b hb
  rcases List.mem_append.mp hb with hb | hb
  · exact front.length_of_mem_records hb
  · obtain ⟨i, hi, _⟩ := List.mem_map.mp hb
    exact (rear.length_of_mem_records hb).trans (hrear i hi)

/-- 記録の長さが等しいとき、読める点がもとの点であるのは、後ろ側の点が前側の配置で正しく読めるときに限る。 -/
theorem mergesRecords_iff_words (h : pclMsg p r (pair front rear) = some pcl)
    (hrear : ∀ i ∈ rear.passing p, rear.pointStep = front.pointStep) :
    MergesRecords p front rear pcl ↔ ∀ i ∈ rear.passing p, front.layout.words rear.data i = rear.words i := by
  obtain ⟨hrow, hdecoded⟩ := decoded_eq h (mergedRecords_length hrear)
  obtain ⟨_, hlayout, _, _, hwidth⟩ := pclMsg_pair h
  have hstep : pcl.pointStep = front.pointStep := congrArg Layout.pointStep hlayout
  have hread : ((rear.passing p).map rear.record).map front.layout.wordsOf =
      (rear.passing p).map (front.layout.words rear.data) := by
    rw [List.map_map]
    refine List.map_congr_left fun i hi => ?_
    rw [front.layout_words, ← hrear i hi]
    rfl
  rw [MergesRecords, hstep, hdecoded, mergedRecords, List.map_append, front.map_wordsOf_record, hread,
    List.append_cancel_left_eq, List.map_inj_left]
  exact ⟨fun hm => hm.2.2, fun hm => ⟨hwidth.symm, hrow, hm⟩⟩

end Reading

end

end Ranger.Scan
