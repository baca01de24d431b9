import Ranger.Waypoint.Csv

/-!
# 経由点の保存（`WaypointSave`）

`onSave` は、位置と向きの一行をファイルに追記する。追記したファイルを `loadCSV` で読むと、元の経由点の後に、保存した値を 6 桁に
丸めた経由点が並ぶ。
-/

namespace Ranger.Waypoint
open Ranger.Lib

/-- 有限の `double`。`negative` は符号のビットで、0 の符号も表す。 -/
structure Coordinate where
  negative : Bool
  magnitude : ℚ
  nonneg : 0 ≤ magnitude
  le_max : magnitude ≤ doubleMax

def Coordinate.value (c : Coordinate) : ℚ := if c.negative then -c.magnitude else c.magnitude

def Coordinate.text (c : Coordinate) : List Char := fixedText c.negative c.magnitude

/-- 6 桁に丸めた値。 -/
def Coordinate.rounded (c : Coordinate) : ℚ := fixedValue c.negative c.magnitude

/-- `lookupTransform` の結果の位置と、`getRPY` の `yaw`。 -/
structure SavedPose where
  x : Coordinate
  y : Coordinate
  yaw : Coordinate

structure TriggerResponse where
  success : Bool
  message : String
  deriving DecidableEq

def SavedPose.fields (p : SavedPose) : List Char := p.x.text ++ ',' :: (p.y.text ++ ',' :: p.yaw.text)

def SavedPose.rounded (p : SavedPose) : CsvRow where
  x := .finite p.x.rounded
  y := .finite p.y.rounded
  yaw := .finite p.yaw.rounded

/-- `onSave`。`lookup` の誤りは例外の `what()` で、`opens` は、追記のために開けたことを表す。 -/
def onSave (path : String) (lookup : Except String SavedPose) (opens : Bool) (file : Option (List Char)) :
    Option (List Char) × TriggerResponse :=
  match lookup with
  | .error what => (file, ⟨false, "TF lookup failed: " ++ what⟩)
  | .ok pose =>
      if opens then (some (file.getD [] ++ (pose.fields ++ ['\n'])), ⟨true, "save waypoint"⟩)
      else (file, ⟨false, "Fail to open file for append: " ++ path⟩)

structure SaveRequest where
  lookup : Except String SavedPose
  opens : Bool

def SaveRequest.pose? (r : SaveRequest) : Option SavedPose :=
  match r.lookup with
  | .error _ => none
  | .ok pose => if r.opens then some pose else none

def saveAll (path : String) (requests : List SaveRequest) (file : Option (List Char)) : Option (List Char) :=
  requests.foldl (fun file r => (onSave path r.lookup r.opens file).1) file

/-! ## 追記 -/

theorem onSave_eq (path : String) (r : SaveRequest) (content : List Char) :
    (onSave path r.lookup r.opens (some content)).1 =
      some (content ++ (r.pose?.map fun p => p.fields ++ ['\n']).getD []) := by
  unfold onSave SaveRequest.pose?
  cases r.lookup with
  | error what => simp
  | ok pose =>
      simp only
      split_ifs <;> simp

/-- 成功した要求だけが、一行を加える。 -/
theorem saveAll_eq (path : String) (requests : List SaveRequest) (content : List Char) :
    saveAll path requests (some content) =
      some (content ++ (requests.filterMap SaveRequest.pose?).flatMap fun p => p.fields ++ ['\n']) := by
  induction requests generalizing content with
  | nil => simp [saveAll]
  | cons r requests ih =>
      rw [saveAll, List.foldl_cons, onSave_eq, ← saveAll, ih]
      cases h : r.pose? with
      | none => simp [List.filterMap_cons_none h]
      | some p => simp [List.filterMap_cons_some h]

theorem Coordinate.not_mem_text (c : Coordinate) {d : Char} (hd : d = ',' ∨ d = '\n') : d ∉ c.text := by
  intro h
  rcases mem_fixedText h with h | h | h
  · rcases hd with rfl | rfl <;> cases h
  · rcases hd with rfl | rfl <;> cases h
  · rcases hd with rfl | rfl <;> cases h

theorem parseLine_saved (p : SavedPose) : parseLine p.fields = some p.rounded :=
  parseLine_fields (p.x.not_mem_text (Or.inl rfl)) (p.y.not_mem_text (Or.inl rfl)) (p.yaw.not_mem_text (Or.inl rfl))
    (fixedText_ne_nil _ _) (stod_fixedText _ p.x.le_max) (stod_fixedText _ p.y.le_max) (stod_fixedText _ p.yaw.le_max)

theorem SavedPose.newline_not_mem (p : SavedPose) : '\n' ∉ p.fields := by
  simp [SavedPose.fields, Coordinate.not_mem_text]

/-- 保存した行だけのファイルは、保存した順の経由点である。 -/
theorem readWaypoints_saved (poses : List SavedPose) :
    readWaypoints (poses.flatMap fun p => p.fields ++ ['\n']) = poses.map SavedPose.rounded := by
  induction poses with
  | nil => rfl
  | cons p poses ih =>
      rw [List.flatMap_cons, List.append_assoc, List.singleton_append,
        readWaypoints_line p.newline_not_mem (parseLine_saved p), ih, List.map_cons]

/-- 丸めた値は 6 桁の十進数で、元の値との差は、最後の桁の半分を超えない。 -/
theorem Coordinate.rounded_near (c : Coordinate) :
    (∃ k : ℤ, c.rounded = k / 10 ^ 6) ∧ |c.rounded - c.value| ≤ 1 / 2 / 10 ^ 6 := by
  obtain ⟨negative, q, hnonneg, -⟩ := c
  set n := roundHalfEven (q * 10 ^ 6) with hn
  have hround : |(n : ℚ) - q * 10 ^ 6| ≤ 1 / 2 := abs_roundHalfEven_sub_le (by positivity)
  have hdiff : |(n : ℚ) / 10 ^ 6 - q| ≤ 1 / 2 / 10 ^ 6 := by
    have hscale : (n : ℚ) / 10 ^ 6 - q = (n - q * 10 ^ 6) / 10 ^ 6 := by ring
    rw [hscale, abs_div, abs_of_pos (by norm_num : (0 : ℚ) < 10 ^ 6)]
    gcongr
  cases negative with
  | false => exact ⟨⟨n, by simp [Coordinate.rounded, fixedValue, hn]⟩, hdiff⟩
  | true =>
      refine ⟨⟨-n, by simp [Coordinate.rounded, fixedValue, hn, neg_div]⟩, ?_⟩
      have hneg : -((n : ℚ) / 10 ^ 6) - -q = -((n : ℚ) / 10 ^ 6 - q) := by ring
      rw [← abs_neg, ← hneg] at hdiff
      exact hdiff

/-- 空か改行で終わるファイルに要求の列が追記した後、`loadCSV` は、元の経由点の後に、保存した順に、6 桁に丸めた経由点を返す。
元の経由点の添字は変わらない。 -/
theorem saved_waypoints_load (path : String) {content : List Char}
    (h : content = [] ∨ content.getLast? = some '\n') (requests : List SaveRequest) :
    ∃ poses loaded, loadCSV path (some content) = .ok poses ∧
      loadCSV path (saveAll path requests (some content)) = .ok loaded ∧
      loaded = poses ++ (requests.filterMap SaveRequest.pose?).map (fun p => p.rounded.pose) ∧
      (∀ i < poses.length, loaded[i]? = poses[i]?) ∧
      ∀ c : Coordinate, (∃ k : ℤ, c.rounded = k / 10 ^ 6) ∧ |c.rounded - c.value| ≤ 1 / 2 / 10 ^ 6 := by
  have hload : loadCSV path (saveAll path requests (some content)) = .ok ((readWaypoints content).map CsvRow.pose ++
      (requests.filterMap SaveRequest.pose?).map (fun p => p.rounded.pose)) := by
    rw [saveAll_eq, loadCSV, readWaypoints_append h, readWaypoints_saved, List.map_append, List.map_map]
    rfl
  exact ⟨_, _, rfl, hload, rfl, fun i hi => List.getElem?_append_left hi, Coordinate.rounded_near⟩

-- 読めない行のあるファイルへの、失敗した要求と、負の小さな値の保存。
theorem saved_waypoints_load_small :
    let content := "1,2\nmap,\n\n3,4,0.5\n".toList
    let zero : Coordinate := ⟨false, 0, le_rfl, by decide +kernel⟩
    let small : Coordinate := ⟨true, 1 / 4000000, by norm_num, by decide +kernel⟩
    let requests : List SaveRequest := [⟨.error "timeout", true⟩, ⟨.ok ⟨small, zero, small⟩, true⟩]
    (content = [] ∨ content.getLast? = some '\n') ∧
      ∃ poses loaded, loadCSV "waypoint_one.csv" (some content) = .ok poses ∧
        loadCSV "waypoint_one.csv" (saveAll "waypoint_one.csv" requests (some content)) = .ok loaded ∧
        loaded = poses ++ (requests.filterMap SaveRequest.pose?).map (fun p => p.rounded.pose) ∧
        (∀ i < poses.length, loaded[i]? = poses[i]?) ∧
        ∀ c : Coordinate, (∃ k : ℤ, c.rounded = k / 10 ^ 6) ∧ |c.rounded - c.value| ≤ 1 / 2 / 10 ^ 6 := by
  intro content zero small requests
  have h : content = [] ∨ content.getLast? = some '\n' := Or.inr rfl
  exact ⟨h, saved_waypoints_load "waypoint_one.csv" h requests⟩

end Ranger.Waypoint
