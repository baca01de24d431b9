import Ranger.Grid.Conversions
import Ranger.Grid.Raytrace
import Ranger.Lib.AdjacentSort
import Ranger.Lib.Number

/-!
# 多角形の塗りつぶし

`Costmap2D::polygonOutlineCells` と `convexFillCells`。輪郭の升目を列の順に並べ、列ごとに上下の端のあいだを塗る。座標の差は `int`、
番号は `unsigned int` である。
-/

namespace Ranger.Grid
open Ranger.Lib

def vertex (polygon : List MapLocation) (i : ℕ) : MapLocation := polygon.getD i ⟨0, 0⟩

/-- 一列の残りの升目を読む繰り返し。番号 `i` から先の升目を受け取る。 -/
def scanColumn (x : ℕ) : List MapLocation → ℕ → MapLocation → MapLocation → ℕ × MapLocation × MapLocation
  | [], i, minPt, maxPt => (i, minPt, maxPt)
  | c :: rest, i, minPt, maxPt =>
      if c.x = x then
        if c.y < minPt.y then scanColumn x rest (i + 1) c maxPt
        else if maxPt.y < c.y then scanColumn x rest (i + 1) minPt c
        else scanColumn x rest (i + 1) minPt maxPt
      else (i, minPt, maxPt)

def columnCells (x y0 y1 : ℕ) : List MapLocation := (List.range (y1 + 1 - y0)).map fun k => ⟨x, y0 + k⟩

/-- 列 `x` から `n` 列を塗る繰り返し。塗った升目は、読んでいる列の後ろに加わる。上の端が `unsigned int` の最大の値であれば、
列の升目の繰り返しは終わらない。 -/
def fillColumns : ℕ → ℕ → ℕ → List MapLocation → Option (List MapLocation)
  | 0, _, _, cells => some cells
  | n + 1, x, i, cells =>
      match cells[i]?, cells[i + 1]? with
      | some a, some b =>
          let ends := if a.y < b.y then (a, b) else (b, a)
          let scanned := scanColumn x (cells.drop (i + 2)) (i + 2) ends.1 ends.2
          if scanned.2.2.y = 4294967295 then none
          else fillColumns n (x + 1) scanned.1 (cells ++ columnCells x scanned.2.1.y scanned.2.2.y)
      | _, _ => some cells

/-- 番号が `unsigned int` に収まる。升目が丁度 2 の 32 乗個あり、列が一つであれば、その列の終わりで番号が 0 に戻る。 -/
def IndexFits (cells : List MapLocation) : Prop :=
  cells.length < 4294967296 ∨ (cells.length = 4294967296 ∧ ∃ a ∈ cells, ∃ b ∈ cells, a.x ≠ b.x)

instance (cells : List MapLocation) : Decidable (IndexFits cells) := inferInstanceAs (Decidable (_ ∨ _))

namespace Costmap2D

variable {K : Type*} [Field K]

/-- 一つの辺で `PolygonOutlineCells` が加える升目。 -/
noncomputable def lineCells (g : Costmap2D K) (a b : MapLocation) : List MapLocation :=
  (raytraceLine int32 g.sizeX a.x a.y b.x b.y 4294967295 0).map g.indexToCells

noncomputable def polygonOutlineCells (g : Costmap2D K) (polygon : List MapLocation) : List MapLocation :=
  ((List.range (polygon.length - 1)).flatMap fun i => g.lineCells (vertex polygon i) (vertex polygon (i + 1))) ++
    if polygon = [] then [] else g.lineCells (vertex polygon (polygon.length - 1)) (vertex polygon 0)

/-- `none` は、繰り返しが終わらないか、空の輪郭を読むことを表す。 -/
noncomputable def convexFillCells (g : Costmap2D K) (polygon : List MapLocation) : Option (List MapLocation) :=
  if polygon.length < 3 then some []
  else if IndexFits (g.polygonOutlineCells polygon) then do
    let cells ← adjacentSort MapLocation.x (g.polygonOutlineCells polygon)
    let first ← cells.head?
    let last ← cells.getLast?
    fillColumns (last.x + 1 - first.x) first.x 0 cells
  else none

end Costmap2D

/-! ## 性質 -/

/-- 升目が、その列にある二つの升目のあいだにある。 -/
def Spanned (cells : List MapLocation) (c : MapLocation) : Prop :=
  ∃ a ∈ cells, ∃ b ∈ cells, a.x = c.x ∧ b.x = c.x ∧ a.y ≤ c.y ∧ c.y ≤ b.y

/-- 升目 `a` から `b` まで、地図の中の隣の升目へ続く道。 -/
structure Costmap2D.IsWalk {K : Type*} (g : Costmap2D K) (a b : MapLocation) (cells : List MapLocation) : Prop where
  first : cells.head? = some a
  last : cells.getLast? = some b
  inside : ∀ c ∈ cells, g.Contains c
  adjacent : cells.IsChain Adjacent

/-- 輪郭は頂点を結ぶ閉じた道で、`cells` は、輪郭の列ごとに、下の端から上の端までの升目である。 -/
structure Costmap2D.Fills {K : Type*} (g : Costmap2D K) (polygon cells : List MapLocation) : Prop where
  walks : ∀ i < polygon.length, g.IsWalk (vertex polygon i) (vertex polygon ((i + 1) % polygon.length))
    (g.lineCells (vertex polygon i) (vertex polygon ((i + 1) % polygon.length)))
  columns : ∀ c, c ∈ cells ↔ Spanned (g.polygonOutlineCells polygon) c
  outline : g.polygonOutlineCells polygon ⊆ cells
  unbroken : ∀ a ∈ g.polygonOutlineCells polygon, ∀ b ∈ g.polygonOutlineCells polygon, ∀ x, a.x ≤ x → x ≤ b.x →
    ∃ c ∈ g.polygonOutlineCells polygon, c.x = x

/-! ## 輪郭の条件 -/

/-- 座標の差が `int` に収まる。 -/
def FitsInt (a b : MapLocation) : Prop :=
  (-2147483648 ≤ (b.x : ℤ) - a.x ∧ (b.x : ℤ) - a.x < 2147483648) ∧
    -2147483648 ≤ (b.y : ℤ) - a.y ∧ (b.y : ℤ) - a.y < 2147483648

instance (a b : MapLocation) : Decidable (FitsInt a b) := inferInstanceAs (Decidable (_ ∧ _))

/-- どの辺の差も `int` に収まる。 -/
def EdgesFit (polygon : List MapLocation) : Prop :=
  ∀ i < polygon.length, FitsInt (vertex polygon i) (vertex polygon ((i + 1) % polygon.length))

/-- 辺の走査の、升目の数。 -/
def edgeLength (polygon : List MapLocation) (i : ℕ) : ℕ :=
  traceLength (vertex polygon i).x (vertex polygon i).y (vertex polygon ((i + 1) % polygon.length)).x
    (vertex polygon ((i + 1) % polygon.length)).y + 1

instance (polygon : List MapLocation) : Decidable (EdgesFit polygon) := inferInstanceAs (Decidable (∀ _ < _, _))

def outlineLength (polygon : List MapLocation) : ℕ := ((List.range polygon.length).map (edgeLength polygon)).sum

/-- 輪郭の升目の番号が `unsigned int` に収まる。 -/
def OutlineFits (polygon : List MapLocation) : Prop :=
  outlineLength polygon < 4294967296 ∨
    (outlineLength polygon = 4294967296 ∧ ∃ v ∈ polygon, ∃ w ∈ polygon, v.x ≠ w.x)

instance (polygon : List MapLocation) : Decidable (OutlineFits polygon) := inferInstanceAs (Decidable (_ ∨ _))

/-! ## 一列の両端 -/

/-- 升目の列の、上下の端。 -/
structure ColumnEnds (cells : List MapLocation) (minPt maxPt : MapLocation) : Prop where
  min_mem : minPt ∈ cells
  max_mem : maxPt ∈ cells
  between : ∀ c ∈ cells, minPt.y ≤ c.y ∧ c.y ≤ maxPt.y

theorem columnEnds_pair (a b : MapLocation) :
    ColumnEnds [a, b] (if a.y < b.y then (a, b) else (b, a)).1 (if a.y < b.y then (a, b) else (b, a)).2 := by
  split_ifs with h
  · refine ⟨by simp, by simp, fun c hc => ?_⟩
    rcases List.mem_pair.mp hc with rfl | rfl
    · exact ⟨Nat.le_refl _, h.le⟩
    · exact ⟨h.le, Nat.le_refl _⟩
  · have hle := Nat.not_lt.mp h
    refine ⟨by simp, by simp, fun c hc => ?_⟩
    rcases List.mem_pair.mp hc with rfl | rfl
    · exact ⟨hle, Nat.le_refl _⟩
    · exact ⟨Nat.le_refl _, hle⟩

theorem ColumnEnds.append {seen : List MapLocation} {minPt maxPt minPt' maxPt' c : MapLocation}
    (h : ColumnEnds seen minPt maxPt) (hmin : minPt' = minPt ∨ minPt' = c) (hmax : maxPt' = maxPt ∨ maxPt' = c)
    (hlo : minPt'.y ≤ minPt.y) (hhi : maxPt.y ≤ maxPt'.y) (hc : minPt'.y ≤ c.y ∧ c.y ≤ maxPt'.y) :
    ColumnEnds (seen ++ [c]) minPt' maxPt' := by
  refine ⟨?_, ?_, fun d hd => ?_⟩
  · rcases hmin with rfl | rfl
    · exact List.mem_append_left _ h.min_mem
    · simp
  · rcases hmax with rfl | rfl
    · exact List.mem_append_left _ h.max_mem
    · simp
  · rcases List.mem_append.mp hd with hd | hd
    · exact ⟨hlo.trans (h.between d hd).1, (h.between d hd).2.trans hhi⟩
    · rw [List.mem_singleton.mp hd]
      exact hc

/-- 列の残りを読み終えると、列の全体の両端が得られる。 -/
theorem scanColumn_spec {x : ℕ} {column tail : List MapLocation} (hcolumn : ∀ c ∈ column, c.x = x)
    (htail : ∀ c ∈ tail, c.x ≠ x) {seen : List MapLocation} {minPt maxPt : MapLocation}
    (h : ColumnEnds seen minPt maxPt) (i : ℕ) :
    (scanColumn x (column ++ tail) i minPt maxPt).1 = i + column.length ∧
      ColumnEnds (seen ++ column) (scanColumn x (column ++ tail) i minPt maxPt).2.1
        (scanColumn x (column ++ tail) i minPt maxPt).2.2 := by
  induction column generalizing seen i minPt maxPt with
  | nil =>
      rw [List.append_nil, List.nil_append]
      cases tail with
      | nil => exact ⟨rfl, h⟩
      | cons c tail =>
          have hne := htail c List.mem_cons_self
          simp only [scanColumn, if_neg hne]
          exact ⟨rfl, h⟩
  | cons c column ih =>
      have hx := hcolumn c List.mem_cons_self
      have hrest : ∀ d ∈ column, d.x = x := fun d hd => hcolumn d (List.mem_cons_of_mem c hd)
      have hends := (h.between minPt h.min_mem).2
      have hlength : i + (c :: column).length = i + 1 + column.length := by
        rw [List.length_cons]
        omega
      have happend : seen ++ c :: column = seen ++ [c] ++ column := by simp
      rw [List.cons_append, hlength, happend]
      unfold scanColumn
      rw [if_pos hx]
      split_ifs with hlow hhigh
      · exact ih hrest (h.append (Or.inr rfl) (Or.inl rfl) hlow.le (Nat.le_refl _)
          ⟨Nat.le_refl _, by omega⟩) (i + 1)
      · exact ih hrest (h.append (Or.inl rfl) (Or.inr rfl) (Nat.le_refl _) hhigh.le
          ⟨by omega, Nat.le_refl _⟩) (i + 1)
      · exact ih hrest (h.append (Or.inl rfl) (Or.inl rfl) (Nat.le_refl _) (Nat.le_refl _)
          ⟨Nat.not_lt.mp hlow, Nat.not_lt.mp hhigh⟩) (i + 1)

theorem mem_columnCells {x y0 y1 : ℕ} {c : MapLocation} :
    c ∈ columnCells x y0 y1 ↔ c.x = x ∧ y0 ≤ c.y ∧ c.y ≤ y1 := by
  simp only [columnCells, List.mem_map, List.mem_range]
  constructor
  · rintro ⟨k, hk, rfl⟩
    dsimp only
    omega
  · rintro ⟨hx, hlo, hhi⟩
    obtain ⟨cx, cy⟩ := c
    dsimp only at hx hlo hhi
    exact ⟨cy - y0, by omega, by rw [hx, Nat.add_sub_cancel' hlo]⟩

/-! ## 列ごとの塗りつぶし -/

theorem spanned_of_mem {cells : List MapLocation} {c : MapLocation} (h : c ∈ cells) : Spanned cells c :=
  ⟨c, h, c, h, rfl, rfl, Nat.le_refl _, Nat.le_refl _⟩

theorem Spanned.mono {cells cells' : List MapLocation} {c : MapLocation} (h : Spanned cells c) (hsub : cells ⊆ cells') :
    Spanned cells' c := by
  obtain ⟨a, ha, b, hb, hspan⟩ := h
  exact ⟨a, hsub ha, b, hsub hb, hspan⟩

/-- 列の順に並んだ升目から、初めの列を分ける。 -/
theorem exists_column {x : ℕ} {cells : List MapLocation} (hsorted : cells.Pairwise fun a b => a.x ≤ b.x)
    (hlo : ∀ c ∈ cells, x ≤ c.x) :
    ∃ column rest, cells = column ++ rest ∧ (∀ c ∈ column, c.x = x) ∧ ∀ c ∈ rest, x + 1 ≤ c.x := by
  induction cells with
  | nil => exact ⟨[], [], rfl, by simp, by simp⟩
  | cons a cells ih =>
      obtain ⟨hfirst, htail⟩ := List.pairwise_cons.mp hsorted
      rcases Nat.eq_or_lt_of_le (hlo a List.mem_cons_self) with heq | hlt
      · obtain ⟨column, rest, rfl, hcolumn, hrest⟩ := ih htail fun c hc => hlo c (List.mem_cons_of_mem a hc)
        refine ⟨a :: column, rest, rfl, fun c hc => ?_, hrest⟩
        rcases List.mem_cons.mp hc with rfl | hc
        · exact heq.symm
        · exact hcolumn c hc
      · refine ⟨[], a :: cells, rfl, by simp, fun c hc => ?_⟩
        rcases List.mem_cons.mp hc with rfl | hc
        · exact hlt
        · exact hlt.trans_le (hfirst c hc)

/-- 列の順に並んだ升目の、初めと終わり。 -/
theorem exists_ends {cells : List MapLocation} (hne : cells ≠ []) (hsorted : cells.Pairwise fun a b => a.x ≤ b.x) :
    ∃ first ∈ cells, ∃ last ∈ cells, cells.head? = some first ∧ cells.getLast? = some last ∧
      ∀ c ∈ cells, first.x ≤ c.x ∧ c.x ≤ last.x := by
  have hlo : ∀ c ∈ cells, (cells.head hne).x ≤ c.x := by
    intro c hc
    cases cells with
    | nil => exact absurd rfl hne
    | cons first cells =>
        rcases List.mem_cons.mp hc with rfl | hc
        · exact Nat.le_refl _
        · exact (List.pairwise_cons.mp hsorted).1 c hc
  have hhi : ∀ c ∈ cells, c.x ≤ (cells.getLast hne).x := by
    intro c hc
    rw [← List.dropLast_append_getLast hne] at hc hsorted
    rcases List.mem_append.mp hc with hc | hc
    · exact (List.pairwise_append.mp hsorted).2.2 c hc _ (List.mem_singleton.mpr rfl)
    · rw [List.mem_singleton.mp hc]
  exact ⟨cells.head hne, List.head_mem hne, cells.getLast hne, List.getLast_mem hne, List.head?_eq_some_head hne,
    List.getLast?_eq_some_getLast hne, fun c hc => ⟨hlo c hc, hhi c hc⟩⟩

theorem fillColumns_cons {n x : ℕ} (pre after : List MapLocation) (a b : MapLocation)
    (hy : (scanColumn x after (pre.length + 2) (if a.y < b.y then (a, b) else (b, a)).1
      (if a.y < b.y then (a, b) else (b, a)).2).2.2.y ≠ 4294967295) :
    fillColumns (n + 1) x pre.length (pre ++ a :: b :: after) =
      fillColumns n (x + 1)
        (scanColumn x after (pre.length + 2) (if a.y < b.y then (a, b) else (b, a)).1
          (if a.y < b.y then (a, b) else (b, a)).2).1
        (pre ++ a :: b :: after ++
          columnCells x
            (scanColumn x after (pre.length + 2) (if a.y < b.y then (a, b) else (b, a)).1
              (if a.y < b.y then (a, b) else (b, a)).2).2.1.y
            (scanColumn x after (pre.length + 2) (if a.y < b.y then (a, b) else (b, a)).1
              (if a.y < b.y then (a, b) else (b, a)).2).2.2.y) := by
  have hfirst : (pre ++ a :: b :: after)[pre.length]? = some a := by simp
  have hsecond : (pre ++ a :: b :: after)[pre.length + 1]? = some b := by
    rw [List.getElem?_append_right (by omega), Nat.add_sub_cancel_left]
    rfl
  have hdrop : (pre ++ a :: b :: after).drop (pre.length + 2) = after := by
    rw [List.drop_append, List.drop_of_length_le (by omega), Nat.add_sub_cancel_left]
    rfl
  simp only [fillColumns, hfirst, hsecond, hdrop, if_neg hy]

theorem fillColumns_column (n : ℕ) {x : ℕ} (pre : List MapLocation) {column after : List MapLocation}
    (hlength : 2 ≤ column.length) (hy : ∀ c ∈ column, c.y < 4294967295)
    (hcolumn : ∀ c ∈ column, c.x = x) (hafter : ∀ c ∈ after, c.x ≠ x) :
    ∃ minPt maxPt, ColumnEnds column minPt maxPt ∧
      fillColumns (n + 1) x pre.length (pre ++ column ++ after) =
        fillColumns n (x + 1) (pre ++ column).length (pre ++ column ++ after ++ columnCells x minPt.y maxPt.y) := by
  match column, hlength, hy with
  | a :: b :: column', _, hy =>
      have hrest : ∀ d ∈ column', d.x = x := fun d hd =>
        hcolumn d (List.mem_cons_of_mem a (List.mem_cons_of_mem b hd))
      obtain ⟨hnext, hends⟩ := scanColumn_spec hrest hafter (columnEnds_pair a b) (pre.length + 2)
      have hcells : pre ++ a :: b :: column' ++ after = pre ++ a :: b :: (column' ++ after) := by simp
      have hindex : (pre ++ a :: b :: column').length = pre.length + 2 + column'.length := by
        simp only [List.length_append, List.length_cons]
        omega
      refine ⟨_, _, hends, ?_⟩
      rw [hcells, fillColumns_cons pre _ a b (hy _ hends.max_mem).ne, hnext, hindex]

/-- 読み終えた升目 `pre`、残りの升目 `rest`、加えた升目 `filled` に分けた、塗りつぶしの結果。 -/
theorem mem_fillColumns {n x : ℕ} {pre rest filled : List MapLocation}
    (hsorted : rest.Pairwise fun a b => a.x ≤ b.x) (hlo : ∀ c ∈ rest, x ≤ c.x) (hfilled : ∀ c ∈ filled, c.x < x)
    (hy : ∀ c ∈ rest, c.y < 4294967295)
    (htwice : ∀ y, x ≤ y → y < x + n → 2 ≤ rest.countP fun c => c.x = y) :
    ∃ cells, fillColumns n x pre.length (pre ++ (rest ++ filled)) = some cells ∧ ∀ c, c ∈ cells ↔
      c ∈ pre ++ (rest ++ filled) ∨ (c.x < x + n ∧ Spanned rest c) := by
  induction n generalizing x pre rest filled with
  | zero =>
      refine ⟨_, rfl, fun c => ?_⟩
      rw [Nat.add_zero]
      constructor
      · exact Or.inl
      · rintro (h | ⟨hlt, a, ha, -, -, heq, -⟩)
        · exact h
        · have hle := hlo a ha
          omega
  | succ n ih =>
      obtain ⟨column, rest', rfl, hcolumn, hrest'⟩ := exists_column hsorted hlo
      have hother : ∀ y, x + 1 ≤ y → column.countP (fun c => c.x = y) = 0 := by
        intro y hy
        rw [List.countP_eq_zero]
        intro d hd
        rw [decide_eq_true_eq, hcolumn d hd]
        omega
      have hnone : rest'.countP (fun c => c.x = x) = 0 := by
        rw [List.countP_eq_zero]
        intro d hd
        have hd' := hrest' d hd
        rw [decide_eq_true_eq]
        omega
      have hcount := htwice x (Nat.le_refl x) (by omega)
      rw [List.countP_append, hnone, Nat.add_zero] at hcount
      have hafter : ∀ d ∈ rest' ++ filled, d.x ≠ x := by
        intro d hd
        rcases List.mem_append.mp hd with hd | hd
        · have hd' := hrest' d hd
          omega
        · exact (hfilled d hd).ne
      obtain ⟨minPt, maxPt, hends, hstep⟩ := fillColumns_column n pre (hcount.trans List.countP_le_length)
        (fun c hc => hy c (List.mem_append_left rest' hc)) hcolumn hafter
      have hfilled' : ∀ d ∈ filled ++ columnCells x minPt.y maxPt.y, d.x < x + 1 := by
        intro d hd
        rcases List.mem_append.mp hd with hd | hd
        · exact (hfilled d hd).trans (Nat.lt_succ_self x)
        · rw [(mem_columnCells.mp hd).1]
          exact Nat.lt_succ_self x
      have htwice' : ∀ y, x + 1 ≤ y → y < x + 1 + n → 2 ≤ rest'.countP fun c => c.x = y := by
        intro y hle hlt
        have hcount' := htwice y (by omega) (by omega)
        rwa [List.countP_append, hother y hle, Nat.zero_add] at hcount'
      obtain ⟨cells, hfill, hnext⟩ : ∃ cells, fillColumns n (x + 1) (pre ++ column).length
          (pre ++ column ++ (rest' ++ (filled ++ columnCells x minPt.y maxPt.y))) = some cells ∧ _ :=
        ih (List.pairwise_append.mp hsorted).2.1 hrest' hfilled' (fun c hc => hy c (List.mem_append_right column hc))
          htwice'
      have hcells : pre ++ (column ++ rest' ++ filled) = pre ++ column ++ (rest' ++ filled) := by
        simp only [List.append_assoc]
      have hgrown : pre ++ column ++ (rest' ++ filled) ++ columnCells x minPt.y maxPt.y =
          pre ++ column ++ (rest' ++ (filled ++ columnCells x minPt.y maxPt.y)) := by
        simp only [List.append_assoc]
      refine ⟨cells, ?_, fun c => ?_⟩
      · rw [hcells, hstep, hgrown, hfill]
      rw [hcells, hnext, ← hgrown, List.mem_append, mem_columnCells, or_assoc]
      apply or_congr_right
      constructor
      · rintro (⟨hx, hmin, hmax⟩ | ⟨hlt, hspan⟩)
        · refine ⟨by omega, minPt, ?_, maxPt, ?_, ?_, ?_, hmin, hmax⟩
          · exact List.mem_append_left _ hends.min_mem
          · exact List.mem_append_left _ hends.max_mem
          · rw [hcolumn minPt hends.min_mem, hx]
          · rw [hcolumn maxPt hends.max_mem, hx]
        · exact ⟨by omega, hspan.mono (List.subset_append_right _ _)⟩
      · rintro ⟨hlt, a, ha, b, hb, hax, hbx, hay, hby⟩
        -- 列 `x` の升目は両端のあいだにあり、その先の列の升目は残りの升目のあいだにある。
        rcases Nat.eq_or_lt_of_le (hax ▸ hlo a ha) with heq | hgt
        · have hin : ∀ d ∈ column ++ rest', d.x = c.x → d ∈ column := by
            intro d hd hdx
            rcases List.mem_append.mp hd with hd | hd
            · exact hd
            · have hd' := hrest' d hd
              omega
          exact Or.inl ⟨heq.symm, (hends.between a (hin a ha hax)).1.trans hay,
            hby.trans (hends.between b (hin b hb hbx)).2⟩
        · have hin : ∀ d ∈ column ++ rest', d.x = c.x → d ∈ rest' := by
            intro d hd hdx
            rcases List.mem_append.mp hd with hd | hd
            · have hd' := hcolumn d hd
              omega
            · exact hd
          exact Or.inr ⟨by omega, a, hin a ha hax, b, hin b hb hbx, hax, hbx, hay, hby⟩

/-! ## 輪郭 -/

/-- 二つの添字の項が、それぞれ条件を満たす要素を持つ。 -/
theorem two_le_countP_flatMap {α : Type*} {f : ℕ → List α} {p : α → Bool} {m i j : ℕ} (hij : i < j) (hj : j < m)
    (hi : ∃ a ∈ f i, p a) (hjp : ∃ a ∈ f j, p a) : 2 ≤ ((List.range m).flatMap f).countP p := by
  obtain ⟨d, rfl⟩ := Nat.exists_eq_add_of_lt hj
  have hleft : 0 < ((List.range j).flatMap f).countP p := by
    obtain ⟨a, ha, hpa⟩ := hi
    exact List.countP_pos_iff.mpr ⟨a, List.mem_flatMap.mpr ⟨i, List.mem_range.mpr hij, ha⟩, hpa⟩
  have hright : 0 < (((List.range (d + 1)).map (j + ·)).flatMap f).countP p := by
    obtain ⟨a, ha, hpa⟩ := hjp
    refine List.countP_pos_iff.mpr ⟨a, List.mem_flatMap.mpr ⟨j, ?_, ha⟩, hpa⟩
    exact List.mem_map.mpr ⟨0, List.mem_range.mpr (Nat.succ_pos d), Nat.add_zero j⟩
  rw [Nat.add_assoc, List.range_add, List.flatMap_append, List.countP_append]
  omega

section Cycle

variable {m : ℕ} {f : ℕ → ℤ} {x : ℤ}

/-- 一周する列は、下の値から上の値へ行くあいだに、どこかで `x` を上へ越える。 -/
theorem exists_cycle_up {p q : ℕ} (hp : p < m) (hq : q < m) (hlo : f p ≤ x) (hhi : x < f q) :
    ∃ i < m, f i ≤ x ∧ x < f ((i + 1) % m) := by
  have hpos : 0 < m := Nat.zero_lt_of_lt hp
  have hstart : f ((p + 0) % m) ≤ x := by
    rwa [Nat.add_zero, Nat.mod_eq_of_lt hp]
  have hend : x < f ((p + (q + (m - p))) % m) := by
    have hround : p + (q + (m - p)) = q + m := by omega
    rwa [hround, Nat.add_mod_right, Nat.mod_eq_of_lt hq]
  obtain ⟨k, -, hbelow, habove⟩ : ∃ k < q + (m - p), f ((p + k) % m) ≤ x ∧ x < f ((p + (k + 1)) % m) :=
    exists_crossing hstart hend
  refine ⟨(p + k) % m, Nat.mod_lt _ hpos, hbelow, ?_⟩
  rwa [Nat.mod_add_mod, Nat.add_assoc]

/-- 一周する列が値 `x` の上下にわたるとき、少なくとも二つの辺が `x` にかかる。 -/
theorem exists_two_edges (hm : 2 ≤ m) {p q : ℕ} (hp : p < m) (hq : q < m) (hlo : f p ≤ x) (hhi : x ≤ f q) :
    ∃ i j, i < j ∧ j < m ∧ (min (f i) (f ((i + 1) % m)) ≤ x ∧ x ≤ max (f i) (f ((i + 1) % m))) ∧
      min (f j) (f ((j + 1) % m)) ≤ x ∧ x ≤ max (f j) (f ((j + 1) % m)) := by
  suffices h : ∃ i < m, ∃ j < m, i ≠ j ∧ (min (f i) (f ((i + 1) % m)) ≤ x ∧ x ≤ max (f i) (f ((i + 1) % m))) ∧
      min (f j) (f ((j + 1) % m)) ≤ x ∧ x ≤ max (f j) (f ((j + 1) % m)) by
    obtain ⟨i, hi, j, hj, hne, hfi, hfj⟩ := h
    rcases Nat.lt_or_gt_of_ne hne with hlt | hgt
    · exact ⟨i, j, hlt, hj, hfi, hfj⟩
    · exact ⟨j, i, hgt, hi, hfj, hfi⟩
  by_cases hvertex : ∃ v < m, f v = x
  · -- 頂点が `x` にあれば、その前後の辺がかかる。
    obtain ⟨v, hv, rfl⟩ := hvertex
    have hback : ((v + (m - 1)) % m + 1) % m = v := by
      rw [Nat.mod_add_mod, Nat.add_assoc, Nat.sub_add_cancel (by omega), Nat.add_mod_right, Nat.mod_eq_of_lt hv]
    have hne : v ≠ (v + (m - 1)) % m := by
      intro heq
      rw [← heq] at hback
      rcases Nat.lt_or_ge (v + 1) m with hlt | hge
      · rw [Nat.mod_eq_of_lt hlt] at hback
        omega
      · have hlast : v + 1 = m := by omega
        rw [hlast, Nat.mod_self] at hback
        omega
    refine ⟨v, hv, (v + (m - 1)) % m, Nat.mod_lt _ (by omega), hne, ⟨min_le_left _ _, le_max_left _ _⟩, ?_⟩
    rw [hback]
    exact ⟨min_le_right _ _, le_max_right _ _⟩
  · -- 頂点が `x` になければ、上へ越える辺と下へ越える辺がある。
    have hne : ∀ v < m, f v ≠ x := fun v hv heq => hvertex ⟨v, hv, heq⟩
    obtain ⟨i, hi, hiLo, hiHi⟩ := exists_cycle_up hp hq hlo (lt_of_le_of_ne hhi (hne q hq).symm)
    obtain ⟨j, hj, hjHi, hjLo⟩ : ∃ j < m, -f j ≤ -x ∧ -x < -f ((j + 1) % m) :=
      exists_cycle_up hq hp (neg_le_neg hhi) (neg_lt_neg (lt_of_le_of_ne hlo (hne p hp)))
    have hjHi' := neg_le_neg_iff.mp hjHi
    have hjLo' := neg_lt_neg_iff.mp hjLo
    refine ⟨i, hi, j, hj, ?_, ⟨min_le_of_left_le hiLo, le_max_of_le_right hiHi.le⟩,
      min_le_of_right_le hjLo'.le, le_max_of_le_left hjHi'⟩
    rintro rfl
    exact hne i hi (le_antisymm hiLo hjHi')

end Cycle

namespace Costmap2D

variable {K : Type*} [Field K] {g : Costmap2D K} {polygon : List MapLocation}

theorem vertex_mem {i : ℕ} (hi : i < polygon.length) : vertex polygon i ∈ polygon := by
  rw [vertex, List.getD_eq_getElem?_getD, List.getElem?_eq_getElem hi, Option.getD_some]
  exact List.getElem_mem hi

variable [LinearOrder K]

/-- 辺の升目は、始めの頂点から終わりの頂点までの走査である。 -/
theorem lineCells_eq (hg : g.Valid) {a b : MapLocation} (ha : g.Contains a) (hb : g.Contains b) (hfit : FitsInt a b) :
    g.lineCells a b = (List.range (traceLength a.x a.y b.x b.y + 1)).map (traceCell a.x a.y b.x b.y) := by
  have hx : max a.x b.x < g.sizeX := max_lt ha.1 hb.1
  rw [lineCells, raytraceLine_full (int32_eq_self_iff.mpr hfit.1) (int32_eq_self_iff.mpr hfit.2) hx (max_lt ha.2 hb.2)
    hg.area, List.map_map]
  apply List.map_congr_left
  intro k hk
  have hbetween := traceCell_between (Nat.lt_succ_iff.mp (List.mem_range.mp hk))
  exact indexToCells_index (hbetween.1.2.trans_lt hx)

omit [Field K] [LinearOrder K] in
/-- 輪郭は、頂点を一周する辺の升目を続けたものである。 -/
theorem polygonOutlineCells_eq (hne : polygon ≠ []) :
    g.polygonOutlineCells polygon = (List.range polygon.length).flatMap fun i =>
      g.lineCells (vertex polygon i) (vertex polygon ((i + 1) % polygon.length)) := by
  have hpos := List.length_pos_iff.mpr hne
  have hsucc : polygon.length = polygon.length - 1 + 1 := by omega
  have hedges : ((List.range (polygon.length - 1)).flatMap fun i =>
      g.lineCells (vertex polygon i) (vertex polygon (i + 1))) =
      (List.range (polygon.length - 1)).flatMap fun i =>
        g.lineCells (vertex polygon i) (vertex polygon ((i + 1) % polygon.length)) := by
    apply List.flatMap_congr
    intro i hi
    have hlt := List.mem_range.mp hi
    rw [Nat.mod_eq_of_lt (by omega : i + 1 < polygon.length)]
  have hrange : List.range polygon.length = List.range (polygon.length - 1) ++ [polygon.length - 1] := by
    conv_lhs => rw [hsucc]
    exact List.range_succ
  rw [polygonOutlineCells, if_neg hne, hedges, hrange, List.flatMap_append, List.flatMap_singleton]
  simp only [← hsucc, Nat.mod_self]

omit [Field K] [LinearOrder K] in
/-- 輪郭の升目は、ある辺の走査の升目である。 -/
theorem mem_polygonOutlineCells {c : MapLocation} :
    c ∈ g.polygonOutlineCells polygon ↔
      ∃ i < polygon.length, c ∈ g.lineCells (vertex polygon i) (vertex polygon ((i + 1) % polygon.length)) := by
  rcases List.eq_nil_or_concat polygon with rfl | ⟨front, v, rfl⟩
  · simp [polygonOutlineCells]
  · rw [polygonOutlineCells_eq (by simp)]
    simp only [List.mem_flatMap, List.mem_range]

theorem mem_lineCells (hg : g.Valid) {a b c : MapLocation} (ha : g.Contains a) (hb : g.Contains b)
    (hfit : FitsInt a b) (hc : c ∈ g.lineCells a b) :
    (min a.x b.x ≤ c.x ∧ c.x ≤ max a.x b.x) ∧ min a.y b.y ≤ c.y ∧ c.y ≤ max a.y b.y := by
  rw [lineCells_eq hg ha hb hfit] at hc
  obtain ⟨k, hk, rfl⟩ := List.mem_map.mp hc
  exact traceCell_between (Nat.lt_succ_iff.mp (List.mem_range.mp hk))

theorem exists_lineCells_x (hg : g.Valid) {a b : MapLocation} (ha : g.Contains a) (hb : g.Contains b)
    (hfit : FitsInt a b) {x : ℕ} (hlo : min a.x b.x ≤ x) (hhi : x ≤ max a.x b.x) :
    ∃ c ∈ g.lineCells a b, c.x = x := by
  obtain ⟨k, hk, hx⟩ := exists_traceCell_x hlo hhi
  rw [lineCells_eq hg ha hb hfit]
  exact ⟨_, List.mem_map.mpr ⟨k, List.mem_range.mpr (Nat.lt_succ_of_le hk), rfl⟩, hx⟩

omit [Field K] [LinearOrder K] in
theorem contains_vertex (hin : ∀ v ∈ polygon, g.Contains v) {i : ℕ} (hi : i < polygon.length) :
    g.Contains (vertex polygon i) ∧ g.Contains (vertex polygon ((i + 1) % polygon.length)) :=
  ⟨hin _ (vertex_mem hi), hin _ (vertex_mem (Nat.mod_lt _ (Nat.zero_lt_of_lt hi)))⟩

/-- 輪郭の升目の前後に、頂点がある。 -/
theorem exists_vertex_x (hg : g.Valid) (hin : ∀ v ∈ polygon, g.Contains v) (hfit : EdgesFit polygon) {c : MapLocation}
    (hc : c ∈ g.polygonOutlineCells polygon) :
    (∃ p < polygon.length, (vertex polygon p).x ≤ c.x) ∧ ∃ q < polygon.length, c.x ≤ (vertex polygon q).x := by
  obtain ⟨i, hi, hline⟩ := mem_polygonOutlineCells.mp hc
  obtain ⟨ha, hb⟩ := contains_vertex hin hi
  have hnext := Nat.mod_lt (i + 1) (Nat.zero_lt_of_lt hi)
  obtain ⟨⟨hmin, hmax⟩, -⟩ := mem_lineCells hg ha hb (hfit i hi) hline
  constructor
  · rcases min_le_iff.mp hmin with h | h
    · exact ⟨i, hi, h⟩
    · exact ⟨_, hnext, h⟩
  · rcases le_max_iff.mp hmax with h | h
    · exact ⟨i, hi, h⟩
    · exact ⟨_, hnext, h⟩

/-- 輪郭は、両端のあいだのどの列も二度通る。 -/
theorem two_le_column (hg : g.Valid) (hin : ∀ v ∈ polygon, g.Contains v) (hfit : EdgesFit polygon)
    (hlength : 2 ≤ polygon.length) {a b : MapLocation} (ha : a ∈ g.polygonOutlineCells polygon) (hb : b ∈ g.polygonOutlineCells polygon) {x : ℕ}
    (hlo : a.x ≤ x) (hhi : x ≤ b.x) : 2 ≤ (g.polygonOutlineCells polygon).countP fun c => c.x = x := by
  obtain ⟨p, hp, hpx⟩ := (exists_vertex_x hg hin hfit ha).1
  obtain ⟨q, hq, hqx⟩ := (exists_vertex_x hg hin hfit hb).2
  obtain ⟨i, j, hij, hj, hi', hj'⟩ : ∃ i j, i < j ∧ j < polygon.length ∧
      (min ((vertex polygon i).x : ℤ) (vertex polygon ((i + 1) % polygon.length)).x ≤ x ∧
        x ≤ max ((vertex polygon i).x : ℤ) (vertex polygon ((i + 1) % polygon.length)).x) ∧
      min ((vertex polygon j).x : ℤ) (vertex polygon ((j + 1) % polygon.length)).x ≤ x ∧
        x ≤ max ((vertex polygon j).x : ℤ) (vertex polygon ((j + 1) % polygon.length)).x :=
    exists_two_edges hlength hp hq (by exact_mod_cast hpx.trans hlo) (by exact_mod_cast hhi.trans hqx)
  have hedge : ∀ k < polygon.length,
      (min ((vertex polygon k).x : ℤ) (vertex polygon ((k + 1) % polygon.length)).x ≤ x ∧
        x ≤ max ((vertex polygon k).x : ℤ) (vertex polygon ((k + 1) % polygon.length)).x) →
      ∃ c ∈ g.lineCells (vertex polygon k) (vertex polygon ((k + 1) % polygon.length)), decide (c.x = x) := by
    rintro k hk ⟨hmin, hmax⟩
    obtain ⟨hv, hw⟩ := contains_vertex hin hk
    obtain ⟨c, hc, hx⟩ := exists_lineCells_x hg hv hw (hfit k hk) (by exact_mod_cast hmin) (by exact_mod_cast hmax)
    exact ⟨c, hc, decide_eq_true hx⟩
  have hne : polygon ≠ [] := List.length_pos_iff.mp (by omega)
  rw [polygonOutlineCells_eq hne]
  exact two_le_countP_flatMap hij hj (hedge i (hij.trans hj) hi') (hedge j hj hj')

omit [Field K] [LinearOrder K] in
theorem vertex_mem_lineCells {a b : MapLocation} (hwalk : g.IsWalk a b (g.lineCells a b)) : a ∈ g.lineCells a b :=
  List.mem_of_mem_head? hwalk.first

/-! ## 辺の走査 -/

theorem isWalk_lineCells (hg : g.Valid) {a b : MapLocation} (ha : g.Contains a) (hb : g.Contains b)
    (hfit : FitsInt a b) : g.IsWalk a b (g.lineCells a b) := by
  refine ⟨?_, ?_, fun c hc => ?_, ?_⟩
  · rw [lineCells_eq hg ha hb hfit, List.head?_map, List.head?_range]
    simp [traceCell_zero]
  · rw [lineCells_eq hg ha hb hfit, List.range_succ, List.map_append, List.map_singleton, List.getLast?_concat,
      traceCell_length]
  · obtain ⟨⟨-, hx⟩, -, hy⟩ := mem_lineCells hg ha hb hfit hc
    exact ⟨hx.trans_lt (max_lt ha.1 hb.1), hy.trans_lt (max_lt ha.2 hb.2)⟩
  · rw [lineCells_eq hg ha hb hfit, List.isChain_map, List.isChain_range_succ]
    exact fun k hk => traceCell_adjacent hk

/-- 差が `int` に収まらない辺の走査は、地図の外に出る。 -/
theorem exists_outside (hg : g.Valid) {a b : MapLocation} (ha : g.Contains a) (hb : g.Contains b)
    (hfit : ¬ FitsInt a b) : ∃ c ∈ g.lineCells a b, ¬ g.Contains c := by
  obtain ⟨ax, ay⟩ := a
  obtain ⟨bx, bY⟩ := b
  obtain ⟨hax, hay⟩ := ha
  obtain ⟨hbx, hby⟩ := hb
  have harea := hg.area
  have hsizeX := hg.sizeX
  have hsizeY := hg.sizeY
  dsimp only at hax hay hbx hby
  have hout : ¬ g.Contains (g.indexToCells 4294967295) := by
    rintro ⟨-, hy⟩
    rw [indexToCells, Nat.div_lt_iff_lt_mul (Nat.zero_lt_of_lt hax), Nat.mul_comm] at hy
    omega
  suffices htop : 4294967295 ∈ raytraceLine int32 g.sizeX ax ay bx bY 4294967295 0 from
    ⟨_, List.mem_map.mpr ⟨_, htop, rfl⟩, hout⟩
  rw [FitsInt, not_and_or, ← int32_eq_self_iff, ← int32_eq_self_iff] at hfit
  dsimp only at hfit
  have hwide : ∀ {m n : ℕ}, m * n < 4294967296 → 2147483648 < m → n < 2 := by
    intro m n hmn hm
    by_contra hn
    have hle := Nat.mul_le_mul hm.le (Nat.not_lt.mp hn)
    omega
  have hfar : ∀ {p q m : ℕ}, p < m → q < m → int32 ((q : ℤ) - p) ≠ (q : ℤ) - p → 2147483648 < m := by
    intro p q m hp hq h
    rw [Ne, int32_eq_self_iff] at h
    omega
  rcases hfit with hx | hy
  · have hrow := hwide harea (hfar hax hbx hx)
    obtain rfl : ay = 0 := by omega
    obtain rfl : bY = 0 := by omega
    rw [raytraceLine_row g.sizeX (by omega)]
    exact top_mem_of_wrapped (by omega) (by omega) hx
  · have hcolumn := hwide (Nat.mul_comm g.sizeX g.sizeY ▸ harea) (hfar hay hby hy)
    have hone : g.sizeX = 1 := by omega
    obtain rfl : ax = 0 := by omega
    obtain rfl : bx = 0 := by omega
    have hne : int32 ((bY : ℤ) - ay) ≠ 0 := by
      intro hzero
      unfold int32 at hy hzero
      split_ifs at hy hzero <;> omega
    rw [hone, raytraceLine_column (by omega) hne]
    exact top_mem_of_wrapped (by omega) (by omega) hy

section Fits

variable (hg : g.Valid) (hin : ∀ v ∈ polygon, g.Contains v) (hfit : EdgesFit polygon)

include hg hin hfit

theorem vertex_mem_polygonOutlineCells {i : ℕ} (hi : i < polygon.length) :
    vertex polygon i ∈ g.polygonOutlineCells polygon := by
  obtain ⟨ha, hb⟩ := contains_vertex hin hi
  exact mem_polygonOutlineCells.mpr ⟨i, hi, vertex_mem_lineCells (isWalk_lineCells hg ha hb (hfit i hi))⟩

theorem contains_of_mem {c : MapLocation} (hc : c ∈ g.polygonOutlineCells polygon) : g.Contains c := by
  obtain ⟨i, hi, hline⟩ := mem_polygonOutlineCells.mp hc
  obtain ⟨ha, hb⟩ := contains_vertex hin hi
  exact (isWalk_lineCells hg ha hb (hfit i hi)).inside c hline

theorem length_polygonOutlineCells (hne : polygon ≠ []) :
    (g.polygonOutlineCells polygon).length = outlineLength polygon := by
  rw [polygonOutlineCells_eq hne, List.length_flatMap, outlineLength]
  congr 1
  apply List.map_congr_left
  intro i hi
  obtain ⟨ha, hb⟩ := contains_vertex hin (List.mem_range.mp hi)
  rw [lineCells_eq hg ha hb (hfit i (List.mem_range.mp hi)), List.length_map, List.length_range, edgeLength]

theorem indexFits_iff (hne : polygon ≠ []) : IndexFits (g.polygonOutlineCells polygon) ↔ OutlineFits polygon := by
  rw [IndexFits, OutlineFits, length_polygonOutlineCells hg hin hfit hne]
  refine or_congr_right (and_congr_right fun _ => ?_)
  constructor
  · rintro ⟨a, ha, b, hb, hab⟩
    by_contra hsame
    simp only [not_exists, not_and, not_not] at hsame
    -- 頂点が一つの列にあれば、輪郭の升目もその列にある。
    obtain ⟨v, hv⟩ := List.exists_mem_of_ne_nil polygon hne
    have hcolumn : ∀ c ∈ g.polygonOutlineCells polygon, c.x = v.x := by
      intro c hc
      obtain ⟨⟨p, hp, hlo⟩, q, hq, hhi⟩ := exists_vertex_x hg hin hfit hc
      rw [hsame _ (vertex_mem hp) v hv] at hlo
      rw [hsame _ (vertex_mem hq) v hv] at hhi
      omega
    exact hab ((hcolumn a ha).trans (hcolumn b hb).symm)
  · rintro ⟨v, hv, w, hw, hvw⟩
    obtain ⟨i, hi, rfl⟩ := List.mem_iff_getElem.mp hv
    obtain ⟨j, hj, rfl⟩ := List.mem_iff_getElem.mp hw
    refine ⟨_, vertex_mem_polygonOutlineCells hg hin hfit hi, _, vertex_mem_polygonOutlineCells hg hin hfit hj, ?_⟩
    simpa [vertex, hi, hj] using hvw

theorem polygonOutlineCells_ne_nil (hlength : 0 < polygon.length) : g.polygonOutlineCells polygon ≠ [] :=
  List.ne_nil_of_mem (vertex_mem_polygonOutlineCells hg hin hfit hlength)

end Fits

/-! ## 塗りつぶしの結果 -/

/-- 差と番号が収まる輪郭では、塗りつぶしは終わり、輪郭の列ごとに、下の端から上の端までの升目をちょうど返す。 -/
theorem convexFillCells_fills (hg : g.Valid) (hlength : 3 ≤ polygon.length) (hin : ∀ v ∈ polygon, g.Contains v)
    (hfit : EdgesFit polygon) (hindex : IndexFits (g.polygonOutlineCells polygon)) :
    ∃ cells, g.convexFillCells polygon = some cells ∧ g.Fills polygon cells := by
  obtain ⟨sorted, hsort, hperm, hsorted⟩ := adjacentSort_spec MapLocation.x (g.polygonOutlineCells polygon)
  have hne : sorted ≠ [] := by
    rintro rfl
    exact polygonOutlineCells_ne_nil hg hin hfit (by omega) (List.nil_perm.mp hperm)
  have hmem : ∀ c, c ∈ sorted ↔ c ∈ g.polygonOutlineCells polygon := fun c => hperm.mem_iff
  obtain ⟨first, hfirst, last, hlast, hhead, hend, hends⟩ := exists_ends hne hsorted
  have htwice : ∀ y, first.x ≤ y → y < first.x + (last.x + 1 - first.x) → 2 ≤ sorted.countP fun c => c.x = y := by
    intro y hlo hhi
    rw [hperm.countP_eq]
    exact two_le_column hg hin hfit (by omega) ((hmem first).mp hfirst) ((hmem last).mp hlast) hlo (by omega)
  have hy : ∀ c ∈ sorted, c.y < 4294967295 := by
    intro c hc
    have hinside := (contains_of_mem hg hin hfit ((hmem c).mp hc)).2
    have hsize := hg.sizeY
    omega
  obtain ⟨cells, hcells, hfill⟩ : ∃ cells, fillColumns (last.x + 1 - first.x) first.x ([] : List MapLocation).length
      ([] ++ (sorted ++ [])) = some cells ∧ _ :=
    mem_fillColumns hsorted (fun c hc => (hends c hc).1) (by simp) hy htwice
  rw [List.nil_append, List.append_nil, List.length_nil] at hcells
  have hspan : ∀ c, Spanned sorted c ↔ Spanned (g.polygonOutlineCells polygon) c := fun c =>
    ⟨fun h => h.mono hperm.subset, fun h => h.mono hperm.symm.subset⟩
  have hcolumns : ∀ c, c ∈ cells ↔ Spanned (g.polygonOutlineCells polygon) c := by
    intro c
    rw [hfill, ← hspan, List.nil_append, List.append_nil]
    constructor
    · rintro (h | ⟨-, h⟩)
      · exact spanned_of_mem h
      · exact h
    · rintro ⟨a, ha, b, hb, hax, hspan⟩
      have hbound := hends a ha
      exact Or.inr ⟨by omega, a, ha, b, hb, hax, hspan⟩
  refine ⟨cells, ?_, fun i hi => ?_, hcolumns, fun c hc => (hcolumns c).mpr (spanned_of_mem hc), ?_⟩
  · rw [convexFillCells, if_neg (Nat.not_lt.mpr hlength), if_pos hindex, hsort]
    simp [hhead, hend, hcells]
  · obtain ⟨ha, hb⟩ := contains_vertex hin hi
    exact isWalk_lineCells hg ha hb (hfit i hi)
  · intro a ha b hb x hlo hhi
    have htwice := two_le_column hg hin hfit (by omega) ha hb hlo hhi
    obtain ⟨c, hc, hx⟩ := List.countP_pos_iff.mp (Nat.lt_of_lt_of_le Nat.zero_lt_two htwice)
    exact ⟨c, hc, of_decide_eq_true hx⟩

/-- 塗りつぶしが終わり、輪郭が地図の中の閉じた道で、その列ごとの升目をちょうど返すのは、どの辺の差も `int` に収まり、輪郭の升目の
番号が `unsigned int` に収まるとき、またそのときに限る。 -/
theorem convexFillCells_iff (g : Costmap2D K) (hg : g.Valid) (polygon : List MapLocation)
    (hlength : 3 ≤ polygon.length) (hin : ∀ v ∈ polygon, g.Contains v) :
    (∃ cells, g.convexFillCells polygon = some cells ∧ g.Fills polygon cells) ↔
      EdgesFit polygon ∧ OutlineFits polygon := by
  have hne : polygon ≠ [] := List.length_pos_iff.mp (by omega)
  constructor
  · rintro ⟨cells, hfill, hcells⟩
    have hfit : EdgesFit polygon := by
      intro i hi
      by_contra hwrap
      obtain ⟨ha, hb⟩ := contains_vertex hin hi
      obtain ⟨c, hc, hout⟩ := exists_outside hg ha hb hwrap
      exact hout ((hcells.walks i hi).inside c hc)
    refine ⟨hfit, (indexFits_iff hg hin hfit hne).mp ?_⟩
    by_contra hindex
    rw [convexFillCells, if_neg (Nat.not_lt.mpr hlength), if_neg hindex] at hfill
    cases hfill
  · rintro ⟨hfit, houtline⟩
    exact convexFillCells_fills hg hlength hin hfit ((indexFits_iff hg hin hfit hne).mpr houtline)

-- 三角形の塗りつぶし。
theorem convexFillCells_triangle :
    tenByTen.Valid ∧ ∃ cells, tenByTen.convexFillCells [⟨0, 0⟩, ⟨4, 1⟩, ⟨1, 3⟩] = some cells ∧
      tenByTen.Fills [⟨0, 0⟩, ⟨4, 1⟩, ⟨1, 3⟩] cells :=
  ⟨valid_tenByTen, (convexFillCells_iff tenByTen valid_tenByTen [⟨0, 0⟩, ⟨4, 1⟩, ⟨1, 3⟩] (by decide) (by decide)).mpr
    ⟨by decide, by decide⟩⟩

/-- 幅が `int` の範囲を超える、一行の地図。 -/
def widerThanInt : Costmap2D ℚ where
  sizeX := 3000000001
  sizeY := 1
  resolution := 1
  originX := 0
  originY := 0
  costmap := List.replicate 3000000001 0
  defaultValue := 0

theorem widerThanInt_valid : widerThanInt.Valid :=
  ⟨by decide +kernel, by decide, by decide, by decide, List.length_replicate⟩

/-- 両端のあいだの走査は、逆の向きに一周する。 -/
theorem widerThanInt_offset {a b k : ℕ} (ha : a = 0 ∨ a = 3000000000) (hb : b = 0 ∨ b = 3000000000)
    (hk : k ≤ (int32 ((b : ℤ) - a)).natAbs) :
    asUnsigned ((a : ℤ) + k * sign (int32 ((b : ℤ) - a))) = 0 ∨
      (3000000000 ≤ asUnsigned ((a : ℤ) + k * sign (int32 ((b : ℤ) - a))) ∧
        asUnsigned ((a : ℤ) + k * sign (int32 ((b : ℤ) - a))) < 4294967296) := by
  unfold int32 at hk ⊢
  unfold sign asUnsigned
  split_ifs at hk ⊢ <;> omega

/-- 両端のあいだの走査は、中ほどの列を通らない。 -/
theorem widerThanInt_lineCells {a b : ℕ} (ha : a = 0 ∨ a = 3000000000) (hb : b = 0 ∨ b = 3000000000) {c : MapLocation}
    (hc : c ∈ widerThanInt.lineCells ⟨a, 0⟩ ⟨b, 0⟩) : c.x ≠ 2000000000 := by
  have hlt : a < 4294967296 := by omega
  have hsize : widerThanInt.sizeX = 3000000001 := rfl
  rw [lineCells, raytraceLine_row _ hlt, List.map_map] at hc
  obtain ⟨k, hk, rfl⟩ := List.mem_map.mp hc
  have hoffset := widerThanInt_offset ha hb (Nat.lt_succ_iff.mp (List.mem_range.mp hk))
  simp only [Function.comp_apply, indexToCells, hsize]
  omega

-- 両端の差が `int` に収まらないと、輪郭は中ほどの列を飛ばす。
theorem convexFillCells_skips :
    widerThanInt.Valid ∧ (∀ v ∈ [⟨0, 0⟩, ⟨3000000000, 0⟩, ⟨3000000000, 0⟩], widerThanInt.Contains v) ∧
      ¬ ∃ cells, widerThanInt.convexFillCells [⟨0, 0⟩, ⟨3000000000, 0⟩, ⟨3000000000, 0⟩] = some cells ∧
        widerThanInt.Fills [⟨0, 0⟩, ⟨3000000000, 0⟩, ⟨3000000000, 0⟩] cells := by
  refine ⟨widerThanInt_valid, by decide, ?_⟩
  rintro ⟨cells, -, hcells⟩
  have hvertex : ∀ i < 3, vertex [⟨0, 0⟩, ⟨3000000000, 0⟩, ⟨3000000000, 0⟩] i ∈
      widerThanInt.polygonOutlineCells [⟨0, 0⟩, ⟨3000000000, 0⟩, ⟨3000000000, 0⟩] := by
    intro i hi
    exact mem_polygonOutlineCells.mpr ⟨i, hi, vertex_mem_lineCells (hcells.walks i hi)⟩
  obtain ⟨c, hc, hx⟩ := hcells.unbroken _ (hvertex 0 (by decide)) _ (hvertex 1 (by decide)) 2000000000 (by decide)
    (by decide)
  obtain ⟨i, hi, hline⟩ := mem_polygonOutlineCells.mp hc
  have hi' : i < 3 := hi
  obtain rfl | rfl | rfl : i = 0 ∨ i = 1 ∨ i = 2 := by omega
  · exact widerThanInt_lineCells (.inl rfl) (.inr rfl) hline hx
  · exact widerThanInt_lineCells (.inr rfl) (.inr rfl) hline hx
  · exact widerThanInt_lineCells (.inr rfl) (.inl rfl) hline hx

end Costmap2D

end Ranger.Grid
