import Ranger.Grid.UpdateOrigin
import Ranger.Lib.Run
import Ranger.Static.StaticLayer

/-!
# 地図の写し

地図を配信する側と静的な層を、順に届く伝文でつなぐ。届き終わり、取り込み終わると、層の値は、最後に配信したときの地図の値を訳したもので
ある。
-/

namespace Ranger.Static
open Ranger.Grid Ranger.Lib

/-- `sent` は、最後に配信したときの地図である。 -/
structure Link (K : Type*) where
  publisher : Costmap2DPublisher K
  costmap : Costmap2D K
  sent : Option (Costmap2D K)
  channel : List (Message K)
  layer : StaticLayer K

/-- `updating` は地図の更新と、変わった矩形の知らせである。 -/
inductive Event (K : Type*) where
  | updating (g : Costmap2D K) (w : Window)
  | publishing
  | delivering
  | cycling (enabled : Bool)

section Model

variable {K : Type*} [Field K] [DecidableEq K] (narrow : K → K) (scaled : UInt8 → UInt8 → UInt8)

def StaticLayer.receive (l : StaticLayer K) : Message K → Option (StaticLayer K)
  | .grid m => l.incomingMap scaled m
  | .update m => l.incomingUpdate scaled m

/-- 一つの事象。配列の外に触れるとき `none`。 -/
def Link.step (s : Link K) : Event K → Option (Link K)
  | .updating g w => some { s with costmap := g, publisher := s.publisher.updateBounds w }
  | .publishing =>
      (s.publisher.publishCostmap narrow s.costmap true true).map fun r =>
        { s with publisher := r.1, channel := s.channel ++ r.2.toList, sent := some s.costmap }
  | .delivering =>
      match s.channel with
      | [] => some s
      | m :: rest => (s.layer.receive scaled m).map fun l => { s with channel := rest, layer := l }
  | .cycling enabled => (s.layer.updateBounds scaled).map fun r => { s with layer := r.1.updateCosts enabled }

end Model

/-! ## 配信する地図の像 -/

/-- 伝文の表す地図。 -/
structure Picture where
  width : ℕ
  height : ℕ
  cells : List UInt8

def pictureOf {K : Type*} (g : Costmap2D K) : Picture := ⟨g.sizeX, g.sizeY, g.costmap.map costTranslation⟩

structure Picture.Fits (p : Picture) : Prop where
  width_pos : 0 < p.width
  height_pos : 0 < p.height
  width : p.width < 4294967296
  height : p.height < 4294967296
  area : p.width * p.height < 4294967296
  cells : p.cells.length = p.width * p.height

/-- 地図の全体の伝文が像 `p` を表す。 -/
structure GridOf {K : Type*} (frame : String) (m : OccupancyGrid K) (p : Picture) : Prop where
  frameId : m.frameId = frame
  frame_ne : frame ≠ ""
  picture : p = ⟨m.info.width, m.info.height, m.data⟩
  fits : p.Fits

/-- 矩形の伝文が、像 `p` を像 `q` にする。 -/
structure UpdateOf (frame : String) (m : OccupancyGridUpdate) (p q : Picture) : Prop where
  frameId : m.frameId = frame
  x_nonneg : 0 ≤ m.x
  y_nonneg : 0 ≤ m.y
  inside_x : m.x.toNat + m.width ≤ p.width
  inside_y : m.y.toNat + m.height ≤ p.height
  width : q.width = p.width
  height : q.height = p.height
  cells : Costmap2D.copyMapRegion m.data 0 0 m.width p.cells m.x.toNat m.y.toNat p.width m.width m.height = some q.cells

inductive Applies {K : Type*} (frame : String) : Message K → Option Picture → Picture → Prop
  | grid {m p before} : GridOf frame m p → Applies frame (.grid m) before p
  | update {m p q} : UpdateOf frame m p q → Applies frame (.update m) (some p) q

/-- 伝文の列が、像を次の像にする。 -/
inductive Carries {K : Type*} (frame : String) : List (Message K) → Option Picture → Option Picture → Prop
  | nil {p} : Carries frame [] p p
  | cons {m ms p q r} : Applies frame m p q → Carries frame ms (some q) r → Carries frame (m :: ms) p r

theorem Carries.concat {K : Type*} {frame : String} {ms : List (Message K)} {m : Message K} {p q : Option Picture} {r : Picture}
    (h : Carries frame ms p q) (hm : Applies frame m q r) : Carries frame (ms ++ [m]) p (some r) := by
  induction h with
  | nil => exact .cons hm .nil
  | cons hfirst _ ih => exact .cons hfirst (ih hm)

theorem UpdateOf.fits {frame : String} {m : OccupancyGridUpdate} {p q : Picture} (h : UpdateOf frame m p q) (hp : p.Fits) :
    q.Fits := by
  have hlength := copyRegion_length h.cells
  exact ⟨h.width ▸ hp.width_pos, h.height ▸ hp.height_pos, h.width ▸ hp.width, h.height ▸ hp.height,
    by rw [h.width, h.height]; exact hp.area, by rw [h.width, h.height, hlength]; exact hp.cells⟩

/-! ## 層 -/

section Layer

variable {K : Type*} [DecidableEq K] {scaled : UInt8 → UInt8 → UInt8} {l : StaticLayer K} {frame : String}
  {f : UInt8 → UInt8} {p q : Picture}

/-- 層は像 `p` の値を訳して持つ。 -/
structure Shows (frame : String) (f : UInt8 → UInt8) (l : StaticLayer K) (p : Picture) : Prop where
  sizeX : l.grid.sizeX = p.width
  sizeY : l.grid.sizeY = p.height
  x : l.x = 0
  y : l.y = 0
  width : l.width = p.width
  height : l.height = p.height
  mapFrame : l.mapFrame = frame
  costmap : l.grid.costmap = p.cells.map f

omit [DecidableEq K] in
theorem Shows.same {l' : StaticLayer K} (h : Shows frame f l p)
    (hsame : (l'.grid, l'.x, l'.y, l'.width, l'.height, l'.mapFrame) = (l.grid, l.x, l.y, l.width, l.height, l.mapFrame)) :
    Shows frame f l' p := by
  simp only [Prod.mk.injEq] at hsame
  obtain ⟨hgrid, hx, hy, hwidth, hheight, hframe⟩ := hsame
  exact ⟨hgrid ▸ h.sizeX, hgrid ▸ h.sizeY, hx.trans h.x, hy.trans h.y, hwidth.trans h.width, hheight.trans h.height,
    hframe.trans h.mapFrame, hgrid ▸ h.costmap⟩

/-- 層の受け取った像。取り込みを待つ地図があるときは、その像である。 -/
def Received (frame : String) (f : UInt8 → UInt8) (l : StaticLayer K) : Option Picture → Prop
  | none => l.mapReceived = false ∧ l.mapBuffer = none
  | some p => l.mapReceived = true ∧ p.Fits ∧
      ((l.mapBuffer = none ∧ Shows frame f l p) ∨ ∃ m, l.mapBuffer = some m ∧ GridOf frame m p)

structure Receives (scaled : UInt8 → UInt8 → UInt8) (frame : String) (f : UInt8 → UInt8) (l : StaticLayer K)
    (p : Option Picture) : Prop where
  interprets : l.interpretValue scaled = f
  length : l.grid.costmap.length = l.grid.sizeX * l.grid.sizeY
  received : Received frame f l p

omit [DecidableEq K] in
theorem GridOf.validateMsg {m : OccupancyGrid K} (h : GridOf frame m p) : validateMsg m = true := by
  obtain ⟨hframe, hne, rfl, hfits⟩ := h
  have hwidth := hfits.width_pos
  have hheight := hfits.height_pos
  have hcells := hfits.cells
  have harea := hfits.area
  simp only at hwidth hheight hcells harea
  simp [Static.validateMsg, hframe, hne, hcells, wrap_of_lt harea, Nat.ne_of_gt hwidth, Nat.ne_of_gt hheight]

theorem interpretValue_fit (l : StaticLayer K) (i : MapInfo K) : (l.fit i).interpretValue scaled = l.interpretValue scaled := by
  rw [StaticLayer.fit]
  split_ifs <;> rfl

/-- 大きさを合わせた後の層。 -/
theorem fit_size (l : StaticLayer K) {i : MapInfo K} (harea : i.width * i.height < 4294967296)
    (hlength : l.grid.costmap.length = l.grid.sizeX * l.grid.sizeY) :
    (l.fit i).grid.sizeX = i.width ∧ (l.fit i).grid.sizeY = i.height ∧
      (l.fit i).grid.costmap.length = i.width * i.height ∧ (l.fit i).mapReceived = l.mapReceived ∧
      (l.fit i).mapBuffer = l.mapBuffer := by
  have hresize : (StaticLayer.resizeMap l.grid i).costmap.length = i.width * i.height := by
    rw [StaticLayer.resizeMap, List.length_replicate, wrap_of_lt harea]
  rw [StaticLayer.fit]
  split_ifs with hmaster hown
  · exact ⟨rfl, rfl, hresize, rfl, rfl⟩
  · exact ⟨rfl, rfl, hresize, rfl, rfl⟩
  · rw [not_not] at hown
    subst hown
    exact ⟨rfl, rfl, hlength, rfl, rfl⟩

theorem processMap_shows {m : OccupancyGrid K} (hm : GridOf frame m p) (hf : l.interpretValue scaled = f)
    (hlength : l.grid.costmap.length = l.grid.sizeX * l.grid.sizeY) :
    ∃ l', l.processMap scaled m = some l' ∧ Shows frame f l' p ∧ l'.interpretValue scaled = f ∧
      l'.grid.costmap.length = l'.grid.sizeX * l'.grid.sizeY ∧ l'.mapReceived = l.mapReceived ∧ l'.mapBuffer = l.mapBuffer := by
  obtain ⟨hframe, -, rfl, hfits⟩ := hm
  have hdata : m.data.length = m.info.width * m.info.height := hfits.cells
  obtain ⟨hx, hy, hcostmap, hreceived, hbuffer⟩ := fit_size l hfits.area hlength
  have hroom : m.info.width * m.info.height ≤ m.data.length ∧
      m.info.width * m.info.height ≤ (l.fit m.info).grid.costmap.length :=
    ⟨Nat.le_of_eq hdata.symm, Nat.le_of_eq hcostmap.symm⟩
  have hcells : (m.data.take (m.info.width * m.info.height)).map ((l.fit m.info).interpretValue scaled) ++
      (l.fit m.info).grid.costmap.drop (m.info.width * m.info.height) = m.data.map f := by
    rw [← hcostmap, List.drop_length, List.append_nil, hcostmap, ← hdata, List.take_length, interpretValue_fit, hf]
  refine ⟨_, if_pos hroom, ⟨hx, hy, rfl, rfl, hx, hy, hframe, hcells⟩, ?_, ?_, hreceived, hbuffer⟩
  · exact (interpretValue_fit l m.info).trans hf
  · simp only [hcells, List.length_map, hx, hy, hdata]

theorem receive_grid {before : Option Picture} (h : Receives scaled frame f l before) {m : OccupancyGrid K}
    (hm : GridOf frame m p) : ∃ l', l.receive scaled (.grid m) = some l' ∧ Receives scaled frame f l' (some p) := by
  have hvalid := hm.validateMsg
  cases before with
  | none =>
      obtain ⟨hreceived, hbuffer⟩ := h.received
      obtain ⟨l', hprocess, hshows, hinterprets, hlength, -, hbuffer'⟩ := processMap_shows hm h.interprets h.length
      refine ⟨{ l' with mapReceived := true }, ?_, ⟨hinterprets, hlength, rfl, hm.fits,
        .inl ⟨hbuffer'.trans hbuffer, hshows.same rfl⟩⟩⟩
      simp [StaticLayer.receive, StaticLayer.incomingMap, hvalid, hreceived, hprocess]
  | some before =>
      obtain ⟨hreceived, -⟩ := h.received
      refine ⟨{ l with mapBuffer := some m }, ?_, ⟨h.interprets, h.length, hreceived, hm.fits, .inr ⟨m, rfl, hm⟩⟩⟩
      simp [StaticLayer.receive, StaticLayer.incomingMap, hvalid, hreceived]

theorem receive_update (h : Receives scaled frame f l (some p)) (hbuffer : l.mapBuffer = none) {m : OccupancyGridUpdate}
    (hm : UpdateOf frame m p q) : ∃ l', l.receive scaled (.update m) = some l' ∧ Receives scaled frame f l' (some q) := by
  obtain ⟨hreceived, hfits, hshow⟩ := h.received
  rcases hshow with ⟨-, hshows⟩ | ⟨m', hsome, -⟩
  · have hinside : ¬ (m.y < l.y ∨ wrap (l.y + l.height) < asUnsigned (m.y + m.height) ∨ m.x < l.x ∨
        wrap (l.x + l.width) < asUnsigned (m.x + m.width)) := by
      have hx := hm.x_nonneg
      have hy := hm.y_nonneg
      have hx' := hm.inside_x
      have hy' := hm.inside_y
      have hwidth := hfits.width
      have hheight := hfits.height
      rw [hshows.x, hshows.y, hshows.width, hshows.height, wrap_of_lt (by omega), wrap_of_lt (by omega),
        asUnsigned_of_nonneg (by omega) (by omega), asUnsigned_of_nonneg (by omega) (by omega)]
      omega
    have hframe : ¬ m.frameId ≠ l.mapFrame := by rw [hm.frameId, hshows.mapFrame, not_not]
    have hcells : Costmap2D.copyMapRegion (m.data.map (l.interpretValue scaled)) 0 0 m.width l.grid.costmap m.x.toNat
        m.y.toNat l.grid.sizeX m.width m.height = some (q.cells.map f) := by
      rw [Costmap2D.copyMapRegion, h.interprets, hshows.costmap, hshows.sizeX, copyRegion_map]
      exact congrArg (Option.map (List.map f)) hm.cells
    have hlength : (q.cells.map f).length = l.grid.sizeX * l.grid.sizeY := by
      rw [List.length_map, (hm.fits hfits).cells, hm.width, hm.height, hshows.sizeX, hshows.sizeY]
    refine ⟨{ l with grid := { l.grid with costmap := q.cells.map f }, hasUpdatedData := true }, ?_,
      ⟨h.interprets, hlength, hreceived, hm.fits hfits, .inl ⟨hbuffer, ?_⟩⟩⟩
    · simp only [StaticLayer.receive, StaticLayer.incomingUpdate, if_neg hinside, if_neg hframe, hcells, Option.map_some]
    · exact ⟨hshows.sizeX.trans hm.width.symm, hshows.sizeY.trans hm.height.symm, hshows.x, hshows.y,
        hshows.width.trans hm.width.symm, hshows.height.trans hm.height.symm, hshows.mapFrame, rfl⟩
  · rw [hbuffer] at hsome
    cases hsome

theorem loadBuffer_shows (h : Receives scaled frame f l (some p)) :
    ∃ l', l.loadBuffer scaled = some l' ∧ Receives scaled frame f l' (some p) ∧ l'.mapBuffer = none := by
  obtain ⟨hreceived, hfits, hshow⟩ := h.received
  rcases hshow with ⟨hbuffer, hshows⟩ | ⟨m, hbuffer, hm⟩
  · exact ⟨l, by rw [StaticLayer.loadBuffer, hbuffer], h, hbuffer⟩
  · obtain ⟨l', hprocess, hshows, hinterprets, hlength, hreceived', -⟩ := processMap_shows hm h.interprets h.length
    exact ⟨{ l' with mapBuffer := none }, by simp [StaticLayer.loadBuffer, hbuffer, hprocess],
      ⟨hinterprets, hlength, hreceived'.trans hreceived, hfits, .inl ⟨rfl, hshows.same rfl⟩⟩, rfl⟩

omit [DecidableEq K] in
theorem reportBounds_receives [Field K] {op : Option Picture} (h : Receives scaled frame f l op) :
    Receives scaled frame f l.reportBounds.1 op ∧ l.reportBounds.1.mapBuffer = l.mapBuffer := by
  rw [StaticLayer.reportBounds]
  split_ifs
  · exact ⟨h, rfl⟩
  · refine ⟨⟨h.interprets, h.length, ?_⟩, rfl⟩
    cases op with
    | none => exact h.received
    | some p =>
        obtain ⟨hreceived, hfits, hshow⟩ := h.received
        exact ⟨hreceived, hfits, hshow.imp (fun hshown => ⟨hshown.1, hshown.2.same rfl⟩) id⟩

theorem updateBounds_receives [Field K] {op : Option Picture} (h : Receives scaled frame f l op) :
    ∃ r, l.updateBounds scaled = some r ∧ Receives scaled frame f r.1 op ∧ r.1.mapBuffer = none := by
  cases op with
  | none =>
      obtain ⟨hreceived, hbuffer⟩ := h.received
      refine ⟨({ l with mapReceivedInUpdateBounds := false }, none), ?_, ⟨h.interprets, h.length, hreceived, hbuffer⟩, hbuffer⟩
      simp [StaticLayer.updateBounds, hreceived]
  | some p =>
      obtain ⟨hreceived, hfits, hshow⟩ := h.received
      have hstart : Receives scaled frame f { l with mapReceivedInUpdateBounds := true } (some p) :=
        ⟨h.interprets, h.length, hreceived, hfits, hshow.imp (fun hshown => ⟨hshown.1, hshown.2.same rfl⟩) id⟩
      obtain ⟨l', hload, hreceives, hnone⟩ := loadBuffer_shows hstart
      obtain ⟨hend, hbuffer⟩ := reportBounds_receives hreceives
      refine ⟨l'.reportBounds, ?_, hend, hbuffer.trans hnone⟩
      rw [StaticLayer.updateBounds, if_neg (by simp [hreceived]), hload, Option.map_some]

omit [DecidableEq K] in
theorem updateCosts_receives {op : Option Picture} (h : Receives scaled frame f l op) (enabled : Bool) :
    Receives scaled frame f (l.updateCosts enabled) op := by
  unfold StaticLayer.updateCosts
  split_ifs
  · cases op with
    | none => exact ⟨h.interprets, h.length, h.received⟩
    | some p =>
        obtain ⟨hreceived, hfits, hshow⟩ := h.received
        exact ⟨h.interprets, h.length, hreceived, hfits, hshow.imp (fun hshown => ⟨hshown.1, hshown.2.same rfl⟩) id⟩
  · exact h

end Layer

/-! ## 配信 -/

section Publish

variable {K : Type*} [Field K] [LinearOrder K] {narrow : K → K} {p : Costmap2DPublisher K} {g g₀ : Costmap2D K}

/-- 空でない地図。 -/
structure Mapped (g : Costmap2D K) : Prop where
  valid : g.Valid
  sizeX_pos : 0 < g.sizeX
  sizeY_pos : 0 < g.sizeY

theorem Mapped.fits (h : Mapped g) : (pictureOf g).Fits :=
  ⟨h.sizeX_pos, h.sizeY_pos, h.valid.sizeX, h.valid.sizeY, h.valid.area, by simp [pictureOf, h.valid.costmap]⟩

theorem gridOf_prepareGrid (h : Mapped g) (hframe : p.globalFrame ≠ "") :
    GridOf p.globalFrame (p.prepareGrid narrow g) (pictureOf g) := by
  refine ⟨rfl, hframe, ?_, h.fits⟩
  rw [Costmap2DPublisher.prepareGrid, pictureOf, wrap_of_lt h.valid.area, ← h.valid.costmap, List.take_length]

/-- 前に送った地図 `g₀` とは、矩形の中だけが違う。 -/
structure Dirty (p : Costmap2DPublisher K) (g g₀ : Costmap2D K) : Prop where
  sizeX : g₀.sizeX = g.sizeX
  sizeY : g₀.sizeY = g.sizeY
  xn_le : p.xn ≤ g.sizeX
  yn_le : p.yn ≤ g.sizeY
  outside : ∀ c, g.Contains c → ¬ ((p.x0 ≤ c.x ∧ c.x < p.xn) ∧ p.y0 ≤ c.y ∧ c.y < p.yn) →
    g.costmap[c.y * g.sizeX + c.x]? = g₀.costmap[c.y * g.sizeX + c.x]?

theorem ext_cells (h : Mapped g) {cells : List UInt8} (hlength : cells.length = g.sizeX * g.sizeY)
    (hcells : ∀ c, g.Contains c → cells[c.y * g.sizeX + c.x]? = g.costmap[c.y * g.sizeX + c.x]?) : cells = g.costmap := by
  apply List.ext_getElem?
  intro k
  by_cases hk : k < g.sizeX * g.sizeY
  · have hcell := hcells ⟨k % g.sizeX, k / g.sizeX⟩ ⟨Nat.mod_lt k h.sizeX_pos, Nat.div_lt_of_lt_mul hk⟩
    rwa [Nat.div_add_mod'] at hcell
  · rw [List.getElem?_eq_none (by omega), List.getElem?_eq_none (by rw [h.valid.costmap]; omega)]

/-- 矩形の外が同じなら、矩形の伝文は、前の像を今の像にする。 -/
theorem updateOf_prepareUpdate (h : Mapped g) (h₀ : Mapped g₀) (hdirty : Dirty p g g₀) (hx : p.x0 < p.xn) (hy : p.y0 ≤ p.yn) :
    ∃ m, p.prepareUpdate g = some m ∧ UpdateOf p.globalFrame m (pictureOf g₀) (pictureOf g) := by
  have hxn := hdirty.xn_le
  have hyn := hdirty.yn_le
  have hlength₀ : g₀.costmap.length = g.sizeX * g.sizeY := by rw [h₀.valid.costmap, hdirty.sizeX, hdirty.sizeY]
  by_cases hempty : p.yn - p.y0 = 0
  · have hsame : g₀.costmap = g.costmap :=
      ext_cells h hlength₀ fun c hc => (hdirty.outside c hc (by omega)).symm
    refine ⟨_, by rw [Costmap2DPublisher.prepareUpdate, Costmap2D.copyMapRegion_empty (.inr hempty), Option.map_some], ?_⟩
    refine ⟨rfl, by simp, by simp, ?_, ?_, hdirty.sizeX.symm, hdirty.sizeY.symm, ?_⟩
    · simp only [pictureOf, Int.toNat_natCast, hdirty.sizeX]
      omega
    · simp only [pictureOf, Int.toNat_natCast, hdirty.sizeY]
      omega
    · simp only [Costmap2D.copyMapRegion_empty (.inr hempty), pictureOf, hsame]
  · have hsrc : (g.costmap.map costTranslation).length = g.sizeX * g.sizeY := by rw [List.length_map, h.valid.costmap]
    have hdst : (g₀.costmap.map costTranslation).length = g.sizeX * g.sizeY := by rw [List.length_map, hlength₀]
    obtain ⟨data, out, hread, hwrite, hcells⟩ := Costmap2D.copy_twice p.x0 p.y0 p.x0 p.y0 (p.xn - p.x0) (p.yn - p.y0)
      h.valid.area hsrc hdst (by omega) (by omega) (by omega) (by omega) (by omega) (by omega)
    have hout : out = g.costmap.map costTranslation := by
      apply List.ext_getElem?
      intro k
      by_cases hk : k < g.sizeX * g.sizeY
      · have hcontains : g.Contains ⟨k % g.sizeX, k / g.sizeX⟩ :=
          ⟨Nat.mod_lt k h.sizeX_pos, Nat.div_lt_of_lt_mul hk⟩
        have hcell := hcells (k % g.sizeX) (k / g.sizeX) hcontains.1
        rw [Nat.div_add_mod'] at hcell
        rw [hcell]
        split_ifs with hin
        · have hback : (p.y0 + (k / g.sizeX - p.y0)) * g.sizeX + (p.x0 + (k % g.sizeX - p.x0)) = k := by
            rw [Nat.add_sub_cancel' hin.1.1, Nat.add_sub_cancel' hin.2.1, Nat.div_add_mod']
          rw [hback]
        · have hkeep := hdirty.outside _ hcontains (by
            rintro ⟨hinx, hiny⟩
            simp only at hinx hiny
            exact hin (by omega))
          rw [Nat.div_add_mod'] at hkeep
          rw [List.getElem?_map, List.getElem?_map, hkeep]
      · have hlength : out.length = g.sizeX * g.sizeY := (copyRegion_length hwrite).trans hdst
        rw [List.getElem?_eq_none (by omega), List.getElem?_eq_none (by omega)]
    refine ⟨_, by rw [Costmap2DPublisher.prepareUpdate, hread, Option.map_some], ?_⟩
    refine ⟨rfl, by simp, by simp, ?_, ?_, hdirty.sizeX.symm, hdirty.sizeY.symm, ?_⟩
    · simp only [pictureOf, Int.toNat_natCast, hdirty.sizeX]
      omega
    · simp only [pictureOf, Int.toNat_natCast, hdirty.sizeY]
      omega
    · simp only [pictureOf, Int.toNat_natCast, hdirty.sizeX]
      rw [hwrite, hout]

end Publish

/-! ## 実行 -/

section Runs

variable {K : Type*} [Field K] [LinearOrder K] {narrow : K → K} {scaled : UInt8 → UInt8 → UInt8} {s : Link K}

/-- 地図の変化が、知らされた矩形の中にあるか、大きさか場所が、前に全体を送ったときと違う。 -/
def Reports (narrow : K → K) (s : Link K) (g : Costmap2D K) (w : Window) : Prop :=
  Mapped g ∧ (s.publisher.unchanged narrow g = true →
    s.sent.isSome = true ∧ (s.publisher.updateBounds w).xn ≤ g.sizeX ∧ (s.publisher.updateBounds w).yn ≤ g.sizeY ∧
      ((s.publisher.unchanged narrow s.costmap = true ∧
          ∀ c, g.Contains c → ¬ w.Contains c →
            g.costmap[c.y * g.sizeX + c.x]? = s.costmap.costmap[c.y * g.sizeX + c.x]?) ∨
        ∀ c, g.Contains c → w.Contains c))

/-- 更新は変化を知らせる。矩形は、待っている地図を取り込んだ後に届く。 -/
def Permitted (narrow : K → K) (s : Link K) : Event K → Prop
  | .updating g w => Reports narrow s g w
  | .delivering => ∀ m rest, s.channel = .update m :: rest → s.layer.mapBuffer = none
  | _ => True

/-- 配信の前で、何も届いていない。初めの値は、地図の大きさか場所と違う。 -/
structure Starts (narrow : K → K) (s : Link K) : Prop where
  frame : s.publisher.globalFrame ≠ ""
  bounds : s.publisher.xn = 0
  changed : s.publisher.unchanged narrow s.costmap = false
  costmap : Mapped s.costmap
  sent : s.sent = none
  channel : s.channel = []
  mapReceived : s.layer.mapReceived = false
  mapBuffer : s.layer.mapBuffer = none
  layer : s.layer.grid.costmap.length = s.layer.grid.sizeX * s.layer.grid.sizeY

structure Inv (narrow : K → K) (scaled : UInt8 → UInt8 → UInt8) (frame : String) (f : UInt8 → UInt8) (s : Link K) : Prop where
  frameId : s.publisher.globalFrame = frame
  frame_ne : frame ≠ ""
  costmap : Mapped s.costmap
  ordered : s.publisher.x0 < s.publisher.xn → s.publisher.y0 ≤ s.publisher.yn
  carried : ∃ start, Receives scaled frame f s.layer start ∧ Carries frame s.channel start (s.sent.map pictureOf)
  unsent : s.sent = none → s.publisher.unchanged narrow s.costmap = false
  saved : ∀ g₀, s.sent = some g₀ → Mapped g₀ ∧ g₀.sizeX = s.publisher.gridWidth ∧ g₀.sizeY = s.publisher.gridHeight
  dirty : ∀ g₀, s.sent = some g₀ → s.publisher.unchanged narrow s.costmap = true → Dirty s.publisher s.costmap g₀

theorem Starts.inv (h : Starts narrow s) :
    Inv narrow scaled s.publisher.globalFrame (s.layer.interpretValue scaled) s where
  frameId := rfl
  frame_ne := h.frame
  costmap := h.costmap
  ordered := by
    have hbounds := h.bounds
    omega
  carried := ⟨none, ⟨rfl, h.layer, h.mapReceived, h.mapBuffer⟩, by rw [h.channel, h.sent]; exact .nil⟩
  unsent := fun _ => h.changed
  saved := by simp [h.sent]
  dirty := by simp [h.sent]

variable {F : String} {f : UInt8 → UInt8} {g g₀ : Costmap2D K}

omit [Field K] in
theorem unchanged_size {p : Costmap2DPublisher K} (h : p.unchanged narrow g = true) :
    p.gridWidth = g.sizeX ∧ p.gridHeight = g.sizeY := by
  simp only [Costmap2DPublisher.unchanged, Bool.and_eq_true, decide_eq_true_eq] at h
  exact ⟨h.1.1.1.2, h.1.1.2⟩

/-- 更新の後も、違いは矩形の中にある。 -/
theorem Reports.dirty {w : Window} (hreports : Reports narrow s g w) (hunchanged : s.publisher.unchanged narrow g = true)
    (hsaved : g₀.sizeX = s.publisher.gridWidth ∧ g₀.sizeY = s.publisher.gridHeight)
    (hdirty : s.publisher.unchanged narrow s.costmap = true → Dirty s.publisher s.costmap g₀) :
    Dirty (s.publisher.updateBounds w) g g₀ := by
  obtain ⟨-, hxn, hyn, hwhere⟩ := hreports.2 hunchanged
  obtain ⟨hwidth, hheight⟩ := unchanged_size hunchanged
  refine ⟨hsaved.1.trans hwidth, hsaved.2.trans hheight, hxn, hyn, fun c hc hout => ?_⟩
  simp only [Costmap2DPublisher.updateBounds] at hout
  have houtw : ¬ w.Contains c := by
    rintro ⟨hx, hy⟩
    exact hout (by omega)
  rcases hwhere with ⟨hbefore, hkeep⟩ | hwhole
  · have hold := hdirty hbefore
    have hsizeX : s.costmap.sizeX = g.sizeX := (unchanged_size hbefore).1.symm.trans hwidth
    have hsizeY : s.costmap.sizeY = g.sizeY := (unchanged_size hbefore).2.symm.trans hheight
    have hbeforeCell := hold.outside c ⟨hsizeX ▸ hc.1, hsizeY ▸ hc.2⟩ (by
      rintro ⟨hx, hy⟩
      exact hout (by omega))
    rw [hkeep c hc houtw, ← hsizeX]
    exact hbeforeCell
  · exact absurd (hwhole c hc) houtw

theorem Inv.updating (h : Inv narrow scaled F f s) {w : Window} (hreports : Reports narrow s g w) :
    Inv narrow scaled F f { s with costmap := g, publisher := s.publisher.updateBounds w } where
  frameId := h.frameId
  frame_ne := h.frame_ne
  costmap := hreports.1
  ordered := by
    have hy := w.y_le
    intro _
    simp only [Costmap2DPublisher.updateBounds]
    omega
  carried := h.carried
  unsent := fun hsent => by
    cases hunchanged : s.publisher.unchanged narrow g with
    | true =>
        have hsome := (hreports.2 hunchanged).1
        rw [hsent] at hsome
        cases hsome
    | false => exact hunchanged
  saved := h.saved
  dirty := fun g₀ hsent hunchanged => hreports.dirty hunchanged (h.saved g₀ hsent).2 (h.dirty g₀ hsent)

omit [Field K] [LinearOrder K] in
/-- 配信した直後は、違いがない。 -/
theorem dirty_clearBounds (p : Costmap2DPublisher K) (g : Costmap2D K) : Dirty (p.clearBounds g) g g :=
  ⟨rfl, rfl, Nat.zero_le _, Nat.zero_le _, fun _ _ _ => rfl⟩

/-- 配信の後の状態。送ったものは、前の像を今の像にする。 -/
structure Published (F : String) (s : Link K) (p : Costmap2DPublisher K) (m : Option (Message K)) : Prop where
  frameId : p.globalFrame = F
  bounds : p.xn = 0
  width : p.gridWidth = s.costmap.sizeX
  height : p.gridHeight = s.costmap.sizeY
  dirty : Dirty p s.costmap s.costmap
  carries : ∀ start ms, Carries F ms start (s.sent.map pictureOf) →
    Carries F (ms ++ m.toList) start (some (pictureOf s.costmap))

theorem Inv.published_grid (h : Inv narrow scaled F f s) :
    Published F s ((s.publisher.save narrow s.costmap).clearBounds s.costmap)
      (some (.grid (s.publisher.prepareGrid narrow s.costmap))) where
  frameId := h.frameId
  bounds := rfl
  width := rfl
  height := rfl
  dirty := dirty_clearBounds _ _
  carries := fun start ms hms => by
    have hframe := h.frameId
    subst hframe
    exact hms.concat (.grid (gridOf_prepareGrid h.costmap h.frame_ne))

/-- 大きさと場所が前と同じなら、前に送った地図がある。 -/
theorem Inv.exists_sent (h : Inv narrow scaled F f s) (hunchanged : s.publisher.unchanged narrow s.costmap = true) :
    ∃ g₀, s.sent = some g₀ := by
  cases hsent : s.sent with
  | none =>
      have hchanged := h.unsent hsent
      rw [hunchanged] at hchanged
      cases hchanged
  | some g₀ => exact ⟨g₀, rfl⟩

/-- 前に送った地図があり、違いが矩形の中にある。 -/
theorem Inv.published_clear (h : Inv narrow scaled F f s) (hunchanged : s.publisher.unchanged narrow s.costmap = true)
    {m : Option (Message K)}
    (hm : ∀ g₀, s.sent = some g₀ → Dirty s.publisher s.costmap g₀ → ∀ start ms, Carries F ms start (some (pictureOf g₀)) →
      Carries F (ms ++ m.toList) start (some (pictureOf s.costmap))) :
    Published F s (s.publisher.clearBounds s.costmap) m where
  frameId := h.frameId
  bounds := rfl
  width := (unchanged_size hunchanged).1
  height := (unchanged_size hunchanged).2
  dirty := dirty_clearBounds _ _
  carries := fun start ms hms => by
    obtain ⟨g₀, hsent⟩ := h.exists_sent hunchanged
    rw [hsent] at hms
    exact hm g₀ hsent (h.dirty g₀ hsent hunchanged) start ms hms

theorem Inv.publishCostmap (h : Inv narrow scaled F f s) :
    ∃ p m, s.publisher.publishCostmap narrow s.costmap true true = some (p, m) ∧ Published F s p m := by
  by_cases hfull : (s.publisher.alwaysSendFullCostmap || !s.publisher.unchanged narrow s.costmap) = true
  · exact ⟨_, _, by rw [Costmap2DPublisher.publishCostmap, if_pos hfull, if_pos rfl], h.published_grid⟩
  · have hunchanged : s.publisher.unchanged narrow s.costmap = true := by
      simp only [Bool.or_eq_true, Bool.not_eq_true', not_or, Bool.not_eq_false] at hfull
      exact hfull.2
    by_cases hx : s.publisher.x0 < s.publisher.xn
    · obtain ⟨g₀, hsent⟩ := h.exists_sent hunchanged
      obtain ⟨m, hprepare, hupdate⟩ := updateOf_prepareUpdate h.costmap (h.saved g₀ hsent).1
        (h.dirty g₀ hsent hunchanged) hx (h.ordered hx)
      rw [h.frameId] at hupdate
      refine ⟨s.publisher.clearBounds s.costmap, some (.update m), ?_, h.published_clear hunchanged ?_⟩
      · rw [Costmap2DPublisher.publishCostmap, if_neg hfull, if_pos (by simpa using hx), hprepare, Option.map_some]
      · intro g₁ hsent₁ _ start ms hms
        rw [hsent] at hsent₁
        cases hsent₁
        exact hms.concat (.update hupdate)
    · refine ⟨s.publisher.clearBounds s.costmap, none, ?_, h.published_clear hunchanged ?_⟩
      · rw [Costmap2DPublisher.publishCostmap, if_neg hfull, if_neg (by simpa using hx)]
      · intro g₀ hsent hdirty start ms hms
        have hlength₀ : g₀.costmap.length = s.costmap.sizeX * s.costmap.sizeY := by
          rw [(h.saved g₀ hsent).1.valid.costmap, hdirty.sizeX, hdirty.sizeY]
        have hsame : g₀.costmap = s.costmap.costmap :=
          ext_cells h.costmap hlength₀ fun c hc => (hdirty.outside c hc (by omega)).symm
        have hpicture : pictureOf g₀ = pictureOf s.costmap := by
          simp only [pictureOf, hdirty.sizeX, hdirty.sizeY, hsame]
        rw [Option.toList_none, List.append_nil, ← hpicture]
        exact hms

theorem Inv.publishing (h : Inv narrow scaled F f s) :
    ∃ t, s.step narrow scaled .publishing = some t ∧ Inv narrow scaled F f t := by
  obtain ⟨p, m, hpublish, hframe, hxn, hwidth, hheight, hdirty, hcarries⟩ := h.publishCostmap
  obtain ⟨start, hreceives, hbefore⟩ := h.carried
  refine ⟨{ s with publisher := p, channel := s.channel ++ m.toList, sent := some s.costmap },
    by rw [Link.step, hpublish, Option.map_some], ?_⟩
  refine ⟨hframe, h.frame_ne, h.costmap, fun hlt => ?_, ⟨start, hreceives, hcarries start s.channel hbefore⟩, ?_, ?_, ?_⟩
  · simp only [hxn, Nat.not_lt_zero] at hlt
  · intro hsent
    cases hsent
  · intro g₀ hsent
    cases hsent
    exact ⟨h.costmap, hwidth.symm, hheight.symm⟩
  · intro g₀ hsent _
    cases hsent
    exact hdirty

theorem Inv.delivering (h : Inv narrow scaled F f s) (hpermitted : Permitted narrow s .delivering) :
    ∃ t, s.step narrow scaled .delivering = some t ∧ Inv narrow scaled F f t := by
  obtain ⟨start, hreceives, hcarries⟩ := h.carried
  cases hchannel : s.channel with
  | nil => exact ⟨s, by rw [Link.step, hchannel], h⟩
  | cons m rest =>
      rw [hchannel] at hcarries
      have hreceive : ∃ l q, s.layer.receive scaled m = some l ∧ Receives scaled F f l (some q) ∧
          Carries F rest (some q) (s.sent.map pictureOf) := by
        cases hcarries with
        | cons hm hrest =>
            cases hm with
            | grid hgrid =>
                obtain ⟨l, hl, hend⟩ := receive_grid hreceives hgrid
                exact ⟨l, _, hl, hend, hrest⟩
            | update hupdate =>
                obtain ⟨l, hl, hend⟩ := receive_update hreceives (hpermitted _ rest hchannel) hupdate
                exact ⟨l, _, hl, hend, hrest⟩
      obtain ⟨l, q, hl, hend, hrest⟩ := hreceive
      refine ⟨{ s with channel := rest, layer := l }, by simp [Link.step, hchannel, hl], ?_⟩
      exact ⟨h.frameId, h.frame_ne, h.costmap, h.ordered, ⟨some q, hend, hrest⟩, h.unsent, h.saved, h.dirty⟩

theorem Inv.cycling (h : Inv narrow scaled F f s) (enabled : Bool) :
    ∃ t, s.step narrow scaled (.cycling enabled) = some t ∧ Inv narrow scaled F f t := by
  obtain ⟨start, hreceives, hcarries⟩ := h.carried
  obtain ⟨r, hr, hend, -⟩ := updateBounds_receives hreceives
  refine ⟨{ s with layer := r.1.updateCosts enabled }, by rw [Link.step, hr, Option.map_some], ?_⟩
  have hcosts := updateCosts_receives hend enabled
  exact ⟨h.frameId, h.frame_ne, h.costmap, h.ordered, ⟨start, hcosts, hcarries⟩, h.unsent, h.saved, h.dirty⟩

theorem Inv.step (h : Inv narrow scaled F f s) {e : Event K} (hpermitted : Permitted narrow s e) :
    ∃ t, s.step narrow scaled e = some t ∧ Inv narrow scaled F f t := by
  cases e with
  | updating g w => exact ⟨_, rfl, h.updating hpermitted⟩
  | publishing => exact h.publishing
  | delivering => exact h.delivering hpermitted
  | cycling enabled => exact h.cycling enabled

/-- 届き終わり、取り込み終わると、層は、最後に配信した地図の値を訳して持つ。 -/
theorem Inv.delivered (h : Inv narrow scaled F f s) {g : Costmap2D K} (hsent : s.sent = some g) (hchannel : s.channel = [])
    (hbuffer : s.layer.mapBuffer = none) :
    s.layer.grid.sizeX = g.sizeX ∧ s.layer.grid.sizeY = g.sizeY ∧
      s.layer.grid.costmap = g.costmap.map fun cost => f (costTranslation cost) := by
  obtain ⟨start, hreceives, hcarries⟩ := h.carried
  rw [hchannel, hsent] at hcarries
  cases hcarries with
  | nil =>
      obtain ⟨-, -, hshow⟩ := hreceives.received
      rcases hshow with ⟨-, hshows⟩ | ⟨m, hsome, -⟩
      · refine ⟨hshows.sizeX, hshows.sizeY, ?_⟩
        rw [hshows.costmap, pictureOf, List.map_map]
        rfl
      · rw [hbuffer] at hsome
        cases hsome

end Runs

/-- 配信の前の地図と、何も受け取っていない層。 -/
def twoCells : Link ℚ where
  publisher := ⟨"map", 2, 0, 1, 0, 0, 0, false, 0, 0, 0⟩
  costmap := ⟨2, 1, 1, 0, 0, [0, 254], 0⟩
  sent := none
  channel := []
  layer := ⟨⟨0, 0, 1, 0, 0, [], 255⟩, false, false, ⟨0, 0, 1, 0, 0⟩, 0, 0, 0, 0, "", false, false, false, false, none,
    true, false, 255, 100⟩

/-- 全体の後に、一つのマスの矩形が届く。 -/
def oneCell : List (Event ℚ) :=
  [.publishing, .delivering, .updating ⟨2, 1, 1, 0, 0, [0, 99], 0⟩ ⟨1, 2, 0, 1, by decide, by decide⟩, .publishing,
    .delivering, .cycling true]

/-- 値を縮める計算の、切り捨てた値。 -/
def scaledCost (value threshold : UInt8) : UInt8 := UInt8.ofNat (value.toNat * 254 / threshold.toNat)

theorem starts_twoCells : Starts id twoCells where
  frame := by decide
  bounds := rfl
  changed := by decide +kernel
  costmap := ⟨⟨by norm_num [twoCells], by decide, by decide, by decide, rfl⟩, by decide, by decide⟩
  sent := rfl
  channel := rfl
  mapReceived := rfl
  mapBuffer := rfl
  layer := rfl

/-- 初めの `n` 個の事象の後の状態は、計算して確かめられる。 -/
theorem oneCell_checked {n : ℕ} {p : Link ℚ → Bool} {t : Link ℚ}
    (hall : ((runs (Link.step id scaledCost) twoCells (oneCell.take n)).all p) = true)
    (hrun : runs (Link.step id scaledCost) twoCells (oneCell.take n) = some t) : p t = true := by
  rwa [hrun, Option.all_some] at hall

end Ranger.Static
