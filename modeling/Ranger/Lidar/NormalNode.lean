import Mathlib.Data.List.Basic

/-!
# 測定の復号

`UnpackerHandler_NormalNode::onData`。五バイトの測定を、初めの二つのバイトの検査ビットで見つける。時刻は扱わない。
-/

namespace Ranger.Lidar

/-- `rplidar_response_measurement_node_hq_t`。 -/
structure NodeHq where
  angleZQ14 : UInt16
  distMmQ2 : UInt32
  quality : UInt8
  flag : UInt8
  deriving DecidableEq

/-- `cachedScanNodeBuf` の長さは 5 である。 -/
structure NormalNode where
  cachedScanNodeBuf : List UInt8
  cachedScanNodeBufPos : ℕ

/-- 同期のビットと、その反転がある。 -/
def syncPasses (b : UInt8) : Bool := (b >>> 1 ^^^ b) &&& 1 != 0

def checkPasses (b : UInt8) : Bool := b &&& 1 != 0

/-- 五つのバイトの表す測定。角度は 16 ビットに切り詰められる。 -/
def toHqNode (buf : List UInt8) : NodeHq :=
  let byte (i : ℕ) : UInt8 := (buf[i]?).getD 0
  let syncQuality := byte 0
  let angleQ6Checkbit := (byte 1).toNat + 256 * (byte 2).toNat
  let distanceQ2 := (byte 3).toNat + 256 * (byte 4).toNat
  { angleZQ14 := UInt16.ofNat (angleQ6Checkbit / 2 * 256 / 90)
    distMmQ2 := UInt32.ofNat distanceQ2
    quality := syncQuality >>> 2 <<< 2
    flag := syncQuality &&& 1 }

namespace NormalNode

def create : NormalNode := ⟨List.replicate 5 0, 0⟩

def reset (h : NormalNode) : NormalNode := { h with cachedScanNodeBufPos := 0 }

def store (h : NormalNode) (b : UInt8) : NormalNode where
  cachedScanNodeBuf := h.cachedScanNodeBuf.set h.cachedScanNodeBufPos b
  cachedScanNodeBufPos := h.cachedScanNodeBufPos + 1

/-- 一つのバイトの後の状態と、渡した測定。 -/
def onByte (h : NormalNode) (b : UInt8) : NormalNode × Option NodeHq :=
  match h.cachedScanNodeBufPos with
  | 0 => if syncPasses b then (h.store b, none) else (h, none)
  | 1 => if checkPasses b then (h.store b, none) else ({ h with cachedScanNodeBufPos := 0 }, none)
  | 4 =>
      let buf := h.cachedScanNodeBuf.set 4 b
      (⟨buf, 0⟩, some (toHqNode buf))
  | _ => (h.store b, none)

def onData (h : NormalNode) : List UInt8 → NormalNode × List NodeHq
  | [] => (h, [])
  | b :: bs => (((h.onByte b).1.onData bs).1, (h.onByte b).2.toList ++ ((h.onByte b).1.onData bs).2)

theorem onData_append (h : NormalNode) (bs bs' : List UInt8) :
    h.onData (bs ++ bs') = (((h.onData bs).1.onData bs').1, (h.onData bs).2 ++ ((h.onData bs).1.onData bs').2) := by
  induction bs generalizing h with
  | nil => rfl
  | cons b bs ih => simp [onData, ih]

end NormalNode

/-! ## 測定の形 -/

/-- 測定。角度は 1/64 度、距離は 1/4 ミリである。 -/
structure Measurement where
  sync : Bool
  quality : Fin 64
  angleQ6 : Fin 32768
  distanceQ2 : UInt16

namespace Measurement

def bytes (m : Measurement) : List UInt8 :=
  [UInt8.ofNat (m.quality * 4 + if m.sync then 1 else 2), UInt8.ofNat (m.angleQ6 % 128 * 2 + 1),
    UInt8.ofNat (m.angleQ6 / 128), UInt8.ofNat (m.distanceQ2.toNat % 256), UInt8.ofNat (m.distanceQ2.toNat / 256)]

/-- 渡される測定。角度は 90 度が 16384 になり、360 度で一周する。 -/
def node (m : Measurement) : NodeHq where
  angleZQ14 := UInt16.ofNat (m.angleQ6 * 256 / 90)
  distMmQ2 := UInt32.ofNat m.distanceQ2.toNat
  quality := UInt8.ofNat (m.quality * 4)
  flag := if m.sync then 1 else 0

@[simp] theorem length_bytes (m : Measurement) : m.bytes.length = 5 := rfl

theorem syncPasses_head (sync : Bool) (q : Fin 64) : syncPasses (UInt8.ofNat (q * 4 + if sync then 1 else 2)) = true := by
  revert sync q
  decide

theorem checkPasses_second (a : ℕ) : checkPasses (UInt8.ofNat (a % 128 * 2 + 1)) = true := by
  have hall : ∀ a : Fin 128, checkPasses (UInt8.ofNat (a * 2 + 1)) = true := by decide
  exact hall ⟨a % 128, Nat.mod_lt a (by decide)⟩

theorem quality_head (sync : Bool) (q : Fin 64) :
    UInt8.ofNat (q * 4 + if sync then 1 else 2) >>> 2 <<< 2 = UInt8.ofNat (q * 4) := by
  revert sync q
  decide

theorem flag_head (sync : Bool) (q : Fin 64) :
    UInt8.ofNat (q * 4 + if sync then 1 else 2) &&& 1 = if sync then 1 else 0 := by
  revert sync q
  decide

theorem ofNat_head {b : UInt8} (h : syncPasses b = true) :
    UInt8.ofNat (b.toNat / 4 * 4 + if b.toNat % 2 = 1 then 1 else 2) = b := by
  have hall : ∀ n : Fin 256, syncPasses (UInt8.ofNat n) = true →
      UInt8.ofNat (n / 4 * 4 + if (n : ℕ) % 2 = 1 then 1 else 2) = UInt8.ofNat n := by decide +kernel
  have hb := hall ⟨b.toNat, b.toNat_lt⟩ (by simpa using h)
  simpa using hb

theorem ofNat_second {b : UInt8} (h : checkPasses b = true) : b.toNat = b.toNat / 2 * 2 + 1 := by
  have hall : ∀ n : Fin 256, checkPasses (UInt8.ofNat n) = true → (n : ℕ) = n / 2 * 2 + 1 := by decide +kernel
  exact hall ⟨b.toNat, b.toNat_lt⟩ (by simpa using h)

/-- 検査を通る五つのバイトは、測定を表す。 -/
theorem exists_bytes {b₀ b₁ : UInt8} (hsync : syncPasses b₀ = true) (hcheck : checkPasses b₁ = true) (b₂ b₃ b₄ : UInt8) :
    ∃ m : Measurement, m.bytes = [b₀, b₁, b₂, b₃, b₄] := by
  have h₀ := b₀.toNat_lt
  have h₁ := b₁.toNat_lt
  have h₂ := b₂.toNat_lt
  have h₃ := b₃.toNat_lt
  have h₄ := b₄.toNat_lt
  have hodd := ofNat_second hcheck
  let m : Measurement :=
    { sync := b₀.toNat % 2 = 1
      quality := ⟨b₀.toNat / 4, by omega⟩
      angleQ6 := ⟨b₁.toNat / 2 + 128 * b₂.toNat, by omega⟩
      distanceQ2 := UInt16.ofNat (b₃.toNat + 256 * b₄.toNat) }
  have hdistance : m.distanceQ2.toNat = b₃.toNat + 256 * b₄.toNat := by
    rw [UInt16.toNat_ofNat']
    omega
  have hangle : (b₁.toNat / 2 + 128 * b₂.toNat) % 128 * 2 + 1 = b₁.toNat := by omega
  refine ⟨m, ?_⟩
  rw [Measurement.bytes, hdistance]
  congr
  · simpa [m] using ofNat_head hsync
  · simp only [m, hangle, UInt8.ofNat_toNat]
  · simp [m, show (b₁.toNat / 2 + 128 * b₂.toNat) / 128 = b₂.toNat by omega]
  · simp [show (b₃.toNat + 256 * b₄.toNat) % 256 = b₃.toNat by omega]
  · simp [show (b₃.toNat + 256 * b₄.toNat) / 256 = b₄.toNat by omega]

theorem toHqNode_bytes (m : Measurement) : toHqNode m.bytes = m.node := by
  have hangle : (UInt8.ofNat (m.angleQ6 % 128 * 2 + 1)).toNat + 256 * (UInt8.ofNat (m.angleQ6 / 128)).toNat =
      m.angleQ6 * 2 + 1 := by
    rw [UInt8.toNat_ofNat', UInt8.toNat_ofNat']
    omega
  have hdistance : (UInt8.ofNat (m.distanceQ2.toNat % 256)).toNat +
      256 * (UInt8.ofNat (m.distanceQ2.toNat / 256)).toNat = m.distanceQ2.toNat := by
    have hlt := m.distanceQ2.toNat_lt
    rw [UInt8.toNat_ofNat', UInt8.toNat_ofNat']
    omega
  have hhalf : (m.angleQ6 * 2 + 1 : ℕ) / 2 = m.angleQ6 := by omega
  simp only [toHqNode, bytes, node, List.getElem?_cons_zero, List.getElem?_cons_succ, Option.getD_some, hangle, hdistance,
    hhalf, quality_head, flag_head]

end Measurement

/-! ## バイトの列の読み方 -/

/-- 読まれずに捨てられるバイトの列。二つ目のバイトの検査に落ちると、二つとも捨てられる。 -/
inductive Skipped : List UInt8 → Prop
  | nil : Skipped []
  | first {b bs} : syncPasses b = false → Skipped bs → Skipped (b :: bs)
  | second {b b' bs} : syncPasses b = true → checkPasses b' = false → Skipped bs → Skipped (b :: b' :: bs)

theorem Skipped.append {bs bs' : List UInt8} (h : Skipped bs) (h' : Skipped bs') : Skipped (bs ++ bs') := by
  induction h with
  | nil => exact h'
  | first hsync _ ih => exact .first hsync ih
  | second hsync hcheck _ ih => exact .second hsync hcheck ih

/-- 測定と、その前に捨てられるバイト。 -/
structure Segment where
  skipped : List UInt8
  measurement : Measurement
  isSkipped : Skipped skipped

def Segment.bytes (s : Segment) : List UInt8 := s.skipped ++ s.measurement.bytes

def segments (segs : List Segment) : List UInt8 := segs.flatMap Segment.bytes

def nodes (segs : List Segment) : List NodeHq := segs.map fun s => s.measurement.node

/-- 捨てられるバイトと、終わらない測定。 -/
def Unfinished (bs : List UInt8) : Prop :=
  ∃ (skipped : List UInt8) (m : Measurement) (n : ℕ), n < 5 ∧ Skipped skipped ∧ bs = skipped ++ m.bytes.take n

/-- 列は測定と終わらない測定に分かれる。 -/
def Reads (bs : List UInt8) (segs : List Segment) (tail : List UInt8) : Prop :=
  bs = segments segs ++ tail ∧ Unfinished tail

theorem Reads.skip {bs tail skipped : List UInt8} {segs : List Segment} (h : Reads bs segs tail) (hskip : Skipped skipped) :
    ∃ segs' tail', Reads (skipped ++ bs) segs' tail' := by
  obtain ⟨rfl, hend⟩ := h
  cases segs with
  | nil =>
      obtain ⟨skipped', m, n, hn, hskip', rfl⟩ := hend
      exact ⟨[], _, rfl, skipped ++ skipped', m, n, hn, hskip.append hskip', by simp [segments]⟩
  | cons s segs =>
      refine ⟨⟨skipped ++ s.skipped, s.measurement, hskip.append s.isSkipped⟩ :: segs, tail, ?_, hend⟩
      simp [segments, Segment.bytes]

theorem Reads.measure {bs tail : List UInt8} {segs : List Segment} (h : Reads bs segs tail) (m : Measurement) :
    Reads (m.bytes ++ bs) (⟨[], m, .nil⟩ :: segs) tail := by
  obtain ⟨rfl, hend⟩ := h
  exact ⟨by simp [segments, Segment.bytes], hend⟩

theorem reads_short {b₀ b₁ : UInt8} {bs : List UInt8} (hsync : syncPasses b₀ = true) (hcheck : checkPasses b₁ = true)
    (hshort : bs.length < 3) : ∃ segs tail, Reads (b₀ :: b₁ :: bs) segs tail := by
  match bs, hshort with
  | [], _ =>
      obtain ⟨m, hm⟩ := Measurement.exists_bytes hsync hcheck 0 0 0
      exact ⟨[], _, rfl, [], m, 2, by decide, .nil, by simp [hm]⟩
  | [b₂], _ =>
      obtain ⟨m, hm⟩ := Measurement.exists_bytes hsync hcheck b₂ 0 0
      exact ⟨[], _, rfl, [], m, 3, by decide, .nil, by simp [hm]⟩
  | [b₂, b₃], _ =>
      obtain ⟨m, hm⟩ := Measurement.exists_bytes hsync hcheck b₂ b₃ 0
      exact ⟨[], _, rfl, [], m, 4, by decide, .nil, by simp [hm]⟩

theorem syncPasses_one : syncPasses 1 = true := rfl

theorem checkPasses_one : checkPasses 1 = true := rfl

/-- どの列も、測定と終わらない測定に分かれる。 -/
theorem exists_reads (bs : List UInt8) : ∃ segs tail, Reads bs segs tail := by
  induction hlength : bs.length using Nat.strongRecOn generalizing bs with
  | _ n ih =>
    match bs, hlength with
    | [], _ =>
        obtain ⟨m, -⟩ := Measurement.exists_bytes syncPasses_one checkPasses_one 0 0 0
        exact ⟨[], [], rfl, [], m, 0, by decide, .nil, by simp⟩
    | b :: bs, hlength =>
        by_cases hsync : syncPasses b = true
        · match bs, hlength with
          | [], _ =>
              obtain ⟨m, hm⟩ := Measurement.exists_bytes hsync checkPasses_one 0 0 0
              exact ⟨[], _, rfl, [], m, 1, by decide, .nil, by simp [hm]⟩
          | b' :: bs, hlength =>
              by_cases hcheck : checkPasses b' = true
              · match bs, hlength with
                | b₂ :: b₃ :: b₄ :: bs, hlength =>
                    obtain ⟨m, hm⟩ := Measurement.exists_bytes hsync hcheck b₂ b₃ b₄
                    obtain ⟨segs, tail, hrest⟩ := ih bs.length (by simp at hlength; omega) bs rfl
                    have hmeasure := hrest.measure m
                    rw [hm] at hmeasure
                    exact ⟨_, _, hmeasure⟩
                | [], _ => exact reads_short hsync hcheck (by simp)
                | [_], _ => exact reads_short hsync hcheck (by simp)
                | [_, _], _ => exact reads_short hsync hcheck (by simp)
              · obtain ⟨segs, tail, hrest⟩ := ih bs.length (by simp at hlength; omega) bs rfl
                exact hrest.skip (.second hsync (by simpa using hcheck) .nil)
        · obtain ⟨segs, tail, hrest⟩ := ih bs.length (by simp at hlength; omega) bs rfl
          exact hrest.skip (.first (by simpa using hsync) .nil)

/-! ## 読む -/

section Reading

variable {h : NormalNode}

/-- 測定を待っている。 -/
structure Waiting (h : NormalNode) : Prop where
  pos : h.cachedScanNodeBufPos = 0
  length : h.cachedScanNodeBuf.length = 5

theorem onData_skipped {bs : List UInt8} (hbs : Skipped bs) (hwait : Waiting h) :
    (h.onData bs).2 = [] ∧ Waiting (h.onData bs).1 := by
  induction hbs generalizing h with
  | nil => exact ⟨rfl, hwait⟩
  | @first b bs hsync _ ih =>
      have hbyte : h.onByte b = (h, none) := by simp [NormalNode.onByte, hwait.pos, hsync]
      obtain ⟨hnone, hend⟩ := ih hwait
      simp [NormalNode.onData, hbyte, hnone, hend]
  | @second b b' bs hsync hcheck _ ih =>
      have hbyte : h.onByte b = (h.store b, none) := by simp [NormalNode.onByte, hwait.pos, hsync]
      have hbyte' : (h.store b).onByte b' = ({ h.store b with cachedScanNodeBufPos := 0 }, none) := by
        simp [NormalNode.onByte, NormalNode.store, hwait.pos, hcheck]
      have hback : Waiting { h.store b with cachedScanNodeBufPos := 0 } :=
        ⟨rfl, by simp [NormalNode.store, hwait.length]⟩
      obtain ⟨hnone, hend⟩ := ih hback
      simp [NormalNode.onData, hbyte, hbyte', hnone, hend]

theorem onData_bytes {b₀ b₁ : UInt8} (hsync : syncPasses b₀ = true) (hcheck : checkPasses b₁ = true) (b₂ b₃ b₄ : UInt8)
    (hwait : Waiting h) :
    h.onData [b₀, b₁, b₂, b₃, b₄] = (⟨[b₀, b₁, b₂, b₃, b₄], 0⟩, [toHqNode [b₀, b₁, b₂, b₃, b₄]]) ∧
    ∀ n < 5, (h.onData ([b₀, b₁, b₂, b₃, b₄].take n)).2 = [] := by
  obtain ⟨buf, pos⟩ := h
  obtain ⟨rfl, hlength⟩ := hwait
  match buf, hlength with
  | [a₀, a₁, a₂, a₃, a₄], _ =>
      constructor
      · simp [NormalNode.onData, NormalNode.onByte, NormalNode.store, hsync, hcheck]
      · intro n hn
        match n, hn with
        | 0, _ => rfl
        | 1, _ => simp [NormalNode.onData, NormalNode.onByte, hsync]
        | 2, _ => simp [NormalNode.onData, NormalNode.onByte, NormalNode.store, hsync, hcheck]
        | 3, _ => simp [NormalNode.onData, NormalNode.onByte, NormalNode.store, hsync, hcheck]
        | 4, _ => simp [NormalNode.onData, NormalNode.onByte, NormalNode.store, hsync, hcheck]

theorem onData_measurement (m : Measurement) (hwait : Waiting h) :
    (h.onData m.bytes).2 = [m.node] ∧ Waiting (h.onData m.bytes).1 := by
  have hbytes := (onData_bytes (Measurement.syncPasses_head m.sync m.quality) (Measurement.checkPasses_second m.angleQ6)
    (UInt8.ofNat (m.angleQ6 / 128)) (UInt8.ofNat (m.distanceQ2.toNat % 256)) (UInt8.ofNat (m.distanceQ2.toNat / 256)) hwait).1
  change h.onData m.bytes = (⟨m.bytes, 0⟩, [toHqNode m.bytes]) at hbytes
  rw [hbytes, m.toHqNode_bytes]
  exact ⟨rfl, rfl, rfl⟩

theorem onData_unfinished {tail : List UInt8} (hend : Unfinished tail) (hwait : Waiting h) : (h.onData tail).2 = [] := by
  obtain ⟨skipped, m, n, hn, hskip, rfl⟩ := hend
  obtain ⟨hnone, hback⟩ := onData_skipped hskip hwait
  have hbytes := (onData_bytes (Measurement.syncPasses_head m.sync m.quality) (Measurement.checkPasses_second m.angleQ6)
    (UInt8.ofNat (m.angleQ6 / 128)) (UInt8.ofNat (m.distanceQ2.toNat % 256)) (UInt8.ofNat (m.distanceQ2.toNat / 256)) hback).2
    n hn
  rw [NormalNode.onData_append, hnone, List.nil_append]
  exact hbytes

theorem onData_segments (segs : List Segment) (hwait : Waiting h) :
    (h.onData (segments segs)).2 = nodes segs ∧ Waiting (h.onData (segments segs)).1 := by
  induction segs generalizing h with
  | nil => exact ⟨rfl, hwait⟩
  | cons s segs ih =>
      obtain ⟨hnone, hback⟩ := onData_skipped s.isSkipped hwait
      obtain ⟨hnode, hback'⟩ := onData_measurement s.measurement hback
      obtain ⟨hrest, hend⟩ := ih hback'
      have hbytes : segments (s :: segs) = s.skipped ++ (s.measurement.bytes ++ segments segs) := by
        simp [segments, Segment.bytes]
      rw [hbytes, NormalNode.onData_append, NormalNode.onData_append, hnone, hnode, hrest]
      exact ⟨rfl, hend⟩

theorem Reads.onData {bs tail : List UInt8} {segs : List Segment} (hreads : Reads bs segs tail) (hwait : Waiting h) :
    (h.onData bs).2 = nodes segs := by
  obtain ⟨rfl, hend⟩ := hreads
  obtain ⟨hnodes, hback⟩ := onData_segments segs hwait
  rw [NormalNode.onData_append, hnodes, onData_unfinished hend hback, List.append_nil]

end Reading

/-- 区切られたバイトの列を、順に受け取る。 -/
def NormalNode.onDataAll (h : NormalNode) : List (List UInt8) → List NodeHq
  | [] => []
  | bs :: rest => (h.onData bs).2 ++ (h.onData bs).1.onDataAll rest

theorem NormalNode.onDataAll_flatten (h : NormalNode) (chunks : List (List UInt8)) :
    h.onDataAll chunks = (h.onData chunks.flatten).2 := by
  induction chunks generalizing h with
  | nil => rfl
  | cons bs chunks ih =>
      rw [List.flatten_cons, onData_append]
      exact congrArg _ (ih _)

/-- どのバイトの列も、どう区切って受け取っても、測定の列として読まれる。捨てられるバイトと終わらない測定の他は全て渡され、読み方は
一つの結果に決まる。 -/
theorem onDataAll_parse (chunks : List (List UInt8)) :
    (∃ segs tail, Reads chunks.flatten segs tail) ∧
    ∀ segs tail, Reads chunks.flatten segs tail → NormalNode.create.onDataAll chunks = nodes segs := by
  refine ⟨exists_reads _, fun segs tail hreads => ?_⟩
  rw [NormalNode.onDataAll_flatten]
  exact hreads.onData ⟨rfl, rfl⟩

end Ranger.Lidar
