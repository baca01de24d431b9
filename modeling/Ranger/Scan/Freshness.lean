import Mathlib.Data.Nat.Basic
import Ranger.Lib.Run
import Ranger.Scan.Merger

/-!
# 統合された走査の新しさ

到着と結果の記録を状態に加え、公開された統合が、その側で最後に届き、前の公開の後に届いた走査だけを含むことを示す。
-/

namespace Ranger.Scan
open Ranger.Lib

variable {Scan Cloud Time Transform : Type}

/-! ## 一回の到着 -/

section Step

variable {p : MergerParams} {g : Geometry Scan Cloud Time Transform}

theorem Side.eq_or_other (side side' : Side) : side' = side ∨ side' = side.other := by
  cases side <;> cases side' <;> simp [Side.other]

theorem Side.other_ne (side : Side) : side.other ≠ side := by cases side <;> simp [Side.other]

@[simp] theorem ScansMerger.set_same (s : ScansMerger Scan Cloud) (side : Side) (l : Lidar Scan Cloud) :
    (s.set side l).lidar side = l := Function.update_self _ _ _

@[simp] theorem ScansMerger.set_ne (s : ScansMerger Scan Cloud) {side side' : Side} (h : side' ≠ side)
    (l : Lidar Scan Cloud) : (s.set side l).lidar side' = s.lidar side' := Function.update_of_ne h _ _

def Lidar.ofScan (g : Geometry Scan Cloud Time Transform) (scan : Scan) : Lidar Scan Cloud where
  scanMsg := scan
  pcl := g.projectLaser scan
  scanReceived := true

theorem mergePart_some {tf : TfBuffer Scan Cloud Time Transform} {stamp : Time} {l : Lidar Scan Cloud}
    {part : Option Cloud} (h : mergePart p g tf stamp l = some part) :
    (l.scanError = true ∧ part = none) ∨
      ∃ cloud, l.scanError = false ∧ targetPcl p g tf stamp l.scanMsg l.pcl = some cloud ∧ part = some cloud := by
  unfold mergePart at h
  split at h
  · rename_i herror
    cases h
    exact Or.inl ⟨herror, rfl⟩
  · rename_i herror
    obtain ⟨cloud, hcloud, rfl⟩ := Option.map_eq_some_iff.mp h
    exact Or.inr ⟨cloud, by simpa using herror, hcloud, rfl⟩

variable [LE Time] [DecidableLE Time]

theorem receive_eq (a : Arrival Scan Cloud Time Transform) (s : ScansMerger Scan Cloud) :
    receive p g a s = scanCallback p g a.side a.scan a.tf a.now s := by
  unfold receive
  cases a.side <;> rfl

/-- `publishMessages` の結果。 -/
theorem publishMessages_cases {tf : Side → TfBuffer Scan Cloud Time Transform} {now : Time}
    {s s' : ScansMerger Scan Cloud} {o : Outcome Cloud Time} (h : publishMessages p g tf now s = (s', o)) :
    (s' = s ∧ o = .failed) ∨
      ∃ m, o = .published m ∧ (∀ side, s'.lidar side = { s.lidar side with scanReceived := false }) ∧
        ∀ side, mergePart p g (tf side) m.stamp (s.lidar side) = some (m.part side) := by
  simp only [publishMessages] at h
  split at h
  · cases h
    exact Or.inl ⟨rfl, rfl⟩
  · rename_i front hfront
    split at h
    · cases h
      exact Or.inl ⟨rfl, rfl⟩
    · rename_i rear hrear
      cases h
      refine Or.inr ⟨_, rfl, fun _ => rfl, fun side => ?_⟩
      cases side with
      | front => exact hfront
      | rear => exact hrear

/-- 到着の結果。待つのは、反対側に受信も誤りもないときだけである。 -/
theorem receive_cases {a : Arrival Scan Cloud Time Transform} {s s' : ScansMerger Scan Cloud}
    {o : Outcome Cloud Time} (h : receive p g a s = (s', o)) :
    (o = .waiting ∧ (s.lidar a.side.other).scanReceived = false ∧ (s.lidar a.side.other).scanError = false ∧
      s'.lidar a.side = Lidar.ofScan g a.scan ∧
      s'.lidar a.side.other = { s.lidar a.side.other with scanError := true }) ∨
    (((s.lidar a.side.other).scanReceived = true ∨ (s.lidar a.side.other).scanError = true) ∧
      publishMessages p g a.tf a.now (s.set a.side (Lidar.ofScan g a.scan)) = (s', o)) := by
  rw [receive_eq] at h
  have hset := s.set_ne a.side.other_ne (Lidar.ofScan g a.scan)
  simp only [scanCallback] at h
  rw [← Lidar.ofScan, hset] at h
  split at h
  · rename_i hopp
    exact Or.inr ⟨Bool.or_eq_true_iff.mp hopp, h⟩
  · rename_i hopp
    obtain ⟨hreceived, herror⟩ := Bool.or_eq_false_iff.mp (Bool.eq_false_iff.mpr hopp)
    cases h
    refine Or.inl ⟨rfl, hreceived, herror, ?_, ScansMerger.set_same _ _ _⟩
    rw [ScansMerger.set_ne _ a.side.other_ne.symm, ScansMerger.set_same]

end Step

/-! ## 記録 -/

/-- 到着と、その結果。 -/
abbrev Entry (Scan Cloud Time Transform : Type) := Arrival Scan Cloud Time Transform × Outcome Cloud Time

structure Trace (Scan Cloud Time Transform : Type) where
  merger : ScansMerger Scan Cloud
  log : List (Entry Scan Cloud Time Transform) := []

section Trace

variable [LE Time] [DecidableLE Time] (p : MergerParams) (g : Geometry Scan Cloud Time Transform)

def Trace.arrive (t : Trace Scan Cloud Time Transform) (a : Arrival Scan Cloud Time Transform) :
    Trace Scan Cloud Time Transform :=
  let (merger, o) := receive p g a t.merger
  { merger, log := t.log ++ [(a, o)] }

/-- 作られた状態からの、到着の列の実行。 -/
def trace [Inhabited Scan] [Inhabited Cloud] (arrivals : List (Arrival Scan Cloud Time Transform)) :
    Trace Scan Cloud Time Transform :=
  arrivals.foldl (Trace.arrive p g) { merger := ScansMerger.new }

end Trace

def Entry.OfSide (side : Side) (e : Entry Scan Cloud Time Transform) : Prop := e.1.side = side

def Entry.Published (e : Entry Scan Cloud Time Transform) : Prop := ∃ m, e.2 = .published m

/-- `k` 番目の到着での公開 `m` は、少なくとも片側を含み、含む側では、その側で最後に届き、前のどの公開よりも後に届いた走査から
作られた点群である。 -/
structure MergedAt (p : MergerParams) (g : Geometry Scan Cloud Time Transform)
    (log : List (Entry Scan Cloud Time Transform)) (k : Nat) (a : Arrival Scan Cloud Time Transform)
    (m : Merge Cloud Time) : Prop where
  included : ∃ side cloud, m.part side = some cloud
  fresh : ∀ side cloud, m.part side = some cloud → ∃ j b o, log[j]? = some (b, o) ∧
    LastAt (Entry.OfSide side) log j k ∧
    (∀ i e, i < k → log[i]? = some e → e.Published → i < j) ∧
    targetPcl p g (a.tf side) m.stamp b.scan (g.projectLaser b.scan) = some cloud

/-- 受信の印のある側のメンバは、その側で最後に届き、どの公開よりも後に届いた走査である。 -/
def Held (g : Geometry Scan Cloud Time Transform) (log : List (Entry Scan Cloud Time Transform)) (side : Side)
    (l : Lidar Scan Cloud) : Prop :=
  ∃ j b o, log[j]? = some (b, o) ∧ LastAt (Entry.OfSide side) log j log.length ∧
    (∀ i e, log[i]? = some e → e.Published → i < j) ∧ l.scanMsg = b.scan ∧ l.pcl = g.projectLaser b.scan

/-- `k` 番目の到着での公開は、`j` 番目に届いた、側 `side` の走査を含む。 -/
def TakenAt (log : List (Entry Scan Cloud Time Transform)) (side : Side) (j k : Nat) : Prop :=
  (∃ a m cloud, log[k]? = some (a, .published m) ∧ m.part side = some cloud) ∧
    LastAt (Entry.OfSide side) log j k

/-- 実行の不変条件。待った直後は、どちらの側にも受信か誤りの印がある。 -/
structure Trace.Inv (p : MergerParams) (g : Geometry Scan Cloud Time Transform)
    (t : Trace Scan Cloud Time Transform) : Prop where
  held : ∀ side, (t.merger.lidar side).scanReceived = true → Held g t.log side (t.merger.lidar side)
  marked : ∀ a, t.log.getLast? = some (a, .waiting) →
    ∀ side, (t.merger.lidar side).scanReceived = true ∨ (t.merger.lidar side).scanError = true
  merged : ∀ k a m, t.log[k]? = some (a, .published m) → MergedAt p g t.log k a m
  attempted : ∀ k a a', t.log[k]? = some (a, .waiting) → t.log[k + 1]? ≠ some (a', .waiting)

section Run

variable {p : MergerParams} {g : Geometry Scan Cloud Time Transform}
  {log : List (Entry Scan Cloud Time Transform)} {e : Entry Scan Cloud Time Transform} {side : Side}
  {l : Lidar Scan Cloud}

theorem MergedAt.concat {k : Nat} {a : Arrival Scan Cloud Time Transform} {m : Merge Cloud Time}
    (h : MergedAt p g log k a m) (hk : k < log.length) : MergedAt p g (log ++ [e]) k a m := by
  refine ⟨h.included, fun side cloud hpart => ?_⟩
  obtain ⟨j, b, o, hb, hlast, hafter, hcloud⟩ := h.fresh side cloud hpart
  refine ⟨j, b, o, getElem?_concat_of_some hb, hlast.concat hk, fun i e' hi he' => ?_, hcloud⟩
  rcases getElem?_concat_some.mp he' with he' | ⟨rfl, -⟩
  · exact hafter i e' hi he'
  · omega

/-- 届いた走査は、その到着が公開に至らない限り、新しい。 -/
theorem held_concat_self (hside : e.1.side = side) (hpub : ¬ e.Published) :
    Held g (log ++ [e]) side (Lidar.ofScan g e.1.scan) := by
  have hlast : LastAt (Entry.OfSide side) (log ++ [e]) log.length (log ++ [e]).length :=
    LastAt.concat_self hside (by simp)
  refine ⟨log.length, e.1, e.2, List.getElem?_concat_length, hlast, fun i e' he' hpub' => ?_, rfl, rfl⟩
  rcases getElem?_concat_some.mp he' with he' | ⟨-, rfl⟩
  · exact lt_length_of_getElem?_some he'
  · exact absurd hpub' hpub

theorem Held.concat (h : Held g log side l) (hside : e.1.side ≠ side) (hpub : ¬ e.Published) :
    Held g (log ++ [e]) side l := by
  obtain ⟨j, b, o, hb, hlast, hafter, hl⟩ := h
  have hj : j ≤ (log ++ [e]).length := Nat.le_trans hlast.1 (by simp)
  refine ⟨j, b, o, getElem?_concat_of_some hb, hlast.concat_of_not hside hj, fun i e' he' hpub' => ?_, hl⟩
  rcases getElem?_concat_some.mp he' with he' | ⟨-, rfl⟩
  · exact hafter i e' he' hpub'
  · exact absurd hpub' hpub

theorem getLast?_concat_eq {e' : Entry Scan Cloud Time Transform} (h : (log ++ [e]).getLast? = some e') : e = e' := by
  rw [List.getLast?_concat] at h
  exact Option.some.inj h

/-- 公開に至らない到着では、どの側の印も、新しい走査を指す。 -/
theorem Trace.Inv.held_arrive {t : Trace Scan Cloud Time Transform} {a : Arrival Scan Cloud Time Transform}
    {o : Outcome Cloud Time} {s : ScansMerger Scan Cloud} (hinv : t.Inv p g) (hpub : ∀ m, o ≠ .published m)
    (hthis : s.lidar a.side = Lidar.ofScan g a.scan)
    (hother : (s.lidar a.side.other).scanMsg = (t.merger.lidar a.side.other).scanMsg ∧
      (s.lidar a.side.other).pcl = (t.merger.lidar a.side.other).pcl ∧
      (s.lidar a.side.other).scanReceived = (t.merger.lidar a.side.other).scanReceived) (side : Side)
    (h : (s.lidar side).scanReceived = true) : Held g (t.log ++ [(a, o)]) side (s.lidar side) := by
  have hnot : ¬ Entry.Published (a, o) := fun ⟨m, hm⟩ => hpub m hm
  rcases a.side.eq_or_other side with rfl | rfl
  · rw [hthis]
    exact held_concat_self rfl hnot
  · rw [hother.2.2] at h
    have hheld := (hinv.held _ h).concat (e := (a, o)) a.side.other_ne.symm hnot
    rw [Held, hother.1, hother.2.1]
    exact hheld

/-- 公開は、その到着の側を含み、両側とも新しい走査から作られる。 -/
theorem Trace.Inv.mergedAt_arrive {t : Trace Scan Cloud Time Transform} {a : Arrival Scan Cloud Time Transform}
    {m : Merge Cloud Time} (hinv : t.Inv p g)
    (hother : (t.merger.lidar a.side.other).scanReceived = true ∨ (t.merger.lidar a.side.other).scanError = true)
    (hpart : ∀ side, mergePart p g (a.tf side) m.stamp
      ((t.merger.set a.side (Lidar.ofScan g a.scan)).lidar side) = some (m.part side)) :
    MergedAt p g (t.log ++ [(a, .published m)]) t.log.length a m := by
  have hthis := mergePart_some (hpart a.side)
  have hopp := mergePart_some (hpart a.side.other)
  rw [ScansMerger.set_same] at hthis
  rw [ScansMerger.set_ne _ a.side.other_ne] at hopp
  obtain ⟨cloud, -, hcloud, hsome⟩ := hthis.resolve_left fun h => by cases h.1
  refine ⟨⟨a.side, cloud, hsome⟩, fun side cloud' hcloud' => ?_⟩
  rcases a.side.eq_or_other side with rfl | rfl
  · rw [hsome] at hcloud'
    cases hcloud'
    refine ⟨t.log.length, a, .published m, List.getElem?_concat_length, LastAt.concat_self rfl (Nat.le_refl _),
      fun i _ hi _ _ => hi, hcloud⟩
  · rcases hopp with ⟨-, hnone⟩ | ⟨cloud'', herror, htarget, hsome'⟩
    · rw [hnone] at hcloud'
      cases hcloud'
    · rw [hsome'] at hcloud'
      cases hcloud'
      have hreceived := hother.resolve_right fun h => by simp [herror] at h
      obtain ⟨j, b, o, hb, hlast, hafter, hscan, hpcl⟩ := hinv.held _ hreceived
      rw [hscan, hpcl] at htarget
      refine ⟨j, b, o, getElem?_concat_of_some hb,
        hlast.concat_of_not a.side.other_ne.symm hlast.1, fun i e hi he => ?_, htarget⟩
      rcases getElem?_concat_some.mp he with he | ⟨rfl, -⟩
      · exact hafter i e he
      · omega

theorem Trace.Inv.merged_concat {t : Trace Scan Cloud Time Transform} {a : Arrival Scan Cloud Time Transform}
    {o : Outcome Cloud Time} (hinv : t.Inv p g)
    (hnew : ∀ m, o = .published m → MergedAt p g (t.log ++ [(a, o)]) t.log.length a m) :
    ∀ k a' m, (t.log ++ [(a, o)])[k]? = some (a', .published m) → MergedAt p g (t.log ++ [(a, o)]) k a' m := by
  intro k a' m hk
  rcases getElem?_concat_some.mp hk with hold | ⟨rfl, heq⟩
  · exact (hinv.merged k a' m hold).concat (lt_length_of_getElem?_some hold)
  · cases heq
    exact hnew m rfl

theorem Trace.Inv.attempted_concat {t : Trace Scan Cloud Time Transform} {a : Arrival Scan Cloud Time Transform}
    {o : Outcome Cloud Time} (hinv : t.Inv p g)
    (hnew : o = .waiting → ∀ a', t.log.getLast? ≠ some (a', .waiting)) :
    ∀ k a₁ a₂, (t.log ++ [(a, o)])[k]? = some (a₁, .waiting) →
      (t.log ++ [(a, o)])[k + 1]? ≠ some (a₂, .waiting) := by
  intro k a₁ a₂ h₁ h₂
  rcases getElem?_concat_some.mp h₁ with hold | ⟨rfl, -⟩
  · rcases getElem?_concat_some.mp h₂ with hold' | ⟨hk, heq⟩
    · exact hinv.attempted k a₁ a₂ hold hold'
    · cases heq
      refine hnew rfl a₁ ?_
      rw [List.getLast?_eq_getElem?, ← hk]
      exact hold
  · simp at h₂

variable [LE Time] [DecidableLE Time]

/-- 不変条件は、到着で保たれる。待つか、公開に失敗するか、公開するかで、場合を分ける。 -/
theorem Trace.Inv.arrive {t : Trace Scan Cloud Time Transform} (hinv : t.Inv p g)
    (a : Arrival Scan Cloud Time Transform) : (t.arrive p g a).Inv p g := by
  obtain ⟨⟨s', o⟩, hreceive⟩ : ∃ r, receive p g a t.merger = r := ⟨_, rfl⟩
  have harrive : t.arrive p g a = ⟨s', t.log ++ [(a, o)]⟩ := by rw [Trace.arrive, hreceive]
  rw [harrive]
  have hset := t.merger.set_ne a.side.other_ne (Lidar.ofScan g a.scan)
  rcases receive_cases hreceive with ⟨rfl, hreceived, herror, hthis, hother⟩ | ⟨hopp, hpublish⟩
  · refine ⟨hinv.held_arrive (by simp) hthis (by simp [hother]), fun _ _ side => ?_,
      hinv.merged_concat (by simp), hinv.attempted_concat fun _ a' hlast => ?_⟩
    · rcases a.side.eq_or_other side with rfl | rfl
      · exact Or.inl (congrArg Lidar.scanReceived hthis)
      · exact Or.inr (congrArg Lidar.scanError hother)
    · simpa [hreceived, herror] using hinv.marked a' hlast a.side.other
  · rcases publishMessages_cases hpublish with ⟨rfl, rfl⟩ | ⟨m, rfl, hclear, hpart⟩
    · refine ⟨hinv.held_arrive (by simp) (ScansMerger.set_same _ _ _) (by simp [hset]), fun _ hlast => ?_,
        hinv.merged_concat (by simp), hinv.attempted_concat (by simp)⟩
      cases getLast?_concat_eq hlast
    · refine ⟨fun side h => ?_, fun _ hlast => ?_, hinv.merged_concat fun m' h => ?_,
        hinv.attempted_concat (by simp)⟩
      · simp [hclear side] at h
      · cases getLast?_concat_eq hlast
      · cases h
        exact hinv.mergedAt_arrive hopp hpart

variable [Inhabited Scan] [Inhabited Cloud]

theorem trace_inv (arrivals : List (Arrival Scan Cloud Time Transform)) : (trace p g arrivals).Inv p g := by
  refine List.foldlRecOn arrivals _ ?_ fun t hinv a _ => hinv.arrive a
  constructor <;> simp [ScansMerger.new]

theorem trace_log (arrivals : List (Arrival Scan Cloud Time Transform)) :
    (trace p g arrivals).log.map Prod.fst = arrivals := by
  have key : ∀ t : Trace Scan Cloud Time Transform,
      (arrivals.foldl (Trace.arrive p g) t).log.map Prod.fst = t.log.map Prod.fst ++ arrivals := by
    induction arrivals with
    | nil => simp
    | cons a rest ih =>
        intro t
        rw [List.foldl_cons, ih]
        simp [Trace.arrive]
  exact key _

/-- 到着のどの列でも、公開された統合は、少なくとも片側を含み、含む側では、その側で最後に届き、前の公開の後に届いた走査から
作られる。同じ走査は二度公開されず、続く二つの到着の少なくとも一方は公開を試みる。 -/
theorem merges_fresh (p : MergerParams) (g : Geometry Scan Cloud Time Transform)
    (arrivals : List (Arrival Scan Cloud Time Transform)) :
    let log := (trace p g arrivals).log
    log.map Prod.fst = arrivals ∧
    (∀ k a m, log[k]? = some (a, .published m) → MergedAt p g log k a m) ∧
    (∀ side j k k', TakenAt log side j k → TakenAt log side j k' → k = k') ∧
    ∀ k e e', log[k]? = some e → log[k + 1]? = some e' → e.2 ≠ .waiting ∨ e'.2 ≠ .waiting := by
  intro log
  have hinv : (trace p g arrivals).Inv p g := trace_inv arrivals
  have hle : ∀ {side j k k'}, TakenAt log side j k → TakenAt log side j k' → k' ≤ k := by
    rintro side j k k' ⟨⟨a, m, cloud, hk, hpart⟩, hlast⟩ ⟨⟨a', m', cloud', hk', hpart'⟩, hlast'⟩
    by_contra hlt
    obtain ⟨i, b, o, -, hlast'', hafter, -⟩ := (hinv.merged k' a' m' hk').fresh side cloud' hpart'
    have hki := hafter k _ (Nat.lt_of_not_le hlt) hk ⟨m, rfl⟩
    rw [← hlast'.unique hlast''] at hki
    exact absurd hlast.1 (Nat.not_le_of_lt hki)
  refine ⟨trace_log arrivals, hinv.merged, fun side j k k' h h' => Nat.le_antisymm (hle h' h) (hle h h'), ?_⟩
  rintro k ⟨a, o⟩ ⟨a', o'⟩ hk hk'
  by_contra hwait
  obtain ⟨rfl, rfl⟩ := not_or.mp hwait |>.imp not_not.mp not_not.mp
  exact hinv.attempted k a a' hk hk'

-- 前だけが二度届くと前だけを公開し、問い合わせに失敗した走査は、次の公開で新しい走査に置き換わる。
example :
    let g : Geometry Nat Nat Nat Nat := ⟨id, id, fun _ => "lidar", fun cloud t => cloud + t⟩
    let tf : Nat → Bool → TfBuffer Nat Nat Nat Nat := fun t ok =>
      ⟨fun _ scan => some scan, fun _ _ _ => if ok then some t else none⟩
    let arrival : Side → Nat → Bool → Arrival Nat Nat Nat Nat := fun side scan ok => ⟨side, scan, fun _ => tf 100 ok, 0⟩
    let log := (trace {} g [arrival .front 1 true, arrival .front 2 true, arrival .rear 3 true, arrival .front 4 false,
      arrival .rear 5 true]).log
    (log.map fun e => match e.2 with
      | .published m => some (m.stamp, m.part .front, m.part .rear)
      | _ => none) = [none, some (2, some 102, none), none, none, some (5, some 104, some 105)] := by
  decide

end Run

end Ranger.Scan
