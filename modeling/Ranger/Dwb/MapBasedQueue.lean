import Mathlib.Data.Finset.Max
import Ranger.Lib.Priority
import Ranger.Lib.Run

/-!
# 優先度ごとの箱を持つ待ち行列

`costmap_queue` の `map_based_queue.hpp`。優先度の最も小さい箱の、最後に入れた要素から取り出す。
-/

namespace Ranger.Dwb
open Ranger.Lib

/-- `keys` と `bins` は `item_bins_` の鍵と箱である。反復子は鍵で表し、`end()` は `⊤` とする。 -/
structure MapBasedQueue (κ α : Type) where
  resetBins : Bool
  keys : Finset κ
  bins : κ → List α
  itemCount : ℕ
  iter : WithTop κ
  lastInsertIter : WithTop κ

namespace MapBasedQueue

variable {κ α : Type} [LinearOrder κ]

def reset (q : MapBasedQueue κ α) : MapBasedQueue κ α :=
  let q := if q.resetBins ∨ q.itemCount > 0 then { q with keys := ∅, bins := fun _ => [], itemCount := 0 } else q
  { q with iter := ⊤, lastInsertIter := ⊤ }

def create (resetBins : Bool) : MapBasedQueue κ α := reset ⟨resetBins, ∅, fun _ => [], 0, ⊤, ⊤⟩

/-- 優先度 `priority` の箱を見つけるか作り、`last_insert_iter_` で指す。 -/
def findBin (q : MapBasedQueue κ α) (priority : κ) : MapBasedQueue κ α :=
  if q.lastInsertIter = ⊤ ∨ q.lastInsertIter ≠ priority then
    if priority ∈ q.keys then { q with lastInsertIter := priority }
    else
      { q with
        keys := insert priority q.keys
        bins := Function.update q.bins priority []
        lastInsertIter := priority }
  else q

def enqueue (q : MapBasedQueue κ α) (priority : κ) (item : α) : MapBasedQueue κ α :=
  let q := q.findBin priority
  let q := { q with
    bins := Function.update q.bins priority (q.bins priority ++ [item])
    itemCount := q.itemCount + 1 }
  if q.iter = ⊤ ∨ (priority : WithTop κ) < q.iter then { q with iter := q.lastInsertIter } else q

def isEmpty (q : MapBasedQueue κ α) : Bool := q.itemCount == 0

/-- 空の箱の `back()` は `none` で表す。 -/
def front (q : MapBasedQueue κ α) : Except String (Option α) :=
  match q.iter with
  | none => throw "front() called on empty costmap_queue::MapBasedQueue!"
  | some k => pure (q.bins k).getLast?

def popBack (q : MapBasedQueue κ α) : MapBasedQueue κ α :=
  match q.iter with
  | none => q
  | some k =>
    if (q.bins k).isEmpty then q
    else { q with bins := Function.update q.bins k (q.bins k).dropLast, itemCount := q.itemCount - 1 }

def pop (q : MapBasedQueue κ α) : MapBasedQueue κ α :=
  let q := q.popBack
  { q with iter := (q.keys.filter fun k : κ => q.iter ≤ (k : WithTop κ) ∧ (q.bins k).isEmpty = false).min }

/-! ## 要素の並び -/

/-- 新しいものから順に並べた要素の、最も小さい優先度。空の並びでは `⊤` である。 -/
def least (l : List (κ × α)) : WithTop κ := l.foldr (fun e m => min (e.1 : WithTop κ) m) ⊤

def heldFront (l : List (κ × α)) : Except String (Option α) :=
  match least l with
  | none => throw "front() called on empty costmap_queue::MapBasedQueue!"
  | some k => pure ((l.find? fun e => e.1 = k).map Prod.snd)

/-- 最も小さい優先度の要素のうち、最も新しいものを除く。 -/
def heldPop (l : List (κ × α)) : List (κ × α) :=
  match least l with
  | none => l
  | some k => l.eraseP fun e => e.1 = k

inductive Call (κ α : Type)
  | enqueue (priority : κ) (item : α)
  | front
  | pop
  | isEmpty
  | reset

inductive Reply (α : Type)
  | done
  | item (result : Except String (Option α))
  | flag (b : Bool)

def call (q : MapBasedQueue κ α) : Call κ α → MapBasedQueue κ α × Reply α
  | .enqueue priority item => (q.enqueue priority item, .done)
  | .front => (q, .item q.front)
  | .pop => (q.pop, .done)
  | .isEmpty => (q, .flag q.isEmpty)
  | .reset => (q.reset, .done)

def heldCall (l : List (κ × α)) : Call κ α → List (κ × α) × Reply α
  | .enqueue priority item => ((priority, item) :: l, .done)
  | .front => (l, .item (heldFront l))
  | .pop => (heldPop l, .done)
  | .isEmpty => (l, .flag l.isEmpty)
  | .reset => ([], .done)

section Held

variable {q : MapBasedQueue κ α} {l : List (κ × α)} {k : κ} {e : κ × α}

/-- 優先度 `k` の要素を、入れた順に並べたもの。 -/
def binOf (l : List (κ × α)) (k : κ) : List α := ((l.filter fun e => e.1 = k).map Prod.snd).reverse

theorem binOf_cons (p : κ) (a : α) (l : List (κ × α)) (k : κ) :
    binOf ((p, a) :: l) k = if p = k then binOf l k ++ [a] else binOf l k := by
  rw [binOf, List.filter_cons]
  split_ifs with h <;> simp_all [binOf]

theorem binOf_eq_nil_iff : binOf l k = [] ↔ ∀ e ∈ l, e.1 ≠ k := by
  simp [binOf]

theorem least_cons (e : κ × α) (l : List (κ × α)) : least (e :: l) = min (e.1 : WithTop κ) (least l) := rfl

theorem least_le (he : e ∈ l) : least l ≤ e.1 := by
  induction l with
  | nil => exact absurd he List.not_mem_nil
  | cons d l ih =>
      rw [least_cons]
      rcases List.mem_cons.mp he with rfl | he
      · exact min_le_left _ _
      · exact (min_le_right _ _).trans (ih he)

theorem exists_least (h : least l = k) : ∃ e ∈ l, e.1 = k := by
  induction l with
  | nil => cases h
  | cons d l ih =>
      rw [least_cons] at h
      rcases min_choice (d.1 : WithTop κ) (least l) with hmin | hmin
      · rw [hmin] at h
        exact ⟨d, List.mem_cons_self, WithTop.coe_injective h⟩
      · rw [hmin] at h
        obtain ⟨e, he, hk⟩ := ih h
        exact ⟨e, List.mem_cons_of_mem _ he, hk⟩

theorem least_eq_top_iff : least l = ⊤ ↔ l = [] := by
  cases l with
  | nil => exact iff_of_true rfl rfl
  | cons e l =>
      refine iff_of_false (fun h => ?_) (List.cons_ne_nil _ _)
      have hle := least_le (List.mem_cons_self (a := e) (l := l))
      rw [h, top_le_iff] at hle
      exact WithTop.coe_ne_top hle

theorem binOf_erase_self (l : List (κ × α)) (k : κ) : binOf (l.eraseP fun e => e.1 = k) k = (binOf l k).dropLast := by
  induction l with
  | nil => rfl
  | cons e l ih =>
      obtain ⟨p, a⟩ := e
      by_cases h : p = k
      · rw [List.eraseP_cons_of_pos (by simpa using h), binOf_cons, if_pos h, List.dropLast_concat]
      · rw [List.eraseP_cons_of_neg (by simpa using h), binOf_cons, if_neg h, binOf_cons, if_neg h, ih]

theorem binOf_erase_of_ne {k' : κ} (l : List (κ × α)) (hne : k' ≠ k) :
    binOf (l.eraseP fun e => e.1 = k) k' = binOf l k' := by
  induction l with
  | nil => rfl
  | cons e l ih =>
      obtain ⟨p, a⟩ := e
      by_cases h : p = k
      · rw [List.eraseP_cons_of_pos (by simpa using h), binOf_cons, if_neg (fun heq => hne (heq.symm.trans h))]
      · rw [List.eraseP_cons_of_neg (by simpa using h), binOf_cons, binOf_cons, ih]

/-- 箱の最後の要素は、その優先度の最も新しい要素である。 -/
theorem getLast?_binOf (l : List (κ × α)) (k : κ) : (binOf l k).getLast? = (l.find? fun e => e.1 = k).map Prod.snd := by
  rw [binOf, List.getLast?_reverse, List.head?_map, List.head?_filter]

/-! ## 待ち行列の不変条件 -/

/-- 待ち行列が要素 `l` を持つ。 -/
structure Holds (q : MapBasedQueue κ α) (l : List (κ × α)) : Prop where
  bins : ∀ k ∈ q.keys, q.bins k = binOf l k
  keys : ∀ e ∈ l, e.1 ∈ q.keys
  count : q.itemCount = l.length
  iter : q.iter = least l
  last : ∀ k : κ, q.lastInsertIter = k → k ∈ q.keys

theorem Holds.reset (h : Holds q l) : Holds q.reset [] := by
  unfold MapBasedQueue.reset
  split_ifs with hclear
  · refine ⟨fun k hk => absurd hk (Finset.notMem_empty k), fun e he => absurd he List.not_mem_nil, rfl, rfl, ?_⟩
    intro k hk
    exact absurd hk.symm (WithTop.coe_ne_top)
  · have hnone : l = [] := by
      rw [not_or, not_lt, Nat.le_zero, h.count] at hclear
      exact List.length_eq_zero_iff.mp hclear.2
    subst hnone
    refine ⟨h.bins, h.keys, h.count, rfl, ?_⟩
    intro k hk
    exact absurd hk.symm (WithTop.coe_ne_top)

/-- 箱を見つけるか作っても、持つ要素は変わらない。 -/
theorem Holds.findBin (h : Holds q l) (priority : κ) :
    Holds (q.findBin priority) l ∧ (q.findBin priority).lastInsertIter = priority ∧
      priority ∈ (q.findBin priority).keys := by
  unfold MapBasedQueue.findBin
  split_ifs with hsearch hfound
  · exact ⟨⟨h.bins, h.keys, h.count, h.iter, fun k hk => WithTop.coe_injective hk ▸ hfound⟩, rfl, hfound⟩
  · refine ⟨⟨fun k hk => ?_, fun e he => Finset.mem_insert_of_mem (h.keys e he), h.count, h.iter, fun k hk => ?_⟩, rfl,
      Finset.mem_insert_self _ _⟩
    · show Function.update q.bins priority [] k = _
      rcases Finset.mem_insert.mp hk with rfl | hold
      · rw [Function.update_self, eq_comm, binOf_eq_nil_iff]
        rintro e he rfl
        exact hfound (h.keys e he)
      · have hne : k ≠ priority := by
          rintro rfl
          exact hfound hold
        rw [Function.update_of_ne hne, h.bins k hold]
    · exact WithTop.coe_injective hk ▸ Finset.mem_insert_self _ _
  · rw [not_or, not_not] at hsearch
    exact ⟨h, hsearch.2, h.last priority hsearch.2⟩

theorem Holds.enqueue (h : Holds q l) (priority : κ) (item : α) :
    Holds (q.enqueue priority item) ((priority, item) :: l) := by
  obtain ⟨hfind, hlast, hmem⟩ := h.findBin priority
  have hbins : ∀ k ∈ (q.findBin priority).keys,
      Function.update (q.findBin priority).bins priority ((q.findBin priority).bins priority ++ [item]) k =
        binOf ((priority, item) :: l) k := by
    intro k hk
    rw [binOf_cons]
    split_ifs with heq
    · subst heq
      rw [Function.update_self, hfind.bins _ hk]
    · rw [Function.update_of_ne (fun h => heq h.symm), hfind.bins k hk]
  have hkeys : ∀ e ∈ (priority, item) :: l, e.1 ∈ (q.findBin priority).keys := by
    intro e he
    rcases List.mem_cons.mp he with rfl | he
    · exact hmem
    · exact hfind.keys e he
  have hcount : (q.findBin priority).itemCount + 1 = ((priority, item) :: l).length := by
    rw [hfind.count, List.length_cons]
  have hiter := hfind.iter
  by_cases hfirst : (q.findBin priority).iter = ⊤ ∨ (priority : WithTop κ) < (q.findBin priority).iter
  · have hmin : min (priority : WithTop κ) (least l) = priority := by
      rw [← hiter]
      rcases hfirst with htop | hlt
      · rw [htop, min_eq_left le_top]
      · exact min_eq_left hlt.le
    rw [show q.enqueue priority item = _ from if_pos hfirst]
    exact ⟨hbins, hkeys, hcount, hlast.trans hmin.symm, hfind.last⟩
  · rw [show q.enqueue priority item = _ from if_neg hfirst]
    rw [not_or, not_lt, hiter] at hfirst
    exact ⟨hbins, hkeys, hcount, hiter.trans (min_eq_right hfirst.2).symm, hfind.last⟩

theorem Holds.bin_isEmpty (h : Holds q l) (hiter : q.iter = k) : (q.bins k).isEmpty = false := by
  obtain ⟨e, he, rfl⟩ := exists_least (h.iter.symm.trans hiter)
  rw [List.isEmpty_eq_false_iff, h.bins _ (h.keys e he), Ne, binOf_eq_nil_iff]
  intro hnone
  exact hnone e he rfl

/-- `iter_` の指す箱から先で、空でない最初の箱を探すと、最も小さい優先度に着く。 -/
theorem find_nonempty (hbins : ∀ k ∈ q.keys, q.bins k = binOf l k) (hkeys : ∀ e ∈ l, e.1 ∈ q.keys)
    (hiter : ∀ e ∈ l, q.iter ≤ e.1) :
    (q.keys.filter fun k : κ => q.iter ≤ (k : WithTop κ) ∧ (q.bins k).isEmpty = false).min = least l := by
  apply le_antisymm
  · cases hleast : least l with
    | top => exact le_top
    | coe k =>
        obtain ⟨e, he, rfl⟩ := exists_least hleast
        apply Finset.min_le
        rw [Finset.mem_filter, List.isEmpty_eq_false_iff, hbins _ (hkeys e he), Ne, binOf_eq_nil_iff]
        exact ⟨hkeys e he, hiter e he, fun hnone => hnone e he rfl⟩
  · apply Finset.le_min
    intro k hk
    rw [Finset.mem_filter, List.isEmpty_eq_false_iff] at hk
    obtain ⟨hmem, -, hne⟩ := hk
    rw [hbins k hmem, Ne, binOf_eq_nil_iff] at hne
    simp only [not_forall, not_not] at hne
    obtain ⟨e, he, rfl⟩ := hne
    exact least_le he

theorem heldPop_sublist (l : List (κ × α)) : (heldPop l).Sublist l := by
  unfold heldPop
  split
  · exact List.Sublist.refl l
  · exact List.eraseP_sublist

theorem heldPop_of_least (hleast : least l = k) : heldPop l = l.eraseP fun e => e.1 = k := by
  rw [heldPop, hleast]

/-- 指す箱の最後の要素を除いた後、`iter_` を探しなおす前。 -/
theorem Holds.popBack (h : Holds q l) :
    q.popBack.keys = q.keys ∧ q.popBack.iter = q.iter ∧ q.popBack.lastInsertIter = q.lastInsertIter ∧
      (∀ k ∈ q.keys, q.popBack.bins k = binOf (heldPop l) k) ∧ q.popBack.itemCount = (heldPop l).length := by
  have hiter := h.iter
  cases hk : q.iter with
  | top =>
      rw [hk, eq_comm, least_eq_top_iff] at hiter
      subst hiter
      have hsame : q.popBack = q := by
        rw [MapBasedQueue.popBack, hk]
      rw [hsame]
      exact ⟨rfl, hk, rfl, h.bins, h.count⟩
  | coe k =>
      rw [hk] at hiter
      have hpop : q.popBack = { q with
          bins := Function.update q.bins k (q.bins k).dropLast, itemCount := q.itemCount - 1 } := by
        rw [MapBasedQueue.popBack, hk]
        exact if_neg (by rw [h.bin_isEmpty hk]; exact Bool.false_ne_true)
      obtain ⟨e, he, rfl⟩ := exists_least hiter.symm
      rw [hpop, heldPop_of_least hiter.symm]
      refine ⟨rfl, hk, rfl, fun k' hk' => ?_, ?_⟩
      · show Function.update q.bins e.1 (q.bins e.1).dropLast k' = _
        by_cases heq : k' = e.1
        · subst heq
          rw [Function.update_self, h.bins _ hk', binOf_erase_self]
        · rw [Function.update_of_ne heq, h.bins _ hk', binOf_erase_of_ne l heq]
      · rw [List.length_eraseP_of_mem he (by simp)]
        show q.itemCount - 1 = _
        rw [h.count]

theorem Holds.pop (h : Holds q l) : Holds q.pop (heldPop l) := by
  obtain ⟨hkeys, hiter, hlast, hbins, hcount⟩ := h.popBack
  have hmem (e : κ × α) (he : e ∈ heldPop l) : e.1 ∈ q.popBack.keys := by
    rw [hkeys]
    exact h.keys e ((heldPop_sublist l).subset he)
  refine ⟨by rw [← hkeys] at hbins; exact hbins, hmem, hcount, ?_, fun k hk => ?_⟩
  · apply find_nonempty (by rw [hkeys]; exact hbins) hmem
    intro e he
    rw [hiter, h.iter]
    exact least_le ((heldPop_sublist l).subset he)
  · show k ∈ q.popBack.keys
    rw [hkeys]
    exact h.last k (hlast ▸ hk)

theorem Holds.front (h : Holds q l) : q.front = heldFront l := by
  unfold MapBasedQueue.front heldFront
  rw [← h.iter]
  cases hk : q.iter with
  | top => rfl
  | coe k =>
      obtain ⟨e, he, rfl⟩ := exists_least (h.iter.symm.trans hk)
      show pure (q.bins e.1).getLast? = _
      rw [h.bins _ (h.keys e he), getLast?_binOf]

theorem Holds.isEmpty (h : Holds q l) : q.isEmpty = l.isEmpty := by
  rw [MapBasedQueue.isEmpty, h.count]
  cases l <;> rfl

theorem Holds.create (resetBins : Bool) : Holds (create resetBins : MapBasedQueue κ α) [] := by
  apply Holds.reset
  refine ⟨fun k hk => absurd hk (Finset.notMem_empty k), fun e he => absurd he List.not_mem_nil, rfl, rfl, ?_⟩
  intro k hk
  exact absurd hk.symm (WithTop.coe_ne_top)

/-- どの呼び出しの列でも、箱に分けた待ち行列は、要素の並びと同じ結果を返す。取り出すのは、優先度の最も小さいもののうち最も新しいものである。 -/
theorem mapBasedQueue_outputs (resetBins : Bool) (calls : List (Call κ α)) :
    outputs call (create resetBins) calls = outputs heldCall [] calls := by
  apply outputs_eq_of_sim Holds
  · intro q l c h
    cases c with
    | enqueue priority item => exact ⟨h.enqueue priority item, rfl⟩
    | front => exact ⟨h, congrArg Reply.item h.front⟩
    | pop => exact ⟨h.pop, rfl⟩
    | isEmpty => exact ⟨h, congrArg Reply.flag h.isEmpty⟩
    | reset => exact ⟨h.reset, rfl⟩
  · exact Holds.create resetBins

/-- 先頭の要素を残りに戻すと、もとの要素になる。 -/
theorem heldPop_perm (hleast : least l = k) :
    ∃ e, (l.find? fun e => e.1 = k) = some e ∧ e.1 = k ∧ l.Perm (e :: heldPop l) := by
  rw [heldPop_of_least hleast]
  obtain ⟨e, he, heq⟩ := exists_least hleast
  obtain ⟨d, l₁, l₂, hbefore, hd, hl, herase⟩ := List.exists_of_eraseP (p := fun e => e.1 = k) he (by simpa using heq)
  refine ⟨d, ?_, by simpa using hd, ?_⟩
  · rw [List.find?_eq_some_iff_append]
    exact ⟨hd, l₁, l₂, hl, fun b hb => by simpa using hbefore b hb⟩
  · rw [herase, hl]
    exact List.perm_middle

theorem heldFront_of_least (hleast : least l = k) :
    heldFront l = .ok ((l.find? fun e => e.1 = k).map Prod.snd) := by
  rw [heldFront, hleast]
  rfl

end Held

/-! ## 優先度付きの待ち行列としての実現 -/

section Items

def tag (key : α → κ) (a : α) : κ × α := (key a, a)

/-- 優先度が `key` で決まる要素 `items` を、新しいものから順に持つ待ち行列。 -/
structure Items (key : α → κ) where
  queue : MapBasedQueue κ α
  items : List α
  holds : Holds queue (items.map (tag key))

variable {key : α → κ} {x : Items key} {a : α}

theorem map_tag_heldPop (items : List α) :
    ((heldPop (items.map (tag key))).map Prod.snd).map (tag key) = heldPop (items.map (tag key)) := by
  rw [List.map_map]
  refine (List.map_congr_left fun e he => ?_).trans (List.map_id _)
  obtain ⟨a, -, rfl⟩ := List.mem_map.mp ((heldPop_sublist _).subset he)
  rfl

namespace Items

def empty (key : α → κ) : Items key := ⟨create true, [], Holds.create true⟩

def push (x : Items key) (a : α) : Items key := ⟨x.queue.enqueue (key a) a, a :: x.items, x.holds.enqueue (key a) a⟩

def reset (x : Items key) : Items key := ⟨x.queue.reset, [], x.holds.reset⟩

def rest (x : Items key) : Items key where
  queue := x.queue.pop
  items := (heldPop (x.items.map (tag key))).map Prod.snd
  holds := by
    rw [map_tag_heldPop]
    exact x.holds.pop

/-- `front` で先頭を読み、`pop` で除く。 -/
def pop (x : Items key) : Option (α × Items key) :=
  match x.queue.front with
  | .ok (some a) => some (a, x.rest)
  | _ => none

theorem pop_cases (x : Items key) : x.pop = none ∧ x.items = [] ∨
    ∃ a, x.pop = some (a, x.rest) ∧ least (x.items.map (tag key)) = key a ∧ x.items.Perm (a :: x.rest.items) := by
  cases hleast : least (x.items.map (tag key)) with
  | top =>
      left
      have hempty := least_eq_top_iff.mp hleast
      rw [pop, x.holds.front, heldFront, hleast]
      exact ⟨rfl, List.map_eq_nil_iff.mp hempty⟩
  | coe k =>
      right
      obtain ⟨e, hfind, hk, hperm⟩ := heldPop_perm hleast
      have hmem : e ∈ x.items.map (tag key) := hperm.mem_iff.mpr List.mem_cons_self
      obtain ⟨a, -, rfl⟩ := List.mem_map.mp hmem
      refine ⟨a, ?_, congrArg _ hk.symm, ?_⟩
      · rw [pop, x.holds.front, heldFront_of_least hleast, hfind]
        rfl
      · have hitems := hperm.map Prod.snd
        rwa [List.map_map, show Prod.snd ∘ tag key = id from rfl, List.map_id] at hitems

end Items

/-- `costmap_queue` の待ち行列は、優先度付きの待ち行列である。 -/
def priorityQueue (key : α → κ) : PriorityQueue α key where
  Carrier := Items key
  elems x := x.items
  empty := Items.empty key
  push := Items.push
  pop := Items.pop
  elems_empty := rfl
  elems_push _ _ := rfl
  elems_of_pop_none := by
    intro x h
    rcases x.pop_cases with ⟨-, hitems⟩ | ⟨a, hpop, -⟩
    · rw [hitems]
      rfl
    · rw [hpop] at h
      cases h
  elems_of_pop := by
    intro x a r h
    rcases x.pop_cases with ⟨hnone, -⟩ | ⟨b, hpop, -, hperm⟩
    · rw [hnone] at h
      cases h
    · rw [hpop] at h
      cases h
      exact Multiset.coe_eq_coe.mpr hperm
  le_of_pop := by
    intro x a r h b hb
    rcases x.pop_cases with ⟨hnone, -⟩ | ⟨c, hpop, hleast, -⟩
    · rw [hnone] at h
      cases h
    · rw [hpop] at h
      cases h
      have hle := least_le (List.mem_map_of_mem (f := tag key) (Multiset.mem_coe.mp hb))
      rw [hleast] at hle
      exact WithTop.coe_le_coe.mp hle

end Items

end MapBasedQueue

end Ranger.Dwb
