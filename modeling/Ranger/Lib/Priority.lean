import Mathlib.Data.List.Sort
import Mathlib.Data.Multiset.AddSub

/-!
# 優先度付きの待ち行列

鍵の最も小さい要素から取り出す待ち行列の、操作と決まりを定める。鍵の等しい要素のどれが先に出るかは決めない。
-/

namespace Ranger.Lib

/-- `pop` は先頭の要素と残りを返し、空のとき `none` を返す。 -/
structure PriorityQueue (α : Type*) {κ : Type*} [LE κ] (key : α → κ) where
  Carrier : Type
  elems : Carrier → Multiset α
  empty : Carrier
  push : Carrier → α → Carrier
  pop : Carrier → Option (α × Carrier)
  elems_empty : elems empty = 0
  elems_push : ∀ q a, elems (push q a) = a ::ₘ elems q
  elems_of_pop_none : ∀ {q}, pop q = none → elems q = 0
  elems_of_pop : ∀ {q a r}, pop q = some (a, r) → elems q = a ::ₘ elems r
  le_of_pop : ∀ {q a r}, pop q = some (a, r) → ∀ b ∈ elems q, key a ≤ key b

namespace PriorityQueue

section Rules

variable {α κ : Type*} [LE κ] {key : α → κ} (Q : PriorityQueue α key)

def size (q : Q.Carrier) : ℕ := (Q.elems q).card

def pushAll (q : Q.Carrier) (as : List α) : Q.Carrier := as.foldl Q.push q

/-- `p` を満たすあいだ取り出した要素の並び。`fuel` は待ち行列の長さで足りる。 -/
def popWhile (p : α → Bool) : ℕ → Q.Carrier → List α
  | 0, _ => []
  | fuel + 1, q =>
      match Q.pop q with
      | none => []
      | some (a, r) => if p a then a :: popWhile p fuel r else []

attribute [simp] elems_empty elems_push

@[simp] theorem elems_pushAll (q : Q.Carrier) (as : List α) :
    Q.elems (Q.pushAll q as) = (↑as : Multiset α) + Q.elems q := by
  induction as generalizing q with
  | nil => simp [pushAll]
  | cons a as ih =>
      rw [pushAll, List.foldl_cons, ← pushAll, ih, elems_push, ← Multiset.cons_coe, Multiset.add_cons,
        Multiset.cons_add]

variable {Q} {q r : Q.Carrier} {a b : α}

theorem pop_eq_none_iff : Q.pop q = none ↔ Q.elems q = 0 := by
  refine ⟨Q.elems_of_pop_none, fun h => ?_⟩
  cases hpop : Q.pop q with
  | none => rfl
  | some c =>
      have helems := Q.elems_of_pop hpop
      rw [h] at helems
      exact absurd helems.symm (Multiset.cons_ne_zero)

theorem mem_of_pop (h : Q.pop q = some (a, r)) : a ∈ Q.elems q := by
  rw [Q.elems_of_pop h]
  exact Multiset.mem_cons_self _ _

theorem mem_of_mem_rest (h : Q.pop q = some (a, r)) (hb : b ∈ Q.elems r) : b ∈ Q.elems q := by
  rw [Q.elems_of_pop h]
  exact Multiset.mem_cons_of_mem hb

theorem mem_rest_of_ne (h : Q.pop q = some (a, r)) (hb : b ∈ Q.elems q) (hne : b ≠ a) : b ∈ Q.elems r := by
  rw [Q.elems_of_pop h] at hb
  exact (Multiset.mem_cons.mp hb).resolve_left hne

theorem size_of_pop (h : Q.pop q = some (a, r)) : Q.size q = Q.size r + 1 := by
  rw [size, Q.elems_of_pop h, Multiset.card_cons, size]

end Rules

/-! ## 並びによる実現 -/

/-- 鍵の順に並べて持つ待ち行列。鍵の等しい要素は後から入れたものが先に出る。 -/
def sorted {α : Type} {κ : Type*} [LinearOrder κ] (key : α → κ) : PriorityQueue α key where
  Carrier := { l : List α // l.Pairwise (Order.Preimage key (· ≤ ·)) }
  elems := fun q => ↑q.1
  empty := ⟨[], List.Pairwise.nil⟩
  push := fun q a => ⟨q.1.orderedInsert (Order.Preimage key (· ≤ ·)) a, q.2.orderedInsert a _⟩
  pop := fun q =>
    match q with
    | ⟨[], _⟩ => none
    | ⟨a :: l, h⟩ => some (a, ⟨l, h.of_cons⟩)
  elems_empty := rfl
  elems_push := fun q a => Multiset.coe_eq_coe.mpr (List.perm_orderedInsert _ a q.1)
  elems_of_pop_none := by
    intro q h
    match q with
    | ⟨[], _⟩ => rfl
  elems_of_pop := by
    intro q a r h
    match q with
    | ⟨b :: l, _⟩ =>
        cases h
        rfl
  le_of_pop := by
    intro q a r h b hb
    match q with
    | ⟨c :: l, hsorted⟩ =>
        cases h
        rcases List.mem_cons.mp (Multiset.mem_coe.mp hb) with rfl | hmem
        · exact le_rfl
        · exact List.rel_of_pairwise_cons hsorted hmem

/-- 細かい鍵の待ち行列は、粗い鍵の待ち行列でもある。 -/
def coarsen {α κ κ' : Type*} [LE κ] [LE κ'] {fine : α → κ'} (key : α → κ) (Q : PriorityQueue α fine)
    (h : ∀ a b, fine a ≤ fine b → key a ≤ key b) : PriorityQueue α key where
  Carrier := Q.Carrier
  elems := Q.elems
  empty := Q.empty
  push := Q.push
  pop := Q.pop
  elems_empty := Q.elems_empty
  elems_push := Q.elems_push
  elems_of_pop_none := Q.elems_of_pop_none
  elems_of_pop := Q.elems_of_pop
  le_of_pop := fun hpop b hb => h _ b (Q.le_of_pop hpop b hb)

end PriorityQueue

end Ranger.Lib
