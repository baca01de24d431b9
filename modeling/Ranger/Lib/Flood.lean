import Mathlib.Data.Finset.Card
import Mathlib.Data.Finset.Filter
import Mathlib.Logic.Relation

/-!
# 連結成分の番号づけ

番号のない点に新しい番号をつけ、隣に再帰して同じ番号をつける深さ優先の探索。負の値は、番号がないことを表す。隣が対称であるとき、番号は食い違わず、連結成分ごとに一つになる。
-/

namespace Ranger.Lib

variable {α : Type*} [DecidableEq α]

/-- 点 `a` の隣 `b` を訪れる。番号がなければ、`a` の番号をつけて `go` で広げる。番号が食い違うとき `none` である。 -/
def visit (go : α → (α → ℤ) → Option (α → ℤ)) (a : α) (label : α → ℤ) (b : α) : Option (α → ℤ) :=
  if 0 ≤ label b then if label b = label a then some label else none
  else go b (Function.update label b (label a))

/-- 点 `a` の番号を、番号のない隣に再帰して移す。 -/
def flood (next : α → List α) : ℕ → α → (α → ℤ) → Option (α → ℤ)
  | 0, _, _ => none
  | fuel + 1, a, label => (next a).foldlM (visit (flood next fuel) a) label

/-- 列の順に、番号のない点に次の番号をつけて広げる。 -/
def floodAll (next : α → List α) (fuel : ℕ) (queue : List α) (state : (α → ℤ) × ℕ) : Option ((α → ℤ) × ℕ) :=
  queue.foldlM (fun state a =>
    if 0 ≤ state.1 a then some state
    else (flood next fuel a (Function.update state.1 a state.2)).map fun label => (label, state.2 + 1)) state

variable {next : α → List α} {V : Finset α} {a b : α} {label label' label'' : α → ℤ} {l : ℤ} {fuel count : ℕ}

/-- 番号のある隣どうしは同じ番号で、番号のない隣を持つ点の番号は `l` である。 -/
structure Frontier (next : α → List α) (l : ℤ) (label : α → ℤ) : Prop where
  agree : ∀ a b, b ∈ next a → 0 ≤ label a → 0 ≤ label b → label a = label b
  boundary : ∀ a b, b ∈ next a → 0 ≤ label a → label b < 0 → label a = l

/-- 新しく番号のついた点は、`a` から届き、その隣にはみな番号がある。 -/
structure Flooded (next : α → List α) (a : α) (label label' : α → ℤ) : Prop where
  keeps : ∀ b, 0 ≤ label b → label' b = label b
  value : ∀ b, label b < 0 → 0 ≤ label' b → label' b = label a
  reach : ∀ b, label b < 0 → 0 ≤ label' b → Relation.ReflTransGen (fun a b => b ∈ next a) a b
  closed : ∀ b, label b < 0 → 0 ≤ label' b → ∀ c ∈ next b, 0 ≤ label' c

def unlabelled (V : Finset α) (label : α → ℤ) : Finset α := V.filter fun a => label a < 0

/-! ## 一つの番号 -/

omit [DecidableEq α] in
theorem Flooded.refl (next : α → List α) (a : α) (label : α → ℤ) : Flooded next a label label :=
  ⟨fun _ _ => rfl, fun _ hb hb' => absurd hb' (not_le.mpr hb), fun _ hb hb' => absurd hb' (not_le.mpr hb),
    fun _ hb hb' => absurd hb' (not_le.mpr hb)⟩

omit [DecidableEq α] in
theorem Flooded.nonneg (h : Flooded next a label label') (hb : 0 ≤ label b) : 0 ≤ label' b := by
  rw [h.keeps b hb]
  exact hb

omit [DecidableEq α] in
theorem Flooded.trans (ha : 0 ≤ label a) (h : Flooded next a label label') (h' : Flooded next a label' label'') :
    Flooded next a label label'' where
  keeps b hb := (h'.keeps b (h.nonneg hb)).trans (h.keeps b hb)
  value b hb hb'' := by
    rcases lt_or_ge (label' b) 0 with hmid | hmid
    · exact (h'.value b hmid hb'').trans (h.keeps a ha)
    · rw [h'.keeps b hmid]
      exact h.value b hb hmid
  reach b hb hb'' := by
    rcases lt_or_ge (label' b) 0 with hmid | hmid
    · exact h'.reach b hmid hb''
    · exact h.reach b hb hmid
  closed b hb hb'' c hc := by
    rcases lt_or_ge (label' b) 0 with hmid | hmid
    · exact h'.closed b hmid hb'' c hc
    · exact h'.nonneg (h.closed b hb hmid c hc)

/-- 番号のない点 `b` に番号 `l` をつける。 -/
theorem Frontier.update (hsymm : ∀ a b, b ∈ next a → a ∈ next b) (h : Frontier next l label) (hl : 0 ≤ l)
    (hb : label b < 0) : Frontier next l (Function.update label b l) where
  agree x y hedge hx hy := by
    by_cases hxb : x = b
    · by_cases hyb : y = b
      · rw [hxb, hyb]
      · rw [Function.update_of_ne hyb] at hy ⊢
        rw [hxb, Function.update_self]
        exact (h.boundary y x (hsymm x y hedge) hy (hxb ▸ hb)).symm
    · by_cases hyb : y = b
      · rw [Function.update_of_ne hxb] at hx ⊢
        rw [hyb, Function.update_self]
        exact h.boundary x y hedge hx (hyb ▸ hb)
      · rw [Function.update_of_ne hxb] at hx ⊢
        rw [Function.update_of_ne hyb] at hy ⊢
        exact h.agree x y hedge hx hy
  boundary x y hedge hx hy := by
    have hyb : y ≠ b := by
      rintro rfl
      rw [Function.update_self] at hy
      exact absurd hl (not_le.mpr hy)
    rw [Function.update_of_ne hyb] at hy
    by_cases hxb : x = b
    · rw [hxb, Function.update_self]
    · rw [Function.update_of_ne hxb] at hx ⊢
      exact h.boundary x y hedge hx hy

theorem unlabelled_update (hV : b ∈ V) (hb : label b < 0) (hl : 0 ≤ l) :
    (unlabelled V (Function.update label b l)).card < (unlabelled V label).card := by
  apply Finset.card_lt_card
  refine ⟨fun x hx => ?_, fun hsub => ?_⟩
  · obtain ⟨hxV, hneg⟩ := Finset.mem_filter.mp hx
    rw [Function.update_apply] at hneg
    split_ifs at hneg
    · exact absurd hl (not_le.mpr hneg)
    · exact Finset.mem_filter.mpr ⟨hxV, hneg⟩
  · obtain ⟨-, hneg⟩ := Finset.mem_filter.mp (hsub (Finset.mem_filter.mpr ⟨hV, hb⟩))
    rw [Function.update_self] at hneg
    exact absurd hl (not_le.mpr hneg)

omit [DecidableEq α] in
theorem Flooded.unlabelled_le (h : Flooded next a label label') :
    (unlabelled V label').card ≤ (unlabelled V label).card := by
  apply Finset.card_le_card
  intro x hx
  obtain ⟨hxV, hneg⟩ := Finset.mem_filter.mp hx
  refine Finset.mem_filter.mpr ⟨hxV, ?_⟩
  by_contra hpos
  exact absurd (h.nonneg (not_lt.mp hpos)) (not_le.mpr hneg)

/-- 点 `b` に番号をつけて広げた結果は、`a` から広げた結果の一部である。 -/
theorem Flooded.of_update (hedge : b ∈ next a) (hb : label b < 0) (hl : 0 ≤ label a)
    (h : Flooded next b (Function.update label b (label a)) label') (hnext : ∀ c ∈ next b, 0 ≤ label' c) :
    Flooded next a label label' := by
  have hfirst : Function.update label b (label a) b = label a := Function.update_self _ _ _
  have hother (x : α) (hx : x ≠ b) : Function.update label b (label a) x = label x := Function.update_of_ne hx _ _
  refine ⟨fun x hx => ?_, fun x hx hx' => ?_, fun x hx hx' => ?_, fun x hx hx' => ?_⟩
  · have hxb : x ≠ b := by
      rintro rfl
      exact absurd hx (not_le.mpr hb)
    rw [← hother x hxb] at hx ⊢
    exact h.keeps x hx
  · by_cases hxb : x = b
    · rw [hxb, h.keeps b (by rwa [hfirst]), hfirst]
    · rw [← hother x hxb] at hx
      rw [h.value x hx hx', hfirst]
  · by_cases hxb : x = b
    · rw [hxb]
      exact Relation.ReflTransGen.single hedge
    · rw [← hother x hxb] at hx
      exact Relation.ReflTransGen.head hedge (h.reach x hx hx')
  · by_cases hxb : x = b
    · rw [hxb]
      exact hnext
    · rw [← hother x hxb] at hx
      exact h.closed x hx hx'

/-- `flood` の約束。番号のない点の数より多い段数があれば、隣にはみな番号がつく。 -/
def Floods (next : α → List α) (V : Finset α) (fuel : ℕ) (go : α → (α → ℤ) → Option (α → ℤ)) : Prop :=
  ∀ a ∈ V, ∀ label, 0 ≤ label a → Frontier next (label a) label → (unlabelled V label).card < fuel →
    ∃ label', go a label = some label' ∧ Flooded next a label label' ∧ Frontier next (label a) label' ∧
      ∀ b ∈ next a, 0 ≤ label' b

theorem Floods.visit {go : α → (α → ℤ) → Option (α → ℤ)} (hgo : Floods next V fuel go)
    (hsymm : ∀ a b, b ∈ next a → a ∈ next b) (hbV : b ∈ V) (hedge : b ∈ next a) (hl : 0 ≤ label a)
    (hfrontier : Frontier next (label a) label) (hfuel : (unlabelled V label).card < fuel + 1) :
    ∃ label', visit go a label b = some label' ∧ Flooded next a label label' ∧ Frontier next (label a) label' ∧
      0 ≤ label' b := by
  unfold Lib.visit
  by_cases hb : 0 ≤ label b
  · rw [if_pos hb, if_pos (hfrontier.agree a b hedge hl hb).symm]
    exact ⟨label, rfl, Flooded.refl next a label, hfrontier, hb⟩
  · have hneg := not_le.mp hb
    have hself : Function.update label b (label a) b = label a := Function.update_self _ _ _
    have hpos : 0 ≤ Function.update label b (label a) b := by rwa [hself]
    have hcard := unlabelled_update hbV hneg hl
    obtain ⟨label', hrun, hflooded, hfrontier', hall⟩ := hgo b hbV (Function.update label b (label a)) hpos
      (by rw [hself]; exact hfrontier.update hsymm hl hneg) (Nat.lt_of_lt_of_le hcard (Nat.le_of_lt_succ hfuel))
    rw [if_neg hb]
    rw [hself] at hfrontier'
    exact ⟨label', hrun, Flooded.of_update hedge hneg hl hflooded hall, hfrontier', hflooded.nonneg hpos⟩

theorem Floods.foldlM {go : α → (α → ℤ) → Option (α → ℤ)} (hgo : Floods next V fuel go)
    (hsymm : ∀ a b, b ∈ next a → a ∈ next b) {bs : List α} (hbs : ∀ b ∈ bs, b ∈ V ∧ b ∈ next a) (hl : 0 ≤ label a)
    (hfrontier : Frontier next (label a) label) (hfuel : (unlabelled V label).card < fuel + 1) :
    ∃ label', bs.foldlM (Lib.visit go a) label = some label' ∧ Flooded next a label label' ∧
      Frontier next (label a) label' ∧ ∀ b ∈ bs, 0 ≤ label' b := by
  induction bs generalizing label with
  | nil => exact ⟨label, rfl, Flooded.refl next a label, hfrontier, fun b hb => absurd hb List.not_mem_nil⟩
  | cons b bs ih =>
      obtain ⟨hbV, hedge⟩ := hbs b List.mem_cons_self
      obtain ⟨label₁, hrun₁, hflooded₁, hfrontier₁, hb⟩ := hgo.visit hsymm hbV hedge hl hfrontier hfuel
      have hsame := hflooded₁.keeps a hl
      rw [← hsame] at hfrontier₁
      obtain ⟨label', hrun, hflooded, hfrontier', hall⟩ := ih (fun c hc => hbs c (List.mem_cons_of_mem b hc))
        (hflooded₁.nonneg hl) hfrontier₁ (Nat.lt_of_le_of_lt hflooded₁.unlabelled_le hfuel)
      rw [hsame] at hfrontier'
      refine ⟨label', ?_, hflooded₁.trans hl hflooded, hfrontier', fun c hc => ?_⟩
      · rw [List.foldlM_cons, hrun₁]
        exact hrun
      · rcases List.mem_cons.mp hc with rfl | hc
        · exact hflooded.nonneg hb
        · exact hall c hc

theorem flood_floods (hsymm : ∀ a b, b ∈ next a → a ∈ next b) (hclosed : ∀ a ∈ V, ∀ b ∈ next a, b ∈ V) (fuel : ℕ) :
    Floods next V fuel (flood next fuel) := by
  induction fuel with
  | zero =>
      intro a _ label _ _ hfuel
      exact absurd hfuel (Nat.not_lt_zero _)
  | succ fuel ih =>
      intro a ha label hl hfrontier hfuel
      exact ih.foldlM hsymm (fun b hb => ⟨hclosed a ha b hb, hb⟩) hl hfrontier hfuel

/-! ## すべての番号 -/

/-- 番号のついた点の隣にはみな番号があり、番号は連結成分ごとに一つである。 -/
structure Labelled (next : α → List α) (V : Finset α) (label : α → ℤ) (count : ℕ) : Prop where
  closed : ∀ a ∈ V, 0 ≤ label a → ∀ b ∈ next a, label b = label a
  linked : ∀ a ∈ V, ∀ b ∈ V, 0 ≤ label a → label b = label a → Relation.ReflTransGen (fun a b => b ∈ next a) a b
  range : ∀ a ∈ V, label a < count
  used : ∀ k < count, ∃ a ∈ V, label a = k

omit [DecidableEq α] in
theorem Labelled.start (h : ∀ a ∈ V, label a < 0) : Labelled next V label 0 where
  closed a ha hpos := absurd hpos (not_le.mpr (h a ha))
  linked a ha _ _ hpos := absurd hpos (not_le.mpr (h a ha))
  range a ha := h a ha
  used k hk := absurd hk (Nat.not_lt_zero k)

/-- 閉じた番号づけに新しい番号を一つ加えると、広げる途中の番号づけになる。 -/
theorem Labelled.frontier (hsymm : ∀ a b, b ∈ next a → a ∈ next b) (hempty : ∀ a, next a ≠ [] → a ∈ V)
    (h : Labelled next V label count) (hneg : label a < 0) :
    Frontier next count (Function.update label a count) := by
  have hmem (x y : α) (hedge : y ∈ next x) : x ∈ V := hempty x (List.ne_nil_of_mem hedge)
  -- 番号のある点の隣には番号があるので、`a` の隣には番号がない。
  have halone (y : α) (hedge : a ∈ next y) : label y < 0 := by
    by_contra hy
    have heq := h.closed y (hmem y a hedge) (not_lt.mp hy) a hedge
    rw [← heq] at hy
    exact hy hneg
  refine ⟨fun x y hedge hx hy => ?_, fun x y hedge hx hy => ?_⟩
  · by_cases hxa : x = a
    · by_cases hya : y = a
      · rw [hxa, hya]
      · rw [Function.update_of_ne hya] at hy
        exact absurd hy (not_le.mpr (halone y (hxa ▸ hsymm x y hedge)))
    · rw [Function.update_of_ne hxa] at hx ⊢
      by_cases hya : y = a
      · exact absurd hx (not_le.mpr (halone x (hya ▸ hedge)))
      · rw [Function.update_of_ne hya]
        exact (h.closed x (hmem x y hedge) hx y hedge).symm
  · by_cases hxa : x = a
    · rw [hxa, Function.update_self]
    · have hya : y ≠ a := by
        rintro rfl
        rw [Function.update_self] at hy
        exact absurd (Int.natCast_nonneg count) (not_le.mpr hy)
      rw [Function.update_of_ne hxa] at hx
      rw [Function.update_of_ne hya, h.closed x (hmem x y hedge) hx y hedge] at hy
      exact absurd hx (not_le.mpr hy)

omit [DecidableEq α] in
/-- 新しく番号 `count` のついた点が `a` から届く点で、その隣にもみな番号があれば、番号づけは一つ大きくなる。 -/
theorem Labelled.extend (hsymm : ∀ a b, b ∈ next a → a ∈ next b) (h : Labelled next V label count) (ha : a ∈ V)
    (hself : label' a = count) (hold : ∀ x, 0 ≤ label x → label' x = label x)
    (hnew : ∀ x, label x < 0 → 0 ≤ label' x → label' x = count ∧ Relation.ReflTransGen (fun a b => b ∈ next a) a x ∧
      ∀ c ∈ next x, 0 ≤ label' c)
    (hagree : ∀ x y, y ∈ next x → 0 ≤ label' x → 0 ≤ label' y → label' x = label' y) :
    Labelled next V label' (count + 1) where
  closed x hx hx' y hedge := by
    have hy' : 0 ≤ label' y := by
      rcases lt_or_ge (label x) 0 with hlt | hge
      · exact (hnew x hlt hx').2.2 y hedge
      · have hy := h.closed x hx hge y hedge
        rw [hold y (hy ▸ hge), hy]
        exact hge
    exact (hagree x y hedge hx' hy').symm
  linked x hx y hy hx' heq := by
    have hback : Std.Symm fun a b => b ∈ next a := ⟨hsymm⟩
    have hbelow (z : α) (hz : z ∈ V) (hz' : label' z = count) : label z < 0 := by
      by_contra hge
      have hrange := h.range z hz
      rw [hold z (not_lt.mp hge)] at hz'
      omega
    by_cases hcount : label' x = count
    · have hxreach := (hnew x (hbelow x hx hcount) hx').2.1
      have hyreach := (hnew y (hbelow y hy (heq.trans hcount)) (heq ▸ hx')).2.1
      exact (Relation.ReflTransGen.stdSymm.symm _ _ hxreach).trans hyreach
    · have hxold : 0 ≤ label x := not_lt.mp fun hlt => hcount (hnew x hlt hx').1
      have hyold : 0 ≤ label y := not_lt.mp fun hlt => hcount (heq ▸ (hnew y hlt (heq ▸ hx')).1)
      rw [hold x hxold, hold y hyold] at heq
      exact h.linked x hx y hy hxold heq
  range x hx := by
    push_cast
    rcases lt_or_ge (label' x) 0 with hlt | hge
    · omega
    · rcases lt_or_ge (label x) 0 with hlt | hge'
      · rw [(hnew x hlt hge).1]
        exact Int.lt_succ count
      · have hrange := h.range x hx
        rw [hold x hge']
        omega
  used k hk := by
    rcases Nat.lt_succ_iff_lt_or_eq.mp hk with hlt | rfl
    · obtain ⟨x, hx, hxk⟩ := h.used k hlt
      exact ⟨x, hx, (hold x (hxk ▸ Int.natCast_nonneg k)).trans hxk⟩
    · exact ⟨a, ha, hself⟩

/-- 番号のない点に次の番号をつけて広げる一歩。 -/
theorem Labelled.step (hsymm : ∀ a b, b ∈ next a → a ∈ next b) (hclosed : ∀ a ∈ V, ∀ b ∈ next a, b ∈ V)
    (hempty : ∀ a, next a ≠ [] → a ∈ V) (h : Labelled next V label count) (ha : a ∈ V) (hneg : label a < 0)
    (hfuel : V.card ≤ fuel) :
    ∃ label', flood next fuel a (Function.update label a count) = some label' ∧ Labelled next V label' (count + 1) ∧
      (∀ b, 0 ≤ label b → 0 ≤ label' b) ∧ 0 ≤ label' a := by
  have hself : Function.update label a (count : ℤ) a = count := Function.update_self _ _ _
  have hpos : 0 ≤ Function.update label a (count : ℤ) a := by
    rw [hself]
    exact Int.natCast_nonneg count
  have hcard := (unlabelled_update ha hneg (Int.natCast_nonneg count)).trans_le ((Finset.card_filter_le _ _).trans hfuel)
  obtain ⟨label', hrun, hflooded, hfrontier, hall⟩ := flood_floods hsymm hclosed fuel a ha _ hpos
    (by rw [hself]; exact h.frontier hsymm hempty hneg) hcard
  have hold (x : α) (hx : 0 ≤ label x) : label' x = label x := by
    have hxa : x ≠ a := by
      rintro rfl
      exact absurd hx (not_le.mpr hneg)
    rw [← Function.update_of_ne hxa (count : ℤ) label] at hx ⊢
    exact hflooded.keeps x hx
  have hnew (x : α) (hx : label x < 0) (hx' : 0 ≤ label' x) : label' x = count ∧
      Relation.ReflTransGen (fun a b => b ∈ next a) a x ∧ ∀ c ∈ next x, 0 ≤ label' c := by
    by_cases hxa : x = a
    · subst hxa
      exact ⟨(hflooded.keeps x hpos).trans hself, Relation.ReflTransGen.refl, hall⟩
    · rw [← Function.update_of_ne hxa (count : ℤ) label] at hx
      exact ⟨(hflooded.value x hx hx').trans hself, hflooded.reach x hx hx', hflooded.closed x hx hx'⟩
  refine ⟨label', hrun, h.extend hsymm ha ((hflooded.keeps a hpos).trans hself) hold hnew hfrontier.agree, fun x hx => ?_,
    hflooded.nonneg hpos⟩
  rw [hold x hx]
  exact hx

theorem floodAll_labelled (hsymm : ∀ a b, b ∈ next a → a ∈ next b) (hclosed : ∀ a ∈ V, ∀ b ∈ next a, b ∈ V)
    (hempty : ∀ a, next a ≠ [] → a ∈ V) {queue : List α} (hqueue : ∀ a ∈ queue, a ∈ V)
    (h : Labelled next V label count) (hfuel : V.card ≤ fuel) :
    ∃ label' count', floodAll next fuel queue (label, count) = some (label', count') ∧ Labelled next V label' count' ∧
      (∀ a, 0 ≤ label a → 0 ≤ label' a) ∧ ∀ a ∈ queue, 0 ≤ label' a := by
  induction queue generalizing label count with
  | nil => exact ⟨label, count, rfl, h, fun _ ha => ha, fun a ha => absurd ha List.not_mem_nil⟩
  | cons a queue ih =>
      have hrest : ∀ b ∈ queue, b ∈ V := fun b hb => hqueue b (List.mem_cons_of_mem a hb)
      rw [floodAll, List.foldlM_cons]
      by_cases ha : 0 ≤ label a
      · obtain ⟨label', count', hrun, hlabelled, hkeeps, hall⟩ := ih hrest h
        refine ⟨label', count', ?_, hlabelled, hkeeps, fun b hb => ?_⟩
        · rw [if_pos ha]
          exact hrun
        · rcases List.mem_cons.mp hb with rfl | hb
          · exact hkeeps b ha
          · exact hall b hb
      · obtain ⟨label₁, hflood, hlabelled₁, hkeeps₁, ha₁⟩ :=
          h.step hsymm hclosed hempty (hqueue a List.mem_cons_self) (not_le.mp ha) hfuel
        obtain ⟨label', count', hrun, hlabelled, hkeeps, hall⟩ := ih hrest hlabelled₁
        refine ⟨label', count', ?_, hlabelled, fun b hb => hkeeps b (hkeeps₁ b hb), fun b hb => ?_⟩
        · rw [if_neg ha, hflood]
          exact hrun
        · rcases List.mem_cons.mp hb with rfl | hb
          · exact hkeeps b ha₁
          · exact hall b hb

omit [DecidableEq α] in
/-- すべての点に番号がつけば、同じ番号は、互いに届くことである。 -/
theorem Labelled.eq_iff (hclosed : ∀ a ∈ V, ∀ b ∈ next a, b ∈ V) (h : Labelled next V label count)
    (hall : ∀ a ∈ V, 0 ≤ label a) (ha : a ∈ V) (hb : b ∈ V) :
    label a = label b ↔ Relation.ReflTransGen (fun a b => b ∈ next a) a b := by
  refine ⟨fun heq => h.linked a ha b hb (hall a ha) heq.symm, fun hpath => ?_⟩
  have hboth : b ∈ V ∧ label a = label b := by
    clear hb
    induction hpath with
    | refl => exact ⟨ha, rfl⟩
    | tail _ hedge ih =>
        exact ⟨hclosed _ ih.1 _ hedge, ih.2.trans (h.closed _ ih.1 (hall _ ih.1) _ hedge).symm⟩
  exact hboth.2

end Ranger.Lib
