import Mathlib.Logic.Relation

/-!
# 待ち列による探索

着いた点と待っている点を持ち、待っている点を一つずつ訪れて、その先の点を待たせる探索。落ち着いた点から出る辺の先は、着いているか、待っている。着いた点がみな落ち着き、待つ点がなくなれば、着いた点は根から届く点である。
-/

namespace Ranger.Lib

variable {α : Type*} {edge : α → α → Prop} {root a b : α} {reached reached' settled settled' waiting waiting' : α → Prop}

structure Explored (edge : α → α → Prop) (root : α) (reached settled waiting : α → Prop) : Prop where
  reached_root : reached root
  sound : ∀ a, reached a → Relation.ReflTransGen edge root a
  closed : ∀ a b, settled a → edge a b → reached b ∨ waiting b

/-- 待っている点 `b` に着き、その先の点を待たせる一歩。 -/
theorem Explored.visit (h : Explored edge root reached settled waiting) (hfrom : ∃ a, reached a ∧ edge a b)
    (hreached : ∀ a, reached' a ↔ reached a ∨ a = b) (hsettled : ∀ a, settled' a → settled a ∨ a = b)
    (hnext : ∀ c, settled' b → edge b c → reached' c ∨ waiting' c) (hkeep : ∀ a, waiting a → a ≠ b → waiting' a) :
    Explored edge root reached' settled' waiting' where
  reached_root := (hreached root).mpr (Or.inl h.reached_root)
  sound a ha := by
    rcases (hreached a).mp ha with ha | rfl
    · exact h.sound a ha
    · obtain ⟨c, hc, hedge⟩ := hfrom
      exact (h.sound c hc).tail hedge
  closed a c ha hedge := by
    rcases hsettled a ha with hbefore | rfl
    · by_cases hc : c = b
      · exact Or.inl ((hreached c).mpr (Or.inr hc))
      · rcases h.closed a c hbefore hedge with hreach | hwait
        · exact Or.inl ((hreached c).mpr (Or.inl hreach))
        · exact Or.inr (hkeep c hwait hc)
    · exact hnext c ha hedge

/-- 待っている点 `b` を訪れても、何も変わらない一歩。 -/
theorem Explored.drop (h : Explored edge root reached settled waiting) (hb : ∀ a, settled a → edge a b → reached b)
    (hkeep : ∀ a, waiting a → a ≠ b → waiting' a) : Explored edge root reached settled waiting' where
  reached_root := h.reached_root
  sound := h.sound
  closed a c ha hedge := by
    by_cases hc : c = b
    · subst hc
      exact Or.inl (hb a ha hedge)
    · exact (h.closed a c ha hedge).imp_right fun hwait => hkeep c hwait hc

theorem Explored.complete (h : Explored edge root reached settled waiting) (hsettled : ∀ a, reached a → settled a)
    (hdone : ∀ a, ¬ waiting a) : reached a ↔ Relation.ReflTransGen edge root a := by
  refine ⟨h.sound a, fun hpath => ?_⟩
  induction hpath with
  | refl => exact h.reached_root
  | tail _ hedge ih => exact (h.closed _ _ (hsettled _ ih) hedge).resolve_right (hdone _)

theorem Explored.congr (h : Explored edge root reached settled waiting) (hwaiting : ∀ a, waiting' a ↔ waiting a) :
    Explored edge root reached settled waiting' := by
  have heq : waiting' = waiting := funext fun a => propext (hwaiting a)
  rwa [heq]

end Ranger.Lib
