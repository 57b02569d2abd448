import Depgraph.Protocol.Canonical

/-!
# The exact form of a condition

`exactForm` is the canonical form in which repeated operands are told apart by their texts instead
of by `==`. Texts determine conditions (`sortKey_injective`).
-/

namespace Protocol

open Json SortDedup

namespace Condition

/-! ### Texts determine conditions -/

mutual

theorem toValue_injective (c d : Condition) (h : c.toValue = d.toValue) : c = d := by
  match c, d with
  | .all cs, .all ds => rw [toValues_injective cs ds (by simpa [toValue] using h)]
  | .any cs, .any ds => rw [toValues_injective cs ds (by simpa [toValue] using h)]
  | .not c, .not d => rw [toValue_injective c d (by simpa [toValue] using h)]
  | .eq k v, .eq l w => simpa [toValue] using h
  | .isIn k vs, .isIn l ws => simpa [toValue] using h
  | .defined k, .defined l => simpa [toValue] using h
  | .all _, .any _ | .all _, .not _ | .all _, .eq _ _ | .all _, .isIn _ _ | .all _, .defined _
  | .any _, .all _ | .any _, .not _ | .any _, .eq _ _ | .any _, .isIn _ _ | .any _, .defined _
  | .not _, .all _ | .not _, .any _ | .not _, .eq _ _ | .not _, .isIn _ _ | .not _, .defined _
  | .eq _ _, .all _ | .eq _ _, .any _ | .eq _ _, .not _ | .eq _ _, .isIn _ _ | .eq _ _, .defined _
  | .isIn _ _, .all _ | .isIn _ _, .any _ | .isIn _ _, .not _ | .isIn _ _, .eq _ _
  | .isIn _ _, .defined _ | .defined _, .all _ | .defined _, .any _ | .defined _, .not _
  | .defined _, .eq _ _ | .defined _, .isIn _ _ => simp [toValue] at h

theorem toValues_injective (cs ds : List Condition) (h : toValues cs = toValues ds) : cs = ds := by
  match cs, ds with
  | [], [] => rfl
  | [], _ :: _ | _ :: _, [] => cases h
  | c :: cs, d :: ds =>
    obtain ⟨hc, hcs⟩ := List.cons.inj h
    rw [toValue_injective c d hc, toValues_injective cs ds hcs]

end

theorem sortKey_injective (F : FloatText) : Function.Injective (sortKey F) :=
  fun c d h => toValue_injective c d (text_injective F h)

section Exact

variable (F : FloatText)

/-! ### The exact form -/

/-- The canonical form in which repeats are operands with the same text. -/
def exactForm : Condition → Condition := canonicalizedWith F (exact (sortKey F))

theorem exactForm_all (cs : List Condition) :
    exactForm F (.all cs) =
      collapseAll (exact (sortKey F) (flattenAll (cs.map (exactForm F)))) := by
  rw [exactForm, canonicalizedWith, canonicalizeAll, canonicalizedEach_eq]

theorem exactForm_any (cs : List Condition) :
    exactForm F (.any cs) =
      canonicalizeAny (exact (sortKey F)) (cs.map (exactForm F)) := by
  rw [exactForm, canonicalizedWith, canonicalizedEach_eq]

end Exact

end Condition

end Protocol
