/-
Readers in lockstep.

Two readers that combine conditions alike make the same of every text: the same
tree, and the same diagnostics in the same order (`CombinesAlike.read`). Only the
combinations that the first reader comes to matter, and of these only the ones
that lead to a reading of interest.

The relation between the two is that of `Comparison`, with equal conditions on
both sides and equal flags beside them.
-/
import InlineQuery.Proofs.Reading.Comparison

namespace InlineQuery

namespace Reader

open State

/-- Readings that end in a quiet state are compared with the very same readings. -/
def identical (quiet : State → Prop) : Comparison := ⟨quiet, Eq, True⟩

section identical

variable {quiet : State → Prop}

theorem eq_of_conditions {result result' : Option Description}
    (h : (identical quiet).Conditions result result') : result' = result := by
  cases h with
  | none => rfl
  | some heq => exact congrArg some heq.symm

theorem conditions_self (result : Option Description) :
    (identical quiet).Conditions result result := by
  cases result with
  | none => exact .none
  | some d => exact .some rfl

theorem eq_of_alternatives {p p' : Progress} (h : (identical quiet).Alternatives p p') :
    p' = p := by
  have hfinished : p.finished = p'.finished := List.forall₂_eq_eq_eq ▸
    h.finished.imp fun d d' hd => (eq_of_conditions (hd (.inl trivial))).symm
  obtain ⟨current, finished, restricted, restrict⟩ := p
  obtain ⟨current', finished', restricted', restrict'⟩ := p'
  rw [Progress.mk.injEq]
  exact ⟨eq_of_conditions h.current, hfinished.symm, h.restricted trivial, h.restrict trivial⟩

theorem alternatives_self (p : Progress) : (identical quiet).Alternatives p p where
  current := conditions_self p.current
  finished := List.forall₂_same.2 fun d _ _ => conditions_self d
  restricted _ := rfl
  restrict _ := rfl

end identical

/-- The readers are for one wiki, with one restriction, and what the first reader
combines on its way to a quiet state the second one combines alike. -/
structure CombinesAlike (quiet : State → Prop) (r r' : Reader) : Prop where
  wiki : r.SameWiki r'
  defaults : r'.defaults = r.defaults
  quiet_of_precedes : ∀ s t, Precedes s t → quiet t → quiet s
  combine : ∀ mode current incoming s, quiet (r.combine mode current incoming s).state →
    r'.combine mode current incoming s = r.combine mode current incoming s

namespace CombinesAlike

variable {quiet : State → Prop} {r r' : Reader} (h : CombinesAlike quiet r r')

include h

theorem restrictAll {defaults : Description} {ds : List (Option Description)} {s : State}
    (hquiet : quiet (r.restrictAll defaults ds s).2) :
    r'.restrictAll defaults ds s = r.restrictAll defaults ds s := by
  induction ds generalizing s with
  | nil => rfl
  | cons d ds ih =>
    simp only [Reader.restrictAll] at hquiet ⊢
    have hfirst := h.quiet_of_precedes _ _ (precedes_restrictAll r defaults ds _) hquiet
    rw [h.combine _ _ _ _ hfirst, ih hquiet]

theorem finishAlternative {p : Progress} {s : State} (hquiet : quiet (r.finishAlternative p s).2) :
    r'.finishAlternative p s = r.finishAlternative p s := by
  unfold Reader.finishAlternative at hquiet ⊢
  rw [h.defaults]
  split
  · rfl
  · next defaults heq =>
    simp only [heq] at hquiet
    split
    · next hearlier =>
      rw [if_pos hearlier] at hquiet
      rw [h.restrictAll hquiet]
    · next hearlier =>
      rw [if_neg hearlier] at hquiet
      split
      · next hcurrent =>
        rw [if_pos hcurrent] at hquiet
        rw [h.combine _ _ _ _ hquiet]
      · rfl

theorem parallel : (identical quiet).Parallel r r' where
  wiki := h.wiki
  quiet_of_precedes := h.quiet_of_precedes
  refl _ := rfl
  combine mode current current' incoming incoming' s hcurrent hincoming hquiet := by
    rw [eq_of_conditions hcurrent, eq_of_conditions hincoming, h.combine _ _ _ _ hquiet]
    exact ⟨rfl, conditions_self _⟩
  wildcard valueType := by
    unfold Reader.wildcard
    rw [h.defaults]
    rfl
  describe c _ _ := congrArg c.describe
  finishAlternative p p' s hp hquiet := by
    rw [eq_of_alternatives hp, h.finishAlternative hquiet]
    exact ⟨rfl, alternatives_self _⟩
  lost _ _ _ _ _ _ := trivial

/-- Both readers make the same of a query. -/
theorem read {query : Text} (hquiet : quiet (r.read query).state) :
    r'.read query = r.read query := by
  have hwhole := h.parallel.preserved.subquery false (.start query)
    (h.quiet_of_precedes _ _ (precedes_read r query) hquiet)
  unfold Reader.read at hquiet ⊢
  dsimp only at hquiet ⊢
  rw [hwhole.restricted trivial, eq_of_conditions hwhole.result, hwhole.state, h.defaults]
  split
  · rfl
  · next hrestricted =>
    rw [if_neg hrestricted] at hquiet
    rw [h.combine _ _ _ _ hquiet]

end CombinesAlike

end Reader

end InlineQuery
