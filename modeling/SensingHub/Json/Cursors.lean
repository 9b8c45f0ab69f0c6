import SensingHub.Json.Journal

/-!
# Cursors in a journal

A cursor can go wrong in two ways: an unsigned operation on it leaves 32 bits, or it gets smaller.
The second is meant to happen only to a call that then returns an error, as `parseItem` does when it
sets its cursor to 0; which call an event belongs to is found by counting the calls and returns
behind it (`outcome`).
-/

namespace SensingHub.Json

/-- An unsigned operation leaves 32 bits. -/
def Event.Overflows : Event → Prop
  | .advance cidx n => 2 ^ 32 ≤ cidx + n
  | .remaining jsonlen cidx => jsonlen < cidx
  | _ => False

/-- A cursor gets smaller. -/
def Event.GoesBack : Event → Prop
  | .advance cidx n => Word.add32 cidx n < cidx
  | .reset cidx => 0 < cidx
  | _ => False

/-- How the call returns to which some events belong that follow one another, `depth` counting the
calls made since: with an error or without, or not at all. -/
def outcome : (depth : ℕ) → List Event → Option Bool
  | _, [] => none
  | depth, .enter :: es => outcome (depth + 1) es
  | 0, .leave failed :: _ => some failed
  | depth + 1, .leave _ :: es => outcome depth es
  | depth, _ :: es => outcome depth es

/-- No operation on a cursor leaves 32 bits, and a cursor gets smaller only if its call then returns
an error. -/
structure CursorsSound (es : List Event) : Prop where
  not_overflows : ∀ e ∈ es, ¬ e.Overflows
  failed : ∀ e behind, e :: behind <:+ es → e.GoesBack → outcome 0 behind = some true

theorem outcome_append {depth : ℕ} {es : List Event} {failed : Bool}
    (h : outcome depth es = some failed) (es' : List Event) :
    outcome depth (es ++ es') = some failed := by
  induction es generalizing depth with
  | nil => cases h
  | cons e es ih =>
    rw [List.cons_append]
    unfold outcome at h ⊢
    split at h <;> simp_all

theorem CursorsSound.nil : CursorsSound [] := by
  refine ⟨fun e he ↦ (List.not_mem_nil he).elim, fun e behind h _ ↦ ?_⟩
  exact absurd (List.suffix_nil.1 h) (List.cons_ne_nil _ _)

/-- An event with what follows it, at the end of a journal that has got one more event. -/
theorem cons_suffix_concat {e e' : Event} {behind es : List Event}
    (h : e :: behind <:+ es ++ [e']) :
    e = e' ∧ behind = [] ∨ ∃ t, behind = t ++ [e'] ∧ e :: t <:+ es := by
  rcases List.suffix_concat_iff.1 h with hnil | ⟨t, ht, hsuffix⟩
  · cases hnil
  · rcases t with _ | ⟨d, t⟩
    · exact Or.inl (List.cons.inj ht)
    · obtain ⟨rfl, hbehind⟩ := List.cons.inj ht
      exact Or.inr ⟨t, hbehind, hsuffix⟩

/-- An event that does not move a cursor back. -/
theorem CursorsSound.append {es : List Event} (h : CursorsSound es) {e : Event}
    (hoverflow : ¬ e.Overflows) (hback : ¬ e.GoesBack) : CursorsSound (es ++ [e]) := by
  constructor
  · intro e' he'
    rcases List.mem_append.1 he' with he' | he'
    · exact h.not_overflows e' he'
    · rwa [List.mem_singleton.1 he']
  · intro e' behind hsuffix hback'
    rcases cons_suffix_concat hsuffix with ⟨rfl, -⟩ | ⟨t, rfl, ht⟩
    · exact absurd hback' hback
    · exact outcome_append (h.failed e' t ht hback') [e]

/-- A cursor is set back at the end of a call that returns an error. -/
theorem CursorsSound.reset {es : List Event} (h : CursorsSound es) (cidx : ℕ) :
    CursorsSound (es ++ [.reset cidx] ++ [.leave true]) := by
  constructor
  · intro e he
    rcases List.mem_append.1 he with he | he
    · rcases List.mem_append.1 he with he | he
      · exact h.not_overflows e he
      · rw [List.mem_singleton.1 he]
        exact not_false
    · rw [List.mem_singleton.1 he]
      exact not_false
  · intro e behind hsuffix hback
    rcases cons_suffix_concat hsuffix with ⟨rfl, -⟩ | ⟨t, rfl, ht⟩
    · exact hback.elim
    · rcases cons_suffix_concat ht with ⟨rfl, rfl⟩ | ⟨t', rfl, ht'⟩
      · rfl
      · rw [List.append_assoc]
        exact outcome_append (h.failed e t' ht' hback) _

end SensingHub.Json
