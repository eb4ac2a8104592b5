import Mathlib.Data.List.Basic

/-!
# Loops that pick

A loop reads lines until it finds one that it takes, and gives what it takes
from it; where the lines end it gives a value of its own. `Picks takes atEnd
lines v reads` says that `v` is given after the reads `reads`, and
`Picks.congr_iff` when two such loops do the same.
-/

namespace Effects

/-- What a loop over lines picks and reads for it: the value of the first line
that `takes` has one for, and `atEnd` where the lines end. -/
inductive Picks {L V : Type} (takes : L → V → Prop) (atEnd : V) :
    List L → V → List (Option L) → Prop
  | ended : Picks takes atEnd [] atEnd [none]
  | taken {line lines v} (h : takes line v) : Picks takes atEnd (line :: lines) v [some line]
  | refused {line lines v reads} (hnot : ∀ v, ¬ takes line v)
      (h : Picks takes atEnd lines v reads) :
      Picks takes atEnd (line :: lines) v (some line :: reads)

namespace Picks

variable {L V : Type} {takes takes' : L → V → Prop} {atEnd : V} {line : L} {lines : List L}

theorem taken_iff {w : V} (hw : takes line w) {v : V} {reads : List (Option L)} :
    Picks takes atEnd (line :: lines) v reads ↔ takes line v ∧ reads = [some line] := by
  constructor
  · intro h
    cases h with
    | taken h => exact ⟨h, rfl⟩
    | refused hnot h => exact absurd hw (hnot w)
  · rintro ⟨h, rfl⟩
    exact .taken h

theorem refused_iff (hnot : ∀ v, ¬ takes line v) {v : V} {reads : List (Option L)} :
    Picks takes atEnd (line :: lines) v reads ↔
      ∃ later, reads = some line :: later ∧ Picks takes atEnd lines v later := by
  constructor
  · intro h
    cases h with
    | taken h => exact absurd h (hnot v)
    | refused _ h => exact ⟨_, rfl, h⟩
  · rintro ⟨later, rfl, h⟩
    exact .refused hnot h

/-- Behind a line that both refuse, two loops pick the same if they do so with it. -/
theorem refused_congr_iff (hnot : ∀ v, ¬ takes line v) (hnot' : ∀ v, ¬ takes' line v) :
    (∀ v reads, Picks takes' atEnd (line :: lines) v reads ↔
        Picks takes atEnd (line :: lines) v reads) ↔
      ∀ v reads, Picks takes' atEnd lines v reads ↔ Picks takes atEnd lines v reads := by
  constructor
  · intro h v reads
    have hread := h v (some line :: reads)
    rw [refused_iff hnot, refused_iff hnot'] at hread
    simpa using hread
  · intro h v reads
    rw [refused_iff hnot, refused_iff hnot']
    simp only [h]

/-- A loop that takes more lines picks the same just when no line before the
first one taken by both is taken by it alone. -/
theorem congr_iff (hunique : ∀ line v w, takes' line v → takes' line w → v = w)
    (hle : ∀ line ∈ lines, ∀ v, takes line v → takes' line v) :
    (∀ v reads, Picks takes' atEnd lines v reads ↔ Picks takes atEnd lines v reads) ↔
      ∀ before line after, lines = before ++ line :: after →
        (∀ l ∈ before, ∀ v, ¬ takes l v) → ∀ v, takes' line v → takes line v := by
  induction lines with
  | nil =>
    refine iff_of_true (fun v reads => ⟨?_, ?_⟩) fun before line after h => by simp at h
    · rintro ⟨⟩
      exact .ended
    · rintro ⟨⟩
      exact .ended
  | cons first lines ih =>
    have hle' := hle first List.mem_cons_self
    by_cases htakes : ∃ w, takes first w
    · obtain ⟨w, hw⟩ := htakes
      have hsame : ∀ v, takes' first v → takes first v := fun v hv =>
        hunique first w v (hle' w hw) hv ▸ hw
      refine iff_of_true (fun v reads => ?_) fun before line after hsplit hbefore => ?_
      · rw [taken_iff (hle' w hw), taken_iff hw]
        exact ⟨fun h => ⟨hsame v h.1, h.2⟩, fun h => ⟨hle' v h.1, h.2⟩⟩
      · cases before with
        | nil =>
          cases hsplit
          exact hsame
        | cons l before =>
          cases hsplit
          exact absurd hw (hbefore first List.mem_cons_self w)
    · have hnot : ∀ v, ¬ takes first v := fun v hv => htakes ⟨v, hv⟩
      by_cases htakes' : ∃ w, takes' first w
      · obtain ⟨w, hw⟩ := htakes'
        refine iff_of_false (fun h => ?_) fun h => hnot w (h [] first lines rfl (by simp) w hw)
        obtain ⟨later, hlater, hpicks⟩ := (refused_iff hnot).1 ((h w [some first]).1 (.taken hw))
        cases hlater
        cases hpicks
      · have hnot' : ∀ v, ¬ takes' first v := fun v hv => htakes' ⟨v, hv⟩
        rw [refused_congr_iff hnot hnot', ih fun l hl => hle l (List.mem_cons_of_mem _ hl)]
        constructor
        · intro h before line after hsplit hbefore
          cases before with
          | nil =>
            cases hsplit
            exact fun v hv => absurd hv (hnot' v)
          | cons l before =>
            cases hsplit
            exact h before line after rfl fun l hl => hbefore l (List.mem_cons_of_mem _ hl)
        · intro h before line after hsplit hbefore
          refine h (first :: before) line after (congrArg (List.cons first) hsplit) fun l hl => ?_
          rcases List.mem_cons.1 hl with rfl | hl
          · exact hnot
          · exact hbefore l hl

end Picks

end Effects
