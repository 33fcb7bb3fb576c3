import ArrayBridge.Pattern.Replacement

/-!
Where the characters of a replaced text are from: the text itself, or the template as it is written.
-/
namespace ArrayBridge.Pattern

theorem slice_within (cs : List Char) (a b : Nat) : slice cs a b <:+: cs :=
  (List.take_prefix _ _).isInfix.trans (List.drop_suffix _ _).isInfix

theorem reference_ne_literal (cs : List Char) (d : Char) : reference cs ≠ .literal d := by
  rw [reference]
  cases Decimal.natural? cs <;> exact nofun

/-- What follows a reference is the end of the template. -/
theorem reference?_eq_some {cs rest : List Char} {p : Piece} (h : reference? cs = some (p, rest)) :
    (∀ d, p ≠ .literal d) ∧ rest <:+ cs := by
  unfold reference? at h
  split at h
  case h_1 r =>
    split at h
    · cases h
    · next tail hdrop =>
        cases h
        refine ⟨reference_ne_literal _, ?_⟩
        have htail := (List.suffix_cons _ rest).trans (hdrop ▸ List.dropWhile_suffix (· ≠ '}') (l := r))
        exact htail.trans (List.suffix_cons _ _)
  case h_2 =>
    dsimp only at h
    split at h
    · cases h
    · cases h
      exact ⟨reference_ne_literal _, List.dropWhile_suffix _⟩

/-- A literal piece is a character of the template. -/
theorem mem_of_mem_pieces {d : Char} (fuel : Nat) (cs : List Char) (h : .literal d ∈ pieces fuel cs) : d ∈ cs := by
  fun_induction pieces fuel cs with
  | case1 | case2 => cases h
  | case3 fuel c r hc ih =>
      rcases List.mem_cons.mp h with heq | hmem
      · cases heq
        exact List.mem_cons_self
      · exact List.mem_cons_of_mem _ (ih hmem)
  | case4 fuel c hc t ih =>
      rcases List.mem_cons.mp h with heq | hmem
      · cases heq
        exact List.mem_cons_of_mem _ List.mem_cons_self
      · exact List.mem_cons_of_mem _ (List.mem_cons_of_mem _ (ih hmem))
  | case5 fuel c r hc p rest href _ ih =>
      rw [href] at h
      obtain ⟨hliteral, hrest⟩ := reference?_eq_some href
      rcases List.mem_cons.mp h with heq | hmem
      · exact absurd heq.symm (hliteral d)
      · exact List.mem_cons_of_mem _ (hrest.mem (ih hmem))
  | case6 fuel c r hc href _ ih =>
      rw [href] at h
      rcases List.mem_cons.mp h with heq | hmem
      · cases heq
        rw [Decidable.not_not.mp hc]
        exact List.mem_cons_self
      · exact List.mem_cons_of_mem _ (ih hmem)

namespace Compiled

variable {c : Compiled} {text : List Char} {d : Char}

theorem mem_groupText {m : Match} {i : Nat} (h : d ∈ expandPiece.groupText text m i) : d ∈ text := by
  rw [expandPiece.groupText] at h
  split at h
  · exact (slice_within _ _ _).mem h
  · cases h

theorem mem_expandPiece {m : Match} {p : Piece} (h : d ∈ c.expandPiece text m p) : d ∈ text ∨ p = .literal d := by
  cases p with
  | literal e => exact .inr (congrArg Piece.literal (List.mem_singleton.mp h).symm)
  | group i => exact .inl (mem_groupText h)
  | named s =>
      rw [expandPiece] at h
      split at h
      · exact .inl (mem_groupText h)
      · cases h

theorem mem_substitute {ps : List Piece} {i : Nat} {ms : List Match} (h : d ∈ c.substitute text ps i ms) :
    d ∈ text ∨ .literal d ∈ ps := by
  induction ms generalizing i with
  | nil => exact .inl (List.mem_of_mem_drop h)
  | cons m ms ih =>
      rw [substitute, List.mem_append, List.mem_append] at h
      rcases h with (hbefore | hpiece) | hafter
      · exact .inl ((slice_within _ _ _).mem hbefore)
      · obtain ⟨p, hp, hd⟩ := List.mem_flatMap.mp hpiece
        rcases mem_expandPiece hd with htext | rfl
        · exact .inl htext
        · exact .inr hp
      · exact ih hafter

theorem mem_replaceAll {replacement : List Char} (h : d ∈ c.replaceAll text replacement) : d ∈ text ∨ d ∈ replacement :=
  (mem_substitute h).imp_right (mem_of_mem_pieces _ _)

theorem find?_within {found : List Char} (h : c.find? text = some found) : found <:+: text := by
  obtain ⟨m, -, rfl⟩ := Option.map_eq_some_iff.mp h
  exact slice_within _ _ _

end Compiled

end ArrayBridge.Pattern
