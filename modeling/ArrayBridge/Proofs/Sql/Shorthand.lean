import ArrayBridge.Sql.Statement
import Mathlib

/-!
The texts that are taken for `show tables`. Trimming goes as far as it can at each end, so that a text passes exactly
if it can be taken apart into the two words and what may stand around them.
-/
namespace ArrayBridge.Sql

/-- The two words with one plain space between them, each letter small or capital. -/
def Spelled (word : List Char) : Prop :=
  List.Forall₂ (fun c letter => c = letter ∨ c = letter.toUpper) word "show tables".toList

/-- The words with white space before them, and behind them white space, semicolons and white space again. -/
inductive Shorthand : List Char → Prop
  | intro {front word gap semicolons back : List Char} : (∀ c ∈ front, Unicode.isWhiteSpace c = true) → Spelled word →
      (∀ c ∈ gap, Unicode.isWhiteSpace c = true) → (∀ c ∈ semicolons, c = ';') →
      (∀ c ∈ back, Unicode.isWhiteSpace c = true) → Shorthand (front ++ (word ++ (gap ++ (semicolons ++ back))))

variable {p : Char → Bool} {cs word : List Char}

/-! Trimming at the end. -/

theorem dropEnd_append (h : ∀ c ∈ word, p c = true) : dropEnd p (cs ++ word) = dropEnd p cs := by
  rw [dropEnd, dropEnd, List.reverse_append,
    List.dropWhile_append_of_pos fun c hc => h c (List.mem_reverse.mp hc)]

theorem dropEnd_concat {c : Char} (h : ¬p c = true) : dropEnd p (cs ++ [c]) = cs ++ [c] :=
  List.rdropWhile_concat_neg p cs c h

theorem exists_dropped (p : Char → Bool) (cs : List Char) :
    ∃ dropped, cs = dropEnd p cs ++ dropped ∧ ∀ c ∈ dropped, p c = true :=
  ⟨cs.rtakeWhile p, List.rdropWhile_append_rtakeWhile.symm, fun _ => List.mem_rtakeWhile_imp⟩

/-! The words. -/

theorem toLower_eq_iff {c letter : Char} (h : letter.toLower = letter) :
    c.toLower = letter ↔ c = letter ∨ c = letter.toUpper := by
  constructor
  · rintro rfl
    by_cases hupper : c.isUpper = true
    · right
      rw [Char.toUpper_toLower_eq_toUpper, Char.toUpper_eq_of_not_isLower (Char.not_isLower_of_isUpper hupper)]
    · left
      exact (Char.toLower_eq_of_not_isUpper hupper).symm
  · rintro (rfl | rfl)
    · exact h
    · rw [Char.toLower_toUpper_eq_toLower, h]

theorem map_toLower_eq_iff {letters : List Char} (h : ∀ l ∈ letters, l.toLower = l) :
    word.map Char.toLower = letters ↔ List.Forall₂ (fun c l => c = l ∨ c = l.toUpper) word letters := by
  induction letters generalizing word with
  | nil => rw [List.map_eq_nil_iff, List.forall₂_nil_right_iff]
  | cons l letters ih =>
      have hl := h l List.mem_cons_self
      have hrest := fun m hm => h m (List.mem_cons_of_mem l hm)
      cases word with
      | nil => exact iff_of_false (List.cons_ne_nil l letters).symm nofun
      | cons c word => rw [List.map_cons, List.cons.injEq, List.forall₂_cons, toLower_eq_iff hl, ih hrest]

theorem isShowTables_iff : isShowTables word = true ↔ Spelled word := by
  rw [isShowTables, decide_eq_true_iff]
  exact map_toLower_eq_iff (by simp)

/-- Neither end of the words is trimmed. -/
theorem Spelled.ends (h : Spelled word) :
    (∃ c rest, word = c :: rest ∧ Unicode.isWhiteSpace c = false) ∧
      ∃ rest c, word = rest ++ [c] ∧ Unicode.isWhiteSpace c = false ∧ c ≠ ';' := by
  constructor
  · obtain ⟨c, rest, hc, -, rfl⟩ := List.forall₂_cons_right_iff.mp h
    refine ⟨c, rest, rfl, ?_⟩
    rcases hc with rfl | rfl <;> decide
  · have hback := List.rel_reverse h
    obtain ⟨c, rest, hc, -, hword⟩ := List.forall₂_cons_right_iff.mp hback
    refine ⟨rest.reverse, c, ?_, ?_⟩
    · rw [← List.reverse_cons, ← hword, List.reverse_reverse]
    · rcases hc with rfl | rfl <;> decide

theorem Spelled.dropEnd_whiteSpace (h : Spelled word) : dropEnd Unicode.isWhiteSpace word = word := by
  obtain ⟨-, init, last, rfl, hlast, -⟩ := h.ends
  exact dropEnd_concat (ne_true_of_eq_false hlast)

theorem Spelled.dropEnd_semicolon {gap : List Char} (h : Spelled word)
    (hgap : ∀ c ∈ gap, Unicode.isWhiteSpace c = true) : dropEnd (· = ';') (word ++ gap) = word ++ gap := by
  cases gap using List.reverseRecOn with
  | nil =>
      obtain ⟨-, init, last, rfl, -, hlast⟩ := h.ends
      rw [List.append_nil]
      exact dropEnd_concat fun hsame => hlast (of_decide_eq_true hsame)
  | append_singleton init c =>
      have hc := hgap c (List.mem_append_right init List.mem_cons_self)
      rw [← List.append_assoc]
      refine dropEnd_concat fun hsame => ?_
      obtain rfl : c = ';' := of_decide_eq_true hsame
      exact absurd hc (by decide)

/-! Trimming the whole. -/

theorem trimCommand_eq {front gap semicolons back : List Char} (hfront : ∀ c ∈ front, Unicode.isWhiteSpace c = true)
    (hword : Spelled word) (hgap : ∀ c ∈ gap, Unicode.isWhiteSpace c = true) (hsemicolons : ∀ c ∈ semicolons, c = ';')
    (hback : ∀ c ∈ back, Unicode.isWhiteSpace c = true) :
    trimCommand (front ++ (word ++ (gap ++ (semicolons ++ back)))) = word := by
  obtain ⟨⟨first, letters, hfirst, hblank⟩, -⟩ := hword.ends
  have hstart : (front ++ (word ++ (gap ++ (semicolons ++ back)))).dropWhile Unicode.isWhiteSpace =
      word ++ (gap ++ (semicolons ++ back)) := by
    rw [List.dropWhile_append_of_pos hfront, hfirst]
    exact List.dropWhile_cons_of_neg (ne_true_of_eq_false hblank)
  rw [trimCommand, hstart]
  -- Without a semicolon the first pass takes the gap, and with one it stops there and leaves the gap to the last.
  cases semicolons using List.reverseRecOn with
  | nil =>
      have hall : ∀ c ∈ gap ++ ([] ++ back), Unicode.isWhiteSpace c = true := by
        intro c hc
        exact (List.mem_append.mp hc).elim (hgap c) (hback c)
      have hkept : dropEnd (· = ';') (word ++ []) = word ++ [] := hword.dropEnd_semicolon nofun
      rw [List.append_nil] at hkept
      rw [dropEnd_append hall, hword.dropEnd_whiteSpace, hkept, hword.dropEnd_whiteSpace]
  | append_singleton more last =>
      obtain rfl : last = ';' := hsemicolons last (List.mem_append_right more List.mem_cons_self)
      have hstop : dropEnd Unicode.isWhiteSpace (word ++ (gap ++ (more ++ [';']))) = word ++ (gap ++ (more ++ [';'])) := by
        rw [← List.append_assoc gap, ← List.append_assoc word]
        exact dropEnd_concat (by decide)
      rw [← List.append_assoc gap, ← List.append_assoc word, dropEnd_append hback, hstop, ← List.append_assoc word,
        dropEnd_append fun c hc => decide_eq_true (hsemicolons c hc), hword.dropEnd_semicolon hgap, dropEnd_append hgap,
        hword.dropEnd_whiteSpace]

theorem exists_pieces (cs : List Char) :
    ∃ front gap semicolons back, cs = front ++ (trimCommand cs ++ (gap ++ (semicolons ++ back))) ∧
      (∀ c ∈ front, Unicode.isWhiteSpace c = true) ∧ (∀ c ∈ gap, Unicode.isWhiteSpace c = true) ∧
      (∀ c ∈ semicolons, c = ';') ∧ ∀ c ∈ back, Unicode.isWhiteSpace c = true := by
  obtain ⟨back, hcs, hback⟩ := exists_dropped Unicode.isWhiteSpace (cs.dropWhile Unicode.isWhiteSpace)
  obtain ⟨semicolons, hbody, hsemicolons⟩ :=
    exists_dropped (· = ';') (dropEnd Unicode.isWhiteSpace (cs.dropWhile Unicode.isWhiteSpace))
  obtain ⟨gap, hcommand, hgap⟩ := exists_dropped Unicode.isWhiteSpace
    (dropEnd (· = ';') (dropEnd Unicode.isWhiteSpace (cs.dropWhile Unicode.isWhiteSpace)))
  refine ⟨cs.takeWhile Unicode.isWhiteSpace, gap, semicolons, back, ?_, fun _ => List.mem_takeWhile_imp, hgap,
    fun c hc => of_decide_eq_true (hsemicolons c hc), hback⟩
  calc cs
    _ = cs.takeWhile Unicode.isWhiteSpace ++ cs.dropWhile Unicode.isWhiteSpace := List.takeWhile_append_dropWhile.symm
    _ = cs.takeWhile Unicode.isWhiteSpace ++ (((trimCommand cs ++ gap) ++ semicolons) ++ back) := by
      rw [trimCommand, ← hcommand, ← hbody, ← hcs]
    _ = _ := by rw [List.append_assoc, List.append_assoc]

theorem isShowTables_trimCommand_iff : isShowTables (trimCommand cs) = true ↔ Shorthand cs := by
  rw [isShowTables_iff]
  constructor
  · intro hword
    obtain ⟨front, gap, semicolons, back, hcs, hfront, hgap, hsemicolons, hback⟩ := exists_pieces cs
    rw [hcs]
    exact .intro hfront hword hgap hsemicolons hback
  · rintro ⟨hfront, hword, hgap, hsemicolons, hback⟩
    rwa [trimCommand_eq hfront hword hgap hsemicolons hback]

instance (cs : List Char) : Decidable (Shorthand cs) := decidable_of_iff _ isShowTables_trimCommand_iff

theorem expand_of_shorthand {sql : String} (h : Shorthand sql.toList) : expand sql = listTablesSql :=
  if_pos (isShowTables_trimCommand_iff.mpr h)

theorem expand_of_not_shorthand {sql : String} (h : ¬Shorthand sql.toList) : expand sql = sql :=
  if_neg fun hsame => h (isShowTables_trimCommand_iff.mp hsame)

/-- Where no white space stands in front, the second character is that of the words. -/
theorem Shorthand.second {c d : Char} (h : Shorthand (c :: d :: cs)) (hc : Unicode.isWhiteSpace c = false) :
    d = 'h' ∨ d = 'H' := by
  generalize hcs : c :: d :: cs = text at h
  obtain @⟨front, word, gap, semicolons, back, hfront, hword, -, -, -⟩ := h
  cases front with
  | nil =>
      obtain ⟨s, rest, -, hrest, rfl⟩ := List.forall₂_cons_right_iff.mp hword
      obtain ⟨h, rest, hletter, -, rfl⟩ := List.forall₂_cons_right_iff.mp hrest
      obtain ⟨-, hsecond⟩ := List.cons.inj hcs
      exact (List.cons.inj hsecond).1 ▸ hletter
  | cons w front =>
      obtain rfl : c = w := (List.cons.inj hcs).1
      exact absurd (hfront c List.mem_cons_self) (ne_true_of_eq_false hc)

theorem exists_toList_listTablesSql : ∃ rest, listTablesSql.toList = 'S' :: 'E' :: rest := by
  -- With its four parts named, so that none of them but the first is read.
  have hparts : ∀ a b c d : String, (a ++ b ++ c ++ d).toList = a.toList ++ (b ++ c ++ d).toList := by
    intro a b c d
    simp only [String.toList_append, List.append_assoc]
  exact ⟨_, hparts _ _ _ _⟩

theorem not_shorthand_listTablesSql : ¬Shorthand listTablesSql.toList := by
  obtain ⟨rest, hsql⟩ := exists_toList_listTablesSql
  rw [hsql]
  exact fun h => absurd (h.second (by decide)) (by decide)

/-- The words in any letter case are expanded, with nothing but white space before them and nothing but white space,
semicolons and again white space behind them. Every other text stays as it is, what the words expand to included. -/
theorem expand_exact (sql : String) :
    (Shorthand sql.toList → expand sql = listTablesSql) ∧ (¬Shorthand sql.toList → expand sql = sql) ∧
      expand (expand sql) = expand sql := by
  refine ⟨expand_of_shorthand, expand_of_not_shorthand, ?_⟩
  by_cases h : Shorthand sql.toList
  · rw [expand_of_shorthand h]
    exact expand_of_not_shorthand not_shorthand_listTablesSql
  · rw [expand_of_not_shorthand h, expand_of_not_shorthand h]

/-- Semicolons with a space between them are not of the form, nor is a letter that only Unicode folds to an `s`. -/
theorem expand_exact_spaced :
    expand "\u3000Show TABLES\u0085;;\n" = listTablesSql ∧ expand "show tables; ;" = "show tables; ;" ∧
      expand "\u017Fhow tables" = "\u017Fhow tables" := by
  have hspaced : Shorthand "\u3000Show TABLES\u0085;;\n".toList := by decide
  have hbroken : ¬Shorthand "show tables; ;".toList := by decide
  have hlong : ¬Shorthand "\u017Fhow tables".toList := by decide
  exact ⟨(expand_exact _).1 hspaced, (expand_exact _).2.1 hbroken, (expand_exact _).2.1 hlong⟩

end ArrayBridge.Sql
