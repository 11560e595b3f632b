import FighterData.Text.Blank

/-! Texts that are put together from lines and words, and cut again. A line that holds no break is
found whole, and so is a word that holds no blank. -/
namespace FighterData.Text

/-- Not empty, and without a blank. -/
structure IsWord (word : List Char) : Prop where
  some : word ≠ []
  solid : ∀ c ∈ word, isBlank c = false

theorem wordsFrom_append {word : List Char} (solid : ∀ c ∈ word, isBlank c = false)
    (current rest : List Char) :
    wordsFrom current (word ++ rest) = wordsFrom (word.reverse ++ current) rest := by
  induction word generalizing current with
  | nil => rfl
  | cons c word ih =>
      rw [List.forall_mem_cons] at solid
      rw [List.cons_append, wordsFrom, if_neg (by simp [solid.1]), ih solid.2, List.reverse_cons,
        List.append_assoc]
      rfl

theorem words_blank {gap : List Char} (blank : ∀ c ∈ gap, isBlank c = true) (rest : List Char) :
    words (gap ++ rest) = words rest := by
  induction gap with
  | nil => rfl
  | cons c gap ih =>
      rw [List.forall_mem_cons] at blank
      rw [List.cons_append, words, wordsFrom, if_pos blank.1]
      exact ih blank.2

theorem words_word {word rest : List Char} (solid : IsWord word)
    (apart : ∀ c ∈ rest.head?, isBlank c = true) : words (word ++ rest) = word :: words rest := by
  have some : ¬ word.reverse.isEmpty = true := by simpa using solid.some
  rw [words, wordsFrom_append solid.solid, List.append_nil]
  cases rest with
  | nil =>
      rw [wordsFrom, if_neg some, List.reverse_reverse]
      rfl
  | cons c rest =>
      have blank : isBlank c = true := apart c rfl
      rw [wordsFrom, if_pos blank, if_neg some, List.reverse_reverse, words, wordsFrom, if_pos blank]
      rfl

theorem words_intercalate {items : List (List Char)} (each : ∀ word ∈ items, IsWord word) :
    words ([' '].intercalate items) = items := by
  induction items with
  | nil => rfl
  | cons word items ih =>
      rw [List.forall_mem_cons] at each
      cases items with
      | nil =>
          have free : ∀ c ∈ ([] : List Char).head?, isBlank c = true := by simp
          have alone := words_word each.1 free
          rw [List.append_nil] at alone
          rw [List.intercalate_singleton, alone]
          rfl
      | cons other items =>
          have space : isBlank ' ' = true := by decide
          have blank : ∀ c ∈ [' '], isBlank c = true := List.forall_mem_singleton.mpr space
          rw [List.intercalate_cons_cons, List.append_assoc, words_word each.1 (by simpa using space),
            words_blank blank, ih each.2]

theorem linesFrom_append {line : List Char} (whole : ∀ c ∈ line, isLineBreak c = false)
    (current rest : List Char) :
    linesFrom current (line ++ rest) = linesFrom (line.reverse ++ current) rest := by
  induction line generalizing current with
  | nil => rfl
  | cons c line ih =>
      rw [List.forall_mem_cons] at whole
      have other : c ≠ '\r' := by
        rintro rfl
        exact absurd whole.1 (by decide)
      rw [List.cons_append, linesFrom, if_neg (by simp [whole.1]), ih whole.2, List.reverse_cons,
        List.append_assoc]
      · rfl
      · intro rest same
        exact absurd same other

/-- What ends a line: a character, or a carriage return and a line feed together. -/
def IsBreak (ending : List Char) : Prop :=
  ending = ['\r', '\n'] ∨ ∃ c, isLineBreak c = true ∧ ending = [c]

theorem isBreak_lineFeed : IsBreak ['\n'] :=
  Or.inr ⟨'\n', by decide, rfl⟩

/-- A line ends at a break, which is taken as long as it can be. -/
theorem linesFrom_break {ending rest : List Char} (ends : IsBreak ending)
    (longest : ending = ['\r'] → rest.head? ≠ some '\n') (current : List Char) :
    linesFrom current (ending ++ rest) = current.reverse :: linesFrom [] rest := by
  obtain rfl | ⟨c, single, rfl⟩ := ends
  · rfl
  · rw [List.singleton_append, linesFrom, if_pos single]
    rintro behind rfl rfl
    exact longest rfl rfl

theorem lines_flatMap {items : List (List Char)}
    (each : ∀ line ∈ items, ∀ c ∈ line, isLineBreak c = false) :
    lines (items.flatMap (· ++ ['\n'])) = items := by
  induction items with
  | nil => rfl
  | cons line items ih =>
      rw [List.forall_mem_cons] at each
      rw [List.flatMap_cons, List.append_assoc, lines, linesFrom_append each.1,
        linesFrom_break isBreak_lineFeed (by simp), ← lines, ih each.2, List.append_nil,
        List.reverse_reverse]

end FighterData.Text
