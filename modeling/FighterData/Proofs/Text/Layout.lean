import FighterData.Proofs.Text.Words

/-! How a text is laid out: as lines with breaks behind them, and as words with blanks around them.
There is one way to see a text as lines and one to see it as words, and these are what it is cut
into. -/
namespace FighterData.Text

/-- The text is made of these lines. Behind each of them stands a break, which is as long as it can
be; the last line may go without one if it is not empty. -/
inductive InLines : List (List Char) → List Char → Prop
  | none : InLines [] []
  | last {line : List Char} (some : line ≠ []) (whole : ∀ c ∈ line, isLineBreak c = false) :
      InLines [line] line
  | ended {line ending rest : List Char} {others : List (List Char)}
      (whole : ∀ c ∈ line, isLineBreak c = false) (ends : IsBreak ending)
      (longest : ending = ['\r'] → rest.head? ≠ some '\n') (later : InLines others rest) :
      InLines (line :: others) (line ++ (ending ++ rest))

/-- The text is made of these words, with blanks around and between them. -/
inductive InWords : List (List Char) → List Char → Prop
  | none {gap : List Char} (blank : ∀ c ∈ gap, isBlank c = true) : InWords [] gap
  | word (gap : List Char) {word rest : List Char} {others : List (List Char)}
      (blank : ∀ c ∈ gap, isBlank c = true) (solid : IsWord word)
      (apart : ∀ c ∈ rest.head?, isBlank c = true) (later : InWords others rest) :
      InWords (word :: others) (gap ++ (word ++ rest))

theorem inLines_linesFrom {current : List Char} (text : List Char)
    (whole : ∀ c ∈ current, isLineBreak c = false) :
    InLines (linesFrom current text) (current.reverse ++ text) := by
  fun_induction linesFrom current text with
  | case1 current empty =>
      obtain rfl := List.isEmpty_iff.mp empty
      exact .none
  | case2 current some =>
      rw [List.append_nil]
      exact .last (by simpa using some) (by simpa using whole)
  | case3 current rest ih =>
      exact .ended (by simpa using whole) (Or.inl rfl) (by simp) (ih (by simp))
  | case4 current c rest single ends ih =>
      refine .ended (by simpa using whole) (Or.inr ⟨c, ends, rfl⟩) ?_ (ih (by simp))
      intro carriage feed
      obtain ⟨behind, rfl⟩ := List.head?_eq_some_iff.mp feed
      exact single behind (List.singleton_inj.mp carriage) rfl
  | case5 current c rest single inside ih =>
      have within : isLineBreak c = false := by simpa using inside
      have held := ih (List.forall_mem_cons.mpr ⟨within, whole⟩)
      rwa [List.reverse_cons, List.append_assoc] at held

theorem lines_eq_iff {text : List Char} {items : List (List Char)} :
    lines text = items ↔ InLines items text := by
  constructor
  · rintro rfl
    exact inLines_linesFrom text (by simp)
  · intro made
    rw [lines]
    induction made with
    | none => rfl
    | @last line some whole =>
        have alone := linesFrom_append whole [] []
        rw [List.append_nil, List.append_nil] at alone
        rw [alone, linesFrom, if_neg (by simpa using some), List.reverse_reverse]
    | ended whole ends longest _ ih =>
        rw [linesFrom_append whole, linesFrom_break ends longest, ih, List.append_nil,
          List.reverse_reverse]

theorem InWords.cons_blank {items : List (List Char)} {text : List Char} {c : Char}
    (made : InWords items text) (blank : isBlank c = true) : InWords items (c :: text) := by
  cases made with
  | none blanks => exact .none (List.forall_mem_cons.mpr ⟨blank, blanks⟩)
  | word gap blanks solid apart later =>
      exact .word (c :: gap) (List.forall_mem_cons.mpr ⟨blank, blanks⟩) solid apart later

theorem inWords_wordsFrom {current : List Char} (text : List Char)
    (solid : ∀ c ∈ current, isBlank c = false) :
    InWords (wordsFrom current text) (current.reverse ++ text) := by
  fun_induction wordsFrom current text with
  | case1 current empty =>
      obtain rfl := List.isEmpty_iff.mp empty
      exact .none (by simp)
  | case2 current some =>
      have word : IsWord current.reverse := ⟨by simpa using some, by simpa using solid⟩
      exact .word [] (by simp) word (by simp) (.none (by simp))
  | case3 current c rest blank empty ih =>
      obtain rfl := List.isEmpty_iff.mp empty
      exact (ih (by simp)).cons_blank blank
  | case4 current c rest blank some ih =>
      have word : IsWord current.reverse := ⟨by simpa using some, by simpa using solid⟩
      exact .word [] (by simp) word (by simpa using blank) ((ih (by simp)).cons_blank blank)
  | case5 current c rest inside ih =>
      have within : isBlank c = false := by simpa using inside
      have held := ih (List.forall_mem_cons.mpr ⟨within, solid⟩)
      rwa [List.reverse_cons, List.append_assoc] at held

theorem words_eq_iff {text : List Char} {items : List (List Char)} :
    words text = items ↔ InWords items text := by
  constructor
  · rintro rfl
    exact inWords_wordsFrom text (by simp)
  · intro made
    induction made with
    | none blank =>
        have empty := words_blank blank []
        rwa [List.append_nil] at empty
    | word gap blank solid apart _ ih => rw [words_blank blank, words_word solid apart, ih]

end FighterData.Text
