import LineLang.Proofs.Lexeme.Layout

/-!
# Lexemes as they are shown

Shown lexemes have commas between them and a mark behind the last, and nothing tells these apart from
lexemes that look the same. `splitLine_showLexemes`: splitting what is shown brings back every lexeme with
its comma and then the mark, so that no two lines with different lexemes are shown alike.
-/

namespace LineLang

/-- A comma is read apart from whatever stands before it. -/
theorem not_glues_comma (left : List Char) : ¬Glues left [','] := by
  rintro (⟨-, word⟩ | ⟨-, head⟩ | ⟨-, head⟩)
  · exact not_isWord_of_mem_punctuation (by decide) [] word
  · exact absurd head (by decide)
  · exact absurd head (by decide)

/-- Well-formed lexemes with a comma and a space behind each, and a word at the end, are laid out. -/
theorem laidOut_shown {lexemes : List (List Char)} (h : ∀ lexeme ∈ lexemes, WellFormed lexeme)
    {mark : List Char} (word : IsWord mark) :
    LaidOut none (lexemes.flatMap (fun lexeme => [lexeme, [',']]) ++ [mark])
      ([',', ' '].intercalate (lexemes ++ [mark])) := by
  have noGap (lexeme : List Char) : Gap none [] lexeme := ⟨by simp, by simp⟩
  induction lexemes with
  | nil =>
    have alone : LaidOut none [mark] ([] ++ (mark ++ [])) :=
      .lexeme (noGap mark) (.word word) (.done (by simp))
    simpa using alone
  | cons lexeme lexemes ih =>
    obtain ⟨wellFormed, others⟩ := List.forall_mem_cons.1 h
    obtain ⟨next, rest, split⟩ : ∃ next rest, lexemes ++ [mark] = next :: rest :=
      List.exists_cons_of_ne_nil (by simp)
    rw [List.cons_append, split, List.intercalate_cons_cons, ← split, List.append_assoc]
    -- the space behind the comma parts it from what follows
    have comma : LaidOut (some lexeme) ([','] :: (lexemes.flatMap (fun lexeme => [lexeme, [',']]) ++ [mark]))
        ([] ++ ([','] ++ ' ' :: [',', ' '].intercalate (lexemes ++ [mark]))) :=
      .lexeme ⟨by simp, by simp [not_glues_comma]⟩ (.single (by decide))
        (laidOut_cons_blank rfl (ih others))
    exact .lexeme (noGap lexeme) wellFormed comma

theorem splitLine_of_wellFormed {lexemes : List String} (h : ∀ lexeme ∈ lexemes, WellFormed lexeme.toList) :
    splitLine (showLexemes lexemes) = .ok (lexemes.flatMap (fun lexeme => [lexeme, ","]) ++ ["EOL"]) := by
  have letters : "EOL".toList.all isWordChar = true := by decide
  have mark : IsWord "EOL".toList := ⟨by decide, List.all_eq_true.1 letters⟩
  have laidOut := laidOut_shown (List.forall_mem_map.2 h) mark
  apply splitLine_of_laidOut
  rw [showLexemes, String.toList_intercalate, List.map_append]
  simpa [List.flatMap_map, List.map_flatMap] using laidOut

theorem flatMap_comma_inj {lexemes lexemes' : List String}
    (h : lexemes.flatMap (fun lexeme => [lexeme, ","]) = lexemes'.flatMap fun lexeme => [lexeme, ","]) :
    lexemes = lexemes' := by
  induction lexemes generalizing lexemes' with
  | nil =>
    cases lexemes' with
    | nil => rfl
    | cons => cases h
  | cons lexeme lexemes ih =>
    cases lexemes' with
    | nil => cases h
    | cons lexeme' lexemes' =>
      obtain ⟨rfl, behind⟩ := List.cons.inj h
      rw [ih (List.cons.inj behind).2]

/-- What is shown of a line is split into its lexemes, each with its comma, and the mark of the end. Lines
that are shown alike have the same lexemes. -/
theorem splitLine_showLexemes {line : String} {lexemes : List String} (h : splitLine line = .ok lexemes) :
    splitLine (showLexemes lexemes) = .ok (lexemes.flatMap (fun lexeme => [lexeme, ","]) ++ ["EOL"]) ∧
      ∀ line' lexemes', splitLine line' = .ok lexemes' →
        showLexemes lexemes' = showLexemes lexemes → lexemes' = lexemes := by
  have wellFormed {line : String} {lexemes : List String} (h : splitLine line = .ok lexemes) :
      ∀ lexeme ∈ lexemes, WellFormed lexeme.toList :=
    List.forall_mem_map.1 (wellFormed_of_laidOut (laidOut_of_splitLine h))
  have shown := splitLine_of_wellFormed (wellFormed h)
  refine ⟨shown, fun line' lexemes' h' same => ?_⟩
  have shown' := splitLine_of_wellFormed (wellFormed h')
  rw [same, shown, Except.ok.injEq] at shown'
  exact (flatMap_comma_inj (List.append_cancel_right shown')).symm

/-- Commas and the mark may be lexemes themselves, or stand between quotes. -/
theorem splitLine_showLexemes_commas :
    splitLine ",EOL \", EOL\"//" = .ok [",", "EOL", "\", EOL\""] ∧
      splitLine (showLexemes [",", "EOL", "\", EOL\""]) =
        .ok [",", ",", "EOL", ",", "\", EOL\"", ",", "EOL"] ∧
      showLexemes [",", "EOL"] ≠ showLexemes [",", "EOL", "\", EOL\""] := by
  have split : splitLine ",EOL \", EOL\"//" = .ok [",", "EOL", "\", EOL\""] := by decide +kernel
  obtain ⟨shown, apart⟩ := splitLine_showLexemes split
  refine ⟨split, shown, fun same => ?_⟩
  exact absurd (apart ",EOL" [",", "EOL"] (by decide +kernel) same) (by decide)

end LineLang
