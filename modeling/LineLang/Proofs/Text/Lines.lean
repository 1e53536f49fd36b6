import LineLang.Text.Lines

/-!
# Lines of a text

`programLines_unlines` and `typedLines_unlines`: lines that were put together, each with a line feed
behind it, are the lines of the text. A program is cut at every line break, and what is typed at line feeds
only.
-/

namespace LineLang

/-- A line feed behind every line. -/
def unlines (lines : List String) : String := String.join (lines.map (· ++ "\n"))

theorem mergeCrLf_of_not_mem {cs : List Char} (h : '\r' ∉ cs) : mergeCrLf cs = cs := by
  induction cs with
  | nil => rfl
  | cons c cs ih =>
    rw [List.mem_cons, not_or] at h
    rw [mergeCrLf.eq_3 c cs (fun _ same => absurd same.symm h.1), ih h.2]

section Cutting

variable {isEnd : Char → Bool}

theorem not_isEnd_of_mem_linesBy {cs line : List Char} (h : line ∈ linesBy isEnd cs) :
    ∀ c ∈ line, isEnd c = false := by
  induction cs generalizing line with
  | nil => cases h
  | cons c cs ih =>
    rw [linesBy] at h
    split at h
    · rcases List.mem_cons.1 h with rfl | later
      · simp
      · exact ih later
    · rename_i inside
      have inside : isEnd c = false := by simpa using inside
      split at h
      · obtain rfl := List.mem_singleton.1 h
        simpa using inside
      · rename_i first others cut
        rw [cut] at ih
        rcases List.mem_cons.1 h with rfl | later
        · exact List.forall_mem_cons.2 ⟨inside, ih List.mem_cons_self⟩
        · exact ih (List.mem_cons_of_mem _ later)

theorem linesBy_append {line : List Char} (inside : ∀ c ∈ line, isEnd c = false) {c : Char}
    (ends : isEnd c = true) (rest : List Char) :
    linesBy isEnd (line ++ c :: rest) = line :: linesBy isEnd rest := by
  induction line with
  | nil => rw [List.nil_append, linesBy, if_pos ends]
  | cons d line ih =>
    obtain ⟨first, others⟩ := List.forall_mem_cons.1 inside
    rw [List.cons_append, linesBy, if_neg (by simp [first]), ih others]

theorem linesBy_flatMap {lines : List (List Char)} (inside : ∀ line ∈ lines, ∀ c ∈ line, isEnd c = false)
    {c : Char} (ends : isEnd c = true) : linesBy isEnd (lines.flatMap (· ++ [c])) = lines := by
  induction lines with
  | nil => rfl
  | cons line lines ih =>
    obtain ⟨first, others⟩ := List.forall_mem_cons.1 inside
    rw [List.flatMap_cons, List.append_assoc, List.singleton_append, linesBy_append first ends,
      ih others]

end Cutting

theorem not_isLineBreak_of_mem_programLines {text line : String} (h : line ∈ programLines text) :
    ∀ c ∈ line.toList, isLineBreak c = false := by
  obtain ⟨cs, member, rfl⟩ := List.mem_map.1 h
  rw [String.toList_ofList]
  exact not_isEnd_of_mem_linesBy member

theorem toList_unlines (lines : List String) :
    (unlines lines).toList = (lines.map String.toList).flatMap (· ++ ['\n']) := by
  simp [unlines, String.toList_join, List.flatMap_map]

theorem linesBy_unlines {isEnd : Char → Bool} (feed : isEnd '\n' = true) {lines : List String}
    (inside : ∀ line ∈ lines, ∀ c ∈ line.toList, isEnd c = false) :
    (linesBy isEnd (unlines lines).toList).map String.ofList = lines := by
  rw [toList_unlines, linesBy_flatMap (List.forall_mem_map.2 inside) feed, List.map_map]
  simp [Function.comp_def]

theorem return_not_mem_unlines {lines : List String} (h : ∀ line ∈ lines, '\r' ∉ line.toList) :
    '\r' ∉ (unlines lines).toList := by
  rw [toList_unlines]
  intro member
  obtain ⟨cs, listed, found⟩ := List.mem_flatMap.1 member
  obtain ⟨line, given, rfl⟩ := List.mem_map.1 listed
  rcases List.mem_append.1 found with within | feed
  · exact h line given within
  · cases List.mem_singleton.1 feed

theorem programLines_unlines {lines : List String}
    (h : ∀ line ∈ lines, ∀ c ∈ line.toList, isLineBreak c = false) :
    programLines (unlines lines) = lines := by
  have noReturn : '\r' ∉ (unlines lines).toList := return_not_mem_unlines fun line listed within =>
    Bool.noConfusion (h line listed '\r' within)
  rw [programLines, mergeCrLf_of_not_mem noReturn]
  exact linesBy_unlines rfl h

theorem typedLines_unlines {lines : List String} (h : ∀ line ∈ lines, '\n' ∉ line.toList) :
    typedLines (unlines lines) = lines := by
  have inside : ∀ line ∈ lines, ∀ c ∈ line.toList, (c == '\n') = false := fun line listed c within =>
    beq_false_of_ne (ne_of_mem_of_not_mem within (h line listed))
  exact linesBy_unlines rfl inside

end LineLang
