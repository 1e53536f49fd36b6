import LineLang.Proofs.Prompt.Agreement
import LineLang.Proofs.Runner.Encoding

/-!
# How the command ends

A program that is text ends with a status, also if one of its lexemes has no code. Nothing of the kind holds
at the prompt. `ending_of_respond`: there every line is answered if and only if the codes last for all of them,
and else the first line for which they do not last ends the command.
-/

namespace LineLang

namespace Prompt

/-! ### What is typed -/

/-- The lexemes of typed lines, of which queries have none. -/
def lexemesTyped (lines : List String) : List String := (inputs lines).flatMap lexemesOf

def symbolsTyped (lines : List String) : Finset String :=
  Registry.vocabulary.newWords .symbol (lexemesTyped lines)

def literalsTyped (lines : List String) : Finset String :=
  Registry.vocabulary.newWords .literal (lexemesTyped lines)

/-- There are codes for all symbols and all literals that are typed. -/
def Fits (lines : List String) : Prop := (symbolsTyped lines).card ≤ 400 ∧ (literalsTyped lines).card ≤ 300

/-! ### The replies -/

theorem hasRoom_symbol_iff (lines : List String) :
    Registry.vocabulary.HasRoom .symbol (lexemesTyped lines) ↔ (symbolsTyped lines).card ≤ 400 := by
  show 0 + (symbolsTyped lines).card ≤ 400 ↔ (symbolsTyped lines).card ≤ 400
  rw [Nat.zero_add]

theorem hasRoom_literal_iff (lines : List String) :
    Registry.vocabulary.HasRoom .literal (lexemesTyped lines) ↔ (literalsTyped lines).card ≤ 300 := by
  show 0 + (literalsTyped lines).card ≤ 300 ↔ (literalsTyped lines).card ≤ 300
  rw [Nat.zero_add]

theorem failureOf_replies (verbose : Bool) (lines : List String) :
    (Reply.failureOf ((opened verbose).replies lines) = none ∧ Fits lines) ∨
      (Reply.failureOf ((opened verbose).replies lines) = some (.exhausted .symbol 699) ∧
          400 < (symbolsTyped lines).card) ∨
        (Reply.failureOf ((opened verbose).replies lines) = some (.exhausted .literal 999) ∧
          300 < (literalsTyped lines).card) := by
  have agrees : Agrees "" (opened verbose) ((opened verbose).replies lines)
      ((opened verbose).session.runNumbered "" false 1 (inputs lines)) := replies_agree _ lines
  rw [agrees.failure_eq]
  rcases Session.failure_runNumbered "" false 1 (s := (opened verbose).session)
    Registry.reachable_vocabulary disjoint_standard (inputs lines) with
    ⟨passed, room⟩ | ⟨category, rfl | rfl, full, failed⟩
  · exact .inl ⟨passed, (hasRoom_symbol_iff lines).1 (room .symbol),
      (hasRoom_literal_iff lines).1 (room .literal)⟩
  · exact .inr (.inl ⟨failed, Nat.lt_of_not_le fun few => full ((hasRoom_symbol_iff lines).2 few)⟩)
  · exact .inr (.inr ⟨failed, Nat.lt_of_not_le fun few => full ((hasRoom_literal_iff lines).2 few)⟩)

theorem fits_iff (verbose : Bool) (lines : List String) :
    Fits lines ↔ Reply.failureOf ((opened verbose).replies lines) = none := by
  rcases failureOf_replies verbose lines with ⟨passed, fits⟩ | ⟨failed, many⟩ | ⟨failed, many⟩
  · exact iff_of_true fits passed
  · exact iff_of_false (fun fits => absurd fits.1 (Nat.not_le_of_lt many)) (by simp [failed])
  · exact iff_of_false (fun fits => absurd fits.2 (Nat.not_le_of_lt many)) (by simp [failed])

/-- Where the codes do not last, there is a first line for which they do not, and it is answered last. -/
theorem exists_last_reply (verbose : Bool) {lines : List String} (full : ¬Fits lines) :
    ∃ front line back, lines = front ++ line :: back ∧ Fits front ∧ ¬Fits (front ++ [line]) ∧
      ((opened verbose).replies lines).length = front.length + 1 := by
  obtain ⟨e, failed⟩ := Option.ne_none_iff_exists'.1 fun passed => full ((fits_iff verbose lines).2 passed)
  obtain ⟨front, line, back, cut, passed, failed', same⟩ := exists_failed_reply failed
  refine ⟨front, line, back, cut, (fits_iff verbose front).2 passed, fun room => ?_, ?_⟩
  · rw [(fits_iff verbose _).1 room] at failed'
    cases failed'
  · rw [same, replies_append_of_passed _ passed, List.length_append, length_replies_of_passed passed,
      replies_singleton]
    rfl

end Prompt

namespace Command
open Prompt (opened)

/-! ### The ways to run a program -/

theorem status_runText_le (options : Options) (file text : String) :
    (runText options file text).2 ≤ 1 := by
  have either (rejected : Nat) : (if rejected = 0 then 0 else 1) ≤ 1 := by
    split <;> simp
  unfold runText
  split
  · exact Nat.le_refl 1
  dsimp only
  split
  · exact Nat.le_refl 1
  · exact either _

theorem runFile_cases (options : Options) (path : String) (content : Except ReadError ByteArray) :
    ((runFile options path content).2 = .undecodable ∧
        ∃ bytes, content = .ok bytes ∧ String.fromUTF8? bytes = none) ∨
      ∃ status ≤ 1, (runFile options path content).2 = .exit status := by
  unfold runFile
  split
  · exact .inr ⟨1, Nat.le_refl 1, rfl⟩
  · rename_i bytes
    split
    · rename_i broken
      exact .inl ⟨rfl, bytes, rfl, broken⟩
    · exact .inr ⟨_, status_runText_le _ _ _, rfl⟩

/-- A program ends with the status 0 or 1 unless it is no text. The prompt ends with the status 0 if the
codes last for all that is typed, and then it has answered every line. Else it ends at the first line for
which they do not, and answers no line behind it. -/
theorem ending_of_respond (arguments : List String) (read : String → Except ReadError ByteArray)
    (typed : String) :
    let ending := (respond arguments read typed).2
    (∀ options text, request arguments = .runSource options text →
        ∃ status ≤ 1, ending = .exit status) ∧
      (∀ options path, request arguments = .runFile options path →
        (ending = .undecodable ∧ ∃ bytes, read path = .ok bytes ∧ String.fromUTF8? bytes = none) ∨
          ∃ status ≤ 1, ending = .exit status) ∧
      ∀ verbose, request arguments = .converse verbose →
        let lines := typedLines typed
        let replies := (opened verbose).replies lines
        (Prompt.Fits lines → ending = .exit 0 ∧ replies.length = lines.length) ∧
          (¬Prompt.Fits lines →
            ((ending = .unencodable (.exhausted .symbol 699) ∧ 400 < (Prompt.symbolsTyped lines).card) ∨
                (ending = .unencodable (.exhausted .literal 999) ∧
                  300 < (Prompt.literalsTyped lines).card)) ∧
              ∃ front line back, lines = front ++ line :: back ∧ Prompt.Fits front ∧
                ¬Prompt.Fits (front ++ [line]) ∧ replies.length = front.length + 1) := by
  intro ending
  refine ⟨?_, ?_, ?_⟩
  · intro options text asked
    refine ⟨_, status_runText_le options "<string>" text, ?_⟩
    simp only [ending, respond, asked]
  · intro options path asked
    have cases := runFile_cases options path (read path)
    simpa only [ending, respond, asked] using cases
  · intro verbose asked
    have ended : ending = (converse verbose typed).2 := by simp only [ending, respond, asked]
    rw [ended, Prompt.command_converse]
    dsimp only
    constructor
    · intro room
      have passed := (Prompt.fits_iff verbose _).1 room
      exact ⟨by rw [passed], Prompt.length_replies_of_passed passed⟩
    · intro full
      refine ⟨?_, Prompt.exists_last_reply verbose full⟩
      rcases Prompt.failureOf_replies verbose (typedLines typed) with
        ⟨-, fits⟩ | ⟨failed, many⟩ | ⟨failed, many⟩
      · exact absurd fits full
      · exact .inl ⟨by rw [failed], many⟩
      · exact .inr ⟨by rw [failed], many⟩

/-! ### One symbol too many -/

theorem isQuery_of_isWord {word : String} (h : IsWord word.toList) : Prompt.isQuery word = false := by
  refine decide_eq_false fun query => ?_
  have colon : ':' ∈ trimBy isBlank word.toList := by
    rw [← String.toList_ofList (l := trimBy isBlank word.toList), ← trim, query]
    decide
  have sublist : (trimBy isBlank word.toList).Sublist word.toList := by
    have back := (List.dropWhile_sublist isBlank (l := (word.toList.dropWhile isBlank).reverse)).reverse
    rw [List.reverse_reverse] at back
    exact back.trans (List.dropWhile_sublist isBlank)
  exact Bool.false_ne_true (h.2 ':' (sublist.subset colon))

theorem lexemesOf_of_isWord {word : String} (h : IsWord word.toList) : lexemesOf word = [word] := by
  have laidOut := laidOut_intercalate (List.forall_mem_singleton.2 (WellFormed.word h))
  rw [List.intercalate_singleton] at laidOut
  exact lexemesOf_of_ok (splitLine_of_laidOut laidOut)

theorem lexemesTyped_of_isWord {words : List String} (h : ∀ word ∈ words, IsWord word.toList) :
    Prompt.lexemesTyped words = words := by
  have inputs : Prompt.inputs words = words :=
    List.filter_eq_self.2 fun word member => by simp [isQuery_of_isWord (h word member)]
  rw [Prompt.lexemesTyped, inputs]
  clear inputs
  induction words with
  | nil => rfl
  | cons word words ih =>
    obtain ⟨here, others⟩ := List.forall_mem_cons.1 h
    rw [List.flatMap_cons, lexemesOf_of_isWord here, ih others]
    rfl

section Letter

-- `c` is past the characters that the keywords and operators are made of, and before the next blank
variable {c : Char} (low : 0x100 ≤ c.toNat)
include low

theorem isWord_singleton (high : c.toNat < 0x1680) : IsWord (String.singleton c).toList := by
  have ascii : ∀ c ∈ '"' :: punctuation, c.toNat < 0x100 := by simp [punctuation]
  have unlisted : c ∉ '"' :: punctuation := fun member => absurd (ascii c member) (Nat.not_lt_of_le low)
  have unblank : isBlank c = false := by
    simp only [isBlank, Bool.or_eq_false_iff, Bool.and_eq_false_imp, decide_eq_true_eq,
      decide_eq_false_iff_not, beq_eq_false_iff_ne, ne_eq]
    omega
  have word : isWordChar c = true :=
    (isWordChar_iff c).2 ⟨unblank, fun listed => unlisted (List.mem_cons_of_mem _ listed),
      fun quote => unlisted (quote ▸ List.mem_cons_self)⟩
  rw [String.toList_singleton]
  exact ⟨by simp, List.forall_mem_singleton.2 word⟩

theorem new_singleton : Registry.freeCategory (String.singleton c) = .symbol ∧
    Registry.vocabulary.known? (String.singleton c) = none := by
  have noDigit : c.isDigit = false := by
    simp only [Char.isDigit, Bool.and_eq_false_iff, decide_eq_false_iff_not]
    right
    show ¬c.toNat ≤ 57
    omega
  have category : Registry.freeCategory (String.singleton c) = .symbol := by
    simp [Registry.freeCategory, isNumeric, noDigit]
  have ascii : (Registry.vocabulary.keywords.keys ++ Registry.vocabulary.operators.keys).all
      (fun word => word.toList.all (·.toNat < 0x100)) = true := by decide +kernel
  simp only [List.all_eq_true, decide_eq_true_eq] at ascii
  have reserved : String.singleton c ∉
      Registry.vocabulary.keywords.keys ++ Registry.vocabulary.operators.keys := by
    intro member
    exact absurd (ascii _ member c (by simp)) (Nat.not_lt_of_le low)
  have nonempty : String.singleton c ≠ "" := fun empty => by
    simpa using congrArg String.toList empty
  refine ⟨category, (Registry.known?_eq_none_iff _ nonempty).2 ?_⟩
  rw [category]
  exact ⟨fun member => reserved (List.mem_append_left _ member),
    fun member => reserved (List.mem_append_right _ member), List.not_mem_nil⟩

end Letter

/-- One letter more than there are codes for symbols. -/
def letters : List String := (List.range 401).map fun i => String.singleton (Char.ofNat (0x100 + i))

theorem toNat_ofNat {n : Nat} (below : n < 0x1680) : (Char.ofNat n).toNat = n := by
  have valid : n.isValidChar := .inl (by omega)
  rw [Char.ofNat, dif_pos valid]
  rfl

theorem exists_of_mem_letters {word : String} (member : word ∈ letters) :
    ∃ c, word = String.singleton c ∧ 0x100 ≤ c.toNat ∧ c.toNat < 0x1680 := by
  obtain ⟨i, below, rfl⟩ := List.mem_map.1 member
  have below := List.mem_range.1 below
  exact ⟨_, rfl, by rw [toNat_ofNat (by omega)]; omega, by rw [toNat_ofNat (by omega)]; omega⟩

theorem isWord_of_mem_letters : ∀ word ∈ letters, IsWord word.toList := by
  intro word member
  obtain ⟨c, rfl, low, high⟩ := exists_of_mem_letters member
  exact isWord_singleton low high

theorem new_of_mem_letters : ∀ word ∈ letters, Registry.freeCategory word = .symbol ∧
    Registry.vocabulary.known? word = none := by
  intro word member
  obtain ⟨c, rfl, low, -⟩ := exists_of_mem_letters member
  exact new_singleton low

theorem nodup_letters : letters.Nodup := by
  refine List.Nodup.map_on (fun i below j below' same => ?_) List.nodup_range
  have below := List.mem_range.1 below
  have below' := List.mem_range.1 below'
  have same := congrArg Char.toNat (List.singleton_inj.1 (by simpa using congrArg String.toList same))
  rw [toNat_ofNat (by omega), toNat_ofNat (by omega)] at same
  omega

theorem failureOf_letters (verbose : Bool) :
    Reply.failureOf ((opened verbose).replies letters) = some (.exhausted .symbol 699) := by
  have lexemes := lexemesTyped_of_isWord isWord_of_mem_letters
  have symbols : Prompt.symbolsTyped letters = letters.toFinset := by
    rw [Prompt.symbolsTyped, lexemes]
    exact Finset.filter_true_of_mem fun word member => new_of_mem_letters word (List.mem_toFinset.1 member)
  have literals : Prompt.literalsTyped letters = ∅ := by
    rw [Prompt.literalsTyped, lexemes]
    refine Finset.eq_empty_of_forall_notMem fun word member => ?_
    obtain ⟨member, literal, -⟩ := Registry.mem_newWords.1 member
    rw [(new_of_mem_letters word member).1] at literal
    cases literal
  rcases Prompt.failureOf_replies verbose letters with ⟨-, few, -⟩ | ⟨failed, -⟩ | ⟨-, many⟩
  · rw [symbols, List.toFinset_card_of_nodup nodup_letters] at few
    exact absurd few (by simp [letters])
  · exact failed
  · rw [literals] at many
    cases many

/-- Each letter stands on a line of its own. There is a code for all that is new on the line behind them, but
it has no answer. -/
theorem respond_letters :
    let lines := letters ++ ["int Ā = 1 ;"]
    (respond [] (fun _ => .error .missing) (unlines lines)).2 = .unencodable (.exhausted .symbol 699) ∧
      ((opened false).replies lines).length < lines.length := by
  intro lines
  have failed := failureOf_letters false
  have stopped : (opened false).replies lines = (opened false).replies letters :=
    Prompt.replies_append_of_failed _ failed
  have single : ∀ line ∈ lines, '\n' ∉ line.toList := by
    intro line member
    rcases List.mem_append.1 member with member | last
    · exact fun within => Bool.false_ne_true ((isWord_of_mem_letters line member).2 _ within)
    · obtain rfl := List.mem_singleton.1 last
      decide +kernel
  constructor
  · show (converse false (unlines lines)).2 = _
    rw [Prompt.command_converse_unlines false single, stopped, failed]
  · have full : ¬Prompt.Fits letters := fun fits => by
      rw [(Prompt.fits_iff false letters).1 fits] at failed
      cases failed
    obtain ⟨front, line, back, cut, -, -, answered⟩ := Prompt.exists_last_reply false full
    rw [stopped, answered, List.length_append, cut, List.length_append, List.length_cons]
    simp

end Command

end LineLang
