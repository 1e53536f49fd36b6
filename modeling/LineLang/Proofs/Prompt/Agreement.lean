import LineLang.Command
import LineLang.Proofs.Prompt.Replies
import LineLang.Proofs.Registry.Standard
import LineLang.Proofs.Runner.Run
import LineLang.Proofs.Text.Lines

/-!
# The prompt agrees with the runner

`converse_agrees`: lines that are typed do what they do as a program. The prompt prints no headers and
complains in another place, and a query for the symbol table may stand between any two lines.
-/

namespace LineLang

namespace Printed

def event? : Printed → Option Event
  | .event e => some e
  | .remark _ => none

/-- A remark with the mark of a complaint. -/
def complaint? : Printed → Option String
  | .remark text => if text.toList.head? = some '!' then some text else none
  | .event _ => none

theorem complaint?_header (number : Nat) (text : String) :
    complaint? (.remark s!"{number} >  {text}") = none := by
  have digits : ∀ c ∈ (toString number).toList, c.isDigit = true := by
    rw [Nat.toString_eq_repr, Nat.toList_repr]
    exact fun c => Nat.isDigit_of_mem_toDigits (by omega) (by omega)
  have some : (toString number).toList ≠ [] := by
    rw [Nat.toString_eq_repr, Nat.toList_repr]
    exact Nat.toDigits_ne_nil
  obtain ⟨digit, others, first⟩ := List.exists_cons_of_ne_nil some
  have unmarked : digit ≠ '!' := by
    rintro rfl
    cases digits '!' (first ▸ List.mem_cons_self)
  refine if_neg ?_
  rw [String.toList_append, String.toList_append, first]
  simpa using unmarked

theorem complaint?_listing (text : String) : complaint? (.remark ("      enc: " ++ text)) = none := by
  refine if_neg ?_
  rw [String.toList_append]
  simp

theorem complaint?_mark (text : String) :
    complaint? (.remark ("!   " ++ text)) = some ("!   " ++ text) := by
  refine if_pos ?_
  rw [String.toList_append]
  simp

theorem filterMap_event?_remark (text : String) (printed : List Printed) :
    (Printed.remark text :: printed).filterMap event? = printed.filterMap event? := rfl

@[simp] theorem event?_comp_event : event? ∘ Printed.event = some := rfl

@[simp] theorem complaint?_event (e : Event) : complaint? (.event e) = none := rfl

end Printed

namespace Prompt

/-- Whether a line asks for the symbol table. -/
def isQuery (line : String) : Bool := decide (trim line = ":symbols")

def inputs (typed : List String) : List String := typed.filter fun line => !isQuery line

theorem inputs_cons_of_query {line : String} (query : isQuery line = true) (typed : List String) :
    inputs (line :: typed) = inputs typed := List.filter_cons_of_neg (by simp [query])

theorem inputs_cons_of_input {line : String} (input : isQuery line = false) (typed : List String) :
    inputs (line :: typed) = line :: inputs typed := List.filter_cons_of_pos (by simp [input])

/-- The prompt and a run have come to the same: they have left the same session, with the same events in
the same order, and ended in the same way. They have complained about the same lines and columns. -/
structure Agrees (file : String) (p : Prompt) (replies : List Reply) (run : Run) : Prop where
  session_eq : (p.behind replies).session = run.session
  events_eq : (replies.flatMap Reply.printed).filterMap Printed.event? =
    run.printed.filterMap Printed.event?
  failure_eq : Reply.failureOf replies = run.failure
  complaints : ∃ places : List (Nat × OpenQuote),
    replies.filterMap Reply.complaint =
      places.map (fun place => "!   " ++ place.2.message "<repl>" place.1) ∧
    run.printed.filterMap Printed.complaint? =
      places.map fun place => "!   " ++ place.2.message file place.1

section Answer

variable {p : Prompt} {line : String}

theorem answer_of_query (query : isQuery line = true) :
    p.answer line = { prompt := p, printed := [.remark p.session.symbols.dump] } :=
  if_pos (of_decide_eq_true query)

/-- A query prints the symbols, and leaves the prompt as it was. -/
theorem replies_cons_of_query (query : isQuery line = true) (lines : List String) :
    p.replies (line :: lines) =
      [{ prompt := p, printed := [.remark p.session.symbols.dump] }] ++ p.replies lines := by
  have answer : p.answer line = _ := answer_of_query query
  have passed : Reply.failureOf [p.answer line] = none := by
    rw [answer]
    rfl
  rw [replies_cons_of_passed lines passed, answer]

variable (input : isQuery line = false)
include input

theorem answer_of_unsplit {quote : OpenQuote} (split : splitLine line = .error quote) :
    p.answer line =
      { prompt := { p with lines := p.lines + 1 }
        complaint := some ("!   " ++ quote.message "<repl>" (p.lines + 1)) } := by
  rw [answer, if_neg (of_decide_eq_false input), split]
  rfl

variable {lexemes : List String} (split : splitLine line = .ok lexemes)
include split

theorem answer_of_nil (none : lexemes = []) :
    p.answer line = { prompt := { p with lines := p.lines + 1 } } := by
  rw [answer, if_neg (of_decide_eq_false input), split, none]
  rfl

theorem answer_of_split (some : lexemes ≠ []) :
    p.answer line =
      { prompt := ⟨(p.session.runLexemes [] lexemes).session, p.lines + 1⟩
        printed := (p.session.runLexemes [] lexemes).printed
        failure := (p.session.runLexemes [] lexemes).failure } := by
  rw [answer, if_neg (of_decide_eq_false input), split]
  dsimp only
  rw [if_neg (by simpa using some)]

end Answer

section Agreement

variable (file : String) (encoded : Bool)

/-- One line, which the prompt and the run give the same number. -/
theorem agrees_of_input (p : Prompt) {line : String} (input : isQuery line = false) :
    Agrees file p [p.answer line] (p.session.runLine file encoded (p.lines + 1) line) ∧
      (p.answer line).prompt.lines = p.lines + 1 := by
  cases split : splitLine line with
  | error quote =>
    rw [answer_of_unsplit input split, Session.runLine_of_unsplit file encoded (p.lines + 1) split]
    refine ⟨⟨rfl, rfl, rfl, [(p.lines + 1, quote)], rfl, ?_⟩, rfl⟩
    rw [List.filterMap_cons_none (Printed.complaint?_header _ _),
      List.filterMap_cons_some (Printed.complaint?_mark _)]
    rfl
  | ok lexemes =>
    have header := Printed.complaint?_header (p.lines + 1) (showLexemes lexemes)
    by_cases empty : lexemes = []
    · rw [answer_of_nil input split empty, Session.runLine_of_nil file encoded (p.lines + 1) split empty]
      exact ⟨⟨rfl, rfl, rfl, [], rfl, List.filterMap_cons_none header⟩, rfl⟩
    have nonempty := ne_empty_of_splitLine split
    rw [answer_of_split input split empty]
    rcases encodes : p.session.registry.encodeAll lexemes with ⟨e | tokens, r⟩
    · rw [Session.runLexemes_of_error [] nonempty encodes,
        Session.runLine_of_error file encoded (p.lines + 1) split empty encodes]
      exact ⟨⟨rfl, rfl, rfl, [], rfl, List.filterMap_cons_none header⟩, rfl⟩
    · rw [Session.runLexemes_of_ok [] nonempty empty encodes,
        Session.runLine_of_ok file encoded (p.lines + 1) split empty encodes]
      refine ⟨⟨rfl, ?_, rfl, [], rfl, ?_⟩, rfl⟩
      · cases encoded <;> simp [Printed.filterMap_event?_remark]
      · rw [List.filterMap_cons_none header]
        cases encoded <;> simp [Printed.complaint?_listing]

variable {file encoded} {p : Prompt}

theorem Agrees.append {replies others : List Reply} {run rest : Run} (agrees : Agrees file p replies run)
    (passed : run.failure = none) (behind : Agrees file (p.behind replies) others rest) :
    Agrees file p (replies ++ others) (run.followedBy rest) := by
  obtain ⟨places, complained, marked⟩ := agrees.complaints
  obtain ⟨places', complained', marked'⟩ := behind.complaints
  refine ⟨?_, ?_, ?_, places ++ places', ?_, ?_⟩
  · rw [behind_append]
    exact behind.session_eq
  · rw [List.flatMap_append, List.filterMap_append, agrees.events_eq, behind.events_eq,
      ← List.filterMap_append]
    rfl
  · rw [Reply.failureOf_append (agrees.failure_eq.trans passed)]
    exact behind.failure_eq
  · rw [List.filterMap_append, complained, complained', List.map_append]
  · rw [Run.followedBy, List.filterMap_append, marked, marked', List.map_append]

/-- A query does what no line at all does. -/
theorem agrees_of_query :
    Agrees file p [{ prompt := p, printed := [.remark p.session.symbols.dump] }]
      { session := p.session } :=
  ⟨rfl, rfl, rfl, [], rfl, rfl⟩

theorem replies_agree (p : Prompt) (typed : List String) :
    Agrees file p (p.replies typed)
      (p.session.runNumbered file encoded (p.lines + 1) (inputs typed)) := by
  -- An input moves the numbers of both on by one. A query moves neither, and the run does not have it.
  induction typed generalizing p with
  | nil => exact ⟨rfl, rfl, rfl, [], rfl, rfl⟩
  | cons line typed ih =>
    cases query : isQuery line with
    | true =>
      -- The run has nothing for the query: an idle run is put ahead of it.
      rw [inputs_cons_of_query query, replies_cons_of_query query,
        ← Run.idle_followedBy p.session (Session.runNumbered ..)]
      exact agrees_of_query.append rfl (ih p)
    | false =>
      obtain ⟨first, number⟩ := agrees_of_input file encoded p query
      rw [inputs_cons_of_input query, Session.runNumbered_cons]
      cases outcome : (p.session.runLine file encoded (p.lines + 1) line).failure with
      | some e =>
        rw [replies_cons_of_failed _ (first.failure_eq.trans outcome), Run.andThen_of_failed _ outcome]
        exact first
      | none =>
        rw [replies_cons_of_passed _ (first.failure_eq.trans outcome), Run.andThen_of_passed _ outcome]
        refine first.append outcome ?_
        have rest := ih (p.answer line).prompt
        rw [number] at rest
        rw [← first.session_eq, behind_singleton]
        exact rest

theorem runLines_unlines {lines : List String}
    (unbroken : ∀ line ∈ lines, ∀ c ∈ line.toList, isLineBreak c = false) (s : Session) :
    s.runLines file encoded (unlines lines) = s.runNumbered file encoded 1 lines := by
  rw [Session.runLines, programLines_unlines unbroken]

end Agreement

section Queries

variable {p : Prompt}

theorem replies_append_query {front : List String} {query : String} (asks : isQuery query = true)
    (passed : Reply.failureOf (p.replies front) = none) :
    p.replies (front ++ [query]) = p.replies front ++
      [{ prompt := p.behind (p.replies front)
         printed := [.remark (p.behind (p.replies front)).session.symbols.dump] }] := by
  rw [replies_append_of_passed _ passed, replies_cons_of_query asks]
  rfl

/-- The replies to the typed lines that are no queries. -/
def repliesToInputs (p : Prompt) (typed : List String) : List Reply :=
  ((typed.zip (p.replies typed)).filter fun answered => !isQuery answered.1).map Prod.snd

theorem repliesToInputs_eq (p : Prompt) (typed : List String) :
    p.repliesToInputs typed = p.replies (inputs typed) := by
  induction typed generalizing p with
  | nil => rfl
  | cons line typed ih =>
    cases query : isQuery line with
    | true =>
      rw [inputs_cons_of_query query, repliesToInputs, replies_cons_of_query query,
        List.singleton_append, List.zip_cons_cons, List.filter_cons_of_neg (by simp [query])]
      exact ih p
    | false =>
      rw [inputs_cons_of_input query, repliesToInputs]
      cases outcome : Reply.failureOf [p.answer line] with
      | some e =>
        rw [replies_cons_of_failed _ outcome, replies_cons_of_failed _ outcome, List.zip_cons_cons,
          List.zip_nil_right, List.filter_cons_of_pos (by simp [query]), List.filter_nil,
          List.map_singleton]
      | none =>
        have rest := ih (p.answer line).prompt
        rw [repliesToInputs] at rest
        rw [replies_cons_of_passed _ outcome, replies_cons_of_passed _ outcome, List.singleton_append,
          List.singleton_append, List.zip_cons_cons, List.filter_cons_of_pos (by simp [query]),
          List.map_cons, rest]

end Queries

/-- The prompt on a new session. -/
def opened (verbose : Bool) : Prompt := { session := Session.start Registry.vocabulary .empty verbose }

theorem session_eq_opened (verbose : Bool) :
    Command.session verbose = .ok (opened verbose).session := by
  rw [Command.session, Registry.standard_eq_vocabulary]
  rfl

theorem command_converse (verbose : Bool) (typed : String) :
    Command.converse verbose typed =
      (.lines [greeting] ++ Reply.outputOf ((opened verbose).replies (typedLines typed)),
        match Reply.failureOf ((opened verbose).replies (typedLines typed)) with
        | some e => .unencodable e
        | none => .exit 0) := by
  rw [Command.converse, session_eq_opened]
  dsimp only
  rw [show ({ session := (opened verbose).session } : Prompt) = opened verbose from rfl,
    converse_eq_replies]
  cases Reply.failureOf ((opened verbose).replies (typedLines typed)) with
  | some e => rfl
  | none => rfl

theorem command_converse_unlines (verbose : Bool) {typed : List String}
    (single : ∀ line ∈ typed, '\n' ∉ line.toList) :
    Command.converse verbose (unlines typed) =
      (.lines [greeting] ++ Reply.outputOf ((opened verbose).replies typed),
        match Reply.failureOf ((opened verbose).replies typed) with
        | some e => .unencodable e
        | none => .exit 0) := by
  rw [command_converse, typedLines_unlines single]

/-- Typed lines and a program of the same lines, each from a new session. What they do agrees behind every
line, and both stop at the same one. The run does not have the queries. A query prints the symbols as they
are, and the other replies are what they are without any query. -/
theorem converse_agrees (verbose : Bool) (file : String) (encoded : Bool) {typed : List String}
    (single : ∀ line ∈ typed, '\n' ∉ line.toList)
    (unbroken : ∀ line ∈ inputs typed, ∀ c ∈ line.toList, isLineBreak c = false) :
    let p := opened verbose
    let run (lines : List String) := p.session.runLines file encoded (unlines lines)
    Command.session verbose = .ok p.session ∧
      Command.converse verbose (unlines typed) =
        (.lines [greeting] ++ Reply.outputOf (p.replies typed),
          match Reply.failureOf (p.replies typed) with
          | some e => .unencodable e
          | none => .exit 0) ∧
      (∀ front, front <+: typed → Agrees file p (p.replies front) (run (inputs front)) ∧
        ∀ e, Reply.failureOf (p.replies front) = some e →
          p.replies typed = p.replies front ∧ run (inputs typed) = run (inputs front)) ∧
      (∀ front query, front ++ [query] <+: typed → isQuery query = true →
        Reply.failureOf (p.replies front) = none →
          p.replies (front ++ [query]) = p.replies front ++
            [{ prompt := p.behind (p.replies front)
               printed := [.remark (p.behind (p.replies front)).session.symbols.dump] }]) ∧
      p.repliesToInputs typed = p.replies (inputs typed) := by
  intro p run
  refine ⟨session_eq_opened verbose, command_converse_unlines verbose single, ?_,
    fun _ _ _ asks passed => replies_append_query asks passed, repliesToInputs_eq p typed⟩
  rintro front ⟨back, rfl⟩
  have divided : inputs (front ++ back) = inputs front ++ inputs back := List.filter_append ..
  rw [divided] at unbroken
  have ahead := fun line member => unbroken line (List.mem_append_left _ member)
  have agrees : Agrees file p (p.replies front) (run (inputs front)) := by
    show Agrees file p (p.replies front) (p.session.runLines file encoded (unlines (inputs front)))
    rw [runLines_unlines ahead]
    exact replies_agree p front
  refine ⟨agrees, fun e failed => ⟨replies_append_of_failed _ failed, ?_⟩⟩
  have stopped : (p.session.runNumbered file encoded 1 (inputs front)).failure = some e := by
    rw [← runLines_unlines ahead]
    exact agrees.failure_eq.symm.trans failed
  show p.session.runLines file encoded _ = p.session.runLines file encoded _
  rw [divided, runLines_unlines unbroken, runLines_unlines ahead, Session.runNumbered_append,
    Run.andThen_of_failed _ stopped]

/-- The string is left open on the second line, since the query is not counted. A carriage return is a blank
of the query. -/
theorem converse_past_query :
    let typed := ["int x = 1 ;", "\r:symbols ", "x = \"open", "x = x + 1 ;"]
    let p := opened false
    let run := p.session.runLines "f" false (unlines (inputs typed))
    Agrees "f" p (p.replies typed) run ∧
      ((p.replies typed).flatMap Reply.printed).map Printed.text =
        ["    decl-init x:INT = 1", "Symbols: x=1", "    assign x = 2"] ∧
      (p.replies typed).filterMap Reply.complaint = ["!   Unterminated string literal at <repl>:2:5"] ∧
      run.printed.filterMap Printed.complaint? = ["!   Unterminated string literal at f:2:5"] := by
  intro typed p run
  have single : ∀ line ∈ typed, '\n' ∉ line.toList := by decide +kernel
  have whole : (inputs typed).all (fun line => line.toList.all (!isLineBreak ·)) = true := by
    decide +kernel
  have unbroken : ∀ line ∈ inputs typed, ∀ c ∈ line.toList, isLineBreak c = false := by
    simpa only [List.all_eq_true, Bool.not_eq_true'] using whole
  obtain ⟨-, -, agree, -⟩ := converse_agrees false "f" false single unbroken
  have complained : (p.session.runNumbered "f" false 1 (inputs typed)).printed.filterMap
      Printed.complaint? = ["!   Unterminated string literal at f:2:5"] := by decide +kernel
  refine ⟨(agree typed (List.prefix_refl typed)).1, by decide +kernel, by decide +kernel, ?_⟩
  rw [← complained, ← runLines_unlines unbroken]

end Prompt

end LineLang
