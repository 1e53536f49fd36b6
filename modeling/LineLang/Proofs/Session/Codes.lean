import LineLang.Proofs.Registry.Standard
import LineLang.Proofs.Session.Run

/-!
# Codes cannot be observed

`executeAll_eq_of_sameReserved`: what a run gives, emits and records depends on the keywords and
operators of the registry only. Two registries that reserve the same lexemes may hand out any codes;
each step of one session is matched by a step of the other on tokens of the same lexemes.
-/

namespace LineLang

/-- The same error, or values that are related. -/
inductive Agree {ε α β : Type} (R : α → β → Prop) : Except ε α → Except ε β → Prop where
  | ok {a : α} {b : β} : R a b → Agree R (.ok a) (.ok b)
  | error (e : ε) : Agree R (.error e) (.error e)

theorem agree_bind {ε α β α' β' : Type} {R : α → β → Prop} {R' : α' → β' → Prop}
    {x : Except ε α} {y : Except ε β} {f : α → Except ε α'} {g : β → Except ε β'}
    (first : Agree R x y) (next : ∀ a b, R a b → Agree R' (f a) (g b)) :
    Agree R' (x >>= f) (y >>= g) := by
  cases first with
  | ok related => exact next _ _ related
  | error e => exact .error e

theorem eq_of_agree {ε α : Type} {x y : Except ε α} (h : Agree Eq x y) : x = y := by
  cases h with
  | ok same => rw [same]
  | error e => rfl

section Stacks

variable {d d' : Dialect} {r r' : Registry}

variable (d d' r r') in
/-- Two codes of two registries that mean the same. -/
structure SameCode (code code' : Int) : Prop where
  role : d.roles.get? code = d'.roles.get? code'
  lexeme : r.decode code = r'.decode code'

variable (d d' r r') in
structure SameToken (token token' : Token) : Prop where
  lexeme : token.lexeme = token'.lexeme
  category : token.category = token'.category
  code : SameCode d d' r r' token.code token'.code

variable (d d' r r') in
structure SameStacks (s s' : Stacks) : Prop where
  operands : s.operands = s'.operands
  operators : List.Forall₂ (SameCode d d' r r') s.operators s'.operators

theorem classify_of_sameToken {token token' : Token} (h : SameToken d d' r r' token token') :
    d.classify token = d'.classify token' := by
  rw [Dialect.classify, Dialect.classify, h.code.role, h.category, h.lexeme]

theorem isOpenParen_of_sameCode {code code' : Int} (h : SameCode d d' r r' code code') :
    d.isOpenParen code = d'.isOpenParen code' := by
  rw [Dialect.isOpenParen, Dialect.isOpenParen, h.role]

namespace Stacks

theorem applyOperator_of_sameCode {code code' : Int} (h : SameCode d d' r r' code code')
    (operands : List Value) : applyOperator d r code operands = applyOperator d' r' code' operands := by
  unfold applyOperator Dialect.roleOf
  rw [h.role, h.lexeme]

theorem collapse_agree {yields yields' : Int → Bool} {operators operators' : List Int}
    (alike : ∀ code code', SameCode d d' r r' code code' → yields code = yields' code')
    (h : List.Forall₂ (SameCode d d' r r') operators operators') (operands : List Value) :
    Agree (SameStacks d d' r r') (collapse d r yields operands operators)
      (collapse d' r' yields' operands operators') := by
  induction h generalizing operands with
  | nil => exact .ok ⟨rfl, .nil⟩
  | cons here rest ih =>
    rw [collapse, collapse, alike _ _ here, applyOperator_of_sameCode here]
    split
    · split
      · exact .error _
      · exact ih _
    · exact .ok ⟨rfl, .cons here rest⟩

theorem pushOperator_agree (weigh : ∀ code code', d.weight code = d'.weight code') {s s' : Stacks}
    (h : SameStacks d d' r r' s s') {code code' : Int} (same : SameCode d d' r r' code code') :
    Agree (SameStacks d d' r r') (s.pushOperator d r code) (s'.pushOperator d' r' code') := by
  unfold pushOperator
  rw [h.operands]
  refine agree_bind (collapse_agree ?_ h.operators _) fun t t' related => ?_
  · intro top top' alike
    rw [isOpenParen_of_sameCode alike, weigh code code', weigh top top']
  · exact .ok ⟨related.operands, .cons same related.operators⟩

theorem closeParen_agree {s s' : Stacks} (h : SameStacks d d' r r' s s') :
    Agree (SameStacks d d' r r') (s.closeParen d r) (s'.closeParen d' r') := by
  unfold closeParen
  rw [h.operands]
  refine agree_bind (collapse_agree ?_ h.operators _) fun t t' related => ?_
  · intro top top' alike
    rw [isOpenParen_of_sameCode alike]
  · obtain ⟨operands, operators⟩ := t
    obtain ⟨operands', operators'⟩ := t'
    obtain ⟨values, codes⟩ := related
    cases codes with
    | nil => exact .error _
    | cons _ rest => exact .ok ⟨values, rest⟩

theorem isEmpty_of_sameStacks {s s' : Stacks} (h : SameStacks d d' r r' s s') :
    s.isEmpty = s'.isEmpty := by
  obtain ⟨operands, operators⟩ := s
  obtain ⟨operands', operators'⟩ := s'
  obtain ⟨values, codes⟩ := h
  cases values
  cases codes <;> rfl

theorem finish_of_sameStacks {s s' : Stacks} (h : SameStacks d d' r r' s s') :
    s.finish d r = s'.finish d' r' := by
  apply eq_of_agree
  unfold finish
  rw [h.operands]
  refine agree_bind (collapse_agree ?_ h.operators _) fun t t' related => ?_
  · intro top top' alike
    rw [isOpenParen_of_sameCode alike]
  · obtain ⟨operands, operators⟩ := t
    obtain ⟨operands', operators'⟩ := t'
    obtain ⟨values, codes⟩ := related
    cases values
    cases codes with
    | cons _ rest => exact .error _
    | nil =>
      cases operands with
      | nil => exact .error _
      | cons value rest => exact .ok rfl

theorem read_agree (weigh : ∀ code code', d.weight code = d'.weight code') (t : SymbolTable)
    {s s' : Stacks} (h : SameStacks d d' r r' s s') (role : Role) {token token' : Token}
    (same : SameToken d d' r r' token token') :
    Agree (SameStacks d d' r r') (s.read d r t role token) (s'.read d' r' t role token') := by
  have pushed (value : Value) : SameStacks d d' r r' (s.pushOperand value) (s'.pushOperand value) :=
    ⟨congrArg (value :: ·) h.operands, h.operators⟩
  unfold read
  rw [same.lexeme]
  cases role with
  | literal =>
    dsimp only
    cases readLiteral token'.lexeme with
    | ok value => exact .ok (pushed value)
    | error fault => exact .error _
  | name =>
    dsimp only
    cases t.read token'.lexeme with
    | ok value => exact .ok (pushed value)
    | error fault => exact .error _
  | binary op => exact pushOperator_agree weigh h same.code
  | openParen => exact .ok ⟨h.operands, .cons same.code h.operators⟩
  | closeParen => exact closeParen_agree h
  | intType | stringType | equals | semicolon | other => exact .error _

end Stacks

/-! ### Statements -/

variable (d d' r r') in
inductive SamePhase : Phase → Phase → Prop where
  | start : SamePhase .start .start
  | afterType (ty : Ty) : SamePhase (.afterType ty) (.afterType ty)
  | afterDeclared (ty : Ty) (name : String) : SamePhase (.afterDeclared ty name) (.afterDeclared ty name)
  | afterName (name : String) : SamePhase (.afterName name) (.afterName name)
  | expression (target : Target) {pending pending' : Stacks} :
      SameStacks d d' r r' pending pending' →
        SamePhase (.expression target pending) (.expression target pending')

variable (d d' r r') in
inductive SameMove : Move → Move → Prop where
  | goOn {phase phase' : Phase} :
      SamePhase d d' r r' phase phase' → SameMove (.goOn phase) (.goOn phase')
  | complete (write : Write) : SameMove (.complete write) (.complete write)

theorem step_agree (weigh : ∀ code code', d.weight code = d'.weight code') (t : SymbolTable)
    {phase phase' : Phase} (h : SamePhase d d' r r' phase phase') {token token' : Token}
    (same : SameToken d d' r r' token token') :
    Agree (SameMove d d' r r') (phase.step d r t token) (phase'.step d' r' t token') := by
  unfold Phase.step
  rw [classify_of_sameToken same, same.lexeme]
  cases h with
  | start =>
    dsimp only
    split
    · exact .ok (.goOn (.afterType .int))
    · exact .ok (.goOn (.afterType .string))
    · exact .ok (.goOn (.afterName _))
    · exact .ok (.goOn .start)
    · exact .error _
  | afterType ty =>
    dsimp only
    split
    · exact .ok (.goOn (.afterDeclared ty _))
    · exact .error _
  | afterDeclared ty name =>
    dsimp only
    split
    · exact .ok (.complete _)
    · exact .ok (.goOn (.expression _ ⟨rfl, .nil⟩))
    · exact .error _
  | afterName name =>
    dsimp only
    split
    · exact .ok (.goOn (.expression _ ⟨rfl, .nil⟩))
    · exact .error _
  | expression target related =>
    dsimp only
    split
    · rw [Stacks.finish_of_sameStacks related]
      cases Stacks.finish d' r' _ with
      | ok value => exact .ok (.complete _)
      | error report => exact .error _
    · exact agree_bind (Stacks.read_agree weigh t related _ same) fun _ _ pending =>
        .ok (.goOn (.expression target pending))

end Stacks

namespace Session

/-! ### Calls -/

def on (s : Session) (r : Registry) (d : Dialect) : Session := { s with registry := r, dialect := d }

theorem perform_on (s : Session) (r : Registry) (d : Dialect) (text : String) (write : Write) :
    (s.on r d).perform text write =
      (s.perform text write).map fun (s, event) => (s.on r d, event) := by
  unfold perform on
  dsimp only
  cases write.run s.symbols <;> rfl

section Twins

variable {r' : Registry} {d' : Dialect}

theorem finish_on {s : Session} (text : String) {phase phase' : Phase}
    (h : SamePhase s.dialect d' s.registry r' phase phase') :
    (s.on r' d').finish text phase' =
      ((s.finish text phase).1, (s.finish text phase).2.1.on r' d', (s.finish text phase).2.2) := by
  cases h with
  | start | afterType | afterDeclared | afterName => rfl
  | @expression target pending pending' related =>
    have empty := Stacks.isEmpty_of_sameStacks related
    have value := Stacks.finish_of_sameStacks related
    unfold finish
    dsimp only [on]
    rw [empty, value]
    split
    · rfl
    · cases pending'.finish d' r' with
      | error report => rfl
      | ok value =>
        have performed := perform_on s r' d' text (target.write value)
        dsimp only [on] at performed ⊢
        rw [performed]
        cases s.perform text (target.write value) <;> rfl

/-- A call on tokens of the same lexemes goes the same way. -/
theorem feed_on (text : String) {tokens tokens' : List Token} {s : Session}
    (weigh : ∀ code code', s.dialect.weight code = d'.weight code') {phase phase' : Phase}
    (h : SamePhase s.dialect d' s.registry r' phase phase')
    (same : List.Forall₂ (SameToken s.dialect d' s.registry r') tokens tokens') :
    (s.on r' d').feed text phase' tokens' =
      ((s.feed text phase tokens).1, (s.feed text phase tokens).2.1.on r' d',
        (s.feed text phase tokens).2.2) := by
  -- a completed statement leaves another session, in which the tokens ahead still mean the same
  induction tokens generalizing tokens' s phase phase' with
  | nil =>
    cases same
    exact finish_on text h
  | cons token tokens ih =>
    cases same with
    | @cons _ token' _ tokens' here behind =>
    have moves := step_agree weigh s.symbols h here
    rw [feed, feed]
    dsimp only [on]
    generalize phase.step s.dialect s.registry s.symbols token = move at moves ⊢
    generalize phase'.step d' r' s.symbols token' = move' at moves ⊢
    cases moves with
    | error report =>
      rw [here.lexeme]
      rfl
    | ok moved =>
      cases moved with
      | goOn onward => exact ih weigh onward behind
      | complete write =>
        have performed := perform_on s r' d' text write
        dsimp only [on] at performed ⊢
        rw [performed]
        cases ran : s.perform text write with
        | error fault =>
          dsimp only [Except.map]
          rw [here.lexeme]
          rfl
        | ok result =>
          obtain ⟨s₁, event⟩ := result
          obtain ⟨registry, dialect, -⟩ := sameSetting_perform ran
          rw [← registry, ← dialect] at behind
          rw [← dialect] at weigh
          have rest := ih weigh (s := s₁) .start behind
          dsimp only [on, Except.map] at rest ⊢
          rw [rest]

end Twins

theorem statementText_of_sameTokens {d d' : Dialect} {r r' : Registry} {tokens tokens' : List Token}
    (same : List.Forall₂ (SameToken d d' r r') tokens tokens') :
    statementText tokens = statementText tokens' := by
  have lexemes : List.Forall₂ (· = ·) (tokens.map Token.lexeme) (tokens'.map Token.lexeme) := by
    rw [List.forall₂_map_left_iff, List.forall₂_map_right_iff]
    exact same.imp fun _ _ here => here.lexeme
  rw [List.forall₂_eq_eq_eq] at lexemes
  rw [statementText, statementText, lexemes]

/-! ### Runs -/

/-- Sessions on registries with the same keywords and operators, in the same state otherwise. -/
structure Twins (made made' : Registry) (s s' : Session) : Prop where
  started : s.MadeFrom made
  started' : s'.MadeFrom made'
  sameMade : made.SameReserved made'
  same : s.registry.SameReserved s'.registry
  on_eq : s' = s.on s'.registry s'.dialect

theorem twins_start {made made' : Registry} (reachable : made.Reachable)
    (reachable' : made'.Reachable) (same : made.SameReserved made') (symbols : SymbolTable)
    (verbose : Bool) : Twins made made' (start made symbols verbose) (start made' symbols verbose) :=
  ⟨madeFrom_start reachable symbols verbose, madeFrom_start reachable' symbols verbose, same, same, rfl⟩

section Simulation

variable {made made' : Registry} {s s' : Session} (twins : Twins made made' s s')
include twins

theorem sameToken_of_encodes {r r' : Registry} (leads : s.registry.Leads r)
    (leads' : s'.registry.Leads r') (same : r.SameReserved r') {lexeme : String}
    (here : r.Encodes lexeme (r.token lexeme)) (here' : r'.Encodes lexeme (r'.token lexeme)) :
    SameToken s.dialect s'.dialect r r' (r.token lexeme) (r'.token lexeme) := by
  obtain ⟨⟨reachable, dialect, before⟩, ⟨reachable', dialect', before'⟩, sameMade, -, -⟩ := twins
  have now := Registry.leads_trans before leads
  have now' := Registry.leads_trans before' leads'
  have coherent := Registry.coherent_of_reachable (Registry.reachable_of_leads reachable now)
  have coherent' := Registry.coherent_of_reachable (Registry.reachable_of_leads reachable' now')
  refine ⟨rfl, ?_, ?_, ?_⟩
  · rw [here.category_eq, here'.category_eq, Registry.categoryFor_congr same]
  · rw [dialect, dialect']
    exact Dialect.get?_roles_congr reachable reachable' now now' sameMade here here'
  · rw [Registry.decode_of_codeFor coherent here.codeFor_eq,
      Registry.decode_of_codeFor coherent' here'.codeFor_eq]

theorem sameTokens_of_encodeAll {lexemes : List String} (nonempty : ∀ lexeme ∈ lexemes, lexeme ≠ "")
    {tokens tokens' : List Token} {r r' : Registry}
    (encoded : s.registry.encodeAll lexemes = (.ok tokens, r))
    (encoded' : s'.registry.encodeAll lexemes = (.ok tokens', r')) :
    List.Forall₂ (SameToken s.dialect s'.dialect r r') tokens tokens' := by
  obtain ⟨leads, words⟩ := Registry.leads_encodeAll s.registry lexemes
  obtain ⟨leads', words'⟩ := Registry.leads_encodeAll s'.registry lexemes
  rw [encoded] at leads words
  rw [encoded'] at leads' words'
  obtain ⟨rfl, here⟩ := Registry.tokens_of_encodeAll nonempty encoded
  obtain ⟨rfl, here'⟩ := Registry.tokens_of_encodeAll nonempty encoded'
  have same := Registry.sameReserved_trans (Registry.sameReserved_symm words)
    (Registry.sameReserved_trans twins.same words')
  rw [List.forall₂_map_left_iff, List.forall₂_map_right_iff, List.forall₂_same]
  intro lexeme member
  exact sameToken_of_encodes twins leads leads' same (here lexeme member) (here' lexeme member)

theorem weight_of_twins (code code' : Int) : s.dialect.weight code = s'.dialect.weight code' := by
  rw [twins.started.dialect_eq, twins.started'.dialect_eq, Dialect.weight_ofRegistry,
    Dialect.weight_ofRegistry]

/-- Calls that both sessions can encode give the same and leave twins. -/
theorem execute_twins (lexemes : List String) (ok : (s.execute lexemes).1.isOk)
    (ok' : (s'.execute lexemes).1.isOk) :
    (s.execute lexemes).1 = (s'.execute lexemes).1 ∧
      (s.execute lexemes).2.2 = (s'.execute lexemes).2.2 ∧
        Twins made made' (s.execute lexemes).2.1 (s'.execute lexemes).2.1 := by
  obtain ⟨-, words, -, -⟩ := setting_of_execute s lexemes
  obtain ⟨-, words', -, -⟩ := setting_of_execute s' lexemes
  have left := Registry.sameReserved_trans (Registry.sameReserved_symm words)
    (Registry.sameReserved_trans twins.same words')
  have again := Twins.mk (madeFrom_execute twins.started lexemes)
    (madeFrom_execute twins.started' lexemes) twins.sameMade left
  have nonempty := @ne_empty_of_mem_filter lexemes
  rcases execute_cases s lexemes with ⟨e, r, -, result⟩ | ⟨r, encoded, result⟩ |
    ⟨tokens, r, encoded, some, result⟩
  · rw [result] at ok
    cases ok
  all_goals
    rcases execute_cases s' lexemes with ⟨e, r', -, result'⟩ | ⟨r', encoded', result'⟩ |
      ⟨tokens', r', encoded', some', result'⟩
    · rw [result'] at ok'
      cases ok'
    all_goals have same := sameTokens_of_encodeAll twins nonempty encoded encoded'
  · rw [result, result'] at again ⊢
    exact ⟨rfl, rfl, again (by rw [twins.on_eq]; rfl)⟩
  · cases same
    exact absurd rfl some'
  · cases same
    exact absurd rfl some
  · have weigh := weight_of_twins twins
    have fed := feed_on (s := { s with registry := r }) (statementText tokens) weigh .start same
    have setting : { s' with registry := r' } = on { s with registry := r } r' s'.dialect := by
      rw [twins.on_eq]
      rfl
    rw [setting, ← statementText_of_sameTokens same, fed] at result'
    rw [result, result'] at again ⊢
    exact ⟨rfl, rfl, again rfl⟩

end Simulation

theorem executeAll_twins {made made' : Registry} {s s' : Session} (twins : Twins made made' s s')
    (calls : List (List String)) (ok : ∀ result ∈ (s.executeAll calls).1, result.1.isOk)
    (ok' : ∀ result ∈ (s'.executeAll calls).1, result.1.isOk) :
    (s.executeAll calls).1 = (s'.executeAll calls).1 ∧
      Twins made made' (s.executeAll calls).2 (s'.executeAll calls).2 := by
  induction calls generalizing s s' with
  | nil => exact ⟨rfl, twins⟩
  | cons lexemes calls ih =>
    simp only [executeAll, List.forall_mem_cons] at ok ok' ⊢
    obtain ⟨same, events, onward⟩ := execute_twins twins lexemes ok.1 ok'.1
    obtain ⟨results, final⟩ := ih onward ok.2 ok'.2
    exact ⟨by rw [same, events, results], final⟩

/-- Two registries with the same keywords and the same operators run every sequence of calls alike, as
long as they do not run out of codes. -/
theorem executeAll_eq_of_sameReserved {made made' : Registry} (reachable : made.Reachable)
    (reachable' : made'.Reachable) (same : made.SameReserved made') (symbols : SymbolTable)
    (verbose : Bool) (calls : List (List String))
    (ok : ∀ result ∈ ((start made symbols verbose).executeAll calls).1, result.1.isOk)
    (ok' : ∀ result ∈ ((start made' symbols verbose).executeAll calls).1, result.1.isOk) :
    ((start made symbols verbose).executeAll calls).1 =
        ((start made' symbols verbose).executeAll calls).1 ∧
      ((start made symbols verbose).executeAll calls).2.symbols =
          ((start made' symbols verbose).executeAll calls).2.symbols ∧
        ((start made symbols verbose).executeAll calls).2.journal =
          ((start made' symbols verbose).executeAll calls).2.journal := by
  obtain ⟨results, final⟩ :=
    executeAll_twins (twins_start reachable reachable' same symbols verbose) calls ok ok'
  have state := final.on_eq
  exact ⟨results, (congrArg Session.symbols state).symm, (congrArg Session.journal state).symm⟩

/-- The standard vocabulary in another order and on other ranges, with codes given out in between. -/
def shuffled : Registry :=
  [Registry.Operation.encode "x", .registerOperators (List.reverse Registry.standardOperators),
    .registerKeywords ["int", "int"], .encode "9",
    .registerKeywords (List.reverse Registry.standardKeywords)].foldl Registry.perform
    (.empty ⟨{ first := -3, last := 30 }, { first := 10, last := 40 }, { first := -60, last := 40 },
      { first := -30, last := 25 }⟩)

theorem executeAll_shuffled :
    ((start Registry.vocabulary .empty true).executeAll
        [["int", "x", "=", "7", "/", "2", ";"], ["y", "=", "x", "+", "1", ";"]]).1 =
      ((start shuffled .empty true).executeAll
        [["int", "x", "=", "7", "/", "2", ";"], ["y", "=", "x", "+", "1", ";"]]).1 :=
  (executeAll_eq_of_sameReserved Registry.reachable_vocabulary ⟨_, _, rfl⟩ (by decide +kernel) .empty
    true _ (by decide +kernel) (by decide +kernel)).1

end Session

end LineLang
