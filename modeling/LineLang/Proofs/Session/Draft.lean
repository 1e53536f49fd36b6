import LineLang.Proofs.Effect
import LineLang.Proofs.Session.Reading

/-!
# Drafts

A phase comes with the type and the name that it needs. A draft has them side by side, and any of them may
be missing: a statement that is completed may then turn out to be none. Both are read in lockstep
(`step_draft`), so that the drafts that are reached are the phases of a session (`reads_draft_iff`).
-/

namespace LineLang

inductive Stage where
  | start
  | afterType
  | afterDeclared
  | afterName
  | expression
  deriving DecidableEq, Repr

/-- What has been read of a statement. -/
structure Draft where
  stage : Stage := .start
  type : Option Ty := none
  name : Option String := none
  declares : Bool := false
  pending : Stacks := {}

namespace Draft

/-- What a token does to a draft. A statement that lacks its name or its type is none. -/
inductive Next where
  | goOn (draft : Draft)
  | commit (write : Option Write)

/-- The declaration without a value. -/
def declaration (c : Draft) : Option Write := do return .declare (← c.type) (← c.name)

/-- The statement that gives a value to the name. -/
def write (c : Draft) (value : Value) : Option Write :=
  if c.declares then do return .initialise (← c.type) (← c.name) value
  else do return .assign (← c.name) value

/-- Reads a token of a statement. -/
def step (d : Dialect) (r : Registry) (t : SymbolTable) (c : Draft) (token : Token) :
    Except Report Next :=
  let role := d.classify token
  match c.stage with
  | .start =>
    match role with
    | .intType => .ok (.goOn { c with stage := .afterType, type := some .int, declares := true })
    | .stringType => .ok (.goOn { c with stage := .afterType, type := some .string, declares := true })
    | .name => .ok (.goOn { c with stage := .afterName, name := some token.lexeme, declares := false })
    | .semicolon => .ok (.goOn c)
    | _ => .error Fault.expectedStatement.report
  | .afterType =>
    match role with
    | .name => .ok (.goOn { c with stage := .afterDeclared, name := some token.lexeme })
    | _ => .error Fault.expectedName.report
  | .afterDeclared =>
    match role with
    | .semicolon => .ok (.commit c.declaration)
    | .equals => .ok (.goOn { c with stage := .expression, declares := true, pending := {} })
    | _ => .error Fault.expectedValueOrEnd.report
  | .afterName =>
    match role with
    | .equals => .ok (.goOn { c with stage := .expression, pending := {} })
    | _ => .error Fault.expectedEquals.report
  | .expression =>
    match role with
    | .semicolon => do return .commit (c.write (← c.pending.finish d r))
    | _ => do return .goOn { c with pending := ← c.pending.read d r t role token }

/-- What is pending behind the last token of a call is completed without its semicolon. -/
def atEnd (d : Dialect) (r : Registry) (c : Draft) : Except Report Next :=
  if c.pending.isEmpty then .ok (.goOn c) else do return .commit (c.write (← c.pending.finish d r))

/-- Tokens that are read without a fault. A completed statement is carried out, and a new draft begins. -/
inductive Reads (text : String) : Session → Draft → List Token → Session → Draft → Prop where
  | nil (s : Session) (c : Draft) : Reads text s c [] s c
  | goOn {s s' : Session} {c next c' : Draft} {token : Token} {tokens : List Token} :
      c.step s.dialect s.registry s.symbols token = .ok (.goOn next) →
        Reads text s next tokens s' c' → Reads text s c (token :: tokens) s' c'
  | commit {s s₁ s' : Session} {c c' : Draft} {token : Token} {tokens : List Token} {write : Write}
      {event : Event} :
      c.step s.dialect s.registry s.symbols token = .ok (.commit (some write)) →
        s.perform text write = .ok (s₁, event) → Reads text s₁ {} tokens s' c' →
          Reads text s c (token :: tokens) s' c'

end Draft

/-! ### Lockstep -/

def Phase.draft : Phase → Draft
  | .start => {}
  | .afterType ty => { stage := .afterType, type := some ty, declares := true }
  | .afterDeclared ty name =>
    { stage := .afterDeclared, type := some ty, name := some name, declares := true }
  | .afterName name => { stage := .afterName, name := some name }
  | .expression (.declaration ty name) pending =>
    { stage := .expression, type := some ty, name := some name, declares := true, pending }
  | .expression (.assignment name) pending => { stage := .expression, name := some name, pending }

def Move.draft : Move → Draft.Next
  | .goOn phase => .goOn phase.draft
  | .complete write => .commit (some write)

theorem step_draft (d : Dialect) (r : Registry) (t : SymbolTable) (phase : Phase) (token : Token) :
    phase.draft.step d r t token = (phase.step d r t token).map Move.draft := by
  cases phase with
  | start | afterType | afterDeclared | afterName =>
    simp only [Phase.draft, Draft.step, Phase.step]
    cases d.classify token <;> rfl
  | expression target pending =>
    cases target with
    | declaration | assignment =>
      simp only [Phase.draft, Draft.step, Phase.step]
      cases d.classify token with
      | semicolon => cases pending.finish d r <;> rfl
      | _ => cases pending.read d r t _ token <;> rfl

theorem atEnd_expression (d : Dialect) (r : Registry) (target : Target) (pending : Stacks) :
    (Phase.expression target pending).draft.atEnd d r =
      if pending.isEmpty then .ok (.goOn (Phase.expression target pending).draft)
      else do return .commit (some (target.write (← pending.finish d r))) := by
  cases target <;> rfl

namespace Session

/-- Ends a call behind its last token, with a fault in what is pending. -/
def unterminated (s : Session) (text : String) (report : Report) : Outcome × Session × List Event :=
  (.incomplete (some report), s.note text (.unterminated report.fault), [.unterminated report.fault])

theorem finish_draft (s : Session) (text : String) (phase : Phase) :
    s.finish text phase =
      match phase.draft.atEnd s.dialect s.registry with
      | .error report => s.unterminated text report
      | .ok (.goOn _) | .ok (.commit none) => (.accepted, s, [])
      | .ok (.commit (some write)) =>
        match s.perform text write with
        | .error fault => s.unterminated text fault.report
        | .ok (s, event) => (.incomplete none, s, [event]) := by
  cases phase with
  | start | afterType | afterDeclared | afterName => rfl
  | expression target pending =>
    rw [atEnd_expression, finish]
    by_cases empty : pending.isEmpty = true
    · rw [if_pos empty, if_pos empty]
    · rw [if_neg empty, if_neg empty]
      cases pending.finish s.dialect s.registry <;> rfl

/-- Drafts are read as the phases are. -/
theorem reads_draft {text : String} {s s' : Session} {phase phase' : Phase} {tokens : List Token}
    {events : List Event} (h : Reads text s phase tokens events s' phase') :
    Draft.Reads text s phase.draft tokens s' phase'.draft := by
  induction h with
  | nil s phase => exact .nil s phase.draft
  | goOn step _ ih => exact .goOn (by rw [step_draft, step]; rfl) ih
  | complete step performed _ ih => exact .commit (by rw [step_draft, step]; rfl) performed ih

theorem exists_reads_of_draft {text : String} {s s' : Session} {c c' : Draft} {tokens : List Token}
    (h : Draft.Reads text s c tokens s' c') {phase : Phase} (same : phase.draft = c) :
    ∃ events phase', Reads text s phase tokens events s' phase' ∧ phase'.draft = c' := by
  induction h generalizing phase with
  | nil s => exact ⟨[], phase, .nil s phase, same⟩
  | goOn step _ ih =>
    subst same
    rw [step_draft] at step
    obtain ⟨move, moves, made⟩ := map_eq_ok step
    cases move with
    | complete => cases made
    | goOn next =>
      obtain ⟨events, phase', reads, same⟩ := ih (Draft.Next.goOn.inj made)
      exact ⟨events, phase', .goOn moves reads, same⟩
  | commit step performed _ ih =>
    subst same
    rw [step_draft] at step
    obtain ⟨move, moves, made⟩ := map_eq_ok step
    cases move with
    | goOn => cases made
    | complete write =>
      obtain rfl := Option.some.inj (Draft.Next.commit.inj made)
      obtain ⟨events, phase', reads, same⟩ := ih (show Phase.start.draft = {} from rfl)
      exact ⟨_, phase', .complete moves performed reads, same⟩

/-- The drafts that tokens lead to are the phases that they lead to. -/
theorem reads_draft_iff {text : String} {s s' : Session} {tokens : List Token} {c : Draft} :
    Draft.Reads text s {} tokens s' c ↔
      ∃ events phase, Reads text s .start tokens events s' phase ∧ phase.draft = c := by
  constructor
  · intro reads
    exact exists_reads_of_draft reads (show Phase.start.draft = {} from rfl)
  · rintro ⟨events, phase, reads, rfl⟩
    exact reads_draft reads

end Session

end LineLang
