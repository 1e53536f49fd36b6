import LineLang.Proofs.Expression.Waiting
import LineLang.Proofs.Registry.Standard
import LineLang.Proofs.Session.Draft

/-!
# What is known of an unfinished statement

`drafts_hold`: whatever tokens are read, a draft has the name and the type that its stage needs, and outside
of an expression nothing is pending in it. So no statement is completed without its name, and no operator
turns out to be unsupported.
-/

namespace LineLang

namespace Draft
open Stacks (Supported supported_bind supported_error supported_ok)

/-- The name is that of a token that has been read. -/
def Named (made : Registry) (tokens : List Token) (name : Option String) : Prop :=
  ∃ token ∈ tokens, (Dialect.ofRegistry made).classify token = .name ∧ name = some token.lexeme

/-- A draft has what its stage needs, and nothing is pending but in an expression. -/
structure Valid (made r : Registry) (tokens : List Token) (c : Draft) : Prop where
  fresh : c.stage = .start → c = {}
  typed : c.stage = .afterType ∨ c.stage = .afterDeclared ∨ c.stage = .expression ∧ c.declares = true →
    c.type = some .int ∨ c.type = some .string
  named : c.stage = .afterDeclared ∨ c.stage = .afterName ∨ c.stage = .expression →
    Named made tokens c.name
  assigns : c.stage = .afterName → c.declares = false
  idle : c.stage ≠ .expression → c.pending = {}
  pending : c.pending.Valid made r

variable {made r : Registry} {c : Draft} {tokens : List Token}

theorem named_token {token : Token} (h : (Dialect.ofRegistry made).classify token = .name) :
    Named made (tokens ++ [token]) (some token.lexeme) :=
  ⟨token, by simp, h, rfl⟩

theorem named_append {name : Option String} (h : Named made tokens name) (more : List Token) :
    Named made (tokens ++ more) name := by
  obtain ⟨token, member, named⟩ := h
  exact ⟨token, List.mem_append_left _ member, named⟩

theorem valid_fresh (made r : Registry) (tokens : List Token) : Valid made r tokens {} where
  fresh _ := rfl
  typed := by simp
  named := by simp
  assigns := nofun
  idle _ := rfl
  pending := Stacks.valid_empty made r

theorem valid_afterType (made r : Registry) (tokens : List Token) {ty : Ty}
    (native : ty = .int ∨ ty = .string) :
    Valid made r tokens { stage := .afterType, type := some ty, declares := true } where
  fresh := nofun
  typed _ := native.imp (congrArg some) (congrArg some)
  named := by simp
  assigns := nofun
  idle _ := rfl
  pending := Stacks.valid_empty made r

theorem valid_afterName {name : Option String} (named : Named made tokens name) :
    Valid made r tokens { stage := .afterName, name } where
  fresh := nofun
  typed := by simp
  named _ := named
  assigns _ := rfl
  idle _ := rfl
  pending := Stacks.valid_empty made r

theorem valid_afterDeclared (typed : c.type = some .int ∨ c.type = some .string)
    (named : Named made tokens c.name) (idle : c.pending = {}) :
    Valid made r tokens { c with stage := .afterDeclared } where
  fresh := nofun
  typed _ := typed
  named _ := named
  assigns := nofun
  idle _ := idle
  pending := by
    rw [idle]
    exact Stacks.valid_empty made r

theorem valid_expression (typed : c.declares = true → c.type = some .int ∨ c.type = some .string)
    (named : Named made tokens c.name) {pending : Stacks} (valid : pending.Valid made r) :
    Valid made r tokens { c with stage := .expression, pending } where
  fresh := nofun
  typed := by simpa using typed
  named _ := named
  assigns := nofun
  idle := by simp
  pending := valid

/-- What is known of a draft is known of it after each token. -/
theorem valid_step (reachable : made.Reachable) (leads : made.Leads r) (valid : c.Valid made r tokens)
    {t : SymbolTable} {token : Token} {next : Draft}
    (h : c.step (.ofRegistry made) r t token = .ok (.goOn next)) :
    next.Valid made r (tokens ++ [token]) := by
  cases stage : c.stage with
  | start =>
    obtain rfl := valid.fresh stage
    simp only [step] at h
    split at h
    · cases h
      exact valid_afterType made r _ (.inl rfl)
    · cases h
      exact valid_afterType made r _ (.inr rfl)
    · rename_i name
      cases h
      exact valid_afterName (named_token name)
    · cases h
      exact valid_fresh made r _
    · cases h
  | afterType =>
    simp only [step, stage] at h
    split at h
    · rename_i name
      cases h
      exact valid_afterDeclared (c := { c with name := some token.lexeme }) (valid.typed (.inl stage))
        (named_token name) (valid.idle (by simp [stage]))
    · cases h
  | afterDeclared =>
    have typed := valid.typed (.inr (.inl stage))
    have named := named_append (valid.named (.inl stage)) [token]
    simp only [step, stage] at h
    split at h <;> cases h
    exact valid_expression (c := { c with declares := true }) (fun _ => typed) named
      (Stacks.valid_empty made r)
  | afterName =>
    have named := named_append (valid.named (.inr (.inl stage))) [token]
    have untyped : c.declares = true → c.type = some .int ∨ c.type = some .string := by
      simp [valid.assigns stage]
    simp only [step, stage] at h
    split at h <;> cases h
    exact valid_expression untyped named (Stacks.valid_empty made r)
  | expression =>
    have typed := fun declares => valid.typed (.inr (.inr ⟨stage, declares⟩))
    have named := named_append (valid.named (.inr (.inr stage))) [token]
    simp only [step, stage] at h
    split at h
    · obtain ⟨value, -, same⟩ := bind_eq_ok h
      cases same
    · obtain ⟨pending, read, same⟩ := bind_eq_ok h
      cases same
      exact valid_expression typed named (Stacks.valid_read reachable leads valid.pending read)

theorem isSome_write (valid : c.Valid made r tokens) (stage : c.stage = .expression) (value : Value) :
    (c.write value).isSome := by
  obtain ⟨token, -, -, named⟩ := valid.named (.inr (.inr stage))
  unfold write
  split
  · rename_i declares
    rcases valid.typed (.inr (.inr ⟨stage, declares⟩)) with typed | typed
    all_goals
      rw [typed, named]
      rfl
  · rw [named]
    rfl

/-- A statement that is completed has its name, and its type if it declares the name. -/
theorem isSome_of_commit (valid : c.Valid made r tokens) {d : Dialect} {t : SymbolTable} {token : Token}
    {write : Option Write} (h : c.step d r t token = .ok (.commit write)) : write.isSome := by
  cases stage : c.stage with
  | start | afterType | afterName =>
    simp only [step, stage] at h
    split at h <;> cases h
  | afterDeclared =>
    simp only [step, stage] at h
    split at h <;> cases h
    obtain ⟨token, -, -, named⟩ := valid.named (.inl stage)
    rcases valid.typed (.inr (.inl stage)) with typed | typed
    all_goals
      rw [declaration, typed, named]
      rfl
  | expression =>
    simp only [step, stage] at h
    split at h
    · obtain ⟨value, -, same⟩ := bind_eq_ok h
      cases same
      exact isSome_write valid stage value
    · obtain ⟨pending, -, same⟩ := bind_eq_ok h
      cases same

theorem isSome_of_atEnd (valid : c.Valid made r tokens) {d : Dialect} {write : Option Write}
    (h : c.atEnd d r = .ok (.commit write)) : write.isSome := by
  unfold atEnd at h
  split at h
  · cases h
  · rename_i some
    obtain ⟨value, -, same⟩ := bind_eq_ok h
    cases same
    have stage : c.stage = .expression := by
      by_contra other
      rw [valid.idle other] at some
      exact some rfl
    exact isSome_write valid stage value

theorem valid_reads {text : String} {s s' : Session} {c c' : Draft} {tokens : List Token}
    (h : s.MadeFrom made) (reads : Reads text s c tokens s' c') {front : List Token}
    (valid : c.Valid made s.registry front) :
    s'.MadeFrom made ∧ c'.Valid made s'.registry (front ++ tokens) := by
  induction reads generalizing front with
  | nil => exact ⟨h, (List.append_nil front).symm ▸ valid⟩
  | @goOn s s' c next c' token tokens step _ ih =>
    rw [h.dialect_eq] at step
    have behind := ih h (valid_step h.reachable h.leads valid step)
    rwa [List.append_assoc] at behind
  | @commit s s₁ s' c c' token tokens write event step performed _ ih =>
    have same := Session.sameSetting_perform performed
    have made' : s₁.MadeFrom made :=
      ⟨h.reachable, same.dialect_eq.trans h.dialect_eq, same.registry_eq ▸ h.leads⟩
    have behind := ih made' (valid_fresh made s₁.registry (front ++ [token]))
    rwa [List.append_assoc] at behind

/-! ### Faults of a draft -/

theorem supported_step (coherent : made.Coherent) (valid : c.Valid made r tokens) (t : SymbolTable)
    (token : Token) : Supported (c.step (.ofRegistry made) r t token) := by
  have once := Stacks.appliesOnce_of_valid coherent valid.pending
  unfold step
  dsimp only
  split
  case h_5 =>
    split
    · exact supported_bind (Stacks.supported_finish once) fun _ => supported_ok _
    · exact supported_bind (Stacks.supported_read once t _ token) fun _ => supported_ok _
  all_goals
    split
    all_goals first
      | exact supported_ok _
      | exact supported_error (by decide)

theorem supported_atEnd (coherent : made.Coherent) (valid : c.Valid made r tokens) :
    Supported (c.atEnd (.ofRegistry made) r) := by
  unfold atEnd
  split
  · exact supported_ok _
  · exact supported_bind
      (Stacks.supported_finish (Stacks.appliesOnce_of_valid coherent valid.pending))
      fun _ => supported_ok _

end Draft

/-- The fault that a call reports, if it reports one. -/
def Outcome.report? : Outcome → Option Report
  | .rejected report | .incomplete (some report) => some report
  | .accepted | .incomplete none => none

theorem rule_of_run {t : SymbolTable} {write : Write} {fault : Fault}
    (h : write.run t = .error fault) : fault.rule ≠ "APPLY" := by
  cases write with
  | declare ty name =>
    simp only [Write.run, SymbolTable.declare] at h
    split at h <;> cases h
    simp [Fault.rule]
  | initialise ty name value =>
    simp only [Write.run, SymbolTable.declare] at h
    split at h
    · split at h <;> cases h
      simp [Fault.rule]
    · cases h
      simp [Fault.rule]
  | assign name value =>
    simp only [Write.run, SymbolTable.assign] at h
    split at h
    · cases h
      simp [Fault.rule]
    · split at h <;> cases h
      simp [Fault.rule]

namespace Session

theorem run_of_perform_error {s : Session} {text : String} {write : Write} {fault : Fault}
    (h : s.perform text write = .error fault) : write.run s.symbols = .error fault := by
  rcases perform_cases s text write with ⟨fault', ran, failed⟩ | ⟨_, _, -, performed⟩
  · rw [failed] at h
    cases h
    exact ran
  · rw [performed] at h
    cases h

theorem rule_of_finish {made : Registry} {s : Session} (h : s.MadeFrom made) (text : String)
    {phase : Phase} {tokens : List Token} (valid : phase.draft.Valid made s.registry tokens) :
    ∀ report ∈ (s.finish text phase).1.report?, report.fault.rule ≠ "APPLY" := by
  have coherent := Registry.coherent_of_reachable h.reachable
  have ends := Draft.supported_atEnd coherent valid
  rw [finish_draft, h.dialect_eq]
  split
  · rename_i report failed
    rintro _ ⟨rfl⟩
    exact ends report failed
  · nofun
  · nofun
  · split
    · rename_i fault failed
      rintro _ ⟨rfl⟩
      exact rule_of_run (run_of_perform_error failed)
    · nofun

theorem rule_of_faults {made : Registry} {s : Session} (h : s.MadeFrom made) {phase : Phase}
    {tokens : List Token} (valid : phase.draft.Valid made s.registry tokens) {token : Token}
    {fault : Fault} {lexeme : String} (faults : s.Faults phase token fault lexeme) :
    fault.rule ≠ "APPLY" := by
  cases faults with
  | @step report failed =>
    rw [h.dialect_eq] at failed
    refine Draft.supported_step (Registry.coherent_of_reachable h.reachable) valid s.symbols token report ?_
    rw [step_draft, failed]
    rfl
  | write _ failed => exact rule_of_run failed

theorem rule_of_feed {made : Registry} {s : Session} (h : s.MadeFrom made) (text : String)
    (tokens : List Token) :
    ∀ report ∈ (s.feed text .start tokens).1.report?, report.fault.rule ≠ "APPLY" := by
  have fresh := Draft.valid_fresh made s.registry []
  rcases reads_or_faults text s .start tokens with ⟨events, s', phase', reads⟩ |
    ⟨before, token, behind, events, s', phase', fault, lexeme, rfl, reads, faults⟩
  · obtain ⟨made', valid⟩ := Draft.valid_reads h (reads_draft reads) fresh
    have fed := feed_of_reads reads []
    rw [List.append_nil] at fed
    rw [fed]
    exact rule_of_finish made' text valid
  · obtain ⟨made', valid⟩ := Draft.valid_reads h (reads_draft reads) fresh
    rw [feed_of_reads reads, feed_of_faults text faults]
    rintro _ ⟨rfl⟩
    exact rule_of_faults made' valid faults

/-- No call finds an operator that has no meaning. -/
theorem rule_of_execute {made : Registry} {s : Session} (h : s.MadeFrom made) {lexemes : List String}
    {outcome : Outcome} (ran : (s.execute lexemes).1 = .ok outcome) :
    ∀ report ∈ outcome.report?, report.fault.rule ≠ "APPLY" := by
  rcases execute_cases s lexemes with ⟨e, r, -, result⟩ | ⟨r, -, result⟩ |
    ⟨tokens, r, encoded, -, result⟩
  · rw [result] at ran
    cases ran
  · rw [result] at ran
    cases ran
    rintro _ ⟨rfl⟩
    decide
  · rw [result] at ran
    cases ran
    have leads := (Registry.leads_encodeAll s.registry (lexemes.filter (· ≠ ""))).1
    rw [encoded] at leads
    have made' : MadeFrom made { s with registry := r } :=
      ⟨h.reachable, h.dialect_eq, Registry.leads_trans h.leads leads⟩
    exact rule_of_feed made' _ tokens

/-- After any tokens that are read without a fault, a draft has what its stage needs and completes no
statement that lacks its name or its type; a token applies the operator on top of its stacks at most, and a
parenthesis never. The drafts are the phases of the session, and no call finds an operator unsupported. -/
theorem drafts_hold {made : Registry} {s : Session} (h : s.MadeFrom made) :
    (∀ text tokens s' c, Draft.Reads text s {} tokens s' c ↔
      ∃ events phase, Reads text s .start tokens events s' phase ∧ phase.draft = c) ∧
    (∀ text tokens s' c, Draft.Reads text s {} tokens s' c →
      c.Valid made s'.registry tokens ∧ c.pending.AppliesOnce s'.dialect s'.registry ∧
        (∀ token write, c.step s'.dialect s'.registry s'.symbols token = .ok (.commit write) →
          write.isSome) ∧
        ∀ write, c.atEnd s'.dialect s'.registry = .ok (.commit write) → write.isSome) ∧
    ∀ lexemes outcome, (s.execute lexemes).1 = .ok outcome →
      ∀ report ∈ outcome.report?, report.fault.rule ≠ "APPLY" := by
  refine ⟨fun _ _ _ _ => reads_draft_iff, ?_, fun lexemes outcome ran => rule_of_execute h ran⟩
  intro text tokens s' c reads
  obtain ⟨made', valid⟩ := Draft.valid_reads h reads (Draft.valid_fresh made s.registry [])
  have once := Stacks.appliesOnce_of_valid (Registry.coherent_of_reachable made'.reachable) valid.pending
  rw [← made'.dialect_eq] at once
  exact ⟨valid, once, fun _ _ => Draft.isSome_of_commit valid, fun _ => Draft.isSome_of_atEnd valid⟩

/-- Behind `2 * ( 3 +` an operator waits on each side of the parenthesis. -/
theorem drafts_hold_parenthesis :
    let words := ["int", "x", "=", "2", "*", "(", "3", "+"]
    let tokens : List Token :=
      [⟨"int", some .keyword, 100⟩, ⟨"x", some .symbol, 300⟩, ⟨"=", some .operator, 204⟩,
        ⟨"2", some .literal, 700⟩, ⟨"*", some .operator, 202⟩, ⟨"(", some .operator, 206⟩,
        ⟨"3", some .literal, 701⟩, ⟨"+", some .operator, 200⟩]
    let r := (Registry.vocabulary.encodeAll words).2
    let s : Session := { start Registry.vocabulary .empty false with registry := r }
    words.map r.token = tokens ∧ ∃ c, Draft.Reads (statementText tokens) s {} tokens s c ∧
      c.pending.operands = [.int 3, .int 2] ∧ c.pending.operators = [200, 206, 202] ∧
      c.Valid Registry.vocabulary r tokens := by
  intro words tokens r s
  have holds := drafts_hold (s := s)
    ⟨Registry.reachable_vocabulary, rfl, (Registry.leads_encodeAll _ words).1⟩
  have reads : Draft.Reads (statementText tokens) s {} tokens s _ :=
    .goOn rfl (.goOn rfl (.goOn rfl (.goOn rfl (.goOn rfl (.goOn rfl (.goOn rfl (.goOn rfl
      (.nil s _))))))))
  exact ⟨by decide +kernel, _, reads, by decide +kernel, by decide +kernel, (holds.2.1 _ _ _ _ reads).1⟩

end Session

end LineLang
