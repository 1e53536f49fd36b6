import LineLang.Proofs.Dialect
import LineLang.Session

/-!
# Runs of a session

A session that was started on a registry, the role that it gives to a lexeme, and its calls one
after the other.
-/

namespace LineLang.Session
open Dialect (HasRole)

/-- The session was started on the registry `made`; whatever was run, registered or encoded since. -/
structure MadeFrom (made : Registry) (s : Session) : Prop where
  reachable : made.Reachable
  dialect_eq : s.dialect = .ofRegistry made
  leads : made.Leads s.registry

theorem madeFrom_start {made : Registry} (h : made.Reachable) (symbols : SymbolTable)
    (verbose : Bool) : (start made symbols verbose).MadeFrom made :=
  ⟨h, rfl, Registry.leads_refl made⟩

def roleOf (s : Session) (lexeme : String) : Option Role :=
  match s.registry.encode lexeme with
  | (.ok token, _) => some (s.dialect.classify token)
  | (.error _, _) => none

/-- What the calls of a run give and emit, and the session they end in. -/
def executeAll (s : Session) :
    List (List String) → List (Except RegistryError Outcome × List Event) × Session
  | [] => ([], s)
  | lexemes :: calls =>
    let (result, s, events) := s.execute lexemes
    let (results, s) := s.executeAll calls
    ((result, events) :: results, s)

/-- What can happen to a session: a call, or an operation on its registry. -/
inductive Activity where
  | call (lexemes : List String)
  | registry (operation : Registry.Operation)
  deriving DecidableEq, Repr

/-- What an activity prints, and the session it leaves. -/
def act (s : Session) : Activity → List Event × Session
  | .call lexemes => ((s.execute lexemes).2.2, (s.execute lexemes).2.1)
  | .registry operation => ([], { s with registry := s.registry.perform operation })

/-- What activities print one after the other, and the session they end in. -/
def actAll (s : Session) : List Activity → List Event × Session
  | [] => ([], s)
  | activity :: activities =>
    let (events, s) := s.act activity
    let (others, s) := s.actAll activities
    (events ++ others, s)

theorem ne_empty_of_mem_filter {lexemes : List String} :
    ∀ lexeme ∈ lexemes.filter (· ≠ ""), lexeme ≠ "" := by simp

theorem filter_ne_nil {lexemes : List String} (any : ∃ lexeme ∈ lexemes, lexeme ≠ "") :
    lexemes.filter (· ≠ "") ≠ [] := by
  obtain ⟨lexeme, member, some⟩ := any
  exact List.ne_nil_of_mem (List.mem_filter.2 ⟨member, by simpa using some⟩)

/-- A call fails to encode, is empty, or feeds its tokens to the session. -/
theorem execute_cases (s : Session) (lexemes : List String) :
    (∃ e r, s.registry.encodeAll (lexemes.filter (· ≠ "")) = (.error e, r) ∧
        s.execute lexemes = (.error e, { s with registry := r }, [])) ∨
      (∃ r, s.registry.encodeAll (lexemes.filter (· ≠ "")) = (.ok [], r) ∧ s.execute lexemes =
          (.ok (.rejected Fault.emptyStatement.report), { s with registry := r }, [])) ∨
        ∃ tokens r, s.registry.encodeAll (lexemes.filter (· ≠ "")) = (.ok tokens, r) ∧ tokens ≠ [] ∧
          s.execute lexemes =
            (.ok (feed { s with registry := r } (statementText tokens) .start tokens).1,
              (feed { s with registry := r } (statementText tokens) .start tokens).2) := by
  unfold execute
  rcases s.registry.encodeAll (lexemes.filter (· ≠ "")) with ⟨e | tokens, r⟩
  · exact .inl ⟨e, r, rfl, rfl⟩
  cases tokens with
  | nil => exact .inr (.inl ⟨r, rfl, rfl⟩)
  | cons token tokens => exact .inr (.inr ⟨token :: tokens, r, rfl, by simp, rfl⟩)

theorem execute_of_encodeAll {s : Session} {lexemes : List String} {tokens : List Token}
    {r : Registry} (nonempty : ∀ lexeme ∈ lexemes, lexeme ≠ "") (some : lexemes ≠ [])
    (encoded : s.registry.encodeAll lexemes = (.ok tokens, r)) :
    s.execute lexemes =
      (.ok (feed { s with registry := r } (statementText tokens) .start tokens).1,
        (feed { s with registry := r } (statementText tokens) .start tokens).2) := by
  have kept : lexemes.filter (· ≠ "") = lexemes :=
    List.filter_eq_self.2 fun lexeme member => by simpa using nonempty lexeme member
  have length := congrArg List.length (Registry.tokens_of_encodeAll nonempty encoded).1
  rcases execute_cases s lexemes with ⟨e, r', failed, -⟩ | ⟨r', none, -⟩ | ⟨_, r', fed, -, result⟩
  · rw [kept, encoded] at failed
    cases failed
  · rw [kept, encoded] at none
    cases none
    exact absurd (List.length_eq_zero_iff.1 ((List.length_map _).symm.trans length.symm)) some
  · rw [kept, encoded] at fed
    cases fed
    exact result

/-! ### What statements leave alone -/

structure SameSetting (s s' : Session) : Prop where
  registry_eq : s'.registry = s.registry
  dialect_eq : s'.dialect = s.dialect
  verbose_eq : s'.verbose = s.verbose

theorem sameSetting_trans {s₁ s₂ s₃ : Session} (h₁ : SameSetting s₁ s₂) (h₂ : SameSetting s₂ s₃) :
    SameSetting s₁ s₃ :=
  ⟨h₂.registry_eq.trans h₁.registry_eq, h₂.dialect_eq.trans h₁.dialect_eq,
    h₂.verbose_eq.trans h₁.verbose_eq⟩

theorem perform_cases (s : Session) (text : String) (write : Write) :
    (∃ fault, write.run s.symbols = .error fault ∧ s.perform text write = .error fault) ∨
      ∃ symbols event, write.run s.symbols = .ok (symbols, event) ∧
        s.perform text write = .ok (note { s with symbols } text event, event) := by
  unfold perform
  cases write.run s.symbols with
  | error fault => exact .inl ⟨fault, rfl, rfl⟩
  | ok result => exact .inr ⟨result.1, result.2, rfl, rfl⟩

theorem perform_eq_ok {s s' : Session} {text : String} {write : Write} {event : Event}
    (h : s.perform text write = .ok (s', event)) :
    ∃ symbols, write.run s.symbols = .ok (symbols, event) ∧ s' = note { s with symbols } text event := by
  rcases perform_cases s text write with ⟨fault, -, failed⟩ | ⟨symbols, done, ran, performed⟩
  · rw [failed] at h
    cases h
  · rw [performed] at h
    cases h
    exact ⟨symbols, ran, rfl⟩

theorem sameSetting_perform {s s' : Session} {text : String} {write : Write} {event : Event}
    (h : s.perform text write = .ok (s', event)) : SameSetting s s' := by
  obtain ⟨symbols, -, rfl⟩ := perform_eq_ok h
  exact ⟨rfl, rfl, rfl⟩

/-! ### The course of a call -/

/-- What a call can do: it carries out statements, and then it stops, reports a fault, or carries out a last
one that lacks its semicolon. -/
inductive Course (text : String) : Session → Outcome → Session → List Event → Prop where
  | accepted (s : Session) : Course text s .accepted s []
  | rejected (s : Session) (fault : Fault) (lexeme : String) :
      Course text s (.rejected ⟨fault, some lexeme⟩) (s.note text (.rejected fault lexeme))
        [.rejected fault lexeme]
  | unterminated (s : Session) (report : Report) :
      Course text s (.incomplete (some report)) (s.note text (.unterminated report.fault))
        [.unterminated report.fault]
  | last {s s' : Session} {write : Write} {event : Event} :
      s.perform text write = .ok (s', event) → Course text s (.incomplete none) s' [event]
  | statement {s s₁ s' : Session} {write : Write} {event : Event} {outcome : Outcome}
      {events : List Event} :
      s.perform text write = .ok (s₁, event) → Course text s₁ outcome s' events →
        Course text s outcome s' (event :: events)

theorem course_finish (s : Session) (text : String) (phase : Phase) :
    Course text s (s.finish text phase).1 (s.finish text phase).2.1 (s.finish text phase).2.2 := by
  unfold finish
  split
  · dsimp only
    split
    · exact .accepted s
    split
    · exact .unterminated s _
    split
    · exact .unterminated s _
    · rename_i performed
      exact .last performed
  · exact .accepted s

theorem course_feed (s : Session) (text : String) (phase : Phase) (tokens : List Token) :
    Course text s (s.feed text phase tokens).1 (s.feed text phase tokens).2.1
      (s.feed text phase tokens).2.2 := by
  induction tokens generalizing s phase with
  | nil => exact course_finish s text phase
  | cons token tokens ih =>
    rw [feed]
    split
    · exact .rejected s _ _
    · exact ih s _
    · split
      · exact .rejected s _ _
      · rename_i performed
        exact .statement performed (ih _ _)

theorem sameSetting_of_course {text : String} {s s' : Session} {outcome : Outcome} {events : List Event}
    (h : Course text s outcome s' events) : SameSetting s s' := by
  induction h with
  | accepted | rejected | unterminated => exact ⟨rfl, rfl, rfl⟩
  | last performed => exact sameSetting_perform performed
  | statement performed _ ih => exact sameSetting_trans (sameSetting_perform performed) ih

theorem sameSetting_feed (s : Session) (text : String) (phase : Phase) (tokens : List Token) :
    SameSetting s (s.feed text phase tokens).2.1 :=
  sameSetting_of_course (course_feed s text phase tokens)

theorem registry_execute (s : Session) (lexemes : List String) :
    (s.execute lexemes).2.1.registry = (s.registry.encodeAll (lexemes.filter (· ≠ ""))).2 := by
  rcases execute_cases s lexemes with ⟨e, r, encoded, result⟩ | ⟨r, encoded, result⟩ |
    ⟨tokens, r, encoded, -, result⟩
  · rw [result, encoded]
  · rw [result, encoded]
  · rw [result, encoded]
    exact (sameSetting_feed { s with registry := r } (statementText tokens) .start tokens).registry_eq

/-- A call leaves the setting of a session as it is and only encodes. -/
theorem setting_of_execute (s : Session) (lexemes : List String) :
    s.registry.Leads (s.execute lexemes).2.1.registry ∧
      s.registry.SameReserved (s.execute lexemes).2.1.registry ∧
        (s.execute lexemes).2.1.dialect = s.dialect ∧ (s.execute lexemes).2.1.verbose = s.verbose := by
  obtain ⟨leads, same⟩ := Registry.leads_encodeAll s.registry (lexemes.filter (· ≠ ""))
  rw [registry_execute]
  refine ⟨leads, same, ?_⟩
  rcases execute_cases s lexemes with ⟨e, r, -, result⟩ | ⟨r, -, result⟩ | ⟨tokens, r, -, -, result⟩
  · rw [result]
    exact ⟨rfl, rfl⟩
  · rw [result]
    exact ⟨rfl, rfl⟩
  · rw [result]
    obtain ⟨-, dialect, verbose⟩ :=
      sameSetting_feed { s with registry := r } (statementText tokens) .start tokens
    exact ⟨dialect, verbose⟩

theorem madeFrom_execute {made : Registry} {s : Session} (h : s.MadeFrom made)
    (lexemes : List String) : (s.execute lexemes).2.1.MadeFrom made := by
  obtain ⟨leads, -, dialect, -⟩ := setting_of_execute s lexemes
  exact ⟨h.reachable, dialect.trans h.dialect_eq, Registry.leads_trans h.leads leads⟩

section Roles

variable {made : Registry} {s : Session} (h : s.MadeFrom made)
include h

theorem ne_empty_of_roleOf {lexeme : String} {role : Role} (classified : s.roleOf lexeme = some role)
    (operand : role = .name ∨ role = .literal) : lexeme ≠ "" := by
  rintro rfl
  have given : s.dialect.classify .null = role := Option.some.inj classified
  unfold Dialect.classify at given
  split at given
  · rename_i found
    rw [h.dialect_eq, Dialect.get?_roles_iff (Registry.coherent_of_reachable h.reachable)] at found
    obtain ⟨category, word, special, -⟩ := found
    obtain ⟨noName, noLiteral, -⟩ := Dialect.special_role _ special
    rcases operand with rfl | rfl
    · exact noName given
    · exact noLiteral given
  · rcases operand with rfl | rfl <;> cases given

/-- The role of a lexeme does not depend on what is encoded before it. -/
theorem classify_of_roleOf {r : Registry} (leads : s.registry.Leads r)
    (same : s.registry.SameReserved r) {lexeme : String} (nonempty : lexeme ≠ "") {role : Role}
    (classified : s.roleOf lexeme = some role) {token : Token} (encodes : r.Encodes lexeme token) :
    s.dialect.classify token = role := by
  unfold roleOf at classified
  split at classified
  · rename_i first r' encoded
    have here := Registry.encodes_of_encode nonempty encoded
    have leads' := Registry.leads_encode s.registry lexeme
    have same' := Registry.sameReserved_encode s.registry lexeme
    rw [encoded] at leads' same'
    rw [← Option.some.inj classified, h.dialect_eq]
    exact Dialect.classify_congr h.reachable h.reachable (Registry.leads_trans h.leads leads)
      (Registry.leads_trans h.leads leads') (Registry.sameReserved_refl made)
      (Registry.sameReserved_trans (Registry.sameReserved_symm same) same') encodes here
  · cases classified

/-- A lexeme of a call that is encoded is read in its role. -/
theorem classify_of_encodeAll {r : Registry} {words : List String} {tokens : List Token}
    (nonempty : ∀ word ∈ words, word ≠ "") (encoded : s.registry.encodeAll words = (.ok tokens, r))
    {word : String} (member : word ∈ words) {role : Role} (classified : s.roleOf word = some role) :
    s.dialect.classify (r.token word) = role := by
  obtain ⟨leads, same⟩ := Registry.leads_encodeAll s.registry words
  rw [encoded] at leads same
  exact classify_of_roleOf h leads same (nonempty word member) classified
    ((Registry.tokens_of_encodeAll nonempty encoded).2 word member)

end Roles

end LineLang.Session
