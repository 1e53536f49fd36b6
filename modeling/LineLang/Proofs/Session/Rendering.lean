import LineLang.Proofs.Dump
import LineLang.Proofs.Expression.Range
import LineLang.Proofs.Session.Literals
import LineLang.Proofs.Session.Reading
import LineLang.Proofs.Session.Statement
import LineLang.Proofs.Session.Store
import LineLang.Proofs.Text.Written

/-!
# Values read back

`shown_reads_back`: a value that is shown is a literal of that value, and a declaration with such a literal
gives the value to its name. Texts need no escapes for it, whatever they hold.
-/

namespace LineLang

/-! ### Reading what is shown -/

theorem signed_toString {n : Int} (short : (Nat.toDigits 10 n.natAbs).length ≤ 4300) :
    Numeral.Signed (toString n).toList n := by
  have run := digits_of_isDigits (isDigits_toDigits n.natAbs)
  have short' : ((Nat.toDigits 10 n.natAbs).map fun c => c.toNat - '0'.toNat).length ≤ 4300 := by
    rwa [List.length_map]
  rw [Int.toString_eq_repr, Int.repr_eq_if]
  split
  · rename_i natural
    have signed := Numeral.Signed.unsigned run short'
    rw [place_toDigits, Int.natAbs_of_nonneg natural] at signed
    rwa [← Int.natAbs_of_nonneg natural, Int.toNat_natCast, Nat.toList_repr,
      Int.natAbs_of_nonneg natural]
  · rename_i negative
    have opposite : -(n.natAbs : Int) = n := by omega
    have signed := Numeral.Signed.minus run short'
    rw [place_toDigits, opposite] at signed
    have magnitude : (-n).toNat = n.natAbs := by omega
    rwa [magnitude, String.toList_append, Nat.toList_repr]

theorem length_toDigits_le {n : Int} (range : -0x80000000 ≤ n ∧ n ≤ 0x7fffffff) :
    (Nat.toDigits 10 n.natAbs).length ≤ 10 := by
  rw [Nat.length_toDigits_le_iff (by decide) (by decide)]
  omega

/-- An integer in decimal is read as itself. -/
theorem readInteger_toString {n : Int} (range : -0x80000000 ≤ n ∧ n ≤ 0x7fffffff) :
    readInteger (toString n) = .ok n := by
  have clean : ∀ c ∈ (toString n).toList, ¬(0x1c ≤ c.toNat ∧ c.toNat ≤ 0x1f) := by
    intro c member
    rcases Dump.decimal_of_mem_toString n c member with rfl | digit
    · decide
    · have : 0x30 ≤ c.toNat := ((isDigit_iff c).1 digit).1
      omega
  have short : (Nat.toDigits 10 n.natAbs).length ≤ 4300 := Nat.le_trans (length_toDigits_le range) (by decide)
  refine readInteger_eq_ok_iff.2 ⟨(Numeral.parse?_eq_some_iff clean n).2 ?_, (isInt32_iff n).2 range⟩
  exact ⟨[], _, [], by simp, by simp, by simp, signed_toString short⟩

theorem isWrapped_shown (text : String) : IsWrapped (Value.string text).shown :=
  ⟨text.toList, Dump.toList_shown_string text⟩

theorem readLiteral_shown {value : Value} (sound : value.Sound) : readLiteral value.shown = .ok value := by
  cases value with
  | int n =>
    have unquoted : isQuoted (toString n) = false := by
      refine Bool.eq_false_iff.2 fun quoted => ?_
      obtain ⟨text, written⟩ := (isQuoted_iff _).1 quoted
      rcases Dump.decimal_of_mem_toString n '"' (written ▸ List.mem_cons_self) with sign | digit
      · cases sign
      · cases digit
    rw [Value.shown, readLiteral, if_neg (by rw [unquoted]; exact Bool.false_ne_true), readInteger_toString sound, Except.map,
      Value.ofInt, (wrap_eq_self_iff n).2 ((isInt32_iff n).2 sound)]
  | string text =>
    have inside : unquote (Value.string text).shown = text := by
      rw [unquote, Dump.toList_shown_string, List.tail_cons, List.dropLast_concat, String.ofList_toList]
    rw [readLiteral, if_pos ((isQuoted_iff _).2 (isWrapped_shown text)), inside]
  | foreign => cases sound

/-! ### Declarations -/

/-- The lexemes that a declaration with a value is written with are registered in their categories. -/
structure Registry.CanDeclare (r : Registry) : Prop where
  int : (r.codeFor .keyword "int").isSome
  string : (r.codeFor .keyword "string").isSome
  equals : (r.codeFor .operator "=").isSome
  semicolon : (r.codeFor .operator ";").isSome

/-- What is neither registered nor a name is read as a literal. -/
theorem Dialect.classify_of_unreserved {made r r' : Registry} (reachable : made.Reachable)
    (leads : made.Leads r) (leads' : r.Leads r') (same : r.SameReserved r') {lexeme : String}
    {token : Token} (encodes : r'.Encodes lexeme token) (unreserved : r.isReserved lexeme = false)
    (literal : IsDecimal lexeme ∨ IsWrapped lexeme) :
    (ofRegistry made).classify token = .literal := by
  have none : (ofRegistry made).roles.get? token.code = none := by
    refine Option.eq_none_iff_forall_ne_some.2 fun role found => ?_
    obtain ⟨category, special, registered⟩ := (get?_roles_iff_hasRole reachable
      (Registry.leads_trans leads leads') encodes role).1 found
    obtain ⟨code, given⟩ := Option.isSome_iff_exists.1 registered
    have now := Registry.codeFor_of_grows (Registry.grows_of_leads leads) given
    obtain ⟨noKeyword, noOperator⟩ := (Registry.isReserved_eq_false_iff r lexeme).1 unreserved
    rcases special_category _ special with rfl | rfl
    · cases noKeyword.symm.trans now
    · cases noOperator.symm.trans now
  have plain := plainRole_classify same encodes none
  generalize (ofRegistry made).classify token = role at plain
  cases plain with
  | reserved reserved => cases unreserved.symm.trans reserved
  | literal => rfl
  | name _ noDecimal unwrapped => exact absurd literal (by simp [noDecimal, unwrapped])

theorem Registry.CanDeclare.isSome_keyword {made : Registry} (can : made.CanDeclare) {ty : Ty}
    {keyword : String} (type : ty.keyword? = some keyword) :
    (made.codeFor .keyword keyword).isSome := by
  cases ty with
  | int =>
    cases type
    exact can.int
  | string =>
    cases type
    exact can.string
  | named => cases type

/-- The keyword of a type begins a declaration of it. -/
theorem special_of_keyword {ty : Ty} {keyword : String} (type : ty.keyword? = some keyword) :
    ∃ role, (.keyword, keyword, role) ∈ specialLexemes ∧
      ∀ (d : Dialect) (r : Registry) (t : SymbolTable) (token : Token), d.classify token = role →
        Phase.start.step d r t token = .ok (.goOn (.afterType ty)) := by
  cases ty with
  | int =>
    cases type
    exact ⟨.intType, by decide, fun d r t token role => by simp only [Phase.step, role]⟩
  | string =>
    cases type
    exact ⟨.stringType, by decide, fun d r t token role => by simp only [Phase.step, role]⟩
  | named => cases type

theorem ne_empty_of_literal {lexeme : String} (literal : IsDecimal lexeme ∨ IsWrapped lexeme) :
    lexeme ≠ "" := by
  rintro rfl
  rcases literal with (digits | ⟨whole, fraction, -, -, split⟩) | ⟨text, wrapped⟩
  · exact digits.1 rfl
  · exact absurd split (by simp)
  · cases wrapped

namespace Session

/-- Reading a declaration with a literal, when each token is in its role. -/
theorem feed_literal {s s' : Session} {text keyword name lexeme : String} {ty : Ty} {value : Value}
    {event : Event}
    (opens : Phase.start.step s.dialect s.registry s.symbols (s.registry.token keyword) =
      .ok (.goOn (.afterType ty)))
    (names : s.dialect.classify (s.registry.token name) = .name)
    (equals : s.dialect.classify (s.registry.token "=") = .equals)
    (gives : s.dialect.classify (s.registry.token lexeme) = .literal)
    (ends : s.dialect.classify (s.registry.token ";") = .semicolon)
    (reads : readLiteral (s.registry.token lexeme).lexeme = .ok value)
    (performed : s.perform text (.initialise ty name value) = .ok (s', event)) :
    s.feed text .start ([keyword, name, "=", lexeme, ";"].map s.registry.token) =
      (.accepted, s', [event]) := by
  have named : (Phase.afterType ty).step s.dialect s.registry s.symbols (s.registry.token name) =
      .ok (.goOn (.afterDeclared ty name)) := by
    simp only [Phase.step, names]
    rfl
  have awaits : (Phase.afterDeclared ty name).step s.dialect s.registry s.symbols
      (s.registry.token "=") = .ok (.goOn (.expression (.declaration ty name) {})) := by
    simp only [Phase.step, equals]
  have pushes : (Phase.expression (.declaration ty name) {}).step s.dialect s.registry s.symbols
      (s.registry.token lexeme) = .ok (.goOn (.expression (.declaration ty name) ⟨[value], []⟩)) := by
    simp only [Phase.step, gives, Stacks.read, reads]
    rfl
  have completes : (Phase.expression (.declaration ty name) ⟨[value], []⟩).step s.dialect s.registry
      s.symbols (s.registry.token ";") = .ok (.complete (.initialise ty name value)) := by
    simp only [Phase.step, ends]
    rfl
  have whole : Reads text s .start ([keyword, name, "=", lexeme, ";"].map s.registry.token) [event]
      s' .start :=
    .goOn opens (.goOn named (.goOn awaits (.goOn pushes (.complete completes performed (.nil s' _)))))
  have fed := feed_of_reads whole []
  rwa [List.append_nil] at fed

/-- A declaration with a literal gives the value of the literal to a name that is free. -/
theorem commits_literal {made : Registry} {s : Session} (h : s.MadeFrom made) (can : made.CanDeclare)
    {ty : Ty} {keyword : String} (type : ty.keyword? = some keyword) {name lexeme : String}
    (named : s.roleOf name = some .name) (fresh : s.symbols.get? name = none)
    (unreserved : s.registry.isReserved lexeme = false) (literal : IsDecimal lexeme ∨ IsWrapped lexeme)
    {value : Value} (reads : readLiteral lexeme = .ok value) (fits : value.ty = ty)
    (encodable : (s.registry.encodeAll [keyword, name, "=", lexeme, ";"]).1.isOk) :
    s.Commits [keyword, name, "=", lexeme, ";"] (.declaration ty name) value := by
  obtain ⟨tokens, r, encoded⟩ := Registry.encodeAll_of_isOk encodable
  obtain ⟨leads, same⟩ := Registry.leads_encodeAll s.registry [keyword, name, "=", lexeme, ";"]
  rw [encoded] at leads same
  obtain ⟨typeRole, begins, opens⟩ := special_of_keyword type
  have nonempty : ∀ word ∈ [keyword, name, "=", lexeme, ";"], word ≠ "" := by
    simp only [List.forall_mem_cons]
    exact ⟨special_ne_empty _ begins, ne_empty_of_roleOf h named (.inl rfl), by decide,
      ne_empty_of_literal literal, by decide, List.forall_mem_nil _⟩
  obtain ⟨words, encodes⟩ := Registry.tokens_of_encodeAll nonempty encoded
  have hasRole {category : Category} {word : String} {role : Role}
      (special : (category, word, role) ∈ specialLexemes) (given : (made.codeFor category word).isSome)
      (member : word ∈ [keyword, name, "=", lexeme, ";"]) : s.dialect.classify (r.token word) = role := by
    rw [h.dialect_eq]
    exact Dialect.classify_of_hasRole h.reachable (Registry.leads_trans h.leads leads)
      (encodes word member) ⟨category, special, given⟩
  have keywords := hasRole begins (can.isSome_keyword type) (by simp)
  have names := classify_of_encodeAll h nonempty encoded
    (show name ∈ [keyword, name, "=", lexeme, ";"] by simp) named
  have equals := hasRole (show (.operator, "=", .equals) ∈ specialLexemes by decide) can.equals (by simp)
  have ends := hasRole (show (.operator, ";", .semicolon) ∈ specialLexemes by decide) can.semicolon
    (by simp)
  have gives : s.dialect.classify (r.token lexeme) = .literal := by
    rw [h.dialect_eq]
    exact Dialect.classify_of_unreserved h.reachable h.leads leads same (encodes lexeme (by simp))
      unreserved literal
  have admits : (Target.declaration ty name).Admits s.symbols value := ⟨fits, fresh⟩
  have performed := perform_of_admits (s := { s with registry := r }) (statementText tokens) admits
  have fed := feed_literal (s := { s with registry := r }) (opens s.dialect r s.symbols _ keywords) names
    equals gives ends reads performed
  rw [← words] at fed
  have ran := execute_of_encodeAll nonempty (by simp) encoded
  rw [fed] at ran
  exact ⟨_, ran, rfl⟩

/-- A value that is shown is read as the same value. On a session where declarations can be written, a
fresh name that is declared with a text between quotes, or with an integer in decimal, has that value. -/
theorem shown_reads_back :
    (∀ value : Value, value.Sound → readLiteral value.shown = .ok value) ∧
    ∀ {made : Registry} {s : Session}, s.MadeFrom made → made.CanDeclare →
      ∀ name, s.roleOf name = some .name → s.symbols.get? name = none →
        (∀ text : String, s.registry.isReserved ("\"" ++ text ++ "\"") = false →
          (s.registry.encodeAll ["string", name, "=", "\"" ++ text ++ "\"", ";"]).1.isOk →
            s.Commits ["string", name, "=", "\"" ++ text ++ "\"", ";"] (.declaration .string name)
              (.string text)) ∧
        ∀ n : Nat, n ≤ 0x7fffffff → s.registry.isReserved (toString n) = false →
          (s.registry.encodeAll ["int", name, "=", toString n, ";"]).1.isOk →
            s.Commits ["int", name, "=", toString n, ";"] (.declaration .int name) (.int n) := by
  refine ⟨fun value => readLiteral_shown, fun h can name named fresh => ⟨?_, ?_⟩⟩
  · intro text unreserved encodable
    have sound : (Value.string text).Sound := trivial
    have reads := readLiteral_shown sound
    exact commits_literal h can rfl named fresh unreserved (.inr (isWrapped_shown text)) reads rfl
      encodable
  · intro n bound unreserved encodable
    have decimal : IsDecimal (toString n) := by
      refine .inl ?_
      rw [Nat.toString_eq_repr, Nat.toList_repr]
      exact isDigits_toDigits n
    have sound : (Value.int n).Sound := ⟨by omega, by omega⟩
    have reads := readLiteral_shown sound
    exact commits_literal h can rfl named fresh unreserved (.inl decimal) reads rfl encodable

/-- A text may hold quotes, blanks and what looks like a comment. -/
theorem shown_reads_back_quotes :
    (start Registry.vocabulary .empty false).Commits
      ["string", "s", "=", "\"say \"hi\"  // x;\"", ";"] (.declaration .string "s")
      (.string "say \"hi\"  // x;") :=
  ((shown_reads_back.2 (madeFrom_start Registry.reachable_vocabulary .empty false)
    ⟨by decide +kernel, by decide +kernel, by decide +kernel, by decide +kernel⟩ "s"
    (by decide +kernel) (by decide +kernel)).1 "say \"hi\"  // x;" (by decide +kernel)
    (by decide +kernel))

end Session

end LineLang
