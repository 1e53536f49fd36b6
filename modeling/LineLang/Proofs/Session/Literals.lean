import LineLang.Proofs.Arithmetic
import LineLang.Proofs.Registry.Standard
import LineLang.Proofs.Session.Roles
import LineLang.Proofs.Text.Numeral

/-!
# The values of literals

`literals_denote`: a text is read as an integer if and only if it denotes one of 32 bits. What a registry
takes for a literal is an operand with the positional value of its digits, or no integer.
-/

namespace LineLang

/-- The number that the digits `0` to `9` write in base ten. -/
def decimalValue (cs : List Char) : Nat := Numeral.place (cs.map fun c => c.toNat - '0'.toNat)

/-! ### Integers -/

theorem readInteger_eq_ok_iff {s : String} {n : Int} :
    readInteger s = .ok n ↔ Numeral.parse? s = some n ∧ isInt32 n = true := by
  unfold readInteger
  cases Numeral.parse? s with
  | none => simp
  | some m =>
    dsimp only
    split
    · rename_i range
      simp only [Except.ok.injEq, Option.some.injEq, iff_self_and]
      rintro rfl
      exact range
    · rename_i outside
      simp only [reduceCtorEq, Option.some.injEq, false_iff, not_and]
      rintro rfl
      exact outside

theorem readInteger_of_forall_ne {s : String} (h : ∀ n, readInteger s ≠ .ok n) :
    readInteger s = .error (.notAnInteger s) := by
  unfold readInteger at h ⊢
  split at h
  · rename_i n _
    split at h
    · exact absurd rfl (h n)
    · rename_i outside
      rw [if_neg outside]
  · rfl

/-! ### Decimal lexemes -/

theorem digitValue?_of_isDigit {c : Char} (h : '0' ≤ c ∧ c ≤ '9') :
    digitValue? c = some (c.toNat - '0'.toNat) := by
  have low : 0x30 ≤ c.toNat := h.1
  have high : c.toNat ≤ 0x39 := h.2
  have found : digitZeros.find? (fun first => first ≤ c.toNat && c.toNat < first + 10) = some 0x30 := by
    rw [digitZeros, List.find?_cons_of_pos]
    simp only [Bool.and_eq_true, decide_eq_true_eq]
    omega
  rw [digitValue?, found]
  rfl

theorem digits_of_isDigits {cs : List Char} (h : IsDigits cs) :
    Numeral.Digits cs (cs.map fun c => c.toNat - '0'.toNat) := by
  obtain ⟨some, digits⟩ := h
  induction cs with
  | nil => exact absurd rfl some
  | cons c cs ih =>
    obtain ⟨digit, digits⟩ := List.forall_mem_cons.1 digits
    cases cs with
    | nil => exact .last (digitValue?_of_isDigit digit)
    | cons c' cs => exact .next (digitValue?_of_isDigit digit) (ih (List.cons_ne_nil c' cs) digits)

theorem mem_of_isDecimal {lexeme : String} (h : IsDecimal lexeme) :
    ∀ c ∈ lexeme.toList, c = '.' ∨ ('0' ≤ c ∧ c ≤ '9') := by
  rcases h with plain | ⟨whole, fraction, one, two, written⟩
  · exact fun c member => .inr (plain.2 c member)
  · rw [written]
    refine List.forall_mem_append.2 ⟨fun c member => .inr (one.2 c member), ?_⟩
    exact List.forall_mem_cons.2 ⟨.inl rfl, fun c member => .inr (two.2 c member)⟩

theorem clean_of_isDecimal {lexeme : String} (h : IsDecimal lexeme) :
    ∀ c ∈ lexeme.toList, ¬(0x1c ≤ c.toNat ∧ c.toNat ≤ 0x1f) := by
  intro c member
  rcases mem_of_isDecimal h c member with rfl | ⟨low, -⟩
  · decide
  · have : 0x30 ≤ c.toNat := low
    omega

theorem not_isQuoted_of_isDecimal {lexeme : String} (h : IsDecimal lexeme) :
    isQuoted lexeme = false := by
  refine Bool.eq_false_iff.2 fun quoted => ?_
  obtain ⟨text, written⟩ := (isQuoted_iff lexeme).1 quoted
  have : '"' ∈ lexeme.toList := by
    rw [written]
    exact List.mem_cons_self
  exact absurd (mem_of_isDecimal h '"' this) (by decide)

theorem parse?_of_isDigits {lexeme : String} (h : IsDigits lexeme.toList) :
    Numeral.parse? lexeme =
      if lexeme.length ≤ 4300 then some (decimalValue lexeme.toList : Int) else none := by
  have run := digits_of_isDigits h
  have visible : ∀ c ∈ lexeme.toList, Numeral.isPadding c = false := by
    intro c member
    have := Numeral.not_blank_of_digit (digitValue?_of_isDigit (h.2 c member))
    rw [Numeral.isPadding, this, Bool.false_and]
  have untrimmed : trimBy Numeral.isPadding ([] ++ (lexeme.toList ++ [])) = lexeme.toList :=
    Numeral.trimBy_append (by simp) (by simp) h.1
      (fun c head => visible c (List.mem_of_mem_head? head))
      fun c last => visible c (List.mem_of_mem_getLast? last)
  rw [List.nil_append, List.append_nil] at untrimmed
  rw [Numeral.parse?, untrimmed, Numeral.signed?_of_digits run, Numeral.magnitude?,
    Numeral.digits?_of_digits run]
  simp only [Option.bind_eq_bind, Option.bind_some, List.length_map, String.length_toList,
    Numeral.ofDigits_eq_place, Numeral.maxDigits, decimalValue]
  split <;> rfl

theorem parse?_of_point {lexeme : String} (h : IsDecimal lexeme) (point : '.' ∈ lexeme.toList) :
    Numeral.parse? lexeme = none := by
  cases parsed : Numeral.parse? lexeme with
  | none => rfl
  | some n =>
    obtain ⟨before, core, behind, written, front, back, signed⟩ :=
      (Numeral.parse?_eq_some_iff (clean_of_isDecimal h) n).1 parsed
    rw [written, List.mem_append, List.mem_append] at point
    rcases point with blank | inside | blank
    · cases front '.' blank
    · rcases Numeral.mem_of_signed signed '.' inside with sign | ⟨d, digit⟩
      · exact absurd sign (by decide)
      · cases digit.symm.trans (show digitValue? '.' = none by decide)
    · cases back '.' blank

theorem parse?_of_isDecimal {lexeme : String} (h : IsDecimal lexeme) :
    Numeral.parse? lexeme =
      if '.' ∉ lexeme.toList ∧ lexeme.length ≤ 4300 then some (decimalValue lexeme.toList : Int)
      else none := by
  by_cases point : '.' ∈ lexeme.toList
  · rw [parse?_of_point h point, if_neg fun both => both.1 point]
  · rcases h with plain | ⟨whole, fraction, -, -, written⟩
    · rw [parse?_of_isDigits plain]
      simp only [point, not_false_eq_true, true_and]
    · exact absurd (by rw [written]; simp) point

/-- A decimal lexeme is an integer if it has no point, not too many digits and a value of 32 bits. -/
theorem readLiteral_of_isDecimal {lexeme : String} (h : IsDecimal lexeme) :
    readLiteral lexeme =
      if '.' ∉ lexeme.toList ∧ lexeme.length ≤ 4300 ∧ decimalValue lexeme.toList ≤ 0x7fffffff then
        .ok (.int (decimalValue lexeme.toList))
      else .error (.notAnInteger lexeme) := by
  have parsed := parse?_of_isDecimal h
  have range : isInt32 (decimalValue lexeme.toList) = true ↔
      decimalValue lexeme.toList ≤ 0x7fffffff := by
    rw [isInt32_iff]
    omega
  rw [readLiteral, if_neg (by simp [not_isQuoted_of_isDecimal h])]
  split
  · rename_i valid
    have fits := range.2 valid.2.2
    rw [readInteger_eq_ok_iff.2 ⟨parsed.trans (if_pos ⟨valid.1, valid.2.1⟩), fits⟩, Except.map,
      Value.ofInt, (wrap_eq_self_iff _).2 fits]
  · rename_i invalid
    rw [readInteger_of_forall_ne]
    · rfl
    intro n read
    obtain ⟨same, fits⟩ := readInteger_eq_ok_iff.1 read
    rw [parsed, Option.ite_none_right_eq_some] at same
    obtain ⟨⟨whole, short⟩, same⟩ := same
    obtain rfl := Option.some.inj same
    exact invalid ⟨whole, short, range.1 fits⟩

/-! ### Tokens -/

/-- A registry takes nothing but decimal lexemes for literals. -/
theorem encodes_of_literal {r r' : Registry} {lexeme : String} {token : Token}
    (h : r.encode lexeme = (.ok token, r')) (literal : token.category = some .literal) :
    IsDecimal lexeme ∧ r'.Encodes lexeme token := by
  have nonempty : lexeme ≠ "" := by
    rintro rfl
    cases h
    cases literal
  have encodes := Registry.encodes_of_encode nonempty h
  have category := encodes.category_eq
  rw [literal, Option.some.injEq, Registry.categoryFor] at category
  split at category
  · cases category
  split at category
  · cases category
  unfold Registry.freeCategory at category
  split at category
  · rename_i numeric
    exact ⟨(isNumeric_iff lexeme).1 numeric, encodes⟩
  · cases category

theorem special_not_isNumeric : ∀ entry ∈ specialLexemes, isNumeric entry.2.1 = false := by decide

theorem classify_of_literal {made : Registry} {s : Session} (h : s.MadeFrom made) {lexeme : String}
    {token : Token} {r : Registry} (encoded : s.registry.encode lexeme = (.ok token, r))
    (literal : token.category = some .literal) : s.dialect.classify token = .literal := by
  obtain ⟨decimal, encodes⟩ := encodes_of_literal encoded literal
  have leads := Registry.leads_encode s.registry lexeme
  rw [encoded] at leads
  -- no special lexeme is numeric, so that the code has no role of its own
  have none : s.dialect.roles.get? token.code = none := by
    rw [h.dialect_eq]
    refine Option.eq_none_iff_forall_ne_some.2 fun role found => ?_
    obtain ⟨category, special, -⟩ := (Dialect.get?_roles_iff_hasRole h.reachable
      (Registry.leads_trans h.leads leads) encodes role).1 found
    have := special_not_isNumeric _ special
    rw [(isNumeric_iff lexeme).2 decimal] at this
    cases this
  rw [Dialect.classify_of_no_role none, literal]

/-- Texts without information separators are integers if and only if they denote one of 32 bits. What a
registry takes for a literal is read as an operand that is the positional value of its digits and never
negative, or as no integer. -/
theorem literals_denote :
    (∀ text : String, (∀ c ∈ text.toList, ¬(0x1c ≤ c.toNat ∧ c.toNat ≤ 0x1f)) →
      (∀ n, readInteger text = .ok n ↔
        Numeral.Denotes text n ∧ -0x80000000 ≤ n ∧ n ≤ 0x7fffffff) ∧
      ((¬∃ n, Numeral.Denotes text n ∧ -0x80000000 ≤ n ∧ n ≤ 0x7fffffff) →
        readInteger text = .error (.notAnInteger text))) ∧
    ∀ {made : Registry} {s : Session}, s.MadeFrom made → ∀ lexeme token r,
      s.registry.encode lexeme = (.ok token, r) → token.category = some .literal →
        ∀ (t : SymbolTable) (pending : Stacks),
          pending.read s.dialect r t (s.dialect.classify token) token =
            if '.' ∉ lexeme.toList ∧ lexeme.length ≤ 4300 ∧
                decimalValue lexeme.toList ≤ 0x7fffffff then
              .ok (pending.pushOperand (.int (decimalValue lexeme.toList)))
            else .error (Fault.notAnInteger lexeme).report := by
  constructor
  · intro text clean
    have denotes : ∀ n, readInteger text = .ok n ↔
        Numeral.Denotes text n ∧ -0x80000000 ≤ n ∧ n ≤ 0x7fffffff := by
      intro n
      rw [readInteger_eq_ok_iff, Numeral.parse?_eq_some_iff clean, isInt32_iff]
    refine ⟨denotes, fun nothing => readInteger_of_forall_ne fun n read => ?_⟩
    exact nothing ⟨n, (denotes n).1 read⟩
  · intro made s h lexeme token r encoded literal t pending
    obtain ⟨decimal, encodes⟩ := encodes_of_literal encoded literal
    rw [classify_of_literal h encoded literal, Stacks.read, encodes.lexeme_eq,
      readLiteral_of_isDecimal decimal]
    by_cases valid : '.' ∉ lexeme.toList ∧ lexeme.length ≤ 4300 ∧
        decimalValue lexeme.toList ≤ 0x7fffffff
    · rw [if_pos valid, if_pos valid]
    · rw [if_neg valid, if_neg valid]

theorem literals_denote_padded :
    readInteger "\t-٤_2 " = .ok (-42) ∧
      ∃ token r, Registry.vocabulary.encode "007" = (.ok token, r) ∧
        Stacks.read (.ofRegistry Registry.vocabulary) r .empty {}
          ((Dialect.ofRegistry Registry.vocabulary).classify token) token = .ok ⟨[.int 7], []⟩ := by
  obtain ⟨texts, lexemes⟩ := literals_denote
  constructor
  · have run : Numeral.Digits ['٤', '_', '2'] [4, 2] := .gap rfl (.last rfl)
    refine ((texts "\t-٤_2 " (by simp)).1 (-42)).2 ⟨?_, by decide, by decide⟩
    exact ⟨['\t'], ['-', '٤', '_', '2'], [' '], rfl, List.forall_mem_singleton.2 (by decide),
      List.forall_mem_singleton.2 (by decide), .minus run (by decide)⟩
  · refine ⟨⟨"007", some .literal, 700⟩, _, rfl, ?_⟩
    exact lexemes (Session.madeFrom_start Registry.reachable_vocabulary .empty false) "007" _ _ rfl rfl
      .empty {}

end LineLang
