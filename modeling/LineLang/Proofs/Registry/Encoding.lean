import LineLang.Proofs.Registry.Coherence

/-!
# The tokens of lexemes

A token is made of a lexeme, the category that the lexeme falls into, and its code there.
`encodes_of_encodeAll`: all tokens of a successful call are tokens of the registry it leaves, which
has the same keywords and operators as the one it starts from. `exists_failsAt`: a call that cannot be
encoded has a first lexeme without a code.
-/

namespace LineLang.Registry

/-- The registries have the same keywords and the same operators, whatever their codes. -/
def SameReserved (r r' : Registry) : Prop :=
  (∀ lexeme, lexeme ∈ r.keywords.keys ↔ lexeme ∈ r'.keywords.keys) ∧
    ∀ lexeme, lexeme ∈ r.operators.keys ↔ lexeme ∈ r'.operators.keys

instance (r r' : Registry) : Decidable (r.SameReserved r') :=
  decidable_of_iff ((r.keywords.keys ⊆ r'.keywords.keys ∧ r'.keywords.keys ⊆ r.keywords.keys) ∧
    r.operators.keys ⊆ r'.operators.keys ∧ r'.operators.keys ⊆ r.operators.keys) (by
      simp only [SameReserved, List.subset_def, iff_def, forall_and])

theorem sameReserved_refl (r : Registry) : r.SameReserved r := ⟨fun _ => .rfl, fun _ => .rfl⟩

theorem sameReserved_symm {r r' : Registry} (h : r.SameReserved r') : r'.SameReserved r :=
  ⟨fun lexeme => (h.1 lexeme).symm, fun lexeme => (h.2 lexeme).symm⟩

theorem sameReserved_trans {r₁ r₂ r₃ : Registry} (h₁ : r₁.SameReserved r₂)
    (h₂ : r₂.SameReserved r₃) : r₁.SameReserved r₃ :=
  ⟨fun lexeme => (h₁.1 lexeme).trans (h₂.1 lexeme), fun lexeme => (h₁.2 lexeme).trans (h₂.2 lexeme)⟩

theorem isSome_codeFor_iff (r : Registry) (category : Category) (lexeme : String) :
    (r.codeFor category lexeme).isSome ↔ lexeme ∈ (r.table category).keys := by
  rw [← not_iff_not, ← Table.get?_eq_none_iff, codeFor]
  simp

theorem sameReserved_iff {r r' : Registry} : r.SameReserved r' ↔
    (∀ lexeme, (r.codeFor .keyword lexeme).isSome = (r'.codeFor .keyword lexeme).isSome) ∧
      ∀ lexeme, (r.codeFor .operator lexeme).isSome = (r'.codeFor .operator lexeme).isSome := by
  unfold SameReserved
  refine and_congr (forall_congr' fun lexeme => ?_) (forall_congr' fun lexeme => ?_)
  · rw [Bool.eq_iff_iff, isSome_codeFor_iff, isSome_codeFor_iff]
    rfl
  · rw [Bool.eq_iff_iff, isSome_codeFor_iff, isSome_codeFor_iff]
    rfl

theorem categoryFor_congr {r r' : Registry} (h : r.SameReserved r') (lexeme : String) :
    r.categoryFor lexeme = r'.categoryFor lexeme := by
  obtain ⟨keywords, operators⟩ := sameReserved_iff.1 h
  rw [categoryFor, categoryFor, keywords, operators]

structure Encodes (r : Registry) (lexeme : String) (token : Token) : Prop where
  lexeme_eq : token.lexeme = lexeme
  category_eq : token.category = some (r.categoryFor lexeme)
  codeFor_eq : r.codeFor (r.categoryFor lexeme) lexeme = some token.code

/-- The token that a lexeme has if it has one. -/
def token (r : Registry) (lexeme : String) : Token :=
  ⟨lexeme, some (r.categoryFor lexeme), (r.codeFor (r.categoryFor lexeme) lexeme).getD 0⟩

theorem eq_token_of_encodes {r : Registry} {lexeme : String} {token : Token}
    (h : r.Encodes lexeme token) : token = r.token lexeme := by
  obtain ⟨rfl, category, given⟩ := h
  rw [Registry.token, ← category, given]
  rfl

theorem encodes_token {r : Registry} {lexeme : String}
    (h : (r.codeFor (r.categoryFor lexeme) lexeme).isSome) : r.Encodes lexeme (r.token lexeme) := by
  obtain ⟨code, given⟩ := Option.isSome_iff_exists.1 h
  exact ⟨rfl, rfl, by rw [Registry.token, given]; rfl⟩

theorem encodes_of_known? {r : Registry} {lexeme : String} {token : Token} (nonempty : lexeme ≠ "")
    (h : r.known? lexeme = some token) : r.Encodes lexeme token := by
  rw [known?_of_ne_empty r nonempty] at h
  obtain ⟨code, given, rfl⟩ := Option.map_eq_some_iff.1 h
  exact ⟨rfl, rfl, given⟩

/-- A lexeme that has a token is not encoded anew. -/
theorem encode_of_encodes {r : Registry} {lexeme : String} (nonempty : lexeme ≠ "")
    (h : r.Encodes lexeme (r.token lexeme)) : r.encode lexeme = (.ok (r.token lexeme), r) := by
  have known : r.known? lexeme = some (r.token lexeme) := by
    rw [known?_of_ne_empty r nonempty, h.codeFor_eq]
    rfl
  rw [encode, known]

theorem encodes_of_grows {r r' : Registry} (grows : Grows r r') (same : r.SameReserved r')
    {lexeme : String} {token : Token} (h : r.Encodes lexeme token) : r'.Encodes lexeme token where
  lexeme_eq := h.lexeme_eq
  category_eq := by rw [← categoryFor_congr same, h.category_eq]
  codeFor_eq := by rw [← categoryFor_congr same, codeFor_of_grows grows h.codeFor_eq]

/-! ### Encoding -/

theorem freeCategory_ne (lexeme : String) :
    freeCategory lexeme ≠ .keyword ∧ freeCategory lexeme ≠ .operator := by
  unfold freeCategory
  split <;> simp

theorem sameReserved_assign (r : Registry) (lexeme word : String) :
    r.SameReserved (r.assign (freeCategory lexeme) word) := by
  obtain ⟨keyword, operator⟩ := freeCategory_ne lexeme
  simp [sameReserved_iff, codeFor_assign, keyword.symm, operator.symm]

theorem sameReserved_encode (r : Registry) (lexeme : String) :
    r.SameReserved (r.encode lexeme).2 := by
  rcases encode_cases r lexeme with ⟨e, failed⟩ | ⟨token, -, found⟩ | ⟨-, given⟩
  · rw [failed]
    exact sameReserved_refl r
  · rw [found]
    exact sameReserved_refl r
  · rw [given]
    exact sameReserved_assign r lexeme lexeme

/-- A lexeme that is encoded has its token from then on. -/
theorem encodes_of_encode {r r' : Registry} {lexeme : String} {token : Token}
    (nonempty : lexeme ≠ "") (h : r.encode lexeme = (.ok token, r')) : r'.Encodes lexeme token := by
  rcases encode_cases r lexeme with ⟨e, failed⟩ | ⟨found, known, same⟩ | ⟨admitted, given⟩
  · rw [failed] at h
    cases h
  · rw [same] at h
    cases h
    exact encodes_of_known? nonempty known
  · rw [given] at h
    cases h
    have category :
        (r.assign (freeCategory lexeme) lexeme).categoryFor lexeme = freeCategory lexeme := by
      rw [← categoryFor_congr (sameReserved_assign r lexeme lexeme),
        categoryFor_of_unreserved admitted.unreserved]
    exact ⟨rfl, by rw [category], by rw [category, codeFor_assign, if_pos ⟨rfl, rfl⟩]⟩

theorem leads_encode (r : Registry) (lexeme : String) : r.Leads (r.encode lexeme).2 :=
  leads_perform r (.encode lexeme)

/-- Encoding lexemes only encodes, also when it fails on the way. -/
theorem leads_encodeAll (r : Registry) (lexemes : List String) :
    r.Leads (r.encodeAll lexemes).2 ∧ r.SameReserved (r.encodeAll lexemes).2 := by
  induction lexemes generalizing r with
  | nil => exact ⟨leads_refl r, sameReserved_refl r⟩
  | cons lexeme lexemes ih =>
    have here := leads_encode r lexeme
    have words := sameReserved_encode r lexeme
    rcases encoded : r.encode lexeme with ⟨e | token, r₁⟩
    · rw [encoded] at here words
      simpa only [encodeAll, encoded] using And.intro here words
    · rw [encoded] at here words
      obtain ⟨behind, others⟩ := ih r₁
      have whole := And.intro (leads_trans here behind) (sameReserved_trans words others)
      rcases rest : r₁.encodeAll lexemes with ⟨e | tokens, r₂⟩
      all_goals simpa only [encodeAll, encoded, rest] using whole

theorem encodes_of_encodeAll {r r' : Registry} {lexemes : List String} {tokens : List Token}
    (nonempty : ∀ lexeme ∈ lexemes, lexeme ≠ "") (h : r.encodeAll lexemes = (.ok tokens, r')) :
    List.Forall₂ r'.Encodes lexemes tokens := by
  induction lexemes generalizing r tokens with
  | nil =>
    cases h
    exact .nil
  | cons lexeme lexemes ih =>
    rw [encodeAll] at h
    rcases encoded : r.encode lexeme with ⟨e | token, r₁⟩
    · rw [encoded] at h
      cases h
    · rw [encoded] at h
      dsimp only at h
      obtain ⟨leads, words⟩ := leads_encodeAll r₁ lexemes
      rcases others : r₁.encodeAll lexemes with ⟨e | rest, r₂⟩
      · rw [others] at h
        cases h
      · rw [others] at h leads words
        cases h
        have here := encodes_of_encode (nonempty lexeme List.mem_cons_self) encoded
        exact .cons (encodes_of_grows (grows_of_leads leads) words here)
          (ih (fun word member => nonempty word (List.mem_cons_of_mem _ member)) others)

/-- Lexemes are encoded one part after the other. -/
theorem encodeAll_append (r : Registry) (front back : List String) :
    r.encodeAll (front ++ back) =
      match r.encodeAll front with
      | (.error e, r) => (.error e, r)
      | (.ok first, r) =>
        match r.encodeAll back with
        | (.error e, r) => (.error e, r)
        | (.ok second, r) => (.ok (first ++ second), r) := by
  induction front generalizing r with
  | nil =>
    rw [List.nil_append, encodeAll]
    dsimp only
    rcases r.encodeAll back with ⟨e | second, r'⟩ <;> rfl
  | cons lexeme front ih =>
    rw [List.cons_append, encodeAll, encodeAll]
    rcases r.encode lexeme with ⟨e | token, r₁⟩
    · rfl
    · dsimp only
      rw [ih]
      rcases r₁.encodeAll front with ⟨e | first, r₂⟩
      · rfl
      · dsimp only
        rcases r₂.encodeAll back with ⟨e | second, r₃⟩ <;> rfl

theorem encodeAll_append_eq_ok {r r' : Registry} {front back : List String} {tokens : List Token}
    (h : r.encodeAll (front ++ back) = (.ok tokens, r')) :
    ∃ first middle second, r.encodeAll front = (.ok first, middle) ∧
      middle.encodeAll back = (.ok second, r') ∧ tokens = first ++ second := by
  rw [encodeAll_append] at h
  rcases one : r.encodeAll front with ⟨e | first, middle⟩
  · rw [one] at h
    cases h
  · rw [one] at h
    dsimp only at h
    rcases two : middle.encodeAll back with ⟨e | second, last⟩
    · rw [two] at h
      cases h
    · rw [two] at h
      cases h
      exact ⟨first, middle, second, rfl, two, rfl⟩

theorem encodeAll_of_isOk {r : Registry} {lexemes : List String}
    (h : (r.encodeAll lexemes).1.isOk) : ∃ tokens r', r.encodeAll lexemes = (.ok tokens, r') := by
  rcases encoded : r.encodeAll lexemes with ⟨e | tokens, r'⟩
  · rw [encoded] at h
    cases h
  · exact ⟨tokens, r', rfl⟩

theorem tokens_of_encodeAll {r r' : Registry} {lexemes : List String} {tokens : List Token}
    (nonempty : ∀ lexeme ∈ lexemes, lexeme ≠ "") (h : r.encodeAll lexemes = (.ok tokens, r')) :
    tokens = lexemes.map r'.token ∧ ∀ lexeme ∈ lexemes, r'.Encodes lexeme (r'.token lexeme) := by
  have encoded := encodes_of_encodeAll nonempty h
  clear h
  induction encoded with
  | nil => simp
  | cons here _ ih =>
    obtain ⟨rfl, others⟩ := ih fun word member => nonempty word (List.mem_cons_of_mem _ member)
    obtain rfl := eq_token_of_encodes here
    refine ⟨rfl, fun word member => ?_⟩
    rcases List.mem_cons.1 member with rfl | member
    · exact here
    · exact others word member

/-- Lexemes that have their tokens are encoded without a change. -/
theorem encodeAll_of_encodes {r : Registry} {lexemes : List String}
    (nonempty : ∀ lexeme ∈ lexemes, lexeme ≠ "")
    (h : ∀ lexeme ∈ lexemes, r.Encodes lexeme (r.token lexeme)) :
    r.encodeAll lexemes = (.ok (lexemes.map r.token), r) := by
  induction lexemes with
  | nil => rfl
  | cons lexeme lexemes ih =>
    obtain ⟨some, others⟩ := List.forall_mem_cons.1 nonempty
    obtain ⟨here, there⟩ := List.forall_mem_cons.1 h
    simp only [encodeAll, encode_of_encodes some here, ih others there, List.map_cons]

/-! ### Lexemes without a code -/

/-- Why a lexeme is given no code: the range of its category is used up, or its code has an owner. -/
def Denies (lexeme : String) (e : RegistryError) : Prop :=
  (∃ last, e = .exhausted (freeCategory lexeme) last) ∨ ∃ code owner, e = .taken code lexeme owner

/-- The lexemes in `before` are encoded one after the other, and then `failing` has no code. -/
structure FailsAt (r : Registry) (lexemes before : List String) (failing : String)
    (e : RegistryError) : Prop where
  cut : ∃ behind, lexemes = before ++ failing :: behind
  passed : (r.encodeAll before).1.isOk
  failed : ((r.encodeAll before).2.encode failing).1 = .error e

theorem encode_of_error {r : Registry} {lexeme : String} {e : RegistryError}
    (h : (r.encode lexeme).1 = .error e) : r.encode lexeme = (.error e, r) := by
  rcases encode_cases r lexeme with ⟨e', failed⟩ | ⟨token, -, found⟩ | ⟨-, given⟩
  · rw [failed] at h ⊢
    cases h
    rfl
  · rw [found] at h
    cases h
  · rw [given] at h
    cases h

theorem denies_of_error {r : Registry} {lexeme : String} {e : RegistryError}
    (h : (r.encode lexeme).1 = .error e) : Denies lexeme e := by
  unfold encode at h
  split at h
  · cases h
  unfold allocate at h
  dsimp only at h
  split at h
  · rename_i outside
    cases h
    unfold checkRange at outside
    dsimp only at outside
    split at outside
    · cases outside
    · cases outside
      exact .inl ⟨_, rfl⟩
  split at h
  · rename_i owned
    cases h
    unfold checkFree at owned
    split at owned
    · cases owned
    · cases owned
      exact .inr ⟨_, _, rfl⟩
  · cases h

theorem encodeAll_of_failsAt {r : Registry} {lexemes before : List String} {failing : String}
    {e : RegistryError} (h : r.FailsAt lexemes before failing e) :
    r.encodeAll lexemes = (.error e, (r.encodeAll before).2) := by
  obtain ⟨⟨behind, rfl⟩, passed, failed⟩ := h
  obtain ⟨tokens, r', encoded⟩ := encodeAll_of_isOk passed
  rw [encoded] at failed
  rw [encodeAll_append, encoded]
  simp only [encodeAll, encode_of_error failed]

theorem encodes_of_failsAt {r : Registry} {lexemes before : List String} {failing : String}
    {e : RegistryError} (nonempty : ∀ lexeme ∈ lexemes, lexeme ≠ "")
    (h : r.FailsAt lexemes before failing e) : ∀ lexeme ∈ before,
      (r.encodeAll before).2.Encodes lexeme ((r.encodeAll before).2.token lexeme) := by
  obtain ⟨⟨behind, rfl⟩, passed, -⟩ := h
  obtain ⟨tokens, r', encoded⟩ := encodeAll_of_isOk passed
  rw [encoded]
  exact (tokens_of_encodeAll (List.forall_mem_append.1 nonempty).1 encoded).2

theorem exists_failsAt {r r' : Registry} {lexemes : List String} {e : RegistryError}
    (h : r.encodeAll lexemes = (.error e, r')) :
    ∃ before failing, r.FailsAt lexemes before failing e := by
  induction lexemes generalizing r with
  | nil => cases h
  | cons lexeme lexemes ih =>
    rw [encodeAll] at h
    rcases encoded : r.encode lexeme with ⟨e' | token, r₁⟩
    · rw [encoded] at h
      cases h
      exact ⟨[], lexeme, ⟨⟨lexemes, rfl⟩, rfl, congrArg (·.1) encoded⟩⟩
    · rw [encoded] at h
      dsimp only at h
      rcases others : r₁.encodeAll lexemes with ⟨e' | tokens, r₂⟩
      · rw [others] at h
        cases h
        obtain ⟨before, failing, ⟨behind, rfl⟩, passed, failed⟩ := ih others
        obtain ⟨tokens, r', encoded'⟩ := encodeAll_of_isOk passed
        have longer : r.encodeAll (lexeme :: before) = (.ok (token :: tokens), r') := by
          simp only [encodeAll, encoded, encoded']
        rw [encoded'] at failed
        refine ⟨lexeme :: before, failing, ⟨behind, rfl⟩, ?_, ?_⟩
        · rw [longer]
          rfl
        · rw [longer]
          exact failed
      · rw [others] at h
        cases h

end LineLang.Registry
