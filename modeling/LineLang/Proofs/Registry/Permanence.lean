import LineLang.Proofs.Registry.Encoding
import LineLang.Proofs.Registry.Numbering

/-!
# Codes are permanent

`permanent_of_operations`: what a registry has given out stays as it is, whatever is done later and
whatever of it fails. A lexeme keeps its token for as long as it is not registered.
-/

namespace LineLang.Registry

/-! ### Nothing is taken back -/

/-- Every code of a registry stands for the same in a later one, and every table goes on behind its end. -/
structure KeptBy (r r' : Registry) : Prop where
  owner_eq : ∀ code lexeme, r.decode code = some lexeme →
    r'.decode code = some lexeme ∧ r'.categoryOf code = r.categoryOf code
  entries_kept : ∀ category, (r.table category).entries <+: (r'.table category).entries

theorem keptBy_refl (r : Registry) : r.KeptBy r :=
  ⟨fun _ _ decoded => ⟨decoded, rfl⟩, fun _ => List.prefix_rfl⟩

theorem keptBy_trans {r₁ r₂ r₃ : Registry} (h₁ : r₁.KeptBy r₂) (h₂ : r₂.KeptBy r₃) :
    r₁.KeptBy r₃ := by
  refine ⟨fun code lexeme decoded => ?_,
    fun category => (h₁.entries_kept category).trans (h₂.entries_kept category)⟩
  obtain ⟨first, category⟩ := h₁.owner_eq code lexeme decoded
  obtain ⟨second, category'⟩ := h₂.owner_eq code lexeme first
  exact ⟨second, category'.trans category⟩

theorem keptBy_assign {r : Registry} {category : Category} {lexeme : String}
    (admitted : r.Admits category lexeme) : r.KeptBy (r.assign category lexeme) := by
  constructor
  · intro code word decoded
    have old : code ≠ r.next category := by
      rintro rfl
      rw [decode, admitted.free] at decoded
      cases decoded
    rw [decode, categoryOf, get?_owners_assign, if_neg old]
    exact ⟨decoded, rfl⟩
  · intro other
    rw [table_assign]
    split
    · rename_i same
      subst same
      rw [Table.entries_insert_of_not_mem _ _ ((Table.get?_eq_none_iff _ _).1 admitted.fresh)]
      exact List.prefix_append _ _
    · exact List.prefix_rfl

theorem keptBy_of_grows {r r' : Registry} (grows : Grows r r') : r.KeptBy r' := by
  induction grows with
  | refl r => exact keptBy_refl r
  | assign admitted _ ih => exact keptBy_trans (keptBy_assign admitted) ih

/-! ### A token lasts until its lexeme is registered -/

/-- The operation succeeds in registering the lexeme. -/
def Registers (r : Registry) (lexeme : String) : Operation → Prop
  | .registerKeywords batch => (r.registerKeywords batch).1.isOk ∧ lexeme ∈ batch
  | .registerOperators batch => (r.registerOperators batch).1.isOk ∧ lexeme ∈ batch
  | .encode _ => False

instance (r : Registry) (lexeme : String) :
    (operation : Operation) → Decidable (r.Registers lexeme operation)
  | .registerKeywords _ => inferInstanceAs (Decidable (_ ∧ _))
  | .registerOperators _ => inferInstanceAs (Decidable (_ ∧ _))
  | .encode _ => inferInstanceAs (Decidable False)

/-- None of the operations, done one after the other, registers the lexeme. -/
def Spares (r : Registry) (lexeme : String) : List Operation → Prop
  | [] => True
  | operation :: operations =>
    ¬r.Registers lexeme operation ∧ (r.perform operation).Spares lexeme operations

instance decidableSpares (lexeme : String) :
    (r : Registry) → (operations : List Operation) → Decidable (r.Spares lexeme operations)
  | _, [] => inferInstanceAs (Decidable True)
  | r, operation :: operations =>
    have := decidableSpares lexeme (r.perform operation) operations
    inferInstanceAs (Decidable (_ ∧ _))

theorem codeFor_foldl_assign {category : Category} {batch : List String} {word : String}
    (absent : word ∉ batch) (r : Registry) (other : Category) :
    (batch.foldl (fun r lexeme => r.assign category lexeme) r).codeFor other word =
      r.codeFor other word := by
  induction batch generalizing r with
  | nil => rfl
  | cons lexeme lexemes ih =>
    rw [List.mem_cons, not_or] at absent
    rw [List.foldl_cons, ih absent.2, codeFor_assign, if_neg fun same => absent.1 same.2]

theorem codeFor_register {r : Registry} {category : Category} {batch : List String} {lexeme : String}
    (spared : ¬((r.register category batch).1.isOk ∧ lexeme ∈ batch)) (other : Category) :
    (r.register category batch).2.codeFor other lexeme = r.codeFor other lexeme := by
  rw [register_eq] at spared ⊢
  split
  · rfl
  · rename_i checked
    rw [checked] at spared
    exact codeFor_foldl_assign (fun member => spared ⟨rfl, member⟩) r other

theorem categoryFor_register {r : Registry} {category : Category} {batch : List String}
    {lexeme : String} (spared : ¬((r.register category batch).1.isOk ∧ lexeme ∈ batch)) :
    (r.register category batch).2.categoryFor lexeme = r.categoryFor lexeme := by
  rw [categoryFor, codeFor_register spared, codeFor_register spared, categoryFor]

theorem categoryFor_perform {r : Registry} {lexeme : String} {operation : Operation}
    (spared : ¬r.Registers lexeme operation) :
    (r.perform operation).categoryFor lexeme = r.categoryFor lexeme := by
  cases operation with
  | registerKeywords batch => exact categoryFor_register spared
  | registerOperators batch => exact categoryFor_register spared
  | encode word => exact (categoryFor_congr (sameReserved_encode r word) lexeme).symm

theorem encodes_perform {r : Registry} {lexeme : String} {token : Token} {operation : Operation}
    (h : r.Encodes lexeme token) (spared : ¬r.Registers lexeme operation) :
    (r.perform operation).Encodes lexeme token where
  lexeme_eq := h.lexeme_eq
  category_eq := by rw [categoryFor_perform spared, h.category_eq]
  codeFor_eq := by
    rw [categoryFor_perform spared, codeFor_of_grows (grows_perform r operation) h.codeFor_eq]

theorem encodes_of_spares {r : Registry} {lexeme : String} {token : Token}
    {operations : List Operation} (h : r.Encodes lexeme token) (spared : r.Spares lexeme operations) :
    (operations.foldl perform r).Encodes lexeme token := by
  induction operations generalizing r with
  | nil => exact h
  | cons operation operations ih => exact ih (encodes_perform h spared.1) spared.2

/-- Later operations keep all codes and all tables. A lexeme that was encoded can be read back from its
code, and until it is registered it is encoded as the same token without a change to the registry. -/
theorem permanent_of_operations (config : Config) (earlier later : List Operation) :
    let r := earlier.foldl perform (empty config)
    r.KeptBy (later.foldl perform r) ∧
      ∀ lexeme token r₁, lexeme ≠ "" → r.encode lexeme = (.ok token, r₁) →
        r₁.decode token.code = some lexeme ∧
          (r₁.Spares lexeme later →
            (later.foldl perform r₁).encode lexeme = (.ok token, later.foldl perform r₁)) := by
  intro r
  have reachable : r.Reachable := ⟨config, earlier, rfl⟩
  refine ⟨keptBy_of_grows (grows_of_leads ⟨later, rfl⟩), ?_⟩
  intro lexeme token r₁ nonempty encoded
  have here := encodes_of_encode nonempty encoded
  have leads := leads_encode r lexeme
  rw [encoded] at leads
  have coherent := coherent_of_reachable (reachable_of_leads reachable leads)
  refine ⟨decode_of_codeFor coherent here.codeFor_eq, fun spared => ?_⟩
  have there := encodes_of_spares here spared
  obtain rfl := eq_token_of_encodes there
  exact encode_of_encodes nonempty there

/-- The range of keywords reaches into that of symbols. Once `x` has the only free code of both, it is
not registered any more, and no literal is encoded. -/
theorem token_kept_past_failures :
    let r := [Operation.registerKeywords ["int"]].foldl perform
      (empty ⟨⟨1, 2, by decide⟩, ⟨9, 9, by decide⟩, ⟨2, 8, by decide⟩, ⟨2, 2, by decide⟩⟩)
    let later := [Operation.registerKeywords ["x"], .encode "7", .encode "y"]
    let r₁ := (r.encode "x").2
    r.encode "x" = (.ok ⟨"x", some .symbol, 2⟩, r₁) ∧ r₁.Spares "x" later ∧
      (later.foldl perform r₁).encode "x" =
        (.ok ⟨"x", some .symbol, 2⟩, later.foldl perform r₁) := by
  intro r later r₁
  have encoded : r.encode "x" = (.ok ⟨"x", some .symbol, 2⟩, r₁) := rfl
  have spared : r₁.Spares "x" later := by decide +kernel
  obtain ⟨-, kept⟩ := permanent_of_operations
    ⟨⟨1, 2, by decide⟩, ⟨9, 9, by decide⟩, ⟨2, 8, by decide⟩, ⟨2, 2, by decide⟩⟩
    [.registerKeywords ["int"]] later
  exact ⟨encoded, spared, (kept "x" _ r₁ (by decide) encoded).2 spared⟩

/-- A lexeme that is registered later has a new token from then on. -/
example :
    let r := ((empty .standard).encode "x").2
    r.codeFor .symbol "x" = some 300 ∧
      ((r.registerKeywords ["x"]).2.encode "x").1 = .ok ⟨"x", some .keyword, 100⟩ := by decide +kernel

end LineLang.Registry
