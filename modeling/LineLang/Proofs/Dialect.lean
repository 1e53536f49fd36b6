import LineLang.Dialect
import LineLang.Proofs.Registry.Encoding

/-!
# Roles of lexemes

The dialect of a registry gives roles to codes. `get?_roles_iff_hasRole` says them of lexemes
instead: a special role belongs to the lexemes that were registered for it when the dialect was
made, whatever their codes.
-/

namespace LineLang.Dialect
open Registry (Reachable Leads Encodes Coherent SameReserved)

/-- A lexeme was registered in the category that a special role asks for. -/
def HasRole (made : Registry) (lexeme : String) (role : Role) : Prop :=
  ∃ category, (category, lexeme, role) ∈ specialLexemes ∧ (made.codeFor category lexeme).isSome

theorem hasRole_congr {made made' : Registry} (same : made.SameReserved made') (lexeme : String)
    (role : Role) : HasRole made lexeme role ↔ HasRole made' lexeme role := by
  obtain ⟨keywords, operators⟩ := Registry.sameReserved_iff.1 same
  refine exists_congr fun category => and_congr_right fun special => ?_
  cases category with
  | keyword => rw [keywords]
  | operator => rw [operators]
  | symbol | literal => simp [specialLexemes] at special

theorem special_unique : ∀ entry ∈ specialLexemes, ∀ other ∈ specialLexemes,
    entry.2.1 = other.2.1 → entry = other := by decide

theorem special_category : ∀ entry ∈ specialLexemes,
    entry.1 = .keyword ∨ entry.1 = .operator := by decide

theorem role_unique : ∀ entry ∈ specialLexemes, ∀ other ∈ specialLexemes,
    entry.2.2 = other.2.2 → entry = other := by decide

theorem special_role : ∀ entry ∈ specialLexemes,
    entry.2.2 ≠ .name ∧ entry.2.2 ≠ .literal ∧ entry.2.2 ≠ .other := by decide

theorem get?_roles_iff {made : Registry} (h : made.Coherent) (code : Int) (role : Role) :
    (ofRegistry made).roles.get? code = some role ↔
      ∃ category lexeme, (category, lexeme, role) ∈ specialLexemes ∧
        made.codeFor category lexeme = some code := by
  have listed : ∀ (code : Int) (role : Role), (code, role) ∈ specialLexemes.filterMap
      (fun entry => (made.codeFor entry.1 entry.2.1).map (·, entry.2.2)) ↔
        ∃ category lexeme, (category, lexeme, role) ∈ specialLexemes ∧
          made.codeFor category lexeme = some code := by
    intro code role
    simp only [List.mem_filterMap, Option.map_eq_some_iff, Prod.mk.injEq, Prod.exists]
    constructor
    · rintro ⟨category, lexeme, _, special, _, given, rfl, rfl⟩
      exact ⟨category, lexeme, special, given⟩
    · rintro ⟨category, lexeme, special, given⟩
      exact ⟨category, lexeme, role, special, code, given, rfl, rfl⟩
  rw [← listed]
  apply Table.get?_ofList_eq_some_iff
  intro code role role' one two
  obtain ⟨category, lexeme, special, given⟩ := (listed code role).1 one
  obtain ⟨category', lexeme', special', given'⟩ := (listed code role').1 two
  obtain ⟨-, rfl⟩ := Registry.eq_of_codeFor h given given'
  have same := special_unique _ special _ special' rfl
  exact congrArg (·.2.2) same

theorem categoryFor_of_isSome {r : Registry} (h : r.Coherent) {category : Category}
    {lexeme : String} (reserved : category = .keyword ∨ category = .operator)
    (given : (r.codeFor category lexeme).isSome) : r.categoryFor lexeme = category := by
  rcases reserved with rfl | rfl
  · rw [Registry.categoryFor, if_pos given]
  · rcases h.disjoint lexeme with keyword | operator
    · simp [Registry.categoryFor, keyword, given]
    · rw [operator] at given
      cases given

/-- A registered lexeme has its token from the start. -/
theorem encodes_of_isSome {made r : Registry} (reachable : made.Reachable) (leads : made.Leads r)
    {category : Category} {lexeme : String} (reserved : category = .keyword ∨ category = .operator)
    (given : (made.codeFor category lexeme).isSome) : r.Encodes lexeme (r.token lexeme) := by
  have coherent := Registry.coherent_of_reachable (Registry.reachable_of_leads reachable leads)
  obtain ⟨code, given⟩ := Option.isSome_iff_exists.1 given
  have now := Registry.codeFor_of_grows (Registry.grows_of_leads leads) given
  have falls := categoryFor_of_isSome coherent reserved (by rw [now]; rfl)
  exact Registry.encodes_token (by rw [falls, now]; rfl)

/-- The code of a lexeme has a special role if and only if the lexeme has it. -/
theorem get?_roles_iff_hasRole {made r : Registry} (reachable : made.Reachable)
    (leads : made.Leads r) {lexeme : String} {token : Token} (h : r.Encodes lexeme token)
    (role : Role) :
    (ofRegistry made).roles.get? token.code = some role ↔ HasRole made lexeme role := by
  have coherent := Registry.coherent_of_reachable (Registry.reachable_of_leads reachable leads)
  have grows := Registry.grows_of_leads leads
  rw [get?_roles_iff (Registry.coherent_of_reachable reachable)]
  constructor
  · rintro ⟨category, word, special, given⟩
    obtain ⟨-, rfl⟩ :=
      Registry.eq_of_codeFor coherent (Registry.codeFor_of_grows grows given) h.codeFor_eq
    exact ⟨category, special, by rw [given]; rfl⟩
  · rintro ⟨category, special, some⟩
    obtain ⟨code, given⟩ := Option.isSome_iff_exists.1 some
    have now := Registry.codeFor_of_grows grows given
    have falls := categoryFor_of_isSome coherent (special_category _ special) (by rw [now]; rfl)
    have own := h.codeFor_eq
    rw [falls, now] at own
    exact ⟨category, lexeme, special, by rw [given, own]⟩

theorem classify_of_hasRole {made r : Registry} (reachable : made.Reachable) (leads : made.Leads r)
    {lexeme : String} {token : Token} (h : r.Encodes lexeme token) {role : Role}
    (has : HasRole made lexeme role) : (ofRegistry made).classify token = role := by
  rw [classify, (get?_roles_iff_hasRole reachable leads h role).2 has]

/-- A token is in a special role by its code only. -/
theorem get?_of_classify {d : Dialect} {token : Token} {role : Role}
    (special : role ≠ .name ∧ role ≠ .literal ∧ role ≠ .other) (h : d.classify token = role) :
    d.roles.get? token.code = some role := by
  unfold classify at h
  split at h
  · rename_i found
    rw [found, h]
  · split at h
    · split at h <;> simp [← h] at special
    all_goals simp [← h] at special

/-- Only its own lexeme has a special role. -/
theorem lexeme_of_classify {made r : Registry} (reachable : made.Reachable) (leads : made.Leads r)
    {lexeme : String} {token : Token} (h : r.Encodes lexeme token) {category : Category}
    {word : String} {role : Role} (special : (category, word, role) ∈ specialLexemes)
    (classified : (ofRegistry made).classify token = role) : lexeme = word := by
  have given := get?_of_classify (special_role _ special) classified
  obtain ⟨other, special', -⟩ := (get?_roles_iff_hasRole reachable leads h role).1 given
  exact congrArg (·.2.1) (role_unique _ special' _ special rfl)

/-! ### The same lexeme in two registries -/

section Congruence

variable {made made' r r' : Registry} (reachable : made.Reachable) (reachable' : made'.Reachable)
  (leads : made.Leads r) (leads' : made'.Leads r') (sameMade : made.SameReserved made')
include reachable reachable' leads leads' sameMade

theorem get?_roles_congr {lexeme : String} {token token' : Token} (h : r.Encodes lexeme token)
    (h' : r'.Encodes lexeme token') :
    (ofRegistry made).roles.get? token.code = (ofRegistry made').roles.get? token'.code := by
  ext role
  rw [get?_roles_iff_hasRole reachable leads h, get?_roles_iff_hasRole reachable' leads' h',
    hasRole_congr sameMade]

theorem classify_congr (same : r.SameReserved r') {lexeme : String} {token token' : Token}
    (h : r.Encodes lexeme token) (h' : r'.Encodes lexeme token') :
    (ofRegistry made).classify token = (ofRegistry made').classify token' := by
  have category : token.category = token'.category := by
    rw [h.category_eq, h'.category_eq, Registry.categoryFor_congr same]
  rw [classify, classify, get?_roles_congr reachable reachable' leads leads' sameMade h h', category,
    h.lexeme_eq, h'.lexeme_eq]

end Congruence

theorem weight_ofRegistry (made : Registry) (code : Int) :
    (ofRegistry made).weight code = standardWeight := by
  unfold weight ofRegistry
  cases made.codeFor .operator "+" with
  | none => rfl
  | some plus =>
    simp only [Option.map_some, Option.toList_some, Table.get?_ofList, List.reverse_singleton,
      List.lookup_cons]
    split <;> rfl

/-! ### The complete vocabulary -/

/-- Every special lexeme is registered in the category that its role asks for. -/
def Complete (made : Registry) : Prop :=
  ∀ entry ∈ specialLexemes, (made.codeFor entry.1 entry.2.1).isSome

/-- The special lexemes have their roles, and their codes can be read back. -/
structure Knows (d : Dialect) (r : Registry) : Prop where
  role : ∀ category lexeme role, (category, lexeme, role) ∈ specialLexemes →
    d.roles.get? (r.token lexeme).code = some role
  decode : ∀ category lexeme role, (category, lexeme, role) ∈ specialLexemes →
    r.decode (r.token lexeme).code = some lexeme
  weight : ∀ code, d.weight code = standardWeight

theorem knows_of_complete {made r : Registry} (reachable : made.Reachable) (leads : made.Leads r)
    (complete : Complete made) : (ofRegistry made).Knows r := by
  have coherent := Registry.coherent_of_reachable (Registry.reachable_of_leads reachable leads)
  have encoded : ∀ category lexeme role, (category, lexeme, role) ∈ specialLexemes →
      r.Encodes lexeme (r.token lexeme) := fun category _ _ special =>
    encodes_of_isSome reachable leads (special_category _ special) (complete _ special)
  constructor
  · intro category lexeme role special
    exact (get?_roles_iff_hasRole reachable leads (encoded _ _ _ special) role).2
      ⟨category, special, complete _ special⟩
  · intro category lexeme role special
    exact Registry.decode_of_codeFor coherent (encoded _ _ _ special).codeFor_eq
  · exact weight_ofRegistry made

theorem Knows.classify_eq {d : Dialect} {r : Registry} (knows : d.Knows r) {category : Category}
    {lexeme : String} {role : Role} (special : (category, lexeme, role) ∈ specialLexemes) :
    d.classify (r.token lexeme) = role := by
  rw [classify, knows.role category lexeme role special]

end LineLang.Dialect
