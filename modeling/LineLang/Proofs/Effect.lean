import LineLang.Recognizer

/-!
# What an event does to the symbols

`effect_of_run`: a completed statement that succeeds declares a new name or changes the value of one,
and `keeps_of_effect`: no name is lost or changes its type.
-/

namespace LineLang

inductive Event.Effect (t : SymbolTable) : Event → SymbolTable → Prop where
  | declared {name : String} {value : Value} :
      t.get? name = none → Effect t (.declared name value) (t.insert name value)
  | initialised {name : String} {value : Value} :
      t.get? name = none → Effect t (.initialised name value) (t.insert name value)
  | assigned {name : String} {old value : Value} :
      t.get? name = some old → old.ty = value.ty → Effect t (.assigned name value) (t.insert name value)
  | rejected (fault : Fault) (lexeme : String) : Effect t (.rejected fault lexeme) t
  | unterminated (fault : Fault) : Effect t (.unterminated fault) t

theorem declare_eq_ok {t t' : SymbolTable} {name : String} {value : Value}
    (h : t.declare name value = .ok t') : t.get? name = none ∧ t' = t.insert name value := by
  unfold SymbolTable.declare at h
  split at h
  · cases h
  · rename_i absent
    cases h
    exact ⟨by simpa [Table.contains] using absent, rfl⟩

theorem assign_eq_ok {t t' : SymbolTable} {name : String} {value : Value}
    (h : t.assign name value = .ok t') :
    ∃ old, t.get? name = some old ∧ old.ty = value.ty ∧ t' = t.insert name value := by
  unfold SymbolTable.assign at h
  split at h
  · cases h
  · rename_i old present
    split at h
    · rename_i fits
      cases h
      exact ⟨old, present, fits, rfl⟩
    · cases h

theorem map_eq_ok {ε α β : Type} {f : α → β} {x : Except ε α} {b : β} (h : x.map f = .ok b) :
    ∃ a, x = .ok a ∧ f a = b := by
  cases x with
  | error e => cases h
  | ok a =>
    cases h
    exact ⟨a, rfl, rfl⟩

theorem mapError_eq_ok {ε ε' α : Type} {x : Except ε α} {f : ε → ε'} {a : α}
    (h : x.mapError f = .ok a) : x = .ok a := by
  cases x with
  | error e => cases h
  | ok b =>
    cases h
    rfl

theorem bind_eq_ok {ε α β : Type} {x : Except ε α} {next : α → Except ε β} {b : β}
    (h : x >>= next = .ok b) : ∃ a, x = .ok a ∧ next a = .ok b := by
  cases x with
  | error e => cases h
  | ok a => exact ⟨a, rfl, h⟩

/-- A completed statement writes one name: a new one, or one that has the type of the value. -/
theorem run_eq_ok {t t' : SymbolTable} {write : Write} {event : Event}
    (h : write.run t = .ok (t', event)) :
    (∃ ty name, write = .declare ty name ∧ t.get? name = none ∧ t' = t.insert name (.zero ty) ∧
        event = .declared name (.zero ty)) ∨
      (∃ name value, write = .initialise value.ty name value ∧ t.get? name = none ∧
        t' = t.insert name value ∧ event = .initialised name value) ∨
      ∃ name old value, write = .assign name value ∧ t.get? name = some old ∧ old.ty = value.ty ∧
        t' = t.insert name value ∧ event = .assigned name value := by
  unfold Write.run at h
  cases write with
  | declare ty name =>
    obtain ⟨_, written, same⟩ := map_eq_ok h
    obtain ⟨absent, rfl⟩ := declare_eq_ok written
    cases same
    exact .inl ⟨ty, name, rfl, absent, rfl, rfl⟩
  | initialise ty name value =>
    dsimp only at h
    split at h
    · rename_i fits
      subst fits
      obtain ⟨_, written, same⟩ := map_eq_ok h
      obtain ⟨absent, rfl⟩ := declare_eq_ok written
      cases same
      exact .inr (.inl ⟨name, value, rfl, absent, rfl, rfl⟩)
    · cases h
  | assign name value =>
    obtain ⟨_, written, same⟩ := map_eq_ok h
    obtain ⟨old, present, fits, rfl⟩ := assign_eq_ok written
    cases same
    exact .inr (.inr ⟨name, old, value, rfl, present, fits, rfl, rfl⟩)

theorem effect_of_run {t t' : SymbolTable} {write : Write} {event : Event}
    (h : write.run t = .ok (t', event)) : event.Effect t t' := by
  obtain ⟨ty, name, -, absent, rfl, rfl⟩ | ⟨name, value, -, absent, rfl, rfl⟩ |
    ⟨name, old, value, -, present, fits, rfl, rfl⟩ := run_eq_ok h
  · exact .declared absent
  · exact .initialised absent
  · exact .assigned present fits

def SymbolTable.Keeps (t t' : SymbolTable) : Prop :=
  ∀ name value, t.get? name = some value → ∃ value', t'.get? name = some value' ∧ value'.ty = value.ty

theorem keeps_refl (t : SymbolTable) : t.Keeps t := fun _ value present => ⟨value, present, rfl⟩

theorem keeps_trans {t₁ t₂ t₃ : SymbolTable} (h₁ : t₁.Keeps t₂) (h₂ : t₂.Keeps t₃) : t₁.Keeps t₃ := by
  intro name value present
  obtain ⟨value', present', fits⟩ := h₁ name value present
  obtain ⟨value'', present'', fits'⟩ := h₂ name value' present'
  exact ⟨value'', present'', fits'.trans fits⟩

theorem keeps_insert {t : SymbolTable} {name : String} {value : Value}
    (fits : ∀ old, t.get? name = some old → old.ty = value.ty) : t.Keeps (t.insert name value) := by
  intro word old present
  rw [Table.get?_insert]
  split
  · rename_i same
    subst same
    exact ⟨value, rfl, (fits old present).symm⟩
  · exact ⟨old, present, rfl⟩

theorem keeps_of_effect {t t' : SymbolTable} {event : Event} (h : event.Effect t t') : t.Keeps t' := by
  cases h with
  | declared absent | initialised absent => exact keeps_insert fun old present => by simp_all
  | assigned present fits => exact keeps_insert fun old found => by simp_all
  | rejected | unterminated => exact keeps_refl t

end LineLang
