import LineLang.Proofs.Arithmetic
import LineLang.Proofs.Expression.Closure

/-!
# Values stay in range

`sound_step`: where the symbols hold 32-bit integers and texts only, so do the stacks of an expression
after every token, and so does the statement that the expression is for.
-/

namespace LineLang

/-- A 32-bit integer or a text. -/
def Value.Sound : Value → Prop
  | .int n => -0x80000000 ≤ n ∧ n ≤ 0x7fffffff
  | .string _ => True
  | .foreign .. => False

instance : DecidablePred Value.Sound
  | .int n => inferInstanceAs (Decidable (-0x80000000 ≤ n ∧ n ≤ 0x7fffffff))
  | .string _ => inferInstanceAs (Decidable True)
  | .foreign .. => inferInstanceAs (Decidable False)

def SymbolTable.Sound (t : SymbolTable) : Prop := ∀ entry ∈ t.entries, entry.2.Sound

instance (t : SymbolTable) : Decidable t.Sound :=
  inferInstanceAs (Decidable (∀ entry ∈ t.entries, entry.2.Sound))

/-! ### Values -/

theorem sound_ofInt (n : Int) : (Value.ofInt n).Sound := (isInt32_iff _).1 (isInt32_wrap n)

theorem sound_zero (ty : Ty) : (Value.zero ty).Sound := by
  cases ty with
  | int => exact sound_ofInt 0
  | string | named => trivial

theorem sound_readLiteral {lexeme : String} {value : Value} (h : readLiteral lexeme = .ok value) :
    value.Sound := by
  unfold readLiteral at h
  split at h
  · cases h
    trivial
  · obtain ⟨n, -, rfl⟩ := map_eq_ok h
    exact sound_ofInt n

/-- Whatever is applied to two values gives a computed integer or a text. -/
theorem sound_apply {role : Role} {left right value : Value} (h : role.apply left right = .ok value) :
    value.Sound := by
  unfold Role.apply at h
  split at h
  · split at h
    · obtain ⟨n, rfl⟩ := ofInt_of_compute h
      exact sound_ofInt n
    · cases h
  · cases h
    trivial

theorem closed_sound : Value.Closed Value.Sound := ⟨sound_zero, fun _ _ => sound_apply⟩

theorem literalHolds_sound (lexeme : String) : LiteralHolds Value.Sound lexeme :=
  fun _ => sound_readLiteral

/-! ### Statements -/

def Stacks.Sound (s : Stacks) : Prop := ∀ value ∈ s.operands, value.Sound

def Phase.Sound : Phase → Prop
  | .expression _ pending => pending.Sound
  | _ => True

def Write.Sound : Write → Prop
  | .declare .. => True
  | .initialise _ _ value | .assign _ value => value.Sound

def Move.Sound : Move → Prop
  | .goOn phase => phase.Sound
  | .complete write => write.Sound

theorem sound_insert {t : SymbolTable} (h : t.Sound) (name : String) {value : Value}
    (sound : value.Sound) : SymbolTable.Sound (t.insert name value) :=
  holds_insert h name sound

theorem sound_finish {d : Dialect} {r : Registry} {s : Stacks} {value : Value} (h : s.Sound)
    (finished : s.finish d r = .ok value) : value.Sound :=
  holds_finish closed_sound h finished

theorem sound_write (target : Target) {value : Value} (h : value.Sound) :
    (target.write value).Sound := by
  cases target <;> exact h

theorem sound_step {d : Dialect} {r : Registry} {t : SymbolTable} (table : t.Sound) {phase : Phase}
    (h : phase.Sound) {token : Token} {move : Move} (step : phase.step d r t token = .ok move) :
    move.Sound :=
  holds_step closed_sound table h (literalHolds_sound _) step

theorem sound_of_run {t t' : SymbolTable} (table : t.Sound) {write : Write} (h : write.Sound)
    {event : Event} (ran : write.run t = .ok (t', event)) : t'.Sound :=
  holds_of_run closed_sound table h ran

end LineLang
