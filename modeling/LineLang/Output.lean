/-!
# Output

What a program writes: its results, and beside them its complaints.
-/

namespace LineLang

structure Output where
  out : String := ""
  err : String := ""
  deriving DecidableEq, Repr

namespace Output

instance : Append Output := ⟨fun a b => ⟨a.out ++ b.out, a.err ++ b.err⟩⟩

@[simp] theorem append_empty (output : Output) : output ++ {} = output := by
  show Output.mk (output.out ++ "") (output.err ++ "") = output
  simp

/-- Lines of results. -/
def lines (texts : List String) : Output := { out := String.join (texts.map (· ++ "\n")) }

def complaint (text : String) : Output := { err := text ++ "\n" }

end Output

end LineLang
