import LineLang.Prompt

/-!
# Replies of the prompt

The prompt replies to every typed line, up to one that cannot be encoded. `converse_eq_replies`: what is
written, and how it ends, is read off the replies.
-/

namespace LineLang

namespace Reply

/-- How some replies end: with the failure of the last one, if it has failed. -/
def failureOf (replies : List Reply) : Option RegistryError := replies.getLast?.bind Reply.failure

/-- What is written: a cue ahead of every reply, and one ahead of the end of input. -/
def outputOf (replies : List Reply) : Output :=
  replies.foldr (fun reply rest => ({ out := Prompt.cue } : Output) ++ reply.output ++ rest)
    (if (failureOf replies).isSome then {} else { out := Prompt.cue ++ "\n" })

variable {replies : List Reply}

theorem failureOf_append (passed : failureOf replies = none) (others : List Reply) :
    failureOf (replies ++ others) = failureOf others := by
  rw [failureOf, List.getLast?_append]
  cases last : others.getLast? with
  | none => simpa [failureOf, last] using passed
  | some reply => simp [failureOf, last]

end Reply

namespace Prompt

/-- The replies to typed lines. -/
def replies (p : Prompt) : List String → List Reply
  | [] => []
  | line :: lines =>
    let reply := p.answer line
    if reply.failure.isSome then [reply] else reply :: reply.prompt.replies lines

/-- The prompt that replies have left. -/
def behind (p : Prompt) (replies : List Reply) : Prompt :=
  (replies.getLast?.map Reply.prompt).getD p

theorem behind_singleton (p : Prompt) (reply : Reply) : p.behind [reply] = reply.prompt := rfl

theorem behind_append (p : Prompt) (replies others : List Reply) :
    p.behind (replies ++ others) = (p.behind replies).behind others := by
  rw [behind, behind, List.getLast?_append]
  cases others.getLast? with
  | none => rfl
  | some reply => rfl

section Cons

variable {p : Prompt} {line : String} (lines : List String)

theorem replies_cons_of_failed {e : RegistryError} (failed : Reply.failureOf [p.answer line] = some e) :
    p.replies (line :: lines) = [p.answer line] := by
  have failed : (p.answer line).failure = some e := failed
  simp [replies, failed]

theorem replies_cons_of_passed (passed : Reply.failureOf [p.answer line] = none) :
    p.replies (line :: lines) = [p.answer line] ++ (p.answer line).prompt.replies lines := by
  have passed : (p.answer line).failure = none := passed
  simp [replies, passed]

end Cons

section Append

variable {p : Prompt} {front : List String} (back : List String)

theorem replies_append_of_failed {e : RegistryError}
    (failed : Reply.failureOf (p.replies front) = some e) :
    p.replies (front ++ back) = p.replies front := by
  induction front generalizing p with
  | nil => cases failed
  | cons line front ih =>
    cases outcome : Reply.failureOf [p.answer line] with
    | some e => rw [List.cons_append, replies_cons_of_failed _ outcome, replies_cons_of_failed _ outcome]
    | none =>
      rw [replies_cons_of_passed _ outcome, Reply.failureOf_append outcome] at failed
      rw [List.cons_append, replies_cons_of_passed _ outcome, replies_cons_of_passed _ outcome, ih failed]

theorem replies_append_of_passed (passed : Reply.failureOf (p.replies front) = none) :
    p.replies (front ++ back) = p.replies front ++ (p.behind (p.replies front)).replies back := by
  induction front generalizing p with
  | nil => rfl
  | cons line front ih =>
    cases outcome : Reply.failureOf [p.answer line] with
    | some e =>
      rw [replies_cons_of_failed _ outcome, outcome] at passed
      cases passed
    | none =>
      rw [replies_cons_of_passed _ outcome, Reply.failureOf_append outcome] at passed
      rw [List.cons_append, replies_cons_of_passed _ outcome, replies_cons_of_passed _ outcome, ih passed,
        behind_append, List.append_assoc]
      rfl

end Append

theorem length_replies_of_passed {p : Prompt} {lines : List String}
    (passed : Reply.failureOf (p.replies lines) = none) : (p.replies lines).length = lines.length := by
  induction lines generalizing p with
  | nil => rfl
  | cons line lines ih =>
    cases outcome : Reply.failureOf [p.answer line] with
    | some e =>
      rw [replies_cons_of_failed _ outcome, outcome] at passed
      cases passed
    | none =>
      rw [replies_cons_of_passed _ outcome, Reply.failureOf_append outcome] at passed
      rw [replies_cons_of_passed _ outcome, List.length_append, ih passed, List.length_cons, Nat.add_comm]
      rfl

theorem replies_singleton (p : Prompt) (line : String) : p.replies [line] = [p.answer line] := by
  simp [replies]

/-- The line that ends the prompt is the last one that has a reply. -/
theorem exists_failed_reply {p : Prompt} {lines : List String} {e : RegistryError}
    (failed : Reply.failureOf (p.replies lines) = some e) :
    ∃ front line back, lines = front ++ line :: back ∧ Reply.failureOf (p.replies front) = none ∧
      Reply.failureOf (p.replies (front ++ [line])) = some e ∧
        p.replies lines = p.replies (front ++ [line]) := by
  induction lines generalizing p with
  | nil => cases failed
  | cons line lines ih =>
    cases outcome : Reply.failureOf [p.answer line] with
    | some e' =>
      rw [replies_cons_of_failed _ outcome, ← replies_singleton] at failed
      refine ⟨[], line, lines, rfl, rfl, failed, ?_⟩
      rw [List.nil_append, replies_singleton, replies_cons_of_failed _ outcome]
    | none =>
      have behind (lines : List String) := replies_cons_of_passed lines outcome
      rw [behind, Reply.failureOf_append outcome] at failed
      obtain ⟨front, other, back, rfl, passed, failed', same⟩ := ih failed
      refine ⟨line :: front, other, back, rfl, ?_, ?_, ?_⟩
      · rw [behind, Reply.failureOf_append outcome, passed]
      · rw [List.cons_append, behind, Reply.failureOf_append outcome, failed']
      · rw [List.cons_append, behind, behind, same]

theorem converse_eq_replies (p : Prompt) (lines : List String) :
    p.converse lines =
      (Reply.outputOf (p.replies lines), Reply.failureOf (p.replies lines)) := by
  induction lines generalizing p with
  | nil => rfl
  | cons line lines ih =>
    cases outcome : Reply.failureOf [p.answer line] with
    | some e =>
      have failed : (p.answer line).failure = some e := outcome
      rw [replies_cons_of_failed _ outcome, Reply.outputOf, outcome]
      simp [converse, failed]
    | none =>
      have passed : (p.answer line).failure = none := outcome
      rw [replies_cons_of_passed _ outcome, Reply.outputOf, Reply.failureOf_append outcome]
      simp [converse, passed, ih, Reply.outputOf]

end Prompt

end LineLang
