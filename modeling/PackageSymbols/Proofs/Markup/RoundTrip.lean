import PackageSymbols.Proofs.Markup.Readers

/-!
# Written Documents Are Read Back

The text of a script is content that means what the script means, so a document
that is written is read back. Each constructor of scripts is one way to put
content in front of content.

## Theorems

* `isContent_chars`: The text of a script is content.
* `parseWith_chars`: A document that is written is read back, up to positions.
-/

namespace PackageSymbols

namespace Markup

theorem endsText_chars {script : Script} (h : script.beginsWithText = false) :
    EndsText script.chars := by
  cases script with
  | done => exact fun _ _ he => absurd he (by simp only [Script.chars, reduceCtorEq,
      not_false_eq_true])
  | text content more => exact absurd h (by simp only [Script.beginsWithText, reduceCtorEq,
      not_false_eq_true])
  | empty o more => exact fun _ _ he => (List.cons.inj he).1.symm
  | element o inner more => exact fun _ _ he => (List.cons.inj he).1.symm

/-- The text of a script is content, and means what the script means. -/
theorem isContent_chars (script : Script) :
    ∀ {scope : Scope}, script.WellFormed scope →
      IsContent scope script.chars (script.nodes scope) := by
  induction script with
  | done => exact fun _ => .nil
  | text content script ih =>
      intro scope h
      rcases h with ⟨hcontent, hnext, h⟩
      -- The run of text ends at the next tag, as no other text follows.
      exact .text hcontent (ih h) (endsText_chars hnext)
  | empty o script ih => exact fun h => .empty h.1 (ih h.2)
  | element o inner script ihInner ih => exact fun h => .element h.1 (ihInner h.2.1) (ih h.2.2)

/-- No document begins with a byte order mark that was not put there. -/
theorem dropMark_chars {script : Script} {scope : Scope} {head : Head} {content : List Node}
    (hroot : script.nodes scope = [.element head content]) :
    dropMark script.chars = script.chars := by
  have hmark : '<' ≠ byteOrderMark := by decide
  cases script with
  | done => exact absurd hroot (by simp only [Script.nodes, reduceCtorEq, not_false_eq_true])
  | text text rest => exact absurd hroot (by simp only [Script.nodes, List.cons.injEq, reduceCtorEq,
      false_and, not_false_eq_true])
  | empty o rest => rw [Script.chars, dropMark, if_neg hmark]
  | element o inner rest => rw [Script.chars, dropMark, if_neg hmark]

/-- A document that is written is read back, up to positions. -/
theorem parseWith_chars {read : EventReader} (hread : ReadsContent read) {script : Script}
    (h : script.WellFormed Scope.initial) {head : Head} {content : List Node}
    (hroot : script.nodes Scope.initial = [.element head content]) :
    ∃ e, parseWith read (String.ofList script.chars) = .ok e ∧
      e.unplaced = { head := head, content := content } := by
  have hcontent := isContent_chars script h
  rw [hroot] at hcontent
  exact parseWith_of_isContent hread hcontent (dropMark_chars hroot)

end Markup

end PackageSymbols
