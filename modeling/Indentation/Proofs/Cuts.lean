import Indentation.Proofs.Margins

/-! A text cut around one of its lines: what stands before the line, the blanks up to its margin, and the
rest. The line may be moved or exchanged, and the lines before it and behind it stay as they are. -/
namespace Indentation
open Lexer (feeds)

theorem Line.marginLengthLe (l : Line) : l.marginLength ≤ l.content.length := by
  have low := l.marginLeStop
  rw [Line.margin, Line.stop] at low
  omega

theorem blankBeforeMargin (l : Line) : ∀ c ∈ l.content.take l.marginLength, isBlank c = true := by
  have indents : ∀ c ∈ l.lead, isBlank c = true := fun c member =>
    Lexer.isBlankOfIndent (l.leadIndent c member)
  unfold Line.marginLength
  split
  · rename_i lone
    rw [List.take_length, ← l.leadBody, lone, List.forall_mem_append]
    exact ⟨indents, List.forall_mem_singleton.mpr rfl⟩
  · rwa [← l.leadBody, List.take_left]

namespace Source

structure Cut (t : Text) (n : Nat) (a v b : Text) : Prop where
  text : t = a ++ (v ++ b)
  start : Text.lastLine a = []
  count : feeds a = n
  blank : ∀ c ∈ v, isBlank c = true
  feedless : '\n' ∉ v
  margin : ((ofText t).line n).marginLength = v.length

theorem cutAt {t : Text} {n : Nat} (bound : n ≤ feeds t) : ∃ a v b, Cut t n a v b := by
  obtain ⟨a, b, split, _, count, start, content⟩ := linePlace bound
  have blank := blankBeforeMargin ((ofText t).line n)
  have inside := ((ofText t).line n).marginLengthLe
  rw [← content] at blank inside
  have front := Shape.firstLineTake inside
  rw [front] at blank
  refine ⟨a, b.take ((ofText t).line n).marginLength, b.drop ((ofText t).line n).marginLength, ?_, start, count,
    blank, ?_, ?_⟩
  · rw [List.take_append_drop, ← split]
  · rw [← front]
    exact fun member => Text.firstLineFeedless b (List.mem_of_mem_take member)
  · rw [← front, List.length_take, Nat.min_eq_left inside]

namespace Cut
variable {t a v b : Text} {n : Nat} (cut : Cut t n a v b)
include cut

theorem line : (ofText t).line n = ⟨a.length, v ++ Text.firstLine b⟩ := by
  have line := lineAt a (v ++ b)
  rwa [← cut.text, cut.count, cut.start, Text.firstLineAppend cut.feedless] at line

theorem startEq : ((ofText t).line n).start = a.length := congrArg Line.start cut.line

theorem takeStart : t.take ((ofText t).line n).start = a := by
  rw [cut.line, cut.text, List.take_left]

theorem marginEq : ((ofText t).line n).margin = (a ++ v).length := by
  rw [Line.margin, cut.margin, cut.line, List.length_append]

theorem dropMargin : t.drop ((ofText t).line n).margin = b := by
  rw [cut.marginEq]
  conv_lhs => rw [cut.text]
  rw [← List.append_assoc, List.drop_left]

theorem lineStop : ((ofText t).line n).stop = (a ++ v).length + (Text.firstLine b).length := by
  rw [Line.stop, cut.line]
  simp only [List.length_append]
  omega

theorem dropStop {u : Text} (split : b = Text.firstLine b ++ u) : t.drop ((ofText t).line n).stop = u := by
  have whole : t = a ++ v ++ Text.firstLine b ++ u := by
    rw [List.append_assoc (a ++ v), ← split, List.append_assoc, ← cut.text]
  rw [cut.lineStop, ← List.length_append]
  conv_lhs => rw [whole]
  rw [List.drop_left]

theorem isBlankIff : ((ofText t).line n).isBlank = true ↔ Text.firstLine b = [] := by
  rw [Line.isBlank, beq_iff_eq, cut.marginEq, cut.lineStop, ← List.length_eq_zero_iff]
  omega

theorem bodyEq (shown : ((ofText t).line n).isBlank = false) :
    ((ofText t).line n).lead = v ∧ ((ofText t).line n).body = Text.firstLine b := by
  have whole := ((ofText t).line n).leadBody
  have length := cut.margin
  rw [Line.marginLengthOf shown] at length
  have content : ((ofText t).line n).content = v ++ Text.firstLine b := by rw [cut.line]
  rw [content] at whole
  exact List.append_inj whole length

end Cut

variable {t : Text} {n : Nat}

theorem linesSplice (bound : n ≤ feeds t) {x : Text} (feedless : '\n' ∉ x) :
    Text.lines (t.take ((ofText t).line n).start ++ x ++ t.drop ((ofText t).line n).stop) =
      (Text.lines t).set n x := by
  obtain ⟨a, v, b, cut⟩ := cutAt bound
  obtain ⟨u, split, ends⟩ := Text.firstLineRest b
  obtain ⟨ls, ls', length, around⟩ := Text.linesAround a u
  have old := around (v ++ Text.firstLine b) (by simp [cut.feedless, Text.firstLineFeedless])
  have new := around x feedless
  rw [List.append_assoc v, ← split, ← cut.text] at old
  rw [cut.takeStart, cut.dropStop split, List.append_assoc, new, old, ← cut.count, ← length,
    List.set_append_right _ _ (Nat.le_refl _), Nat.sub_self, List.set_cons_zero, cut.start, ends,
    List.nil_append, List.append_nil]

theorem moveSplice (bound : n ≤ feeds t) (shown : ((ofText t).line n).isBlank = false) (w : Nat) :
    t.take ((ofText t).line n).start ++ List.replicate w ' ' ++ t.drop ((ofText t).line n).margin =
      t.take ((ofText t).line n).start ++ ((ofText t).line n).moved w ++ t.drop ((ofText t).line n).stop := by
  obtain ⟨a, v, b, cut⟩ := cutAt bound
  obtain ⟨u, split, _⟩ := Text.firstLineRest b
  rw [cut.takeStart, cut.dropMargin, cut.dropStop split, Line.moved, (cut.bodyEq shown).2, List.append_assoc,
    List.append_assoc, List.append_assoc, ← split]

end Source
end Indentation
