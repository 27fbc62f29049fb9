import Indentation.Proofs.Lexemes

/-! Where tokens stand. Reading goes from token to token, so facts about all tokens of a text are
proved by one induction: on the end of the text, on a blank in front, on a lexeme in front. Each
token is a stretch of the text that begins at its offset, on its line, with a visible character, and
it ends before the next one starts. -/
namespace Indentation
open Lexer (feeds tokensFrom)
open Text

namespace Lexer

theorem blankEqFalse {c : Char} (visible : isBlank c = false) : c ≠ '\n' ∧ isIndent c = false := by
  have others : c ≠ ' ' ∧ c ≠ '\t' ∧ c ≠ '\x0c' ∧ c ≠ '\r' ∧ c ≠ '\n' := by
    simpa [isBlank] using visible
  simp [isIndent, others]

theorem isBlankOfIndent {c : Char} (indent : isIndent c = true) : isBlank c = true := by
  have either : c = ' ' ∨ c = '\t' := by simpa [isIndent] using indent
  rcases either with rfl | rfl <;> decide

theorem readingInduction {motive : Text → Prop} (nil : motive [])
    (blank : ∀ c t, isBlank c = true → motive t → motive (c :: t))
    (lexeme : ∀ c y u, isBlank c = false → (Shape.first (c :: y ++ u)).2 = (c :: y).length →
      motive u → motive (c :: y ++ u))
    (t : Text) : motive t := by
  induction size : t.length using Nat.strongRecOn generalizing t with
  | ind n ih =>
    cases t with
    | nil => exact nil
    | cons c cs =>
      subst size
      cases visible : isBlank c with
      | true => exact blank c cs visible (ih cs.length (by simp) cs rfl)
      | false =>
        have some : firstLine (c :: cs) ≠ [] := by
          simp [firstLineCons (blankEqFalse visible).1]
        -- a lexeme has at least one character, so the rest is shorter
        have positive := Shape.firstPositive (c :: cs)
        have bound := Shape.firstLe some
        obtain ⟨k, length⟩ : ∃ k, (Shape.first (c :: cs)).2 = k + 1 :=
          ⟨(Shape.first (c :: cs)).2 - 1, by omega⟩
        rw [length, List.length_cons] at bound
        have split : c :: cs = c :: cs.take k ++ cs.drop k := by simp
        have taken : (c :: cs.take k).length = k + 1 := by
          rw [List.length_cons, List.length_take]
          omega
        rw [split]
        refine lexeme c (cs.take k) (cs.drop k) visible ?_ (ih (cs.drop k).length ?_ _ rfl)
        · rw [← split, length, taken]
        · simp only [List.length_drop, List.length_cons]
          omega

theorem tokensFromNil (line start : Nat) : tokensFrom line start [] = [] := by
  rw [tokensFrom]

theorem tokensFromBlank (line start : Nat) {c : Char} (blank : isBlank c = true) (t : Text) :
    tokensFrom line start (c :: t) = tokensFrom (line + feeds [c]) (start + 1) t := by
  rw [tokensFrom, if_pos blank]

theorem tokensFromBlanks (line start : Nat) {w : Text} (blank : ∀ c ∈ w, isBlank c = true) (t : Text) :
    tokensFrom line start (w ++ t) = tokensFrom (line + feeds w) (start + w.length) t := by
  induction w generalizing line start with
  | nil => rfl
  | cons c w ih =>
    have rest : ∀ d ∈ w, isBlank d = true := fun d mem => blank d (by simp [mem])
    have count : feeds (c :: w) = feeds [c] + feeds w := feedsAppend [c] w
    rw [List.cons_append, tokensFromBlank line start (blank c (by simp)), ih _ _ rest, count,
      List.length_cons]
    congr 1 <;> omega

theorem tokensFromLexeme (line start : Nat) {c : Char} {y u : Text} (visible : isBlank c = false)
    (length : (Shape.first (c :: y ++ u)).2 = (c :: y).length) :
    tokensFrom line start (c :: y ++ u) =
      ⟨Kind.ofLexeme (Shape.first (c :: y ++ u)).1 (c :: y), c :: y, start, line⟩ ::
        tokensFrom (line + feeds (c :: y)) (start + (c :: y).length) u := by
  rw [List.cons_append] at length ⊢
  rw [tokensFrom, if_neg (by simp [visible])]
  simp [length]

end Lexer

namespace Lexer

/- Reading goes over the first text lexeme by lexeme when the second text follows it. -/
inductive Reaches : Text → Text → Prop where
  | nil (b : Text) : Reaches [] b
  | blank {c : Char} {v b : Text} (blank : isBlank c = true) (rest : Reaches v b) : Reaches (c :: v) b
  | lexeme {c : Char} {y v b : Text} (visible : isBlank c = false)
      (length : (Shape.first (c :: y ++ (v ++ b))).2 = (c :: y).length) (rest : Reaches v b) :
      Reaches (c :: y ++ v) b

end Lexer

namespace Token

structure Between (tok : Token) (a b : Text) : Prop where
  start : tok.start = a.length
  line : tok.line = feeds a
  length : (Shape.first (tok.text ++ b)).2 = tok.text.length
  kind : tok.kind = Kind.ofLexeme (Shape.first (tok.text ++ b)).1 tok.text
  visible : ∃ c y, tok.text = c :: y ∧ isBlank c = false

theorem reachedFrom (a t : Text) : ∀ tok ∈ tokensFrom (feeds a) a.length t,
    ∃ v b, t = v ++ (tok.text ++ b) ∧ Lexer.Reaches v (tok.text ++ b) ∧ tok.Between (a ++ v) b := by
  induction t using Lexer.readingInduction generalizing a with
  | nil => simp [Lexer.tokensFromNil]
  | blank c t blank ih =>
    intro tok member
    rw [Lexer.tokensFromBlank _ _ blank, ← feedsAppend] at member
    obtain ⟨v, b, rfl, reaches, at_⟩ := ih (a ++ [c]) tok (by simpa using member)
    exact ⟨c :: v, b, rfl, .blank blank reaches, by simpa using at_⟩
  | lexeme c y u visible length ih =>
    intro tok member
    rw [Lexer.tokensFromLexeme _ _ visible length, ← feedsAppend, ← List.length_append] at member
    rcases List.mem_cons.mp member with rfl | later
    · exact ⟨[], u, rfl, .nil _, by rw [List.append_nil], by rw [List.append_nil], length, rfl, c, y, rfl, visible⟩
    · obtain ⟨v, b, rfl, reaches, at_⟩ := ih (a ++ c :: y) tok later
      exact ⟨c :: y ++ v, b, by simp, .lexeme visible length reaches, by simpa using at_⟩

theorem reached {t : Text} {tok : Token} (member : tok ∈ tokenize t) :
    ∃ a b, t = a ++ (tok.text ++ b) ∧ Lexer.Reaches a (tok.text ++ b) ∧ tok.Between a b :=
  reachedFrom [] t tok member

theorem between {t : Text} {tok : Token} (member : tok ∈ tokenize t) :
    ∃ a b, t = a ++ tok.text ++ b ∧ tok.Between a b := by
  obtain ⟨a, b, split, _, at_⟩ := reached member
  exact ⟨a, b, by rw [split, List.append_assoc], at_⟩

theorem startFrom (line start : Nat) (t : Text) : ∀ tok ∈ tokensFrom line start t, start ≤ tok.start := by
  induction t using Lexer.readingInduction generalizing line start with
  | nil => simp [Lexer.tokensFromNil]
  | blank c t blank ih =>
    intro tok member
    rw [Lexer.tokensFromBlank _ _ blank] at member
    have rest := ih _ _ tok member
    omega
  | lexeme c y u visible length ih =>
    intro tok member
    rw [Lexer.tokensFromLexeme _ _ visible length] at member
    rcases List.mem_cons.mp member with rfl | later
    · exact Nat.le_refl start
    · have rest := ih _ _ tok later
      omega

theorem ordered (line start : Nat) (t : Text) :
    (tokensFrom line start t).Pairwise fun x y => x.stop ≤ y.start := by
  induction t using Lexer.readingInduction generalizing line start with
  | nil => simp [Lexer.tokensFromNil]
  | blank c t blank ih =>
    rw [Lexer.tokensFromBlank _ _ blank]
    exact ih _ _
  | lexeme c y u visible length ih =>
    rw [Lexer.tokensFromLexeme _ _ visible length]
    exact List.pairwise_cons.mpr ⟨fun tok later => startFrom _ _ _ tok later, ih _ _⟩

theorem apart (t : Text) : (tokenize t).Pairwise fun x y => x.stop ≤ y.start := ordered 0 0 t

end Token
end Indentation
