import Indentation.Proofs.Spans
import Mathlib.Data.List.Forall2

/-! Two layouts of one text. They differ in the blanks that follow line feeds, and only where the
line feed is not held; held are the line feeds inside strings. Reading both gives the same tokens in
the same order: every code token has its kind, its text, its line and its distance from the margin,
and every comment its place among them. -/
namespace Indentation
open Lexer (feeds tokensFrom)
open Text

/- The second text is the first, which begins at offset `p`, with other blanks after line feeds
that are not held. -/
inductive Relaid (held : Nat → Prop) : Nat → Text → Text → Prop where
  | nil {p} : Relaid held p [] []
  | same {p t t'} (c : Char) (rest : Relaid held (p + 1) t t') : Relaid held p (c :: t) (c :: t')
  | feed {p w w' t t'} (free : ¬ held p) (blank : ∀ c ∈ w, isIndent c = true)
      (blank' : ∀ c ∈ w', isIndent c = true) (rest : Relaid held (p + 1 + w.length) t t') :
      Relaid held p ('\n' :: (w ++ t)) ('\n' :: (w' ++ t'))

namespace Relaid
variable {held : Nat → Prop} {p : Nat} {t t' : Text}

theorem refl (p : Nat) (t : Text) : Relaid held p t t := by
  induction t generalizing p with
  | nil => exact .nil
  | cons c t ih => exact .same c (ih _)

theorem append {x x' u u' : Text} (front : Relaid held p x x')
    (back : Relaid held (p + x.length) u u') : Relaid held p (x ++ u) (x' ++ u') := by
  induction front with
  | nil => exact back
  | same c rest ih =>
    refine .same c (ih ?_)
    rwa [List.length_cons, Nat.add_comm _ 1, ← Nat.add_assoc] at back
  | @feed p w w' t t' free blank blank' rest ih =>
    rw [List.cons_append, List.cons_append, List.append_assoc, List.append_assoc]
    refine .feed free blank blank' (ih ?_)
    have offset : p + ('\n' :: (w ++ t)).length = p + 1 + w.length + t.length := by
      simp only [List.length_cons, List.length_append]
      omega
    rwa [offset] at back

theorem firstLine (h : Relaid held p t t') : Text.firstLine t = Text.firstLine t' := by
  induction h with
  | nil => rfl
  | same c rest ih =>
    by_cases feed : c = '\n'
    · simp [feed]
    · rw [firstLineCons feed, firstLineCons feed, ih]
  | feed free blank blank' rest ih => simp

theorem feeds (h : Relaid held p t t') : Lexer.feeds t = Lexer.feeds t' := by
  induction h with
  | nil => rfl
  | @same p t t' c rest ih =>
    rw [← List.singleton_append, feedsAppend, ih, ← feedsAppend, List.singleton_append]
  | @feed p w w' t t' free blank blank' rest ih =>
    have none : Lexer.feeds w = 0 :=
      feedsEqZero fun mem => by simpa [isIndent] using blank _ mem
    have none' : Lexer.feeds w' = 0 :=
      feedsEqZero fun mem => by simpa [isIndent] using blank' _ mem
    simp [none, none', ih]

theorem trail (h : Relaid held p t t') {a a' : Text} (before : Text.trail a = Text.trail a') :
    Text.trail (a ++ t) = Text.trail (a' ++ t') := by
  induction h generalizing a a' with
  | nil => simpa using before
  | same c rest ih =>
    have step : Text.trail (a ++ [c]) = Text.trail (a' ++ [c]) := by
      rw [trailSnoc, trailSnoc, before]
    simpa using ih step
  | feed free blank blank' rest ih =>
    have step := (trailIndent a blank).trans (trailIndent a' blank').symm
    simpa using ih step

theorem verbatim (h : Relaid held p t t') (all : ∀ q, p ≤ q → q < p + t.length → held q) : t = t' := by
  induction h with
  | nil => rfl
  | @same p t t' c rest ih =>
    have tail := ih fun q low high => all q (by omega) (by rw [List.length_cons]; omega)
    rw [tail]
  | @feed p w w' t t' free blank blank' rest ih =>
    exact absurd (all p (Nat.le_refl p) (by rw [List.length_cons]; omega)) free

theorem strip {x u u' : Text} (feedless : '\n' ∉ x) (h : Relaid held p (x ++ u) (x ++ u')) :
    Relaid held (p + x.length) u u' := by
  induction x generalizing p with
  | nil => exact h
  | cons c x ih =>
    simp only [List.mem_cons, not_or] at feedless
    rw [List.cons_append, List.cons_append] at h
    generalize whole : c :: (x ++ u) = s at h
    generalize whole' : c :: (x ++ u') = s' at h
    cases h with
    | nil => contradiction
    | same d rest =>
      cases whole
      cases whole'
      have tail := ih feedless.2 rest
      rwa [Nat.add_assoc, Nat.add_comm 1] at tail
    | feed free blank blank' rest => exact absurd (List.cons.inj whole).1.symm feedless.1

theorem front {x u : Text} (feedless : '\n' ∉ x) (h : Relaid held p (x ++ u) t') :
    ∃ u', t' = x ++ u' ∧ Relaid held (p + x.length) u u' := by
  have line := h.firstLine
  rw [firstLineAppend feedless] at line
  obtain ⟨u', rfl⟩ := Shape.firstLineStarts line.symm
  exact ⟨u', rfl, h.strip feedless⟩

theorem feedless (h : Relaid held p t t') (none : '\n' ∉ t) : t = t' := by
  rw [← List.append_nil t] at h
  obtain ⟨u', rfl, rest⟩ := h.front none
  cases rest with
  | nil => exact (List.append_nil t).symm

theorem isPrefixOf {mark : Text} (feedless : '\n' ∉ mark) (h : Relaid held p t t') :
    mark.isPrefixOf t = mark.isPrefixOf t' := by
  have first : ∀ s : Text, mark.isPrefixOf s ↔ mark <+: Text.firstLine s := by
    intro s
    rw [List.isPrefixOf_iff_prefix]
    constructor
    · rintro ⟨r, rfl⟩
      rw [firstLineAppend feedless]
      exact List.prefix_append mark _
    · exact fun starts => starts.trans (List.takeWhile_prefix _)
  rw [Bool.eq_iff_iff, first, first, h.firstLine]

theorem through {m : Char} {ms : Text} (visible : ∀ c ∈ m :: ms, isBlank c = false)
    (h : Relaid held p t t') :
    ∃ x u x' u', t = x ++ u ∧ t' = x' ++ u' ∧ Relaid held p x x' ∧
      Relaid held (p + x.length) u u' ∧ Shape.through (m :: ms) t = x.length ∧
      Shape.through (m :: ms) t' = x'.length := by
  have feedless : '\n' ∉ m :: ms := fun mem => by simpa [isBlank] using visible _ mem
  induction h with
  | nil => exact ⟨[], [], [], [], rfl, rfl, .nil, .nil, rfl, rfl⟩
  | @same p t t' c rest ih =>
    have both := (Relaid.same c rest).isPrefixOf feedless
    by_cases found : (m :: ms).isPrefixOf (c :: t) = true
    · obtain ⟨u, split⟩ := List.isPrefixOf_iff_prefix.mp found
      obtain ⟨u', split', tail⟩ := front feedless (split ▸ Relaid.same c rest)
      refine ⟨m :: ms, u, m :: ms, u', split.symm, split', refl p _, tail, ?_, ?_⟩
      · rw [Shape.through, if_pos found]
      · rw [Shape.through, if_pos (both ▸ found)]
    · obtain ⟨x, u, x', u', split, split', inner, tail, length, length'⟩ := ih
      refine ⟨c :: x, u, c :: x', u', by rw [split]; rfl, by rw [split']; rfl, .same c inner, ?_, ?_, ?_⟩
      · rwa [List.length_cons, Nat.add_comm _ 1, ← Nat.add_assoc]
      · rw [Shape.through, if_neg found, length, List.length_cons, Nat.add_comm]
      · rw [Shape.through, if_neg (both ▸ found), length', List.length_cons, Nat.add_comm]
  | @feed p w w' t t' free blank blank' rest ih =>
    obtain ⟨x, u, x', u', split, split', inner, tail, length, length'⟩ := ih
    -- no mark begins in the line feed or in the blanks behind it
    have skip : ∀ v : Text, (∀ c ∈ v, isIndent c = true) → ∀ c ∈ '\n' :: v, c ≠ m := by
      rintro v indent c mem rfl
      have shown := visible c (by simp)
      rcases List.mem_cons.mp mem with rfl | mem
      · simp [isBlank] at shown
      · rw [Lexer.isBlankOfIndent (indent c mem)] at shown
        contradiction
    refine ⟨'\n' :: (w ++ x), u, '\n' :: (w' ++ x'), u', by simp [split], by simp [split'],
      .feed free blank blank' inner, ?_, ?_, ?_⟩
    · have offset : p + ('\n' :: (w ++ x)).length = p + 1 + w.length + x.length := by
        simp only [List.length_cons, List.length_append]
        omega
      rwa [offset]
    · rw [← List.cons_append, Shape.throughSkip ms (skip w blank), length]
      simp only [List.length_cons, List.length_append]
      omega
    · rw [← List.cons_append, Shape.throughSkip ms (skip w' blank'), length']
      simp only [List.length_cons, List.length_append]
      omega

theorem lexeme (h : Relaid held p t t') (some : Text.firstLine t ≠ []) :
    ∃ x u x' u', t = x ++ u ∧ t' = x' ++ u' ∧ Relaid held p x x' ∧ Relaid held (p + x.length) u u' ∧
      (Shape.first t).2 = x.length ∧ Shape.first t' = ((Shape.first t).1, x'.length) ∧
      (x = x' ∨ (Shape.first t).1 = .comment ∨ (Shape.first t).1 = .string) := by
  rcases Shape.firstCases t with ⟨kind, x, mark, cs, opens, rfl⟩ | ⟨inside, reads⟩
  · obtain ⟨kinds, visible, ⟨m, ms, rfl⟩, _⟩ := opens.closing
    obtain ⟨cs', rfl, tail⟩ := front opens.feedless h
    obtain ⟨y, u, y', u', rfl, rfl, inner, rest, length, length'⟩ := tail.through visible
    refine ⟨x ++ y, u, x ++ y', u', by simp, by simp, (refl p x).append inner, ?_, ?_, ?_, ?_⟩
    · rwa [List.length_append, ← Nat.add_assoc]
    · rw [opens.first, length, List.length_append]
    · rw [opens.first, opens.first, length', List.length_append]
    · rw [opens.first]
      exact .inr kinds
  · have bound := inside some
    have feedless : '\n' ∉ t.take (Shape.first t).2 := by
      rw [← Shape.firstLineTake bound]
      exact fun mem => firstLineFeedless t (List.mem_of_mem_take mem)
    have length : (t.take (Shape.first t).2).length = (Shape.first t).2 := by
      have line : (Text.firstLine t).length ≤ t.length := (List.takeWhile_sublist _).length_le
      rw [List.length_take]
      omega
    have split := (List.take_append_drop (Shape.first t).2 t).symm
    obtain ⟨u', split', rest⟩ := front feedless (split ▸ h)
    refine ⟨_, _, _, u', split, split', refl p _, rest, length.symm, ?_, .inl rfl⟩
    rw [reads t' h.firstLine.symm, length]

end Relaid

namespace Token

structure Twin (t t' : Text) (tok tok' : Token) : Prop where
  kind : tok.kind = tok'.kind
  line : tok.line = tok'.line
  text : tok.isComment = false → tok.text = tok'.text
  whole : '\n' ∉ tok.text → tok.text = tok'.text
  feeds : Lexer.feeds tok.text = Lexer.feeds tok'.text
  trail : Text.trail (t.take tok.start) = Text.trail (t'.take tok'.start)

theorem indentFeeds {w : Text} (blank : ∀ c ∈ w, isIndent c = true) : Lexer.feeds w = 0 :=
  feedsEqZero fun mem => by simpa [isIndent] using blank _ mem

theorem tokensFromIndent (a : Text) {w : Text} (blank : ∀ c ∈ w, isIndent c = true) (t : Text) :
    tokensFrom (Lexer.feeds a) a.length (w ++ t) =
      tokensFrom (Lexer.feeds (a ++ w)) (a ++ w).length t := by
  rw [Lexer.tokensFromBlanks _ _ (fun c mem => Lexer.isBlankOfIndent (blank c mem)), feedsAppend,
    List.length_append]

theorem tokensFromBlank (a : Text) {c : Char} (blank : isBlank c = true) (t : Text) :
    tokensFrom (Lexer.feeds a) a.length (c :: t) =
      tokensFrom (Lexer.feeds (a ++ [c])) (a ++ [c]).length t := by
  rw [Lexer.tokensFromBlank _ _ blank, feedsAppend, List.length_append, List.length_singleton]

/- Two readings in step: texts `a` and `a'` are read, blanks `w` and `w'` come next, and then two
layouts of one text. -/
structure InStep (held : Nat → Prop) (a a' w w' u u' : Text) : Prop where
  blank : ∀ c ∈ w, isIndent c = true
  blank' : ∀ c ∈ w', isIndent c = true
  rest : Relaid held (a ++ w).length u u'
  trail : Text.trail (a ++ w) = Text.trail (a' ++ w')
  feeds : Lexer.feeds a = Lexer.feeds a'

namespace InStep
variable {held : Nat → Prop} {a a' w w' u u' : Text}

theorem lineEq (s : InStep held a a' w w' u u') : Lexer.feeds a = Lexer.feeds (a' ++ w') := by
  rw [feedsAppend, indentFeeds s.blank', s.feeds, Nat.add_zero]

theorem overIndent {c : Char} (s : InStep held a a' (c :: w) w' u u') :
    InStep held (a ++ [c]) a' w w' u u' where
  blank d mem := s.blank d (by simp [mem])
  blank' := s.blank'
  rest := by simpa using s.rest
  trail := by simpa using s.trail
  feeds := by
    have indent : ∀ d ∈ [c], isIndent d = true := by simpa using s.blank c (by simp)
    rw [feedsAppend, indentFeeds indent, s.feeds, Nat.add_zero]

theorem overText {x x' v v' : Text} (s : InStep held a a' [] w' u u') (inner : Relaid held a.length x x')
    (rest : Relaid held (a.length + x.length) v v') :
    InStep held (a ++ x) (a' ++ w' ++ x') [] [] v v' where
  blank := by simp
  blank' := by simp
  rest := by simpa using rest
  trail := by
    have before : Text.trail a = Text.trail (a' ++ w') := by simpa using s.trail
    simpa using inner.trail before
  feeds := by rw [feedsAppend, feedsAppend _ x', s.lineEq, inner.feeds]

theorem overFeed {v v' t t' : Text} (s : InStep held a a' [] w' u u')
    (indent : ∀ c ∈ v, isIndent c = true) (indent' : ∀ c ∈ v', isIndent c = true)
    (rest : Relaid held (a.length + 1 + v.length) t t') :
    InStep held (a ++ ['\n']) (a' ++ w' ++ ['\n']) v v' t t' where
  blank := indent
  blank' := indent'
  rest := by simpa [Nat.add_assoc, Nat.add_comm 1] using rest
  trail := by
    rw [← List.append_cons, ← List.append_cons, trailIndent _ indent, trailIndent _ indent']
  feeds := by rw [feedsAppend, feedsAppend _ ['\n'], s.lineEq]

end InStep

theorem tokensFromLexeme (a : Text) {c : Char} {y u : Text} (visible : isBlank c = false)
    (length : (Shape.first (c :: y ++ u)).2 = (c :: y).length) :
    tokensFrom (Lexer.feeds a) a.length (c :: y ++ u) =
      ⟨Kind.ofLexeme (Shape.first (c :: y ++ u)).1 (c :: y), c :: y, a.length, Lexer.feeds a⟩ ::
        tokensFrom (Lexer.feeds (a ++ c :: y)) (a ++ c :: y).length u := by
  rw [Lexer.tokensFromLexeme _ _ visible length, feedsAppend, List.length_append]

theorem ofLexemeEq {shape : Kind} {x x' : Text}
    (either : x = x' ∨ shape = .comment ∨ shape = .string) :
    Kind.ofLexeme shape x = Kind.ofLexeme shape x' := by
  rcases either with rfl | rfl | rfl <;> rfl

theorem twinInFront {held : Nat → Prop} {a a' w' u u' x x' v v' : Text} {shape : Kind}
    (s : InStep held a a' [] w' u u') (inner : Relaid held a.length x x')
    (either : x = x' ∨ shape = .comment ∨ shape = .string)
    (strings : shape = .string → ∀ q, a.length ≤ q → q < a.length + x.length → held q) :
    Twin (a ++ (x ++ v)) (a' ++ (w' ++ (x' ++ v')))
      ⟨Kind.ofLexeme shape x, x, a.length, Lexer.feeds a⟩
      ⟨Kind.ofLexeme shape x', x', (a' ++ w').length, Lexer.feeds (a' ++ w')⟩ where
  kind := ofLexemeEq either
  line := s.lineEq
  text code := by
    rcases either with same | rfl | rfl
    · exact same
    · simp [Token.isComment, Kind.isComment, Kind.ofLexeme] at code
    · exact inner.verbatim (strings rfl)
  whole := inner.feedless
  feeds := inner.feeds
  trail := by
    have before : Text.trail a = Text.trail (a' ++ w') := by simpa using s.trail
    rw [List.take_left, ← List.append_assoc a' w', List.take_left, before]

theorem InStep.overBlank {held : Nat → Prop} {a a' w' u' t : Text} {c : Char} (white : isBlank c = true)
    (s : InStep held a a' [] w' (c :: t) u') :
    ∃ b' v v' r r', t = v ++ r ∧ InStep held (a ++ [c]) b' v v' r r' ∧
      a' ++ (w' ++ u') = b' ++ (v' ++ r') ∧
      tokensFrom (Lexer.feeds a') a'.length (w' ++ u') = tokensFrom (Lexer.feeds b') b'.length (v' ++ r') := by
  have next : ∀ y : Text, tokensFrom (Lexer.feeds a') a'.length (w' ++ c :: y) =
      tokensFrom (Lexer.feeds (a' ++ w' ++ [c])) (a' ++ w' ++ [c]).length y := by
    intro y
    rw [tokensFromIndent a' s.blank', tokensFromBlank _ white]
  have rest := s.rest
  rw [List.append_nil] at rest
  cases rest with
  | same _ rest =>
    exact ⟨a' ++ w' ++ [c], [], [], t, _, rfl, s.overText (Relaid.refl _ [c]) rest, by simp, next _⟩
  | feed free indent indent' rest =>
    exact ⟨a' ++ w' ++ ['\n'], _, _, _, _, rfl, s.overFeed indent indent' rest, by simp, next _⟩

theorem InStep.overLexeme {held : Nat → Prop} {a a' w' u' y v : Text} {c : Char} (visible : isBlank c = false)
    (length : (Shape.first (c :: y ++ v)).2 = (c :: y).length)
    (s : InStep held a a' [] w' (c :: y ++ v) u')
    (strings : Kind.ofLexeme (Shape.first (c :: y ++ v)).1 (c :: y) = .string →
      ∀ q, a.length ≤ q → q < a.length + (c :: y).length → held q) :
    ∃ b' r' tok', InStep held (a ++ c :: y) b' [] [] v r' ∧ a' ++ (w' ++ u') = b' ++ r' ∧
      tokensFrom (Lexer.feeds a') a'.length (w' ++ u') = tok' :: tokensFrom (Lexer.feeds b') b'.length r' ∧
      Twin (a ++ (c :: y ++ v)) (a' ++ (w' ++ u'))
        ⟨Kind.ofLexeme (Shape.first (c :: y ++ v)).1 (c :: y), c :: y, a.length, Lexer.feeds a⟩ tok' := by
  have rest := s.rest
  rw [List.append_nil] at rest
  have some : Text.firstLine (c :: y ++ v) ≠ [] := by
    simp [firstLineCons (Lexer.blankEqFalse visible).1]
  obtain ⟨x, r, x', r', whole, rfl, inner, after, taken, shape, either⟩ := rest.lexeme some
  obtain ⟨rfl, rfl⟩ : c :: y = x ∧ v = r := List.append_inj whole (by rw [← length, taken])
  have other : '\n' ∉ [c] := by simpa using Ne.symm (Lexer.blankEqFalse visible).1
  obtain ⟨y', rfl, _⟩ := Relaid.front other inner
  rw [List.singleton_append] at *
  have length' : (Shape.first (c :: y' ++ r')).2 = (c :: y').length := by rw [shape]
  refine ⟨a' ++ w' ++ c :: y', r', _, s.overText inner after, by simp, ?_, twinInFront s inner either ?_⟩
  · rw [tokensFromIndent a' s.blank', tokensFromLexeme _ visible length', shape]
  · exact fun text => strings (congrArg (Kind.ofLexeme · (c :: y)) text)

theorem twinsFrom {held : Nat → Prop} {a a' w w' u u' t : Text} (s : InStep held a a' w w' u u')
    (split : t = w ++ u)
    (strings : ∀ tok ∈ tokensFrom (Lexer.feeds a) a.length t, tok.kind = .string →
      ∀ q, tok.start ≤ q → q < tok.stop → held q) :
    List.Forall₂ (Twin (a ++ t) (a' ++ (w' ++ u'))) (tokensFrom (Lexer.feeds a) a.length t)
      (tokensFrom (Lexer.feeds a') a'.length (w' ++ u')) := by
  -- the first text is read along, and the second follows it in step
  induction t using Lexer.readingInduction generalizing a a' w w' u u' with
  | nil =>
    obtain ⟨rfl, rfl⟩ := List.append_eq_nil_iff.mp split.symm
    cases s.rest
    rw [tokensFromIndent a' s.blank', Lexer.tokensFromNil, Lexer.tokensFromNil]
    exact .nil
  | blank c t white ih =>
    rw [tokensFromBlank a white] at strings ⊢
    rw [List.append_cons a c t]
    cases w with
    | cons d w =>
      obtain ⟨rfl, rfl⟩ := List.cons.inj split
      exact ih s.overIndent rfl strings
    | nil =>
      subst split
      obtain ⟨b', v, v', r, r', rfl, next, whole, tokens⟩ := s.overBlank white
      rw [whole, tokens]
      exact ih next rfl strings
  | lexeme c y v visible length ih =>
    cases w with
    | cons d w =>
      have indent := s.blank d (by simp)
      rw [← (List.cons.inj split).1, (Lexer.blankEqFalse visible).2] at indent
      contradiction
    | nil =>
      subst split
      rw [tokensFromLexeme a visible length] at strings ⊢
      obtain ⟨b', r', tok', next, whole, tokens, twin⟩ :=
        s.overLexeme visible length (strings _ List.mem_cons_self)
      rw [tokens]
      refine .cons twin ?_
      rw [whole, ← List.append_assoc]
      exact ih next rfl fun tok member => strings tok (List.mem_cons_of_mem _ member)

theorem twins {held : Nat → Prop} {w w' u u' : Text} (blank : ∀ c ∈ w, isIndent c = true)
    (blank' : ∀ c ∈ w', isIndent c = true) (h : Relaid held w.length u u')
    (strings : ∀ tok ∈ tokenize (w ++ u), tok.kind = .string →
      ∀ q, tok.start ≤ q → q < tok.stop → held q) :
    List.Forall₂ (Twin (w ++ u) (w' ++ u')) (tokenize (w ++ u)) (tokenize (w' ++ u')) := by
  have margin : ∀ {v : Text}, (∀ c ∈ v, isIndent c = true) → Text.trail v = [] := by
    intro v indent
    have feedless : '\n' ∉ v := fun mem => by simpa [isIndent] using indent _ mem
    rw [Text.trail, lastLineSelf feedless]
    exact List.dropWhile_eq_nil_iff.mpr indent
  have start : InStep held [] [] w w' u u' :=
    ⟨blank, blank', h, (margin blank).trans (margin blank').symm, rfl⟩
  exact twinsFrom start rfl strings

end Token
end Indentation
