import Indentation.Proofs.Spans
import Mathlib.Data.List.Infix

/-! Reading line by line. A line end after a token changes nothing for it, unless the token is a block
comment or a triple string that still waits for its mark. So texts joined by a line end are read apart,
and tokens printed one below the other are read back. -/
namespace Indentation
open Lexer (feeds tokensFrom)
open Text

namespace Shape

def Ends (x : Text) : Prop := ∀ kind front mark cs, Opening kind front mark → x = front ++ cs → mark <:+: cs

theorem throughFound (mark x u : Text) : through mark (x ++ mark ++ u) ≤ (x ++ mark).length := by
  rw [List.append_assoc]
  induction x with
  | nil =>
    cases split : mark ++ u with
    | nil => exact Nat.zero_le _
    | cons c cs =>
      have found : mark.isPrefixOf (c :: cs) = true := List.isPrefixOf_iff_prefix.mpr ⟨u, split⟩
      rw [List.nil_append, through, if_pos found]
      exact Nat.le_refl _
  | cons c x ih =>
    rw [List.cons_append, through, List.cons_append, List.length_cons]
    split
    · rw [List.length_append]
      omega
    · omega

theorem throughAppend {mark cs : Text} (inside : mark <:+: cs) (v : Text) :
    through mark (cs ++ v) = through mark cs := by
  obtain ⟨x, u, rfl⟩ := inside
  have bound := throughFound mark x (u ++ v)
  rw [← List.append_assoc] at bound
  have front : (x ++ mark).length ≤ (x ++ mark ++ u).length := (List.sublist_append_left _ u).length_le
  exact (throughSteady mark _ v (Nat.le_trans bound front)).symm

theorem throughPast {mark : Text} (feedless : '\n' ∉ mark) {cs : Text} (absent : ¬ mark <:+: cs) (t : Text) :
    through mark (cs ++ '\n' :: t) = cs.length + 1 + through mark t := by
  induction cs with
  | nil =>
    have other : ¬ mark.isPrefixOf ('\n' :: t) = true := by
      cases mark with
      | nil => exact absurd (List.nil_infix) absent
      | cons m ms =>
        rw [List.isPrefixOf_iff_prefix, List.cons_prefix_cons]
        rintro ⟨rfl, _⟩
        exact feedless List.mem_cons_self
    rw [List.nil_append, through, if_neg other, List.length_nil]
  | cons c cs ih =>
    have later : ¬ mark <:+: cs := fun inside => absent (inside.trans (List.suffix_cons c cs).isInfix)
    have here : ¬ mark.isPrefixOf (c :: (cs ++ '\n' :: t)) = true := by
      rw [List.isPrefixOf_iff_prefix]
      intro found
      have whole : c :: (cs ++ '\n' :: t) = (c :: cs ++ ['\n']) ++ t := by simp
      rcases List.prefix_or_prefix_of_prefix found (whole ▸ List.prefix_append _ t) with short | long
      · rcases List.prefix_concat_iff.mp short with same | short
        · exact feedless (by simp [same])
        · exact absent short.isInfix
      · exact feedless (long.subset (by simp))
    rw [List.cons_append, through, if_neg here, ih later, List.length_cons]
    omega

theorem Opening.throughBlanks {kind : Kind} {front mark v : Text} (opens : Opening kind front mark)
    (blank : ∀ c ∈ v, isBlank c = true) (t : Text) : through mark (v ++ t) = v.length + through mark t := by
  obtain ⟨_, blankless, ⟨m, ms, rfl⟩, _⟩ := opens.closing
  refine throughSkip ms (fun c member same => ?_) t
  have shown := blankless m List.mem_cons_self
  rw [← same, blank c member] at shown
  contradiction

theorem Ends.first {x u : Text} (ends : Ends x) (length : (first (x ++ u)).2 = x.length) (b : Text) :
    first (x ++ (u ++ '\n' :: b)) = first (x ++ u) := by
  rw [← List.append_assoc]
  rcases firstCases (x ++ u) with ⟨kind, front, mark, cs, opens, split⟩ | ⟨_, settled⟩
  · rw [split, opens.first] at length
    obtain ⟨y, rfl⟩ : ∃ y, x = front ++ y := by
      have front' : front <+: x := List.prefix_of_prefix_length_le ⟨cs, split.symm⟩ ⟨u, rfl⟩ (by omega)
      exact front'.imp fun _ => Eq.symm
    have inside := ends kind front mark y opens rfl
    rw [List.append_assoc, List.append_cancel_left_eq] at split
    have whole : mark <:+: cs := inside.trans ⟨[], u, by simp [split]⟩
    rw [List.append_assoc front, split, List.append_assoc, opens.first, opens.first, throughAppend whole]
  · exact settled _ (firstLineJoined _ b)

theorem endsBefore {x u : Text} (length : (first (x ++ u)).2 = x.length) (some : u ≠ []) : Ends x := by
  rintro kind front mark cs opens rfl
  rw [List.append_assoc, opens.first, List.length_append, Nat.add_left_cancel_iff] at length
  have behind : 0 < u.length := List.length_pos_iff.mpr some
  rcases throughSpec mark (cs ++ u) with whole | ⟨y, v, split, found⟩
  · rw [length, List.length_append] at whole
    omega
  · obtain ⟨rfl, _⟩ := List.append_inj split (length.symm.trans found)
    exact ⟨y, [], List.append_nil _⟩

end Shape

namespace Token

def isUnclosed (tok : Token) : Bool :=
  match tok.kind, tok.text with
  | .comment, '/' :: '*' :: cs => !decide (['*', '/'] <:+: cs)
  | .string, text =>
    match text.dropWhile (· != '"') with
    | '"' :: '"' :: '"' :: cs => !decide (['"', '"', '"'] <:+: cs)
    | _ => false
  | _, _ => false

theorem unclosed {kind : Kind} {front mark cs : Text} (opens : Shape.Opening kind front mark) (start line : Nat) :
    isUnclosed ⟨kind, front ++ cs, start, line⟩ = !decide (mark <:+: cs) := by
  cases opens with
  | block => rfl
  | @triple w whole =>
    have free : '"' ∉ w := Shape.wordFree whole (by decide) (by decide)
    have rest : (w ++ ['"', '"', '"'] ++ cs).dropWhile (· != '"') = '"' :: '"' :: '"' :: cs := by
      rw [List.append_assoc, List.dropWhile_append_of_pos fun c mem => ?_]
      · rfl
      · exact bne_iff_ne.mpr fun same => free (same ▸ mem)
    simp only [isUnclosed, rest]

def shift (characters lines : Nat) (tok : Token) : Token :=
  { tok with start := tok.start + characters, line := tok.line + lines }

def lexeme (tok : Token) : Kind × Text := (tok.kind, tok.text)

structure Alone (tok : Token) : Prop where
  length : (Shape.first tok.text).2 = tok.text.length
  kind : tok.kind = Kind.ofLexeme (Shape.first tok.text).1 tok.text
  visible : ∃ c y, tok.text = c :: y ∧ isBlank c = false

theorem alone {text : Text} {tok : Token} (member : tok ∈ tokenize text) : tok.Alone := by
  obtain ⟨_, b, _, at_⟩ := between member
  have same := Shape.firstSteady (Nat.le_of_eq at_.length)
  exact ⟨same ▸ at_.length, same ▸ at_.kind, at_.visible⟩

theorem Alone.reading {tok : Token} (alone : tok.Alone) :
    tokenize tok.text = [⟨tok.kind, tok.text, 0, 0⟩] := by
  obtain ⟨c, y, text, visible⟩ := alone.visible
  have length := alone.length
  have kind := alone.kind
  rw [text] at length kind ⊢
  have read := Lexer.tokensFromLexeme 0 0 (u := []) visible (by rwa [List.append_nil])
  rw [List.append_nil, Lexer.tokensFromNil, ← kind] at read
  exact read

theorem Alone.ends {tok : Token} (alone : tok.Alone) (closed : ¬ tok.isUnclosed) : Shape.Ends tok.text := by
  rintro kind front mark cs opens text
  have own : tok.kind = kind := by
    rw [alone.kind, text, opens.first]
    rcases opens.closing.1 with rfl | rfl <;> rfl
  have told : isUnclosed ⟨kind, front ++ cs, tok.start, tok.line⟩ = !decide (mark <:+: cs) :=
    unclosed opens tok.start tok.line
  rw [← own, ← text] at told
  simpa [told] using closed

end Token

namespace Lexer

theorem tokensFromShift (line start characters lines : Nat) (t : Text) :
    tokensFrom (line + lines) (start + characters) t =
      (tokensFrom line start t).map (Token.shift characters lines) := by
  induction t using Lexer.readingInduction generalizing line start with
  | nil => simp [tokensFromNil]
  | blank c t blank ih =>
    rw [tokensFromBlank _ _ blank, tokensFromBlank _ _ blank, ← ih, Nat.add_right_comm line,
      Nat.add_right_comm start]
  | lexeme c y u visible length ih =>
    rw [tokensFromLexeme _ _ visible length, tokensFromLexeme _ _ visible length, List.map_cons, ← ih,
      Nat.add_right_comm line, Nat.add_right_comm start]
    rfl

theorem tokensFromJoined (line start : Nat) (a b : Text)
    (ends : ∀ tok ∈ tokensFrom line start a, Shape.Ends tok.text) :
    tokensFrom line start (a ++ '\n' :: b) =
      tokensFrom line start a ++ tokensFrom (line + feeds a + 1) (start + a.length + 1) b := by
  induction a using Lexer.readingInduction generalizing line start with
  | nil =>
    rw [List.nil_append, tokensFromBlank _ _ (by decide), tokensFromNil]
    rfl
  | blank c t blank ih =>
    rw [tokensFromBlank _ _ blank] at ends
    have count : feeds (c :: t) = feeds [c] + feeds t := feedsAppend [c] t
    rw [List.cons_append, tokensFromBlank _ _ blank, tokensFromBlank _ _ blank, ih _ _ ends, count,
      List.length_cons]
    congr 2 <;> omega
  | lexeme c y u visible length ih =>
    rw [tokensFromLexeme _ _ visible length, List.forall_mem_cons] at ends
    have first := ends.1.first length b
    rw [List.append_assoc, tokensFromLexeme _ _ visible (by rw [first, length]), first,
      tokensFromLexeme _ _ visible length, ih _ _ ends.2, feedsAppend, List.length_append,
      List.cons_append]
    congr 3 <;> omega

theorem tokenizeJoined (a b : Text) (ends : ∀ tok ∈ tokenize a, Shape.Ends tok.text) :
    tokenize (a ++ '\n' :: b) =
      tokenize a ++ (tokenize b).map (Token.shift (a.length + 1) (feeds a + 1)) := by
  unfold tokenize
  rw [tokensFromJoined 0 0 a b ends, ← tokensFromShift]
  congr 2

theorem endsBut (line start : Nat) (t : Text) :
    (tokensFrom line start t).Pairwise fun x _ => Shape.Ends x.text := by
  induction t using Lexer.readingInduction generalizing line start with
  | nil => simp [tokensFromNil]
  | blank c t blank ih =>
    rw [tokensFromBlank _ _ blank]
    exact ih _ _
  | lexeme c y u visible length ih =>
    rw [tokensFromLexeme _ _ visible length]
    refine List.pairwise_cons.mpr ⟨fun tok later => Shape.endsBefore length ?_, ih _ _⟩
    rintro rfl
    simp [tokensFromNil] at later

theorem printed {tokens : List Token} (alone : ∀ tok ∈ tokens, tok.Alone)
    (ends : tokens.Pairwise fun x _ => Shape.Ends x.text) :
    (tokenize (unlines (tokens.map Token.text))).map Token.lexeme = tokens.map Token.lexeme := by
  induction tokens with
  | nil => simp [unlines, tokenize, tokensFromNil]
  | cons tok rest ih =>
    obtain ⟨here, later⟩ := List.forall_mem_cons.mp alone
    obtain ⟨closed, between⟩ := List.pairwise_cons.mp ends
    cases rest with
    | nil => simp [unlines, here.reading, Token.lexeme]
    | cons next rest =>
      let below := unlines ((next :: rest).map Token.text)
      have split : unlines ((tok :: next :: rest).map Token.text) = tok.text ++ '\n' :: below :=
        unlinesCons _ _ _
      have joined := tokenizeJoined tok.text below (by simpa [here.reading] using closed next (by simp))
      calc (tokenize (unlines ((tok :: next :: rest).map Token.text))).map Token.lexeme
          = tok.lexeme :: (tokenize below).map Token.lexeme := by
            rw [split, joined, here.reading, List.map_append, List.map_map]
            rfl
        _ = (tok :: next :: rest).map Token.lexeme := by
            rw [ih later between]
            rfl

theorem tokensFromOpen {kind : Kind} {front mark cs y : Text} {c : Char}
    (opens : Shape.Opening kind front mark) (absent : ¬ mark <:+: cs)
    (split : c :: y = front ++ cs) (visible : isBlank c = false) (line start : Nat) (t : Text) :
    let text := c :: (y ++ '\n' :: t.take (Shape.through mark t))
    tokensFrom line start (c :: y ++ '\n' :: t) = ⟨kind, text, start, line⟩ ::
      tokensFrom (line + feeds text) (start + text.length) (t.drop (Shape.through mark t)) := by
  intro text
  obtain ⟨kinds, blankless, _⟩ := opens.closing
  have feedless : '\n' ∉ mark := fun member => absurd (blankless _ member) (by decide)
  have whole : c :: y ++ '\n' :: t = text ++ t.drop (Shape.through mark t) := by
    simp [text, List.take_append_drop]
  have first : Shape.first (c :: y ++ '\n' :: t) = (kind, text.length) := by
    have bound := Shape.throughLe mark t
    have length := congrArg List.length split
    rw [split, List.append_assoc, opens.first, Shape.throughPast feedless absent]
    simp only [text, List.length_cons, List.length_append, List.length_take, Nat.min_eq_left bound] at length ⊢
    congr 1
    omega
  have reserved : Kind.ofLexeme kind text = kind := by
    rcases kinds with rfl | rfl <;> rfl
  rw [whole] at first ⊢
  rw [tokensFromLexeme line start visible (congrArg Prod.snd first), first, reserved]

/- How a text is read behind `q` when a line end and more follow it. The line end parts the reading, or the last
lexeme waits for its mark and goes on up to it. -/
inductive Over (q a : Text) (tokens : List Token) : Prop where
  | parted (reads : ∀ z, tokensFrom (feeds q) q.length (a ++ '\n' :: z) =
      tokens ++ tokensFrom (feeds (q ++ a ++ ['\n'])) (q ++ a ++ ['\n']).length z)
  | waiting {kind : Kind} {front mark p x : Text} (opens : Shape.Opening kind front mark) (split : a = p ++ x)
      (reads : ∀ z, let text := x ++ '\n' :: z.take (Shape.through mark z)
        tokensFrom (feeds q) q.length (a ++ '\n' :: z) =
          tokens ++ ⟨kind, text, (q ++ p).length, feeds (q ++ p)⟩ ::
            tokensFrom (feeds (q ++ p ++ text)) (q ++ p ++ text).length (z.drop (Shape.through mark z)))

theorem Over.behind {q w a : Text} {tokens : List Token} (before : List Token)
    (step : ∀ z, tokensFrom (feeds q) q.length (w ++ (a ++ '\n' :: z)) =
      before ++ tokensFrom (feeds (q ++ w)) (q ++ w).length (a ++ '\n' :: z))
    (reading : Over (q ++ w) a tokens) : Over q (w ++ a) (before ++ tokens) := by
  cases reading with
  | parted reads => exact .parted fun z => by rw [List.append_assoc, step, reads]; simp
  | @waiting kind front mark p x opens split reads =>
    refine .waiting opens (p := w ++ p) (x := x) (by rw [split, List.append_assoc]) fun z => ?_
    have here : tokensFrom _ _ (a ++ '\n' :: z) = _ := reads z
    rw [List.append_assoc, step, here]
    simp

theorem readingOver (q a : Text) :
    ∃ tokens, (∀ tok ∈ tokens, tok.stop ≤ (q ++ a).length) ∧ Over q a tokens := by
  induction a using Lexer.readingInduction generalizing q with
  | nil =>
    refine ⟨[], by simp, .parted fun z => ?_⟩
    rw [List.nil_append, tokensFromBlank _ _ (by decide)]
    simp
  | blank c t blank ih =>
    obtain ⟨tokens, bound, reading⟩ := ih (q ++ [c])
    refine ⟨tokens, by simpa using bound, reading.behind [] fun z => ?_⟩
    rw [List.singleton_append, tokensFromBlank _ _ blank]
    simp
  | lexeme c y u visible length ih =>
    by_cases ends : Shape.Ends (c :: y)
    · -- the lexeme ends before the line end, which is met in the rest
      obtain ⟨tokens, bound, reading⟩ := ih (q ++ c :: y)
      let tok : Token := ⟨Kind.ofLexeme (Shape.first (c :: y ++ u)).1 (c :: y), c :: y, q.length, feeds q⟩
      refine ⟨tok :: tokens, ?_, reading.behind [tok] fun z => ?_⟩
      · rw [List.forall_mem_cons, ← List.append_assoc]
        refine ⟨?_, bound⟩
        simp only [tok, Token.stop, List.length_append]
        omega
      · have first := ends.first length z
        rw [tokensFromLexeme _ _ visible (by rw [first, length]), first, ← feedsAppend, ← List.length_append]
        rfl
    · -- the lexeme waits for its mark and goes over the line end
      obtain ⟨kind, front, mark, cs, opens, split, absent⟩ :
          ∃ kind front mark cs, Shape.Opening kind front mark ∧ c :: y = front ++ cs ∧ ¬ mark <:+: cs := by
        simpa [Shape.Ends] using ends
      obtain rfl : u = [] := by
        by_contra some
        exact ends (Shape.endsBefore length some)
      refine ⟨[], by simp, .waiting opens (p := []) (x := c :: y) (by simp) fun z => ?_⟩
      have reads : tokensFrom (feeds q) q.length (c :: y ++ '\n' :: z) = _ :=
        tokensFromOpen opens absent split visible (feeds q) q.length z
      rw [List.append_nil, reads, ← feedsAppend, ← List.length_append]
      simp

inductive Behind (a : Text) (tokens : List Token) : Prop where
  | parted (reads : ∀ z, tokenize (a ++ z) = tokens ++ tokensFrom (feeds a) a.length z)
  | waiting {kind : Kind} {front mark p x : Text} (opens : Shape.Opening kind front mark)
      (split : a = p ++ (x ++ ['\n']))
      (reads : ∀ z, let text := x ++ '\n' :: z.take (Shape.through mark z)
        tokenize (a ++ z) = tokens ++ ⟨kind, text, p.length, feeds p⟩ ::
          tokensFrom (feeds (p ++ text)) (p ++ text).length (z.drop (Shape.through mark z)))

theorem readingBehind {a : Text} (start : lastLine a = []) :
    ∃ tokens, (∀ tok ∈ tokens, tok.stop < a.length) ∧ Behind a tokens := by
  rcases lineFront start with rfl | ⟨q, rfl⟩
  · exact ⟨[], by simp, .parted fun z => rfl⟩
  · obtain ⟨tokens, bound, reading⟩ := readingOver [] q
    have behind : ∀ z, q ++ ['\n'] ++ z = q ++ '\n' :: z := fun z => by
      rw [List.append_assoc, List.singleton_append]
    refine ⟨tokens, fun tok member => ?_, ?_⟩
    · rw [List.length_append]
      exact Nat.lt_succ_of_le (bound tok member)
    · cases reading with
      | parted reads => exact .parted fun z => (congrArg tokenize (behind z)).trans (reads z)
      | @waiting kind front mark p x opens split reads =>
        exact .waiting opens (p := p) (x := x) (by rw [split, List.append_assoc]) fun z =>
          (congrArg tokenize (behind z)).trans (reads z)

end Lexer

theorem tokenizeFeed {a : Text} (closed : ∀ tok ∈ tokenize a, ¬ tok.isUnclosed) (b : Text) :
    tokenize (a ++ '\n' :: b) =
      tokenize a ++ (tokenize b).map (Token.shift (a.length + 1) (feeds a + 1)) :=
  Lexer.tokenizeJoined a b fun tok member => (Token.alone member).ends (closed tok member)

theorem tokenizeFeedBackslash :
    let a := "/* x */ s\"y \\".toList
    let b := "z\" // w".toList
    (∀ tok ∈ tokenize a, ¬ tok.isUnclosed) ∧
      tokenize (a ++ '\n' :: b) = tokenize a ++ (tokenize b).map (Token.shift 14 1) := by
  intro a b
  have closed : ∀ tok ∈ tokenize a, ¬ tok.isUnclosed := by decide +kernel
  exact ⟨closed, tokenizeFeed closed b⟩

example : tokenize ("/*".toList ++ '\n' :: "x".toList) = [⟨.comment, "/*\nx".toList, 0, 0⟩] := by
  decide +kernel

theorem tokenizePrinted (text : Text) :
    (tokenize (unlines ((tokenize text).map Token.text))).map Token.lexeme =
      (tokenize text).map Token.lexeme ∧
    ∀ other, ∀ x ∈ tokenize text, ∀ y ∈ tokenize other, x.text = y.text → x.kind = y.kind := by
  refine ⟨Lexer.printed (fun tok => Token.alone) (Lexer.endsBut 0 0 text), fun other x here y there same => ?_⟩
  rw [(Token.alone here).kind, (Token.alone there).kind, same]

theorem tokenizePrintedCharacter :
    let x : Token := ⟨.character, "'a'".toList, 0, 0⟩
    let y : Token := ⟨.character, "'a'".toList, 1, 0⟩
    x ∈ tokenize "'a'b".toList ∧ y ∈ tokenize "b'a'".toList ∧ x.text = y.text ∧ x.kind = y.kind := by
  intro x y
  have here : x ∈ tokenize "'a'b".toList := by decide +kernel
  have there : y ∈ tokenize "b'a'".toList := by decide +kernel
  exact ⟨here, there, rfl, (tokenizePrinted "'a'b".toList).2 "b'a'".toList x here y there rfl⟩

end Indentation
