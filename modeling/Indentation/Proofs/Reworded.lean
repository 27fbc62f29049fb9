import Indentation.Proofs.Exchange
import Indentation.Proofs.Lossless
import Indentation.Proofs.Shapes.Firm

/-! Comments and strings with other characters. What stands behind the mark of a line comment or between the
quotes of a string is hidden from all that place a line: with other characters there the text is read to
matching tokens, so it is indented as before, and the result has the other characters in the same token. The
one thing that sees the characters is a quote in front of the token that no lexeme takes, since it may find its
partner among them. -/
namespace Indentation
open Lexer (feeds tokensFrom)
open Text

namespace Level
variable {q q' : Text}

theorem behind (q : Text) {x x' : Text} (feedless : '\n' ∉ x) (feedless' : '\n' ∉ x')
    (visible : ∃ c y y', x = c :: y ∧ x' = c :: y' ∧ isBlank c = false) (length : x.length = x'.length) :
    Level (q ++ x) (q ++ x') where
  feeds := by rw [feedsAppend, feedsAppend, feedsEqZero feedless, feedsEqZero feedless']
  inset := by
    obtain ⟨c, y, y', rfl, rfl, visible⟩ := visible
    rw [trail, trail, lastLineAppend q feedless, lastLineAppend q feedless', dropVisible visible,
      dropVisible visible, List.length_append, List.length_append, length]

end Level

namespace Shape

theorem commentEnd {old b : Text} (length : (first ('/' :: '/' :: (old ++ b))).2 = old.length + 2) :
    '\n' ∉ old ∧ firstLine b = [] := by
  rw [firstOfLine, Nat.add_left_inj] at length
  have split : firstLine (old ++ b) ++ (old ++ b).dropWhile (· != '\n') = old ++ b :=
    List.takeWhile_append_dropWhile
  have line := (List.append_inj split length).1
  have feedless : '\n' ∉ old := line ▸ firstLineFeedless (old ++ b)
  rw [firstLineAppend feedless] at line
  exact ⟨feedless, List.append_right_eq_self.mp line⟩

theorem tripleOpens {t : Text} (some : tripleString t ≠ 0) : ∃ cs, t.drop (word t) = '"' :: '"' :: '"' :: cs := by
  unfold tripleString at some
  split at some
  · exact ⟨_, ‹_›⟩
  · contradiction

theorem stringOpens {t : Text} (some : string t ≠ 0) : ∃ cs, t.drop (word t) = '"' :: cs := by
  unfold string at some
  split at some
  · exact ⟨_, ‹_›⟩
  · contradiction

theorem quoteWord {w u cs : Text} (free : '"' ∉ w)
    (quote : (w ++ '"' :: u).drop (word (w ++ '"' :: u)) = '"' :: cs) : word w = w.length := by
  have bound : word (w ++ '"' :: u) ≤ w.length := (wordBefore (by decide)).stops w u
  rw [wordSteady w _ bound]
  by_contra other
  rw [List.drop_append_of_le_length bound] at quote
  cases rest : w.drop (word (w ++ '"' :: u)) with
  | nil =>
    rw [List.drop_eq_nil_iff] at rest
    omega
  | cons d v =>
    rw [rest, List.cons_append] at quote
    have inside : d ∈ w := List.mem_of_mem_drop (rest ▸ List.mem_cons_self)
    rw [(List.cons.inj quote).1] at inside
    exact free inside

theorem stringEnds {w old b : Text} (free : '"' ∉ w) (single : old.head? ≠ some '"')
    (kind : (first (w ++ '"' :: (old ++ '"' :: b))).1 = .string)
    (length : (first (w ++ '"' :: (old ++ '"' :: b))).2 = (w ++ '"' :: (old ++ ['"'])).length) :
    word w = w.length ∧ '\n' ∉ w ++ '"' :: (old ++ ['"']) := by
  generalize text : w ++ '"' :: (old ++ '"' :: b) = t at kind length
  have shapes : ∀ f, (Kind.string, f) ∈ all → f = tripleString ∨ f = string := by simp [all]
  rcases firstShape t with ⟨f, member, measured, some⟩ | unknown
  · rw [kind] at member
    have quote : ∃ cs, t.drop (word t) = '"' :: cs := by
      rcases shapes f member with rfl | rfl
      · exact (tripleOpens some).imp' _ fun cs opens => opens
      · exact stringOpens some
    obtain ⟨cs, quote⟩ := quote
    have whole := quoteWord free (text ▸ quote)
    have front : word t = w.length := by rw [← text, wordQuote whole]
    refine ⟨whole, fun feed => ?_⟩
    rcases shapes f member with rfl | rfl
    · -- a string with three quotes is longer, or has a quote behind the first one
      obtain ⟨cs, opens⟩ := tripleOpens some
      rw [firstOfTriple opens, front] at length
      rw [front, ← text, List.drop_left] at opens
      cases old with
      | nil =>
        rw [List.length_append] at length
        simp only [List.nil_append, List.length_cons, List.length_nil] at length
        omega
      | cons d old =>
        have second : d = '"' := (List.cons.inj (List.cons.inj opens).2).1
        exact single (congrArg Option.some second)
    · have inside := stringInline t
      rw [← measured, length] at inside
      have taken := firstLineTake inside
      have text : t = w ++ '"' :: (old ++ ['"']) ++ b := by rw [← text]; simp
      rw [text, List.take_left] at taken
      exact firstLineFeedless _ (List.mem_of_mem_take (taken ▸ feed))
  · rw [unknown] at kind
    contradiction

end Shape

namespace Token
variable {t t' q a b x x' : Text} {tok : Token}

theorem matchesBefore {w mark old new behind v r : Text} (hidden : Shape.Hidden mark new behind)
    (feedless : '\n' ∉ old) (text : w ++ mark ++ (old ++ behind) = r) (split : t = a ++ r)
    (split' : t' = a ++ (w ++ mark ++ (new ++ behind))) (reaches : Lexer.Reaches v r) (place : a = q ++ v)
    (apart : ∀ tok ∈ tokensFrom (feeds q) q.length (v ++ r), tok.kind = .unknown →
      ¬ Shape.Pairs ((a ++ w ++ mark).drop tok.start) new)
    (rest : List.Forall₂ (Token.Match t t') (tokensFrom (feeds a) a.length r)
      (tokensFrom (feeds a) a.length (w ++ mark ++ (new ++ behind)))) :
    List.Forall₂ (Token.Match t t') (tokensFrom (feeds q) q.length (v ++ r))
      (tokensFrom (feeds q) q.length (v ++ (w ++ mark ++ (new ++ behind)))) := by
  induction reaches generalizing q with
  | nil r =>
    rw [List.append_nil] at place
    exact place ▸ rest
  | @blank c v r blank reaches ih =>
    rw [List.cons_append, tokensFromBlank q blank] at apart
    rw [List.cons_append, List.cons_append, tokensFromBlank q blank, tokensFromBlank q blank]
    exact ih text split (by simp [place]) apart rest
  | @lexeme c y v r visible length reaches ih =>
    have whole : ∀ inside, c :: y ++ v ++ w ++ mark ++ (inside ++ behind) =
        c :: y ++ (v ++ (w ++ mark ++ (inside ++ behind))) := by simp
    rw [List.append_assoc, tokensFromLexeme q visible length] at apart
    obtain ⟨here, later⟩ := List.forall_mem_cons.mp apart
    -- the lexeme ends in front of the exchanged characters, or it is a quote that must not pair with them
    have same : Shape.first (c :: y ++ (v ++ (w ++ mark ++ (new ++ behind)))) =
        Shape.first (c :: y ++ (v ++ r)) := by
      rw [← text, ← whole, ← whole]
      refine Shape.firstHidden (by simp) hidden feedless ?_ fun single pairs => ?_
      · rw [whole, text, length]
        simp
      · rw [whole, text] at single
        rw [single] at here length
        have front : (a ++ w ++ mark).drop q.length = c :: y ++ v ++ w ++ mark := by
          rw [place, List.append_assoc, List.append_assoc, List.drop_left, List.append_assoc (c :: y ++ v)]
        have begins : c :: y ++ v ++ w ++ mark = c :: y ++ (v ++ w ++ mark) := by simp
        exact here (pairs.unknownKind begins length.symm) (front ▸ pairs)
    have level : Level q q := ⟨rfl, rfl⟩
    rw [List.append_assoc, List.append_assoc, tokensFromLexeme q visible length,
      tokensFromLexeme q visible (same ▸ length), same]
    exact .cons (matchLevel level (split.trans (by rw [place, List.append_assoc]))
      (split'.trans (by rw [place, List.append_assoc])) rfl rfl (.inr rfl))
      (ih text split (by simp [place]) later rest)

theorem matchesLiteral {shape : Kind} (literal : shape = .comment ∨ shape = .string)
    (begins : ∃ c y y', x = c :: y ∧ x' = c :: y' ∧ isBlank c = false)
    (feedless : '\n' ∉ x) (feedless' : '\n' ∉ x')
    (first : Shape.first (x ++ b) = (shape, x.length)) (first' : Shape.first (x' ++ b) = (shape, x'.length))
    (split : t = a ++ (x ++ b)) (split' : t' = a ++ (x' ++ b))
    (rest : List.Forall₂ (Token.Match t t') (tokensFrom (feeds (a ++ x)) (a ++ x).length b)
      (tokensFrom (feeds (a ++ x')) (a ++ x').length b)) :
    List.Forall₂ (Token.Match t t') (tokensFrom (feeds a) a.length (x ++ b))
      (tokensFrom (feeds a) a.length (x' ++ b)) := by
  have level : Level a a := ⟨rfl, rfl⟩
  have none : ∀ x : Text, '\n' ∉ x → feeds x.dropLast = 0 := fun x none =>
    feedsEqZero fun member => none (List.mem_of_mem_dropLast member)
  obtain ⟨c, y, y', rfl, rfl, visible⟩ := begins
  rw [tokensFromLexeme a visible (by rw [first]), tokensFromLexeme a visible (by rw [first']), first, first']
  exact .cons (matchLevel level split split' (by rw [feedsEqZero feedless, feedsEqZero feedless'])
    (by rw [none _ feedless, none _ feedless']) (.inl literal)) rest

/- Other characters for a comment, or as many for a string, between what stays of the token before and behind
them. -/
inductive Rewords (tok : Token) (new : Text) : Text → Text → Prop where
  | comment {old : Text} (kind : tok.kind = .comment) (text : tok.text = '/' :: '/' :: old)
      (feedless : '\n' ∉ new) : Rewords tok new ['/', '/'] []
  | string {w old : Text} (kind : tok.kind = .string) (text : tok.text = w ++ '"' :: (old ++ ['"']))
      (free : '"' ∉ w) (single : old.head? ≠ some '"') (length : new.length = old.length)
      (plain : ∀ c ∈ new, c ≠ '"' ∧ c ≠ '\\' ∧ c ≠ '\n') : Rewords tok new (w ++ ['"']) ['"']

def reworded (tok : Token) (x t : Text) : Text := t.take tok.start ++ (x ++ t.drop tok.stop)

theorem Between.reworded (at_ : tok.Between a b) (x : Text) :
    tok.reworded x (a ++ (tok.text ++ b)) = a ++ (x ++ b) := by
  rw [Token.reworded, stop, at_.start, List.take_left, ← List.length_append, ← List.append_assoc a tok.text,
    List.drop_left]

namespace Rewords
variable {new opening closing : Text}

theorem front (rewords : tok.Rewords new opening closing) : ∃ z, tok.text = opening ++ z := by
  cases rewords with
  | @comment old kind text feedless => exact ⟨old, text⟩
  | @string w old kind text free single length plain => exact ⟨old ++ ['"'], by rw [text]; simp⟩

theorem nonempty (rewords : tok.Rewords new opening closing) : opening ≠ [] := by
  cases rewords <;> simp

theorem begins (rewords : tok.Rewords new opening closing) (at_ : tok.Between a b) :
    ∃ c y y', tok.text = c :: y ∧ opening ++ new ++ closing = c :: y' ∧ isBlank c = false := by
  obtain ⟨c, y, text, visible⟩ := at_.visible
  obtain ⟨z, front⟩ := rewords.front
  cases opening with
  | nil => exact absurd rfl rewords.nonempty
  | cons d o =>
    have head := (List.cons.inj (text.symm.trans front)).1
    exact ⟨c, y, o ++ new ++ closing, text, by rw [head]; rfl, visible⟩

theorem feedless (rewords : tok.Rewords new opening closing) (at_ : tok.Between a b) :
    '\n' ∉ tok.text ∧ '\n' ∉ opening ++ new ++ closing := by
  have length := at_.length
  cases rewords with
  | @comment old kind text feedless =>
    rw [text] at length ⊢
    have old := (Shape.commentEnd length).1
    simp [old, feedless]
  | @string w old kind text free single same plain =>
    have shape := Shape.firstOwn rfl (at_.kind.symm.trans kind)
    rw [text, List.append_assoc, List.cons_append, List.append_assoc] at length shape
    obtain ⟨whole, old⟩ := Shape.stringEnds free single shape length
    have word : '\n' ∉ w := Shape.wordFree whole (by decide) (by decide)
    have new : '\n' ∉ new := fun member => (plain _ member).2.2 rfl
    rw [text]
    exact ⟨old, by simp [word, new]⟩

theorem tokens (rewords : tok.Rewords new opening closing) (at_ : tok.Between a b)
    (reaches : Lexer.Reaches a (tok.text ++ b)) (other : opening ++ new ++ closing ≠ tok.text)
    (apart : ∀ q ∈ tokenize (a ++ (tok.text ++ b)), q.kind = .unknown →
      ¬ Shape.Pairs ((a ++ opening).drop q.start) new) :
    List.Forall₂ (Token.Match (a ++ (tok.text ++ b)) (a ++ (opening ++ new ++ closing ++ b)))
      (tokenize (a ++ (tok.text ++ b))) (tokenize (a ++ (opening ++ new ++ closing ++ b))) := by
  have begins := rewords.begins at_
  obtain ⟨feedless, feedless'⟩ := rewords.feedless at_
  have length := at_.length
  have split := (List.append_assoc a tok.text b).symm
  have split' := (List.append_assoc a (opening ++ new ++ closing) b).symm
  cases rewords with
  | @comment old kind text plain =>
    rw [text] at length
    obtain ⟨plain', ends⟩ := Shape.commentEnd length
    have first : ∀ inside, '\n' ∉ inside →
        Shape.first ('/' :: '/' :: inside ++ b) = (.comment, ('/' :: '/' :: inside).length) := by
      intro inside none
      rw [List.cons_append, List.cons_append, Shape.firstOfLine, firstLineAppend none, ends, List.append_nil]
      rfl
    have count : feeds (a ++ tok.text) = feeds (a ++ (['/', '/'] ++ new ++ [])) := by
      rw [feedsAppend, feedsAppend, feedsEqZero feedless, feedsEqZero feedless']
    have literal := matchesLiteral (.inl rfl) begins feedless feedless' (text ▸ first old plain')
      (by simpa using first new plain) rfl rfl (matchesNext ends count split split')
    have reading : ∀ inside, ['/', '/'] ++ inside ++ [] ++ b = [] ++ ['/', '/'] ++ (inside ++ b) := by simp
    rw [reading] at literal ⊢
    exact matchesBefore (q := []) (.comment plain ends) plain' (by rw [text]; rfl) rfl rfl reaches rfl
      (by rw [List.append_nil]; exact apart) literal
  | @string w old kind text free single same plain =>
    have some : new ≠ [] := by
      rintro rfl
      rw [List.length_eq_zero_iff.mp same.symm] at text
      exact other (by rw [text]; simp)
    have shape := Shape.firstOwn rfl (at_.kind.symm.trans kind)
    have ends : w ++ '"' :: (old ++ ['"']) ++ b = w ++ '"' :: (old ++ '"' :: b) := by simp
    have whole := (Shape.stringEnds free single (by rwa [← ends, ← text]) (by rwa [← ends, ← text])).1
    have size : tok.text.length = (w ++ ['"'] ++ new ++ ['"']).length := by
      rw [text]
      simp [same]
    have first : Shape.first (w ++ ['"'] ++ new ++ ['"'] ++ b) =
        (.string, (w ++ ['"'] ++ new ++ ['"']).length) := by
      have read := Shape.firstString whole some plain b
      simp [read, Nat.add_assoc]
    have literal := matchesLiteral (.inr rfl) begins feedless feedless' (Prod.ext shape length) first rfl rfl
      (matchesBehind (.behind a feedless feedless' begins size) split split')
    have reading : w ++ ['"'] ++ new ++ ['"'] ++ b = w ++ ['"'] ++ (new ++ '"' :: b) := by simp
    rw [reading] at literal ⊢
    have inside : '\n' ∉ old := fun member => feedless (by rw [text]; simp [member])
    exact matchesBefore (q := []) (.string some plain) inside (by rw [text]; simp) rfl rfl reaches rfl
      (by rw [List.append_assoc]; exact apart) literal

end Rewords
end Token

namespace Source
variable {a b : Text} {tok : Token} {new opening closing : Text} {settings : Settings} {strategy : Strategy}

theorem lastStageReworded (rewords : tok.Rewords new opening closing) (at_ : tok.Between a b)
    (reaches : Lexer.Reaches a (tok.text ++ b)) (other : opening ++ new ++ closing ≠ tok.text)
    (apart : ∀ q ∈ tokenize (a ++ (tok.text ++ b)), q.kind = .unknown →
      ¬ Shape.Pairs ((a ++ opening).drop q.start) new)
    {r : Text}
    (result : (ofText (a ++ (tok.text ++ b))).stage settings strategy (feeds (a ++ (tok.text ++ b)) + 1) = r)
    {tok' : Token} (member : tok' ∈ tokenize r) (twin : Token.Twin (a ++ (tok.text ++ b)) r tok tok') :
    let t' := a ++ (opening ++ new ++ closing ++ b)
    tok'.text = tok.text ∧
      (ofText t').stage settings strategy (feeds t' + 1) = tok'.reworded (opening ++ new ++ closing) r ∧
      (Text.lines ((ofText t').stage settings strategy (feeds t' + 1))).map (·.takeWhile isIndent) =
        (Text.lines r).map (·.takeWhile isIndent) := by
  intro t'
  obtain ⟨feedless, feedless'⟩ := rewords.feedless at_
  have text := twin.whole feedless
  have tokens := rewords.tokens at_ reaches other apart
  obtain ⟨A, B, split, _, at'⟩ := Token.reached member
  have line : feeds A = feeds a := by rw [← at'.line, ← twin.line, at_.line]
  have inset : trail A = trail a := by
    have trails := twin.trail
    rw [split, at_.start, at'.start, List.take_left, List.take_left] at trails
    exact trails.symm
  have replaced := at'.reworded (opening ++ new ++ closing)
  rw [← split] at replaced
  rw [← text] at split
  obtain ⟨c, y, y', begins, begins', visible⟩ := rewords.begins at_
  simp only [t']
  rw [replaced, ← text, split]
  rw [split] at result
  rw [begins] at feedless tokens result ⊢
  rw [begins'] at feedless' tokens ⊢
  have alike := exchangeAlike visible feedless feedless' tokens
  rw [lastStageExchange visible feedless feedless' alike result line inset]
  exact ⟨rfl, rfl, leadsAround visible feedless' feedless A B⟩

end Source

namespace Indenter

theorem reindentReworded (settings : Settings) (session : Session) (strategy : Option Strategy)
    {t new opening closing : Text} {i : Nat} {tok : Token} (found : (tokenize t)[i]? = some tok)
    (rewords : tok.Rewords new opening closing)
    (apart : ∀ q ∈ tokenize t, q.kind = .unknown →
      ¬ Shape.Pairs ((t.take (tok.start + opening.length)).drop q.start) new) :
    let ind : Indenter := { settings, session }
    let r := (ind.reindent t strategy).2.value
    let r' := (ind.reindent (tok.reworded (opening ++ new ++ closing) t) strategy).2.value
    (lines r').map (·.takeWhile isIndent) = (lines r).map (·.takeWhile isIndent) ∧
      ∃ tok', (tokenize r)[i]? = some tok' ∧ tok'.kind = tok.kind ∧ tok'.text = tok.text ∧
        r' = tok'.reworded (opening ++ new ++ closing) r := by
  intro ind r r'
  have value : r = _ := reindentValue settings session t strategy
  have value' : r' = _ := reindentValue settings session _ strategy
  have shifted := Source.stageShifted t settings (strategy.getD session.finish.effective) (feeds t + 1)
  rw [← value] at shifted
  obtain ⟨tok', found', twin⟩ := entryAlike shifted.twins found
  obtain ⟨a, b, split, reaches, at_⟩ := Token.reached (List.mem_of_getElem? found)
  have member' := List.mem_of_getElem? found'
  subst split
  rw [at_.reworded] at value'
  by_cases same : opening ++ new ++ closing = tok.text
  · rw [same, ← value] at value'
    obtain ⟨A, B, split, _, at'⟩ := Token.reached member'
    have text : tok'.text = tok.text := (twin.whole (rewords.feedless at_).1).symm
    refine ⟨by rw [value'], tok', found', twin.kind.symm, text, ?_⟩
    rw [value', same, ← text, split, at'.reworded]
  · have front : (a ++ (tok.text ++ b)).take (tok.start + opening.length) = a ++ opening := by
      obtain ⟨z, text⟩ := rewords.front
      rw [at_.start, ← List.length_append, text, List.append_assoc, ← List.append_assoc a, List.take_left]
    rw [front] at apart
    obtain ⟨text, exchanged, leads⟩ :=
      Source.lastStageReworded rewords at_ reaches same apart value.symm member' twin
    rw [value']
    exact ⟨leads, tok', found', twin.kind.symm, text, exchanged⟩

theorem reindentRewordedBrackets :
    let t := "\x60 (\"ab\", //x\nval y".toList
    let string : Token := ⟨.string, "\"ab\"".toList, 3, 0⟩
    let comment : Token := ⟨.comment, "//x".toList, 9, 0⟩
    let r := (({} : Indenter).reindent t none).2.value
    let apart (tok : Token) (opening new : Text) : Prop := ∀ q ∈ tokenize t, q.kind = .unknown →
      ¬ Shape.Pairs ((t.take (tok.start + opening.length)).drop q.start) new
    let same (tok : Token) (i : Nat) (x : Text) : Prop :=
      let r' := (({} : Indenter).reindent (tok.reworded x t) none).2.value
      (lines r').map (·.takeWhile isIndent) = (lines r).map (·.takeWhile isIndent) ∧
        ∃ tok', (tokenize r)[i]? = some tok' ∧ tok'.kind = tok.kind ∧ tok'.text = tok.text ∧ r' = tok'.reworded x r
    ((tokenize t)[2]? = some string ∧ string.Rewords "])".toList ['"'] ['"'] ∧ apart string ['"'] "])".toList ∧
      same string 2 (['"'] ++ "])".toList ++ ['"'])) ∧
    ((tokenize t)[4]? = some comment ∧ comment.Rewords "\")".toList ['/', '/'] [] ∧
      apart comment ['/', '/'] "\")".toList ∧ same comment 4 (['/', '/'] ++ "\")".toList ++ [])) := by
  intro t string comment r apart same
  have only : ∀ q ∈ tokenize t, q.kind = .unknown → q.start = 0 := by decide +kernel
  have free : ∀ tok opening new, '\x60' ∉ new → (∃ w, t.take (tok.start + opening.length) = '\x60' :: w) →
      apart tok opening new := by
    intro tok opening new none front q member unknown pairs
    obtain ⟨w, front⟩ := front
    rw [only q member unknown, front] at pairs
    cases pairs with
    | back _ closed => exact none closed
  have first : (tokenize t)[2]? = some string := by decide +kernel
  have last : (tokenize t)[4]? = some comment := by decide +kernel
  have inString : string.Rewords "])".toList ['"'] ['"'] :=
    .string rfl (show string.text = [] ++ '"' :: ("ab".toList ++ ['"']) from rfl) (by decide) (by decide) rfl (by simp)
  have inComment : comment.Rewords "\")".toList ['/', '/'] [] := .comment rfl rfl (by decide)
  have before : apart string ['"'] "])".toList := free _ _ _ (by decide) ⟨_, rfl⟩
  have before' : apart comment ['/', '/'] "\")".toList := free _ _ _ (by decide) ⟨_, rfl⟩
  exact ⟨⟨first, inString, before, reindentReworded {} {} none first inString before⟩,
    last, inComment, before', reindentReworded {} {} none last inComment before'⟩

theorem reindentRewordedPaired :
    let t := "\x60 ( //x\nval y".toList
    let u := "'\"a\" (\nval y".toList
    let comment : Token := ⟨.comment, "//x".toList, 4, 0⟩
    let string : Token := ⟨.string, "\"a\"".toList, 1, 0⟩
    let leads (t : Text) : List Text :=
      (lines (({} : Indenter).reindent t none).2.value).map (·.takeWhile isIndent)
    ((tokenize t)[2]? = some comment ∧ comment.Rewords ['\x60'] ['/', '/'] [] ∧
      leads (comment.reworded (['/', '/'] ++ ['\x60'] ++ []) t) ≠ leads t) ∧
    ((tokenize u)[1]? = some string ∧ string.Rewords ['\''] ['"'] ['"'] ∧
      leads (string.reworded (['"'] ++ ['\''] ++ ['"']) u) ≠ leads u) := by
  intro t u comment string leads
  have inComment : comment.Rewords ['\x60'] ['/', '/'] [] := .comment rfl rfl (by decide)
  have inString : string.Rewords ['\''] ['"'] ['"'] :=
    .string rfl (show string.text = [] ++ '"' :: (['a'] ++ ['"']) from rfl) (by decide) (by decide) rfl (by simp)
  exact ⟨⟨by decide +kernel, inComment, by decide +kernel⟩, by decide +kernel, inString, by decide +kernel⟩

end Indenter
end Indentation
