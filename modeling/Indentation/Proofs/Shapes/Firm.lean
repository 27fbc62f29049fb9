import Indentation.Proofs.Shapes.Returns

/-! Lexemes in front of characters that are exchanged. The two texts agree up to the mark of a comment or a
string, and the characters behind it are others. Words, symbols and numbers end before the mark. Other shapes
that go over the mark in the one text do so in the other, except that a quoted identifier or a character
literal may find its closing mark among the new characters. -/
namespace Indentation.Shape
open Text

def Firm (f : Shape) (w r r' : Text) : Prop := w.length < f (w ++ r') → w.length ≤ f (w ++ r)

variable {f g : Shape} {p : Char → Bool} {w r r' : Text}

theorem Steady.reaches (steady : Steady f) (whole : f w = w.length) (u : Text) : w.length ≤ f (w ++ u) := by
  by_contra inside
  have same := steady w u (by omega)
  omega

theorem Greedy.firm (greedy : Greedy f) (steady : Steady f) : Firm f w r r' := by
  intro beyond
  have whole : f w = w.length := (greedy w r').resolve_left (by omega)
  exact steady.reaches whole r

theorem Before.stops {m : Char} (before : Before m f) (x u : Text) : f (x ++ m :: u) ≤ x.length := by
  have front : ((x ++ m :: u).takeWhile (· != m)).length ≤ x.length := by
    rw [List.takeWhile_append]
    split
    · simp
    · exact (List.takeWhile_sublist _).length_le
  exact Nat.le_trans (before _) front

theorem Before.inside {m : Char} (before : Before m f) (x y u : Text) :
    f (x ++ m :: y ++ u) < (x ++ m :: y).length := by
  have bound := before.stops x (y ++ u)
  rw [List.append_assoc, List.cons_append, List.length_append, List.length_cons]
  omega

theorem Before.firm {m : Char} (before : Before m f) (x y : Text) : Firm f (x ++ m :: y) r r' := fun beyond =>
  absurd (before.inside x y r') (Nat.lt_asymm beyond)

theorem Firm.lead (h : Firm f w r r') (c : Char) : Firm (lead p f) (c :: w) r r' := by
  intro beyond
  rw [List.cons_append, leadCons] at beyond ⊢
  by_cases here : p c = true
  · rw [if_pos here, List.length_cons] at *
    have rest := h (by omega)
    omega
  · rw [if_neg here] at beyond
    contradiction

theorem Firm.headed (h : Firm f w r r') (some : w ≠ []) (c : Char) : Firm (headed p f) (c :: w) r r' := by
  intro beyond
  have positive := List.length_pos_iff.mpr some
  rw [List.cons_append, headedCons] at beyond ⊢
  by_cases both : p c = true ∧ f (w ++ r') ≠ 0
  · rw [if_pos both, List.length_cons] at beyond
    have rest := h (by omega)
    rw [if_pos ⟨both.1, by omega⟩, List.length_cons]
    omega
  · rw [if_neg both] at beyond
    contradiction

theorem Firm.led {k : Nat} (front : ∀ u, f (w ++ u) = k) (bound : k < w.length) (h : Firm g (w.drop k) r r') :
    Firm (led f g) w r r' := by
  intro beyond
  have length : (w.drop k).length = w.length - k := List.length_drop
  unfold Shape.led at beyond ⊢
  rw [front, List.drop_append_of_le_length (by omega)] at beyond ⊢
  split at beyond
  · contradiction
  · have rest := h (by omega)
    rw [if_neg (by omega)]
    omega

theorem Firm.orElse (some : w ≠ []) (hf : Firm f w r r') (hg : Firm g w r r')
    (none : f (w ++ r') = 0 → f (w ++ r) = 0) : Firm (orElse f g) w r r' := by
  intro beyond
  have positive := List.length_pos_iff.mpr some
  unfold Shape.orElse at beyond ⊢
  by_cases first : f (w ++ r') = 0
  · rw [if_pos first] at beyond
    rw [if_pos (none first)]
    exact hg beyond
  · rw [if_neg first] at beyond
    have rest := hf beyond
    rwa [if_neg (by omega)]

theorem stringTailFirm (last : w.getLast? ≠ some '\\') : Firm stringTail w r r' := by
  intro beyond
  exact stringTailSteady.reaches (stringTailWhole last beyond) r

theorem commentFirm (c d : Char) (w : Text) : Firm comment (c :: d :: w) r r' := by
  rw [commentEq]
  refine Firm.headed (Firm.orElse (List.cons_ne_nil d w) ?_ ?_ ?_) (List.cons_ne_nil d w) c
  · exact ((spanGreedy _).firm (spanSteady _)).lead d
  · exact ((throughGreedy _).firm (throughSteady _)).lead d
  · rw [List.cons_append, List.cons_append, leadCons, leadCons]
    split <;> simp

theorem wordFront {m : Char} (ends : m ∈ breaks) (x y : Text) :
    word x ≤ x.length ∧ ∀ u, word (x ++ m :: y ++ u) = word x := by
  have bound := (wordBefore ends).stops x
  have same : ∀ u, word x = word (x ++ m :: u) := fun u => wordSteady x _ (bound u)
  refine ⟨same [] ▸ bound [], fun u => ?_⟩
  rw [List.append_assoc, List.cons_append, ← same]

theorem lastRest {z : Text} {k : Nat} (bound : k < z.length) : (z.drop k).getLast? = z.getLast? := by
  rw [List.getLast?_drop, if_neg (by omega)]

theorem stringFirm {m : Char} (ends : m ∈ breaks) (x y : Text) (last : (x ++ m :: y).getLast? ≠ some '\\') :
    Firm string (x ++ m :: y) r r' := by
  obtain ⟨bound, front⟩ := wordFront ends x y
  have inside : word x < (x ++ m :: y).length := by
    rw [List.length_append, List.length_cons]
    omega
  rw [← lastRest inside] at last
  rw [stringEq]
  refine Firm.led front inside ?_
  cases rest : (x ++ m :: y).drop (word x) with
  | nil => simp [List.drop_eq_nil_iff] at rest; omega
  | cons a z =>
    rw [rest] at last
    exact (stringTailFirm (lastTail last)).lead a

theorem headedParts {c : Char} {t : Text} (found : headed p f (c :: t) ≠ 0) : p c = true ∧ f t ≠ 0 := by
  by_contra none
  exact found (by rw [headedCons, if_neg none])

theorem headedHead {m : Char} {t : Text} (found : headed (· == m) f t ≠ 0) : t.head? = some m := by
  cases t with
  | nil => contradiction
  | cons c t => simpa using (headedParts found).1

theorem leadHead {m : Char} {t : Text} (found : lead (· == m) f t ≠ 0) : t.head? = some m := by
  cases t with
  | nil => contradiction
  | cons c t =>
    rw [leadCons] at found
    simpa using found

theorem tripleStringFirm {m : Char} (ends : m ∈ breaks) (x y : Text)
    (single : (x ++ m :: y).getLast? = some '"' → r'.head? ≠ some '"') :
    Firm tripleString (x ++ m :: y) r r' := by
  obtain ⟨bound, front⟩ := wordFront ends x y
  have inside : word x < (x ++ m :: y).length := by
    rw [List.length_append, List.length_cons]
    omega
  rw [← lastRest inside] at single
  rw [tripleStringEq]
  refine Firm.led front inside ?_
  generalize (x ++ m :: y).drop (word x) = z at single
  rcases z with _ | ⟨a, _ | ⟨b, _ | ⟨c, z⟩⟩⟩
  · exact fun _ => Nat.zero_le _
  · intro beyond
    obtain ⟨quote, rest⟩ := headedParts (c := a) (t := r') (Nat.ne_zero_of_lt beyond)
    exact absurd (headedHead rest) (single (by simpa using quote))
  · intro beyond
    obtain ⟨_, middle⟩ := headedParts (c := a) (t := b :: r') (Nat.ne_zero_of_lt beyond)
    obtain ⟨quote, rest⟩ := headedParts middle
    exact absurd (leadHead rest) (single (by simpa using quote))
  · have rest : Firm (through ['"', '"', '"']) z r r' := (throughGreedy _).firm (throughSteady _)
    exact ((rest.lead c).headed (List.cons_ne_nil c z) b).headed (List.cons_ne_nil b _) a

/- Characters behind the mark of a line comment, up to the line end, or behind the mark of a string, up to
the closing quote. -/
inductive Hidden : Text → Text → Text → Prop where
  | comment {new behind : Text} (feedless : '\n' ∉ new) (ends : firstLine behind = []) :
      Hidden ['/', '/'] new behind
  | string {new behind : Text} (some : new ≠ []) (plain : ∀ c ∈ new, c ≠ '"' ∧ c ≠ '\\' ∧ c ≠ '\n') :
      Hidden ['"'] new ('"' :: behind)

/- A quote at the front of a text finds its partner among the characters behind the text. -/
inductive Pairs : Text → Text → Prop where
  | back {y new : Text} (free : ∀ c ∈ y, c ≠ '\x60' ∧ c ≠ '\n') (closed : '\x60' ∈ new) : Pairs ('\x60' :: y) new
  | single {new : Text} : Pairs ['\'', '"'] ('\'' :: new)
  | escaped {new : Text} : Pairs ['\'', '\\', '"'] ('\'' :: new)

def isQuotable (c : Char) : Bool := c != '\x60' && c != '\n'

theorem quotedClosing (u : Text) : (u.dropWhile isQuotable).head? = some '\x60' ↔ '\x60' ∈ firstLine u := by
  induction u with
  | nil => simp
  | cons c u ih =>
    by_cases back : c = '\x60'
    · simp [back, isQuotable, firstLineCons]
    · by_cases feed : c = '\n'
      · simp [feed, isQuotable]
      · have goes : isQuotable c = true := by simp [isQuotable, back, feed]
        rw [List.dropWhile_cons_of_pos goes, ih, firstLineCons feed, List.mem_cons]
        exact (or_iff_right (Ne.symm back)).symm

theorem quotedMeasure (t : Text) : quotedIdentifier ('\x60' :: t) = match t.drop (span isQuotable t) with
    | '\x60' :: _ => span isQuotable t + 2
    | _ => 0 := rfl

theorem quotedFree {y : Text} (free : ∀ c ∈ y, c ≠ '\x60' ∧ c ≠ '\n') (u : Text) :
    quotedIdentifier ('\x60' :: (y ++ u)) =
      if '\x60' ∈ firstLine u then y.length + span isQuotable u + 2 else 0 := by
  have front : ∀ c ∈ y, isQuotable c = true := fun c member => by simpa [isQuotable] using free c member
  have inside : span isQuotable (y ++ u) = y.length + span isQuotable u := by
    rw [span, List.takeWhile_append_of_pos front, List.length_append, span]
  have rest : (y ++ u).drop (y.length + span isQuotable u) = u.dropWhile isQuotable := by
    rw [List.drop_length_add_append]
    have parts : u.takeWhile isQuotable ++ u.dropWhile isQuotable = u := List.takeWhile_append_dropWhile
    have behind := congrArg (List.drop (span isQuotable u)) parts
    rwa [span, List.drop_left, eq_comm] at behind
  rw [quotedMeasure, inside, rest]
  have closing := quotedClosing u
  split
  · rename_i found
    rw [found] at closing
    rw [if_pos (closing.mp rfl)]
  · rename_i other
    rw [if_neg]
    intro member
    obtain ⟨v, found⟩ := List.head?_eq_some_iff.mp (closing.mpr member)
    exact other v found

theorem quotedBeyond {w u : Text} (some : w ≠ []) (beyond : w.length < quotedIdentifier (w ++ u)) :
    ∃ y, w = '\x60' :: y ∧ (∀ c ∈ y, c ≠ '\x60' ∧ c ≠ '\n') ∧ '\x60' ∈ firstLine u := by
  cases w with
  | nil => contradiction
  | cons c y =>
    have quote : c = '\x60' := by
      by_contra other
      simp [quotedIdentifier, other] at beyond
    subst quote
    have free : ∀ c ∈ y, c ≠ '\x60' ∧ c ≠ '\n' := by
      have length : y.length ≤ ((y ++ u).takeWhile isQuotable).length := by
        rw [List.cons_append, quotedMeasure, List.length_cons] at beyond
        unfold span at beyond
        split at beyond
        · exact Nat.le_of_lt_succ (Nat.lt_of_succ_lt_succ beyond)
        · contradiction
      have front : y <+: (y ++ u).takeWhile isQuotable :=
        List.prefix_of_prefix_length_le (List.prefix_append y u) (List.takeWhile_prefix _) length
      intro c member
      simpa [isQuotable] using List.mem_takeWhile_imp (front.subset member)
    rw [List.cons_append, quotedFree free] at beyond
    refine ⟨y, rfl, free, ?_⟩
    by_contra none
    rw [if_neg none] at beyond
    contradiction

theorem quotedIdentifierFirm {old new behind : Text} (some : w ≠ []) (feedless : '\n' ∉ old)
    (feedless' : '\n' ∉ new) (apart : ¬ Pairs w new) :
    Firm quotedIdentifier w (old ++ behind) (new ++ behind) := by
  intro beyond
  obtain ⟨y, rfl, free, closed⟩ := quotedBeyond some beyond
  have later : '\x60' ∈ firstLine behind := by
    rw [firstLineAppend feedless', List.mem_append] at closed
    exact closed.resolve_left fun member => apart (.back free member)
  have either : '\x60' ∈ firstLine (old ++ behind) := by
    rw [firstLineAppend feedless]
    exact List.mem_append_right _ later
  rw [List.cons_append, quotedFree free, if_pos either, List.length_cons]
  omega

theorem characterParts {t : Text} (some : character t ≠ 0) :
    (∃ c u, t = '\'' :: c :: '\'' :: u ∧ character t = 3) ∨
      ∃ c u, t = '\'' :: '\\' :: c :: '\'' :: u ∧ character t = 4 := by
  revert some
  fun_cases character t with
  | case1 u => exact fun some => absurd rfl some
  | case2 c u feed => exact fun _ => .inr ⟨c, u, rfl, rfl⟩
  | case3 c u escaped bad => exact fun some => absurd rfl some
  | case4 c u escaped good => exact fun _ => .inl ⟨c, u, rfl, rfl⟩
  | case5 t escaped plain => exact fun some => absurd rfl some

theorem characterSize (t : Text) : character t = 0 ∨ 3 ≤ character t := by
  by_cases none : character t = 0
  · exact .inl none
  · rcases characterParts none with ⟨_, _, _, size⟩ | ⟨_, _, _, size⟩ <;> omega

theorem characterFirm {x mark new behind : Text} (some : x ≠ []) (hidden : Hidden mark new behind)
    (apart : ¬ Pairs (x ++ mark) new) : Firm character (x ++ mark) r (new ++ behind) := by
  intro beyond
  have found := characterParts (Nat.ne_zero_of_lt beyond)
  have bound : (x ++ mark).length < 4 := by
    rcases found with ⟨_, _, _, size⟩ | ⟨_, _, _, size⟩ <;> omega
  cases hidden with
  | comment feedless ends =>
    rcases x with _ | ⟨a, _ | ⟨b, x⟩⟩
    · contradiction
    · simp at found
    · simp only [List.length_append, List.length_cons] at bound
      omega
  | @string new rest filled plain =>
    obtain ⟨d, new, rfl⟩ := List.exists_cons_of_ne_nil filled
    rcases x with _ | ⟨a, _ | ⟨b, _ | ⟨c, x⟩⟩⟩
    · contradiction
    · obtain ⟨⟨rfl, rfl⟩, _⟩ : (a = '\'' ∧ d = '\'') ∧ _ := by simpa using found
      exact absurd .single apart
    · rcases found with ⟨_, _, _, size⟩ | ⟨c, u, text, _⟩
      · rw [size] at beyond
        exact absurd beyond (Nat.lt_irrefl 3)
      · obtain ⟨rfl, rfl, _, rfl, _⟩ : a = '\'' ∧ b = '\\' ∧ '"' = c ∧ d = '\'' ∧ _ := by simpa using text
        exact absurd .escaped apart
    · simp only [List.length_append, List.length_cons] at bound
      omega

namespace Hidden
variable {x mark new behind : Text}

theorem feedless (hidden : Hidden mark new behind) : '\n' ∉ new := by
  cases hidden with
  | comment feedless ends => exact feedless
  | string some plain => exact fun member => (plain _ member).2.2 rfl

theorem breaks (hidden : Hidden mark new behind) : ∃ m y, mark = m :: y ∧ m ∈ Shape.breaks ∧
    (x ++ m :: y).getLast? ≠ some '\\' ∧
    ((x ++ m :: y).getLast? = some '"' → (new ++ behind).head? ≠ some '"') := by
  cases hidden with
  | comment feedless ends => exact ⟨'/', ['/'], rfl, by decide, by simp, by simp⟩
  | @string new rest some plain =>
    refine ⟨'"', [], rfl, by decide, by simp, fun _ => ?_⟩
    cases new with
    | nil => contradiction
    | cons d new => simpa using (plain d List.mem_cons_self).1

end Hidden

theorem identifierFirm {m : Char} (ends : m ∈ breaks) (x y : Text)
    (quoted : Firm quotedIdentifier (x ++ m :: y) r r') : Firm identifier (x ++ m :: y) r r' := by
  intro beyond
  unfold identifier at beyond ⊢
  split at beyond
  · exact absurd ((plainIdentifierBefore ends).inside x y r') (Nat.lt_asymm beyond)
  · have reached := quoted beyond
    have positive : 0 < (x ++ m :: y).length := List.length_pos_iff.mpr (by simp)
    rwa [if_neg (by omega)]

theorem allFirm {x mark old new behind : Text} (some : x ≠ []) (hidden : Hidden mark new behind)
    (feedless : '\n' ∉ old) (apart : ¬ Pairs (x ++ mark) new) :
    ∀ entry ∈ all, Firm entry.2 (x ++ mark) (old ++ behind) (new ++ behind) := by
  have character := characterFirm (r := old ++ behind) some hidden apart
  have quoted : Firm quotedIdentifier (x ++ mark) (old ++ behind) (new ++ behind) :=
    quotedIdentifierFirm (by simp [some]) feedless hidden.feedless apart
  obtain ⟨m, y, rfl, ends, last, single⟩ := hidden.breaks (x := x)
  have comment : Firm comment (x ++ m :: y) (old ++ behind) (new ++ behind) := by
    rcases x with _ | ⟨a, _ | ⟨b, x⟩⟩
    · contradiction
    · exact commentFirm a m y
    · exact commentFirm a b (x ++ m :: y)
  simp only [all, List.forall_mem_cons, List.not_mem_nil, false_imp_iff, implies_true, and_true]
  exact ⟨comment, tripleStringFirm ends x y single, stringFirm ends x y last, character,
    (numberBefore ends).firm x y, (symbolBefore ends).firm x y, identifierFirm ends x y quoted,
    (spanGreedy _).firm (spanSteady _)⟩

theorem firstFirm {w r r' : Text} (firm : ∀ entry ∈ all, Firm entry.2 w r r')
    (inside : (first (w ++ r)).2 < w.length) : first (w ++ r') = first (w ++ r) := by
  have shapes := allSteady
  unfold first at inside ⊢
  generalize all = shapes' at inside shapes firm ⊢
  induction shapes' with
  | nil => rfl
  | cons entry rest ih =>
    obtain ⟨steady, later⟩ := List.forall_mem_cons.mp shapes
    obtain ⟨here, firm⟩ := List.forall_mem_cons.mp firm
    rw [List.findSome?_cons, List.findSome?_cons] at *
    have same : entry.2 (w ++ r) < w.length → entry.2 (w ++ r') = entry.2 (w ++ r) := by
      intro within
      have within' : entry.2 (w ++ r') ≤ w.length := by
        by_contra beyond
        have more := here (by omega)
        omega
      rw [← steady w r' within', ← steady w r (by omega)]
    by_cases none : entry.2 (w ++ r) = 0
    · rw [if_pos none] at inside
      rw [same (by omega), if_pos none]
      exact ih inside later firm
    · rw [if_neg none] at inside
      rw [same inside, if_neg none]

theorem firstUnknown {t : Text} {n : Nat} (shapes : ∀ entry ∈ all, entry.2 t = 0 ∨ n ≤ entry.2 t)
    (inside : (first t).2 < n) : first t = (.unknown, 1) := by
  rcases firstShape t with ⟨f, member, length, some⟩ | single
  · have either := shapes _ member
    dsimp only at either
    omega
  · exact single

theorem quoteShapes {c : Char} (quote : c = '\x60' ∨ c = '\'') (t : Text) :
    comment (c :: t) = 0 ∧ tripleString (c :: t) = 0 ∧ string (c :: t) = 0 ∧ number (c :: t) = 0 ∧
      plainIdentifier (c :: t) = 0 ∧ operator (c :: t) = 0 := by
  have none : word (c :: t) = 0 := by rcases quote with rfl | rfl <;> rfl
  have strings : tripleString (c :: t) = 0 ∧ string (c :: t) = 0 := by
    rw [tripleString, string, none]
    rcases quote with rfl | rfl <;> exact ⟨rfl, rfl⟩
  have digit : Text.isDigit c = false := by rcases quote with rfl | rfl <;> decide
  have number : number (c :: t) = 0 := by
    rcases quote with rfl | rfl <;> simp [Shape.number, hexadecimal, decimal, span, digit]
  rcases quote with rfl | rfl
  · exact ⟨rfl, strings.1, strings.2, number, rfl, rfl⟩
  · exact ⟨rfl, strings.1, strings.2, number, rfl, rfl⟩

theorem Pairs.unknown {w new : Text} (pairs : Pairs w new) (inside : (first (w ++ r)).2 < w.length) :
    first (w ++ r) = (.unknown, 1) := by
  refine firstUnknown ?_ inside
  simp only [all, List.forall_mem_cons, List.not_mem_nil, false_imp_iff, implies_true, and_true]
  cases pairs with
  | @back y new free closed =>
    obtain ⟨comment, triple, string, number, plain, operator⟩ := quoteShapes (.inl rfl) (y ++ r)
    have quoted : identifier ('\x60' :: (y ++ r)) = 0 ∨ y.length + 1 ≤ identifier ('\x60' :: (y ++ r)) := by
      rw [identifier, plain, quotedFree free]
      by_cases closed : '\x60' ∈ firstLine r
      · rw [if_pos closed, if_neg (by omega)]
        omega
      · rw [if_neg closed, if_pos rfl]
        exact .inl rfl
    exact ⟨.inl comment, .inl triple, .inl string, .inl rfl, .inl number, .inl rfl, quoted, .inl operator⟩
  | single =>
    obtain ⟨comment, triple, string, number, plain, operator⟩ := quoteShapes (.inr rfl) ('"' :: r)
    have literal := (characterSize ('\'' :: '"' :: r)).imp_right Nat.le_of_succ_le
    exact ⟨.inl comment, .inl triple, .inl string, literal, .inl number, .inl rfl, .inl plain, .inl operator⟩
  | escaped =>
    obtain ⟨comment, triple, string, number, plain, operator⟩ := quoteShapes (.inr rfl) ('\\' :: '"' :: r)
    have literal := characterSize ('\'' :: '\\' :: '"' :: r)
    exact ⟨.inl comment, .inl triple, .inl string, literal, .inl number, .inl rfl, .inl plain, .inl operator⟩

theorem Pairs.unknownKind {w x z new : Text} (pairs : Pairs w new) (front : w = x ++ z) (one : x.length = 1) :
    Kind.ofLexeme .unknown x = .unknown := by
  obtain ⟨c, rfl⟩ := List.length_eq_one_iff.mp one
  have quote : c = '\x60' ∨ c = '\'' := by
    cases pairs with
    | back free closed => exact .inl (List.cons.inj front).1.symm
    | single => exact .inr (List.cons.inj front).1.symm
    | escaped => exact .inr (List.cons.inj front).1.symm
  rcases quote with rfl | rfl <;> decide

theorem firstHidden {x mark old new behind : Text} (some : x ≠ []) (hidden : Hidden mark new behind)
    (feedless : '\n' ∉ old) (inside : (first (x ++ mark ++ (old ++ behind))).2 ≤ x.length)
    (apart : first (x ++ mark ++ (old ++ behind)) = (.unknown, 1) → ¬ Pairs (x ++ mark) new) :
    first (x ++ mark ++ (new ++ behind)) = first (x ++ mark ++ (old ++ behind)) := by
  have within : (first (x ++ mark ++ (old ++ behind))).2 < (x ++ mark).length := by
    obtain ⟨m, y, rfl, _⟩ := hidden.breaks (x := x)
    rw [List.length_append, List.length_cons]
    omega
  exact firstFirm (allFirm some hidden feedless fun pairs => apart (pairs.unknown within) pairs) within

theorem firstOfLine (cs : Text) : first ('/' :: '/' :: cs) = (.comment, (firstLine cs).length + 2) := by
  have found : comment ('/' :: '/' :: cs) = (firstLine cs).length + 2 := Nat.add_comm 2 _
  simp [first, all, found]

theorem stringTailPlain {new : Text} (plain : ∀ c ∈ new, c ≠ '"' ∧ c ≠ '\\' ∧ c ≠ '\n') (behind : Text) :
    stringTail (new ++ '"' :: behind) = new.length + 1 := by
  induction new with
  | nil => rfl
  | cons c new ih =>
    obtain ⟨⟨quote, escape, feed⟩, rest⟩ := List.forall_mem_cons.mp plain
    rw [List.cons_append, stringTailOther quote feed escape, ih rest, List.length_cons]
    omega

theorem firstString {w new : Text} (whole : word w = w.length) (some : new ≠ [])
    (plain : ∀ c ∈ new, c ≠ '"' ∧ c ≠ '\\' ∧ c ≠ '\n') (behind : Text) :
    first (w ++ '"' :: (new ++ '"' :: behind)) = (.string, w.length + new.length + 2) := by
  have front := wordQuote whole (new ++ '"' :: behind)
  have rest : (w ++ '"' :: (new ++ '"' :: behind)).drop w.length = '"' :: (new ++ '"' :: behind) := List.drop_left
  have other : comment (w ++ '"' :: (new ++ '"' :: behind)) = 0 := commentOther (by rw [front, rest])
  have triple : tripleString (w ++ '"' :: (new ++ '"' :: behind)) = 0 := by
    cases new with
    | nil => contradiction
    | cons c new =>
      obtain ⟨⟨quote, _⟩, _⟩ := List.forall_mem_cons.mp plain
      rw [tripleString, front, rest]
      split
      · rename_i opens
        exact absurd (List.cons.inj (List.cons.inj opens).2).1 quote
      · rfl
  have found : string (w ++ '"' :: (new ++ '"' :: behind)) = w.length + new.length + 2 := by
    simp only [string, front, rest, stringTailPlain plain]
    omega
  simp [first, all, other, triple, found]

end Indentation.Shape
